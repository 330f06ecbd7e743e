/-
# The descriptors of a session

From `channel_init` to `channel_purge` a session is any sequence of channel operations, whatever
the operating system answers them, and of steps of the interpreter's task.  At every moment what
is held is what `fd0` and `fd1` say and what the task has still to close.
-/
import Glossh.Ssh.Ownership

namespace Glossh.Ssh

open Bytes Prog Ledger

/-! ## 1. The session -/

/-- A channel operation that acquires nothing. -/
inductive PlainCall where
  | openChannel (user : Bytes) (id remotewindow maxpacket : UInt32)
  | put (buf : Bytes)
  | puteof
  | read (len : ℤ) (r : ReadResult)
  | write (w : WriteResult)
  | waitnohang
  | incrementremotewindow (x : UInt32)
  | incrementlocalwindow (x : UInt32)

def PlainCall.prog : PlainCall → ChannelM Unit
  | .openChannel user id remotewindow maxpacket => do
    let _ ← channelOpen user id remotewindow maxpacket
  | .put buf => channelPut buf
  | .puteof => channelPuteof
  | .read len r => do
    let _ ← channelRead len r
  | .write w => do
    let _ ← channelWrite w
  | .waitnohang => do
    let _ ← channelWaitnohang
  | .incrementremotewindow x => channelIncrementremotewindow x
  | .incrementlocalwindow x => channelIncrementlocalwindow x

/-- The descriptors that were closed, latest first. -/
def closedFds (io : List FdEvent) : List ℤ :=
  io.filterMap fun e => match e with
    | .closed fd => some fd
    | _ => none

/-- A channel operation, whether it returns or ends the session. -/
def Owner.plain (s : Owner) {α : Type} (m : ChannelM α) : Owner :=
  { s with
    channel := (exec m ⟨s.channel, []⟩).2.channel
    fds := (closedFds (exec m ⟨s.channel, []⟩).2.io).map .released ++ s.fds }

/-- The next step of the task: the rest of its program, and then its two descriptors. -/
def Owner.taskStep (s : Owner) : Option Owner :=
  match s.task with
  | none => none
  | some t =>
    match t.todo, t.fds with
    | .freed b :: todo, _ =>
      some { s with task := some { t with todo := todo }, heap := .released b :: s.heap }
    | _ :: todo, _ => some { s with task := some { t with todo := todo } }
    | [], fd :: fds =>
      some { s with task := some { t with fds := fds }, fds := .released fd :: s.fds }
    | [], [] => none

/-- What happens between `channel_init` and `channel_purge`. -/
inductive OwnerEvent where
  | plain (c : PlainCall)
  | exec (cmd : Option Bytes) (e : ExecEnv) (info : SystemInfo) (input : Bytes)
  | task

def ownerStep (s : Owner) : OwnerEvent → Option Owner
  | .plain c => some (s.plain c.prog)
  | .exec cmd e info input => some (exec (Owner.channelExec cmd e info input) s).2
  | .task => s.taskStep

/-- Behind `channel_init`. -/
def ownerStart : Owner where
  channel := Channel.init
  task := none
  fds := []
  heap := []

/-- The task does not restart the chip. -/
def NoRestart (s : Owner) (e : OwnerEvent) : Prop :=
  match e with
  | .task => ∀ t, s.task = some t → t.todo.head? ≠ some .restart
  | _ => True

/-- Behind `channel_purge` only the task goes on. -/
def OnlyTask (s : Owner) (e : OwnerEvent) : Prop := e = .task ∧ NoRestart s e

/-- The task is at its end, or there is none. -/
def Owner.Finished (s : Owner) : Prop := ∀ t, s.task = some t → t.todo = [] ∧ t.fds = []

/-! ## 2. What an operation closes -/

/-- The descriptors the channel has. -/
def Channel.fds (c : Channel) : List ℤ :=
  (if c.fd0 = -1 then [] else [c.fd0]) ++ (if c.fd1 = -1 then [] else [c.fd1])

/-- An operation on the channel `c` came to `d`: what it closed and what the channel has left is
what the channel had. -/
structure Closes (c : Channel) (d : ChannelState) : Prop where
  fd2 : d.channel.fd2 = c.fd2
  pid : d.channel.pid = 0 → c.pid = 0
  fds : (closedFds d.io ++ d.channel.fds).Perm c.fds

section

variable {c : Channel}

theorem Closes.refl (c : Channel) : Closes c ⟨c, []⟩ := ⟨rfl, id, List.Perm.refl _⟩

/-- The descriptors stay. -/
theorem Closes.of_same {d : ChannelState} (hio : closedFds d.io = []) (h0 : d.channel.fd0 = c.fd0)
    (h1 : d.channel.fd1 = c.fd1) (h2 : d.channel.fd2 = c.fd2)
    (hpid : d.channel.pid = 0 → c.pid = 0) : Closes c d := by
  refine ⟨h2, hpid, ?_⟩
  rw [hio, Channel.fds, h0, h1]
  exact List.Perm.refl _

/-- `fd0` is closed. -/
theorem Closes.of_fd0 {d : ChannelState} (hopen : c.fd0 ≠ -1) (hio : closedFds d.io = [c.fd0])
    (h0 : d.channel.fd0 = -1) (h1 : d.channel.fd1 = c.fd1) (h2 : d.channel.fd2 = c.fd2)
    (hpid : d.channel.pid = 0 → c.pid = 0) : Closes c d := by
  refine ⟨h2, hpid, ?_⟩
  rw [hio, Channel.fds, Channel.fds, h0, h1, if_pos rfl, if_neg hopen]
  exact List.Perm.refl _

/-- `fd1` is closed. -/
theorem Closes.of_fd1 {d : ChannelState} (hopen : c.fd1 ≠ -1) (hio : closedFds d.io = [c.fd1])
    (h0 : d.channel.fd0 = c.fd0) (h1 : d.channel.fd1 = -1) (h2 : d.channel.fd2 = c.fd2)
    (hpid : d.channel.pid = 0 → c.pid = 0) : Closes c d := by
  refine ⟨h2, hpid, ?_⟩
  rw [hio, Channel.fds, Channel.fds, h0, h1, if_pos rfl, if_neg hopen, List.append_nil]
  exact List.perm_append_comm

/-- A check leaves everything as it is. -/
theorem Closes.bugIf_bind {α : Type} {cond : Channel → Bool} {errno : Errno}
    {g : Unit → ChannelM α} (h : cond c = false → Closes c (exec (g ()) ⟨c, []⟩).2) :
    Closes c (exec (bugIf cond errno >>= g) ⟨c, []⟩).2 := by
  rw [exec_bugIf_bind]
  split
  · exact Closes.refl c
  · rename_i hcond
    exact h (Bool.eq_false_iff.mpr hcond)

theorem closes_channelOpen (user : Bytes) (id remotewindow maxpacket : UInt32) :
    Closes c (exec (channelOpen user id remotewindow maxpacket) ⟨c, []⟩).2 := by
  refine Closes.bugIf_bind fun _ => Closes.bugIf_bind fun _ => Closes.bugIf_bind fun _ =>
    Closes.bugIf_bind fun _ => ?_
  rw [updateChannel, exec_modify_bind, exec_bugIf_bind]
  split
  · exact Closes.of_same rfl rfl rfl rfl fun h => h
  · exact Closes.of_same rfl rfl rfl rfl fun h => h

theorem closes_channelPut (buf : Bytes) : Closes c (exec (channelPut buf) ⟨c, []⟩).2 := by
  refine Closes.bugIf_bind fun _ => Closes.bugIf_bind fun _ => Closes.bugIf_bind fun _ =>
    Closes.bugIf_bind fun _ => ?_
  exact Closes.of_same rfl rfl rfl rfl id

theorem closes_channelPuteof : Closes c (exec channelPuteof ⟨c, []⟩).2 := by
  refine Closes.bugIf_bind fun _ => Closes.bugIf_bind fun _ => Closes.bugIf_bind fun hopen => ?_
  rw [updateChannel, exec_modify_bind, exec_reads_bind]
  split
  · exact Closes.of_fd0 (of_decide_eq_false hopen) rfl rfl rfl rfl id
  · exact Closes.of_same rfl rfl rfl rfl id

theorem closes_channelRead (len : ℤ) (r : ReadResult) :
    Closes c (exec (channelRead len r) ⟨c, []⟩).2 := by
  refine Closes.bugIf_bind fun _ => Closes.bugIf_bind fun _ => Closes.bugIf_bind fun hopen =>
    Closes.bugIf_bind fun _ => ?_
  have hfd1 : c.fd1 ≠ -1 := of_decide_eq_false hopen
  rw [exec_reads_bind]
  split
  · exact Closes.refl c
  split
  · exact Closes.refl c
  · exact Closes.of_same rfl rfl rfl rfl id
  · exact Closes.of_fd1 hfd1 rfl rfl rfl rfl id
  · exact Closes.of_fd1 hfd1 rfl rfl rfl rfl id

theorem closes_channelWrite (w : WriteResult) :
    Closes c (exec (channelWrite w) ⟨c, []⟩).2 := by
  refine Closes.bugIf_bind fun _ => Closes.bugIf_bind fun _ => Closes.bugIf_bind fun hopen => ?_
  have hfd0 : c.fd0 ≠ -1 := of_decide_eq_false hopen
  rw [exec_reads_bind]
  split
  · exact Closes.refl c
  split
  · exact Closes.refl c
  · exact Closes.of_fd0 hfd0 rfl rfl rfl rfl id
  · exact Closes.of_fd0 hfd0 rfl rfl rfl rfl id
  · rw [fdEvent, exec_modify_bind, updateChannel, exec_modify_bind, exec_reads_bind]
    split
    · exact Closes.of_fd0 hfd0 rfl rfl rfl rfl id
    · exact Closes.of_same rfl rfl rfl rfl id

theorem closes_channelWaitnohang : Closes c (exec channelWaitnohang ⟨c, []⟩).2 := by
  refine Closes.bugIf_bind fun _ => ?_
  rw [exec_reads_bind]
  split
  · exact Closes.refl c
  · exact Closes.of_same rfl rfl rfl rfl fun h => by cases h

/-- **What a call closes, the channel had.** -/
theorem PlainCall.closes (call : PlainCall) : Closes c (exec call.prog ⟨c, []⟩).2 := by
  have hdrop : ∀ {α : Type} {m : ChannelM α}, Closes c (exec m ⟨c, []⟩).2 →
      Closes c (exec (m >>= fun _ => (pure () : ChannelM Unit)) ⟨c, []⟩).2 := by
    intro α m hm
    rcases hexec : exec m ⟨c, []⟩ with ⟨_ | a, d⟩ <;> rw [hexec] at hm
    · rw [exec_bind_error hexec]
      exact hm
    · rw [exec_bind_ok hexec]
      exact hm
  cases call with
  | openChannel user id remotewindow maxpacket => exact hdrop (closes_channelOpen _ _ _ _)
  | put buf => exact closes_channelPut buf
  | puteof => exact closes_channelPuteof
  | read len r => exact hdrop (closes_channelRead len r)
  | write w => exact hdrop (closes_channelWrite w)
  | waitnohang => exact hdrop closes_channelWaitnohang
  | incrementremotewindow x => exact Closes.of_same rfl rfl rfl rfl id
  | incrementlocalwindow x => exact Closes.of_same rfl rfl rfl rfl id

theorem exec_closeIfOpen_bind {α : Type} (fd : Channel → ℤ) (g : Unit → ChannelM α)
    (s : ChannelState) : exec (closeIfOpen fd >>= g) s =
      exec (g ()) { s with
        io := (if fd s.channel = -1 then [] else [.closed (fd s.channel)]) ++ s.io } := by
  by_cases hfd : fd s.channel = -1
  · have hexec : exec (closeIfOpen fd) s = (.ok (), s) := by
      rw [closeIfOpen, exec_reads_bind, if_neg (not_not.mpr hfd), exec_pure]
    rw [exec_bind_ok hexec, if_pos hfd, List.nil_append]
  · have hexec : exec (closeIfOpen fd) s =
        (.ok (), { s with io := .closed (fd s.channel) :: s.io }) := by
      rw [closeIfOpen, exec_reads_bind, if_pos hfd]
      rfl
    rw [exec_bind_ok hexec, if_neg hfd, List.singleton_append]

/-- **`channel_purge` closes what the channel has.** -/
theorem closedFds_channelPurge (hfd2 : c.fd2 = -1) :
    (closedFds (exec channelPurge ⟨c, []⟩).2.io).Perm c.fds := by
  have hio : (exec channelPurge ⟨c, []⟩).2.io =
      (if c.fd1 = -1 then [] else [.closed c.fd1]) ++
        ((if c.fd0 = -1 then [] else [.closed c.fd0]) ++ []) := by
    rw [channelPurge, exec_closeIfOpen_bind, exec_closeIfOpen_bind, exec_closeIfOpen_bind]
    change (if c.fd2 = -1 then [] else [FdEvent.closed c.fd2]) ++ _ = _
    rw [if_pos hfd2, List.nil_append]
  rw [hio, closedFds, List.append_nil, List.filterMap_append, Channel.fds]
  refine List.perm_append_comm.trans (List.Perm.append ?_ ?_)
  · split
    · exact List.Perm.refl _
    · exact List.Perm.refl _
  · split
    · exact List.Perm.refl _
    · exact List.Perm.refl _

end

/-! ## 3. What is held -/

/-- The descriptors the task has still to close. -/
def Owner.taskFds (s : Owner) : List ℤ :=
  match s.task with
  | some t => t.fds
  | none => []

/-- The blocks it has still to free. -/
def Owner.taskBlocks (s : Owner) : List Block :=
  match s.task with
  | some t => freedBlocks t.todo
  | none => []

/-- What is held is `l` and what the task has, and nothing else was closed or freed. -/
structure Accounts (l : List ℤ) (s : Owner) : Prop where
  fds : (held s.fds).Perm (l ++ s.taskFds)
  ownedFds : Owned s.fds
  heap : (held s.heap).Perm s.taskBlocks
  ownedHeap : Owned s.heap

/-- What is held is what the channel and the task have. -/
structure Owns (s : Owner) : Prop extends Accounts s.channel.fds s where
  fd2 : s.channel.fd2 = -1
  idle : s.channel.pid = 0 → s.channel.fds = [] ∧ s.task = none

theorem owns_ownerStart : Owns ownerStart :=
  ⟨⟨List.Perm.refl _, trivial, List.Perm.refl _, trivial⟩, rfl, fun _ => ⟨rfl, rfl⟩⟩

/-- **A step of the task** closes or frees what the task has. -/
theorem Accounts.taskStep {l : List ℤ} {s t : Owner} (h : Accounts l s)
    (hstep : s.taskStep = some t) : Accounts l t ∧ t.channel = s.channel ∧
      (s.task = none → t.task = none) ∧ ∃ r : List ℤ, t.fds = r.map .released ++ s.fds := by
  obtain ⟨hfds, hownedFds, hheap, hownedHeap⟩ := h
  unfold Owner.taskStep at hstep
  unfold Owner.taskFds at hfds
  unfold Owner.taskBlocks at hheap
  cases htask : s.task with
  | none =>
    rw [htask] at hstep
    cases hstep
  | some task =>
    obtain ⟨args, todo, fds⟩ := task
    rw [htask] at hstep hfds hheap
    cases todo with
    | nil =>
      cases fds with
      | nil => cases hstep
      | cons fd fds =>
        obtain rfl := Option.some.inj hstep
        have hheld : (held s.fds).Perm ([fd] ++ (l ++ fds)) := hfds.trans List.perm_middle
        obtain ⟨hrest, howned⟩ := held_releases hheld
        exact ⟨⟨hrest, howned hownedFds, hheap, hownedHeap⟩, rfl, nofun, [fd], rfl⟩
    | cons e todo =>
      cases e with
      | freed b =>
        obtain rfl := Option.some.inj hstep
        have hheld : (held s.heap).Perm ([b] ++ freedBlocks todo) := hheap
        obtain ⟨hrest, howned⟩ := held_releases hheld
        exact ⟨⟨hfds, hownedFds, hrest, howned hownedHeap⟩, rfl, nofun, [], rfl⟩
      | _ =>
        obtain rfl := Option.some.inj hstep
        exact ⟨⟨hfds, hownedFds, hheap, hownedHeap⟩, rfl, nofun, [], rfl⟩

namespace Owns

variable {s : Owner}

theorem plain (h : Owns s) (call : PlainCall) : Owns (s.plain call.prog) := by
  obtain ⟨hfd2, hpid, hfds⟩ := call.closes (c := s.channel)
  have hheld : (held s.fds).Perm (closedFds (exec call.prog ⟨s.channel, []⟩).2.io ++
      ((exec call.prog ⟨s.channel, []⟩).2.channel.fds ++ s.taskFds)) := by
    refine h.fds.trans ?_
    rw [← List.append_assoc]
    exact hfds.symm.append_right _
  obtain ⟨hrest, howned⟩ := held_releases hheld
  refine ⟨⟨hrest, howned h.ownedFds, h.heap, h.ownedHeap⟩, hfd2.trans h.fd2, ?_⟩
  intro hzero
  obtain ⟨hnil, htask⟩ := h.idle (hpid hzero)
  rw [hnil] at hfds
  exact ⟨(List.append_eq_nil_iff.mp hfds.eq_nil).2, htask⟩

/-- The two ends of a pair are descriptors. -/
theorem pair_nonneg {e : SocketpairEnv} {fds : ℤ × ℤ} (h : e.pair = some fds) :
    0 ≤ fds.1 ∧ 0 ≤ fds.2 := by
  unfold SocketpairEnv.pair at h
  split at h
  · split at h
    · obtain rfl := Option.some.inj h
      exact ⟨Int.natCast_nonneg _, Int.natCast_nonneg _⟩
    · cases h
  · cases h

/-- **`channel_exec`** shares the two pairs out. -/
theorem exec (h : Owns s) (cmd : Option Bytes) (e : ExecEnv) (info : SystemInfo) (input : Bytes) :
    Owns (Prog.exec (Owner.channelExec cmd e info input) s).2 := by
  have hrun := (Owner.triple_channelExec s cmd e info input).run s rfl
  rcases hexec : Prog.exec (Owner.channelExec cmd e info input) s with ⟨_ | ok, t⟩ <;>
    rw [hexec] at hrun
  · obtain ⟨rfl, -⟩ := hrun
    exact h
  obtain ⟨hready, ⟨-, -, ht⟩ | ⟨-, -, fdsIn, fdsOut, s₁, hin, hout, hs₁, ht⟩⟩ := hrun
  · have hfds : t.taskFds = s.taskFds := by rw [Owner.taskFds, Owner.taskFds, ht.task_eq]
    have hblocks : t.taskBlocks = s.taskBlocks := by
      rw [Owner.taskBlocks, Owner.taskBlocks, ht.task_eq]
    refine ⟨⟨?_, ht.ownedFds h.ownedFds, ?_, ht.ownedHeap h.ownedHeap⟩, ?_, ?_⟩
    · rw [ht.channel_eq, hfds]
      exact ht.fds.trans h.fds
    · rw [hblocks]
      exact ht.heap.trans h.heap
    · rw [ht.channel_eq]
      exact h.fd2
    · rw [ht.channel_eq, ht.task_eq]
      exact h.idle
  · obtain ⟨hnil, hnone⟩ := h.idle hready.2
    obtain ⟨hin0, -⟩ := pair_nonneg hin
    obtain ⟨hout0, -⟩ := pair_nonneg hout
    have hfds : held s.fds = [] := by
      have hheld := h.fds
      rw [hnil, Owner.taskFds, hnone] at hheld
      exact hheld.eq_nil
    have hheap : held s.heap = [] := by
      have hheld := h.heap
      rw [Owner.taskBlocks, hnone] at hheld
      exact hheld.eq_nil
    have hchannel : t.channel.fds = [fdsIn.1, fdsOut.1] := by
      have hne : fdsIn.1 ≠ -1 := by omega
      have hne' : fdsOut.1 ≠ -1 := by omega
      rw [ht, Channel.fds, if_neg hne, if_neg hne']
      rfl
    have htask : t.taskFds = [fdsIn.2, fdsOut.2] := by rw [ht]; rfl
    have hblocks : t.taskBlocks = freedBlocks (interpreterTask info
        ⟨fdsIn.2, fdsOut.2, Owner.copyOf cmd e⟩ input) := by rw [ht]; rfl
    refine ⟨⟨?_, ?_, ?_, ?_⟩, by rw [ht], by rw [ht]; exact nofun⟩
    · have hheld := hs₁.fds
      rw [hfds, List.append_nil] at hheld
      rw [hchannel, htask, ht]
      refine hheld.trans ((List.reverse_perm _).symm.trans ?_)
      exact (List.Perm.swap _ _ _).cons _
    · rw [ht]
      exact hs₁.ownedFds h.ownedFds
    · have hheld := hs₁.heap
      rw [hheap, List.append_nil] at hheld
      rw [hblocks, freedBlocks_interpreterTask, ht]
      generalize Owner.copyOf cmd e = copy at hheld ⊢
      cases copy with
      | some x => exact hheld.trans (List.Perm.swap _ _ _)
      | none => exact hheld
    · rw [ht]
      exact hs₁.ownedHeap h.ownedHeap

/-- **One event** of the session. -/
theorem step (h : Owns s) {t : Owner} (e : OwnerEvent) (hstep : ownerStep s e = some t) :
    Owns t := by
  cases e with
  | plain call =>
    obtain rfl := Option.some.inj hstep
    exact h.plain call
  | exec cmd e info input =>
    obtain rfl := Option.some.inj hstep
    exact h.exec cmd e info input
  | task =>
    obtain ⟨hkept, hchannel, hnone, -⟩ := h.toAccounts.taskStep hstep
    refine ⟨by rw [hchannel]; exact hkept, by rw [hchannel]; exact h.fd2, ?_⟩
    rw [hchannel]
    exact fun hpid => ⟨(h.idle hpid).1, hnone (h.idle hpid).2⟩

/-- **Behind `channel_purge`** only the task has something. -/
theorem purge (h : Owns s) : Accounts [] (s.plain channelPurge) := by
  have hheld : (held s.fds).Perm
      (closedFds (Prog.exec channelPurge ⟨s.channel, []⟩).2.io ++ s.taskFds) :=
    h.fds.trans ((closedFds_channelPurge h.fd2).symm.append_right _)
  obtain ⟨hrest, howned⟩ := held_releases hheld
  exact ⟨hrest, howned h.ownedFds, h.heap, h.ownedHeap⟩

end Owns

/-! ## 4. Every session -/

theorem owns_of_run {s : Owner} (hs : Run ownerStep NoRestart ownerStart s) : Owns s :=
  hs.invariant Owns owns_ownerStart fun _ e _ h _ hstep => h.step e hstep

/-- Behind `channel_purge`, and however far the task has come. -/
theorem accounts_of_run {s u : Owner} (hs : Run ownerStep NoRestart ownerStart s)
    (hu : Run ownerStep OnlyTask (s.plain channelPurge) u) :
    Accounts [] u ∧ ∃ r : List ℤ, u.fds = r.map .released ++ s.fds := by
  refine hu.invariant (fun u => Accounts [] u ∧ ∃ r : List ℤ, u.fds = r.map .released ++ s.fds)
    ⟨(owns_of_run hs).purge, _, rfl⟩ ?_
  rintro u e v ⟨hkept, r, hr⟩ ⟨rfl, -⟩ hstep
  obtain ⟨hkept', -, -, r', hr'⟩ := hkept.taskStep hstep
  refine ⟨hkept', r' ++ r, ?_⟩
  rw [hr', hr, List.map_append, List.append_assoc]

/-- **The task comes to its end**, unless it restarts the chip. -/
theorem finishes {s : Owner} {t : Task} (htask : s.task = some t) (hno : .restart ∉ t.todo) :
    ∃ u, Run ownerStep OnlyTask s u ∧ u.Finished := by
  obtain ⟨args, todo, fds⟩ := t
  have hstep : ∀ {s u : Owner} {t : Task}, s.task = some t → t.todo.head? ≠ some .restart →
      s.taskStep = some u → Run ownerStep OnlyTask s u := by
    intro s u t ht hhead hu
    have hallowed : OnlyTask s .task := by
      refine ⟨rfl, fun t' ht' => ?_⟩
      obtain rfl := Option.some.inj (ht.symm.trans ht')
      exact hhead
    exact Run.start.next hallowed hu
  induction todo generalizing s with
  | nil =>
    induction fds generalizing s with
    | nil =>
      refine ⟨s, Run.start, fun t ht => ?_⟩
      obtain rfl := Option.some.inj (htask.symm.trans ht)
      exact ⟨rfl, rfl⟩
    | cons fd fds ih =>
      have hclose : s.taskStep = some { s with
          task := some ⟨args, [], fds⟩, fds := .released fd :: s.fds } := by
        rw [Owner.taskStep, htask]
      obtain ⟨u, hrun, hend⟩ := ih (s := { s with
        task := some ⟨args, [], fds⟩, fds := .released fd :: s.fds }) rfl hno
      exact ⟨u, (hstep htask (by simp) hclose).trans hrun, hend⟩
  | cons e todo ih =>
    have hhead : (e :: todo).head? ≠ some .restart := by
      rintro hhead
      obtain rfl := Option.some.inj hhead
      exact hno (List.mem_cons_self ..)
    have hrest : TaskEvent.restart ∉ todo := fun h => hno (List.mem_cons_of_mem _ h)
    obtain ⟨s', hs', htask'⟩ : ∃ s', s.taskStep = some s' ∧ s'.task = some ⟨args, todo, fds⟩ := by
      rw [Owner.taskStep, htask]
      cases e <;> exact ⟨_, rfl, rfl⟩
    obtain ⟨u, hrun, hend⟩ := ih htask' hrest
    exact ⟨u, (hstep htask hhead hs').trans hrun, hend⟩

/-- **Every descriptor of a session is closed exactly once.**  Whatever fails: no other descriptor
is closed; until the channel is purged each of its three is -1, or open and not the task's; and
behind the purge the task comes to its end, unless it restarts the chip, and then each descriptor
was closed as often as it was opened, where openings and closings take turns. -/
theorem descriptors_closed_once {s : Owner} (hs : Run ownerStep NoRestart ownerStart s)
    (hfresh : Fresh s.fds) :
    Owned s.fds ∧
    (∀ fd ∈ [s.channel.fd0, s.channel.fd1, s.channel.fd2],
      fd = -1 ∨ fd ∈ held s.fds ∧ fd ∉ s.taskFds) ∧
    ∀ u, Run ownerStep OnlyTask (s.plain channelPurge) u →
      (∀ l, l <:+ u.fds → Owned l ∧ ∀ fd, l.count (.released fd) ≤ l.count (.acquired fd) ∧
        l.count (.acquired fd) ≤ l.count (.released fd) + 1) ∧
      ((∀ t, u.task = some t → .restart ∉ t.todo) →
        ∃ v, Run ownerStep OnlyTask u v ∧ v.Finished) ∧
      (u.Finished → ∀ fd, u.fds.count (.acquired fd) = u.fds.count (.released fd)) := by
  have howns := owns_of_run hs
  refine ⟨howns.ownedFds, ?_, ?_⟩
  · have hnodup := howns.fds.nodup_iff.mp hfresh.nodup
    have hmine : ∀ fd, fd ∈ s.channel.fds → fd ∈ held s.fds ∧ fd ∉ s.taskFds := by
      intro fd hfd
      refine ⟨howns.fds.mem_iff.mpr (List.mem_append_left _ hfd), fun htask => ?_⟩
      exact (List.nodup_append.mp hnodup).2.2 fd hfd fd htask rfl
    intro fd hfd
    simp only [List.mem_cons, List.not_mem_nil, or_false] at hfd
    by_cases hnone : fd = -1
    · exact .inl hnone
    refine .inr (hmine fd ?_)
    rcases hfd with rfl | rfl | rfl
    · rw [Channel.fds, if_neg hnone]
      exact List.mem_append_left _ (List.mem_singleton_self _)
    · refine List.mem_append_right _ ?_
      rw [if_neg hnone]
      exact List.mem_singleton_self _
    · exact absurd howns.fd2 hnone
  · intro u hu
    obtain ⟨haccounts, r, hr⟩ := accounts_of_run hs hu
    have hfreshu : Fresh u.fds := by
      rw [hr]
      exact hfresh.releases
    refine ⟨fun l hl => ⟨haccounts.ownedFds.of_suffix hl, fun fd =>
      take_turns (hfreshu.of_suffix hl) (haccounts.ownedFds.of_suffix hl) fd⟩, ?_, ?_⟩
    · intro hno
      cases htask : u.task with
      | none => exact ⟨u, Run.start, fun t ht => by rw [htask] at ht; cases ht⟩
      | some t => exact finishes htask (hno t htask)
    intro hend fd
    refine balanced haccounts.ownedFds ?_ fd
    have hheld := haccounts.fds
    unfold Owner.taskFds at hheld
    cases htask : u.task with
    | none =>
      rw [htask] at hheld
      exact hheld.eq_nil
    | some t =>
      rw [htask] at hheld
      change (held u.fds).Perm t.fds at hheld
      rw [(hend t htask).2] at hheld
      exact hheld.eq_nil

/-- **What `channel_exec` allocates is freed exactly once**, when the task is at its end. -/
theorem blocks_freed_once {s u : Owner} (hs : Run ownerStep NoRestart ownerStart s)
    (hu : Run ownerStep OnlyTask (s.plain channelPurge) u) (hend : u.Finished) (b : Block) :
    Owned u.heap ∧ u.heap.count (.acquired b) = u.heap.count (.released b) := by
  obtain ⟨haccounts, -⟩ := accounts_of_run hs hu
  refine ⟨haccounts.ownedHeap, balanced haccounts.ownedHeap ?_ b⟩
  have hheld := haccounts.heap
  unfold Owner.taskBlocks at hheld
  cases htask : u.task with
  | none =>
    rw [htask] at hheld
    exact hheld.eq_nil
  | some t =>
    rw [htask] at hheld
    change (held u.heap).Perm (freedBlocks t.todo) at hheld
    rw [(hend t htask).1] at hheld
    exact hheld.eq_nil

/-- A session with one command, and what it does before the channel is purged. -/
def helpSession : List OwnerEvent :=
  [.plain (.openChannel (ascii "admin") 7 2097152 32768),
    .exec (some (ascii "help")) workingSockets ⟨0, 2, []⟩ [],
    .plain (.put (ascii "x")), .plain (.write (.wrote 1)), .task, .plain .puteof]

def noRestart (s : Owner) : OwnerEvent → Bool
  | .task => (s.task.map fun t => decide (t.todo.head? ≠ some .restart)).getD true
  | _ => true

theorem noRestart_of_check (s : Owner) (e : OwnerEvent) (h : noRestart s e = true) :
    NoRestart s e := by
  cases e with
  | task =>
    intro t ht
    rw [noRestart, ht] at h
    exact of_decide_eq_true h
  | plain c => trivial
  | exec cmd e info input => trivial

/-- **One command**, from `channel_init` to the end of its task. -/
theorem descriptors_closed_once_help : ∃ s u, Run ownerStep NoRestart ownerStart s ∧
    s.channel.fd1 = 64 ∧ Run ownerStep OnlyTask (s.plain channelPurge) u ∧ u.Finished ∧
    ∀ fd, u.fds.count (.acquired fd) = u.fds.count (.released fd) := by
  have hchecked : ((runTrace ownerStep noRestart helpSession ownerStart).map fun s =>
      decide (s.channel.fd1 = 64) && decide (Fresh s.fds) &&
        (s.task.map fun t => decide (.restart ∉ t.todo)).getD true) = some true := by
    decide +kernel
  obtain ⟨s, htrace, hchecks⟩ := Option.map_eq_some_iff.mp hchecked
  simp only [Bool.and_eq_true] at hchecks
  obtain ⟨⟨hfd1, hfresh⟩, hno⟩ := hchecks
  have hs := Run.of_trace noRestart noRestart_of_check helpSession htrace
  obtain ⟨-, -, hpurged⟩ := descriptors_closed_once hs (of_decide_eq_true hfresh)
  have hahead : ∀ t, (s.plain channelPurge).task = some t → TaskEvent.restart ∉ t.todo := by
    intro t ht
    rw [show s.task = some t from ht] at hno
    exact of_decide_eq_true hno
  obtain ⟨u, hu, hend⟩ := (hpurged _ Run.start).2.1 hahead
  exact ⟨s, u, hs, of_decide_eq_true hfd1, hu, hend, (hpurged u hu).2.2 hend⟩

end Glossh.Ssh
