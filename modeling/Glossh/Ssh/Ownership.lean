/-
# Who owns a descriptor

`socketpair_tcp` and `channel_exec` again, now with all that they acquire: the descriptors of the
listener and of the two ends, `struct interpreter_args` and the copy of the command.  Two of the
descriptors stay with the channel, two go to the interpreter's task, which runs beside the session
from then on.

A session is any sequence of channel operations and of steps of the task.  What the channel holds
and what the task has still to close make up what is held; so no other descriptor is closed, and
when the channel is purged and the task is done nothing is left.
-/
import Glossh.Lib.Ledger
import Glossh.Lib.Run
import Glossh.Ssh.Interpreter

namespace Glossh.Ssh

open Bytes Prog Ledger

/-! ## 1. The operations that acquire -/

/-- The channel, the task it started, and the ledgers of descriptors and of memory. -/
structure Owner where
  channel : Channel
  task : Option Task
  fds : List (Entry ℤ)
  heap : List (Entry Block)

abbrev OwnerM := Prog Owner Exit

namespace Owner

/-- A descriptor that `socket` or `accept` returned. -/
def acquireFd (fd : ℤ) : OwnerM Unit := modify fun s => { s with fds := .acquired fd :: s.fds }

/-- `close`. -/
def closeFd (fd : ℤ) : OwnerM Unit := modify fun s => { s with fds := .released fd :: s.fds }

/-- `malloc` or `strdup` returned a block. -/
def allocate (b : Block) : OwnerM Unit := modify fun s => { s with heap := .acquired b :: s.heap }

/-- `free`. -/
def free (b : Block) : OwnerM Unit := modify fun s => { s with heap := .released b :: s.heap }

/-- `if (c) bug_x();` for a condition on the structure. -/
def bugIf (c : Channel → Bool) (errno : Errno) : OwnerM Unit := do
  let bad ← reads fun s => c s.channel
  check (if bad then .error (.bug errno) else .ok ())

/-- `socketpair_tcp`. -/
def socketpairTcp (e : SocketpairEnv) : OwnerM (Option (ℤ × ℤ)) :=
  match e.listener with
  | none => return none
  | some listener => do
    acquireFd listener
    if ¬ (e.bound ∧ e.listening ∧ e.named) then do
      closeFd listener
      return none
    else
      match e.client with
      | none => do
        closeFd listener
        return none
      | some client => do
        acquireFd client
        if ¬ e.connected then do
          closeFd listener
          closeFd client
          return none
        else
          match e.accepted with
          | none => do
            closeFd listener
            closeFd client
            return none
          | some accepted => do
            acquireFd accepted
            closeFd listener
            return some (client, accepted)

/-- What is done with the copy of the command, where there is one. -/
def withCopy (copy : Option Bytes) (m : OwnerM Unit) : OwnerM Unit :=
  match copy with
  | some _ => m
  | none => return ()

/-- `close` of both ends of both pairs. -/
def closePairs (fdsIn fdsOut : ℤ × ℤ) : OwnerM Unit := do
  closeFd fdsIn.1
  closeFd fdsIn.2
  closeFd fdsOut.1
  closeFd fdsOut.2

/-- `args->cmd`: NULL without a command, and where `strdup` fails. -/
def copyOf (cmd : Option Bytes) (e : ExecEnv) : Option Bytes := if e.strdup then cmd else none

/-- `channel_exec`; what the task is to find and to receive are arguments. -/
def channelExec (cmd : Option Bytes) (e : ExecEnv) (info : SystemInfo) (input : Bytes) :
    OwnerM Bool := do
  bugIf (fun c => c.maxpacket = 0) .EPROTO
  bugIf (fun c => c.pid ≠ 0) .EPROTO
  let fdsIn ← socketpairTcp e.fdsIn
  match fdsIn with
  | none => return false
  | some fdsIn => do
    let fdsOut ← socketpairTcp e.fdsOut
    match fdsOut with
    | none => do
      closeFd fdsIn.1
      closeFd fdsIn.2
      return false
    | some fdsOut =>
      if ¬ e.malloc then do
        closePairs fdsIn fdsOut
        return false
      else do
        allocate .args
        withCopy (copyOf cmd e) (allocate .cmd)
        if ¬ e.xTaskCreate then do
          withCopy (copyOf cmd e) (free .cmd)
          free .args
          closePairs fdsIn fdsOut
          return false
        else do
          modify fun s => { s with
            channel := { s.channel with
              fd0 := fdsIn.1, fd1 := fdsOut.1, fd2 := -1, buf0 := [], pid := 9999 }
            task := some (Task.create info ⟨fdsIn.2, fdsOut.2, copyOf cmd e⟩ input) }
          return true

end Owner

/-! ## 2. What they leave -/

/-- The pair that `socketpair_tcp` returns. -/
def SocketpairEnv.pair (e : SocketpairEnv) : Option (ℤ × ℤ) :=
  match e.listener, e.client, e.accepted with
  | some _, some client, some accepted =>
    if e.bound ∧ e.listening ∧ e.named ∧ e.connected then some (client, accepted) else none
  | _, _, _ => none

/-- Since `s₀` the descriptors `l` and the blocks `b` were acquired, and all else that was acquired
is released; the channel and the task are as they were. -/
structure Owner.Acquired (s₀ : Owner) (l : List ℤ) (b : List Block) (s : Owner) : Prop where
  channel_eq : s.channel = s₀.channel
  task_eq : s.task = s₀.task
  fds : (held s.fds).Perm (l ++ held s₀.fds)
  ownedFds : Owned s₀.fds → Owned s.fds
  heap : (held s.heap).Perm (b ++ held s₀.heap)
  ownedHeap : Owned s₀.heap → Owned s.heap

namespace Owner

variable {s₀ : Owner} {l l' : List ℤ} {b b' : List Block} {E : Exit → Owner → Prop}

theorem triple_acquireFd (fd : ℤ) :
    Triple (Acquired s₀ l b) (acquireFd fd) (fun _ => Acquired s₀ (fd :: l) b) E :=
  triple_modify fun _ h => ⟨h.channel_eq, h.task_eq, h.fds.cons fd, h.ownedFds, h.heap, h.ownedHeap⟩

/-- A descriptor is closed that was acquired. -/
theorem triple_closeFd {fd : ℤ} (hl : l.Perm (fd :: l')) :
    Triple (Acquired s₀ l b) (closeFd fd) (fun _ => Acquired s₀ l' b) E := by
  refine triple_modify fun s h => ?_
  have hfds : (held s.fds).Perm (fd :: (l' ++ held s₀.fds)) := h.fds.trans (hl.append_right _)
  refine ⟨h.channel_eq, h.task_eq, ?_, fun howned => ⟨?_, h.ownedFds howned⟩, h.heap, h.ownedHeap⟩
  · rw [held_released, ← List.erase_cons_head (a := fd) (l := l' ++ held s₀.fds)]
    exact hfds.erase fd
  · exact hfds.mem_iff.mpr (List.mem_cons_self ..)

theorem triple_allocate (x : Block) :
    Triple (Acquired s₀ l b) (allocate x) (fun _ => Acquired s₀ l (x :: b)) E :=
  triple_modify fun _ h => ⟨h.channel_eq, h.task_eq, h.fds, h.ownedFds, h.heap.cons x, h.ownedHeap⟩

theorem triple_free {x : Block} (hb : b.Perm (x :: b')) :
    Triple (Acquired s₀ l b) (free x) (fun _ => Acquired s₀ l b') E := by
  refine triple_modify fun s h => ?_
  have hheap : (held s.heap).Perm (x :: (b' ++ held s₀.heap)) := h.heap.trans (hb.append_right _)
  refine ⟨h.channel_eq, h.task_eq, h.fds, h.ownedFds, ?_, fun howned => ⟨?_, h.ownedHeap howned⟩⟩
  · rw [held_released, ← List.erase_cons_head (a := x) (l := b' ++ held s₀.heap)]
    exact hheap.erase x
  · exact hheap.mem_iff.mpr (List.mem_cons_self ..)

/-- The two descriptors of a pair, the later one in front. -/
def ends : Option (ℤ × ℤ) → List ℤ
  | some fds => [fds.2, fds.1]
  | none => []

/-- **`socketpair_tcp`** keeps the two ends, or nothing. -/
theorem triple_socketpairTcp (e : SocketpairEnv) :
    Triple (Acquired s₀ l b) (socketpairTcp e)
      (fun r s => Acquired s₀ (ends r ++ l) b s ∧ r = e.pair) E := by
  have hnone : e.pair = none → Triple (Acquired s₀ l b) (pure none : OwnerM (Option (ℤ × ℤ)))
      (fun r s => Acquired s₀ (ends r ++ l) b s ∧ r = e.pair) E :=
    fun hpair => triple_pure fun s hs => ⟨hs, hpair.symm⟩
  obtain ⟨listener, bound, listening, named, client, connected, accepted⟩ := e
  unfold socketpairTcp
  cases listener with
  | none => exact hnone rfl
  | some listener =>
    refine (triple_acquireFd _).bind fun _ => Triple.ite (fun hset => ?_) fun hset => ?_
    · refine (triple_closeFd (List.Perm.refl _)).bind fun _ => hnone ?_
      unfold SocketpairEnv.pair
      split
      · exact if_neg fun h => hset ⟨h.1, h.2.1, h.2.2.1⟩
      · rfl
    cases client with
    | none => exact (triple_closeFd (List.Perm.refl _)).bind fun _ => hnone rfl
    | some client =>
      refine (triple_acquireFd _).bind fun _ => Triple.ite (fun hconn => ?_) fun hconn => ?_
      · refine (triple_closeFd (List.Perm.swap _ _ _)).bind fun _ =>
          (triple_closeFd (List.Perm.refl _)).bind fun _ => hnone ?_
        unfold SocketpairEnv.pair
        split
        · exact if_neg fun h => hconn h.2.2.2
        · rfl
      cases accepted with
      | none =>
        exact (triple_closeFd (List.Perm.swap _ _ _)).bind fun _ =>
          (triple_closeFd (List.Perm.refl _)).bind fun _ => hnone rfl
      | some accepted =>
        have hpair : SocketpairEnv.pair ⟨some listener, bound, listening, named, some client,
            connected, some accepted⟩ = some ((client : ℤ), (accepted : ℤ)) := by
          refine if_pos ?_
          obtain ⟨hbound, hlistening, hnamed⟩ := not_not.mp hset
          exact ⟨hbound, hlistening, hnamed, not_not.mp hconn⟩
        -- The listener is third.
        have hthird : ((accepted : ℤ) :: client :: listener :: l).Perm
            (listener :: accepted :: client :: l) :=
          ((List.Perm.swap _ _ _).cons _).trans (List.Perm.swap _ _ _)
        exact (triple_acquireFd _).bind fun _ => (triple_closeFd hthird).bind fun _ =>
          triple_pure fun s hs => ⟨hs, hpair.symm⟩

/-- What the copy of the command takes. -/
def copyBlocks : Option Bytes → List Block
  | some _ => [.cmd]
  | none => []

theorem triple_allocateCopy (copy : Option Bytes) :
    Triple (Acquired s₀ l b) (withCopy copy (allocate .cmd))
      (fun _ => Acquired s₀ l (copyBlocks copy ++ b)) E := by
  cases copy with
  | some x => exact triple_allocate _
  | none => exact triple_pure fun _ hs => hs

theorem triple_freeCopy (copy : Option Bytes) :
    Triple (Acquired s₀ l (copyBlocks copy ++ b)) (withCopy copy (free .cmd))
      (fun _ => Acquired s₀ l b) E := by
  cases copy with
  | some x => exact triple_free (List.Perm.refl _)
  | none => exact triple_pure fun _ hs => hs

theorem triple_closePairs (fdsIn fdsOut : ℤ × ℤ) :
    Triple (Acquired s₀ (ends (some fdsOut) ++ ends (some fdsIn)) b) (closePairs fdsIn fdsOut)
      (fun _ => Acquired s₀ [] b) E := by
  have hfirst : (ends (some fdsOut) ++ ends (some fdsIn)).Perm
      (fdsIn.1 :: fdsIn.2 :: fdsOut.1 :: [fdsOut.2]) := (List.reverse_perm _).symm
  exact (triple_closeFd hfirst).bind fun _ => (triple_closeFd (List.Perm.refl _)).bind fun _ =>
    (triple_closeFd (List.Perm.refl _)).bind fun _ => triple_closeFd (List.Perm.refl _)

end Owner

/-- The calls of `channel_exec` succeed, `strdup` left aside. -/
def ExecEnv.starts (e : ExecEnv) : Prop :=
  e.fdsIn.pair.isSome ∧ e.fdsOut.pair.isSome ∧ e.malloc ∧ e.xTaskCreate

/-- `channel_exec` started a task since `s₀`: two of the descriptors stay with the channel, two are
the task's, and so are the blocks. -/
def Owner.Started (s₀ : Owner) (cmd : Option Bytes) (e : ExecEnv) (info : SystemInfo)
    (input : Bytes) (s : Owner) : Prop :=
  ∃ (fdsIn fdsOut : ℤ × ℤ) (s₁ : Owner), e.fdsIn.pair = some fdsIn ∧ e.fdsOut.pair = some fdsOut ∧
    s₀.Acquired (Owner.ends (some fdsOut) ++ Owner.ends (some fdsIn))
      (Owner.copyBlocks (Owner.copyOf cmd e) ++ [.args]) s₁ ∧
    s = { s₁ with
      channel :=
        { s₀.channel with fd0 := fdsIn.1, fd1 := fdsOut.1, fd2 := -1, buf0 := [], pid := 9999 }
      task := some (Task.create info ⟨fdsIn.2, fdsOut.2, Owner.copyOf cmd e⟩ input) }

/-- `channel_exec` may be called. -/
def Channel.ExecReady (c : Channel) : Prop := c.maxpacket ≠ 0 ∧ c.pid = 0

namespace Owner

theorem Acquired.refl (s : Owner) : s.Acquired [] [] s :=
  ⟨rfl, rfl, List.Perm.refl _, id, List.Perm.refl _, id⟩

/-- What follows a `bugIf` starts where its condition is false. -/
theorem triple_bugIf {P : Owner → Prop} {c : Channel → Bool} {errno : Errno}
    {E : Exit → Owner → Prop} (hE : ∀ s, P s → c s.channel = true → E (.bug errno) s) :
    Triple P (bugIf c errno) (fun _ s => P s ∧ c s.channel = false) E := by
  constructor
  intro s hs
  rw [bugIf, exec_reads_bind]
  cases hc : c s.channel with
  | true => exact hE s hs hc
  | false => exact ⟨hs, hc⟩

/-- What `channel_exec` comes to. -/
def ExecResult (s₀ : Owner) (cmd : Option Bytes) (e : ExecEnv) (info : SystemInfo) (input : Bytes)
    (ok : Bool) (s : Owner) : Prop :=
  (ok = false ∧ ¬ e.starts ∧ s₀.Acquired [] [] s) ∨
    (ok = true ∧ e.starts ∧ s₀.Started cmd e info input s)

/-- **`channel_exec` behind its checks**: it starts a task, or it gives back all it acquired. -/
theorem triple_channelExec (s₀ : Owner) (cmd : Option Bytes) (e : ExecEnv) (info : SystemInfo)
    (input : Bytes) :
    Triple (fun s => s = s₀) (channelExec cmd e info input)
      (fun ok s => s₀.channel.ExecReady ∧ ExecResult s₀ cmd e info input ok s)
      fun _ s => s = s₀ ∧ ¬ s₀.channel.ExecReady := by
  refine (triple_bugIf ?_).bind fun _ => (triple_bugIf ?_).bind fun _ => ?_
  · rintro s rfl hmax
    exact ⟨rfl, fun h => h.1 (of_decide_eq_true hmax)⟩
  · rintro s ⟨rfl, -⟩ hpid
    exact ⟨rfl, fun h => (of_decide_eq_true hpid) h.2⟩
  refine Triple.pre (P := fun s => s₀.Acquired [] [] s ∧ s₀.channel.ExecReady) ?_ ?_
  swap
  · rintro s ⟨⟨rfl, hmax⟩, hpid⟩
    exact ⟨Acquired.refl s, of_decide_eq_false hmax, not_not.mp (of_decide_eq_false hpid)⟩
  refine triple_of_fact fun hready => ?_
  have hfalse : ¬ e.starts → Triple (s₀.Acquired [] []) (pure false : OwnerM Bool)
      (fun ok s => s₀.channel.ExecReady ∧ ExecResult s₀ cmd e info input ok s)
      fun _ s => s = s₀ ∧ ¬ s₀.channel.ExecReady :=
    fun hstarts => triple_pure fun s hs => ⟨hready, .inl ⟨rfl, hstarts, hs⟩⟩
  refine (triple_socketpairTcp e.fdsIn).bind fun fdsIn => triple_of_fact fun hin => ?_
  cases fdsIn with
  | none =>
    refine hfalse fun hstarts => ?_
    have hsome := hstarts.1
    rw [← hin] at hsome
    cases hsome
  | some fdsIn =>
    refine (triple_socketpairTcp e.fdsOut).bind fun fdsOut => triple_of_fact fun hout => ?_
    cases fdsOut with
    | none =>
      refine (triple_closeFd (List.Perm.swap _ _ _)).bind fun _ =>
        (triple_closeFd (List.Perm.refl _)).bind fun _ => hfalse fun hstarts => ?_
      have hsome := hstarts.2.1
      rw [← hout] at hsome
      cases hsome
    | some fdsOut =>
      refine Triple.ite (fun hmalloc => ?_) fun hmalloc => ?_
      · exact (triple_closePairs fdsIn fdsOut).bind fun _ =>
          hfalse fun hstarts => hmalloc hstarts.2.2.1
      refine (triple_allocate .args).bind fun _ => (triple_allocateCopy _).bind fun _ => ?_
      refine Triple.ite (fun htask => ?_) fun htask => ?_
      · exact (triple_freeCopy _).bind fun _ => (triple_free (List.Perm.refl _)).bind fun _ =>
          (triple_closePairs fdsIn fdsOut).bind fun _ => hfalse fun hstarts => htask hstarts.2.2.2
      · have hstarts : e.starts :=
          ⟨by rw [← hin]; rfl, by rw [← hout]; rfl, not_not.mp hmalloc, not_not.mp htask⟩
        refine Triple.bind (Q := fun _ => s₀.Started cmd e info input) (triple_modify ?_) fun _ =>
          triple_pure fun s hs => ⟨hready, .inr ⟨rfl, hstarts, hs⟩⟩
        intro s hs
        exact ⟨fdsIn, fdsOut, s, hin.symm, hout.symm, hs, by rw [hs.channel_eq]⟩

/-! ## 3. The same operations without the ledgers -/

/-- What is seen of a ledger without them. -/
def closes (l : List (Entry ℤ)) : List FdEvent :=
  l.filterMap fun e => match e with
    | .acquired _ => none
    | .released fd => some (.closed fd)

/-- The channel and the descriptors that were closed. -/
def view (s : Owner) : ChannelState := ⟨s.channel, closes s.fds⟩

/-- The task that a call started. -/
def startedBy (r : Except Exit Bool) (s : Owner) : List FdEvent :=
  match r, s.task with
  | .ok true, some t => [.started t.args.readFd t.args.writeFd t.args.cmd]
  | _, _ => []

theorem socketpairTcp_sim (e : SocketpairEnv) (s : Owner) :
    exec (Ssh.socketpairTcp e) s.view =
      ((exec (socketpairTcp e) s).1, (exec (socketpairTcp e) s).2.view) := by
  obtain ⟨listener, bound, listening, named, client, connected, accepted⟩ := e
  unfold Ssh.socketpairTcp socketpairTcp
  cases listener with
  | none => rfl
  | some listener =>
    dsimp only
    rw [exec_bind_ok (m := acquireFd listener) (a := ⟨⟩) rfl]
    by_cases hset : bound = true ∧ listening = true ∧ named = true
    swap
    · rw [if_pos hset, if_pos hset]
      rfl
    rw [if_neg (not_not.mpr hset), if_neg (not_not.mpr hset)]
    cases client with
    | none => rfl
    | some client =>
      dsimp only
      rw [exec_bind_ok (m := acquireFd client) (a := ⟨⟩) rfl]
      cases connected with
      | false => rfl
      | true => cases accepted <;> rfl

/-- **`channel_exec` without the ledgers** is the channel operation: it returns the same, leaves
the same channel, closes the same descriptors in the same order and starts the same task. -/
theorem channelExec_sim (cmd : Option Bytes) (e : ExecEnv) (info : SystemInfo) (input : Bytes)
    (s : Owner) : exec (Ssh.channelExec cmd e) s.view =
      ((exec (channelExec cmd e info input) s).1,
        ⟨(exec (channelExec cmd e info input) s).2.channel,
          startedBy (exec (channelExec cmd e info input) s).1
              (exec (channelExec cmd e info input) s).2 ++
            closes (exec (channelExec cmd e info input) s).2.fds⟩) := by
  rw [Ssh.channelExec, channelExec, exec_bugIf_bind, bugIf, exec_guard_bind]
  change (if decide (s.channel.maxpacket = 0) = true then _ else _) = _
  by_cases hmax : decide (s.channel.maxpacket = 0) = true
  · rw [if_pos hmax, if_pos hmax]
    rfl
  rw [if_neg hmax, if_neg hmax, exec_bugIf_bind, bugIf, exec_guard_bind]
  change (if decide (s.channel.pid ≠ 0) = true then _ else _) = _
  by_cases hpid : decide (s.channel.pid ≠ 0) = true
  · rw [if_pos hpid, if_pos hpid]
    rfl
  rw [if_neg hpid, if_neg hpid]
  have hin := socketpairTcp_sim e.fdsIn s
  rcases hpair : exec (socketpairTcp e.fdsIn) s with ⟨_ | fdsIn, t⟩
  · rw [hpair] at hin
    rw [exec_bind_error hin, exec_bind_error hpair]
    rfl
  rw [hpair] at hin
  rw [exec_bind_ok hin, exec_bind_ok hpair]
  cases fdsIn with
  | none => rfl
  | some fdsIn =>
    dsimp only
    have hout := socketpairTcp_sim e.fdsOut t
    rcases hpair' : exec (socketpairTcp e.fdsOut) t with ⟨_ | fdsOut, u⟩
    · rw [hpair'] at hout
      rw [exec_bind_error hout, exec_bind_error hpair']
      rfl
    rw [hpair'] at hout
    rw [exec_bind_ok hout, exec_bind_ok hpair']
    cases fdsOut with
    | none => rfl
    | some fdsOut =>
      dsimp only
      have hcopy : (if e.strdup = true then cmd else none) = copyOf cmd e := rfl
      rw [hcopy]
      cases e.malloc with
      | false => rfl
      | true =>
        cases e.xTaskCreate with
        | false => cases copyOf cmd e <;> rfl
        | true => cases copyOf cmd e <;> rfl

end Owner

/-! ## 4. All or nothing -/

/-- What a call of `channel_exec` is to come to: it leaves everything as it was, or it starts a task
that does what the task for `cmd` does. -/
def AllOrNothing (s₀ : Owner) (cmd : Option Bytes) (info : SystemInfo) (input : Bytes) :
    Except Exit Bool × Owner → Prop
  | (.ok false, s) => s.channel = s₀.channel ∧ s.task = s₀.task ∧
      (held s.fds).Perm (held s₀.fds) ∧ (held s.heap).Perm (held s₀.heap)
  | (.ok true, s) => ∃ t, s.task = some t ∧
      t.todo = interpreterTask info ⟨t.args.readFd, t.args.writeFd, cmd⟩ input
  | (.error _, _) => True

/-- A task that was given a command is not one that was given none. -/
theorem interpreterTask_ne (info : SystemInfo) (r w : ℤ) (x input : Bytes) :
    interpreterTask info ⟨r, w, none⟩ input ≠ interpreterTask info ⟨r, w, some x⟩ input := by
  intro heq
  have hfreed := congrArg freedBlocks heq
  rw [freedBlocks_interpreterTask, freedBlocks_interpreterTask] at hfreed
  cases hfreed

/-- **`channel_exec` is all or nothing, and runs what was asked, exactly where no copy of a command
fails that a task is then started with.** -/
theorem channelExec_allOrNothing_iff (s₀ : Owner) (cmd : Option Bytes) (e : ExecEnv)
    (info : SystemInfo) (input : Bytes) :
    AllOrNothing s₀ cmd info input (exec (Owner.channelExec cmd e info input) s₀) ↔
      cmd = none ∨ e.strdup = true ∨ ¬ e.starts ∨ ¬ s₀.channel.ExecReady := by
  have hrun := (Owner.triple_channelExec s₀ cmd e info input).run s₀ rfl
  rcases hexec : exec (Owner.channelExec cmd e info input) s₀ with ⟨_ | ok, s⟩ <;>
    rw [hexec] at hrun
  · exact ⟨fun _ => .inr (.inr (.inr hrun.2)), fun _ => trivial⟩
  obtain ⟨hready, ⟨rfl, hstarts, hs⟩ | ⟨rfl, hstarts, fdsIn, fdsOut, s₁, -, -, -, hs⟩⟩ := hrun
  · exact ⟨fun _ => .inr (.inr (.inl hstarts)),
      fun _ => ⟨hs.channel_eq, hs.task_eq, hs.fds, hs.heap⟩⟩
  have htask : s.task = some (Task.create info ⟨fdsIn.2, fdsOut.2, Owner.copyOf cmd e⟩ input) := by
    rw [hs]
  constructor
  · rintro ⟨t, ht, htodo⟩
    obtain rfl := Option.some.inj (htask.symm.trans ht)
    by_contra hnot
    obtain ⟨hcmd, hrest⟩ := not_or.mp hnot
    obtain ⟨x, rfl⟩ := Option.ne_none_iff_exists'.mp hcmd
    have hcopy : Owner.copyOf (some x) e = none := if_neg (not_or.mp hrest).1
    rw [hcopy] at htodo
    exact interpreterTask_ne info _ _ x input htodo
  · intro hcond
    refine ⟨_, htask, ?_⟩
    have hcopy : Owner.copyOf cmd e = cmd := by
      rcases hcond with rfl | hstrdup | hnot | hnot
      · exact ite_self none
      · exact if_pos hstrdup
      · exact absurd hstarts hnot
      · exact absurd hready hnot
    rw [hcopy]
    rfl

/-- Every call succeeds but `strdup`. -/
def noCopy : ExecEnv := { workingSockets with strdup := false }

/-- A session that asks for a command. -/
def askingSession : Owner where
  channel := { Channel.init with maxpacket := 4096, remotewindow := 100, localwindow := 131072 }
  task := none
  fds := []
  heap := []

/-- **Where `strdup` fails the command is not run**: the client asked for "status" and gets the
loop, with the greeting. -/
theorem channelExec_without_copy :
    (exec (Owner.channelExec (some (ascii "status")) noCopy ⟨0, 2, []⟩ []) askingSession).1 =
        .ok true ∧
      ¬ AllOrNothing askingSession (some (ascii "status")) ⟨0, 2, []⟩ []
        (exec (Owner.channelExec (some (ascii "status")) noCopy ⟨0, 2, []⟩ []) askingSession) := by
  refine ⟨rfl, ?_⟩
  rintro ⟨t, ht, htodo⟩
  obtain rfl := Option.some.inj ht
  exact interpreterTask_ne ⟨0, 2, []⟩ _ _ _ _ htodo

end Glossh.Ssh
