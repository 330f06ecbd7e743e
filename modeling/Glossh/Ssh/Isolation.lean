/-
# Sessions at the same time

`struct channel channel` is one global.  The listener starts a task for every connection, and the
channel operations of all of them work on that one structure.

A trace is any interleaving of calls, each with what the operating system answers it.
`sessions_isolated`: sessions are isolated while the channel serves one of them at a time, from its
first call to its `channel_purge`; and they no longer are as soon as a session has opened its
channel and another connection comes in.  Its `channel_init`, before it has sent a byte, resets
what the first session works with.
-/
import Glossh.Lib.Shared
import Glossh.Ssh.Channel
import Mathlib.Data.List.Induction

namespace Glossh.Ssh

open Bytes Prog

/-! ## 1. Calls -/

/-- A call of a channel operation, with the answers it gets. -/
inductive ChannelCall where
  | init
  | open (user : Bytes) (id remotewindow maxpacket : UInt32)
  | exec (cmd : Option Bytes) (e : ExecEnv)
  | put (buf : Bytes)
  | puteof
  | read (len : ℤ) (r : ReadResult)
  | write (w : WriteResult)
  | waitnohang
  | incrementremotewindow (x : UInt32)
  | purge
deriving DecidableEq

/-- What a call returns. -/
inductive CallResult where
  | void
  | bool (b : Bool)
  | data (x : Bytes)
  | window (w : UInt32)
deriving DecidableEq

/-- The operation of a call. -/
def ChannelCall.prog : ChannelCall → ChannelM CallResult
  | .init => do
    channelInit
    return .void
  | .open user id remotewindow maxpacket => do
    let w ← channelOpen user id remotewindow maxpacket
    return .window w
  | .exec cmd e => do
    let ok ← channelExec cmd e
    return .bool ok
  | .put buf => do
    channelPut buf
    return .void
  | .puteof => do
    channelPuteof
    return .void
  | .read len r => do
    let x ← channelRead len r
    return .data x
  | .write w => do
    let ok ← channelWrite w
    return .bool ok
  | .waitnohang => do
    let status ← channelWaitnohang
    return .bool status
  | .incrementremotewindow x => do
    channelIncrementremotewindow x
    return .void
  | .purge => do
    channelPurge
    return .void

/-- What a session sees of a call: the result or the end it meets, and what was done to
descriptors. -/
structure Seen where
  result : Except Exit CallResult
  io : List FdEvent
deriving DecidableEq

/-- A call on the structure. -/
def runCall (call : ChannelCall) (c : Channel) : Seen × Channel :=
  (⟨(exec call.prog ⟨c, []⟩).1, (exec call.prog ⟨c, []⟩).2.io⟩,
    (exec call.prog ⟨c, []⟩).2.channel)

/-! ## 2. Isolation -/

/-- A session's channel is live: it has made a call, and its last one was not `channel_purge`. -/
def channelLive (calls : List ChannelCall) : Bool :=
  match calls.getLast? with
  | none => false
  | some .purge => false
  | some _ => true

/-- `channel_init`. -/
def ChannelCall.isInit : ChannelCall → Bool
  | .init => true
  | _ => false

/-- `channel_open` accepts its arguments. -/
def ChannelCall.opens : ChannelCall → Bool
  | .open user _ remotewindow maxpacket =>
    maxpacket != 0 && remotewindow != 0 && decide (user.length ≤ LOGIN_NAME_MAX)
  | _ => false

/-- A session's channel is open. -/
def channelOpened (calls : List ChannelCall) : Bool :=
  calls.foldl (fun opened call => match call with
    | .init => false
    | .purge => false
    | call => opened || call.opens) false

section

variable {S : Type}

/-- The sessions from the start of the device on. -/
def bootShared : Shared S Channel Seen := Shared.start Channel.zero

variable [DecidableEq S]

/-- **The channel serves one session at a time**: `channel_init` is called while no other session's
channel is live, every other operation right behind a call of the same session. -/
def OneAtATime (before : List (S × ChannelCall)) (e : S × ChannelCall) : Prop :=
  Exclusive ChannelCall.isInit channelLive before e

instance oneAtATimeDecidable (before : List (S × ChannelCall)) (e : S × ChannelCall) :
    Decidable (OneAtATime before e) :=
  exclusiveDecidable ChannelCall.isInit channelLive before e

/-- **Isolation.** -/
structure Isolated (trace : List (S × ChannelCall)) : Prop where
  /-- Every session sees what it would see if it were alone, and finds the channel as it would. -/
  alone : ∀ a, ((bootShared.exec runCall trace).outputs a, (bootShared.exec runCall trace).left a) =
    alone runCall Channel.zero (ownOps a trace)
  /-- No call changes the live channel of another session. -/
  untouched : ∀ before e behind, trace = before ++ e :: behind →
    ∀ a, a ≠ e.1 → channelLive (ownOps a before) = true →
      (bootShared.exec runCall (before ++ [e])).current = (bootShared.exec runCall before).current

end

/-! ## 3. What a session's calls make of its channel -/

/-- `channel_init` does not look at what it overwrites. -/
theorem runCall_init (c d : Channel) : runCall .init c = runCall .init d := rfl

/-- The operations between `channel_open` and `channel_purge`. -/
def ChannelCall.between : ChannelCall → Bool
  | .init => false
  | .open _ _ _ _ => false
  | .purge => false
  | _ => true

/-- They leave `maxpacket` alone. -/
theorem keeps_maxpacket (m : UInt32) {call : ChannelCall} (h : call.between = true) :
    Keeps (fun s => s.channel.maxpacket = m) call.prog := by
  have hclose0 : Keeps (fun s : ChannelState => s.channel.maxpacket = m) closeFd0 :=
    keeps_closeFd0_of (P := fun c => c.maxpacket = m) fun _ h => h
  have hclose1 : Keeps (fun s : ChannelState => s.channel.maxpacket = m) closeFd1 :=
    (keeps_reads _).bind fun _ => Keeps.bind (keeps_modify fun _ h => h) fun _ =>
      keeps_modify fun _ h => h
  cases call with
  | init => cases h
  | purge => cases h
  | «open» user id remotewindow maxpacket => cases h
  | exec cmd e =>
    have hio : IgnoresIo fun s => s.channel.maxpacket = m := fun _ _ _ _ h => h
    refine Keeps.bind ((hio.triple_channelExec cmd e).post ?_).keeps fun _ => keeps_pure _
    rintro ok s (⟨-, h⟩ | ⟨-, c, fd0, fd1, h, -, -, -, hchannel⟩)
    · exact h
    · rw [hchannel]
      exact h
  | put buf =>
    refine Keeps.bind ?_ fun _ => keeps_pure _
    exact (keeps_bugIf _ _).bind fun _ => (keeps_bugIf _ _).bind fun _ => (keeps_bugIf _ _).bind
      fun _ => (keeps_bugIf _ _).bind fun _ => keeps_modify fun _ h => h
  | puteof =>
    refine Keeps.bind ?_ fun _ => keeps_pure _
    exact (keeps_bugIf _ _).bind fun _ => (keeps_bugIf _ _).bind fun _ => (keeps_bugIf _ _).bind
      fun _ => Keeps.bind (keeps_modify fun _ h => h) fun _ => (keeps_reads _).bind fun _ =>
      hclose0.ite (keeps_pure _)
  | read len r =>
    refine Keeps.bind ?_ fun _ => keeps_pure _
    refine (keeps_bugIf _ _).bind fun _ => (keeps_bugIf _ _).bind fun _ => (keeps_bugIf _ _).bind
      fun _ => (keeps_bugIf _ _).bind fun _ => (keeps_reads _).bind fun _ => (keeps_pure _).ite ?_
    split
    · exact keeps_pure _
    · exact Keeps.bind (keeps_modify fun _ h => h) fun _ => Keeps.bind (keeps_modify fun _ h => h)
        fun _ => keeps_pure _
    · exact hclose1.bind fun _ => keeps_pure _
    · exact hclose1.bind fun _ => keeps_pure _
  | write w =>
    refine Keeps.bind ?_ fun _ => keeps_pure _
    exact keeps_channelWrite_of (P := fun c => c.maxpacket = m) (fun _ h => h) (fun _ _ h => h) w
  | waitnohang =>
    refine Keeps.bind ?_ fun _ => keeps_pure _
    exact (keeps_bugIf _ _).bind fun _ => (keeps_reads _).bind fun _ => (keeps_pure _).ite
      (Keeps.bind (keeps_modify fun _ h => h) fun _ => keeps_pure _)
  | incrementremotewindow x => exact Keeps.bind (keeps_modify fun _ h => h) fun _ => keeps_pure _

/-- Before `channel_open` they do not get past their first check. -/
theorem runCall_pid {call : ChannelCall} (h : call.between = true) {c : Channel}
    (hmax : c.maxpacket = 0) : (runCall call c).2.pid = c.pid := by
  have hbug {α : Type} (g : Unit → ChannelM α) (k : α → ChannelM CallResult) :
      exec ((bugIf (fun c => c.maxpacket = 0) .EPROTO >>= g) >>= k) ⟨c, []⟩ =
        (.error (.bug .EPROTO), ⟨c, []⟩) := by
    rw [bind_assoc, exec_bugIf_bind, if_pos (decide_eq_true hmax)]
  have hsame {α : Type} {m : ChannelM α} {k : α → ChannelM CallResult}
      {g : Unit → ChannelM α} (hm : m = bugIf (fun c => c.maxpacket = 0) .EPROTO >>= g) :
      (exec (m >>= k) ⟨c, []⟩).2.channel.pid = c.pid := by
    rw [hm, hbug]
  cases call with
  | init => cases h
  | purge => cases h
  | «open» user id remotewindow maxpacket => cases h
  | exec cmd e => exact hsame rfl
  | put buf => exact hsame rfl
  | puteof => exact hsame rfl
  | read len r => exact hsame rfl
  | write w => exact hsame rfl
  | waitnohang => exact hsame rfl
  | incrementremotewindow x => rfl

/-- The channel says whether it is open. -/
structure ShowsOpened (calls : List ChannelCall) (c : Channel) : Prop where
  opened : channelOpened calls = true → c.maxpacket ≠ 0
  closed : channelOpened calls = false → c.maxpacket = 0 ∧ c.pid = 0

theorem channelOpened_append (calls : List ChannelCall) (call : ChannelCall) :
    channelOpened (calls ++ [call]) = match call with
      | .init => false
      | .purge => false
      | call => channelOpened calls || call.opens := by
  rw [channelOpened, List.foldl_append]
  rfl

/-- `channel_open` on a channel that is not open. -/
theorem runCall_open {c : Channel} (hmax : c.maxpacket = 0) (hpid : c.pid = 0) (user : Bytes)
    (id remotewindow maxpacket : UInt32) :
    let d := (runCall (.open user id remotewindow maxpacket) c).2
    if (ChannelCall.open user id remotewindow maxpacket).opens = true then d.maxpacket ≠ 0
    else d.maxpacket = 0 ∧ d.pid = 0 := by
  intro d
  have hd : d = (exec (channelOpen user id remotewindow maxpacket >>= fun w =>
    pure (CallResult.window w)) ⟨c, []⟩).2.channel := rfl
  rw [channelOpen, bind_assoc, exec_bugIf_bind] at hd
  by_cases hpacket : maxpacket = 0
  · rw [if_pos (decide_eq_true hpacket)] at hd
    rw [if_neg (by simp [ChannelCall.opens, hpacket]), hd]
    exact ⟨hmax, hpid⟩
  rw [if_neg (by simpa using hpacket), bind_assoc, exec_bugIf_bind] at hd
  by_cases hwindow : remotewindow = 0
  · rw [if_pos (decide_eq_true hwindow)] at hd
    rw [if_neg (by simp [ChannelCall.opens, hwindow]), hd]
    exact ⟨hmax, hpid⟩
  rw [if_neg (by simpa using hwindow), bind_assoc, exec_bugIf_bind, if_neg (by simpa using hmax),
    bind_assoc, exec_bugIf_bind, if_neg (by simpa using hpid), bind_assoc, updateChannel,
    exec_modify_bind, bind_assoc, exec_bugIf_bind] at hd
  by_cases huser : user.length ≤ LOGIN_NAME_MAX
  · rw [if_neg (by simpa using huser)] at hd
    rw [if_pos (by simp [ChannelCall.opens, hpacket, hwindow, huser]), hd]
    exact hpacket
  · rw [if_pos (by simpa using huser)] at hd
    rw [if_neg (by simp [ChannelCall.opens, huser]), hd]
    exact ⟨hmax, hpid⟩

/-- `channel_open` on an open channel. -/
theorem runCall_open_again {c : Channel} (hmax : c.maxpacket ≠ 0) (user : Bytes)
    (id remotewindow maxpacket : UInt32) :
    (runCall (.open user id remotewindow maxpacket) c).2 = c := by
  have hbad : decide (c.maxpacket ≠ 0) = true := decide_eq_true hmax
  simp only [runCall, ChannelCall.prog, channelOpen, bind_assoc, exec_bugIf_bind]
  rw [if_pos hbad]
  split
  · rfl
  · split
    · rfl
    · rfl

/-- `channel_purge` zeroes the structure. -/
theorem runCall_purge (c : Channel) : (runCall .purge c).2 = Channel.zero := by
  have hclose (fd : Channel → ℤ) (s : ChannelState) :
      ∃ io, exec (closeIfOpen fd) s = (.ok (), ⟨s.channel, io⟩) := by
    rw [closeIfOpen, exec_reads_bind]
    split
    · exact ⟨_, rfl⟩
    · exact ⟨_, rfl⟩
  obtain ⟨io0, h0⟩ := hclose (·.fd0) ⟨c, []⟩
  obtain ⟨io1, h1⟩ := hclose (·.fd1) ⟨c, io0⟩
  obtain ⟨io2, h2⟩ := hclose (·.fd2) ⟨c, io1⟩
  have hpurge : exec channelPurge ⟨c, []⟩ = (.ok (), ⟨Channel.zero, io2⟩) := by
    rw [channelPurge, exec_bind_ok h0, exec_bind_ok h1, exec_bind_ok h2]
    rfl
  simp only [runCall, ChannelCall.prog, exec_bind_ok hpurge]
  rfl

/-- **What one call keeps.** -/
theorem ShowsOpened.step {calls : List ChannelCall} {c : Channel} (h : ShowsOpened calls c)
    (call : ChannelCall) : ShowsOpened (calls ++ [call]) (runCall call c).2 := by
  have hclosed {d : Channel} (hcalls : channelOpened (calls ++ [call]) = false)
      (hmax : d.maxpacket = 0) (hpid : d.pid = 0) : ShowsOpened (calls ++ [call]) d :=
    ⟨fun hopen => absurd (hopen.symm.trans hcalls) Bool.noConfusion, fun _ => ⟨hmax, hpid⟩⟩
  by_cases hbetween : call.between = true
  · have happend : channelOpened (calls ++ [call]) = channelOpened calls := by
      rw [channelOpened_append]
      cases call with
      | init => cases hbetween
      | purge => cases hbetween
      | «open» user id remotewindow maxpacket => cases hbetween
      | _ => exact Bool.or_false _
    have hmax : (runCall call c).2.maxpacket = c.maxpacket :=
      keeps_maxpacket c.maxpacket hbetween ⟨c, []⟩ rfl
    constructor
    · rw [happend, hmax]
      exact h.opened
    · rw [happend, hmax]
      intro hcalls
      obtain ⟨hzero, hpid⟩ := h.closed hcalls
      exact ⟨hzero, (runCall_pid hbetween hzero).trans hpid⟩
  · cases call with
    | init => exact hclosed (channelOpened_append _ _) rfl rfl
    | purge =>
      rw [runCall_purge]
      exact hclosed (channelOpened_append _ _) rfl rfl
    | «open» user id remotewindow maxpacket =>
      have happend : channelOpened (calls ++ [.open user id remotewindow maxpacket]) =
          (channelOpened calls || (ChannelCall.open user id remotewindow maxpacket).opens) :=
        channelOpened_append _ _
      cases hcalls : channelOpened calls with
      | true =>
        rw [runCall_open_again (h.opened hcalls)]
        refine ⟨fun _ => h.opened hcalls, fun hclosed => ?_⟩
        rw [happend, hcalls, Bool.true_or] at hclosed
        cases hclosed
      | false =>
        obtain ⟨hmax, hpid⟩ := h.closed hcalls
        have hopen := runCall_open hmax hpid user id remotewindow maxpacket
        rw [hcalls, Bool.false_or] at happend
        constructor
        · intro hopened
          rw [happend] at hopened
          exact (if_pos hopened).mp hopen
        · intro hclosed
          rw [happend] at hclosed
          rw [if_neg (by rw [hclosed]; exact Bool.false_ne_true)] at hopen
          exact hopen
    | _ => exact absurd rfl hbetween

/-- Behind all calls of a session that is alone. -/
theorem showsOpened_alone (calls : List ChannelCall) :
    ShowsOpened calls (alone runCall Channel.zero calls).2 := by
  induction calls using List.reverseRecOn with
  | nil => exact ⟨(fun hopen => by cases hopen), fun _ => ⟨rfl, rfl⟩⟩
  | append_singleton calls call ih =>
    rw [alone_append]
    exact ih.step call

/-- An open channel is live. -/
theorem channelLive_of_opened {calls : List ChannelCall} (h : channelOpened calls = true) :
    channelLive calls = true := by
  rcases List.eq_nil_or_concat calls with rfl | ⟨calls, call, rfl⟩
  · cases h
  · rw [List.concat_eq_append, channelOpened_append] at h
    rw [List.concat_eq_append, channelLive, List.getLast?_concat]
    cases call with
    | purge => cases h
    | _ => rfl

/-! ## 4. Isolation, while the channel serves one session at a time -/

section

variable {S : Type} [DecidableEq S]

theorem OneAtATime.undisturbed {before : List (S × ChannelCall)} {e : S × ChannelCall}
    (h : OneAtATime before e) : Undisturbed runCall (bootShared.exec runCall before) e := by
  refine Exclusive.undisturbed (fun call hcall c d => ?_) h
  cases call with
  | init => exact runCall_init c d
  | _ => cases hcall

/-- **Sessions are isolated in every trace in which the channel serves one at a time.**  As soon as
a session has opened its channel, the `channel_init` of any other one ends that. -/
theorem sessions_isolated (trace : List (S × ChannelCall)) (h : Meets OneAtATime [] trace) :
    Isolated trace ∧ ∀ a b, a ≠ b → channelOpened (ownOps a trace) = true →
      ¬ Isolated (trace ++ [(b, .init)]) := by
  have halone : ∀ a, ((bootShared.exec runCall trace).outputs a,
      (bootShared.exec runCall trace).left a) = alone runCall Channel.zero (ownOps a trace) :=
    exec_eq_alone (h.mono fun _ _ => OneAtATime.undisturbed)
  refine ⟨⟨halone, ?_⟩, ?_⟩
  · rintro before e behind rfl a hae hlive
    obtain ⟨hbefore, he⟩ := h.of_append_cons
    exact absurd (he.owner_of_last rfl (lastOwner_of_inUse rfl hbefore hlive) hlive).symm hae
  · intro a b hab hopened hisolated
    have hlive := channelLive_of_opened hopened
    have hsame := hisolated.untouched trace (b, .init) [] rfl a hab hlive
    have hcurrent : (bootShared.exec runCall trace).current =
        (alone runCall Channel.zero (ownOps a trace)).2 :=
      (current_eq_left (lastOwner_of_inUse rfl h hlive)).trans (congrArg Prod.snd (halone a))
    have hopen := (showsOpened_alone (ownOps a trace)).opened hopened
    rw [← hcurrent, ← hsame, Shared.exec_append] at hopen
    exact hopen rfl

end

/-- The calls of a session with a shell. -/
def shellSession : List ChannelCall :=
  [.init, .open (ascii "admin") 0 2097152 4096, .exec none workingSockets, .put (ascii "help\r"),
    .write (.wrote 5), .purge]

/-- A session that ends before it has authenticated. -/
def turnedAway : List ChannelCall := [.init, .purge]

/-- Two sessions with a shell, and one between them that does not get so far. -/
theorem sessions_isolated_inTurn :
    let trace := (shellSession.map fun call => (0, call)) ++
      (turnedAway.map fun call => (1, call)) ++ shellSession.dropLast.map fun call => (2, call)
    Isolated trace ∧ ∀ a b, a ≠ b → channelOpened (ownOps a trace) = true →
      ¬ Isolated (trace ++ [(b, .init)]) :=
  sessions_isolated _ (by decide +kernel)

/-- A session in its shell, and a connection that has sent nothing yet. -/
def secondConnection : List (ℕ × ChannelCall) :=
  [(0, .init), (0, .open (ascii "admin") 0 2097152 4096), (0, .exec none workingSockets),
    (1, .init), (0, .put (ascii "help\r"))]

/-- **A new connection ends the session that was there**: its input meets `bug_proto`. -/
theorem secondConnection_not_isolated :
    (bootShared.exec runCall secondConnection).outputs 0 ≠
        (alone runCall Channel.zero (ownOps 0 secondConnection)).1 ∧
      ((bootShared.exec runCall secondConnection).outputs 0).getLast? =
        some ⟨.error (.bug .EPROTO), []⟩ ∧ ¬ Isolated secondConnection := by
  have hdiff : (bootShared.exec runCall secondConnection).outputs 0 ≠
      (alone runCall Channel.zero (ownOps 0 secondConnection)).1 := by decide +kernel
  refine ⟨hdiff, by decide +kernel, ?_⟩
  intro h
  exact hdiff (congrArg Prod.fst (h.alone 0))

end Glossh.Ssh
