/-
# `port_channel.c`: the channel of a session

The one `struct channel` and the operations on it.  An operation is a `Prog` on the structure and
on the record of what it did to descriptors, latest first; what the operating system answers is
an argument.  A descriptor is an integer, `-1` for none, as in the code.

The buffer `buf0` is the string of its first `len0` bytes.
-/
import Glossh.Lib.Prog
import Glossh.Ssh.Buf

namespace Glossh.Ssh

open Bytes Prog

/-! ## 1. The structure -/

def CHANNEL_BUFSIZE : ℕ := 131072

def LOGIN_NAME_MAX : ℕ := 256

/-- `struct channel`, the fields the operations use. -/
structure Channel where
  maxpacket : UInt32
  id : UInt32
  localwindow : UInt32
  remotewindow : UInt32
  buf0 : Bytes
  pid : ℤ
  fd0 : ℤ
  fd1 : ℤ
  fd2 : ℤ
  user : Bytes
  remoteeof : Bool
deriving DecidableEq

namespace Channel

/-- As `purge(&channel, sizeof channel)` leaves it. -/
def zero : Channel := ⟨0, 0, 0, 0, [], 0, 0, 0, 0, [], false⟩

/-- As `channel_init` leaves it. -/
def init : Channel := { zero with fd0 := -1, fd1 := -1, fd2 := -1 }

/-- `channel_putisready`. -/
def putisready (c : Channel) : Bool :=
  if c.maxpacket = 0 then false
  else if c.pid ≤ 0 then false
  else if c.fd0 = -1 then false
  else CHANNEL_BUFSIZE > c.buf0.length

/-- `channel_readisready`. -/
def readisready (c : Channel) : Bool :=
  if c.maxpacket = 0 ∨ c.pid = 0 then false
  else if c.fd1 = -1 then false
  else c.remotewindow > 0

/-- `channel_extendedreadisready`. -/
def extendedreadisready (_c : Channel) : Bool := false

/-- `channel_writeisready`. -/
def writeisready (c : Channel) : Bool :=
  if c.maxpacket = 0 then false
  else if c.pid ≤ 0 then false
  else if c.fd0 = -1 then false
  else c.buf0.length > 0

/-- `channel_iseof`. -/
def iseof (c : Channel) : Bool :=
  if c.maxpacket = 0 then false
  else if c.pid = 0 then false
  else if c.pid = -1 then true
  else c.fd1 = -1 && c.fd2 = -1

end Channel

/-- What an operation did to a descriptor. -/
inductive FdEvent where
  | read (fd : ℤ) (x : Bytes)
  | wrote (fd : ℤ) (x : Bytes)
  | closed (fd : ℤ)
  /-- `xTaskCreate` of an interpreter with its two descriptors and its command. -/
  | started (readFd writeFd : ℤ) (cmd : Option Bytes)
deriving DecidableEq

/-- A read. -/
def FdEvent.isRead : FdEvent → Bool
  | .read _ _ => true
  | _ => false

/-- What was read from the interpreter. -/
def bytesRead (io : List FdEvent) : Bytes :=
  io.reverse.flatMap fun e => match e with
    | .read _ x => x
    | _ => []

theorem bytesRead_read (fd : ℤ) (x : Bytes) (io : List FdEvent) :
    bytesRead (.read fd x :: io) = bytesRead io ++ x := by
  simp only [bytesRead, List.reverse_cons, List.flatMap_append, List.flatMap_cons,
    List.flatMap_nil, List.append_nil]

theorem bytesRead_of_not_read {x : FdEvent} (hx : x.isRead = false) (io : List FdEvent) :
    bytesRead (x :: io) = bytesRead io := by
  rw [bytesRead, bytesRead, List.reverse_cons, List.flatMap_append, List.flatMap_singleton]
  cases x with
  | read fd y => cases hx
  | wrote fd y => exact List.append_nil _
  | closed fd => exact List.append_nil _
  | started r w cmd => exact List.append_nil _

/-- The structure, and what was done to descriptors so far. -/
structure ChannelState where
  channel : Channel
  io : List FdEvent
deriving DecidableEq

abbrev ChannelM := Prog ChannelState Exit

/-- An assignment to fields of the structure. -/
def updateChannel (f : Channel → Channel) : ChannelM Unit :=
  modify fun s => { s with channel := f s.channel }

/-- An access to a descriptor. -/
def fdEvent (e : FdEvent) : ChannelM Unit := modify fun s => { s with io := e :: s.io }

/-- `if (c) bug_x();` for a condition on the structure. -/
def bugIf (c : Channel → Bool) (errno : Errno) : ChannelM Unit := do
  let bad ← reads fun s => c s.channel
  check (if bad then .error (.bug errno) else .ok ())

/-! ## 2. The operations -/

/-- `channel_init`. -/
def channelInit : ChannelM Unit := updateChannel fun _ => Channel.init

/-- `if (fd != -1) close(fd);` -/
def closeIfOpen (fd : Channel → ℤ) : ChannelM Unit := do
  let x ← reads fun s => fd s.channel
  if x ≠ -1 then fdEvent (.closed x) else return ()

/-- `channel_purge`: the structure is zeroed after its descriptors are closed, so that they are
0 and not -1 afterwards. -/
def channelPurge : ChannelM Unit := do
  closeIfOpen (·.fd0)
  closeIfOpen (·.fd1)
  closeIfOpen (·.fd2)
  updateChannel fun _ => Channel.zero

/-- `channel_open`; it returns 1 and the local window. -/
def channelOpen (user : Bytes) (id remotewindow maxpacket : UInt32) : ChannelM UInt32 := do
  bugIf (fun _ => maxpacket = 0) .EINVAL
  bugIf (fun _ => remotewindow = 0) .EINVAL
  bugIf (fun c => c.maxpacket ≠ 0) .EPROTO
  bugIf (fun c => c.pid ≠ 0) .EPROTO
  updateChannel fun c => { c with user := user.take LOGIN_NAME_MAX }
  bugIf (fun _ => user.length > LOGIN_NAME_MAX) .ENOMEM
  updateChannel fun c => { c with
    id := id
    maxpacket := maxpacket
    remotewindow := remotewindow
    localwindow := UInt32.ofNat CHANNEL_BUFSIZE
    buf0 := List.replicate c.buf0.length 0 }
  return UInt32.ofNat CHANNEL_BUFSIZE

/-- What the calls of one `socketpair_tcp` come to. -/
structure SocketpairEnv where
  listener : Option ℕ
  bound : Bool
  listening : Bool
  named : Bool
  client : Option ℕ
  connected : Bool
  accepted : Option ℕ
deriving DecidableEq

/-- `socketpair_tcp`: the two descriptors, or -1 with everything it opened closed again. -/
def socketpairTcp (e : SocketpairEnv) : ChannelM (Option (ℤ × ℤ)) :=
  match e.listener with
  | none => return none
  | some listener =>
    if ¬ (e.bound ∧ e.listening ∧ e.named) then do
      fdEvent (.closed listener)
      return none
    else
      match e.client with
      | none => do
        fdEvent (.closed listener)
        return none
      | some client =>
        if ¬ e.connected then do
          fdEvent (.closed listener)
          fdEvent (.closed client)
          return none
        else
          match e.accepted with
          | none => do
            fdEvent (.closed listener)
            fdEvent (.closed client)
            return none
          | some accepted => do
            fdEvent (.closed listener)
            return some (client, accepted)

/-- What the calls of `channel_exec` come to. -/
structure ExecEnv where
  fdsIn : SocketpairEnv
  fdsOut : SocketpairEnv
  malloc : Bool
  strdup : Bool
  xTaskCreate : Bool
deriving DecidableEq

/-- Every one of them succeeds. -/
def workingSockets : ExecEnv where
  fdsIn := ⟨some 60, true, true, true, some 61, true, some 62⟩
  fdsOut := ⟨some 63, true, true, true, some 64, true, some 65⟩
  malloc := true
  strdup := true
  xTaskCreate := true

/-- `channel_exec`. -/
def channelExec (cmd : Option Bytes) (e : ExecEnv) : ChannelM Bool := do
  bugIf (fun c => c.maxpacket = 0) .EPROTO
  bugIf (fun c => c.pid ≠ 0) .EPROTO
  let fdsIn ← socketpairTcp e.fdsIn
  match fdsIn with
  | none => return false
  | some (in0, in1) => do
    let fdsOut ← socketpairTcp e.fdsOut
    match fdsOut with
    | none => do
      fdEvent (.closed in0)
      fdEvent (.closed in1)
      return false
    | some (out0, out1) =>
      if ¬ (e.malloc ∧ e.xTaskCreate) then do
        fdEvent (.closed in0)
        fdEvent (.closed in1)
        fdEvent (.closed out0)
        fdEvent (.closed out1)
        return false
      else do
        -- A command that could not be copied is started as NULL.
        fdEvent (.started in1 out1 (if e.strdup then cmd else none))
        updateChannel fun c =>
          { c with fd0 := in0, fd1 := out0, fd2 := -1, buf0 := [], pid := 9999 }
        return true

/-- `channel_put`. -/
def channelPut (buf : Bytes) : ChannelM Unit := do
  bugIf (fun c => c.maxpacket = 0) .EPROTO
  bugIf (fun c => c.pid ≤ 0) .EPROTO
  bugIf (fun c => c.fd0 = -1) .EPROTO
  bugIf (fun c => c.buf0.length + buf.length > CHANNEL_BUFSIZE) .ENOMEM
  updateChannel fun c => { c with
    buf0 := c.buf0 ++ buf
    localwindow := c.localwindow - UInt32.ofNat buf.length }

/-- `close(channel.fd0); channel.fd0 = -1;` -/
def closeFd0 : ChannelM Unit := do
  let fd0 ← reads fun s => s.channel.fd0
  fdEvent (.closed fd0)
  updateChannel fun c => { c with fd0 := -1 }

/-- `close(channel.fd1); channel.fd1 = -1;` -/
def closeFd1 : ChannelM Unit := do
  let fd1 ← reads fun s => s.channel.fd1
  fdEvent (.closed fd1)
  updateChannel fun c => { c with fd1 := -1 }

/-- `channel_puteof`. -/
def channelPuteof : ChannelM Unit := do
  bugIf (fun c => c.maxpacket = 0) .EPROTO
  bugIf (fun c => c.pid = 0) .EPROTO
  bugIf (fun c => c.fd0 = -1) .EPROTO
  updateChannel fun c => { c with remoteeof := true }
  let empty ← reads fun s => decide (s.channel.buf0.length = 0)
  if empty then closeFd0 else return ()

/-- `channel_read` of at most `len` bytes: the bytes read, none when it returns 0. -/
def channelRead (len : ℤ) (r : ReadResult) : ChannelM Bytes := do
  bugIf (fun c => c.maxpacket = 0) .EPROTO
  bugIf (fun c => c.pid ≤ 0) .EPROTO
  bugIf (fun c => c.fd1 = -1) .EPROTO
  bugIf (fun _ => len < 0) .EINVAL
  let c ← reads fun s => s.channel
  if c.remotewindow ≤ 0 then return []
  else
    match r.upTo (min (min len.toNat 1048576) c.remotewindow.toNat) with
    | .again => return []
    | .data x => do
      fdEvent (.read c.fd1 x)
      updateChannel fun c => { c with remotewindow := c.remotewindow - UInt32.ofNat x.length }
      return x
    | .eof => do
      closeFd1
      return []
    | .failed => do
      closeFd1
      return []

/-- `channel_write`. -/
def channelWrite (w : WriteResult) : ChannelM Bool := do
  bugIf (fun c => c.maxpacket = 0) .EPROTO
  bugIf (fun c => c.pid ≤ 0) .EPROTO
  bugIf (fun c => c.fd0 = -1) .EPROTO
  let c ← reads fun s => s.channel
  if c.buf0.length ≤ 0 then return true
  else
    match w with
    | .again => return true
    | .failed => do
      closeFd0
      return false
    | .wrote 0 => do
      closeFd0
      return false
    | .wrote n => do
      fdEvent (.wrote c.fd0 (c.buf0.take n))
      updateChannel fun c => { c with buf0 := c.buf0.drop n }
      let done ← reads fun s => s.channel.remoteeof && decide (s.channel.buf0.length = 0)
      if done then do
        closeFd0
        return true
      else return true

/-- `channel_waitnohang`: whether there is a status; the status is always 0 and the signal 0. -/
def channelWaitnohang : ChannelM Bool := do
  bugIf (fun c => c.maxpacket = 0) .EPROTO
  let gone ← reads fun s => decide (s.channel.pid ≤ 0)
  if gone then return false
  else do
    updateChannel fun c => { c with pid := -1 }
    return true

/-- `channel_incrementremotewindow`. -/
def channelIncrementremotewindow (x : UInt32) : ChannelM Unit :=
  updateChannel fun c => { c with remotewindow := c.remotewindow + x }

/-- `channel_incrementlocalwindow`. -/
def channelIncrementlocalwindow (x : UInt32) : ChannelM Unit :=
  updateChannel fun c => { c with localwindow := c.localwindow + x }

/-! ## 3. Rules -/

theorem keeps_bugIf {P : ChannelState → Prop} (c : Channel → Bool) (errno : Errno) :
    Keeps P (bugIf c errno) := by
  refine (keeps_reads _).bind ?_
  intro bad
  exact keeps_check _

theorem exec_bugIf_bind {α : Type} (c : Channel → Bool) (errno : Errno) (g : Unit → ChannelM α)
    (s : ChannelState) : exec (bugIf c errno >>= g) s =
      if c s.channel then (.error (.bug errno), s) else exec (g ()) s :=
  exec_guard_bind (fun s : ChannelState => c s.channel) (Exit.bug errno) g s

/-- What follows a `bugIf` keeps a property, given that the condition is false. -/
theorem keeps_bugIf_bind {α : Type} {P : ChannelState → Prop} {c : Channel → Bool} {errno : Errno}
    {g : Unit → ChannelM α} (h : ∀ s, P s → c s.channel = false → P (exec (g ()) s).2) :
    Keeps P (bugIf c errno >>= g) := by
  intro s hs
  rw [exec_bugIf_bind]
  split
  · exact hs
  · rename_i hc
    exact h s hs (Bool.eq_false_iff.mpr hc)

/-- What returns behind a `bugIf` found its condition false. -/
theorem exec_bugIf_ok {α : Type} {c : Channel → Bool} {errno : Errno} {g : Unit → ChannelM α}
    {a : α} {s t : ChannelState} (h : exec (bugIf c errno >>= g) s = (.ok a, t)) :
    c s.channel = false ∧ exec (g ()) s = (.ok a, t) := by
  rw [exec_bugIf_bind] at h
  cases hc : c s.channel with
  | true =>
    rw [hc, if_pos rfl] at h
    cases h
  | false =>
    rw [hc, if_neg Bool.false_ne_true] at h
    exact ⟨rfl, h⟩

/-- What follows a `bugIf` starts where its condition is false. -/
theorem triple_bugIf {P : ChannelState → Prop} {c : Channel → Bool} {errno : Errno}
    {E : Exit → ChannelState → Prop} (hE : ∀ s, P s → E (.bug errno) s) :
    Triple P (bugIf c errno) (fun _ s => P s ∧ c s.channel = false) E := by
  constructor
  intro s hs
  cases hc : c s.channel with
  | true =>
    have hexec : exec (bugIf c errno) s = (.error (.bug errno), s) := by
      rw [bugIf, exec_reads_bind, hc]
      rfl
    rw [hexec]
    exact hE s hs
  | false =>
    have hexec : exec (bugIf c errno) s = (.ok (), s) := by
      rw [bugIf, exec_reads_bind, hc]
      rfl
    rw [hexec]
    exact ⟨hs, hc⟩

/-- A property that opening and closing descriptors does not touch. -/
def IgnoresIo (P : ChannelState → Prop) : Prop :=
  ∀ c io x, x.isRead = false → P ⟨c, io⟩ → P ⟨c, x :: io⟩

theorem IgnoresIo.triple_fdEvent {P : ChannelState → Prop} (h : IgnoresIo P)
    {E : Exit → ChannelState → Prop} {x : FdEvent} (hx : x.isRead = false) :
    Triple P (fdEvent x) (fun _ => P) E :=
  triple_modify fun s hs => h s.channel s.io x hx hs

/-- `socketpair_tcp` always returns, the descriptors of a pair are not -1, and the channel is not
touched. -/
theorem IgnoresIo.triple_socketpairTcp {P : ChannelState → Prop} (h : IgnoresIo P)
    {E : Exit → ChannelState → Prop} (e : SocketpairEnv) :
    Triple P (socketpairTcp e) (fun r s => P s ∧ ∀ fds, r = some fds → 0 ≤ fds.1 ∧ 0 ≤ fds.2)
      E := by
  have hnone : Triple P (pure none : ChannelM _)
      (fun r s => P s ∧ ∀ fds : ℤ × ℤ, r = some fds → 0 ≤ fds.1 ∧ 0 ≤ fds.2) E :=
    triple_pure fun s hs => ⟨hs, fun _ h => by cases h⟩
  have hclosed : ∀ fd, Triple P (fdEvent (.closed fd)) (fun _ => P) E :=
    fun _ => h.triple_fdEvent rfl
  unfold socketpairTcp
  split
  · exact hnone
  · refine Triple.ite (fun _ => (hclosed _).bind fun _ => hnone) fun _ => ?_
    split
    · exact (hclosed _).bind fun _ => hnone
    · refine Triple.ite (fun _ => (hclosed _).bind fun _ => (hclosed _).bind fun _ => hnone) ?_
      intro _
      split
      · exact (hclosed _).bind fun _ => (hclosed _).bind fun _ => hnone
      · refine (hclosed _).bind fun _ => triple_pure ?_
        intro s hs
        refine ⟨hs, ?_⟩
        rintro fds ⟨⟩
        exact ⟨Int.natCast_nonneg _, Int.natCast_nonneg _⟩

/-- **What `channel_exec` does to the channel**: nothing, or an interpreter with descriptors that
are not -1 is put in. -/
theorem IgnoresIo.triple_channelExec {P : ChannelState → Prop} (h : IgnoresIo P)
    (cmd : Option Bytes) (e : ExecEnv) :
    Triple P (channelExec cmd e) (fun ok s => ok = false ∧ P s ∨ ok = true ∧ ∃ c fd0 fd1,
        P ⟨c, s.io⟩ ∧ 0 ≤ fd0 ∧ 0 ≤ fd1 ∧ c.pid = 0 ∧
        s.channel = { c with fd0 := fd0, fd1 := fd1, fd2 := -1, buf0 := [], pid := 9999 })
      fun _ => P := by
  have hio : IgnoresIo fun s => P s ∧ s.channel.pid = 0 :=
    fun c io x hx hs => ⟨h c io x hx hs.1, hs.2⟩
  have hclosed : ∀ fd, Triple (fun s => P s ∧ s.channel.pid = 0) (fdEvent (.closed fd))
      (fun _ s => P s ∧ s.channel.pid = 0) fun _ => P := fun _ => hio.triple_fdEvent rfl
  have hfalse : Triple (fun s => P s ∧ s.channel.pid = 0) (pure false : ChannelM Bool)
      (fun ok s => ok = false ∧ P s ∨ ok = true ∧ ∃ c fd0 fd1,
        P ⟨c, s.io⟩ ∧ 0 ≤ fd0 ∧ 0 ≤ fd1 ∧ c.pid = 0 ∧
        s.channel = { c with fd0 := fd0, fd1 := fd1, fd2 := -1, buf0 := [], pid := 9999 })
      fun _ => P := triple_pure fun _ hs => .inl ⟨rfl, hs.1⟩
  have hpid : ∀ s : ChannelState, (P s ∧ decide (s.channel.maxpacket = 0) = false) ∧
      decide (s.channel.pid ≠ 0) = false → P s ∧ s.channel.pid = 0 := by
    rintro s ⟨⟨hs, -⟩, hp⟩
    exact ⟨hs, not_not.mp (of_decide_eq_false hp)⟩
  refine Triple.bind (triple_bugIf (E := fun _ => P) fun _ hs => hs) fun _ => ?_
  refine Triple.bind (triple_bugIf (E := fun _ => P) fun _ hs => hs.1) fun _ => ?_
  refine Triple.pre ((hio.triple_socketpairTcp e.fdsIn).bind ?_) hpid
  intro r
  cases r with
  | none => exact hfalse.pre fun _ hs => hs.1
  | some fdsIn =>
    refine Triple.bind (Q := fun r s => (P s ∧ s.channel.pid = 0) ∧ 0 ≤ fdsIn.1 ∧
      ∀ fds, r = some fds → 0 ≤ fds.1) ?_ ?_
    · constructor
      intro s hs
      refine ((hio.triple_socketpairTcp e.fdsOut).run s hs.1).mono ?_ fun _ _ he => he
      intro r t ht
      exact ⟨ht.1, (hs.2 _ rfl).1, fun fds hfds => (ht.2 fds hfds).1⟩
    intro r
    cases r with
    | none =>
      exact ((hclosed _).bind fun _ => (hclosed _).bind fun _ => hfalse).pre fun _ hs => hs.1
    | some fdsOut =>
      refine Triple.ite (fun _ => ?_) fun _ => ?_
      · exact ((hclosed _).bind fun _ => (hclosed _).bind fun _ => (hclosed _).bind fun _ =>
          (hclosed _).bind fun _ => hfalse).pre fun _ hs => hs.1
      · refine ⟨?_⟩
        rintro s ⟨⟨hs, hp⟩, hin, hout⟩
        exact .inr ⟨rfl, s.channel, fdsIn.1, fdsOut.1, h _ _ _ rfl hs, hin, hout _ rfl, hp, rfl⟩

/-- **What a `channel_open` that returns found and did.** -/
theorem channelOpen_ok {user : Bytes} {id remotewindow maxpacket w : UInt32} {c d : ChannelState}
    (h : exec (channelOpen user id remotewindow maxpacket) c = (.ok w, d)) :
    maxpacket ≠ 0 ∧ remotewindow ≠ 0 ∧ c.channel.maxpacket = 0 ∧ c.channel.pid = 0 ∧
      user.length ≤ LOGIN_NAME_MAX ∧ w = UInt32.ofNat CHANNEL_BUFSIZE ∧
      d = { c with
        channel := { c.channel with
          user := user.take LOGIN_NAME_MAX
          id := id
          maxpacket := maxpacket
          remotewindow := remotewindow
          localwindow := UInt32.ofNat CHANNEL_BUFSIZE
          buf0 := List.replicate c.channel.buf0.length 0 } } := by
  rw [channelOpen] at h
  obtain ⟨hmax, h⟩ := exec_bugIf_ok h
  obtain ⟨hwindow, h⟩ := exec_bugIf_ok h
  obtain ⟨hopen, h⟩ := exec_bugIf_ok h
  obtain ⟨hpid, h⟩ := exec_bugIf_ok h
  rw [updateChannel, exec_modify_bind] at h
  obtain ⟨huser, h⟩ := exec_bugIf_ok h
  obtain ⟨hw, rfl⟩ := Prod.mk.inj h
  refine ⟨?_, ?_, ?_, ?_, ?_, (Except.ok.inj hw).symm, rfl⟩
  · exact of_decide_eq_false hmax
  · exact of_decide_eq_false hwindow
  · exact not_not.mp (of_decide_eq_false hopen)
  · exact not_not.mp (of_decide_eq_false hpid)
  · exact Nat.le_of_not_lt (of_decide_eq_false huser)

/-! ## 4. What the assignments keep -/

/-- What the assignments of the channel operations keep, each where it is made: those that do not
take the channel to its end. -/
structure KeptBeforeEnd (P : Channel → Prop) : Prop where
  user {c : Channel} (user : Bytes) : P c → P { c with user := user }
  opened {c : Channel} (id maxpacket remotewindow localwindow : UInt32) (buf0 : Bytes) :
    c.pid = 0 → P c → P { c with
      id := id
      maxpacket := maxpacket
      remotewindow := remotewindow
      localwindow := localwindow
      buf0 := buf0 }
  started {c : Channel} {fd0 fd1 : ℤ} : 0 ≤ fd0 → 0 ≤ fd1 → P c →
    P { c with fd0 := fd0, fd1 := fd1, fd2 := -1, buf0 := [], pid := 9999 }
  input {c : Channel} (buf0 : Bytes) (localwindow : UInt32) : P c →
    P { c with buf0 := buf0, localwindow := localwindow }
  eof {c : Channel} : c.pid ≠ 0 → P c → P { c with remoteeof := true }
  closedFd0 {c : Channel} : P c → P { c with fd0 := -1 }
  output {c : Channel} (remotewindow : UInt32) : P c → P { c with remotewindow := remotewindow }

/-- What all of them keep. -/
structure KeptByAssignments (P : Channel → Prop) : Prop extends KeptBeforeEnd P where
  closedFd1 {c : Channel} : P c → P { c with fd1 := -1 }
  gone {c : Channel} : P c → P { c with pid := -1 }

section

variable {P : Channel → Prop}

theorem keeps_closeFd0_of (hfd0 : ∀ c, P c → P { c with fd0 := -1 }) :
    Keeps (fun s => P s.channel) closeFd0 := by
  refine (keeps_reads _).bind fun _ => Keeps.bind (keeps_modify fun _ hs => hs) fun _ => ?_
  exact keeps_modify fun s hs => hfd0 s.channel hs

/-- `channel_write` takes bytes from the buffer and may close `fd0`. -/
theorem keeps_channelWrite_of (hfd0 : ∀ c, P c → P { c with fd0 := -1 })
    (hbuf0 : ∀ c n, P c → P { c with buf0 := c.buf0.drop n }) (w : WriteResult) :
    Keeps (fun s => P s.channel) (channelWrite w) := by
  have hclose : ∀ ok : Bool,
      Keeps (fun s => P s.channel) (closeFd0 >>= fun _ => (pure ok : ChannelM Bool)) :=
    fun ok => (keeps_closeFd0_of hfd0).bind fun _ => keeps_pure ok
  refine (keeps_bugIf _ _).bind fun _ => (keeps_bugIf _ _).bind fun _ =>
    (keeps_bugIf _ _).bind fun _ => (keeps_reads _).bind fun _ => (keeps_pure _).ite ?_
  split
  · exact keeps_pure _
  · exact hclose _
  · exact hclose _
  · refine Keeps.bind (keeps_modify fun _ hs => hs) fun _ => Keeps.bind ?_ fun _ =>
      (keeps_reads _).bind fun _ => (hclose _).ite (keeps_pure _)
    exact keeps_modify fun s hs => hbuf0 s.channel _ hs

namespace KeptBeforeEnd

theorem keeps_closeFd0 (h : KeptBeforeEnd P) : Keeps (fun s => P s.channel) closeFd0 :=
  keeps_closeFd0_of fun _ => h.closedFd0

/-- The windows are set behind the check of `pid`. -/
theorem keeps_channelOpen (h : KeptBeforeEnd P) (user : Bytes)
    (id remotewindow maxpacket : UInt32) :
    Keeps (fun s => P s.channel) (channelOpen user id remotewindow maxpacket) := by
  refine (keeps_bugIf _ _).bind fun _ => (keeps_bugIf _ _).bind fun _ =>
    (keeps_bugIf _ _).bind fun _ => keeps_bugIf_bind fun s hs hpid => ?_
  have huser := h.user (user.take LOGIN_NAME_MAX) hs
  rw [updateChannel, exec_modify_bind, exec_bugIf_bind]
  split
  · exact huser
  · exact h.opened _ _ _ _ _ (not_not.mp (of_decide_eq_false hpid)) huser

theorem keeps_channelExec (h : KeptBeforeEnd P) (cmd : Option Bytes) (e : ExecEnv) :
    Keeps (fun s => P s.channel) (channelExec cmd e) := by
  have hio : IgnoresIo fun s => P s.channel := fun _ _ _ _ hs => hs
  refine ((hio.triple_channelExec cmd e).post ?_).keeps
  rintro ok s (⟨-, hs⟩ | ⟨-, c, fd0, fd1, hc, hfd0, hfd1, -, hchannel⟩)
  · exact hs
  · rw [hchannel]
    exact h.started hfd0 hfd1 hc

theorem keeps_channelPut (h : KeptBeforeEnd P) (buf : Bytes) :
    Keeps (fun s => P s.channel) (channelPut buf) := by
  refine (keeps_bugIf _ _).bind fun _ => (keeps_bugIf _ _).bind fun _ =>
    (keeps_bugIf _ _).bind fun _ => (keeps_bugIf _ _).bind fun _ => ?_
  exact keeps_modify fun _ hs => h.input _ _ hs

/-- `remoteeof` is set behind the check of `pid`. -/
theorem keeps_channelPuteof (h : KeptBeforeEnd P) :
    Keeps (fun s => P s.channel) channelPuteof := by
  refine (keeps_bugIf _ _).bind fun _ => keeps_bugIf_bind fun s hs hpid => ?_
  have hclose : Keeps (fun s => P s.channel) (reads (fun s : ChannelState =>
      decide (s.channel.buf0.length = 0)) >>= fun empty => if empty then closeFd0 else pure ()) :=
    (keeps_reads _).bind fun _ => h.keeps_closeFd0.ite (keeps_pure _)
  rw [exec_bugIf_bind]
  split
  · exact hs
  · rw [updateChannel, exec_modify_bind]
    exact hclose _ (h.eof (of_decide_eq_false hpid) hs)

theorem keeps_channelWrite (h : KeptBeforeEnd P) (w : WriteResult) :
    Keeps (fun s => P s.channel) (channelWrite w) :=
  keeps_channelWrite_of (fun _ => h.closedFd0) (fun _ _ hc => h.input _ _ hc) w

theorem keeps_channelIncrementremotewindow (h : KeptBeforeEnd P) (x : UInt32) :
    Keeps (fun s => P s.channel) (channelIncrementremotewindow x) :=
  keeps_modify fun _ hs => h.output _ hs

theorem keeps_channelIncrementlocalwindow (h : KeptBeforeEnd P) (x : UInt32) :
    Keeps (fun s => P s.channel) (channelIncrementlocalwindow x) :=
  keeps_modify fun _ hs => h.input _ _ hs

end KeptBeforeEnd

namespace KeptByAssignments

theorem keeps_closeFd1 (h : KeptByAssignments P) : Keeps (fun s => P s.channel) closeFd1 := by
  refine (keeps_reads _).bind fun _ => Keeps.bind (keeps_modify fun _ hs => hs) fun _ => ?_
  exact keeps_modify fun _ hs => h.closedFd1 hs

theorem keeps_channelRead (h : KeptByAssignments P) (len : ℤ) (r : ReadResult) :
    Keeps (fun s => P s.channel) (channelRead len r) := by
  refine (keeps_bugIf _ _).bind fun _ => (keeps_bugIf _ _).bind fun _ =>
    (keeps_bugIf _ _).bind fun _ => (keeps_bugIf _ _).bind fun _ => (keeps_reads _).bind fun _ =>
    (keeps_pure _).ite ?_
  split
  · exact keeps_pure _
  · refine Keeps.bind (keeps_modify fun _ hs => hs) fun _ => Keeps.bind ?_ fun _ => keeps_pure _
    exact keeps_modify fun _ hs => h.output _ hs
  · exact h.keeps_closeFd1.bind fun _ => keeps_pure _
  · exact h.keeps_closeFd1.bind fun _ => keeps_pure _

theorem keeps_channelWaitnohang (h : KeptByAssignments P) :
    Keeps (fun s => P s.channel) channelWaitnohang := by
  refine (keeps_bugIf _ _).bind fun _ => (keeps_reads _).bind fun _ => (keeps_pure _).ite ?_
  exact Keeps.bind (keeps_modify fun _ hs => h.gone hs) fun _ => keeps_pure _

end KeptByAssignments

end

end Glossh.Ssh
