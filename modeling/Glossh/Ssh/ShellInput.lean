/-
# The input of the shell

`channel_put` appends to the array `buf0`, `channel_write` writes from its front and moves the rest
down, over itself.  Here is the array as it is, and what the operations of `Channel.lean` say of
its first `len0` bytes is what these do.

Whatever the order of data, end of file and partial writes: what was written and what the array
still holds is what was put, and behind the end of file the descriptor is closed with the last
byte.
-/
import Glossh.Lib.Region
import Glossh.Lib.Run
import Glossh.Ssh.Isolation
import Glossh.Ssh.MainLoop

namespace Glossh.Ssh

open Bytes Prog

/-! ## 1. The array -/

/-- The fields of `struct channel` the shell's input uses, and what was done to descriptors. -/
structure ShellInput where
  maxpacket : UInt32
  pid : ℤ
  fd0 : ℤ
  localwindow : UInt32
  remoteeof : Bool
  len0 : ℕ
  buf0 : Bytes
  io : List FdEvent

abbrev ShellM := Prog ShellInput Exit

namespace ShellInput

/-- `if (c) bug_x();` -/
def bugIf (c : ShellInput → Bool) (errno : Errno) : ShellM Unit := do
  let bad ← reads c
  check (if bad then .error (.bug errno) else .ok ())

/-- `close(channel.fd0); channel.fd0 = -1;` -/
def closeFd0 : ShellM Unit :=
  modify fun s => { s with io := .closed s.fd0 :: s.io, fd0 := -1 }

/-- `channel_put`. -/
def channelPut (buf : Bytes) : ShellM Unit := do
  bugIf (fun s => s.maxpacket = 0) .EPROTO
  bugIf (fun s => s.pid ≤ 0) .EPROTO
  bugIf (fun s => s.fd0 = -1) .EPROTO
  bugIf (fun s => s.len0 + buf.length > CHANNEL_BUFSIZE) .ENOMEM
  modify fun s => { s with
    buf0 := overwrite s.buf0 s.len0 buf
    len0 := s.len0 + buf.length
    localwindow := s.localwindow - UInt32.ofNat buf.length }

/-- `channel_puteof`. -/
def channelPuteof : ShellM Unit := do
  bugIf (fun s => s.maxpacket = 0) .EPROTO
  bugIf (fun s => s.pid = 0) .EPROTO
  bugIf (fun s => s.fd0 = -1) .EPROTO
  modify fun s => { s with remoteeof := true }
  let empty ← reads fun s => decide (s.len0 = 0)
  if empty then closeFd0 else return ()

/-- `w` bytes are written from the front, the rest is moved down and what is behind it purged. -/
def shift (w : ℕ) (s : ShellInput) : ShellInput :=
  { s with
    io := .wrote s.fd0 (s.buf0.take w) :: s.io
    buf0 := overwrite (copyForward (s.len0 - w) 0 w s.buf0) (s.len0 - w) (List.replicate w 0)
    len0 := s.len0 - w }

/-- `channel_write`. -/
def channelWrite (r : WriteResult) : ShellM Bool := do
  bugIf (fun s => s.maxpacket = 0) .EPROTO
  bugIf (fun s => s.pid ≤ 0) .EPROTO
  bugIf (fun s => s.fd0 = -1) .EPROTO
  let len0 ← reads fun s => s.len0
  if len0 ≤ 0 then return true
  else
    match r with
    | .again => return true
    | .failed => do
      closeFd0
      return false
    | .wrote 0 => do
      closeFd0
      return false
    | .wrote n => do
      modify (shift (min n len0))
      let done ← reads fun s => s.remoteeof && decide (s.len0 = 0)
      if done then do
        closeFd0
        return true
      else return true

end ShellInput

/-! ## 2. The first `len0` bytes -/

/-- The array holds the bytes of the channel's `buf0`; the other fields are the same. -/
structure Flat (s : ChannelState) (f : ShellInput) : Prop where
  maxpacket : f.maxpacket = s.channel.maxpacket
  pid : f.pid = s.channel.pid
  fd0 : f.fd0 = s.channel.fd0
  localwindow : f.localwindow = s.channel.localwindow
  remoteeof : f.remoteeof = s.channel.remoteeof
  length_buf0 : f.buf0.length = CHANNEL_BUFSIZE
  len0 : f.len0 = s.channel.buf0.length
  len0_le : f.len0 ≤ CHANNEL_BUFSIZE
  take_buf0 : f.buf0.take f.len0 = s.channel.buf0
  io : f.io = s.io

/-- Two calls come to the same. -/
def Matches {α : Type} (x : Except Exit α × ChannelState) (y : Except Exit α × ShellInput) : Prop :=
  y.1 = x.1 ∧ Flat x.2 y.2

namespace Flat

variable {s : ChannelState} {f : ShellInput}

/-- A check of both. -/
theorem bugIf_bind {α : Type} {c : Channel → Bool} {c' : ShellInput → Bool} {errno : Errno}
    {g : Unit → ChannelM α} {g' : Unit → ShellM α} (h : Flat s f) (hc : c' f = c s.channel)
    (hg : c s.channel = false → Matches (exec (g ()) s) (exec (g' ()) f)) :
    Matches (exec (bugIf c errno >>= g) s) (exec (ShellInput.bugIf c' errno >>= g') f) := by
  rw [exec_bugIf_bind]
  cases hbad : c s.channel with
  | true =>
    have hexec : exec (ShellInput.bugIf c' errno) f = (.error (.bug errno), f) := by
      rw [ShellInput.bugIf, exec_reads_bind, hc, hbad]
      rfl
    rw [exec_bind_error hexec, if_pos rfl]
    exact ⟨rfl, h⟩
  | false =>
    have hexec : exec (ShellInput.bugIf c' errno) f = (.ok (), f) := by
      rw [ShellInput.bugIf, exec_reads_bind, hc, hbad]
      rfl
    rw [exec_bind_ok hexec, if_neg Bool.false_ne_true]
    exact hg hbad

/-- A branch of both. -/
theorem ite {α : Type} {c c' : Bool} {m n : ChannelM α} {m' n' : ShellM α} (hc : c' = c)
    (ht : Matches (exec m s) (exec m' f)) (he : Matches (exec n s) (exec n' f)) :
    Matches (exec (if c then m else n) s) (exec (if c' then m' else n') f) := by
  rw [hc]
  cases c with
  | true => exact ht
  | false => exact he

theorem closeFd0 (h : Flat s f) : Matches (exec Ssh.closeFd0 s) (exec ShellInput.closeFd0 f) :=
  ⟨rfl, h.maxpacket, h.pid, rfl, h.localwindow, h.remoteeof, h.length_buf0, h.len0, h.len0_le,
    h.take_buf0, by
      change FdEvent.closed f.fd0 :: f.io = .closed s.channel.fd0 :: s.io
      rw [h.fd0, h.io]⟩

/-- **`channel_put`** appends to the first `len0` bytes. -/
theorem channelPut (h : Flat s f) (buf : Bytes) :
    Matches (exec (Ssh.channelPut buf) s) (exec (ShellInput.channelPut buf) f) := by
  refine h.bugIf_bind (by rw [h.maxpacket]) fun _ => h.bugIf_bind (by rw [h.pid]) fun _ =>
    h.bugIf_bind (by rw [h.fd0]) fun _ => h.bugIf_bind (by rw [h.len0]) fun hfits => ?_
  have hroom : f.len0 + buf.length ≤ f.buf0.length := by
    rw [h.len0, h.length_buf0]
    exact Nat.le_of_not_lt (of_decide_eq_false hfits)
  refine ⟨rfl, h.maxpacket, h.pid, h.fd0, ?_, h.remoteeof, ?_, ?_, ?_, ?_, h.io⟩
  · change f.localwindow - _ = s.channel.localwindow - _
    rw [h.localwindow]
  · exact (length_overwrite hroom).trans h.length_buf0
  · change f.len0 + buf.length = (s.channel.buf0 ++ buf).length
    rw [List.length_append, h.len0]
  · exact hroom.trans h.length_buf0.le
  · change (overwrite f.buf0 f.len0 buf).take (f.len0 + buf.length) = s.channel.buf0 ++ buf
    rw [take_overwrite hroom, h.take_buf0]

/-- **`channel_puteof`** looks at the length only. -/
theorem channelPuteof (h : Flat s f) :
    Matches (exec Ssh.channelPuteof s) (exec ShellInput.channelPuteof f) := by
  refine h.bugIf_bind (by rw [h.maxpacket]) fun _ => h.bugIf_bind (by rw [h.pid]) fun _ =>
    h.bugIf_bind (by rw [h.fd0]) fun _ => ?_
  have heof : Flat { s with channel := { s.channel with remoteeof := true } }
      { f with remoteeof := true } :=
    ⟨h.maxpacket, h.pid, h.fd0, h.localwindow, rfl, h.length_buf0, h.len0, h.len0_le, h.take_buf0,
      h.io⟩
  rw [updateChannel, exec_modify_bind, exec_modify_bind, exec_reads_bind, exec_reads_bind]
  exact Flat.ite (by rw [h.len0]) heof.closeFd0 ⟨rfl, heof⟩

/-- **The shift** drops from the first `len0` bytes. -/
theorem shift (h : Flat s f) (n : ℕ) :
    Flat ⟨{ s.channel with buf0 := s.channel.buf0.drop n },
      .wrote s.channel.fd0 (s.channel.buf0.take n) :: s.io⟩ (f.shift (min n f.len0)) := by
  have hle := h.len0_le
  have hlen := h.length_buf0
  have hmin : min n f.len0 ≤ f.len0 := Nat.min_le_right _ _
  have hcopy : (copyForward (f.len0 - min n f.len0) 0 (min n f.len0) f.buf0).length =
      f.buf0.length := length_copyForward _ _ _ _
  have hfits : f.len0 - min n f.len0 + (List.replicate (min n f.len0) (0 : UInt8)).length ≤
      (copyForward (f.len0 - min n f.len0) 0 (min n f.len0) f.buf0).length := by
    rw [List.length_replicate, hcopy]
    omega
  refine ⟨h.maxpacket, h.pid, h.fd0, h.localwindow, h.remoteeof, ?_, ?_, ?_, ?_, ?_⟩
  · exact (length_overwrite hfits).trans (hcopy.trans hlen)
  · change f.len0 - min n f.len0 = (s.channel.buf0.drop n).length
    rw [List.length_drop, ← h.len0]
    omega
  · exact (Nat.sub_le _ _).trans hle
  · change (overwrite _ (f.len0 - min n f.len0) _).take (f.len0 - min n f.len0) = _
    have hmoved : (copyForward (f.len0 - min n f.len0) 0 (min n f.len0) f.buf0).take
        (0 + (f.len0 - min n f.len0)) =
        f.buf0.take 0 ++ slice f.buf0 (min n f.len0) (f.len0 - min n f.len0) :=
      take_copyForward (Nat.zero_le _) (by omega)
    rw [Nat.zero_add, List.take_zero, List.nil_append] at hmoved
    have hfront : (overwrite (copyForward (f.len0 - min n f.len0) 0 (min n f.len0) f.buf0)
        (f.len0 - min n f.len0) (List.replicate (min n f.len0) 0)).take (f.len0 - min n f.len0) =
        (copyForward (f.len0 - min n f.len0) 0 (min n f.len0) f.buf0).take
          (f.len0 - min n f.len0) := by
      rw [overwrite, List.append_assoc, List.take_left' (by rw [List.length_take, hcopy]; omega)]
    rw [hfront, hmoved, slice, ← List.drop_take, h.take_buf0]
    rcases Nat.le_total n f.len0 with hn | hn
    · rw [Nat.min_eq_left hn]
    · rw [Nat.min_eq_right hn, List.drop_of_length_le (by rw [h.len0]),
        List.drop_of_length_le (by rw [← h.len0]; exact hn)]
  · change FdEvent.wrote f.fd0 (f.buf0.take (min n f.len0)) :: f.io = _
    rw [h.fd0, h.io, ← List.take_take, h.take_buf0]

/-- **`channel_write`** writes and drops from the first `len0` bytes. -/
theorem channelWrite (h : Flat s f) (w : WriteResult) :
    Matches (exec (Ssh.channelWrite w) s) (exec (ShellInput.channelWrite w) f) := by
  have hclose : ∀ {s' : ChannelState} {f' : ShellInput} (ok : Bool), Flat s' f' →
      Matches (exec (Ssh.closeFd0 >>= fun _ => pure ok) s')
        (exec (ShellInput.closeFd0 >>= fun _ => pure ok) f') := fun _ h' => ⟨rfl, h'.closeFd0.2⟩
  refine h.bugIf_bind (by rw [h.maxpacket]) fun _ => h.bugIf_bind (by rw [h.pid]) fun _ =>
    h.bugIf_bind (by rw [h.fd0]) fun _ => ?_
  rw [exec_reads_bind, exec_reads_bind]
  by_cases hempty : s.channel.buf0.length ≤ 0
  · rw [if_pos hempty, if_pos (by rw [h.len0]; exact hempty)]
    exact ⟨rfl, h⟩
  rw [if_neg hempty, if_neg (by rw [h.len0]; exact hempty)]
  cases w with
  | again => exact ⟨rfl, h⟩
  | failed => exact hclose false h
  | wrote n =>
    cases n with
    | zero => exact hclose false h
    | succ n =>
      have hshift := h.shift (n + 1)
      have hdone : ((f.shift (min (n + 1) f.len0)).remoteeof &&
          decide ((f.shift (min (n + 1) f.len0)).len0 = 0)) =
          (s.channel.remoteeof && decide ((s.channel.buf0.drop (n + 1)).length = 0)) := by
        rw [hshift.remoteeof, hshift.len0]
      exact Flat.ite hdone (hclose true hshift) ⟨rfl, hshift⟩

end Flat

/-! ## 3. Calls -/

/-- A call for the shell's input, with what `write` says. -/
inductive ShellCall where
  | put (x : Bytes)
  | puteof
  | write (w : WriteResult)
deriving DecidableEq

namespace ShellCall

/-- `write` takes some of the bytes, or is to be called again. -/
def accepted : ShellCall → Bool
  | write .failed => false
  | write (.wrote 0) => false
  | _ => true

/-- What is put. -/
def data : ShellCall → Bytes
  | put x => x
  | _ => []

/-- The call on the array. -/
def prog : ShellCall → ShellM Unit
  | put x => ShellInput.channelPut x
  | puteof => ShellInput.channelPuteof
  | write w => do
    let _ ← ShellInput.channelWrite w

/-- The call on the channel. -/
def onChannel : ShellCall → ChannelM Unit
  | put x => channelPut x
  | puteof => channelPuteof
  | write w => do
    let _ ← channelWrite w

end ShellCall

/-- A call that trips no check. -/
def ShellInput.step (f : ShellInput) (c : ShellCall) : Option ShellInput :=
  match exec c.prog f with
  | (.ok _, f') => some f'
  | (.error _, _) => none

theorem ShellInput.step_eq_some {f f' : ShellInput} {c : ShellCall} (h : f.step c = some f') :
    exec c.prog f = (.ok (), f') := by
  rw [step] at h
  rcases hexec : exec c.prog f with ⟨_ | u, t⟩ <;> rw [hexec] at h
  · cases h
  · cases h
    rfl

theorem Matches.discard {α : Type} {m : ChannelM α} {m' : ShellM α} {s : ChannelState}
    {f : ShellInput} (h : Matches (exec m s) (exec m' f)) :
    Matches (exec (m >>= fun _ => (pure () : ChannelM Unit)) s)
      (exec (m' >>= fun _ => (pure () : ShellM Unit)) f) := by
  rw [exec_bind, exec_bind]
  generalize exec m s = x at h ⊢
  generalize exec m' f = y at h ⊢
  obtain ⟨r, t⟩ := x
  obtain ⟨r', g⟩ := y
  obtain ⟨rfl, hflat⟩ := h
  cases r' with
  | ok a => exact ⟨rfl, hflat⟩
  | error e => exact ⟨rfl, hflat⟩

/-- **Every call on the array is the call on the channel.** -/
theorem Flat.matches_prog {s : ChannelState} {f : ShellInput} (h : Flat s f) (c : ShellCall) :
    Matches (exec c.onChannel s) (exec c.prog f) := by
  cases c with
  | put x => exact h.channelPut x
  | puteof => exact h.channelPuteof
  | write w => exact (h.channelWrite w).discard

theorem Flat.step {s : ChannelState} {f f' : ShellInput} {c : ShellCall} (h : Flat s f)
    (hstep : f.step c = some f') : ∃ s', exec c.onChannel s = (.ok (), s') ∧ Flat s' f' := by
  obtain ⟨hresult, hflat⟩ := h.matches_prog c
  rw [ShellInput.step_eq_some hstep] at hresult hflat
  exact ⟨(exec c.onChannel s).2, Prod.ext hresult.symm rfl, hflat⟩

/-! ## 4. The queue -/

/-- `close(channel.fd0); channel.fd0 = -1;` -/
def ChannelState.closedFd0 (s : ChannelState) : ChannelState :=
  ⟨{ s.channel with fd0 := -1 }, .closed s.channel.fd0 :: s.io⟩

/-- The descriptor is open and was only written to; what was written and what `buf0` holds is
what was put. -/
structure Flows (fd : ℤ) (calls : List ShellCall) (s : ChannelState) : Prop where
  fd0 : s.channel.fd0 = fd
  remoteeof : s.channel.remoteeof = decide (ShellCall.puteof ∈ calls)
  data : ∃ xs : List Bytes, s.io.reverse = xs.map (FdEvent.wrote fd) ∧
    xs.flatten ++ s.channel.buf0 = calls.flatMap ShellCall.data

/-- The client has ended its input, and all of it is written. -/
def InputDone (calls : List ShellCall) (s : ChannelState) : Prop :=
  ShellCall.puteof ∈ calls ∧ s.channel.buf0 = []

/-- After the calls the descriptor is open, or it was closed just when the buffer was drained. -/
inductive Queue (fd : ℤ) (calls : List ShellCall) : ChannelState → Prop
  | running {s : ChannelState} : Flows fd calls s → ¬ InputDone calls s → Queue fd calls s
  | ended {s : ChannelState} : Flows fd calls s → InputDone calls s → Queue fd calls s.closedFd0

section

variable {fd : ℤ} {calls : List ShellCall} {s s' : ChannelState}

/-- **The test of `channel_write`**, and of `channel_puteof` behind its assignment. -/
theorem Flows.closeIfDone (h : Flows fd calls s) :
    Queue fd calls (if s.channel.remoteeof && decide (s.channel.buf0.length = 0) then s.closedFd0
      else s) := by
  have hiff : (s.channel.remoteeof && decide (s.channel.buf0.length = 0)) = true ↔
      InputDone calls s := by
    rw [Bool.and_eq_true, h.remoteeof, decide_eq_true_iff, decide_eq_true_iff,
      List.length_eq_zero_iff]
    exact Iff.rfl
  split
  · rename_i hdone
    exact .ended h (hiff.mp hdone)
  · rename_i hdone
    exact .running h (mt hiff.mpr hdone)

/-- No call goes through behind the close. -/
theorem Queue.flows (h : Queue fd calls s) (hopen : s.channel.fd0 ≠ -1) :
    Flows fd calls s ∧ ¬ InputDone calls s := by
  cases h with
  | running hflows hnot => exact ⟨hflows, hnot⟩
  | ended _ _ => exact absurd rfl hopen

theorem Queue.channelPut {x : Bytes} (h : Queue fd calls s)
    (hexec : exec (Ssh.channelPut x) s = (.ok (), s')) :
    Queue fd (calls ++ [.put x]) s' := by
  rw [Ssh.channelPut] at hexec
  obtain ⟨-, hexec⟩ := exec_bugIf_ok hexec
  obtain ⟨-, hexec⟩ := exec_bugIf_ok hexec
  obtain ⟨hopen, hexec⟩ := exec_bugIf_ok hexec
  obtain ⟨-, hexec⟩ := exec_bugIf_ok hexec
  obtain ⟨⟨hfd0, heof, xs, hio, hdata⟩, hnot⟩ := h.flows (of_decide_eq_false hopen)
  obtain ⟨-, rfl⟩ := Prod.mk.inj hexec
  have hmem : ShellCall.puteof ∈ calls ++ [.put x] ↔ ShellCall.puteof ∈ calls := by simp
  refine .running ⟨hfd0, ?_, xs, hio, ?_⟩ ?_
  · rw [decide_eq_decide.mpr hmem]
    exact heof
  · rw [List.flatMap_append, ← hdata, List.flatMap_singleton, List.append_assoc]
    rfl
  · rintro ⟨hput, hempty⟩
    exact hnot ⟨hmem.mp hput, (List.append_eq_nil_iff.mp hempty).1⟩

theorem Queue.channelPuteof (h : Queue fd calls s)
    (hexec : exec Ssh.channelPuteof s = (.ok (), s')) :
    Queue fd (calls ++ [.puteof]) s' := by
  rw [Ssh.channelPuteof] at hexec
  obtain ⟨-, hexec⟩ := exec_bugIf_ok hexec
  obtain ⟨-, hexec⟩ := exec_bugIf_ok hexec
  obtain ⟨hopen, hexec⟩ := exec_bugIf_ok hexec
  obtain ⟨⟨hfd0, -, xs, hio, hdata⟩, -⟩ := h.flows (of_decide_eq_false hopen)
  let t : ChannelState := { s with channel := { s.channel with remoteeof := true } }
  have hflows : Flows fd (calls ++ [.puteof]) t := by
    refine ⟨hfd0, ?_, xs, hio, ?_⟩
    · exact (decide_eq_true (by simp)).symm
    · rw [List.flatMap_append, ← hdata, List.flatMap_singleton]
      exact (List.append_nil _).symm
  have hend : s' = if t.channel.remoteeof && decide (t.channel.buf0.length = 0) then t.closedFd0
      else t := by
    rw [updateChannel, exec_modify_bind, exec_reads_bind] at hexec
    rw [Bool.true_and]
    split at hexec
    · rename_i hempty
      rw [if_pos hempty]
      exact (Prod.mk.inj hexec).2.symm
    · rename_i hempty
      rw [if_neg hempty]
      exact (Prod.mk.inj hexec).2.symm
  rw [hend]
  exact hflows.closeIfDone

theorem Queue.channelWrite {w : WriteResult} {ok : Bool} (h : Queue fd calls s)
    (hw : (ShellCall.write w).accepted = true)
    (hexec : exec (Ssh.channelWrite w) s = (.ok ok, s')) :
    Queue fd (calls ++ [.write w]) s' := by
  rw [Ssh.channelWrite] at hexec
  obtain ⟨-, hexec⟩ := exec_bugIf_ok hexec
  obtain ⟨-, hexec⟩ := exec_bugIf_ok hexec
  obtain ⟨hopen, hexec⟩ := exec_bugIf_ok hexec
  obtain ⟨⟨hfd0, heof, xs, hio, hdata⟩, hnot⟩ := h.flows (of_decide_eq_false hopen)
  have hmem : ShellCall.puteof ∈ calls ++ [.write w] ↔ ShellCall.puteof ∈ calls := by simp
  have hput : (calls ++ [ShellCall.write w]).flatMap ShellCall.data =
      calls.flatMap ShellCall.data := by
    rw [List.flatMap_append, List.flatMap_singleton]
    exact List.append_nil _
  have hremote : s.channel.remoteeof = decide (ShellCall.puteof ∈ calls ++ [.write w]) := by
    rw [decide_eq_decide.mpr hmem]
    exact heof
  have hsame : Queue fd (calls ++ [.write w]) s := by
    refine .running ⟨hfd0, hremote, xs, hio, hdata.trans hput.symm⟩ ?_
    rintro ⟨hin, hempty⟩
    exact hnot ⟨hmem.mp hin, hempty⟩
  rw [exec_reads_bind] at hexec
  split at hexec
  · obtain ⟨-, rfl⟩ := Prod.mk.inj hexec
    exact hsame
  cases w with
  | again =>
    obtain ⟨-, rfl⟩ := Prod.mk.inj hexec
    exact hsame
  | failed => cases hw
  | wrote n =>
    cases n with
    | zero => cases hw
    | succ n =>
      let t : ChannelState := ⟨{ s.channel with buf0 := s.channel.buf0.drop (n + 1) },
        .wrote s.channel.fd0 (s.channel.buf0.take (n + 1)) :: s.io⟩
      have hflows : Flows fd (calls ++ [.write (.wrote (n + 1))]) t := by
        refine ⟨hfd0, hremote, xs ++ [s.channel.buf0.take (n + 1)], ?_, ?_⟩
        · rw [List.reverse_cons, hio, hfd0, List.map_append]
          rfl
        · rw [hput, ← hdata, List.flatten_append, List.flatten_singleton, List.append_assoc,
            List.take_append_drop]
      have hend : s' = if t.channel.remoteeof && decide (t.channel.buf0.length = 0) then
          t.closedFd0 else t := by
        change exec (if t.channel.remoteeof && decide (t.channel.buf0.length = 0) then do
          closeFd0
          return true
        else return true) t = _ at hexec
        split at hexec
        · rename_i hempty
          rw [if_pos hempty]
          exact (Prod.mk.inj hexec).2.symm
        · rename_i hempty
          rw [if_neg hempty]
          exact (Prod.mk.inj hexec).2.symm
      rw [hend]
      exact hflows.closeIfDone

/-- **What one call keeps.** -/
theorem Queue.call {c : ShellCall} (h : Queue fd calls s) (hc : c.accepted = true)
    (hexec : exec c.onChannel s = (.ok (), s')) : Queue fd (calls ++ [c]) s' := by
  cases c with
  | put x => exact h.channelPut hexec
  | puteof => exact h.channelPuteof hexec
  | write w =>
    rw [ShellCall.onChannel, exec_bind] at hexec
    rcases hwrite : exec (Ssh.channelWrite w) s with ⟨_ | ok, t⟩ <;> rw [hwrite] at hexec
    · cases hexec
    · obtain ⟨-, rfl⟩ := Prod.mk.inj hexec
      exact h.channelWrite hc hwrite

/-- **What a run of calls keeps**: the array goes with the channel. -/
theorem Queue.run {f f' : ShellInput} (more : List ShellCall) (h : Queue fd calls s)
    (hflat : Flat s f)
    (hrun : runTrace ShellInput.step (fun _ c => c.accepted) more f = some f') :
    ∃ s', Queue fd (calls ++ more) s' ∧ Flat s' f' := by
  induction more generalizing calls s f with
  | nil =>
    cases hrun
    rw [List.append_nil]
    exact ⟨s, h, hflat⟩
  | cons c more ih =>
    rw [runTrace] at hrun
    split at hrun
    · rename_i hc
      obtain ⟨g, hstep, hrest⟩ := Option.bind_eq_some_iff.mp hrun
      obtain ⟨t, hexec, hflat'⟩ := hflat.step hstep
      obtain ⟨s', hqueue, hend⟩ := ih (h.call hc hexec) hflat' hrest
      rw [List.append_assoc] at hqueue
      exact ⟨s', hqueue, hend⟩
    · cases hrun

end

/-! ## 5. From the start of the interpreter on -/

/-- A call before that, of whichever session. -/
inductive EarlierCall where
  | call (c : ChannelCall)
  | incrementlocalwindow (x : UInt32)

def EarlierCall.prog : EarlierCall → ChannelM Unit
  | .call c => do
    let _ ← c.prog
  | .incrementlocalwindow x => channelIncrementlocalwindow x

/-- The structure after calls, whether they returned or met a check. -/
def channelAfter (before : List EarlierCall) : Channel :=
  before.foldl (fun c e => (exec e.prog ⟨c, []⟩).2.channel) Channel.zero

/-- The fields the shell's input uses, over an array with whatever is in it. -/
def Channel.shellInput (c : Channel) (array : Bytes) : ShellInput where
  maxpacket := c.maxpacket
  pid := c.pid
  fd0 := c.fd0
  localwindow := c.localwindow
  remoteeof := c.remoteeof
  len0 := c.buf0.length
  buf0 := array
  io := []

/-- Without an interpreter no end of file is noted: `channel_exec` does not take one back. -/
def EofUnset (c : Channel) : Prop := c.pid = 0 → c.remoteeof = false

theorem eofUnset_assignments : KeptByAssignments EofUnset where
  user _ h := h
  opened _ _ _ _ _ _ h := h
  started _ _ _ := fun hpid => absurd (show (9999 : ℤ) = 0 from hpid) (by decide)
  input _ _ h := h
  eof hne _ := fun hpid => absurd hpid hne
  closedFd0 h := h
  closedFd1 h := h
  output _ h := h
  gone _ := fun hpid => absurd (show (-1 : ℤ) = 0 from hpid) (by decide)

theorem keeps_eofUnset_closeIfOpen (fd : Channel → ℤ) :
    Keeps (fun s => EofUnset s.channel) (closeIfOpen fd) := by
  have hclosed : ∀ x, Keeps (fun s => EofUnset s.channel) (fdEvent (.closed x)) :=
    fun _ => keeps_modify fun _ hs => hs
  exact (keeps_reads _).bind fun _ => (hclosed _).ite (keeps_pure _)

theorem keeps_eofUnset_call (c : ChannelCall) : Keeps (fun s => EofUnset s.channel) c.prog := by
  have h := eofUnset_assignments
  cases c with
  | init => exact Keeps.bind (keeps_modify fun _ _ _ => rfl) fun _ => keeps_pure _
  | «open» user id remotewindow maxpacket =>
    exact (h.keeps_channelOpen _ _ _ _).bind fun _ => keeps_pure _
  | exec cmd e => exact (h.keeps_channelExec cmd e).bind fun _ => keeps_pure _
  | put buf => exact (h.keeps_channelPut buf).bind fun _ => keeps_pure _
  | puteof => exact h.keeps_channelPuteof.bind fun _ => keeps_pure _
  | read len r => exact (h.keeps_channelRead len r).bind fun _ => keeps_pure _
  | write w => exact (h.keeps_channelWrite w).bind fun _ => keeps_pure _
  | waitnohang => exact h.keeps_channelWaitnohang.bind fun _ => keeps_pure _
  | incrementremotewindow x =>
    exact (h.keeps_channelIncrementremotewindow x).bind fun _ => keeps_pure _
  | purge =>
    refine Keeps.bind ?_ fun _ => keeps_pure _
    refine (keeps_eofUnset_closeIfOpen _).bind fun _ => (keeps_eofUnset_closeIfOpen _).bind
      fun _ => (keeps_eofUnset_closeIfOpen _).bind fun _ => ?_
    exact keeps_modify fun _ _ _ => rfl

theorem eofUnset_channelAfter (before : List EarlierCall) : EofUnset (channelAfter before) := by
  have hrun : ∀ c, EofUnset c →
      EofUnset (before.foldl (fun c e => (exec e.prog ⟨c, []⟩).2.channel) c) := by
    induction before with
    | nil => exact fun c hc => hc
    | cons e before ih =>
      intro c hc
      refine ih _ ?_
      cases e with
      | call call => exact ((keeps_eofUnset_call call).bind fun _ => keeps_pure _) ⟨c, []⟩ hc
      | incrementlocalwindow x =>
        exact eofUnset_assignments.keeps_channelIncrementlocalwindow x ⟨c, []⟩ hc
  exact hrun _ fun _ => rfl

/-- An interpreter starts with an open, empty input. -/
theorem queue_channelExec {before : List EarlierCall} {cmd : Option Bytes} {e : ExecEnv}
    {d : ChannelState} (h : exec (channelExec cmd e) ⟨channelAfter before, []⟩ = (.ok true, d)) :
    0 ≤ d.channel.fd0 ∧ d.channel.buf0 = [] ∧ Queue d.channel.fd0 [] ⟨d.channel, []⟩ := by
  have hio : IgnoresIo fun s => EofUnset s.channel := fun _ _ _ _ hs => hs
  have hrun := (hio.triple_channelExec cmd e).run ⟨channelAfter before, []⟩
    (eofUnset_channelAfter before)
  rw [h] at hrun
  obtain ⟨hfalse, -⟩ | ⟨-, c, fd0, fd1, hunset, hfd0, -, hpid, hchannel⟩ := hrun
  · cases hfalse
  · rw [hchannel]
    refine ⟨hfd0, rfl, .running ⟨rfl, hunset hpid, [], rfl, rfl⟩ ?_⟩
    rintro ⟨hin, -⟩
    cases hin

/-- **The shell's input is a queue, and its descriptor is closed with the last byte.**  For every
interpreter that was started and every sequence of calls behind that: what was written, and the
first `len0` bytes of the array, are what was put, and `len0` is within the array; to the
descriptor nothing was done but these writes, until the end of file was put and the array is
empty, and just then it is closed. -/
theorem shellInput_queue (before : List EarlierCall) (cmd : Option Bytes) (e : ExecEnv)
    (d : ChannelState) (array : Bytes) (calls : List ShellCall) (f : ShellInput)
    (hexec : exec (channelExec cmd e) ⟨channelAfter before, []⟩ = (.ok true, d))
    (harray : array.length = CHANNEL_BUFSIZE)
    (hrun : runTrace ShellInput.step (fun _ c => c.accepted) calls (d.channel.shellInput array) =
      some f) :
    f.len0 ≤ CHANNEL_BUFSIZE ∧ 0 ≤ d.channel.fd0 ∧
      (f.fd0 = if ShellCall.puteof ∈ calls ∧ f.len0 = 0 then -1 else d.channel.fd0) ∧
      ∃ xs : List Bytes,
        xs.flatten ++ f.buf0.take f.len0 = calls.flatMap ShellCall.data ∧
        f.io.reverse = xs.map (FdEvent.wrote d.channel.fd0) ++
          if ShellCall.puteof ∈ calls ∧ f.len0 = 0 then [.closed d.channel.fd0] else [] := by
  obtain ⟨hfd0, hempty, hstart⟩ := queue_channelExec hexec
  have hflat : Flat ⟨d.channel, []⟩ (d.channel.shellInput array) := by
    refine ⟨rfl, rfl, rfl, rfl, rfl, harray, rfl, ?_, ?_, rfl⟩
    · change d.channel.buf0.length ≤ CHANNEL_BUFSIZE
      rw [hempty]
      exact Nat.zero_le _
    · change array.take d.channel.buf0.length = d.channel.buf0
      rw [hempty]
      rfl
  obtain ⟨s, hqueue, hend⟩ := hstart.run calls hflat hrun
  rw [List.nil_append] at hqueue
  refine ⟨hend.len0_le, hfd0, ?_⟩
  have hdone : ∀ {t : ChannelState}, f.len0 = t.channel.buf0.length →
      ((ShellCall.puteof ∈ calls ∧ f.len0 = 0) ↔ InputDone calls t) := by
    intro t ht
    rw [ht, List.length_eq_zero_iff]
    exact Iff.rfl
  rw [hend.take_buf0, hend.fd0, hend.io]
  cases hqueue with
  | running hflows hnot =>
    obtain ⟨xs, hio, hdata⟩ := hflows.data
    rw [if_neg (mt (hdone hend.len0).mp hnot), if_neg (mt (hdone hend.len0).mp hnot)]
    exact ⟨hflows.fd0, xs, hdata, by rw [hio, List.append_nil]⟩
  | @ended t hflows hall =>
    obtain ⟨xs, hio, hdata⟩ := hflows.data
    have hlen : f.len0 = t.channel.buf0.length := hend.len0
    rw [if_pos ((hdone hlen).mpr hall), if_pos ((hdone hlen).mpr hall)]
    refine ⟨rfl, xs, hdata, ?_⟩
    rw [ChannelState.closedFd0, List.reverse_cons, hio, hflows.fd0]

/-- A shell on a channel of its own. -/
def openedBefore : List EarlierCall := [.call .init, .call (.open (ascii "admin") 0 2097152 4096)]

def startedShell : ChannelState :=
  (exec (channelExec none workingSockets) ⟨channelAfter openedBefore, []⟩).2

/-- Two lines in three writes, the end of the input between them. -/
def shellCalls : List ShellCall :=
  [.put (ascii "help\r"), .write (.wrote 2), .put (ascii "exit\r"), .puteof, .write .again,
    .write (.wrote 3), .write (.wrote 9)]

/-- What the shell has behind them. -/
def shellEnd : Option ShellInput :=
  runTrace ShellInput.step (fun _ c => c.accepted) shellCalls
    (startedShell.channel.shellInput (List.replicate CHANNEL_BUFSIZE 0))

/-- The writes bring both lines in order, and the last of them closes the descriptor. -/
theorem shellInput_queue_lines :
    ∃ f, shellEnd = some f ∧ f.fd0 = -1 ∧ ∃ xs : List Bytes,
      xs.flatten = ascii "help\rexit\r" ∧
      f.io.reverse = xs.map (FdEvent.wrote 61) ++ [.closed 61] := by
  have hexec : exec (channelExec none workingSockets) ⟨channelAfter openedBefore, []⟩ =
      (.ok true, startedShell) := Prod.ext (by decide +kernel) rfl
  have hlen : shellEnd.map ShellInput.len0 = some 0 := by decide +kernel
  obtain ⟨f, hf, hzero⟩ := Option.map_eq_some_iff.mp hlen
  obtain ⟨-, -, hfd0, xs, hdata, hio⟩ := shellInput_queue openedBefore none workingSockets
    startedShell (List.replicate CHANNEL_BUFSIZE 0) shellCalls f hexec List.length_replicate hf
  have hin : ShellCall.puteof ∈ shellCalls ∧ f.len0 = 0 := ⟨by decide +kernel, hzero⟩
  have hfd : startedShell.channel.fd0 = 61 := by decide +kernel
  rw [if_pos hin] at hfd0 hio
  rw [hzero, List.take_zero, List.append_nil] at hdata
  rw [hfd] at hio
  exact ⟨f, hf, hfd0, xs, hdata.trans (by decide +kernel), hio⟩

end Glossh.Ssh
