/-
# `buf.c` and `bug.h`: buffers with a fixed allocation

A `struct buf` holds a string in allocated space; every `buf_put*` checks that the string still
fits and ends the session when it does not.  What ends a session is an `Exit`: the macros of
`bug.h` set `errno` and call `global_die(111)`.

The check refuses a string that would fill the space to its last byte: a buffer never holds
more than `alloc - 1` bytes.
-/
import Glossh.Lib.Bytes

namespace Glossh.Ssh

open Bytes

/-- The values of `errno` the code sets. -/
inductive Errno where
  | EPROTO
  | ENOMEM
  | EINVAL
  | ECONNRESET
deriving DecidableEq

/-- What `read` on a descriptor comes to; it takes of the data that is there what it was asked
for. -/
inductive ReadResult where
  | data (x : Bytes)
  | eof
  /-- EINTR, EAGAIN or EWOULDBLOCK. -/
  | again
  | failed
deriving DecidableEq

/-- A read of at most `n` bytes; one that takes no byte returns 0, as at the end. -/
def ReadResult.upTo (n : ℕ) : ReadResult → ReadResult
  | .data x => if x.take n = [] then .eof else .data (x.take n)
  | r => r

theorem ReadResult.upTo_data {n : ℕ} {x : Bytes} (hne : x ≠ []) (hlen : x.length ≤ n) :
    ReadResult.upTo n (.data x) = .data x := by
  rw [ReadResult.upTo, List.take_of_length_le hlen, if_neg hne]

/-- What `write` on a descriptor comes to; it takes no more than it was given. -/
inductive WriteResult where
  | wrote (n : ℕ)
  /-- EINTR, EAGAIN or EWOULDBLOCK. -/
  | again
  | failed
deriving DecidableEq

/-- How a session is ended before its main loop is left. -/
inductive Exit where
  /-- `bug_proto`, `bug_nomem`, `bug_inval`: `global_die(111)` with that `errno`. -/
  | bug (errno : Errno)
  /-- `bug` alone: `global_die(111)` with `errno` as it stands. -/
  | bugAsIs
  /-- `die_fatal`: `global_die(111)` after a message. -/
  | dieFatal (trouble : String)
deriving DecidableEq

/-- `bug_proto`. -/
def bugProto {α : Type} : Except Exit α := .error (.bug .EPROTO)

/-- `bug_nomem`. -/
def bugNomem {α : Type} : Except Exit α := .error (.bug .ENOMEM)

/-- `bug_inval`. -/
def bugInval {α : Type} : Except Exit α := .error (.bug .EINVAL)

/-- `GLOBAL_BSIZE`. -/
def GLOBAL_BSIZE : ℕ := 8192

/-- The bound on lengths and allocations that every function checks. -/
def BUF_MAX : ℕ := 1073741824

/-- A string on the wire, behind its length. -/
def sshString (s : Bytes) : Bytes := beBytes 4 s.length ++ s

@[simp] theorem length_sshString (s : Bytes) : (sshString s).length = 4 + s.length := by
  rw [sshString, List.length_append, length_beBytes]

/-- `struct buf`: the string and the size of the space it lies in. -/
structure Buf where
  data : Bytes
  alloc : ℕ
deriving DecidableEq

namespace Buf

/-- The checks a `buf_*` function makes of its structure. -/
def sane (b : Buf) : Bool :=
  b.data.length ≤ BUF_MAX && 0 < b.alloc && b.alloc ≤ BUF_MAX

/-- `buf_purge`. -/
def purge (b : Buf) : Except Exit Buf :=
  if b.sane then .ok { b with data := [] } else bugInval

/-- `buf_ready`. -/
def ready (b : Buf) (len : ℕ) : Except Exit Bool :=
  if b.sane && len ≤ BUF_MAX then .ok (b.data.length + len < b.alloc) else bugInval

/-- `buf_put`. -/
def put (b : Buf) (x : Bytes) : Except Exit Buf :=
  if b.sane && x.length ≤ BUF_MAX then
    if b.alloc ≤ b.data.length + x.length then bugNomem
    else .ok { b with data := b.data ++ x }
  else bugInval

/-- `buf_putzerobytes`, and `buf_putpadding`, which puts zero bytes too. -/
def putZerobytes (b : Buf) (len : ℕ) : Except Exit Buf := b.put (List.replicate len 0)

/-- `buf_putnum32`. -/
def putNum32 (b : Buf) (x : UInt32) : Except Exit Buf := b.put (beBytes 4 x.toNat)

/-- `buf_putnum8`. -/
def putNum8 (b : Buf) (u : UInt8) : Except Exit Buf := b.put [u]

/-- `buf_putstringlen`. -/
def putStringLen (b : Buf) (x : Bytes) : Except Exit Buf := do
  let b ← b.putNum32 (UInt32.ofNat x.length)
  b.put x

/-- A buffer as `buf_init` and the code's own calls leave it. -/
structure Ok (b : Buf) : Prop where
  room : b.data.length < b.alloc
  alloc_le : b.alloc ≤ BUF_MAX

namespace Ok

variable {b : Buf}

theorem sane (h : b.Ok) : b.sane = true := by
  have hroom := h.room
  have halloc := h.alloc_le
  simp only [Buf.sane, Bool.and_eq_true, decide_eq_true_eq]
  omega

theorem purge (h : b.Ok) : b.purge = .ok { b with data := [] } := by
  rw [Buf.purge, if_pos h.sane]

/-- A string that fits is appended. -/
theorem put (h : b.Ok) {x : Bytes} (hx : b.data.length + x.length < b.alloc) :
    b.put x = .ok { b with data := b.data ++ x } := by
  have halloc := h.alloc_le
  have hlen : x.length ≤ BUF_MAX := by omega
  rw [Buf.put, if_pos (by rw [h.sane, decide_eq_true hlen]; rfl), if_neg (by omega)]

/-- A string that does not fit ends the session. -/
theorem put_error (h : b.Ok) {x : Bytes} (hmax : x.length ≤ BUF_MAX)
    (hx : b.alloc ≤ b.data.length + x.length) : b.put x = bugNomem := by
  rw [Buf.put, if_pos (by rw [h.sane, decide_eq_true hmax]; rfl), if_pos hx]

/-- **What `buf_put` does.** -/
theorem put_eq (h : b.Ok) {x : Bytes} (hmax : x.length ≤ BUF_MAX) :
    b.put x = if b.data.length + x.length < b.alloc then .ok { b with data := b.data ++ x }
      else bugNomem := by
  split
  · rename_i hroom
    exact h.put hroom
  · rename_i hfull
    exact h.put_error hmax (Nat.le_of_not_lt hfull)

/-- A put and what follows it. -/
theorem put_bind {β : Type} (h : b.Ok) {x : Bytes} (hmax : x.length ≤ BUF_MAX)
    (f : Buf → Except Exit β) :
    (b.put x >>= f) = if b.data.length + x.length < b.alloc then f { b with data := b.data ++ x }
      else bugNomem := by
  rw [h.put_eq hmax]
  split
  · rfl
  · rfl

/-- A buffer in which something more was put. -/
theorem append (h : b.Ok) {x : Bytes} (hx : b.data.length + x.length < b.alloc) :
    Ok { b with data := b.data ++ x } :=
  ⟨by rw [List.length_append]; exact hx, h.alloc_le⟩

/-- **Two puts are one**: if the first finds no room, neither do both. -/
theorem put_put_bind {β : Type} (h : b.Ok) {x y : Bytes} (hmax : (x ++ y).length ≤ BUF_MAX)
    (f : Buf → Except Exit β) :
    (b.put x >>= fun c => c.put y >>= f) = b.put (x ++ y) >>= f := by
  rw [List.length_append] at hmax
  rw [h.put_bind (by omega), h.put_bind (by rw [List.length_append]; exact hmax)]
  by_cases hx : b.data.length + x.length < b.alloc
  · rw [if_pos hx, (h.append hx).put_bind (by omega), List.append_assoc, List.length_append,
      List.length_append, Nat.add_assoc]
  · rw [if_neg hx, if_neg]
    rw [List.length_append]
    omega

end Ok

/-- A sequence of calls that appends `x` where there is room for it. -/
def Appends (f : Buf → Except Exit Buf) (x : Bytes) : Prop :=
  ∀ b : Buf, b.Ok → b.data.length + x.length < b.alloc →
    f b = .ok { b with data := b.data ++ x }

/-- One sequence of calls after another. -/
theorem Appends.bind {f g : Buf → Except Exit Buf} {x y : Bytes} (hf : Appends f x)
    (hg : Appends g y) : Appends (fun b => f b >>= g) (x ++ y) := by
  intro b hb hroom
  rw [List.length_append] at hroom
  have hfirst := hf b hb (by omega)
  have hok : Ok { b with data := b.data ++ x } :=
    ⟨by simp only [List.length_append]; omega, hb.alloc_le⟩
  have hsecond := hg _ hok (by simp only [List.length_append]; omega)
  simp only [hfirst]
  change g { b with data := b.data ++ x } = _
  rw [hsecond, List.append_assoc]

/-- What can be said of `buf_put` and goes along with sequences of calls. -/
structure Composes (R : (Buf → Except Exit Buf) → Bytes → Prop) : Prop where
  put (x : Bytes) : R (fun b => b.put x) x
  nil : R (fun b => .ok b) []
  bind {f g : Buf → Except Exit Buf} {x y : Bytes} :
    R f x → R g y → R (fun b => f b >>= g) (x ++ y)

section

variable {R : (Buf → Except Exit Buf) → Bytes → Prop} (h : Composes R)
include h

theorem Composes.putNum8 (u : UInt8) : R (fun b => b.putNum8 u) [u] := h.put [u]

theorem Composes.putNum32 (x : UInt32) : R (fun b => b.putNum32 x) (beBytes 4 x.toNat) := h.put _

/-- A length put as 32-bit number. -/
theorem Composes.putLength (n : ℕ) : R (fun b => b.putNum32 (UInt32.ofNat n)) (beBytes 4 n) := by
  have hmod : beBytes 4 (UInt32.ofNat n).toNat = beBytes 4 n := by
    rw [UInt32.toNat_ofNat', beBytes, beBytes]
    exact congrArg List.reverse (leBytes_mod 4 n)
  exact hmod ▸ h.putNum32 (UInt32.ofNat n)

theorem Composes.putStringLen (x : Bytes) : R (fun b => b.putStringLen x) (sshString x) :=
  h.bind (h.putLength x.length) (h.put x)

end

theorem appends : Composes Appends where
  put _ := fun _ h hx => h.put hx
  nil := by
    intro b _ _
    rw [List.append_nil]
  bind := Appends.bind

/-- What was put fits. -/
theorem put_ok {b b' : Buf} {x : Bytes} (h : b.put x = .ok b') :
    b' = { b with data := b.data ++ x } ∧ b.data.length + x.length < b.alloc := by
  unfold put at h
  split at h
  · split at h
    · cases h
    · rename_i hroom
      exact ⟨(Except.ok.inj h).symm, by omega⟩
  · cases h

end Buf
end Glossh.Ssh
