/-
# `packetparser.c` and `stringparser.c`

The functions that take a packet apart know the packet and the position in it; reading past its
end ends the session.  `stringparser` takes the items of a comma-separated list and skips empty
ones.
-/
import Glossh.Ssh.Buf

namespace Glossh.Ssh

open Bytes

/-! ## 1. Packets -/

/-- The first check of every `packetparser_*`. -/
def parserSane (buf : Bytes) (pos : ℕ) : Bool := buf.length ≤ BUF_MAX && pos ≤ BUF_MAX

/-- `packetparser_uint8`: the byte and the position behind it. -/
def packetparserUint8 (buf : Bytes) (pos : ℕ) : Except Exit (UInt8 × ℕ) :=
  if parserSane buf pos then
    if pos + 1 > buf.length then bugProto else .ok (buf.getD pos 0, pos + 1)
  else bugInval

/-- `packetparser_uint32`. -/
def packetparserUint32 (buf : Bytes) (pos : ℕ) : Except Exit (UInt32 × ℕ) :=
  if parserSane buf pos then
    if pos + 4 > buf.length then bugProto
    else .ok (UInt32.ofNat (ofBe ((buf.drop pos).take 4)), pos + 4)
  else bugInval

/-- `packetparser_skip`. -/
def packetparserSkip (buf : Bytes) (pos skip : ℕ) : Except Exit ℕ :=
  if parserSane buf pos && skip ≤ BUF_MAX then
    if pos + skip > buf.length then bugProto else .ok (pos + skip)
  else bugInval

/-- `packetparser_end`. -/
def packetparserEnd (buf : Bytes) (pos : ℕ) : Except Exit ℕ :=
  if parserSane buf pos then
    if pos ≠ buf.length then bugProto else .ok pos
  else bugInval

/-- A string: its length, and the position behind it. -/
def packetparserString (buf : Bytes) (pos : ℕ) : Except Exit (ℕ × ℕ) := do
  let (len, pos) ← packetparserUint32 buf pos
  let pos ← packetparserSkip buf pos len.toNat
  return (len.toNat, pos)

theorem packetparserUint8_ok {buf : Bytes} {pos : ℕ} {r : UInt8 × ℕ}
    (h : packetparserUint8 buf pos = .ok r) : r.2 = pos + 1 := by
  unfold packetparserUint8 at h
  split at h
  · split at h
    · cases h
    · cases h
      rfl
  · cases h

theorem packetparserUint32_ok {buf : Bytes} {pos : ℕ} {r : UInt32 × ℕ}
    (h : packetparserUint32 buf pos = .ok r) : r.2 = pos + 4 := by
  unfold packetparserUint32 at h
  split at h
  · split at h
    · cases h
    · cases h
      rfl
  · cases h

/-! ## 2. Lists of names -/

/-- The character `,`. -/
def comma : UInt8 := 0x2c

/-- `stringparser` on what stands from `pos` on: the next item that is not empty, and what stands
behind the comma after it. -/
def stringparser : Bytes → Option (Bytes × Bytes)
  | [] => none
  | b :: l =>
    if b = comma then stringparser l
    else some (b :: l.takeWhile (· ≠ comma), (l.dropWhile (· ≠ comma)).tail)

/-- Every item takes at least its first byte. -/
theorem stringparser_length {l x rest : Bytes} (h : stringparser l = some (x, rest)) :
    rest.length < l.length := by
  induction l with
  | nil => cases h
  | cons b l ih =>
    rw [stringparser] at h
    split at h
    · exact Nat.lt_succ_of_lt (ih h)
    · obtain ⟨-, rfl⟩ := Prod.mk.inj (Option.some.inj h)
      have hdrop : (l.dropWhile (· ≠ comma)).length ≤ l.length := List.length_dropWhile_le _ _
      rw [List.length_tail, List.length_cons]
      omega

/-- The items that the calls of `stringparser` in a loop yield. -/
def stringparserItems (l : Bytes) : List Bytes :=
  match _h : stringparser l with
  | none => []
  | some (x, rest) => x :: stringparserItems rest
termination_by l.length
decreasing_by exact stringparser_length _h

end Glossh.Ssh
