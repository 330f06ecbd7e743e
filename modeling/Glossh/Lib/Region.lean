/-
# A region of memory worked on by offset

What C code does to an array it addresses by offset and length: read, zero, mask by a keystream,
and copy forward within the array, one byte after the other.  Beside its bytes a region carries
the spans that were touched, so that a development can ask afterwards whether every access
stayed where it belongs.

The rules describe a region through the parts its bytes are put together from: an operation
whose offset is the length of the parts before it acts on the part at that offset.
-/
import Glossh.Lib.Bytes

namespace Glossh
namespace Bytes

/-! ## 1. Slices and forward copies -/

/-- The `n` bytes from offset `off` on. -/
def slice (m : Bytes) (off n : ℕ) : Bytes := (m.drop off).take n

/-- The slice that is a known part. -/
theorem slice_append {a b c : Bytes} {off n : ℕ} (ha : a.length = off) (hb : b.length = n) :
    slice (a ++ b ++ c) off n = b := by
  rw [slice, List.append_assoc, List.drop_left' ha, List.take_left' hb]

theorem length_slice {m : Bytes} {off n : ℕ} (h : off + n ≤ m.length) :
    (slice m off n).length = n := by
  rw [slice, List.length_take, List.length_drop]
  omega

/-- A string cut into what stands before a slice, the slice, and what stands after it. -/
theorem eq_append_slice (m : Bytes) (off n : ℕ) :
    m = m.take off ++ slice m off n ++ m.drop (off + n) := by
  rw [slice, List.append_assoc, ← List.drop_drop, List.take_append_drop, List.take_append_drop]

/-- `n` bytes copied from `src` to `dst`, one after the other, within one string. -/
def copyForward : ℕ → ℕ → ℕ → Bytes → Bytes
  | 0, _, _, m => m
  | n + 1, dst, src, m => copyForward n (dst + 1) (src + 1) (m.set dst (m.getD src 0))

@[simp] theorem length_copyForward (n dst src : ℕ) (m : Bytes) :
    (copyForward n dst src m).length = m.length := by
  induction n generalizing dst src m with
  | zero => rfl
  | succ n ih => rw [copyForward, ih, List.length_set]

/-- **Copying forward to a lower offset moves the slice**: no byte is read after it was written.
Byte `i` of the result, for every `i`. -/
theorem getElem?_copyForward {n dst src : ℕ} {m : Bytes} (hds : dst ≤ src)
    (hfit : src + n ≤ m.length) (i : ℕ) :
    (copyForward n dst src m)[i]? =
      if dst ≤ i ∧ i < dst + n then m[src + (i - dst)]? else m[i]? := by
  induction n generalizing dst src m with
  | zero => rw [copyForward, if_neg (by omega)]
  | succ n ih =>
    have hsrc : src < m.length := by omega
    have hget : m.getD src 0 = m[src] := by simp [hsrc]
    rw [copyForward, ih (by omega) (by rw [List.length_set]; omega), hget]
    by_cases hi : i = dst
    · subst hi
      rw [if_neg (by omega), if_pos (by omega), List.getElem?_set_self (by omega), Nat.sub_self,
        Nat.add_zero, List.getElem?_eq_getElem hsrc]
    · by_cases hin : dst + 1 ≤ i ∧ i < dst + 1 + n
      · rw [if_pos hin, if_pos (by omega), List.getElem?_set_ne (by omega)]
        congr 1
        omega
      · rw [if_neg hin, if_neg (by omega), List.getElem?_set_ne (by omega)]

/-- The slice a forward copy to a lower offset leaves at its destination. -/
theorem slice_copyForward {n dst src : ℕ} {m : Bytes} (hds : dst ≤ src)
    (hfit : src + n ≤ m.length) : slice (copyForward n dst src m) dst n = slice m src n := by
  refine List.ext_getElem? fun i => ?_
  rw [slice, slice, List.getElem?_take, List.getElem?_take, List.getElem?_drop, List.getElem?_drop,
    getElem?_copyForward hds hfit]
  by_cases hi : i < n
  · rw [if_pos hi, if_pos hi, if_pos (by omega)]
    congr 1
    omega
  · rw [if_neg hi, if_neg hi]

/-- The bytes in front of its destination stay in front of the slice it moved. -/
theorem take_copyForward {n dst src : ℕ} {m : Bytes} (hds : dst ≤ src)
    (hfit : src + n ≤ m.length) :
    (copyForward n dst src m).take (dst + n) = m.take dst ++ slice m src n := by
  have hdst : (m.take dst).length = dst := by
    rw [List.length_take]
    omega
  refine List.ext_getElem? fun i => ?_
  rw [List.getElem?_take, getElem?_copyForward hds hfit, List.getElem?_append, hdst, slice,
    List.getElem?_take, List.getElem?_take, List.getElem?_drop]
  by_cases hi : i < dst
  · rw [if_pos (by omega), if_neg (by omega), if_pos hi, if_pos hi]
  · by_cases hn : i < dst + n
    · rw [if_pos hn, if_pos (by omega), if_neg hi, if_pos (by omega)]
    · rw [if_neg hn, if_neg hi, if_neg (by omega)]

/-- A slice of a slice. -/
theorem slice_slice (m : Bytes) {off n n' : ℕ} (h : n' ≤ n) :
    (slice m off n).take n' = slice m off n' := by
  rw [slice, slice, List.take_take, Nat.min_eq_left h]

/-- **Byte `i` of a string part of which was overwritten.** -/
theorem getElem?_overwrite {m src : Bytes} {off : ℕ} (h : off + src.length ≤ m.length) (i : ℕ) :
    (overwrite m off src)[i]? =
      if off ≤ i ∧ i < off + src.length then src[i - off]? else m[i]? := by
  have htake : (m.take off).length = off := by
    rw [List.length_take]
    omega
  rw [overwrite, List.getElem?_append, List.length_append, htake, List.getElem?_append, htake]
  by_cases hlow : i < off
  · rw [if_pos (by omega), if_pos hlow, if_neg (by omega), List.getElem?_take, if_pos hlow]
  · by_cases hin : i < off + src.length
    · rw [if_pos hin, if_neg hlow, if_pos (by omega)]
    · rw [if_neg hin, if_neg (by omega), List.getElem?_drop]
      congr 1
      omega

/-- Byte `i` of a string part of which was zeroed. -/
theorem getElem?_overwrite_zero {m : Bytes} {off n : ℕ} (h : off + n ≤ m.length) (i : ℕ) :
    (overwrite m off (List.replicate n 0))[i]? =
      if off ≤ i ∧ i < off + n then some 0 else m[i]? := by
  rw [getElem?_overwrite (by rw [List.length_replicate]; exact h), List.length_replicate]
  by_cases hin : off ≤ i ∧ i < off + n
  · rw [if_pos hin, if_pos hin, List.getElem?_replicate, if_pos (by omega)]
  · rw [if_neg hin, if_neg hin]

/-- A slice that ends before the bytes that were overwritten. -/
theorem slice_overwrite_before {m src : Bytes} {off n at' : ℕ} (h : off + n ≤ at')
    (hm : at' ≤ m.length) : slice (overwrite m at' src) off n = slice m off n := by
  refine List.ext_getElem? fun i => ?_
  rw [slice, slice, List.getElem?_take, List.getElem?_take]
  by_cases hi : i < n
  · rw [if_pos hi, if_pos hi, List.getElem?_drop, List.getElem?_drop, overwrite, List.append_assoc,
      List.getElem?_append_left (by rw [List.length_take]; omega), List.getElem?_take,
      if_pos (by omega)]
  · rw [if_neg hi, if_neg hi]

/-- A slice that begins after the bytes that were overwritten. -/
theorem slice_overwrite_after {m src : Bytes} {off n at' : ℕ} (h : at' + src.length ≤ off)
    (hm : at' + src.length ≤ m.length) : slice (overwrite m at' src) off n = slice m off n := by
  have hdrop : (overwrite m at' src).drop off = m.drop off := by
    obtain ⟨k, rfl⟩ := Nat.exists_eq_add_of_le h
    have hlen : (m.take at' ++ src).length = at' + src.length := by
      rw [List.length_append, List.length_take]
      omega
    rw [overwrite, ← List.drop_drop, List.drop_left' hlen, List.drop_drop]
  rw [slice, hdrop, slice]

end Bytes

/-! ## 2. Regions -/

/-- An array, and the spans `(offset, length)` of it that were read or written so far. -/
structure Region where
  bytes : Bytes
  touched : List (ℕ × ℕ)

namespace Region

open Bytes

/-- A fresh region. -/
def ofBytes (bytes : Bytes) : Region := ⟨bytes, []⟩

/-- The `n` bytes at `off`. -/
def get (m : Region) (off n : ℕ) : Bytes := slice m.bytes off n

/-- The region after a read of `n` bytes at `off`. -/
def read (m : Region) (off n : ℕ) : Region := { m with touched := (off, n) :: m.touched }

/-- The region after `src` was written at `off`. -/
def write (m : Region) (off : ℕ) (src : Bytes) : Region :=
  { bytes := overwrite m.bytes off src, touched := (off, src.length) :: m.touched }

/-- `n` zero bytes at `off`. -/
def zero (m : Region) (off n : ℕ) : Region := m.write off (List.replicate n 0)

/-- The `n` bytes at `off` masked in place by the keystream `ks`. -/
def xor (m : Region) (off n : ℕ) (ks : ℕ → UInt8) : Region :=
  (m.read off n).write off (xorWith ks (m.get off n))

/-- `n` bytes copied forward from `src` to `dst`. -/
def copy (m : Region) (dst n src : ℕ) : Region :=
  { bytes := copyForward n dst src m.bytes, touched := (dst, n) :: (src, n) :: m.touched }

@[simp] theorem bytes_ofBytes (l : Bytes) : (ofBytes l).bytes = l := rfl

@[simp] theorem bytes_write (m : Region) (off : ℕ) (src : Bytes) :
    (m.write off src).bytes = overwrite m.bytes off src := rfl

@[simp] theorem bytes_zero (m : Region) (off n : ℕ) :
    (m.zero off n).bytes = overwrite m.bytes off (List.replicate n 0) := rfl

@[simp] theorem bytes_xor (m : Region) (off n : ℕ) (ks : ℕ → UInt8) :
    (m.xor off n ks).bytes = overwrite m.bytes off (xorWith ks (slice m.bytes off n)) := rfl

@[simp] theorem bytes_copy (m : Region) (dst n src : ℕ) :
    (m.copy dst n src).bytes = copyForward n dst src m.bytes := rfl

/-- Zeroing inside a region keeps its length. -/
theorem length_zero {m : Region} {a n : ℕ} (h : a + n ≤ m.bytes.length) :
    (m.zero a n).bytes.length = m.bytes.length := by
  rw [bytes_zero, length_overwrite (by rw [List.length_replicate]; exact h)]

/-- Masking from inside a region on keeps its length. -/
theorem length_xor {m : Region} {off : ℕ} (n : ℕ) (ks : ℕ → UInt8) (h : off ≤ m.bytes.length) :
    (m.xor off n ks).bytes.length = m.bytes.length := by
  have hspan : (slice m.bytes off n).length ≤ m.bytes.length - off := by
    rw [slice, List.length_take, List.length_drop]
    omega
  rw [bytes_xor, length_overwrite (by rw [length_xorWith]; omega)]

/-- Zeroing a known part. -/
theorem zero_append {m : Region} {a b c : Bytes} {off n : ℕ} (hm : m.bytes = a ++ b ++ c)
    (ha : a.length = off) (hb : b.length = n) :
    (m.zero off n).bytes = a ++ List.replicate n 0 ++ c := by
  rw [bytes_zero, hm, overwrite_append ha (by rw [hb, List.length_replicate])]

/-- Masking a known part. -/
theorem xor_append {m : Region} {a b c : Bytes} {off n : ℕ} (ks : ℕ → UInt8)
    (hm : m.bytes = a ++ b ++ c) (ha : a.length = off) (hb : b.length = n) :
    (m.xor off n ks).bytes = a ++ xorWith ks b ++ c := by
  rw [bytes_xor, hm, slice_append ha hb, overwrite_append ha (by rw [length_xorWith])]

/-- Reading a known part. -/
theorem get_append {m : Region} {a b c : Bytes} {off n : ℕ} (hm : m.bytes = a ++ b ++ c)
    (ha : a.length = off) (hb : b.length = n) : m.get off n = b := by
  rw [get, hm, slice_append ha hb]

end Region
end Glossh
