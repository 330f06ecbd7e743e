/-
# Byte strings: numbers on the wire, padding, buffers and stream ciphers

What the protocol layers of this development say about byte strings, with nothing in it that
belongs to one protocol:

* numbers in a fixed count of bytes, low byte first (`leBytes`) and high byte first
  (`beBytes`), and that a number below `256 ^ k` is determined by its `k` bytes;
* `padLen`, the zero padding up to a multiple of a block size;
* `overwrite`, what a copy into the middle of a buffer leaves there;
* `xorWith`, a byte string masked by a keystream: it is its own inverse, keeps the length, and
  is computed piece by piece with the keystream advanced (`xorWith_append`).
-/
import Mathlib.Data.List.Basic
import Mathlib.Data.List.GetD
import Mathlib.Data.List.TakeWhile
import Mathlib.Tactic.Ring

namespace Glossh

/-- A byte string of any length. -/
abbrev Bytes := List UInt8

namespace Bytes

/-! ## 1. Numbers in a fixed count of bytes -/

/-- The `k` low bytes of a number, low byte first. -/
def leBytes : ℕ → ℕ → Bytes
  | 0, _ => []
  | k + 1, n => UInt8.ofNat n :: leBytes k (n / 256)

/-- The `k` low bytes of a number, high byte first. -/
def beBytes (k n : ℕ) : Bytes := (leBytes k n).reverse

/-- The number a byte string spells, low byte first. -/
def ofLe : Bytes → ℕ
  | [] => 0
  | b :: l => b.toNat + 256 * ofLe l

/-- The number a byte string spells, high byte first. -/
def ofBe (l : Bytes) : ℕ := ofLe l.reverse

@[simp] theorem length_leBytes (k n : ℕ) : (leBytes k n).length = k := by
  induction k generalizing n with
  | zero => rfl
  | succ k ih => simp [leBytes, ih]

@[simp] theorem length_beBytes (k n : ℕ) : (beBytes k n).length = k := by
  simp [beBytes]

/-- Byte `i`, low byte first. -/
theorem getElem_leBytes (k n i : ℕ) (h : i < (leBytes k n).length) :
    (leBytes k n)[i] = UInt8.ofNat (n / 256 ^ i) := by
  induction k generalizing n i with
  | zero => simp at h
  | succ k ih =>
    cases i with
    | zero => simp [leBytes]
    | succ i =>
      simp only [leBytes, List.getElem_cons_succ]
      rw [ih, Nat.div_div_eq_div_mul, pow_succ']

/-- Byte `i`, high byte first. -/
theorem getElem_beBytes (k n i : ℕ) (h : i < (beBytes k n).length) :
    (beBytes k n)[i] = UInt8.ofNat (n / 256 ^ (k - 1 - i)) := by
  simp only [beBytes, List.getElem_reverse, getElem_leBytes, length_leBytes]

/-- Reading back what was written keeps the number modulo `256 ^ k`. -/
theorem ofLe_leBytes (k n : ℕ) : ofLe (leBytes k n) = n % 256 ^ k := by
  induction k generalizing n with
  | zero => simp [leBytes, ofLe, Nat.mod_one]
  | succ k ih =>
    have h : (UInt8.ofNat n).toNat = n % 256 := by simp
    rw [leBytes, ofLe, ih, h, pow_succ, Nat.mul_comm (256 ^ k) 256, Nat.mod_mul]

/-- Only the number modulo `256 ^ k` is written. -/
theorem leBytes_mod (k n : ℕ) : leBytes k (n % 256 ^ k) = leBytes k n := by
  induction k generalizing n with
  | zero => rfl
  | succ k ih =>
    have hdvd : 256 ∣ 256 ^ (k + 1) := dvd_pow_self 256 (Nat.succ_ne_zero k)
    have hlow : UInt8.ofNat (n % 256 ^ (k + 1)) = UInt8.ofNat n := by
      apply UInt8.toNat_inj.mp
      simp only [UInt8.toNat_ofNat', Nat.reducePow]
      exact Nat.mod_mod_of_dvd n hdvd
    have hhigh : n % 256 ^ (k + 1) / 256 = n / 256 % 256 ^ k := by
      rw [pow_succ, Nat.mul_comm, Nat.mod_mul_right_div_self]
    rw [leBytes, leBytes, hlow, hhigh, ih]

/-- Writing what was read gives the same bytes. -/
theorem leBytes_ofLe (l : Bytes) : leBytes l.length (ofLe l) = l := by
  induction l with
  | nil => rfl
  | cons b l ih =>
    have hlt : b.toNat < 256 := b.toNat_lt
    have hlow : UInt8.ofNat (b.toNat + 256 * ofLe l) = b := by
      apply UInt8.toNat_inj.mp
      simp only [UInt8.toNat_ofNat', Nat.reducePow]
      omega
    have hhigh : (b.toNat + 256 * ofLe l) / 256 = ofLe l := by omega
    rw [List.length_cons, ofLe, leBytes, hlow, hhigh, ih]

theorem ofLe_append (l m : Bytes) : ofLe (l ++ m) = ofLe l + 256 ^ l.length * ofLe m := by
  induction l with
  | nil => simp [ofLe]
  | cons b l ih =>
    rw [List.cons_append, ofLe, ofLe, ih, List.length_cons, pow_succ]
    ring

theorem ofLe_lt (l : Bytes) : ofLe l < 256 ^ l.length := by
  induction l with
  | nil => simp [ofLe]
  | cons b l ih =>
    have hb : b.toNat < 256 := b.toNat_lt
    rw [ofLe, List.length_cons, pow_succ]
    omega

@[simp] theorem ofLe_replicate_zero (n : ℕ) : ofLe (List.replicate n 0) = 0 := by
  induction n with
  | zero => rfl
  | succ n ih => rw [List.replicate_succ, ofLe, ih]; rfl

/-- Reading on behind the first `k` bytes drops the low digits. -/
theorem ofLe_drop (l : Bytes) (k : ℕ) : ofLe (l.drop k) = ofLe l / 256 ^ k := by
  induction k generalizing l with
  | zero => simp
  | succ k ih =>
    cases l with
    | nil => simp [ofLe]
    | cons b l =>
      have hb : b.toNat < 256 := b.toNat_lt
      rw [List.drop_succ_cons, ih, pow_succ', ← Nat.div_div_eq_div_mul, ofLe]
      congr 1
      omega

/-- The first `k` bytes are the low digits. -/
theorem ofLe_take (l : Bytes) (k : ℕ) : ofLe (l.take k) = ofLe l % 256 ^ k := by
  rcases Nat.lt_or_ge l.length k with h | h
  · have hlt := ofLe_lt l
    have hpow : 256 ^ l.length ≤ 256 ^ k := Nat.pow_le_pow_right (by decide) h.le
    rw [List.take_of_length_le h.le, Nat.mod_eq_of_lt (lt_of_lt_of_le hlt hpow)]
  · have hsplit := ofLe_append (l.take k) (l.drop k)
    have hlt := ofLe_lt (l.take k)
    rw [List.take_append_drop, List.length_take, Nat.min_eq_left h] at hsplit
    rw [List.length_take, Nat.min_eq_left h] at hlt
    rw [hsplit, Nat.add_mul_mod_self_left, Nat.mod_eq_of_lt hlt]

/-- Numbers are stored digit by digit. -/
theorem leBytes_append {j x : ℕ} (hx : x < 256 ^ j) (k y : ℕ) :
    leBytes j x ++ leBytes k y = leBytes (j + k) (x + 256 ^ j * y) := by
  induction j generalizing x with
  | zero =>
    have h0 : x = 0 := by omega
    simp [leBytes, h0]
  | succ j ih =>
    have hpow : 256 ^ (j + 1) = 256 * 256 ^ j := pow_succ' 256 j
    have hdiv : (x + 256 ^ (j + 1) * y) / 256 = x / 256 + 256 ^ j * y := by
      rw [hpow, Nat.mul_assoc]
      omega
    have hlow : UInt8.ofNat (x + 256 ^ (j + 1) * y) = UInt8.ofNat x := by
      apply UInt8.toNat_inj.mp
      rw [UInt8.toNat_ofNat', UInt8.toNat_ofNat', hpow, Nat.mul_assoc]
      omega
    rw [Nat.add_right_comm, leBytes, leBytes, List.cons_append, ih (by omega), hdiv, hlow]

theorem ofBe_append_singleton (l : Bytes) (b : UInt8) :
    ofBe (l ++ [b]) = 256 * ofBe l + b.toNat := by
  rw [ofBe, List.reverse_append, List.reverse_singleton, List.singleton_append, ofLe, ofBe,
    Nat.add_comm]

theorem beBytes_succ (k n : ℕ) : beBytes (k + 1) n = beBytes k (n / 256) ++ [UInt8.ofNat n] := by
  rw [beBytes, leBytes, List.reverse_cons, beBytes]

theorem ofBe_beBytes (k n : ℕ) : ofBe (beBytes k n) = n % 256 ^ k := by
  rw [ofBe, beBytes, List.reverse_reverse, ofLe_leBytes]

/-- A number below `256 ^ k` is determined by its `k` bytes. -/
theorem leBytes_inj {k m n : ℕ} (hm : m < 256 ^ k) (hn : n < 256 ^ k)
    (h : leBytes k m = leBytes k n) : m = n := by
  have h' := congrArg ofLe h
  rwa [ofLe_leBytes, ofLe_leBytes, Nat.mod_eq_of_lt hm, Nat.mod_eq_of_lt hn] at h'

theorem beBytes_inj {k m n : ℕ} (hm : m < 256 ^ k) (hn : n < 256 ^ k)
    (h : beBytes k m = beBytes k n) : m = n :=
  leBytes_inj hm hn (List.reverse_injective h)

/-- A 16-bit number stored high byte first with a shift and a mask. -/
theorem shift_mask_eq_beBytes (n : ℕ) :
    [UInt8.ofNat (n >>> 8), UInt8.ofNat (n &&& 0xff)] = beBytes 2 n := by
  have hlow : UInt8.ofNat (n &&& 0xff) = UInt8.ofNat n := by
    apply UInt8.toNat_inj.mp
    simp only [UInt8.toNat_ofNat', show (0xff : ℕ) = 2 ^ 8 - 1 from rfl,
      Nat.and_two_pow_sub_one_eq_mod, Nat.mod_mod]
  rw [hlow, Nat.shiftRight_eq_div_pow]
  rfl

/-! ## 2. Padding to a block -/

/-- How many bytes bring a length `n` up to a multiple of `b`. -/
def padLen (b n : ℕ) : ℕ := (b - n % b) % b

/-- The run of zero bytes that pads a length `n` to a multiple of `b`. -/
def zeroPad (b n : ℕ) : Bytes := List.replicate (padLen b n) 0

@[simp] theorem length_zeroPad (b n : ℕ) : (zeroPad b n).length = padLen b n := by
  simp [zeroPad]

/-! ## 3. Copies into a buffer -/

/-- The buffer `m` after `src` was copied to offset `off`. -/
def overwrite (m : Bytes) (off : ℕ) (src : Bytes) : Bytes :=
  m.take off ++ src ++ m.drop (off + src.length)

theorem length_overwrite {m : Bytes} {off : ℕ} {src : Bytes} (h : off + src.length ≤ m.length) :
    (overwrite m off src).length = m.length := by
  simp only [overwrite, List.length_append, List.length_take, List.length_drop]
  omega

/-- What stands in front of the end of a copy. -/
theorem take_overwrite {m : Bytes} {off : ℕ} {src : Bytes} (h : off + src.length ≤ m.length) :
    (overwrite m off src).take (off + src.length) = m.take off ++ src := by
  have hlen : (m.take off ++ src).length = off + src.length := by
    rw [List.length_append, List.length_take]
    omega
  rw [overwrite, List.take_left' hlen]

/-- A copy of nothing changes nothing. -/
@[simp] theorem overwrite_nil (m : Bytes) (off : ℕ) : overwrite m off [] = m := by
  simp [overwrite]

/-- A copy that fills the gap between two known parts. -/
theorem overwrite_append {a g b : Bytes} {off : ℕ} {src : Bytes} (ha : a.length = off)
    (hg : g.length = src.length) : overwrite (a ++ g ++ b) off src = a ++ src ++ b := by
  unfold overwrite
  have h1 : (a ++ g ++ b).take off = a := by
    rw [List.append_assoc, List.take_left' ha]
  have h2 : (a ++ g ++ b).drop (off + src.length) = b :=
    List.drop_left' (by rw [List.length_append, ha, hg])
  rw [h1, h2]

/-- A guard `if (len)` around a copy changes nothing. -/
theorem ite_length_overwrite (m : Bytes) (off : ℕ) (src : Bytes) :
    (if src.length ≠ 0 then overwrite m off src else m) = overwrite m off src := by
  split
  · rfl
  · rename_i h
    have hnil : src = [] := List.length_eq_zero_iff.mp (not_not.mp h)
    rw [hnil, overwrite_nil]

/-- What a bounds-checked read of `len` bytes at `off` yields. -/
def slice? (m : Bytes) (off len : ℕ) : Option Bytes :=
  if off + len ≤ m.length then some ((m.drop off).take len) else none

theorem slice?_of_le {m : Bytes} {off len : ℕ} (h : off + len ≤ m.length) :
    slice? m off len = some ((m.drop off).take len) := if_pos h

/-- What a bounds-checked copy of `src` to offset `off` leaves. -/
def store? (m : Bytes) (off : ℕ) (src : Bytes) : Option Bytes :=
  if off + src.length ≤ m.length then some (overwrite m off src) else none

theorem store?_of_le {m : Bytes} {off : ℕ} {src : Bytes} (h : off + src.length ≤ m.length) :
    store? m off src = some (overwrite m off src) := if_pos h

theorem length_store? {m m' : Bytes} {off : ℕ} {src : Bytes} (h : store? m off src = some m') :
    m'.length = m.length := by
  unfold store? at h
  split at h
  · rename_i hfit
    cases h
    exact length_overwrite hfit
  · cases h

/-- **A copy right behind what is written already** makes it longer by what is copied. -/
theorem store?_after_prefix {pre m : Bytes} (off : ℕ) (src : Bytes) (hpre : pre <+: m)
    (hoff : pre.length = off) (hfit : off + src.length ≤ m.length) :
    ∃ m', store? m off src = some m' ∧ m'.length = m.length ∧ pre ++ src <+: m' := by
  have htake : m.take off = pre := by
    rw [← hoff]
    exact (List.prefix_iff_eq_take.mp hpre).symm
  refine ⟨_, store?_of_le hfit, length_overwrite hfit, ?_⟩
  rw [overwrite, htake]
  exact List.prefix_append _ _

/-- What is written is read back. -/
theorem slice?_of_prefix {pre m : Bytes} {n : ℕ} (h : pre <+: m) (hn : pre.length = n) :
    slice? m 0 n = some pre := by
  have htake : m.take n = pre := by
    rw [← hn]
    exact (List.prefix_iff_eq_take.mp h).symm
  have hle := h.length_le
  rw [slice?_of_le (by omega), List.drop_zero, htake]

/-- A guard `if (len)` around a checked copy changes nothing. -/
theorem ite_length_store? {m : Bytes} {off : ℕ} (src : Bytes) (h : off ≤ m.length) :
    (if src.length ≠ 0 then store? m off src else some m) = store? m off src := by
  split
  · rfl
  · rename_i h0
    have hnil : src = [] := List.length_eq_zero_iff.mp (not_not.mp h0)
    rw [hnil, store?_of_le (by simpa using h), overwrite_nil]

/-- The array of the first `n` bytes. -/
def toVector (n : ℕ) (l : Bytes) : Vector UInt8 n := Vector.ofFn fun i => l.getD i.val 0

theorem toList_toVector {n : ℕ} {l : Bytes} (h : l.length = n) : (toVector n l).toList = l := by
  refine List.ext_getElem (by simp [h]) ?_
  intro i h1 h2
  simp [toVector, h2]

@[simp] theorem toVector_toList {n : ℕ} (v : Vector UInt8 n) : toVector n v.toList = v := by
  refine Vector.ext fun i hi => ?_
  simp [toVector]

/-- What one call of `malloc` comes to: NULL, or a block with whatever bytes lie there. -/
abbrev Alloc := Option (ℕ → UInt8)

/-- The block `malloc size` returns.  An allocator refuses every size over `PTRDIFF_MAX`, here
that of a 32-bit machine. -/
def malloc (a : Alloc) (size : ℕ) : Option Bytes :=
  if size < 2 ^ 31 then a.map fun g => (List.range size).map g else none

theorem length_malloc {a : Alloc} {size : ℕ} {m : Bytes} (h : malloc a size = some m) :
    m.length = size := by
  unfold malloc at h
  split at h
  · obtain ⟨g, -, rfl⟩ := Option.map_eq_some_iff.mp h
    simp
  · cases h

/-- A request the allocator takes succeeds when memory is there. -/
theorem malloc_some (g : ℕ → UInt8) {size : ℕ} (h : size < 2 ^ 31) :
    malloc (some g) size = some ((List.range size).map g) := if_pos h

@[simp] theorem malloc_none (size : ℕ) : malloc none size = none := by
  unfold malloc
  split <;> rfl

theorem malloc_lt {a : Alloc} {size : ℕ} {m : Bytes} (h : malloc a size = some m) :
    size < 2 ^ 31 := by
  unfold malloc at h
  split at h
  · assumption
  · cases h

/-! ## 4. Masking by a keystream -/

/-- The bytes `l` masked by the keystream `ks`, the first byte of `l` at position 0. -/
def xorWith (ks : ℕ → UInt8) (l : Bytes) : Bytes := l.mapIdx fun i b => b ^^^ ks i

/-- The keystream `ks` from position `n` on. -/
def advance (ks : ℕ → UInt8) (n : ℕ) : ℕ → UInt8 := fun i => ks (n + i)

@[simp] theorem length_xorWith (ks : ℕ → UInt8) (l : Bytes) :
    (xorWith ks l).length = l.length := by
  simp [xorWith]

@[simp] theorem xorWith_nil (ks : ℕ → UInt8) : xorWith ks [] = [] := rfl

theorem getElem_xorWith (ks : ℕ → UInt8) (l : Bytes) (i : ℕ) (h : i < (xorWith ks l).length)
    (hl : i < l.length) : (xorWith ks l)[i] = l[i] ^^^ ks i := by
  simp [xorWith]

theorem advance_advance (ks : ℕ → UInt8) (m n : ℕ) :
    advance (advance ks m) n = advance ks (m + n) := by
  funext i
  simp [advance, Nat.add_assoc]

/-- Only the keystream as far as the text reaches matters. -/
theorem xorWith_congr {ks ks' : ℕ → UInt8} {l : Bytes} (h : ∀ i < l.length, ks i = ks' i) :
    xorWith ks l = xorWith ks' l := by
  refine List.ext_getElem (by simp) ?_
  intro i h1 h2
  have hi : i < l.length := by simpa using h1
  rw [getElem_xorWith _ _ _ _ hi, getElem_xorWith _ _ _ _ hi, h i hi]

/-- Masking twice restores the bytes. -/
@[simp] theorem xorWith_xorWith (ks : ℕ → UInt8) (l : Bytes) : xorWith ks (xorWith ks l) = l := by
  refine List.ext_getElem (by simp) ?_
  intro i h1 h2
  rw [getElem_xorWith _ _ _ _ (by simpa using h2), getElem_xorWith _ _ _ _ h2, UInt8.xor_assoc,
    UInt8.xor_self, UInt8.xor_zero]

theorem xorWith_injective (ks : ℕ → UInt8) : Function.Injective (xorWith ks) :=
  Function.Involutive.injective (xorWith_xorWith ks)

/-- Two strings of one length combined byte by byte: the first is the keystream. -/
theorem zipWith_xor_eq_xorWith {k l : Bytes} (h : k.length = l.length) :
    List.zipWith (· ^^^ ·) k l = xorWith (fun i => k.getD i 0) l := by
  refine List.ext_getElem (by simp [h]) ?_
  intro i h1 h2
  have hl : i < l.length := by simpa using h2
  have hk : i < k.length := by omega
  rw [getElem_xorWith _ _ _ _ hl, List.getElem_zipWith, List.getD_eq_getElem k 0 hk,
    UInt8.xor_comm]

/-- A string of bytes masked by one of its length is determined by the result. -/
theorem zipWith_xor_cancel_left {k l m : Bytes} (hl : k.length = l.length)
    (hm : k.length = m.length) (h : List.zipWith (· ^^^ ·) k l = List.zipWith (· ^^^ ·) k m) :
    l = m := by
  rw [zipWith_xor_eq_xorWith hl, zipWith_xor_eq_xorWith hm] at h
  exact xorWith_injective _ h

/-- A string is masked piece by piece, each piece with the keystream advanced to it. -/
theorem xorWith_append (ks : ℕ → UInt8) (l m : Bytes) :
    xorWith ks (l ++ m) = xorWith ks l ++ xorWith (advance ks l.length) m := by
  simp [xorWith, advance, List.mapIdx_append, Nat.add_comm]

/-- Masking zero bytes yields the keystream itself. -/
theorem xorWith_replicate_zero (ks : ℕ → UInt8) (n : ℕ) :
    xorWith ks (List.replicate n 0) = (List.range n).map ks := by
  refine List.ext_getElem (by simp) ?_
  intro i h1 h2
  rw [getElem_xorWith _ _ _ _ (by simpa using h1)]
  simp

/-! ## 5. Strings put together from pieces of one length -/

/-- The bytes of a string of ASCII characters. -/
def ascii (s : String) : Bytes := s.toList.map fun c => UInt8.ofNat c.toNat

/-- Pieces of `n` bytes each make up `n` times as many bytes. -/
theorem length_flatMap_const {α : Type} {f : α → Bytes} {n : ℕ} (h : ∀ x, (f x).length = n)
    (l : List α) : (l.flatMap f).length = n * l.length := by
  induction l with
  | nil => rfl
  | cons x t ih => rw [List.flatMap_cons, List.length_append, h, ih, List.length_cons]; ring

/-- A byte of a string put together from pieces of `n` bytes each. -/
theorem getElem?_flatMap_const {α : Type} {f : α → Bytes} {n : ℕ} (h : ∀ x, (f x).length = n)
    {j : ℕ} (hj : j < n) (l : List α) (i : ℕ) :
    (l.flatMap f)[n * i + j]? = l[i]?.bind fun x => (f x)[j]? := by
  induction l generalizing i with
  | nil => simp
  | cons x t ih =>
    rw [List.flatMap_cons]
    cases i with
    | zero =>
      rw [Nat.mul_zero, Nat.zero_add, List.getElem?_append_left (by rw [h]; exact hj)]
      rfl
    | succ i =>
      have hpos : n * (i + 1) + j - n = n * i + j := by
        rw [Nat.mul_add, Nat.mul_one]
        omega
      rw [List.getElem?_append_right (by rw [h, Nat.mul_add]; omega), h, hpos, ih]
      rfl

end Bytes

end Glossh
