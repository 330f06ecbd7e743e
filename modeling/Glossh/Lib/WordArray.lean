/-
# Numbers in arrays of 32-bit words

A number is spread over an array of words, low word first: `val32` reads an array of 32-bit
words, `val64` one of 64-bit words whose entries may overlap.  The loops that compute with such
arrays are stated here once, with what they compute:

* `carryChain`: 64-bit sums are brought to 32 bits, the rest of each carried to the next one
  (`val32_carryChain`);
* `borrowChain`: an array is subtracted from another, with a borrow (`val32_borrowChain`);
* `addTo`: a sum is added to one entry (`val64_addTo`).

Each comes with the bounds under which nothing is lost in 64 bits.
-/
import Glossh.Lib.Bytes
import Mathlib.Data.Nat.Digits.Defs
import Mathlib.Data.Nat.Digits.Lemmas

namespace Glossh
namespace WordArray

open Bytes

/-! ## 1. The number an array stands for -/

/-- The number in an array of words. -/
def val32 (l : List UInt32) : ℕ := Nat.ofDigits (2 ^ 32) (l.map UInt32.toNat)

/-- The number in an array of sums, each weighing as much as the word in its place. -/
def val64 (l : List UInt64) : ℕ := Nat.ofDigits (2 ^ 32) (l.map UInt64.toNat)

@[simp] theorem val32_nil : val32 [] = 0 := rfl

@[simp] theorem val64_nil : val64 [] = 0 := rfl

theorem val32_cons (x : UInt32) (l : List UInt32) :
    val32 (x :: l) = x.toNat + 2 ^ 32 * val32 l := by
  rw [val32, List.map_cons, Nat.ofDigits_cons]
  rfl

theorem val64_cons (x : UInt64) (l : List UInt64) :
    val64 (x :: l) = x.toNat + 2 ^ 32 * val64 l := by
  rw [val64, List.map_cons, Nat.ofDigits_cons]
  rfl

theorem val32_append (l m : List UInt32) :
    val32 (l ++ m) = val32 l + 2 ^ (32 * l.length) * val32 m := by
  rw [val32, List.map_append, Nat.ofDigits_append, List.length_map, ← pow_mul]
  rfl

theorem val64_append (l m : List UInt64) :
    val64 (l ++ m) = val64 l + 2 ^ (32 * l.length) * val64 m := by
  rw [val64, List.map_append, Nat.ofDigits_append, List.length_map, ← pow_mul]
  rfl

theorem val32_lt (l : List UInt32) : val32 l < 2 ^ (32 * l.length) := by
  induction l with
  | nil => exact Nat.one_pos
  | cons x l ih =>
    have hx : x.toNat < 2 ^ 32 := x.toNat_lt
    rw [val32_cons, List.length_cons, Nat.mul_add, pow_add]
    omega

/-- Words are sums without overlap. -/
theorem val64_map_toUInt64 (l : List UInt32) : val64 (l.map UInt32.toUInt64) = val32 l := by
  induction l with
  | nil => rfl
  | cons x l ih => rw [List.map_cons, val64_cons, val32_cons, ih, UInt32.toNat_toUInt64]

/-! ## 2. Carries -/

/-- `u += v[i]; o[i] = u & 0xffffffff; u >>= 32;` along an array: the words stored, and what is
left in `u`. -/
def carryChain : List UInt64 → UInt64 → List UInt32 × UInt64
  | [], u => ([], u)
  | v :: vs, u =>
    let u := u + v
    let r := carryChain vs (u >>> 32)
    (u.toUInt32 :: r.1, r.2)

@[simp] theorem length_carryChain (vs : List UInt64) (u : UInt64) :
    (carryChain vs u).1.length = vs.length := by
  induction vs generalizing u with
  | nil => rfl
  | cons v vs ih => rw [carryChain, List.length_cons, List.length_cons, ih]

theorem toNat_shiftRight_32 (u : UInt64) : (u >>> 32).toNat = u.toNat / 2 ^ 32 := by
  rw [UInt64.toNat_shiftRight]
  exact Nat.shiftRight_eq_div_pow u.toNat 32

/-- **Carrying keeps the number.** -/
theorem val32_carryChain {l : List UInt64} (hl : ∀ v ∈ l, v.toNat < 2 ^ 62) {u : UInt64}
    (hu : u.toNat < 2 ^ 62) :
    val32 (carryChain l u).1 + 2 ^ (32 * l.length) * (carryChain l u).2.toNat =
      u.toNat + val64 l := by
  induction l generalizing u with
  | nil => simp [carryChain]
  | cons v l ih =>
    have hv := hl v List.mem_cons_self
    have hsum : (u + v).toNat = u.toNat + v.toNat := by
      rw [UInt64.toNat_add]
      exact Nat.mod_eq_of_lt (by omega)
    have hshift := toNat_shiftRight_32 (u + v)
    have hrest := ih (fun w hw => hl w (List.mem_cons_of_mem v hw)) (u := (u + v) >>> 32)
      (by omega)
    have hlow : (u + v).toUInt32.toNat = (u + v).toNat % 2 ^ 32 := UInt64.toNat_toUInt32 _
    have hpow : 2 ^ (32 * (l.length + 1)) = 2 ^ 32 * 2 ^ (32 * l.length) := by
      rw [Nat.mul_add, pow_add, Nat.mul_comm]
    rw [carryChain, List.length_cons, val32_cons, val64_cons, hpow, Nat.mul_assoc, Nat.add_assoc,
      ← Nat.mul_add, hrest, hlow, hshift, hsum]
    omega

/-! ## 3. Borrows -/

/-- `pb += p[i]; b = r[i] - pb; b >>= 63; t[i] = r[i] - pb + (b << 32); pb = b;` along two arrays:
the words stored, and the borrow that is left. -/
def borrowChain : List (UInt32 × UInt32) → UInt64 → List UInt32 × UInt64
  | [], pb => ([], pb)
  | (r, p) :: rest, pb =>
    let pb := pb + p.toUInt64
    let b := (r.toUInt64 - pb) >>> 63
    let t := r.toUInt64 - pb + (b <<< 32)
    let q := borrowChain rest b
    (t.toUInt32 :: q.1, q.2)

@[simp] theorem length_borrowChain (l : List (UInt32 × UInt32)) (pb : UInt64) :
    (borrowChain l pb).1.length = l.length := by
  induction l generalizing pb with
  | nil => rfl
  | cons x l ih =>
    obtain ⟨r, p⟩ := x
    rw [borrowChain, List.length_cons, List.length_cons, ih]

/-- One place of a subtraction. -/
theorem borrow_step (r p : UInt32) {pb : UInt64} (hpb : pb.toNat ≤ 1) :
    ((r.toUInt64 - (pb + p.toUInt64)) >>> 63).toNat ≤ 1 ∧
      (r.toUInt64 - (pb + p.toUInt64) +
          ((r.toUInt64 - (pb + p.toUInt64)) >>> 63) <<< 32).toUInt32.toNat + p.toNat + pb.toNat =
        r.toNat + 2 ^ 32 * ((r.toUInt64 - (pb + p.toUInt64)) >>> 63).toNat := by
  have hr : r.toNat < 2 ^ 32 := r.toNat_lt
  have hp : p.toNat < 2 ^ 32 := p.toNat_lt
  have hsum : (pb + p.toUInt64).toNat = pb.toNat + p.toNat := by
    rw [UInt64.toNat_add, UInt32.toNat_toUInt64]
    omega
  have hsub : (r.toUInt64 - (pb + p.toUInt64)).toNat =
      (2 ^ 64 - (pb.toNat + p.toNat) + r.toNat) % 2 ^ 64 := by
    rw [UInt64.toNat_sub, hsum, UInt32.toNat_toUInt64]
  generalize r.toUInt64 - (pb + p.toUInt64) = d at hsub ⊢
  have hb : (d >>> 63).toNat = d.toNat / 2 ^ 63 := by
    rw [UInt64.toNat_shiftRight]
    exact Nat.shiftRight_eq_div_pow d.toNat 63
  have hshift : ((d >>> 63) <<< 32).toNat = d.toNat / 2 ^ 63 * 2 ^ 32 % 2 ^ 64 := by
    rw [UInt64.toNat_shiftLeft, hb, ← Nat.shiftLeft_eq]
    rfl
  rw [UInt64.toNat_toUInt32, UInt64.toNat_add, hshift, hb]
  rcases Nat.lt_or_ge r.toNat (pb.toNat + p.toNat) with hlt | hge
  · -- a borrow is taken: the difference wrapped, and its top bit is set
    have hd : d.toNat = 2 ^ 64 - (pb.toNat + p.toNat) + r.toNat := by omega
    have htop : d.toNat / 2 ^ 63 = 1 := by omega
    rw [htop]
    omega
  · have hd : d.toNat = r.toNat - (pb.toNat + p.toNat) := by omega
    have htop : d.toNat / 2 ^ 63 = 0 := by omega
    rw [htop]
    omega

/-- **Borrowing keeps the difference.** -/
theorem val32_borrowChain (l : List (UInt32 × UInt32)) {pb : UInt64} (hpb : pb.toNat ≤ 1) :
    (borrowChain l pb).2.toNat ≤ 1 ∧
      val32 (borrowChain l pb).1 + val32 (l.map Prod.snd) + pb.toNat =
        val32 (l.map Prod.fst) + 2 ^ (32 * l.length) * (borrowChain l pb).2.toNat := by
  induction l generalizing pb with
  | nil => exact ⟨hpb, by simp [borrowChain]⟩
  | cons x l ih =>
    obtain ⟨r, p⟩ := x
    obtain ⟨hb, hstep⟩ := borrow_step r p hpb
    obtain ⟨hborrow, hrest⟩ := ih hb
    have hpow : 2 ^ (32 * (l.length + 1)) = 2 ^ 32 * 2 ^ (32 * l.length) := by
      rw [Nat.mul_add, pow_add, Nat.mul_comm]
    refine ⟨hborrow, ?_⟩
    simp only [borrowChain, List.map_cons, val32_cons, List.length_cons, hpow, Nat.mul_assoc]
    generalize 2 ^ (32 * l.length) * _ = y at hrest ⊢
    omega

/-! ## 4. Sums -/

/-- `o[k] += x`. -/
def addTo (o : List UInt64) (k : ℕ) (x : UInt64) : List UInt64 := o.modify k (· + x)

@[simp] theorem length_addTo (o : List UInt64) (k : ℕ) (x : UInt64) :
    (addTo o k x).length = o.length := by
  rw [addTo, List.length_modify]

/-- Every entry is at most `b`. -/
def AtMost (b : ℕ) (o : List UInt64) : Prop := ∀ v ∈ o, v.toNat ≤ b

/-- **Adding to an entry** adds with the entry's weight, as long as no entry overflows. -/
theorem val64_addTo {o : List UInt64} {k : ℕ} (hk : k < o.length) {x : UInt64} {b c : ℕ}
    (ho : AtMost b o) (hx : x.toNat ≤ c) (hbc : b + c < 2 ^ 64) :
    val64 (addTo o k x) = val64 o + 2 ^ (32 * k) * x.toNat := by
  induction o generalizing k with
  | nil => exact absurd hk (Nat.not_lt_zero k)
  | cons v o ih =>
    have hv := ho v List.mem_cons_self
    cases k with
    | zero =>
      have hsum : (v + x).toNat = v.toNat + x.toNat := by
        rw [UInt64.toNat_add]
        exact Nat.mod_eq_of_lt (by omega)
      have hmod : addTo (v :: o) 0 x = (v + x) :: o := rfl
      rw [hmod, val64_cons, val64_cons, hsum, Nat.mul_zero, pow_zero, Nat.one_mul]
      omega
    | succ k =>
      have hmod : addTo (v :: o) (k + 1) x = v :: addTo o k x := rfl
      have hrest := ih (Nat.lt_of_succ_lt_succ hk) fun w hw => ho w (List.mem_cons_of_mem v hw)
      have hpow : 2 ^ (32 * (k + 1)) = 2 ^ 32 * 2 ^ (32 * k) := by
        rw [Nat.mul_add, pow_add, Nat.mul_comm]
      rw [hmod, val64_cons, val64_cons, hrest, hpow, Nat.mul_assoc]
      omega

theorem atMost_addTo {o : List UInt64} (k : ℕ) {x : UInt64} {b c : ℕ} (ho : AtMost b o)
    (hx : x.toNat ≤ c) : AtMost (b + c) (addTo o k x) := by
  have hsum (v : UInt64) (hv : v.toNat ≤ b) : (v + x).toNat ≤ b + c := by
    rw [UInt64.toNat_add]
    exact (Nat.mod_le _ _).trans (Nat.add_le_add hv hx)
  induction o generalizing k with
  | nil =>
    intro w hw
    rw [addTo, List.modify_nil] at hw
    exact absurd hw List.not_mem_nil
  | cons v o ih =>
    have hv := ho v List.mem_cons_self
    have hrest : AtMost b o := fun w hw => ho w (List.mem_cons_of_mem v hw)
    cases k with
    | zero =>
      intro w hw
      rcases List.mem_cons.mp hw with rfl | hw
      · exact hsum v hv
      · exact (hrest w hw).trans (Nat.le_add_right b c)
    | succ k =>
      intro w hw
      rcases List.mem_cons.mp hw with rfl | hw
      · exact hv.trans (Nat.le_add_right b c)
      · exact ih k hrest w hw

end WordArray
end Glossh
