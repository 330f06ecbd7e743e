/-
# `crypto_sort_uint32.c` sorts, and which words it touches depends on the length only

`crypto_sort_uint32_tinynacl` runs Batcher's merge exchange over an array of words in place; its
comparator `minmax` decides by arithmetic on the words, not by a branch.  Key generation sorts
secret values with it, so two things matter: the result, and that the comparisons made do not
depend on the values.

* `minmaxWords_eq`: the arithmetic is `(min, max)` for every pair of words;
* `cryptoSortUint32_eq_foldl`: the loops are a fixed list of comparators, `mergeExchange`;
* `cryptoSortUint32_sorts`: what is left is the array's entries in ascending order.
-/
import Glossh.Lib.SortingNetwork
import Mathlib.Data.List.GetD

namespace Glossh.Tinynacl

open SortingNetwork

/-! ## 1. The functions of the file -/

/-- The arithmetic of `minmax`: the two words it stores. -/
def minmaxWords (xi yi : UInt32) : UInt32 × UInt32 :=
  let xy := xi ^^^ yi
  let c := yi - xi
  let c := c ^^^ (xy &&& (c ^^^ yi ^^^ 0x80000000))
  let c := c >>> 31
  let c := c &&& 1
  let c := -c
  let c := c &&& xy
  (xi ^^^ c, yi ^^^ c)

/-- `minmax` on the words at `i` and `j` of an array. -/
def minmax (x : List UInt32) (i j : ℕ) : List UInt32 :=
  let r := minmaxWords (x.getD i 0) (x.getD j 0)
  (x.set i r.1).set j r.2

/-- `while (top < n - top) top += top;` -/
def topLoop (n top : ℕ) : ℕ :=
  if 0 < top ∧ top < n - top then topLoop n (top + top) else top
termination_by n - top

/-- The first inner loop. -/
def loopP (n p : ℕ) (x : List UInt32) : List UInt32 :=
  (List.range (n - p)).foldl (fun x i => if i &&& p = 0 then minmax x i (i + p) else x) x

/-- One turn of the loop over `q`. -/
def loopQ (n p q : ℕ) (x : List UInt32) : List UInt32 :=
  (List.range (n - q)).foldl (fun x i => if i &&& p = 0 then minmax x (i + p) (i + q) else x) x

/-- `for (q = top; q > p; q >>= 1)`. -/
def loopsQ (n p q : ℕ) (x : List UInt32) : List UInt32 :=
  if p < q then loopsQ n p (q >>> 1) (loopQ n p q x) else x
termination_by q
decreasing_by rw [Nat.shiftRight_eq_div_pow]; omega

/-- `for (p = top; p > 0; p >>= 1)`. -/
def loopsP (n top p : ℕ) (x : List UInt32) : List UInt32 :=
  if 0 < p then loopsP n top (p >>> 1) (loopsQ n p top (loopP n p x)) else x
termination_by p
decreasing_by rw [Nat.shiftRight_eq_div_pow]; omega

/-- `crypto_sort_uint32_tinynacl` on an array of `n` words. -/
def cryptoSortUint32 (x : List UInt32) : List UInt32 :=
  let n := x.length
  if n < 2 then x
  else
    let top := topLoop n 1
    loopsP n top top x

/-! ## 2. The comparator -/

/-- The top bit of a word. -/
def topBit (x : UInt32) : Bool := decide (2 ^ 31 ≤ x.toNat)

theorem topBit_eq_msb (x : UInt32) : topBit x = x.toBitVec.msb := by
  rw [BitVec.msb_eq_decide]
  rfl

theorem topBit_xor (x y : UInt32) : topBit (x ^^^ y) = (topBit x ^^ topBit y) := by
  simp only [topBit_eq_msb, UInt32.toBitVec_xor, BitVec.msb_xor]

theorem topBit_and (x y : UInt32) : topBit (x &&& y) = (topBit x && topBit y) := by
  simp only [topBit_eq_msb, UInt32.toBitVec_and, BitVec.msb_and]

/-- The shift and the mask of `minmax` single out the top bit. -/
theorem neg_shiftRight_31 (c : UInt32) :
    -((c >>> 31) &&& 1) = if topBit c then -1 else 0 := by
  have hlt : c.toNat < 2 ^ 32 := c.toNat_lt
  have hshift : (c >>> 31).toNat = c.toNat / 2 ^ 31 := by
    rw [UInt32.toNat_shiftRight]
    exact Nat.shiftRight_eq_div_pow c.toNat 31
  have hbit : c >>> 31 = if topBit c then 1 else 0 := by
    apply UInt32.toNat_inj.mp
    rw [hshift]
    by_cases h : 2 ^ 31 ≤ c.toNat
    · simp only [topBit, h, decide_true, if_true, UInt32.toNat_one]
      omega
    · simp only [topBit, h, decide_false, Bool.false_eq_true, if_false,
        UInt32.toNat_zero]
      omega
  rw [hbit]
  split_ifs <;> decide

/-- **The sign that `minmax` computes** is set exactly when the words are out of order: words of
one sign are compared by their difference, words of two signs by that of the second. -/
theorem topBit_minmax (x y : UInt32) :
    topBit (y - x ^^^ ((x ^^^ y) &&& (y - x ^^^ y ^^^ 0x80000000))) =
      decide (y.toNat < x.toNat) := by
  have hx : x.toNat < 2 ^ 32 := x.toNat_lt
  have hy : y.toNat < 2 ^ 32 := y.toNat_lt
  have hsub : (y - x).toNat = (2 ^ 32 - x.toNat + y.toNat) % 2 ^ 32 := UInt32.toNat_sub y x
  have hsign : topBit 0x80000000 = true := by decide
  simp only [topBit_xor, topBit_and, hsign]
  simp only [topBit, hsub]
  by_cases h1 : 2 ^ 31 ≤ x.toNat
  · by_cases h2 : 2 ^ 31 ≤ y.toNat
    · simp only [h1, h2, decide_true, Bool.xor_self, Bool.false_and, Bool.xor_false,
        decide_eq_decide]
      omega
    · have hlt : y.toNat < x.toNat := by omega
      generalize decide (2 ^ 31 ≤ (2 ^ 32 - x.toNat + y.toNat) % 2 ^ 32) = b
      simp only [h1, h2, hlt, decide_true, decide_false]
      cases b <;> rfl
  · by_cases h2 : 2 ^ 31 ≤ y.toNat
    · have hlt : ¬y.toNat < x.toNat := by omega
      generalize decide (2 ^ 31 ≤ (2 ^ 32 - x.toNat + y.toNat) % 2 ^ 32) = b
      simp only [h1, h2, hlt, decide_true, decide_false]
      cases b <;> rfl
    · simp only [h1, h2, decide_false, Bool.xor_self, Bool.false_and, Bool.xor_false,
        decide_eq_decide]
      omega

/-- **`minmax` exchanges two words exactly when they are out of order.** -/
theorem minmaxWords_eq (x y : UInt32) :
    minmaxWords x y = if y.toNat < x.toNat then (y, x) else (x, y) := by
  simp only [minmaxWords, neg_shiftRight_31, topBit_minmax, decide_eq_true_eq]
  split_ifs
  · have hones : (-1 : UInt32) &&& (x ^^^ y) = x ^^^ y := UInt32.neg_one_and
    rw [hones, ← UInt32.xor_assoc, UInt32.xor_self, UInt32.zero_xor, UInt32.xor_comm x y,
      ← UInt32.xor_assoc, UInt32.xor_self, UInt32.zero_xor]
  · rw [UInt32.zero_and, UInt32.xor_zero, UInt32.xor_zero]

/-! ## 3. The loops are a network -/

/-- `minmax` on a comparator. -/
def minmaxAt (x : List UInt32) (c : Comparator) : List UInt32 := minmax x c.1 c.2

/-- The entries of an array as numbers. -/
def entries (x : List UInt32) : ℕ → ℕ := fun k => (x.getD k 0).toNat

@[simp] theorem length_minmax (x : List UInt32) (i j : ℕ) : (minmax x i j).length = x.length := by
  simp [minmax]

theorem entries_set {x : List UInt32} {i : ℕ} (hi : i < x.length) (v : UInt32) (k : ℕ) :
    entries (x.set i v) k = if k = i then v.toNat else entries x k := by
  unfold entries
  rw [List.getD_eq_getElem?_getD, List.getElem?_set, List.getD_eq_getElem?_getD]
  by_cases h : i = k
  · subst h
    simp only [if_true, hi, Option.getD_some]
  · simp only [h, Ne.symm h, if_false]

/-- On entries of the array `minmax` is the comparator. -/
theorem entries_minmaxAt {x : List UInt32} {c : Comparator}
    (h : c.1 < x.length ∧ c.2 < x.length) : entries (minmaxAt x c) = exchange (entries x) c := by
  have hval : (minmaxWords (x.getD c.1 0) (x.getD c.2 0)).1.toNat =
        min (entries x c.1) (entries x c.2) ∧
      (minmaxWords (x.getD c.1 0) (x.getD c.2 0)).2.toNat =
        max (entries x c.1) (entries x c.2) := by
    rw [minmaxWords_eq]
    unfold entries
    split_ifs <;> constructor <;> simp only [] <;> omega
  funext k
  rw [minmaxAt, minmax, entries_set (by rw [List.length_set]; exact h.2), entries_set h.1, hval.1,
    hval.2]
  unfold exchange
  by_cases h1 : k = c.1
  · by_cases h2 : k = c.2
    · -- a word compared with itself
      rw [← h1, ← h2]
      simp only [if_true, min_self, max_self]
    · simp only [h1, if_true, if_neg (fun h => h2 (h1.trans h))]
  · simp only [h1, if_false]

/-- `minmax` loses no entry. -/
theorem minmax_perm {x : List UInt32} {i j : ℕ} (hi : i < x.length) (hj : j < x.length) :
    (minmax x i j).Perm x := by
  unfold minmax
  rw [minmaxWords_eq, List.getD_eq_getElem x 0 hi, List.getD_eq_getElem x 0 hj]
  split_ifs
  · exact List.set_set_perm hi hj
  · simp only [List.set_getElem_self]
    exact List.Perm.refl x

/-- A network run on an array by `minmax`. -/
theorem foldl_minmaxAt {cs : List Comparator} {x : List UInt32}
    (h : ∀ c ∈ cs, c.1 < x.length ∧ c.2 < x.length) :
    (cs.foldl minmaxAt x).Perm x ∧ entries (cs.foldl minmaxAt x) = run cs (entries x) := by
  induction cs generalizing x with
  | nil => exact ⟨List.Perm.refl x, rfl⟩
  | cons c cs ih =>
    have hc := h c List.mem_cons_self
    have hlen : (minmaxAt x c).length = x.length := length_minmax x c.1 c.2
    obtain ⟨hperm, hrun⟩ := ih (x := minmaxAt x c) fun d hd => by
      rw [hlen]
      exact h d (List.mem_cons_of_mem c hd)
    refine ⟨hperm.trans (minmax_perm hc.1 hc.2), ?_⟩
    rw [List.foldl_cons, hrun, entries_minmaxAt hc, run_cons]

/-- The test `!(i & p)` picks the even classes of width `p`. -/
theorem and_two_pow_eq_zero_iff (i k : ℕ) : i &&& 2 ^ k = 0 ↔ i / 2 ^ k % 2 = 0 := by
  have hbit : (i.testBit k = true) ↔ i / 2 ^ k % 2 = 1 := by
    rw [Nat.testBit_eq_decide_div_mod_eq, decide_eq_true_eq]
  rw [Nat.and_two_pow]
  cases hb : i.testBit k
  · rw [hb] at hbit
    simp only [Bool.toNat_false, Nat.zero_mul, true_iff]
    have hne : ¬i / 2 ^ k % 2 = 1 := fun h => Bool.false_ne_true (hbit.mpr h)
    omega
  · rw [hb] at hbit
    have hone := hbit.mp rfl
    have hpos : 0 < 2 ^ k := Nat.two_pow_pos k
    simp only [Bool.toNat_true, Nat.one_mul, hone, Nat.one_ne_zero, iff_false]
    omega

/-- A loop over the `i` with `!(i & p)` runs a layer. -/
theorem foldl_range_eq_layer {n k u e v : ℕ} (hv : v = u + 2 ^ k * (2 * e + 1))
    (x : List UInt32) :
    (List.range (n - v)).foldl
        (fun x i => if i &&& 2 ^ k = 0 then minmax x (i + u) (i + v) else x) x =
      (layer n (2 ^ k) u e).foldl minmaxAt x := by
  subst hv
  rw [layer, List.foldl_map, List.foldl_filter]
  simp only [and_two_pow_eq_zero_iff, decide_eq_true_eq, minmaxAt]

theorem loopP_eq (n k : ℕ) (x : List UInt32) :
    loopP n (2 ^ k) x = (layer n (2 ^ k) 0 0).foldl minmaxAt x := by
  have h := foldl_range_eq_layer (n := n) (k := k) (u := 0) (e := 0) (v := 2 ^ k) (by ring) x
  unfold loopP
  simpa only [Nat.add_zero] using h

theorem loopQ_eq (n k d : ℕ) (x : List UInt32) :
    loopQ n (2 ^ k) (2 ^ (d + 1) * 2 ^ k) x =
      (layer n (2 ^ k) (2 ^ k) (2 ^ d - 1)).foldl minmaxAt x := by
  refine foldl_range_eq_layer ?_ x
  have hpos : 0 < 2 ^ d := Nat.two_pow_pos d
  have hsub : 2 ^ (d + 1) = 2 * (2 ^ d - 1) + 2 := by
    rw [pow_succ]
    omega
  rw [hsub]
  ring

theorem loopsQ_eq (n k d : ℕ) (x : List UInt32) :
    loopsQ n (2 ^ k) (2 ^ d * 2 ^ k) x = (secondPass n (2 ^ k) d).foldl minmaxAt x := by
  have hpos : 0 < 2 ^ k := Nat.two_pow_pos k
  induction d generalizing x with
  | zero =>
    unfold loopsQ
    rw [pow_zero, Nat.one_mul, if_neg (lt_irrefl _)]
    rfl
  | succ d ih =>
    have hlt : 2 ^ k < 2 ^ (d + 1) * 2 ^ k := by
      have hmul := Nat.mul_le_mul_right (2 ^ k) (Nat.one_le_two_pow (n := d))
      rw [pow_succ', Nat.mul_assoc]
      omega
    have hhalf : (2 ^ (d + 1) * 2 ^ k) >>> 1 = 2 ^ d * 2 ^ k := by
      rw [Nat.shiftRight_eq_div_pow, pow_succ', Nat.mul_assoc]
      omega
    unfold loopsQ
    rw [if_pos hlt, hhalf, loopQ_eq, ih, secondPass, List.foldl_append]

theorem loopsP_eq (n t k : ℕ) (hk : k ≤ t) (x : List UInt32) :
    loopsP n (2 ^ t) (2 ^ k) x = (stages n t (k + 1)).foldl minmaxAt x := by
  have htop (k : ℕ) (hk : k ≤ t) : 2 ^ t = 2 ^ (t - k) * 2 ^ k := by
    rw [← pow_add, Nat.sub_add_cancel hk]
  have hstage (k : ℕ) (hk : k ≤ t) (x : List UInt32) :
      loopsQ n (2 ^ k) (2 ^ t) (loopP n (2 ^ k) x) =
        (stage n (2 ^ k) (t - k)).foldl minmaxAt x := by
    rw [htop k hk, loopP_eq, loopsQ_eq, stage, List.foldl_append]
  induction k generalizing x with
  | zero =>
    have hend (x : List UInt32) : loopsP n (2 ^ t) (2 ^ 0 >>> 1) x = x := by
      unfold loopsP
      rfl
    unfold loopsP
    rw [if_pos (Nat.two_pow_pos 0), hend, hstage 0 hk, stages, stages, List.append_nil]
  | succ k ih =>
    have hhalf : 2 ^ (k + 1) >>> 1 = 2 ^ k := by
      rw [Nat.shiftRight_eq_div_pow, pow_succ']
      omega
    unfold loopsP
    rw [if_pos (Nat.two_pow_pos (k + 1)), hhalf, ih (by omega), hstage (k + 1) hk,
      ← List.foldl_append]
    rfl

/-- The loop over `top` ends at a power of two that half the length does not exceed. -/
theorem topLoop_eq (n s : ℕ) : ∃ t, topLoop n (2 ^ s) = 2 ^ t ∧ n ≤ 2 ^ (t + 1) := by
  have hpos : 0 < 2 ^ s := Nat.two_pow_pos s
  have hpow : 2 ^ (s + 1) = 2 ^ s + 2 ^ s := by rw [pow_succ, Nat.mul_two]
  by_cases h : 2 ^ s < n - 2 ^ s
  · obtain ⟨t, ht, hn⟩ := topLoop_eq n (s + 1)
    refine ⟨t, ?_, hn⟩
    unfold topLoop
    rw [if_pos ⟨hpos, h⟩, ← hpow, ht]
  · refine ⟨s, ?_, by omega⟩
    unfold topLoop
    rw [if_neg fun hand => h hand.2]
termination_by n - 2 ^ s

/-- **The loops run merge exchange**: which words are compared, and in which order, is fixed by
the length. -/
theorem cryptoSortUint32_eq_foldl (n : ℕ) : ∃ t, n ≤ 2 ^ (t + 1) ∧ ∀ x : List UInt32,
    x.length = n → 2 ≤ n → cryptoSortUint32 x = (mergeExchange n t).foldl minmaxAt x := by
  obtain ⟨t, htop, hn⟩ := topLoop_eq n 0
  refine ⟨t, hn, ?_⟩
  rintro x rfl hlen
  rw [pow_zero] at htop
  simp only [cryptoSortUint32, htop, if_neg (Nat.not_lt.mpr hlen)]
  exact loopsP_eq x.length t t (le_refl t) x

/-- The words of an array by their numbers. -/
theorem pairwise_le_of_entries {x : List UInt32}
    (h : ∀ i j, i ≤ j → j < x.length → entries x i ≤ entries x j) : x.Pairwise (· ≤ ·) := by
  rw [List.pairwise_iff_getElem]
  intro i j hi hj hij
  have hle := h i j hij.le hj
  unfold entries at hle
  rw [List.getD_eq_getElem x 0 hi, List.getD_eq_getElem x 0 hj] at hle
  exact UInt32.le_iff_toNat_le.mpr hle

/-- **The array is left sorted**, whatever its length and its words, and holds the same words; and
there is one list of comparators for all arrays of that length, so that the comparisons made say
nothing about the words. -/
theorem cryptoSortUint32_sorts (n : ℕ) : ∃ cs : List Comparator, ∀ x : List UInt32, x.length = n →
    cryptoSortUint32 x = cs.foldl minmaxAt x ∧ (cryptoSortUint32 x).Pairwise (· ≤ ·) ∧
      (cryptoSortUint32 x).Perm x := by
  obtain ⟨t, hn, hrun⟩ := cryptoSortUint32_eq_foldl n
  rcases Nat.lt_or_ge n 2 with hshort | hlong
  · refine ⟨[], ?_⟩
    rintro x rfl
    have hstay : cryptoSortUint32 x = x := by
      simp only [cryptoSortUint32, if_pos hshort]
    rw [hstay]
    refine ⟨rfl, pairwise_le_of_entries ?_, List.Perm.refl x⟩
    intro i j hij hj
    rw [show i = j by omega]
  · refine ⟨mergeExchange n t, ?_⟩
    rintro x rfl
    have hnet : ∀ c ∈ mergeExchange x.length t, c.1 < x.length ∧ c.2 < x.length :=
      fun _ hc => stages_lt hc
    obtain ⟨hperm, hentries⟩ := foldl_minmaxAt hnet
    rw [hrun x rfl hlong]
    refine ⟨rfl, pairwise_le_of_entries ?_, hperm⟩
    intro i j hij hj
    rw [hperm.length_eq] at hj
    rw [hentries]
    exact mergeExchange_sorts hn (entries x) hij hj

end Glossh.Tinynacl
