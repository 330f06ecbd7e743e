/-
# Comparator networks, the zero-one principle, and merge exchange

A comparator `(i, j)` puts the lesser of two entries at `i` and the greater at `j`; a network is
a list of them, run on the entries from left to right.  Nothing here belongs to one program:

* `comp_run`: a network commutes with monotone maps, so that one which sorts every sequence of
  bits sorts every sequence (`run_le_run_of_bits`, the zero-one principle);
* `run_min`, `run_max`, `run_of_not_mem`: the comparators of a layer that share no entry act all
  at once;
* `mergeExchange`: Batcher's network for any number of entries, not only for powers of two, and
  `mergeExchange_sorts`.

The proof of the last follows one residue class modulo `p` of a sequence of bits.  Its even and
its odd members are two sorted sequences, that is two numbers of zeros, and a layer of the
network only moves these numbers: `2 ^ d * p` apart it brings them at most `2 ^ (d - 1)` apart.
-/
import Mathlib.Data.List.Basic
import Mathlib.Data.Nat.Bitwise
import Mathlib.Order.Basic
import Mathlib.Order.Lattice
import Mathlib.Logic.Function.Basic
import Mathlib.Order.Monotone.Basic
import Mathlib.Tactic.Ring

namespace Glossh
namespace SortingNetwork

/-- A comparator: where the lesser of two entries goes, and where the greater. -/
abbrev Comparator := ℕ × ℕ

variable {α β : Type} [LinearOrder α] [LinearOrder β]

/-! ## 1. Running a network -/

/-- One comparator. -/
def exchange (x : ℕ → α) (c : Comparator) : ℕ → α := fun k =>
  if k = c.1 then min (x c.1) (x c.2) else if k = c.2 then max (x c.1) (x c.2) else x k

/-- A network. -/
def run (cs : List Comparator) (x : ℕ → α) : ℕ → α := cs.foldl exchange x

@[simp] theorem run_nil (x : ℕ → α) : run [] x = x := rfl

@[simp] theorem run_cons (c : Comparator) (cs : List Comparator) (x : ℕ → α) :
    run (c :: cs) x = run cs (exchange x c) := rfl

@[simp] theorem run_append (cs ds : List Comparator) (x : ℕ → α) :
    run (cs ++ ds) x = run ds (run cs x) := List.foldl_append

/-- A comparator commutes with a monotone map. -/
theorem comp_exchange {f : α → β} (hf : Monotone f) (x : ℕ → α) (c : Comparator) :
    f ∘ exchange x c = exchange (f ∘ x) c := by
  funext k
  simp only [Function.comp_apply, exchange]
  split_ifs
  · exact hf.map_min
  · exact hf.map_max
  · rfl

/-- **A network commutes with monotone maps.** -/
theorem comp_run {f : α → β} (hf : Monotone f) (cs : List Comparator) (x : ℕ → α) :
    f ∘ run cs x = run cs (f ∘ x) := by
  induction cs generalizing x with
  | nil => rfl
  | cons c cs ih => rw [run_cons, run_cons, ih, comp_exchange hf]

/-- Entries no comparator names stay. -/
theorem run_of_not_mem {cs : List Comparator} {k : ℕ} (h : ∀ c ∈ cs, k ≠ c.1 ∧ k ≠ c.2)
    (x : ℕ → α) : run cs x k = x k := by
  induction cs generalizing x with
  | nil => rfl
  | cons c cs ih =>
    obtain ⟨h1, h2⟩ := h c List.mem_cons_self
    rw [run_cons, ih fun d hd => h d (List.mem_cons_of_mem c hd)]
    simp only [exchange, h1, h2, if_false]

/-- A network reads only the entries its comparators name. -/
theorem run_congr {cs : List Comparator} {P : ℕ → Prop} (h : ∀ c ∈ cs, P c.1 ∧ P c.2)
    {x y : ℕ → α} (hxy : ∀ k, P k → x k = y k) {k : ℕ} (hk : P k) :
    run cs x k = run cs y k := by
  induction cs generalizing x y with
  | nil => exact hxy k hk
  | cons c cs ih =>
    obtain ⟨h1, h2⟩ := h c List.mem_cons_self
    refine ih (fun d hd => h d (List.mem_cons_of_mem c hd)) fun i hi => ?_
    simp only [exchange, hxy _ h1, hxy _ h2, hxy i hi]

/-! ## 2. The zero-one principle -/

/-- The sequence of bits that says which of the first `n` entries reach `a`. -/
def bits (n : ℕ) (a : α) (x : ℕ → α) : ℕ → Bool := fun k => decide (k < n → a ≤ x k)

theorem bits_of_lt {n k : ℕ} (h : k < n) (a : α) (x : ℕ → α) :
    bits n a x k = decide (a ≤ x k) := by
  simp [bits, h]

theorem bits_of_ge {n k : ℕ} (h : n ≤ k) (a : α) (x : ℕ → α) : bits n a x k = true := by
  simp [bits, Nat.not_lt.mpr h]

/-- Over the entries a network may touch, running it on the bits gives the bits of its run. -/
theorem run_bits {cs : List Comparator} {n : ℕ} (h : ∀ c ∈ cs, c.1 < n ∧ c.2 < n) (a : α)
    (x : ℕ → α) {k : ℕ} (hk : k < n) : run cs (bits n a x) k = decide (a ≤ run cs x k) := by
  have hmono : Monotone fun b : α => decide (a ≤ b) := by
    intro b c hbc
    by_cases hab : a ≤ b
    · simp [hab, hab.trans hbc]
    · simp [hab]
  have hcomp := congrFun (comp_run hmono cs x) k
  rw [run_congr (y := (fun b => decide (a ≤ b)) ∘ x) h (fun i hi => bits_of_lt hi a x) hk]
  exact hcomp.symm

/-- **The zero-one principle.**  A network on the first `n` entries that sorts every sequence of
bits with ones behind them sorts every sequence. -/
theorem run_le_run_of_bits {cs : List Comparator} {n : ℕ} (h : ∀ c ∈ cs, c.1 < n ∧ c.2 < n)
    (hbits : ∀ y : ℕ → Bool, (∀ k, n ≤ k → y k = true) → Monotone (run cs y)) (x : ℕ → α)
    {i j : ℕ} (hij : i ≤ j) (hj : j < n) : run cs x i ≤ run cs x j := by
  have hy := hbits (bits n (run cs x i) x) fun k hk => bits_of_ge hk _ x
  have hle := hy hij
  rw [run_bits h _ x (by omega), run_bits h _ x hj, decide_eq_true (le_refl _)] at hle
  exact of_decide_eq_true (top_le_iff.mp hle)

/-! ## 3. A layer of comparators that share no entry -/

/-- Two comparators name four different entries. -/
def Apart (c d : Comparator) : Prop := c.1 ≠ d.1 ∧ c.1 ≠ d.2 ∧ c.2 ≠ d.1 ∧ c.2 ≠ d.2

/-- The lesser entry of a comparator of a layer. -/
theorem run_min {cs : List Comparator} (hcs : cs.Pairwise Apart) {c : Comparator} (hc : c ∈ cs)
    (x : ℕ → α) : run cs x c.1 = min (x c.1) (x c.2) := by
  induction cs generalizing x with
  | nil => exact absurd hc List.not_mem_nil
  | cons d cs ih =>
    obtain ⟨hd, hcs⟩ := List.pairwise_cons.mp hcs
    rw [run_cons]
    rcases List.mem_cons.mp hc with rfl | hc
    · rw [run_of_not_mem fun e he => ⟨(hd e he).1, (hd e he).2.1⟩]
      simp only [exchange, if_true]
    · obtain ⟨h1, h2, h3, h4⟩ := hd c hc
      rw [ih hcs hc]
      simp only [exchange, h1.symm, h2.symm, h3.symm, h4.symm, if_false]

/-- The greater entry of a comparator of a layer. -/
theorem run_max {cs : List Comparator} (hcs : cs.Pairwise Apart) {c : Comparator} (hc : c ∈ cs)
    (hne : c.1 ≠ c.2) (x : ℕ → α) : run cs x c.2 = max (x c.1) (x c.2) := by
  induction cs generalizing x with
  | nil => exact absurd hc List.not_mem_nil
  | cons d cs ih =>
    obtain ⟨hd, hcs⟩ := List.pairwise_cons.mp hcs
    rw [run_cons]
    rcases List.mem_cons.mp hc with rfl | hc
    · rw [run_of_not_mem fun e he => ⟨(hd e he).2.2.1, (hd e he).2.2.2⟩]
      simp only [exchange, hne.symm, if_true, if_false]
    · obtain ⟨h1, h2, h3, h4⟩ := hd c hc
      rw [ih hcs hc]
      simp only [exchange, h1.symm, h2.symm, h3.symm, h4.symm, if_false]

/-! ## 4. Merge exchange -/

/-- The layer that joins entry `i + u` to entry `i + u + p * (2 * e + 1)`, for the `i` in the even
classes of width `p`. -/
def layer (n p u e : ℕ) : List Comparator :=
  ((List.range (n - (u + p * (2 * e + 1)))).filter fun i => i / p % 2 = 0).map fun i =>
    (i + u, i + (u + p * (2 * e + 1)))

/-- The layers that bring the two halves of each class of width `p` together, `2 ^ d * p` apart at
first. -/
def secondPass (n p : ℕ) : ℕ → List Comparator
  | 0 => []
  | d + 1 => layer n p p (2 ^ d - 1) ++ secondPass n p d

/-- The layers after which the entries are in order `p` apart. -/
def stage (n p d : ℕ) : List Comparator := layer n p 0 0 ++ secondPass n p d

/-- The stages from width `2 ^ (k - 1)` down to width 1. -/
def stages (n t : ℕ) : ℕ → List Comparator
  | 0 => []
  | k + 1 => stage n (2 ^ k) (t - k) ++ stages n t k

/-- **Batcher's merge exchange** on `n` entries, where `n` is at most `2 ^ (t + 1)`. -/
def mergeExchange (n t : ℕ) : List Comparator := stages n t (t + 1)

section

variable {n p u e : ℕ}

theorem mem_layer {c : Comparator} : c ∈ layer n p u e ↔
    ∃ i, i + (u + p * (2 * e + 1)) < n ∧ i / p % 2 = 0 ∧
      c = (i + u, i + (u + p * (2 * e + 1))) := by
  simp only [layer, List.mem_map, List.mem_filter, List.mem_range, decide_eq_true_eq]
  constructor
  · rintro ⟨i, ⟨hlt, heven⟩, rfl⟩
    exact ⟨i, by omega, heven, rfl⟩
  · rintro ⟨i, hlt, heven, rfl⟩
    exact ⟨i, ⟨by omega, heven⟩, rfl⟩

/-- A layer stays among the first `n` entries. -/
theorem layer_lt {c : Comparator} (h : c ∈ layer n p u e) : c.1 < n ∧ c.2 < n := by
  obtain ⟨i, hlt, -, rfl⟩ := mem_layer.mp h
  exact ⟨by omega, hlt⟩

/-- An odd number of widths leads out of the even classes. -/
theorem even_class_ne (hp : 0 < p) {i j : ℕ} (hi : i / p % 2 = 0) (hj : j / p % 2 = 0) :
    i + p * (2 * e + 1) ≠ j := by
  rintro rfl
  rw [Nat.add_mul_div_left _ _ hp] at hj
  omega

/-- The comparators of a layer share no entry. -/
theorem layer_apart (hp : 0 < p) : (layer n p u e).Pairwise Apart := by
  have hpos : 0 < p * (2 * e + 1) := Nat.mul_pos hp (by omega)
  refine List.pairwise_map.mpr ?_
  refine ((List.pairwise_lt_range).filter _).imp_of_mem ?_
  intro i j hi hj hij
  have hi := of_decide_eq_true (List.mem_filter.mp hi).2
  have hj := of_decide_eq_true (List.mem_filter.mp hj).2
  have hne := even_class_ne (e := e) hp hi hj
  refine ⟨?_, ?_, ?_, ?_⟩ <;> simp only [ne_eq] <;> omega

/-- What a layer leaves in the lower entry of a pair, ones standing behind the entries. -/
theorem layer_fst (hp : 0 < p) {y : ℕ → Bool} (hy : ∀ k, n ≤ k → y k = true) {i : ℕ}
    (hi : i / p % 2 = 0) :
    run (layer n p u e) y (i + u) = (y (i + u) && y (i + (u + p * (2 * e + 1)))) := by
  rcases Nat.lt_or_ge (i + (u + p * (2 * e + 1))) n with h | h
  · exact run_min (layer_apart hp) (mem_layer.mpr ⟨i, h, hi, rfl⟩) y
  · rw [hy _ h, Bool.and_true]
    refine run_of_not_mem ?_ y
    intro c hc
    obtain ⟨j, hlt, hj, rfl⟩ := mem_layer.mp hc
    have hne := even_class_ne (e := e) hp hj hi
    constructor <;> simp only [ne_eq] <;> omega

/-- What a layer leaves in the upper entry of a pair. -/
theorem layer_snd (hp : 0 < p) {y : ℕ → Bool} (hy : ∀ k, n ≤ k → y k = true) {i : ℕ}
    (hi : i / p % 2 = 0) :
    run (layer n p u e) y (i + (u + p * (2 * e + 1))) =
      (y (i + u) || y (i + (u + p * (2 * e + 1)))) := by
  rcases Nat.lt_or_ge (i + (u + p * (2 * e + 1))) n with h | h
  · have hpos : 0 < p * (2 * e + 1) := Nat.mul_pos hp (by omega)
    refine run_max (layer_apart hp) (mem_layer.mpr ⟨i, h, hi, rfl⟩) ?_ y
    simp only [ne_eq]
    omega
  · rw [hy _ h, Bool.or_true]
    refine (run_of_not_mem ?_ y).trans (hy _ h)
    intro c hc
    have hlt := layer_lt hc
    constructor <;> omega

end

/-- The members of the class of `r` modulo `s` are `c` zeros and then ones. -/
def Zeros (y : ℕ → Bool) (s r c : ℕ) : Prop := ∀ j, y (r + s * j) = false ↔ j < c

section

variable {n p r : ℕ} (hp : 0 < p) (hr : r < p) {y : ℕ → Bool} (hy : ∀ k, n ≤ k → y k = true)
  {a b : ℕ} (ha : Zeros y (2 * p) r a) (hb : Zeros y (2 * p) (r + p) b)

/-- The members of a class modulo `2 * p` below `p` lie in even classes of width `p`. -/
theorem even_class (hp : 0 < p) (hr : r < p) (j : ℕ) : (r + 2 * p * j) / p % 2 = 0 := by
  rw [show r + 2 * p * j = r + p * (2 * j) by ring, Nat.add_mul_div_left _ _ hp,
    Nat.div_eq_of_lt hr]
  omega

include hp hr hy ha hb

/-- The first layer of a stage moves the zeros of the odd members to the even ones. -/
theorem zeros_first : Zeros (run (layer n p 0 0) y) (2 * p) r (max a b) ∧
    Zeros (run (layer n p 0 0) y) (2 * p) (r + p) (min a b) := by
  constructor
  · intro j
    have hfst := layer_fst (u := 0) (e := 0) hp hy (even_class hp hr j)
    have hnext : r + 2 * p * j + (0 + p * (2 * 0 + 1)) = r + p + 2 * p * j := by ring
    rw [Nat.add_zero, hnext] at hfst
    rw [hfst, Bool.and_eq_false_iff, ha j, hb j, lt_max_iff]
  · intro j
    have hsnd := layer_snd (u := 0) (e := 0) hp hy (even_class hp hr j)
    have hnext : r + 2 * p * j + (0 + p * (2 * 0 + 1)) = r + p + 2 * p * j := by ring
    rw [hnext, Nat.add_zero] at hsnd
    rw [hsnd, Bool.or_eq_false_iff, ha j, hb j, lt_min_iff]

/-- A later layer compares an odd member with the even one `e + 1` places on. -/
theorem zeros_second (e : ℕ) :
    Zeros (run (layer n p p e) y) (2 * p) r (min a (b + (e + 1))) ∧
      Zeros (run (layer n p p e) y) (2 * p) (r + p) (max b (a - (e + 1))) := by
  have hnext (j : ℕ) : r + 2 * p * j + (p + p * (2 * e + 1)) = r + 2 * p * (j + (e + 1)) := by ring
  have hodd (j : ℕ) : r + 2 * p * j + p = r + p + 2 * p * j := by ring
  constructor
  · intro j
    rcases Nat.lt_or_ge j (e + 1) with hj | hj
    · -- the first members have no odd member before them to be compared with
      have hmul : 2 * p * (j + 1) ≤ 2 * p * (e + 1) := Nat.mul_le_mul_left _ hj
      have hstay : run (layer n p p e) y (r + 2 * p * j) = y (r + 2 * p * j) := by
        refine run_of_not_mem ?_ y
        intro c hc
        obtain ⟨i, -, hi, rfl⟩ := mem_layer.mp hc
        have hne := even_class_ne (e := 0) hp hi (even_class hp hr j)
        have hring : p + p * (2 * e + 1) = 2 * p * (e + 1) := by ring
        have hring' : 2 * p * (j + 1) = 2 * p * j + 2 * p := by ring
        constructor <;> simp only [ne_eq] <;> omega
      rw [hstay, ha j]
      omega
    · obtain ⟨i, rfl⟩ : ∃ i, j = i + (e + 1) := ⟨j - (e + 1), by omega⟩
      have hsnd := layer_snd (u := p) (e := e) hp hy (even_class hp hr i)
      rw [hnext, hodd] at hsnd
      rw [hsnd, Bool.or_eq_false_iff, hb i, ha (i + (e + 1))]
      omega
  · intro j
    have hfst := layer_fst (u := p) (e := e) hp hy (even_class hp hr j)
    rw [hnext, hodd] at hfst
    rw [hfst, Bool.and_eq_false_iff, hb j, ha (j + (e + 1))]
    omega

end

/-- Ones behind the entries stay there. -/
theorem run_layer_ge {n p u e : ℕ} {y : ℕ → Bool} (hy : ∀ k, n ≤ k → y k = true) :
    ∀ k, n ≤ k → run (layer n p u e) y k = true := by
  intro k hk
  refine (run_of_not_mem ?_ y).trans (hy k hk)
  intro c hc
  have hlt := layer_lt hc
  constructor <;> omega

/-- **The later layers of a stage** bring the zeros of the odd members within one of those of the
even ones, from within `2 ^ d` of them. -/
theorem zeros_secondPass {n p r : ℕ} (hp : 0 < p) (hr : r < p) (d : ℕ) {y : ℕ → Bool}
    (hy : ∀ k, n ≤ k → y k = true) {a b : ℕ} (ha : Zeros y (2 * p) r a)
    (hb : Zeros y (2 * p) (r + p) b) (hba : b ≤ a) (hab : a ≤ b + 2 ^ d) :
    ∃ a' b', Zeros (run (secondPass n p d) y) (2 * p) r a' ∧
      Zeros (run (secondPass n p d) y) (2 * p) (r + p) b' ∧ b' ≤ a' ∧ a' ≤ b' + 1 := by
  induction d generalizing y a b with
  | zero => exact ⟨a, b, ha, hb, hba, hab⟩
  | succ d ih =>
    have hpos : 0 < 2 ^ d := Nat.two_pow_pos d
    have hpow : 2 ^ (d + 1) = 2 * 2 ^ d := pow_succ' 2 d
    obtain ⟨ha', hb'⟩ := zeros_second hp hr hy ha hb (2 ^ d - 1)
    rw [secondPass, run_append]
    exact ih (run_layer_ge hy) ha' hb' (by omega) (by omega)

theorem run_secondPass_ge {n p : ℕ} (d : ℕ) {y : ℕ → Bool} (hy : ∀ k, n ≤ k → y k = true) :
    ∀ k, n ≤ k → run (secondPass n p d) y k = true := by
  induction d generalizing y with
  | zero => exact hy
  | succ d ih =>
    rw [secondPass, run_append]
    exact ih (run_layer_ge hy)

/-- Every class modulo `s` is in order. -/
def Ordered (y : ℕ → Bool) (s : ℕ) : Prop := ∀ r < s, ∃ c, Zeros y s r c

/-- **A stage** turns the order at distance `2 * p` into the order at distance `p`. -/
theorem ordered_stage {n p : ℕ} (hp : 0 < p) (d : ℕ) (hn : n ≤ 2 ^ d * (2 * p)) {y : ℕ → Bool}
    (hy : ∀ k, n ≤ k → y k = true) (h : Ordered y (2 * p)) : Ordered (run (stage n p d) y) p := by
  intro r hr
  obtain ⟨a, ha⟩ := h r (by omega)
  obtain ⟨b, hb⟩ := h (r + p) (by omega)
  obtain ⟨ha', hb'⟩ := zeros_first hp hr hy ha hb
  -- the zeros of the even members lie among the entries
  have hmax : max a b ≤ 2 ^ d := by
    by_contra hlt
    have hzero := (ha' (2 ^ d)).mpr (by omega)
    have hone := run_layer_ge (p := p) (u := 0) (e := 0) hy (r + 2 * p * 2 ^ d)
      (by rw [Nat.mul_comm (2 * p)]; omega)
    rw [hzero] at hone
    exact absurd hone (by decide)
  obtain ⟨a', b', ha'', hb'', hle, hge⟩ :=
    zeros_secondPass hp hr d (run_layer_ge hy) ha' hb' (by omega) (by omega)
  refine ⟨a' + b', fun j => ?_⟩
  rw [stage, run_append]
  rcases Nat.even_or_odd' j with ⟨i, rfl | rfl⟩
  · rw [show r + p * (2 * i) = r + 2 * p * i by ring, ha'' i]
    omega
  · rw [show r + p * (2 * i + 1) = r + p + 2 * p * i by ring, hb'' i]
    omega

theorem run_stage_ge {n p d : ℕ} {y : ℕ → Bool} (hy : ∀ k, n ≤ k → y k = true) :
    ∀ k, n ≤ k → run (stage n p d) y k = true := by
  rw [stage, run_append]
  exact run_secondPass_ge d (run_layer_ge hy)

theorem ordered_stages {n t k : ℕ} (hk : k ≤ t + 1) (hn : n ≤ 2 ^ (t + 1)) {y : ℕ → Bool}
    (hy : ∀ k, n ≤ k → y k = true) (h : Ordered y (2 ^ k)) : Ordered (run (stages n t k) y) 1 := by
  induction k generalizing y with
  | zero => exact h
  | succ k ih =>
    have hpow : 2 ^ (t + 1) = 2 ^ (t - k) * (2 * 2 ^ k) := by
      rw [← pow_succ', ← pow_add]
      congr 1
      omega
    rw [pow_succ'] at h
    rw [stages, run_append]
    exact ih (by omega) (run_stage_ge hy)
      (ordered_stage (Nat.two_pow_pos k) (t - k) (by rwa [← hpow]) hy h)

/-- On bits with ones behind them the network sorts. -/
theorem monotone_mergeExchange {n t : ℕ} (hn : n ≤ 2 ^ (t + 1)) {y : ℕ → Bool}
    (hy : ∀ k, n ≤ k → y k = true) : Monotone (run (mergeExchange n t) y) := by
  have hstart : Ordered y (2 ^ (t + 1)) := by
    intro r hr
    refine ⟨if y r = false then 1 else 0, fun j => ?_⟩
    rcases Nat.eq_zero_or_pos j with rfl | hj
    · split_ifs with h <;> simp [h]
    · have hmul : 2 ^ (t + 1) * 1 ≤ 2 ^ (t + 1) * j := Nat.mul_le_mul_left _ hj
      rw [hy _ (by omega)]
      split_ifs <;> simp only [false_iff] <;> omega
  obtain ⟨c, hc⟩ := ordered_stages (le_refl _) hn hy hstart 0 (by omega)
  intro i j hij
  have hi := hc i
  have hj := hc j
  rw [Nat.zero_add, Nat.one_mul] at hi hj
  by_cases h : j < c
  · rw [mergeExchange, hi.mpr (by omega)]
    exact Bool.false_le _
  · rw [mergeExchange, Bool.eq_true_of_not_eq_false (fun hfalse => h (hj.mp hfalse))]
    exact Bool.le_true _

theorem secondPass_lt {n p d : ℕ} {c : Comparator} (h : c ∈ secondPass n p d) :
    c.1 < n ∧ c.2 < n := by
  induction d with
  | zero => exact absurd h List.not_mem_nil
  | succ d ih =>
    rcases List.mem_append.mp h with h | h
    · exact layer_lt h
    · exact ih h

/-- The network stays among the first `n` entries. -/
theorem stages_lt {n t k : ℕ} {c : Comparator} (h : c ∈ stages n t k) : c.1 < n ∧ c.2 < n := by
  induction k with
  | zero => exact absurd h List.not_mem_nil
  | succ k ih =>
    rcases List.mem_append.mp h with h | h
    · rcases List.mem_append.mp h with h | h
      · exact layer_lt h
      · exact secondPass_lt h
    · exact ih h

/-- **Merge exchange sorts** any `n` entries, for every `n` up to `2 ^ (t + 1)`. -/
theorem mergeExchange_sorts {n t : ℕ} (hn : n ≤ 2 ^ (t + 1)) (x : ℕ → α) {i j : ℕ} (hij : i ≤ j)
    (hj : j < n) : run (mergeExchange n t) x i ≤ run (mergeExchange n t) x j :=
  run_le_run_of_bits (fun _ hc => stages_lt hc) (fun _ hy => monotone_mergeExchange hn hy) x hij hj

end SortingNetwork
end Glossh
