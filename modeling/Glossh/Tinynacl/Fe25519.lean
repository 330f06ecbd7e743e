/-
# `fe.c` and `fe25519.c`: arithmetic modulo `2 ^ 255 - 19`

A field element is an array of eight 32-bit words.  The words may spell any number: no function
asks for a reduced argument, and each leaves less than `2 p`.  Five of the functions end in the
same two loops, which carry eight sums down the array, fold what lies above `2 ^ 255` back in
nineteen times, and carry once more: `reduceSums`, with `val_reduceSums`.

* `toF_mul` to `toF_sub`: the operations are those of the integers modulo `p`, on all arrays;
* `val_lt`: their results are below `2 p`, so that the one subtraction of `fe25519_tobytes` makes
  them canonical (`fe25519Tobytes_eq`);
* `toF_inv`, `toF_pow22523`: the chains of squarings compute `z ^ (p - 2)` and
  `z ^ ((p - 5) / 8)`.
-/
import Glossh.Lib.WordArray
import Glossh.Lib.Rfc7748
import Glossh.Mtls.Aead
import Glossh.Mtls.TinynaclChacha20
import Mathlib.Tactic.Ring

namespace Glossh.Tinynacl

open Bytes WordArray Rfc7748

/-! ## 1. The functions of `fe.c` -/

/-- `fe`: eight words. -/
abbrev Fe := Vector UInt32 8

/-- Eight words stored in an array. -/
def feOf (l : List UInt32) : Fe := Vector.ofFn fun i => l.getD i.val 0

/-- `fe_0`. -/
def fe0 : Fe := Vector.replicate 8 0

/-- `fe_1`. -/
def fe1 : Fe := feOf [1]

/-- `fe_cswap`: both arrays after it. -/
def feCswap (f g : Fe) (b : UInt32) : Fe × Fe :=
  let b := -b
  let t := Vector.zipWith (fun f g => b &&& (f ^^^ g)) f g
  (Vector.zipWith (· ^^^ ·) f t, Vector.zipWith (· ^^^ ·) g t)

/-- The macro `M` of `fe_mul_`. -/
def macroM (a b : Fe) (o : List UInt64) (ij : Fin 8 × Fin 8) : List UInt64 :=
  let u := a[ij.1].toUInt64 * b[ij.2].toUInt64
  addTo (addTo o (ij.1.val + ij.2.val) (u &&& 0xffffffff)) (ij.1.val + ij.2.val + 1) (u >>> 32)

/-- `fe_mul_`: the sixteen sums of `fel`, by the 64 lines `M(i, j)` in order. -/
def feMulSums (a b : Fe) : List UInt64 :=
  ((List.finRange 8).flatMap fun i => (List.finRange 8).map fun j => (i, j)).foldl (macroM a b)
    (List.replicate 16 0)

/-- The macro `M2` of `fe_sq_`. -/
def macroM2 (a : Fe) (o : List UInt64) (ij : Fin 8 × Fin 8) : List UInt64 :=
  let u := a[ij.1].toUInt64 * a[ij.2].toUInt64
  addTo (addTo o (ij.1.val + ij.2.val) ((2 : UInt64) * (u &&& 0xffffffff)))
    (ij.1.val + ij.2.val + 1) ((2 : UInt64) * (u >>> 32))

/-- The macro `SQ` of `fe_sq_`. -/
def macroSQ (a : Fe) (o : List UInt64) (i : Fin 8) : List UInt64 :=
  let u := a[i].toUInt64 * a[i].toUInt64
  addTo (addTo o (2 * i.val) (u &&& 0xffffffff)) (2 * i.val + 1) (u >>> 32)

/-- `fe_sq_`: the 28 lines `M2(i, j)` with `i < j` in order, then the eight lines `SQ(i)`. -/
def feSqSums (a : Fe) : List UInt64 :=
  let o := ((List.finRange 8).flatMap fun i =>
    ((List.finRange 8).filter fun j => i < j).map fun j => (i, j)).foldl (macroM2 a)
      (List.replicate 16 0)
  (List.finRange 8).foldl (macroSQ a) o

/-- `fe_reducesmall`: the array `r` after it. -/
def feReducesmall (r p : Fe) (carry : UInt64) : Fe :=
  let t := borrowChain (r.toList.zip p.toList) 0
  let b := (carry - t.2) >>> 63
  let b := b - 1
  Vector.zipWith (fun r t => r ^^^ (b.toUInt32 &&& (r ^^^ t))) r (feOf t.1)

/-! ## 2. The functions of `fe25519.c` -/

/-- `p = 2^255 - 19`. -/
def feP : Fe := #v[0xffffffed, 0xffffffff, 0xffffffff, 0xffffffff,
  0xffffffff, 0xffffffff, 0xffffffff, 0x7fffffff]

/-- `p3 = 3 * p`. -/
def p3 : List UInt64 := [0x2ffffffc7, 0x2fffffffd, 0x2fffffffd, 0x2fffffffd,
  0x2fffffffd, 0x2fffffffd, 0x2fffffffd, 0x17ffffffd]

/-- The loops that five of the functions end in, on the eight sums `v`. -/
def reduceSums (v : List UInt64) : Fe :=
  let r := carryChain (v.take 7) 0
  let u := r.2 + v.getD 7 0
  let o := r.1 ++ [(u &&& 0x7fffffff).toUInt32]
  let u := (u >>> 31) * 19
  feOf (carryChain (o.map UInt32.toUInt64) u).1

/-- `fe25519_reducebig`. -/
def fe25519Reducebig (t : List UInt64) : Fe :=
  reduceSums (List.zipWith (fun lo hi => lo + 38 * hi) (t.take 8) (t.drop 8))

/-- `fe25519_mul`. -/
def fe25519Mul (a b : Fe) : Fe := fe25519Reducebig (feMulSums a b)

/-- `fe25519_sq`. -/
def fe25519Sq (a : Fe) : Fe := fe25519Reducebig (feSqSums a)

/-- `fe25519_mul121666`. -/
def fe25519Mul121666 (f : Fe) : Fe := reduceSums (f.toList.map fun f => 121666 * f.toUInt64)

/-- `fe25519_add`. -/
def fe25519Add (x y : Fe) : Fe :=
  reduceSums (List.zipWith (fun x y => x.toUInt64 + y.toUInt64) x.toList y.toList)

/-- `fe25519_sub`. -/
def fe25519Sub (x y : Fe) : Fe :=
  reduceSums (List.zipWith (fun (p : UInt64) (xy : UInt32 × UInt32) =>
    p - xy.2.toUInt64 + xy.1.toUInt64) p3 (x.toList.zip y.toList))

/-- `fe25519_neg`. -/
def fe25519Neg (x : Fe) : Fe := fe25519Sub fe0 x

/-- `fe25519_sq(t, x); for (i = 1; i < n; ++i) fe25519_sq(t, t);` -/
def sqTimes (n : ℕ) (x : Fe) : Fe := fe25519Sq^[n] x

/-- `fe25519_inv`. -/
def fe25519Inv (z : Fe) : Fe :=
  let t0 := sqTimes 1 z
  let t1 := sqTimes 2 t0
  let t1 := fe25519Mul z t1
  let t0 := fe25519Mul t0 t1
  let t2 := sqTimes 1 t0
  let t1 := fe25519Mul t1 t2
  let t2 := sqTimes 5 t1
  let t1 := fe25519Mul t2 t1
  let t2 := sqTimes 10 t1
  let t2 := fe25519Mul t2 t1
  let t3 := sqTimes 20 t2
  let t2 := fe25519Mul t3 t2
  let t2 := sqTimes 10 t2
  let t1 := fe25519Mul t2 t1
  let t2 := sqTimes 50 t1
  let t2 := fe25519Mul t2 t1
  let t3 := sqTimes 100 t2
  let t2 := fe25519Mul t3 t2
  let t2 := sqTimes 50 t2
  let t1 := fe25519Mul t2 t1
  let t1 := sqTimes 5 t1
  fe25519Mul t1 t0

/-- `fe25519_pow22523`. -/
def fe25519Pow22523 (z : Fe) : Fe :=
  let t0 := sqTimes 1 z
  let t1 := sqTimes 2 t0
  let t1 := fe25519Mul z t1
  let t0 := fe25519Mul t0 t1
  let t0 := sqTimes 1 t0
  let t0 := fe25519Mul t1 t0
  let t1 := sqTimes 5 t0
  let t0 := fe25519Mul t1 t0
  let t1 := sqTimes 10 t0
  let t1 := fe25519Mul t1 t0
  let t2 := sqTimes 20 t1
  let t1 := fe25519Mul t2 t1
  let t1 := sqTimes 10 t1
  let t0 := fe25519Mul t1 t0
  let t1 := sqTimes 50 t0
  let t1 := fe25519Mul t1 t0
  let t2 := sqTimes 100 t1
  let t1 := fe25519Mul t2 t1
  let t1 := sqTimes 50 t1
  let t0 := fe25519Mul t1 t0
  let t0 := sqTimes 2 t0
  fe25519Mul t0 z

/-- `fe25519_tobytes`: the 32 bytes of `out`. -/
def fe25519Tobytes (x : Fe) : Bytes := (feReducesmall x feP 0).toList.flatMap Mtls.pack32

/-- `fe25519_frombytes`. -/
def fe25519Frombytes (s : Bytes) : Fe :=
  let out := feOf ((List.range 8).map fun i => Mtls.unpack32 (s.drop (4 * i)))
  out.set 7 (out[7] &&& 0x7fffffff)

/-- `fe25519_isnonzero`: 0 when the element is zero. -/
def fe25519Isnonzero (f : Fe) : UInt32 :=
  Mtls.verify (toVector 32 (fe25519Tobytes f)) (Vector.replicate 32 0)

/-- `fe25519_isnegative`: the low bit of the encoding. -/
def fe25519Isnegative (f : Fe) : UInt8 := (fe25519Tobytes f).getD 0 0 &&& 1

/-! ## 3. The number in an array, and its residue -/

/-- The number in an array. -/
def Fe.val (a : Fe) : ℕ := val32 a.toList

/-- The field element an array stands for. -/
def Fe.toF (a : Fe) : F := (a.val : F)

theorem toList_feOf {l : List UInt32} (h : l.length = 8) : (feOf l).toList = l := by
  refine List.ext_getElem (by rw [Vector.length_toList, h]) ?_
  intro i hi hi'
  simp only [feOf, Vector.getElem_toList, Vector.getElem_ofFn]
  exact List.getD_eq_getElem l 0 hi'

theorem val_feOf {l : List UInt32} (h : l.length = 8) : (feOf l).val = val32 l := by
  rw [Fe.val, toList_feOf h]

/-- The powers of two that a carry folds back. -/
theorem two_pow_255 : ((2 ^ 255 : ℕ) : F) = 19 := by
  have h : (2 ^ 255 : ℕ) = p + 19 := by norm_num [p]
  rw [h, Nat.cast_add, ZMod.natCast_self, zero_add]
  rfl

theorem two_pow_256 : ((2 ^ 256 : ℕ) : F) = 38 := by
  rw [pow_succ, Nat.cast_mul, two_pow_255]
  norm_num

/-- A carry out of a chain is a shifted word. -/
theorem carryChain_snd_lt (vs : List UInt64) {u : UInt64} (hu : u.toNat < 2 ^ 32) :
    (carryChain vs u).2.toNat < 2 ^ 32 := by
  induction vs generalizing u with
  | nil => exact hu
  | cons v vs ih =>
    have hlt : (u + v).toNat < 2 ^ 64 := (u + v).toNat_lt
    refine ih ?_
    rw [toNat_shiftRight_32]
    omega

/-- **The two loops reduce the sums**: what lies above `2 ^ 255` is folded back in, and nothing is
lost on the way. -/
theorem val_reduceSums {v : List UInt64} (hlen : v.length = 8) (hv : ∀ x ∈ v, x.toNat < 2 ^ 50) :
    (reduceSums v).val = val64 v % 2 ^ 255 + 19 * (val64 v / 2 ^ 255) ∧
      (reduceSums v).val < 2 ^ 255 + 2 ^ 26 := by
  have htake : (v.take 7).length = 7 := by rw [List.length_take, hlen]; rfl
  have hlast : (v.getD 7 0).toNat < 2 ^ 50 := by
    rw [List.getD_eq_getElem v 0 (by omega)]
    exact hv _ (List.getElem_mem _)
  have hsplit : val64 v = val64 (v.take 7) + 2 ^ 224 * (v.getD 7 0).toNat := by
    have happ : v = v.take 7 ++ [v.getD 7 0] := by
      rw [List.getD_eq_getElem v 0 (by omega), List.take_append_getElem, List.take_of_length_le]
      omega
    conv_lhs => rw [happ]
    rw [val64_append, htake, val64_cons, val64_nil]
    norm_num
  have hfirst := val32_carryChain (l := v.take 7) (u := 0)
    (fun x hx => (hv x (List.mem_of_mem_take hx)).trans (by decide)) (by decide)
  have hlow := val32_lt (carryChain (v.take 7) 0).1
  have hcarry := carryChain_snd_lt (v.take 7) (u := 0) (by decide)
  have hwords := length_carryChain (v.take 7) 0
  simp only [reduceSums]
  generalize carryChain (v.take 7) 0 = r at hfirst hlow hcarry hwords ⊢
  rw [htake] at hfirst hwords
  rw [hwords] at hlow
  have hu : (r.2 + v.getD 7 0).toNat = r.2.toNat + (v.getD 7 0).toNat := by
    rw [UInt64.toNat_add]
    exact Nat.mod_eq_of_lt (by omega)
  generalize r.2 + v.getD 7 0 = u at hu ⊢
  have htop : (u &&& 0x7fffffff).toUInt32.toNat = u.toNat % 2 ^ 31 := by
    have hand : (u &&& 0x7fffffff).toNat = u.toNat % 2 ^ 31 := by
      rw [UInt64.toNat_and]
      exact Nat.and_two_pow_sub_one_eq_mod u.toNat 31
    rw [UInt64.toNat_toUInt32, hand]
    omega
  have hback : ((u >>> 31) * 19).toNat = 19 * (u.toNat / 2 ^ 31) := by
    have hshift : (u >>> 31).toNat = u.toNat / 2 ^ 31 := by
      rw [UInt64.toNat_shiftRight]
      exact Nat.shiftRight_eq_div_pow u.toNat 31
    rw [UInt64.toNat_mul, hshift, show (19 : UInt64).toNat = 19 from rfl]
    omega
  have hword (l : List UInt32) : ∀ x ∈ l.map UInt32.toUInt64, x.toNat < 2 ^ 62 := by
    intro x hx
    obtain ⟨y, -, rfl⟩ := List.mem_map.mp hx
    have hy : y.toNat < 2 ^ 32 := y.toNat_lt
    rw [UInt32.toNat_toUInt64]
    omega
  have hsecond := val32_carryChain (hword (r.1 ++ [(u &&& 0x7fffffff).toUInt32]))
    (u := (u >>> 31) * 19) (by rw [hback]; omega)
  have hout : ((r.1 ++ [(u &&& 0x7fffffff).toUInt32]).map UInt32.toUInt64).length = 8 := by
    rw [List.length_map, List.length_append, hwords, List.length_singleton]
  rw [val_feOf (by rw [length_carryChain, hout])]
  rw [hout, val64_map_toUInt64, val32_append, hwords, val32_cons, val32_nil, htop, hback] at hsecond
  rw [UInt64.toNat_zero] at hfirst
  generalize val32 r.1 = x at hfirst hlow hsecond
  generalize val64 (v.take 7) = y at hfirst hsplit
  generalize val64 v = z at hsplit ⊢
  generalize val32 _ = t at hsecond ⊢
  generalize (carryChain _ _).2.toNat = c at hsecond
  norm_num only [Nat.reduceMul] at hfirst hlow hsecond
  have hdiv : z / 2 ^ 255 = u.toNat / 2 ^ 31 := by omega
  have hmod : z % 2 ^ 255 = x + 2 ^ 224 * (u.toNat % 2 ^ 31) := by omega
  rw [hdiv, hmod]
  omega

/-- The same in the field. -/
theorem toF_reduceSums {v : List UInt64} (hlen : v.length = 8) (hv : ∀ x ∈ v, x.toNat < 2 ^ 50) :
    (reduceSums v).toF = (val64 v : F) := by
  have hsplit : val64 v = val64 v % 2 ^ 255 + 2 ^ 255 * (val64 v / 2 ^ 255) :=
    (Nat.mod_add_div _ _).symm
  rw [Fe.toF, (val_reduceSums hlen hv).1]
  conv_rhs => rw [hsplit]
  rw [Nat.cast_add, Nat.cast_add, Nat.cast_mul, Nat.cast_mul, two_pow_255]
  norm_num

/-! ## 4. The operations -/

/-- Sums of words. -/
theorem sums_add {l m : List UInt32} (h : l.length = m.length) :
    val64 (List.zipWith (fun x y => x.toUInt64 + y.toUInt64) l m) = val32 l + val32 m ∧
      ∀ v ∈ List.zipWith (fun x y => x.toUInt64 + y.toUInt64) l m, v.toNat < 2 ^ 50 := by
  induction l generalizing m with
  | nil => rw [List.length_eq_zero_iff.mp h.symm]; simp
  | cons x l ih =>
    cases m with
    | nil => exact absurd h (Nat.succ_ne_zero _)
    | cons y m =>
      have hx : x.toNat < 2 ^ 32 := x.toNat_lt
      have hy : y.toNat < 2 ^ 32 := y.toNat_lt
      obtain ⟨hval, hlt⟩ := ih (Nat.succ.inj h)
      have hsum : (x.toUInt64 + y.toUInt64).toNat = x.toNat + y.toNat := by
        rw [UInt64.toNat_add, UInt32.toNat_toUInt64, UInt32.toNat_toUInt64]
        omega
      rw [List.zipWith_cons_cons]
      refine ⟨?_, List.forall_mem_cons.mpr ⟨by omega, hlt⟩⟩
      rw [val64_cons, val32_cons, val32_cons, hval, hsum]
      omega

/-- Differences of words, each raised so that it stays positive. -/
theorem sums_sub {q : List UInt64} {l m : List UInt32} (hl : q.length = l.length)
    (hm : q.length = m.length) (hq : ∀ v ∈ q, 2 ^ 32 ≤ v.toNat ∧ v.toNat < 2 ^ 40) :
    val64 (List.zipWith (fun (p : UInt64) (xy : UInt32 × UInt32) =>
        p - xy.2.toUInt64 + xy.1.toUInt64) q (l.zip m)) + val32 m = val64 q + val32 l ∧
      ∀ v ∈ List.zipWith (fun (p : UInt64) (xy : UInt32 × UInt32) =>
        p - xy.2.toUInt64 + xy.1.toUInt64) q (l.zip m), v.toNat < 2 ^ 50 := by
  induction q generalizing l m with
  | nil =>
    rw [List.length_eq_zero_iff.mp hl.symm, List.length_eq_zero_iff.mp hm.symm]
    simp
  | cons p q ih =>
    cases l with
    | nil => exact absurd hl (Nat.succ_ne_zero _)
    | cons x l =>
      cases m with
      | nil => exact absurd hm (Nat.succ_ne_zero _)
      | cons y m =>
        have hx : x.toNat < 2 ^ 32 := x.toNat_lt
        have hy : y.toNat < 2 ^ 32 := y.toNat_lt
        obtain ⟨hp, hp'⟩ := hq p List.mem_cons_self
        obtain ⟨hval, hlt⟩ := ih (Nat.succ.inj hl) (Nat.succ.inj hm)
          fun v hv => hq v (List.mem_cons_of_mem p hv)
        have hsum : (p - y.toUInt64 + x.toUInt64).toNat = p.toNat - y.toNat + x.toNat := by
          rw [UInt64.toNat_add, UInt64.toNat_sub, UInt32.toNat_toUInt64, UInt32.toNat_toUInt64]
          omega
        rw [List.zip_cons_cons, List.zipWith_cons_cons]
        refine ⟨?_, List.forall_mem_cons.mpr ⟨by rw [hsum]; omega, hlt⟩⟩
        rw [val64_cons, val32_cons, val32_cons, val64_cons, hsum]
        omega

/-- Multiples of words. -/
theorem sums_mul121666 (l : List UInt32) :
    val64 (l.map fun f => 121666 * f.toUInt64) = 121666 * val32 l ∧
      ∀ v ∈ l.map fun f => 121666 * f.toUInt64, v.toNat < 2 ^ 50 := by
  induction l with
  | nil => simp
  | cons x l ih =>
    have hx : x.toNat < 2 ^ 32 := x.toNat_lt
    obtain ⟨hval, hlt⟩ := ih
    have hmul : (121666 * x.toUInt64).toNat = 121666 * x.toNat := by
      rw [UInt64.toNat_mul, UInt32.toNat_toUInt64, show (121666 : UInt64).toNat = 121666 from rfl]
      omega
    rw [List.map_cons]
    refine ⟨?_, List.forall_mem_cons.mpr ⟨by rw [hmul]; omega, hlt⟩⟩
    rw [val64_cons, val32_cons, hval, hmul]
    omega

/-- Low sums with the high ones folded in. -/
theorem sums_fold (lo hi : List UInt64) (h : lo.length = hi.length)
    (hlo : ∀ v ∈ lo, v.toNat ≤ 2 ^ 40) (hhi : ∀ v ∈ hi, v.toNat ≤ 2 ^ 40) :
    val64 (List.zipWith (fun lo hi => lo + 38 * hi) lo hi) = val64 lo + 38 * val64 hi ∧
      ∀ v ∈ List.zipWith (fun lo hi => lo + 38 * hi) lo hi, v.toNat < 2 ^ 50 := by
  induction lo generalizing hi with
  | nil => rw [List.length_eq_zero_iff.mp h.symm]; simp
  | cons x lo ih =>
    cases hi with
    | nil => exact absurd h (Nat.succ_ne_zero _)
    | cons y hi =>
      have hx := hlo x List.mem_cons_self
      have hy := hhi y List.mem_cons_self
      obtain ⟨hval, hlt⟩ := ih hi (Nat.succ.inj h)
        (fun v hv => hlo v (List.mem_cons_of_mem x hv))
        fun v hv => hhi v (List.mem_cons_of_mem y hv)
      have hsum : (x + 38 * y).toNat = x.toNat + 38 * y.toNat := by
        rw [UInt64.toNat_add, UInt64.toNat_mul, show (38 : UInt64).toNat = 38 from rfl]
        omega
      rw [List.zipWith_cons_cons]
      refine ⟨?_, List.forall_mem_cons.mpr ⟨by rw [hsum]; omega, hlt⟩⟩
      rw [val64_cons, val64_cons, val64_cons, hval, hsum]
      omega

theorem toF_add (x y : Fe) : (fe25519Add x y).toF = x.toF + y.toF := by
  obtain ⟨hval, hlt⟩ := sums_add (l := x.toList) (m := y.toList) (by simp)
  rw [fe25519Add, toF_reduceSums (by simp) hlt, hval, Nat.cast_add]
  rfl

theorem p3_spec : val64 p3 = 3 * p ∧ ∀ v ∈ p3, 2 ^ 32 ≤ v.toNat ∧ v.toNat < 2 ^ 40 := by
  constructor
  · decide
  · simp [p3]

theorem toF_sub (x y : Fe) : (fe25519Sub x y).toF = x.toF - y.toF := by
  obtain ⟨hp, hbound⟩ := p3_spec
  obtain ⟨hval, hlt⟩ := sums_sub (q := p3) (l := x.toList) (m := y.toList) (by simp [p3])
    (by simp [p3]) hbound
  have hcast := congrArg (Nat.cast (R := F)) hval
  rw [hp, Nat.cast_add, Nat.cast_add, Nat.cast_mul, ZMod.natCast_self, mul_zero, zero_add] at hcast
  rw [fe25519Sub, toF_reduceSums (by simp [p3]) hlt]
  exact eq_sub_of_add_eq hcast

theorem toF_neg (x : Fe) : (fe25519Neg x).toF = -x.toF := by
  have hzero : fe0.toF = 0 := by
    have hval : fe0.val = 0 := by decide
    rw [Fe.toF, hval, Nat.cast_zero]
  rw [fe25519Neg, toF_sub, hzero, zero_sub]

theorem toF_mul121666 (f : Fe) : (fe25519Mul121666 f).toF = 121666 * f.toF := by
  obtain ⟨hval, hlt⟩ := sums_mul121666 f.toList
  rw [fe25519Mul121666, toF_reduceSums (by simp) hlt, hval, Nat.cast_mul]
  rfl

/-- **Sixteen sums are folded to eight words.** -/
theorem toF_reducebig {t : List UInt64} (hlen : t.length = 16) (ht : AtMost (2 ^ 40) t) :
    (fe25519Reducebig t).toF = (val64 t : F) := by
  have hlo : (t.take 8).length = 8 := by rw [List.length_take, hlen]; rfl
  have hhi : (t.drop 8).length = 8 := by rw [List.length_drop, hlen]
  obtain ⟨hval, hlt⟩ := sums_fold (t.take 8) (t.drop 8) (by rw [hlo, hhi])
    (fun v hv => ht v (List.mem_of_mem_take hv)) fun v hv => ht v (List.mem_of_mem_drop hv)
  have hsplit : val64 t = val64 (t.take 8) + 2 ^ 256 * val64 (t.drop 8) := by
    have happ := val64_append (t.take 8) (t.drop 8)
    rwa [List.take_append_drop, hlo] at happ
  rw [fe25519Reducebig, toF_reduceSums (by rw [List.length_zipWith, hlo, hhi]; rfl) hlt, hval,
    hsplit, Nat.cast_add, Nat.cast_add, Nat.cast_mul, Nat.cast_mul, two_pow_256]
  rfl

/-! ## 5. Products -/

/-- The two halves of a product, each added in its place. -/
theorem addTo_halves {o : List UInt64} (hlen : o.length = 16) {b : ℕ} (ho : AtMost b o)
    (hb : b ≤ 2 ^ 40) {k : ℕ} (hk : k + 1 < 16) (lo hi : UInt64) (hlo : lo.toNat ≤ 2 ^ 33)
    (hhi : hi.toNat ≤ 2 ^ 33) :
    (addTo (addTo o k lo) (k + 1) hi).length = 16 ∧
      AtMost (b + 2 ^ 34) (addTo (addTo o k lo) (k + 1) hi) ∧
      val64 (addTo (addTo o k lo) (k + 1) hi) =
        val64 o + 2 ^ (32 * k) * (lo.toNat + 2 ^ 32 * hi.toNat) := by
  have hfirst := val64_addTo (k := k) (by omega) ho hlo (by omega)
  have hbound := atMost_addTo k ho hlo
  have hsecond := val64_addTo (k := k + 1) (by rw [length_addTo]; omega) hbound hhi (by omega)
  have hbound' := atMost_addTo (k + 1) hbound hhi
  rw [show b + 2 ^ 33 + 2 ^ 33 = b + 2 ^ 34 by omega] at hbound'
  have hpow : 2 ^ (32 * (k + 1)) = 2 ^ (32 * k) * 2 ^ 32 := by rw [Nat.mul_add, pow_add]
  refine ⟨by rw [length_addTo, length_addTo, hlen], hbound', ?_⟩
  rw [hsecond, hfirst, hpow, Nat.mul_assoc, Nat.add_assoc, ← Nat.mul_add]

/-- **A run of such additions** adds up what each adds. -/
theorem foldl_addTo {ι : Type} {g : List UInt64 → ι → List UInt64} {w : ι → ℕ}
    (hg : ∀ o b i, o.length = 16 → AtMost b o → b ≤ 2 ^ 40 →
      (g o i).length = 16 ∧ AtMost (b + 2 ^ 34) (g o i) ∧ val64 (g o i) = val64 o + w i)
    (is : List ι) {o : List UInt64} {b : ℕ} (hlen : o.length = 16) (ho : AtMost b o)
    (hb : b + 2 ^ 34 * is.length ≤ 2 ^ 40) :
    (is.foldl g o).length = 16 ∧ AtMost (b + 2 ^ 34 * is.length) (is.foldl g o) ∧
      val64 (is.foldl g o) = val64 o + (is.map w).sum := by
  induction is generalizing o b with
  | nil => exact ⟨hlen, ho, rfl⟩
  | cons i is ih =>
    rw [List.length_cons] at hb ⊢
    obtain ⟨hlen', ho', hval⟩ := hg o b i hlen ho (by omega)
    obtain ⟨hlen'', ho'', hval'⟩ := ih hlen' ho' (by omega)
    have hbound : b + 2 ^ 34 + 2 ^ 34 * is.length = b + 2 ^ 34 * (is.length + 1) := by ring
    rw [hbound] at ho''
    refine ⟨hlen'', ho'', ?_⟩
    rw [List.foldl_cons, hval', hval, List.map_cons, List.sum_cons, Nat.add_assoc]

/-- The halves of a product of words. -/
theorem halves (x y : UInt32) :
    (x.toUInt64 * y.toUInt64 &&& 0xffffffff).toNat = x.toNat * y.toNat % 2 ^ 32 ∧
      ((x.toUInt64 * y.toUInt64) >>> 32).toNat = x.toNat * y.toNat / 2 ^ 32 ∧
      x.toNat * y.toNat / 2 ^ 32 < 2 ^ 32 := by
  have hx : x.toNat ≤ 2 ^ 32 - 1 := Nat.le_sub_one_of_lt x.toNat_lt
  have hy : y.toNat ≤ 2 ^ 32 - 1 := Nat.le_sub_one_of_lt y.toNat_lt
  have hle : x.toNat * y.toNat ≤ (2 ^ 32 - 1) * (2 ^ 32 - 1) := Nat.mul_le_mul hx hy
  have hmul : (x.toUInt64 * y.toUInt64).toNat = x.toNat * y.toNat := by
    rw [UInt64.toNat_mul, UInt32.toNat_toUInt64, UInt32.toNat_toUInt64]
    omega
  refine ⟨?_, ?_, by omega⟩
  · rw [UInt64.toNat_and, hmul]
    exact Nat.and_two_pow_sub_one_eq_mod _ 32
  · rw [toNat_shiftRight_32, hmul]

/-- A line `M(i, j)` adds the product of two words. -/
theorem macroM_spec (a b : Fe) (o : List UInt64) (c : ℕ) (ij : Fin 8 × Fin 8)
    (hlen : o.length = 16) (ho : AtMost c o) (hc : c ≤ 2 ^ 40) :
    (macroM a b o ij).length = 16 ∧ AtMost (c + 2 ^ 34) (macroM a b o ij) ∧
      val64 (macroM a b o ij) = val64 o + 2 ^ (32 * (ij.1.val + ij.2.val)) *
        (a[ij.1].toNat * b[ij.2].toNat) := by
  obtain ⟨hlo, hhi, hlt⟩ := halves a[ij.1] b[ij.2]
  have hi := ij.1.isLt
  have hj := ij.2.isLt
  obtain ⟨h1, h2, h3⟩ := addTo_halves hlen ho hc (k := ij.1.val + ij.2.val) (by omega)
    (a[ij.1].toUInt64 * b[ij.2].toUInt64 &&& 0xffffffff)
    ((a[ij.1].toUInt64 * b[ij.2].toUInt64) >>> 32) (by rw [hlo]; omega) (by rw [hhi]; omega)
  refine ⟨h1, h2, h3.trans ?_⟩
  rw [hlo, hhi, Nat.mod_add_div]

theorem toNat_two_mul {u : UInt64} (h : u.toNat < 2 ^ 63) :
    ((2 : UInt64) * u).toNat = 2 * u.toNat := by
  rw [UInt64.toNat_mul, show (2 : UInt64).toNat = 2 from rfl]
  omega

/-- A line `M2(i, j)` adds it twice. -/
theorem macroM2_spec (a : Fe) (o : List UInt64) (c : ℕ) (ij : Fin 8 × Fin 8)
    (hlen : o.length = 16) (ho : AtMost c o) (hc : c ≤ 2 ^ 40) :
    (macroM2 a o ij).length = 16 ∧ AtMost (c + 2 ^ 34) (macroM2 a o ij) ∧
      val64 (macroM2 a o ij) = val64 o + 2 ^ (32 * (ij.1.val + ij.2.val)) *
        (2 * (a[ij.1].toNat * a[ij.2].toNat)) := by
  obtain ⟨hlo, hhi, hlt⟩ := halves a[ij.1] a[ij.2]
  have hi := ij.1.isLt
  have hj := ij.2.isLt
  have hlo2 := toNat_two_mul (u := a[ij.1].toUInt64 * a[ij.2].toUInt64 &&& 0xffffffff)
    (by rw [hlo]; omega)
  have hhi2 := toNat_two_mul (u := (a[ij.1].toUInt64 * a[ij.2].toUInt64) >>> 32)
    (by rw [hhi]; omega)
  rw [hlo] at hlo2
  rw [hhi] at hhi2
  obtain ⟨h1, h2, h3⟩ := addTo_halves hlen ho hc (k := ij.1.val + ij.2.val) (by omega)
    ((2 : UInt64) * (a[ij.1].toUInt64 * a[ij.2].toUInt64 &&& 0xffffffff))
    ((2 : UInt64) * ((a[ij.1].toUInt64 * a[ij.2].toUInt64) >>> 32)) (by rw [hlo2]; omega)
    (by rw [hhi2]; omega)
  refine ⟨h1, h2, h3.trans ?_⟩
  rw [hlo2, hhi2, Nat.mul_left_comm (2 ^ 32) 2, ← Nat.mul_add, Nat.mod_add_div]

/-- A line `SQ(i)` adds a square. -/
theorem macroSQ_spec (a : Fe) (o : List UInt64) (c : ℕ) (i : Fin 8) (hlen : o.length = 16)
    (ho : AtMost c o) (hc : c ≤ 2 ^ 40) :
    (macroSQ a o i).length = 16 ∧ AtMost (c + 2 ^ 34) (macroSQ a o i) ∧
      val64 (macroSQ a o i) = val64 o + 2 ^ (32 * (2 * i.val)) * (a[i].toNat * a[i].toNat) := by
  obtain ⟨hlo, hhi, hlt⟩ := halves a[i] a[i]
  have hi := i.isLt
  obtain ⟨h1, h2, h3⟩ := addTo_halves hlen ho hc (k := 2 * i.val) (by omega)
    (a[i].toUInt64 * a[i].toUInt64 &&& 0xffffffff) ((a[i].toUInt64 * a[i].toUInt64) >>> 32)
    (by rw [hlo]; omega) (by rw [hhi]; omega)
  refine ⟨h1, h2, h3.trans ?_⟩
  rw [hlo, hhi, Nat.mod_add_div]

/-- The number in an array, by its words. -/
theorem Fe.val_eq_sum (a : Fe) :
    a.val = ((List.finRange 8).map fun i => 2 ^ (32 * i.val) * a[i].toNat).sum := by
  have hall : ∀ n ≤ 8, val32 (a.toList.take n) =
      (((List.finRange 8).take n).map fun i => 2 ^ (32 * i.val) * a[i].toNat).sum := by
    intro n hn
    induction n with
    | zero => rfl
    | succ n ih =>
      have hlen : n < a.toList.length := by rw [Vector.length_toList]; omega
      have hlen' : n < (List.finRange 8).length := by rw [List.length_finRange]; omega
      have htake : (a.toList.take n).length = n := by rw [List.length_take]; omega
      rw [← List.take_append_getElem hlen, ← List.take_append_getElem hlen', val32_append, htake,
        ih (by omega), List.map_append, List.sum_append, List.map_singleton, List.sum_singleton,
        val32_cons, val32_nil, Nat.mul_zero, Nat.add_zero]
      simp
  have h := hall 8 (le_refl 8)
  rwa [List.take_of_length_le (by rw [Vector.length_toList]),
    List.take_of_length_le (by rw [List.length_finRange])] at h

/-- The products of all pairs. -/
theorem sum_pairs (x y : Fin 8 → ℕ) :
    (((List.finRange 8).flatMap fun i => (List.finRange 8).map fun j => (i, j)).map
        fun ij => x ij.1 * y ij.2).sum =
      ((List.finRange 8).map x).sum * ((List.finRange 8).map y).sum := by
  have hlist : List.finRange 8 = [0, 1, 2, 3, 4, 5, 6, 7] := by decide
  rw [hlist]
  simp only [List.flatMap_cons, List.flatMap_nil, List.map_cons, List.map_nil, List.cons_append,
    List.nil_append, List.sum_cons, List.sum_nil]
  ring

/-- A square by its products. -/
theorem sum_squares (x : Fin 8 → ℕ) :
    (((List.finRange 8).flatMap fun i =>
        ((List.finRange 8).filter fun j => i < j).map fun j => (i, j)).map
          fun ij => 2 * (x ij.1 * x ij.2)).sum +
        ((List.finRange 8).map fun i => x i * x i).sum =
      ((List.finRange 8).map x).sum * ((List.finRange 8).map x).sum := by
  have hpairs : ((List.finRange 8).flatMap fun i =>
      ((List.finRange 8).filter fun j => i < j).map fun j => (i, j)) =
        [(0, 1), (0, 2), (0, 3), (0, 4), (0, 5), (0, 6), (0, 7), (1, 2), (1, 3), (1, 4), (1, 5),
          (1, 6), (1, 7), (2, 3), (2, 4), (2, 5), (2, 6), (2, 7), (3, 4), (3, 5), (3, 6), (3, 7),
          (4, 5), (4, 6), (4, 7), (5, 6), (5, 7), (6, 7)] := by decide
  have hlist : List.finRange 8 = [0, 1, 2, 3, 4, 5, 6, 7] := by decide
  rw [hpairs, hlist]
  simp only [List.map_cons, List.map_nil, List.sum_cons, List.sum_nil]
  ring

theorem atMost_zeros : AtMost 0 (List.replicate 16 (0 : UInt64)) := by
  intro v hv
  rw [List.eq_of_mem_replicate hv]
  exact le_refl 0

theorem val64_zeros : val64 (List.replicate 16 (0 : UInt64)) = 0 := by decide

/-- **The 64 lines multiply.** -/
theorem feMulSums_spec (a b : Fe) : (feMulSums a b).length = 16 ∧
    AtMost (2 ^ 40) (feMulSums a b) ∧ val64 (feMulSums a b) = a.val * b.val := by
  obtain ⟨hlen, hbound, hval⟩ := foldl_addTo (g := macroM a b)
    (w := fun ij => 2 ^ (32 * (ij.1.val + ij.2.val)) * (a[ij.1].toNat * b[ij.2].toNat))
    (fun o c ij => macroM_spec a b o c ij)
    ((List.finRange 8).flatMap fun i => (List.finRange 8).map fun j => (i, j))
    (List.length_replicate (n := 16)) atMost_zeros (by decide)
  refine ⟨hlen, fun v hv => (hbound v hv).trans (by decide), hval.trans ?_⟩
  have hterm (ij : Fin 8 × Fin 8) : 2 ^ (32 * (ij.1.val + ij.2.val)) *
      (a[ij.1].toNat * b[ij.2].toNat) =
        2 ^ (32 * ij.1.val) * a[ij.1].toNat * (2 ^ (32 * ij.2.val) * b[ij.2].toNat) := by
    rw [Nat.mul_add, pow_add]
    ring
  rw [val64_zeros, Nat.zero_add, a.val_eq_sum, b.val_eq_sum, ← sum_pairs]
  exact congrArg List.sum (List.map_congr_left fun ij _ => hterm ij)

/-- **The 36 lines square.** -/
theorem feSqSums_spec (a : Fe) : (feSqSums a).length = 16 ∧ AtMost (2 ^ 40) (feSqSums a) ∧
    val64 (feSqSums a) = a.val * a.val := by
  obtain ⟨hlen, hbound, hval⟩ := foldl_addTo (g := macroM2 a)
    (w := fun ij => 2 ^ (32 * (ij.1.val + ij.2.val)) * (2 * (a[ij.1].toNat * a[ij.2].toNat)))
    (fun o c ij => macroM2_spec a o c ij)
    ((List.finRange 8).flatMap fun i =>
      ((List.finRange 8).filter fun j => i < j).map fun j => (i, j))
    (List.length_replicate (n := 16)) atMost_zeros (by decide)
  obtain ⟨hlen', hbound', hval'⟩ := foldl_addTo (g := macroSQ a)
    (w := fun i => 2 ^ (32 * (2 * i.val)) * (a[i].toNat * a[i].toNat))
    (fun o c i => macroSQ_spec a o c i) (List.finRange 8) hlen hbound (by decide)
  refine ⟨hlen', fun v hv => (hbound' v hv).trans (by decide), hval'.trans ?_⟩
  have hpair (ij : Fin 8 × Fin 8) : 2 ^ (32 * (ij.1.val + ij.2.val)) *
      (2 * (a[ij.1].toNat * a[ij.2].toNat)) =
        2 * (2 ^ (32 * ij.1.val) * a[ij.1].toNat * (2 ^ (32 * ij.2.val) * a[ij.2].toNat)) := by
    rw [Nat.mul_add, pow_add]
    ring
  have hsquare (i : Fin 8) : 2 ^ (32 * (2 * i.val)) * (a[i].toNat * a[i].toNat) =
      2 ^ (32 * i.val) * a[i].toNat * (2 ^ (32 * i.val) * a[i].toNat) := by
    rw [Nat.two_mul, Nat.mul_add, pow_add]
    ring
  rw [hval, val64_zeros, Nat.zero_add, a.val_eq_sum, ← sum_squares]
  simp only [hpair, hsquare]

theorem toF_mul (a b : Fe) : (fe25519Mul a b).toF = a.toF * b.toF := by
  obtain ⟨hlen, hbound, hval⟩ := feMulSums_spec a b
  rw [fe25519Mul, toF_reducebig hlen hbound, hval, Nat.cast_mul]
  rfl

theorem toF_sq (a : Fe) : (fe25519Sq a).toF = a.toF ^ 2 := by
  obtain ⟨hlen, hbound, hval⟩ := feSqSums_spec a
  rw [fe25519Sq, toF_reducebig hlen hbound, hval, Nat.cast_mul, pow_two]
  rfl

theorem toF_sqTimes (n : ℕ) (x : Fe) : (sqTimes n x).toF = x.toF ^ 2 ^ n := by
  induction n with
  | zero => rw [pow_zero, pow_one]; rfl
  | succ n ih =>
    rw [sqTimes, Function.iterate_succ_apply', toF_sq, ← sqTimes, ih, ← pow_mul, ← pow_succ]

/-! ## 6. Inversion, and the other power -/

/-- **The chain of `fe25519_inv`** is Fermat's inverse. -/
theorem toF_inv (z : Fe) : (fe25519Inv z).toF = z.toF ^ (p - 2) := by
  simp only [fe25519Inv, toF_mul, toF_sqTimes]
  generalize z.toF = x
  have hp : p - 2 =
      57896044618658097711785492504343953926634992332820282019728792003956564819947 := by
    norm_num [p]
  rw [hp]
  ring

/-- **The chain of `fe25519_pow22523`.** -/
theorem toF_pow22523 (z : Fe) : (fe25519Pow22523 z).toF = z.toF ^ ((p - 5) / 8) := by
  simp only [fe25519Pow22523, toF_mul, toF_sqTimes]
  generalize z.toF = x
  have hp : (p - 5) / 8 =
      7237005577332262213973186563042994240829374041602535252466099000494570602493 := by
    norm_num [p]
  rw [hp]
  ring

/-! ## 7. Encodings -/

/-- What each of the operations leaves below `2 p`. -/
theorem val_lt_two_p {v : List UInt64} (hlen : v.length = 8) (hv : ∀ x ∈ v, x.toNat < 2 ^ 50) :
    (reduceSums v).val < 2 * p :=
  (val_reduceSums hlen hv).2.trans (by norm_num [p])

theorem val_mul_lt (a b : Fe) : (fe25519Mul a b).val < 2 * p := by
  obtain ⟨hlen, hbound, -⟩ := feMulSums_spec a b
  have hlo : ((feMulSums a b).take 8).length = 8 := by rw [List.length_take, hlen]; rfl
  have hhi : ((feMulSums a b).drop 8).length = 8 := by rw [List.length_drop, hlen]
  obtain ⟨-, hlt⟩ := sums_fold ((feMulSums a b).take 8) ((feMulSums a b).drop 8) (by rw [hlo, hhi])
    (fun v hv => hbound v (List.mem_of_mem_take hv))
    fun v hv => hbound v (List.mem_of_mem_drop hv)
  exact val_lt_two_p (by rw [List.length_zipWith, hlo, hhi]; rfl) hlt

theorem val_feP : feP.val = p := by decide

/-- The choice that the mask makes. -/
theorem xor_mask (r t : UInt32) : r ^^^ (-1 &&& (r ^^^ t)) = t ∧ r ^^^ (0 &&& (r ^^^ t)) = r := by
  have hones : (-1 : UInt32) &&& (r ^^^ t) = r ^^^ t := UInt32.neg_one_and
  constructor
  · rw [hones, ← UInt32.xor_assoc, UInt32.xor_self, UInt32.zero_xor]
  · rw [UInt32.zero_and, UInt32.xor_zero]

theorem zipWith_right (r t : Fe) :
    Vector.zipWith (fun r t => r ^^^ (-1 &&& (r ^^^ t))) r t = t := by
  refine Vector.ext fun i hi => ?_
  rw [Vector.getElem_zipWith, (xor_mask _ _).1]

theorem zipWith_left (r t : Fe) :
    Vector.zipWith (fun r t => r ^^^ (0 &&& (r ^^^ t))) r t = r := by
  refine Vector.ext fun i hi => ?_
  rw [Vector.getElem_zipWith, (xor_mask _ _).2]

/-- **One subtraction reduces** what is below `2 p`. -/
theorem val_feReducesmall {x : Fe} (hx : x.val < 2 * p) :
    (feReducesmall x feP 0).val = x.val % p := by
  obtain ⟨hcarry, hval⟩ := val32_borrowChain (x.toList.zip feP.toList)
    (show (0 : UInt64).toNat ≤ 1 by decide)
  have hlen : (borrowChain (x.toList.zip feP.toList) 0).1.length = 8 := by
    rw [length_borrowChain, List.length_zip, Vector.length_toList, Vector.length_toList]
    rfl
  have hlt := val32_lt (borrowChain (x.toList.zip feP.toList) 0).1
  rw [List.map_fst_zip (by simp), List.map_snd_zip (by simp), List.length_zip,
    Vector.length_toList, Vector.length_toList, Nat.min_self, ← Fe.val, ← Fe.val, val_feP] at hval
  rw [hlen] at hlt
  rw [feReducesmall]
  generalize borrowChain (x.toList.zip feP.toList) 0 = t at hcarry hval hlen hlt ⊢
  have hzero : (0 : UInt64).toNat = 0 := rfl
  have hpow : p < 2 ^ 255 ∧ 2 ^ 255 < 2 * p := by norm_num [p]
  rcases Nat.lt_or_ge t.2.toNat 1 with h | h
  · have ht : t.2 = 0 := UInt64.toNat_inj.mp (by omega)
    rw [ht, show (((0 : UInt64) - 0) >>> 63 - 1).toUInt32 = -1 by decide, zipWith_right,
      val_feOf hlen]
    rw [ht, hzero] at hval
    have hsum : x.val = val32 t.1 + p := by omega
    rw [hsum, Nat.add_mod_right, Nat.mod_eq_of_lt (by omega)]
  · have ht : t.2 = 1 := UInt64.toNat_inj.mp (by rw [UInt64.toNat_one]; omega)
    rw [ht, show (((0 : UInt64) - 1) >>> 63 - 1).toUInt32 = 0 by decide, zipWith_left]
    rw [ht, hzero, UInt64.toNat_one] at hval
    rw [Nat.mod_eq_of_lt]
    omega

/-- The bytes of an array of words. -/
theorem flatMap_pack32 (l : List UInt32) :
    l.flatMap Mtls.pack32 = leBytes (4 * l.length) (val32 l) := by
  induction l with
  | nil => rfl
  | cons x l ih =>
    have hx : x.toNat < 256 ^ 4 := x.toNat_lt
    rw [List.flatMap_cons, ih, Mtls.pack32_eq_wordBytes, Rfc8439.wordBytes, leBytes_append hx,
      val32_cons, List.length_cons, Nat.mul_add, Nat.add_comm]
    rfl

/-- **The encoding is RFC 7748's.** -/
theorem fe25519Tobytes_eq {x : Fe} (hx : x.val < 2 * p) :
    fe25519Tobytes x = encodeUCoordinate x.toF := by
  rw [fe25519Tobytes, flatMap_pack32, ← Fe.val, val_feReducesmall hx, Vector.length_toList,
    encodeUCoordinate, Fe.toF, ZMod.val_natCast]

theorem toNat_unpack32 (x : Bytes) : (Mtls.unpack32 x).toNat = ofLe (x.take 4) := by
  have hlt : (Mtls.unpack32 x).toNat < 256 ^ 4 := (Mtls.unpack32 x).toNat_lt
  have hbytes : ofLe (Mtls.pack32 (Mtls.unpack32 x)) = (Mtls.unpack32 x).toNat := by
    rw [Mtls.pack32_eq_wordBytes, Rfc8439.wordBytes, ofLe_leBytes, Nat.mod_eq_of_lt hlt]
  rw [← hbytes, Mtls.pack32_unpack32]
  rcases x with _ | ⟨a, _ | ⟨b, _ | ⟨c, _ | ⟨d, x⟩⟩⟩⟩ <;> rfl

/-- The number in an array read from bytes. -/
theorem val32_unpack32 (s : Bytes) (n : ℕ) :
    val32 ((List.range n).map fun i => Mtls.unpack32 (s.drop (4 * i))) = ofLe s % 2 ^ (32 * n) := by
  induction n with
  | zero => rw [List.range_zero, List.map_nil, val32_nil, Nat.mul_zero, pow_zero, Nat.mod_one]
  | succ n ih =>
    have hpow : 256 ^ (4 * n) = 2 ^ (32 * n) := by
      rw [show 256 = 2 ^ 8 from rfl, ← pow_mul]
      congr 1
      omega
    rw [List.range_succ, List.map_append, List.map_singleton, val32_append, ih, val32_cons,
      val32_nil, toNat_unpack32, ofLe_take, ofLe_drop, List.length_map, List.length_range, hpow,
      Nat.mul_zero, Nat.add_zero, Nat.mul_add, pow_add, Nat.mod_mul]
    rfl

/-- **Decoding masks the top bit** and nothing else. -/
theorem val_fe25519Frombytes {s : Bytes} (hs : s.length = 32) :
    (fe25519Frombytes s).val = ofLe s % 2 ^ 255 := by
  have hlt := ofLe_lt s
  rw [hs] at hlt
  have hlen : ((List.range 8).map fun i => Mtls.unpack32 (s.drop (4 * i))).length = 8 := by simp
  have hval := val32_unpack32 s 8
  rw [fe25519Frombytes]
  rw [← val_feOf hlen] at hval
  generalize feOf _ = out at hval ⊢
  have hsplit (x : UInt32) :
      Fe.val (out.set 7 x) = val32 (out.toList.take 7) + 2 ^ 224 * x.toNat := by
    have htake : (out.toList.take 7).length = 7 := by simp
    rw [Fe.val, Vector.toList_set, List.set_eq_take_append_cons_drop, if_pos (by simp),
      val32_append, htake, List.drop_of_length_le (by simp), val32_cons, val32_nil]
    rfl
  have hself : out.set 7 out[7] = out := by simp
  have hout := hsplit out[7]
  rw [hself] at hout
  have hand : (out[7] &&& 0x7fffffff).toNat = out[7].toNat % 2 ^ 31 := by
    rw [UInt32.toNat_and]
    exact Nat.and_two_pow_sub_one_eq_mod out[7].toNat 31
  have hlow := val32_lt (out.toList.take 7)
  rw [show (out.toList.take 7).length = 7 by simp] at hlow
  rw [hsplit, hand]
  generalize val32 (out.toList.take 7) = x at hout hlow ⊢
  rw [hval] at hout
  norm_num only at hout hlow hlt ⊢
  omega

/-- **The u-coordinate of RFC 7748.** -/
theorem toF_frombytes {s : Bytes} (hs : s.length = 32) :
    (fe25519Frombytes s).toF = decodeUCoordinate s := by
  rw [Fe.toF, val_fe25519Frombytes hs, decodeUCoordinate]

/-- The conditional swap. -/
theorem feCswap_zero (f g : Fe) : feCswap f g 0 = (f, g) := by
  refine Prod.ext (Vector.ext fun i hi => ?_) (Vector.ext fun i hi => ?_) <;> simp [feCswap]

theorem feCswap_one (f g : Fe) : feCswap f g 1 = (g, f) := by
  have hones (x : UInt32) : (-1 : UInt32) &&& x = x := UInt32.neg_one_and
  have hleft (x y : UInt32) : x ^^^ (x ^^^ y) = y := by
    rw [← UInt32.xor_assoc, UInt32.xor_self, UInt32.zero_xor]
  have hright (x y : UInt32) : y ^^^ (x ^^^ y) = x := by
    rw [UInt32.xor_comm x y, hleft]
  refine Prod.ext (Vector.ext fun i hi => ?_) (Vector.ext fun i hi => ?_)
  · simp only [feCswap, Vector.getElem_zipWith, hones, hleft]
  · simp only [feCswap, Vector.getElem_zipWith, hones, hright]

/-- The test for zero. -/
theorem fe25519Isnonzero_eq_zero_iff {f : Fe} (hf : f.val < 2 * p) :
    fe25519Isnonzero f = 0 ↔ f.toF = 0 := by
  rw [fe25519Isnonzero, Mtls.verify_eq_zero_iff, fe25519Tobytes_eq hf, encodeUCoordinate]
  have hzero : (Vector.replicate 32 0 : Vector UInt8 32) = toVector 32 (leBytes 32 0) := by decide
  rw [hzero]
  constructor
  · intro h
    have hbytes := congrArg Vector.toList h
    rw [toList_toVector (by simp), toList_toVector (by simp)] at hbytes
    have hlt : f.toF.val < 256 ^ 32 := (ZMod.val_lt f.toF).trans (by norm_num [p])
    exact (ZMod.val_eq_zero f.toF).mp (leBytes_inj hlt (by norm_num) hbytes)
  · intro h
    rw [h, ZMod.val_zero]

/-- The sign of an element is the low bit of its canonical number. -/
theorem fe25519Isnegative_eq {f : Fe} (hf : f.val < 2 * p) :
    fe25519Isnegative f = UInt8.ofNat (f.toF.val % 2) := by
  rw [fe25519Isnegative, fe25519Tobytes_eq hf, encodeUCoordinate]
  apply UInt8.toNat_inj.mp
  have hand := Nat.and_one_is_mod (UInt8.ofNat f.toF.val).toNat
  rw [UInt8.toNat_ofNat'] at hand
  rw [show (leBytes 32 f.toF.val).getD 0 0 = UInt8.ofNat f.toF.val from rfl, UInt8.toNat_and,
    UInt8.toNat_ofNat', UInt8.toNat_ofNat']
  rw [UInt8.toNat_one, hand]
  omega

end Glossh.Tinynacl
