/-
# `crypto_scalarmult_curve25519.c`: the ladder

`crypto_scalarmult_curve25519_tinynacl` clamps the scalar, runs 255 turns of a ladder on the field
elements of `fe25519.c` and returns an error when the result is all zero.  The turns compute in
place, in another order than RFC 7748, and with `121666` where the RFC has `121665`.

* `turn_rel`, `turns_rel`: one turn, and any run of turns, does what the RFC's ladder does;
* `cryptoScalarmultCurve25519_rfc7748`: the 32 bytes are those of RFC 7748's `X25519`, for all
  scalars and all points, canonical or not, and the return value tells exactly whether they are
  all zero.
-/
import Glossh.Tinynacl.Fe25519

namespace Glossh.Tinynacl

open Bytes WordArray Rfc7748

/-! ## 1. The code -/

/-- The array `e` with the bits of RFC 7748 cleared and set. -/
def clamp (n : Bytes) : Bytes :=
  ((n.modify 0 (· &&& 248)).modify 31 (· &&& 127)).modify 31 (· ||| 64)

/-- The variables of the loop. -/
structure Turn where
  x2 : Fe
  z2 : Fe
  x3 : Fe
  z3 : Fe
  swap : UInt32
deriving DecidableEq

/-- The variables before the first turn. -/
def turn0 (x1 : Fe) : Turn := { x2 := fe1, z2 := fe0, x3 := x1, z3 := fe1, swap := 0 }

/-- `b = e[pos / 8] >> (pos & 7); b &= 1;` -/
def bitAt (e : Bytes) (pos : ℕ) : UInt32 :=
  ((e.getD (pos / 8) 0).toUInt32 >>> UInt32.ofNat (pos &&& 7)) &&& 1

/-- The body of the loop. -/
def turn (e : Bytes) (x1 : Fe) (s : Turn) (pos : ℕ) : Turn :=
  let b := bitAt e pos
  let swap := s.swap ^^^ b
  let x := feCswap s.x2 s.x3 swap
  let z := feCswap s.z2 s.z3 swap
  let tmp0 := fe25519Sub x.2 z.2
  let tmp1 := fe25519Sub x.1 z.1
  let x2 := fe25519Add x.1 z.1
  let z2 := fe25519Add x.2 z.2
  let z3 := fe25519Mul tmp0 x2
  let z2 := fe25519Mul z2 tmp1
  let tmp0 := fe25519Sq tmp1
  let tmp1 := fe25519Sq x2
  let x3 := fe25519Add z3 z2
  let z2 := fe25519Sub z3 z2
  let x2 := fe25519Mul tmp1 tmp0
  let tmp1 := fe25519Sub tmp1 tmp0
  let z2 := fe25519Sq z2
  let z3 := fe25519Mul121666 tmp1
  let x3 := fe25519Sq x3
  let tmp0 := fe25519Add tmp0 z3
  let z3 := fe25519Mul x1 z2
  let z2 := fe25519Mul tmp1 tmp0
  { x2 := x2, z2 := z2, x3 := x3, z3 := z3, swap := b }

/-- What a call returns, 0 or all ones, and writes. -/
structure ScalarmultResult where
  rc : UInt32
  q : Bytes
deriving DecidableEq

/-- `d |= q[i]` over the output, and the value returned. -/
def zeroCode (q : Bytes) : UInt32 :=
  let d := q.foldl (fun d b => d ||| b.toUInt32) (0 : UInt32)
  (-((1 : UInt32) &&& ((d - 1) >>> 8)))

/-- `crypto_scalarmult_curve25519_tinynacl`. -/
def cryptoScalarmultCurve25519 (n p : Vector UInt8 32) : ScalarmultResult :=
  let e := clamp n.toList
  let x1 := fe25519Frombytes p.toList
  let s := (List.range 255).reverse.foldl (turn e x1) (turn0 x1)
  let x := feCswap s.x2 s.x3 s.swap
  let z := feCswap s.z2 s.z3 s.swap
  let z2 := fe25519Inv z.1
  let x2 := fe25519Mul x.1 z2
  let q := fe25519Tobytes x2
  { rc := zeroCode q, q := q }

/-! ## 2. One turn -/

/-- The bits of a number in its bytes. -/
theorem testBit_ofLe (l : Bytes) (i : ℕ) :
    (ofLe l).testBit i = (l.getD (i / 8) 0).toNat.testBit (i % 8) := by
  induction l generalizing i with
  | nil => simp [ofLe]
  | cons b l ih =>
    have hb : b.toNat < 2 ^ 8 := b.toNat_lt
    rw [ofLe, Nat.add_comm, show 256 = 2 ^ 8 from rfl, Nat.testBit_two_pow_mul_add _ hb]
    split
    · rename_i h
      rw [Nat.div_eq_of_lt h, Nat.mod_eq_of_lt h, List.getD_cons_zero]
    · rename_i h
      have hdiv : i / 8 = (i - 8) / 8 + 1 := by omega
      have hmod : i % 8 = (i - 8) % 8 := by omega
      rw [hdiv, hmod, List.getD_cons_succ, ih]

/-- A flag as a word. -/
def flag (b : Bool) : UInt32 := if b then 1 else 0

theorem bitAt_eq (e : Bytes) (pos : ℕ) : bitAt e pos = flag ((ofLe e).testBit pos) := by
  have hpos : (UInt32.ofNat (pos &&& 7)).toNat = pos % 8 := by
    rw [UInt32.toNat_ofNat', show 7 = 2 ^ 3 - 1 from rfl, Nat.and_two_pow_sub_one_eq_mod]
    omega
  have hbit : (bitAt e pos).toNat = ((e.getD (pos / 8) 0).toNat >>> (pos % 8)) % 2 := by
    rw [bitAt, UInt32.toNat_and, UInt32.toNat_shiftRight, hpos, UInt8.toNat_toUInt32,
      UInt32.toNat_one, Nat.and_one_is_mod, Nat.mod_eq_of_lt (b := 32)]
    omega
  apply UInt32.toNat_inj.mp
  rw [hbit, testBit_ofLe, Nat.testBit_eq_decide_div_mod_eq, Nat.shiftRight_eq_div_pow, flag]
  generalize (e.getD (pos / 8) 0).toNat / 2 ^ (pos % 8) = x
  rcases Nat.mod_two_eq_zero_or_one x with h | h <;> simp [h]

theorem flag_xor (a b : Bool) : flag a ^^^ flag b = flag (a ^^ b) := by
  cases a <;> cases b <;> rfl

/-- The code's variables stand for the RFC's. -/
structure TurnRel (s : Turn) (l : Ladder) : Prop where
  x2 : s.x2.toF = l.x2
  z2 : s.z2.toF = l.z2
  x3 : s.x3.toF = l.x3
  z3 : s.z3.toF = l.z3
  swap : s.swap = flag l.swap

/-- The conditional swaps of both coordinates. -/
theorem cswap_rel {s : Turn} {l : Ladder} (h : TurnRel s l) (b : Bool) :
    (feCswap s.x2 s.x3 (flag b)).1.toF = (l.cswap b).x2 ∧
      (feCswap s.x2 s.x3 (flag b)).2.toF = (l.cswap b).x3 ∧
      (feCswap s.z2 s.z3 (flag b)).1.toF = (l.cswap b).z2 ∧
      (feCswap s.z2 s.z3 (flag b)).2.toF = (l.cswap b).z3 := by
  cases b with
  | false =>
    rw [show flag false = 0 from rfl, feCswap_zero, feCswap_zero]
    exact ⟨h.x2, h.x3, h.z2, h.z3⟩
  | true =>
    rw [show flag true = 1 from rfl, feCswap_one, feCswap_one]
    exact ⟨h.x3, h.x2, h.z3, h.z2⟩

/-- **One turn is one turn of the RFC's ladder.** -/
theorem turn_rel {e : Bytes} {x1 : Fe} {s : Turn} {l : Ladder} (h : TurnRel s l) (pos : ℕ) :
    TurnRel (turn e x1 s pos) (ladderStep (ofLe e) x1.toF l pos) := by
  have hswap : s.swap ^^^ bitAt e pos = flag (l.swap ^^ (ofLe e).testBit pos) := by
    rw [h.swap, bitAt_eq, flag_xor]
  obtain ⟨hx2, hx3, hz2, hz3⟩ := cswap_rel h (l.swap ^^ (ofLe e).testBit pos)
  rw [← hswap] at hx2 hx3 hz2 hz3
  constructor
  · simp only [turn, ladderStep, toF_mul, toF_sq, toF_add, toF_sub, hx2, hz2]
  · -- the RFC's `AA + 121665 E` is the code's `BB + 121666 E`
    simp only [turn, ladderStep, toF_mul, toF_sq, toF_add, toF_sub, toF_mul121666, hx2, hz2, a24]
    ring
  · simp only [turn, ladderStep, toF_mul, toF_sq, toF_add, toF_sub, hx2, hx3, hz2, hz3]
  · simp only [turn, ladderStep, toF_mul, toF_sq, toF_add, toF_sub, hx2, hx3, hz2, hz3]
  · exact bitAt_eq e pos

/-! ## 3. The whole function -/

/-- **A run of turns.** -/
theorem turns_rel (e : Bytes) (x1 : Fe) (ps : List ℕ) {s : Turn} {l : Ladder} (h : TurnRel s l) :
    TurnRel (ps.foldl (turn e x1) s) (ps.foldl (ladderStep (ofLe e) x1.toF) l) := by
  induction ps generalizing s l with
  | nil => exact h
  | cons pos ps ih => exact ih (turn_rel h pos)

theorem toF_fe0 : fe0.toF = 0 := by
  have hval : fe0.val = 0 := by decide
  rw [Fe.toF, hval, Nat.cast_zero]

theorem toF_fe1 : fe1.toF = 1 := by
  have hval : fe1.val = 1 := by decide
  rw [Fe.toF, hval, Nat.cast_one]

theorem turn0_rel (x1 : Fe) : TurnRel (turn0 x1)
    { x2 := 1, z2 := 0, x3 := x1.toF, z3 := 1, swap := false } :=
  ⟨toF_fe1, toF_fe0, rfl, toF_fe1, rfl⟩

theorem cryptoScalarmultCurve25519_eq (n p : Vector UInt8 32) :
    (cryptoScalarmultCurve25519 n p).q = x25519 n.toList p.toList := by
  have hlen : p.toList.length = 32 := Vector.length_toList
  have hrun := turns_rel (clamp n.toList) (fe25519Frombytes p.toList)
    (List.range 255).reverse (turn0_rel (fe25519Frombytes p.toList))
  have hscalar : decodeScalar25519 n.toList = ofLe (clamp n.toList) := rfl
  simp only [cryptoScalarmultCurve25519, x25519, ladder, hscalar, bitPositions]
  rw [toF_frombytes hlen] at hrun
  generalize (List.range 255).reverse.foldl (turn _ _) _ = s at hrun ⊢
  generalize (List.range 255).reverse.foldl (ladderStep _ _) _ = l at hrun ⊢
  obtain ⟨hx2, -, hz2, -⟩ := cswap_rel hrun l.swap
  rw [fe25519Tobytes_eq (val_mul_lt _ _), toF_mul, toF_inv, hrun.swap, hx2, hz2]

/-- The code of one byte: -1 for zero, 0 for all others. -/
theorem code_byte (d : UInt8) : -((1 : UInt32) &&& ((d.toUInt32 - 1) >>> 8)) =
    if d = 0 then -1 else 0 := by
  split
  · rename_i h
    rw [h]
    decide
  · rename_i h
    have hpos : 0 < d.toNat := Nat.pos_of_ne_zero fun h0 => h (UInt8.toNat_inj.mp h0)
    have hlt : d.toNat < 256 := d.toNat_lt
    have hle : (1 : UInt32) ≤ d.toUInt32 := UInt32.le_iff_toNat_le.mpr hpos
    have hsub : (d.toUInt32 - 1).toNat = d.toNat - 1 := UInt32.toNat_sub_of_le _ _ hle
    have hshift : (d.toUInt32 - 1) >>> 8 = 0 := by
      apply UInt32.toNat_inj.mp
      rw [UInt32.toNat_shiftRight, hsub, Nat.shiftRight_eq_div_pow]
      exact Nat.div_eq_of_lt (by show d.toNat - 1 < 256; omega)
    rw [hshift]
    decide

/-- The value returned tells whether every byte is zero. -/
theorem zeroCode_spec (q : Bytes) :
    (zeroCode q = 0 ∨ zeroCode q = -1) ∧ (zeroCode q = -1 ↔ ∀ b ∈ q, b = 0) := by
  have hfold (q : Bytes) (d : UInt8) : q.foldl (fun d b => d ||| b.toUInt32) d.toUInt32 =
      (q.foldl (· ||| ·) d).toUInt32 := by
    induction q generalizing d with
    | nil => rfl
    | cons b q ih => rw [List.foldl_cons, List.foldl_cons, ← UInt8.toUInt32_or, ih]
  have hq := hfold q 0
  have hzero := Mtls.foldl_or_eq_zero_iff q 0
  rw [show (0 : UInt8).toUInt32 = 0 from rfl] at hq
  simp only [true_and] at hzero
  rw [zeroCode, hq, code_byte, ← hzero]
  split
  · rename_i h
    exact ⟨.inr rfl, fun _ => h, fun _ => rfl⟩
  · rename_i h
    exact ⟨.inl rfl, fun hcode => absurd hcode (by decide), fun h0 => absurd h0 h⟩

/-- **The scalar multiplication is X25519 of RFC 7748**, on every scalar and every point, and it
reports exactly the results that are all zero. -/
theorem cryptoScalarmultCurve25519_rfc7748 (n p : Vector UInt8 32) :
    (cryptoScalarmultCurve25519 n p).q = x25519 n.toList p.toList ∧
      ((cryptoScalarmultCurve25519 n p).rc = 0 ∨ (cryptoScalarmultCurve25519 n p).rc = -1) ∧
      ((cryptoScalarmultCurve25519 n p).rc = -1 ↔
        x25519 n.toList p.toList = List.replicate 32 0) := by
  have hq := cryptoScalarmultCurve25519_eq n p
  have hrc : (cryptoScalarmultCurve25519 n p).rc =
      zeroCode (cryptoScalarmultCurve25519 n p).q := rfl
  have hzero : x25519 n.toList p.toList = List.replicate 32 0 ↔
      ∀ b ∈ x25519 n.toList p.toList, b = 0 := by
    rw [List.eq_replicate_iff]
    constructor
    · exact fun h => h.2
    · exact fun h => ⟨length_leBytes 32 _, h⟩
  rw [hrc, hq, hzero]
  exact ⟨rfl, zeroCode_spec _⟩

end Glossh.Tinynacl
