/-
# tinynacl's Poly1305 is RFC 8439's

`crypto_onetimeauth_poly1305.c` keeps the accumulator in five limbs of 26 bits, each in an
`unsigned long`, which has 32 bits on the device.  A block is added limb by limb, the product is
formed in five sums of 64 bits with the upper limbs of `r` taken five times (`2 ^ 130 ≡ 5`), and
the carries are run down the limbs once: what is left is below `2 ^ 26` in every limb but the
second, and congruent to the product.  Only after the last block are the carries run to the end,
`p` is subtracted under a mask, and the key's second half added modulo `2 ^ 128`.

* `val_mulReduce`: one block's multiplication, with no sum or carry lost;
* `val_blocksLoop`: the loop computes RFC 8439's accumulator modulo `2 ^ 130 - 5`;
* `cryptoOnetimeauthPoly1305_eq`: the tag is the RFC's, for every message and key.
-/
import Glossh.Mtls.Aead
import Glossh.Mtls.TinynaclChacha20
import Mathlib.Data.Nat.ModEq
import Mathlib.Tactic.Ring

namespace Glossh.Tinynacl

open Bytes Rfc8439

/-! ## 1. The functions of the file -/

/-- `unpack`. -/
def unpack (x : Bytes) : UInt32 :=
  (x.getD 0 0).toUInt32 ||| ((x.getD 1 0).toUInt32 <<< 8) |||
    ((x.getD 2 0).toUInt32 <<< 16) ||| ((x.getD 3 0).toUInt32 <<< 24)

/-- `pack`: the four bytes stored. -/
def pack (u : UInt32) : Bytes :=
  let x0 := u.toUInt8; let u := u >>> 8
  let x1 := u.toUInt8; let u := u >>> 8
  let x2 := u.toUInt8; let u := u >>> 8
  [x0, x1, x2, u.toUInt8]

/-- Five variables of the function: `h0` to `h4`, or `r0` to `r4`. -/
structure Limbs where
  l0 : UInt32
  l1 : UInt32
  l2 : UInt32
  l3 : UInt32
  l4 : UInt32
deriving DecidableEq

/-- The five sums `d0` to `d4`. -/
structure Sums where
  d0 : UInt64
  d1 : UInt64
  d2 : UInt64
  d3 : UInt64
  d4 : UInt64
deriving DecidableEq

/-- `r &= 0xffffffc0ffffffc0ffffffc0fffffff`. -/
def clampKey (k : Bytes) : Limbs where
  l0 := unpack k &&& 0x3ffffff
  l1 := (unpack (k.drop 3) >>> 2) &&& 0x3ffff03
  l2 := (unpack (k.drop 6) >>> 4) &&& 0x3ffc0ff
  l3 := (unpack (k.drop 9) >>> 6) &&& 0x3f03fff
  l4 := (unpack (k.drop 12) >>> 8) &&& 0x00fffff

/-- `h = 0`. -/
def zeroLimbs : Limbs := ⟨0, 0, 0, 0, 0⟩

/-- `h += m[i]`: a whole block, whose high bit is set in `h4`, or the rest of the message, whose
high bit is a byte of the array `mm`. -/
def addBlock (h : Limbs) (m : Bytes) : Limbs :=
  if 16 ≤ m.length then
    { l0 := h.l0 + (unpack m &&& 0x3ffffff)
      l1 := h.l1 + ((unpack (m.drop 3) >>> 2) &&& 0x3ffffff)
      l2 := h.l2 + ((unpack (m.drop 6) >>> 4) &&& 0x3ffffff)
      l3 := h.l3 + ((unpack (m.drop 9) >>> 6) &&& 0x3ffffff)
      l4 := h.l4 + ((unpack (m.drop 12) >>> 8) ||| 16777216) }
  else
    let mm := overwrite (overwrite (List.replicate 16 0) 0 m) m.length [1]
    { l0 := h.l0 + (unpack mm &&& 0x3ffffff)
      l1 := h.l1 + ((unpack (mm.drop 3) >>> 2) &&& 0x3ffffff)
      l2 := h.l2 + ((unpack (mm.drop 6) >>> 4) &&& 0x3ffffff)
      l3 := h.l3 + ((unpack (mm.drop 9) >>> 6) &&& 0x3ffffff)
      l4 := h.l4 + (unpack (mm.drop 12) >>> 8) }

/-- One line of `h *= r`: the five limbs of `h` against the factors the line names. -/
def mulLine (h : Limbs) (a0 a1 a2 a3 a4 : UInt32) : UInt64 :=
  h.l0.toUInt64 * a0.toUInt64 + h.l1.toUInt64 * a1.toUInt64 + h.l2.toUInt64 * a2.toUInt64 +
    h.l3.toUInt64 * a3.toUInt64 + h.l4.toUInt64 * a4.toUInt64

/-- `h *= r`. -/
def mulSums (h r : Limbs) : Sums :=
  let s1 := r.l1 * 5
  let s2 := r.l2 * 5
  let s3 := r.l3 * 5
  let s4 := r.l4 * 5
  { d0 := mulLine h r.l0 s4 s3 s2 s1
    d1 := mulLine h r.l1 r.l0 s4 s3 s2
    d2 := mulLine h r.l2 r.l1 r.l0 s4 s3
    d3 := mulLine h r.l3 r.l2 r.l1 r.l0 s4
    d4 := mulLine h r.l4 r.l3 r.l2 r.l1 r.l0 }

/-- `(unsigned long)(d >> 26)`. -/
def carryOf (d : UInt64) : UInt32 := (d >>> 26).toUInt32

/-- `(unsigned long)d & 0x3ffffff`. -/
def limbOf (d : UInt64) : UInt32 := d.toUInt32 &&& 0x3ffffff

/-- `(partial) h %= p`. -/
def partialReduce (d : Sums) : Limbs :=
  let c := carryOf d.d0; let h0 := limbOf d.d0
  let d1 := d.d1 + c.toUInt64; let c := carryOf d1; let h1 := limbOf d1
  let d2 := d.d2 + c.toUInt64; let c := carryOf d2; let h2 := limbOf d2
  let d3 := d.d3 + c.toUInt64; let c := carryOf d3; let h3 := limbOf d3
  let d4 := d.d4 + c.toUInt64; let c := carryOf d4; let h4 := limbOf d4
  let h0 := h0 + c * 5; let c := h0 >>> 26; let h0 := h0 &&& 0x3ffffff
  let h1 := h1 + c
  ⟨h0, h1, h2, h3, h4⟩

/-- The loop over the blocks, for a message of at most so many bytes. -/
def blocksLoop (r : Limbs) : ℕ → Limbs → Bytes → Limbs
  | 0, h, _ => h
  | n + 1, h, m =>
    if m = [] then h
    else blocksLoop r n (partialReduce (mulSums (addBlock h m) r)) (m.drop 16)

/-- `fully carry h`. -/
def fullCarry (h : Limbs) : Limbs :=
  let c := h.l1 >>> 26; let h1 := h.l1 &&& 0x3ffffff
  let h2 := h.l2 + c; let c := h2 >>> 26; let h2 := h2 &&& 0x3ffffff
  let h3 := h.l3 + c; let c := h3 >>> 26; let h3 := h3 &&& 0x3ffffff
  let h4 := h.l4 + c; let c := h4 >>> 26; let h4 := h4 &&& 0x3ffffff
  let h0 := h.l0 + c * 5; let c := h0 >>> 26; let h0 := h0 &&& 0x3ffffff
  let h1 := h1 + c
  ⟨h0, h1, h2, h3, h4⟩

/-- `compute h + -p`. -/
def plusMinusP (h : Limbs) : Limbs :=
  let r0 := h.l0 + 5; let c := r0 >>> 26; let r0 := r0 &&& 0x3ffffff
  let r1 := h.l1 + c; let c := r1 >>> 26; let r1 := r1 &&& 0x3ffffff
  let r2 := h.l2 + c; let c := r2 >>> 26; let r2 := r2 &&& 0x3ffffff
  let r3 := h.l3 + c; let c := r3 >>> 26; let r3 := r3 &&& 0x3ffffff
  let r4 := h.l4 + c - ((1 : UInt32) <<< 26)
  ⟨r0, r1, r2, r3, r4⟩

/-- `select h if h < p, or h + -p if h >= p`. -/
def selectLimbs (h r : Limbs) : Limbs :=
  let mask := (r.l4 >>> 31) - 1
  let sel (x y : UInt32) : UInt32 := (x &&& ~~~mask) ||| (y &&& mask)
  ⟨sel h.l0 r.l0, sel h.l1 r.l1, sel h.l2 r.l2, sel h.l3 r.l3, sel h.l4 r.l4⟩

/-- `h = h % (2^128)`: the four words. -/
def wordsOf (h : Limbs) : UInt32 × UInt32 × UInt32 × UInt32 :=
  (h.l0 ||| (h.l1 <<< 26), (h.l1 >>> 6) ||| (h.l2 <<< 20), (h.l2 >>> 12) ||| (h.l3 <<< 14),
    (h.l3 >>> 18) ||| (h.l4 <<< 8))

/-- `mac = (h + pad) % (2^128)`, and the bytes of `o`. -/
def addPad (h : UInt32 × UInt32 × UInt32 × UInt32) (k : Bytes) : Bytes :=
  let f := h.1.toUInt64 + (unpack (k.drop 16)).toUInt64; let h0 := f.toUInt32
  let f := h.2.1.toUInt64 + (unpack (k.drop 20)).toUInt64 + (f >>> 32); let h1 := f.toUInt32
  let f := h.2.2.1.toUInt64 + (unpack (k.drop 24)).toUInt64 + (f >>> 32); let h2 := f.toUInt32
  let f := h.2.2.2.toUInt64 + (unpack (k.drop 28)).toUInt64 + (f >>> 32); let h3 := f.toUInt32
  pack h0 ++ pack h1 ++ pack h2 ++ pack h3

/-- `crypto_onetimeauth_poly1305_tinynacl`: the sixteen bytes of `o`. -/
def cryptoOnetimeauthPoly1305 (m : Bytes) (k : Vector UInt8 32) : Vector UInt8 16 :=
  let h := fullCarry (blocksLoop (clampKey k.toList) m.length zeroLimbs m)
  toVector 16 (addPad (wordsOf (selectLimbs h (plusMinusP h))) k.toList)

/-- `crypto_onetimeauth_poly1305_tinynacl_verify`: the comparison is the one of `verify`. -/
def cryptoOnetimeauthPoly1305Verify (h : Vector UInt8 16) (m : Bytes) (k : Vector UInt8 32) :
    UInt32 :=
  Mtls.verify (cryptoOnetimeauthPoly1305 m k) h

/-! ## 2. Words, carries and limbs as numbers -/

/-- The number the limbs stand for. -/
def Limbs.val (h : Limbs) : ℕ :=
  h.l0.toNat + 2 ^ 26 * h.l1.toNat + 2 ^ 52 * h.l2.toNat + 2 ^ 78 * h.l3.toNat +
    2 ^ 104 * h.l4.toNat

/-- The number the five sums stand for. -/
def Sums.val (d : Sums) : ℕ :=
  d.d0.toNat + 2 ^ 26 * d.d1.toNat + 2 ^ 52 * d.d2.toNat + 2 ^ 78 * d.d3.toNat +
    2 ^ 104 * d.d4.toNat

theorem toNat_and_26 (x : UInt32) : (x &&& 0x3ffffff).toNat = x.toNat % 2 ^ 26 := by
  rw [UInt32.toNat_and]
  exact Nat.and_two_pow_sub_one_eq_mod x.toNat 26

theorem toNat_shiftRight (x : UInt32) {k : ℕ} (hk : k < 32) :
    (x >>> UInt32.ofNat k).toNat = x.toNat / 2 ^ k := by
  rw [UInt32.toNat_shiftRight, UInt32.toNat_ofNat', Nat.shiftRight_eq_div_pow]
  have hmod : k % 2 ^ 32 % 32 = k := by omega
  rw [hmod]

theorem toNat_shiftRight_26 (x : UInt32) : (x >>> 26).toNat = x.toNat / 2 ^ 26 :=
  toNat_shiftRight x (by decide)

theorem toNat_limbOf (d : UInt64) : (limbOf d).toNat = d.toNat % 2 ^ 26 := by
  rw [limbOf, toNat_and_26, UInt64.toNat_toUInt32]
  omega

theorem toNat_carryOf {d : UInt64} (h : d.toNat < 2 ^ 58) :
    (carryOf d).toNat = d.toNat / 2 ^ 26 := by
  have hshift : (d >>> 26).toNat = d.toNat / 2 ^ 26 := by
    rw [UInt64.toNat_shiftRight]
    exact Nat.shiftRight_eq_div_pow d.toNat 26
  rw [carryOf, UInt64.toNat_toUInt32, hshift]
  omega

theorem toNat_add_of_lt {x y : UInt32} (h : x.toNat + y.toNat < 2 ^ 32) :
    (x + y).toNat = x.toNat + y.toNat := by
  rw [UInt32.toNat_add]
  exact Nat.mod_eq_of_lt h

theorem toNat_add64_of_lt {x y : UInt64} (h : x.toNat + y.toNat < 2 ^ 64) :
    (x + y).toNat = x.toNat + y.toNat := by
  rw [UInt64.toNat_add]
  exact Nat.mod_eq_of_lt h

/-! ## 3. One block -/

/-- What holds of `h` between two blocks: the last carry was left in the second limb. -/
structure Limbs.Carried (h : Limbs) : Prop where
  l0 : h.l0.toNat < 2 ^ 26
  l1 : h.l1.toNat < 2 ^ 26 + 64
  l2 : h.l2.toNat < 2 ^ 26
  l3 : h.l3.toNat < 2 ^ 26
  l4 : h.l4.toNat < 2 ^ 26

/-- What holds of `h` once a block was added. -/
structure Limbs.Added (h : Limbs) : Prop where
  l0 : h.l0.toNat ≤ 2 ^ 27 + 64
  l1 : h.l1.toNat ≤ 2 ^ 27 + 64
  l2 : h.l2.toNat ≤ 2 ^ 27 + 64
  l3 : h.l3.toNat ≤ 2 ^ 27 + 64
  l4 : h.l4.toNat ≤ 2 ^ 27 + 64

/-- What holds of the clamped `r`. -/
structure Limbs.Clamped (r : Limbs) : Prop where
  l0 : r.l0.toNat < 2 ^ 26
  l1 : r.l1.toNat < 2 ^ 26
  l2 : r.l2.toNat < 2 ^ 26
  l3 : r.l3.toNat < 2 ^ 26
  l4 : r.l4.toNat < 2 ^ 20

/-- A product of 32-bit words does not overflow 64 bits. -/
theorem toNat_mul_toUInt64 (x y : UInt32) :
    (x.toUInt64 * y.toUInt64).toNat = x.toNat * y.toNat := by
  have hx : x.toNat ≤ 2 ^ 32 - 1 := Nat.le_sub_one_of_lt x.toNat_lt
  have hy : y.toNat ≤ 2 ^ 32 - 1 := Nat.le_sub_one_of_lt y.toNat_lt
  have hmul : x.toNat * y.toNat ≤ (2 ^ 32 - 1) * (2 ^ 32 - 1) := Nat.mul_le_mul hx hy
  rw [UInt64.toNat_mul, UInt32.toNat_toUInt64, UInt32.toNat_toUInt64]
  exact Nat.mod_eq_of_lt (lt_of_le_of_lt hmul (by decide))

/-- **A line of the product loses nothing** as long as its factors sum to a word. -/
theorem toNat_mulLine {h : Limbs} (hh : h.Added) (a0 a1 a2 a3 a4 : UInt32)
    (ha : a0.toNat + a1.toNat + a2.toNat + a3.toNat + a4.toNat < 2 ^ 32) :
    (mulLine h a0 a1 a2 a3 a4).toNat = h.l0.toNat * a0.toNat + h.l1.toNat * a1.toNat +
        h.l2.toNat * a2.toNat + h.l3.toNat * a3.toNat + h.l4.toNat * a4.toNat ∧
      (mulLine h a0 a1 a2 a3 a4).toNat ≤
        (2 ^ 27 + 64) * (a0.toNat + a1.toNat + a2.toNat + a3.toNat + a4.toNat) := by
  have p0 := Nat.mul_le_mul_right a0.toNat hh.l0
  have p1 := Nat.mul_le_mul_right a1.toNat hh.l1
  have p2 := Nat.mul_le_mul_right a2.toNat hh.l2
  have p3 := Nat.mul_le_mul_right a3.toNat hh.l3
  have p4 := Nat.mul_le_mul_right a4.toNat hh.l4
  have heq : (mulLine h a0 a1 a2 a3 a4).toNat = h.l0.toNat * a0.toNat + h.l1.toNat * a1.toNat +
      h.l2.toNat * a2.toNat + h.l3.toNat * a3.toNat + h.l4.toNat * a4.toNat := by
    simp only [mulLine, UInt64.toNat_add, toNat_mul_toUInt64]
    omega
  exact ⟨heq, by omega⟩

theorem toNat_mul_five {x : UInt32} (h : x.toNat < 2 ^ 26) : (x * 5).toNat = 5 * x.toNat := by
  rw [UInt32.toNat_mul, show (5 : UInt32).toNat = 5 from rfl]
  omega

/-- What the reduction may rely on: no sum's carry overflows a word, and the last one, taken five
times, does not either. -/
structure Sums.Small (d : Sums) : Prop where
  d0 : d.d0.toNat < 2 ^ 57 + 2 ^ 54
  d1 : d.d1.toNat < 2 ^ 57 + 2 ^ 54
  d2 : d.d2.toNat < 2 ^ 57 + 2 ^ 54
  d3 : d.d3.toNat < 2 ^ 57 + 2 ^ 54
  d4 : d.d4.toNat < 2 ^ 55 + 2 ^ 48

/-- **The sums are the product modulo `p`.** -/
theorem val_mulSums {h r : Limbs} (hh : h.Added) (hr : r.Clamped) :
    (mulSums h r).Small ∧ (mulSums h r).val ≡ h.val * r.val [MOD 2 ^ 130 - 5] := by
  obtain ⟨r0, r1, r2, r3, r4⟩ := hr
  have s1 := toNat_mul_five r1
  have s2 := toNat_mul_five r2
  have s3 := toNat_mul_five r3
  have s4 := toNat_mul_five (show r.l4.toNat < 2 ^ 26 by omega)
  obtain ⟨e0, b0⟩ := toNat_mulLine hh r.l0 (r.l4 * 5) (r.l3 * 5) (r.l2 * 5) (r.l1 * 5) (by omega)
  obtain ⟨e1, b1⟩ := toNat_mulLine hh r.l1 r.l0 (r.l4 * 5) (r.l3 * 5) (r.l2 * 5) (by omega)
  obtain ⟨e2, b2⟩ := toNat_mulLine hh r.l2 r.l1 r.l0 (r.l4 * 5) (r.l3 * 5) (by omega)
  obtain ⟨e3, b3⟩ := toNat_mulLine hh r.l3 r.l2 r.l1 r.l0 (r.l4 * 5) (by omega)
  obtain ⟨e4, b4⟩ := toNat_mulLine hh r.l4 r.l3 r.l2 r.l1 r.l0 (by omega)
  constructor
  · constructor <;> simp only [mulSums] <;> omega
  · have hval : h.val * r.val = (mulSums h r).val + (2 ^ 130 - 5) *
        (h.l1.toNat * r.l4.toNat + h.l2.toNat * (r.l3.toNat + 2 ^ 26 * r.l4.toNat) +
          h.l3.toNat * (r.l2.toNat + 2 ^ 26 * r.l3.toNat + 2 ^ 52 * r.l4.toNat) +
          h.l4.toNat * (r.l1.toNat + 2 ^ 26 * r.l2.toNat + 2 ^ 52 * r.l3.toNat +
            2 ^ 78 * r.l4.toNat)) := by
      simp only [Sums.val, mulSums, e0, e1, e2, e3, e4, s1, s2, s3, s4, Limbs.val]
      ring
    rw [Nat.ModEq, hval, Nat.add_mul_mod_self_left]

theorem toNat_add_carryOf {d e : UInt64} (hd : d.toNat < 2 ^ 58) (he : e.toNat < 2 ^ 58) :
    (e + (carryOf d).toUInt64).toNat = e.toNat + d.toNat / 2 ^ 26 := by
  have hc : (carryOf d).toUInt64.toNat = d.toNat / 2 ^ 26 := by
    rw [UInt32.toNat_toUInt64, toNat_carryOf hd]
  rw [toNat_add64_of_lt (by omega), hc]

/-- **Running the carries down once** keeps the residue and brings the limbs back in bounds. -/
theorem val_partialReduce {d : Sums} (hd : d.Small) :
    (partialReduce d).Carried ∧ (partialReduce d).val ≡ d.val [MOD 2 ^ 130 - 5] := by
  obtain ⟨b0, b1, b2, b3, b4⟩ := hd
  simp only [partialReduce]
  have e1 := toNat_add_carryOf (d := d.d0) (e := d.d1) (by omega) (by omega)
  generalize d.d1 + (carryOf d.d0).toUInt64 = x1 at e1 ⊢
  have e2 := toNat_add_carryOf (d := x1) (e := d.d2) (by omega) (by omega)
  generalize d.d2 + (carryOf x1).toUInt64 = x2 at e2 ⊢
  have e3 := toNat_add_carryOf (d := x2) (e := d.d3) (by omega) (by omega)
  generalize d.d3 + (carryOf x2).toUInt64 = x3 at e3 ⊢
  have e4 := toNat_add_carryOf (d := x3) (e := d.d4) (by omega) (by omega)
  generalize d.d4 + (carryOf x3).toUInt64 = x4 at e4 ⊢
  have e5 : (limbOf d.d0 + carryOf x4 * 5).toNat =
      d.d0.toNat % 2 ^ 26 + 5 * (x4.toNat / 2 ^ 26) := by
    rw [UInt32.toNat_add, UInt32.toNat_mul, toNat_carryOf (by omega), toNat_limbOf,
      show (5 : UInt32).toNat = 5 from rfl]
    omega
  generalize limbOf d.d0 + carryOf x4 * 5 = y at e5 ⊢
  have e6 : (limbOf x1 + y >>> 26).toNat = x1.toNat % 2 ^ 26 + y.toNat / 2 ^ 26 := by
    rw [UInt32.toNat_add, toNat_limbOf, toNat_shiftRight_26]
    omega
  constructor
  · constructor <;> simp only [e6, toNat_limbOf, toNat_and_26] <;> omega
  · have hval : d.val = Limbs.val ⟨y &&& 0x3ffffff, limbOf x1 + y >>> 26, limbOf x2, limbOf x3,
        limbOf x4⟩ + (2 ^ 130 - 5) * (x4.toNat / 2 ^ 26) := by
      simp only [Sums.val, Limbs.val, e6, toNat_limbOf, toNat_and_26]
      omega
    rw [Nat.ModEq, hval, Nat.add_mul_mod_self_left]

theorem val_mulReduce {h r : Limbs} (hh : h.Added) (hr : r.Clamped) :
    (partialReduce (mulSums h r)).Carried ∧
      (partialReduce (mulSums h r)).val ≡ h.val * r.val [MOD 2 ^ 130 - 5] := by
  obtain ⟨hsmall, hmul⟩ := val_mulSums hh hr
  obtain ⟨hcarried, hreduce⟩ := val_partialReduce hsmall
  exact ⟨hcarried, hreduce.trans hmul⟩

/-! ## 4. The blocks of a message -/

/-- Four bytes from the pointer on, read as a word. -/
theorem toNat_unpack (l : Bytes) : (unpack l).toNat = ofLe l % 2 ^ 32 := by
  have hword : unpack l = word (l.getD 0 0) (l.getD 1 0) (l.getD 2 0) (l.getD 3 0) :=
    Mtls.load32Le_eq_word l
  have hbyte (i : ℕ) : (l.getD i 0).toNat = ofLe l / 256 ^ i % 256 := by
    rw [← ofLe_drop]
    rcases Nat.lt_or_ge i l.length with h | h
    · have hlt : l[i].toNat < 256 := l[i].toNat_lt
      rw [List.drop_eq_getElem_cons h, ofLe, List.getD_eq_getElem l 0 h]
      omega
    · rw [List.drop_of_length_le h, List.getD_eq_default l 0 h]
      rfl
  have h0 := hbyte 0
  have h1 := hbyte 1
  have h2 := hbyte 2
  have h3 := hbyte 3
  rw [hword, word, UInt32.toNat_ofNat']
  simp only [ofLe]
  omega

theorem toNat_unpack_drop (l : Bytes) (k : ℕ) :
    (unpack (l.drop k)).toNat = ofLe l / 256 ^ k % 2 ^ 32 := by
  rw [toNat_unpack, ofLe_drop]

/-- The limb that starts `8 * k - s` bits into the string, where `s` is the shift. -/
theorem toNat_unpack_shift (l : Bytes) (k : ℕ) {s : ℕ} (hs : s < 32) :
    (unpack (l.drop k) >>> UInt32.ofNat s).toNat = ofLe l / 256 ^ k % 2 ^ 32 / 2 ^ s := by
  rw [toNat_shiftRight _ hs, toNat_unpack_drop]

/-- The five pieces a block is read in put its first sixteen bytes together again. -/
theorem sum_pieces (n : ℕ) :
    n % 2 ^ 32 % 2 ^ 26 + 2 ^ 26 * (n / 256 ^ 3 % 2 ^ 32 / 2 ^ 2 % 2 ^ 26) +
      2 ^ 52 * (n / 256 ^ 6 % 2 ^ 32 / 2 ^ 4 % 2 ^ 26) +
      2 ^ 78 * (n / 256 ^ 9 % 2 ^ 32 / 2 ^ 6 % 2 ^ 26) +
      2 ^ 104 * (n / 256 ^ 12 % 2 ^ 32 / 2 ^ 8) = n % 2 ^ 128 := by
  omega

/-- Adding five pieces, each short of a limb, with `t` set above the last. -/
theorem val_add_pieces {h : Limbs} (hh : h.Carried) (l : Bytes) {t : ℕ} (ht : t ≤ 1) {x : UInt32}
    (hx : x.toNat = ofLe l / 256 ^ 12 % 2 ^ 32 / 2 ^ 8 + 2 ^ 24 * t) {g : Limbs}
    (hg : g = { l0 := h.l0 + (unpack l &&& 0x3ffffff)
                l1 := h.l1 + ((unpack (l.drop 3) >>> 2) &&& 0x3ffffff)
                l2 := h.l2 + ((unpack (l.drop 6) >>> 4) &&& 0x3ffffff)
                l3 := h.l3 + ((unpack (l.drop 9) >>> 6) &&& 0x3ffffff)
                l4 := h.l4 + x }) :
    g.Added ∧ g.val = h.val + ofLe l % 2 ^ 128 + 2 ^ 128 * t := by
  subst hg
  obtain ⟨b0, b1, b2, b3, b4⟩ := hh
  have x0 : (unpack l &&& 0x3ffffff).toNat = ofLe l % 2 ^ 32 % 2 ^ 26 := by
    rw [toNat_and_26, toNat_unpack]
  have x1 : ((unpack (l.drop 3) >>> 2) &&& 0x3ffffff).toNat =
      ofLe l / 256 ^ 3 % 2 ^ 32 / 2 ^ 2 % 2 ^ 26 := by
    rw [toNat_and_26, ← toNat_unpack_shift l 3 (s := 2) (by decide)]
    rfl
  have x2 : ((unpack (l.drop 6) >>> 4) &&& 0x3ffffff).toNat =
      ofLe l / 256 ^ 6 % 2 ^ 32 / 2 ^ 4 % 2 ^ 26 := by
    rw [toNat_and_26, ← toNat_unpack_shift l 6 (s := 4) (by decide)]
    rfl
  have x3 : ((unpack (l.drop 9) >>> 6) &&& 0x3ffffff).toNat =
      ofLe l / 256 ^ 9 % 2 ^ 32 / 2 ^ 6 % 2 ^ 26 := by
    rw [toNat_and_26, ← toNat_unpack_shift l 9 (s := 6) (by decide)]
    rfl
  have hsum := sum_pieces (ofLe l)
  rw [← x0, ← x1, ← x2, ← x3] at hsum
  have y0 : (unpack l &&& 0x3ffffff).toNat < 2 ^ 26 := by rw [x0]; omega
  have y1 : ((unpack (l.drop 3) >>> 2) &&& 0x3ffffff).toNat < 2 ^ 26 := by rw [x1]; omega
  have y2 : ((unpack (l.drop 6) >>> 4) &&& 0x3ffffff).toNat < 2 ^ 26 := by rw [x2]; omega
  have y3 : ((unpack (l.drop 9) >>> 6) &&& 0x3ffffff).toNat < 2 ^ 26 := by rw [x3]; omega
  have y4 : ofLe l / 256 ^ 12 % 2 ^ 32 / 2 ^ 8 < 2 ^ 24 := by omega
  generalize ofLe l / 256 ^ 12 % 2 ^ 32 / 2 ^ 8 = z at hx hsum y4
  have a0 := toNat_add_of_lt (x := h.l0) (y := unpack l &&& 0x3ffffff) (by omega)
  have a1 := toNat_add_of_lt (x := h.l1) (y := (unpack (l.drop 3) >>> 2) &&& 0x3ffffff) (by omega)
  have a2 := toNat_add_of_lt (x := h.l2) (y := (unpack (l.drop 6) >>> 4) &&& 0x3ffffff) (by omega)
  have a3 := toNat_add_of_lt (x := h.l3) (y := (unpack (l.drop 9) >>> 6) &&& 0x3ffffff) (by omega)
  have a4 := toNat_add_of_lt (x := h.l4) (y := x) (by omega)
  constructor
  · constructor <;> simp only [a0, a1, a2, a3, a4] <;> omega
  · simp only [Limbs.val, a0, a1, a2, a3, a4]
    omega

/-- **Adding a block** adds its bytes with a one behind them. -/
theorem val_addBlock {h : Limbs} (hh : h.Carried) (m : Bytes) :
    (addBlock h m).Added ∧ (addBlock h m).val = h.val + ofLe (m.take 16 ++ [1]) := by
  have hhigh (l : Bytes) : (unpack (l.drop 12) >>> 8).toNat =
      ofLe l / 256 ^ 12 % 2 ^ 32 / 2 ^ 8 := toNat_unpack_shift l 12 (s := 8) (by decide)
  unfold addBlock
  split
  · rename_i hlen
    have hor : ((unpack (m.drop 12) >>> 8) ||| 16777216).toNat =
        ofLe m / 256 ^ 12 % 2 ^ 32 / 2 ^ 8 + 2 ^ 24 * 1 := by
      have hlt : ofLe m / 256 ^ 12 % 2 ^ 32 / 2 ^ 8 < 2 ^ 24 := by omega
      rw [UInt32.toNat_or, hhigh]
      exact Mtls.or_shiftLeft_eq_add (b := 1) hlt
    obtain ⟨hadded, hval⟩ := val_add_pieces hh m (le_refl 1) hor rfl
    refine ⟨hadded, hval.trans ?_⟩
    have hone : ofLe [1] = 1 := rfl
    have hpow : (256 : ℕ) ^ 16 = 2 ^ 128 := by norm_num
    rw [ofLe_append, ofLe_take, List.length_take, Nat.min_eq_left hlen, hone, Nat.add_assoc, hpow]
  · rename_i hlen
    have hmm : overwrite (overwrite (List.replicate 16 0) 0 m) m.length [1] =
        m ++ [1] ++ List.replicate (15 - m.length) 0 := by
      have hzero : List.replicate 16 (0 : UInt8) =
          List.replicate m.length 0 ++ ([0] ++ List.replicate (15 - m.length) 0) := by
        rw [show ([0] : Bytes) = List.replicate 1 0 from rfl, List.replicate_append_replicate,
          List.replicate_append_replicate]
        congr 1
        omega
      have h1 : overwrite (List.replicate m.length 0 ++
          ([0] ++ List.replicate (15 - m.length) 0)) 0 m =
            m ++ ([0] ++ List.replicate (15 - m.length) 0) := by
        simpa only [List.nil_append] using
          overwrite_append (b := [0] ++ List.replicate (15 - m.length) 0)
            (List.length_nil (α := UInt8))
            (List.length_replicate (n := m.length) (a := (0 : UInt8)))
      have h2 : overwrite (m ++ ([0] ++ List.replicate (15 - m.length) 0)) m.length [1] =
          m ++ [1] ++ List.replicate (15 - m.length) 0 := by
        simpa only [List.append_assoc] using
          overwrite_append (a := m) (g := [0]) (b := List.replicate (15 - m.length) 0) rfl
            (show ([0] : Bytes).length = ([1] : Bytes).length from rfl)
      rw [hzero, h1, h2]
    rw [hmm]
    obtain ⟨hadded, hval⟩ := val_add_pieces hh (m ++ [1] ++ List.replicate (15 - m.length) 0)
      (Nat.zero_le 1) (hhigh _) rfl
    refine ⟨hadded, hval.trans ?_⟩
    have hlt := ofLe_lt (m ++ [1])
    have hpow : 256 ^ (m ++ [1]).length ≤ 256 ^ 16 := by
      refine Nat.pow_le_pow_right (by decide) ?_
      rw [List.length_append, List.length_singleton]
      omega
    rw [ofLe_append _ (List.replicate _ 0), ofLe_replicate_zero,
      List.take_of_length_le (by omega)]
    omega

/-- **The loop computes the accumulator.** -/
theorem val_blocksLoop {r : Limbs} (hr : r.Clamped) (n : ℕ) {h : Limbs} (hh : h.Carried)
    (m : Bytes) (acc : ℕ) (hacc : h.val ≡ acc [MOD 2 ^ 130 - 5]) :
    (blocksLoop r n h m).Carried ∧
      (blocksLoop r n h m).val ≡ poly1305Acc r.val n acc m [MOD 2 ^ 130 - 5] := by
  induction n generalizing h m acc with
  | zero => exact ⟨hh, hacc⟩
  | succ n ih =>
    unfold blocksLoop poly1305Acc
    split
    · exact ⟨hh, hacc⟩
    · obtain ⟨hadded, hval⟩ := val_addBlock hh m
      obtain ⟨hcarried, hmul⟩ := val_mulReduce hadded hr
      refine ih hcarried (m.drop 16) _ ?_
      calc (partialReduce (mulSums (addBlock h m) r)).val
          ≡ (h.val + ofLe (m.take 16 ++ [1])) * r.val [MOD 2 ^ 130 - 5] := by rwa [hval] at hmul
        _ ≡ (acc + ofLe (m.take 16 ++ [1])) * r.val [MOD 2 ^ 130 - 5] :=
          (hacc.add_right _).mul_right _
        _ ≡ (acc + ofLe (m.take 16 ++ [1])) * r.val % (2 ^ 130 - 5) [MOD 2 ^ 130 - 5] :=
          (Nat.mod_modEq _ _).symm

/-- A mask applied to a number is applied to its low bits and to the rest. -/
theorem and_split (n m k : ℕ) :
    n &&& m = (n % 2 ^ k &&& m % 2 ^ k) + 2 ^ k * (n / 2 ^ k &&& m / 2 ^ k) := by
  rw [← Nat.and_mod_two_pow, ← Nat.and_div_two_pow]
  exact (Nat.mod_add_div _ _).symm

/-- A mask reads no bits above its own. -/
theorem and_mod_of_lt {m k : ℕ} (h : m < 2 ^ k) (n : ℕ) : n &&& m = n % 2 ^ k &&& m := by
  rw [and_split n m k, Nat.mod_eq_of_lt h, Nat.div_eq_of_lt h, Nat.and_zero, Nat.mul_zero,
    Nat.add_zero]

theorem toNat_and_lt (x y : UInt32) {b : ℕ} (h : y.toNat < b) : (x &&& y).toNat < b := by
  rw [UInt32.toNat_and]
  exact lt_of_le_of_lt Nat.and_le_right h

/-- The masks of the limbs are the mask of RFC 8439. -/
theorem val_clampKey (k : Bytes) : (clampKey k).Clamped ∧
    (clampKey k).val = ofLe (k.take 16) &&& 0x0ffffffc0ffffffc0ffffffc0fffffff := by
  have hn : ofLe (k.take 16) = ofLe k % 256 ^ 16 := ofLe_take k 16
  have l0 : (clampKey k).l0.toNat = ofLe (k.take 16) % 2 ^ 26 &&& 0x3ffffff := by
    simp only [clampKey, UInt32.toNat_and, toNat_unpack]
    rw [and_mod_of_lt (k := 26) (by decide), hn]
    congr 1
    omega
  have l1 : (clampKey k).l1.toNat = ofLe (k.take 16) / 2 ^ 26 % 2 ^ 26 &&& 0x3ffff03 := by
    have hshift := toNat_unpack_shift k 3 (s := 2) (by decide)
    simp only [clampKey, UInt32.toNat_and]
    refine (congrArg (· &&& 0x3ffff03) hshift).trans ?_
    rw [and_mod_of_lt (k := 26) (by decide), hn]
    congr 1
    omega
  have l2 : (clampKey k).l2.toNat = ofLe (k.take 16) / 2 ^ 52 % 2 ^ 26 &&& 0x3ffc0ff := by
    have hshift := toNat_unpack_shift k 6 (s := 4) (by decide)
    simp only [clampKey, UInt32.toNat_and]
    refine (congrArg (· &&& 0x3ffc0ff) hshift).trans ?_
    rw [and_mod_of_lt (k := 26) (by decide), hn]
    congr 1
    omega
  have l3 : (clampKey k).l3.toNat = ofLe (k.take 16) / 2 ^ 78 % 2 ^ 26 &&& 0x3f03fff := by
    have hshift := toNat_unpack_shift k 9 (s := 6) (by decide)
    simp only [clampKey, UInt32.toNat_and]
    refine (congrArg (· &&& 0x3f03fff) hshift).trans ?_
    rw [and_mod_of_lt (k := 26) (by decide), hn]
    congr 1
    omega
  have l4 : (clampKey k).l4.toNat = ofLe (k.take 16) / 2 ^ 104 &&& 0x00fffff := by
    have hshift := toNat_unpack_shift k 12 (s := 8) (by decide)
    simp only [clampKey, UInt32.toNat_and]
    refine (congrArg (· &&& 0x00fffff) hshift).trans ?_
    rw [hn]
    congr 1
    omega
  constructor
  · exact ⟨toNat_and_lt _ _ (by decide), toNat_and_lt _ _ (by decide),
      toNat_and_lt _ _ (by decide), toNat_and_lt _ _ (by decide), toNat_and_lt _ _ (by decide)⟩
  · generalize ofLe (k.take 16) = n at *
    rw [Limbs.val, l0, l1, l2, l3, l4, and_split n _ 26, and_split (n / 2 ^ 26) _ 26,
      and_split (n / 2 ^ 26 / 2 ^ 26) _ 26, and_split (n / 2 ^ 26 / 2 ^ 26 / 2 ^ 26) _ 26]
    simp only [Nat.div_div_eq_div_mul, ← pow_add]
    norm_num
    ring

/-! ## 5. The result -/

/-- Every limb in its 26 bits. -/
structure Limbs.Full (h : Limbs) : Prop where
  l0 : h.l0.toNat < 2 ^ 26
  l1 : h.l1.toNat < 2 ^ 26
  l2 : h.l2.toNat < 2 ^ 26
  l3 : h.l3.toNat < 2 ^ 26
  l4 : h.l4.toNat < 2 ^ 26

/-- **Running the carries to the end.**  The last line may carry into the second limb once more;
it does so only when that limb was just reduced, so that it stays in its 26 bits. -/
theorem val_fullCarry {h : Limbs} (hh : h.Carried) :
    (fullCarry h).Full ∧ (fullCarry h).val ≡ h.val [MOD 2 ^ 130 - 5] := by
  obtain ⟨b0, b1, b2, b3, b4⟩ := hh
  simp only [fullCarry]
  have c1 := toNat_shiftRight_26 h.l1
  have e2 := toNat_add_of_lt (x := h.l2) (y := h.l1 >>> 26) (by omega)
  generalize h.l2 + h.l1 >>> 26 = x2 at e2 ⊢
  have c2 := toNat_shiftRight_26 x2
  have e3 := toNat_add_of_lt (x := h.l3) (y := x2 >>> 26) (by omega)
  generalize h.l3 + x2 >>> 26 = x3 at e3 ⊢
  have c3 := toNat_shiftRight_26 x3
  have e4 := toNat_add_of_lt (x := h.l4) (y := x3 >>> 26) (by omega)
  generalize h.l4 + x3 >>> 26 = x4 at e4 ⊢
  have c4 := toNat_shiftRight_26 x4
  have m4 := toNat_mul_five (x := x4 >>> 26) (by omega)
  have e0 := toNat_add_of_lt (x := h.l0) (y := x4 >>> 26 * 5) (by omega)
  generalize h.l0 + x4 >>> 26 * 5 = x0 at e0 ⊢
  have c0 := toNat_shiftRight_26 x0
  have k1 := toNat_and_26 h.l1
  have e1 := toNat_add_of_lt (x := h.l1 &&& 0x3ffffff) (y := x0 >>> 26) (by omega)
  generalize (h.l1 &&& (0x3ffffff : UInt32)) + x0 >>> 26 = x1 at e1 ⊢
  constructor
  · constructor <;> simp only [toNat_and_26] <;> omega
  · have hval : h.val = Limbs.val ⟨x0 &&& 0x3ffffff, x1, x2 &&& 0x3ffffff, x3 &&& 0x3ffffff,
        x4 &&& 0x3ffffff⟩ + (2 ^ 130 - 5) * (x4.toNat / 2 ^ 26) := by
      simp only [Limbs.val, toNat_and_26]
      omega
    rw [Nat.ModEq, hval, Nat.add_mul_mod_self_left]

theorem Limbs.Full.val_lt {h : Limbs} (hh : h.Full) : h.val < 2 ^ 130 := by
  obtain ⟨b0, b1, b2, b3, b4⟩ := hh
  unfold Limbs.val
  omega

/-- The mask with all bits set takes the second word. -/
theorem select_second (x y : UInt32) : (x &&& ~~~((0 : UInt32) - 1)) ||| (y &&& (0 - 1)) = y := by
  have hnot : ~~~((0 : UInt32) - 1) = 0 := by decide
  have hones : (0 : UInt32) - 1 = -1 := by decide
  rw [hnot, hones, UInt32.and_zero, UInt32.and_neg_one, UInt32.zero_or]

/-- The mask with no bit set takes the first word. -/
theorem select_first (x y : UInt32) : (x &&& ~~~((1 : UInt32) - 1)) ||| (y &&& (1 - 1)) = x := by
  have hnot : ~~~((1 : UInt32) - 1) = -1 := by decide
  have hzero : (1 : UInt32) - 1 = 0 := by decide
  rw [hnot, hzero, UInt32.and_zero, UInt32.and_neg_one, UInt32.or_zero]

/-- **The masked subtraction** leaves the residue below `p`. -/
theorem val_selectLimbs {h : Limbs} (hh : h.Full) :
    (selectLimbs h (plusMinusP h)).Full ∧
      (selectLimbs h (plusMinusP h)).val = h.val % (2 ^ 130 - 5) := by
  have hlt := hh.val_lt
  obtain ⟨b0, b1, b2, b3, b4⟩ := id hh
  simp only [plusMinusP]
  have hfive : (5 : UInt32).toNat = 5 := rfl
  have e0 := toNat_add_of_lt (x := h.l0) (y := 5) (by rw [hfive]; omega)
  rw [hfive] at e0
  generalize h.l0 + 5 = x0 at e0 ⊢
  have c0 := toNat_shiftRight_26 x0
  have e1 := toNat_add_of_lt (x := h.l1) (y := x0 >>> 26) (by omega)
  generalize h.l1 + x0 >>> 26 = x1 at e1 ⊢
  have c1 := toNat_shiftRight_26 x1
  have e2 := toNat_add_of_lt (x := h.l2) (y := x1 >>> 26) (by omega)
  generalize h.l2 + x1 >>> 26 = x2 at e2 ⊢
  have c2 := toNat_shiftRight_26 x2
  have e3 := toNat_add_of_lt (x := h.l3) (y := x2 >>> 26) (by omega)
  generalize h.l3 + x2 >>> 26 = x3 at e3 ⊢
  have c3 := toNat_shiftRight_26 x3
  have e4 := toNat_add_of_lt (x := h.l4) (y := x3 >>> 26) (by omega)
  generalize h.l4 + x3 >>> 26 = x4 at e4 ⊢
  have hsub : (x4 - (1 : UInt32) <<< 26).toNat = (2 ^ 32 - 2 ^ 26 + x4.toNat) % 2 ^ 32 := by
    rw [UInt32.toNat_sub]
    rfl
  generalize x4 - (1 : UInt32) <<< 26 = r4 at hsub
  rcases Nat.lt_or_ge x4.toNat (2 ^ 26) with hx4 | hx4
  · -- no carry out of the last limb: `h` is below `p`
    have hmask : r4 >>> 31 = 1 := by
      apply UInt32.toNat_inj.mp
      rw [show (r4 >>> 31).toNat = r4.toNat / 2 ^ 31 from toNat_shiftRight r4 (by decide), hsub,
        UInt32.toNat_one]
      omega
    simp only [selectLimbs, hmask, select_first]
    refine ⟨hh, ?_⟩
    have hval : h.val < 2 ^ 130 - 5 := by
      simp only [Limbs.val]
      omega
    rw [Nat.mod_eq_of_lt hval]
  · have hmask : r4 >>> 31 = 0 := by
      apply UInt32.toNat_inj.mp
      rw [show (r4 >>> 31).toNat = r4.toNat / 2 ^ 31 from toNat_shiftRight r4 (by decide), hsub,
        UInt32.toNat_zero]
      omega
    simp only [selectLimbs, hmask, select_second]
    have hval : h.val = Limbs.val ⟨x0 &&& 0x3ffffff, x1 &&& 0x3ffffff, x2 &&& 0x3ffffff,
        x3 &&& 0x3ffffff, r4⟩ + (2 ^ 130 - 5) := by
      simp only [Limbs.val, toNat_and_26]
      omega
    constructor
    · constructor <;> simp only [toNat_and_26] <;> omega
    · omega

/-- Four words of 32 bits as one number. -/
def wordsVal (w : UInt32 × UInt32 × UInt32 × UInt32) : ℕ :=
  w.1.toNat + 2 ^ 32 * w.2.1.toNat + 2 ^ 64 * w.2.2.1.toNat + 2 ^ 96 * w.2.2.2.toNat

/-- The end of one limb and the start of the next, side by side in a word. -/
theorem toNat_join (x y : UInt32) {i k : ℕ} (hi : i < 32) (hk : k < 32)
    (hx : x.toNat / 2 ^ i < 2 ^ k) :
    ((x >>> UInt32.ofNat i) ||| (y <<< UInt32.ofNat k)).toNat =
      (x.toNat / 2 ^ i + 2 ^ k * y.toNat) % 2 ^ 32 := by
  have hmod : k % 2 ^ 32 % 32 = k := by omega
  have hpow : 2 ^ k ≤ 2 ^ 32 := Nat.pow_le_pow_right (by decide) hk.le
  rw [UInt32.toNat_or, toNat_shiftRight x hi, UInt32.toNat_shiftLeft, UInt32.toNat_ofNat', hmod,
    ← Nat.mod_eq_of_lt (lt_of_lt_of_le hx hpow), ← Nat.or_mod_two_pow,
    Mtls.or_shiftLeft_eq_add hx, Nat.mul_comm, Nat.mod_eq_of_lt (lt_of_lt_of_le hx hpow)]

/-- The words are the number modulo `2 ^ 128`. -/
theorem val_wordsOf {h : Limbs} (hh : h.Full) : wordsVal (wordsOf h) = h.val % 2 ^ 128 := by
  obtain ⟨b0, b1, b2, b3, b4⟩ := hh
  have w0 : (h.l0 ||| (h.l1 <<< 26)).toNat = (h.l0.toNat + 2 ^ 26 * h.l1.toNat) % 2 ^ 32 := by
    have hjoin := toNat_join h.l0 h.l1 (i := 0) (k := 26) (by decide) (by decide) (by omega)
    rw [pow_zero, Nat.div_one] at hjoin
    rw [← hjoin, show UInt32.ofNat 0 = 0 from rfl, UInt32.shiftRight_zero]
    rfl
  have w1 : ((h.l1 >>> 6) ||| (h.l2 <<< 20)).toNat =
      (h.l1.toNat / 2 ^ 6 + 2 ^ 20 * h.l2.toNat) % 2 ^ 32 :=
    toNat_join h.l1 h.l2 (i := 6) (k := 20) (by decide) (by decide) (by omega)
  have w2 : ((h.l2 >>> 12) ||| (h.l3 <<< 14)).toNat =
      (h.l2.toNat / 2 ^ 12 + 2 ^ 14 * h.l3.toNat) % 2 ^ 32 :=
    toNat_join h.l2 h.l3 (i := 12) (k := 14) (by decide) (by decide) (by omega)
  have w3 : ((h.l3 >>> 18) ||| (h.l4 <<< 8)).toNat =
      (h.l3.toNat / 2 ^ 18 + 2 ^ 8 * h.l4.toNat) % 2 ^ 32 :=
    toNat_join h.l3 h.l4 (i := 18) (k := 8) (by decide) (by decide) (by omega)
  simp only [wordsVal, wordsOf, w0, w1, w2, w3, Limbs.val]
  omega

theorem pack_eq (u : UInt32) : pack u = leBytes 4 u.toNat := Mtls.store32Le_eq_wordBytes u

theorem toNat_toUInt32_add (x y : UInt32) {c : UInt64} (hc : c.toNat < 2 ^ 33) :
    (x.toUInt64 + y.toUInt64 + c).toNat = x.toNat + y.toNat + c.toNat := by
  have hx : x.toNat < 2 ^ 32 := x.toNat_lt
  have hy : y.toNat < 2 ^ 32 := y.toNat_lt
  simp only [UInt64.toNat_add, UInt32.toNat_toUInt64]
  omega

/-- **The addition of the key's second half**, carried from word to word. -/
theorem addPad_eq (w : UInt32 × UInt32 × UInt32 × UInt32) (k : Bytes) :
    addPad w k = leBytes 16 (wordsVal w + ofLe (k.drop 16)) := by
  have hk (i : ℕ) : (unpack (k.drop (16 + i))).toNat = ofLe (k.drop 16) / 256 ^ i % 2 ^ 32 := by
    rw [← toNat_unpack_drop, List.drop_drop]
  have k0 := hk 0
  have k1 := hk 4
  have k2 := hk 8
  have k3 := hk 12
  have hshift (f : UInt64) : (f >>> 32).toNat = f.toNat / 2 ^ 32 := by
    rw [UInt64.toNat_shiftRight]
    exact Nat.shiftRight_eq_div_pow f.toNat 32
  simp only [addPad, pack_eq, UInt64.toNat_toUInt32]
  generalize ofLe (k.drop 16) = y at *
  have w0 : w.1.toNat < 2 ^ 32 := w.1.toNat_lt
  have w1 : w.2.1.toNat < 2 ^ 32 := w.2.1.toNat_lt
  have w2 : w.2.2.1.toNat < 2 ^ 32 := w.2.2.1.toNat_lt
  have w3 : w.2.2.2.toNat < 2 ^ 32 := w.2.2.2.toNat_lt
  have f0 : (w.1.toUInt64 + (unpack (k.drop 16)).toUInt64).toNat = w.1.toNat + y % 2 ^ 32 := by
    have h0 := toNat_toUInt32_add w.1 (unpack (k.drop 16)) (c := 0) (by decide)
    rw [k0, UInt64.add_zero] at h0
    simpa using h0
  generalize w.1.toUInt64 + (unpack (k.drop 16)).toUInt64 = x0 at f0 ⊢
  have c0 := hshift x0
  have f1 := toNat_toUInt32_add w.2.1 (unpack (k.drop 20)) (c := x0 >>> 32) (by omega)
  rw [k1] at f1
  generalize w.2.1.toUInt64 + (unpack (k.drop 20)).toUInt64 + x0 >>> 32 = x1 at f1 ⊢
  have c1 := hshift x1
  have f2 := toNat_toUInt32_add w.2.2.1 (unpack (k.drop 24)) (c := x1 >>> 32) (by omega)
  rw [k2] at f2
  generalize w.2.2.1.toUInt64 + (unpack (k.drop 24)).toUInt64 + x1 >>> 32 = x2 at f2 ⊢
  have c2 := hshift x2
  have f3 := toNat_toUInt32_add w.2.2.2 (unpack (k.drop 28)) (c := x2 >>> 32) (by omega)
  rw [k3] at f3
  generalize w.2.2.2.toUInt64 + (unpack (k.drop 28)).toUInt64 + x2 >>> 32 = x3 at f3 ⊢
  rw [leBytes_append (by omega), leBytes_append (by omega), leBytes_append (by omega),
    ← leBytes_mod 16 (wordsVal w + y)]
  congr 1
  simp only [wordsVal]
  omega

theorem poly1305Acc_lt (r n acc : ℕ) (m : Bytes) (h : acc < 2 ^ 130 - 5) :
    poly1305Acc r n acc m < 2 ^ 130 - 5 := by
  induction n generalizing acc m with
  | zero => exact h
  | succ n ih =>
    unfold poly1305Acc
    split
    · exact h
    · exact ih _ _ (Nat.mod_lt _ (by decide))

/-- The bytes of `o` before they are put in an array. -/
theorem addPad_selectLimbs_eq (m : Bytes) (k : Bytes) :
    addPad (wordsOf (selectLimbs (fullCarry (blocksLoop (clampKey k) m.length zeroLimbs m))
        (plusMinusP (fullCarry (blocksLoop (clampKey k) m.length zeroLimbs m))))) k =
      leBytes 16 (poly1305Acc (ofLe (k.take 16) &&& 0x0ffffffc0ffffffc0ffffffc0fffffff)
        m.length 0 m + ofLe (k.drop 16)) := by
  obtain ⟨hclamped, hr⟩ := val_clampKey k
  have hzero : zeroLimbs.Carried := by constructor <;> decide
  obtain ⟨hcarried, hloop⟩ := val_blocksLoop hclamped m.length hzero m 0 rfl
  obtain ⟨hfull, hcarry⟩ := val_fullCarry hcarried
  obtain ⟨hfull', hselect⟩ := val_selectLimbs hfull
  have hacc : (fullCarry (blocksLoop (clampKey k) m.length zeroLimbs m)).val % (2 ^ 130 - 5) =
      poly1305Acc (clampKey k).val m.length 0 m := by
    rw [hcarry.trans hloop]
    exact Nat.mod_eq_of_lt (poly1305Acc_lt _ _ _ _ (by decide))
  rw [addPad_eq, val_wordsOf hfull', hselect, hacc, hr]
  generalize poly1305Acc _ m.length 0 m = x
  have hpow : (2 : ℕ) ^ 128 = 256 ^ 16 := by norm_num
  rw [hpow, ← leBytes_mod, Nat.mod_add_mod, leBytes_mod]

theorem cryptoOnetimeauthPoly1305_eq (m : Bytes) (k : Vector UInt8 32) :
    cryptoOnetimeauthPoly1305 m k = poly1305 m k :=
  congrArg (toVector 16) (addPad_selectLimbs_eq m k.toList)

theorem cryptoOnetimeauthPoly1305Verify_eq_zero_iff (h : Vector UInt8 16) (m : Bytes)
    (k : Vector UInt8 32) : cryptoOnetimeauthPoly1305Verify h m k = 0 ↔ h = poly1305 m k := by
  rw [cryptoOnetimeauthPoly1305Verify, Mtls.verify_eq_zero_iff, cryptoOnetimeauthPoly1305_eq,
    eq_comm]

/-- **The tag is RFC 8439's**, for every message and key, and the verification accepts that tag
and no other. -/
theorem cryptoOnetimeauthPoly1305_rfc8439 (m : Bytes) (k : Vector UInt8 32) :
    cryptoOnetimeauthPoly1305 m k = poly1305 m k ∧
      ∀ h, cryptoOnetimeauthPoly1305Verify h m k = 0 ↔ h = poly1305 m k :=
  ⟨cryptoOnetimeauthPoly1305_eq m k, fun h => cryptoOnetimeauthPoly1305Verify_eq_zero_iff h m k⟩

/-- The test vector of RFC 8439 §2.5.2. -/
example : (cryptoOnetimeauthPoly1305 (ascii "Cryptographic Forum Research Group")
    #v[0x85, 0xd6, 0xbe, 0x78, 0x57, 0x55, 0x6d, 0x33, 0x7f, 0x44, 0x52, 0xfe, 0x42, 0xd5, 0x06,
      0xa8, 0x01, 0x03, 0x80, 0x8a, 0xfb, 0x0d, 0xb2, 0xfd, 0x4a, 0xbf, 0xf6, 0xaf, 0x41, 0x49,
      0xf5, 0x1b]).toList =
    [0xa8, 0x06, 0x1d, 0xc1, 0x30, 0x51, 0x36, 0xc6, 0xc2, 0x2b, 0x8b, 0xaf, 0x0c, 0x01, 0x27,
      0xa9] := by
  decide

/-! ## 6. The AEAD as it is built -/

/-- **With tinynacl's Poly1305 the AEAD is RFC 8439's, nothing left open**: `glo_aead_seal` is
`AEAD_CHACHA20_POLY1305`, and `glo_aead_open` accepts a pair exactly when it is the encryption of
what it then returns, leaving its buffer alone otherwise. -/
theorem gloAead_tinynacl (key : Vector UInt8 32) (nonce : Vector UInt8 12) (aad : Bytes) :
    (∀ pt, Mtls.gloAeadSeal cryptoOnetimeauthPoly1305 true pt aad key nonce =
      { rc := 0
        ct := (aeadEncrypt poly1305 key nonce pt aad).1
        tag := some (aeadEncrypt poly1305 key nonce pt aad).2 }) ∧
    ∀ buf ct tag, buf.length = ct.length →
      Mtls.gloAeadOpen cryptoOnetimeauthPoly1305 true buf ct tag aad key nonce =
        if aeadEncrypt poly1305 key nonce (encrypt key 1 nonce ct) aad = (ct, tag) then
          { rc := 0, pt := encrypt key 1 nonce ct }
        else { rc := -1, pt := buf } := by
  have hpoly : cryptoOnetimeauthPoly1305 = poly1305 := by
    funext m k
    exact cryptoOnetimeauthPoly1305_eq m k
  rw [hpoly]
  refine ⟨fun pt => Mtls.gloAeadSeal_eq poly1305 key nonce pt aad, ?_⟩
  intro buf ct tag hlen
  have hbuf : overwrite buf 0 (encrypt key 1 nonce ct) = encrypt key 1 nonce ct := by
    simp [overwrite, hlen]
  rw [Mtls.gloAeadOpen_eq, hbuf]
  simp only [Mtls.aeadEncrypt_eq_iff, and_true]

end Glossh.Tinynacl
