/-
# The SHA-2 hash functions as FIPS 180-4 defines them

The functions of FIPS 180-4 sections 4 to 6 for words of any width: `Params` holds what sets
SHA-256 and SHA-512 apart (the constants, the initial value, the four sigma functions, the length
of the length field), everything else is stated once.

A hash function of this kind runs a compression function over the blocks of the padded message.
The first section is about that alone, for any compression function: `absorb_append` says that
running over a message first and over its padded rest then is running over the padded message.
-/
import Glossh.Lib.Bytes

namespace Glossh
namespace Fips180

open Bytes

/-! ## 1. Running over the blocks of a byte string -/

section

variable {σ : Type} (f : σ → Bytes → σ) (B : ℕ)

/-- The first `n` blocks of `B` bytes, one after the other. -/
def absorbBlocks : ℕ → σ → Bytes → σ
  | 0, z, _ => z
  | n + 1, z, m => absorbBlocks n (f z (m.take B)) (m.drop B)

/-- All whole blocks. -/
def absorb (z : σ) (m : Bytes) : σ := absorbBlocks f B (m.length / B) z m

theorem absorbBlocks_append {n : ℕ} {a : Bytes} (h : a.length = B * n) (k : ℕ) (z : σ)
    (b : Bytes) :
    absorbBlocks f B (n + k) z (a ++ b) = absorbBlocks f B k (absorbBlocks f B n z a) b := by
  induction n generalizing a z with
  | zero =>
    have hnil : a = [] := List.length_eq_zero_iff.mp h
    rw [hnil, Nat.zero_add]
    rfl
  | succ n ih =>
    have hle : B ≤ a.length := by rw [h, Nat.mul_add, Nat.mul_one]; omega
    have hdrop : (a.drop B).length = B * n := by
      rw [List.length_drop, h, Nat.mul_add, Nat.mul_one, Nat.add_sub_cancel]
    rw [Nat.add_right_comm, absorbBlocks, absorbBlocks, List.take_append_of_le_length hle,
      List.drop_append_of_le_length hle, ih hdrop]

/-- **A message is absorbed piece by piece**: what is left of the first piece after its whole
blocks goes in front of the second. -/
theorem absorb_append {B : ℕ} (hB : 0 < B) (z : σ) (m p : Bytes) :
    absorb f B z (m ++ p) =
      absorb f B (absorb f B z m) (m.drop (B * (m.length / B)) ++ p) := by
  have hle : B * (m.length / B) ≤ m.length := Nat.mul_div_le m.length B
  have hwhole : (m.take (B * (m.length / B))).length = B * (m.length / B) := by
    rw [List.length_take, Nat.min_eq_left hle]
  have hsplit : m ++ p =
      m.take (B * (m.length / B)) ++ (m.drop (B * (m.length / B)) ++ p) := by
    rw [← List.append_assoc, List.take_append_drop]
  have hcount : (m ++ p).length / B =
      m.length / B + (m.drop (B * (m.length / B)) ++ p).length / B := by
    have hlen : (m ++ p).length =
        (m.drop (B * (m.length / B)) ++ p).length + B * (m.length / B) := by
      simp only [List.length_append, List.length_drop]
      omega
    rw [hlen, Nat.add_mul_div_left _ _ hB, Nat.add_comm]
  have hfirst : absorb f B z m =
      absorbBlocks f B (m.length / B) z (m.take (B * (m.length / B))) := by
    have h := absorbBlocks_append f B hwhole 0 z (m.drop (B * (m.length / B)))
    rwa [List.take_append_drop] at h
  calc absorb f B z (m ++ p)
      = absorbBlocks f B (m.length / B + (m.drop (B * (m.length / B)) ++ p).length / B) z
          (m.take (B * (m.length / B)) ++ (m.drop (B * (m.length / B)) ++ p)) := by
        rw [absorb, hcount, ← hsplit]
    _ = absorb f B (absorbBlocks f B (m.length / B) z (m.take (B * (m.length / B))))
          (m.drop (B * (m.length / B)) ++ p) := absorbBlocks_append f B hwhole _ z _
    _ = absorb f B (absorb f B z m) (m.drop (B * (m.length / B)) ++ p) := by rw [hfirst]

end

/-! ## 2. Words, functions and constants -/

/-- The eight working variables, or the eight words of a hash value. -/
structure Vars (w : ℕ) where
  a : BitVec w
  b : BitVec w
  c : BitVec w
  d : BitVec w
  e : BitVec w
  f : BitVec w
  g : BitVec w
  h : BitVec w
deriving DecidableEq

/-- What sets the members of the family apart. -/
structure Params (w : ℕ) where
  rounds : ℕ
  K : ℕ → BitVec w
  bigSigma0 : BitVec w → BitVec w
  bigSigma1 : BitVec w → BitVec w
  smallSigma0 : BitVec w → BitVec w
  smallSigma1 : BitVec w → BitVec w
  init : Vars w
  /-- Bytes of a block, and of the message length at the end of the last one. -/
  block : ℕ
  lengthBytes : ℕ

section

variable {w : ℕ}

/-- §4.1: `Ch`. -/
def Ch (x y z : BitVec w) : BitVec w := (x &&& y) ^^^ (~~~x &&& z)

/-- §4.1: `Maj`. -/
def Maj (x y z : BitVec w) : BitVec w := (x &&& y) ^^^ (x &&& z) ^^^ (y &&& z)

/-- §5.2: word `t` of a block. -/
def blockWord (w : ℕ) (block : Bytes) (t : ℕ) : BitVec w :=
  BitVec.ofNat w (ofBe ((block.drop (w / 8 * t)).take (w / 8)))

variable (p : Params w)

/-- §6.2.2 and §6.4.2, step 1: the message schedule. -/
def schedule (block : Bytes) (t : ℕ) : BitVec w :=
  if t < 16 then blockWord w block t
  else
    p.smallSigma1 (schedule block (t - 2)) + schedule block (t - 7) +
      p.smallSigma0 (schedule block (t - 15)) + schedule block (t - 16)
termination_by t

/-- Step 3: round `t` on the working variables. -/
def round (block : Bytes) (v : Vars w) (t : ℕ) : Vars w :=
  let T1 := v.h + p.bigSigma1 v.e + Ch v.e v.f v.g + p.K t + schedule p block t
  let T2 := p.bigSigma0 v.a + Maj v.a v.b v.c
  { a := T1 + T2, b := v.a, c := v.b, d := v.c, e := v.d + T1, f := v.e, g := v.f, h := v.g }

/-- Steps 2 to 4: the rounds, and the intermediate hash value added. -/
def compress (H : Vars w) (block : Bytes) : Vars w :=
  let v := (List.range p.rounds).foldl (round p block) H
  { a := v.a + H.a, b := v.b + H.b, c := v.c + H.c, d := v.d + H.d, e := v.e + H.e,
    f := v.f + H.f, g := v.g + H.g, h := v.h + H.h }

/-- §5.1: a one bit, zeros up to the end of a block, and the length in bits. -/
def pad (m : Bytes) : Bytes :=
  m ++ [0x80] ++ zeroPad p.block (m.length + 1 + p.lengthBytes) ++
    beBytes p.lengthBytes (8 * m.length)

/-- The words of a hash value, high byte first. -/
def Vars.bytes (v : Vars w) : Bytes :=
  [v.a, v.b, v.c, v.d, v.e, v.f, v.g, v.h].flatMap fun x => beBytes (w / 8) x.toNat

/-- §6.2 and §6.4: the hash of a message. -/
def digest (m : Bytes) : Bytes := (absorb (compress p) p.block p.init (pad p m)).bytes

end

/-! ## 3. SHA-256 and SHA-512 -/

/-- §4.2.2: the fractional parts of the cube roots of the first sixty-four primes. -/
def K256 : List (BitVec 32) :=
  [0x428a2f98, 0x71374491, 0xb5c0fbcf, 0xe9b5dba5, 0x3956c25b, 0x59f111f1,
    0x923f82a4, 0xab1c5ed5, 0xd807aa98, 0x12835b01, 0x243185be, 0x550c7dc3,
    0x72be5d74, 0x80deb1fe, 0x9bdc06a7, 0xc19bf174, 0xe49b69c1, 0xefbe4786,
    0x0fc19dc6, 0x240ca1cc, 0x2de92c6f, 0x4a7484aa, 0x5cb0a9dc, 0x76f988da,
    0x983e5152, 0xa831c66d, 0xb00327c8, 0xbf597fc7, 0xc6e00bf3, 0xd5a79147,
    0x06ca6351, 0x14292967, 0x27b70a85, 0x2e1b2138, 0x4d2c6dfc, 0x53380d13,
    0x650a7354, 0x766a0abb, 0x81c2c92e, 0x92722c85, 0xa2bfe8a1, 0xa81a664b,
    0xc24b8b70, 0xc76c51a3, 0xd192e819, 0xd6990624, 0xf40e3585, 0x106aa070,
    0x19a4c116, 0x1e376c08, 0x2748774c, 0x34b0bcb5, 0x391c0cb3, 0x4ed8aa4a,
    0x5b9cca4f, 0x682e6ff3, 0x748f82ee, 0x78a5636f, 0x84c87814, 0x8cc70208,
    0x90befffa, 0xa4506ceb, 0xbef9a3f7, 0xc67178f2]

/-- §4.2.3: the same of the first eighty primes, in 64 bits. -/
def K512 : List (BitVec 64) :=
  [0x428a2f98d728ae22, 0x7137449123ef65cd, 0xb5c0fbcfec4d3b2f, 0xe9b5dba58189dbbc,
    0x3956c25bf348b538, 0x59f111f1b605d019, 0x923f82a4af194f9b, 0xab1c5ed5da6d8118,
    0xd807aa98a3030242, 0x12835b0145706fbe, 0x243185be4ee4b28c, 0x550c7dc3d5ffb4e2,
    0x72be5d74f27b896f, 0x80deb1fe3b1696b1, 0x9bdc06a725c71235, 0xc19bf174cf692694,
    0xe49b69c19ef14ad2, 0xefbe4786384f25e3, 0x0fc19dc68b8cd5b5, 0x240ca1cc77ac9c65,
    0x2de92c6f592b0275, 0x4a7484aa6ea6e483, 0x5cb0a9dcbd41fbd4, 0x76f988da831153b5,
    0x983e5152ee66dfab, 0xa831c66d2db43210, 0xb00327c898fb213f, 0xbf597fc7beef0ee4,
    0xc6e00bf33da88fc2, 0xd5a79147930aa725, 0x06ca6351e003826f, 0x142929670a0e6e70,
    0x27b70a8546d22ffc, 0x2e1b21385c26c926, 0x4d2c6dfc5ac42aed, 0x53380d139d95b3df,
    0x650a73548baf63de, 0x766a0abb3c77b2a8, 0x81c2c92e47edaee6, 0x92722c851482353b,
    0xa2bfe8a14cf10364, 0xa81a664bbc423001, 0xc24b8b70d0f89791, 0xc76c51a30654be30,
    0xd192e819d6ef5218, 0xd69906245565a910, 0xf40e35855771202a, 0x106aa07032bbd1b8,
    0x19a4c116b8d2d0c8, 0x1e376c085141ab53, 0x2748774cdf8eeb99, 0x34b0bcb5e19b48a8,
    0x391c0cb3c5c95a63, 0x4ed8aa4ae3418acb, 0x5b9cca4f7763e373, 0x682e6ff3d6b2b8a3,
    0x748f82ee5defb2fc, 0x78a5636f43172f60, 0x84c87814a1f0ab72, 0x8cc702081a6439ec,
    0x90befffa23631e28, 0xa4506cebde82bde9, 0xbef9a3f7b2c67915, 0xc67178f2e372532b,
    0xca273eceea26619c, 0xd186b8c721c0c207, 0xeada7dd6cde0eb1e, 0xf57d4f7fee6ed178,
    0x06f067aa72176fba, 0x0a637dc5a2c898a6, 0x113f9804bef90dae, 0x1b710b35131c471b,
    0x28db77f523047d84, 0x32caab7b40c72493, 0x3c9ebe0a15c9bebc, 0x431d67c49c100d4c,
    0x4cc5d4becb3e42b6, 0x597f299cfc657e2a, 0x5fcb6fab3ad6faec, 0x6c44198c4a475817]

/-- §4.1.2, §4.2.2, §5.3.3. -/
def sha256 : Params 32 where
  rounds := 64
  K t := K256.getD t 0
  bigSigma0 x := x.rotateRight 2 ^^^ x.rotateRight 13 ^^^ x.rotateRight 22
  bigSigma1 x := x.rotateRight 6 ^^^ x.rotateRight 11 ^^^ x.rotateRight 25
  smallSigma0 x := x.rotateRight 7 ^^^ x.rotateRight 18 ^^^ x >>> 3
  smallSigma1 x := x.rotateRight 17 ^^^ x.rotateRight 19 ^^^ x >>> 10
  init :=
    { a := 0x6a09e667, b := 0xbb67ae85, c := 0x3c6ef372, d := 0xa54ff53a
      e := 0x510e527f, f := 0x9b05688c, g := 0x1f83d9ab, h := 0x5be0cd19 }
  block := 64
  lengthBytes := 8

/-- §4.1.3, §4.2.3, §5.3.5. -/
def sha512 : Params 64 where
  rounds := 80
  K t := K512.getD t 0
  bigSigma0 x := x.rotateRight 28 ^^^ x.rotateRight 34 ^^^ x.rotateRight 39
  bigSigma1 x := x.rotateRight 14 ^^^ x.rotateRight 18 ^^^ x.rotateRight 41
  smallSigma0 x := x.rotateRight 1 ^^^ x.rotateRight 8 ^^^ x >>> 7
  smallSigma1 x := x.rotateRight 19 ^^^ x.rotateRight 61 ^^^ x >>> 6
  init :=
    { a := 0x6a09e667f3bcc908, b := 0xbb67ae8584caa73b, c := 0x3c6ef372fe94f82b
      d := 0xa54ff53a5f1d36f1, e := 0x510e527fade682d1, f := 0x9b05688c2b3e6c1f
      g := 0x1f83d9abfb41bd6b, h := 0x5be0cd19137e2179 }
  block := 128
  lengthBytes := 16

end Fips180
end Glossh
