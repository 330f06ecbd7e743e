/-
# `crypto_hash_sha256.c` and `crypto_hash_sha512.c` compute SHA-256 and SHA-512

The two files are one text with different words: `HashFile` holds what they disagree in, the
functions they share are written once over it, and each file's own functions are those
functions at its values.

Both hash the whole blocks of the message where it lies, and then the rest of it, the one bit,
the zeros and the length in a buffer of two blocks.  `crypto_hash_sha512` stores a length of 128
bits as nine bytes: a count of bytes below `2 ^ 64` has no more bits than that.

* `varsOf_blockStep`: the loops over the arrays `a`, `b` and `w` are FIPS 180-4's compression;
* `tailBuffer_eq`: the buffer holds the padding of FIPS 180-4 §5.1;
* `cryptoHashSha256_fips180`, `cryptoHashSha512_fips180`: the digests are the standard's.
-/
import Glossh.Lib.Fips180

namespace Glossh.Tinynacl

open Bytes Fips180

/-! ## 1. The functions of the two files -/

section

variable {w : ℕ}

/-- `store32_bigendian` and `store64_bigendian`, from the last byte on. -/
def storeBigendianLoop : ℕ → BitVec w → Bytes → Bytes
  | 0, _, y => y
  | i + 1, x, y => storeBigendianLoop i (x >>> 8) (UInt8.ofBitVec (x.setWidth 8) :: y)

def storeBigendian (x : BitVec w) : Bytes := storeBigendianLoop (w / 8) x []

/-- `load32_bigendian` and `load64_bigendian`. -/
def loadBigendian (w : ℕ) (x : Bytes) : BitVec w :=
  (List.range (w / 8)).foldl (fun y i => (y <<< 8) ||| (x.getD i 0).toBitVec.setWidth w) 0

/-- `R`. -/
def R (x : BitVec w) (c : ℕ) : BitVec w := (x >>> c) ||| ((x &&& BitVec.allOnes w) <<< (w - c))

/-- What a file fixes. -/
structure HashFile (w : ℕ) where
  K : List (BitVec w)
  Sigma0 : BitVec w → BitVec w
  Sigma1 : BitVec w → BitVec w
  sigma0 : BitVec w → BitVec w
  sigma1 : BitVec w → BitVec w
  h : Vector (BitVec w) 8
  /-- The block length, and the room for the length at the end of the last block. -/
  block : ℕ
  room : ℕ

variable (F : HashFile w)

/-- The array `w` of `blocks`, one word for each round. -/
def messageWords (m : Bytes) : List (BitVec w) :=
  (List.range' 16 (F.K.length - 16)).foldl
    (fun w i => w ++ [(F.sigma1 (w.getD (i - 2) 0) + w.getD (i - 7) 0 +
      F.sigma0 (w.getD (i - 15) 0) + w.getD (i - 16) 0) &&& BitVec.allOnes _])
    ((List.range 16).map fun i => loadBigendian w (m.drop (w / 8 * i)))

/-- One turn of the loop over the rounds. -/
def roundStep (ws : List (BitVec w)) (a : Vector (BitVec w) 8) (i : ℕ) : Vector (BitVec w) 8 :=
  let b := a
  let t := a.getD 7 0 + F.Sigma1 (a.getD 4 0) + Ch (a.getD 4 0) (a.getD 5 0) (a.getD 6 0) +
    F.K.getD i 0 + ws.getD i 0
  let b := b.setIfInBounds 7 (t + F.Sigma0 (a.getD 0 0) +
    Maj (a.getD 0 0) (a.getD 1 0) (a.getD 2 0))
  let b := b.setIfInBounds 3 (b.getD 3 0 + t)
  (List.range 8).foldl
    (fun a j => a.setIfInBounds ((j + 1) % 8) (b.getD j 0 &&& BitVec.allOnes w)) a

/-- One turn of the loop of `blocks`.  It starts with `a` equal to `z`, and ends so. -/
def blockStep (z : Vector (BitVec w) 8) (m : Bytes) : Vector (BitVec w) 8 :=
  let a := (List.range F.K.length).foldl (roundStep F (messageWords F m)) z
  (List.range 8).foldl
    (fun z i => z.setIfInBounds i ((a.getD i 0 + z.getD i 0) &&& BitVec.allOnes w)) z

/-- `blocks`, for a message of at most so many bytes. -/
def blocks : ℕ → Vector (BitVec w) 8 → Bytes → Vector (BitVec w) 8
  | 0, z, _ => z
  | n + 1, z, m => if F.block ≤ m.length then blocks n (blockStep F z m) (m.drop F.block) else z

end

/-- The constants of `crypto_hash_sha256.c`. -/
def sha256File : HashFile 32 where
  K := [0x428a2f98, 0x71374491, 0xb5c0fbcf, 0xe9b5dba5,
    0x3956c25b, 0x59f111f1, 0x923f82a4, 0xab1c5ed5,
    0xd807aa98, 0x12835b01, 0x243185be, 0x550c7dc3,
    0x72be5d74, 0x80deb1fe, 0x9bdc06a7, 0xc19bf174,
    0xe49b69c1, 0xefbe4786, 0x0fc19dc6, 0x240ca1cc,
    0x2de92c6f, 0x4a7484aa, 0x5cb0a9dc, 0x76f988da,
    0x983e5152, 0xa831c66d, 0xb00327c8, 0xbf597fc7,
    0xc6e00bf3, 0xd5a79147, 0x06ca6351, 0x14292967,
    0x27b70a85, 0x2e1b2138, 0x4d2c6dfc, 0x53380d13,
    0x650a7354, 0x766a0abb, 0x81c2c92e, 0x92722c85,
    0xa2bfe8a1, 0xa81a664b, 0xc24b8b70, 0xc76c51a3,
    0xd192e819, 0xd6990624, 0xf40e3585, 0x106aa070,
    0x19a4c116, 0x1e376c08, 0x2748774c, 0x34b0bcb5,
    0x391c0cb3, 0x4ed8aa4a, 0x5b9cca4f, 0x682e6ff3,
    0x748f82ee, 0x78a5636f, 0x84c87814, 0x8cc70208,
    0x90befffa, 0xa4506ceb, 0xbef9a3f7, 0xc67178f2]
  Sigma0 x := R x 2 ^^^ R x 13 ^^^ R x 22
  Sigma1 x := R x 6 ^^^ R x 11 ^^^ R x 25
  sigma0 x := R x 7 ^^^ R x 18 ^^^ (x >>> 3)
  sigma1 x := R x 17 ^^^ R x 19 ^^^ (x >>> 10)
  h := #v[0x6a09e667, 0xbb67ae85, 0x3c6ef372, 0xa54ff53a,
    0x510e527f, 0x9b05688c, 0x1f83d9ab, 0x5be0cd19]
  block := 64
  room := 8

/-- The constants of `crypto_hash_sha512.c`. -/
def sha512File : HashFile 64 where
  K := [0x428a2f98d728ae22, 0x7137449123ef65cd, 0xb5c0fbcfec4d3b2f, 0xe9b5dba58189dbbc,
    0x3956c25bf348b538, 0x59f111f1b605d019, 0x923f82a4af194f9b, 0xab1c5ed5da6d8118,
    0xd807aa98a3030242, 0x12835b0145706fbe, 0x243185be4ee4b28c, 0x550c7dc3d5ffb4e2,
    0x72be5d74f27b896f, 0x80deb1fe3b1696b1, 0x9bdc06a725c71235, 0xc19bf174cf692694,
    0xe49b69c19ef14ad2, 0xefbe4786384f25e3, 0x0fc19dc68b8cd5b5, 0x240ca1cc77ac9c65,
    0x2de92c6f592b0275, 0x4a7484aa6ea6e483, 0x5cb0a9dcbd41fbd4, 0x76f988da831153b5,
    0x983e5152ee66dfab, 0xa831c66d2db43210, 0xb00327c898fb213f, 0xbf597fc7beef0ee4,
    0xc6e00bf33da88fc2, 0xd5a79147930aa725, 0x06ca6351e003826f, 0x142929670a0e6e70,
    0x27b70a8546d22ffc, 0x2e1b21385c26c926, 0x4d2c6dfc5ac42aed, 0x53380d139d95b3df,
    0x650a73548baf63de, 0x766a0abb3c77b2a8, 0x81c2c92e47edaee6, 0x92722c851482353b,
    0xa2bfe8a14cf10364, 0xa81a664bbc423001, 0xc24b8b70d0f89791, 0xc76c51a30654be30,
    0xd192e819d6ef5218, 0xd69906245565a910, 0xf40e35855771202a, 0x106aa07032bbd1b8,
    0x19a4c116b8d2d0c8, 0x1e376c085141ab53, 0x2748774cdf8eeb99, 0x34b0bcb5e19b48a8,
    0x391c0cb3c5c95a63, 0x4ed8aa4ae3418acb, 0x5b9cca4f7763e373, 0x682e6ff3d6b2b8a3,
    0x748f82ee5defb2fc, 0x78a5636f43172f60, 0x84c87814a1f0ab72, 0x8cc702081a6439ec,
    0x90befffa23631e28, 0xa4506cebde82bde9, 0xbef9a3f7b2c67915, 0xc67178f2e372532b,
    0xca273eceea26619c, 0xd186b8c721c0c207, 0xeada7dd6cde0eb1e, 0xf57d4f7fee6ed178,
    0x06f067aa72176fba, 0x0a637dc5a2c898a6, 0x113f9804bef90dae, 0x1b710b35131c471b,
    0x28db77f523047d84, 0x32caab7b40c72493, 0x3c9ebe0a15c9bebc, 0x431d67c49c100d4c,
    0x4cc5d4becb3e42b6, 0x597f299cfc657e2a, 0x5fcb6fab3ad6faec, 0x6c44198c4a475817]
  Sigma0 x := R x 28 ^^^ R x 34 ^^^ R x 39
  Sigma1 x := R x 14 ^^^ R x 18 ^^^ R x 41
  sigma0 x := R x 1 ^^^ R x 8 ^^^ (x >>> 7)
  sigma1 x := R x 19 ^^^ R x 61 ^^^ (x >>> 6)
  h := #v[0x6a09e667f3bcc908, 0xbb67ae8584caa73b, 0x3c6ef372fe94f82b, 0xa54ff53a5f1d36f1,
    0x510e527fade682d1, 0x9b05688c2b3e6c1f, 0x1f83d9abfb41bd6b, 0x5be0cd19137e2179]
  block := 128
  room := 16

/-- The array `x` with the rest of the message and the one bit in it. -/
def tailBuffer (block : ℕ) (m : Bytes) : Bytes :=
  let n := m.length % block
  let m := m.drop (m.length - n)
  overwrite (overwrite (List.replicate (2 * block) 0) 0 m) n [128]

/-- `crypto_hash_sha256_tinynacl`: the 32 bytes of `o`. -/
def cryptoHashSha256 (m : Bytes) : Bytes :=
  let b := BitVec.ofNat 64 m.length
  let h := blocks sha256File m.length sha256File.h m
  let n := m.length % 64
  let x := tailBuffer 64 m
  let n := 128 - 64 * (if n < 56 then 1 else 0)
  let x := overwrite x (n - 8) (storeBigendian (b <<< 3))
  let h := blocks sha256File n h (x.take n)
  h.toList.flatMap storeBigendian

/-- `crypto_hash_sha512_tinynacl`: the 64 bytes of `o`. -/
def cryptoHashSha512 (m : Bytes) : Bytes :=
  let b := BitVec.ofNat 64 m.length
  let h := blocks sha512File m.length sha512File.h m
  let n := m.length % 128
  let x := tailBuffer 128 m
  let n := 256 - 128 * (if n < 112 then 1 else 0)
  let x := overwrite x (n - 9) [UInt8.ofBitVec ((b >>> 61).setWidth 8)]
  let x := overwrite x (n - 8) (storeBigendian (b <<< 3))
  let h := blocks sha512File n h (x.take n)
  h.toList.flatMap storeBigendian

/-! ## 2. Words and bytes -/

section

variable {w : ℕ}

theorem R_eq_rotateRight (x : BitVec w) {c : ℕ} (hc : c < w) : R x c = x.rotateRight c := by
  rw [R, BitVec.and_allOnes, BitVec.rotateRight_def, Nat.mod_eq_of_lt hc]

/-- A byte shifted in behind a word. -/
theorem shiftLeft_or_byte (hw : 8 ≤ w) (n : ℕ) (b : UInt8) :
    (BitVec.ofNat w n <<< 8) ||| b.toBitVec.setWidth w = BitVec.ofNat w (256 * n + b.toNat) := by
  have hb : b.toNat < 2 ^ 8 := b.toNat_lt
  obtain ⟨v, rfl⟩ : ∃ v, w = 8 + v := ⟨w - 8, by omega⟩
  have hpow : 2 ^ (8 + v) = 2 ^ 8 * 2 ^ v := pow_add 2 8 v
  have hbyte : (b.toBitVec.setWidth (8 + v)).toNat = b.toNat := by
    rw [BitVec.toNat_setWidth]
    refine Nat.mod_eq_of_lt (lt_of_lt_of_le hb ?_)
    exact Nat.pow_le_pow_right (by decide) (Nat.le_add_right 8 v)
  have hshift : (BitVec.ofNat (8 + v) n <<< 8).toNat = (n % 2 ^ v) <<< 8 := by
    rw [BitVec.toNat_shiftLeft, BitVec.toNat_ofNat, Nat.shiftLeft_eq, Nat.shiftLeft_eq,
      Nat.mod_mul_mod, hpow, Nat.mul_comm, Nat.mul_mod_mul_left, Nat.mul_comm]
  apply BitVec.eq_of_toNat_eq
  rw [BitVec.toNat_or, hshift, hbyte, BitVec.toNat_ofNat,
    ← Nat.shiftLeft_add_eq_or_of_lt hb, Nat.shiftLeft_eq, hpow, Nat.mod_mul]
  have hlow : (256 * n + b.toNat) % 2 ^ 8 = b.toNat := by omega
  have hhigh : (256 * n + b.toNat) / 2 ^ 8 = n := by omega
  rw [hlow, hhigh]
  ring

theorem loadBigendian_eq (hw : 8 ≤ w) {x : Bytes} (hx : w / 8 ≤ x.length) :
    loadBigendian w x = BitVec.ofNat w (ofBe (x.take (w / 8))) := by
  have hloop : ∀ i ≤ w / 8, (List.range i).foldl
      (fun (y : BitVec w) i => (y <<< 8) ||| (x.getD i 0).toBitVec.setWidth w) 0 =
        BitVec.ofNat w (ofBe (x.take i)) := by
    intro i hi
    induction i with
    | zero => rfl
    | succ i ih =>
      have hlt : i < x.length := by omega
      rw [List.range_succ, List.foldl_append, ih (by omega), List.foldl_cons, List.foldl_nil,
        shiftLeft_or_byte hw, List.getD_eq_getElem x 0 hlt, ← ofBe_append_singleton,
        List.take_append_getElem hlt]
  exact hloop (w / 8) (le_refl _)

theorem storeBigendianLoop_eq (i : ℕ) (x : BitVec w) (y : Bytes) :
    storeBigendianLoop i x y = beBytes i x.toNat ++ y := by
  induction i generalizing x y with
  | zero => rfl
  | succ i ih =>
    have hshift : (x >>> 8).toNat = x.toNat / 256 := by
      rw [BitVec.toNat_ushiftRight]
      exact Nat.shiftRight_eq_div_pow x.toNat 8
    have hlow : UInt8.ofBitVec (x.setWidth 8) = UInt8.ofNat x.toNat := by
      apply UInt8.toNat_inj.mp
      rw [UInt8.toNat_ofBitVec, BitVec.toNat_setWidth, UInt8.toNat_ofNat']
    rw [storeBigendianLoop, ih, hshift, hlow, beBytes_succ, List.append_assoc,
      List.singleton_append]

theorem storeBigendian_eq (x : BitVec w) : storeBigendian x = beBytes (w / 8) x.toNat := by
  rw [storeBigendian, storeBigendianLoop_eq, List.append_nil]

end

/-! ## 3. The compression function -/

section

variable {w : ℕ}

/-- A file's values are the standard's. -/
structure HashFile.Follows (F : HashFile w) (p : Params w) : Prop where
  width : 8 ≤ w
  rounds : p.rounds = F.K.length
  rounds_ge : 16 ≤ F.K.length
  K : ∀ t, p.K t = F.K.getD t 0
  Sigma0 : ∀ x, F.Sigma0 x = p.bigSigma0 x
  Sigma1 : ∀ x, F.Sigma1 x = p.bigSigma1 x
  sigma0 : ∀ x, F.sigma0 x = p.smallSigma0 x
  sigma1 : ∀ x, F.sigma1 x = p.smallSigma1 x
  block : p.block = F.block
  words : F.block = 16 * (w / 8)

/-- The words of an array as the variables of the standard. -/
def varsOf (a : Vector (BitVec w) 8) : Vars w :=
  { a := a.getD 0 0, b := a.getD 1 0, c := a.getD 2 0, d := a.getD 3 0, e := a.getD 4 0,
    f := a.getD 5 0, g := a.getD 6 0, h := a.getD 7 0 }

theorem varsOf_mk (a b c d e f g h : BitVec w) :
    varsOf #v[a, b, c, d, e, f, g, h] =
      { a := a, b := b, c := c, d := d, e := e, f := f, g := g, h := h } := rfl

theorem getD_eq_getElem {α : Type} {n : ℕ} (v : Vector α n) {i : ℕ} (hi : i < n) (d : α) :
    v.getD i d = v[i] := by
  simp [Vector.getD, Array.getD, hi]

theorem getD_setIfInBounds {α : Type} {n : ℕ} (v : Vector α n) (k : ℕ) (x d : α) {i : ℕ}
    (hi : i < n) : (v.setIfInBounds k x).getD i d = if k = i then x else v.getD i d := by
  rw [getD_eq_getElem _ hi, getD_eq_getElem _ hi, Vector.getElem_setIfInBounds hi]

theorem ext_getD {a b : Vector (BitVec w) 8} (h : ∀ i < 8, a.getD i 0 = b.getD i 0) : a = b := by
  refine Vector.ext fun i hi => ?_
  have hget := h i hi
  rwa [getD_eq_getElem a hi, getD_eq_getElem b hi] at hget

/-- Eight assignments to an array, each to the next place. -/
theorem foldl_set_next {α : Type} (a : Vector α 8) (f : ℕ → α) :
    (List.range 8).foldl (fun a j => a.setIfInBounds ((j + 1) % 8) (f j)) a =
      #v[f 7, f 0, f 1, f 2, f 3, f 4, f 5, f 6] := by
  have hlist : List.range 8 = [0, 1, 2, 3, 4, 5, 6, 7] := by decide
  rw [hlist]
  simp only [List.foldl_cons, List.foldl_nil]
  refine Vector.ext fun i hi => ?_
  simp only [Vector.getElem_setIfInBounds]
  rcases (by omega : i = 0 ∨ i = 1 ∨ i = 2 ∨ i = 3 ∨ i = 4 ∨ i = 5 ∨ i = 6 ∨ i = 7) with
    rfl | rfl | rfl | rfl | rfl | rfl | rfl | rfl <;> rfl

/-- The last loop of a round: `a[(j + 1) % 8] = b[j]`. -/
theorem rotate_eq (a b : Vector (BitVec w) 8) :
    (List.range 8).foldl
        (fun a j => a.setIfInBounds ((j + 1) % 8) (b.getD j 0 &&& BitVec.allOnes w)) a =
      #v[b.getD 7 0, b.getD 0 0, b.getD 1 0, b.getD 2 0, b.getD 3 0, b.getD 4 0, b.getD 5 0,
        b.getD 6 0] := by
  rw [foldl_set_next]
  simp only [BitVec.and_allOnes]

/-- The last loop of a block: `a[i] += z[i]; z[i] = a[i]`. -/
theorem addBack_eq (a z : Vector (BitVec w) 8) :
    (List.range 8).foldl
        (fun z i => z.setIfInBounds i ((a.getD i 0 + z.getD i 0) &&& BitVec.allOnes w)) z =
      #v[a.getD 0 0 + z.getD 0 0, a.getD 1 0 + z.getD 1 0, a.getD 2 0 + z.getD 2 0,
        a.getD 3 0 + z.getD 3 0, a.getD 4 0 + z.getD 4 0, a.getD 5 0 + z.getD 5 0,
        a.getD 6 0 + z.getD 6 0, a.getD 7 0 + z.getD 7 0] := by
  have hstep : ∀ n ≤ 8, ∀ i < 8, ((List.range n).foldl
      (fun z i => z.setIfInBounds i ((a.getD i 0 + z.getD i 0) &&& BitVec.allOnes w)) z).getD i 0 =
        if i < n then a.getD i 0 + z.getD i 0 else z.getD i 0 := by
    intro n hn
    induction n with
    | zero => exact fun i hi => rfl
    | succ n ih =>
      intro i hi
      rw [List.range_succ, List.foldl_append, List.foldl_cons, List.foldl_nil,
        getD_setIfInBounds _ _ _ _ hi, ih (by omega) n (by omega), ih (by omega) i hi,
        if_neg (lt_irrefl n), BitVec.and_allOnes]
      rcases Nat.lt_trichotomy i n with hlt | rfl | hgt
      · rw [if_neg (by omega), if_pos hlt, if_pos (by omega)]
      · rw [if_pos rfl, if_pos (by omega)]
      · rw [if_neg (by omega), if_neg (by omega), if_neg (by omega)]
  refine ext_getD fun i hi => ?_
  rw [hstep 8 (le_refl 8) i hi, if_pos hi]
  rcases (by omega : i = 0 ∨ i = 1 ∨ i = 2 ∨ i = 3 ∨ i = 4 ∨ i = 5 ∨ i = 6 ∨ i = 7) with
    rfl | rfl | rfl | rfl | rfl | rfl | rfl | rfl <;> rfl

variable {F : HashFile w} {p : Params w} (h : F.Follows p)

include h

theorem schedule_of_lt {m : Bytes} (hm : F.block ≤ m.length) {t : ℕ} (ht : t < 16) :
    loadBigendian w (m.drop (w / 8 * t)) = schedule p m t := by
  have hmul : w / 8 * (t + 1) ≤ w / 8 * 16 := Nat.mul_le_mul_left _ ht
  have hroom : w / 8 ≤ (m.drop (w / 8 * t)).length := by
    have hblock := h.words
    rw [List.length_drop]
    rw [Nat.mul_add] at hmul
    omega
  rw [loadBigendian_eq h.width hroom]
  unfold schedule
  rw [if_pos ht]
  rfl

/-- **The array `w` is the message schedule.** -/
theorem messageWords_eq {m : Bytes} (hm : F.block ≤ m.length) :
    messageWords F m = (List.range F.K.length).map (schedule p m) := by
  have hget {n j : ℕ} (hj : j < n) :
      ((List.range n).map (schedule p m)).getD j 0 = schedule p m j := by
    rw [List.getD_eq_getElem?_getD, List.getElem?_map, List.getElem?_range hj]
    rfl
  have hstart : (List.range 16).map (fun i => loadBigendian w (m.drop (w / 8 * i))) =
      (List.range 16).map (schedule p m) :=
    List.map_congr_left fun t ht => schedule_of_lt h hm (List.mem_range.mp ht)
  have hloop (n : ℕ) : (List.range' 16 n).foldl
      (fun w i => w ++ [(F.sigma1 (w.getD (i - 2) 0) + w.getD (i - 7) 0 +
        F.sigma0 (w.getD (i - 15) 0) + w.getD (i - 16) 0) &&& BitVec.allOnes _])
      ((List.range 16).map (schedule p m)) = (List.range (16 + n)).map (schedule p m) := by
    induction n with
    | zero => rfl
    | succ n ih =>
      have hnext : schedule p m (16 + n) = p.smallSigma1 (schedule p m (16 + n - 2)) +
          schedule p m (16 + n - 7) + p.smallSigma0 (schedule p m (16 + n - 15)) +
          schedule p m (16 + n - 16) := by
        conv_lhs => unfold schedule
        rw [if_neg (by omega)]
      rw [List.range'_concat, List.foldl_append, ih, Nat.one_mul, List.foldl_cons, List.foldl_nil,
        hget (by omega), hget (by omega), hget (by omega), hget (by omega), h.sigma0, h.sigma1,
        BitVec.and_allOnes, ← hnext, ← Nat.add_assoc, List.range_succ, List.map_append,
        List.map_singleton]
  rw [messageWords, hstart, hloop, Nat.add_sub_cancel' h.rounds_ge]

/-- **A turn of the loop over the rounds is a round.** -/
theorem varsOf_roundStep {m : Bytes} (hm : F.block ≤ m.length) (a : Vector (BitVec w) 8) {i : ℕ}
    (hi : i < F.K.length) :
    varsOf (roundStep F (messageWords F m) a i) = Fips180.round p m (varsOf a) i := by
  have hword : (messageWords F m).getD i 0 = schedule p m i := by
    rw [messageWords_eq h hm, List.getD_eq_getElem?_getD, List.getElem?_map,
      List.getElem?_range hi]
    rfl
  simp only [roundStep, rotate_eq, hword, h.Sigma0, h.Sigma1, ← h.K]
  rw [varsOf_mk]
  simp [varsOf, getD_setIfInBounds, Fips180.round, BitVec.add_assoc]

omit h in
/-- The schedule of a block reads its own bytes only. -/
theorem schedule_take (m : Bytes) {n : ℕ} (hn : 16 * (w / 8) ≤ n) (t : ℕ) :
    schedule p (m.take n) t = schedule p m t := by
  induction t using Nat.strong_induction_on with
  | _ t ih =>
    unfold schedule
    split
    · rename_i ht
      have hmul : w / 8 * (t + 1) ≤ w / 8 * 16 := Nat.mul_le_mul_left _ ht
      rw [Nat.mul_add] at hmul
      rw [blockWord, blockWord, List.drop_take, List.take_take, Nat.min_eq_left (by omega)]
    · rw [ih (t - 2) (by omega), ih (t - 7) (by omega), ih (t - 15) (by omega),
        ih (t - 16) (by omega)]

/-- **A turn of the loop of `blocks` is the compression function.** -/
theorem varsOf_blockStep {m : Bytes} (hm : F.block ≤ m.length) (z : Vector (BitVec w) 8) :
    varsOf (blockStep F z m) = compress p (varsOf z) (m.take F.block) := by
  have hround : Fips180.round p (m.take F.block) = Fips180.round p m := by
    funext v t
    simp only [Fips180.round, schedule_take m (le_of_eq h.words.symm)]
  have hrounds : ∀ n ≤ F.K.length,
      varsOf ((List.range n).foldl (roundStep F (messageWords F m)) z) =
      (List.range n).foldl (Fips180.round p m) (varsOf z) := by
    intro n hn
    induction n with
    | zero => rfl
    | succ n ih =>
      rw [List.range_succ, List.foldl_append, List.foldl_append, List.foldl_cons, List.foldl_nil,
        List.foldl_cons, List.foldl_nil, varsOf_roundStep h hm _ (by omega), ih (by omega)]
  simp only [blockStep, addBack_eq, compress, h.rounds, hround, ← hrounds F.K.length (le_refl _)]
  rfl

/-- **The loop of `blocks` absorbs the whole blocks of what it is given.** -/
theorem varsOf_blocks {n : ℕ} {m : Bytes} (hn : m.length ≤ n) (z : Vector (BitVec w) 8) :
    varsOf (blocks F n z m) = absorb (compress p) F.block (varsOf z) m := by
  have hpos : 0 < F.block := by
    have hdiv : 1 ≤ w / 8 := (Nat.one_le_div_iff (by decide)).mpr h.width
    have hwords := h.words
    omega
  induction n generalizing m z with
  | zero =>
    have hnil : m = [] := List.length_eq_zero_iff.mp (by omega)
    rw [hnil, absorb, List.length_nil, Nat.zero_div]
    rfl
  | succ n ih =>
    unfold blocks
    split
    · rename_i hle
      have hcount : m.length / F.block = (m.length - F.block) / F.block + 1 :=
        Nat.div_eq_sub_div hpos hle
      have hlen : (m.drop F.block).length = m.length - F.block := List.length_drop
      rw [ih (by omega), varsOf_blockStep h hle, absorb, absorb, hlen, hcount, absorbBlocks]
    · rename_i hlt
      rw [absorb, Nat.div_eq_of_lt (Nat.lt_of_not_le hlt)]
      rfl

end

/-! ## 4. The padding -/

/-- Bytes written into the zeros behind what a buffer holds. -/
theorem overwrite_zeros (a src : Bytes) (n off : ℕ) (hoff : a.length ≤ off)
    (hn : off + src.length ≤ a.length + n) :
    overwrite (a ++ List.replicate n 0) off src =
      a ++ List.replicate (off - a.length) 0 ++ src ++
        List.replicate (a.length + n - (off + src.length)) 0 := by
  have hsplit : List.replicate n (0 : UInt8) = List.replicate (off - a.length) 0 ++
      (List.replicate src.length 0 ++
        List.replicate (a.length + n - (off + src.length)) 0) := by
    rw [List.replicate_append_replicate, List.replicate_append_replicate]
    congr 1
    omega
  have hfront : (a ++ List.replicate (off - a.length) 0).length = off := by
    rw [List.length_append, List.length_replicate]
    omega
  have h := overwrite_append (g := List.replicate src.length 0)
    (b := List.replicate (a.length + n - (off + src.length)) 0) hfront
    (List.length_replicate (n := src.length) (a := (0 : UInt8)))
  rw [hsplit, ← List.append_assoc, ← List.append_assoc, h]

/-- What is left of a message after its whole blocks. -/
theorem length_rest (B : ℕ) (m : Bytes) :
    (m.drop (B * (m.length / B))).length = m.length % B := by
  have hdiv := Nat.div_add_mod m.length B
  rw [List.length_drop]
  omega

/-- The array `x` before the length is stored: the rest of the message, the one bit, zeros. -/
theorem tailBuffer_eq {B : ℕ} (hB : 0 < B) (m : Bytes) :
    tailBuffer B m = m.drop (B * (m.length / B)) ++ [0x80] ++
      List.replicate (2 * B - (m.length % B + 1)) 0 := by
  have hmod : m.length % B < B := Nat.mod_lt _ hB
  have hstart : m.length - m.length % B = B * (m.length / B) := by
    have hdiv := Nat.div_add_mod m.length B
    omega
  have hlen := length_rest B m
  simp only [tailBuffer, hstart]
  generalize m.drop (B * (m.length / B)) = r at hlen ⊢
  have h1 := overwrite_zeros [] r (2 * B) 0 (Nat.zero_le _) (by rw [List.length_nil, hlen]; omega)
  have h2 := overwrite_zeros r [128] (2 * B - m.length % B) (m.length % B) (by omega)
    (by rw [List.length_singleton, hlen]; omega)
  simp only [List.nil_append, List.length_nil, List.replicate_zero, Nat.zero_add, Nat.sub_self,
    hlen, List.append_nil, List.length_singleton] at h1 h2
  rw [h1, h2]
  congr 2
  omega

theorem flatMap_storeBigendian {w : ℕ} (a : Vector (BitVec w) 8) :
    a.toList.flatMap storeBigendian = (varsOf a).bytes := by
  have hlist : a.toList = [a.getD 0 0, a.getD 1 0, a.getD 2 0, a.getD 3 0, a.getD 4 0,
      a.getD 5 0, a.getD 6 0, a.getD 7 0] := by
    refine List.ext_getElem (by simp) ?_
    intro i hi hi'
    rw [Vector.length_toList] at hi
    rw [Vector.getElem_toList, ← getD_eq_getElem a hi 0]
    rcases (by omega : i = 0 ∨ i = 1 ∨ i = 2 ∨ i = 3 ∨ i = 4 ∨ i = 5 ∨ i = 6 ∨ i = 7) with
      rfl | rfl | rfl | rfl | rfl | rfl | rfl | rfl <;> rfl
  have hstore : (storeBigendian : BitVec w → Bytes) = fun x => beBytes (w / 8) x.toNat :=
    funext storeBigendian_eq
  rw [hlist, hstore]
  rfl

/-- **Both calls of `blocks` together hash the message**, once the buffer holds the padding. -/
theorem blocks_tail {w : ℕ} {F : HashFile w} {p : Params w} (h : F.Follows p)
    (hinit : varsOf F.h = p.init) {m tail : Bytes} {n : ℕ} (hn : tail.length ≤ n)
    (htail : tail = m.drop (p.block * (m.length / p.block)) ++ [0x80] ++
      zeroPad p.block (m.length + 1 + p.lengthBytes) ++ beBytes p.lengthBytes (8 * m.length)) :
    (blocks F n (blocks F m.length F.h m) tail).toList.flatMap storeBigendian = digest p m := by
  have hpos : 0 < p.block := by
    have hdiv : 1 ≤ w / 8 := (Nat.one_le_div_iff (by decide)).mpr h.width
    have hwords := h.words
    have hblock := h.block
    omega
  have hpad : pad p m = m ++ ([0x80] ++ zeroPad p.block (m.length + 1 + p.lengthBytes) ++
      beBytes p.lengthBytes (8 * m.length)) := by
    simp only [pad, List.append_assoc]
  rw [flatMap_storeBigendian, varsOf_blocks h hn, varsOf_blocks h (le_refl _), hinit, digest, hpad,
    absorb_append (compress p) hpos, htail, ← h.block]
  simp only [List.append_assoc]

/-! ## 5. The two hash functions -/

theorem sha256File_follows : sha256File.Follows sha256 where
  width := by decide
  rounds := rfl
  rounds_ge := by decide
  K t := rfl
  Sigma0 x := by
    simp only [sha256File, sha256, R_eq_rotateRight x (c := 2) (by decide),
      R_eq_rotateRight x (c := 13) (by decide), R_eq_rotateRight x (c := 22) (by decide)]
  Sigma1 x := by
    simp only [sha256File, sha256, R_eq_rotateRight x (c := 6) (by decide),
      R_eq_rotateRight x (c := 11) (by decide), R_eq_rotateRight x (c := 25) (by decide)]
  sigma0 x := by
    simp only [sha256File, sha256, R_eq_rotateRight x (c := 7) (by decide),
      R_eq_rotateRight x (c := 18) (by decide)]
  sigma1 x := by
    simp only [sha256File, sha256, R_eq_rotateRight x (c := 17) (by decide),
      R_eq_rotateRight x (c := 19) (by decide)]
  block := rfl
  words := rfl

theorem sha512File_follows : sha512File.Follows sha512 where
  width := by decide
  rounds := rfl
  rounds_ge := by decide
  K t := rfl
  Sigma0 x := by
    simp only [sha512File, sha512, R_eq_rotateRight x (c := 28) (by decide),
      R_eq_rotateRight x (c := 34) (by decide), R_eq_rotateRight x (c := 39) (by decide)]
  Sigma1 x := by
    simp only [sha512File, sha512, R_eq_rotateRight x (c := 14) (by decide),
      R_eq_rotateRight x (c := 18) (by decide), R_eq_rotateRight x (c := 41) (by decide)]
  sigma0 x := by
    simp only [sha512File, sha512, R_eq_rotateRight x (c := 1) (by decide),
      R_eq_rotateRight x (c := 8) (by decide)]
  sigma1 x := by
    simp only [sha512File, sha512, R_eq_rotateRight x (c := 19) (by decide),
      R_eq_rotateRight x (c := 61) (by decide)]
  block := rfl
  words := rfl

/-- The bits of a message whose bytes are counted in 64 bits. -/
theorem storeBigendian_shiftLeft_3 (n : ℕ) :
    storeBigendian (BitVec.ofNat 64 n <<< 3) = beBytes 8 (8 * n) := by
  have hval : (BitVec.ofNat 64 n <<< 3).toNat = 8 * n % 256 ^ 8 := by
    rw [BitVec.toNat_shiftLeft, BitVec.toNat_ofNat, Nat.shiftLeft_eq]
    omega
  rw [storeBigendian_eq, hval]
  exact congrArg List.reverse (leBytes_mod 8 (8 * n))

/-- **`crypto_hash_sha256` is SHA-256.**  The standard stops at messages of `2 ^ 61` bytes; from
there on both take the length modulo `2 ^ 64`. -/
theorem cryptoHashSha256_fips180 (m : Bytes) : cryptoHashSha256 m = digest sha256 m := by
  have hmod : m.length % 64 < 64 := Nat.mod_lt _ (by decide)
  have hlen := length_rest 64 m
  simp only [cryptoHashSha256, storeBigendian_shiftLeft_3, tailBuffer_eq (B := 64) (by decide)]
  generalize hn : 128 - 64 * (if m.length % 64 < 56 then 1 else 0) = n
  have hcases : n = 64 ∧ m.length % 64 < 56 ∨ n = 128 ∧ ¬m.length % 64 < 56 := by
    rw [← hn]
    split_ifs <;> omega
  have hfront : (m.drop (64 * (m.length / 64)) ++ [0x80]).length = m.length % 64 + 1 := by
    rw [List.length_append, hlen, List.length_singleton]
  have hstore := overwrite_zeros (m.drop (64 * (m.length / 64)) ++ [0x80])
    (beBytes 8 (8 * m.length)) (128 - (m.length % 64 + 1)) (n - 8)
    (by omega) (by rw [length_beBytes]; omega)
  rw [hfront, length_beBytes] at hstore
  have hzeros : List.replicate (n - 8 - (m.length % 64 + 1)) (0 : UInt8) =
      zeroPad 64 (m.length + 1 + 8) := by
    rw [zeroPad, padLen]
    congr 1
    omega
  rw [hstore, hzeros, List.take_left' (by
    simp only [List.length_append, hfront, length_beBytes, length_zeroPad, padLen]
    omega)]
  refine blocks_tail sha256File_follows rfl ?_ rfl
  simp only [List.length_append, hfront, length_beBytes, length_zeroPad, padLen]
  omega

/-- A length of 128 bits, when 67 do. -/
theorem beBytes_16 {n : ℕ} (hn : n < 2 ^ 64) :
    beBytes 16 (8 * n) = List.replicate 7 0 ++ [UInt8.ofNat (n / 2 ^ 61)] ++ beBytes 8 (8 * n) := by
  have hhigh : leBytes 8 (n / 2 ^ 61) = [UInt8.ofNat (n / 2 ^ 61)] ++ List.replicate 7 0 := by
    have h := leBytes_append (j := 1) (x := n / 2 ^ 61) (by omega) 7 0
    rw [Nat.mul_zero, Nat.add_zero] at h
    exact h.symm
  have hsplit := leBytes_append (j := 8) (x := 8 * n % 256 ^ 8) (Nat.mod_lt _ (by decide)) 8
    (n / 2 ^ 61)
  have hval : 8 * n % 256 ^ 8 + 256 ^ 8 * (n / 2 ^ 61) = 8 * n := by omega
  rw [hval, leBytes_mod, hhigh] at hsplit
  rw [beBytes, ← hsplit, List.reverse_append, List.reverse_append, List.reverse_replicate,
    List.reverse_singleton]
  rfl

/-- **`crypto_hash_sha512` is SHA-512** of any message whose bytes 64 bits can count. -/
theorem cryptoHashSha512_fips180 {m : Bytes} (hm : m.length < 2 ^ 64) :
    cryptoHashSha512 m = digest sha512 m := by
  have hmod : m.length % 128 < 128 := Nat.mod_lt _ (by decide)
  have hlen := length_rest 128 m
  have hbyte : UInt8.ofBitVec ((BitVec.ofNat 64 m.length >>> 61).setWidth 8) =
      UInt8.ofNat (m.length / 2 ^ 61) := by
    apply UInt8.toNat_inj.mp
    rw [UInt8.toNat_ofBitVec, BitVec.toNat_setWidth, BitVec.toNat_ushiftRight, BitVec.toNat_ofNat,
      Nat.mod_eq_of_lt hm, UInt8.toNat_ofNat', Nat.shiftRight_eq_div_pow]
  simp only [cryptoHashSha512, storeBigendian_shiftLeft_3, hbyte,
    tailBuffer_eq (B := 128) (by decide)]
  generalize hn : 256 - 128 * (if m.length % 128 < 112 then 1 else 0) = n
  have hcases : n = 128 ∧ m.length % 128 < 112 ∨ n = 256 ∧ ¬m.length % 128 < 112 := by
    rw [← hn]
    split_ifs <;> omega
  have hfront : (m.drop (128 * (m.length / 128)) ++ [0x80]).length = m.length % 128 + 1 := by
    rw [List.length_append, hlen, List.length_singleton]
  have hhigh := overwrite_zeros (m.drop (128 * (m.length / 128)) ++ [0x80])
    [UInt8.ofNat (m.length / 2 ^ 61)] (256 - (m.length % 128 + 1)) (n - 9)
    (by omega) (by rw [List.length_singleton]; omega)
  rw [hfront, List.length_singleton] at hhigh
  have hlow := overwrite_zeros (m.drop (128 * (m.length / 128)) ++ [0x80] ++
      List.replicate (n - 9 - (m.length % 128 + 1)) 0 ++ [UInt8.ofNat (m.length / 2 ^ 61)])
    (beBytes 8 (8 * m.length)) (m.length % 128 + 1 + (256 - (m.length % 128 + 1)) - (n - 9 + 1))
    (n - 8) (by simp only [List.length_append, hfront, List.length_replicate,
      List.length_singleton]; omega)
    (by simp only [List.length_append, hfront, List.length_replicate,
      List.length_singleton, length_beBytes]; omega)
  have hfull : (m.drop (128 * (m.length / 128)) ++ [0x80] ++
      List.replicate (n - 9 - (m.length % 128 + 1)) 0 ++
        [UInt8.ofNat (m.length / 2 ^ 61)]).length = n - 8 := by
    simp only [List.length_append, hfront, List.length_replicate, List.length_singleton]
    omega
  rw [hfull, Nat.sub_self, List.replicate_zero, List.append_nil, length_beBytes] at hlow
  have hzeros : List.replicate (n - 9 - (m.length % 128 + 1)) (0 : UInt8) =
      zeroPad 128 (m.length + 1 + 16) ++ List.replicate 7 0 := by
    rw [zeroPad, padLen, List.replicate_append_replicate]
    congr 1
    omega
  rw [hhigh, hlow, List.take_left' (by rw [List.length_append, hfull, length_beBytes]; omega)]
  refine blocks_tail sha512File_follows rfl ?_ ?_
  · rw [List.length_append, hfull, length_beBytes]
    omega
  · rw [hzeros, show sha512.lengthBytes = 16 from rfl, beBytes_16 hm]
    simp only [List.append_assoc]
    rfl

/-- The digest of a message of three bytes. -/
theorem cryptoHashSha512_abc : cryptoHashSha512 (ascii "abc") = digest sha512 (ascii "abc") :=
  cryptoHashSha512_fips180 (by decide)

end Glossh.Tinynacl
