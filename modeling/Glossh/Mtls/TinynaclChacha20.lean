/-
# tinynacl's ChaCha20 and `glo_chacha20.c` compute one keystream

`crypto_stream_chacha20.c` keeps the sixteen words in variables, unrolls the rounds by macros,
masks word by word and counts blocks in 64 bits.  `glo_chacha20.c` (module `Chacha20`) keeps
them in an array, masks byte by byte and counts in 32 bits.

The registers `Regs` below are the variables of the first; `Regs.words` reads them as the array
of the second.  Under that reading the rounds are RFC 8439's (`words_tworounds`), a block is
masked by the RFC's block (`xorblock_eq`), and the loop by a keystream whose block number fills
two words (`intCryptoStreamXorLoop_eq`).  As long as the number fits one word the two nonces
line up.
-/
import Glossh.Mtls.Chacha20

namespace Glossh.Mtls

open Bytes Rfc8439

/-! ## 1. The functions of the file -/

/-- `unpack32`. -/
def unpack32 (x : Bytes) : UInt32 :=
  (x.getD 0 0).toUInt32 ||| ((x.getD 1 0).toUInt32 <<< 8) |||
    ((x.getD 2 0).toUInt32 <<< 16) ||| ((x.getD 3 0).toUInt32 <<< 24)

/-- `pack32`: the four bytes stored. -/
def pack32 (u : UInt32) : Bytes :=
  let b0 := u.toUInt8; let u := u >>> 8
  let b1 := u.toUInt8; let u := u >>> 8
  let b2 := u.toUInt8; let u := u >>> 8
  [b0, b1, b2, u.toUInt8]

/-- The macro `ROTATE32`. -/
def rotate32 (x c : UInt32) : UInt32 := (x <<< c) ||| ((x &&& 0xffffffff) >>> (32 - c))

/-- The macro `QUARTERROUND`: the four variables after it. -/
def quarterround (a b c d : UInt32) : UInt32 × UInt32 × UInt32 × UInt32 :=
  let a := a + b; let d := rotate32 (d ^^^ a) 16
  let c := c + d; let b := rotate32 (b ^^^ c) 12
  let a := a + b; let d := rotate32 (d ^^^ a) 8
  let c := c + d; let b := rotate32 (b ^^^ c) 7
  (a, b, c, d)

/-- Sixteen variables: `x0` to `x15`, or `s0` to `s3`, `k0` to `k7`, `n0` to `n3`. -/
structure Regs where
  x0 : UInt32
  x1 : UInt32
  x2 : UInt32
  x3 : UInt32
  x4 : UInt32
  x5 : UInt32
  x6 : UInt32
  x7 : UInt32
  x8 : UInt32
  x9 : UInt32
  x10 : UInt32
  x11 : UInt32
  x12 : UInt32
  x13 : UInt32
  x14 : UInt32
  x15 : UInt32
deriving DecidableEq

/-- The macro `TWOROUNDS`. -/
def tworounds (x : Regs) : Regs :=
  let r := quarterround x.x0 x.x4 x.x8 x.x12
  let x := { x with x0 := r.1, x4 := r.2.1, x8 := r.2.2.1, x12 := r.2.2.2 }
  let r := quarterround x.x1 x.x5 x.x9 x.x13
  let x := { x with x1 := r.1, x5 := r.2.1, x9 := r.2.2.1, x13 := r.2.2.2 }
  let r := quarterround x.x2 x.x6 x.x10 x.x14
  let x := { x with x2 := r.1, x6 := r.2.1, x10 := r.2.2.1, x14 := r.2.2.2 }
  let r := quarterround x.x3 x.x7 x.x11 x.x15
  let x := { x with x3 := r.1, x7 := r.2.1, x11 := r.2.2.1, x15 := r.2.2.2 }
  let r := quarterround x.x0 x.x5 x.x10 x.x15
  let x := { x with x0 := r.1, x5 := r.2.1, x10 := r.2.2.1, x15 := r.2.2.2 }
  let r := quarterround x.x1 x.x6 x.x11 x.x12
  let x := { x with x1 := r.1, x6 := r.2.1, x11 := r.2.2.1, x12 := r.2.2.2 }
  let r := quarterround x.x2 x.x7 x.x8 x.x13
  let x := { x with x2 := r.1, x7 := r.2.1, x8 := r.2.2.1, x13 := r.2.2.2 }
  let r := quarterround x.x3 x.x4 x.x9 x.x14
  let x := { x with x3 := r.1, x4 := r.2.1, x9 := r.2.2.1, x14 := r.2.2.2 }
  x

/-- The macro `XORBLOCK`: the 64 bytes stored behind `o`.  `s` are the variables `s0` to `n3`;
a word behind `i` is read before its place behind `o` is written, so `o` may be `i`. -/
def xorblock (s : Regs) (i : Bytes) : Bytes :=
  let x := tworounds^[10] s
  pack32 ((x.x0 + s.x0) ^^^ unpack32 i) ++
    pack32 ((x.x1 + s.x1) ^^^ unpack32 (i.drop 4)) ++
    pack32 ((x.x2 + s.x2) ^^^ unpack32 (i.drop 8)) ++
    pack32 ((x.x3 + s.x3) ^^^ unpack32 (i.drop 12)) ++
    pack32 ((x.x4 + s.x4) ^^^ unpack32 (i.drop 16)) ++
    pack32 ((x.x5 + s.x5) ^^^ unpack32 (i.drop 20)) ++
    pack32 ((x.x6 + s.x6) ^^^ unpack32 (i.drop 24)) ++
    pack32 ((x.x7 + s.x7) ^^^ unpack32 (i.drop 28)) ++
    pack32 ((x.x8 + s.x8) ^^^ unpack32 (i.drop 32)) ++
    pack32 ((x.x9 + s.x9) ^^^ unpack32 (i.drop 36)) ++
    pack32 ((x.x10 + s.x10) ^^^ unpack32 (i.drop 40)) ++
    pack32 ((x.x11 + s.x11) ^^^ unpack32 (i.drop 44)) ++
    pack32 ((x.x12 + s.x12) ^^^ unpack32 (i.drop 48)) ++
    pack32 ((x.x13 + s.x13) ^^^ unpack32 (i.drop 52)) ++
    pack32 ((x.x14 + s.x14) ^^^ unpack32 (i.drop 56)) ++
    pack32 ((x.x15 + s.x15) ^^^ unpack32 (i.drop 60))

/-- The loop of `int_crypto_stream_xor` and what follows it: the value returned and the bytes
written behind `c`, for the bytes `m` that are left, the counter `u` and the variables `s`. -/
def intCryptoStreamXorLoop (m : Bytes) (u : UInt64) (s : Regs) : Int × Bytes :=
  if 64 ≤ m.length then
    let c := xorblock s m
    let u := u + 1
    if u = 0 then (-1, c)
    else
      let s := { s with x12 := (u &&& 0xffffffff).toUInt32, x13 := (u >>> 32).toUInt32 }
      let r := intCryptoStreamXorLoop (m.drop 64) u s
      (r.1, c ++ r.2)
  else if m.length ≠ 0 then
    let b := overwrite (List.replicate 64 0) 0 m
    let b := xorblock s b
    (0, b.take m.length)
  else (0, [])
termination_by m.length
decreasing_by simp only [List.length_drop]; omega

/-- The variables that `int_crypto_stream_xor` sets up. -/
def intCryptoStreamRegs (n : Vector UInt8 8) (k : Vector UInt8 32) : Regs where
  x0 := 0x61707865
  x1 := 0x3320646E
  x2 := 0x79622D32
  x3 := 0x6B206574
  x4 := unpack32 k.toList
  x5 := unpack32 (k.toList.drop 4)
  x6 := unpack32 (k.toList.drop 8)
  x7 := unpack32 (k.toList.drop 12)
  x8 := unpack32 (k.toList.drop 16)
  x9 := unpack32 (k.toList.drop 20)
  x10 := unpack32 (k.toList.drop 24)
  x11 := unpack32 (k.toList.drop 28)
  x12 := 0
  x13 := 0
  x14 := unpack32 n.toList
  x15 := unpack32 (n.toList.drop 4)

/-- `int_crypto_stream_xor`, which `crypto_stream_chacha20_tinynacl_xor` is where an `int` has
four bytes: the value returned and the bytes written behind `c`. -/
def cryptoStreamChacha20TinynaclXor (m : Bytes) (n : Vector UInt8 8) (k : Vector UInt8 32) :
    Int × Bytes :=
  if m.length = 0 then (0, [])
  else intCryptoStreamXorLoop m 0 (intCryptoStreamRegs n k)

/-! ## 2. The rounds are RFC 8439's -/

theorem rotate32_eq_rotl32 (x c : UInt32) : rotate32 x c = rotl32 x c := by
  have hmask : x &&& 0xffffffff = x := by
    apply UInt32.toNat_inj.mp
    rw [UInt32.toNat_and, show (0xffffffff : UInt32).toNat = 2 ^ 32 - 1 from rfl,
      Nat.and_two_pow_sub_one_eq_mod, Nat.mod_eq_of_lt x.toNat_lt]
  rw [rotate32, rotl32, hmask]

/-- The macro computes the quarter round. -/
theorem quarterround_eq_quarter (a b c d : UInt32) : quarterround a b c d = quarter a b c d := by
  have e16 : ∀ v, rotate32 v 16 = rotl v 16 :=
    fun v => (rotate32_eq_rotl32 v 16).trans (rotl32_eq (by simp) v)
  have e12 : ∀ v, rotate32 v 12 = rotl v 12 :=
    fun v => (rotate32_eq_rotl32 v 12).trans (rotl32_eq (by simp) v)
  have e8 : ∀ v, rotate32 v 8 = rotl v 8 :=
    fun v => (rotate32_eq_rotl32 v 8).trans (rotl32_eq (by simp) v)
  have e7 : ∀ v, rotate32 v 7 = rotl v 7 :=
    fun v => (rotate32_eq_rotl32 v 7).trans (rotl32_eq (by simp) v)
  simp only [quarterround, quarter, e16, e12, e8, e7]

/-- The variables read as the array of words. -/
def Regs.words (x : Regs) : Words :=
  #v[x.x0, x.x1, x.x2, x.x3, x.x4, x.x5, x.x6, x.x7, x.x8, x.x9, x.x10, x.x11, x.x12, x.x13,
    x.x14, x.x15]

/-- Two rounds of the variables are RFC 8439's inner block: each macro call is one quarter round
of the array. -/
theorem words_tworounds (x : Regs) : (tworounds x).words = innerBlock x.words := by
  have h0 (x : Regs) : quarterRound x.words 0 4 8 12 =
      Regs.words (let r := quarter x.x0 x.x4 x.x8 x.x12
        { x with x0 := r.1, x4 := r.2.1, x8 := r.2.2.1, x12 := r.2.2.2 }) :=
    quarterRound_eq_set x.words 0 4 8 12
  have h1 (x : Regs) : quarterRound x.words 1 5 9 13 =
      Regs.words (let r := quarter x.x1 x.x5 x.x9 x.x13
        { x with x1 := r.1, x5 := r.2.1, x9 := r.2.2.1, x13 := r.2.2.2 }) :=
    quarterRound_eq_set x.words 1 5 9 13
  have h2 (x : Regs) : quarterRound x.words 2 6 10 14 =
      Regs.words (let r := quarter x.x2 x.x6 x.x10 x.x14
        { x with x2 := r.1, x6 := r.2.1, x10 := r.2.2.1, x14 := r.2.2.2 }) :=
    quarterRound_eq_set x.words 2 6 10 14
  have h3 (x : Regs) : quarterRound x.words 3 7 11 15 =
      Regs.words (let r := quarter x.x3 x.x7 x.x11 x.x15
        { x with x3 := r.1, x7 := r.2.1, x11 := r.2.2.1, x15 := r.2.2.2 }) :=
    quarterRound_eq_set x.words 3 7 11 15
  have h4 (x : Regs) : quarterRound x.words 0 5 10 15 =
      Regs.words (let r := quarter x.x0 x.x5 x.x10 x.x15
        { x with x0 := r.1, x5 := r.2.1, x10 := r.2.2.1, x15 := r.2.2.2 }) :=
    quarterRound_eq_set x.words 0 5 10 15
  have h5 (x : Regs) : quarterRound x.words 1 6 11 12 =
      Regs.words (let r := quarter x.x1 x.x6 x.x11 x.x12
        { x with x1 := r.1, x6 := r.2.1, x11 := r.2.2.1, x12 := r.2.2.2 }) :=
    quarterRound_eq_set x.words 1 6 11 12
  have h6 (x : Regs) : quarterRound x.words 2 7 8 13 =
      Regs.words (let r := quarter x.x2 x.x7 x.x8 x.x13
        { x with x2 := r.1, x7 := r.2.1, x8 := r.2.2.1, x13 := r.2.2.2 }) :=
    quarterRound_eq_set x.words 2 7 8 13
  have h7 (x : Regs) : quarterRound x.words 3 4 9 14 =
      Regs.words (let r := quarter x.x3 x.x4 x.x9 x.x14
        { x with x3 := r.1, x4 := r.2.1, x9 := r.2.2.1, x14 := r.2.2.2 }) :=
    quarterRound_eq_set x.words 3 4 9 14
  simp only [tworounds, quarterround_eq_quarter, innerBlock, h0, h1, h2, h3, h4, h5, h6, h7]

/-! ## 3. A block is masked by RFC 8439's block -/

theorem pack32_eq_wordBytes (u : UInt32) : pack32 u = wordBytes u := by
  have hshift (v : UInt32) : (v >>> 8).toNat = v.toNat / 256 := by
    rw [UInt32.toNat_shiftRight]
    exact Nat.shiftRight_eq_div_pow v.toNat 8
  have hlow (v : UInt32) : v.toUInt8 = UInt8.ofNat v.toNat := by simp
  simp only [pack32, wordBytes, leBytes, hlow, hshift]

theorem pack32_xor (a b : UInt32) :
    pack32 (a ^^^ b) = List.zipWith (· ^^^ ·) (pack32 a) (pack32 b) := by
  simp only [pack32, UInt32.shiftRight_xor, UInt32.toUInt8_xor, List.zipWith_cons_cons,
    List.zipWith_nil_left]

/-- The four bytes that are read are stored again. -/
theorem pack32_unpack32 (x : Bytes) :
    pack32 (unpack32 x) = [x.getD 0 0, x.getD 1 0, x.getD 2 0, x.getD 3 0] := by
  have hword : unpack32 x = word (x.getD 0 0) (x.getD 1 0) (x.getD 2 0) (x.getD 3 0) :=
    load32Le_eq_word x
  rw [hword, pack32_eq_wordBytes, wordBytes, word, UInt32.toNat_ofNat']
  exact (leBytes_mod 4 _).trans (leBytes_ofLe [x.getD 0 0, x.getD 1 0, x.getD 2 0, x.getD 3 0])

/-- Word by word, what `XORBLOCK` stores for the words `ws`. -/
def maskWords : List UInt32 → Bytes → Bytes
  | [], _ => []
  | w :: ws, m => pack32 (w ^^^ unpack32 m) ++ maskWords ws (m.drop 4)

/-- Masking word by word is masking byte by byte. -/
theorem maskWords_eq (ws : List UInt32) {m : Bytes} (h : 4 * ws.length ≤ m.length) :
    maskWords ws m = List.zipWith (· ^^^ ·) (ws.flatMap wordBytes) m := by
  induction ws generalizing m with
  | nil => rfl
  | cons w ws ih =>
    rw [List.length_cons] at h
    match m, h with
    | a :: b :: c :: d :: m, h =>
      have hrest : 4 * ws.length ≤ m.length := by
        simp only [List.length_cons] at h
        omega
      have hdrop : (a :: b :: c :: d :: m).drop 4 = m := rfl
      have hread : pack32 (unpack32 (a :: b :: c :: d :: m)) = [a, b, c, d] := pack32_unpack32 _
      rw [maskWords, pack32_xor, hread, hdrop, ih hrest, pack32_eq_wordBytes, List.flatMap_cons]
      have hlen : (wordBytes w).length = [a, b, c, d].length := length_leBytes 4 w.toNat
      exact (List.zipWith_append hlen).symm

/-- **`XORBLOCK` masks 64 bytes by RFC 8439's block** of the words it starts from. -/
theorem xorblock_eq (s : Regs) {i : Bytes} (h : 64 ≤ i.length) :
    xorblock s i = xorWith (fun j => (blockOf s.words).getD j 0) (i.take 64) := by
  have hrounds : (tworounds^[10] s).words = innerBlock^[10] s.words :=
    (Function.Semiconj.iterate_right words_tworounds 10) s
  have hwords : xorblock s i =
      maskWords (Vector.zipWith (· + ·) (tworounds^[10] s).words s.words).toList i := by
    generalize hx : tworounds^[10] s = x
    have hlist : (Vector.zipWith (· + ·) x.words s.words).toList =
        [x.x0 + s.x0, x.x1 + s.x1, x.x2 + s.x2, x.x3 + s.x3, x.x4 + s.x4, x.x5 + s.x5,
          x.x6 + s.x6, x.x7 + s.x7, x.x8 + s.x8, x.x9 + s.x9, x.x10 + s.x10, x.x11 + s.x11,
          x.x12 + s.x12, x.x13 + s.x13, x.x14 + s.x14, x.x15 + s.x15] := by
      rw [Vector.toList_zipWith]
      rfl
    simp only [hlist, xorblock, hx, maskWords, List.drop_drop, List.append_assoc, List.append_nil,
      Nat.reduceAdd]
  have hblock : xorblock s i = List.zipWith (· ^^^ ·) (blockOf s.words) i := by
    rw [hwords, maskWords_eq _ (by simpa using h), hrounds]
    rfl
  have hlen : (blockOf s.words).length = 64 := length_blockOf s.words
  rw [hblock]
  refine List.ext_getElem (by simp [hlen]) ?_
  intro j h1 h2
  have hj : j < 64 := by
    simp only [List.length_zipWith, hlen] at h1
    omega
  rw [getElem_xorWith _ _ _ _ (by simpa using h2), List.getElem_zipWith, List.getElem_take,
    List.getD_eq_getElem _ _ (by omega), UInt8.xor_comm]

/-! ## 4. The loop counts in two words -/

/-- The variables with the block number `u` in `n0` and `n1`. -/
def Regs.count (s : Regs) (u : UInt64) : Regs :=
  { s with x12 := (u &&& 0xffffffff).toUInt32, x13 := (u >>> 32).toUInt32 }

/-- The keystream from block `u` on. -/
def wideKeystream (s : Regs) (u : UInt64) (i : ℕ) : UInt8 :=
  (blockOf (s.count (u + UInt64.ofNat (i / 64))).words).getD (i % 64) 0

theorem wideKeystream_of_lt (s : Regs) (u : UInt64) {j : ℕ} (h : j < 64) :
    wideKeystream s u j = (blockOf (s.count u).words).getD j 0 := by
  have hdiv : j / 64 = 0 := by omega
  have hmod : j % 64 = j := by omega
  have h0 : UInt64.ofNat 0 = 0 := rfl
  simp only [wideKeystream, hdiv, hmod, h0, UInt64.add_zero]

/-- The next block number moves the keystream on by one block. -/
theorem wideKeystream_succ (s : Regs) (u : UInt64) :
    wideKeystream s (u + 1) = advance (wideKeystream s u) 64 := by
  funext i
  have hdiv : (64 + i) / 64 = 1 + i / 64 := by omega
  have hmod : (64 + i) % 64 = i % 64 := by omega
  have hadd : UInt64.ofNat (1 + i / 64) = 1 + UInt64.ofNat (i / 64) := by
    rw [UInt64.ofNat_add]; rfl
  simp only [wideKeystream, advance, hdiv, hmod, hadd, UInt64.add_assoc]

/-- A block of the text is masked by the keystream. -/
theorem xorblock_count (s : Regs) (u : UInt64) {m : Bytes} (h : 64 ≤ m.length) :
    xorblock (s.count u) m = xorWith (wideKeystream s u) (m.take 64) := by
  rw [xorblock_eq _ h]
  refine xorWith_congr fun i hi => ?_
  have hi64 : i < 64 := by
    rw [List.length_take] at hi
    omega
  exact (wideKeystream_of_lt s u hi64).symm

/-- The last block, shorter than 64 bytes, is masked in a zeroed array and cut off. -/
theorem take_xorblock_count (s : Regs) (u : UInt64) {m : Bytes} (h : m.length < 64) :
    (xorblock (s.count u) (overwrite (List.replicate 64 0) 0 m)).take m.length =
      xorWith (wideKeystream s u) m := by
  have hpad : overwrite (List.replicate 64 0) 0 m = m ++ List.replicate (64 - m.length) 0 := by
    rw [overwrite, List.take_zero, List.nil_append, Nat.zero_add, List.drop_replicate]
  have hlen : (m ++ List.replicate (64 - m.length) (0 : UInt8)).length = 64 := by
    rw [List.length_append, List.length_replicate]
    omega
  rw [hpad, xorblock_count s u (le_of_eq hlen.symm), List.take_of_length_le (le_of_eq hlen),
    xorWith_append, List.take_left' (length_xorWith _ m)]

/-- **The loop masks the text with the keystream from its block number on**, and returns 0 as
long as the number does not run over 64 bits. -/
theorem intCryptoStreamXorLoop_eq (m : Bytes) (u : UInt64) (s : Regs)
    (h : u.toNat + m.length / 64 < 2 ^ 64) :
    intCryptoStreamXorLoop m u (s.count u) = (0, xorWith (wideKeystream s u) m) := by
  induction hn : m.length using Nat.strong_induction_on generalizing m u with
  | _ n ih =>
    rw [intCryptoStreamXorLoop]
    by_cases h64 : 64 ≤ m.length
    · have hsucc : (u + 1).toNat = u.toNat + 1 := by
        rw [UInt64.toNat_add, UInt64.toNat_one]
        exact Nat.mod_eq_of_lt (by omega)
      have hne : u + 1 ≠ 0 := by
        intro h0
        rw [h0] at hsucc
        exact absurd hsucc (by simp)
      have hdrop : (m.drop 64).length = m.length - 64 := List.length_drop
      have hcount : { s.count u with
          x12 := (u + 1 &&& 0xffffffff).toUInt32, x13 := ((u + 1) >>> 32).toUInt32 } =
        s.count (u + 1) := rfl
      have hrest := ih (m.length - 64) (by omega) (m.drop 64) (u + 1) (by omega) hdrop
      have htake : (m.take 64).length = 64 := List.length_take_of_le h64
      have hmask : xorWith (wideKeystream s u) m = xorWith (wideKeystream s u) (m.take 64) ++
          xorWith (wideKeystream s (u + 1)) (m.drop 64) := by
        conv_lhs => rw [← List.take_append_drop 64 m]
        rw [xorWith_append, htake, wideKeystream_succ]
      rw [if_pos h64]
      simp only [if_neg hne, hcount, hrest, xorblock_count s u h64, hmask]
    · rw [if_neg h64]
      split
      · simp only [take_xorblock_count s u (Nat.lt_of_not_le h64)]
      · rename_i h0
        have hnil : m = [] := List.length_eq_zero_iff.mp (not_not.mp h0)
        simp only [hnil, xorWith_nil]

/-! ## 5. The two implementations agree -/

/-- The 12-byte nonce with the 8-byte nonce behind four zeros. -/
def widenNonce (n : Vector UInt8 8) : Vector UInt8 12 :=
  Vector.replicate 4 (0 : UInt8) ++ n

/-- **A block number of one word makes the state of `glo_chacha20_xor`.** -/
theorem words_count_eq_initState (n : Vector UInt8 8) (k : Vector UInt8 32) {b : ℕ}
    (h : b < 2 ^ 32) :
    ((intCryptoStreamRegs n k).count (UInt64.ofNat b)).words =
      initState k (UInt32.ofNat b) (widenNonce n) := by
  have hnonce : (widenNonce n).toList = [0, 0, 0, 0] ++ n.toList := Vector.toList_append
  have hlow : (UInt64.ofNat b &&& 0xffffffff).toUInt32 = UInt32.ofNat b := by
    apply UInt32.toNat_inj.mp
    simp only [UInt64.toNat_toUInt32, UInt64.toNat_and, UInt64.toNat_ofNat', UInt32.toNat_ofNat',
      show (0xffffffff : UInt64).toNat = 2 ^ 32 - 1 from rfl, Nat.and_two_pow_sub_one_eq_mod]
    omega
  have hhigh : (UInt64.ofNat b >>> 32).toUInt32 = 0 := by
    apply UInt32.toNat_inj.mp
    have hshift : (UInt64.ofNat b >>> 32).toNat = b / 2 ^ 32 := by
      rw [UInt64.toNat_shiftRight, UInt64.toNat_ofNat', Nat.mod_eq_of_lt (by omega)]
      exact Nat.shiftRight_eq_div_pow b 32
    rw [UInt64.toNat_toUInt32, hshift, Nat.div_eq_of_lt h]
    rfl
  have hload (p : Bytes) : load32Le p = unpack32 p := rfl
  have hzero : unpack32 ([0, 0, 0, 0] ++ n.toList) = 0 := by
    simp only [unpack32, List.cons_append, List.getD_cons_zero, List.getD_cons_succ]
    decide
  have hdrop (j : ℕ) : ([0, 0, 0, 0] ++ n.toList).drop (4 + j) = n.toList.drop j :=
    @List.drop_length_add_append _ [0, 0, 0, 0] n.toList j
  rw [← gloChacha20State_eq]
  simp only [Regs.words, Regs.count, intCryptoStreamRegs, gloChacha20State, hnonce, hlow, hhigh,
    hload, List.drop_zero, hzero, hdrop 0, hdrop 4, Nat.reduceMul]

/-- **The two implementations agree** on every message shorter than `2 ^ 38` bytes. -/
theorem cryptoStreamChacha20TinynaclXor_eq (m : Bytes) (n : Vector UInt8 8) (k : Vector UInt8 32)
    (h : m.length < 2 ^ 38) :
    cryptoStreamChacha20TinynaclXor m n k =
      (0, gloChacha20Xor (some m) m.length k (widenNonce n) 0) := by
  have hzero : intCryptoStreamRegs n k = (intCryptoStreamRegs n k).count 0 := rfl
  have hloop := intCryptoStreamXorLoop_eq m 0 (intCryptoStreamRegs n k)
    (by rw [UInt64.toNat_zero]; omega)
  have hkeystream : ∀ i < m.length,
      wideKeystream (intCryptoStreamRegs n k) 0 i = keystream k 0 (widenNonce n) i := by
    intro i hi
    simp only [wideKeystream, keystream, block, UInt64.zero_add, UInt32.zero_add,
      words_count_eq_initState n k (show i / 64 < 2 ^ 32 by omega)]
  rw [gloChacha20Xor_eq_encrypt, encrypt, ← xorWith_congr hkeystream, ← hloop, ← hzero,
    cryptoStreamChacha20TinynaclXor]
  split
  · rename_i h0
    have hnil : m = [] := List.length_eq_zero_iff.mp h0
    rw [hnil, intCryptoStreamXorLoop]
    rfl
  · rfl

/-- A block and one byte of the next. -/
theorem cryptoStreamChacha20TinynaclXor_eq_partial :
    cryptoStreamChacha20TinynaclXor (List.replicate 65 7) (Vector.replicate 8 1)
        (Vector.replicate 32 2) =
      (0, gloChacha20Xor (some (List.replicate 65 7)) 65 (Vector.replicate 32 2)
        (widenNonce (Vector.replicate 8 1)) 0) :=
  cryptoStreamChacha20TinynaclXor_eq (List.replicate 65 7) (Vector.replicate 8 1)
    (Vector.replicate 32 2) (by decide)

end Glossh.Mtls
