/-
# `glo_chacha20.c`: the IETF ChaCha20 keystream

The functions of `glo_chacha20.c` as the code computes them: the macro `QR` updates the state
array word by word, `chacha20_block` runs ten double rounds over a copy of its input and stores
the sums, and `glo_chacha20_xor` walks `out`, `in` and `len` forward 64 bytes at a time while it
counts `state[12]` up.

The module then shows the facts everything above it uses:

* `gloChacha20Xor_eq`: the loop masks its input with one keystream, byte by byte, whatever the
  length and wherever the last block ends;
* `gloChacha20Xor_eq_encrypt`: that keystream is RFC 8439's;
* `gloChacha20XorLoop_counters`: it is made of the blocks of a run of counters;
* `gloChacha20XorInPlace_eq`: the bytes are the same when `out` is `in`.
-/
import Glossh.Lib.Rfc8439
import Mathlib.Data.Nat.Bitwise

namespace Glossh.Mtls

open Bytes Rfc8439

/-! ## 1. The functions of the file -/

/-- `rotl32`. -/
def rotl32 (x : UInt32) (n : UInt32) : UInt32 := (x <<< n) ||| (x >>> (32 - n))

/-- `load32_le`: four bytes from the pointer on. -/
def load32Le (p : Bytes) : UInt32 :=
  (p.getD 0 0).toUInt32 ||| ((p.getD 1 0).toUInt32 <<< 8) |||
    ((p.getD 2 0).toUInt32 <<< 16) ||| ((p.getD 3 0).toUInt32 <<< 24)

/-- `store32_le`: the four bytes stored. -/
def store32Le (v : UInt32) : Bytes :=
  [v.toUInt8, (v >>> 8).toUInt8, (v >>> 16).toUInt8, (v >>> 24).toUInt8]

/-- One line of the macro `QR`: `a += b; d ^= a; d = rotl32(d, n);`. -/
def qrLine (x : Vector UInt32 16) (a b d : Fin 16) (n : UInt32) : Vector UInt32 16 :=
  let x := x.set a (x[a] + x[b])
  let x := x.set d (x[d] ^^^ x[a])
  x.set d (rotl32 x[d] n)

/-- The macro `QR` on the words `a, b, c, d` of the array `x`. -/
def qr (x : Vector UInt32 16) (a b c d : Fin 16) : Vector UInt32 16 :=
  let x := qrLine x a b d 16
  let x := qrLine x c d b 12
  let x := qrLine x a b d 8
  qrLine x c d b 7

/-- One turn of the loop of `chacha20_block`. -/
def doubleRound (x : Vector UInt32 16) : Vector UInt32 16 :=
  let x := qr x 0 4 8 12
  let x := qr x 1 5 9 13
  let x := qr x 2 6 10 14
  let x := qr x 3 7 11 15
  let x := qr x 0 5 10 15
  let x := qr x 1 6 11 12
  let x := qr x 2 7 8 13
  qr x 3 4 9 14

/-- `chacha20_block`: the 64 bytes written to `out`. -/
def chacha20Block (inp : Vector UInt32 16) : Bytes :=
  let x := doubleRound^[10] inp
  (List.finRange 16).flatMap fun i => store32Le (x[i] + inp[i])

/-- The array `state` that `glo_chacha20_xor` sets up before its loop. -/
def gloChacha20State (key : Vector UInt8 32) (nonce : Vector UInt8 12) (counter : UInt32) :
    Vector UInt32 16 :=
  let k (i : ℕ) := load32Le (key.toList.drop (4 * i))
  #v[0x61707865, 0x3320646e, 0x79622d32, 0x6b206574,
    k 0, k 1, k 2, k 3, k 4, k 5, k 6, k 7,
    counter, load32Le (nonce.toList.drop 0), load32Le (nonce.toList.drop 4),
    load32Le (nonce.toList.drop 8)]

/-- Byte `j` behind the pointer `in`, which may be NULL. -/
def inByte (inp : Option Bytes) (j : ℕ) : UInt8 :=
  match inp with
  | some l => l.getD j 0
  | none => 0

/-- The loop of `glo_chacha20_xor`: what it writes from `out` on. -/
def gloChacha20XorLoop (inp : Option Bytes) (len : ℕ) (state : Vector UInt32 16) : Bytes :=
  if len = 0 then []
  else
    let n := if len < 64 then len else 64
    let ks := chacha20Block state
    (List.range n).map (fun j => inByte inp j ^^^ ks.getD j 0) ++
      gloChacha20XorLoop (inp.map (List.drop n)) (len - n) (state.set 12 (state[12] + 1))
termination_by len
decreasing_by split <;> omega

/-- `glo_chacha20_xor`: the `len` bytes written to `out`.  They may be written over `in`: each
byte is read before its place is written. -/
def gloChacha20Xor (inp : Option Bytes) (len : ℕ) (key : Vector UInt8 32)
    (nonce : Vector UInt8 12) (counter : UInt32) : Bytes :=
  gloChacha20XorLoop inp len (gloChacha20State key nonce counter)

/-! ## 2. The block function is RFC 8439's -/

theorem rotl32_eq {n : UInt32} (h : n = 16 ∨ n = 12 ∨ n = 8 ∨ n = 7) (x : UInt32) :
    rotl32 x n = rotl x n.toNat := by
  rcases h with rfl | rfl | rfl | rfl <;> rfl

/-- What one line leaves in each word of the array. -/
theorem getElem_qrLine (x : Vector UInt32 16) {a b d : Fin 16} (n : UInt32) (had : a ≠ d)
    (i : Fin 16) :
    (qrLine x a b d n)[i] =
      if i = d then rotl32 (x[d] ^^^ (x[a] + x[b])) n else if i = a then x[a] + x[b] else x[i] := by
  have had' := Fin.val_ne_of_ne had
  simp only [qrLine, Fin.getElem_fin, Vector.getElem_set, had', if_true, if_false,
    Fin.ext_iff, eq_comm (a := i.val)]
  split_ifs <;> rfl

/-- What the quarter round leaves in each word of the state. -/
theorem getElem_quarterRound (s : Words) (a b c d i : Fin 16) :
    (quarterRound s a b c d)[i] =
      if i = d then (quarter s[a] s[b] s[c] s[d]).2.2.2
      else if i = c then (quarter s[a] s[b] s[c] s[d]).2.2.1
      else if i = b then (quarter s[a] s[b] s[c] s[d]).2.1
      else if i = a then (quarter s[a] s[b] s[c] s[d]).1 else s[i] := by
  simp only [quarterRound, Fin.getElem_fin, Vector.getElem_ofFn, Fin.eta]
  rfl

/-- The quarter round as four assignments to the array. -/
theorem quarterRound_eq_set (s : Words) (a b c d : Fin 16) :
    quarterRound s a b c d =
      (((s.set a (quarter s[a] s[b] s[c] s[d]).1).set b (quarter s[a] s[b] s[c] s[d]).2.1).set c
        (quarter s[a] s[b] s[c] s[d]).2.2.1).set d (quarter s[a] s[b] s[c] s[d]).2.2.2 := by
  have key : ∀ i : Fin 16, (quarterRound s a b c d)[i] =
      ((((s.set a (quarter s[a] s[b] s[c] s[d]).1).set b (quarter s[a] s[b] s[c] s[d]).2.1).set c
        (quarter s[a] s[b] s[c] s[d]).2.2.1).set d (quarter s[a] s[b] s[c] s[d]).2.2.2)[i] := by
    intro i
    rw [getElem_quarterRound]
    simp only [Fin.getElem_fin, Vector.getElem_set, Fin.ext_iff, eq_comm (a := i.val)]
  exact Vector.ext fun i hi => key ⟨i, hi⟩

/-- The macro updates one word at a time; on four different words that is the quarter round. -/
theorem qr_eq_quarterRound (x : Vector UInt32 16) {a b c d : Fin 16} (hab : a ≠ b) (hac : a ≠ c)
    (had : a ≠ d) (hbc : b ≠ c) (hbd : b ≠ d) (hcd : c ≠ d) :
    qr x a b c d = quarterRound x a b c d := by
  have e16 : ∀ v, rotl32 v 16 = rotl v 16 := rotl32_eq (by simp)
  have e12 : ∀ v, rotl32 v 12 = rotl v 12 := rotl32_eq (by simp)
  have e8 : ∀ v, rotl32 v 8 = rotl v 8 := rotl32_eq (by simp)
  have e7 : ∀ v, rotl32 v 7 = rotl v 7 := rotl32_eq (by simp)
  have key : ∀ i : Fin 16, (qr x a b c d)[i] = (quarterRound x a b c d)[i] := by
    intro i
    rw [getElem_quarterRound]
    simp only [qr, quarter, getElem_qrLine _ _ had, getElem_qrLine _ _ hbc.symm,
      e16, e12, e8, e7, hab, hac, had, hbc, hbd, hcd, hab.symm, hac.symm, had.symm, hbc.symm,
      hbd.symm, hcd.symm, if_true, if_false]
    rcases eq_or_ne i d with rfl | hid
    · simp only [hbd.symm, hcd.symm, if_true, if_false]
    · rcases eq_or_ne i c with rfl | hic
      · simp only [hcd, hbc.symm, if_true, if_false]
      · rcases eq_or_ne i b with rfl | hib
        · simp only [hbc, hbd, if_true, if_false]
        · simp only [hid, hic, hib, if_false]
          split_ifs <;> rfl
  exact Vector.ext fun i hi => key ⟨i, hi⟩

theorem doubleRound_eq (x : Vector UInt32 16) : doubleRound x = innerBlock x := by
  simp only [doubleRound, innerBlock]
  repeat rw [qr_eq_quarterRound _ (by decide) (by decide) (by decide) (by decide) (by decide)
    (by decide)]

/-- Disjunction of a number below `2 ^ k` with one shifted over it is their sum. -/
theorem or_shiftLeft_eq_add {a b k : ℕ} (h : a < 2 ^ k) : a ||| b <<< k = a + b * 2 ^ k := by
  rw [Nat.or_comm, ← Nat.shiftLeft_add_eq_or_of_lt h, Nat.shiftLeft_eq, Nat.add_comm]

/-- A byte shifted inside a 32-bit word loses nothing. -/
theorem byte_shiftLeft_mod (b : UInt8) {k : ℕ} (hk : k ≤ 24) :
    b.toNat <<< k % 4294967296 = b.toNat <<< k := by
  have hb : b.toNat < 2 ^ 8 := b.toNat_lt
  have hp : 2 ^ k ≤ 2 ^ 24 := Nat.pow_le_pow_right (by decide) hk
  rw [Nat.shiftLeft_eq]
  refine Nat.mod_eq_of_lt ?_
  calc b.toNat * 2 ^ k < 2 ^ 8 * 2 ^ k := Nat.mul_lt_mul_of_pos_right hb (Nat.two_pow_pos k)
    _ ≤ 2 ^ 8 * 2 ^ 24 := Nat.mul_le_mul_left _ hp

/-- The shifts and disjunctions of `load32_le` put the four bytes side by side. -/
theorem load32Le_eq_word (p : Bytes) :
    load32Le p = word (p.getD 0 0) (p.getD 1 0) (p.getD 2 0) (p.getD 3 0) := by
  unfold load32Le word
  generalize p.getD 0 0 = b₀
  generalize p.getD 1 0 = b₁
  generalize p.getD 2 0 = b₂
  generalize p.getD 3 0 = b₃
  have h0 : b₀.toNat < 2 ^ 8 := b₀.toNat_lt
  have h1 : b₁.toNat < 2 ^ 8 := b₁.toNat_lt
  have h2 : b₂.toNat < 2 ^ 8 := b₂.toNat_lt
  apply UInt32.toNat_inj.mp
  simp only [UInt32.toNat_or, UInt32.toNat_shiftLeft, UInt8.toNat_toUInt32, UInt32.toNat_ofNat',
    UInt32.reduceToNat, Nat.reduceMod, Nat.reducePow]
  have h3 : b₃.toNat < 2 ^ 8 := b₃.toNat_lt
  rw [byte_shiftLeft_mod _ (by decide), byte_shiftLeft_mod _ (by decide),
    byte_shiftLeft_mod _ (by decide), or_shiftLeft_eq_add h0,
    or_shiftLeft_eq_add (show b₀.toNat + b₁.toNat * 2 ^ 8 < 2 ^ 16 by omega),
    or_shiftLeft_eq_add
      (show b₀.toNat + b₁.toNat * 2 ^ 8 + b₂.toNat * 2 ^ 16 < 2 ^ 24 by omega)]
  simp only [ofLe]
  omega

/-- `store32_le` stores the four bytes of the word. -/
theorem store32Le_eq_wordBytes (v : UInt32) : store32Le v = wordBytes v := by
  have h (k n : ℕ) (hk : k < 32) (hn : n = 2 ^ k) :
      (v >>> UInt32.ofNat k).toUInt8 = UInt8.ofNat (v.toNat / n) := by
    subst hn
    apply UInt8.toNat_inj.mp
    simp [Nat.shiftRight_eq_div_pow, Nat.mod_eq_of_lt hk]
  have h8 := h 8 256 (by decide) (by decide)
  have h16 := h 16 (256 * 256) (by decide) (by decide)
  have h24 := h 24 (256 * 256 * 256) (by decide) (by decide)
  simp only [store32Le, wordBytes, leBytes, Nat.div_div_eq_div_mul, UInt8.ofNat_uInt32ToNat]
  rw [← h8, ← h16, ← h24]
  rfl

/-- The words of an array in order are the array read by index. -/
theorem map_finRange_getElem (v : Vector UInt32 16) :
    (List.finRange 16).map (fun i => v[i]) = v.toList := by
  refine List.ext_getElem (by simp) ?_
  intro i h1 h2
  simp

/-- `chacha20_block` is the block function of RFC 8439. -/
theorem chacha20Block_eq (s : Vector UInt32 16) : chacha20Block s = blockOf s := by
  have hround : doubleRound = innerBlock := funext doubleRound_eq
  simp only [chacha20Block, blockOf, hround, store32Le_eq_wordBytes]
  rw [← map_finRange_getElem, List.flatMap_map]
  simp

/-- Reading behind a pointer into an array. -/
theorem getD_drop_toList {n : ℕ} (v : Vector UInt8 n) (k j : ℕ) (h : k + j < n) :
    (v.toList.drop k).getD j 0 = v[k + j] := by
  rw [List.getD_eq_getElem?_getD, List.getElem?_drop, List.getElem?_eq_getElem (by simpa using h)]
  simp

/-- The array `glo_chacha20_xor` sets up is RFC 8439's initial state. -/
theorem gloChacha20State_eq (key : Vector UInt8 32) (nonce : Vector UInt8 12) (counter : UInt32) :
    gloChacha20State key nonce counter = initState key counter nonce := by
  have hk (i : Fin 8) : load32Le (key.toList.drop (4 * i.val)) = keyWord key i := by
    rw [load32Le_eq_word, keyWord, getD_drop_toList key _ _ (by omega),
      getD_drop_toList key _ _ (by omega), getD_drop_toList key _ _ (by omega),
      getD_drop_toList key _ _ (by omega)]
    rfl
  have hn (i : Fin 3) : load32Le (nonce.toList.drop (4 * i.val)) = nonceWord nonce i := by
    rw [load32Le_eq_word, nonceWord, getD_drop_toList nonce _ _ (by omega),
      getD_drop_toList nonce _ _ (by omega), getD_drop_toList nonce _ _ (by omega),
      getD_drop_toList nonce _ _ (by omega)]
    rfl
  have k0 : load32Le (key.toList.drop (4 * 0)) = keyWord key 0 := hk 0
  have k1 : load32Le (key.toList.drop (4 * 1)) = keyWord key 1 := hk 1
  have k2 : load32Le (key.toList.drop (4 * 2)) = keyWord key 2 := hk 2
  have k3 : load32Le (key.toList.drop (4 * 3)) = keyWord key 3 := hk 3
  have k4 : load32Le (key.toList.drop (4 * 4)) = keyWord key 4 := hk 4
  have k5 : load32Le (key.toList.drop (4 * 5)) = keyWord key 5 := hk 5
  have k6 : load32Le (key.toList.drop (4 * 6)) = keyWord key 6 := hk 6
  have k7 : load32Le (key.toList.drop (4 * 7)) = keyWord key 7 := hk 7
  have n0 : load32Le (nonce.toList.drop 0) = nonceWord nonce 0 := hn 0
  have n1 : load32Le (nonce.toList.drop 4) = nonceWord nonce 1 := hn 1
  have n2 : load32Le (nonce.toList.drop 8) = nonceWord nonce 2 := hn 2
  simp only [gloChacha20State, initState, k0, k1, k2, k3, k4, k5, k6, k7, n0, n1, n2]

/-- Counting the initial state up changes its counter word only. -/
theorem initState_set (key : Vector UInt8 32) (nonce : Vector UInt8 12) (counter n : UInt32) :
    (initState key counter nonce).set 12 ((initState key counter nonce)[12] + n) =
      initState key (counter + n) nonce := by
  simp [initState]

/-! ## 3. The loop masks its input with one keystream -/

/-- The keystream the loop runs through from `state` on: block after block, the counter word
counted up modulo `2 ^ 32`. -/
def keystreamFrom (state : Vector UInt32 16) (i : ℕ) : UInt8 :=
  (chacha20Block (state.set 12 (state[12] + UInt32.ofNat (i / 64)))).getD (i % 64) 0

/-- The `len` bytes the loop reads behind `in`: zeros when `in` is NULL. -/
def inBytes (inp : Option Bytes) (len : ℕ) : Bytes := (List.range len).map (inByte inp)

@[simp] theorem length_inBytes (inp : Option Bytes) (len : ℕ) : (inBytes inp len).length = len := by
  simp [inBytes]

@[simp] theorem inBytes_none (len : ℕ) : inBytes none len = List.replicate len 0 := by
  refine List.ext_getElem (by simp) ?_
  intro i h1 h2
  simp [inBytes, inByte]

@[simp] theorem inBytes_some (l : Bytes) : inBytes (some l) l.length = l := by
  refine List.ext_getElem (by simp) ?_
  intro i h1 h2
  simp [inBytes, inByte, h2]

/-- Reading on behind the advanced pointer. -/
theorem inByte_drop (inp : Option Bytes) (n j : ℕ) :
    inByte (inp.map (List.drop n)) j = inByte inp (n + j) := by
  cases inp with
  | none => rfl
  | some l => simp [inByte, List.getD_eq_getElem?_getD]

theorem inBytes_add (inp : Option Bytes) (n m : ℕ) :
    inBytes inp (n + m) = inBytes inp n ++ inBytes (inp.map (List.drop n)) m := by
  simp only [inBytes, List.range_add, List.map_append, List.map_map]
  congr 1
  exact List.map_congr_left fun j _ => (inByte_drop inp n j).symm

/-- Counting the state up moves the keystream on by one block. -/
theorem keystreamFrom_succ (state : Vector UInt32 16) :
    keystreamFrom (state.set 12 (state[12] + 1)) = advance (keystreamFrom state) 64 := by
  funext i
  have hdiv : (64 + i) / 64 = 1 + i / 64 := by omega
  have hmod : (64 + i) % 64 = i % 64 := by omega
  have hadd : UInt32.ofNat (1 + i / 64) = 1 + UInt32.ofNat (i / 64) := by
    rw [UInt32.ofNat_add]; rfl
  simp only [keystreamFrom, advance, hdiv, hmod, hadd, Vector.getElem_set_self, Vector.set_set,
    UInt32.add_assoc]

/-- The first block of the keystream is the block of the state itself. -/
theorem keystreamFrom_of_lt {state : Vector UInt32 16} {j : ℕ} (h : j < 64) :
    keystreamFrom state j = (chacha20Block state).getD j 0 := by
  have hdiv : j / 64 = 0 := by omega
  have hmod : j % 64 = j := by omega
  have h0 : UInt32.ofNat 0 = 0 := rfl
  simp only [keystreamFrom, hdiv, hmod, h0, UInt32.add_zero, Vector.set_getElem_self]

/-- One turn of the loop masks its bytes with the block. -/
theorem map_range_xor_eq (inp : Option Bytes) (state : Vector UInt32 16) {n : ℕ} (h : n ≤ 64) :
    (List.range n).map (fun j => inByte inp j ^^^ (chacha20Block state).getD j 0) =
      xorWith (keystreamFrom state) (inBytes inp n) := by
  refine List.ext_getElem (by simp) ?_
  intro i h1 h2
  have hi : i < n := by simpa using h1
  rw [getElem_xorWith _ _ _ _ (by simpa using hi), keystreamFrom_of_lt (by omega)]
  simp [inBytes]

/-- **The loop masks its input with one keystream.**  The induction is the loop's own: a turn of
64 bytes leaves the rest to the state counted up, whose keystream is this one advanced by 64;
a shorter turn is the last. -/
theorem gloChacha20XorLoop_eq (inp : Option Bytes) (len : ℕ) (state : Vector UInt32 16) :
    gloChacha20XorLoop inp len state = xorWith (keystreamFrom state) (inBytes inp len) := by
  induction inp, len, state using gloChacha20XorLoop.induct with
  | case1 inp state => simp [gloChacha20XorLoop, inBytes]
  | case2 inp len state hlen n ih =>
    have hn : n = if len < 64 then len else 64 := rfl
    clear_value n
    have hle : n ≤ 64 := by rw [hn]; split <;> omega
    have hsum : n + (len - n) = len := by rw [hn]; split <;> omega
    have hin : inBytes inp len =
        inBytes inp n ++ inBytes (inp.map (List.drop n)) (len - n) := by
      rw [← inBytes_add, hsum]
    -- a turn of fewer than 64 bytes leaves nothing to the rest of the loop
    have htail : xorWith (keystreamFrom (state.set 12 (state[12] + 1)))
          (inBytes (inp.map (List.drop n)) (len - n)) =
        xorWith (advance (keystreamFrom state) n) (inBytes (inp.map (List.drop n)) (len - n)) := by
      by_cases h64 : len < 64
      · have h0 : len - n = 0 := by rw [hn, if_pos h64]; omega
        simp only [h0, inBytes, List.range_zero, List.map_nil, xorWith_nil]
      · have hn64 : n = 64 := by rw [hn, if_neg h64]
        rw [keystreamFrom_succ, hn64]
    rw [gloChacha20XorLoop, if_neg hlen]
    simp only [← hn]
    rw [ih, map_range_xor_eq inp state hle, htail, hin, xorWith_append, length_inBytes]

/-- `glo_chacha20_xor` masks its input with the keystream of its state. -/
theorem gloChacha20Xor_eq (inp : Option Bytes) (len : ℕ) (key : Vector UInt8 32)
    (nonce : Vector UInt8 12) (counter : UInt32) :
    gloChacha20Xor inp len key nonce counter =
      xorWith (keystream key counter nonce) (inBytes inp len) := by
  have hks : keystreamFrom (gloChacha20State key nonce counter) = keystream key counter nonce := by
    funext i
    simp only [keystreamFrom, keystream, block, chacha20Block_eq, gloChacha20State_eq,
      initState_set]
  rw [gloChacha20Xor, gloChacha20XorLoop_eq, hks]

/-- **`glo_chacha20_xor` on a text is RFC 8439's encryption**, for every length. -/
theorem gloChacha20Xor_eq_encrypt (text : Bytes) (key : Vector UInt8 32) (nonce : Vector UInt8 12)
    (counter : UInt32) :
    gloChacha20Xor (some text) text.length key nonce counter = encrypt key counter nonce text := by
  rw [gloChacha20Xor_eq, inBytes_some, encrypt]

/-- With a NULL input `glo_chacha20_xor` writes the raw keystream. -/
theorem gloChacha20Xor_none (len : ℕ) (key : Vector UInt8 32) (nonce : Vector UInt8 12)
    (counter : UInt32) :
    gloChacha20Xor none len key nonce counter =
      (List.range len).map (keystream key counter nonce) := by
  rw [gloChacha20Xor_eq, inBytes_none, xorWith_replicate_zero]

/-! ## 4. The counters of the blocks -/

/-- The words `state[12]` that the calls of `chacha20_block` find in the loop of
`glo_chacha20_xor`. -/
def gloChacha20XorCounters (len : ℕ) (state : Vector UInt32 16) : List UInt32 :=
  if len = 0 then []
  else
    let n := if len < 64 then len else 64
    state[12] :: gloChacha20XorCounters (len - n) (state.set 12 (state[12] + 1))
termination_by len
decreasing_by split <;> omega

/-- They are a run of successive words. -/
theorem gloChacha20XorCounters_eq (len : ℕ) (state : Vector UInt32 16) :
    gloChacha20XorCounters len state =
      (List.range ((len + 63) / 64)).map fun i => state[12] + UInt32.ofNat i := by
  induction len, state using gloChacha20XorCounters.induct with
  | case1 state => rw [gloChacha20XorCounters, if_pos rfl]; rfl
  | case2 len state hlen n ih =>
    have hn : n = if len < 64 then len else 64 := rfl
    clear_value n
    have hblocks : (len + 63) / 64 = (len - n + 63) / 64 + 1 := by
      rw [hn]
      split <;> omega
    rw [gloChacha20XorCounters, if_neg hlen]
    simp only [← hn]
    rw [ih, hblocks, List.range_succ_eq_map, List.map_cons, List.map_map]
    have h0 : state[12] + UInt32.ofNat 0 = state[12] := UInt32.add_zero _
    rw [h0]
    congr 1
    refine List.map_congr_left fun i _ => ?_
    have hsucc : UInt32.ofNat (i + 1) = 1 + UInt32.ofNat i := by
      rw [Nat.add_comm, UInt32.ofNat_add]
      rfl
    simp only [Function.comp_apply, Nat.succ_eq_add_one, hsucc, Vector.getElem_set_self,
      UInt32.add_assoc]

/-- The loop masks its input with the blocks of its counters, one after the other. -/
theorem gloChacha20XorLoop_counters (inp : Option Bytes) (len : ℕ) (state : Vector UInt32 16) :
    gloChacha20XorLoop inp len state =
      xorWith (fun i => ((gloChacha20XorCounters len state).flatMap
        fun c => chacha20Block (state.set 12 c)).getD i 0) (inBytes inp len) := by
  rw [gloChacha20XorLoop_eq]
  refine xorWith_congr fun i hi => ?_
  have hblock (c : UInt32) : (chacha20Block (state.set 12 c)).length = 64 := by
    rw [chacha20Block_eq, length_blockOf]
  have hget := getElem?_flatMap_const hblock (Nat.mod_lt i (by decide : 0 < 64))
    (gloChacha20XorCounters len state) (i / 64)
  have hcounter : (gloChacha20XorCounters len state)[i / 64]? =
      some (state[12] + UInt32.ofNat (i / 64)) := by
    rw [length_inBytes] at hi
    rw [gloChacha20XorCounters_eq, List.getElem?_map, List.getElem?_range (by omega)]
    rfl
  rw [Nat.div_add_mod] at hget
  rw [keystreamFrom, List.getD_eq_getElem?_getD, List.getD_eq_getElem?_getD, hget, hcounter]
  rfl

/-! ## 5. Masking in place -/

/-- The inner loop of `glo_chacha20_xor` when `out` and `in` both point to byte `p` of `buf`. -/
def xorBlockInPlace (ks : Bytes) (n p : ℕ) (buf : Bytes) : Bytes :=
  (List.range n).foldl
    (fun buf j => buf.set (p + j) (buf.getD (p + j) 0 ^^^ ks.getD j 0)) buf

/-- The loop of `glo_chacha20_xor` when `out` and `in` both point to byte `p` of `buf`. -/
def gloChacha20XorInPlaceLoop (p len : ℕ) (state : Vector UInt32 16) (buf : Bytes) : Bytes :=
  if len = 0 then buf
  else
    let n := if len < 64 then len else 64
    let ks := chacha20Block state
    gloChacha20XorInPlaceLoop (p + n) (len - n) (state.set 12 (state[12] + 1))
      (xorBlockInPlace ks n p buf)
termination_by len
decreasing_by split <;> omega

/-- `glo_chacha20_xor(buf, buf, len, key, nonce, counter)`: the buffer after the call. -/
def gloChacha20XorInPlace (buf : Bytes) (key : Vector UInt8 32) (nonce : Vector UInt8 12)
    (counter : UInt32) : Bytes :=
  gloChacha20XorInPlaceLoop 0 buf.length (gloChacha20State key nonce counter) buf

@[simp] theorem length_xorBlockInPlace (ks : Bytes) (n p : ℕ) (buf : Bytes) :
    (xorBlockInPlace ks n p buf).length = buf.length := by
  induction n with
  | zero => rfl
  | succ n ih =>
    rw [xorBlockInPlace] at ih ⊢
    rw [List.range_succ, List.foldl_append, List.foldl_cons, List.foldl_nil, List.length_set, ih]

/-- The inner loop masks the bytes it passes, each once. -/
theorem getElem?_xorBlockInPlace (ks : Bytes) {n p : ℕ} {buf : Bytes} (h : p + n ≤ buf.length)
    (i : ℕ) :
    (xorBlockInPlace ks n p buf)[i]? =
      if p ≤ i ∧ i < p + n then buf[i]?.map (· ^^^ ks.getD (i - p) 0) else buf[i]? := by
  induction n generalizing i with
  | zero => rw [if_neg (by omega)]; rfl
  | succ n ih =>
    have hprev := ih (by omega)
    have hlen := length_xorBlockInPlace ks n p buf
    have hstep : xorBlockInPlace ks (n + 1) p buf = (xorBlockInPlace ks n p buf).set (p + n)
        ((xorBlockInPlace ks n p buf).getD (p + n) 0 ^^^ ks.getD n 0) := by
      rw [xorBlockInPlace, List.range_succ, List.foldl_append]
      rfl
    -- byte `p + n` is read as it was before the loop
    have hread : (xorBlockInPlace ks n p buf).getD (p + n) 0 = buf.getD (p + n) 0 := by
      rw [List.getD_eq_getElem?_getD, hprev, if_neg (by omega), List.getD_eq_getElem?_getD]
    rw [hstep, hread]
    by_cases hi : i = p + n
    · subst hi
      have hsome : buf[p + n]? = some buf[p + n] := List.getElem?_eq_getElem (by omega)
      rw [List.getElem?_set_self (by omega), if_pos (by omega), Nat.add_sub_cancel_left,
        List.getD_eq_getElem?_getD, hsome]
      rfl
    · rw [List.getElem?_set_ne (by omega), hprev]
      by_cases hin : p ≤ i ∧ i < p + n
      · rw [if_pos hin, if_pos (by omega)]
      · rw [if_neg hin, if_neg (by omega)]

/-- The loop masks the rest of the buffer with the keystream of its state. -/
theorem getElem?_gloChacha20XorInPlaceLoop (p len : ℕ) (state : Vector UInt32 16) (buf : Bytes)
    (h : p + len ≤ buf.length) (i : ℕ) :
    (gloChacha20XorInPlaceLoop p len state buf)[i]? =
      if p ≤ i ∧ i < p + len then buf[i]?.map (· ^^^ keystreamFrom state (i - p))
      else buf[i]? := by
  induction p, len, state, buf using gloChacha20XorInPlaceLoop.induct with
  | case1 p state buf => rw [gloChacha20XorInPlaceLoop, if_pos rfl, if_neg (by omega)]
  | case2 p len state buf hlen n ks ih =>
    have hn : n = if len < 64 then len else 64 := rfl
    have hks : ks = chacha20Block state := rfl
    clear_value n ks
    have hle : n ≤ 64 ∧ n ≤ len := by rw [hn]; split <;> omega
    have hrest := ih (by rw [length_xorBlockInPlace]; omega)
    rw [gloChacha20XorInPlaceLoop, if_neg hlen]
    simp only [← hn, ← hks]
    rw [hrest, getElem?_xorBlockInPlace ks (by omega)]
    by_cases hlow : i < p + n
    · rw [if_neg (by omega)]
      by_cases hin : p ≤ i
      · rw [if_pos ⟨hin, hlow⟩, if_pos ⟨hin, by omega⟩, keystreamFrom_of_lt (by omega), hks]
      · rw [if_neg (by omega), if_neg (by omega)]
    · by_cases hin : i < p + len
      · -- a rest means that this turn took 64 bytes
        have hn64 : n = 64 := by
          by_cases h64 : len < 64
          · rw [if_pos h64] at hn
            omega
          · rwa [if_neg h64] at hn
        have hadvance : keystreamFrom (state.set 12 (state[12] + 1)) (i - (p + n)) =
            keystreamFrom state (i - p) := by
          rw [keystreamFrom_succ, advance]
          congr 1
          omega
        rw [if_pos (by omega), if_neg (by omega), if_pos (by omega), hadvance]
      · rw [if_neg (by omega), if_neg (by omega), if_neg (by omega)]

/-- **In place or not, `glo_chacha20_xor` writes the same bytes.** -/
theorem gloChacha20XorInPlace_eq (buf : Bytes) (key : Vector UInt8 32) (nonce : Vector UInt8 12)
    (counter : UInt32) :
    gloChacha20XorInPlace buf key nonce counter =
      gloChacha20Xor (some buf) buf.length key nonce counter := by
  rw [gloChacha20Xor, gloChacha20XorLoop_eq, inBytes_some, gloChacha20XorInPlace]
  refine List.ext_getElem? fun i => ?_
  rw [getElem?_gloChacha20XorInPlaceLoop 0 _ _ buf (by omega), xorWith, List.getElem?_mapIdx,
    Nat.sub_zero]
  by_cases hi : i < buf.length
  · rw [if_pos (by omega)]
  · rw [if_neg (by omega), List.getElem?_eq_none (by omega)]
    rfl

end Glossh.Mtls
