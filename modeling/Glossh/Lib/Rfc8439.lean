/-
# ChaCha20 and AEAD_CHACHA20_POLY1305 as RFC 8439 defines them

The definitions of RFC 8439 sections 2.1 to 2.5 and 2.8, in the RFC's words and independent of
any implementation: the quarter round on four words and on a state, the block function, the
encryption of a byte string, Poly1305, and the AEAD over an arbitrary one-time authenticator.

`encrypt` is stated byte by byte: byte `i` of the text meets byte `i % 64` of the block with
counter `counter + i / 64`.  That is the RFC's loop over 64-byte blocks with its shorter last
block, without the loop.
-/
import Glossh.Lib.Bytes
import Mathlib.Logic.Function.Iterate

namespace Glossh
namespace Rfc8439

open Bytes

/-- The sixteen 32-bit words of a ChaCha state. -/
abbrev Words := Vector UInt32 16

/-- The positions of the words are numerals. -/
instance wordsNeZero : NeZero 16 := ⟨by decide⟩

/-- Rotation of a word to the left. -/
def rotl (x : UInt32) (n : ℕ) : UInt32 := ⟨x.toBitVec.rotateLeft n⟩

/-- §2.1: the quarter round on four words. -/
def quarter (a b c d : UInt32) : UInt32 × UInt32 × UInt32 × UInt32 :=
  let a := a + b; let d := rotl (d ^^^ a) 16
  let c := c + d; let b := rotl (b ^^^ c) 12
  let a := a + b; let d := rotl (d ^^^ a) 8
  let c := c + d; let b := rotl (b ^^^ c) 7
  (a, b, c, d)

/-- §2.2: the quarter round on the words `x, y, z, w` of a state. -/
def quarterRound (s : Words) (x y z w : Fin 16) : Words :=
  let r := quarter (s.get x) (s.get y) (s.get z) (s.get w)
  Vector.ofFn fun i =>
    if i = w then r.2.2.2 else if i = z then r.2.2.1 else if i = y then r.2.1
    else if i = x then r.1 else s.get i

/-- §2.3: four column rounds and four diagonal rounds. -/
def innerBlock (s : Words) : Words :=
  let s := quarterRound s 0 4 8 12
  let s := quarterRound s 1 5 9 13
  let s := quarterRound s 2 6 10 14
  let s := quarterRound s 3 7 11 15
  let s := quarterRound s 0 5 10 15
  let s := quarterRound s 1 6 11 12
  let s := quarterRound s 2 7 8 13
  quarterRound s 3 4 9 14

/-- Four bytes read as a little-endian word. -/
def word (b₀ b₁ b₂ b₃ : UInt8) : UInt32 := UInt32.ofNat (ofLe [b₀, b₁, b₂, b₃])

/-- The four bytes of a word, low byte first. -/
def wordBytes (w : UInt32) : Bytes := leBytes 4 w.toNat

/-- Word `i` of a 32-byte key. -/
def keyWord (key : Vector UInt8 32) (i : Fin 8) : UInt32 :=
  word key[4 * i.val] key[4 * i.val + 1] key[4 * i.val + 2] key[4 * i.val + 3]

/-- Word `i` of a 12-byte nonce. -/
def nonceWord (nonce : Vector UInt8 12) (i : Fin 3) : UInt32 :=
  word nonce[4 * i.val] nonce[4 * i.val + 1] nonce[4 * i.val + 2] nonce[4 * i.val + 3]

/-- §2.3: constants, key, block counter, nonce. -/
def initState (key : Vector UInt8 32) (counter : UInt32) (nonce : Vector UInt8 12) : Words :=
  #v[0x61707865, 0x3320646e, 0x79622d32, 0x6b206574,
    keyWord key 0, keyWord key 1, keyWord key 2, keyWord key 3,
    keyWord key 4, keyWord key 5, keyWord key 6, keyWord key 7,
    counter, nonceWord nonce 0, nonceWord nonce 1, nonceWord nonce 2]

/-- §2.3: ten double rounds, the addition of the input, and the words in sequence. -/
def blockOf (s : Words) : Bytes :=
  (Vector.zipWith (· + ·) (innerBlock^[10] s) s).toList.flatMap wordBytes

/-- §2.3: the ChaCha20 block function. -/
def block (key : Vector UInt8 32) (counter : UInt32) (nonce : Vector UInt8 12) : Bytes :=
  blockOf (initState key counter nonce)

/-- §2.4: the keystream that starts at block `counter`. -/
def keystream (key : Vector UInt8 32) (counter : UInt32) (nonce : Vector UInt8 12)
    (i : ℕ) : UInt8 :=
  (block key (counter + UInt32.ofNat (i / 64)) nonce).getD (i % 64) 0

/-- §2.4: ChaCha20 encryption, which is also decryption. -/
def encrypt (key : Vector UInt8 32) (counter : UInt32) (nonce : Vector UInt8 12)
    (text : Bytes) : Bytes :=
  xorWith (keystream key counter nonce) text

/-- §2.6: the one-time key is the first half of block 0. -/
def oneTimeKey (key : Vector UInt8 32) (nonce : Vector UInt8 12) : Vector UInt8 32 :=
  Vector.ofFn fun i => keystream key 0 nonce i.val

/-- §2.5: the accumulator of Poly1305 over the blocks of a message, `acc` so far. -/
def poly1305Acc (r : ℕ) : ℕ → ℕ → Bytes → ℕ
  | 0, acc, _ => acc
  | fuel + 1, acc, msg =>
    if msg = [] then acc
    else poly1305Acc r fuel ((acc + ofLe (msg.take 16 ++ [1])) * r % (2 ^ 130 - 5)) (msg.drop 16)

/-- §2.5: Poly1305.  The key is the clamped multiplier and the mask of the result; a message has
fewer blocks than bytes or it is empty. -/
def poly1305 (msg : Bytes) (key : Vector UInt8 32) : Vector UInt8 16 :=
  let r := ofLe (key.toList.take 16) &&& 0x0ffffffc0ffffffc0ffffffc0fffffff
  let s := ofLe (key.toList.drop 16)
  toVector 16 (leBytes 16 (poly1305Acc r msg.length 0 msg + s))

/-- §2.8: the bytes that are authenticated. -/
def macData (aad ct : Bytes) : Bytes :=
  aad ++ zeroPad 16 aad.length ++ ct ++ zeroPad 16 ct.length ++ leBytes 8 aad.length ++
    leBytes 8 ct.length

/-- §2.8: AEAD encryption over the one-time authenticator `poly`. -/
def aeadEncrypt (poly : Bytes → Vector UInt8 32 → Vector UInt8 16) (key : Vector UInt8 32)
    (nonce : Vector UInt8 12) (text aad : Bytes) : Bytes × Vector UInt8 16 :=
  let ct := encrypt key 1 nonce text
  (ct, poly (macData aad ct) (oneTimeKey key nonce))

@[simp] theorem length_encrypt (key : Vector UInt8 32) (counter : UInt32)
    (nonce : Vector UInt8 12) (text : Bytes) :
    (encrypt key counter nonce text).length = text.length := by
  simp [encrypt]

theorem length_blockOf (s : Words) : (blockOf s).length = 64 := by
  have hword (w : UInt32) : (wordBytes w).length = 4 := length_leBytes 4 w.toNat
  rw [blockOf, length_flatMap_const hword, Vector.length_toList]

/-- A word determines its four bytes. -/
theorem word_inj {a₀ a₁ a₂ a₃ b₀ b₁ b₂ b₃ : UInt8} :
    word a₀ a₁ a₂ a₃ = word b₀ b₁ b₂ b₃ ↔ a₀ = b₀ ∧ a₁ = b₁ ∧ a₂ = b₂ ∧ a₃ = b₃ := by
  constructor
  · intro h
    have hlist : leBytes 4 (ofLe [a₀, a₁, a₂, a₃] % 2 ^ 32) =
        leBytes 4 (ofLe [b₀, b₁, b₂, b₃] % 2 ^ 32) := by
      have hnat := congrArg UInt32.toNat h
      rw [word, word, UInt32.toNat_ofNat', UInt32.toNat_ofNat'] at hnat
      rw [hnat]
    have hpow : (2 : ℕ) ^ 32 = 256 ^ 4 := by decide
    have ha : leBytes 4 (ofLe [a₀, a₁, a₂, a₃]) = [a₀, a₁, a₂, a₃] :=
      leBytes_ofLe [a₀, a₁, a₂, a₃]
    have hb : leBytes 4 (ofLe [b₀, b₁, b₂, b₃]) = [b₀, b₁, b₂, b₃] :=
      leBytes_ofLe [b₀, b₁, b₂, b₃]
    rw [hpow, leBytes_mod, leBytes_mod, ha, hb] at hlist
    simpa only [List.cons.injEq, and_true] using hlist
  · rintro ⟨rfl, rfl, rfl, rfl⟩
    rfl

/-- A nonce is determined by its words. -/
theorem nonceWord_ext {m n : Vector UInt8 12} (h : ∀ i, nonceWord m i = nonceWord n i) : m = n := by
  refine Vector.ext fun j hj => ?_
  obtain ⟨h0, h1, h2, h3⟩ := word_inj.mp (h ⟨j / 4, by omega⟩)
  have hdiv : 4 * (j / 4) + j % 4 = j := Nat.div_add_mod j 4
  have hmod : j % 4 = 0 ∨ j % 4 = 1 ∨ j % 4 = 2 ∨ j % 4 = 3 := by omega
  rcases hmod with hr | hr | hr | hr
  · simp only [hr, Nat.add_zero] at hdiv
    simpa only [hdiv] using h0
  · rw [hr] at hdiv
    simpa only [hdiv] using h1
  · rw [hr] at hdiv
    simpa only [hdiv] using h2
  · rw [hr] at hdiv
    simpa only [hdiv] using h3

/-- **Under one key counter and nonce determine the state.** -/
theorem initState_inj {key : Vector UInt8 32} {b c : UInt32} {m n : Vector UInt8 12} :
    initState key b m = initState key c n ↔ b = c ∧ m = n := by
  constructor
  · intro h
    have hwords := congrArg Vector.toList h
    simp only [initState, Vector.toList_mk, List.cons.injEq, true_and, and_true] at hwords
    obtain ⟨hcounter, h0, h1, h2⟩ := hwords
    refine ⟨hcounter, nonceWord_ext fun i => ?_⟩
    have hi : i = 0 ∨ i = 1 ∨ i = 2 := by omega
    rcases hi with rfl | rfl | rfl
    · exact h0
    · exact h1
    · exact h2
  · rintro ⟨rfl, rfl⟩
    rfl

/-- **The authenticated bytes determine their parts.**  Read from the end, the two lengths come
first; with them each padding is as long on both sides. -/
theorem macData_inj {aad aad' ct ct' : Bytes} (haad : aad.length < 2 ^ 64)
    (haad' : aad'.length < 2 ^ 64) (hct : ct.length < 2 ^ 64) (hct' : ct'.length < 2 ^ 64)
    (h : macData aad ct = macData aad' ct') : aad = aad' ∧ ct = ct' := by
  unfold macData at h
  obtain ⟨h, hlen⟩ := List.append_inj' h (by simp only [length_leBytes])
  have hctlen : ct.length = ct'.length := leBytes_inj hct hct' hlen
  obtain ⟨h, hlen⟩ := List.append_inj' h (by simp only [length_leBytes])
  have haadlen : aad.length = aad'.length := leBytes_inj haad haad' hlen
  obtain ⟨h, -⟩ := List.append_inj' h (by rw [hctlen])
  obtain ⟨h, hct⟩ := List.append_inj' h hctlen
  obtain ⟨haad, -⟩ := List.append_inj h haadlen
  exact ⟨haad, hct⟩

/-- The test vector of §2.1.1. -/
example : quarter 0x11111111 0x01020304 0x9b8d6f43 0x01234567
    = (0xea2a92f4, 0xcb1cf8ce, 0x4581472e, 0x5881c4bb) := by decide

end Rfc8439
end Glossh
