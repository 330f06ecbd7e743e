/-
# `glo_aead.c`: AEAD_CHACHA20_POLY1305

The three functions of `glo_aead.c` over a one-time authenticator `poly`, which stands for
tinynacl's `crypto_onetimeauth_poly1305`, and tinynacl's `crypto_verify_16`, which compares the
tags.  `poly_tag` lays the authenticated data out in a zeroed buffer it allocates; its
allocation is the only thing that can fail, and `callocOk` says whether it succeeds.

Sealing writes the ciphertext before it asks for the buffer, so a failed seal still leaves the
ciphertext in `ct`; opening writes `pt` only after the tag was found right.
-/
import Glossh.Mtls.Chacha20

namespace Glossh.Mtls

open Bytes Rfc8439

/-- A Poly1305 authenticator: message, one-time key, tag. -/
abbrev Poly1305 := Bytes → Vector UInt8 32 → Vector UInt8 16

/-! ## 1. The functions of the file -/

/-- The loop of `store64_le` on the bytes still to store. -/
def store64LeLoop : ℕ → UInt64 → Bytes
  | 0, _ => []
  | i + 1, v => v.toUInt8 :: store64LeLoop i (v >>> 8)

/-- `store64_le`: the eight bytes stored. -/
def store64Le (v : UInt64) : Bytes := store64LeLoop 8 v

/-- The buffer `m` of `poly_tag` as it is handed to Poly1305. -/
def polyTagInput (aad ct : Bytes) : Bytes :=
  let apad := (16 - (aad.length &&& 15)) &&& 15
  let cpad := (16 - (ct.length &&& 15)) &&& 15
  let mlen := aad.length + apad + ct.length + cpad + 16
  let m := List.replicate (if mlen ≠ 0 then mlen else 1) 0
  let o := 0
  let m := if aad.length ≠ 0 then overwrite m o aad else m
  let o := o + (aad.length + apad)
  let m := if ct.length ≠ 0 then overwrite m o ct else m
  let o := o + (ct.length + cpad)
  let m := overwrite m o (store64Le (UInt64.ofNat aad.length))
  let m := overwrite m (o + 8) (store64Le (UInt64.ofNat ct.length))
  m.take mlen

/-- `poly_tag`: the tag, or nothing when the buffer could not be allocated. -/
def polyTag (poly : Poly1305) (callocOk : Bool) (otk : Vector UInt8 32) (aad ct : Bytes) :
    Option (Vector UInt8 16) :=
  if callocOk then some (poly (polyTagInput aad ct) otk) else none

/-- tinynacl's `verify` on two arrays of `n` bytes; `crypto_verify_16` is its case `n = 16`. -/
def verify {n : ℕ} (x y : Vector UInt8 n) : UInt32 :=
  let d := (List.finRange n).foldl (fun d i => d ||| (x[i] ^^^ y[i]).toUInt32) (0 : UInt32)
  ((1 : UInt32) &&& ((d - 1) >>> 8)) - 1

/-- The array `otk`: 32 bytes of raw keystream at counter 0. -/
def otkOf (key : Vector UInt8 32) (nonce : Vector UInt8 12) : Vector UInt8 32 :=
  Vector.ofFn fun i => (gloChacha20Xor none 32 key nonce 0).getD i.val 0

/-- What a call of `glo_aead_seal` returns and writes.  The tag is written only when it could
be computed. -/
structure SealResult where
  rc : Int
  ct : Bytes
  tag : Option (Vector UInt8 16)
deriving DecidableEq

/-- `glo_aead_seal`. -/
def gloAeadSeal (poly : Poly1305) (callocOk : Bool) (pt aad : Bytes) (key : Vector UInt8 32)
    (nonce : Vector UInt8 12) : SealResult :=
  let otk := otkOf key nonce
  let ct := gloChacha20Xor (some pt) pt.length key nonce 1
  match polyTag poly callocOk otk aad ct with
  | some tag => { rc := 0, ct := ct, tag := some tag }
  | none => { rc := -1, ct := ct, tag := none }

/-- What a call of `glo_aead_open` returns, and the buffer `pt` after it. -/
structure OpenResult where
  rc : Int
  pt : Bytes
deriving DecidableEq

/-- `glo_aead_open` on a buffer that holds `pt` before the call. -/
def gloAeadOpen (poly : Poly1305) (callocOk : Bool) (pt ct : Bytes) (tag : Vector UInt8 16)
    (aad : Bytes) (key : Vector UInt8 32) (nonce : Vector UInt8 12) : OpenResult :=
  let otk := otkOf key nonce
  match polyTag poly callocOk otk aad ct with
  | none => { rc := -1, pt := pt }
  | some expect =>
    if verify expect tag ≠ 0 then { rc := -1, pt := pt }
    else { rc := 0, pt := overwrite pt 0 (gloChacha20Xor (some ct) ct.length key nonce 1) }

/-! ## 2. The buffer of `poly_tag` is the authenticated data of RFC 8439 -/

theorem store64LeLoop_eq (i : ℕ) (v : UInt64) : store64LeLoop i v = leBytes i v.toNat := by
  induction i generalizing v with
  | zero => rfl
  | succ i ih =>
    have hshift : (v >>> 8).toNat = v.toNat / 256 := by
      rw [UInt64.toNat_shiftRight]
      exact Nat.shiftRight_eq_div_pow v.toNat 8
    have hlow : v.toUInt8 = UInt8.ofNat v.toNat := by simp
    rw [store64LeLoop, leBytes, ih, hshift, hlow]

/-- `store64_le` stores the low eight bytes of the number. -/
theorem store64Le_ofNat (n : ℕ) : store64Le (UInt64.ofNat n) = leBytes 8 n := by
  rw [store64Le, store64LeLoop_eq, UInt64.toNat_ofNat']
  exact leBytes_mod 8 n

/-- The masks `& 15` compute the padding to a multiple of 16. -/
theorem and_fifteen_eq_padLen (n : ℕ) : (16 - (n &&& 15)) &&& 15 = padLen 16 n := by
  rw [show (15 : ℕ) = 2 ^ 4 - 1 from rfl, Nat.and_two_pow_sub_one_eq_mod,
    Nat.and_two_pow_sub_one_eq_mod]
  rfl

/-- **The buffer handed to Poly1305 is the authenticated data of RFC 8439 §2.8**, for all
lengths of associated data and ciphertext.  Each of the four copies fills one gap of the zeroed
buffer and leaves the padding behind it. -/
theorem polyTagInput_eq (aad ct : Bytes) : polyTagInput aad ct = macData aad ct := by
  have hsplit : List.replicate (aad.length + padLen 16 aad.length + ct.length +
        padLen 16 ct.length + 16) (0 : UInt8) =
      List.replicate aad.length 0 ++ zeroPad 16 aad.length ++ List.replicate ct.length 0 ++
        zeroPad 16 ct.length ++ List.replicate 8 0 ++ List.replicate 8 0 := by
    simp only [zeroPad, List.replicate_append_replicate]
  simp only [polyTagInput, and_fifteen_eq_padLen, ite_length_overwrite, store64Le_ofNat]
  rw [if_pos (by omega), hsplit]
  generalize hP : zeroPad 16 aad.length = P
  generalize hQ : zeroPad 16 ct.length = Q
  generalize hZ : List.replicate ct.length (0 : UInt8) = Z
  generalize hL : List.replicate 8 (0 : UInt8) = L
  have hPlen : P.length = padLen 16 aad.length := by rw [← hP, length_zeroPad]
  have hQlen : Q.length = padLen 16 ct.length := by rw [← hQ, length_zeroPad]
  have hZlen : Z.length = ct.length := by rw [← hZ, List.length_replicate]
  have hLlen : L.length = 8 := by rw [← hL, List.length_replicate]
  have h1 : overwrite (List.replicate aad.length 0 ++ P ++ Z ++ Q ++ L ++ L) 0 aad =
      aad ++ P ++ Z ++ Q ++ L ++ L := by
    simpa only [List.append_assoc, List.nil_append] using
      overwrite_append (b := P ++ Z ++ Q ++ L ++ L) (List.length_nil (α := UInt8))
        (List.length_replicate (n := aad.length) (a := (0 : UInt8)))
  have h2 : overwrite (aad ++ P ++ Z ++ Q ++ L ++ L) (0 + (aad.length + padLen 16 aad.length)) ct =
      aad ++ P ++ ct ++ Q ++ L ++ L := by
    simpa only [List.append_assoc] using
      overwrite_append (a := aad ++ P) (b := Q ++ L ++ L)
        (by rw [List.length_append]; omega) hZlen
  have h3 : overwrite (aad ++ P ++ ct ++ Q ++ L ++ L)
      (0 + (aad.length + padLen 16 aad.length) + (ct.length + padLen 16 ct.length))
        (leBytes 8 aad.length) =
      aad ++ P ++ ct ++ Q ++ leBytes 8 aad.length ++ L := by
    simpa only [List.append_assoc] using
      overwrite_append (a := aad ++ P ++ ct ++ Q) (g := L) (b := L)
        (by simp only [List.length_append]; omega) (by rw [hLlen, length_leBytes])
  have h4 : overwrite (aad ++ P ++ ct ++ Q ++ leBytes 8 aad.length ++ L)
      (0 + (aad.length + padLen 16 aad.length) + (ct.length + padLen 16 ct.length) + 8)
        (leBytes 8 ct.length) =
      aad ++ P ++ ct ++ Q ++ leBytes 8 aad.length ++ leBytes 8 ct.length := by
    simpa only [List.append_nil] using
      overwrite_append (a := aad ++ P ++ ct ++ Q ++ leBytes 8 aad.length) (g := L) (b := [])
        (by simp only [List.length_append, length_leBytes]; omega) (by rw [hLlen, length_leBytes])
  rw [h1, h2, h3, h4, List.take_of_length_le]
  · rw [macData, hP, hQ]
  · simp only [List.length_append, length_leBytes]
    omega

/-- **No two pairs of associated data and ciphertext share a MAC input.** -/
theorem polyTagInput_eq_iff {aad aad' ct ct' : Bytes} (haad : aad.length < 2 ^ 64)
    (haad' : aad'.length < 2 ^ 64) (hct : ct.length < 2 ^ 64) (hct' : ct'.length < 2 ^ 64) :
    polyTagInput aad ct = polyTagInput aad' ct' ↔ aad = aad' ∧ ct = ct' := by
  rw [polyTagInput_eq, polyTagInput_eq]
  constructor
  · intro h
    exact macData_inj haad haad' hct hct' h
  · rintro ⟨rfl, rfl⟩
    rfl

/-- A zero byte at the end of the ciphertext is not taken for padding. -/
theorem polyTagInput_trailing_zero : polyTagInput [0x17, 3, 3, 0, 17] [1] ≠
    polyTagInput [0x17, 3, 3, 0, 17] [1, 0] := by
  intro h
  have hparts := (polyTagInput_eq_iff (by decide) (by decide) (by decide) (by decide)).mp h
  exact absurd hparts.2 (by decide)

/-! ## 3. Comparing tags -/

/-- The disjunction that `verify` collects is the widened disjunction of bytes. -/
theorem foldl_or_toUInt32 (l : List UInt8) (d : UInt8) :
    l.foldl (fun d b => d ||| b.toUInt32) d.toUInt32 = (l.foldl (· ||| ·) d).toUInt32 := by
  induction l generalizing d with
  | nil => rfl
  | cons b l ih => rw [List.foldl_cons, List.foldl_cons, ← UInt8.toUInt32_or, ih]

/-- A disjunction of bytes is zero when every byte is. -/
theorem foldl_or_eq_zero_iff (l : List UInt8) (d : UInt8) :
    l.foldl (· ||| ·) d = 0 ↔ d = 0 ∧ ∀ b ∈ l, b = 0 := by
  induction l generalizing d with
  | nil => simp
  | cons b l ih => simp [ih, and_assoc]

/-- The arithmetic of `verify` maps 0 to 0 and every other byte to -1. -/
theorem verify_bits_eq_zero_iff (b : UInt8) :
    ((1 : UInt32) &&& ((b.toUInt32 - 1) >>> 8)) - 1 = 0 ↔ b = 0 := by
  constructor
  · intro h
    by_contra hb
    have hpos : 0 < b.toNat := by
      rcases Nat.eq_zero_or_pos b.toNat with h0 | h0
      · exact absurd (UInt8.toNat_inj.mp h0) hb
      · exact h0
    have hlt : b.toNat < 256 := b.toNat_lt
    have hsub : (b.toUInt32 - 1).toNat = b.toNat - 1 := by
      rw [UInt32.toNat_sub_of_le]
      · rfl
      · rw [UInt32.le_iff_toNat_le]
        exact hpos
    have hshift : (b.toUInt32 - 1) >>> 8 = 0 := by
      apply UInt32.toNat_inj.mp
      rw [UInt32.toNat_shiftRight, hsub, Nat.shiftRight_eq_div_pow]
      exact Nat.div_eq_of_lt (by show b.toNat - 1 < 256; omega)
    rw [hshift] at h
    exact absurd h (by decide)
  · rintro rfl
    decide

/-- **`verify` returns 0 exactly on equal arrays.** -/
theorem verify_eq_zero_iff {n : ℕ} (x y : Vector UInt8 n) : verify x y = 0 ↔ x = y := by
  have hfold : (List.finRange n).foldl (fun d i => d ||| (x[i] ^^^ y[i]).toUInt32) (0 : UInt32) =
      (((List.finRange n).map fun i => x[i] ^^^ y[i]).foldl (· ||| ·) 0).toUInt32 := by
    rw [← foldl_or_toUInt32, List.foldl_map]
    rfl
  rw [verify, hfold, verify_bits_eq_zero_iff, foldl_or_eq_zero_iff]
  simp only [List.mem_map, List.mem_finRange, true_and, forall_exists_index,
    forall_apply_eq_imp_iff, UInt8.xor_eq_zero_iff]
  constructor
  · intro h
    exact Vector.ext fun i hi => h ⟨i, hi⟩
  · rintro rfl i
    rfl

/-! ## 4. Sealing is RFC 8439's encryption, opening its inverse -/

/-- The array `otk` is the one-time key of RFC 8439 §2.6. -/
theorem otkOf_eq (key : Vector UInt8 32) (nonce : Vector UInt8 12) :
    otkOf key nonce = oneTimeKey key nonce := by
  refine Vector.ext fun i hi => ?_
  simp only [otkOf, oneTimeKey, gloChacha20Xor_none, Vector.getElem_ofFn]
  rw [List.getD_eq_getElem?_getD, List.getElem?_map, List.getElem?_range hi]
  rfl

section

variable (poly : Poly1305) (key : Vector UInt8 32) (nonce : Vector UInt8 12)

/-- With its buffer allocated `glo_aead_seal` is `AEAD_CHACHA20_POLY1305`. -/
theorem gloAeadSeal_eq (pt aad : Bytes) :
    gloAeadSeal poly true pt aad key nonce =
      { rc := 0
        ct := (aeadEncrypt poly key nonce pt aad).1
        tag := some (aeadEncrypt poly key nonce pt aad).2 } := by
  simp only [gloAeadSeal, polyTag, if_true, gloChacha20Xor_eq_encrypt, otkOf_eq, polyTagInput_eq,
    aeadEncrypt]

/-- Without its buffer `glo_aead_seal` fails, and leaves the ciphertext in `ct`. -/
theorem gloAeadSeal_of_calloc_fails (pt aad : Bytes) :
    gloAeadSeal poly false pt aad key nonce =
      { rc := -1, ct := encrypt key 1 nonce pt, tag := none } := by
  simp only [gloAeadSeal, polyTag, Bool.false_eq_true, if_false, gloChacha20Xor_eq_encrypt]

/-- What `glo_aead_open` does with its buffer allocated. -/
theorem gloAeadOpen_eq (buf ct aad : Bytes) (tag : Vector UInt8 16) :
    gloAeadOpen poly true buf ct tag aad key nonce =
      if poly (macData aad ct) (oneTimeKey key nonce) = tag then
        { rc := 0, pt := overwrite buf 0 (encrypt key 1 nonce ct) }
      else { rc := -1, pt := buf } := by
  simp only [gloAeadOpen, polyTag, if_true, otkOf_eq, polyTagInput_eq, gloChacha20Xor_eq_encrypt,
    ne_eq, verify_eq_zero_iff]
  split_ifs <;> rfl

/-- Masking with the payload keystream twice restores the text. -/
@[simp] theorem encrypt_encrypt (counter : UInt32) (text : Bytes) :
    encrypt key counter nonce (encrypt key counter nonce text) = text := by
  simp [encrypt]

/-- `aeadEncrypt` yields a given pair exactly when the tag is that pair's and the text is the
decryption of its ciphertext. -/
theorem aeadEncrypt_eq_iff (p aad ct : Bytes) (tag : Vector UInt8 16) :
    aeadEncrypt poly key nonce p aad = (ct, tag) ↔
      poly (macData aad ct) (oneTimeKey key nonce) = tag ∧ p = encrypt key 1 nonce ct := by
  constructor
  · intro h
    obtain ⟨hct, htag⟩ := Prod.mk.inj h
    subst hct
    exact ⟨htag, (encrypt_encrypt key nonce 1 p).symm⟩
  · rintro ⟨htag, rfl⟩
    simp only [aeadEncrypt, encrypt_encrypt, htag]

/-- A failed `glo_aead_open` leaves its buffer alone, whatever the reason. -/
theorem gloAeadOpen_fail (callocOk : Bool) (buf ct aad : Bytes) (tag : Vector UInt8 16)
    (h : (gloAeadOpen poly callocOk buf ct tag aad key nonce).rc ≠ 0) :
    gloAeadOpen poly callocOk buf ct tag aad key nonce = { rc := -1, pt := buf } := by
  simp only [gloAeadOpen] at h ⊢
  split
  · rfl
  · rename_i expect hexp
    simp only [hexp] at h
    split_ifs at h ⊢ with hv
    · rfl
    · exact absurd rfl h

/-- **The AEAD is RFC 8439's and opening is the exact inverse of sealing.**  `buf` is what the
plaintext buffer holds before the call; a successful open writes its first `ct.length` bytes. -/
theorem gloAead_correct (aad : Bytes) :
    (∀ pt, gloAeadSeal poly true pt aad key nonce =
      { rc := 0
        ct := (aeadEncrypt poly key nonce pt aad).1
        tag := some (aeadEncrypt poly key nonce pt aad).2 }) ∧
    (∀ buf ct tag p,
      ((gloAeadOpen poly true buf ct tag aad key nonce).rc = 0 ∧
        (gloAeadOpen poly true buf ct tag aad key nonce).pt.take ct.length = p) ↔
      gloAeadSeal poly true p aad key nonce = { rc := 0, ct := ct, tag := some tag }) ∧
    (∀ buf ct tag, (gloAeadOpen poly true buf ct tag aad key nonce).rc = 0 →
      (gloAeadOpen poly true buf ct tag aad key nonce).pt.drop ct.length = buf.drop ct.length) ∧
    (∀ buf ct tag,
      (¬∃ p, gloAeadSeal poly true p aad key nonce = { rc := 0, ct := ct, tag := some tag }) →
      gloAeadOpen poly true buf ct tag aad key nonce = { rc := -1, pt := buf }) := by
  have hseal (p ct : Bytes) (tag : Vector UInt8 16) :
      gloAeadSeal poly true p aad key nonce = { rc := 0, ct := ct, tag := some tag } ↔
        poly (macData aad ct) (oneTimeKey key nonce) = tag ∧ p = encrypt key 1 nonce ct := by
    rw [gloAeadSeal_eq, ← aeadEncrypt_eq_iff]
    simp [Prod.ext_iff]
  refine ⟨fun pt => gloAeadSeal_eq poly key nonce pt aad, ?_, ?_, ?_⟩
  · intro buf ct tag p
    rw [hseal, gloAeadOpen_eq]
    split_ifs with htag
    · simp [overwrite, htag, eq_comm]
    · simp [htag]
  · intro buf ct tag h
    rw [gloAeadOpen_eq] at h ⊢
    split_ifs at h ⊢ with htag
    · simp [overwrite]
    · simp at h
  · intro buf ct tag h
    have htag : poly (macData aad ct) (oneTimeKey key nonce) ≠ tag := by
      intro htag
      exact h ⟨encrypt key 1 nonce ct, (hseal _ ct tag).mpr ⟨htag, rfl⟩⟩
    rw [gloAeadOpen_eq, if_neg htag]

end

end Glossh.Mtls
