/-
# A failed seal in place

`glo_aead_seal` may be called with `ct` and `pt` the same buffer.  It masks the payload before
`poly_tag` asks for its buffer, so a call that fails for want of memory has masked it all the
same, and the next call masks what the one before left.

Sealing in place is sealing (`gloAeadSealInPlace_eq`).  `sealRetry` is a caller that tries again
until a call succeeds.  What such a caller gets depends on whether it failed an even or an odd
number of times (`sealRetry_replicate`, `sealRetry_odd`), and it is harmless only when no call
fails or the mask is zero.
-/
import Glossh.Mtls.Aead

namespace Glossh.Mtls

open Bytes Rfc8439

/-! ## 1. Sealing in place -/

/-- `glo_aead_seal(buf, tag, buf, len, ...)`: the field `ct` is the buffer after the call. -/
def gloAeadSealInPlace (poly : Poly1305) (callocOk : Bool) (buf aad : Bytes)
    (key : Vector UInt8 32) (nonce : Vector UInt8 12) : SealResult :=
  let otk := otkOf key nonce
  let ct := gloChacha20XorInPlace buf key nonce 1
  match polyTag poly callocOk otk aad ct with
  | some tag => { rc := 0, ct := ct, tag := some tag }
  | none => { rc := -1, ct := ct, tag := none }

/-- Calls in place on one buffer, until one succeeds: what each of them returned.  The list says
which allocations succeed. -/
def sealRetry (poly : Poly1305) (aad : Bytes) (key : Vector UInt8 32) (nonce : Vector UInt8 12) :
    List Bool → Bytes → List SealResult
  | [], _ => []
  | callocOk :: rest, buf =>
    let r := gloAeadSealInPlace poly callocOk buf aad key nonce
    if r.rc = 0 then [r] else r :: sealRetry poly aad key nonce rest r.ct

section

variable (poly : Poly1305) (aad : Bytes) (key : Vector UInt8 32) (nonce : Vector UInt8 12)

/-- Sealing in place is sealing. -/
theorem gloAeadSealInPlace_eq (callocOk : Bool) (buf : Bytes) :
    gloAeadSealInPlace poly callocOk buf aad key nonce =
      gloAeadSeal poly callocOk buf aad key nonce := by
  have hct := gloChacha20XorInPlace_eq buf key nonce 1
  cases htag : polyTag poly callocOk (otkOf key nonce) aad
    (gloChacha20Xor (some buf) buf.length key nonce 1) with
  | some tag => simp only [gloAeadSealInPlace, gloAeadSeal, hct, htag]
  | none => simp only [gloAeadSealInPlace, gloAeadSeal, hct, htag]

/-- A call that fails has masked the buffer. -/
theorem gloAeadSealInPlace_of_calloc_fails (buf : Bytes) :
    gloAeadSealInPlace poly false buf aad key nonce =
      { rc := -1, ct := encrypt key 1 nonce buf, tag := none } := by
  rw [gloAeadSealInPlace_eq, gloAeadSeal_of_calloc_fails]

theorem gloAeadSealInPlace_rc (callocOk : Bool) (buf : Bytes) :
    (gloAeadSealInPlace poly callocOk buf aad key nonce).rc = bif callocOk then 0 else -1 := by
  rw [gloAeadSealInPlace_eq]
  cases callocOk with
  | false => rw [gloAeadSeal_of_calloc_fails]; rfl
  | true => rw [gloAeadSeal_eq]; rfl

/-- A call whose allocation succeeds is the last one. -/
theorem sealRetry_succeeds (rest : List Bool) (buf : Bytes) :
    sealRetry poly aad key nonce (true :: rest) buf =
      [gloAeadSealInPlace poly true buf aad key nonce] := by
  have h0 : (gloAeadSealInPlace poly true buf aad key nonce).rc = 0 :=
    gloAeadSealInPlace_rc poly aad key nonce true buf
  rw [sealRetry, if_pos h0]

/-- A call that fails leaves the masked buffer to the next. -/
theorem sealRetry_fails (rest : List Bool) (buf : Bytes) :
    sealRetry poly aad key nonce (false :: rest) buf =
      { rc := -1, ct := encrypt key 1 nonce buf, tag := none } ::
        sealRetry poly aad key nonce rest (encrypt key 1 nonce buf) := by
  rw [sealRetry, gloAeadSealInPlace_of_calloc_fails]
  rfl

/-- **After an even number of failures the plaintext is sealed, after an odd number its mask is
sealed, and that is the plaintext itself.** -/
theorem sealRetry_replicate (k : ℕ) (rest : List Bool) (pt : Bytes) :
    sealRetry poly aad key nonce (List.replicate (2 * k) false ++ true :: rest) pt =
        (List.replicate k
          [{ rc := -1, ct := encrypt key 1 nonce pt, tag := none },
            { rc := -1, ct := pt, tag := none }]).flatten ++
          [gloAeadSealInPlace poly true pt aad key nonce] := by
  induction k with
  | zero => exact sealRetry_succeeds poly aad key nonce rest pt
  | succ k ih =>
    have htwo : List.replicate (2 * (k + 1)) false =
        false :: false :: List.replicate (2 * k) false := by
      rw [show 2 * (k + 1) = 2 * k + 1 + 1 by omega, List.replicate_succ, List.replicate_succ]
    rw [htwo, List.cons_append, List.cons_append, sealRetry_fails, sealRetry_fails,
      encrypt_encrypt, ih, List.replicate_succ, List.flatten_cons]
    rfl

/-- After an odd number of failures the plaintext goes out, under a tag that verifies over it. -/
theorem sealRetry_odd (k : ℕ) (rest : List Bool) (pt : Bytes) :
    (sealRetry poly aad key nonce (List.replicate (2 * k + 1) false ++ true :: rest) pt).getLast? =
      some { rc := 0, ct := pt, tag := some (poly (macData aad pt) (oneTimeKey key nonce)) } := by
  rw [List.replicate_succ, List.cons_append, sealRetry_fails, sealRetry_replicate,
    gloAeadSealInPlace_eq, gloAeadSeal_eq]
  simp only [aeadEncrypt, encrypt_encrypt]
  rw [← List.cons_append, List.getLast?_concat]

/-! ## 2. When failing is harmless -/

/-- What is asked of each call of a caller that tries again: one that fails leaves the plaintext
in the buffer, and one that succeeds yields what succeeding at once yields, the encryption of
the plaintext and its tag. -/
structure HarmlessCall (pt : Bytes) (r : SealResult) : Prop where
  kept : r.rc ≠ 0 → r.ct = pt
  same : r.rc = 0 → r = gloAeadSealInPlace poly true pt aad key nonce
  encrypted : r.rc = 0 → r.ct = encrypt key 1 nonce pt

/-- The payload keystream is zero as far as the text reaches. -/
theorem encrypt_eq_self_iff (pt : Bytes) :
    encrypt key 1 nonce pt = pt ↔ ∀ i < pt.length, keystream key 1 nonce i = 0 := by
  have hget (i : ℕ) (hi : i < pt.length) :
      (encrypt key 1 nonce pt)[i]? = some (pt[i] ^^^ keystream key 1 nonce i) := by
    rw [encrypt, xorWith, List.getElem?_mapIdx, List.getElem?_eq_getElem hi]
    rfl
  constructor
  · intro h i hi
    have hi' := hget i hi
    rw [h, List.getElem?_eq_getElem hi] at hi'
    have hxor : pt[i] ^^^ 0 = pt[i] ^^^ keystream key 1 nonce i := by
      rw [UInt8.xor_zero]
      exact Option.some.inj hi'
    exact ((UInt8.xor_right_inj pt[i]).mp hxor).symm
  · intro h
    refine List.ext_getElem? fun i => ?_
    by_cases hi : i < pt.length
    · rw [hget i hi, h i hi, UInt8.xor_zero, List.getElem?_eq_getElem hi]
    · rw [List.getElem?_eq_none (by rw [length_encrypt]; omega), List.getElem?_eq_none (by omega)]

/-- The call that succeeds at once is harmless. -/
theorem harmlessCall_once (pt : Bytes) :
    HarmlessCall poly aad key nonce pt (gloAeadSealInPlace poly true pt aad key nonce) := by
  refine ⟨fun h => absurd (gloAeadSealInPlace_rc poly aad key nonce true pt) h, fun _ => rfl, ?_⟩
  intro _
  rw [gloAeadSealInPlace_eq, gloAeadSeal_eq]
  rfl

/-- Where the mask is zero no call changes the buffer. -/
theorem sealRetry_of_zero_mask {pt : Bytes} (h : encrypt key 1 nonce pt = pt)
    (outcomes : List Bool) :
    ∀ r ∈ sealRetry poly aad key nonce outcomes pt, HarmlessCall poly aad key nonce pt r := by
  induction outcomes with
  | nil => intro r hr; cases hr
  | cons callocOk rest ih =>
    cases callocOk with
    | true =>
      intro r hr
      rw [sealRetry_succeeds, List.mem_singleton] at hr
      rw [hr]
      exact harmlessCall_once poly aad key nonce pt
    | false =>
      intro r hr
      rw [sealRetry_fails, h, List.mem_cons] at hr
      rcases hr with rfl | hr
      · have hfail : (-1 : Int) ≠ 0 := by decide
        exact ⟨fun _ => rfl, fun h0 => absurd h0 hfail, fun h0 => absurd h0 hfail⟩
      · exact ih r hr

/-- **Failing is harmless exactly when it does not happen or masks nothing.** -/
theorem sealRetry_harmless_iff (pt : Bytes) (outcomes : List Bool) :
    (∀ r ∈ sealRetry poly aad key nonce outcomes pt, HarmlessCall poly aad key nonce pt r) ↔
      outcomes.head? ≠ some false ∨ ∀ i < pt.length, keystream key 1 nonce i = 0 := by
  rw [← encrypt_eq_self_iff]
  constructor
  · intro h
    by_cases hfirst : outcomes.head? = some false
    · obtain ⟨rest, rfl⟩ := List.head?_eq_some_iff.mp hfirst
      rw [sealRetry_fails] at h
      have hfail : (-1 : Int) ≠ 0 := by decide
      exact Or.inr ((h _ List.mem_cons_self).kept hfail)
    · exact Or.inl hfirst
  · rintro (hfirst | hmask)
    · match outcomes, hfirst with
      | [], _ => intro r hr; cases hr
      | true :: rest, _ =>
        intro r hr
        rw [sealRetry_succeeds, List.mem_singleton] at hr
        rw [hr]
        exact harmlessCall_once poly aad key nonce pt
      | false :: rest, hfirst => exact absurd rfl hfirst
    · exact sealRetry_of_zero_mask poly aad key nonce hmask outcomes

end

/-- One failure on a buffer of one byte: it is masked though the call failed. -/
theorem sealRetry_harmful :
    ¬ ∀ r ∈ sealRetry (fun _ _ => Vector.replicate 16 0) [] (Vector.replicate 32 0)
        (Vector.replicate 12 0) [false, true] [112],
      HarmlessCall (fun _ _ => Vector.replicate 16 0) [] (Vector.replicate 32 0)
        (Vector.replicate 12 0) [112] r := by
  intro h
  rw [sealRetry_fails] at h
  have hkept := (h _ List.mem_cons_self).kept (by decide : (-1 : Int) ≠ 0)
  have hmask : (encrypt (Vector.replicate 32 0) 1 (Vector.replicate 12 0) [112]) ≠ [112] := by
    decide +kernel
  exact hmask hkept

end Glossh.Mtls
