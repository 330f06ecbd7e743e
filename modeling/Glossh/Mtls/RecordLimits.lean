/-
# The record size limits

RFC 8446 §5.2, which `glo_record.c` names as what it implements, allows `2 ^ 14` bytes of content,
one byte more for the inner plaintext and `2 ^ 14 + 256` for the length field.  The cut-offs of
the code are others: `glo_record_seal` rejects what its two-byte length field cannot express, and
`glo_record_open` rejects nothing for its length.

So the limits are kept exactly where nothing longer goes through for another reason.  What goes
through is stated first (`gloRecordSeal_returns_zero_iff`, `gloRecordOpen_returns_zero_iff`), the
residue after it.
-/
import Glossh.Mtls.Record

namespace Glossh.Mtls

open Bytes Rfc8439 Rfc8446

section

variable (poly : Poly1305) (key : Vector UInt8 32) (iv : Vector UInt8 12) (seq : UInt64)

/-! ## 1. What is sealed -/

/-- Without the block for the inner plaintext nothing is sealed. -/
theorem gloRecordSeal_of_malloc_fails (callocOk : Bool) (content : Bytes) (contentType : UInt8) :
    gloRecordSeal poly none callocOk content contentType key iv seq =
      some { rc := -1, written := [], outlen := none } := by
  simp only [gloRecordSeal, malloc_none]
  split <;> rfl

/-- Without the buffer of `poly_tag` the seal fails. -/
theorem gloRecordSeal_of_calloc_fails (inner : Alloc) {content : Bytes} {contentType : UInt8}
    {r : RecordSealed}
    (h : gloRecordSeal poly inner false content contentType key iv seq = some r) : r.rc ≠ 0 := by
  have hfail : (-1 : Int) ≠ 0 := by decide
  simp only [gloRecordSeal, gloAeadSeal_of_calloc_fails] at h
  split at h
  · cases h
    exact hfail
  · split at h
    · cases h
      exact hfail
    · split at h
      · cases h
        exact hfail
      · cases h

/-- **What `glo_record_seal` accepts**: all that its length field can express. -/
theorem gloRecordSeal_returns_zero_iff (inner : Alloc) (callocOk : Bool) (content : Bytes)
    (contentType : UInt8) :
    (∃ r, gloRecordSeal poly inner callocOk content contentType key iv seq = some r ∧ r.rc = 0) ↔
      inner.isSome ∧ callocOk = true ∧ content.length + 17 ≤ 0xffff := by
  constructor
  · rintro ⟨r, hr, h0⟩
    have hfit := (gloRecordSeal_ok poly key iv seq hr h0).1
    cases inner with
    | none =>
      rw [gloRecordSeal_of_malloc_fails] at hr
      cases hr
      exact absurd h0 (by decide)
    | some g =>
      cases callocOk with
      | false => exact absurd h0 (gloRecordSeal_of_calloc_fails poly key iv seq (some g) hr)
      | true => exact ⟨rfl, rfl, hfit⟩
  · rintro ⟨hinner, rfl, hfit⟩
    obtain ⟨g, rfl⟩ := Option.isSome_iff_exists.mp hinner
    exact ⟨_, gloRecordSeal_allocated poly key iv seq g content contentType hfit, rfl⟩

/-- The length field of a sealed record. -/
theorem lengthField_sealedBytes (content : Bytes) (contentType : UInt8)
    (hfit : content.length + 17 ≤ 0xffff) :
    lengthField (sealedBytes poly key iv seq content contentType) = content.length + 17 := by
  obtain ⟨hlen, hframed, -, -⟩ := sealedBytes_opens poly key iv seq content contentType hfit
  rw [lengthField_of_framed hframed, hlen]
  omega

/-! ## 2. What is opened -/

/-- Without its allocations `glo_record_open` accepts nothing. -/
theorem gloRecordOpen_of_alloc_fails {inner : Alloc} {callocOk : Bool} {old out : RecordOutputs}
    {record : Bytes}
    (h : gloRecordOpen poly inner callocOk old record key iv seq = some (0, out)) :
    inner.isSome ∧ callocOk = true := by
  by_cases hframed : Framed record
  · rw [gloRecordOpen_framed poly key iv seq inner callocOk old hframed] at h
    split at h
    · cases h
    · rename_i m hm
      have hinner : inner.isSome := by
        cases inner with
        | none =>
          rw [malloc_none] at hm
          cases hm
        | some g => rfl
      cases callocOk with
      | false =>
        have hrc : (gloAeadOpen poly false m (ciphertext record) (toVector 16 (tagBytes record))
            (record.take 5) key (recordNonce iv seq.toNat)).rc ≠ 0 := by
          have hfail : (-1 : Int) ≠ 0 := by decide
          exact hfail
        simp only [if_pos hrc] at h
        cases h
      | true => exact ⟨hinner, rfl⟩
  · rw [gloRecordOpen_unframed poly key iv seq inner callocOk old hframed] at h
    cases h

/-- **What `glo_record_open` accepts.** -/
theorem gloRecordOpen_returns_zero_iff (inner : Alloc) (callocOk : Bool) (old : RecordOutputs)
    (record : Bytes) :
    (∃ out, gloRecordOpen poly inner callocOk old record key iv seq = some (0, out)) ↔
      inner.isSome ∧ callocOk = true ∧ Framed record ∧ TagVerifies poly key iv seq record ∧
        ∃ b ∈ innerText key iv seq record, b ≠ 0 := by
  constructor
  · rintro ⟨out, hout⟩
    obtain ⟨hinner, rfl⟩ := gloRecordOpen_of_alloc_fails poly key iv seq hout
    obtain ⟨g, rfl⟩ := Option.isSome_iff_exists.mp hinner
    rcases gloRecordOpen_cases poly key iv seq g old record with
      ⟨hreject, -⟩ | ⟨p, hframed, htag, hp, -⟩
    · rw [hreject] at hout
      cases hout
    · exact ⟨rfl, rfl, hframed, htag, (InnerPlaintext.exists_encode_iff _).mp ⟨p, hp.symm⟩⟩
  · rintro ⟨hinner, rfl, hgood⟩
    obtain ⟨g, rfl⟩ := Option.isSome_iff_exists.mp hinner
    rcases gloRecordOpen_cases poly key iv seq g old record with ⟨-, hbad⟩ | ⟨p, -, -, -, haccept⟩
    · exact absurd hgood hbad
    · exact ⟨_, haccept⟩

/-! ## 3. The limits -/

/-- `glo_record_seal` keeps the limits: what it seals is at most a fragment, and the length field
it emits is allowed. -/
def SealKeepsLimits (inner : Alloc) (callocOk : Bool) (content : Bytes) (contentType : UInt8) :
    Prop :=
  ∀ r, gloRecordSeal poly inner callocOk content contentType key iv seq = some r → r.rc = 0 →
    content.length ≤ maxFragment ∧ lengthField r.written ≤ maxCiphertext

/-- `glo_record_open` keeps the limits: the length field of what it opens is allowed, and so is
the length of the inner plaintext. -/
def OpenKeepsLimits (inner : Alloc) (callocOk : Bool) (old : RecordOutputs) (record : Bytes) :
    Prop :=
  ∀ out, gloRecordOpen poly inner callocOk old record key iv seq = some (0, out) →
    lengthField record ≤ maxCiphertext ∧
      (innerText key iv seq record).length ≤ maxInnerPlaintext

/-- **The limits are kept exactly where nothing longer goes through.**  Sealing breaks them on
every content between `2 ^ 14` and the end of the two-byte length field, opening on every genuine
record whose inner plaintext is longer than `2 ^ 14 + 1`. -/
theorem record_keeps_limits_iff (inner : Alloc) (callocOk : Bool) (content : Bytes)
    (contentType : UInt8) (old : RecordOutputs) (record : Bytes) :
    (SealKeepsLimits poly key iv seq inner callocOk content contentType ↔
      ¬(2 ^ 14 < content.length ∧ content.length ≤ 65518 ∧ inner.isSome ∧ callocOk = true)) ∧
    (OpenKeepsLimits poly key iv seq inner callocOk old record ↔
      ¬(2 ^ 14 + 22 < record.length ∧ inner.isSome ∧ callocOk = true ∧ Framed record ∧
        TagVerifies poly key iv seq record ∧ ∃ b ∈ innerText key iv seq record, b ≠ 0)) := by
  constructor
  · constructor
    · rintro h ⟨hlong, hfit, hinner, hcalloc⟩
      obtain ⟨r, hr, h0⟩ := (gloRecordSeal_returns_zero_iff poly key iv seq inner callocOk content
        contentType).mpr ⟨hinner, hcalloc, by omega⟩
      have hle := (h r hr h0).1
      rw [maxFragment] at hle
      omega
    · intro h r hr h0
      obtain ⟨hinner, hcalloc, hfit⟩ := (gloRecordSeal_returns_zero_iff poly key iv seq inner
        callocOk content contentType).mp ⟨r, hr, h0⟩
      have hle : content.length ≤ 2 ^ 14 := by
        by_contra hlong
        exact h ⟨by omega, by omega, hinner, hcalloc⟩
      obtain ⟨-, rfl⟩ := gloRecordSeal_ok poly key iv seq hr h0
      refine ⟨hle, ?_⟩
      rw [lengthField_sealedBytes poly key iv seq content contentType hfit, maxCiphertext]
      omega
  · have hlength := length_innerText key iv seq record
    constructor
    · rintro h ⟨hlong, hgood⟩
      obtain ⟨out, hout⟩ :=
        (gloRecordOpen_returns_zero_iff poly key iv seq inner callocOk old record).mpr hgood
      have hle := (h out hout).2
      rw [hlength, maxInnerPlaintext] at hle
      omega
    · intro h out hout
      have hgood :=
        (gloRecordOpen_returns_zero_iff poly key iv seq inner callocOk old record).mp ⟨out, hout⟩
      have hle : record.length ≤ 2 ^ 14 + 22 := by
        by_contra hlong
        exact h ⟨by omega, hgood⟩
      rw [lengthField_of_framed hgood.2.2.1, hlength, maxCiphertext, maxInnerPlaintext]
      omega

end

/-- A content of one byte over the limit is sealed, and the record is opened. -/
theorem record_breaks_limits :
    ¬((SealKeepsLimits (fun _ _ => Vector.replicate 16 0) (Vector.replicate 32 1)
          (Vector.replicate 12 2) 5 (some fun _ => 0) true (List.replicate 16385 97) 23) ∧
      (OpenKeepsLimits (fun _ _ => Vector.replicate 16 0) (Vector.replicate 32 1)
          (Vector.replicate 12 2) 5 (some fun _ => 0) true ⟨[], 0, 0⟩
          (sealedBytes (fun _ _ => Vector.replicate 16 0) (Vector.replicate 32 1)
            (Vector.replicate 12 2) 5 (List.replicate 16385 97) 23))) := by
  rintro ⟨hseal, -⟩
  have hlen : (List.replicate 16385 (97 : UInt8)).length = 16385 := List.length_replicate
  have hle := (hseal _ (gloRecordSeal_allocated _ _ _ 5 (fun _ => 0) (List.replicate 16385 97) 23
    (by rw [hlen]; decide)) rfl).1
  rw [hlen, maxFragment] at hle
  omega

end Glossh.Mtls
