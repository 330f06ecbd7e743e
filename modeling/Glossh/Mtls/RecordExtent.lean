/-
# Where `glo_record_seal` writes

Every store of a call, by the object it goes to and the offset there: into the block `inner`, into
the buffer `m` of `poly_tag`, and behind `out`, where the header, the ciphertext and the tag
follow one another.  Sizes are of a 32-bit `size_t`, so `contentlen + 1` and `contentlen + 17` may
wrap, and the allocations may succeed for any size.  `gloRecordSeal_eq_log` connects the log with
`gloRecordSeal`.

What the caller was told is `contentlen + GLO_RECORD_OVERHEAD` bytes, and the constant is one
less than header, type byte and tag together.  So every call that runs to its end writes one byte
too many, and the room is respected by the calls that fail (`gloRecordSealLog_inside_iff`).
-/
import Glossh.Mtls.Record

namespace Glossh.Mtls

open Bytes Rfc8439 Rfc8446

/-! ## 1. The stores -/

/-- `GLO_RECORD_OVERHEAD`. -/
def gloRecordOverhead : ℕ := 21

/-- The objects that are written. -/
inductive SealTarget where
  | inner
  | m
  | out
deriving DecidableEq

/-- Some bytes stored from an offset of an object on. -/
structure SealStore where
  target : SealTarget
  off : ℕ
  bytes : Bytes
deriving DecidableEq

/-- A call: what it returns, its stores in order, the sizes of the blocks it allocated, and
`*outlen` when it is assigned. -/
structure SealLog where
  rc : Int
  stores : List SealStore
  innerSize : ℕ
  mSize : ℕ
  outlen : Option ℕ

/-- The size `mlen` of the buffer `m`. -/
def polyTagSize (aad ct : Bytes) : ℕ :=
  let apad := (16 - (aad.length &&& 15)) &&& 15
  let cpad := (16 - (ct.length &&& 15)) &&& 15
  sizeT (aad.length + apad + ct.length + cpad + 16)

/-- What `poly_tag` stores into `m`. -/
def polyTagStores (aad ct : Bytes) : List SealStore :=
  let apad := (16 - (aad.length &&& 15)) &&& 15
  let cpad := (16 - (ct.length &&& 15)) &&& 15
  let o := 0
  let s := if aad.length ≠ 0 then [⟨.m, o, aad⟩] else []
  let o := sizeT (o + (aad.length + apad))
  let s := s ++ if ct.length ≠ 0 then [⟨.m, o, ct⟩] else []
  let o := sizeT (o + (ct.length + cpad))
  s ++ [⟨.m, o, store64Le (UInt64.ofNat aad.length)⟩,
    ⟨.m, o + 8, store64Le (UInt64.ofNat ct.length)⟩]

/-- `glo_record_seal`, store by store.  `innerOk` and `callocOk` say whether the two allocations
succeed. -/
def gloRecordSealLog (poly : Poly1305) (innerOk callocOk : Bool) (content : Bytes)
    (contentType : UInt8) (key : Vector UInt8 32) (iv : Vector UInt8 12) (seq : UInt64) : SealLog :=
  let contentlen := content.length
  let innerlen := sizeT (contentlen + 1)
  let length := sizeT (innerlen + 16)
  if length > 0xffff then { rc := -1, stores := [], innerSize := 0, mSize := 0, outlen := none }
  else if innerOk = false then
    { rc := -1, stores := [], innerSize := 0, mSize := 0, outlen := none }
  else
    let copied : List SealStore := [⟨.inner, 0, content⟩, ⟨.inner, contentlen, [contentType]⟩]
    let inner := (content ++ [contentType]).take innerlen
    let hdr : Bytes :=
      [0x17, 0x03, 0x03, UInt8.ofNat (length >>> 8), UInt8.ofNat (length &&& 0xff)]
    let nonce := buildNonce iv seq
    let r := gloAeadSeal poly callocOk inner hdr key nonce
    let sealing := copied ++ [⟨.out, 0, hdr⟩, ⟨.out, 5, r.ct⟩]
    match r.tag with
    | none =>
      { rc := r.rc, stores := sealing, innerSize := innerlen, mSize := 0, outlen := none }
    | some tag =>
      { rc := 0
        stores := sealing ++ polyTagStores hdr r.ct ++ [⟨.out, 5 + innerlen, tag.toList⟩]
        innerSize := innerlen
        mSize := polyTagSize hdr r.ct
        outlen := some (sizeT (5 + length)) }

namespace SealLog

/-- The stores behind `out`. -/
def outStores (log : SealLog) : List SealStore := log.stores.filter (·.target = .out)

/-- The bytes behind `out`: the stores there follow one another. -/
def written (log : SealLog) : Bytes := log.outStores.flatMap (·.bytes)

/-- How far behind `out` the call wrote. -/
def extent (log : SealLog) : ℕ :=
  log.outStores.foldr (fun s n => max (s.off + s.bytes.length) n) 0

/-- The room in each object; behind `out`, what the header promises for the content. -/
def room (log : SealLog) (contentlen : ℕ) : SealTarget → ℕ
  | .inner => log.innerSize
  | .m => log.mSize
  | .out => contentlen + gloRecordOverhead

end SealLog

/-- **What the caller was told**: every store has its room; on success `*outlen` is the extent and
five more than the length field, on failure it is not assigned. -/
structure SealsInside (log : SealLog) (contentlen : ℕ) : Prop where
  inside : ∀ s ∈ log.stores, s.off + s.bytes.length ≤ log.room contentlen s.target
  outlen_of_ok : log.rc = 0 →
    log.outlen = some log.extent ∧ log.outlen = some (5 + lengthField log.written)
  outlen_of_fail : log.rc ≠ 0 → log.outlen = none

/-! ## 2. The log is the call -/

section

variable (poly : Poly1305) (key : Vector UInt8 32) (iv : Vector UInt8 12) (seq : UInt64)

/-- The log of a call that fails before it writes. -/
theorem gloRecordSealLog_rejected {innerOk : Bool} (callocOk : Bool) {content : Bytes}
    (contentType : UInt8)
    (h : 0xffff < sizeT (sizeT (content.length + 1) + 16) ∨ innerOk = false) :
    gloRecordSealLog poly innerOk callocOk content contentType key iv seq =
      { rc := -1, stores := [], innerSize := 0, mSize := 0, outlen := none } := by
  simp only [gloRecordSealLog]
  by_cases hguard : 0xffff < sizeT (sizeT (content.length + 1) + 16)
  · rw [if_pos hguard]
  · rw [if_neg hguard, if_pos (h.resolve_left hguard)]

/-- The inner plaintext that is sealed, the header in front of it, and the result. -/
def sealedInner (content : Bytes) (contentType : UInt8) : Bytes :=
  (content ++ [contentType]).take (sizeT (content.length + 1))

/-- The stores that every call makes that allocates its block. -/
def sealingStores (content : Bytes) (contentType : UInt8) : List SealStore :=
  let innerlen := sizeT (content.length + 1)
  [⟨.inner, 0, content⟩, ⟨.inner, content.length, [contentType]⟩,
    ⟨.out, 0, header (sizeT (innerlen + 16))⟩,
    ⟨.out, 5, encrypt key 1 (recordNonce iv seq.toNat) (sealedInner content contentType)⟩]

/-- The log of a call whose buffer for the tag cannot be allocated. -/
theorem gloRecordSealLog_unsealed {content : Bytes} (contentType : UInt8)
    (hguard : ¬0xffff < sizeT (sizeT (content.length + 1) + 16)) :
    gloRecordSealLog poly true false content contentType key iv seq =
      { rc := -1
        stores := sealingStores key iv seq content contentType
        innerSize := sizeT (content.length + 1)
        mSize := 0
        outlen := none } := by
  simp only [gloRecordSealLog, header_eq, buildNonce_eq, gloAeadSeal_of_calloc_fails]
  rw [if_neg hguard]
  rfl

/-- The log of a call that runs to its end. -/
theorem gloRecordSealLog_sealed {content : Bytes} (contentType : UInt8)
    (hguard : ¬0xffff < sizeT (sizeT (content.length + 1) + 16)) :
    gloRecordSealLog poly true true content contentType key iv seq =
      let innerlen := sizeT (content.length + 1)
      let hdr := header (sizeT (innerlen + 16))
      let r := aeadEncrypt poly key (recordNonce iv seq.toNat) (sealedInner content contentType) hdr
      { rc := 0
        stores := sealingStores key iv seq content contentType ++ polyTagStores hdr r.1 ++
          [⟨.out, 5 + innerlen, r.2.toList⟩]
        innerSize := innerlen
        mSize := polyTagSize hdr r.1
        outlen := some (sizeT (5 + sizeT (innerlen + 16))) } := by
  simp only [gloRecordSealLog, header_eq, buildNonce_eq, gloAeadSeal_eq]
  rw [if_neg hguard]
  rfl

/-- Nothing of what `poly_tag` stores goes behind `out`. -/
theorem filter_polyTagStores (aad ct : Bytes) :
    (polyTagStores aad ct).filter (·.target = .out) = [] := by
  refine List.filter_eq_nil_iff.mpr fun s hs => ?_
  simp only [polyTagStores, List.mem_append, List.mem_cons, List.not_mem_nil, or_false] at hs
  have htarget : s.target = .m := by
    rcases hs with (hs | hs) | rfl | rfl
    · split at hs
      · rw [List.mem_singleton.mp hs]
      · cases hs
    · split at hs
      · rw [List.mem_singleton.mp hs]
      · cases hs
    · rfl
    · rfl
  simp [htarget]

/-- What a call that runs to its end stores behind `out`. -/
theorem outStores_sealed {content : Bytes} (contentType : UInt8)
    (hguard : ¬0xffff < sizeT (sizeT (content.length + 1) + 16)) :
    (gloRecordSealLog poly true true content contentType key iv seq).outStores =
      let innerlen := sizeT (content.length + 1)
      let hdr := header (sizeT (innerlen + 16))
      let r := aeadEncrypt poly key (recordNonce iv seq.toNat) (sealedInner content contentType) hdr
      [⟨.out, 0, hdr⟩, ⟨.out, 5, r.1⟩, ⟨.out, 5 + innerlen, r.2.toList⟩] := by
  rw [gloRecordSealLog_sealed poly key iv seq contentType hguard]
  simp only [SealLog.outStores, List.filter_append, filter_polyTagStores, List.append_nil]
  rfl

/-- **The log is the call**: where `contentlen + 1` does not wrap, `glo_record_seal` returns and
assigns what the log says, and the bytes it writes are those stored behind `out`. -/
theorem gloRecordSeal_eq_log (inner : Alloc) (callocOk : Bool) {content : Bytes}
    (contentType : UInt8) (h : content.length + 1 < 2 ^ 32) :
    let log := gloRecordSealLog poly (malloc inner (content.length + 1)).isSome callocOk content
      contentType key iv seq
    gloRecordSeal poly inner callocOk content contentType key iv seq =
      some { rc := log.rc, written := log.written, outlen := log.outlen } := by
  have hlen : sizeT (content.length + 1) = content.length + 1 := Nat.mod_eq_of_lt h
  by_cases hguard : 0xffff < sizeT (sizeT (content.length + 1) + 16)
  · simp only [gloRecordSealLog_rejected poly key iv seq callocOk contentType (Or.inl hguard)]
    simp only [gloRecordSeal]
    rw [if_pos hguard]
    rfl
  · have hfull : sealedInner content contentType = content ++ [contentType] := by
      rw [sealedInner, hlen, List.take_of_length_le (by rw [List.length_append]; exact le_refl _)]
    cases hm : malloc inner (content.length + 1) with
    | none =>
      simp only [Option.isSome_none,
        gloRecordSealLog_rejected poly key iv seq callocOk contentType (Or.inr rfl)]
      simp only [gloRecordSeal]
      rw [if_neg hguard, hlen, hm]
      rfl
    | some m =>
      have hmlen := length_malloc hm
      have hcode : gloRecordSeal poly inner callocOk content contentType key iv seq =
          let hdr := header (sizeT (content.length + 1 + 16))
          let r := gloAeadSeal poly callocOk (content ++ [contentType]) hdr key
            (recordNonce iv seq.toNat)
          match r.tag with
          | none => some { rc := r.rc, written := hdr ++ r.ct, outlen := none }
          | some tag =>
            some { rc := 0, written := hdr ++ r.ct ++ tag.toList,
                   outlen := some (5 + sizeT (content.length + 1 + 16)) } := by
        have hroom : content.length < m.length := by omega
        rw [hlen] at hguard
        cases htag : (gloAeadSeal poly callocOk (content ++ [contentType])
          (header (sizeT (content.length + 1 + 16))) key (recordNonce iv seq.toNat)).tag with
        | none =>
          simp only [gloRecordSeal, header_eq, buildNonce_eq, hlen, if_neg hguard, hm,
            if_pos hroom, overwrite_content contentType hmlen, htag]
        | some tag =>
          simp only [gloRecordSeal, header_eq, buildNonce_eq, hlen, if_neg hguard, hm,
            if_pos hroom, overwrite_content contentType hmlen, htag]
      rw [hcode]
      simp only [Option.isSome_some]
      cases callocOk with
      | false =>
        rw [gloRecordSealLog_unsealed poly key iv seq contentType hguard,
          gloAeadSeal_of_calloc_fails]
        simp [SealLog.written, SealLog.outStores, sealingStores, hfull, hlen]
      | true =>
        have hsum : sizeT (5 + sizeT (content.length + 1 + 16)) =
            5 + sizeT (content.length + 1 + 16) := by
          rw [hlen] at hguard
          exact Nat.mod_eq_of_lt (by omega)
        rw [SealLog.written, outStores_sealed poly key iv seq contentType hguard,
          gloRecordSealLog_sealed poly key iv seq contentType hguard, gloAeadSeal_eq]
        simp [hfull, hlen, hsum]

/-! ## 3. The room is respected by the calls that fail -/

/-- A call that runs to its end stores one byte behind the room. -/
theorem not_inside_of_sealed {content : Bytes} (contentType : UInt8)
    (h : content.length + 1 < 2 ^ 32)
    (hguard : ¬0xffff < sizeT (sizeT (content.length + 1) + 16)) :
    ¬SealsInside (gloRecordSealLog poly true true content contentType key iv seq)
      content.length := by
  intro hins
  have hlen : sizeT (content.length + 1) = content.length + 1 := Nat.mod_eq_of_lt h
  have hinside := hins.inside
  rw [gloRecordSealLog_sealed poly key iv seq contentType hguard] at hinside
  have htag := hinside _ (List.mem_append_right _ (List.mem_singleton_self _))
  simp only [SealLog.room, gloRecordOverhead, hlen, Vector.length_toList] at htag
  omega

/-- The length field of what begins with a header. -/
theorem lengthField_header (length : ℕ) (rest : Bytes) :
    lengthField (header length ++ rest) = length % 256 ^ 2 := by
  have hbytes : ((header length ++ rest).drop 3).take 2 = beBytes 2 length := rfl
  rw [lengthField, hbytes, ofBe_beBytes]

/-- The rest of the contract is kept where the sums do not wrap: `*outlen` is the extent, five more
than the length field, and one more than the room. -/
theorem outlen_of_sealed {content : Bytes} (contentType : UInt8)
    (hfit : content.length + 17 ≤ 0xffff) :
    let log := gloRecordSealLog poly true true content contentType key iv seq
    log.outlen = some log.extent ∧ log.outlen = some (5 + lengthField log.written) ∧
      log.extent = content.length + gloRecordOverhead + 1 := by
  have hlen : sizeT (content.length + 1) = content.length + 1 := Nat.mod_eq_of_lt (by omega)
  have hlen17 : sizeT (content.length + 1 + 16) = content.length + 17 := Nat.mod_eq_of_lt (by omega)
  have hlen22 : sizeT (5 + (content.length + 17)) = content.length + 22 := by
    simp only [sizeT]
    omega
  have hguard : ¬0xffff < sizeT (sizeT (content.length + 1) + 16) := by
    rw [hlen, hlen17]
    omega
  have hfull : sealedInner content contentType = content ++ [contentType] := by
    rw [sealedInner, hlen, List.take_of_length_le (by rw [List.length_append]; exact le_refl _)]
  have houts := outStores_sealed poly key iv seq contentType hguard
  simp only [hlen, hlen17, hfull] at houts
  have hextent : (gloRecordSealLog poly true true content contentType key iv seq).extent =
      content.length + 22 := by
    rw [SealLog.extent, houts]
    simp only [aeadEncrypt, List.foldr_cons, List.foldr_nil, length_header, length_encrypt,
      List.length_append, List.length_singleton, Vector.length_toList]
    omega
  have hfield :
      lengthField (gloRecordSealLog poly true true content contentType key iv seq).written =
        content.length + 17 := by
    rw [SealLog.written, houts, List.flatMap_cons, lengthField_header]
    exact Nat.mod_eq_of_lt (by omega)
  have houtlen : (gloRecordSealLog poly true true content contentType key iv seq).outlen =
      some (content.length + 22) := by
    rw [gloRecordSealLog_sealed poly key iv seq contentType hguard]
    simp only [hlen, hlen17, hlen22]
  have hsum : content.length + 22 = 5 + (content.length + 17) := by omega
  simp only [houtlen, hextent, hfield, hsum, gloRecordOverhead, true_and]

/-- Where `contentlen + 1` wraps, the block has no byte and the content is copied into it. -/
theorem not_inside_of_wrap (callocOk : Bool) {content : Bytes} (contentType : UInt8)
    (h : content.length + 1 = 2 ^ 32) :
    ¬SealsInside (gloRecordSealLog poly true callocOk content contentType key iv seq)
      content.length := by
  intro hins
  have hlen : sizeT (content.length + 1) = 0 := by
    rw [h]
    exact Nat.mod_self _
  have hguard : ¬0xffff < sizeT (sizeT (content.length + 1) + 16) := by
    rw [hlen]
    decide
  have hinside := hins.inside
  cases callocOk with
  | false =>
    rw [gloRecordSealLog_unsealed poly key iv seq contentType hguard] at hinside
    have hcopy := hinside _ List.mem_cons_self
    simp only [SealLog.room, hlen] at hcopy
    omega
  | true =>
    rw [gloRecordSealLog_sealed poly key iv seq contentType hguard] at hinside
    have hcopy := hinside _
      (List.mem_append_left _ (List.mem_append_left _ List.mem_cons_self))
    simp only [SealLog.room, hlen] at hcopy
    omega

/-- A call that fails after it wrote the ciphertext stays inside the room. -/
theorem inside_of_unsealed {content : Bytes} (contentType : UInt8)
    (h : content.length + 1 < 2 ^ 32)
    (hguard : ¬0xffff < sizeT (sizeT (content.length + 1) + 16)) :
    SealsInside (gloRecordSealLog poly true false content contentType key iv seq)
      content.length := by
  have hlen : sizeT (content.length + 1) = content.length + 1 := Nat.mod_eq_of_lt h
  have hfull : sealedInner content contentType = content ++ [contentType] := by
    rw [sealedInner, hlen, List.take_of_length_le (by rw [List.length_append]; exact le_refl _)]
  rw [gloRecordSealLog_unsealed poly key iv seq contentType hguard]
  refine ⟨?_, fun h0 => absurd h0 (by decide : (-1 : Int) ≠ 0), fun _ => rfl⟩
  intro s hs
  simp only [sealingStores, hlen, hfull, List.mem_cons, List.not_mem_nil, or_false] at hs
  rcases hs with rfl | rfl | rfl | rfl
  · simp only [SealLog.room, hlen]
    omega
  · simp only [SealLog.room, hlen, List.length_singleton]
    omega
  · simp only [SealLog.room, gloRecordOverhead, length_header]
    omega
  · simp only [SealLog.room, gloRecordOverhead, length_encrypt, List.length_append,
      List.length_singleton]
    omega

/-- **Only calls that fail respect the room**: those the length guard rejects, those without the
block, and those without the buffer of `poly_tag`, unless `contentlen + 1` wrapped. -/
theorem gloRecordSealLog_inside_iff (innerOk callocOk : Bool) {content : Bytes}
    (contentType : UInt8) (h : content.length < 2 ^ 32) :
    SealsInside (gloRecordSealLog poly innerOk callocOk content contentType key iv seq)
        content.length ↔
      0xffff < (content.length + 17) % 2 ^ 32 ∨ innerOk = false ∨
        callocOk = false ∧ content.length ≠ 2 ^ 32 - 1 := by
  have hsum : sizeT (sizeT (content.length + 1) + 16) = (content.length + 17) % 2 ^ 32 := by
    simp only [sizeT]
    omega
  rw [← hsum]
  by_cases hrejected : 0xffff < sizeT (sizeT (content.length + 1) + 16) ∨ innerOk = false
  · have hempty := gloRecordSealLog_rejected poly key iv seq callocOk contentType hrejected
    constructor
    · intro _
      exact hrejected.imp_right Or.inl
    · intro _
      rw [hempty]
      exact ⟨fun s hs => absurd hs List.not_mem_nil,
        fun h0 => absurd h0 (by decide : (-1 : Int) ≠ 0), fun _ => rfl⟩
  · obtain ⟨hguard, hinner⟩ := not_or.mp hrejected
    have hinner' : innerOk = true := by simpa using hinner
    subst hinner'
    by_cases hwrap : content.length + 1 = 2 ^ 32
    · constructor
      · intro hins
        exact absurd hins (not_inside_of_wrap poly key iv seq callocOk contentType hwrap)
      · rintro (hg | hi | ⟨-, hne⟩)
        · exact absurd hg hguard
        · cases hi
        · exact absurd (by omega) hne
    · have hlt : content.length + 1 < 2 ^ 32 := by omega
      cases callocOk with
      | false =>
        constructor
        · intro _
          exact Or.inr (Or.inr ⟨rfl, by omega⟩)
        · intro _
          exact inside_of_unsealed poly key iv seq contentType hlt hguard
      | true =>
        constructor
        · intro hins
          exact absurd hins (not_inside_of_sealed poly key iv seq contentType hlt hguard)
        · rintro (hg | hi | ⟨hc, -⟩)
          · exact absurd hg hguard
          · cases hi
          · cases hc

end

/-- Without memory for the tag a content of one byte is not sealed, and nothing is stored behind
the room. -/
theorem gloRecordSealLog_inside_unsealed :
    SealsInside (gloRecordSealLog (fun _ _ => Vector.replicate 16 0) true false [97] 23
        (Vector.replicate 32 1) (Vector.replicate 12 2) 5) 1 :=
  (gloRecordSealLog_inside_iff (fun _ _ => Vector.replicate 16 0) (Vector.replicate 32 1)
    (Vector.replicate 12 2) 5 true false 23 (by decide)).mpr
      (Or.inr (Or.inr ⟨rfl, by decide⟩))

/-- A content of one byte is sealed into 23 bytes; 22 were promised. -/
theorem gloRecordSealLog_overrun :
    ¬SealsInside (gloRecordSealLog (fun _ _ => Vector.replicate 16 0) true true [97] 23
        (Vector.replicate 32 1) (Vector.replicate 12 2) 5) 1 :=
  not_inside_of_sealed (fun _ _ => Vector.replicate 16 0) (Vector.replicate 32 1)
    (Vector.replicate 12 2) 5 23 (by decide) (by decide)

end Glossh.Mtls
