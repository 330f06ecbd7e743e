/-
# `glo_record.c`: the TLS 1.3 record layer

The functions of `glo_record.c` as the code computes them.  `glo_record_seal` works with a
32-bit `size_t`, so its sums wrap; `glo_record_open` reads the record it is given through
bounds-checked reads.  Both have the value `none` where the code would leave an object it was
given or has allocated, and part of every result below is that this value does not occur.

* `gloRecordOpen_grammar`: what `glo_record_open` accepts is exactly the protected record of
  RFC 8446 with a good tag and an inner plaintext, and it returns that plaintext;
* `gloRecordOpen_fail`: a rejected record leaves the outputs alone;
* `gloRecordSeal_ok`: what `glo_record_seal` writes when it returns 0.
-/
import Glossh.Mtls.Aead
import Glossh.Lib.Rfc8446Record

namespace Glossh.Mtls

open Bytes Rfc8439 Rfc8446

/-! ## 1. The functions of the file -/

/-- The `size_t` of the chip. -/
def sizeT (n : ℕ) : ℕ := n % 2 ^ 32

/-- One turn of the loop of `build_nonce`. -/
def nonceStep (seq : UInt64) (nonce : Vector UInt8 12) (i : ℕ) : Vector UInt8 12 :=
  nonce.set (11 - i) (nonce[11 - i] ^^^ (seq >>> UInt64.ofNat (8 * i)).toUInt8)

/-- `build_nonce`. -/
def buildNonce (iv : Vector UInt8 12) (seq : UInt64) : Vector UInt8 12 :=
  (List.range 8).foldl (nonceStep seq) iv

/-- What a call of `glo_record_seal` returns and writes: the bytes from `out` on, and `*outlen`
when it is assigned. -/
structure RecordSealed where
  rc : Int
  written : Bytes
  outlen : Option ℕ
deriving DecidableEq

/-- `glo_record_seal`.  The allocations are those of `inner` and of `poly_tag`. -/
def gloRecordSeal (poly : Poly1305) (inner : Alloc) (callocOk : Bool) (content : Bytes)
    (contentType : UInt8) (key : Vector UInt8 32) (iv : Vector UInt8 12) (seq : UInt64) :
    Option RecordSealed :=
  let contentlen := content.length
  let innerlen := sizeT (contentlen + 1)
  let length := sizeT (innerlen + 16)
  if length > 0xffff then some { rc := -1, written := [], outlen := none }
  else
    match malloc inner innerlen with
    | none => some { rc := -1, written := [], outlen := none }
    | some inner =>
      -- the copy of the content and the type byte behind it
      if contentlen < inner.length then
        let inner := overwrite (overwrite inner 0 content) contentlen [contentType]
        let hdr : Bytes :=
          [0x17, 0x03, 0x03, UInt8.ofNat (length >>> 8), UInt8.ofNat (length &&& 0xff)]
        let nonce := buildNonce iv seq
        let r := gloAeadSeal poly callocOk inner hdr key nonce
        match r.tag with
        | none => some { rc := r.rc, written := hdr ++ r.ct, outlen := none }
        | some tag =>
          some { rc := 0, written := hdr ++ r.ct ++ tag.toList, outlen := some (5 + length) }
      else none

/-- The three outputs of `glo_record_open`. -/
structure RecordOutputs where
  content : Bytes
  contentlen : ℕ
  contentType : UInt8
deriving DecidableEq

/-- The loop `while (n > 0 && inner[n - 1] == 0) n--;`. -/
def stripLoop (inner : Bytes) : ℕ → ℕ
  | 0 => 0
  | n + 1 => if inner.getD n 0 = 0 then stripLoop inner n else n + 1

/-- `glo_record_open` on outputs that hold `old` before the call. -/
def gloRecordOpen (poly : Poly1305) (inner : Alloc) (callocOk : Bool) (old : RecordOutputs)
    (record : Bytes) (key : Vector UInt8 32) (iv : Vector UInt8 12) (seq : UInt64) :
    Option (Int × RecordOutputs) :=
  let recordlen := record.length
  if recordlen < 5 + 16 then some (-1, old)
  else do
    let b0 ← record[0]?
    if b0 ≠ 0x17 then some (-1, old)
    else
      let b3 ← record[3]?
      let b4 ← record[4]?
      let length := (b3.toNat <<< 8) ||| b4.toNat
      if length + 5 ≠ recordlen then some (-1, old)
      else if length < 16 then some (-1, old)
      else
        let innerlen := length - 16
        match malloc inner (if innerlen ≠ 0 then innerlen else 1) with
        | none => some (-1, old)
        | some inner =>
          let nonce := buildNonce iv seq
          let hdr ← slice? record 0 5
          let ct ← slice? record 5 innerlen
          let tag ← slice? record (5 + innerlen) 16
          let r := gloAeadOpen poly callocOk inner ct (toVector 16 tag) hdr key nonce
          if r.rc ≠ 0 then some (-1, old)
          else
            let n := stripLoop r.pt innerlen
            if n = 0 then some (-1, old)
            else
              some (0,
                { content := overwrite old.content 0 (r.pt.take (n - 1))
                  contentlen := n - 1
                  contentType := r.pt.getD (n - 1) 0 })

/-! ## 2. The nonce -/

/-- A shift and a cast select one byte of the sequence number. -/
theorem shiftRight_toUInt8 (seq : UInt64) {i : ℕ} (h : i < 8) :
    (seq >>> UInt64.ofNat (8 * i)).toUInt8 = UInt8.ofNat (seq.toNat / 256 ^ i) := by
  have hamount : (UInt64.ofNat (8 * i)).toNat % 64 = 8 * i := by
    rw [UInt64.toNat_ofNat', Nat.mod_eq_of_lt (by omega : 8 * i < 2 ^ 64),
      Nat.mod_eq_of_lt (by omega)]
  have hpow : 2 ^ (8 * i) = 256 ^ i := pow_mul 2 8 i
  apply UInt8.toNat_inj.mp
  rw [UInt64.toNat_toUInt8, UInt64.toNat_shiftRight, hamount, Nat.shiftRight_eq_div_pow, hpow,
    UInt8.toNat_ofNat']

/-- After `k` turns the last `k` bytes of the nonce are masked. -/
theorem getElem_foldl_nonceStep (iv : Vector UInt8 12) (seq : UInt64) {k j : ℕ} (hk : k ≤ 8)
    (hj : j < 12) :
    ((List.range k).foldl (nonceStep seq) iv)[j] =
      if 11 - j < k then iv[j] ^^^ UInt8.ofNat (seq.toNat / 256 ^ (11 - j)) else iv[j] := by
  induction k with
  | zero => simp
  | succ k ih =>
    have hk' : k < 8 := by omega
    rw [List.range_succ, List.foldl_append, List.foldl_cons, List.foldl_nil, nonceStep,
      Vector.getElem_set, shiftRight_toUInt8 seq hk']
    by_cases hjk : 11 - k = j
    · subst hjk
      have h1 : 11 - (11 - k) = k := by omega
      rw [if_pos rfl, ih (by omega), h1, if_neg (by omega), if_pos (by omega)]
    · have hiff : 11 - j < k + 1 ↔ 11 - j < k := by omega
      rw [if_neg hjk, ih (by omega)]
      simp only [hiff]

/-- `build_nonce` is the nonce of RFC 8446 §5.3. -/
theorem buildNonce_eq (iv : Vector UInt8 12) (seq : UInt64) :
    buildNonce iv seq = recordNonce iv seq.toNat := by
  refine Vector.ext fun j hj => ?_
  have hlen : j < (paddedSeq seq.toNat).length := by rwa [length_paddedSeq]
  have hget : (paddedSeq seq.toNat).getD j 0 = (paddedSeq seq.toNat)[j] :=
    List.getD_eq_getElem _ 0 hlen
  rw [buildNonce, getElem_foldl_nonceStep iv seq (le_refl 8) hj]
  simp only [recordNonce, Vector.getElem_ofFn, hget, getElem_paddedSeq]
  by_cases hj4 : j < 4
  · rw [if_neg (by omega), if_pos hj4, UInt8.xor_zero]
    rfl
  · rw [if_pos (by omega), if_neg hj4]
    rfl

/-! ## 3. Stripping the padding -/

theorem stripLoop_le (inner : Bytes) (n : ℕ) : stripLoop inner n ≤ n := by
  induction n with
  | zero => exact le_refl 0
  | succ n ih =>
    rw [stripLoop]
    split
    · omega
    · exact le_refl _

/-- The loop reads below its start only. -/
theorem stripLoop_append (l t : Bytes) {n : ℕ} (h : n ≤ l.length) :
    stripLoop (l ++ t) n = stripLoop l n := by
  induction n with
  | zero => rfl
  | succ n ih =>
    have hget : (l ++ t).getD n 0 = l.getD n 0 := List.getD_append l t 0 n h
    rw [stripLoop, stripLoop, hget, ih (by omega)]

/-- On zeros the loop runs down to 0. -/
theorem stripLoop_zeros {l : Bytes} (h : ∀ b ∈ l, b = 0) (n : ℕ) : stripLoop l n = 0 := by
  induction n with
  | zero => rfl
  | succ n ih =>
    have hget : l.getD n 0 = 0 := by
      rcases Nat.lt_or_ge n l.length with hn | hn
      · rw [List.getD_eq_getElem _ _ hn]
        exact h _ (List.getElem_mem hn)
      · exact List.getD_eq_default _ _ hn
    rw [stripLoop, if_pos hget, ih]

/-- **The loop finds the type byte of an inner plaintext.**  The induction is on the zeros it has
still to pass. -/
theorem stripLoop_encode (p : InnerPlaintext) :
    stripLoop p.encode p.encode.length = p.content.length + 1 := by
  have htype : p.encode.getD p.content.length 0 = p.type := by
    simp [InnerPlaintext.encode, List.getD_eq_getElem?_getD]
  have hpad (k : ℕ) : p.encode.getD (p.content.length + 1 + k) 0 = 0 := by
    have hge : (p.content ++ [p.type]).length ≤ p.content.length + 1 + k := by simp
    rw [InnerPlaintext.encode, List.getD_append_right _ _ _ _ hge]
    simp [List.getD_eq_getElem?_getD, List.getElem?_replicate]
    split <;> rfl
  have hrun (k : ℕ) : stripLoop p.encode (p.content.length + 1 + k) = p.content.length + 1 := by
    induction k with
    | zero => rw [Nat.add_zero, stripLoop, htype, if_neg p.type_ne]
    | succ k ih => rw [← Nat.add_assoc, stripLoop, if_pos (hpad k), ih]
  rw [InnerPlaintext.length_encode]
  exact hrun p.zeros

/-! ## 4. Opening a record -/

/-- The length field as the code reads it. -/
theorem shiftLeft_or_eq_ofBe (b3 b4 : UInt8) : (b3.toNat <<< 8) ||| b4.toNat = ofBe [b3, b4] := by
  have h4 : b4.toNat < 2 ^ 8 := b4.toNat_lt
  rw [Nat.or_comm, or_shiftLeft_eq_add h4]
  simp [ofBe, ofLe, Nat.mul_comm]

theorem ofBe_two_lt (b3 b4 : UInt8) : ofBe [b3, b4] < 2 ^ 16 := by
  have h3 : b3.toNat < 2 ^ 8 := b3.toNat_lt
  have h4 : b4.toNat < 2 ^ 8 := b4.toNat_lt
  simp only [ofBe, ofLe, List.reverse_cons, List.reverse_nil, List.nil_append, List.cons_append]
  omega

/-- A string of at least five bytes begins with five bytes. -/
theorem exists_cons_five {l : Bytes} (h : 5 ≤ l.length) :
    ∃ b0 b1 b2 b3 b4 rest, l = b0 :: b1 :: b2 :: b3 :: b4 :: rest := by
  match l, h with
  | b0 :: b1 :: b2 :: b3 :: b4 :: rest, _ => exact ⟨b0, b1, b2, b3, b4, rest, rfl⟩

section

variable (poly : Poly1305) (key : Vector UInt8 32) (iv : Vector UInt8 12) (seq : UInt64)

/-- A record without the outer form is rejected before anything is allocated. -/
theorem gloRecordOpen_unframed (inner : Alloc) (callocOk : Bool) (old : RecordOutputs)
    {record : Bytes} (h : ¬Framed record) :
    gloRecordOpen poly inner callocOk old record key iv seq = some (-1, old) := by
  by_cases hlen : record.length < 21
  · simp only [gloRecordOpen]
    rw [if_pos hlen]
  · obtain ⟨b0, b1, b2, b3, b4, rest, rfl⟩ := exists_cons_five (by omega : 5 ≤ record.length)
    have hfield : b0 = 0x17 → ofBe [b3, b4] + 5 ≠ (b0 :: b1 :: b2 :: b3 :: b4 :: rest).length := by
      intro h0 hf
      exact h ⟨by omega, h0, Nat.eq_sub_of_add_eq hf⟩
    simp only [gloRecordOpen, List.getElem?_cons_zero, List.getElem?_cons_succ,
      Option.bind_eq_bind, Option.bind_some, shiftLeft_or_eq_ofBe]
    rw [if_neg hlen]
    by_cases h0 : b0 = 0x17
    · rw [if_neg (not_not.mpr h0), if_pos (hfield h0)]
    · rw [if_pos h0]

/-- **What `glo_record_open` does with a record that has the outer form**: every read stays
inside the record, and the parts are those of the RFC. -/
theorem gloRecordOpen_framed (inner : Alloc) (callocOk : Bool) (old : RecordOutputs)
    {record : Bytes} (h : Framed record) :
    gloRecordOpen poly inner callocOk old record key iv seq =
      match malloc inner (if record.length - 21 ≠ 0 then record.length - 21 else 1) with
      | none => some (-1, old)
      | some m =>
        let r := gloAeadOpen poly callocOk m (ciphertext record) (toVector 16 (tagBytes record))
          (record.take 5) key (recordNonce iv seq.toNat)
        if r.rc ≠ 0 then some (-1, old)
        else
          let n := stripLoop r.pt (record.length - 21)
          if n = 0 then some (-1, old)
          else
            some (0,
              { content := overwrite old.content 0 (r.pt.take (n - 1))
                contentlen := n - 1
                contentType := r.pt.getD (n - 1) 0 }) := by
  obtain ⟨hlen, htype, hfield⟩ := h
  obtain ⟨b0, b1, b2, b3, b4, rest, rfl⟩ := exists_cons_five (by omega : 5 ≤ record.length)
  have h0 : b0 = 0x17 := htype
  have hlength : ofBe [b3, b4] + 5 = (b0 :: b1 :: b2 :: b3 :: b4 :: rest).length := by
    have hfield' : ofBe [b3, b4] = (b0 :: b1 :: b2 :: b3 :: b4 :: rest).length - 5 := hfield
    omega
  have hinnerlen : ofBe [b3, b4] - 16 = (b0 :: b1 :: b2 :: b3 :: b4 :: rest).length - 21 := by
    omega
  generalize hrec : b0 :: b1 :: b2 :: b3 :: b4 :: rest = record at *
  have e0 : record[0]? = some b0 := by rw [← hrec]; rfl
  have e3 : record[3]? = some b3 := by rw [← hrec]; rfl
  have e4 : record[4]? = some b4 := by rw [← hrec]; rfl
  have ehdr : slice? record 0 5 = some (record.take 5) := by
    rw [slice?_of_le (by omega), List.drop_zero]
  have ect : slice? record 5 (record.length - 21) = some (ciphertext record) :=
    slice?_of_le (by omega)
  have etag : slice? record (5 + (record.length - 21)) 16 = some (tagBytes record) := by
    have hoff : 5 + (record.length - 21) = record.length - 16 := by omega
    rw [slice?_of_le (by omega), hoff, List.take_of_length_le]
    · rfl
    · rw [List.length_drop]
      omega
  simp only [gloRecordOpen, e0, e3, e4, Option.bind_eq_bind, Option.bind_some,
    shiftLeft_or_eq_ofBe]
  rw [if_neg (by omega), if_neg (not_not.mpr h0), if_neg (not_not.mpr hlength),
    if_neg (by omega), hinnerlen]
  simp only [ehdr, ect, etag, Option.bind_some, buildNonce_eq]

/-- The inner text of a record: its ciphertext under the keystream of the record's nonce. -/
def innerText (record : Bytes) : Bytes :=
  encrypt key 1 (recordNonce iv seq.toNat) (ciphertext record)

/-- The tag of a record verifies over its header and its ciphertext. -/
def TagVerifies (record : Bytes) : Prop :=
  poly (macData (record.take 5) (ciphertext record))
    (oneTimeKey key (recordNonce iv seq.toNat)) = toVector 16 (tagBytes record)

theorem length_innerText (record : Bytes) :
    (innerText key iv seq record).length = record.length - 21 := by
  rw [innerText, length_encrypt, length_ciphertext]

/-- The length field has two bytes. -/
theorem length_lt_of_framed {record : Bytes} (h : Framed record) : record.length < 2 ^ 17 := by
  obtain ⟨b0, b1, b2, b3, b4, rest, rfl⟩ :=
    exists_cons_five (le_trans (by omega : 5 ≤ 21) h.length_le)
  have hfield : ofBe [b3, b4] = (b0 :: b1 :: b2 :: b3 :: b4 :: rest).length - 5 := h.length_eq
  have hlt := ofBe_two_lt b3 b4
  omega

/-- With its allocations made, `glo_record_open` checks the tag and strips the inner text. -/
theorem gloRecordOpen_framed_allocated (g : ℕ → UInt8) (old : RecordOutputs) {record : Bytes}
    (h : Framed record) [Decidable (TagVerifies poly key iv seq record)] :
    gloRecordOpen poly (some g) true old record key iv seq =
      if TagVerifies poly key iv seq record then
        let inner := innerText key iv seq record
        let n := stripLoop inner inner.length
        if n = 0 then some (-1, old)
        else
          some (0,
            { content := overwrite old.content 0 (inner.take (n - 1))
              contentlen := n - 1
              contentType := inner.getD (n - 1) 0 })
      else some (-1, old) := by
  have hlt := length_lt_of_framed h
  have hlen := length_innerText key iv seq record
  rw [gloRecordOpen_framed poly key iv seq (some g) true old h, malloc_some g (by split <;> omega)]
  generalize (List.range (if record.length - 21 ≠ 0 then record.length - 21 else 1)).map g = block
  have hopen := gloAeadOpen_eq poly key (recordNonce iv seq.toNat) block (ciphertext record)
    (record.take 5) (toVector 16 (tagBytes record))
  by_cases htag : TagVerifies poly key iv seq record
  · rw [if_pos htag]
    unfold TagVerifies at htag
    rw [if_pos htag] at hopen
    simp only [hopen, ne_eq, not_true_eq_false, if_false]
    have hpt : overwrite block 0 (encrypt key 1 (recordNonce iv seq.toNat) (ciphertext record)) =
        innerText key iv seq record ++ block.drop (innerText key iv seq record).length := by
      simp [overwrite, innerText]
    generalize innerText key iv seq record = inner at hlen hpt
    have hstrip : stripLoop (inner ++ block.drop inner.length) (record.length - 21) =
        stripLoop inner inner.length := by
      rw [← hlen]
      exact stripLoop_append _ _ (le_refl _)
    have hle := stripLoop_le inner inner.length
    simp only [hpt, hstrip]
    by_cases hn : stripLoop inner inner.length = 0
    · rw [if_pos hn, if_pos hn]
    · rw [if_neg hn, if_neg hn, List.take_append_of_le_length (by omega),
        List.getD_append _ _ _ _ (by omega)]
  · rw [if_neg htag]
    unfold TagVerifies at htag
    rw [if_neg htag] at hopen
    simp only [hopen, ne_eq, reduceCtorEq, not_false_eq_true, if_true]

/-- A record that protects an inner plaintext is opened to it. -/
theorem gloRecordOpen_accepts (g : ℕ → UInt8) (old : RecordOutputs) {record : Bytes}
    (h : Framed record) (htag : TagVerifies poly key iv seq record) {p : InnerPlaintext}
    (hp : innerText key iv seq record = p.encode) :
    gloRecordOpen poly (some g) true old record key iv seq =
      some (0,
        { content := overwrite old.content 0 p.content
          contentlen := p.content.length
          contentType := p.type }) := by
  classical
  have htake : p.encode.take p.content.length = p.content := by
    simp [InnerPlaintext.encode]
  have hget : p.encode.getD p.content.length 0 = p.type := by
    simp [InnerPlaintext.encode, List.getD_eq_getElem?_getD]
  rw [gloRecordOpen_framed_allocated poly key iv seq g old h, if_pos htag]
  simp only [hp, stripLoop_encode]
  rw [if_neg (Nat.succ_ne_zero _), Nat.add_sub_cancel, htake, hget]

/-- Everything else is rejected with the outputs left alone. -/
theorem gloRecordOpen_rejects (g : ℕ → UInt8) (old : RecordOutputs) {record : Bytes}
    (h : ¬(Framed record ∧ TagVerifies poly key iv seq record ∧
      ∃ b ∈ innerText key iv seq record, b ≠ 0)) :
    gloRecordOpen poly (some g) true old record key iv seq = some (-1, old) := by
  classical
  by_cases hframed : Framed record
  · rw [gloRecordOpen_framed_allocated poly key iv seq g old hframed]
    by_cases htag : TagVerifies poly key iv seq record
    · have hzeros : ∀ b ∈ innerText key iv seq record, b = 0 := by
        intro b hb
        by_contra hne
        exact h ⟨hframed, htag, b, hb, hne⟩
      rw [if_pos htag]
      simp only [stripLoop_zeros hzeros, if_true]
    · rw [if_neg htag]
  · exact gloRecordOpen_unframed poly key iv seq (some g) true old hframed

/-- The two ends of a call with its allocations made. -/
theorem gloRecordOpen_cases (g : ℕ → UInt8) (old : RecordOutputs) (record : Bytes) :
    (gloRecordOpen poly (some g) true old record key iv seq = some (-1, old) ∧
      ¬(Framed record ∧ TagVerifies poly key iv seq record ∧
        ∃ b ∈ innerText key iv seq record, b ≠ 0)) ∨
    ∃ p : InnerPlaintext, Framed record ∧ TagVerifies poly key iv seq record ∧
      innerText key iv seq record = p.encode ∧
      gloRecordOpen poly (some g) true old record key iv seq =
        some (0,
          { content := overwrite old.content 0 p.content
            contentlen := p.content.length
            contentType := p.type }) := by
  by_cases h : Framed record ∧ TagVerifies poly key iv seq record ∧
      ∃ b ∈ innerText key iv seq record, b ≠ 0
  · obtain ⟨hframed, htag, hne⟩ := h
    obtain ⟨p, hp⟩ := (InnerPlaintext.exists_encode_iff _).mpr hne
    exact Or.inr ⟨p, hframed, htag, hp.symm,
      gloRecordOpen_accepts poly key iv seq g old hframed htag hp.symm⟩
  · exact Or.inl ⟨gloRecordOpen_rejects poly key iv seq g old h, h⟩

/-- **A rejected record leaves the outputs alone**, whatever the allocations did; and no read
leaves the record. -/
theorem gloRecordOpen_fail (inner : Alloc) (callocOk : Bool) (old : RecordOutputs)
    (record : Bytes) :
    ∃ rc out, gloRecordOpen poly inner callocOk old record key iv seq = some (rc, out) ∧
      (rc = 0 ∨ rc = -1 ∧ out = old) := by
  by_cases hframed : Framed record
  · rw [gloRecordOpen_framed poly key iv seq inner callocOk old hframed]
    split
    · exact ⟨-1, old, rfl, Or.inr ⟨rfl, rfl⟩⟩
    · simp only
      split
      · exact ⟨-1, old, rfl, Or.inr ⟨rfl, rfl⟩⟩
      · split
        · exact ⟨-1, old, rfl, Or.inr ⟨rfl, rfl⟩⟩
        · exact ⟨0, _, rfl, Or.inl rfl⟩
  · rw [gloRecordOpen_unframed poly key iv seq inner callocOk old hframed]
    exact ⟨-1, old, rfl, Or.inr ⟨rfl, rfl⟩⟩

/-- **`glo_record_open` accepts exactly the protected records.**  A record is opened exactly when
it has the outer form, its tag verifies and its inner text is not all zeros; what is returned is
the one inner plaintext that text encodes, whatever padding it carries. -/
theorem gloRecordOpen_grammar (old : RecordOutputs) (record : Bytes) :
    (∀ inner callocOk, ∃ rc out,
      gloRecordOpen poly inner callocOk old record key iv seq = some (rc, out) ∧
        (rc = 0 ∨ rc = -1 ∧ out = old)) ∧
    ∀ g : ℕ → UInt8,
      ((∃ out, gloRecordOpen poly (some g) true old record key iv seq = some (0, out)) ↔
        Framed record ∧ TagVerifies poly key iv seq record ∧
          ∃ b ∈ innerText key iv seq record, b ≠ 0) ∧
      ∀ out, gloRecordOpen poly (some g) true old record key iv seq = some (0, out) →
        ∃! p : InnerPlaintext, p.encode = innerText key iv seq record ∧
          out = { content := overwrite old.content 0 p.content
                  contentlen := p.content.length
                  contentType := p.type } := by
  refine ⟨fun inner callocOk => gloRecordOpen_fail poly key iv seq inner callocOk old record, ?_⟩
  intro g
  rcases gloRecordOpen_cases poly key iv seq g old record with
    ⟨hreject, hbad⟩ | ⟨p, hframed, htag, hp, haccept⟩
  · have hnone : ∀ out, gloRecordOpen poly (some g) true old record key iv seq ≠ some (0, out) := by
      intro out ho
      rw [hreject] at ho
      cases ho
    refine ⟨⟨?_, fun h => absurd h hbad⟩, fun out ho => absurd ho (hnone out)⟩
    rintro ⟨out, ho⟩
    exact absurd ho (hnone out)
  · have hgood : Framed record ∧ TagVerifies poly key iv seq record ∧
        ∃ b ∈ innerText key iv seq record, b ≠ 0 :=
      ⟨hframed, htag, (InnerPlaintext.exists_encode_iff _).mp ⟨p, hp.symm⟩⟩
    refine ⟨⟨fun _ => hgood, fun _ => ⟨_, haccept⟩⟩, ?_⟩
    intro out ho
    rw [haccept] at ho
    refine ⟨p, ⟨hp.symm, ?_⟩, ?_⟩
    · cases ho
      rfl
    · rintro q ⟨hq, -⟩
      exact InnerPlaintext.encode_injective (hq.trans hp)

/-! ## 5. Sealing a record -/

/-- The five header bytes as the code stores them. -/
theorem header_eq (length : ℕ) :
    [0x17, 0x03, 0x03, UInt8.ofNat (length >>> 8), UInt8.ofNat (length &&& 0xff)] =
      header length := by
  rw [header, ← shift_mask_eq_beBytes]
  rfl

/-- The bytes of a sealed record. -/
def sealedBytes (content : Bytes) (contentType : UInt8) : Bytes :=
  let hdr := header (content.length + 17)
  let r := aeadEncrypt poly key (recordNonce iv seq.toNat) (content ++ [contentType]) hdr
  hdr ++ r.1 ++ r.2.toList

/-- A content and the type byte fill the block that was allocated for them. -/
theorem overwrite_content {m content : Bytes} (contentType : UInt8)
    (h : m.length = content.length + 1) :
    overwrite (overwrite m 0 content) content.length [contentType] = content ++ [contentType] := by
  have hdrop : m.drop (content.length + 1) = [] := List.drop_eq_nil_of_le (by omega)
  have hone : (m.drop content.length).length = 1 := by
    rw [List.length_drop]
    omega
  obtain ⟨b, hb⟩ := List.length_eq_one_iff.mp hone
  simp [overwrite, hb]

/-- **What `glo_record_seal` writes when it returns 0.**  The sums can wrap only where the copy
of the content would leave `inner`, or the allocation fails. -/
theorem gloRecordSeal_ok {inner : Alloc} {callocOk : Bool} {content : Bytes} {contentType : UInt8}
    {r : RecordSealed}
    (h : gloRecordSeal poly inner callocOk content contentType key iv seq = some r)
    (h0 : r.rc = 0) :
    content.length + 17 ≤ 0xffff ∧
      r = { rc := 0
            written := sealedBytes poly key iv seq content contentType
            outlen := some (content.length + 22) } := by
  simp only [gloRecordSeal] at h
  split at h
  · cases h
    exact absurd h0 (by decide)
  · rename_i hlength
    split at h
    · cases h
      exact absurd h0 (by decide)
    · rename_i m hm
      have hmlen := length_malloc hm
      have hmlt := malloc_lt hm
      split at h
      · rename_i hfits
        simp only [sizeT] at hlength hmlen hmlt
        have hinner : (content.length + 1) % 2 ^ 32 = content.length + 1 := by omega
        have hlen : sizeT (sizeT (content.length + 1) + 16) = content.length + 17 := by
          simp only [sizeT]
          omega
        rw [hlen, overwrite_content contentType (hmlen.trans hinner), header_eq, buildNonce_eq] at h
        cases callocOk with
        | false =>
          rw [gloAeadSeal_of_calloc_fails] at h
          cases h
          simp at h0
        | true =>
          rw [gloAeadSeal_eq] at h
          refine ⟨by omega, (Option.some.inj h).symm.trans ?_⟩
          have hsum : 5 + (content.length + 17) = content.length + 22 := by omega
          simp only [sealedBytes, hsum]
      · cases h

/-- A content that fits is sealed when the allocations succeed. -/
theorem gloRecordSeal_allocated (g : ℕ → UInt8) (content : Bytes) (contentType : UInt8)
    (hfit : content.length + 17 ≤ 0xffff) :
    gloRecordSeal poly (some g) true content contentType key iv seq =
      some { rc := 0
             written := sealedBytes poly key iv seq content contentType
             outlen := some (content.length + 22) } := by
  have hone : sizeT (content.length + 1) = content.length + 1 := by
    simp only [sizeT]
    omega
  have hlen : sizeT (content.length + 1 + 16) = content.length + 17 := by
    simp only [sizeT]
    omega
  have hsome : (gloRecordSeal poly (some g) true content contentType key iv seq).isSome ∧
      ∀ r ∈ gloRecordSeal poly (some g) true content contentType key iv seq, r.rc = 0 := by
    simp only [gloRecordSeal, hone, hlen, gloAeadSeal_eq]
    rw [if_neg (by omega), malloc_some g (by omega)]
    simp
  obtain ⟨r, hr⟩ := Option.isSome_iff_exists.mp hsome.1
  rw [hr, (gloRecordSeal_ok poly key iv seq hr (hsome.2 r hr)).2]

/-- A sealed record has the outer form, its tag verifies, and its inner text is the content with
the type behind it. -/
theorem sealedBytes_opens (content : Bytes) (contentType : UInt8)
    (hfit : content.length + 17 ≤ 0xffff) :
    (sealedBytes poly key iv seq content contentType).length = content.length + 22 ∧
      Framed (sealedBytes poly key iv seq content contentType) ∧
      TagVerifies poly key iv seq (sealedBytes poly key iv seq content contentType) ∧
      innerText key iv seq (sealedBytes poly key iv seq content contentType) =
        content ++ [contentType] := by
  have hhdr := length_header (content.length + 17)
  obtain ⟨htake, hct, htag⟩ := parts_append
    (encrypt key 1 (recordNonce iv seq.toNat) (content ++ [contentType]))
    (aeadEncrypt poly key (recordNonce iv seq.toNat) (content ++ [contentType])
      (header (content.length + 17))).2 hhdr
  have hlen : (sealedBytes poly key iv seq content contentType).length = content.length + 22 := by
    simp [sealedBytes, aeadEncrypt, hhdr]
    omega
  refine ⟨hlen, ⟨by omega, rfl, ?_⟩, ?_, ?_⟩
  · have hfield : ((sealedBytes poly key iv seq content contentType).drop 3).take 2 =
        beBytes 2 (content.length + 17) := rfl
    rw [hfield, ofBe_beBytes, hlen]
    omega
  · unfold TagVerifies sealedBytes
    simp only [aeadEncrypt] at htake hct htag ⊢
    rw [htake, hct, htag, toVector_toList]
  · unfold innerText sealedBytes
    simp only [aeadEncrypt] at hct ⊢
    rw [hct, encrypt_encrypt]

/-- **A sealed record is opened to its content and content type, except type 0**, which is the
padding byte: a record sealed with it is never opened to what was sealed. -/
theorem gloRecord_roundTrip {content : Bytes} {contentType : UInt8} {inner : Alloc}
    {callocOk : Bool} {r : RecordSealed}
    (h : gloRecordSeal poly inner callocOk content contentType key iv seq = some r)
    (h0 : r.rc = 0) (g : ℕ → UInt8) (old : RecordOutputs) :
    ∃ outlen, r.outlen = some outlen ∧
      (gloRecordOpen poly (some g) true old (r.written.take outlen) key iv seq =
        some (0,
          { content := overwrite old.content 0 content
            contentlen := content.length
            contentType := contentType }) ↔ contentType ≠ 0) := by
  obtain ⟨hfit, rfl⟩ := gloRecordSeal_ok poly key iv seq h h0
  obtain ⟨hlen, hframed, htag, htext⟩ := sealedBytes_opens poly key iv seq content contentType hfit
  refine ⟨content.length + 22, rfl, ?_⟩
  simp only [List.take_of_length_le (le_of_eq hlen)]
  constructor
  · intro hopen hzero
    rcases gloRecordOpen_cases poly key iv seq g old
        (sealedBytes poly key iv seq content contentType) with ⟨hreject, -⟩ | ⟨p, -, -, -, haccept⟩
    · rw [hreject] at hopen
      cases hopen
    · rw [haccept] at hopen
      have hout := (Prod.mk.inj (Option.some.inj hopen)).2
      exact p.type_ne ((congrArg RecordOutputs.contentType hout).trans hzero)
  · intro hne
    have hp : content ++ [contentType] =
        (⟨content, contentType, 0, hne⟩ : InnerPlaintext).encode := by
      simp [InnerPlaintext.encode]
    exact gloRecordOpen_accepts poly key iv seq g old hframed htag (htext.trans hp)

end

/-- A content that ends in a zero, sealed as application data, comes back. -/
theorem gloRecord_roundTrip_appData :
    let poly : Poly1305 := fun _ _ => Vector.replicate 16 0
    let key := Vector.replicate 32 1
    let iv := Vector.replicate 12 2
    ∃ r outlen, gloRecordSeal poly (some fun _ => 0) true [1, 0] 23 key iv 5 = some r ∧ r.rc = 0 ∧
      r.outlen = some outlen ∧
      gloRecordOpen poly (some fun _ => 0) true ⟨[], 0, 0⟩ (r.written.take outlen) key iv 5 =
        some (0, ⟨[1, 0], 2, 23⟩) := by
  intro poly key iv
  have hseal := gloRecordSeal_allocated poly key iv 5 (fun _ => 0) [1, 0] 23 (by decide)
  obtain ⟨outlen, hout, hopen⟩ :=
    gloRecord_roundTrip poly key iv 5 hseal rfl (fun _ => 0) ⟨[], 0, 0⟩
  exact ⟨_, outlen, hseal, rfl, hout, hopen.mpr (by decide)⟩

/-- An empty content sealed with content type 0 is rejected: all of its inner plaintext is
padding. -/
theorem gloRecord_roundTrip_typeZero :
    let poly : Poly1305 := fun _ _ => Vector.replicate 16 0
    let key := Vector.replicate 32 1
    let iv := Vector.replicate 12 2
    ∃ r outlen, gloRecordSeal poly (some fun _ => 0) true [] 0 key iv 5 = some r ∧ r.rc = 0 ∧
      r.outlen = some outlen ∧
      gloRecordOpen poly (some fun _ => 0) true ⟨[], 0, 0⟩ (r.written.take outlen) key iv 5 =
        some (-1, ⟨[], 0, 0⟩) := by
  intro poly key iv
  have hseal := gloRecordSeal_allocated poly key iv 5 (fun _ => 0) [] 0 (by decide)
  obtain ⟨hlen, -, -, htext⟩ :=
    sealedBytes_opens poly key iv 5 [] 0 (by decide)
  have htake : (sealedBytes poly key iv 5 [] 0).take 22 = sealedBytes poly key iv 5 [] 0 :=
    List.take_of_length_le (le_of_eq hlen)
  refine ⟨_, 22, hseal, rfl, rfl, ?_⟩
  simp only [htake]
  refine gloRecordOpen_rejects poly key iv 5 (fun _ => 0) ⟨[], 0, 0⟩ ?_
  rintro ⟨-, -, b, hb, hne⟩
  rw [htext] at hb
  exact hne (List.mem_singleton.mp hb)

end Glossh.Mtls
