/-
# Protected records as RFC 8446 defines them

RFC 8446 sections 5.2 and 5.3, in the RFC's words: the inner plaintext with its content type and
its zero padding, the record header, and the nonce of a record.

An `InnerPlaintext` cannot be built with content type 0.  That is what makes the padding
removable: the type is then the last byte that is not zero, so the encoding determines content,
type and the amount of padding (`encode_injective`), and a byte string encodes something exactly
when it has a byte that is not zero (`exists_encode_iff`).

The nonce is the iv masked by a number of fixed width, so under one iv it determines that number
(`recordNonce_inj`).
-/
import Glossh.Lib.Rfc8439
import Mathlib.Data.List.Induction

namespace Glossh
namespace Rfc8446

open Bytes Rfc8439

/-! ## 1. The inner plaintext -/

/-- §5.2: content, content type and a run of zeros.  Type 0 does not exist. -/
structure InnerPlaintext where
  content : Bytes
  type : UInt8
  zeros : ℕ
  type_ne : type ≠ 0

namespace InnerPlaintext

/-- The byte string of an inner plaintext. -/
def encode (p : InnerPlaintext) : Bytes := p.content ++ [p.type] ++ List.replicate p.zeros 0

@[simp] theorem length_encode (p : InnerPlaintext) :
    p.encode.length = p.content.length + 1 + p.zeros := by
  simp [encode]
  omega

/-- The zeros at the end of an encoding are its padding. -/
theorem takeWhile_reverse_encode (p : InnerPlaintext) :
    p.encode.reverse.takeWhile (· = 0) = List.replicate p.zeros 0 := by
  have hrev : p.encode.reverse =
      List.replicate p.zeros 0 ++ (p.type :: p.content.reverse) := by
    simp [encode]
  rw [hrev, List.takeWhile_append_of_pos]
  · simp [p.type_ne]
  · intro b hb
    simpa using List.eq_of_mem_replicate hb

/-- **An encoding determines what it encodes.** -/
theorem encode_injective : Function.Injective encode := by
  intro p q h
  have hz : p.zeros = q.zeros := by
    have hrun := congrArg (fun l : Bytes => (l.reverse.takeWhile (· = 0)).length) h
    simpa only [takeWhile_reverse_encode, List.length_replicate] using hrun
  have hcut : p.content ++ [p.type] = q.content ++ [q.type] := by
    have h' := h
    rw [encode, encode, hz] at h'
    exact List.append_cancel_right h'
  obtain ⟨hcontent, htype⟩ := List.append_inj' hcut rfl
  cases p
  cases q
  simp only [mk.injEq]
  exact ⟨hcontent, List.head_eq_of_cons_eq htype, hz⟩

/-- A byte string is an encoding exactly when it has a byte that is not zero. -/
theorem exists_encode_iff (l : Bytes) : (∃ p : InnerPlaintext, p.encode = l) ↔ ∃ b ∈ l, b ≠ 0 := by
  constructor
  · rintro ⟨p, rfl⟩
    exact ⟨p.type, by simp [encode], p.type_ne⟩
  · intro h
    induction l using List.reverseRecOn with
    | nil =>
      obtain ⟨b, hb, -⟩ := h
      cases hb
    | append_singleton l a ih =>
      by_cases ha : a = 0
      · -- a zero at the end is one more byte of padding
        have hl : ∃ b ∈ l, b ≠ 0 := by
          obtain ⟨b, hb, hne⟩ := h
          rcases List.mem_append.mp hb with hb | hb
          · exact ⟨b, hb, hne⟩
          · exact absurd ((List.mem_singleton.mp hb).trans ha) hne
        obtain ⟨p, rfl⟩ := ih hl
        refine ⟨{ p with zeros := p.zeros + 1 }, ?_⟩
        simp [encode, ha, List.replicate_succ']
      · exact ⟨⟨l, a, 0, ha⟩, by simp [encode]⟩

end InnerPlaintext

/-! ## 2. The header and the nonce -/

/-- §5.2: opaque type, legacy version and the length of the encrypted record. -/
def header (length : ℕ) : Bytes := [0x17, 0x03, 0x03] ++ beBytes 2 length

@[simp] theorem length_header (length : ℕ) : (header length).length = 5 := by
  simp [header]

/-- §5.3: the sequence number in network byte order, padded on the left to the length of the
iv. -/
def paddedSeq (seq : ℕ) : Bytes := List.replicate 4 0 ++ beBytes 8 seq

@[simp] theorem length_paddedSeq (seq : ℕ) : (paddedSeq seq).length = 12 := by
  simp [paddedSeq]

theorem getElem_paddedSeq (seq i : ℕ) (h : i < (paddedSeq seq).length) :
    (paddedSeq seq)[i] = if i < 4 then 0 else UInt8.ofNat (seq / 256 ^ (11 - i)) := by
  simp only [paddedSeq, List.getElem_append, List.length_replicate]
  split
  · exact List.getElem_replicate _
  · rename_i hi
    rw [getElem_beBytes]
    congr 3
    omega

/-- §5.3: the nonce of a record is the iv masked by the padded sequence number. -/
def recordNonce (iv : Vector UInt8 12) (seq : ℕ) : Vector UInt8 12 :=
  Vector.ofFn fun i => iv[i] ^^^ (paddedSeq seq).getD i.val 0

/-- The nonce as a byte string: iv and padded sequence number, byte by byte. -/
theorem toList_recordNonce (iv : Vector UInt8 12) (seq : ℕ) :
    (recordNonce iv seq).toList = List.zipWith (· ^^^ ·) iv.toList (paddedSeq seq) := by
  refine List.ext_getElem (by simp) ?_
  intro i h1 h2
  have hi : i < (paddedSeq seq).length := by
    rw [List.length_zipWith] at h2
    omega
  simp only [recordNonce, Vector.getElem_toList, Vector.getElem_ofFn, List.getElem_zipWith]
  rw [List.getD_eq_getElem _ 0 hi]
  rfl

/-- **Under one iv no two sequence numbers of 64 bits have the same nonce.** -/
theorem recordNonce_inj {iv : Vector UInt8 12} {m n : ℕ} (hm : m < 2 ^ 64) (hn : n < 2 ^ 64)
    (h : recordNonce iv m = recordNonce iv n) : m = n := by
  have hlen (seq : ℕ) : iv.toList.length = (paddedSeq seq).length := by
    rw [length_paddedSeq, Vector.length_toList]
  have hlist := congrArg Vector.toList h
  rw [toList_recordNonce, toList_recordNonce] at hlist
  have hpadded : paddedSeq m = paddedSeq n := zipWith_xor_cancel_left (hlen m) (hlen n) hlist
  have hpow : (256 : ℕ) ^ 8 = 2 ^ 64 := by decide
  exact beBytes_inj (hpow ▸ hm) (hpow ▸ hn) (List.append_cancel_left hpadded)

/-! ## 3. The parts of a record -/

/-- The ciphertext of a record: what stands between the header and the 16 bytes of the tag. -/
def ciphertext (record : Bytes) : Bytes := (record.drop 5).take (record.length - 21)

/-- The tag of a record: its last 16 bytes. -/
def tagBytes (record : Bytes) : Bytes := record.drop (record.length - 16)

theorem length_ciphertext (record : Bytes) : (ciphertext record).length = record.length - 21 := by
  rw [ciphertext, List.length_take, List.length_drop]
  omega

/-- The parts of a record that is put together from a header, a ciphertext and a tag. -/
theorem parts_append {hdr : Bytes} (ct : Bytes) (tag : Vector UInt8 16) (h : hdr.length = 5) :
    (hdr ++ ct ++ tag.toList).take 5 = hdr ∧ ciphertext (hdr ++ ct ++ tag.toList) = ct ∧
      tagBytes (hdr ++ ct ++ tag.toList) = tag.toList := by
  have hlen : (hdr ++ ct ++ tag.toList).length = 5 + ct.length + 16 := by
    simp [h, Nat.add_assoc]
  refine ⟨?_, ?_, ?_⟩
  · rw [List.append_assoc, List.take_left' h]
  · have hn : (hdr ++ ct ++ tag.toList).length - 21 = ct.length := by omega
    rw [ciphertext, hn, List.append_assoc, List.drop_left' h, List.take_left' rfl]
  · have hn : (hdr ++ ct ++ tag.toList).length - 16 = (hdr ++ ct).length := by
      have hsum : (hdr ++ ct).length = 5 + ct.length := by rw [List.length_append, h]
      omega
    rw [tagBytes, hn, List.drop_left' rfl]

/-- §5.2: the outer form of a protected record: long enough for a tag, opaque type
`application_data`, and a length field that counts what follows it. -/
structure Framed (record : Bytes) : Prop where
  length_le : 21 ≤ record.length
  opaque_type : record.getD 0 0 = 0x17
  length_eq : ofBe ((record.drop 3).take 2) = record.length - 5

/-! ## 4. Length limits -/

/-- §5.1: no more bytes than this in the content of a record. -/
def maxFragment : ℕ := 2 ^ 14

/-- §5.2: no more bytes than this in the encoding of an inner plaintext. -/
def maxInnerPlaintext : ℕ := 2 ^ 14 + 1

/-- §5.2: no length field above this. -/
def maxCiphertext : ℕ := 2 ^ 14 + 256

/-- The length field of a record. -/
def lengthField (record : Bytes) : ℕ := ofBe ((record.drop 3).take 2)

theorem lengthField_of_framed {record : Bytes} (h : Framed record) :
    lengthField record = record.length - 5 := h.length_eq

end Rfc8446
end Glossh
