/-
# The key exchange of RFC 4253

The parts of the transport layer that the two sides of a key exchange have to compute alike:
strings and integers (RFC 4251 §5), the derivation of keys (§7.2), and what the exchange hash is
computed from (§8, in the form of RFC 5656 and RFC 8731, with the public values as strings and the
shared secret in whatever encoding its method prescribes).

* `Exchange.encode_inj`: the hash binds every part of the exchange;
* `magnitude_ofBe`: the bytes of an integer are those of its number, without zeros in front.
-/
import Glossh.Lib.Bytes
import Mathlib.Data.List.DropRight

namespace Glossh
namespace Rfc4253

open Bytes

/-! ## 1. Strings and integers -/

/-- RFC 4251 §5: `string`. -/
def string (s : Bytes) : Bytes := beBytes 4 s.length ++ s

/-- **A string ends where its length says.** -/
theorem string_append_inj {s t x y : Bytes} (hs : s.length < 256 ^ 4) (ht : t.length < 256 ^ 4)
    (h : string s ++ x = string t ++ y) : s = t ∧ x = y := by
  rw [string, string, List.append_assoc, List.append_assoc] at h
  obtain ⟨hlen, hrest⟩ := List.append_inj h (by rw [length_beBytes, length_beBytes])
  exact List.append_inj hrest (beBytes_inj hs ht hlen)

/-- The bytes of a number from the first that is not zero on. -/
def magnitude (n : ℕ) : Bytes :=
  if n = 0 then [] else magnitude (n / 256) ++ [UInt8.ofNat n]
termination_by n
decreasing_by omega

/-- RFC 4251 §5: `mpint` of a number that is not negative. -/
def mpint (n : ℕ) : Bytes :=
  string (if (magnitude n).headD 0 &&& 0x80 ≠ 0 then 0 :: magnitude n else magnitude n)

theorem magnitude_zero : magnitude 0 = [] := by
  rw [magnitude, if_pos rfl]

theorem magnitude_pos {n : ℕ} (h : 0 < n) :
    magnitude n = magnitude (n / 256) ++ [UInt8.ofNat n] := by
  conv_lhs => rw [magnitude, if_neg h.ne']

/-- **Bytes that do not begin with zero are those of their number.** -/
theorem magnitude_ofBe (l : Bytes) (h : l.headD 1 ≠ 0) : magnitude (ofBe l) = l := by
  induction l using List.reverseRecOn with
  | nil => exact magnitude_zero
  | append_singleton l b ih =>
    have hb : b.toNat < 256 := b.toNat_lt
    have hlast : UInt8.ofNat (256 * ofBe l + b.toNat) = b := by
      apply UInt8.toNat_inj.mp
      rw [UInt8.toNat_ofNat']
      omega
    rw [ofBe_append_singleton]
    cases l with
    | nil =>
      have hpos : 0 < 256 * ofBe [] + b.toNat := by
        rcases Nat.eq_zero_or_pos b.toNat with h0 | h0
        · exact absurd (UInt8.toNat_inj.mp h0) h
        · omega
      rw [magnitude_pos hpos, hlast, show (256 * ofBe [] + b.toNat) / 256 = 0 by
        rw [show ofBe [] = 0 from rfl]; omega, magnitude_zero]
    | cons a l =>
      have hl := ih h
      have hpos : 0 < ofBe (a :: l) := by
        rcases Nat.eq_zero_or_pos (ofBe (a :: l)) with h0 | h0
        · rw [h0, magnitude_zero] at hl
          cases hl
        · exact h0
      rw [magnitude_pos (by omega), hlast,
        show (256 * ofBe (a :: l) + b.toNat) / 256 = ofBe (a :: l) by omega, hl]

/-! ## 2. The exchange hash -/

/-- What the exchange hash is computed from: the lines and the KEXINITs of the two sides, the
server's host key, the two public values, and the shared secret as it is encoded. -/
structure Exchange where
  vC : Bytes
  vS : Bytes
  iC : Bytes
  iS : Bytes
  kS : Bytes
  qC : Bytes
  qS : Bytes
  k : Bytes

namespace Exchange

/-- §8: the concatenation that is hashed. -/
def encode (e : Exchange) : Bytes :=
  string e.vC ++ (string e.vS ++ (string e.iC ++ (string e.iS ++ (string e.kS ++ (string e.qC ++
    (string e.qS ++ e.k))))))

/-- Every string has a length that its encoding can hold. -/
structure Fits (e : Exchange) : Prop where
  vC : e.vC.length < 256 ^ 4
  vS : e.vS.length < 256 ^ 4
  iC : e.iC.length < 256 ^ 4
  iS : e.iS.length < 256 ^ 4
  kS : e.kS.length < 256 ^ 4
  qC : e.qC.length < 256 ^ 4
  qS : e.qS.length < 256 ^ 4

/-- **What is hashed determines every part of the exchange.** -/
theorem encode_inj {e f : Exchange} (he : e.Fits) (hf : f.Fits) (h : e.encode = f.encode) :
    e = f := by
  obtain ⟨h1, h⟩ := string_append_inj he.vC hf.vC h
  obtain ⟨h2, h⟩ := string_append_inj he.vS hf.vS h
  obtain ⟨h3, h⟩ := string_append_inj he.iC hf.iC h
  obtain ⟨h4, h⟩ := string_append_inj he.iS hf.iS h
  obtain ⟨h5, h⟩ := string_append_inj he.kS hf.kS h
  obtain ⟨h6, h⟩ := string_append_inj he.qC hf.qC h
  obtain ⟨h7, h8⟩ := string_append_inj he.qS hf.qS h
  cases e
  cases f
  simp only at h1 h2 h3 h4 h5 h6 h7 h8
  rw [h1, h2, h3, h4, h5, h6, h7, h8]

end Exchange

/-! ## 3. Keys -/

section

variable (hash : Bytes → Bytes) (k h sid : Bytes) (x : UInt8)

/-- §7.2: `K1 || K2 || ..`, the first `n` of them, for the letter `x`. -/
def keyStream : ℕ → Bytes
  | 0 => []
  | 1 => hash (k ++ h ++ [x] ++ sid)
  | n + 2 => keyStream (n + 1) ++ hash (k ++ h ++ keyStream (n + 1))

end

end Rfc4253
end Glossh
