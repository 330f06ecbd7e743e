/-
# What the parser takes from a packet

`packetparser.c` on a packet that is put together from parts: each function accepts exactly the
positions at which its part is complete, and reads that part and moves behind it.

* `packetparserUint8_iff` to `packetparserEnd_iff`: when a function returns, and what;
* `packetparserString_iff`: nothing is accepted as a string but what could have been put.
-/
import Glossh.Lib.Prog
import Glossh.Lib.Region
import Glossh.Ssh.Packetparser

namespace Glossh.Ssh

open Bytes

/-! ## 1. When the functions return -/

theorem parserSane_iff {buf : Bytes} {pos : ℕ} :
    parserSane buf pos = true ↔ buf.length ≤ BUF_MAX ∧ pos ≤ BUF_MAX := by
  rw [parserSane, Bool.and_eq_true, decide_eq_true_iff, decide_eq_true_iff]

theorem packetparserUint8_iff {buf : Bytes} {pos : ℕ} {r : UInt8 × ℕ} :
    packetparserUint8 buf pos = .ok r ↔
      buf.length ≤ BUF_MAX ∧ pos + 1 ≤ buf.length ∧ r = (buf.getD pos 0, pos + 1) := by
  unfold packetparserUint8
  constructor
  · intro h
    split at h
    · rename_i hsane
      split at h
      · cases h
      · rename_i hlen
        cases h
        exact ⟨(parserSane_iff.mp hsane).1, Nat.le_of_not_lt hlen, rfl⟩
    · cases h
  · rintro ⟨hmax, hlen, rfl⟩
    rw [if_pos (parserSane_iff.mpr ⟨hmax, by omega⟩), if_neg (Nat.not_lt.mpr hlen)]

theorem packetparserUint32_iff {buf : Bytes} {pos : ℕ} {r : UInt32 × ℕ} :
    packetparserUint32 buf pos = .ok r ↔ buf.length ≤ BUF_MAX ∧ pos + 4 ≤ buf.length ∧
      r = (UInt32.ofNat (ofBe ((buf.drop pos).take 4)), pos + 4) := by
  unfold packetparserUint32
  constructor
  · intro h
    split at h
    · rename_i hsane
      split at h
      · cases h
      · rename_i hlen
        cases h
        exact ⟨(parserSane_iff.mp hsane).1, Nat.le_of_not_lt hlen, rfl⟩
    · cases h
  · rintro ⟨hmax, hlen, rfl⟩
    rw [if_pos (parserSane_iff.mpr ⟨hmax, by omega⟩), if_neg (Nat.not_lt.mpr hlen)]

theorem packetparserSkip_iff {buf : Bytes} {pos skip stop : ℕ} :
    packetparserSkip buf pos skip = .ok stop ↔
      buf.length ≤ BUF_MAX ∧ pos + skip ≤ buf.length ∧ stop = pos + skip := by
  unfold packetparserSkip
  constructor
  · intro h
    split at h
    · rename_i hsane
      rw [Bool.and_eq_true] at hsane
      split at h
      · cases h
      · rename_i hlen
        cases h
        exact ⟨(parserSane_iff.mp hsane.1).1, Nat.le_of_not_lt hlen, rfl⟩
    · cases h
  · rintro ⟨hmax, hlen, rfl⟩
    have hsane : (parserSane buf pos && decide (skip ≤ BUF_MAX)) = true := by
      rw [Bool.and_eq_true, decide_eq_true_iff, parserSane_iff]
      omega
    rw [if_pos hsane, if_neg (Nat.not_lt.mpr hlen)]

theorem packetparserEnd_iff {buf : Bytes} {pos stop : ℕ} :
    packetparserEnd buf pos = .ok stop ↔
      buf.length ≤ BUF_MAX ∧ pos = buf.length ∧ stop = pos := by
  unfold packetparserEnd
  constructor
  · intro h
    split at h
    · rename_i hsane
      split at h
      · cases h
      · rename_i hlen
        cases h
        exact ⟨(parserSane_iff.mp hsane).1, not_not.mp hlen, rfl⟩
    · cases h
  · rintro ⟨hmax, rfl, rfl⟩
    rw [if_pos (parserSane_iff.mpr ⟨hmax, hmax⟩), if_neg (not_not.mpr rfl)]

/-! ## 2. Strings -/

/-- Bytes spell their number. -/
theorem beBytes_ofBe (x : Bytes) : beBytes x.length (ofBe x) = x := by
  rw [beBytes, ofBe, ← List.length_reverse, leBytes_ofLe, List.reverse_reverse]

/-- Four bytes as a word. -/
theorem toNat_ofBe4 {x : Bytes} (h : x.length = 4) : (UInt32.ofNat (ofBe x)).toNat = ofBe x := by
  have hlt : ofBe x < 256 ^ 4 := by
    have hlt := ofLe_lt x.reverse
    rwa [List.length_reverse, h] at hlt
  rw [UInt32.toNat_ofNat']
  exact Nat.mod_eq_of_lt hlt

/-- **A string is accepted** where its length and its bytes are there. -/
theorem packetparserString_iff {buf : Bytes} {pos : ℕ} {r : ℕ × ℕ} :
    packetparserString buf pos = .ok r ↔ buf.length ≤ BUF_MAX ∧ r.2 = pos + 4 + r.1 ∧
      r.2 ≤ buf.length ∧ slice buf pos (4 + r.1) = sshString (slice buf (pos + 4) r.1) := by
  have hlength (h : pos + 4 ≤ buf.length) : ((buf.drop pos).take 4).length = 4 := by
    rw [List.length_take, List.length_drop]
    omega
  have hsplit (n : ℕ) : slice buf pos (4 + n) = (buf.drop pos).take 4 ++ slice buf (pos + 4) n := by
    rw [slice, slice, List.take_add, List.drop_drop]
  have hstring {n : ℕ} (h : pos + 4 + n ≤ buf.length) :
      slice buf pos (4 + n) = sshString (slice buf (pos + 4) n) ↔
        (buf.drop pos).take 4 = beBytes 4 n := by
    rw [hsplit, sshString, length_slice h, List.append_left_inj]
  obtain ⟨len, stop⟩ := r
  constructor
  · intro h
    obtain ⟨word, hword, h⟩ := Prog.except_bind_ok h
    obtain ⟨stop', hskip, h⟩ := Prog.except_bind_ok h
    cases h
    obtain ⟨hmax, hfour, rfl⟩ := packetparserUint32_iff.mp hword
    obtain ⟨-, hlen, rfl⟩ := packetparserSkip_iff.mp hskip
    refine ⟨hmax, rfl, hlen, (hstring hlen).mpr ?_⟩
    have hbytes := beBytes_ofBe ((buf.drop pos).take 4)
    rw [hlength hfour] at hbytes
    rw [toNat_ofBe4 (hlength hfour), hbytes]
  · rintro ⟨hmax, hstop, hlen, hbytes⟩
    simp only at hstop hlen hbytes
    rw [hstop] at hlen
    have hfour := (hstring hlen).mp hbytes
    have hlt : len < 256 ^ 4 := by
      rw [BUF_MAX] at hmax
      omega
    have hword : packetparserUint32 buf pos =
        .ok (UInt32.ofNat (ofBe ((buf.drop pos).take 4)), pos + 4) :=
      packetparserUint32_iff.mpr ⟨hmax, by omega, rfl⟩
    have hnat : (UInt32.ofNat (ofBe ((buf.drop pos).take 4))).toNat = len := by
      rw [toNat_ofBe4 (hlength (by omega)), hfour, ofBe_beBytes, Nat.mod_eq_of_lt hlt]
    have hskip : packetparserSkip buf (pos + 4) len = .ok stop :=
      packetparserSkip_iff.mpr ⟨hmax, hlen, hstop⟩
    rw [packetparserString, hword]
    change (packetparserSkip buf (pos + 4) _ >>= _) = _
    rw [hnat, hskip]
    rfl

end Glossh.Ssh
