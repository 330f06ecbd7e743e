/-
# The key schedule as a tree

RFC 8446 §7.1 draws the key schedule as a tree of secrets.  `Secret` is that tree: what a
connection derives is named by the calls that lead to it, whatever their labels, transcript hashes
and inputs are.  `Secret.run` makes the calls of `glo_ks.c` one after the other, each on what the
call before it wrote, `Secret.rfc` is the value the RFC gives the same place in the tree.

The RFC bounds a label: where `"tls13 "` and the label are longer than 255 bytes it gives no
value, and `glo_hkdf_expand_label` refuses.  A PSK of length 0 is no PSK.
-/
import Glossh.Mtls.KeySchedule

namespace Glossh.Mtls

open Bytes Hkdf

/-! ## 1. The tree -/

/-- A secret of a connection. -/
inductive Secret where
  | early (psk : Option Bytes)
  | handshake (early : Secret) (ecdhe : Vector UInt8 32)
  | derived (secret : Secret) (label : Bytes) (transcriptHash : Vector UInt8 32)
  | master (hs : Secret)
  | finished (trafficSecret : Secret)

/-- Every call of `malloc` succeeds. -/
def allOk : Mallocs := fun _ => true

theorem allOk_after (k : ℕ) : allOk.after k = allOk := rfl

namespace Secret

/-- The calls that compute a secret, into buffers that hold `junk` before. -/
def run (H : Bytes → Vector UInt8 32) (junk : ℕ → UInt8) :
    Secret → StateM Mallocs (Vector UInt8 32)
  | early psk => gloKsEarlySecret H psk
  | handshake e ecdhe => do
    let early ← e.run H junk
    gloKsHandshakeSecret H (unwritten junk 32) early ecdhe
  | derived s label th => do
    let secret ← s.run H junk
    gloKsDeriveSecret H (unwritten junk 32) secret label th
  | master h => do
    let hs ← h.run H junk
    gloKsMasterSecret H (unwritten junk 32) hs
  | finished t => do
    let trafficSecret ← t.run H junk
    gloKsFinishedKey H (unwritten junk 32) trafficSecret

/-- The key and the iv of a traffic secret. -/
def runKeyIv (H : Bytes → Vector UInt8 32) (junk : ℕ → UInt8) (s : Secret) :
    StateM Mallocs (Vector UInt8 32 × Vector UInt8 12) := do
  let trafficSecret ← s.run H junk
  gloKsTrafficKeyIv H (unwritten junk 32) (unwritten junk 12) trafficSecret

/-- RFC 8446 §7.1, §4.4.4: the value of a place in the tree. -/
def rfc (H : Bytes → Vector UInt8 32) : Secret → Option Bytes
  | early psk => some (earlySecret 64 H (psk.filter (· ≠ [])))
  | handshake e ecdhe => (e.rfc H).bind fun early => handshakeSecret 64 H early ecdhe.toList
  | derived s label th => (s.rfc H).bind fun secret => deriveSecret 64 H secret label th.toList
  | master h => (h.rfc H).bind fun hs => masterSecret 64 H hs
  | finished t => (t.rfc H).bind fun trafficSecret => finishedKey 64 H trafficSecret

/-- The labels on the way to a secret are no longer than the RFC's structure allows. -/
def labelsFit : Secret → Bool
  | early _ => true
  | handshake e _ => e.labelsFit
  | derived s label _ => s.labelsFit && decide (6 + label.length ≤ 255)
  | master h => h.labelsFit
  | finished t => t.labelsFit

end Secret

/-! ## 2. The calls with their allocations made -/

section

variable (H : Bytes → Vector UInt8 32)

theorem gloKsEarlySecret_ok (psk : Option Bytes) : ∃ v : Vector UInt8 32,
    earlySecret 64 H (psk.filter (· ≠ [])) = v.toList ∧
      (gloKsEarlySecret H psk).run allOk = (v, allOk) := by
  refine ⟨_, rfl, ?_⟩
  simp only [gloKsEarlySecret]
  rw [gloHkdfExtract_run]
  rcases psk with - | - | - <;> rfl

/-- The two extractions that are salted with a derived secret. -/
theorem gloKsNext_ok (derived secret : Vector UInt8 32) (ikm : Bytes) : ∃ v : Vector UInt8 32,
    nextSecret 64 H secret.toList ikm = some v.toList ∧
      (do
        let r ← gloHkdfExpandLabel H 32 secret (ascii "derived") (emptyHash H).toList
        gloHkdfExtract H (some (filled derived r).toList) ikm : StateM Mallocs _).run allOk =
        (v, allOk) := by
  obtain ⟨okm, hrfc, hlen, hrun⟩ := gloHkdfExpandLabel_ok H secret (labelFits_derived H)
    (by decide) (by decide) (m := allOk) rfl rfl
  have hsalt : deriveSecret 64 H secret.toList (ascii "derived") (H []).toList = some okm := hrfc
  refine ⟨extract 64 H (some okm) ikm, ?_, ?_⟩
  · rw [nextSecret, hsalt, Option.map_some]
  · rw [run_bind_eq, hrun]
    simp only [toList_filled derived hlen, gloHkdfExtract_run, allOk_after]
    rfl

/-- An expansion of one block into a buffer. -/
theorem filled_ok {n : ℕ} (buf : Vector UInt8 n) (secret : Vector UInt8 32) {label ctx : Bytes}
    (hfits : LabelFits n label ctx) (h0 : 0 < n) (h32 : n ≤ 32) : ∃ v : Vector UInt8 n,
    expandLabel 64 H secret.toList label ctx n = some v.toList ∧
      (do
        let r ← gloHkdfExpandLabel H n secret label ctx
        return filled buf r : StateM Mallocs _).run allOk = (v, allOk) := by
  obtain ⟨okm, hrfc, hlen, hrun⟩ := gloHkdfExpandLabel_ok H secret hfits h0 h32 (m := allOk) rfl rfl
  refine ⟨filled buf (some okm), ?_, ?_⟩
  · rw [toList_filled buf hlen, hrfc]
  · rw [run_bind_eq, hrun, run_pure_eq, allOk_after]

/-- A label that is too long leaves the buffer as it was. -/
theorem gloKsDeriveSecret_long (out secret : Vector UInt8 32) {label : Bytes}
    (th : Vector UInt8 32) (h : ¬ 6 + label.length ≤ 255) :
    (gloKsDeriveSecret H out secret label th).run allOk = (out, allOk) ∧
      deriveSecret 64 H secret.toList label th.toList = none := by
  have hfits : ¬ LabelFits 32 label th.toList := fun hf => h hf.label_le
  constructor
  · rw [gloKsDeriveSecret, gloHkdfExpandLabel_of_not_fits H secret hfits]
    rfl
  · rw [deriveSecret, expandLabel, hkdfLabel_of_not_fits hfits]
    rfl

theorem gloKsTrafficKeyIv_ok (key : Vector UInt8 32) (iv : Vector UInt8 12)
    (trafficSecret : Vector UInt8 32) : ∃ (k : Vector UInt8 32) (i : Vector UInt8 12),
    trafficKeyIv 64 H trafficSecret.toList 32 12 = some (k.toList ++ i.toList) ∧
      (gloKsTrafficKeyIv H key iv trafficSecret).run allOk = ((k, i), allOk) := by
  obtain ⟨k, hk, hkrun⟩ := filled_ok H key trafficSecret labelFits_key (by decide) (by decide)
  obtain ⟨i, hi, hirun⟩ := filled_ok H iv trafficSecret labelFits_iv (by decide) (by decide)
  refine ⟨k, i, ?_, ?_⟩
  · rw [trafficKeyIv, hk, hi]
    rfl
  · rw [run_bind_eq, run_pure_eq] at hkrun hirun
    obtain ⟨hk1, hk2⟩ := Prod.mk.inj hkrun
    obtain ⟨hi1, hi2⟩ := Prod.mk.inj hirun
    simp only [gloKsTrafficKeyIv, run_bind_eq, run_pure_eq, hk1, hk2, hi1, hi2]

end

/-! ## 3. The tree is the RFC's -/

namespace Secret

variable (H : Bytes → Vector UInt8 32) (junk : ℕ → UInt8)

/-- **One call further down the tree**, for each of the five calls. -/
theorem run_ok (s : Secret) : ∃ v : Vector UInt8 32, (s.run H junk).run allOk = (v, allOk) ∧
    s.rfc H = if s.labelsFit then some v.toList else none := by
  induction s with
  | early psk =>
    obtain ⟨v, hv, hrun⟩ := gloKsEarlySecret_ok H psk
    exact ⟨v, hrun, by rw [rfc, hv, labelsFit, if_pos rfl]⟩
  | handshake e ecdhe ih =>
    obtain ⟨early, hrun, hrfc⟩ := ih
    obtain ⟨v, hv, hnext⟩ := gloKsNext_ok H (unwritten junk 32) early ecdhe.toList
    refine ⟨v, ?_, ?_⟩
    · rw [run, run_bind_eq, hrun]
      exact hnext
    · rw [rfc, hrfc, labelsFit]
      split
      · exact hv
      · rfl
  | derived s label th ih =>
    obtain ⟨secret, hrun, hrfc⟩ := ih
    by_cases hlabel : 6 + label.length ≤ 255
    · obtain ⟨v, hv, hexpand⟩ := filled_ok H (unwritten junk 32) secret
        (labelFits_hash th hlabel) (by decide) (by decide)
      refine ⟨v, ?_, ?_⟩
      · rw [run, run_bind_eq, hrun]
        exact hexpand
      · rw [rfc, hrfc, labelsFit, decide_eq_true hlabel, Bool.and_true]
        split
        · exact hv
        · rfl
    · obtain ⟨hlong, hnone⟩ := gloKsDeriveSecret_long H (unwritten junk 32) secret th hlabel
      refine ⟨unwritten junk 32, ?_, ?_⟩
      · rw [run, run_bind_eq, hrun]
        exact hlong
      · rw [rfc, hrfc, labelsFit, decide_eq_false hlabel, Bool.and_false, if_neg Bool.false_ne_true]
        split
        · exact hnone
        · rfl
  | master h ih =>
    obtain ⟨hs, hrun, hrfc⟩ := ih
    obtain ⟨v, hv, hnext⟩ := gloKsNext_ok H (unwritten junk 32) hs (List.replicate 32 0)
    refine ⟨v, ?_, ?_⟩
    · rw [run, run_bind_eq, hrun]
      exact hnext
    · rw [rfc, hrfc, labelsFit]
      split
      · exact hv
      · rfl
  | finished t ih =>
    obtain ⟨trafficSecret, hrun, hrfc⟩ := ih
    obtain ⟨v, hv, hexpand⟩ := filled_ok H (unwritten junk 32) trafficSecret labelFits_finished
      (by decide) (by decide)
    refine ⟨v, ?_, ?_⟩
    · rw [run, run_bind_eq, hrun]
      exact hexpand
    · rw [rfc, hrfc, labelsFit]
      split
      · exact hv
      · rfl

/-- **The key schedule is that of RFC 8446 §7.1**, for every PSK or none, ECDHE secret, label and
transcript hash, over any hash function: HMAC is RFC 2104's for keys of every length, and every
secret, finished key, key and iv of the tree is the RFC's, where the RFC gives one. -/
theorem keySchedule_rfc8446 :
    (∀ key msg, ((gloHmacSha256 H key msg).run allOk).1 = hmac 64 H key msg) ∧
      (∀ s : Secret, s.rfc H =
        if s.labelsFit then some ((s.run H junk).run allOk).1.toList else none) ∧
      ∀ s : Secret, ((s.rfc H).bind fun ts => trafficKeyIv 64 H ts 32 12) =
        if s.labelsFit then some ((((s.runKeyIv H junk).run allOk).1.1).toList ++
          (((s.runKeyIv H junk).run allOk).1.2).toList) else none := by
  refine ⟨?_, ?_, ?_⟩
  · intro key msg
    rw [gloHmacSha256_run]
    rfl
  · intro s
    obtain ⟨v, hrun, hrfc⟩ := run_ok H junk s
    rw [hrun, hrfc]
  · intro s
    obtain ⟨v, hrun, hrfc⟩ := run_ok H junk s
    obtain ⟨k, i, hki, hkirun⟩ := gloKsTrafficKeyIv_ok H (unwritten junk 32) (unwritten junk 12) v
    have hkeyiv : (s.runKeyIv H junk).run allOk = ((k, i), allOk) := by
      rw [runKeyIv, run_bind_eq, hrun]
      exact hkirun
    rw [hkeyiv, hrfc]
    split
    · exact hki
    · rfl

end Secret
end Glossh.Mtls
