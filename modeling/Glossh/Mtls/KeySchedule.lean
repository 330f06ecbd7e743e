/-
# `glo_ks.c`: the TLS 1.3 key schedule when allocations fail

The functions of `glo_ks.c`.  They return nothing and ignore what `glo_hkdf_expand_label`
returns, so a buffer that call was to fill may be handed on as it was: `derived` of
`glo_ks_handshake_secret` with whatever lies on the stack, the outputs of the others with what
the caller left there.

A derivation is *honest* when it either returns a failure or has written the value of RFC 5869
or RFC 8446, for whatever hash function stands behind it.  Quantifying over the hash function is
what tells a derived value from a constant: a buffer of zeros is never HMAC's value for every
hash.  `Derivation.honest_iff` says for each of the nine functions which allocations have to
succeed for that.
-/
import Glossh.Mtls.Hkdf
import Mathlib.Data.Finset.Card

namespace Glossh.Mtls

open Bytes Hkdf

/-! ## 1. The functions of the file -/

/-- A buffer of `n` bytes after a call that was to fill it: unchanged when that call failed. -/
def filled {n : ℕ} (buf : Vector UInt8 n) (r : Option Bytes) : Vector UInt8 n :=
  match r with
  | some out => toVector n out
  | none => buf

section

variable (H : Bytes → Vector UInt8 32)

/-- `empty_hash`. -/
def emptyHash : Vector UInt8 32 := H []

/-- `glo_ks_early_secret`; a NULL PSK is `none`. -/
def gloKsEarlySecret (psk : Option Bytes) : StateM Mallocs (Vector UInt8 32) :=
  let zeros : Bytes := List.replicate 32 0
  let psk :=
    match psk with
    | none => zeros
    | some p => if p.length = 0 then zeros else p
  gloHkdfExtract H none psk

/-- `glo_ks_derive_secret` into the buffer `out`. -/
def gloKsDeriveSecret (out secret : Vector UInt8 32) (label : Bytes)
    (transcriptHash : Vector UInt8 32) : StateM Mallocs (Vector UInt8 32) := do
  let r ← gloHkdfExpandLabel H 32 secret label transcriptHash.toList
  return filled out r

/-- `glo_ks_handshake_secret`; `derived` is the array before it is written. -/
def gloKsHandshakeSecret (derived early ecdhe : Vector UInt8 32) :
    StateM Mallocs (Vector UInt8 32) := do
  let eh := emptyHash H
  let r ← gloHkdfExpandLabel H 32 early (ascii "derived") eh.toList
  let derived := filled derived r
  gloHkdfExtract H (some derived.toList) ecdhe.toList

/-- `glo_ks_master_secret`; `derived` is the array before it is written. -/
def gloKsMasterSecret (derived hs : Vector UInt8 32) : StateM Mallocs (Vector UInt8 32) := do
  let zeros : Bytes := List.replicate 32 0
  let eh := emptyHash H
  let r ← gloHkdfExpandLabel H 32 hs (ascii "derived") eh.toList
  let derived := filled derived r
  gloHkdfExtract H (some derived.toList) zeros

/-- `glo_ks_traffic_key_iv` into the buffers `key` and `iv`. -/
def gloKsTrafficKeyIv (key : Vector UInt8 32) (iv : Vector UInt8 12)
    (trafficSecret : Vector UInt8 32) :
    StateM Mallocs (Vector UInt8 32 × Vector UInt8 12) := do
  let r ← gloHkdfExpandLabel H 32 trafficSecret (ascii "key") []
  let key := filled key r
  let r ← gloHkdfExpandLabel H 12 trafficSecret (ascii "iv") []
  let iv := filled iv r
  return (key, iv)

/-- `glo_ks_finished_key` into the buffer `fk`. -/
def gloKsFinishedKey (fk trafficSecret : Vector UInt8 32) :
    StateM Mallocs (Vector UInt8 32) := do
  let r ← gloHkdfExpandLabel H 32 trafficSecret (ascii "finished") []
  return filled fk r

end

/-! ## 2. Derivations -/

/-- A call of one of the nine functions, with its inputs. -/
inductive Derivation where
  | extract (salt : Option Bytes) (ikm : Bytes)
  | expand (okmlen : ℕ) (prk : Vector UInt8 32) (info : Bytes)
  | expandLabel (outlen : ℕ) (secret : Vector UInt8 32) (label ctx : Bytes)
  | earlySecret (psk : Option Bytes)
  | handshakeSecret (early ecdhe : Vector UInt8 32)
  | deriveSecret (secret : Vector UInt8 32) (label : Bytes) (transcriptHash : Vector UInt8 32)
  | masterSecret (hs : Vector UInt8 32)
  | trafficKeyIv (trafficSecret : Vector UInt8 32)
  | finishedKey (trafficSecret : Vector UInt8 32)

/-- What a caller gets: the return value, if there is one, and the bytes of the output buffers. -/
structure Derived where
  rc : Option Int
  out : Bytes

/-- The result of a function that returns nothing. -/
def Derived.ofVoid (out : Bytes) : Derived := { rc := none, out := out }

/-- The result of `glo_hkdf_expand` or `glo_hkdf_expand_label` into the buffer `old`. -/
def Derived.ofExpand (old : Bytes) : Option Bytes → Derived
  | some okm => { rc := some 0, out := okm }
  | none => { rc := some (-1), out := old }

/-- A buffer nobody has written, when the bytes that lie there are `junk`. -/
def unwritten (junk : ℕ → UInt8) (n : ℕ) : Vector UInt8 n := Vector.ofFn fun i => junk i.val

namespace Derivation

/-- The call under a pattern of allocations. -/
def run (H : Bytes → Vector UInt8 32) (junk : ℕ → UInt8) (m : Mallocs) : Derivation → Derived
  | extract salt ikm => .ofVoid ((gloHkdfExtract H salt ikm).run m).1.toList
  | expand okmlen prk info => .ofExpand [] ((gloHkdfExpand H okmlen prk info).run m).1
  | expandLabel outlen secret label ctx =>
    .ofExpand [] ((gloHkdfExpandLabel H outlen secret label ctx).run m).1
  | earlySecret psk => .ofVoid ((gloKsEarlySecret H psk).run m).1.toList
  | handshakeSecret early ecdhe =>
    .ofVoid ((gloKsHandshakeSecret H (unwritten junk 32) early ecdhe).run m).1.toList
  | deriveSecret secret label transcriptHash =>
    .ofVoid ((gloKsDeriveSecret H (unwritten junk 32) secret label transcriptHash).run m).1.toList
  | masterSecret hs => .ofVoid ((gloKsMasterSecret H (unwritten junk 32) hs).run m).1.toList
  | trafficKeyIv trafficSecret =>
    let r := ((gloKsTrafficKeyIv H (unwritten junk 32) (unwritten junk 12) trafficSecret).run m).1
    .ofVoid (r.1.toList ++ r.2.toList)
  | finishedKey trafficSecret =>
    .ofVoid ((gloKsFinishedKey H (unwritten junk 32) trafficSecret).run m).1.toList

/-- The value RFC 5869 and RFC 8446 give, where they give one.  A PSK of length 0 is none. -/
def rfcValue (H : Bytes → Vector UInt8 32) : Derivation → Option Bytes
  | extract salt ikm => some (Hkdf.extract 64 H salt ikm).toList
  | expand okmlen prk info => Hkdf.expand 64 H prk.toList info okmlen
  | expandLabel outlen secret label ctx => Hkdf.expandLabel 64 H secret.toList label ctx outlen
  | earlySecret psk => some (Hkdf.earlySecret 64 H (psk.filter (· ≠ [])))
  | handshakeSecret early ecdhe => Hkdf.handshakeSecret 64 H early.toList ecdhe.toList
  | deriveSecret secret label transcriptHash =>
    Hkdf.deriveSecret 64 H secret.toList label transcriptHash.toList
  | masterSecret hs => Hkdf.masterSecret 64 H hs.toList
  | trafficKeyIv trafficSecret => Hkdf.trafficKeyIv 64 H trafficSecret.toList 32 12
  | finishedKey trafficSecret => Hkdf.finishedKey 64 H trafficSecret.toList

/-- A call that shows its failure or has written the RFC's value, for every hash function. -/
def Honest (junk : ℕ → UInt8) (m : Mallocs) (d : Derivation) : Prop :=
  ∀ H : Bytes → Vector UInt8 32,
    (∃ rc, (d.run H junk m).rc = some rc ∧ rc ≠ 0) ∨ d.rfcValue H = some (d.run H junk m).out

/-- The allocations a call needs so that nothing fails silently. -/
def Allocated (m : Mallocs) : Derivation → Prop
  | extract _ _ => m 0 = true
  | expand okmlen _ _ => 255 * 32 < okmlen ∨ m 0 = false ∨ ∀ i < blocks okmlen, m (1 + i) = true
  | expandLabel outlen _ label ctx =>
    ¬LabelFits outlen label ctx ∨ 255 * 32 < outlen ∨ m 0 = false ∨
      ∀ i < blocks outlen, m (1 + i) = true
  | earlySecret _ => m 0 = true
  | handshakeSecret _ _ => m 0 = true ∧ m 1 = true ∧ m 2 = true
  | deriveSecret _ label _ => 6 + label.length ≤ 255 ∧ m 0 = true ∧ m 1 = true
  | masterSecret _ => m 0 = true ∧ m 1 = true ∧ m 2 = true
  | trafficKeyIv _ => m 0 = true ∧ m 1 = true ∧ m 2 = true ∧ m 3 = true
  | finishedKey _ => m 0 = true ∧ m 1 = true

end Derivation

/-! ## 3. With its allocations made a call writes the RFC's value -/

@[simp] theorem filled_none {n : ℕ} (buf : Vector UInt8 n) : filled buf none = buf := rfl

theorem toList_filled {n : ℕ} (buf : Vector UInt8 n) {out : Bytes} (h : out.length = n) :
    (filled buf (some out)).toList = out := toList_toVector h

section

variable (H : Bytes → Vector UInt8 32)

/-- A block of the expansion that was allocated for is the RFC's. -/
theorem expandLabel_block (secret : Vector UInt8 32) {outlen : ℕ} {label ctx : Bytes}
    (hfits : LabelFits outlen label ctx) (h0 : 0 < outlen) (h32 : outlen ≤ 32) :
    Hkdf.expandLabel 64 H secret.toList label ctx outlen =
      some ((expandStep 64 H secret.toList (labelInfo outlen label ctx) 0 []).toList.take
        outlen) := by
  rw [Hkdf.expandLabel, hkdfLabel_of_fits hfits, Option.bind_some, Hkdf.expand,
    if_pos (by omega), chained_block _ h0 h32]

/-- Two allocations are enough for an expansion of one block. -/
theorem gloHkdfExpandLabel_ok (secret : Vector UInt8 32) {outlen : ℕ} {label ctx : Bytes}
    (hfits : LabelFits outlen label ctx) (h0 : 0 < outlen) (h32 : outlen ≤ 32) {m : Mallocs}
    (hm0 : m 0 = true) (hm1 : m 1 = true) :
    ∃ okm, Hkdf.expandLabel 64 H secret.toList label ctx outlen = some okm ∧
      okm.length = outlen ∧
      (gloHkdfExpandLabel H outlen secret label ctx).run m = (some okm, m.after 2) := by
  refine ⟨_, expandLabel_block H secret hfits h0 h32, by simp; omega, ?_⟩
  rw [gloHkdfExpandLabel_block H secret hfits h0 h32, hm0, cond_true, codeStep,
    Mallocs.after_apply, hm1, cond_true]

/-- The expansions of the key schedule fit into their labels. -/
theorem labelFits_derived : LabelFits 32 (ascii "derived") (emptyHash H).toList :=
  ⟨by decide, by decide, by rw [Vector.length_toList]; decide⟩

theorem labelFits_key : LabelFits 32 (ascii "key") [] := ⟨by decide, by decide, by decide⟩

theorem labelFits_iv : LabelFits 12 (ascii "iv") [] := ⟨by decide, by decide, by decide⟩

theorem labelFits_finished : LabelFits 32 (ascii "finished") [] :=
  ⟨by decide, by decide, by decide⟩

theorem labelFits_hash {label : Bytes} (th : Vector UInt8 32) (h : 6 + label.length ≤ 255) :
    LabelFits 32 label th.toList :=
  ⟨by decide, h, by rw [Vector.length_toList]; decide⟩

/-- Handshake secret and master secret: an expansion, then an extraction salted with it. -/
theorem nextSecret_run (derived secret : Vector UInt8 32) (ikm : Bytes) {m : Mallocs}
    (hm0 : m 0 = true) (hm1 : m 1 = true) (hm2 : m 2 = true) :
    Hkdf.nextSecret 64 H secret.toList ikm =
      some ((gloHkdfExtract H
        (some (filled derived ((gloHkdfExpandLabel H 32 secret (ascii "derived")
          (emptyHash H).toList).run m).1).toList) ikm).run
        ((gloHkdfExpandLabel H 32 secret (ascii "derived")
          (emptyHash H).toList).run m).2).1.toList := by
  obtain ⟨okm, hrfc, hlen, hrun⟩ := gloHkdfExpandLabel_ok H secret (labelFits_derived H)
    (by decide) (by decide) hm0 hm1
  have hsalt : Hkdf.deriveSecret 64 H secret.toList (ascii "derived") (H []).toList = some okm :=
    hrfc
  have hm2' : (m.after 2) 0 = true := hm2
  rw [Hkdf.nextSecret, hsalt, hrun, Option.map_some]
  simp only [toList_filled derived hlen, gloHkdfExtract_run, hm2', cond_true]

/-- An expansion whose HMACs were all allocated for. -/
theorem expand_honest (L : ℕ) (prk : Vector UInt8 32) (info : Bytes) {m : Mallocs}
    (h : 255 * 32 < L ∨ m 0 = false ∨ ∀ i < blocks L, m (1 + i) = true) :
    ((gloHkdfExpand H L prk info).run m).1 = none ∨
      Hkdf.expand 64 H prk.toList info L = ((gloHkdfExpand H L prk info).run m).1 := by
  rw [gloHkdfExpand_run, Hkdf.expand]
  by_cases hL : 255 * 32 < L
  · rw [if_pos hL]
    exact Or.inl rfl
  · rw [if_neg hL, if_pos (by omega)]
    cases hm : m 0 with
    | false => exact Or.inl rfl
    | true =>
      have hall : ∀ i < blocks L, m (1 + i) = true := by
        rcases h with h | h | h
        · exact absurd h hL
        · exact absurd (hm.symm.trans h) (by decide)
        · exact h
      rw [cond_true, chained_codeStep H prk info (m := m.after 1) hall]
      exact Or.inr rfl

/-- The result of an expansion is visible when it is `none`. -/
theorem ofExpand_honest {r : Option Bytes} {v : Option Bytes} (h : r = none ∨ v = r) :
    (∃ rc, (Derived.ofExpand [] r).rc = some rc ∧ rc ≠ 0) ∨
      v = some (Derived.ofExpand [] r).out := by
  cases r with
  | none => exact Or.inl ⟨-1, rfl, by decide⟩
  | some okm =>
    rcases h with h | h
    · cases h
    · exact Or.inr h

end

namespace Derivation

/-- **With its allocations made, every call shows its failure or writes the RFC's value.** -/
theorem honest_of_allocated {junk : ℕ → UInt8} {m : Mallocs} {d : Derivation}
    (h : d.Allocated m) : d.Honest junk m := by
  intro H
  cases d with
  | extract salt ikm =>
    have hm : m 0 = true := h
    right
    simp only [rfcValue, run, Derived.ofVoid]
    rw [gloHkdfExtract_run, hm, cond_true]
  | expand L prk info => exact ofExpand_honest (expand_honest H L prk info h)
  | expandLabel L secret label ctx =>
    by_cases hfits : LabelFits L label ctx
    · have hm : 255 * 32 < L ∨ m 0 = false ∨ ∀ i < blocks L, m (1 + i) = true :=
        h.resolve_left (not_not.mpr hfits)
      have hexpand := expand_honest H L secret (labelInfo L label ctx) hm
      rw [← gloHkdfExpandLabel_of_fits H secret hfits] at hexpand
      refine ofExpand_honest (hexpand.imp_right fun hv => ?_)
      rw [rfcValue, Hkdf.expandLabel, hkdfLabel_of_fits hfits, Option.bind_some, hv]
    · refine ofExpand_honest (Or.inl ?_)
      rw [gloHkdfExpandLabel_of_not_fits H secret hfits]
      rfl
  | earlySecret psk =>
    have hm : m 0 = true := h
    right
    simp only [rfcValue, run, Derived.ofVoid, gloKsEarlySecret, Hkdf.earlySecret]
    rw [gloHkdfExtract_run, hm, cond_true]
    rcases psk with - | - | - <;> rfl
  | handshakeSecret early ecdhe =>
    obtain ⟨hm0, hm1, hm2⟩ := h
    exact Or.inr (nextSecret_run H (unwritten junk 32) early ecdhe.toList hm0 hm1 hm2)
  | deriveSecret secret label th =>
    obtain ⟨hlabel, hm0, hm1⟩ := h
    obtain ⟨okm, hrfc, hlen, hrun⟩ := gloHkdfExpandLabel_ok H secret (labelFits_hash th hlabel)
      (by decide) (by decide) hm0 hm1
    right
    simp only [rfcValue, run, Derived.ofVoid, gloKsDeriveSecret, run_bind_eq, run_pure_eq, hrun]
    rw [toList_filled _ hlen]
    exact hrfc
  | masterSecret hs =>
    obtain ⟨hm0, hm1, hm2⟩ := h
    exact Or.inr (nextSecret_run H (unwritten junk 32) hs (List.replicate 32 0) hm0 hm1 hm2)
  | trafficKeyIv ts =>
    obtain ⟨hm0, hm1, hm2, hm3⟩ := h
    obtain ⟨key, hkey, hkeylen, hkeyrun⟩ := gloHkdfExpandLabel_ok H ts labelFits_key
      (by decide) (by decide) hm0 hm1
    obtain ⟨iv, hiv, hivlen, hivrun⟩ := gloHkdfExpandLabel_ok H ts labelFits_iv
      (m := m.after 2) (by decide) (by decide) hm2 hm3
    right
    simp only [rfcValue, run, Derived.ofVoid, gloKsTrafficKeyIv, run_bind_eq, run_pure_eq, hkeyrun,
      hivrun]
    rw [toList_filled _ hkeylen, toList_filled _ hivlen, Hkdf.trafficKeyIv, hkey, hiv]
    rfl
  | finishedKey ts =>
    obtain ⟨hm0, hm1⟩ := h
    obtain ⟨okm, hrfc, hlen, hrun⟩ := gloHkdfExpandLabel_ok H ts labelFits_finished
      (by decide) (by decide) hm0 hm1
    right
    simp only [rfcValue, run, Derived.ofVoid, gloKsFinishedKey, run_bind_eq, run_pure_eq, hrun]
    rw [toList_filled _ hlen]
    exact hrfc

end Derivation

/-! ## 4. Without them some hash function tells the result from the RFC's value -/

/-- A hash function that tells whether an HMAC key begins with the byte `v`: its values are
blocks of `u` and blocks of `v`. -/
def markHash (u v : UInt8) (x : Bytes) : Vector UInt8 32 :=
  Vector.replicate 32 (if x.getD 0 0 = v ^^^ 0x5c then u else v)

/-- HMAC over `markHash` is a block of `u` or of `v`. -/
theorem hmac_markHash (u v : UInt8) (key text : Bytes) :
    ∃ b, (b = u ∨ b = v) ∧ hmac 64 (markHash u v) key text = Vector.replicate 32 b := by
  refine ⟨_, ?_, rfl⟩
  split
  · exact Or.inl rfl
  · exact Or.inr rfl

/-- For keys of one hash value it tells the first byte of the key. -/
theorem hmac_markHash_key (u v : UInt8) (key : Vector UInt8 32) (text : Bytes) :
    hmac 64 (markHash u v) key.toList text =
      Vector.replicate 32 (if key[0] = v then u else v) := by
  have hfirst : ∀ rest : Bytes,
      ((blockKey 64 (markHash u v) key.toList).map (· ^^^ 0x5c) ++ rest).getD 0 0 =
        key[0] ^^^ 0x5c := by
    intro rest
    simp [blockKey, List.getD_eq_getElem?_getD]
  simp only [hmac, markHash, hfirst, UInt8.xor_left_inj]

/-- Outside four bytes there are two different ones. -/
theorem exists_two_notMem {s : Finset UInt8} (h : s.card ≤ 4) :
    ∃ u v, u ∉ s ∧ v ∉ s ∧ u ≠ v := by
  have hsix : ({1, 2, 3, 4, 5, 6} : Finset UInt8).card = 6 := by decide
  have hle := Finset.le_card_sdiff s {1, 2, 3, 4, 5, 6}
  obtain ⟨u, hu, v, hv, huv⟩ := Finset.one_lt_card.mp
    (by omega : 1 < (({1, 2, 3, 4, 5, 6} : Finset UInt8) \ s).card)
  exact ⟨u, v, (Finset.mem_sdiff.mp hu).2, (Finset.mem_sdiff.mp hv).2, huv⟩

/-- Blocks of different bytes differ. -/
theorem replicate_inj {a b : UInt8} (h : Vector.replicate 32 a = Vector.replicate 32 b) :
    a = b := by
  have h0 := congrArg (fun w : Vector UInt8 32 => w[0]) h
  simpa using h0

section

variable {u v : UInt8} {junk : ℕ → UInt8}

/-- An expansion of one block that comes out right under `markHash` was allocated for. -/
theorem allocated_of_filled {n : ℕ} (secret : Vector UInt8 32) {label ctx : Bytes} {m : Mallocs}
    (hfits : LabelFits n label ctx) (h0 : 0 < n) (h32 : n ≤ 32) {old : Vector UInt8 n}
    (hu : u ≠ 0 ∧ u ≠ old.toList.getD 0 0) (hv : v ≠ 0 ∧ v ≠ old.toList.getD 0 0)
    (h : Hkdf.expandLabel 64 (markHash u v) secret.toList label ctx n =
      some (filled old
        ((gloHkdfExpandLabel (markHash u v) n secret label ctx).run m).1).toList) :
    m 0 = true ∧ m 1 = true := by
  obtain ⟨b, hb, hmac⟩ := hmac_markHash u v secret.toList ([] ++ labelInfo n label ctx ++
    [UInt8.ofNat (0 + 1)])
  have hb0 : b ≠ 0 := by rcases hb with rfl | rfl <;> [exact hu.1; exact hv.1]
  have hbold : b ≠ old.toList.getD 0 0 := by rcases hb with rfl | rfl <;> [exact hu.2; exact hv.2]
  have hget : ∀ c : UInt8, ((Vector.replicate 32 c).toList.take n).getD 0 0 = c := by
    intro c
    simp [List.getD_eq_getElem?_getD, List.getElem?_take_of_lt h0]
  rw [expandLabel_block _ _ hfits h0 h32, expandStep, hmac,
    gloHkdfExpandLabel_block _ _ hfits h0 h32] at h
  have hfirst := congrArg (fun l : Bytes => l.getD 0 0) (Option.some.inj h)
  simp only [hget] at hfirst
  cases hm0 : m 0 with
  | false =>
    rw [hm0, cond_false, filled_none] at hfirst
    exact absurd hfirst hbold
  | true =>
    cases hm1 : m 1 with
    | true => exact ⟨rfl, rfl⟩
    | false =>
      rw [hm0, cond_true, codeStep, Mallocs.after_apply, hm1, cond_false,
        toList_filled _ (by simp; omega), hget] at hfirst
      exact absurd hfirst hb0

/-- An expansion that comes out right under `markHash` had every HMAC allocated for. -/
theorem allocated_of_expand {L : ℕ} {prk : Vector UInt8 32} {info : Bytes} {m : Mallocs}
    (hu : u ≠ 0) (hv : v ≠ 0)
    (h : Hkdf.expand 64 (markHash u v) prk.toList info L =
      some (chained (codeStep (markHash u v) prk info m) L)) :
    ∀ i < blocks L, m i = true := by
  intro i hi
  by_contra hm
  have hlt : 32 * i < L := by
    simp only [blocks] at hi
    omega
  have hfirst := congrArg (fun r : Option Bytes => (r.getD []).getD (32 * i) 0) h
  have hL : L ≤ 255 * 32 := by
    by_contra hL
    rw [Hkdf.expand, if_neg hL] at h
    cases h
  rw [Hkdf.expand, if_pos hL] at hfirst
  simp only [Option.getD_some, getD_chained (by decide : 0 < 32) _ hlt] at hfirst
  obtain ⟨b, hb, hmac⟩ := hmac_markHash u v prk.toList
    (chain (expandStep 64 (markHash u v) prk.toList info) i ++ info ++ [UInt8.ofNat (i + 1)])
  rw [chain, chain, codeStep, Bool.eq_false_iff.mpr hm, cond_false, expandStep, hmac] at hfirst
  have hb0 : b = 0 := by simpa [List.getD_eq_getElem?_getD] using hfirst
  rcases hb with rfl | rfl
  · exact hu hb0
  · exact hv hb0

/-- A handshake or master secret that comes out right under `markHash` had all of its three
allocations made. -/
theorem allocated_of_next {derived secret : Vector UInt8 32} {ikm : Bytes} {m : Mallocs}
    (hu : u ≠ 0) (hv : v ≠ 0) (huv : u ≠ v) (hderived : v ≠ derived[0]) (hsecret : v ≠ secret[0])
    (h : Hkdf.nextSecret 64 (markHash u v) secret.toList ikm =
      some ((gloHkdfExtract (markHash u v)
        (some (filled derived ((gloHkdfExpandLabel (markHash u v) 32 secret (ascii "derived")
          (emptyHash (markHash u v)).toList).run m).1).toList) ikm).run
        ((gloHkdfExpandLabel (markHash u v) 32 secret (ascii "derived")
          (emptyHash (markHash u v)).toList).run m).2).1.toList) :
    m 0 = true ∧ m 1 = true ∧ m 2 = true := by
  have hfits := labelFits_derived (markHash u v)
  have hsalt : Hkdf.deriveSecret 64 (markHash u v) secret.toList (ascii "derived")
      (markHash u v []).toList = some (Vector.replicate 32 v).toList := by
    have hblock := expandLabel_block (markHash u v) secret hfits (by decide) (by decide)
    rw [expandStep, hmac_markHash_key, if_neg hsecret.symm] at hblock
    rw [Hkdf.deriveSecret, show (markHash u v []) = emptyHash (markHash u v) from rfl, hblock,
      List.take_of_length_le (by simp)]
  rw [Hkdf.nextSecret, hsalt, Option.map_some, Hkdf.extract, Option.getD_some, hmac_markHash_key,
    if_pos (by simp), gloHkdfExpandLabel_block _ _ hfits (by decide) (by decide)] at h
  -- what the extraction is salted with has to begin with `v`, and it has to be allocated for
  have hsalted : ∀ (salt : Vector UInt8 32) (m' : Mallocs),
      Vector.replicate 32 u = ((gloHkdfExtract (markHash u v) (some salt.toList) ikm).run m').1 →
      salt[0] = v ∧ m' 0 = true := by
    intro salt m' hrun
    rw [gloHkdfExtract_run] at hrun
    cases hm' : m' 0 with
    | false =>
      rw [hm', cond_false] at hrun
      exact absurd (replicate_inj hrun) hu
    | true =>
      rw [hm', cond_true, Hkdf.extract, Option.getD_some, hmac_markHash_key] at hrun
      by_cases hsv : salt[0] = v
      · exact ⟨hsv, rfl⟩
      · rw [if_neg hsv] at hrun
        exact absurd (replicate_inj hrun) huv
  have hres := hsalted _ _ (Vector.toList_inj.mp (Option.some.inj h))
  cases hm0 : m 0 with
  | false =>
    rw [hm0, cond_false, filled_none] at hres
    exact absurd hres.1.symm hderived
  | true =>
    cases hm1 : m 1 with
    | false =>
      rw [hm0, cond_true, codeStep, Mallocs.after_apply, hm1, cond_false] at hres
      have hzero : (0 : UInt8) = v := by simpa [filled, toVector] using hres.1
      exact absurd hzero.symm hv
    | true =>
      rw [hm0, cond_true] at hres
      exact ⟨rfl, rfl, hres.2⟩

/-- An extraction that comes out right under `markHash` was allocated for. -/
theorem allocated_of_extract {salt : Option Bytes} {ikm : Bytes} {m : Mallocs} (hu : u ≠ 0)
    (hv : v ≠ 0)
    (h : Hkdf.extract 64 (markHash u v) salt ikm =
      ((gloHkdfExtract (markHash u v) salt ikm).run m).1) : m 0 = true := by
  obtain ⟨b, hb, hmac⟩ := hmac_markHash u v (salt.getD (List.replicate 32 0)) ikm
  rw [gloHkdfExtract_run, Hkdf.extract, hmac] at h
  cases hm : m 0 with
  | true => rfl
  | false =>
    rw [hm, cond_false] at h
    have hb0 := replicate_inj h
    rcases hb with rfl | rfl
    · exact absurd hb0 hu
    · exact absurd hb0 hv

/-- An honest call of `glo_hkdf_expand` shows its failure or had its allocations made. -/
theorem allocated_of_ofExpand {L : ℕ} {prk : Vector UInt8 32} {info : Bytes} {m : Mallocs}
    (hu : u ≠ 0) (hv : v ≠ 0)
    (h : (∃ rc, (Derived.ofExpand [] ((gloHkdfExpand (markHash u v) L prk info).run m).1).rc =
        some rc ∧ rc ≠ 0) ∨
      Hkdf.expand 64 (markHash u v) prk.toList info L =
        some (Derived.ofExpand [] ((gloHkdfExpand (markHash u v) L prk info).run m).1).out) :
    255 * 32 < L ∨ m 0 = false ∨ ∀ i < blocks L, m (1 + i) = true := by
  by_cases hL : 255 * 32 < L
  · exact Or.inl hL
  · rw [gloHkdfExpand_run, if_neg hL] at h
    cases hm : m 0 with
    | false => exact Or.inr (Or.inl rfl)
    | true =>
      rw [hm, cond_true] at h
      rcases h with ⟨rc, hrc, hne⟩ | hval
      · exact absurd (Option.some.inj hrc).symm hne
      · exact Or.inr (Or.inr (allocated_of_expand (m := m.after 1) hu hv hval))

end

/-- Two marks that no buffer of the call begins with. -/
theorem exists_marks (j x : UInt8) :
    ∃ u v : UInt8, (u ≠ 0 ∧ u ≠ j) ∧ (v ≠ 0 ∧ v ≠ j) ∧ v ≠ x ∧ u ≠ v := by
  have hcard : ({0, j, x} : Finset UInt8).card ≤ 4 :=
    le_trans Finset.card_le_three (by decide)
  obtain ⟨u, v, hu, hv, huv⟩ := exists_two_notMem hcard
  simp only [Finset.mem_insert, Finset.mem_singleton, not_or] at hu hv
  exact ⟨u, v, ⟨hu.1, hu.2.1⟩, ⟨hv.1, hv.2.1⟩, hv.2.2, huv⟩

namespace Derivation

/-- A call that returns nothing is honest only with the RFC's value. -/
theorem honest_void {junk : ℕ → UInt8} {m : Mallocs} {d : Derivation} (h : d.Honest junk m)
    (hvoid : ∀ H, (d.run H junk m).rc = none) (H : Bytes → Vector UInt8 32) :
    d.rfcValue H = some (d.run H junk m).out := by
  rcases h H with ⟨rc, hrc, -⟩ | hval
  · rw [hvoid H] at hrc
    cases hrc
  · exact hval

/-- **A call that is honest for every hash function had its allocations made.**  Each case picks
a `markHash` under which neither zeros nor what lay in an unwritten buffer are a value. -/
theorem allocated_of_honest {junk : ℕ → UInt8} {m : Mallocs} {d : Derivation}
    (h : d.Honest junk m) : d.Allocated m := by
  have hfirst : ∀ k : ℕ, (unwritten junk (k + 1)).toList.getD 0 0 = junk 0 := by
    intro k
    simp [unwritten, List.getD_eq_getElem?_getD]
  cases d with
  | extract salt ikm =>
    obtain ⟨u, v, hu, hv, -, -⟩ := exists_marks 0 0
    have hval := honest_void h (fun _ => rfl) (markHash u v)
    exact allocated_of_extract hu.1 hv.1 (Vector.toList_inj.mp (Option.some.inj hval))
  | expand L prk info =>
    obtain ⟨u, v, hu, hv, -, -⟩ := exists_marks 0 0
    exact allocated_of_ofExpand hu.1 hv.1 (h (markHash u v))
  | expandLabel L secret label ctx =>
    obtain ⟨u, v, hu, hv, -, -⟩ := exists_marks 0 0
    by_cases hfits : LabelFits L label ctx
    · have hH := h (markHash u v)
      simp only [run, rfcValue, Hkdf.expandLabel, hkdfLabel_of_fits hfits, Option.bind_some,
        gloHkdfExpandLabel_of_fits _ secret hfits] at hH
      exact Or.inr (allocated_of_ofExpand hu.1 hv.1 hH)
    · exact Or.inl hfits
  | earlySecret psk =>
    obtain ⟨u, v, hu, hv, -, -⟩ := exists_marks 0 0
    have hval := honest_void h (fun _ => rfl) (markHash u v)
    have hrun : Hkdf.extract 64 (markHash u v) none
          ((psk.filter (· ≠ [])).getD (List.replicate 32 0)) =
        ((gloHkdfExtract (markHash u v) none
          ((psk.filter (· ≠ [])).getD (List.replicate 32 0))).run m).1 := by
      refine Vector.toList_inj.mp ((Option.some.inj hval).trans ?_)
      rcases psk with - | - | - <;> rfl
    exact allocated_of_extract hu.1 hv.1 hrun
  | handshakeSecret early ecdhe =>
    obtain ⟨u, v, hu, hv, hvx, huv⟩ := exists_marks (junk 0) early[0]
    have hval := honest_void h (fun _ => rfl) (markHash u v)
    exact allocated_of_next hu.1 hv.1 huv (by simpa [unwritten] using hv.2) hvx hval
  | deriveSecret secret label th =>
    obtain ⟨u, v, hu, hv, -, -⟩ := exists_marks (junk 0) 0
    have hval := honest_void h (fun _ => rfl) (markHash u v)
    by_cases hlabel : 6 + label.length ≤ 255
    · rw [← hfirst 31] at hu hv
      exact ⟨hlabel, allocated_of_filled secret (labelFits_hash th hlabel) (by decide) (by decide)
        hu hv hval⟩
    · have hnone : rfcValue (markHash u v) (deriveSecret secret label th) = none := by
        simp only [rfcValue, Hkdf.deriveSecret, Hkdf.expandLabel]
        rw [hkdfLabel_of_not_fits fun hf => hlabel hf.label_le]
        rfl
      rw [hnone] at hval
      cases hval
  | masterSecret hs =>
    obtain ⟨u, v, hu, hv, hvx, huv⟩ := exists_marks (junk 0) hs[0]
    have hval := honest_void h (fun _ => rfl) (markHash u v)
    exact allocated_of_next hu.1 hv.1 huv (by simpa [unwritten] using hv.2) hvx hval
  | trafficKeyIv ts =>
    obtain ⟨u, v, hu, hv, -, -⟩ := exists_marks (junk 0) 0
    have hval := honest_void h (fun _ => rfl) (markHash u v)
    rw [← hfirst 31] at hu hv
    have hkey := expandLabel_block (markHash u v) ts labelFits_key (by decide)
      (by decide)
    have hiv := expandLabel_block (markHash u v) ts labelFits_iv (by decide)
      (by decide)
    simp only [rfcValue, run, Derived.ofVoid, gloKsTrafficKeyIv, run_bind_eq, run_pure_eq,
      Hkdf.trafficKeyIv, hkey, hiv, Option.bind_some, Option.map_some] at hval
    -- both sides are a key of 32 bytes and an iv
    obtain ⟨hk, hi⟩ := List.append_inj (Option.some.inj hval) (by simp)
    obtain ⟨hm0, hm1⟩ := allocated_of_filled ts labelFits_key (by decide) (by decide) hu hv
      (hkey.trans (congrArg some hk))
    have hstate : ((gloHkdfExpandLabel (markHash u v) 32 ts (ascii "key") []).run m).2 =
        m.after 2 := by
      rw [gloHkdfExpandLabel_block _ ts labelFits_key (by decide) (by decide), hm0]
      rfl
    rw [hfirst 31, ← hfirst 11] at hu hv
    rw [hstate] at hi
    obtain ⟨hm2, hm3⟩ := allocated_of_filled (m := m.after 2) ts labelFits_iv (by decide)
      (by decide) hu hv (hiv.trans (congrArg some hi))
    exact ⟨hm0, hm1, hm2, hm3⟩
  | finishedKey ts =>
    obtain ⟨u, v, hu, hv, -, -⟩ := exists_marks (junk 0) 0
    have hval := honest_void h (fun _ => rfl) (markHash u v)
    rw [← hfirst 31] at hu hv
    exact allocated_of_filled ts labelFits_finished (by decide) (by decide) hu hv hval

/-- **No call fails silently exactly when the allocations it needs succeed**, for every input and
whatever lies in the buffers that were not written. -/
theorem honest_iff (junk : ℕ → UInt8) (m : Mallocs) (d : Derivation) :
    d.Honest junk m ↔ d.Allocated m :=
  ⟨allocated_of_honest, honest_of_allocated⟩

/-- An extraction whose HMAC finds no memory hands on zeros as a secret and says nothing. -/
theorem extract_silent :
    run (fun _ => Vector.replicate 32 1) (fun _ => 0) (fun _ => false) (extract none []) =
        { rc := none, out := List.replicate 32 0 } ∧
      ¬(extract none []).Honest (fun _ => 0) fun _ => false := by
  refine ⟨rfl, fun h => ?_⟩
  have hm : false = true := allocated_of_honest h
  cases hm

end Derivation

end Glossh.Mtls
