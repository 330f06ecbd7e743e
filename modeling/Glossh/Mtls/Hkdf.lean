/-
# `glo_hkdf.c`: HMAC and HKDF with allocations that may fail

The functions of `glo_hkdf.c` over a hash function `H`, which stands for tinynacl's SHA-256.
Every function of the file allocates, some of them several times, so they are written in a state
monad over the outcomes of the coming calls of `malloc`.

`glo_hmac_sha256` returns nothing: when its buffer cannot be allocated it writes zeros and its
caller goes on.  Each `_run` theorem below says what a function makes of every pattern of
outcomes; `codeStep` is the step of the HKDF-Expand chain with the zeros in it.
-/
import Glossh.Lib.Hkdf

namespace Glossh.Mtls

open Bytes Hkdf

/-! ## 1. Allocations -/

/-- Whether the coming calls of `malloc` succeed, in their order. -/
abbrev Mallocs := ℕ → Bool

/-- The outcomes that are left after `k` calls. -/
def Mallocs.after (m : Mallocs) (k : ℕ) : Mallocs := fun i => m (k + i)

/-- A call of `malloc`: whether it returned a block. -/
def mallocOk : StateM Mallocs Bool := fun m => (m 0, m.after 1)

theorem run_bind_eq {α β : Type} (x : StateM Mallocs α) (f : α → StateM Mallocs β) (m : Mallocs) :
    (x >>= f).run m = (f (x.run m).1).run (x.run m).2 := rfl

theorem run_pure_eq {α : Type} (a : α) (m : Mallocs) :
    (pure a : StateM Mallocs α).run m = (a, m) := rfl

@[simp] theorem mallocOk_run (m : Mallocs) : mallocOk.run m = (m 0, m.after 1) := rfl

@[simp] theorem Mallocs.after_apply (m : Mallocs) (k i : ℕ) : m.after k i = m (k + i) := rfl

@[simp] theorem Mallocs.after_after (m : Mallocs) (k l : ℕ) :
    (m.after k).after l = m.after (k + l) := by
  funext i
  simp only [after, Nat.add_assoc]

@[simp] theorem Mallocs.after_zero (m : Mallocs) : m.after 0 = m := by
  funext i
  simp only [after, Nat.zero_add]

/-! ## 2. The functions of the file -/

section

variable (H : Bytes → Vector UInt8 32)

/-- `glo_hmac_sha256`. -/
def gloHmacSha256 (key msg : Bytes) : StateM Mallocs (Vector UInt8 32) := do
  let k0 : Bytes := List.replicate 64 0
  let k0 :=
    if key.length > 64 then overwrite k0 0 (H key).toList
    else if key.length ≠ 0 then overwrite k0 0 key
    else k0
  let ipad := k0.map (· ^^^ 0x36)
  let opad := k0.map (· ^^^ 0x5c)
  match ← mallocOk with
  | true =>
    let ibuf := ipad ++ msg
    let ihash := H ibuf
    let obuf := opad ++ ihash.toList
    return H obuf
  | false => return Vector.replicate 32 0

/-- `glo_hkdf_extract`; a NULL salt is `none`. -/
def gloHkdfExtract (salt : Option Bytes) (ikm : Bytes) : StateM Mallocs (Vector UInt8 32) :=
  let zero : Bytes := List.replicate 32 0
  let salt :=
    match salt with
    | none => zero
    | some s => if s.length = 0 then zero else s
  gloHmacSha256 H salt ikm

/-- The loop of `glo_hkdf_expand`: what it still writes to `okm`.  `t` holds the `tlen` bytes of
the last block. -/
def gloHkdfExpandLoop (prk info : Bytes) (okmlen : ℕ) (t : Bytes) (done : ℕ) (counter : UInt8) :
    StateM Mallocs Bytes :=
  if done < okmlen then do
    let buf := t ++ info ++ [counter]
    let t ← gloHmacSha256 H prk buf
    let n := if okmlen - done < 32 then okmlen - done else 32
    let rest ← gloHkdfExpandLoop prk info okmlen t.toList (done + n) (counter + 1)
    return t.toList.take n ++ rest
  else
    return []
termination_by okmlen - done
decreasing_by split <;> omega

/-- `glo_hkdf_expand`: the bytes written to `okm` when it returns 0, `none` when it returns -1
and writes nothing. -/
def gloHkdfExpand (okmlen : ℕ) (prk : Vector UInt8 32) (info : Bytes) :
    StateM Mallocs (Option Bytes) := do
  if okmlen > 255 * 32 then
    return none
  else
    match ← mallocOk with
    | true =>
      let okm ← gloHkdfExpandLoop H prk.toList info okmlen [] 0 1
      return some okm
    | false => return none

/-- The array `info` of `glo_hkdf_expand_label`, up to its length `o`. -/
def labelInfo (outlen : ℕ) (label ctx : Bytes) : Bytes :=
  let fulllen := 6 + label.length
  [UInt8.ofNat (outlen >>> 8), UInt8.ofNat (outlen &&& 0xff)] ++ [UInt8.ofNat fulllen] ++
    ascii "tls13 " ++ label ++ [UInt8.ofNat ctx.length] ++ ctx

/-- `glo_hkdf_expand_label`; its result is that of `glo_hkdf_expand`. -/
def gloHkdfExpandLabel (outlen : ℕ) (secret : Vector UInt8 32) (label ctx : Bytes) :
    StateM Mallocs (Option Bytes) :=
  let fulllen := 6 + label.length
  if outlen > 0xffff then return none
  else if fulllen > 255 then return none
  else if ctx.length > 255 then return none
  else gloHkdfExpand H outlen secret (labelInfo outlen label ctx)

/-! ## 3. HMAC and extraction -/

/-- The array `k0` is the block key of RFC 2104. -/
theorem k0_eq_blockKey (key : Bytes) :
    (if key.length > 64 then overwrite (List.replicate 64 0) 0 (H key).toList
      else if key.length ≠ 0 then overwrite (List.replicate 64 0) 0 key
      else List.replicate 64 0) = blockKey 64 H key := by
  have hcopy : ∀ k : Bytes, overwrite (List.replicate 64 0) 0 k =
      k ++ List.replicate (64 - k.length) 0 := by
    intro k
    rw [overwrite, List.take_zero, List.nil_append, Nat.zero_add, List.drop_replicate]
  unfold blockKey
  split
  · exact hcopy _
  · rw [ite_length_overwrite]
    exact hcopy _

/-- **What `glo_hmac_sha256` writes**: the HMAC, or zeros when its allocation fails. -/
theorem gloHmacSha256_run (key msg : Bytes) (m : Mallocs) :
    (gloHmacSha256 H key msg).run m =
      (bif m 0 then hmac 64 H key msg else Vector.replicate 32 0, m.after 1) := by
  simp only [gloHmacSha256, k0_eq_blockKey, run_bind_eq, mallocOk_run]
  cases m 0 <;> rfl

/-- What `glo_hkdf_extract` writes. -/
theorem gloHkdfExtract_run (salt : Option Bytes) (ikm : Bytes) (m : Mallocs) :
    (gloHkdfExtract H salt ikm).run m =
      (bif m 0 then extract 64 H salt ikm else Vector.replicate 32 0, m.after 1) := by
  -- an empty salt and 32 zeros are padded to the same block
  have hnil : hmac 64 H (List.replicate 32 0) ikm = hmac 64 H [] ikm := rfl
  simp only [gloHkdfExtract, extract]
  rw [gloHmacSha256_run]
  cases salt with
  | none => rfl
  | some s =>
    by_cases hs : s.length = 0
    · have hs' : s = [] := List.length_eq_zero_iff.mp hs
      subst hs'
      simp only [List.length_nil, if_true, hnil, Option.getD_some]
    · simp only [if_neg hs, Option.getD_some]

/-! ## 4. Expansion -/

/-- The step of the expansion as the code takes it: zeros where the allocation of the HMAC
fails. -/
def codeStep (prk : Vector UInt8 32) (info : Bytes) (m : Mallocs) (i : ℕ) (t : Bytes) :
    Vector UInt8 32 :=
  bif m i then expandStep 64 H prk.toList info i t else Vector.replicate 32 0

/-- How many blocks an output of `L` bytes takes. -/
def blocks (L : ℕ) : ℕ := (L + 31) / 32

/-- **The loop writes the rest of the chain**, started before any block `i` that is still wanted.
The induction is on the bytes still to write. -/
theorem gloHkdfExpandLoop_run (prk : Vector UInt8 32) (info : Bytes) (L : ℕ) (m : Mallocs)
    (d : ℕ) : ∀ i, L - 32 * i = d → i ≤ blocks L →
      (gloHkdfExpandLoop H prk.toList info L (chain (codeStep H prk info m) i) (min (32 * i) L)
          (UInt8.ofNat (i + 1))).run (m.after i) =
        ((chained (codeStep H prk info m) L).drop (32 * i), m.after (blocks L)) := by
  induction d using Nat.strong_induction_on with
  | _ d ih =>
    intro i hd hi
    rw [gloHkdfExpandLoop]
    by_cases hlt : 32 * i < L
    · have hstep : (bif m i then hmac 64 H prk.toList
            (chain (codeStep H prk info m) i ++ info ++ [UInt8.ofNat (i + 1)])
          else Vector.replicate 32 0) = codeStep H prk info m i (chain (codeStep H prk info m) i) :=
        rfl
      have hsucc : i + 1 ≤ blocks L := by
        simp only [blocks]
        omega
      have hdone : min (32 * i) L + (if L - min (32 * i) L < 32 then L - min (32 * i) L else 32) =
          min (32 * (i + 1)) L := by
        split <;> omega
      have hcount : UInt8.ofNat (i + 1) + 1 = UInt8.ofNat (i + 1 + 1) := by
        rw [UInt8.ofNat_add (i + 1) 1]
        rfl
      have hmin : min (32 * i) L = 32 * i := Nat.min_eq_left (by omega)
      rw [if_pos (by omega)]
      simp only [run_bind_eq, run_pure_eq, gloHmacSha256_run, Mallocs.after_apply, Nat.add_zero,
        hstep, hdone, hcount, Mallocs.after_after]
      have hrest := ih (L - 32 * (i + 1)) (by omega) (i + 1) rfl hsucc
      rw [show chain (codeStep H prk info m) (i + 1) =
        (codeStep H prk info m i (chain (codeStep H prk info m) i)).toList from rfl] at hrest
      have htake : (codeStep H prk info m i (chain (codeStep H prk info m) i)).toList.take
            (if L - min (32 * i) L < 32 then L - min (32 * i) L else 32) =
          (chain (codeStep H prk info m) (i + 1)).take (L - 32 * i) := by
        rw [hmin, chain]
        split
        · rfl
        · rw [List.take_of_length_le (by simp), List.take_of_length_le (by simp; omega)]
      rw [hrest, htake, drop_chained (by decide) _ hlt]
    · have hend : i = blocks L := by
        simp only [blocks] at hi ⊢
        omega
      have hlen : (chained (codeStep H prk info m) L).length = L :=
        length_chained (by decide) _ L
      rw [if_neg (by omega), List.drop_eq_nil_of_le (by omega), hend]
      rfl

/-- **What `glo_hkdf_expand` does** under every pattern of allocations. -/
theorem gloHkdfExpand_run (L : ℕ) (prk : Vector UInt8 32) (info : Bytes) (m : Mallocs) :
    (gloHkdfExpand H L prk info).run m =
      if 255 * 32 < L then (none, m)
      else
        bif m 0 then
          (some (chained (codeStep H prk info (m.after 1)) L), m.after (1 + blocks L))
        else (none, m.after 1) := by
  have hloop := gloHkdfExpandLoop_run H prk info L (m.after 1) L 0 (by omega) (Nat.zero_le _)
  rw [Mallocs.after_zero, Mallocs.after_after] at hloop
  simp only [Nat.mul_zero, Nat.zero_min, List.drop_zero] at hloop
  unfold gloHkdfExpand
  by_cases hL : 255 * 32 < L
  · rw [if_pos hL, if_pos hL]
    rfl
  · rw [if_neg hL, if_neg hL]
    simp only [run_bind_eq, mallocOk_run]
    cases m 0 with
    | false => rfl
    | true =>
      simp only [run_bind_eq, run_pure_eq, cond_true]
      rw [show (gloHkdfExpandLoop H prk.toList info L [] 0 1).run (m.after 1) = _ from hloop]

/-- With the HMACs' allocations made, the chain of the code is the RFC's. -/
theorem chained_codeStep (prk : Vector UInt8 32) (info : Bytes) {m : Mallocs} {L : ℕ}
    (h : ∀ i < blocks L, m i = true) :
    chained (codeStep H prk info m) L = chained (expandStep 64 H prk.toList info) L := by
  refine chained_congr fun i hi => ?_
  funext t
  rw [codeStep, h i hi, cond_true]

/-- The length checks of `glo_hkdf_expand_label`. -/
structure LabelFits (outlen : ℕ) (label ctx : Bytes) : Prop where
  outlen_le : outlen ≤ 0xffff
  label_le : 6 + label.length ≤ 255
  ctx_le : ctx.length ≤ 255

/-- The array `info` is the structure `HkdfLabel`. -/
theorem hkdfLabel_of_fits {outlen : ℕ} {label ctx : Bytes} (h : LabelFits outlen label ctx) :
    hkdfLabel outlen label ctx = some (labelInfo outlen label ctx) := by
  have hfull : (ascii "tls13 " ++ label).length = 6 + label.length := by
    rw [List.length_append]
    rfl
  obtain ⟨h1, h2, h3⟩ := h
  rw [hkdfLabel, hfull, if_pos ⟨by omega, by omega, by omega⟩]
  simp only [labelInfo, shift_mask_eq_beBytes, List.append_assoc]

theorem hkdfLabel_of_not_fits {outlen : ℕ} {label ctx : Bytes}
    (h : ¬LabelFits outlen label ctx) : hkdfLabel outlen label ctx = none := by
  have hfull : (ascii "tls13 " ++ label).length = 6 + label.length := by
    rw [List.length_append]
    rfl
  rw [hkdfLabel, hfull, if_neg]
  rintro ⟨h1, h2, h3⟩
  exact h ⟨by omega, by omega, by omega⟩

/-- `glo_hkdf_expand_label` is `glo_hkdf_expand` on the array `info` when the lengths fit. -/
theorem gloHkdfExpandLabel_of_fits (secret : Vector UInt8 32) {outlen : ℕ} {label ctx : Bytes}
    (h : LabelFits outlen label ctx) :
    gloHkdfExpandLabel H outlen secret label ctx =
      gloHkdfExpand H outlen secret (labelInfo outlen label ctx) := by
  obtain ⟨h1, h2, h3⟩ := h
  simp only [gloHkdfExpandLabel]
  rw [if_neg (by omega), if_neg (by omega), if_neg (by omega)]

theorem gloHkdfExpandLabel_of_not_fits (secret : Vector UInt8 32) {outlen : ℕ}
    {label ctx : Bytes} (h : ¬LabelFits outlen label ctx) :
    gloHkdfExpandLabel H outlen secret label ctx = pure none := by
  simp only [gloHkdfExpandLabel]
  by_cases h1 : outlen > 0xffff
  · rw [if_pos h1]
  · by_cases h2 : 6 + label.length > 255
    · rw [if_neg h1, if_pos h2]
    · have h3 : ctx.length > 255 := by
        by_contra h3
        exact h ⟨by omega, by omega, by omega⟩
      rw [if_neg h1, if_neg h2, if_pos h3]

/-- One block: the expansions of the key schedule take two allocations. -/
theorem gloHkdfExpandLabel_block (secret : Vector UInt8 32) {outlen : ℕ} {label ctx : Bytes}
    (h : LabelFits outlen label ctx) (h0 : 0 < outlen) (h32 : outlen ≤ 32) (m : Mallocs) :
    (gloHkdfExpandLabel H outlen secret label ctx).run m =
      bif m 0 then
        (some
            ((codeStep H secret (labelInfo outlen label ctx) (m.after 1) 0 []).toList.take outlen),
          m.after 2)
      else (none, m.after 1) := by
  have hblocks : blocks outlen = 1 := by
    simp only [blocks]
    omega
  rw [gloHkdfExpandLabel_of_fits H secret h, gloHkdfExpand_run, if_neg (by omega), hblocks,
    chained_block _ h0 h32]

end

end Glossh.Mtls
