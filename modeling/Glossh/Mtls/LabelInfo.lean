/-
# The array `info` of `glo_hkdf_expand_label`

`glo_hkdf_expand_label` packs a length, a label and a context into an array of 514 bytes, with
one byte for each of the two lengths.  Here every store is checked against the array.  A label is
a C string, so it holds no zero byte, and it lies in memory beside the array; that keeps the sum
`6 + labellen` from wrapping.

The array takes what the guards let through (`gloHkdfExpandLabelInfo_of_fits`), and what is
packed determines what it was packed from (`gloHkdfExpandLabelInfo_separates`).
-/
import Glossh.Mtls.Hkdf
import Glossh.Mtls.Record

namespace Glossh.Mtls

open Bytes Hkdf

/-! ## 1. The array -/

/-- The size of the array `info`. -/
def labelInfoSize : ℕ := 2 + 1 + 255 + 1 + 255

/-- A label: the characters in front of its terminator.  It shares an address space of `2 ^ 32`
bytes with the array. -/
structure Label where
  chars : Bytes
  nul_free : 0 ∉ chars
  addressable : chars.length + 1 + labelInfoSize ≤ 2 ^ 32

/-- `glo_hkdf_expand_label` up to its call of `glo_hkdf_expand`, on an array that holds `info`:
the string it hands on, or nothing when it returns -1.  The value is `none` where a store would
leave the array. -/
def gloHkdfExpandLabelInfo (info : Vector UInt8 labelInfoSize) (outlen : ℕ) (label : Label)
    (ctx : Bytes) : Option (Option Bytes) :=
  let labellen := label.chars.length
  let fulllen := sizeT (6 + labellen)
  if outlen > 0xffff then some none
  else if fulllen > 255 then some none
  else if ctx.length > 255 then some none
  else do
    let o := 0
    let info ← store? info.toList o [UInt8.ofNat (outlen >>> 8)]
    let o := o + 1
    let info ← store? info o [UInt8.ofNat (outlen &&& 0xff)]
    let o := o + 1
    let info ← store? info o [UInt8.ofNat fulllen]
    let o := o + 1
    let info ← store? info o (ascii "tls13 ")
    let o := o + 6
    let info ← store? info o label.chars
    let o := o + labellen
    let info ← store? info o [UInt8.ofNat ctx.length]
    let o := o + 1
    let info ← (if ctx.length ≠ 0 then store? info o ctx else some info)
    let o := if ctx.length ≠ 0 then o + ctx.length else o
    let s ← slice? info 0 o
    return some s

/-! ## 2. What is packed -/

theorem length_labelInfo (outlen : ℕ) (label ctx : Bytes) :
    (labelInfo outlen label ctx).length = 2 + 1 + (6 + label.length) + 1 + ctx.length := by
  have hprefix : (ascii "tls13 ").length = 6 := rfl
  simp only [labelInfo, List.length_append, List.length_cons, List.length_nil, hprefix]
  omega

/-- **The stores fill the array from its beginning**, each behind the one before. -/
theorem gloHkdfExpandLabelInfo_of_fits (info : Vector UInt8 labelInfoSize) {outlen : ℕ}
    {label : Label} {ctx : Bytes} (h : LabelFits outlen label.chars ctx) :
    gloHkdfExpandLabelInfo info outlen label ctx =
      some (some (labelInfo outlen label.chars ctx)) := by
  obtain ⟨houtlen, hlabel, hctx⟩ := h
  have hfull : sizeT (6 + label.chars.length) = 6 + label.chars.length :=
    Nat.mod_eq_of_lt (by omega)
  have hsize : info.toList.length = 514 := info.length_toList
  have hprefix : (ascii "tls13 ").length = 6 := rfl
  simp only [gloHkdfExpandLabelInfo, hfull]
  rw [if_neg (by omega), if_neg (by omega), if_neg (by omega)]
  generalize hm0 : info.toList = m0 at hsize
  obtain ⟨m1, h1, l1, p1⟩ := store?_after_prefix 0 [UInt8.ofNat (outlen >>> 8)]
    (List.nil_prefix : [] <+: m0) rfl (by rw [List.length_singleton]; omega)
  obtain ⟨m2, h2, l2, p2⟩ := store?_after_prefix (0 + 1) [UInt8.ofNat (outlen &&& 0xff)] p1 rfl
    (by rw [List.length_singleton]; omega)
  obtain ⟨m3, h3, l3, p3⟩ := store?_after_prefix (0 + 1 + 1)
    [UInt8.ofNat (6 + label.chars.length)] p2 rfl (by rw [List.length_singleton]; omega)
  obtain ⟨m4, h4, l4, p4⟩ := store?_after_prefix (0 + 1 + 1 + 1) (ascii "tls13 ") p3 rfl
    (by omega)
  obtain ⟨m5, h5, l5, p5⟩ := store?_after_prefix (0 + 1 + 1 + 1 + 6) label.chars p4
    (by simp only [List.length_append, hprefix, List.length_singleton, List.length_nil]) (by omega)
  obtain ⟨m6, h6, l6, p6⟩ := store?_after_prefix (0 + 1 + 1 + 1 + 6 + label.chars.length)
    [UInt8.ofNat ctx.length] p5
    (by simp only [List.length_append, hprefix, List.length_singleton, List.length_nil])
    (by rw [List.length_singleton]; omega)
  obtain ⟨m7, h7, -, p7⟩ := store?_after_prefix (0 + 1 + 1 + 1 + 6 + label.chars.length + 1)
    ctx p6 (by simp only [List.length_append, hprefix, List.length_singleton, List.length_nil])
    (by omega)
  have hguard : (if ctx.length ≠ 0 then
      store? m6 (0 + 1 + 1 + 1 + 6 + label.chars.length + 1) ctx else some m6) = some m7 := by
    rw [ite_length_store? ctx (by omega)]
    exact h7
  have hlen : (if ctx.length ≠ 0 then 0 + 1 + 1 + 1 + 6 + label.chars.length + 1 + ctx.length
      else 0 + 1 + 1 + 1 + 6 + label.chars.length + 1) =
        0 + 1 + 1 + 1 + 6 + label.chars.length + 1 + ctx.length := by
    split <;> omega
  have hread := slice?_of_prefix p7
    (by simp only [List.length_append, hprefix, List.length_singleton, List.length_nil] :
      _ = 0 + 1 + 1 + 1 + 6 + label.chars.length + 1 + ctx.length)
  simp only [h1, h2, h3, h4, h5, h6, hguard, hlen, hread, Option.bind_eq_bind, Option.bind_some,
    Option.pure_def]
  rfl

/-- What the guards do not let through is rejected. -/
theorem gloHkdfExpandLabelInfo_of_not_fits (info : Vector UInt8 labelInfoSize) {outlen : ℕ}
    {label : Label} {ctx : Bytes} (h : ¬LabelFits outlen label.chars ctx) :
    gloHkdfExpandLabelInfo info outlen label ctx = some none := by
  have haddress := label.addressable
  have hfull : sizeT (6 + label.chars.length) = 6 + label.chars.length :=
    Nat.mod_eq_of_lt (by rw [labelInfoSize] at haddress; omega)
  simp only [gloHkdfExpandLabelInfo, hfull]
  by_cases h1 : outlen > 0xffff
  · rw [if_pos h1]
  · by_cases h2 : 6 + label.chars.length > 255
    · rw [if_neg h1, if_pos h2]
    · have h3 : ctx.length > 255 := by
        by_contra h3
        exact h ⟨by omega, by omega, by omega⟩
      rw [if_neg h1, if_neg h2, if_pos h3]

/-- **`glo_hkdf_expand_label` hands on what the array holds.** -/
theorem gloHkdfExpandLabel_eq_info (H : Bytes → Vector UInt8 32)
    (info : Vector UInt8 labelInfoSize) (outlen : ℕ) (secret : Vector UInt8 32) (label : Label)
    (ctx : Bytes) :
    some (gloHkdfExpandLabel H outlen secret label.chars ctx) =
      (gloHkdfExpandLabelInfo info outlen label ctx).map fun
        | some s => gloHkdfExpand H outlen secret s
        | none => pure none := by
  by_cases h : LabelFits outlen label.chars ctx
  · rw [gloHkdfExpandLabelInfo_of_fits info h, gloHkdfExpandLabel_of_fits H secret h]
    rfl
  · rw [gloHkdfExpandLabelInfo_of_not_fits info h, gloHkdfExpandLabel_of_not_fits H secret h]
    rfl

/-! ## 3. Domains are separate -/

/-- **The info string fits its array, is RFC 8446's, and belongs to one purpose.**  No call leaves
the array; what a call that is not rejected hands on is the structure `HkdfLabel`; and two calls
that hand on the same string have the same length, label and context. -/
theorem gloHkdfExpandLabelInfo_separates (info : Vector UInt8 labelInfoSize) (outlen : ℕ)
    (label : Label) (ctx : Bytes) :
    (∃ r, gloHkdfExpandLabelInfo info outlen label ctx = some r ∧
      ∀ s, r = some s →
        s.length ≤ labelInfoSize ∧ hkdfLabel outlen label.chars ctx = some s) ∧
    ∀ info' outlen' label' ctx' s,
      gloHkdfExpandLabelInfo info outlen label ctx = some (some s) →
      gloHkdfExpandLabelInfo info' outlen' label' ctx' = some (some s) →
      outlen = outlen' ∧ label = label' ∧ ctx = ctx' := by
  have hbuilt : ∀ (info : Vector UInt8 labelInfoSize) outlen (label : Label) ctx s,
      gloHkdfExpandLabelInfo info outlen label ctx = some (some s) →
        s.length ≤ labelInfoSize ∧ hkdfLabel outlen label.chars ctx = some s := by
    intro info outlen label ctx s hs
    by_cases h : LabelFits outlen label.chars ctx
    · rw [gloHkdfExpandLabelInfo_of_fits info h] at hs
      cases hs
      refine ⟨?_, hkdfLabel_of_fits h⟩
      have hlabel := h.label_le
      have hctx := h.ctx_le
      rw [length_labelInfo, labelInfoSize]
      omega
    · rw [gloHkdfExpandLabelInfo_of_not_fits info h] at hs
      cases hs
  constructor
  · by_cases h : LabelFits outlen label.chars ctx
    · have hrun := gloHkdfExpandLabelInfo_of_fits info h
      refine ⟨_, hrun, fun s hs => ?_⟩
      rw [hs] at hrun
      exact hbuilt info outlen label ctx s hrun
    · refine ⟨_, gloHkdfExpandLabelInfo_of_not_fits info h, fun s hs => ?_⟩
      cases hs
  · intro info' outlen' label' ctx' s hs hs'
    obtain ⟨houtlen, hlabel, hctx⟩ :=
      hkdfLabel_inj (hbuilt info outlen label ctx s hs).2 (hbuilt info' outlen' label' ctx' s hs').2
    refine ⟨houtlen, ?_, hctx⟩
    cases label
    cases label'
    simp only [Label.mk.injEq]
    exact hlabel

end Glossh.Mtls
