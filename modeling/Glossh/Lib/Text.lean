/-
# Text: strings that end at a zero byte, and a stream cut into lines

Two readings of a byte string that programs in C share, with nothing in them of one program:

* `cstr m`, the string that a memory begins with, up to its first zero byte.  A comparison of such
  strings sees what stands in front of the zero and nothing behind it (`cstr_eq_iff`);
* the lines of a stream.  A stream is at every moment its complete lines and the line that is still
  open, and one more item either closes that line or extends it (`completeLines_concat_of_sep`,
  `openLine_concat`).  `edit` is what the erasing items of a line leave of it.
-/
import Glossh.Lib.Bytes
import Mathlib.Data.List.Induction

namespace Glossh
namespace Text

open Bytes

/-! ## 1. Strings that end at a zero byte -/

/-- The string that a memory begins with. -/
def cstr (m : Bytes) : Bytes := m.takeWhile (· ≠ 0)

/-- No zero byte stands in the string. -/
theorem zero_notMem_cstr (m : Bytes) : 0 ∉ cstr m := by
  intro h
  have hne := List.mem_takeWhile_imp h
  simp at hne

/-- A string with its zero behind it is read whole, whatever follows. -/
theorem cstr_append {s : Bytes} (h : 0 ∉ s) (m : Bytes) : cstr (s ++ 0 :: m) = s := by
  have hall : ∀ c ∈ s, decide (c ≠ 0) = true := by
    intro c hc
    rw [decide_eq_true_eq]
    rintro rfl
    exact h hc
  rw [cstr, List.takeWhile_append_of_pos hall]
  simp

theorem cstr_of_zero_notMem {s : Bytes} (h : 0 ∉ s) : cstr s = s := by
  rw [cstr, List.takeWhile_eq_self_iff]
  intro c hc
  rw [decide_eq_true_eq]
  rintro rfl
  exact h hc

/-- Zeros behind a string change nothing. -/
theorem cstr_append_zeros (s : Bytes) (k : ℕ) : cstr (s ++ List.replicate k 0) = cstr s := by
  have hzeros : (List.replicate k (0 : UInt8)).takeWhile (· ≠ 0) = [] := by
    cases k with
    | zero => rfl
    | succ k => rw [List.replicate_succ, List.takeWhile_cons_of_neg (by decide)]
  by_cases h : ∀ c ∈ s, decide (c ≠ 0) = true
  · rw [cstr, List.takeWhile_append_of_pos h, hzeros, List.append_nil, cstr,
      List.takeWhile_eq_self_iff.mpr h]
  · have hlen : (s.takeWhile (· ≠ 0)).length ≠ s.length := by
      intro hlen
      exact h (List.takeWhile_eq_self_iff.mp
        ((List.takeWhile_prefix _).eq_of_length hlen))
    rw [cstr, List.takeWhile_append, if_neg hlen, cstr]

/-- What a string is equal to decides nothing about the bytes behind its zero. -/
theorem cstr_eq_iff {m s : Bytes} (hs : 0 ∉ s) : cstr m = s ↔ m = s ∨ s ++ [0] <+: m := by
  constructor
  · intro h
    have hsplit : m = s ++ m.dropWhile (· ≠ 0) := by
      rw [← h, cstr, List.takeWhile_append_dropWhile]
    rcases hd : m.dropWhile (· ≠ 0) with _ | ⟨c, rest⟩
    · rw [hd, List.append_nil] at hsplit
      exact Or.inl hsplit
    · have hc : c = 0 := by
        have hhead := List.head?_dropWhile_not (fun c : UInt8 => decide (c ≠ 0)) m
        rw [hd] at hhead
        simpa using hhead
      refine Or.inr ⟨rest, ?_⟩
      rw [hsplit, hd, hc, List.append_assoc]
      rfl
  · rintro (rfl | ⟨rest, rfl⟩)
    · exact cstr_of_zero_notMem hs
    · rw [List.append_assoc]
      exact cstr_append hs rest

/-! ## 2. Lines -/

section

variable {α : Type} (sep : α → Bool)

/-- The lines of the stream that a separator has closed. -/
def completeLines (s : List α) : List (List α) := (s.splitOnP sep).dropLast

/-- What stands behind the last separator. -/
def openLine (s : List α) : List α := (s.splitOnP sep).getLastD []

@[simp] theorem completeLines_nil : completeLines sep [] = [] := rfl

@[simp] theorem openLine_nil : openLine sep [] = [] := rfl

theorem splitOnP_eq (s : List α) : s.splitOnP sep = completeLines sep s ++ [openLine sep s] := by
  have hne := List.splitOnP_ne_nil sep s
  rw [completeLines, openLine, List.getLastD_eq_getLast?, List.getLast?_eq_some_getLast hne,
    Option.getD_some, List.dropLast_concat_getLast]

variable {sep} {c : α}

theorem lines_of_splitOnP {s : List α} {L : List (List α)} {l : List α}
    (h : s.splitOnP sep = L ++ [l]) : completeLines sep s = L ∧ openLine sep s = l := by
  rw [completeLines, openLine, h]
  exact ⟨List.dropLast_concat, List.getLastD_concat⟩

/-- A separator closes the open line. -/
theorem splitOnP_concat_of_sep (h : sep c = true) (s : List α) :
    (s ++ [c]).splitOnP sep = s.splitOnP sep ++ [[]] := List.splitOnP_append_cons s [] h

theorem completeLines_concat_of_sep (h : sep c = true) (s : List α) :
    completeLines sep (s ++ [c]) = completeLines sep s ++ [openLine sep s] := by
  rw [completeLines, splitOnP_concat_of_sep h, List.dropLast_concat, splitOnP_eq]

theorem openLine_concat_of_sep (h : sep c = true) (s : List α) :
    openLine sep (s ++ [c]) = [] := by
  rw [openLine, splitOnP_concat_of_sep h, List.getLastD_concat]

/-- Any other item extends it.  The induction is on the items in front of it. -/
theorem splitOnP_concat (h : sep c = false) (s : List α) :
    (s ++ [c]).splitOnP sep = completeLines sep s ++ [openLine sep s ++ [c]] := by
  induction s with
  | nil =>
    rw [List.nil_append, List.splitOnP_eq_singleton]
    · rfl
    · intro x hx
      rw [List.mem_singleton.mp hx, h]
  | cons x s ih =>
    have hsplit := List.splitOnP_cons_eq_if_modifyHead (p := sep) x s
    rw [List.cons_append, List.splitOnP_cons_eq_if_modifyHead, ih]
    rw [splitOnP_eq sep s] at hsplit
    by_cases hx : sep x = true
    · rw [if_pos hx] at hsplit ⊢
      obtain ⟨hcomplete, hopen⟩ := lines_of_splitOnP (L := [] :: completeLines sep s) hsplit
      rw [hcomplete, hopen, List.cons_append]
    · rw [if_neg hx] at hsplit ⊢
      rcases hlines : completeLines sep s with _ | ⟨l, ls⟩
      · rw [hlines] at hsplit
        obtain ⟨hcomplete, hopen⟩ := lines_of_splitOnP (L := []) hsplit
        rw [hcomplete, hopen]
        rfl
      · rw [hlines] at hsplit
        obtain ⟨hcomplete, hopen⟩ := lines_of_splitOnP (L := (x :: l) :: ls) hsplit
        rw [hcomplete, hopen]
        rfl

theorem completeLines_concat (h : sep c = false) (s : List α) :
    completeLines sep (s ++ [c]) = completeLines sep s := by
  rw [completeLines, splitOnP_concat h, List.dropLast_concat]

theorem openLine_concat (h : sep c = false) (s : List α) :
    openLine sep (s ++ [c]) = openLine sep s ++ [c] := by
  rw [openLine, splitOnP_concat h, List.getLastD_concat]

/-! ## 3. Editing a line -/

/-- What is left of a line in which the items `erase` delete the one in front of them. -/
def edit (erase : α → Bool) (s : List α) : List α :=
  s.foldl (fun l c => if erase c then l.dropLast else l ++ [c]) []

@[simp] theorem edit_nil (erase : α → Bool) : edit erase [] = [] := rfl

theorem edit_concat (erase : α → Bool) (s : List α) (c : α) :
    edit erase (s ++ [c]) = if erase c then (edit erase s).dropLast else edit erase s ++ [c] := by
  rw [edit, List.foldl_append]
  rfl

end

end Text
end Glossh
