/-
# A ledger of what is acquired and released

Descriptors, blocks of memory, locks: a component acquires them from its environment and has to
release each of them once.  The ledger lists both, latest first.

The environment's part is that what it hands out is not held already (`Fresh`), the component's
that it releases only what it holds (`Owned`).  Then the acquisitions and the releases of a
resource take turns, and where nothing is held at the end each acquisition was followed by exactly
one release (`balanced`).
-/
import Mathlib.Data.List.Perm.Lattice

namespace Glossh

/-- An entry of a ledger. -/
inductive Entry (α : Type) where
  | acquired (a : α)
  | released (a : α)
deriving DecidableEq

namespace Ledger

variable {α : Type} [DecidableEq α]

/-- What is held after the entries, with repetitions. -/
def held : List (Entry α) → List α
  | [] => []
  | .acquired a :: l => a :: held l
  | .released a :: l => (held l).erase a

/-- What was acquired was not held. -/
def Fresh : List (Entry α) → Prop
  | [] => True
  | .acquired a :: l => a ∉ held l ∧ Fresh l
  | .released _ :: l => Fresh l

/-- What was released was held. -/
def Owned : List (Entry α) → Prop
  | [] => True
  | .acquired _ :: l => Owned l
  | .released a :: l => a ∈ held l ∧ Owned l

instance freshDecidable : ∀ l : List (Entry α), Decidable (Fresh l)
  | [] => isTrue trivial
  | .acquired a :: l =>
    have := freshDecidable l
    inferInstanceAs (Decidable (a ∉ held l ∧ Fresh l))
  | .released _ :: l => freshDecidable l

instance ownedDecidable : ∀ l : List (Entry α), Decidable (Owned l)
  | [] => isTrue trivial
  | .acquired _ :: l => ownedDecidable l
  | .released a :: l =>
    have := ownedDecidable l
    inferInstanceAs (Decidable (a ∈ held l ∧ Owned l))

@[simp] theorem held_acquired (a : α) (l : List (Entry α)) :
    held (.acquired a :: l) = a :: held l := rfl

@[simp] theorem held_released (a : α) (l : List (Entry α)) :
    held (.released a :: l) = (held l).erase a := rfl

/-- **Releases of what is held** leave the rest. -/
theorem held_releases {l r : List α} {ledger : List (Entry α)} (h : (held ledger).Perm (l ++ r)) :
    (held (l.map .released ++ ledger)).Perm r ∧
      (Owned ledger → Owned (l.map .released ++ ledger)) := by
  induction l generalizing r with
  | nil => exact ⟨h, id⟩
  | cons a l ih =>
    obtain ⟨hheld, howned⟩ := ih (h.trans List.perm_middle.symm)
    refine ⟨?_, fun hledger => ⟨hheld.mem_iff.mpr (List.mem_cons_self ..), howned hledger⟩⟩
    have herase := hheld.erase a
    rwa [List.erase_cons_head] at herase

/-- Releases need nothing of the environment. -/
theorem Fresh.releases {l : List α} {ledger : List (Entry α)} (h : Fresh ledger) :
    Fresh (l.map .released ++ ledger) := by
  induction l with
  | nil => exact h
  | cons a l ih => exact ih

/-- Resources that the environment keeps apart are held once. -/
theorem Fresh.nodup {l : List (Entry α)} (h : Fresh l) : (held l).Nodup := by
  induction l with
  | nil => exact List.nodup_nil
  | cons e l ih =>
    cases e with
    | acquired a => exact List.nodup_cons.mpr ⟨h.1, ih h.2⟩
    | released a => exact (ih h).erase a

/-- An earlier ledger is as good as a later one. -/
theorem Fresh.of_suffix {l l' : List (Entry α)} (h : Fresh l) (hle : l' <:+ l) : Fresh l' := by
  induction l with
  | nil =>
    rw [List.suffix_nil.mp hle]
    exact h
  | cons e l ih =>
    rcases List.suffix_cons_iff.mp hle with rfl | hrest
    · exact h
    · cases e with
      | acquired a => exact ih h.2 hrest
      | released a => exact ih h hrest

theorem Owned.of_suffix {l l' : List (Entry α)} (h : Owned l) (hle : l' <:+ l) : Owned l' := by
  induction l with
  | nil =>
    rw [List.suffix_nil.mp hle]
    exact h
  | cons e l ih =>
    rcases List.suffix_cons_iff.mp hle with rfl | hrest
    · exact h
    · cases e with
      | acquired a => exact ih h hrest
      | released a => exact ih h.2 hrest

/-- What was acquired was released, or it is held. -/
theorem Owned.count_acquired {l : List (Entry α)} (h : Owned l) (a : α) :
    l.count (.acquired a) = l.count (.released a) + (held l).count a := by
  induction l with
  | nil => rfl
  | cons e l ih =>
    cases e with
    | acquired b =>
      have hrest := ih h
      simp only [held_acquired, List.count_cons, beq_iff_eq, Entry.acquired.injEq, reduceCtorEq,
        if_false]
      omega
    | released b =>
      obtain ⟨hb, howned⟩ := h
      have hrest := ih howned
      by_cases hab : b = a
      · subst hab
        have hpos := List.count_pos_iff.mpr hb
        simp only [held_released, List.count_cons, List.count_erase_self, beq_iff_eq, reduceCtorEq,
          if_true, if_false]
        omega
      · simp only [held_released, List.count_cons, List.count_erase_of_ne (Ne.symm hab), beq_iff_eq,
          Entry.released.injEq, reduceCtorEq, hab, if_false]
        omega

/-- **Acquisitions and releases of a resource take turns.** -/
theorem take_turns {l : List (Entry α)} (hfresh : Fresh l) (howned : Owned l) (a : α) :
    l.count (.released a) ≤ l.count (.acquired a) ∧
      l.count (.acquired a) ≤ l.count (.released a) + 1 := by
  have hcount := howned.count_acquired a
  have hone := List.nodup_iff_count_le_one.mp hfresh.nodup a
  omega

/-- **Where nothing is held, each acquisition had its release.** -/
theorem balanced {l : List (Entry α)} (howned : Owned l) (hheld : held l = []) (a : α) :
    l.count (.acquired a) = l.count (.released a) := by
  rw [howned.count_acquired a, hheld, List.count_nil, Nat.add_zero]

end Ledger

end Glossh
