/-
# Machines that share a state

Several owners run operations on one state.  A trace is a list of operations tagged with their
owners; what an owner would get alone is the run of its own operations from the start.

An operation is `undisturbed` when it finds the state as its owner's last operation left it, or
does not look at the state at all.  `exec_eq_alone`: in a trace of undisturbed operations every
owner gets what it would get alone.

A condition on a trace looks at the operations only (`Meets`).  `Exclusive` is one: an operation
that resets the state comes while nobody else uses it, every other one comes right behind one of
its own owner.  `Exclusive.undisturbed`, `lastOwner_of_inUse`: then the operations are undisturbed,
and the owner of the last one is the only one that uses the state.
-/
import Mathlib.Logic.Function.Basic

namespace Glossh

variable {S σ Op Out : Type}

/-- The shared state, the state each owner's last operation left, and what each owner got. -/
structure Shared (S σ Out : Type) where
  current : σ
  left : S → σ
  outputs : S → List Out

namespace Shared

/-- Before the first operation. -/
def start (s : σ) : Shared S σ Out := ⟨s, fun _ => s, fun _ => []⟩

/-- An operation of an owner. -/
def step [DecidableEq S] (run : Op → σ → Out × σ) (t : Shared S σ Out) (e : S × Op) :
    Shared S σ Out where
  current := (run e.2 t.current).2
  left := Function.update t.left e.1 (run e.2 t.current).2
  outputs := Function.update t.outputs e.1 (t.outputs e.1 ++ [(run e.2 t.current).1])

/-- A trace. -/
def exec [DecidableEq S] (run : Op → σ → Out × σ) (t : Shared S σ Out) (l : List (S × Op)) :
    Shared S σ Out := l.foldl (step run) t

end Shared

/-- The operations of one owner. -/
def ownOps [DecidableEq S] (a : S) (l : List (S × Op)) : List Op :=
  l.filterMap fun e => if e.1 = a then some e.2 else none

/-- A run of operations with nobody else there: the outputs and the state. -/
def alone (run : Op → σ → Out × σ) : σ → List Op → List Out × σ
  | s, [] => ([], s)
  | s, op :: l => ((run op s).1 :: (alone run (run op s).2 l).1, (alone run (run op s).2 l).2)

/-- Every operation of a trace meets a condition on those before it. -/
def Meets (cond : List (S × Op) → S × Op → Prop) : List (S × Op) → List (S × Op) → Prop
  | _, [] => True
  | before, e :: l => cond before e ∧ Meets cond (before ++ [e]) l

section

variable {cond : List (S × Op) → S × Op → Prop} {before l : List (S × Op)}

instance meetsDecidable [∀ before e, Decidable (cond before e)] :
    ∀ before l : List (S × Op), Decidable (Meets cond before l)
  | _, [] => .isTrue trivial
  | before, e :: l =>
    have := meetsDecidable (before ++ [e]) l
    inferInstanceAs (Decidable (cond before e ∧ Meets cond (before ++ [e]) l))

/-- **The induction over traces**: what holds before and is kept by every operation that meets the
condition holds behind the trace. -/
theorem Meets.invariant (P : List (S × Op) → Prop) (hbefore : P before)
    (hstep : ∀ before e, P before → cond before e → P (before ++ [e]))
    (h : Meets cond before l) : P (before ++ l) := by
  induction l generalizing before with
  | nil =>
    rw [List.append_nil]
    exact hbefore
  | cons e l ih =>
    have hend := ih (hstep before e hbefore h.1) h.2
    rwa [List.append_assoc] at hend

/-- A weaker condition. -/
theorem Meets.mono {cond' : List (S × Op) → S × Op → Prop}
    (hle : ∀ before e, cond before e → cond' before e) (h : Meets cond before l) :
    Meets cond' before l := by
  induction l generalizing before with
  | nil => trivial
  | cons e l ih => exact ⟨hle before e h.1, ih h.2⟩

/-- A part of a trace, and the operation behind it. -/
theorem Meets.of_append_cons {m : List (S × Op)} {e : S × Op}
    (h : Meets cond before (l ++ e :: m)) : Meets cond before l ∧ cond (before ++ l) e := by
  induction l generalizing before with
  | nil =>
    rw [List.append_nil]
    exact ⟨trivial, h.1⟩
  | cons x l ih =>
    obtain ⟨hl, he⟩ := ih h.2
    rw [List.append_assoc] at he
    exact ⟨⟨h.1, hl⟩, he⟩

end

/-- The owner of the last operation. -/
def lastOwner (l : List (S × Op)) : Option S := l.getLast?.map Prod.fst

theorem lastOwner_append (l : List (S × Op)) (e : S × Op) : lastOwner (l ++ [e]) = some e.1 := by
  rw [lastOwner, List.getLast?_concat]
  rfl

section

variable [DecidableEq S] {run : Op → σ → Out × σ}

theorem alone_append (s : σ) (l : List Op) (op : Op) :
    alone run s (l ++ [op]) =
      ((alone run s l).1 ++ [(run op (alone run s l).2).1], (run op (alone run s l).2).2) := by
  induction l generalizing s with
  | nil => rfl
  | cons x l ih => rw [List.cons_append, alone, ih, alone, List.cons_append]

theorem ownOps_append (a : S) (l : List (S × Op)) (e : S × Op) :
    ownOps a (l ++ [e]) = ownOps a l ++ if e.1 = a then [e.2] else [] := by
  rw [ownOps, ownOps, List.filterMap_append]
  congr 1
  by_cases h : e.1 = a
  · rw [if_pos h, List.filterMap_cons, if_pos h, List.filterMap_nil]
  · rw [if_neg h, List.filterMap_cons, if_neg h, List.filterMap_nil]

theorem ownOps_append_of_ne {a : S} {e : S × Op} (h : e.1 ≠ a) (l : List (S × Op)) :
    ownOps a (l ++ [e]) = ownOps a l := by
  rw [ownOps_append, if_neg h, List.append_nil]

/-- Who has no operation in a trace. -/
theorem ownOps_eq_nil {a : S} {l : List (S × Op)} (h : a ∉ l.map Prod.fst) : ownOps a l = [] := by
  rw [ownOps, List.filterMap_eq_nil_iff]
  intro e he
  exact if_neg fun heq => h (List.mem_map.mpr ⟨e, he, heq⟩)

theorem Shared.exec_append (t : Shared S σ Out) (l : List (S × Op)) (e : S × Op) :
    t.exec run (l ++ [e]) = (t.exec run l).step run e := by
  rw [Shared.exec, List.foldl_append]
  rfl

/-! ## 1. Operations that are not disturbed -/

/-- The operation does what it would do on the state its owner left. -/
def Undisturbed (run : Op → σ → Out × σ) (t : Shared S σ Out) (e : S × Op) : Prop :=
  run e.2 t.current = run e.2 (t.left e.1)

/-- **What one step keeps**: every owner has what it would have alone. -/
theorem step_eq_alone {s : σ} {t : Shared S σ Out} {before : List (S × Op)} {e : S × Op}
    (h : ∀ a, (t.outputs a, t.left a) = alone run s (ownOps a before))
    (he : Undisturbed run t e) (a : S) :
    ((t.step run e).outputs a, (t.step run e).left a) = alone run s (ownOps a (before ++ [e])) := by
  by_cases ha : e.1 = a
  · subst ha
    rw [ownOps_append, if_pos rfl, alone_append, ← h e.1]
    rw [Undisturbed] at he
    simp only [Shared.step, Function.update_self, he]
  · rw [ownOps_append_of_ne ha, ← h a]
    simp only [Shared.step, Function.update_of_ne (Ne.symm ha)]

/-- **Owners that are not disturbed get what they would get alone.** -/
theorem exec_eq_alone {s : σ} {l : List (S × Op)}
    (h : Meets (fun before e => Undisturbed run ((Shared.start s).exec run before) e) [] l)
    (a : S) :
    (((Shared.start s).exec run l).outputs a, ((Shared.start s).exec run l).left a) =
      alone run s (ownOps a l) := by
  refine h.invariant (fun l => ∀ a, (((Shared.start s).exec run l).outputs a,
    ((Shared.start s).exec run l).left a) = alone run s (ownOps a l)) (fun _ => rfl) ?_ a
  intro before e ih he a
  rw [Shared.exec_append]
  exact step_eq_alone ih he a

/-! ## 2. One owner at a time -/

/-- An operation that resets the state comes while nobody else uses it, every other one right
behind one of its owner. -/
def Exclusive (resets : Op → Bool) (inUse : List Op → Bool) (before : List (S × Op))
    (e : S × Op) : Prop :=
  if resets e.2 = true then
    ∀ a ∈ before.map Prod.fst, a ≠ e.1 → inUse (ownOps a before) = false
  else lastOwner before = some e.1

instance exclusiveDecidable (resets : Op → Bool) (inUse : List Op → Bool)
    (before : List (S × Op)) (e : S × Op) : Decidable (Exclusive resets inUse before e) :=
  inferInstanceAs (Decidable (if resets e.2 = true then
    ∀ a ∈ before.map Prod.fst, a ≠ e.1 → inUse (ownOps a before) = false
    else lastOwner before = some e.1))

variable {resets : Op → Bool} {inUse : List Op → Bool}

/-- The state is as the owner of the last operation left it. -/
theorem current_eq_left {s : σ} {l : List (S × Op)} {a : S} (h : lastOwner l = some a) :
    ((Shared.start s).exec run l).current = ((Shared.start s).exec run l).left a := by
  rcases List.eq_nil_or_concat l with rfl | ⟨l, e, rfl⟩
  · cases h
  · rw [List.concat_eq_append, lastOwner_append] at h
    obtain rfl := Option.some.inj h
    rw [List.concat_eq_append, Shared.exec_append]
    exact (Function.update_self e.1 _ ((Shared.start s).exec run l).left).symm

/-- **Operations of an exclusive trace are not disturbed**, where those that reset the state do not
look at it. -/
theorem Exclusive.undisturbed (hresets : ∀ op, resets op = true → ∀ x y, run op x = run op y)
    {s : σ} {before : List (S × Op)} {e : S × Op} (h : Exclusive resets inUse before e) :
    Undisturbed run ((Shared.start s).exec run before) e := by
  rw [Exclusive] at h
  split at h
  · rename_i hreset
    exact hresets e.2 hreset _ _
  · rw [Undisturbed, current_eq_left h]

/-- Where the owner of the last operation uses the state, the next operation is theirs. -/
theorem Exclusive.owner_of_last (hnil : inUse [] = false) {l : List (S × Op)} {e : S × Op} {a : S}
    (h : Exclusive resets inUse l e) (hlast : lastOwner l = some a)
    (ha : inUse (ownOps a l) = true) : e.1 = a := by
  rw [Exclusive] at h
  split at h
  · by_contra hne
    by_cases hmem : a ∈ l.map Prod.fst
    · rw [h a hmem (Ne.symm hne)] at ha
      cases ha
    · rw [ownOps_eq_nil hmem, hnil] at ha
      cases ha
  · exact Option.some.inj (h.symm.trans hlast)

/-- **Nobody but the owner of the last operation uses the state.** -/
theorem lastOwner_of_inUse (hnil : inUse [] = false) {l : List (S × Op)}
    (h : Meets (Exclusive resets inUse) [] l) {a : S} (ha : inUse (ownOps a l) = true) :
    lastOwner l = some a := by
  refine h.invariant (fun l => ∀ a, inUse (ownOps a l) = true → lastOwner l = some a) ?_ ?_ a ha
  · intro a ha
    exact absurd (hnil.symm.trans ha) Bool.noConfusion
  · intro before e ih he a ha
    rw [lastOwner_append]
    by_cases hae : e.1 = a
    · rw [hae]
    · rw [ownOps_append_of_ne hae] at ha
      exact absurd (he.owner_of_last hnil (ih a ha) ha) hae

end

end Glossh
