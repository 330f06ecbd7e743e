/-
# Programs over a state that may be ended early

A function that works on a state and may be left at any point with the state as it is then:
`Prog σ ε α`, the exception transformer over the state monad, so that what was written before an
exit stays written.  `exec` runs one, with an equation for each way such programs are put
together.

`Keeps P m` says that `m` takes states with `P` to states with `P`, whether it returns or exits;
`Triple P m Q E` tells the two apart.  The rules compose both along the program.  `zoom` runs a
program on a part of a larger state.
-/
import Mathlib.Data.List.Basic

namespace Glossh

/-- A program on states `σ` with exits `ε`. -/
abbrev Prog (σ ε α : Type) := ExceptT ε (StateM σ) α

namespace Prog

variable {σ ε α β : Type}

/-- The outcome of a program and the state it leaves. -/
def exec (m : Prog σ ε α) (s : σ) : Except ε α × σ := (ExceptT.run m).run s

/-- A program that only looks at the state. -/
def reads (f : σ → α) : Prog σ ε α := do return f (← get)

/-- A step that may exit and leaves the state alone. -/
def check (r : Except ε α) : Prog σ ε α := ExceptT.mk (pure r)

@[simp] theorem exec_pure (a : α) (s : σ) : exec (pure a : Prog σ ε α) s = (.ok a, s) := rfl

@[simp] theorem exec_get (s : σ) : exec (get : Prog σ ε σ) s = (.ok s, s) := rfl

@[simp] theorem exec_modify (f : σ → σ) (s : σ) :
    exec (modify f : Prog σ ε PUnit) s = (.ok ⟨⟩, f s) := rfl

@[simp] theorem exec_check (r : Except ε α) (s : σ) : exec (check r : Prog σ ε α) s = (r, s) := rfl

/-- A sequence goes on where its first part returned. -/
theorem exec_bind (m : Prog σ ε α) (f : α → Prog σ ε β) (s : σ) :
    exec (m >>= f) s = match exec m s with
      | (.ok a, s') => exec (f a) s'
      | (.error e, s') => (.error e, s') := by
  rcases hm : exec m s with ⟨r, s'⟩
  have hrun : (ExceptT.run m).run s = (r, s') := hm
  cases r with
  | ok a =>
    change (ExceptT.run (m >>= f)).run s = exec (f a) s'
    simp only [ExceptT.run_bind, StateT.run_bind, hrun]
    rfl
  | error e =>
    change (ExceptT.run (m >>= f)).run s = _
    simp only [ExceptT.run_bind, StateT.run_bind, hrun]
    rfl

theorem exec_bind_ok {m : Prog σ ε α} {f : α → Prog σ ε β} {s s' : σ} {a : α}
    (h : exec m s = (.ok a, s')) : exec (m >>= f) s = exec (f a) s' := by
  rw [exec_bind, h]

theorem exec_bind_error {m : Prog σ ε α} {f : α → Prog σ ε β} {s s' : σ} {e : ε}
    (h : exec m s = (.error e, s')) : exec (m >>= f) s = (.error e, s') := by
  rw [exec_bind, h]

theorem exec_reads_bind (f : σ → α) (g : α → Prog σ ε β) (s : σ) :
    exec (reads f >>= g) s = exec (g (f s)) s := exec_bind_ok rfl

theorem exec_modify_bind (f : σ → σ) (g : PUnit → Prog σ ε β) (s : σ) :
    exec (modify f >>= g) s = exec (g ⟨⟩) (f s) := exec_bind_ok rfl

/-- A check that passes. -/
theorem exec_check_bind {r : Except ε α} {a : α} (h : r = .ok a) (g : α → Prog σ ε β) (s : σ) :
    exec (check r >>= g) s = exec (g a) s := exec_bind_ok (by rw [exec_check, h])

/-- A condition on the state that ends the program. -/
theorem exec_guard_bind (c : σ → Bool) (e : ε) (g : Unit → Prog σ ε α) (s : σ) :
    exec ((reads c >>= fun bad => check (if bad then .error e else .ok ())) >>= g) s =
      if c s then (.error e, s) else exec (g ()) s := by
  rw [bind_assoc, exec_reads_bind]
  cases c s with
  | true => exact exec_bind_error rfl
  | false => exact exec_bind_ok rfl

/-- A sequence of checks that passed. -/
theorem except_bind_ok {x : Except ε α} {f : α → Except ε β} {b : β} (h : (x >>= f) = .ok b) :
    ∃ a, x = .ok a ∧ f a = .ok b := by
  cases x with
  | error e => cases h
  | ok a => exact ⟨a, rfl, h⟩

/-! ## What a program keeps -/

/-- Every run from a state with `P` ends in a state with `P`. -/
def Keeps (P : σ → Prop) (m : Prog σ ε α) : Prop := ∀ s, P s → P (exec m s).2

section

variable {P : σ → Prop}

theorem keeps_pure (a : α) : Keeps P (pure a : Prog σ ε α) := fun _ h => h

theorem keeps_throw (e : ε) : Keeps P (throw e : Prog σ ε α) := fun _ h => h

theorem keeps_get : Keeps P (get : Prog σ ε σ) := fun _ h => h

theorem keeps_reads (f : σ → α) : Keeps P (reads f : Prog σ ε α) := fun _ h => h

theorem keeps_check (r : Except ε α) : Keeps P (check r : Prog σ ε α) := fun _ h => h

theorem keeps_modify {f : σ → σ} (h : ∀ s, P s → P (f s)) :
    Keeps P (modify f : Prog σ ε PUnit) := h

/-- A sequence keeps what both of its parts keep. -/
theorem Keeps.bind {m : Prog σ ε α} {f : α → Prog σ ε β} (hm : Keeps P m)
    (hf : ∀ a, Keeps P (f a)) : Keeps P (m >>= f) := by
  intro s hs
  have h := hm s hs
  rw [exec_bind]
  rcases hx : exec m s with ⟨r, s'⟩
  rw [hx] at h
  cases r with
  | ok a => exact hf a s' h
  | error e => exact h

/-- What was read is known to come from the state. -/
theorem keeps_reads_bind {f : σ → β} {g : β → Prog σ ε α}
    (h : ∀ s, P s → P (exec (g (f s)) s).2) : Keeps P (reads f >>= g) := by
  intro s hs
  rw [exec_reads_bind]
  exact h s hs

theorem Keeps.ite {c : Prop} [Decidable c] {m m' : Prog σ ε α} (hm : Keeps P m)
    (hm' : Keeps P m') : Keeps P (if c then m else m') := by
  split
  · exact hm
  · exact hm'

end

/-! ## Where a program returns and where it exits -/

/-- `Q` of a return, `E` of an exit. -/
def Post (Q : α → σ → Prop) (E : ε → σ → Prop) : Except ε α × σ → Prop
  | (.ok a, s) => Q a s
  | (.error e, s) => E e s

/-- From a state with `P` the program returns with `Q` or exits with `E`. -/
structure Triple (P : σ → Prop) (m : Prog σ ε α) (Q : α → σ → Prop) (E : ε → σ → Prop) : Prop where
  run : ∀ s, P s → Post Q E (exec m s)

section

variable {P P' : σ → Prop} {Q Q' : α → σ → Prop} {R : β → σ → Prop} {E : ε → σ → Prop}

theorem triple_pure {a : α} (h : ∀ s, P s → Q a s) : Triple P (pure a : Prog σ ε α) Q E := ⟨h⟩

theorem triple_throw {e : ε} (h : ∀ s, P s → E e s) : Triple P (throw e : Prog σ ε α) Q E := ⟨h⟩

theorem triple_modify {f : σ → σ} {Q : PUnit → σ → Prop} (h : ∀ s, P s → Q ⟨⟩ (f s)) :
    Triple P (modify f : Prog σ ε PUnit) Q E := ⟨h⟩

/-- The value that was read comes from the state. -/
theorem triple_reads_bind {f : σ → β} {g : β → Prog σ ε α}
    (h : ∀ b, Triple (fun s => P s ∧ f s = b) (g b) Q E) : Triple P (reads f >>= g) Q E := by
  constructor
  intro s hs
  rw [exec_reads_bind]
  exact (h (f s)).run s ⟨hs, rfl⟩

/-- What a check let through is what it was given. -/
theorem triple_check_bind {r : Except ε β} {g : β → Prog σ ε α} (hE : ∀ e s, P s → E e s)
    (h : ∀ b, r = .ok b → Triple P (g b) Q E) : Triple P (check r >>= g) Q E := by
  constructor
  intro s hs
  cases r with
  | ok b => exact (h b rfl).run s hs
  | error e => exact hE e s hs

/-- A read of what does not matter. -/
theorem triple_reads_any {f : σ → β} {g : β → Prog σ ε α} (h : ∀ b, Triple P (g b) Q E) :
    Triple P (reads f >>= g) Q E := by
  constructor
  intro s hs
  rw [exec_reads_bind]
  exact (h (f s)).run s hs

/-- A read of what is known. -/
theorem triple_reads_eq {f : σ → β} {x : β} {g : β → Prog σ ε α} (hf : ∀ s, P s → f s = x)
    (h : Triple P (g x) Q E) : Triple P (reads f >>= g) Q E := by
  constructor
  intro s hs
  rw [exec_reads_bind, hf s hs]
  exact h.run s hs

theorem Triple.bind {m : Prog σ ε α} {f : α → Prog σ ε β} (hm : Triple P m Q E)
    (hf : ∀ a, Triple (Q a) (f a) R E) : Triple P (m >>= f) R E := by
  constructor
  intro s hs
  have h := hm.run s hs
  rw [exec_bind]
  rcases hx : exec m s with ⟨r, s'⟩
  rw [hx] at h
  cases r with
  | ok a => exact (hf a).run s' h
  | error e => exact h

theorem Triple.ite {c : Prop} [Decidable c] {m m' : Prog σ ε α} (hm : c → Triple P m Q E)
    (hm' : ¬ c → Triple P m' Q E) : Triple P (if c then m else m') Q E := by
  split
  · rename_i hc
    exact hm hc
  · rename_i hc
    exact hm' hc

theorem Triple.pre {m : Prog σ ε α} (hm : Triple P m Q E) (h : ∀ s, P' s → P s) :
    Triple P' m Q E := ⟨fun s hs => hm.run s (h s hs)⟩

theorem Post.mono {E' : ε → σ → Prop} {r : Except ε α × σ} (h : Post Q E r)
    (hQ : ∀ a s, Q a s → Q' a s) (hE : ∀ e s, E e s → E' e s) : Post Q' E' r := by
  obtain ⟨r, s⟩ := r
  cases r with
  | ok a => exact hQ a s h
  | error e => exact hE e s h

/-- A fact about the start that is no fact about the state. -/
theorem triple_of_fact {c : Prop} {m : Prog σ ε α} (h : c → Triple P m Q E) :
    Triple (fun s => P s ∧ c) m Q E := ⟨fun s hs => (h hs.2).run s hs.1⟩

theorem Triple.post {m : Prog σ ε α} (hm : Triple P m Q E) (h : ∀ a s, Q a s → Q' a s) :
    Triple P m Q' E := ⟨fun s hs => (hm.run s hs).mono h fun _ _ he => he⟩

/-- Two results about one program. -/
theorem Triple.and {E' : ε → σ → Prop} {m : Prog σ ε α} (hm : Triple P m Q E)
    (hm' : Triple P m Q' E') :
    Triple P m (fun a s => Q a s ∧ Q' a s) fun e s => E e s ∧ E' e s := by
  constructor
  intro s hs
  have h := hm.run s hs
  have h' := hm'.run s hs
  rcases hx : exec m s with ⟨r, s'⟩
  rw [hx] at h h'
  cases r with
  | ok a => exact ⟨h, h'⟩
  | error e => exact ⟨h, h'⟩

theorem Triple.exits {E' : ε → σ → Prop} {m : Prog σ ε α} (hm : Triple P m Q E)
    (h : ∀ e s, E e s → E' e s) : Triple P m Q E' :=
  ⟨fun s hs => (hm.run s hs).mono (fun _ _ hq => hq) h⟩

/-- The same predicate at the return and at every exit. -/
theorem Triple.keeps {m : Prog σ ε α} (hm : Triple P m (fun _ => P) fun _ => P) : Keeps P m := by
  intro s hs
  have h := hm.run s hs
  rcases hx : exec m s with ⟨r, s'⟩
  rw [hx] at h
  cases r with
  | ok a => exact h
  | error e => exact h

/-- What is kept holds at the return and at every exit. -/
theorem Keeps.triple {m : Prog σ ε α} (hm : Keeps P m) (hE : ∀ e s, P s → E e s) :
    Triple P m (fun _ => P) E := by
  constructor
  intro s hs
  have h := hm s hs
  rcases hx : exec m s with ⟨r, s'⟩
  rw [hx] at h
  cases r with
  | ok a => exact h
  | error e => exact hE e s' h

end

/-! ## Exits that do not occur -/

/-- No run exits with `e`. -/
def Avoids (e : ε) (m : Prog σ ε α) : Prop := ∀ s, (exec m s).1 ≠ .error e

section

variable {e : ε}

theorem avoids_pure (a : α) : Avoids e (pure a : Prog σ ε α) := by
  intro s h
  cases h

theorem avoids_throw {e' : ε} (h : e' ≠ e) : Avoids e (throw e' : Prog σ ε α) := by
  intro s hs
  exact h (Except.error.inj hs)

theorem avoids_reads (f : σ → α) : Avoids e (reads f : Prog σ ε α) := by
  intro s h
  cases h

theorem avoids_modify (f : σ → σ) : Avoids e (modify f : Prog σ ε PUnit) := by
  intro s h
  cases h

theorem avoids_check {r : Except ε α} (h : r ≠ .error e) : Avoids e (check r : Prog σ ε α) :=
  fun _ => h

theorem Avoids.bind {m : Prog σ ε α} {f : α → Prog σ ε β} (hm : Avoids e m)
    (hf : ∀ a, Avoids e (f a)) : Avoids e (m >>= f) := by
  intro s
  rw [exec_bind]
  have h := hm s
  rcases hx : exec m s with ⟨r, s'⟩
  rw [hx] at h
  cases r with
  | ok a => exact hf a s'
  | error e' => exact fun hs => h (congrArg Except.error (Except.error.inj hs))

theorem Avoids.ite {c : Prop} [Decidable c] {m m' : Prog σ ε α} (hm : Avoids e m)
    (hm' : Avoids e m') : Avoids e (if c then m else m') := by
  split
  · exact hm
  · exact hm'

/-- A sequence of checks none of which ends in `e`. -/
theorem except_bind_ne {x : Except ε α} {f : α → Except ε β} (hx : x ≠ .error e)
    (hf : ∀ a, x = .ok a → f a ≠ .error e) : (x >>= f) ≠ .error e := by
  cases x with
  | error e' => exact fun h => hx (congrArg Except.error (Except.error.inj h))
  | ok a => exact hf a rfl

/-- What is kept, where one exit does not occur. -/
theorem Avoids.triple {P : σ → Prop} {m : Prog σ ε α} (h : Avoids e m) (hm : Keeps P m) :
    Triple P m (fun _ => P) fun e' s => P s ∧ e' ≠ e := by
  constructor
  intro s hs
  have hkeeps := hm s hs
  have havoids := h s
  rcases hx : exec m s with ⟨r, s'⟩
  rw [hx] at hkeeps havoids
  cases r with
  | ok a => exact hkeeps
  | error e' => exact ⟨hkeeps, fun h => havoids (congrArg Except.error h)⟩

end

/-! ## Part of a larger state -/

/-- A program on the part of a state that `get` finds and `put` replaces. -/
def zoom {τ : Type} (get : τ → σ) (put : σ → τ → τ) (m : Prog σ ε α) : Prog τ ε α :=
  ExceptT.mk fun t => ((exec m (get t)).1, put (exec m (get t)).2 t)

@[simp] theorem exec_zoom {τ : Type} (get : τ → σ) (put : σ → τ → τ) (m : Prog σ ε α) (t : τ) :
    exec (zoom get put m) t = ((exec m (get t)).1, put (exec m (get t)).2 t) := rfl

/-- What the part keeps, the whole keeps. -/
theorem Keeps.zoom {τ : Type} {get : τ → σ} {put : σ → τ → τ} {P : τ → Prop} {m : Prog σ ε α}
    (h : ∀ t, P t → Keeps (fun s => P (put s t)) m) (hget : ∀ t, P t → P (put (get t) t)) :
    Keeps P (zoom get put m) := by
  intro t ht
  exact h t ht (get t) (hget t ht)

end Prog
end Glossh
