/-
# Runs of a labelled transition function

A system is a partial step function on states and events.  A run is a sequence of steps; what a
result assumes of the environment is a predicate on the steps of the run (`allowed`), so that one
system serves results with different assumptions.

`Run.invariant` is the induction over runs, `Run.of_trace` builds a run from a list of events.
-/
import Mathlib.Logic.Basic

namespace Glossh

variable {σ ε : Type}

/-- The states that runs from `s₀` reach with allowed steps only. -/
inductive Run (step : σ → ε → Option σ) (allowed : σ → ε → Prop) (s₀ : σ) : σ → Prop
  | start : Run step allowed s₀ s₀
  | next {s s' : σ} {e : ε} :
    Run step allowed s₀ s → allowed s e → step s e = some s' → Run step allowed s₀ s'

namespace Run

variable {step : σ → ε → Option σ} {allowed allowed' : σ → ε → Prop} {s₀ s : σ}

/-- **The induction over runs**: what holds at the start and is kept by every allowed step holds
in every state reached. -/
theorem invariant (Inv : σ → Prop) (hstart : Inv s₀)
    (hstep : ∀ s e s', Inv s → allowed s e → step s e = some s' → Inv s')
    (h : Run step allowed s₀ s) : Inv s := by
  induction h with
  | start => exact hstart
  | next _ hallowed hs ih => exact hstep _ _ _ ih hallowed hs

/-- Assuming less of the environment allows more runs. -/
theorem mono (hle : ∀ s e, allowed s e → allowed' s e) (h : Run step allowed s₀ s) :
    Run step allowed' s₀ s := by
  induction h with
  | start => exact Run.start
  | next _ hallowed hs ih => exact Run.next ih (hle _ _ hallowed) hs

/-- A run is continued by a run. -/
theorem trans {s' : σ} (h : Run step allowed s₀ s) (h' : Run step allowed s s') :
    Run step allowed s₀ s' := by
  induction h' with
  | start => exact h
  | next _ hallowed hs ih => exact Run.next ih hallowed hs

end Run

/-- The state after a list of events, if each of them is allowed and possible. -/
def runTrace (step : σ → ε → Option σ) (allowed : σ → ε → Bool) : List ε → σ → Option σ
  | [], s => some s
  | e :: l, s => if allowed s e then (step s e).bind (runTrace step allowed l) else none

/-- A list of events that goes through is a run. -/
theorem Run.of_trace {step : σ → ε → Option σ} {allowed : σ → ε → Prop} (check : σ → ε → Bool)
    (hcheck : ∀ s e, check s e = true → allowed s e) (l : List ε) {s s' : σ}
    (h : runTrace step check l s = some s') : Run step allowed s s' := by
  induction l generalizing s with
  | nil =>
    cases h
    exact Run.start
  | cons e l ih =>
    rw [runTrace] at h
    split at h
    · rename_i hallowed
      obtain ⟨t, ht, hrest⟩ := Option.bind_eq_some_iff.mp h
      exact (Run.next Run.start (hcheck s e hallowed) ht).trans (ih hrest)
    · cases h

end Glossh
