/-
# The calls a program makes

A program that is put together from calls of a fixed kind, with plain reads and checks between
them.  `Makes` gives the list of the calls it makes from a state on, each with the state in front
of it, and says that the list is complete.

`keeps_of_makes` carries an invariant of the calls over to the program.  `Makes.run` gives more:
what the environment is assumed to do has to hold of the calls the program really makes, and of no
others.
-/
import Glossh.Lib.Prog
import Glossh.Lib.Run

namespace Glossh

namespace Prog

variable {σ ε κ α β : Type}

/-- What comes behind a program that returns. -/
def after (m : Prog σ ε α) (calls : α → σ → List (σ × κ)) (s : σ) : List (σ × κ) :=
  match exec m s with
  | (.ok a, t) => calls a t
  | (.error _, _) => []

/-- **The calls are all that a program does**: what they keep, as far as they meet a condition, the
program keeps, if the calls it makes meet that condition. -/
def Makes (prog : κ → Prog σ ε Unit) (m : Prog σ ε α) (s : σ) (calls : List (σ × κ)) : Prop :=
  ∀ (P : σ → Prop) (C : σ → κ → Prop),
    (∀ t c, P t → C t c → P (exec (prog c) t).2) →
    P s → (∀ x ∈ calls, C x.1 x.2) → P (exec m s).2

variable {prog : κ → Prog σ ε Unit} {s : σ} {l l' : List (σ × κ)}

/-- A program that leaves the state alone makes no calls. -/
theorem makes_nothing {m : Prog σ ε α} (h : ∀ P : σ → Prop, Keeps P m) : Makes prog m s [] :=
  fun P _ _ hs _ => h P s hs

theorem makes_pure (a : α) : Makes prog (pure a : Prog σ ε α) s [] :=
  makes_nothing fun _ => keeps_pure a

theorem makes_throw (e : ε) : Makes prog (throw e : Prog σ ε α) s [] :=
  makes_nothing fun _ => keeps_throw e

theorem makes_check (r : Except ε α) : Makes prog (check r) s [] :=
  makes_nothing fun _ => keeps_check r

/-- A call makes itself. -/
theorem makes_call (c : κ) : Makes prog (prog c) s [(s, c)] :=
  fun _ _ hC hs hcalls => hC s c hs (hcalls (s, c) List.mem_cons_self)

/-- A result that is dropped. -/
theorem Makes.of_discard {m : Prog σ ε α}
    (h : Makes prog (m >>= fun _ => (pure () : Prog σ ε Unit)) s l) : Makes prog m s l := by
  intro P C hC hs hcalls
  have hrun := h P C hC hs hcalls
  rw [exec_bind] at hrun
  rcases hx : exec m s with ⟨r, t⟩
  rw [hx] at hrun
  cases r with
  | ok a => exact hrun
  | error e => exact hrun

theorem Makes.bind {m : Prog σ ε α} {f : α → Prog σ ε β} {calls : α → σ → List (σ × κ)}
    (hm : Makes prog m s l) (hf : ∀ a t, Makes prog (f a) t (calls a t)) :
    Makes prog (m >>= f) s (l ++ after m calls s) := by
  intro P C hC hs hcalls
  have hrun := hm P C hC hs fun x hx => hcalls x (List.mem_append_left _ hx)
  have hrest : ∀ x ∈ after m calls s, C x.1 x.2 :=
    fun x hx => hcalls x (List.mem_append_right _ hx)
  rw [exec_bind]
  rw [after] at hrest
  rcases hx : exec m s with ⟨r, t⟩
  rw [hx] at hrun hrest
  cases r with
  | ok a => exact hf a t P C hC hrun hrest
  | error e => exact hrun

/-- Behind the last call. -/
theorem Makes.bind_last {m : Prog σ ε α} {f : α → Prog σ ε β} (hm : Makes prog m s l)
    (hf : ∀ a t, Makes prog (f a) t []) : Makes prog (m >>= f) s l := by
  intro P C hC hs hcalls
  refine hm.bind hf P C hC hs fun x hx => ?_
  rcases List.mem_append.mp hx with hx | hx
  · exact hcalls x hx
  · rw [after] at hx
    split at hx <;> cases hx

/-- A read decides what comes. -/
theorem makes_reads_bind {f : σ → α} {g : α → Prog σ ε β} (h : Makes prog (g (f s)) s l) :
    Makes prog (reads f >>= g) s l := by
  intro P C hC hs hcalls
  rw [exec_reads_bind]
  exact h P C hC hs hcalls

theorem Makes.ite {c : Prop} [Decidable c] {m m' : Prog σ ε α} (hm : Makes prog m s l)
    (hm' : Makes prog m' s l') :
    Makes prog (if c then m else m') s (if c then l else l') := by
  split
  · exact hm
  · exact hm'

/-- **What every call keeps, the program keeps.** -/
theorem keeps_of_makes {P : σ → Prop} {m : Prog σ ε α} {calls : σ → List (σ × κ)}
    (hm : ∀ s, Makes prog m s (calls s)) (h : ∀ c, Keeps P (prog c)) : Keeps P m :=
  fun s hs => hm s P (fun _ _ => True) (fun t c ht _ => h c t ht) hs fun _ _ => trivial

/-- **A run of the program is a run of the calls it makes**, with what is known of them as what the
run allows. -/
theorem Makes.run {m : Prog σ ε α} (hm : Makes prog m s l) {allowed : σ → κ → Prop}
    (h : ∀ x ∈ l, allowed x.1 x.2) :
    Run (fun s c => some (exec (prog c) s).2) allowed s (exec m s).2 :=
  hm (Run (fun s c => some (exec (prog c) s).2) allowed s) allowed
    (fun _ _ ht hc => ht.next hc rfl) Run.start h

end Prog

end Glossh
