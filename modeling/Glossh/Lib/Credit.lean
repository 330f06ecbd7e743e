/-
# Credit-based flow control

A sender may send what it has credit for; a receiver counts the window it has granted and not yet
seen used.  Data and grants are in flight, and each of them arrives in any order.

`Balanced` is the conservation law: the receiver's window is the sender's credit and everything in
flight.  So whatever arrives is within the window.
-/
import Mathlib.Data.List.Perm.Basic
import Mathlib.Algebra.BigOperators.Group.List.Basic
import Mathlib.Algebra.Ring.Nat

namespace Glossh

/-- Both ends and what is between them. -/
structure Credit where
  window : ℕ
  credit : ℕ
  data : List ℕ
  grants : List ℕ

namespace Credit

/-- The conservation law. -/
def Balanced (c : Credit) : Prop := c.window = c.credit + c.data.sum + c.grants.sum

/-- What is taken out of a list and the rest. -/
theorem sum_eraseIdx {l : List ℕ} {i n : ℕ} (h : l[i]? = some n) :
    n + (l.eraseIdx i).sum = l.sum := by
  obtain ⟨hi, hn⟩ := List.getElem?_eq_some_iff.mp h
  have hperm := List.getElem_cons_eraseIdx_perm hi
  rw [hn] at hperm
  rw [← List.sum_cons, hperm.sum_eq]

/-- Data is sent from the credit. -/
theorem Balanced.send {c : Credit} (h : c.Balanced) {n : ℕ} (hn : n ≤ c.credit) :
    Balanced { c with credit := c.credit - n, data := c.data ++ [n] } := by
  rw [Balanced] at h
  simp only [Balanced, List.sum_append, List.sum_singleton]
  omega

/-- **What is in flight is within the window.** -/
theorem Balanced.le_window {c : Credit} (h : c.Balanced) {n : ℕ} (hn : n ∈ c.data) :
    n ≤ c.window := by
  obtain ⟨i, hi⟩ := List.mem_iff_getElem?.mp hn
  have hsum := sum_eraseIdx hi
  rw [Balanced] at h
  omega

/-- Data arrives and is taken off the window. -/
theorem Balanced.deliver {c : Credit} (h : c.Balanced) {i n : ℕ} (hi : c.data[i]? = some n) :
    Balanced { c with window := c.window - n, data := c.data.eraseIdx i } := by
  have hsum := sum_eraseIdx hi
  rw [Balanced] at h
  simp only [Balanced]
  omega

/-- The receiver grants more. -/
theorem Balanced.grant {c : Credit} (h : c.Balanced) (n : ℕ) :
    Balanced { c with window := c.window + n, grants := c.grants ++ [n] } := by
  rw [Balanced] at h
  simp only [Balanced, List.sum_append, List.sum_singleton]
  omega

/-- A grant arrives. -/
theorem Balanced.receive {c : Credit} (h : c.Balanced) {i n : ℕ} (hi : c.grants[i]? = some n) :
    Balanced { c with credit := c.credit + n, grants := c.grants.eraseIdx i } := by
  have hsum := sum_eraseIdx hi
  rw [Balanced] at h
  simp only [Balanced]
  omega

end Credit
end Glossh
