import Atlax.Library.Run
import Mathlib.Algebra.BigOperators.Group.Finset.Basic
import Mathlib.Algebra.Ring.Nat

/-!
# The potential method over runs

A step is charged `cost` and brings `grant` with it. If the potential of a state always covers what
a step costs beyond its grant, a whole run costs at most the potential it started with and what its
steps brought.

The potential of a heap is the sum over its cells; `heapSum` says what replacing, adding or lowering
cells does to it.
-/

set_option autoImplicit false

namespace Atlax.Library

variable {σ α : Type} {step : σ → α → Option σ} {s₀ s : σ} {as : List α}

/-- What a run costs is paid from the first potential and the grants; the last potential is left. -/
theorem exec_amortized (Φ : σ → ℕ) (cost grant : α → ℕ) (h : exec step s₀ as = some s)
    (hs : ∀ s a s', step s a = some s' → Φ s' + cost a ≤ Φ s + grant a) :
    Φ s + (as.map cost).sum ≤ Φ s₀ + (as.map grant).sum := by
  induction as using List.reverseRecOn generalizing s with
  | nil =>
    cases h
    exact Nat.le_refl _
  | append_singleton as a ih =>
    rw [exec_concat] at h
    obtain ⟨t, ht, hstep⟩ := Option.bind_eq_some_iff.mp h
    have hrun := ih ht
    have hlast := hs t a s hstep
    simp only [List.map_append, List.map_cons, List.map_nil, List.sum_append, List.sum_cons,
      List.sum_nil]
    omega

/-- The same charge for every step of a kind. -/
theorem sum_charge (n : ℕ) (p : α → Bool) (as : List α) :
    (as.map fun a => if p a then n else 0).sum = n * as.countP p := by
  induction as with
  | nil => rfl
  | cons a as ih =>
    rw [List.map_cons, List.sum_cons, ih, List.countP_cons]
    split
    · rw [Nat.mul_add, Nat.mul_one, Nat.add_comm]
    · simp

variable {κ : Type}

/-- The sum over the cells of a heap that has given out the first `n` references. -/
def heapSum (f : κ → ℕ) (cells : ℕ → κ) (n : ℕ) : ℕ := ∑ r ∈ Finset.range n, f (cells r)

section

variable {f : κ → ℕ} {cells : ℕ → κ} {n r : ℕ} {c : κ}

/-- One cell is replaced. -/
theorem heapSum_update (hr : r < n) :
    heapSum f (Function.update cells r c) n + f (cells r) = heapSum f cells n + f c := by
  have hmem : r ∈ Finset.range n := Finset.mem_range.mpr hr
  have hrest : ∑ i ∈ (Finset.range n).erase r, f (Function.update cells r c i) =
      ∑ i ∈ (Finset.range n).erase r, f (cells i) :=
    Finset.sum_congr rfl fun i hi => by rw [Function.update_of_ne (Finset.ne_of_mem_erase hi)]
  have hnew := Finset.add_sum_erase (Finset.range n) (fun i => f (Function.update cells r c i)) hmem
  have hold := Finset.add_sum_erase (Finset.range n) (fun i => f (cells i)) hmem
  rw [hrest] at hnew
  simp only [Function.update_self] at hnew
  unfold heapSum
  omega

/-- Cells that are no dearer make a heap that is no dearer. -/
theorem heapSum_mono {cells' : ℕ → κ} (h : ∀ i, f (cells' i) ≤ f (cells i)) :
    heapSum f cells' n ≤ heapSum f cells n := by
  unfold heapSum
  induction n with
  | zero => simp
  | succ n ih =>
    rw [Finset.sum_range_succ, Finset.sum_range_succ]
    exact Nat.add_le_add ih (h n)

theorem heapSum_update_le (h : f c ≤ f (cells r)) :
    heapSum f (Function.update cells r c) n ≤ heapSum f cells n := by
  refine heapSum_mono fun i => ?_
  by_cases hi : i = r
  · subst hi
    rw [Function.update_self]
    exact h
  · rw [Function.update_of_ne hi]

/-- A cell is added at the end. -/
theorem heapSum_add : heapSum f (Function.update cells n c) (n + 1) = heapSum f cells n + f c := by
  unfold heapSum
  rw [Finset.sum_range_succ, Function.update_self]
  congr 1
  exact Finset.sum_congr rfl fun i hi => by
    rw [Function.update_of_ne (Nat.ne_of_lt (Finset.mem_range.mp hi))]

end

end Atlax.Library
