import Atlax.Library.Run
import Mathlib.Algebra.BigOperators.Group.Finset.Piecewise
import Mathlib.Algebra.Order.BigOperators.Group.Finset

/-!
# Counting along a run

`tally step w s as` is the sum of a weight over the steps of the run `as` from `s`. Totals are
compared by a potential: when every step spends at most what it earns and what it takes from the
potential of the state, a whole run spends at most what it earns and the potential it starts from.
-/

set_option autoImplicit false

namespace Atlax.Library

variable {σ α : Type} {step : σ → α → Option σ}

/-- The sum of `w` over the steps of a run, up to the first one that is not enabled. -/
def tally (step : σ → α → Option σ) (w : σ → α → ℕ) : σ → List α → ℕ
  | _, [] => 0
  | s, a :: as =>
    match step s a with
    | none => 0
    | some s' => w s a + tally step w s' as

theorem tally_cons {w : σ → α → ℕ} {s s' : σ} {a : α} (h : step s a = some s') (as : List α) :
    tally step w s (a :: as) = w s a + tally step w s' as := by
  rw [tally, h]

theorem tally_add (w w' : σ → α → ℕ) (s : σ) (as : List α) :
    tally step (fun s a => w s a + w' s a) s as = tally step w s as + tally step w' s as := by
  induction as generalizing s with
  | nil => rfl
  | cons a as ih =>
    simp only [tally]
    cases step s a with
    | none => rfl
    | some s' =>
      dsimp only
      rw [ih]
      omega

/-- The rule of potentials. -/
theorem tally_le {ok : σ → α → Prop} [∀ s a, Decidable (ok s a)] (I : σ → Prop) (potential : σ → ℕ)
    (spent earned : σ → α → ℕ)
    (hI : ∀ s a s', I s → ok s a → step s a = some s' → I s')
    (hstep : ∀ s a s', I s → ok s a → step s a = some s' →
      spent s a + potential s' ≤ earned s a + potential s)
    {s s' : σ} {as : List α} (hs : I s) (h : exec (guarded step ok) s as = some s') :
    tally step spent s as + potential s' ≤ tally step earned s as + potential s := by
  induction as generalizing s with
  | nil =>
    cases h
    simp [tally]
  | cons a as ih =>
    simp only [exec, List.foldlM_cons, Option.bind_eq_bind, Option.bind_eq_some_iff, guarded,
      Option.ite_none_right_eq_some] at h
    obtain ⟨s₁, ⟨hok, h₁⟩, h₂⟩ := h
    have hhead := hstep s a s₁ hs hok h₁
    have htail := ih (hI s a s₁ hs hok h₁) h₂
    rw [tally_cons h₁, tally_cons h₁]
    omega

/-- A sum whose terms do not grow, except one by at most `k`. -/
theorem sum_range_le_add {f g : ℕ → ℕ} {n k : ℕ} (r₀ : ℕ)
    (h : ∀ r < n, g r ≤ f r + if r = r₀ then k else 0) :
    ∑ r ∈ Finset.range n, g r ≤ ∑ r ∈ Finset.range n, f r + k := by
  calc ∑ r ∈ Finset.range n, g r
      ≤ ∑ r ∈ Finset.range n, (f r + if r = r₀ then k else 0) :=
        Finset.sum_le_sum fun r hr => h r (Finset.mem_range.mp hr)
    _ = ∑ r ∈ Finset.range n, f r + ∑ r ∈ Finset.range n, (if r = r₀ then k else 0) :=
        Finset.sum_add_distrib
    _ ≤ ∑ r ∈ Finset.range n, f r + k := by
        refine Nat.add_le_add_left ?_ _
        rw [Finset.sum_ite_eq' (Finset.range n) r₀]
        split
        · exact Nat.le_refl k
        · exact Nat.zero_le k

/-- A sum whose terms do not grow, and one of which gets smaller. -/
theorem sum_range_succ_le {f g : ℕ → ℕ} {n r₀ : ℕ} (hr₀ : r₀ < n) (h : ∀ r < n, g r ≤ f r)
    (hlt : g r₀ + 1 ≤ f r₀) :
    ∑ r ∈ Finset.range n, g r + 1 ≤ ∑ r ∈ Finset.range n, f r := by
  refine Finset.sum_lt_sum (fun r hr => h r (Finset.mem_range.mp hr)) ?_
  exact ⟨r₀, Finset.mem_range.mpr hr₀, hlt⟩

end Atlax.Library
