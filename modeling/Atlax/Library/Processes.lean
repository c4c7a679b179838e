import Mathlib.Algebra.BigOperators.Group.List.Basic
import Mathlib.Algebra.Ring.Int.Defs
import Mathlib.Algebra.Ring.Nat
import Mathlib.Data.List.Basic
import Mathlib.Data.List.Forall2

/-!
# Processes in a list

The program counters of processes that run side by side stand in a list, and a step of one of them
writes its own place. What the others contribute to a sum stays, and a process with some property is
still there unless it was the one that moved. Of two lists that match place by place, both processes
at one place may move together. Things that processes hold are held by one of them at
a time as long as a process passes on only what it has, or takes what nobody holds.
-/

set_option autoImplicit false

namespace Atlax.Library

variable {α : Type} {l : List α} {i : ℕ} {a x b : α}

/-- A process is the one that moves, or still there after the move. -/
theorem eq_or_mem_set (hx : x ∈ l) (hi : l[i]? = some a) (b : α) : x = a ∨ x ∈ l.set i b := by
  obtain ⟨j, hj⟩ := List.mem_iff_getElem?.mp hx
  by_cases hji : j = i
  · subst hji
    rw [hi] at hj
    exact .inl (Option.some.inj hj).symm
  · refine .inr (List.mem_iff_getElem?.mpr ⟨j, ?_⟩)
    rwa [List.getElem?_set_ne (Ne.symm hji)]

/-- The process that moves stands at its new place. -/
theorem mem_set_self (hi : l[i]? = some a) (b : α) : b ∈ l.set i b :=
  List.mem_iff_getElem?.mpr
    ⟨i, List.getElem?_set_self (List.getElem?_eq_some_iff.mp hi).1⟩

/-- A process that stays where it is. -/
theorem set_self (hi : l[i]? = some a) : l.set i a = l := by
  obtain ⟨hlt, rfl⟩ := List.getElem?_eq_some_iff.mp hi
  exact List.set_getElem_self hlt

/-- A sum over the processes changes by what the one that moves contributes. -/
theorem sum_map_set (f : α → ℤ) (hi : l[i]? = some a) (b : α) :
    ((l.set i b).map f).sum = (l.map f).sum - f a + f b := by
  obtain ⟨hlt, hget⟩ := List.getElem?_eq_some_iff.mp hi
  rw [List.map_set, List.sum_set', dif_pos (by simpa using hlt), List.getElem_map, hget]
  omega

/-- A sum over the processes goes down with what the one that moves contributes. -/
theorem sum_map_set_lt {f : α → ℕ} (hi : l[i]? = some a) (hb : f b < f a) :
    ((l.set i b).map f).sum < (l.map f).sum := by
  induction l generalizing i with
  | nil => cases hi
  | cons y l ih =>
    cases i with
    | zero =>
      cases hi
      simpa using hb
    | succ i => simpa using ih hi

/-! ## Two lists of processes -/

section Matching

variable {β : Type} {R : α → β → Prop} {l' : List β}

/-- The processes at one place move together. -/
theorem forall₂_set (h : List.Forall₂ R l l') {b : β} (hab : R a b) :
    List.Forall₂ R (l.set i a) (l'.set i b) := by
  induction h generalizing i with
  | nil => exact .nil
  | cons hxy htail ih =>
    cases i with
    | zero => exact .cons hab htail
    | succ i => exact .cons hxy ih

/-- A process has its match at the same place. -/
theorem exists_forall₂_get (h : List.Forall₂ R l l') (hi : l[i]? = some a) :
    ∃ b, l'[i]? = some b ∧ R a b := by
  obtain ⟨hlt, rfl⟩ := List.getElem?_eq_some_iff.mp hi
  have hlt' : i < l'.length := h.length_eq ▸ hlt
  exact ⟨l'[i], List.getElem?_eq_getElem hlt', h.get hlt hlt'⟩

end Matching

/-! ## What processes hold -/

variable {κ : Type} {holds : α → Option κ}

/-- No two processes hold the same thing. -/
def HeldOnce (holds : α → Option κ) (l : List α) : Prop :=
  ∀ (i j : ℕ) (a b : α) (k : κ), l[i]? = some a → l[j]? = some b → holds a = some k →
    holds b = some k → i = j

/-- The process that moves keeps what it holds, lets go of it, or takes what nobody holds. -/
theorem HeldOnce.set (h : HeldOnce holds l) (hi : l[i]? = some a)
    (hb : ∀ k, holds b = some k → holds a = some k ∨ ∀ c ∈ l, holds c ≠ some k) :
    HeldOnce holds (l.set i b) := by
  have hlt := (List.getElem?_eq_some_iff.mp hi).1
  -- a process other than `i` does not hold what `i` holds now
  have other : ∀ (j : ℕ) (c : α) (k : κ), i ≠ j → l[j]? = some c → holds b = some k →
      holds c ≠ some k := by
    intro j c k hij hj hk hc
    obtain ha | hfree := hb k hk
    · exact hij (h i j a c k hi hj ha hc)
    · exact hfree c (List.mem_iff_getElem?.mpr ⟨j, hj⟩) hc
  intro j₁ j₂ c₁ c₂ k h₁ h₂ hk₁ hk₂
  rw [List.getElem?_set] at h₁ h₂
  by_cases hij₁ : i = j₁ <;> by_cases hij₂ : i = j₂
  · exact hij₁.symm.trans hij₂
  · rw [if_pos hij₁, if_pos hlt] at h₁
    rw [if_neg hij₂] at h₂
    cases h₁
    exact absurd hk₂ (other j₂ c₂ k hij₂ h₂ hk₁)
  · rw [if_neg hij₁] at h₁
    rw [if_pos hij₂, if_pos hlt] at h₂
    cases h₂
    exact absurd hk₁ (other j₁ c₁ k hij₁ h₁ hk₂)
  · rw [if_neg hij₁] at h₁
    rw [if_neg hij₂] at h₂
    exact h j₁ j₂ c₁ c₂ k h₁ h₂ hk₁ hk₂

/-- A new process holds nothing. -/
theorem HeldOnce.append (h : HeldOnce holds l) (hb : holds b = none) :
    HeldOnce holds (l ++ [b]) := by
  have old : ∀ (j : ℕ) (c : α) (k : κ), (l ++ [b])[j]? = some c → holds c = some k →
      l[j]? = some c := by
    intro j c k hj hk
    by_cases hlt : j < l.length
    · rwa [List.getElem?_append_left hlt] at hj
    · rw [List.getElem?_append_right (Nat.le_of_not_lt hlt)] at hj
      have hmem := List.mem_iff_getElem?.mpr ⟨_, hj⟩
      rw [List.mem_singleton.mp hmem, hb] at hk
      cases hk
  intro j₁ j₂ c₁ c₂ k h₁ h₂ hk₁ hk₂
  exact h j₁ j₂ c₁ c₂ k (old j₁ c₁ k h₁ hk₁) (old j₂ c₂ k h₂ hk₂) hk₁ hk₂

end Atlax.Library
