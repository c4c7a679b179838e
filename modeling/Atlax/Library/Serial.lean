import Mathlib.Data.List.Basic

/-!
# Requests that take effect one at a time

Requests run side by side, each standing somewhere; at one of its steps a request takes effect, and
before and after that it changes nothing that matters. When what it does at that step is what it
would have done if it had been served there on its own, the outcome is that of serving the requests
one after the other, in the order in which they took effect.

`serve s a s'` says that serving request `a` on its own takes `s` to `s'`, and `same` compares what
matters of two states.
-/

set_option autoImplicit false

namespace Atlax.Library

variable {σ β π : Type}

/-- The requests are served one after the other. -/
inductive Serial (serve : σ → β → σ → Prop) (s₀ : σ) : List β → σ → Prop
  | nil : Serial serve s₀ [] s₀
  | concat {as : List β} {a : β} {s s' : σ} :
      Serial serve s₀ as s → serve s a s' → Serial serve s₀ (as ++ [a]) s'

/-- The requests that have taken effect, each task being a request with where it stands. -/
def effective (took : π → Bool) (tasks : List (β × π)) : List β :=
  (tasks.filter fun t => took t.2).map Prod.fst

/-- What is there is what serving the requests that have taken effect gives, in some order. -/
def Serialized (serve : σ → β → σ → Prop) (same : σ → σ → Prop) (took : π → Bool) (s₀ : σ)
    (tasks : List (β × π)) (s : σ) : Prop :=
  ∃ order s', order.Perm (effective took tasks) ∧ Serial serve s₀ order s' ∧ same s' s

variable {serve : σ → β → σ → Prop} {same : σ → σ → Prop} {took : π → Bool} {s₀ s t : σ}
  {tasks : List (β × π)} {i : ℕ} {a : β} {pc pc' : π}

theorem effective_append (l l' : List (β × π)) :
    effective took (l ++ l') = effective took l ++ effective took l' := by
  simp only [effective, List.filter_append, List.map_append]

theorem effective_singleton : effective took [(a, pc)] = if took pc then [a] else [] := by
  simp only [effective, List.filter_singleton]
  cases took pc <;> rfl

/-- A task around its place in the list. -/
theorem effective_split (hi : tasks[i]? = some (a, pc)) :
    effective took tasks = effective took (tasks.take i) ++
      ((if took pc then [a] else []) ++ effective took (tasks.drop (i + 1))) := by
  obtain ⟨hlt, hget⟩ := List.getElem?_eq_some_iff.mp hi
  have hsplit : tasks = tasks.take i ++ ([(a, pc)] ++ tasks.drop (i + 1)) := by
    rw [List.singleton_append, ← hget, ← List.drop_eq_getElem_cons hlt, List.take_append_drop]
  calc effective took tasks
      = effective took (tasks.take i ++ ([(a, pc)] ++ tasks.drop (i + 1))) := by rw [← hsplit]
    _ = _ := by rw [effective_append, effective_append, effective_singleton]

theorem effective_set (hi : tasks[i]? = some (a, pc)) :
    effective took (tasks.set i (a, pc')) = effective took (tasks.take i) ++
      ((if took pc' then [a] else []) ++ effective took (tasks.drop (i + 1))) := by
  have hlt := (List.getElem?_eq_some_iff.mp hi).1
  have hset : (tasks.set i (a, pc'))[i]? = some (a, pc') := List.getElem?_set_self hlt
  rw [effective_split hset, List.take_set_of_le (Nat.le_refl i),
    List.drop_set_of_lt (Nat.lt_succ_self i)]

/-- A request keeps its name when it moves. -/
theorem zip_set {names : List β} {l : List π} (hi : (names.zip l)[i]? = some (a, pc)) (pc' : π) :
    names.zip (l.set i pc') = (names.zip l).set i (a, pc') := by
  induction names generalizing l i with
  | nil => simp at hi
  | cons x names ih =>
    cases l with
    | nil => simp at hi
    | cons y l =>
      cases i with
      | zero =>
        simp only [List.zip_cons_cons, List.getElem?_cons_zero, Option.some.injEq,
          Prod.mk.injEq] at hi
        simp [hi.1]
      | succ i =>
        simp only [List.zip_cons_cons, List.getElem?_cons_succ] at hi
        simp [ih hi]

theorem Serialized.start (h : same s₀ s) : Serialized serve same took s₀ [] s :=
  ⟨[], s₀, .nil, .nil, h⟩

/-- A request arrives. -/
theorem Serialized.arrive (h : Serialized serve same took s₀ tasks s) (hpc : took pc = false)
    (hsame : ∀ s', same s' s → same s' t) :
    Serialized serve same took s₀ (tasks ++ [(a, pc)]) t := by
  obtain ⟨order, s', hperm, hserial, hs'⟩ := h
  refine ⟨order, s', ?_, hserial, hsame s' hs'⟩
  rw [effective_append, effective_singleton, hpc]
  simpa using hperm

/-- What matters is kept. -/
theorem Serialized.keep (h : Serialized serve same took s₀ tasks s)
    (hsame : ∀ s', same s' s → same s' t) : Serialized serve same took s₀ tasks t := by
  obtain ⟨order, s', hperm, hserial, hs'⟩ := h
  exact ⟨order, s', hperm, hserial, hsame s' hs'⟩

/-- A request goes on before or after it takes effect. -/
theorem Serialized.move (h : Serialized serve same took s₀ tasks s)
    (hi : tasks[i]? = some (a, pc)) (hpc : took pc' = took pc)
    (hsame : ∀ s', same s' s → same s' t) :
    Serialized serve same took s₀ (tasks.set i (a, pc')) t := by
  obtain ⟨order, s', hperm, hserial, hs'⟩ := h
  refine ⟨order, s', ?_, hserial, hsame s' hs'⟩
  rw [effective_set hi, hpc, ← effective_split hi]
  exact hperm

/-- A request takes effect, as if it were served here. -/
theorem Serialized.effect (h : Serialized serve same took s₀ tasks s)
    (hi : tasks[i]? = some (a, pc)) (hpc : took pc = false) (hpc' : took pc' = true)
    (hserve : ∀ s', same s' s → ∃ t', serve s' a t' ∧ same t' t) :
    Serialized serve same took s₀ (tasks.set i (a, pc')) t := by
  obtain ⟨order, s', hperm, hserial, hs'⟩ := h
  obtain ⟨t', ht', hsame⟩ := hserve s' hs'
  refine ⟨order ++ [a], t', ?_, hserial.concat ht', hsame⟩
  rw [effective_set hi, hpc']
  rw [effective_split hi, hpc] at hperm
  have hlast : (order ++ [a]).Perm (a :: order) := List.perm_append_singleton a order
  exact hlast.trans ((hperm.cons a).trans List.perm_middle.symm)

end Atlax.Library
