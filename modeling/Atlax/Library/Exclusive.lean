import Mathlib.Data.List.Basic

/-!
# One active process

Processes share a state, and one of them at most is active at a time. While one is active, what
holds of the state is said by the place where it stands; while none is, the state is at rest. To
keep this it is enough to look at the process that moves: the others are passive and say nothing.
Whether a given place is active is found by evaluation.
-/

set_option autoImplicit false

namespace Atlax.Library

variable {α σ : Type} {active : α → Bool} {stage : σ → α → Prop} {rest : σ → Prop}
  {l : List α} {s s' : σ} {i : ℕ} {a b : α}

/-- At most one process is active; the state is at the stage it names, or at rest. -/
structure Exclusive (active : α → Bool) (stage : σ → α → Prop) (rest : σ → Prop) (l : List α)
    (s : σ) : Prop where
  sole : ∀ (i j : ℕ) (a b : α), l[i]? = some a → l[j]? = some b → active a = true →
    active b = true → i = j
  stage : ∀ a ∈ l, active a = true → stage s a
  rest : (∀ a ∈ l, active a = false) → rest s

/-- The place of process `i` changes while all others are passive. -/
theorem Exclusive.of_set (h : ∀ (j : ℕ) (c : α), j ≠ i → l[j]? = some c → active c = false)
    (hi : i < l.length) (hs : active b = true → stage s' b) (hr : active b = false → rest s') :
    Exclusive active stage rest (l.set i b) s' := by
  have other : ∀ (j : ℕ) (c : α), (l.set i b)[j]? = some c → active c = true → j = i ∧ c = b := by
    intro j c hj hc
    by_cases hji : j = i
    · subst hji
      rw [List.getElem?_set_self hi] at hj
      exact ⟨rfl, (Option.some.inj hj).symm⟩
    · rw [List.getElem?_set_ne (Ne.symm hji)] at hj
      rw [h j c hji hj] at hc
      cases hc
  constructor
  · intro j k c d hj hk hc hd
    rw [(other j c hj hc).1, (other k d hk hd).1]
  · intro c hc hact
    obtain ⟨j, hj⟩ := List.mem_iff_getElem?.mp hc
    obtain ⟨_, rfl⟩ := other j c hj hact
    exact hs hact
  · intro hpassive
    exact hr (hpassive b (List.mem_iff_getElem?.mpr ⟨i, List.getElem?_set_self hi⟩))

/-- The active process moves on, or becomes passive and leaves the state at rest. -/
theorem Exclusive.advance (h : Exclusive active stage rest l s) (hi : l[i]? = some a)
    (ha : active a = true) (hs : active b = true → stage s' b)
    (hr : active b = false → rest s') : Exclusive active stage rest (l.set i b) s' := by
  refine Exclusive.of_set ?_ (List.getElem?_eq_some_iff.mp hi).1 hs hr
  intro j c hji hj
  by_contra hc
  exact hji (h.sole j i c a hj hi (by simpa using hc) ha)

/-- The stage that the active process names. -/
theorem Exclusive.at (h : Exclusive active stage rest l s) (hi : l[i]? = some a)
    (ha : active a = true) : stage s a :=
  h.stage a (List.mem_iff_getElem?.mpr ⟨i, hi⟩) ha

/-- The active process moves on and stays active. -/
theorem Exclusive.move (h : Exclusive active stage rest l s) (hi : l[i]? = some a)
    (ha : active a = true) (hb : active b = true) (hs : stage s' b) :
    Exclusive active stage rest (l.set i b) s' := by
  refine h.advance hi ha (fun _ => hs) ?_
  intro hpassive
  rw [hb] at hpassive
  cases hpassive

/-- The active process becomes passive. -/
theorem Exclusive.retire (h : Exclusive active stage rest l s) (hi : l[i]? = some a)
    (ha : active a = true) (hb : active b = false) (hr : rest s') :
    Exclusive active stage rest (l.set i b) s' := by
  refine h.advance hi ha ?_ fun _ => hr
  intro hactive
  rw [hb] at hactive
  cases hactive

/-- With no process active, process `i` becomes active. -/
theorem Exclusive.enter (hpassive : ∀ c ∈ l, active c = false) (hi : l[i]? = some a)
    (hs : active b = true → stage s' b) (hr : active b = false → rest s') :
    Exclusive active stage rest (l.set i b) s' := by
  refine Exclusive.of_set ?_ (List.getElem?_eq_some_iff.mp hi).1 hs hr
  intro j c _ hj
  exact hpassive c (List.mem_iff_getElem?.mpr ⟨j, hj⟩)

/-- With no process active, a new one is added. -/
theorem Exclusive.add (hpassive : ∀ c ∈ l, active c = false) (hs : active b = true → stage s' b)
    (hr : active b = false → rest s') : Exclusive active stage rest (l ++ [b]) s' := by
  constructor
  · intro j k c d hj hk hc hd
    have last : ∀ {j : ℕ} {c : α}, (l ++ [b])[j]? = some c → active c = true → j = l.length := by
      intro j c hj hc
      rcases Nat.lt_trichotomy j l.length with hlt | heq | hgt
      · rw [List.getElem?_append_left hlt] at hj
        rw [hpassive c (List.mem_iff_getElem?.mpr ⟨j, hj⟩)] at hc
        cases hc
      · exact heq
      · rw [List.getElem?_eq_none (by simp; omega)] at hj
        cases hj
    rw [last hj hc, last hk hd]
  · intro c hc hact
    rcases List.mem_append.mp hc with hc | hc
    · rw [hpassive c hc] at hact
      cases hact
    · rw [List.mem_singleton.mp hc] at hact ⊢
      exact hs hact
  · intro h
    exact hr (h b (by simp))

/-- A new process that is passive changes nothing. -/
theorem Exclusive.addPassive (h : Exclusive active stage rest l s) (hb : active b = false) :
    Exclusive active stage rest (l ++ [b]) s := by
  have old : ∀ {j : ℕ} {c : α}, (l ++ [b])[j]? = some c → active c = true → l[j]? = some c := by
    intro j c hj hc
    rcases Nat.lt_or_ge j l.length with hlt | hge
    · rwa [List.getElem?_append_left hlt] at hj
    · rw [List.getElem?_append_right hge] at hj
      have hcb : c = b := by
        have := List.mem_iff_getElem?.mpr ⟨_, hj⟩
        simpa using this
      rw [hcb, hb] at hc
      cases hc
  constructor
  · intro j k c d hj hk hc hd
    exact h.sole j k c d (old hj hc) (old hk hd) hc hd
  · intro c hc hact
    obtain ⟨j, hj⟩ := List.mem_iff_getElem?.mp hc
    exact h.stage c (List.mem_iff_getElem?.mpr ⟨j, old hj hact⟩) hact
  · intro hpassive
    exact h.rest fun c hc => hpassive c (List.mem_append_left _ hc)

/-- The state changes and no process moves. -/
theorem Exclusive.keep (h : Exclusive active stage rest l s)
    (hs : ∀ a ∈ l, active a = true → stage s a → stage s' a) (hr : rest s → rest s') :
    Exclusive active stage rest l s' where
  sole := h.sole
  stage a ha hact := hs a ha hact (h.stage a ha hact)
  rest hpassive := hr (h.rest hpassive)

end Atlax.Library
