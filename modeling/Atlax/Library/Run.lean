import Mathlib.Data.List.Basic
import Mathlib.Data.List.Induction
import Mathlib.Logic.Relation

/-!
# Runs of a partial step function

A component is a state type with a partial step function `step : σ → α → Option σ`: a label
that is not enabled in a state gives `none`. `Reach step ok s₀` is the set of states that runs
from `s₀` reach when every step of the run satisfies the side condition `ok` in the state
before it. Plain reachability is `ok := fun _ _ => True`; a side condition is how an assumption
on a schedule ("no identifier is handed out while ...") enters a statement about runs.

`Reach.invariant` is the induction every safety result of the development goes through;
`exists_reach_of_exec` turns a list of labels that evaluates to the end into a reachable state,
which is how a concrete run is exhibited. `outputs` collects what the steps of a run put out, and
`exec_filter` compares a run with the one that leaves some of its steps out.
-/

set_option autoImplicit false

namespace Atlax.Library

variable {σ α : Type}

/-- The states reached from `s₀` by steps that all satisfy `ok` in the state before them. -/
inductive Reach (step : σ → α → Option σ) (ok : σ → α → Prop) (s₀ : σ) : σ → Prop
  | refl : Reach step ok s₀ s₀
  | tail {s s' : σ} {a : α} :
      Reach step ok s₀ s → ok s a → step s a = some s' → Reach step ok s₀ s'

/-- No side condition on the steps. -/
def anyStep (_ : σ) (_ : α) : Prop := True

instance (s : σ) (a : α) : Decidable (anyStep s a) := inferInstanceAs (Decidable True)

/-- Run a list of labels, failing at the first one that is not enabled. -/
def exec (step : σ → α → Option σ) (s : σ) (as : List α) : Option σ :=
  as.foldlM step s

variable {step : σ → α → Option σ} {ok ok' : σ → α → Prop} {s₀ s s' : σ} {as : List α}

/-- The invariant rule: what holds initially and is kept by every admitted step from a reached
state holds in every reached state. -/
theorem Reach.invariant (I : σ → Prop) (h : Reach step ok s₀ s) (h0 : I s₀)
    (hs : ∀ s a s', Reach step ok s₀ s → I s → ok s a → step s a = some s' → I s') : I s := by
  induction h with
  | refl => exact h0
  | tail hr hok hstep ih => exact hs _ _ _ hr ih hok hstep

/-- Weakening the side condition keeps every reached state. -/
theorem Reach.mono (h : Reach step ok s₀ s) (himp : ∀ s a, ok s a → ok' s a) :
    Reach step ok' s₀ s := by
  induction h with
  | refl => exact .refl
  | tail _ hok hstep ih => exact .tail ih (himp _ _ hok) hstep

/-- A run continues a run. -/
theorem Reach.trans (h : Reach step ok s₀ s) (h' : Reach step ok s s') : Reach step ok s₀ s' := by
  induction h' with
  | refl => exact h
  | tail _ hok hstep ih => exact .tail ih hok hstep

/-- The simulation rule: when each step from related states is matched by any number of steps on the
other side that lead to related states, each state reached on one side has a related one that is
reached on the other. -/
theorem Reach.simulates {τ β : Type} {step' : τ → β → Option τ} {ok' : τ → β → Prop} {t₀ : τ}
    (R : σ → τ → Prop) (h : Reach step ok s₀ s) (h0 : R s₀ t₀)
    (hs : ∀ s a s' t, Reach step ok s₀ s → Reach step' ok' t₀ t → R s t → ok s a →
      step s a = some s' → ∃ t', Reach step' ok' t t' ∧ R s' t') :
    ∃ t, Reach step' ok' t₀ t ∧ R s t := by
  induction h with
  | refl => exact ⟨t₀, .refl, h0⟩
  | tail hr hok hstep ih =>
    obtain ⟨t, ht, hR⟩ := ih
    obtain ⟨t', ht', hR'⟩ := hs _ _ _ t hr ht hR hok hstep
    exact ⟨t', ht.trans ht', hR'⟩

/-- The step function that refuses what the side condition excludes. -/
def guarded (step : σ → α → Option σ) (ok : σ → α → Prop) [∀ s a, Decidable (ok s a)] (s : σ)
    (a : α) : Option σ :=
  if ok s a then step s a else none

theorem guarded_anyStep (step : σ → α → Option σ) : guarded step anyStep = step := by
  funext s a
  exact if_pos trivial

/-- A list of labels that runs to the end within the side condition reaches its final state. -/
theorem Reach.of_exec [∀ s a, Decidable (ok s a)] (as : List α)
    (h : exec (guarded step ok) s₀ as = some s) : Reach step ok s₀ s := by
  induction as generalizing s₀ with
  | nil =>
    cases h
    exact .refl
  | cons a as ih =>
    simp only [exec, List.foldlM_cons, Option.bind_eq_bind, Option.bind_eq_some_iff, guarded,
      Option.ite_none_right_eq_some] at h
    obtain ⟨s₁, ⟨hok, h₁⟩, h₂⟩ := h
    exact Reach.trans (.tail .refl hok h₁) (ih h₂)

theorem exists_some_of_any {β : Type} {x : Option β} (P : β → Prop) [DecidablePred P]
    (h : x.any (fun b => decide (P b)) = true) : ∃ b, x = some b ∧ P b := by
  obtain ⟨b, hb, hP⟩ := (Option.any_eq_true _ _).mp h
  exact ⟨b, hb, of_decide_eq_true hP⟩

/-- A run to a state with a decidable property, by evaluation. -/
theorem exists_reach_of_exec [∀ s a, Decidable (ok s a)] (as : List α) (P : σ → Prop)
    [DecidablePred P]
    (h : (exec (guarded step ok) s₀ as).any (fun s => decide (P s)) = true) :
    ∃ s, Reach step ok s₀ s ∧ P s := by
  obtain ⟨s, hs, hP⟩ := exists_some_of_any P h
  exact ⟨s, .of_exec as hs, hP⟩

/-- A run and one more step with a decidable property, by evaluation. -/
theorem exists_step_of_exec [∀ s a, Decidable (ok s a)] (as : List α) (a : α) (P : σ → σ → Prop)
    [∀ s s', Decidable (P s s')]
    (h : (exec (guarded step ok) s₀ as).any
      (fun s => (step s a).any fun s' => decide (P s s')) = true) :
    ∃ s s', Reach step ok s₀ s ∧ step s a = some s' ∧ P s s' := by
  have hex := exists_reach_of_exec as (fun s => (step s a).any (fun s' => decide (P s s')) = true)
    (by simpa using h)
  obtain ⟨s, hs, hP⟩ := hex
  obtain ⟨s', hs', hP'⟩ := exists_some_of_any (P s) hP
  exact ⟨s, s', hs, hs', hP'⟩

/-- A run and a second run from where it ends, by evaluation. -/
theorem exists_runs_of_exec [∀ s a, Decidable (ok s a)] [∀ s a, Decidable (ok' s a)]
    (as bs : List α) (P : σ → σ → Prop) [∀ s s', Decidable (P s s')]
    (h : (exec (guarded step ok) s₀ as).any
      (fun s => (exec (guarded step ok') s bs).any fun s' => decide (P s s')) = true) :
    ∃ s s', Reach step ok s₀ s ∧ Reach step ok' s s' ∧ P s s' := by
  have hex := exists_reach_of_exec as
    (fun s => (exec (guarded step ok') s bs).any (fun s' => decide (P s s')) = true)
    (by simpa using h)
  obtain ⟨s, hs, hP⟩ := hex
  obtain ⟨s', hs', hP'⟩ := exists_reach_of_exec bs (P s) hP
  exact ⟨s, s', hs, hs', hP'⟩

theorem exists_ok_of_any {ε β : Type} {x : Except ε β} (P : β → Prop) [DecidablePred P]
    (h : x.toOption.any (fun b => decide (P b)) = true) : ∃ b, x = .ok b ∧ P b := by
  cases x with
  | error e => cases h
  | ok b => exact ⟨b, rfl, of_decide_eq_true h⟩

/-- A start and a run from it with a decidable property, by evaluation. -/
theorem exists_start_of_exec {ε : Type} [∀ s a, Decidable (ok s a)] {start : Except ε σ}
    (as : List α) (P : σ → σ → Prop) [∀ s s', Decidable (P s s')]
    (h : start.toOption.any (fun s₀ =>
      (exec (guarded step ok) s₀ as).any fun s => decide (P s₀ s)) = true) :
    ∃ s₀ s, start = .ok s₀ ∧ Reach step ok s₀ s ∧ P s₀ s := by
  obtain ⟨s₀, hstart, hrun⟩ := exists_ok_of_any
    (fun s₀ => (exec (guarded step ok) s₀ as).any (fun s => decide (P s₀ s)) = true)
    (by simpa using h)
  obtain ⟨s, hreach, hP⟩ := exists_reach_of_exec as (P s₀) hrun
  exact ⟨s₀, s, hstart, hreach, hP⟩

/-! ## Moments of a run -/

theorem exec_concat (step : σ → α → Option σ) (s₀ : σ) (as : List α) (a : α) :
    exec step s₀ (as ++ [a]) = (exec step s₀ as).bind fun s => step s a := by
  simp [exec, List.foldlM_append]

theorem exec_append (step : σ → α → Option σ) (s₀ : σ) (as bs : List α) :
    exec step s₀ (as ++ bs) = (exec step s₀ as).bind fun s => exec step s bs := by
  simp [exec, List.foldlM_append]

/-- `P` holds at some moment of the run `as` from `s₀`: after some beginning of it. -/
def Sometime (step : σ → α → Option σ) (s₀ : σ) (as : List α) (P : σ → Prop) : Prop :=
  ∃ n s, exec step s₀ (as.take n) = some s ∧ P s

variable {P : σ → Prop}

/-- The end of a run is one of its moments. -/
theorem Sometime.now (h : exec step s₀ as = some s) (hP : P s) : Sometime step s₀ as P :=
  ⟨as.length, s, by rwa [List.take_length], hP⟩

/-- The moments of a run are moments of every run that begins with it. -/
theorem Sometime.append (h : Sometime step s₀ as P) (bs : List α) :
    Sometime step s₀ (as ++ bs) P := by
  obtain ⟨n, s, hs, hP⟩ := h
  refine ⟨min n as.length, s, ?_, hP⟩
  rwa [List.take_append_of_le_length (Nat.min_le_right _ _), ← List.take_eq_take_min]

/-- The invariant rule for what depends on the run so far. -/
theorem exec_invariant [∀ s a, Decidable (ok s a)] (I : List α → σ → Prop)
    (h : exec (guarded step ok) s₀ as = some s) (h0 : I [] s₀)
    (hs : ∀ as a s s', exec step s₀ as = some s → I as s → ok s a → step s a = some s' →
      I (as ++ [a]) s') : exec step s₀ as = some s ∧ I as s := by
  induction as using List.reverseRecOn generalizing s with
  | nil =>
    cases h
    exact ⟨rfl, h0⟩
  | append_singleton as a ih =>
    rw [exec_concat] at h ⊢
    obtain ⟨t, ht, hstep⟩ := Option.bind_eq_some_iff.mp h
    obtain ⟨hexec, hI⟩ := ih ht
    rw [guarded, Option.ite_none_right_eq_some] at hstep
    exact ⟨by rw [hexec]; exact hstep.2, hs as a t s hexec hI hstep.1 hstep.2⟩

/-- The progress rule: when what holds so far enables every label and is kept by its step, every
list of labels is a run. -/
theorem exec_total (I : List α → σ → Prop) (h0 : I [] s₀)
    (hs : ∀ as a s, exec step s₀ as = some s → I as s → ∃ s', step s a = some s' ∧ I (as ++ [a]) s')
    (as : List α) : ∃ s, exec step s₀ as = some s ∧ I as s := by
  induction as using List.reverseRecOn with
  | nil => exact ⟨s₀, rfl, h0⟩
  | append_singleton as a ih =>
    obtain ⟨s, hexec, hI⟩ := ih
    obtain ⟨s', hstep, hI'⟩ := hs as a s hexec hI
    exact ⟨s', by rw [exec_concat, hexec]; exact hstep, hI'⟩

/-- A run within a side condition is a run within every weaker one. -/
theorem exec_mono [∀ s a, Decidable (ok s a)] [∀ s a, Decidable (ok' s a)]
    (h : exec (guarded step ok) s₀ as = some s) (himp : ∀ s a, ok s a → ok' s a) :
    exec (guarded step ok') s₀ as = some s := by
  have hI := exec_invariant (fun as s => exec (guarded step ok') s₀ as = some s) h rfl ?_
  · exact hI.2
  · intro as a s s' _ hI hok hstep
    rw [exec_concat, hI]
    exact (if_pos (himp s a hok)).trans hstep

/-- A side condition on the labels alone holds of every label of the run. -/
theorem exec_forall {P : α → Prop} [DecidablePred P]
    (h : exec (guarded step fun _ a => P a) s₀ as = some s) : ∀ a ∈ as, P a := by
  have hI := exec_invariant (fun as _ => ∀ a ∈ as, P a) h (by simp) ?_
  · exact hI.2
  · intro as a s s' _ hI hok _ b hb
    obtain hb | hb := List.mem_append.mp hb
    · exact hI b hb
    · rw [List.mem_singleton.mp hb]
      exact hok

/-- The variant rule: when every admitted step makes the measure smaller, a run is no longer than
what the measure loses on the way. -/
theorem exec_variant [∀ s a, Decidable (ok s a)] {I : σ → Prop} (μ : σ → ℕ)
    (h : exec (guarded step ok) s₀ as = some s) (h0 : I s₀)
    (hs : ∀ s a s', I s → ok s a → step s a = some s' → I s' ∧ μ s' < μ s) :
    I s ∧ as.length + μ s ≤ μ s₀ := by
  have hI := exec_invariant (fun as s => I s ∧ as.length + μ s ≤ μ s₀) h ⟨h0, by simp⟩ ?_
  · exact hI.2
  · intro as a s s' _ hI hok hstep
    obtain ⟨hI', hlt⟩ := hs s a s' hI.1 hok hstep
    refine ⟨hI', ?_⟩
    have hle := hI.2
    simp only [List.length_append, List.length_cons, List.length_nil]
    omega

/-! ## What a run puts out -/

section Outputs

variable {τ β : Type} {out : σ → α → σ → List β}

/-- What the steps of a run put out, one after the other, up to the first that is not enabled. -/
def outputs (step : σ → α → Option σ) (out : σ → α → σ → List β) : σ → List α → List β
  | _, [] => []
  | s, a :: as =>
    match step s a with
    | none => []
    | some s' => out s a s' ++ outputs step out s' as

theorem outputs_cons {a : α} (h : step s a = some s')
    (as : List α) : outputs step out s (a :: as) = out s a s' ++ outputs step out s' as := by
  rw [outputs, h]

theorem outputs_concat {a : α} (h : exec step s₀ as = some s) (hstep : step s a = some s') :
    outputs step out s₀ (as ++ [a]) = outputs step out s₀ as ++ out s a s' := by
  induction as generalizing s₀ with
  | nil =>
    cases h
    rw [List.nil_append, outputs_cons hstep]
    simp [outputs]
  | cons b as ih =>
    simp only [exec, List.foldlM_cons, Option.bind_eq_bind, Option.bind_eq_some_iff] at h
    obtain ⟨s₁, hb, h⟩ := h
    rw [List.cons_append, outputs_cons hb, outputs_cons hb, ih h, List.append_assoc]

/-- The step of a run that put out what stands after `l₁`, when a step puts out at most one. -/
theorem exists_output [∀ s a, Decidable (ok s a)]
    (hout : ∀ s a s', (out s a s').length ≤ 1) {l₁ l₂ : List β} {x : β}
    (h : exec (guarded step ok) s₀ as = some s) (hx : outputs step out s₀ as = l₁ ++ x :: l₂) :
    ∃ as₁ a t t', exec (guarded step ok) s₀ as₁ = some t ∧ ok t a ∧ step t a = some t' ∧
      out t a t' = [x] ∧ outputs step out s₀ as₁ = l₁ := by
  induction as generalizing s₀ l₁ with
  | nil => simp [outputs] at hx
  | cons a as ih =>
    simp only [exec, List.foldlM_cons, Option.bind_eq_bind, Option.bind_eq_some_iff] at h
    obtain ⟨s₁, hg, hrest⟩ := h
    obtain ⟨hok, hstep⟩ := Option.ite_none_right_eq_some.mp hg
    rw [outputs_cons hstep] at hx
    -- the thing is put out by this step, or by one of the others
    have later : ∀ {l : List β}, outputs step out s₁ as = l ++ x :: l₂ → out s₀ a s₁ ++ l = l₁ →
        ∃ as₁ b t t', exec (guarded step ok) s₀ as₁ = some t ∧ ok t b ∧ step t b = some t' ∧
          out t b t' = [x] ∧ outputs step out s₀ as₁ = l₁ := by
      intro l hl hpre
      obtain ⟨as₁, b, t, t', hexec₁, hokb, hstepb, hb, hl₁⟩ := ih hrest hl
      refine ⟨a :: as₁, b, t, t', ?_, hokb, hstepb, hb, ?_⟩
      · rw [exec, List.foldlM_cons, hg]
        exact hexec₁
      · rw [outputs_cons hstep, hl₁, hpre]
    cases hy : out s₀ a s₁ with
    | nil =>
      rw [hy, List.nil_append] at hx
      exact later hx (by rw [hy, List.nil_append])
    | cons y rest =>
      have hlen := hout s₀ a s₁
      rw [hy, List.length_cons] at hlen
      obtain rfl : rest = [] := List.length_eq_zero_iff.mp (by omega)
      rw [hy] at hx
      cases l₁ with
      | nil =>
        obtain rfl : y = x := by simpa using (List.cons.inj hx).1
        exact ⟨[], a, s₀, s₁, rfl, hok, hstep, hy, rfl⟩
      | cons z l =>
        obtain ⟨rfl, hl⟩ := List.cons.inj hx
        exact later (by simpa using hl) (by rw [hy]; rfl)

/-- The simulation rule for a run without some of its steps: the steps that are left out keep the
relation and put nothing out, the others are matched. -/
theorem exec_filter [∀ s a, Decidable (ok s a)] {step' : τ → α → Option τ}
    {out' : τ → α → τ → List β} (keep : α → Bool) (R : σ → τ → Prop)
    (hskip : ∀ s a s' t, R s t → ok s a → step s a = some s' → keep a = false →
      R s' t ∧ out s a s' = [])
    (hkeep : ∀ s a s' t, R s t → ok s a → step s a = some s' → keep a = true →
      ∃ t', step' t a = some t' ∧ R s' t' ∧ out s a s' = out' t a t')
    {t : τ} (h : exec (guarded step ok) s₀ as = some s) (hR : R s₀ t) :
    ∃ t', exec step' t (as.filter keep) = some t' ∧ R s t' ∧
      outputs step out s₀ as = outputs step' out' t (as.filter keep) := by
  induction as generalizing s₀ t with
  | nil =>
    cases h
    exact ⟨t, rfl, hR, rfl⟩
  | cons a as ih =>
    simp only [exec, List.foldlM_cons, Option.bind_eq_bind, Option.bind_eq_some_iff, guarded,
      Option.ite_none_right_eq_some] at h
    obtain ⟨s₁, ⟨hok, hstep⟩, hrest⟩ := h
    rw [outputs_cons hstep]
    cases hk : keep a with
    | false =>
      obtain ⟨hR₁, hout⟩ := hskip s₀ a s₁ t hR hok hstep hk
      obtain ⟨t', ht', hR', hrun⟩ := ih hrest hR₁
      rw [List.filter_cons_of_neg (by simp [hk]), hout]
      exact ⟨t', ht', hR', hrun⟩
    | true =>
      obtain ⟨t₁, ht₁, hR₁, hout⟩ := hkeep s₀ a s₁ t hR hok hstep hk
      obtain ⟨t', ht', hR', hrun⟩ := ih hrest hR₁
      rw [List.filter_cons_of_pos hk, outputs_cons ht₁, hout, hrun]
      refine ⟨t', ?_, hR', rfl⟩
      rw [exec, List.foldlM_cons, ht₁]
      exact ht'

end Outputs

end Atlax.Library
