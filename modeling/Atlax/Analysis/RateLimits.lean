import Atlax.Library.Processes
import Atlax.Library.Run
import Atlax.Model.RateLimiter
import Mathlib.Algebra.Order.Field.Rat

/-!
# What eviction does to a rate limit

Sweep drops the bucket of an IP that has been idle for ten minutes, and the next Allow makes a full
one in its place. That changes nothing when the old bucket would have been full as well: when
`burst` tokens come back in ten minutes, less the time that an Allow may take between noting the
time and asking its limiter. Then a run with sweeps is matched, answer for answer, by the same run
without them. Otherwise eviction grants requests that the limit would have refused.
-/

set_option autoImplicit false

namespace Atlax.Analysis

open Atlax.Model Atlax.Library

variable {ip : String} {now : ℚ}

/-- The answers of a run, each with its call. -/
def allowOut (rl : IPRateLimiter) (a : RateAction) (_ : IPRateLimiter) : List (ℕ × Bool) :=
  match a with
  | .ask i => (rl.returns a).toList.map fun answer => (i, answer)
  | _ => []

def isSweep : RateAction → Bool
  | .sweep _ => true
  | _ => false

/-- Every Allow asks its limiter within `d` seconds of the time it has noted.
SOURCE: ratelimit.go:59-62 -/
def AsksWithin (d : ℚ) (rl : IPRateLimiter) : RateAction → Prop
  | .ask i =>
    match rl.calls[i]? with
    | some c => rl.clock ≤ c.seen + d
    | none => True
  | _ => True

instance (d : ℚ) (rl : IPRateLimiter) (a : RateAction) : Decidable (AsksWithin d rl a) := by
  unfold AsksWithin
  repeat' split
  all_goals infer_instance

/-! ## A limiter and its shadow without sweeps -/

/-- An entry and the one that was never swept: both have the same level, or the one is dropped and
the other is full. -/
inductive EntryShadow (rps burst d clock : ℚ) (l l' : ℕ → TokenBucket ℚ) :
    Option IPEntry → Option IPEntry → Prop
  | absent : EntryShadow rps burst d clock l l' none none
  | kept (e e' : IPEntry)
      (hlevel : (l e.limiter).level rps burst clock = (l' e'.limiter).level rps burst clock)
      (hseen : e.lastSeen ≤ clock) (hlast : (l e.limiter).last ≤ e.lastSeen + d)
      (htokens : 0 ≤ (l e.limiter).tokens) :
      EntryShadow rps burst d clock l l' (some e) (some e')
  | dropped (e' : IPEntry) (hfull : (l' e'.limiter).level rps burst clock = burst) :
      EntryShadow rps burst d clock l l' none (some e')

/-- A call and its shadow; one that may still ask holds the limiter of the entry. -/
structure CallShadow (d : ℚ) (rl rl' : IPRateLimiter) (c c' : AllowCall) : Prop where
  ip : c'.ip = c.ip
  returned : c'.returned = c.returned
  seen : c.seen ≤ rl.clock
  live : c.returned = false → rl.clock ≤ c.seen + d →
    ∃ e e', rl.entries c.ip = some e ∧ rl'.entries c.ip = some e' ∧ e.limiter = c.limiter ∧
      e'.limiter = c'.limiter ∧ c.seen ≤ e.lastSeen

/-- A limiter that is swept and one that is not. -/
structure Shadows (d : ℚ) (rl rl' : IPRateLimiter) : Prop where
  rps : rl'.rps = rl.rps
  burst : rl'.burst = rl.burst
  clock : rl'.clock = rl.clock
  pos : 0 < rl.rps
  refills : (rl.burst : ℚ) ≤ rl.rps * (defaultStaleTimeout - d)
  entry : ∀ ip, EntryShadow rl.rps rl.burst d rl.clock (rl.limiters ip) (rl'.limiters ip)
    (rl.entries ip) (rl'.entries ip)
  call : List.Forall₂ (CallShadow d rl rl') rl.calls rl'.calls

variable {d : ℚ} {rl rl' : IPRateLimiter} {e : IPEntry}

/-- The steps leave the parameters alone. -/
theorem Shadows.tick (h : Shadows d rl rl') {elapsed : ℚ} (he : 0 ≤ elapsed) :
    Shadows d { rl with clock := rl.clock + elapsed }
      { rl' with clock := rl'.clock + elapsed } := by
  have hgain : 0 ≤ rl.rps * elapsed := mul_nonneg h.pos.le he
  have hclock : rl.clock ≤ rl.clock + elapsed := le_add_of_nonneg_right he
  refine ⟨h.rps, h.burst, by rw [h.clock], h.pos, h.refills, ?_, ?_⟩
  · intro ip
    have hip := h.entry ip
    generalize rl.entries ip = o, rl'.entries ip = o' at hip ⊢
    cases hip with
    | absent => exact .absent
    | kept e e' hlevel hseen hlast htokens =>
      refine .kept e e' ?_ (hseen.trans hclock) hlast htokens
      rw [TokenBucket.level_later hgain, TokenBucket.level_later hgain, hlevel]
    | dropped e' hfull =>
      refine .dropped e' ?_
      rw [TokenBucket.level_later hgain, hfull]
      exact min_eq_left (le_add_of_nonneg_right hgain)
  · refine h.call.imp ?_
    intro c c' hc
    exact ⟨hc.ip, hc.returned, hc.seen.trans hclock,
      fun hr hlive => hc.live hr (hclock.trans hlive)⟩

theorem sweep_kept (he : rl.entries ip = some e)
    (h : ¬ e.lastSeen < now - defaultStaleTimeout) : (rl.sweep now).entries ip = some e := by
  simp only [IPRateLimiter.sweep, he, Option.filter_some, h, not_false_eq_true, decide_true,
    if_true]

theorem sweep_dropped (he : rl.entries ip = some e)
    (h : e.lastSeen < now - defaultStaleTimeout) : (rl.sweep now).entries ip = none := by
  simp only [IPRateLimiter.sweep, he, Option.filter_some, h, not_true_eq_false, decide_false,
    Bool.false_eq_true, if_false]

theorem sweep_absent (he : rl.entries ip = none) :
    (rl.sweep now).entries ip = none := by
  simp only [IPRateLimiter.sweep, he, Option.filter_none]

/-- What is dropped would be full. -/
theorem Shadows.sweep (h : Shadows d rl rl') (hd : d ≤ defaultStaleTimeout)
    (hnow : now ≤ rl.clock) : Shadows d (rl.sweep now) rl' := by
  refine ⟨h.rps, h.burst, h.clock, h.pos, h.refills, ?_, ?_⟩
  · intro ip
    have hip := h.entry ip
    cases he : rl.entries ip with
    | none =>
      rw [sweep_absent he]
      rw [he] at hip
      exact hip
    | some e =>
      by_cases hstale : e.lastSeen < now - defaultStaleTimeout
      · rw [sweep_dropped he hstale]
        rw [he] at hip
        generalize rl'.entries ip = o' at hip ⊢
        cases hip with
        | kept _ e' hlevel hseen hlast htokens =>
          refine .dropped e' (hlevel.symm.trans ?_)
          refine TokenBucket.level_eq_burst htokens (h.refills.trans ?_)
          exact mul_le_mul_of_nonneg_left (by linarith) h.pos.le
      · rw [sweep_kept he hstale]
        rw [he] at hip
        exact hip
  · refine h.call.imp ?_
    intro c c' hc
    refine ⟨hc.ip, hc.returned, hc.seen, ?_⟩
    intro hr hlive
    obtain ⟨e, e', he, he', hl, hl', hseen⟩ := hc.live hr hlive
    -- an entry with a call that may still ask is not stale
    have hfresh : ¬ e.lastSeen < now - defaultStaleTimeout := by
      have hle : rl.clock ≤ c.seen + d := hlive
      linarith
    exact ⟨e, e', sweep_kept he hfresh, he', hl, hl', hseen⟩

/-! ## Allow -/

theorem allow_entries (ip : String) :
    (rl.allow ip).entries ip = some (rl.seen ip) := Function.update_self ..

theorem allow_entries_ne {ip ip' : String} (h : ip' ≠ ip) :
    (rl.allow ip).entries ip' = rl.entries ip' := Function.update_of_ne h ..

theorem allow_limiters_ne {ip ip' : String} (h : ip' ≠ ip) :
    (rl.allow ip).limiters ip' = rl.limiters ip' := by
  unfold IPRateLimiter.allow
  dsimp only
  split
  · rfl
  · exact Function.update_of_ne h ..

theorem allow_found (h : rl.entries ip = some e) :
    (rl.allow ip).limiters ip = rl.limiters ip ∧ rl.seen ip = { e with lastSeen := rl.clock } := by
  simp [IPRateLimiter.allow, IPRateLimiter.seen, h]

theorem allow_made (h : rl.entries ip = none) :
    (rl.allow ip).limiters ip (rl.seen ip).limiter = .full rl.burst rl.clock ∧
      rl.seen ip = ⟨rl.made, rl.clock⟩ := by
  simp [IPRateLimiter.allow, IPRateLimiter.seen, h]

/-- Both have the entry now, with the same level. -/
theorem Shadows.allowed (h : Shadows d rl rl') (hd : 0 ≤ d) (ip : String) :
    EntryShadow rl.rps rl.burst d rl.clock ((rl.allow ip).limiters ip) ((rl'.allow ip).limiters ip)
      (some (rl.seen ip)) (some (rl'.seen ip)) := by
  have hent := h.entry ip
  have hclock : rl.clock ≤ rl.clock + d := le_add_of_nonneg_right hd
  cases he : rl.entries ip with
  | none =>
    obtain ⟨hfull, hseen⟩ := allow_made he
    have hlevel' : ((rl'.allow ip).limiters ip (rl'.seen ip).limiter).level rl.rps rl.burst
        rl.clock = rl.burst := by
      cases he' : rl'.entries ip with
      | none => rw [(allow_made he').1, h.burst, h.clock, TokenBucket.level_full]
      | some e' =>
        rw [he, he'] at hent
        cases hent with
        | dropped _ hfull' =>
          rw [(allow_found he').1, (allow_found he').2]
          exact hfull'
    refine .kept _ _ ?_ ?_ ?_ ?_
    · rw [hlevel', hfull, TokenBucket.level_full]
    · rw [hseen]
    · rw [hfull, hseen]
      exact hclock
    · rw [hfull]
      exact Nat.cast_nonneg _
  | some e =>
    cases he' : rl'.entries ip with
    | none =>
      rw [he, he'] at hent
      cases hent
    | some e' =>
      rw [he, he'] at hent
      cases hent with
      | kept _ _ hlevel hseen hlast htokens =>
        rw [(allow_found he).1, (allow_found he).2, (allow_found he').1, (allow_found he').2]
        refine .kept _ _ hlevel le_rfl ?_ htokens
        show (rl.limiters ip e.limiter).last ≤ rl.clock + d
        linarith

/-- A call that held the limiter of its entry still does. -/
theorem CallShadow.allow {c c' : AllowCall} (hc : CallShadow d rl rl' c c') (ip : String) :
    CallShadow d (rl.allow ip) (rl'.allow ip) c c' := by
  refine ⟨hc.ip, hc.returned, hc.seen, ?_⟩
  intro hr hlive
  obtain ⟨e, e', he, he', hl, hl', hseen⟩ := hc.live hr hlive
  by_cases hip : c.ip = ip
  · subst hip
    refine ⟨rl.seen c.ip, rl'.seen c.ip, allow_entries _, allow_entries _, ?_, ?_, ?_⟩
    · rw [(allow_found he).2]
      exact hl
    · rw [(allow_found he').2]
      exact hl'
    · rw [(allow_found he).2]
      exact hc.seen
  · exact ⟨e, e', by rw [allow_entries_ne hip, he], by rw [allow_entries_ne hip, he'], hl, hl',
      hseen⟩

theorem seen_lastSeen (ip : String) : (rl.seen ip).lastSeen = rl.clock := by
  unfold IPRateLimiter.seen
  split <;> rfl

theorem Shadows.allow (h : Shadows d rl rl') (hd : 0 ≤ d) (ip : String) :
    Shadows d (rl.allow ip) (rl'.allow ip) := by
  refine ⟨h.rps, h.burst, h.clock, h.pos, h.refills, ?_, ?_⟩
  · intro ip'
    by_cases hip : ip' = ip
    · subst hip
      rw [allow_entries, allow_entries]
      exact h.allowed hd ip'
    · rw [allow_entries_ne hip, allow_entries_ne hip, allow_limiters_ne hip, allow_limiters_ne hip]
      exact h.entry ip'
  · refine List.rel_append (h.call.imp fun c c' hc => hc.allow ip) (.cons ?_ .nil)
    refine ⟨rfl, rfl, le_rfl, fun _ _ => ?_⟩
    exact ⟨rl.seen ip, rl'.seen ip, allow_entries _, allow_entries _, rfl, rfl,
      (seen_lastSeen ip).ge⟩

/-! ## The limiter is asked -/

theorem ask_limiters_ne {i : ℕ} {c : AllowCall} (h : ip ≠ c.ip) :
    (rl.ask i c).limiters ip = rl.limiters ip := Function.update_of_ne h ..

theorem ask_limiter {i : ℕ} {c : AllowCall} :
    (rl.ask i c).limiters c.ip c.limiter = (rl.answer c).2 := by
  simp [IPRateLimiter.ask]

theorem Shadows.ask (h : Shadows d rl rl') (i : ℕ) {c c' : AllowCall}
    (hcc : CallShadow d rl rl' c c') (hr : c.returned = false) (hlive : rl.clock ≤ c.seen + d) :
    (rl.answer c).1 = (rl'.answer c').1 ∧ Shadows d (rl.ask i c) (rl'.ask i c') := by
  obtain ⟨e, e', he, he', hl, hl', hseen⟩ := hcc.live hr hlive
  have hent := h.entry c.ip
  rw [he, he'] at hent
  cases hent with
  | kept _ _ hlevel hclock hlast htokens =>
    have hanswer : rl.answer c =
        (rl.limiters c.ip e.limiter).take rl.rps rl.burst rl.clock := by
      rw [hl]
      rfl
    have hanswer' : rl'.answer c' =
        (rl'.limiters c.ip e'.limiter).take rl.rps rl.burst rl.clock := by
      rw [IPRateLimiter.answer, hcc.ip, hl', h.rps, h.burst, h.clock]
    refine ⟨?_, h.rps, h.burst, h.clock, h.pos, h.refills, ?_, ?_⟩
    · rw [hanswer, hanswer']
      exact TokenBucket.take_fst hlevel
    · intro ip
      show EntryShadow rl.rps rl.burst d rl.clock _ _ (rl.entries ip) (rl'.entries ip)
      by_cases hip : ip = c.ip
      · subst hip
        have hown : (rl.ask i c).limiters c.ip e.limiter = (rl.answer c).2 := by
          rw [hl]
          exact ask_limiter
        have hown' : (rl'.ask i c').limiters c.ip e'.limiter = (rl'.answer c').2 := by
          rw [← hcc.ip, hl']
          exact ask_limiter
        rw [he, he']
        refine .kept e e' ?_ hclock ?_ ?_
        · rw [hown, hown', hanswer, hanswer', TokenBucket.level_take, TokenBucket.level_take,
            hlevel]
        · rw [hown, hanswer]
          exact TokenBucket.take_last hlast (by linarith)
        · rw [hown, hanswer]
          exact TokenBucket.take_tokens htokens
      · rw [ask_limiters_ne hip, ask_limiters_ne (by rwa [hcc.ip])]
        exact h.entry ip
    · refine forall₂_set ?_ ⟨hcc.ip, rfl, hcc.seen, nofun⟩
      exact h.call.imp fun _ _ hx => ⟨hx.ip, hx.returned, hx.seen, hx.live⟩

/-! ## Runs -/

/-- The step that is left out. -/
theorem shadows_skip (hd : d ≤ defaultStaleTimeout) (rl : IPRateLimiter) (a : RateAction)
    (rl₁ rl' : IPRateLimiter) (h : Shadows d rl rl') (_ : AsksWithin d rl a)
    (hstep : rl.step a = some rl₁) (ha : (!isSweep a) = false) :
    Shadows d rl₁ rl' ∧ allowOut rl a rl₁ = [] := by
  cases a with
  | sweep now =>
    obtain ⟨hnow, hs⟩ := Option.ite_none_right_eq_some.mp hstep
    cases hs
    exact ⟨h.sweep hd hnow, rfl⟩
  | allow | ask | tick => cases ha

/-- The steps that are matched. -/
theorem shadows_keep (hd : 0 ≤ d) (rl : IPRateLimiter) (a : RateAction) (rl₁ rl' : IPRateLimiter)
    (h : Shadows d rl rl') (hok : AsksWithin d rl a) (hstep : rl.step a = some rl₁)
    (ha : (!isSweep a) = true) :
    ∃ rl₁', rl'.step a = some rl₁' ∧ Shadows d rl₁ rl₁' ∧
      allowOut rl a rl₁ = allowOut rl' a rl₁' := by
  cases a with
  | sweep => cases ha
  | allow ip =>
    cases hstep
    exact ⟨rl'.allow ip, rfl, h.allow hd ip, rfl⟩
  | tick elapsed =>
    obtain ⟨he, hs⟩ := Option.ite_none_right_eq_some.mp hstep
    cases hs
    exact ⟨_, if_pos he, h.tick he, rfl⟩
  | ask i =>
    simp only [IPRateLimiter.step] at hstep ⊢
    simp only [AsksWithin] at hok
    cases hc : rl.calls[i]? with
    | none =>
      rw [hc] at hstep
      cases hstep
    | some c =>
      rw [hc] at hstep hok
      obtain ⟨hr, hs⟩ := Option.ite_none_left_eq_some.mp hstep
      cases hs
      obtain ⟨c', hc', hcc⟩ := exists_forall₂_get h.call hc
      have hr₀ : c.returned = false := by simpa using hr
      obtain ⟨hanswer, hask⟩ := h.ask i hcc hr₀ hok
      refine ⟨rl'.ask i c', ?_, hask, ?_⟩
      · rw [hc']
        exact if_neg (by rw [hcc.returned]; exact hr)
      · simp [allowOut, IPRateLimiter.returns, hc, hc', hanswer]

/-- Where `burst` tokens come back within the stale timeout, less the `d` seconds that an Allow may
take between its two looks at the clock: a run with sweeps can be made without them, and every Allow
returns the same.
SOURCE: ratelimit.go:48-63, 93-103 -/
theorem sweep_unseen {rps : ℚ} {burst : ℕ} {clock : ℚ} (hpos : 0 < rps) (hd : 0 ≤ d)
    (hd' : d ≤ defaultStaleTimeout) (hrefills : (burst : ℚ) ≤ rps * (defaultStaleTimeout - d))
    {as : List RateAction}
    (h : exec (guarded IPRateLimiter.step (AsksWithin d)) (newIPRateLimiter rps burst clock) as =
      some rl) :
    ∃ rl', exec IPRateLimiter.step (newIPRateLimiter rps burst clock)
        (as.filter fun a => !isSweep a) = some rl' ∧
      outputs IPRateLimiter.step allowOut (newIPRateLimiter rps burst clock) as =
        outputs IPRateLimiter.step allowOut (newIPRateLimiter rps burst clock)
          (as.filter fun a => !isSweep a) := by
  have hstart : Shadows d (newIPRateLimiter rps burst clock) (newIPRateLimiter rps burst clock) :=
    ⟨rfl, rfl, rfl, hpos, hrefills, fun _ => .absent, .nil⟩
  obtain ⟨rl', hrun, -, hout⟩ := exec_filter (fun a => !isSweep a) (Shadows d) (shadows_skip hd')
    (shadows_keep hd) h hstart
  exact ⟨rl', hrun, hout⟩

/-- A burst of five comes back in half a second: an eviction between two requests makes no
difference. -/
def sweptRun : List RateAction :=
  [.allow "10.0.0.1", .tick 1, .ask 0, .tick 601, .sweep 602, .allow "10.0.0.1", .ask 1]

theorem sweep_unseen_swept : ∃ rl',
    exec IPRateLimiter.step (newIPRateLimiter 10 5 0) (sweptRun.filter fun a => !isSweep a) =
      some rl' ∧
    outputs IPRateLimiter.step allowOut (newIPRateLimiter 10 5 0) sweptRun =
      outputs IPRateLimiter.step allowOut (newIPRateLimiter 10 5 0)
        (sweptRun.filter fun a => !isSweep a) := by
  have hex : ∃ rl, exec (guarded IPRateLimiter.step (AsksWithin 1)) (newIPRateLimiter 10 5 0)
      sweptRun = some rl ∧ rl.made = 2 := exists_some_of_any _ (by decide +kernel)
  obtain ⟨rl, hrl, -⟩ := hex
  exact sweep_unseen (by norm_num) (by norm_num) (by norm_num [defaultStaleTimeout])
    (by norm_num [defaultStaleTimeout]) hrl

/-- One request in a thousand seconds is allowed. A second one after 601 seconds is refused, unless
the entry has been swept in between. -/
theorem sweep_seen :
    outputs IPRateLimiter.step allowOut (newIPRateLimiter (1 / 1000) 1 0)
      [.allow "10.0.0.1", .ask 0, .tick 601, .sweep 601, .allow "10.0.0.1", .ask 1] =
        [(0, true), (1, true)] ∧
    outputs IPRateLimiter.step allowOut (newIPRateLimiter (1 / 1000) 1 0)
      [.allow "10.0.0.1", .ask 0, .tick 601, .allow "10.0.0.1", .ask 1] =
        [(0, true), (1, false)] := by
  decide +kernel

end Atlax.Analysis
