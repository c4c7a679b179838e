import Atlax.Analysis.Heartbeats

/-!
# Stopping a tunnel

`Stop` cancels the context of the `acceptLoop` under way. `acceptLoop` then returns nil, and `Start`
looks at its own context to tell a stop from a lost connection. If that context is done, `Start`
returns. If it is not, the stop looks like a lost connection: `Start` has the client reconnect,
gives the next `acceptLoop` a fresh context and accepts streams again.
-/

set_option autoImplicit false

namespace Atlax.Analysis

open Atlax.Model Atlax.Library

/-- `acceptLoop` has seen that its context is cancelled, and has returned nil.
SOURCE: tunnel_impl.go:114-118 -/
def StopObserved (s : Tunnel) : Prop := s.pc = .left none

instance (s : Tunnel) : Decidable (StopObserved s) := inferInstanceAs (Decidable (_ = _))

/-- `Start` is on its way out, with the streams it has accepted so far. -/
structure Leaving (total : ℕ) (s : Tunnel) : Prop where
  ctxDone : s.ctxDone = true
  total : s.totalStreams = total
  pc : s.pc = .left none ∨ s.pc = .returned none

variable {s s' : Tunnel} {total : ℕ}

theorem leaving_runner {a : RunnerAction} (h : Leaving total s) (hs : s.runner a = some s') :
    Leaving total s' := by
  obtain hpc | hpc := h.pc
  · cases a <;> simp only [Tunnel.runner, hpc] at hs <;> cases hs
    rw [h.ctxDone]
    exact ⟨rfl, h.total, .inr rfl⟩
  · cases a <;> simp only [Tunnel.runner, hpc] at hs <;> cases hs

/-- Nothing but `Start` moves it on, accepts streams or takes the cancellation back. -/
theorem leaving_step {a : TunnelAction} (h : Leaving total s) (hs : s.step a = some s') :
    Leaving total s' := by
  cases a with
  | runner a => exact leaving_runner h hs
  | heartbeat i a =>
    obtain ⟨hb, -, hs⟩ := Option.bind_eq_some_iff.mp hs
    obtain ⟨c, -, rfl⟩ := Option.map_eq_some_iff.mp hs
    exact ⟨h.ctxDone, h.total, h.pc⟩
  | forwarded =>
    simp only [Tunnel.step] at hs
    split at hs <;> cases hs
    exact ⟨h.ctxDone, h.total, h.pc⟩
  | cancel =>
    cases hs
    exact ⟨rfl, h.total, h.pc⟩
  | stop =>
    cases hs
    split
    · exact ⟨h.ctxDone, h.total, h.pc⟩
    · exact h
  | closing i a =>
    obtain ⟨pc, -, hs⟩ := Option.bind_eq_some_iff.mp hs
    obtain ⟨r, -, rfl⟩ := Option.map_eq_some_iff.mp hs
    exact ⟨h.ctxDone, h.total, h.pc⟩
  | opened k payload =>
    obtain ⟨link, -, hs⟩ := Option.bind_eq_some_iff.mp hs
    split at hs <;> cases hs
    exact ⟨h.ctxDone, h.total, h.pc⟩
  | close | pong k | fail k =>
    cases hs
    exact ⟨h.ctxDone, h.total, h.pc⟩

/-- From the moment at which `acceptLoop` has seen a cancellation, if the context of `Start` is done
by then, and whatever happens from there on: `Start` does not call `Reconnect`, it accepts no
stream, and it has returned or returns with its next step.
SOURCE: tunnel_impl.go:73-94, 146-166 -/
theorem stop_ends_start (hstop : StopObserved s) (hctx : s.ctxDone = true)
    (hrun : Reach Tunnel.step anyStep s s') :
    (∀ pc, s'.pc ≠ .reconnect pc) ∧ s'.totalStreams = s.totalStreams ∧
      (s'.pc = .returned none ∨
        ∃ s'', s'.step (.runner .run) = some s'' ∧ s''.pc = .returned none) := by
  have hI : Leaving s.totalStreams s' :=
    hrun.invariant (Leaving s.totalStreams) ⟨hctx, rfl, .inl hstop⟩
      fun _ _ _ _ h _ hs => leaving_step h hs
  refine ⟨?_, hI.total, ?_⟩
  · intro pc hpc
    obtain h | h := hI.pc <;> rw [hpc] at h <;> cases h
  · obtain hpc | hpc := hI.pc
    · refine .inr ⟨{ s' with pc := .returned none }, ?_, rfl⟩
      simp only [Tunnel.step, Tunnel.runner, hpc, hI.ctxDone, if_true]
    · exact .inl hpc

/-- One service, as an agent's config may have it. -/
def webService : ServiceMap := AList.singleton [104] "127.0.0.1:80"

/-- An agent that is shut down while it accepts streams: its main function ends the context and then
calls `Stop`. -/
theorem stop_ends_start_shutdown :
    ∃ s s', TunnelReach ⟨30, 10⟩ webService anyStep s ∧ s.totalStreams = 1 ∧
      Reach Tunnel.step anyStep s s' ∧ s'.totalStreams = 1 ∧ ∀ pc, s'.pc ≠ .reconnect pc := by
  obtain ⟨s, s', hr, hrun, hstop, hctx, htotal⟩ : ∃ s s',
      TunnelReach ⟨30, 10⟩ webService anyStep s ∧ Reach Tunnel.step anyStep s s' ∧
      StopObserved s ∧ s.ctxDone = true ∧ s.totalStreams = 1 :=
    exists_runs_of_exec
      [.runner .run, .runner .run, .opened 0 [104], .runner .stream, .cancel, .stop, .runner .done,
        .runner .run]
      [.heartbeat 0 .tick, .opened 0 [104], .runner .run] _ (by decide)
  obtain ⟨hpc, hsame, -⟩ := stop_ends_start hstop hctx hrun
  exact ⟨s, s', hr, htotal, hrun, hsame.trans htotal, hpc⟩

instance (s : Tunnel) (a : TunnelAction) : Decidable (supervising s a) := by
  unfold supervising
  split <;> infer_instance

/-- From a lost connection to the next stream. -/
def nextStream : List TunnelAction :=
  [.runner .run, .runner .run, .runner (.call .run), .runner (.call .run), .runner (.call .timer),
    .runner (.call .run), .runner (.call (.dial none)), .runner (.call .run), .runner (.call .run),
    .runner .run, .runner .run, .opened 1 [104], .runner .stream]

/-- `Stop` on a tunnel whose context is not cancelled: `acceptLoop` ends, and `Start` reconnects and
accepts the next stream on a new session. -/
theorem stop_reconnects :
    ∃ s₀ s₁ s s', TunnelReach ⟨30, 10⟩ webService anyStep s₀ ∧ s₀.pc = .accept 0 ∧
      s₀.step .stop = some s₁ ∧ Reach Tunnel.step supervising s₁ s ∧ StopObserved s ∧
      Reach Tunnel.step anyStep s s' ∧ s'.ctxDone = false ∧ s'.pc = .accept 1 ∧
      s'.totalStreams = s.totalStreams + 1 := by
  obtain ⟨s₀, s₁, hr, hstop, hpc, hrest⟩ : ∃ s₀ s₁, TunnelReach ⟨30, 10⟩ webService anyStep s₀ ∧
      s₀.step .stop = some s₁ ∧ s₀.pc = .accept 0 ∧
      (exec (guarded Tunnel.step supervising) s₁ [.runner .done, .runner .run]).any (fun s =>
        (exec (guarded Tunnel.step anyStep) s nextStream).any fun s' => decide (StopObserved s ∧
          s'.ctxDone = false ∧ s'.pc = .accept 1 ∧
          s'.totalStreams = s.totalStreams + 1)) = true :=
    exists_step_of_exec [TunnelAction.runner .run, .runner .run] .stop _ (by decide)
  obtain ⟨s, s', hs, hs', hobs, hend⟩ := exists_runs_of_exec _ _ _ hrest
  exact ⟨s₀, s₁, s, s', hr, hpc, hstop, hs, hobs, hs', hend⟩

end Atlax.Analysis
