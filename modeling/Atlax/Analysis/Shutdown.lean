import Atlax.Analysis.Limits
import Atlax.Analysis.PendingOpens

/-!
# What Close leaves behind

Close takes every stream out of the map in one section and resets it. Neither of the paths that put
streams into the map asks whether that section is over: an OpenStream, called before or after Close,
and the handler of a STREAM_OPEN can insert a stream into the empty map. The open then returns an
error and takes its entry out of `pendingOpen`, but its stream stays in the map, open. Where every
insertion comes before the section, nothing is left once the calls have returned.
-/

set_option autoImplicit false

namespace Atlax.Analysis

open Atlax.Model Atlax.Library

variable {s s' : Session} {a : Action}

/-- Close has been through the section that resets the streams.
SOURCE: mux_session.go:195-205 -/
def TornDown (s : Session) : Prop := s.closing = .transport ∨ s.closing = .done

instance (s : Session) : Decidable (TornDown s) := inferInstanceAs (Decidable (_ ∨ _))

/-- A stream is put into the map only before Close has reset the streams there.
SOURCE: mux_session.go:116-141, 440-442 -/
def InsertsBeforeTeardown (s : Session) : Action → Prop
  | .openAlloc _ =>
    s.table.streams.entries.length < s.config.maxConcurrentStreams → ¬ TornDown s
  | .reader =>
    match s.reader with
    | .acceptInsert _ => ¬ TornDown s
    | _ => True
  | _ => True

instance (s : Session) (a : Action) : Decidable (InsertsBeforeTeardown s a) := by
  unfold InsertsBeforeTeardown
  induction a with
  | reader => induction s.reader <;> infer_instance
  | _ => infer_instance

/-- With identifiers going only to new streams whose earlier ones have settled. -/
def ClosesTidily (s : Session) (a : Action) : Prop :=
  ReissuesSettled s a ∧ InsertsBeforeTeardown s a

instance (s : Session) (a : Action) : Decidable (ClosesTidily s a) :=
  inferInstanceAs (Decidable (_ ∧ _))

/-- Past the teardown, the session was past it before, or the step has just emptied the map. -/
theorem move_tornDown (hm : Move s a s') (h : TornDown s') :
    TornDown s ∨ ∀ i, s'.table.get i = none := by
  cases hm with
  | closingStreams => exact .inr fun i => by simp [StreamTable.get]
  | closingTransport hcl => exact .inl (.inl hcl)
  | transmitFail p hw pc hpc hcl =>
    rcases hcl with ⟨rfl, _⟩ | rfl
    · rcases h with h | h <;> cases h
    · exact .inl h
  | closeSession | closingQueue => rcases h with h | h <;> cases h
  | _ => exact .inl h

/-- Once the streams have been reset the map stays empty. -/
theorem emptied_move (h : TornDown s → ∀ i, s.table.get i = none)
    (hok : InsertsBeforeTeardown s a) (hm : Move s a s') (htorn : TornDown s') :
    ∀ i, s'.table.get i = none := by
  rcases move_tornDown hm htorn with hbefore | hempty
  · intro i
    by_contra hne
    obtain ⟨r, hget⟩ := Option.ne_none_iff_exists'.mp hne
    rcases move_table hm hget with hold | ⟨_, hn, _⟩
    · rw [h hbefore i] at hold
      cases hold
    · have hlt : s.nextRef < s'.nextRef := hn ▸ Nat.lt_succ_self _
      rcases (move_fresh hm hlt).2 with ⟨payload, rfl, _, hlen, _⟩ | ⟨p, rfl, hrd, _⟩
      · exact hok hlen hbefore
      · simp only [InsertsBeforeTeardown, hrd] at hok
        exact hok hbefore
  · exact hempty

theorem emptied_reach {role : Role} {config : MuxConfig}
    (h : SessionReach role config InsertsBeforeTeardown s) (htorn : TornDown s) (i : ℕ) :
    s.table.get i = none := by
  refine Reach.invariant (fun s => TornDown s → ∀ i, s.table.get i = none) h ?_ ?_ htorn i
  · intro _ i
    rfl
  · intro s a s' _ hI hok hstep
    exact emptied_move hI hok (step_move hstep)

/-- Every OpenStream call has returned. -/
def OpensReturned (s : Session) : Prop :=
  s.calls = [] ∧ ∀ r < s.nextRef, (s.cells r).openPc.running = false

instance (s : Session) : Decidable (OpensReturned s) := inferInstanceAs (Decidable (_ ∧ _))

theorem registered_running {pc : OpenPc} (h : registered pc = true) : pc.running = true :=
  unanswered_running (unanswered_of_registered h)

theorem entries_of_get {t : StreamTable} (h : ∀ i, t.get i = none) : t.streams.entries = [] := by
  rw [List.eq_nil_iff_forall_not_mem]
  rintro ⟨i, r⟩ hmem
  have hget : t.get i = some r := AList.mem_lookup_iff.mpr hmem
  rw [h i] at hget
  cases hget

/-- A stream that has ended does not keep a Read waiting. -/
theorem read_of_terminal {c : StreamSession} (h : c.state.Terminal) (n : ℕ) :
    (c.read n).1 ≠ .wait := by
  have hcl : c.isReadClosed = true := by
    rcases h with h | h <;> simp [StreamSession.isReadClosed, h]
  unfold StreamSession.read
  rw [hcl]
  split <;> simp

/-- When Close and every OpenStream call have returned, no stream is in the map, no open is pending,
and every stream the session ever made has ended, so that no Read on it waits: in every run in
which streams enter the map only before Close resets the streams there, and identifiers are handed
out only when their earlier streams have settled.
SOURCE: mux_session.go:111-172, 189-205, 427-460; stream_impl.go:87-103, 223-243 -/
theorem close_leaves_nothing {role : Role} {config : MuxConfig}
    (h : SessionReach role config ClosesTidily s) (hdone : s.closing = .done)
    (hret : OpensReturned s) :
    s.table.streams.entries.length = 0 ∧ (∀ i, s.pendingOpen.lookup i = none) ∧
      ∀ r < s.nextRef, (s.cells r).stream.state.Terminal ∧
        ∀ n, ((s.cells r).stream.read n).1 ≠ .wait := by
  have hsettled : SessionReach role config ReissuesSettled s := Reach.mono h fun _ _ hok => hok.1
  have hbefore : SessionReach role config InsertsBeforeTeardown s :=
    Reach.mono h fun _ _ hok => hok.2
  have hempty := emptied_reach hbefore (.inr hdone)
  refine ⟨by rw [entries_of_get hempty]; rfl, ?_, ?_⟩
  · intro i
    by_contra hne
    obtain ⟨r, hl⟩ := Option.ne_none_iff_exists'.mp hne
    have hrun := registered_running ((pendingInv_reach h).waiting i r hl)
    rw [hret.2 r ((wellFormed_reach h).pendingOpen i r hl).1] at hrun
    cases hrun
  · intro r hr
    have hgone : Gone (s.cells r) := by
      by_contra hlive
      have hget := (mappedInv_reach hsettled).mapped r hr hlive
      rw [hempty] at hget
      cases hget
    have hend : (s.cells r).stream.state.Terminal := by
      rcases hgone with hend | ⟨f, hpc⟩
      · exact hend
      · have hrun := hret.2 r hr
        rw [hpc] at hrun
        cases hrun
    exact ⟨hend, read_of_terminal hend⟩

/-- Close, from the start to the end. -/
def closeRun : List Action := [.closeSession, .closing, .closing, .closing]

theorem close_leaves_nothing_opened :
    ∃ s, SessionReach .agent ⟨4, 65536, 65536⟩ ClosesTidily s ∧ s.closing = .done ∧
      OpensReturned s ∧ s.nextRef = 2 ∧ s.table.streams.entries.length = 0 ∧
      ∀ r < s.nextRef, (s.cells r).stream.state.Terminal := by
  have hex : ∃ s, SessionReach .agent ⟨4, 65536, 65536⟩ ClosesTidily s ∧ s.closing = .done ∧
      OpensReturned s ∧ s.nextRef = 2 :=
    exists_reach_of_exec (openRun ++ [Action.openStream [], .openAlloc [], .opening 1 .register,
      .opening 1 .enqueue] ++ closeRun ++ [Action.opening 1 .sessionClosed, .opening 1 .cleanup]) _
      (by decide)
  obtain ⟨s, hs, hdone, hret, hnext⟩ := hex
  obtain ⟨hlen, _, hend⟩ := close_leaves_nothing hs hdone hret
  exact ⟨s, hs, hdone, hret, hnext, hlen, fun r hr => (hend r hr).1⟩

/-- After Close has returned, an OpenStream is let through and returns its error, and its stream
stays in the map; and a STREAM_OPEN whose handler is overtaken by Close leaves the peer's stream
there. Both streams are open, and a Read on them would wait. -/
theorem close_leaves_streams :
    (∃ s, SessionReach .agent ⟨4, 65536, 65536⟩ anyStep s ∧ s.closing = .done ∧
      OpensReturned s ∧ s.reader = .idle ∧ s.table.get 2 = some 0 ∧
      s.table.streams.entries.length = 1 ∧ (s.cells 0).openPc = .failed ∧
      ((s.cells 0).stream.read 1).1 = .wait) ∧
    ∃ s, SessionReach .relay ⟨4, 65536, 65536⟩ anyStep s ∧ s.closing = .done ∧
      OpensReturned s ∧ s.reader = .idle ∧ s.table.get 2 = some 0 ∧
      s.table.streams.entries.length = 1 ∧ ((s.cells 0).stream.read 1).1 = .wait :=
  ⟨exists_reach_of_exec (closeRun ++ openWaitRun ++
      [Action.opening 0 .sessionClosed, .opening 0 .cleanup]) _ (by decide),
    exists_reach_of_exec ([Action.recv (peerOpen 2), .reader] ++ closeRun ++
      [.reader, .reader, .readerClosed]) _ (by decide)⟩

end Atlax.Analysis
