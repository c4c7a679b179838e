import Atlax.Analysis.Mapped

/-!
# Pending opens and the streams map

`pendingOpen` says which OpenStream call an ACK belongs to, `streams` which stream the identifier
names; the two maps live under two mutexes. An entry of `pendingOpen` always belongs to a call that
is still running. Whether `streams` still holds the call's stream is another matter: the handler of
STREAM_RESET takes the stream out of `streams` and leaves `pendingOpen` alone, so that a call whose
stream the peer has refused waits on, for an ACK that will not come or for its context to end.
-/

set_option autoImplicit false

namespace Atlax.Analysis

open Atlax.Model Atlax.Library

variable {r : Ref}

variable {s s' : Session} {a : Action}

/-! ## An entry belongs to a running call -/

/-- The call has registered its channel and not taken it out again.
SOURCE: mux_session.go:143-165 -/
def registered : OpenPc → Bool
  | .enqueue | .wait | .cleanup _ => true
  | .accepted | .register | .remove | .resetting _ | .returned | .failed => false

/-- The ACK is on its way to the call's channel, or in it. -/
def Acked (s : Session) (r : Ref) : Prop := (s.cells r).ackCh = true ∨ s.reader = .ackSend r

/-- A pending open waits for its ACK. -/
structure PendingInv (s : Session) : Prop where
  waiting : ∀ i r, s.pendingOpen.lookup i = some r → registered (s.cells r).openPc = true
  acked : ∀ r < s.nextRef, Acked s r →
    (s.cells r).openPc ≠ .register ∧ ∀ i, s.pendingOpen.lookup i ≠ some r

theorem pendingInv_new (role : Role) (config : MuxConfig) :
    PendingInv (newMuxSession role config) := by
  constructor
  · intro i r h
    cases h
  · intro r hr
    cases hr

/-- An entry that stays is that of a call that stays registered. -/
theorem waiting_move (hw : WellFormed s) (hI : PendingInv s) (hm : Move s a s') {i : ℕ}
    (h : s'.pendingOpen.lookup i = some r) : registered (s'.cells r).openPc = true := by
  rcases move_pendingOpen hm h with hold | ⟨rfl, _, _, _⟩
  · obtain ⟨hr, hid, -⟩ := hw.pendingOpen i r hold
    have hreg := hI.waiting i r hold
    obtain heq | ⟨o, rfl, -⟩ := move_open hm hr
    · rw [heq]
      exact hreg
    · cases hm with
      | openAck _ _ _ hch => exact absurd hold ((hI.acked r hr (.inl hch)).2 i)
      | sendOpen | openCancel | openClosed => simp [registered]
      | openCleanup =>
        -- the section that ends the call takes this very entry
        exact absurd hid.symm (lookup_erase_some h).1
      | register _ _ hpc | openRemove _ _ hpc | openRemoveNone _ _ hpc | openReset _ _ _ hpc =>
        rw [hpc] at hreg
        cases hreg
  · cases hm with
    | register => simp [registered]

/-- The read loop has taken the entry before it sends on the channel. -/
theorem acked_move (hw : WellFormed s) (hI : PendingInv s) (hm : Move s a s')
    (hr : r < s.nextRef) (h : Acked s' r) :
    Acked s r ∨ (s.cells r).openPc ≠ .register ∧ ∀ i, s'.pendingOpen.lookup i ≠ some r := by
  rcases h with h | h
  · rcases move_ackCh hm hr h with hold | hold
    · exact .inl (.inl hold)
    · exact .inl (.inr hold)
  · rcases move_ackSend hm h with hold | ⟨p, hrd, _, hl⟩
    · exact .inl (.inr hold)
    · right
      refine ⟨?_, ?_⟩
      · intro hpc
        have hreg := hI.waiting _ r hl
        rw [hpc] at hreg
        cases hreg
      · intro i hi
        cases hm with
        | handleAck q hq _ r' hl' =>
          obtain rfl : p = q := by simpa [hrd] using hq
          obtain ⟨hne, hi⟩ := lookup_erase_some hi
          exact hne ((hw.pendingOpen i r hi).2.1.symm.trans (hw.pendingOpen _ r hl).2.1)
        | _ => simp_all

theorem pendingInv_move (hw : WellFormed s) (hI : PendingInv s) (hm : Move s a s') :
    PendingInv s' := by
  refine ⟨fun i r h => waiting_move hw hI hm h, ?_⟩
  intro r hr h
  rcases move_new hm hr with hold | ⟨rfl, hnew⟩
  · have hopen : (s'.cells r).openPc = .register → (s.cells r).openPc = .register := by
      intro hpc
      rcases move_unsent hm hold (.inl hpc) with heq | ⟨_, hpc'⟩
      · exact heq.trans hpc
      · exact hpc'
    rcases acked_move hw hI hm hold h with hacked | ⟨hpc, hnone⟩
    · obtain ⟨hpc, hnone⟩ := hI.acked r hold hacked
      refine ⟨fun h' => hpc (hopen h'), ?_⟩
      intro i hi
      rcases move_pendingOpen hm hi with hi | ⟨_, _, hpc', _⟩
      · exact hnone i hi
      · exact hpc hpc'
    · exact ⟨fun h' => hpc (hopen h'), hnone⟩
  · -- a new stream has no ACK yet
    exfalso
    have hfresh : s'.reader = .ackSend s.nextRef → False := by
      intro hrd
      rcases move_ackSend hm hrd with hold | ⟨p, _, _, hl⟩
      · exact Nat.lt_irrefl _ (hw.ackSend _ hold).1
      · exact Nat.lt_irrefl _ (hw.pendingOpen _ _ hl).1
    rcases hnew with ⟨_, _, hc⟩ | ⟨_, _, _, hc⟩
    · rcases h with h | h
      · rw [hc] at h
        cases h
      · exact hfresh h
    · rcases h with h | h
      · rw [hc] at h
        cases h
      · exact hfresh h

theorem pendingInv_reach {role : Role} {config : MuxConfig} {ok : Session → Action → Prop}
    (h : SessionReach role config ok s) : PendingInv s := by
  refine Reach.invariant PendingInv h (pendingInv_new role config) ?_
  intro s a s' hr hI _ hstep
  exact pendingInv_move (wellFormed_reach hr) hI (step_move hstep)

/-! ## The stream of a pending call is in the map -/

/-- A STREAM_RESET is applied to no stream whose OpenStream call is still running.
SOURCE: mux_session.go:492-506 -/
def ResetsAfterOpen (s : Session) : Action → Prop
  | .reader =>
    match s.reader with
    | .resetting r _ => (s.cells r).openPc.running = false
    | _ => True
  | _ => True

instance (s : Session) (a : Action) : Decidable (ResetsAfterOpen s a) := by
  unfold ResetsAfterOpen
  induction a with
  | reader => induction s.reader <;> infer_instance
  | _ => infer_instance

/-- Identifiers go to new streams only when their earlier streams have settled, and the peer resets
no stream before its open has returned. -/
def OpensUndisturbed (s : Session) (a : Action) : Prop :=
  ReissuesSettled s a ∧ ResetsAfterOpen s a

instance (s : Session) (a : Action) : Decidable (OpensUndisturbed s a) :=
  inferInstanceAs (Decidable (_ ∧ _))

/-- The open has not come to the point where it takes its stream out of the map. -/
def unanswered : OpenPc → Bool
  | .register | .enqueue | .wait | .cleanup _ => true
  | .accepted | .remove | .resetting _ | .returned | .failed => false

theorem unanswered_running {pc : OpenPc} (h : unanswered pc = true) : pc.running = true := by
  cases pc with
  | register | enqueue | wait | cleanup => rfl
  | accepted | remove | resetting | returned | failed => cases h

theorem unanswered_of_registered {pc : OpenPc} (h : registered pc = true) :
    unanswered pc = true := by
  cases pc with
  | enqueue | wait | cleanup => rfl
  | accepted | register | remove | resetting | returned | failed => cases h

/-- An open that is unanswered after a step was so before it. -/
theorem move_unanswered (hm : Move s a s') (hr : r < s.nextRef)
    (h : unanswered (s'.cells r).openPc = true) : unanswered (s.cells r).openPc = true := by
  obtain heq | ⟨o, -, ho⟩ := move_open hm hr
  · rwa [heq] at h
  · generalize (s'.cells r).openPc = pc' at h ho
    cases ho with
    | register hpc | enqueue hpc | ack hpc | cancel hpc | sessionClosed hpc | cancelled hpc
    | failed hpc =>
      rw [hpc]
      rfl
    | remove | removeNone | reset => cases h

/-- What can reset a stream: a local Reset, the open that made it, Close, or a frame. -/
theorem move_reset (hI : OwnershipInv s) (hm : Move s a s') (hr : r < s.nextRef)
    (hst : (s.cells r).stream.state ≠ .reset) (hst' : (s'.cells r).stream.state = .reset) :
    (s.cells r).handle = true ∨ (s.cells r).openPc = .resetting r ∨ s.closing = .streams ∨
      a = .reader ∧ ∃ p, s.reader = .resetting r p := by
  have hc := move_cell hm hr
  generalize hc' : s'.cells r = c' at hc hst'
  cases hc with
  | call _ _ _ hh => exact .inl hh
  | openFailedReset hpc => exact .inr (.inl hpc)
  | resetFrame p ha hrd => exact .inr (.inr (.inr ⟨ha, p, hrd⟩))
  | resetLocal ha =>
    rw [← hc'] at hst'
    rcases ha with rfl | ⟨r₀, rfl⟩
    · cases hm with
      | closingStreams hcl => exact .inr (.inr (.inl hcl))
      | closingQueue | closingTransport => exact absurd hst' hst
    · by_cases hr₀ : r = r₀
      · subst hr₀
        cases hm with
        | openReset _ _ found hpc =>
          obtain rfl := hI.found r hr found hpc
          exact .inr (.inl hpc)
      · rw [cells_of_actor hI hm rfl hr₀] at hst'
        exact absurd hst' hst
  | drain d b c' p _ hd =>
    exfalso
    cases hd <;> exact hst hst'
  | remoteClose =>
    exfalso
    simp only [StreamSession.remoteClose] at hst'
    split at hst'
    · cases hst'
    · cases hst'
    · exact hst hst'
  | _ => exact absurd hst' hst

/-- While the session is open, no stream whose open is unanswered has been reset. -/
def Unreset (s : Session) : Prop :=
  s.closing = .running → ∀ r < s.nextRef, unanswered (s.cells r).openPc = true →
    (s.cells r).stream.state ≠ .reset

theorem unreset_move (hI : OwnershipInv s) (hM : MappedInv s) (hU : Unreset s)
    (hok : ResetsAfterOpen s a) (hm : Move s a s') : Unreset s' := by
  intro hrun r hr hpc hst
  have hrun₀ := move_running hm hrun
  rcases move_new hm hr with hold | ⟨rfl, ⟨_, _, hc⟩ | ⟨_, _, _, hc⟩⟩
  · have hpc₀ := move_unanswered hm hold hpc
    rcases move_reset hI hm hold (hU hrun₀ r hold hpc₀) hst with hh | hres | hcl | ⟨rfl, p, hrd⟩
    · rcases hM.held r hold hh with h | h <;> rw [h] at hpc₀ <;> cases hpc₀
    · rw [hres] at hpc₀
      cases hpc₀
    · rw [hrun₀] at hcl
      cases hcl
    · simp only [ResetsAfterOpen, hrd] at hok
      rw [unanswered_running hpc₀] at hok
      cases hok
  · rw [hc] at hst
    cases hst
  · rw [hc] at hpc
    cases hpc

theorem unreset_reach {role : Role} {config : MuxConfig}
    (h : SessionReach role config OpensUndisturbed s) : Unreset s := by
  refine Reach.invariant Unreset h ?_ ?_
  · intro _ r hr
    cases hr
  · intro s a s' hr hU hok hstep
    have hr' : SessionReach role config ReissuesSettled s := Reach.mono hr fun _ _ hok => hok.1
    exact unreset_move (ownershipInv_reach hr') (mappedInv_reach hr') hU hok.2 (step_move hstep)

/-- Before Close, an entry of `pendingOpen` belongs to a call that has not left it yet, and the map
holds that call's stream under its identifier: in every run in which identifiers are handed out
only when their earlier streams have settled, and the peer resets no stream whose open is still
running.
SOURCE: mux_session.go:139-172, 408-425, 492-513, 730-765 -/
theorem pending_open_mapped {role : Role} {config : MuxConfig}
    (h : SessionReach role config OpensUndisturbed s) (hrun : s.closing = .running) {i : ℕ}
    {r : Ref} (hl : s.pendingOpen.lookup i = some r) :
    s.table.get i = some r ∧ registered (s.cells r).openPc = true := by
  have h' : SessionReach role config ReissuesSettled s := Reach.mono h fun _ _ hok => hok.1
  have hreg := (pendingInv_reach h).waiting i r hl
  obtain ⟨hr, hid, -⟩ := (wellFormed_reach h).pendingOpen i r hl
  have hC := cellInv_reach h r hr
  have hM := mappedInv_reach h'
  refine ⟨?_, hreg⟩
  -- nobody holds the stream yet, so that only a reset could have ended it
  have hheld : (s.cells r).handle = false := by
    by_contra hh
    rcases hM.held r hr (by simpa using hh) with hpc | hpc <;> rw [hpc] at hreg <;> cases hreg
  have hgone : ¬ Gone (s.cells r) := by
    rintro ((hst | hst) | ⟨f, hpc⟩)
    · exact hC.localClosed (.inr hst) (hC.unheld hheld).closedAt
    · exact unreset_reach h hrun r hr (unanswered_of_registered hreg) hst
    · rw [hpc] at hreg
      cases hreg
  exact hid ▸ hM.mapped r hr hgone

/-- An agent's OpenStream up to its wait for the ACK. -/
def openWaitRun : List Action :=
  [.openStream [], .openAlloc [], .opening 0 .register, .opening 0 .enqueue]

theorem pending_open_mapped_wait :
    ∃ s, SessionReach .agent ⟨4, 65536, 65536⟩ OpensUndisturbed s ∧ s.closing = .running ∧
      s.pendingOpen.lookup 2 = some 0 ∧ s.table.get 2 = some 0 ∧
      registered (s.cells 0).openPc = true := by
  have hex : ∃ s, SessionReach .agent ⟨4, 65536, 65536⟩ OpensUndisturbed s ∧
      s.closing = .running ∧ s.pendingOpen.lookup 2 = some 0 :=
    exists_reach_of_exec openWaitRun _ (by decide)
  obtain ⟨s, hs, hrun, hl⟩ := hex
  obtain ⟨hget, hreg⟩ := pending_open_mapped hs hrun hl
  exact ⟨s, hs, hrun, hl, hget, hreg⟩

/-! ## An open that the peer has refused -/

/-- No ACK arrives, the call's context does not end, and the session is not closed. -/
def NoOtherEnd (r : Ref) (_ : Session) : Action → Prop
  | .recv p => p.isAck = false
  | .opening r' .cancel => r' ≠ r
  | .closeSession | .transmitFail => False
  | _ => True

/-- The call waits, and nothing is on its way that would end the wait. -/
structure Waits (s : Session) (r : Ref) : Prop where
  onHeap : r < s.nextRef
  wait : (s.cells r).openPc = .wait
  ackCh : (s.cells r).ackCh = false
  reader : s.reader ≠ .ackSend r ∧ ∀ p, s.reader = .frame p → p.isAck = false
  running : s.closing = .running

theorem waits_reader (h : Waits s r) (hok : NoOtherEnd r s a) (hm : Move s a s') :
    s'.reader ≠ .ackSend r ∧ ∀ p, s'.reader = .frame p → p.isAck = false := by
  refine ⟨?_, ?_⟩
  · intro hrd
    rcases move_ackSend hm hrd with hold | ⟨p, hfr, hack, _⟩
    · exact h.reader.1 hold
    · rw [h.reader.2 p hfr] at hack
      cases hack
  · intro p hp
    have hrd := hp ▸ move_readerPc hm
    generalize hpc : s.reader = pc at hrd
    cases hrd with
    | stay => exact h.reader.2 p hpc
    | recv _ ha =>
      subst ha
      exact hok

theorem waits_step (h : Waits s r) (hok : NoOtherEnd r s a)
    (hstep : s.step a = some s') : Waits s' r := by
  have hm := step_move hstep
  have hrun : s'.closing = .running := by
    cases hm with
    | transmitFail | closeSession => exact hok.elim
    | closingQueue hcl | closingStreams hcl | closingTransport hcl =>
      rw [h.running] at hcl
      cases hcl
    | _ => exact h.running
  have hwait : (s'.cells r).openPc = .wait := by
    obtain heq | ⟨o, rfl, ho⟩ := move_open hm h.onHeap
    · exact heq.trans h.wait
    · generalize (s'.cells r).openPc = pc' at ho ⊢
      cases ho with
      | ack _ hch =>
        rw [h.ackCh] at hch
        cases hch
      | cancel => exact absurd rfl hok
      | sessionClosed _ hcl => simp [Session.closed, h.running] at hcl
      | enqueue => rfl
      | register hpc | cancelled hpc | failed hpc | remove _ hpc | removeNone hpc | reset _ hpc =>
        rw [h.wait] at hpc
        cases hpc
  refine ⟨Nat.lt_of_lt_of_le h.onHeap (move_nextRef hm), hwait, ?_, waits_reader h hok hm, hrun⟩
  by_contra hch
  rcases move_ackCh hm h.onHeap (by simpa using hch) with hold | hold
  · rw [h.ackCh] at hold
    cases hold
  · exact h.reader.1 hold

/-- The peer refuses the open, and its STREAM_RESET is handled to the end. -/
def refusedOpenRun : List Action :=
  openWaitRun ++ [Action.recv (frameTwo 0 .streamReset {} [0, 0, 0, 1]), .reader, .reader,
    .callback 0 .resetCheck, .callback 0 .resetLookup, .callback 0 .resetSend, .reader, .reader]

/-- After the peer's STREAM_RESET the entry of the open is still in `pendingOpen` and its stream no
longer in the map, and the call waits until an ACK arrives, its context ends or the session is
closed. -/
theorem refused_open_waits :
    ∃ s, SessionReach .agent ⟨4, 65536, 65536⟩ anyStep s ∧ s.closing = .running ∧
      s.reader = .idle ∧ s.pendingOpen.lookup 2 = some 0 ∧ s.table.get 2 = none ∧
      ∀ s', Reach Session.step (NoOtherEnd 0) s s' → (s'.cells 0).openPc = .wait := by
  have hex : ∃ s, SessionReach .agent ⟨4, 65536, 65536⟩ anyStep s ∧ s.closing = .running ∧
      s.reader = .idle ∧ s.pendingOpen.lookup 2 = some 0 ∧ s.table.get 2 = none ∧
      0 < s.nextRef ∧ (s.cells 0).openPc = .wait ∧ (s.cells 0).ackCh = false :=
    exists_reach_of_exec refusedOpenRun _ (by decide)
  obtain ⟨s, hs, hrun, hidle, hl, hget, hheap, hwait, hch⟩ := hex
  refine ⟨s, hs, hrun, hidle, hl, hget, ?_⟩
  intro s' hr
  have hwaits : Waits s' 0 :=
    Reach.invariant (fun s => Waits s 0) hr
      ⟨hheap, hwait, hch, by simp [hidle], hrun⟩
      fun _ _ _ _ hI hok hstep => waits_step hI hok hstep
  exact hwaits.wait

end Atlax.Analysis
