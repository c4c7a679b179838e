import Atlax.Analysis.FreeIDs

/-!
# An operation touches its own stream only

Close, Reset, a frame handler and a cancelled open each work for one stream, but they remove map
entries by identifier. They hit their own stream only, in every run in which an identifier goes
to a new stream only after each earlier stream that carried it has settled: it has ended, and no
callback, no open and no handler still runs for it. A settled stream stays settled, so that the
streams with something left to do are the newest under their identifiers, and so are the streams
in the map.
-/

set_option autoImplicit false

namespace Atlax.Analysis

open Atlax.Model Atlax.Library

/-- The stream a step works for. -/
def actor (s : Session) : Action → Option Ref
  | .opening r _ | .call r _ | .callback r _ | .drain r _ => some r
  | .reader => s.reader.stream.map (·.1)
  | _ => none

/-- The step `a` from `s` to `s'`, made for one stream, deletes no other stream's entry, resets no
other stream, and queues a STREAM_RESET only if no other stream is in the map under its
identifier. -/
structure OwnEffects (s : Session) (a : Action) (s' : Session) (r : Ref) : Prop where
  deletes : ∀ i r', s.table.get i = some r' → s'.table.get i ≠ some r' → r' = r
  resets : ∀ r', (s.cells r').stream.state ≠ .reset → (s'.cells r').stream.state = .reset → r' = r
  sends : a = .callback r .resetSend →
    ∀ r', s.table.get (s.cells r).stream.id = some r' → r' = r

/-- The stream has ended and no goroutine but its drain is left. -/
def CellSettled (c : Cell) : Prop :=
  c.stream.state.Terminal ∧ c.closePc.running = false ∧ c.resetPc.running = false ∧
    c.openPc.running = false

instance (c : Cell) : Decidable (CellSettled c) := inferInstanceAs (Decidable (_ ∧ _))

/-- Nothing is left that could act for the stream. -/
def Settled (s : Session) (r : Ref) : Prop :=
  CellSettled (s.cells r) ∧ s.reader.stream.map (·.1) ≠ some r

instance (s : Session) (r : Ref) : Decidable (Settled s r) := inferInstanceAs (Decidable (_ ∧ _))

/-- Every stream that carries the identifier has settled. -/
def IDSettled (s : Session) (i : ℕ) : Prop :=
  ∀ r < s.nextRef, (s.cells r).stream.id = i → Settled s r

instance (s : Session) (i : ℕ) : Decidable (IDSettled s i) :=
  inferInstanceAs (Decidable (∀ r < s.nextRef, _ → _))

/-- An identifier goes to a new stream only when its earlier streams have settled.
SOURCE: mux_session.go:116-141, 440-442 -/
def ReissuesSettled (s : Session) : Action → Prop
  | .openAlloc _ =>
    s.table.streams.entries.length < s.config.maxConcurrentStreams →
      IDSettled s s.table.allocID.1
  | .reader =>
    match s.reader with
    | .acceptInsert p => IDSettled s p.frame.streamID
    | _ => True
  | _ => True

instance (s : Session) (a : Action) : Decidable (ReissuesSettled s a) := by
  unfold ReissuesSettled
  induction a with
  | reader => induction s.reader <;> infer_instance
  | _ => infer_instance

variable {s s' : Session} {a : Action} {r : Ref} {c c' : Cell}

theorem cellSettled_reset {c : Cell} (h : CellSettled c) (code : ℕ) (byFrame : Bool) :
    CellSettled (c.reset code byFrame) := by
  unfold CellSettled at h ⊢
  have ht : c.stream.state = .reset ∨ c.stream.state = .closed := h.1.symm
  simp only [Cell.reset, StreamSession.reset, if_pos ht]
  exact h

theorem cellSettled_call {k : Call} (h : CellSettled c) (hc : CellCall c k c') :
    CellSettled c' := by
  cases hc with
  | close =>
    unfold CellSettled at h ⊢
    unfold Cell.close StreamSession.close
    rcases h.1 with hst | hst <;> simp only [hst] <;> simpa [hst] using h
  | reset code => exact cellSettled_reset h code false
  | _ => exact h

theorem cellSettled_drain {b : Bool} {p : Option Packet} (h : CellSettled c)
    (hc : CellDrain c b c' p) : CellSettled c' := by
  cases hc <;> exact h

/-- A settled stream stays settled. -/
theorem cellSettled_cell {rd : ReaderPc} (h : CellSettled c)
    (hc : CellMove a rd r c c') : CellSettled c' := by
  cases hc with
  | call k c' _ _ hc => exact cellSettled_call h hc
  | drain d b c' p _ hc => exact cellSettled_drain h hc
  | resetLocal => exact cellSettled_reset h 0 false
  | resetFrame p => exact cellSettled_reset h _ true
  | remoteClose =>
    unfold CellSettled at h ⊢
    unfold StreamSession.remoteClose
    rcases h.1 with hst | hst <;> simp only [hst] <;> simpa [hst] using h
  | same | accept | ackSend | deliver | windowUpdate => exact h
  -- the other moves are those of a goroutine that still runs
  | _ => simp_all [CellSettled, OpenPc.running, ClosePc.running, ResetPc.running]

/-- No stream on the heap carries the identifier of `r` and is newer. -/
def IsNewest (s : Session) (r : Ref) : Prop :=
  ∀ r' < s.nextRef, (s.cells r').stream.id = (s.cells r).stream.id → r' ≤ r

/-- What is in the map, and what has something left to do, is the newest under its identifier. -/
structure OwnershipInv (s : Session) : Prop where
  wellFormed : WellFormed s
  mapped : ∀ i r, s.table.get i = some r → IsNewest s r
  busy : ∀ r < s.nextRef, ¬ Settled s r → IsNewest s r
  found : ∀ r < s.nextRef, ∀ f, (s.cells r).openPc = .resetting f → f = r

/-- A stream in the map under the identifier of one with something left to do is that stream. -/
theorem OwnershipInv.own (hI : OwnershipInv s) {i : ℕ} {r r' : Ref} (hget : s.table.get i = some r')
    (hr : r < s.nextRef) (hid : (s.cells r).stream.id = i) (hbusy : ¬ Settled s r) : r' = r := by
  obtain ⟨hr', hid'⟩ := hI.wellFormed.table i r' hget
  exact Nat.le_antisymm (hI.busy r hr hbusy r' hr' (hid'.trans hid.symm))
    (hI.mapped i r' hget r hr (hid.trans hid'.symm))

theorem isNewest_fresh (hm : Move s a s') : IsNewest s' s.nextRef := by
  intro r hr _
  rcases move_new hm hr with hr | ⟨rfl, _⟩
  · exact Nat.le_of_lt hr
  · exact Nat.le_refl _

/-- The newest stays the newest unless the step makes a stream under the same identifier. -/
theorem isNewest_move (hm : Move s a s') (hr : r < s.nextRef) (h : IsNewest s r)
    (hnew : s.nextRef < s'.nextRef →
      (s'.cells s.nextRef).stream.id ≠ (s.cells r).stream.id) : IsNewest s' r := by
  intro r' hr' hid
  rw [(move_evolves hm r hr).id] at hid
  rcases move_new hm hr' with hold | ⟨rfl, _⟩
  · rw [(move_evolves hm r' hold).id] at hid
    exact h r' hold hid
  · exact absurd hid (hnew hr')

theorem reissuesSettled_fresh (hok : ReissuesSettled s a) (hm : Move s a s')
    (h : s.nextRef < s'.nextRef) : IDSettled s (s'.cells s.nextRef).stream.id := by
  rcases (move_fresh hm h).2 with ⟨payload, rfl, _, hlen, hc⟩ | ⟨p, rfl, hp, _, hc⟩
  · rw [hc, openedCell_id]
    exact hok hlen
  · simp only [ReissuesSettled, hp] at hok
    rw [hc, acceptedCell_id]
    exact hok

/-- The step that makes a stream leaves the settled ones settled. -/
theorem settled_fresh (hm : Move s a s') (h : s.nextRef < s'.nextRef)
    (hr : r < s.nextRef) (hs : Settled s r) : Settled s' r := by
  refine ⟨cellSettled_cell hs.1 (move_cell hm hr), ?_⟩
  rcases (move_fresh hm h).2 with ⟨_, _, hrd, _⟩ | ⟨p, _, _, hrd, _⟩
  · rw [hrd]
    exact hs.2
  · rw [hrd]
    simpa [ReaderPc.stream] using Nat.ne_of_gt hr

/-- What has something left to do had something to do, or has just been looked up. -/
theorem busy_move (hm : Move s a s') (hr : r < s.nextRef) (h : ¬ Settled s' r) :
    ¬ Settled s r ∨ ∃ i, s.table.get i = some r := by
  by_contra hcon
  push Not at hcon
  obtain ⟨hs, hmap⟩ := hcon
  refine h ⟨cellSettled_cell hs.1 (move_cell hm hr), fun hrd => ?_⟩
  obtain ⟨⟨r', p⟩, hst, rfl⟩ := Option.map_eq_some_iff.mp hrd
  rcases move_reader hm hst with hst | ⟨_, hget⟩ | ⟨_, heq, _⟩
  · exact hs.2 (by simp [hst])
  · exact hmap _ hget
  · exact absurd heq (Nat.ne_of_lt hr)

theorem ownershipInv_move (hI : OwnershipInv s) (hok : ReissuesSettled s a) (hm : Move s a s') :
    OwnershipInv s' := by
  have hle := move_nextRef hm
  constructor
  · exact wellFormed_move hI.wellFormed hm
  · intro i r hget
    rcases move_table hm hget with hold | ⟨rfl, _⟩
    · obtain ⟨hr, hid⟩ := hI.wellFormed.table i r hold
      refine isNewest_move hm hr (hI.mapped i r hold) fun hlt heq => ?_
      -- a new stream under the same identifier would have taken over the entry
      have hnew := (move_fresh hm hlt).1
      rw [heq, hid, hget, Option.some.injEq] at hnew
      exact Nat.ne_of_lt hr hnew
    · exact isNewest_fresh hm
  · intro r hr hbusy
    rcases move_new hm hr with hold | ⟨rfl, _⟩
    · have hnewest : IsNewest s r := by
        rcases busy_move hm hold hbusy with hb | ⟨i, hget⟩
        · exact hI.busy r hold hb
        · exact hI.mapped i r hget
      refine isNewest_move hm hold hnewest fun hlt heq => hbusy ?_
      exact settled_fresh hm hlt hold (reissuesSettled_fresh hok hm hlt r hold heq.symm)
    · exact isNewest_fresh hm
  · intro r hr f hpc
    rcases move_new hm hr with hold | ⟨rfl, ⟨_, _, hc⟩ | ⟨_, _, _, hc⟩⟩
    · rcases move_found hm hold hpc with hpc | ⟨_, hpc, hget⟩
      · exact hI.found r hold f hpc
      · refine hI.own hget hold rfl fun hs => ?_
        have := hs.1.2.2.2
        simp [hpc, OpenPc.running] at this
    · rw [hc] at hpc
      cases hpc
    · rw [hc] at hpc
      cases hpc

theorem ownershipInv_new (role : Role) (config : MuxConfig) :
    OwnershipInv (newMuxSession role config) := by
  refine ⟨wellFormed_new role config, ?_, ?_, ?_⟩
  · intro i r h
    cases h
  · intro r hr
    cases hr
  · intro r hr
    cases hr

/-- An identifier has one live stream, in every run. -/
theorem ownershipInv_reach {role : Role} {config : MuxConfig}
    (h : SessionReach role config ReissuesSettled s) : OwnershipInv s :=
  Reach.invariant OwnershipInv h (ownershipInv_new role config)
    fun _ _ _ _ hI hok hstep => ownershipInv_move hI hok (step_move hstep)

/-- A step made for a stream changes that stream's cell only. -/
theorem cells_of_actor (hI : OwnershipInv s) (hm : Move s a s') {r r' : Ref}
    (hact : actor s a = some r) (hne : r' ≠ r) : s'.cells r' = s.cells r' := by
  cases hm with
  | openReset r₀ hr found hpc =>
    cases hact
    obtain rfl := hI.found r hr found hpc
    exact (Function.update_of_ne hne _ _).trans (Function.update_of_ne hne _ _)
  | register | sendOpen | openAck | openCancel | openClosed | openCleanup | openRemove
  | openRemoveNone | call | closeFin | closeCheckClosed | closeCheckReset | closeDelete
  | resetCheck | resetLookup | resetSend | drain | drainSend =>
    cases hact
    exact Function.update_of_ne hne _ _
  | deliver r₀ p hrd | remoteClose r₀ p hrd | resetting r₀ p hrd | windowUpdate r₀ p hrd =>
    simp only [actor, hrd, ReaderPc.stream, Option.map_some, Option.some.injEq] at hact
    subst hact
    exact Function.update_of_ne hne _ _
  | ackSend r₀ hrd | acceptInsert p hrd => simp [actor, hrd, ReaderPc.stream] at hact
  | openAlloc | acceptStream | closingStreams => cases hact
  | _ => rfl

/-- A step made for a stream that takes an entry out of the map finds the stream under that entry's
identifier, with something left to do. -/
theorem busy_of_deletes (hw : WellFormed s) (hm : Move s a s') {r r' : Ref} {i : ℕ}
    (hact : actor s a = some r) (hget : s.table.get i = some r')
    (hgone : s'.table.get i ≠ some r') :
    r < s.nextRef ∧ (s.cells r).stream.id = i ∧ ¬ Settled s r := by
  have gone {j : ℕ} (hj : (if i = j then none else s.table.get i) ≠ some r') : j = i := by
    by_contra hne
    exact hj (by rw [if_neg (Ne.symm hne), hget])
  cases hm with
  | openAlloc | closingStreams => cases hact
  | acceptInsert p hrd => simp [actor, hrd, ReaderPc.stream] at hact
  | openRemove r₀ hr hpc =>
    cases hact
    refine ⟨hr, gone (by simpa using hgone), fun hs => ?_⟩
    simpa [hpc, OpenPc.running] using hs.1.2.2.2
  | closeDelete r₀ hr hpc =>
    cases hact
    refine ⟨hr, gone (by simpa using hgone), fun hs => ?_⟩
    simpa [hpc, ClosePc.running] using hs.1.2.1
  | resetLookup r₀ hr code hpc =>
    cases hact
    refine ⟨hr, gone (by simpa using hgone), fun hs => ?_⟩
    simpa [hpc, ResetPc.running] using hs.1.2.2.1
  | delete r₀ p hrd | resetRemove r₀ p hrd =>
    have hst : s.reader.stream = some (r₀, p) := by rw [hrd]; rfl
    simp only [actor, hst, Option.map_some, Option.some.injEq] at hact
    subst hact
    obtain ⟨hr, hid⟩ := hw.reader r₀ p hst
    exact ⟨hr, hid.trans (gone (by simpa using hgone)), fun hs => hs.2 (by simp [hst])⟩
  | _ => exact absurd hget hgone

/-- An operation carried out for one stream leaves every other stream alone, in every run in which
identifiers go only to new streams whose predecessors have settled.
SOURCE: mux_session.go:143-172, 492-513, 641-714 -/
theorem own_effects {role : Role} {config : MuxConfig}
    (h : SessionReach role config ReissuesSettled s) (hstep : s.step a = some s') {r : Ref}
    (hact : actor s a = some r) : OwnEffects s a s' r := by
  have hI := ownershipInv_reach h
  have hm := step_move hstep
  constructor
  · intro i r' hget hgone
    obtain ⟨hr, hid, hbusy⟩ := busy_of_deletes hI.wellFormed hm hact hget hgone
    exact hI.own hget hr hid hbusy
  · intro r' hst hst'
    by_contra hne
    exact hst (cells_of_actor hI hm hact hne ▸ hst')
  · rintro rfl r' hget
    cases hm with
    | resetSend _ hr code hpc =>
      refine hI.own hget hr rfl fun hs => ?_
      simpa [hpc, ResetPc.running] using hs.1.2.2.1

/-- After a stream has been closed in turn by both sides, its identifier is opened again and the
second stream is reset. -/
def resetReopenedRun : List Action :=
  closeInTurnRun ++ [Action.openStream [], .openAlloc [], .opening 1 .register, .opening 1 .enqueue,
    .recv (frameTwo 1 .streamOpen { ack := true } []), .reader, .reader, .opening 1 .ack,
    .call 1 (.reset 7), .callback 1 .resetCheck]

theorem own_effects_resetReopened :
    ∃ s s', SessionReach .agent ⟨4, 65536, 65536⟩ ReissuesSettled s ∧
      s.step (.callback 1 .resetLookup) = some s' ∧ s.table.get 2 = some 1 ∧
      s'.table.get 2 = none ∧ OwnEffects s (.callback 1 .resetLookup) s' 1 := by
  have hex : ∃ s s', SessionReach .agent ⟨4, 65536, 65536⟩ ReissuesSettled s ∧
      s.step (.callback 1 .resetLookup) = some s' ∧ s.table.get 2 = some 1 ∧
      s'.table.get 2 = none :=
    exists_step_of_exec resetReopenedRun _ _ (by decide)
  obtain ⟨s, s', hs, hstep, hget, hget'⟩ := hex
  exact ⟨s, s', hs, hstep, hget, hget', own_effects hs hstep rfl⟩

/-- The peer's STREAM_CLOSE is handled while the callback of Close waits to run, the identifier is
opened again, and the callback goes on. -/
def closeLateRun : List Action :=
  openRun ++ [Action.call 0 .close, .callback 0 .closeFin,
    .recv (frameTwo 0 .streamClose { fin := true } []), .reader, .reader, .reader, .reader,
    .openStream [], .openAlloc [], .callback 0 .closeCheckClosed]

/-- An open waits for its ACK, the peer resets the stream, the identifier is opened again, and the
first open is cancelled. -/
def cancelLateRun : List Action :=
  [.openStream [], .openAlloc [], .opening 0 .register, .opening 0 .enqueue,
    .recv (frameTwo 0 .streamReset {} [0, 0, 0, 0]), .reader, .reader, .callback 0 .resetCheck,
    .callback 0 .resetLookup, .callback 0 .resetSend, .reader, .reader,
    .openStream [], .openAlloc [], .opening 0 .cancel, .opening 0 .cleanup, .opening 0 .remove]

/-- The callback of the first stream's Close deletes the entry of the second stream, and the
cancelled first open resets the second stream. -/
theorem not_own_effects :
    (∃ s s', SessionReach .agent ⟨4, 65536, 65536⟩ anyStep s ∧
      s.step (.callback 0 .closeDelete) = some s' ∧ actor s (.callback 0 .closeDelete) = some 0 ∧
      s.table.get 2 = some 1 ∧ s'.table.get 2 ≠ some 1) ∧
    ∃ s s', SessionReach .agent ⟨4, 65536, 65536⟩ anyStep s ∧
      s.step (.opening 0 .reset) = some s' ∧ actor s (.opening 0 .reset) = some 0 ∧
      (s.cells 1).stream.state ≠ .reset ∧ (s'.cells 1).stream.state = .reset :=
  ⟨exists_step_of_exec closeLateRun _ _ (by decide),
    exists_step_of_exec cancelLateRun _ _ (by decide)⟩

end Atlax.Analysis
