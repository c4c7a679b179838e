import Atlax.Analysis.WellFormed

/-!
# The handler of one frame

The read loop handles one frame at a time. The steps of its goroutine are those of the handler
and, inside `handleStreamReset`, those of the callback that Reset runs before it returns. None of
them waits for anybody else except the send on acceptCh, so that a handler with room there runs to
its end by steps of its own.
-/

set_option autoImplicit false

namespace Atlax.Analysis

open Atlax.Model Atlax.Library

variable {s s' : Session} {a : Action} {r : Ref}

/-- The steps of the read loop's goroutine between two frames.
SOURCE: mux_session.go:385-568, 680-714 -/
def HandlerStep (s : Session) (a : Action) : Prop :=
  a = .reader ∨ ∃ r p, s.reader = .awaitReset r p ∧
    (a = .callback r .resetCheck ∨ a = .callback r .resetLookup ∨ a = .callback r .resetSend)

/-- The sections that are left of the callback of Reset. -/
def callbackRank : ResetPc → ℕ
  | .check _ => 3
  | .lookup _ => 2
  | .send _ => 1
  | .idle | .done => 0

/-- A bound on the sections that are left of the handler. -/
def handlerRank (s : Session) : ℕ :=
  match s.reader with
  | .idle => 0
  | .ackSend _ | .rejectOpen _ | .windowUpdate _ _ | .delete _ _ | .resetRemove _ _
  | .acceptDeliver _ _ => 1
  | .acceptAck _ _ | .checkReset _ _ => 2
  | .acceptInsert _ | .checkClosed _ _ => 3
  | .remoteClose _ _ => 4
  | .deliver _ _ => 5
  | .awaitReset r _ => 2 + callbackRank (s.cells r).resetPc
  | .resetting _ _ => 6
  | .frame _ => 7

/-! ## What the handler waits for -/

/-- A callback that has begun never goes back to its beginning. -/
theorem resetPc_ne_idle_cell {rd : ReaderPc} {c c' : Cell} (hm : CellMove a rd r c c')
    (h : c.resetPc ≠ .idle) : c'.resetPc ≠ .idle := by
  have hreset : ∀ (c : Cell) code byFrame, c.resetPc ≠ .idle →
      (c.reset code byFrame).resetPc ≠ .idle := by
    intro c code byFrame h
    unfold Cell.reset
    dsimp only
    split
    · simp
    · exact h
  cases hm with
  | openFailedReset | resetLocal | resetFrame => exact hreset _ _ _ h
  | resetCheck _ _ _ closed => cases closed <;> simp
  | resetLookup _ _ _ exist => cases exist <;> simp
  | resetSend => simp
  | call k c' _ _ hc =>
    cases hc with
    | reset code => exact hreset _ _ _ h
    | _ => exact h
  | drain d b c' p _ hc => cases hc <;> exact h
  | _ => exact h

/-- Inside `s.Reset(code)`, the callback has begun. -/
theorem awaitReset_begun {role : Role} {config : MuxConfig} {ok : Session → Action → Prop}
    (h : SessionReach role config ok s) {p : Packet} (hrd : s.reader = .awaitReset r p) :
    (s.cells r).resetPc ≠ .idle := by
  refine Reach.invariant
    (fun s => ∀ r p, s.reader = .awaitReset r p → (s.cells r).resetPc ≠ .idle) h ?_ ?_ r p hrd
  · intro r p hrd
    cases hrd
  · intro s a s' hr hI _ hstep r p hrd
    have hm := step_move hstep
    have hold : s.reader = .awaitReset r p ∨
        s.reader = .resetting r p ∧ (s'.cells r).resetPc ≠ .idle := by
      have hmove := hrd ▸ move_readerPc hm
      generalize s.reader = pc at hmove
      cases hmove with
      | stay => exact .inl rfl
      | notify _ _ hn hc =>
        rw [hc]
        exact .inr ⟨rfl, by simp [Cell.reset, hn]⟩
    rcases hold with hold | ⟨_, hpc⟩
    · have hlt := ((wellFormed_reach hr).reader r p (by rw [hold]; rfl)).1
      exact resetPc_ne_idle_cell (move_cell hm hlt) (hI r p hold)
    · exact hpc

/-- There is room in acceptCh for the stream of the STREAM_OPEN that is being handled. -/
def AcceptRoom (s : Session) : Prop :=
  ∀ p, s.reader.packet = some p → p.isOpen = true →
    s.acceptCh.length < s.config.maxConcurrentStreams

/-- A handler only adds to acceptCh as its last act. -/
theorem move_acceptCh_length (hm : Move s a s') :
    s'.acceptCh.length ≤ s.acceptCh.length ∨ s'.reader = .idle := by
  cases hm with
  | acceptStream r rest h => exact .inl (by simp [h])
  | acceptDeliver => exact .inr rfl
  | _ => exact .inl (Nat.le_refl _)

theorem acceptRoom_move (h : AcceptRoom s) (hm : Move s a s')
    (hrecv : ∀ p, a = .recv p → p.isOpen = true →
      s.acceptCh.length < s.config.maxConcurrentStreams) : AcceptRoom s' := by
  intro p hp hopen
  rcases move_acceptCh_length hm with hle | hidle
  · rw [move_config hm]
    refine Nat.lt_of_le_of_lt hle ?_
    rcases move_readerPacket hm hp with hp | ha
    · exact h p hp hopen
    · exact hrecv p ha hopen
  · rw [hidle] at hp
    cases hp

/-! ## The handler runs to its end -/

theorem handlerRank_handleFrame (s : Session) (p : Packet) : handlerRank (s.handleFrame p) < 7 := by
  have hlookup : ∀ found : Ref → ReaderPc,
      (∀ r, handlerRank (s.setReader (found r)) < 7) → handlerRank (s.lookupStream p found) < 7 := by
    intro found hf
    unfold Session.lookupStream
    split
    · exact hf _
    · simp [handlerRank]
  unfold Session.handleFrame
  split
  · split
    · unfold Session.handleAck
      split <;> simp [handlerRank]
    · unfold Session.acceptPeerOpen
      split
      · simp [handlerRank]
      · split <;> simp [handlerRank]
  · refine hlookup _ fun r => ?_
    split
    · unfold Session.afterDeliver
      split <;> simp [handlerRank]
    · simp [handlerRank]
  · exact hlookup _ fun r => by simp [handlerRank]
  · exact hlookup _ fun r => by simp [handlerRank]
  · simp [handlerRank]
  · simp [handlerRank]
  · unfold Session.handleWindowUpdate
    split
    · simp [handlerRank]
    · split
      · simp [handlerRank]
      · exact hlookup _ fun r => by simp [handlerRank]
  · simp [handlerRank]
  · simp [handlerRank, Session.handleServiceList]
  · simp [handlerRank]

/-- The callback that the handler waits for makes its next step. -/
theorem callback_step {p : Packet} (hr : r < s.nextRef)
    (hrd : s.reader = .awaitReset r p) (hbegun : (s.cells r).resetPc ≠ .idle)
    (hdone : (s.cells r).resetPc ≠ .done) :
    ∃ a s', HandlerStep s a ∧ s.step a = some s' ∧ handlerRank s' < handlerRank s := by
  cases hpc : (s.cells r).resetPc with
  | idle => exact absurd hpc hbegun
  | done => exact absurd hpc hdone
  | check code =>
    refine ⟨.callback r .resetCheck, _, .inr ⟨r, p, hrd, .inl rfl⟩,
      by simp only [Session.step, hr, if_true, Session.callback, hpc]; rfl, ?_⟩
    simp only [handlerRank, Session.setCell_reader, hrd, Session.setCell_cells,
      Function.update_self, hpc]
    cases s.closed <;> simp [callbackRank]
  | lookup code =>
    refine ⟨.callback r .resetLookup, _, .inr ⟨r, p, hrd, .inr (.inl rfl)⟩,
      by simp only [Session.step, hr, if_true, Session.callback, hpc]; rfl, ?_⟩
    simp only [handlerRank, Session.setTable_reader, Session.setCell_reader, hrd,
      Session.setTable_cells, Session.setCell_cells, Function.update_self, hpc]
    cases (s.table.get (s.cells r).stream.id).isSome <;> simp [callbackRank]
  | send code =>
    refine ⟨.callback r .resetSend, _, .inr ⟨r, p, hrd, .inr (.inr rfl)⟩,
      by simp only [Session.step, hr, if_true, Session.callback, hpc]; rfl, ?_⟩
    simp [handlerRank, hrd, hpc, callbackRank]

/-- A handler that is not at its end makes a step, if it has room in acceptCh. -/
theorem handler_step (hw : WellFormed s)
    (hbegun : ∀ r p, s.reader = .awaitReset r p → (s.cells r).resetPc ≠ .idle)
    (hroom : AcceptRoom s) (hbusy : s.reader ≠ .idle) :
    ∃ a s', HandlerStep s a ∧ s.step a = some s' ∧ handlerRank s' < handlerRank s := by
  have own : ∀ s', s.readerStep = some s' → handlerRank s' < handlerRank s →
      ∃ a s', HandlerStep s a ∧ s.step a = some s' ∧ handlerRank s' < handlerRank s :=
    fun s' hs hlt => ⟨.reader, s', .inl rfl, hs, hlt⟩
  cases hrd : s.reader with
  | idle => exact absurd hrd hbusy
  | frame p =>
    refine own _ (by simp only [Session.readerStep, hrd]; rfl) ?_
    simpa [handlerRank, hrd] using handlerRank_handleFrame s p
  | awaitReset r p =>
    by_cases hdone : (s.cells r).resetPc = .done
    · exact own _ (by simp only [Session.readerStep, hrd, if_pos hdone]; rfl)
        (by simp [handlerRank, hrd, hdone, callbackRank])
    · exact callback_step (hw.reader r p (by rw [hrd]; rfl)).1 hrd (hbegun r p hrd) hdone
  | acceptDeliver r p =>
    have hk := hw.kind
    rw [hrd] at hk
    have hlt := hroom p (by rw [hrd]; rfl) hk
    exact own _ (by simp only [Session.readerStep, hrd, if_pos hlt]; rfl)
      (by simp [handlerRank, hrd])
  | deliver r p =>
    refine own _ (by simp only [Session.readerStep, hrd]; rfl) ?_
    unfold Session.afterDeliver
    split <;> simp [handlerRank, hrd]
  | checkClosed r p | checkReset r p =>
    refine own _ (by simp only [Session.readerStep, hrd]; rfl) ?_
    split <;> simp [handlerRank, hrd]
  | resetting r p =>
    refine own _ (by simp only [Session.readerStep, hrd]; rfl) ?_
    split
    · next hnotify => simp [handlerRank, hrd, Cell.reset, hnotify, callbackRank]
    · simp [handlerRank, hrd]
  | _ =>
    refine own _ (by simp only [Session.readerStep, hrd]; rfl) ?_
    simp [handlerRank, hrd, Session.acceptInsert]

/-- The read loop does not close the session by handling a frame. -/
theorem handlerStep_closing (h : HandlerStep s a) (hm : Move s a s') : s'.closing = s.closing := by
  rcases h with rfl | ⟨r, p, _, rfl | rfl | rfl⟩ <;> cases hm <;> rfl

theorem handlerStep_not_recv (h : HandlerStep s a) (p : Packet) : a ≠ .recv p := by
  rcases h with rfl | ⟨r, q, _, rfl | rfl | rfl⟩ <;> simp

/-- The handler runs to its end by steps of its own, if it has room in acceptCh. -/
theorem handler_finishes {role : Role} {config : MuxConfig} (h : SessionReach role config anyStep s)
    (hroom : AcceptRoom s) :
    ∃ s', Reach Session.step HandlerStep s s' ∧ s'.reader = .idle ∧ s'.closing = s.closing := by
  -- induction on the sections that are left
  induction hn : handlerRank s using Nat.strong_induction_on generalizing s with
  | _ n ih =>
    by_cases hidle : s.reader = .idle
    · exact ⟨s, .refl, hidle, rfl⟩
    · obtain ⟨a, s₁, hown, hstep, hlt⟩ := handler_step (wellFormed_reach h)
        (fun r p => awaitReset_begun h) hroom hidle
      have hm := step_move hstep
      have hroom₁ := acceptRoom_move hroom hm
        fun p ha => absurd ha (handlerStep_not_recv hown p)
      obtain ⟨s', hr, hidle', hcl⟩ :=
        ih (handlerRank s₁) (hn ▸ hlt) (.tail h trivial hstep) hroom₁ rfl
      exact ⟨s', Reach.trans (.tail .refl hown hstep) hr, hidle',
        hcl.trans (handlerStep_closing hown hm)⟩

end Atlax.Analysis
