import Atlax.Analysis.Draining
import Atlax.Analysis.HalfClose
import Atlax.Analysis.Work

/-!
# Both sessions come to rest

Left alone by their callers, the two sessions stop after a bounded number of steps
(`Atlax.Analysis.Work`), and this module says where. A session that is not closed has an empty write
queue, its write loop waits for a frame and its read loop for the peer, with nothing left on the
wire; no callback of a Close or a Reset is half done, and a drain goroutine that has not ended has
sent all it was given. Two waits are left: that of an open for its ACK, and that of the read loop
for a free place in acceptCh. A session that is closed is closed to the end.
-/

set_option autoImplicit false

namespace Atlax.Analysis

open Atlax.Model Atlax.Library

/-! ## What ends a drain goroutine -/

/-- What the drain goroutine has seen of the end of its stream, and the token of its Close. -/
structure EndSeen (c : Cell) : Prop where
  closedCh : c.stream.closedCh = true ↔ c.stream.state.Terminal
  sawClosed : c.drainPc = .sawClosed → c.stream.state.Terminal
  awaitFIN : c.drainPc = .awaitFIN → c.hist.closedAt ≠ none
  token : c.closePc = .fin → c.stream.finCh = false

theorem endSeen_reset {c : Cell} (h : EndSeen c) (code : ℕ) (byFrame : Bool) :
    EndSeen (c.reset code byFrame) := by
  have hterm := terminal_reset c code byFrame
  by_cases hst : c.stream.state = .reset ∨ c.stream.state = .closed
  · have hsame : c.stream.reset = (c.stream, false) := by simp [StreamSession.reset, hst]
    cases byFrame <;> simp only [Cell.reset, hsame, Bool.false_eq_true, if_false] <;>
      exact ⟨h.closedCh, h.sawClosed, h.awaitFIN, h.token⟩
  · cases byFrame <;>
      simp only [Cell.reset, StreamSession.reset, hst, if_false] at hterm ⊢ <;>
      exact ⟨by simpa using hterm, fun _ => hterm, h.awaitFIN, h.token⟩

/-- Close is called on a stream whose FIN has not been asked for. -/
theorem endSeen_close {c : Cell} (hC : CellInv c) (h : EndSeen c) : EndSeen c.close := by
  have hfirst : c.stream.localCloseOnce = false → c.stream.finCh = false := by
    intro honce
    rw [hC.closeOnce] at honce
    by_contra hfin
    have hcl := hC.fin (.inr (.inl (by simpa using hfin)))
    simp [hcl] at honce
  have hch := h.closedCh
  have hsaw := h.sawClosed
  cases hst : c.stream.state with
  | opened | halfClosedRemote =>
    cases honce : c.stream.localCloseOnce <;>
      refine ⟨?_, ?_, ?_, ?_⟩ <;>
      simp_all [Cell.close, StreamSession.close, StreamState.Terminal, h.awaitFIN, h.token]
  | _ =>
    have hsame : c.stream.close = (c.stream, false) := by simp [StreamSession.close, hst]
    simp only [Cell.close, hsame, Bool.false_eq_true, if_false]
    exact ⟨h.closedCh, h.sawClosed, h.awaitFIN, h.token⟩

theorem endSeen_remoteClose {c : Cell} (h : EndSeen c) :
    EndSeen { c with stream := c.stream.remoteClose } := by
  have hch := h.closedCh
  have hsaw := h.sawClosed
  have htoken := h.token
  refine ⟨?_, ?_, h.awaitFIN, ?_⟩ <;>
    cases hst : c.stream.state <;>
    simp_all [StreamSession.remoteClose, StreamState.Terminal]

/-- The drain goroutine goes to `awaitFIN` only when the stream has ended by two Closes. -/
theorem endSeen_drain {c c' : Cell} {b : Bool} {p : Option Packet} (hC : CellInv c)
    (hc : CellDrain c b c' p) (h : EndSeen c) : EndSeen c' := by
  cases hc with
  | take | exit | stateReset | flushed | sendFIN => exact ⟨h.closedCh, nofun, nofun, h.token⟩
  | takeFIN => exact ⟨h.closedCh, nofun, nofun, fun _ => rfl⟩
  | sawClosed hpc hcl => exact ⟨h.closedCh, fun _ => h.closedCh.mp hcl, nofun, h.token⟩
  | enqueue data flushing =>
    cases flushing <;> exact ⟨h.closedCh, nofun, nofun, h.token⟩
  | stateClosed hpc hst =>
    have hclosed : c.stream.state = .closed := (h.sawClosed hpc).resolve_right hst
    exact ⟨h.closedCh, nofun, fun _ => hC.localClosed (.inr hclosed), h.token⟩

/-- No step hides a stream's end. -/
theorem endSeen_cell {a : Action} {rd : ReaderPc} {r : Ref} {c c' : Cell} (hC : CellInv c)
    (hm : CellMove a rd r c c') (h : EndSeen c) : EndSeen c' := by
  cases hm with
  | sendOpen => exact ⟨h.closedCh, nofun, nofun, h.token⟩
  | openFailedReset =>
    have h' : EndSeen { c with openPc := .failed } := ⟨h.closedCh, h.sawClosed, h.awaitFIN, h.token⟩
    exact endSeen_reset h' 0 false
  | resetLocal => exact endSeen_reset h 0 false
  | resetFrame p => exact endSeen_reset h _ true
  | remoteClose => exact endSeen_remoteClose h
  | drain d b c' p _ hc => exact endSeen_drain hC hc h
  | closeFin | closeDelete => exact ⟨h.closedCh, h.sawClosed, h.awaitFIN, nofun⟩
  | closeCheckClosed | closeCheckReset =>
    refine ⟨h.closedCh, h.sawClosed, h.awaitFIN, fun hpc => ?_⟩
    dsimp only at hpc
    split at hpc <;> cases hpc
  | call k c' _ _ hc =>
    cases hc with
    | close => exact endSeen_close hC h
    | reset code => exact endSeen_reset h code false
    | _ => exact ⟨h.closedCh, h.sawClosed, h.awaitFIN, h.token⟩
  | _ => exact ⟨h.closedCh, h.sawClosed, h.awaitFIN, h.token⟩

variable {s : Session} {role : Role} {config : MuxConfig} {ok : Session → Action → Prop}

/-- In every run. -/
theorem endSeen_reach (h : SessionReach role config ok s) :
    ∀ r < s.nextRef, EndSeen (s.cells r) := by
  intro r hr
  apply cell_reach EndSeen h ?_ ?_ ?_ hr
  · intro s payload _
    refine ⟨by simp [Session.openedCell, StreamSession.opened, newStreamSession,
      StreamState.Terminal], ?_, ?_, ?_⟩ <;> rintro ⟨⟩
  · intro s p _
    unfold Session.acceptedCell
    dsimp only
    split <;>
      refine ⟨by simp [StreamSession.opened, newStreamSession, StreamSession.setOpenPayload,
        StreamState.Terminal], ?_, ?_, ?_⟩ <;> rintro ⟨⟩
  · intro s a s' hs _ hm hold hI
    exact endSeen_cell (cellInv_reach hs r hold) (move_cell hm hold) hI

/-! ## The queue of a session that closes -/

/-- Close has closed the queue. -/
def pastQueue : ClosingPc → Bool
  | .running | .queue => false
  | .streams | .transport | .done => true

theorem enqueue_queueClosed (s : Session) (p : Packet) (priority : Priority) :
    (s.enqueue p priority).queue.closed = s.queue.closed := by
  simp only [Session.enqueue_queue, WriteQueue.enqueue]
  split
  · rfl
  · cases priority <;> rfl

theorem pastQueue_move {s' : Session} {a : Action} (hm : Move s a s')
    (h : pastQueue s.closing = true → s.queue.closed = true)
    (h' : pastQueue s'.closing = true) : s'.queue.closed = true := by
  cases hm with
  | sendOpen | drainSend | acceptAck | resetSend | handlePing | rejectOpen | goAwaySend | ping
  | sendServiceList => exact (enqueue_queueClosed _ _ _).trans (h h')
  | dequeue _ p q hq =>
    have hcl : q.closed = s.queue.closed := by
      rcases WriteQueue.dequeue_eq_some hq with heq | ⟨_, heq⟩ <;> rw [heq]
    exact hcl.trans (h h')
  | transmitFail p _ pc _ hcl =>
    rcases hcl with ⟨rfl, _⟩ | rfl
    · cases h'
    · exact h h'
  | closeSession => cases h'
  | closingQueue => rfl
  | closingStreams hcl | closingTransport hcl => exact h (by rw [hcl]; rfl)
  | _ => exact h h'

/-- Close has closed the queue. -/
theorem pastQueue_reach (h : SessionReach role config ok s)
    (hcl : pastQueue s.closing = true) : s.queue.closed = true := by
  refine Reach.invariant
    (fun s => pastQueue s.closing = true → s.queue.closed = true) h nofun ?_ hcl
  intro s a s' _ hI _ hstep
  exact pastQueue_move (step_move hstep) hI

/-! ## A session in which nothing moves -/

/-- No goroutine of the session has a step left, reads from the wire apart. -/
def Stuck (s : Session) : Prop :=
  ∀ a, isCall a = false → (∀ p, a ≠ .recv p) → s.step a = none

/-- What is left of a stream at rest; `closed` is closeCh. An open waits for its ACK, a drain
goroutine for the next Write, and a Write that came too late for a goroutine that has ended. -/
structure CellAtRest (closed : Bool) (c : Cell) : Prop where
  opening : c.openPc.running = true → c.openPc = .wait ∧ c.ackCh = false ∧ closed = false
  closePc : c.closePc.running = false
  resetPc : c.resetPc.running = false
  drain : c.drainPc = .done ∨ c.drainPc = .select ∧ closed = false ∧ c.stream.writeOut = [] ∧
    c.stream.finCh = false ∧ ¬ c.stream.state.Terminal
  writers : c.writers = [] ∨ c.drainPc = .done ∧ c.stream.closedCh = false ∧
    writeOutCap ≤ c.stream.writeOut.length

/-- A session at rest, open or closed. -/
structure SessionAtRest (s : Session) : Prop where
  calls : s.calls = []
  cells : ∀ r < s.nextRef, CellAtRest s.closed (s.cells r)
  opened : s.closed = false → s.queue.control = [] ∧ s.queue.data = [] ∧ s.writer = .dequeue ∧
    (s.reader = .idle ∨ ∃ r p, s.reader = .acceptDeliver r p ∧
      s.config.maxConcurrentStreams ≤ s.acceptCh.length)
  closed : s.closed = true → s.closing = .done ∧ s.writer = .exited ∧ s.reader = .idle

namespace Stuck

variable {r : Ref}

/-- No OpenStream call waits. -/
theorem calls (h : Stuck s) : s.calls = [] := by
  cases hc : s.calls with
  | nil => rfl
  | cons payload rest =>
    have hno := h (.openAlloc payload) rfl nofun
    simp [Session.step, hc] at hno

/-- Close has not begun or is over. -/
theorem closing (h : Stuck s) : s.closing = .running ∨ s.closing = .done := by
  have hno := h .closing rfl nofun
  cases hc : s.closing <;> simp [Session.step, Session.closingStep, hc] at hno ⊢

/-- An open that is under way waits for its ACK in a session that is not closed. -/
theorem opening (h : Stuck s) (hr : r < s.nextRef) (hrun : (s.cells r).openPc.running = true) :
    (s.cells r).openPc = .wait ∧ (s.cells r).ackCh = false ∧ s.closed = false := by
  have own : ∀ o, o ≠ .cancel → s.opening r o = none := by
    intro o ho
    have hno := h (.opening r o) (by cases o <;> first | rfl | exact absurd rfl ho) (by simp)
    simpa [Session.step, hr] using hno
  cases hpc : (s.cells r).openPc with
  | accepted | returned | failed => simp [OpenPc.running, hpc] at hrun
  | register =>
    simpa [Session.opening, hpc] using own .register (by simp)
  | enqueue =>
    simpa [Session.opening, hpc] using own .enqueue (by simp)
  | cleanup cancelled =>
    simpa [Session.opening, hpc] using own .cleanup (by simp)
  | remove =>
    have hno := own .remove (by simp)
    simp only [Session.opening, hpc, if_true] at hno
    split at hno <;> cases hno
  | resetting found =>
    simpa [Session.opening, hpc] using own .reset (by simp)
  | wait =>
    have hack := own .ack (by simp)
    have hclosed := own .sessionClosed (by simp)
    simp only [Session.opening, hpc, true_and, ite_eq_right_iff, reduceCtorEq, imp_false,
      Bool.not_eq_true] at hack hclosed
    exact ⟨rfl, hack, hclosed⟩

theorem callback (h : Stuck s) (hr : r < s.nextRef) (k : Callback) : s.callback r k = none := by
  have hno := h (.callback r k) rfl nofun
  simpa [Session.step, hr] using hno

theorem closePc (h : Stuck s) (hr : r < s.nextRef) (hE : EndSeen (s.cells r)) :
    (s.cells r).closePc.running = false := by
  cases hpc : (s.cells r).closePc with
  | idle | done => rfl
  | fin =>
    simpa [Session.callback, hpc, hE.token hpc] using h.callback hr .closeFin
  | checkClosed =>
    simpa [Session.callback, hpc] using h.callback hr .closeCheckClosed
  | checkReset =>
    simpa [Session.callback, hpc] using h.callback hr .closeCheckReset
  | delete =>
    simpa [Session.callback, hpc] using h.callback hr .closeDelete

theorem resetPc (h : Stuck s) (hr : r < s.nextRef) : (s.cells r).resetPc.running = false := by
  cases hpc : (s.cells r).resetPc with
  | idle | done => rfl
  | check code =>
    simpa [Session.callback, hpc] using h.callback hr .resetCheck
  | lookup code =>
    simpa [Session.callback, hpc] using h.callback hr .resetLookup
  | send code =>
    simpa [Session.callback, hpc] using h.callback hr .resetSend

theorem drainStep (h : Stuck s) (hr : r < s.nextRef) (d : Drain) :
    (s.cells r).drain s.closed d = none := by
  have hno := h (.drain r d) rfl nofun
  simp only [Session.step, hr, if_true] at hno
  split at hno
  · cases hno
  · cases hno
  · assumption

/-- A drain goroutine that has not ended is in its select, with nothing to select. -/
theorem drain (h : Stuck s) (hs : SessionReach role config ok s) (hr : r < s.nextRef) :
    (s.cells r).drainPc = .done ∨ (s.cells r).drainPc = .select ∧ s.closed = false ∧
      (s.cells r).stream.writeOut = [] ∧ (s.cells r).stream.finCh = false ∧
      ¬ (s.cells r).stream.state.Terminal := by
  have hE := endSeen_reach hs r hr
  have hfin := h.drainStep hr .fin
  have hclosed := h.drainStep hr .sessionClosed
  have hnext := h.drainStep hr .next
  cases hpc : (s.cells r).drainPc with
  | done => exact .inl rfl
  | idle =>
    -- the goroutine starts with the STREAM_OPEN, which is not held back
    have hopen : (s.cells r).openPc.running = true := by
      rcases (started_reach hs r hr).1 hpc with ho | ho <;> simp [ho, OpenPc.running]
    have hwait := (h.opening hr hopen).1
    rcases (started_reach hs r hr).1 hpc with ho | ho <;> rw [ho] at hwait <;> cases hwait
  | select =>
    have hdata := h.drainStep hr .data
    have hseen := h.drainStep hr .closed
    simp only [Cell.drain, Cell.takeChunk, Cell.takeFIN, hpc, true_and, true_or,
      Option.map_eq_none_iff, ite_eq_right_iff, reduceCtorEq, imp_false, Bool.not_eq_true] at hfin hclosed hdata hseen
    refine .inr ⟨rfl, hclosed, ?_, hfin, ?_⟩
    · cases hout : (s.cells r).stream.writeOut with
      | nil => rfl
      | cons data rest => simp [hout] at hdata
    · rw [← hE.closedCh, hseen]
      simp
  | awaitFIN =>
    -- both halves are closed, so that the token is there or is still to be sent
    simp only [Cell.drain, Cell.takeFIN, hpc, Option.map_eq_none_iff, ite_eq_right_iff,
      reduceCtorEq, imp_false, Bool.not_eq_true] at hfin
    rcases finPending_reach hs r hr (hE.awaitFIN hpc) with (hf | hf | hf) | hdone
    · have hrun := h.closePc hr hE
      simp [hf, ClosePc.running] at hrun
    · rw [hfin] at hf
      cases hf
    · simp [hpc, finishing] at hf
    · rw [hpc] at hdone
      cases hdone
  | flush =>
    have hdata := h.drainStep hr .data
    cases hout : (s.cells r).stream.writeOut <;>
      simp [Cell.drain, Cell.takeChunk, hpc, hout] at hdata hnext
  | _ => simp [Cell.drain, hpc] at hnext

/-- A Write under way has no room in `writeOut` and nobody to make it. -/
theorem writers (h : Stuck s) (hs : SessionReach role config ok s) (hr : r < s.nextRef) :
    (s.cells r).writers = [] ∨ (s.cells r).drainPc = .done ∧
      (s.cells r).stream.closedCh = false ∧ writeOutCap ≤ (s.cells r).stream.writeOut.length := by
  cases hw : (s.cells r).writers with
  | nil => exact .inl rfl
  | cons data rest =>
    have hh : (s.cells r).handle = true := by
      by_contra hno
      have hnil := ((cellInv_reach hs r hr).unheld (by simpa using hno)).writers
      rw [hw] at hnil
      cases hnil
    have hsend := h (.call r (.writeSend data)) rfl nofun
    have hfail := h (.call r (.writeFail data)) rfl nofun
    simp only [Session.step, hr, hh, and_self, if_true, Cell.call, hw, List.mem_cons_self, true_and,
      Option.map_eq_none_iff, ite_eq_right_iff, reduceCtorEq, imp_false, Nat.not_lt,
      Bool.not_eq_true] at hsend hfail
    refine .inr ⟨?_, hfail, hsend⟩
    rcases h.drain hs hr with hdone | ⟨_, _, hout, _⟩
    · exact hdone
    · rw [hout] at hsend
      cases hsend

/-- Every stream is at rest. -/
theorem cell (h : Stuck s) (hs : SessionReach role config ok s) (hr : r < s.nextRef) :
    CellAtRest s.closed (s.cells r) where
  opening := h.opening hr
  closePc := h.closePc hr (endSeen_reach hs r hr)
  resetPc := h.resetPc hr
  drain := h.drain hs hr
  writers := h.writers hs hr

/-- The read loop is idle, or waits for a place in acceptCh. -/
theorem reader (h : Stuck s) (hs : SessionReach role config ok s) :
    s.reader = .idle ∨ s.closed = false ∧ ∃ r p, s.reader = .acceptDeliver r p ∧
      s.config.maxConcurrentStreams ≤ s.acceptCh.length := by
  have hno := h .reader rfl (by simp)
  simp only [Session.step] at hno
  cases hrd : s.reader with
  | idle => exact .inl rfl
  | acceptDeliver r p =>
    have hcl := h .readerClosed rfl (by simp)
    simp only [Session.step, Session.readerStep, hrd, ite_eq_right_iff, reduceCtorEq, imp_false,
      Nat.not_lt, Bool.not_eq_true] at hno hcl
    exact .inr ⟨hcl, r, p, rfl, hno⟩
  | awaitReset r p =>
    -- the callback it waits for would have a step
    have hr := ((wellFormed_reach hs).reader r p (by rw [hrd]; rfl)).1
    have hbegun := awaitReset_begun hs hrd
    have hrun := h.resetPc hr
    cases hpc : (s.cells r).resetPc with
    | idle => exact absurd hpc hbegun
    | done => simp [Session.readerStep, hrd, hpc] at hno
    | check | lookup | send => simp [hpc, ResetPc.running] at hrun
  | _ => simp [Session.readerStep, hrd] at hno

/-- The write loop waits for a frame; that of a closed session has ended. -/
theorem writer (h : Stuck s) (hs : SessionReach role config ok s) :
    (s.closed = false → s.queue.control = [] ∧ s.queue.data = [] ∧ s.writer = .dequeue) ∧
      (s.closed = true → s.writer = .exited) := by
  cases hw : s.writer with
  | check =>
    have hno := h .writerCheck rfl (by simp)
    simp [Session.step, hw] at hno
  | write p =>
    have hno := h (.transmit p) rfl (by simp)
    have hfail := h .transmitFail rfl (by simp)
    by_cases hlen : p.frame.payload.length ≤ maxPayloadSize ∧ s.closing ≠ .done
    · simp [Session.step, hw, hlen] at hno
    · have hlen' : p.frame.payload.length > maxPayloadSize ∨ s.closing = .done := by
        by_contra hnot
        push Not at hnot
        exact hlen hnot
      simp [Session.step, hw, hlen'] at hfail
  | exited =>
    have hcl := (endingInv_reach hs).mute (by simp [Session.mute, hw])
    exact ⟨fun hopen => absurd (hcl.symm.trans hopen) (by simp), fun _ => rfl⟩
  | dequeue =>
    have hno := h .dequeue rfl (by simp)
    simp only [Session.step, hw, if_true] at hno
    split at hno
    · cases hno
    · next hq =>
      have hempty : s.queue.control = [] ∧ s.queue.data = [] := by
        unfold WriteQueue.dequeue at hq
        split at hq <;> simp_all
      refine ⟨fun _ => ⟨hempty.1, hempty.2, rfl⟩, fun hcl => ?_⟩
      have hdone : s.closing = .done := h.closing.resolve_left (by simpa [Session.closed] using hcl)
      rw [pastQueue_reach hs (by rw [hdone]; rfl), if_pos rfl] at hno
      cases hno

/-- A session with no step left is at rest. -/
theorem atRest (h : Stuck s) (hs : SessionReach role config ok s) : SessionAtRest s where
  calls := h.calls
  cells _ hr := h.cell hs hr
  opened hopen := by
    obtain ⟨hcontrol, hdata, hw⟩ := (h.writer hs).1 hopen
    exact ⟨hcontrol, hdata, hw, (h.reader hs).imp_right And.right⟩
  closed hcl := by
    refine ⟨h.closing.resolve_left (by simpa [Session.closed] using hcl), (h.writer hs).2 hcl, ?_⟩
    refine (h.reader hs).resolve_right ?_
    rintro ⟨hopen, _⟩
    rw [hcl] at hopen
    cases hopen

end Stuck

/-! ## Both sessions -/

/-- Both sessions are at rest, and what was sent to a session that still reads has been read. -/
structure BothAtRest (S : System) : Prop where
  sess : ∀ X, SessionAtRest (S.sess X)
  wire : ∀ X, (S.sess X).closed = false → (S.sess X).reader = .idle → S.wire X.peer = []

variable {S : System} {limits : Role → MuxConfig}

/-- The steps that nobody asks for. -/
def Unasked (e : Role × Action) : Prop := isCall e.2 = false

instance (e : Role × Action) : Decidable (Unasked e) := inferInstanceAs (Decidable (_ = _))

theorem wireStep_of_not_recv (S : System) (X : Role) {a : Action} (h : ∀ p, a ≠ .recv p) :
    (S.wireStep X a).isSome := by
  cases a with
  | recv p => exact absurd rfl (h p)
  | _ => rfl

/-- Both sessions have nothing to do. -/
theorem stuck_of_system (h : ∀ e, Unasked e → S.step e = none) (X : Role) : Stuck (S.sess X) := by
  intro a ha hrecv
  have hno := h (X, a) ha
  obtain ⟨w, hw⟩ := Option.isSome_iff_exists.mp (wireStep_of_not_recv S X hrecv)
  cases hs : (S.sess X).step a with
  | none => rfl
  | some s => simp [System.step, hs, hw] at hno

/-- Then both are at rest. -/
theorem settled_of_stuck (hS : SystemReach limits anyStep S)
    (h : ∀ e, Unasked e → S.step e = none) : BothAtRest S := by
  have hs : ∀ X, SessionReach X (limits X) anyStep (S.sess X) :=
    session_reach hS fun _ _ _ _ _ => trivial
  refine ⟨fun X => (stuck_of_system h X).atRest (hs X), fun X hopen hidle => ?_⟩
  cases hwire : S.wire X.peer with
  | nil => rfl
  | cons p rest =>
    have hno := h (X, .recv p) rfl
    have hrun : (S.sess X).closing ≠ .done := by
      intro hdone
      simp [Session.closed, hdone] at hopen
    simp [System.step, Session.step, System.wireStep, hidle, hrun, hwire] at hno

/-- A step that nobody asks for uses up some of the work that is left. -/
theorem unasked_cost {S' : System} {e : Role × Action} (he : Unasked e) (h : S.step e = some S') :
    systemCost ⟨1, 0⟩ S' < systemCost ⟨1, 0⟩ S := by
  have hcost : systemCost ⟨1, 0⟩ S' + price ⟨1, 0⟩ e.2 ≤ systemCost ⟨1, 0⟩ S + payment ⟨1, 0⟩ e.2 :=
    system_cost h
  have hprice : price ⟨1, 0⟩ e.2 = 1 := by
    have : isCall e.2 = false := he
    simp [price, this]
  have hpay : payment ⟨1, 0⟩ e.2 = 0 := by
    have : isCall e.2 = false := he
    unfold payment
    split <;> simp_all [isCall]
  omega

/-- **Left alone, both sessions come to rest.** From any state that any interleaving reaches, the
steps that nobody asks for run out; where none of them is left, both sessions are at rest.
SOURCE: mux_session.go:111-172, 189-205, 277-382, 385-564; stream_impl.go:105-243 -/
theorem sessions_settle (hS : SystemReach limits anyStep S) :
    ∃ n, ∀ (as : List (Role × Action)) (S' : System),
      exec (guarded System.step fun _ e => Unasked e) S as = some S' → as.length ≤ n ∧
        ((∃ e S'', Unasked e ∧ S'.step e = some S'') ∨ BothAtRest S') := by
  refine ⟨systemCost ⟨1, 0⟩ S, fun as S' hexec => ⟨?_, ?_⟩⟩
  · have hvar := exec_variant (I := fun _ => True) (systemCost ⟨1, 0⟩) hexec trivial
      fun _ _ _ _ he hstep => ⟨trivial, unasked_cost he hstep⟩
    omega
  · by_cases hstuck : ∀ e, Unasked e → S'.step e = none
    · have hS' : SystemReach limits anyStep S' :=
        hS.trans (.of_exec as (exec_mono hexec fun _ _ _ => trivial))
      exact .inr (settled_of_stuck hS' hstuck)
    · push Not at hstuck
      obtain ⟨e, he, hne⟩ := hstuck
      obtain ⟨S'', hS''⟩ := Option.ne_none_iff_exists'.mp hne
      exact .inl ⟨e, S'', he, hS''⟩

/-- Both sessions with a stream between them, its Close under way. -/
theorem sessions_settle_closing :
    ∃ S, SystemReach fourStreams anyStep S ∧ FinPending ((S.sess .agent).cells 0) ∧
      ∃ n, ∀ (as : List (Role × Action)) (S' : System),
        exec (guarded System.step fun _ e => Unasked e) S as = some S' → as.length ≤ n ∧
          ((∃ e S'', Unasked e ∧ S'.step e = some S'') ∨ BothAtRest S') := by
  have hex : ∃ S, SystemReach fourStreams anyStep S ∧ FinPending ((S.sess .agent).cells 0) :=
    exists_reach_of_exec (connectRun 0 [] ++ onSide .agent [.call 0 .close]) _ (by decide +kernel)
  obtain ⟨S, hS, hfin⟩ := hex
  exact ⟨S, hS, hfin, sessions_settle hS⟩

end Atlax.Analysis
