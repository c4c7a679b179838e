import Atlax.Analysis.Attribution
import Atlax.Library.Ledger

/-!
# How many STREAM_RESETs are sent

A STREAM_RESET is queued by the callback of a Reset and by the refusal of a STREAM_OPEN. The
callback also runs for a Reset that the handler of a STREAM_RESET frame calls, and decides by the
map whether it has to tell the peer; but the handler takes the entry out of the map after the call,
so that the callback finds it and answers a STREAM_RESET with a STREAM_RESET. Where the callback
of such a Reset does not find the entry, every STREAM_RESET sent is paid for by a local Reset or by
a refused STREAM_OPEN.
-/

set_option autoImplicit false

namespace Atlax.Analysis

open Atlax.Model Atlax.Library

variable {r : Ref}

variable {s s' : Session} {a : Action} {S S' : System} {c c' : Cell} {X : Role}

/-! ## Where a callback of Reset comes from -/

/-- The read loop waits for the callback of the Reset it has called on the stream. -/
def awaits : ReaderPc → Ref → Bool
  | .awaitReset r' _, r => r' == r
  | _, _ => false

/-- The callback of a Reset called for a STREAM_RESET frame looks the identifier up when the map
has no entry under it.
SOURCE: mux_session.go:492-513, 688-702 -/
def NoEcho (s : Session) : Action → Prop
  | .callback r .resetLookup =>
    awaits s.reader r = true → s.table.get (s.cells r).stream.id = none
  | _ => True

instance (s : Session) (a : Action) : Decidable (NoEcho s a) := by
  unfold NoEcho
  split <;> infer_instance

/-- The Resets called locally: by a holder of the stream, and by a cancelled OpenStream.
SOURCE: stream_impl.go:224-242; mux_session.go:651-666 -/
def startsReset : Action → ℕ
  | .call _ (.reset _) | .opening _ .reset => 1
  | _ => 0

/-- The refusal of a STREAM_OPEN is queued.
SOURCE: mux_session.go:742-756 -/
def rejectsOpen (s : Session) : Action → ℕ
  | .reader =>
    match s.reader with
    | .rejectOpen _ => 1
    | _ => 0
  | _ => 0

/-- A STREAM_RESET goes onto the wire. -/
def sendsReset : Action → ℕ
  | .transmit p => if p.isReset then 1 else 0
  | _ => 0

theorem reset_resetPc (c : Cell) (code : ℕ) (byFrame : Bool) :
    (c.reset code byFrame).resetPc = .check code ∧ c.stream.reset.2 = true ∨
      (c.reset code byFrame).resetPc = c.resetPc ∧ c.stream.reset.2 = false := by
  unfold Cell.reset
  cases hn : c.stream.reset.2 with
  | true => exact .inl ⟨by simp [hn], rfl⟩
  | false => exact .inr ⟨by simp [hn], rfl⟩

theorem call_resetPc {k : Call} (h : CellCall c k c') :
    c'.resetPc = c.resetPc ∨ ∃ code, k = .reset code := by
  cases h with
  | reset code => exact .inr ⟨code, rfl⟩
  | _ => exact .inl rfl

theorem drain_resetPc {b : Bool} {p : Option Packet} (h : CellDrain c b c' p) :
    c'.resetPc = c.resetPc := by
  cases h <;> rfl

/-- The step calls Reset on stream `r`. -/
inductive Resets (s : Session) (r : Ref) : Action → Prop
  | call (code : ℕ) : Resets s r (.call r (.reset code))
  | opening (r₀ : Ref) (hpc : (s.cells r₀).openPc = .resetting r) : Resets s r (.opening r₀ .reset)
  | closing (hcl : s.closing = .streams) : Resets s r .closing
  | frame (p : Packet) (hrd : s.reader = .resetting r p) : Resets s r .reader

/-- The callback of a Reset stands where it stood, or the step is one of its own, or a call of
Reset. -/
theorem move_resetPc (hm : Move s a s') (hr : r < s.nextRef) :
    (s'.cells r).resetPc = (s.cells r).resetPc ∨ (∃ k, a = .callback r k) ∨ Resets s r a := by
  cases hm with
  | openAlloc | acceptInsert =>
    left
    simp [Function.update_of_ne (Nat.ne_of_lt hr)]
  | resetCheck r₀ | resetLookup r₀ | resetSend r₀ =>
    by_cases h : r = r₀
    · exact .inr (.inl ⟨_, by rw [h]⟩)
    · left
      simp [Function.update_of_ne h]
  | call r₀ _ _ k c hc =>
    by_cases h : r = r₀
    · subst h
      rcases call_resetPc hc with hpc | ⟨code, rfl⟩
      · left
        simpa using hpc
      · exact .inr (.inr (.call code))
    · left
      simp [Function.update_of_ne h]
  | openReset r₀ _ found hpc =>
    by_cases h : r = found
    · subst h
      exact .inr (.inr (.opening r₀ hpc))
    · left
      rw [Session.setCell_cells, Function.update_of_ne h]
      exact update_field Cell.resetPc (by rfl) r
  | drain _ _ _ _ hc | drainSend _ _ _ _ _ hc =>
    exact .inl (update_field Cell.resetPc (drain_resetPc hc) r)
  | resetting r₀ p hrd =>
    by_cases h : r = r₀
    · subst h
      exact .inr (.inr (.frame p hrd))
    · left
      simp [Function.update_of_ne h]
  | closingStreams hcl => exact .inr (.inr (.closing hcl))
  | register | sendOpen | openAck | openCancel | openClosed | openCleanup | openRemove
  | openRemoveNone | acceptStream | closeFin | closeCheckClosed | closeCheckReset | closeDelete
  | ackSend | deliver | remoteClose | windowUpdate =>
    exact .inl (update_field Cell.resetPc (by rfl) r)
  | _ => exact .inl rfl

/-! ## What a session still owes -/

/-- A callback that may still queue a STREAM_RESET: not one the read loop waits for, and not one
that has yet to find out that the session is closed. -/
def due (closed awaited : Bool) : ResetPc → ℕ
  | .check _ => if closed || awaited then 0 else 1
  | .lookup _ | .send _ => if awaited then 0 else 1
  | .idle | .done => 0

/-- The reset that stream `r` will send. -/
def dueAt (s : Session) (r : Ref) : ℕ := due s.closed (awaits s.reader r) (s.cells r).resetPc

theorem due_le_one (closed awaited : Bool) (pc : ResetPc) : due closed awaited pc ≤ 1 := by
  cases pc <;> simp only [due] <;> first | omega | (split <;> omega)

/-- Closing the session and waiting for the callback make it owe less. -/
theorem due_anti {closed closed' awaited awaited' : Bool} {pc : ResetPc}
    (hcl : closed = true → closed' = true) (haw : awaited = true → awaited' = true ∨ pc = .done) :
    due closed' awaited' pc ≤ due closed awaited pc := by
  cases pc with
  | idle | done => exact Nat.le_refl 0
  | check code | lookup code | send code =>
    have haw' : awaited = true → awaited' = true := fun h => (haw h).resolve_right (by simp)
    cases awaited <;> cases closed <;> cases awaited' <;> cases closed' <;> simp_all [due]

/-- The read loop stops waiting when the callback is done. -/
theorem move_awaits (hm : Move s a s') (h : awaits s.reader r = true) :
    awaits s'.reader r = true ∨ (s.cells r).resetPc = .done := by
  have hstay : s'.reader = s.reader → awaits s'.reader r = true ∨ (s.cells r).resetPc = .done :=
    fun heq => .inl (heq ▸ h)
  cases hm with
  | awaitReset r₀ p hrd hpc =>
    simp only [hrd, awaits, beq_iff_eq] at h
    exact .inr (h ▸ hpc)
  | recv p hrd | handleNothing p hrd | handleAck p hrd | handleOpenOwn p hrd | handleOpen p hrd
  | handleData p hrd | handleDataFin p hrd | handleClose p hrd | handleReset p hrd
  | handleMiss p hrd | handleOpenActive p hrd | handleWindow p hrd | handlePing p hrd
  | ackSend r₀ hrd | rejectOpen p hrd | acceptInsert p hrd | acceptAck r₀ p hrd
  | acceptDeliver r₀ p hrd | deliver r₀ p hrd | remoteClose r₀ p hrd | checkClosed r₀ p hrd
  | checkReset r₀ p hrd | delete r₀ p hrd | resetting r₀ p hrd | resetRemove r₀ p hrd
  | windowUpdate r₀ p hrd | readerClosed r₀ p hrd => simp [hrd, awaits] at h
  | _ => exact hstay rfl

theorem dueAt_le (hm : Move s a s')
    (hpc : (s'.cells r).resetPc = (s.cells r).resetPc) : dueAt s' r ≤ dueAt s r := by
  unfold dueAt
  rw [hpc]
  exact due_anti (move_closed hm) (move_awaits hm)

/-- No callback that the read loop waits for has decided to tell the peer. -/
def Echoless (s : Session) : Prop :=
  ∀ r code, awaits s.reader r = true → (s.cells r).resetPc ≠ .send code

/-- A step of the callback itself. -/
theorem dueAt_callback {k : Callback} (hm : Move s (.callback r k) s') :
    dueAt s' r ≤ dueAt s r := by
  have hm' := hm
  cases hm with
  | closeFin | closeCheckClosed | closeCheckReset | closeDelete => exact dueAt_le hm' (by simp)
  | resetCheck _ _ code hpc =>
    show due s.closed (awaits s.reader r) _ ≤ due s.closed (awaits s.reader r) _
    rw [hpc, Session.setCell_cells, Function.update_self]
    cases s.closed <;> simp [due]
  | resetLookup _ _ code hpc =>
    show due s.closed (awaits s.reader r) _ ≤ due s.closed (awaits s.reader r) _
    rw [hpc, Session.setTable_cells, Session.setCell_cells, Function.update_self]
    split <;> simp [due]
  | resetSend _ _ code hpc =>
    show due s.closed (awaits s.reader r) _ ≤ _
    simp [due]

/-- The section that queues the STREAM_RESET is the end of the callback. -/
theorem dueAt_resetSend (hE : Echoless s) (hm : Move s (.callback r .resetSend) s') :
    dueAt s' r + 1 ≤ dueAt s r := by
  cases hm with
  | resetSend _ _ code hpc =>
    have haw : awaits s.reader r = false := by
      by_contra h
      exact hE r code (by simpa using h) hpc
    show due s.closed (awaits s.reader r) _ + 1 ≤ due s.closed (awaits s.reader r) _
    rw [hpc, haw]
    simp [due]

/-- A Reset that is called owes one STREAM_RESET, unless Close or a frame calls it. -/
theorem dueAt_resets (hm : Move s a s') (h : Resets s r a) :
    dueAt s' r ≤ dueAt s r + startsReset a := by
  cases h with
  | call | opening => exact Nat.le_trans (due_le_one _ _ _) (Nat.le_add_left 1 _)
  | closing hcl =>
    have hm' := hm
    cases hm with
    | closingQueue | closingTransport => exact dueAt_le hm' rfl
    | closingStreams =>
      by_cases hmem : r ∈ s.table.streams.entries.map (·.2)
      · have hcell : (s.resetStreams.setClosing .transport).cells r = (s.cells r).reset 0 false := by
          simp only [Session.setClosing_cells, Session.resetStreams_cells, hmem, if_true]
        rcases reset_resetPc (s.cells r) 0 false with ⟨hpc, _⟩ | ⟨hpc, _⟩
        · unfold dueAt
          rw [hcell, hpc]
          simp [due, Session.closed]
        · exact dueAt_le hm' (by rw [hcell, hpc])
      · refine dueAt_le hm' ?_
        simp only [Session.setClosing_cells, Session.resetStreams_cells, hmem, if_false]
  | frame p hrd =>
    have hm' := hm
    cases hm with
    | resetting r₀ p' hrd' =>
      obtain ⟨rfl, rfl⟩ : r = r₀ ∧ p = p' := by simpa [hrd] using hrd'
      rcases reset_resetPc (s.cells r) (Session.resetCode p) true with ⟨hpc, hn⟩ | ⟨hpc, _⟩
      · unfold dueAt
        rw [Session.setReader_cells, Session.setCell_cells, Function.update_self, hpc,
          Session.setReader_reader, if_pos hn]
        simp [due, awaits]
      · exact dueAt_le hm' (by simpa using hpc)
    | _ => simp_all

/-- The stream on which a step calls Reset locally. -/
def target (s : Session) : Action → Ref
  | .call r _ => r
  | .opening r _ =>
    match (s.cells r).openPc with
    | .resetting found => found
    | _ => r
  | _ => 0

/-- Every callback owes at most what it owed, except that of a Reset called locally. -/
theorem dueAt_move (hm : Move s a s') (hr : r < s.nextRef) :
    dueAt s' r ≤ dueAt s r + if r = target s a then startsReset a else 0 := by
  rcases move_resetPc hm hr with hpc | ⟨k, rfl⟩ | hres
  · exact Nat.le_trans (dueAt_le hm hpc) (Nat.le_add_right _ _)
  · exact Nat.le_trans (dueAt_callback hm) (Nat.le_add_right _ _)
  · have hle := dueAt_resets hm hres
    cases hres with
    | call code => simpa [target] using hle
    | opening r₀ hpc => simpa [target, hpc] using hle
    | closing | frame => exact Nat.le_trans hle (Nat.le_add_right _ _)

/-- The callbacks together. -/
def duesOf (s : Session) : ℕ := ∑ r ∈ Finset.range s.nextRef, dueAt s r

/-- A new stream owes nothing. -/
theorem duesOf_new (hm : Move s a s') :
    duesOf s' = ∑ r ∈ Finset.range s.nextRef, dueAt s' r := by
  rcases Nat.lt_or_ge s.nextRef s'.nextRef with hlt | hge
  · obtain ⟨hidle, hn⟩ : (s'.cells s.nextRef).resetPc = .idle ∧ s'.nextRef = s.nextRef + 1 := by
      cases hm with
      | openAlloc | acceptInsert => exact ⟨by simp [Session.openedCell, Session.acceptedCell], rfl⟩
      | _ => exact absurd hlt (Nat.lt_irrefl _)
    unfold duesOf
    rw [hn, Finset.sum_range_succ]
    simp [dueAt, hidle, due]
  · unfold duesOf
    rw [Nat.le_antisymm hge (move_nextRef hm)]

/-- The section of a callback that queues a STREAM_RESET. -/
def queuesReset : Action → ℕ
  | .callback _ .resetSend => 1
  | _ => 0

/-- A reset is due once for each call of Reset. -/
theorem duesOf_move (hE : Echoless s) (hm : Move s a s') :
    duesOf s' + queuesReset a ≤ duesOf s + startsReset a := by
  have hsum : duesOf s' ≤ duesOf s + startsReset a := by
    rw [duesOf_new hm]
    exact sum_range_le_add (target s a) fun r hr => dueAt_move hm hr
  by_cases hsend : ∃ r, a = .callback r .resetSend
  · obtain ⟨r, rfl⟩ := hsend
    have hr : r < s.nextRef := by cases hm; assumption
    rw [duesOf_new hm]
    refine sum_range_succ_le hr (fun r' hr' => ?_) (dueAt_resetSend hE hm)
    simpa [startsReset] using dueAt_move hm hr'
  · have hzero : queuesReset a = 0 := by
      unfold queuesReset
      split
      · exact absurd ⟨_, rfl⟩ hsend
      · rfl
    omega

/-- The STREAM_RESETs in the queue. -/
def resetCount (q : WriteQueue) : ℕ :=
  q.control.countP Packet.isReset + q.data.countP Packet.isReset

/-- The one in the hand of the write loop. -/
def resetInHand : WriterPc → ℕ
  | .write p => if p.isReset then 1 else 0
  | .check | .dequeue | .exited => 0

theorem resetCount_enqueue (q : WriteQueue) (p : Packet) (priority : Priority) :
    resetCount (q.enqueue p priority) ≤ resetCount q + if p.isReset then 1 else 0 := by
  unfold resetCount WriteQueue.enqueue
  split
  · exact Nat.le_add_right _ _
  · cases priority <;> simp only [List.countP_append, List.countP_singleton] <;> omega

/-- A packet of another kind does not count. -/
theorem resetCount_other {q : WriteQueue} {p : Packet} {priority : Priority}
    (h : p.isReset = false) : resetCount (q.enqueue p priority) ≤ resetCount q := by
  simpa [h] using resetCount_enqueue q p priority

theorem resetCount_dequeue {q q' : WriteQueue} {p : Packet} (h : q.dequeue = some (p, q')) :
    resetCount q' + (if p.isReset then 1 else 0) = resetCount q := by
  unfold resetCount
  rcases WriteQueue.dequeue_eq_some h with hq | ⟨_, hq⟩ <;> rw [hq] <;>
    simp only [List.countP_cons] <;> omega

/-- What is in the queue and in the write loop's hand comes from a callback or from the refusal of
an open, and goes onto the wire. -/
theorem queue_move (hm : Move s a s') :
    sendsReset a + resetCount s'.queue + resetInHand s'.writer ≤
      resetCount s.queue + resetInHand s.writer + queuesReset a + rejectsOpen s a := by
  -- a step that sends nothing and queues at most a packet of another kind
  have quiet (hs : sendsReset a = 0) (hq : resetCount s'.queue ≤ resetCount s.queue)
      (hw : resetInHand s'.writer ≤ resetInHand s.writer) :
      sendsReset a + resetCount s'.queue + resetInHand s'.writer ≤
        resetCount s.queue + resetInHand s.writer + queuesReset a + rejectsOpen s a := by
    omega
  cases hm with
  | sendOpen | handlePing | acceptAck | goAwaySend | ping | sendServiceList =>
    exact quiet rfl (resetCount_other rfl) (Nat.le_refl _)
  | drainSend r hr d c p hc =>
    have hp : p.isReset = false := by cases hc <;> rfl
    exact quiet rfl (resetCount_other hp) (Nat.le_refl _)
  | resetSend r hr code hpc =>
    have hq := resetCount_enqueue s.queue ((s.cells r).resetPacket code) .control
    have hle : (if ((s.cells r).resetPacket code).isReset then 1 else 0) ≤ 1 := by split <;> omega
    show 0 + resetCount (s.queue.enqueue _ _) + resetInHand s.writer ≤ _ + _ + 1 + 0
    omega
  | rejectOpen p hrd =>
    have hq := resetCount_enqueue s.queue (rejectPacket p) .control
    have hle : (if (rejectPacket p).isReset then 1 else 0) ≤ 1 := by split <;> omega
    have hrej : rejectsOpen s .reader = 1 := by simp [rejectsOpen, hrd]
    show 0 + resetCount (s.queue.enqueue _ _) + resetInHand s.writer ≤ _ + _ + 0 + _
    omega
  | dequeue hw p q hq =>
    have hcount := resetCount_dequeue hq
    show 0 + resetCount q + (if p.isReset then 1 else 0) ≤ _ + _ + 0 + 0
    omega
  | transmit p hw =>
    rw [hw]
    show (if p.isReset then 1 else 0) + resetCount s.queue + 0 ≤
      resetCount s.queue + (if p.isReset then 1 else 0) + 0 + 0
    omega
  | writerCheck hw =>
    refine quiet rfl (Nat.le_refl _) ?_
    simp only [Session.setWriter_writer]
    split <;> exact Nat.zero_le _
  | dequeueExit | transmitFail => exact quiet rfl (Nat.le_refl _) (Nat.zero_le _)
  | _ => exact quiet rfl (Nat.le_refl _) (Nat.le_refl _)

/-- The STREAM_RESETs a session has still to send. -/
def owed (s : Session) : ℕ := resetCount s.queue + resetInHand s.writer + duesOf s

/-- Every step pays for what it sends. -/
theorem owed_move (hE : Echoless s) (hm : Move s a s') :
    sendsReset a + owed s' ≤ startsReset a + rejectsOpen s a + owed s := by
  have hq := queue_move hm
  have hd := duesOf_move hE hm
  unfold owed
  omega

theorem awaits_iff {rd : ReaderPc} :
    awaits rd r = true ↔ ∃ p, rd = .awaitReset r p := by
  cases rd <;> simp [awaits]

theorem reset_send {c : Cell} {code code' : ℕ} {byFrame : Bool}
    (h : (c.reset code byFrame).resetPc = .send code') : c.resetPc = .send code' := by
  rcases reset_resetPc c code byFrame with ⟨hpc, _⟩ | ⟨hpc, _⟩
  · rw [hpc] at h
    cases h
  · rwa [hpc] at h

/-- A callback about to tell the peer was so before, or has just looked the identifier up. -/
theorem cell_resetSend {rd : ReaderPc} {code : ℕ} (hc : CellMove a rd r c c')
    (h : c'.resetPc = .send code) : c.resetPc = .send code ∨ a = .callback r .resetLookup := by
  cases hc with
  | call k c' _ _ hc =>
    cases hc with
    | reset => exact .inl (reset_send h)
    | _ => exact .inl h
  | drain d b c' p _ hc =>
    rw [drain_resetPc hc] at h
    exact .inl h
  | resetCheck _ _ _ closed => cases closed <;> cases h
  | resetLookup _ ha => exact .inr ha
  | resetSend => cases h
  | resetLocal | resetFrame => exact .inl (reset_send h)
  | openFailedReset => exact .inl (reset_send (c := { c with openPc := .failed }) h)
  | _ => exact .inl h

/-- No step answers a reset with a reset. -/
theorem echoless_move (hw : WellFormed s) (hE : Echoless s) (hok : NoEcho s a) (hm : Move s a s') :
    Echoless s' := by
  intro r code haw hpc
  obtain ⟨p, hrd'⟩ := awaits_iff.mp haw
  have hrd := hrd' ▸ move_readerPc hm
  generalize hold : s.reader = pc at hrd
  cases hrd with
  | notify _ _ hn hc =>
    rw [hc] at hpc
    simp [Cell.reset, hn] at hpc
  | stay =>
    have haw₀ : awaits s.reader r = true := awaits_iff.mpr ⟨p, hold⟩
    have hr : r < s.nextRef := (hw.reader r p (by rw [hold]; rfl)).1
    rcases cell_resetSend (move_cell hm hr) hpc with hsend | rfl
    · exact hE r code haw₀ hsend
    · cases hm with
      | resetLookup =>
        have hnone := hok haw₀
        simp [hnone] at hpc

/-- In every run. -/
theorem echoless_reach {role : Role} {config : MuxConfig} (h : SessionReach role config NoEcho s) :
    Echoless s := by
  refine Reach.invariant Echoless h ?_ ?_
  · intro r code haw
    cases haw
  · intro s a s' hr hE hok hstep
    exact echoless_move (wellFormed_reach hr) hE hok (step_move hstep)

/-! ## Handling a STREAM_RESET -/

/-- A step of the handler of a STREAM_RESET: one of the read loop, or one of the callback of the
Reset that the read loop has called and waits for.
SOURCE: mux_session.go:492-513 -/
def HandlesReset (s : Session) (a : Action) : Prop :=
  ∃ p, s.reader.packet = some p ∧ p.isReset = true ∧
    (a = .reader ∨ ∃ r k, s.reader = .awaitReset r p ∧ a = .callback r k)

/-- A received reset queues none.
SOURCE: mux_session.go:492-513 -/
theorem handler_queues_none (hw : WellFormed s) (hE : Echoless s) (h : HandlesReset s a)
    (hm : Move s a s') : resetCount s'.queue ≤ resetCount s.queue := by
  obtain ⟨p, hp, hreset, rfl | ⟨r, k, hrd, rfl⟩⟩ := h
  · cases hm with
    | rejectOpen q hrd =>
      -- what is refused is a STREAM_OPEN
      have hopen := hw.kind
      rw [hrd] at hopen hp
      cases hp
      simp_all [ReaderKind, Packet.isOpen, Packet.isReset]
    | handlePing | acceptAck => exact resetCount_other rfl
    | _ => exact Nat.le_refl _
  · cases hm with
    | resetSend _ _ code hpc => exact absurd hpc (hE r code (awaits_iff.mpr ⟨p, hrd⟩))
    | _ => exact Nat.le_refl _

/-! ## Both sides -/

/-- The weight of a step of either side. -/
def onEither (w : Session → Action → ℕ) (S : System) (l : Role × Action) : ℕ := w (S.sess l.1) l.2

/-- The condition on both sides. -/
def EchoFree (S : System) (l : Role × Action) : Prop := NoEcho (S.sess l.1) l.2

instance (S : System) (l : Role × Action) : Decidable (EchoFree S l) :=
  inferInstanceAs (Decidable (NoEcho _ _))

/-- What holds of a side that moves and of one that stands still holds of both. -/
theorem sides_move (hm : SysMove S X a S') (P : Session → Prop)
    (hP : ∀ Y, P (S.sess Y)) (hX : P (S'.sess X)) (Y : Role) : P (S'.sess Y) := by
  rcases Role.eq_or_eq_peer X Y with rfl | rfl
  · exact hX
  · rw [hm.peer]
    exact hP _

/-- Both sides together. -/
theorem owed_system (hE : Echoless (S.sess X)) (hm : SysMove S X a S') :
    sendsReset a + (owed (S'.sess .relay) + owed (S'.sess .agent)) ≤
      startsReset a + rejectsOpen (S.sess X) a + (owed (S.sess .relay) + owed (S.sess .agent)) := by
  have hX := owed_move hE hm.move
  have hpeer : owed (S'.sess X.peer) = owed (S.sess X.peer) := by rw [hm.peer]
  cases X <;> simp only [Role.peer] at hpeer <;> omega

/-- What the count relies on, on both sides. -/
def SidesInOrder (S : System) : Prop :=
  (∀ Y, WellFormed (S.sess Y)) ∧ ∀ Y, Echoless (S.sess Y)

theorem sidesInOrder_new (config : Role → MuxConfig) : SidesInOrder (newSystem config) := by
  refine ⟨fun Y => wellFormed_new Y (config Y), ?_⟩
  intro Y r code haw
  cases haw

/-- SOURCE: mux_session.go:492-513; stream_impl.go:223-243 -/
theorem sidesInOrder_move (hI : SidesInOrder S)
    (hok : EchoFree S (X, a)) (hm : SysMove S X a S') : SidesInOrder S' := by
  obtain ⟨hw, hE⟩ := hI
  exact ⟨sides_move hm WellFormed hw (wellFormed_move (hw X) hm.move),
    sides_move hm Echoless hE (echoless_move (hw X) (hE X) hok hm.move)⟩

/-- The handler of a STREAM_RESET queues none, and in every run of the two sessions at most as many
STREAM_RESETs are sent as Resets are called locally and STREAM_OPENs refused: as long as no
callback of a Reset that a frame has caused finds the identifier in the map.
SOURCE: mux_session.go:492-513, 677-714; stream_impl.go:223-243 -/
theorem resets_not_echoed (config : Role → MuxConfig) :
    (∀ role s a s', SessionReach role (config role) NoEcho s → HandlesReset s a →
      s.step a = some s' → resetCount s'.queue ≤ resetCount s.queue) ∧
    ∀ as S, exec (guarded System.step EchoFree) (newSystem config) as = some S →
      tally System.step (onEither fun _ => sendsReset) (newSystem config) as ≤
        tally System.step (onEither fun _ => startsReset) (newSystem config) as +
          tally System.step (onEither rejectsOpen) (newSystem config) as := by
  refine ⟨?_, ?_⟩
  · intro role s a s' h hh hstep
    exact handler_queues_none (wellFormed_reach h) (echoless_reach h) hh (step_move hstep)
  · intro as S h
    have hle := tally_le SidesInOrder (fun S => owed (S.sess .relay) + owed (S.sess .agent))
      (onEither fun _ => sendsReset)
      (fun S l => onEither (fun _ => startsReset) S l + onEither rejectsOpen S l)
      (fun S l S' hI hok (hstep : S.step l = some S') =>
        sidesInOrder_move hI hok (system_move hstep))
      (fun S l S' hI _ hstep => owed_system (hI.2 l.1) (system_move hstep))
      (sidesInOrder_new config) h
    have hzero : ∀ Y, owed ((newSystem config).sess Y) = 0 := fun _ => rfl
    rw [tally_add, hzero, hzero] at hle
    omega

/-- Both sides reset the stream before either STREAM_RESET arrives. -/
def crossedResetsRun : List (Role × Action) :=
  connectRun 0 [] ++
  onSide .agent [.call 0 (.reset 1), .callback 0 .resetCheck, .callback 0 .resetLookup,
    .callback 0 .resetSend] ++
  onSide .relay [.call 0 (.reset 1), .callback 0 .resetCheck, .callback 0 .resetLookup,
    .callback 0 .resetSend] ++
  passRun .agent (frameTwo 0 .streamReset {} [0, 0, 0, 1]) ++ onSide .relay [.reader] ++
  passRun .relay (frameTwo 0 .streamReset {} [0, 0, 0, 1]) ++ onSide .agent [.reader]

theorem resets_not_echoed_crossed :
    ∃ S, exec (guarded System.step EchoFree) (newSystem fourStreams) crossedResetsRun = some S ∧
      tally System.step (onEither fun _ => sendsReset) (newSystem fourStreams)
        crossedResetsRun = 2 ∧
      2 ≤ tally System.step (onEither fun _ => startsReset) (newSystem fourStreams)
          crossedResetsRun +
        tally System.step (onEither rejectsOpen) (newSystem fourStreams) crossedResetsRun := by
  have hrun : (exec (guarded System.step EchoFree) (newSystem fourStreams)
      crossedResetsRun).isSome = true := by decide +kernel
  have hsent : tally System.step (onEither fun _ => sendsReset) (newSystem fourStreams)
      crossedResetsRun = 2 := by decide +kernel
  obtain ⟨S, hS⟩ := Option.isSome_iff_exists.mp hrun
  exact ⟨S, hS, hsent, hsent ▸ (resets_not_echoed fourStreams).2 crossedResetsRun S hS⟩

/-- The agent resets its stream, and the relay's answer goes back to it. -/
def echoedResetRun : List (Role × Action) :=
  connectRun 0 [] ++
  onSide .agent [.call 0 (.reset 1), .callback 0 .resetCheck, .callback 0 .resetLookup,
    .callback 0 .resetSend] ++
  passRun .agent (frameTwo 0 .streamReset {} [0, 0, 0, 1]) ++
  onSide .relay [.reader, .reader, .callback 0 .resetCheck, .callback 0 .resetLookup,
    .callback 0 .resetSend, .reader, .reader] ++
  passRun .relay (frameTwo 0 .streamReset {} [0, 0, 0, 1])

/-- Handling the peer's STREAM_RESET queues one, and one local Reset makes two STREAM_RESETs go
over the wire. -/
theorem reset_echoed :
    (∃ s s', SessionReach .agent ⟨4, 65536, 65536⟩ anyStep s ∧
      s.step (.callback 0 .resetSend) = some s' ∧
      s.reader = .awaitReset 0 (frameTwo 0 .streamReset {} [0, 0, 0, 1]) ∧
      resetCount s.queue = 0 ∧ resetCount s'.queue = 1) ∧
    (exec System.step (newSystem fourStreams) echoedResetRun).isSome = true ∧
      tally System.step (onEither fun _ => startsReset) (newSystem fourStreams)
          echoedResetRun = 1 ∧
        tally System.step (onEither rejectsOpen) (newSystem fourStreams) echoedResetRun = 0 ∧
        tally System.step (onEither fun _ => sendsReset) (newSystem fourStreams)
          echoedResetRun = 2 := by
  refine ⟨?_, by decide +kernel, by decide +kernel, by decide +kernel, by decide +kernel⟩
  exact exists_step_of_exec (openRun ++ [Action.recv (frameTwo 0 .streamReset {} [0, 0, 0, 1]),
    .reader, .reader, .callback 0 .resetCheck, .callback 0 .resetLookup]) _ _ (by decide +kernel)

end Atlax.Analysis
