import Atlax.Analysis.Attribution
import Atlax.Library.Amortized
import Mathlib.Algebra.Order.BigOperators.Group.List
import Mathlib.Algebra.Order.Ring.Nat

/-!
# The work a call causes

Both sessions answer what they receive: a STREAM_OPEN makes a stream and an ACK, a PING makes a
PONG, a STREAM_RESET runs a callback that may send another one. None of this goes on for ever. Every
step that nobody asks for is paid by a call made earlier: with a price for each step and a price for
each frame on the wire, an OpenStream pays for 81 steps and 6 frames (OPEN, ACK, and on each side a
CLOSE and a RESET), a Write for 13 steps and one frame, a Ping for 15 steps and two frames.

The potential is what is left to be paid: of the packets by where they are, of the goroutines by
where they stand, and of every stream that has not ended the price of resetting it.
-/

set_option autoImplicit false

namespace Atlax.Analysis

open Atlax.Model Atlax.Library

variable {p : Packet} {t : Session} {r : Ref}

/-- The price of a step that nobody asks for, and of a frame on the wire. -/
structure Rates where
  step : ℕ
  frame : ℕ

/-- A step that a caller asks for, or the end of a caller's context; the rest of the call is made of
other steps. -/
def isCall : Action → Bool
  | .openStream _ | .opening _ .cancel | .acceptStream | .goAway | .goAwaySend _ | .ping _
  | .sendServiceList _ | .closeSession => true
  | .call _ (.write _) | .call _ (.read _) | .call _ .close | .call _ (.reset _) => true
  | _ => false

/-- The step writes a packet to the wire. -/
def isTransmit : Action → Bool
  | .transmit _ => true
  | _ => false

section

variable (ρ : Rates)

/-- The price of a step. -/
def price (a : Action) : ℕ :=
  (if isCall a then 0 else ρ.step) + (if isTransmit a then ρ.frame else 0)

/-- A packet that is only looked at: the longest handler has six sections. -/
def plainCost : ℕ := 6 * ρ.step

/-- In the queue: dequeue, transmit, the write loop's next test, recv, and the handler. -/
def queuedCost (handling : ℕ) : ℕ := 4 * ρ.step + ρ.frame + handling

/-- SOURCE: mux_session.go:680-714 -/
def resetCost : ResetPc → ℕ
  | .idle | .done => 0
  | .send _ => ρ.step + queuedCost ρ (plainCost ρ)
  | .lookup _ => 2 * ρ.step + queuedCost ρ (plainCost ρ)
  | .check _ => 3 * ρ.step + queuedCost ρ (plainCost ρ)

/-- A stream that has not ended may still be reset. -/
def liveCost (st : StreamState) : ℕ := if st.Terminal then 0 else resetCost ρ (.check 0)

/-- SOURCE: mux_session.go:326-382 -/
def drainCost : DrainPc → ℕ
  | .idle | .done => 0
  | .sendFIN => ρ.step + queuedCost ρ (plainCost ρ)
  | .flush => 2 * ρ.step + queuedCost ρ (plainCost ρ)
  | .awaitFIN => 3 * ρ.step + queuedCost ρ (plainCost ρ)
  | .sawClosed => 4 * ρ.step + queuedCost ρ (plainCost ρ)
  | .select => 5 * ρ.step + queuedCost ρ (plainCost ρ)
  | .enqueue _ flushing =>
    (if flushing then 3 else 6) * ρ.step + 2 * queuedCost ρ (plainCost ρ)

/-- A stream that was accepted, as long as nothing has happened on it. -/
def acceptedCost : ℕ := liveCost ρ .opened + drainCost ρ .select

/-- A peer's STREAM_OPEN: the handler, the stream it makes and the ACK.
SOURCE: mux_session.go:428-460 -/
def openCost : ℕ := 4 * ρ.step + acceptedCost ρ + queuedCost ρ (plainCost ρ)

/-- What the handler of a packet costs, with all that it sets off. -/
def handlingCost (p : Packet) : ℕ :=
  match p.frame.command with
  | .streamOpen => if p.frame.flags.ack then plainCost ρ else openCost ρ
  | .ping => ρ.step + queuedCost ρ (plainCost ρ)
  | _ => plainCost ρ

/-- What a queued packet will cost. -/
def packetCost (p : Packet) : ℕ := queuedCost ρ (handlingCost ρ p)

/-- SOURCE: mux_session.go:408-564, 641-648 -/
def readerCost : ReaderPc → ℕ
  | .idle => 0
  | .frame p => handlingCost ρ p
  | .rejectOpen _ => ρ.step + queuedCost ρ (plainCost ρ)
  | .acceptInsert _ => 3 * ρ.step + acceptedCost ρ + queuedCost ρ (plainCost ρ)
  | .acceptAck _ _ => 2 * ρ.step + queuedCost ρ (plainCost ρ)
  | .ackSend _ | .acceptDeliver _ _ | .delete _ _ | .resetRemove _ _ | .windowUpdate _ _ => ρ.step
  | .checkReset _ _ | .awaitReset _ _ => 2 * ρ.step
  | .checkClosed _ _ | .resetting _ _ => 3 * ρ.step
  | .remoteClose _ _ => 4 * ρ.step
  | .deliver _ _ => 5 * ρ.step

/-- SOURCE: mux_session.go:295-320 -/
def writerCost : WriterPc → ℕ
  | .exited => 0
  | .dequeue => ρ.step
  | .check => 2 * ρ.step
  | .write p => packetCost ρ p

/-- SOURCE: mux_session.go:190-205 -/
def closingCost : ClosingPc → ℕ
  | .running => 4 * ρ.step
  | .queue => 3 * ρ.step
  | .streams => 2 * ρ.step
  | .transport => ρ.step
  | .done => 0

/-- An open under way, with the STREAM_OPEN it has still to send and the goroutine it starts.
SOURCE: mux_session.go:143-171, 651-666 -/
def openingCost : OpenPc → ℕ
  | .accepted | .returned | .failed => 0
  | .resetting _ => ρ.step
  | .remove => 2 * ρ.step
  | .cleanup _ => 3 * ρ.step
  | .wait => 4 * ρ.step
  | .enqueue => 5 * ρ.step + queuedCost ρ (openCost ρ) + drainCost ρ .select
  | .register => 6 * ρ.step + queuedCost ρ (openCost ρ) + drainCost ρ .select

/-- SOURCE: stream_impl.go:170-177, mux_session.go:641-648 -/
def closeCost : ClosePc → ℕ
  | .idle | .done => 0
  | .delete => ρ.step
  | .checkReset => 2 * ρ.step
  | .checkClosed => 3 * ρ.step
  | .fin => 4 * ρ.step

/-- A chunk in `writeOut`: it is taken, queued, sent and delivered. -/
def chunkCost : ℕ := 2 * ρ.step + queuedCost ρ (plainCost ρ)

/-- What a stream will cost. -/
def cellCost (c : Cell) : ℕ :=
  openingCost ρ c.openPc + closeCost ρ c.closePc + resetCost ρ c.resetPc + drainCost ρ c.drainPc +
    liveCost ρ c.stream.state + c.stream.writeOut.length * chunkCost ρ +
    c.writers.length * (ρ.step + chunkCost ρ)

/-- An `OpenStreamWithPayload` call that is past its first test. -/
def callCost : ℕ := ρ.step + openingCost ρ .register + liveCost ρ .opened

/-- What the queue will cost. -/
def queueCost (q : WriteQueue) : ℕ :=
  (q.control.map (packetCost ρ)).sum + (q.data.map (packetCost ρ)).sum

/-- What a session will cost. -/
def sessionCost (s : Session) : ℕ :=
  s.calls.length * callCost ρ + heapSum (cellCost ρ) s.cells s.nextRef + queueCost ρ s.queue +
    writerCost ρ s.writer + readerCost ρ s.reader + closingCost ρ s.closing

/-- What the packets on the wire will cost. -/
def wireCost (l : List Packet) : ℕ := (l.map fun p => ρ.step + handlingCost ρ p).sum

/-- What is left to be paid in both sessions and on the wires. -/
def systemCost (S : System) : ℕ :=
  sessionCost ρ (S.sess .relay) + sessionCost ρ (S.sess .agent) +
    wireCost ρ (S.wire .relay) + wireCost ρ (S.wire .agent)

/-- What a call pays for. -/
def payment : Action → ℕ
  | .openStream _ => callCost ρ
  | .call _ (.write _) => ρ.step + chunkCost ρ
  | .call _ .close => closeCost ρ .fin
  | .ping _ => 5 * ρ.step + ρ.frame + queuedCost ρ (plainCost ρ)
  | .goAwaySend _ | .sendServiceList _ => queuedCost ρ (plainCost ρ)
  | _ => 0

end

/-! ### Packets -/

section

variable {ρ : Rates}

/-- No packet costs less than a plain one. -/
theorem plainCost_le_handlingCost (ρ : Rates) (p : Packet) : plainCost ρ ≤ handlingCost ρ p := by
  unfold handlingCost
  split
  · split
    · exact Nat.le_refl _
    · simp only [openCost, acceptedCost, drainCost, queuedCost]
      omega
  · simp only [queuedCost]
    omega
  · exact Nat.le_refl _

/-- STREAM_OPEN costs most. -/
theorem handlingCost_of_isOpen (h : p.isOpen = true) :
    handlingCost ρ p = openCost ρ := by
  simp only [Packet.isOpen, Bool.and_eq_true, beq_iff_eq, Bool.not_eq_true'] at h
  simp [handlingCost, h.1, h.2]

theorem packetCost_dataPacket (c : Cell) (data : Bytes) :
    packetCost ρ (c.dataPacket data) = queuedCost ρ (plainCost ρ) := rfl

theorem packetCost_closePacket (c : Cell) :
    packetCost ρ c.closePacket = queuedCost ρ (plainCost ρ) := rfl

theorem packetCost_resetPacket (c : Cell) (code : ℕ) :
    packetCost ρ (c.resetPacket code) = queuedCost ρ (plainCost ρ) := rfl

theorem packetCost_ackPacket (c : Cell) : packetCost ρ c.ackPacket = queuedCost ρ (plainCost ρ) :=
  rfl

theorem packetCost_openPacket (c : Cell) : packetCost ρ c.openPacket = queuedCost ρ (openCost ρ) :=
  rfl

theorem packetCost_rejectPacket (p : Packet) :
    packetCost ρ (rejectPacket p) = queuedCost ρ (plainCost ρ) := rfl

/-- An Enqueue adds the price of its packet. -/
theorem queueCost_enqueue_le (q : WriteQueue) (p : Packet) (priority : Priority) :
    queueCost ρ (q.enqueue p priority) ≤ queueCost ρ q + packetCost ρ p := by
  unfold WriteQueue.enqueue
  split
  · omega
  · cases priority <;>
      simp only [queueCost, List.map_append, List.sum_append, List.map_cons, List.map_nil,
        List.sum_cons, List.sum_nil] <;>
      omega

/-- A Dequeue takes it off. -/
theorem queueCost_dequeue {q q' : WriteQueue} (h : q.dequeue = some (p, q')) :
    queueCost ρ q = packetCost ρ p + queueCost ρ q' := by
  rcases WriteQueue.dequeue_eq_some h with hq | ⟨-, hq⟩
  · rw [hq]
    simp only [queueCost, List.map_cons, List.sum_cons]
    omega
  · rw [hq]
    simp only [queueCost, List.map_cons, List.sum_cons]
    omega

/-! ### Cells -/

/-- A reset is paid by the stream that it ends. -/
theorem cellCost_reset_le (c : Cell) (code : ℕ) (byFrame : Bool) :
    cellCost ρ (c.reset code byFrame) ≤ cellCost ρ c := by
  unfold Cell.reset StreamSession.reset
  by_cases hst : c.stream.state = .reset ∨ c.stream.state = .closed
  · simp only [hst, if_true, cellCost, Bool.false_eq_true, if_false]
    exact Nat.le_refl _
  · have hlive : liveCost ρ c.stream.state = resetCost ρ (.check 0) :=
      if_neg fun ht => hst ht.symm
    simp only [hst, if_false, cellCost, hlive]
    have hended : liveCost ρ .reset = 0 := rfl
    cases c.stream.resetOnce <;> simp only [Bool.not_true, Bool.not_false, if_true, hended,
      Bool.false_eq_true, if_false, resetCost] <;> omega

/-- Close adds the price of its FIN. -/
theorem cellCost_close_le (c : Cell) : cellCost ρ c.close ≤ cellCost ρ c + closeCost ρ .fin := by
  unfold Cell.close StreamSession.close
  cases hst : c.stream.state <;> cases c.stream.localCloseOnce <;>
    simp only [cellCost, hst, liveCost, StreamState.Terminal, Bool.not_true, Bool.not_false,
      if_true, if_false, Bool.false_eq_true, reduceCtorEq, or_self, or_true, true_or] <;>
    omega

theorem cellCost_remoteClose_le (c : Cell) :
    cellCost ρ { c with stream := c.stream.remoteClose } ≤ cellCost ρ c := by
  unfold StreamSession.remoteClose
  cases hst : c.stream.state <;>
    simp only [cellCost, hst, liveCost, StreamState.Terminal, if_true, if_false, reduceCtorEq,
      or_self, or_true, true_or] <;>
    omega

/-- The calls on a stream pay for themselves. -/
theorem cellCost_call {c c' : Cell} {k : Call} (r : Ref) (h : CellCall c k c') :
    cellCost ρ c' + price ρ (.call r k) ≤ cellCost ρ c + payment ρ (.call r k) := by
  cases h with
  | writeRefused | readEof => simp [price, payment, isCall, isTransmit]
  | readBytes => simp [price, payment, isCall, isTransmit, cellCost]
  | write data =>
    simp only [price, payment, isCall, isTransmit, cellCost, List.length_append, List.length_cons,
      List.length_nil, Nat.add_mul, if_true, Bool.false_eq_true, if_false]
    omega
  | writeSend data hmem | writeFail data hmem =>
    have hlen := List.length_erase_of_mem hmem
    have hpos := List.length_pos_of_mem hmem
    obtain ⟨n, hn⟩ : ∃ n, c.writers.length = n + 1 := ⟨c.writers.length - 1, by omega⟩
    simp only [price, payment, isCall, isTransmit, cellCost, List.length_append, List.length_cons,
      List.length_nil, Nat.add_mul, Bool.false_eq_true, if_false, hlen, hn, Nat.add_sub_cancel]
    omega
  | close =>
    have hle : cellCost ρ c.close ≤ cellCost ρ c + closeCost ρ .fin := cellCost_close_le c
    simpa [price, payment, isCall, isTransmit] using hle
  | reset code =>
    have hle : cellCost ρ (c.reset code false) ≤ cellCost ρ c := cellCost_reset_le c code false
    simpa [price, payment, isCall, isTransmit] using hle

/-- The drain goroutine pays for the packet it queues. -/
theorem cellCost_drain {c c' : Cell} {closed : Bool} {p : Option Packet}
    (h : CellDrain c closed c' p) :
    cellCost ρ c' + (p.map (packetCost ρ)).getD 0 + ρ.step ≤ cellCost ρ c := by
  cases h with
  | take data rest flushing hpc hout =>
    cases flushing <;>
      simp only [cellCost, hpc, hout, drainCost, chunkCost, List.length_cons, Nat.add_mul,
        Option.map_none, Option.getD_none, if_true, Bool.false_eq_true, if_false] <;>
      omega
  | takeFIN hpc | exit hpc =>
    rcases hpc with hpc | hpc <;>
      simp only [cellCost, hpc, drainCost, Option.map_none, Option.getD_none] <;> omega
  | sawClosed hpc | stateReset hpc | stateClosed hpc | flushed hpc =>
    simp only [cellCost, hpc, drainCost, Option.map_none, Option.getD_none]
    omega
  | enqueue data flushing hpc =>
    cases flushing <;>
      simp only [cellCost, hpc, drainCost, Option.map_some, Option.getD_some, packetCost_dataPacket,
        if_true, Bool.false_eq_true, if_false] <;>
      omega
  | sendFIN hpc =>
    simp only [cellCost, hpc, drainCost, Option.map_some, Option.getD_some, packetCost_closePacket]
    omega

/-! ### One session -/

variable {s s' : Session} {a : Action} {pc : ReaderPc} {c : Cell}

/-- A session pays for what a cell changes. -/
theorem sessionCost_setCell (ρ : Rates) (hr : r < s.nextRef) (c : Cell) :
    sessionCost ρ (s.setCell r c) + cellCost ρ (s.cells r) = sessionCost ρ s + cellCost ρ c := by
  have hheap : heapSum (cellCost ρ) (Function.update s.cells r c) s.nextRef +
      cellCost ρ (s.cells r) = heapSum (cellCost ρ) s.cells s.nextRef + cellCost ρ c :=
    heapSum_update hr
  simp only [sessionCost, Session.setCell]
  omega

theorem sessionCost_setCell_le (h : cellCost ρ c ≤ cellCost ρ (s.cells r)) :
    sessionCost ρ (s.setCell r c) ≤ sessionCost ρ s := by
  have hheap : heapSum (cellCost ρ) (Function.update s.cells r c) s.nextRef ≤
      heapSum (cellCost ρ) s.cells s.nextRef := heapSum_update_le h
  simp only [sessionCost, Session.setCell]
  omega

/-- A new stream is paid for. -/
theorem sessionCost_addCell (s : Session) (c : Cell) :
    sessionCost ρ (s.addCell c) = sessionCost ρ s + cellCost ρ c := by
  simp only [sessionCost, Session.addCell, heapSum_add]
  omega

theorem sessionCost_enqueue_le (ρ : Rates) (s : Session) (p : Packet) (priority : Priority) :
    sessionCost ρ (s.enqueue p priority) ≤ sessionCost ρ s + packetCost ρ p := by
  have hq : queueCost ρ (s.queue.enqueue p priority) ≤ queueCost ρ s.queue + packetCost ρ p :=
    queueCost_enqueue_le s.queue p priority
  simp only [sessionCost, Session.enqueue, Session.setQueue]
  omega

theorem sessionCost_setReader (ρ : Rates) (s : Session) (pc : ReaderPc) :
    sessionCost ρ (s.setReader pc) + readerCost ρ s.reader = sessionCost ρ s + readerCost ρ pc := by
  simp only [sessionCost, Session.setReader]
  omega

theorem sessionCost_setWriter (ρ : Rates) (s : Session) (pc : WriterPc) :
    sessionCost ρ (s.setWriter pc) + writerCost ρ s.writer = sessionCost ρ s + writerCost ρ pc := by
  simp only [sessionCost, Session.setWriter]
  omega

theorem sessionCost_setClosing (ρ : Rates) (s : Session) (pc : ClosingPc) :
    sessionCost ρ (s.setClosing pc) + closingCost ρ s.closing =
      sessionCost ρ s + closingCost ρ pc := by
  simp only [sessionCost, Session.setClosing]
  omega

theorem sessionCost_setCalls (ρ : Rates) (s : Session) (calls : List Bytes) :
    sessionCost ρ (s.setCalls calls) + s.calls.length * callCost ρ =
      sessionCost ρ s + calls.length * callCost ρ := by
  simp only [sessionCost, Session.setCalls]
  omega

theorem sessionCost_setTable (s : Session) (t : StreamTable) :
    sessionCost ρ (s.setTable t) = sessionCost ρ s := rfl

theorem sessionCost_setAcceptCh (s : Session) (ch : List Ref) :
    sessionCost ρ (s.setAcceptCh ch) = sessionCost ρ s := rfl

/-- Resetting the streams costs nothing more. -/
theorem sessionCost_resetStreams_le (ρ : Rates) (s : Session) :
    sessionCost ρ s.resetStreams ≤ sessionCost ρ s := by
  have hheap : heapSum (cellCost ρ) s.resetStreams.cells s.nextRef ≤
      heapSum (cellCost ρ) s.cells s.nextRef := by
    refine heapSum_mono fun r => ?_
    rw [Session.resetStreams_cells]
    split
    · exact cellCost_reset_le _ 0 false
    · exact Nat.le_refl _
  simp only [sessionCost, Session.resetStreams_calls, Session.resetStreams_nextRef,
    Session.resetStreams_queue, Session.resetStreams_writer, Session.resetStreams_reader,
    Session.resetStreams_closing]
  omega

/-- A section of the read loop that answers with a packet. -/
theorem sessionCost_answer {priority : Priority} (pc : ReaderPc)
    (hpc : packetCost ρ p + readerCost ρ pc + ρ.step ≤ readerCost ρ s.reader) :
    sessionCost ρ ((s.enqueue p priority).setReader pc) + ρ.step ≤ sessionCost ρ s := by
  have hq := sessionCost_enqueue_le ρ s p priority
  have hset : sessionCost ρ ((s.enqueue p priority).setReader pc) + readerCost ρ s.reader =
      sessionCost ρ (s.enqueue p priority) + readerCost ρ pc := sessionCost_setReader ρ _ pc
  omega

/-- The handler of a packet ends, or goes on in a section that costs less. -/
theorem sessionCost_handled (h : t.reader = .frame p)
    (hpc : readerCost ρ pc + ρ.step ≤ handlingCost ρ p) :
    sessionCost ρ (t.setReader pc) + ρ.step ≤ sessionCost ρ t := by
  have hset := sessionCost_setReader ρ t pc
  have hframe : readerCost ρ (.frame p) = handlingCost ρ p := rfl
  rw [h, hframe] at hset
  omega

/-- A section of at most five follows: every packet pays for that. -/
theorem sessionCost_handled_short (h : t.reader = .frame p) (hpc : readerCost ρ pc ≤ 5 * ρ.step) :
    sessionCost ρ (t.setReader pc) + ρ.step ≤ sessionCost ρ t := by
  have hplain := plainCost_le_handlingCost ρ p
  refine sessionCost_handled h ?_
  simp only [plainCost] at hplain
  omega

/-- A frame's handler is paid for by the frame.
SOURCE: mux_session.go:462-564 -/
theorem sessionCost_lookupStream {found : Ref → ReaderPc} (h : s.reader = .frame p)
    (hf : ∀ r, readerCost ρ (found r) ≤ 5 * ρ.step) :
    sessionCost ρ (s.lookupStream p found) + ρ.step ≤ sessionCost ρ s := by
  unfold Session.lookupStream
  split
  · exact sessionCost_handled_short h (hf _)
  · exact sessionCost_handled_short h (Nat.zero_le _)

/-- A peer's STREAM_OPEN pays for the stream it makes and for the ACK, or for its refusal. -/
theorem sessionCost_acceptPeerOpen (h : s.reader = .frame p) (hp : p.isOpen = true) :
    sessionCost ρ (s.acceptPeerOpen p) + ρ.step ≤ sessionCost ρ s := by
  unfold Session.acceptPeerOpen
  split
  · exact sessionCost_handled_short h (Nat.zero_le _)
  · split <;>
      refine sessionCost_handled h ?_ <;>
      simp only [handlingCost_of_isOpen hp, openCost, readerCost] <;>
      omega

/-- The first section of a handler. -/
theorem handleFrame_cost (h : s.reader = .frame p) :
    sessionCost ρ (s.handleFrame p) + ρ.step ≤ sessionCost ρ s := by
  unfold Session.handleFrame
  split
  · next hc =>
    split
    · unfold Session.handleAck
      split
      · exact sessionCost_handled_short (t := s.setPendingOpen _) h (by simp [readerCost]; omega)
      · exact sessionCost_handled_short h (Nat.zero_le _)
    · next hack => exact sessionCost_acceptPeerOpen h (by simp [Packet.isOpen, hc, hack])
  · refine sessionCost_lookupStream h fun r => ?_
    unfold Session.afterDeliver
    split
    · split <;> simp only [readerCost] <;> omega
    · simp [readerCost]
  · refine sessionCost_lookupStream h fun r => ?_
    simp only [readerCost]
    omega
  · refine sessionCost_lookupStream h fun r => ?_
    simp only [readerCost]
    omega
  · next hc =>
    -- the PONG is paid by the PING
    have hpong : packetCost ρ (connPacket .pong p.frame.payload) = queuedCost ρ (plainCost ρ) := rfl
    refine sessionCost_answer .idle ?_
    rw [h, hpong]
    simp [readerCost, handlingCost, hc]
    omega
  · exact sessionCost_handled_short (t := { s with pingCh := s.pingCh.map fun _ => true }) h
      (Nat.zero_le _)
  · unfold Session.handleWindowUpdate
    split
    · exact sessionCost_handled_short h (Nat.zero_le _)
    · split
      · exact sessionCost_handled_short (t := { s with connSendWindow := _ }) h (Nat.zero_le _)
      · refine sessionCost_lookupStream h fun r => ?_
        simp only [readerCost]
        omega
  · exact sessionCost_handled_short (t := { s with goingAway := true }) h (Nat.zero_le _)
  · exact sessionCost_handled_short (t := { s with serviceListCh := _ }) h (Nat.zero_le _)
  · exact sessionCost_handled_short h (Nat.zero_le _)

/-- What a step puts on the wire, and what it takes from the peer's. -/
def sentCost (ρ : Rates) : Action → ℕ
  | .transmit p => ρ.step + handlingCost ρ p
  | _ => 0

/-- What a received packet brings. -/
def receivedCost (ρ : Rates) : Action → ℕ
  | .recv p => ρ.step + handlingCost ρ p
  | _ => 0

/-- A step of the session's own, other than reading and writing the wire. -/
theorem price_own {a : Action} (hc : isCall a = false) (ht : isTransmit a = false) :
    price ρ a = ρ.step := by
  simp [price, hc, ht]

/-- A section of a goroutine that belongs to one stream. -/
theorem sessionCost_cell (hr : r < s.nextRef)
    (hc : cellCost ρ c + ρ.step ≤ cellCost ρ (s.cells r))
    (ht : sessionCost ρ t = sessionCost ρ (s.setCell r c)) :
    sessionCost ρ t + ρ.step ≤ sessionCost ρ s := by
  have hset := sessionCost_setCell ρ hr c
  omega

/-- The same, with a packet that goes into the queue. -/
theorem sessionCost_cellSend {priority : Priority}
    (hr : r < s.nextRef) (hc : cellCost ρ c + packetCost ρ p + ρ.step ≤ cellCost ρ (s.cells r)) :
    sessionCost ρ ((s.setCell r c).enqueue p priority) + ρ.step ≤ sessionCost ρ s := by
  have hset := sessionCost_setCell ρ hr c
  have hq := sessionCost_enqueue_le ρ (s.setCell r c) p priority
  omega

/-- A section of the read loop after the first; it may lower the cell it works on. -/
theorem sessionCost_reader (hpc : readerCost ρ pc + ρ.step ≤ readerCost ρ s.reader)
    (ht : sessionCost ρ t ≤ sessionCost ρ s) (hrd : t.reader = s.reader) :
    sessionCost ρ (t.setReader pc) + ρ.step ≤ sessionCost ρ s := by
  have hset := sessionCost_setReader ρ t pc
  rw [hrd] at hset
  omega

/-- The sections of an open after its stream exists. -/
theorem opening_cost {o : Opening} (hm : Move s (.opening r o) s') :
    sessionCost ρ s' + price ρ (.opening r o) ≤ sessionCost ρ s := by
  cases hm with
  | register _ hr hpc | openAck _ hr hpc | openClosed _ hr hpc | openRemove _ hr hpc
  | openRemoveNone _ hr hpc =>
    rw [price_own rfl rfl]
    refine sessionCost_cell hr ?_ rfl
    simp only [cellCost, openingCost, hpc]
    omega
  | sendOpen _ hr hpc =>
    rw [price_own rfl rfl]
    refine sessionCost_cellSend hr ?_
    simp only [cellCost, openingCost, hpc, packetCost_openPacket]
    omega
  | openCancel _ hr hpc =>
    rw [show price ρ (.opening r .cancel) = 0 from rfl]
    refine sessionCost_setCell_le ?_
    simp only [cellCost, openingCost, hpc]
    omega
  | openCleanup _ hr cancelled hpc =>
    rw [price_own rfl rfl]
    refine sessionCost_cell hr ?_ rfl
    cases cancelled <;>
      simp only [cellCost, openingCost, hpc, if_true, Bool.false_eq_true, if_false] <;> omega
  | openReset _ hr found hpc =>
    rw [price_own rfl rfl]
    have hfailed : sessionCost ρ (s.setCell r { s.cells r with openPc := .failed }) + ρ.step ≤
        sessionCost ρ s := by
      refine sessionCost_cell hr ?_ rfl
      simp only [cellCost, openingCost, hpc]
      omega
    have hreset : sessionCost ρ ((s.setCell r { s.cells r with openPc := .failed }).setCell found
        (((s.setCell r { s.cells r with openPc := .failed }).cells found).reset 0 false)) ≤
        sessionCost ρ (s.setCell r { s.cells r with openPc := .failed }) :=
      sessionCost_setCell_le (cellCost_reset_le _ 0 false)
    omega

/-- The sections that Close and Reset leave behind. -/
theorem callback_cost {k : Callback} (hm : Move s (.callback r k) s') :
    sessionCost ρ s' + price ρ (.callback r k) ≤ sessionCost ρ s := by
  rw [price_own rfl rfl]
  cases hm with
  | closeFin _ hr hpc | closeDelete _ hr hpc =>
    refine sessionCost_cell hr ?_ rfl
    simp only [cellCost, closeCost, hpc]
    omega
  | closeCheckClosed _ hr hpc | closeCheckReset _ hr hpc =>
    refine sessionCost_cell hr ?_ rfl
    simp only [cellCost]
    rw [hpc]
    split <;> simp only [closeCost] <;> omega
  | resetCheck _ hr code hpc | resetLookup _ hr code hpc =>
    refine sessionCost_cell hr ?_ rfl
    simp only [cellCost]
    rw [hpc]
    split <;> simp only [resetCost] <;> omega
  | resetSend _ hr code hpc =>
    refine sessionCost_cellSend hr ?_
    simp only [cellCost, resetCost, hpc, packetCost_resetPacket]
    omega

/-- The sections of a handler after the first. -/
theorem reader_cost (hm : Move s .reader s') (hrd : ∀ p, s.reader ≠ .frame p) :
    sessionCost ρ s' + ρ.step ≤ sessionCost ρ s := by
  cases hm with
  | handleNothing p h | handleAck p h | handleOpenOwn p h | handleOpen p h | handleData p h
  | handleDataFin p h | handleClose p h | handleReset p h | handleMiss p h | handleOpenActive p h
  | handleWindow p h | handlePing p h => exact absurd h (hrd p)
  | ackSend r h =>
    refine sessionCost_reader (by simp [h, readerCost]) (sessionCost_setCell_le ?_) rfl
    simp [cellCost]
  | rejectOpen p h =>
    refine sessionCost_answer .idle ?_
    rw [h, packetCost_rejectPacket]
    simp only [readerCost]
    omega
  | acceptInsert p h =>
    rw [sessionCost_addCell]
    have hset : sessionCost ρ ((s.setTable (s.table.insert p.frame.streamID s.nextRef)).setReader
        (.acceptAck s.nextRef p)) + readerCost ρ s.reader =
        sessionCost ρ s + readerCost ρ (.acceptAck s.nextRef p) := sessionCost_setReader ρ _ _
    have hnew : cellCost ρ (s.acceptedCell p) = acceptedCost ρ := by
      unfold Session.acceptedCell
      dsimp only
      split <;> simp [cellCost, acceptedCost, openingCost, closeCost, resetCost,
        StreamSession.opened, StreamSession.setOpenPayload, newStreamSession, Nat.add_comm]
    rw [h] at hset
    simp only [readerCost] at hset
    omega
  | acceptAck r p h =>
    refine sessionCost_answer _ ?_
    rw [h, packetCost_ackPacket]
    simp only [readerCost]
    omega
  | acceptDeliver r p h =>
    rw [sessionCost_setAcceptCh]
    exact sessionCost_reader (by simp [h, readerCost]) (Nat.le_refl _) rfl
  | deliver r p h =>
    refine sessionCost_reader ?_ (sessionCost_setCell_le ?_) rfl
    · rw [h]
      unfold Session.afterDeliver
      split <;> simp only [readerCost] <;> omega
    · exact Nat.le_refl _
  | remoteClose r p h =>
    refine sessionCost_reader ?_ (sessionCost_setCell_le (cellCost_remoteClose_le _)) rfl
    rw [h]
    simp only [readerCost]
    omega
  | checkClosed r p h | checkReset r p h =>
    refine sessionCost_reader ?_ (Nat.le_refl _) rfl
    rw [h]
    split <;> simp only [readerCost] <;> omega
  | delete r p h | resetRemove r p h =>
    exact sessionCost_reader (by simp [h, readerCost]) (Nat.le_refl _) rfl
  | resetting r p h =>
    refine sessionCost_reader ?_ (sessionCost_setCell_le (cellCost_reset_le _ _ true)) rfl
    rw [h]
    split <;> simp only [readerCost] <;> omega
  | awaitReset r p h =>
    refine sessionCost_reader ?_ (Nat.le_refl _) rfl
    rw [h]
    simp only [readerCost]
    omega
  | windowUpdate r p h =>
    refine sessionCost_reader (by simp [h, readerCost]) (sessionCost_setCell_le ?_) rfl
    exact Nat.le_refl _

/-- A section of Close; it may lower the cells. -/
theorem sessionCost_closing {pc : ClosingPc}
    (hpc : closingCost ρ pc + ρ.step ≤ closingCost ρ s.closing)
    (ht : sessionCost ρ t ≤ sessionCost ρ s) (hcl : t.closing = s.closing) :
    sessionCost ρ (t.setClosing pc) + ρ.step ≤ sessionCost ρ s := by
  have hset := sessionCost_setClosing ρ t pc
  rw [hcl] at hset
  omega

/-- A section of Close pays for itself.
SOURCE: mux_session.go:189-205 -/
theorem closing_cost (hm : Move s .closing s') : sessionCost ρ s' + ρ.step ≤ sessionCost ρ s := by
  cases hm with
  | closingQueue h =>
    refine sessionCost_closing (t := s.setQueue s.queue.close) ?_ (Nat.le_refl _) rfl
    rw [h]
    simp only [closingCost]
    omega
  | closingStreams h =>
    refine sessionCost_closing ?_ (sessionCost_resetStreams_le ρ s) (by simp)
    rw [h]
    simp only [closingCost]
    omega
  | closingTransport h =>
    refine sessionCost_closing ?_ (Nat.le_refl _) rfl
    simp [h, closingCost]

/-- The call leaves the list of those that have not made their stream. -/
theorem sessionCost_callTaken (ρ : Rates) {payload : Bytes} (hmem : payload ∈ s.calls) :
    sessionCost ρ (s.setCalls (s.calls.erase payload)) + callCost ρ = sessionCost ρ s := by
  have hlen := List.length_erase_of_mem hmem
  have hpos := List.length_pos_of_mem hmem
  obtain ⟨n, hn⟩ : ∃ n, s.calls.length = n + 1 := ⟨s.calls.length - 1, by omega⟩
  have hset := sessionCost_setCalls ρ s (s.calls.erase payload)
  rw [hlen, hn, Nat.add_sub_cancel, Nat.add_mul] at hset
  omega

/-- The m.mu section of an open: the call pays for its stream. -/
theorem openAlloc_cost {payload : Bytes} (hm : Move s (.openAlloc payload) s') :
    sessionCost ρ s' + ρ.step ≤ sessionCost ρ s := by
  cases hm with
  | openFull _ hmem =>
    have htaken := sessionCost_callTaken ρ hmem
    simp only [callCost] at htaken
    omega
  | openAlloc _ hmem =>
    rw [sessionCost_addCell, sessionCost_setTable]
    have htaken := sessionCost_callTaken ρ hmem
    have hnew : cellCost ρ (s.openedCell payload) + ρ.step = callCost ρ := by
      simp [cellCost, callCost, Session.openedCell, closeCost, resetCost, drainCost,
        newStreamSession, StreamSession.opened]
      omega
    omega

/-- SOURCE: mux_session.go:326-382 -/
theorem drain_cost {d : Drain} (hm : Move s (.drain r d) s') :
    sessionCost ρ s' + ρ.step ≤ sessionCost ρ s := by
  cases hm with
  | drain _ hr _ c hc =>
    have hle : cellCost ρ c + (none.map (packetCost ρ)).getD 0 + ρ.step ≤ cellCost ρ (s.cells r) :=
      cellCost_drain hc
    rw [Option.map_none, Option.getD_none, Nat.add_zero] at hle
    exact sessionCost_cell hr hle rfl
  | drainSend _ hr _ c p hc =>
    have hle : cellCost ρ c + ((some p).map (packetCost ρ)).getD 0 + ρ.step ≤
        cellCost ρ (s.cells r) := cellCost_drain hc
    rw [Option.map_some, Option.getD_some] at hle
    exact sessionCost_cellSend hr hle

/-- The write loop moves on; what it takes from the queue it holds. -/
theorem sessionCost_writer {pc : WriterPc}
    (hpc : writerCost ρ pc + ρ.step + sessionCost ρ t ≤ writerCost ρ s.writer + sessionCost ρ s)
    (ht : t.writer = s.writer) : sessionCost ρ (t.setWriter pc) + ρ.step ≤ sessionCost ρ s := by
  have hset := sessionCost_setWriter ρ t pc
  rw [ht] at hset
  omega

/-- SOURCE: mux_session.go:294-320 -/
theorem writerCheck_cost (hm : Move s .writerCheck s') :
    sessionCost ρ s' + ρ.step ≤ sessionCost ρ s := by
  cases hm with
  | writerCheck hw =>
    refine sessionCost_writer ?_ rfl
    rw [hw]
    split <;> simp only [writerCost] <;> omega

/-- SOURCE: write_queue.go:55-88 -/
theorem dequeue_cost (hm : Move s .dequeue s') : sessionCost ρ s' + ρ.step ≤ sessionCost ρ s := by
  cases hm with
  | dequeue hw p q hq =>
    refine sessionCost_writer ?_ rfl
    rw [hw]
    have hcost : queueCost ρ s.queue = packetCost ρ p + queueCost ρ q := queueCost_dequeue hq
    simp only [sessionCost, Session.setQueue, writerCost]
    omega
  | dequeueExit hw =>
    refine sessionCost_writer ?_ rfl
    rw [hw]
    simp only [writerCost]
    omega

/-- Sending hands the price over to the peer. -/
theorem transmit_cost (hm : Move s (.transmit p) s') :
    sessionCost ρ s' + price ρ (.transmit p) + sentCost ρ (.transmit p) ≤ sessionCost ρ s := by
  cases hm with
  | transmit _ hw =>
    have hset := sessionCost_setWriter ρ s .check
    rw [hw] at hset
    simp only [writerCost, packetCost, queuedCost] at hset
    simp only [price, isCall, isTransmit, sentCost, if_true, Bool.false_eq_true, if_false]
    omega

/-- A write that fails starts Close, if nobody has. -/
theorem transmitFail_cost (hm : Move s .transmitFail s') :
    sessionCost ρ s' + ρ.step ≤ sessionCost ρ s := by
  cases hm with
  | transmitFail p hw pc _ hcl =>
    have hexit : sessionCost ρ (s.setWriter .exited) + ρ.step ≤ sessionCost ρ s := by
      refine sessionCost_writer ?_ rfl
      rw [hw]
      simp only [writerCost, packetCost, queuedCost]
      omega
    have hset : sessionCost ρ ((s.setWriter .exited).setClosing pc) + closingCost ρ s.closing =
        sessionCost ρ (s.setWriter .exited) + closingCost ρ pc := sessionCost_setClosing ρ _ pc
    have hpc : closingCost ρ pc ≤ closingCost ρ s.closing := by
      rcases hcl with ⟨rfl, hrun⟩ | rfl
      · rw [hrun]
        simp only [closingCost]
        omega
      · exact Nat.le_refl _
    omega

/-- Ping pays for its frame and for the PONG. -/
theorem ping_cost {data : Bytes} (hm : Move s (.ping data) s') :
    sessionCost ρ s' ≤ sessionCost ρ s + payment ρ (.ping data) := by
  cases hm
  have hq : sessionCost ρ ((setConn s s.goingAway (some false) s.connSendWindow
      s.serviceListCh).enqueue (connPacket .ping data) .control) ≤
      sessionCost ρ s + packetCost ρ (connPacket .ping data) :=
    sessionCost_enqueue_le ρ (setConn s s.goingAway (some false) s.connSendWindow s.serviceListCh)
      (connPacket .ping data) .control
  have hping : packetCost ρ (connPacket .ping data) = payment ρ (.ping data) := by
    simp only [packetCost, queuedCost, handlingCost, connPacket, payment]
    omega
  omega

/-- Calling Close costs nothing yet. -/
theorem closeSession_cost (hm : Move s .closeSession s') : sessionCost ρ s' ≤ sessionCost ρ s := by
  cases hm with
  | closeSession hrun =>
    have hset := sessionCost_setClosing ρ s .queue
    rw [hrun] at hset
    simp only [closingCost] at hset
    omega

/-- Every step is paid by what the session holds, by the call that it is, or by the packet that it
reads; what it writes is paid as well. -/
theorem step_cost (h : s.step a = some s') :
    sessionCost ρ s' + price ρ a + sentCost ρ a ≤
      sessionCost ρ s + payment ρ a + receivedCost ρ a := by
  have hm := step_move h
  -- a step that neither is a call nor touches the wires
  have own (hle : sessionCost ρ s' + ρ.step ≤ sessionCost ρ s) (hc : isCall a = false)
      (ht : isTransmit a = false) : sessionCost ρ s' + price ρ a + sentCost ρ a ≤
      sessionCost ρ s + payment ρ a + receivedCost ρ a := by
    have hsent : sentCost ρ a = 0 := by cases a <;> first | rfl | cases ht
    rw [price_own hc ht, hsent]
    omega
  have call (hle : sessionCost ρ s' ≤ sessionCost ρ s + payment ρ a) (hp : price ρ a = 0)
      (hs : sentCost ρ a = 0) : sessionCost ρ s' + price ρ a + sentCost ρ a ≤
      sessionCost ρ s + payment ρ a + receivedCost ρ a := by
    omega
  cases a with
  | openStream payload =>
    cases hm
    have hset := sessionCost_setCalls ρ s (payload :: s.calls)
    simp only [List.length_cons, Nat.add_mul] at hset
    refine call ?_ rfl rfl
    simp only [payment]
    omega
  | openAlloc payload => exact own (openAlloc_cost hm) rfl rfl
  | opening r o => simpa [sentCost, receivedCost, payment] using opening_cost hm
  | acceptStream =>
    cases hm with
    | acceptStream r rest =>
      have hle : sessionCost ρ (s.setCell r { s.cells r with handle := true }) ≤ sessionCost ρ s :=
        sessionCost_setCell_le (Nat.le_refl _)
      exact call hle rfl rfl
  | call r k =>
    cases hm with
    | call _ hr hh _ c hc =>
      have hset := sessionCost_setCell ρ hr c
      have hcall : cellCost ρ c + price ρ (.call r k) ≤
          cellCost ρ (s.cells r) + payment ρ (.call r k) := cellCost_call r hc
      simp only [sentCost, receivedCost]
      omega
  | callback r k => simpa [sentCost, receivedCost, payment] using callback_cost hm
  | drain r d => exact own (drain_cost hm) rfl rfl
  | writerCheck => exact own (writerCheck_cost hm) rfl rfl
  | dequeue => exact own (dequeue_cost hm) rfl rfl
  | transmit p => simpa [receivedCost, payment] using transmit_cost hm
  | transmitFail => exact own (transmitFail_cost hm) rfl rfl
  | recv p =>
    cases hm with
    | recv _ hrd =>
      have hset : sessionCost ρ (s.setReader (.frame p)) + readerCost ρ s.reader =
          sessionCost ρ s + handlingCost ρ p := sessionCost_setReader ρ s (.frame p)
      simp only [price, isCall, isTransmit, sentCost, receivedCost, payment, Bool.false_eq_true,
        if_false]
      omega
  | reader =>
    refine own ?_ rfl rfl
    by_cases hrd : ∃ p, s.reader = .frame p
    · obtain ⟨p, hp⟩ := hrd
      have hs' : s' = s.handleFrame p := by
        simpa [Session.step, Session.readerStep, hp] using h.symm
      rw [hs']
      exact handleFrame_cost hp
    · exact reader_cost hm fun p hp => hrd ⟨p, hp⟩
  | readerClosed =>
    cases hm with
    | readerClosed r p hrd =>
      exact own (sessionCost_reader (by simp [hrd, readerCost]) (Nat.le_refl _) rfl) rfl rfl
  | goAway =>
    cases hm
    exact call (Nat.le_refl _) rfl rfl
  | goAwaySend code =>
    cases hm with
    | goAwaySend _ payload =>
      exact call (sessionCost_enqueue_le ρ s (connPacket .goAway payload) .control) rfl rfl
  | ping data => exact call (ping_cost hm) rfl rfl
  | sendServiceList services =>
    cases hm with
    | sendServiceList _ payload =>
      exact call (sessionCost_enqueue_le ρ s (connPacket .serviceList payload) .control) rfl rfl
  | closeSession => exact call (closeSession_cost hm) rfl rfl
  | closing => exact own (closing_cost hm) rfl rfl

/-! ### Both sessions -/

variable {S S' : System} {X : Role}

/-- The cost of both sides and both wires. -/
theorem systemCost_eq (S : System) (X : Role) :
    systemCost ρ S = sessionCost ρ (S.sess X) + sessionCost ρ (S.sess X.peer) +
      wireCost ρ (S.wire X) + wireCost ρ (S.wire X.peer) := by
  cases X
  · rfl
  · simp only [systemCost, Role.peer]
    omega

/-- What a step does to the wires is what it sends and receives. -/
theorem wireStep_cost {w : Role → List Packet} {a : Action} (h : S.wireStep X a = some w) :
    wireCost ρ (w X) + wireCost ρ (w X.peer) + receivedCost ρ a =
      wireCost ρ (S.wire X) + wireCost ρ (S.wire X.peer) + sentCost ρ a := by
  unfold System.wireStep at h
  split at h
  · next p =>
    split at h
    · next p' rest hwire =>
      rw [Option.ite_none_right_eq_some, Option.some.injEq] at h
      obtain ⟨rfl, rfl⟩ := h
      rw [Function.update_of_ne (Role.peer_ne X).symm, Function.update_self, hwire]
      simp only [wireCost, List.map_cons, List.sum_cons, receivedCost, sentCost]
      omega
    · cases h
  · next p =>
    cases h
    rw [Function.update_of_ne (Role.peer_ne X), Function.update_self]
    simp only [wireCost, List.map_append, List.sum_append, List.map_cons, List.map_nil,
      List.sum_cons, List.sum_nil, receivedCost, sentCost]
    omega
  · next hrecv htransmit =>
    cases h
    have hr : receivedCost ρ a = 0 := by
      cases a <;> first | rfl | exact absurd rfl (hrecv _)
    have ht : sentCost ρ a = 0 := by
      cases a <;> first | rfl | exact absurd rfl (htransmit _)
    omega

/-- Only calls bring new work. -/
theorem system_cost {e : Role × Action} (h : S.step e = some S') :
    systemCost ρ S' + price ρ e.2 ≤ systemCost ρ S + payment ρ e.2 := by
  obtain ⟨X, a⟩ := e
  unfold System.step at h
  dsimp only at h
  split at h
  · next s w hs hw =>
    cases h
    have hstep : sessionCost ρ s + price ρ a + sentCost ρ a ≤
        sessionCost ρ (S.sess X) + payment ρ a + receivedCost ρ a := step_cost hs
    have hwire : wireCost ρ (w X) + wireCost ρ (w X.peer) + receivedCost ρ a =
        wireCost ρ (S.wire X) + wireCost ρ (S.wire X.peer) + sentCost ρ a := wireStep_cost hw
    rw [systemCost_eq _ X, systemCost_eq S X]
    simp only [Function.update_self, Function.update_of_ne (Role.peer_ne X)]
    omega
  · cases h

/-- The work of a run is covered by the calls it makes. -/
theorem run_cost (ρ : Rates) {config : Role → MuxConfig} {as : List (Role × Action)}
    (h : exec System.step (newSystem config) as = some S) :
    systemCost ρ S + (as.map fun e => price ρ e.2).sum ≤
      12 * ρ.step + (as.map fun e => payment ρ e.2).sum := by
  have hrun := exec_amortized (systemCost ρ) (fun e => price ρ e.2) (fun e => payment ρ e.2) h
    fun _ _ _ hstep => system_cost hstep
  have hstart : systemCost ρ (newSystem config) = 12 * ρ.step := by
    simp only [systemCost, newSystem, sessionCost, newMuxSession, heapSum, queueCost, writerCost,
      readerCost, closingCost, wireCost, List.map_nil, List.sum_nil, List.length_nil,
      Finset.range_zero, Finset.sum_empty]
    omega
  omega

end

/-- **Every call causes a bounded amount of work.** However the steps of both sessions interleave,
at most 81 of them for each call are not calls themselves; twelve are those of the loops and of
Close. -/
theorem steps_bounded {config : Role → MuxConfig} {as : List (Role × Action)} {S : System}
    (h : exec System.step (newSystem config) as = some S) :
    as.countP (fun e => !isCall e.2) ≤ 81 * as.countP (fun e => isCall e.2) + 12 := by
  have hrun : _ ≤ 12 * 1 + _ := run_cost ⟨1, 0⟩ h
  have hprice : (as.map fun e => price ⟨1, 0⟩ e.2).sum = 1 * as.countP fun e => !isCall e.2 := by
    rw [← sum_charge]
    refine congrArg List.sum (List.map_congr_left fun e _ => ?_)
    cases hc : isCall e.2 <;> simp [price, hc]
  have hpay : (as.map fun e => payment ⟨1, 0⟩ e.2).sum ≤ 81 * as.countP fun e => isCall e.2 := by
    rw [← sum_charge]
    refine List.sum_le_sum fun e _ => ?_
    unfold payment
    split <;> simp [isCall, *] <;> decide
  omega

/-- A stream is opened by one side, accepted by the other and closed by both: four calls. -/
def fourCalls : List (Role × Action) := connectRun 0 [] ++ disconnectRun 0

theorem steps_bounded_connect :
    ∃ S, exec System.step (newSystem fourStreams) fourCalls = some S ∧
      fourCalls.countP (fun e => !isCall e.2) ≤
        81 * fourCalls.countP (fun e => isCall e.2) + 12 := by
  obtain ⟨S, hS, _⟩ := exists_some_of_any (x := exec System.step (newSystem fourStreams) fourCalls)
    (fun S => S.wire .relay = []) (by decide +kernel)
  exact ⟨S, hS, steps_bounded hS⟩

/-- The frames that a call can lead to, on either side.
SOURCE: mux_session.go:111-172, 209-235, 617-637 -/
def framesCaused : Action → ℕ
  | .openStream _ => 6
  | .call _ (.write _) => 1
  | .ping _ => 2
  | .goAwaySend _ | .sendServiceList _ => 1
  | _ => 0

/-- **No exchange of frames goes on by itself.** The frames that both sides write in a run are at
most six for each OpenStream, one for each Write, two for each Ping and one for each GoAway and each
service list. -/
theorem frames_bounded {config : Role → MuxConfig} {as : List (Role × Action)} {S : System}
    (h : exec System.step (newSystem config) as = some S) :
    as.countP (fun e => isTransmit e.2) ≤ (as.map fun e => framesCaused e.2).sum := by
  have hrun : _ ≤ 12 * 0 + _ := run_cost ⟨0, 1⟩ h
  have hprice : (as.map fun e => price ⟨0, 1⟩ e.2).sum = 1 * as.countP fun e => isTransmit e.2 := by
    rw [← sum_charge]
    refine congrArg List.sum (List.map_congr_left fun e _ => ?_)
    simp [price]
  have hpay : (as.map fun e => payment ⟨0, 1⟩ e.2) = as.map fun e => framesCaused e.2 := by
    refine List.map_congr_left fun e _ => ?_
    unfold payment framesCaused
    split <;> simp [*] <;> decide
  rw [hpay] at hrun
  omega

theorem frames_bounded_connect :
    ∃ S, exec System.step (newSystem fourStreams) fourCalls = some S ∧
      fourCalls.countP (fun e => isTransmit e.2) ≤
        (fourCalls.map fun e => framesCaused e.2).sum := by
  obtain ⟨S, hS, _⟩ := exists_some_of_any (x := exec System.step (newSystem fourStreams) fourCalls)
    (fun S => S.wire .relay = []) (by decide +kernel)
  exact ⟨S, hS, frames_bounded hS⟩

end Atlax.Analysis
