import Atlax.Analysis.Encodings
import Atlax.Analysis.Limits
import Atlax.Analysis.WellFormed

/-!
# The frames a session queues

Ten places of the session build frames. Their payload is of a fixed size (ACK, CLOSE, RESET,
GOAWAY, PING), checked (SERVICE_LIST), taken from a frame that the codec has read (PONG), or given
by a caller: what `OpenStreamWithPayload` and Write are called with. Only the last two can be longer
than the codec allows. As long as no caller does that, every frame that is queued is accepted by
`WriteFrame` and read back as an equal frame, and the write loop fails only because the transport
has been closed. With a longer payload it is the codec's refusal that closes the session.
-/

set_option autoImplicit false

namespace Atlax.Analysis

open Atlax.Model Atlax.Library

variable {data : Bytes}

/-! ## Which frames are queued -/

/-- The GOAWAY that GoAway queues.
SOURCE: mux_session.go:211-229 -/
def goAwayPacket (s : Session) (code : ℕ) : Packet :=
  connPacket .goAway (putUint32 (s.table.streams.keys.foldl max 0) ++ putUint32 code)

/-- The step `a` queues the packet, at either priority. -/
inductive Queues (s : Session) : Action → Packet → Prop
  | openPacket (r : Ref) (hr : r < s.nextRef) (hpc : (s.cells r).openPc = .enqueue) :
      Queues s (.opening r .enqueue) (s.cells r).openPacket
  | ack (r : Ref) (p : Packet) (h : s.reader = .acceptAck r p) :
      Queues s .reader (s.cells r).ackPacket
  | data (r : Ref) (hr : r < s.nextRef) (d : Drain) (data : Bytes) (flushing : Bool)
      (hpc : (s.cells r).drainPc = .enqueue data flushing) :
      Queues s (.drain r d) ((s.cells r).dataPacket data)
  | close (r : Ref) (hr : r < s.nextRef) (d : Drain) (hpc : (s.cells r).drainPc = .sendFIN) :
      Queues s (.drain r d) (s.cells r).closePacket
  | reset (r : Ref) (hr : r < s.nextRef) (code : ℕ) (hpc : (s.cells r).resetPc = .send code) :
      Queues s (.callback r .resetSend) ((s.cells r).resetPacket code)
  | reject (p : Packet) (h : s.reader = .rejectOpen p) : Queues s .reader (rejectPacket p)
  | pong (p : Packet) (h : s.reader = .frame p) :
      Queues s .reader (connPacket .pong p.frame.payload)
  | goAway (code : ℕ) : Queues s (.goAwaySend code) (goAwayPacket s code)
  | ping (data : Bytes) : Queues s (.ping data) (connPacket .ping data)
  | serviceList (services : List Bytes)
      (hlen : ([10].intercalate services).length ≤ maxPayloadSize) :
      Queues s (.sendServiceList services) (connPacket .serviceList ([10].intercalate services))

variable {s s' : Session} {a : Action} {c c' : Cell} {p : Packet}

theorem step_queues (hstep : s.step a = some s') (h : Outgoing s' p) :
    Outgoing s p ∨ Queues s a p := by
  have hm := step_move hstep
  cases hm with
  | sendOpen r hr hpc => exact outgoing_enqueue_or h id (.openPacket r hr hpc)
  | resetSend r hr code hpc => exact outgoing_enqueue_or h id (.reset r hr code hpc)
  | drainSend r hr d c p' hc =>
    cases hc with
    | enqueue data flushing hpc => exact outgoing_enqueue_or h id (.data r hr d data flushing hpc)
    | sendFIN hpc => exact outgoing_enqueue_or h id (.close r hr d hpc)
  | handlePing p' hrd => exact outgoing_enqueue_or h id (.pong p' hrd)
  | rejectOpen p' hrd => exact outgoing_enqueue_or h id (.reject p' hrd)
  | acceptAck r p' hrd => exact outgoing_enqueue_or h id (.ack r p' hrd)
  | goAwaySend code payload =>
    -- the move forgets how the payload is made, the step knows it
    have hs : some (s.enqueue (goAwayPacket s code) .control) = some _ := hstep
    rw [← Option.some.inj hs] at h
    exact outgoing_enqueue_or h id (.goAway code)
  | ping data => exact outgoing_enqueue_or h id (.ping data)
  | sendServiceList services payload =>
    simp only [Session.step, Session.sendServiceList, Option.ite_none_left_eq_some, not_or,
      Option.some.injEq] at hstep
    obtain ⟨⟨-, hlen⟩, hs⟩ := hstep
    rw [← hs] at h
    exact outgoing_enqueue_or h id (.serviceList services (Nat.le_of_not_lt hlen))
  | dequeue hw p' q hq =>
    obtain h | h := h
    · exact .inl (.inl (WriteQueue.holds_of_dequeue hq h))
    · cases h
      exact .inl (.inl (WriteQueue.holds_dequeued hq))
  | writerCheck hw =>
    obtain h | h := h
    · exact .inl (.inl h)
    · simp only [Session.setWriter_writer] at h
      split at h <;> cases h
  | dequeueExit | transmit | transmitFail =>
    obtain h | h := h
    · exact .inl (.inl h)
    · cases h
  | _ => exact .inl h

/-! ## What a frame is made of -/

/-- A chunk on its way through the stream: a Write holds it, `writeOut` does, or the drain
goroutine. -/
def HasChunk (c : Cell) (data : Bytes) : Prop :=
  data ∈ c.writers ∨ data ∈ c.stream.writeOut ∨ data ∈ c.inHand

theorem hasChunk_reset {c : Cell} {code : ℕ} {byFrame : Bool}
    (hd : HasChunk (c.reset code byFrame) data) : HasChunk c data := by
  rw [HasChunk, reset_writeOut] at hd
  exact hd

theorem hasChunk_call {k : Call} (h : CellCall c k c')
    (hd : HasChunk c' data) : HasChunk c data ∨ k = .write data := by
  cases h with
  | write data' =>
    obtain hd | hd := hd
    · obtain hd | hd := List.mem_append.mp hd
      · exact .inl (.inl hd)
      · rw [List.mem_singleton.mp hd]
        exact .inr rfl
    · exact .inl (.inr hd)
  | writeSend data' hmem =>
    obtain hd | hd | hd := hd
    · exact .inl (.inl (List.mem_of_mem_erase hd))
    · obtain hd | hd := List.mem_append.mp hd
      · exact .inl (.inr (.inl hd))
      · rw [List.mem_singleton.mp hd]
        exact .inl (.inl hmem)
    · exact .inl (.inr (.inr hd))
  | writeFail data' =>
    obtain hd | hd := hd
    · exact .inl (.inl (List.mem_of_mem_erase hd))
    · exact .inl (.inr hd)
  | close =>
    rw [HasChunk, close_writeOut] at hd
    exact .inl hd
  | reset code => exact .inl (hasChunk_reset hd)
  | writeRefused | readEof | readBytes => exact .inl hd

theorem hasChunk_drain {b : Bool} {p : Option Packet} (h : CellDrain c b c' p)
    (hd : HasChunk c' data) : HasChunk c data := by
  -- a goroutine that takes nothing holds nothing afterwards
  have idle : ∀ {pc : DrainPc}, (∀ d f, pc ≠ .enqueue d f) →
      HasChunk { c with drainPc := pc } data → HasChunk c data := by
    intro pc hpc hd
    obtain hd | hd | hd := hd
    · exact .inl hd
    · exact .inr (.inl hd)
    · cases pc with
      | enqueue d f => exact absurd rfl (hpc d f)
      | _ => cases hd
  cases h with
  | take data' rest flushing hpc hout =>
    obtain hd | hd | hd := hd
    · exact .inl hd
    · exact .inr (.inl (hout ▸ List.mem_cons_of_mem _ hd))
    · rw [List.mem_singleton.mp hd]
      exact .inr (.inl (hout ▸ List.mem_cons_self))
  | takeFIN =>
    obtain hd | hd | hd := hd
    · exact .inl hd
    · exact .inr (.inl hd)
    · cases hd
  | enqueue data' flushing => exact idle (by cases flushing <;> simp) hd
  | sawClosed | exit | stateReset | stateClosed | flushed | sendFIN => exact idle (by simp) hd

theorem hasChunk_cell {rd : ReaderPc} {r : Ref} (h : CellMove a rd r c c')
    (hd : HasChunk c' data) : HasChunk c data ∨ a = .call r (.write data) := by
  cases h with
  | call k c' ha _ hc =>
    obtain hold | rfl := hasChunk_call hc hd
    · exact .inl hold
    · exact .inr ha
  | drain d b c' p _ hc => exact .inl (hasChunk_drain hc hd)
  | resetLocal | resetFrame => exact .inl (hasChunk_reset hd)
  | openFailedReset => exact .inl (hasChunk_reset (c := { c with openPc := .failed }) hd)
  | remoteClose =>
    rw [HasChunk, remoteClose_writeOut] at hd
    exact .inl hd
  | sendOpen =>
    obtain hd | hd | hd := hd
    · exact .inl (.inl hd)
    · exact .inl (.inr (.inl hd))
    · cases hd
  | _ => exact .inl hd

/-! ## What fits -/

/-- What the codec asks of a frame, with an identifier that is a uint32 and a named command. -/
structure FitsFrame (f : Frame) : Prop where
  version : f.version = protocolVersion
  payload : f.payload.length ≤ maxPayloadSize
  command : ∀ b, f.command ≠ .unknown b
  streamID : f.streamID < 2 ^ 32

theorem FitsFrame.carried {f : Frame} (h : FitsFrame f) : Carried f :=
  Analysis.carried h.version h.payload h.command h.streamID

/-- What the code's own types say of a step: the read loop gets its frames from `ReadFrame`, and the
data of a PING is an array of 8 bytes.
SOURCE: mux_session.go:57, 279; frame_codec.go:91-104 -/
def FromCodec (_ : Session) : Action → Prop
  | .recv p => p.frame.payload.length ≤ maxPayloadSize ∧ p.frame.streamID < 2 ^ 32
  | .ping data => data.length = 8
  | _ => True

/-- No caller hands over more than fits into a frame. -/
def SmallPayloads (_ : Session) : Action → Prop
  | .openStream payload => payload.length ≤ maxPayloadSize
  | .call _ (.write data) => data.length ≤ maxPayloadSize
  | _ => True

/-- Both. -/
def SmallSteps (s : Session) (a : Action) : Prop := FromCodec s a ∧ SmallPayloads s a

instance (s : Session) (a : Action) : Decidable (SmallSteps s a) := by
  unfold SmallSteps FromCodec SmallPayloads
  induction a with
  | call r k => induction k <;> infer_instance
  | _ => infer_instance

/-- What `ReadFrame` hands over meets its side. -/
theorem readFrame_fits {r r' : Reader} {f : WireFrame} (h : readFrame r = (.ok f, r')) :
    f.toFrame.payload.length ≤ maxPayloadSize ∧ f.toFrame.streamID < 2 ^ 32 := by
  obtain ⟨hacc, rfl, -⟩ := readFrame_ok h
  exact ⟨hacc.valid.2, UInt32.toNat_lt _⟩

/-- What a stream sends fits into frames. -/
structure SmallCell (c : Cell) : Prop where
  id : c.stream.id < 2 ^ 32
  openArg : c.hist.openArg.length ≤ maxPayloadSize
  chunk : ∀ data, HasChunk c data → data.length ≤ maxPayloadSize

/-- Everything that a frame may be made of fits. -/
structure SmallFrames (s : Session) : Prop where
  outgoing : ∀ p, Outgoing s p → FitsFrame p.frame
  calls : ∀ payload ∈ s.calls, payload.length ≤ maxPayloadSize
  cells : ∀ r < s.nextRef, SmallCell (s.cells r)
  reader : ∀ p, s.reader.packet = some p →
    p.frame.payload.length ≤ maxPayloadSize ∧ p.frame.streamID < 2 ^ 32
  next : s.table.nextStreamID < 2 ^ 32
  free : ∀ i ∈ s.table.freeIDs, i < 2 ^ 32

theorem move_calls_mem (hm : Move s a s') {payload : Bytes} (h : payload ∈ s'.calls) :
    payload ∈ s.calls ∨ a = .openStream payload := by
  cases hm with
  | openStream payload' =>
    obtain rfl | h := List.mem_cons.mp h
    · exact .inr rfl
    · exact .inl h
  | openFull | openAlloc => exact .inl (List.mem_of_mem_erase h)
  | _ => exact .inl h

theorem move_nextStreamID_lt (hm : Move s a s') (h : s.table.nextStreamID < 2 ^ 32) :
    s'.table.nextStreamID < 2 ^ 32 := by
  cases hm with
  | openAlloc =>
    show s.table.allocID.2.nextStreamID < 2 ^ 32
    unfold StreamTable.allocID
    split
    · exact h
    · exact Nat.mod_lt _ (by decide)
  | openRemove | closeDelete | delete | resetLookup | resetRemove => simpa using h
  | _ => exact h

theorem mem_freeIDs_remove {t : StreamTable} {i j : ℕ} (h : i ∈ (t.remove j).freeIDs) :
    i ∈ t.freeIDs ∨ i = j := by
  unfold StreamTable.remove StreamTable.freeID at h
  split at h
  · obtain rfl | h := List.mem_cons.mp h
    · exact .inr rfl
    · exact .inl h
  · exact .inl h

theorem mem_freeIDs_removePresent {t : StreamTable} {i j : ℕ}
    (h : i ∈ (t.removePresent j).freeIDs) : i ∈ t.freeIDs ∨ i = j := by
  unfold StreamTable.removePresent at h
  split at h
  · exact mem_freeIDs_remove h
  · exact .inl h

/-- An identifier is freed for a stream, or for the packet the read loop works for. -/
theorem move_freed (hm : Move s a s') {i : ℕ} (h : i ∈ s'.table.freeIDs) :
    i ∈ s.table.freeIDs ∨ (∃ r < s.nextRef, (s.cells r).stream.id = i) ∨
      ∃ p, s.reader.packet = some p ∧ p.frame.streamID = i := by
  cases hm with
  | openAlloc => exact .inl (freeIDs_allocID h)
  | openRemove r hr | closeDelete r hr =>
    obtain hold | rfl := mem_freeIDs_remove h
    · exact .inl hold
    · exact .inr (.inl ⟨r, hr, rfl⟩)
  | resetLookup r hr =>
    obtain hold | rfl := mem_freeIDs_removePresent h
    · exact .inl hold
    · exact .inr (.inl ⟨r, hr, rfl⟩)
  | delete r p hrd =>
    obtain hold | rfl := mem_freeIDs_remove h
    · exact .inl hold
    · exact .inr (.inr ⟨p, by rw [hrd]; rfl, rfl⟩)
  | resetRemove r p hrd =>
    obtain hold | rfl := mem_freeIDs_removePresent h
    · exact .inl hold
    · exact .inr (.inr ⟨p, by rw [hrd]; rfl, rfl⟩)
  | _ => exact .inl h

theorem SmallFrames.allocID (h : SmallFrames s) : s.table.allocID.1 < 2 ^ 32 := by
  unfold StreamTable.allocID
  split
  · next i rest hf => exact h.free i (by simp [hf])
  · exact h.next

/-- What a step queues fits. -/
theorem SmallFrames.queues (h : SmallFrames s) (hw : WellFormed s) (hok : SmallSteps s a)
    (hq : Queues s a p) : FitsFrame p.frame := by
  have hzero : ([] : Bytes).length ≤ maxPayloadSize := Nat.zero_le _
  have hmax : 8 ≤ maxPayloadSize := by decide
  cases hq with
  | openPacket r hr =>
    have hc := h.cells r hr
    exact ⟨rfl, hc.openArg, by simp [Cell.openPacket], hc.id⟩
  | ack r p hrd =>
    have hr : r < s.nextRef := (hw.reader r p (by rw [hrd]; rfl)).1
    exact ⟨rfl, hzero, by simp [Cell.ackPacket], (h.cells r hr).id⟩
  | data r hr d data flushing hpc =>
    have hc := h.cells r hr
    have hhand : data ∈ (s.cells r).inHand := by simp [Cell.inHand, hpc]
    exact ⟨rfl, hc.chunk data (.inr (.inr hhand)), by simp [Cell.dataPacket], hc.id⟩
  | close r hr => exact ⟨rfl, hzero, by simp [Cell.closePacket], (h.cells r hr).id⟩
  | reset r hr code =>
    refine ⟨rfl, ?_, by simp [Cell.resetPacket], (h.cells r hr).id⟩
    show (putUint32 code).length ≤ maxPayloadSize
    rw [putUint32_length]
    omega
  | reject p hrd =>
    refine ⟨rfl, ?_, by simp [rejectPacket], (h.reader p (by rw [hrd]; rfl)).2⟩
    show (putUint32 resetCodeProtocolError).length ≤ maxPayloadSize
    rw [putUint32_length]
    omega
  | pong p hrd =>
    exact ⟨rfl, (h.reader p (by rw [hrd]; rfl)).1, by simp [connPacket], by simp [connPacket]⟩
  | goAway code =>
    refine ⟨rfl, ?_, by simp [goAwayPacket, connPacket], by simp [goAwayPacket, connPacket]⟩
    show (putUint32 _ ++ putUint32 code).length ≤ maxPayloadSize
    rw [List.length_append, putUint32_length, putUint32_length]
    exact hmax
  | ping data =>
    have hlen : data.length = 8 := hok.1
    exact ⟨rfl, hlen ▸ hmax, by simp [connPacket], by simp [connPacket]⟩
  | serviceList services hlen =>
    exact ⟨rfl, hlen, by simp [connPacket], by simp [connPacket]⟩

theorem SmallFrames.cells_step (h : SmallFrames s) (hok : SmallSteps s a) (hm : Move s a s') :
    ∀ r < s'.nextRef, SmallCell (s'.cells r) := by
  intro r hr
  obtain hold | ⟨-, ⟨payload, rfl, hc⟩ | ⟨p, -, hrd, hc⟩⟩ := move_new hm hr
  · have hcell := h.cells r hold
    have hev := move_evolves hm r hold
    refine ⟨hev.id ▸ hcell.id, hev.openArg ▸ hcell.openArg, ?_⟩
    intro data hd
    obtain hd | rfl := hasChunk_cell (move_cell hm hold) hd
    · exact hcell.chunk data hd
    · exact hok.2
  · have hmem : payload ∈ s.calls := by
      cases hm with
      | openFull _ hmem | openAlloc _ hmem => exact hmem
    rw [hc]
    refine ⟨h.allocID, h.calls payload hmem, ?_⟩
    rintro data (hd | hd | hd) <;> cases hd
  · have hp := h.reader p (by rw [hrd]; rfl)
    rw [hc]
    refine ⟨by rw [acceptedCell_id]; exact hp.2, Nat.zero_le _, ?_⟩
    unfold Session.acceptedCell
    dsimp only
    rintro data (hd | hd | hd)
    · cases hd
    · split at hd <;> cases hd
    · cases hd

theorem smallFrames_step (h : SmallFrames s) (hw : WellFormed s) (hok : SmallSteps s a)
    (hstep : s.step a = some s') : SmallFrames s' := by
  have hm := step_move hstep
  refine ⟨?_, ?_, h.cells_step hok hm, ?_, move_nextStreamID_lt hm h.next, ?_⟩
  · intro p hp
    obtain hold | hnew := step_queues hstep hp
    · exact h.outgoing p hold
    · exact h.queues hw hok hnew
  · intro payload hmem
    obtain hold | rfl := move_calls_mem hm hmem
    · exact h.calls payload hold
    · exact hok.2
  · intro p hp
    obtain hold | rfl := move_readerPacket hm hp
    · exact h.reader p hold
    · exact hok.1
  · intro i hi
    obtain hold | ⟨r, hr, rfl⟩ | ⟨p, hp, rfl⟩ := move_freed hm hi
    · exact h.free i hold
    · exact (h.cells r hr).id
    · exact (h.reader p hp).2

theorem smallFrames_reach {role : Role} {config : MuxConfig}
    (h : SessionReach role config SmallSteps s) : SmallFrames s := by
  refine Reach.invariant SmallFrames h ?_ ?_
  · refine ⟨?_, by simp [newMuxSession], ?_, by simp [newMuxSession, ReaderPc.packet], ?_,
      by simp [newMuxSession, newStreamTable]⟩
    · rintro p (hp | hp)
      · simp [newMuxSession, WriteQueue.Holds] at hp
      · cases hp
    · intro r hr
      cases hr
    · show startID role < 2 ^ 32
      cases role <;> decide
  · intro s a s' hreach hI hok hstep
    exact smallFrames_step hI (wellFormed_reach hreach) hok hstep

/-- As long as no `OpenStreamWithPayload` and no Write is called with more than 16 MiB, every frame
in the queue or in the write loop's hand is accepted by `WriteFrame` and read back as an equal
frame, and the write loop fails only when the transport is closed.
SOURCE: mux_session.go:149-155, 294-382; stream_impl.go:105-124; frame_codec.go:26-88 -/
theorem queued_frames_carried {role : Role} {config : MuxConfig}
    (h : SessionReach role config (fun s a => FromCodec s a ∧ SmallPayloads s a) s) :
    (∀ p, s.queue.Holds p ∨ s.writer = .write p → Carried p.frame) ∧
    ∀ s', s.step .transmitFail = some s' → s.closing = .done := by
  have hsmall : SmallFrames s := smallFrames_reach h
  refine ⟨fun p hp => (hsmall.outgoing p hp).carried, ?_⟩
  intro s' hstep
  simp only [Session.step] at hstep
  split at hstep
  · next p hwr =>
    have hfit := (hsmall.outgoing p (.inr hwr)).payload
    rw [Option.ite_none_right_eq_some] at hstep
    obtain hbig | hdone := hstep.1
    · omega
    · exact hdone
  · cases hstep

/-- The conditions are met by an open with a payload and a Write on the stream, whose frames go
out. -/
theorem queued_frames_carried_open : ∃ s p,
    SessionReach .agent ⟨2, 262144, 1048576⟩ (fun s a => FromCodec s a ∧ SmallPayloads s a) s ∧
    s.writer = .write p ∧ p.frame.payload = [1, 2] ∧ Carried p.frame ∧
    ∀ s', s.step .transmitFail = some s' → s.closing = .done := by
  have hex : ∃ s, SessionReach .agent ⟨2, 262144, 1048576⟩ SmallSteps s ∧
      s.writer = .write ⟨{ command := .streamOpen, streamID := 2, payload := [1, 2] },
        some ⟨.agent, 0⟩⟩ :=
    exists_reach_of_exec [.openStream [1, 2], .openAlloc [1, 2], .opening 0 .register,
      .opening 0 .enqueue, .writerCheck, .dequeue] _ (by decide)
  obtain ⟨s, hs, hw⟩ := hex
  have hall := queued_frames_carried hs
  exact ⟨s, _, hs, hw, rfl, hall.1 _ (.inr hw), hall.2⟩

/-- A run to a frame that `WriteFrame` refuses although the session runs: the write loop gives up
and closes it. -/
def TearsDown (command : Command) : Prop :=
  ∃ s s' p, SessionReach .agent ⟨2, 262144, 1048576⟩ FromCodec s ∧ s.closing = .running ∧
    s.writer = .write p ∧ p.frame.command = command ∧
    (∀ w, ∃ e, writeFrame w (some p.frame.toWire) = .error e) ∧
    s.step .transmitFail = some s' ∧ s'.closing = .queue

instance (s : Session) (a : Action) : Decidable (FromCodec s a) := by
  unfold FromCodec
  induction a <;> infer_instance

theorem tearsDown_of_reach
    (h : SessionReach .agent ⟨2, 262144, 1048576⟩ FromCodec s) (hrun : s.closing = .running)
    (hw : s.writer = .write p) (hlong : maxPayloadSize < p.frame.payload.length) :
    TearsDown p.frame.command := by
  refine ⟨s, (s.setWriter .exited).setClosing .queue, p, h, hrun, hw, rfl,
    fun w => ⟨_, if_pos hlong⟩, ?_, rfl⟩
  simp only [Session.step, hw, if_pos (Or.inl hlong), hrun, if_true]

theorem tearsDown_open {payload : Bytes} (h : maxPayloadSize < payload.length) :
    TearsDown .streamOpen := by
  -- the test that the call is under way compares the payload: that step is not evaluated
  let s₁ := (newMuxSession .agent ⟨2, 262144, 1048576⟩).setCalls [payload]
  have hcall : SessionReach .agent ⟨2, 262144, 1048576⟩ FromCodec s₁ :=
    .of_exec [.openStream payload] rfl
  have halloc : s₁.step (.openAlloc payload) = some (s₁.openAlloc payload) :=
    if_pos (List.mem_singleton.mpr rfl)
  have hopen : Reach Session.step FromCodec (s₁.openAlloc payload) _ :=
    .of_exec [.opening 0 .register, .opening 0 .enqueue, .writerCheck, .dequeue] rfl
  exact tearsDown_of_reach
    (Reach.trans (hcall.tail (a := .openAlloc payload) trivial halloc) hopen) rfl rfl h

theorem tearsDown_write (h : maxPayloadSize < data.length) :
    TearsDown .streamData := by
  let s₁ := (exec Session.step (newMuxSession .agent ⟨2, 262144, 1048576⟩)
    (acceptRun ++ [Action.call 0 (.write data)])).get rfl
  have hwrite : SessionReach .agent ⟨2, 262144, 1048576⟩ FromCodec s₁ :=
    .of_exec (acceptRun ++ [Action.call 0 (.write data)]) rfl
  let s₂ := s₁.setCell 0 { s₁.cells 0 with
    stream := { (s₁.cells 0).stream with writeOut := [data] }
    writers := [data].erase data
    hist := { (s₁.cells 0).hist with wrote := [] ++ data } }
  have hcap : (s₁.cells 0).stream.writeOut.length < writeOutCap := Nat.zero_lt_succ _
  have hsend : s₁.step (.call 0 (.writeSend data)) = some s₂ :=
    congrArg (Option.map (s₁.setCell 0)) (if_pos ⟨List.mem_singleton.mpr rfl, hcap⟩)
  have hdrain : Reach Session.step FromCodec s₂ _ :=
    .of_exec [.drain 0 .data, .drain 0 .next, .writerCheck, .dequeue,
      .transmit (s₁.cells 0).ackPacket, .writerCheck, .dequeue] rfl
  exact tearsDown_of_reach
    (Reach.trans (hwrite.tail (a := .call 0 (.writeSend data)) trivial hsend) hdrain) rfl rfl h

/-- An open, or a Write, with one byte more than 16 MiB: its frame is queued, `WriteFrame` refuses
it, and the write loop closes the session. -/
theorem long_payload_tearsDown : TearsDown .streamOpen ∧ TearsDown .streamData := by
  have h : maxPayloadSize < (List.replicate (maxPayloadSize + 1) (0 : UInt8)).length := by
    rw [List.length_replicate]
    exact Nat.lt_succ_self _
  exact ⟨tearsDown_open h, tearsDown_write h⟩

end Atlax.Analysis
