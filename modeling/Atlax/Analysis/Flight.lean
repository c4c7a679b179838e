import Atlax.Analysis.TwoSessions

/-!
# The frames under way, in order

STREAM_OPEN, STREAM_DATA and STREAM_CLOSE go out at data priority, so that they reach the peer in
the order they are queued in; STREAM_RESET and the frames of the connection overtake them.
`System.flight` is the list of the ordered ones that a side has queued and the peer's read loop
has not applied, oldest first. A step of the sender leaves it as it is, puts a frame at its end or
cuts off its end for good; a step of the receiver leaves it as it is or takes its head.
-/

set_option autoImplicit false

namespace Atlax.Model

/-- The packet the read loop has read and not yet applied. -/
def ReaderPc.unapplied : ReaderPc → List Packet
  | .frame p | .acceptInsert p | .deliver _ p | .remoteClose _ p => [p]
  | .idle | .ackSend _ | .rejectOpen _ | .acceptAck _ _ | .acceptDeliver _ _ | .checkClosed _ _
  | .checkReset _ _ | .delete _ _ | .resetting _ _ | .awaitReset _ _ | .resetRemove _ _
  | .windowUpdate _ _ => []

/-- The read loop is about to make a stream, or to change one for a data or close frame. -/
def ReaderPc.applying : ReaderPc → Bool
  | .acceptInsert _ | .deliver _ _ | .remoteClose _ _ => true
  | .idle | .frame _ | .ackSend _ | .rejectOpen _ | .acceptAck _ _ | .acceptDeliver _ _
  | .checkClosed _ _ | .checkReset _ _ | .delete _ _ | .resetting _ _ | .awaitReset _ _
  | .resetRemove _ _ | .windowUpdate _ _ => false

/-- The packets whose order the queue keeps. -/
def Packet.inOrder (p : Packet) : Bool := p.isOpen || p.isData || p.isClose

/-- The packet in the write loop's hand. -/
def WriterPc.hand : WriterPc → List Packet
  | .write p => [p]
  | .check | .dequeue | .exited => []

/-- The ordered packets that the write loop will still put on the wire. -/
def Session.tail (s : Session) : List Packet :=
  if s.writer = .exited then [] else (s.writer.hand ++ s.queue.data).filter Packet.inOrder

/-- Nothing that is queued from now on is sent. -/
def Session.mute (s : Session) : Bool := s.queue.closed || decide (s.writer = .exited)

/-- The ordered packets under way from `X`, oldest first. -/
def System.flight (S : System) (X : Role) : List Packet :=
  ((S.sess X.peer).reader.unapplied ++ S.wire X).filter Packet.inOrder ++ (S.sess X).tail

end Atlax.Model

namespace Atlax.Analysis

open Atlax.Model Atlax.Library

variable {p : Packet}

/-- Only resets and frames of the connection go at control priority. -/
def ControlUnordered (s : Session) : Prop := ∀ p ∈ s.queue.control, p.inOrder = false

variable {s s' : Session} {a : Action} {q : WriteQueue}

/-- A control packet is not ordered. -/
theorem tail_enqueue_control (s : Session) (p : Packet) : (s.enqueue p .control).tail = s.tail := by
  unfold Session.tail
  simp only [Session.enqueue_writer, Session.enqueue_queue, WriteQueue.enqueue]
  split
  · rfl
  · split <;> rfl

/-- A data packet comes last. -/
theorem tail_enqueue_data {s : Session} (h : s.mute = false) (p : Packet) :
    (s.enqueue p .data).tail = s.tail ++ [p].filter Packet.inOrder := by
  simp only [Session.mute, Bool.or_eq_false_iff, decide_eq_false_iff_not] at h
  simp [Session.tail, WriteQueue.enqueue, h.1, h.2]

/-- A session past its last write sends nothing more. -/
theorem tail_enqueue_mute {s : Session} (h : s.mute = true) (p : Packet) (priority : Priority) :
    (s.enqueue p priority).tail = s.tail := by
  simp only [Session.mute, Bool.or_eq_true, decide_eq_true_eq] at h
  unfold Session.tail
  simp only [Session.enqueue_writer, Session.enqueue_queue, WriteQueue.enqueue]
  rcases h with h | h <;> simp [h]

@[simp] theorem mute_enqueue (s : Session) (p : Packet) (priority : Priority) :
    (s.enqueue p priority).mute = s.mute := by
  simp only [Session.mute, Session.enqueue_writer, Session.enqueue_queue, WriteQueue.enqueue]
  split
  · rfl
  · split <;> rfl

theorem resetPacket_inOrder (c : Cell) (code : ℕ) : (c.resetPacket code).inOrder = false := by
  simp [Packet.inOrder, Packet.isOpen, Packet.isData, Packet.isClose, Cell.resetPacket]

theorem rejectPacket_inOrder (p : Packet) : (rejectPacket p).inOrder = false := by
  simp [Packet.inOrder, Packet.isOpen, Packet.isData, Packet.isClose, rejectPacket]

/-- What the control queue holds after an Enqueue. -/
theorem mem_control_enqueue {p p' : Packet} {priority : Priority}
    (h : p' ∈ (q.enqueue p priority).control) :
    p' ∈ q.control ∨ p' = p ∧ priority = .control := by
  unfold WriteQueue.enqueue at h
  split at h
  · exact .inl h
  · cases priority <;> simp only [List.mem_append, List.mem_singleton] at h
    · exact h.imp_right fun h => ⟨h, rfl⟩
    · exact .inl h

/-- Only packets that need no order go to the control queue. -/
theorem controlUnordered_enqueue {s₁ : Session} {priority : Priority}
    (h : ControlUnordered s₁) (hp : priority = .control → p.inOrder = false) :
    ControlUnordered (s₁.enqueue p priority) := by
  intro p' hp'
  rcases mem_control_enqueue hp' with hold | ⟨rfl, hprio⟩
  · exact h p' hold
  · exact hp hprio

/-- No step queues an ordered packet as control. -/
theorem controlUnordered_move (h : ControlUnordered s) (hm : Move s a s') :
    ControlUnordered s' := by
  cases hm with
  | sendOpen | drainSend | acceptAck => exact controlUnordered_enqueue h (by simp)
  | resetSend r _ code =>
    exact controlUnordered_enqueue h fun _ => resetPacket_inOrder _ code
  | rejectOpen p => exact controlUnordered_enqueue h fun _ => rejectPacket_inOrder p
  | handlePing | goAwaySend | ping | sendServiceList =>
    exact controlUnordered_enqueue h fun _ => rfl
  | dequeue _ p q hq =>
    intro p' hp'
    refine h p' ?_
    rcases WriteQueue.dequeue_eq_some hq with heq | ⟨_, heq⟩ <;> rw [heq]
    · exact List.mem_cons_of_mem _ hp'
    · exact hp'
  | _ => exact h

/-- The step `a` queues the packet at data priority. -/
inductive QueuedBy (s : Session) : Action → Packet → Prop
  | openPacket (r : Ref) (hr : r < s.nextRef) (hpc : (s.cells r).openPc = .enqueue) :
      QueuedBy s (.opening r .enqueue) (s.cells r).openPacket
  | ack (r : Ref) (p : Packet) (h : s.reader = .acceptAck r p) :
      QueuedBy s .reader (s.cells r).ackPacket
  | drain (r : Ref) (hr : r < s.nextRef) (d : Drain) (c : Cell) (p : Packet)
      (hc : CellDrain (s.cells r) s.closed c (some p)) : QueuedBy s (.drain r d) p

/-- What a step does to the ordered packets that are to be sent. -/
inductive Output (s : Session) (a : Action) (s' : Session) : Prop
  | keep (h : s'.tail = s.tail) (hmute : s'.mute = s.mute) (ha : ∀ p, a ≠ .transmit p)
  | queue (p : Packet) (hp : QueuedBy s a p) (hs : s.mute = false) (hs' : s'.mute = false)
      (h : s'.tail = s.tail ++ [p].filter Packet.inOrder)
  | lose (p : Packet) (hp : QueuedBy s a p) (hs : s.mute = true) (hs' : s'.mute = true)
      (h : s'.tail = s.tail)
  | cut (h : s'.tail <+: s.tail) (hmute : s'.mute = true) (ha : ∀ p, a ≠ .transmit p)
  | transmit (p : Packet) (ha : a = .transmit p) (hmute : s'.mute = s.mute)
      (h : s.tail = [p].filter Packet.inOrder ++ s'.tail)

/-- A step that queues a packet sends none. -/
theorem QueuedBy.not_transmit (h : QueuedBy s a p) (p' : Packet) :
    a ≠ .transmit p' := by
  cases h <;> simp

/-- A packet queued at data priority. -/
theorem output_enqueue {s₁ : Session} (hp : QueuedBy s a p) (ht : s₁.tail = s.tail)
    (hmute : s₁.mute = s.mute) : Output s a (s₁.enqueue p .data) := by
  cases hb : s.mute with
  | false =>
    refine .queue p hp hb ?_ ?_
    · rw [mute_enqueue, hmute, hb]
    · rw [tail_enqueue_data (hmute.trans hb), ht]
  | true =>
    refine .lose p hp hb ?_ ?_
    · rw [mute_enqueue, hmute, hb]
    · rw [tail_enqueue_mute (hmute.trans hb), ht]

/-- The write loop takes a packet into its hand.
SOURCE: write_queue.go:55-88 -/
theorem tail_dequeue (hctl : ControlUnordered s) (h : s.writer = .dequeue)
    (hq : s.queue.dequeue = some (p, q)) :
    ((s.setQueue q).setWriter (.write p)).tail = s.tail := by
  unfold Session.tail
  simp only [h, Session.setWriter_writer, Session.setWriter_queue, Session.setQueue_queue,
    WriterPc.hand, reduceCtorEq, if_false, List.nil_append, List.cons_append]
  rcases WriteQueue.dequeue_eq_some hq with heq | ⟨_, heq⟩
  · have hp : p.inOrder = false := hctl p (by rw [heq]; exact List.mem_cons_self)
    rw [heq]
    simp [hp]
  · rw [heq]

theorem mute_dequeue (h : s.writer = .dequeue)
    (hq : s.queue.dequeue = some (p, q)) :
    ((s.setQueue q).setWriter (.write p)).mute = s.mute := by
  have hcl : q.closed = s.queue.closed := by
    rcases WriteQueue.dequeue_eq_some hq with heq | ⟨_, heq⟩ <;> rw [heq]
  simp [Session.mute, h, hcl]

/-- What a step adds to what the session will send. -/
theorem move_output (hctl : ControlUnordered s) (hm : Move s a s') : Output s a s' := by
  cases hm with
  | sendOpen r hr hpc => exact output_enqueue (.openPacket r hr hpc) rfl rfl
  | drainSend r hr d c p hc => exact output_enqueue (.drain r hr d c p hc) rfl rfl
  | acceptAck r p h =>
    have hout : Output s .reader
        ((s.setReader (.acceptDeliver r p)).enqueue (s.cells r).ackPacket .data) :=
      output_enqueue (.ack r p h) rfl rfl
    exact hout
  | resetSend | goAwaySend | ping | sendServiceList =>
    exact .keep (tail_enqueue_control _ _) (mute_enqueue _ _ _) (by simp)
  | handlePing p =>
    exact .keep (tail_enqueue_control s (connPacket .pong p.frame.payload)) (mute_enqueue s _ _)
      (by simp)
  | rejectOpen p =>
    exact .keep (tail_enqueue_control s (rejectPacket p)) (mute_enqueue s _ _) (by simp)
  | writerCheck h =>
    by_cases hcl : s.closed = true
    · simp only [hcl, if_true]
      exact .cut (by simp [Session.tail]) (by simp [Session.mute]) (by simp)
    · simp only [hcl]
      exact .keep (by simp [Session.tail, h, WriterPc.hand]) (by simp [Session.mute, h]) (by simp)
  | dequeue h p q hq => exact .keep (tail_dequeue hctl h hq) (mute_dequeue h hq) (by simp)
  | dequeueExit h => exact .cut (by simp [Session.tail]) (by simp [Session.mute]) (by simp)
  | transmitFail p h =>
    exact .cut (by simp [Session.tail]) (by simp [Session.mute]) (by simp)
  | transmit p h =>
    refine .transmit p rfl (by simp [Session.mute, h]) ?_
    simp [Session.tail, h, WriterPc.hand, ← List.filter_append]
  | closingQueue h =>
    exact .cut (List.prefix_refl _) (by simp [Session.mute, WriteQueue.close]) (by simp)
  | _ => exact .keep rfl rfl (by simp)

/-- What a step does to the packet that is read and not applied. -/
inductive Input (s : Session) (a : Action) (s' : Session) : Prop
  | keep (h : s'.reader.unapplied.filter Packet.inOrder = s.reader.unapplied.filter Packet.inOrder)
      (ha : ∀ p, a ≠ .recv p) (hidle : a = .reader → s.reader.applying = false)
  | recv (p : Packet) (ha : a = .recv p) (h : s.reader.unapplied = [])
      (h' : s'.reader.unapplied = [p])
  | drop (p : Packet) (ha : a = .reader) (h : s.reader = .frame p) (h' : s'.reader.unapplied = [])
      (why : Harmless p ∨ p.isOpen = true ∨ s.table.get p.frame.streamID = none)
  | insert (p : Packet) (ha : a = .reader) (h : s.reader = .acceptInsert p)
      (h' : s'.reader.unapplied = [])
  | deliver (r : Ref) (p : Packet) (ha : a = .reader) (h : s.reader = .deliver r p)
      (h' : s'.reader = Session.afterDeliver r p)
  | remoteClose (r : Ref) (p : Packet) (ha : a = .reader) (h : s.reader = .remoteClose r p)
      (h' : s'.reader.unapplied = [])

theorem isAck_inOrder (h : p.isAck = true) : p.inOrder = false := by
  simp only [Packet.isAck, Bool.and_eq_true, beq_iff_eq] at h
  simp [Packet.inOrder, Packet.isOpen, Packet.isData, Packet.isClose, h.1, h.2]

theorem isReset_inOrder (h : p.isReset = true) : p.inOrder = false := by
  simp only [Packet.isReset, beq_iff_eq] at h
  simp [Packet.inOrder, Packet.isOpen, Packet.isData, Packet.isClose, h]

/-- What a step takes from what the session has to handle. -/
theorem move_input (hm : Move s a s') : Input s a s' := by
  cases hm with
  | recv p h => exact .recv p rfl (by simp [h, ReaderPc.unapplied]) (by simp [ReaderPc.unapplied])
  | handleNothing p h hp | handleWindow p h hp | handlePing p h hp =>
    exact .drop p rfl h rfl (.inl hp)
  | handleAck p h hp =>
    exact .keep (by simp [h, ReaderPc.unapplied, isAck_inOrder hp]) (by simp)
      (by simp [h, ReaderPc.applying])
  | handleOpenOwn p h hp | handleOpenActive p h hp => exact .drop p rfl h rfl (.inr (.inl hp))
  | handleReset p h hp =>
    exact .keep (by simp [h, ReaderPc.unapplied, isReset_inOrder hp]) (by simp)
      (by simp [h, ReaderPc.applying])
  | handleMiss p h hget => exact .drop p rfl h rfl (.inr (.inr hget))
  | acceptInsert p h => exact .insert p rfl h rfl
  | deliver r p h => exact .deliver r p rfl h rfl
  | remoteClose r p h => exact .remoteClose r p rfl h rfl
  | handleOpen p h | handleData p h | handleDataFin p h | handleClose p h =>
    exact .keep (by simp [h, ReaderPc.unapplied]) (by simp) (by simp [h, ReaderPc.applying])
  | ackSend _ h | rejectOpen _ h | acceptAck _ _ h | acceptDeliver _ _ h | delete _ _ h
  | awaitReset _ _ h | resetRemove _ _ h | windowUpdate _ _ h | readerClosed _ _ h =>
    exact .keep (by simp [h, ReaderPc.unapplied]) (by simp) (by simp [h, ReaderPc.applying])
  | checkClosed _ _ h | checkReset _ _ h | resetting _ _ h =>
    refine .keep ?_ (by simp) (by simp [h, ReaderPc.applying])
    simp only [h, Session.setReader_reader]
    split <;> rfl
  | _ => exact .keep rfl (by simp) (by simp)

variable {S S' : System} {X : Role}

/-- What a step of `X` does to the packets under way from it. -/
inductive Sending (S : System) (X : Role) (a : Action) (S' : System) : Prop
  | keep (h : S'.flight X = S.flight X) (hmute : (S'.sess X).mute = (S.sess X).mute)
  | queue (p : Packet) (hp : QueuedBy (S.sess X) a p) (hs : (S.sess X).mute = false)
      (hs' : (S'.sess X).mute = false) (h : S'.flight X = S.flight X ++ [p].filter Packet.inOrder)
  | lose (p : Packet) (hp : QueuedBy (S.sess X) a p) (hs : (S.sess X).mute = true)
      (hs' : (S'.sess X).mute = true) (h : S'.flight X = S.flight X)
  | cut (h : S'.flight X <+: S.flight X) (hmute : (S'.sess X).mute = true)

/-- The wire of the side that moves, unless it transmits. -/
theorem SysMove.wire_self (hm : SysMove S X a S') (ha : ∀ p, a ≠ .transmit p) :
    S'.wire X = S.wire X := by
  obtain ⟨_, _, hwire⟩ := hm
  generalize S'.wire = w at hwire ⊢
  cases hwire with
  | recv p rest h => exact Function.update_of_ne (Role.ne_peer X) _ _
  | transmit p => exact absurd rfl (ha p)
  | other => rfl

/-- A transmitted packet is last on the wire. -/
theorem SysMove.wire_transmit (hm : SysMove S X a S') (ha : a = .transmit p) :
    S'.wire X = S.wire X ++ [p] := by
  obtain ⟨_, _, hwire⟩ := hm
  generalize S'.wire = w at hwire ⊢
  cases hwire with
  | recv => cases ha
  | transmit p =>
    cases ha
    exact Function.update_self ..
  | other _ _ ht => exact absurd ha (ht p)

/-- What a step adds to what is on its way to the peer. -/
theorem SysMove.sending (hm : SysMove S X a S') (hctl : ControlUnordered (S.sess X)) :
    Sending S X a S' := by
  have hself := hm.wire_self
  cases move_output hctl hm.move with
  | keep h hmute ha => exact .keep (by simp [System.flight, hm.peer, hself ha, h]) hmute
  | queue p hp hs hs' h =>
    exact .queue p hp hs hs' (by simp [System.flight, hm.peer, hself hp.not_transmit, h])
  | lose p hp hs hs' h =>
    exact .lose p hp hs hs' (by simp [System.flight, hm.peer, hself hp.not_transmit, h])
  | cut h hmute ha =>
    refine .cut ?_ hmute
    simp only [System.flight, hm.peer, hself ha]
    exact (List.prefix_append_right_inj _).mpr h
  | transmit p ha hmute h =>
    refine .keep ?_ hmute
    simp [System.flight, hm.peer, hm.wire_transmit ha, h]

/-- What a step of the peer of `X` does to the packets under way from `X`. -/
inductive Receiving (S : System) (X : Role) (a : Action) (S' : System) : Prop
  | keep (h : S'.flight X = S.flight X)
      (hidle : a = .reader → (S.sess X.peer).reader.applying = false)
  | drop (p : Packet) (ha : a = .reader) (hrd : (S.sess X.peer).reader = .frame p)
      (why : Harmless p ∨ p.isOpen = true ∨
        (S.sess X.peer).table.get p.frame.streamID = none)
      (h : S.flight X = [p].filter Packet.inOrder ++ S'.flight X)
  | insert (p : Packet) (ha : a = .reader) (hrd : (S.sess X.peer).reader = .acceptInsert p)
      (h : S.flight X = [p].filter Packet.inOrder ++ S'.flight X)
  | deliver (r : Ref) (p : Packet) (ha : a = .reader) (hrd : (S.sess X.peer).reader = .deliver r p)
      (h : S.flight X =
        (if p.frame.flags.fin then [] else [p].filter Packet.inOrder) ++ S'.flight X)
  | remoteClose (r : Ref) (p : Packet) (ha : a = .reader)
      (hrd : (S.sess X.peer).reader = .remoteClose r p)
      (h : S.flight X = [p].filter Packet.inOrder ++ S'.flight X)

/-- Only a receive takes packets off the wire. -/
theorem SysMove.wire_peer (hm : SysMove S X.peer a S') (ha : ∀ p, a ≠ .recv p) :
    S'.wire X = S.wire X := by
  obtain ⟨_, _, hwire⟩ := hm
  generalize S'.wire = w at hwire ⊢
  cases hwire with
  | recv p rest h => exact absurd rfl (ha p)
  | transmit p => exact Function.update_of_ne (Role.ne_peer X) _ _
  | other => rfl

/-- A receive takes the first packet off the wire. -/
theorem SysMove.wire_recv (hm : SysMove S X.peer a S') (ha : a = .recv p) :
    S.wire X = p :: S'.wire X := by
  obtain ⟨_, _, hwire⟩ := hm
  generalize S'.wire = w at hwire ⊢
  cases hwire with
  | recv p' rest h =>
    cases ha
    rw [Role.peer_peer] at h ⊢
    rw [h, Function.update_self]
  | transmit => cases ha
  | other _ hr _ => exact absurd ha (hr p)

/-- What a step of the peer takes from what is on its way to it. -/
theorem SysMove.receiving (hm : SysMove S X.peer a S') : Receiving S X a S' := by
  have hX : S'.sess X = S.sess X := by simpa using hm.peer
  have hself := hm.wire_peer
  have reader : a = .reader → ∀ p, a ≠ .recv p := by
    rintro rfl p
    simp
  -- the packet in the hand of the read loop is gone
  have gone : ∀ p, a = .reader → (S.sess X.peer).reader.unapplied = [p] →
      (S'.sess X.peer).reader.unapplied = [] →
      S.flight X = [p].filter Packet.inOrder ++ S'.flight X := by
    intro p ha h h'
    simp only [System.flight, hX, hself (reader ha), h, h', List.filter_append,
      List.append_assoc, List.nil_append]
  cases move_input hm.move with
  | keep h ha hidle =>
    refine .keep ?_ hidle
    simp only [System.flight, hX, hself ha, List.filter_append, h]
  | recv p ha h h' =>
    refine .keep ?_ (by simp [ha])
    simp [System.flight, hX, hm.wire_recv ha, h, h']
  | drop p ha h h' why => exact .drop p ha h why (gone p ha (by rw [h]; rfl) h')
  | insert p ha h h' => exact .insert p ha h (gone p ha (by rw [h]; rfl) h')
  | deliver r p ha h h' =>
    refine .deliver r p ha h ?_
    cases hfin : p.frame.flags.fin with
    | false => exact gone p ha (by rw [h]; rfl) (by rw [h', Session.afterDeliver, hfin]; rfl)
    | true =>
      simp only [Session.afterDeliver, hfin] at h'
      simp only [System.flight, hX, hself (reader ha), h, h', if_true, List.nil_append]
      rfl
  | remoteClose r p ha h h' => exact .remoteClose r p ha h (gone p ha (by rw [h]; rfl) h')

/-- The control queues hold no ordered packet, in every run. -/
theorem system_controlUnordered {config : Role → MuxConfig} {ok : System → Role × Action → Prop}
    (h : SystemReach config ok S) (Y : Role) : ControlUnordered (S.sess Y) := by
  have hY : SessionReach Y (config Y) anyStep (S.sess Y) :=
    session_reach h (fun _ _ _ _ _ => trivial) Y
  refine Reach.invariant ControlUnordered hY ?_ fun _ _ _ _ hc _ hstep =>
    controlUnordered_move hc (step_move hstep)
  intro p hp
  cases hp

/-- What is on its way out stays there until it is put on the wire or the session closes. -/
theorem move_outgoing_stays (hm : Move s a s') (h : Outgoing s p) :
    Outgoing s' p ∨ a = .transmit p ∨ s'.closed = true := by
  cases hm with
  | sendOpen | drainSend | acceptAck | resetSend | handlePing | rejectOpen | goAwaySend | ping
  | sendServiceList => exact .inl (h.imp_left WriteQueue.holds_enqueue_of)
  | writerCheck hw | dequeueExit hw =>
    rw [Outgoing, hw] at h
    exact .inl (.inl (by simpa using h))
  | dequeue hw p' q hq =>
    left
    rw [Outgoing, hw] at h
    rcases WriteQueue.holds_cases hq (by simpa using h) with rfl | hold
    · exact .inr rfl
    · exact .inl hold
  | transmit p' hw =>
    rw [Outgoing, hw] at h
    rcases h with h | h
    · exact .inl (.inl h)
    · cases h
      exact .inr (.inl rfl)
  | transmitFail _ _ pc hpc => exact .inr (.inr (by simpa [Session.closed] using hpc))
  | closingQueue => exact .inr (.inr rfl)
  | _ => exact .inl h

/-- Only the read loop moves the read loop, except that it reads when it is idle and gives up the
delivery to a closed session. -/
theorem move_reader_other (hm : Move s a s') (ha : a ≠ .reader) :
    s'.reader = s.reader ∨ s.reader = .idle ∨ ∃ r p, s.reader = .acceptDeliver r p := by
  cases hm with
  | recv p h => exact .inr (.inl h)
  | readerClosed r p h => exact .inr (.inr ⟨r, p, h⟩)
  | _ => first | exact .inl rfl | exact absurd rfl ha

theorem SysMove.mem_wire_self (hm : SysMove S X a S') (h : p ∈ S.wire X) :
    p ∈ S'.wire X := by
  by_cases ha : ∃ q, a = .transmit q
  · obtain ⟨q, ha⟩ := ha
    rw [hm.wire_transmit ha]
    exact List.mem_append_left _ h
  · rwa [hm.wire_self fun q hq => ha ⟨q, hq⟩]

/-- A session stays closed. -/
theorem SysMove.not_closed {Z : Role} (hm : SysMove S Z a S') (h : (S'.sess X).closed = false) :
    (S.sess X).closed = false := by
  rcases hm.sess X with ⟨rfl, hmove⟩ | heq
  · cases hcl : (S.sess X).closed with
    | false => rfl
    | true => rw [← h, move_closed hmove hcl]
  · rwa [← heq]

/-- In the middle of a handler only the read loop itself moves on. -/
theorem move_reader_busy (hm : Move s a s') (ha : a ≠ .reader) (hidle : s.reader ≠ .idle)
    (hacc : ∀ r p, s.reader ≠ .acceptDeliver r p) : s'.reader = s.reader := by
  rcases move_reader_other hm ha with heq | h | ⟨r, p, h⟩
  · exact heq
  · exact absurd h hidle
  · exact absurd h (hacc r p)

/-- The packet is on the queue of `X`, in the hand of its write loop, on the wire, or just read by
the peer. -/
def EnRoute (S : System) (X : Role) (p : Packet) : Prop :=
  Outgoing (S.sess X) p ∨ p ∈ S.wire X ∨ (S.sess X.peer).reader = .frame p

/-- While the sender is open, it keeps a packet on its way. -/
theorem enRoute_send (hm : SysMove S X a S') (hopen : (S'.sess X).closed = false)
    (h : EnRoute S X p) : EnRoute S' X p := by
  unfold EnRoute
  rw [hm.peer]
  rcases h with h | h | h
  · rcases move_outgoing_stays hm.move h with h | ha | hcl
    · exact .inl h
    · exact .inr (.inl (by rw [hm.wire_transmit ha]; simp))
    · rw [hopen] at hcl
      cases hcl
  · exact .inr (.inl (hm.mem_wire_self h))
  · exact .inr (.inr h)

/-- On the side of the receiver a packet stays on its way until the read loop handles it. -/
theorem enRoute_receive (hm : SysMove S X.peer a S') (h : EnRoute S X p) :
    EnRoute S' X p ∨ a = .reader ∧ (S.sess X.peer).reader = .frame p := by
  have hX : S'.sess X = S.sess X := by simpa using hm.peer
  rcases h with h | h | h
  · exact .inl (.inl (by rwa [hX]))
  · left
    by_cases ha : ∃ q, a = .recv q
    · obtain ⟨q, rfl⟩ := ha
      rw [hm.wire_recv rfl] at h
      rcases List.mem_cons.mp h with rfl | h
      · refine .inr (.inr ?_)
        have hmove := hm.move
        generalize S'.sess X.peer = s' at hmove
        cases hmove with
        | recv => rfl
      · exact .inr (.inl h)
    · exact .inr (.inl (by rwa [hm.wire_peer fun q hq => ha ⟨q, hq⟩]))
  · by_cases ha : a = .reader
    · exact .inr ⟨ha, h⟩
    · refine .inl (.inr (.inr ?_))
      rw [move_reader_busy hm.move ha (by simp [h]) (by simp [h]), h]

end Atlax.Analysis
