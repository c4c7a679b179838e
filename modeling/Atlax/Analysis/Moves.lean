import Atlax.Model.System

/-!
# What a step can do

Inversion of the step functions, once: `CellCall` and `CellDrain` list the moves inside one cell,
`Move` lists the moves of a session, each with its guard and its effect, and `CellMove` what they
all amount to for a single cell. Every invariant of the development is proved by cases on one of
these; none unfolds `Session.step` again.
-/

set_option autoImplicit false

namespace Atlax.Analysis

open Atlax.Model

variable {a : Action} {cells : Ref → Cell} {r : Ref} {c c' : Cell}

/-- What a call on a stream does to its cell.
SOURCE: stream_impl.go:87-243 -/
inductive CellCall (c : Cell) : Call → Cell → Prop
  | writeRefused (data : Bytes) (h : c.stream.isWriteClosed = true) : CellCall c (.write data) c
  | write (data : Bytes) (h : c.stream.isWriteClosed = false) :
      CellCall c (.write data) { c with writers := c.writers ++ [data] }
  | writeSend (data : Bytes) (h : data ∈ c.writers)
      (hcap : c.stream.writeOut.length < writeOutCap) :
      CellCall c (.writeSend data) { c with
        stream := { c.stream with writeOut := c.stream.writeOut ++ [data] }
        writers := c.writers.erase data
        hist := { c.hist with wrote := c.hist.wrote ++ data } }
  | writeFail (data : Bytes) (h : data ∈ c.writers) (hcl : c.stream.closedCh = true) :
      CellCall c (.writeFail data) { c with writers := c.writers.erase data }
  | readEof (n : ℕ) (h : c.stream.readBuf = []) (hcl : c.stream.isReadClosed = true) :
      CellCall c (.read n) c
  | readBytes (n : ℕ) (h : c.stream.readBuf ≠ []) :
      CellCall c (.read n) { c with
        stream := { c.stream with readBuf := c.stream.readBuf.drop n }
        hist := { c.hist with got := c.hist.got ++ c.stream.readBuf.take n } }
  | close : CellCall c .close c.close
  | reset (code : ℕ) : CellCall c (.reset code) (c.reset code false)

theorem cell_call {k : Call} (h : c.call k = some c') : CellCall c k c' := by
  cases k with
  | write data =>
    simp only [Cell.call] at h
    split at h <;> cases h
    · exact .writeRefused data ‹_›
    · next hopen => exact .write data (by simpa using hopen)
  | writeSend data =>
    simp only [Cell.call, Option.ite_none_right_eq_some, Option.some.injEq] at h
    obtain ⟨⟨hmem, hcap⟩, rfl⟩ := h
    exact .writeSend data hmem hcap
  | writeFail data =>
    simp only [Cell.call, Option.ite_none_right_eq_some, Option.some.injEq] at h
    obtain ⟨⟨hmem, hcl⟩, rfl⟩ := h
    exact .writeFail data hmem hcl
  | read n =>
    simp only [Cell.call, StreamSession.read] at h
    by_cases hb : c.stream.readBuf = []
    · by_cases hr : c.stream.isReadClosed = true
      · simp only [hb, hr, if_true, Option.some.injEq] at h
        subst h
        exact .readEof n hb hr
      · simp [hb, hr] at h
    · simp only [hb, if_false, Option.some.injEq] at h
      subst h
      exact .readBytes n hb
  | close =>
    cases h
    exact .close
  | reset code =>
    cases h
    exact .reset code

/-- What the drain goroutine does to its cell, and the packet it queues.
SOURCE: mux_session.go:326-382 -/
inductive CellDrain (c : Cell) (sessionClosed : Bool) : Cell → Option Packet → Prop
  | take (data : Bytes) (rest : List Bytes) (flushing : Bool)
      (hpc : c.drainPc = if flushing then .flush else .select)
      (hout : c.stream.writeOut = data :: rest) :
      CellDrain c sessionClosed { c with
        stream := { c.stream with writeOut := rest }
        drainPc := .enqueue data flushing
        hist := { c.hist with drained := c.hist.drained ++ data } } none
  | takeFIN (hpc : c.drainPc = .select ∨ c.drainPc = .awaitFIN) (hfin : c.stream.finCh = true) :
      CellDrain c sessionClosed
        { c with stream := { c.stream with finCh := false }, drainPc := .flush } none
  | sawClosed (hpc : c.drainPc = .select) (hcl : c.stream.closedCh = true) :
      CellDrain c sessionClosed { c with drainPc := .sawClosed } none
  | exit (hpc : c.drainPc = .select ∨ c.drainPc = .awaitFIN) (hcl : sessionClosed = true) :
      CellDrain c sessionClosed { c with drainPc := .done } none
  | enqueue (data : Bytes) (flushing : Bool) (hpc : c.drainPc = .enqueue data flushing) :
      CellDrain c sessionClosed { c with drainPc := if flushing then .flush else .select }
        (some (c.dataPacket data))
  | stateReset (hpc : c.drainPc = .sawClosed) (hst : c.stream.state = .reset) :
      CellDrain c sessionClosed { c with drainPc := .done } none
  | stateClosed (hpc : c.drainPc = .sawClosed) (hst : c.stream.state ≠ .reset) :
      CellDrain c sessionClosed { c with drainPc := .awaitFIN } none
  | flushed (hpc : c.drainPc = .flush) (hout : c.stream.writeOut = []) :
      CellDrain c sessionClosed { c with drainPc := .sendFIN } none
  | sendFIN (hpc : c.drainPc = .sendFIN) :
      CellDrain c sessionClosed { c with drainPc := .done } (some c.closePacket)

theorem takeChunk_some {flushing : Bool} (h : c.takeChunk flushing = some c') :
    ∃ data rest, c.stream.writeOut = data :: rest ∧ c' = { c with
      stream := { c.stream with writeOut := rest }
      drainPc := .enqueue data flushing
      hist := { c.hist with drained := c.hist.drained ++ data } } := by
  unfold Cell.takeChunk at h
  split at h <;> cases h
  next data rest hout => exact ⟨data, rest, hout, rfl⟩

theorem cell_drain {b : Bool} {d : Drain} {p : Option Packet}
    (h : c.drain b d = some (c', p)) : CellDrain c b c' p := by
  cases d with
  | data =>
    simp only [Cell.drain] at h
    split at h <;> simp only [Option.map_eq_some_iff, Prod.mk.injEq, reduceCtorEq] at h
    all_goals
      obtain ⟨c₁, ht, rfl, rfl⟩ := h
      obtain ⟨data, rest, hout, rfl⟩ := takeChunk_some ht
    · exact .take data rest false (by simpa) hout
    · exact .take data rest true (by simpa) hout
  | fin =>
    simp only [Cell.drain] at h
    split at h <;> simp only [Option.map_eq_some_iff, Prod.mk.injEq, reduceCtorEq] at h
    all_goals
      obtain ⟨c₁, ht, rfl, rfl⟩ := h
      simp only [Cell.takeFIN, Option.ite_none_right_eq_some, Option.some.injEq] at ht
      obtain ⟨hfin, rfl⟩ := ht
    · exact .takeFIN (.inl ‹_›) hfin
    · exact .takeFIN (.inr ‹_›) hfin
  | closed =>
    simp only [Cell.drain, Option.ite_none_right_eq_some, Option.some.injEq, Prod.mk.injEq] at h
    obtain ⟨⟨hpc, hcl⟩, rfl, rfl⟩ := h
    exact .sawClosed hpc hcl
  | sessionClosed =>
    simp only [Cell.drain, Option.ite_none_right_eq_some, Option.some.injEq, Prod.mk.injEq] at h
    obtain ⟨⟨hpc, hcl⟩, rfl, rfl⟩ := h
    exact .exit hpc hcl
  | next =>
    simp only [Cell.drain] at h
    split at h
    · next data flushing hpc =>
      cases h
      exact .enqueue data flushing hpc
    · next hpc =>
      simp only [Option.some.injEq, Prod.mk.injEq] at h
      obtain ⟨rfl, rfl⟩ := h
      split
      · exact .stateReset hpc ‹_›
      · exact .stateClosed hpc ‹_›
    · next hpc =>
      simp only [Option.ite_none_right_eq_some, Option.some.injEq, Prod.mk.injEq] at h
      obtain ⟨hout, rfl, rfl⟩ := h
      exact .flushed hpc hout
    · next hpc =>
      cases h
      exact .sendFIN hpc
    · cases h

/-- A change of what no stream depends on: the going-away flag, the ping channel, the connection's
window and the service list. -/
@[simps] def setConn (s : Session) (goingAway : Bool) (pingCh : Option Bool) (window : ℤ)
    (list : Option (List Bytes)) : Session :=
  { s with goingAway := goingAway, pingCh := pingCh, connSendWindow := window, serviceListCh := list }

/-- A packet that no stream takes notice of: not an open, a close or a reset, and no data unless
empty. -/
def Harmless (p : Packet) : Prop :=
  p.isOpen = false ∧ p.isClose = false ∧ p.isReset = false ∧
    (p.isData = true → p.frame.payload = [] ∧ p.frame.flags.fin = false)

/-- The moves of a session. -/
inductive Move (s : Session) : Action → Session → Prop
  -- OpenStreamWithPayload up to the allocation
  | openStream (payload : Bytes) : Move s (.openStream payload) (s.setCalls (payload :: s.calls))
  | openFull (payload : Bytes) (h : payload ∈ s.calls)
      (hlen : s.config.maxConcurrentStreams ≤ s.table.streams.entries.length) :
      Move s (.openAlloc payload) (s.setCalls (s.calls.erase payload))
  | openAlloc (payload : Bytes) (h : payload ∈ s.calls)
      (hlen : s.table.streams.entries.length < s.config.maxConcurrentStreams) :
      Move s (.openAlloc payload) (((s.setCalls (s.calls.erase payload)).setTable
        (s.table.allocID.2.insert s.table.allocID.1 s.nextRef)).addCell (s.openedCell payload))
  -- the same call after the allocation
  | register (r : Ref) (hr : r < s.nextRef) (hpc : (s.cells r).openPc = .register) :
      Move s (.opening r .register) ((s.setCell r { s.cells r with openPc := .enqueue }).setPendingOpen
        (s.pendingOpen.insert (s.cells r).stream.id r))
  | sendOpen (r : Ref) (hr : r < s.nextRef) (hpc : (s.cells r).openPc = .enqueue) :
      Move s (.opening r .enqueue)
        ((s.setCell r { s.cells r with openPc := .wait, drainPc := .select }).enqueue
          (s.cells r).openPacket .data)
  | openAck (r : Ref) (hr : r < s.nextRef) (hpc : (s.cells r).openPc = .wait)
      (hch : (s.cells r).ackCh = true) :
      Move s (.opening r .ack)
        (s.setCell r { s.cells r with openPc := .returned, ackCh := false, handle := true })
  | openCancel (r : Ref) (hr : r < s.nextRef) (hpc : (s.cells r).openPc = .wait) :
      Move s (.opening r .cancel) (s.setCell r { s.cells r with openPc := .cleanup true })
  | openClosed (r : Ref) (hr : r < s.nextRef) (hpc : (s.cells r).openPc = .wait)
      (hcl : s.closed = true) :
      Move s (.opening r .sessionClosed) (s.setCell r { s.cells r with openPc := .cleanup false })
  | openCleanup (r : Ref) (hr : r < s.nextRef) (cancelled : Bool)
      (hpc : (s.cells r).openPc = .cleanup cancelled) :
      Move s (.opening r .cleanup) ((s.setCell r
          { s.cells r with openPc := if cancelled then .remove else .failed }).setPendingOpen
        (s.pendingOpen.erase (s.cells r).stream.id))
  | openRemove (r : Ref) (hr : r < s.nextRef) (hpc : (s.cells r).openPc = .remove) (found : Ref)
      (hget : s.table.get (s.cells r).stream.id = some found) :
      Move s (.opening r .remove) ((s.setCell r { s.cells r with openPc := .resetting found }).setTable
        (s.table.remove (s.cells r).stream.id))
  | openRemoveNone (r : Ref) (hr : r < s.nextRef) (hpc : (s.cells r).openPc = .remove)
      (hget : s.table.get (s.cells r).stream.id = none) :
      Move s (.opening r .remove) (s.setCell r { s.cells r with openPc := .failed })
  | openReset (r : Ref) (hr : r < s.nextRef) (found : Ref)
      (hpc : (s.cells r).openPc = .resetting found) :
      Move s (.opening r .reset) ((s.setCell r { s.cells r with openPc := .failed }).setCell found
        (((s.setCell r { s.cells r with openPc := .failed }).cells found).reset 0 false))
  | acceptStream (r : Ref) (rest : List Ref) (h : s.acceptCh = r :: rest) :
      Move s .acceptStream ((s.setCell r { s.cells r with handle := true }).setAcceptCh rest)
  -- calls on a stream and their callbacks
  | call (r : Ref) (hr : r < s.nextRef) (hh : (s.cells r).handle = true) (k : Call) (c : Cell)
      (hc : CellCall (s.cells r) k c) : Move s (.call r k) (s.setCell r c)
  | closeFin (r : Ref) (hr : r < s.nextRef) (hpc : (s.cells r).closePc = .fin)
      (hfin : (s.cells r).stream.finCh = false) :
      Move s (.callback r .closeFin) (s.setCell r { s.cells r with
        stream := { (s.cells r).stream with finCh := true }, closePc := .checkClosed })
  | closeCheckClosed (r : Ref) (hr : r < s.nextRef) (hpc : (s.cells r).closePc = .checkClosed) :
      Move s (.callback r .closeCheckClosed) (s.setCell r { s.cells r with
        closePc := if (s.cells r).stream.state = .closed then .delete else .checkReset })
  | closeCheckReset (r : Ref) (hr : r < s.nextRef) (hpc : (s.cells r).closePc = .checkReset) :
      Move s (.callback r .closeCheckReset) (s.setCell r { s.cells r with
        closePc := if (s.cells r).stream.state = .reset then .delete else .done })
  | closeDelete (r : Ref) (hr : r < s.nextRef) (hpc : (s.cells r).closePc = .delete) :
      Move s (.callback r .closeDelete) ((s.setCell r { s.cells r with closePc := .done }).setTable
        (s.table.remove (s.cells r).stream.id))
  | resetCheck (r : Ref) (hr : r < s.nextRef) (code : ℕ) (hpc : (s.cells r).resetPc = .check code) :
      Move s (.callback r .resetCheck)
        (s.setCell r { s.cells r with resetPc := if s.closed then .done else .lookup code })
  | resetLookup (r : Ref) (hr : r < s.nextRef) (code : ℕ)
      (hpc : (s.cells r).resetPc = .lookup code) :
      Move s (.callback r .resetLookup) ((s.setCell r { s.cells r with
          resetPc := if (s.table.get (s.cells r).stream.id).isSome then .send code
            else .done }).setTable (s.table.removePresent (s.cells r).stream.id))
  | resetSend (r : Ref) (hr : r < s.nextRef) (code : ℕ) (hpc : (s.cells r).resetPc = .send code) :
      Move s (.callback r .resetSend) ((s.setCell r { s.cells r with resetPc := .done }).enqueue
        ((s.cells r).resetPacket code) .control)
  | drain (r : Ref) (hr : r < s.nextRef) (d : Drain) (c : Cell)
      (hc : CellDrain (s.cells r) s.closed c none) : Move s (.drain r d) (s.setCell r c)
  | drainSend (r : Ref) (hr : r < s.nextRef) (d : Drain) (c : Cell) (p : Packet)
      (hc : CellDrain (s.cells r) s.closed c (some p)) :
      Move s (.drain r d) ((s.setCell r c).enqueue p .data)
  -- the write loop
  | writerCheck (h : s.writer = .check) :
      Move s .writerCheck (s.setWriter (if s.closed then .exited else .dequeue))
  | dequeue (h : s.writer = .dequeue) (p : Packet) (q : WriteQueue)
      (hq : s.queue.dequeue = some (p, q)) :
      Move s .dequeue ((s.setQueue q).setWriter (.write p))
  | dequeueExit (h : s.writer = .dequeue) (hcl : s.queue.closed = true) :
      Move s .dequeue (s.setWriter .exited)
  | transmit (p : Packet) (h : s.writer = .write p) (hclosing : s.closing ≠ .done) :
      Move s (.transmit p) (s.setWriter .check)
  | transmitFail (p : Packet) (h : s.writer = .write p) (pc : ClosingPc)
      (hpc : pc ≠ .running) (hcl : pc = .queue ∧ s.closing = .running ∨ pc = s.closing) :
      Move s .transmitFail ((s.setWriter .exited).setClosing pc)
  -- the read loop
  | recv (p : Packet) (h : s.reader = .idle) (hclosing : s.closing ≠ .done) :
      Move s (.recv p) (s.setReader (.frame p))
  | handleNothing (p : Packet) (h : s.reader = .frame p) (hp : Harmless p) (goingAway : Bool)
      (pingCh : Option Bool) (window : ℤ) (list : Option (List Bytes))
      (hack : p.isAck = true → s.pendingOpen.lookup p.frame.streamID = none) :
      Move s .reader ((setConn s goingAway pingCh window list).setReader .idle)
  | handleAck (p : Packet) (h : s.reader = .frame p) (hp : p.isAck = true) (r : Ref)
      (hl : s.pendingOpen.lookup p.frame.streamID = some r) :
      Move s .reader ((s.setPendingOpen (s.pendingOpen.erase p.frame.streamID)).setReader (.ackSend r))
  | handleOpenOwn (p : Packet) (h : s.reader = .frame p) (hp : p.isOpen = true)
      (hget : s.table.get p.frame.streamID = none)
      (hown : s.table.ownsID p.frame.streamID = true) :
      Move s .reader (s.setReader (.rejectOpen p))
  | handleOpen (p : Packet) (h : s.reader = .frame p) (hp : p.isOpen = true)
      (hget : s.table.get p.frame.streamID = none)
      (hown : s.table.ownsID p.frame.streamID = false) :
      Move s .reader (s.setReader (.acceptInsert p))
  | handleData (p : Packet) (h : s.reader = .frame p) (hp : p.isData = true) (r : Ref)
      (hget : s.table.get p.frame.streamID = some r) (hpay : p.frame.payload ≠ []) :
      Move s .reader (s.setReader (.deliver r p))
  | handleDataFin (p : Packet) (h : s.reader = .frame p) (hp : p.isData = true) (r : Ref)
      (hget : s.table.get p.frame.streamID = some r) (hpay : p.frame.payload = [])
      (hfin : p.frame.flags.fin = true) :
      Move s .reader (s.setReader (.remoteClose r p))
  | handleClose (p : Packet) (h : s.reader = .frame p) (hp : p.isClose = true) (r : Ref)
      (hget : s.table.get p.frame.streamID = some r) :
      Move s .reader (s.setReader (.remoteClose r p))
  | handleReset (p : Packet) (h : s.reader = .frame p) (hp : p.isReset = true) (r : Ref)
      (hget : s.table.get p.frame.streamID = some r) :
      Move s .reader (s.setReader (.resetting r p))
  | handleMiss (p : Packet) (h : s.reader = .frame p) (hget : s.table.get p.frame.streamID = none)
      (hp : p.isData = true ∨ p.isClose = true ∨ p.isReset = true) :
      Move s .reader (s.setReader .idle)
  | handleOpenActive (p : Packet) (h : s.reader = .frame p) (hp : p.isOpen = true) (r : Ref)
      (hget : s.table.get p.frame.streamID = some r) : Move s .reader (s.setReader .idle)
  | handleWindow (p : Packet) (h : s.reader = .frame p) (hp : Harmless p) (r : Ref)
      (hget : s.table.get p.frame.streamID = some r) (hack : p.isAck = false) :
      Move s .reader (s.setReader (.windowUpdate r p))
  | handlePing (p : Packet) (h : s.reader = .frame p) (hp : Harmless p) (hack : p.isAck = false) :
      Move s .reader ((s.enqueue (connPacket .pong p.frame.payload) .control).setReader .idle)
  | ackSend (r : Ref) (h : s.reader = .ackSend r) :
      Move s .reader ((s.setCell r { s.cells r with ackCh := true }).setReader .idle)
  | rejectOpen (p : Packet) (h : s.reader = .rejectOpen p) :
      Move s .reader ((s.enqueue (rejectPacket p) .control).setReader .idle)
  | acceptInsert (p : Packet) (h : s.reader = .acceptInsert p) :
      Move s .reader (((s.setTable (s.table.insert p.frame.streamID s.nextRef)).setReader
        (.acceptAck s.nextRef p)).addCell (s.acceptedCell p))
  | acceptAck (r : Ref) (p : Packet) (h : s.reader = .acceptAck r p) :
      Move s .reader ((s.enqueue (s.cells r).ackPacket .data).setReader (.acceptDeliver r p))
  | acceptDeliver (r : Ref) (p : Packet) (h : s.reader = .acceptDeliver r p) :
      Move s .reader ((s.setReader .idle).setAcceptCh (s.acceptCh ++ [r]))
  | deliver (r : Ref) (p : Packet) (h : s.reader = .deliver r p) :
      Move s .reader ((s.setCell r { s.cells r with
          stream := (s.cells r).stream.deliver p.frame.payload
          hist := { (s.cells r).hist with
            delivered := (s.cells r).hist.delivered ++ p.frame.payload } }).setReader
        (Session.afterDeliver r p))
  | remoteClose (r : Ref) (p : Packet) (h : s.reader = .remoteClose r p) :
      Move s .reader ((s.setCell r
          { s.cells r with stream := (s.cells r).stream.remoteClose }).setReader (.checkClosed r p))
  | checkClosed (r : Ref) (p : Packet) (h : s.reader = .checkClosed r p) :
      Move s .reader (s.setReader
        (if (s.cells r).stream.state = .closed then .delete r p else .checkReset r p))
  | checkReset (r : Ref) (p : Packet) (h : s.reader = .checkReset r p) :
      Move s .reader (s.setReader (if (s.cells r).stream.state = .reset then .delete r p else .idle))
  | delete (r : Ref) (p : Packet) (h : s.reader = .delete r p) :
      Move s .reader ((s.setTable (s.table.remove p.frame.streamID)).setReader .idle)
  | resetting (r : Ref) (p : Packet) (h : s.reader = .resetting r p) :
      Move s .reader ((s.setCell r ((s.cells r).reset (Session.resetCode p) true)).setReader
        (if (s.cells r).stream.reset.2 then .awaitReset r p else .resetRemove r p))
  | awaitReset (r : Ref) (p : Packet) (h : s.reader = .awaitReset r p)
      (hpc : (s.cells r).resetPc = .done) : Move s .reader (s.setReader (.resetRemove r p))
  | resetRemove (r : Ref) (p : Packet) (h : s.reader = .resetRemove r p) :
      Move s .reader ((s.setTable (s.table.removePresent p.frame.streamID)).setReader .idle)
  | windowUpdate (r : Ref) (p : Packet) (h : s.reader = .windowUpdate r p) :
      Move s .reader ((s.setCell r { s.cells r with
          stream := { (s.cells r).stream with
            recvWindow := (s.cells r).stream.recvWindow + toInt32 (uint32 p.frame.payload) } }).setReader
        .idle)
  | readerClosed (r : Ref) (p : Packet) (h : s.reader = .acceptDeliver r p) (hcl : s.closed = true) :
      Move s .readerClosed (s.setReader .idle)
  -- connection-level calls and Close
  | goAway : Move s .goAway (setConn s true s.pingCh s.connSendWindow s.serviceListCh)
  | goAwaySend (code : ℕ) (payload : Bytes) :
      Move s (.goAwaySend code) (s.enqueue (connPacket .goAway payload) .control)
  | ping (data : Bytes) :
      Move s (.ping data) ((setConn s s.goingAway (some false) s.connSendWindow
        s.serviceListCh).enqueue (connPacket .ping data) .control)
  | sendServiceList (services : List Bytes) (payload : Bytes) :
      Move s (.sendServiceList services) (s.enqueue (connPacket .serviceList payload) .control)
  | closeSession (h : s.closing = .running) : Move s .closeSession (s.setClosing .queue)
  | closingQueue (h : s.closing = .queue) :
      Move s .closing ((s.setQueue s.queue.close).setClosing .streams)
  | closingStreams (h : s.closing = .streams) :
      Move s .closing (s.resetStreams.setClosing .transport)
  | closingTransport (h : s.closing = .transport) : Move s .closing (s.setClosing .done)

variable {s s' : Session} {rd : ReaderPc}

theorem openAlloc_move {payload : Bytes} (h : payload ∈ s.calls) :
    Move s (.openAlloc payload) (s.openAlloc payload) := by
  unfold Session.openAlloc
  split
  · next hlen => exact .openFull payload h hlen
  · next hlen => exact .openAlloc payload h (Nat.lt_of_not_le hlen)

theorem opening_move {o : Opening} (hr : r < s.nextRef) (h : s.opening r o = some s') :
    Move s (.opening r o) s' := by
  cases o with
  | register =>
    simp only [Session.opening, Option.ite_none_right_eq_some, Option.some.injEq] at h
    obtain ⟨hpc, rfl⟩ := h
    exact .register r hr hpc
  | enqueue =>
    simp only [Session.opening, Option.ite_none_right_eq_some, Option.some.injEq] at h
    obtain ⟨hpc, rfl⟩ := h
    exact .sendOpen r hr hpc
  | ack =>
    simp only [Session.opening, Option.ite_none_right_eq_some, Option.some.injEq] at h
    obtain ⟨⟨hpc, hch⟩, rfl⟩ := h
    exact .openAck r hr hpc hch
  | cancel =>
    simp only [Session.opening, Option.ite_none_right_eq_some, Option.some.injEq] at h
    obtain ⟨hpc, rfl⟩ := h
    exact .openCancel r hr hpc
  | sessionClosed =>
    simp only [Session.opening, Option.ite_none_right_eq_some, Option.some.injEq] at h
    obtain ⟨⟨hpc, hcl⟩, rfl⟩ := h
    exact .openClosed r hr hpc hcl
  | cleanup =>
    simp only [Session.opening] at h
    split at h <;> cases h
    next cancelled hpc => exact .openCleanup r hr cancelled hpc
  | remove =>
    simp only [Session.opening] at h
    split at h
    · next hpc =>
      split at h <;> cases h
      · next found hget => exact .openRemove r hr hpc found hget
      · next hget => exact .openRemoveNone r hr hpc hget
    · cases h
  | reset =>
    simp only [Session.opening] at h
    split at h <;> cases h
    next found hpc => exact .openReset r hr found hpc

theorem callback_move {k : Callback} (hr : r < s.nextRef)
    (h : s.callback r k = some s') : Move s (.callback r k) s' := by
  cases k with
  | closeFin =>
    simp only [Session.callback, Option.ite_none_right_eq_some, Option.some.injEq] at h
    obtain ⟨⟨hpc, hfin⟩, rfl⟩ := h
    exact .closeFin r hr hpc hfin
  | closeCheckClosed =>
    simp only [Session.callback, Option.ite_none_right_eq_some, Option.some.injEq] at h
    obtain ⟨hpc, rfl⟩ := h
    exact .closeCheckClosed r hr hpc
  | closeCheckReset =>
    simp only [Session.callback, Option.ite_none_right_eq_some, Option.some.injEq] at h
    obtain ⟨hpc, rfl⟩ := h
    exact .closeCheckReset r hr hpc
  | closeDelete =>
    simp only [Session.callback, Option.ite_none_right_eq_some, Option.some.injEq] at h
    obtain ⟨hpc, rfl⟩ := h
    exact .closeDelete r hr hpc
  | resetCheck =>
    simp only [Session.callback] at h
    split at h <;> cases h
    next code hpc => exact .resetCheck r hr code hpc
  | resetLookup =>
    simp only [Session.callback] at h
    split at h <;> cases h
    next code hpc => exact .resetLookup r hr code hpc
  | resetSend =>
    simp only [Session.callback] at h
    split at h <;> cases h
    next code hpc => exact .resetSend r hr code hpc

theorem drain_move {d : Drain} (hr : r < s.nextRef) (h : (match (s.cells r).drain s.closed d with
      | some (c, some p) => some ((s.setCell r c).enqueue p .data)
      | some (c, none) => some (s.setCell r c)
      | none => none) = some s') : Move s (.drain r d) s' := by
  split at h <;> cases h
  · next c p hd => exact .drainSend r hr d c p (cell_drain hd)
  · next c hd => exact .drain r hr d c (cell_drain hd)

/-- The dispatch: the handler's first section.
SOURCE: mux_session.go:385-406 -/
theorem handleFrame_move {p : Packet} (h : s.reader = .frame p) :
    Move s .reader (s.handleFrame p) := by
  have nothing (hp : Harmless p)
      (hack : p.isAck = true → s.pendingOpen.lookup p.frame.streamID = none) :
      Move s .reader (s.setReader .idle) :=
    .handleNothing p h hp s.goingAway s.pingCh s.connSendWindow s.serviceListCh hack
  -- a command that names no stream operation
  have harmless (hc : p.frame.command ≠ .streamOpen ∧ p.frame.command ≠ .streamData ∧
      p.frame.command ≠ .streamClose ∧ p.frame.command ≠ .streamReset) : Harmless p := by
    simp [Harmless, Packet.isOpen, Packet.isClose, Packet.isReset, Packet.isData, hc]
  have unasked (hc : p.frame.command ≠ .streamOpen) : p.isAck = false := by
    simp [Packet.isAck, hc]
  unfold Session.handleFrame
  split
  · next hc =>
    split
    · next hack =>
      have hp : Harmless p := by
        simp [Harmless, Packet.isOpen, Packet.isClose, Packet.isReset, Packet.isData, hc, hack]
      unfold Session.handleAck
      split
      · next r hl => exact .handleAck p h (by simp [Packet.isAck, hc, hack]) r hl
      · next hl => exact nothing hp fun _ => hl
    · next hack =>
      have hopen : p.isOpen = true := by simp [Packet.isOpen, hc, hack]
      unfold Session.acceptPeerOpen
      cases hget : s.table.get p.frame.streamID with
      | some r => simpa using .handleOpenActive p h hopen r hget
      | none =>
        simp only [Option.isSome_none, Bool.false_eq_true, if_false]
        split
        · next hown => exact .handleOpenOwn p h hopen hget hown
        · next hown => exact .handleOpen p h hopen hget (by simpa using hown)
  · next hc =>
    have hdata : p.isData = true := by simp [Packet.isData, hc]
    unfold Session.lookupStream
    split
    · next r hget =>
      split
      · next hpay =>
        unfold Session.afterDeliver
        split
        · next hfin => exact .handleDataFin p h hdata r hget hpay hfin
        · next hfin =>
          exact nothing
            ⟨by simp [Packet.isOpen, hc], by simp [Packet.isClose, hc],
              by simp [Packet.isReset, hc], fun _ => ⟨hpay, by simpa using hfin⟩⟩
            (by simp [unasked, hc])
      · next hpay => exact .handleData p h hdata r hget hpay
    · next hget => exact .handleMiss p h hget (.inl hdata)
  · next hc =>
    have hclose : p.isClose = true := by simp [Packet.isClose, hc]
    unfold Session.lookupStream
    split
    · next r hget => exact .handleClose p h hclose r hget
    · next hget => exact .handleMiss p h hget (.inr (.inl hclose))
  · next hc =>
    have hreset : p.isReset = true := by simp [Packet.isReset, hc]
    unfold Session.lookupStream
    split
    · next r hget => exact .handleReset p h hreset r hget
    · next hget => exact .handleMiss p h hget (.inr (.inr hreset))
  · next hc => exact .handlePing p h (harmless (by simp [hc])) (unasked (by simp [hc]))
  · next hc =>
    exact .handleNothing p h (harmless (by simp [hc])) s.goingAway (s.pingCh.map fun _ => true)
      s.connSendWindow s.serviceListCh (by simp [unasked, hc])
  · next hc =>
    have hp := harmless (by simp [hc])
    have hack := unasked (by simp [hc])
    unfold Session.handleWindowUpdate
    split
    · exact nothing hp (by simp [hack])
    · split
      · exact .handleNothing p h hp s.goingAway s.pingCh
          (flowWindowUpdate s.connSendWindow (toInt32 (uint32 p.frame.payload))) s.serviceListCh
          (by simp [hack])
      · unfold Session.lookupStream
        split
        · next r hget => exact .handleWindow p h hp r hget hack
        · exact nothing hp (by simp [hack])
  · next hc =>
    exact .handleNothing p h (harmless (by simp [hc])) true s.pingCh s.connSendWindow s.serviceListCh
      (by simp [unasked, hc])
  · next hc =>
    exact .handleNothing p h (harmless (by simp [hc])) s.goingAway s.pingCh s.connSendWindow
      (s.serviceListCh.or _) (by simp [unasked, hc])
  · next hopen hdata hclose hreset _ _ _ _ _ =>
    exact nothing (harmless ⟨hopen, hdata, hclose, hreset⟩) (by simp [unasked hopen])

theorem readerStep_move (h : s.readerStep = some s') : Move s .reader s' := by
  unfold Session.readerStep at h
  split at h
  · cases h
  · next p hr => cases h; exact handleFrame_move hr
  · next r hr => cases h; exact .ackSend r hr
  · next p hr => cases h; exact .rejectOpen p hr
  · next p hr => cases h; exact .acceptInsert p hr
  · next r p hr => cases h; exact .acceptAck r p hr
  · next r p hr =>
    split at h <;> cases h
    exact .acceptDeliver r p hr
  · next r p hr => cases h; exact .deliver r p hr
  · next r p hr => cases h; exact .remoteClose r p hr
  · next r p hr => cases h; exact .checkClosed r p hr
  · next r p hr => cases h; exact .checkReset r p hr
  · next r p hr => cases h; exact .delete r p hr
  · next r p hr => cases h; exact .resetting r p hr
  · next r p hr =>
    split at h <;> cases h
    next hpc => exact .awaitReset r p hr hpc
  · next r p hr => cases h; exact .resetRemove r p hr
  · next r p hr => cases h; exact .windowUpdate r p hr

theorem closingStep_move (h : s.closingStep = some s') : Move s .closing s' := by
  unfold Session.closingStep at h
  split at h <;> cases h
  · next hc => exact .closingQueue hc
  · next hc => exact .closingStreams hc
  · next hc => exact .closingTransport hc

/-- Every step is one of the moves. -/
theorem step_move (h : s.step a = some s') : Move s a s' := by
  cases a with
  | openStream payload =>
    simp only [Session.step, Option.ite_none_left_eq_some, Option.some.injEq] at h
    obtain ⟨-, rfl⟩ := h
    exact .openStream payload
  | openAlloc payload =>
    simp only [Session.step, Option.ite_none_right_eq_some, Option.some.injEq] at h
    obtain ⟨hmem, rfl⟩ := h
    exact openAlloc_move hmem
  | opening r o =>
    simp only [Session.step, Option.ite_none_right_eq_some] at h
    exact opening_move h.1 h.2
  | acceptStream =>
    simp only [Session.step] at h
    split at h <;> cases h
    next r rest hch => exact .acceptStream r rest hch
  | call r k =>
    simp only [Session.step, Option.ite_none_right_eq_some, Option.map_eq_some_iff] at h
    obtain ⟨⟨hr, hh⟩, c, hc, rfl⟩ := h
    exact .call r hr hh k c (cell_call hc)
  | callback r k =>
    simp only [Session.step, Option.ite_none_right_eq_some] at h
    exact callback_move h.1 h.2
  | drain r d =>
    simp only [Session.step, Option.ite_none_right_eq_some] at h
    exact drain_move h.1 h.2
  | writerCheck =>
    simp only [Session.step, Option.ite_none_right_eq_some, Option.some.injEq] at h
    obtain ⟨hw, rfl⟩ := h
    exact .writerCheck hw
  | dequeue =>
    simp only [Session.step, Option.ite_none_right_eq_some] at h
    obtain ⟨hw, h⟩ := h
    split at h
    · next p q hq => cases h; exact .dequeue hw p q hq
    · split at h <;> cases h
      exact .dequeueExit hw ‹_›
  | transmit p =>
    simp only [Session.step, Option.ite_none_right_eq_some, Option.some.injEq] at h
    obtain ⟨⟨hw, -, hcl⟩, rfl⟩ := h
    exact .transmit p hw hcl
  | transmitFail =>
    simp only [Session.step] at h
    split at h
    · next p hw =>
      split at h <;> cases h
      refine .transmitFail p hw _ ?_ ?_
      · split <;> simp_all
      · split <;> simp_all
    · cases h
  | recv p =>
    simp only [Session.step, Option.ite_none_right_eq_some, Option.some.injEq] at h
    obtain ⟨⟨hr, hcl⟩, rfl⟩ := h
    exact .recv p hr hcl
  | reader => exact readerStep_move h
  | readerClosed =>
    simp only [Session.step] at h
    split at h
    · next r p hr =>
      split at h <;> cases h
      next hcl => exact .readerClosed r p hr hcl
    · cases h
  | goAway =>
    cases h
    exact .goAway
  | goAwaySend code =>
    cases h
    exact .goAwaySend code _
  | ping data =>
    cases h
    exact .ping data
  | sendServiceList services =>
    simp only [Session.step, Session.sendServiceList, Option.ite_none_left_eq_some,
      Option.some.injEq] at h
    obtain ⟨-, rfl⟩ := h
    exact .sendServiceList services _
  | closeSession =>
    simp only [Session.step, Option.ite_none_right_eq_some, Option.some.injEq] at h
    obtain ⟨hc, rfl⟩ := h
    exact .closeSession hc
  | closing => exact closingStep_move h

/-- What the step `a` of a session whose read loop stands at `rd` can do to the cell `c` of stream
`r`; the guards are those that are about the cell. -/
inductive CellMove (a : Action) (rd : ReaderPc) (r : Ref) (c : Cell) : Cell → Prop
  | same : CellMove a rd r c c
  | register (hpc : c.openPc = .register) : CellMove a rd r c { c with openPc := .enqueue }
  | sendOpen (ha : a = .opening r .enqueue) (hpc : c.openPc = .enqueue) :
      CellMove a rd r c { c with openPc := .wait, drainPc := .select }
  | openAck (hpc : c.openPc = .wait) (hch : c.ackCh = true) :
      CellMove a rd r c { c with openPc := .returned, ackCh := false, handle := true }
  | openCancel (hpc : c.openPc = .wait) : CellMove a rd r c { c with openPc := .cleanup true }
  | openClosed (hpc : c.openPc = .wait) : CellMove a rd r c { c with openPc := .cleanup false }
  | openCleanup (cancelled : Bool) (hpc : c.openPc = .cleanup cancelled) :
      CellMove a rd r c { c with openPc := if cancelled then .remove else .failed }
  | openRemove (found : Ref) (hpc : c.openPc = .remove) :
      CellMove a rd r c { c with openPc := .resetting found }
  | openRemoveNone (hpc : c.openPc = .remove) : CellMove a rd r c { c with openPc := .failed }
  | openFailed (found : Ref) (hpc : c.openPc = .resetting found) :
      CellMove a rd r c { c with openPc := .failed }
  | openFailedReset (hpc : c.openPc = .resetting r) :
      CellMove a rd r c ({ c with openPc := .failed }.reset 0 false)
  | accept : CellMove a rd r c { c with handle := true }
  | call (k : Call) (c' : Cell) (ha : a = .call r k) (hh : c.handle = true) (hc : CellCall c k c') :
      CellMove a rd r c c'
  | closeFin (hpc : c.closePc = .fin) (hfin : c.stream.finCh = false) :
      CellMove a rd r c
        { c with stream := { c.stream with finCh := true }, closePc := .checkClosed }
  | closeCheckClosed (hpc : c.closePc = .checkClosed) :
      CellMove a rd r c { c with
        closePc := if c.stream.state = .closed then .delete else .checkReset }
  | closeCheckReset (hpc : c.closePc = .checkReset) :
      CellMove a rd r c { c with closePc := if c.stream.state = .reset then .delete else .done }
  | closeDelete (ha : a = .callback r .closeDelete) (hpc : c.closePc = .delete) :
      CellMove a rd r c { c with closePc := .done }
  | resetCheck (code : ℕ) (ha : a = .callback r .resetCheck) (hpc : c.resetPc = .check code)
      (closed : Bool) : CellMove a rd r c { c with resetPc := if closed then .done else .lookup code }
  | resetLookup (code : ℕ) (ha : a = .callback r .resetLookup) (hpc : c.resetPc = .lookup code)
      (exist : Bool) : CellMove a rd r c { c with resetPc := if exist then .send code else .done }
  | resetSend (code : ℕ) (ha : a = .callback r .resetSend) (hpc : c.resetPc = .send code) :
      CellMove a rd r c { c with resetPc := .done }
  | drain (d : Drain) (b : Bool) (c' : Cell) (p : Option Packet) (ha : a = .drain r d)
      (hc : CellDrain c b c' p) : CellMove a rd r c c'
  | ackSend : CellMove a rd r c { c with ackCh := true }
  | deliver (p : Packet) (ha : a = .reader) (h : rd = .deliver r p) :
      CellMove a rd r c { c with
        stream := c.stream.deliver p.frame.payload
        hist := { c.hist with delivered := c.hist.delivered ++ p.frame.payload } }
  | remoteClose (p : Packet) (ha : a = .reader) (h : rd = .remoteClose r p) :
      CellMove a rd r c { c with stream := c.stream.remoteClose }
  | resetLocal (ha : a = .closing ∨ ∃ r₀, a = .opening r₀ .reset) :
      CellMove a rd r c (c.reset 0 false)
  | resetFrame (p : Packet) (ha : a = .reader) (h : rd = .resetting r p) :
      CellMove a rd r c (c.reset (Session.resetCode p) true)
  | windowUpdate (increment : ℤ) :
      CellMove a rd r c { c with
        stream := { c.stream with recvWindow := c.stream.recvWindow + increment } }

/-- One cell is replaced by what its move makes of it, the others stay. -/
theorem cellMove_update {c : Cell} (h : CellMove a rd r (cells r) c) (r' : Ref) :
    CellMove a rd r' (cells r') (Function.update cells r c r') := by
  by_cases hr : r' = r
  · subst hr
    rw [Function.update_self]
    exact h
  · rw [Function.update_of_ne hr]
    exact .same

theorem cellMove_addCell {r n : Ref} (c : Cell)
    (h : r < n) : CellMove a rd r (cells r) (Function.update cells n c r) := by
  rw [Function.update_of_ne (Nat.ne_of_lt h)]
  exact .same

/-- The open that has reset the stream it found: that stream may be its own. -/
theorem cellMove_openReset {r found : Ref}
    (hpc : (cells r).openPc = .resetting found) (r' : Ref) :
    let cells₁ := Function.update cells r { cells r with openPc := .failed }
    CellMove (.opening r .reset) rd r' (cells r')
      (Function.update cells₁ found ((cells₁ found).reset 0 false) r') := by
  intro cells₁
  by_cases hf : r' = found
  · subst hf
    rw [Function.update_self]
    by_cases hr : r' = r
    · subst hr
      rw [show cells₁ r' = { cells r' with openPc := .failed } from Function.update_self ..]
      exact .openFailedReset hpc
    · rw [show cells₁ r' = cells r' from Function.update_of_ne hr ..]
      exact .resetLocal (.inr ⟨r, rfl⟩)
  · rw [Function.update_of_ne hf]
    exact cellMove_update (.openFailed found hpc) r'

/-- Every stream on the heap makes one of the cell moves, most of them none. -/
theorem move_cell (hm : Move s a s') (hr : r < s.nextRef) :
    CellMove a s.reader r (s.cells r) (s'.cells r) := by
  cases hm with
  | openAlloc | acceptInsert => exact cellMove_addCell _ hr
  | register _ _ hpc => exact cellMove_update (.register hpc) r
  | sendOpen _ _ hpc => exact cellMove_update (.sendOpen rfl hpc) r
  | openAck _ _ hpc hch => exact cellMove_update (.openAck hpc hch) r
  | openCancel _ _ hpc => exact cellMove_update (.openCancel hpc) r
  | openClosed _ _ hpc => exact cellMove_update (.openClosed hpc) r
  | openCleanup _ _ cancelled hpc => exact cellMove_update (.openCleanup cancelled hpc) r
  | openRemove _ _ hpc found => exact cellMove_update (.openRemove found hpc) r
  | openRemoveNone _ _ hpc => exact cellMove_update (.openRemoveNone hpc) r
  | openReset _ _ found hpc => exact cellMove_openReset hpc r
  | acceptStream => exact cellMove_update .accept r
  | call _ _ hh k c hc => exact cellMove_update (.call k c rfl hh hc) r
  | closeFin _ _ hpc hfin => exact cellMove_update (.closeFin hpc hfin) r
  | closeCheckClosed _ _ hpc => exact cellMove_update (.closeCheckClosed hpc) r
  | closeCheckReset _ _ hpc => exact cellMove_update (.closeCheckReset hpc) r
  | closeDelete _ _ hpc => exact cellMove_update (.closeDelete rfl hpc) r
  | resetCheck _ _ code hpc => exact cellMove_update (.resetCheck code rfl hpc s.closed) r
  | resetLookup _ _ code hpc => exact cellMove_update (.resetLookup code rfl hpc _) r
  | resetSend _ _ code hpc => exact cellMove_update (.resetSend code rfl hpc) r
  | drain _ _ d c hc => exact cellMove_update (.drain d _ c none rfl hc) r
  | drainSend _ _ d c p hc => exact cellMove_update (.drain d _ c (some p) rfl hc) r
  | ackSend => exact cellMove_update .ackSend r
  | deliver _ p hrd => exact cellMove_update (.deliver p rfl hrd) r
  | remoteClose _ p hrd => exact cellMove_update (.remoteClose p rfl hrd) r
  | resetting _ p hrd => exact cellMove_update (.resetFrame p rfl hrd) r
  | windowUpdate => exact cellMove_update (.windowUpdate _) r
  | closingStreams =>
    simp only [Session.setClosing_cells, Session.resetStreams_cells]
    split
    · exact .resetLocal (.inl rfl)
    · exact .same
  | _ => exact .same

/-- How the step `a` from `s` to `s'` can move the read loop, with what the loop has seen or done on
the way. -/
inductive ReaderMove (s : Session) (a : Action) (s' : Session) : ReaderPc → ReaderPc → Prop
  | stay (pc : ReaderPc) : ReaderMove s a s' pc pc
  | recv (p : Packet) (ha : a = .recv p) : ReaderMove s a s' .idle (.frame p)
  | finish (pc : ReaderPc) : ReaderMove s a s' pc .idle
  -- the handler's first section
  | ack (p : Packet) (r : Ref) (hp : p.isAck = true)
      (hl : s.pendingOpen.lookup p.frame.streamID = some r) :
      ReaderMove s a s' (.frame p) (.ackSend r)
  | reject (p : Packet) (hp : p.isOpen = true) (hown : s.table.ownsID p.frame.streamID = true) :
      ReaderMove s a s' (.frame p) (.rejectOpen p)
  | accept (p : Packet) (hp : p.isOpen = true) (hget : s.table.get p.frame.streamID = none)
      (hown : s.table.ownsID p.frame.streamID = false) :
      ReaderMove s a s' (.frame p) (.acceptInsert p)
  | data (p : Packet) (r : Ref) (hp : p.isData = true)
      (hget : s.table.get p.frame.streamID = some r) :
      ReaderMove s a s' (.frame p) (.deliver r p)
  | close (p : Packet) (r : Ref)
      (hp : p.isData = true ∧ p.frame.flags.fin = true ∨ p.isClose = true)
      (hget : s.table.get p.frame.streamID = some r) :
      ReaderMove s a s' (.frame p) (.remoteClose r p)
  | reset (p : Packet) (r : Ref) (hp : p.isReset = true)
      (hget : s.table.get p.frame.streamID = some r) :
      ReaderMove s a s' (.frame p) (.resetting r p)
  | window (p : Packet) (r : Ref) (hget : s.table.get p.frame.streamID = some r) :
      ReaderMove s a s' (.frame p) (.windowUpdate r p)
  -- the sections after it
  | insert (p : Packet) (hn : s'.nextRef = s.nextRef + 1)
      (hc : s'.cells s.nextRef = s.acceptedCell p) :
      ReaderMove s a s' (.acceptInsert p) (.acceptAck s.nextRef p)
  | announce (r : Ref) (p : Packet) : ReaderMove s a s' (.acceptAck r p) (.acceptDeliver r p)
  | fin (r : Ref) (p : Packet) (hfin : p.frame.flags.fin = true) :
      ReaderMove s a s' (.deliver r p) (.remoteClose r p)
  | remoteClosed (r : Ref) (p : Packet) : ReaderMove s a s' (.remoteClose r p) (.checkClosed r p)
  | notClosed (r : Ref) (p : Packet) : ReaderMove s a s' (.checkClosed r p) (.checkReset r p)
  | isClosed (r : Ref) (p : Packet) (hst : (s'.cells r).stream.state = .closed) :
      ReaderMove s a s' (.checkClosed r p) (.delete r p)
  | isReset (r : Ref) (p : Packet) (hst : (s'.cells r).stream.state = .reset) :
      ReaderMove s a s' (.checkReset r p) (.delete r p)
  | notify (r : Ref) (p : Packet) (hn : (s.cells r).stream.reset.2 = true)
      (hc : s'.cells r = (s.cells r).reset (Session.resetCode p) true) :
      ReaderMove s a s' (.resetting r p) (.awaitReset r p)
  | silent (r : Ref) (p : Packet) (hc : s'.cells r = (s.cells r).reset (Session.resetCode p) true) :
      ReaderMove s a s' (.resetting r p) (.resetRemove r p)
  | notified (r : Ref) (p : Packet) : ReaderMove s a s' (.awaitReset r p) (.resetRemove r p)

/-- A step moves the read loop in one of these ways. -/
theorem move_readerPc (hm : Move s a s') : ReaderMove s a s' s.reader s'.reader := by
  cases hm with
  | recv p h => exact h ▸ .recv p rfl
  | handleNothing | handleMiss | handleOpenActive | handlePing | ackSend | rejectOpen
  | acceptDeliver | delete | resetRemove | windowUpdate | readerClosed => exact .finish s.reader
  | handleAck p h hp r hl => exact h ▸ .ack p r hp hl
  | handleOpenOwn p h hp _ hown => exact h ▸ .reject p hp hown
  | handleOpen p h hp hget hown => exact h ▸ .accept p hp hget hown
  | handleData p h hp r hget => exact h ▸ .data p r hp hget
  | handleDataFin p h hp r hget _ hfin => exact h ▸ .close p r (.inl ⟨hp, hfin⟩) hget
  | handleClose p h hp r hget => exact h ▸ .close p r (.inr hp) hget
  | handleReset p h hp r hget => exact h ▸ .reset p r hp hget
  | handleWindow p h _ r hget => exact h ▸ .window p r hget
  | acceptInsert p h => exact h ▸ .insert p rfl (by simp)
  | acceptAck r p h => exact h ▸ .announce r p
  | deliver r p h =>
    rw [h, Session.setReader_reader, Session.afterDeliver]
    split
    · next hfin => exact .fin r p hfin
    · exact .finish _
  | remoteClose r p h => exact h ▸ .remoteClosed r p
  | checkClosed r p h =>
    rw [h, Session.setReader_reader]
    split
    · next hst => exact .isClosed r p hst
    · exact .notClosed r p
  | checkReset r p h =>
    rw [h, Session.setReader_reader]
    split
    · next hst => exact .isReset r p hst
    · exact .finish _
  | resetting r p h =>
    rw [h, Session.setReader_reader]
    split
    · next hn => exact .notify r p hn (by simp)
    · exact .silent r p (by simp)
  | awaitReset r p h => exact h ▸ .notified r p
  | _ => exact .stay s.reader

end Atlax.Analysis
