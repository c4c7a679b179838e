import Atlax.Model.StreamTable
import Atlax.Model.WriteQueue
import Mathlib.Algebra.Group.Int.Defs
import Mathlib.Logic.Function.Basic
import Mathlib.Tactic.Simps.Basic

/-!
# One session

`MuxSession` (mux_session.go) as a step function. A step is one section under a mutex, one
operation on a channel or on the write queue, or one test of an atomic flag or of closeCh. The
state holds the heap of streams (`cells`), the stream table, the pending opens, the write queue
and the program counters of the session's own goroutines: the read loop, the write loop and
Close.

The peer is not part of this file: `recv p` is the read loop reading any packet at all, and
`transmit p` is the write loop putting a packet on the wire. `Atlax.Model.System` joins two
sessions.
-/

set_option autoImplicit false

namespace Atlax.Model

/-- The fields of the configuration that the session reads.
SOURCE: mux.go:30-37 -/
structure MuxConfig where
  maxConcurrentStreams : ℕ
  initialStreamWindow : ℤ
  connectionWindow : ℤ
  deriving DecidableEq, Repr

/-- Where the read loop stands: idle, or in the handler of the packet it has read.
SOURCE: mux_session.go:277-292, 385-564 -/
inductive ReaderPc
  | idle
  /-- read, before the handler's first section -/
  | frame (p : Packet)
  /-- before the send on the ackCh of the pending open -/
  | ackSend (r : Ref)
  /-- before the STREAM_RESET that refuses a STREAM_OPEN is queued -/
  | rejectOpen (p : Packet)
  /-- before the peer's stream is inserted -/
  | acceptInsert (p : Packet)
  /-- before the ACK is queued -/
  | acceptAck (r : Ref) (p : Packet)
  /-- before the stream is sent on acceptCh -/
  | acceptDeliver (r : Ref) (p : Packet)
  | deliver (r : Ref) (p : Packet)
  | remoteClose (r : Ref) (p : Packet)
  /-- the tests and the section of `maybeRemoveStream` -/
  | checkClosed (r : Ref) (p : Packet)
  | checkReset (r : Ref) (p : Packet)
  | delete (r : Ref) (p : Packet)
  /-- before `s.Reset(code)` of `handleStreamReset` -/
  | resetting (r : Ref) (p : Packet)
  /-- inside that call, until its callback has returned -/
  | awaitReset (r : Ref) (p : Packet)
  /-- before the last section of `handleStreamReset` -/
  | resetRemove (r : Ref) (p : Packet)
  /-- before the stream's window is changed -/
  | windowUpdate (r : Ref) (p : Packet)
  deriving DecidableEq, Repr

/-- The stream the read loop works on, with the packet it works for. -/
def ReaderPc.stream : ReaderPc → Option (Ref × Packet)
  | .acceptAck r p | .acceptDeliver r p | .deliver r p | .remoteClose r p | .checkClosed r p
  | .checkReset r p | .delete r p | .resetting r p | .awaitReset r p | .resetRemove r p
  | .windowUpdate r p => some (r, p)
  | .idle | .frame _ | .ackSend _ | .rejectOpen _ | .acceptInsert _ => none

/-- The packet the read loop works for; the ACK itself is forgotten once its channel is found. -/
def ReaderPc.packet : ReaderPc → Option Packet
  | .frame p | .rejectOpen p | .acceptInsert p | .acceptAck _ p | .acceptDeliver _ p
  | .deliver _ p | .remoteClose _ p | .checkClosed _ p | .checkReset _ p | .delete _ p
  | .resetting _ p | .awaitReset _ p | .resetRemove _ p | .windowUpdate _ p => some p
  | .idle | .ackSend _ => none

/-- Where the write loop stands.
SOURCE: mux_session.go:295-320 -/
inductive WriterPc
  /-- before the test of closeCh -/
  | check
  | dequeue
  /-- with a packet in hand -/
  | write (p : Packet)
  | exited
  deriving DecidableEq, Repr

/-- Where Close stands; `running` is before closeCh is closed.
SOURCE: mux_session.go:190-205 -/
inductive ClosingPc
  | running
  | queue
  | streams
  | transport
  | done
  deriving DecidableEq, Repr

/-- SOURCE: mux_session.go:33-67 -/
structure Session where
  role : Role
  config : MuxConfig
  table : StreamTable
  cells : Ref → Cell
  nextRef : Ref := 0
  /-- `OpenStreamWithPayload` calls that have passed the test of goingAway -/
  calls : List Bytes := []
  pendingOpen : AList (fun _ : ℕ => Ref) := ∅
  acceptCh : List Ref := []
  goingAway : Bool := false
  /-- the channel of the last Ping, if any, and whether it holds its token -/
  pingCh : Option Bool := none
  connSendWindow : ℤ
  serviceListCh : Option (List Bytes) := none
  queue : WriteQueue := {}
  writer : WriterPc := .check
  reader : ReaderPc := .idle
  closing : ClosingPc := .running

/-- SOURCE: mux_session.go:73-102 -/
def newMuxSession (role : Role) (config : MuxConfig) : Session where
  role := role
  config := config
  table := newStreamTable role
  cells := fun _ => { stream := { id := 0 } }
  -- `int32(config.ConnectionWindow)`
  connSendWindow := config.connectionWindow.bmod (2 ^ 32)

/-- The steps of an `OpenStreamWithPayload` call after the stream exists. -/
inductive Opening
  | register
  | enqueue
  /-- the select takes ackCh -/
  | ack
  /-- the select takes ctx.Done -/
  | cancel
  /-- the select takes closeCh -/
  | sessionClosed
  | cleanup
  | remove
  | reset
  deriving DecidableEq, Repr

/-- The steps of the callbacks that Close and Reset leave behind. -/
inductive Callback
  | closeFin
  | closeCheckClosed
  | closeCheckReset
  | closeDelete
  | resetCheck
  | resetLookup
  | resetSend
  deriving DecidableEq, Repr

/-- The steps of a session. -/
inductive Action
  | openStream (payload : Bytes)
  | openAlloc (payload : Bytes)
  | opening (r : Ref) (o : Opening)
  | acceptStream
  | call (r : Ref) (k : Call)
  | callback (r : Ref) (k : Callback)
  | drain (r : Ref) (d : Drain)
  /-- the write loop's test of closeCh -/
  | writerCheck
  | dequeue
  | transmit (p : Packet)
  /-- WriteFrame refuses the packet in hand -/
  | transmitFail
  | recv (p : Packet)
  | reader
  /-- the select in `handleStreamOpen` takes closeCh -/
  | readerClosed
  | goAway
  | goAwaySend (code : ℕ)
  | ping (data : Bytes)
  | sendServiceList (services : List Bytes)
  | closeSession
  | closing
  deriving DecidableEq, Repr

-- instances by cases are computed with `casesOn`
attribute [induction_eliminator] Action.casesOn ReaderPc.casesOn Opening.casesOn Call.casesOn
  Callback.casesOn

/-- SOURCE: mux_session.go:19 -/
def maxServiceListCount : ℕ := 1024

/-- SOURCE: window.go:11 -/
def maxWindowSize : ℤ := 2 ^ 31 - 1

/-- `int32(x)` of a uint32. -/
def toInt32 (n : ℕ) : ℤ := if n % 2 ^ 32 < 2 ^ 31 then n % 2 ^ 32 else (n % 2 ^ 32 : ℤ) - 2 ^ 32

/-- `FlowWindow.Update`.
SOURCE: window.go:63-80 -/
def flowWindowUpdate (available increment : ℤ) : ℤ :=
  if increment ≤ 0 then available
  else if available + increment > maxWindowSize then available
  else available + increment

/-- A frame about the connection: stream 0 and no conversation. -/
def connPacket (command : Command) (payload : Bytes) : Packet :=
  ⟨{ command := command, streamID := 0, payload := payload }, none⟩

/-- The STREAM_RESET that refuses a STREAM_OPEN in the local parity space.
SOURCE: mux_session.go:746-753 -/
def rejectPacket (p : Packet) : Packet where
  frame :=
    { command := .streamReset
      streamID := p.frame.streamID
      payload := putUint32 resetCodeProtocolError }
  conv := p.conv

namespace Session

variable (s : Session)

/-- closeCh is closed. -/
def closed : Bool := s.closing != .running

/-- The section of one mutex changes one part of the state; these name the parts. -/
@[simps] def setCell (r : Ref) (c : Cell) : Session :=
  { s with cells := Function.update s.cells r c }

/-- A new stream on the heap. -/
@[simps] def addCell (c : Cell) : Session :=
  { s with cells := Function.update s.cells s.nextRef c, nextRef := s.nextRef + 1 }

@[simps] def setTable (t : StreamTable) : Session := { s with table := t }

@[simps] def setCalls (calls : List Bytes) : Session := { s with calls := calls }

@[simps] def setPendingOpen (m : AList (fun _ : ℕ => Ref)) : Session := { s with pendingOpen := m }

@[simps] def setReader (pc : ReaderPc) : Session := { s with reader := pc }

@[simps] def setWriter (pc : WriterPc) : Session := { s with writer := pc }

@[simps] def setQueue (q : WriteQueue) : Session := { s with queue := q }

@[simps] def setAcceptCh (ch : List Ref) : Session := { s with acceptCh := ch }

@[simps] def setClosing (pc : ClosingPc) : Session := { s with closing := pc }

@[simps!] def enqueue (p : Packet) (priority : Priority) : Session :=
  s.setQueue (s.queue.enqueue p priority)

/-- The stream an open makes.
SOURCE: mux_session.go:131-139 -/
def openedCell (payload : Bytes) : Cell where
  stream := (newStreamSession s.table.allocID.1 s.config.initialStreamWindow).opened
  conv := some ⟨s.role, s.nextRef⟩
  openPc := .register
  hist := { openArg := payload }

/-- The m.mu section of an open: the limit, the identifier, the stream, the map.
SOURCE: mux_session.go:116-141 -/
def openAlloc (payload : Bytes) : Session :=
  if s.table.streams.entries.length ≥ s.config.maxConcurrentStreams then
    s.setCalls (s.calls.erase payload)
  else
    ((s.setCalls (s.calls.erase payload)).setTable
      (s.table.allocID.2.insert s.table.allocID.1 s.nextRef)).addCell (s.openedCell payload)

/-- An open after its stream exists: registration, STREAM_OPEN, the select, and the two ways out of
it that fail.
SOURCE: mux_session.go:143-171, 651-666, 761-765 -/
def opening (r : Ref) : Opening → Option Session
  | .register =>
    if (s.cells r).openPc = .register then
      some ((s.setCell r { s.cells r with openPc := .enqueue }).setPendingOpen
        (s.pendingOpen.insert (s.cells r).stream.id r))
    else none
  | .enqueue =>
    -- the drain goroutine starts here too
    if (s.cells r).openPc = .enqueue then
      some ((s.setCell r { s.cells r with openPc := .wait, drainPc := .select }).enqueue
        (s.cells r).openPacket .data)
    else none
  | .ack =>
    if (s.cells r).openPc = .wait ∧ (s.cells r).ackCh then
      some (s.setCell r { s.cells r with openPc := .returned, ackCh := false, handle := true })
    else none
  | .cancel =>
    if (s.cells r).openPc = .wait then
      some (s.setCell r { s.cells r with openPc := .cleanup true })
    else none
  | .sessionClosed =>
    if (s.cells r).openPc = .wait ∧ s.closed then
      some (s.setCell r { s.cells r with openPc := .cleanup false })
    else none
  | .cleanup =>
    match (s.cells r).openPc with
    | .cleanup cancelled =>
      some ((s.setCell r
          { s.cells r with openPc := if cancelled then .remove else .failed }).setPendingOpen
        (s.pendingOpen.erase (s.cells r).stream.id))
    | _ => none
  | .remove =>
    if (s.cells r).openPc = .remove then
      match s.table.get (s.cells r).stream.id with
      | some found =>
        some ((s.setCell r { s.cells r with openPc := .resetting found }).setTable
          (s.table.remove (s.cells r).stream.id))
      | none => some (s.setCell r { s.cells r with openPc := .failed })
    else none
  | .reset =>
    match (s.cells r).openPc with
    | .resetting found =>
      let s' := s.setCell r { s.cells r with openPc := .failed }
      some (s'.setCell found ((s'.cells found).reset 0 false))
    | _ => none

/-- What is left of a Close or a Reset after the stream's mutex is released.
SOURCE: stream_impl.go:170-177, mux_session.go:641-648, 680-714 -/
def callback (r : Ref) : Callback → Option Session
  | .closeFin =>
    if (s.cells r).closePc = .fin ∧ (s.cells r).stream.finCh = false then
      some (s.setCell r { s.cells r with
        stream := { (s.cells r).stream with finCh := true }, closePc := .checkClosed })
    else none
  | .closeCheckClosed =>
    if (s.cells r).closePc = .checkClosed then
      some (s.setCell r { s.cells r with
        closePc := if (s.cells r).stream.state = .closed then .delete else .checkReset })
    else none
  | .closeCheckReset =>
    if (s.cells r).closePc = .checkReset then
      some (s.setCell r { s.cells r with
        closePc := if (s.cells r).stream.state = .reset then .delete else .done })
    else none
  | .closeDelete =>
    if (s.cells r).closePc = .delete then
      some ((s.setCell r { s.cells r with closePc := .done }).setTable
        (s.table.remove (s.cells r).stream.id))
    else none
  | .resetCheck =>
    match (s.cells r).resetPc with
    | .check code =>
      some (s.setCell r { s.cells r with resetPc := if s.closed then .done else .lookup code })
    | _ => none
  | .resetLookup =>
    match (s.cells r).resetPc with
    | .lookup code =>
      some ((s.setCell r { s.cells r with
          resetPc := if (s.table.get (s.cells r).stream.id).isSome then .send code else .done }).setTable
        (s.table.removePresent (s.cells r).stream.id))
    | _ => none
  | .resetSend =>
    match (s.cells r).resetPc with
    | .send code =>
      some ((s.setCell r { s.cells r with resetPc := .done }).enqueue
        ((s.cells r).resetPacket code) .control)
    | _ => none

/-- The lookup that handlers of stream frames start with. -/
def lookupStream (p : Packet) (found : Ref → ReaderPc) : Session :=
  match s.table.get p.frame.streamID with
  | some r => s.setReader (found r)
  | none => s.setReader .idle

/-- What `handleStreamData` does after the delivery.
SOURCE: mux_session.go:474-477 -/
def afterDeliver (r : Ref) (p : Packet) : ReaderPc :=
  if p.frame.flags.fin then .remoteClose r p else .idle

/-- SOURCE: mux_session.go:409-425 -/
def handleAck (p : Packet) : Session :=
  match s.pendingOpen.lookup p.frame.streamID with
  | some r => (s.setPendingOpen (s.pendingOpen.erase p.frame.streamID)).setReader (.ackSend r)
  | none => s.setReader .idle

/-- SOURCE: mux_session.go:736-758 -/
def acceptPeerOpen (p : Packet) : Session :=
  if (s.table.get p.frame.streamID).isSome then s.setReader .idle
  else if s.table.ownsID p.frame.streamID then s.setReader (.rejectOpen p)
  else s.setReader (.acceptInsert p)

/-- SOURCE: mux_session.go:577-605 -/
def handleServiceList (p : Packet) : Session :=
  let services :=
    if p.frame.payload = [] then []
    else ((p.frame.payload.splitOn 10).take maxServiceListCount).filter (· ≠ [])
  { s.setReader .idle with serviceListCh := s.serviceListCh.or (some services) }

/-- SOURCE: mux_session.go:537-559 -/
def handleWindowUpdate (p : Packet) : Session :=
  if p.frame.payload.length < 4 then s.setReader .idle
  else if p.frame.streamID = 0 then
    { s.setReader .idle with
      connSendWindow := flowWindowUpdate s.connSendWindow (toInt32 (uint32 p.frame.payload)) }
  else s.lookupStream p (.windowUpdate · p)

/-- The dispatch and the first section of the handler it picks.
SOURCE: mux_session.go:385-406 -/
def handleFrame (p : Packet) : Session :=
  match p.frame.command with
  | .streamOpen => if p.frame.flags.ack then s.handleAck p else s.acceptPeerOpen p
  | .streamData =>
    s.lookupStream p fun r => if p.frame.payload = [] then afterDeliver r p else .deliver r p
  | .streamClose => s.lookupStream p (.remoteClose · p)
  | .streamReset => s.lookupStream p (.resetting · p)
  | .ping =>
    (s.enqueue (connPacket .pong p.frame.payload) .control).setReader .idle
  | .pong => { s.setReader .idle with pingCh := s.pingCh.map fun _ => true }
  | .windowUpdate => s.handleWindowUpdate p
  | .goAway => { s.setReader .idle with goingAway := true }
  | .serviceList => s.handleServiceList p
  | _ => s.setReader .idle

/-- The stream `handleStreamOpen` makes for a peer's STREAM_OPEN; its drain goroutine starts with
it.
SOURCE: mux_session.go:431-445 -/
def acceptedCell (p : Packet) : Cell where
  stream :=
    let stream := newStreamSession p.frame.streamID s.config.initialStreamWindow
    (if p.frame.payload = [] then stream else stream.setOpenPayload p.frame.payload).opened
  conv := p.conv
  drainPc := .select

/-- SOURCE: mux_session.go:440-445 -/
def acceptInsert (p : Packet) : Session :=
  ((s.setTable (s.table.insert p.frame.streamID s.nextRef)).setReader
    (.acceptAck s.nextRef p)).addCell (s.acceptedCell p)

/-- The error code in a STREAM_RESET.
SOURCE: mux_session.go:500-503 -/
def resetCode (p : Packet) : ℕ := if p.frame.payload.length ≥ 4 then uint32 p.frame.payload else 0

/-- The read loop's next step in the handler of the packet it holds.
SOURCE: mux_session.go:408-564, 641-648 -/
def readerStep : Option Session :=
  match s.reader with
  | .idle => none
  | .frame p => some (s.handleFrame p)
  | .ackSend r => some ((s.setCell r { s.cells r with ackCh := true }).setReader .idle)
  | .rejectOpen p => some ((s.enqueue (rejectPacket p) .control).setReader .idle)
  | .acceptInsert p => some (s.acceptInsert p)
  | .acceptAck r p =>
    some ((s.enqueue (s.cells r).ackPacket .data).setReader (.acceptDeliver r p))
  | .acceptDeliver r _ =>
    if s.acceptCh.length < s.config.maxConcurrentStreams then
      some ((s.setReader .idle).setAcceptCh (s.acceptCh ++ [r]))
    else none
  | .deliver r p =>
    some ((s.setCell r { s.cells r with
        stream := (s.cells r).stream.deliver p.frame.payload
        hist := { (s.cells r).hist with
          delivered := (s.cells r).hist.delivered ++ p.frame.payload } }).setReader
      (afterDeliver r p))
  | .remoteClose r p =>
    some ((s.setCell r { s.cells r with stream := (s.cells r).stream.remoteClose }).setReader
      (.checkClosed r p))
  | .checkClosed r p =>
    some (s.setReader
      (if (s.cells r).stream.state = .closed then .delete r p else .checkReset r p))
  | .checkReset r p =>
    some (s.setReader (if (s.cells r).stream.state = .reset then .delete r p else .idle))
  | .delete _ p => some ((s.setTable (s.table.remove p.frame.streamID)).setReader .idle)
  | .resetting r p =>
    some ((s.setCell r ((s.cells r).reset (resetCode p) true)).setReader
      (if (s.cells r).stream.reset.2 then .awaitReset r p else .resetRemove r p))
  | .awaitReset r p =>
    if (s.cells r).resetPc = .done then some (s.setReader (.resetRemove r p)) else none
  | .resetRemove _ p =>
    some ((s.setTable (s.table.removePresent p.frame.streamID)).setReader .idle)
  | .windowUpdate r p =>
    some ((s.setCell r { s.cells r with
        stream := { (s.cells r).stream with
          recvWindow := (s.cells r).stream.recvWindow + toInt32 (uint32 p.frame.payload) } }).setReader
      .idle)

/-- Every stream in the map is reset and the map emptied.
SOURCE: mux_session.go:195-200 -/
@[simps] def resetStreams : Session :=
  { s with
    cells := fun r =>
      if r ∈ s.table.streams.entries.map (·.2) then (s.cells r).reset 0 false else s.cells r
    table := { s.table with streams := ∅ } }

/-- Close after closeCh: the queue, then every stream in the map under m.mu, then the transport.
SOURCE: mux_session.go:190-205 -/
def closingStep : Option Session :=
  match s.closing with
  | .queue => some ((s.setQueue s.queue.close).setClosing .streams)
  | .streams => some (s.resetStreams.setClosing .transport)
  | .transport => some (s.setClosing .done)
  | _ => none

/-- SOURCE: mux_session.go:617-637 -/
def sendServiceList (services : List Bytes) : Option Session :=
  let payload := [10].intercalate services
  if (services.any fun name => name.contains 10 || name.contains 13) ∨
      payload.length > maxPayloadSize then none
  else some (s.enqueue (connPacket .serviceList payload) .control)

/-- One step of the session; `none` is a step that is not enabled, or a call that returns an error
and changes nothing. -/
def step : Action → Option Session
  | .openStream payload =>
    if s.goingAway then none else some (s.setCalls (payload :: s.calls))
  | .openAlloc payload => if payload ∈ s.calls then some (s.openAlloc payload) else none
  | .opening r o => if r < s.nextRef then s.opening r o else none
  | .acceptStream =>
    match s.acceptCh with
    | r :: rest => some ((s.setCell r { s.cells r with handle := true }).setAcceptCh rest)
    | [] => none
  | .call r k =>
    if r < s.nextRef ∧ (s.cells r).handle then ((s.cells r).call k).map (s.setCell r) else none
  | .callback r k => if r < s.nextRef then s.callback r k else none
  | .drain r d =>
    if r < s.nextRef then
      match (s.cells r).drain s.closed d with
      | some (c, some p) => some ((s.setCell r c).enqueue p .data)
      | some (c, none) => some (s.setCell r c)
      | none => none
    else none
  | .writerCheck =>
    if s.writer = .check then some (s.setWriter (if s.closed then .exited else .dequeue))
    else none
  | .dequeue =>
    if s.writer = .dequeue then
      match s.queue.dequeue with
      | some (p, q) => some ((s.setQueue q).setWriter (.write p))
      | none => if s.queue.closed then some (s.setWriter .exited) else none
    else none
  | .transmit p =>
    if s.writer = .write p ∧ p.frame.payload.length ≤ maxPayloadSize ∧ s.closing ≠ .done then
      some (s.setWriter .check)
    else none
  | .transmitFail =>
    match s.writer with
    | .write p =>
      if p.frame.payload.length > maxPayloadSize ∨ s.closing = .done then
        some ((s.setWriter .exited).setClosing
          (if s.closing = .running then .queue else s.closing))
      else none
    | _ => none
  | .recv p =>
    if s.reader = .idle ∧ s.closing ≠ .done then some (s.setReader (.frame p)) else none
  | .reader => s.readerStep
  | .readerClosed =>
    match s.reader with
    | .acceptDeliver _ _ => if s.closed then some (s.setReader .idle) else none
    | _ => none
  | .goAway => some { s with goingAway := true }
  | .goAwaySend code =>
    some (s.enqueue (connPacket .goAway
      (putUint32 (s.table.streams.keys.foldl max 0) ++ putUint32 code)) .control)
  | .ping data =>
    -- the frame's payload is pingData itself, which a later Ping overwrites while the frame is
    -- queued; here the frame keeps what it was made with
    some ({ s with pingCh := some false }.enqueue (connPacket .ping data) .control)
  | .sendServiceList services => s.sendServiceList services
  | .closeSession => if s.closing = .running then some (s.setClosing .queue) else none
  | .closing => s.closingStep

end Session

end Atlax.Model
