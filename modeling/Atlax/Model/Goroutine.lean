import Atlax.Model.Stream

/-!
# The goroutines of one stream

A `Cell` is a `StreamSession` on the heap of a session together with everything that runs on
its behalf: the `OpenStream` call that created it, the callback of its Close, the callback of its
Reset, its drain goroutine and the Writes that have passed their state check. Each of these is a
program counter; a value of the counter is the next mutex section, channel operation or queue
operation of that goroutine. One stream has one of each, so that two drain goroutines or two FIN
signals cannot even be written down: the source guarantees it by starting the goroutine once and
by its `sync.Once` fields.

The steps of this file touch only their own cell (and hand out at most one packet). The steps
that take the session's mutex are in `Atlax.Model.Session`.
-/

set_option autoImplicit false

namespace Atlax.Model

/-- A place in the heap of `StreamSession`s of one session. -/
abbrev Ref := ℕ

/-- Where the `OpenStreamWithPayload` call that created the stream stands.
SOURCE: mux_session.go:143-171 -/
inductive OpenPc
  /-- the stream was made for a peer's STREAM_OPEN -/
  | accepted
  /-- before `m.pendingOpen[id] = ackCh` -/
  | register
  /-- before the STREAM_OPEN is queued -/
  | enqueue
  /-- in the select on ackCh, ctx.Done and closeCh -/
  | wait
  /-- before `cleanupPendingOpen`; the flag says that the context ended -/
  | cleanup (cancelled : Bool)
  /-- before the section of `removeStream` -/
  | remove
  /-- before the `Reset(0)` that `removeStream` calls on the stream it found -/
  | resetting (found : Ref)
  /-- the call has returned the stream -/
  | returned
  /-- the call has returned an error -/
  | failed
  deriving DecidableEq, Repr

/-- The call is still running. -/
def OpenPc.running : OpenPc → Bool
  | .accepted | .returned | .failed => false
  | .register | .enqueue | .wait | .cleanup _ | .remove | .resetting _ => true

/-- Where the notification of Close stands: the FIN token, then `onLocalClose`, which is
`maybeRemoveStream`.
SOURCE: stream_impl.go:170-177, mux_session.go:641-648 -/
inductive ClosePc
  | idle
  | fin
  | checkClosed
  | checkReset
  | delete
  | done
  deriving DecidableEq, Repr

def ClosePc.running : ClosePc → Bool
  | .idle | .done => false
  | .fin | .checkClosed | .checkReset | .delete => true

/-- Where the callback of Reset stands.
SOURCE: mux_session.go:680-714 -/
inductive ResetPc
  | idle
  /-- before the test of closeCh -/
  | check (code : ℕ)
  /-- before the section that looks the identifier up -/
  | lookup (code : ℕ)
  /-- before the STREAM_RESET is queued -/
  | send (code : ℕ)
  | done
  deriving DecidableEq, Repr

def ResetPc.running : ResetPc → Bool
  | .idle | .done => false
  | .check _ | .lookup _ | .send _ => true

/-- Where the drain goroutine stands.
SOURCE: mux_session.go:326-382 -/
inductive DrainPc
  /-- not started -/
  | idle
  /-- in the select of `drainStream` -/
  | select
  /-- with a chunk in hand, before it is queued; the flag says that `flushAndFIN` took it -/
  | enqueue (data : Bytes) (flushing : Bool)
  /-- closedCh was seen, before `s.State()` -/
  | sawClosed
  /-- in the select of `awaitFIN` -/
  | awaitFIN
  /-- in the select of `flushAndFIN` -/
  | flush
  /-- before STREAM_CLOSE+FIN is queued -/
  | sendFIN
  | done
  deriving DecidableEq, Repr

/-- What happened on a stream: history only, no step reads it. -/
structure History where
  /-- the payload the `OpenStreamWithPayload` call was given -/
  openArg : Bytes := []
  /-- the bytes of the Writes that returned success, in the order they entered `writeOut` -/
  wrote : Bytes := []
  /-- the bytes the drain goroutine has taken from `writeOut` -/
  drained : Bytes := []
  /-- the bytes put into the read buffer -/
  delivered : Bytes := []
  /-- the bytes returned by Reads -/
  got : Bytes := []
  /-- `wrote` at the moment of the Close that closed the local half -/
  closedAt : Option Bytes := none
  /-- Reset was called on the stream by a local caller, not for a STREAM_RESET frame -/
  aborted : Bool := false
  deriving DecidableEq, Repr

/-- A stream on the heap and the goroutines that run for it. -/
structure Cell where
  stream : StreamSession
  conv : Option Conv := none
  openPc : OpenPc := .accepted
  /-- the token in the call's `ackCh` -/
  ackCh : Bool := false
  closePc : ClosePc := .idle
  resetPc : ResetPc := .idle
  drainPc : DrainPc := .idle
  /-- Writes past their state check, not yet in `writeOut` -/
  writers : List Bytes := []
  /-- the stream has been returned by OpenStream or AcceptStream -/
  handle : Bool := false
  hist : History := {}
  deriving DecidableEq, Repr

/-- The calls a holder of the stream makes, and the second half of a Write. -/
inductive Call
  | write (data : Bytes)
  | writeSend (data : Bytes)
  | writeFail (data : Bytes)
  | read (n : ℕ)
  | close
  | reset (code : ℕ)
  deriving DecidableEq, Repr

/-- The moves of a drain goroutine; where a select has several ready cases the move says which
one is taken. -/
inductive Drain
  | data
  | fin
  | closed
  | sessionClosed
  | next
  deriving DecidableEq, Repr

namespace Cell

variable (c : Cell)

/-- Reset called on the stream, up to the release of its mutex. `byFrame` tells a call made for a
STREAM_RESET frame.
SOURCE: stream_impl.go:224-242 -/
def reset (code : ℕ) (byFrame : Bool) : Cell :=
  let (s, notify) := c.stream.reset
  { c with
    stream := s
    resetPc := if notify then .check code else c.resetPc
    hist := if byFrame then c.hist else { c.hist with aborted := true } }

/-- SOURCE: stream_impl.go:150-179 -/
def close : Cell :=
  let (s, notify) := c.stream.close
  { c with
    stream := s
    closePc := if notify then .fin else c.closePc
    hist := if notify then { c.hist with closedAt := some c.hist.wrote } else c.hist }

/-- A caller that holds the stream; a step that would wait, or a Write that is not under way, is
`none`.
SOURCE: stream_impl.go:87-124 -/
def call : Call → Option Cell
  | .write data =>
    if c.stream.isWriteClosed then some c
    else some { c with writers := c.writers ++ [data] }
  | .writeSend data =>
    if data ∈ c.writers ∧ c.stream.writeOut.length < writeOutCap then
      some { c with
        stream := { c.stream with writeOut := c.stream.writeOut ++ [data] }
        writers := c.writers.erase data
        hist := { c.hist with wrote := c.hist.wrote ++ data } }
    else none
  | .writeFail data =>
    if data ∈ c.writers ∧ c.stream.closedCh then
      some { c with writers := c.writers.erase data }
    else none
  | .read n =>
    match c.stream.read n with
    | (.wait, _) => none
    | (.eof, _) => some c
    | (.bytes b, s) => some { c with stream := s, hist := { c.hist with got := c.hist.got ++ b } }
  | .close => some c.close
  | .reset code => some (c.reset code false)

/-- The chunk the drain goroutine has in hand. -/
def inHand : List Bytes :=
  match c.drainPc with
  | .enqueue data _ => [data]
  | _ => []

/-- SOURCE: mux_session.go:375-382 -/
def dataPacket (data : Bytes) : Packet :=
  ⟨{ command := .streamData, streamID := c.stream.id, payload := data }, c.conv⟩

/-- SOURCE: mux_session.go:364-369 -/
def closePacket : Packet :=
  ⟨{ command := .streamClose, flags := { fin := true }, streamID := c.stream.id }, c.conv⟩

/-- SOURCE: mux_session.go:705-712 -/
def resetPacket (code : ℕ) : Packet :=
  ⟨{ command := .streamReset, streamID := c.stream.id, payload := putUint32 code }, c.conv⟩

/-- SOURCE: mux_session.go:150-155 -/
def openPacket : Packet :=
  ⟨{ command := .streamOpen, streamID := c.stream.id, payload := c.hist.openArg }, c.conv⟩

/-- SOURCE: mux_session.go:448-453 -/
def ackPacket : Packet :=
  ⟨{ command := .streamOpen, flags := { ack := true }, streamID := c.stream.id }, c.conv⟩

/-- The drain goroutine takes a chunk from `writeOut`. -/
def takeChunk (flushing : Bool) : Option Cell :=
  match c.stream.writeOut with
  | [] => none
  | data :: rest =>
    some { c with
      stream := { c.stream with writeOut := rest }
      drainPc := .enqueue data flushing
      hist := { c.hist with drained := c.hist.drained ++ data } }

/-- The drain goroutine takes the FIN token. -/
def takeFIN : Option Cell :=
  if c.stream.finCh then
    some { c with stream := { c.stream with finCh := false }, drainPc := .flush }
  else none

/-- One move of the drain goroutine, with the packet it queues; `sessionClosed` is closeCh.
SOURCE: mux_session.go:326-382 -/
def drain (sessionClosed : Bool) : Drain → Option (Cell × Option Packet)
  | .data =>
    match c.drainPc with
    | .select => (c.takeChunk false).map (·, none)
    | .flush => (c.takeChunk true).map (·, none)
    | _ => none
  | .fin =>
    match c.drainPc with
    | .select | .awaitFIN => c.takeFIN.map (·, none)
    | _ => none
  | .closed =>
    if c.drainPc = .select ∧ c.stream.closedCh then some ({ c with drainPc := .sawClosed }, none)
    else none
  | .sessionClosed =>
    if (c.drainPc = .select ∨ c.drainPc = .awaitFIN) ∧ sessionClosed then
      some ({ c with drainPc := .done }, none)
    else none
  | .next =>
    match c.drainPc with
    | .enqueue data flushing =>
      some ({ c with drainPc := if flushing then .flush else .select }, some (c.dataPacket data))
    | .sawClosed =>
      some ({ c with drainPc := if c.stream.state = .reset then .done else .awaitFIN }, none)
    | .flush =>
      if c.stream.writeOut = [] then some ({ c with drainPc := .sendFIN }, none) else none
    | .sendFIN => some ({ c with drainPc := .done }, some c.closePacket)
    | _ => none

end Cell

end Atlax.Model
