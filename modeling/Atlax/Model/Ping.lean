import Atlax.Model.FlowWindow
import Atlax.Model.Session

/-!
# Ping

`Ping` and `handlePong` (mux_session.go) section by section. A call makes a channel and writes the
time into `pingData` under pingMu, queues its PING, and waits in a select on the channel that it
finds in `pingCh`. The handler of a PONG reads `pingCh` under pingMu and sends on what it has read
after that, without waiting. The channels stay on a heap, so that a send can reach one that has been
replaced. One call runs at a time, as the heartbeat makes them.
-/

set_option autoImplicit false

namespace Atlax.Model

/-- `binary.BigEndian.PutUint64`. -/
def putUint64 (n : ℕ) : Bytes := putUint32 (n / 2 ^ 32) ++ putUint32 n

/-- SOURCE: mux_session.go:260-265 -/
inductive PingError
  | timeout (after : ℕ)
  | ctx (err : ContextError)
  | goAway
  deriving DecidableEq, Repr

/-- The texts; `duration` prints a `time.Duration`.
SOURCE: mux_session.go:260-265, errors.go:26 -/
def PingError.text (duration : ℕ → String) : PingError → String
  | .timeout after =>
    let d := duration after
    s!"mux: ping: timeout after {d}"
  | .ctx err => s!"mux: ping: {err.text}"
  | .goAway => "mux: ping: received GOAWAY from peer"

/-- Where the Ping call stands, with its variables.
SOURCE: mux_session.go:235-267 -/
inductive PingPc
  | idle
  /-- after the section under pingMu -/
  | begun (now : ℕ)
  /-- the PING is queued -/
  | queued (now start : ℕ)
  /-- in the select; `ch` is what it has read from `pingCh` -/
  | select (now start : ℕ) (ch : Option ℕ)
  deriving DecidableEq, Repr

/-- The time the call under way has read. -/
def PingPc.now : PingPc → Option ℕ
  | .idle => none
  | .begun now | .queued now _ | .select now _ _ => some now

/-- Where `handlePong` stands.
SOURCE: mux_session.go:524-535 -/
inductive PongPc
  | idle
  /-- a PONG has been read, before the section under pingMu -/
  | frame (payload : Bytes)
  /-- before the send -/
  | send (ch : Option ℕ)
  deriving DecidableEq, Repr

/-- The fields of a session that Ping uses, its channels and where the call and the handler stand.
`chans` tells of each channel whether it holds its token; times are in nanoseconds.
SOURCE: mux_session.go:54-57 -/
structure PingState where
  pingTimeout : ℕ
  clock : ℕ
  pingCh : Option ℕ := none
  pingData : Bytes := putUint64 0
  chans : List Bool := []
  call : PingPc := .idle
  reader : PongPc := .idle
  closed : Bool := false
  deriving DecidableEq, Repr

/-- The steps of a Ping. -/
inductive PingAction
  | begin
  | enqueue
  | select
  /-- the select takes pingCh -/
  | receive
  /-- the select takes the timer -/
  | timeout
  /-- the select takes ctx.Done -/
  | ctxDone (err : ContextError)
  /-- the select takes closeCh -/
  | sessionClosed
  /-- the read loop reads a PONG -/
  | recv (payload : Bytes)
  /-- the section of `handlePong` -/
  | handle
  | send
  | close
  | tick (elapsed : ℕ)
  deriving DecidableEq, Repr

namespace PingState

variable (s : PingState)

/-- The call returns. -/
def finish : PingState := { s with call := .idle }

/-- The send on a channel with one slot, which gives up when the slot is taken. -/
def trySend (ch : ℕ) : PingState := { s with chans := s.chans.set ch true }

/-- SOURCE: mux_session.go:234-267, 524-535 -/
def step : PingAction → Option PingState
  | .begin =>
    match s.call with
    | .idle =>
      some { s with
        pingCh := some s.chans.length
        chans := s.chans ++ [false]
        pingData := putUint64 s.clock
        call := .begun s.clock }
    | _ => none
  | .enqueue =>
    match s.call with
    | .begun now => some { s with call := .queued now s.clock }
    | _ => none
  | .select =>
    match s.call with
    | .queued now start => some { s with call := .select now start s.pingCh }
    | _ => none
  | .receive =>
    match s.call with
    | .select _ _ (some ch) =>
      if s.chans[ch]? = some true then some { s.finish with chans := s.chans.set ch false }
      else none
    | _ => none
  | .timeout =>
    match s.call with
    | .select _ _ _ => if s.pingTimeout > 0 then some s.finish else none
    | _ => none
  | .ctxDone _ =>
    match s.call with
    | .select _ _ _ => some s.finish
    | _ => none
  | .sessionClosed =>
    match s.call with
    | .select _ _ _ => if s.closed then some s.finish else none
    | _ => none
  | .recv payload =>
    match s.reader with
    | .idle => some { s with reader := .frame payload }
    | _ => none
  | .handle =>
    match s.reader with
    | .frame _ => some { s with reader := .send s.pingCh }
    | _ => none
  | .send =>
    match s.reader with
    | .send (some ch) => some { s.trySend ch with reader := .idle }
    | .send none => some { s with reader := .idle }
    | _ => none
  | .close => some { s with closed := true }
  | .tick elapsed => some { s with clock := s.clock + elapsed }

/-- What the call that returns with the step returns, if it does: its latency or an error.
SOURCE: mux_session.go:257-266 -/
def returns : PingAction → Option (Except PingError ℕ)
  | .receive =>
    match s.call with
    | .select _ start _ => some (.ok (s.clock - start))
    | _ => none
  | .timeout => some (.error (.timeout s.pingTimeout))
  | .ctxDone err => some (.error (.ctx err))
  | .sessionClosed => some (.error .goAway)
  | _ => none

/-- The PING that the call queues. In the code its payload is a slice of pingData, so that a Ping
that follows while it is queued changes it; nothing reads the payload of the PONG.
SOURCE: mux_session.go:239-248, 524-535 -/
def pingPacket : Packet := connPacket .ping s.pingData

end PingState

end Atlax.Model
