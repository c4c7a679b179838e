import Mathlib.Data.Int.Notation
import Atlax.Library.Channel

/-!
# The audit emitter

`SlogEmitter` (pkg/audit/emitter.go) hands audit events to a goroutine that logs them, over a
buffered channel. `Emit` looks whether the emitter is closed and then sends, unless it is closed
meanwhile; `Close` closes `closeCh`, then `eventCh`, and waits until the goroutine has logged what
is left.

Any number of `Emit` and `Close` calls run side by side with `drainLoop`. Every operation on a
channel is a step, and a select takes any of its cases that is ready. A panic takes the process
down.
-/

set_option autoImplicit false

namespace Atlax.Model

open Atlax.Library

/-- SOURCE: audit.go:9-31 -/
inductive AuditAction
  | agentConnected
  | agentDisconnected
  | streamOpened
  | streamClosed
  | streamReset
  | authSuccess
  | authFailure
  | certRotation
  | goAway
  | heartbeatTimeout
  | adminPortAdded
  | adminPortRemoved
  | adminPortUpdated
  | adminAgentDisconnected
  | adminReload
  deriving DecidableEq

/-- SOURCE: audit.go:11-30 -/
def AuditAction.text : AuditAction → String
  | .agentConnected => "agent.connected"
  | .agentDisconnected => "agent.disconnected"
  | .streamOpened => "stream.opened"
  | .streamClosed => "stream.closed"
  | .streamReset => "stream.reset"
  | .authSuccess => "auth.success"
  | .authFailure => "auth.failure"
  | .certRotation => "cert.rotation"
  | .goAway => "connection.goaway"
  | .heartbeatTimeout => "agent.heartbeat_timeout"
  | .adminPortAdded => "admin.port_added"
  | .adminPortRemoved => "admin.port_removed"
  | .adminPortUpdated => "admin.port_updated"
  | .adminAgentDisconnected => "admin.agent_disconnected"
  | .adminReload => "admin.reload"

/-- An event. `metadata` stands in the order in which the loop of `logEvent` meets it.
SOURCE: audit.go:33-42 -/
structure AuditEvent where
  action : AuditAction
  actor : String := ""
  target : String := ""
  timestamp : ℤ := 0
  requestID : String := ""
  customerID : String := ""
  metadata : List (String × String) := []
  deriving DecidableEq

/-- The value of a slog attribute. -/
inductive AttrValue
  | string (s : String)
  | time (t : ℤ)
  deriving DecidableEq

/-- What is logged. -/
structure LogRecord where
  message : String
  attrs : List (String × AttrValue)
  deriving DecidableEq

/-- SOURCE: emitter.go:88-108 -/
def logEvent (event : AuditEvent) : LogRecord where
  message := "audit"
  attrs :=
    [("action", .string event.action.text), ("actor", .string event.actor),
      ("target", .string event.target), ("event_time", .time event.timestamp),
      ("customer_id", .string event.customerID)] ++
    (if event.requestID ≠ "" then [("request_id", .string event.requestID)] else []) ++
    event.metadata.map fun (k, v) => ("meta." ++ k, .string v)

/-- The error of `Emit`.
SOURCE: emitter.go:14-15, 54, 62 -/
structure ErrEmitterClosed where
  action : AuditAction
  deriving DecidableEq

def ErrEmitterClosed.text (e : ErrEmitterClosed) : String :=
  "audit: emit " ++ e.action.text ++ ": audit: emitter is closed"

/-- Where an `Emit` stands: before its first or its second select.
SOURCE: emitter.go:51-64 -/
inductive EmitPc
  | check
  | select
  | returned (err : Option ErrEmitterClosed)
  deriving DecidableEq

/-- A call of `Emit`. -/
structure EmitCall where
  event : AuditEvent
  pc : EmitPc := .check
  deriving DecidableEq

/-- Where a `Close` stands: before `once.Do`, or before a statement of the function that it runs.
SOURCE: emitter.go:68-75 -/
inductive CloserPc
  | once
  | closeCloseCh
  | closeEventCh
  | waitDone
  | returned
  deriving DecidableEq

/-- Whether the function given to `once.Do` has been started and has returned. -/
inductive OncePhase
  | idle
  | running
  | done
  deriving DecidableEq

/-- Where `drainLoop` stands: before a receive, with an event to log, before its deferred close.
SOURCE: emitter.go:78-83 -/
inductive DrainLoopPc
  | receive
  | log (event : AuditEvent)
  | closeDone
  | returned
  deriving DecidableEq

/-- An emitter with its calls, and what it has logged.
SOURCE: emitter.go:19-25 -/
structure SlogEmitter (bufferSize : ℕ) where
  eventCh : Channel AuditEvent bufferSize := {}
  closeCh : Channel Unit 0 := {}
  done : Channel Unit 0 := {}
  once : OncePhase := .idle
  emits : List EmitCall := []
  closes : List CloserPc := []
  drain : DrainLoopPc := .receive
  log : List LogRecord := []
  panicked : Bool := false
  deriving DecidableEq

/-- The steps of an emitter. -/
inductive EmitterAction
  /-- `Emit` is called -/
  | emit (event : AuditEvent)
  /-- an `Emit` makes its first select; its second one takes the send, or finds `closeCh` closed -/
  | check (i : ℕ)
  | send (i : ℕ)
  | stop (i : ℕ)
  /-- `Close` is called, or goes on -/
  | close
  | runClose (k : ℕ)
  /-- `drainLoop` goes on -/
  | drain
  deriving DecidableEq

/-- SOURCE: emitter.go:11-12 -/
def defaultAuditBufferSize : ℕ := 256

/-- SOURCE: emitter.go:34-36 -/
def auditBufferSize (bufferSize : ℤ) : ℕ :=
  if bufferSize ≤ 0 then defaultAuditBufferSize else bufferSize.toNat

/-- SOURCE: emitter.go:33-45 -/
def newSlogEmitter (bufferSize : ℤ) : SlogEmitter (auditBufferSize bufferSize) := {}

namespace SlogEmitter

variable {n : ℕ} (s : SlogEmitter n)

def setEmit (i : ℕ) (c : EmitCall) (pc : EmitPc) : SlogEmitter n :=
  { s with emits := s.emits.set i { c with pc := pc } }

def setClose (k : ℕ) (pc : CloserPc) : SlogEmitter n := { s with closes := s.closes.set k pc }

/-- SOURCE: emitter.go:52-56 -/
def stepCheck (i : ℕ) (c : EmitCall) : Option (SlogEmitter n) :=
  if c.pc = .check then
    if s.closeCh.recv.isSome then some (s.setEmit i c (.returned (some ⟨c.event.action⟩)))
    else some (s.setEmit i c .select)
  else none

/-- SOURCE: emitter.go:59-60 -/
def stepSend (i : ℕ) (c : EmitCall) : Option (SlogEmitter n) :=
  if c.pc = .select then
    match s.eventCh.send c.event with
    | .blocks => none
    | .panics => some { s with panicked := true }
    | .done ch => some { s.setEmit i c (.returned none) with eventCh := ch }
  else none

/-- SOURCE: emitter.go:61-62 -/
def stepStop (i : ℕ) (c : EmitCall) : Option (SlogEmitter n) :=
  if c.pc = .select ∧ s.closeCh.recv.isSome then
    some (s.setEmit i c (.returned (some ⟨c.event.action⟩)))
  else none

/-- SOURCE: emitter.go:68-75 -/
def stepClose (k : ℕ) : CloserPc → Option (SlogEmitter n)
  | .once =>
    match s.once with
    | .idle => some { s.setClose k .closeCloseCh with once := .running }
    | .running => none
    | .done => some (s.setClose k .returned)
  | .closeCloseCh =>
    match s.closeCh.close with
    | .done ch => some { s.setClose k .closeEventCh with closeCh := ch }
    | _ => some { s with panicked := true }
  | .closeEventCh =>
    match s.eventCh.close with
    | .done ch => some { s.setClose k .waitDone with eventCh := ch }
    | _ => some { s with panicked := true }
  | .waitDone =>
    if s.done.recv.isSome then some { s.setClose k .returned with once := .done } else none
  | .returned => none

/-- SOURCE: emitter.go:78-83 -/
def stepDrain : Option (SlogEmitter n) :=
  match s.drain with
  | .receive =>
    match s.eventCh.recv with
    | some (some event, ch) => some { s with eventCh := ch, drain := .log event }
    | some (none, ch) => some { s with eventCh := ch, drain := .closeDone }
    | none => none
  | .log event => some { s with log := s.log ++ [logEvent event], drain := .receive }
  | .closeDone =>
    match s.done.close with
    | .done ch => some { s with done := ch, drain := .returned }
    | _ => some { s with panicked := true }
  | .returned => none

/-- One step; after a panic there is none. -/
def step (a : EmitterAction) : Option (SlogEmitter n) :=
  if s.panicked then none
  else
    match a with
    | .emit event => some { s with emits := s.emits ++ [{ event := event }] }
    | .check i => s.emits[i]?.bind (s.stepCheck i)
    | .send i => s.emits[i]?.bind (s.stepSend i)
    | .stop i => s.emits[i]?.bind (s.stepStop i)
    | .close => some { s with closes := s.closes ++ [.once] }
    | .runClose k => s.closes[k]?.bind (s.stepClose k)
    | .drain => s.stepDrain

end SlogEmitter

end Atlax.Model
