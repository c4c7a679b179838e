import Atlax.Library.Run
import Atlax.Model.Stream

/-!
# Forwarding a stream to a local service

`Forwarder.Forward` (pkg/agent/forwarder_impl.go) dials the service of a stream that the agent has
accepted, starts a goroutine for each direction and waits for both: for the first as long as it
takes, for the second at most the linger timeout. When the context is cancelled or the timer fires
it aborts: it closes the connection and resets the stream, and waits for the goroutines that this
unblocks.

Every section is a step of its own. `io.CopyBuffer` returns at any time with any result; what the
peer and the session do to the stream meanwhile are steps as well.
-/

set_option autoImplicit false

namespace Atlax.Model

open Atlax.Library

/-- What `Forward` returns: the error of the dial, or that of a copy. -/
inductive ForwardError
  | dial (target err : String)
  | copy (err : String)
  deriving DecidableEq

/-- SOURCE: forwarder_impl.go:58 -/
def ForwardError.text : ForwardError → String
  | .dial target err => s!"forwarder: dial {target}: {err}"
  | .copy err => err

/-- Where a copying goroutine stands: in `io.CopyBuffer`, before it half-closes what it wrote to,
before its report on `done`.
SOURCE: forwarder_impl.go:122-141 -/
inductive LinkPc
  | copy
  | halfClose (err : Option String)
  | report (err : Option String)
  | returned
  deriving DecidableEq

/-- The two goroutines: from the stream to the service and back. -/
inductive LinkSide
  | streamToLocal
  | localToStream
  deriving DecidableEq

/-- The sections of `abort`.
SOURCE: forwarder_impl.go:144-154 -/
inductive AbortPc
  | store
  | closeLocal
  | reset
  deriving DecidableEq

/-- Where `Forward` stands: before the dial is through; in the select of `waitDirection`, in its
`abort` and in the wait after that; in the second wait of an aborted `await`; before the deferred
`local.Close()`. `first` is what the first direction reported, if `await` is past it.
SOURCE: forwarder_impl.go:49-112 -/
inductive ForwardPc
  | dial
  | select (first : Option (Option String))
  | abort (first : Option (Option String)) (pc : AbortPc)
  | drain (first : Option (Option String))
  | drainOther
  | close (err : Option ForwardError)
  | returned (err : Option ForwardError)
  deriving DecidableEq

/-- A direction has reported with `err`: the first of `await`, or the second.
SOURCE: forwarder_impl.go:73-90, 102-105 -/
def received (err : Option String) : Option (Option String) → ForwardPc
  | none => .select (some err)
  | some first => .close ((if first ≠ none then first else err).map .copy)

/-- What `await` does when a direction has reported after an abort.
SOURCE: forwarder_impl.go:74-77, 82-84, 109-111 -/
def drained : Option (Option String) → ForwardPc
  | none => .drainOther
  | some first => .close (first.map .copy)

/-- What a section of `Forward` does to the connection or to the stream. -/
inductive ForwardEffect
  | nothing
  | closeLocal
  | reset
  deriving DecidableEq

/-- `Forward` itself, and what it shares with its goroutines.
SOURCE: forwarder_impl.go:49-162 -/
structure AwaitState where
  pc : ForwardPc := .dial
  done : List (Option String) := []
  aborted : Bool := false
  deriving DecidableEq

namespace AwaitState

variable (e : AwaitState)

/-- SOURCE: forwarder_impl.go:157-162 -/
def filter (err : Option String) : Option String :=
  if err = none ∨ e.aborted then none else err

/-- A goroutine reports.
SOURCE: forwarder_impl.go:130, 141 -/
def report (err : Option String) : AwaitState := { e with done := e.done ++ [e.filter err] }

/-- The dial of `target` is through.
SOURCE: forwarder_impl.go:55-60 -/
def dialed (target : String) : Option String → AwaitState
  | some err => { e with pc := .returned (some (.dial target err)) }
  | none => { e with pc := .select none }

/-- The next section of `Forward`.
SOURCE: forwarder_impl.go:60-112, 144-154 -/
def next : Option (ForwardEffect × AwaitState) :=
  match e.pc with
  | .select first =>
    match e.done with
    | err :: rest => some (.nothing, { e with done := rest, pc := received err first })
    | [] => none
  | .abort first .store =>
    some (.nothing, { e with aborted := true, pc := .abort first .closeLocal })
  | .abort first .closeLocal => some (.closeLocal, { e with pc := .abort first .reset })
  | .abort first .reset => some (.reset, { e with pc := .drain first })
  | .drain first =>
    match e.done with
    | _ :: rest => some (.nothing, { e with done := rest, pc := drained first })
    | [] => none
  | .drainOther =>
    match e.done with
    | _ :: rest => some (.nothing, { e with done := rest, pc := .close none })
    | [] => none
  | .close err => some (.closeLocal, { e with pc := .returned err })
  | .dial | .returned _ => none

/-- A select takes the context instead.
SOURCE: forwarder_impl.go:106-111 -/
def ctxDone : Option AwaitState :=
  match e.pc with
  | .select first => some { e with pc := .abort first .store }
  | _ => none

/-- It takes the linger timer; the first wait has no deadline. -/
def linger : Option AwaitState :=
  match e.pc with
  | .select (some first) => some { e with pc := .abort (some first) .store }
  | _ => none

end AwaitState

/-- The connection to the service. -/
structure LocalConn where
  writeClosed : Bool := false
  closed : Bool := false
  deriving DecidableEq

/-- A call of `Forward` with its stream and its `forwardLink`. -/
structure Forward extends AwaitState where
  target : String
  stream : StreamSession
  /-- the context is cancelled -/
  cancelled : Bool := false
  localConn : LocalConn := {}
  /-- the goroutines have been started -/
  linked : Bool := false
  streamToLocal : LinkPc := .copy
  localToStream : LinkPc := .copy
  deriving DecidableEq

/-- What the session does to a stream that was accepted. -/
inductive RemoteCall
  | deliver (data : Bytes)
  | remoteClose
  | reset
  deriving DecidableEq

/-- The steps of a `Forward`. -/
inductive ForwardAction
  /-- the dial succeeds or fails -/
  | dialed (err : Option String)
  /-- the context is cancelled -/
  | cancel
  /-- `Forward` runs its next section; a select takes the context or the linger timer instead -/
  | run
  | ctxDone
  | linger
  /-- a goroutine's `io.CopyBuffer` returns; the goroutine runs its next section -/
  | copied (d : LinkSide) (err : Option String)
  | link (d : LinkSide)
  | remote (c : RemoteCall)
  deriving DecidableEq

namespace Forward

variable (s : Forward)

/-- The next section of `Forward` itself.
SOURCE: forwarder_impl.go:60-112, 144-154 -/
def runForward : Option Forward :=
  s.next.map fun (effect, e) =>
    let s' := { s with toAwaitState := e }
    match effect with
    | .nothing => s'
    | .closeLocal => { s' with localConn := { s.localConn with closed := true } }
    | .reset => { s' with stream := s.stream.reset.1 }

/-- The next section of the goroutine that copies from the stream.
SOURCE: forwarder_impl.go:125-130 -/
def runStreamToLocal : Option Forward :=
  match s.streamToLocal with
  | .halfClose err =>
    some { s with
      localConn := { s.localConn with writeClosed := true }
      streamToLocal := .report err }
  | .report err => some { s with toAwaitState := s.report err, streamToLocal := .returned }
  | .copy | .returned => none

/-- The next section of the goroutine that copies to the stream.
SOURCE: forwarder_impl.go:136-141 -/
def runLocalToStream : Option Forward :=
  match s.localToStream with
  | .halfClose err => some { s with stream := s.stream.close.1, localToStream := .report err }
  | .report err => some { s with toAwaitState := s.report err, localToStream := .returned }
  | .copy | .returned => none

/-- One step. -/
def step : ForwardAction → Option Forward
  | .dialed err =>
    if s.pc = .dial then
      some { s with toAwaitState := s.dialed s.target err, linked := err.isNone }
    else none
  | .cancel => some { s with cancelled := true }
  | .run => s.runForward
  | .ctxDone =>
    if s.cancelled then s.ctxDone.map fun e => { s with toAwaitState := e } else none
  | .linger => s.linger.map fun e => { s with toAwaitState := e }
  | .copied .streamToLocal err =>
    if s.linked ∧ s.streamToLocal = .copy then some { s with streamToLocal := .halfClose err }
    else none
  | .copied .localToStream err =>
    if s.linked ∧ s.localToStream = .copy then some { s with localToStream := .halfClose err }
    else none
  | .link .streamToLocal => s.runStreamToLocal
  | .link .localToStream => s.runLocalToStream
  | .remote (.deliver data) => some { s with stream := s.stream.deliver data }
  | .remote .remoteClose => some { s with stream := s.stream.remoteClose }
  | .remote .reset => some { s with stream := s.stream.reset.1 }

end Forward

/-- `Forward` is called for a stream that the session has opened.
SOURCE: mux_session.go:425-445; tunnel_impl.go:122-140 -/
def newForward (stream : StreamSession) (target : String) : Forward where
  target := target
  stream := stream

end Atlax.Model
