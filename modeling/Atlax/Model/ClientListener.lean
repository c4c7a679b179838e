import Atlax.Model.Route

/-!
# The relay's client listeners

`ClientListener` (pkg/relay/client_listener.go) has a listener for each port.
`StartPortWithListener` enters it in a table and accepts connections in a loop; every connection
goes to a goroutine of its own that runs `handleClient` and, inside it, `Route`. A listener is
closed through the table, by `StopPort` and `Stop`, or by a goroutine that waits for the context of
the loop.

`Atlax.Model.Route` says what `handleClient` and `Route` do on their way to the copy. Here each of
its calls has the connection it was made for, and the copy has its three goroutines
(router_impl.go): two that copy, cancel the context of the copy and report, and one that closes the
connection when that context is done. What is copied is the subject of
`Atlax.Model.CopyBidirectional`; here `io.Copy` returns at any time with any result.
-/

set_option autoImplicit false

namespace Atlax.Model

/-- Where an accept loop stands: in `Accept`, or before the select after an error of it.
SOURCE: client_listener.go:83-97 -/
inductive AcceptPc
  | accept
  | failed
  | returned
  deriving DecidableEq

/-- A call of `StartPortWithListener` with its listener and its context. -/
structure AcceptLoop where
  port : ℤ
  pc : AcceptPc := .accept
  lnClosed : Bool := false
  ctxDone : Bool := false
  deriving DecidableEq

/-- Where a copying goroutine stands: in `io.Copy`, before `cancel()`, before its report on errCh.
SOURCE: router_impl.go:231-241 -/
inductive CopierPc
  | copy
  | cancel (err : Option String)
  | report (err : Option String)
  | returned
  deriving DecidableEq

/-- The two copies of `copyBidirectional`. -/
inductive Direction
  | toClient
  | toStream
  deriving DecidableEq

/-- An accepted connection: the loop that accepted it, whether the relay has closed it, and the
goroutines of its copy with the context they share. -/
structure ClientHandle where
  loop : ℕ
  closed : Bool := false
  copying : Bool := false
  cancelled : Bool := false
  copyOut : CopierPc := .copy
  copyIn : CopierPc := .copy
  errCh : List (Option String) := []
  deriving DecidableEq

namespace ClientHandle

variable (c : ClientHandle)

def copier : Direction → CopierPc
  | .toClient => c.copyOut
  | .toStream => c.copyIn

def setCopier (pc : CopierPc) : Direction → ClientHandle
  | .toClient => { c with copyOut := pc }
  | .toStream => { c with copyIn := pc }

/-- What `handleClient` does to its connection on the way: it closes it before it returns without
calling `Route`, and `copyBidirectional` starts its goroutines.
SOURCE: client_listener.go:107-113, 125-135; router_impl.go:224-253 -/
def follow : RoutePc → ClientHandle
  | .done .noMapping | .done .rateLimited => { c with closed := true }
  | .copying _ _ => { c with copying := true }
  | _ => c

/-- The next section of a copying goroutine; `err` is the result of its `io.Copy`.
SOURCE: router_impl.go:231-241 -/
def stepCopier (d : Direction) (err : Option String) : Option ClientHandle :=
  match c.copier d with
  | .copy => some (c.setCopier (.cancel err) d)
  | .cancel err => some { c.setCopier (.report err) d with cancelled := true }
  | .report err => some { c.setCopier .returned d with errCh := c.errCh ++ [err] }
  | .returned => none

end ClientHandle

/-- The client listener with the router behind it. Call `k` of the router is that of connection
`k`. -/
structure ClientListener where
  relay : Relay := {}
  loops : List AcceptLoop := []
  listeners : AList (fun _ : ℤ => ℕ) := ∅
  conns : List ClientHandle := []

/-- `Accept` returns a connection or an error; the select after an error. -/
inductive AcceptEvent
  | conn
  | error
  | select
  deriving DecidableEq

/-- The steps of the listeners. -/
inductive ListenerAction
  /-- `StartPortWithListener` is called; its loop goes on -/
  | start (port : ℤ)
  | loop (i : ℕ) (e : AcceptEvent)
  /-- the context of loop `i` is cancelled; the goroutine that waits for it closes the listener -/
  | cancel (i : ℕ)
  | closeListener (i : ℕ)
  | stopPort (port : ℤ)
  | stop
  /-- the router, the registry and the rate limiters step -/
  | relay (a : RouteAction)
  /-- the goroutines of the copy of connection `k`, and its return -/
  | copier (k : ℕ) (d : Direction) (err : Option String)
  | watch (k : ℕ)
  | copied (k : ℕ)

namespace ClientListener

variable (s : ClientListener)

def setLoop (i : ℕ) (l : AcceptLoop) : ClientListener := { s with loops := s.loops.set i l }

def setConn (k : ℕ) (c : ClientHandle) : ClientListener := { s with conns := s.conns.set k c }

/-- The listeners of the table are closed where `which` says so. -/
def closeLoops (which : ℕ → Bool) : List AcceptLoop :=
  s.loops.mapIdx fun i l => if which i then { l with lnClosed := true } else l

/-- SOURCE: client_listener.go:148-161 -/
def stopPort (port : ℤ) : ClientListener :=
  match s.listeners.lookup port with
  | none => s
  | some i =>
    { s with
      loops := s.closeLoops (· == i)
      listeners := s.listeners.erase port }

/-- SOURCE: client_listener.go:164-178 -/
def stop : ClientListener :=
  { s with
    loops := s.closeLoops fun i => s.listeners.entries.any fun e => e.2 == i
    listeners := ∅
    relay := { s.relay with rateLimiters := ∅ } }

/-- A step of the accept loop.
SOURCE: client_listener.go:83-97 -/
def stepLoop (i : ℕ) (l : AcceptLoop) : AcceptEvent → Option ClientListener
  | .conn =>
    if l.pc = .accept ∧ l.lnClosed = false then
      some { s with
        relay := { s.relay with calls := s.relay.calls ++ [.lookupPort l.port] }
        conns := s.conns ++ [{ loop := i }] }
    else none
  | .error => if l.pc = .accept then some (s.setLoop i { l with pc := .failed }) else none
  | .select =>
    if l.pc = .failed then
      some (s.setLoop i { l with pc := if l.ctxDone then .returned else .accept })
    else none

/-- The context of a copy is cancelled, or the one it is derived from. -/
def copyDone (c : ClientHandle) : Bool :=
  c.cancelled || s.loops[c.loop]?.any (·.ctxDone)

/-- The goroutine that waits for the context of the copy.
SOURCE: router_impl.go:244-253 -/
def stepWatch (k : ℕ) (c : ClientHandle) : Option ClientListener :=
  if c.copying = true ∧ c.closed = false ∧ s.copyDone c = true then
    some (s.setConn k { c with closed := true })
  else none

/-- `copyBidirectional` has both reports and returns, and with it `Route`.
SOURCE: router_impl.go:255-261 -/
def stepCopied (k : ℕ) (c : ClientHandle) : Option ClientListener :=
  match c.errCh with
  | [firstErr, _] =>
    let err := if firstErr ≠ none ∧ s.copyDone c = true then none else firstErr
    (s.relay.step (.copied k err)).map fun relay =>
      { s with relay := relay }.setConn k { c with cancelled := true }
  | _ => none

/-- A step of the router, and what it means for the connection of the call that makes it. -/
def stepRelay (a : RouteAction) : Option ClientListener :=
  (s.relay.step a).map fun relay =>
    { s with
      relay := relay
      conns := List.zipWith ClientHandle.follow s.conns relay.calls }

/-- Calls come from the accept loops, and a copy ends with its goroutines; the rest of the router's
steps are free. -/
def withinRoute : RouteAction → Bool
  | .client _ | .route _ _ | .copied _ _ => false
  | _ => true

/-- One step. -/
def step : ListenerAction → Option ClientListener
  | .start port =>
    some { s with
      loops := s.loops ++ [{ port := port }]
      listeners := s.listeners.insert port s.loops.length }
  | .loop i e => s.loops[i]?.bind (s.stepLoop i · e)
  | .cancel i => s.loops[i]?.map fun l => s.setLoop i { l with ctxDone := true }
  | .closeListener i =>
    s.loops[i]?.bind fun l =>
      if l.ctxDone then some (s.setLoop i { l with lnClosed := true }) else none
  | .stopPort port => some (s.stopPort port)
  | .stop => some s.stop
  | .relay a => if withinRoute a then s.stepRelay a else none
  | .copier k d err =>
    s.conns[k]?.bind fun c =>
      if c.copying then (c.stepCopier d err).map (s.setConn k) else none
  | .watch k => s.conns[k]?.bind (s.stepWatch k)
  | .copied k => s.conns[k]?.bind (s.stepCopied k)

end ClientListener

end Atlax.Model
