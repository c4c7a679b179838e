import Atlax.Model.Route
import Atlax.Model.Session

/-!
# Route on a session

`Atlax.Model.Route` has a number of streams where `PortRouter.Route` has a session. Here the session
of one customer is the real one, and a `Route` call goes through the sections of
`OpenStreamWithPayload`: it compares `NumStreams` with the limit of its port in one section and
makes its stream in a later one, under another mutex (router_impl.go:151-205,
mux_session.go:111-172).

On the relay `Route` is the only one to open streams. Everything else that happens on the session is
free: frames arrive, streams are read, written and reset, the session goes away or closes.
-/

set_option autoImplicit false

namespace Atlax.Model

/-- Where a `Route` call stands.
SOURCE: router_impl.go:157-205; mux_session.go:111-172 -/
inductive DispatchPc
  /-- before it reads the port map -/
  | route (port : ℤ)
  /-- before the registry -/
  | lookup (service : String) (maxStreams : ℤ)
  /-- before the limit, and after it was exceeded -/
  | checkLimit (service : String) (maxStreams : ℤ)
  | overLimit (maxStreams : ℤ)
  /-- within the limit, before the test of goingAway -/
  | openStream (payload : Bytes)
  /-- past that test, before the m.mu section that makes the stream -/
  | openAlloc (payload : Bytes)
  /-- in the rest of `OpenStreamWithPayload`, which steps with the session -/
  | opening (r : Ref)
  | copying (r : Ref)
  | done (err : Option RouteError)
  deriving DecidableEq

/-- The router, the registry's entry for one customer, and the session of that customer's agent. -/
structure Dispatch where
  customerID : String
  portMap : PortMap := ∅
  /-- the registry has the customer's connection -/
  registered : Bool := true
  session : Session
  calls : List DispatchPc := []

/-- The steps of calls on one session. -/
inductive DispatchAction
  | route (port : ℤ)
  -- call `i` runs its next section; its open or its copy returns
  | run (i : ℕ)
  | opened (i : ℕ) (err : Option String)
  | copied (i : ℕ) (err : Option String)
  -- the session steps, the registry and the port map change
  | session (a : Action)
  | setRegistered (registered : Bool)
  | addPortMapping (customerID : String) (port : ℤ) (service listenAddr : String) (maxStreams : ℤ)
  | updatePortMapping (port : ℤ) (service listenAddr : String) (maxStreams : ℤ)
  | removePortMapping (customerID : String) (port : ℤ)
  deriving DecidableEq

namespace Dispatch

variable (s : Dispatch)

@[simps] def setCall (i : ℕ) (pc : DispatchPc) : Dispatch := { s with calls := s.calls.set i pc }

@[simps] def setSession (t : Session) : Dispatch := { s with session := t }

/-- SOURCE: mux_session.go:269-274 -/
def numStreams : ℕ := s.session.table.streams.entries.length

/-- The error of `OpenStreamWithPayload` as `Route` returns it.
SOURCE: router_impl.go:195; mux_session.go:113, 119; errors.go:24-26 -/
def openError (err : String) : DispatchPc :=
  .done (some (.openStream s!"mux: open stream: {err}"))

/-- The next section of a call: the session, and where the call stands afterwards.
SOURCE: router_impl.go:157-193; mux_session.go:111-141 -/
def runCall : DispatchPc → Option (Session × DispatchPc)
  | .route port =>
    match s.portMap.lookup port with
    | some e => some (s.session, .lookup e.service e.maxStreams)
    | none => some (s.session, .lookup "" 0)
  | .lookup service maxStreams =>
    if s.registered then some (s.session, .checkLimit service maxStreams)
    else some (s.session, .done (some (.agentNotFound s.customerID)))
  | .checkLimit service maxStreams =>
    if 0 < maxStreams ∧ maxStreams ≤ s.numStreams then some (s.session, .overLimit maxStreams)
    else some (s.session, .openStream (Relay.openPayload service))
  | .overLimit maxStreams =>
    some (s.session, .done (some (.streamLimit s.customerID s.numStreams maxStreams)))
  | .openStream payload =>
    if s.session.goingAway then some (s.session, openError "received GOAWAY from peer")
    else (s.session.step (.openStream payload)).map (·, .openAlloc payload)
  | .openAlloc payload =>
    (s.session.step (.openAlloc payload)).map (·,
      if s.numStreams ≥ s.session.config.maxConcurrentStreams then
        openError "maximum concurrent streams exceeded"
      else .opening s.session.nextRef)
  | _ => none

/-- One step of the router and the session. -/
def step : DispatchAction → Option Dispatch
  | .route port => some { s with calls := s.calls ++ [.route port] }
  | .run i => (s.calls[i]?.bind s.runCall).map fun (t, pc) => (s.setSession t).setCall i pc
  | .opened i err =>
    match s.calls[i]?, err with
    | some (.opening r), none =>
      if (s.session.cells r).openPc = .returned then some (s.setCall i (.copying r)) else none
    | some (.opening r), some err =>
      if (s.session.cells r).openPc = .failed then some (s.setCall i (openError err)) else none
    | _, _ => none
  | .copied i err =>
    match s.calls[i]? with
    | some (.copying _) => some (s.setCall i (.done (err.map .copy)))
    | _ => none
  -- `Route` is the only caller of OpenStreamWithPayload
  | .session (.openStream _) | .session (.openAlloc _) => none
  | .session a => (s.session.step a).map s.setSession
  | .setRegistered registered => some { s with registered := registered }
  | .addPortMapping customerID port service listenAddr maxStreams =>
    some { s with
      portMap := s.portMap.addPortMapping customerID port service listenAddr maxStreams }
  | .updatePortMapping port service listenAddr maxStreams =>
    match s.portMap.updatePortMapping port service listenAddr maxStreams with
    | .error _ => some s
    | .ok m => some { s with portMap := m }
  | .removePortMapping customerID port =>
    match s.portMap.removePortMapping customerID port with
    | .error _ => some s
    | .ok m => some { s with portMap := m }

end Dispatch

end Atlax.Model
