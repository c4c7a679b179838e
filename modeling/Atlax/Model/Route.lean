import Atlax.Library.Run
import Atlax.Model.Config
import Atlax.Model.Frame
import Atlax.Model.Router

/-!
# Routing of client connections

`ClientListener.handleClient` looks up the customer of its port and calls `PortRouter.Route`,
which reads the port map a second time, asks the registry for the customer's connection, checks
the stream limit and opens a stream (pkg/relay/client_listener.go, router_impl.go). Each of these
is a section of its own; in between the port map, the registry and the sessions change.
-/

set_option autoImplicit false

namespace Atlax.Model

/-- A registered connection: its session, and whether its muxer is a `MuxSession`.
SOURCE: registry.go; registry_impl.go:15-40 -/
structure AgentConn where
  mux : ℕ
  muxSession : Bool := true
  deriving DecidableEq

/-- What `Route` returns. -/
inductive RouteError
  | agentNotFound (customerID : String)
  | streamLimit (customerID : String) (streams : ℕ) (maxStreams : ℤ)
  | notMuxSession
  | openStream (err : String)
  | copy (err : String)
  deriving DecidableEq

/-- SOURCE: router_impl.go:26, 172, 180-181, 186, 197; registry_impl.go:11, 128 -/
def RouteError.text : RouteError → String
  | .agentNotFound customerID => s!"relay: route: relay: agent not found: {customerID}"
  | .streamLimit customerID streams maxStreams =>
    s!"relay: route: relay: stream limit exceeded: customer {customerID} has " ++
      s!"{streams}/{maxStreams} streams"
  | .notMuxSession => "relay: route: muxer type assertion failed"
  | .openStream err => s!"relay: route: open stream: {err}"
  | .copy err => err

/-- How a client connection ends: in `handleClient` before `Route`, or with what `Route` returns. -/
inductive RouteEnd
  | noMapping
  | rateLimited
  | returned (err : Option RouteError)
  deriving DecidableEq

/-- Where a call stands: in `handleClient` before its lookup and before the rate limiter, in `Route`
before it reads the port map, before the registry, before the stream limit, with the limit exceeded,
before it opens the stream, copying. -/
inductive RoutePc
  | lookupPort (port : ℤ)
  | rateLimit (port : ℤ) (customerID : String)
  | route (port : ℤ) (customerID : String)
  | lookup (customerID service : String) (maxStreams : ℤ)
  | checkLimit (customerID service : String) (maxStreams : ℤ) (conn : AgentConn)
  | overLimit (customerID : String) (maxStreams : ℤ) (conn : AgentConn)
  | openStream (conn : AgentConn) (payload : Bytes)
  | copying (conn : AgentConn) (payload : Bytes)
  | done (r : RouteEnd)
  deriving DecidableEq

/-- The payload of the STREAM_OPEN: the service's name, or none.
SOURCE: router_impl.go:190-193 -/
def Relay.openPayload (service : String) : Bytes := service.toUTF8.toList

/-- The next section of a call; `registry` gives the connection of a customer and `numStreams` the
streams of a session.
SOURCE: client_listener.go:101-145; router_impl.go:151-205 -/
def RoutePc.next (portMap : PortMap) (registry : String → Option AgentConn) (numStreams : ℕ → ℕ) :
    RoutePc → Option RoutePc
  | .lookupPort port =>
    match portMap.lookupPort port with
    | none => some (.done .noMapping)
    | some (customerID, _) => some (.rateLimit port customerID)
  | .route port customerID =>
    -- without an entry Route goes on with no service and no limit
    match portMap.lookup port with
    | none => some (.lookup customerID "" 0)
    | some e => some (.lookup customerID e.service e.maxStreams)
  | .lookup customerID service maxStreams =>
    match registry customerID with
    | none => some (.done (.returned (some (.agentNotFound customerID))))
    | some conn => some (.checkLimit customerID service maxStreams conn)
  | .checkLimit customerID service maxStreams conn =>
    if 0 < maxStreams ∧ maxStreams ≤ numStreams conn.mux then
      some (.overLimit customerID maxStreams conn)
    else if conn.muxSession then some (.openStream conn (Relay.openPayload service))
    else some (.done (.returned (some .notMuxSession)))
  | .overLimit customerID maxStreams conn =>
    some (.done (.returned (some (.streamLimit customerID (numStreams conn.mux) maxStreams))))
  | _ => none

/-- The relay as far as routing goes; `streams` gives `NumStreams` of each session. -/
structure Relay where
  portMap : PortMap := ∅
  registry : AList (fun _ : String => AgentConn) := ∅
  rateLimiters : AList (fun _ : String => RateLimitConfig) := ∅
  streams : ℕ → ℕ := fun _ => 0
  calls : List RoutePc := []

/-- The steps of the relay. -/
inductive RouteAction
  -- a client connects to a port; `Route` is called directly
  | client (port : ℤ)
  | route (customerID : String) (port : ℤ)
  -- call `i` runs its next section, is let through or refused by the rate limiter, has its stream
  -- opened or refused, is done copying
  | run (i : ℕ)
  | rateLimit (i : ℕ) (allowed : Bool)
  | openStream (i : ℕ) (err : Option String)
  | copied (i : ℕ) (err : Option String)
  -- the methods of the router that write the port map
  | addPortMapping (customerID : String) (port : ℤ) (service listenAddr : String) (maxStreams : ℤ)
  | updatePortMapping (port : ℤ) (service listenAddr : String) (maxStreams : ℤ)
  | removePortMapping (customerID : String) (port : ℤ)
  -- the registry, the rate limiters and the sessions change
  | register (customerID : String) (conn : AgentConn)
  | unregister (customerID : String)
  | setRateLimiter (customerID : String) (lim : RateLimitConfig)
  | setStreams (mux : ℕ) (n : ℕ)

namespace Relay

variable (s : Relay)

def setCall (i : ℕ) (pc : RoutePc) : Relay := { s with calls := s.calls.set i pc }

/-- The next section of call `i`. -/
def runCall (i : ℕ) (pc : RoutePc) : Option Relay :=
  (pc.next s.portMap s.registry.lookup s.streams).map (s.setCall i)

/-- One step of the relay. -/
def step : RouteAction → Option Relay
  | .client port => some { s with calls := s.calls ++ [.lookupPort port] }
  | .route customerID port => some { s with calls := s.calls ++ [.route port customerID] }
  | .run i => s.calls[i]?.bind (s.runCall i)
  | .rateLimit i allowed =>
    match s.calls[i]? with
    | some (.rateLimit port customerID) =>
      if allowed then some (s.setCall i (.route port customerID))
      else if customerID ∈ s.rateLimiters then some (s.setCall i (.done .rateLimited))
      else none
    | _ => none
  | .openStream i err =>
    match s.calls[i]? with
    | some (.openStream conn payload) =>
      match err with
      | some e => some (s.setCall i (.done (.returned (some (.openStream e)))))
      | none =>
        some ({ s with
          streams := Function.update s.streams conn.mux (s.streams conn.mux + 1) }.setCall i
            (.copying conn payload))
    | _ => none
  | .copied i err =>
    match s.calls[i]? with
    | some (.copying _ _) => some (s.setCall i (.done (.returned (err.map .copy))))
    | _ => none
  | .addPortMapping customerID port service listenAddr maxStreams =>
    some { s with
      portMap := s.portMap.addPortMapping customerID port service listenAddr maxStreams }
  | .updatePortMapping port service listenAddr maxStreams =>
    match s.portMap.updatePortMapping port service listenAddr maxStreams with
    | .error _ => some s
    | .ok m => some { s with portMap := m }
  | .removePortMapping customerID port =>
    match s.portMap.removePortMapping customerID port with
    | .error _ => some s
    | .ok m => some { s with portMap := m }
  | .register customerID conn => some { s with registry := s.registry.insert customerID conn }
  | .unregister customerID => some { s with registry := s.registry.erase customerID }
  | .setRateLimiter customerID lim =>
    some { s with rateLimiters := s.rateLimiters.insert customerID lim }
  | .setStreams mux n => some { s with streams := Function.update s.streams mux n }

end Relay

end Atlax.Model
