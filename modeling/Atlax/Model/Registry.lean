import Atlax.Model.Session
import Mathlib.Data.List.AList

/-!
# The registry of agent connections

`MemoryRegistry` (pkg/relay/registry_impl.go) maps each customer to the connection of its agent. The
connections live on a heap of their own (`conns`), each with its session, which steps as in
`Atlax.Model.Session` at any time; the registry holds references to them. A call of Register,
Unregister or Heartbeat is a program counter in `calls`, and one step of it is its section under the
registry's mutex, one update of the gauges or one step of the call it makes on a session.

The listener's part is `connect` and `serviceList` (pkg/relay/listener.go): it makes the session and
the connection before it calls Register. Register itself may be called with any connection, any
number of times.
-/

set_option autoImplicit false

namespace Atlax.Model

/-- A reference to a connection on the heap. -/
abbrev ConnRef := ℕ

/-- What is listed about an agent; times are ticks of `MemoryRegistry.clock`.
SOURCE: registry.go:62-70 -/
structure AgentInfo where
  customerID : String
  remoteAddr : String
  connectedAt : ℕ
  lastSeen : ℕ
  streamCount : ℕ
  services : List Bytes
  certNotAfter : Option ℕ
  deriving DecidableEq

/-- SOURCE: connection.go:13-28 -/
structure LiveConnection where
  customerID : String
  mux : Session
  remoteAddr : String
  connectedAt : ℕ
  lastSeen : ℕ
  services : List Bytes := []
  certNotAfter : Option ℕ := none

/-- SOURCE: connection.go:34-47 -/
def newLiveConnection (customerID : String) (mux : Session) (remoteAddr : String) (now : ℕ) :
    LiveConnection where
  customerID := customerID
  mux := mux
  remoteAddr := remoteAddr
  connectedAt := now
  lastSeen := now

/-- SOURCE: registry_impl.go:155-163; mux_session.go:269-274 -/
def LiveConnection.info (conn : LiveConnection) : AgentInfo where
  customerID := conn.customerID
  remoteAddr := conn.remoteAddr
  connectedAt := conn.connectedAt
  lastSeen := conn.lastSeen
  streamCount := conn.mux.table.streams.entries.length
  services := conn.services
  certNotAfter := conn.certNotAfter

/-- What Register is given: a `LiveConnection`, or something else with the same methods. -/
inductive AgentConnection
  | live (c : ConnRef)
  | other
  deriving DecidableEq

/-- The connection metrics; a customer nobody has counted yet stands at 0.
SOURCE: metrics.go:83-92 -/
structure Metrics where
  connectionsTotal : String → ℕ := fun _ => 0
  connectionsActive : String → ℤ := fun _ => 0

/-- SOURCE: metrics.go:83-87 -/
def Metrics.connectionRegistered (m : Metrics) (customerID : String) : Metrics where
  connectionsTotal :=
    Function.update m.connectionsTotal customerID (m.connectionsTotal customerID + 1)
  connectionsActive :=
    Function.update m.connectionsActive customerID (m.connectionsActive customerID + 1)

/-- SOURCE: metrics.go:89-92 -/
def Metrics.connectionUnregistered (m : Metrics) (customerID : String) : Metrics where
  connectionsTotal := m.connectionsTotal
  connectionsActive :=
    Function.update m.connectionsActive customerID (m.connectionsActive customerID - 1)

/-- Where a call stands.
SOURCE: registry_impl.go:53-144 -/
inductive RegistryPc
  /-- Register before its section -/
  | register (customerID : String) (c : ConnRef)
  /-- Register after the section that replaced `old`, before the gauge -/
  | replaced (customerID : String) (old : ConnRef)
  /-- the two steps of `old.Muxer().GoAway(0)` -/
  | goAway (customerID : String) (old : ConnRef)
  | goAwaySend (customerID : String) (old : ConnRef)
  /-- before `Close` of the connection, and in it; the customer is the one Register goes on for -/
  | close (customerID : Option String) (c : ConnRef)
  | closing (customerID : Option String) (c : ConnRef)
  /-- Register before its last update of the gauges -/
  | registered (customerID : String)
  /-- Unregister before its section, and after the section that removed `c` -/
  | unregister (customerID : String)
  | removed (customerID : String) (c : ConnRef)
  | heartbeat (customerID : String)
  | updateLastSeen (c : ConnRef)
  | done (err : Option String)
  deriving DecidableEq

/-- Register goes on to count the new connection, Unregister returns.
SOURCE: registry_impl.go:83-90, 111-115 -/
def RegistryPc.afterClose : Option String → RegistryPc
  | some customerID => .registered customerID
  | none => .done none

/-- What the registry keeps: the connections, the limits and the gauges.
SOURCE: registry_impl.go:20-26 -/
structure RegistryTables where
  agents : AList (fun _ : String => ConnRef) := ∅
  customerLimits : AList (fun _ : String => ℤ) := ∅
  metrics : Option Metrics := none

namespace RegistryTables

variable (t : RegistryTables)

/-- The limit Register works with.
SOURCE: registry_impl.go:64-67 -/
def limit (customerID : String) : ℤ :=
  let limit := (t.customerLimits.lookup customerID).getD 0
  if limit ≤ 0 then 1 else limit

/-- The next section of Register or Unregister: the step of a session that it makes, if any, and
what it leaves. `mux` gives the session of a connection, whose first `Close` starts it and every
other waits for its end.
SOURCE: registry_impl.go:53-117; connection.go:117-119; mux_session.go:189-205 -/
def next (mux : ConnRef → Session) :
    RegistryPc → Option (Option (ConnRef × Action) × RegistryTables × RegistryPc)
  | .register customerID c =>
    let t' := { t with agents := t.agents.insert customerID c }
    match t.agents.lookup customerID with
    | some old =>
      if t.limit customerID = 1 then some (none, t', .replaced customerID old)
      else some (none, t', .registered customerID)
    | none => some (none, t', .registered customerID)
  | .replaced customerID old =>
    some (none, { t with metrics := t.metrics.map (·.connectionUnregistered customerID) },
      .goAway customerID old)
  | .goAway customerID old => some (some (old, .goAway), t, .goAwaySend customerID old)
  | .goAwaySend customerID old =>
    some (some (old, .goAwaySend 0), t, .close (some customerID) old)
  | .close customerID c =>
    if (mux c).closed then some (none, t, .closing customerID c)
    else some (some (c, .closeSession), t, .closing customerID c)
  | .closing customerID c =>
    if (mux c).closing = .done then some (none, t, .afterClose customerID) else none
  | .registered customerID =>
    some (none, { t with metrics := t.metrics.map (·.connectionRegistered customerID) },
      .done none)
  | .unregister customerID =>
    match t.agents.lookup customerID with
    | some c => some (none, { t with agents := t.agents.erase customerID }, .removed customerID c)
    | none => some (none, t, .done none)
  | .removed customerID c =>
    some (none, { t with metrics := t.metrics.map (·.connectionUnregistered customerID) },
      .close none c)
  | .heartbeat _ | .updateLastSeen _ | .done _ => none

end RegistryTables

/-- SOURCE: registry_impl.go:20-26; listener.go:25-33 -/
structure MemoryRegistry where
  agents : AList (fun _ : String => ConnRef) := ∅
  customerLimits : AList (fun _ : String => ℤ) := ∅
  metrics : Option Metrics := none
  /-- the listener's bound on the streams of a session -/
  maxStreamsPerAgent : ℕ
  conns : ConnRef → LiveConnection
  nextConn : ConnRef := 0
  clock : ℕ := 0
  calls : List RegistryPc := []
  /-- every connection that was ever registered, with its customer; the code does not keep it -/
  history : List (String × ConnRef) := []

/-- SOURCE: registry_impl.go:32-38; listener.go:47-62 -/
def newMemoryRegistry (maxStreamsPerAgent : ℤ) : MemoryRegistry where
  maxStreamsPerAgent := if maxStreamsPerAgent ≤ 0 then 50 else maxStreamsPerAgent.toNat
  conns := fun _ => newLiveConnection "" (newMuxSession .relay ⟨0, 0, 0⟩) "" 0

/-- The steps of the registry. -/
inductive RegistryAction
  | tick
  -- the listener has authenticated an agent; it takes the service list the session has received
  | connect (customerID remoteAddr : String) (certNotAfter : Option ℕ)
  | serviceList (c : ConnRef)
  -- any step of the session of a connection, its failure among them
  | session (c : ConnRef) (a : Action)
  | setCustomerLimit (customerID : String) (maxConns : ℤ)
  | register (customerID : String) (conn : AgentConnection)
  | unregister (customerID : String)
  | heartbeat (customerID : String)
  -- call `i` takes its next step
  | run (i : ℕ)
  deriving DecidableEq

namespace MemoryRegistry

variable (s : MemoryRegistry)

/-- SOURCE: registry_impl.go:41 -/
def setMetrics (m : Metrics) : MemoryRegistry := { s with metrics := some m }

@[simps] def setConn (c : ConnRef) (conn : LiveConnection) : MemoryRegistry :=
  { s with conns := Function.update s.conns c conn }

@[simps] def setMux (c : ConnRef) (mux : Session) : MemoryRegistry :=
  { s with conns := Function.update s.conns c { s.conns c with mux := mux } }

@[simps] def addConn (conn : LiveConnection) : MemoryRegistry :=
  { s with conns := Function.update s.conns s.nextConn conn, nextConn := s.nextConn + 1 }

@[simps] def addCall (pc : RegistryPc) : MemoryRegistry := { s with calls := s.calls ++ [pc] }

@[simps] def setCall (i : ℕ) (pc : RegistryPc) : MemoryRegistry :=
  { s with calls := s.calls.set i pc }

@[simps] def setAgent (customerID : String) (c : ConnRef) : MemoryRegistry :=
  { s with
    agents := s.agents.insert customerID c
    history := (customerID, c) :: s.history }

@[simps] def deleteAgent (customerID : String) : MemoryRegistry :=
  { s with agents := s.agents.erase customerID }

@[simps] def mapMetrics (f : Metrics → Metrics) : MemoryRegistry :=
  { s with metrics := s.metrics.map f }

/-- SOURCE: registry_impl.go:11, 128, 140 -/
def errAgentNotFound (customerID : String) : String := s!"relay: agent not found: {customerID}"

/-- SOURCE: registry_impl.go:119-131 -/
def lookup (customerID : String) : Except String ConnRef :=
  match s.agents.lookup customerID with
  | none => .error (errAgentNotFound customerID)
  | some c => .ok c

/-- The connections that ListConnectedAgents goes through. -/
def connectedAgents : List ConnRef := s.agents.entries.map (·.2)

/-- SOURCE: registry_impl.go:147-166 -/
def listConnectedAgents : List AgentInfo := s.connectedAgents.map fun c => (s.conns c).info

/-- A step of the session of `c`. -/
def stepMux (c : ConnRef) (a : Action) : Option MemoryRegistry :=
  ((s.conns c).mux.step a).map (s.setMux c)

def tables : RegistryTables := ⟨s.agents, s.customerLimits, s.metrics⟩

/-- A section of Register or Unregister leaves the tables as `t`, and makes its step of a session,
if it makes one. -/
def act (pc : RegistryPc) (t : RegistryTables) : Option (ConnRef × Action) → Option MemoryRegistry
  | some (c, a) => s.stepMux c a
  | none =>
    some { s with
      agents := t.agents
      metrics := t.metrics
      history := match pc with
        | .register customerID c => (customerID, c) :: s.history
        | _ => s.history }

/-- The next step of a call: the rest of the state, and where the call stands afterwards.
SOURCE: registry_impl.go:53-144 -/
def runCall : RegistryPc → Option (MemoryRegistry × RegistryPc)
  | .heartbeat customerID =>
    match s.agents.lookup customerID with
    | some c => some (s, .updateLastSeen c)
    | none => some (s, .done (some (errAgentNotFound customerID)))
  | .updateLastSeen c =>
    some (s.setConn c { s.conns c with lastSeen := s.clock }, .done none)
  | pc => do
    let (call, t, pc') ← s.tables.next (fun c => (s.conns c).mux) pc
    (s.act pc t call).map (·, pc')

/-- The session the listener makes for an agent.
SOURCE: listener.go:138-145 -/
def newAgentSession : Session := newMuxSession .relay ⟨s.maxStreamsPerAgent, 262144, 1048576⟩

/-- One step of the registry, of a call on it, or of what it holds. -/
def step : RegistryAction → Option MemoryRegistry
  | .tick => some { s with clock := s.clock + 1 }
  | .connect customerID remoteAddr certNotAfter =>
    -- the certificate of another relay has no customer
    if customerID = "" then none
    else some (s.addConn { newLiveConnection customerID s.newAgentSession remoteAddr s.clock with
      certNotAfter := certNotAfter })
  | .serviceList c =>
    if c < s.nextConn then
      (s.conns c).mux.serviceListCh.map fun services =>
        s.setConn c { s.conns c with
          mux := { (s.conns c).mux with serviceListCh := none }
          services := services }
    else none
  | .session c a => if c < s.nextConn then s.stepMux c a else none
  | .setCustomerLimit customerID maxConns =>
    some { s with customerLimits := s.customerLimits.insert customerID maxConns }
  | .register customerID (.live c) =>
    if c < s.nextConn then some (s.addCall (.register customerID c)) else none
  | .register _ .other =>
    some (s.addCall (.done (some "relay: register: expected *LiveConnection")))
  | .unregister customerID => some (s.addCall (.unregister customerID))
  | .heartbeat customerID => some (s.addCall (.heartbeat customerID))
  | .run i => (s.calls[i]?.bind s.runCall).map fun (s', pc) => s'.setCall i pc

end MemoryRegistry

end Atlax.Model
