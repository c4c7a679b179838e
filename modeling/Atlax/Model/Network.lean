import Atlax.Model.Circuits
import Atlax.Model.Emitter
import Atlax.Model.Registry
import Atlax.Model.Route

/-!
# A relay with its agents and clients

The whole relay: agents connect and show a certificate, `AgentListener.handleConnection` reads the
customer from it and registers the connection (listener.go, registry_impl.go,
pkg/auth/identity.go); clients connect to ports, and `handleClient` and `Route` open a stream for
each on the session of the port's customer (client_listener.go, router_impl.go). Behind every
registered connection stands the other end with its services; the two ends and what runs over them
are an `Atlax.Model.Circuits`.

A call of `handleConnection`, `Unregister` or `handleClient` is a program counter in a list, and one
step of it is one section under a mutex, one update of the metrics or one step of the call it makes
on a session. Only `Route` opens streams on the relay's side of a link; everything else that happens
on a link is free.
-/

set_option autoImplicit false

namespace Atlax.Model

open Atlax.Library

/-! ## Identities -/

/-- What the relay reads of a certificate. -/
structure Certificate where
  commonName : String
  raw : Bytes
  notBefore : ℕ
  notAfter : ℕ
  deriving DecidableEq

/-- SOURCE: mtls.go:53-59 -/
structure Identity where
  customerID : String := ""
  relayID : String := ""
  certFingerprint : String
  notBefore : ℕ
  notAfter : ℕ
  deriving DecidableEq

/-- SOURCE: identity.go:16, 37-38 -/
inductive IdentityError
  | noCertificates
  | unexpectedName (commonName : String)
  deriving DecidableEq

/-- The name stands quoted in the text of the second.
SOURCE: identity.go:16, 37-38 -/
def IdentityError.text (quote : String → String) : IdentityError → String
  | .noCertificates => "auth: extract identity: no peer certificates"
  | .unexpectedName commonName =>
    "auth: extract identity: unexpected CN format: " ++ quote commonName

/-- The identity in the first certificate of the peer. `fingerprint` is SHA-256 in hex.
SOURCE: identity.go:13-42 -/
def extractIdentity (fingerprint : Bytes → String) :
    List Certificate → Except IdentityError Identity
  | [] => .error .noCertificates
  | cert :: _ =>
    let id : Identity :=
      { certFingerprint := fingerprint cert.raw
        notBefore := cert.notBefore
        notAfter := cert.notAfter }
    if cert.commonName.startsWith "customer-" then .ok { id with customerID := cert.commonName }
    else if cert.commonName.startsWith "relay" then .ok { id with relayID := cert.commonName }
    else .error (.unexpectedName cert.commonName)

/-! ## The relay -/

/-- What is at the other end of an agent's connection. -/
structure AgentSide where
  config : MuxConfig
  services : ServiceMap
  bufSize : ℕ

/-- A `LiveConnection` and the other end of it. -/
structure AgentLink where
  customerID : String
  remoteAddr : String
  certNotAfter : ℕ
  /-- the certificate that was shown, the bounds of both sessions and the services -/
  cert : Certificate
  config : Role → MuxConfig
  services : ServiceMap
  bufSize : Role → ℕ
  circuits : Circuits

/-- Where `handleConnection` stands.
SOURCE: listener.go:105-181 -/
inductive ArrivalPc
  /-- before the handshake -/
  | handshake
  /-- after it, with the certificates of the peer -/
  | identify (peerCertificates : List Certificate)
  /-- in the select that waits for the service list -/
  | services (c : ConnRef)
  /-- in Register -/
  | register (customerID : String) (pc : RegistryPc)
  | done
  deriving DecidableEq

/-- An agent that is connecting. -/
structure Arrival where
  remoteAddr : String
  agent : AgentSide
  pc : ArrivalPc

/-- Where `handleClient`, and `Route` in it, stand.
SOURCE: client_listener.go:99-145; router_impl.go:151-205; mux_session.go:111-172 -/
inductive ClientPc
  /-- before the lookup of the port, and before the rate limiter -/
  | lookupPort
  | rateLimit
  /-- in `Route` before it reads the port map, and before the registry -/
  | route
  | lookup (service : String) (maxStreams : ℤ)
  /-- before the limit, and after it was exceeded -/
  | checkLimit (service : String) (maxStreams : ℤ) (c : ConnRef)
  | overLimit (maxStreams : ℤ) (c : ConnRef)
  /-- before the test of goingAway, before the stream is made, and until the open returns -/
  | openStream (c : ConnRef) (payload : Bytes)
  | openAlloc (c : ConnRef) (payload : Bytes)
  | opening (c : ConnRef) (r : Ref)
  /-- before StreamOpened, before the goroutines start, and in `copyBidirectional` -/
  | opened (c : ConnRef) (r : Ref)
  | start (c : ConnRef) (r : Ref)
  | copying (c : ConnRef) (r : Ref)
  /-- before the deferred StreamClosed -/
  | copied (err : Option String)
  | done (r : RouteEnd)
  deriving DecidableEq

/-- A client's connection to a port. -/
structure Client where
  port : ℤ
  /-- what the lookup of the port has given -/
  customerID : String := ""
  /-- the stream that was made for it; the code does not keep it when the open fails -/
  stream : Option (ConnRef × Ref) := none
  pc : ClientPc := .lookupPort
  deriving DecidableEq

/-- Where a call stands after a section that `Atlax.Model.Route` has. -/
def Client.follow (cl : Client) : RoutePc → Client
  | .rateLimit _ customerID => { cl with customerID := customerID, pc := .rateLimit }
  | .lookup _ service maxStreams => { cl with pc := .lookup service maxStreams }
  | .checkLimit _ service maxStreams conn =>
    { cl with pc := .checkLimit service maxStreams conn.mux }
  | .overLimit _ maxStreams conn => { cl with pc := .overLimit maxStreams conn.mux }
  | .openStream conn payload => { cl with pc := .openStream conn.mux payload }
  | .done r => { cl with pc := .done r }
  | .lookupPort _ | .route _ _ | .copying _ _ => cl

/-- SOURCE: metrics.go:8-14 -/
structure StreamMetrics where
  streamsTotal : String → ℕ := fun _ => 0
  streamsActive : String → ℤ := fun _ => 0
  clientsRejected : String → String → ℕ := fun _ _ => 0

/-- SOURCE: metrics.go:73-76 -/
def StreamMetrics.streamOpened (m : StreamMetrics) (customerID : String) : StreamMetrics :=
  { m with
    streamsTotal := Function.update m.streamsTotal customerID (m.streamsTotal customerID + 1)
    streamsActive := Function.update m.streamsActive customerID (m.streamsActive customerID + 1) }

/-- SOURCE: metrics.go:79-81 -/
def StreamMetrics.streamClosed (m : StreamMetrics) (customerID : String) : StreamMetrics :=
  { m with
    streamsActive := Function.update m.streamsActive customerID (m.streamsActive customerID - 1) }

/-- SOURCE: metrics.go:95-97 -/
def StreamMetrics.clientRejected (m : StreamMetrics) (customerID reason : String) :
    StreamMetrics :=
  { m with
    clientsRejected := Function.update m.clientsRejected customerID
      (Function.update (m.clientsRejected customerID) reason
        (m.clientsRejected customerID reason + 1)) }

/-- The relay with all its agents and clients. -/
structure Network where
  /-- SHA-256 in hex -/
  fingerprint : Bytes → String
  maxStreamsPerAgent : ℕ
  links : ConnRef → AgentLink
  nextConn : ConnRef := 0
  -- the registry
  agents : AList (fun _ : String => ConnRef) := ∅
  customerLimits : AList (fun _ : String => ℤ) := ∅
  metrics : Option Metrics := some {}
  arrivals : List Arrival := []
  removals : List RegistryPc := []
  -- the router and the client listeners
  portMap : PortMap := ∅
  rateLimiters : AList (fun _ : String => RateLimitConfig) := ∅
  streamMetrics : StreamMetrics := {}
  clients : List Client := []
  audit : List AuditEvent := []
  /-- every mapping that ever was; the code does not keep it -/
  mappings : List (ℤ × PortEntry) := []

/-- A connection that is not there. -/
def AgentLink.absent : AgentLink where
  customerID := ""
  remoteAddr := ""
  certNotAfter := 0
  cert := ⟨"", [], 0, 0⟩
  config := fun _ => ⟨0, 0, 0⟩
  services := ∅
  bufSize := fun _ => 0
  circuits := newCircuits (fun _ => ⟨0, 0, 0⟩) ∅ fun _ => 0

/-- SOURCE: listener.go:47-62; registry_impl.go:32-38; router_impl.go:42-48 -/
def newNetwork (fingerprint : Bytes → String) (maxStreamsPerAgent : ℤ) : Network where
  fingerprint := fingerprint
  maxStreamsPerAgent := if maxStreamsPerAgent ≤ 0 then 50 else maxStreamsPerAgent.toNat
  links := fun _ => .absent

/-- The steps of the network. -/
inductive NetworkAction
  /-- something connects to the agents' port, with or without TLS; the handshake ends -/
  | accept (remoteAddr : String) (agent : AgentSide) (tls : Bool)
  | handshake (k : ℕ) (peerCertificates : Option (List Certificate))
  /-- a call of `handleConnection` goes on -/
  | arrival (k : ℕ)
  | unregister (customerID : String)
  | removal (j : ℕ)
  | setCustomerLimit (customerID : String) (maxConns : ℤ)
  /-- what happens on a link -/
  | link (c : ConnRef) (b : CircuitsAction)
  /-- a client connects; its call goes on; the rate limiter, the open and the copying are done -/
  | client (port : ℤ)
  | run (i : ℕ)
  | rateLimit (i : ℕ) (allowed : Bool)
  | opened (i : ℕ) (err : Option String)
  | addPortMapping (customerID : String) (port : ℤ) (service listenAddr : String) (maxStreams : ℤ)
  | updatePortMapping (port : ℤ) (service listenAddr : String) (maxStreams : ℤ)
  | removePortMapping (customerID : String) (port : ℤ)
  | setRateLimiter (customerID : String) (lim : RateLimitConfig)

namespace Network

variable (N : Network)

@[simps] def setLink (c : ConnRef) (P : Circuits) : Network :=
  { N with links := Function.update N.links c { N.links c with circuits := P } }

@[simps] def addLink (l : AgentLink) : Network :=
  { N with links := Function.update N.links N.nextConn l, nextConn := N.nextConn + 1 }

@[simps] def setArrival (k : ℕ) (a : Arrival) : Network :=
  { N with arrivals := N.arrivals.set k a }

@[simps] def setRemoval (j : ℕ) (pc : RegistryPc) : Network :=
  { N with removals := N.removals.set j pc }

@[simps] def setClient (i : ℕ) (cl : Client) : Network :=
  { N with clients := N.clients.set i cl }

@[simps] def setAgent (customerID : String) (c : ConnRef) : Network :=
  { N with agents := N.agents.insert customerID c }

@[simps] def deleteAgent (customerID : String) : Network :=
  { N with agents := N.agents.erase customerID }

@[simps] def setStreamMetrics (m : StreamMetrics) : Network := { N with streamMetrics := m }

@[simps] def setMapping (port : ℤ) (e : PortEntry) (m : PortMap) : Network :=
  { N with portMap := m, mappings := (port, e) :: N.mappings }

/-- SOURCE: listener.go:183-197 -/
@[simps] def emitAudit (action : AuditAction) (target customerID : String) : Network :=
  { N with audit := N.audit ++
      [{ action := action, actor := "relay", target := target, customerID := customerID }] }

/-- A step of what runs over a link that is there. -/
def stepLink (c : ConnRef) (b : CircuitsAction) : Option Network :=
  if c < N.nextConn then ((N.links c).circuits.step b).map (N.setLink c) else none

/-- The relay's session of a link. -/
def session (c : ConnRef) : Session := (N.links c).circuits.sys.sess .relay

/-- SOURCE: mux_session.go:269-274 -/
def numStreams (c : ConnRef) : ℕ := (N.session c).table.streams.entries.length

/-- The next step of Register or Unregister; nothing calls Heartbeat.
SOURCE: registry_impl.go:53-117 -/
def runRegistry (pc : RegistryPc) : Option (Network × RegistryPc) := do
  let (call, t, pc') ← RegistryTables.next ⟨N.agents, N.customerLimits, N.metrics⟩ N.session pc
  match call with
  | some (c, a) => (N.stepLink c (.sys .relay a)).map (·, pc')
  | none => some ({ N with agents := t.agents, metrics := t.metrics }, pc')

/-- What `handleConnection` makes of the certificates: the session and the connection.
SOURCE: listener.go:120-156 -/
def identify (k : ℕ) (a : Arrival) (peerCertificates : List Certificate) : Network :=
  match peerCertificates, extractIdentity N.fingerprint peerCertificates with
  | cert :: _, .ok id =>
    if id.customerID = "" then N.setArrival k { a with pc := .done }
    else
      let config : Role → MuxConfig
        | .relay => ⟨N.maxStreamsPerAgent, 262144, 1048576⟩
        | .agent => a.agent.config
      -- the relay copies with the buffer of `io.Copy`
      let bufSize : Role → ℕ
        | .relay => 32768
        | .agent => a.agent.bufSize
      ((N.emitAudit .authSuccess a.remoteAddr id.customerID).addLink
        { customerID := id.customerID
          remoteAddr := a.remoteAddr
          certNotAfter := cert.notAfter
          cert := cert
          config := config
          services := a.agent.services
          bufSize := bufSize
          circuits := newCircuits config a.agent.services bufSize }).setArrival k
        { a with pc := .services N.nextConn }
  | _, _ => (N.emitAudit .authFailure a.remoteAddr "").setArrival k { a with pc := .done }

/-- The next section of `handleConnection` after the handshake.
SOURCE: listener.go:120-181 -/
def runArrival (k : ℕ) (a : Arrival) : Option Network :=
  match a.pc with
  | .identify peerCertificates => some (N.identify k a peerCertificates)
  | .services c =>
    -- the list has come, or the time is up
    let customerID := (N.links c).customerID
    some (N.setArrival k { a with pc := .register customerID (.register customerID c) })
  | .register customerID (.done _) =>
    some ((N.emitAudit .agentConnected a.remoteAddr customerID).setArrival k { a with pc := .done })
  | .register customerID pc =>
    (N.runRegistry pc).map fun (N', pc') =>
      N'.setArrival k { a with pc := .register customerID pc' }
  | .handshake | .done => none

/-- SOURCE: router_impl.go:195; mux_session.go:113, 119; errors.go:24-26 -/
def openError (err : String) : ClientPc :=
  .done (.returned (some (.openStream s!"mux: open stream: {err}")))

/-- A section of `handleClient` or `Route` up to the open, as `Atlax.Model.Route` has it. -/
def runRoute (i : ℕ) (cl : Client) (pc : RoutePc) : Option Network :=
  (pc.next N.portMap (fun id => (N.agents.lookup id).map (⟨·, true⟩)) N.numStreams).map fun pc' =>
    match pc' with
    | .overLimit customerID _ _ =>
      (N.setStreamMetrics (N.streamMetrics.clientRejected customerID "stream_limit")).setClient i
        (cl.follow pc')
    | _ => N.setClient i (cl.follow pc')

/-- The next section of `handleClient` and of `Route`.
SOURCE: client_listener.go:99-145; router_impl.go:151-205 -/
def runClient (i : ℕ) (cl : Client) : Option Network :=
  match cl.pc with
  | .lookupPort => N.runRoute i cl (.lookupPort cl.port)
  | .route => N.runRoute i cl (.route cl.port cl.customerID)
  | .lookup service maxStreams => N.runRoute i cl (.lookup cl.customerID service maxStreams)
  | .checkLimit service maxStreams c =>
    N.runRoute i cl (.checkLimit cl.customerID service maxStreams ⟨c, true⟩)
  | .overLimit maxStreams c => N.runRoute i cl (.overLimit cl.customerID maxStreams ⟨c, true⟩)
  | .openStream c payload =>
    if (N.session c).goingAway then
      some (N.setClient i { cl with pc := openError "received GOAWAY from peer" })
    else
      (N.stepLink c (.sys .relay (.openStream payload))).map
        (·.setClient i { cl with pc := .openAlloc c payload })
  | .openAlloc c payload =>
    (N.stepLink c (.sys .relay (.openAlloc payload))).map (·.setClient i
      (if N.numStreams c ≥ (N.session c).config.maxConcurrentStreams then
        { cl with pc := openError "maximum concurrent streams exceeded" }
      else
        { cl with
          stream := some (c, (N.session c).nextRef)
          pc := .opening c (N.session c).nextRef }))
  | .opened c r =>
    some ((N.setStreamMetrics (N.streamMetrics.streamOpened cl.customerID)).setClient i
      { cl with pc := .start c r })
  | .start c r => (N.stepLink c (.route r)).map (·.setClient i { cl with pc := .copying c r })
  | .copying c r =>
    let e := (N.links c).circuits.relayEnd r
    (copyResult e.cancelled e.errCh).map fun err => N.setClient i { cl with pc := .copied err }
  | .copied err =>
    some ((N.setStreamMetrics (N.streamMetrics.streamClosed cl.customerID)).setClient i
      { cl with pc := .done (.returned (err.map .copy)) })
  | .rateLimit | .opening _ _ | .done _ => none

/-- `Route` opens the streams of the relay and starts their copies. -/
def ofRoute : CircuitsAction → Bool
  | .sys .relay (.openStream _) | .sys .relay (.openAlloc _) | .route _ => true
  | _ => false

/-- One step. -/
def step : NetworkAction → Option Network
  | .accept remoteAddr agent tls =>
    let pc := if tls then .handshake else .done
    some { N with arrivals := N.arrivals ++ [⟨remoteAddr, agent, pc⟩] }
  | .handshake k peerCertificates =>
    match N.arrivals[k]? with
    | some a =>
      if a.pc = .handshake then
        match peerCertificates with
        | some chain => some (N.setArrival k { a with pc := .identify chain })
        | none =>
          some ((N.emitAudit .authFailure a.remoteAddr "").setArrival k { a with pc := .done })
      else none
    | none => none
  | .arrival k => N.arrivals[k]?.bind (N.runArrival k)
  | .unregister customerID => some { N with removals := N.removals ++ [.unregister customerID] }
  | .removal j => (N.removals[j]?.bind N.runRegistry).map fun (N', pc) => N'.setRemoval j pc
  | .setCustomerLimit customerID maxConns =>
    some { N with customerLimits := N.customerLimits.insert customerID maxConns }
  | .link c b => if ofRoute b then none else N.stepLink c b
  | .client port => some { N with clients := N.clients ++ [{ port := port }] }
  | .run i => N.clients[i]?.bind (N.runClient i)
  | .rateLimit i allowed =>
    match N.clients[i]? with
    | some cl =>
      if cl.pc = .rateLimit then
        if allowed then some (N.setClient i { cl with pc := .route })
        else if cl.customerID ∈ N.rateLimiters then
          some ((N.setStreamMetrics
            (N.streamMetrics.clientRejected cl.customerID "rate_limited")).setClient i
              { cl with pc := .done .rateLimited })
        else none
      else none
    | none => none
  | .opened i err =>
    match N.clients[i]? with
    | some cl =>
      match cl.pc, err with
      | .opening c r, none =>
        if ((N.session c).cells r).openPc = .returned then
          some (N.setClient i { cl with pc := .opened c r })
        else none
      | .opening c r, some err =>
        if ((N.session c).cells r).openPc = .failed then
          some (N.setClient i { cl with pc := openError err })
        else none
      | _, _ => none
    | none => none
  | .addPortMapping customerID port service listenAddr maxStreams =>
    some (N.setMapping port ⟨customerID, service, maxStreams, listenAddr⟩
      (N.portMap.addPortMapping customerID port service listenAddr maxStreams))
  | .updatePortMapping port service listenAddr maxStreams =>
    match N.portMap.lookup port with
    | some e =>
      match N.portMap.updatePortMapping port service listenAddr maxStreams with
      | .ok m => some (N.setMapping port ⟨e.customerID, service, maxStreams, listenAddr⟩ m)
      | .error _ => some N
    | none => some N
  | .removePortMapping customerID port =>
    match N.portMap.removePortMapping customerID port with
    | .error _ => some N
    | .ok m => some { N with portMap := m }
  | .setRateLimiter customerID lim =>
    some { N with rateLimiters := N.rateLimiters.insert customerID lim }

end Network

end Atlax.Model
