import Atlax.Library.Run
import Atlax.Model.Config
import Atlax.Model.Router

/-!
# The relay's control plane

The admin server with the router, the client listeners and the sidecar file it acts on
(pkg/relay/admin.go, admin_reload.go, client_listener.go, store.go). Requests run concurrently,
each in its own goroutine, so that a request is a program counter and a step is one of its
sections: a method of the router under its lock, the start of a listener with its outcome, a
snapshot of the port map, a write of the sidecar file. Reloads exclude each other; they visit the
ports of a config in any order, as a Go map is iterated.
-/

set_option autoImplicit false

namespace Atlax.Model

open Atlax.Library

/-- SOURCE: admin.go:136-143 -/
structure PortCreateRequest where
  port : ℤ
  customerID : String
  service : String
  maxStreams : ℤ := 0
  listenAddr : String := ""
  deriving DecidableEq

/-- SOURCE: admin.go:153-157 -/
structure PortUpdateRequest where
  service : String := ""
  maxStreams : Option ℤ := none
  listenAddr : String := ""
  deriving DecidableEq

/-- SOURCE: admin_reload.go:18-25 -/
structure ReloadSummary where
  portsAdded : ℕ := 0
  portsRemoved : ℕ := 0
  portsUpdated : ℕ := 0
  portsRejected : ℕ := 0
  rateLimitsChanged : ℕ := 0
  restartRequired : List String := []
  deriving DecidableEq

/-- What a request answers: an error with its status and text, a port, nothing, or the summary of a
reload. -/
inductive Response
  | error (status : ℕ) (text : String)
  | port (status : ℕ) (info : PortInfo)
  | noContent
  | summary (s : ReloadSummary)
  deriving DecidableEq

/-- SOURCE: admin.go:401-419 -/
def PortCreateRequest.check (isIP : String → Bool) (req : PortCreateRequest) :
    Except Response Unit :=
  if req.port ≤ 0 ∨ 65535 < req.port then
    .error (.error 400 "port must be between 1 and 65535")
  else if req.customerID = "" ∨ req.service = "" then
    .error (.error 400 "customer_id and service are required")
  else if req.listenAddr ≠ "" ∧ ¬ isIP req.listenAddr then
    .error (.error 400 "listen_addr must be a valid IP address")
  else if req.maxStreams < 0 then .error (.error 400 "max_streams must be non-negative")
  else .ok ()

/-- SOURCE: admin.go:535-558 -/
def PortUpdateRequest.check (isIP : String → Bool) (req : PortUpdateRequest) :
    Except Response Unit :=
  if req.service = "" ∧ req.listenAddr = "" ∧ req.maxStreams = none then
    .error (.error 400 "at least one of service, listen_addr, max_streams must be set")
  else if req.listenAddr ≠ "" ∧ ¬ isIP req.listenAddr then
    .error (.error 400 "listen_addr must be a valid IP address")
  else if req.maxStreams.any (· < 0) then
    .error (.error 400 "max_streams must be non-negative")
  else .ok ()

def PortCreateRequest.info (req : PortCreateRequest) : PortInfo where
  port := req.port
  customerID := req.customerID
  service := req.service
  maxStreams := req.maxStreams
  listenAddr := defaultAddr req.listenAddr

/-- The fields of a request on top of the existing ones; the customer is the existing one.
SOURCE: admin.go:564-578 -/
def mergePortUpdate (existing : PortInfo) (req : PortUpdateRequest) : PortInfo :=
  { existing with
    service := if req.service ≠ "" then req.service else existing.service
    listenAddr := if req.listenAddr ≠ "" then req.listenAddr else existing.listenAddr
    maxStreams := req.maxStreams.getD existing.maxStreams }

/-- The address a listener binds. -/
def bindAddr (listenAddr : String) (port : ℤ) : String := s!"{listenAddr}:{port}"

/-- The text of a POST whose listener was refused with `err`.
SOURCE: admin.go:448; client_listener.go:57 -/
def createError (req : PortCreateRequest) (err : String) : String :=
  let addr := bindAddr (defaultAddr req.listenAddr) req.port
  let port := req.port
  s!"listen {addr}: relay: client listener: port {port}: {err}"

/-- A reload between two of its sections: the two configs, the ports of the new one still to be
looked at, the ports that are only in the old one and still to be removed, and the counts so far. -/
structure Reload where
  oldCfg : Option RelayConfig
  newCfg : RelayConfig
  adds : List ℤ
  removes : List ℤ
  summary : ReloadSummary := {}
  listed : ∀ p ∈ adds, p ∈ indexPorts (some newCfg)
  omitted : ∀ p ∈ removes, p ∉ indexPorts (some newCfg)
  deriving DecidableEq

namespace Reload

def oldIdx (st : Reload) : PortIndex := indexPorts st.oldCfg

def newIdx (st : Reload) : PortIndex := indexPorts (some st.newCfg)

/-- SOURCE: admin_reload.go:160-184 -/
def start (oldCfg : Option RelayConfig) (newCfg : RelayConfig) : Reload where
  oldCfg := oldCfg
  newCfg := newCfg
  adds := (indexPorts (some newCfg)).keys
  removes := (indexPorts oldCfg).keys.filter fun p => p ∉ indexPorts (some newCfg)
  listed := fun _ hp => hp
  omitted := fun _ hp => of_decide_eq_true (List.mem_filter.mp hp).2

/-- The loop over the new config takes `port`. -/
def takeAdd (st : Reload) (port : ℤ) : Reload :=
  { st with
    adds := st.adds.erase port
    listed := fun p hp => st.listed p (List.mem_of_mem_erase hp) }

/-- The loop over the old config takes `port`. -/
def takeRemove (st : Reload) (port : ℤ) : Reload :=
  { st with
    removes := st.removes.erase port
    omitted := fun p hp => st.omitted p (List.mem_of_mem_erase hp) }

end Reload

/-- Where a request stands. -/
inductive RequestPc
  -- createPort: add the mapping, wait for the listener, roll back
  | createAdd (req : PortCreateRequest)
  | createWait (req : PortCreateRequest)
  | createRollback (req : PortCreateRequest) (err : String)
  -- updatePort: read the mapping, replace it
  | updateGet (port : ℤ) (req : PortUpdateRequest)
  | updateApply (port : ℤ) (existing : PortInfo) (req : PortUpdateRequest)
  -- deletePort: read the customer, remove the mapping, stop the listener
  | deleteLookup (port : ℤ)
  | deleteRemove (port : ℤ) (customerID : String)
  | deleteStop (port : ℤ)
  -- Reload: take reloadMu, load the file, go through the ports, commit
  | reloadLock
  | reloadLoad
  | reloadPorts (st : Reload)
  | reloadWait (st : Reload) (port : ℤ) (entry : PortIndexEntry)
  | reloadRollback (st : Reload) (port : ℤ) (entry : PortIndexEntry)
  | reloadStop (st : Reload) (port : ℤ)
  | reloadCommit (st : Reload)
  -- all of them: snapshot the map, write the sidecar, answer
  | snapshot (r : Response)
  | save (r : Response) (ports : List PortInfo)
  | done (r : Response)
  deriving DecidableEq

/-- How the start of a listener looks to the request that waits 50 ms for it: bound, refused with an
error, or still under way. -/
inductive Bind
  | bound
  | refused (err : String)
  | slow
  deriving DecidableEq

/-- An open client listener. -/
structure Socket where
  id : ℕ
  port : ℤ
  addr : String
  deriving DecidableEq

/-- The admin server with what it acts on. `starting` are the goroutines of `StartPort` that nobody
waits for; `reloading` is the mutex of `Reload`; `store` says whether a sidecar is configured. -/
structure Admin where
  portMap : PortMap := ∅
  listeners : AList (fun _ : ℤ => ℕ) := ∅
  sockets : List Socket := []
  nextSocket : ℕ := 0
  starting : List (ℤ × String) := []
  rateLimiters : AList (fun _ : String => RateLimitConfig) := ∅
  currentCfg : Option RelayConfig := none
  reloading : Bool := false
  store : Bool := false
  sidecar : SidecarFile := .missing
  requests : List RequestPc := []

/-- The steps of the admin server. -/
inductive AdminAction
  -- a request arrives; `none` is a body that is not JSON
  | post (body : Option PortCreateRequest)
  | put (port : ℤ) (body : Option PortUpdateRequest)
  | delete (port : ℤ)
  | reload
  -- request `i` runs its next section, gets its listener's outcome, reads the config file, takes
  -- the next port of a config, writes the sidecar
  | run (i : ℕ)
  | bind (i : ℕ) (b : Bind)
  | load (i : ℕ) (file : Except String RelayConfig)
  | pick (i : ℕ) (port : ℤ)
  | save (i : ℕ) (written : Bool)
  -- a listener that nobody waits for starts or fails
  | listen (port : ℤ) (addr : String) (bound : Bool)

attribute [induction_eliminator] AdminAction.casesOn RequestPc.casesOn Bind.casesOn

namespace Admin

variable (s : Admin)

def setRequest (i : ℕ) (pc : RequestPc) : Admin := { s with requests := s.requests.set i pc }

def addRequest (pc : RequestPc) : Admin := { s with requests := s.requests ++ [pc] }

/-- `StartPortWithListener` on a bound socket.
SOURCE: client_listener.go:50-76 -/
def bindPort (port : ℤ) (addr : String) : Admin :=
  { s with
    sockets := s.sockets ++ [⟨s.nextSocket, port, addr⟩]
    listeners := s.listeners.insert port s.nextSocket
    nextSocket := s.nextSocket + 1 }

/-- SOURCE: client_listener.go:148-161 -/
def stopPort (port : ℤ) : Admin :=
  match s.listeners.lookup port with
  | none => s
  | some id =>
    { s with
      sockets := s.sockets.filter fun k => k.id ≠ id
      listeners := s.listeners.erase port }

/-- A rollback ignores the error of the removal.
SOURCE: admin.go:447; admin_reload.go:223 -/
def rollback (customerID : String) (port : ℤ) : PortMap :=
  match s.portMap.removePortMapping customerID port with
  | .ok m => m
  | .error _ => s.portMap

/-- SOURCE: client_listener.go:39-46 -/
def setRateLimiter (customerID : String) (lim : RateLimitConfig) : Admin :=
  if lim.requestsPerSecond ≤ 0 then s
  else { s with rateLimiters := s.rateLimiters.insert customerID lim }

/-- SOURCE: admin_reload.go:285-305 -/
def applyRateLimitChanges (oldCfg newCfg : Option RelayConfig) : Admin × ℕ :=
  (rateLimits newCfg).entries.foldl (fun acc e =>
    if (rateLimits oldCfg).lookup e.1 = some e.2 ∨ e.2.requestsPerSecond ≤ 0 then acc
    else (acc.1.setRateLimiter e.1 e.2, acc.2 + 1)) (s, 0)

/-- The request answers; a reload gives its mutex back. -/
def finish (i : ℕ) (r : Response) : Admin :=
  match r with
  | .summary _ => { s with reloading := false }.setRequest i (.done r)
  | _ => s.setRequest i (.done r)

/-- The outcome of starting a listener for `port` on behalf of request `i`: on to `next` unless the
bind was refused in time.
SOURCE: admin.go:438-452; admin_reload.go:215-228 -/
def started (i : ℕ) (port : ℤ) (addr : String) (b : Bind) (next : RequestPc)
    (rollback : String → RequestPc) : Admin :=
  match b with
  | .bound => (s.bindPort port addr).setRequest i next
  | .refused err => s.setRequest i (rollback err)
  | .slow => { s with starting := s.starting ++ [(port, addr)] }.setRequest i next

/-- One port of the new config.
SOURCE: admin_reload.go:167-177, 202-207, 255-265 -/
def reloadPort (i : ℕ) (st : Reload) (port : ℤ) (entry : PortIndexEntry) : Admin :=
  match st.oldIdx.lookup port with
  | none =>
    { s with
      portMap := s.portMap.addPortMapping entry.customerID port entry.service entry.listenAddr
        entry.maxStreams }.setRequest i (.reloadWait st port entry)
  | some old =>
    if old.customerID ≠ entry.customerID then
      s.setRequest i (.reloadPorts
        { st with summary.portsRejected := st.summary.portsRejected + 1 })
    else if portMutableFieldsDiffer old entry then
      match s.portMap.updatePortMapping port entry.service entry.listenAddr entry.maxStreams with
      | .error _ => s.setRequest i (.reloadPorts st)
      | .ok m => { s with portMap := m }.setRequest i (.reloadPorts
          { st with summary.portsUpdated := st.summary.portsUpdated + 1 })
    else s.setRequest i (.reloadPorts st)

/-- A port that is only in the old config.
SOURCE: admin_reload.go:180-184, 237-250 -/
def reloadRemove (i : ℕ) (st : Reload) (port : ℤ) (entry : PortIndexEntry) : Admin :=
  match s.portMap.removePortMapping entry.customerID port with
  | .error _ => s.setRequest i (.reloadPorts st)
  | .ok m => { s with portMap := m }.setRequest i (.reloadStop st port)

/-- The next port of the loops of `applyReload`: first those of the new config, then those that are
gone from it.
SOURCE: admin_reload.go:166-184 -/
def pick (i : ℕ) (st : Reload) (port : ℤ) : Option Admin :=
  if port ∈ st.adds then
    (st.newIdx.lookup port).map (s.reloadPort i (st.takeAdd port) port)
  else if st.adds = [] ∧ port ∈ st.removes then
    (st.oldIdx.lookup port).map (s.reloadRemove i (st.takeRemove port) port)
  else none

/-- The file is loaded and checked, and the ports are compared with the config last applied.
SOURCE: admin_reload.go:100-124 -/
def reloadLoad (i : ℕ) (file : Except String RelayConfig) : Admin :=
  match loadRelayConfig file with
  | .error e => { s with reloading := false }.setRequest i (.done (.error 422 e))
  | .ok cfg =>
    match buildPortIndex cfg.customers with
    | .error e =>
      { s with reloading := false }.setRequest i
        (.done (.error 422 s!"reload: invalid config: {e}"))
    | .ok _ => s.setRequest i (.reloadPorts (.start s.currentCfg cfg))

/-- The next section of a request. -/
def runRequest (i : ℕ) : RequestPc → Option Admin
  | .createAdd req =>
    some ({ s with
      portMap := s.portMap.addPortMapping req.customerID req.port req.service
        (defaultAddr req.listenAddr) req.maxStreams }.setRequest i (.createWait req))
  | .createRollback req err =>
    some ({ s with portMap := s.rollback req.customerID req.port }.setRequest i
      (.done (.error 409 (createError req err))))
  | .updateGet port req =>
    match s.portMap.getPort port with
    | none => some (s.setRequest i (.done (.error 404 "port not found")))
    | some existing => some (s.setRequest i (.updateApply port existing req))
  | .updateApply port existing req =>
    let merged := mergePortUpdate existing req
    match s.portMap.updatePortMapping port merged.service merged.listenAddr merged.maxStreams with
    | .error _ => some (s.setRequest i (.done (.error 404 "port not found")))
    | .ok m => some ({ s with portMap := m }.setRequest i (.snapshot (.port 200 merged)))
  | .deleteLookup port =>
    match s.portMap.lookupPort port with
    | none => some (s.setRequest i (.done (.error 404 "port not found")))
    | some (customerID, _) => some (s.setRequest i (.deleteRemove port customerID))
  | .deleteRemove port customerID =>
    match s.portMap.removePortMapping customerID port with
    | .error e => some (s.setRequest i (.done (.error 500 e.text)))
    | .ok m => some ({ s with portMap := m }.setRequest i (.deleteStop port))
  | .deleteStop port => some ((s.stopPort port).setRequest i (.snapshot .noContent))
  | .reloadLock =>
    if s.reloading then none else some ({ s with reloading := true }.setRequest i .reloadLoad)
  | .reloadPorts st =>
    if st.adds = [] ∧ st.removes = [] then
      let (s', changed) := s.applyRateLimitChanges st.oldCfg (some st.newCfg)
      some (s'.setRequest i (.reloadCommit { st with
        summary.rateLimitsChanged := changed
        summary.restartRequired := diffRestartRequired st.oldCfg (some st.newCfg) }))
    else none
  | .reloadRollback st port entry =>
    some ({ s with portMap := s.rollback entry.customerID port }.setRequest i (.reloadPorts st))
  | .reloadStop st port =>
    some ((s.stopPort port).setRequest i (.reloadPorts
      { st with summary.portsRemoved := st.summary.portsRemoved + 1 }))
  | .reloadCommit st =>
    some ({ s with currentCfg := some st.newCfg }.setRequest i (.snapshot (.summary st.summary)))
  | .snapshot r =>
    if s.store then some (s.setRequest i (.save r s.portMap.listPorts)) else some (s.finish i r)
  | _ => none

/-- The listener a request waits for.
SOURCE: admin.go:438-480; admin_reload.go:215-230 -/
def bindRequest (i : ℕ) (b : Bind) : RequestPc → Option Admin
  | .createWait req =>
    some (s.started i req.port (bindAddr (defaultAddr req.listenAddr) req.port) b
      (.snapshot (.port 201 req.info)) (.createRollback req))
  | .reloadWait st port entry =>
    some (s.started i port (bindAddr entry.listenAddr port) b
      (.reloadPorts { st with summary.portsAdded := st.summary.portsAdded + 1 })
      fun _ => .reloadRollback st port entry)
  | _ => none

def PortInfo.sidecarPort (p : PortInfo) : SidecarPort where
  port := p.port
  customerID := p.customerID
  service := p.service
  listenAddr := p.listenAddr
  maxStreams := p.maxStreams

/-- One step of the control plane. -/
def step (isIP : String → Bool) : AdminAction → Option Admin
  | .post body =>
    match body with
    | none => some (s.addRequest (.done (.error 400 "invalid JSON")))
    | some req =>
      match req.check isIP with
      | .error r => some (s.addRequest (.done r))
      | .ok () => some (s.addRequest (.createAdd req))
  | .put port body =>
    match body with
    | none => some (s.addRequest (.done (.error 400 "invalid JSON")))
    | some req =>
      match req.check isIP with
      | .error r => some (s.addRequest (.done r))
      | .ok () => some (s.addRequest (.updateGet port req))
  | .delete port => some (s.addRequest (.deleteLookup port))
  | .reload => some (s.addRequest .reloadLock)
  | .run i => s.requests[i]?.bind (s.runRequest i)
  | .bind i b => s.requests[i]?.bind (s.bindRequest i b)
  | .load i file =>
    match s.requests[i]? with
    | some .reloadLoad => some (s.reloadLoad i file)
    | _ => none
  | .pick i port =>
    match s.requests[i]? with
    | some (.reloadPorts st) => s.pick i st port
    | _ => none
  | .save i written =>
    match s.requests[i]? with
    | some (.save r ports) =>
      let s' := if written then
        { s with sidecar := .data sidecarVersion (ports.map PortInfo.sidecarPort) } else s
      some (s'.finish i r)
    | _ => none
  | .listen port addr bound =>
    if (port, addr) ∈ s.starting then
      let s' := { s with starting := s.starting.erase (port, addr) }
      some (if bound then s'.bindPort port addr else s')
    else none

end Admin

/-- The port index that a relay starts with: that of relay.yaml with the sidecar's ports.
SOURCE: main.go:36-100, 111-175 -/
def startupIndex (isIP : String → Bool) (cfg : RelayConfig) (sidecar : SidecarFile) :
    Except String PortIndex := do
  let idx ← (buildPortIndex cfg.customers).mapError fun e => s!"build port index: {e}"
  return mergeSidecar isIP idx ((openSidecar cfg.server.storePath sidecar).getD [])

/-- The relay's start: all of the port index mapped, and a listener starting for each port. The
admin server starts before the loop of `Relay.Start` that maps it; requests that come before the
loop is through are left out.
SOURCE: main.go:36-229; server_impl.go:50-70 -/
def boot (isIP : String → Bool) (file : Except String RelayConfig) (sidecar : SidecarFile) :
    Except String Admin := do
  let cfg ← (loadRelayConfig file).mapError fun e => s!"load config: {e}"
  let index ← startupIndex isIP cfg sidecar
  let s : Admin :=
    { portMap := index.entries.foldl (fun m e =>
        m.addPortMapping e.2.customerID e.1 e.2.service e.2.listenAddr e.2.maxStreams) ∅
      starting := index.entries.map fun e => (e.1, bindAddr e.2.listenAddr e.1)
      currentCfg := some cfg
      store := (openSidecar cfg.server.storePath sidecar).isSome
      sidecar := sidecar }
  return cfg.customers.foldl (fun s c => s.setRateLimiter c.id c.rateLimit) s

/-- Runs of the control plane of a relay that has started. -/
def AdminReach (isIP : String → Bool) (ok : Admin → AdminAction → Prop) (s₀ s : Admin) : Prop :=
  Reach (fun s => s.step isIP) ok s₀ s

end Atlax.Model
