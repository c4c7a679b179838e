import Mathlib.Data.List.AList
import Mathlib.Data.List.Sort
import Mathlib.Data.Rat.Defs

/-!
# The relay's configuration

The part of relay.yaml that the control plane reads, the checks the loader makes, and the port
index built from it (pkg/config/loader.go, pkg/relay/admin_reload.go), with the sidecar file that
keeps the ports added at runtime (pkg/relay/store.go, cmd/relay/main.go). A file that cannot be
read or parsed is a value like any other: what comes out of YAML and JSON is arbitrary.
-/

set_option autoImplicit false

namespace Atlax.Model

/-- SOURCE: config.go:58-61 -/
structure RateLimitConfig where
  requestsPerSecond : ℚ
  burst : ℤ
  deriving DecidableEq

/-- SOURCE: config.go:64-69 -/
structure PortConfig where
  port : ℤ
  service : String
  listenAddr : String
  deriving DecidableEq

/-- SOURCE: config.go:48-55 -/
structure CustomerConfig where
  id : String
  ports : List PortConfig
  maxStreams : ℤ
  rateLimit : RateLimitConfig
  deriving DecidableEq

/-- SOURCE: config.go:40-45 -/
structure TLSPaths where
  certFile : String
  keyFile : String
  caFile : String
  clientCAFile : String
  deriving DecidableEq

/-- SOURCE: config.go:24-37 -/
structure ServerConfig where
  listenAddr : String
  agentListenAddr : String
  storePath : String
  deriving DecidableEq

/-- SOURCE: config.go:6-12 -/
structure RelayConfig where
  server : ServerConfig
  tls : TLSPaths
  customers : List CustomerConfig
  deriving DecidableEq

/-- The first customer without an ID. -/
def missingID (customers : List CustomerConfig) : Option ℕ :=
  customers.findIdx? fun c => c.id = ""

/-- SOURCE: loader.go:129-151 -/
def validateRelayConfig (cfg : RelayConfig) : Except String Unit :=
  if cfg.server.listenAddr = "" then .error "server.listen_addr is required"
  else if cfg.tls.certFile = "" then .error "tls.cert_file is required"
  else if cfg.tls.keyFile = "" then .error "tls.key_file is required"
  else if cfg.tls.clientCAFile = "" then .error "tls.client_ca_file is required"
  else if cfg.customers = [] then .error "at least one customer must be configured"
  else match missingID cfg.customers with
    | some i => .error s!"customers[{i}].id is required"
    | none => .ok ()

/-- What `LoadRelayConfig` makes of the file, with the environment's overrides in it; an error of
the file is that of reading or parsing it.
SOURCE: loader.go:45-64 -/
def loadRelayConfig (file : Except String RelayConfig) : Except String RelayConfig :=
  match file with
  | .error e => .error e
  | .ok cfg =>
    match validateRelayConfig cfg with
    | .error e => .error s!"config: validate: {e}"
    | .ok () => .ok cfg

/-- SOURCE: loader.go:161-167 -/
structure PortIndexEntry where
  customerID : String
  service : String
  maxStreams : ℤ
  listenAddr : String
  rateLimit : RateLimitConfig
  deriving DecidableEq

abbrev PortIndex := AList (fun _ : ℤ => PortIndexEntry)

/-- An empty listen address stands for all interfaces. -/
def defaultAddr (addr : String) : String := if addr = "" then "0.0.0.0" else addr

/-- The entry of a customer's port.
SOURCE: loader.go:179-189; admin_reload.go:347-357 -/
def portEntry (c : CustomerConfig) (p : PortConfig) : PortIndexEntry where
  customerID := c.id
  service := p.service
  maxStreams := c.maxStreams
  listenAddr := defaultAddr p.listenAddr
  rateLimit := c.rateLimit

/-- One port of the loop in `BuildPortIndex`.
SOURCE: loader.go:174-189 -/
def addIndexPort (c : CustomerConfig) (idx : PortIndex) (p : PortConfig) :
    Except String PortIndex :=
  match idx.lookup p.port with
  | some existing => .error s!"port {p.port} assigned to both {existing.customerID} and {c.id}"
  | none => .ok (idx.insert p.port (portEntry c p))

/-- SOURCE: loader.go:171-194 -/
def buildPortIndex (customers : List CustomerConfig) : Except String PortIndex :=
  customers.foldlM (fun idx c => c.ports.foldlM (addIndexPort c) idx) ∅

/-- The index a reload compares by: a later entry for a port replaces an earlier one.
SOURCE: admin_reload.go:340-361 -/
def indexPorts : Option RelayConfig → PortIndex
  | none => ∅
  | some cfg =>
    cfg.customers.foldl
      (fun out c => c.ports.foldl (fun out p => out.insert p.port (portEntry c p)) out) ∅

/-- SOURCE: admin_reload.go:363-365 -/
def portMutableFieldsDiffer (a b : PortIndexEntry) : Bool :=
  a.service ≠ b.service || a.listenAddr ≠ b.listenAddr || a.maxStreams ≠ b.maxStreams

/-- SOURCE: admin_reload.go:374-383 -/
def rateLimits : Option RelayConfig → AList (fun _ : String => RateLimitConfig)
  | none => ∅
  | some cfg => cfg.customers.foldl (fun out c => out.insert c.id c.rateLimit) ∅

/-- The fields that changed and cannot be applied without a restart, sorted.
SOURCE: admin_reload.go:388-413 -/
def diffRestartRequired (old new : Option RelayConfig) : List String :=
  match old, new with
  | some old, some new =>
    let changed : List (String × Bool) :=
      [("tls.cert_file", old.tls.certFile ≠ new.tls.certFile),
        ("tls.key_file", old.tls.keyFile ≠ new.tls.keyFile),
        ("tls.ca_file", old.tls.caFile ≠ new.tls.caFile),
        ("tls.client_ca_file", old.tls.clientCAFile ≠ new.tls.clientCAFile),
        ("server.listen_addr", old.server.listenAddr ≠ new.server.listenAddr),
        ("server.agent_listen_addr", old.server.agentListenAddr ≠ new.server.agentListenAddr)]
    ((changed.filter (·.2)).map (·.1)).insertionSort (· ≤ ·)
  | _, _ => []

/-- SOURCE: store.go:15-21 -/
structure SidecarPort where
  port : ℤ
  customerID : String
  service : String
  listenAddr : String
  maxStreams : ℤ
  deriving DecidableEq

/-- What the sidecar file holds. -/
inductive SidecarFile
  | missing
  | unreadable
  | data (version : String) (ports : List SidecarPort)
  deriving DecidableEq

/-- SOURCE: store.go:12 -/
def sidecarVersion : String := "1"

/-- SOURCE: store.go:49-72 -/
def loadSidecar : SidecarFile → Option (List SidecarPort)
  | .missing => some []
  | .unreadable => none
  | .data version ports => if version = sidecarVersion then some ports else none

/-- The ports of the sidecar that a relay starts with, if its config names one.
SOURCE: main.go:111-122 -/
def openSidecar (storePath : String) (file : SidecarFile) : Option (List SidecarPort) :=
  if storePath ≠ "" then loadSidecar file else none

/-- The checks on a sidecar entry; `isIP` stands for `net.ParseIP(addr) != nil`.
SOURCE: main.go:125-147 -/
def SidecarPort.valid (isIP : String → Bool) (sp : SidecarPort) : Bool :=
  0 < sp.port && sp.port ≤ 65535 && sp.customerID ≠ "" && sp.service ≠ "" &&
    (sp.listenAddr = "" || isIP sp.listenAddr) && 0 ≤ sp.maxStreams

/-- One turn of the loop over the sidecar's entries, with the ports seen so far: relay.yaml wins.
SOURCE: main.go:124-169 -/
def mergeSidecarPort (isIP : String → Bool) (acc : List ℤ × PortIndex) (sp : SidecarPort) :
    List ℤ × PortIndex :=
  if ¬ sp.valid isIP ∨ sp.port ∈ acc.1 then acc
  else if (acc.2.lookup sp.port).isSome then (sp.port :: acc.1, acc.2)
  else (sp.port :: acc.1, acc.2.insert sp.port
    { customerID := sp.customerID
      service := sp.service
      maxStreams := sp.maxStreams
      listenAddr := defaultAddr sp.listenAddr
      rateLimit := ⟨0, 0⟩ })

def mergeSidecar (isIP : String → Bool) (idx : PortIndex) (ports : List SidecarPort) : PortIndex :=
  (ports.foldl (mergeSidecarPort isIP) ([], idx)).2

end Atlax.Model
