import Atlax.Model.Admin

/-!
# A relay and its restarts

A relay runs from a boot to the next one. What lasts is the disk: relay.yaml is whatever the
operator puts there before a start, and the sidecar is the file at the path that relay.yaml names,
as the relay has left it (cmd/relay/main.go, pkg/relay/store.go).

The relay does not know where a mapping came from. `Deployment.origins` does: it is written along
with the run, and no step reads it.
-/

set_option autoImplicit false

namespace Atlax.Model

/-- What has last become of a port: nothing, a line of relay.yaml, a POST (and whether a reload has
changed it since), or its removal. -/
inductive Origin
  | unknown
  | relayYaml
  | post (reloaded : Bool)
  | deleted
  deriving DecidableEq

/-- What a step of the control plane does to the origin of a port. -/
inductive PortEvent
  | posted (port : ℤ)
  | listed (port : ℤ)
  | reloaded (port : ℤ)
  | deleted (port : ℤ)
  deriving DecidableEq

/-- The listener was refused. -/
def Bind.isRefused : Bind → Bool
  | .refused _ => true
  | _ => false

namespace PortEvent

/-- The end of a wait for a listener.
SOURCE: admin.go:438-454; admin_reload.go:215-230 -/
def ofBind (b : Bind) : RequestPc → Option PortEvent
  | .createWait req => if b.isRefused then none else some (.posted req.port)
  | .reloadWait _ port _ => if b.isRefused then none else some (.listed port)
  | _ => none

/-- A DELETE that finds its mapping.
SOURCE: admin.go:604-622 -/
def ofRun (s : Admin) : RequestPc → Option PortEvent
  | .deleteRemove port customerID =>
    if s.portMap.customer port = some customerID then some (.deleted port) else none
  | _ => none

/-- A reload that updates or removes a mapping.
SOURCE: admin_reload.go:166-184 -/
def ofPick (s : Admin) (port : ℤ) : RequestPc → Option PortEvent
  | .reloadPorts st =>
    if port ∈ st.adds then
      match st.oldIdx.lookup port, st.newIdx.lookup port with
      | some old, some entry =>
        if old.customerID = entry.customerID ∧ portMutableFieldsDiffer old entry then
          some (.reloaded port)
        else none
      | _, _ => none
    else if s.portMap.customer port = (st.oldIdx.lookup port).map (·.customerID) then
      some (.deleted port)
    else none
  | _ => none

def ofStep (s : Admin) : AdminAction → Option PortEvent
  | .bind i b => s.requests[i]?.bind (ofBind b)
  | .run i => s.requests[i]?.bind (ofRun s)
  | .pick i port => s.requests[i]?.bind (ofPick s port)
  | _ => none

/-- The origins after the event. -/
def apply (origins : ℤ → Origin) : PortEvent → ℤ → Origin
  | .posted port => Function.update origins port (.post false)
  | .listed port => Function.update origins port .relayYaml
  | .reloaded port =>
    match origins port with
    | .post _ => Function.update origins port (.post true)
    | _ => origins
  | .deleted port => Function.update origins port .deleted

end PortEvent

/-- A running relay with its disk. -/
structure Deployment where
  admin : Admin
  /-- the file at each path, as it was when the relay started -/
  disk : String → SidecarFile
  /-- `server.store_path` of the config the relay has started with -/
  storePath : String
  origins : ℤ → Origin

/-- The steps of a deployment. -/
inductive DeploymentAction
  | admin (a : AdminAction)
  /-- the relay is stopped and started with another relay.yaml -/
  | restart (cfg : RelayConfig)

namespace Deployment

/-- A start on a disk. -/
def start (isIP : String → Bool) (disk : String → SidecarFile) (origins : ℤ → Origin)
    (cfg : RelayConfig) : Except String Deployment := do
  let admin ← boot isIP (.ok cfg) (disk cfg.server.storePath)
  return {
    admin := admin
    disk := disk
    storePath := cfg.server.storePath
    origins := fun p => if p ∈ indexPorts (some cfg) then .relayYaml else origins p }

/-- The disk as the running relay would leave it. -/
def diskNow (s : Deployment) : String → SidecarFile :=
  Function.update s.disk s.storePath s.admin.sidecar

def step (isIP : String → Bool) (s : Deployment) : DeploymentAction → Option Deployment
  | .admin a =>
    (s.admin.step isIP a).map fun admin =>
      { s with
        admin := admin
        origins := ((PortEvent.ofStep s.admin a).map (PortEvent.apply s.origins)).getD s.origins }
  | .restart cfg => (start isIP s.diskNow s.origins cfg).toOption

end Deployment

end Atlax.Model
