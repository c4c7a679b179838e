import Mathlib.Data.List.AList

/-!
# The port map of the relay's router

`PortRouter.portMap` (pkg/relay/router_impl.go) says which customer and service a port of the relay
belongs to. Each method is one section under the router's lock; here each is a function of the map.
-/

set_option autoImplicit false

namespace Atlax.Model

/-- SOURCE: router_impl.go:28-33 -/
structure PortEntry where
  customerID : String
  service : String
  maxStreams : ℤ
  listenAddr : String
  deriving DecidableEq

/-- SOURCE: router_impl.go:67-73 -/
structure PortInfo where
  port : ℤ
  customerID : String
  service : String
  maxStreams : ℤ
  listenAddr : String
  deriving DecidableEq

/-- SOURCE: router_impl.go:22 -/
abbrev PortMap := AList (fun _ : ℤ => PortEntry)

/-- SOURCE: router.go:11; router_impl.go:142-143 -/
inductive RouterError
  | portNotFound
  | noMapping (port : ℤ) (customerID : String)
  deriving DecidableEq

def RouterError.text : RouterError → String
  | .portNotFound => "relay: port not found"
  | .noMapping port customerID =>
    s!"relay: router: no mapping for port {port} customer {customerID}"

def PortEntry.info (port : ℤ) (e : PortEntry) : PortInfo where
  port := port
  customerID := e.customerID
  service := e.service
  maxStreams := e.maxStreams
  listenAddr := e.listenAddr

namespace PortMap

variable (m : PortMap)

/-- The entry is written whatever the map holds.
SOURCE: router_impl.go:53-63 -/
def addPortMapping (customerID : String) (port : ℤ) (service listenAddr : String)
    (maxStreams : ℤ) : PortMap :=
  m.insert port ⟨customerID, service, maxStreams, listenAddr⟩

/-- SOURCE: router_impl.go:77-91 -/
def getPort (port : ℤ) : Option PortInfo := (m.lookup port).map (PortEntry.info port)

/-- SOURCE: router_impl.go:94-108 -/
def listPorts : List PortInfo := m.entries.map fun e => e.2.info e.1

/-- The customer is carried over from the existing entry.
SOURCE: router_impl.go:116-133 -/
def updatePortMapping (port : ℤ) (service listenAddr : String) (maxStreams : ℤ) :
    Except RouterError PortMap :=
  match m.lookup port with
  | none => .error .portNotFound
  | some e => .ok (m.insert port ⟨e.customerID, service, maxStreams, listenAddr⟩)

/-- SOURCE: router_impl.go:136-147 -/
def removePortMapping (customerID : String) (port : ℤ) : Except RouterError PortMap :=
  match m.lookup port with
  | none => .error (.noMapping port customerID)
  | some e =>
    if e.customerID ≠ customerID then .error (.noMapping port customerID) else .ok (m.erase port)

/-- SOURCE: router_impl.go:208-217 -/
def lookupPort (port : ℤ) : Option (String × String) :=
  (m.lookup port).map fun e => (e.customerID, e.service)

@[simp] theorem lookup_add (customerID : String) (port : ℤ) (service listenAddr : String)
    (maxStreams : ℤ) (p : ℤ) :
    (m.addPortMapping customerID port service listenAddr maxStreams).lookup p =
      if p = port then some ⟨customerID, service, maxStreams, listenAddr⟩ else m.lookup p := by
  unfold addPortMapping
  split
  · next h =>
    subst h
    exact AList.lookup_insert _
  · next h => exact AList.lookup_insert_ne h

variable {customerID service listenAddr : String} {port maxStreams : ℤ} {m' : PortMap}

/-- An update finds an entry and keeps its customer. -/
theorem lookup_update (h : m.updatePortMapping port service listenAddr maxStreams = .ok m') :
    ∃ e, m.lookup port = some e ∧ ∀ p, m'.lookup p =
      if p = port then some ⟨e.customerID, service, maxStreams, listenAddr⟩ else m.lookup p := by
  unfold updatePortMapping at h
  split at h <;> cases h
  next e he => exact ⟨e, he, lookup_add m e.customerID port service listenAddr maxStreams⟩

/-- A removal finds an entry of the customer it names, and takes nothing else. -/
theorem lookup_remove (h : m.removePortMapping customerID port = .ok m') :
    (∃ e, m.lookup port = some e ∧ e.customerID = customerID) ∧
      ∀ p, m'.lookup p = if p = port then none else m.lookup p := by
  unfold removePortMapping at h
  split at h
  · cases h
  · next e he =>
    split at h <;> cases h
    next hc =>
    refine ⟨⟨e, he, not_not.mp hc⟩, fun p => ?_⟩
    split
    · next hp =>
      subst hp
      exact AList.lookup_erase p m
    · next hp => exact AList.lookup_erase_ne hp

/-- The ports of GET /ports are the mapped ones. -/
theorem mem_listPorts {info : PortInfo} :
    info ∈ m.listPorts ↔ ∃ e, m.lookup info.port = some e ∧ info = e.info info.port := by
  unfold listPorts
  rw [List.mem_map]
  constructor
  · rintro ⟨⟨port, e⟩, he, rfl⟩
    exact ⟨e, AList.mem_lookup_iff.mpr he, rfl⟩
  · rintro ⟨e, he, hinfo⟩
    exact ⟨⟨info.port, e⟩, AList.mem_lookup_iff.mp he, hinfo.symm⟩

/-- The customer a port is mapped to. -/
def customer (port : ℤ) : Option String := (m.lookup port).map PortEntry.customerID

@[simp] theorem customer_add (customerID : String) (port : ℤ) (service listenAddr : String)
    (maxStreams : ℤ) (p : ℤ) :
    (m.addPortMapping customerID port service listenAddr maxStreams).customer p =
      if p = port then some customerID else m.customer p := by
  unfold customer
  rw [lookup_add]
  split <;> rfl

/-- An update leaves every port with its customer. -/
theorem customer_update
    (h : m.updatePortMapping port service listenAddr maxStreams = .ok m') (p : ℤ) :
    m'.customer p = m.customer p := by
  obtain ⟨e, he, hm⟩ := lookup_update m h
  unfold customer
  rw [hm]
  split
  · next hp => rw [hp, he]; rfl
  · rfl

/-- A removal takes the port from the customer it names, and nothing else. -/
theorem customer_remove (h : m.removePortMapping customerID port = .ok m') :
    m.customer port = some customerID ∧
      ∀ p, m'.customer p = if p = port then none else m.customer p := by
  obtain ⟨⟨e, he, hc⟩, hm⟩ := lookup_remove m h
  refine ⟨by simp [customer, he, hc], fun p => ?_⟩
  unfold customer
  rw [hm]
  split <;> rfl

end PortMap

end Atlax.Model
