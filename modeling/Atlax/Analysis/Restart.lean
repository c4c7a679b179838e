import Atlax.Analysis.Persistence
import Atlax.Model.Deployment

/-!
# What a restart brings back

A POST ends with the whole port map in the sidecar, and a start reads the sidecar on top of
relay.yaml. The round trip is exact for a mapping that a POST has made and PUTs have changed: what
the two requests let through is what the start lets through, and a default that a POST has filled in
is not filled in again. A mapping that a reload has changed need not come back, since relay.yaml may
say what a start refuses in a sidecar.

The map in the sidecar has the lines of relay.yaml in it as well. A start cannot tell them from
what POSTs have made, and serves them also when they have been taken out of relay.yaml.
-/

set_option autoImplicit false

namespace Atlax.Analysis

open Atlax.Model Atlax.Library

variable {req : PortCreateRequest} {customerID : String} {cfg : RelayConfig} {sp : SidecarPort}
    {m : PortMap} {s : Admin}

variable {isIP : String → Bool} {e : PortEntry}

/-! ## Reading a sidecar -/

/-- What a start makes of a line of the sidecar. -/
def sidecarEntry (sp : SidecarPort) : PortIndexEntry where
  customerID := sp.customerID
  service := sp.service
  maxStreams := sp.maxStreams
  listenAddr := defaultAddr sp.listenAddr
  rateLimit := ⟨0, 0⟩

/-- The line that a start takes for a port. -/
def sidecarLine (isIP : String → Bool) (ports : List SidecarPort) (p : ℤ) : Option SidecarPort :=
  ports.find? fun sp => sp.valid isIP && sp.port = p

theorem sidecarLine_cons_of_ne {p : ℤ} (ports : List SidecarPort)
    (h : ¬ (sp.valid isIP = true ∧ sp.port = p)) :
    sidecarLine isIP (sp :: ports) p = sidecarLine isIP ports p := by
  rw [sidecarLine, List.find?_cons_of_neg]
  · rfl
  · simpa using h

/-- The ports before have been merged. -/
theorem lookup_mergeSidecar_aux (ports : List SidecarPort) (seen : List ℤ) (idx : PortIndex)
    (p : ℤ) :
    (ports.foldl (mergeSidecarPort isIP) (seen, idx)).2.lookup p =
      (idx.lookup p).or
        (if p ∈ seen then none else (sidecarLine isIP ports p).map sidecarEntry) := by
  induction ports generalizing seen idx with
  | nil => simp [sidecarLine]
  | cons sp ports ih =>
    rw [List.foldl_cons, mergeSidecarPort]
    by_cases hskip : ¬ sp.valid isIP = true ∨ sp.port ∈ seen
    · rw [if_pos hskip, ih]
      by_cases hp : p ∈ seen
      · simp [hp]
      · rw [sidecarLine_cons_of_ne]
        rintro ⟨hvalid, rfl⟩
        exact hskip.elim (fun h => h hvalid) hp
    · rw [if_neg hskip]
      obtain ⟨hvalid, hseen⟩ := not_or.mp hskip
      by_cases hp : p = sp.port
      · subst hp
        cases hidx : idx.lookup sp.port with
        | some e => simp [ih, hidx]
        | none =>
          have hline : sidecarLine isIP (sp :: ports) sp.port = some sp := by
            simp [sidecarLine, not_not.mp hvalid]
          simp [ih, hseen, hline, AList.lookup_insert, sidecarEntry]
      · have hline : sidecarLine isIP (sp :: ports) p = sidecarLine isIP ports p :=
          sidecarLine_cons_of_ne ports fun h => hp h.2.symm
        cases hidx : idx.lookup sp.port with
        | some e => simp [ih, hp, hline]
        | none => simp [ih, hp, hline, AList.lookup_insert_ne hp]

/-- The merged index: relay.yaml's entry, else the first acceptable line of the sidecar. -/
theorem lookup_mergeSidecar (idx : PortIndex) (ports : List SidecarPort) (p : ℤ) :
    (mergeSidecar isIP idx ports).lookup p =
      (idx.lookup p).or ((sidecarLine isIP ports p).map sidecarEntry) := by
  rw [mergeSidecar, lookup_mergeSidecar_aux, if_neg List.not_mem_nil]

/-- The line is valid and for the port. -/
theorem sidecarLine_some {ports : List SidecarPort} {p : ℤ}
    (h : sidecarLine isIP ports p = some sp) :
    sp ∈ ports ∧ sp.valid isIP = true ∧ sp.port = p := by
  have hfound := List.find?_some h
  simp only [Bool.and_eq_true, decide_eq_true_eq] at hfound
  exact ⟨List.mem_of_find?_eq_some h, hfound.1, hfound.2⟩

/-- A line that is acceptable and the only one for its port is the one taken. -/
theorem sidecarLine_of_mem {ports : List SidecarPort} (hmem : sp ∈ ports)
    (hvalid : sp.valid isIP = true) (hsole : ∀ sp' ∈ ports, sp'.port = sp.port → sp' = sp) :
    sidecarLine isIP ports sp.port = some sp := by
  cases hline : sidecarLine isIP ports sp.port with
  | none =>
    have hno := List.find?_eq_none.mp hline sp hmem
    simp [hvalid] at hno
  | some sp' =>
    obtain ⟨hmem', -, hport⟩ := sidecarLine_some hline
    rw [hsole sp' hmem' hport]

/-! ## Mappings that come back as they were -/

/-- The line that a save writes for a mapping. -/
def sidecarOf (p : ℤ) (e : PortEntry) : SidecarPort := Admin.PortInfo.sidecarPort (e.info p)

/-- A start takes the line of the mapping, and makes the same mapping of it. -/
def Storable (isIP : String → Bool) (p : ℤ) (e : PortEntry) : Prop :=
  (sidecarOf p e).valid isIP = true ∧ e.listenAddr ≠ ""

theorem mapping_sidecarOf {p : ℤ} (h : Storable isIP p e) :
    mapping (sidecarEntry (sidecarOf p e)) = e := by
  simp [mapping, sidecarEntry, sidecarOf, PortEntry.info, Admin.PortInfo.sidecarPort, defaultAddr,
    h.2]

/-- SOURCE: main.go:125-147 -/
theorem valid_iff : sp.valid isIP = true ↔ 0 < sp.port ∧ sp.port ≤ 65535 ∧
    sp.customerID ≠ "" ∧ sp.service ≠ "" ∧ (sp.listenAddr = "" ∨ isIP sp.listenAddr = true) ∧
      0 ≤ sp.maxStreams := by
  simp [SidecarPort.valid, and_assoc]

/-- A mapping that the sidecar can hold. -/
theorem storable_iff {p : ℤ} :
    Storable isIP p e ↔ 0 < p ∧ p ≤ 65535 ∧ e.customerID ≠ "" ∧ e.service ≠ "" ∧
      isIP e.listenAddr = true ∧ 0 ≤ e.maxStreams ∧ e.listenAddr ≠ "" := by
  unfold Storable
  rw [valid_iff]
  simp only [sidecarOf, PortEntry.info, Admin.PortInfo.sidecarPort]
  tauto

/-- The mapping that a POST makes. -/
def postEntry (req : PortCreateRequest) : PortEntry :=
  ⟨req.customerID, req.service, req.maxStreams, defaultAddr req.listenAddr⟩

/-- What a POST lets through, a start lets through: the address that stands for all interfaces is an
address. -/
theorem storable_post (hany : isIP "0.0.0.0" = true)
    (h : req.check isIP = .ok ()) : Storable isIP req.port (postEntry req) := by
  unfold PortCreateRequest.check at h
  split at h
  · cases h
  next hport =>
  split at h
  · cases h
  next hnames =>
  split at h
  · cases h
  next haddr =>
  split at h
  · cases h
  next hmax =>
  have hdefault : isIP (defaultAddr req.listenAddr) = true ∧ defaultAddr req.listenAddr ≠ "" := by
    unfold defaultAddr
    split
    · exact ⟨hany, by decide⟩
    · next hne =>
      refine ⟨?_, hne⟩
      by_contra hip
      exact haddr ⟨hne, hip⟩
  rw [not_or] at hport hnames
  refine storable_iff.mpr ⟨?_, ?_, hnames.1, hnames.2, hdefault.1, ?_, hdefault.2⟩
  · exact not_le.mp hport.1
  · exact not_lt.mp hport.2
  · exact not_lt.mp hmax

/-- What a PUT makes of a mapping. -/
def putEntry (p : ℤ) (e : PortEntry) (req : PortUpdateRequest) : PortEntry :=
  ⟨e.customerID, (mergePortUpdate (e.info p) req).service,
    (mergePortUpdate (e.info p) req).maxStreams, (mergePortUpdate (e.info p) req).listenAddr⟩

/-- What a PUT lets through, a start lets through. -/
theorem storable_put {req : PortUpdateRequest} {p : ℤ}
    (h : req.check isIP = .ok ()) (he : Storable isIP p e) :
    Storable isIP p (putEntry p e req) := by
  unfold PortUpdateRequest.check at h
  split at h
  · cases h
  split at h
  · cases h
  next haddr =>
  split at h
  · cases h
  next hmax =>
  obtain ⟨hlo, hhi, hcust, hservice, hip, hstreams, hne⟩ := storable_iff.mp he
  refine storable_iff.mpr ⟨hlo, hhi, hcust, ?_, ?_, ?_, ?_⟩
  · simp only [putEntry, mergePortUpdate]
    split
    · assumption
    · exact hservice
  · simp only [putEntry, mergePortUpdate]
    split
    · next hset =>
      by_contra hno
      exact haddr ⟨hset, hno⟩
    · exact hip
  · simp only [putEntry, mergePortUpdate]
    cases hset : req.maxStreams with
    | none => exact hstreams
    | some n => simpa [hset] using hmax
  · simp only [putEntry, mergePortUpdate]
    split
    · assumption
    · exact hne

/-! ## The map, the sidecar and the origins -/

/-- What the relay would read if it were started again. -/
def stored (d : Deployment) : List SidecarPort := (openSidecar d.storePath d.admin.sidecar).getD []

/-- A port of this origin may be served. Where the origin is not known this is so unless the disk
was `clean` to begin with. -/
def Servable (clean : Bool) : Origin → Prop
  | .unknown => clean = false
  | .deleted => False
  | .relayYaml | .post _ => True

section Ports

variable (isIP) (clean : Bool)

/-- What holds of the mapping of `p`. -/
def LiveMapping (p : ℤ) (o : Origin) (e : Option PortEntry) : Prop :=
  ∀ e' ∈ e, Servable clean o ∧ (o = .post false → Storable isIP p e')

/-- What holds of the lines for `p`: a POST leaves one, that of its mapping. -/
def HeldLines (p : ℤ) (o : Origin) (ports : List SidecarPort) : Prop :=
  ∀ sp ∈ ports, sp.port = p → Servable clean o ∧ (o = .post false →
    (∃ e, Storable isIP p e ∧ sp = sidecarOf p e) ∧ ∀ sp' ∈ ports, sp'.port = p → sp' = sp)

/-- What holds of `p` between requests. -/
structure SettledPort (p : ℤ) (o : Origin) (e : Option PortEntry) (ports : List SidecarPort)
    (store : Bool) : Prop where
  live : LiveMapping isIP clean p o e
  held : HeldLines isIP clean p o ports
  saved : store = true → o = .post false → ∀ e' ∈ e, sidecarOf p e' ∈ ports

variable (d : Deployment)

/-- The file has what the port is mapped to. -/
def SettledAt (p : ℤ) : Prop :=
  SettledPort isIP clean p (d.origins p) (d.admin.portMap.lookup p) (stored d) d.admin.store

/-- The port is mapped as its origin says. -/
def LiveAt (p : ℤ) : Prop := LiveMapping isIP clean p (d.origins p) (d.admin.portMap.lookup p)

/-- A POST has made its mapping and waits for the listener. -/
def Posting (req : PortCreateRequest) : Prop :=
  (∀ p, p ≠ req.port → SettledAt isIP clean d p) ∧
    HeldLines isIP clean req.port (d.origins req.port) (stored d) ∧
    d.admin.portMap.lookup req.port = some (postEntry req) ∧
    Storable isIP req.port (postEntry req)

/-- A reload has added a mapping and waits for the listener. -/
def Listing (port : ℤ) (entry : PortIndexEntry) : Prop :=
  (∀ p, p ≠ port → LiveAt isIP clean d p) ∧
    d.admin.portMap.customer port = some entry.customerID

/-- What holds while a request is at `pc`. Once it has changed the map and its listeners, a request
writes the sidecar anew, and what was there no longer matters. -/
def RequestStage : RequestPc → Prop
  | .createAdd req => (∀ p, SettledAt isIP clean d p) ∧ Storable isIP req.port (postEntry req)
  | .createWait req | .createRollback req _ => Posting isIP clean d req
  | .updateGet _ req => (∀ p, SettledAt isIP clean d p) ∧ req.check isIP = .ok ()
  | .updateApply port existing req => (∀ p, SettledAt isIP clean d p) ∧ req.check isIP = .ok () ∧
      d.admin.portMap.getPort port = some existing
  | .deleteLookup _ | .deleteRemove _ _ | .reloadLock | .reloadLoad => ∀ p, SettledAt isIP clean d p
  | .reloadWait _ port entry | .reloadRollback _ port entry => Listing isIP clean d port entry
  | .deleteStop _ | .reloadPorts _ | .reloadStop _ _ | .reloadCommit _ | .snapshot _ =>
    ∀ p, LiveAt isIP clean d p
  | .save _ ports => (∀ p, LiveAt isIP clean d p) ∧ d.admin.store = true ∧
      ports = d.admin.portMap.listPorts
  | .done _ => True

/-- Requests follow one another, from one stage to the next. -/
abbrev InStages (requests : List RequestPc) : Prop :=
  Exclusive unfinished (RequestStage isIP clean) (fun d => ∀ p, SettledAt isIP clean d p) requests d

/-- Requests follow one another, and the relay saves if it could read the sidecar. -/
structure Stored : Prop where
  requests : InStages isIP clean d d.admin.requests
  store : d.admin.store = (openSidecar d.storePath d.admin.sidecar).isSome

end Ports

/-- Requests come one at a time, and every save succeeds. -/
def OneAtATime (s : Admin) : AdminAction → Prop
  | .post _ | .put _ _ | .delete _ | .reload => ∀ pc ∈ s.requests, unfinished pc = false
  | .save _ written => written = true
  | _ => True

instance (s : Admin) (a : AdminAction) : Decidable (OneAtATime s a) := by
  unfold OneAtATime
  induction a <;> infer_instance

/-! ## What a step does to the origins -/

/-- Where the mappings come from after a step. -/
def originsAfter (d : Deployment) (a : AdminAction) : ℤ → Origin :=
  ((PortEvent.ofStep d.admin a).map (PortEvent.apply d.origins)).getD d.origins

/-- The deployment after a step of the control plane. -/
def afterStep (d : Deployment) (a : AdminAction) (s' : Admin) : Deployment :=
  { d with admin := s', origins := originsAfter d a }

variable {clean : Bool} {d : Deployment} {s' : Admin} {a : AdminAction} {port p : ℤ} {i : ℕ}
  {pc : RequestPc}

theorem afterStep_eq {o : ℤ → Origin} (h : originsAfter d a = o) :
    afterStep d a s' = { d with admin := s', origins := o } := by
  rw [afterStep, h]

theorem originsAfter_run (hpc : d.admin.requests[i]? = some pc) :
    originsAfter d (.run i) =
      ((PortEvent.ofRun d.admin pc).map (PortEvent.apply d.origins)).getD d.origins := by
  simp [originsAfter, PortEvent.ofStep, hpc]

theorem originsAfter_bind (hpc : d.admin.requests[i]? = some pc) (b : Bind) :
    originsAfter d (.bind i b) =
      ((PortEvent.ofBind b pc).map (PortEvent.apply d.origins)).getD d.origins := by
  simp [originsAfter, PortEvent.ofStep, hpc]

theorem originsAfter_pick (hpc : d.admin.requests[i]? = some pc) (port : ℤ) :
    originsAfter d (.pick i port) =
      ((PortEvent.ofPick d.admin port pc).map (PortEvent.apply d.origins)).getD d.origins := by
  simp [originsAfter, PortEvent.ofStep, hpc]

theorem apply_reloaded_ne (o : ℤ → Origin) (hp : p ≠ port) :
    (PortEvent.reloaded port).apply o p = o p := by
  cases ho : o port with
  | post b => simp only [PortEvent.apply, ho, Function.update_of_ne hp]
  | _ => simp only [PortEvent.apply, ho]

/-- A port that a reload has updated may be served if it might before. -/
theorem apply_reloaded_self (o : ℤ → Origin) (h : Servable clean (o port)) :
    Servable clean ((PortEvent.reloaded port).apply o port) ∧
      (PortEvent.reloaded port).apply o port ≠ .post false := by
  cases ho : o port with
  | post b =>
    simp only [PortEvent.apply, ho, Function.update_self]
    exact ⟨trivial, by simp⟩
  | _ =>
    simp only [PortEvent.apply, ho]
    exact ⟨ho ▸ h, by simp⟩

/-- A turn of a reload concerns its port. -/
theorem originsAfter_pick_ne {st : Reload} (hpc : d.admin.requests[i]? = some (.reloadPorts st))
    (hp : p ≠ port) : originsAfter d (.pick i port) p = d.origins p := by
  rw [originsAfter_pick hpc, PortEvent.ofPick]
  split
  · split
    · split
      · exact apply_reloaded_ne _ hp
      · rfl
    · rfl
  · split
    · exact Function.update_of_ne hp _ _
    · rfl

/-! ## What a request does -/

theorem liveMapping_none (p : ℤ) (o : Origin) : LiveMapping isIP clean p o none := by
  intro e he
  cases he

/-- Nothing more is said of what does not come from a POST. -/
theorem liveMapping_of_ne {o : Origin} (ho : Servable clean o) (hpost : o ≠ .post false)
    (e : Option PortEntry) : LiveMapping isIP clean p o e :=
  fun _ _ => ⟨ho, fun h => absurd h hpost⟩

/-- One port changes. -/
theorem live_change (port : ℤ) {o' : ℤ → Origin} (hothers : ∀ p, p ≠ port → LiveAt isIP clean d p)
    (ho : ∀ p, p ≠ port → o' p = d.origins p)
    (hmap : ∀ p, p ≠ port → s'.portMap.lookup p = d.admin.portMap.lookup p)
    (hport : LiveMapping isIP clean port (o' port) (s'.portMap.lookup port)) (p : ℤ) :
    LiveAt isIP clean { d with admin := s', origins := o' } p := by
  show LiveMapping isIP clean p (o' p) (s'.portMap.lookup p)
  by_cases hp : p = port
  · rw [hp]
    exact hport
  · rw [ho p hp, hmap p hp]
    exact hothers p hp

theorem remove_of_customer (h : m.customer port = some customerID) :
    ∃ m', m.removePortMapping customerID port = .ok m' := by
  obtain ⟨e, he, hc⟩ := Option.map_eq_some_iff.mp h
  simp [PortMap.removePortMapping, he, hc]

/-- A DELETE misses its mapping only if it is not there. -/
theorem miss_remove {r : Response} (hpc : s.requests[i]? = some (.deleteRemove port customerID))
    (hstep : s.step isIP (.run i) = some (s.setRequest i (.done r))) :
    s.portMap.customer port ≠ some customerID := by
  intro hc
  obtain ⟨m, hm⟩ := remove_of_customer hc
  simp only [Admin.step, hpc, Option.bind_some, Admin.runRequest, hm, Option.some.injEq] at hstep
  have hi : i < s.requests.length := (List.getElem?_eq_some_iff.mp hpc).1
  have hreq : s.requests.set i (.deleteStop port) = s.requests.set i (.done r) :=
    congrArg Admin.requests hstep
  have hat := congrArg (fun l => l[i]?) hreq
  simp [hi] at hat

/-- A rollback removes one port. -/
theorem lookup_rollback (h : s.portMap.customer port = some customerID) (p : ℤ) :
    (s.rollback customerID port).lookup p = if p = port then none else s.portMap.lookup p := by
  obtain ⟨m, hm⟩ := remove_of_customer h
  have hroll : s.rollback customerID port = m := by
    unfold Admin.rollback
    rw [hm]
  rw [hroll]
  exact (PortMap.lookup_remove _ hm).2 p

/-- A POST makes its mapping. -/
theorem posting_add (h : ∀ p, SettledAt isIP clean d p)
    (hst : Storable isIP req.port (postEntry req)) (i : ℕ) (pc : RequestPc) :
    Posting isIP clean { d with admin := ({ d.admin with
      portMap := d.admin.portMap.addPortMapping req.customerID req.port req.service
        (defaultAddr req.listenAddr) req.maxStreams }.setRequest i pc) } req := by
  refine ⟨fun p hp => ?_, (h req.port).held, ?_, hst⟩
  · have hkeep := h p
    unfold SettledAt at hkeep ⊢
    rw [portMap_setRequest, PortMap.lookup_add, if_neg hp]
    exact hkeep
  · rw [portMap_setRequest, PortMap.lookup_add, if_pos rfl]
    rfl

/-- A new mapping has its listener, and its origin is noted. -/
theorem live_bound {o : Origin} (hothers : ∀ p, p ≠ port → LiveAt isIP clean d p)
    (hport : LiveMapping isIP clean port o (d.admin.portMap.lookup port))
    (hmap : s'.portMap = d.admin.portMap) (p : ℤ) :
    LiveAt isIP clean { d with admin := s', origins := Function.update d.origins port o } p := by
  refine live_change port hothers ?_ ?_ ?_ p
  · intro p hp
    exact Function.update_of_ne hp _ _
  · intro p _
    rw [hmap]
  · rw [hmap, Function.update_self]
    exact hport

theorem live_posted (h : Posting isIP clean d req) (hmap : s'.portMap = d.admin.portMap) :
    ∀ p, LiveAt isIP clean { d with
      admin := s'
      origins := Function.update d.origins req.port (.post false) } p := by
  obtain ⟨hothers, -, hmapped, hst⟩ := h
  refine live_bound (fun p hp => (hothers p hp).live) ?_ hmap
  rw [hmapped]
  rintro _ ⟨⟩
  exact ⟨trivial, fun _ => hst⟩

theorem live_listed {entry : PortIndexEntry} (h : Listing isIP clean d port entry)
    (hmap : s'.portMap = d.admin.portMap) :
    ∀ p, LiveAt isIP clean { d with
      admin := s'
      origins := Function.update d.origins port .relayYaml } p :=
  live_bound h.1 (liveMapping_of_ne (o := .relayYaml) trivial (by simp) _) hmap

/-- A POST without its listener is rolled back. -/
theorem settled_unposted (h : Posting isIP clean d req) (i : ℕ) (pc : RequestPc) (p : ℤ) :
    SettledAt isIP clean { d with admin := ({ d.admin with
      portMap := d.admin.rollback req.customerID req.port }.setRequest i pc) } p := by
  obtain ⟨hothers, hheld, hmapped, -⟩ := h
  have hcust : d.admin.portMap.customer req.port = some req.customerID := by
    rw [PortMap.customer, hmapped]
    rfl
  have hlook := lookup_rollback hcust
  unfold SettledAt
  rw [portMap_setRequest, hlook]
  by_cases hp : p = req.port
  · subst hp
    rw [if_pos rfl]
    refine ⟨liveMapping_none _ _, hheld, ?_⟩
    intro _ _ e he
    cases he
  · rw [if_neg hp]
    exact hothers p hp

/-- A PUT keeps what a POST has seen to. -/
theorem live_put {existing : PortInfo} {req : PortUpdateRequest}
    (h : ∀ p, LiveAt isIP clean d p) (hreq : req.check isIP = .ok ())
    (hget : d.admin.portMap.getPort port = some existing)
    (hm : d.admin.portMap.updatePortMapping port (mergePortUpdate existing req).service
      (mergePortUpdate existing req).listenAddr (mergePortUpdate existing req).maxStreams = .ok m)
    (i : ℕ) (pc : RequestPc) (p : ℤ) :
    LiveAt isIP clean { d with admin := ({ d.admin with portMap := m }.setRequest i pc) } p := by
  obtain ⟨e, he, hlook⟩ := PortMap.lookup_update _ hm
  obtain ⟨e', he', rfl⟩ := Option.map_eq_some_iff.mp hget
  rw [he] at he'
  cases he'
  refine live_change port (fun p _ => h p) (fun _ _ => rfl) ?_ ?_ p
  · intro p hp
    rw [portMap_setRequest, hlook, if_neg hp]
  · obtain ⟨hserve, hst⟩ := h port e he
    rw [portMap_setRequest, hlook, if_pos rfl]
    rintro _ ⟨⟩
    exact ⟨hserve, fun ho => storable_put hreq (hst ho)⟩

/-- A mapping is removed. -/
theorem live_remove (h : ∀ p, LiveAt isIP clean d p)
    (hm : d.admin.portMap.removePortMapping customerID port = .ok m) (i : ℕ) (pc : RequestPc)
    (p : ℤ) :
    LiveAt isIP clean { d with
      admin := { d.admin with portMap := m }.setRequest i pc
      origins := Function.update d.origins port .deleted } p := by
  have hlook := (PortMap.lookup_remove _ hm).2
  refine live_change port (fun p _ => h p) ?_ ?_ ?_ p
  · intro p hp
    exact Function.update_of_ne hp _ _
  · intro p hp
    rw [portMap_setRequest, hlook, if_neg hp]
  · rw [portMap_setRequest, hlook, if_pos rfl]
    exact liveMapping_none _ _

/-- A reload makes a mapping and waits for its listener. -/
theorem listing_add (h : ∀ p, LiveAt isIP clean d p) (entry : PortIndexEntry) (i : ℕ)
    (pc : RequestPc) :
    Listing isIP clean { d with admin := ({ d.admin with
      portMap := d.admin.portMap.addPortMapping entry.customerID port entry.service
        entry.listenAddr entry.maxStreams }.setRequest i pc) } port entry := by
  refine ⟨fun p hp => ?_, ?_⟩
  · unfold LiveAt
    rw [portMap_setRequest, PortMap.lookup_add, if_neg hp]
    exact h p
  · rw [portMap_setRequest, PortMap.customer_add, if_pos rfl]

/-- A reload changes a mapping. -/
theorem live_reloaded {service listenAddr : String} {maxStreams : ℤ}
    (h : ∀ p, LiveAt isIP clean d p)
    (hm : d.admin.portMap.updatePortMapping port service listenAddr maxStreams = .ok m) (i : ℕ)
    (pc : RequestPc) (p : ℤ) :
    LiveAt isIP clean { d with
      admin := { d.admin with portMap := m }.setRequest i pc
      origins := (PortEvent.reloaded port).apply d.origins } p := by
  obtain ⟨e, he, hlook⟩ := PortMap.lookup_update _ hm
  refine live_change port (fun p _ => h p) ?_ ?_ ?_ p
  · exact fun p hp => apply_reloaded_ne d.origins hp
  · intro p hp
    rw [portMap_setRequest, hlook, if_neg hp]
  · obtain ⟨hserve, hpost⟩ := apply_reloaded_self d.origins (h port e he).1
    exact liveMapping_of_ne hserve hpost _

/-- A reload takes back the mapping that got no listener. -/
theorem live_unlisted {entry : PortIndexEntry} (h : Listing isIP clean d port entry) (i : ℕ)
    (pc : RequestPc) (p : ℤ) :
    LiveAt isIP clean { d with admin := ({ d.admin with
      portMap := d.admin.rollback entry.customerID port }.setRequest i pc) } p := by
  obtain ⟨hothers, hcust⟩ := h
  refine live_change port hothers (fun _ _ => rfl) ?_ ?_ p
  · intro p hp
    rw [portMap_setRequest, lookup_rollback hcust, if_neg hp]
  · rw [portMap_setRequest, lookup_rollback hcust, if_pos rfl]
    exact liveMapping_none _ _

/-- The sidecar is written. -/
theorem settled_save (h : ∀ p, LiveAt isIP clean d p) (hpath : d.storePath ≠ "")
    (hmap : s'.portMap = d.admin.portMap) (hside : s'.sidecar =
      .data sidecarVersion (d.admin.portMap.listPorts.map Admin.PortInfo.sidecarPort)) (p : ℤ) :
    SettledAt isIP clean { d with admin := s' } p := by
  have hstored : stored { d with admin := s' } =
      d.admin.portMap.listPorts.map Admin.PortInfo.sidecarPort := by
    simp [stored, openSidecar, hpath, hside, loadSidecar]
  -- the lines of a port are the one of its mapping
  have hline : ∀ sp, sp ∈ d.admin.portMap.listPorts.map Admin.PortInfo.sidecarPort ∧ sp.port = p ↔
      ∃ e, d.admin.portMap.lookup p = some e ∧ sp = sidecarOf p e := by
    intro sp
    constructor
    · rintro ⟨hmem, rfl⟩
      obtain ⟨info, hinfo, rfl⟩ := List.mem_map.mp hmem
      obtain ⟨e, he, heq⟩ := (PortMap.mem_listPorts _).mp hinfo
      exact ⟨e, he, congrArg Admin.PortInfo.sidecarPort heq⟩
    · rintro ⟨e, he, rfl⟩
      exact ⟨List.mem_map.mpr ⟨e.info p, (PortMap.mem_listPorts _).mpr ⟨e, he, rfl⟩, rfl⟩, rfl⟩
  unfold SettledAt
  rw [hstored]
  refine ⟨?_, ?_, ?_⟩
  · rw [hmap]
    exact h p
  · intro sp hsp hport
    obtain ⟨e, he, rfl⟩ := (hline sp).mp ⟨hsp, hport⟩
    obtain ⟨hserve, hst⟩ := h p e he
    refine ⟨hserve, fun ho => ⟨⟨e, hst ho, rfl⟩, fun sp' hsp' hport' => ?_⟩⟩
    obtain ⟨e', he', rfl⟩ := (hline sp').mp ⟨hsp', hport'⟩
    rw [he] at he'
    cases he'
    rfl
  · intro _ _ e he
    rw [hmap] at he
    exact ((hline _).mpr ⟨e, he, rfl⟩).1

/-- Without a store there is nothing to read. -/
theorem settled_unsaved (h : ∀ p, LiveAt isIP clean d p) (hstore : d.admin.store = false)
    (hopen : d.admin.store = (openSidecar d.storePath d.admin.sidecar).isSome) (p : ℤ) :
    SettledAt isIP clean d p := by
  have hnone : openSidecar d.storePath d.admin.sidecar = none := by
    rw [hstore] at hopen
    simpa using hopen.symm
  unfold SettledAt stored
  rw [hnone, hstore]
  exact ⟨h p, nofun, nofun⟩

/-- What a save writes. -/
theorem sidecar_save {written : Bool} (hm : AdminMove isIP s (.save i written) s') :
    ∃ r ports, s.requests[i]? = some (.save r ports) ∧ s'.sidecar =
      if written then .data sidecarVersion (ports.map Admin.PortInfo.sidecarPort)
      else s.sidecar := by
  cases hm with
  | malformed _ _ ha => rcases ha with ⟨_, ha⟩ | ⟨_, _, ha⟩ <;> cases ha
  | save _ r ports _ file hpc hfile =>
    obtain ⟨reloading, hfin⟩ := finish_eq { s with sidecar := file } i r
    rw [hfin]
    exact ⟨r, ports, hpc, hfile⟩

/-- A store has a path. -/
theorem path_of_store (hI : Stored isIP clean d) (hstore : d.admin.store = true) :
    d.storePath ≠ "" := by
  intro hpath
  have hopen := hI.store
  rw [hstore, openSidecar, if_neg (not_not.mpr hpath)] at hopen
  cases hopen

/-! ## The sections of a request -/

section Sections

variable {pc next : RequestPc}

/-- A request arrives.
SOURCE: admin.go:394-419, 487-491; admin_reload.go:65-93 -/
theorem requests_arrive (h : InStages isIP clean d d.admin.requests)
    (hidle : ∀ pc ∈ d.admin.requests, unfinished pc = false)
    (hstage : (∀ p, SettledAt isIP clean d p) →
      RequestStage isIP clean { d with admin := d.admin.addRequest pc } pc) :
    InStages isIP clean { d with admin := d.admin.addRequest pc } (d.admin.requests ++ [pc]) := by
  have hrest := h.rest hidle
  exact Exclusive.add hidle (fun _ => hstage hrest) fun _ => hrest

/-- The outcome of the listener that a POST or a reload waits for.
SOURCE: admin.go:438-450; admin_reload.go:215-228 -/
theorem requests_bind {b : Bind} (h : InStages isIP clean d d.admin.requests)
    (hm : AdminMove isIP d.admin (.bind i b) s') :
    InStages isIP clean (afterStep d (.bind i b) s') s'.requests := by
  cases hm with
  | malformed _ _ ha => simp at ha
  | createBind _ req _ hpc =>
    have hstage : Posting isIP clean d req := h.at hpc rfl
    rw [afterStep_eq (originsAfter_bind hpc b)]
    cases b with
    | refused err => exact h.move hpc rfl rfl hstage
    | bound | slow => exact h.move hpc rfl rfl (live_posted hstage rfl)
  | reloadBind _ st port entry _ hpc =>
    have hstage : Listing isIP clean d port entry := h.at hpc rfl
    rw [afterStep_eq (originsAfter_bind hpc b)]
    cases b with
    | refused err => exact h.move hpc rfl rfl hstage
    | bound | slow => exact h.move hpc rfl rfl (live_listed hstage rfl)

/-- An update or a DELETE that does not find its port.
SOURCE: admin.go:497-513, 599-608 -/
theorem requests_miss {status : ℕ} {text : String} (h : InStages isIP clean d d.admin.requests)
    (hstep : d.admin.step isIP (.run i) = some (d.admin.setRequest i (.done (.error status text))))
    (hpc : d.admin.requests[i]? = some pc) (hkind : (∃ port req, pc = .updateGet port req) ∨
      (∃ port existing req, pc = .updateApply port existing req) ∨
      (∃ port, pc = .deleteLookup port) ∨ ∃ port customerID, pc = .deleteRemove port customerID) :
    InStages isIP clean (afterStep d (.run i) (d.admin.setRequest i (.done (.error status text))))
      (d.admin.requests.set i (.done (.error status text))) := by
  have hrest : (∀ p, SettledAt isIP clean d p) ∧ originsAfter d (.run i) = d.origins := by
    rw [originsAfter_run hpc]
    rcases hkind with ⟨_, _, rfl⟩ | ⟨_, _, _, rfl⟩ | ⟨_, rfl⟩ | ⟨_, _, rfl⟩
    · exact ⟨(h.at hpc rfl).1, rfl⟩
    · exact ⟨(h.at hpc rfl).1, rfl⟩
    · exact ⟨h.at hpc rfl, rfl⟩
    · refine ⟨h.at hpc rfl, ?_⟩
      rw [PortEvent.ofRun, if_neg (miss_remove hpc hstep)]
      rfl
  have hactive : unfinished pc = true := by
    rcases hkind with ⟨_, _, rfl⟩ | ⟨_, _, _, rfl⟩ | ⟨_, rfl⟩ | ⟨_, _, rfl⟩ <;> rfl
  rw [afterStep_eq hrest.2]
  exact h.retire hpc hactive rfl hrest.1

/-- The sections of a request that find the lock of the router or of the listeners free. -/
theorem requests_run (hI : Stored isIP clean d) (hstep : d.admin.step isIP (.run i) = some s') :
    InStages isIP clean (afterStep d (.run i) s') s'.requests := by
  have h := hI.requests
  cases admin_move hstep with
  | malformed _ _ ha => simp at ha
  | createAdd _ req hpc =>
    obtain ⟨hrest, hst⟩ := h.at hpc rfl
    rw [afterStep_eq (originsAfter_run hpc)]
    exact h.move hpc rfl rfl (posting_add hrest hst i _)
  | createRollback _ req err hpc =>
    rw [afterStep_eq (originsAfter_run hpc)]
    exact h.retire hpc rfl rfl (settled_unposted (h.at hpc rfl) i _)
  | updateGet _ port req existing hpc hget =>
    obtain ⟨hrest, hreq⟩ := h.at hpc rfl
    rw [afterStep_eq (originsAfter_run hpc)]
    exact h.move hpc rfl rfl ⟨hrest, hreq, hget⟩
  | updateApply _ port existing req m hpc hm =>
    obtain ⟨hrest, hreq, hget⟩ := h.at hpc rfl
    rw [afterStep_eq (originsAfter_run hpc)]
    exact h.move hpc rfl rfl (live_put (fun p => (hrest p).live) hreq hget hm i _)
  | deleteLookup _ _ _ _ hpc | reloadLock _ hpc | reloadCommit _ _ hpc =>
    rw [afterStep_eq (originsAfter_run hpc)]
    exact h.move hpc rfl rfl (h.at hpc rfl)
  | deleteRemove _ port customerID m hpc hm =>
    have hrest : ∀ p, SettledAt isIP clean d p := h.at hpc rfl
    have ho : originsAfter d (.run i) = Function.update d.origins port .deleted := by
      rw [originsAfter_run hpc, PortEvent.ofRun, if_pos (PortMap.customer_remove _ hm).1]
      rfl
    rw [afterStep_eq ho]
    exact h.move hpc rfl rfl (live_remove (fun p => (hrest p).live) hm i _)
  | deleteStop _ port hpc | reloadStop _ st port hpc =>
    have hlive : ∀ p, LiveAt isIP clean d p := h.at hpc rfl
    rw [afterStep_eq (originsAfter_run hpc), requests_stop]
    refine h.move hpc rfl rfl fun p => ?_
    unfold LiveAt
    rw [portMap_setRequest, portMap_stopPort]
    exact hlive p
  | miss _ pc status text hpc hkind => exact requests_miss h hstep hpc hkind
  | reloadRollback _ st port entry hpc =>
    rw [afterStep_eq (originsAfter_run hpc)]
    exact h.move hpc rfl rfl (live_unlisted (h.at hpc rfl) i _)
  | reloadLimits _ st hpc =>
    obtain ⟨limiters, hlim⟩ := applyRateLimitChanges_eq d.admin st.oldCfg (some st.newCfg)
    rw [afterStep_eq (originsAfter_run hpc), hlim]
    exact h.move hpc rfl rfl (h.at hpc rfl)
  | snapshot _ r hpc hstore =>
    rw [afterStep_eq (originsAfter_run hpc)]
    exact h.move hpc rfl rfl ⟨h.at hpc rfl, hstore, rfl⟩
  | answer _ r hpc hstore =>
    obtain ⟨reloading, hfin⟩ := finish_eq d.admin i r
    rw [afterStep_eq (originsAfter_run hpc), hfin]
    exact h.retire hpc rfl rfl (settled_unsaved (h.at hpc rfl) hstore hI.store)

/-- A port of the new config that a reload adds, updates or leaves as it is.
SOURCE: admin_reload.go:160-199 -/
theorem requests_pick (h : InStages isIP clean d d.admin.requests)
    (hm : AdminMove isIP d.admin (.pick i port) s') :
    InStages isIP clean (afterStep d (.pick i port) s') s'.requests := by
  cases hm with
  | malformed _ _ ha => simp at ha
  | reloadAdd _ st _ entry hpc hadd hnew hold =>
    have ho : originsAfter d (.pick i port) = d.origins := by
      rw [originsAfter_pick hpc]
      simp [PortEvent.ofPick, hadd, hold]
    rw [afterStep_eq ho]
    exact h.move hpc rfl rfl (listing_add (h.at hpc rfl) entry i _)
  | reloadReject _ st _ entry old hpc hadd hnew hold hcust =>
    have ho : originsAfter d (.pick i port) = d.origins := by
      rw [originsAfter_pick hpc]
      simp [PortEvent.ofPick, hadd, hold, hnew, hcust]
    rw [afterStep_eq ho]
    exact h.move hpc rfl rfl (h.at hpc rfl)
  | reloadUpdate _ st _ entry old m hpc hadd hnew hold hcust hdiff hm =>
    have ho : originsAfter d (.pick i port) = (PortEvent.reloaded port).apply d.origins := by
      rw [originsAfter_pick hpc]
      simp [PortEvent.ofPick, hadd, hold, hnew, hcust, hdiff]
    rw [afterStep_eq ho]
    exact h.move hpc rfl rfl (live_reloaded (h.at hpc rfl) hm i _)
  | reloadUpdateMiss _ st _ entry old hpc hadd hnew hold hmiss =>
    have hlive : ∀ p, LiveAt isIP clean d p := h.at hpc rfl
    refine h.move hpc rfl rfl (live_change port (fun p _ => hlive p) ?_ (fun _ _ => rfl) ?_)
    · exact fun p hp => originsAfter_pick_ne hpc hp
    · rw [portMap_setRequest, hmiss]
      exact liveMapping_none _ _
  | reloadSame _ st _ entry old hpc hadd hnew hold hcust hdiff =>
    have ho : originsAfter d (.pick i port) = d.origins := by
      rw [originsAfter_pick hpc]
      simp [PortEvent.ofPick, hadd, hold, hnew, hdiff]
    rw [afterStep_eq ho]
    exact h.move hpc rfl rfl (h.at hpc rfl)
  | reloadRemove _ st _ old m hpc hadds hrem hold hm =>
    have ho : originsAfter d (.pick i port) = Function.update d.origins port .deleted := by
      rw [originsAfter_pick hpc]
      simp [PortEvent.ofPick, hadds, hold, (PortMap.customer_remove _ hm).1, PortEvent.apply]
    rw [afterStep_eq ho]
    exact h.move hpc rfl rfl (live_remove (h.at hpc rfl) hm i _)
  | reloadRemoveMiss _ st _ old e hpc hadds hrem hold hm =>
    have hcust : d.admin.portMap.customer port ≠ some old.customerID := by
      intro hc
      obtain ⟨m, hok⟩ := remove_of_customer hc
      rw [hm] at hok
      cases hok
    have ho : originsAfter d (.pick i port) = d.origins := by
      rw [originsAfter_pick hpc]
      simp [PortEvent.ofPick, hadds, hold, hcust]
    rw [afterStep_eq ho]
    exact h.move hpc rfl rfl (h.at hpc rfl)

end Sections

/-- Each request takes the deployment from one stage to the next, and at its end back to where all
ports are settled. -/
theorem requests_move (hany : isIP "0.0.0.0" = true) (hI : Stored isIP clean d)
    (hok : OneAtATime d.admin a) (hstep : d.admin.step isIP a = some s') :
    InStages isIP clean (afterStep d a s') s'.requests := by
  have h := hI.requests
  have hm := admin_move hstep
  cases a with
  | run i => exact requests_run hI hstep
  | bind i b => exact requests_bind h hm
  | pick i port => exact requests_pick h hm
  | post body =>
    cases hm with
    | malformed => exact requests_arrive h hok fun _ => trivial
    | post req hreq => exact requests_arrive h hok fun hrest => ⟨hrest, storable_post hany hreq⟩
  | put port body =>
    cases hm with
    | malformed => exact requests_arrive h hok fun _ => trivial
    | put _ req hreq => exact requests_arrive h hok fun hrest => ⟨hrest, hreq⟩
  | delete port | reload =>
    cases hm with
    | malformed _ _ ha => simp at ha
    | _ => exact requests_arrive h hok id
  | load i file =>
    cases hm with
    | malformed _ _ ha => simp at ha
    | reloadInvalid _ _ text hpc => exact h.retire hpc rfl rfl (h.at hpc rfl)
    | reloadStart _ _ cfg idx hpc =>
      have hrest : ∀ p, SettledAt isIP clean d p := h.at hpc rfl
      exact h.move hpc rfl rfl fun p => (hrest p).live
  | save i written =>
    cases hm with
    | malformed _ _ ha => simp at ha
    | save _ r ports _ file hpc hfile =>
      obtain ⟨hlive, hstore, rfl⟩ := h.at hpc rfl
      obtain ⟨reloading, hfin⟩ := finish_eq { d.admin with sidecar := file } i r
      obtain rfl : written = true := hok
      rw [hfin]
      exact h.retire hpc rfl rfl (settled_save hlive (path_of_store hI hstore) rfl hfile)
  | listen port addr bound =>
    cases hm with
    | malformed _ _ ha => simp at ha
    | listen | listenFail => exact h.keep (fun pc _ _ hstage => by cases pc <;> exact hstage) id

/-- No step loses a mapping. -/
theorem stored_step (hany : isIP "0.0.0.0" = true) (hI : Stored isIP clean d)
    (hok : OneAtATime d.admin a) (hstep : d.admin.step isIP a = some s') :
    Stored isIP clean (afterStep d a s') := by
  refine ⟨requests_move hany hI hok hstep, ?_⟩
  show s'.store = (openSidecar d.storePath s'.sidecar).isSome
  obtain ⟨hstore, hside⟩ := store_move (admin_move hstep)
  cases a with
  | save i written =>
    obtain ⟨r, ports, hpc, hfile⟩ := sidecar_save (admin_move hstep)
    obtain ⟨-, hopen, -⟩ := hI.requests.at hpc rfl
    obtain rfl : written = true := hok
    rw [hstore, hopen, hfile, openSidecar, if_pos (path_of_store hI hopen)]
    rfl
  | _ =>
    rw [hstore, hside rfl]
    exact hI.store

/-! ## Starts -/

/-- A config is loaded as it is. -/
theorem loadRelayConfig_ok {cfg cfg' : RelayConfig} (h : loadRelayConfig (.ok cfg) = .ok cfg') :
    cfg' = cfg := by
  unfold loadRelayConfig at h
  dsimp only at h
  split at h <;> cases h
  rfl

/-- What a boot starts with. -/
theorem boot_ok {file : SidecarFile} (h : boot isIP (.ok cfg) file = .ok s) :
    s.currentCfg = some cfg ∧ s.store = (openSidecar cfg.server.storePath file).isSome ∧
      s.sidecar = file := by
  unfold boot at h
  cases hload : loadRelayConfig (.ok cfg) with
  | error e =>
    rw [hload] at h
    cases h
  | ok cfg' =>
    obtain rfl := loadRelayConfig_ok hload
    cases hidx : startupIndex isIP cfg' file with
    | error e =>
      rw [hload] at h
      simp only [Except.mapError, bind, Except.bind, hidx] at h
      cases h
    | ok index =>
      rw [hload] at h
      simp only [Except.mapError, bind, Except.bind, hidx] at h
      cases h
      obtain ⟨limiters, heq⟩ := foldl_setRateLimiter_eq cfg'.customers _
      rw [heq]
      exact ⟨rfl, rfl, rfl⟩

/-- What a relay that has started has of its config and of what is on the disk. -/
theorem start_eq {disk : String → SidecarFile} {origins : ℤ → Origin}
    (h : Deployment.start isIP disk origins cfg = .ok d) :
    d.storePath = cfg.server.storePath ∧ d.admin.sidecar = disk cfg.server.storePath ∧
      d.admin.store = (openSidecar cfg.server.storePath (disk cfg.server.storePath)).isSome ∧
      d.admin.requests = [] ∧
      (∀ p, d.origins p = if p ∈ indexPorts (some cfg) then .relayYaml else origins p) ∧
      ∀ p, d.admin.portMap.lookup p =
        (((indexPorts (some cfg)).lookup p).or
          ((sidecarLine isIP (stored d) p).map sidecarEntry)).map mapping := by
  unfold Deployment.start at h
  cases hboot : boot isIP (.ok cfg) (disk cfg.server.storePath) with
  | error e =>
    rw [hboot] at h
    cases h
  | ok s =>
    rw [hboot] at h
    cases h
    obtain ⟨hcfg, hstore, hside⟩ := boot_ok hboot
    obtain ⟨cfg', idx, index, hbuild, hindex, hcfg', hmap, -, -, -, hreq⟩ := boot_eq hboot
    obtain rfl : cfg = cfg' := by
      rw [hcfg] at hcfg'
      exact Option.some.inj hcfg'
    refine ⟨rfl, hside, hstore, hreq, fun _ => rfl, fun p => ?_⟩
    rw [buildPortIndex_eq hbuild, ← lookup_mergeSidecar, hmap p, hindex, stored, hside]

/-- A start on a sidecar whose lines are as they should be. -/
theorem stored_start {disk : String → SidecarFile} {origins : ℤ → Origin}
    (h : Deployment.start isIP disk origins cfg = .ok d)
    (hheld : ∀ p, HeldLines isIP clean p (origins p)
      ((openSidecar cfg.server.storePath (disk cfg.server.storePath)).getD [])) :
    Stored isIP clean d := by
  obtain ⟨hpath, hside, hstore, hreq, ho, hmap⟩ := start_eq h
  have hstored :
      stored d = (openSidecar cfg.server.storePath (disk cfg.server.storePath)).getD [] := by
    rw [stored, hpath, hside]
  rw [← hstored] at hheld
  refine ⟨?_, by rw [hstore, hpath, hside]⟩
  rw [hreq]
  refine ⟨by simp, by simp, fun _ p => ?_⟩
  unfold SettledAt
  rw [ho p, hmap p]
  split
  · have hyaml : Servable clean .relayYaml := trivial
    refine ⟨liveMapping_of_ne hyaml (by simp) _, fun sp _ _ => ⟨hyaml, by simp⟩, by simp⟩
  · next hp =>
    rw [AList.lookup_eq_none.mpr hp, Option.none_or]
    -- the mapping is that of the line, and a POST's line gives the POST's mapping back
    have hline : ∀ e' ∈ ((sidecarLine isIP (stored d) p).map sidecarEntry).map mapping,
        Servable clean (origins p) ∧ (origins p = .post false →
          Storable isIP p e' ∧ sidecarOf p e' ∈ stored d) := by
      intro e' he'
      obtain ⟨entry, hentry, rfl⟩ := Option.map_eq_some_iff.mp he'
      obtain ⟨sp, hsp, rfl⟩ := Option.map_eq_some_iff.mp hentry
      obtain ⟨hmem, -, hport⟩ := sidecarLine_some hsp
      obtain ⟨hserve, hpost⟩ := hheld p sp hmem hport
      refine ⟨hserve, fun hop => ?_⟩
      obtain ⟨⟨e, hst, rfl⟩, -⟩ := hpost hop
      rw [mapping_sidecarOf hst]
      exact ⟨hst, hmem⟩
    refine ⟨?_, hheld p, ?_⟩
    · exact fun e' he' => ⟨(hline e' he').1, fun hop => ((hline e' he').2 hop).1⟩
    · exact fun _ hop e' he' => ((hline e' he').2 hop).2

/-! ## Runs -/

/-- Requests come one at a time with successful saves, and a restart comes between requests, with a
config that names the same sidecar as before, or one that does not exist. -/
def InSequence (d : Deployment) : DeploymentAction → Prop
  | .admin a => OneAtATime d.admin a
  | .restart cfg => (∀ pc ∈ d.admin.requests, unfinished pc = false) ∧
      (cfg.server.storePath = d.storePath ∨ d.diskNow cfg.server.storePath = .missing)

instance (d : Deployment) (a : DeploymentAction) : Decidable (InSequence d a) := by
  unfold InSequence
  split <;> infer_instance

/-- What a start with this config will find in the sidecar. -/
theorem held_diskNow (hI : Stored isIP clean d)
    (hidle : ∀ pc ∈ d.admin.requests, unfinished pc = false) {path : String}
    (hpath : path = d.storePath ∨ d.diskNow path = .missing) (p : ℤ) :
    HeldLines isIP clean p (d.origins p) ((openSidecar path (d.diskNow path)).getD []) := by
  rcases hpath with rfl | hmissing
  · rw [Deployment.diskNow, Function.update_self]
    exact (hI.requests.rest hidle p).held
  · have hnil : (openSidecar path .missing).getD [] = [] := by
      unfold openSidecar
      split <;> rfl
    rw [hmissing, hnil]
    nofun

/-- None is lost in any run. -/
theorem stored_reach (hany : isIP "0.0.0.0" = true) {d₀ : Deployment} (h₀ : Stored isIP clean d₀)
    (h : Reach (Deployment.step isIP) InSequence d₀ d) : Stored isIP clean d := by
  refine Reach.invariant (Stored isIP clean) h h₀ ?_
  intro d a d' _ hI hok hstep
  cases a with
  | admin a =>
    obtain ⟨s', hs', rfl⟩ := Option.map_eq_some_iff.mp hstep
    exact stored_step hany hI hok hs'
  | restart cfg =>
    obtain ⟨hidle, hpath⟩ := hok
    cases hstart : Deployment.start isIP d.diskNow d.origins cfg with
    | error e =>
      simp only [Deployment.step, hstart] at hstep
      cases hstep
    | ok d₁ =>
      simp only [Deployment.step, hstart] at hstep
      cases hstep
      exact stored_start hstart (held_diskNow hI hidle hpath)

/-! ## The index of the next start -/

/-- The index of a start: relay.yaml, and the sidecar on top of it. -/
theorem lookup_startupIndex {file : SidecarFile} {index : PortIndex}
    (h : startupIndex isIP cfg file = .ok index) (hp : p ∉ indexPorts (some cfg)) :
    index.lookup p =
      (sidecarLine isIP ((openSidecar cfg.server.storePath file).getD []) p).map sidecarEntry := by
  obtain ⟨idx, hbuild, rfl⟩ := startupIndex_ok h
  rw [buildPortIndex_eq hbuild] at hp
  rw [lookup_mergeSidecar, AList.lookup_eq_none.mpr hp, Option.none_or]

/-- Whatever the sidecar held when the relay first started, after any sequence of requests and
restarts: a start with a config that names the same sidecar gives the ports back that POSTs have
made and that are not in the config, each with its customer, service, listen address and stream
limit as they were; and no port that has been deleted.
SOURCE: main.go:111-175; store.go:49-124; admin.go:394-596 -/
theorem posted_ports_come_back (hany : isIP "0.0.0.0" = true) {disk : String → SidecarFile}
    {cfg cfg' : RelayConfig} {d₀ : Deployment} {index : PortIndex}
    (hstart : Deployment.start isIP disk (fun _ => .unknown) cfg = .ok d₀)
    (hrun : Reach (Deployment.step isIP) InSequence d₀ d)
    (hidle : ∀ pc ∈ d.admin.requests, unfinished pc = false) (hstore : d.admin.store = true)
    (hpath : cfg'.server.storePath = d.storePath)
    (hindex : startupIndex isIP cfg' (d.diskNow cfg'.server.storePath) = .ok index)
    (hp : p ∉ indexPorts (some cfg')) :
    (d.origins p = .post false → ∀ e ∈ d.admin.portMap.lookup p,
      (index.lookup p).map mapping = some e) ∧
      (d.origins p = .deleted → index.lookup p = none) := by
  have h₀ : Stored isIP false d₀ := by
    apply stored_start hstart
    intro p sp _ _
    exact ⟨rfl, by simp⟩
  obtain ⟨hlive, hheld, hsaved⟩ := (stored_reach hany h₀ hrun).requests.rest hidle p
  have hlook : index.lookup p = (sidecarLine isIP (stored d) p).map sidecarEntry := by
    rw [lookup_startupIndex hindex hp, hpath, Deployment.diskNow, Function.update_self]
    rfl
  constructor
  · intro hpost e he
    have hst := (hlive e he).2 hpost
    have hmem := hsaved hstore hpost e he
    have hline : sidecarLine isIP (stored d) p = some (sidecarOf p e) :=
      sidecarLine_of_mem hmem hst.1 ((hheld _ hmem rfl).2 hpost).2
    rw [hlook, hline]
    exact congrArg some (mapping_sidecarOf hst)
  · intro hdel
    rw [hlook]
    cases hline : sidecarLine isIP (stored d) p with
    | none => rfl
    | some sp =>
      obtain ⟨hmem, -, hport⟩ := sidecarLine_some hline
      have hserve := (hheld sp hmem hport).1
      rw [hdel] at hserve
      cases hserve

/-- A first start, a run from it and a decidable property of where it ends, by evaluation. -/
theorem exists_deployment_of_exec (isIP : String → Bool) (disk : String → SidecarFile)
    (cfg : RelayConfig) (as : List DeploymentAction) (P : Deployment → Prop) [DecidablePred P]
    (h : (Deployment.start isIP disk (fun _ => .unknown) cfg).toOption.any (fun d₀ =>
      (exec (guarded (Deployment.step isIP) InSequence) d₀ as).any fun d => decide (P d)) = true) :
    ∃ d₀ d, Deployment.start isIP disk (fun _ => .unknown) cfg = .ok d₀ ∧
      Reach (Deployment.step isIP) InSequence d₀ d ∧ P d :=
  exists_start_of_exec as (fun _ d => P d) h

/-- The steps of a POST, request `i`, that succeeds. -/
def postRun (i : ℕ) (port : ℤ) (customerID : String) : List DeploymentAction :=
  [.admin (postPort port customerID), .admin (.run i), .admin (.bind i .bound), .admin (.run i),
    .admin (.save i true)]

/-- The steps of a DELETE, request `i`, that succeeds. -/
def deleteRun (i : ℕ) (port : ℤ) : List DeploymentAction :=
  [.admin (.delete port), .admin (.run i), .admin (.run i), .admin (.run i), .admin (.run i),
    .admin (.save i true)]

/-- Two POSTs, a PUT to the first port, a restart, a DELETE of the second port, and the index of the
next start. -/
theorem posted_ports_come_back_twice :
    ∃ d₀ d index, Deployment.start (fun _ => true) (fun _ => globexSidecar) (fun _ => .unknown)
        (twoCustomers [8080] []) = .ok d₀ ∧
      Reach (Deployment.step fun _ => true) InSequence d₀ d ∧
      startupIndex (fun _ => true) (twoCustomers [] []) (d.diskNow "ports.json") = .ok index ∧
      (index.lookup 9000).map mapping = some ⟨"globex", "http", 7, "127.0.0.1"⟩ ∧
      index.lookup 9001 = none := by
  obtain ⟨d₀, d, hstart, hrun, hidle, hstore, hpath, hpost, hdel, hmap, hindex⟩ :=
    exists_deployment_of_exec (fun _ => true) (fun _ => globexSidecar) (twoCustomers [8080] [])
      (postRun 0 9000 "globex" ++ postRun 1 9001 "acme" ++
        [DeploymentAction.admin
            (.put 9000 (some { maxStreams := some 7, listenAddr := "127.0.0.1" })),
          .admin (.run 2), .admin (.run 2), .admin (.run 2), .admin (.save 2 true),
          .restart (twoCustomers [8080] [8081])] ++
        deleteRun 0 9001)
      (fun d => (∀ pc ∈ d.admin.requests, unfinished pc = false) ∧ d.admin.store = true ∧
        (twoCustomers [] []).server.storePath = d.storePath ∧ d.origins 9000 = .post false ∧
        d.origins 9001 = .deleted ∧
        d.admin.portMap.lookup 9000 = some ⟨"globex", "http", 7, "127.0.0.1"⟩ ∧
        (startupIndex (fun _ => true) (twoCustomers [] []) (d.diskNow "ports.json")).toOption.any
          (fun _ => decide True) = true)
      (by decide)
  obtain ⟨index, hindex, -⟩ := exists_ok_of_any (fun _ => True) hindex
  refine ⟨d₀, d, index, hstart, hrun, hindex, ?_, ?_⟩
  · exact (posted_ports_come_back rfl hstart hrun hidle hstore hpath hindex (by decide)).1 hpost _
      hmap
  · exact (posted_ports_come_back rfl hstart hrun hidle hstore hpath hindex (by decide)).2 hdel

/-- A config without a sidecar does not bring the port of a POST back. -/
theorem posted_port_left_behind :
    ∃ d₀ d, Deployment.start (fun _ => true) (fun _ => .missing) (fun _ => .unknown)
        (twoCustomers [8080] []) = .ok d₀ ∧
      Reach (Deployment.step fun _ => true) InSequence d₀ d ∧
      (∀ pc ∈ d.admin.requests, unfinished pc = false) ∧ d.admin.store = true ∧
      d.origins 9000 = .post false ∧ (d.admin.portMap.lookup 9000).isSome = true ∧
      9000 ∉ indexPorts (some { twoCustomers [8080] [] with server.storePath := "" }) ∧
      (startupIndex (fun _ => true) { twoCustomers [8080] [] with server.storePath := "" }
        (d.diskNow "")).toOption.map (fun index => index.lookup 9000) = some none :=
  exists_deployment_of_exec (fun _ => true) _ _ (postRun 0 9000 "globex")
    _ (by decide)

/-- From a first start on an empty disk, after any sequence of requests and restarts: if the next
config has every port that relay.yaml has brought to the sidecar, the ports of the next start are
those of the config and those that POSTs have made and that have not been deleted since.
SOURCE: main.go:111-175; store.go:29-36, 110-124; admin_reload.go:126-140 -/
theorem startup_ports_declared (hany : isIP "0.0.0.0" = true) {cfg cfg' : RelayConfig}
    {d₀ : Deployment} {index : PortIndex}
    (hstart : Deployment.start isIP (fun _ => .missing) (fun _ => .unknown) cfg = .ok d₀)
    (hrun : Reach (Deployment.step isIP) InSequence d₀ d) (hok : InSequence d (.restart cfg'))
    (hyaml : ∀ sp ∈ (openSidecar cfg'.server.storePath (d.diskNow cfg'.server.storePath)).getD [],
      d.origins sp.port = .relayYaml → sp.port ∈ indexPorts (some cfg'))
    (hindex : startupIndex isIP cfg' (d.diskNow cfg'.server.storePath) = .ok index)
    (hp : p ∈ index) : p ∈ indexPorts (some cfg') ∨ ∃ b, d.origins p = .post b := by
  have h₀ : Stored isIP true d₀ := by
    apply stored_start hstart
    intro p sp hsp
    unfold openSidecar at hsp
    split at hsp <;> cases hsp
  have hheld := held_diskNow (stored_reach hany h₀ hrun) hok.1 hok.2 p
  by_cases hcfg : p ∈ indexPorts (some cfg')
  · exact .inl hcfg
  right
  obtain ⟨e, he⟩ := Option.isSome_iff_exists.mp (AList.lookup_isSome.mpr hp)
  rw [lookup_startupIndex hindex hcfg] at he
  obtain ⟨sp, hline, -⟩ := Option.map_eq_some_iff.mp he
  obtain ⟨hmem, -, rfl⟩ := sidecarLine_some hline
  have hserve := (hheld sp hmem rfl).1
  cases ho : d.origins sp.port with
  | post b => exact ⟨b, rfl⟩
  | relayYaml => exact absurd (hyaml sp hmem ho) hcfg
  | unknown | deleted =>
    rw [ho] at hserve
    cases hserve

/-- A POST, a DELETE of the port of relay.yaml, and a restart with a config that no longer has it.
-/
theorem startup_ports_declared_deleted :
    ∃ d₀ d index, Deployment.start (fun _ => true) (fun _ => .missing) (fun _ => .unknown)
        (twoCustomers [8080] []) = .ok d₀ ∧
      Reach (Deployment.step fun _ => true) InSequence d₀ d ∧
      startupIndex (fun _ => true) (twoCustomers [] []) (d.diskNow "ports.json") = .ok index ∧
      9000 ∈ index ∧ 8080 ∉ index ∧ ∃ b, d.origins 9000 = .post b := by
  obtain ⟨d₀, d, hstart, hrun, hok, hyaml, hindex⟩ :=
    exists_deployment_of_exec (fun _ => true) (fun _ => .missing) (twoCustomers [8080] [])
      (postRun 0 9000 "globex" ++ deleteRun 1 8080)
      (fun d => InSequence d (.restart (twoCustomers [] [])) ∧
        (∀ sp ∈ (openSidecar "ports.json" (d.diskNow "ports.json")).getD [],
          d.origins sp.port = .relayYaml → sp.port ∈ indexPorts (some (twoCustomers [] []))) ∧
        (startupIndex (fun _ => true) (twoCustomers [] []) (d.diskNow "ports.json")).toOption.any
          (fun index => decide (9000 ∈ index ∧ 8080 ∉ index)) = true)
      (by decide)
  obtain ⟨index, hindex, hmem, hno⟩ :=
    exists_ok_of_any (fun index : PortIndex => 9000 ∈ index ∧ 8080 ∉ index) hindex
  refine ⟨d₀, d, index, hstart, hrun, hindex, hmem, hno, ?_⟩
  have hcfg : (9000 : ℤ) ∉ indexPorts (some (twoCustomers [] [])) := by decide
  exact (startup_ports_declared rfl hstart hrun hok hyaml hindex hmem).resolve_left hcfg

/-- Port 8080 has only ever been a line of relay.yaml. The save of a POST writes it to the sidecar
with all others, and a relay that is started without the line serves it from there. -/
theorem dropped_port_served :
    ∃ d₀ d, Deployment.start (fun _ => true) (fun _ => .missing) (fun _ => .unknown)
        (twoCustomers [8080] []) = .ok d₀ ∧
      Reach (Deployment.step fun _ => true) InSequence d₀ d ∧
      InSequence d (.restart (twoCustomers [] [])) ∧
      (startupIndex (fun _ => true) (twoCustomers [] []) (d.diskNow "ports.json")).toOption.any
        (fun index => decide (8080 ∈ index)) = true ∧
      8080 ∉ indexPorts (some (twoCustomers [] [])) ∧ d.origins 8080 = .relayYaml :=
  exists_deployment_of_exec (fun _ => true) _ _ (postRun 0 9000 "globex")
    _ (by decide)

end Atlax.Analysis
