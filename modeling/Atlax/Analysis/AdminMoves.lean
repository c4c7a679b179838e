import Atlax.Model.Admin

/-!
# What the control plane can do

Every step of `Admin.step` is one of the moves below, each with what it found and the state it
leaves behind. Everything else that is proved about the control plane goes by cases on them.
-/

set_option autoImplicit false

namespace Atlax.Analysis

open Atlax.Model Atlax.Library

/-! ## What the operations change -/

section Fields

variable (s : Admin)

@[simp] theorem portMap_setRequest (i : ℕ) (pc : RequestPc) :
    (s.setRequest i pc).portMap = s.portMap := rfl

@[simp] theorem requests_setRequest (i : ℕ) (pc : RequestPc) :
    (s.setRequest i pc).requests = s.requests.set i pc := rfl

@[simp] theorem portMap_addRequest (pc : RequestPc) : (s.addRequest pc).portMap = s.portMap := rfl

@[simp] theorem portMap_bindPort (port : ℤ) (addr : String) :
    (s.bindPort port addr).portMap = s.portMap := rfl

/-- Stopping a port concerns the listeners only. -/
theorem stopPort_eq (port : ℤ) : ∃ listeners sockets,
    s.stopPort port = { s with listeners := listeners, sockets := sockets } := by
  unfold Admin.stopPort
  split
  · exact ⟨s.listeners, s.sockets, rfl⟩
  · exact ⟨_, _, rfl⟩

@[simp] theorem portMap_stopPort (port : ℤ) : (s.stopPort port).portMap = s.portMap := by
  obtain ⟨_, _, h⟩ := stopPort_eq s port
  rw [h]

@[simp] theorem requests_stopPort (port : ℤ) : (s.stopPort port).requests = s.requests := by
  obtain ⟨_, _, h⟩ := stopPort_eq s port
  rw [h]

/-- The rate limits concern the rate limiters only. -/
theorem applyRateLimitChanges_eq (oldCfg newCfg : Option RelayConfig) : ∃ limiters,
    (s.applyRateLimitChanges oldCfg newCfg).1 = { s with rateLimiters := limiters } := by
  unfold Admin.applyRateLimitChanges
  refine List.foldlRecOn
    (motive := fun acc : Admin × ℕ => ∃ limiters, acc.1 = { s with rateLimiters := limiters }) _ _
    ⟨s.rateLimiters, rfl⟩ ?_
  rintro acc ⟨limiters, hacc⟩ e _
  split
  · exact ⟨limiters, hacc⟩
  · unfold Admin.setRateLimiter
    split
    · exact ⟨limiters, hacc⟩
    · exact ⟨limiters.insert e.1 e.2, by simp only [hacc]⟩

@[simp] theorem portMap_applyRateLimitChanges (oldCfg newCfg : Option RelayConfig) :
    (s.applyRateLimitChanges oldCfg newCfg).1.portMap = s.portMap := by
  obtain ⟨_, h⟩ := applyRateLimitChanges_eq s oldCfg newCfg
  rw [h]

/-- An answer concerns the request and, if it is a reload's, the mutex. -/
theorem finish_eq (i : ℕ) (r : Response) : ∃ reloading,
    s.finish i r = { s with reloading := reloading, requests := s.requests.set i (.done r) } := by
  unfold Admin.finish
  split
  · exact ⟨false, rfl⟩
  · exact ⟨s.reloading, rfl⟩

@[simp] theorem portMap_finish (i : ℕ) (r : Response) : (s.finish i r).portMap = s.portMap := by
  obtain ⟨_, h⟩ := finish_eq s i r
  rw [h]

@[simp] theorem requests_finish (i : ℕ) (r : Response) :
    (s.finish i r).requests = s.requests.set i (.done r) := by
  obtain ⟨_, h⟩ := finish_eq s i r
  rw [h]

@[simp] theorem portMap_started (i : ℕ) (port : ℤ) (addr : String) (b : Bind) (next : RequestPc)
    (rollback : String → RequestPc) :
    (s.started i port addr b next rollback).portMap = s.portMap := by
  cases b <;> rfl

/-- A bind that is not refused takes the request on. -/
theorem requests_started (i : ℕ) (port : ℤ) (addr : String) {b : Bind}
    (hb : ∀ err, b ≠ .refused err) {next : RequestPc} {rollback : String → RequestPc} :
    (s.started i port addr b next rollback).requests = s.requests.set i next := by
  cases b with
  | refused err => exact absurd rfl (hb err)
  | bound => rfl
  | slow => rfl

end Fields

/-! ## The moves -/

/-- The moves of the control plane. -/
inductive AdminMove (isIP : String → Bool) (s : Admin) : AdminAction → Admin → Prop
  -- requests that arrive; a malformed one is answered at once
  | malformed (a : AdminAction) (text : String)
      (ha : (∃ body, a = .post body) ∨ ∃ port body, a = .put port body) :
      AdminMove isIP s a (s.addRequest (.done (.error 400 text)))
  | post (req : PortCreateRequest) (hreq : req.check isIP = .ok ()) :
      AdminMove isIP s (.post (some req)) (s.addRequest (.createAdd req))
  | put (port : ℤ) (req : PortUpdateRequest) (hreq : req.check isIP = .ok ()) :
      AdminMove isIP s (.put port (some req)) (s.addRequest (.updateGet port req))
  | delete (port : ℤ) : AdminMove isIP s (.delete port) (s.addRequest (.deleteLookup port))
  | reload : AdminMove isIP s .reload (s.addRequest .reloadLock)
  -- createPort
  | createAdd (i : ℕ) (req : PortCreateRequest) (hpc : s.requests[i]? = some (.createAdd req)) :
      AdminMove isIP s (.run i) ({ s with
        portMap := s.portMap.addPortMapping req.customerID req.port req.service
          (defaultAddr req.listenAddr) req.maxStreams }.setRequest i (.createWait req))
  | createBind (i : ℕ) (req : PortCreateRequest) (b : Bind)
      (hpc : s.requests[i]? = some (.createWait req)) :
      AdminMove isIP s (.bind i b) (s.started i req.port
        (bindAddr (defaultAddr req.listenAddr) req.port) b (.snapshot (.port 201 req.info))
        (.createRollback req))
  | createRollback (i : ℕ) (req : PortCreateRequest) (err : String)
      (hpc : s.requests[i]? = some (.createRollback req err)) :
      AdminMove isIP s (.run i) ({ s with
        portMap := s.rollback req.customerID req.port }.setRequest i
          (.done (.error 409 (createError req err))))
  -- updatePort
  | updateGet (i : ℕ) (port : ℤ) (req : PortUpdateRequest) (existing : PortInfo)
      (hpc : s.requests[i]? = some (.updateGet port req))
      (hget : s.portMap.getPort port = some existing) :
      AdminMove isIP s (.run i) (s.setRequest i (.updateApply port existing req))
  | updateApply (i : ℕ) (port : ℤ) (existing : PortInfo) (req : PortUpdateRequest) (m : PortMap)
      (hpc : s.requests[i]? = some (.updateApply port existing req))
      (hm : s.portMap.updatePortMapping port (mergePortUpdate existing req).service
        (mergePortUpdate existing req).listenAddr (mergePortUpdate existing req).maxStreams =
          .ok m) :
      AdminMove isIP s (.run i)
        ({ s with portMap := m }.setRequest i (.snapshot (.port 200 (mergePortUpdate existing req))))
  -- deletePort
  | deleteLookup (i : ℕ) (port : ℤ) (customerID service : String)
      (hpc : s.requests[i]? = some (.deleteLookup port))
      (hget : s.portMap.lookupPort port = some (customerID, service)) :
      AdminMove isIP s (.run i) (s.setRequest i (.deleteRemove port customerID))
  | deleteRemove (i : ℕ) (port : ℤ) (customerID : String) (m : PortMap)
      (hpc : s.requests[i]? = some (.deleteRemove port customerID))
      (hm : s.portMap.removePortMapping customerID port = .ok m) :
      AdminMove isIP s (.run i) ({ s with portMap := m }.setRequest i (.deleteStop port))
  | deleteStop (i : ℕ) (port : ℤ) (hpc : s.requests[i]? = some (.deleteStop port)) :
      AdminMove isIP s (.run i) ((s.stopPort port).setRequest i (.snapshot .noContent))
  -- an update or a DELETE that does not find its port
  | miss (i : ℕ) (pc : RequestPc) (status : ℕ) (text : String) (hpc : s.requests[i]? = some pc)
      (hkind : (∃ port req, pc = .updateGet port req) ∨
        (∃ port existing req, pc = .updateApply port existing req) ∨
        (∃ port, pc = .deleteLookup port) ∨ ∃ port customerID, pc = .deleteRemove port customerID) :
      AdminMove isIP s (.run i) (s.setRequest i (.done (.error status text)))
  -- Reload
  | reloadLock (i : ℕ) (hpc : s.requests[i]? = some .reloadLock) (hfree : s.reloading = false) :
      AdminMove isIP s (.run i) ({ s with reloading := true }.setRequest i .reloadLoad)
  | reloadInvalid (i : ℕ) (file : Except String RelayConfig) (text : String)
      (hpc : s.requests[i]? = some .reloadLoad) :
      AdminMove isIP s (.load i file)
        ({ s with reloading := false }.setRequest i (.done (.error 422 text)))
  | reloadStart (i : ℕ) (file : Except String RelayConfig) (cfg : RelayConfig) (idx : PortIndex)
      (hpc : s.requests[i]? = some .reloadLoad) (hload : loadRelayConfig file = .ok cfg)
      (hidx : buildPortIndex cfg.customers = .ok idx) :
      AdminMove isIP s (.load i file)
        (s.setRequest i (.reloadPorts (.start s.currentCfg cfg)))
  | reloadAdd (i : ℕ) (st : Reload) (port : ℤ) (entry : PortIndexEntry)
      (hpc : s.requests[i]? = some (.reloadPorts st)) (hadd : port ∈ st.adds)
      (hnew : st.newIdx.lookup port = some entry) (hold : st.oldIdx.lookup port = none) :
      AdminMove isIP s (.pick i port) ({ s with
        portMap := s.portMap.addPortMapping entry.customerID port entry.service entry.listenAddr
          entry.maxStreams }.setRequest i (.reloadWait (st.takeAdd port) port entry))
  | reloadReject (i : ℕ) (st : Reload) (port : ℤ) (entry old : PortIndexEntry)
      (hpc : s.requests[i]? = some (.reloadPorts st)) (hadd : port ∈ st.adds)
      (hnew : st.newIdx.lookup port = some entry) (hold : st.oldIdx.lookup port = some old)
      (hcust : old.customerID ≠ entry.customerID) :
      AdminMove isIP s (.pick i port) (s.setRequest i (.reloadPorts { st.takeAdd port with
        summary.portsRejected := st.summary.portsRejected + 1 }))
  | reloadUpdate (i : ℕ) (st : Reload) (port : ℤ) (entry old : PortIndexEntry) (m : PortMap)
      (hpc : s.requests[i]? = some (.reloadPorts st)) (hadd : port ∈ st.adds)
      (hnew : st.newIdx.lookup port = some entry) (hold : st.oldIdx.lookup port = some old)
      (hcust : old.customerID = entry.customerID)
      (hdiff : portMutableFieldsDiffer old entry = true)
      (hm : s.portMap.updatePortMapping port entry.service entry.listenAddr entry.maxStreams =
        .ok m) :
      AdminMove isIP s (.pick i port) ({ s with portMap := m }.setRequest i (.reloadPorts
        { st.takeAdd port with summary.portsUpdated := st.summary.portsUpdated + 1 }))
  | reloadUpdateMiss (i : ℕ) (st : Reload) (port : ℤ) (entry old : PortIndexEntry)
      (hpc : s.requests[i]? = some (.reloadPorts st)) (hadd : port ∈ st.adds)
      (hnew : st.newIdx.lookup port = some entry) (hold : st.oldIdx.lookup port = some old)
      (hmiss : s.portMap.lookup port = none) :
      AdminMove isIP s (.pick i port) (s.setRequest i (.reloadPorts (st.takeAdd port)))
  | reloadSame (i : ℕ) (st : Reload) (port : ℤ) (entry old : PortIndexEntry)
      (hpc : s.requests[i]? = some (.reloadPorts st)) (hadd : port ∈ st.adds)
      (hnew : st.newIdx.lookup port = some entry) (hold : st.oldIdx.lookup port = some old)
      (hcust : old.customerID = entry.customerID)
      (hdiff : portMutableFieldsDiffer old entry = false) :
      AdminMove isIP s (.pick i port) (s.setRequest i (.reloadPorts (st.takeAdd port)))
  | reloadBind (i : ℕ) (st : Reload) (port : ℤ) (entry : PortIndexEntry) (b : Bind)
      (hpc : s.requests[i]? = some (.reloadWait st port entry)) :
      AdminMove isIP s (.bind i b) (s.started i port (bindAddr entry.listenAddr port) b
        (.reloadPorts { st with summary.portsAdded := st.summary.portsAdded + 1 })
        fun _ => .reloadRollback st port entry)
  | reloadRollback (i : ℕ) (st : Reload) (port : ℤ) (entry : PortIndexEntry)
      (hpc : s.requests[i]? = some (.reloadRollback st port entry)) :
      AdminMove isIP s (.run i) ({ s with
        portMap := s.rollback entry.customerID port }.setRequest i (.reloadPorts st))
  | reloadRemove (i : ℕ) (st : Reload) (port : ℤ) (old : PortIndexEntry) (m : PortMap)
      (hpc : s.requests[i]? = some (.reloadPorts st)) (hadds : st.adds = [])
      (hrem : port ∈ st.removes) (hold : st.oldIdx.lookup port = some old)
      (hm : s.portMap.removePortMapping old.customerID port = .ok m) :
      AdminMove isIP s (.pick i port)
        ({ s with portMap := m }.setRequest i (.reloadStop (st.takeRemove port) port))
  | reloadRemoveMiss (i : ℕ) (st : Reload) (port : ℤ) (old : PortIndexEntry) (e : RouterError)
      (hpc : s.requests[i]? = some (.reloadPorts st)) (hadds : st.adds = [])
      (hrem : port ∈ st.removes) (hold : st.oldIdx.lookup port = some old)
      (hm : s.portMap.removePortMapping old.customerID port = .error e) :
      AdminMove isIP s (.pick i port) (s.setRequest i (.reloadPorts (st.takeRemove port)))
  | reloadStop (i : ℕ) (st : Reload) (port : ℤ)
      (hpc : s.requests[i]? = some (.reloadStop st port)) :
      AdminMove isIP s (.run i) ((s.stopPort port).setRequest i (.reloadPorts
        { st with summary.portsRemoved := st.summary.portsRemoved + 1 }))
  | reloadLimits (i : ℕ) (st : Reload) (hpc : s.requests[i]? = some (.reloadPorts st))
      (hadds : st.adds = []) (hremoves : st.removes = []) :
      AdminMove isIP s (.run i)
        ((s.applyRateLimitChanges st.oldCfg (some st.newCfg)).1.setRequest i (.reloadCommit { st with
          summary.rateLimitsChanged := (s.applyRateLimitChanges st.oldCfg (some st.newCfg)).2
          summary.restartRequired := diffRestartRequired st.oldCfg (some st.newCfg) }))
  | reloadCommit (i : ℕ) (st : Reload) (hpc : s.requests[i]? = some (.reloadCommit st)) :
      AdminMove isIP s (.run i)
        ({ s with currentCfg := some st.newCfg }.setRequest i (.snapshot (.summary st.summary)))
  -- the sidecar and the answer
  | snapshot (i : ℕ) (r : Response) (hpc : s.requests[i]? = some (.snapshot r))
      (hstore : s.store = true) :
      AdminMove isIP s (.run i) (s.setRequest i (.save r s.portMap.listPorts))
  | answer (i : ℕ) (r : Response) (hpc : s.requests[i]? = some (.snapshot r))
      (hstore : s.store = false) : AdminMove isIP s (.run i) (s.finish i r)
  | save (i : ℕ) (r : Response) (ports : List PortInfo) (written : Bool) (file : SidecarFile)
      (hpc : s.requests[i]? = some (.save r ports))
      (hfile : file = if written then .data sidecarVersion (ports.map Admin.PortInfo.sidecarPort)
        else s.sidecar) :
      AdminMove isIP s (.save i written) ({ s with sidecar := file }.finish i r)
  -- listeners that nobody waits for
  | listen (port : ℤ) (addr : String) (h : (port, addr) ∈ s.starting) :
      AdminMove isIP s (.listen port addr true)
        ({ s with starting := s.starting.erase (port, addr) }.bindPort port addr)
  | listenFail (port : ℤ) (addr : String) (h : (port, addr) ∈ s.starting) :
      AdminMove isIP s (.listen port addr false)
        { s with starting := s.starting.erase (port, addr) }

variable {isIP : String → Bool} {s s' : Admin} {i : ℕ}

/-- What a section of a request does. -/
theorem runRequest_move {pc : RequestPc} (hpc : s.requests[i]? = some pc)
    (h : s.runRequest i pc = some s') : AdminMove isIP s (.run i) s' := by
  cases pc with
  | createAdd req =>
    cases h
    exact .createAdd i req hpc
  | createRollback req err =>
    cases h
    exact .createRollback i req err hpc
  | updateGet port req =>
    simp only [Admin.runRequest] at h
    split at h <;> cases h
    · exact .miss i _ _ _ hpc (.inl ⟨port, req, rfl⟩)
    · next existing hget => exact .updateGet i port req existing hpc hget
  | updateApply port existing req =>
    simp only [Admin.runRequest] at h
    split at h <;> cases h
    · exact .miss i _ _ _ hpc (.inr (.inl ⟨port, existing, req, rfl⟩))
    · next m hm => exact .updateApply i port existing req m hpc hm
  | deleteLookup port =>
    simp only [Admin.runRequest] at h
    split at h <;> cases h
    · exact .miss i _ _ _ hpc (.inr (.inr (.inl ⟨port, rfl⟩)))
    · next customerID service hget => exact .deleteLookup i port customerID service hpc hget
  | deleteRemove port customerID =>
    simp only [Admin.runRequest] at h
    split at h <;> cases h
    · exact .miss i _ _ _ hpc (.inr (.inr (.inr ⟨port, customerID, rfl⟩)))
    · next m hm => exact .deleteRemove i port customerID m hpc hm
  | deleteStop port =>
    cases h
    exact .deleteStop i port hpc
  | reloadLock =>
    simp only [Admin.runRequest] at h
    split at h <;> cases h
    next hfree => exact .reloadLock i hpc (by simpa using hfree)
  | reloadPorts st =>
    simp only [Admin.runRequest] at h
    split at h <;> cases h
    next hdone => exact .reloadLimits i st hpc hdone.1 hdone.2
  | reloadRollback st port entry =>
    cases h
    exact .reloadRollback i st port entry hpc
  | reloadStop st port =>
    cases h
    exact .reloadStop i st port hpc
  | reloadCommit st =>
    cases h
    exact .reloadCommit i st hpc
  | snapshot r =>
    simp only [Admin.runRequest] at h
    split at h <;> cases h
    · next hstore => exact .snapshot i r hpc hstore
    · next hstore => exact .answer i r hpc (by simpa using hstore)
  | createWait | reloadLoad | reloadWait | save | done => cases h

theorem reloadPort_move {st : Reload} {port : ℤ} {entry : PortIndexEntry}
    (hpc : s.requests[i]? = some (.reloadPorts st)) (hadd : port ∈ st.adds)
    (hnew : st.newIdx.lookup port = some entry) :
    AdminMove isIP s (.pick i port) (s.reloadPort i (st.takeAdd port) port entry) := by
  unfold Admin.reloadPort
  split
  · next hold => exact .reloadAdd i st port entry hpc hadd hnew hold
  · next old hold =>
    split
    · next hcust => exact .reloadReject i st port entry old hpc hadd hnew hold hcust
    · next hcust =>
      have hcust' : old.customerID = entry.customerID := not_not.mp hcust
      split
      · next hdiff =>
        split
        · next hm =>
          refine .reloadUpdateMiss i st port entry old hpc hadd hnew hold ?_
          unfold PortMap.updatePortMapping at hm
          split at hm <;> cases hm
          assumption
        · next m hm => exact .reloadUpdate i st port entry old m hpc hadd hnew hold hcust' hdiff hm
      · next hdiff =>
        exact .reloadSame i st port entry old hpc hadd hnew hold hcust' (by simpa using hdiff)

theorem reloadRemove_move {st : Reload} {port : ℤ} {old : PortIndexEntry}
    (hpc : s.requests[i]? = some (.reloadPorts st)) (hadds : st.adds = []) (hrem : port ∈ st.removes)
    (hold : st.oldIdx.lookup port = some old) :
    AdminMove isIP s (.pick i port) (s.reloadRemove i (st.takeRemove port) port old) := by
  unfold Admin.reloadRemove
  split
  · next e hm => exact .reloadRemoveMiss i st port old e hpc hadds hrem hold hm
  · next m hm => exact .reloadRemove i st port old m hpc hadds hrem hold hm

theorem reloadLoad_move {file : Except String RelayConfig}
    (hpc : s.requests[i]? = some .reloadLoad) :
    AdminMove isIP s (.load i file) (s.reloadLoad i file) := by
  unfold Admin.reloadLoad
  split
  · exact .reloadInvalid i file _ hpc
  · next cfg hload =>
    split
    · exact .reloadInvalid i file _ hpc
    · next idx hidx => exact .reloadStart i file cfg idx hpc hload hidx

/-- What a step of the admin server does. -/
theorem admin_move {a : AdminAction} (h : s.step isIP a = some s') : AdminMove isIP s a s' := by
  cases a with
  | post body =>
    simp only [Admin.step] at h
    split at h
    · cases h
      exact .malformed _ _ (.inl ⟨_, rfl⟩)
    · next req =>
      split at h <;> cases h
      · next r hr =>
        obtain ⟨text, rfl⟩ : ∃ text, r = .error 400 text := by
          unfold PortCreateRequest.check at hr
          repeat' split at hr
          all_goals cases hr
          all_goals exact ⟨_, rfl⟩
        exact .malformed _ _ (.inl ⟨_, rfl⟩)
      · next hreq => exact .post req hreq
  | put port body =>
    simp only [Admin.step] at h
    split at h
    · cases h
      exact .malformed _ _ (.inr ⟨_, _, rfl⟩)
    · next req =>
      split at h <;> cases h
      · next r hr =>
        obtain ⟨text, rfl⟩ : ∃ text, r = .error 400 text := by
          unfold PortUpdateRequest.check at hr
          repeat' split at hr
          all_goals cases hr
          all_goals exact ⟨_, rfl⟩
        exact .malformed _ _ (.inr ⟨_, _, rfl⟩)
      · next hreq => exact .put port req hreq
  | delete port =>
    cases h
    exact .delete port
  | reload =>
    cases h
    exact .reload
  | run i =>
    obtain ⟨pc, hpc, h⟩ := Option.bind_eq_some_iff.mp h
    exact runRequest_move hpc h
  | bind i b =>
    obtain ⟨pc, hpc, h⟩ := Option.bind_eq_some_iff.mp h
    unfold Admin.bindRequest at h
    split at h <;> cases h
    · next req => exact .createBind i req b hpc
    · next st port entry => exact .reloadBind i st port entry b hpc
  | load i file =>
    simp only [Admin.step] at h
    split at h <;> cases h
    next hpc => exact reloadLoad_move hpc
  | pick i port =>
    simp only [Admin.step] at h
    split at h
    · next st hpc =>
      unfold Admin.pick at h
      split at h
      · next hadd =>
        obtain ⟨entry, hnew, rfl⟩ := Option.map_eq_some_iff.mp h
        exact reloadPort_move hpc hadd hnew
      · split at h
        · next hrem =>
          obtain ⟨old, hold, rfl⟩ := Option.map_eq_some_iff.mp h
          exact reloadRemove_move hpc hrem.1 hrem.2 hold
        · cases h
    · cases h
  | save i written =>
    simp only [Admin.step] at h
    split at h <;> cases h
    next r ports hpc =>
    cases written
    · exact .save i r ports false s.sidecar hpc rfl
    · exact .save i r ports true _ hpc rfl
  | listen port addr bound =>
    simp only [Admin.step] at h
    split at h <;> cases h
    next hmem =>
    cases bound
    · exact .listenFail port addr hmem
    · exact .listen port addr hmem

end Atlax.Analysis
