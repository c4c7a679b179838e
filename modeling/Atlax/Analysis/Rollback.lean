import Atlax.Analysis.Tenancy

/-!
# Ports whose listener is refused

A new port is mapped first and its listener is started after; a listener that is refused takes the
mapping back by deleting it. On a port that was not mapped before this restores what was there, for
a POST as for a port that a reload adds. `AddPortMapping` overwrites, though, and nobody looks at
what was there: on a mapped port, whose own listener is what makes the bind fail, the deletion takes
the earlier mapping with it.
-/

set_option autoImplicit false

namespace Atlax.Analysis

open Atlax.Model Atlax.Library

/-- Only request `i` goes on. -/
def Alone (i : ℕ) (_ : Admin) : AdminAction → Prop
  | .run j | .bind j _ | .load j _ | .pick j _ | .save j _ => j = i
  | _ => False

instance (i : ℕ) (s : Admin) (a : AdminAction) : Decidable (Alone i s a) := by
  unfold Alone
  induction a <;> infer_instance

/-- The listener table with its sockets and the sidecar file are the same. -/
structure SameListeners (s₀ s : Admin) : Prop where
  listeners : s.listeners = s₀.listeners
  sockets : s.sockets = s₀.sockets
  sidecar : s.sidecar = s₀.sidecar

/-- The map with the mapping of a request written over it. -/
def mappedOver (m : PortMap) (req : PortCreateRequest) : PortMap :=
  m.addPortMapping req.customerID req.port req.service (defaultAddr req.listenAddr) req.maxStreams

/-- What holds of a POST that began in `s₀` and stands at `pc`, with nothing else going on. Only a
409 has written to the map. -/
def PostStage (s₀ : Admin) (body : Option PortCreateRequest) (s : Admin) : RequestPc → Prop
  | .createAdd req => body = some req ∧ s.portMap = s₀.portMap ∧ SameListeners s₀ s
  | .createWait req | .createRollback req _ =>
    body = some req ∧ s.portMap = mappedOver s₀.portMap req ∧ SameListeners s₀ s
  | .snapshot r | .save r _ => ∃ info, r = .port 201 info
  | .done r => (∃ info, r = .port 201 info) ∨ (SameListeners s₀ s ∧
      (s.portMap = s₀.portMap ∧ (∀ text, r ≠ .error 409 text) ∨
        ∃ req text, body = some req ∧ r = .error 409 text ∧
          s.portMap = s₀.portMap.erase req.port))
  | _ => False

variable {isIP : String → Bool} {s₀ s s' : Admin} {a : AdminAction} {i : ℕ}
  {body : Option PortCreateRequest}

/-- Deleting the mapping that was just written leaves the port without one. -/
theorem rollback_added {m : PortMap} {customerID service listenAddr : String} {port maxStreams : ℤ}
    (h : s.portMap = m.addPortMapping customerID port service listenAddr maxStreams) :
    s.rollback customerID port = m.erase port := by
  have hlook : s.portMap.lookup port = some ⟨customerID, service, maxStreams, listenAddr⟩ := by
    rw [h, PortMap.lookup_add, if_pos rfl]
  have hremove : s.portMap.removePortMapping customerID port = .ok (s.portMap.erase port) := by
    simp only [PortMap.removePortMapping, hlook, ne_eq, not_true_eq_false, if_false]
  have herase : s.portMap.erase port = m.erase port := by
    rw [h]
    apply AList.ext
    exact List.kerase_cons_eq rfl
  unfold Admin.rollback
  rw [hremove, herase]

/-- The deletion of a port changes nothing exactly if the port was not mapped. -/
theorem erase_eq_self_iff {m : PortMap} {port : ℤ} : m.erase port = m ↔ m.lookup port = none := by
  constructor
  · intro h
    rw [← h, AList.lookup_erase]
  · intro h
    apply AList.ext
    exact List.kerase_of_notMem_keys (AList.lookup_eq_none.mp h)

/-- A POST keeps to its stages.
SOURCE: admin.go:394-481 -/
theorem postStage_move (h : ∃ pc, s.requests[i]? = some pc ∧ PostStage s₀ body s pc)
    (hok : Alone i s a) (hm : AdminMove isIP s a s') :
    ∃ pc, s'.requests[i]? = some pc ∧ PostStage s₀ body s' pc := by
  obtain ⟨pc, hi, hstage⟩ := h
  have at_stage {j : ℕ} {pc₁ : RequestPc} (hj : j = i) (hpc : s.requests[j]? = some pc₁) :
      PostStage s₀ body s pc₁ := by
    subst hj
    rw [hi] at hpc
    cases hpc
    exact hstage
  have goes {pc' : RequestPc} (hreq : s'.requests = s.requests.set i pc')
      (hstage' : PostStage s₀ body s' pc') :
      ∃ pc, s'.requests[i]? = some pc ∧ PostStage s₀ body s' pc := by
    refine ⟨pc', ?_, hstage'⟩
    rw [hreq, List.getElem?_set_self (List.getElem?_eq_some_iff.mp hi).1]
  cases hm with
  | malformed a text ha => obtain ⟨_, rfl⟩ | ⟨_, _, rfl⟩ := ha <;> exact hok.elim
  | post | put | delete | reload | listen | listenFail => exact hok.elim
  | createAdd j req hpc =>
    obtain rfl := hok
    obtain ⟨hbody, hmap, hsame⟩ := at_stage rfl hpc
    refine goes rfl ⟨hbody, ?_, ⟨hsame.listeners, hsame.sockets, hsame.sidecar⟩⟩
    rw [portMap_setRequest, hmap]
    rfl
  | createBind j req b hpc =>
    obtain rfl := hok
    obtain ⟨hbody, hmap, hsame⟩ := at_stage rfl hpc
    cases b with
    | bound => exact goes rfl ⟨_, rfl⟩
    | slow => exact goes rfl ⟨_, rfl⟩
    | refused err =>
      exact goes rfl ⟨hbody, hmap, hsame.listeners, hsame.sockets, hsame.sidecar⟩
  | createRollback j req err hpc =>
    obtain rfl := hok
    obtain ⟨hbody, hmap, hsame⟩ := at_stage rfl hpc
    refine goes rfl (.inr ⟨⟨hsame.listeners, hsame.sockets, hsame.sidecar⟩, .inr ?_⟩)
    exact ⟨req, _, hbody, rfl, rollback_added hmap⟩
  | snapshot j r hpc =>
    obtain rfl := hok
    exact goes rfl (at_stage rfl hpc)
  | answer j r hpc =>
    obtain rfl := hok
    exact goes (requests_finish s j r) (.inl (at_stage rfl hpc))
  | save j r ports written file hpc hfile =>
    obtain rfl := hok
    exact goes (requests_finish _ j r) (.inl (at_stage rfl hpc))
  | miss j pc₁ status text hpc hkind =>
    obtain ⟨_, _, rfl⟩ | ⟨_, _, _, rfl⟩ | ⟨_, rfl⟩ | ⟨_, _, rfl⟩ := hkind <;>
      exact (at_stage hok hpc).elim
  | updateGet j port req existing hpc | updateApply j port existing req m hpc
  | deleteLookup j port customerID service hpc | deleteRemove j port customerID m hpc
  | deleteStop j port hpc | reloadLock j hpc | reloadInvalid j file text hpc
  | reloadStart j file cfg idx hpc | reloadAdd j st port entry hpc
  | reloadReject j st port entry old hpc | reloadUpdate j st port entry old m hpc
  | reloadUpdateMiss j st port entry old hpc | reloadSame j st port entry old hpc
  | reloadBind j st port entry b hpc | reloadRollback j st port entry hpc
  | reloadRemove j st port old m hpc | reloadRemoveMiss j st port old e hpc
  | reloadStop j st port hpc | reloadLimits j st hpc | reloadCommit j st hpc =>
    exact (at_stage hok hpc).elim

/-- A POST arrives. -/
theorem postStage_arrives (h : s₀.step isIP (.post body) = some s) :
    ∃ pc, s.requests[s₀.requests.length]? = some pc ∧ PostStage s₀ body s pc := by
  have same (pc : RequestPc) : SameListeners s₀ (s₀.addRequest pc) := ⟨rfl, rfl, rfl⟩
  cases admin_move h with
  | malformed a text ha =>
    exact ⟨_, List.getElem?_concat_length, .inr ⟨same _, .inl ⟨rfl, by simp⟩⟩⟩
  | post req hreq => exact ⟨_, List.getElem?_concat_length, rfl, rfl, same _⟩

/-- A reload maps a port that the old config does not have. -/
theorem reloadAdd_maps {st : Reload} {port : ℤ} (hpc : s.requests[i]? = some (.reloadPorts st))
    (hold : st.oldIdx.lookup port = none) (hm : AdminMove isIP s (.pick i port) s') :
    ∃ entry : PortIndexEntry,
      s'.portMap = s.portMap.addPortMapping entry.customerID port entry.service entry.listenAddr
        entry.maxStreams ∧ s'.requests[i]? = some (.reloadWait (st.takeAdd port) port entry) := by
  have same_reload {st' : Reload} (hpc' : s.requests[i]? = some (.reloadPorts st')) : st' = st := by
    rw [hpc] at hpc'
    cases hpc'
    rfl
  cases hm with
  | malformed _ _ ha => obtain ⟨_, h⟩ | ⟨_, _, h⟩ := ha <;> cases h
  | reloadAdd _ st' _ entry hpc' =>
    obtain rfl := same_reload hpc'
    exact ⟨entry, rfl, List.getElem?_set_self (List.getElem?_eq_some_iff.mp hpc).1⟩
  | reloadReject _ st' _ entry old hpc' _ _ hold' | reloadUpdate _ st' _ entry old m hpc' _ _ hold'
  | reloadUpdateMiss _ st' _ entry old hpc' _ _ hold' | reloadSame _ st' _ entry old hpc' _ _ hold'
  | reloadRemove _ st' _ old m hpc' _ _ hold' | reloadRemoveMiss _ st' _ old e hpc' _ _ hold' =>
    rw [same_reload hpc', hold] at hold'
    cases hold'

/-- What a listener that is refused leaves behind. A POST that is answered with anything but 201 has
changed no listener and not the sidecar, and it has left the map as it was exactly if it is no 409
on a mapped port; a port that a reload adds is left as it was exactly if it was not mapped.
SOURCE: admin.go:394-481; admin_reload.go:199-233; router_impl.go:50-63, 136-147 -/
theorem refused_port_restored (isIP : String → Bool) (s₀ : Admin) :
    (∀ body s₁ s r, s₀.step isIP (.post body) = some s₁ →
      Reach (fun s => s.step isIP) (Alone s₀.requests.length) s₁ s →
      s.requests[s₀.requests.length]? = some (.done r) → (∀ info, r ≠ .port 201 info) →
      SameListeners s₀ s ∧ (s.portMap = s₀.portMap ↔
        ∀ text, r = .error 409 text → ∀ req ∈ body, s₀.portMap.lookup req.port = none)) ∧
    ∀ i st port err s, s₀.requests[i]? = some (.reloadPorts st) → st.oldIdx.lookup port = none →
      exec (fun s => s.step isIP) s₀ [.pick i port, .bind i (.refused err), .run i] = some s →
      (s.portMap = s₀.portMap ↔ s₀.portMap.lookup port = none) := by
  constructor
  · intro body s₁ s r harrive hrun hdone hne
    obtain ⟨pc, hpc, hstage⟩ := hrun.invariant
      (fun s => ∃ pc, s.requests[s₀.requests.length]? = some pc ∧ PostStage s₀ body s pc)
      (postStage_arrives harrive) fun _ _ _ _ h hok hstep =>
        postStage_move h hok (admin_move hstep)
    rw [hdone] at hpc
    cases hpc
    obtain ⟨info, rfl⟩ | ⟨hsame, ⟨hmap, hother⟩ | ⟨req, text, rfl, rfl, hmap⟩⟩ := hstage
    · exact absurd rfl (hne info)
    · exact ⟨hsame, fun _ text htext => absurd htext (hother text), fun _ => hmap⟩
    · refine ⟨hsame, ?_⟩
      rw [hmap, erase_eq_self_iff]
      simp
  · intro i st port err s hpc hold hexec
    simp only [exec, List.foldlM_cons, List.foldlM_nil, Option.bind_eq_bind,
      Option.bind_eq_some_iff, Option.pure_def, Option.some.injEq, exists_eq_right] at hexec
    obtain ⟨s₁, hpick, s₂, hbind, hrun⟩ := hexec
    obtain ⟨entry, hadded, hwait⟩ := reloadAdd_maps hpc hold (admin_move hpick)
    have hlt := (List.getElem?_eq_some_iff.mp hwait).1
    simp only [Admin.step, hwait, Option.bind_some, Admin.bindRequest, Admin.started,
      Option.some.injEq] at hbind
    subst hbind
    simp only [Admin.step, requests_setRequest, List.getElem?_set_self hlt, Option.bind_some,
      Admin.runRequest, Option.some.injEq] at hrun
    subst hrun
    show (s₁.setRequest i _).rollback entry.customerID port = s₀.portMap ↔ _
    rw [rollback_added (by rw [portMap_setRequest, hadded]), erase_eq_self_iff]

/-- A request that arrives and runs on its own, by evaluation. -/
theorem exists_alone_of_exec (isIP : String → Bool) (s₀ : Admin) (a : AdminAction) (i : ℕ)
    (as : List AdminAction) (P : Admin → Prop) [DecidablePred P]
    (h : (s₀.step isIP a).any (fun s₁ =>
      (exec (guarded (fun s => s.step isIP) (Alone i)) s₁ as).any fun s => decide (P s)) = true) :
    ∃ s₁ s, s₀.step isIP a = some s₁ ∧ Reach (fun s => s.step isIP) (Alone i) s₁ s ∧ P s := by
  obtain ⟨s₁, hs₁, hrun⟩ := (Option.any_eq_true _ _).mp h
  obtain ⟨s, hs, hP⟩ := exists_reach_of_exec as P hrun
  exact ⟨s₁, s, hs₁, hs, hP⟩

/-- Port 8082 is "globex"'s, with its listener open. -/
def globexPort (requests : List RequestPc) : Admin where
  portMap := AList.singleton 8082 ⟨"globex", "http", 0, "0.0.0.0"⟩
  listeners := AList.singleton 8082 0
  sockets := [⟨0, 8082, "0.0.0.0:8082"⟩]
  nextSocket := 1
  requests := requests

/-- The listener of another port is refused, once in a POST and once in a reload. -/
theorem refused_port_restored_other :
    (∃ s₁ s, (globexPort []).step (fun _ => true) (postPort 80 "globex") = some s₁ ∧
      Reach (fun s => s.step fun _ => true) (Alone 0) s₁ s ∧
      s.requests = [.done (.error 409
        "listen 0.0.0.0:80: relay: client listener: port 80: permission denied")] ∧
      s.portMap = (globexPort []).portMap ∧ SameListeners (globexPort []) s) ∧
    ∃ s, exec (fun s => s.step fun _ => true)
        (globexPort [.reloadPorts (.start none (twoCustomers [80] []))])
        [.pick 0 80, .bind 0 (.refused "permission denied"), .run 0] = some s ∧
      s.portMap = (globexPort [.reloadPorts (.start none (twoCustomers [80] []))]).portMap := by
  constructor
  · obtain ⟨s₁, s, harrive, hrun, hdone⟩ := exists_alone_of_exec (fun _ => true) (globexPort [])
      (postPort 80 "globex") 0 [.run 0, .bind 0 (.refused "permission denied"), .run 0]
      (fun s => s.requests = [.done (.error 409
        "listen 0.0.0.0:80: relay: client listener: port 80: permission denied")])
      (by decide)
    refine ⟨s₁, s, harrive, hrun, hdone, ?_⟩
    obtain ⟨hsame, hmap⟩ :=
      (refused_port_restored _ _).1 _ s₁ s _ harrive hrun (by rw [hdone]; rfl) (by simp)
    refine ⟨hmap.mpr fun _ _ req hreq => ?_, hsame⟩
    cases hreq
    rfl
  · obtain ⟨s, hs⟩ : ∃ s, exec (fun s => s.step fun _ => true)
        (globexPort [.reloadPorts (.start none (twoCustomers [80] []))])
        [.pick 0 80, .bind 0 (.refused "permission denied"), .run 0] = some s :=
      Option.isSome_iff_exists.mp (by decide)
    exact ⟨s, hs, ((refused_port_restored _ _).2 0 _ 80 _ s rfl rfl hs).mpr rfl⟩

/-- The listener of the port itself is what makes the bind fail: the mapping of "globex" is gone,
and its listener is still open. -/
theorem refused_port_lost :
    (∃ s₁ s, (globexPort []).step (fun _ => true) (postPort 8082 "acme") = some s₁ ∧
      Reach (fun s => s.step fun _ => true) (Alone 0) s₁ s ∧
      s.requests = [.done (.error 409
        "listen 0.0.0.0:8082: relay: client listener: port 8082: address already in use")] ∧
      (globexPort []).portMap.customer 8082 = some "globex" ∧ s.portMap.lookup 8082 = none ∧
      s.listeners.lookup 8082 = some 0) ∧
    ∃ s, exec (fun s => s.step fun _ => true)
        (globexPort [.reloadPorts (.start (some (twoCustomers [] [])) (twoCustomers [8082] []))])
        [.pick 0 8082, .bind 0 (.refused "address already in use"), .run 0] = some s ∧
      (globexPort []).portMap.customer 8082 = some "globex" ∧ s.portMap.lookup 8082 = none ∧
      s.listeners.lookup 8082 = some 0 := by
  constructor
  · exact exists_alone_of_exec _ _ _ 0 [.run 0, .bind 0 (.refused "address already in use"), .run 0]
      _ (by decide)
  · exact exists_some_of_any _ (by decide)

end Atlax.Analysis
