import Atlax.Library.Serial
import Atlax.Analysis.Rollback

/-!
# Requests for ports side by side

A POST takes effect when it writes its mapping and a DELETE when it removes one, each in one section
of the router's lock. A PUT reads the mapping in one section, fills in what the request leaves out,
and replaces the mapping in another. The ports for which what it carries over has not changed in
between are mapped at every moment as the requests give that have taken effect, served one at a
time.

Otherwise the PUT writes old fields back: over those of another PUT, or into a mapping that was made
for another customer after its own was deleted.
-/

set_option autoImplicit false

namespace Atlax.Analysis

open Atlax.Model Atlax.Library

/-- The answer is not an error. -/
def accepted : Response → Bool
  | .error _ _ => false
  | _ => true

/-- The request has written the port map. -/
def tookEffect : RequestPc → Bool
  | .createWait _ | .deleteStop _ | .snapshot _ | .save _ _ => true
  | .done r => accepted r
  | _ => false

def arrives : AdminAction → Bool
  | .post _ | .put _ _ | .delete _ | .reload => true
  | _ => false

/-- The requests of a run from no requests at all, each with where it stands in the end. -/
def tasks (as : List AdminAction) (s : Admin) : List (AdminAction × RequestPc) :=
  (as.filter arrives).zip s.requests

/-- The requests of a run that were answered without an error. -/
def acceptedRequests (as : List AdminAction) (s : Admin) : List AdminAction :=
  effective (fun pc => match pc with | .done r => accepted r | _ => false) (tasks as s)

/-- There is no reload, no listener is refused, and a PUT of one of the ports writes what it would
write if it read the mapping again. -/
def WritesCurrent (ports : ℤ → Bool) (s : Admin) : AdminAction → Prop
  | .reload => False
  | .bind _ (.refused _) => False
  | .run i =>
    match s.requests[i]? with
    | some (.updateApply port existing req) => ports port = true → ∀ e ∈ s.portMap.lookup port,
      mergePortUpdate (e.info port) req = mergePortUpdate existing req
    | _ => True
  | _ => True

instance (ports : ℤ → Bool) (s : Admin) (a : AdminAction) :
    Decidable (WritesCurrent ports s a) := by
  unfold WritesCurrent
  induction a with
  | bind i b => induction b <;> infer_instance
  | run i =>
    dsimp only
    match s.requests[i]? with
    | none => infer_instance
    | some pc => induction pc <;> infer_instance
  | _ => infer_instance

/-- Request `a` arrives in `s`, runs on its own to its end and is accepted. -/
def ServesAlone (isIP : String → Bool) (s : Admin) (a : AdminAction) (s' : Admin) : Prop :=
  ∃ s₁ r, s.step isIP a = some s₁ ∧
    Reach (fun s => s.step isIP) (Alone s.requests.length) s₁ s' ∧
    s'.requests[s.requests.length]? = some (.done r) ∧ accepted r = true

/-- The same mapped ports, and the same mappings of `ports`. -/
def SameMap (ports : ℤ → Bool) (s s' : Admin) : Prop :=
  ∀ p, (ports p = true → s.portMap.lookup p = s'.portMap.lookup p) ∧
    (s.portMap.lookup p).isSome = (s'.portMap.lookup p).isSome

variable {isIP : String → Bool} {ports : ℤ → Bool} {s₀ s s' : Admin} {a : AdminAction} {i : ℕ}
    {pc pc' : RequestPc}

/-! ## Requests served on their own -/

/-- Request `i` has run on its own from `s₁` to `s`, where it stands at `pc`. -/
def StandsAt (isIP : String → Bool) (s₁ : Admin) (i : ℕ) (s : Admin) (pc : RequestPc) : Prop :=
  Reach (fun s => s.step isIP) (Alone i) s₁ s ∧ s.requests[i]? = some pc

variable {s₁ : Admin}

/-- A section takes the request to its next place. -/
theorem StandsAt.run (h : StandsAt isIP s₁ i s pc) (hrun : s.runRequest i pc = some s')
    (hreq : s'.requests = s.requests.set i pc') : StandsAt isIP s₁ i s' pc' := by
  obtain ⟨hreach, hpc⟩ := h
  refine ⟨.tail hreach (a := .run i) rfl ?_, ?_⟩
  · simp only [Admin.step, hpc, Option.bind_some, hrun]
  · rw [hreq, List.getElem?_set_self (List.getElem?_eq_some_iff.mp hpc).1]

/-- The listener comes up. -/
theorem StandsAt.bound (h : StandsAt isIP s₁ i s pc) (hbind : s.bindRequest i .bound pc = some s')
    (hreq : s'.requests = s.requests.set i pc') : StandsAt isIP s₁ i s' pc' := by
  obtain ⟨hreach, hpc⟩ := h
  refine ⟨.tail hreach (a := .bind i .bound) rfl ?_, ?_⟩
  · simp only [Admin.step, hpc, Option.bind_some, hbind]
  · rw [hreq, List.getElem?_set_self (List.getElem?_eq_some_iff.mp hpc).1]

/-- A request that only has to answer does so. -/
theorem StandsAt.answers {r : Response} (h : StandsAt isIP s₁ i s (.snapshot r)) :
    ∃ s', StandsAt isIP s₁ i s' (.done r) ∧ s'.portMap = s.portMap := by
  cases hstore : s.store with
  | false =>
    refine ⟨s.finish i r, h.run ?_ (requests_finish s i r), portMap_finish s i r⟩
    simp only [Admin.runRequest, hstore, Bool.false_eq_true, if_false]
  | true =>
    -- the sidecar is written in between
    have hsave : StandsAt isIP s₁ i (s.setRequest i (.save r s.portMap.listPorts))
        (.save r s.portMap.listPorts) := by
      refine h.run ?_ rfl
      simp only [Admin.runRequest, hstore, if_true]
    obtain ⟨hreach, hpc⟩ := hsave
    refine ⟨(s.setRequest i (.save r s.portMap.listPorts)).finish i r,
      ⟨.tail hreach (a := .save i false) rfl ?_, ?_⟩, portMap_finish _ i r⟩
    · simp only [Admin.step, hpc, Bool.false_eq_true, if_false]
    · rw [requests_finish]
      exact List.getElem?_set_self (List.getElem?_eq_some_iff.mp hpc).1

/-- A request that has written its mapping has only to answer. -/
theorem serves_of_snapshot {r : Response} (harrive : s.step isIP a = some s₁)
    (h : StandsAt isIP s₁ s.requests.length s' (.snapshot r)) (hr : accepted r = true) :
    ∃ t, ServesAlone isIP s a t ∧ t.portMap = s'.portMap := by
  obtain ⟨t, ⟨hreach, hdone⟩, hmap⟩ := h.answers
  exact ⟨t, ⟨s₁, r, harrive, hreach, hdone, hr⟩, hmap⟩

theorem standsAt_arrived (isIP : String → Bool) (s : Admin) (pc : RequestPc) :
    StandsAt isIP (s.addRequest pc) s.requests.length (s.addRequest pc) pc :=
  ⟨.refl, List.getElem?_concat_length⟩

/-- SOURCE: admin.go:394-481 -/
theorem serves_post {req : PortCreateRequest} (s : Admin) (hreq : req.check isIP = .ok ()) :
    ∃ t, ServesAlone isIP s (.post (some req)) t ∧ t.portMap = mappedOver s.portMap req := by
  have harrive : s.step isIP (.post (some req)) = some (s.addRequest (.createAdd req)) := by
    simp only [Admin.step, hreq]
  have hwait := (standsAt_arrived isIP s (.createAdd req)).run rfl rfl
  exact serves_of_snapshot harrive (hwait.bound rfl rfl) rfl

/-- SOURCE: admin.go:487-578 -/
theorem serves_put {port : ℤ} {req : PortUpdateRequest} {e : PortEntry} (s : Admin)
    (hreq : req.check isIP = .ok ()) (he : s.portMap.lookup port = some e) :
    ∃ t, ServesAlone isIP s (.put port (some req)) t ∧
      t.portMap = s.portMap.addPortMapping e.customerID port
        (mergePortUpdate (e.info port) req).service
        (mergePortUpdate (e.info port) req).listenAddr
        (mergePortUpdate (e.info port) req).maxStreams := by
  have harrive :
      s.step isIP (.put port (some req)) = some (s.addRequest (.updateGet port req)) := by
    simp only [Admin.step, hreq]
  have hread : StandsAt isIP (s.addRequest (.updateGet port req)) s.requests.length
      ((s.addRequest (.updateGet port req)).setRequest s.requests.length
        (.updateApply port (e.info port) req)) (.updateApply port (e.info port) req) := by
    refine (standsAt_arrived isIP s (.updateGet port req)).run ?_ rfl
    simp only [Admin.runRequest, PortMap.getPort, portMap_addRequest, he, Option.map_some]
  have hwrite := hread.run
    (by
      simp only [Admin.runRequest, PortMap.updatePortMapping, portMap_setRequest,
        portMap_addRequest, he]
      rfl) rfl
  exact serves_of_snapshot harrive hwrite rfl

/-- SOURCE: admin.go:585-636 -/
theorem serves_delete {port : ℤ} {e : PortEntry} (s : Admin) (he : s.portMap.lookup port = some e) :
    ∃ t, ServesAlone isIP s (.delete port) t ∧
      ∀ p, t.portMap.lookup p = if p = port then none else s.portMap.lookup p := by
  have harrive : s.step isIP (.delete port) = some (s.addRequest (.deleteLookup port)) := rfl
  have hread : StandsAt isIP (s.addRequest (.deleteLookup port)) s.requests.length
      ((s.addRequest (.deleteLookup port)).setRequest s.requests.length
        (.deleteRemove port e.customerID)) (.deleteRemove port e.customerID) := by
    refine (standsAt_arrived isIP s (.deleteLookup port)).run ?_ rfl
    simp only [Admin.runRequest, PortMap.lookupPort, portMap_addRequest, he, Option.map_some]
  have hm : s.portMap.removePortMapping e.customerID port = .ok (s.portMap.erase port) := by
    simp only [PortMap.removePortMapping, he, ne_eq, not_true_eq_false, if_false]
  have hremove := hread.run
    (by
      simp only [Admin.runRequest, portMap_setRequest, portMap_addRequest, hm]
      rfl) rfl
  have hstop := hremove.run rfl (by rw [requests_setRequest, requests_stopPort])
  obtain ⟨t, ht, hmap⟩ := serves_of_snapshot harrive hstop rfl
  refine ⟨t, ht, fun p => ?_⟩
  rw [hmap, portMap_setRequest, portMap_stopPort]
  exact (PortMap.lookup_remove _ hm).2 p

/-! ## Requests side by side -/

/-- The request arrived as `a` and has come to `pc`. -/
def Belongs (isIP : String → Bool) (a : AdminAction) : RequestPc → Prop
  | .createAdd req | .createWait req => a = .post (some req) ∧ req.check isIP = .ok ()
  | .updateGet port req | .updateApply port _ req =>
    a = .put port (some req) ∧ req.check isIP = .ok ()
  | .deleteLookup port | .deleteRemove port _ | .deleteStop port => a = .delete port
  | .snapshot r | .save r _ => accepted r = true
  | .done _ => True
  | _ => False

/-- `ports` are mapped as the requests give that have taken effect, in some order. -/
structure EffectsInOrder (isIP : String → Bool) (ports : ℤ → Bool) (s₀ : Admin)
    (as : List AdminAction) (s : Admin) : Prop where
  length : (as.filter arrives).length = s.requests.length
  belongs : ∀ t ∈ tasks as s, Belongs isIP t.1 t.2
  serialized : Serialized (ServesAlone isIP) (SameMap ports) tookEffect s₀ (tasks as s) s

variable {as : List AdminAction}

/-- The task of a request. -/
theorem EffectsInOrder.task (h : EffectsInOrder isIP ports s₀ as s)
    (hpc : s.requests[i]? = some pc) :
    ∃ b, (tasks as s)[i]? = some (b, pc) ∧ Belongs isIP b pc := by
  have hlt : i < (as.filter arrives).length := by
    rw [h.length]
    exact (List.getElem?_eq_some_iff.mp hpc).1
  have hget : (tasks as s)[i]? = some ((as.filter arrives)[i], pc) := by
    rw [tasks, List.getElem?_zip_eq_some]
    exact ⟨List.getElem?_eq_getElem hlt, hpc⟩
  exact ⟨_, hget, h.belongs _ (List.mem_of_getElem? hget)⟩

/-- A request arrives. -/
theorem EffectsInOrder.arrive (h : EffectsInOrder isIP ports s₀ as s) (ha : arrives a = true)
    (hb : Belongs isIP a pc) (htook : tookEffect pc = false := by rfl) :
    EffectsInOrder isIP ports s₀ (as ++ [a]) (s.addRequest pc) := by
  have hfilter : (as ++ [a]).filter arrives = as.filter arrives ++ [a] := by
    simp [List.filter_append, ha]
  have htasks : tasks (as ++ [a]) (s.addRequest pc) = tasks as s ++ [(a, pc)] := by
    rw [tasks, hfilter]
    exact List.zip_append h.length
  refine ⟨?_, ?_, ?_⟩
  · rw [hfilter, Admin.addRequest, List.length_append, List.length_append, h.length]
    rfl
  · rw [htasks]
    intro t ht
    obtain ht | ht := List.mem_append.mp ht
    · exact h.belongs t ht
    · rw [List.mem_singleton.mp ht]
      exact hb
  · rw [htasks]
    exact h.serialized.arrive htook fun t ht => ht

/-- A request moves. -/
theorem EffectsInOrder.tasks_set (h : EffectsInOrder isIP ports s₀ as s)
    (hpc : s.requests[i]? = some pc)
    (ha : arrives a = false) (hreq : s'.requests = s.requests.set i pc')
    (hb : ∀ b, Belongs isIP b pc → Belongs isIP b pc')
    (hs : ∀ b, (tasks as s)[i]? = some (b, pc) → Belongs isIP b pc →
      Serialized (ServesAlone isIP) (SameMap ports) tookEffect s₀
        ((tasks as s).set i (b, pc')) s') :
    EffectsInOrder isIP ports s₀ (as ++ [a]) s' := by
  obtain ⟨b, hi, hbpc⟩ := h.task hpc
  have hfilter : (as ++ [a]).filter arrives = as.filter arrives := by
    simp [List.filter_append, ha]
  have htasks : tasks (as ++ [a]) s' = (tasks as s).set i (b, pc') := by
    rw [tasks, hfilter, hreq]
    exact zip_set hi pc'
  refine ⟨?_, ?_, ?_⟩
  · rw [hfilter, h.length, hreq, List.length_set]
  · rw [htasks]
    intro t ht
    obtain ht | rfl := List.mem_or_eq_of_mem_set ht
    · exact h.belongs t ht
    · exact hb b hbpc
  · rw [htasks]
    exact hs b hi hbpc

/-- A request goes on before or after it takes effect. -/
theorem EffectsInOrder.move (h : EffectsInOrder isIP ports s₀ as s) (hpc : s.requests[i]? = some pc)
    (ha : arrives a = false) (hreq : s'.requests = s.requests.set i pc')
    (hb : ∀ b, Belongs isIP b pc → Belongs isIP b pc') (hmap : s'.portMap = s.portMap := by rfl)
    (htook : tookEffect pc' = tookEffect pc := by rfl) :
    EffectsInOrder isIP ports s₀ (as ++ [a]) s' := by
  refine h.tasks_set hpc ha hreq hb fun b hi _ => h.serialized.move hi htook ?_
  intro t ht p
  rw [hmap]
  exact ht p

/-- A request takes effect, as if it were served here. -/
theorem EffectsInOrder.effect (h : EffectsInOrder isIP ports s₀ as s)
    (hpc : s.requests[i]? = some pc)
    (ha : arrives a = false) (hreq : s'.requests = s.requests.set i pc')
    (hb : ∀ b, Belongs isIP b pc → Belongs isIP b pc')
    (hserve : ∀ b t, Belongs isIP b pc → SameMap ports t s →
      ∃ t', ServesAlone isIP t b t' ∧ SameMap ports t' s')
    (htook : tookEffect pc = false := by rfl) (htook' : tookEffect pc' = true := by rfl) :
    EffectsInOrder isIP ports s₀ (as ++ [a]) s' :=
  h.tasks_set hpc ha hreq hb fun b hi hbpc =>
    h.serialized.effect hi htook htook' fun t ht => hserve b t hbpc ht

/-- A step that concerns no request. -/
theorem EffectsInOrder.keep (h : EffectsInOrder isIP ports s₀ as s) (ha : arrives a = false)
    (hreq : s'.requests = s.requests) (hmap : s'.portMap = s.portMap) :
    EffectsInOrder isIP ports s₀ (as ++ [a]) s' := by
  have hfilter : (as ++ [a]).filter arrives = as.filter arrives := by
    simp [List.filter_append, ha]
  have htasks : tasks (as ++ [a]) s' = tasks as s := by
    rw [tasks, hfilter, hreq]
    rfl
  refine ⟨?_, ?_, ?_⟩
  · rw [hfilter, hreq, h.length]
  · rw [htasks]
    exact h.belongs
  · rw [htasks]
    refine h.serialized.keep fun t ht p => ?_
    rw [hmap]
    exact ht p

/-- No step takes the effects out of order. -/
theorem effectsInOrder_move (h : EffectsInOrder isIP ports s₀ as s) (hok : WritesCurrent ports s a)
    (hm : AdminMove isIP s a s') : EffectsInOrder isIP ports s₀ (as ++ [a]) s' := by
  -- a request never stands where no request of this run comes
  have never {j : ℕ} {pc₁ : RequestPc} (hpc : s.requests[j]? = some pc₁)
      (hno : ∀ b, ¬ Belongs isIP b pc₁) : EffectsInOrder isIP ports s₀ (as ++ [a]) s' := by
    obtain ⟨b, -, hb⟩ := h.task hpc
    exact absurd hb (hno b)
  cases hm with
  | malformed a text ha =>
    refine h.arrive ?_ trivial
    obtain ⟨_, rfl⟩ | ⟨_, _, rfl⟩ := ha <;> rfl
  | post req hreq | put port req hreq => exact h.arrive rfl ⟨rfl, hreq⟩
  | delete port => exact h.arrive rfl rfl
  | reload => exact hok.elim
  | createAdd j req hpc =>
    refine h.effect hpc rfl rfl (fun _ hb => hb) ?_
    rintro b t ⟨rfl, hreq⟩ ht
    obtain ⟨t', hserves, hmap⟩ := serves_post t hreq
    refine ⟨t', hserves, fun p => ?_⟩
    rw [hmap, portMap_setRequest, mappedOver, PortMap.lookup_add, PortMap.lookup_add]
    split_ifs
    · exact ⟨fun _ => rfl, rfl⟩
    · exact ht p
  | createBind j req b hpc =>
    cases b with
    | refused err => exact hok.elim
    | bound | slow => exact h.move hpc rfl rfl fun _ _ => rfl
  | updateGet j port req existing hpc hget | deleteLookup j port customerID service hpc hget
  | snapshot j r hpc hstore => exact h.move hpc rfl rfl fun _ hb => hb
  | updateApply j port existing req m hpc hm =>
    obtain ⟨e, he, hlook⟩ := PortMap.lookup_update _ hm
    simp only [WritesCurrent, hpc] at hok
    refine h.effect hpc rfl rfl (fun _ _ => rfl) ?_
    rintro b t ⟨rfl, hreq⟩ ht
    obtain ⟨e', he'⟩ := Option.isSome_iff_exists.mp ((ht port).2.trans (by rw [he]; rfl))
    obtain ⟨t', hserves, hmap⟩ := serves_put t hreq he'
    refine ⟨t', hserves, fun p => ?_⟩
    rw [hmap, portMap_setRequest, PortMap.lookup_add, hlook p]
    split_ifs with hp
    · subst hp
      refine ⟨fun hport => ?_, rfl⟩
      have heq : some e' = some e := he'.symm.trans (((ht p).1 hport).trans he)
      rw [Option.some.inj heq, hok hport e he]
    · exact ht p
  | deleteRemove j port customerID m hpc hm =>
    obtain ⟨⟨e, he, -⟩, hlook⟩ := PortMap.lookup_remove _ hm
    refine h.effect hpc rfl rfl (fun _ hb => hb) ?_
    rintro b t rfl ht
    obtain ⟨e', he'⟩ := Option.isSome_iff_exists.mp ((ht port).2.trans (by rw [he]; rfl))
    obtain ⟨t', hserves, hmap⟩ := serves_delete t he'
    refine ⟨t', hserves, fun p => ?_⟩
    rw [hmap p, portMap_setRequest, hlook p]
    split_ifs
    · exact ⟨fun _ => rfl, rfl⟩
    · exact ht p
  | deleteStop j port hpc =>
    have hreq : ((s.stopPort port).setRequest j (.snapshot .noContent)).requests =
        s.requests.set j (.snapshot .noContent) := by rw [requests_setRequest, requests_stopPort]
    refine h.move hpc rfl hreq (fun _ _ => rfl) ?_
    rw [portMap_setRequest, portMap_stopPort]
  | miss j pc₁ status text hpc hkind =>
    refine h.move hpc rfl rfl (fun _ _ => trivial) rfl ?_
    obtain ⟨_, _, rfl⟩ | ⟨_, _, _, rfl⟩ | ⟨_, rfl⟩ | ⟨_, _, rfl⟩ := hkind <;> rfl
  | answer j r hpc hstore =>
    obtain ⟨b, -, hb⟩ := h.task hpc
    exact h.move hpc rfl (requests_finish s j r) (fun _ _ => trivial) (portMap_finish s j r) hb
  | save j r ports written file hpc hfile =>
    obtain ⟨b, -, hb⟩ := h.task hpc
    exact h.move hpc rfl (requests_finish _ j r) (fun _ _ => trivial) (portMap_finish _ j r) hb
  | listen port addr hmem => exact h.keep rfl rfl rfl
  | listenFail port addr hmem => exact h.keep rfl rfl rfl
  | createRollback j req err hpc | reloadLock j hpc | reloadInvalid j file text hpc
  | reloadStart j file cfg idx hpc | reloadAdd j st port entry hpc
  | reloadReject j st port entry old hpc | reloadUpdate j st port entry old m hpc
  | reloadUpdateMiss j st port entry old hpc | reloadSame j st port entry old hpc
  | reloadBind j st port entry b hpc | reloadRollback j st port entry hpc
  | reloadRemove j st port old m hpc | reloadRemoveMiss j st port old e hpc
  | reloadStop j st port hpc | reloadLimits j st hpc | reloadCommit j st hpc =>
    exact never hpc fun _ hb => hb

/-- At the start none has taken effect. -/
theorem effectsInOrder_start (hidle : s₀.requests = []) : EffectsInOrder isIP ports s₀ [] s₀ := by
  have htasks : tasks [] s₀ = [] := List.zip_nil_left
  refine ⟨by rw [hidle]; rfl, ?_, ?_⟩
  · rw [htasks]
    intro t ht
    cases ht
  · rw [htasks]
    exact .start fun _ => ⟨fun _ => rfl, rfl⟩

/-- When every request is answered, those that took effect are the accepted ones. -/
theorem effective_answered (hdone : ∀ pc ∈ s.requests, ∃ r, pc = .done r) :
    effective tookEffect (tasks as s) = acceptedRequests as s := by
  unfold acceptedRequests effective
  congr 1
  apply List.filter_congr
  intro t ht
  obtain ⟨r, hr⟩ := hdone t.2 (List.of_mem_zip ht).2
  rw [hr]
  rfl

/-- An admitted step of a run. -/
theorem ok_of_exec {bs cs : List AdminAction} {t : Admin}
    (hrun : exec (guarded (fun s => s.step isIP) (WritesCurrent ports)) s₀ (bs ++ a :: cs) = some s)
    (hbs : exec (fun s => s.step isIP) s₀ bs = some t) : WritesCurrent ports t a := by
  simp only [exec, List.foldlM_append, List.foldlM_cons, Option.bind_eq_bind,
    Option.bind_eq_some_iff, guarded, Option.ite_none_right_eq_some] at hrun
  obtain ⟨t', ht', t₁, ⟨hok, -⟩, -⟩ := hrun
  have hexec := (exec_invariant (fun _ _ => True) ht' trivial fun _ _ _ _ _ _ _ _ => trivial).1
  rw [hbs] at hexec
  cases hexec
  exact hok

/-- POSTs, PUTs and DELETEs that come from no requests at all and are all answered: `ports` are
mapped as if all the accepted ones had been served one at a time, in some order, and every PUT of
one of them has put what it sets on top of the mapping that was there when it wrote it.
SOURCE: admin.go:487-578; router_impl.go:110-133 -/
theorem updates_in_order (hidle : s₀.requests = [])
    (hrun : exec (guarded (fun s => s.step isIP) (WritesCurrent ports)) s₀ as = some s)
    (hdone : ∀ pc ∈ s.requests, ∃ r, pc = .done r) :
    (∃ order s', order.Perm (acceptedRequests as s) ∧ Serial (ServesAlone isIP) s₀ order s' ∧
      ∀ p, ports p = true → s'.portMap.lookup p = s.portMap.lookup p) ∧
    ∀ bs i cs t t' port existing req e, as = bs ++ AdminAction.run i :: cs →
      exec (fun s => s.step isIP) s₀ bs = some t → t.step isIP (.run i) = some t' →
      t.requests[i]? = some (.updateApply port existing req) → ports port = true →
      t.portMap.lookup port = some e →
      t'.portMap.lookup port = some ⟨e.customerID, (mergePortUpdate (e.info port) req).service,
        (mergePortUpdate (e.info port) req).maxStreams,
        (mergePortUpdate (e.info port) req).listenAddr⟩ := by
  constructor
  · obtain ⟨-, h⟩ := exec_invariant (EffectsInOrder isIP ports s₀) hrun (effectsInOrder_start hidle)
      fun as a s s' _ h hok hstep => effectsInOrder_move h hok (admin_move hstep)
    obtain ⟨order, s', hperm, hserial, hsame⟩ := h.serialized
    rw [effective_answered hdone] at hperm
    exact ⟨order, s', hperm, hserial, fun p => (hsame p).1⟩
  · rintro bs i cs t t' port existing req e rfl hbs hstep hpc hport he
    have hok := ok_of_exec hrun hbs
    simp only [WritesCurrent, hpc] at hok
    simp only [Admin.step, hpc, Option.bind_some, Admin.runRequest, PortMap.updatePortMapping, he,
      Option.some.injEq] at hstep
    subst hstep
    rw [hok hport e he]
    exact AList.lookup_insert _

/-- Two PUTs of 8082, a POST of 8083 and two PUTs of it. -/
def updateRequests : List AdminAction :=
  [.put 8082 (some { service := "smtp" }), .put 8082 (some { maxStreams := some 5 }),
    postPort 8083 "globex", .put 8083 (some { service := "dns" }),
    .put 8083 (some { maxStreams := some 7 })]

/-- The second PUT of 8082 reads after the first has written, those of 8083 write over each other,
and a port that is not mapped is deleted. -/
def updateRun : List AdminAction :=
  updateRequests ++ [AdminAction.delete 9000, .run 2, .bind 2 .bound, .run 2, .run 3, .run 4,
    .run 3, .run 4, .run 3, .run 4, .run 0, .run 0, .run 1, .run 1, .run 0, .run 1, .run 5]

/-- The PUTs of 8082 take effect one after the other. -/
theorem updates_in_order_two :
    ∃ s, exec (guarded (fun s => s.step fun _ => true) (WritesCurrent (· == 8082))) (globexPort [])
        updateRun = some s ∧
      s.portMap.lookup 8082 = some ⟨"globex", "smtp", 5, "0.0.0.0"⟩ ∧
      ∃ order s', order.Perm updateRequests ∧
        Serial (ServesAlone fun _ => true) (globexPort []) order s' ∧
        ∀ p, (p == 8082) = true → s'.portMap.lookup p = s.portMap.lookup p := by
  obtain ⟨s, hrun, hlook, hreq⟩ := exists_some_of_any
    (x := exec (guarded (fun s => s.step fun _ => true) (WritesCurrent (· == 8082)))
      (globexPort []) updateRun)
    (fun s => s.portMap.lookup 8082 = some ⟨"globex", "smtp", 5, "0.0.0.0"⟩ ∧
      s.requests = [.done (.port 200 ⟨8082, "globex", "smtp", 0, "0.0.0.0"⟩),
        .done (.port 200 ⟨8082, "globex", "smtp", 5, "0.0.0.0"⟩),
        .done (.port 201 ⟨8083, "globex", "http", 0, "0.0.0.0"⟩),
        .done (.port 200 ⟨8083, "globex", "dns", 0, "0.0.0.0"⟩),
        .done (.port 200 ⟨8083, "globex", "http", 7, "0.0.0.0"⟩),
        .done (.error 404 "port not found")]) (by decide)
  have hdone : ∀ pc ∈ s.requests, ∃ r, pc = .done r := by
    rw [hreq]
    simp
  obtain ⟨order, s', hperm, hserial⟩ := (updates_in_order rfl hrun hdone).1
  rw [acceptedRequests, tasks, hreq] at hperm
  exact ⟨s, hrun, hlook, order, s', hperm, hserial⟩

/-- Two PUTs that are both accepted read the mapping before either has written it, and the service
that one of them sets is lost. A PUT reads "globex"'s mapping, which is deleted; then "acme" is
given the port on the loopback interface, and the PUT gives "acme" the service and the address that
"globex" had. -/
theorem updates_lost :
    (∃ s, exec (fun s => s.step fun _ => true) (globexPort [])
        [.put 8082 (some { service := "smtp" }), .put 8082 (some { maxStreams := some 5 }),
          .run 0, .run 1, .run 0, .run 1, .run 0, .run 1] = some s ∧
      s.requests = [.done (.port 200 ⟨8082, "globex", "smtp", 0, "0.0.0.0"⟩),
        .done (.port 200 ⟨8082, "globex", "http", 5, "0.0.0.0"⟩)] ∧
      s.portMap.lookup 8082 = some ⟨"globex", "http", 5, "0.0.0.0"⟩) ∧
    ∃ s, exec (fun s => s.step fun _ => true) (globexPort [])
        [.put 8082 (some { maxStreams := some 5 }), .run 0, .delete 8082, .run 1, .run 1, .run 1,
          .run 1, .post (some ⟨8082, "acme", "ssh", 0, "127.0.0.1"⟩), .run 2, .bind 2 .bound,
          .run 2,
          .run 0, .run 0] = some s ∧
      s.requests = [.done (.port 200 ⟨8082, "globex", "http", 5, "0.0.0.0"⟩), .done .noContent,
        .done (.port 201 ⟨8082, "acme", "ssh", 0, "127.0.0.1"⟩)] ∧
      s.portMap.lookup 8082 = some ⟨"acme", "http", 5, "0.0.0.0"⟩ := by
  constructor
  · exact exists_some_of_any _ (by decide)
  · exact exists_some_of_any _ (by decide)

end Atlax.Analysis
