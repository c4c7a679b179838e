import Atlax.Analysis.Listeners
import Atlax.Library.Processes

/-!
# The sidecar follows the port map

A request changes the port map, takes a snapshot of all of it and writes the snapshot to the
sidecar. The snapshot is taken under the router's lock, the file is written under the store's, and
nothing orders one request's snapshot and write against another's. Two facts carry the result:

* a request that has changed the map and not looked at it since will look at it, so that whatever
  the sidecar misses will be written;
* while there is no such request, the map itself is waiting to be written, or is what was written.

The second one needs a snapshot that the map has left behind to be written before the newest one.
Otherwise a snapshot that was taken first can be written last, and the sidecar forgets what happened
in between.
-/

set_option autoImplicit false

namespace Atlax.Analysis

open Atlax.Model Atlax.Library

variable {isIP : String → Bool} {s s' s₀ : Admin} {a : AdminAction}

/-- The request may have changed the port map, and has not looked at it since. -/
def unrecorded : RequestPc → Bool
  | .createWait _ | .createRollback _ _ | .deleteStop _ | .reloadPorts _ | .reloadWait _ _ _
  | .reloadRollback _ _ _ | .reloadStop _ _ | .reloadCommit _ | .snapshot _ => true
  | _ => false

/-- The snapshot that the request has taken and not written. -/
def snapshotOf : RequestPc → Option (List PortInfo)
  | .save _ ports => some ports
  | _ => none

/-- The request was answered, and not with an error. -/
def succeeded : RequestPc → Bool
  | .done (.error _ _) => false
  | .done _ => true
  | _ => false

/-- A POST whose listener was refused: it takes its mapping back and writes nothing. -/
def refusedPost : RequestPc → Bool
  | .createRollback _ _ => true
  | _ => false

/-- The sidecar holds the port map. -/
def Recorded (s : Admin) : Prop :=
  s.sidecar = .data sidecarVersion (s.portMap.listPorts.map Admin.PortInfo.sidecarPort)

instance (s : Admin) : Decidable (Recorded s) := inferInstanceAs (Decidable (_ = _))

/-! ## The conditions -/

/-- Each write of the sidecar succeeds, and a POST that was refused its listener takes its mapping
back while another request has yet to look at the map. -/
def RecordsAll (s : Admin) : AdminAction → Prop
  | .save _ written => written = true
  | .run i => ∀ pc ∈ s.requests[i]?, refusedPost pc = true →
    ∃ q ∈ s.requests.eraseIdx i, unrecorded q = true
  | _ => True

instance (s : Admin) (a : AdminAction) : Decidable (RecordsAll s a) := by
  unfold RecordsAll
  induction a <;> infer_instance

/-- The map as it is now will be written: a request has yet to look at it, or has it in hand. -/
def Ahead (s : Admin) : Prop :=
  ∃ pc ∈ s.requests, unrecorded pc = true ∨ snapshotOf pc = some s.portMap.listPorts

instance (s : Admin) : Decidable (Ahead s) := inferInstanceAs (Decidable (∃ _ ∈ _, _))

/-- A snapshot that is not the map any more is written only while the map itself is still to be
written.
SOURCE: admin.go:454-467; store.go:77-124 -/
def SavesInOrder (s : Admin) : AdminAction → Prop
  | .save _ _ => Ahead s
  | _ => True

instance (s : Admin) (a : AdminAction) : Decidable (SavesInOrder s a) := by
  unfold SavesInOrder
  split <;> infer_instance

/-! ## What a step does to the map, the requests and the sidecar -/

/-- A step that moves request `i` from `pc` to `pc'`, neither of which is about to write anything,
and leaves the map and the sidecar alone. -/
structure Advances (s s' : Admin) (i : ℕ) (pc pc' : RequestPc) : Prop where
  hpc : s.requests[i]? = some pc
  requests : s'.requests = s.requests.set i pc'
  sidecar : s'.sidecar = s.sidecar
  portMap : s'.portMap = s.portMap
  looked : unrecorded pc = false
  unsaved : snapshotOf pc = none
  unanswered : succeeded pc' = false

/-- A step as far as the map, the requests and the sidecar go. -/
inductive RecordMove (s : Admin) (a : AdminAction) (s' : Admin) : Prop
  | keep (hmap : s'.portMap = s.portMap) (hreq : s'.requests = s.requests)
      (hside : s'.sidecar = s.sidecar)
  | arrive (pc : RequestPc) (hs : s' = s.addRequest pc) (hanswer : succeeded pc = false)
  | advance (i : ℕ) (pc pc' : RequestPc) (h : Advances s s' i pc pc')
  | ahead (h : Ahead s')
  | save (i : ℕ) (r : Response) (ports : List PortInfo) (ha : a = .save i true)
      (hpc : s.requests[i]? = some (.save r ports)) (hmap : s'.portMap = s.portMap)
      (hreq : s'.requests = s.requests.set i (.done r))
      (hside : s'.sidecar = .data sidecarVersion (ports.map Admin.PortInfo.sidecarPort))

theorem store_stopPort (port : ℤ) :
    (s.stopPort port).store = s.store ∧ (s.stopPort port).sidecar = s.sidecar := by
  obtain ⟨_, _, h⟩ := stopPort_eq s port
  rw [h]
  exact ⟨rfl, rfl⟩

theorem requests_stop (i : ℕ) (port : ℤ) (pc : RequestPc) :
    ((s.stopPort port).setRequest i pc).requests = s.requests.set i pc := by
  rw [requests_setRequest, requests_stopPort]

theorem store_started (i : ℕ) (port : ℤ) (addr : String) (b : Bind) (next : RequestPc)
    (rollback : String → RequestPc) :
    (s.started i port addr b next rollback).store = s.store ∧
      (s.started i port addr b next rollback).sidecar = s.sidecar := by
  cases b <;> exact ⟨rfl, rfl⟩

/-- The step writes the sidecar. -/
def saves : AdminAction → Bool
  | .save _ _ => true
  | _ => false

/-- The store stays as it was opened, and the sidecar changes only when it is written. -/
theorem store_move (hm : AdminMove isIP s a s') :
    s'.store = s.store ∧ (saves a = false → s'.sidecar = s.sidecar) := by
  cases hm with
  | createBind | reloadBind => exact ⟨(store_started ..).1, fun _ => (store_started ..).2⟩
  | deleteStop i port | reloadStop i st port =>
    exact ⟨(store_stopPort port).1, fun _ => (store_stopPort port).2⟩
  | reloadLimits i st hpc =>
    obtain ⟨limiters, hlim⟩ := applyRateLimitChanges_eq s st.oldCfg (some st.newCfg)
    rw [hlim]
    exact ⟨rfl, fun _ => rfl⟩
  | answer i r hpc =>
    obtain ⟨reloading, hfin⟩ := finish_eq s i r
    rw [hfin]
    exact ⟨rfl, fun _ => rfl⟩
  | save i r ports written file hpc =>
    obtain ⟨reloading, hfin⟩ := finish_eq { s with sidecar := file } i r
    rw [hfin]
    exact ⟨rfl, nofun⟩
  | _ => exact ⟨rfl, fun _ => rfl⟩

variable {i : ℕ} {pc pc' : RequestPc}

/-- A request that has looked at the map and holds no snapshot goes on. -/
theorem record_advance (hkeep : saves a = false → s'.sidecar = s.sidecar)
    (hpc : s.requests[i]? = some pc) (hreq : s'.requests = s.requests.set i pc')
    (hmap : s'.portMap = s.portMap := by rfl) (ha : saves a = false := by rfl)
    (hlook : unrecorded pc = false := by rfl) (hsnap : snapshotOf pc = none := by rfl)
    (hanswer : succeeded pc' = false := by rfl) : RecordMove s a s' :=
  .advance i pc pc' ⟨hpc, hreq, hkeep ha, hmap, hlook, hsnap, hanswer⟩

/-- A request that will look at the map goes on, whatever it has done to the map. -/
theorem record_ahead (hpc : s.requests[i]? = some pc) (hreq : s'.requests = s.requests.set i pc')
    (hahead : unrecorded pc' = true ∨ snapshotOf pc' = some s'.portMap.listPorts := by
      exact .inl rfl) : RecordMove s a s' :=
  .ahead ⟨pc', hreq ▸ mem_set_self hpc pc', hahead⟩

/-- What a step does to what is recorded. -/
theorem record_move (hm : AdminMove isIP s a s') (hstore : s.store = true) (hok : RecordsAll s a) :
    RecordMove s a s' := by
  have hkeep := (store_move hm).2
  cases hm with
  | malformed | post | put | delete | reload => exact .arrive _ rfl rfl
  | createBind i req b hpc | reloadBind i st port entry b hpc =>
    cases b with
    | bound | slow | refused => exact record_ahead hpc rfl
  | createRollback i req err hpc =>
    obtain ⟨q, hq, hlook⟩ := hok _ hpc rfl
    obtain ⟨j, hne, hj⟩ := List.mem_eraseIdx_iff_getElem?.mp hq
    refine .ahead ⟨q, List.mem_of_getElem? (i := j) ?_, .inl hlook⟩
    exact (List.getElem?_set_ne hne.symm).trans hj
  | updateGet i port req existing hpc | deleteLookup i port customerID service hpc
  | reloadLock i hpc | reloadInvalid i file text hpc => exact record_advance hkeep hpc rfl
  | deleteStop i port hpc | reloadStop i st port hpc =>
    exact record_ahead hpc (requests_stop i port _)
  | miss i pc status text hpc hkind =>
    rcases hkind with ⟨_, _, rfl⟩ | ⟨_, _, _, rfl⟩ | ⟨_, rfl⟩ | ⟨_, _, rfl⟩ <;>
      exact record_advance hkeep hpc rfl
  | createAdd i req hpc | updateApply i port existing req m hpc
  | deleteRemove i port customerID m hpc | reloadStart i file cfg idx hpc
  | reloadAdd i st port entry hpc | reloadReject i st port entry old hpc
  | reloadUpdate i st port entry old m hpc | reloadUpdateMiss i st port entry old hpc
  | reloadSame i st port entry old hpc | reloadRollback i st port entry hpc
  | reloadRemove i st port old m hpc | reloadRemoveMiss i st port old e hpc
  | reloadCommit i st hpc => exact record_ahead hpc rfl
  | reloadLimits i st hpc =>
    obtain ⟨limiters, hlim⟩ := applyRateLimitChanges_eq s st.oldCfg (some st.newCfg)
    rw [hlim]
    exact record_ahead hpc rfl
  | snapshot i r hpc => exact record_ahead hpc rfl (.inr rfl)
  | answer i r hpc hoff =>
    rw [hstore] at hoff
    cases hoff
  | save i r ports written file hpc hfile =>
    obtain ⟨reloading, hfin⟩ := finish_eq { s with sidecar := file } i r
    obtain rfl : written = true := hok
    rw [hfin]
    exact .save i r ports rfl hpc rfl rfl hfile
  | listen | listenFail => exact .keep rfl rfl rfl

/-! ## What is recorded -/

/-- The map will be written; or the sidecar holds it, once a request has succeeded. -/
def Recording (s : Admin) : Prop :=
  Ahead s ∨ ((∃ pc ∈ s.requests, succeeded pc = true) → Recorded s)

/-- A request that does not have the map to write moves, and the map stays. -/
theorem Ahead.set (h : Ahead s) (hpc : s.requests[i]? = some pc)
    (hreq : s'.requests = s.requests.set i pc') (hmap : s'.portMap = s.portMap)
    (hnot : unrecorded pc = false ∧ snapshotOf pc ≠ some s.portMap.listPorts) : Ahead s' := by
  obtain ⟨q, hq, hahead⟩ := h
  rcases eq_or_mem_set hq hpc pc' with rfl | hq
  · simp [hnot] at hahead
  · exact ⟨q, hreq ▸ hq, hmap ▸ hahead⟩

/-- A request goes on. -/
theorem recording_advance (hI : Recording s) (h : Advances s s' i pc pc') : Recording s' := by
  refine hI.imp (fun hahead => ?_) ?_
  · exact hahead.set h.hpc h.requests h.portMap ⟨h.looked, by simp [h.unsaved]⟩
  · rintro hrec ⟨q, hq, hqsucc⟩
    unfold Recorded
    rw [h.sidecar, h.portMap]
    rw [h.requests] at hq
    rcases List.mem_or_eq_of_mem_set hq with hq | rfl
    · exact hrec ⟨q, hq, hqsucc⟩
    · rw [h.unanswered] at hqsucc
      cases hqsucc

/-- A snapshot is written: it is the map, or the map is still to be written. -/
theorem recording_save (hahead : Ahead s) {r : Response} {ports : List PortInfo}
    (hpc : s.requests[i]? = some (.save r ports)) (hmap : s'.portMap = s.portMap)
    (hreq : s'.requests = s.requests.set i (.done r))
    (hside : s'.sidecar = .data sidecarVersion (ports.map Admin.PortInfo.sidecarPort)) :
    Recording s' := by
  by_cases hports : ports = s.portMap.listPorts
  · refine .inr fun _ => ?_
    unfold Recorded
    rw [hside, hmap, hports]
  · exact .inl (hahead.set hpc hreq hmap ⟨rfl, by simpa [snapshotOf] using hports⟩)

/-- No step loses what is to be recorded. -/
theorem recording_move (hI : Recording s) (hstore : s.store = true) (hok : RecordsAll s a)
    (horder : SavesInOrder s a) (hm : AdminMove isIP s a s') : Recording s' := by
  cases record_move hm hstore hok with
  | keep hmap hreq hside =>
    unfold Recording Ahead Recorded at hI ⊢
    rwa [hmap, hreq, hside]
  | arrive pc hs hanswer =>
    subst hs
    refine hI.imp ?_ ?_
    · exact fun ⟨q, hq, h⟩ => ⟨q, List.mem_append_left _ hq, h⟩
    · rintro hrec ⟨q, hq, hqsucc⟩
      rcases List.mem_append.mp hq with hq | hq
      · exact hrec ⟨q, hq, hqsucc⟩
      · rw [List.mem_singleton.mp hq, hanswer] at hqsucc
        cases hqsucc
  | advance i pc pc' h => exact recording_advance hI h
  | ahead h => exact .inl h
  | save i r ports ha hpc hmap hreq hside =>
    subst ha
    exact recording_save horder hpc hmap hreq hside

/-- When every request has been answered, and one of them with success, the sidecar holds the port
map: however the requests interleave, as long as each write succeeds, a refused POST takes its
mapping back while another request has yet to look at the map, and a snapshot that the map has left
behind is written only while the map itself is still to be written.
SOURCE: admin.go:454-467, 585-636; store.go:77-124; router_impl.go:93-108 -/
theorem sidecar_holds_map (hreq : s₀.requests = []) (hstore : s₀.store = true)
    (h : AdminReach isIP (fun s a => RecordsAll s a ∧ SavesInOrder s a) s₀ s)
    (hdone : ∀ pc ∈ s.requests, unfinished pc = false)
    (hsucc : ∃ pc ∈ s.requests, succeeded pc = true) : Recorded s := by
  obtain ⟨-, hI⟩ : s.store = true ∧ Recording s := by
    refine Reach.invariant (fun s => s.store = true ∧ Recording s) h
      ⟨hstore, .inr (by simp [hreq])⟩ ?_
    rintro s a s' - ⟨hstore, hI⟩ hok hstep
    have hm := admin_move hstep
    exact ⟨(store_move hm).1.trans hstore, recording_move hI hstore hok.1 hok.2 hm⟩
  have hquiet : ∀ pc, unfinished pc = false → unrecorded pc = false ∧ snapshotOf pc = none := by
    intro pc hpc
    cases pc with
    | done r => exact ⟨rfl, rfl⟩
    | _ => cases hpc
  rcases hI with ⟨pc, hpc, hahead⟩ | hrec
  · simp [hquiet pc (hdone pc hpc)] at hahead
  · exact hrec hsucc

/-- Two POSTs at once, up to the listener of each. -/
def twoPostsRun : List AdminAction :=
  [postPort 9000 "acme", postPort 9001 "globex", .run 0, .bind 0 .bound]

/-- A third POST is refused while the second has yet to look at the map, and the snapshot without
port 9001 is written while the one with it is in hand. -/
theorem sidecar_holds_map_posts :
    ∃ s₀ s, boot (fun _ => true) (.ok (twoCustomers [8080] [])) .missing = .ok s₀ ∧
      AdminReach (fun _ => true) (fun s a => RecordsAll s a ∧ SavesInOrder s a) s₀ s ∧
      s.portMap.customer 9001 = some "globex" ∧ Recorded s := by
  obtain ⟨s₀, s, hb, hr, hreq, hstore, hdone, hsucc, hmap⟩ := exists_boot_of_exec
    (fun _ => true) (.ok (twoCustomers [8080] [])) .missing
    (fun s a => RecordsAll s a ∧ SavesInOrder s a)
    (twoPostsRun ++ [AdminAction.run 0, .run 1, postPort 9002 "acme", .run 2,
      .bind 2 (.refused "in use"), .run 2, .bind 1 .bound, .run 1, .save 0 true, .save 1 true])
    (fun s₀ s => s₀.requests = [] ∧ s₀.store = true ∧
      (∀ pc ∈ s.requests, unfinished pc = false) ∧ (∃ pc ∈ s.requests, succeeded pc = true) ∧
      s.portMap.customer 9001 = some "globex")
    (by decide)
  exact ⟨s₀, s, hb, hr, hmap, sidecar_holds_map hreq hstore hr hdone hsucc⟩

/-- The snapshot of the first POST is taken before the second POST adds its port, and written after
the second one's: both are answered 201, and the sidecar does not have port 9001. -/
theorem sidecar_loses_port :
    ∃ s₀ s, boot (fun _ => true) (.ok (twoCustomers [8080] [])) .missing = .ok s₀ ∧
      AdminReach (fun _ => true) RecordsAll s₀ s ∧ s₀.requests = [] ∧ s₀.store = true ∧
      (∀ pc ∈ s.requests, succeeded pc = true) ∧ s.portMap.customer 9001 = some "globex" ∧
      (loadSidecar s.sidecar).map (fun ports => ports.map (·.port)) = some [9000, 8080] ∧
      ¬ Recorded s :=
  exists_boot_of_exec (fun _ => true) _ _ RecordsAll
    (twoPostsRun ++ [AdminAction.run 0, .run 1, .bind 1 .bound, .run 1, .save 1 true, .save 0 true])
    _ (by decide)

end Atlax.Analysis
