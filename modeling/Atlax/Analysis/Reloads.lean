import Atlax.Library.Exclusive
import Atlax.Analysis.PortIndexes
import Atlax.Analysis.Tenancy

/-!
# Reloads and the live port map

A reload goes by the difference between the file and the config it applied last, not the live port
map. As long as the two agree, the reload takes the map to the new config, port by port in any
order, except for the ports whose customer would change. They stop agreeing when a listener is
refused, for then the mapping is rolled back, and when a port is rejected, for then the old
mapping stays; in both cases the new config is recorded as applied. No later reload of that config
repairs the map.
-/

set_option autoImplicit false

namespace Atlax.Analysis

open Atlax.Model Atlax.Library

variable {file : Except String RelayConfig}

/-- What a port index says of a port, as the router stores it. -/
def mapping (e : PortIndexEntry) : PortEntry :=
  ⟨e.customerID, e.service, e.maxStreams, e.listenAddr⟩

/-- The port map has the ports of the index, each with its customer, service, stream limit and
listen address. -/
def Agrees (m : PortMap) (idx : PortIndex) : Prop := ∀ p, m.lookup p = (idx.lookup p).map mapping

/-- What a reload from `old` to `new` makes of a port: a port stays as it is when its customer would
change. -/
def reloaded (old new : PortIndex) (p : ℤ) : Option PortEntry :=
  match new.lookup p, old.lookup p with
  | none, _ => none
  | some e, none => some (mapping e)
  | some e, some o => if o.customerID ≠ e.customerID then some (mapping o) else some (mapping e)

/-- A reload under way on a map that agreed with the old config: the ports not looked at are as the
old config has them, the others are done. -/
structure Progress (st : Reload) (m : PortMap) : Prop where
  waiting : ∀ p, p ∈ st.adds ∨ p ∈ st.removes → m.lookup p = (st.oldIdx.lookup p).map mapping
  settled : ∀ p, p ∉ st.adds → p ∉ st.removes → m.lookup p = reloaded st.oldIdx st.newIdx p
  rejected : st.summary.portsRejected = 0 → ∀ p ∉ st.adds, ∀ e ∈ st.newIdx.lookup p,
    ∀ o ∈ st.oldIdx.lookup p, o.customerID = e.customerID
  nodupAdds : st.adds.Nodup
  nodupRemoves : st.removes.Nodup

variable {st : Reload} {m m' : PortMap} {port : ℤ}

theorem Progress.start {oldCfg : Option RelayConfig} {newCfg : RelayConfig}
    (h : Agrees m (indexPorts oldCfg)) : Progress (.start oldCfg newCfg) m where
  waiting p _ := h p
  settled p hadd hrem := by
    -- a port in neither config is not mapped
    have hnew : (indexPorts (some newCfg)).lookup p = none := AList.lookup_eq_none.mpr hadd
    have hold : (indexPorts oldCfg).lookup p = none := by
      refine AList.lookup_eq_none.mpr fun hmem => hrem ?_
      exact List.mem_filter.mpr ⟨hmem, decide_eq_true hadd⟩
    rw [h p, hold]
    simp only [reloaded, show (Reload.start oldCfg newCfg).newIdx.lookup p = none from hnew]
    rfl
  rejected _ p hadd e he := by
    have hnew : (indexPorts (some newCfg)).lookup p = none := AList.lookup_eq_none.mpr hadd
    rw [show (Reload.start oldCfg newCfg).newIdx.lookup p = none from hnew] at he
    cases he
  nodupAdds := AList.keys_nodup _
  nodupRemoves := (AList.keys_nodup _).filter _

/-- One port of the new config is done. -/
theorem Progress.takeAdd (h : Progress st m) (hadd : port ∈ st.adds)
    (hother : ∀ p, p ≠ port → m'.lookup p = m.lookup p)
    (hport : m'.lookup port = reloaded st.oldIdx st.newIdx port) (summary : ReloadSummary)
    (hrej : summary.portsRejected = 0 → st.summary.portsRejected = 0 ∧
      ∀ e ∈ st.newIdx.lookup port, ∀ o ∈ st.oldIdx.lookup port, o.customerID = e.customerID) :
    Progress { st.takeAdd port with summary := summary } m' where
  waiting p hp := by
    have hne : p ≠ port := by
      rintro rfl
      rcases hp with hp | hp
      · exact (h.nodupAdds.mem_erase_iff.mp hp).1 rfl
      · exact st.omitted p hp (st.listed p hadd)
    rw [hother p hne]
    exact h.waiting p (hp.imp_left List.mem_of_mem_erase)
  settled p hp hrem := by
    by_cases hne : p = port
    · subst hne
      exact hport
    · rw [hother p hne]
      exact h.settled p (fun hmem => hp (h.nodupAdds.mem_erase_iff.mpr ⟨hne, hmem⟩)) hrem
  rejected hz p hp e he o ho := by
    by_cases hne : p = port
    · subst hne
      exact (hrej hz).2 e he o ho
    · exact h.rejected (hrej hz).1 p
        (fun hmem => hp (h.nodupAdds.mem_erase_iff.mpr ⟨hne, hmem⟩)) e he o ho
  nodupAdds := h.nodupAdds.erase _
  nodupRemoves := h.nodupRemoves

/-- One port that is only in the old config is done. -/
theorem Progress.takeRemove (h : Progress st m) (hrem : port ∈ st.removes)
    (hother : ∀ p, p ≠ port → m'.lookup p = m.lookup p) (hport : m'.lookup port = none) :
    Progress (st.takeRemove port) m' where
  waiting p hp := by
    have hne : p ≠ port := by
      rintro rfl
      rcases hp with hp | hp
      · exact st.omitted p hrem (st.listed p hp)
      · exact (h.nodupRemoves.mem_erase_iff.mp hp).1 rfl
    rw [hother p hne]
    exact h.waiting p (hp.imp_right List.mem_of_mem_erase)
  settled p hadd hp := by
    by_cases hne : p = port
    · subst hne
      have hnew : st.newIdx.lookup p = none := AList.lookup_eq_none.mpr (st.omitted p hrem)
      rw [hport]
      simp only [reloaded, show (st.takeRemove p).newIdx.lookup p = none from hnew]
    · rw [hother p hne]
      exact h.settled p hadd fun hmem => hp (h.nodupRemoves.mem_erase_iff.mpr ⟨hne, hmem⟩)
  rejected := h.rejected
  nodupAdds := h.nodupAdds
  nodupRemoves := h.nodupRemoves.erase _

/-- The counts do not matter, but for that of the rejected ports. -/
theorem Progress.summary (h : Progress st m) (summary : ReloadSummary)
    (hrej : summary.portsRejected = st.summary.portsRejected) :
    Progress { st with summary := summary } m where
  waiting := h.waiting
  settled := h.settled
  rejected hz := h.rejected (hrej ▸ hz)
  nodupAdds := h.nodupAdds
  nodupRemoves := h.nodupRemoves

/-- A reload that is through and has rejected nothing has brought the map to the new config. -/
theorem Progress.agrees (h : Progress st m) (hadds : st.adds = []) (hremoves : st.removes = [])
    (hrej : st.summary.portsRejected = 0) : Agrees m (indexPorts (some st.newCfg)) := by
  intro p
  rw [h.settled p (by simp [hadds]) (by simp [hremoves])]
  have hcust := h.rejected hrej p (by simp [hadds])
  unfold reloaded
  split
  · next hnew => rw [show (indexPorts (some st.newCfg)).lookup p = none from hnew]; rfl
  · next e hnew _ => rw [show (indexPorts (some st.newCfg)).lookup p = some e from hnew]; rfl
  · next e o hnew hold =>
    rw [if_neg (not_not_intro (hcust e hnew o hold)),
      show (indexPorts (some st.newCfg)).lookup p = some e from hnew]
    rfl

/-! ## Runs of reloads -/

/-- Only reloads are requested, no listener is refused, and what is committed has rejected no
port. -/
def ReloadsApply (s : Admin) : AdminAction → Prop
  | .post _ | .put _ _ | .delete _ => False
  | .bind _ (.refused _) => False
  | .run i =>
    match s.requests[i]? with
    | some (.reloadCommit st) => st.summary.portsRejected = 0
    | _ => True
  | _ => True

instance (s : Admin) (a : AdminAction) : Decidable (ReloadsApply s a) := by
  unfold ReloadsApply
  repeat' split
  all_goals infer_instance

/-- The request has taken the mutex of `Reload` and not given it back; or it is no reload. -/
def insideReload : RequestPc → Bool
  | .reloadLock | .done _ => false
  | _ => true

/-- What holds of the port map while a reload stands at `pc`. -/
def ReloadStage (s : Admin) : RequestPc → Prop
  | .reloadLoad => s.reloading = true ∧ Agrees s.portMap (indexPorts s.currentCfg)
  | .reloadPorts st | .reloadWait st _ _ | .reloadStop st _ =>
    s.reloading = true ∧ Progress st s.portMap
  | .reloadCommit st =>
    s.reloading = true ∧ Progress st s.portMap ∧ st.adds = [] ∧ st.removes = []
  | .snapshot (.summary _) | .save (.summary _) _ =>
    s.reloading = true ∧ Agrees s.portMap (indexPorts s.currentCfg)
  | _ => False

/-- Between reloads the map agrees with the config applied last. -/
def ConfigApplied (s : Admin) : Prop := Agrees s.portMap (indexPorts s.currentCfg)

/-- The reloads take turns, and each takes the map from one config to the next. -/
abbrev InTurn (s : Admin) : Prop := Exclusive insideReload ReloadStage ConfigApplied s.requests s

variable {isIP : String → Bool} {s s' : Admin} {a : AdminAction} {i : ℕ} {pc : RequestPc}
    {sidecar : SidecarFile} {s₀ : Admin}

/-- A reload under way has the flag. -/
theorem stage_reloading (h : ReloadStage s pc) : s.reloading = true := by
  unfold ReloadStage at h
  split at h
  all_goals first | exact h.1 | exact h.elim

/-- A stage reads the map, the config and the flag. -/
theorem stage_congr (hmap : s'.portMap = s.portMap) (hcfg : s'.currentCfg = s.currentCfg)
    (hrl : s'.reloading = s.reloading) (h : ReloadStage s pc) : ReloadStage s' pc := by
  unfold ReloadStage at h ⊢
  rwa [hmap, hcfg, hrl]

/-- What the reloads do not look at may change. -/
theorem InTurn.keep (h : InTurn s) (hreq : s'.requests = s.requests)
    (hmap : s'.portMap = s.portMap) (hcfg : s'.currentCfg = s.currentCfg)
    (hrl : s'.reloading = s.reloading) : InTurn s' := by
  unfold InTurn
  rw [hreq]
  refine Exclusive.keep h (fun pc _ _ hst => stage_congr hmap hcfg hrl hst) ?_
  intro hrest
  unfold ConfigApplied
  rwa [hmap, hcfg]

/-- A port of the new config that the old one has as well. -/
theorem Progress.both (h : Progress st m) {entry old : PortIndexEntry} (hadd : port ∈ st.adds)
    (hnew : st.newIdx.lookup port = some entry) (hold : st.oldIdx.lookup port = some old) :
    m.lookup port = some (mapping old) ∧ reloaded st.oldIdx st.newIdx port =
      if old.customerID ≠ entry.customerID then some (mapping old) else some (mapping entry) := by
  refine ⟨by rw [h.waiting port (.inl hadd), hold]; rfl, ?_⟩
  simp only [reloaded, hnew, hold]

theorem mapping_eq_of_same {old entry : PortIndexEntry} (hcust : old.customerID = entry.customerID)
    (hdiff : portMutableFieldsDiffer old entry = false) : mapping old = mapping entry := by
  simp only [portMutableFieldsDiffer, Bool.or_eq_false_iff, decide_eq_false_iff_not,
    not_not] at hdiff
  simp only [mapping, hcust, hdiff.1.1, hdiff.1.2, hdiff.2]

/-! ## What one port of a config does -/

section Ports

variable {entry old : PortIndexEntry}

/-- A port that only the new config has is added. -/
theorem Progress.add (h : Progress st m) (hadd : port ∈ st.adds)
    (hnew : st.newIdx.lookup port = some entry) (hold : st.oldIdx.lookup port = none) :
    Progress (st.takeAdd port) (m.addPortMapping entry.customerID port entry.service
      entry.listenAddr entry.maxStreams) := by
  refine h.takeAdd hadd ?_ ?_ st.summary ?_
  · intro p hne
    rw [PortMap.lookup_add, if_neg hne]
  · rw [PortMap.lookup_add, if_pos rfl]
    simp only [reloaded, hnew, hold, mapping]
  · refine fun hz => ⟨hz, fun e _ o ho => ?_⟩
    rw [hold] at ho
    cases ho

/-- A port whose customer would change stays as it is. -/
theorem Progress.reject (h : Progress st m) (hadd : port ∈ st.adds)
    (hnew : st.newIdx.lookup port = some entry) (hold : st.oldIdx.lookup port = some old)
    (hcust : old.customerID ≠ entry.customerID) :
    Progress { st.takeAdd port with summary.portsRejected := st.summary.portsRejected + 1 } m := by
  obtain ⟨hlive, htarget⟩ := h.both hadd hnew hold
  refine h.takeAdd hadd (fun _ _ => rfl) ?_ _ ?_
  · rw [hlive, htarget, if_pos hcust]
  · intro hz
    cases hz

/-- A port that keeps its customer is brought up to date. -/
theorem Progress.update (h : Progress st m) (hadd : port ∈ st.adds)
    (hnew : st.newIdx.lookup port = some entry) (hold : st.oldIdx.lookup port = some old)
    (hcust : old.customerID = entry.customerID)
    (hm : m.updatePortMapping port entry.service entry.listenAddr entry.maxStreams = .ok m') :
    Progress { st.takeAdd port with summary.portsUpdated := st.summary.portsUpdated + 1 } m' := by
  obtain ⟨hlive, htarget⟩ := h.both hadd hnew hold
  obtain ⟨e, he, hlook⟩ := PortMap.lookup_update _ hm
  rw [hlive] at he
  cases he
  refine h.takeAdd hadd ?_ ?_ _ ?_
  · intro p hne
    rw [hlook, if_neg hne]
  · rw [hlook, if_pos rfl, htarget, if_neg (not_not_intro hcust)]
    simp only [mapping, hcust]
  · refine fun hz => ⟨hz, fun e' he' o ho => ?_⟩
    rw [hnew] at he'
    rw [hold] at ho
    cases he'
    cases ho
    exact hcust

/-- A port that is the same in both configs. -/
theorem Progress.same (h : Progress st m) (hadd : port ∈ st.adds)
    (hnew : st.newIdx.lookup port = some entry) (hold : st.oldIdx.lookup port = some old)
    (hcust : old.customerID = entry.customerID)
    (hdiff : portMutableFieldsDiffer old entry = false) : Progress (st.takeAdd port) m := by
  obtain ⟨hlive, htarget⟩ := h.both hadd hnew hold
  refine h.takeAdd hadd (fun _ _ => rfl) ?_ st.summary ?_
  · rw [hlive, htarget, if_neg (not_not_intro hcust), mapping_eq_of_same hcust hdiff]
  · refine fun hz => ⟨hz, fun e he o ho => ?_⟩
    rw [hnew] at he
    rw [hold] at ho
    cases he
    cases ho
    exact hcust

/-- A port of both configs is mapped. -/
theorem Progress.not_missing (h : Progress st m) (hadd : port ∈ st.adds)
    (hnew : st.newIdx.lookup port = some entry) (hold : st.oldIdx.lookup port = some old) :
    m.lookup port ≠ none := by
  rw [(h.both hadd hnew hold).1]
  exact Option.some_ne_none _

/-- A port that only the old config has is removed. -/
theorem Progress.remove (h : Progress st m) (hrem : port ∈ st.removes)
    (hm : m.removePortMapping old.customerID port = .ok m') :
    Progress (st.takeRemove port) m' := by
  obtain ⟨_, hlook⟩ := PortMap.lookup_remove _ hm
  refine h.takeRemove hrem ?_ ?_
  · intro p hne
    rw [hlook, if_neg hne]
  · rw [hlook, if_pos rfl]

/-- The map has such a port for the customer of the old config. -/
theorem Progress.not_kept (h : Progress st m) (hrem : port ∈ st.removes)
    (hold : st.oldIdx.lookup port = some old) (e : RouterError) :
    m.removePortMapping old.customerID port ≠ .error e := by
  have hlive : m.lookup port = some (mapping old) := by
    rw [h.waiting port (.inr hrem), hold]
    rfl
  simp [PortMap.removePortMapping, hlive, mapping]

end Ports

/-- No step takes the map off the config. -/
theorem inTurn_move (h : InTurn s) (hok : ReloadsApply s a) (hm : AdminMove isIP s a s') :
    InTurn s' := by
  cases hm with
  | malformed a text ha => rcases ha with ⟨_, rfl⟩ | ⟨_, _, rfl⟩ <;> exact hok.elim
  | post | put | delete => exact hok.elim
  | reload =>
    refine Exclusive.addPassive (Exclusive.keep h ?_ ?_) rfl
    · exact fun pc _ _ hst => stage_congr rfl rfl rfl hst
    · exact fun hrest => hrest
  | createAdd i req hpc | createBind i req b hpc | createRollback i req err hpc
  | updateGet i port req existing hpc | updateApply i port existing req m hpc
  | deleteLookup i port customerID service hpc | deleteRemove i port customerID m hpc
  | deleteStop i port hpc | reloadRollback i st port entry hpc => exact (h.at hpc rfl).elim
  | miss i pc status text hpc hkind =>
    rcases hkind with ⟨_, _, rfl⟩ | ⟨_, _, _, rfl⟩ | ⟨_, rfl⟩ | ⟨_, _, rfl⟩ <;>
      exact (h.at hpc rfl).elim
  | reloadLock i hpc hfree =>
    have hpassive : ∀ pc ∈ s.requests, insideReload pc = false := by
      intro pc hmem
      by_contra hin
      have hrl := stage_reloading (Exclusive.stage h pc hmem (by simpa using hin))
      rw [hfree] at hrl
      cases hrl
    have hrest := Exclusive.rest h hpassive
    exact Exclusive.enter hpassive hpc (fun _ => ⟨rfl, hrest⟩) fun hout => by cases hout
  | reloadInvalid i file text hpc => exact h.retire hpc rfl rfl (h.at hpc rfl).2
  | reloadStart i file cfg idx hpc =>
    obtain ⟨hrl, hag⟩ := h.at hpc rfl
    exact h.move hpc rfl rfl ⟨hrl, .start hag⟩
  | reloadAdd i st port entry hpc hadd hnew hold =>
    obtain ⟨hrl, hp⟩ := h.at hpc rfl
    exact h.move hpc rfl rfl ⟨hrl, hp.add hadd hnew hold⟩
  | reloadReject i st port entry old hpc hadd hnew hold hcust =>
    obtain ⟨hrl, hp⟩ := h.at hpc rfl
    exact h.move hpc rfl rfl ⟨hrl, hp.reject hadd hnew hold hcust⟩
  | reloadUpdate i st port entry old m hpc hadd hnew hold hcust hdiff hm =>
    obtain ⟨hrl, hp⟩ := h.at hpc rfl
    exact h.move hpc rfl rfl ⟨hrl, hp.update hadd hnew hold hcust hm⟩
  | reloadUpdateMiss i st port entry old hpc hadd hnew hold hmiss =>
    obtain ⟨_, hp⟩ := h.at hpc rfl
    exact absurd hmiss (hp.not_missing hadd hnew hold)
  | reloadSame i st port entry old hpc hadd hnew hold hcust hdiff =>
    obtain ⟨hrl, hp⟩ := h.at hpc rfl
    exact h.move hpc rfl rfl ⟨hrl, hp.same hadd hnew hold hcust hdiff⟩
  | reloadBind i st port entry b hpc =>
    obtain ⟨hrl, hp⟩ := h.at hpc rfl
    cases b with
    | refused err => exact hok.elim
    | bound | slow => exact h.move hpc rfl rfl ⟨hrl, hp.summary _ rfl⟩
  | reloadRemove i st port old m hpc hadds hrem hold hm =>
    obtain ⟨hrl, hp⟩ := h.at hpc rfl
    exact h.move hpc rfl rfl ⟨hrl, hp.remove hrem hm⟩
  | reloadRemoveMiss i st port old e hpc hadds hrem hold hm =>
    obtain ⟨_, hp⟩ := h.at hpc rfl
    exact absurd hm (hp.not_kept hrem hold e)
  | reloadStop i st port hpc =>
    obtain ⟨hrl, hp⟩ := h.at hpc rfl
    obtain ⟨listeners, sockets, hstop⟩ := stopPort_eq s port
    rw [hstop]
    exact h.move hpc rfl rfl ⟨hrl, hp.summary _ rfl⟩
  | reloadLimits i st hpc hadds hremoves =>
    obtain ⟨hrl, hp⟩ := h.at hpc rfl
    obtain ⟨limiters, hlim⟩ := applyRateLimitChanges_eq s st.oldCfg (some st.newCfg)
    rw [hlim]
    exact h.move hpc rfl rfl ⟨hrl, hp.summary _ rfl, hadds, hremoves⟩
  | reloadCommit i st hpc =>
    obtain ⟨hrl, hp, hadds, hremoves⟩ := h.at hpc rfl
    have hrej : st.summary.portsRejected = 0 := by simpa [ReloadsApply, hpc] using hok
    exact h.move hpc rfl rfl ⟨hrl, hp.agrees hadds hremoves hrej⟩
  | snapshot i r hpc hstore =>
    have hst := h.at hpc rfl
    cases r with
    | summary sm => exact h.move hpc rfl rfl hst
    | _ => exact hst.elim
  | answer i r hpc hstore | save i r ports written file hpc =>
    have hst := h.at hpc rfl
    cases r with
    | summary sm => exact h.retire hpc rfl rfl hst.2
    | _ => exact hst.elim
  | listen | listenFail => exact h.keep rfl rfl rfl rfl

theorem foldl_setRateLimiter_eq (cs : List CustomerConfig) (s : Admin) : ∃ limiters,
    cs.foldl (fun s c => s.setRateLimiter c.id c.rateLimit) s =
      { s with rateLimiters := limiters } := by
  induction cs generalizing s with
  | nil => exact ⟨s.rateLimiters, rfl⟩
  | cons c cs ih =>
    obtain ⟨limiters, h⟩ := ih (s.setRateLimiter c.id c.rateLimit)
    refine ⟨limiters, ?_⟩
    rw [List.foldl_cons, h]
    unfold Admin.setRateLimiter
    split <;> rfl

/-- Mapping every entry of an index, one after the other. -/
theorem lookup_foldl_add (l : List (Sigma fun _ : ℤ => PortIndexEntry)) (hl : l.NodupKeys)
    (m : PortMap) (p : ℤ) :
    (l.foldl (fun m e =>
      m.addPortMapping e.2.customerID e.1 e.2.service e.2.listenAddr e.2.maxStreams) m).lookup p =
      ((l.dlookup p).map mapping).or (m.lookup p) := by
  induction l generalizing m with
  | nil => rfl
  | cons e l ih =>
    obtain ⟨q, e⟩ := e
    obtain ⟨hq, hl⟩ := List.nodupKeys_cons.mp hl
    rw [List.foldl_cons, ih hl, PortMap.lookup_add]
    by_cases hp : p = q
    · subst hp
      rw [List.dlookup_eq_none.mpr hq, List.dlookup_cons_eq, if_pos rfl]
      rfl
    · rw [List.dlookup_cons_ne _ _ hp, if_neg hp]

/-- SOURCE: main.go:36-100, 111-175 -/
theorem startupIndex_ok {cfg : RelayConfig} {index : PortIndex}
    (h : startupIndex isIP cfg sidecar = .ok index) :
    ∃ idx, buildPortIndex cfg.customers = .ok idx ∧
      index = mergeSidecar isIP idx ((openSidecar cfg.server.storePath sidecar).getD []) := by
  unfold startupIndex at h
  cases hbuild : buildPortIndex cfg.customers with
  | error e =>
    rw [hbuild] at h
    cases h
  | ok idx =>
    rw [hbuild] at h
    cases h
    exact ⟨idx, rfl, rfl⟩

/-- What a relay starts with: the ports of its index are mapped and their listeners are starting. -/
theorem boot_eq
    (h : boot isIP file sidecar = .ok s₀) : ∃ (cfg : RelayConfig) (idx index : PortIndex),
      buildPortIndex cfg.customers = .ok idx ∧
      index = mergeSidecar isIP idx ((openSidecar cfg.server.storePath sidecar).getD []) ∧
      s₀.currentCfg = some cfg ∧ Agrees s₀.portMap index ∧
      s₀.starting = index.entries.map (fun e => (e.1, bindAddr e.2.listenAddr e.1)) ∧
      s₀.listeners = ∅ ∧ s₀.sockets = [] ∧ s₀.requests = [] := by
  unfold boot at h
  simp only [bind, Except.bind] at h
  split at h
  · cases h
  · next cfg hload =>
    split at h
    · cases h
    · next index hindex =>
      cases h
      obtain ⟨limiters, heq⟩ := foldl_setRateLimiter_eq cfg.customers _
      rw [heq]
      obtain ⟨idx, hbuild, rfl⟩ := startupIndex_ok hindex
      refine ⟨cfg, idx, _, hbuild, rfl, rfl, fun p => ?_, rfl, rfl, rfl, rfl⟩
      rw [lookup_foldl_add _ (AList.nodupKeys _)]
      simp [AList.lookup]

/-- Without a sidecar the relay starts with the port map of its config. -/
theorem boot_agrees
    (h : boot isIP file .missing = .ok s₀) : Agrees s₀.portMap (indexPorts s₀.currentCfg) := by
  obtain ⟨cfg, idx, index, hbuild, hindex, hcfg, hmap, -⟩ := boot_eq h
  have hmerge : mergeSidecar isIP idx ((openSidecar cfg.server.storePath .missing).getD []) =
      idx := by
    unfold openSidecar
    split <;> rfl
  rw [hcfg, buildPortIndex_eq hbuild, ← hmerge, ← hindex]
  exact hmap

/-- In every run. -/
theorem inTurn_reach (hidle : ∀ pc ∈ s₀.requests, insideReload pc = false)
    (hmap : Agrees s₀.portMap (indexPorts s₀.currentCfg))
    (h : AdminReach isIP ReloadsApply s₀ s) : InTurn s := by
  refine Reach.invariant InTurn h ⟨?_, ?_, fun _ => hmap⟩ ?_
  · intro i j pc _ hi _ hin
    rw [hidle pc (List.mem_of_getElem? hi)] at hin
    cases hin
  · intro pc hpc hin
    rw [hidle pc hpc] at hin
    cases hin
  · intro s a s' _ hI hok hstep
    exact inTurn_move hI hok (admin_move hstep)

/-- From any moment at which no reload is under way and the port map is that of the config applied
last, as it is at the start, along any sequence of reloads in which no listener is refused and no
reload that has rejected a port is committed: a reload that is about to commit and has rejected no
port leaves the port map exactly as the config it loaded says, and so it is whenever no reload is
running.
SOURCE: admin_reload.go:90-278; router_impl.go:110-147 -/
theorem reload_applied {s₀ : Admin} (hidle : ∀ pc ∈ s₀.requests, insideReload pc = false)
    (hmap : Agrees s₀.portMap (indexPorts s₀.currentCfg))
    (h : AdminReach isIP ReloadsApply s₀ s) :
    (∀ (i : ℕ) st s', s.requests[i]? = some (.reloadCommit st) → st.summary.portsRejected = 0 →
      s.step isIP (.run i) = some s' →
        s'.requests[i]? = some (.snapshot (.summary st.summary)) ∧
          s'.currentCfg = some st.newCfg ∧ Agrees s'.portMap (indexPorts (some st.newCfg))) ∧
      (s.reloading = false → Agrees s.portMap (indexPorts s.currentCfg)) := by
  have hI := inTurn_reach hidle hmap h
  constructor
  · intro i st s' hpc hrej hstep
    obtain ⟨_, hp, hadds, hremoves⟩ := hI.at hpc rfl
    have hlen := (List.getElem?_eq_some_iff.mp hpc).1
    simp only [Admin.step, hpc, Option.bind_some, Admin.runRequest, Option.some.injEq] at hstep
    subst hstep
    exact ⟨List.getElem?_set_self hlen, rfl, hp.agrees hadds hremoves hrej⟩
  · intro hfree
    have hrest : (∀ pc ∈ s.requests, insideReload pc = false) → ConfigApplied s := Exclusive.rest hI
    refine hrest ?_
    intro pc hmem
    by_contra hin
    have hrl := stage_reloading (Exclusive.stage hI pc hmem (by simpa using hin))
    rw [hfree] at hrl
    cases hrl

/-- No request is under way at the start. -/
theorem insideReload_boot
    (hboot : boot isIP file sidecar = .ok s₀) : ∀ pc ∈ s₀.requests, insideReload pc = false := by
  obtain ⟨_, _, _, _, _, _, _, _, _, _, hreq⟩ := boot_eq hboot
  simp [hreq]

/-- A reload that adds a port and drops another, and then one that changes nothing. -/
theorem reload_applied_twice :
    ∃ s₀ s, boot (fun _ => true) (.ok (twoCustomers [8080] [8081])) .missing = .ok s₀ ∧
      AdminReach (fun _ => true) ReloadsApply s₀ s ∧
      s.currentCfg = some (twoCustomers [8080, 8082] []) ∧
      s.requests[0]? = some (RequestPc.done (.summary { portsAdded := 1, portsRemoved := 1 })) ∧
      Agrees s.portMap (indexPorts s.currentCfg) := by
  obtain ⟨s₀, s, hb, hr, hcfg, hdone, hfree⟩ := exists_boot_of_exec
    (fun _ => true) (.ok (twoCustomers [8080] [8081])) .missing ReloadsApply
    [.reload, .run 0, .load 0 (.ok (twoCustomers [8080, 8082] [])), .pick 0 8082, .bind 0 .bound,
      .pick 0 8080, .pick 0 8081, .run 0, .run 0, .run 0, .run 0, .save 0 true,
      .reload, .run 1, .load 1 (.ok (twoCustomers [8080, 8082] [])), .pick 1 8080, .pick 1 8082,
      .run 1, .run 1, .run 1, .save 1 true]
    (fun _ s => s.currentCfg = some (twoCustomers [8080, 8082] []) ∧
      s.requests[0]? = some (RequestPc.done (.summary { portsAdded := 1, portsRemoved := 1 })) ∧
      s.reloading = false) (by decide)
  exact ⟨s₀, s, hb, hr, hcfg, hdone,
    (reload_applied (insideReload_boot hb) (boot_agrees hb) hr).2 hfree⟩

/-- Two ways the map stays behind: the listener of a new port is refused, or a port is rejected. The
reload of the same file that follows has nothing to do, answers without an error, with no rejected
port and no bind of its own, and leaves the map as it was. -/
theorem reload_not_applied :
    (∃ s₀ s, boot (fun _ => true) (.ok (twoCustomers [8080] [])) .missing = .ok s₀ ∧
      AdminReach (fun _ => true) anyStep s₀ s ∧
      s.currentCfg = some (twoCustomers [8080, 8082] []) ∧
      s.requests = [.done (.summary {}), .done (.summary {})] ∧
      ((indexPorts s.currentCfg).lookup 8082).isSome ∧ s.portMap.lookup 8082 = none) ∧
    (∃ s₀ s, boot (fun _ => true) (.ok (twoCustomers [8080] [])) .missing = .ok s₀ ∧
      AdminReach (fun _ => true) anyStep s₀ s ∧
      s.currentCfg = some (twoCustomers [] [8080]) ∧
      s.requests = [.done (.summary { portsRejected := 1 }), .done (.summary {})] ∧
      ((indexPorts s.currentCfg).lookup 8080).map (·.customerID) = some "globex" ∧
      s.portMap.customer 8080 = some "acme") := by
  constructor
  · exact exists_boot_of_exec (fun _ => true) _ _ anyStep
      [.reload, .run 0, .load 0 (.ok (twoCustomers [8080, 8082] [])), .pick 0 8080, .pick 0 8082,
        .bind 0 (.refused "address already in use"), .run 0, .run 0, .run 0, .run 0,
        .save 0 true, .reload, .run 1, .load 1 (.ok (twoCustomers [8080, 8082] [])), .pick 1 8080,
        .pick 1 8082, .run 1, .run 1, .run 1, .save 1 true]
      _ (by decide)
  · exact exists_boot_of_exec (fun _ => true) _ _ anyStep
      [.reload, .run 0, .load 0 (.ok (twoCustomers [] [8080])), .pick 0 8080, .run 0, .run 0,
        .run 0, .save 0 true, .reload, .run 1, .load 1 (.ok (twoCustomers [] [8080])),
        .pick 1 8080, .run 1, .run 1, .run 1, .save 1 true]
      _ (by decide)

end Atlax.Analysis
