import Atlax.Analysis.Reloads

/-!
# What a reload makes of the port map

`applyReload` takes the ports of the new config one by one, then those that are only in the old one,
each time in the order in which Go happens to iterate a map. On a port map that has the ports of the
old config, and with no listener refused, every order comes to an end after at most two steps a
port, with the same map and the same summary: the ports of the new config, except that a port whose
customer would change stays as it was, and the number of ports of each kind.

What is counted so far and what is still to be counted always add up to the whole.
-/

set_option autoImplicit false

namespace Atlax.Analysis

open Atlax.Model Atlax.Library

/-- Not in the index. -/
def absent (idx : PortIndex) (p : ℤ) : Bool := p ∉ idx

/-- In both indexes with the same customer, and with another service, address or stream limit. -/
def fieldsChange (old new : PortIndex) (p : ℤ) : Bool :=
  (old.lookup p).any fun o => (new.lookup p).any fun e =>
    o.customerID = e.customerID && portMutableFieldsDiffer o e

/-- In both indexes with different customers. -/
def customerChanges (old new : PortIndex) (p : ℤ) : Bool :=
  (old.lookup p).any fun o => (new.lookup p).any fun e => o.customerID ≠ e.customerID

/-- The summary of a reload: how many ports are only in the new config, only in the old one, in both
with other fields, and in both with different customers; how many rate limits are set; and the
fields that wait for a restart. -/
def reloadSummary (oldCfg : Option RelayConfig) (newCfg : RelayConfig) : ReloadSummary where
  portsAdded := (indexPorts (some newCfg)).keys.countP (absent (indexPorts oldCfg))
  portsRemoved := (indexPorts oldCfg).keys.countP (absent (indexPorts (some newCfg)))
  portsUpdated := (indexPorts (some newCfg)).keys.countP
    (fieldsChange (indexPorts oldCfg) (indexPorts (some newCfg)))
  portsRejected := (indexPorts (some newCfg)).keys.countP
    (customerChanges (indexPorts oldCfg) (indexPorts (some newCfg)))
  rateLimitsChanged := (rateLimits (some newCfg)).entries.countP fun e =>
    ¬ ((rateLimits oldCfg).lookup e.1 = some e.2 ∨ e.2.requestsPerSecond ≤ 0)
  restartRequired := diffRestartRequired oldCfg (some newCfg)

/-- The request is inside `applyReload`. -/
def insideApply : RequestPc → Bool
  | .reloadPorts _ | .reloadWait _ _ _ | .reloadStop _ _ => true
  | _ => false

/-- Only request `i` runs, inside `applyReload`, and no listener is refused. -/
def Applying (i : ℕ) (s : Admin) : AdminAction → Prop
  | .bind _ (.refused _) => False
  | .run j | .pick j _ | .bind j _ => j = i ∧ ∀ pc ∈ s.requests[i]?, insideApply pc = true
  | _ => False

instance (i : ℕ) (s : Admin) (a : AdminAction) : Decidable (Applying i s a) := by
  unfold Applying
  induction a with
  | bind j b => induction b <;> infer_instance
  | _ => infer_instance

/-! ## The count of the rate limits -/

theorem rateLimitsChanged_eq (s : Admin) (oldCfg : Option RelayConfig) (newCfg : RelayConfig) :
    (s.applyRateLimitChanges oldCfg (some newCfg)).2 =
      (reloadSummary oldCfg newCfg).rateLimitsChanged := by
  have count : ∀ (l : List (Sigma fun _ : String => RateLimitConfig)) (acc : Admin × ℕ),
      (l.foldl (fun acc e =>
        if (rateLimits oldCfg).lookup e.1 = some e.2 ∨ e.2.requestsPerSecond ≤ 0 then acc
        else (acc.1.setRateLimiter e.1 e.2, acc.2 + 1)) acc).2 =
      acc.2 + l.countP fun e =>
        ¬ ((rateLimits oldCfg).lookup e.1 = some e.2 ∨ e.2.requestsPerSecond ≤ 0) := by
    intro l
    induction l with
    | nil => simp
    | cons e l ih =>
      intro acc
      rw [List.foldl_cons, ih, List.countP_cons]
      by_cases hskip : (rateLimits oldCfg).lookup e.1 = some e.2 ∨ e.2.requestsPerSecond ≤ 0
      · simp [hskip]
      · simp only [hskip, if_false, not_false_eq_true, decide_true, if_true]
        omega
  exact (count _ (s, 0)).trans (Nat.zero_add _)

/-! ## A reload under way -/

/-- A reload from one config to the other with the ports it has still to look at. The mappings that
wait for their listener (`adding`) and the listeners still to be stopped (`stopping`) are not in the
summary yet. -/
structure Underway (oldCfg : Option RelayConfig) (newCfg : RelayConfig) (st : Reload) (m : PortMap)
    (adding stopping : ℕ) : Prop where
  oldCfg : st.oldCfg = oldCfg
  newCfg : st.newCfg = newCfg
  progress : Progress st m
  left : ∀ p ∈ st.removes, p ∈ st.oldIdx
  added : st.summary.portsAdded + adding + st.adds.countP (absent st.oldIdx) =
    st.newIdx.keys.countP (absent st.oldIdx)
  updated : st.summary.portsUpdated + st.adds.countP (fieldsChange st.oldIdx st.newIdx) =
    st.newIdx.keys.countP (fieldsChange st.oldIdx st.newIdx)
  rejected : st.summary.portsRejected + st.adds.countP (customerChanges st.oldIdx st.newIdx) =
    st.newIdx.keys.countP (customerChanges st.oldIdx st.newIdx)
  removed : st.summary.portsRemoved + stopping + st.removes.length =
    st.oldIdx.keys.countP (absent st.newIdx)

variable {oldCfg : Option RelayConfig} {newCfg : RelayConfig} {st : Reload} {m m' : PortMap}
  {port : ℤ}

theorem Underway.start (h : Agrees m (indexPorts oldCfg)) :
    Underway oldCfg newCfg (.start oldCfg newCfg) m 0 0 where
  oldCfg := rfl
  newCfg := rfl
  progress := .start h
  left p hp := (List.mem_filter.mp hp).1
  added := Nat.zero_add _
  updated := Nat.zero_add _
  rejected := Nat.zero_add _
  removed := by
    rw [List.countP_eq_length_filter]
    exact Nat.zero_add _

theorem countP_erase_add {l : List ℤ} (h : port ∈ l) (P : ℤ → Bool) :
    (l.erase port).countP P + (if P port then 1 else 0) = l.countP P := by
  rw [List.Perm.countP_eq P (List.perm_cons_erase h), List.countP_cons]

/-- A port of the new config is taken, and counted by what it is. -/
theorem Underway.takeAdd {adding : ℕ} {summary : ReloadSummary}
    (h : Underway oldCfg newCfg st m 0 0) (hadd : port ∈ st.adds)
    (hp : Progress { st.takeAdd port with summary := summary } m')
    (hadded : summary.portsAdded + adding =
      st.summary.portsAdded + if absent st.oldIdx port then 1 else 0)
    (hupdated : summary.portsUpdated =
      st.summary.portsUpdated + if fieldsChange st.oldIdx st.newIdx port then 1 else 0)
    (hrejected : summary.portsRejected =
      st.summary.portsRejected + if customerChanges st.oldIdx st.newIdx port then 1 else 0)
    (hremoved : summary.portsRemoved = st.summary.portsRemoved) :
    Underway oldCfg newCfg { st.takeAdd port with summary := summary } m' adding 0 where
  oldCfg := h.oldCfg
  newCfg := h.newCfg
  progress := hp
  left := h.left
  added := by
    have hcount := countP_erase_add hadd (absent st.oldIdx)
    have hsum := h.added
    show summary.portsAdded + adding + (st.adds.erase port).countP (absent st.oldIdx) =
      st.newIdx.keys.countP (absent st.oldIdx)
    omega
  updated := by
    have hcount := countP_erase_add hadd (fieldsChange st.oldIdx st.newIdx)
    have hsum := h.updated
    show summary.portsUpdated + (st.adds.erase port).countP (fieldsChange st.oldIdx st.newIdx) =
      st.newIdx.keys.countP (fieldsChange st.oldIdx st.newIdx)
    omega
  rejected := by
    have hcount := countP_erase_add hadd (customerChanges st.oldIdx st.newIdx)
    have hsum := h.rejected
    show summary.portsRejected +
      (st.adds.erase port).countP (customerChanges st.oldIdx st.newIdx) =
        st.newIdx.keys.countP (customerChanges st.oldIdx st.newIdx)
    omega
  removed := by
    have hsum := h.removed
    show summary.portsRemoved + 0 + st.removes.length = st.oldIdx.keys.countP (absent st.newIdx)
    omega

/-- How a port that only the new config has is counted. -/
theorem kind_new {old : PortIndex} (new : PortIndex) (hold : old.lookup port = none) :
    absent old port = true ∧ fieldsChange old new port = false ∧
      customerChanges old new port = false := by
  refine ⟨?_, ?_, ?_⟩
  · simpa [absent] using AList.lookup_eq_none.mp hold
  · simp [fieldsChange, hold]
  · simp [customerChanges, hold]

/-- How a port of both configs is counted. -/
theorem kind_both {old new : PortIndex} {o e : PortIndexEntry} (hold : old.lookup port = some o)
    (hnew : new.lookup port = some e) :
    absent old port = false ∧
      fieldsChange old new port = (o.customerID = e.customerID && portMutableFieldsDiffer o e) ∧
      customerChanges old new port = decide (o.customerID ≠ e.customerID) := by
  refine ⟨?_, ?_, ?_⟩
  · have hmem : port ∈ old := AList.lookup_isSome.mp (by rw [hold]; rfl)
    simpa [absent] using hmem
  · simp [fieldsChange, hold, hnew]
  · simp [customerChanges, hold, hnew]

/-- A port that only the new config has goes to wait for its listener. -/
theorem Underway.takeNew (h : Underway oldCfg newCfg st m 0 0) (hadd : port ∈ st.adds)
    (hold : st.oldIdx.lookup port = none) (hp : Progress (st.takeAdd port) m') :
    Underway oldCfg newCfg (st.takeAdd port) m' 1 0 := by
  obtain ⟨habs, hfields, hcust⟩ := kind_new st.newIdx hold
  refine h.takeAdd hadd hp ?_ ?_ ?_ rfl
  · rw [habs]
    rfl
  · rw [hfields]
    rfl
  · rw [hcust]
    rfl

/-- A port of both configs is through, and counted by what has changed. -/
theorem Underway.takeBoth {summary : ReloadSummary} {o e : PortIndexEntry}
    (h : Underway oldCfg newCfg st m 0 0) (hadd : port ∈ st.adds)
    (hold : st.oldIdx.lookup port = some o) (hnew : st.newIdx.lookup port = some e)
    (hp : Progress { st.takeAdd port with summary := summary } m')
    (hadded : summary.portsAdded = st.summary.portsAdded)
    (hupdated : summary.portsUpdated = st.summary.portsUpdated +
      if o.customerID = e.customerID ∧ portMutableFieldsDiffer o e then 1 else 0)
    (hrejected : summary.portsRejected = st.summary.portsRejected +
      if o.customerID ≠ e.customerID then 1 else 0)
    (hremoved : summary.portsRemoved = st.summary.portsRemoved) :
    Underway oldCfg newCfg { st.takeAdd port with summary := summary } m' 0 0 := by
  obtain ⟨habs, hfields, hcust⟩ := kind_both hold hnew
  refine h.takeAdd hadd hp ?_ ?_ ?_ hremoved
  · rw [habs]
    exact hadded
  · simpa [hfields] using hupdated
  · simpa [hcust] using hrejected

/-- A port that is only in the old config is taken. -/
theorem Underway.takeRemove {stopping : ℕ} {summary : ReloadSummary}
    (h : Underway oldCfg newCfg st m 0 0) (hrem : port ∈ st.removes)
    (hp : Progress { st.takeRemove port with summary := summary } m')
    (hremoved : summary.portsRemoved + stopping = st.summary.portsRemoved + 1)
    (hadded : summary.portsAdded = st.summary.portsAdded)
    (hupdated : summary.portsUpdated = st.summary.portsUpdated)
    (hrejected : summary.portsRejected = st.summary.portsRejected) :
    Underway oldCfg newCfg { st.takeRemove port with summary := summary } m' 0 stopping where
  oldCfg := h.oldCfg
  newCfg := h.newCfg
  progress := hp
  left p hp := h.left p (List.mem_of_mem_erase hp)
  added := hadded ▸ h.added
  updated := hupdated ▸ h.updated
  rejected := hrejected ▸ h.rejected
  removed := by
    have hlen := List.length_erase_of_mem hrem
    have hpos := List.length_pos_of_mem hrem
    have hsum := h.removed
    show summary.portsRemoved + stopping + (st.removes.erase port).length =
      st.oldIdx.keys.countP (absent st.newIdx)
    omega

/-- With no port left, everything is in the summary. -/
theorem Underway.summary (h : Underway oldCfg newCfg st m 0 0) (hadds : st.adds = [])
    (hremoves : st.removes = []) :
    { st.summary with
      rateLimitsChanged := (reloadSummary oldCfg newCfg).rateLimitsChanged
      restartRequired := diffRestartRequired oldCfg (some newCfg) } =
        reloadSummary oldCfg newCfg := by
  have hadded := h.added
  have hupdated := h.updated
  have hrejected := h.rejected
  have hremoved := h.removed
  rw [hadds, List.countP_nil] at hadded hupdated hrejected
  rw [hremoves, List.length_nil] at hremoved
  simp only [Nat.add_zero] at hadded hupdated hrejected hremoved
  rw [Reload.oldIdx, Reload.newIdx, h.oldCfg, h.newCfg] at hadded hupdated hrejected hremoved
  simp only [reloadSummary, hadded, hupdated, hrejected, hremoved]

/-- What holds of the port map while the request stands at `pc`. -/
def ApplyStage (oldCfg : Option RelayConfig) (newCfg : RelayConfig) (s : Admin) : RequestPc → Prop
  | .reloadPorts st => Underway oldCfg newCfg st s.portMap 0 0
  | .reloadWait st _ _ => Underway oldCfg newCfg st s.portMap 1 0
  | .reloadStop st _ => Underway oldCfg newCfg st s.portMap 0 1
  | .reloadCommit st => st.summary = reloadSummary oldCfg newCfg ∧
    ∀ p, s.portMap.lookup p = reloaded (indexPorts oldCfg) (indexPorts (some newCfg)) p
  | _ => False

/-- What is left to do: a port takes two steps at most. -/
def applyWork : RequestPc → ℕ
  | .reloadPorts st => 2 * (st.adds.length + st.removes.length) + 1
  | .reloadWait st _ _ | .reloadStop st _ => 2 * (st.adds.length + st.removes.length) + 2
  | _ => 0

/-- Request `i` is inside `applyReload`, or through with it. -/
def Reconciling (oldCfg : Option RelayConfig) (newCfg : RelayConfig) (i : ℕ) (s : Admin) : Prop :=
  ∃ pc, s.requests[i]? = some pc ∧ ApplyStage oldCfg newCfg s pc

def workLeft (i : ℕ) (s : Admin) : ℕ := (s.requests[i]?.map applyWork).getD 0

variable {isIP : String → Bool} {s s' : Admin} {a : AdminAction} {i : ℕ} {pc pc' : RequestPc}

/-- The request goes on with less to do. -/
theorem reconciling_of_stage (hi : s.requests[i]? = some pc)
    (hreq : s'.requests = s.requests.set i pc') (hstage : ApplyStage oldCfg newCfg s' pc')
    (hwork : applyWork pc' < applyWork pc) :
    Reconciling oldCfg newCfg i s' ∧ workLeft i s' < workLeft i s := by
  have hi' : s'.requests[i]? = some pc' := by
    rw [hreq, List.getElem?_set_self (List.getElem?_eq_some_iff.mp hi).1]
  refine ⟨⟨pc', hi', hstage⟩, ?_⟩
  unfold workLeft
  rw [hi, hi']
  exact hwork

/-- Taking a port leaves less to do, wherever the reload goes on. -/
theorem applyWork_takeAdd (hadd : port ∈ st.adds)
    (hpc : applyWork pc' ≤ 2 * ((st.adds.erase port).length + st.removes.length) + 2) :
    applyWork pc' < applyWork (.reloadPorts st) := by
  have hlen := List.length_erase_of_mem hadd
  have hpos := List.length_pos_of_mem hadd
  show applyWork pc' < 2 * (st.adds.length + st.removes.length) + 1
  omega

theorem applyWork_takeRemove (hrem : port ∈ st.removes)
    (hpc : applyWork pc' ≤ 2 * (st.adds.length + (st.removes.erase port).length) + 2) :
    applyWork pc' < applyWork (.reloadPorts st) := by
  have hlen := List.length_erase_of_mem hrem
  have hpos := List.length_pos_of_mem hrem
  show applyWork pc' < 2 * (st.adds.length + st.removes.length) + 1
  omega

theorem reconciling_move (h : Reconciling oldCfg newCfg i s) (hok : Applying i s a)
    (hm : AdminMove isIP s a s') :
    Reconciling oldCfg newCfg i s' ∧ workLeft i s' < workLeft i s := by
  obtain ⟨pc, hi, hstage⟩ := h
  -- the request that moves is `i`, and it stands where its stage says
  have at_stage {j : ℕ} {pc₁ : RequestPc} (hj : j = i) (hpc : s.requests[j]? = some pc₁) :
      ApplyStage oldCfg newCfg s pc₁ := by
    subst hj
    rw [hi] at hpc
    cases hpc
    exact hstage
  cases hm with
  | malformed a text ha => obtain ⟨_, rfl⟩ | ⟨_, _, rfl⟩ := ha <;> exact hok.elim
  | post | put | delete | reload | reloadInvalid | reloadStart | save | listen | listenFail =>
    exact hok.elim
  | createAdd j req hpc | createRollback j req err hpc | updateGet j port req existing hpc
  | updateApply j port existing req m hpc | deleteLookup j port customerID service hpc
  | deleteRemove j port customerID m hpc | deleteStop j port hpc | reloadLock j hpc
  | reloadRollback j st port entry hpc | snapshot j r hpc | answer j r hpc =>
    exact (at_stage hok.1 hpc).elim
  | createBind j req b hpc =>
    cases b with
    | refused err => exact hok.elim
    | bound | slow => exact (at_stage hok.1 hpc).elim
  | miss j pc₁ status text hpc hkind =>
    obtain ⟨_, _, rfl⟩ | ⟨_, _, _, rfl⟩ | ⟨_, rfl⟩ | ⟨_, _, rfl⟩ := hkind <;>
      exact (at_stage hok.1 hpc).elim
  | reloadCommit j st hpc =>
    obtain ⟨rfl, hin⟩ := hok
    cases hin _ hpc
  | reloadAdd j st port entry hpc hadd hnew hold =>
    obtain ⟨rfl, -⟩ := hok
    have hu : Underway oldCfg newCfg st s.portMap 0 0 := at_stage rfl hpc
    exact reconciling_of_stage hpc rfl (hu.takeNew hadd hold (hu.progress.add hadd hnew hold))
      (applyWork_takeAdd hadd (Nat.le_refl _))
  | reloadReject j st port entry old hpc hadd hnew hold hne =>
    obtain ⟨rfl, -⟩ := hok
    have hu : Underway oldCfg newCfg st s.portMap 0 0 := at_stage rfl hpc
    exact reconciling_of_stage hpc rfl
      (hu.takeBoth hadd hold hnew (hu.progress.reject hadd hnew hold hne) rfl
        (by simp [hne, Reload.takeAdd]) (by simp [hne]) rfl)
      (applyWork_takeAdd hadd (Nat.le_succ _))
  | reloadUpdate j st port entry old m hpc hadd hnew hold heq hdiff hm =>
    obtain ⟨rfl, -⟩ := hok
    have hu : Underway oldCfg newCfg st s.portMap 0 0 := at_stage rfl hpc
    exact reconciling_of_stage hpc rfl
      (hu.takeBoth hadd hold hnew (hu.progress.update hadd hnew hold heq hm) rfl
        (by simp [heq, hdiff]) (by simp [heq, Reload.takeAdd]) rfl)
      (applyWork_takeAdd hadd (Nat.le_succ _))
  | reloadUpdateMiss j st port entry old hpc hadd hnew hold hmiss =>
    have hu : Underway oldCfg newCfg st s.portMap 0 0 := at_stage hok.1 hpc
    exact absurd hmiss (hu.progress.not_missing hadd hnew hold)
  | reloadSame j st port entry old hpc hadd hnew hold heq hdiff =>
    obtain ⟨rfl, -⟩ := hok
    have hu : Underway oldCfg newCfg st s.portMap 0 0 := at_stage rfl hpc
    exact reconciling_of_stage hpc rfl
      (hu.takeBoth hadd hold hnew (hu.progress.same hadd hnew hold heq hdiff) rfl
        (by simp [hdiff]) (by simp [heq]) rfl)
      (applyWork_takeAdd hadd (Nat.le_succ _))
  | reloadBind j st port entry b hpc =>
    cases b with
    | refused err => exact hok.elim
    | bound | slow =>
      obtain ⟨rfl, -⟩ := hok
      have hu : Underway oldCfg newCfg st s.portMap 1 0 := at_stage rfl hpc
      refine reconciling_of_stage hpc rfl ⟨hu.oldCfg, hu.newCfg, hu.progress.summary _ rfl, hu.left,
        ?_, hu.updated, hu.rejected, hu.removed⟩ (Nat.lt_succ_self _)
      exact hu.added
  | reloadRemove j st port old m hpc hadds hrem hold hm =>
    obtain ⟨rfl, -⟩ := hok
    have hu : Underway oldCfg newCfg st s.portMap 0 0 := at_stage rfl hpc
    exact reconciling_of_stage hpc rfl
      (hu.takeRemove hrem (hu.progress.remove hrem hm) rfl rfl rfl rfl)
      (applyWork_takeRemove hrem (Nat.le_refl _))
  | reloadRemoveMiss j st port old e hpc hadds hrem hold hm =>
    have hu : Underway oldCfg newCfg st s.portMap 0 0 := at_stage hok.1 hpc
    exact absurd hm (hu.progress.not_kept hrem hold e)
  | reloadStop j st port hpc =>
    obtain ⟨rfl, -⟩ := hok
    have hu : Underway oldCfg newCfg st s.portMap 0 1 := at_stage rfl hpc
    refine reconciling_of_stage hpc (by rw [requests_setRequest, requests_stopPort]) ?_
      (Nat.lt_succ_self _)
    unfold ApplyStage
    rw [portMap_setRequest, portMap_stopPort]
    exact ⟨hu.oldCfg, hu.newCfg, hu.progress.summary _ rfl, hu.left, hu.added, hu.updated,
      hu.rejected, hu.removed⟩
  | reloadLimits j st hpc hadds hremoves =>
    obtain ⟨rfl, -⟩ := hok
    have hu : Underway oldCfg newCfg st s.portMap 0 0 := at_stage rfl hpc
    obtain ⟨limiters, hlim⟩ := applyRateLimitChanges_eq s st.oldCfg (some st.newCfg)
    have hsummary := hu.summary hadds hremoves
    rw [← rateLimitsChanged_eq s, ← hu.oldCfg, ← hu.newCfg] at hsummary
    refine reconciling_of_stage hpc (by rw [requests_setRequest, hlim]) ?_ ?_
    · rw [← hu.oldCfg, ← hu.newCfg]
      refine ⟨hsummary, fun p => ?_⟩
      rw [portMap_setRequest, portMap_applyRateLimitChanges]
      exact hu.progress.settled p (by simp [hadds]) (by simp [hremoves])
    · exact Nat.succ_pos _

/-- Inside `applyReload` there is always a step to make: a port to take, a listener that comes up,
or the end of a loop. -/
theorem reconciling_enabled (isIP : String → Bool) (hi : s.requests[i]? = some pc)
    (hstage : ApplyStage oldCfg newCfg s pc) (hin : insideApply pc = true) :
    ∃ a s', Applying i s a ∧ s.step isIP a = some s' := by
  have hok : i = i ∧ ∀ pc ∈ s.requests[i]?, insideApply pc = true := by
    refine ⟨rfl, fun pc' hpc' => ?_⟩
    rw [hi] at hpc'
    cases hpc'
    exact hin
  have run {s' : Admin} (h : s.runRequest i pc = some s') :
      ∃ a s', Applying i s a ∧ s.step isIP a = some s' :=
    ⟨.run i, s', hok, Option.bind_eq_some_iff.mpr ⟨pc, hi, h⟩⟩
  cases pc with
  | reloadPorts st =>
    have hu : Underway oldCfg newCfg st s.portMap 0 0 := hstage
    have take (port : ℤ) (h : (s.pick i st port).isSome) :
        ∃ a s', Applying i s a ∧ s.step isIP a = some s' := by
      obtain ⟨s', hs'⟩ := Option.isSome_iff_exists.mp h
      exact ⟨.pick i port, s', hok, by simp only [Admin.step, hi, hs']⟩
    cases hadds : st.adds with
    | cons port adds =>
      have hadd : port ∈ st.adds := by simp [hadds]
      refine take port ?_
      rw [Admin.pick, if_pos hadd, Option.isSome_map, AList.lookup_isSome]
      exact st.listed port hadd
    | nil =>
      cases hremoves : st.removes with
      | cons port removes =>
        have hrem : port ∈ st.removes := by simp [hremoves]
        refine take port ?_
        rw [Admin.pick, if_neg (by simp [hadds]), if_pos ⟨hadds, hrem⟩, Option.isSome_map,
          AList.lookup_isSome]
        exact hu.left port hrem
      | nil => exact run (if_pos ⟨hadds, hremoves⟩)
  | reloadWait st port entry =>
    exact ⟨.bind i .bound, _, hok, Option.bind_eq_some_iff.mpr ⟨_, hi, rfl⟩⟩
  | reloadStop st port => exact run rfl
  | _ => cases hin

/-- `applyReload` on a port map that has the ports of the old config, with no listener refused: in
whatever order the ports are taken, it is through after two steps a port at most, and then the map
has the ports of the new config, but for those whose customer would change, and the summary counts
the ports of each kind. -/
theorem applyReload_reconciles {s₀ s : Admin} {i : ℕ} {as : List AdminAction}
    (hstart : s₀.requests[i]? = some (.reloadPorts (.start oldCfg newCfg)))
    (hmap : Agrees s₀.portMap (indexPorts oldCfg))
    (hrun : exec (guarded (fun s => s.step isIP) (Applying i)) s₀ as = some s) :
    as.length ≤ 2 * ((indexPorts (some newCfg)).keys.length + (indexPorts oldCfg).keys.length) + 1 ∧
      ((∃ a s', Applying i s a ∧ s.step isIP a = some s') ∨
        ∃ st, s.requests[i]? = some (RequestPc.reloadCommit st) ∧
          st.summary = reloadSummary oldCfg newCfg ∧ ∀ p, s.portMap.lookup p =
            reloaded (indexPorts oldCfg) (indexPorts (some newCfg)) p) := by
  have hrec : Reconciling oldCfg newCfg i s₀ := ⟨_, hstart, Underway.start hmap⟩
  obtain ⟨⟨pc, hi, hstage⟩, hlen⟩ := exec_variant (workLeft i) hrun hrec
    fun s a s' h hok hstep => reconciling_move h hok (admin_move hstep)
  constructor
  · have hremoves : (Reload.start oldCfg newCfg).removes.length ≤ (indexPorts oldCfg).keys.length :=
      List.length_filter_le _ _
    have hwork : workLeft i s₀ = 2 * ((Reload.start oldCfg newCfg).adds.length +
        (Reload.start oldCfg newCfg).removes.length) + 1 := by
      rw [workLeft, hstart]
      rfl
    have hadds : (Reload.start oldCfg newCfg).adds.length =
        (indexPorts (some newCfg)).keys.length := rfl
    omega
  · cases hin : insideApply pc with
    | true => exact .inl (reconciling_enabled isIP hi hstage hin)
    | false =>
      right
      cases pc with
      | reloadCommit st => exact ⟨st, hi, hstage⟩
      | reloadPorts | reloadWait | reloadStop => cases hin
      | _ => exact hstage.elim

/-- A reload that begins on the port map of its old config. -/
def beginReload (oldCfg newCfg : RelayConfig) : Admin where
  portMap := (indexPorts (some oldCfg)).entries.foldl (fun m e =>
    m.addPortMapping e.2.customerID e.1 e.2.service e.2.listenAddr e.2.maxStreams) ∅
  requests := [.reloadPorts (.start (some oldCfg) newCfg)]

/-- Another service on 8080, "globex"'s port 8082, a new port 8083 and a rate limit. -/
def movedPorts : RelayConfig :=
  { twoCustomers [] [] with
    customers := [⟨"acme", [⟨8080, "http", ""⟩, ⟨8082, "ssh", ""⟩, ⟨8083, "ssh", ""⟩], 0, ⟨5, 1⟩⟩] }

def committed : RequestPc → Option ReloadSummary
  | .reloadCommit st => some st.summary
  | _ => none

/-- One port of each kind: 8083 is added, 8080 updated, 8082 rejected and 8081 removed. -/
theorem applyReload_reconciles_four :
    ∃ s, exec (guarded (fun s => s.step fun _ => true) (Applying 0))
        (beginReload (twoCustomers [8080, 8081] [8082]) movedPorts)
        [.pick 0 8083, .bind 0 .bound, .pick 0 8080, .pick 0 8082, .pick 0 8081, .run 0, .run 0] =
          some s ∧
      s.requests[0]?.bind committed = some ⟨1, 1, 1, 1, 1, []⟩ ∧
      ((∃ a s', Applying 0 s a ∧ s.step (fun _ => true) a = some s') ∨
        ∃ st, s.requests[0]? = some (RequestPc.reloadCommit st) ∧
          st.summary = reloadSummary (some (twoCustomers [8080, 8081] [8082])) movedPorts ∧
          ∀ p, s.portMap.lookup p = reloaded (indexPorts (some (twoCustomers [8080, 8081] [8082])))
            (indexPorts (some movedPorts)) p) := by
  have hmap : Agrees (beginReload (twoCustomers [8080, 8081] [8082]) movedPorts).portMap
      (indexPorts (some (twoCustomers [8080, 8081] [8082]))) := by
    intro p
    rw [beginReload, lookup_foldl_add _ (AList.nodupKeys _)]
    simp [AList.lookup]
  obtain ⟨s, hrun, hsum⟩ := exists_some_of_any
    (x := exec (guarded (fun s => s.step fun _ => true) (Applying 0))
      (beginReload (twoCustomers [8080, 8081] [8082]) movedPorts)
      [.pick 0 8083, .bind 0 .bound, .pick 0 8080, .pick 0 8082, .pick 0 8081, .run 0, .run 0])
    (fun s => s.requests[0]?.bind committed = some ⟨1, 1, 1, 1, 1, []⟩) (by decide)
  exact ⟨s, hrun, hsum, (applyReload_reconciles rfl hmap hrun).2⟩

end Atlax.Analysis
