import Atlax.Analysis.Reloads

/-!
# Mappings and listeners

The port map and the listeners are two tables. A POST and a reload's addition write both, a DELETE
and a reload's removal clear both, a PUT and a reload's update write the map only. With requests
one at a time the two tables agree between requests, as long as mappings are added for unmapped
ports only, no update changes a listen address and no mapping is removed whose listener is still
starting. An update that does so leaves the old socket open under the new address; an addition over
a mapping leaves a second socket behind, or, refused because the first one holds the address, rolls
the mapping back from under it; a removal before the bind leaves a listener that starts unmapped.
-/

set_option autoImplicit false

namespace Atlax.Analysis

open Atlax.Model Atlax.Library

variable {listenAddr : String}

/-- What there is of listeners for one port: the entry in the table, the open sockets, and the
listeners that are starting. -/
structure PortView where
  listener : Option ℕ
  sockets : List Socket
  starting : List (ℤ × String)
  deriving DecidableEq

/-- What there is of listeners for a port. -/
def portView (s : Admin) (p : ℤ) : PortView where
  listener := s.listeners.lookup p
  sockets := s.sockets.filter fun k => k.port = p
  starting := s.starting.filter fun q => q.1 = p

/-- There is none. -/
def PortView.none : PortView := ⟨.none, [], []⟩

/-- One socket is open for the port, it is the one in the table, and it is bound to `addr`. -/
def PortView.Open (v : PortView) (p : ℤ) (addr : String) : Prop :=
  ∃ id, v = ⟨some id, [⟨id, p, addr⟩], []⟩

/-- Nothing is open for the port, and one listener is starting, at `addr`. -/
def PortView.Coming (v : PortView) (p : ℤ) (addr : String) : Prop := v = ⟨.none, [], [(p, addr)]⟩

/-- The port has a listener at its address if it is mapped, and none otherwise. -/
def Serves (s : Admin) (p : ℤ) : Prop :=
  match s.portMap.lookup p with
  | none => portView s p = .none
  | some e => (portView s p).Open p (bindAddr e.listenAddr p) ∨
      (portView s p).Coming p (bindAddr e.listenAddr p)

/-- The names of the sockets are used once. -/
def SocketsFresh (s : Admin) : Prop :=
  (∀ k ∈ s.sockets, k.id < s.nextSocket) ∧ ∀ k ∈ s.sockets, ∀ k' ∈ s.sockets, k.id = k'.id → k = k'

/-- All ports but `p`, or all ports, are served. -/
def ServesBut (s : Admin) (p : Option ℤ) : Prop :=
  SocketsFresh s ∧ ∀ q, some q ≠ p → Serves s q

variable {s s' : Admin} {p port : ℤ} {addr : String}

/-! ## The operations on listeners -/

/-- SOURCE: client_listener.go:50-82 -/
theorem portView_bindPort (s : Admin) (port : ℤ) (addr : String) (p : ℤ) :
    portView (s.bindPort port addr) p =
      if p = port then
        ⟨some s.nextSocket, (portView s p).sockets ++ [⟨s.nextSocket, port, addr⟩],
          (portView s p).starting⟩
      else portView s p := by
  unfold portView Admin.bindPort
  split
  · next h =>
    subst h
    simp
  · next h => simp [AList.lookup_insert_ne h, Ne.symm h]

theorem socketsFresh_bindPort (h : SocketsFresh s) (port : ℤ) (addr : String) :
    SocketsFresh (s.bindPort port addr) := by
  obtain ⟨hlt, hinj⟩ := h
  have cases : ∀ k ∈ (s.bindPort port addr).sockets,
      k ∈ s.sockets ∨ k = ⟨s.nextSocket, port, addr⟩ := by
    intro k hk
    simpa [Admin.bindPort] using hk
  constructor
  · intro k hk
    show k.id < s.nextSocket + 1
    rcases cases k hk with hk | rfl
    · have := hlt k hk
      omega
    · exact Nat.lt_succ_self _
  · intro k hk k' hk' hid
    rcases cases k hk with hk | rfl <;> rcases cases k' hk' with hk' | rfl
    · exact hinj k hk k' hk' hid
    · have := hlt k hk
      simp only at hid
      omega
    · have := hlt k' hk'
      simp only at hid
      omega
    · rfl

/-- Stopping the one listener of a port closes its socket and no other. -/
theorem portView_stopPort (hf : SocketsFresh s) (h : (portView s port).Open port addr) (p : ℤ) :
    portView (s.stopPort port) p = if p = port then .none else portView s p := by
  obtain ⟨id, hv⟩ := h
  have hl : s.listeners.lookup port = some id := congrArg PortView.listener hv
  have hs : s.sockets.filter (fun k => k.port = port) = [⟨id, port, addr⟩] :=
    congrArg PortView.sockets hv
  have hst : s.starting.filter (fun q => q.1 = port) = [] := congrArg PortView.starting hv
  have hmem : (⟨id, port, addr⟩ : Socket) ∈ s.sockets := by
    apply List.mem_of_mem_filter (p := fun k => k.port = port)
    rw [hs]
    exact List.mem_singleton_self _
  have hstop : s.stopPort port = { s with
      sockets := s.sockets.filter fun k => k.id ≠ id
      listeners := s.listeners.erase port } := by
    simp only [Admin.stopPort, hl]
  rw [hstop]
  unfold portView PortView.none
  by_cases hp : p = port
  · subst hp
    have hnone : (s.sockets.filter fun k => k.id ≠ id).filter (fun k => k.port = p) = [] := by
      rw [List.filter_filter, List.filter_eq_nil_iff]
      intro k hk
      simp only [ne_eq, decide_not, Bool.and_eq_true, decide_eq_true_eq, Bool.not_eq_true',
        decide_eq_false_iff_not, not_and, not_not]
      intro hkp
      have hkin : k ∈ s.sockets.filter fun k => k.port = p := by simp [hk, hkp]
      rw [hs, List.mem_singleton] at hkin
      rw [hkin]
    simp only [AList.lookup_erase, hnone, hst, if_true]
  · have hkeep : (s.sockets.filter fun k => k.id ≠ id).filter (fun k => k.port = p) =
        s.sockets.filter fun k => k.port = p := by
      rw [List.filter_filter]
      apply List.filter_congr
      intro k hk
      by_cases hkp : k.port = p
      · -- a socket of another port has another name
        have hid : k.id ≠ id := by
          intro hid
          have heq := hf.2 k hk _ hmem hid
          rw [heq] at hkp
          exact hp hkp.symm
        simp [hkp, hid]
      · simp [hkp]
    simp only [AList.lookup_erase_ne hp, hkeep, if_neg hp]

theorem socketsFresh_stopPort (h : SocketsFresh s) (port : ℤ) : SocketsFresh (s.stopPort port) := by
  have hsub : ∀ k ∈ (s.stopPort port).sockets, k ∈ s.sockets := by
    unfold Admin.stopPort
    split
    · exact fun k hk => hk
    · exact fun k hk => (List.mem_filter.mp hk).1
  have hnext : (s.stopPort port).nextSocket = s.nextSocket := by
    unfold Admin.stopPort
    split <;> rfl
  refine ⟨fun k hk => ?_, fun k hk k' hk' => h.2 k (hsub k hk) k' (hsub k' hk')⟩
  rw [hnext]
  exact h.1 k (hsub k hk)

theorem portView_start (s : Admin) (port : ℤ) (addr : String) (p : ℤ) :
    portView { s with starting := s.starting ++ [(port, addr)] } p =
      if p = port then
        ⟨(portView s p).listener, (portView s p).sockets, (portView s p).starting ++ [(port, addr)]⟩
      else portView s p := by
  unfold portView
  split
  · next h =>
    subst h
    simp
  · next h => simp [Ne.symm h]

/-- A listener has started, or is given up. -/
theorem portView_erase (s : Admin) (port : ℤ) (addr : String) (p : ℤ) :
    portView { s with starting := s.starting.erase (port, addr) } p =
      if p = port then
        ⟨(portView s p).listener, (portView s p).sockets,
          (portView s p).starting.erase (port, addr)⟩
      else portView s p := by
  unfold portView
  rw [← List.erase_filter]
  split
  · rfl
  · next hp =>
    have hnot : (port, addr) ∉ s.starting.filter fun q => q.1 = p := by
      intro hmem
      exact hp (of_decide_eq_true (List.mem_filter.mp hmem).2).symm
    rw [List.erase_of_not_mem hnot]

/-! ## Requests one at a time -/

/-- The request has not answered yet. -/
def unfinished : RequestPc → Bool
  | .done _ => false
  | _ => true

/-- No request is under way. -/
def Idle (s : Admin) : Prop := ∀ pc ∈ s.requests, unfinished pc = false

/-- A listener of the port is starting that nobody waits for. -/
def Starting (s : Admin) (port : ℤ) : Prop := ∃ q ∈ s.starting, q.1 = port

/-- A listener of the relay holds the port. -/
def Taken (s : Admin) (port : ℤ) : Prop := ∃ k ∈ s.sockets, k.port = port

/-- Requests come one at a time, and a bind is refused only where another listener holds the
port. -/
def InOrder (s : Admin) : AdminAction → Prop
  | .post _ | .put _ _ | .delete _ | .reload => Idle s
  | .bind i (.refused _) =>
    match s.requests[i]? with
    | some (.createWait req) => Taken s req.port
    | some (.reloadWait _ port _) => Taken s port
    | _ => True
  | .listen port _ bound => bound = true ∨ Taken s port
  | _ => True

/-- A mapping is added for unmapped ports only, an update leaves the listen address as it is, and a
mapping is removed only when no listener of its port is starting. -/
def KeepsAddresses (s : Admin) : AdminAction → Prop
  | .run i =>
    match s.requests[i]? with
    | some (.createAdd req) => req.port ∉ s.portMap
    | some (.updateApply port existing req) => ∀ e ∈ s.portMap.lookup port,
        (mergePortUpdate existing req).listenAddr = e.listenAddr
    | some (.deleteRemove port _) => ¬ Starting s port
    | _ => True
  | .pick i port =>
    match s.requests[i]? with
    | some (.reloadPorts st) =>
        (∀ entry ∈ st.newIdx.lookup port,
          match st.oldIdx.lookup port with
          | none => port ∉ s.portMap
          | some old => old.customerID = entry.customerID →
              portMutableFieldsDiffer old entry = true →
              ∀ e ∈ s.portMap.lookup port, entry.listenAddr = e.listenAddr) ∧
        (port ∈ st.removes → ¬ Starting s port)
    | _ => True
  | _ => True

instance (s : Admin) : Decidable (Idle s) := List.decidableBAll _ _

instance (s : Admin) (port : ℤ) : Decidable (Starting s port) := List.decidableBEx _ _

instance (s : Admin) (a : AdminAction) : Decidable (InOrder s a) := by
  unfold InOrder Taken
  induction a with
  | bind i b =>
    induction b with
    | refused msg =>
      dsimp only
      match s.requests[i]? with
      | none => infer_instance
      | some pc => induction pc <;> infer_instance
    | _ => infer_instance
  | _ => infer_instance

instance (s : Admin) (a : AdminAction) : Decidable (KeepsAddresses s a) := by
  unfold KeepsAddresses
  induction a with
  | run i =>
    dsimp only
    match s.requests[i]? with
    | none => infer_instance
    | some pc => induction pc <;> infer_instance
  | pick i port =>
    dsimp only
    match s.requests[i]? with
    | none => infer_instance
    | some pc =>
      induction pc with
      | reloadPorts st =>
        dsimp only
        match st.oldIdx.lookup port with
        | none | some _ => infer_instance
      | _ => infer_instance
  | _ => infer_instance

/-- The port whose mapping and listener a request has changed one of. -/
def between : RequestPc → Option ℤ
  | .createWait req => some req.port
  | .deleteStop port | .reloadWait _ port _ | .reloadStop _ port => some port
  | _ => none

/-- The port is mapped at `addr`, and nothing is open for it. -/
def Awaits (s : Admin) (port : ℤ) (listenAddr : String) : Prop :=
  portView s port = .none ∧ ∃ e, s.portMap.lookup port = some e ∧ e.listenAddr = listenAddr

/-- The port is not mapped, and its listener is open. -/
def Abandons (s : Admin) (port : ℤ) : Prop :=
  s.portMap.lookup port = none ∧ ∃ addr, (portView s port).Open port addr

/-- What a request at `pc` can rely on besides. -/
def Pending (s : Admin) : RequestPc → Prop
  | .createWait req => Awaits s req.port (defaultAddr req.listenAddr)
  | .createRollback _ _ | .reloadRollback _ _ _ => False
  | .deleteStop port | .reloadStop _ port => Abandons s port
  | .reloadWait _ port entry => Awaits s port entry.listenAddr
  | _ => True

/-- What holds while the request stands at `pc`. -/
def ListenerStage (s : Admin) (pc : RequestPc) : Prop := ServesBut s (between pc) ∧ Pending s pc

/-- Requests follow one another, and each leaves every port served. -/
abbrev OneByOne (s : Admin) : Prop :=
  Exclusive unfinished ListenerStage (fun s => ServesBut s none) s.requests s

variable {isIP : String → Bool} {a : AdminAction} {t : Option ℤ}

theorem serves_congr (hmap : s'.portMap.lookup p = s.portMap.lookup p)
    (hview : portView s' p = portView s p) (h : Serves s p) : Serves s' p := by
  unfold Serves at h ⊢
  rwa [hmap, hview]

/-- A request turns to one port. -/
theorem ServesBut.leave (h : ServesBut s none) (hf : SocketsFresh s')
    (hmap : ∀ q, q ≠ port → s'.portMap.lookup q = s.portMap.lookup q)
    (hview : ∀ q, q ≠ port → portView s' q = portView s q) : ServesBut s' (some port) := by
  refine ⟨hf, fun q hq => ?_⟩
  have hne : q ≠ port := fun heq => hq (congrArg some heq)
  exact serves_congr (hmap q hne) (hview q hne) (h.2 q nofun)

/-- A request is done with its port. -/
theorem ServesBut.settle (h : ServesBut s (some port)) (hf : SocketsFresh s')
    (hmap : ∀ q, q ≠ port → s'.portMap.lookup q = s.portMap.lookup q)
    (hview : ∀ q, q ≠ port → portView s' q = portView s q) (hport : Serves s' port) :
    ServesBut s' none := by
  refine ⟨hf, fun q _ => ?_⟩
  by_cases hq : q = port
  · subst hq
    exact hport
  · refine serves_congr (hmap q hq) (hview q hq) (h.2 q fun heq => hq (Option.some.inj heq))

theorem ServesBut.weaken (h : ServesBut s none) : ServesBut s t := ⟨h.1, fun q _ => h.2 q nofun⟩

theorem Serves.mapped {e : PortEntry} (h : Serves s p) (he : s.portMap.lookup p = some e) :
    (portView s p).Open p (bindAddr e.listenAddr p) ∨
      (portView s p).Coming p (bindAddr e.listenAddr p) := by
  unfold Serves at h
  rwa [he] at h

theorem Serves.unmapped (h : Serves s p) (he : s.portMap.lookup p = none) :
    portView s p = .none := by
  unfold Serves at h
  rwa [he] at h

theorem serves_of_mapped {e : PortEntry} (he : s.portMap.lookup p = some e)
    (h : (portView s p).Open p (bindAddr e.listenAddr p) ∨
      (portView s p).Coming p (bindAddr e.listenAddr p)) : Serves s p := by
  unfold Serves
  rwa [he]

theorem serves_of_unmapped (he : s.portMap.lookup p = none) (h : portView s p = .none) :
    Serves s p := by
  unfold Serves
  rwa [he]

/-! ## The sections of a request -/

/-- The mapping of an unmapped port is written. -/
theorem ServesBut.add (h : ServesBut s none) (hport : port ∉ s.portMap)
    (customerID service : String)
    (listenAddr : String) (maxStreams : ℤ) (i : ℕ) (pc : RequestPc) :
    let s' := { s with
      portMap := s.portMap.addPortMapping customerID port service listenAddr
        maxStreams }.setRequest i pc
    ServesBut s' (some port) ∧ Awaits s' port listenAddr := by
  refine ⟨h.leave h.1 ?_ fun _ _ => rfl, ?_, ?_⟩
  · intro q hq
    rw [portMap_setRequest, PortMap.lookup_add, if_neg hq]
  · exact (h.2 port nofun).unmapped (AList.lookup_eq_none.mpr hport)
  · refine ⟨⟨customerID, service, maxStreams, listenAddr⟩, ?_, rfl⟩
    rw [portMap_setRequest, PortMap.lookup_add, if_pos rfl]

/-- The listener of a new mapping is bound, or goes on starting. -/
theorem ServesBut.started (h : ServesBut s (some port))
    (hw : Awaits s port listenAddr) (i : ℕ) (b : Bind) (hb : ∀ err, b ≠ .refused err)
    (next : RequestPc) (rollback : String → RequestPc) :
    ServesBut (s.started i port (bindAddr listenAddr port) b next rollback) none := by
  obtain ⟨hview, e, he, rfl⟩ := hw
  cases b with
  | refused err => exact absurd rfl (hb err)
  | bound =>
    refine h.settle (socketsFresh_bindPort h.1 _ _) (fun _ _ => rfl) ?_ ?_
    · intro q hq
      exact (portView_bindPort s port _ q).trans (if_neg hq)
    · refine serves_of_mapped (show s.portMap.lookup port = some e from he)
        (.inl ⟨s.nextSocket, ?_⟩)
      refine (portView_bindPort s port _ port).trans ?_
      rw [if_pos rfl, hview]
      rfl
  | slow =>
    refine h.settle h.1 (fun _ _ => rfl) ?_ ?_
    · intro q hq
      exact (portView_start s port _ q).trans (if_neg hq)
    · refine serves_of_mapped (show s.portMap.lookup port = some e from he) (.inr ?_)
      refine (portView_start s port _ port).trans ?_
      rw [if_pos rfl, hview]
      rfl

/-- The mapping is replaced, and its listen address stays. -/
theorem ServesBut.update {m : PortMap} {service listenAddr : String} {maxStreams : ℤ}
    (h : ServesBut s none)
    (hm : s.portMap.updatePortMapping port service listenAddr maxStreams = .ok m)
    (haddr : ∀ e ∈ s.portMap.lookup port, listenAddr = e.listenAddr) (i : ℕ) (pc : RequestPc) :
    ServesBut ({ s with portMap := m }.setRequest i pc) none := by
  obtain ⟨e, he, hlook⟩ := PortMap.lookup_update _ hm
  have hkeep := (h.2 port nofun).mapped he
  have hbut : ServesBut s (some port) := h.weaken
  refine hbut.settle h.1 ?_ (fun _ _ => rfl) ?_
  · intro q hq
    rw [portMap_setRequest, hlook, if_neg hq]
  · refine serves_of_mapped (e := ⟨e.customerID, service, maxStreams, listenAddr⟩) ?_ ?_
    · rw [portMap_setRequest, hlook, if_pos rfl]
    · rw [haddr e he]
      exact hkeep

/-- The mapping of a port is removed whose listener is not just starting. -/
theorem ServesBut.remove {m : PortMap} {customerID : String} (h : ServesBut s none)
    (hm : s.portMap.removePortMapping customerID port = .ok m) (hst : ¬ Starting s port) (i : ℕ)
    (pc : RequestPc) :
    ServesBut ({ s with portMap := m }.setRequest i pc) (some port) ∧
      Abandons ({ s with portMap := m }.setRequest i pc) port := by
  obtain ⟨⟨e, he, _⟩, hlook⟩ := PortMap.lookup_remove _ hm
  refine ⟨h.leave h.1 ?_ fun _ _ => rfl, ?_, bindAddr e.listenAddr port, ?_⟩
  · intro q hq
    rw [portMap_setRequest, hlook, if_neg hq]
  · rw [portMap_setRequest, hlook, if_pos rfl]
  · rcases (h.2 port nofun).mapped he with hopen | hcoming
    · exact hopen
    · have hst' : s.starting.filter (fun q => q.1 = port) = [(port, bindAddr e.listenAddr port)] :=
        congrArg PortView.starting hcoming
      have hmem : (port, bindAddr e.listenAddr port) ∈ s.starting := by
        apply List.mem_of_mem_filter (p := fun q => q.1 = port)
        rw [hst']
        exact List.mem_singleton_self _
      exact absurd ⟨_, hmem, rfl⟩ hst

/-- The listener of a removed mapping is stopped. -/
theorem ServesBut.stop (h : ServesBut s (some port)) (ha : Abandons s port) (i : ℕ)
    (pc : RequestPc) : ServesBut ((s.stopPort port).setRequest i pc) none := by
  obtain ⟨hmap, addr, hopen⟩ := ha
  have hview := portView_stopPort h.1 hopen
  refine h.settle (socketsFresh_stopPort h.1 port) ?_ ?_ ?_
  · intro q _
    rw [portMap_setRequest, portMap_stopPort]
  · intro q hq
    exact (hview q).trans (if_neg hq)
  · apply serves_of_unmapped
    · rw [portMap_setRequest, portMap_stopPort, hmap]
    · exact (hview port).trans (if_pos rfl)

/-- A listener that nobody waits for belongs to a mapped port that has no other. -/
theorem ServesBut.coming (h : ServesBut s t) (hmem : (port, addr) ∈ s.starting)
    (ht : ∀ q, t = some q → (portView s q).starting = []) :
    t ≠ some port ∧ (portView s port).Coming port addr ∧
      ∃ e, s.portMap.lookup port = some e ∧ addr = bindAddr e.listenAddr port := by
  have hin : (port, addr) ∈ (portView s port).starting := by simp [portView, hmem]
  have hne : t ≠ some port := by
    intro heq
    rw [ht port heq] at hin
    cases hin
  have hserves := h.2 port (Ne.symm hne)
  refine ⟨hne, ?_⟩
  unfold Serves at hserves
  split at hserves
  · rw [hserves] at hin
    cases hin
  · next e he =>
    rcases hserves with ⟨id, hopen⟩ | hcoming
    · rw [hopen] at hin
      cases hin
    · rw [hcoming] at hin
      obtain rfl : addr = bindAddr e.listenAddr port := by simpa using hin
      exact ⟨hcoming, e, he, rfl⟩

/-- A socket holds the port. -/
theorem taken_iff : Taken s port ↔ (portView s port).sockets ≠ [] := by
  simp [Taken, portView]

/-- A request waits for a free port only. -/
theorem Awaits.not_taken (h : Awaits s port listenAddr) : ¬ Taken s port := by
  rw [taken_iff, h.1]
  exact fun hne => hne rfl

/-- A listener that nobody waits for is bound. -/
theorem ServesBut.listen (h : ServesBut s t) (hmem : (port, addr) ∈ s.starting)
    (ht : ∀ q, t = some q → (portView s q).starting = []) :
    let s' := { s with starting := s.starting.erase (port, addr) }.bindPort port addr
    ServesBut s' t ∧ ∀ q, t = some q → portView s' q = portView s q := by
  intro s'
  obtain ⟨hne, hcoming, e, he, rfl⟩ := h.coming hmem ht
  have hview : ∀ q, q ≠ port → portView s' q = portView s q := by
    intro q hq
    exact (portView_bindPort _ port _ q).trans ((if_neg hq).trans
      ((portView_erase s port _ q).trans (if_neg hq)))
  have hport : portView s' port =
      ⟨some s.nextSocket, [⟨s.nextSocket, port, bindAddr e.listenAddr port⟩], []⟩ := by
    refine (portView_bindPort _ port _ port).trans ?_
    rw [if_pos rfl, portView_erase, if_pos rfl, hcoming]
    simp
  refine ⟨⟨socketsFresh_bindPort h.1 _ _, fun q hq => ?_⟩, fun q hq => hview q ?_⟩
  · by_cases hqp : q = port
    · subst hqp
      exact serves_of_mapped (show s'.portMap.lookup q = some e from he) (.inl ⟨_, hport⟩)
    · exact serves_congr (s := s) rfl (hview q hqp) (h.2 q hq)
  · rintro rfl
    exact hne hq

/-- A port that a request has in hand has no listener that nobody waits for. -/
theorem pending_starting {pc : RequestPc} (h : Pending s pc) (hq : between pc = some p) :
    (portView s p).starting = [] := by
  have awaits : ∀ {addr}, Awaits s p addr → (portView s p).starting = [] := by
    rintro addr ⟨hview, -⟩
    rw [hview]
    rfl
  have abandons : Abandons s p → (portView s p).starting = [] := by
    rintro ⟨-, _, _, hview⟩
    rw [hview]
  cases pc <;> cases hq
  · exact awaits h
  · exact abandons h
  · exact awaits h
  · exact abandons h

/-- A request relies on its port only. -/
theorem pending_congr {pc : RequestPc} (hmap : s'.portMap = s.portMap)
    (hview : ∀ q, between pc = some q → portView s' q = portView s q) (h : Pending s pc) :
    Pending s' pc := by
  have awaits : ∀ {port addr}, between pc = some port → Awaits s port addr →
      Awaits s' port addr := by
    intro port addr hport hw
    unfold Awaits at hw ⊢
    rwa [hview port hport, hmap]
  have abandons : ∀ {port}, between pc = some port → Abandons s port → Abandons s' port := by
    intro port hport ha
    unfold Abandons at ha ⊢
    rwa [hview port hport, hmap]
  cases pc with
  | createWait | reloadWait => exact awaits rfl h
  | deleteStop | reloadStop => exact abandons rfl h
  | createRollback | reloadRollback => exact h
  | createAdd | updateGet | updateApply | deleteLookup | deleteRemove | reloadLock | reloadLoad
  | reloadPorts | reloadCommit | snapshot | save | done => trivial

/-! ## The moves -/

section Moves

variable {i : ℕ} {pc next : RequestPc}

/-- A request arrives.
SOURCE: admin.go:394-419, 487-491; admin_reload.go:65-93 -/
theorem OneByOne.arrive (h : OneByOne s) (hidle : Idle s) (hb : between pc = none)
    (hp : ∀ s, Pending s pc) : OneByOne (s.addRequest pc) := by
  have hrest := h.rest hidle
  refine Exclusive.add hidle (fun _ => ⟨?_, hp _⟩) fun _ => hrest
  rw [hb]
  exact hrest

/-- A listener of the port that a request waits for is bound, or goes on starting.
SOURCE: admin.go:438-450; admin_reload.go:215-228 -/
theorem OneByOne.bind {b : Bind} {rollback : String → RequestPc}
    (h : OneByOne s) (hpc : s.requests[i]? = some pc) (hbetween : between pc = some port)
    (hw : Awaits s port listenAddr) (hfree : ∀ err, b = .refused err → Taken s port)
    (hactive : unfinished pc = true) (hnext : unfinished next = true)
    (hb : between next = none) (hp : ∀ s, Pending s next) :
    OneByOne (s.started i port (bindAddr listenAddr port) b next rollback) := by
  have hserves := (h.at hpc hactive).1
  rw [hbetween] at hserves
  have hnot : ∀ err, b ≠ .refused err := fun err hr => hw.not_taken (hfree err hr)
  unfold OneByOne
  rw [requests_started s i _ _ hnot]
  refine h.move hpc hactive hnext ⟨?_, hp _⟩
  rw [hb]
  exact hserves.started hw i b hnot _ _

/-- The listener of the mapping that a request has removed is stopped.
SOURCE: admin.go:614-617; admin_reload.go:243-246 -/
theorem OneByOne.stop (h : OneByOne s) (hpc : s.requests[i]? = some pc)
    (hbetween : between pc = some port) (ha : Abandons s port) (hactive : unfinished pc = true)
    (hnext : unfinished next = true) (hb : between next = none) (hp : ∀ s, Pending s next) :
    OneByOne ((s.stopPort port).setRequest i next) := by
  have hserves := (h.at hpc hactive).1
  rw [hbetween] at hserves
  unfold OneByOne
  rw [requests_setRequest, requests_stopPort]
  refine h.move hpc hactive hnext ⟨?_, hp _⟩
  rw [hb]
  exact hserves.stop ha i _

/-- The outcomes of the listeners that a POST and a reload wait for. -/
theorem oneByOne_bind {b : Bind} (h : OneByOne s) (hok : InOrder s (.bind i b))
    (hm : AdminMove isIP s (.bind i b) s') : OneByOne s' := by
  cases hm with
  | malformed a text ha => simp at ha
  | createBind _ req _ hpc | reloadBind _ st port entry _ hpc =>
    refine h.bind hpc rfl (h.at hpc rfl).2 ?_ rfl rfl rfl fun _ => trivial
    rintro err rfl
    simpa [InOrder, hpc] using hok

/-- The sections of a request that find the lock of the router or of the listeners free. -/
theorem oneByOne_run (h : OneByOne s) (haddr : KeepsAddresses s (.run i))
    (hm : AdminMove isIP s (.run i) s') : OneByOne s' := by
  cases hm with
  | malformed a text ha => simp at ha
  | createAdd _ req hpc =>
    have hport : req.port ∉ s.portMap := by simpa [KeepsAddresses, hpc] using haddr
    exact h.move hpc rfl rfl ((h.at hpc rfl).1.add hport _ _ _ _ i _)
  | createRollback _ req err hpc => exact (h.at hpc rfl).2.elim
  | updateApply _ port existing req m hpc hm =>
    have hkeep : ∀ e ∈ s.portMap.lookup port,
        (mergePortUpdate existing req).listenAddr = e.listenAddr := by
      simpa [KeepsAddresses, hpc] using haddr
    exact h.move hpc rfl rfl ⟨(h.at hpc rfl).1.update hm hkeep i _, trivial⟩
  | deleteRemove _ port customerID m hpc hm =>
    have hst : ¬ Starting s port := by simpa [KeepsAddresses, hpc] using haddr
    exact h.move hpc rfl rfl ((h.at hpc rfl).1.remove hm hst i _)
  | deleteStop _ port hpc | reloadStop _ st port hpc =>
    exact h.stop hpc rfl (h.at hpc rfl).2 rfl rfl rfl fun _ => trivial
  | miss _ pc status text hpc hkind =>
    rcases hkind with ⟨_, _, rfl⟩ | ⟨_, _, _, rfl⟩ | ⟨_, rfl⟩ | ⟨_, _, rfl⟩ <;>
      exact h.retire hpc rfl rfl (h.at hpc rfl).1
  | reloadRollback _ st port entry hpc => exact (h.at hpc rfl).2.elim
  | reloadLimits _ st hpc hadds hremoves =>
    obtain ⟨limiters, hlim⟩ := applyRateLimitChanges_eq s st.oldCfg (some st.newCfg)
    rw [hlim]
    exact h.move hpc rfl rfl ⟨(h.at hpc rfl).1, trivial⟩
  | updateGet _ _ _ _ hpc | deleteLookup _ _ _ _ hpc | reloadLock _ hpc | reloadCommit _ _ hpc
  | snapshot _ _ hpc =>
    exact h.move hpc rfl rfl ⟨(h.at hpc rfl).1, trivial⟩
  | answer _ r hpc hstore =>
    obtain ⟨reloading, hfin⟩ := finish_eq s i r
    rw [hfin]
    exact h.retire hpc rfl rfl (h.at hpc rfl).1

/-- The ports of the config that a reload takes up. -/
theorem oneByOne_pick (h : OneByOne s) (haddr : KeepsAddresses s (.pick i port))
    (hm : AdminMove isIP s (.pick i port) s') : OneByOne s' := by
  cases hm with
  | malformed a text ha => simp at ha
  | reloadAdd _ st _ entry hpc hadd hnew hold =>
    have hport : port ∉ s.portMap := by
      simp only [KeepsAddresses, hpc] at haddr
      simpa [hold] using haddr.1 entry hnew
    exact h.move hpc rfl rfl ((h.at hpc rfl).1.add hport _ _ _ _ i _)
  | reloadUpdate _ st _ entry old m hpc hadd hnew hold hcust hdiff hm =>
    have hkeep : ∀ e ∈ s.portMap.lookup port, entry.listenAddr = e.listenAddr := by
      simp only [KeepsAddresses, hpc] at haddr
      simpa [hold, hcust, hdiff] using haddr.1 entry hnew
    exact h.move hpc rfl rfl ⟨(h.at hpc rfl).1.update hm hkeep i _, trivial⟩
  | reloadRemove _ st _ old m hpc hadds hrem hold hm =>
    have hst : ¬ Starting s port := by
      simp only [KeepsAddresses, hpc] at haddr
      exact haddr.2 hrem
    exact h.move hpc rfl rfl ((h.at hpc rfl).1.remove hm hst i _)
  | reloadReject _ _ _ _ _ hpc | reloadUpdateMiss _ _ _ _ _ hpc | reloadSame _ _ _ _ _ hpc
  | reloadRemoveMiss _ _ _ _ _ hpc =>
    exact h.move hpc rfl rfl ⟨(h.at hpc rfl).1, trivial⟩

/-- A listener that nobody waits for binds, or fails where another one holds the port.
SOURCE: client_listener.go:50-76 -/
theorem oneByOne_listen {bound : Bool} (h : OneByOne s) (hok : InOrder s (.listen port addr bound))
    (hm : AdminMove isIP s (.listen port addr bound) s') : OneByOne s' := by
  cases hm with
  | malformed a text ha => simp at ha
  | listen _ _ hmem =>
    refine Exclusive.keep h ?_ ?_
    · rintro pc - - ⟨hserves, hp⟩
      obtain ⟨hserves', hview⟩ := hserves.listen hmem fun q hq => pending_starting hp hq
      exact ⟨hserves', pending_congr (s := s) rfl hview hp⟩
    · intro hserves
      exact (ServesBut.listen hserves hmem nofun).1
  | listenFail _ _ hmem =>
    -- it was bound for a port that no other listener holds
    have hfree : ∀ {t}, ServesBut s t → (∀ q, t = some q → (portView s q).starting = []) →
        False := by
      intro t hserves ht
      have htaken : Taken s port := by simpa [InOrder] using hok
      apply taken_iff.mp htaken
      rw [(hserves.coming hmem ht).2.1]
    refine Exclusive.keep h ?_ ?_
    · rintro pc - - ⟨hserves, hp⟩
      exact (hfree hserves fun q hq => pending_starting hp hq).elim
    · intro hserves
      exact (hfree hserves nofun).elim

end Moves

/-- No step takes map and listeners apart. -/
theorem oneByOne_move (h : OneByOne s) (hok : InOrder s a) (haddr : KeepsAddresses s a)
    (hm : AdminMove isIP s a s') : OneByOne s' := by
  cases a with
  | run i => exact oneByOne_run h haddr hm
  | bind i b => exact oneByOne_bind h hok hm
  | pick i port => exact oneByOne_pick h haddr hm
  | listen port addr bound => exact oneByOne_listen h hok hm
  | post | put | delete | reload => cases hm <;> exact h.arrive hok rfl fun _ => trivial
  | load i file =>
    cases hm with
    | malformed _ _ ha => simp at ha
    | reloadInvalid _ _ text hpc => exact h.retire hpc rfl rfl (h.at hpc rfl).1
    | reloadStart _ _ cfg idx hpc => exact h.move hpc rfl rfl ⟨(h.at hpc rfl).1, trivial⟩
  | save i written =>
    cases hm with
    | malformed _ _ ha => simp at ha
    | save _ r ports _ file hpc =>
      obtain ⟨reloading, hfin⟩ := finish_eq { s with sidecar := file } i r
      rw [hfin]
      exact h.retire hpc rfl rfl (h.at hpc rfl).1

theorem filter_map_entries (f : ℤ → PortIndexEntry → String)
    (l : List (Sigma fun _ : ℤ => PortIndexEntry)) (hl : l.NodupKeys) (p : ℤ) :
    (l.map fun e => (e.1, f e.1 e.2)).filter (fun q => q.1 = p) =
      ((l.dlookup p).map fun e => (p, f p e)).toList := by
  induction l with
  | nil => rfl
  | cons e l ih =>
    obtain ⟨q, e⟩ := e
    obtain ⟨hq, hl⟩ := List.nodupKeys_cons.mp hl
    rw [List.map_cons, List.filter_cons, ih hl]
    by_cases hp : q = p
    · subst hp
      rw [List.dlookup_cons_eq, List.dlookup_eq_none.mpr hq]
      simp
    · rw [List.dlookup_cons_ne _ _ (Ne.symm hp)]
      simp [hp]

/-- A relay that has just started is starting a listener for each mapped port. -/
theorem servesBut_boot {file : Except String RelayConfig} {sidecar : SidecarFile}
    (h : boot isIP file sidecar = .ok s) : ServesBut s none := by
  obtain ⟨_, _, index, _, _, _, hmap, hstart, hl, hs, _⟩ := boot_eq h
  refine ⟨by simp [SocketsFresh, hs], fun p _ => ?_⟩
  have hview : portView s p =
      ⟨none, [], ((index.lookup p).map fun e => (p, bindAddr e.listenAddr p)).toList⟩ := by
    unfold portView
    rw [hl, hs, hstart, filter_map_entries (fun p e => bindAddr e.listenAddr p) _ index.nodupKeys]
    rfl
  have hlook := hmap p
  cases he : index.lookup p with
  | none =>
    rw [he] at hview hlook
    exact serves_of_unmapped hlook hview
  | some e =>
    rw [he] at hview hlook
    exact serves_of_mapped hlook (.inr hview)

/-- In every run. -/
theorem oneByOne_reach {file : Except String RelayConfig} {sidecar : SidecarFile} {s₀ : Admin}
    (hboot : boot isIP file sidecar = .ok s₀)
    (h : AdminReach isIP (fun s a => InOrder s a ∧ KeepsAddresses s a) s₀ s) : OneByOne s := by
  refine Reach.invariant OneByOne h ?_ ?_
  · obtain ⟨_, _, _, _, _, _, _, _, _, _, hreq⟩ := boot_eq hboot
    unfold OneByOne
    rw [hreq]
    exact ⟨by simp, by simp, fun _ => servesBut_boot hboot⟩
  · intro s a s' _ hI hok hstep
    exact oneByOne_move hI hok.1 hok.2 (admin_move hstep)

/-- Along any run from a start in which requests come one at a time, a bind is refused only where a
listener holds the port, mappings are added for unmapped ports only, no update changes a listen
address and none is removed whose listener is starting: between requests, of the ports with no
listener starting those with a listener are the mapped ones, and each mapped one has exactly one
socket, the one in the table, bound to the address of its entry, which is the one entry for the port
in GET /ports. An unmapped port has no listener starting.
SOURCE: admin.go:400-640; admin_reload.go:150-278; client_listener.go:50-82, 148-161 -/
theorem listeners_follow_map {file : Except String RelayConfig} {sidecar : SidecarFile} {s₀ : Admin}
    (hboot : boot isIP file sidecar = .ok s₀)
    (h : AdminReach isIP (fun s a => InOrder s a ∧ KeepsAddresses s a) s₀ s) (hidle : Idle s)
    (p : ℤ) :
    (¬ Starting s p → (p ∈ s.listeners ↔ p ∈ s.portMap) ∧
      ∀ e ∈ s.portMap.lookup p,
        (∀ info, info ∈ s.portMap.listPorts ∧ info.port = p ↔ info = e.info p) ∧
        ∃ id, s.listeners.lookup p = some id ∧
          s.sockets.filter (fun k => k.port = p) = [⟨id, p, bindAddr e.listenAddr p⟩]) ∧
      (p ∉ s.portMap → ¬ Starting s p ∧ ∀ k ∈ s.sockets, k.port ≠ p) := by
  have hserves : Serves s p := ((oneByOne_reach hboot h).rest hidle).2 p nofun
  rw [← AList.lookup_isSome, ← AList.lookup_isSome]
  cases he : s.portMap.lookup p with
  | none =>
    have hview := hserves.unmapped he
    have hl : s.listeners.lookup p = none := congrArg PortView.listener hview
    have hs : s.sockets.filter (fun k => k.port = p) = [] := congrArg PortView.sockets hview
    have hst : s.starting.filter (fun q => q.1 = p) = [] := congrArg PortView.starting hview
    refine ⟨fun _ => ⟨by simp [hl], nofun⟩, fun _ => ⟨?_, fun k hk => ?_⟩⟩
    · rintro ⟨q, hq, hqp⟩
      exact absurd hqp (by simpa using List.filter_eq_nil_iff.mp hst q hq)
    · simpa using List.filter_eq_nil_iff.mp hs k hk
  | some e =>
    refine ⟨fun hnot => ?_, by simp⟩
    obtain ⟨id, hview⟩ : (portView s p).Open p (bindAddr e.listenAddr p) := by
      rcases hserves.mapped he with hopen | hcoming
      · exact hopen
      · have hst : s.starting.filter (fun q => q.1 = p) = [(p, bindAddr e.listenAddr p)] :=
          congrArg PortView.starting hcoming
        have hmem : (p, bindAddr e.listenAddr p) ∈ s.starting.filter fun q => q.1 = p := by
          rw [hst]
          exact List.mem_singleton_self _
        exact absurd ⟨_, List.mem_of_mem_filter hmem, rfl⟩ hnot
    have hl : s.listeners.lookup p = some id := congrArg PortView.listener hview
    have hs : s.sockets.filter (fun k => k.port = p) = [⟨id, p, bindAddr e.listenAddr p⟩] :=
      congrArg PortView.sockets hview
    refine ⟨by simp [hl], ?_⟩
    rintro _ ⟨⟩
    refine ⟨fun info => ⟨?_, ?_⟩, id, hl, hs⟩
    · rintro ⟨hmem, rfl⟩
      obtain ⟨e', he', hinfo⟩ := (PortMap.mem_listPorts _).mp hmem
      rw [he] at he'
      cases he'
      exact hinfo
    · rintro rfl
      exact ⟨(PortMap.mem_listPorts _).mpr ⟨e, he, rfl⟩, rfl⟩

/-- A POST while a listener of the start is still to bind, a PUT of the service, a reload that adds
a port slowly and drops another, and a DELETE before the slow listener has bound. -/
theorem listeners_follow_map_requests :
    ∃ s₀ s, boot (fun _ => true) (.ok (twoCustomers [8080] [8081])) .missing = .ok s₀ ∧
      AdminReach (fun _ => true) (fun s a => InOrder s a ∧ KeepsAddresses s a) s₀ s ∧ Idle s ∧
      s.portMap.keys = [8082, 8080] ∧ s.starting = [(8082, "0.0.0.0:8082")] ∧
      (8080 ∈ s.listeners ↔ 8080 ∈ s.portMap) ∧
      (8081 ∉ s.portMap → ¬ Starting s 8081 ∧ ∀ k ∈ s.sockets, k.port ≠ 8081) := by
  obtain ⟨s₀, s, hb, hr, hkeys, hidle, hst⟩ := exists_boot_of_exec
    (fun _ => true) (.ok (twoCustomers [8080] [8081])) .missing
    (fun s a => InOrder s a ∧ KeepsAddresses s a)
    [.listen 8081 "0.0.0.0:8081" true, postPort 7070 "globex", .run 0, .bind 0 .bound, .run 0,
      .save 0 true, .listen 8080 "0.0.0.0:8080" true,
      .put 8080 (some { service := "smtp" }), .run 1, .run 1, .run 1, .save 1 true,
      .reload, .run 2, .load 2 (.ok (twoCustomers [8080, 8082] [])), .pick 2 8080, .pick 2 8082,
      .bind 2 .slow, .pick 2 8081, .run 2, .run 2, .run 2, .run 2, .save 2 true,
      .delete 7070, .run 3, .run 3, .run 3, .run 3, .save 3 false]
    (fun _ s => s.portMap.keys = [8082, 8080] ∧ Idle s ∧ s.starting = [(8082, "0.0.0.0:8082")])
    (by decide)
  have hnot : ¬ Starting s 8080 := by simp [Starting, hst]
  exact ⟨s₀, s, hb, hr, hidle, hkeys, hst, ((listeners_follow_map hb hr hidle 8080).1 hnot).1,
    (listeners_follow_map hb hr hidle 8081).2⟩

/-- Three runs, requests one at a time, after which map and listeners differ. A PUT narrows the
listen address to 127.0.0.1 and is answered with it, and the socket stays on all addresses. A POST
for a mapped port is refused because its own listener holds the port, and the rollback takes the
mapping that was there before; the listener stays open. A POST is answered before its listener has
bound, a DELETE finds nothing to stop, and the listener then opens for a port without a mapping. -/
theorem listener_left_behind :
    (∃ s₀ s, boot (fun _ => true) (.ok (twoCustomers [8080] [])) .missing = .ok s₀ ∧
      AdminReach (fun _ => true) InOrder s₀ s ∧ Idle s ∧ s.starting = [] ∧
      s.requests = [.done (.port 200 ⟨8080, "acme", "ssh", 0, "127.0.0.1"⟩)] ∧
      s.portMap.lookup 8080 = some ⟨"acme", "ssh", 0, "127.0.0.1"⟩ ∧
      s.sockets = [⟨0, 8080, "0.0.0.0:8080"⟩]) ∧
    (∃ s₀ s, boot (fun _ => true) (.ok (twoCustomers [8080] [])) .missing = .ok s₀ ∧
      AdminReach (fun _ => true) InOrder s₀ s ∧ Idle s ∧ s.starting = [] ∧
      s.portMap.keys = [] ∧ s.listeners.lookup 8080 = some 0 ∧
      s.sockets = [⟨0, 8080, "0.0.0.0:8080"⟩]) ∧
    (∃ s₀ s, boot (fun _ => true) (.ok (twoCustomers [] [])) .missing = .ok s₀ ∧
      AdminReach (fun _ => true) InOrder s₀ s ∧ Idle s ∧ s.starting = [] ∧
      s.portMap.keys = [] ∧ s.listeners.lookup 7070 = some 0 ∧
      s.sockets = [⟨0, 7070, "0.0.0.0:7070"⟩]) := by
  refine ⟨?_, ?_, ?_⟩
  · exact exists_boot_of_exec (fun _ => true) _ _ InOrder
      [.listen 8080 "0.0.0.0:8080" true, .put 8080 (some { listenAddr := "127.0.0.1" }), .run 0,
        .run 0, .run 0, .save 0 true]
      _ (by decide)
  · exact exists_boot_of_exec (fun _ => true) _ _ InOrder
      [.listen 8080 "0.0.0.0:8080" true, postPort 8080 "acme", .run 0,
        .bind 0 (.refused "address already in use"), .run 0]
      _ (by decide)
  · exact exists_boot_of_exec (fun _ => true) _ _ InOrder
      [postPort 7070 "acme", .run 0, .bind 0 .slow, .run 0, .save 0 true, .delete 7070, .run 1,
        .run 1, .run 1, .run 1, .save 1 true, .listen 7070 "0.0.0.0:7070" true]
      _ (by decide)

end Atlax.Analysis
