import Atlax.Analysis.Provenance
import Atlax.Library.Processes
import Atlax.Model.Registry

/-!
# What the registry holds

Register and Unregister take a connection out of `agents` before they close it, so that what they
close is never what the registry returns, as long as a connection is registered once. Nothing takes
a connection out when its session closes itself, and the entry is returned from then on.

The gauge of a customer is 1 while the customer is in `agents` and 0 otherwise, up to what the calls
under way have still to add or to take off. The section of Register that replaces a connection keeps
this equation under a limit of 1. Under any other limit the replaced connection is neither counted
down nor closed.
-/

set_option autoImplicit false

namespace Atlax.Analysis

open Atlax.Model Atlax.Library

variable {c : ConnRef} {customerID k : String}

variable {s s' s₁ : MemoryRegistry} {a : RegistryAction} {pc pc' : RegistryPc}

/-! ## What a step does -/

/-- The step of a call: the rest of the state and the call's next place. -/
inductive RegistryCallMove (s : MemoryRegistry) :
    RegistryPc → MemoryRegistry → RegistryPc → Prop
  | insert (customerID : String) (c : ConnRef) (h : s.agents.lookup customerID = none) :
      RegistryCallMove s (.register customerID c) (s.setAgent customerID c)
        (.registered customerID)
  | replace (customerID : String) (c old : ConnRef) (h : s.agents.lookup customerID = some old)
      (hl : s.tables.limit customerID = 1) :
      RegistryCallMove s (.register customerID c) (s.setAgent customerID c)
        (.replaced customerID old)
  | overwrite (customerID : String) (c old : ConnRef) (h : s.agents.lookup customerID = some old)
      (hl : s.tables.limit customerID ≠ 1) :
      RegistryCallMove s (.register customerID c) (s.setAgent customerID c)
        (.registered customerID)
  | countReplaced (customerID : String) (old : ConnRef) :
      RegistryCallMove s (.replaced customerID old)
        (s.mapMetrics (·.connectionUnregistered customerID)) (.goAway customerID old)
  | goAway (customerID : String) (old : ConnRef) (mux : Session)
      (h : (s.conns old).mux.step .goAway = some mux) :
      RegistryCallMove s (.goAway customerID old) (s.setMux old mux) (.goAwaySend customerID old)
  | goAwaySend (customerID : String) (old : ConnRef) (mux : Session)
      (h : (s.conns old).mux.step (.goAwaySend 0) = some mux) :
      RegistryCallMove s (.goAwaySend customerID old) (s.setMux old mux)
        (.close (some customerID) old)
  | closeFirst (customerID : Option String) (c : ConnRef) (mux : Session)
      (h : (s.conns c).mux.step .closeSession = some mux) :
      RegistryCallMove s (.close customerID c) (s.setMux c mux) (.closing customerID c)
  | closeAgain (customerID : Option String) (c : ConnRef) :
      RegistryCallMove s (.close customerID c) s (.closing customerID c)
  | closed (customerID : Option String) (c : ConnRef) (h : (s.conns c).mux.closing = .done) :
      RegistryCallMove s (.closing customerID c) s (.afterClose customerID)
  | countRegistered (customerID : String) :
      RegistryCallMove s (.registered customerID)
        (s.mapMetrics (·.connectionRegistered customerID)) (.done none)
  | remove (customerID : String) (c : ConnRef) (h : s.agents.lookup customerID = some c) :
      RegistryCallMove s (.unregister customerID) (s.deleteAgent customerID)
        (.removed customerID c)
  | absent (customerID : String) : RegistryCallMove s (.unregister customerID) s (.done none)
  | countRemoved (customerID : String) (c : ConnRef) :
      RegistryCallMove s (.removed customerID c)
        (s.mapMetrics (·.connectionUnregistered customerID)) (.close none c)
  | found (customerID : String) (c : ConnRef) (h : s.agents.lookup customerID = some c) :
      RegistryCallMove s (.heartbeat customerID) s (.updateLastSeen c)
  | notFound (customerID : String) :
      RegistryCallMove s (.heartbeat customerID) s
        (.done (some (MemoryRegistry.errAgentNotFound customerID)))
  | seen (c : ConnRef) :
      RegistryCallMove s (.updateLastSeen c)
        (s.setConn c { s.conns c with lastSeen := s.clock }) (.done none)

/-- The calls as they begin. -/
inductive NewCall (s : MemoryRegistry) : RegistryPc → Prop
  | register (customerID : String) (c : ConnRef) (h : c < s.nextConn) :
      NewCall s (.register customerID c)
  | refused (err : String) : NewCall s (.done (some err))
  | unregister (customerID : String) : NewCall s (.unregister customerID)
  | heartbeat (customerID : String) : NewCall s (.heartbeat customerID)

/-- What a step of the registry does. -/
inductive RegistryMove (s : MemoryRegistry) : RegistryAction → MemoryRegistry → Prop
  | tick : RegistryMove s .tick { s with clock := s.clock + 1 }
  | connect (customerID remoteAddr : String) (certNotAfter : Option ℕ) (conn : LiveConnection) :
      RegistryMove s (.connect customerID remoteAddr certNotAfter) (s.addConn conn)
  | serviceList (c : ConnRef) (conn : LiveConnection)
      (h : conn.mux.closing = (s.conns c).mux.closing) :
      RegistryMove s (.serviceList c) (s.setConn c conn)
  | session (c : ConnRef) (b : Action) (mux : Session) (h : (s.conns c).mux.step b = some mux) :
      RegistryMove s (.session c b) (s.setMux c mux)
  | setCustomerLimit (customerID : String) (maxConns : ℤ) :
      RegistryMove s (.setCustomerLimit customerID maxConns)
        { s with customerLimits := s.customerLimits.insert customerID maxConns }
  | call (b : RegistryAction) (pc : RegistryPc) (h : NewCall s pc) :
      RegistryMove s b (s.addCall pc)
  | run (i : ℕ) (pc : RegistryPc) (s₁ : MemoryRegistry) (pc' : RegistryPc)
      (hpc : s.calls[i]? = some pc) (h : RegistryCallMove s pc s₁ pc') :
      RegistryMove s (.run i) (s₁.setCall i pc')

theorem stepMux_eq_some {b : Action} {next : RegistryPc}
    (h : (s.stepMux c b).map (·, next) = some (s₁, pc')) :
    ∃ mux, (s.conns c).mux.step b = some mux ∧ s₁ = s.setMux c mux ∧ pc' = next := by
  simp only [MemoryRegistry.stepMux, Option.map_map, Option.map_eq_some_iff,
    Function.comp_apply, Prod.mk.injEq] at h
  obtain ⟨mux, hstep, rfl, rfl⟩ := h
  exact ⟨mux, hstep, rfl, rfl⟩

/-- SOURCE: registry_impl.go:53-144 -/
theorem runRegistryCall_move (h : s.runCall pc = some (s₁, pc')) :
    RegistryCallMove s pc s₁ pc' := by
  cases pc with
  | register customerID c =>
    simp only [MemoryRegistry.runCall, RegistryTables.next, Option.bind_eq_bind] at h
    split at h
    · next old hold =>
      split at h <;> cases h
      · next hl => exact .replace customerID c old hold hl
      · next hl => exact .overwrite customerID c old hold hl
    · next hnone =>
      cases h
      exact .insert customerID c hnone
  | replaced customerID old =>
    cases h
    exact .countReplaced customerID old
  | goAway customerID old =>
    simp only [MemoryRegistry.runCall, RegistryTables.next, Option.bind_eq_bind,
      Option.bind_some, MemoryRegistry.act] at h
    obtain ⟨mux, hstep, rfl, rfl⟩ := stepMux_eq_some h
    exact .goAway customerID old mux hstep
  | goAwaySend customerID old =>
    simp only [MemoryRegistry.runCall, RegistryTables.next, Option.bind_eq_bind,
      Option.bind_some, MemoryRegistry.act] at h
    obtain ⟨mux, hstep, rfl, rfl⟩ := stepMux_eq_some h
    exact .goAwaySend customerID old mux hstep
  | close customerID c =>
    simp only [MemoryRegistry.runCall, RegistryTables.next, Option.bind_eq_bind] at h
    split at h
    · cases h
      exact .closeAgain customerID c
    · obtain ⟨mux, hstep, rfl, rfl⟩ := stepMux_eq_some h
      exact .closeFirst customerID c mux hstep
  | closing customerID c =>
    simp only [MemoryRegistry.runCall, RegistryTables.next, Option.bind_eq_bind] at h
    split at h <;> cases h
    next hdone => exact .closed customerID c hdone
  | registered customerID =>
    cases h
    exact .countRegistered customerID
  | unregister customerID =>
    simp only [MemoryRegistry.runCall, RegistryTables.next, Option.bind_eq_bind] at h
    split at h <;> cases h
    · next c hc => exact .remove customerID c hc
    · exact .absent customerID
  | removed customerID c =>
    cases h
    exact .countRemoved customerID c
  | heartbeat customerID =>
    simp only [MemoryRegistry.runCall] at h
    split at h <;> cases h
    · next c hc => exact .found customerID c hc
    · exact .notFound customerID
  | updateLastSeen c =>
    cases h
    exact .seen c
  | done err => cases h

/-- Every step of the registry is one of the moves. -/
theorem registry_move (h : s.step a = some s') : RegistryMove s a s' := by
  cases a with
  | tick =>
    cases h
    exact .tick
  | connect customerID remoteAddr certNotAfter =>
    simp only [MemoryRegistry.step, Option.ite_none_left_eq_some, Option.some.injEq] at h
    obtain ⟨-, rfl⟩ := h
    exact .connect customerID remoteAddr certNotAfter _
  | serviceList c =>
    simp only [MemoryRegistry.step, Option.ite_none_right_eq_some, Option.map_eq_some_iff] at h
    obtain ⟨-, services, -, rfl⟩ := h
    exact .serviceList c _ rfl
  | session c b =>
    simp only [MemoryRegistry.step, MemoryRegistry.stepMux, Option.ite_none_right_eq_some,
      Option.map_eq_some_iff] at h
    obtain ⟨-, mux, hstep, rfl⟩ := h
    exact .session c b mux hstep
  | setCustomerLimit customerID maxConns =>
    cases h
    exact .setCustomerLimit customerID maxConns
  | register customerID conn =>
    cases conn with
    | live c =>
      simp only [MemoryRegistry.step, Option.ite_none_right_eq_some, Option.some.injEq] at h
      obtain ⟨hc, rfl⟩ := h
      exact .call _ _ (.register customerID c hc)
    | other =>
      cases h
      exact .call _ _ (.refused _)
  | unregister customerID =>
    cases h
    exact .call _ _ (.unregister customerID)
  | heartbeat customerID =>
    cases h
    exact .call _ _ (.heartbeat customerID)
  | run i =>
    simp only [MemoryRegistry.step, Option.map_eq_some_iff, Option.bind_eq_some_iff] at h
    obtain ⟨⟨s₁, pc'⟩, ⟨pc, hpc, hrun⟩, rfl⟩ := h
    exact .run i pc s₁ pc' hpc (runRegistryCall_move hrun)

/-- The connection that a call has taken out of `agents` and has not closed yet. -/
def takenOut : RegistryPc → Option ConnRef
  | .replaced _ c | .goAway _ c | .goAwaySend _ c | .close _ c | .closing _ c | .removed _ c =>
    some c
  | _ => none

/-- What a step of a call does to `agents`. -/
inductive AgentsMove (s : MemoryRegistry) (pc : RegistryPc) (s₁ : MemoryRegistry)
    (pc' : RegistryPc) : Prop
  | keep (hagents : s₁.agents = s.agents) (hhistory : s₁.history = s.history)
      (hleaving : ∀ c, takenOut pc' = some c → takenOut pc = some c)
  | set (customerID : String) (c : ConnRef) (hpc : pc = .register customerID c)
      (hs : s₁ = s.setAgent customerID c)
      (hleaving : ∀ old, takenOut pc' = some old → s.agents.lookup customerID = some old)
  | delete (customerID : String) (c : ConnRef) (hc : s.agents.lookup customerID = some c)
      (hs : s₁ = s.deleteAgent customerID) (hpc' : pc' = .removed customerID c)

/-- What a section of a call does to the agents. -/
theorem agentsMove (h : RegistryCallMove s pc s₁ pc') : AgentsMove s pc s₁ pc' := by
  cases h with
  | insert customerID c | overwrite customerID c => exact .set customerID c rfl rfl nofun
  | replace customerID c old hold =>
    refine .set customerID c rfl rfl ?_
    rintro _ ⟨⟩
    exact hold
  | remove customerID c hc => exact .delete customerID c hc rfl rfl
  | closed customerID =>
    refine .keep rfl rfl ?_
    cases customerID <;> exact nofun
  | _ => exact .keep rfl rfl (by simp [takenOut])

/-- The session of a connection changes by its own steps, and by those of a call that has taken the
connection out. -/
theorem mux_move (hm : RegistryMove s a s') (hc : c < s.nextConn) :
    (s'.conns c).mux.closing = (s.conns c).mux.closing ∨
      ∃ b, (s.conns c).mux.step b = some (s'.conns c).mux ∧
        (a = .session c b ∨ ∃ i pc, a = .run i ∧ s.calls[i]? = some pc ∧ takenOut pc = some c) := by
  have hset : ∀ {c₁ : ConnRef} {conn : LiveConnection},
      conn.mux.closing = (s.conns c₁).mux.closing →
        ((Function.update s.conns c₁ conn) c).mux.closing = (s.conns c).mux.closing := by
    intro c₁ conn hconn
    by_cases hcc : c = c₁
    · subst hcc
      simpa using hconn
    · simp [hcc]
  cases hm with
  | connect => exact .inl (by simp [Nat.ne_of_lt hc])
  | serviceList c₁ conn hconn => exact .inl (hset hconn)
  | session c₁ b mux hstep =>
    by_cases hcc : c = c₁
    · subst hcc
      exact .inr ⟨b, by simpa using hstep, .inl rfl⟩
    · exact .inl (by simp [hcc])
  | run i pc s₁ pc' hpc hcall =>
    cases hcall with
    | goAway _ old mux hstep | goAwaySend _ old mux hstep | closeFirst _ old mux hstep =>
      by_cases hcc : c = old
      · subst hcc
        exact .inr ⟨_, by simpa using hstep, .inr ⟨i, _, rfl, hpc, rfl⟩⟩
      · exact .inl (by simp [hcc])
    | seen c₁ => exact .inl (hset rfl)
    | _ => exact .inl rfl
  | _ => exact .inl rfl

/-- A connection whose Close has returned stays closed. -/
theorem mux_done (hm : RegistryMove s a s') {c : ConnRef} (hc : c < s.nextConn)
    (h : (s.conns c).mux.closing = .done) : (s'.conns c).mux.closing = .done := by
  rcases mux_move hm hc with heq | ⟨b, hstep, -⟩
  · rw [heq, h]
  · exact move_done (step_move hstep) h

/-- The connections of the calls and of the history are on the heap. -/
structure OnHeap (s : MemoryRegistry) : Prop where
  history : ∀ e ∈ s.history, e.2 < s.nextConn
  calls : ∀ customerID c, .register customerID c ∈ s.calls → c < s.nextConn

theorem nextConn_move (hm : RegistryMove s a s') : s.nextConn ≤ s'.nextConn := by
  cases hm with
  | connect => exact Nat.le_succ _
  | run i pc s₁ pc' hpc hcall => cases hcall <;> exact Nat.le_refl _
  | _ => exact Nat.le_refl _

theorem callMove_ne_register (h : RegistryCallMove s pc s₁ pc') : pc' ≠ .register customerID c := by
  cases h with
  | closed k => cases k <;> exact nofun
  | _ => exact nofun

/-- Connections are on the heap before they are used. -/
theorem onHeap_move (h : OnHeap s) (hm : RegistryMove s a s') : OnHeap s' := by
  have hle := nextConn_move hm
  refine ⟨?_, ?_⟩
  · intro e he
    refine Nat.lt_of_lt_of_le ?_ hle
    cases hm with
    | run i pc s₁ pc' hpc hcall =>
      cases agentsMove hcall with
      | keep hagents hhistory => exact h.history e (hhistory ▸ he)
      | set customerID c hreg hs =>
        subst hs hreg
        rcases List.mem_cons.mp he with rfl | he
        · exact h.calls customerID c (List.mem_of_getElem? hpc)
        · exact h.history e he
      | delete customerID c hc hs =>
        subst hs
        exact h.history e he
    | _ => exact h.history e he
  · intro customerID c hmem
    refine Nat.lt_of_lt_of_le ?_ hle
    cases hm with
    | call b pc hnew =>
      rcases List.mem_append.mp hmem with hmem | hmem
      · exact h.calls customerID c hmem
      · cases hnew with
        | register _ _ hc =>
          cases List.mem_singleton.mp hmem
          exact hc
        | _ => cases List.mem_singleton.mp hmem
    | run i pc s₁ pc' hpc hcall =>
      have hcalls : s₁.calls = s.calls := by cases hcall <;> rfl
      simp only [MemoryRegistry.setCall_calls, hcalls] at hmem
      rcases List.mem_or_eq_of_mem_set hmem with hmem | rfl
      · exact h.calls customerID c hmem
      · exact absurd rfl (callMove_ne_register hcall)
    | _ => exact h.calls customerID c hmem

theorem calls_callMove (h : RegistryCallMove s pc s₁ pc') : s₁.calls = s.calls := by
  cases h <;> rfl

/-! ## What is returned is open -/

/-- A connection enters `agents` once, and while its session is open.
SOURCE: listener.go:138-170; registry_impl.go:63-87 -/
def EntersOpen (s : MemoryRegistry) : RegistryPc → Prop
  | .register _ c => (s.conns c).mux.closed = false ∧ ∀ e ∈ s.history, e.2 ≠ c
  | _ => True

instance (s : MemoryRegistry) (pc : RegistryPc) : Decidable (EntersOpen s pc) := by
  unfold EntersOpen
  split <;> infer_instance

/-- And while it is there, its session does not fail, and nobody but the registry closes it.
SOURCE: mux_session.go:276-320 -/
def KeepsSessions (s : MemoryRegistry) : RegistryAction → Prop
  | .run i => ∀ pc ∈ s.calls[i]?, EntersOpen s pc
  | .session c b => b = .closeSession ∨ b = .transmitFail → c ∉ s.connectedAgents
  | _ => True

instance (s : MemoryRegistry) (a : RegistryAction) : Decidable (KeepsSessions s a) := by
  unfold KeepsSessions
  split <;> infer_instance

/-- The connections in `agents` are open and have one customer each, and what a call is about to
close is not among them. -/
structure OpenAgents (s : MemoryRegistry) : Prop where
  onHeap : OnHeap s
  history : ∀ customerID c, s.agents.lookup customerID = some c → (customerID, c) ∈ s.history
  running : ∀ customerID c, s.agents.lookup customerID = some c →
    (s.conns c).mux.closing = .running
  single : ∀ k k' c, s.agents.lookup k = some c → s.agents.lookup k' = some c → k = k'
  taken : ∀ pc ∈ s.calls, ∀ c, takenOut pc = some c →
    (∃ e ∈ s.history, e.2 = c) ∧ ∀ k, s.agents.lookup k ≠ some c

/-- SOURCE: registry_impl.go:147-166 -/
theorem mem_connectedAgents :
    c ∈ s.connectedAgents ↔ ∃ k, s.agents.lookup k = some c := by
  simp only [MemoryRegistry.connectedAgents, List.mem_map]
  constructor
  · rintro ⟨⟨k, c⟩, hmem, rfl⟩
    exact ⟨k, AList.mem_lookup_iff.mpr hmem⟩
  · rintro ⟨k, hk⟩
    exact ⟨⟨k, c⟩, AList.mem_lookup_iff.mp hk, rfl⟩

/-- A connection that stays in `agents` stays open. -/
theorem running_move (hI : OpenAgents s) (hok : KeepsSessions s a) (hm : RegistryMove s a s')
    (hk : s.agents.lookup k = some c) :
    (s'.conns c).mux.closing = .running := by
  have hrun := hI.running k c hk
  have hc : c < s.nextConn := hI.onHeap.history _ (hI.history k c hk)
  rcases mux_move hm hc with heq | ⟨b, hstep, rfl | ⟨i, pc, rfl, hpc, htaken⟩⟩
  · rw [heq, hrun]
  · -- a step of the session itself
    have hmem : c ∈ s.connectedAgents := mem_connectedAgents.mpr ⟨k, hk⟩
    refine move_keeps_running (step_move hstep) ?_ ?_ hrun
    · exact fun hb => hok (.inl hb) hmem
    · exact fun hb => hok (.inr hb) hmem
  · -- a call closes only what it has taken out
    exact absurd hk ((hI.taken pc (List.mem_of_getElem? hpc) c htaken).2 k)

/-- A new connection enters: it has one customer, and what it replaces has none. -/
theorem openAgents_set (hI : OpenAgents s)
    (hok : EntersOpen s (.register customerID c)) (hheap : OnHeap s')
    (hagents : s'.agents = s.agents.insert customerID c)
    (hhistory : s'.history = (customerID, c) :: s.history) (hconns : s'.conns = s.conns)
    (htaken : ∀ q ∈ s'.calls, ∀ c', takenOut q = some c' →
      q ∈ s.calls ∨ s.agents.lookup customerID = some c') : OpenAgents s' := by
  obtain ⟨hopen, hfresh⟩ := hok
  have hother : ∀ k c', s.agents.lookup k = some c' → c' ≠ c :=
    fun k c' hk => hfresh _ (hI.history k c' hk)
  refine ⟨hheap, ?_, ?_, ?_, ?_⟩
  · intro k c' hk
    rw [hagents] at hk
    rw [hhistory]
    rcases lookup_insert_some hk with ⟨rfl, rfl⟩ | ⟨-, hold⟩
    · exact List.mem_cons_self
    · exact List.mem_cons_of_mem _ (hI.history k c' hold)
  · intro k c' hk
    rw [hagents] at hk
    rw [hconns]
    rcases lookup_insert_some hk with ⟨rfl, rfl⟩ | ⟨-, hold⟩
    · simpa [Session.closed] using hopen
    · exact hI.running k c' hold
  · intro k k' c' hk hk'
    rw [hagents] at hk hk'
    rcases lookup_insert_some hk with ⟨hkc, hcc⟩ | ⟨-, hold⟩ <;>
      rcases lookup_insert_some hk' with ⟨hkc', hcc'⟩ | ⟨-, hold'⟩
    · rw [hkc, hkc']
    · exact absurd hcc (hother k' c' hold')
    · exact absurd hcc' (hother k c' hold)
    · exact hI.single k k' c' hold hold'
  · intro q hq c' hc'
    have hleft : (∃ e ∈ s.history, e.2 = c') ∧
        ∀ k, k ≠ customerID → s.agents.lookup k ≠ some c' := by
      rcases htaken q hq c' hc' with hq | hk
      · obtain ⟨hhist, hnone⟩ := hI.taken q hq c' hc'
        exact ⟨hhist, fun k _ => hnone k⟩
      · exact ⟨⟨_, hI.history _ _ hk, rfl⟩, fun k hne hk' => hne (hI.single k _ c' hk' hk)⟩
    obtain ⟨⟨e, he, rfl⟩, hnone⟩ := hleft
    rw [hhistory, hagents]
    refine ⟨⟨e, List.mem_cons_of_mem _ he, rfl⟩, ?_⟩
    intro k hk
    rcases lookup_insert_some hk with ⟨-, heq⟩ | ⟨hne, hold⟩
    · exact hfresh e he heq
    · exact hnone k hne hold

/-- A connection leaves: it was there under one customer only. -/
theorem openAgents_delete (hI : OpenAgents s)
    (hc : s.agents.lookup customerID = some c) (hheap : OnHeap s')
    (hagents : s'.agents = s.agents.erase customerID) (hhistory : s'.history = s.history)
    (hconns : s'.conns = s.conns)
    (htaken : ∀ q ∈ s'.calls, ∀ c', takenOut q = some c' → q ∈ s.calls ∨ c' = c) :
    OpenAgents s' := by
  have hsub : ∀ {k c'}, s'.agents.lookup k = some c' →
      k ≠ customerID ∧ s.agents.lookup k = some c' := by
    intro k c' hk
    rw [hagents] at hk
    exact lookup_erase_some hk
  refine ⟨hheap, ?_, ?_, ?_, ?_⟩
  · intro k c' hk
    rw [hhistory]
    exact hI.history k c' (hsub hk).2
  · intro k c' hk
    rw [hconns]
    exact hI.running k c' (hsub hk).2
  · intro k k' c' hk hk'
    exact hI.single k k' c' (hsub hk).2 (hsub hk').2
  · intro q hq c' hc'
    rw [hhistory]
    rcases htaken q hq c' hc' with hq | rfl
    · obtain ⟨hhist, hnone⟩ := hI.taken q hq c' hc'
      exact ⟨hhist, fun k hk => hnone k (hsub hk).2⟩
    · refine ⟨⟨_, hI.history _ _ hc, rfl⟩, ?_⟩
      intro k hk
      obtain ⟨hne, hold⟩ := hsub hk
      exact hne (hI.single k _ c' hold hc)

/-- No step enters a closed session. -/
theorem openAgents_move (hI : OpenAgents s) (hok : KeepsSessions s a) (hm : RegistryMove s a s') :
    OpenAgents s' := by
  have hheap := onHeap_move hI.onHeap hm
  have hrunning := fun k c hk => running_move hI hok hm (k := k) (c := c) hk
  cases hm with
  | call b pc hnew =>
    refine ⟨hheap, hI.history, hrunning, hI.single, ?_⟩
    intro pc' hmem c htaken
    rcases List.mem_append.mp hmem with hmem | hmem
    · exact hI.taken pc' hmem c htaken
    · rw [List.mem_singleton.mp hmem] at htaken
      cases hnew <;> cases htaken
  | run i pc s₁ pc' hpc hcall =>
    have hcalls : ∀ q ∈ s₁.calls.set i pc', q ∈ s.calls ∨ q = pc' := by
      intro q hq
      rw [calls_callMove hcall] at hq
      exact List.mem_or_eq_of_mem_set hq
    cases agentsMove hcall with
    | keep hagents hhistory hleaving =>
      refine ⟨hheap, ?_, ?_, ?_, ?_⟩
      · simpa [hagents, hhistory] using hI.history
      · simpa [hagents] using hrunning
      · simpa [hagents] using hI.single
      · intro q hq c htaken
        simp only [MemoryRegistry.setCall_agents, MemoryRegistry.setCall_history, hagents, hhistory]
        rcases hcalls q hq with hq | rfl
        · exact hI.taken q hq c htaken
        · exact hI.taken pc (List.mem_of_getElem? hpc) c (hleaving c htaken)
    | set customerID c hreg hs hleaving =>
      subst hs hreg
      refine openAgents_set hI (hok _ hpc) hheap rfl rfl rfl ?_
      intro q hq c' htaken
      rcases hcalls q hq with hq | rfl
      · exact .inl hq
      · exact .inr (hleaving c' htaken)
    | delete customerID c hc hs hpc' =>
      subst hs hpc'
      refine openAgents_delete hI hc hheap rfl rfl rfl ?_
      intro q hq c' htaken
      rcases hcalls q hq with hq | rfl
      · exact .inl hq
      · cases htaken
        exact .inr rfl
  | _ => exact ⟨hheap, hI.history, hrunning, hI.single, hI.taken⟩

/-- The runs of a registry from its start. -/
abbrev RegistryReach (maxStreams : ℤ) (ok : MemoryRegistry → RegistryAction → Prop) :
    MemoryRegistry → Prop :=
  Reach MemoryRegistry.step ok ((newMemoryRegistry maxStreams).setMetrics {})

theorem onHeap_new (maxStreams : ℤ) : OnHeap ((newMemoryRegistry maxStreams).setMetrics {}) :=
  ⟨nofun, nofun⟩

/-- Every agent's session is open, in every run. -/
theorem openAgents_reach {maxStreams : ℤ} (h : RegistryReach maxStreams KeepsSessions s) :
    OpenAgents s := by
  refine Reach.invariant OpenAgents h ?_ fun _ _ _ _ hI hok hstep =>
    openAgents_move hI hok (registry_move hstep)
  exact ⟨onHeap_new maxStreams, nofun, nofun, nofun, nofun⟩

/-- Lookup and ListConnectedAgents return only connections whose session is open: in every run in
which a connection is registered once and while it is open, and no session fails while its
connection is registered.
SOURCE: registry_impl.go:53-166; listener.go:105-182; mux_session.go:276-320 -/
theorem returned_agents_open {maxStreams : ℤ} (h : RegistryReach maxStreams KeepsSessions s) :
    (∀ customerID c, s.lookup customerID = .ok c → (s.conns c).mux.closed = false) ∧
      ∀ c ∈ s.connectedAgents, (s.conns c).mux.closed = false := by
  have hI := openAgents_reach h
  have hopen : ∀ k c, s.agents.lookup k = some c → (s.conns c).mux.closed = false := by
    intro k c hk
    simp [Session.closed, hI.running k c hk]
  refine ⟨?_, ?_⟩
  · intro customerID c hc
    unfold MemoryRegistry.lookup at hc
    split at hc
    · cases hc
    · next c' hk =>
      cases hc
      exact hopen customerID c hk
  · intro c hmem
    obtain ⟨k, hk⟩ := mem_connectedAgents.mp hmem
    exact hopen k c hk

/-- An agent of acme connects and is registered. -/
def registerRun (c : ConnRef) : List RegistryAction :=
  [.connect "acme" "10.0.0.1:4711" none, .register "acme" (.live c), .run c, .run c]

/-- The replacement of connection 0, from the gauge to the end of Register. -/
def replaceRun : List RegistryAction :=
  [.run 1, .run 1, .run 1, .session 0 .closing, .session 0 .closing, .session 0 .closing, .run 1,
    .run 1]

theorem returned_agents_open_replaced :
    ∃ s, RegistryReach 50 KeepsSessions s ∧ s.agents.lookup "acme" = some 1 ∧
      (s.conns 0).mux.closing = .done ∧ s.lookup "acme" = .ok 1 ∧
      (s.conns 1).mux.closed = false := by
  have hex : ∃ s, RegistryReach 50 KeepsSessions s ∧ s.agents.lookup "acme" = some 1 ∧
      (s.conns 0).mux.closing = .done :=
    exists_reach_of_exec (registerRun 0 ++ registerRun 1 ++ replaceRun) _ (by decide)
  obtain ⟨s, hs, hk, hdone⟩ := hex
  have hlookup : s.lookup "acme" = .ok 1 := by
    simp [MemoryRegistry.lookup, hk]
  exact ⟨s, hs, hk, hdone, hlookup, (returned_agents_open hs).1 "acme" 1 hlookup⟩

/-- The session of a registered connection fails; no call is under way, and the registry goes on to
return the connection. -/
theorem lost_agent_returned :
    ∃ s, RegistryReach 50 anyStep s ∧ (∀ pc ∈ s.calls, pc = .done none) ∧
      s.lookup "acme" = .ok 0 ∧ s.connectedAgents = [0] ∧ s.listConnectedAgents.length = 1 ∧
      (s.conns 0).mux.closing = .done := by
  have hex : ∃ s, RegistryReach 50 anyStep s ∧ (∀ pc ∈ s.calls, pc = .done none) ∧
      s.agents.lookup "acme" = some 0 ∧ s.connectedAgents = [0] ∧
      s.listConnectedAgents.length = 1 ∧ (s.conns 0).mux.closing = .done :=
    exists_reach_of_exec (registerRun 0 ++ [RegistryAction.session 0 .closeSession,
      .session 0 .closing, .session 0 .closing, .session 0 .closing]) _ (by decide)
  obtain ⟨s, hs, hcalls, hk, hrest⟩ := hex
  exact ⟨s, hs, hcalls, by simp [MemoryRegistry.lookup, hk], hrest⟩

/-! ## The gauge, and what becomes of the replaced -/

/-- Register finds the customer without a connection, or works with a limit of 1.
SOURCE: registry_impl.go:64-87 -/
def ReplacesAlone (s : MemoryRegistry) : RegistryPc → Prop
  | .register customerID _ => customerID ∉ s.agents ∨ s.tables.limit customerID = 1
  | _ => True

instance (s : MemoryRegistry) (pc : RegistryPc) : Decidable (ReplacesAlone s pc) := by
  unfold ReplacesAlone
  split <;> infer_instance

/-- Every section of a call replaces alone. -/
def ReplacesEach (s : MemoryRegistry) : RegistryAction → Prop
  | .run i => ∀ pc ∈ s.calls[i]?, ReplacesAlone s pc
  | _ => True

instance (s : MemoryRegistry) (a : RegistryAction) : Decidable (ReplacesEach s a) := by
  unfold ReplacesEach
  split <;> infer_instance

/-- What the gauge of `k` is above what it will be when the call has returned. -/
def owes (k : String) : RegistryPc → ℤ
  | .goAway k' _ | .goAwaySend k' _ | .close (some k') _ | .closing (some k') _
  | .registered k' => if k' = k then -1 else 0
  | .removed k' _ => if k' = k then 1 else 0
  | _ => 0

/-- 1 for a customer in `agents`. -/
def entered (s : MemoryRegistry) (k : String) : ℤ := if k ∈ s.agents then 1 else 0

theorem entered_setAgent (customerID k : String) (c : ConnRef) :
    entered (s.setAgent customerID c) k = if customerID = k then 1 else entered s k := by
  by_cases hk : customerID = k
  · subst hk
    simp [entered]
  · simp [entered, hk, Ne.symm hk]

theorem entered_deleteAgent (customerID k : String) :
    entered (s.deleteAgent customerID) k = if customerID = k then 0 else entered s k := by
  by_cases hk : customerID = k
  · subst hk
    simp [entered]
  · simp [entered, hk, Ne.symm hk]

theorem entered_mapMetrics (f : Metrics → Metrics) (k : String) :
    entered (s.mapMetrics f) k = entered s k := rfl

theorem entered_of_lookup (h : s.agents.lookup k = some c) :
    entered s k = 1 := by
  have hmem : k ∈ s.agents := AList.lookup_isSome.mp (by rw [h]; rfl)
  simp [entered, hmem]

theorem entered_of_lookup_none (h : s.agents.lookup k = none) : entered s k = 0 := by
  have hmem : k ∉ s.agents := AList.lookup_eq_none.mp h
  simp [entered, hmem]

/-- A step of a call changes the gauge by what it adds to `agents` and pays of what it owes. -/
theorem balance_callMove (hok : ReplacesAlone s pc) (h : RegistryCallMove s pc s₁ pc')
    {m : Metrics} (hm : s.metrics = some m) :
    ∃ m₁, s₁.metrics = some m₁ ∧ ∀ k, m₁.connectionsActive k =
      m.connectionsActive k + (entered s₁ k - entered s k) + (owes k pc' - owes k pc) := by
  cases h with
  | insert customerID c hnone =>
    refine ⟨m, hm, fun k => ?_⟩
    rw [entered_setAgent]
    by_cases hk : customerID = k
    · subst hk
      simp [owes, entered_of_lookup_none hnone]
    · simp [owes, hk]
  | replace customerID c old hold =>
    refine ⟨m, hm, fun k => ?_⟩
    rw [entered_setAgent]
    by_cases hk : customerID = k
    · subst hk
      simp [owes, entered_of_lookup hold]
    · simp [owes, hk]
  | overwrite customerID c old hold hl =>
    rcases hok with habsent | hone
    · exact absurd (AList.lookup_isSome.mp (by rw [hold]; rfl)) habsent
    · exact absurd hone hl
  | remove customerID c hc =>
    refine ⟨m, hm, fun k => ?_⟩
    rw [entered_deleteAgent]
    by_cases hk : customerID = k
    · subst hk
      simp [owes, entered_of_lookup hc]
    · simp [owes, hk]
  | countReplaced customerID | countRemoved customerID =>
    refine ⟨m.connectionUnregistered customerID, by simp [hm], fun k => ?_⟩
    rw [entered_mapMetrics]
    by_cases hk : customerID = k
    · subst hk
      simp only [Metrics.connectionUnregistered, Function.update_self, owes, if_true]
      omega
    · simp [Metrics.connectionUnregistered, owes, hk, Ne.symm hk]
  | countRegistered customerID =>
    refine ⟨m.connectionRegistered customerID, by simp [hm], fun k => ?_⟩
    rw [entered_mapMetrics]
    by_cases hk : customerID = k
    · subst hk
      simp [Metrics.connectionRegistered, owes]
    · simp [Metrics.connectionRegistered, owes, hk, Ne.symm hk]
  | closed customerID =>
    refine ⟨m, hm, fun k => ?_⟩
    cases customerID <;> simp [owes, RegistryPc.afterClose]
  | closeFirst customerID | closeAgain customerID =>
    refine ⟨m, hm, fun k => ?_⟩
    cases customerID <;> simp [owes, entered]
  | _ => exact ⟨m, hm, fun k => by simp [owes, entered]⟩

/-- An entry stays, or the call that removes it has its connection to close. -/
theorem entry_callMove (hok : ReplacesAlone s pc) (h : RegistryCallMove s pc s₁ pc')
    (hk : s.agents.lookup k = some c) :
    s₁.agents.lookup k = some c ∨ takenOut pc' = some c := by
  cases h with
  | insert customerID c' hnone =>
    refine .inl ?_
    rw [MemoryRegistry.setAgent_agents, AList.lookup_insert_ne, hk]
    rintro rfl
    rw [hnone] at hk
    cases hk
  | replace customerID c' old hold =>
    by_cases hkc : k = customerID
    · subst hkc
      rw [hold] at hk
      exact .inr hk
    · refine .inl ?_
      rw [MemoryRegistry.setAgent_agents, AList.lookup_insert_ne hkc, hk]
  | overwrite customerID c' old hold hl =>
    rcases hok with habsent | hone
    · exact absurd (AList.lookup_isSome.mp (by rw [hold]; rfl)) habsent
    · exact absurd hone hl
  | remove customerID c' hc =>
    by_cases hkc : k = customerID
    · subst hkc
      rw [hc] at hk
      exact .inr hk
    · refine .inl ?_
      rw [MemoryRegistry.deleteAgent_agents, AList.lookup_erase_ne hkc, hk]
  | _ => exact .inl hk

/-- A call holds on to what it has taken out until it is closed. -/
theorem takenOut_callMove (h : RegistryCallMove s pc s₁ pc')
    (hc : takenOut pc = some c) : takenOut pc' = some c ∨ (s.conns c).mux.closing = .done := by
  cases h with
  | closed _ c' hdone =>
    cases hc
    exact .inr hdone
  | countReplaced | goAway | goAwaySend | closeFirst | closeAgain | countRemoved => exact .inl hc
  | _ => cases hc

/-- An agent that was entered is entered now, or was before. -/
theorem history_callMove (h : RegistryCallMove s pc s₁ pc') {e : String × ConnRef}
    (he : e ∈ s₁.history) : e ∈ s.history ∨ s₁.agents.lookup e.1 = some e.2 := by
  cases agentsMove h with
  | keep _ hhistory => exact .inl (hhistory ▸ he)
  | set customerID c _ hs =>
    subst hs
    rcases List.mem_cons.mp he with rfl | he
    · exact .inr (AList.lookup_insert _)
    · exact .inl he
  | delete customerID c _ hs =>
    subst hs
    exact .inl he

/-- The gauges agree with `agents` and the calls under way, and whatever has left `agents` is closed
or about to be. -/
structure AgentsCounted (s : MemoryRegistry) : Prop where
  onHeap : OnHeap s
  gauge : ∃ m, s.metrics = some m ∧
    ∀ k, m.connectionsActive k = entered s k + (s.calls.map (owes k)).sum
  parted : ∀ e ∈ s.history, s.agents.lookup e.1 = some e.2 ∨
    (s.conns e.2).mux.closing = .done ∨ ∃ pc ∈ s.calls, takenOut pc = some e.2

/-- A section keeps the gauge. -/
theorem gauge_run (hI : AgentsCounted s) {i : ℕ} (hpc : s.calls[i]? = some pc)
    (hok : ReplacesAlone s pc) (h : RegistryCallMove s pc s₁ pc') :
    ∃ m, s₁.metrics = some m ∧
      ∀ k, m.connectionsActive k = entered s₁ k + ((s₁.calls.set i pc').map (owes k)).sum := by
  obtain ⟨m, hm, hgauge⟩ := hI.gauge
  obtain ⟨m₁, hm₁, hbalance⟩ := balance_callMove hok h hm
  refine ⟨m₁, hm₁, fun k => ?_⟩
  rw [calls_callMove h, sum_map_set (owes k) hpc, hbalance k, hgauge k]
  omega

/-- A replaced agent is being closed. -/
theorem parted_run (hI : AgentsCounted s) {i : ℕ} (hpc : s.calls[i]? = some pc)
    (hok : ReplacesAlone s pc) (h : RegistryCallMove s pc s₁ pc') {e : String × ConnRef}
    (he : e ∈ s₁.history) :
    s₁.agents.lookup e.1 = some e.2 ∨ (s₁.conns e.2).mux.closing = .done ∨
      ∃ q ∈ s₁.calls.set i pc', takenOut q = some e.2 := by
  rcases history_callMove h he with hold | hnew
  · have hself : takenOut pc' = some e.2 → ∃ q ∈ s₁.calls.set i pc', takenOut q = some e.2 := by
      intro ht
      exact ⟨pc', mem_set_self (by rwa [calls_callMove h]) pc', ht⟩
    have hdone : (s.conns e.2).mux.closing = .done → (s₁.conns e.2).mux.closing = .done :=
      mux_done (.run i pc s₁ pc' hpc h) (hI.onHeap.history e hold)
    rcases hI.parted e hold with hk | hclosed | ⟨q, hq, ht⟩
    · exact (entry_callMove hok h hk).imp_right fun ht => .inr (hself ht)
    · exact .inr (.inl (hdone hclosed))
    · rcases eq_or_mem_set hq hpc pc' with rfl | hq
      · rcases takenOut_callMove h ht with ht | hclosed
        · exact .inr (.inr (hself ht))
        · exact .inr (.inl (hdone hclosed))
      · exact .inr (.inr ⟨q, by rwa [calls_callMove h], ht⟩)
  · exact .inl hnew

/-- No step loses count. -/
theorem agentsCounted_move (hI : AgentsCounted s) (hok : ReplacesEach s a)
    (hm : RegistryMove s a s') : AgentsCounted s' := by
  have hheap := onHeap_move hI.onHeap hm
  -- the steps that leave `agents`, the calls and the gauges alone
  have hframe : s'.agents = s.agents → s'.history = s.history → s'.calls = s.calls →
      s'.metrics = s.metrics → AgentsCounted s' := by
    intro hagents hhistory hcalls hmetrics
    refine ⟨hheap, ?_, ?_⟩
    · simpa [entered, hagents, hcalls, hmetrics] using hI.gauge
    · intro e he
      rw [hhistory] at he
      rw [hagents, hcalls]
      exact (hI.parted e he).imp_right (Or.imp_left (mux_done hm (hI.onHeap.history e he)))
  cases hm with
  | call b pc hnew =>
    refine ⟨hheap, ?_, ?_⟩
    · obtain ⟨m, hm, hgauge⟩ := hI.gauge
      refine ⟨m, hm, fun k => ?_⟩
      have hzero : owes k pc = 0 := by cases hnew <;> rfl
      simpa [entered, hzero] using hgauge k
    · intro e he
      refine (hI.parted e he).imp_right (Or.imp_right ?_)
      rintro ⟨q, hq, ht⟩
      exact ⟨q, List.mem_append_left _ hq, ht⟩
  | run i pc s₁ pc' hpc hcall =>
    exact ⟨hheap, gauge_run hI hpc (hok pc hpc) hcall,
      fun e he => parted_run hI hpc (hok pc hpc) hcall he⟩
  | _ => exact hframe rfl rfl rfl rfl

/-- The gauges are right in every run. -/
theorem agentsCounted_reach {maxStreams : ℤ} (h : RegistryReach maxStreams ReplacesEach s) :
    AgentsCounted s := by
  refine Reach.invariant AgentsCounted h ?_ fun _ _ _ _ hI hok hstep =>
    agentsCounted_move hI hok (registry_move hstep)
  exact ⟨onHeap_new maxStreams, ⟨{}, rfl, fun _ => rfl⟩, nofun⟩

/-- When every call has returned, the gauge of a customer is 1 if the customer is in the registry
and 0 otherwise, and whatever was once registered and has been replaced or removed is closed: in
every run, however the calls interleave, in which Register replaces a connection only under a limit
of 1.
SOURCE: registry_impl.go:43-116; metrics.go:83-92 -/
theorem gauges_count_agents {maxStreams : ℤ} (h : RegistryReach maxStreams ReplacesEach s)
    (hdone : ∀ pc ∈ s.calls, ∃ err, pc = .done err) :
    (∃ m, s.metrics = some m ∧
      ∀ k, m.connectionsActive k = if k ∈ s.agents then 1 else 0) ∧
      ∀ k c, (k, c) ∈ s.history → s.agents.lookup k ≠ some c →
        (s.conns c).mux.closing = .done := by
  have hI := agentsCounted_reach h
  obtain ⟨m, hm, hgauge⟩ := hI.gauge
  refine ⟨⟨m, hm, fun k => ?_⟩, fun k c hmem hne => ?_⟩
  · have hzero : (s.calls.map (owes k)).sum = 0 := by
      refine List.sum_eq_zero ?_
      intro x hx
      obtain ⟨pc, hpc, rfl⟩ := List.mem_map.mp hx
      obtain ⟨err, rfl⟩ := hdone pc hpc
      rfl
    rw [hgauge k, hzero, entered, add_zero]
  · rcases hI.parted (k, c) hmem with hk | hclosed | ⟨pc, hpc, ht⟩
    · exact absurd hk hne
    · exact hclosed
    · obtain ⟨err, rfl⟩ := hdone pc hpc
      cases ht

theorem gauges_count_agents_replaced :
    ∃ s, RegistryReach 50 ReplacesEach s ∧ (∀ pc ∈ s.calls, pc = .done none) ∧
      s.history = [("acme", 1), ("acme", 0)] ∧ s.agents.lookup "acme" = some 1 ∧
      (∃ m, s.metrics = some m ∧ m.connectionsActive "acme" = 1) ∧
      (s.conns 0).mux.closing = .done := by
  have hex : ∃ s, RegistryReach 50 ReplacesEach s ∧ (∀ pc ∈ s.calls, pc = .done none) ∧
      s.history = [("acme", 1), ("acme", 0)] ∧ s.agents.lookup "acme" = some 1 :=
    exists_reach_of_exec ([RegistryAction.setCustomerLimit "acme" (-1)] ++ registerRun 0 ++
      registerRun 1 ++ replaceRun) _ (by decide)
  obtain ⟨s, hs, hcalls, hhist, hk⟩ := hex
  obtain ⟨⟨m, hm, hgauge⟩, hclosed⟩ :=
    gauges_count_agents hs fun pc hpc => ⟨none, hcalls pc hpc⟩
  refine ⟨s, hs, hcalls, hhist, hk, ⟨m, hm, ?_⟩, ?_⟩
  · rw [hgauge, if_pos (AList.lookup_isSome.mp (by rw [hk]; rfl))]
  · exact hclosed "acme" 0 (by simp [hhist]) (by simp [hk])

/-- With a limit of 2 the second connection takes the first one's place: both are counted, and the
first one stays open. -/
theorem replaced_counted_open :
    ∃ s, RegistryReach 50 anyStep s ∧ (∀ pc ∈ s.calls, pc = .done none) ∧
      s.history = [("acme", 1), ("acme", 0)] ∧ s.agents.lookup "acme" = some 1 ∧
      s.metrics.map (·.connectionsActive "acme") = some 2 ∧
      (s.conns 0).mux.closing = .running :=
  exists_reach_of_exec ([RegistryAction.setCustomerLimit "acme" 2] ++ registerRun 0 ++
    registerRun 1) _ (by decide)

end Atlax.Analysis
