import Atlax.Analysis.Heartbeats
import Atlax.Library.Processes

/-!
# One session per client

`Connect` tests `closed` in one section, dials, stores its session in a second section and the
cancel function of the heartbeat in a third; `teardown` takes what is stored. As long as a `Connect`
stores its session in a client that has none and is not closed, and starts the heartbeat while this
session is the current one, every session is the current one, closed, or in the hands of a call; the
heartbeat that is not cancelled is the one whose cancel function is stored; and a closed client ends
up with nothing. None of this is tested: a second `Connect` overwrites the session of the first, and
a `Close` that falls into the dial of a `Connect` is undone by it.
-/

set_option autoImplicit false

namespace Atlax.Analysis

open Atlax.Model Atlax.Library

/-- The session a call has in hand: made and not stored yet, or taken and not closed yet. -/
def handling : CallPc → Option ℕ
  | .install k _ => some k
  | .shut mux _ => mux
  | _ => none

/-- The session a `Connect` has made, up to the start of its heartbeat. -/
def making : CallPc → Option ℕ
  | .install k _ | .startHeartbeat k => some k
  | _ => none

/-- Heartbeat `i` has not been cancelled. -/
def Uncancelled (c : TunnelClient) (i : ℕ) : Prop :=
  ∃ hb, c.heartbeats[i]? = some hb ∧ hb.ctxDone = false

instance (c : TunnelClient) (i : ℕ) : Decidable (Uncancelled c i) :=
  decidable_of_iff (c.heartbeats[i]?.any (fun hb => !hb.ctxDone) = true) (by
    unfold Uncancelled
    cases c.heartbeats[i]? <;> simp)

/-- What a `Connect` finds when it stores its session, and when it stores the cancel function of its
heartbeat. -/
def MayStore (c : TunnelClient) : CallPc → Prop
  | .install _ _ => c.mux = none ∧ c.closed = false
  | .startHeartbeat k => c.mux = some k
  | _ => True

instance (c : TunnelClient) : DecidablePred (MayStore c) := by
  intro pc
  unfold MayStore
  induction pc using CallPc.casesOn <;> infer_instance

/-- Every call stores its session in turn. -/
def StoresInTurn (s : ClientCalls) : ClientAction → Prop
  | .call i _ => ∀ pc ∈ s.calls[i]?, MayStore s.client pc
  | _ => True

instance (s : ClientCalls) (a : ClientAction) : Decidable (StoresInTurn s a) := by
  unfold StoresInTurn
  split <;> infer_instance

variable {s s' : ClientCalls} {c c' : TunnelClient} {pc pc' : CallPc} {i k : ℕ}

/-! ## What a step can do -/

/-- What heartbeats and sessions do by themselves. -/
structure Background (c c' : TunnelClient) : Prop where
  links : c'.links.length = c.links.length
  closed : ∀ k, c.isClosed k = true → c'.isClosed k = true
  mux : c'.mux = c.mux
  stop : c'.heartbeatStop = c.heartbeatStop
  connected : c'.connected = c.connected
  shut : c'.closed = c.closed
  heartbeats : ∀ i, Uncancelled c' i → Uncancelled c i

theorem background_modifyLink (c : TunnelClient) (k : ℕ) (f : Link → Link)
    (hf : ∀ l, l.closed = true → (f l).closed = true) : Background c (c.modifyLink k f) where
  links := by simp [TunnelClient.modifyLink]
  closed := isClosed_modifyLink c k f hf
  mux := rfl
  stop := rfl
  connected := rfl
  shut := rfl
  heartbeats _ h := h

theorem Background.setHeartbeat {hb hb' : Heartbeat} (h : Background c c')
    (hi : c'.heartbeats[i]? = some hb) (hctx : hb'.ctxDone = hb.ctxDone) :
    Background c (c'.setHeartbeat i hb') where
  links := h.links
  closed := h.closed
  mux := h.mux
  stop := h.stop
  connected := h.connected
  shut := h.shut
  heartbeats := by
    intro j hj
    apply h.heartbeats
    obtain ⟨hb₁, hget, hrun⟩ := hj
    by_cases hij : i = j
    · subst hij
      refine ⟨hb, hi, ?_⟩
      rw [TunnelClient.setHeartbeat,
        List.getElem?_set_self (List.getElem?_eq_some_iff.mp hi).1] at hget
      cases hget
      rwa [← hctx]
    · refine ⟨hb₁, ?_, hrun⟩
      rwa [TunnelClient.setHeartbeat, List.getElem?_set_ne hij] at hget

/-- A heartbeat leaves the sessions to the calls. -/
theorem background_heartbeat {hb : Heartbeat} {a : HeartbeatAction}
    (hi : c.heartbeats[i]? = some hb) (h : HeartbeatMove c i hb a c') : Background c c' := by
  have same : Background c c := ⟨rfl, fun _ h => h, rfl, rfl, rfl, rfl, fun _ h => h⟩
  have clear (k : ℕ) : Background c (c.modifyLink k fun l => { l with pingCh := false }) :=
    background_modifyLink c k _ fun _ hl => hl
  have posted : Background c { c with disconnectCh := true } :=
    ⟨rfl, fun _ h => h, rfl, rfl, rfl, rfl, fun _ h => h⟩
  cases h with
  | tick | quit | readNone | pingFailed => exact same.setHeartbeat hi rfl
  | read k | pong k => exact (clear k).setHeartbeat hi rfl
  | post => exact posted.setHeartbeat hi rfl

/-- The steps of a client with its calls. -/
inductive ClientCallsMove (s : ClientCalls) : ClientAction → ClientCalls → Prop
  | begin (a : ClientAction) (pc : CallPc)
      (hpc : pc = .connect none ∨ pc = .teardown true ∨ pc = .close) :
      ClientCallsMove s a { s with calls := s.calls ++ [pc] }
  | call (i : ℕ) (a : CallAction) (pc pc' : CallPc) (c' : TunnelClient)
      (hi : s.calls[i]? = some pc) (h : ClientMove s.client pc c' pc') :
      ClientCallsMove s (.call i a) ⟨c', s.calls.set i pc'⟩
  | background (a : ClientAction) (c' : TunnelClient) (h : Background s.client c') :
      ClientCallsMove s a { s with client := c' }

/-- A step is a call, a heartbeat or Close.
SOURCE: client_impl.go:98-245 -/
theorem clientCalls_move {a : ClientAction} (h : s.step a = some s') : ClientCallsMove s a s' := by
  cases a with
  | connect =>
    cases h
    exact .begin _ _ (.inl rfl)
  | reconnect =>
    cases h
    exact .begin _ _ (.inr (.inl rfl))
  | close =>
    cases h
    exact .begin _ _ (.inr (.inr rfl))
  | call i a =>
    obtain ⟨pc, hi, h⟩ := Option.bind_eq_some_iff.mp h
    obtain ⟨⟨c', pc'⟩, hcall, rfl⟩ := Option.map_eq_some_iff.mp h
    exact .call i a pc pc' c' hi (call_move hcall)
  | heartbeat i a =>
    obtain ⟨hb, hi, h⟩ := Option.bind_eq_some_iff.mp h
    obtain ⟨c', hc, rfl⟩ := Option.map_eq_some_iff.mp h
    exact .background _ c' (background_heartbeat hi (heartbeat_move hc))
  | pong k =>
    cases h
    exact .background _ _ (background_modifyLink s.client k _ fun _ hl => hl)
  | fail k =>
    cases h
    exact .background _ _ (background_modifyLink s.client k _ fun _ _ => rfl)

/-! ## The invariant -/

/-- Where the sessions and the heartbeats of a client are. -/
structure OneSession (s : ClientCalls) : Prop where
  held : ∀ k < s.client.links.length, s.client.mux = some k ∨ s.client.isClosed k = true ∨
    ∃ pc ∈ s.calls, handling pc = some k
  stop : ∀ i, Uncancelled s.client i → s.client.heartbeatStop = some i
  stopped : s.client.mux = none → s.client.heartbeatStop = none
  connected : s.client.connected = s.client.mux.isSome
  made : ∀ pc ∈ s.calls, ∀ k, making pc = some k → k < s.client.links.length
  once : HeldOnce making s.calls
  starting : ∀ k, .startHeartbeat k ∈ s.calls → s.client.mux = some k →
    s.client.heartbeatStop = none
  shut : s.client.closed = true → s.client.mux = none ∨ .teardown false ∈ s.calls

theorem oneSession_new (config : ClientConfig) : OneSession (newClient config) where
  held k hk := absurd hk (Nat.not_lt_zero k)
  stop i h := by
    obtain ⟨hb, hget, -⟩ := h
    simp [newClient] at hget
  stopped _ := rfl
  connected := rfl
  made _ h := by simp [newClient] at h
  once i j a b k hi := by simp [newClient] at hi
  starting k h := by simp [newClient] at h
  shut h := by cases h

/-- A call begins. -/
theorem OneSession.begin (h : OneSession s)
    (hpc : pc = .connect none ∨ pc = .teardown true ∨ pc = .close) :
    OneSession { s with calls := s.calls ++ [pc] } := by
  have hmaking : making pc = none := by
    rcases hpc with rfl | rfl | rfl <;> rfl
  refine ⟨?_, h.stop, h.stopped, h.connected, ?_, h.once.append hmaking, ?_, ?_⟩
  · intro k hk
    refine (h.held k hk).imp_right (Or.imp_right ?_)
    rintro ⟨pc₁, hmem, hk₁⟩
    exact ⟨pc₁, List.mem_append_left _ hmem, hk₁⟩
  · intro pc₁ hmem k hk
    obtain hmem | hmem := List.mem_append.mp hmem
    · exact h.made pc₁ hmem k hk
    · rw [List.mem_singleton.mp hmem, hmaking] at hk
      cases hk
  · intro k hmem hmux
    obtain hmem | hmem := List.mem_append.mp hmem
    · exact h.starting k hmem hmux
    · rw [← List.mem_singleton.mp hmem] at hmaking
      cases hmaking
  · exact fun hclosed => (h.shut hclosed).imp_right (List.mem_append_left _)

theorem OneSession.background (h : OneSession s) (hb : Background s.client c') :
    OneSession { s with client := c' } := by
  refine ⟨?_, ?_, ?_, ?_, ?_, h.once, ?_, ?_⟩
  · intro k hk
    rw [hb.links] at hk
    rw [hb.mux]
    exact (h.held k hk).imp_right (Or.imp_left (hb.closed k))
  · intro i hi
    rw [hb.stop]
    exact h.stop i (hb.heartbeats i hi)
  · intro hmux
    rw [hb.mux] at hmux
    rw [hb.stop]
    exact h.stopped hmux
  · rw [hb.connected, hb.mux]
    exact h.connected
  · intro pc hpc k hk
    rw [hb.links]
    exact h.made pc hpc k hk
  · intro k hmem hmux
    rw [hb.mux] at hmux
    rw [hb.stop]
    exact h.starting k hmem hmux
  · intro hclosed
    rw [hb.shut] at hclosed
    rw [hb.mux]
    exact h.shut hclosed

/-- A call that has no session in hand moves on. -/
theorem handled_set (hi : s.calls[i]? = some pc) (hold : handling pc = none)
    (h : ∃ pc₁ ∈ s.calls, handling pc₁ = some k) :
    ∃ pc₁ ∈ s.calls.set i pc', handling pc₁ = some k := by
  obtain ⟨pc₁, hmem, hk⟩ := h
  refine ⟨pc₁, (eq_or_mem_set hmem hi pc').resolve_left ?_, hk⟩
  rintro rfl
  rw [hold] at hk
  cases hk

section MakesNothing

variable (h : OneSession s) (hnew : making pc' = none)

include h hnew

/-- A call moves on and is not making a session then. -/
theorem OneSession.made_set :
    ∀ pc₁ ∈ s.calls.set i pc', ∀ k, making pc₁ = some k → k < s.client.links.length := by
  intro pc₁ hmem k hk
  obtain hmem | rfl := List.mem_or_eq_of_mem_set hmem
  · exact h.made pc₁ hmem k hk
  · rw [hnew] at hk
    cases hk

theorem OneSession.once_set (hi : s.calls[i]? = some pc) : HeldOnce making (s.calls.set i pc') := by
  apply h.once.set hi
  intro k hk
  rw [hnew] at hk
  cases hk

theorem OneSession.starting_set (k : ℕ) (hmem : .startHeartbeat k ∈ s.calls.set i pc')
    (hmux : s.client.mux = some k) : s.client.heartbeatStop = none := by
  obtain hmem | rfl := List.mem_or_eq_of_mem_set hmem
  · exact h.starting k hmem hmux
  · cases hnew

end MakesNothing

/-- A call moves on with nothing in hand, and the client stays as it is. -/
theorem OneSession.advance (h : OneSession s) (hi : s.calls[i]? = some pc)
    (hold : handling pc = none) (hnew : making pc' = none) (hpc : pc ≠ .teardown false) :
    OneSession { s with calls := s.calls.set i pc' } := by
  refine ⟨?_, h.stop, h.stopped, h.connected, h.made_set hnew, h.once_set hnew hi,
    h.starting_set hnew, ?_⟩
  · intro k hk
    exact (h.held k hk).imp_right (Or.imp_right (handled_set hi hold))
  · intro hclosed
    refine (h.shut hclosed).imp_right ?_
    intro hmem
    exact (eq_or_mem_set hmem hi pc').resolve_left (Ne.symm hpc)

/-- SOURCE: client_impl.go:184-196 -/
theorem OneSession.close (h : OneSession s) (hmem : .teardown false ∈ s.calls) :
    OneSession { s with client := { s.client with closed := true } } where
  held := h.held
  stop := h.stop
  stopped := h.stopped
  connected := h.connected
  made := h.made
  once := h.once
  starting := h.starting
  shut _ := .inr hmem

/-- `teardown` cancels the one heartbeat there is. -/
theorem not_uncancelled_teardown (h : ∀ i, Uncancelled c i → c.heartbeatStop = some i) (i : ℕ) :
    ¬ Uncancelled c.teardown i := by
  rintro ⟨hb, hget, hrun⟩
  cases hstop : c.heartbeatStop with
  | none =>
    simp only [TunnelClient.teardown, hstop] at hget
    have := h i ⟨hb, hget, hrun⟩
    rw [hstop] at this
    cases this
  | some j =>
    simp only [TunnelClient.teardown, hstop, List.getElem?_modify] at hget
    obtain ⟨hb₀, hget₀, rfl⟩ := Option.map_eq_some_iff.mp hget
    by_cases hij : j = i
    · simp [hij] at hrun
    · rw [if_neg hij] at hrun
      have := h i ⟨hb₀, hget₀, hrun⟩
      rw [hstop] at this
      exact hij (Option.some.inj this)

/-- SOURCE: client_impl.go:224-245 -/
theorem oneSession_teardown (h : OneSession s) {again : Bool}
    (hi : s.calls[i]? = some (.teardown again)) :
    OneSession ⟨s.client.teardown, s.calls.set i (.shut s.client.mux again)⟩ := by
  refine ⟨?_, ?_, fun _ => rfl, rfl, h.made_set rfl, h.once_set rfl hi, ?_, fun _ => .inl rfl⟩
  · intro k hk
    obtain hmux | hclosed | hhandled := h.held k hk
    · exact .inr (.inr ⟨_, mem_set_self hi _, hmux⟩)
    · exact .inr (.inl hclosed)
    · exact .inr (.inr (handled_set hi rfl hhandled))
  · intro j hj
    exact absurd hj (not_uncancelled_teardown h.stop j)
  · intro k _ hmux
    cases hmux

theorem isClosed_shut {mux : Option ℕ} (hk : k < c.links.length)
    (h : c.isClosed k = true ∨ mux = some k) : (c.shut mux).isClosed k = true := by
  obtain h | rfl := h
  · exact (quiet_shut c mux).closed k h
  · simp [TunnelClient.shut, TunnelClient.isClosed, TunnelClient.modifyLink, hk]

/-- The old session is closed outside the lock. -/
theorem oneSession_shut (h : OneSession s) {mux : Option ℕ} {again : Bool}
    (hi : s.calls[i]? = some (.shut mux again)) (hnew : making pc' = none) :
    OneSession ⟨s.client.shut mux, s.calls.set i pc'⟩ := by
  have hb : ∃ links, s.client.shut mux = { s.client with links := links } ∧
      links.length = s.client.links.length := by
    cases mux with
    | none => exact ⟨s.client.links, rfl, rfl⟩
    | some k => exact ⟨_, rfl, by simp⟩
  obtain ⟨links, hshut, hlen⟩ := hb
  have hheld : ∀ k < s.client.links.length, s.client.mux = some k ∨
      (s.client.shut mux).isClosed k = true ∨ ∃ pc ∈ s.calls.set i pc', handling pc = some k := by
    intro k hk
    obtain hmux | hclosed | ⟨pc₁, hmem, hk₁⟩ := h.held k hk
    · exact .inl hmux
    · exact .inr (.inl (isClosed_shut hk (.inl hclosed)))
    · obtain rfl | hmem := eq_or_mem_set hmem hi pc'
      · exact .inr (.inl (isClosed_shut hk (.inr hk₁)))
      · exact .inr (.inr ⟨pc₁, hmem, hk₁⟩)
  rw [hshut] at hheld ⊢
  refine ⟨?_, h.stop, h.stopped, h.connected, ?_, h.once_set hnew hi, h.starting_set hnew, ?_⟩
  · intro k hk
    rw [show ({ s.client with links := links } : TunnelClient).links.length =
      s.client.links.length from hlen] at hk
    exact hheld k hk
  · exact hlen ▸ h.made_set hnew
  · intro hclosed
    refine (h.shut hclosed).imp_right ?_
    intro hmem
    exact (eq_or_mem_set hmem hi pc').resolve_left nofun

/-- SOURCE: client_impl.go:99-149 -/
theorem oneSession_dial (h : OneSession s) {attempt : Option ℕ}
    (hi : s.calls[i]? = some (.dial attempt)) :
    OneSession ⟨{ s.client with links := s.client.links ++ [{}] },
      s.calls.set i (.install s.client.links.length attempt)⟩ := by
  refine ⟨?_, h.stop, h.stopped, h.connected, ?_, ?_, ?_, ?_⟩
  · intro k hk
    by_cases hlt : k < s.client.links.length
    · obtain hmux | hclosed | hhandled := h.held k hlt
      · exact .inl hmux
      · refine .inr (.inl ?_)
        unfold TunnelClient.isClosed at *
        rwa [List.getElem?_append_left hlt]
      · exact .inr (.inr (handled_set hi rfl hhandled))
    · have hlast : k = s.client.links.length := by
        simp only [List.length_append, List.length_cons, List.length_nil] at hk
        omega
      subst hlast
      exact .inr (.inr ⟨_, mem_set_self hi _, rfl⟩)
  · intro pc₁ hmem k hk
    simp only [List.length_append, List.length_cons, List.length_nil]
    obtain hmem | rfl := List.mem_or_eq_of_mem_set hmem
    · have := h.made pc₁ hmem k hk
      omega
    · cases hk
      omega
  · apply h.once.set hi
    intro k hk
    cases hk
    refine .inr fun pc₁ hmem hk₁ => ?_
    exact Nat.lt_irrefl _ (h.made pc₁ hmem _ hk₁)
  · intro k hmem hmux
    obtain hmem | heq := List.mem_or_eq_of_mem_set hmem
    · exact h.starting k hmem hmux
    · cases heq
  · intro hclosed
    refine (h.shut hclosed).imp_right ?_
    intro hmem
    exact (eq_or_mem_set hmem hi _).resolve_left nofun

/-- The new session is stored. -/
theorem oneSession_install (h : OneSession s) {attempt : Option ℕ}
    (hi : s.calls[i]? = some (.install k attempt)) (hmux : s.client.mux = none)
    (hclosed : s.client.closed = false) :
    OneSession ⟨{ s.client with mux := some k, connected := true },
      s.calls.set i (.startHeartbeat k)⟩ := by
  have hstop := h.stopped hmux
  refine ⟨?_, h.stop, nofun, rfl, ?_, ?_, fun _ _ _ => hstop, ?_⟩
  · intro j hj
    obtain hcur | hcl | ⟨pc₁, hmem, hk₁⟩ := h.held j hj
    · rw [hmux] at hcur
      cases hcur
    · exact .inr (.inl hcl)
    · obtain rfl | hmem := eq_or_mem_set hmem hi (.startHeartbeat k)
      · exact .inl hk₁
      · exact .inr (.inr ⟨pc₁, hmem, hk₁⟩)
  · intro pc₁ hmem j hj
    obtain hmem | rfl := List.mem_or_eq_of_mem_set hmem
    · exact h.made pc₁ hmem j hj
    · exact h.made _ (List.mem_iff_getElem?.mpr ⟨i, hi⟩) j hj
  · exact h.once.set hi fun j hj => .inl hj
  · intro hcl
    rw [show ({ s.client with mux := some k, connected := true } : TunnelClient).closed =
      s.client.closed from rfl, hclosed] at hcl
    cases hcl

/-- Its heartbeat is started. -/
theorem oneSession_startHeartbeat (h : OneSession s) (hb : Heartbeat)
    (hi : s.calls[i]? = some (.startHeartbeat k)) (hmux : s.client.mux = some k) :
    OneSession ⟨{ s.client with
      heartbeats := s.client.heartbeats ++ [hb]
      heartbeatStop := some s.client.heartbeats.length }, s.calls.set i (.done none)⟩ := by
  have hstop := h.starting k (List.mem_iff_getElem?.mpr ⟨i, hi⟩) hmux
  refine ⟨?_, ?_, ?_, h.connected, h.made_set rfl, h.once_set rfl hi, ?_, ?_⟩
  · intro j hj
    exact (h.held j hj).imp_right (Or.imp_right (handled_set hi rfl))
  · -- no earlier heartbeat is left to be cancelled
    rintro j ⟨hb₁, hget, hrun⟩
    by_cases hlt : j < s.client.heartbeats.length
    · rw [List.getElem?_append_left hlt] at hget
      have := h.stop j ⟨hb₁, hget, hrun⟩
      rw [hstop] at this
      cases this
    · have hj := (List.getElem?_eq_some_iff.mp hget).1
      simp only [List.length_append, List.length_cons, List.length_nil] at hj
      exact congrArg some (by omega)
  · intro hnone
    rw [show ({ s.client with
      heartbeats := s.client.heartbeats ++ [hb]
      heartbeatStop := some s.client.heartbeats.length } : TunnelClient).mux = s.client.mux from rfl,
      hmux] at hnone
    cases hnone
  · -- the session is made by this call, so no other one can start a heartbeat for it
    intro j hmem hcur
    obtain ⟨n, hn⟩ := List.mem_iff_getElem?.mp hmem
    have hcur' : some k = some j := hmux.symm.trans hcur
    cases hcur'
    by_cases hni : i = n
    · subst hni
      rw [List.getElem?_set_self (List.getElem?_eq_some_iff.mp hi).1] at hn
      cases hn
    · rw [List.getElem?_set_ne hni] at hn
      exact absurd (h.once i n _ _ k hi hn rfl rfl) hni
  · intro hclosed
    refine (h.shut hclosed).imp_right ?_
    intro hmem
    exact (eq_or_mem_set hmem hi _).resolve_left nofun

/-- A section of a call. -/
theorem oneSession_call (h : OneSession s) (hi : s.calls[i]? = some pc)
    (hok : MayStore s.client pc) (hm : ClientMove s.client pc c' pc') :
    OneSession ⟨c', s.calls.set i pc'⟩ := by
  have failed (attempt : Option ℕ) (err : ClientError) :
      making (TunnelClient.connectFailed attempt err) = none := by
    cases attempt <;> rfl
  cases hm with
  | closeAgain | giveUp | retry | connect => exact h.advance hi rfl rfl nofun
  | connectClosed attempt | dialFailed attempt err =>
    exact h.advance hi rfl (failed attempt _) nofun
  | close => exact (h.advance hi rfl rfl nofun).close (mem_set_self hi _)
  | teardown again => exact oneSession_teardown h hi
  | shut mux again =>
    apply oneSession_shut h hi
    cases again <;> rfl
  | dial attempt => exact oneSession_dial h hi
  | install k attempt => exact oneSession_install h hi hok.1 hok.2
  | startHeartbeat k => exact oneSession_startHeartbeat h _ hi hok

/-- No step makes a second session. -/
theorem oneSession_move {a : ClientAction} (h : OneSession s) (hok : StoresInTurn s a)
    (hm : ClientCallsMove s a s') : OneSession s' := by
  cases hm with
  | begin a pc hpc => exact h.begin hpc
  | call i a pc pc' c' hi hmove => exact oneSession_call h hi (hok pc hi) hmove
  | background a c' hb => exact h.background hb

/-- There is one session in every run. -/
theorem oneSession_reach {config : ClientConfig}
    (h : Reach ClientCalls.step StoresInTurn (newClient config) s) : OneSession s :=
  h.invariant OneSession (oneSession_new config)
    fun _ _ _ _ hI hok hs => oneSession_move hI hok (clientCalls_move hs)

/-! ## Results -/

/-- In every run of calls of `Connect`, `Reconnect` and `Close` in which a session is stored in a
client that has none and is not closed, and a heartbeat is started for the current session: every
session that was made is the current one, closed, or in the hands of a call under way; at most one
heartbeat is not cancelled; and a closed client with no call under way has no session, does not
report to be connected and has cancelled every heartbeat.
SOURCE: client_impl.go:98-196, 223-245 -/
theorem client_has_one_session {config : ClientConfig}
    (h : Reach ClientCalls.step StoresInTurn (newClient config) s) :
    (∀ k < s.client.links.length, s.client.mux = some k ∨ s.client.isClosed k = true ∨
      ∃ pc ∈ s.calls, handling pc = some k) ∧
    (∀ i j, Uncancelled s.client i → Uncancelled s.client j → i = j) ∧
    (s.client.closed = true → (∀ pc ∈ s.calls, ∃ err, pc = .done err) →
      s.client.mux = none ∧ s.client.connected = false ∧
        ∀ hb ∈ s.client.heartbeats, hb.ctxDone = true) := by
  have hI := oneSession_reach h
  refine ⟨hI.held, ?_, ?_⟩
  · intro i j hi hj
    have heq := (hI.stop i hi).symm.trans (hI.stop j hj)
    exact Option.some.inj heq
  · intro hclosed hdone
    have hmux : s.client.mux = none := by
      obtain hmux | hmem := hI.shut hclosed
      · exact hmux
      · obtain ⟨err, herr⟩ := hdone _ hmem
        cases herr
    refine ⟨hmux, ?_, ?_⟩
    · rw [hI.connected, hmux]
      rfl
    · intro hb hmem
      by_contra hrun
      obtain ⟨i, hi⟩ := List.mem_iff_getElem?.mp hmem
      have hstop := hI.stop i ⟨hb, hi, by simpa using hrun⟩
      rw [hI.stopped hmux] at hstop
      cases hstop

/-- A `Close` that falls into the backoff of a `Reconnect`. -/
theorem client_has_one_session_closed :
    ∃ s, Reach ClientCalls.step StoresInTurn (newClient ⟨30, 1⟩) s ∧ s.client.links.length = 1 ∧
      s.client.isClosed 0 = true ∧ s.client.mux = none ∧ s.client.connected = false ∧
      ∀ hb ∈ s.client.heartbeats, hb.ctxDone = true := by
  obtain ⟨s, hreach, hlen, hcl, hclosed, hcalls⟩ : ∃ s,
      Reach ClientCalls.step StoresInTurn (newClient ⟨30, 1⟩) s ∧ s.client.links.length = 1 ∧
      s.client.isClosed 0 = true ∧ s.client.closed = true ∧
      s.calls = [.done none, .done (some (.exhausted 1)), .done none] :=
    exists_reach_of_exec
      [.connect, .call 0 .run, .call 0 (.dial none), .call 0 .run, .call 0 .run, .heartbeat 0 .tick,
        .reconnect, .call 1 .run, .call 1 .run, .close, .call 2 .run, .call 1 .timer, .call 1 .run,
        .call 2 .run, .call 1 .run, .call 2 .run]
      _ (by decide)
  have hdone : ∀ pc ∈ s.calls, ∃ err, pc = .done err := by
    rw [hcalls]
    simp
  exact ⟨s, hreach, hlen, hcl, (client_has_one_session hreach).2.2 hclosed hdone⟩

/-- Two overlapping calls of `Connect` leave a session open that nobody has, with its heartbeat; and
a `Close` that falls into the dial of a `Connect` leaves the client connected. -/
theorem client_loses_sessions :
    (∃ s, Reach ClientCalls.step anyStep (newClient ⟨30, 10⟩) s ∧
      s.calls = [.done none, .done none] ∧ s.client.links.length = 2 ∧ s.client.mux = some 1 ∧
      s.client.isClosed 0 = false ∧ Uncancelled s.client 0 ∧ Uncancelled s.client 1) ∧
    ∃ s, Reach ClientCalls.step anyStep (newClient ⟨30, 10⟩) s ∧
      s.calls = [.done none, .done none] ∧ s.client.closed = true ∧ s.client.mux = some 0 ∧
      s.client.isClosed 0 = false ∧ s.client.connected = true ∧ Uncancelled s.client 0 := by
  constructor
  · exact exists_reach_of_exec
      [.connect, .connect, .call 0 .run, .call 1 .run, .call 0 (.dial none), .call 1 (.dial none),
        .call 0 .run, .call 0 .run, .call 1 .run, .call 1 .run]
      _ (by decide)
  · exact exists_reach_of_exec
      [.connect, .call 0 .run, .close, .call 1 .run, .call 0 (.dial none), .call 1 .run, .call 1 .run,
        .call 0 .run, .call 0 .run]
      _ (by decide)

end Atlax.Analysis
