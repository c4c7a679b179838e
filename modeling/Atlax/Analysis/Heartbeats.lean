import Atlax.Model.Tunnel

/-!
# Heartbeats and reconnecting

A heartbeat that fails posts on `disconnectCh`, which `Start` reads only after `acceptLoop` has
returned. While `Start` waits in `AcceptStream`, nothing but the session and the context can wake
it, and a failed heartbeat does not close the session. So the failure leads to `Reconnect` when
the session is closed anyway, and on a session that stays open it is never acted upon.
-/

set_option autoImplicit false

namespace Atlax.Analysis

open Atlax.Model Atlax.Library

variable {c c' : TunnelClient} {s s' : Tunnel} {k : ℕ} {a : HeartbeatAction} {hb : Heartbeat}
    {i : ℕ}

/-- The heartbeat has had an error from `Ping`. -/
def errored : HeartbeatPc → Bool
  | .failed | .returned true => true
  | _ => false

/-- The heartbeat of the current connection has failed and posted on `disconnectCh`. -/
def HeartbeatFailed (s : Tunnel) : Prop :=
  ∃ hb ∈ s.client.heartbeats, hb.pc = .returned true ∧ s.client.mux = some hb.mux

instance (s : Tunnel) : Decidable (HeartbeatFailed s) :=
  inferInstanceAs (Decidable (∃ hb ∈ s.client.heartbeats, _))

/-- The heartbeat of the current connection sees its `Ping` fail only once the session is closed. -/
def FailsClosed (s : Tunnel) : TunnelAction → Prop
  | .heartbeat i (.ping r) => r = .pong ∨
      ∀ hb ∈ s.client.heartbeats[i]?, s.client.mux = some hb.mux → s.client.isClosed hb.mux = true
  | _ => True

instance (s : Tunnel) (a : TunnelAction) : Decidable (FailsClosed s a) := by
  unfold FailsClosed
  split <;> infer_instance

/-! ## What the goroutines can do -/

/-- The steps of a call of `Connect`, `Reconnect` or `Close`. -/
inductive ClientMove (c : TunnelClient) : CallPc → TunnelClient → CallPc → Prop
  | closeAgain : ClientMove c .close c (.done none)
  | close : ClientMove c .close { c with closed := true } (.teardown false)
  | teardown (again : Bool) : ClientMove c (.teardown again) c.teardown (.shut c.mux again)
  | shut (mux : Option ℕ) (again : Bool) :
      ClientMove c (.shut mux again) (c.shut mux) (if again then .backoff 0 else .done none)
  -- the attempts are used up, or the context is done
  | giveUp (attempt : ℕ) (err : ClientError) :
      ClientMove c (.backoff attempt) c (.done (some err))
  | retry (attempt : ℕ) : ClientMove c (.backoff attempt) c (.connect (some attempt))
  | connectClosed (attempt : Option ℕ) :
      ClientMove c (.connect attempt) c (TunnelClient.connectFailed attempt .closed)
  | connect (attempt : Option ℕ) : ClientMove c (.connect attempt) c (.dial attempt)
  | dial (attempt : Option ℕ) :
      ClientMove c (.dial attempt) { c with links := c.links ++ [{}] }
        (.install c.links.length attempt)
  | dialFailed (attempt : Option ℕ) (err : String) :
      ClientMove c (.dial attempt) c (TunnelClient.connectFailed attempt (.dial err))
  | install (mux : ℕ) (attempt : Option ℕ) :
      ClientMove c (.install mux attempt) { c with mux := some mux, connected := true }
        (.startHeartbeat mux)
  | startHeartbeat (mux : ℕ) :
      ClientMove c (.startHeartbeat mux) { c with
        heartbeats := c.heartbeats ++ [{
          mux := mux
          pc := if c.config.heartbeatInterval ≤ 0 then .returned false else .waiting }]
        heartbeatStop := some c.heartbeats.length } (.done none)

/-- What a section of a call does. -/
theorem call_move {d : Bool} {pc pc' : CallPc} {a : CallAction}
    (h : c.call d pc a = some (c', pc')) : ClientMove c pc c' pc' := by
  unfold TunnelClient.call at h
  split at h
  · split at h <;> cases h
    · exact .closeAgain
    · exact .close
  · cases h
    exact .teardown _
  · cases h
    exact .shut _ _
  · split at h <;> cases h
    exact .giveUp _ _
  · split at h <;> cases h
    exact .giveUp _ _
  · split at h <;> cases h
    exact .retry _
  · split at h <;> cases h
    · exact .connectClosed _
    · exact .connect _
  · cases h
    exact .dial _
  · cases h
    exact .dialFailed _ _
  · cases h
    exact .install _ _
  · cases h
    exact .startHeartbeat _
  · cases h

/-- The steps of a heartbeat. -/
inductive HeartbeatMove (c : TunnelClient) (i : ℕ) (hb : Heartbeat) :
    HeartbeatAction → TunnelClient → Prop
  | tick : HeartbeatMove c i hb .tick (c.setHeartbeat i { hb with pc := .ticked })
  | quit : HeartbeatMove c i hb .quit (c.setHeartbeat i { hb with pc := .returned false })
  | readNone : HeartbeatMove c i hb .read (c.setHeartbeat i { hb with pc := .returned false })
  | read (k : ℕ) : HeartbeatMove c i hb .read
      ((c.modifyLink k fun l => { l with pingCh := false }).setHeartbeat i
        { hb with pc := .pinging k })
  | pong (k : ℕ) : HeartbeatMove c i hb (.ping .pong)
      ((c.modifyLink k fun l => { l with pingCh := false }).setHeartbeat i
        { hb with pc := .waiting })
  | pingFailed (r : PingResult) (hr : r ≠ .pong) :
      HeartbeatMove c i hb (.ping r) (c.setHeartbeat i { hb with pc := .failed })
  | post (hpc : hb.pc = .failed) : HeartbeatMove c i hb .post
      ({ c with disconnectCh := true }.setHeartbeat i { hb with pc := .returned true })

/-- What a step of a heartbeat does.
SOURCE: client_impl.go:247-288 -/
theorem heartbeat_move (h : c.heartbeat i hb a = some c') : HeartbeatMove c i hb a c' := by
  unfold TunnelClient.heartbeat at h
  split at h
  · split at h <;> cases h
    exact .tick
  · split at h <;> cases h
    exact .quit
  · split at h
    · split at h <;> cases h
      · exact .readNone
      · exact .read _
    · cases h
  · split at h
    · split at h
      · split at h <;> cases h
        · next hr =>
          subst hr
          exact .pong _
        · next hr => exact .pingFailed _ hr
      · cases h
    · cases h
  · split at h <;> cases h
    next hpc => exact .post hpc

/-- The steps of `Start`. -/
inductive RunnerMove (s : Tunnel) : Tunnel → Prop
  | begin : RunnerMove s { s with acceptDone := false, cancelAccept := true, pc := .readMux }
  | notConnected : RunnerMove s { s with acceptDone := true, pc := .left (some .notConnected) }
  | readMux (k : ℕ) (hmux : s.client.mux = some k) : RunnerMove s { s with pc := .accept k }
  | stream (k : ℕ) (payload : Bytes) (rest : List Bytes) :
      RunnerMove s (Tunnel.forward
        { s with client := s.client.modifyLink k fun l => { l with acceptCh := rest } } payload)
  | acceptFails (err : String) : RunnerMove s { s with pc := .acceptFailed err }
  | acceptFailed (err : Option TunnelError) :
      RunnerMove s { s with acceptDone := true, pc := .left err }
  | left : RunnerMove s { s with pc := if s.ctxDone then .returned none else .select }
  | done (hctx : s.ctxDone = true) : RunnerMove s { s with pc := .returned none }
  | disconnect : RunnerMove s { s with
      client := { s.client with disconnectCh := false }
      pc := .reconnect (.teardown true) }
  | connectionLost : RunnerMove s { s with pc := .reconnect (.teardown true) }
  | call (pc pc' : CallPc) (c' : TunnelClient) (hpc : s.pc = .reconnect pc)
      (hcall : ClientMove s.client pc c' pc') :
      RunnerMove s { s with client := c', pc := Tunnel.reconnectTo pc' }

/-- SOURCE: tunnel_impl.go:114-121 -/
theorem acceptStream_move {link : Link} {a : RunnerAction}
    (h : s.acceptStream k link a = some s') : RunnerMove s s' := by
  unfold Tunnel.acceptStream at h
  split at h
  · split at h <;> cases h
    exact .stream k _ _
  · split at h <;> cases h
    exact .acceptFails _
  · split at h <;> cases h
    exact .acceptFails _
  · cases h

/-- What a step of the runner does.
SOURCE: tunnel_impl.go:55-145 -/
theorem runner_move {a : RunnerAction} (h : s.runner a = some s') : RunnerMove s s' := by
  simp only [Tunnel.runner] at h
  split at h
  · cases h
    exact .begin
  · split at h <;> cases h
    · exact .notConnected
    · next k hk => exact .readMux k hk
  · obtain ⟨link, _, h⟩ := Option.bind_eq_some_iff.mp h
    exact acceptStream_move h
  · cases h
    exact .acceptFailed _
  · cases h
    exact .left
  · split at h <;> cases h
    next hctx => exact .done hctx
  · split at h <;> cases h
    exact .disconnect
  · split at h <;> cases h
    exact .connectionLost
  · next hpc =>
    obtain ⟨⟨c', pc'⟩, hcall, rfl⟩ := Option.map_eq_some_iff.mp h
    exact .call _ pc' c' hpc (call_move hcall)
  · cases h

/-! ## What the client's goroutines change -/

/-- A change of the client other than a new current session or a new heartbeat: sessions are added
and closed, a session may cease to be the current one, and a heartbeat of the current connection
has an error only if it had one before or the session is closed. -/
structure Quiet (c c' : TunnelClient) : Prop where
  links : c.links.length ≤ c'.links.length
  closed : ∀ k, c.isClosed k = true → c'.isClosed k = true
  mux : ∀ k, c'.mux = some k → c.mux = some k
  heartbeats : ∀ hb' ∈ c'.heartbeats, ∃ hb ∈ c.heartbeats, hb'.mux = hb.mux ∧
    (errored hb'.pc = true → errored hb.pc = true ∨
      (c.mux = some hb.mux → c.isClosed hb.mux = true))

theorem isClosed_modifyLink (c : TunnelClient) (k : ℕ) (f : Link → Link)
    (hf : ∀ l, l.closed = true → (f l).closed = true) (j : ℕ) (h : c.isClosed j = true) :
    (c.modifyLink k f).isClosed j = true := by
  unfold TunnelClient.isClosed TunnelClient.modifyLink at *
  rw [List.getElem?_modify]
  cases hl : c.links[j]? with
  | none => simp [hl] at h
  | some l =>
    simp only [hl, Option.any_some] at h
    by_cases hk : k = j
    · simpa [hk] using hf l h
    · simpa [hk] using h

/-- Sessions change, but none is opened again. -/
theorem quiet_modifyLink (c : TunnelClient) (k : ℕ) (f : Link → Link)
    (hf : ∀ l, l.closed = true → (f l).closed = true) : Quiet c (c.modifyLink k f) where
  links := by simp [TunnelClient.modifyLink]
  closed := isClosed_modifyLink c k f hf
  mux _ h := h
  heartbeats hb hmem := ⟨hb, hmem, rfl, .inl⟩

theorem Quiet.of_same (hlinks : c'.links = c.links := by rfl) (hmux : c'.mux = c.mux := by rfl)
    (hhbs : c'.heartbeats = c.heartbeats := by rfl) : Quiet c c' where
  links := by rw [hlinks]
  closed k h := by
    unfold TunnelClient.isClosed at *
    rwa [hlinks]
  mux k h := by rwa [hmux] at h
  heartbeats hb hmem := ⟨hb, by rwa [hhbs] at hmem, rfl, .inl⟩

/-- A heartbeat moves on. -/
theorem Quiet.setHeartbeat {hb hb' : Heartbeat} (h : Quiet c c')
    (hi : c.heartbeats[i]? = some hb) (hmux : hb'.mux = hb.mux)
    (herr : errored hb'.pc = true → errored hb.pc = true ∨
      (c.mux = some hb.mux → c.isClosed hb.mux = true)) : Quiet c (c'.setHeartbeat i hb') where
  links := h.links
  closed := h.closed
  mux := h.mux
  heartbeats hb₁ hmem := by
    rcases List.mem_or_eq_of_mem_set hmem with hmem | rfl
    · exact h.heartbeats hb₁ hmem
    · exact ⟨hb, List.mem_iff_getElem?.mpr ⟨i, hi⟩, hmux, herr⟩

/-- A heartbeat replaces no session. -/
theorem quiet_heartbeat (hi : c.heartbeats[i]? = some hb) (h : HeartbeatMove c i hb a c')
    (hok : ∀ r, a = .ping r → r ≠ .pong → c.mux = some hb.mux → c.isClosed hb.mux = true) :
    Quiet c c' := by
  have refl : Quiet c c := .of_same
  have clear (k : ℕ) : Quiet c (c.modifyLink k fun l => { l with pingCh := false }) :=
    quiet_modifyLink c k _ fun _ hl => hl
  cases h with
  | tick | quit | readNone => exact refl.setHeartbeat hi rfl nofun
  | read k | pong k => exact (clear k).setHeartbeat hi rfl nofun
  | pingFailed r hr => exact refl.setHeartbeat hi rfl fun _ => .inr (hok r rfl hr)
  | post hpc =>
    have hsame : Quiet c { c with disconnectCh := true } := .of_same
    refine hsame.setHeartbeat hi rfl fun _ => .inl ?_
    rw [hpc]
    rfl

/-- The call is about to make a session the current one or to start its heartbeat. -/
def installs : CallPc → Bool
  | .install _ _ | .startHeartbeat _ => true
  | _ => false

/-- Neither does a teardown. -/
theorem quiet_teardown (c : TunnelClient) : Quiet c c.teardown where
  links := Nat.le_refl _
  closed _ h := h
  mux := nofun
  heartbeats hb' hmem := by
    unfold TunnelClient.teardown at hmem
    split at hmem
    · exact ⟨hb', hmem, rfl, .inl⟩
    · next i _ =>
      obtain ⟨j, hj⟩ := List.mem_iff_getElem?.mp hmem
      rw [List.getElem?_modify] at hj
      obtain ⟨hb, hhb, rfl⟩ := Option.map_eq_some_iff.mp hj
      refine ⟨hb, List.mem_iff_getElem?.mpr ⟨j, hhb⟩, ?_⟩
      split
      · exact ⟨rfl, .inl⟩
      · exact ⟨rfl, .inl⟩

theorem quiet_shut (c : TunnelClient) (mux : Option ℕ) : Quiet c (c.shut mux) := by
  cases mux with
  | none => exact .of_same
  | some k => exact quiet_modifyLink c k _ fun _ _ => rfl

/-- Nor does a call before it stores one. -/
theorem quiet_call {pc pc' : CallPc} (hpc : installs pc = false) (h : ClientMove c pc c' pc') :
    Quiet c c' := by
  cases h with
  | teardown => exact quiet_teardown c
  | shut mux => exact quiet_shut c mux
  | dial =>
    refine ⟨by simp, fun k hk => ?_, fun _ hk => hk, fun hb hmem => ⟨hb, hmem, rfl, .inl⟩⟩
    unfold TunnelClient.isClosed at *
    cases hl : c.links[k]? with
    | none => simp [hl] at hk
    | some l => rwa [List.getElem?_append_left (List.getElem?_eq_some_iff.mp hl).1]
  | install | startHeartbeat => cases hpc
  | _ => exact .of_same

/-! ## The supervisor and the current session -/

/-- What `Start` knows of the current session where it stands: in `AcceptStream` it is the one it
accepts on, while reconnecting there is none, and a session that is not yet installed or whose
heartbeat is not yet started has no heartbeat. -/
def Owns (c : TunnelClient) (ctxDone : Bool) : RunnerPc → Prop
  | .accept k => k < c.links.length ∧ ∀ k', c.mux = some k' → k' = k
  | .loop | .readMux | .acceptFailed _ | .left _ | .select | .reconnect (.teardown true) => True
  | .reconnect (.shut _ true) | .reconnect (.backoff _) | .reconnect (.connect (some _))
  | .reconnect (.dial (some _)) => c.mux = none
  | .reconnect (.install k (some _)) =>
    c.mux = none ∧ k < c.links.length ∧ ∀ hb ∈ c.heartbeats, hb.mux ≠ k
  | .reconnect (.startHeartbeat k) =>
    (∀ k', c.mux = some k' → k' = k) ∧ k < c.links.length ∧ ∀ hb ∈ c.heartbeats, hb.mux ≠ k
  | .reconnect _ => False
  | .returned _ => ctxDone = true ∨ c.mux = none

/-- The places of a call of `Close`. -/
def closes : CallPc → Bool
  | .close | .teardown false | .shut _ false | .done _ => true
  | _ => false

/-- Every heartbeat that reports an error has closed its session. -/
structure TunnelInv (s : Tunnel) : Prop where
  mux : ∀ k, s.client.mux = some k → k < s.client.links.length
  heartbeats : ∀ hb ∈ s.client.heartbeats, hb.mux < s.client.links.length
  errored : ∀ hb ∈ s.client.heartbeats, errored hb.pc = true → s.client.mux = some hb.mux →
    s.client.isClosed hb.mux = true
  owns : Owns s.client s.ctxDone s.pc
  calls : ∀ pc ∈ s.calls, closes pc = true

theorem Quiet.none (q : Quiet c c') (h : c.mux = none) : c'.mux = none := by
  cases hm : c'.mux with
  | none => rfl
  | some k =>
    rw [q.mux k hm] at h
    cases h

theorem Quiet.heartbeat_ne (q : Quiet c c') (h : ∀ hb ∈ c.heartbeats, hb.mux ≠ k) :
    ∀ hb ∈ c'.heartbeats, hb.mux ≠ k := by
  intro hb' hmem
  obtain ⟨hb, hmem, hmux, _⟩ := q.heartbeats hb' hmem
  rw [hmux]
  exact h hb hmem

/-- The runner keeps the session it works on. -/
theorem Owns.quiet {d d' : Bool} {pc : RunnerPc} (h : Owns c d pc) (q : Quiet c c')
    (hd : d = true → d' = true) : Owns c' d' pc := by
  unfold Owns at h ⊢
  split at h
  · exact ⟨Nat.lt_of_lt_of_le h.1 q.links, fun k' hk => h.2 k' (q.mux k' hk)⟩
  · trivial
  · trivial
  · trivial
  · trivial
  · trivial
  · trivial
  · exact q.none h
  · exact q.none h
  · exact q.none h
  · exact q.none h
  · exact ⟨q.none h.1, Nat.lt_of_lt_of_le h.2.1 q.links, q.heartbeat_ne h.2.2⟩
  · exact ⟨fun k' hk => h.1 k' (q.mux k' hk), Nat.lt_of_lt_of_le h.2.1 q.links,
      q.heartbeat_ne h.2.2⟩
  · exact h
  · exact h.imp hd q.none

/-- The invariant over a quiet change of the client. -/
theorem TunnelInv.quiet (h : TunnelInv s) (q : Quiet s.client s'.client)
    (howns : Owns s'.client s'.ctxDone s'.pc) (hcalls : ∀ pc ∈ s'.calls, closes pc = true) :
    TunnelInv s' where
  mux k hk := Nat.lt_of_lt_of_le (h.mux k (q.mux k hk)) q.links
  heartbeats hb' hmem := by
    obtain ⟨hb, hmem, hmux, _⟩ := q.heartbeats hb' hmem
    rw [hmux]
    exact Nat.lt_of_lt_of_le (h.heartbeats hb hmem) q.links
  errored hb' hmem herr hcur := by
    obtain ⟨hb, hmem, hmux, himp⟩ := q.heartbeats hb' hmem
    rw [hmux] at hcur ⊢
    have hcur := q.mux _ hcur
    apply q.closed
    rcases himp herr with herr | hcl
    · exact h.errored hb hmem herr hcur
    · exact hcl hcur
  owns := howns
  calls := hcalls

/-- `Close` neither installs a session nor starts a heartbeat. -/
theorem closes_call {pc pc' : CallPc} (hpc : closes pc = true) (h : ClientMove c pc c' pc') :
    installs pc = false ∧ closes pc' = true := by
  cases h with
  | closeAgain | close => exact ⟨rfl, rfl⟩
  | teardown again | shut mux again =>
    cases again with
    | false => exact ⟨rfl, rfl⟩
    | true => cases hpc
  | _ => cases hpc

/-- `Reconnect` takes the current session away before anything else, and what it installs in the end
is new. -/
theorem owns_call {d : Bool} {pc pc' : CallPc}
    (hhbs : ∀ hb ∈ c.heartbeats, hb.mux < c.links.length) (h : Owns c d (.reconnect pc))
    (hcall : ClientMove c pc c' pc') : Owns c' d (Tunnel.reconnectTo pc') := by
  cases hcall with
  | closeAgain | close => exact h.elim
  | teardown again =>
    cases again with
    | false => exact h.elim
    | true => exact (rfl : c.teardown.mux = none)
  | shut mux again =>
    cases again with
    | false => exact h.elim
    | true => exact (quiet_shut c mux).none h
  | giveUp attempt err => exact .inr h
  | retry attempt => exact h
  | connectClosed attempt | connect attempt | dialFailed attempt =>
    cases attempt with
    | none => exact h.elim
    | some n => exact h
  | dial attempt =>
    cases attempt with
    | none => exact h.elim
    | some n =>
      refine ⟨h, by simp, fun hb hmem => ?_⟩
      exact Nat.ne_of_lt (hhbs hb hmem)
  | install mux attempt =>
    cases attempt with
    | none => exact h.elim
    | some n => exact ⟨fun k' hk => (Option.some.inj hk).symm, h.2⟩
  | startHeartbeat mux => trivial

/-- A call of `Reconnect`. -/
theorem TunnelInv.call {pc pc' : CallPc} (h : TunnelInv s) (hpc : s.pc = .reconnect pc)
    (hcall : ClientMove s.client pc c' pc') :
    TunnelInv { s with client := c', pc := Tunnel.reconnectTo pc' } := by
  have howns : Owns s.client s.ctxDone (.reconnect pc) := hpc ▸ h.owns
  have howns' := owns_call h.heartbeats howns hcall
  cases hinst : installs pc with
  | false => exact h.quiet (quiet_call hinst hcall) howns' h.calls
  | true =>
    cases hcall with
    | install k attempt =>
      cases attempt with
      | none => exact howns.elim
      | some n =>
        obtain ⟨_, hk, hne⟩ := howns
        refine ⟨?_, h.heartbeats, ?_, howns', h.calls⟩
        · rintro k' ⟨⟩
          exact hk
        · intro hb hmem _ hcur
          exact absurd (Option.some.inj hcur).symm (hne hb hmem)
    | startHeartbeat k =>
      obtain ⟨hcur, hk, hne⟩ := howns
      have cases_mem : ∀ hb ∈ s.client.heartbeats ++ [({
          mux := k
          pc := if s.client.config.heartbeatInterval ≤ 0 then .returned false else .waiting } :
            Heartbeat)], hb ∈ s.client.heartbeats ∨ hb.mux = k ∧ Analysis.errored hb.pc = false := by
        intro hb hmem
        rcases List.mem_append.mp hmem with hmem | hmem
        · exact .inl hmem
        · rw [List.mem_singleton.mp hmem]
          refine .inr ⟨rfl, ?_⟩
          simp only
          split <;> rfl
      refine ⟨h.mux, ?_, ?_, howns', h.calls⟩
      · intro hb hmem
        rcases cases_mem hb hmem with hmem | ⟨rfl, -⟩
        · exact h.heartbeats hb hmem
        · exact hk
      · intro hb hmem herr hmux
        rcases cases_mem hb hmem with hmem | ⟨-, hno⟩
        · exact h.errored hb hmem herr hmux
        · rw [hno] at herr
          cases herr
    | _ => cases hinst

/-- The client changes quietly and everything else stays. -/
theorem TunnelInv.client (h : TunnelInv s) (q : Quiet s.client c') :
    TunnelInv { s with client := c' } :=
  h.quiet q (h.owns.quiet q id) h.calls

/-- The client stays. -/
theorem TunnelInv.pc {s' : Tunnel} (h : TunnelInv s) (hc : s'.client = s.client)
    (hcalls : s'.calls = s.calls) (howns : Owns s.client s'.ctxDone s'.pc) : TunnelInv s' := by
  refine h.quiet (.of_same ?_ ?_ ?_) (hc ▸ howns) (hcalls ▸ h.calls) <;> rw [hc]

/-- The runner. -/
theorem tunnelInv_runner (h : TunnelInv s) (hs : RunnerMove s s') : TunnelInv s' := by
  cases hs with
  | begin | notConnected | acceptFails | acceptFailed | connectionLost =>
    exact h.pc rfl rfl trivial
  | readMux k hk =>
    refine h.pc rfl rfl ⟨h.mux k hk, fun k' hk' => ?_⟩
    rw [hk] at hk'
    exact (Option.some.inj hk').symm
  | stream k payload rest =>
    have hq := h.client (quiet_modifyLink s.client k (fun l => { l with acceptCh := rest })
      fun _ hl => hl)
    unfold Tunnel.forward
    split
    · exact hq
    · exact hq.pc rfl rfl hq.owns
  | left =>
    refine h.pc rfl rfl ?_
    cases hd : s.ctxDone with
    | true => exact .inl rfl
    | false => trivial
  | done hctx => exact h.pc rfl rfl (.inl hctx)
  | disconnect => exact h.quiet (.of_same) trivial h.calls
  | call pc pc' c' hpc hcall => exact h.call hpc hcall

/-- No step breaks it. -/
theorem tunnelInv_step {a : TunnelAction} (h : TunnelInv s) (hok : FailsClosed s a)
    (hs : s.step a = some s') : TunnelInv s' := by
  cases a with
  | runner a => exact tunnelInv_runner h (runner_move hs)
  | heartbeat i a =>
    obtain ⟨hb, hi, hs⟩ := Option.bind_eq_some_iff.mp hs
    obtain ⟨c', hc, rfl⟩ := Option.map_eq_some_iff.mp hs
    refine h.client (quiet_heartbeat hi (heartbeat_move hc) ?_)
    rintro r rfl hr
    rcases hok with hpong | hclosed
    · exact absurd hpong hr
    · exact hclosed hb hi
  | forwarded =>
    simp only [Tunnel.step] at hs
    split at hs <;> cases hs
    exact h.pc rfl rfl h.owns
  | cancel =>
    cases hs
    exact h.pc rfl rfl (h.owns.quiet (.of_same) fun _ => rfl)
  | stop =>
    cases hs
    split
    · exact h.pc rfl rfl h.owns
    · exact h
  | close =>
    cases hs
    refine h.quiet (.of_same) h.owns ?_
    simpa [closes, or_imp, forall_and] using h.calls
  | closing i a =>
    obtain ⟨pc, hi, hs⟩ := Option.bind_eq_some_iff.mp hs
    obtain ⟨⟨c', pc'⟩, hcall, rfl⟩ := Option.map_eq_some_iff.mp hs
    have hmove := call_move hcall
    obtain ⟨hinst, hcl⟩ := closes_call (h.calls pc (List.mem_iff_getElem?.mpr ⟨i, hi⟩)) hmove
    have q := quiet_call hinst hmove
    refine h.quiet q (h.owns.quiet q id) ?_
    intro pc hmem
    rcases List.mem_or_eq_of_mem_set hmem with hmem | rfl
    · exact h.calls pc hmem
    · exact hcl
  | opened k payload =>
    obtain ⟨link, _, hs⟩ := Option.bind_eq_some_iff.mp hs
    split at hs <;> cases hs
    exact h.client (quiet_modifyLink _ _ _ fun _ hl => hl)
  | pong k =>
    cases hs
    exact h.client (quiet_modifyLink _ _ _ fun _ hl => hl)
  | fail k =>
    cases hs
    exact h.client (quiet_modifyLink _ _ _ fun _ _ => rfl)

/-- It holds in every run. -/
theorem tunnelInv_reach {config : ClientConfig} {services : ServiceMap}
    (h : TunnelReach config services FailsClosed s) : TunnelInv s := by
  refine Reach.invariant TunnelInv h ?_ fun s a s' _ hI hok hs => tunnelInv_step hI hok hs
  refine ⟨?_, ?_, ?_, trivial, nofun⟩
  · rintro k ⟨⟩
    exact Nat.zero_lt_one
  · simp [connected]
  · intro hb hmem herr
    rw [List.mem_singleton.mp hmem] at herr
    simp only at herr
    split at herr <;> cases herr

/-! ## The way to `Reconnect` -/

/-- Steps of `Start` itself. -/
def supervising (_ : Tunnel) : TunnelAction → Prop
  | .runner _ => True
  | _ => False

/-- `Start` gets to `Reconnect` by steps of its own. -/
def GetsToReconnect (s : Tunnel) : Prop :=
  ∃ s' pc, Reach Tunnel.step supervising s s' ∧ s'.pc = .reconnect pc

theorem GetsToReconnect.of_step {a : RunnerAction} (hs : s.runner a = some s')
    (h : GetsToReconnect s') : GetsToReconnect s := by
  obtain ⟨s'', pc, hreach, hpc⟩ := h
  refine ⟨s'', pc, Reach.trans (.tail .refl ?_ (show s.step (.runner a) = some s' from hs)) hreach,
    hpc⟩
  trivial

/-- A failed session is replaced.
SOURCE: tunnel_impl.go:55-96 -/
theorem getsToReconnect_select (hpc : s.pc = .select) (hctx : s.ctxDone = false) :
    GetsToReconnect s := by
  cases hd : s.client.disconnectCh with
  | true =>
    have hs : s.runner .disconnect = some { s with
        client := { s.client with disconnectCh := false }
        pc := .reconnect (.teardown true) } := by
      simp only [Tunnel.runner, hpc, hd, if_true]
    exact .of_step hs ⟨_, .teardown true, .refl, rfl⟩
  | false =>
    have hs : s.runner .run = some { s with pc := .reconnect (.teardown true) } := by
      simp only [Tunnel.runner, hpc, hd, hctx]
      rfl
    exact .of_step hs ⟨_, .teardown true, .refl, rfl⟩

theorem getsToReconnect_left {err : Option TunnelError} (hpc : s.pc = .left err)
    (hctx : s.ctxDone = false) : GetsToReconnect s := by
  refine .of_step (a := .run) ?_ (getsToReconnect_select (s := { s with pc := .select }) rfl hctx)
  simp only [Tunnel.runner, hpc, hctx]
  rfl

theorem getsToReconnect_acceptFailed {err : String} (hpc : s.pc = .acceptFailed err)
    (hctx : s.ctxDone = false) : GetsToReconnect s := by
  refine .of_step (a := .run) ?_ (getsToReconnect_left (s := { s with
    acceptDone := true
    pc := .left (if s.acceptDone ∨ s.ctxDone then none else some (.accept err)) }) rfl hctx)
  simp only [Tunnel.runner, hpc]

/-- The runner finds its session closed. -/
theorem getsToReconnect_accept (hpc : s.pc = .accept k)
    (hclosed : s.client.isClosed k = true) (hctx : s.ctxDone = false) : GetsToReconnect s := by
  unfold TunnelClient.isClosed at hclosed
  cases hl : s.client.links[k]? with
  | none => simp [hl] at hclosed
  | some l =>
    simp only [hl, Option.any_some] at hclosed
    refine .of_step (a := .closed) ?_ (getsToReconnect_acceptFailed (s := { s with
      pc := .acceptFailed "mux: accept stream: received GOAWAY from peer" }) rfl hctx)
    simp only [Tunnel.runner, hpc, hl, Option.bind_some, Tunnel.acceptStream, hclosed, if_true]

theorem getsToReconnect_readMux (hpc : s.pc = .readMux) (hmux : s.client.mux = some k)
    (hclosed : s.client.isClosed k = true) (hctx : s.ctxDone = false) : GetsToReconnect s := by
  refine .of_step (a := .run) ?_ (getsToReconnect_accept (s := { s with pc := .accept k }) rfl
    hclosed hctx)
  simp only [Tunnel.runner, hpc, hmux]

/-- In every run in which the heartbeat of the current connection sees its `Ping` fail only once the
session is closed: after it has failed and posted, `Start` gets to `Reconnect` by its own steps as
long as the context is not done, and it does not wait in `AcceptStream` on a session that is open.
SOURCE: tunnel_impl.go:55-145; client_impl.go:247-288; mux_session.go:175-187 -/
theorem heartbeat_failure_reconnects {config : ClientConfig} {services : ServiceMap}
    (h : TunnelReach config services FailsClosed s) (hfailed : HeartbeatFailed s)
    (hctx : s.ctxDone = false) :
    GetsToReconnect s ∧ ∀ k, s.pc = .accept k → s.client.isClosed k = true := by
  have hI := tunnelInv_reach h
  obtain ⟨hb, hmem, hposted, hmux⟩ := hfailed
  have hclosed : s.client.isClosed hb.mux = true :=
    hI.errored hb hmem (by rw [hposted]; rfl) hmux
  have howns := hI.owns
  have haccept : ∀ k, s.pc = .accept k → s.client.isClosed k = true := by
    intro k hpc
    rw [hpc] at howns
    rwa [← howns.2 hb.mux hmux]
  refine ⟨?_, haccept⟩
  cases hpc : s.pc with
  | loop =>
    refine .of_step (a := .run) ?_ (getsToReconnect_readMux (s := { s with
      acceptDone := false, cancelAccept := true, pc := .readMux }) rfl hmux hclosed hctx)
    simp only [Tunnel.runner, hpc]
  | readMux => exact getsToReconnect_readMux hpc hmux hclosed hctx
  | accept k => exact getsToReconnect_accept hpc (haccept k hpc) hctx
  | acceptFailed err => exact getsToReconnect_acceptFailed hpc hctx
  | left err => exact getsToReconnect_left hpc hctx
  | select => exact getsToReconnect_select hpc hctx
  | reconnect pc => exact ⟨s, pc, .refl, hpc⟩
  | returned err =>
    -- it returns with a current session only when the context is done
    rw [hpc] at howns
    rcases howns with hdone | hnone
    · rw [hctx] at hdone
      cases hdone
    · rw [hmux] at hnone
      cases hnone

/-- A transport that fails under a running tunnel. -/
theorem heartbeat_failure_reconnects_transport :
    ∃ s, TunnelReach ⟨30, 10⟩ ∅ FailsClosed s ∧ HeartbeatFailed s ∧ s.pc = .accept 0 ∧
      GetsToReconnect s := by
  obtain ⟨s, hr, hfailed, hpc, hctx⟩ : ∃ s, TunnelReach ⟨30, 10⟩ ∅ FailsClosed s ∧
      HeartbeatFailed s ∧ s.pc = .accept 0 ∧ s.ctxDone = false :=
    exists_reach_of_exec
      [.runner .run, .runner .run, .opened 0 [104], .runner .stream, .heartbeat 0 .tick,
        .heartbeat 0 .read, .pong 0, .heartbeat 0 (.ping .pong), .heartbeat 0 .tick,
        .heartbeat 0 .read, .fail 0, .heartbeat 0 (.ping .closed), .heartbeat 0 .post]
      _ (by decide +kernel)
  exact ⟨s, hr, hfailed, hpc, (heartbeat_failure_reconnects hr hfailed hctx).1⟩

/-! ## A session that stays open -/

/-- No frame of the relay, no transport error, and nothing from the agent's main function. -/
def undisturbed (_ : Tunnel) : TunnelAction → Prop
  | .cancel | .stop | .close | .opened _ _ | .pong _ | .fail _ => False
  | _ => True

/-- `Start` waits in `AcceptStream` on an open session without streams, under contexts that are not
done. -/
structure StuckAccepting (k : ℕ) (s : Tunnel) : Prop where
  pc : s.pc = .accept k
  link : ∃ l, s.client.links[k]? = some l ∧ l.closed = false ∧ l.acceptCh = []
  acceptDone : s.acceptDone = false
  ctxDone : s.ctxDone = false
  calls : s.calls = []

/-- The runner waits in AcceptStream. -/
theorem StuckAccepting.runner (h : StuckAccepting k s) (a : RunnerAction) :
    s.runner a = none := by
  obtain ⟨hpc, ⟨l, hl, hopen, hempty⟩, hacc, hctx, _⟩ := h
  unfold Tunnel.runner
  rw [hpc]
  simp only [hl, Option.bind_some]
  unfold Tunnel.acceptStream
  cases a <;> simp [hopen, hempty, hacc, hctx]

/-- A heartbeat leaves the streams and the end of every session alone. -/
theorem heartbeat_links
    (h : HeartbeatMove c i hb a c') (k : ℕ) {l : Link} (hl : c.links[k]? = some l) :
    ∃ l', c'.links[k]? = some l' ∧ l'.closed = l.closed ∧ l'.acceptCh = l.acceptCh := by
  have clear (j : ℕ) : ∃ l', (c.links.modify j fun l => { l with pingCh := false })[k]? = some l' ∧
      l'.closed = l.closed ∧ l'.acceptCh = l.acceptCh := by
    rw [List.getElem?_modify, hl]
    by_cases hj : j = k
    · exact ⟨{ l with pingCh := false }, by simp [hj], rfl, rfl⟩
    · exact ⟨l, by simp [hj], rfl, rfl⟩
  cases h with
  | read j | pong j => exact clear j
  | _ => exact ⟨l, hl, rfl, rfl⟩

/-- It waits on, whatever else happens. -/
theorem stuckAccepting_step {a : TunnelAction} (h : StuckAccepting k s)
    (hok : undisturbed s a) (hs : s.step a = some s') : StuckAccepting k s' := by
  cases a with
  | runner a =>
    rw [Tunnel.step, h.runner a] at hs
    cases hs
  | heartbeat i a =>
    obtain ⟨hb, _, hs⟩ := Option.bind_eq_some_iff.mp hs
    obtain ⟨c', hc, rfl⟩ := Option.map_eq_some_iff.mp hs
    obtain ⟨l, hl, hopen, hempty⟩ := h.link
    obtain ⟨l', hl', hcl, hacc⟩ := heartbeat_links (heartbeat_move hc) k hl
    exact ⟨h.pc, ⟨l', hl', hcl.trans hopen, hacc.trans hempty⟩, h.acceptDone, h.ctxDone, h.calls⟩
  | forwarded =>
    simp only [Tunnel.step] at hs
    split at hs <;> cases hs
    exact ⟨h.pc, h.link, h.acceptDone, h.ctxDone, h.calls⟩
  | closing i a =>
    obtain ⟨pc, hi, _⟩ := Option.bind_eq_some_iff.mp hs
    rw [h.calls] at hi
    cases hi
  | cancel | stop | close | opened | pong | fail => exact hok.elim

/-- The heartbeat times out on a session that stays open and posts; `Start` has no step, and unless
the relay, the transport or the agent's main function does something, it waits forever. -/
theorem heartbeat_failure_ignored :
    ∃ s, TunnelReach ⟨30, 10⟩ ∅ anyStep s ∧ HeartbeatFailed s ∧ s.ctxDone = false ∧
      s.client.disconnectCh = true ∧ (∀ a, s.runner a = none) ∧
      ∀ s', Reach Tunnel.step undisturbed s s' →
        s'.pc = .accept 0 ∧ s'.client.isClosed 0 = false := by
  obtain ⟨s, hr, hfailed, hch, hpc, hlink, hacc, hctx, hcalls⟩ : ∃ s,
      TunnelReach ⟨30, 10⟩ ∅ anyStep s ∧ HeartbeatFailed s ∧ s.client.disconnectCh = true ∧
      s.pc = .accept 0 ∧ s.client.links[0]? = some ⟨false, false, [], false⟩ ∧
      s.acceptDone = false ∧ s.ctxDone = false ∧ s.calls = [] :=
    exists_reach_of_exec
      [.runner .run, .runner .run, .heartbeat 0 .tick, .heartbeat 0 .read,
        .heartbeat 0 (.ping .timeout), .heartbeat 0 .post]
      _ (by decide +kernel)
  have hstuck : StuckAccepting 0 s := ⟨hpc, ⟨_, hlink, rfl, rfl⟩, hacc, hctx, hcalls⟩
  refine ⟨s, hr, hfailed, hctx, hch, hstuck.runner, fun s' hreach => ?_⟩
  have hend : StuckAccepting 0 s' :=
    Reach.invariant (StuckAccepting 0) hreach hstuck fun _ _ _ _ hI => stuckAccepting_step hI
  obtain ⟨l, hl, hopen, _⟩ := hend.link
  exact ⟨hend.pc, by simp [TunnelClient.isClosed, hl, hopen]⟩

end Atlax.Analysis
