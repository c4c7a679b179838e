import Atlax.Analysis.Opening

/-!
# Identifiers over the life of a session

No removal loses an identifier: before Close, each one that the counter has yielded is free or in
use, so that the counter moves on only when all of them are in use and stays below the stream limit.
The two sides keep to their own parity: what one frees and hands out has its parity, what it accepts
from the peer has the other, and what it accepts was not in use. All of this holds whatever the peer
sends; that an honest peer's opens are never refused for their parity is then a fact about two
sessions.
-/

set_option autoImplicit false

namespace Atlax.Analysis

open Atlax.Model Atlax.Library

variable {s s' : Session} {a : Action} {n : ℕ} {role : Role}

/-! ## The counter -/

theorem startID_pos (role : Role) : 0 < startID role := by cases role <;> decide

theorem issuedID_of_lt {k : ℕ} (h : startID role + 2 * k < 2 ^ 32) :
    issuedID role k = startID role + 2 * k := Nat.mod_eq_of_lt h

/-- The counter is a multiple of two away from its start. -/
theorem Counted.next_eq (hc : Counted s n)
    (hM : startID s.role + 2 * s.config.maxConcurrentStreams < 2 ^ 32) :
    s.table.nextStreamID = startID s.role + 2 * n := by
  rw [hc.issued.next, issuedID_of_lt]
  have := hc.bound
  omega

/-- Below the counter, an identifier of the session's parity is free or in use. -/
theorem Counted.covers (hc : Counted s n)
    (hM : startID s.role + 2 * s.config.maxConcurrentStreams < 2 ^ 32) {i : ℕ}
    (hlo : startID s.role ≤ i) (hhi : i < s.table.nextStreamID)
    (hpar : i % 2 = startID s.role % 2) : i ∈ s.table.freeIDs ∨ s.table.get i ≠ none := by
  have hb := hc.bound
  rw [hc.next_eq hM] at hhi
  -- the identifier is the `k`-th one the counter has yielded
  obtain ⟨k, hk⟩ : ∃ k, i = startID s.role + 2 * k := ⟨(i - startID s.role) / 2, by omega⟩
  have hcov := hc.issued.covered k (by omega)
  rw [issuedID_of_lt (by omega), ← hk] at hcov
  exact hcov.symm

/-- Below the limit, what an open takes is not the identifier of the connection. -/
theorem Counted.allocID_ne_zero (hc : Counted s n)
    (hM : startID s.role + 2 * s.config.maxConcurrentStreams < 2 ^ 32)
    (hlen : s.table.streams.entries.length < s.config.maxConcurrentStreams) :
    s.table.allocID.1 ≠ 0 := by
  have hM' : s.config.maxConcurrentStreams ≤ 2 ^ 31 := by
    have := startID_pos s.role
    omega
  obtain ⟨n', _, hn', _, k, hk, hid⟩ := issued_alloc hc hM' hlen
  rw [hid, issuedID_of_lt (by omega)]
  have := startID_pos s.role
  omega

/-- The counter never goes back. -/
theorem nextStreamID_step (hc : Counted s n)
    (hM : startID s.role + 2 * s.config.maxConcurrentStreams < 2 ^ 32) (hm : Move s a s') :
    s.table.nextStreamID ≤ s'.table.nextStreamID := by
  cases hm with
  | openAlloc payload h hlen =>
    simp only [Session.addCell_table, Session.setTable_table, StreamTable.insert]
    cases hf : s.table.freeIDs with
    | cons id rest => simp [s.table.allocID_of_cons hf]
    | nil =>
      have hM' : s.config.maxConcurrentStreams ≤ 2 ^ 31 := by
        have := startID_pos s.role
        omega
      have hle := hc.issued.le_length hf (Nat.le_trans hc.bound hM')
      rw [s.table.allocID_of_nil hf]
      simp only [hc.next_eq hM]
      rw [Nat.mod_eq_of_lt (by omega)]
      exact Nat.le_add_right _ 2
  | openRemove | closeDelete | delete => simp
  | resetLookup | resetRemove => simp
  | _ => exact Nat.le_refl _

/-- Before Close, no identifier below the counter is lost, the counter stays within the limit and
never goes back, and identifier 0 is never handed out.
SOURCE: mux_session.go:111-141, 492-513, 641-723 -/
theorem identifiers_accounted {role : Role} {config : MuxConfig}
    (hM : startID role + 2 * config.maxConcurrentStreams < 2 ^ 32)
    (h : SessionReach role config anyStep s) (hrun : s.closing = .running) :
    (∀ i, startID role ≤ i → i < s.table.nextStreamID → i % 2 = startID role % 2 →
      i ∈ s.table.freeIDs ∨ s.table.get i ≠ none) ∧
    s.table.nextStreamID ≤ startID role + 2 * config.maxConcurrentStreams ∧
    (∀ a s', s.step a = some s' → s.table.nextStreamID ≤ s'.table.nextStreamID) ∧
    (s.table.streams.entries.length < config.maxConcurrentStreams → s.table.allocID.1 ≠ 0) := by
  have hM' : config.maxConcurrentStreams ≤ 2 ^ 31 := by
    have := startID_pos role
    omega
  obtain ⟨n, hc⟩ := counted_reach hM' h hrun
  obtain rfl := session_role h
  obtain rfl := session_config h
  refine ⟨fun i => hc.covers hM, ?_, ?_, hc.allocID_ne_zero hM⟩
  · rw [hc.next_eq hM]
    have := hc.bound
    omega
  · intro a s' hstep
    exact nextStreamID_step hc hM (step_move hstep)

theorem identifiers_accounted_closeInTurn :
    ∃ s, SessionReach .agent ⟨4, 65536, 65536⟩ anyStep s ∧ s.table.nextStreamID = 4 ∧
      (2 ∈ s.table.freeIDs ∨ s.table.get 2 ≠ none) := by
  have hex : ∃ s, SessionReach .agent ⟨4, 65536, 65536⟩ anyStep s ∧ s.table.nextStreamID = 4 ∧
      s.closing = .running :=
    exists_reach_of_exec closeInTurnRun _ (by decide)
  obtain ⟨s, hs, hn, hrun⟩ := hex
  exact ⟨s, hs, hn, (identifiers_accounted (by decide) hs hrun).1 2 (by decide) (by omega) rfl⟩

/-! ## Parity -/

/-- A peer's open that has passed the checks still finds its identifier free when its stream is
inserted: in between only `OpenStream` inserts, under identifiers of the other parity. -/
theorem acceptInsert_vacant_move (hw : WellFormed s)
    (h : ∀ p, s.reader = .acceptInsert p → s.table.get p.frame.streamID = none) (hm : Move s a s')
    {p : Packet} (hrd : s'.reader = .acceptInsert p) : s'.table.get p.frame.streamID = none := by
  have hold : s.table.get p.frame.streamID = none ∧ s.table.ownsID p.frame.streamID = false := by
    rcases move_acceptInsert hm hrd with hrd | ⟨_, _, hget, hown⟩
    · exact ⟨h p hrd, hw.acceptInsert p hrd⟩
    · exact ⟨hget, hown⟩
  by_contra hne
  obtain ⟨r, hr⟩ := Option.ne_none_iff_exists'.mp hne
  rcases move_table hm hr with hr | ⟨rfl, hn, hid⟩
  · rw [hold.1] at hr
    cases hr
  · rcases (move_fresh hm (hn ▸ Nat.lt_succ_self _)).2 with
      ⟨payload, _, _, _, hcell⟩ | ⟨q, _, _, hrd', _⟩
    · rw [hcell, openedCell_id] at hid
      have hown := ownsID_allocID hw.freeIDs
      rw [hid, hold.2] at hown
      cases hown
    · rw [hrd'] at hrd
      cases hrd

theorem acceptInsert_vacant {config : MuxConfig} {ok : Session → Action → Prop}
    (h : SessionReach role config ok s) {p : Packet} (hrd : s.reader = .acceptInsert p) :
    s.table.get p.frame.streamID = none := by
  refine Reach.invariant
    (fun s => ∀ p, s.reader = .acceptInsert p → s.table.get p.frame.streamID = none) h ?_ ?_ p hrd
  · intro p hrd
    cases hrd
  · intro s a s' hr hI _ hstep p hrd
    exact acceptInsert_vacant_move (wellFormed_reach hr) hI (step_move hstep) hrd

/-- Where an entry that a step puts into the map comes from: an open, under an identifier of the
session's parity, or a peer's open, under one of the other parity that was not in use. -/
theorem entry_inserted {config : MuxConfig} {ok : Session → Action → Prop}
    (h : SessionReach role config ok s) (hm : Move s a s') {i : ℕ} {r : Ref}
    (hnew : s'.table.get i = some r) (hold : s.table.get i ≠ some r) :
    (∃ payload, a = .openAlloc payload) ∧ i % 2 = startID role % 2 ∨
      a = .reader ∧ i % 2 ≠ startID role % 2 ∧ s.table.get i = none := by
  have hw := wellFormed_reach h
  obtain rfl := session_role h
  rcases move_table hm hnew with hr | ⟨rfl, hn, hid⟩
  · exact absurd hr hold
  · rcases (move_fresh hm (hn ▸ Nat.lt_succ_self _)).2 with
      ⟨payload, rfl, _, _, hcell⟩ | ⟨p, rfl, hrd, _, hcell⟩
    · rw [hcell, openedCell_id] at hid
      exact .inl ⟨⟨payload, rfl⟩, (hw.ownsID_iff i).mp (hid ▸ ownsID_allocID hw.freeIDs)⟩
    · rw [hcell, acceptedCell_id] at hid
      subst hid
      refine .inr ⟨rfl, ?_, acceptInsert_vacant h hrd⟩
      intro hpar
      have hown := (hw.ownsID_iff _).mpr hpar
      rw [hw.acceptInsert p hrd] at hown
      cases hown

/-- An honest peer's open is never refused for its parity. -/
theorem never_rejectOpen {config : Role → MuxConfig} {ok : System → Role × Action → Prop}
    {S : System} (h : SystemReach config ok S) (X : Role) (p : Packet) :
    (S.sess X).reader ≠ .rejectOpen p := by
  intro hrd
  have hk := (system_wellFormed h X).kind
  rw [hrd] at hk
  have hp : SentBy S X.peer p := .inr (.inr (by rw [Role.peer_peer, hrd]; rfl))
  have hown := (opensFaithful_reach h).foreign (system_wellFormed h) (system_role h) hp hk
  rw [(system_wellFormed h X).rejectOpen p hrd] at hown
  cases hown

/-- Each side keeps to its parity, whatever the other sends: in its free list, in the identifiers it
hands out, and by what it lets the peer insert, which never replaces an entry. So two sides that run
this code never hand out one identifier, and never refuse an open of the other for its parity.
SOURCE: mux_session.go:116-141, 408-460, 716-758 -/
theorem parity_kept :
    (∀ role config s, SessionReach role config anyStep s →
      (∀ i ∈ s.table.freeIDs, i % 2 = startID role % 2) ∧
      s.table.allocID.1 % 2 = startID role % 2 ∧
      ∀ a s' i r, s.step a = some s' → s'.table.get i = some r → s.table.get i ≠ some r →
        (∃ payload, a = .openAlloc payload) ∧ i % 2 = startID role % 2 ∨
          a = .reader ∧ i % 2 ≠ startID role % 2 ∧ s.table.get i = none) ∧
    ∀ config S, SystemReach config anyStep S →
      (S.sess .relay).table.allocID.1 ≠ (S.sess .agent).table.allocID.1 ∧
      ∀ X p, (S.sess X).reader ≠ .rejectOpen p := by
  have halloc : ∀ {role config s}, SessionReach role config anyStep s →
      s.table.allocID.1 % 2 = startID role % 2 := by
    intro role config s h
    have hw := wellFormed_reach h
    rw [← session_role h]
    exact (hw.ownsID_iff _).mp (ownsID_allocID hw.freeIDs)
  refine ⟨?_, ?_⟩
  · intro role config s h
    have hw := wellFormed_reach h
    refine ⟨?_, halloc h, ?_⟩
    · intro i hi
      rw [← session_role h]
      exact (hw.ownsID_iff i).mp (hw.freeIDs i hi)
    · intro a s' i r hstep
      exact entry_inserted h (step_move hstep)
  · intro config S h
    refine ⟨?_, never_rejectOpen h⟩
    intro heq
    have hrelay := halloc (session_reach h (fun _ _ _ _ _ => trivial) .relay)
    have hagent := halloc (session_reach h (fun _ _ _ _ _ => trivial) .agent)
    rw [heq, hagent] at hrelay
    simp [startID] at hrelay

/-- Both sides have opened a stream of their own. -/
def crossingRun : List (Role × Action) :=
  onSide .agent [.openStream [], .openAlloc [], .opening 0 .register, .opening 0 .enqueue] ++
  onSide .relay [.openStream [], .openAlloc [], .opening 0 .register, .opening 0 .enqueue] ++
  passRun .agent (frameTwo 0 .streamOpen {} []) ++
  onSide .relay [.reader, .reader, .reader, .reader]

theorem parity_kept_crossing :
    ∃ S, SystemReach fourStreams anyStep S ∧ (S.sess .relay).table.get 1 = some 0 ∧
      (S.sess .relay).table.get 2 = some 1 ∧
      (S.sess .relay).table.allocID.1 ≠ (S.sess .agent).table.allocID.1 := by
  have hex : ∃ S, SystemReach fourStreams anyStep S ∧ (S.sess .relay).table.get 1 = some 0 ∧
      (S.sess .relay).table.get 2 = some 1 :=
    exists_reach_of_exec crossingRun _ (by decide)
  obtain ⟨S, hS, h1, h2⟩ := hex
  exact ⟨S, hS, h1, h2, (parity_kept.2 _ S hS).1⟩

end Atlax.Analysis
