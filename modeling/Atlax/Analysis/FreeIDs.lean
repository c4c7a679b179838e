import Atlax.Analysis.WellFormed

/-!
# The free list

`freeIDs` holds no identifier twice and none that is a key of `streams`, as long as the two
unguarded removals (`maybeRemoveStream`, called by the callback of Close and by the read loop)
find the identifier they free still in the map. Without that condition it fails: a local Close
and a peer's STREAM_CLOSE that meet both see the stream Closed, and both free its identifier.
-/

set_option autoImplicit false

namespace Atlax.Analysis

open Atlax.Model Atlax.Library

variable {config : MuxConfig} {id : ℕ}

/-- No identifier is free twice, and none is free and in use. -/
structure DistinctIDs (t : StreamTable) : Prop where
  nodup : t.freeIDs.Nodup
  unused : ∀ i ∈ t.freeIDs, t.get i = none

namespace DistinctIDs

variable {t : StreamTable}

theorem of_streams_subset {t' : StreamTable} (h : DistinctIDs t) (hf : t'.freeIDs = t.freeIDs)
    (hs : ∀ i, t.get i = none → t'.get i = none) : DistinctIDs t' :=
  ⟨hf ▸ h.nodup, fun i hi => hs i (h.unused i (hf ▸ hi))⟩

/-- An identifier that was in the map is freed.
SOURCE: mux_session.go:651-666 -/
theorem remove (h : DistinctIDs t) (hp : t.ownsID id = true → t.get id ≠ none) :
    DistinctIDs (t.remove id) := by
  by_cases ho : id % 2 = t.nextStreamID % 2
  · have hf : (t.remove id).freeIDs = id :: t.freeIDs := by
      simp [StreamTable.remove, StreamTable.freeID, ho]
    have hid : id ∉ t.freeIDs := fun hm => hp (by simp [StreamTable.ownsID, ho]) (h.unused id hm)
    constructor
    · rw [hf]
      exact List.nodup_cons.mpr ⟨hid, h.nodup⟩
    · intro i hi
      rw [StreamTable.get_remove]
      split
      · rfl
      · next hne =>
        rw [hf] at hi
        exact h.unused i ((List.mem_cons.mp hi).resolve_left hne)
  · refine h.of_streams_subset ?_ ?_
    · simp [StreamTable.remove, StreamTable.freeID, ho]
    · intro i hi
      simp [hi]

theorem removePresent (h : DistinctIDs t) (id : ℕ) : DistinctIDs (t.removePresent id) := by
  unfold StreamTable.removePresent
  split
  · next hg => exact h.remove fun _ => by simp [hg]
  · exact h

/-- SOURCE: mux_session.go:122-129 -/
theorem alloc (h : DistinctIDs t) (r : Ref) : DistinctIDs (t.allocID.2.insert t.allocID.1 r) := by
  unfold StreamTable.allocID
  split
  · next id rest hf =>
    have hn := h.nodup
    rw [hf, List.nodup_cons] at hn
    refine ⟨hn.2, ?_⟩
    intro i hi
    have hne : i ≠ id := fun heq => hn.1 (heq ▸ hi)
    rw [StreamTable.get_insert, if_neg hne]
    exact h.unused i (by rw [hf]; exact List.mem_cons_of_mem _ hi)
  · next hf =>
    refine ⟨?_, ?_⟩ <;> simp [StreamTable.insert, hf]

/-- A peer's stream is entered. -/
theorem insert (h : DistinctIDs t) (r : Ref) (hid : id ∉ t.freeIDs) :
    DistinctIDs (t.insert id r) := by
  refine ⟨h.nodup, ?_⟩
  intro i hi
  have hne : i ≠ id := fun heq => hid (heq ▸ hi)
  rw [StreamTable.get_insert, if_neg hne]
  exact h.unused i hi

end DistinctIDs

/-- The unguarded removals find the identifier they free in the map. Identifiers of the peer's
parity are not freed, so nothing is asked of them.
SOURCE: mux_session.go:641-648 -/
def RemovesPresent (s : Session) : Action → Prop
  | .callback r .closeDelete =>
    s.table.ownsID (s.cells r).stream.id = true → s.table.get (s.cells r).stream.id ≠ none
  | .reader =>
    match s.reader with
    | .delete _ p =>
      s.table.ownsID p.frame.streamID = true → s.table.get p.frame.streamID ≠ none
    | _ => True
  | _ => True

instance (s : Session) (a : Action) : Decidable (RemovesPresent s a) := by
  unfold RemovesPresent
  repeat' split
  all_goals infer_instance

variable {s s' : Session} {a : Action}

/-- No step frees an identifier twice. -/
theorem distinctIDs_move (hw : WellFormed s) (h : DistinctIDs s.table) (hok : RemovesPresent s a)
    (hm : Move s a s') : DistinctIDs s'.table := by
  cases hm with
  | openAlloc => exact h.alloc s.nextRef
  | acceptInsert p hp =>
    refine h.insert s.nextRef fun hi => ?_
    have howned := hw.freeIDs _ hi
    rw [hw.acceptInsert p hp] at howned
    cases howned
  | openRemove r _ _ found hget => exact h.remove fun _ => by simp [hget]
  | closeDelete r => exact h.remove hok
  | delete r p hr =>
    simp only [RemovesPresent, hr] at hok
    exact h.remove hok
  | resetLookup | resetRemove => exact h.removePresent _
  | closingStreams => exact h.of_streams_subset rfl fun _ _ => rfl
  | _ => exact h

/-- The `k`-th identifier the counter yields; the counter is a uint32. -/
def issuedID (role : Role) (k : ℕ) : ℕ := (startID role + 2 * k) % 2 ^ 32

/-- Identifiers do not repeat before the counter wraps. -/
theorem issuedID_inj {role : Role} {k k' : ℕ} (hk : k < 2 ^ 31) (hk' : k' < 2 ^ 31)
    (h : issuedID role k = issuedID role k') : k = k' := by
  unfold issuedID at h
  cases role <;> simp only [startID] at h <;> omega

theorem issuedID_succ (role : Role) (k : ℕ) :
    (issuedID role k + 2) % 2 ^ 32 = issuedID role (k + 1) := by
  unfold issuedID
  omega

/-- The counter has yielded `n` identifiers, each of them is in use or free, and no other
identifier is free. -/
structure Issued (role : Role) (t : StreamTable) (n : ℕ) : Prop where
  next : t.nextStreamID = issuedID role n
  covered : ∀ k < n, t.get (issuedID role k) ≠ none ∨ issuedID role k ∈ t.freeIDs
  free : ∀ i ∈ t.freeIDs, ∃ k < n, i = issuedID role k

namespace Issued

variable {role : Role} {t : StreamTable} {n : ℕ}

theorem owned (h : Issued role t n) (k : ℕ) : issuedID role k % 2 = t.nextStreamID % 2 := by
  rw [h.next]
  unfold issuedID
  omega

theorem remove (h : Issued role t n)
    (hid : t.ownsID id = true → ∃ k < n, id = issuedID role k) : Issued role (t.remove id) n := by
  have hfree : (t.remove id).freeIDs =
      if id % 2 = t.nextStreamID % 2 then id :: t.freeIDs else t.freeIDs := by
    unfold StreamTable.remove StreamTable.freeID
    simp only
    split <;> rfl
  refine ⟨by simpa using h.next, ?_, ?_⟩
  · intro k hk
    rw [hfree, StreamTable.get_remove]
    by_cases heq : issuedID role k = id
    · right
      rw [if_pos (heq ▸ h.owned k), heq]
      exact List.mem_cons_self
    · rw [if_neg heq]
      refine (h.covered k hk).imp_right fun hm => ?_
      split
      · exact List.mem_cons_of_mem _ hm
      · exact hm
  · intro i hi
    rw [hfree] at hi
    split at hi
    · next ho =>
      rcases List.mem_cons.mp hi with rfl | hi
      · exact hid (by simpa [StreamTable.ownsID] using ho)
      · exact h.free i hi
    · exact h.free i hi

theorem removePresent (h : Issued role t n)
    (hid : t.ownsID id = true → t.get id ≠ none → ∃ k < n, id = issuedID role k) :
    Issued role (t.removePresent id) n := by
  unfold StreamTable.removePresent
  split
  · next hg => exact h.remove fun ho => hid ho (by simp [hg])
  · exact h

theorem insert (h : Issued role t n) (id : ℕ) (r : Ref) : Issued role (t.insert id r) n := by
  refine ⟨h.next, ?_, h.free⟩
  intro k hk
  rw [StreamTable.get_insert]
  refine (h.covered k hk).imp_left fun hm => ?_
  split
  · simp
  · exact hm

/-- A freed identifier is handed out again. -/
theorem alloc_free (h : Issued role t n) {rest : List ℕ} (hf : t.freeIDs = id :: rest)
    (r : Ref) : Issued role (t.allocID.2.insert t.allocID.1 r) n := by
  rw [t.allocID_of_cons hf]
  refine ⟨h.next, ?_, ?_⟩
  · intro k hk
    rw [StreamTable.get_insert]
    by_cases heq : issuedID role k = id
    · simp [heq]
    · rw [if_neg heq]
      refine (h.covered k hk).imp_right fun hm => ?_
      rw [hf] at hm
      exact (List.mem_cons.mp hm).resolve_left heq
  · intro i hi
    exact h.free i (by rw [hf]; exact List.mem_cons_of_mem _ hi)

/-- The next new one is. -/
theorem alloc_next (h : Issued role t n) (hf : t.freeIDs = []) (r : Ref) :
    Issued role (t.allocID.2.insert t.allocID.1 r) (n + 1) := by
  refine ⟨?_, ?_, ?_⟩
  · rw [t.allocID_of_nil hf, ← issuedID_succ, ← h.next]
    rfl
  · intro k hk
    left
    rw [StreamTable.get_insert, t.allocID_of_nil hf]
    split
    · simp
    · next hne =>
      have hk : k < n := by
        rcases Nat.lt_succ_iff_lt_or_eq.mp hk with hk | rfl
        · exact hk
        · exact absurd h.next.symm hne
      have hc := h.covered k hk
      rw [hf] at hc
      exact hc.resolve_right List.not_mem_nil
  · intro i hi
    rw [t.allocID_of_nil hf] at hi
    exact absurd hi (by simp [StreamTable.insert, hf])

/-- With nothing free, every identifier the counter has yielded is a key. -/
theorem le_length (h : Issued role t n) (hf : t.freeIDs = []) (hn : n ≤ 2 ^ 31) :
    n ≤ t.streams.entries.length := by
  have hnodup : ((List.range n).map (issuedID role)).Nodup := by
    refine List.Nodup.map_on ?_ List.nodup_range
    intro k hk k' hk' heq
    have hk := List.mem_range.mp hk
    have hk' := List.mem_range.mp hk'
    exact issuedID_inj (by omega) (by omega) heq
  have hsub : (List.range n).map (issuedID role) ⊆ t.streams.keys := by
    intro i hi
    obtain ⟨k, hk, rfl⟩ := List.mem_map.mp hi
    have hc := h.covered k (List.mem_range.mp hk)
    rw [hf] at hc
    have hget : t.get (issuedID role k) ≠ none := hc.resolve_right List.not_mem_nil
    exact AList.lookup_isSome.mp (Option.isSome_iff_ne_none.mpr hget)
  have hle := (List.subperm_of_subset hnodup hsub).length_le
  simpa [AList.keys, List.keys] using hle

end Issued

/-- The identifiers of a session that has not been closed. -/
structure Counted (s : Session) (n : ℕ) : Prop where
  issued : Issued s.role s.table n
  opened : ∀ r < s.nextRef, (s.cells r).openPc ≠ .accepted →
    ∃ k < n, (s.cells r).stream.id = issuedID s.role k
  bound : n ≤ s.config.maxConcurrentStreams

theorem counted_new (role : Role) (config : MuxConfig) : Counted (newMuxSession role config) 0 := by
  refine ⟨⟨?_, ?_, ?_⟩, ?_, Nat.zero_le _⟩
  · cases role <;> rfl
  · intro k hk
    cases hk
  · intro i hi
    cases hi
  · intro r hr
    cases hr

/-- The identifier an open takes: a free one, else the counter, which then moves on. -/
theorem issued_alloc {n : ℕ} (hc : Counted s n) (hM : s.config.maxConcurrentStreams ≤ 2 ^ 31)
    (hlen : s.table.streams.entries.length < s.config.maxConcurrentStreams) :
    ∃ n', n ≤ n' ∧ n' ≤ s.config.maxConcurrentStreams ∧
      Issued s.role (s.table.allocID.2.insert s.table.allocID.1 s.nextRef) n' ∧
      ∃ k < n', s.table.allocID.1 = issuedID s.role k := by
  cases hf : s.table.freeIDs with
  | cons id rest =>
    refine ⟨n, Nat.le_refl n, hc.bound, hc.issued.alloc_free hf s.nextRef, ?_⟩
    rw [s.table.allocID_of_cons hf]
    exact hc.issued.free id (by simp [hf])
  | nil =>
    have hle := hc.issued.le_length hf (Nat.le_trans hc.bound hM)
    refine ⟨n + 1, Nat.le_succ n, by omega, hc.issued.alloc_next hf s.nextRef, n, by omega, ?_⟩
    rw [s.table.allocID_of_nil hf]
    exact hc.issued.next

/-- The free list and the counter across a step of an open session that allocates nothing. -/
theorem issued_move {n : ℕ} (hw : WellFormed s) (hc : Counted s n) (hm : Move s a s')
    (hrun : s'.closing = .running) (ha : ∀ payload, a ≠ .openAlloc payload) :
    Issued s.role s'.table n := by
  -- a stream under an identifier of this session's parity was opened here
  have hid : ∀ r < s.nextRef, s.table.ownsID (s.cells r).stream.id = true →
      ∃ k < n, (s.cells r).stream.id = issuedID s.role k :=
    fun r hr ho => hc.opened r hr ((hw.owned r hr).mp ho)
  have hget : ∀ i, s.table.ownsID i = true → s.table.get i ≠ none →
      ∃ k < n, i = issuedID s.role k := by
    intro i ho hg
    obtain ⟨r, hr⟩ := Option.ne_none_iff_exists'.mp hg
    obtain ⟨hlt, rfl⟩ := hw.table i r hr
    exact hid r hlt ho
  cases hm with
  | openAlloc payload => exact absurd rfl (ha payload)
  | acceptInsert p => exact hc.issued.insert _ _
  | openRemove r hr | closeDelete r hr => exact hc.issued.remove (hid r hr)
  | delete r p hrd =>
    obtain ⟨hr, hp⟩ := hw.reader r p (by rw [hrd]; rfl)
    exact hc.issued.remove (hp ▸ hid r hr)
  | resetLookup | resetRemove => exact hc.issued.removePresent (hget _)
  | closingStreams => cases hrun
  | _ => exact hc.issued

/-- The streams opened here keep identifiers the counter has yielded. -/
theorem opened_move {n n' : ℕ} (hc : Counted s n) (hle : n ≤ n') (hm : Move s a s')
    (hnew : ∀ payload, a = .openAlloc payload → s.nextRef < s'.nextRef →
      ∃ k < n', s.table.allocID.1 = issuedID s.role k) :
    ∀ r < s'.nextRef, (s'.cells r).openPc ≠ .accepted →
      ∃ k < n', (s'.cells r).stream.id = issuedID s'.role k := by
  intro r hr hopen
  rw [move_role hm]
  rcases move_new hm hr with hold | ⟨rfl, ⟨payload, ha, hcell⟩ | ⟨p, _, _, hcell⟩⟩
  · have hev := move_evolves hm r hold
    obtain ⟨k, hk, hid⟩ := hc.opened r hold fun hacc => hopen (hev.accepted.mpr hacc)
    exact ⟨k, Nat.lt_of_lt_of_le hk hle, hev.id.trans hid⟩
  · rw [hcell, openedCell_id]
    exact hnew payload ha hr
  · rw [hcell] at hopen
    exact absurd rfl hopen

/-- Issued identifiers stay accounted for. -/
theorem counted_move {n : ℕ} (hw : WellFormed s) (hc : Counted s n)
    (hM : s.config.maxConcurrentStreams ≤ 2 ^ 31) (hm : Move s a s')
    (hrun : s'.closing = .running) : ∃ n', Counted s' n' := by
  by_cases ha : ∃ payload, a = .openAlloc payload
  · obtain ⟨payload, rfl⟩ := ha
    cases hm with
    | openFull => exact ⟨n, hc.issued, hc.opened, hc.bound⟩
    | openAlloc _ h hlen =>
      obtain ⟨n', hle, hb, hi, hk⟩ := issued_alloc hc hM hlen
      exact ⟨n', hi, opened_move hc hle (.openAlloc payload h hlen) fun _ _ _ => hk, hb⟩
  · have ha : ∀ payload, a ≠ .openAlloc payload := fun payload h => ha ⟨payload, h⟩
    exact ⟨n, move_role hm ▸ issued_move hw hc hm hrun ha,
      opened_move hc (Nat.le_refl n) hm fun payload h => absurd h (ha payload),
      move_config hm ▸ hc.bound⟩

theorem session_config {role : Role} {ok : Session → Action → Prop}
    (h : SessionReach role config ok s) : s.config = config :=
  Reach.invariant (fun s => s.config = config) h rfl
    fun _ _ _ _ hc _ hstep => (move_config (step_move hstep)).trans hc

/-- Before Close, the counter accounts for every identifier, whatever the removals find. -/
theorem counted_reach {role : Role} {ok : Session → Action → Prop}
    (hM : config.maxConcurrentStreams ≤ 2 ^ 31) (h : SessionReach role config ok s)
    (hrun : s.closing = .running) : ∃ n, Counted s n := by
  refine Reach.invariant (fun s => s.closing = .running → ∃ n, Counted s n) h ?_ ?_ hrun
  · intro _
    exact ⟨0, counted_new role config⟩
  · intro s a s' hr hI _ hstep hrun
    have hm := step_move hstep
    obtain ⟨n, hc⟩ := hI (move_running hm hrun)
    exact counted_move (wellFormed_reach hr) hc (session_config hr ▸ hM) hm hrun

/-- The invariant of the free list, over every run whose unguarded removals find what they free. -/
structure FreeListInv (s : Session) : Prop where
  wellFormed : WellFormed s
  distinct : DistinctIDs s.table
  counted : s.closing = .running → ∃ n, Counted s n

/-- In every run. -/
theorem freeListInv_reach {role : Role}
    (hM : config.maxConcurrentStreams ≤ 2 ^ 31) (h : SessionReach role config RemovesPresent s) :
    FreeListInv s ∧ s.config = config := by
  refine ⟨⟨wellFormed_reach h, ?_, counted_reach hM h⟩, session_config h⟩
  refine Reach.invariant (fun s => DistinctIDs s.table) h ⟨List.nodup_nil, ?_⟩ ?_
  · intro i hi
    cases hi
  · intro s a s' hr hI hok hstep
    exact distinctIDs_move (wellFormed_reach hr) hI hok (step_move hstep)

/-- The identifier an open would take is not a key of the map. -/
theorem get_allocID_fst {n : ℕ} (hw : WellFormed s) (hd : DistinctIDs s.table) (hc : Counted s n)
    (hM : s.config.maxConcurrentStreams ≤ 2 ^ 31)
    (hlen : s.table.streams.entries.length < s.config.maxConcurrentStreams) :
    s.table.get s.table.allocID.1 = none := by
  cases hf : s.table.freeIDs with
  | cons id rest =>
    rw [s.table.allocID_of_cons hf]
    exact hd.unused id (by simp [hf])
  | nil =>
    rw [s.table.allocID_of_nil hf]
    have hle := hc.issued.le_length hf (Nat.le_trans hc.bound hM)
    by_contra hg
    obtain ⟨r, hr⟩ := Option.ne_none_iff_exists'.mp hg
    obtain ⟨hlt, hid⟩ := hw.table _ r hr
    have hown : s.table.ownsID (s.cells r).stream.id = true := by simp [StreamTable.ownsID, hid]
    obtain ⟨k, hk, heq⟩ := hc.opened r hlt ((hw.owned r hlt).mp hown)
    rw [hid, hc.issued.next] at heq
    have := issuedID_inj (by omega) (by omega) heq
    omega

/-- Before Close, no identifier is free twice or free and in use, and `OpenStream` hands out none
that an active stream uses, in every run whose unguarded removals find what they free.
SOURCE: mux_session.go:116-141, 641-723 -/
theorem freeIDs_distinct {role : Role} {config : MuxConfig}
    (hM : config.maxConcurrentStreams ≤ 2 ^ 31) (h : SessionReach role config RemovesPresent s)
    (hrun : s.closing = .running) :
    s.table.freeIDs.Nodup ∧ (∀ i ∈ s.table.freeIDs, s.table.get i = none) ∧
      (s.table.streams.entries.length < config.maxConcurrentStreams →
        s.table.get s.table.allocID.1 = none) := by
  obtain ⟨hI, rfl⟩ := freeListInv_reach hM h
  obtain ⟨n, hc⟩ := hI.counted hrun
  exact ⟨hI.distinct.nodup, hI.distinct.unused, get_allocID_fst hI.wellFormed hI.distinct hc hM⟩

/-- A frame for the stream `n` of an agent, under the first identifier an agent hands out. -/
def frameTwo (n : Ref) (command : Command) (flags : Flags) (payload : Bytes) : Packet :=
  ⟨{ command := command, flags := flags, streamID := 2, payload := payload }, some ⟨.agent, n⟩⟩

/-- An agent opens a stream and its peer acknowledges it. -/
def openRun : List Action :=
  [.openStream [], .openAlloc [], .opening 0 .register, .opening 0 .enqueue,
    .recv (frameTwo 0 .streamOpen { ack := true } []), .reader, .reader, .opening 0 .ack]

/-- The agent closes it, then the peer's STREAM_CLOSE comes in, one after the other. -/
def closeInTurnRun : List Action :=
  openRun ++ [Action.call 0 .close, .callback 0 .closeFin, .callback 0 .closeCheckClosed,
    .callback 0 .closeCheckReset, .recv (frameTwo 0 .streamClose { fin := true } []), .reader, .reader,
    .reader, .reader]

/-- The peer's STREAM_CLOSE is handled between Close and its callback. -/
def closeCrossRun : List Action :=
  openRun ++ [Action.call 0 .close, .callback 0 .closeFin,
    .recv (frameTwo 0 .streamClose { fin := true } []), .reader, .reader, .reader, .reader,
    .callback 0 .closeCheckClosed, .callback 0 .closeDelete]

theorem freeIDs_distinct_closeInTurn :
    ∃ s, SessionReach .agent ⟨4, 65536, 65536⟩ RemovesPresent s ∧ s.table.freeIDs = [2] ∧
      s.table.get s.table.allocID.1 = none := by
  have hex : ∃ s, SessionReach .agent ⟨4, 65536, 65536⟩ RemovesPresent s ∧
      s.table.freeIDs = [2] ∧ s.closing = .running ∧ s.table.streams.entries.length < 4 :=
    exists_reach_of_exec closeInTurnRun _ (by decide)
  obtain ⟨s, hs, hf, hrun, hlen⟩ := hex
  exact ⟨s, hs, hf, (freeIDs_distinct (by decide) hs hrun).2.2 hlen⟩

/-- Close and the read loop both free the identifier of a stream that both sides close; of the two
opens that follow, the second is handed the identifier of the first. -/
theorem freeIDs_repeat :
    (∃ s, SessionReach .agent ⟨4, 65536, 65536⟩ anyStep s ∧ s.closing = .running ∧
      ¬ s.table.freeIDs.Nodup) ∧
    ∃ s, SessionReach .agent ⟨4, 65536, 65536⟩ anyStep s ∧ s.closing = .running ∧
      s.table.streams.entries.length < 4 ∧ s.table.get s.table.allocID.1 ≠ none :=
  ⟨exists_reach_of_exec closeCrossRun _ (by decide),
    exists_reach_of_exec (closeCrossRun ++ [Action.openStream [], .openAlloc []]) _ (by decide)⟩

/-- The condition is exact: from a state that has been reached within it, a step outside it puts an
identifier on the free list a second time. -/
theorem removesPresent_of_nodup {role : Role}
    (hM : config.maxConcurrentStreams ≤ 2 ^ 31) (h : SessionReach role config RemovesPresent s)
    (hrun : s.closing = .running) (hstep : s.step a = some s')
    (hnodup : s'.table.freeIDs.Nodup) : RemovesPresent s a := by
  obtain ⟨hI, rfl⟩ := freeListInv_reach hM h
  obtain ⟨n, hc⟩ := hI.counted hrun
  -- what the session has issued and the map no longer holds is on the free list already
  have key : ∀ r < s.nextRef, (s.table.remove (s.cells r).stream.id).freeIDs.Nodup →
      s.table.ownsID (s.cells r).stream.id = true →
      s.table.get (s.cells r).stream.id ≠ none := by
    intro r hr hnd ho
    obtain ⟨k, hk, hid⟩ := hc.opened r hr ((hI.wellFormed.owned r hr).mp ho)
    refine hid ▸ (hc.issued.covered k hk).resolve_right fun hm => ?_
    have hodd : (s.cells r).stream.id % 2 = s.table.nextStreamID % 2 := by
      simpa [StreamTable.ownsID] using ho
    simp only [StreamTable.remove, StreamTable.freeID, hodd, if_true, List.nodup_cons] at hnd
    exact hnd.1 (hid ▸ hm)
  have hm := step_move hstep
  cases hm with
  | closeDelete r hr => exact key r hr hnodup
  | delete r p hrd =>
    obtain ⟨hr, hp⟩ := hI.wellFormed.reader r p (by rw [hrd]; rfl)
    simp only [RemovesPresent, hrd]
    exact hp ▸ key r hr (hp ▸ hnodup)
  | _ => simp [RemovesPresent, *]

end Atlax.Analysis
