import Atlax.Analysis.Provenance

/-!
# Well-formed sessions

The references of a reachable session point to streams on the heap that carry the identifier
they are looked up under, identifiers of the local parity belong exactly to the streams opened
locally, and a stream opened locally is the conversation named after it. Nothing here restricts
the peer: the packets it sends are arbitrary.
-/

set_option autoImplicit false

namespace Atlax.Analysis

open Atlax.Model Atlax.Library

variable {t : StreamTable}

/-- The kind of packet a handler runs for. -/
def ReaderKind : ReaderPc → Prop
  | .rejectOpen p | .acceptInsert p | .acceptAck _ p | .acceptDeliver _ p => p.isOpen = true
  | .deliver _ p => p.isData = true
  | .remoteClose _ p | .checkClosed _ p | .checkReset _ p | .delete _ p =>
    p.isData = true ∧ p.frame.flags.fin = true ∨ p.isClose = true
  | .resetting _ p | .awaitReset _ p | .resetRemove _ p => p.isReset = true
  | .idle | .frame _ | .ackSend _ | .windowUpdate _ _ => True

/-- The map, the reader and the calls refer to streams that there are. -/
structure WellFormed (s : Session) : Prop where
  table : ∀ i r, s.table.get i = some r → r < s.nextRef ∧ (s.cells r).stream.id = i
  reader : ∀ r p, s.reader.stream = some (r, p) →
    r < s.nextRef ∧ (s.cells r).stream.id = p.frame.streamID
  kind : ReaderKind s.reader
  ackSend : ∀ r, s.reader = .ackSend r → r < s.nextRef ∧ (s.cells r).openPc ≠ .accepted
  accepting : ∀ r p, s.reader = .acceptAck r p ∨ s.reader = .acceptDeliver r p →
    (s.cells r).openPc = .accepted
  acceptInsert : ∀ p, s.reader = .acceptInsert p → s.table.ownsID p.frame.streamID = false
  rejectOpen : ∀ p, s.reader = .rejectOpen p → s.table.ownsID p.frame.streamID = true
  pendingOpen : ∀ i r, s.pendingOpen.lookup i = some r →
    r < s.nextRef ∧ (s.cells r).stream.id = i ∧ (s.cells r).openPc ≠ .accepted
  acceptCh : ∀ r ∈ s.acceptCh, r < s.nextRef ∧ (s.cells r).openPc = .accepted
  found : ∀ r < s.nextRef, ∀ f, (s.cells r).openPc = .resetting f →
    f < s.nextRef ∧ (s.cells f).stream.id = (s.cells r).stream.id
  conv : ∀ r < s.nextRef, (s.cells r).openPc ≠ .accepted → (s.cells r).conv = some ⟨s.role, r⟩
  owned : ∀ r < s.nextRef, s.table.ownsID (s.cells r).stream.id = true ↔
    (s.cells r).openPc ≠ .accepted
  freeIDs : ∀ i ∈ s.table.freeIDs, s.table.ownsID i = true
  parity : s.table.nextStreamID % 2 = startID s.role % 2

variable {s s' : Session} {a : Action}

/-- The parity a session owns never changes. -/
theorem move_ownsID (hm : Move s a s') (i : ℕ) : s'.table.ownsID i = s.table.ownsID i := by
  cases hm with
  | openAlloc =>
    simp only [StreamTable.ownsID, Session.addCell_table, Session.setTable_table,
      StreamTable.insert, StreamTable.allocID]
    split
    · rfl
    · simp only
      rw [Nat.mod_mod_of_dvd _ (by decide : 2 ∣ 2 ^ 32), Nat.add_mod_right]
  | openRemove | closeDelete | delete => simp [StreamTable.ownsID]
  | resetLookup | resetRemove => simp [StreamTable.ownsID]
  | _ => rfl

/-- `OpenStream` hands out identifiers of its own parity. -/
theorem ownsID_allocID (h : ∀ i ∈ t.freeIDs, t.ownsID i = true) :
    t.ownsID t.allocID.1 = true := by
  unfold StreamTable.allocID
  split
  · next i rest hf => exact h i (by simp [hf])
  · simp [StreamTable.ownsID]

theorem freeIDs_allocID {i : ℕ} (h : i ∈ t.allocID.2.freeIDs) :
    i ∈ t.freeIDs := by
  unfold StreamTable.allocID at h
  split at h
  · next hf =>
    rw [hf]
    exact List.mem_cons_of_mem _ h
  · exact h

/-- What a removal frees is an identifier of the session's parity. -/
theorem freeIDs_remove {i j : ℕ} (h : i ∈ (t.remove j).freeIDs) :
    i ∈ t.freeIDs ∨ t.ownsID i = true := by
  unfold StreamTable.remove StreamTable.freeID at h
  split at h
  · next hown =>
    rcases List.mem_cons.mp h with rfl | h
    · exact .inr (beq_iff_eq.mpr hown)
    · exact .inl h
  · exact .inl h

theorem freeIDs_removePresent {i j : ℕ} (h : i ∈ (t.removePresent j).freeIDs) :
    i ∈ t.freeIDs ∨ t.ownsID i = true := by
  unfold StreamTable.removePresent at h
  split at h
  · exact freeIDs_remove h
  · exact .inl h

/-- A free identifier was free, or is one of the session's parity that the step removed. -/
theorem move_freeIDs (hm : Move s a s') {i : ℕ} (h : i ∈ s'.table.freeIDs) :
    i ∈ s.table.freeIDs ∨ s.table.ownsID i = true := by
  cases hm with
  | openAlloc => exact .inl (freeIDs_allocID h)
  | openRemove | closeDelete | delete => exact freeIDs_remove h
  | resetLookup | resetRemove => exact freeIDs_removePresent h
  | _ => exact .inl h

theorem wellFormed_new (role : Role) (config : MuxConfig) :
    WellFormed (newMuxSession role config) := by
  constructor <;> simp [newMuxSession, newStreamTable, StreamTable.get, ReaderKind, ReaderPc.stream]

/-- The identifiers a session owns, by its role. -/
theorem WellFormed.ownsID_iff (hw : WellFormed s) (i : ℕ) :
    s.table.ownsID i = true ↔ i % 2 = startID s.role % 2 := by
  rw [← hw.parity]
  simp [StreamTable.ownsID]

theorem readerKind_move (hk : ReaderKind s.reader) (hm : Move s a s') : ReaderKind s'.reader := by
  have hrd := move_readerPc hm
  generalize s.reader = pc, s'.reader = pc' at hrd hk
  cases hrd with
  | recv | finish | ack | window => trivial
  | reject _ hp | accept _ hp | data _ _ hp | close _ _ hp | reset _ _ hp => exact hp
  | fin r p hfin => exact .inl ⟨hk, hfin⟩
  | _ => exact hk

/-- No step breaks it. -/
theorem wellFormed_move (hw : WellFormed s) (hm : Move s a s') : WellFormed s' := by
  have hev := move_evolves hm
  have hle := move_nextRef hm
  have hown := move_ownsID hm
  -- a stream on the heap stays there under its identifier
  have keep : ∀ {r i}, r < s.nextRef ∧ (s.cells r).stream.id = i →
      r < s'.nextRef ∧ (s'.cells r).stream.id = i := by
    intro r i h
    exact ⟨Nat.lt_of_lt_of_le h.1 hle, (hev r h.1).id.trans h.2⟩
  have fresh : s'.nextRef = s.nextRef + 1 → s.nextRef < s'.nextRef :=
    fun hn => hn ▸ Nat.lt_succ_self _
  constructor
  · intro i r h
    rcases move_table hm h with h | ⟨rfl, hn, hid⟩
    · exact keep (hw.table i r h)
    · exact ⟨fresh hn, hid⟩
  · intro r p h
    rcases move_reader hm h with h | ⟨_, h⟩ | ⟨_, rfl, hn, hc⟩
    · exact keep (hw.reader r p h)
    · exact keep (hw.table _ r h)
    · exact ⟨fresh hn, by simp [hc]⟩
  · exact readerKind_move hw.kind hm
  · intro r h
    have old : r < s.nextRef ∧ (s.cells r).openPc ≠ .accepted := by
      rcases move_ackSend hm h with h | ⟨p, _, _, hl⟩
      · exact hw.ackSend r h
      · exact ⟨(hw.pendingOpen _ r hl).1, (hw.pendingOpen _ r hl).2.2⟩
    exact ⟨Nat.lt_of_lt_of_le old.1 hle, fun hc => old.2 ((hev r old.1).accepted.mp hc)⟩
  · intro r p h
    have old : s.reader = .acceptAck r p ∨ s.reader = .acceptDeliver r p →
        (s'.cells r).openPc = .accepted := by
      intro h
      have hr : s.reader.stream = some (r, p) := by
        rcases h with h | h <;> rw [h] <;> rfl
      exact ((hev r (hw.reader r p hr).1).accepted).mpr (hw.accepting r p h)
    rcases h with h | h
    · rcases move_acceptAck hm h with h | ⟨_, rfl, hc⟩
      · exact old (.inl h)
      · rw [hc]
        rfl
    · exact old (move_acceptDeliver hm h).symm
  · intro p h
    rw [hown]
    rcases move_acceptInsert hm h with h | ⟨_, _, _, h⟩
    · exact hw.acceptInsert p h
    · exact h
  · intro p h
    rw [hown]
    rcases move_rejectOpen hm h with h | h
    · exact hw.rejectOpen p h
    · exact h
  · intro i r h
    have old : r < s.nextRef ∧ (s.cells r).stream.id = i ∧ (s.cells r).openPc ≠ .accepted := by
      rcases move_pendingOpen hm h with h | ⟨_, hr, hpc, hid⟩
      · exact hw.pendingOpen i r h
      · exact ⟨hr, hid, by simp [hpc]⟩
    have new := keep ⟨old.1, old.2.1⟩
    exact ⟨new.1, new.2, fun hc => old.2.2 ((hev r old.1).accepted.mp hc)⟩
  · intro r h
    have old : r < s.nextRef ∧ (s.cells r).openPc = .accepted := by
      rcases move_acceptCh hm h with h | ⟨p, h⟩
      · exact hw.acceptCh r h
      · exact ⟨(hw.reader r p (by rw [h]; rfl)).1, hw.accepting r p (.inr h)⟩
    exact ⟨Nat.lt_of_lt_of_le old.1 hle, (hev r old.1).accepted.mpr old.2⟩
  · intro r hr f h
    rcases move_new hm hr with hr | ⟨rfl, ⟨_, _, hc⟩ | ⟨_, _, _, hc⟩⟩
    · have old : f < s.nextRef ∧ (s.cells f).stream.id = (s.cells r).stream.id := by
        rcases move_found hm hr h with h | ⟨_, _, h⟩
        · exact hw.found r hr f h
        · exact hw.table _ f h
      rw [(hev r hr).id]
      exact keep old
    · rw [hc] at h
      cases h
    · rw [hc] at h
      cases h
  · intro r hr h
    rw [move_role hm]
    rcases move_new hm hr with hr | ⟨rfl, ⟨_, _, hc⟩ | ⟨_, _, _, hc⟩⟩
    · rw [(hev r hr).conv]
      exact hw.conv r hr fun hc => h ((hev r hr).accepted.mpr hc)
    · rw [hc]
      rfl
    · rw [hc] at h
      exact absurd rfl h
  · intro r hr
    rw [hown]
    rcases move_new hm hr with hr | ⟨rfl, ⟨_, _, hc⟩ | ⟨p, _, hp, hc⟩⟩
    · rw [(hev r hr).id, hw.owned r hr]
      exact not_congr (hev r hr).accepted.symm
    · rw [hc, openedCell_id, ownsID_allocID hw.freeIDs]
      simp [Session.openedCell]
    · rw [hc, acceptedCell_id, hw.acceptInsert p hp]
      simp [Session.acceptedCell]
  · intro i h
    rw [hown]
    rcases move_freeIDs hm h with h | h
    · exact hw.freeIDs i h
    · exact h
  · rw [move_role hm]
    have hodd := hown s.table.nextStreamID
    simp only [StreamTable.ownsID, beq_self_eq_true, beq_iff_eq] at hodd
    exact hodd.symm.trans hw.parity

/-- Every reachable session is well formed, whatever its peer sends. -/
theorem wellFormed_reach {role : Role} {config : MuxConfig} {ok : Session → Action → Prop}
    (h : SessionReach role config ok s) : WellFormed s :=
  Reach.invariant WellFormed h (wellFormed_new role config)
    fun _ _ _ _ hw _ hstep => wellFormed_move hw (step_move hstep)

end Atlax.Analysis
