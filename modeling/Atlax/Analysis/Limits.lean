import Atlax.Analysis.Handling
import Atlax.Analysis.Identifiers

/-!
# What a peer can fill up

Two things are sized by `MaxConcurrentStreams`: the streams map, which only `OpenStream` measures
against it, and acceptCh, whose send waits when it is full. A peer that opens streams beyond the
limit makes the map outgrow it, and one that opens and resets streams that nobody accepts stops the
read loop, and with it every stream of the connection. Each bound holds as long as the peer's opens
leave room.
-/

set_option autoImplicit false

namespace Atlax.Analysis

open Atlax.Model Atlax.Library

variable {s s' : Session} {a : Action}

/-! ## The streams map -/

theorem length_insert_le (t : StreamTable) (id : ℕ) (r : Ref) :
    (t.insert id r).streams.entries.length ≤ t.streams.entries.length + 1 := by
  simp only [StreamTable.insert, AList.entries_insert, List.length_cons, Nat.add_le_add_iff_right]
  exact (List.kerase_sublist id _).length_le

theorem length_insert_of_vacant {t : StreamTable} {id : ℕ} (h : t.get id = none) (r : Ref) :
    (t.insert id r).streams.entries.length = t.streams.entries.length + 1 := by
  have hid : id ∉ t.streams := AList.lookup_eq_none.mp h
  simp only [StreamTable.insert, AList.entries_insert_of_notMem hid, List.length_cons]

theorem length_remove_le (t : StreamTable) (id : ℕ) :
    (t.remove id).streams.entries.length ≤ t.streams.entries.length := by
  simp only [StreamTable.remove, StreamTable.freeID_streams]
  exact (List.kerase_sublist id _).length_le

theorem length_removePresent_le (t : StreamTable) (id : ℕ) :
    (t.removePresent id).streams.entries.length ≤ t.streams.entries.length := by
  unfold StreamTable.removePresent
  split
  · exact length_remove_le t id
  · exact Nat.le_refl _

theorem allocID_streams (t : StreamTable) : t.allocID.2.streams = t.streams := by
  unfold StreamTable.allocID
  split <;> rfl

/-- The insertion of a peer's stream finds fewer streams than the limit.
SOURCE: mux_session.go:440-442 -/
def AcceptsWithinLimit (s : Session) : Action → Prop
  | .reader =>
    match s.reader with
    | .acceptInsert _ => s.table.streams.entries.length < s.config.maxConcurrentStreams
    | _ => True
  | _ => True

instance (s : Session) (a : Action) : Decidable (AcceptsWithinLimit s a) := by
  unfold AcceptsWithinLimit
  induction a with
  | reader => induction s.reader <;> infer_instance
  | _ => infer_instance

theorem streams_within_limit_move
    (h : s.table.streams.entries.length ≤ s.config.maxConcurrentStreams)
    (hok : AcceptsWithinLimit s a) (hm : Move s a s') :
    s'.table.streams.entries.length ≤ s'.config.maxConcurrentStreams := by
  rw [move_config hm]
  cases hm with
  | openAlloc payload _ hlen =>
    have hle := length_insert_le s.table.allocID.2 s.table.allocID.1 s.nextRef
    rw [allocID_streams] at hle
    exact Nat.le_trans hle hlen
  | acceptInsert p hrd =>
    simp only [AcceptsWithinLimit, hrd] at hok
    exact Nat.le_trans (length_insert_le s.table p.frame.streamID s.nextRef) hok
  | openRemove | closeDelete | delete => exact Nat.le_trans (length_remove_le _ _) h
  | resetLookup | resetRemove => exact Nat.le_trans (length_removePresent_le _ _) h
  | closingStreams => exact Nat.zero_le _
  | _ => exact h

/-- The streams of a session stay within the limit, in every run in which the peer's streams are
inserted below it.
SOURCE: mux_session.go:111-141, 408-460 -/
theorem streams_within_limit {role : Role} {config : MuxConfig}
    (h : SessionReach role config AcceptsWithinLimit s) :
    s.table.streams.entries.length ≤ config.maxConcurrentStreams := by
  rw [← session_config h]
  refine Reach.invariant
    (fun s => s.table.streams.entries.length ≤ s.config.maxConcurrentStreams) h (Nat.zero_le _) ?_
  intro s a s' _ hI hok hstep
  exact streams_within_limit_move hI hok (step_move hstep)

/-- A peer's STREAM_OPEN under identifier `i`. -/
def peerOpen (i : ℕ) : Packet := ⟨{ command := .streamOpen, streamID := i }, none⟩

/-- The read loop handles it up to the send on acceptCh. -/
def peerOpenRun (i : ℕ) : List Action := [.recv (peerOpen i), .reader, .reader, .reader]

/-- The peer opens stream 1, and it is accepted. -/
def acceptRun : List Action := peerOpenRun 1 ++ [Action.reader, .acceptStream]

theorem streams_within_limit_full :
    ∃ s, SessionReach .relay ⟨2, 65536, 65536⟩ AcceptsWithinLimit s ∧ s.table.get 2 = some 0 ∧
      s.table.get 4 = some 1 ∧ s.table.streams.entries.length ≤ 2 := by
  have hex : ∃ s, SessionReach .relay ⟨2, 65536, 65536⟩ AcceptsWithinLimit s ∧
      s.table.get 2 = some 0 ∧ s.table.get 4 = some 1 :=
    exists_reach_of_exec (peerOpenRun 2 ++ [Action.reader] ++ peerOpenRun 4) _ (by decide)
  obtain ⟨s, hs, h2, h4⟩ := hex
  exact ⟨s, hs, h2, h4, streams_within_limit hs⟩

/-- With a limit of one, the peer's second STREAM_OPEN makes a second stream. -/
theorem streams_beyond_limit :
    ∃ s, SessionReach .relay ⟨1, 65536, 65536⟩ anyStep s ∧ s.closing = .running ∧
      1 < s.table.streams.entries.length :=
  exists_reach_of_exec (peerOpenRun 2 ++ [Action.reader] ++ peerOpenRun 4) _ (by decide)

/-- The condition is exact: an insertion outside it takes the map beyond the limit. -/
theorem acceptsWithinLimit_of_le {role : Role} {config : MuxConfig}
    (h : SessionReach role config anyStep s) (hstep : s.step a = some s')
    (hle : s'.table.streams.entries.length ≤ config.maxConcurrentStreams) :
    AcceptsWithinLimit s a := by
  rw [← session_config h] at hle
  unfold AcceptsWithinLimit
  split
  · split
    · next p hrd =>
      have hget := acceptInsert_vacant h hrd
      have hs' : s' = s.acceptInsert p := by
        simpa [Session.step, Session.readerStep, hrd] using hstep.symm
      have hlen : s'.table.streams.entries.length = s.table.streams.entries.length + 1 := by
        rw [hs']
        exact length_insert_of_vacant hget s.nextRef
      omega
    · trivial
  · trivial

/-! ## The accept channel -/

/-- A STREAM_OPEN arrives only while acceptCh has room.
SOURCE: mux_session.go:276-292 -/
def OpensWithRoom (s : Session) : Action → Prop
  | .recv p => p.isOpen = true → s.acceptCh.length < s.config.maxConcurrentStreams
  | _ => True

instance (s : Session) (a : Action) : Decidable (OpensWithRoom s a) := by
  unfold OpensWithRoom
  split <;> infer_instance

theorem acceptRoom_reach {role : Role} {config : MuxConfig}
    (h : SessionReach role config OpensWithRoom s) : AcceptRoom s := by
  refine Reach.invariant AcceptRoom h ?_ ?_
  · intro p hp
    cases hp
  · intro s a s' _ hI hok hstep
    refine acceptRoom_move hI (step_move hstep) ?_
    rintro p rfl
    exact hok

/-- As long as no STREAM_OPEN arrives while acceptCh is full, the send on it finds room, and from
every state the read loop finishes the handler it is in by steps of its own and reads the next
frame, whether anybody accepts streams or not.
SOURCE: mux_session.go:276-292, 427-460 -/
theorem readLoop_never_blocked {role : Role} {config : MuxConfig}
    (h : SessionReach role config OpensWithRoom s) :
    (∀ r p, s.reader = .acceptDeliver r p → s.acceptCh.length < config.maxConcurrentStreams) ∧
      ∃ s', Reach Session.step HandlerStep s s' ∧ s'.reader = .idle ∧
        (s.closing ≠ .done → ∀ p, (s'.step (.recv p)).isSome = true) := by
  have hroom := acceptRoom_reach h
  refine ⟨?_, ?_⟩
  · intro r p hrd
    have hk := (wellFormed_reach h).kind
    rw [hrd] at hk
    rw [← session_config h]
    exact hroom p (by rw [hrd]; rfl) hk
  · have h' : SessionReach role config anyStep s := Reach.mono h fun _ _ _ => trivial
    obtain ⟨s', hr, hidle, hcl⟩ := handler_finishes h' hroom
    refine ⟨s', hr, hidle, ?_⟩
    intro hdone p
    simp [Session.step, hidle, hcl, hdone]

/-- The peer opens a stream and resets it again; the read loop handles both frames. -/
def openResetRun : List Action :=
  peerOpenRun 2 ++ [Action.reader, .recv ⟨{ command := .streamReset, streamID := 2 }, none⟩,
    .reader, .reader, .callback 0 .resetCheck, .callback 0 .resetLookup, .callback 0 .resetSend,
    .reader, .reader]

theorem readLoop_never_blocked_openReset :
    ∃ s, SessionReach .relay ⟨2, 65536, 65536⟩ OpensWithRoom s ∧ s.acceptCh = [0] ∧
      s.reader = .acceptDeliver 1 (peerOpen 4) ∧
      ∃ s', Reach Session.step HandlerStep s s' ∧ s'.reader = .idle := by
  have hex : ∃ s, SessionReach .relay ⟨2, 65536, 65536⟩ OpensWithRoom s ∧ s.acceptCh = [0] ∧
      s.reader = .acceptDeliver 1 (peerOpen 4) :=
    exists_reach_of_exec (openResetRun ++ peerOpenRun 4) _ (by decide)
  obtain ⟨s, hs, hch, hrd⟩ := hex
  obtain ⟨s', hr, hidle, _⟩ := (readLoop_never_blocked hs).2
  exact ⟨s, hs, hch, hrd, s', hr, hidle⟩

/-- A read loop that waits at a full acceptCh. -/
structure Blocked (s : Session) (r : Ref) (p : Packet) : Prop where
  reader : s.reader = .acceptDeliver r p
  full : s.config.maxConcurrentStreams ≤ s.acceptCh.length
  running : s.closing = .running

/-- Neither AcceptStream nor the end of the session. -/
def NobodyAccepts (_ : Session) (a : Action) : Prop :=
  a ≠ .acceptStream ∧ a ≠ .closeSession ∧ a ≠ .transmitFail

instance (s : Session) (a : Action) : Decidable (NobodyAccepts s a) :=
  inferInstanceAs (Decidable (_ ∧ _))

theorem blocked_step {r : Ref} {p : Packet} (h : Blocked s r p) (ha : NobodyAccepts s a)
    (hstep : s.step a = some s') : Blocked s' r p := by
  have hnone : s.step .reader = none := by
    simp [Session.step, Session.readerStep, h.reader, Nat.not_lt.mpr h.full]
  have hreader : a ≠ .reader := by
    rintro rfl
    rw [hnone] at hstep
    cases hstep
  have hm := step_move hstep
  obtain ⟨hrd, hfull, hrun⟩ := h
  cases hm with
  | acceptStream => exact absurd rfl ha.1
  | closeSession => exact absurd rfl ha.2.1
  | transmitFail => exact absurd rfl ha.2.2
  | recv p hidle => simp [hrd] at hidle
  | readerClosed r p _ hcl => simp [Session.closed, hrun] at hcl
  | closingQueue hcl | closingStreams hcl | closingTransport hcl => simp [hrun] at hcl
  | _ => first | exact ⟨hrd, hfull, hrun⟩ | exact absurd rfl hreader

/-- With a limit of one: the peer opens a stream and resets it, which leaves it in acceptCh, and
opens another. Although one stream is live, the read loop stays at the send on acceptCh for good,
unless somebody accepts streams or the session is closed. -/
theorem readLoop_blocked :
    ∃ s, SessionReach .relay ⟨1, 65536, 65536⟩ NobodyAccepts s ∧
      s.table.streams.entries.length = 1 ∧
      ∀ s', Reach Session.step NobodyAccepts s s' →
        s'.reader = .acceptDeliver 1 (peerOpen 4) ∧ s'.closing = .running := by
  have hex : ∃ s, SessionReach .relay ⟨1, 65536, 65536⟩ NobodyAccepts s ∧
      s.table.streams.entries.length = 1 ∧ s.reader = .acceptDeliver 1 (peerOpen 4) ∧
      s.config.maxConcurrentStreams ≤ s.acceptCh.length ∧ s.closing = .running :=
    exists_reach_of_exec (openResetRun ++ peerOpenRun 4) _ (by decide)
  obtain ⟨s, hs, hlen, hrd, hfull, hrun⟩ := hex
  refine ⟨s, hs, hlen, ?_⟩
  intro s' hr
  have hblocked : Blocked s' 1 (peerOpen 4) :=
    Reach.invariant (fun s => Blocked s 1 (peerOpen 4)) hr ⟨hrd, hfull, hrun⟩
      fun _ _ _ _ hI ha hstep => blocked_step hI ha hstep
  exact ⟨hblocked.reader, hblocked.running⟩

end Atlax.Analysis
