import Atlax.Analysis.TwoSessions
import Atlax.Library.Tags

/-!
# On whose behalf a frame is applied

A frame names its stream by identifier, and identifiers are recycled. Call what can still send or
receive under an identifier *live*: a stream that has not ended, or has a goroutine left, or is in
the map, or is being handled by the read loop; and a frame in a queue, in the hand of a loop or on
a wire. A step that allocates nothing brings nothing to life that was not live under the same
identifier for the same conversation. So if an identifier is handed out only when nothing live
carries it, all that is live under one identifier belongs to one conversation, and a frame is
applied only to a stream of the conversation it was produced for.
-/

set_option autoImplicit false

namespace Atlax.Model

/-- A frame about a stream: STREAM_OPEN, STREAM_DATA, STREAM_CLOSE or STREAM_RESET. -/
def Packet.onStream (p : Packet) : Bool :=
  match p.frame.command with
  | .streamOpen | .streamData | .streamClose | .streamReset => true
  | _ => false

/-- The packets a session holds: in the queue, in the hand of the write loop, and the one the read
loop works for. -/
def Session.packets (s : Session) : List Packet :=
  s.queue.control ++ s.queue.data ++
    (match s.writer with
    | .write p => [p]
    | _ => []) ++ s.reader.packet.toList

end Atlax.Model

namespace Atlax.Analysis

open Atlax.Model Atlax.Library

variable {p : Packet} {i : ℕ}

theorem mem_packets {s : Session} :
    p ∈ s.packets ↔ Outgoing s p ∨ s.reader.packet = some p := by
  unfold Session.packets Outgoing WriteQueue.Holds
  cases hw : s.writer <;> simp <;> grind

/-- Ended, with every goroutine done: the stream can neither send nor be resumed. -/
def CellDone (c : Cell) : Prop := CellSettled c ∧ c.drainPc = .done

instance (c : Cell) : Decidable (CellDone c) := inferInstanceAs (Decidable (_ ∧ _))

/-- The stream may still send or receive. -/
def StreamLive (s : Session) (r : Ref) : Prop :=
  ¬ CellDone (s.cells r) ∨ s.table.get (s.cells r).stream.id = some r ∨
    s.reader.stream.map (·.1) = some r

instance (s : Session) (r : Ref) : Decidable (StreamLive s r) :=
  inferInstanceAs (Decidable (_ ∨ _ ∨ _))

/-- The packet is about stream identifier `i`, for conversation `c`. -/
def Carries (p : Packet) (i : ℕ) (c : Option Conv) : Prop :=
  p.onStream = true ∧ p.frame.streamID = i ∧ p.conv = c

/-- Something live in the session carries `i` for the conversation `c`. -/
def LiveIn (s : Session) (i : ℕ) (c : Option Conv) : Prop :=
  (∃ r < s.nextRef, (s.cells r).stream.id = i ∧ (s.cells r).conv = c ∧ StreamLive s r) ∨
    ∃ p ∈ s.packets, Carries p i c

/-- Something live on either side or on the wires carries `i` for the conversation `c`. -/
def Live (S : System) (i : ℕ) (c : Option Conv) : Prop :=
  ∃ X, LiveIn (S.sess X) i c ∨ ∃ p ∈ S.wire X, Carries p i c

/-- Nothing live carries the identifier. -/
def IDQuiet (S : System) (i : ℕ) : Prop :=
  ∀ X ∈ [Role.relay, Role.agent],
    (∀ r < (S.sess X).nextRef, ((S.sess X).cells r).stream.id = i → ¬ StreamLive (S.sess X) r) ∧
      ∀ p ∈ (S.sess X).packets ++ S.wire X, p.onStream = true → p.frame.streamID ≠ i

instance (S : System) (i : ℕ) : Decidable (IDQuiet S i) := by
  unfold IDQuiet
  infer_instance

theorem IDQuiet.not_live {S : System} (h : IDQuiet S i) (c : Option Conv) :
    ¬ Live S i c := by
  rintro ⟨X, hX⟩
  have hq := h X (by cases X <;> simp)
  rcases hX with (⟨r, hr, hid, _, hl⟩ | ⟨p, hp, hs, hid, _⟩) | ⟨p, hp, hs, hid, _⟩
  · exact hq.1 r hr hid hl
  · exact hq.2 p (List.mem_append_left _ hp) hs hid
  · exact hq.2 p (List.mem_append_right _ hp) hs hid

/-- `OpenStream` hands out an identifier only when nothing live carries it.
SOURCE: mux_session.go:116-141 -/
def ReissuesQuiet (S : System) : Role × Action → Prop
  | (X, .openAlloc _) =>
    (S.sess X).table.streams.entries.length < (S.sess X).config.maxConcurrentStreams →
      IDQuiet S (S.sess X).table.allocID.1
  | _ => True

instance (S : System) (l : Role × Action) : Decidable (ReissuesQuiet S l) := by
  unfold ReissuesQuiet
  split <;> infer_instance

variable {s s' : Session} {a : Action} {r : Ref} {c c' : Cell}

theorem drain_not_done {b : Bool} {p : Option Packet} (h : CellDrain c b c' p) :
    c.drainPc ≠ .done := by
  cases h with
  | take _ _ flushing hpc => cases flushing <;> simp [hpc]
  | takeFIN hpc | exit hpc => rcases hpc with hpc | hpc <;> simp [hpc]
  | sawClosed hpc | enqueue _ _ hpc | stateReset hpc | stateClosed hpc | flushed hpc
  | sendFIN hpc => simp [hpc]

theorem call_drainPc {k : Call} (h : CellCall c k c') : c'.drainPc = c.drainPc := by
  cases h <;> rfl

/-- A stream that is done stays done. -/
theorem cellDone_cell {rd : ReaderPc} (h : CellDone c)
    (hc : CellMove a rd r c c') : CellDone c' := by
  refine ⟨cellSettled_cell h.1 hc, ?_⟩
  cases hc with
  | drain d b c' p _ hc => exact absurd h.2 (drain_not_done hc)
  | call k c' _ _ hc => rw [call_drainPc hc, h.2]
  | sendOpen _ hpc =>
    have hopen := h.1.2.2.2
    simp [hpc, OpenPc.running] at hopen
  | _ => exact h.2

/-- A stream that is live after a step was live before it. -/
theorem streamLive_move (hw : WellFormed s) (hm : Move s a s') (hr : r < s.nextRef)
    (h : StreamLive s' r) : StreamLive s r := by
  rcases h with h | h | h
  · exact .inl fun hd => h (cellDone_cell hd (move_cell hm hr))
  · rw [(move_evolves hm r hr).id] at h
    rcases move_table hm h with h | ⟨rfl, _⟩
    · exact .inr (.inl h)
    · exact absurd hr (Nat.lt_irrefl _)
  · obtain ⟨⟨r', p⟩, hst, rfl⟩ := Option.map_eq_some_iff.mp h
    rcases move_reader hm hst with hst | ⟨_, hget⟩ | ⟨_, heq, _⟩
    · exact .inr (.inr (by simp [hst]))
    · obtain ⟨_, hid⟩ := hw.table _ _ hget
      exact .inr (.inl (hid ▸ hget))
    · exact absurd heq (Nat.ne_of_lt hr)

/-- What a step puts on the queue about a stream is sent for something live. -/
theorem produced_live (hw : WellFormed s) (h : Produced s p) (hs : p.onStream = true) :
    LiveIn s p.frame.streamID p.conv := by
  cases h with
  | openPacket r hr hpc =>
    refine .inl ⟨r, hr, rfl, rfl, .inl fun hd => ?_⟩
    simpa [hpc, OpenPc.running] using hd.1.2.2.2
  | ack r p hrd =>
    have hst : s.reader.stream = some (r, p) := by rw [hrd]; rfl
    exact .inl ⟨r, (hw.reader r p hst).1, rfl, rfl, .inr (.inr (by simp [hst]))⟩
  | data r hr data flushing hpc =>
    exact .inl ⟨r, hr, rfl, rfl, .inl fun hd => by simpa [hpc] using hd.2⟩
  | close r hr hpc => exact .inl ⟨r, hr, rfl, rfl, .inl fun hd => by simpa [hpc] using hd.2⟩
  | reset r hr code hpc =>
    refine .inl ⟨r, hr, rfl, rfl, .inl fun hd => ?_⟩
    simpa [hpc, ResetPc.running] using hd.1.2.2.1
  | reject p hrd =>
    have hk := hw.kind
    rw [hrd] at hk
    refine .inr ⟨p, mem_packets.mpr (.inr (by rw [hrd]; rfl)), ?_, rfl, rfl⟩
    simp only [ReaderKind, Packet.isOpen, Bool.and_eq_true, beq_iff_eq] at hk
    simp [Packet.onStream, hk.1]
  | conn command payload hc =>
    rcases hc with rfl | rfl | rfl | rfl <;> cases hs

/-- What is live in a session after a step was live in it before, except the stream an open makes
and the packet that is read. -/
theorem liveIn_move (hw : WellFormed s) (hm : Move s a s') {c : Option Conv}
    (h : LiveIn s' i c) :
    LiveIn s i c ∨
      (∃ payload, a = .openAlloc payload ∧ i = s.table.allocID.1 ∧ c = some ⟨s.role, s.nextRef⟩ ∧
        s.table.streams.entries.length < s.config.maxConcurrentStreams) ∨
      ∃ p, a = .recv p ∧ Carries p i c := by
  rcases h with ⟨r, hr, hid, hconv, hl⟩ | ⟨p, hp, hs, rfl, rfl⟩
  · rcases move_new hm hr with hold | ⟨rfl, _⟩
    · have hev := move_evolves hm r hold
      exact .inl (.inl ⟨r, hold, hev.id ▸ hid, hev.conv ▸ hconv, streamLive_move hw hm hold hl⟩)
    · rcases (move_fresh hm hr).2 with ⟨payload, rfl, _, hlen, hc⟩ | ⟨p, _, hrd, _, hc⟩
      · rw [hc] at hid hconv
        exact .inr (.inl ⟨payload, rfl, hid.symm, hconv.symm, hlen⟩)
      · rw [hc, acceptedCell_id] at hid
        rw [hc] at hconv
        have hk := hw.kind
        simp only [hrd, ReaderKind, Packet.isOpen, Bool.and_eq_true, beq_iff_eq] at hk
        refine .inl (.inr ⟨p, mem_packets.mpr (.inr (by rw [hrd]; rfl)), ?_, hid, hconv⟩)
        simp [Packet.onStream, hk.1]
  · rcases mem_packets.mp hp with hp | hp
    · rcases move_outgoing hm hp with hp | hp
      · exact .inl (.inr ⟨p, mem_packets.mpr (.inl hp), hs, rfl, rfl⟩)
      · exact .inl (produced_live hw hp hs)
    · rcases move_readerPacket hm hp with hp | rfl
      · exact .inl (.inr ⟨p, mem_packets.mpr (.inr hp), hs, rfl, rfl⟩)
      · exact .inr (.inr ⟨p, rfl, hs, rfl, rfl⟩)

variable {S S' : System} {X : Role}

/-- What is live after a step was live before it, except what an open makes. -/
theorem live_move (hw : ∀ Y, WellFormed (S.sess Y)) (hm : SysMove S X a S')
    {c : Option Conv} (h : Live S' i c) :
    Live S i c ∨
      ∃ payload, a = .openAlloc payload ∧ i = (S.sess X).table.allocID.1 ∧
        c = some ⟨(S.sess X).role, (S.sess X).nextRef⟩ ∧
        (S.sess X).table.streams.entries.length < (S.sess X).config.maxConcurrentStreams := by
  obtain ⟨Y, h | ⟨p, hp, hc⟩⟩ := h
  · rcases hm.sess Y with ⟨rfl, hmove⟩ | heq
    · rcases liveIn_move (hw Y) hmove h with h | h | ⟨p, ha, hc⟩
      · exact .inl ⟨Y, .inl h⟩
      · exact .inr h
      · exact .inl ⟨Y.peer, .inr ⟨p, hm.recv_mem ha, hc⟩⟩
    · exact .inl ⟨Y, .inl (heq ▸ h)⟩
  · rcases hm.mem_wire hp with hp | ⟨rfl, hw⟩
    · exact .inl ⟨Y, .inr ⟨p, hp, hc⟩⟩
    · exact .inl ⟨Y, .inl (.inr ⟨p, mem_packets.mpr (.inl (.inr hw)), hc⟩)⟩

/-- All that is live under one identifier belongs to one conversation. -/
structure Attributed (S : System) : Prop where
  uniform : Uniform (Live S)
  known : ∀ i c, Live S i c → c ≠ none

theorem not_live_new (config : Role → MuxConfig) (i : ℕ) (c : Option Conv) :
    ¬ Live (newSystem config) i c := by
  rintro ⟨Y, (⟨r, hr, _⟩ | ⟨p, hp, _⟩) | ⟨p, hp, _⟩⟩
  · cases hr
  · cases hp
  · cases hp

theorem attributed_move (hw : ∀ Y, WellFormed (S.sess Y)) (h : Attributed S)
    (hok : ReissuesQuiet S (X, a)) (hm : SysMove S X a S') : Attributed S' := by
  constructor
  · refine h.uniform.step ?_ (fun i c => live_move hw hm) ?_
    · rintro i c c' ⟨_, _, _, rfl, _⟩ ⟨_, _, _, rfl, _⟩
      rfl
    · rintro i c c' ⟨payload, rfl, rfl, _, hlen⟩
      exact (hok hlen).not_live c'
  · intro i c hc
    rcases live_move hw hm hc with hc | ⟨_, _, _, rfl, _⟩
    · exact h.known i c hc
    · simp

/-- Every packet is a stream's own, in every run. -/
theorem attributed_reach {config : Role → MuxConfig} (h : SystemReach config ReissuesQuiet S) :
    Attributed S := by
  refine Reach.invariant Attributed h ?_ ?_
  · exact ⟨fun i c _ hc => absurd hc (not_live_new config i c),
      fun i c hc => absurd hc (not_live_new config i c)⟩
  · rintro S ⟨X, a⟩ S' hr hA hok hstep
    exact attributed_move (system_wellFormed hr) hA hok (system_move hstep)

/-- What the read loop works on belongs to the conversation of the packet it works for. -/
theorem Attributed.applied (hA : Attributed S) (hw : WellFormed (S.sess X))
    (hst : (S.sess X).reader.stream = some (r, p)) (hon : p.onStream = true) :
    ∃ c, p.conv = some c ∧ ((S.sess X).cells r).conv = some c := by
  have hpk : (S.sess X).reader.packet = some p := by
    cases hrd : (S.sess X).reader <;> simp_all [ReaderPc.stream, ReaderPc.packet]
  obtain ⟨hr, hid⟩ := hw.reader r p hst
  have hlive : Live S p.frame.streamID p.conv :=
    ⟨X, .inl (.inr ⟨p, mem_packets.mpr (.inr hpk), hon, rfl, rfl⟩)⟩
  have hcell : Live S p.frame.streamID ((S.sess X).cells r).conv :=
    ⟨X, .inl (.inl ⟨r, hr, hid, rfl, .inr (.inr (by simp [hst]))⟩)⟩
  obtain ⟨c, hc⟩ := Option.ne_none_iff_exists'.mp (hA.known _ _ hlive)
  exact ⟨c, hc, (hA.uniform _ _ _ hcell hlive).trans hc⟩

theorem onStream_of_kind (h : p.isData = true ∨ p.isClose = true ∨ p.isReset = true) :
    p.onStream = true := by
  simp only [Packet.isData, Packet.isClose, Packet.isReset, beq_iff_eq] at h
  rcases h with h | h | h <;> simp [Packet.onStream, h]

/-- What the read loop applies to a stream is data, a FIN or a reset. -/
theorem onStream_of_applied {s : Session} (hw : WellFormed s)
    (hrd : s.reader = .deliver r p ∨ s.reader = .remoteClose r p ∨ s.reader = .resetting r p) :
    p.onStream = true := by
  apply onStream_of_kind
  have hk := hw.kind
  rcases hrd with hrd | hrd | hrd <;> simp only [hrd, ReaderKind] at hk
  · exact .inl hk
  · exact hk.imp And.left .inl
  · exact .inr (.inr hk)

/-- A frame is applied to a stream of the conversation it was produced for: whenever the read loop
works on a stream for a packet, the two belong to one conversation.
SOURCE: mux_session.go:462-513 -/
theorem applied_to_own_stream {config : Role → MuxConfig}
    (h : SystemReach config ReissuesQuiet S) {r : Ref} {p : Packet}
    (hrd : (S.sess X).reader = .deliver r p ∨ (S.sess X).reader = .remoteClose r p ∨
      (S.sess X).reader = .resetting r p) :
    ∃ c, p.conv = some c ∧ ((S.sess X).cells r).conv = some c := by
  have hw := system_wellFormed h X
  have hst : (S.sess X).reader.stream = some (r, p) := by
    rcases hrd with hrd | hrd | hrd <;> rw [hrd] <;> rfl
  exact (attributed_reach h).applied hw hst (onStream_of_applied hw hrd)

/-- Both sides with room for four streams. -/
def fourStreams (_ : Role) : MuxConfig := ⟨4, 65536, 1048576⟩

theorem applied_to_own_stream_reopened :
    ∃ S, SystemReach fourStreams ReissuesQuiet S ∧
      (S.sess .relay).reader = .deliver 1 (frameTwo 1 .streamData {} [7]) ∧
      ∃ c, (frameTwo 1 .streamData {} [7]).conv = some c ∧
        ((S.sess .relay).cells 1).conv = some c := by
  have hex : ∃ S, SystemReach fourStreams ReissuesQuiet S ∧
      (S.sess .relay).reader = .deliver 1 (frameTwo 1 .streamData {} [7]) :=
    exists_reach_of_exec (connectRun 0 [] ++ disconnectRun 0 ++ connectRun 1 [] ++ writeRun 1 [7] ++
      onSide .relay [.reader]) _ (by decide +kernel)
  obtain ⟨S, hS, hrd⟩ := hex
  exact ⟨S, hS, hrd, applied_to_own_stream hS (.inl hrd)⟩

/-- The agent resets its stream 0; the relay, still holding its own entry, answers with a
STREAM_RESET, and by then the agent has opened another stream under the identifier. -/
def echoRun : List (Role × Action) :=
  connectRun 0 [] ++
  onSide .agent [.call 0 (.reset 0), .callback 0 .resetCheck, .callback 0 .resetLookup,
    .callback 0 .resetSend] ++
  passRun .agent (frameTwo 0 .streamReset {} [0, 0, 0, 0]) ++
  onSide .relay [.reader, .reader, .callback 0 .resetCheck, .callback 0 .resetLookup,
    .callback 0 .resetSend, .reader, .reader] ++
  onSide .agent [.openStream [], .openAlloc []] ++
  passRun .relay (frameTwo 0 .streamReset {} [0, 0, 0, 0]) ++
  onSide .agent [.reader]

/-- The STREAM_RESET that answers the reset of stream 0 is applied to stream 1. -/
theorem applied_to_other_stream :
    ∃ S, SystemReach fourStreams anyStep S ∧
      (S.sess .agent).reader = .resetting 1 (frameTwo 0 .streamReset {} [0, 0, 0, 0]) ∧
      (frameTwo 0 .streamReset {} [0, 0, 0, 0]).conv = ((S.sess .agent).cells 0).conv ∧
      ((S.sess .agent).cells 1).conv ≠ ((S.sess .agent).cells 0).conv :=
  exists_reach_of_exec echoRun _ (by decide +kernel)

end Atlax.Analysis
