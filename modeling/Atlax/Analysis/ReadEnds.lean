import Atlax.Analysis.FreeIDs
import Atlax.Analysis.Limits

/-!
# The end of what can be read

When the peer's FIN has been applied the read buffer holds all that will ever be read, and a stream
that has been reset, or whose Reads have come to io.EOF, has nothing to read any more. Deliver does
not look at the state, so this depends on the frame handler: it holds for as long as no payload is
delivered to a stream whose read side is closed. A peer that goes on after its FIN delivers one,
and so does a Reset that comes between the handler's lookup and its Deliver. And Reset leaves a
stream that is Closed as it is, with what is in its buffer.
-/

set_option autoImplicit false

namespace Atlax.Analysis

open Atlax.Model Atlax.Library

variable {c₀ c : Cell} {r : Ref}

variable {s s' : Session} {a : Action}

/-- The handler delivers to the stream only while its read side is open.
SOURCE: mux_session.go:462-478; stream_impl.go:198-204 -/
def DeliversOpen (r : Ref) (s : Session) : Action → Prop
  | .reader =>
    match s.reader with
    | .deliver r' _ => r' = r → (s.cells r).stream.isReadClosed = false
    | _ => True
  | _ => True

instance (r : Ref) (s : Session) (a : Action) : Decidable (DeliversOpen r s a) := by
  unfold DeliversOpen
  induction a with
  | reader => induction s.reader <;> infer_instance
  | _ => infer_instance

theorem DeliversOpen.deliver (h : DeliversOpen r s a) (ha : a = .reader) (p : Packet)
    (hrd : s.reader = .deliver r p) : (s.cells r).stream.isReadClosed = false := by
  subst ha
  simpa only [DeliversOpen, hrd, forall_const] using h

/-- The read side of `c₀` is closed and `c` comes later: what has been read in between, with what
waits in the buffer, is a beginning of what waited then. -/
structure ReadEnded (c₀ c : Cell) : Prop where
  closed : c.stream.isReadClosed = true
  rest : ∃ b, c.hist.got = c₀.hist.got ++ b ∧ b ++ c.stream.readBuf <+: c₀.stream.readBuf

theorem isReadClosed_iff {c : StreamSession} :
    c.isReadClosed = true ↔ c.state.RemoteClosed ∨ c.state = .reset := by
  simp [StreamSession.isReadClosed, StreamState.RemoteClosed]

/-- A move that reads nothing and leaves the buffer as it is, or empties it. -/
theorem ReadEnded.congr {c₀ c c' : Cell} (h : ReadEnded c₀ c)
    (hcl : c'.stream.isReadClosed = true) (hgot : c'.hist.got = c.hist.got)
    (hbuf : c'.stream.readBuf = c.stream.readBuf ∨ c'.stream.readBuf = []) : ReadEnded c₀ c' := by
  obtain ⟨b, hb, hsub⟩ := h.rest
  refine ⟨hcl, b, hgot.trans hb, ?_⟩
  obtain hbuf | hbuf := hbuf
  · rwa [hbuf]
  · rw [hbuf, List.append_nil]
    exact (List.prefix_append _ _).trans hsub

theorem ReadEnded.reset (h : ReadEnded c₀ c) (code : ℕ) (byFrame : Bool) :
    ReadEnded c₀ (c.reset code byFrame) := by
  unfold Cell.reset StreamSession.reset
  by_cases hst : c.stream.state = .reset ∨ c.stream.state = .closed
  · simp only [hst, if_true]
    refine h.congr h.closed ?_ (.inl rfl)
    cases byFrame <;> rfl
  · simp only [hst, if_false]
    refine h.congr rfl ?_ (.inr rfl)
    cases byFrame <;> rfl

theorem ReadEnded.close (h : ReadEnded c₀ c) : ReadEnded c₀ c.close := by
  have hcl := isReadClosed_iff.mp h.closed
  unfold Cell.close StreamSession.close
  cases hst : c.stream.state with
  | halfClosedRemote =>
    refine h.congr rfl ?_ (.inl rfl)
    dsimp only
    split <;> rfl
  | opened => simp [hst, StreamState.RemoteClosed] at hcl
  | _ => exact h.congr h.closed rfl (.inl rfl)

theorem ReadEnded.remoteClose (h : ReadEnded c₀ c) :
    ReadEnded c₀ { c with stream := c.stream.remoteClose } := by
  unfold StreamSession.remoteClose
  split
  · exact h.congr rfl rfl (.inl rfl)
  · exact h.congr rfl rfl (.inl rfl)
  · exact h.congr h.closed rfl (.inl rfl)

/-- A Read moves bytes from the buffer to its caller. -/
theorem ReadEnded.read (h : ReadEnded c₀ c) (n : ℕ) :
    ReadEnded c₀ { c with
      stream := { c.stream with readBuf := c.stream.readBuf.drop n }
      hist := { c.hist with got := c.hist.got ++ c.stream.readBuf.take n } } := by
  obtain ⟨b, hb, hsub⟩ := h.rest
  refine ⟨h.closed, b ++ c.stream.readBuf.take n, ?_, ?_⟩
  · show c.hist.got ++ _ = _
    rw [hb, List.append_assoc]
  · show (b ++ c.stream.readBuf.take n) ++ c.stream.readBuf.drop n <+: _
    rwa [List.append_assoc, List.take_append_drop]

/-- A step of the stream keeps its end. -/
theorem readEnded_cell {rd : ReaderPc} {c₀ c c' : Cell} (h : ReadEnded c₀ c)
    (hm : CellMove a rd r c c')
    (hok : a = .reader → ∀ p, rd = .deliver r p → c.stream.isReadClosed = false) :
    ReadEnded c₀ c' := by
  cases hm with
  | call k c' _ _ hc =>
    cases hc with
    | readBytes n => exact h.read n
    | close => exact h.close
    | reset code => exact h.reset code false
    | _ => exact h.congr h.closed rfl (.inl rfl)
  | drain d b c' p _ hc => cases hc <;> exact h.congr h.closed rfl (.inl rfl)
  | deliver p ha hrd => exact absurd (h.closed.symm.trans (hok ha p hrd)) nofun
  | remoteClose => exact h.remoteClose
  | resetLocal => exact h.reset 0 false
  | resetFrame p => exact h.reset (Session.resetCode p) true
  | openFailedReset =>
    have hfailed : ReadEnded c₀ { c with openPc := .failed } := h.congr h.closed rfl (.inl rfl)
    exact hfailed.reset 0 false
  | _ => exact h.congr h.closed rfl (.inl rfl)

/-- What is true of the read side when it closes stays true. -/
theorem readEnded_reach (hr : r < s.nextRef)
    (h : Reach Session.step (DeliversOpen r) s s') (hcl : (s.cells r).stream.isReadClosed = true) :
    r < s'.nextRef ∧ ReadEnded (s.cells r) (s'.cells r) := by
  refine Reach.invariant (fun t => r < t.nextRef ∧ ReadEnded (s.cells r) (t.cells r)) h ?_ ?_
  · exact ⟨hr, hcl, [], by simp⟩
  · intro t a t' _ hI hok hstep
    have hm := step_move hstep
    refine ⟨Nat.lt_of_lt_of_le hI.1 (move_nextRef hm), ?_⟩
    exact readEnded_cell hI.2 (move_cell hm hI.1) hok.deliver

theorem reset_emptied (c : Cell) (code : ℕ) (byFrame : Bool)
    (h : c.stream.state = .reset → c.stream.readBuf = []) :
    (c.reset code byFrame).stream.state = .reset → (c.reset code byFrame).stream.readBuf = [] := by
  unfold Cell.reset StreamSession.reset
  by_cases hst : c.stream.state = .reset ∨ c.stream.state = .closed
  · simpa only [hst, if_true] using h
  · simp only [hst, if_false, implies_true]

/-- A stream that was reset has nothing to read. -/
theorem resetEmpty_cell {rd : ReaderPc} {c c' : Cell}
    (h : c.stream.state = .reset → c.stream.readBuf = []) (hm : CellMove a rd r c c')
    (hok : a = .reader → ∀ p, rd = .deliver r p → c.stream.isReadClosed = false) :
    c'.stream.state = .reset → c'.stream.readBuf = [] := by
  cases hm with
  | call k c' _ _ hc =>
    cases hc with
    | readBytes n hne => exact fun hst => absurd (h hst) hne
    | close =>
      unfold Cell.close StreamSession.close
      cases hst : c.stream.state with
      | reset => exact fun _ => h hst
      | _ => simp [hst]
    | reset code => exact reset_emptied c code false h
    | _ => exact h
  | drain d b c' p _ hc => cases hc <;> exact h
  | deliver p ha hrd =>
    intro hst
    have hcl : c.stream.isReadClosed = true := isReadClosed_iff.mpr (.inr hst)
    exact absurd (hcl.symm.trans (hok ha p hrd)) nofun
  | remoteClose =>
    unfold StreamSession.remoteClose
    split
    · exact nofun
    · exact nofun
    · exact h
  | resetLocal => exact reset_emptied c 0 false h
  | resetFrame p => exact reset_emptied c _ true h
  | openFailedReset => exact reset_emptied _ 0 false h
  | _ => exact h

/-- A stream in the state Reset has an empty buffer. -/
theorem resetEmpty_reach {role : Role} {config : MuxConfig}
    (h : SessionReach role config (DeliversOpen r) s) (hr : r < s.nextRef)
    (hst : (s.cells r).stream.state = .reset) : (s.cells r).stream.readBuf = [] := by
  revert hst
  apply cell_reach (fun c => c.stream.state = .reset → c.stream.readBuf = []) h ?_ ?_ ?_ hr
  · intro s payload _
    exact nofun
  · intro s p _
    exact nofun
  · intro s a s' _ hok hm hold hI
    exact resetEmpty_cell hI (move_cell hm hold) hok.deliver

/-- The step calls Reset on the stream: for its holder, for an open that has failed, for a
STREAM_RESET frame, or in `Close` of the session.
SOURCE: mux_session.go:195-200, 492-504, 651-666 -/
def CallsReset (r : Ref) (s : Session) : Action → Prop
  | .call r' (.reset _) => r' = r
  | .opening r' .reset => (s.cells r').openPc = .resetting r
  | .reader => ∃ p, s.reader = .resetting r p
  | .closing => s.closing = .streams ∧ r ∈ s.table.streams.entries.map (·.2)
  | _ => False

/-- Reset is called in one step. -/
theorem callsReset_step (h : s.step a = some s') (hreset : CallsReset r s a) :
    (s'.cells r).stream = (s.cells r).stream.reset.1 := by
  unfold CallsReset at hreset
  split at hreset
  · subst hreset
    obtain ⟨-, h⟩ := Option.ite_none_right_eq_some.mp h
    cases h
    simp [Cell.reset]
  · next r' =>
    simp only [Session.step, Session.opening, hreset, Option.ite_none_right_eq_some] at h
    obtain ⟨-, h⟩ := h
    cases h
    by_cases hr : r = r' <;> simp [Cell.reset, hr]
  · obtain ⟨p, hp⟩ := hreset
    simp only [Session.step, Session.readerStep, hp] at h
    cases h
    simp [Cell.reset]
  · obtain ⟨hpc, hmem⟩ := hreset
    simp only [Session.step, Session.closingStep, hpc] at h
    cases h
    simp only [Session.setClosing_cells, Session.resetStreams_cells, if_pos hmem]
    rfl
  · exact hreset.elim

/-- A Reset of a stream that is not Closed with bytes left to read leaves nothing to read.
SOURCE: stream_impl.go:224-234 -/
theorem reset_ends {v : StreamSession} (h : v.state = .closed → v.readBuf = []) :
    v.reset.1.state = .reset ∨ v.reset.1.readBuf = [] ∧ v.reset.1.isReadClosed = true := by
  unfold StreamSession.reset
  split
  · next hst =>
    refine hst.imp id fun hcl => ⟨h hcl, ?_⟩
    simp [StreamSession.isReadClosed, hcl]
  · exact .inl rfl

/-- io.EOF: nothing is left and nothing more will come. -/
theorem read_eof_iff {c : StreamSession} (n : ℕ) :
    (c.read n).1 = .eof ↔ c.readBuf = [] ∧ c.isReadClosed = true := by
  unfold StreamSession.read
  by_cases hb : c.readBuf = []
  · by_cases hcl : c.isReadClosed = true <;> simp [hb, hcl]
  · simp [hb]

/-- As long as the handler delivers to the stream only while its read side is open: what Reads
return after the peer's FIN was in the buffer when it was applied; and once a Read has returned
io.EOF, the stream is in the state Reset or Reset has been called on it while it was not Closed with
bytes left to read, every Read returns io.EOF and no bytes.
SOURCE: stream_impl.go:83-103, 196-243; mux_session.go:462-490 -/
theorem read_after_end {role : Role} {config : MuxConfig} {r : Ref} (hr : r < s.nextRef)
    (h : SessionReach role config (DeliversOpen r) s)
    (h' : Reach Session.step (DeliversOpen r) s s') :
    ((s.cells r).stream.state.RemoteClosed →
      ∃ b, (s'.cells r).hist.got = (s.cells r).hist.got ++ b ∧ b <+: (s.cells r).stream.readBuf) ∧
    ((∃ n, ((s.cells r).stream.read n).1 = .eof) ∨ (s.cells r).stream.state = .reset ∨
        (∃ t a, t.step a = some s ∧ CallsReset r t a ∧
          ((t.cells r).stream.state = .closed → (t.cells r).stream.readBuf = [])) →
      (∀ n, ((s'.cells r).stream.read n).1 = .eof) ∧
      (s'.cells r).hist.got = (s.cells r).hist.got) := by
  have hreset : (s.cells r).stream.state = .reset →
      (s.cells r).stream.readBuf = [] ∧ (s.cells r).stream.isReadClosed = true := fun hst =>
    ⟨resetEmpty_reach h hr hst, isReadClosed_iff.mpr (.inr hst)⟩
  refine ⟨?_, ?_⟩
  · intro hst
    obtain ⟨b, hb, hsub⟩ := (readEnded_reach hr h' (isReadClosed_iff.mpr (.inl hst))).2.rest
    exact ⟨b, hb, (List.prefix_append _ _).trans hsub⟩
  · intro hend
    have hnil : (s.cells r).stream.readBuf = [] ∧ (s.cells r).stream.isReadClosed = true := by
      obtain ⟨n, hn⟩ | hst | ⟨t, a, hstep, hcalls, hunread⟩ := hend
      · exact (read_eof_iff n).mp hn
      · exact hreset hst
      · rw [callsReset_step hstep hcalls] at hreset ⊢
        exact (reset_ends hunread).elim hreset id
    have hlater := (readEnded_reach hr h' hnil.2).2
    obtain ⟨b, hb, hsub⟩ := hlater.rest
    rw [hnil.1, List.prefix_nil, List.append_eq_nil_iff] at hsub
    refine ⟨fun n => (read_eof_iff n).mpr ⟨hsub.2, hlater.closed⟩, ?_⟩
    rw [hb, hsub.1, List.append_nil]

/-- A STREAM_DATA frame and a STREAM_CLOSE+FIN of the peer, on its stream 1. -/
def peerData (data : Bytes) : Packet :=
  ⟨{ command := .streamData, streamID := 1, payload := data }, none⟩

def peerFIN : Packet := ⟨{ command := .streamClose, flags := { fin := true }, streamID := 1 }, none⟩

/-- The peer sends two bytes and its FIN; one byte is read before the FIN is applied, and one
after it. -/
theorem read_after_end_twoBytes : ∃ s s',
    SessionReach .agent ⟨2, 262144, 1048576⟩ (DeliversOpen 0) s ∧
    Reach Session.step (DeliversOpen 0) s s' ∧ (s.cells 0).stream.state.RemoteClosed ∧
    (s'.cells 0).hist.got = [1, 2] ∧
    ∃ b, (s'.cells 0).hist.got = (s.cells 0).hist.got ++ b ∧ b <+: (s.cells 0).stream.readBuf := by
  have hex : ∃ s s', SessionReach .agent ⟨2, 262144, 1048576⟩ (DeliversOpen 0) s ∧
      Reach Session.step (DeliversOpen 0) s s' ∧ 0 < s.nextRef ∧
      (s.cells 0).stream.state.RemoteClosed ∧ (s'.cells 0).hist.got = [1, 2] :=
    exists_runs_of_exec
      (acceptRun ++ [Action.recv (peerData [1, 2]), .reader, .reader, .call 0 (.read 1),
        .recv peerFIN, .reader, .reader]) [.call 0 (.read 1), .call 0 (.read 1)] _ (by decide)
  obtain ⟨s, s', hs, hs', hr, hst, hgot⟩ := hex
  exact ⟨s, s', hs, hs', hst, hgot, (read_after_end hr hs hs').1 hst⟩

/-- A peer that sends a STREAM_DATA frame after its FIN gets its payload read, after io.EOF; so does
the payload of a frame whose stream is reset between the handler's lookup and its Deliver; and what
was not read of a stream that is Closed can be read after a Reset. -/
theorem read_after_end_fails :
    (∃ s s', SessionReach .agent ⟨2, 262144, 1048576⟩ anyStep s ∧ Reach Session.step anyStep s s' ∧
      (s.cells 0).stream.state.RemoteClosed ∧ ((s.cells 0).stream.read 1).1 = .eof ∧
      s.reader = .idle ∧ ((s'.cells 0).stream.read 1).1 = .bytes [7]) ∧
    (∃ s s', SessionReach .agent ⟨2, 262144, 1048576⟩ anyStep s ∧ Reach Session.step anyStep s s' ∧
      (s.cells 0).stream.state = .reset ∧ ((s'.cells 0).stream.read 1).1 = .bytes [7]) ∧
    ∃ s s', SessionReach .agent ⟨2, 262144, 1048576⟩ (DeliversOpen 0) s ∧
      s.step (.call 0 (.reset 0)) = some s' ∧ ((s'.cells 0).stream.read 1).1 = .bytes [7] := by
  refine ⟨?_, ?_, ?_⟩
  · exact exists_runs_of_exec
      (acceptRun ++ [Action.recv peerFIN, .reader, .reader, .reader, .reader])
      [.recv (peerData [7]), .reader, .reader] _ (by decide)
  · exact exists_runs_of_exec
      (acceptRun ++ [Action.recv (peerData [7]), .reader, .call 0 (.reset 0)]) [.reader] _
      (by decide)
  · have hex : ∃ s, SessionReach .agent ⟨2, 262144, 1048576⟩ (DeliversOpen 0) s ∧
        (s.step (.call 0 (.reset 0))).any
          (fun s' => decide (((s'.cells 0).stream.read 1).1 = .bytes [7])) = true :=
      exists_reach_of_exec (acceptRun ++ [Action.recv (peerData [7]), .reader, .reader,
        .recv peerFIN, .reader, .reader, .call 0 .close]) _ (by decide)
    obtain ⟨s, hs, hany⟩ := hex
    obtain ⟨s', hs', hread⟩ := exists_some_of_any _ hany
    exact ⟨s, s', hs, hs', hread⟩

end Atlax.Analysis
