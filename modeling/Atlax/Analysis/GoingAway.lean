import Atlax.Analysis.Limits

/-!
# A session that is going away

GoAway sets a flag. Of the two paths that make streams, `OpenStreamWithPayload` tests it, once and
outside the session's mutex, and `handleStreamOpen` does not. So a stream can still come into
being after GoAway has returned: by an open that was past its test, and by any STREAM_OPEN of the
peer. Without these two the map only loses entries. Nothing else reads the flag: every other
operation does what it would have done without GoAway.
-/

set_option autoImplicit false

namespace Atlax.Analysis

open Atlax.Model Atlax.Library

variable {s s' : Session} {a : Action}

/-! ## Nothing but OpenStream reads the flag -/

/-- The session with the flag of GoAway set.
SOURCE: mux_session.go:207-209 -/
@[simps] def leave (s : Session) : Session := { s with goingAway := true }

@[simp] theorem leave_closed : (leave s).closed = s.closed := rfl

theorem leave_eq (h : s.goingAway = true) : leave s = s := by
  unfold leave
  rw [← h]

theorem opening_leave (r : Ref) (o : Opening) :
    (leave s).opening r o = (s.opening r o).map leave := by
  cases o with
  | remove =>
    simp only [Session.opening, leave_cells, leave_table]
    split
    · split <;> rfl
    · rfl
  | _ =>
    simp only [Session.opening, leave_cells, leave_closed]
    split <;> rfl

theorem callback_leave (r : Ref) (k : Callback) :
    (leave s).callback r k = (s.callback r k).map leave := by
  cases k <;> simp only [Session.callback, leave_cells] <;> split <;> rfl

theorem lookupStream_leave (p : Packet) (found : Ref → ReaderPc) :
    (leave s).lookupStream p found = leave (s.lookupStream p found) := by
  simp only [Session.lookupStream, leave_table]
  split <;> rfl

theorem handleFrame_leave (p : Packet) : (leave s).handleFrame p = leave (s.handleFrame p) := by
  unfold Session.handleFrame
  cases p.frame.command with
  | streamOpen =>
    dsimp only
    split
    · simp only [Session.handleAck, leave_pendingOpen]
      split <;> rfl
    · simp only [Session.acceptPeerOpen, leave_table]
      split
      · rfl
      · split <;> rfl
  | streamData | streamClose | streamReset => exact lookupStream_leave p _
  | windowUpdate =>
    simp only [Session.handleWindowUpdate]
    split
    · rfl
    · split
      · rfl
      · exact lookupStream_leave p _
  | _ => rfl

theorem readerStep_leave : (leave s).readerStep = s.readerStep.map leave := by
  unfold Session.readerStep
  rw [leave_reader]
  cases s.reader with
  | frame p => exact congrArg some (handleFrame_leave p)
  | acceptDeliver r p =>
    simp only [leave_acceptCh, leave_config]
    split <;> rfl
  | awaitReset r p =>
    simp only [leave_cells]
    split <;> rfl
  | _ => rfl

/-- Every step but the start of an OpenStream is made with the flag as it is made without it. -/
theorem step_leave (ha : ∀ payload, a ≠ .openStream payload) :
    (leave s).step a = (s.step a).map leave := by
  cases a with
  | openStream payload => exact absurd rfl (ha payload)
  | openAlloc payload =>
    simp only [Session.step, leave_calls]
    split
    · simp only [Session.openAlloc, leave_table, leave_config]
      split <;> rfl
    · rfl
  | opening r o =>
    simp only [Session.step, leave_nextRef]
    split
    · exact opening_leave r o
    · rfl
  | callback r k =>
    simp only [Session.step, leave_nextRef]
    split
    · exact callback_leave r k
    · rfl
  | acceptStream =>
    simp only [Session.step, leave_acceptCh]
    split <;> rfl
  | call r k =>
    simp only [Session.step, leave_nextRef, leave_cells]
    split
    · rw [Option.map_map]
      rfl
    · rfl
  | drain r d =>
    simp only [Session.step, leave_nextRef, leave_cells, leave_closed]
    split
    · split <;> rfl
    · rfl
  | reader => exact readerStep_leave
  | dequeue =>
    simp only [Session.step, leave_writer, leave_queue]
    split
    · split
      · rfl
      · split <;> rfl
    · rfl
  | transmitFail =>
    simp only [Session.step, leave_writer, leave_closing]
    split
    · split <;> rfl
    · rfl
  | readerClosed =>
    simp only [Session.step, leave_reader]
    split
    · cases hcl : s.closed with
      | true | false => rw [leave_closed, hcl]; rfl
    · rfl
  | sendServiceList services =>
    simp only [Session.step, Session.sendServiceList]
    split <;> rfl
  | closing =>
    simp only [Session.step, Session.closingStep, leave_closing]
    split <;> rfl
  | goAway | goAwaySend | ping => rfl
  | writerCheck | transmit | recv | closeSession =>
    simp only [Session.step, leave_writer, leave_reader, leave_closing]
    split <;> rfl

/-- The same for a sequence of operations and incoming frames. -/
theorem exec_leave {as : List Action} (has : ∀ a ∈ as, ∀ payload, a ≠ .openStream payload) :
    exec Session.step (leave s) as = (exec Session.step s as).map leave := by
  induction as generalizing s with
  | nil => rfl
  | cons a as ih =>
    have ha := has a List.mem_cons_self
    have hrest : ∀ b ∈ as, ∀ payload, b ≠ .openStream payload :=
      fun b hb => has b (List.mem_cons_of_mem a hb)
    unfold exec at ih ⊢
    simp only [List.foldlM_cons, Option.bind_eq_bind]
    rw [step_leave ha]
    cases s.step a with
    | none => rfl
    | some t => exact ih hrest

/-- The flag stays set, and OpenStream fails at its test. -/
theorem step_goingAway (hga : s.goingAway = true) (hstep : s.step a = some s') :
    s'.goingAway = true ∧ ∀ payload, a ≠ .openStream payload := by
  have ha : ∀ payload, a ≠ .openStream payload := by
    rintro payload rfl
    simp [Session.step, hga] at hstep
  rw [← leave_eq hga, step_leave ha, Option.map_eq_some_iff] at hstep
  obtain ⟨t, -, rfl⟩ := hstep
  exact ⟨rfl, ha⟩

/-! ## Which streams can still be made -/

/-- Nothing is under way that makes a stream: no OpenStream call is past its test and short of its
allocation, and the read loop is not about to insert a stream of the peer.
SOURCE: mux_session.go:112-116, 427-442 -/
structure OpensOver (s : Session) : Prop where
  calls : s.calls = []
  frame : ∀ p, s.reader = .frame p → p.isOpen = true →
    s.table.ownsID p.frame.streamID = true
  insertion : ∀ p, s.reader ≠ .acceptInsert p

/-- The peer opens no stream: a STREAM_OPEN that arrives is an ACK, or names an identifier that is
not the peer's to open. -/
def PeerOpensNone (s : Session) : Action → Prop
  | .recv p => p.isOpen = true → s.table.ownsID p.frame.streamID = true
  | _ => True

instance (s : Session) (a : Action) : Decidable (PeerOpensNone s a) := by
  unfold PeerOpensNone
  induction a <;> infer_instance

theorem move_calls (hm : Move s a s') (ha : ∀ payload, a ≠ .openStream payload)
    (h : s.calls = []) : s'.calls = [] := by
  cases hm with
  | openStream payload => exact absurd rfl (ha payload)
  | openFull payload hmem | openAlloc payload hmem =>
    rw [h] at hmem
    cases hmem
  | _ => exact h

theorem opensOver_move (h : OpensOver s) (hok : PeerOpensNone s a) (hm : Move s a s')
    (ha : ∀ payload, a ≠ .openStream payload) : OpensOver s' := by
  refine ⟨move_calls hm ha h.calls, ?_, ?_⟩
  · intro p hp hopen
    rw [move_ownsID hm]
    have hrd := hp ▸ move_readerPc hm
    generalize hpc : s.reader = pc at hrd
    cases hrd with
    | stay => exact h.frame p hpc hopen
    | recv _ ha =>
      subst ha
      exact hok hopen
  · intro p hp
    rcases move_acceptInsert hm hp with hold | ⟨hfr, hopen, _, hown⟩
    · exact h.insertion p hold
    · rw [h.frame p hfr hopen] at hown
      cases hown

/-- A step that makes no stream adds nothing to the map. -/
theorem opensOver_table (h : OpensOver s) (hm : Move s a s') {i : ℕ} {r : Ref}
    (hget : s'.table.get i = some r) : s.table.get i = some r := by
  rcases move_table hm hget with hold | ⟨_, hn, _⟩
  · exact hold
  · have hlt : s.nextRef < s'.nextRef := hn ▸ Nat.lt_succ_self _
    exfalso
    cases hm with
    | openAlloc payload hmem =>
      rw [h.calls] at hmem
      cases hmem
    | acceptInsert p hrd => exact h.insertion p hrd
    | _ => exact Nat.lt_irrefl _ hlt

/-- Once GoAway has returned with nothing under way that makes a stream, no entry is added to the
map as long as the peer opens none, whatever else is called and arrives; and everything but
OpenStream goes on as in the session that was never told to go away.
SOURCE: mux_session.go:111-141, 207-232, 408-460 -/
theorem no_stream_after_goAway (hga : s.goingAway = true) (hover : OpensOver s)
    (hrun : Reach Session.step PeerOpensNone s s') :
    (∀ i r, s'.table.get i = some r → s.table.get i = some r) ∧
      ∀ t as, s' = leave t → (∀ a ∈ as, ∀ payload, a ≠ .openStream payload) →
        exec Session.step s' as = (exec Session.step t as).map leave := by
  have hinv : s'.goingAway = true ∧ OpensOver s' ∧
      ∀ i r, s'.table.get i = some r → s.table.get i = some r := by
    refine Reach.invariant (fun s' => s'.goingAway = true ∧ OpensOver s' ∧
      ∀ i r, s'.table.get i = some r → s.table.get i = some r) hrun
      ⟨hga, hover, fun _ _ h => h⟩ ?_
    intro s₁ a s₂ _ hI hok hstep
    obtain ⟨hflag, hopens, hsub⟩ := hI
    obtain ⟨hflag', ha⟩ := step_goingAway hflag hstep
    have hm := step_move hstep
    exact ⟨hflag', opensOver_move hopens hok hm ha,
      fun i r hget => hsub i r (opensOver_table hopens hm hget)⟩
  refine ⟨hinv.2.2, ?_⟩
  rintro t as rfl has
  exact exec_leave has

/-- The relay has a stream of the agent when it calls GoAway; afterwards the agent's data arrives on
it. -/
theorem no_stream_after_goAway_data :
    ∃ s s', SessionReach .relay ⟨4, 65536, 65536⟩ anyStep s ∧ s.goingAway = true ∧
      Reach Session.step PeerOpensNone s s' ∧ s'.table.get 2 = some 0 ∧
      (s'.cells 0).stream.readBuf = [7] ∧
      ∀ i r, s'.table.get i = some r → s.table.get i = some r := by
  have hex : ∃ s s', SessionReach .relay ⟨4, 65536, 65536⟩ anyStep s ∧
      Reach Session.step PeerOpensNone s s' ∧ s.goingAway = true ∧ s.calls = [] ∧
      s.reader = .idle ∧ s'.table.get 2 = some 0 ∧ (s'.cells 0).stream.readBuf = [7] :=
    exists_runs_of_exec (peerOpenRun 2 ++ [Action.reader, .goAway, .goAwaySend 0])
      [.recv ⟨{ command := .streamData, streamID := 2, payload := [7] }, none⟩, .reader, .reader] _
      (by decide)
  obtain ⟨s, s', hs, hrun, hga, hcalls, hidle, hget, hbuf⟩ := hex
  have hover : OpensOver s := ⟨hcalls, by simp [hidle], by simp [hidle]⟩
  exact ⟨s, s', hs, hga, hrun, hget, hbuf, (no_stream_after_goAway hga hover hrun).1⟩

/-- An OpenStream that is past its test when GoAway is called still gets its stream, and the peer's
next STREAM_OPEN is accepted as ever. -/
theorem stream_after_goAway :
    (∃ s s', SessionReach .agent ⟨4, 65536, 65536⟩ anyStep s ∧ Reach Session.step anyStep s s' ∧
      s.goingAway = true ∧ s.table.get 2 = none ∧ s'.table.get 2 = some 0) ∧
    ∃ s s', SessionReach .relay ⟨4, 65536, 65536⟩ anyStep s ∧ Reach Session.step anyStep s s' ∧
      s.goingAway = true ∧ s.calls = [] ∧ s.table.get 2 = none ∧ s'.table.get 2 = some 0 :=
  ⟨exists_runs_of_exec [.openStream [], .goAway, .goAwaySend 0] [.openAlloc []] _
      (by decide),
    exists_runs_of_exec [.goAway, .goAwaySend 0] (peerOpenRun 2) _ (by decide)⟩

end Atlax.Analysis
