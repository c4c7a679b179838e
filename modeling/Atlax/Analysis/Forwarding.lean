import Atlax.Model.Forwarder

/-!
# What `Forward` leaves behind

Once the service is dialled, `Forward` returns only after it has taken the reports of both
goroutines from `done`, on every path through `await`; the goroutine that copies to the stream
closes the stream before it reports, and the deferred call closes the connection. So nothing is
left, however the copies, the cancellation and the linger timer fall.

When the dial fails `Forward` returns at once, and nobody has touched the stream: its caller logs
the error, and the stream stays open on both sides.
-/

set_option autoImplicit false

namespace Atlax.Analysis

open Atlax.Model Atlax.Library

/-- The stream has been closed locally or reset. -/
def EndedHere (st : StreamState) : Prop := st.LocalClosed ∨ st = .reset

section Streams

variable {v : StreamSession}

theorem endedHere_close (h : v.state ≠ .idle) : EndedHere v.close.1.state := by
  unfold StreamSession.close
  cases hst : v.state with
  | idle => exact absurd hst h
  | opened => exact .inl (.inl rfl)
  | halfClosedRemote => exact .inl (.inr rfl)
  | halfClosedLocal => exact .inl (.inl hst)
  | closed => exact .inl (.inr hst)
  | reset => exact .inr hst

theorem endedHere_reset (v : StreamSession) : EndedHere v.reset.1.state := by
  unfold StreamSession.reset
  split
  · next h => exact h.elim .inr fun h => .inl (.inr h)
  · exact .inr rfl

theorem endedHere_remoteClose (h : EndedHere v.state) : EndedHere v.remoteClose.state := by
  unfold StreamSession.remoteClose
  split
  · next hst =>
    rw [hst] at h
    obtain (h | h) | h := h <;> cases h
  · exact .inl (.inr rfl)
  · exact h

theorem EndedHere.ne_idle {st : StreamState} (h : EndedHere st) : st ≠ .idle := by
  rintro rfl
  obtain (h | h) | h := h <;> cases h

theorem remoteClose_ne_idle (h : v.state ≠ .idle) : v.remoteClose.state ≠ .idle := by
  unfold StreamSession.remoteClose
  split
  · nofun
  · nofun
  · exact h

end Streams

/-! ## Reports and receipts -/

/-- How many reports `Forward` has taken from `done`. -/
def taken : ForwardPc → ℕ
  | .dial | .select none | .abort none _ | .drain none => 0
  | .select (some _) | .abort (some _) _ | .drain (some _) | .drainOther => 1
  | .close _ | .returned _ => 2

/-- The goroutine has reported. -/
def reports : LinkPc → ℕ
  | .returned => 1
  | _ => 0

/-- The goroutine is past its half-close. -/
def halfClosed : LinkPc → Bool
  | .report _ | .returned => true
  | _ => false

/-- What holds of a `Forward` whose dial was successful. -/
structure Linked (s : Forward) : Prop where
  linked : s.linked = true
  pc : s.pc ≠ .dial
  count : taken s.pc + s.done.length = reports s.streamToLocal + reports s.localToStream
  ne_idle : s.stream.state ≠ .idle
  stream : halfClosed s.localToStream = true → EndedHere s.stream.state
  localConn : ∀ err, s.pc = .returned err → s.localConn.closed = true

variable {s s' : Forward} {a : ForwardAction}

/-- `Forward` goes on: a report that it takes leaves the channel. -/
theorem Linked.goes (h : Linked s) (hpc : s'.pc ≠ .dial)
    (hcount : taken s'.pc + s'.done.length = taken s.pc + s.done.length)
    (hlocal : ∀ err, s'.pc = .returned err → s'.localConn.closed = true)
    (hstream : s'.stream = s.stream ∨ EndedHere s'.stream.state := by exact .inl rfl)
    (hlinked : s'.linked = s.linked := by rfl)
    (hout : s'.streamToLocal = s.streamToLocal := by rfl)
    (hin : s'.localToStream = s.localToStream := by rfl) : Linked s' where
  linked := hlinked.trans h.linked
  pc := hpc
  count := by rw [hcount, hout, hin, h.count]
  ne_idle := by
    obtain heq | hended := hstream
    · rw [heq]
      exact h.ne_idle
    · exact hended.ne_idle
  stream hclosed := by
    obtain heq | hended := hstream
    · rw [heq]
      exact h.stream (hin ▸ hclosed)
    · exact hended
  localConn := hlocal

theorem received_spec {err : Option String} {first : Option (Option String)} :
    received err first ≠ .dial ∧ (∀ e, received err first ≠ .returned e) ∧
      taken (received err first) = taken (.select first) + 1 := by
  cases first <;> exact ⟨nofun, nofun, rfl⟩

theorem drained_spec {first : Option (Option String)} :
    drained first ≠ .dial ∧ (∀ e, drained first ≠ .returned e) ∧
      taken (drained first) = taken (.drain first) + 1 := by
  cases first <;> exact ⟨nofun, nofun, rfl⟩

/-- A section of `Forward` takes a report or counts none, and the last one closes the connection.
SOURCE: forwarder_impl.go:60-112, 144-154 -/
theorem next_spec {e e' : AwaitState} {effect : ForwardEffect} (h : e.next = some (effect, e')) :
    e'.pc ≠ .dial ∧ taken e'.pc + e'.done.length = taken e.pc + e.done.length ∧
      ∀ err, e'.pc = .returned err → effect = .closeLocal := by
  unfold AwaitState.next at h
  split at h
  · -- a report is there
    next first hpc =>
    split at h <;> cases h
    next err rest hdone =>
    obtain ⟨hd, hr, ht⟩ := @received_spec err first
    refine ⟨hd, ?_, fun e he => absurd he (hr e)⟩
    simp only [ht, hpc, hdone, List.length_cons]
    omega
  · next first hpc =>
    cases h
    refine ⟨nofun, ?_, nofun⟩
    rw [hpc]
    cases first <;> rfl
  · next first hpc =>
    cases h
    refine ⟨nofun, ?_, nofun⟩
    rw [hpc]
    cases first <;> rfl
  · next first hpc =>
    cases h
    refine ⟨nofun, ?_, nofun⟩
    rw [hpc]
    cases first <;> rfl
  · next first hpc =>
    split at h <;> cases h
    next err rest hdone =>
    obtain ⟨hd, hr, ht⟩ := @drained_spec first
    refine ⟨hd, ?_, fun e he => absurd he (hr e)⟩
    simp only [ht, hpc, hdone, List.length_cons]
    omega
  · next hpc =>
    split at h <;> cases h
    next err rest hdone =>
    refine ⟨nofun, ?_, nofun⟩
    rw [hpc, hdone, List.length_cons]
    simp only [taken]
    omega
  · next err hpc =>
    cases h
    refine ⟨nofun, ?_, fun _ _ => rfl⟩
    rw [hpc]
    rfl
  · cases h
  · cases h

/-- An abort begins, and no report is taken.
SOURCE: forwarder_impl.go:106-111 -/
theorem abort_spec {e e' : AwaitState} (h : e.ctxDone = some e' ∨ e.linger = some e') :
    e'.pc ≠ .dial ∧ taken e'.pc + e'.done.length = taken e.pc + e.done.length ∧
      ∀ err, e'.pc ≠ .returned err := by
  rcases h with h | h
  · unfold AwaitState.ctxDone at h
    split at h <;> cases h
    next first hpc =>
    refine ⟨nofun, ?_, nofun⟩
    rw [hpc]
    cases first <;> rfl
  · unfold AwaitState.linger at h
    split at h <;> cases h
    next first hpc =>
    refine ⟨nofun, ?_, nofun⟩
    rw [hpc]
    rfl

theorem linked_run (h : Linked s) (hs : s.runForward = some s') : Linked s' := by
  obtain ⟨⟨effect, e⟩, hnext, rfl⟩ := Option.map_eq_some_iff.mp hs
  obtain ⟨hpc, hcount, hlocal⟩ := next_spec hnext
  cases effect with
  | nothing => exact h.goes hpc hcount fun err he => nomatch hlocal err he
  | closeLocal => exact h.goes hpc hcount fun _ _ => rfl
  | reset =>
    exact h.goes hpc hcount (fun err he => nomatch hlocal err he)
      (.inr (endedHere_reset s.stream))

theorem linked_streamToLocal (h : Linked s) (hs : s.runStreamToLocal = some s') : Linked s' := by
  have hcount := h.count
  unfold Forward.runStreamToLocal at hs
  split at hs <;> cases hs
  · next err hpc =>
    rw [hpc] at hcount
    exact ⟨h.linked, h.pc, hcount, h.ne_idle, h.stream, h.localConn⟩
  · next err hpc =>
    rw [hpc] at hcount
    refine ⟨h.linked, h.pc, ?_, h.ne_idle, h.stream, h.localConn⟩
    simp only [reports, AwaitState.report, List.length_append, List.length_cons,
      List.length_nil] at hcount ⊢
    omega

theorem linked_localToStream (h : Linked s) (hs : s.runLocalToStream = some s') : Linked s' := by
  have hcount := h.count
  unfold Forward.runLocalToStream at hs
  split at hs <;> cases hs
  · next err hpc =>
    -- the half-close of the stream
    rw [hpc] at hcount
    have hended := endedHere_close h.ne_idle
    exact ⟨h.linked, h.pc, hcount, hended.ne_idle, fun _ => hended, h.localConn⟩
  · next err hpc =>
    have hended := h.stream (by rw [hpc]; rfl)
    rw [hpc] at hcount
    refine ⟨h.linked, h.pc, ?_, h.ne_idle, fun _ => hended, h.localConn⟩
    simp only [reports, AwaitState.report, List.length_append, List.length_cons,
      List.length_nil] at hcount ⊢
    omega

theorem linked_step (h : Linked s) (hs : s.step a = some s') : Linked s' := by
  have hcount := h.count
  cases a with
  | dialed err =>
    simp only [Forward.step, if_neg h.pc] at hs
    cases hs
  | cancel =>
    cases hs
    exact ⟨h.linked, h.pc, hcount, h.ne_idle, h.stream, h.localConn⟩
  | run => exact linked_run h hs
  | ctxDone =>
    obtain ⟨-, hs⟩ := Option.ite_none_right_eq_some.mp hs
    obtain ⟨e, he, rfl⟩ := Option.map_eq_some_iff.mp hs
    obtain ⟨hpc, hc, hr⟩ := abort_spec (.inl he)
    exact h.goes hpc hc fun err heq => absurd heq (hr err)
  | linger =>
    obtain ⟨e, he, rfl⟩ := Option.map_eq_some_iff.mp hs
    obtain ⟨hpc, hc, hr⟩ := abort_spec (.inr he)
    exact h.goes hpc hc fun err heq => absurd heq (hr err)
  | copied d err =>
    cases d with
    | streamToLocal =>
      simp only [Forward.step, Option.ite_none_right_eq_some, Option.some.injEq] at hs
      obtain ⟨⟨-, hpc⟩, rfl⟩ := hs
      rw [hpc] at hcount
      exact ⟨h.linked, h.pc, hcount, h.ne_idle, h.stream, h.localConn⟩
    | localToStream =>
      simp only [Forward.step, Option.ite_none_right_eq_some, Option.some.injEq] at hs
      obtain ⟨⟨-, hpc⟩, rfl⟩ := hs
      rw [hpc] at hcount
      exact ⟨h.linked, h.pc, hcount, h.ne_idle, nofun, h.localConn⟩
  | link d =>
    cases d with
    | streamToLocal => exact linked_streamToLocal h hs
    | localToStream => exact linked_localToStream h hs
  | remote c =>
    cases c with
    | deliver data =>
      cases hs
      exact ⟨h.linked, h.pc, hcount, h.ne_idle, h.stream, h.localConn⟩
    | remoteClose =>
      cases hs
      exact ⟨h.linked, h.pc, hcount, remoteClose_ne_idle h.ne_idle,
        fun hc => endedHere_remoteClose (h.stream hc), h.localConn⟩
    | reset =>
      cases hs
      exact h.goes h.pc rfl h.localConn (.inr (endedHere_reset s.stream))

/-! ## From the dial on -/

/-- The dial is not through, or it has failed, and nothing has been done with the stream. -/
structure Unlinked (s : Forward) : Prop where
  linked : s.linked = false
  pc : s.pc = .dial ∨ ∃ err, s.pc = .returned (some (.dial s.target err))
  done : s.done = []
  out : s.streamToLocal = .copy
  back : s.localToStream = .copy
  ne_idle : s.stream.state ≠ .idle

/-- The peer does nothing with the stream. -/
def PeerSilent (_ : Forward) : ForwardAction → Prop
  | .remote _ => False
  | _ => True

/-- The dial may succeed; apart from that, only the peer does anything to the stream. -/
theorem unlinked_step (h : Unlinked s) (hs : s.step a = some s') :
    (s.pc = .dial ∧ Linked s') ∨
      (Unlinked s' ∧ (s.pc ≠ .dial → s'.pc ≠ .dial) ∧ (PeerSilent s a → s'.stream = s.stream)) := by
  cases a with
  | dialed err =>
    simp only [Forward.step, Option.ite_none_right_eq_some] at hs
    obtain ⟨hpc, hs⟩ := hs
    cases err with
    | some e =>
      right
      cases hs
      exact ⟨⟨rfl, .inr ⟨e, rfl⟩, h.done, h.out, h.back, h.ne_idle⟩, nofun, fun _ => rfl⟩
    | none =>
      left
      cases hs
      refine ⟨hpc, rfl, nofun, ?_, h.ne_idle, ?_, nofun⟩
      · simp [AwaitState.dialed, h.done, h.out, h.back, taken, reports]
      · rw [h.back]
        nofun
  | cancel =>
    right
    cases hs
    exact ⟨⟨h.linked, h.pc, h.done, h.out, h.back, h.ne_idle⟩, id, fun _ => rfl⟩
  | run =>
    obtain hpc | ⟨err, hpc⟩ := h.pc <;>
      simp [Forward.step, Forward.runForward, AwaitState.next, hpc] at hs
  | ctxDone =>
    obtain hpc | ⟨err, hpc⟩ := h.pc <;> simp [Forward.step, AwaitState.ctxDone, hpc] at hs
  | linger =>
    obtain hpc | ⟨err, hpc⟩ := h.pc <;> simp [Forward.step, AwaitState.linger, hpc] at hs
  | copied d err => cases d <;> simp [Forward.step, h.linked] at hs
  | link d =>
    cases d
    · simp [Forward.step, Forward.runStreamToLocal, h.out] at hs
    · simp [Forward.step, Forward.runLocalToStream, h.back] at hs
  | remote c =>
    right
    cases c with
    | deliver data =>
      cases hs
      exact ⟨⟨h.linked, h.pc, h.done, h.out, h.back, h.ne_idle⟩, id, False.elim⟩
    | remoteClose =>
      cases hs
      have hne := remoteClose_ne_idle h.ne_idle
      exact ⟨⟨h.linked, h.pc, h.done, h.out, h.back, hne⟩, id, False.elim⟩
    | reset =>
      cases hs
      have hne := (endedHere_reset s.stream).ne_idle
      exact ⟨⟨h.linked, h.pc, h.done, h.out, h.back, hne⟩, id, False.elim⟩

theorem unlinked_newForward {stream : StreamSession} (target : String)
    (hopen : stream.state ≠ .idle) : Unlinked (newForward stream target) :=
  ⟨rfl, .inl rfl, rfl, rfl, rfl, hopen⟩

theorem unlinked_or_linked {stream : StreamSession} {target : String}
    (hopen : stream.state ≠ .idle)
    (h : Reach Forward.step anyStep (newForward stream target) s) : Unlinked s ∨ Linked s := by
  refine h.invariant (fun s => Unlinked s ∨ Linked s)
    (.inl (unlinked_newForward target hopen)) fun s a s' _ hI _ hs => ?_
  obtain hI | hI := hI
  · obtain ⟨-, hI'⟩ | ⟨hI', -, -⟩ := unlinked_step hI hs
    · exact .inr hI'
    · exact .inl hI'
  · exact .inr (linked_step hI hs)

/-- After a failed dial nobody on this side touches the stream. -/
theorem stream_kept (h : Unlinked s) (hpc : s.pc ≠ .dial)
    (hrun : Reach Forward.step PeerSilent s s') : s'.stream = s.stream := by
  have hI : Unlinked s' ∧ s'.pc ≠ .dial ∧ s'.stream = s.stream := by
    refine hrun.invariant (fun t => Unlinked t ∧ t.pc ≠ .dial ∧ t.stream = s.stream)
      ⟨h, hpc, rfl⟩ fun t a t' _ hI hsilent ht => ?_
    obtain ⟨hU, hne, hstream⟩ := hI
    obtain ⟨hdial, -⟩ | ⟨hU', hne', hkeep⟩ := unlinked_step hU ht
    · exact absurd hdial hne
    · exact ⟨hU', hne' hne, (hkeep hsilent).trans hstream⟩
  exact hI.2.2

/-! ## What is left -/

/-- `Forward` has returned after a dial that was successful: both goroutines have finished, the
connection is closed, and the stream has been closed locally or reset. -/
theorem forward_cleans_up {stream : StreamSession} {target : String} {err : Option ForwardError}
    (hopen : stream.state ≠ .idle)
    (h : Reach Forward.step anyStep (newForward stream target) s) (hpc : s.pc = .returned err)
    (hdial : ∀ t e, err ≠ some (.dial t e)) :
    s.streamToLocal = .returned ∧ s.localToStream = .returned ∧ s.localConn.closed = true ∧
      (s.stream.state.LocalClosed ∨ s.stream.state = .reset) := by
  obtain hI | hI := unlinked_or_linked hopen h
  · obtain hpc' | ⟨e, hpc'⟩ := hI.pc
    · rw [hpc] at hpc'
      cases hpc'
    · rw [hpc] at hpc'
      cases hpc'
      exact absurd rfl (hdial s.target e)
  · have hcount := hI.count
    have hone (pc : LinkPc) : reports pc ≤ 1 := by cases pc <;> simp [reports]
    have hreports (pc : LinkPc) (hpc : 0 < reports pc) : pc = .returned := by
      cases pc <;> simp [reports] at hpc ⊢
    have hout := hone s.streamToLocal
    have hin := hone s.localToStream
    rw [hpc] at hcount
    simp only [taken] at hcount
    have hreturned : s.localToStream = .returned := hreports _ (by omega)
    refine ⟨hreports _ (by omega), hreturned, hI.localConn err hpc, hI.stream ?_⟩
    rw [hreturned]
    rfl

/-- A stream that the session has just opened. -/
def acceptedStream : StreamSession := (newStreamSession 1 262144).opened

/-- The service ends first, the peer never answers, and the linger timer fires. -/
theorem forward_cleans_up_linger :
    ∃ s, Reach Forward.step anyStep (newForward acceptedStream "127.0.0.1:80") s ∧
      s.pc = .returned none ∧ s.streamToLocal = .returned ∧ s.localToStream = .returned ∧
      s.localConn.closed = true ∧ (s.stream.state.LocalClosed ∨ s.stream.state = .reset) := by
  obtain ⟨s, hreach, hpc⟩ : ∃ s,
      Reach Forward.step anyStep (newForward acceptedStream "127.0.0.1:80") s ∧
      s.pc = .returned none :=
    exists_reach_of_exec
      [.dialed none, .remote (.deliver [71]), .copied .localToStream none, .link .localToStream,
        .link .localToStream, .run, .linger, .run, .run, .run,
        .copied .streamToLocal (some "use of closed network connection"), .link .streamToLocal,
        .link .streamToLocal, .run, .run]
      _ (by decide)
  exact ⟨s, hreach, hpc, forward_cleans_up (by decide) hreach hpc nofun⟩

/-- The dial is refused: `Forward` has returned, and the stream is open and stays so as long as the
peer does nothing. -/
theorem forward_leaves_stream :
    ∃ s, Reach Forward.step anyStep (newForward acceptedStream "127.0.0.1:1") s ∧
      s.pc = .returned (some (.dial "127.0.0.1:1" "connection refused")) ∧
      ∀ s', Reach Forward.step PeerSilent s s' → s'.stream.state = .opened := by
  obtain ⟨s, hreach, hpc, hopened, hlinked⟩ : ∃ s,
      Reach Forward.step anyStep (newForward acceptedStream "127.0.0.1:1") s ∧
      s.pc = .returned (some (.dial "127.0.0.1:1" "connection refused")) ∧
      s.stream.state = .opened ∧ s.linked = false :=
    exists_reach_of_exec [.dialed (some "connection refused")] _ (by decide)
  have hne : s.pc ≠ .dial := by
    rw [hpc]
    nofun
  refine ⟨s, hreach, hpc, fun s' hrun => ?_⟩
  obtain hI | hI := unlinked_or_linked (by decide) hreach
  · rw [stream_kept hI hne hrun]
    exact hopened
  · rw [hI.linked] at hlinked
    cases hlinked

end Atlax.Analysis
