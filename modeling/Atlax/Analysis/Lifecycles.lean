import Atlax.Library.Run
import Atlax.Model.Session
import Atlax.Model.StreamCalls

/-!
# The life of a stream

The state of a stream after any calls of Close, RemoteClose, Reset and Deliver, said by the calls
alone. `lifecycle` is the machine on the states that the methods implement. What came before what
decides how a stream ends: it is Reset when a Reset came before the stream had been closed from both
sides, and Closed when no Reset did. The FIN token and the callbacks follow the two once-guards.
-/

set_option autoImplicit false

namespace Atlax.Analysis

open Atlax.Model Atlax.Library

variable {k : StreamCall}

/-! ## What the calls say -/

section History

variable {ks ks' : List StreamCall} {st st' : StreamState}

/-- No Reset was called. -/
def NoReset (ks : List StreamCall) : Prop := ∀ code, .reset code ∉ ks

/-- A Reset came before both Close and RemoteClose had been called. -/
def ResetInTime (ks : List StreamCall) : Prop :=
  ∃ pre code post, ks = pre ++ .reset code :: post ∧ ¬(.close ∈ pre ∧ .remoteClose ∈ pre)

/-- Close and RemoteClose had both been called before any Reset. -/
def ClosedInTime (ks : List StreamCall) : Prop :=
  ∃ pre post, ks = pre ++ post ∧ .close ∈ pre ∧ .remoteClose ∈ pre ∧ NoReset pre

/-- Some Close preceded the first Reset. -/
def CloseInTime (ks : List StreamCall) : Prop :=
  ∃ pre post, ks = pre ++ .close :: post ∧ NoReset pre

/-- What the calls must have been for the stream to be in a state. -/
def Tells (ks : List StreamCall) : StreamState → Prop
  | .idle => False
  | .opened => .close ∉ ks ∧ .remoteClose ∉ ks ∧ NoReset ks
  | .halfClosedLocal => .close ∈ ks ∧ .remoteClose ∉ ks ∧ NoReset ks
  | .halfClosedRemote => .remoteClose ∈ ks ∧ .close ∉ ks ∧ NoReset ks
  | .closed => ClosedInTime ks
  | .reset => ResetInTime ks

theorem ResetInTime.append (h : ResetInTime ks) (ks' : List StreamCall) :
    ResetInTime (ks ++ ks') := by
  obtain ⟨pre, code, post, rfl, hnot⟩ := h
  exact ⟨pre, code, post ++ ks', by simp, hnot⟩

theorem ClosedInTime.append (h : ClosedInTime ks) (ks' : List StreamCall) :
    ClosedInTime (ks ++ ks') := by
  obtain ⟨pre, post, rfl, hpre⟩ := h
  exact ⟨pre, post ++ ks', by simp, hpre⟩

theorem CloseInTime.append (h : CloseInTime ks) (ks' : List StreamCall) :
    CloseInTime (ks ++ ks') := by
  obtain ⟨pre, post, rfl, hpre⟩ := h
  exact ⟨pre, post ++ ks', by simp, hpre⟩

theorem ResetInTime.not_noReset (h : ResetInTime ks) : ¬NoReset ks := by
  obtain ⟨pre, code, post, rfl, -⟩ := h
  intro hno
  exact hno code (by simp)

theorem ClosedInTime.mem (h : ClosedInTime ks) : .close ∈ ks ∧ .remoteClose ∈ ks := by
  obtain ⟨pre, post, rfl, hclose, hremote, -⟩ := h
  exact ⟨List.mem_append_left _ hclose, List.mem_append_left _ hremote⟩

/-- The two ends exclude each other: of the Reset and the second of the two closes, one was
first. -/
theorem ResetInTime.not_closedInTime (h : ResetInTime ks) : ¬ClosedInTime ks := by
  rintro ⟨pre', post', hks', hclose, hremote, hno⟩
  obtain ⟨pre, code, post, hks, hnot⟩ := h
  obtain ⟨l, hpre', hl⟩ | ⟨l, hpre, -⟩ := List.append_eq_append_iff.mp (hks.symm.trans hks')
  · cases l with
    | nil =>
      rw [hpre', List.append_nil] at hclose hremote
      exact hnot ⟨hclose, hremote⟩
    | cons k l =>
      obtain ⟨rfl, -⟩ := List.cons.inj hl
      exact hno code (by rw [hpre']; simp)
  · rw [hpre] at hnot
    exact hnot ⟨List.mem_append_left _ hclose, List.mem_append_left _ hremote⟩

/-- The calls tell at most one state. -/
theorem Tells.unique (h : Tells ks st) (h' : Tells ks st') : st = st' := by
  have hreset : ResetInTime ks → ¬NoReset ks := ResetInTime.not_noReset
  have hclosed : ClosedInTime ks → .close ∈ ks ∧ .remoteClose ∈ ks := ClosedInTime.mem
  have hends : ResetInTime ks → ¬ClosedInTime ks := ResetInTime.not_closedInTime
  cases st <;> cases st' <;> simp only [Tells] at h h' <;> first | rfl | tauto

/-- A stream that has ended stays so. -/
theorem Tells.terminal (h : Tells ks st) (hst : st.Terminal) (ks' : List StreamCall) :
    Tells (ks ++ ks') st := by
  obtain rfl | rfl := hst
  · exact ClosedInTime.append h ks'
  · exact ResetInTime.append h ks'

theorem noReset_concat :
    NoReset (ks ++ [k]) ↔ NoReset ks ∧ ∀ code, k ≠ .reset code := by
  simp only [NoReset, List.mem_append, List.mem_singleton, not_or, forall_and, ne_eq, eq_comm]

/-- The lifecycle of a stream: the states alone. -/
def lifecycle : StreamState → StreamCall → StreamState
  | .opened, .close => .halfClosedLocal
  | .halfClosedRemote, .close => .closed
  | .opened, .remoteClose => .halfClosedRemote
  | .halfClosedLocal, .remoteClose => .closed
  | .closed, .reset _ => .closed
  | _, .reset _ => .reset
  | st, _ => st

/-- A stream that has not ended: no Reset yet, and not closed from both sides. -/
theorem Tells.live (h : Tells ks st) (hst : ¬st.Terminal) :
    NoReset ks ∧ ¬(.close ∈ ks ∧ .remoteClose ∈ ks) := by
  cases st with
  | idle => exact h.elim
  | closed => exact absurd (.inl rfl) hst
  | reset => exact absurd (.inr rfl) hst
  | opened => exact ⟨h.2.2, fun hboth => h.1 hboth.1⟩
  | halfClosedLocal => exact ⟨h.2.2, fun hboth => h.2.1 hboth.2⟩
  | halfClosedRemote => exact ⟨h.2.2, fun hboth => h.2.1 hboth.1⟩

/-- The second of the two closes. -/
theorem closedInTime_concat (hno : NoReset (ks ++ [k]))
    (hclose : .close ∈ ks ++ [k]) (hremote : .remoteClose ∈ ks ++ [k]) :
    ClosedInTime (ks ++ [k]) :=
  ⟨ks ++ [k], [], by rw [List.append_nil], hclose, hremote, hno⟩

/-- One more call and the state it leads to. -/
theorem Tells.step (h : Tells ks st) (k : StreamCall) : Tells (ks ++ [k]) (lifecycle st k) := by
  by_cases hst : st.Terminal
  · have hsame : lifecycle st k = st := by
      obtain rfl | rfl := hst <;> cases k <;> rfl
    rw [hsame]
    exact h.terminal hst [k]
  · obtain ⟨hno, hboth⟩ := h.live hst
    cases k with
    | reset code =>
      have hreset : lifecycle st (.reset code) = .reset := by
        cases st <;> first | rfl | exact absurd (.inl rfl) hst
      rw [hreset]
      exact ⟨ks, code, [], rfl, hboth⟩
    | close =>
      have hno' : NoReset (ks ++ [StreamCall.close]) := noReset_concat.mpr ⟨hno, by simp⟩
      cases st with
      | halfClosedRemote => exact closedInTime_concat hno' (by simp) (by simp [h.1])
      | _ => simp_all [Tells, lifecycle, StreamState.Terminal]
    | remoteClose =>
      have hno' : NoReset (ks ++ [StreamCall.remoteClose]) := noReset_concat.mpr ⟨hno, by simp⟩
      cases st with
      | halfClosedLocal => exact closedInTime_concat hno' (by simp [h.1]) (by simp)
      | _ => simp_all [Tells, lifecycle, StreamState.Terminal]
    | deliver data =>
      have hno' : NoReset (ks ++ [StreamCall.deliver data]) := noReset_concat.mpr ⟨hno, by simp⟩
      cases st <;> simp_all [Tells, lifecycle, StreamState.Terminal]

theorem closeInTime_of_mem (hno : NoReset ks) (hmem : .close ∈ ks) : CloseInTime ks := by
  obtain ⟨pre, post, rfl⟩ := List.append_of_mem hmem
  exact ⟨pre, post, rfl, fun code hcode => hno code (List.mem_append_left _ hcode)⟩

theorem ClosedInTime.closeInTime (h : ClosedInTime ks) : CloseInTime ks := by
  obtain ⟨pre, post, rfl, hclose, -, hno⟩ := h
  exact (closeInTime_of_mem hno hclose).append post

theorem CloseInTime.mem (h : CloseInTime ks) : .close ∈ ks := by
  obtain ⟨pre, post, rfl, -⟩ := h
  simp

/-- A Close that comes too late, or a call that is none, does not change that. -/
theorem closeInTime_concat :
    CloseInTime (ks ++ [k]) ↔ CloseInTime ks ∨ k = .close ∧ NoReset ks := by
  constructor
  · rintro ⟨pre, post, hks, hno⟩
    obtain rfl | ⟨post, k', rfl⟩ := List.eq_nil_or_concat' post
    · obtain ⟨rfl, hk⟩ := List.append_inj' hks rfl
      exact .inr ⟨(List.cons.inj hk).1, hno⟩
    · rw [← List.cons_append, ← List.append_assoc] at hks
      obtain ⟨rfl, -⟩ := List.append_inj' hks rfl
      exact .inl ⟨pre, post, rfl, hno⟩
  · rintro (h | ⟨rfl, hno⟩)
    · exact h.append [k]
    · exact ⟨ks, [], rfl, hno⟩

end History

/-! ## What the methods do -/

section Calls

variable {callbacks : StreamCallbacks} {s : StreamSession} {ks : List StreamCall}

/-- A Close on a stream whose local side is open, when nothing has been sent to `finCh` yet. -/
theorem closeCall_open (hst : s.state = .opened ∨ s.state = .halfClosedRemote)
    (honce : s.localCloseOnce = false) (hfin : s.finCh = false) :
    s.closeCall callbacks = some ({ s with
        state := lifecycle s.state .close
        closedCh := s.closedCh || s.state == .halfClosedRemote
        localCloseOnce := true
        finCh := true },
      .fin :: if callbacks.onLocalClose then [.onLocalClose s.id] else []) := by
  obtain hst | hst := hst <;>
    simp [StreamSession.closeCall, StreamSession.close, hst, honce, hfin, lifecycle]

/-- Close of a stream that is closed already. -/
theorem closeCall_other (callbacks : StreamCallbacks)
    (hst : ¬(s.state = .opened ∨ s.state = .halfClosedRemote)) :
    s.closeCall callbacks = some (s, []) ∧ lifecycle s.state .close = s.state := by
  cases h : s.state <;> simp_all [StreamSession.closeCall, StreamSession.close, lifecycle]

/-- SOURCE: stream_impl.go:207-221 -/
theorem remoteClose_eq (s : StreamSession) :
    s.remoteClose =
      { s with
        state := lifecycle s.state .remoteClose
        closedCh := s.closedCh || s.state == .halfClosedLocal } := by
  obtain ⟨_, state⟩ := s
  cases state <;> simp [StreamSession.remoteClose, lifecycle]

/-- SOURCE: stream_impl.go:223-243 -/
theorem resetCall_live {code : ℕ} (hst : ¬s.state.Terminal) (honce : s.resetOnce = false) :
    s.resetCall callbacks code =
      ({ s with state := .reset, readBuf := [], closedCh := true, resetOnce := true },
        if callbacks.onReset then [.onReset s.id code] else []) := by
  have hlive : ¬(s.state = .reset ∨ s.state = .closed) := fun h => hst h.symm
  simp [StreamSession.resetCall, StreamSession.reset, hlive, honce]

/-- Reset of a stream that has ended. -/
theorem resetCall_terminal {code : ℕ} (hst : s.state.Terminal) :
    s.resetCall callbacks code = (s, []) := by
  have hend : s.state = .reset ∨ s.state = .closed := hst.symm
  simp [StreamSession.resetCall, StreamSession.reset, hend]

/-- What holds of a stream after the calls `ks`, which have left the events `out` behind. -/
structure Lived (ks : List StreamCall) (s : StreamSession) (out : List StreamEvent) : Prop where
  state : Tells ks s.state
  closedCh : s.closedCh = true ↔ s.state.Terminal
  finCh : s.finCh = s.localCloseOnce
  once : s.localCloseOnce = true ↔ CloseInTime ks
  resetOnce : s.resetOnce = true ↔ s.state = .reset
  tokens : out.count .fin = s.localCloseOnce.toNat
  localCloses : out.countP StreamEvent.isLocalClose ≤ s.localCloseOnce.toNat
  resets : out.countP StreamEvent.isReset ≤ s.resetOnce.toNat

variable {out : List StreamEvent}

/-- A call that leaves nothing behind and takes no once-guard. -/
theorem Lived.quiet (h : Lived ks s out) {s' : StreamSession}
    (hk : CloseInTime (ks ++ [k]) ↔ CloseInTime ks) (hstate : s'.state = lifecycle s.state k)
    (hclosedCh : s'.closedCh = true ↔ s'.state.Terminal) (hfin : s'.finCh = s.finCh)
    (honce : s'.localCloseOnce = s.localCloseOnce) (hresetOnce : s'.resetOnce = s.resetOnce)
    (hreset : lifecycle s.state k = .reset ↔ s.state = .reset) :
    Lived (ks ++ [k]) s' (out ++ []) where
  state := hstate ▸ h.state.step k
  closedCh := hclosedCh
  finCh := by rw [hfin, honce, h.finCh]
  once := by rw [honce, hk, h.once]
  resetOnce := by rw [hresetOnce, hstate, hreset, h.resetOnce]
  tokens := by rw [List.append_nil, honce, h.tokens]
  localCloses := by rw [List.append_nil, honce]; exact h.localCloses
  resets := by rw [List.append_nil, hresetOnce]; exact h.resets

/-- As long as the local side is open there has been no Close. -/
theorem Lived.once_of_open (h : Lived ks s out)
    (hst : s.state = .opened ∨ s.state = .halfClosedRemote) : s.localCloseOnce = false := by
  have hnever : .close ∉ ks := by
    have htells := h.state
    obtain hst | hst := hst
    · rw [hst] at htells
      exact htells.1
    · rw [hst] at htells
      exact htells.2.1
  rw [Bool.eq_false_iff, ne_eq, h.once]
  exact fun hclose => hnever hclose.mem

/-- The first Close, in time. -/
theorem Lived.close_open (h : Lived ks s out) (callbacks : StreamCallbacks)
    (hst : s.state = .opened ∨ s.state = .halfClosedRemote) :
    ∃ s' ev, s.closeCall callbacks = some (s', ev) ∧
      Lived (ks ++ [StreamCall.close]) s' (out ++ ev) := by
  have hlive : ¬s.state.Terminal := by
    obtain hst | hst := hst <;> simp [hst, StreamState.Terminal]
  have honce := h.once_of_open hst
  have htokens := h.tokens
  have hlocal := h.localCloses
  rw [honce] at htokens hlocal
  refine ⟨_, _, closeCall_open hst honce (h.finCh.trans honce), ?_⟩
  exact
    { state := h.state.step .close
      closedCh := by
        have hopen : s.closedCh = false := by rwa [Bool.eq_false_iff, ne_eq, h.closedCh]
        obtain hst | hst := hst <;> simp [hst, hopen, lifecycle, StreamState.Terminal]
      finCh := rfl
      once := by simp [closeInTime_concat, (h.state.live hlive).1]
      resetOnce := by
        rw [h.resetOnce]
        obtain hst | hst := hst <;> simp [hst, lifecycle]
      tokens := by
        rw [List.count_append, htokens]
        split <;> rfl
      localCloses := by
        rw [List.countP_append, Nat.le_zero.mp hlocal]
        split <;> simp [StreamEvent.isLocalClose]
      resets := by
        rw [List.countP_append]
        refine Nat.le_trans (Nat.le_of_eq ?_) h.resets
        split <;> rfl }

/-- Once the local side is closed, or the stream has ended, another Close changes nothing. -/
theorem Lived.closeInTime_iff (h : Lived ks s out)
    (hst : ¬(s.state = .opened ∨ s.state = .halfClosedRemote)) :
    CloseInTime (ks ++ [StreamCall.close]) ↔ CloseInTime ks := by
  rw [closeInTime_concat, or_iff_left_iff_imp]
  rintro ⟨-, hno⟩
  have htells := h.state
  cases hs : s.state with
  | idle =>
    rw [hs] at htells
    exact htells.elim
  | opened => exact absurd (.inl hs) hst
  | halfClosedRemote => exact absurd (.inr hs) hst
  | halfClosedLocal =>
    rw [hs] at htells
    exact closeInTime_of_mem hno htells.1
  | closed =>
    rw [hs] at htells
    exact ClosedInTime.closeInTime htells
  | reset =>
    rw [hs] at htells
    exact absurd hno (ResetInTime.not_noReset htells)

/-- A Close. -/
theorem Lived.close (h : Lived ks s out) (callbacks : StreamCallbacks) :
    ∃ s' ev, s.closeCall callbacks = some (s', ev) ∧
      Lived (ks ++ [StreamCall.close]) s' (out ++ ev) := by
  by_cases hst : s.state = .opened ∨ s.state = .halfClosedRemote
  · exact h.close_open callbacks hst
  · obtain ⟨hcall, hsame⟩ := closeCall_other callbacks hst
    exact ⟨s, [], hcall,
      h.quiet (h.closeInTime_iff hst) hsame.symm h.closedCh rfl rfl rfl (by rw [hsame])⟩

/-- The peer's FIN. -/
theorem Lived.remoteClose (h : Lived ks s out) :
    Lived (ks ++ [StreamCall.remoteClose]) s.remoteClose (out ++ []) := by
  rw [remoteClose_eq]
  refine h.quiet (by simp [closeInTime_concat]) rfl ?_ rfl rfl rfl ?_
  · have hclosedCh := h.closedCh
    cases hs : s.state <;> simp_all [lifecycle, StreamState.Terminal]
  · cases s.state <;> simp [lifecycle]

/-- A Reset. -/
theorem Lived.reset (h : Lived ks s out) (code : ℕ) :
    Lived (ks ++ [StreamCall.reset code]) (s.resetCall callbacks code).1
      (out ++ (s.resetCall callbacks code).2) := by
  have hk : CloseInTime (ks ++ [StreamCall.reset code]) ↔ CloseInTime ks := by
    simp [closeInTime_concat]
  by_cases hst : s.state.Terminal
  · rw [resetCall_terminal hst]
    have hsame : lifecycle s.state (.reset code) = s.state := by
      obtain hst | hst := hst <;> rw [hst] <;> rfl
    exact h.quiet hk hsame.symm h.closedCh rfl rfl rfl (by rw [hsame])
  · have honce : s.resetOnce = false := by
      rw [Bool.eq_false_iff, ne_eq, h.resetOnce]
      exact fun hreset => hst (.inr hreset)
    have hresets := h.resets
    rw [honce] at hresets
    rw [resetCall_live hst honce]
    exact
      { state := by
          have hreset : lifecycle s.state (.reset code) = .reset := by
            cases hs : s.state <;> first | rfl | exact absurd (.inl hs) hst
          exact hreset ▸ h.state.step (.reset code)
        closedCh := by simp [StreamState.Terminal]
        finCh := h.finCh
        once := by rw [hk]; exact h.once
        resetOnce := by simp
        tokens := by
          rw [List.count_append, h.tokens]
          split <;> rfl
        localCloses := by
          rw [List.countP_append]
          refine Nat.le_trans (Nat.le_of_eq ?_) h.localCloses
          split <;> rfl
        resets := by
          rw [List.countP_append, Nat.le_zero.mp hresets]
          split <;> simp [StreamEvent.isReset] }

/-- A payload. -/
theorem Lived.deliver (h : Lived ks s out) (data : Bytes) :
    Lived (ks ++ [StreamCall.deliver data]) (s.deliver data) (out ++ []) := by
  have hsame : lifecycle s.state (.deliver data) = s.state := by cases s.state <;> rfl
  exact h.quiet (by simp [closeInTime_concat]) hsame.symm h.closedCh rfl rfl rfl (by rw [hsame])

/-- Every call returns and keeps the invariant. -/
theorem Lived.call (h : Lived ks s out) (callbacks : StreamCallbacks) (k : StreamCall) :
    ∃ s' ev, s.call callbacks k = some (s', ev) ∧ Lived (ks ++ [k]) s' (out ++ ev) := by
  cases k with
  | close => exact h.close callbacks
  | remoteClose => exact ⟨_, _, rfl, h.remoteClose⟩
  | reset code => exact ⟨_, _, rfl, h.reset code⟩
  | deliver data => exact ⟨_, _, rfl, h.deliver data⟩

/-- Every sequence of calls runs to its end. -/
theorem lived (callbacks : StreamCallbacks) (id : ℕ) (window : ℤ) (ks : List StreamCall) :
    ∃ s, exec (StreamSession.step callbacks) (newStreamSession id window).opened ks = some s ∧
      Lived ks s (outputs (StreamSession.step callbacks) (StreamSession.events callbacks)
        (newStreamSession id window).opened ks) := by
  refine exec_total (fun ks s => Lived ks s (outputs (StreamSession.step callbacks)
    (StreamSession.events callbacks) (newStreamSession id window).opened ks)) ?_ ?_ ks
  · exact
      { state := by simp [StreamSession.opened, Tells, NoReset]
        closedCh := by simp [newStreamSession, StreamSession.opened, StreamState.Terminal]
        finCh := rfl
        once := by simp [newStreamSession, StreamSession.opened, CloseInTime]
        resetOnce := by simp [newStreamSession, StreamSession.opened]
        tokens := rfl
        localCloses := Nat.le_refl 0
        resets := Nat.le_refl 0 }
  · intro ks k s hexec hlived
    obtain ⟨s', ev, hcall, hlived'⟩ := hlived.call callbacks k
    have hstep : s.step callbacks k = some s' := by rw [StreamSession.step, hcall]; rfl
    have hev : s.events callbacks k s' = ev := by rw [StreamSession.events, hcall]; rfl
    refine ⟨s', hstep, ?_⟩
    rw [outputs_concat hexec hstep, hev]
    exact hlived'

/-- A stream's state is the one its calls tell. -/
theorem Lived.state_iff (h : Lived ks s out) (st : StreamState) : s.state = st ↔ Tells ks st := by
  constructor
  · rintro rfl
    exact h.state
  · exact h.state.unique

/-- The life of a stream after its Open, over every sequence of Close, RemoteClose, Reset and
Deliver calls. It runs to its end, so no Close blocks on `finCh`.
SOURCE: stream_impl.go:148-262 -/
theorem stream_lifecycle (callbacks : StreamCallbacks) (id : ℕ) (window : ℤ)
    (ks : List StreamCall) :
    ∃ s out, exec (StreamSession.step callbacks) (newStreamSession id window).opened ks = some s ∧
      out = outputs (StreamSession.step callbacks) (StreamSession.events callbacks)
        (newStreamSession id window).opened ks ∧
      -- which state
      (s.state = .reset ↔ ∃ pre code post, ks = pre ++ .reset code :: post ∧
        ¬(.close ∈ pre ∧ .remoteClose ∈ pre)) ∧
      (s.state = .closed ↔ ∃ pre post, ks = pre ++ post ∧ .close ∈ pre ∧ .remoteClose ∈ pre ∧
        ∀ code, .reset code ∉ pre) ∧
      (s.state = .halfClosedLocal ↔ .close ∈ ks ∧ .remoteClose ∉ ks ∧ ∀ code, .reset code ∉ ks) ∧
      (s.state = .halfClosedRemote ↔ .remoteClose ∈ ks ∧ .close ∉ ks ∧ ∀ code, .reset code ∉ ks) ∧
      -- Closed and Reset are final
      (s.state.Terminal → ∀ ks', ∃ s', exec (StreamSession.step callbacks) s ks' = some s' ∧
        s'.state = s.state) ∧
      (s.closedCh = true ↔ s.state.Terminal) ∧
      -- the token and the callbacks
      out.count .fin ≤ 1 ∧
      (out.count .fin = 1 ↔ ∃ pre post, ks = pre ++ .close :: post ∧ ∀ code, .reset code ∉ pre) ∧
      out.countP StreamEvent.isLocalClose ≤ 1 ∧ out.countP StreamEvent.isReset ≤ 1 ∧
      (∀ e ∈ out, e.isReset = true → s.state = .reset) := by
  obtain ⟨s, hexec, h⟩ := lived callbacks id window ks
  refine ⟨s, _, hexec, rfl, h.state_iff _, h.state_iff _, h.state_iff _, h.state_iff _, ?_,
    h.closedCh, ?_, ?_, ?_, ?_, ?_⟩
  · intro hterm ks'
    obtain ⟨s', hexec', h'⟩ := lived callbacks id window (ks ++ ks')
    rw [exec_append, hexec] at hexec'
    exact ⟨s', hexec', (h'.state_iff s.state).mpr (h.state.terminal hterm ks')⟩
  · rw [h.tokens]
    exact Bool.toNat_le _
  · rw [h.tokens, Bool.toNat_eq_one]
    exact h.once
  · exact Nat.le_trans h.localCloses (Bool.toNat_le _)
  · exact Nat.le_trans h.resets (Bool.toNat_le _)
  · intro e he hreset
    have hpos := List.countP_pos_iff.mpr ⟨e, he, hreset⟩
    have hone := Nat.lt_of_lt_of_le hpos h.resets
    cases honce : s.resetOnce with
    | false =>
      rw [honce] at hone
      exact absurd hone (Nat.lt_irrefl 0)
    | true => exact h.resetOnce.mp honce

end Calls

/-! ## The calls in a session -/

section Sessions

variable {callbacks : StreamCallbacks} {s : Session} {r : Ref}

/-- In a session a whole Close is its section and, if it has a token to send, the step that sends
it. -/
theorem closeCall_steps (hr : r < s.nextRef ∧ (s.cells r).handle = true) {stream : StreamSession}
    {ev : List StreamEvent} (h : (s.cells r).stream.closeCall callbacks = some (stream, ev)) :
    ∃ s₁, s.step (.call r .close) = some s₁ ∧
      (ev = [] ∧ (s₁.cells r).stream = stream ∨
        ∃ s₂, s₁.step (.callback r .closeFin) = some s₂ ∧ (s₂.cells r).stream = stream) := by
  have hstep : s.step (.call r .close) = some (s.setCell r (s.cells r).close) := by
    rw [Session.step, if_pos hr]
    rfl
  refine ⟨_, hstep, ?_⟩
  rw [StreamSession.closeCall] at h
  split at h
  · next stream' hclose =>
    cases h
    exact .inl ⟨rfl, by simp [Cell.close, hclose]⟩
  · next stream' hclose =>
    rw [Option.ite_none_left_eq_some] at h
    obtain ⟨hfin, h⟩ := h
    cases h
    have hpc : ((s.setCell r (s.cells r).close).cells r).closePc = .fin ∧
        ((s.setCell r (s.cells r).close).cells r).stream.finCh = false := by
      simp [Cell.close, hclose, hfin]
    exact .inr ⟨_, (if_pos hr.1).trans (if_pos hpc), by simp [Cell.close, hclose]⟩

/-- In a session a Reset is one section. -/
theorem resetCall_steps (hr : r < s.nextRef ∧ (s.cells r).handle = true) (code : ℕ) :
    ∃ s₁, s.step (.call r (.reset code)) = some s₁ ∧
      (s₁.cells r).stream = ((s.cells r).stream.resetCall callbacks code).1 := by
  refine ⟨s.setCell r ((s.cells r).reset code false), ?_, ?_⟩
  · rw [Session.step, if_pos hr]
    rfl
  · rw [StreamSession.resetCall]
    split <;> next hreset => simp [Cell.reset, hreset]

end Sessions

end Atlax.Analysis
