import Atlax.Analysis.Decoding
import Atlax.Analysis.FlowWindows
import Atlax.Analysis.FreeIDs
import Atlax.Analysis.Limits

/-!
# The receive window of a stream

A session keeps two kinds of windows. The connection's goes through `FlowWindow.Update`. A stream's
`recvWindow` is a plain number: Deliver subtracts what arrives, and `handleWindowUpdate` adds the
increment of a WINDOW_UPDATE after it has been read as an int32. Neither looks at the result. The
two rules agree as long as the peer keeps to the window: it sends no more than the window and no
increment that takes it beyond 2^31 - 1. Outside that they differ on every frame.
-/

set_option autoImplicit false

namespace Atlax.Analysis

open Atlax.Model Atlax.Library

/-! ## One increment -/

/-- The rule of the protocol on the increment as it is sent, a uint32.
SOURCE: docs/protocol/flow-control.md:61-80 -/
def windowRule (window : ℤ) (increment : ℕ) : ℤ :=
  if 0 < increment ∧ window + increment ≤ maxWindowSize then window + increment else window

theorem toInt32_small {n : ℕ} (h : n < 2 ^ 31) : toInt32 n = n := by
  unfold toInt32
  rw [if_pos (by omega)]
  omega

theorem toInt32_large {n : ℕ} (h : 2 ^ 31 ≤ n) (hn : n < 2 ^ 32) : toInt32 n = n - 2 ^ 32 := by
  unfold toInt32
  rw [if_neg (by omega)]
  omega

/-- `FlowWindow.Update` follows the rule: an increment that is negative as an int32 does not fit. -/
theorem flowWindowUpdate_toInt32 {window : ℤ} {increment : ℕ} (hw : 0 ≤ window)
    (hi : increment < 2 ^ 32) :
    flowWindowUpdate window (toInt32 increment) = windowRule window increment := by
  unfold flowWindowUpdate windowRule maxWindowSize
  obtain hsmall | hlarge := Nat.lt_or_ge increment (2 ^ 31)
  · rw [toInt32_small hsmall]
    by_cases hzero : (increment : ℤ) ≤ 0
    · rw [if_pos hzero, if_neg (by omega)]
    · rw [if_neg hzero]
      by_cases hfit : window + (increment : ℤ) ≤ 2 ^ 31 - 1
      · rw [if_neg (by omega), if_pos ⟨by omega, hfit⟩]
      · rw [if_pos (by omega), if_neg (by omega)]
  · rw [toInt32_large hlarge hi, if_pos (by omega), if_neg (by omega)]

/-- The raw addition follows it exactly when the increment fits. -/
theorem add_toInt32_eq_iff {window : ℤ} {increment : ℕ} (hw : 0 ≤ window)
    (hi : increment < 2 ^ 32) (hle : window ≤ maxWindowSize) :
    window + toInt32 increment = windowRule window increment ↔
      window + increment ≤ maxWindowSize := by
  unfold windowRule
  unfold maxWindowSize at hle ⊢
  obtain hsmall | hlarge := Nat.lt_or_ge increment (2 ^ 31)
  · rw [toInt32_small hsmall]
    split
    · next h => exact iff_of_true rfl h.2
    · next h => omega
  · rw [toInt32_large hlarge hi, if_neg (by omega)]
    omega

/-! ## Runs -/

/-- The peer keeps to the window of the stream that the read loop is about to change. -/
def KeepsWindow (s : Session) : Action → Prop
  | .reader =>
    match s.reader with
    | .deliver r p => (p.frame.payload.length : ℤ) ≤ (s.cells r).stream.recvWindow
    | .windowUpdate r p =>
      (s.cells r).stream.recvWindow + uint32 p.frame.payload ≤ maxWindowSize
    | _ => True
  | _ => True

instance (s : Session) (a : Action) : Decidable (KeepsWindow s a) := by
  unfold KeepsWindow
  induction a with
  | reader => induction s.reader <;> infer_instance
  | _ => infer_instance

variable {s s' : Session} {a : Action}

theorem recvWindow_reset (c : Cell) (code : ℕ) (byFrame : Bool) :
    (c.reset code byFrame).stream.recvWindow = c.stream.recvWindow := by
  unfold Cell.reset StreamSession.reset
  dsimp only
  split <;> rfl

theorem recvWindow_remoteClose (st : StreamSession) :
    st.remoteClose.recvWindow = st.recvWindow := by
  unfold StreamSession.remoteClose
  split <;> rfl

theorem recvWindow_call {c c' : Cell} {k : Call} (h : CellCall c k c') :
    c'.stream.recvWindow = c.stream.recvWindow := by
  cases h with
  | close =>
    unfold Cell.close StreamSession.close
    dsimp only
    split <;> rfl
  | reset code => exact recvWindow_reset c code false
  | _ => rfl

theorem recvWindow_drain {c c' : Cell} {b : Bool} {p : Option Packet} (h : CellDrain c b c' p) :
    c'.stream.recvWindow = c.stream.recvWindow := by
  cases h <;> rfl

/-- Two steps of the read loop change the window of a stream, and nothing else does. -/
theorem move_recvWindow (hm : Move s a s') {r : Ref} (hr : r < s.nextRef) :
    (s'.cells r).stream.recvWindow = (s.cells r).stream.recvWindow ∨
    (∃ p, a = .reader ∧ s.reader = .deliver r p ∧
      (s'.cells r).stream.recvWindow = (s.cells r).stream.recvWindow - p.frame.payload.length) ∨
    ∃ p, a = .reader ∧ s.reader = .windowUpdate r p ∧
      (s'.cells r).stream.recvWindow =
        (s.cells r).stream.recvWindow + toInt32 (uint32 p.frame.payload) := by
  have keep : ∀ {cells : Ref → Cell} {r₀ : Ref} {c : Cell},
      c.stream.recvWindow = (cells r₀).stream.recvWindow →
      (Function.update cells r₀ c r).stream.recvWindow = (cells r).stream.recvWindow :=
    fun h => update_field (fun c => c.stream.recvWindow) h r
  cases hm with
  | deliver r₀ p h =>
    by_cases hrr : r = r₀
    · subst hrr
      refine .inr (.inl ⟨p, rfl, h, ?_⟩)
      simp [StreamSession.deliver]
    · left
      simp [hrr]
  | windowUpdate r₀ p h =>
    by_cases hrr : r = r₀
    · subst hrr
      refine .inr (.inr ⟨p, rfl, h, ?_⟩)
      simp
    · left
      simp [hrr]
  | openAlloc | acceptInsert =>
    left
    simp [Nat.ne_of_lt hr]
  | call _ _ _ k c hc => exact .inl (keep (recvWindow_call hc))
  | drain _ _ d c hc | drainSend _ _ d c p hc => exact .inl (keep (recvWindow_drain hc))
  | remoteClose => exact .inl (keep (recvWindow_remoteClose _))
  | resetting => exact .inl (keep (recvWindow_reset _ _ _))
  | openReset =>
    left
    exact (keep (recvWindow_reset _ _ _)).trans (keep (by rfl))
  | closingStreams =>
    left
    simp only [Session.setClosing_cells, Session.resetStreams_cells]
    split
    · exact recvWindow_reset _ _ _
    · rfl
  | _ => first | exact .inl rfl | exact .inl (keep (by rfl))

theorem recvWindow_acceptedCell (s : Session) (p : Packet) :
    (s.acceptedCell p).stream.recvWindow = s.config.initialStreamWindow := by
  unfold Session.acceptedCell
  dsimp only
  split <;> rfl

/-- The window is in its range. -/
def InWindow (window : ℤ) : Prop := 0 ≤ window ∧ window ≤ maxWindowSize

theorem inWindow_move {r : Ref} (hr : r < s.nextRef)
    (hwin : InWindow (s.cells r).stream.recvWindow) (hok : KeepsWindow s a) (hm : Move s a s') :
    InWindow (s'.cells r).stream.recvWindow := by
  obtain h | ⟨p, rfl, hrd, h⟩ | ⟨p, rfl, hrd, h⟩ := move_recvWindow hm hr
  · rw [h]
    exact hwin
  · have hle : (p.frame.payload.length : ℤ) ≤ (s.cells r).stream.recvWindow := by
      simpa [KeepsWindow, hrd] using hok
    rw [h]
    unfold InWindow at hwin ⊢
    omega
  · have hle : (s.cells r).stream.recvWindow + uint32 p.frame.payload ≤ maxWindowSize := by
      simpa [KeepsWindow, hrd] using hok
    rw [h, (add_toInt32_eq_iff hwin.1 (uint32_lt _) hwin.2).mpr hle]
    unfold windowRule
    unfold InWindow at hwin ⊢
    split <;> omega

theorem inWindow_reach {role : Role} {config : MuxConfig}
    (hconf : InWindow config.initialStreamWindow) (h : SessionReach role config KeepsWindow s) :
    ∀ r < s.nextRef, InWindow (s.cells r).stream.recvWindow := by
  intro r hr
  apply cell_reach (fun c => InWindow c.stream.recvWindow) h ?_ ?_ ?_ hr
  · intro s payload hreach
    show InWindow s.config.initialStreamWindow
    rw [session_config hreach]
    exact hconf
  · intro s p hreach
    rw [recvWindow_acceptedCell, session_config hreach]
    exact hconf
  · intro s a s' _ hok hm hold hwin
    exact inWindow_move hold hwin hok hm

/-- With a peer that keeps to the window of each stream, every `recvWindow` stays between 0 and
2^31 - 1, and a WINDOW_UPDATE for a stream has the effect that `FlowWindow.Update` would have: it
is applied if the unsigned increment is positive and fits, and changes nothing otherwise.
SOURCE: mux_session.go:537-564, stream_impl.go:196-204, window.go:61-80 -/
theorem recvWindow_ruled {role : Role} {config : MuxConfig}
    (hconf : 0 ≤ config.initialStreamWindow ∧ config.initialStreamWindow ≤ maxWindowSize)
    (h : SessionReach role config KeepsWindow s) :
    (∀ r < s.nextRef, 0 ≤ (s.cells r).stream.recvWindow ∧
      (s.cells r).stream.recvWindow ≤ maxWindowSize) ∧
    ∀ r p s', s.reader = .windowUpdate r p → KeepsWindow s .reader → s.step .reader = some s' →
      (s'.cells r).stream.recvWindow =
        flowWindowUpdate (s.cells r).stream.recvWindow (toInt32 (uint32 p.frame.payload)) ∧
      (s'.cells r).stream.recvWindow =
        if 0 < uint32 p.frame.payload ∧
            (s.cells r).stream.recvWindow + uint32 p.frame.payload ≤ maxWindowSize then
          (s.cells r).stream.recvWindow + uint32 p.frame.payload
        else (s.cells r).stream.recvWindow := by
  have hwin := inWindow_reach hconf h
  refine ⟨hwin, ?_⟩
  intro r p s' hrd hok hstep
  have hr : r < s.nextRef := ((wellFormed_reach h).reader r p (by rw [hrd]; rfl)).1
  have hle : (s.cells r).stream.recvWindow + uint32 p.frame.payload ≤ maxWindowSize := by
    simpa [KeepsWindow, hrd] using hok
  have hsum : (s'.cells r).stream.recvWindow =
      (s.cells r).stream.recvWindow + toInt32 (uint32 p.frame.payload) := by
    simp only [Session.step, Session.readerStep, hrd, Option.some.injEq] at hstep
    rw [← hstep]
    simp
  rw [hsum, flowWindowUpdate_toInt32 (hwin r hr).1 (uint32_lt _)]
  have hrule := (add_toInt32_eq_iff (hwin r hr).1 (uint32_lt p.frame.payload) (hwin r hr).2).mpr hle
  exact ⟨hrule, hrule⟩

/-- A WINDOW_UPDATE for stream 2 with the given increment. -/
def windowUpdateFor (increment : Bytes) : Packet :=
  ⟨{ command := .windowUpdate, streamID := 2, payload := increment }, none⟩

/-- Five bytes of the peer on stream 2. -/
def fiveBytes : Packet :=
  ⟨{ command := .streamData, streamID := 2, payload := [1, 2, 3, 4, 5] }, none⟩

/-- The peer sends five bytes and is granted seven. -/
theorem recvWindow_ruled_granted :
    ∃ s s', SessionReach .relay ⟨4, 100, 65536⟩ KeepsWindow s ∧ s.step .reader = some s' ∧
      (s.cells 0).stream.recvWindow = 95 ∧ (s'.cells 0).stream.recvWindow = 102 ∧
      (s'.cells 0).stream.recvWindow = flowWindowUpdate 95 7 := by
  have hex : ∃ s s', SessionReach .relay ⟨4, 100, 65536⟩ KeepsWindow s ∧
      s.step .reader = some s' ∧ KeepsWindow s .reader ∧
      s.reader = .windowUpdate 0 (windowUpdateFor [0, 0, 0, 7]) ∧
      (s.cells 0).stream.recvWindow = 95 ∧ (s'.cells 0).stream.recvWindow = 102 :=
    exists_step_of_exec (peerOpenRun 2 ++ [Action.reader, .recv fiveBytes, .reader, .reader,
      .recv (windowUpdateFor [0, 0, 0, 7]), .reader]) .reader _ (by decide)
  obtain ⟨s, s', hs, hstep, hok, hrd, hbefore, hafter⟩ := hex
  have hruled := (recvWindow_ruled (by decide) hs).2 0 _ s' hrd hok hstep
  refine ⟨s, s', hs, hstep, hbefore, hafter, ?_⟩
  rw [hruled.1, hbefore]
  rfl

/-- Five bytes on a window of two leave it at -3. An increment of 2^31 is refused by
`FlowWindow.Update` and takes the stream's window to 262144 - 2^31; one of 2^31 - 1 is refused as
well and takes it beyond 2^31 - 1. -/
theorem recvWindow_unruled :
    (∃ s, SessionReach .relay ⟨4, 2, 65536⟩ anyStep s ∧
      (s.cells 0).stream.recvWindow = -3) ∧
    (∃ s, SessionReach .relay ⟨4, 262144, 65536⟩ anyStep s ∧
      (s.cells 0).stream.recvWindow = 262144 - 2 ^ 31 ∧
      flowWindowUpdate 262144 (toInt32 (2 ^ 31)) = 262144) ∧
    ∃ s, SessionReach .relay ⟨4, 262144, 65536⟩ anyStep s ∧
      (s.cells 0).stream.recvWindow = 262144 + (2 ^ 31 - 1) ∧
      flowWindowUpdate 262144 (toInt32 (2 ^ 31 - 1)) = 262144 := by
  refine ⟨?_, ?_, ?_⟩
  · exact exists_reach_of_exec (peerOpenRun 2 ++ [Action.reader, .recv fiveBytes, .reader,
      .reader]) _ (by decide)
  · exact exists_reach_of_exec (peerOpenRun 2 ++ [Action.reader,
      .recv (windowUpdateFor [0x80, 0, 0, 0]), .reader, .reader]) _ (by decide)
  · exact exists_reach_of_exec (peerOpenRun 2 ++ [Action.reader,
      .recv (windowUpdateFor [0x7f, 0xff, 0xff, 0xff]), .reader, .reader]) _ (by decide)

end Atlax.Analysis
