import Atlax.Library.Run
import Atlax.Model.FlowWindow
import Atlax.Model.Session
import Mathlib.Algebra.BigOperators.Group.List.Basic
import Mathlib.Algebra.Ring.Int.Defs

/-!
# The balance of a flow-control window

Only a successful Consume, a successful Update and a Reset change a window, and each changes it by
an amount that int32 can hold: a Consume takes no more than there is, an Update adds no more than
fits. So along every interleaving the window is what it started from, plus the updates, minus the
consumes since the last Reset, and it never leaves the range from zero to 2^31 - 1. Calls that wait,
wake up or give up leave no trace.
-/

set_option autoImplicit false

namespace Atlax.Analysis

open Atlax.Model Atlax.Library

/-! ## One section -/

variable {w : FlowWindow} {n k : Int32}

/-- The sum in int64 is exact. -/
theorem toInt_newSize (w : FlowWindow) (k : Int32) :
    (w.available.toInt64 + k.toInt64).toInt = w.available.toInt + k.toInt := by
  have ha := w.available.toInt_lt
  have ha' := w.available.le_toInt
  have hk := k.toInt_lt
  have hk' := k.le_toInt
  rw [Int64.toInt_add, Int32.toInt_toInt64, Int32.toInt_toInt64]
  exact Int.bmod_eq_of_le_mul_two (by omega) (by omega)

theorem update_error_iff :
    (∃ e, (w.update k).1 = .error e) ↔
      k.toInt ≤ 0 ∨ w.available.toInt + k.toInt > 2 ^ 31 - 1 := by
  have hle : k ≤ 0 ↔ k.toInt ≤ 0 := Int32.le_iff_toInt_le
  have hgt : w.available.toInt64 + k.toInt64 > Int32.maxValue.toInt64 ↔
      w.available.toInt + k.toInt > 2 ^ 31 - 1 := by
    rw [gt_iff_lt, Int64.lt_iff_toInt_lt, toInt_newSize]
    rfl
  unfold FlowWindow.update
  rw [← hle, ← hgt]
  split
  · next h => exact ⟨fun _ => .inl h, fun _ => ⟨_, rfl⟩⟩
  · next h =>
    dsimp only
    split
    · next h' => exact ⟨fun _ => .inr h', fun _ => ⟨_, rfl⟩⟩
    · next h' =>
      constructor
      · rintro ⟨e, he⟩
        cases he
      · intro hor
        exact absurd hor (not_or.mpr ⟨h, h'⟩)

/-- An Update that succeeds adds its increment. -/
theorem update_ok (h : (w.update k).1 = .ok ()) :
    (w.update k).2.available.toInt = w.available.toInt + k.toInt ∧ 0 < k.toInt ∧
      w.available.toInt + k.toInt ≤ 2 ^ 31 - 1 ∧ (w.update k).2.initialSize = w.initialSize := by
  have hno : ¬ (k.toInt ≤ 0 ∨ w.available.toInt + k.toInt > 2 ^ 31 - 1) := by
    rw [← update_error_iff, h]
    simp
  have hav := w.available.le_toInt
  have hpos : ¬ k ≤ 0 := fun hle => hno (.inl (Int32.le_iff_toInt_le.mp hle))
  have hfit : ¬ w.available.toInt64 + k.toInt64 > Int32.maxValue.toInt64 := by
    intro hgt
    apply hno
    right
    rw [gt_iff_lt, Int64.lt_iff_toInt_lt, toInt_newSize] at hgt
    exact hgt
  have hafter : (w.update k).2 =
      { w with available := (w.available.toInt64 + k.toInt64).toInt32 } := by
    unfold FlowWindow.update
    rw [if_neg hpos]
    dsimp only
    rw [if_neg hfit]
  rw [hafter]
  refine ⟨?_, by omega, by omega, rfl⟩
  show ((w.available.toInt64 + k.toInt64).toInt32).toInt = _
  rw [Int64.toInt_toInt32, toInt_newSize]
  exact Int.bmod_eq_of_le_mul_two (by omega) (by omega)

/-- A refused update changes nothing. -/
theorem update_error {e : WindowError} (h : (w.update k).1 = .error e) : (w.update k).2 = w := by
  unfold FlowWindow.update at h ⊢
  split
  · rfl
  · next hpos =>
    rw [if_neg hpos] at h
    dsimp only at h ⊢
    split
    · rfl
    · next hfit =>
      rw [if_neg hfit] at h
      cases h

/-- A Consume that succeeds finds what it takes. -/
theorem consume_taken {ctx : Option ContextError} (h0 : 0 ≤ n.toInt)
    (h : (w.consume n ctx).1 = .taken) :
    (w.consume n ctx).2.available.toInt = w.available.toInt - n.toInt ∧
      n.toInt ≤ w.available.toInt ∧ (w.consume n ctx).2.initialSize = w.initialSize := by
  unfold FlowWindow.consume at h ⊢
  by_cases hlt : w.available < n
  · rw [if_pos hlt] at h
    cases ctx <;> cases h
  · rw [if_neg hlt]
    rw [Int32.lt_iff_toInt_lt] at hlt
    have hav := w.available.toInt_lt
    refine ⟨?_, by omega, rfl⟩
    show (w.available - n).toInt = _
    rw [Int32.toInt_sub]
    exact Int.bmod_eq_of_le_mul_two (by omega) (by omega)

/-- A turn that does not take changes nothing. -/
theorem consume_not_taken {ctx : Option ContextError} (h : (w.consume n ctx).1 ≠ .taken) :
    (w.consume n ctx).2 = w := by
  unfold FlowWindow.consume at h ⊢
  split
  · cases ctx <;> rfl
  · next hlt =>
    rw [if_neg hlt] at h
    exact absurd rfl h

/-- The window that a session counts in integers is this one. -/
theorem flowWindowUpdate_eq (w : FlowWindow) (k : Int32) :
    flowWindowUpdate w.available.toInt k.toInt = (w.update k).2.available.toInt := by
  unfold flowWindowUpdate maxWindowSize
  cases h : (w.update k).1 with
  | ok _ =>
    obtain ⟨hav, hpos, hfit, -⟩ := update_ok h
    rw [if_neg (by omega), if_neg (by omega), hav]
  | error e =>
    rw [update_error h]
    obtain hle | hgt := update_error_iff.mp ⟨e, h⟩
    · rw [if_pos hle]
    · split
      · rfl
      · rfl

/-! ## What a run has done to a window -/

/-- The calls that change a window. -/
inductive WindowEvent
  | updated (k : Int32)
  | consumed (n : Int32)
  | reset
  deriving DecidableEq

def WindowEvent.delta : WindowEvent → ℤ
  | .updated k => k.toInt
  | .consumed n => -n.toInt
  | .reset => 0

/-- The call that succeeds with the step, if one does. -/
def windowEvent (s : WindowState) (a : WindowAction) (s' : WindowState) : List WindowEvent :=
  match a with
  | .turn i =>
    match s'.calls[i]? with
    | some c => if c.pc = .returned (.ok ()) then [.consumed c.n] else []
    | none => []
  | .update k => if (s.window.update k).1 = .ok () then [.updated k] else []
  | .reset => [.reset]
  | .call _ | .ctxDone _ _ | .notify _ => []

/-- A window of the given size with no call on it. -/
def startWindow (initial : Int32) : WindowState := { window := newFlowWindow initial }

/-- The calls that have succeeded along a run, in order. -/
def windowEvents (initial : Int32) (as : List WindowAction) : List WindowEvent :=
  outputs WindowState.step windowEvent (startWindow initial) as

/-- Those after the last Reset, latest first. -/
def sinceReset (es : List WindowEvent) : List WindowEvent := es.reverse.takeWhile (· ≠ .reset)

/-- No Consume asks for a negative amount. -/
def NonNegative (_ : WindowState) : WindowAction → Prop
  | .call n => 0 ≤ n
  | _ => True

instance (s : WindowState) (a : WindowAction) : Decidable (NonNegative s a) := by
  unfold NonNegative
  split <;> infer_instance

/-- What a step does to the window. -/
inductive WindowMove (s : WindowState) (a : WindowAction) (s' : WindowState) : Prop
  | same (hw : s'.window = s.window) (he : windowEvent s a s' = [])
  | consumed (i : ℕ) (c : ConsumeCall) (ha : a = .turn i) (hc : s.calls[i]? = some c)
      (hret : s.returns a s' = some (.ok ())) (htaken : (s.window.consume c.n c.ctx).1 = .taken)
      (hw : s'.window = (s.window.consume c.n c.ctx).2) (he : windowEvent s a s' = [.consumed c.n])
  | updated (k : Int32) (ha : a = .update k) (hok : (s.window.update k).1 = .ok ())
      (hw : s'.window = (s.window.update k).2) (he : windowEvent s a s' = [.updated k])
  | reset (ha : a = .reset) (hw : s'.window = s.window.reset) (he : windowEvent s a s' = [.reset])

variable {s s' : WindowState} {a : WindowAction} {i : ℕ}

theorem turn_inv (h : s.step (.turn i) = some s') :
    ∃ c, s.calls[i]? = some c ∧ s' = ⟨(s.window.consume c.n c.ctx).2,
      s.calls.set i (WindowState.afterTurn c (s.window.consume c.n c.ctx).1)⟩ := by
  simp only [WindowState.step, Option.bind_eq_bind, Option.bind_eq_some_iff,
    Option.ite_none_right_eq_some, Option.some.injEq] at h
  obtain ⟨c, hc, -, rfl⟩ := h
  exact ⟨c, hc, rfl⟩

theorem ctxDone_inv {err : ContextError} (h : s.step (.ctxDone i err) = some s') :
    ∃ c, s.calls[i]? = some c ∧
      s' = { s with calls := s.calls.set i { c with ctx := some err } } := by
  simp only [WindowState.step, Option.bind_eq_bind, Option.bind_eq_some_iff,
    Option.ite_none_right_eq_some, Option.some.injEq] at h
  obtain ⟨c, hc, -, rfl⟩ := h
  exact ⟨c, hc, rfl⟩

theorem notify_inv (h : s.step (.notify i) = some s') : s' = s.broadcast := by
  simp only [WindowState.step, Option.bind_eq_bind, Option.bind_eq_some_iff,
    Option.ite_none_right_eq_some, Option.some.injEq] at h
  obtain ⟨c, -, -, rfl⟩ := h
  rfl

/-- Every step is one of these moves. -/
theorem window_move (h : s.step a = some s') : WindowMove s a s' := by
  cases a with
  | call n =>
    cases h
    exact .same rfl rfl
  | turn i =>
    obtain ⟨c, hc, rfl⟩ := turn_inv h
    have hi := (List.getElem?_eq_some_iff.mp hc).1
    by_cases ht : (s.window.consume c.n c.ctx).1 = .taken
    · exact .consumed i c rfl hc
        (by simp [WindowState.returns, WindowState.afterTurn, ConsumePc.result, ht, hi]) ht rfl
        (by simp [windowEvent, WindowState.afterTurn, ht, hi])
    · refine .same (consume_not_taken ht) ?_
      cases hturn : (s.window.consume c.n c.ctx).1 with
      | taken => exact absurd hturn ht
      | failed err | wait => simp [windowEvent, WindowState.afterTurn, hi]
  | ctxDone i err =>
    obtain ⟨c, -, rfl⟩ := ctxDone_inv h
    exact .same rfl rfl
  | notify i =>
    rw [notify_inv h]
    exact .same rfl rfl
  | update k =>
    simp only [WindowState.step] at h
    split at h <;> cases h
    · next hu => exact .updated k rfl (by rw [hu]) (by rw [hu]; rfl) (by simp [windowEvent, hu])
    · next e w hu =>
      have hw : w = s.window := by
        have herr := update_error (w := s.window) (k := k) (e := e) (by rw [hu])
        rwa [hu] at herr
      exact .same hw (by simp [windowEvent, hu])
  | reset =>
    cases h
    exact .reset rfl rfl rfl

theorem wake_n (c : ConsumeCall) : c.wake.n = c.n := by
  unfold ConsumeCall.wake
  split <;> rfl

/-- The calls on a window ask for what they were made with. -/
theorem nonNegative_step (hs : ∀ c ∈ s.calls, 0 ≤ c.n.toInt) (hok : NonNegative s a)
    (h : s.step a = some s') : ∀ c ∈ s'.calls, 0 ≤ c.n.toInt := by
  have hwake : ∀ c ∈ s.calls.map ConsumeCall.wake, 0 ≤ c.n.toInt := by
    intro c hc
    obtain ⟨c₀, hc₀, rfl⟩ := List.mem_map.mp hc
    rw [wake_n]
    exact hs c₀ hc₀
  have hset : ∀ i c₀ c, s.calls[i]? = some c₀ → c.n = c₀.n →
      ∀ c' ∈ s.calls.set i c, 0 ≤ c'.n.toInt := by
    intro i c₀ c hc₀ hn c' hc'
    obtain hmem | rfl := List.mem_or_eq_of_mem_set hc'
    · exact hs c' hmem
    · rw [hn]
      exact hs c₀ (List.mem_of_getElem? hc₀)
  cases a with
  | call n =>
    cases h
    intro c hc
    obtain hmem | hmem := List.mem_append.mp hc
    · exact hs c hmem
    · rw [List.mem_singleton.mp hmem]
      exact Int32.le_iff_toInt_le.mp hok
  | turn i =>
    obtain ⟨c, hc, rfl⟩ := turn_inv h
    exact hset i c _ hc (by cases (s.window.consume c.n c.ctx).1 <;> rfl)
  | ctxDone i err =>
    obtain ⟨c, hc, rfl⟩ := ctxDone_inv h
    exact hset i c _ hc rfl
  | notify i =>
    rw [notify_inv h]
    exact hwake
  | update k =>
    simp only [WindowState.step] at h
    split at h <;> cases h
    · exact hwake
    · exact hs
  | reset =>
    cases h
    exact hwake

/-- What holds along a run that has seen the events `es`. -/
structure Balanced (initial : Int32) (es : List WindowEvent) (s : WindowState) : Prop where
  calls : ∀ c ∈ s.calls, 0 ≤ c.n.toInt
  initialSize : s.window.initialSize = initial
  nonneg : 0 ≤ s.window.available.toInt
  balance : s.window.available.toInt =
    initial.toInt + ((sinceReset es).map WindowEvent.delta).sum

theorem sinceReset_concat (es : List WindowEvent) (e : WindowEvent) :
    sinceReset (es ++ [e]) = if e = .reset then [] else e :: sinceReset es := by
  unfold sinceReset
  rw [List.reverse_append, List.reverse_singleton, List.singleton_append, List.takeWhile_cons]
  by_cases he : e = .reset <;> simp [he]

/-- One step keeps the balance. -/
theorem balanced_step {initial : Int32} {es : List WindowEvent} (h0 : 0 ≤ initial)
    (hb : Balanced initial es s) (hok : NonNegative s a) (h : s.step a = some s') :
    Balanced initial (es ++ windowEvent s a s') s' := by
  have hcalls := nonNegative_step hb.calls hok h
  obtain ⟨hw, he⟩ | ⟨i, c, -, hc, -, ht, hw, he⟩ | ⟨k, -, hu, hw, he⟩ | ⟨-, hw, he⟩ := window_move h
  · rw [he, List.append_nil]
    exact ⟨hcalls, hw ▸ hb.initialSize, hw ▸ hb.nonneg, hw ▸ hb.balance⟩
  · obtain ⟨hav, hle, hinit⟩ := consume_taken (hb.calls c (List.mem_of_getElem? hc)) ht
    rw [← hw] at hav hinit
    refine ⟨hcalls, hinit.trans hb.initialSize, by omega, ?_⟩
    rw [he, sinceReset_concat, if_neg (by simp), List.map_cons, List.sum_cons, hav, hb.balance]
    show _ = initial.toInt + (-c.n.toInt + _)
    omega
  · obtain ⟨hav, hpos, -, hinit⟩ := update_ok hu
    rw [← hw] at hav hinit
    have hnonneg := hb.nonneg
    refine ⟨hcalls, hinit.trans hb.initialSize, by omega, ?_⟩
    rw [he, sinceReset_concat, if_neg (by simp), List.map_cons, List.sum_cons, hav, hb.balance]
    show _ = initial.toInt + (k.toInt + _)
    omega
  · have hinit : s'.window.available = initial := by
      rw [hw, ← hb.initialSize]
      rfl
    refine ⟨hcalls, by rw [hw]; exact hb.initialSize, ?_, ?_⟩
    · rw [hinit]
      exact Int32.le_iff_toInt_le.mp h0
    · rw [he, sinceReset_concat, if_pos rfl, hinit]
      simp

/-- Every run keeps the balance. -/
theorem balanced_run {initial : Int32} (h0 : 0 ≤ initial) {as : List WindowAction}
    (hrun : exec (guarded WindowState.step NonNegative) (startWindow initial) as = some s) :
    Balanced initial (windowEvents initial as) s := by
  have hstart : Balanced initial [] (startWindow initial) := by
    refine ⟨by simp [startWindow], rfl, Int32.le_iff_toInt_le.mp h0, ?_⟩
    simp [sinceReset, startWindow, newFlowWindow]
  refine (exec_invariant (fun as s => Balanced initial (windowEvents initial as) s) hrun hstart
    ?_).2
  intro as a s s' hexec hb hok hstep
  rw [windowEvents, outputs_concat hexec hstep]
  exact balanced_step h0 hb hok hstep

/-- Along every interleaving of Consume, Update and Reset calls the window stays between 0 and
2^31 - 1 and is the initial size plus the updates minus the consumes since the last Reset that have
succeeded; a call that returns an error leaves it as it is, and Update returns one exactly for an
increment that is not positive or does not fit.
SOURCE: window.go:22-96 -/
theorem flowWindow_conserved {initial : Int32} (h0 : 0 ≤ initial) {as : List WindowAction}
    (hrun : exec (guarded WindowState.step NonNegative) (startWindow initial) as = some s) :
    (0 ≤ s.window.available.toInt ∧ s.window.available.toInt ≤ 2 ^ 31 - 1) ∧
    s.window.available.toInt =
      initial.toInt + ((sinceReset (windowEvents initial as)).map WindowEvent.delta).sum ∧
    (∀ a s' e, s.step a = some s' → s.returns a s' = some (.error e) →
      s'.window.available = s.window.available) ∧
    ∀ k s', (∃ e, s.returns (.update k) s' = some (.error e)) ↔
      k.toInt ≤ 0 ∨ s.window.available.toInt + k.toInt > 2 ^ 31 - 1 := by
  have hb := balanced_run h0 hrun
  have hlt := s.window.available.toInt_lt
  refine ⟨⟨hb.nonneg, by omega⟩, hb.balance, ?_, ?_⟩
  · intro a s' e hstep hret
    obtain ⟨hw, -⟩ | ⟨i, c, rfl, -, hok, -, -, -⟩ | ⟨k, rfl, hu, -, -⟩ | ⟨rfl, -, -⟩ :=
      window_move hstep
    · rw [hw]
    · cases hok.symm.trans hret
    · simp [WindowState.returns, hu] at hret
    · cases hret
  · intro k s'
    rw [← update_error_iff]
    simp only [WindowState.returns, Option.some.injEq]

/-- Three Consume calls on a window of 100 bytes: the first finds its 70, the second waits for an
Update, the third is cancelled while it waits. -/
def waitedRun : List WindowAction :=
  [.call 70, .turn 0, .call 50, .turn 1, .update 40, .turn 1, .call 500, .turn 2,
    .ctxDone 2 .canceled, .notify 2, .turn 2]

theorem flowWindow_conserved_waitedRun :
    ∃ s, exec (guarded WindowState.step NonNegative) (startWindow 100) waitedRun = some s ∧
      s.calls.map (·.pc) = [.returned (.ok ()), .returned (.ok ()),
        .returned (.error (.consume .canceled))] ∧
      s.window.available.toInt = 20 ∧
      s.window.available.toInt =
        100 + ((sinceReset (windowEvents 100 waitedRun)).map WindowEvent.delta).sum ∧
      ∀ k s', (∃ e, s.returns (.update k) s' = some (.error e)) ↔
        k.toInt ≤ 0 ∨ s.window.available.toInt + k.toInt > 2 ^ 31 - 1 := by
  obtain ⟨s, hrun, hcalls, hav⟩ := exists_some_of_any
    (fun s : WindowState => s.calls.map (·.pc) = [.returned (.ok ()), .returned (.ok ()),
      .returned (.error (.consume .canceled))] ∧ s.window.available.toInt = 20)
    (x := exec (guarded WindowState.step NonNegative) (startWindow 100) waitedRun)
    (by decide)
  have h0 : (0 : Int32) ≤ 100 := by decide
  have hall := flowWindow_conserved h0 hrun
  exact ⟨s, hrun, hcalls, hav, hall.2.1, hall.2.2.2⟩

end Atlax.Analysis
