import Atlax.Library.Processes
import Atlax.Model.ClientListener

/-!
# The end of an accept loop

`StartPortWithListener` takes every error of `Accept` for a passing one unless its context is done.
Once its listener is closed and its context done, the loop has at most two steps left, and makes
them. `StopPort` and `Stop` close the listener through the table and leave the context alone: then
`Accept` fails at once, every time, and the loop goes round for as long as the relay runs.
-/

set_option autoImplicit false

namespace Atlax.Analysis

open Atlax.Model Atlax.Library

/-- The step is one of accept loop `i`. -/
def ofLoop (i : ℕ) : ListenerAction → Bool
  | .loop j _ => j == i
  | _ => false

/-- What a step does to accept loop `i`. -/
inductive LoopMove (i : ℕ) (l : AcceptLoop) : ListenerAction → AcceptLoop → Prop
  | same (a : ListenerAction) (ha : ofLoop i a = false) : LoopMove i l a l
  | conn (hopen : l.lnClosed = false) : LoopMove i l (.loop i .conn) l
  | error (hpc : l.pc = .accept) : LoopMove i l (.loop i .error) { l with pc := .failed }
  | select (hpc : l.pc = .failed) :
      LoopMove i l (.loop i .select) { l with pc := if l.ctxDone then .returned else .accept }
  | cancel : LoopMove i l (.cancel i) { l with ctxDone := true }
  | close (a : ListenerAction) (ha : ofLoop i a = false) (hne : a ≠ .cancel i) :
      LoopMove i l a { l with lnClosed := true }

variable {s s' : ClientListener} {a : ListenerAction} {i : ℕ} {l : AcceptLoop}

/-- Loop `j` is written: it is loop `i`, or loop `i` stays as it is. -/
theorem setLoop_move {j : ℕ} {l₁ l₁' : AcceptLoop} (hi : s.loops[i]? = some l)
    (hj : s.loops[j]? = some l₁) (hmove : j = i → LoopMove i l₁ a l₁')
    (hother : j ≠ i → ofLoop i a = false) :
    ∃ l', (s.setLoop j l₁').loops[i]? = some l' ∧ LoopMove i l a l' := by
  unfold ClientListener.setLoop
  by_cases hji : j = i
  · subst hji
    rw [hi] at hj
    cases hj
    exact ⟨l₁', List.getElem?_set_self (List.getElem?_eq_some_iff.mp hi).1, hmove rfl⟩
  · exact ⟨l, by rw [List.getElem?_set_ne hji, hi], .same a (hother hji)⟩

theorem closeLoops_move {which : ℕ → Bool} (hi : s.loops[i]? = some l) (ha : ofLoop i a = false)
    (hne : a ≠ .cancel i) :
    ∃ l', (s.closeLoops which)[i]? = some l' ∧ LoopMove i l a l' := by
  unfold ClientListener.closeLoops
  rw [List.getElem?_mapIdx, hi]
  cases which i with
  | true => exact ⟨_, rfl, .close a ha hne⟩
  | false => exact ⟨_, rfl, .same a ha⟩

theorem loop_move (hi : s.loops[i]? = some l) (h : s.step a = some s') :
    ∃ l', s'.loops[i]? = some l' ∧ LoopMove i l a l' := by
  have other {j : ℕ} {e : AcceptEvent} (hji : j ≠ i) : ofLoop i (.loop j e) = false :=
    beq_false_of_ne hji
  -- the steps of the router and of the copies concern no loop
  have keep (ha : ofLoop i a = false) (hloops : s'.loops = s.loops) :
      ∃ l', s'.loops[i]? = some l' ∧ LoopMove i l a l' :=
    ⟨l, by rw [hloops, hi], .same a ha⟩
  cases a with
  | start port =>
    cases h
    refine ⟨l, ?_, .same _ rfl⟩
    rw [List.getElem?_append_left (List.getElem?_eq_some_iff.mp hi).1, hi]
  | loop j e =>
    obtain ⟨l₁, hj, h⟩ := Option.bind_eq_some_iff.mp h
    cases e with
    | conn =>
      simp only [ClientListener.stepLoop, Option.ite_none_right_eq_some, Option.some.injEq] at h
      obtain ⟨⟨-, hopen⟩, rfl⟩ := h
      by_cases hji : j = i
      · subst hji
        rw [hi] at hj
        cases hj
        exact ⟨l, hi, .conn hopen⟩
      · exact ⟨l, hi, .same _ (other hji)⟩
    | error =>
      simp only [ClientListener.stepLoop, Option.ite_none_right_eq_some, Option.some.injEq] at h
      obtain ⟨hpc, rfl⟩ := h
      refine setLoop_move hi hj ?_ other
      rintro rfl
      exact .error hpc
    | select =>
      simp only [ClientListener.stepLoop, Option.ite_none_right_eq_some, Option.some.injEq] at h
      obtain ⟨hpc, rfl⟩ := h
      refine setLoop_move hi hj ?_ other
      rintro rfl
      exact .select hpc
  | cancel j =>
    obtain ⟨l₁, hj, rfl⟩ := Option.map_eq_some_iff.mp h
    refine setLoop_move hi hj ?_ fun _ => rfl
    rintro rfl
    exact .cancel
  | closeListener j =>
    obtain ⟨l₁, hj, h⟩ := Option.bind_eq_some_iff.mp h
    simp only [Option.ite_none_right_eq_some, Option.some.injEq] at h
    obtain ⟨-, rfl⟩ := h
    exact setLoop_move hi hj (fun _ => .close _ rfl nofun) fun _ => rfl
  | stopPort port =>
    cases h
    show ∃ l', (s.stopPort port).loops[i]? = some l' ∧ _
    unfold ClientListener.stopPort
    split
    · exact ⟨l, hi, .same _ rfl⟩
    · exact closeLoops_move hi rfl nofun
  | stop =>
    cases h
    exact closeLoops_move hi rfl nofun
  | relay b =>
    simp only [ClientListener.step, Option.ite_none_right_eq_some] at h
    obtain ⟨-, h⟩ := h
    obtain ⟨relay, -, rfl⟩ := Option.map_eq_some_iff.mp h
    exact keep rfl rfl
  | copier k d err =>
    obtain ⟨c, -, h⟩ := Option.bind_eq_some_iff.mp h
    simp only [Option.ite_none_right_eq_some] at h
    obtain ⟨-, h⟩ := h
    obtain ⟨c', -, rfl⟩ := Option.map_eq_some_iff.mp h
    exact keep rfl rfl
  | watch k =>
    obtain ⟨c, -, h⟩ := Option.bind_eq_some_iff.mp h
    simp only [ClientListener.stepWatch, Option.ite_none_right_eq_some, Option.some.injEq] at h
    obtain ⟨-, rfl⟩ := h
    exact keep rfl rfl
  | copied k =>
    obtain ⟨c, -, h⟩ := Option.bind_eq_some_iff.mp h
    simp only [ClientListener.stepCopied] at h
    split at h
    · obtain ⟨relay, -, rfl⟩ := Option.map_eq_some_iff.mp h
      exact keep rfl rfl
    · cases h

/-! ## Closed and cancelled -/

/-- How many steps a loop has left when `Accept` can only fail and the context is done. -/
def stepsLeft : AcceptPc → ℕ
  | .accept => 2
  | .failed => 1
  | .returned => 0

/-- The loop is closed and cancelled, and its steps so far are paid for. -/
def Ending (i : ℕ) (as : List ListenerAction) (s : ClientListener) : Prop :=
  ∃ l, s.loops[i]? = some l ∧ l.lnClosed = true ∧ l.ctxDone = true ∧
    as.countP (ofLoop i) + stepsLeft l.pc ≤ 2

theorem ending_step {as : List ListenerAction} (h : Ending i as s) (hs : s.step a = some s') :
    Ending i (as ++ [a]) s' := by
  obtain ⟨l, hi, hclosed, hctx, hcount⟩ := h
  obtain ⟨l', hi', hm⟩ := loop_move hi hs
  refine ⟨l', hi', ?_⟩
  rw [List.countP_append, List.countP_singleton]
  cases hm with
  | same a ha => exact ⟨hclosed, hctx, by simpa [ha] using hcount⟩
  | conn hopen => rw [hclosed] at hopen; cases hopen
  | error hpc =>
    refine ⟨hclosed, hctx, ?_⟩
    rw [hpc] at hcount
    simp only [ofLoop, beq_self_eq_true, if_true, stepsLeft] at hcount ⊢
    omega
  | select hpc =>
    refine ⟨hclosed, hctx, ?_⟩
    rw [hpc] at hcount
    simp only [ofLoop, beq_self_eq_true, if_true, hctx, stepsLeft] at hcount ⊢
    omega
  | cancel => exact ⟨hclosed, rfl, hcount⟩
  | close a ha => exact ⟨rfl, hctx, by simpa [ha] using hcount⟩

/-- A loop that has not returned has a step to make when its listener is closed. -/
theorem loop_enabled (hi : s.loops[i]? = some l) (hpc : l.pc ≠ .returned) :
    ∃ a s', ofLoop i a = true ∧ s.step a = some s' := by
  cases h : l.pc with
  | accept =>
    refine ⟨.loop i .error, s.setLoop i { l with pc := .failed }, beq_self_eq_true i, ?_⟩
    simp only [ClientListener.step, hi, Option.bind_some, ClientListener.stepLoop, h, if_true]
  | failed =>
    refine ⟨.loop i .select,
      s.setLoop i { l with pc := if l.ctxDone then .returned else .accept }, beq_self_eq_true i, ?_⟩
    simp only [ClientListener.step, hi, Option.bind_some, ClientListener.stepLoop, h, if_true]
  | returned => exact absurd h hpc

/-- A loop whose listener is closed and whose context is done returns: it makes at most two more
steps, and has one to make until it has returned. -/
theorem accept_loop_returns {as : List ListenerAction} (hi : s.loops[i]? = some l)
    (hclosed : l.lnClosed = true) (hctx : l.ctxDone = true)
    (hrun : exec ClientListener.step s as = some s') :
    as.countP (ofLoop i) ≤ 2 ∧ ∃ l', s'.loops[i]? = some l' ∧
      (l'.pc = .returned ∨ ∃ a s'', ofLoop i a = true ∧ s'.step a = some s'') := by
  have hstart : Ending i [] s := by
    refine ⟨l, hi, hclosed, hctx, ?_⟩
    cases l.pc <;> simp [stepsLeft]
  rw [← guarded_anyStep ClientListener.step] at hrun
  obtain ⟨-, l', hi', -, -, hcount⟩ := exec_invariant (Ending i) hrun hstart
    fun as a s s' _ h _ hs => ending_step h hs
  refine ⟨by omega, l', hi', ?_⟩
  by_cases hpc : l'.pc = .returned
  · exact .inl hpc
  · exact .inr (loop_enabled hi' hpc)

/-- The listener of a port is stopped at shutdown: `cancel`, then `Stop`. -/
theorem accept_loop_returns_shutdown :
    ∃ s s', exec ClientListener.step {} [.start 8080, .cancel 0, .stop] = some s ∧
      exec ClientListener.step s [.loop 0 .error, .loop 0 .select] = some s' ∧
      s'.loops = [{ port := 8080, pc := .returned, lnClosed := true, ctxDone := true }] ∧
      [ListenerAction.loop 0 .error, .loop 0 .select].countP (ofLoop 0) ≤ 2 := by
  obtain ⟨s, hs, hl, hrest⟩ := exists_some_of_any
    (x := exec ClientListener.step {} [.start 8080, .cancel 0, .stop])
    (fun s => s.loops[0]? = some { port := 8080, lnClosed := true, ctxDone := true } ∧
      (exec ClientListener.step s [.loop 0 .error, .loop 0 .select]).any (fun s' =>
        decide (s'.loops = [{ port := 8080, pc := .returned, lnClosed := true, ctxDone := true }])) =
        true) (by decide)
  obtain ⟨s', hs', hloops⟩ := exists_some_of_any _ hrest
  exact ⟨s, s', hs, hs', hloops, (accept_loop_returns hl rfl rfl hs').1⟩

/-! ## Closed and not cancelled -/

/-- One round of the loop: `Accept` fails and the select finds the context not done. -/
def round (i : ℕ) : List ListenerAction := [.loop i .error, .loop i .select]

/-- After a round nothing has changed. -/
theorem exec_round (hi : s.loops[i]? = some l) (hpc : l.pc = .accept) (hctx : l.ctxDone = false) :
    exec ClientListener.step s (round i) = some s := by
  obtain ⟨port, pc, lnClosed, ctxDone⟩ := l
  obtain rfl : pc = .accept := hpc
  obtain rfl : ctxDone = false := hctx
  have hlt := (List.getElem?_eq_some_iff.mp hi).1
  have herror : s.step (.loop i .error) = some (s.setLoop i ⟨port, .failed, lnClosed, false⟩) := by
    simp only [ClientListener.step, hi, Option.bind_some, ClientListener.stepLoop, if_true]
  have hi' : (s.setLoop i ⟨port, .failed, lnClosed, false⟩).loops[i]? =
      some ⟨port, .failed, lnClosed, false⟩ := List.getElem?_set_self hlt
  have hselect :
      (s.setLoop i ⟨port, .failed, lnClosed, false⟩).step (.loop i .select) = some s := by
    simp only [ClientListener.step, hi', Option.bind_some, ClientListener.stepLoop, if_true,
      Bool.false_eq_true, if_false]
    simp only [ClientListener.setLoop, List.set_set, set_self hi]
  simp only [exec, round, List.foldlM_cons, List.foldlM_nil, herror, Option.bind_eq_bind,
    Option.bind_some, hselect, Option.pure_def]

/-- A loop in `Accept` whose context is not done can go round any number of times. -/
theorem exec_rounds (hi : s.loops[i]? = some l) (hpc : l.pc = .accept) (hctx : l.ctxDone = false)
    (n : ℕ) : exec ClientListener.step s (List.replicate n (round i)).flatten = some s := by
  induction n with
  | zero => rfl
  | succ n ih =>
    rw [List.replicate_succ, List.flatten_cons, exec, List.foldlM_append]
    exact Option.bind_eq_some_iff.mpr ⟨s, exec_round hi hpc hctx, ih⟩

/-- No context is cancelled. -/
def NeverCancelled (_ : ClientListener) : ListenerAction → Prop
  | .cancel _ => False
  | _ => True

/-- A loop whose context is not done does not return, and its listener stays closed. -/
theorem not_returned (hi : s.loops[i]? = some l) (hclosed : l.lnClosed = true)
    (hctx : l.ctxDone = false) (hpc : l.pc ≠ .returned)
    (hrun : Reach ClientListener.step NeverCancelled s s') :
    ∃ l', s'.loops[i]? = some l' ∧ l'.lnClosed = true ∧ l'.pc ≠ .returned := by
  have hI : ∃ l', s'.loops[i]? = some l' ∧ l'.ctxDone = false ∧ l'.lnClosed = true ∧
      l'.pc ≠ .returned := by
    apply hrun.invariant
      (fun s => ∃ l, s.loops[i]? = some l ∧ l.ctxDone = false ∧ l.lnClosed = true ∧
        l.pc ≠ .returned) ⟨l, hi, hctx, hclosed, hpc⟩
    rintro s a s' - ⟨l, hi, hctx, hclosed, hpc⟩ hok hs
    obtain ⟨l', hi', hm⟩ := loop_move hi hs
    refine ⟨l', hi', ?_⟩
    cases hm with
    | same | conn => exact ⟨hctx, hclosed, hpc⟩
    | error => exact ⟨hctx, hclosed, nofun⟩
    | select =>
      refine ⟨hctx, hclosed, ?_⟩
      simp [hctx]
    | cancel => exact hok.elim
    | close => exact ⟨hctx, rfl, hpc⟩
  obtain ⟨l', hi', -, hrest⟩ := hI
  exact ⟨l', hi', hrest⟩

/-- A closed listener and a context that is never cancelled: the loop does not return, and goes
round as often as one likes. -/
def Spins (i : ℕ) (s : ClientListener) : Prop :=
  (∀ n, exec ClientListener.step s (List.replicate n (round i)).flatten = some s) ∧
    ∀ s', Reach ClientListener.step NeverCancelled s s' →
      ∃ l, s'.loops[i]? = some l ∧ l.lnClosed = true ∧ l.pc ≠ .returned

/-- The listener of port 8080 is closed by `StopPort`, as a DELETE of the port does it, or by
`Stop`. -/
theorem accept_loop_spins :
    (∃ s, exec ClientListener.step {} [.start 8080, .stopPort 8080] = some s ∧ Spins 0 s) ∧
      ∃ s, exec ClientListener.step {} [.start 8080, .stop] = some s ∧ Spins 0 s := by
  have spins {s : ClientListener} (hi : s.loops[0]? = some { port := 8080, lnClosed := true }) :
      Spins 0 s :=
    ⟨exec_rounds hi rfl rfl, fun s' hrun => not_returned hi rfl rfl nofun hrun⟩
  exact ⟨⟨_, rfl, spins rfl⟩, ⟨_, rfl, spins rfl⟩⟩

end Atlax.Analysis
