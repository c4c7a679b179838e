import Atlax.Analysis.CellInvariants
import Atlax.Analysis.Flight

/-!
# How a stream leaves the map

While a session is open, an entry of a stream that has ended is on its way out: the callback of
Close, the callback of Reset or the read loop is bound to remove it. An entry of a stream whose open
has failed is gone, and whatever is queued is sent.
-/

set_option autoImplicit false

namespace Atlax.Analysis

open Atlax.Model Atlax.Library

/-- The callback of Close has not seen yet whether the stream is closed, or has seen that it is. -/
def closeAhead (pc : ClosePc) : Bool :=
  match pc with
  | .fin | .checkClosed | .delete => true
  | .idle | .checkReset | .done => false

/-- The callback of Reset has not looked for the entry yet. -/
def unreported : ResetPc → Bool
  | .check _ | .lookup _ => true
  | .idle | .send _ | .done => false

/-- A stream that has ended leaves the map. -/
structure EndingInv (s : Session) : Prop where
  mute : s.mute = true → s.closed = true
  cleanup : ∀ r < s.nextRef, (s.cells r).openPc = .cleanup false → s.closed = true
  failed : ∀ i r, s.table.get i = some r →
    (s.cells r).openPc = .failed ∨ (∃ f, (s.cells r).openPc = .resetting f) → s.closed = true
  ended : ∀ i r, s.table.get i = some r → (s.cells r).stream.state = .closed →
    closeAhead (s.cells r).closePc = true ∨
      ∃ p, s.reader = .checkClosed r p ∨ s.reader = .delete r p
  reset : ∀ i r, s.table.get i = some r → (s.cells r).stream.state = .reset →
    s.closed = true ∨ unreported (s.cells r).resetPc = true

variable {s s' : Session} {a : Action} {i : ℕ}

theorem move_mute (hm : Move s a s') (h : s'.mute = true) : s.mute = true ∨ s'.closed = true := by
  cases hm with
  | sendOpen | drainSend | acceptAck | resetSend | handlePing | rejectOpen | goAwaySend | ping
  | sendServiceList => exact .inl ((mute_enqueue _ _ _).symm.trans h)
  | writerCheck hw =>
    by_cases hcl : s.closed = true
    · exact .inr hcl
    · simp only [hcl] at h
      exact .inl (by simpa [Session.mute, hw] using h)
  | dequeue hw p q hq => exact .inl ((mute_dequeue hw hq).symm.trans h)
  | dequeueExit hw hcl => exact .inl (by simp [Session.mute, hcl])
  | transmit p hw => exact .inl (by simpa [Session.mute, hw] using h)
  | transmitFail _ _ pc hpc => exact .inr (by simpa [Session.closed] using hpc)
  | closingQueue => exact .inr rfl
  | _ => exact .inl h

theorem move_cleanup (hm : Move s a s') {r : Ref} (hr : r < s.nextRef)
    (h : (s'.cells r).openPc = .cleanup false) :
    (s.cells r).openPc = .cleanup false ∨ s.closed = true := by
  obtain heq | ⟨o, rfl, ho⟩ := move_open hm hr
  · exact .inl (heq ▸ h)
  · rw [h] at ho
    cases ho with
    | sessionClosed _ hcl => exact .inr hcl

/-- An entry of a stream whose open has failed or is about to reset it was so before, or the session
is closed. -/
theorem move_failed (hI : EndingInv s) (hm : Move s a s') {r : Ref} (hr : r < s.nextRef)
    (hid : (s.cells r).stream.id = i) (hget' : s'.table.get i = some r)
    (hget : s.table.get i = some r)
    (h : (s'.cells r).openPc = .failed ∨ ∃ f, (s'.cells r).openPc = .resetting f) :
    s.closed = true := by
  obtain heq | ⟨o, rfl, -⟩ := move_open hm hr
  · rw [heq] at h
    exact hI.failed i r hget h
  · subst hid
    cases hm with
    | openCleanup _ _ cancelled hpc =>
      cases cancelled with
      | false => exact hI.cleanup r hr hpc
      | true => simp at h
    | openRemove => simp at hget'
    | openRemoveNone _ _ _ hnone =>
      rw [hget] at hnone
      cases hnone
    | openReset _ _ found hpc => exact hI.failed _ r hget (.inr ⟨found, hpc⟩)
    | _ => simp at h

section Cell

variable {rd : ReaderPc} {r : Ref} {c c' : Cell}

/-- The callback of Close of a closed stream stays ahead of the removal until it has removed the
entry. -/
theorem cell_closeAhead (hm : CellMove a rd r c c') (hst : c.stream.state = .closed)
    (h : closeAhead c.closePc = true) :
    closeAhead c'.closePc = true ∨ a = .callback r .closeDelete := by
  cases hm with
  | call k c' _ _ hc =>
    cases hc with
    | close =>
      left
      unfold Cell.close StreamSession.close
      simp [hst, h]
    | _ => exact .inl h
  | drain d b c' p _ hc => cases hc <;> exact .inl h
  | closeFin => exact .inl rfl
  | closeCheckClosed => exact .inl (by simp [hst, closeAhead])
  | closeCheckReset hpc =>
    rw [hpc] at h
    cases h
  | closeDelete ha => exact .inr ha
  | _ => exact .inl h

/-- A stream is closed by a caller or by the read loop. -/
theorem cell_closed (hC : CellInv c) (hm : CellMove a rd r c c') (h : c.stream.state ≠ .closed)
    (h' : c'.stream.state = .closed) :
    c'.closePc = .fin ∨ a = .reader ∧ ∃ p, rd = .remoteClose r p := by
  cases hm with
  | call k c' _ _ hc =>
    cases hc with
    | close =>
      left
      have honce : c.stream.state = .halfClosedRemote → c.stream.localCloseOnce = false := by
        intro hst
        have hno := mt hC.closedAt (by simp [hst, StreamState.LocalClosed])
        rw [hC.closeOnce, not_not.mp hno]
        rfl
      unfold Cell.close at h' ⊢
      cases hst : c.stream.state <;> simp_all [StreamSession.close]
    | reset code =>
      simp only [Cell.reset, StreamSession.reset] at h'
      split at h' <;> simp_all
    | _ => exact absurd h' h
  | drain d b c' p _ hc => cases hc <;> exact absurd h' h
  | remoteClose p ha hrd => exact .inr ⟨ha, p, hrd⟩
  | resetLocal | openFailedReset | resetFrame =>
    simp only [Cell.reset, StreamSession.reset] at h'
    split at h' <;> simp_all
  | _ => exact absurd h' h

theorem unreported_reset (hC : CellInv c) (h : c.stream.state ≠ .reset) {code : ℕ} {byFrame : Bool}
    (h' : (c.reset code byFrame).stream.state = .reset) :
    unreported (c.reset code byFrame).resetPc = true := by
  have honce : c.stream.resetOnce = false := by
    cases ho : c.stream.resetOnce with
    | false => rfl
    | true => exact absurd (hC.resetOnce ho) h
  by_cases hcl : c.stream.state = .closed
  · simp [Cell.reset, StreamSession.reset, hcl] at h'
  · simp [Cell.reset, StreamSession.reset, h, hcl, honce, unreported]

/-- A stream that is reset has its callback ahead. -/
theorem cell_unreported (hC : CellInv c) (hm : CellMove a rd r c c') (h : c.stream.state ≠ .reset)
    (h' : c'.stream.state = .reset) : unreported c'.resetPc = true := by
  obtain ⟨pc, code, byFrame, hpc, rfl, -⟩ := cell_becomes_reset hm h h'
  have hC' : CellInv { c with openPc := pc } := by
    refine hC.congr id hC.resetting hC.delete ?_ id
    rcases hpc with rfl | rfl
    · exact hC.unsent
    · simp
  exact unreported_reset hC' h h'

/-- The callback of Reset stays ahead until it looks for the entry, unless the session closes. -/
theorem cell_stays_unreported (hm : CellMove a rd r c c') (h : unreported c.resetPc = true) :
    unreported c'.resetPc = true ∨ a = .callback r .resetCheck ∨ a = .callback r .resetLookup := by
  cases hm with
  | call k c' _ _ hc =>
    cases hc with
    | reset code =>
      left
      simp only [Cell.reset]
      split
      · rfl
      · exact h
    | _ => exact .inl h
  | drain d b c' p _ hc => cases hc <;> exact .inl h
  | resetCheck code ha => exact .inr (.inl ha)
  | resetLookup code ha => exact .inr (.inr ha)
  | resetSend code _ hpc =>
    rw [hpc] at h
    cases h
  | resetLocal | resetFrame | openFailedReset =>
    left
    simp only [Cell.reset]
    split
    · rfl
    · exact h
  | _ => exact .inl h

end Cell

/-- The entry of a closed stream is on its way out, or removed. -/
theorem ended_move (hw : WellFormed s) (hC : ∀ r < s.nextRef, CellInv (s.cells r))
    (hI : EndingInv s)
    (hm : Move s a s') {r : Ref} (hget : s.table.get i = some r)
    (hget' : s'.table.get i = some r) (hst : (s'.cells r).stream.state = .closed) :
    closeAhead (s'.cells r).closePc = true ∨
      ∃ p, s'.reader = .checkClosed r p ∨ s'.reader = .delete r p := by
  obtain ⟨hr, rfl⟩ := hw.table i r hget
  have hc := move_cell hm hr
  by_cases hst₀ : (s.cells r).stream.state = .closed
  · rcases hI.ended _ r hget hst₀ with hahead | ⟨p, hrd⟩
    · rcases cell_closeAhead hc hst₀ hahead with h | rfl
      · exact .inl h
      · cases hm with
        | closeDelete => simp at hget'
    · by_cases ha : a = .reader
      · subst ha
        have hid : p.frame.streamID = (s.cells r).stream.id := by
          refine (hw.reader r p ?_).2.symm
          rcases hrd with hrd | hrd <;> rw [hrd] <;> rfl
        cases hm with
        | checkClosed r₀ p₀ hrd₀ =>
          rcases hrd with hrd | hrd <;> rw [hrd] at hrd₀ <;> cases hrd₀
          exact .inr ⟨p, .inr (by simp [hst₀])⟩
        | delete r₀ p₀ hrd₀ =>
          rcases hrd with hrd | hrd <;> rw [hrd] at hrd₀ <;> cases hrd₀
          simp [hid] at hget'
        | _ => simp_all
      · rcases move_reader_other hm ha with heq | hidle | ⟨r₀, p₀, hacc⟩
        · exact .inr ⟨p, by rwa [heq]⟩
        · rcases hrd with hrd | hrd <;> rw [hrd] at hidle <;> cases hidle
        · rcases hrd with hrd | hrd <;> rw [hrd] at hacc <;> cases hacc
  · rcases cell_closed (hC r hr) hc hst₀ hst with hfin | ⟨rfl, p, hrd⟩
    · exact .inl (by rw [hfin]; rfl)
    · cases hm with
      | remoteClose r₀ p₀ hrd₀ =>
        rw [hrd] at hrd₀
        cases hrd₀
        exact .inr ⟨p, .inl rfl⟩
      | _ => simp_all

/-- The entry of a stream that was reset is on its way out, or removed. -/
theorem reset_move (hw : WellFormed s) (hC : ∀ r < s.nextRef, CellInv (s.cells r))
    (hI : EndingInv s)
    (hm : Move s a s') {r : Ref} (hget : s.table.get i = some r)
    (hget' : s'.table.get i = some r) (hst : (s'.cells r).stream.state = .reset) :
    s'.closed = true ∨ unreported (s'.cells r).resetPc = true := by
  obtain ⟨hr, rfl⟩ := hw.table i r hget
  have hc := move_cell hm hr
  by_cases hst₀ : (s.cells r).stream.state = .reset
  · rcases hI.reset _ r hget hst₀ with hcl | hun
    · exact .inl (move_closed hm hcl)
    · rcases cell_stays_unreported hc hun with h | rfl | rfl
      · exact .inr h
      · cases hm with
        | resetCheck _ _ code hpc =>
          cases hcl : s.closed with
          | true => exact .inl hcl
          | false => exact .inr (by simp [unreported])
      · cases hm with
        | resetLookup => simp at hget'
  · exact .inr (cell_unreported (hC r hr) hc hst₀ hst)

theorem endingInv_move (hw : WellFormed s) (hC : ∀ r < s.nextRef, CellInv (s.cells r))
    (hI : EndingInv s) (hm : Move s a s') : EndingInv s' := by
  -- the entry of a stream that was just made
  have fresh : ∀ {i r}, s'.table.get i = some r → s.table.get i = some r ∨
      (s'.cells r).stream.state = .opened ∧
        ((s'.cells r).openPc = .register ∨ (s'.cells r).openPc = .accepted) := by
    intro i r hget
    rcases move_table hm hget with hget | ⟨rfl, hn, _⟩
    · exact .inl hget
    · right
      rcases (move_fresh hm (hn ▸ Nat.lt_succ_self _)).2 with ⟨_, _, _, _, hc⟩ | ⟨_, _, _, _, hc⟩
      · rw [hc]
        exact ⟨rfl, .inl rfl⟩
      · rw [hc]
        exact ⟨rfl, .inr rfl⟩
  constructor
  · intro h
    rcases move_mute hm h with h | h
    · exact move_closed hm (hI.mute h)
    · exact h
  · intro r hr h
    rcases move_new hm hr with hold | ⟨_, ⟨_, _, hc⟩ | ⟨_, _, _, hc⟩⟩
    · refine move_closed hm ?_
      rcases move_cleanup hm hold h with h | h
      · exact hI.cleanup r hold h
      · exact h
    · rw [hc] at h
      cases h
    · rw [hc] at h
      cases h
  · intro i r hget' h
    rcases fresh hget' with hget | ⟨_, hpc | hpc⟩
    · obtain ⟨hr, hid⟩ := hw.table i r hget
      exact move_closed hm (move_failed hI hm hr hid hget' hget h)
    · simp [hpc] at h
    · simp [hpc] at h
  · intro i r hget' hst
    rcases fresh hget' with hget | ⟨hst', _⟩
    · exact ended_move hw hC hI hm hget hget' hst
    · rw [hst'] at hst
      cases hst
  · intro i r hget' hst
    rcases fresh hget' with hget | ⟨hst', _⟩
    · exact reset_move hw hC hI hm hget hget' hst
    · rw [hst'] at hst
      cases hst

theorem endingInv_reach {role : Role} {config : MuxConfig} {ok : Session → Action → Prop}
    (h : SessionReach role config ok s) : EndingInv s := by
  refine Reach.invariant EndingInv h ?_ ?_
  · constructor <;> simp [newMuxSession, newStreamTable, StreamTable.get, Session.mute]
  · intro s a s' hr hI _ hstep
    exact endingInv_move (wellFormed_reach hr) (cellInv_reach hr) hI (step_move hstep)

/-- The queue of an open session takes what it is given. -/
theorem EndingInv.queue_open (hE : EndingInv s) (h : s.closed = false) :
    s.queue.closed = false := by
  cases hq : s.queue.closed with
  | false => rfl
  | true => rw [← h, hE.mute (by simp [Session.mute, hq])]

theorem system_endingInv {config : Role → MuxConfig} {ok : System → Role × Action → Prop}
    {S : System} (h : SystemReach config ok S) (Y : Role) : EndingInv (S.sess Y) := by
  have hY : SessionReach Y (config Y) anyStep (S.sess Y) :=
    session_reach h (fun _ _ _ _ _ => trivial) Y
  exact endingInv_reach hY

end Atlax.Analysis
