import Atlax.Analysis.Endings
import Atlax.Analysis.Limits
import Atlax.Analysis.Mapped
import Atlax.Analysis.Notices

/-!
# From Write to the queue

A Write that has put its chunk into `writeOut` returns success; the stream's drain goroutine takes
the chunks out and queues them, one STREAM_DATA each, and after Close it flushes what is left and
queues STREAM_CLOSE+FIN. Between the state check of a Write and its send lies a gap: a chunk that
enters `writeOut` after the flush has found it empty stays there, although its Write has succeeded.
With no such Write all that was acknowledged is queued, in order and before the FIN.
-/

set_option autoImplicit false

namespace Atlax.Analysis

open Atlax.Model Atlax.Library

variable {r : Ref} {config : MuxConfig} {out : List Packet} {c c' : Cell} {ack : List Bytes}
    {role : Role} {ok : Session → Action → Prop} {as : List Action} {p : Option Packet}

/-- The chunks of the Writes on the stream that returned success, in the order they entered
`writeOut`. -/
def acked (r : Ref) (as : List Action) : List Bytes :=
  as.filterMap fun
    | .call r' (.writeSend data) => if r' = r then some data else none
    | _ => none

/-- What a step of the stream's drain goroutine adds to the data queue. -/
def drainOut (r : Ref) (s : Session) (a : Action) (s' : Session) : List Packet :=
  match a with
  | .drain r' _ => if r' = r then s'.queue.data.drop s.queue.data.length else []
  | _ => []

/-- The packets that the stream's drain goroutine queues in a run. -/
def enqueued (r : Ref) (s₀ : Session) (as : List Action) : List Packet :=
  outputs Session.step (drainOut r) s₀ as

/-- No Write puts its chunk into `writeOut` after `flushAndFIN` has found it empty.
SOURCE: mux_session.go:358-373; stream_impl.go:105-124 -/
def SendsInTime (r : Ref) (s : Session) : Action → Prop
  | .call r' (.writeSend _) =>
    r' = r → (s.cells r).drainPc ≠ .sendFIN ∧ (s.cells r).drainPc ≠ .done
  | _ => True

instance (r : Ref) (s : Session) (a : Action) : Decidable (SendsInTime r s a) := by
  unfold SendsInTime
  split <;> infer_instance

/-! ## What is queued is what was acknowledged -/

/-- The STREAM_CLOSE+FIN, once it is queued. -/
def finOut (c : Cell) : List Packet := if c.drainPc = .done then [c.closePacket] else []

/-- Of the acknowledged chunks some have been queued, one may be in the drain goroutine's hand, and
the others wait in `writeOut`, which is empty once the goroutine has seen it so. -/
structure Drained (c : Cell) (ack : List Bytes) (out : List Packet) : Prop where
  split : ∃ sent, ack = sent ++ c.inHand ++ c.stream.writeOut ∧
    out = sent.map c.dataPacket ++ finOut c
  flushed : c.drainPc = .sendFIN ∨ c.drainPc = .done → c.stream.writeOut = []

theorem Evolves.dataPacket (h : Evolves c c') : c'.dataPacket = c.dataPacket := by
  funext data
  simp only [Cell.dataPacket, h.id, h.conv]

theorem Evolves.closePacket (h : Evolves c c') : c'.closePacket = c.closePacket := by
  simp only [Cell.closePacket, h.id, h.conv]

/-- A move that leaves `writeOut` and the drain goroutine alone. -/
theorem Drained.congr (h : Drained c ack out)
    (hev : Evolves c c') (hout : c'.stream.writeOut = c.stream.writeOut)
    (hpc : c'.drainPc = c.drainPc) : Drained c' ack out := by
  have hhand : c'.inHand = c.inHand := by simp only [Cell.inHand, hpc]
  have hfin : finOut c' = finOut c := by simp only [finOut, hpc, hev.closePacket]
  obtain ⟨sent, hack, hsent⟩ := h.split
  exact ⟨⟨sent, by rw [hack, hhand, hout], by rw [hsent, hev.dataPacket, hfin]⟩,
    by rw [hpc, hout]; exact h.flushed⟩

/-- A Write puts a chunk into `writeOut`.
SOURCE: stream_impl.go:105-124 -/
theorem Drained.writeSend (h : Drained c ack out)
    (data : Bytes) (hok : c.drainPc ≠ .sendFIN ∧ c.drainPc ≠ .done) :
    Drained { c with
      stream := { c.stream with writeOut := c.stream.writeOut ++ [data] }
      writers := c.writers.erase data
      hist := { c.hist with wrote := c.hist.wrote ++ data } } (ack ++ [data]) out := by
  obtain ⟨sent, hack, hsent⟩ := h.split
  refine ⟨⟨sent, ?_, hsent⟩, ?_⟩
  · rw [hack, List.append_assoc]
    rfl
  · rintro (hpc | hpc)
    · exact absurd hpc hok.1
    · exact absurd hpc hok.2

/-- A drain goroutine that goes on without a chunk in its hand and has not queued the FIN; it has
found `writeOut` empty when it goes on to queue it. -/
theorem Drained.advance (h : Drained c ack out)
    (hhand : c.inHand = []) (hdone : c.drainPc ≠ .done) (hhand' : c'.inHand = [])
    (hdone' : c'.drainPc ≠ .done) (hnil : c'.drainPc = .sendFIN → c.stream.writeOut = [])
    (hev : Evolves c c') (hout : c'.stream.writeOut = c.stream.writeOut) : Drained c' ack out := by
  obtain ⟨sent, hack, hsent⟩ := h.split
  refine ⟨⟨sent, ?_, ?_⟩, ?_⟩
  · rw [hack, hhand, hhand', hout]
  · rw [hsent, hev.dataPacket, finOut, finOut, if_neg hdone, if_neg hdone']
  · rintro (hpc | hpc)
    · rw [hout, hnil hpc]
    · exact absurd hpc hdone'

/-- When the FIN is queued, all is. -/
theorem Drained.done (h : Drained c ack out) (hpc : c.drainPc = .done) :
    c.stream.writeOut = [] ∧ c.inHand = [] ∧ out = ack.map c.dataPacket ++ [c.closePacket] := by
  have hout := h.flushed (.inr hpc)
  have hhand : c.inHand = [] := by simp [Cell.inHand, hpc]
  obtain ⟨sent, hack, hsent⟩ := h.split
  rw [hhand, hout, List.append_nil, List.append_nil] at hack
  refine ⟨hout, hhand, ?_⟩
  rw [hsent, finOut, if_pos hpc, hack]

/-- A move of the drain goroutine, in a stream that is not reset and a session that is not
closed. -/
theorem Drained.drain
    (h : Drained c ack out) (hc : CellDrain c false c' p) (hst : c.stream.state ≠ .reset) :
    Drained c' ack (out ++ p.toList) := by
  obtain ⟨sent, hack, hsent⟩ := h.split
  have hev := evolves_drain hc
  cases hc with
  | take data rest flushing hpc hout =>
    have hhand : c.inHand = [] := by cases flushing <;> simp [Cell.inHand, hpc]
    have hdone : c.drainPc ≠ .done := by cases flushing <;> simp [hpc]
    refine ⟨⟨sent, ?_, ?_⟩, by simp⟩
    · rw [hack, hhand, hout]
      simp [Cell.inHand]
    · rw [hsent, hev.dataPacket, finOut, finOut, if_neg hdone, if_neg (by simp)]
      simp
  | takeFIN hpc =>
    rw [Option.toList_none, List.append_nil]
    obtain hpc | hpc := hpc <;>
      exact h.advance (by simp [Cell.inHand, hpc]) (by simp [hpc]) rfl (by simp) (by simp) hev rfl
  | sawClosed hpc | stateClosed hpc =>
    rw [Option.toList_none, List.append_nil]
    exact h.advance (by simp [Cell.inHand, hpc]) (by simp [hpc]) rfl (by simp) (by simp) hev rfl
  | flushed hpc hout =>
    rw [Option.toList_none, List.append_nil]
    exact h.advance (by simp [Cell.inHand, hpc]) (by simp [hpc]) rfl (by simp) (fun _ => hout) hev
      rfl
  | exit _ hcl => cases hcl
  | stateReset _ hst' => exact absurd hst' hst
  | enqueue data flushing hpc =>
    have hdone : c.drainPc ≠ .done := by simp [hpc]
    refine ⟨⟨sent ++ [data], ?_, ?_⟩, ?_⟩
    · rw [hack]
      cases flushing <;> simp [Cell.inHand, hpc]
    · rw [hsent, hev.dataPacket, finOut, finOut, if_neg hdone, if_neg (by cases flushing <;> simp)]
      simp
    · cases flushing <;> simp
  | sendFIN hpc =>
    have hdone : c.drainPc ≠ .done := by simp [hpc]
    refine ⟨⟨sent, ?_, ?_⟩, fun _ => h.flushed (.inl hpc)⟩
    · rw [hack]
      simp [Cell.inHand, hpc]
    · rw [hsent, hev.dataPacket, finOut, finOut, if_neg hdone, if_pos rfl]
      simp [hev.closePacket]

variable {s s' : Session} {a : Action}

/-- Who is not the stream's Write and not its drain goroutine leaves both alone; the drain goroutine
is started by the open. -/
theorem cell_undrained {rd : ReaderPc} (hm : CellMove a rd r c c')
    (hsend : ∀ data, a ≠ .call r (.writeSend data)) (hdrain : ∀ d, a ≠ .drain r d) :
    c'.stream.writeOut = c.stream.writeOut ∧
      (c'.drainPc = c.drainPc ∨ c.openPc = .enqueue ∧ c'.drainPc = .select) := by
  cases hm with
  | call k c' ha _ hc =>
    cases hc with
    | writeSend data => exact absurd ha (hsend data)
    | close => exact ⟨close_writeOut c, .inl rfl⟩
    | reset code => exact ⟨reset_writeOut c code false, .inl rfl⟩
    | _ => exact ⟨rfl, .inl rfl⟩
  | drain d b c' p ha => exact absurd ha (hdrain d)
  | sendOpen _ hpc => exact ⟨rfl, .inr ⟨hpc, rfl⟩⟩
  | remoteClose => exact ⟨remoteClose_writeOut c.stream, .inl rfl⟩
  | resetLocal => exact ⟨reset_writeOut c 0 false, .inl rfl⟩
  | resetFrame p => exact ⟨reset_writeOut c _ true, .inl rfl⟩
  | openFailedReset => exact ⟨reset_writeOut { c with openPc := .failed } 0 false, .inl rfl⟩
  | _ => exact ⟨rfl, .inl rfl⟩

theorem acked_append (r : Ref) (as bs : List Action) :
    acked r (as ++ bs) = acked r as ++ acked r bs := List.filterMap_append

theorem acked_nil (h : ∀ a ∈ as, ∀ data, a ≠ .call r (.writeSend data)) : acked r as = [] := by
  refine List.filterMap_eq_nil_iff.mpr ?_
  intro a ha
  split
  · next r' data =>
    refine if_neg ?_
    rintro rfl
    exact h _ ha data rfl
  · rfl

theorem drainOut_nil (h : ∀ d, a ≠ .drain r d) : drainOut r s a s' = [] := by
  unfold drainOut
  split
  · next r' d =>
    refine if_neg ?_
    rintro rfl
    exact h d rfl
  · rfl

/-- A step of the drain goroutine, with the packet it queues. -/
theorem move_drain {d : Drain} (hm : Move s (.drain r d) s') (hq : s.queue.closed = false) :
    ∃ p, CellDrain (s.cells r) s.closed (s'.cells r) p ∧
      drainOut r s (.drain r d) s' = p.toList := by
  cases hm with
  | drain _ hr _ c hc =>
    refine ⟨none, by simpa using hc, ?_⟩
    simp [drainOut]
  | drainSend _ hr _ c p hc =>
    refine ⟨some p, by simpa using hc, ?_⟩
    simp [drainOut, WriteQueue.enqueue, hq]

/-- No step loses a chunk. -/
theorem drained_move (hm : Move s a s')
    (hr : r < s.nextRef) (hC : CellInv (s.cells r)) (hq : s.queue.closed = false)
    (hcl : s.closed = false) (hst : (s.cells r).stream.state ≠ .reset) (hok : SendsInTime r s a)
    (h : Drained (s.cells r) ack out) :
    Drained (s'.cells r) (ack ++ acked r [a]) (out ++ drainOut r s a s') := by
  by_cases hsend : ∃ data, a = .call r (.writeSend data)
  · obtain ⟨data, rfl⟩ := hsend
    cases hm with
    | call _ _ _ _ _ hc =>
      cases hc with
      | writeSend =>
        simpa [acked, drainOut] using h.writeSend data (hok rfl)
  · by_cases hdrain : ∃ d, a = .drain r d
    · obtain ⟨d, rfl⟩ := hdrain
      obtain ⟨p, hc, hout⟩ := move_drain hm hq
      rw [hcl] at hc
      rw [hout]
      simpa [acked] using h.drain hc hst
    · rw [not_exists] at hsend hdrain
      rw [acked_nil (by simpa using hsend), drainOut_nil hdrain, List.append_nil, List.append_nil]
      have hev := move_evolves hm r hr
      obtain ⟨hout, hpc | ⟨hopen, hpc⟩⟩ := cell_undrained (move_cell hm hr) hsend hdrain
      · exact h.congr hev hout hpc
      · -- nothing has been drained before the goroutine starts
        have hidle := hC.unsent (.inr hopen)
        obtain ⟨sent, hack, hsent⟩ := h.split
        refine ⟨⟨sent, ?_, ?_⟩, by simp [hpc]⟩
        · rw [hack, hout]
          simp [Cell.inHand, hidle, hpc]
        · rw [hsent, hev.dataPacket, finOut, finOut, hidle, hpc]
          simp

/-- The accounts of a stream, from before it exists to the end of the run. -/
structure DrainInv (r : Ref) (s₀ : Session) (as : List Action) (s : Session) : Prop where
  before : s.nextRef ≤ r → acked r as = [] ∧ enqueued r s₀ as = []
  drained : r < s.nextRef → s.closing = .running → (s.cells r).stream.state ≠ .reset →
    Drained (s.cells r) (acked r as) (enqueued r s₀ as)

theorem drained_new (hout : c.stream.writeOut = [])
    (hpc : c.drainPc = .idle ∨ c.drainPc = .select) : Drained c [] [] := by
  refine ⟨⟨[], ?_, ?_⟩, fun _ => hout⟩
  · obtain hpc | hpc := hpc <;> simp [Cell.inHand, hpc, hout]
  · obtain hpc | hpc := hpc <;> simp [finOut, hpc]

/-- Whoever is not there yet is not called and drains nothing. -/
theorem step_absent (hr : s.nextRef ≤ r) (hstep : s.step a = some s') :
    (∀ data, a ≠ .call r (.writeSend data)) ∧ ∀ d, a ≠ .drain r d := by
  constructor
  · rintro data rfl
    simp only [Session.step, Option.ite_none_right_eq_some] at hstep
    exact absurd hstep.1.1 (Nat.not_lt.mpr hr)
  · rintro d rfl
    simp only [Session.step, Option.ite_none_right_eq_some] at hstep
    exact absurd hstep.1 (Nat.not_lt.mpr hr)

theorem session_reach_of_exec (h : exec Session.step (newMuxSession role config) as = some s) :
    SessionReach role config anyStep s := by
  refine Reach.of_exec as ?_
  rw [guarded_anyStep]
  exact h

/-- One more step of a run. -/
theorem drainInv_step (hexec : exec Session.step (newMuxSession role config) as = some s)
    (hI : DrainInv r (newMuxSession role config) as s) (hok : SendsInTime r s a)
    (hstep : s.step a = some s') : DrainInv r (newMuxSession role config) (as ++ [a]) s' := by
  have hm := step_move hstep
  have hreach := session_reach_of_exec hexec
  have hout : enqueued r (newMuxSession role config) (as ++ [a]) =
      enqueued r (newMuxSession role config) as ++ drainOut r s a s' := outputs_concat hexec hstep
  -- nothing is added for a stream that is not there before the step
  have absent : s.nextRef ≤ r → acked r (as ++ [a]) = [] ∧
      enqueued r (newMuxSession role config) (as ++ [a]) = [] := by
    intro hr
    obtain ⟨hack, henq⟩ := hI.before hr
    obtain ⟨hsend, hdrain⟩ := step_absent hr hstep
    rw [hout, acked_append, hack, henq, acked_nil (by simpa using hsend), drainOut_nil hdrain]
    exact ⟨rfl, rfl⟩
  constructor
  · intro hr
    exact absent (Nat.le_trans (move_nextRef hm) hr)
  · intro hr hrun hst
    have hrun₀ := move_running hm hrun
    have hcl : s.closed = false := by simp [Session.closed, hrun₀]
    obtain hold | ⟨rfl, hnew⟩ := move_new hm hr
    · have hst₀ : (s.cells r).stream.state ≠ .reset := by
        intro hreset
        exact hst (((move_evolves hm r hold).terminal (.inr hreset)).trans hreset)
      rw [acked_append, hout]
      exact drained_move hm hold (cellInv_reach hreach r hold)
        ((endingInv_reach hreach).queue_open hcl) hcl hst₀ hok (hI.drained hold hrun₀ hst₀)
    · obtain ⟨hack, henq⟩ := absent (Nat.le_refl _)
      rw [hack, henq]
      obtain ⟨payload, -, hc⟩ | ⟨p, -, -, hc⟩ := hnew
      · rw [hc]
        exact drained_new rfl (.inl rfl)
      · rw [hc]
        refine drained_new ?_ (.inr rfl)
        unfold Session.acceptedCell
        dsimp only
        split <;> rfl

/-- No chunk is lost in any run. -/
theorem drainInv_run
    (h : exec (guarded Session.step (SendsInTime r)) (newMuxSession role config) as = some s) :
    SessionReach role config anyStep s ∧ DrainInv r (newMuxSession role config) as s := by
  have hI := exec_invariant (DrainInv r (newMuxSession role config)) h ?_ ?_
  · exact ⟨session_reach_of_exec hI.1, hI.2⟩
  · exact ⟨fun _ => ⟨rfl, rfl⟩, nofun⟩
  · intro as a s s' hexec hI hok hstep
    exact drainInv_step hexec hI hok hstep

/-! ## The FIN is queued -/

/-- The steps that the FIN of a closed half takes: the FIN token and the drain goroutine. -/
def OwnStep (r : Ref) : Action → Prop
  | .drain r' _ => r' = r
  | .callback r' .closeFin => r' = r
  | _ => False

instance (r : Ref) : DecidablePred (OwnStep r) := by
  intro a
  unfold OwnStep
  induction a with
  | callback r k => induction k <;> infer_instance
  | _ => infer_instance

/-- How far the goroutine is from its end.
SOURCE: mux_session.go:326-382 -/
def drainRank : DrainPc → ℕ
  | .idle | .done => 0
  | .sendFIN => 1
  | .flush => 2
  | .enqueue _ true | .awaitFIN => 3
  | .sawClosed => 4
  | .select => 5
  | .enqueue _ false => 6

/-- How far the drain goroutine is from its end. -/
def drainMeasure (c : Cell) : ℕ :=
  2 * c.stream.writeOut.length + drainRank c.drainPc + if c.closePc = .fin then 1 else 0

theorem drainMeasure_le (c : Cell) : drainMeasure c ≤ 2 * c.stream.writeOut.length + 7 := by
  have hrank : drainRank c.drainPc ≤ 6 := by
    unfold drainRank
    split <;> omega
  unfold drainMeasure
  split <;> omega

/-- A step brings it nearer. -/
theorem drainMeasure_drain {b : Bool} (hc : CellDrain c b c' p) :
    drainMeasure c' < drainMeasure c := by
  cases hc with
  | take data rest flushing hpc hout =>
    cases flushing <;> simp [drainMeasure, drainRank, hpc, hout] <;> omega
  | takeFIN hpc | exit hpc => obtain hpc | hpc := hpc <;> simp [drainMeasure, drainRank, hpc]
  | enqueue data flushing hpc => cases flushing <;> simp [drainMeasure, drainRank, hpc]
  | sawClosed hpc | stateReset hpc | stateClosed hpc | flushed hpc | sendFIN hpc =>
    simp [drainMeasure, drainRank, hpc]

/-- So does a step of the session. -/
theorem drainMeasure_move (hm : Move s a s') (hown : OwnStep r a) :
    drainMeasure (s'.cells r) < drainMeasure (s.cells r) := by
  cases hm with
  | drain r' hr d c hc | drainSend r' hr d c p hc =>
    obtain rfl : r' = r := hown
    simpa using drainMeasure_drain hc
  | closeFin r' hr hpc =>
    obtain rfl : r' = r := hown
    simp [drainMeasure, hpc]
  | _ => exact hown.elim

/-- The open has not sent its STREAM_OPEN. -/
def Unsent (c : Cell) : Prop := c.openPc = .register ∨ c.openPc = .enqueue

theorem not_unsent {pc : OpenPc} (h : c.openPc = pc) (hregister : pc ≠ .register)
    (henqueue : pc ≠ .enqueue) : ¬ Unsent c := by
  rintro (hpc | hpc)
  · exact hregister (h.symm.trans hpc)
  · exact henqueue (h.symm.trans hpc)

theorem unsent_cell {rd : ReaderPc} (h : c.drainPc = .idle → Unsent c)
    (hm : CellMove a rd r c c') (hpc : c'.drainPc = .idle) : Unsent c' := by
  cases hm with
  | call k c' _ _ hc =>
    rw [Unsent, call_openPc hc]
    cases hc <;> exact h hpc
  | drain d b c' p _ hc =>
    cases hc with
    | enqueue data flushing => cases flushing <;> cases hpc
    | _ => cases hpc
  | register => exact .inr rfl
  | sendOpen => cases hpc
  | openAck ho | openCancel ho | openClosed ho | openCleanup _ ho | openRemove _ ho
  | openRemoveNone ho | openFailed _ ho | openFailedReset ho =>
    exact absurd (h hpc) (not_unsent ho nofun nofun)
  | _ => exact h hpc

/-- The drain goroutine runs once STREAM_OPEN is queued, and so for whoever holds the stream. -/
theorem started_reach (h : SessionReach role config ok s) : ∀ r < s.nextRef,
      ((s.cells r).drainPc = .idle → Unsent (s.cells r)) ∧
      ((s.cells r).handle = true → ¬ Unsent (s.cells r)) := by
  intro r hr
  apply cell_reach (fun c => (c.drainPc = .idle → Unsent c) ∧ (c.handle = true → ¬ Unsent c))
    h ?_ ?_ ?_ hr
  · intro s payload _
    exact ⟨fun _ => .inl rfl, nofun⟩
  · intro s p _
    exact ⟨nofun, nofun⟩
  · intro s a s' hreach _ hm hold hI
    refine ⟨unsent_cell hI.1 (move_cell hm hold), ?_⟩
    intro hh hun
    have hun₀ : Unsent (s.cells r) := by
      obtain heq | ⟨-, hreg⟩ := move_unsent hm hold hun
      · rwa [Unsent, heq]
      · exact .inl hreg
    obtain hh | hch | hret := move_handle hm hold hh
    · exact hI.2 hh hun₀
    · exact not_unsent ((wellFormed_reach hreach).acceptCh r hch).2 nofun nofun hun₀
    · exact not_unsent hret nofun nofun hun

/-- It stays at its end. -/
theorem done_move (hm : Move s a s') (hr : r < s.nextRef) (hC : CellInv (s.cells r))
    (h : (s.cells r).drainPc = .done) : (s'.cells r).drainPc = .done := by
  have hc := move_cell hm hr
  generalize s'.cells r = c' at hc ⊢
  cases hc with
  | call k c' _ _ hc => cases hc <;> exact h
  | drain d b c' p _ hc =>
    cases hc with
    | take _ _ flushing hpc => cases flushing <;> simp [h] at hpc
    | takeFIN hpc | exit hpc | sawClosed hpc | enqueue _ _ hpc | stateReset hpc | stateClosed hpc
    | flushed hpc | sendFIN hpc => simp [h] at hpc
  | sendOpen _ hpc =>
    rw [hC.unsent (.inr hpc)] at h
    cases h
  | _ => exact h

/-- The FIN of a closed half is pending until the drain goroutine is done. -/
theorem finPending_reach
    (h : SessionReach role config ok s) : ∀ r < s.nextRef, (s.cells r).hist.closedAt ≠ none →
      FinPending (s.cells r) ∨ (s.cells r).drainPc = .done := by
  intro r hr
  apply cell_reach (fun c => c.hist.closedAt ≠ none → FinPending c ∨ c.drainPc = .done)
    h ?_ ?_ ?_ hr
  · intro s payload _ hcl
    exact absurd rfl hcl
  · intro s p _ hcl
    exact absurd rfl hcl
  · intro s a s' hreach _ hm hold hI hcl
    have hC := cellInv_reach hreach r hold
    by_cases hopen : (s.cells r).hist.closedAt = none
    · exact .inl (cell_closes (move_cell hm hold) hopen hcl).2
    · obtain hfin | hdone := hI hopen
      · obtain hfin | ⟨⟨d, rfl⟩, hsend⟩ := cell_finPending hC (move_cell hm hold) hfin
        · exact .inl hfin
        · right
          cases hm with
          | drain _ _ _ _ hc | drainSend _ _ _ _ _ hc => simpa using (drain_sendFIN hc hsend).1
      · exact .inr (done_move hm hold hC hdone)

/-- The drain goroutine of a half that was closed has been started: only a holder closes it. -/
theorem started_of_closed (h : SessionReach role config ok s) (hr : r < s.nextRef)
    (hcl : (s.cells r).hist.closedAt ≠ none) : (s.cells r).drainPc ≠ .idle := by
  intro hidle
  obtain ⟨hunsent, hheld⟩ := started_reach h r hr
  cases hh : (s.cells r).handle with
  | false => exact hcl ((cellInv_reach h r hr).unheld hh).closedAt
  | true => exact hheld hh (hunsent hidle)

/-- What the goroutine can do, the session can. -/
theorem drain_enabled (hr : r < s.nextRef) {d : Drain}
    (h : (s.cells r).drain s.closed d = some (c, p)) :
    ∃ a s', OwnStep r a ∧ s.step a = some s' := by
  cases p with
  | none => exact ⟨.drain r d, s.setCell r c, rfl, by simp [Session.step, hr, h]⟩
  | some p =>
    exact ⟨.drain r d, (s.setCell r c).enqueue p .data, rfl, by simp [Session.step, hr, h]⟩

/-- A FIN that is neither in the channel nor with the drain goroutine is still to be sent. -/
theorem fin_enabled (hr : r < s.nextRef) (h : FinPending (s.cells r))
    (hpc : (s.cells r).drainPc = .select ∨ (s.cells r).drainPc = .awaitFIN) :
    ∃ a s', OwnStep r a ∧ s.step a = some s' := by
  cases hfin : (s.cells r).stream.finCh with
  | true =>
    have htake : (s.cells r).takeFIN.isSome := by simp [Cell.takeFIN, hfin]
    obtain ⟨c, hc⟩ := Option.isSome_iff_exists.mp htake
    refine drain_enabled hr (d := .fin) (c := c) (p := none) ?_
    obtain hpc | hpc := hpc <;> simp [Cell.drain, hpc, hc]
  | false =>
    have hclose : (s.cells r).closePc = .fin := by
      obtain hclose | hch | hdrain := h
      · exact hclose
      · rw [hfin] at hch
        cases hch
      · obtain hpc | hpc := hpc <;> simp [hpc, finishing] at hdrain
    exact ⟨.callback r .closeFin, _, rfl, (if_pos hr).trans (if_pos ⟨hclose, hfin⟩)⟩

/-- Until the drain goroutine is done there is a step for it. -/
theorem ownStep_enabled (hr : r < s.nextRef)
    (h : FinPending (s.cells r) ∨ (s.cells r).drainPc = .done)
    (hidle : (s.cells r).drainPc ≠ .idle) :
    (s.cells r).drainPc = .done ∨ ∃ a s', OwnStep r a ∧ s.step a = some s' := by
  obtain hfin | hdone := h
  · cases hpc : (s.cells r).drainPc with
    | idle => exact absurd hpc hidle
    | done => exact .inl rfl
    | select => exact .inr (fin_enabled hr hfin (.inl hpc))
    | awaitFIN => exact .inr (fin_enabled hr hfin (.inr hpc))
    | enqueue | sawClosed | sendFIN =>
      exact .inr (drain_enabled hr (d := .next) (by simp only [Cell.drain, hpc]; rfl))
    | flush =>
      right
      cases hout : (s.cells r).stream.writeOut with
      | nil => exact drain_enabled hr (d := .next) (by simp only [Cell.drain, hpc, hout]; rfl)
      | cons data rest =>
        exact drain_enabled hr (d := .data)
          (by simp only [Cell.drain, hpc, Cell.takeChunk, hout]; rfl)
  · exact .inl hdone

/-- Own steps keep the stream and the session as they are. -/
theorem ownStep_keeps (hm : Move s a s') (hown : OwnStep r a) :
    s'.closing = s.closing ∧ s'.nextRef = s.nextRef ∧
      (s'.cells r).stream.state = (s.cells r).stream.state := by
  have state : ∀ {c c' : Cell} {b : Bool} {p : Option Packet}, CellDrain c b c' p →
      c'.stream.state = c.stream.state := by
    intro c c' b p hc
    cases hc <;> rfl
  cases hm with
  | drain r' hr d c hc | drainSend r' hr d c p hc =>
    obtain rfl : r' = r := hown
    exact ⟨rfl, rfl, by simpa using state hc⟩
  | closeFin r' hr hpc =>
    obtain rfl : r' = r := hown
    exact ⟨rfl, rfl, by simp⟩
  | _ => exact hown.elim

/-- Own steps alone: there are only so many, and they keep what they start from. -/
theorem ownSteps_run {bs : List Action} (hr : r < s.nextRef)
    (h : exec (guarded Session.step fun _ a => OwnStep r a) s bs = some s') :
    bs.length ≤ 2 * (s.cells r).stream.writeOut.length + 7 ∧
    s'.closing = s.closing ∧ s'.nextRef = s.nextRef ∧
    (s'.cells r).stream.state = (s.cells r).stream.state ∧ Evolves (s.cells r) (s'.cells r) := by
  have hv := exec_variant (I := fun t => t.closing = s.closing ∧ t.nextRef = s.nextRef ∧
      (t.cells r).stream.state = (s.cells r).stream.state ∧ Evolves (s.cells r) (t.cells r))
    (fun t => drainMeasure (t.cells r)) h ⟨rfl, rfl, rfl, .refl _⟩ ?_
  · refine ⟨?_, hv.1⟩
    have hle := drainMeasure_le (s.cells r)
    omega
  · intro t a t' hI hown hstep
    have hm := step_move hstep
    obtain ⟨hI₁, hI₂, hI₃, hI₄⟩ := hI
    obtain ⟨hclosing, href, hst⟩ := ownStep_keeps hm hown
    refine ⟨⟨hclosing.trans hI₁, href.trans hI₂, hst.trans hI₃, hI₄.trans ?_⟩,
      drainMeasure_move hm hown⟩
    exact move_evolves hm r (hI₂ ▸ hr)

/-- In a stream that is not reset and a session that is not closed, when no Write puts its chunk
into `writeOut` after the flush has found it empty: of the chunks that were acknowledged the first
ones are queued, each as one STREAM_DATA and in their order, one may be in the drain goroutine's
hand and the others wait, and STREAM_CLOSE+FIN comes after all of them, once. When the local half is
closed, the steps of its FIN and of the drain goroutine come to an end, in every order, and only
when all is queued.
SOURCE: mux_session.go:322-382; stream_impl.go:105-124, 148-179 -/
theorem acked_chunks_enqueued {role : Role} {config : MuxConfig} {r : Ref} {as : List Action}
    (h : exec (guarded Session.step (SendsInTime r)) (newMuxSession role config) as = some s)
    (hr : r < s.nextRef) (hst : (s.cells r).stream.state ≠ .reset) (hrun : s.closing = .running) :
    (∃ sent, acked r as = sent ++ (s.cells r).inHand ++ (s.cells r).stream.writeOut ∧
      enqueued r (newMuxSession role config) as = sent.map (s.cells r).dataPacket ++
        (if (s.cells r).drainPc = .done then [(s.cells r).closePacket] else []) ∧
      ((s.cells r).drainPc = .done → sent = acked r as)) ∧
    ((s.cells r).stream.state.LocalClosed → ∀ bs s',
      exec (guarded Session.step fun _ a => OwnStep r a) s bs = some s' →
      bs.length ≤ 2 * (s.cells r).stream.writeOut.length + 7 ∧
      ((∃ a s'', OwnStep r a ∧ s'.step a = some s'') ∨
        (s'.cells r).stream.writeOut = [] ∧
        enqueued r (newMuxSession role config) (as ++ bs) =
          (acked r as).map (s.cells r).dataPacket ++ [(s.cells r).closePacket])) := by
  obtain ⟨hreach, hI⟩ := drainInv_run h
  have hD := hI.drained hr hrun hst
  refine ⟨?_, ?_⟩
  · obtain ⟨sent, hack, hsent⟩ := hD.split
    refine ⟨sent, hack, hsent, ?_⟩
    intro hdone
    obtain ⟨hout, hhand, -⟩ := hD.done hdone
    rw [hack, hhand, hout, List.append_nil, List.append_nil]
  · intro hlocal bs s' hbs
    obtain ⟨hlen, hrun', href, hst', hev⟩ := ownSteps_run hr hbs
    refine ⟨hlen, ?_⟩
    -- the own steps continue the run, and acknowledge nothing
    have hown : ∀ a ∈ bs, OwnStep r a := exec_forall hbs
    have hcont : exec (guarded Session.step (SendsInTime r)) (newMuxSession role config)
        (as ++ bs) = some s' := by
      rw [exec_append, h]
      refine exec_mono hbs ?_
      intro t a ha
      cases a <;> trivial
    have hquiet : acked r bs = [] := by
      refine acked_nil ?_
      rintro a ha data rfl
      exact (hown _ ha).elim
    obtain ⟨hreach', hI'⟩ := drainInv_run hcont
    rw [← href] at hr
    have hst₁ : (s'.cells r).stream.state ≠ .reset := hst' ▸ hst
    have hD' := hI'.drained hr (hrun'.trans hrun) hst₁
    have hclosed : (s'.cells r).hist.closedAt ≠ none :=
      (cellInv_reach hreach' r hr).localClosed (hst' ▸ hlocal)
    obtain hdone | hnext := ownStep_enabled hr (finPending_reach hreach' r hr hclosed)
      (started_of_closed hreach' hr hclosed)
    · right
      obtain ⟨hout, -, hall⟩ := hD'.done hdone
      refine ⟨hout, ?_⟩
      rw [hall, acked_append, hquiet, List.append_nil, hev.dataPacket, hev.closePacket]
    · exact .inl hnext

/-- The chunks of two Writes with a Close behind them. -/
def twoWritesRun : List Action :=
  acceptRun ++ [Action.call 0 (.write [1]), .call 0 (.writeSend [1]), .drain 0 .data,
    .call 0 (.write [2]), .call 0 (.writeSend [2]), .call 0 .close]

theorem acked_chunks_enqueued_twoWrites : ∃ s,
    exec (guarded Session.step (SendsInTime 0)) (newMuxSession .agent ⟨2, 262144, 1048576⟩)
      twoWritesRun = some s ∧ (s.cells 0).stream.state.LocalClosed ∧
    acked 0 twoWritesRun = [[1], [2]] ∧
    ∀ bs s', exec (guarded Session.step fun _ a => OwnStep 0 a) s bs = some s' →
      bs.length ≤ 9 ∧ ((∃ a s'', OwnStep 0 a ∧ s'.step a = some s'') ∨
        (s'.cells 0).stream.writeOut = [] ∧
        enqueued 0 (newMuxSession .agent ⟨2, 262144, 1048576⟩) (twoWritesRun ++ bs) =
          [(s.cells 0).dataPacket [1], (s.cells 0).dataPacket [2], (s.cells 0).closePacket]) := by
  have hex := exists_some_of_any (x := exec (guarded Session.step (SendsInTime 0))
      (newMuxSession .agent ⟨2, 262144, 1048576⟩) twoWritesRun)
    (fun s => 0 < s.nextRef ∧ (s.cells 0).stream.state = .halfClosedLocal ∧ s.closing = .running ∧
      (s.cells 0).stream.writeOut = [[2]]) (by decide)
  obtain ⟨s, hs, hr, hst, hrun, hout⟩ := hex
  have hall := (acked_chunks_enqueued hs hr (by simp [hst]) hrun).2 (.inl hst)
  rw [hout] at hall
  exact ⟨s, hs, .inl hst, by decide, hall⟩

/-- A Write passes its state check, Close closes the half, the drain goroutine finds `writeOut`
empty and queues the FIN, and only then the Write sends: it returns success and its chunk stays in
`writeOut`, with the drain goroutine gone. -/
theorem acked_chunk_left_behind : ∃ as s,
    exec Session.step (newMuxSession .agent ⟨2, 262144, 1048576⟩) as = some s ∧
    (s.cells 0).stream.state = .halfClosedLocal ∧ s.closing = .running ∧
    acked 0 as = [[7]] ∧ (s.cells 0).drainPc = .done ∧ (s.cells 0).stream.writeOut = [[7]] ∧
    enqueued 0 (newMuxSession .agent ⟨2, 262144, 1048576⟩) as = [(s.cells 0).closePacket] := by
  refine ⟨acceptRun ++ [Action.call 0 (.write [7]), .call 0 .close, .callback 0 .closeFin,
    .drain 0 .fin, .drain 0 .next, .drain 0 .next, .call 0 (.writeSend [7])], ?_⟩
  exact exists_some_of_any _ (by decide)

end Atlax.Analysis
