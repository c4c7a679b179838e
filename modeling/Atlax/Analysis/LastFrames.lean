import Atlax.Analysis.Endings
import Atlax.Analysis.QueuedFrames

/-!
# The GOAWAY before Close

Whoever ends a session calls GoAway and then Close. GoAway only queues its frame; Close closes
closeCh, the queue and the transport without waiting for the write loop, which stops as soon as it
sees closeCh. What has been transmitted, what the write loop has in hand and the control queue make
up one sequence that only grows at its end, so the frame has been written if Close closes the
transport when the write loop has taken it and has it no longer in hand, and it need not be
otherwise.
-/

set_option autoImplicit false

namespace Atlax.Analysis

open Atlax.Model Atlax.Library

variable {s s' : Session} {a : Action}

/-- The packets that a run writes to the transport. -/
def transmitted (as : List Action) : List Packet :=
  as.filterMap fun
    | .transmit p => some p
    | _ => none

theorem transmitted_append (as bs : List Action) :
    transmitted (as ++ bs) = transmitted as ++ transmitted bs := List.filterMap_append

/-- Close closes the transport when the packet is neither in the queue nor in the write loop's hand,
and no write fails before that.
SOURCE: mux_session.go:189-205, 294-320 -/
def AwaitsWriter (g : Packet) (s : Session) : Action → Prop
  | .closing => s.closing = .transport → g ∉ s.writer.hand ++ s.queue.control
  | .transmitFail => s.closing = .done
  | _ => True

instance (g : Packet) (s : Session) (a : Action) : Decidable (AwaitsWriter g s a) := by
  unfold AwaitsWriter
  split <;> infer_instance

/-! ## One sequence -/

theorem control_enqueue (q : WriteQueue) (p : Packet) (priority : Priority) :
    q.control <+: (q.enqueue p priority).control := by
  unfold WriteQueue.enqueue
  split
  · exact List.prefix_refl _
  · cases priority with
    | control => exact List.prefix_append _ _
    | data => exact List.prefix_refl _

/-- What is in hand or in the control queue goes out in that order, and nothing gets in front. -/
theorem control_move (hm : Move s a s') (hfail : a ≠ .transmitFail) :
    s.writer.hand ++ s.queue.control <+:
      transmitted [a] ++ (s'.writer.hand ++ s'.queue.control) := by
  cases hm with
  | writerCheck hw =>
    rw [hw, Session.setWriter_writer]
    split <;> exact List.prefix_refl _
  | dequeueExit hw | transmit p hw => rw [hw]; exact List.prefix_refl _
  | dequeue hw p q hq =>
    rw [hw]
    obtain hq | ⟨hnil, -⟩ := WriteQueue.dequeue_eq_some hq
    · rw [hq]
      exact List.prefix_refl _
    · -- a data packet is taken when no control packet waits
      rw [hnil]
      exact List.nil_prefix
  | transmitFail => exact absurd rfl hfail
  | sendOpen | resetSend | drainSend | handlePing | rejectOpen | acceptAck | goAwaySend | ping
  | sendServiceList => exact (List.prefix_append_right_inj _).mpr (control_enqueue _ _ _)
  | _ => exact List.prefix_refl _

/-- A prefix that ends with `g` ends before a part that has no `g`. -/
theorem prefix_of_last {W A B : List Packet} {g : Packet} (h : W ++ [g] <+: A ++ B) (hg : g ∉ B) :
    W ++ [g] <+: A := by
  obtain ⟨t, ht⟩ := h
  obtain ⟨c, hA, -⟩ | ⟨c, hW, hB⟩ := List.append_eq_append_iff.mp ht
  · rw [hA]
    exact List.prefix_append _ _
  · obtain rfl | ⟨c', g', rfl⟩ := c.eq_nil_or_concat'
    · rw [List.append_nil] at hW
      exact hW ▸ List.prefix_refl _
    · rw [← List.append_assoc] at hW
      obtain ⟨-, hlast⟩ := List.append_inj' hW rfl
      cases hlast
      rw [hB] at hg
      simp at hg

/-- Everything up to `g` is on its way while the transport is open, and transmitted when it is
closed. -/
structure OnItsWay (W : List Packet) (as : List Action) (s : Session) : Prop where
  queued : s.closing ≠ .done → W <+: transmitted as ++ (s.writer.hand ++ s.queue.control)
  sent : s.closing = .done → W <+: transmitted as

/-- A step keeps the frame on its way. -/
theorem onItsWay_move {W : List Packet} {g : Packet} {as : List Action} (hm : Move s a s')
    (hok : AwaitsWriter g s a) (h : OnItsWay (W ++ [g]) as s) :
    OnItsWay (W ++ [g]) (as ++ [a]) s' := by
  by_cases hdone : s.closing = .done
  · refine ⟨fun hopen => absurd (move_done hm hdone) hopen, fun _ => ?_⟩
    rw [transmitted_append]
    exact (h.sent hdone).trans (List.prefix_append _ _)
  · have hfail : a ≠ .transmitFail := by
      rintro rfl
      exact hdone hok
    have hqueued := h.queued hdone
    have grow : W ++ [g] <+: transmitted (as ++ [a]) ++ (s'.writer.hand ++ s'.queue.control) := by
      rw [transmitted_append, List.append_assoc]
      exact hqueued.trans ((List.prefix_append_right_inj _).mpr (control_move hm hfail))
    cases hm with
    | closeSession | closingQueue | closingStreams => exact ⟨fun _ => grow, by simp⟩
    | closingTransport hcl =>
      refine ⟨fun _ => grow, fun _ => ?_⟩
      rw [transmitted_append]
      exact (prefix_of_last hqueued (hok hcl)).trans (List.prefix_append _ _)
    | transmitFail => exact absurd rfl hfail
    | _ => exact ⟨fun _ => grow, fun hd => absurd hd hdone⟩

/-- When GoAway queues its frame in an open session, and from then on Close closes the transport
only when the frame has been taken from the queue and is not in the write loop's hand, and no write
fails on the open transport: by the time the transport is closed the frame has been written, right
after the control frames that were in front of it.
SOURCE: mux_session.go:189-232, 294-320 -/
theorem goAway_transmitted {role : Role} {config : MuxConfig} {s₁ : Session} {code : ℕ}
    {as : List Action} (h : SessionReach role config anyStep s) (hrun : s.closing = .running)
    (hgo : s.step (.goAwaySend code) = some s₁)
    (has : exec (guarded Session.step (AwaitsWriter (goAwayPacket s code))) s₁ as = some s')
    (hdone : s'.closing = .done) :
    s.writer.hand ++ s.queue.control ++ [goAwayPacket s code] <+: transmitted as := by
  have hopen : s.queue.closed = false :=
    (endingInv_reach h).queue_open (by simp [Session.closed, hrun])
  obtain rfl : s.enqueue (goAwayPacket s code) .control = s₁ := Option.some.inj hgo
  have hI := exec_invariant
    (OnItsWay (s.writer.hand ++ s.queue.control ++ [goAwayPacket s code])) has ?_ ?_
  · exact hI.2.sent hdone
  · refine ⟨fun _ => ?_, fun hd => by simp [hrun] at hd⟩
    simp [transmitted, WriteQueue.enqueue, hopen]
  · intro as a t t' _ hI hok hstep
    exact onItsWay_move (step_move hstep) hok hI

/-- A PONG waits in the queue when GoAway is called; Close begins when the write loop is past its
test of closeCh, and waits for it before it closes the transport. -/
theorem goAway_transmitted_pong : ∃ s s₁ s' as,
    SessionReach .relay ⟨2, 262144, 1048576⟩ anyStep s ∧ s.step (.goAwaySend 7) = some s₁ ∧
    exec (guarded Session.step (AwaitsWriter (goAwayPacket s 7))) s₁ as = some s' ∧
    s'.closing = .done ∧
    s.writer.hand ++ s.queue.control ++ [goAwayPacket s 7] <+: transmitted as := by
  have hex : ∃ s, SessionReach .relay ⟨2, 262144, 1048576⟩ anyStep s ∧ s.closing = .running ∧
      goAwayPacket s 7 = connPacket .goAway [0, 0, 0, 0, 0, 0, 0, 7] ∧
      ((s.step (.goAwaySend 7)).bind fun s₁ =>
        exec (guarded Session.step
          (AwaitsWriter (connPacket .goAway [0, 0, 0, 0, 0, 0, 0, 7]))) s₁
          [.writerCheck, .dequeue, .transmit (connPacket .pong [5]), .writerCheck, .closeSession,
            .closing, .dequeue, .transmit (connPacket .goAway [0, 0, 0, 0, 0, 0, 0, 7]),
            .closing, .closing]).any (fun s' => decide (s'.closing = .done)) = true :=
    exists_reach_of_exec [.recv (connPacket .ping [5]), .reader] _ (by decide)
  obtain ⟨s, hs, hrun, hg, hany⟩ := hex
  obtain ⟨s', hrest, hdone⟩ := exists_some_of_any (fun s' : Session => s'.closing = .done) hany
  obtain ⟨s₁, hgo, has⟩ := Option.bind_eq_some_iff.mp hrest
  rw [← hg] at has
  exact ⟨s, s₁, s', _, hs, hgo, has, hdone, goAway_transmitted hs hrun hgo has hdone⟩

/-- GoAway and then Close on a new session: the write loop sees closeCh first and stops with the
GOAWAY in the queue; or it has taken the frame, and the transport is closed before it is written. -/
theorem goAway_lost :
    (∃ s s₁ s' as, SessionReach .relay ⟨2, 262144, 1048576⟩ anyStep s ∧ s.closing = .running ∧
      s.step (.goAwaySend 0) = some s₁ ∧ exec Session.step s₁ as = some s' ∧
      s'.closing = .done ∧ transmitted as = [] ∧ s'.writer = .exited) ∧
    (∃ s s₁ s' as, SessionReach .relay ⟨2, 262144, 1048576⟩ anyStep s ∧ s.closing = .running ∧
      s.step (.goAwaySend 0) = some s₁ ∧ exec Session.step s₁ as = some s' ∧
      s'.closing = .done ∧ transmitted as = [] ∧ s'.writer = .write (goAwayPacket s 0)) := by
  have hs : SessionReach .relay ⟨2, 262144, 1048576⟩ anyStep
      { newMuxSession .relay ⟨2, 262144, 1048576⟩ with goingAway := true } :=
    .of_exec [.goAway] rfl
  constructor
  · exact ⟨_, _, _, [.closeSession, .writerCheck, .closing, .closing, .closing], hs, rfl, rfl, rfl,
      rfl, rfl, rfl⟩
  · exact ⟨_, _, _, [.writerCheck, .dequeue, .closeSession, .closing, .closing, .closing], hs, rfl,
      rfl, rfl, rfl, rfl, rfl⟩

end Atlax.Analysis
