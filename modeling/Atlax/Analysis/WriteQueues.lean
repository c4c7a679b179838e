import Atlax.Library.Run
import Atlax.Model.QueueCalls
import Mathlib.Data.List.TakeWhile

/-!
# The write queue under any interleaving

What is dequeued and what is still queued are, at each priority, the frames that were enqueued
before Close, in their order. A data frame is returned only past an empty control list, ErrGoAway
only by a queue that is closed and empty. And no wake-up is lost to an Enqueue or a Close: while a
call waits, the queue is open and there is a call under way for every queued frame.
-/

set_option autoImplicit false

namespace Atlax.Analysis

open Atlax.Model Atlax.Library

/-! ## One turn -/

section Turns

variable {q : WriteQueue} {ctx : Option ContextError}

/-- What a turn does: the head of the control list, else the head of the data list, else an error or
the wait. -/
theorem dequeueTurn_cases (q : WriteQueue) (ctx : Option ContextError) :
    (∃ p control, q.control = p :: control ∧
      q.dequeueTurn ctx = (.frame .control p, { q with control := control })) ∨
    (∃ p data, q.control = [] ∧ q.data = p :: data ∧
      q.dequeueTurn ctx = (.frame .data p, { q with data := data })) ∨
    (q.control = [] ∧ q.data = [] ∧ ∃ err, q.dequeueTurn ctx = (.failed err, q) ∧
      (err = .goAway → q.closed = true)) ∨
    (q.control = [] ∧ q.data = [] ∧ q.closed = false ∧ q.dequeueTurn ctx = (.wait, q)) := by
  obtain ⟨control, data, closed⟩ := q
  cases control with
  | cons p control => exact .inl ⟨p, control, rfl, by simp [WriteQueue.dequeueTurn]⟩
  | nil =>
    right
    cases data with
    | cons p data => exact .inl ⟨p, data, rfl, rfl, by simp [WriteQueue.dequeueTurn]⟩
    | nil =>
      right
      cases ctx with
      | some err => exact .inl ⟨rfl, rfl, .context err, by simp [WriteQueue.dequeueTurn], by simp⟩
      | none =>
        cases closed with
        | true => exact .inl ⟨rfl, rfl, .goAway, by simp [WriteQueue.dequeueTurn], fun _ => rfl⟩
        | false => exact .inr ⟨rfl, rfl, rfl, by simp [WriteQueue.dequeueTurn]⟩

theorem dequeueTurn_closed : (q.dequeueTurn ctx).2.closed = q.closed := by
  obtain ⟨p, control, -, hturn⟩ | ⟨p, data, -, -, hturn⟩ | ⟨-, -, err, hturn, -⟩ |
    ⟨-, -, -, hturn⟩ := dequeueTurn_cases q ctx <;> rw [hturn]

/-- The dequeue of a session's writer is a turn that takes a frame. -/
theorem dequeue_eq_some_iff {p : Packet} {q' : WriteQueue} :
    q.dequeue = some (p, q') ↔ ∃ priority, q.dequeueTurn ctx = (.frame priority p, q') := by
  obtain ⟨p₁, control, hc, hturn⟩ | ⟨p₁, data, hc, hd, hturn⟩ | ⟨hc, hd, err, hturn, -⟩ |
    ⟨hc, hd, -, hturn⟩ := dequeueTurn_cases q ctx <;> rw [hturn]
  · simp [WriteQueue.dequeue, hc]
  · simp [WriteQueue.dequeue, hc, hd]
  · simp [WriteQueue.dequeue, hc, hd]
  · simp [WriteQueue.dequeue, hc, hd]

theorem frames_enqueue (q : WriteQueue) (p : Packet) (priority priority' : Priority) :
    (q.enqueue p priority').frames priority = q.frames priority ++
      if q.closed = true then [] else if priority' = priority then [p] else [] := by
  unfold WriteQueue.enqueue
  split
  · simp
  · cases priority <;> cases priority' <;> simp [WriteQueue.frames]

theorem enqueue_closed (q : WriteQueue) (p : Packet) (priority : Priority) :
    (q.enqueue p priority).closed = q.closed := by
  unfold WriteQueue.enqueue
  split
  · rfl
  · cases priority <;> rfl

end Turns

/-! ## One step -/

/-- The steps, with what they ask for and what they do. -/
inductive QueueMove (s : QueueState) : QueueAction → QueueState → Prop
  | ignored {p : Packet} {priority : ℤ} {woken : Option ℕ} (hmutex : s.MutexFree)
      (hclosed : s.queue.closed = true) : QueueMove s (.enqueue p priority woken) s
  | woke {p : Packet} {priority : ℤ} {i : ℕ} {c : DequeueCall} (hmutex : s.MutexFree)
      (hopen : s.queue.closed = false) (hc : s.calls[i]? = some c) (hpc : c.pc = .waiting) :
      QueueMove s (.enqueue p priority (some i))
        { queue := s.queue.enqueue p (.ofInt priority)
          calls := s.calls.set i { c with pc := .ready } }
  | unheard {p : Packet} {priority : ℤ} (hmutex : s.MutexFree) (hopen : s.queue.closed = false)
      (hnone : ∀ c ∈ s.calls, c.pc ≠ .waiting) :
      QueueMove s (.enqueue p priority none)
        { s with queue := s.queue.enqueue p (.ofInt priority) }
  | called : QueueMove s .dequeue { s with calls := s.calls ++ [{}] }
  | turned {i : ℕ} {c : DequeueCall} (hmutex : s.MutexFree) (hc : s.calls[i]? = some c)
      (hpc : c.pc = .ready) :
      QueueMove s (.turn i)
        { queue := (s.queue.dequeueTurn c.ctx).2
          calls := s.calls.set i (c.afterTurn (s.queue.dequeueTurn c.ctx).1) }
  | parked {i : ℕ} {c : DequeueCall} (hc : s.calls[i]? = some c) (hpc : c.pc = .parking) :
      QueueMove s (.park i) { s with calls := s.calls.set i { c with pc := .waiting } }
  | ended {i : ℕ} {c : DequeueCall} {err : ContextError} (hc : s.calls[i]? = some c) :
      QueueMove s (.ctxDone i err) { s with calls := s.calls.set i { c with ctx := some err } }
  | notified {i : ℕ} : QueueMove s (.notify i) s.broadcast
  | closed (hmutex : s.MutexFree) :
      QueueMove s .close { s with queue := s.queue.close }.broadcast

variable {s s' : QueueState} {a : QueueAction} {as : List QueueAction} {i : ℕ}

/-- Every step is one of these moves. -/
theorem queueMove_of_step (h : s.step a = some s') : QueueMove s a s' := by
  cases a with
  | enqueue p priority woken =>
    rw [QueueState.step, Option.ite_none_right_eq_some] at h
    obtain ⟨hmutex, h⟩ := h
    split at h
    · next hclosed =>
      cases h
      exact .ignored hmutex hclosed
    · next hopen =>
      have hopen : s.queue.closed = false := by simpa using hopen
      cases woken with
      | some i =>
        simp only [QueueState.signal, Option.bind_eq_bind, Option.bind_eq_some_iff,
          Option.ite_none_right_eq_some] at h
        obtain ⟨c, hc, hpc, h⟩ := h
        cases h
        rw [DequeueCall.wake, if_pos hpc]
        exact .woke hmutex hopen hc hpc
      | none =>
        rw [QueueState.signal, Option.ite_none_right_eq_some] at h
        obtain ⟨hnone, h⟩ := h
        cases h
        exact .unheard hmutex hopen hnone
  | dequeue =>
    cases h
    exact .called
  | turn i =>
    simp only [QueueState.step, Option.bind_eq_bind, Option.bind_eq_some_iff,
      Option.ite_none_right_eq_some] at h
    obtain ⟨c, hc, ⟨hpc, hmutex⟩, h⟩ := h
    cases h
    exact .turned hmutex hc hpc
  | park i =>
    simp only [QueueState.step, Option.bind_eq_bind, Option.bind_eq_some_iff,
      Option.ite_none_right_eq_some] at h
    obtain ⟨c, hc, hpc, h⟩ := h
    cases h
    exact .parked hc hpc
  | ctxDone i err =>
    simp only [QueueState.step, Option.bind_eq_bind, Option.bind_eq_some_iff,
      Option.ite_none_right_eq_some] at h
    obtain ⟨c, hc, -, h⟩ := h
    cases h
    exact .ended hc
  | notify i =>
    simp only [QueueState.step, Option.bind_eq_bind, Option.bind_eq_some_iff,
      Option.ite_none_right_eq_some] at h
    obtain ⟨c, hc, -, h⟩ := h
    cases h
    exact .notified
  | close =>
    rw [QueueState.step, Option.ite_none_right_eq_some] at h
    obtain ⟨hmutex, h⟩ := h
    cases h
    exact .closed hmutex

/-! ## What is returned -/

/-- The call that makes a turn. -/
theorem result_set {c c' : DequeueCall} {q : WriteQueue} (hc : s.calls[i]? = some c) :
    QueueState.result ⟨q, s.calls.set i c'⟩ i = c'.pc.result := by
  simp [QueueState.result, List.getElem?_set_self (List.getElem?_eq_some_iff.mp hc).1]

/-- A change of a call that leaves what it has returned. -/
theorem result_set_same {c c' : DequeueCall} {q : WriteQueue} (hc : s.calls[i]? = some c)
    (h : c'.pc.result = c.pc.result) (j : ℕ) :
    QueueState.result ⟨q, s.calls.set i c'⟩ j = s.result j := by
  by_cases hij : i = j
  · subst hij
    rw [result_set hc, h, QueueState.result, hc]
    rfl
  · simp [QueueState.result, List.getElem?_set_ne hij]

theorem result_wake (c : DequeueCall) : c.wake.pc.result = c.pc.result := by
  unfold DequeueCall.wake
  split
  · next hpc => simp [hpc, DequeuePc.result]
  · rfl

/-- A broadcast ends no call. -/
theorem result_broadcast (i : ℕ) : s.broadcast.result i = s.result i := by
  simp only [QueueState.result, QueueState.broadcast, List.getElem?_map]
  cases s.calls[i]? with
  | none => rfl
  | some c => exact result_wake c

/-- A call returns in a turn of its own, and what it has returned stays. -/
theorem result_step (hm : QueueMove s a s') (h : s'.result i ≠ s.result i) :
    s.result i = none ∧ a = .turn i := by
  cases hm with
  | ignored | unheard => exact absurd rfl h
  | woke _ _ hc hpc | parked hc hpc =>
    exact absurd (result_set_same hc (by simp [hpc, DequeuePc.result]) i) h
  | ended hc =>
    refine absurd (result_set_same hc ?_ i) h
    rfl
  | notified | closed => exact absurd (result_broadcast i) h
  | called =>
    refine absurd ?_ h
    by_cases hi : i < s.calls.length
    · simp [QueueState.result, List.getElem?_append_left hi]
    · have hnew : ([{}] : List DequeueCall)[i - s.calls.length]?.bind (fun c => c.pc.result) =
          none := by
        cases i - s.calls.length <;> rfl
      simpa [QueueState.result, List.getElem?_append_right (Nat.le_of_not_lt hi),
        List.getElem?_eq_none (Nat.le_of_not_lt hi)] using hnew
  | @turned j c _ hc hpc =>
    by_cases hij : j = i
    · subst hij
      simp [QueueState.result, hc, hpc, DequeuePc.result]
    · refine absurd ?_ h
      simp [QueueState.result, List.getElem?_set_ne hij]

/-- The call that makes a turn returns the first control frame, or the first data frame if there is
no control frame, or it finds both lists empty. -/
theorem turn_result (hm : QueueMove s (.turn i) s') :
    (∃ p, s'.result i = some (.ok p) ∧ s.queue.control = p :: s'.queue.control ∧
      s'.queue.data = s.queue.data) ∨
    (∃ p, s'.result i = some (.ok p) ∧ s.queue.control = [] ∧ s'.queue.control = [] ∧
      s.queue.data = p :: s'.queue.data) ∨
    s.queue.control = [] ∧ s.queue.data = [] ∧ s'.queue = s.queue ∧
      (∀ p, s'.result i ≠ some (.ok p)) ∧
      (s'.result i = some (.error .goAway) → s.queue.closed = true) := by
  cases hm with
  | @turned _ c _ hc =>
    obtain ⟨p, control, hq, hturn⟩ | ⟨p, data, hq, hd, hturn⟩ | ⟨hq, hd, err, hturn, hgo⟩ |
      ⟨hq, hd, -, hturn⟩ := dequeueTurn_cases s.queue c.ctx <;>
      rw [hturn, result_set hc] <;> simp_all [DequeueCall.afterTurn, DequeuePc.result]

/-! ## What is enqueued and what is returned -/

/-- The frames that are enqueued with a priority, in order. -/
def enqueuedFrames (priority : Priority) (as : List QueueAction) : List Packet :=
  as.filterMap fun
    | .enqueue p priority' _ => if Priority.ofInt priority' = priority then some p else none
    | _ => none

/-- The steps before the first Close. -/
def beforeClose (as : List QueueAction) : List QueueAction := as.takeWhile (· ≠ .close)

theorem beforeClose_of_not_mem (h : .close ∉ as) : beforeClose as = as := by
  refine List.takeWhile_eq_self_iff.mpr ?_
  intro a ha
  exact decide_eq_true fun heq => h (heq ▸ ha)

/-- After the Close nothing is added. -/
theorem beforeClose_concat_of_mem (h : .close ∈ as) (a : QueueAction) :
    beforeClose (as ++ [a]) = beforeClose as := by
  obtain ⟨pre, post, rfl⟩ := List.append_of_mem h
  induction pre with
  | nil => simp [beforeClose]
  | cons b pre ih =>
    have ih := ih (by simp)
    by_cases hb : b = .close <;> simp_all [beforeClose]

theorem enqueuedFrames_concat (priority : Priority) (h : .close ∉ as) (a : QueueAction) :
    enqueuedFrames priority (beforeClose (as ++ [a])) =
      enqueuedFrames priority as ++ enqueuedFrames priority [a] := by
  by_cases ha : a = .close
  · have htake : beforeClose (as ++ [a]) = as := by
      rw [beforeClose, List.takeWhile_append_of_pos, ha]
      · simp
      · intro b hb
        exact decide_eq_true fun heq => h (heq ▸ hb)
    rw [htake, ha]
    simp [enqueuedFrames]
  · have hopen : .close ∉ as ++ [a] := by simpa [h] using Ne.symm ha
    rw [beforeClose_of_not_mem hopen, enqueuedFrames, List.filterMap_append]
    rfl

/-- At each priority a turn returns what it takes off the front. -/
theorem returned_turn (hm : QueueMove s (.turn i) s') (priority : Priority) :
    QueueState.returned priority s (.turn i) s' ++ s'.queue.frames priority =
      s.queue.frames priority := by
  obtain ⟨p, hres, hc, hd⟩ | ⟨p, hres, hc, hc', hd⟩ | ⟨-, -, hq, hres, -⟩ := turn_result hm
  · cases priority <;> simp [QueueState.returned, WriteQueue.frames, hres, hc, hd]
  · cases priority <;> simp [QueueState.returned, WriteQueue.frames, hres, hc, hc', hd]
  · have hnone : QueueState.returned priority s (.turn i) s' = [] := by
      simp [QueueState.returned]
    rw [hnone, hq, List.nil_append]

/-- At each priority a step takes what it returns off the front, and adds what it enqueues at the
end. -/
theorem returned_append_frames (hm : QueueMove s a s') (priority : Priority) :
    QueueState.returned priority s a s' ++ s'.queue.frames priority = s.queue.frames priority ++
      if s.queue.closed = true then [] else enqueuedFrames priority [a] := by
  cases hm with
  | ignored _ hclosed => simp [QueueState.returned, hclosed]
  | @woke p priority' i c _ hopen _ _ | @unheard p priority' _ hopen _ =>
    have hq := frames_enqueue s.queue p priority (.ofInt priority')
    by_cases heq : Priority.ofInt priority' = priority <;>
      simp_all [QueueState.returned, enqueuedFrames]
  | turned hmutex hc hpc =>
    rw [returned_turn (.turned hmutex hc hpc)]
    simp [enqueuedFrames]
  | called | parked | ended => simp [QueueState.returned, enqueuedFrames]
  | notified => simp [QueueState.returned, enqueuedFrames, QueueState.broadcast]
  | closed =>
    cases priority <;>
      simp [QueueState.returned, enqueuedFrames, QueueState.broadcast,
        WriteQueue.close, WriteQueue.frames]

/-- Only Close closes the queue. -/
theorem closed_step (hm : QueueMove s a s') :
    s'.queue.closed = true ↔ s.queue.closed = true ∨ a = .close := by
  cases hm with
  | woke => simp [enqueue_closed]
  | unheard => simp [enqueue_closed]
  | turned => simp [dequeueTurn_closed]
  | closed => simp [QueueState.broadcast, WriteQueue.close]
  | _ => simp [QueueState.broadcast]

/-- What is kept along a run. -/
structure Conserved (as : List QueueAction) (s : QueueState) : Prop where
  closed : s.queue.closed = true ↔ .close ∈ as
  frames : ∀ priority, outputs QueueState.step (QueueState.returned priority) {} as ++
    s.queue.frames priority = enqueuedFrames priority (beforeClose as)

/-- One step keeps the account. -/
theorem Conserved.step (h : Conserved as s) (hexec : exec QueueState.step {} as = some s)
    (hstep : s.step a = some s') : Conserved (as ++ [a]) s' := by
  have hm := queueMove_of_step hstep
  refine ⟨?_, ?_⟩
  · rw [closed_step hm, h.closed]
    simp [eq_comm]
  · intro priority
    rw [outputs_concat hexec hstep, List.append_assoc, returned_append_frames hm,
      ← List.append_assoc, h.frames]
    by_cases hclose : .close ∈ as
    · rw [if_pos (h.closed.mpr hclose), List.append_nil, beforeClose_concat_of_mem hclose]
    · rw [if_neg (fun hclosed => hclose (h.closed.mp hclosed)), beforeClose_of_not_mem hclose,
        enqueuedFrames_concat priority hclose]

/-- Every run keeps the account. -/
theorem conserved (h : exec QueueState.step {} as = some s) : Conserved as s := by
  have hI := exec_invariant Conserved (by rwa [guarded_anyStep]) ?_ ?_
  · exact hI.2
  · refine ⟨by simp, ?_⟩
    intro priority
    cases priority <;> rfl
  · intro as a s s' hexec hI _ hstep
    exact hI.step hexec hstep

/-- Every interleaving of Enqueue, Dequeue and Close: at each priority the frames that Dequeue calls
have returned so far and those still queued are the ones enqueued before Close, in their order. A
call returns once, in a step of its own; the frame it returns is the first control frame, or the
first data frame when no control frame is queued, and it is taken off its list; and ErrGoAway is
returned only when the queue is closed and empty.
SOURCE: write_queue.go:14-96 -/
theorem writeQueue_fifo {as : List QueueAction} {s : QueueState}
    (h : exec QueueState.step {} as = some s) :
    (∀ priority, outputs QueueState.step (QueueState.returned priority) {} as ++
      s.queue.frames priority = enqueuedFrames priority (as.takeWhile (· ≠ .close))) ∧
    (∀ a s' i, s.step a = some s' → s'.result i ≠ s.result i → s.result i = none ∧ a = .turn i) ∧
    (∀ i s' p, s.step (.turn i) = some s' → s'.result i = some (.ok p) →
      s.queue.control = p :: s'.queue.control ∧ s'.queue.data = s.queue.data ∨
      s.queue.control = [] ∧ s'.queue.control = [] ∧ s.queue.data = p :: s'.queue.data) ∧
    ∀ i s', s.step (.turn i) = some s' → s'.result i = some (.error .goAway) →
      s.queue.closed = true ∧ s.queue.control = [] ∧ s.queue.data = [] := by
  refine ⟨(conserved h).frames, ?_, ?_, ?_⟩
  · intro a s' i hstep
    exact result_step (queueMove_of_step hstep)
  · intro i s' p hstep hp
    obtain ⟨p', hres, hctl⟩ | ⟨p', hres, hdata⟩ | ⟨-, -, -, hnot, -⟩ :=
      turn_result (queueMove_of_step hstep)
    · cases hres.symm.trans hp
      exact .inl hctl
    · cases hres.symm.trans hp
      exact .inr hdata
    · exact absurd hp (hnot p)
  · intro i s' hstep hgo
    obtain ⟨p, hres, -⟩ | ⟨p, hres, -⟩ | ⟨hc, hd, -, -, hclosed⟩ :=
      turn_result (queueMove_of_step hstep)
    · cases hres.symm.trans hgo
    · cases hres.symm.trans hgo
    · exact ⟨hclosed hgo, hc, hd⟩

def queuedPing : Packet := ⟨{ command := .ping, streamID := 0, payload := [1] }, none⟩

def queuedData (n : UInt8) : Packet :=
  ⟨{ command := .streamData, streamID := 1, payload := [n] }, none⟩

/-- A Dequeue waits and is woken for a data frame, but a PING comes before its turn. A second call
is canceled, and takes the data frame all the same. The last Enqueue races with Close and is
late. -/
def mixedCalls : List QueueAction :=
  [.dequeue, .turn 0, .park 0, .enqueue (queuedData 1) 1 (some 0), .enqueue queuedPing 0 none,
    .turn 0, .dequeue, .ctxDone 1 .canceled, .turn 1, .close, .enqueue (queuedData 2) 1 none]

theorem writeQueue_fifo_mixedCalls :
    ∃ s, exec QueueState.step {} mixedCalls = some s ∧ s.result 0 = some (.ok queuedPing) ∧
      s.result 1 = some (.ok (queuedData 1)) ∧
      ∀ priority, outputs QueueState.step (QueueState.returned priority) {} mixedCalls ++
        s.queue.frames priority = enqueuedFrames priority (mixedCalls.takeWhile (· ≠ .close)) := by
  obtain ⟨s, hs, h₀, h₁⟩ := exists_some_of_any (x := exec QueueState.step {} mixedCalls)
    (fun s => s.result 0 = some (.ok queuedPing) ∧ s.result 1 = some (.ok (queuedData 1)))
    (by decide)
  exact ⟨s, hs, h₀, h₁, (writeQueue_fifo hs).1⟩

/-! ## Wake-ups -/

/-- How many frames are queued. -/
def backlog (q : WriteQueue) : ℕ := q.control.length + q.data.length

/-- How many calls are about to make a turn. -/
def readyCalls (s : QueueState) : ℕ := s.calls.countP (·.pc = .ready)

/-- While a call waits, the queue is open and every queued frame has a call that will look for
one. -/
def Served (s : QueueState) : Prop :=
  ∀ c ∈ s.calls, c.pc = .parking ∨ c.pc = .waiting →
    s.queue.closed = false ∧ backlog s.queue ≤ readyCalls s

theorem backlog_enqueue (q : WriteQueue) (p : Packet) (priority : Priority) :
    backlog (q.enqueue p priority) ≤ backlog q + 1 := by
  unfold WriteQueue.enqueue
  split
  · exact Nat.le_succ _
  · cases priority <;> simp only [backlog, List.length_append, List.length_singleton] <;> omega

/-- One call changes: what that does to the number of ready ones. -/
theorem countP_ready_set {calls : List DequeueCall} {c : DequeueCall}
    (hc : calls[i]? = some c) (c' : DequeueCall) :
    (calls.set i c').countP (·.pc = .ready) + (if c.pc = .ready then 1 else 0) =
      calls.countP (·.pc = .ready) + (if c'.pc = .ready then 1 else 0) := by
  obtain ⟨hi, rfl⟩ := List.getElem?_eq_some_iff.mp hc
  have hle := List.boole_getElem_le_countP (p := fun c => decide (c.pc = .ready)) hi
  have hset := List.countP_set (p := fun c => decide (c.pc = .ready)) (a := c') hi
  simp only [decide_eq_true_eq] at hle hset
  omega

/-- A call that has changed, or one that was there before. -/
theorem mem_set_cases {calls : List DequeueCall} {c c' : DequeueCall}
    (h : c ∈ calls.set i c') : c = c' ∨ c ∈ calls := (List.mem_or_eq_of_mem_set h).symm

/-- A call that still waits after a Broadcast was not yet among those that wait. -/
theorem parking_of_wake {c : DequeueCall} (h : c.wake.pc = .parking ∨ c.wake.pc = .waiting) :
    c.pc = .parking := by
  unfold DequeueCall.wake at h
  split at h
  · simp at h
  · next hnot => exact h.resolve_right hnot

theorem readyCalls_broadcast (s : QueueState) : readyCalls s ≤ readyCalls s.broadcast := by
  simp only [readyCalls, QueueState.broadcast, List.countP_map]
  refine List.countP_mono_left ?_
  intro c _ hready
  have hpc : c.pc = .ready := of_decide_eq_true hready
  simp [DequeueCall.wake, hpc]

theorem backlog_turn (q : WriteQueue) (ctx : Option ContextError) :
    backlog (q.dequeueTurn ctx).2 = backlog q - 1 := by
  obtain ⟨p, control, hc, hturn⟩ | ⟨p, data, hc, hd, hturn⟩ | ⟨hc, hd, err, hturn, -⟩ |
    ⟨hc, hd, -, hturn⟩ := dequeueTurn_cases q ctx <;> rw [hturn]
  · simp only [backlog, hc, List.length_cons]
    omega
  · simp only [backlog, hc, hd, List.length_cons, List.length_nil]
    omega
  · simp [backlog, hc, hd]
  · simp [backlog, hc, hd]

/-- A turn waits only on an open queue that is empty. -/
theorem dequeueTurn_wait {q : WriteQueue} {ctx : Option ContextError}
    (h : (q.dequeueTurn ctx).1 = .wait) : q.closed = false ∧ backlog q = 0 := by
  obtain ⟨p, control, -, hturn⟩ | ⟨p, data, -, -, hturn⟩ | ⟨-, -, err, hturn, -⟩ |
    ⟨hc, hd, hopen, hturn⟩ := dequeueTurn_cases q ctx
  · rw [hturn] at h
    cases h
  · rw [hturn] at h
    cases h
  · rw [hturn] at h
    cases h
  · exact ⟨hopen, by simp [backlog, hc, hd]⟩

/-- A turn: the call that makes it takes a frame with it, or finds none. -/
theorem Served.turn (h : Served s) {c : DequeueCall} (hc : s.calls[i]? = some c)
    (hpc : c.pc = .ready) :
    Served
      { queue := (s.queue.dequeueTurn c.ctx).2
        calls := s.calls.set i (c.afterTurn (s.queue.dequeueTurn c.ctx).1) } := by
  have hbacklog := backlog_turn s.queue c.ctx
  intro c' hc' hw
  rw [dequeueTurn_closed]
  by_cases hwait : (s.queue.dequeueTurn c.ctx).1 = .wait
  · obtain ⟨hopen, hzero⟩ := dequeueTurn_wait hwait
    refine ⟨hopen, ?_⟩
    show backlog (s.queue.dequeueTurn c.ctx).2 ≤ _
    omega
  · -- the call has returned, so the one that waits did so before
    have hgone : (c.afterTurn (s.queue.dequeueTurn c.ctx).1).pc ≠ .ready ∧
        ¬((c.afterTurn (s.queue.dequeueTurn c.ctx).1).pc = .parking ∨
          (c.afterTurn (s.queue.dequeueTurn c.ctx).1).pc = .waiting) := by
      cases hturn : (s.queue.dequeueTurn c.ctx).1 with
      | wait => exact absurd hturn hwait
      | _ => simp [DequeueCall.afterTurn]
    have hcount := countP_ready_set hc (c.afterTurn (s.queue.dequeueTurn c.ctx).1)
    rw [if_pos hpc, if_neg hgone.1] at hcount
    obtain rfl | hc' := mem_set_cases hc'
    · exact absurd hw hgone.2
    · obtain ⟨hopen, hle⟩ := h c' hc' hw
      refine ⟨hopen, ?_⟩
      simp only [readyCalls] at hle ⊢
      omega

/-- One step leaves no frame without a call that looks. -/
theorem Served.step (h : Served s) (hm : QueueMove s a s') : Served s' := by
  cases hm with
  | ignored => exact h
  | @woke p priority i c _ hopen hc hpc =>
    intro _ _ _
    obtain ⟨-, hle⟩ := h c (List.mem_of_getElem? hc) (.inr hpc)
    refine ⟨by rw [enqueue_closed]; exact hopen, ?_⟩
    have hcount := countP_ready_set hc { c with pc := .ready }
    have hmore := backlog_enqueue s.queue p (.ofInt priority)
    rw [if_neg (by rw [hpc]; simp), if_pos rfl] at hcount
    simp only [readyCalls] at hle ⊢
    omega
  | unheard hmutex _ hnone =>
    intro c hc hw
    obtain hw | hw := hw
    · exact absurd hw (hmutex c hc)
    · exact absurd hw (hnone c hc)
  | called =>
    intro c hc hw
    obtain hc | hc := List.mem_append.mp hc
    · obtain ⟨hopen, hle⟩ := h c hc hw
      refine ⟨hopen, ?_⟩
      simp only [readyCalls, List.countP_append] at hle ⊢
      omega
    · rw [List.mem_singleton.mp hc] at hw
      simp at hw
  | turned _ hc hpc => exact h.turn hc hpc
  | @parked i c hc hpc =>
    intro _ _ _
    obtain ⟨hopen, hle⟩ := h c (List.mem_of_getElem? hc) (.inl hpc)
    have hcount := countP_ready_set hc { c with pc := .waiting }
    rw [if_neg (by rw [hpc]; simp), if_neg (by simp)] at hcount
    refine ⟨hopen, ?_⟩
    simp only [readyCalls] at hle ⊢
    omega
  | @ended i c err hc =>
    intro c' hc' hw
    have hcount := Nat.add_right_cancel (countP_ready_set hc { c with ctx := some err })
    have hold : s.queue.closed = false ∧ backlog s.queue ≤ readyCalls s := by
      obtain rfl | hc' := mem_set_cases hc'
      · exact h c (List.mem_of_getElem? hc) hw
      · exact h c' hc' hw
    exact ⟨hold.1, Nat.le_trans hold.2 (Nat.le_of_eq hcount.symm)⟩
  | notified =>
    intro c' hc' hw
    obtain ⟨c, hc, rfl⟩ := List.mem_map.mp hc'
    obtain ⟨hopen, hle⟩ := h c hc (.inl (parking_of_wake hw))
    exact ⟨hopen, Nat.le_trans hle (readyCalls_broadcast s)⟩
  | closed hmutex =>
    intro c' hc' hw
    obtain ⟨c, hc, rfl⟩ := List.mem_map.mp hc'
    exact absurd (parking_of_wake hw) (hmutex c hc)

/-- No wake-up is lost to an Enqueue or a Close: while a Dequeue waits, or is about to, the queue is
open, and for every queued frame there is a call that has been woken or has just begun.
SOURCE: write_queue.go:31-96 -/
theorem dequeue_wakeups {as : List QueueAction} {s : QueueState}
    (h : exec QueueState.step {} as = some s) {c : DequeueCall} (hc : c ∈ s.calls)
    (hw : c.pc = .parking ∨ c.pc = .waiting) :
    s.queue.closed = false ∧ backlog s.queue ≤ readyCalls s := by
  have hI := exec_invariant (fun _ => Served) (by rwa [guarded_anyStep]) ?_ ?_
  · exact hI.2 c hc hw
  · intro c hc
    cases hc
  · intro _ a s s' _ hI _ hstep
    exact hI.step (queueMove_of_step hstep)

/-- Two calls wait, and an Enqueue wakes one of them. -/
theorem dequeue_wakeups_two :
    ∃ s : QueueState, (∃ c ∈ s.calls, c.pc = .waiting) ∧ backlog s.queue = 1 ∧
      s.queue.closed = false ∧ backlog s.queue ≤ readyCalls s := by
  obtain ⟨s, hs, ⟨c, hc, hw⟩, hone⟩ := exists_some_of_any
    (x := exec QueueState.step {} [.dequeue, .turn 0, .park 0, .dequeue, .turn 1, .park 1,
      .enqueue queuedPing 0 (some 0)])
    (fun s => (∃ c ∈ s.calls, c.pc = .waiting) ∧ backlog s.queue = 1) (by decide)
  exact ⟨s, ⟨c, hc, hw⟩, hone, dequeue_wakeups hs hc (.inr hw)⟩

end Atlax.Analysis
