import Atlax.Model.Frame

/-!
# The write queue

`WriteQueue` (write_queue.go): two FIFO lists, control before data, and a closed flag. Enqueue
and Dequeue are each one section under the queue's mutex; a Dequeue that would wait is a step
that is not enabled.
-/

set_option autoImplicit false

namespace Atlax.Model

/-- SOURCE: write_queue.go:8-12 -/
inductive Priority
  | control
  | data
  deriving DecidableEq, Repr

/-- SOURCE: write_queue.go:16-22 -/
structure WriteQueue where
  control : List Packet := []
  data : List Packet := []
  closed : Bool := false
  deriving DecidableEq, Repr

namespace WriteQueue

/-- SOURCE: write_queue.go:31-46 -/
def enqueue (q : WriteQueue) (p : Packet) (priority : Priority) : WriteQueue :=
  if q.closed then q
  else match priority with
    | .control => { q with control := q.control ++ [p] }
    | .data => { q with data := q.data ++ [p] }

/-- `none` is the wait on an empty queue (or ErrGoAway once it is closed).
SOURCE: write_queue.go:50-88 -/
def dequeue (q : WriteQueue) : Option (Packet × WriteQueue) :=
  match q.control, q.data with
  | p :: control, _ => some (p, { q with control := control })
  | [], p :: data => some (p, { q with data := data })
  | [], [] => none

/-- SOURCE: write_queue.go:91-96 -/
def close (q : WriteQueue) : WriteQueue := { q with closed := true }

/-- The packets that wait in the queue, at either priority. -/
def Holds (q : WriteQueue) (p : Packet) : Prop := p ∈ q.control ∨ p ∈ q.data

variable {q q' : WriteQueue} {p p' : Packet} {priority : Priority}

theorem holds_enqueue (h : (q.enqueue p priority).Holds p') : q.Holds p' ∨ p' = p := by
  unfold enqueue at h
  split at h
  · exact .inl h
  · cases priority <;> simp only [Holds, List.mem_append, List.mem_singleton] at h ⊢ <;> tauto

theorem dequeue_eq_some (h : q.dequeue = some (p, q')) :
    q = { q' with control := p :: q'.control } ∨
      q.control = [] ∧ q = { q' with data := p :: q'.data } := by
  unfold dequeue at h
  split at h <;> simp only [Option.some.injEq, Prod.mk.injEq, reduceCtorEq] at h
  · next hc =>
    obtain ⟨rfl, rfl⟩ := h
    exact .inl (by rw [← hc])
  · next hc hd =>
    obtain ⟨rfl, rfl⟩ := h
    exact .inr ⟨hc, by rw [← hd]⟩

/-- What is dequeued was in the queue. -/
theorem holds_dequeued (h : q.dequeue = some (p, q')) : q.Holds p := by
  rcases dequeue_eq_some h with hq | ⟨_, hq⟩ <;> rw [hq]
  · exact .inl List.mem_cons_self
  · exact .inr List.mem_cons_self

/-- What is left was in the queue. -/
theorem holds_of_dequeue (h : q.dequeue = some (p, q')) (h' : q'.Holds p') : q.Holds p' := by
  rcases dequeue_eq_some h with hq | ⟨_, hq⟩ <;> rw [hq]
  · exact h'.imp_left (List.mem_cons_of_mem _)
  · exact h'.imp_right (List.mem_cons_of_mem _)

theorem holds_enqueue_of (h : q.Holds p) :
    (q.enqueue p' priority).Holds p := by
  unfold enqueue
  split
  · exact h
  · cases priority <;> exact h.imp (by simp +contextual) (by simp +contextual)

/-- What was in the queue is taken, or left. -/
theorem holds_cases (h : q.dequeue = some (p, q')) (h' : q.Holds p') : p' = p ∨ q'.Holds p' := by
  unfold Holds at h' ⊢
  rcases dequeue_eq_some h with hq | ⟨_, hq⟩ <;> rw [hq] at h' <;>
    simp only [List.mem_cons] at h' <;> tauto

end WriteQueue

end Atlax.Model
