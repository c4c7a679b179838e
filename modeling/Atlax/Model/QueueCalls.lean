import Atlax.Model.FlowWindow
import Atlax.Model.WriteQueue

/-!
# Calls on a write queue

A `WriteQueue` with all the Dequeue calls on it (write_queue.go). Enqueue and Close are one section
each. A Dequeue makes turns of its loop: in each it takes a frame, returns an error, or goes to
wait. It holds the mutex from the look at its context until `cond.Wait` has put it on the list of
those that wait (`parking`). The goroutine that watches its context broadcasts without the mutex, so
a Broadcast can come in between.
-/

set_option autoImplicit false

namespace Atlax.Model

/-- SOURCE: write_queue.go:9-12, 39-43 -/
def Priority.ofInt (priority : ℤ) : Priority := if priority = 0 then .control else .data

/-- The frames that wait with a priority, the oldest first. -/
def WriteQueue.frames (q : WriteQueue) : Priority → List Packet
  | .control => q.control
  | .data => q.data

/-- SOURCE: write_queue.go:64-66, 83-87 -/
inductive DequeueError
  | context (err : ContextError)
  | goAway
  deriving DecidableEq, Repr

/-- SOURCE: write_queue.go:64-66, 83-87, errors.go:26 -/
def DequeueError.text : DequeueError → String
  | .context err => err.text
  | .goAway => "received GOAWAY from peer"

/-- What a turn of the loop in Dequeue ends with; a frame comes with the list it was on. -/
inductive DequeueTurn
  | frame (priority : Priority) (p : Packet)
  | failed (err : DequeueError)
  | wait
  deriving DecidableEq, Repr

/-- One turn of Dequeue; `ctx` is what `ctx.Err` returns.
SOURCE: write_queue.go:63-87 -/
def WriteQueue.dequeueTurn (q : WriteQueue) (ctx : Option ContextError) :
    DequeueTurn × WriteQueue :=
  if q.control = [] ∧ q.data = [] ∧ q.closed = false then
    match ctx with
    | some err => (.failed (.context err), q)
    | none => (.wait, q)
  else
    match q.control, q.data with
    | p :: control, _ => (.frame .control p, { q with control := control })
    | [], p :: data => (.frame .data p, { q with data := data })
    | [], [] =>
      match ctx with
      | some err => (.failed (.context err), q)
      | none => (.failed .goAway, q)

/-- Where a Dequeue call stands.
SOURCE: write_queue.go:50-88 -/
inductive DequeuePc
  /-- before it takes the mutex, for the first time or after it has been woken -/
  | ready
  /-- past the look at its context, with the mutex, not yet among those that wait -/
  | parking
  /-- in `cond.Wait` -/
  | waiting
  | returned (result : Except DequeueError Packet)
  deriving DecidableEq

/-- What the call has returned, if it has. -/
def DequeuePc.result : DequeuePc → Option (Except DequeueError Packet)
  | .returned result => some result
  | .ready | .parking | .waiting => none

/-- A Dequeue call, with what its context's `Err` returns. -/
structure DequeueCall where
  ctx : Option ContextError := none
  pc : DequeuePc := .ready
  deriving DecidableEq

namespace DequeueCall

variable (c : DequeueCall)

/-- Signal or Broadcast as the call sees it. -/
def wake : DequeueCall := if c.pc = .waiting then { c with pc := .ready } else c

/-- The call after a turn. -/
def afterTurn : DequeueTurn → DequeueCall
  | .frame _ p => { c with pc := .returned (.ok p) }
  | .failed err => { c with pc := .returned (.error err) }
  | .wait => { c with pc := .parking }

end DequeueCall

/-- A queue and the Dequeue calls made on it. -/
structure QueueState where
  queue : WriteQueue := {}
  calls : List DequeueCall := []
  deriving DecidableEq

/-- The steps of a queue's callers. -/
inductive QueueAction
  /-- an Enqueue; its Signal wakes the call `woken`, if any call waits -/
  | enqueue (p : Packet) (priority : ℤ) (woken : Option ℕ)
  /-- a new Dequeue call -/
  | dequeue
  /-- call `i` takes the mutex and makes a turn of its loop -/
  | turn (i : ℕ)
  /-- call `i` joins those that wait and releases the mutex -/
  | park (i : ℕ)
  /-- the context of call `i` ends -/
  | ctxDone (i : ℕ) (err : ContextError)
  /-- the goroutine that call `i` has started sees the end of the context and broadcasts -/
  | notify (i : ℕ)
  | close
  deriving DecidableEq

namespace QueueState

variable (s : QueueState)

/-- No call holds the mutex between two steps. -/
def MutexFree : Prop := ∀ c ∈ s.calls, c.pc ≠ .parking

instance : Decidable s.MutexFree := inferInstanceAs (Decidable (∀ c ∈ s.calls, c.pc ≠ .parking))

/-- `cond.Broadcast`. -/
def broadcast : QueueState := { s with calls := s.calls.map DequeueCall.wake }

/-- `cond.Signal`: one of the calls that wait, if any does. -/
def signal : Option ℕ → Option QueueState
  | some i => do
    let c ← s.calls[i]?
    if c.pc = .waiting then some { s with calls := s.calls.set i c.wake } else none
  | none => if ∀ c ∈ s.calls, c.pc ≠ .waiting then some s else none

/-- SOURCE: write_queue.go:31-96 -/
def step : QueueAction → Option QueueState
  | .enqueue p priority woken =>
    if s.MutexFree then
      if s.queue.closed then some s
      else { s with queue := s.queue.enqueue p (.ofInt priority) }.signal woken
    else none
  | .dequeue => some { s with calls := s.calls ++ [{}] }
  | .turn i => do
    let c ← s.calls[i]?
    if c.pc = .ready ∧ s.MutexFree then
      some
        { queue := (s.queue.dequeueTurn c.ctx).2
          calls := s.calls.set i (c.afterTurn (s.queue.dequeueTurn c.ctx).1) }
    else none
  | .park i => do
    let c ← s.calls[i]?
    if c.pc = .parking then some { s with calls := s.calls.set i { c with pc := .waiting } }
    else none
  | .ctxDone i err => do
    let c ← s.calls[i]?
    if c.ctx = none then some { s with calls := s.calls.set i { c with ctx := some err } } else none
  | .notify i => do
    let c ← s.calls[i]?
    if c.ctx.isSome then some s.broadcast else none
  | .close => if s.MutexFree then some { s with queue := s.queue.close }.broadcast else none

/-- What call `i` has returned, if it has. -/
def result (i : ℕ) : Option (Except DequeueError Packet) := s.calls[i]?.bind fun c => c.pc.result

/-- The frame that a Dequeue returns with a step, if it was the first on the list of `priority`. -/
def returned (priority : Priority) (s : QueueState) (a : QueueAction) (s' : QueueState) :
    List Packet :=
  match a with
  | .turn i =>
    match s'.result i with
    | some (.ok p) => if s.queue.frames priority = p :: s'.queue.frames priority then [p] else []
    | _ => []
  | _ => []

end QueueState

end Atlax.Model
