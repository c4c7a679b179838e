import Mathlib.Data.List.Basic

/-!
# The flow-control window

`FlowWindow` (window.go) counts in int32 under one mutex. Update and Reset are one section each. A
Consume makes turns of its loop: in each it takes what it needs, gives up because its context has
ended, or waits on the condition variable until somebody broadcasts. `WindowState` is a window with
all the Consume calls on it, waiting, woken or done.
-/

set_option autoImplicit false

namespace Atlax.Model

/-- SOURCE: window.go:15-20 -/
structure FlowWindow where
  available : Int32
  initialSize : Int32
  deriving DecidableEq, Repr

/-- SOURCE: window.go:23-30 -/
def newFlowWindow (initialSize : Int32) : FlowWindow := ⟨initialSize, initialSize⟩

/-- What `ctx.Err` returns once a context has ended. -/
inductive ContextError
  | canceled
  | deadlineExceeded
  deriving DecidableEq, Repr

def ContextError.text : ContextError → String
  | .canceled => "context canceled"
  | .deadlineExceeded => "context deadline exceeded"

/-- SOURCE: window.go:52, 65, 73-74 -/
inductive WindowError
  | consume (err : ContextError)
  | zeroIncrement
  | overflow (available increment : Int32) (newSize : Int64)
  deriving DecidableEq, Repr

/-- SOURCE: window.go:52, 65, 73-74, errors.go:27-28 -/
def WindowError.text : WindowError → String
  | .consume err => s!"window: consume: {err.text}"
  | .zeroIncrement => "window: update: window update increment must be positive"
  | .overflow available increment newSize =>
    let sum := s!"{available.toInt} + {increment.toInt} = {newSize.toInt}"
    s!"window: update: window size would exceed maximum (2^31-1): {sum}"

/-- What a turn of the loop in Consume ends with. -/
inductive ConsumeTurn
  | taken
  | failed (err : WindowError)
  | wait
  deriving DecidableEq, Repr

namespace FlowWindow

variable (w : FlowWindow)

/-- One turn of the loop in Consume; `ctx` is what `ctx.Err` returns.
SOURCE: window.go:50-58 -/
def consume (n : Int32) (ctx : Option ContextError) : ConsumeTurn × FlowWindow :=
  if w.available < n then
    match ctx with
    | some err => (.failed (.consume err), w)
    | none => (.wait, w)
  else (.taken, { w with available := w.available - n })

/-- SOURCE: window.go:63-80 -/
def update (increment : Int32) : Except WindowError Unit × FlowWindow :=
  if increment ≤ 0 then (.error .zeroIncrement, w)
  else
    let newSize := w.available.toInt64 + increment.toInt64
    if newSize > Int32.maxValue.toInt64 then
      (.error (.overflow w.available increment newSize), w)
    else (.ok (), { w with available := newSize.toInt32 })

/-- SOURCE: window.go:91-96 -/
def reset : FlowWindow := { w with available := w.initialSize }

end FlowWindow

/-- Where a Consume call stands.
SOURCE: window.go:35-59 -/
inductive ConsumePc
  /-- before it takes the mutex, for the first time or after a Broadcast -/
  | ready
  /-- in `cond.Wait` -/
  | waiting
  | returned (result : Except WindowError Unit)
  deriving DecidableEq

/-- What the call has returned, if it has. -/
def ConsumePc.result : ConsumePc → Option (Except WindowError Unit)
  | .returned result => some result
  | .ready | .waiting => none

/-- A Consume call, with what its context's `Err` returns. -/
structure ConsumeCall where
  n : Int32
  ctx : Option ContextError := none
  pc : ConsumePc := .ready
  deriving DecidableEq

/-- `cond.Broadcast` as the call sees it. -/
def ConsumeCall.wake (c : ConsumeCall) : ConsumeCall :=
  if c.pc = .waiting then { c with pc := .ready } else c

/-- A window and the Consume calls made on it. -/
structure WindowState where
  window : FlowWindow
  calls : List ConsumeCall := []
  deriving DecidableEq

/-- The steps of a window's callers. -/
inductive WindowAction
  /-- a new Consume call -/
  | call (n : Int32)
  /-- call `i` takes the mutex and makes a turn of its loop -/
  | turn (i : ℕ)
  /-- the context of call `i` ends -/
  | ctxDone (i : ℕ) (err : ContextError)
  /-- the goroutine that call `i` has started sees the end of the context and broadcasts -/
  | notify (i : ℕ)
  | update (increment : Int32)
  | reset
  deriving DecidableEq

namespace WindowState

variable (s : WindowState)

/-- `cond.Broadcast`. -/
def broadcast : WindowState := { s with calls := s.calls.map ConsumeCall.wake }

/-- The call after a turn. -/
def afterTurn (c : ConsumeCall) : ConsumeTurn → ConsumeCall
  | .taken => { c with pc := .returned (.ok ()) }
  | .failed err => { c with pc := .returned (.error err) }
  | .wait => { c with pc := .waiting }

/-- SOURCE: window.go:35-96 -/
def step : WindowAction → Option WindowState
  | .call n => some { s with calls := s.calls ++ [{ n := n }] }
  | .turn i => do
    let c ← s.calls[i]?
    if c.pc = .ready then
      some
        { window := (s.window.consume c.n c.ctx).2
          calls := s.calls.set i (afterTurn c (s.window.consume c.n c.ctx).1) }
    else none
  | .ctxDone i err => do
    let c ← s.calls[i]?
    if c.ctx = none then some { s with calls := s.calls.set i { c with ctx := some err } } else none
  | .notify i => do
    let c ← s.calls[i]?
    if c.ctx.isSome then some s.broadcast else none
  | .update increment =>
    match s.window.update increment with
    | (.ok (), w) => some { s with window := w }.broadcast
    | (.error _, w) => some { s with window := w }
  | .reset => some { s with window := s.window.reset }.broadcast

/-- What the call that returns with a step to `s'` returns, if one does; Reset returns nothing. -/
def returns (s : WindowState) (a : WindowAction) (s' : WindowState) :
    Option (Except WindowError Unit) :=
  match a with
  | .turn i => s'.calls[i]?.bind fun c => c.pc.result
  | .update increment => some (s.window.update increment).1
  | .call _ | .ctxDone _ _ | .notify _ | .reset => none

end WindowState

end Atlax.Model
