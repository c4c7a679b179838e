import Atlax.Model.Stream

/-!
# Whole calls on a stream

The methods of `StreamSession` that change a stream, each from its call to its return
(stream_impl.go). Close and Reset release the mutex before they send the FIN token and run a
callback. `Atlax.Model.Goroutine` makes that a step of its own, for calls that overlap; here a call
returns before the next one begins. Nobody receives from `finCh`: a Close that finds its one slot
taken does not return.
-/

set_option autoImplicit false

namespace Atlax.Model

/-- SOURCE: stream_impl.go:148-242 -/
inductive StreamCall
  | close
  | remoteClose
  | reset (code : ℕ)
  | deliver (data : Bytes)
  deriving DecidableEq, Repr

/-- What a call does outside the mutex: it sends the token, it runs a callback. -/
inductive StreamEvent
  | fin
  | onLocalClose (id : ℕ)
  | onReset (id code : ℕ)
  deriving DecidableEq, Repr

def StreamEvent.isLocalClose : StreamEvent → Bool
  | .onLocalClose _ => true
  | _ => false

def StreamEvent.isReset : StreamEvent → Bool
  | .onReset _ _ => true
  | _ => false

/-- Which callbacks are set; the others are nil.
SOURCE: stream_impl.go:38-49, 132-146 -/
structure StreamCallbacks where
  onLocalClose : Bool
  onReset : Bool
  deriving DecidableEq, Repr

namespace StreamSession

variable (callbacks : StreamCallbacks) (s : StreamSession)

/-- A Close to its return; `none` is the wait for a free slot of `finCh`.
SOURCE: stream_impl.go:150-180 -/
def closeCall : Option (StreamSession × List StreamEvent) :=
  match s.close with
  | (s', false) => some (s', [])
  | (s', true) =>
    if s'.finCh then none
    else some ({ s' with finCh := true },
      .fin :: if callbacks.onLocalClose then [.onLocalClose s'.id] else [])

/-- SOURCE: stream_impl.go:224-242 -/
def resetCall (code : ℕ) : StreamSession × List StreamEvent :=
  match s.reset with
  | (s', false) => (s', [])
  | (s', true) => (s', if callbacks.onReset then [.onReset s'.id code] else [])

/-- SOURCE: stream_impl.go:148-242 -/
def call : StreamCall → Option (StreamSession × List StreamEvent)
  | .close => s.closeCall callbacks
  | .remoteClose => some (s.remoteClose, [])
  | .reset code => some (s.resetCall callbacks code)
  | .deliver data => some (s.deliver data, [])

/-- The stream after a call. -/
def step (k : StreamCall) : Option StreamSession := (s.call callbacks k).map Prod.fst

/-- What a call does outside the mutex. -/
def events (k : StreamCall) (_ : StreamSession) : List StreamEvent :=
  ((s.call callbacks k).map Prod.snd).getD []

end StreamSession

end Atlax.Model
