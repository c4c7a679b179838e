import Atlax.Model.Frame
import Mathlib.Data.Int.Basic

/-!
# One stream

`StreamSession` (stream_impl.go). Every method below is one section under the stream's mutex,
or the part of a method that is one: what a method does after it has released the mutex (the
FIN signal, the callbacks) is a step of its own and lives with the goroutines in
`Atlax.Model.Goroutine`.
-/

set_option autoImplicit false

namespace Atlax.Model

/-- SOURCE: stream.go:4-13 -/
inductive StreamState
  | idle
  | opened
  | halfClosedLocal
  | halfClosedRemote
  | closed
  | reset
  deriving DecidableEq, Repr

/-- Closed and Reset: the states no method leaves. -/
def StreamState.Terminal (st : StreamState) : Prop := st = .closed ∨ st = .reset

instance (st : StreamState) : Decidable st.Terminal := inferInstanceAs (Decidable (_ ∨ _))

/-- The local side has sent, or is bound to send, STREAM_CLOSE. -/
def StreamState.LocalClosed (st : StreamState) : Prop := st = .halfClosedLocal ∨ st = .closed

/-- The peer's STREAM_CLOSE has been applied. -/
def StreamState.RemoteClosed (st : StreamState) : Prop := st = .halfClosedRemote ∨ st = .closed

instance (st : StreamState) : Decidable st.RemoteClosed := inferInstanceAs (Decidable (_ ∨ _))

/-- The `StreamSession` record. `finCh` is the one-slot FIN channel (does it hold its token),
`closedCh` the channel that is closed at the end of the stream, `writeOut` the 64-slot channel
between Write and the drain goroutine.
SOURCE: stream_impl.go:12-50 -/
structure StreamSession where
  id : ℕ
  state : StreamState := .idle
  readBuf : Bytes := []
  recvWindow : ℤ := 0
  writeOut : List Bytes := []
  finCh : Bool := false
  closedCh : Bool := false
  openPayload : Bytes := []
  localCloseOnce : Bool := false
  resetOnce : Bool := false
  deriving DecidableEq, Repr

/-- The capacity of `writeOut`.
SOURCE: stream_impl.go:59 -/
def writeOutCap : ℕ := 64

/-- SOURCE: stream_impl.go:53-65 -/
def newStreamSession (id : ℕ) (window : ℤ) : StreamSession := { id := id, recvWindow := window }

/-- What a Read does: wait, return io.EOF, or return bytes. -/
inductive ReadResult
  | wait
  | eof
  | bytes (b : Bytes)
  deriving DecidableEq, Repr

namespace StreamSession

variable (s : StreamSession)

/-- SOURCE: stream_impl.go:250-255 -/
def isReadClosed : Bool :=
  s.state == .halfClosedRemote || s.state == .closed || s.state == .reset

/-- SOURCE: stream_impl.go:257-262 -/
def isWriteClosed : Bool :=
  s.state == .halfClosedLocal || s.state == .closed || s.state == .reset

/-- SOURCE: stream_impl.go:190-194 -/
def opened : StreamSession := { s with state := .opened }

/-- SOURCE: stream_impl.go:75 -/
def setOpenPayload (p : Bytes) : StreamSession := { s with openPayload := p }

/-- Read of at most `n` bytes.
SOURCE: stream_impl.go:87-103 -/
def read (n : ℕ) : ReadResult × StreamSession :=
  if s.readBuf = [] then
    if s.isReadClosed then (.eof, s) else (.wait, s)
  else (.bytes (s.readBuf.take n), { s with readBuf := s.readBuf.drop n })

/-- The section of Close, with `shouldNotify`. The callback's once-guard is taken here.
SOURCE: stream_impl.go:150-168 -/
def close : StreamSession × Bool :=
  match s.state with
  | .opened => ({ s with state := .halfClosedLocal, localCloseOnce := true }, !s.localCloseOnce)
  | .halfClosedRemote =>
    ({ s with state := .closed, closedCh := true, localCloseOnce := true }, !s.localCloseOnce)
  | _ => (s, false)

/-- SOURCE: stream_impl.go:198-204 -/
def deliver (data : Bytes) : StreamSession :=
  { s with readBuf := s.readBuf ++ data, recvWindow := s.recvWindow - data.length }

/-- SOURCE: stream_impl.go:207-221 -/
def remoteClose : StreamSession :=
  match s.state with
  | .opened => { s with state := .halfClosedRemote }
  | .halfClosedLocal => { s with state := .closed, closedCh := true }
  | _ => s

/-- The section of Reset; the flag says that the callback is to run.
SOURCE: stream_impl.go:224-242 -/
def reset : StreamSession × Bool :=
  if s.state = .reset ∨ s.state = .closed then (s, false)
  else ({ s with state := .reset, readBuf := [], closedCh := true, resetOnce := true },
    !s.resetOnce)

end StreamSession

end Atlax.Model
