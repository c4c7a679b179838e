import Atlax.Model.Codec
import Atlax.Model.System

/-!
# Two sessions and the bytes between them

`Atlax.Model.System` joins two sessions by wires that carry packets. Here they are joined by what
they really have: a connection that carries bytes. `WriteFrame` hands the bytes of the frame in hand
to the transport in as many pieces as the transport likes, and the other side may read the first of
them before the last is written. `ReadFrame` gets what successive calls of `Read` return, in pieces
that have nothing to do with those that were written. The connection may break at any time, and then
any end of what is in flight may be lost.

The frame in hand is `Session.writer`; that the last byte is handed over is the step `transmit` of
the session, and that the last byte is read is its step `recv`. A conversation is history and not on
the wire (`Atlax.Model.Frame`): `tags` is the history of the frames in flight, and no step looks at
it.
-/

set_option autoImplicit false

namespace Atlax.Model

/-- Both sessions and the connection between them. -/
structure ByteLink where
  sess : Role → Session
  /-- what a side has written and its peer has not read -/
  wire : Role → Bytes
  /-- of the frame in hand, what has been handed to the transport -/
  begun : Role → Bytes
  /-- what `Read` has returned since `ReadFrame` was called -/
  got : Role → List Bytes
  /-- the read loop has returned -/
  readDone : Role → Bool
  /-- the connection is broken, or one side has closed it -/
  down : Bool
  /-- history: the conversations of the frames that are written and not read -/
  tags : Role → List (Option Conv)

def newByteLink (config : Role → MuxConfig) : ByteLink where
  sess X := newMuxSession X (config X)
  wire _ := []
  begun _ := []
  got _ := []
  readDone _ := false
  down := false
  tags _ := []

/-- What happens on a link. -/
inductive ByteLinkAction
  /-- a step of the session that is not about the transport -/
  | session (X : Role) (a : Action)
  /-- the transport takes the next `n` bytes of the frame in hand -/
  | write (X : Role) (n : ℕ)
  /-- `Read` returns `n` bytes -/
  | read (X : Role) (n : ℕ)
  /-- the connection breaks; of what is in flight from a side the first `k` bytes arrive -/
  | fail (k : Role → ℕ)
  /-- `ReadFrame` returns the transport's error -/
  | readError (X : Role)
  /-- `WriteFrame` returns the transport's error -/
  | writeError (X : Role)

namespace ByteLink

variable (L : ByteLink)

@[simps] def setSess (X : Role) (s : Session) : ByteLink :=
  { L with sess := Function.update L.sess X s }

/-- What both loops do on an error: `m.Close()`, unless closeCh is closed already.
SOURCE: mux_session.go:280-288, 308-317 -/
def closeSession (X : Role) : ByteLink :=
  match (L.sess X).step .closeSession with
  | some s => L.setSess X s
  | none => L

/-- The read loop's call of `ReadFrame`, one `Read` further. `ReadFull` asks for no more than the
frame needs: what lies behind the frame stays with the transport. An error of the input is no error
yet: more may come.
SOURCE: mux_session.go:277-292; frame_codec.go:26-53 -/
def read (X : Role) (n : ℕ) : Option ByteLink :=
  if 0 < n ∧ n ≤ (L.wire X.peer).length ∧ L.readDone X = false ∧ (L.sess X).reader = .idle ∧
      (L.sess X).closing ≠ .done then
    let pieces := L.got X ++ [(L.wire X.peer).take n]
    let rest := (L.wire X.peer).drop n
    match readFrame ⟨pieces⟩ with
    | (.ok f, r) =>
      ((L.sess X).step (.recv ⟨f.toFrame, (L.tags X.peer).headD none⟩)).map fun s =>
        { L.setSess X s with
          wire := Function.update L.wire X.peer (r.bytes ++ rest)
          got := Function.update L.got X []
          tags := Function.update L.tags X.peer (L.tags X.peer).tail }
    | (.error (.readHeader _), _) | (.error (.readPayload _), _) =>
      some { L with
        wire := Function.update L.wire X.peer rest
        got := Function.update L.got X pieces }
    | (.error _, _) =>
      -- a frame that is refused ends the read loop
      some { L.closeSession X with
        wire := Function.update L.wire X.peer rest
        got := Function.update L.got X pieces
        readDone := Function.update L.readDone X true }
  else none

/-- The write loop's call of `WriteFrame`, one `Write` of the transport further.
SOURCE: mux_session.go:295-320; frame_codec.go:57-88 -/
def write (X : Role) (n : ℕ) : Option ByteLink :=
  match (L.sess X).writer with
  | .write p =>
    match writeFrame [] (some p.frame.toWire) with
    | .ok b =>
      let piece := (b.drop (L.begun X).length).take n
      if 0 < n ∧ (L.begun X).length + n ≤ b.length ∧ L.down = false ∧
          (L.sess X).closing ≠ .done then
        if (L.begun X).length + n = b.length then
          ((L.sess X).step (.transmit p)).map fun s =>
            { L.setSess X s with
              wire := Function.update L.wire X (L.wire X ++ piece)
              begun := Function.update L.begun X []
              tags := Function.update L.tags X (L.tags X ++ [p.conv]) }
        else
          some { L with
            wire := Function.update L.wire X (L.wire X ++ piece)
            begun := Function.update L.begun X (L.begun X ++ piece) }
      else none
    | .error _ => none
  | _ => none

/-- One step of the link. -/
def step : ByteLinkAction → Option ByteLink
  | .session X a =>
    match a with
    | .recv _ | .transmit _ => none
    | a => ((L.sess X).step a).map (L.setSess X)
  | .write X n => L.write X n
  | .read X n => L.read X n
  | .fail k => some { L with wire := fun X => (L.wire X).take (k X), down := true }
  | .readError X =>
    if L.readDone X = false ∧ (L.sess X).reader = .idle ∧
        (L.down = true ∧ L.wire X.peer = [] ∨ (L.sess X).closing = .done) then
      some { L.closeSession X with readDone := Function.update L.readDone X true }
    else none
  | .writeError X =>
    -- the loop returns when its Close has: that is the session's `transmitFail`
    match (L.sess X).writer with
    | .write _ => if L.down = true then some (L.closeSession X) else none
    | _ => none

end ByteLink

end Atlax.Model
