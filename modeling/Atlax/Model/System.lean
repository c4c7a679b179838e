import Atlax.Model.Session
import Atlax.Library.Run

/-!
# Two sessions and the wire between them

The relay's session and the agent's session, joined by two FIFO wires. A step of the system is a
step of one side; reading a packet takes it from the head of the peer's wire, and transmitting one
puts it at the end of one's own. A wire carries packets rather than bytes: the codec is
self-delimiting and writes each frame whole, in the order of the write loop.
-/

set_option autoImplicit false

namespace Atlax.Model

open Atlax.Library

/-- Both sessions; `wire X` holds what `X` has sent and its peer has not read, oldest first. -/
structure System where
  sess : Role → Session
  wire : Role → List Packet

def newSystem (config : Role → MuxConfig) : System where
  sess X := newMuxSession X (config X)
  wire _ := []

namespace System

variable (S : System)

/-- What a step of side `X` does to the wires. -/
def wireStep (X : Role) : Action → Option (Role → List Packet)
  | .recv p =>
    match S.wire X.peer with
    | p' :: rest => if p' = p then some (Function.update S.wire X.peer rest) else none
    | [] => none
  | .transmit p => some (Function.update S.wire X (S.wire X ++ [p]))
  | _ => some S.wire

/-- One step of one side. -/
def step : Role × Action → Option System
  | (X, a) =>
    match (S.sess X).step a, S.wireStep X a with
    | some s, some w => some ⟨Function.update S.sess X s, w⟩
    | _, _ => none

end System

/-- A session alone: the peer may send anything. -/
def SessionReach (role : Role) (config : MuxConfig) (ok : Session → Action → Prop) :
    Session → Prop :=
  Reach Session.step ok (newMuxSession role config)

/-- The joined sessions. -/
def SystemReach (config : Role → MuxConfig) (ok : System → Role × Action → Prop) : System → Prop :=
  Reach System.step ok (newSystem config)

end Atlax.Model
