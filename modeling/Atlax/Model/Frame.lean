import Mathlib.Algebra.Group.Nat.Defs
import Mathlib.Data.List.Basic

/-!
# Frames

The wire protocol's frames as the multiplexer sees them (frame.go): a command, two flag bits, a
32-bit stream identifier and a payload. A `Packet` is a frame together with the conversation it
was produced for. The conversation is history, not data: no function of the model branches on
it, and the wire does not carry it. It only lets a statement say on whose behalf a frame was
sent, when the stream identifier alone no longer tells.
-/

set_option autoImplicit false

namespace Atlax.Model

abbrev Bytes := List UInt8

instance : LawfulBEq Bytes := inferInstanceAs (LawfulBEq (List UInt8))

/-- The side of a connection; the relay owns the odd stream identifiers, the agent the even
ones.
SOURCE: mux_session.go:21-29 -/
inductive Role
  | relay
  | agent
  deriving DecidableEq, Repr

def Role.peer : Role → Role
  | .relay => .agent
  | .agent => .relay

@[simp] theorem Role.peer_peer (X : Role) : X.peer.peer = X := by cases X <;> rfl

@[simp] theorem Role.peer_ne (X : Role) : X.peer ≠ X := by cases X <;> decide

@[simp] theorem Role.ne_peer (X : Role) : X ≠ X.peer := by cases X <;> decide

theorem Role.eq_or_eq_peer (X Y : Role) : Y = X ∨ Y = X.peer := by cases X <;> cases Y <;> decide

/-- SOURCE: frame.go:20-42 -/
inductive Command
  | streamOpen
  | streamData
  | streamClose
  | streamReset
  | ping
  | pong
  | windowUpdate
  | goAway
  | udpBind
  | udpData
  | udpUnbind
  | updateManifest
  | updateBinary
  | serviceList
  /-- a byte that names no command -/
  | unknown (b : UInt8)
  deriving DecidableEq, Repr

/-- The two flag bits a handler tests; nothing reads the other six.
SOURCE: frame.go:76-82 -/
structure Flags where
  fin : Bool := false
  ack : Bool := false
  deriving DecidableEq, Repr

def protocolVersion : UInt8 := 0x01

/-- SOURCE: frame.go:16-17 -/
def maxPayloadSize : ℕ := 16 * 1024 * 1024

/-- SOURCE: frame.go:122 -/
def resetCodeProtocolError : ℕ := 2

/-- SOURCE: frame.go:98-106 -/
structure Frame where
  version : UInt8 := protocolVersion
  command : Command
  flags : Flags := {}
  streamID : ℕ
  payload : Bytes := []
  deriving DecidableEq, Repr

/-- `binary.BigEndian.PutUint32`. -/
def putUint32 (n : ℕ) : Bytes :=
  [UInt8.ofNat (n / 2 ^ 24), UInt8.ofNat (n / 2 ^ 16), UInt8.ofNat (n / 2 ^ 8), UInt8.ofNat n]

/-- `binary.BigEndian.Uint32` of the first four bytes. -/
def uint32 (b : Bytes) : ℕ :=
  (b.take 4).foldl (fun n x => n * 256 + x.toNat) 0

/-- A conversation: the `StreamSession` that an `OpenStream` call created, named by its side
and its place in that side's heap. The peer's `StreamSession` made from the call's
STREAM_OPEN belongs to the same conversation. -/
structure Conv where
  opener : Role
  ref : ℕ
  deriving DecidableEq, Repr

/-- A frame and the conversation on whose behalf it was produced; connection-level frames have
none. -/
structure Packet where
  frame : Frame
  conv : Option Conv := none
  deriving DecidableEq, Repr

namespace Packet

variable (p : Packet)

/-- A STREAM_OPEN that asks for a stream. -/
def isOpen : Bool := p.frame.command == .streamOpen && !p.frame.flags.ack

/-- The STREAM_OPEN+ACK that answers one. -/
def isAck : Bool := p.frame.command == .streamOpen && p.frame.flags.ack

def isData : Bool := p.frame.command == .streamData

def isClose : Bool := p.frame.command == .streamClose

def isReset : Bool := p.frame.command == .streamReset

end Packet

end Atlax.Model
