import Atlax.Model.Frame

/-!
# The frame codec

`FrameCodec` (frame_codec.go) turns a frame into a 12-byte header and its payload, and back. On the
wire a frame has a command byte and a flags byte, of which the sessions look at some values and bits
only (`Frame`). The input is what successive calls of `Read` return: `io.ReadFull` puts the pieces
together.
-/

set_option autoImplicit false

namespace Atlax.Model

/-- A frame on the wire; a nil payload is an empty one.
SOURCE: frame.go:98-106 -/
structure WireFrame where
  version : UInt8
  command : UInt8
  flags : UInt8
  streamID : UInt32
  payload : Bytes
  deriving DecidableEq, Repr

/-- The byte of a command.
SOURCE: frame.go:23-41 -/
def Command.toByte : Command → UInt8
  | .streamOpen => 0x01
  | .streamData => 0x02
  | .streamClose => 0x03
  | .streamReset => 0x04
  | .ping => 0x05
  | .pong => 0x06
  | .windowUpdate => 0x07
  | .goAway => 0x08
  | .udpBind => 0x09
  | .udpData => 0x0A
  | .udpUnbind => 0x0B
  | .updateManifest => 0x0C
  | .updateBinary => 0x0D
  | .serviceList => 0x0E
  | .unknown b => b

/-- The command of a byte. -/
def Command.ofByte : UInt8 → Command
  | 0x01 => .streamOpen
  | 0x02 => .streamData
  | 0x03 => .streamClose
  | 0x04 => .streamReset
  | 0x05 => .ping
  | 0x06 => .pong
  | 0x07 => .windowUpdate
  | 0x08 => .goAway
  | 0x09 => .udpBind
  | 0x0A => .udpData
  | 0x0B => .udpUnbind
  | 0x0C => .updateManifest
  | 0x0D => .updateBinary
  | 0x0E => .serviceList
  | b => .unknown b

/-- SOURCE: frame.go:79-82 -/
def Flags.toByte (f : Flags) : UInt8 := (if f.fin then 0x01 else 0) ||| (if f.ack then 0x02 else 0)

/-- The two bits that are tested. -/
def Flags.ofByte (b : UInt8) : Flags := ⟨b &&& 0x01 != 0, b &&& 0x02 != 0⟩

/-- A frame of a session as the codec gets it. -/
def Frame.toWire (f : Frame) : WireFrame where
  version := f.version
  command := f.command.toByte
  flags := f.flags.toByte
  streamID := UInt32.ofNat f.streamID
  payload := f.payload

/-- What a session sees of a frame that the codec has read. -/
def WireFrame.toFrame (f : WireFrame) : Frame where
  version := f.version
  command := .ofByte f.command
  flags := .ofByte f.flags
  streamID := f.streamID.toNat
  payload := f.payload

/-- SOURCE: frame.go:13-14 -/
def headerSize : ℕ := 12

/-- The errors of `io.ReadFull`: nothing was read, or too little. -/
inductive ReadError
  | eof
  | unexpectedEOF
  deriving DecidableEq, Repr

def ReadError.text : ReadError → String
  | .eof => "EOF"
  | .unexpectedEOF => "unexpected EOF"

/-- A byte as `%02x` prints it. -/
def hexByte (b : UInt8) : String :=
  String.ofList [Nat.digitChar (b.toNat / 16), Nat.digitChar (b.toNat % 16)]

/-- SOURCE: frame_codec.go:28-104 -/
inductive CodecError
  | readHeader (err : ReadError)
  | readPayload (err : ReadError)
  | unsupportedVersion (version : UInt8)
  | payloadLength (n : ℕ)
  | nilFrame
  | payloadSize (n : ℕ)
  deriving DecidableEq, Repr

/-- SOURCE: frame_codec.go:31, 51, 59, 64-65, 93-94, 99-100, errors.go:25 -/
def CodecError.text : CodecError → String
  | .readHeader err => s!"frame: read header: {err.text}"
  | .readPayload err => s!"frame: read payload: {err.text}"
  | .unsupportedVersion version =>
    s!"frame: invalid frame: unsupported version 0x{hexByte version}"
  | .payloadLength n => s!"frame: invalid frame: payload length {n} exceeds max {maxPayloadSize}"
  | .nilFrame => "frame: write: invalid frame: nil frame"
  | .payloadSize n => s!"frame: write: invalid frame: payload size {n} exceeds max {maxPayloadSize}"

/-- An `io.Reader` that ends after the given pieces; `Read` returns the next one, or as much of it
as fits into the buffer. -/
structure Reader where
  pieces : List Bytes

namespace Reader

/-- Everything that is still to be read. -/
def bytes (r : Reader) : Bytes := r.pieces.flatten

/-- The loop of `io.ReadFull` with `need` bytes of the buffer still to fill. -/
def fill : ℕ → Bytes → List Bytes → Except ReadError Bytes × Reader
  | 0, got, pieces => (.ok got, ⟨pieces⟩)
  | _ + 1, got, [] => (.error (if got = [] then .eof else .unexpectedEOF), ⟨[]⟩)
  | need + 1, got, piece :: pieces =>
    if piece.length ≤ need + 1 then fill (need + 1 - piece.length) (got ++ piece) pieces
    else (.ok (got ++ piece.take (need + 1)), ⟨piece.drop (need + 1) :: pieces⟩)

/-- `io.ReadFull` with a buffer of `n` bytes. -/
def readFull (r : Reader) (n : ℕ) : Except ReadError Bytes × Reader := fill n [] r.pieces

end Reader

/-- SOURCE: frame_codec.go:91-104 -/
def validateHeader (hdr : Bytes) : Except CodecError Unit :=
  if hdr.getD 0 0 ≠ protocolVersion then .error (.unsupportedVersion (hdr.getD 0 0))
  else if uint32 (hdr.drop 8) > maxPayloadSize then .error (.payloadLength (uint32 (hdr.drop 8)))
  else .ok ()

/-- SOURCE: frame_codec.go:26-53 -/
def readFrame (r : Reader) : Except CodecError WireFrame × Reader :=
  match r.readFull headerSize with
  | (.error err, r) => (.error (.readHeader err), r)
  | (.ok hdr, r) =>
    match validateHeader hdr with
    | .error err => (.error err, r)
    | .ok () =>
      let payloadLen := uint32 (hdr.drop 8)
      let frame : WireFrame :=
        { version := hdr.getD 0 0
          command := hdr.getD 1 0
          flags := hdr.getD 2 0
          streamID := UInt32.ofNat (uint32 (hdr.drop 4))
          payload := [] }
      if payloadLen > 0 then
        match r.readFull payloadLen with
        | (.error err, r) => (.error (.readPayload err), r)
        | (.ok payload, r) => (.ok { frame with payload := payload }, r)
      else (.ok frame, r)

/-- The header `WriteFrame` builds; the reserved byte is zero.
SOURCE: frame_codec.go:69-75 -/
def WireFrame.header (f : WireFrame) : Bytes :=
  [f.version, f.command, f.flags, 0x00] ++ putUint32 f.streamID.toNat ++ putUint32 f.payload.length

/-- `WriteFrame` to a buffer that holds `w`; no frame is the nil frame.
SOURCE: frame_codec.go:57-88 -/
def writeFrame (w : Bytes) : Option WireFrame → Except CodecError Bytes
  | none => .error .nilFrame
  | some f =>
    if f.payload.length > maxPayloadSize then .error (.payloadSize f.payload.length)
    else if f.payload.length > 0 then .ok (w ++ f.header ++ f.payload)
    else .ok (w ++ f.header)

/-- The frames are written to one buffer, one after the other. -/
def writeFrames (w : Bytes) (fs : List WireFrame) : Except CodecError Bytes :=
  fs.foldlM (fun w f => writeFrame w (some f)) w

end Atlax.Model
