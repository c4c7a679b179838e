import Atlax.Model.Frame

/-!
# UDP datagrams

The payload of a UDP_DATA frame (udp.go) is a byte with the length of the source address, the
address, and the datagram. A Go string is the list of its bytes. `none` is the nil slice: Parse
returns it for an empty datagram, Build takes it for one.
-/

set_option autoImplicit false

namespace Atlax.Model

/-- SOURCE: udp.go:15-18 -/
structure UDPDatagram where
  sourceAddr : Bytes
  payload : Option Bytes
  deriving DecidableEq, Repr

/-- SOURCE: udp.go:9-12, 23-31, 47-50 -/
inductive UDPError
  | emptyPayload
  | addrLength (addrLen remain : ℕ)
  | addrTooLong (n : ℕ)
  deriving DecidableEq, Repr

/-- SOURCE: udp.go:10-11, 24, 29-30, 48-49 -/
def UDPError.text : UDPError → String
  | .emptyPayload => "udp: parse: invalid UDP_DATA payload: empty payload"
  | .addrLength addrLen remain =>
    let lengths := s!"addr length {addrLen} but only {remain} bytes remain"
    s!"udp: parse: invalid UDP_DATA payload: {lengths}"
  | .addrTooLong n => s!"udp: build: UDP source address exceeds 255 bytes: length {n}"

/-- SOURCE: udp.go:22-42 -/
def parseUDPDataPayload (payload : Bytes) : Except UDPError UDPDatagram :=
  if payload.length < 1 then .error .emptyPayload
  else
    let addrLen := (payload.getD 0 0).toNat
    if payload.length < 1 + addrLen then .error (.addrLength addrLen (payload.length - 1))
    else
      let addr := (payload.drop 1).take addrLen
      let data := payload.drop (1 + addrLen)
      .ok { sourceAddr := addr, payload := if data.length = 0 then none else some data }

/-- SOURCE: udp.go:46-58 -/
def buildUDPDataPayload (sourceAddr : Bytes) (data : Option Bytes) : Except UDPError Bytes :=
  if sourceAddr.length > 255 then .error (.addrTooLong sourceAddr.length)
  else .ok ([UInt8.ofNat sourceAddr.length] ++ sourceAddr ++ data.getD [])

/-- SOURCE: udp.go:84-95 -/
def newUDPDataFrame (streamID : ℕ) (sourceAddr : Bytes) (data : Option Bytes) :
    Except UDPError Frame :=
  match buildUDPDataPayload sourceAddr data with
  | .error err => .error err
  | .ok payload => .ok { command := .udpData, streamID := streamID, payload := payload }

end Atlax.Model
