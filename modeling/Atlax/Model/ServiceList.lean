import Atlax.Model.Session

/-!
# Announcing services

`SendServiceList` (mux_session.go) with what it returns. The session's step of that name goes by it
and forgets which error it was.
-/

set_option autoImplicit false

namespace Atlax.Model

/-- SOURCE: mux_session.go:620-627 -/
inductive ServiceListError
  | newline (name : Bytes)
  | payloadSize (n : ℕ)
  deriving DecidableEq, Repr

/-- The text of an error; `quote` stands for `%q`.
SOURCE: mux_session.go:620-627, errors.go:25 -/
def ServiceListError.text (quote : Bytes → String) : ServiceListError → String
  | .newline name =>
    let quoted := quote name
    s!"mux: service list: invalid frame: service name contains newline: {quoted}"
  | .payloadSize n =>
    s!"mux: service list: invalid frame: payload size {n} exceeds max {maxPayloadSize}"

/-- The loop over the names: the first that contains a newline or a carriage return ends it.
SOURCE: mux_session.go:618-623 -/
def checkNames : List Bytes → Except ServiceListError Unit
  | [] => .ok ()
  | name :: names =>
    if name.contains 10 || name.contains 13 then .error (.newline name) else checkNames names

namespace Session

/-- SOURCE: mux_session.go:617-637 -/
def sendServices (s : Session) (services : List Bytes) : Except ServiceListError Unit × Session :=
  match checkNames services with
  | .error e => (.error e, s)
  | .ok () =>
    let payload := [10].intercalate services
    if payload.length > maxPayloadSize then (.error (.payloadSize payload.length), s)
    else (.ok (), s.enqueue (connPacket .serviceList payload) .control)

end Session

end Atlax.Model
