import Atlax.Model.System

/-!
# Copying between a client and a stream

`PortRouter.copyBidirectional` (router_impl.go): one goroutine copies from the stream to the
client's connection, one from the connection to the stream, and a third one waits for the context
that both cancel when they end, and then closes the connection and resets the stream. What each of
them does next is said for any connection and any stream, as data: the call that it makes on the
stream, and where it stands then. Here the three run for one client on top of the joined sessions;
what they call on the stream are steps of the relay's session. The client and whoever holds the
stream on the agent's side do as they like.
-/

set_option autoImplicit false

namespace Atlax.Model

open Atlax.Library

/-! ## The goroutines -/

/-- A TCP connection, seen from the side that copies. TCP delivers in order: what is written to an
open connection is what the far end gets, and what that sends waits to be read. -/
structure TcpConn where
  /-- what the far end has sent -/
  sent : Bytes := []
  /-- of that, what has not been read -/
  inbound : Bytes := []
  /-- the far end has ended its sending side -/
  ended : Bool := false
  /-- what has been written to the far end -/
  received : Bytes := []
  writeClosed : Bool := false
  closed : Bool := false
  deriving DecidableEq, Repr

/-- `net.ErrClosed` -/
def errClosed : String := "use of closed network connection"

/-- SOURCE: stream_impl.go:110, 122; errors.go:22 -/
def errStreamClosed (id : ℕ) : String := s!"stream {id}: write: stream is closed"

/-- Where the goroutine that copies from the stream stands. -/
inductive OutPc
  /-- before the Read of the stream -/
  | read
  /-- before the Write to the connection -/
  | write (data : Bytes)
  /-- `io.Copy` has returned -/
  | ended (err : Option String)
  /-- before the report -/
  | report (err : Option String)
  | returned
  deriving DecidableEq, Repr

/-- Where the goroutine that copies to the stream stands. -/
inductive InPc
  /-- before the Read of the connection -/
  | read
  /-- before the Write on the stream -/
  | write (data : Bytes)
  /-- in the select of that Write -/
  | send (data : Bytes)
  | ended (err : Option String)
  | report (err : Option String)
  | returned
  deriving DecidableEq, Repr

/-- `io.Copy` from the stream, one Read or Write further: the call it makes on the stream, if any,
and what it leaves; `shut` says whether a Write to the connection fails.
SOURCE: router_impl.go:232; forwarder_impl.go:126 -/
def OutPc.next (shut : Bool) (conn : TcpConn) (stream : StreamSession) (bufSize : ℕ) :
    OutPc → Option (Option Call × TcpConn × OutPc)
  | .read =>
    some (some (.read bufSize), conn,
      match (stream.read bufSize).1 with
      | .bytes b => .write b
      | _ => .ended none)
  | .write data =>
    if shut then some (none, conn, .ended (some errClosed))
    else some (none, { conn with received := conn.received ++ data }, .read)
  | .ended _ | .report _ | .returned => none

/-- `io.Copy` to the stream, one Read or Write further; a Read of the connection returns `n` bytes
at most.
SOURCE: router_impl.go:238; forwarder_impl.go:138; stream_impl.go:107-124 -/
def InPc.next (conn : TcpConn) (stream : StreamSession) (bufSize n : ℕ) :
    InPc → Option (Option Call × TcpConn × InPc)
  | .read =>
    if conn.closed then some (none, conn, .ended (some errClosed))
    else if conn.inbound = [] then
      if conn.ended then some (none, conn, .ended none) else none
    else if 0 < n ∧ n ≤ bufSize then
      some (none, { conn with inbound := conn.inbound.drop n }, .write (conn.inbound.take n))
    else none
  | .write data =>
    if stream.isWriteClosed then some (none, conn, .ended (some (errStreamClosed stream.id)))
    else some (some (.write data), conn, .send data)
  | .send data => some (some (.writeSend data), conn, .read)
  | .ended _ | .report _ | .returned => none

/-- The select of the Write on the stream takes closedCh.
SOURCE: stream_impl.go:118-123 -/
def InPc.giveUp (stream : StreamSession) : InPc → Option (Call × InPc)
  | .send data => some (.writeFail data, .ended (some (errStreamClosed stream.id)))
  | _ => none

/-- Where the goroutine that waits for the context stands.
SOURCE: router_impl.go:244-253 -/
inductive WatchPc
  | wait
  /-- the connection is closed, before `ss.Reset(0)` -/
  | reset
  | done
  deriving DecidableEq, Repr

/-- What `copyBidirectional` has besides: the goroutine that waits, whether its context is
cancelled, and errCh.
SOURCE: router_impl.go:219-262 -/
structure RelayEnd where
  watch : WatchPc := .wait
  cancelled : Bool := false
  errCh : List (Option String) := []
  deriving DecidableEq, Repr

namespace RelayEnd

variable (e : RelayEnd)

/-- The end of the goroutine that copies from the stream: `cancel()`, and then the report.
SOURCE: router_impl.go:233-234 -/
def endOut : OutPc → Option (RelayEnd × OutPc)
  | .ended err => some ({ e with cancelled := true }, .report err)
  | .report err => some ({ e with errCh := e.errCh ++ [err] }, .returned)
  | .read | .write _ | .returned => none

/-- The end of the goroutine that copies to the stream.
SOURCE: router_impl.go:239-240 -/
def endIn : InPc → Option (RelayEnd × InPc)
  | .ended err => some ({ e with cancelled := true }, .report err)
  | .report err => some ({ e with errCh := e.errCh ++ [err] }, .returned)
  | .read | .write _ | .send _ | .returned => none

/-- The goroutine that waits for the context closes the connection and then resets the stream.
SOURCE: router_impl.go:244-253 -/
def next (conn : TcpConn) : Option (Option Call × TcpConn × RelayEnd) :=
  match e.watch with
  | .wait =>
    if e.cancelled then some (none, { conn with closed := true }, { e with watch := .reset })
    else none
  | .reset => some (some (.reset 0), conn, { e with watch := .done })
  | .done => none

end RelayEnd

/-- What `copyBidirectional` returns once both copies have reported; `done` says whether its context
is.
SOURCE: router_impl.go:255-261 -/
def copyResult (done : Bool) : List (Option String) → Option (Option String)
  | [firstErr, _] => some (if firstErr ≠ none ∧ done then none else firstErr)
  | _ => none

/-! ## One client -/

/-- The client's connection. -/
structure ClientConn extends TcpConn where
  /-- what the client has still to send -/
  unsent : Bytes
  deriving DecidableEq, Repr

/-- The buffer of io.Copy. -/
def copyBufSize : ℕ := 32 * 1024

/-- A client's connection, the stream opened for it and the goroutines between the two.
SOURCE: router_impl.go:219-262 -/
structure Proxy extends RelayEnd where
  sys : System
  clientConn : ClientConn
  /-- `copyBidirectional` has been called -/
  started : Bool := false
  copyOut : OutPc := .read
  copyIn : InPc := .read

/-- A client that will send `w`, and two sessions that have just been made. -/
def newProxy (config : Role → MuxConfig) (w : Bytes) : Proxy where
  sys := newSystem config
  clientConn := { unsent := w }

/-- The steps of a proxied connection. -/
inductive ProxyAction
  /-- anything the two sessions and the holders of their streams do -/
  | sys (X : Role) (a : Action)
  /-- OpenStream has returned the stream, `Route` calls `copyBidirectional` -/
  | start
  /-- the client sends some of what it has to send; it ends its sending side -/
  | clientSend (n : ℕ)
  | clientEnd
  | copyOut
  /-- a Read of the connection returns at most `n` bytes -/
  | copyIn (n : ℕ)
  /-- the select of the Write on the stream takes closedCh -/
  | copyInFail
  | watch
  deriving DecidableEq, Repr

/-- A call that the relay makes on the stream. -/
def ownCall (v : Ref) : Role → Action → Bool
  | .relay, .call r _ => r == v
  | _, _ => false

namespace Proxy

variable (v : Ref) (P : Proxy)

/-- The relay's stream `v`. -/
def stream : StreamSession := ((P.sys.sess .relay).cells v).stream

/-- A call on the stream. -/
def call (k : Call) : Option Proxy :=
  (P.sys.step (.relay, .call v k)).map fun S => { P with sys := S }

/-- A goroutine leaves the connection as `conn` and makes its call on the stream, if any. -/
def act (k : Option Call) (conn : TcpConn) : Option Proxy :=
  let P' := { P with clientConn := { P.clientConn with toTcpConn := conn } }
  match k with
  | none => some P'
  | some k => P'.call v k

/-- The goroutine that copies to the client.
SOURCE: router_impl.go:231-235 -/
def stepOut : Option Proxy :=
  match P.copyOut with
  | .ended _ | .report _ =>
    (P.endOut P.copyOut).map fun (e, pc) => { P with toRelayEnd := e, copyOut := pc }
  | _ => do
    let (k, conn, pc) ← P.copyOut.next P.clientConn.closed P.clientConn.toTcpConn (P.stream v)
      copyBufSize
    (P.act v k conn).map fun P' => { P' with copyOut := pc }

/-- The goroutine that copies to the stream.
SOURCE: router_impl.go:237-241 -/
def stepIn (n : ℕ) : Option Proxy :=
  match P.copyIn with
  | .ended _ | .report _ =>
    (P.endIn P.copyIn).map fun (e, pc) => { P with toRelayEnd := e, copyIn := pc }
  | _ => do
    let (k, conn, pc) ← P.copyIn.next P.clientConn.toTcpConn (P.stream v) copyBufSize n
    (P.act v k conn).map fun P' => { P' with copyIn := pc }

/-- Its Write on the stream gives up. -/
def stepInFail : Option Proxy := do
  let (k, pc) ← P.copyIn.giveUp (P.stream v)
  (P.call v k).map fun P' => { P' with copyIn := pc }

/-- The goroutine that ends both copies.
SOURCE: router_impl.go:244-253 -/
def stepWatch : Option Proxy := do
  let (k, conn, e) ← P.next P.clientConn.toTcpConn
  (P.act v k conn).map fun P' => { P' with toRelayEnd := e }

/-- One step; the goroutines run once `copyBidirectional` is called, and only they use the
stream. -/
def step : ProxyAction → Option Proxy
  | .sys X a =>
    if ownCall v X a then none else (P.sys.step (X, a)).map fun S => { P with sys := S }
  | .start =>
    if P.started = false ∧ v < (P.sys.sess .relay).nextRef ∧
        ((P.sys.sess .relay).cells v).openPc = .returned ∧
        ((P.sys.sess .relay).cells v).handle = true then
      some { P with started := true }
    else none
  | .clientSend n =>
    some { P with clientConn := { P.clientConn with
      unsent := P.clientConn.unsent.drop n
      sent := P.clientConn.sent ++ P.clientConn.unsent.take n
      inbound := P.clientConn.inbound ++ P.clientConn.unsent.take n } }
  | .clientEnd =>
    if P.clientConn.unsent = [] then
      some { P with clientConn := { P.clientConn with ended := true } }
    else none
  | .copyOut => if P.started then P.stepOut v else none
  | .copyIn n => if P.started then P.stepIn v n else none
  | .copyInFail => if P.started then P.stepInFail v else none
  | .watch => if P.started then P.stepWatch v else none

/-- What `copyBidirectional` returns once both goroutines have reported. -/
def result : Option (Option String) := copyResult P.cancelled P.errCh

end Proxy

/-- The runs of a client that sends `w` over the relay's stream `v`. -/
def ProxyReach (v : Ref) (config : Role → MuxConfig) (w : Bytes)
    (ok : Proxy → ProxyAction → Prop) : Proxy → Prop :=
  Reach (Proxy.step v) ok (newProxy config w)

end Atlax.Model
