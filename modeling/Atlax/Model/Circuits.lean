import Atlax.Model.CopyBidirectional
import Atlax.Model.Forwarder
import Atlax.Model.Tunnel

/-!
# From the clients of a relay to the services of an agent

All the connections that go over one session. On the relay `Route` has opened a stream for a
client's connection and `copyBidirectional` copies between the two (router_impl.go). On the agent
`acceptLoop` looks up the service that the stream asks for, and `Forward` dials it and copies
between the stream and the connection to the service (tunnel_impl.go, forwarder_impl.go). In between
are the joined sessions of `Atlax.Model.System`.

Both sides copy in the same way, with `io.Copy`: one goroutine from the stream to the connection and
one back. `Copier` is such a pair with its connection; `RelayEnd` and `AgentEnd` are the goroutines
around it. What they do next is that of `Atlax.Model.CopyBidirectional` and
`Atlax.Model.Forwarder`.
-/

set_option autoImplicit false

namespace Atlax.Model

open Atlax.Library

/-- A connection and the two goroutines that copy between it and a stream. -/
structure Copier where
  sock : TcpConn := {}
  /-- the goroutines have been started -/
  running : Bool := false
  out : OutPc := .read
  inn : InPc := .read
  deriving DecidableEq, Repr

/-- What `acceptLoop` and `Forward` have besides.
SOURCE: tunnel_impl.go:113-146; forwarder_impl.go:49-162 -/
structure AgentEnd extends AwaitState where
  /-- the service that `acceptLoop` has found; `none` is a stream not yet looked at -/
  target : Option String := none
  deriving DecidableEq

/-- Two sessions and what copies at their ends. -/
structure Circuits where
  sys : System
  /-- the agent's services -/
  services : ServiceMap
  /-- the buffer of `io.Copy`, or that of the forwarder's configuration -/
  bufSize : Role → ℕ
  copiers : Role → Ref → Copier := fun _ _ => {}
  relayEnd : Ref → RelayEnd := fun _ => {}
  agentEnd : Ref → AgentEnd := fun _ => {}
  /-- the context of `acceptLoop` is done -/
  acceptDone : Bool := false

def newCircuits (config : Role → MuxConfig) (services : ServiceMap)
    (bufSize : Role → ℕ) : Circuits where
  sys := newSystem config
  services := services
  bufSize := bufSize

/-- The steps of both ends. -/
inductive CircuitsAction
  /-- what the sessions do by themselves, and the calls that open, accept and close -/
  | sys (X : Role) (a : Action)
  /-- the client, or the service, sends; it ends its sending side -/
  | farSend (X : Role) (r : Ref) (data : Bytes)
  | farEnd (X : Role) (r : Ref)
  /-- the goroutine that copies from the stream goes on; its Write fails after `k` bytes -/
  | copyOut (X : Role) (r : Ref)
  | copyOutFail (X : Role) (r : Ref) (k : ℕ) (err : String)
  /-- the goroutine that copies to the stream goes on, a Read of the connection returning `n` bytes;
  its Read fails, or its Write gives up -/
  | copyIn (X : Role) (r : Ref) (n : ℕ)
  | copyInFail (X : Role) (r : Ref) (err : String)
  /-- `Route` calls `copyBidirectional`; its context is done; its goroutines go on -/
  | route (r : Ref)
  | routeDone (r : Ref)
  | relayOut (r : Ref)
  | relayIn (r : Ref)
  | watch (r : Ref)
  /-- `acceptLoop` looks at a stream it has accepted; its context is done -/
  | serve (v : Ref)
  | acceptDone
  /-- the dial succeeds or fails; `Forward` and its goroutines go on -/
  | dialed (v : Ref) (err : Option String)
  | agentOut (v : Ref)
  | agentIn (v : Ref)
  | forward (v : Ref)
  | forwardDone (v : Ref)
  | linger (v : Ref)
  deriving DecidableEq

def isStreamCall : Action → Bool
  | .call _ _ => true
  | _ => false

namespace Circuits

variable (P : Circuits)

def stream (X : Role) (r : Ref) : StreamSession := ((P.sys.sess X).cells r).stream

/-- A call on a stream. -/
def call (X : Role) (r : Ref) (k : Call) : Option Circuits :=
  (P.sys.step (X, .call r k)).map fun S => { P with sys := S }

@[simps] def setCopier (X : Role) (r : Ref) (c : Copier) : Circuits :=
  { P with copiers := Function.update P.copiers X (Function.update (P.copiers X) r c) }

@[simps] def setRelay (r : Ref) (e : RelayEnd) : Circuits :=
  { P with relayEnd := Function.update P.relayEnd r e }

@[simps] def setAgent (v : Ref) (e : AgentEnd) : Circuits :=
  { P with agentEnd := Function.update P.agentEnd v e }

/-- A goroutine makes its call on the stream, if it makes one, and leaves the copier as `c`. -/
def act (X : Role) (r : Ref) (k : Option Call) (c : Copier) : Option Circuits :=
  match k with
  | none => some (P.setCopier X r c)
  | some k => (P.call X r k).map fun P' => P'.setCopier X r c

/-- `io.Copy` from the stream, one Read or Write further.
SOURCE: router_impl.go:232; forwarder_impl.go:126 -/
def copyOut (X : Role) (r : Ref) : Option Circuits := do
  let c := P.copiers X r
  let (k, sock, pc) ← c.out.next (c.sock.closed || c.sock.writeClosed) c.sock (P.stream X r)
    (P.bufSize X)
  P.act X r k { c with sock := sock, out := pc }

/-- A Write to the connection fails: the far end is gone, or the idle deadline has passed. Some of
it may have been sent. -/
def copyOutFail (X : Role) (r : Ref) (k : ℕ) (err : String) : Option Circuits :=
  let c := P.copiers X r
  match c.out with
  | .write data =>
    if c.sock.closed ∨ c.sock.writeClosed then none
    else some (P.setCopier X r { c with
      sock := { c.sock with received := c.sock.received ++ data.take k }
      out := .ended (some err) })
  | _ => none

/-- `io.Copy` to the stream, one Read or Write further.
SOURCE: router_impl.go:238; forwarder_impl.go:138; stream_impl.go:107-124 -/
def copyIn (X : Role) (r : Ref) (n : ℕ) : Option Circuits := do
  let c := P.copiers X r
  let (k, sock, pc) ← c.inn.next c.sock (P.stream X r) (P.bufSize X) n
  P.act X r k { c with sock := sock, inn := pc }

/-- A Read of the connection fails, or the select of the Write on the stream takes closedCh. -/
def copyInFail (X : Role) (r : Ref) (err : String) : Option Circuits :=
  let c := P.copiers X r
  match c.inn with
  | .read => some (P.setCopier X r { c with inn := .ended (some err) })
  | _ => do
    let (k, pc) ← c.inn.giveUp (P.stream X r)
    P.act X r (some k) { c with inn := pc }

/-- The end of a goroutine of `copyBidirectional`.
SOURCE: router_impl.go:233-234 -/
def relayOut (r : Ref) : Option Circuits :=
  let c := P.copiers .relay r
  ((P.relayEnd r).endOut c.out).map fun (e, pc) =>
    (P.setCopier .relay r { c with out := pc }).setRelay r e

/-- SOURCE: router_impl.go:239-240 -/
def relayIn (r : Ref) : Option Circuits :=
  let c := P.copiers .relay r
  ((P.relayEnd r).endIn c.inn).map fun (e, pc) =>
    (P.setCopier .relay r { c with inn := pc }).setRelay r e

/-- The goroutine of `copyBidirectional` that waits for the context.
SOURCE: router_impl.go:244-253 -/
def watch (r : Ref) : Option Circuits := do
  let c := P.copiers .relay r
  let (k, sock, e) ← (P.relayEnd r).next c.sock
  (P.act .relay r k { c with sock := sock }).map fun P' => P'.setRelay r e

/-- `acceptLoop` with the stream that AcceptStream has returned.
SOURCE: tunnel_impl.go:122-146 -/
def serve (v : Ref) : Option Circuits :=
  if v < (P.sys.sess .agent).nextRef ∧ ((P.sys.sess .agent).cells v).openPc = .accepted ∧
      ((P.sys.sess .agent).cells v).handle = true ∧ (P.agentEnd v).target = none then
    let target := resolveTarget P.services (P.stream .agent v).openPayload
    let P' := P.setAgent v { P.agentEnd v with target := some target }
    if target = "" then P'.call .agent v (.reset 1) else some P'
  else none

/-- The end of the goroutine of `Forward` that copies from the stream.
SOURCE: forwarder_impl.go:127-130 -/
def agentOut (v : Ref) : Option Circuits :=
  let c := P.copiers .agent v
  match c.out with
  | .ended err =>
    some (P.setCopier .agent v { c with
      sock := { c.sock with writeClosed := true }
      out := .report err })
  | .report err =>
    some ((P.setCopier .agent v { c with out := .returned }).setAgent v
      { P.agentEnd v with toAwaitState := (P.agentEnd v).report err })
  | _ => none

/-- The end of the goroutine of `Forward` that copies to the stream.
SOURCE: forwarder_impl.go:139-141 -/
def agentIn (v : Ref) : Option Circuits :=
  let c := P.copiers .agent v
  match c.inn with
  | .ended err =>
    (P.call .agent v .close).map fun P' => P'.setCopier .agent v { c with inn := .report err }
  | .report err =>
    some ((P.setCopier .agent v { c with inn := .returned }).setAgent v
      { P.agentEnd v with toAwaitState := (P.agentEnd v).report err })
  | _ => none

/-- What a section of `Forward` does to the connection or to the stream. -/
def effect (v : Ref) : ForwardEffect → Option Circuits
  | .nothing => some P
  | .closeLocal =>
    let c := P.copiers .agent v
    some (P.setCopier .agent v { c with sock := { c.sock with closed := true } })
  | .reset => P.call .agent v (.reset 0)

/-- The next section of `Forward` itself.
SOURCE: forwarder_impl.go:60-112, 144-154 -/
def forward (v : Ref) : Option Circuits := do
  let (effect, e) ← (P.agentEnd v).next
  (P.effect v effect).map fun P' => P'.setAgent v { P.agentEnd v with toAwaitState := e }

/-- One step. -/
def step : CircuitsAction → Option Circuits
  | .sys X a =>
    if isStreamCall a then none else (P.sys.step (X, a)).map fun S => { P with sys := S }
  | .farSend X r data =>
    -- the connection of a client is there before its stream, that of a service after the dial
    let c := P.copiers X r
    if c.sock.ended = false ∧ (X = .relay ∨ c.running) then
      some (P.setCopier X r { c with
        sock := { c.sock with sent := c.sock.sent ++ data, inbound := c.sock.inbound ++ data } })
    else none
  | .farEnd X r =>
    some (P.setCopier X r { P.copiers X r with
      sock := { (P.copiers X r).sock with ended := true } })
  | .copyOut X r => if (P.copiers X r).running then P.copyOut X r else none
  | .copyOutFail X r k err => if (P.copiers X r).running then P.copyOutFail X r k err else none
  | .copyIn X r n => if (P.copiers X r).running then P.copyIn X r n else none
  | .copyInFail X r err => if (P.copiers X r).running then P.copyInFail X r err else none
  | .route r =>
    if (P.copiers .relay r).running = false ∧ r < (P.sys.sess .relay).nextRef ∧
        ((P.sys.sess .relay).cells r).openPc = .returned then
      some (P.setCopier .relay r { P.copiers .relay r with running := true })
    else none
  | .routeDone r => some (P.setRelay r { P.relayEnd r with cancelled := true })
  | .relayOut r => P.relayOut r
  | .relayIn r => P.relayIn r
  | .watch r => if (P.copiers .relay r).running then P.watch r else none
  | .serve v => P.serve v
  | .acceptDone => some { P with acceptDone := true }
  | .dialed v err =>
    match (P.agentEnd v).target, (P.agentEnd v).pc with
    | some target, .dial =>
      if target = "" then none
      else
        some ((P.setCopier .agent v { P.copiers .agent v with running := err.isNone }).setAgent v
          { P.agentEnd v with toAwaitState := (P.agentEnd v).dialed target err })
    | _, _ => none
  | .agentOut v => P.agentOut v
  | .agentIn v => P.agentIn v
  | .forward v => P.forward v
  | .forwardDone v =>
    if P.acceptDone then
      (P.agentEnd v).ctxDone.map fun e => P.setAgent v { P.agentEnd v with toAwaitState := e }
    else none
  | .linger v =>
    (P.agentEnd v).linger.map fun e => P.setAgent v { P.agentEnd v with toAwaitState := e }

end Circuits

end Atlax.Model
