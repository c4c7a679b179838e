import Mathlib.Data.List.AList
import Atlax.Library.Run
import Atlax.Model.TunnelClient

/-!
# The agent's tunnel

`TunnelRunner.Start` (pkg/agent/tunnel_impl.go) accepts streams on the client's current session
until that fails, and then has the client reconnect. Here it is a step relation together with the
client, its heartbeats and its sessions; what the relay, the transport and the agent's main
function do are steps as well.
-/

set_option autoImplicit false

namespace Atlax.Model

open Atlax.Library

/-- The local address of each service. -/
abbrev ServiceMap := AList (fun _ : Bytes => String)

/-- The service named by the payload of a STREAM_OPEN, or the only one there is.
SOURCE: tunnel_impl.go:189-212 -/
def resolveTarget (services : ServiceMap) (payload : Bytes) : String :=
  match if payload = [] then none else services.lookup payload with
  | some addr => addr
  | none =>
    match services.entries with
    | [e] => e.2
    | _ => ""

/-- SOURCE: tunnel_impl.go:91, 109, 120 -/
inductive TunnelError
  | notConnected
  | accept (err : String)
  | reconnect (err : ClientError)
  deriving DecidableEq

/-- SOURCE: tunnel_impl.go:91, 109, 120 -/
def TunnelError.text : TunnelError → String
  | .notConnected => "tunnel: client not connected"
  | .accept err => s!"tunnel: accept stream: {err}"
  | .reconnect err =>
    let e := err.text
    s!"tunnel: reconnect failed: {e}"

/-- Where `Start` stands: about to enter `acceptLoop`, in it before it reads the session, in
`AcceptStream`, with an error of it, out of `acceptLoop`, in the select after it, in `Reconnect`,
returned. -/
inductive RunnerPc
  | loop
  | readMux
  | accept (mux : ℕ)
  | acceptFailed (err : String)
  | left (err : Option TunnelError)
  | select
  | reconnect (pc : CallPc)
  | returned (err : Option TunnelError)
  deriving DecidableEq

/-- `acceptDone` is the context of the last `acceptLoop`, whose cancel function `cancelAccept`
says to be there; `calls` are the calls of the client's `Close`.
SOURCE: tunnel_impl.go:15-27 -/
structure Tunnel where
  client : TunnelClient
  services : ServiceMap := ∅
  pc : RunnerPc := .loop
  ctxDone : Bool := false
  acceptDone : Bool := false
  cancelAccept : Bool := false
  activeStreams : ℕ := 0
  totalStreams : ℕ := 0
  calls : List CallPc := []

/-- What `Start` does next: its next section, or the case of a select that it takes. -/
inductive RunnerAction
  | run
  | stream
  | done
  | closed
  | disconnect
  | call (a : CallAction)
  deriving DecidableEq

/-- The steps of the agent. -/
inductive TunnelAction
  | runner (a : RunnerAction)
  | heartbeat (i : ℕ) (a : HeartbeatAction)
  -- a forwarder returns
  | forwarded
  -- the agent's main function: the context ends, Stop, Close of the client
  | cancel
  | stop
  | close
  | closing (i : ℕ) (a : CallAction)
  -- a session handles a STREAM_OPEN or a PONG, or its transport fails
  | opened (mux : ℕ) (payload : Bytes)
  | pong (mux : ℕ)
  | fail (mux : ℕ)
  deriving DecidableEq

namespace Tunnel

variable (s : Tunnel)

/-- A stream without a target is reset, any other is forwarded.
SOURCE: tunnel_impl.go:123-143 -/
def forward (payload : Bytes) : Tunnel :=
  if resolveTarget s.services payload = "" then s
  else { s with activeStreams := s.activeStreams + 1, totalStreams := s.totalStreams + 1 }

/-- `AcceptStream` on session `k`: any case that is ready can be taken.
SOURCE: mux_session.go:175-187; tunnel_impl.go:114-121 -/
def acceptStream (k : ℕ) (link : Link) : RunnerAction → Option Tunnel
  | .stream =>
    match link.acceptCh with
    | [] => none
    | payload :: rest =>
      some ({ s with client := s.client.modifyLink k fun l => { l with acceptCh := rest } }.forward
        payload)
  | .done =>
    if s.acceptDone ∨ s.ctxDone then
      some { s with pc := .acceptFailed "mux: accept stream: context canceled" }
    else none
  | .closed =>
    if link.closed then
      some { s with pc := .acceptFailed "mux: accept stream: received GOAWAY from peer" }
    else none
  | _ => none

/-- The call of `Reconnect` goes on; when it returns, so does `Start`, or it begins anew.
SOURCE: tunnel_impl.go:90-93 -/
def reconnectTo (pc : CallPc) : RunnerPc :=
  match pc with
  | .done none => .loop
  | .done (some err) => .returned (some (.reconnect err))
  | pc => .reconnect pc

/-- One step of `Start`.
SOURCE: tunnel_impl.go:55-145 -/
def runner : RunnerAction → Option Tunnel := fun a =>
  match s.pc, a with
  | .loop, .run => some { s with acceptDone := false, cancelAccept := true, pc := .readMux }
  | .readMux, .run =>
    match s.client.mux with
    | none => some { s with acceptDone := true, pc := .left (some .notConnected) }
    | some k => some { s with pc := .accept k }
  | .accept k, a => s.client.links[k]?.bind fun link => s.acceptStream k link a
  | .acceptFailed err, .run =>
    -- the deferred cancel runs after the context has been looked at
    some { s with
      acceptDone := true
      pc := .left (if s.acceptDone ∨ s.ctxDone then none else some (.accept err)) }
  | .left _, .run => some { s with pc := if s.ctxDone then .returned none else .select }
  | .select, .done => if s.ctxDone then some { s with pc := .returned none } else none
  | .select, .disconnect =>
    if s.client.disconnectCh then
      some { s with
        client := { s.client with disconnectCh := false }
        pc := .reconnect (.teardown true) }
    else none
  | .select, .run =>
    if s.ctxDone ∨ s.client.disconnectCh then none
    else some { s with pc := .reconnect (.teardown true) }
  | .reconnect pc, .call a =>
    (s.client.call s.ctxDone pc a).map fun r => { s with client := r.1, pc := reconnectTo r.2 }
  | _, _ => none

/-- One step of the tunnel.
SOURCE: tunnel_impl.go:55-165; client_impl.go:185-288; mux_session.go:408-459, 524-535 -/
def step : TunnelAction → Option Tunnel
  | .runner a => s.runner a
  | .heartbeat i a =>
    s.client.heartbeats[i]?.bind fun hb =>
      (s.client.heartbeat i hb a).map fun c => { s with client := c }
  | .forwarded =>
    if s.activeStreams = 0 then none else some { s with activeStreams := s.activeStreams - 1 }
  | .cancel => some { s with ctxDone := true }
  | .stop => some (if s.cancelAccept then { s with acceptDone := true } else s)
  | .close => some { s with calls := s.calls ++ [.close] }
  | .closing i a =>
    s.calls[i]?.bind fun pc =>
      (s.client.call false pc a).map fun r => { s with client := r.1, calls := s.calls.set i r.2 }
  | .opened k payload =>
    s.client.links[k]?.bind fun link =>
      if link.acceptCh.length < Link.acceptCap then
        some { s with
          client := s.client.modifyLink k fun l => { l with acceptCh := l.acceptCh ++ [payload] } }
      else none
  | .pong k => some { s with client := s.client.modifyLink k fun l => { l with pingCh := true } }
  | .fail k => some { s with client := s.client.modifyLink k fun l => { l with closed := true } }

end Tunnel

/-- An agent that has connected and is about to start its tunnel.
SOURCE: cmd/agent/main.go:95-134 -/
def connected (config : ClientConfig) (services : ServiceMap) : Tunnel where
  client :=
    { config := config
      links := [{}]
      mux := some 0
      heartbeats := [{
        mux := 0
        pc := if config.heartbeatInterval ≤ 0 then .returned false else .waiting }]
      heartbeatStop := some 0
      connected := true }
  services := services

/-- Runs of a connected agent's tunnel. -/
def TunnelReach (config : ClientConfig) (services : ServiceMap)
    (ok : Tunnel → TunnelAction → Prop) (s : Tunnel) : Prop :=
  Reach Tunnel.step ok (connected config services) s

end Atlax.Model
