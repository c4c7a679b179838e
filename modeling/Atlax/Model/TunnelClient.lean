import Mathlib.Data.Int.Notation
import Atlax.Model.Frame

/-!
# The agent's client

`TunnelClient` (pkg/agent/client_impl.go) holds the agent's session with the relay and one
heartbeat goroutine per connection. `Connect`, `Reconnect` and `Close` are calls that run
concurrently with the heartbeats, section by section under the client's lock; a call is a program
counter. Of a session a `Link` keeps what the agent looks at: whether it is closed, the streams
that wait to be accepted, and the channel of its `Ping`.
-/

set_option autoImplicit false

namespace Atlax.Model

/-- `acceptCh` is represented by the payloads of the STREAM_OPENs, `pingCh` by whether a PONG is in
it.
SOURCE: mux_session.go:36-67 -/
structure Link where
  closed : Bool := false
  goingAway : Bool := false
  acceptCh : List Bytes := []
  pingCh : Bool := false
  deriving DecidableEq

/-- The channel's capacity: MaxConcurrentStreams of an agent's session.
SOURCE: client_impl.go:111 -/
def Link.acceptCap : ℕ := 50

/-- Where `runHeartbeat` stands: in its select, with a tick, in `Ping`, with an error, returned
with or without having posted on `disconnectCh`.
SOURCE: client_impl.go:246-288 -/
inductive HeartbeatPc
  | waiting
  | ticked
  | pinging (mux : ℕ)
  | failed
  | returned (posted : Bool)
  deriving DecidableEq

/-- A heartbeat goroutine with its context; `mux` is the session of the `Connect` that started
it. -/
structure Heartbeat where
  mux : ℕ
  ctxDone : Bool := false
  pc : HeartbeatPc := .waiting
  deriving DecidableEq

/-- SOURCE: client.go; client_impl.go:150-155, 247-250 -/
structure ClientConfig where
  heartbeatInterval : ℤ
  maxReconnectAttempts : ℤ
  deriving DecidableEq

def ClientConfig.maxAttempts (cfg : ClientConfig) : ℕ :=
  if cfg.maxReconnectAttempts ≤ 0 then 10 else cfg.maxReconnectAttempts.toNat

/-- `mux` and `heartbeatStop` are positions in `links` and `heartbeats`, which hold all there have
been; `connected` is the field of the status, `disconnectCh` is a channel with one slot.
SOURCE: client_impl.go:37-54; client.go:45-46 -/
structure TunnelClient where
  config : ClientConfig
  links : List Link := []
  mux : Option ℕ := none
  heartbeats : List Heartbeat := []
  heartbeatStop : Option ℕ := none
  connected : Bool := false
  closed : Bool := false
  disconnectCh : Bool := false
  deriving DecidableEq

/-- What `Connect` and `Reconnect` return. -/
inductive ClientError
  | closed
  | dial (err : String)
  | cancelled (err : String)
  | exhausted (attempts : ℕ)
  deriving DecidableEq

/-- SOURCE: client_impl.go:101, 107, 167, 178 -/
def ClientError.text : ClientError → String
  | .closed => "agent: connect: client is closed"
  | .dial err => s!"agent: connect: {err}"
  | .cancelled err => s!"agent: reconnect: {err}"
  | .exhausted attempts => s!"agent: reconnect: exhausted {attempts} attempts"

/-- Where a call of the client stands. A `Connect` inside a `Reconnect` has the number of the
attempt; `again` says whether a teardown is that of a `Reconnect`. -/
inductive CallPc
  | close
  | teardown (again : Bool)
  | shut (mux : Option ℕ) (again : Bool)
  | backoff (attempt : ℕ)
  | connect (attempt : Option ℕ)
  | dial (attempt : Option ℕ)
  | install (mux : ℕ) (attempt : Option ℕ)
  | startHeartbeat (mux : ℕ)
  | done (err : Option ClientError)
  deriving DecidableEq

/-- What a call does next: its next section, the end of its context or of its backoff, the outcome
of its dial. -/
inductive CallAction
  | run
  | cancelled
  | timer
  | dial (err : Option String)
  deriving DecidableEq

/-- How `Ping` returns.
SOURCE: mux_session.go:257-266 -/
inductive PingResult
  | pong
  | timeout
  | cancelled
  | closed
  deriving DecidableEq

/-- The steps of a heartbeat. -/
inductive HeartbeatAction
  | tick
  | quit
  | read
  | ping (r : PingResult)
  | post
  deriving DecidableEq

namespace TunnelClient

variable (c : TunnelClient)

def modifyLink (k : ℕ) (f : Link → Link) : TunnelClient := { c with links := c.links.modify k f }

def setHeartbeat (i : ℕ) (hb : Heartbeat) : TunnelClient :=
  { c with heartbeats := c.heartbeats.set i hb }

/-- The section of `teardown` under the lock.
SOURCE: client_impl.go:224-235 -/
def teardown : TunnelClient :=
  { c with
    heartbeats := match c.heartbeatStop with
      | none => c.heartbeats
      | some i => c.heartbeats.modify i fun hb => { hb with ctxDone := true }
    heartbeatStop := none
    mux := none
    connected := false }

/-- `GoAway` and `Close` of the session that `teardown` took.
SOURCE: client_impl.go:237-244 -/
def shut (mux : Option ℕ) : TunnelClient :=
  match mux with
  | none => c
  | some k => c.modifyLink k fun l => { l with goingAway := true, closed := true }

/-- A `Connect` that fails ends the call, or this attempt of it.
SOURCE: client_impl.go:172-176 -/
def connectFailed (attempt : Option ℕ) (err : ClientError) : CallPc :=
  match attempt with
  | none => .done (some err)
  | some n => .backoff (n + 1)

/-- One step of a call whose context is done or not.
SOURCE: client_impl.go:96-200, 223-244 -/
def call (ctxDone : Bool) : CallPc → CallAction → Option (TunnelClient × CallPc)
  | .close, .run =>
    if c.closed then some (c, .done none) else some ({ c with closed := true }, .teardown false)
  | .teardown again, .run => some (c.teardown, .shut c.mux again)
  | .shut mux again, .run => some (c.shut mux, if again then .backoff 0 else .done none)
  | .backoff attempt, .run =>
    if attempt < c.config.maxAttempts then none
    else some (c, .done (some (.exhausted c.config.maxAttempts)))
  | .backoff attempt, .cancelled =>
    if attempt < c.config.maxAttempts ∧ ctxDone then
      some (c, .done (some (.cancelled "context canceled")))
    else none
  | .backoff attempt, .timer =>
    if attempt < c.config.maxAttempts then some (c, .connect (some attempt)) else none
  | .connect attempt, .run =>
    if c.closed then some (c, connectFailed attempt .closed) else some (c, .dial attempt)
  | .dial attempt, .dial none =>
    some ({ c with links := c.links ++ [{}] }, .install c.links.length attempt)
  | .dial attempt, .dial (some err) => some (c, connectFailed attempt (.dial err))
  | .install mux _, .run =>
    some ({ c with mux := some mux, connected := true }, .startHeartbeat mux)
  | .startHeartbeat mux, .run =>
    -- runHeartbeat returns at once without an interval
    some ({ c with
      heartbeats := c.heartbeats ++ [{
        mux := mux
        pc := if c.config.heartbeatInterval ≤ 0 then .returned false else .waiting }]
      heartbeatStop := some c.heartbeats.length }, .done none)
  | _, _ => none

def isClosed (k : ℕ) : Bool := c.links[k]?.any Link.closed

/-- How `Ping` on session `mux` can return in a heartbeat whose context is done or not. -/
def canReturn (mux : ℕ) (ctxDone : Bool) : PingResult → Bool
  | .pong => c.links[mux]?.any Link.pingCh
  | .timeout => true
  | .cancelled => ctxDone
  | .closed => c.isClosed mux

/-- One step of a heartbeat. A tick and the end of the context can both be ready.
SOURCE: client_impl.go:247-288 -/
def heartbeat (i : ℕ) (hb : Heartbeat) : HeartbeatAction → Option TunnelClient
  | .tick => if hb.pc = .waiting then some (c.setHeartbeat i { hb with pc := .ticked }) else none
  | .quit =>
    if hb.pc = .waiting ∧ hb.ctxDone then
      some (c.setHeartbeat i { hb with pc := .returned false })
    else none
  | .read =>
    if hb.pc = .ticked then
      match c.mux with
      | none => some (c.setHeartbeat i { hb with pc := .returned false })
      | some k =>
        some ((c.modifyLink k fun l => { l with pingCh := false }).setHeartbeat i
          { hb with pc := .pinging k })
    else none
  | .ping r =>
    match hb.pc with
    | .pinging k =>
      if c.canReturn k hb.ctxDone r then
        if r = .pong then
          some ((c.modifyLink k fun l => { l with pingCh := false }).setHeartbeat i
            { hb with pc := .waiting })
        else some (c.setHeartbeat i { hb with pc := .failed })
      else none
    | _ => none
  | .post =>
    if hb.pc = .failed then
      some ({ c with disconnectCh := true }.setHeartbeat i { hb with pc := .returned true })
    else none

end TunnelClient

/-- A client on which `Connect`, `Reconnect` and `Close` are called, any number of times and side by
side. -/
structure ClientCalls where
  client : TunnelClient
  calls : List CallPc := []
  deriving DecidableEq

/-- The steps of a client's callers. -/
inductive ClientAction
  | connect
  | reconnect
  | close
  -- call `i` goes on; a heartbeat does
  | call (i : ℕ) (a : CallAction)
  | heartbeat (i : ℕ) (a : HeartbeatAction)
  -- a session handles a PONG, or its transport fails
  | pong (mux : ℕ)
  | fail (mux : ℕ)
  deriving DecidableEq

namespace ClientCalls

variable (s : ClientCalls)

/-- One step of a call, of a heartbeat or of a session. The context of a call may be done at any
time.
SOURCE: client_impl.go:96-288 -/
def step : ClientAction → Option ClientCalls
  | .connect => some { s with calls := s.calls ++ [.connect none] }
  | .reconnect => some { s with calls := s.calls ++ [.teardown true] }
  | .close => some { s with calls := s.calls ++ [.close] }
  | .call i a =>
    s.calls[i]?.bind fun pc =>
      (s.client.call true pc a).map fun r => { client := r.1, calls := s.calls.set i r.2 }
  | .heartbeat i a =>
    s.client.heartbeats[i]?.bind fun hb =>
      (s.client.heartbeat i hb a).map fun c => { s with client := c }
  | .pong k => some { s with client := s.client.modifyLink k fun l => { l with pingCh := true } }
  | .fail k => some { s with client := s.client.modifyLink k fun l => { l with closed := true } }

end ClientCalls

/-- A client on which nothing has been called.
SOURCE: client_impl.go:61-84 -/
def newClient (config : ClientConfig) : ClientCalls := { client := { config := config } }

end Atlax.Model
