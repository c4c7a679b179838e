import Mathlib.Logic.Function.Basic
import Atlax.Model.Stream

/-!
# The locks of the sessions

What the calls on the sessions of a process do to its mutexes and its `sync.Once`s, and nothing
else: which they take, in which order, and what they do while they hold them. The other models take
a section under a mutex as one step; here is the code that makes it one.

A call is the list of what it still has to do (`Instr`). A branch that the data decides may go
either way. The branches that decide which locks are taken next are there with what they test: the
state of a stream in `Reset` and `Close`, and closeCh in the callback of `Reset`. Waiting for
anything but a lock happens without one in hand; a cond.Wait gives its mutex back, and each pass of
the loop around it is a call of its own.

Sessions and streams are numbers. The read lock of a `sync.RWMutex` is taken like its write lock.
The closeOnce of a stream is left out: `signalClosed` calls its `Do` under mu, and what it runs
takes no lock.
-/

set_option autoImplicit false

namespace Atlax.Model

/-- The locks: that of the registry, those of the clients and connections of an agent, the fields
of a session and of a stream. -/
inductive Lock
  | registry
  | router
  /-- mu of a `TunnelClient`, mu and servMu of a `LiveConnection` -/
  | client (c : ℕ)
  | lastSeen (c : ℕ)
  | services (c : ℕ)
  /-- closeOnce, mu, pendingMu, pingMu of a `MuxSession`, mu of its queue and of its window -/
  | closeOnce (c : ℕ)
  | mux (c : ℕ)
  | pending (c : ℕ)
  | ping (c : ℕ)
  | queue (c : ℕ)
  | window (c : ℕ)
  /-- mu, resetOnce and localCloseOnce of a `StreamSession` -/
  | stream (c i : ℕ)
  | resetOnce (c i : ℕ)
  | localCloseOnce (c i : ℕ)
  deriving DecidableEq

/-- What a goroutine does with locks. -/
inductive Instr
  | acquire (l : Lock)
  | release (l : Lock)
  | either (a b : List Instr)
  /-- `Do` of a `sync.Once`, and the end of what it runs -/
  | onceDo (o : Lock) (body : List Instr)
  | onceEnd (o : Lock)
  /-- what `Close`, `RemoteClose` and `Reset` of a stream do under its mutex -/
  | closeSection (c i : ℕ)
  | remoteCloseSection (c i : ℕ)
  | resetSection (c i : ℕ)
  /-- the callback of `Reset` -/
  | onReset (c i : ℕ)
  | closeCloseCh (c : ℕ)
  /-- `Reset` of every stream in the map, and of the one that was found there -/
  | resetAll (c : ℕ)
  | resetFound (c : ℕ)

/-! ## The calls -/

/-- A section under a mutex. -/
def locked (l : Lock) : List Instr := [.acquire l, .release l]

/-- SOURCE: stream_impl.go:224-243 -/
def resetCode (c i : ℕ) : List Instr := [.acquire (.stream c i), .resetSection c i]

/-- SOURCE: stream_impl.go:207-221 -/
def remoteCloseCode (c i : ℕ) : List Instr :=
  [.acquire (.stream c i), .remoteCloseSection c i, .release (.stream c i)]

/-- The state is read once or twice.
SOURCE: mux_session.go:641-648 -/
def maybeRemoveStreamCode (c i : ℕ) : List Instr :=
  locked (.stream c i) ++ [.either [] (locked (.stream c i)), .either [] (locked (.mux c))]

/-- SOURCE: stream_impl.go:150-179; mux_session.go:671-675 -/
def closeStreamCode (c i : ℕ) : List Instr := [.acquire (.stream c i), .closeSection c i]

/-- The two setters of the callbacks, and `Open`.
SOURCE: mux_session.go:133-138, 434-440; stream_impl.go:134-146, 190-194 -/
def newStreamCode (c i : ℕ) : List Instr :=
  locked (.stream c i) ++ locked (.stream c i) ++ locked (.stream c i)

/-- SOURCE: mux_session.go:651-666 -/
def removeStreamCode (c : ℕ) : List Instr := locked (.mux c) ++ [.resetFound c]

/-- SOURCE: mux_session.go:111-172 -/
def openStreamCode (c i : ℕ) : List Instr :=
  [.acquire (.mux c), .either [.release (.mux c)]
    (newStreamCode c i ++ [.release (.mux c)] ++ locked (.pending c) ++ locked (.queue c) ++
      -- the acknowledgement, the end of the session, or that of the context
      [.either [] (locked (.pending c) ++ [.either [] (removeStreamCode c)])])]

/-- SOURCE: mux_session.go:190-205; write_queue.go:91-96 -/
def closeSessionCode (c : ℕ) : List Instr :=
  [.onceDo (.closeOnce c) ([.closeCloseCh c] ++ locked (.queue c) ++
    [.acquire (.mux c), .resetAll c, .release (.mux c)])]

/-- SOURCE: mux_session.go:208-232 -/
def goAwayCode (c : ℕ) : List Instr := locked (.mux c) ++ locked (.queue c)

/-- A STREAM_OPEN of the peer, after `acceptPeerOpen`.
SOURCE: mux_session.go:408-460, 736-758 -/
def handleStreamOpenCode (c i : ℕ) : List Instr :=
  locked (.mux c) ++ [.either [.either [] (locked (.queue c))]
    (newStreamCode c i ++ locked (.mux c) ++ locked (.queue c))]

/-- SOURCE: mux_session.go:462-478 -/
def handleStreamDataCode (c i : ℕ) : List Instr :=
  locked (.mux c) ++ [.either [] ([.either [] (locked (.stream c i)),
    .either [] (remoteCloseCode c i ++ maybeRemoveStreamCode c i)])]

/-- SOURCE: mux_session.go:480-490 -/
def handleStreamCloseCode (c i : ℕ) : List Instr :=
  locked (.mux c) ++ [.either [] (remoteCloseCode c i ++ maybeRemoveStreamCode c i)]

/-- SOURCE: mux_session.go:492-513 -/
def handleStreamResetCode (c i : ℕ) : List Instr :=
  locked (.mux c) ++ [.either [] (resetCode c i ++ locked (.mux c))]

/-- SOURCE: mux_session.go:537-564 -/
def handleWindowUpdateCode (c i : ℕ) : List Instr :=
  [.either (locked (.window c)) (locked (.mux c) ++ [.either [] (locked (.stream c i))])]

/-- SOURCE: registry_impl.go:53-97 -/
def registerCode (old : ℕ) : List Instr :=
  locked .registry ++ [.either [] (goAwayCode old ++ closeSessionCode old)]

/-- SOURCE: registry_impl.go:99-117 -/
def unregisterCode (c : ℕ) : List Instr :=
  locked .registry ++ [.either [] (closeSessionCode c)]

/-- What is read of one connection while the registry is locked.
SOURCE: registry_impl.go:155-163; connection.go:55-59, 83-113; mux_session.go:269-274 -/
def agentInfoCode (c : ℕ) : List Instr :=
  locked (.lastSeen c) ++ locked (.mux c) ++ locked (.services c) ++ locked (.services c)

/-- SOURCE: registry_impl.go:147-166 -/
def listConnectedAgentsCode (cs : List ℕ) : List Instr :=
  [.acquire .registry] ++ cs.flatMap agentInfoCode ++ [.release .registry]

/-- SOURCE: router_impl.go:151-205; registry_impl.go:119-131 -/
def routeCode (c i : ℕ) : List Instr :=
  locked .router ++ locked .registry ++ [.either [] (locked (.mux c)),
    .either (locked (.mux c)) (openStreamCode c i)]

/-- SOURCE: client_impl.go:224-245 -/
def teardownCode (c : ℕ) : List Instr :=
  locked (.client c) ++ [.either [] (goAwayCode c ++ closeSessionCode c)]

/-- SOURCE: client_impl.go:199-208 -/
def statusCode (c : ℕ) : List Instr :=
  [.acquire (.client c), .either [] (locked (.mux c)), .release (.client c)]

/-- The calls. Those with a stream that they make themselves do not name it. -/
inductive LockCall
  | openStream (c : ℕ)
  | goAway (c : ℕ)
  | ping (c : ℕ)
  | numStreams (c : ℕ)
  | closeSession (c : ℕ)
  /-- Enqueue, Dequeue and Close of the queue, whoever calls them -/
  | queue (c : ℕ)
  | handleAck (c : ℕ)
  | handleStreamOpen (c : ℕ)
  | handleStreamData (c i : ℕ)
  | handleStreamClose (c i : ℕ)
  | handleStreamReset (c i : ℕ)
  | handlePong (c : ℕ)
  | handleWindowUpdate (c i : ℕ)
  /-- State, Read, Write and ReceiveWindow -/
  | stream (c i : ℕ)
  | closeStream (c i : ℕ)
  | reset (c i : ℕ)
  | register (old : ℕ)
  | unregister (c : ℕ)
  /-- Lookup and SetCustomerLimit -/
  | registry
  | heartbeat (c : ℕ)
  | listConnectedAgents (cs : List ℕ)
  | route (c : ℕ)
  /-- the sections of Connect and of the heartbeat, and Mux -/
  | client (c : ℕ)
  | teardown (c : ℕ)
  | status (c : ℕ)
  deriving DecidableEq

/-- What a call does; `i` is the next stream of a session. -/
def LockCall.code (i : ℕ → ℕ) : LockCall → List Instr
  | .openStream c => openStreamCode c (i c)
  | .goAway c => goAwayCode c
  | .ping c => locked (.ping c) ++ locked (.queue c)
  | .numStreams c => locked (.mux c)
  | .closeSession c => closeSessionCode c
  | .queue c => locked (.queue c)
  | .handleAck c => locked (.pending c)
  | .handleStreamOpen c => handleStreamOpenCode c (i c)
  | .handleStreamData c i => handleStreamDataCode c i
  | .handleStreamClose c i => handleStreamCloseCode c i
  | .handleStreamReset c i => handleStreamResetCode c i
  | .handlePong c => locked (.ping c)
  | .handleWindowUpdate c i => handleWindowUpdateCode c i
  | .stream c i => locked (.stream c i)
  | .closeStream c i => closeStreamCode c i
  | .reset c i => resetCode c i
  | .register old => registerCode old
  | .unregister c => unregisterCode c
  | .registry => locked .registry
  | .heartbeat c => locked .registry ++ [.either [] (locked (.lastSeen c))]
  | .listConnectedAgents cs => listConnectedAgentsCode cs
  | .route c => routeCode c (i c)
  | .client c => locked (.client c)
  | .teardown c => teardownCode c
  | .status c => statusCode c

/-- The session in which a call makes a stream. -/
def LockCall.makes : LockCall → Option ℕ
  | .openStream c | .handleStreamOpen c | .route c => some c
  | _ => none

/-! ## The threads -/

/-- The locks, and what the goroutines have left to do. -/
structure Locking where
  holder : Lock → Option ℕ := fun _ => none
  /-- a `sync.Once` has run -/
  done : Lock → Bool := fun _ => false
  /-- closeCh of a session is closed -/
  closed : ℕ → Bool := fun _ => false
  /-- nobody else has a stream before `Open` has run -/
  state : ℕ × ℕ → StreamState := fun _ => .opened
  /-- the number of streams a session has made -/
  next : ℕ → ℕ := fun _ => 0
  threads : List (List Instr) := []
  /-- who has put a stream into the state Reset; the code does not keep it -/
  resetter : ℕ × ℕ → Option ℕ := fun _ => none

/-- The steps of the goroutines. -/
inductive LockingAction
  /-- a goroutine makes a call -/
  | call (f : LockCall)
  /-- goroutine `t` goes on: it takes the first branch or the other, and finds these streams -/
  | run (t : ℕ) (first : Bool) (found : List ℕ)
  deriving DecidableEq

namespace Locking

variable (s : Locking)

@[simps] def hold (l : Lock) (t : ℕ) : Locking :=
  { s with holder := Function.update s.holder l (some t) }

@[simps] def free (l : Lock) : Locking := { s with holder := Function.update s.holder l none }

@[simps] def setDone (o : Lock) : Locking := { s with done := Function.update s.done o true }

@[simps] def setClosed (c : ℕ) : Locking := { s with closed := Function.update s.closed c true }

@[simps] def setState (c i : ℕ) (st : StreamState) : Locking :=
  { s with state := Function.update s.state (c, i) st }

@[simps] def setResetter (c i t : ℕ) : Locking :=
  { s with resetter := Function.update s.resetter (c, i) (some t) }

@[simps] def setThread (t : ℕ) (k : List Instr) : Locking :=
  { s with threads := s.threads.set t k }

/-- The state after `Close`, if it is to tell the session.
SOURCE: stream_impl.go:154-168 -/
def afterClose : StreamState → Option StreamState
  | .opened => some .halfClosedLocal
  | .halfClosedRemote => some .closed
  | _ => none

/-- SOURCE: stream_impl.go:211-219 -/
def afterRemoteClose : StreamState → StreamState
  | .opened => .halfClosedRemote
  | .halfClosedLocal => .closed
  | st => st

/-- Thread `t` does the next thing, with `k` left after it. -/
def runInstr (t : ℕ) (first : Bool) (found : List ℕ) (k : List Instr) : Instr → Option Locking
  | .acquire l => if s.holder l = none then some ((s.hold l t).setThread t k) else none
  | .release l => some ((s.free l).setThread t k)
  | .either a b => some (s.setThread t ((if first then a else b) ++ k))
  | .onceDo o body =>
    if s.done o then some (s.setThread t k)
    else if s.holder o = none then some ((s.hold o t).setThread t (body ++ .onceEnd o :: k))
    else none
  | .onceEnd o => some (((s.free o).setDone o).setThread t k)
  | .closeSection c i =>
    match afterClose (s.state (c, i)) with
    | some st =>
      some ((s.setState c i st).setThread t (.release (.stream c i) ::
        .onceDo (.localCloseOnce c i) (maybeRemoveStreamCode c i) :: k))
    | none => some (s.setThread t (.release (.stream c i) :: k))
  | .remoteCloseSection c i =>
    some ((s.setState c i (afterRemoteClose (s.state (c, i)))).setThread t k)
  | .resetSection c i =>
    if (s.state (c, i)).Terminal then some (s.setThread t (.release (.stream c i) :: k))
    else
      some (((s.setState c i .reset).setResetter c i t).setThread t (.release (.stream c i) ::
        .onceDo (.resetOnce c i) [.onReset c i] :: k))
  | .onReset c _ =>
    -- SOURCE: mux_session.go:680-714
    if s.closed c then some (s.setThread t k)
    else some (s.setThread t (locked (.mux c) ++ .either [] (locked (.queue c)) :: k))
  | .closeCloseCh c => some ((s.setClosed c).setThread t k)
  | .resetAll c =>
    if found.Nodup ∧ ∀ i ∈ found, i < s.next c then
      some (s.setThread t (found.flatMap (resetCode c) ++ k))
    else none
  | .resetFound c =>
    match found with
    | [] => some (s.setThread t k)
    | i :: _ => if i < s.next c then some (s.setThread t (resetCode c i ++ k)) else none

/-- One step. -/
def step : LockingAction → Option Locking
  | .call f =>
    some { s with
      threads := s.threads ++ [f.code s.next]
      next := match f.makes with
        | some c => Function.update s.next c (s.next c + 1)
        | none => s.next }
  | .run t first found =>
    match s.threads[t]? with
    | some (x :: k) => s.runInstr t first found k x
    | _ => none

end Locking

end Atlax.Model
