import Atlax.Library.TokenBucket
import Mathlib.Algebra.Order.Ring.Rat
import Mathlib.Logic.Function.Basic

/-!
# The rate limiter of a port

`IPRateLimiter` (ratelimit.go) keeps one `rate.Limiter` for each source IP. An Allow finds or makes
the entry of its IP and notes the time under the mutex, and asks the entry's limiter after that, at
a time of its own; sweep drops the entries that have not been seen for the stale timeout. The
limiter is an exact token bucket; limiters stay on a heap, so that an Allow can ask one whose entry
has been dropped. Times are in seconds.
-/

set_option autoImplicit false

namespace Atlax.Model

open Atlax.Library

/-- SOURCE: ratelimit.go:13 -/
def defaultStaleTimeout : ℚ := 600

/-- An entry: which of the limiters made for its IP it holds, and when it was seen.
SOURCE: ratelimit.go:30-33 -/
structure IPEntry where
  limiter : ℕ
  lastSeen : ℚ
  deriving DecidableEq, Repr

/-- An Allow call: its IP, the limiter it has found, the time of its section, and whether it has
returned. -/
structure AllowCall where
  ip : String
  limiter : ℕ
  seen : ℚ
  returned : Bool := false
  deriving DecidableEq, Repr

/-- `limiters ip k` is the `k`-th limiter that was made, if it was made for `ip`.
SOURCE: ratelimit.go:21-28 -/
structure IPRateLimiter where
  rps : ℚ
  burst : ℕ
  entries : String → Option IPEntry
  limiters : String → ℕ → TokenBucket ℚ
  made : ℕ := 0
  calls : List AllowCall := []
  clock : ℚ

/-- SOURCE: ratelimit.go:37-46 -/
def newIPRateLimiter (rps : ℚ) (burst : ℕ) (clock : ℚ) : IPRateLimiter where
  rps := rps
  burst := burst
  entries := fun _ => none
  limiters := fun _ _ => .full burst clock
  clock := clock

/-- The steps of a limiter's callers. -/
inductive RateAction
  /-- the section of an Allow -/
  | allow (ip : String)
  /-- call `i` asks its limiter and returns -/
  | ask (i : ℕ)
  /-- sweep, with the time it has read before it takes the mutex -/
  | sweep (now : ℚ)
  | tick (elapsed : ℚ)
  deriving DecidableEq, Repr

namespace IPRateLimiter

variable (rl : IPRateLimiter)

/-- The entry an Allow finds or makes, seen now.
SOURCE: ratelimit.go:52-59 -/
def seen (ip : String) : IPEntry :=
  match rl.entries ip with
  | some entry => { entry with lastSeen := rl.clock }
  | none => ⟨rl.made, rl.clock⟩

/-- SOURCE: ratelimit.go:51-60 -/
def allow (ip : String) : IPRateLimiter :=
  { rl with
    entries := Function.update rl.entries ip (some (rl.seen ip))
    limiters :=
      if (rl.entries ip).isSome then rl.limiters
      else Function.update rl.limiters ip
        (Function.update (rl.limiters ip) rl.made (.full rl.burst rl.clock))
    made := if (rl.entries ip).isSome then rl.made else rl.made + 1
    calls := rl.calls ++ [⟨ip, (rl.seen ip).limiter, rl.clock, false⟩] }

/-- What the limiter of a call answers now, with the limiter after that. -/
def answer (c : AllowCall) : Bool × TokenBucket ℚ :=
  (rl.limiters c.ip c.limiter).take rl.rps rl.burst rl.clock

/-- SOURCE: ratelimit.go:62 -/
def ask (i : ℕ) (c : AllowCall) : IPRateLimiter :=
  { rl with
    limiters := Function.update rl.limiters c.ip
      (Function.update (rl.limiters c.ip) c.limiter (rl.answer c).2)
    calls := rl.calls.set i { c with returned := true } }

/-- SOURCE: ratelimit.go:93-103 -/
def sweep (now : ℚ) : IPRateLimiter :=
  { rl with
    entries := fun ip =>
      (rl.entries ip).filter fun entry => ¬ entry.lastSeen < now - defaultStaleTimeout }

def step : RateAction → Option IPRateLimiter
  | .allow ip => some (rl.allow ip)
  | .ask i =>
    match rl.calls[i]? with
    | some c => if c.returned then none else some (rl.ask i c)
    | none => none
  | .sweep now => if now ≤ rl.clock then some (rl.sweep now) else none
  | .tick elapsed => if 0 ≤ elapsed then some { rl with clock := rl.clock + elapsed } else none

/-- What the call that returns with the step returns, if one does. -/
def returns : RateAction → Option Bool
  | .ask i => (rl.calls[i]?).map fun c => (rl.answer c).1
  | .allow _ | .sweep _ | .tick _ => none

end IPRateLimiter

end Atlax.Model
