import Mathlib.Algebra.Order.Field.Basic
import Mathlib.Tactic.Linarith
import Mathlib.Tactic.Ring

/-!
# An exact token bucket

A bucket gains `rate` tokens in a unit of time, up to `burst`, and gives one away when there is one.
It keeps the number of tokens it had at some time, and its level at any later time follows from
that. Two buckets with one level at a time behave alike from then on, and a bucket that nobody has
taken from for long enough is full.
-/

set_option autoImplicit false

namespace Atlax.Library

/-- The tokens that were there at the time `last`. -/
structure TokenBucket (K : Type) where
  tokens : K
  last : K
  deriving DecidableEq, Repr

namespace TokenBucket

variable {K : Type} [Field K] [LinearOrder K]

def full (burst now : K) : TokenBucket K := ⟨burst, now⟩

/-- The tokens that are there at the time `now`. -/
def level (rate burst : K) (b : TokenBucket K) (now : K) : K :=
  min burst (b.tokens + rate * (now - b.last))

/-- A token is taken if there is one. -/
def take (rate burst : K) (b : TokenBucket K) (now : K) : Bool × TokenBucket K :=
  if 1 ≤ b.level rate burst now then (true, ⟨b.level rate burst now - 1, now⟩) else (false, b)

variable {rate burst now : K} {b b' : TokenBucket K}

theorem level_le : b.level rate burst now ≤ burst := min_le_left _ _

theorem level_full : (full burst now).level rate burst now = burst := by
  unfold level full
  simp

theorem take_fst (h : b.level rate burst now = b'.level rate burst now) :
    (b.take rate burst now).1 = (b'.take rate burst now).1 := by
  unfold take
  rw [h]
  split <;> rfl

theorem take_last {t : K} (hlast : b.last ≤ t) (hnow : now ≤ t) :
    ((b.take rate burst now).2).last ≤ t := by
  unfold take
  split
  · exact hnow
  · exact hlast

variable [IsStrictOrderedRing K]

theorem level_later {elapsed : K} (h : 0 ≤ rate * elapsed) :
    b.level rate burst (now + elapsed) = min burst (b.level rate burst now + rate * elapsed) := by
  have hsum : b.tokens + rate * (now + elapsed - b.last) =
      b.tokens + rate * (now - b.last) + rate * elapsed := by ring
  have hcap : burst ≤ burst + rate * elapsed := le_add_of_nonneg_right h
  unfold level
  rw [hsum, ← min_add_add_right, ← min_assoc, min_eq_left hcap]

/-- A bucket that was left alone long enough is full. -/
theorem level_eq_burst (h0 : 0 ≤ b.tokens) (h : burst ≤ rate * (now - b.last)) :
    b.level rate burst now = burst := by
  unfold level
  refine min_eq_left ?_
  linarith

theorem level_take :
    ((b.take rate burst now).2).level rate burst now =
      if 1 ≤ b.level rate burst now then b.level rate burst now - 1
      else b.level rate burst now := by
  by_cases h : 1 ≤ b.level rate burst now
  · rw [take, if_pos h, if_pos h]
    have hle : b.level rate burst now ≤ burst := level_le
    have hrest : b.level rate burst now - 1 ≤ burst := by linarith
    show min burst (b.level rate burst now - 1 + rate * (now - now)) = _
    rw [sub_self, mul_zero, add_zero, min_eq_right hrest]
  · rw [take, if_neg h, if_neg h]

theorem take_tokens (h : 0 ≤ b.tokens) : 0 ≤ ((b.take rate burst now).2).tokens := by
  unfold take
  split
  · next hone => exact sub_nonneg.mpr hone
  · exact h

end TokenBucket

end Atlax.Library
