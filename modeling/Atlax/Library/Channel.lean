import Mathlib.Data.List.Basic

/-!
# Buffered channels

A channel has room for `capacity` values. A send waits for room and a receive for a value. When the
channel is closed, what is in it can still be received, and after that every receive finds it closed
at once; a send panics, and so does a second close.

A channel delivers in order: what was sent is what was received followed by what is in the buffer.
-/

set_option autoImplicit false

namespace Atlax.Library

/-- A buffered channel. -/
structure Channel (α : Type) (capacity : ℕ) where
  buffer : List α := []
  closed : Bool := false
  fits : buffer.length ≤ capacity := by exact Nat.zero_le _
  deriving DecidableEq

/-- What becomes of an operation: it waits, it panics, or it is done. -/
inductive Outcome (σ : Type)
  | blocks
  | panics
  | done (s : σ)
  deriving DecidableEq

namespace Channel

variable {α : Type} {capacity : ℕ}

def send (c : Channel α capacity) (v : α) : Outcome (Channel α capacity) :=
  if c.closed then .panics
  else if h : c.buffer.length < capacity then
    .done
      { buffer := c.buffer ++ [v]
        closed := false
        fits := by
          rw [List.length_append]
          exact h }
  else .blocks

/-- A receive gives a value, or nothing when the channel is closed and empty. -/
def recv (c : Channel α capacity) : Option (Option α × Channel α capacity) :=
  match h : c.buffer with
  | v :: rest =>
    some (some v,
      { c with
        buffer := rest
        fits := by
          have hfits := c.fits
          rw [h, List.length_cons] at hfits
          omega })
  | [] => if c.closed then some (none, c) else none

def close (c : Channel α capacity) : Outcome (Channel α capacity) :=
  if c.closed then .panics else .done { c with closed := true }

variable {c c' : Channel α capacity} {v : α}

theorem send_done (h : c.send v = .done c') :
    c.closed = false ∧ c'.closed = false ∧ c'.buffer = c.buffer ++ [v] := by
  unfold send at h
  split at h
  · cases h
  · next hopen =>
    split at h <;> cases h
    exact ⟨Bool.eq_false_iff.mpr hopen, rfl, rfl⟩

theorem send_panics_iff : c.send v = .panics ↔ c.closed = true := by
  constructor
  · intro h
    unfold send at h
    split at h
    · next hclosed => exact hclosed
    · split at h <;> cases h
  · intro hclosed
    unfold send
    rw [if_pos hclosed]

theorem recv_value (h : c.recv = some (some v, c')) :
    c.buffer = v :: c'.buffer ∧ c'.closed = c.closed := by
  unfold recv at h
  split at h
  · next hbuffer =>
    cases h
    exact ⟨hbuffer, rfl⟩
  · split at h <;> cases h

theorem recv_closed (h : c.recv = some (none, c')) :
    c.buffer = [] ∧ c.closed = true ∧ c' = c := by
  unfold recv at h
  split at h
  · cases h
  · next hbuffer =>
    split at h <;> cases h
    next hclosed => exact ⟨hbuffer, hclosed, rfl⟩

/-- Nothing is ever in a channel without a buffer: a receive is through when it is closed. -/
theorem recv_isSome_iff (c : Channel α 0) : c.recv.isSome = true ↔ c.closed = true := by
  have hbuffer : c.buffer = [] := List.length_eq_zero_iff.mp (Nat.le_zero.mp c.fits)
  unfold recv
  split
  · next hcons =>
    rw [hbuffer] at hcons
    cases hcons
  · cases c.closed <;> simp

theorem close_done (h : c.close = .done c') :
    c.closed = false ∧ c'.closed = true ∧ c'.buffer = c.buffer := by
  unfold close at h
  split at h
  · cases h
  · next hopen =>
    cases h
    exact ⟨Bool.eq_false_iff.mpr hopen, rfl, rfl⟩

theorem close_panics (h : c.close = .panics) : c.closed = true := by
  unfold close at h
  split at h
  · next hclosed => exact hclosed
  · cases h

theorem close_ne_blocks : c.close ≠ .blocks := by
  unfold close
  split <;> nofun

/-! ## Delivery -/

/-- Of the values `sent`, those in `received` have left the channel. -/
def Conveys (c : Channel α capacity) (sent received : List α) : Prop :=
  sent = received ++ c.buffer

variable {sent received : List α}

theorem Conveys.send (h : c.Conveys sent received) (hs : c.send v = .done c') :
    c'.Conveys (sent ++ [v]) received := by
  unfold Conveys at h ⊢
  rw [(send_done hs).2.2, h, List.append_assoc]

theorem Conveys.recv (h : c.Conveys sent received) (hr : c.recv = some (some v, c')) :
    c'.Conveys sent (received ++ [v]) := by
  unfold Conveys at h ⊢
  rw [h, (recv_value hr).1, List.append_assoc, List.singleton_append]

theorem Conveys.close (h : c.Conveys sent received) (hc : c.close = .done c') :
    c'.Conveys sent received := by
  unfold Conveys at h ⊢
  rw [(close_done hc).2.2, h]

end Channel

end Atlax.Library
