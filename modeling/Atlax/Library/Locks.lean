import Mathlib.Data.Nat.Basic

/-!
# Threads that wait for locks

A thread holds some locks and waits for one more, which another thread may hold. If the locks have
ranks, and whoever waits for a lock that is held has only locks of lower rank, then following the
threads from one to the holder of the lock it waits for goes up in rank, and ends at a thread that
waits for none. Only waits that really block count: a lock that is known to be free may be taken
against the order.
-/

set_option autoImplicit false

namespace Atlax.Library

section Locks

variable {θ κ : Type} {holder : κ → Option θ} {wants : θ → Option κ} {rank : κ → ℕ}

/-- The thread waits for a lock that is held. -/
def Waiting (holder : κ → Option θ) (wants : θ → Option κ) (t : θ) : Prop :=
  ∃ l u, wants t = some l ∧ holder l = some u

/-- Whoever waits for a lock that is held has locks of lower rank only. -/
def Ordered (holder : κ → Option θ) (wants : θ → Option κ) (rank : κ → ℕ) : Prop :=
  ∀ t l u, wants t = some l → holder l = some u → ∀ l', holder l' = some t → rank l' < rank l

/-- Behind a thread that waits stands one that holds a lock and does not wait. -/
theorem Ordered.exists_running (h : Ordered holder wants rank) {n : ℕ} (hn : ∀ l, rank l ≤ n)
    {t : θ} (ht : Waiting holder wants t) :
    ∃ u l, holder l = some u ∧ ¬ Waiting holder wants u := by
  obtain ⟨l, u, hl, hu⟩ := ht
  -- the rank of the lock that is waited for goes up
  obtain ⟨d, hd⟩ : ∃ d, n < rank l + d := ⟨n + 1, by omega⟩
  induction d generalizing t l u with
  | zero =>
    have hle := hn l
    omega
  | succ d ih =>
    by_cases hw : Waiting holder wants u
    · obtain ⟨l', u', hl', hu'⟩ := hw
      have hlt := h u l' u' hl' hu' l hu
      exact ih l' u' hl' hu' (by omega)
    · exact ⟨u, l, hu, hw⟩

end Locks

end Atlax.Library
