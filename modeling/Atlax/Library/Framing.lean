import Mathlib.Data.List.Basic

/-!
# Self-delimiting encodings

A stream of records is written one encoding after the other. A reader takes one record at a time off
its input. If every encoding in front of the input is read back whole, and every input that stops
inside an encoding is an error, then a stream that is cut anywhere is read as the records that lie
in front of the cut, and then as an error.
-/

set_option autoImplicit false

namespace Atlax.Library

variable {α β ε σ : Type}

/-- What a reader `read`, on inputs `σ` that hold the symbols `bytes`, must do with the encodings of
the records in `valid`. -/
structure SelfDelimiting (valid : α → Prop) (encode : α → List β) (bytes : σ → List β)
    (read : σ → Except ε α × σ) : Prop where
  whole : ∀ a s rest, valid a → bytes s = encode a ++ rest →
    ∃ s', read s = (.ok a, s') ∧ bytes s' = rest
  cut : ∀ a s k, valid a → k < (encode a).length → bytes s = (encode a).take k →
    ∃ e s', read s = (.error e, s')
  stop : ∀ s, bytes s = [] → ∃ e s', read s = (.error e, s')

/-- Records with the same encoding are the same. -/
theorem SelfDelimiting.encode_inj {valid : α → Prop} {encode : α → List β} {bytes : σ → List β}
    {read : σ → Except ε α × σ} (h : SelfDelimiting valid encode bytes read) {a a' : α} {s : σ}
    (hv : valid a) (hv' : valid a') (hs : bytes s = encode a) (heq : encode a = encode a') :
    a = a' := by
  obtain ⟨s₁, hread, -⟩ := h.whole a s [] hv (by rw [hs, List.append_nil])
  obtain ⟨s₂, hread', -⟩ := h.whole a' s [] hv' (by rw [hs, heq, List.append_nil])
  rw [hread] at hread'
  cases hread'
  rfl

/-- Read until the first error, at most `fuel` times. -/
def readAll (read : σ → Except ε α × σ) : ℕ → σ → List α × Option ε
  | 0, _ => ([], none)
  | fuel + 1, s =>
    match read s with
    | (.ok a, s') => (a :: (readAll read fuel s').1, (readAll read fuel s').2)
    | (.error e, _) => ([], some e)

/-- The encodings of the records, one after the other. -/
def encodeAll (encode : α → List β) (as : List α) : List β := as.flatMap encode

@[simp] theorem encodeAll_nil (encode : α → List β) : encodeAll encode [] = [] := rfl

@[simp] theorem encodeAll_cons (encode : α → List β) (a : α) (as : List α) :
    encodeAll encode (a :: as) = encode a ++ encodeAll encode as := List.flatMap_cons

/-- A stream cut after `k` symbols: the reader gets the records whose encodings end in front of the
cut, in order and no other, and then an error. -/
theorem SelfDelimiting.readAll_take {valid : α → Prop} {encode : α → List β}
    {bytes : σ → List β} {read : σ → Except ε α × σ}
    (h : SelfDelimiting valid encode bytes read) (as : List α) (hv : ∀ a ∈ as, valid a) (k : ℕ)
    (s : σ) (hs : bytes s = (encodeAll encode as).take k) :
    ∃ n ≤ as.length,
      (∀ i < as.length, i < n ↔ (encodeAll encode (as.take (i + 1))).length ≤ k) ∧
      ∃ e, ∀ fuel, n < fuel → readAll read fuel s = (as.take n, some e) := by
  -- the last read is the one that fails
  have fail : ∀ {s : σ} {e : ε} {s' : σ}, read s = (.error e, s') →
      ∀ fuel, 0 < fuel → readAll read fuel s = ([], some e) := by
    intro s e s' hr fuel hfuel
    obtain ⟨fuel, rfl⟩ := Nat.exists_eq_succ_of_ne_zero (Nat.ne_of_gt hfuel)
    simp only [readAll, hr]
  induction as generalizing k s with
  | nil =>
    obtain ⟨e, s', hr⟩ := h.stop s (by simpa using hs)
    exact ⟨0, Nat.le_refl _, by simp, e, fail hr⟩
  | cons a as ih =>
    rw [encodeAll_cons] at hs
    by_cases hk : (encode a).length ≤ k
    · rw [List.take_append, List.take_of_length_le hk] at hs
      obtain ⟨s', hr, hs'⟩ := h.whole a s _ (hv a List.mem_cons_self) hs
      obtain ⟨n, hn, hwhole, e, hread⟩ := ih (fun b hb => hv b (List.mem_cons_of_mem _ hb))
        (k - (encode a).length) s' hs'
      refine ⟨n + 1, Nat.succ_le_succ hn, ?_, e, ?_⟩
      · intro i hi
        cases i with
        | zero => simpa using hk
        | succ i =>
          have hi' := hwhole i (Nat.lt_of_succ_lt_succ hi)
          rw [List.take_succ_cons, encodeAll_cons, List.length_append]
          omega
      · intro fuel hfuel
        obtain ⟨fuel, rfl⟩ := Nat.exists_eq_succ_of_ne_zero (Nat.ne_zero_of_lt hfuel)
        simp only [readAll, hr, hread fuel (Nat.lt_of_succ_lt_succ hfuel), List.take_succ_cons]
    · rw [List.take_append_of_le_length (by omega)] at hs
      obtain ⟨e, s', hr⟩ := h.cut a s k (hv a List.mem_cons_self) (by omega) hs
      refine ⟨0, Nat.zero_le _, ?_, e, fail hr⟩
      intro i _
      rw [List.take_succ_cons, encodeAll_cons, List.length_append]
      omega

end Atlax.Library
