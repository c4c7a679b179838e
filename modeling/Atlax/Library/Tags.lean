import Mathlib.Logic.Basic

/-!
# One tag per key

Things carry a key that is recycled and a tag that is not. `live i c` says that something live has
key `i` and tag `c`. When a step brings to life only what was live under the same key and tag, or
something with a fresh tag under a key that nothing live carried, the live things under one key
keep sharing one tag.
-/

set_option autoImplicit false

namespace Atlax.Library

variable {ι τ : Type}

/-- What is live under one key has one tag. -/
def Uniform (live : ι → τ → Prop) : Prop := ∀ i c c', live i c → live i c' → c = c'

theorem Uniform.step {live live' fresh : ι → τ → Prop} (h : Uniform live) (hf : Uniform fresh)
    (hstep : ∀ i c, live' i c → live i c ∨ fresh i c)
    (hnew : ∀ i c c', fresh i c → ¬ live i c') : Uniform live' := by
  intro i c c' hc hc'
  rcases hstep i c hc with hc | hc <;> rcases hstep i c' hc' with hc' | hc'
  · exact h i c c' hc hc'
  · exact absurd hc (hnew i c' c hc')
  · exact absurd hc' (hnew i c c' hc)
  · exact hf i c c' hc hc'

end Atlax.Library
