import Mathlib.Data.List.Basic

/-!
# A pipe that may break

A source hands chunks to a first-in first-out channel and then, at most once, an end mark; a sink
takes them out at the other end. The channel may break: a tail of what is under way is lost, and so
is all that the source hands over from then on. The source may also give up and never send the mark.

`Sound` is what a sink can rely on in all that. What it has received is a prefix of what the source
has handed over, and once it has taken the end mark it has received all of it.
-/

set_option autoImplicit false

namespace Atlax.Library

variable {α : Type}

/-- What a channel carries: chunks of data, and the end mark. -/
inductive Item (α : Type)
  | chunk (data : List α)
  | fin

/-- The data in a list of items. -/
def content : List (Item α) → List α
  | [] => []
  | .chunk data :: rest => data ++ content rest
  | .fin :: rest => content rest

@[simp] theorem content_append (l l' : List (Item α)) :
    content (l ++ l') = content l ++ content l' := by
  induction l with
  | nil => rfl
  | cons i l ih => cases i <;> simp [content, ih]

theorem chunk_eq_nil {l : List (Item α)} {data : List α} (h : content l = [])
    (hm : .chunk data ∈ l) : data = [] := by
  obtain ⟨l₁, l₂, rfl⟩ := List.append_of_mem hm
  rw [content_append, content, List.append_eq_nil_iff, List.append_eq_nil_iff] at h
  exact h.2.1

/-- A source, a channel and a sink. -/
structure Pipe (α : Type) where
  /-- what the source has handed over -/
  taken : List α
  /-- the source has sent the end mark, or has given up -/
  finished : Bool
  /-- what is in the channel, oldest first -/
  transit : List (Item α)
  broken : Bool
  /-- what the sink has taken out -/
  received : List α
  /-- the sink has taken the end mark -/
  ended : Bool

namespace Pipe

/-- Nothing has been handed over yet. -/
def empty (finished broken : Bool) : Pipe α := ⟨[], finished, [], broken, [], false⟩

/-- What can happen to a pipe. -/
inductive Step (p : Pipe α) : Pipe α → Prop
  | stay : Step p p
  | send (data : List α) (hf : p.finished = false) (hb : p.broken = false) :
      Step p { p with taken := p.taken ++ data, transit := p.transit ++ [Item.chunk data] }
  | lose (data : List α) (hf : p.finished = false) (hb : p.broken = true) :
      Step p { p with taken := p.taken ++ data }
  | finish (hf : p.finished = false) (hb : p.broken = false) :
      Step p { p with finished := true, transit := p.transit ++ [Item.fin] }
  | giveUp : Step p { p with finished := true }
  | cut (rest : List (Item α)) (h : rest <+: p.transit) :
      Step p { p with transit := rest, broken := true }
  | deliver (data : List α) (rest : List (Item α)) (h : p.transit = .chunk data :: rest) :
      Step p { p with transit := rest, received := p.received ++ data }
  | close (rest : List (Item α)) (h : p.transit = .fin :: rest) :
      Step p { p with transit := rest, ended := true }

/-- The end mark has been sent: it is under way, or the sink has it. -/
def Marked (p : Pipe α) : Prop := .fin ∈ p.transit ∨ p.ended = true

/-- What comes out went in, in its order. -/
structure Sound (p : Pipe α) : Prop where
  sub : p.received ++ content p.transit <+: p.taken
  whole : p.broken = false ∨ p.Marked → p.received ++ content p.transit = p.taken
  last : .fin ∉ p.transit.dropLast
  sealed : p.ended = true → p.transit = []
  finished : p.Marked → p.finished = true

theorem sound_empty (finished broken : Bool) : Sound (empty finished broken : Pipe α) := by
  constructor <;> simp [empty, content, Marked]

variable {p : Pipe α} {rest : List (Item α)}

/-- A chunk or a mark behind what is under way comes last. -/
theorem Sound.last_append (h : p.Sound) (hf : p.finished = false) (i : Item α) :
    .fin ∉ (p.transit ++ [i]).dropLast := by
  rw [List.dropLast_concat]
  intro hfin
  rw [h.finished (.inl hfin)] at hf
  cases hf

theorem Sound.send (h : p.Sound) (data : List α) (hf : p.finished = false)
    (hb : p.broken = false) :
    Sound { p with taken := p.taken ++ data, transit := p.transit ++ [Item.chunk data] } := by
  have hall := h.whole (.inl hb)
  have heq : p.received ++ content (p.transit ++ [Item.chunk data]) = p.taken ++ data := by
    rw [content_append, ← List.append_assoc, hall]
    simp [content]
  refine ⟨heq ▸ List.prefix_refl _, fun _ => heq, h.last_append hf _, ?_, ?_⟩
  · intro he
    rw [h.finished (.inr he)] at hf
    cases hf
  · rintro (hfin | he)
    · exact h.finished (.inl (by simpa using hfin))
    · exact h.finished (.inr he)

theorem Sound.finish (h : p.Sound) (hf : p.finished = false) (hb : p.broken = false) :
    Sound { p with finished := true, transit := p.transit ++ [Item.fin] } := by
  have hall := h.whole (.inl hb)
  have heq : p.received ++ content (p.transit ++ [Item.fin]) = p.taken := by
    simpa [content] using hall
  refine ⟨heq ▸ List.prefix_refl _, fun _ => heq, h.last_append hf _, ?_, fun _ => rfl⟩
  intro he
  rw [h.finished (.inr he)] at hf
  cases hf

/-- A mark in what a cut leaves is the last item, so that nothing was lost. -/
theorem Sound.eq_of_cut (h : p.Sound)
    (hcut : rest <+: p.transit) (hfin : .fin ∈ rest) : rest = p.transit := by
  obtain hnil | ⟨l, i, hl⟩ := List.eq_nil_or_concat' p.transit
  · rw [hnil] at hcut ⊢
    exact List.prefix_nil.mp hcut
  · have hlast := h.last
    rw [hl, List.dropLast_concat] at hlast
    rw [hl] at hcut ⊢
    obtain heq | hpre := List.prefix_concat_iff.mp hcut
    · exact heq
    · exact absurd (hpre.subset hfin) hlast

theorem Sound.cut (h : p.Sound) (hcut : rest <+: p.transit) :
    Sound { p with transit := rest, broken := true } := by
  refine ⟨?_, ?_, ?_, ?_, ?_⟩
  · obtain ⟨t, ht⟩ := hcut
    have hsub := h.sub
    rw [← ht, content_append, ← List.append_assoc] at hsub
    exact (List.prefix_append _ _).trans hsub
  · rintro (hb | hfin | he)
    · cases hb
    · rw [h.eq_of_cut hcut hfin]
      exact h.whole (.inr (.inl (h.eq_of_cut hcut hfin ▸ hfin)))
    · have hnil := h.sealed he
      rw [hnil] at hcut
      rw [List.prefix_nil.mp hcut, ← hnil]
      exact h.whole (.inr (.inr he))
  · intro hfin
    have heq := h.eq_of_cut hcut (List.dropLast_subset _ hfin)
    rw [heq] at hfin
    exact h.last hfin
  · intro he
    rw [h.sealed he] at hcut
    exact List.prefix_nil.mp hcut
  · rintro (hfin | he)
    · exact h.finished (.inl (h.eq_of_cut hcut hfin ▸ hfin))
    · exact h.finished (.inr he)

theorem Sound.deliver (h : p.Sound) {data : List α}
    (hd : p.transit = .chunk data :: rest) :
    Sound { p with transit := rest, received := p.received ++ data } := by
  have hmem : .fin ∈ rest → .fin ∈ p.transit := by
    intro hfin
    rw [hd]
    exact List.mem_cons_of_mem _ hfin
  have heq : (p.received ++ data) ++ content rest = p.received ++ content p.transit := by
    rw [hd, content, List.append_assoc]
  refine ⟨?_, ?_, ?_, ?_, ?_⟩
  · rw [heq]
    exact h.sub
  · intro hwhole
    exact heq.trans (h.whole (hwhole.imp_right fun hm => hm.imp_left hmem))
  · intro hfin
    have hlast := h.last
    rw [hd] at hlast
    cases rest with
    | nil => cases hfin
    | cons i l => exact hlast (List.mem_cons_of_mem _ hfin)
  · intro he
    rw [h.sealed he] at hd
    cases hd
  · intro hm
    exact h.finished (hm.imp_left hmem)

theorem Sound.close (h : p.Sound)
    (hd : p.transit = .fin :: rest) : Sound { p with transit := rest, ended := true } := by
  have hmem : .fin ∈ p.transit := by
    rw [hd]
    exact List.mem_cons_self
  -- the mark is the last item
  have hnil : rest = [] := by
    have hlast := h.last
    rw [hd] at hlast
    cases rest with
    | nil => rfl
    | cons i l => exact absurd List.mem_cons_self hlast
  have heq : p.received ++ content rest = p.taken := by
    have hall := h.whole (.inr (.inl hmem))
    rwa [hd, content] at hall
  refine ⟨heq ▸ List.prefix_refl _, fun _ => heq, ?_, fun _ => hnil, fun _ => ?_⟩
  · rw [hnil]
    exact List.not_mem_nil
  · exact h.finished (.inl hmem)

theorem Sound.step {p p' : Pipe α} (h : p.Sound) (hs : p.Step p') : p'.Sound := by
  cases hs with
  | stay => exact h
  | send data hf hb => exact h.send data hf hb
  | lose data hf hb =>
    refine ⟨h.sub.trans (List.prefix_append _ _), ?_, h.last, h.sealed, h.finished⟩
    rintro (hb' | hm)
    · rw [hb] at hb'
      cases hb'
    · rw [h.finished hm] at hf
      cases hf
  | finish hf hb => exact h.finish hf hb
  | giveUp => exact ⟨h.sub, h.whole, h.last, h.sealed, fun _ => rfl⟩
  | cut rest hcut => exact h.cut hcut
  | deliver data rest hd => exact h.deliver hd
  | close rest hd => exact h.close hd

/-- While the source hands over nothing more, a channel without data stays so. -/
theorem Step.content_nil {p p' : Pipe α} (hs : p.Step p') (ht : p'.taken = p.taken)
    (h : content p.transit = []) : content p'.transit = [] := by
  cases hs with
  | stay | lose | giveUp => exact h
  | send data =>
    rw [List.append_right_eq_self.mp ht, content_append, h]
    rfl
  | finish => simpa [content] using h
  | cut rest hcut =>
    obtain ⟨l, hl⟩ := hcut
    rw [← hl, content_append, List.append_eq_nil_iff] at h
    exact h.1
  | deliver data rest hd =>
    rw [hd, content, List.append_eq_nil_iff] at h
    exact h.2
  | close rest hd => rwa [hd, content] at h

end Pipe

end Atlax.Library
