import Atlax.Analysis.CellInvariants
import Atlax.Analysis.Ownership

/-!
# A stream that has not ended is in the map

When identifiers go only to streams whose predecessors have settled, an entry is removed on behalf
of its own stream only, and the sections that remove it run for a stream that has ended or whose
open was cancelled. So frames for a stream that is still open find it.
-/

set_option autoImplicit false

namespace Atlax.Analysis

open Atlax.Model Atlax.Library

/-- The stream has ended, or the open that made it is about to reset it. -/
def Gone (c : Cell) : Prop := c.stream.state.Terminal ∨ ∃ f, c.openPc = .resetting f

/-- A stream that has not ended is in the map. -/
structure MappedInv (s : Session) : Prop where
  ending : ∀ r p, s.reader = .delete r p ∨ s.reader = .awaitReset r p ∨
    s.reader = .resetRemove r p → (s.cells r).stream.state.Terminal
  mapped : ∀ r < s.nextRef, ¬ Gone (s.cells r) → s.table.get (s.cells r).stream.id = some r
  held : ∀ r < s.nextRef, (s.cells r).handle = true →
    (s.cells r).openPc = .accepted ∨ (s.cells r).openPc = .returned

variable {s s' : Session} {a : Action} {r : Ref} {c c' : Cell}

theorem terminal_reset (c : Cell) (code : ℕ) (byFrame : Bool) :
    (c.reset code byFrame).stream.state.Terminal := by
  unfold Cell.reset StreamSession.reset
  by_cases h : c.stream.state = .reset ∨ c.stream.state = .closed
  · simpa [h, StreamState.Terminal] using h.symm
  · simp [h, StreamState.Terminal]

/-- The removals at the end of a handler were ahead, or the handler has just seen that the stream
has ended. -/
theorem move_ending (hm : Move s a s') {p : Packet}
    (h : s'.reader = .delete r p ∨ s'.reader = .awaitReset r p ∨ s'.reader = .resetRemove r p) :
    (s.reader = .delete r p ∨ s.reader = .awaitReset r p ∨ s.reader = .resetRemove r p) ∨
      (s'.cells r).stream.state.Terminal := by
  have hrd := move_readerPc hm
  generalize s.reader = pc, s'.reader = pc' at hrd h
  cases hrd with
  | stay => exact .inl h
  | notified => exact .inl (.inr (.inl (by simpa using h)))
  | isClosed _ _ hst =>
    obtain ⟨rfl, -⟩ : r = _ ∧ p = _ := by simpa [eq_comm] using h
    exact .inr (.inl hst)
  | isReset _ _ hst =>
    obtain ⟨rfl, -⟩ : r = _ ∧ p = _ := by simpa [eq_comm] using h
    exact .inr (.inr hst)
  | notify _ _ _ hc | silent _ _ hc =>
    obtain ⟨rfl, -⟩ : r = _ ∧ p = _ := by simpa [eq_comm] using h
    rw [hc]
    exact .inr (terminal_reset _ _ true)
  | _ => rcases h with h | h | h <;> cases h

theorem call_handle {k : Call} (h : CellCall c k c') : c'.handle = c.handle := by
  cases h <;> rfl

theorem drain_handle {b : Bool} {p : Option Packet} (h : CellDrain c b c' p) :
    c'.handle = c.handle := by
  cases h <;> rfl

/-- A holder had the stream, or has just got it from AcceptStream or from OpenStream. -/
theorem move_handle (hm : Move s a s') (hr : r < s.nextRef)
    (h : (s'.cells r).handle = true) :
    (s.cells r).handle = true ∨ r ∈ s.acceptCh ∨ (s'.cells r).openPc = .returned := by
  cases hm with
  | openAlloc | acceptInsert =>
    left
    simpa [Function.update_of_ne (Nat.ne_of_lt hr)] using h
  | openAck r₀ =>
    by_cases hr₀ : r = r₀
    · subst hr₀
      exact .inr (.inr (by simp))
    · left
      simpa [Function.update_of_ne hr₀] using h
  | acceptStream r₀ rest hch =>
    by_cases hr₀ : r = r₀
    · rw [hch, hr₀]
      exact .inr (.inl List.mem_cons_self)
    · left
      simpa [Function.update_of_ne hr₀] using h
  | openReset r₀ _ found =>
    have hfound := (update_field Cell.handle (by rfl) r).symm.trans h
    exact .inl ((update_field Cell.handle (by rfl) r).symm.trans hfound)
  | call _ _ _ _ _ hc => exact .inl ((update_field Cell.handle (call_handle hc) r).symm.trans h)
  | drain _ _ _ _ hc | drainSend _ _ _ _ _ hc =>
    exact .inl ((update_field Cell.handle (drain_handle hc) r).symm.trans h)
  | closingStreams =>
    simp only [Session.setClosing_cells, Session.resetStreams_cells] at h
    split at h <;> exact .inl h
  | register | sendOpen | openCancel | openClosed | openCleanup | openRemove | openRemoveNone
  | closeFin | closeCheckClosed | closeCheckReset | closeDelete | resetCheck | resetLookup
  | resetSend | ackSend | deliver | remoteClose | resetting | windowUpdate =>
    exact .inl ((update_field Cell.handle (by rfl) r).symm.trans h)
  | _ => exact .inl h

theorem cell_returned {rd : ReaderPc} (hm : CellMove a rd r c c')
    (h : c.openPc = .returned) : c'.openPc = .returned := by
  cases hm with
  | call k c' _ _ hc => rwa [call_openPc hc]
  | drain d b c' p _ hc => rwa [drain_openPc hc]
  | openAck => rfl
  | register hpc | sendOpen _ hpc | openCancel hpc | openClosed hpc | openRemoveNone hpc
  | openCleanup _ hpc | openRemove _ hpc | openFailed _ hpc | openFailedReset hpc =>
    rw [h] at hpc
    cases hpc
  | _ => exact h

/-- The open that is about to reset a stream stays there until it has reset it. -/
theorem move_resetting (hm : Move s a s') {r f : Ref} (hr : r < s.nextRef)
    (h : (s.cells r).openPc = .resetting f) :
    (s'.cells r).openPc = .resetting f ∨ (s'.cells f).stream.state.Terminal := by
  obtain heq | ⟨o, rfl, -⟩ := move_open hm hr
  · exact .inl (heq.trans h)
  · cases hm with
    | openReset _ _ found hpc =>
      rw [h] at hpc
      cases hpc
      right
      simpa using terminal_reset _ 0 false
    | register _ _ hpc | sendOpen _ _ hpc | openAck _ _ hpc | openCancel _ _ hpc
    | openClosed _ _ hpc | openCleanup _ _ _ hpc | openRemove _ _ hpc | openRemoveNone _ _ hpc =>
      rw [h] at hpc
      cases hpc

/-- What has not gone after a step had not gone before it. -/
theorem gone_move (hI : OwnershipInv s) (hm : Move s a s') (hr : r < s.nextRef)
    (h : Gone (s.cells r)) : Gone (s'.cells r) := by
  rcases h with h | ⟨f, h⟩
  · left
    rwa [(move_evolves hm r hr).terminal h]
  · rcases move_resetting hm hr h with h' | h'
    · exact .inr ⟨f, h'⟩
    · exact .inl (hI.found r hr f h ▸ h')

/-- The step takes stream `r` out of the map: a section that removes the entry on its behalf, the
teardown of the session, or a new stream under the identifier of one that has settled. -/
inductive Removes (s : Session) (r : Ref) : Action → Prop
  | cancelled (hpc : (s.cells r).openPc = .remove) : Removes s r (.opening r .remove)
  | closed (hpc : (s.cells r).closePc = .delete) : Removes s r (.callback r .closeDelete)
  | reset (hpc : (s.cells r).resetPc.running = true) : Removes s r (.callback r .resetLookup)
  | closeFrame (p : Packet) (hrd : s.reader = .delete r p) : Removes s r .reader
  | resetFrame (p : Packet) (hrd : s.reader = .resetRemove r p) : Removes s r .reader
  | teardown (hcl : s.closing = .streams) : Removes s r .closing
  | reissued (a : Action) (hs : Settled s r) : Removes s r a

/-- An entry stays in the map until its own stream is removed. -/
theorem entry_removed (hI : OwnershipInv s) (hok : ReissuesSettled s a) (hm : Move s a s')
    (hr : r < s.nextRef) (hget : s.table.get (s.cells r).stream.id = some r) :
    s'.table.get (s.cells r).stream.id = some r ∨ Removes s r a := by
  -- a section that removes the entry runs for this very stream
  have own : ∀ r₀, r₀ < s.nextRef → ¬ Settled s r₀ →
      (s.cells r).stream.id = (s.cells r₀).stream.id → r = r₀ :=
    fun r₀ hr₀ hb hid => hI.own hget hr₀ hid.symm hb
  cases hm with
  | openAlloc payload _ hlen =>
    by_cases hid : (s.cells r).stream.id = s.table.allocID.1
    · exact .inr (.reissued _ (hok hlen r hr hid))
    · exact .inl (by simpa [hid] using hget)
  | acceptInsert p hrd =>
    simp only [ReissuesSettled, hrd] at hok
    by_cases hid : (s.cells r).stream.id = p.frame.streamID
    · exact .inr (.reissued _ (hok r hr hid))
    · exact .inl (by simpa [hid] using hget)
  | openRemove r₀ hr₀ hpc found =>
    by_cases hid : (s.cells r).stream.id = (s.cells r₀).stream.id
    · have heq := own r₀ hr₀ (fun hs => by simpa [hpc, OpenPc.running] using hs.1.2.2.2) hid
      subst heq
      exact .inr (.cancelled hpc)
    · exact .inl (by simpa [hid] using hget)
  | closeDelete r₀ hr₀ hpc =>
    by_cases hid : (s.cells r).stream.id = (s.cells r₀).stream.id
    · have heq := own r₀ hr₀ (fun hs => by simpa [hpc, ClosePc.running] using hs.1.2.1) hid
      subst heq
      exact .inr (.closed hpc)
    · exact .inl (by simpa [hid] using hget)
  | resetLookup r₀ hr₀ code hpc =>
    by_cases hid : (s.cells r).stream.id = (s.cells r₀).stream.id
    · have hrun : (s.cells r₀).resetPc.running = true := by simp [hpc, ResetPc.running]
      have heq := own r₀ hr₀ (fun hs => by simpa [hrun] using hs.1.2.2.1) hid
      subst heq
      exact .inr (.reset hrun)
    · exact .inl (by simpa [hid] using hget)
  | delete r₀ p hrd | resetRemove r₀ p hrd =>
    have hst : s.reader.stream = some (r₀, p) := by rw [hrd]; rfl
    obtain ⟨hr₀, hid₀⟩ := hI.wellFormed.reader r₀ p hst
    by_cases hid : (s.cells r).stream.id = p.frame.streamID
    · have heq := own r₀ hr₀ (fun hs => hs.2 (by simp [hst])) (hid.trans hid₀.symm)
      subst heq
      first
        | exact .inr (.closeFrame p hrd)
        | exact .inr (.resetFrame p hrd)
    · exact .inl (by simpa [hid] using hget)
  | closingStreams hcl => exact .inr (.teardown hcl)
  | _ => exact .inl hget

/-- An entry of a stream that has not gone stays in the map. -/
theorem mapped_stays (hI : OwnershipInv s) (hM : MappedInv s)
    (hC : ∀ r < s.nextRef, CellInv (s.cells r)) (hok : ReissuesSettled s a) (hm : Move s a s')
    (hr : r < s.nextRef) (hget : s.table.get (s.cells r).stream.id = some r)
    (h : ¬ Gone (s'.cells r)) : s'.table.get (s.cells r).stream.id = some r := by
  have hbefore : ¬ Gone (s.cells r) := fun hg => h (gone_move hI hm hr hg)
  rcases entry_removed hI hok hm hr hget with hget' | hrem
  · exact hget'
  · exfalso
    cases hrem with
    | cancelled hpc =>
      cases hm with
      | openRemove _ _ _ found => exact h (.inr ⟨found, by simp⟩)
      | openRemoveNone _ _ _ hnone =>
        rw [hget] at hnone
        cases hnone
    | closed hpc => exact hbefore (.inl ((hC r hr).delete hpc))
    | reset hpc => exact hbefore (.inl (.inr ((hC r hr).resetting hpc)))
    | closeFrame p hrd => exact hbefore (.inl (hM.ending r p (.inl hrd)))
    | resetFrame p hrd => exact hbefore (.inl (hM.ending r p (.inr (.inr hrd))))
    | reissued _ hs => exact hbefore (.inl hs.1.1)
    | teardown hcl =>
      cases hm with
      | closingStreams =>
        refine h (.inl ?_)
        have hmem : r ∈ s.table.streams.entries.map (·.2) :=
          List.mem_map.mpr ⟨⟨_, r⟩, AList.mem_lookup_iff.mp hget, rfl⟩
        simp only [Session.setClosing_cells, Session.resetStreams_cells, hmem, if_true]
        exact terminal_reset _ 0 false
      | closingQueue hq | closingTransport hq =>
        rw [hcl] at hq
        cases hq

theorem mappedInv_move (hI : OwnershipInv s) (hC : ∀ r < s.nextRef, CellInv (s.cells r))
    (hM : MappedInv s) (hok : ReissuesSettled s a) (hm : Move s a s') : MappedInv s' := by
  constructor
  · intro r p h
    rcases move_ending hm h with hold | hst
    · have hst := hM.ending r p hold
      have hr : r < s.nextRef := by
        have hst : s.reader.stream = some (r, p) := by
          rcases hold with h | h | h <;> rw [h] <;> rfl
        exact (hI.wellFormed.reader r p hst).1
      rwa [(move_evolves hm r hr).terminal hst]
    · exact hst
  · intro r hr h
    rcases move_new hm hr with hold | ⟨rfl, _⟩
    · have hget := hM.mapped r hold fun hg => h (gone_move hI hm hold hg)
      rw [(move_evolves hm r hold).id]
      exact mapped_stays hI hM hC hok hm hold hget h
    · exact (move_fresh hm hr).1
  · intro r hr hh
    rcases move_new hm hr with hold | ⟨rfl, ⟨_, _, hc⟩ | ⟨_, _, _, hc⟩⟩
    · have hacc := (move_evolves hm r hold).accepted
      rcases move_handle hm hold hh with hh | hch | hret
      · rcases hM.held r hold hh with hpc | hpc
        · exact .inl (hacc.mpr hpc)
        · exact .inr (cell_returned (move_cell hm hold) hpc)
      · exact .inl (hacc.mpr (hI.wellFormed.acceptCh r hch).2)
      · exact .inr hret
    · rw [hc] at hh
      cases hh
    · rw [hc] at hh
      cases hh

theorem mappedInv_reach {role : Role} {config : MuxConfig}
    (h : SessionReach role config ReissuesSettled s) : MappedInv s := by
  refine Reach.invariant MappedInv h ?_ ?_
  · constructor
    · intro r p h
      rcases h with h | h | h <;> cases h
    · intro r hr
      cases hr
    · intro r hr
      cases hr
  · intro s a s' hr hM hok hstep
    exact mappedInv_move (ownershipInv_reach hr) (cellInv_reach hr) hM hok (step_move hstep)

end Atlax.Analysis
