import Atlax.Analysis.Provenance

/-!
# What holds of one stream and its goroutines

The bytes that Writes put in and the drain goroutine takes out, the bytes delivered and read, and
what the program counters of a stream's goroutines say about its state. All of it is local to a
cell: it holds at creation and every `CellMove` keeps it, whatever the session and the peer do.
-/

set_option autoImplicit false

namespace Atlax.Analysis

open Atlax.Model Atlax.Library

variable {c c' : Cell}

/-- The drain goroutine is on its way to STREAM_CLOSE. -/
def finishing : DrainPc → Bool
  | .flush | .sendFIN => true
  | .enqueue _ flushing => flushing
  | .idle | .select | .sawClosed | .awaitFIN | .done => false

/-- The FIN of a closed half is yet to be queued: the token is to be sent or taken, or the drain
goroutine is on its way to STREAM_CLOSE. -/
def FinPending (c : Cell) : Prop :=
  c.closePc = .fin ∨ c.stream.finCh = true ∨ finishing c.drainPc = true

instance (c : Cell) : Decidable (FinPending c) := inferInstanceAs (Decidable (_ ∨ _))

/-- No holder has used the stream. -/
structure Untouched (c : Cell) : Prop where
  wrote : c.hist.wrote = []
  writers : c.writers = []
  writeOut : c.stream.writeOut = []
  inHand : c.inHand = []
  closedAt : c.hist.closedAt = none
  got : c.hist.got = []

/-- A stream's bytes are accounted for. -/
structure CellInv (c : Cell) : Prop where
  /-- what was written is what was drained and what waits in `writeOut` -/
  flow : c.hist.drained ++ c.stream.writeOut.flatten = c.hist.wrote
  /-- what was delivered is what was read and what waits in the read buffer -/
  buffer : c.stream.state ≠ .reset → c.hist.got ++ c.stream.readBuf = c.hist.delivered
  notIdle : c.stream.state ≠ .idle
  closeOnce : c.stream.localCloseOnce = c.hist.closedAt.isSome
  localClosed : c.stream.state.LocalClosed → c.hist.closedAt ≠ none
  closedAt : c.hist.closedAt ≠ none → c.stream.state.LocalClosed ∨ c.stream.state = .reset
  closedSub : ∀ b, c.hist.closedAt = some b → b <+: c.hist.wrote
  fin : FinPending c → c.hist.closedAt ≠ none
  sendFIN : c.drainPc = .sendFIN → ∀ b, c.hist.closedAt = some b → b <+: c.hist.drained
  resetOnce : c.stream.resetOnce = true → c.stream.state = .reset
  resetting : c.resetPc.running = true → c.stream.state = .reset
  delete : c.closePc = .delete → c.stream.state.Terminal
  unsent : c.openPc = .register ∨ c.openPc = .enqueue → c.drainPc = .idle
  unheld : c.handle = false → Untouched c

theorem cellInv_opened (s : Session) (payload : Bytes) : CellInv (s.openedCell payload) := by
  constructor <;>
    simp [Session.openedCell, StreamSession.opened, newStreamSession, FinPending, finishing,
      ResetPc.running, StreamState.LocalClosed]
  constructor <;> rfl

theorem cellInv_accepted (s : Session) (p : Packet) : CellInv (s.acceptedCell p) := by
  unfold Session.acceptedCell
  dsimp only
  split <;> constructor <;>
    simp [StreamSession.opened, newStreamSession, FinPending, finishing, ResetPc.running,
      StreamSession.setOpenPayload, StreamState.LocalClosed]
  all_goals constructor <;> rfl

/-- A move that leaves the stream, its history, its Writes and its drain goroutine alone. -/
theorem CellInv.congr (h : CellInv c) (hf : c'.closePc = .fin → c.closePc = .fin)
    (hr : c'.resetPc.running = true → c.stream.state = .reset)
    (hdel : c'.closePc = .delete → c.stream.state.Terminal)
    (hu : c'.openPc = .register ∨ c'.openPc = .enqueue → c.drainPc = .idle)
    (ho : c'.handle = false → c.handle = false) (hs : c'.stream = c.stream := by rfl)
    (hh : c'.hist = c.hist := by rfl) (hw : c'.writers = c.writers := by rfl)
    (hd : c'.drainPc = c.drainPc := by rfl) : CellInv c' := by
  have hin : c'.inHand = c.inHand := by simp [Cell.inHand, hd]
  constructor
  case fin =>
    rw [hh]
    intro hp
    refine h.fin ?_
    simp only [FinPending, hs, hd] at hp ⊢
    exact hp.imp_left hf
  case resetting => rwa [hs]
  case delete => rwa [hs]
  case unsent => rwa [hd]
  case unheld =>
    intro hh'
    have hu := h.unheld (ho hh')
    exact ⟨by rw [hh, hu.wrote], by rw [hw, hu.writers], by rw [hs, hu.writeOut],
      by rw [hin, hu.inHand], by rw [hh, hu.closedAt], by rw [hh, hu.got]⟩
  all_goals simp only [hs, hh, hd]
  · exact h.flow
  · exact h.buffer
  · exact h.notIdle
  · exact h.closeOnce
  · exact h.localClosed
  · exact h.closedAt
  · exact h.closedSub
  · exact h.sendFIN
  · exact h.resetOnce

theorem cellInv_reset (h : CellInv c) (code : ℕ) (byFrame : Bool) :
    CellInv (c.reset code byFrame) := by
  unfold Cell.reset StreamSession.reset
  by_cases hst : c.stream.state = .reset ∨ c.stream.state = .closed
  · -- a stream that has ended is left alone
    simp only [hst, if_true, Bool.false_eq_true, if_false]
    cases byFrame <;> exact { h with unheld := fun hh => { h.unheld hh with } }
  · simp only [hst, if_false]
    cases byFrame
    all_goals
      exact { h with
        buffer := fun hne => absurd rfl hne
        notIdle := nofun
        localClosed := fun hl => by rcases hl with hl | hl <;> cases hl
        closedAt := fun _ => .inr rfl
        resetOnce := fun _ => rfl
        resetting := fun _ => rfl
        delete := fun _ => .inr rfl
        unheld := fun hh => { h.unheld hh with } }

theorem cellInv_close (h : CellInv c) (hh : c.handle = true) : CellInv c.close := by
  by_cases hst : c.stream.state = .opened ∨ c.stream.state = .halfClosedRemote
  · -- the half is closed now, and was not before
    have hr : c.stream.state ≠ .reset := by rcases hst with hst | hst <;> simp [hst]
    have hnone : c.hist.closedAt = none := by
      by_contra hcl
      rcases h.closedAt hcl with (h' | h') | h' <;> rcases hst with hst | hst <;> rw [hst] at h' <;>
        cases h'
    have honce : c.stream.localCloseOnce = false := by
      rw [h.closeOnce, hnone]
      rfl
    have hsend : c.drainPc ≠ .sendFIN := fun hpc =>
      h.fin (.inr (.inr (by simp [hpc, finishing]))) hnone
    have closed : ∀ (st : StreamState) (ch : Bool), st.LocalClosed → CellInv { c with
        stream := { c.stream with state := st, closedCh := ch, localCloseOnce := true }
        closePc := .fin
        hist := { c.hist with closedAt := some c.hist.wrote } } := by
      intro st ch hst
      exact { h with
        buffer := fun _ => h.buffer hr
        notIdle := by rcases hst with hst | hst <;> simp [hst]
        closeOnce := rfl
        localClosed := nofun
        closedAt := fun _ => .inl hst
        closedSub := fun b hb => by cases hb; exact List.prefix_refl _
        fin := nofun
        sendFIN := fun hpc => absurd hpc hsend
        resetOnce := fun ho => absurd (h.resetOnce ho) hr
        resetting := fun ho => absurd (h.resetting ho) hr
        delete := nofun
        unheld := fun hf => absurd (hh.symm.trans hf) nofun }
    rcases hst with hst | hst
    · simpa [Cell.close, StreamSession.close, hst, honce] using
        closed .halfClosedLocal c.stream.closedCh (.inl rfl)
    · simpa [Cell.close, StreamSession.close, hst, honce] using closed .closed true (.inr rfl)
  · have hsame : c.stream.close = (c.stream, false) := by
      unfold StreamSession.close
      split
      · next hopen => exact absurd (.inl hopen) hst
      · next hremote => exact absurd (.inr hremote) hst
      · rfl
    unfold Cell.close
    rw [hsame]
    exact h

theorem cellInv_call {k : Call} (h : CellInv c) (hh : c.handle = true)
    (hc : CellCall c k c') : CellInv c' := by
  have held : ∀ {P : Prop}, c.handle = false → P := fun hf => absurd (hh.symm.trans hf) nofun
  cases hc with
  | writeRefused | readEof => exact h
  | close => exact cellInv_close h hh
  | reset code => exact cellInv_reset h code false
  | write | writeFail => exact { h with unheld := held }
  | writeSend data =>
    exact { h with
      flow := by simp [← h.flow]
      closedSub := fun b hb => (h.closedSub b hb).trans (List.prefix_append _ _)
      unheld := held }
  | readBytes n =>
    exact { h with buffer := fun hst => by simpa using h.buffer hst, unheld := held }

/-- The drain goroutine moves on and takes nothing. -/
theorem CellInv.drainPc (h : CellInv c) (hidle : c.drainPc ≠ .idle) {pc : DrainPc}
    (hfin : finishing pc = true → finishing c.drainPc = true)
    (hsend : pc = .sendFIN → ∀ b, c.hist.closedAt = some b → b <+: c.hist.drained)
    (hhand : ∀ data flushing, pc ≠ .enqueue data flushing) : CellInv { c with drainPc := pc } :=
  { h with
    fin := fun hp => h.fin (hp.imp_right (Or.imp_right hfin))
    sendFIN := hsend
    unsent := fun ho => absurd (h.unsent ho) hidle
    unheld := fun hh => { h.unheld hh with
      inHand := by cases pc <;> first | rfl | exact absurd rfl (hhand _ _) } }

theorem cellInv_drain {b : Bool} {p : Option Packet} (h : CellInv c)
    (hc : CellDrain c b c' p) : CellInv c' := by
  cases hc with
  | take data rest flushing hpc hout =>
    have hidle : c.drainPc ≠ .idle := by cases flushing <;> simp [hpc]
    have hfin : flushing = true → finishing c.drainPc = true := by
      rintro rfl
      simp [hpc, finishing]
    exact { h with
      flow := by simp [← h.flow, hout]
      fin := fun hp => h.fin (hp.imp_right (Or.imp_right hfin))
      sendFIN := nofun
      unsent := fun ho => absurd (h.unsent ho) hidle
      unheld := fun hh => absurd (h.unheld hh).writeOut (by simp [hout]) }
  | takeFIN hpc hfin =>
    have hidle : c.drainPc ≠ .idle := by rcases hpc with hpc | hpc <;> simp [hpc]
    exact { h with
      fin := fun _ => h.fin (.inr (.inl hfin))
      sendFIN := nofun
      unsent := fun ho => absurd (h.unsent ho) hidle
      unheld := fun hh => { h.unheld hh with inHand := rfl } }
  | sawClosed hpc | stateClosed hpc | stateReset hpc | sendFIN hpc =>
    exact h.drainPc (by simp [hpc]) nofun nofun nofun
  | exit hpc =>
    refine h.drainPc ?_ nofun nofun nofun
    rcases hpc with hpc | hpc <;> simp [hpc]
  | enqueue data flushing hpc =>
    cases flushing with
    | false => exact h.drainPc (by simp [hpc]) nofun nofun nofun
    | true => exact h.drainPc (by simp [hpc]) (fun _ => by simp [hpc, finishing]) nofun nofun
  | flushed hpc hout =>
    refine h.drainPc (by simp [hpc]) (fun _ => by simp [hpc, finishing]) (fun _ b hb => ?_) nofun
    -- nothing is left to drain
    have hsub := h.closedSub b hb
    rwa [← h.flow, hout, List.flatten_nil, List.append_nil] at hsub

theorem cellInv_remoteClose (h : CellInv c) :
    CellInv { c with stream := c.stream.remoteClose } := by
  unfold StreamSession.remoteClose
  split
  · next hst =>
    have hr : c.stream.state ≠ .reset := by simp [hst]
    exact { h with
      buffer := fun _ => h.buffer hr
      notIdle := nofun
      localClosed := fun hl => by rcases hl with hl | hl <;> cases hl
      closedAt := fun hcl => by
        rcases h.closedAt hcl with (h' | h') | h' <;> rw [hst] at h' <;> cases h'
      resetOnce := fun ho => absurd (h.resetOnce ho) hr
      resetting := fun ho => absurd (h.resetting ho) hr
      delete := fun hd => by rcases h.delete hd with h' | h' <;> rw [hst] at h' <;> cases h'
      unheld := fun hh => { h.unheld hh with } }
  · next hst =>
    have hr : c.stream.state ≠ .reset := by simp [hst]
    exact { h with
      buffer := fun _ => h.buffer hr
      notIdle := nofun
      localClosed := fun _ => h.localClosed (.inl hst)
      closedAt := fun _ => .inl (.inr rfl)
      resetOnce := fun ho => absurd (h.resetOnce ho) hr
      resetting := fun ho => absurd (h.resetting ho) hr
      delete := fun _ => .inl rfl
      unheld := fun hh => { h.unheld hh with } }
  · exact h

theorem cellInv_cell {a : Action} {rd : ReaderPc} {r : Ref} (h : CellInv c)
    (hm : CellMove a rd r c c') : CellInv c' := by
  cases hm with
  | same => exact h
  | call k c' _ hh hc => exact cellInv_call h hh hc
  | drain d b c' p _ hc => exact cellInv_drain h hc
  | resetLocal => exact cellInv_reset h 0 false
  | resetFrame p => exact cellInv_reset h _ true
  | remoteClose => exact cellInv_remoteClose h
  | openFailedReset hpc =>
    refine cellInv_reset ?_ 0 false
    exact h.congr id h.resetting h.delete (by simp) id
  | register hpc =>
    exact h.congr id h.resetting h.delete (fun _ => h.unsent (.inl hpc)) id
  | openAck | openCancel | openClosed | openRemove | openRemoveNone | openFailed =>
    exact h.congr id h.resetting h.delete (by simp) (by simp)
  | openCleanup cancelled =>
    exact h.congr id h.resetting h.delete (by cases cancelled <;> simp) id
  | accept | ackSend =>
    exact h.congr id h.resetting h.delete h.unsent (by simp)
  | closeCheckClosed =>
    refine h.congr ?_ h.resetting (fun hd => ?_) h.unsent id
    · split <;> exact nofun
    · split at hd
      · next hst => exact .inl hst
      · cases hd
  | closeCheckReset =>
    refine h.congr ?_ h.resetting (fun hd => ?_) h.unsent id
    · split <;> exact nofun
    · split at hd
      · next hst => exact .inr hst
      · cases hd
  | closeDelete _ hpc => exact h.congr (by simp) h.resetting (by simp) h.unsent id
  | resetCheck code _ hpc | resetLookup code _ hpc | resetSend code _ hpc =>
    have hst := h.resetting (by simp [hpc, ResetPc.running])
    exact h.congr id (fun _ => hst) h.delete h.unsent id
  | sendOpen =>
    exact { h with
      fin := fun hp => h.fin (hp.imp_right (Or.imp_right nofun))
      sendFIN := nofun
      unsent := fun ho => by rcases ho with ho | ho <;> cases ho
      unheld := fun hh => { h.unheld hh with inHand := rfl } }
  | closeFin hpc =>
    exact { h with
      fin := fun _ => h.fin (.inl hpc)
      delete := nofun
      unheld := fun hh => { h.unheld hh with } }
  | deliver p =>
    exact { h with
      buffer := fun hst => by
        rw [← h.buffer hst]
        simp [StreamSession.deliver]
      unheld := fun hh => { h.unheld hh with } }
  | windowUpdate => exact { h with unheld := fun hh => { h.unheld hh with } }

/-- Every stream of a session satisfies the cell invariant. -/
theorem cellInv_reach {role : Role} {config : MuxConfig} {ok : Session → Action → Prop}
    {s : Session} (h : SessionReach role config ok s) : ∀ r < s.nextRef, CellInv (s.cells r) := by
  intro r hr
  apply cell_reach CellInv h ?_ ?_ ?_ hr
  · intro s payload _
    exact cellInv_opened s payload
  · intro s p _
    exact cellInv_accepted s p
  · intro s a s' _ _ hm hold hI
    exact cellInv_cell hI (move_cell hm hold)

end Atlax.Analysis
