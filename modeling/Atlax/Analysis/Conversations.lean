import Atlax.Analysis.OpenOnce

/-!
# Where the frames of a conversation come from

Every frame about a stream that is under way was sent for a stream of its sender, and says something
true about it: data and FIN come from a stream that somebody holds, a reset from one that was reset.
With identifiers handed out quiet a frame is applied to the stream's counterpart, so that whatever
has happened to a stream by way of frames has a cause on the other side: who has received anything
has a counterpart, and where a stream was reset, somebody has called Reset on one of the two.
-/

set_option autoImplicit false

namespace Atlax.Analysis

open Atlax.Model Atlax.Library

variable {p : Packet}

/-- What a stream has received is the same, up to the moment it is reset. -/
def SinkSame (c c' : Cell) : Prop :=
  c'.hist.delivered = c.hist.delivered ∧
    (c'.stream.state ≠ .reset → (c'.stream.state.RemoteClosed ↔ c.stream.state.RemoteClosed))

theorem sinkSame_of_eq {c c' : Cell} (hd : c'.hist.delivered = c.hist.delivered)
    (hs : c'.stream.state = c.stream.state) : SinkSame c c' :=
  ⟨hd, fun _ => by rw [hs]⟩

theorem sinkSame_reset (c : Cell) (code : ℕ) (byFrame : Bool) :
    SinkSame c (c.reset code byFrame) := by
  unfold SinkSame Cell.reset StreamSession.reset
  by_cases h : c.stream.state = .reset ∨ c.stream.state = .closed <;> cases byFrame <;> simp [h]

theorem sinkSame_close (c : Cell) : SinkSame c c.close := by
  unfold SinkSame Cell.close StreamSession.close
  cases hs : c.stream.state <;> cases c.stream.localCloseOnce <;>
    simp [StreamState.RemoteClosed, hs]

theorem sinkSame_call {c c' : Cell} {k : Call} (h : CellCall c k c') : SinkSame c c' := by
  cases h with
  | close => exact sinkSame_close c
  | reset code => exact sinkSame_reset c code false
  | _ => exact sinkSame_of_eq rfl rfl

variable {a : Action} {rd : ReaderPc} {r : Ref} {c c' : Cell}

/-- Only the read loop, at the stream itself, changes what a stream has received. -/
theorem cell_sink (hm : CellMove a rd r c c')
    (h : a = .reader → ∀ p, rd ≠ .deliver r p ∧ rd ≠ .remoteClose r p) : SinkSame c c' := by
  cases hm with
  | call k c' _ _ hc => exact sinkSame_call hc
  | drain d b c' p _ hc => cases hc <;> exact sinkSame_of_eq rfl rfl
  | deliver p ha hrd => exact absurd hrd (h ha p).1
  | remoteClose p ha hrd => exact absurd hrd (h ha p).2
  | resetLocal => exact sinkSame_reset c 0 false
  | resetFrame p => exact sinkSame_reset c _ true
  | openFailedReset => exact sinkSame_reset { c with openPc := .failed } 0 false
  | _ => exact sinkSame_of_eq rfl rfl

/-- Once somebody has called Reset on a stream, that stays so. -/
theorem cell_aborted (hm : CellMove a rd r c c') (h : c.hist.aborted = true) :
    c'.hist.aborted = true := by
  cases hm with
  | call k c' _ _ hc =>
    cases hc with
    | close =>
      simp only [Cell.close]
      split <;> exact h
    | reset code => rfl
    | _ => exact h
  | drain d b c' p _ hc => cases hc <;> exact h
  | resetLocal | openFailedReset => rfl
  | _ => exact h

/-- A stream is reset by a caller, or by the read loop for a STREAM_RESET. -/
theorem cell_reset (hm : CellMove a rd r c c') (h : c.stream.state ≠ .reset)
    (h' : c'.stream.state = .reset) :
    c'.hist.aborted = true ∨ a = .reader ∧ ∃ p, rd = .resetting r p := by
  obtain ⟨pc, code, byFrame, -, rfl, hframe⟩ := cell_becomes_reset hm h h'
  cases byFrame with
  | false => exact .inl rfl
  | true => exact .inr (hframe rfl)

/-- What a packet says of the stream it was sent for. -/
structure SentFor (c : Cell) (p : Packet) : Prop where
  conv : c.conv = p.conv
  id : c.stream.id = p.frame.streamID
  data : p.isData = true → c.handle = true ∧ p.frame.flags.fin = false
  close : p.isClose = true → c.handle = true
  reset : p.isReset = true → c.stream.state = .reset

theorem SentFor.evolves (h : SentFor c p) (hev : Evolves c c') : SentFor c' p where
  conv := hev.conv.trans h.conv
  id := hev.id.trans h.id
  data hp := ⟨hev.handle (h.data hp).1, (h.data hp).2⟩
  close hp := hev.handle (h.close hp)
  reset hp := by
    have hst := h.reset hp
    rw [hev.terminal (.inr hst), hst]

/-- Reset was called on a stream of the conversation. -/
def Aborted (S : System) (c : Option Conv) : Prop :=
  ∃ X, ∃ r < (S.sess X).nextRef, ((S.sess X).cells r).conv = c ∧
    ((S.sess X).cells r).hist.aborted = true

/-- Whatever a stream hears its partner has said. -/
structure Authentic (S : System) : Prop where
  sent : ∀ X p, SentBy S X p → p.onStream = true →
    ∃ r < (S.sess X).nextRef, SentFor ((S.sess X).cells r) p
  heard : ∀ X, ∀ r < (S.sess X).nextRef, ((S.sess X).cells r).hist.delivered ≠ [] ∨
    ((S.sess X).cells r).stream.state.RemoteClosed →
    ∃ r' < (S.sess X.peer).nextRef, ((S.sess X.peer).cells r').conv = ((S.sess X).cells r).conv
  reset : ∀ X, ∀ r < (S.sess X).nextRef, ((S.sess X).cells r).stream.state = .reset →
    Aborted S ((S.sess X).cells r).conv

variable {S S' : System} {X Y : Role}

theorem Orderly.not_rejectOpen (hO : Orderly S) (p : Packet) :
    (S.sess X).reader ≠ .rejectOpen p := by
  intro hrd
  have hk := (hO.wellFormed X).kind
  rw [hrd] at hk
  have hp : SentBy S X.peer p := .inr (.inr (by rw [Role.peer_peer, hrd]; rfl))
  have hown := hO.opens.foreign hO.wellFormed hO.role hp hk
  rw [(hO.wellFormed X).rejectOpen p hrd] at hown
  cases hown

theorem Untouched.handle_of_ne {c : Cell} (hC : CellInv c) (h : ¬ Untouched c) :
    c.handle = true := by
  cases hh : c.handle with
  | true => rfl
  | false => exact absurd (hC.unheld hh) h

theorem produced_sentFor (hO : Orderly S) (h : Produced (S.sess X) p) (hon : p.onStream = true) :
    ∃ r < (S.sess X).nextRef, SentFor ((S.sess X).cells r) p := by
  have hC := hO.cell X
  cases h with
  | openPacket r hr hpc =>
    exact ⟨r, hr, rfl, rfl, by simp [Cell.openPacket, Packet.isData],
      by simp [Cell.openPacket, Packet.isClose], by simp [Cell.openPacket, Packet.isReset]⟩
  | ack r q hrd =>
    have hst : (S.sess X).reader.stream = some (r, q) := by rw [hrd]; rfl
    exact ⟨r, ((hO.wellFormed X).reader r q hst).1, rfl, rfl,
      by simp [Cell.ackPacket, Packet.isData], by simp [Cell.ackPacket, Packet.isClose],
      by simp [Cell.ackPacket, Packet.isReset]⟩
  | data r hr data flushing hpc =>
    have hh : ((S.sess X).cells r).handle = true := by
      refine Untouched.handle_of_ne (hC r hr) fun hu => ?_
      simpa [Cell.inHand, hpc] using hu.inHand
    exact ⟨r, hr, rfl, rfl, fun _ => ⟨hh, rfl⟩, by simp [Cell.dataPacket, Packet.isClose],
      by simp [Cell.dataPacket, Packet.isReset]⟩
  | close r hr hpc =>
    have hh : ((S.sess X).cells r).handle = true := by
      refine Untouched.handle_of_ne (hC r hr) fun hu => ?_
      exact (hC r hr).fin (by simp [FinPending, finishing, hpc]) hu.closedAt
    exact ⟨r, hr, rfl, rfl, by simp [Cell.closePacket, Packet.isData], fun _ => hh,
      by simp [Cell.closePacket, Packet.isReset]⟩
  | reset r hr code hpc =>
    have hst := (hC r hr).resetting (by simp [hpc, ResetPc.running])
    exact ⟨r, hr, rfl, rfl, by simp [Cell.resetPacket, Packet.isData],
      by simp [Cell.resetPacket, Packet.isClose], fun _ => hst⟩
  | reject q hrd => exact absurd hrd (hO.not_rejectOpen q)
  | conn command payload hc =>
    rcases hc with rfl | rfl | rfl | rfl <;> cases hon

theorem aborted_move (hm : SysMove S X a S') {c : Option Conv} (h : Aborted S c) :
    Aborted S' c := by
  obtain ⟨Y, r, hr, hc, ha⟩ := h
  refine ⟨Y, r, Nat.lt_of_lt_of_le hr (hm.nextRef Y), (hm.evolves hr).conv.trans hc, ?_⟩
  rcases hm.sess Y with ⟨rfl, hmove⟩ | heq
  · exact cell_aborted (move_cell hmove hr) ha
  · rwa [heq]

/-- The read loop applies a frame to a stream of the frame's conversation. -/
theorem Orderly.applied (hO : Orderly S) {r : Ref}
    (hrd : (S.sess X).reader = .deliver r p ∨ (S.sess X).reader = .remoteClose r p ∨
      (S.sess X).reader = .resetting r p) :
    SentBy S X.peer p ∧ p.onStream = true ∧ r < (S.sess X).nextRef ∧
      ((S.sess X).cells r).conv = p.conv := by
  have hw := hO.wellFormed X
  have hst : (S.sess X).reader.stream = some (r, p) := by
    rcases hrd with hrd | hrd | hrd <;> rw [hrd] <;> rfl
  have hpk : (S.sess X).reader.packet = some p := by
    rcases hrd with hrd | hrd | hrd <;> rw [hrd] <;> rfl
  have hon := onStream_of_applied hw hrd
  obtain ⟨c, hc, hc'⟩ := hO.attributed.applied hw hst hon
  refine ⟨.inr (.inr ?_), hon, (hw.reader r p hst).1, hc'.trans hc.symm⟩
  rwa [Role.peer_peer]

theorem authentic_sent_move (hO : Orderly S) (h : Authentic S) (hm : SysMove S X a S')
    (hp : SentBy S' Y p) (hon : p.onStream = true) :
    ∃ r < (S'.sess Y).nextRef, SentFor ((S'.sess Y).cells r) p := by
  obtain ⟨r, hr, hs⟩ : ∃ r < (S.sess Y).nextRef, SentFor ((S.sess Y).cells r) p := by
    rcases hm.sentBy hp with hp | ⟨rfl, hp⟩
    · exact h.sent Y p hp hon
    · exact produced_sentFor hO hp hon
  exact ⟨r, Nat.lt_of_lt_of_le hr (hm.nextRef Y), hs.evolves (hm.evolves hr)⟩

theorem authentic_heard_move (hO : Orderly S) (h : Authentic S) (hm : SysMove S X a S')
    {r : Ref} (hr : r < (S'.sess Y).nextRef) (hd : ((S'.sess Y).cells r).hist.delivered ≠ [] ∨
      ((S'.sess Y).cells r).stream.state.RemoteClosed) :
    ∃ r' < (S'.sess Y.peer).nextRef,
      ((S'.sess Y.peer).cells r').conv = ((S'.sess Y).cells r).conv := by
  -- a counterpart stays one
  have keep : r < (S.sess Y).nextRef → ∀ r' < (S.sess Y.peer).nextRef,
      ((S.sess Y.peer).cells r').conv = ((S.sess Y).cells r).conv →
      ∃ r' < (S'.sess Y.peer).nextRef,
        ((S'.sess Y.peer).cells r').conv = ((S'.sess Y).cells r).conv := by
    intro hold r' hr' hc
    exact ⟨r', Nat.lt_of_lt_of_le hr' (hm.nextRef _),
      by rw [(hm.evolves hr').conv, (hm.evolves hold).conv, hc]⟩
  rcases hm.sess Y with ⟨rfl, hmove⟩ | heq
  · rcases move_new hmove hr with hold | ⟨_, hnew⟩
    · by_cases hrd : a = .reader ∧ ∃ p, (S.sess Y).reader = .deliver r p ∨
          (S.sess Y).reader = .remoteClose r p
      · obtain ⟨_, p, hrd⟩ := hrd
        obtain ⟨hp, hon, _, hc⟩ := hO.applied (r := r) (p := p) (hrd.imp_right .inl)
        obtain ⟨r', hr', hs⟩ := h.sent Y.peer p hp hon
        exact keep hold r' hr' (hs.conv.trans hc.symm)
      · have hsame := cell_sink (move_cell hmove hold) fun ha p =>
          ⟨fun h => hrd ⟨ha, p, .inl h⟩, fun h => hrd ⟨ha, p, .inr h⟩⟩
        have hd' : ((S.sess Y).cells r).hist.delivered ≠ [] ∨
            ((S.sess Y).cells r).stream.state.RemoteClosed := by
          rw [hsame.1] at hd
          refine hd.imp_right fun hrc => (hsame.2 ?_).mp hrc
          rcases hrc with h | h <;> simp [h]
        obtain ⟨r', hr', hc⟩ := h.heard Y r hold hd'
        exact keep hold r' hr' hc
    · exfalso
      rcases hnew with ⟨_, _, hc⟩ | ⟨p, _, _, hc⟩ <;> rw [hc] at hd
      · simp [Session.openedCell, StreamSession.opened, StreamState.RemoteClosed] at hd
      · simp [Session.acceptedCell, StreamSession.opened, StreamState.RemoteClosed] at hd
  · rw [heq] at hr hd
    obtain ⟨r', hr', hc⟩ := h.heard Y r hr hd
    exact keep hr r' hr' hc

theorem authentic_reset_move (hO : Orderly S) (h : Authentic S) (hm : SysMove S X a S')
    {r : Ref} (hr : r < (S'.sess Y).nextRef) (hst : ((S'.sess Y).cells r).stream.state = .reset) :
    Aborted S' ((S'.sess Y).cells r).conv := by
  rcases hm.sess Y with ⟨rfl, hmove⟩ | heq
  · rcases move_new hmove hr with hold | ⟨_, hnew⟩
    · have hev := hm.evolves hold
      by_cases hst₀ : ((S.sess Y).cells r).stream.state = .reset
      · rw [hev.conv]
        exact aborted_move hm (h.reset Y r hold hst₀)
      · rcases cell_reset (move_cell hmove hold) hst₀ hst with habort | ⟨_, p, hrd⟩
        · exact ⟨Y, r, hr, rfl, habort⟩
        · -- the frame was sent for a stream that was reset, and that stream is the counterpart
          obtain ⟨hp, hon, _, hc⟩ := hO.applied (.inr (.inr hrd))
          obtain ⟨r', hr', hs⟩ := h.sent Y.peer p hp hon
          have hk := (hO.wellFormed Y).kind
          rw [hrd] at hk
          rw [hev.conv, hc, ← hs.conv]
          exact aborted_move hm (h.reset Y.peer r' hr' (hs.reset hk))
    · exfalso
      rcases hnew with ⟨_, _, hc⟩ | ⟨p, _, _, hc⟩ <;> rw [hc] at hst
      · simp [Session.openedCell, StreamSession.opened] at hst
      · simp [Session.acceptedCell, StreamSession.opened] at hst
  · rw [heq] at hr hst ⊢
    exact aborted_move hm (h.reset Y r hr hst)

/-- Nothing is heard that was not said, in any run. -/
theorem authentic_reach {config : Role → MuxConfig} (h : SystemReach config ReissuesQuiet S) :
    Authentic S := by
  refine Reach.invariant Authentic h ?_ ?_
  · constructor
    · intro X p hp
      exact absurd hp (not_sentBy_new config X p)
    · intro X r hr
      cases hr
    · intro X r hr
      cases hr
  · rintro S ⟨X, a⟩ S' hS hA _ hstep
    have hO := orderly_reach hS
    have hm := system_move hstep
    exact ⟨fun _ _ => authentic_sent_move hO hA hm, fun _ _ => authentic_heard_move hO hA hm,
      fun _ _ => authentic_reset_move hO hA hm⟩

end Atlax.Analysis
