import Atlax.Analysis.Delivery
import Atlax.Analysis.Endings

/-!
# Telling the other side

A stream that is closed or reset locally tells its counterpart so: by STREAM_CLOSE behind its data,
by STREAM_RESET ahead of them. The callback of Reset sends STREAM_RESET only if it still finds an
entry in the map, so that whoever removes the entry before it silences the reset: a cancelled open,
which removes the entry first and resets then, and the sections of `maybeRemoveStream` when they see
a stream that has just been reset. In the runs in which these find the counterpart ended already,
every stream that has ended has told its counterpart, or is about to.
-/

set_option autoImplicit false

namespace Atlax.Analysis

open Atlax.Model Atlax.Library

variable {c : Conv} {r w : Ref} {rd : ReaderPc} {p : Packet}

/-- The counterpart of stream `r` of `X` has ended. -/
def PeerEnded (S : System) (X : Role) (r : Ref) : Prop :=
  ∃ v < (S.sess X.peer).nextRef,
    ((S.sess X.peer).cells v).conv = ((S.sess X).cells r).conv ∧
      ((S.sess X.peer).cells v).stream.state.Terminal

instance (S : System) (X : Role) (r : Ref) : Decidable (PeerEnded S X r) :=
  inferInstanceAs (Decidable (∃ v, v < _ ∧ _))

/-- The entry of a stream is removed ahead of the callback of its Reset only when the counterpart
has ended.
SOURCE: mux_session.go:641-667, 685-703 -/
def RemovesTold (S : System) : Role × Action → Prop
  | (X, .opening r .remove) =>
    ((S.sess X).table.get ((S.sess X).cells r).stream.id).isSome = true → PeerEnded S X r
  | (X, .callback r .closeDelete) =>
    unreported ((S.sess X).cells r).resetPc = true → PeerEnded S X r
  | (X, .reader) =>
    match (S.sess X).reader with
    | .delete r _ => unreported ((S.sess X).cells r).resetPc = true → PeerEnded S X r
    | _ => True
  | _ => True

instance (S : System) : DecidablePred (RemovesTold S)
  | (X, a) => by
    unfold RemovesTold
    induction a with
    | opening r o => induction o <;> infer_instance
    | callback r k => induction k <;> infer_instance
    | reader =>
      dsimp only
      induction (S.sess X).reader <;> infer_instance
    | _ => infer_instance

/-- Identifiers are handed out quiet, and no reset is silenced. -/
def Tidy (S : System) (l : Role × Action) : Prop := ReissuesQuiet S l ∧ RemovesTold S l

instance (S : System) (l : Role × Action) : Decidable (Tidy S l) :=
  inferInstanceAs (Decidable (_ ∧ _))

/-- The callback of Reset will send STREAM_RESET. -/
def ResetAhead (s : Session) (r : Ref) : Prop :=
  unreported (s.cells r).resetPc = true ∧ s.table.get (s.cells r).stream.id = some r ∨
    ∃ code, (s.cells r).resetPc = .send code

/-- A STREAM_RESET of the conversation is on its way from `X` and not applied yet. -/
def ResetUnderWay (S : System) (X : Role) (c : Conv) : Prop :=
  ∃ p : Packet, p.isReset = true ∧ p.conv = some c ∧
    (Outgoing (S.sess X) p ∨ p ∈ S.wire X ∨ (S.sess X.peer).reader = .frame p ∨
      ∃ r, (S.sess X.peer).reader = .resetting r p)

/-- What a stream that has ended on its side has told its counterpart. -/
structure Told (S : System) : Prop where
  cancelled : ∀ X, ∀ w < (S.sess X).nextRef, ∀ f,
    ((S.sess X).cells w).openPc = .resetting f → PeerEnded S X w
  reset : ∀ X, ∀ w < (S.sess X).nextRef, ((S.sess X).cells w).stream.state = .reset →
    ∃ v c, Paired S X w v c ∧
      (ResetAhead (S.sess X) w ∨ ResetUnderWay S X c ∨ Gone ((S.sess X.peer).cells v))
  fin : ∀ X, ∀ w < (S.sess X).nextRef, ((S.sess X).cells w).hist.closedAt ≠ none →
    ((S.sess X).cells w).stream.state ≠ .reset →
    ∃ v c, Paired S X w v c ∧
      (FinPending ((S.sess X).cells w) ∨ .fin ∈ (S.flight X).filterMap (item c) ∨
        ((S.sess X.peer).cells v).stream.state.RemoteClosed ∨ Gone ((S.sess X.peer).cells v))

section Session

variable {s s' : Session} {a : Action}

/-- A stream is reset by a caller that holds it, by the read loop for a STREAM_RESET, by a cancelled
open, or as the session closes. -/
theorem move_reset_cause (hm : Move s a s') (hr : r < s.nextRef)
    (h : (s.cells r).stream.state ≠ .reset) (h' : (s'.cells r).stream.state = .reset) :
    (s.cells r).handle = true ∧ s'.table = s.table ∨ (∃ p, s.reader = .resetting r p) ∨
      (∃ r₀ < s.nextRef, (s.cells r₀).openPc = .resetting r) ∨ s'.closed = true := by
  have hc := move_cell hm hr
  by_cases hcall : ∃ k, a = .call r k
  · obtain ⟨k, rfl⟩ := hcall
    cases hm with
    | call _ _ hh => exact .inl ⟨hh, rfl⟩
  by_cases hopen : ∃ r₀, a = .opening r₀ .reset
  · obtain ⟨r₀, rfl⟩ := hopen
    cases hm with
    | openReset _ hr₀ found hpc =>
      by_cases hf : r = found
      · exact .inr (.inr (.inl ⟨r₀, hr₀, hf ▸ hpc⟩))
      · refine absurd ?_ h
        simp only [Session.setCell_cells, Function.update_apply, hf, if_false] at h'
        split at h' <;> simp_all
  have hclosing : a = .closing → s'.closed = true := by
    rintro rfl
    cases hm <;> rfl
  generalize s'.cells r = c' at hc h'
  cases hc with
  | call k c' ha => exact absurd ⟨k, ha⟩ hcall
  | resetFrame p _ hrd => exact .inr (.inl ⟨p, hrd⟩)
  | resetLocal ha =>
    rcases ha with ha | ha
    · exact .inr (.inr (.inr (hclosing ha)))
    · exact absurd ha hopen
  | openFailedReset hpc => exact .inr (.inr (.inl ⟨r, hr, hpc⟩))
  | drain d b c' p _ hc => cases hc <;> exact absurd h' h
  | remoteClose =>
    simp only [StreamSession.remoteClose] at h'
    split at h' <;> simp_all
  | _ => exact absurd h' h

/-- The callback of Reset that is about to send does so. -/
theorem cell_send {c c' : Cell} (hC : CellInv c) (hm : CellMove a rd r c c')
    {code : ℕ} (h : c.resetPc = .send code) :
    c'.resetPc = .send code ∨ a = .callback r .resetSend := by
  have hst := hC.resetting (by simp [h, ResetPc.running])
  -- a second Reset does not run the callback again
  have again : ∀ (c₁ : Cell) (k : ℕ) (b : Bool), c₁.stream = c.stream → c₁.resetPc = c.resetPc →
      (c₁.reset k b).resetPc = .send code := by
    intro c₁ k b hs hpc
    simp [Cell.reset, StreamSession.reset, hs, hst, hpc, h]
  cases hm with
  | call k c' _ _ hc =>
    cases hc with
    | reset code => exact .inl (again c code false rfl rfl)
    | _ => exact .inl h
  | drain d b c' p _ hc => cases hc <;> exact .inl h
  | resetLocal | resetFrame => exact .inl (again c _ _ rfl rfl)
  | openFailedReset => exact .inl (again { c with openPc := .failed } 0 false rfl rfl)
  | resetCheck _ _ hpc | resetLookup _ _ hpc =>
    rw [h] at hpc
    cases hpc
  | resetSend _ ha => exact .inr ha
  | _ => exact .inl h

/-- A stream that has seen the end of the other half keeps seeing it, unless it is reset. -/
theorem cell_remoteClosed {c c' : Cell} (hm : CellMove a rd r c c')
    (h : c.stream.state.RemoteClosed) : c'.stream.state.RemoteClosed ∨ c'.stream.state = .reset := by
  by_cases hst : c'.stream.state = .reset
  · exact .inr hst
  · left
    cases hm with
    | call k c' _ _ hc => exact ((sinkSame_call hc).2 hst).mpr h
    | drain d b c' p _ hc => cases hc <;> exact h
    | resetLocal | resetFrame => exact ((sinkSame_reset c _ _).2 hst).mpr h
    | openFailedReset => exact ((sinkSame_reset { c with openPc := .failed } 0 false).2 hst).mpr h
    | remoteClose =>
      unfold StreamSession.remoteClose
      rcases h with h | h <;> simp [h, StreamState.RemoteClosed]
    | _ => exact h

/-- Who closes a half holds the stream, and its FIN is pending from then on. -/
theorem cell_closes {c c' : Cell} (hm : CellMove a rd r c c')
    (h : c.hist.closedAt = none) (h' : c'.hist.closedAt ≠ none) :
    c.handle = true ∧ FinPending c' := by
  cases hm with
  | call k c' _ hh hc =>
    cases hc with
    | close =>
      unfold Cell.close at h' ⊢
      cases hn : c.stream.close.2 <;> simp only [hn] at h' ⊢
      · exact absurd h h'
      · exact ⟨hh, .inl rfl⟩
    | _ => exact absurd h h'
  | drain d b c' p _ hc => cases hc <;> exact absurd h h'
  | _ => exact absurd h h'

theorem finPending_drain {c c' : Cell} {b : Bool} {p : Option Packet} (hc : CellDrain c b c' p)
    (h : FinPending c) : FinPending c' ∨ c.drainPc = .sendFIN := by
  cases hc with
  | sendFIN hpc => exact .inr hpc
  | takeFIN => exact .inl (.inr (.inr rfl))
  | take data rest flushing hpc | enqueue data flushing hpc =>
    cases flushing <;> simp_all [FinPending, finishing]
  | exit hpc => rcases hpc with hpc | hpc <;> simp_all [FinPending, finishing]
  | sawClosed hpc | stateReset hpc | stateClosed hpc | flushed hpc =>
    simp_all [FinPending, finishing]

theorem drain_sendFIN {c c' : Cell} {b : Bool} {p : Option Packet} (hc : CellDrain c b c' p)
    (hpc : c.drainPc = .sendFIN) : c'.drainPc = .done ∧ p = some c.closePacket := by
  cases hc with
  | sendFIN => exact ⟨rfl, rfl⟩
  | take _ _ flushing hpc' => cases flushing <;> simp [hpc] at hpc'
  | takeFIN hpc' | exit hpc' => simp [hpc] at hpc'
  | sawClosed hpc' | enqueue _ _ hpc' | stateReset hpc' | stateClosed hpc' | flushed hpc' =>
    simp [hpc] at hpc'

theorem finPending_reset (c : Cell) (code : ℕ) (byFrame : Bool) :
    FinPending (c.reset code byFrame) ↔ FinPending c := by
  have hfin : (c.reset code byFrame).stream.finCh = c.stream.finCh := by
    unfold Cell.reset StreamSession.reset
    by_cases h : c.stream.state = .reset ∨ c.stream.state = .closed <;> simp [h]
  rw [FinPending, FinPending, hfin]
  rfl

/-- The FIN stays pending until the drain goroutine has queued STREAM_CLOSE. -/
theorem cell_finPending {c c' : Cell} (hC : CellInv c)
    (hm : CellMove a rd r c c') (h : FinPending c) :
    FinPending c' ∨ (∃ d, a = .drain r d) ∧ c.drainPc = .sendFIN := by
  cases hm with
  | call k c' _ _ hc =>
    left
    cases hc with
    | close =>
      unfold Cell.close StreamSession.close
      cases c.stream.state <;> cases c.stream.localCloseOnce <;> simp_all [FinPending]
    | reset code => exact (finPending_reset c code false).mpr h
    | _ => exact h
  | drain d b c' p ha hc => exact (finPending_drain hc h).imp_right fun hpc => ⟨⟨d, ha⟩, hpc⟩
  | sendOpen _ hpc =>
    left
    have hidle := hC.unsent (.inr hpc)
    simp_all [FinPending, finishing]
  | closeFin => exact .inl (.inr (.inl rfl))
  | closeCheckClosed hpc | closeCheckReset hpc | closeDelete _ hpc =>
    left
    simp_all [FinPending]
  | remoteClose =>
    left
    unfold StreamSession.remoteClose
    split <;> exact h
  | resetLocal | resetFrame => exact .inl ((finPending_reset c _ _).mpr h)
  | openFailedReset => exact .inl ((finPending_reset { c with openPc := .failed } 0 false).mpr h)
  | _ => exact .inl h

theorem isReset_command (h : p.isReset = true) :
    p.isOpen = false ∧ p.isAck = false ∧ p.isData = false ∧ p.isClose = false := by
  simp only [Packet.isReset, beq_iff_eq] at h
  simp [Packet.isOpen, Packet.isAck, Packet.isData, Packet.isClose, h]

/-- A STREAM_RESET goes to the stream in the map. -/
theorem move_reset_frame (hm : Move s .reader s') (h : s.reader = .frame p)
    (hk : p.isReset = true) :
    (∃ r, s'.reader = .resetting r p) ∨ s.table.get p.frame.streamID = none := by
  obtain ⟨hopen, hack, hdata, hclose⟩ := isReset_command hk
  cases hm with
  | handleReset p' h' hp r hget =>
    rw [h] at h'
    cases h'
    exact .inl ⟨r, rfl⟩
  | handleMiss p' h' hget =>
    rw [h] at h'
    cases h'
    exact .inr hget
  | handleNothing p' h' hp | handleWindow p' h' hp | handlePing p' h' hp =>
    rw [h] at h'
    cases h'
    rw [hp.2.2.1] at hk
    cases hk
  | _ => simp_all

theorem move_resetting_applied (hm : Move s .reader s')
    (h : s.reader = .resetting r p) : (s'.cells r).stream.state.Terminal := by
  cases hm with
  | resetting r' p' h' =>
    rw [h] at h'
    cases h'
    simpa using terminal_reset _ _ true
  | _ => simp_all

end Session

variable {S S' : System} {X Z : Role} {a : Action}

theorem PeerEnded.move (hm : SysMove S Z a S') (hr : r < (S.sess X).nextRef)
    (h : PeerEnded S X r) : PeerEnded S' X r := by
  obtain ⟨v, hv, hc, hst⟩ := h
  refine ⟨v, Nat.lt_of_lt_of_le hv (hm.nextRef _), ?_, ?_⟩
  · rw [(hm.evolves hv).conv, (hm.evolves hr).conv, hc]
  · rwa [(hm.evolves hv).terminal hst]

theorem Paired.move (hm : SysMove S Z a S') {w v : Ref} (h : Paired S X w v c) :
    Paired S' X w v c where
  writer := Nat.lt_of_lt_of_le h.writer (hm.nextRef X)
  reader := Nat.lt_of_lt_of_le h.reader (hm.nextRef X.peer)
  convWriter := (hm.evolves h.writer).conv.trans h.convWriter
  convReader := (hm.evolves h.reader).conv.trans h.convReader

/-- The counterpart of a stream is the one that has ended. -/
theorem PeerEnded.gone (hO : Orderly S) {w v : Ref} (hp : Paired S X w v c)
    (h : PeerEnded S X w) : Gone ((S.sess X.peer).cells v) := by
  obtain ⟨v', hv', hc, hst⟩ := h
  rw [hO.unique X.peer v v' c hp.reader hv' hp.convReader (hc.trans hp.convWriter)]
  exact .inl hst

theorem PeerEnded.paired (hO : Orderly S) (hw : w < (S.sess X).nextRef)
    (h : PeerEnded S X w) : ∃ v c, Paired S X w v c ∧ Gone ((S.sess X.peer).cells v) := by
  obtain ⟨v, hv, hc, hst⟩ := h
  obtain ⟨c, hcw⟩ := hO.conv_some hw
  exact ⟨v, c, ⟨hw, hv, hcw, hc.trans hcw⟩, .inl hst⟩

/-- A STREAM_RESET that the read loop works for was sent for a counterpart that was reset. -/
theorem peerEnded_of_reset (hO : Orderly S) (hA : Authentic S)
    (hst : (S.sess X).reader.stream = some (w, p)) (hk : p.isReset = true) : PeerEnded S X w := by
  have hon : p.onStream = true := onStream_of_kind (.inr (.inr hk))
  have hpk : (S.sess X).reader.packet = some p := by
    cases hrd : (S.sess X).reader <;> simp_all [ReaderPc.stream, ReaderPc.packet]
  obtain ⟨c, hc, hcw⟩ := hO.attributed.applied (hO.wellFormed X) hst hon
  obtain ⟨v, hv, hs⟩ := hA.sent X.peer p (.inr (.inr (by rwa [Role.peer_peer]))) hon
  exact ⟨v, hv, by rw [hs.conv, hc, hcw], .inr (hs.reset hk)⟩

theorem SysMove.gone (hO : Orderly S) (hm : SysMove S Z a S') (hr : r < (S.sess X).nextRef)
    (h : Gone ((S.sess X).cells r)) : Gone ((S'.sess X).cells r) := by
  rcases hm.sess X with ⟨rfl, hmove⟩ | heq
  · exact gone_move (hO.owned X) hmove hr h
  · rwa [heq]

theorem resetUnderWay_iff : ResetUnderWay S X c ↔
    ∃ p : Packet, p.isReset = true ∧ p.conv = some c ∧
      (EnRoute S X p ∨ ∃ r, (S.sess X.peer).reader = .resetting r p) := by
  simp only [ResetUnderWay, EnRoute, or_assoc]

/-- The read loop takes a STREAM_RESET of the conversation to the counterpart, unless that has gone
already. -/
theorem resetUnderWay_receive (hO : Orderly S) (hA : Authentic S) (hm : SysMove S X.peer a S')
    {w v : Ref} (hp : Paired S X w v c) (h : ResetUnderWay S X c) :
    ResetUnderWay S' X c ∨ Gone ((S'.sess X.peer).cells v) := by
  obtain ⟨p, hk, hconv, h⟩ := resetUnderWay_iff.mp h
  have hon : p.onStream = true := onStream_of_kind (.inr (.inr hk))
  have later : EnRoute S' X p ∨ (∃ r, (S'.sess X.peer).reader = .resetting r p) →
      ResetUnderWay S' X c := fun h => resetUnderWay_iff.mpr ⟨p, hk, hconv, h⟩
  rcases h with h | ⟨r, h⟩
  · rcases enRoute_receive hm h with h | ⟨rfl, hrd⟩
    · exact .inl (later (.inl h))
    · rcases move_reset_frame hm.move hrd hk with hrd' | hget
      · exact .inl (later (.inr hrd'))
      · -- the frame finds no stream: the counterpart has been removed
        have hsent : SentBy S X p := .inr (.inr (by rw [hrd]; rfl))
        exact .inr (hm.gone hO hp.reader (gone_of_miss hO hA hp hsent hon hconv hget))
  · by_cases ha : a = .reader
    · subst ha
      obtain ⟨_, _, hr, hc⟩ := hO.applied (.inr (.inr h))
      rw [hO.unique X.peer v r c hp.reader hr hp.convReader (hc.trans hconv)]
      exact .inr (.inl (move_resetting_applied hm.move h))
    · have hrd := move_reader_busy hm.move ha (by simp [h]) (by simp [h])
      exact .inl (later (.inr ⟨r, hrd.trans h⟩))

/-- The sender keeps a STREAM_RESET under way. -/
theorem resetUnderWay_send (hm : SysMove S X a S') (hopen : (S'.sess X).closed = false)
    (h : ResetUnderWay S X c) : ResetUnderWay S' X c := by
  obtain ⟨p, hk, hconv, h⟩ := resetUnderWay_iff.mp h
  refine resetUnderWay_iff.mpr ⟨p, hk, hconv, ?_⟩
  rw [hm.peer]
  exact h.imp_left (enRoute_send hm hopen)

/-- The entry of a stream with its callback ahead goes only with the counterpart, or to the
callback. -/
theorem mapped_unreported (hO : Orderly S) (hA : Authentic S) (hok : RemovesTold S (X, a))
    (hset : ReissuesSettled (S.sess X) a) (hm : SysMove S X a S')
    (hopen : (S'.sess X).closed = false) (hw : w < (S.sess X).nextRef)
    (hun : unreported ((S.sess X).cells w).resetPc = true)
    (hget : (S.sess X).table.get ((S.sess X).cells w).stream.id = some w) :
    (S'.sess X).table.get ((S.sess X).cells w).stream.id = some w ∨
      a = .callback w .resetLookup ∨ PeerEnded S X w := by
  rcases entry_removed (hO.owned X) hset hm.move hw hget with hget' | hrem
  · exact .inl hget'
  · cases hrem with
    | cancelled => exact .inr (.inr (hok (by rw [hget]; rfl)))
    | closed => exact .inr (.inr (hok hun))
    | reset => exact .inr (.inl rfl)
    | closeFrame p hrd =>
      simp only [RemovesTold, hrd] at hok
      exact .inr (.inr (hok hun))
    | resetFrame p hrd =>
      have hk := (hO.wellFormed X).kind
      rw [hrd] at hk
      exact .inr (.inr (peerEnded_of_reset hO hA (by rw [hrd]; rfl) hk))
    | teardown hcl =>
      have hcl' := move_closed hm.move (by simp [Session.closed, hcl])
      rw [hopen] at hcl'
      cases hcl'
    | reissued _ hs =>
      have hidle := hs.1.2.2.1
      cases hpc : ((S.sess X).cells w).resetPc <;> simp [hpc, unreported, ResetPc.running] at hun hidle

/-- The callback of Reset goes on to send STREAM_RESET, unless the counterpart has ended. -/
theorem resetAhead_move (hO : Orderly S) (hA : Authentic S) (hE : EndingInv (S.sess X))
    (hok : RemovesTold S (X, a)) (hset : ReissuesSettled (S.sess X) a) (hm : SysMove S X a S')
    (hopen : (S'.sess X).closed = false) (hw : w < (S.sess X).nextRef)
    (hc : ((S.sess X).cells w).conv = some c) (h : ResetAhead (S.sess X) w) :
    ResetAhead (S'.sess X) w ∨ ResetUnderWay S' X c ∨ PeerEnded S X w := by
  have hcl := hm.not_closed hopen
  have hid := (hm.evolves hw).id
  have hcell := move_cell hm.move hw
  rcases h with ⟨hun, hget⟩ | ⟨code, hpc⟩
  · rcases mapped_unreported hO hA hok hset hm hopen hw hun hget with hget' | rfl | hend
    · rw [← hid] at hget'
      rcases cell_stays_unreported hcell hun with hun' | rfl | rfl
      · exact .inl (.inl ⟨hun', hget'⟩)
      · refine .inl (.inl ⟨?_, hget'⟩)
        have hmove := hm.move
        generalize S'.sess X = s' at hmove
        cases hmove with
        | resetCheck => simp [hcl, unreported]
      · exfalso
        have hmove := hm.move
        generalize S'.sess X = s' at hmove hget' hid
        cases hmove with
        | resetLookup => simp at hget'
    · left
      have hmove := hm.move
      generalize S'.sess X = s' at hmove
      cases hmove with
      | resetLookup _ _ code => exact .inr ⟨code, by simp [hget]⟩
    · exact .inr (.inr hend)
  · rcases cell_send (hO.cell X w hw) hcell hpc with hpc' | rfl
    · exact .inl (.inr ⟨code, hpc'⟩)
    · have hqueue := hE.queue_open hcl
      refine .inr (.inl ⟨((S.sess X).cells w).resetPacket code, ?_, hc, .inl (.inl ?_)⟩)
      · simp [Cell.resetPacket, Packet.isReset]
      · have hmove := hm.move
        generalize S'.sess X = s' at hmove
        cases hmove with
        | resetSend _ _ code' hpc' =>
          rw [hpc] at hpc'
          cases hpc'
          simp [WriteQueue.Holds, WriteQueue.enqueue, hqueue]

/-- A stream that has just been reset tells its counterpart, unless that has ended. -/
theorem reset_told (hO : Orderly S) (hO' : Orderly S') (hA : Authentic S) (hT : Told S)
    (hm : SysMove S X a S') (hopen : (S'.sess X).closed = false)
    (hw : w < (S.sess X).nextRef) (hst : ((S.sess X).cells w).stream.state ≠ .reset)
    (hst' : ((S'.sess X).cells w).stream.state = .reset) :
    ∃ v c, Paired S' X w v c ∧
      (ResetAhead (S'.sess X) w ∨ Gone ((S'.sess X.peer).cells v)) := by
  -- the counterpart has ended
  have ended : PeerEnded S X w → ∃ v c, Paired S' X w v c ∧
      (ResetAhead (S'.sess X) w ∨ Gone ((S'.sess X.peer).cells v)) := by
    intro h
    obtain ⟨v, c, hp, hg⟩ := PeerEnded.paired hO' (Nat.lt_of_lt_of_le hw (hm.nextRef X)) (h.move hm hw)
    exact ⟨v, c, hp, .inr hg⟩
  rcases move_reset_cause hm.move hw hst hst' with ⟨hh, htab⟩ | ⟨p, hrd⟩ | ⟨r₀, hr₀, hpc⟩ | hcl
  · have hheld := (hO.mapped X).held w hw hh
    obtain ⟨v, hv, hcv⟩ := hO.counterpart hw hheld
    obtain ⟨c, hcw⟩ := hO.conv_some hw
    have hp : Paired S X w v c := ⟨hw, hv, hcw, hcv.trans hcw⟩
    have hun := cell_unreported (hO.cell X w hw) (move_cell hm.move hw) hst hst'
    refine ⟨v, c, hp.move hm, .inl (.inl ⟨hun, ?_⟩)⟩
    rw [htab, (hm.evolves hw).id]
    refine (hO.mapped X).mapped w hw ?_
    rintro (hterm | ⟨f, hf⟩)
    · rw [(hm.evolves hw).terminal hterm] at hst'
      exact hst hst'
    · simp [hf] at hheld
  · have hk := (hO.wellFormed X).kind
    rw [hrd] at hk
    exact ended (peerEnded_of_reset hO hA (by rw [hrd]; rfl) hk)
  · have heq := (hO.owned X).found r₀ hr₀ w hpc
    subst heq
    exact ended (hT.cancelled X _ hw _ hpc)
  · rw [hopen] at hcl
    cases hcl

/-- The FIN of a closed half is pending or under way as long as its own side moves. -/
theorem fin_send (hO : Orderly S) (hE : EndingInv (S.sess X)) (hE' : EndingInv (S'.sess X))
    (hm : SysMove S X a S') (hopen : (S'.sess X).closed = false)
    (hw : w < (S.sess X).nextRef) (hc : ((S.sess X).cells w).conv = some c)
    (h : FinPending ((S.sess X).cells w) ∨ .fin ∈ (S.flight X).filterMap (item c)) :
    FinPending ((S'.sess X).cells w) ∨ .fin ∈ (S'.flight X).filterMap (item c) := by
  rcases h with h | h
  · rcases cell_finPending (hO.cell X w hw) (move_cell hm.move hw) h with h | ⟨⟨d, rfl⟩, hpc⟩
    · exact .inl h
    · right
      rcases hm.drain with ⟨hd, _⟩ | ⟨p, hd, _, hfl⟩
      · cases (drain_sendFIN hd hpc).2
      · cases (drain_sendFIN hd hpc).2
        have hmute : (S.sess X).mute = false := by
          cases hb : (S.sess X).mute with
          | false => rfl
          | true => rw [← hm.not_closed hopen, hE.mute hb]
        rw [hfl, hmute, List.filterMap_append]
        simp [item_filter, item_closePacket hc]
  · right
    cases hm.sending (hO.control X) with
    | keep hfl => rwa [hfl]
    | lose _ _ _ _ hfl => rwa [hfl]
    | queue _ _ _ _ hfl =>
      rw [hfl, List.filterMap_append]
      exact List.mem_append_left _ h
    | cut _ hmute =>
      rw [hE'.mute hmute] at hopen
      cases hopen

/-- The FIN under way reaches the counterpart, unless that has gone. -/
theorem fin_receive (hO : Orderly S) (hA : Authentic S) (hm : SysMove S X.peer a S') {w v : Ref}
    (hp : Paired S X w v c) (h : .fin ∈ (S.flight X).filterMap (item c)) :
    .fin ∈ (S'.flight X).filterMap (item c) ∨
      ((S'.sess X.peer).cells v).stream.state.RemoteClosed ∨ Gone ((S'.sess X.peer).cells v) := by
  -- the head of what was under way is gone: it was the FIN, or the FIN is still there
  have head : ∀ {p}, S.flight X = [p].filter Packet.inOrder ++ S'.flight X →
      item c p = some .fin ∨ .fin ∈ (S'.flight X).filterMap (item c) := by
    intro p hfl
    rw [filterMap_head hfl] at h
    rcases List.mem_append.mp h with h | h
    · exact .inl (by simpa using h)
    · exact .inr h
  cases hm.receiving with
  | keep hfl => exact .inl (by rwa [hfl])
  | drop p _ hrd why hfl =>
    rcases head hfl with hi | hin
    · obtain ⟨hconv, hkind⟩ := item_eq_some hi
      have hclose : p.isClose = true := by
        rcases hkind with ⟨_, h⟩ | ⟨h, _⟩
        · cases h
        · exact h
      rcases why with hh | hopen | hget
      · rw [hh.2.1] at hclose
        cases hclose
      · rw [item_of_isOpen hopen] at hi
        cases hi
      · have hsent : SentBy S X p := .inr (.inr (by rw [hrd]; rfl))
        have hon : p.onStream = true := onStream_of_kind (.inr (.inl hclose))
        exact .inr (.inr (hm.gone hO hp.reader (gone_of_miss hO hA hp hsent hon hconv hget)))
    · exact .inl hin
  | insert p _ hrd hfl =>
    have hk := (hO.wellFormed X.peer).kind
    rw [hrd] at hk
    rcases head hfl with hi | hin
    · rw [item_of_isOpen hk] at hi
      cases hi
    · exact .inl hin
  | deliver r p _ hrd hfl =>
    have hk := (hO.wellFormed X.peer).kind
    rw [hrd] at hk
    cases hfin : p.frame.flags.fin with
    | true =>
      rw [hfin, if_pos rfl, List.nil_append] at hfl
      exact .inl (by rwa [← hfl])
    | false =>
      rw [hfin, if_neg (by simp)] at hfl
      rcases head hfl with hi | hin
      · have hd : p.isData = true := hk
        simp [item, hd] at hi
      · exact .inl hin
  | remoteClose r p ha hrd hfl =>
    rcases head hfl with hi | hin
    · subst ha
      obtain ⟨hconv, _⟩ := item_eq_some hi
      obtain ⟨_, _, hr, hcr⟩ := hO.applied (.inr (.inl hrd))
      have hrv := hO.unique X.peer r v c hr hp.reader (hcr.trans hconv) hp.convReader
      subst hrv
      have hst := (move_remoteClose hm.move hrd).2
      have hidle := (hO.cell X.peer r hr).notIdle
      simp only [Gone, hst]
      unfold StreamSession.remoteClose
      cases hs : ((S.sess X.peer).cells r).stream.state <;>
        simp_all [StreamState.RemoteClosed, StreamState.Terminal]
    · exact .inl hin

theorem told_cancelled_move (hT : Told S) (hok : RemovesTold S (Z, a)) (hm : SysMove S Z a S')
    {w f : Ref} (hw : w < (S'.sess X).nextRef)
    (hpc : ((S'.sess X).cells w).openPc = .resetting f) : PeerEnded S' X w := by
  rcases hm.sess X with ⟨rfl, hmove⟩ | heq
  · rcases move_new hmove hw with hold | ⟨_, ⟨_, _, hc⟩ | ⟨_, _, _, hc⟩⟩
    · refine PeerEnded.move hm hold ?_
      rcases move_found hmove hold hpc with hpc₀ | ⟨rfl, _, hget⟩
      · exact hT.cancelled X w hold f hpc₀
      · exact hok (by rw [hget]; rfl)
    · rw [hc] at hpc
      cases hpc
    · rw [hc] at hpc
      cases hpc
  · rw [heq] at hw hpc
    exact (hT.cancelled X w hw f hpc).move hm hw

theorem told_reset_move (hO : Orderly S) (hO' : Orderly S') (hA : Authentic S)
    (hE : EndingInv (S.sess X)) (hT : Told S) (hok : RemovesTold S (Z, a))
    (hset : ReissuesSettled (S.sess Z) a) (hm : SysMove S Z a S')
    (hopen : (S'.sess X).closed = false) (hw : w < (S'.sess X).nextRef)
    (hst : ((S'.sess X).cells w).stream.state = .reset) :
    ∃ v c, Paired S' X w v c ∧ (ResetAhead (S'.sess X) w ∨ ResetUnderWay S' X c ∨
      Gone ((S'.sess X.peer).cells v)) := by
  rcases Role.eq_or_eq_peer X Z with rfl | rfl
  · by_cases hold : w < (S.sess Z).nextRef
    · by_cases hst₀ : ((S.sess Z).cells w).stream.state = .reset
      · obtain ⟨v, c, hp, h⟩ := hT.reset Z w hold hst₀
        refine ⟨v, c, hp.move hm, ?_⟩
        rcases h with h | h | h
        · rcases resetAhead_move hO hA hE hok hset hm hopen hold hp.convWriter h with h | h | h
          · exact .inl h
          · exact .inr (.inl h)
          · exact .inr (.inr (hm.gone hO hp.reader (h.gone hO hp)))
        · exact .inr (.inl (resetUnderWay_send hm hopen h))
        · exact .inr (.inr (hm.gone hO hp.reader h))
      · obtain ⟨v, c, hp, h⟩ := reset_told hO hO' hA hT hm hopen hold hst₀ hst
        exact ⟨v, c, hp, h.imp_right .inr⟩
    · rw [(move_new_cell hm.move hw hold).2.2] at hst
      cases hst
  · have hX : S'.sess X = S.sess X := by simpa using hm.peer
    rw [hX] at hw hst
    obtain ⟨v, c, hp, h⟩ := hT.reset X w hw hst
    refine ⟨v, c, hp.move hm, ?_⟩
    rw [hX]
    rcases h with h | h | h
    · exact .inl h
    · exact .inr (resetUnderWay_receive hO hA hm hp h)
    · exact .inr (.inr (hm.gone hO hp.reader h))

theorem told_fin_move (hO : Orderly S) (hO' : Orderly S') (hA : Authentic S)
    (hE : EndingInv (S.sess X)) (hE' : EndingInv (S'.sess X)) (hT : Told S) (hm : SysMove S Z a S')
    (hopen : (S'.sess X).closed = false) (hw : w < (S'.sess X).nextRef)
    (hcl : ((S'.sess X).cells w).hist.closedAt ≠ none)
    (hst : ((S'.sess X).cells w).stream.state ≠ .reset) :
    ∃ v c, Paired S' X w v c ∧ (FinPending ((S'.sess X).cells w) ∨
      .fin ∈ (S'.flight X).filterMap (item c) ∨
        ((S'.sess X.peer).cells v).stream.state.RemoteClosed ∨
          Gone ((S'.sess X.peer).cells v)) := by
  rcases Role.eq_or_eq_peer X Z with rfl | rfl
  · by_cases hold : w < (S.sess Z).nextRef
    · have hcell := move_cell hm.move hold
      by_cases hcl₀ : ((S.sess Z).cells w).hist.closedAt = none
      · -- the half has just been closed, by a holder: there is a counterpart
        obtain ⟨hh, hfin⟩ := cell_closes hcell hcl₀ hcl
        obtain ⟨v, hv, hcv⟩ := hO.counterpart hold ((hO.mapped Z).held w hold hh)
        obtain ⟨c, hcw⟩ := hO.conv_some hold
        have hp : Paired S Z w v c := ⟨hold, hv, hcw, hcv.trans hcw⟩
        exact ⟨v, c, hp.move hm, .inl hfin⟩
      · have hst₀ : ((S.sess Z).cells w).stream.state ≠ .reset := fun h =>
          hst (((hm.evolves hold).terminal (.inr h)).trans h)
        obtain ⟨v, c, hp, h⟩ := hT.fin Z w hold hcl₀ hst₀
        refine ⟨v, c, hp.move hm, ?_⟩
        rw [← or_assoc] at h ⊢
        rcases h with h | h
        · exact .inl (fin_send hO hE hE' hm hopen hold hp.convWriter h)
        · rw [hm.peer]
          exact .inr h
    · refine absurd ?_ hcl
      exact ((hO'.cell Z w hw).unheld (move_new_cell hm.move hw hold).1).closedAt
  · have hX : S'.sess X = S.sess X := by simpa using hm.peer
    rw [hX] at hw hcl hst
    obtain ⟨v, c, hp, h⟩ := hT.fin X w hw hcl hst
    refine ⟨v, c, hp.move hm, ?_⟩
    rw [hX]
    rcases h with h | h | h | h
    · exact .inl h
    · exact .inr (fin_receive hO hA hm hp h)
    · rcases cell_remoteClosed (move_cell hm.move hp.reader) h with h | h
      · exact .inr (.inr (.inl h))
      · exact .inr (.inr (.inr (.inl (.inr h))))
    · exact .inr (.inr (.inr (hm.gone hO hp.reader h)))

/-- In every tidy run, as long as both sessions are open, a stream that has ended has told its
counterpart or is about to. -/
theorem told_reach {config : Role → MuxConfig} (h : SystemReach config Tidy S)
    (hopen : ∀ X, (S.sess X).closed = false) : Told S := by
  refine Reach.invariant (fun S => (∀ X, (S.sess X).closed = false) → Told S) h ?_ ?_ hopen
  · intro _
    constructor <;> intro X w hw <;> cases hw
  · rintro S ⟨Z, a⟩ S' hS hI hok hstep hopen'
    have hm := system_move hstep
    have hQ : SystemReach config ReissuesQuiet S := hS.mono fun _ _ => And.left
    have hQ' : SystemReach config ReissuesQuiet S' := .tail hQ hok.1 hstep
    have hO := orderly_reach hQ
    have hO' := orderly_reach hQ'
    have hA := authentic_reach hQ
    have hE := system_endingInv hQ
    have hE' := system_endingInv hQ'
    have hT := hI fun X => hm.not_closed (hopen' X)
    exact ⟨fun X w hw f hpc => told_cancelled_move hT hok.2 hm hw hpc,
      fun X w hw hst =>
        told_reset_move hO hO' hA (hE X) hT hok.2 (quiet_settled hQ hok.1) hm (hopen' X) hw hst,
      fun X w hw hcl hst =>
        told_fin_move hO hO' hA (hE X) (hE' X) hT hm (hopen' X) hw hcl hst⟩

end Atlax.Analysis
