import Atlax.Analysis.Transfer

/-!
# What a reader gets

Every stream and its counterpart form a sound pipe in each direction, in every run in which
identifiers are handed out quiet. So Reads return a prefix of what was written, and io.EOF on a
stream that was not reset comes after all that was written before the other side's Close.
-/

set_option autoImplicit false

namespace Atlax.Analysis

open Atlax.Model Atlax.Library

variable {c : Conv} {w v : Ref}

variable {S S' : System} {X : Role} {a : Action} {r : Ref}

/-- From stream `w` of `X` to its counterpart `v`. -/
structure PairInv (S : System) (X : Role) (w v : Ref) (c : Conv) : Prop where
  sound : (pipe S X w v c).Sound
  marked : (pipe S X w v c).Marked →
    ∃ b, ((S.sess X).cells w).hist.closedAt = some b ∧ b <+: ((S.sess X).cells w).hist.drained

theorem pairInv_empty (finished broken : Bool)
    (h : pipe S X w v c = .empty finished broken) : PairInv S X w v c := by
  constructor
  · rw [h]
    exact Pipe.sound_empty finished broken
  · rw [h]
    simp [Pipe.Marked, Pipe.empty]

/-- A stream that nobody holds has sent nothing. -/
theorem filterMap_item_unheld (hO : Orderly S) (hA : Authentic S)
    (hw : w < (S.sess X).nextRef) (hcw : ((S.sess X).cells w).conv = some c)
    (hh : ((S.sess X).cells w).handle = false) : (S.flight X).filterMap (item c) = [] := by
  refine List.filterMap_eq_nil_iff.mpr fun p hp => ?_
  cases hi : item c p with
  | none => rfl
  | some i =>
    obtain ⟨hpc, hkind⟩ := item_eq_some hi
    have hon : p.onStream = true :=
      onStream_of_kind (hkind.imp And.left fun h => .inl h.1)
    obtain ⟨r, hr, hs⟩ := hA.sent X p (mem_flight hp).1 hon
    have hrw := hO.unique X r w c hr hw (hs.conv.trans hpc) hcw
    subst hrw
    have hheld : ((S.sess X).cells r).handle = true := by
      rcases hkind with ⟨hd, _⟩ | ⟨hc, _⟩
      · exact (hs.data hd).1
      · exact hs.close hc
    rw [hh] at hheld
    cases hheld

/-- A pair whose writer nobody holds yet and whose reader has heard nothing. -/
theorem pairInv_fresh (hO : Orderly S) (hA : Authentic S)
    (hp : Paired S X w v c) (hh : ((S.sess X).cells w).handle = false)
    (hd : ((S.sess X.peer).cells v).hist.delivered = [])
    (hrc : ¬ ((S.sess X.peer).cells v).stream.state.RemoteClosed) : PairInv S X w v c := by
  have hC := hO.cell X w hp.writer
  have hu := hC.unheld hh
  have hdr : ((S.sess X).cells w).hist.drained = [] := by
    have hflow := hC.flow
    rw [hu.wrote] at hflow
    exact (List.append_eq_nil_iff.mp hflow).1
  refine pairInv_empty (decide (((S.sess X).cells w).drainPc = .done)) (S.sess X).mute ?_
  simp [pipe, Pipe.empty, hdr, hd, hrc, hu.inHand,
    filterMap_item_unheld hO hA hp.writer hp.convWriter hh]

theorem cell_drained {rd : ReaderPc} {c c' : Cell} (hm : CellMove a rd r c c') :
    c.hist.drained <+: c'.hist.drained := by
  cases hm with
  | drain d b c' p _ hc =>
    cases hc with
    | take => exact List.prefix_append _ _
    | _ => exact List.prefix_refl _
  | call k c' _ _ hc =>
    cases hc with
    | close =>
      simp only [Cell.close]
      split <;> exact List.prefix_refl _
    | _ => exact List.prefix_refl _
  | _ => exact List.prefix_refl _

/-- The Close that the end mark stands for stays what it was. -/
theorem closedAt_move (hC : CellInv ((S.sess X).cells w)) (hm : SysMove S X a S')
    (hw : w < (S.sess X).nextRef) (h : ∃ b, ((S.sess X).cells w).hist.closedAt = some b ∧
      b <+: ((S.sess X).cells w).hist.drained) :
    ∃ b, ((S'.sess X).cells w).hist.closedAt = some b ∧
      b <+: ((S'.sess X).cells w).hist.drained := by
  obtain ⟨b, hb, hpre⟩ := h
  have hmove := move_cell hm.move hw
  exact ⟨b, cell_closedAt hC hmove hb, hpre.trans (cell_drained hmove)⟩

theorem pairInv_send (hO : Orderly S) (hm : SysMove S X a S')
    (hp : Paired S X w v c) (hI : PairInv S X w v c) : PairInv S' X w v c := by
  obtain ⟨hstep, hmark⟩ := pipe_send (v := v) hO hm hp.writer hp.convWriter
  have hC := hO.cell X w hp.writer
  refine ⟨hI.sound.step hstep, fun h => closedAt_move hC hm hp.writer ?_⟩
  rcases hmark h with h | hpc
  · exact hI.marked h
  · obtain ⟨b, hb⟩ := Option.ne_none_iff_exists'.mp (hC.fin (by simp [FinPending, finishing, hpc]))
    exact ⟨b, hb, hC.sendFIN hpc b hb⟩

theorem pairInv_receive (hO : Orderly S) (hO' : Orderly S') (hA : Authentic S)
    (hm : SysMove S X.peer a S') (hp : Paired S X w v c)
    (hl : Listening ((S'.sess X.peer).cells v)) (hI : PairInv S X w v c) : PairInv S' X w v c := by
  obtain ⟨hstep, hmark⟩ := pipe_receive hO hO' hA hm hp.writer hp.reader hp.convWriter
    hp.convReader hl hI.sound
  have hX : S'.sess X = S.sess X := by simpa using hm.peer
  refine ⟨hI.sound.step hstep, fun h => ?_⟩
  rw [hX]
  exact hI.marked (hmark h)

/-- A stream that was just made is held by nobody and has heard nothing. -/
theorem move_new_cell {s s' : Session} (hm : Move s a s') (hr : r < s'.nextRef)
    (hnew : ¬ r < s.nextRef) :
    (s'.cells r).handle = false ∧ (s'.cells r).hist.delivered = [] ∧
      (s'.cells r).stream.state = .opened := by
  rcases move_new hm hr with hold | ⟨_, ⟨_, _, hc⟩ | ⟨_, _, _, hc⟩⟩
  · exact absurd hold hnew
  · rw [hc]
    exact ⟨rfl, rfl, rfl⟩
  · rw [hc]
    exact ⟨rfl, rfl, rfl⟩

/-- A stream that was accepted, or that its open has returned, has a counterpart. -/
theorem Orderly.counterpart (hO : Orderly S) (hw : w < (S.sess X).nextRef)
    (hpc : ((S.sess X).cells w).openPc = .accepted ∨ ((S.sess X).cells w).openPc = .returned) :
    ∃ r < (S.sess X.peer).nextRef, ((S.sess X.peer).cells r).conv = ((S.sess X).cells w).conv := by
  rcases hpc with hacc | hret
  · obtain ⟨r, hr, hc, _, _, hpc⟩ := hO.opens.accepted X w hw hacc
    refine ⟨r, hr, ?_⟩
    rw [(hO.wellFormed X.peer).conv r hr hpc, hO.role, hc]
  · obtain ⟨r, hr, hc, _⟩ := hO.matched.returned X w hw hret
    refine ⟨r, hr, ?_⟩
    rw [(hO.wellFormed X).conv w hw (by simp [hret]), hO.role, hc]

/-- Every stream belongs to a conversation. -/
theorem Orderly.conv_some (hO : Orderly S) (hr : r < (S.sess X).nextRef) :
    ∃ c, ((S.sess X).cells r).conv = some c := by
  by_cases hacc : ((S.sess X).cells r).openPc = .accepted
  · obtain ⟨k, _, hc, _⟩ := hO.opens.accepted X r hr hacc
    exact ⟨_, hc⟩
  · exact ⟨_, (hO.wellFormed X).conv r hr hacc⟩

/-- The pairs of a state are sound, in both directions. -/
def PairsSound (S : System) : Prop :=
  ∀ X w v c, Paired S X w v c → Listening ((S.sess X.peer).cells v) → PairInv S X w v c

/-- The writer's side moves. -/
theorem pairsSound_send (hO : Orderly S) (hO' : Orderly S') (hA : Authentic S) (hA' : Authentic S')
    (hI : PairsSound S) (hm : SysMove S X a S') (hp : Paired S' X w v c)
    (hl : Listening ((S'.sess X.peer).cells v)) : PairInv S' X w v c := by
  obtain ⟨hw, hv, hcw, hcv⟩ := hp
  rw [hm.peer] at hv hcv hl
  by_cases hold : w < (S.sess X).nextRef
  · rw [(hm.evolves hold).conv] at hcw
    exact pairInv_send hO hm ⟨hold, hv, hcw, hcv⟩ (hI X w v c ⟨hold, hv, hcw, hcv⟩ hl)
  · -- a reader that has heard anything has a counterpart already
    obtain ⟨hh, _⟩ := move_new_cell hm.move hw hold
    have silent : ¬ (((S.sess X.peer).cells v).hist.delivered ≠ [] ∨
        ((S.sess X.peer).cells v).stream.state.RemoteClosed) := by
      intro h
      obtain ⟨r, hr, hc⟩ := hA.heard X.peer v hv h
      rw [Role.peer_peer] at hr hc
      have hr' := Nat.lt_of_lt_of_le hr (hm.nextRef X)
      have hc' : ((S'.sess X).cells r).conv = some c := by
        rw [(hm.evolves hr).conv, hc, hcv]
      exact hold (hO'.unique X r w c hr' hw hc' hcw ▸ hr)
    rw [not_or, not_not] at silent
    refine pairInv_fresh hO' hA' ⟨hw, ?_, hcw, ?_⟩ hh ?_ ?_
    all_goals rw [hm.peer]
    · exact hv
    · exact hcv
    · exact silent.1
    · exact silent.2

/-- The reader's side moves. -/
theorem pairsSound_receive (hO : Orderly S) (hO' : Orderly S') (hA : Authentic S)
    (hA' : Authentic S') (hI : PairsSound S) (hm : SysMove S X.peer a S')
    (hp : Paired S' X w v c) (hl : Listening ((S'.sess X.peer).cells v)) :
    PairInv S' X w v c := by
  have hX : S'.sess X = S.sess X := by simpa using hm.peer
  obtain ⟨hw, hv, hcw, hcv⟩ := hp
  have hw₀ : w < (S.sess X).nextRef := hX ▸ hw
  have hcw₀ : ((S.sess X).cells w).conv = some c := hX ▸ hcw
  by_cases hold : v < (S.sess X.peer).nextRef
  · have hcv₀ := (hm.evolves hold).conv ▸ hcv
    have hp₀ : Paired S X w v c := ⟨hw₀, hold, hcw₀, hcv₀⟩
    exact pairInv_receive hO hO' hA hm hp₀ hl (hI X w v c hp₀ (listening_move hO hO' hm hold hl))
  · obtain ⟨_, hd, hst⟩ := move_new_cell hm.move hv hold
    refine pairInv_fresh hO' hA' ⟨hw, hv, hcw, hcv⟩ ?_ hd ?_
    · -- an open that has returned its stream has a counterpart already
      cases hh : ((S'.sess X).cells w).handle with
      | false => rfl
      | true =>
        exfalso
        have hheld := (hO'.mapped X).held w hw hh
        rw [hX] at hheld
        obtain ⟨r, hr, hc⟩ := hO.counterpart hw₀ hheld
        have hr' := Nat.lt_of_lt_of_le hr (hm.nextRef _)
        have hc' : ((S'.sess X.peer).cells r).conv = some c := by
          rw [(hm.evolves hr).conv, hc, hcw₀]
        exact hold (hO'.unique X.peer r v c hr' hv hc' hcv ▸ hr)
    · rw [hst]
      simp [StreamState.RemoteClosed]

/-- Both directions are sound in every run. -/
theorem pairsSound_reach {config : Role → MuxConfig} (h : SystemReach config ReissuesQuiet S) :
    PairsSound S := by
  refine Reach.invariant PairsSound h ?_ ?_
  · intro X w v c hp
    cases hp.writer
  · rintro S ⟨Z, a⟩ S' hS hI hok hstep X w v c hp hl
    have hS' : SystemReach config ReissuesQuiet S' := .tail hS hok hstep
    have hm := system_move hstep
    rcases Role.eq_or_eq_peer X Z with rfl | rfl
    · exact pairsSound_send (orderly_reach hS) (orderly_reach hS') (authentic_reach hS)
        (authentic_reach hS') hI hm hp hl
    · exact pairsSound_receive (orderly_reach hS) (orderly_reach hS') (authentic_reach hS)
        (authentic_reach hS') hI hm hp hl

/-- A pair with nobody having called Reset on either stream: neither was reset. -/
theorem Authentic.not_reset (hO : Orderly S) (hA : Authentic S)
    (hp : Paired S X w v c) (hw : ((S.sess X).cells w).hist.aborted = false)
    (hv : ((S.sess X.peer).cells v).hist.aborted = false) :
    ((S.sess X.peer).cells v).stream.state ≠ .reset := by
  intro hst
  obtain ⟨Y, r, hr, hc, hab⟩ := hA.reset X.peer v hp.reader hst
  rw [hp.convReader] at hc
  rcases Role.eq_or_eq_peer X Y with rfl | rfl
  · rw [hO.unique Y r w c hr hp.writer hc hp.convWriter, hw] at hab
    cases hab
  · rw [hO.unique X.peer r v c hr hp.reader hc hp.convReader, hv] at hab
    cases hab

theorem read_eof {s : StreamSession} {n : ℕ} (h : (s.read n).1 = .eof) :
    s.readBuf = [] ∧ (s.state ≠ .reset → s.state.RemoteClosed) := by
  unfold StreamSession.read at h
  split at h
  · next hb =>
    split at h
    · next hc =>
      refine ⟨hb, fun hst => ?_⟩
      simp only [StreamSession.isReadClosed, Bool.or_eq_true, beq_iff_eq, hst, or_false] at hc
      exact hc
    · cases h
  · cases h

/-- io.EOF on a stream that was not reset: the counterpart has called Close, and what it has drained
has all been read. -/
theorem PairInv.eof (hI : PairInv S X w v c) (hC : CellInv ((S.sess X.peer).cells v))
    (hst : ((S.sess X.peer).cells v).stream.state ≠ .reset) {n : ℕ}
    (heof : (((S.sess X.peer).cells v).stream.read n).1 = .eof) :
    ((S.sess X.peer).cells v).hist.got = ((S.sess X).cells w).hist.drained ∧
      ∃ b, ((S.sess X).cells w).hist.closedAt = some b ∧
        b <+: ((S.sess X).cells w).hist.drained := by
  obtain ⟨hbuf, hrc⟩ := read_eof heof
  have hended : (pipe S X w v c).ended = true := decide_eq_true (hrc hst)
  have hnil := hI.sound.sealed hended
  have hall := hI.sound.whole (.inr (.inr hended))
  rw [hnil, content, List.append_nil] at hall
  have hread := hC.buffer hst
  rw [hbuf, List.append_nil] at hread
  exact ⟨hread.trans hall, hI.marked (.inr hended)⟩

/-- What has been drained was written. -/
theorem CellInv.drained_sub {c : Cell} (h : CellInv c) : c.hist.drained <+: c.hist.wrote := by
  rw [← h.flow]
  exact List.prefix_append _ _

/-- What has been read of a stream that was not reset was drained at the other end. -/
theorem PairInv.got_sub (hI : PairInv S X w v c) (hC : CellInv ((S.sess X.peer).cells v))
    (hst : ((S.sess X.peer).cells v).stream.state ≠ .reset) :
    ((S.sess X.peer).cells v).hist.got <+: ((S.sess X).cells w).hist.drained := by
  have hgd : ((S.sess X.peer).cells v).hist.got <+: ((S.sess X.peer).cells v).hist.delivered := by
    rw [← hC.buffer hst]
    exact List.prefix_append _ _
  exact hgd.trans ((List.prefix_append _ _).trans hI.sound.sub)

/-- A stream that is read was neither reset nor is it about to be by its open. -/
theorem Orderly.listening (hO : Orderly S) (hv : v < (S.sess X).nextRef)
    (hh : ((S.sess X).cells v).handle = true)
    (hst : ((S.sess X).cells v).stream.state ≠ .reset) : Listening ((S.sess X).cells v) := by
  refine ⟨hst, fun f hf => ?_⟩
  have hheld := (hO.mapped X).held v hv hh
  simp [hf] at hheld

/-- One side writes and then closes, and nobody resets: what the other side reads is a prefix of
what was written, and io.EOF comes after all of it.
SOURCE: mux_session.go:326-382, 462-490; stream_impl.go:86-221 -/
theorem reads_are_writes {config : Role → MuxConfig} (h : SystemReach config ReissuesQuiet S)
    {w v : Ref} {c : Conv} (hp : Paired S X w v c)
    (hw : ((S.sess X).cells w).hist.aborted = false)
    (hv : ((S.sess X.peer).cells v).hist.aborted = false)
    (hcl : ((S.sess X).cells w).hist.closedAt = none ∨
      ((S.sess X).cells w).hist.closedAt = some ((S.sess X).cells w).hist.wrote)
    (hh : ((S.sess X.peer).cells v).handle = true) :
    ((S.sess X.peer).cells v).hist.got <+: ((S.sess X).cells w).hist.wrote ∧
      ∀ n, (((S.sess X.peer).cells v).stream.read n).1 = .eof →
        ((S.sess X).cells w).hist.closedAt = some ((S.sess X).cells w).hist.wrote ∧
          ((S.sess X.peer).cells v).hist.got = ((S.sess X).cells w).hist.wrote := by
  have hO := orderly_reach h
  have hst := (authentic_reach h).not_reset hO hp hw hv
  have hI := pairsSound_reach h X w v c hp (hO.listening hp.reader hh hst)
  have hCw := hO.cell X w hp.writer
  have hCv := hO.cell X.peer v hp.reader
  have hdw := hCw.drained_sub
  constructor
  · exact (hI.got_sub hCv hst).trans hdw
  · intro n heof
    obtain ⟨hgot, b, hb, hpre⟩ := hI.eof hCv hst heof
    have hb' : ((S.sess X).cells w).hist.closedAt = some ((S.sess X).cells w).hist.wrote := by
      rcases hcl with hn | hs
      · rw [hn] at hb
        cases hb
      · exact hs
    rw [hb'] at hb
    cases hb
    exact ⟨hb', hgot.trans (hdw.eq_of_length (Nat.le_antisymm hdw.length_le hpre.length_le))⟩

/-- The agent writes `[7]` and closes; the relay reads it all. -/
def transferRun : List (Role × Action) :=
  connectRun 0 [] ++ writeRun 0 [7] ++
  onSide .relay [.reader, .reader] ++
  onSide .agent [.call 0 .close, .callback 0 .closeFin, .callback 0 .closeCheckClosed,
    .callback 0 .closeCheckReset, .drain 0 .fin, .drain 0 .next, .drain 0 .next] ++
  passRun .agent (frameTwo 0 .streamClose { fin := true } []) ++
  onSide .relay [.reader, .reader, .reader, .reader, .call 0 (.read 4)]

theorem reads_are_writes_transfer :
    ∃ S, SystemReach fourStreams ReissuesQuiet S ∧
      (((S.sess .relay).cells 0).stream.read 4).1 = .eof ∧
      ((S.sess .agent).cells 0).hist.wrote = [7] ∧ ((S.sess .relay).cells 0).hist.got = [7] := by
  have hex : ∃ S, SystemReach fourStreams ReissuesQuiet S ∧
      (((S.sess .relay).cells 0).stream.read 4).1 = .eof ∧
      ((S.sess .agent).cells 0).hist.wrote = [7] ∧
      0 < (S.sess .agent).nextRef ∧ 0 < (S.sess .relay).nextRef ∧
      ((S.sess .agent).cells 0).conv = some ⟨.agent, 0⟩ ∧
      ((S.sess .relay).cells 0).conv = some ⟨.agent, 0⟩ ∧
      ((S.sess .agent).cells 0).hist.aborted = false ∧
      ((S.sess .relay).cells 0).hist.aborted = false ∧
      ((S.sess .agent).cells 0).hist.closedAt = some ((S.sess .agent).cells 0).hist.wrote ∧
      ((S.sess .relay).cells 0).handle = true :=
    exists_reach_of_exec transferRun _ (by decide +kernel)
  obtain ⟨S, hS, heof, hwrote, hw, hv, hcw, hcv, haw, hav, hcl, hh⟩ := hex
  have hall := (reads_are_writes (X := .agent) hS ⟨hw, hv, hcw, hcv⟩ haw hav (.inr hcl) hh).2 4 heof
  exact ⟨S, hS, heof, hwrote, hall.2.trans hwrote⟩

/-- The relay closes its half, the agent writes `[7]` and closes. The stream is closed and its
identifier free with the data still queued. A second open takes the identifier and is cancelled; a
third takes it before the second is reset, so that the reset of the second finds an entry and sends
STREAM_RESET, ahead of the data. -/
def overtakenRun : List (Role × Action) :=
  connectRun 0 [] ++
  onSide .relay [.call 0 .close, .callback 0 .closeFin, .callback 0 .closeCheckClosed,
    .callback 0 .closeCheckReset, .drain 0 .fin, .drain 0 .next, .drain 0 .next] ++
  passRun .relay (frameTwo 0 .streamClose { fin := true } []) ++
  onSide .agent [.reader, .reader, .reader, .reader,
    .call 0 (.write [7]), .call 0 (.writeSend [7]), .call 0 .close, .callback 0 .closeFin,
    .callback 0 .closeCheckClosed, .callback 0 .closeDelete, .drain 0 .data, .drain 0 .next,
    .openStream [], .openAlloc [], .opening 1 .register, .opening 1 .enqueue, .opening 1 .cancel,
    .opening 1 .cleanup, .opening 1 .remove, .openStream [], .openAlloc [], .opening 1 .reset,
    .callback 1 .resetCheck, .callback 1 .resetLookup, .callback 1 .resetSend] ++
  passRun .agent (frameTwo 1 .streamReset {} [0, 0, 0, 0]) ++
  onSide .relay [.reader, .reader]

/-- The relay reads io.EOF and has got nothing of what was written before the Close. -/
theorem reads_lose_writes :
    ∃ S, SystemReach fourStreams anyStep S ∧
      ((S.sess .relay).cells 0).conv = ((S.sess .agent).cells 0).conv ∧
      ((S.sess .agent).cells 0).hist.aborted = false ∧
      ((S.sess .relay).cells 0).hist.aborted = false ∧
      (S.sess .agent).closing = .running ∧ (S.sess .relay).closing = .running ∧
      ((S.sess .agent).cells 0).hist.wrote = [7] ∧
      ((S.sess .agent).cells 0).hist.closedAt = some [7] ∧
      ((S.sess .relay).cells 0).handle = true ∧
      (((S.sess .relay).cells 0).stream.read 4).1 = .eof ∧
      ((S.sess .relay).cells 0).hist.got = [] :=
  exists_reach_of_exec overtakenRun _ (by decide +kernel)

/-- Close is called on a stream only when no Write on it is under way.
SOURCE: stream_impl.go:105-124, 148-179 -/
def ClosesIdle (S : System) : Role × Action → Prop
  | (X, .call r .close) => ((S.sess X).cells r).writers = []
  | _ => True

instance (S : System) : DecidablePred (ClosesIdle S)
  | (X, a) => by
    unfold ClosesIdle
    induction a with
    | call r k => induction k <;> infer_instance
    | _ => infer_instance

/-- Identifiers are handed out quiet, and nobody closes a stream in the middle of a Write. -/
def Disciplined (S : System) (l : Role × Action) : Prop := ReissuesQuiet S l ∧ ClosesIdle S l

instance (S : System) (l : Role × Action) : Decidable (Disciplined S l) :=
  inferInstanceAs (Decidable (_ ∧ _))

/-- What was written is what was written before the Close. -/
def ClosedIdle (c : Cell) : Prop :=
  ∀ b, c.hist.closedAt = some b → c.writers = [] ∧ c.hist.wrote = b

theorem closedIdle_call {c c' : Cell} {k : Call} (hC : CellInv c) (hc : CellCall c k c')
    (hok : k = .close → c.writers = []) (h : ClosedIdle c) : ClosedIdle c' := by
  intro b hb
  cases hc with
  | write data hopen =>
    -- a closed half takes no Write
    exfalso
    rcases hC.closedAt (by rw [hb]; simp) with (hst | hst) | hst <;>
      simp [StreamSession.isWriteClosed, hst] at hopen
  | writeSend data hmem | writeFail data hmem =>
    rw [(h b hb).1] at hmem
    cases hmem
  | close =>
    have hidle := hok rfl
    unfold Cell.close at hb ⊢
    cases hn : c.stream.close.2 <;> simp only [hn] at hb ⊢
    · exact h b hb
    · exact ⟨hidle, by simpa using hb⟩
  | _ => exact h b hb

theorem closedIdle_cell {rd : ReaderPc} {c c' : Cell} (hC : CellInv c)
    (hm : CellMove a rd r c c') (hok : a = .call r .close → c.writers = []) (h : ClosedIdle c) :
    ClosedIdle c' := by
  cases hm with
  | call k c' ha _ hc => exact closedIdle_call hC hc (fun hk => hok (hk ▸ ha)) h
  | drain d b c' p _ hc => cases hc <;> exact h
  | _ => exact h

theorem closedIdle_reach {config : Role → MuxConfig} (h : SystemReach config Disciplined S) :
    ∀ X, ∀ r < (S.sess X).nextRef, ClosedIdle ((S.sess X).cells r) := by
  refine Reach.invariant
    (fun S => ∀ X, ∀ r < (S.sess X).nextRef, ClosedIdle ((S.sess X).cells r)) h ?_ ?_
  · intro X r hr
    cases hr
  · rintro S ⟨Z, a⟩ S' hS hI hok hstep X r hr
    have hm := system_move hstep
    have hO := orderly_reach (hS.mono fun _ _ => And.left)
    rcases hm.sess X with ⟨rfl, hmove⟩ | heq
    · by_cases hold : r < (S.sess X).nextRef
      · refine closedIdle_cell (hO.cell X r hold) (move_cell hmove hold) ?_ (hI X r hold)
        rintro rfl
        exact hok.2
      · have hS' : SystemReach config Disciplined S' := .tail hS hok hstep
        have hC' := (orderly_reach (hS'.mono fun _ _ => And.left)).cell X r hr
        have hu := hC'.unheld (move_new_cell hmove hr hold).1
        intro b hb
        rw [hu.closedAt] at hb
        cases hb
    · rw [heq] at hr ⊢
      exact hI X r hr

/-- The other side has called Close and all that it wrote before has been read, and neither stream
was reset. -/
def EndsClean (S : System) (X : Role) (v : Ref) : Prop :=
  ((S.sess X).cells v).stream.state ≠ .reset ∧
    ∃ w < (S.sess X.peer).nextRef, ((S.sess X.peer).cells w).conv = ((S.sess X).cells v).conv ∧
      ((S.sess X.peer).cells w).stream.state ≠ .reset ∧
      ((S.sess X.peer).cells w).hist.closedAt = some ((S.sess X).cells v).hist.got

/-- When a Read returns io.EOF, the other side has called Close and all that it wrote before has
been read, exactly if neither stream of the conversation was reset.
SOURCE: stream_impl.go:83-103, 223-262 -/
theorem eof_endsClean_iff {config : Role → MuxConfig} (h : SystemReach config Disciplined S)
    {v : Ref} (hv : v < (S.sess X).nextRef) (hh : ((S.sess X).cells v).handle = true) {n : ℕ}
    (heof : (((S.sess X).cells v).stream.read n).1 = .eof) :
    EndsClean S X v ↔ ((S.sess X).cells v).stream.state ≠ .reset ∧
      ∀ w < (S.sess X.peer).nextRef,
        ((S.sess X.peer).cells w).conv = ((S.sess X).cells v).conv →
        ((S.sess X.peer).cells w).stream.state ≠ .reset := by
  have hQ : SystemReach config ReissuesQuiet S := h.mono fun _ _ => And.left
  have hO := orderly_reach hQ
  obtain ⟨c, hcv⟩ := hO.conv_some hv
  constructor
  · rintro ⟨hst, w, hw, hc, hstw, _⟩
    refine ⟨hst, fun w' hw' hc' => ?_⟩
    rw [hcv] at hc hc'
    rwa [hO.unique X.peer w' w c hw' hw hc' hc]
  · rintro ⟨hst, hpeer⟩
    obtain ⟨w, hw, hc⟩ := (authentic_reach hQ).heard X v hv (.inr ((read_eof heof).2 hst))
    refine ⟨hst, w, hw, hc, hpeer w hw hc, ?_⟩
    have hl := hO.listening hv hh hst
    have hCv := hO.cell X v hv
    have hCw := hO.cell X.peer w hw
    have hidle := closedIdle_reach h X.peer w hw
    -- the direction from the peer to this side
    obtain ⟨Y, rfl⟩ : ∃ Y : Role, X = Y.peer := ⟨X.peer, by simp⟩
    rw [Role.peer_peer] at hw hc hCw hidle ⊢
    have hI := pairsSound_reach hQ Y w v c ⟨hw, hv, hc.trans hcv, hcv⟩ hl
    obtain ⟨hgot, b, hb, hpre⟩ := hI.eof hCv hst heof
    have hdw : ((S.sess Y).cells w).hist.drained <+: b := by
      rw [← (hidle b hb).2]
      exact hCw.drained_sub
    rw [hb, hgot, hpre.eq_of_length (Nat.le_antisymm hpre.length_le hdw.length_le)]

/-- The agent resets its stream 0 with `[7]` on the way. -/
def resetRun : List (Role × Action) :=
  connectRun 0 [] ++ writeRun 0 [7] ++
  onSide .agent [.call 0 (.reset 1), .callback 0 .resetCheck, .callback 0 .resetLookup,
    .callback 0 .resetSend] ++
  onSide .relay [.reader, .reader] ++
  passRun .agent (frameTwo 0 .streamReset {} [0, 0, 0, 1]) ++
  onSide .relay [.reader, .reader]

theorem eof_endsClean_transfer :
    ∃ S, SystemReach fourStreams Disciplined S ∧
      (((S.sess .relay).cells 0).stream.read 4).1 = .eof ∧
      ((S.sess .relay).cells 0).stream.state ≠ .reset ∧
      (EndsClean S .relay 0 ↔ ((S.sess .relay).cells 0).stream.state ≠ .reset ∧
        ∀ w < (S.sess .agent).nextRef,
          ((S.sess .agent).cells w).conv = ((S.sess .relay).cells 0).conv →
          ((S.sess .agent).cells w).stream.state ≠ .reset) := by
  have hex : ∃ S, SystemReach fourStreams Disciplined S ∧
      (((S.sess .relay).cells 0).stream.read 4).1 = .eof ∧
      ((S.sess .relay).cells 0).stream.state ≠ .reset ∧ 0 < (S.sess .relay).nextRef ∧
      ((S.sess .relay).cells 0).handle = true :=
    exists_reach_of_exec transferRun _ (by decide +kernel)
  obtain ⟨S, hS, heof, hst, hv, hh⟩ := hex
  exact ⟨S, hS, heof, hst, eof_endsClean_iff hS hv hh heof⟩

/-- The relay reads io.EOF from a stream that was reset, with none of the data and no Close by the
agent. -/
theorem eof_after_reset :
    ∃ S, SystemReach fourStreams anyStep S ∧
      (((S.sess .relay).cells 0).stream.read 4).1 = .eof ∧
      ((S.sess .relay).cells 0).stream.state = .reset ∧
      ((S.sess .relay).cells 0).conv = ((S.sess .agent).cells 0).conv ∧
      ((S.sess .agent).cells 0).hist.aborted = true ∧
      ((S.sess .agent).cells 0).hist.closedAt = none ∧
      ((S.sess .agent).cells 0).hist.wrote = [7] ∧ ((S.sess .relay).cells 0).hist.got = [] :=
  exists_reach_of_exec resetRun _ (by decide +kernel)

end Atlax.Analysis
