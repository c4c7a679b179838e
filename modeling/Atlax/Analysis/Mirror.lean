import Atlax.Analysis.Notices

/-!
# The two sides at rest

When nothing is under way and nothing is running, what each side knows of a stream has reached the
other: the maps of the two sessions have the same identifiers, and the streams under one identifier
mirror each other.
-/

set_option autoImplicit false

namespace Atlax.Analysis

open Atlax.Model Atlax.Library

variable {w v : Ref} {c : Conv}

/-- Nothing is running for the stream: no open, Close or Reset is under way, nothing is left to
drain and no FIN is pending. -/
def CellQuiet (c : Cell) : Prop :=
  c.openPc.running = false ∧ c.closePc.running = false ∧ c.resetPc.running = false ∧
    c.stream.writeOut = [] ∧ c.inHand = [] ∧ ¬ FinPending c

instance (c : Cell) : Decidable (CellQuiet c) :=
  inferInstanceAs (Decidable (_ ∧ _ ∧ _ ∧ _ ∧ _ ∧ _))

/-- Both sessions are open, nothing is queued, written, on the wires or being handled, and every
stream is quiet. -/
def Quiescent (S : System) : Prop :=
  ∀ X ∈ [Role.relay, Role.agent],
    (S.sess X).closing = .running ∧ (S.sess X).queue.control = [] ∧ (S.sess X).queue.data = [] ∧
      (S.sess X).writer.hand = [] ∧ S.wire X = [] ∧ (S.sess X).reader = .idle ∧
      ∀ r < (S.sess X).nextRef, CellQuiet ((S.sess X).cells r)

instance (S : System) : Decidable (Quiescent S) := by
  unfold Quiescent
  infer_instance

/-- Open with Open, HalfClosedLocal with HalfClosedRemote. -/
def mirrored : StreamState → StreamState → Bool
  | .opened, .opened => true
  | .halfClosedLocal, .halfClosedRemote => true
  | .halfClosedRemote, .halfClosedLocal => true
  | _, _ => false

/-- Both sides hold the same identifiers, and the streams under each are in mirrored states. -/
def Mirrored (S : System) : Prop :=
  ∀ X i r, (S.sess X).table.get i = some r →
    ∃ r', (S.sess X.peer).table.get i = some r' ∧
      mirrored ((S.sess X).cells r).stream.state ((S.sess X.peer).cells r').stream.state = true

variable {S : System} {X : Role}

theorem Quiescent.at (h : Quiescent S) (X : Role) :
    (S.sess X).closed = false ∧ (S.sess X).reader = .idle ∧ S.flight X = [] ∧
      ∀ r < (S.sess X).nextRef, CellQuiet ((S.sess X).cells r) := by
  obtain ⟨hcl, _, hdata, hhand, hwire, hrd, hcell⟩ := h X (by cases X <;> simp)
  have hrd' := (h X.peer (by cases X <;> simp [Role.peer])).2.2.2.2.2.1
  refine ⟨by simp [Session.closed, hcl], hrd, ?_, hcell⟩
  simp [System.flight, hrd', hwire, Session.tail, hhand, hdata, ReaderPc.unapplied]

theorem Quiescent.not_resetUnderWay (h : Quiescent S) (X : Role) (c : Conv) :
    ¬ ResetUnderWay S X c := by
  obtain ⟨_, hctl, hdata, hhand, hwire, _⟩ := h X (by cases X <;> simp)
  have hrd := (h.at X.peer).2.1
  rintro ⟨p, _, _, ((hp | hp) | hp) | hp | hp | ⟨r, hp⟩⟩
  · rw [hctl] at hp
    cases hp
  · rw [hdata] at hp
    cases hp
  · rw [hp] at hhand
    cases hhand
  · rw [hwire] at hp
    cases hp
  · rw [hrd] at hp
    cases hp
  · rw [hrd] at hp
    cases hp

/-- An entry of a session at rest is that of a stream that has not ended and has a counterpart. -/
theorem Quiescent.entry (hO : Orderly S) (hE : EndingInv (S.sess X)) (hq : Quiescent S) {i : ℕ}
    {r : Ref} (hget : (S.sess X).table.get i = some r) :
    ¬ Gone ((S.sess X).cells r) ∧ ∃ v c, Paired S X r v c := by
  obtain ⟨hcl, hrd, _, hcell⟩ := hq.at X
  obtain ⟨hr, _⟩ := (hO.wellFormed X).table i r hget
  obtain ⟨hopen, hclose, hreset, _⟩ := hcell r hr
  have hpc : ((S.sess X).cells r).openPc = .accepted ∨ ((S.sess X).cells r).openPc = .returned := by
    cases hpc : ((S.sess X).cells r).openPc <;> simp [hpc, OpenPc.running] at hopen ⊢
    rw [hE.failed i r hget (.inl hpc)] at hcl
    cases hcl
  refine ⟨?_, ?_⟩
  · rintro ((hst | hst) | ⟨f, hf⟩)
    · rcases hE.ended i r hget hst with hahead | ⟨p, h | h⟩
      · cases hc : ((S.sess X).cells r).closePc <;>
          simp [hc, closeAhead, ClosePc.running] at hahead hclose
      · rw [hrd] at h
        cases h
      · rw [hrd] at h
        cases h
    · rcases hE.reset i r hget hst with h | h
      · rw [hcl] at h
        cases h
      · cases hc : ((S.sess X).cells r).resetPc <;>
          simp [hc, unreported, ResetPc.running] at h hreset
    · simp [hf] at hpc
  · obtain ⟨v, hv, hcv⟩ := hO.counterpart hr hpc
    obtain ⟨c, hcr⟩ := hO.conv_some hr
    exact ⟨v, c, hr, hv, hcr, hcv.trans hcr⟩

/-- At rest the end of a half is known to the counterpart, if that has not gone. -/
theorem Quiescent.remoteClosed (hO : Orderly S) (hT : Told S) (hq : Quiescent S)
    (hp : Paired S X w v c) (hst : ((S.sess X).cells w).stream.state ≠ .reset)
    (hcl : ((S.sess X).cells w).stream.state.LocalClosed) (hg : ¬ Gone ((S.sess X.peer).cells v)) :
    ((S.sess X.peer).cells v).stream.state.RemoteClosed := by
  obtain ⟨_, _, hfl, hcell⟩ := hq.at X
  obtain ⟨v', c', hp', h⟩ :=
    hT.fin X w hp.writer ((hO.cell X w hp.writer).localClosed hcl) hst
  have hc : c' = c := Option.some.inj (hp'.convWriter.symm.trans hp.convWriter)
  subst hc
  have hv := hO.unique X.peer v' v c' hp'.reader hp.reader hp'.convReader hp.convReader
  subst hv
  rcases h with h | h | h | h
  · exact absurd h (hcell w hp.writer).2.2.2.2.2
  · rw [hfl] at h
    cases h
  · exact h
  · exact absurd h hg

/-- What a stream knows of the other half is so. -/
theorem localClosed_of_remoteClosed (hO : Orderly S) (hI : PairsSound S)
    (hp : Paired S X w v c) (hl : Listening ((S.sess X.peer).cells v))
    (hrc : ((S.sess X.peer).cells v).stream.state.RemoteClosed)
    (hst : ((S.sess X).cells w).stream.state ≠ .reset) :
    ((S.sess X).cells w).stream.state.LocalClosed := by
  obtain ⟨b, hb, _⟩ := (hI X w v c hp hl).marked (.inr (decide_eq_true hrc))
  rcases (hO.cell X w hp.writer).closedAt (by simp [hb]) with h | h
  · exact h
  · exact absurd h hst

theorem Paired.symm (h : Paired S X w v c) : Paired S X.peer v w c where
  writer := h.reader
  reader := by rw [Role.peer_peer]; exact h.writer
  convWriter := h.convReader
  convReader := by rw [Role.peer_peer]; exact h.convWriter

/-- At rest the counterpart of a stream that has not gone was not reset: it would have said so. -/
theorem Quiescent.not_reset (hO : Orderly S) (hT : Told S) (hq : Quiescent S)
    (hp : Paired S X w v c) (hg : ¬ Gone ((S.sess X.peer).cells v)) :
    ((S.sess X).cells w).stream.state ≠ .reset := by
  intro hst
  obtain ⟨_, _, hreset, _⟩ := (hq.at X).2.2.2 w hp.writer
  obtain ⟨v', c', hp', h⟩ := hT.reset X w hp.writer hst
  have hc : c' = c := Option.some.inj (hp'.convWriter.symm.trans hp.convWriter)
  subst hc
  have hv := hO.unique X.peer v' v c' hp'.reader hp.reader hp'.convReader hp.convReader
  subst hv
  rcases h with (⟨hun, _⟩ | ⟨code, hsend⟩) | h | h
  · cases hpc : ((S.sess X).cells w).resetPc <;>
      simp [hpc, unreported, ResetPc.running] at hun hreset
  · simp [hsend, ResetPc.running] at hreset
  · exact hq.not_resetUnderWay X c' h
  · exact hg h

/-- The two halves of a pair at rest, one of whose streams is in the map. -/
structure AtRest (S : System) (X : Role) (w v : Ref) : Prop where
  writer : ¬ Gone ((S.sess X).cells w)
  reader : ¬ Gone ((S.sess X.peer).cells v)
  closes : ((S.sess X).cells w).stream.state.LocalClosed ↔
    ((S.sess X.peer).cells v).stream.state.RemoteClosed
  hears : ((S.sess X.peer).cells v).stream.state.LocalClosed ↔
    ((S.sess X).cells w).stream.state.RemoteClosed

theorem Quiescent.atRest (hO : Orderly S) (hT : Told S) (hI : PairsSound S) (hq : Quiescent S)
    (hp : Paired S X w v c) (hg : ¬ Gone ((S.sess X).cells w)) :
    AtRest S X w v := by
  have hstw : ((S.sess X).cells w).stream.state ≠ .reset := fun h => hg (.inl (.inr h))
  have hlw : Listening ((S.sess X).cells w) := ⟨hstw, fun f hf => hg (.inr ⟨f, hf⟩)⟩
  have hstv : ((S.sess X.peer).cells v).stream.state ≠ .reset := by
    refine hq.not_reset hO hT hp.symm ?_
    rwa [Role.peer_peer]
  have hlv : Listening ((S.sess X.peer).cells v) := by
    refine ⟨hstv, fun f hf => ?_⟩
    have hopen := ((hq.at X.peer).2.2.2 v hp.reader).1
    simp [hf, OpenPc.running] at hopen
  -- each side knows what the other has closed, and only that
  have hears : ((S.sess X.peer).cells v).stream.state.LocalClosed →
      ((S.sess X).cells w).stream.state.RemoteClosed := by
    intro h
    have hrc := hq.remoteClosed hO hT hp.symm hstv h (by rwa [Role.peer_peer])
    rwa [Role.peer_peer] at hrc
  have told : ((S.sess X.peer).cells v).stream.state.RemoteClosed →
      ((S.sess X).cells w).stream.state.LocalClosed :=
    fun h => localClosed_of_remoteClosed hO hI hp hlv h hstw
  have hgv : ¬ Gone ((S.sess X.peer).cells v) := by
    rintro ((h | h) | ⟨f, h⟩)
    · have hrc := hears (.inr h)
      have hlc := told (.inr h)
      refine hg (.inl (.inl ?_))
      rcases hrc with hrc | hrc
      · rcases hlc with hlc | hlc
        · rw [hrc] at hlc
          cases hlc
        · exact hlc
      · exact hrc
    · exact hstv h
    · exact hlv.2 f h
  refine ⟨hg, hgv, ⟨fun h => hq.remoteClosed hO hT hp hstw h hgv, told⟩, hears, fun h => ?_⟩
  refine localClosed_of_remoteClosed hO hI hp.symm ?_ ?_ hstv
  · rwa [Role.peer_peer]
  · rwa [Role.peer_peer]

theorem AtRest.mirrored (hO : Orderly S) (hp : Paired S X w v c) (h : AtRest S X w v) :
    mirrored ((S.sess X).cells w).stream.state ((S.sess X.peer).cells v).stream.state = true := by
  have hw := (hO.cell X w hp.writer).notIdle
  have hv := (hO.cell X.peer v hp.reader).notIdle
  obtain ⟨hgw, hgv, hcl, hhear⟩ := h
  simp only [Gone, StreamState.Terminal, not_or] at hgw hgv
  simp only [StreamState.LocalClosed, StreamState.RemoteClosed, hgw.1.1, hgv.1.1,
    or_false] at hcl hhear
  cases hsw : ((S.sess X).cells w).stream.state <;>
    cases hsv : ((S.sess X.peer).cells v).stream.state <;>
    simp_all [Analysis.mirrored]

/-- In every tidy run, whenever the two sessions are at rest they hold the same stream
identifiers, and the streams under each identifier are in mirrored states.
SOURCE: mux_session.go:111-172, 480-513, 641-714 -/
theorem quiescent_mirrored {config : Role → MuxConfig} (h : SystemReach config Tidy S)
    (hq : Quiescent S) : Mirrored S := by
  have hQ : SystemReach config ReissuesQuiet S := h.mono fun _ _ => And.left
  have hO := orderly_reach hQ
  have hT := told_reach h fun X => (hq.at X).1
  intro X i r hget
  obtain ⟨hr, hid⟩ := (hO.wellFormed X).table i r hget
  obtain ⟨hg, v, c, hp⟩ := hq.entry hO (system_endingInv hQ X) hget
  have hrest := hq.atRest hO hT (pairsSound_reach hQ) hp hg
  refine ⟨v, ?_, hrest.mirrored hO hp⟩
  rw [← hid, hO.same_id hr hp.reader hp.convWriter hp.convReader]
  exact (hO.mapped X.peer).mapped v hp.reader hrest.reader

theorem quiescent_mirrored_halfClose :
    ∃ S, SystemReach fourStreams Tidy S ∧ Quiescent S ∧
      (S.sess .agent).table.get 2 = some 0 ∧
      ((S.sess .agent).cells 0).stream.state = .halfClosedLocal ∧
      ∃ r', (S.sess .relay).table.get 2 = some r' ∧
        mirrored .halfClosedLocal ((S.sess .relay).cells r').stream.state = true := by
  have hex : ∃ S, SystemReach fourStreams Tidy S ∧ Quiescent S ∧
      (S.sess .agent).table.get 2 = some 0 ∧
      ((S.sess .agent).cells 0).stream.state = .halfClosedLocal :=
    exists_reach_of_exec transferRun _ (by decide +kernel)
  obtain ⟨S, hS, hq, hget, hst⟩ := hex
  obtain ⟨r', hget', hmir⟩ := quiescent_mirrored hS hq .agent 2 0 hget
  rw [hst] at hmir
  exact ⟨S, hS, hq, hget, hst, r', hget', hmir⟩

/-- The agent opens a stream and gives up waiting after the relay has accepted it. -/
def cancelRun : List (Role × Action) :=
  onSide .agent [.openStream [], .openAlloc [], .opening 0 .register, .opening 0 .enqueue] ++
  passRun .agent (frameTwo 0 .streamOpen {} []) ++
  onSide .relay [.reader, .reader, .reader, .reader, .acceptStream] ++
  onSide .agent [.opening 0 .cancel, .opening 0 .cleanup, .opening 0 .remove, .opening 0 .reset,
    .callback 0 .resetCheck, .callback 0 .resetLookup] ++
  passRun .relay (frameTwo 0 .streamOpen { ack := true } []) ++
  onSide .agent [.reader]

/-- A cancelled open leaves the relay with a stream that the agent has not, for good. -/
theorem quiescent_unmirrored :
    ∃ S, SystemReach fourStreams anyStep S ∧ Quiescent S ∧
      (S.sess .agent).table.get 2 = none ∧ (S.sess .relay).table.get 2 = some 0 ∧
      ((S.sess .relay).cells 0).stream.state = .opened :=
  exists_reach_of_exec cancelRun _ (by decide +kernel)

end Atlax.Analysis
