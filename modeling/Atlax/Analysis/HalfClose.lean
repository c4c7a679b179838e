import Atlax.Analysis.Copying

/-!
# The two ends of a copied connection

In a run in which nobody ends before the transfers are over, the agent reads exactly what the
client sends and then io.EOF, and the client gets exactly what the agent writes. Until the
connection is closed both directions of the stream are sound pipes; what the agent has read when
somebody ends is all there is, so that the reset that follows finds nothing to discard. Without
that patience it does.
-/

set_option autoImplicit false

namespace Atlax.Analysis

open Atlax.Model Atlax.Library

variable {rd : ReaderPc}

/-! ## All has been read -/

/-- All that was drained from stream `w` of `X` is `data`, and the counterpart `v` has read it:
nothing is under way and nothing is left in the buffer. -/
structure AllRead (S : System) (X : Role) (w v : Ref) (c : Conv) (data : Bytes) : Prop where
  got : ((S.sess X.peer).cells v).hist.got = data
  buffer : ((S.sess X.peer).cells v).stream.readBuf = []
  drained : ((S.sess X).cells w).hist.drained = data
  empty : content (pipe S X w v c).transit = []

section AllRead

variable {S S' : System} {X Z : Role} {w u : Ref} {c : Conv} {a : Action} {data : Bytes}

/-- Who has read all that can have been written has read all. -/
theorem AllRead.of_got (hO : Orderly S) (hI : PairInv S X w u c) (hp : Paired S X w u c)
    (hst : ((S.sess X.peer).cells u).stream.state ≠ .reset)
    (hgot : ((S.sess X.peer).cells u).hist.got = data)
    (hd : ((S.sess X).cells w).hist.drained <+: data) : AllRead S X w u c data := by
  have hread := (hO.cell X.peer u hp.reader).buffer hst
  have hsub : ((S.sess X.peer).cells u).hist.delivered ++ content (pipe S X w u c).transit <+:
      ((S.sess X).cells w).hist.drained := hI.sound.sub
  rw [← hread, hgot, List.append_assoc] at hsub
  have hlen := (hsub.trans hd).length_le
  simp only [List.length_append] at hlen
  have hbuf : ((S.sess X.peer).cells u).stream.readBuf = [] := List.length_eq_zero_iff.mp (by omega)
  have hnil : content (pipe S X w u c).transit = [] := List.length_eq_zero_iff.mp (by omega)
  refine ⟨hgot, hbuf, ?_, hnil⟩
  rw [hbuf, hnil, List.append_nil, List.append_nil] at hsub
  exact hd.eq_of_length (Nat.le_antisymm hd.length_le hsub.length_le)

theorem buffer_nil_reset {x : Cell} (hb : x.stream.readBuf = []) (code : ℕ) (byFrame : Bool) :
    (x.reset code byFrame).hist.got = x.hist.got ∧ (x.reset code byFrame).stream.readBuf = [] := by
  unfold Cell.reset StreamSession.reset
  by_cases hst : x.stream.state = .reset ∨ x.stream.state = .closed <;>
    cases byFrame <;> simp [hst, hb]

/-- A Read of an empty buffer returns no bytes, and the delivery of no bytes leaves it empty. -/
theorem cell_buffer_nil {r : Ref} {x x' : Cell} (hm : CellMove a rd r x x')
    (hb : x.stream.readBuf = [])
    (hd : ∀ p, a = .reader → rd = .deliver r p → p.frame.payload = []) :
    x'.hist.got = x.hist.got ∧ x'.stream.readBuf = [] := by
  cases hm with
  | call k x' _ _ hc =>
    cases hc with
    | readBytes _ hne => exact absurd hb hne
    | close =>
      unfold Cell.close StreamSession.close
      cases x.stream.state <;> cases x.stream.localCloseOnce <;> exact ⟨rfl, hb⟩
    | reset code => exact buffer_nil_reset hb code false
    | _ => exact ⟨rfl, hb⟩
  | drain d b x' p _ hc => cases hc <;> exact ⟨rfl, hb⟩
  | deliver p ha hrd =>
    refine ⟨rfl, ?_⟩
    simp [StreamSession.deliver, hb, hd p ha hrd]
  | remoteClose =>
    refine ⟨rfl, ?_⟩
    unfold StreamSession.remoteClose
    split <;> exact hb
  | resetLocal => exact buffer_nil_reset hb 0 false
  | resetFrame p => exact buffer_nil_reset hb _ true
  | openFailedReset => exact buffer_nil_reset (x := { x with openPc := .failed }) hb 0 false
  | _ => exact ⟨rfl, hb⟩

/-- Steps of the reader's side only take from what is under way. -/
theorem SysMove.flight_suffix (hm : SysMove S X.peer a S') : S'.flight X <:+ S.flight X := by
  cases hm.receiving with
  | keep h => exact h ▸ List.suffix_refl _
  | drop p _ _ _ h | insert p _ _ h | remoteClose r p _ _ h | deliver r p _ _ h =>
    rw [h]
    exact List.suffix_append _ _

/-- The data in the hand of the reader's read loop is under way. -/
theorem deliver_mem_transit (hO : Orderly S) (hp : Paired S X w u c) {p : Packet}
    (hrd : (S.sess X.peer).reader = .deliver u p) :
    .chunk p.frame.payload ∈ (pipe S X w u c).transit := by
  obtain ⟨_, _, _, hconv⟩ := hO.applied (.inl hrd)
  have hk : p.isData = true := by
    have hk := (hO.wellFormed X.peer).kind
    rwa [hrd] at hk
  have hpc : p.conv = some c := hconv.symm.trans hp.convReader
  have hfl : p ∈ S.flight X := by
    simp [System.flight, hrd, ReaderPc.unapplied, Packet.inOrder, hk]
  refine List.mem_append_left _ (List.mem_filterMap.mpr ⟨p, hfl, ?_⟩)
  simp [item, hpc, hk]

/-- Once all is read it stays so, as long as nothing more is drained. -/
theorem AllRead.move (hO : Orderly S) (hp : Paired S X w u c) (hm : SysMove S Z a S')
    (h : AllRead S X w u c data) (hd : ((S'.sess X).cells w).hist.drained <+: data) :
    AllRead S' X w u c data := by
  have hdr : ((S'.sess X).cells w).hist.drained = data := by
    refine hd.eq_of_length (Nat.le_antisymm hd.length_le ?_)
    rw [← h.drained]
    rcases hm.sess X with ⟨_, hmove⟩ | heq
    · exact (cell_drained (move_cell hmove hp.writer)).length_le
    · rw [heq]
  rcases Role.eq_or_eq_peer X Z with rfl | rfl
  · have hstep := (pipe_send (v := u) hO hm hp.writer hp.convWriter).1
    refine ⟨?_, ?_, hdr, hstep.content_nil (hdr.trans h.drained.symm) h.empty⟩
    · rw [hm.peer]
      exact h.got
    · rw [hm.peer]
      exact h.buffer
  · have hX : S'.sess X = S.sess X := by simpa using hm.peer
    obtain ⟨hgot, hbuf⟩ := cell_buffer_nil (move_cell hm.move hp.reader) h.buffer
      fun p _ hrd => chunk_eq_nil h.empty (deliver_mem_transit hO hp hrd)
    refine ⟨hgot.trans h.got, hbuf, hdr, ?_⟩
    obtain ⟨l, hl⟩ := hm.flight_suffix
    have hnil := h.empty
    simp only [pipe, ← hl, List.filterMap_append, content_append, List.append_eq_nil_iff] at hnil
    simp only [pipe, hX, content_append, List.append_eq_nil_iff]
    exact ⟨hnil.1.2, hnil.2⟩

end AllRead

variable {config : Role → MuxConfig} {v u : Ref} {w r : Bytes} {P P' : Proxy} {a : ProxyAction}
    {b : Action} {x : Ref}

/-- closedCh is closed when the stream ends. -/
theorem cell_closedCh {c c' : Cell}
    (hm : CellMove b rd x c c') (h : c.stream.closedCh = true → c.stream.state.Terminal)
    (h' : c'.stream.closedCh = true) : c'.stream.state.Terminal := by
  cases hm with
  | call k c' _ _ hc =>
    cases hc with
    | close =>
      unfold Cell.close StreamSession.close at h' ⊢
      cases hst : c.stream.state <;> simp_all [StreamState.Terminal]
    | reset code => exact terminal_reset c code false
    | _ => exact h h'
  | drain d _ c' p _ hc => cases hc <;> exact h h'
  | remoteClose =>
    unfold StreamSession.remoteClose at h' ⊢
    cases hst : c.stream.state <;> simp_all [StreamState.Terminal]
  | resetLocal => exact terminal_reset c 0 false
  | resetFrame p => exact terminal_reset c _ true
  | openFailedReset => exact terminal_reset { c with openPc := .failed } 0 false
  | _ => exact h h'

theorem closedCh_reach {ok : System → Role × Action → Prop} {S : System}
    (h : SystemReach config ok S) : ∀ X, ∀ x < (S.sess X).nextRef,
      ((S.sess X).cells x).stream.closedCh = true →
        ((S.sess X).cells x).stream.state.Terminal := by
  refine Reach.invariant (fun S => ∀ X, ∀ x < (S.sess X).nextRef,
    ((S.sess X).cells x).stream.closedCh = true →
      ((S.sess X).cells x).stream.state.Terminal) h ?_ ?_
  · intro X x hx
    cases hx
  · rintro S ⟨Z, b⟩ S' _ hI _ hstep X x hx hch
    rcases (system_move hstep).sess X with ⟨rfl, hmove⟩ | heq
    · rcases move_new hmove hx with hold | ⟨_, ⟨_, _, hc⟩ | ⟨p, _, _, hc⟩⟩
      · exact cell_closedCh (move_cell hmove hold) (hI X x hold) hch
      · rw [hc] at hch
        cases hch
      · rw [hc] at hch
        unfold Session.acceptedCell at hch
        dsimp only at hch
        split at hch <;> cases hch
    · rw [heq] at hx hch ⊢
      exact hI X x hx hch

/-! ## Nobody ends early -/

/-- The relay has drained nothing from the stream that the client does not send. -/
theorem drained_sub (h : ProxyReach v config w (Patient v w r) P)
    (hv : v < (P.sys.sess .relay).nextRef) :
    ((P.sys.sess .relay).cells v).hist.drained <+: w := by
  have hO := patient_orderly h
  have hdw := (hO.cell .relay v hv).drained_sub
  cases hs : P.started with
  | true => exact hdw.trans (flow_reach h hs).accounted.sub
  | false =>
    rw [((before_reach h hs).unused hv).1] at hdw
    exact hdw.trans List.nil_prefix

/-- Until the connection is closed neither stream is reset. -/
theorem not_reset_of_open (h : ProxyReach v config w (Patient v w r) P) (hs : P.started = true)
    (hopen : P.clientConn.closed = false) (hu : IsPeer P v u) :
    ((P.sys.sess .agent).cells u).stream.state ≠ .reset ∧
      ((P.sys.sess .relay).cells v).stream.state ≠ .reset := by
  have hQ := patient_quiet h
  have hO := orderly_reach hQ
  have hA := authentic_reach hQ
  have hp := (hu.paired hO).1
  have hau := (agent_reach h u hu).aborted
  have hav : ((P.sys.sess .relay).cells v).hist.aborted = false := by
    by_contra hab
    have hdone := (resetLast_reach h hs).aborted (by simpa using hab)
    rw [(staged_reach h).closed.mpr (by simp [hdone])] at hopen
    cases hopen
  exact ⟨hA.not_reset hO hp hav hau, hA.not_reset hO hp.symm hau hav⟩

/-- The stream that OpenStream has returned has a counterpart. -/
theorem exists_peer (h : ProxyReach v config w (Patient v w r) P) (hs : P.started = true) :
    ∃ u, IsPeer P v u := by
  have hO := patient_orderly h
  have hH := (flow_reach h hs).held
  obtain ⟨u, hu, hcu⟩ := hO.counterpart hH.lt (.inr hH.returned)
  have hcv := (hO.wellFormed .relay).conv v hH.lt (by simp [hH.returned])
  rw [hO.role] at hcv
  exact ⟨u, hu, hcu.trans hcv⟩

/-- The relay's stream ends by a reset only, at the end of the copying. -/
theorem closed_of_terminal (h : ProxyReach v config w (Patient v w r) P) (hs : P.started = true)
    (hterm : ((P.sys.sess .relay).cells v).stream.state.Terminal) :
    ((P.sys.sess .relay).cells v).stream.state = .reset ∧ P.clientConn.closed = true := by
  have hO := patient_orderly h
  have hF := flow_reach h hs
  have hst : ((P.sys.sess .relay).cells v).stream.state = .reset := by
    rcases hterm with hcl | hst
    · exact absurd hF.accounted.closedAt ((hO.cell .relay v hF.held.lt).localClosed (.inr hcl))
    · exact hst
  refine ⟨hst, ?_⟩
  by_contra hopen
  obtain ⟨u, hu⟩ := exists_peer h hs
  exact (not_reset_of_open h hs (by simpa using hopen) hu).2 hst

/-- From the client to the agent, as long as the agent's stream is not reset. -/
theorem pair_in (h : ProxyReach v config w (Patient v w r) P) (hu : IsPeer P v u)
    (hst : ((P.sys.sess .agent).cells u).stream.state ≠ .reset) :
    PairInv P.sys .relay v u ⟨.relay, v⟩ := by
  have hQ := patient_quiet h
  obtain ⟨hp, hacc⟩ := hu.paired (orderly_reach hQ)
  exact pairsSound_reach hQ .relay v u _ hp ⟨hst, by simp [Role.peer, hacc]⟩

/-- From the agent to the client, as long as the relay's stream is not reset. -/
theorem pair_out (h : ProxyReach v config w (Patient v w r) P) (hs : P.started = true)
    (hu : IsPeer P v u) (hst : ((P.sys.sess .relay).cells v).stream.state ≠ .reset) :
    PairInv P.sys .agent u v ⟨.relay, v⟩ := by
  have hQ := patient_quiet h
  have hp := (hu.paired (orderly_reach hQ)).1
  have hpc := (flow_reach h hs).held.returned
  exact pairsSound_reach hQ .agent u v _ hp.symm ⟨hst, by simp [Role.peer, hpc]⟩

/-- Once the agent has read all of the client's bytes, nothing of them is left. -/
theorem allRead_of_got (h : ProxyReach v config w (Patient v w r) P) {u : Ref} (hu : IsPeer P v u)
    (hst : ((P.sys.sess .agent).cells u).stream.state ≠ .reset)
    (hgot : ((P.sys.sess .agent).cells u).hist.got = w) :
    AllRead P.sys .relay v u ⟨.relay, v⟩ w := by
  have hO := patient_orderly h
  have hp := (hu.paired hO).1
  exact .of_got hO (pair_in h hu hst) hp hst hgot (drained_sub h hp.writer)

/-- The connection is open until the context is cancelled. -/
theorem open_of_not_cancelled (h : ProxyReach v config w (Patient v w r) P)
    (hc : P.cancelled = false) : P.clientConn.closed = false := by
  by_contra hcl
  have hw := (staged_reach h).closed.mp (by simpa using hcl)
  rw [(staged_reach h).watch hw] at hc
  cases hc

/-- One of the ends of a copied connection is over. -/
def Over (P : Proxy) : Prop :=
  P.clientConn.ended = true ∨ overOut P.copyOut = true ∨ overIn P.copyIn = true ∨ P.cancelled = true

/-- Both transfers are complete, and one of the two sides has ended. -/
structure Transferred (v : Ref) (w r : Bytes) (P : Proxy) : Prop where
  received : P.clientConn.received = r
  read : ∃ u, IsPeer P v u ∧ AllRead P.sys .relay v u ⟨.relay, v⟩ w
  cause : P.clientConn.ended = true ∨
    ∃ u, IsPeer P v u ∧ ((P.sys.sess .agent).cells u).hist.closedAt ≠ none

/-- The agent closes when it has read all, and when anything at all is over so are both
transfers. -/
structure Complete (v : Ref) (w r : Bytes) (P : Proxy) : Prop where
  closed : ∀ u, IsPeer P v u → ((P.sys.sess .agent).cells u).hist.closedAt ≠ none →
    AllRead P.sys .relay v u ⟨.relay, v⟩ w
  transfers : Over P → Transferred v w r P

/-- What the agent has read stays read. -/
theorem allRead_move (hP : ProxyReach v config w (Patient v w r) P)
    (hP' : ProxyReach v config w (Patient v w r) P') (hm : CopyMove v P a P')
    (hu : IsPeer P v u) (h : AllRead P.sys .relay v u ⟨.relay, v⟩ w) :
    IsPeer P' v u ∧ AllRead P'.sys .relay v u ⟨.relay, v⟩ w := by
  rcases hm.system with heq | ⟨X, b, hb, _⟩
  · rw [IsPeer, heq]
    exact ⟨hu, h⟩
  · have hO := patient_orderly hP
    have hmove := system_move hb
    have hp := (hu.paired hO).1
    have hp' := hp.move hmove
    exact ⟨⟨hp'.reader, hp'.convReader⟩, h.move hO hp hmove (drained_sub hP' hp'.writer)⟩

/-- A half that is closed stays closed. -/
theorem cell_stays_closed {c c' : Cell}
    (hm : CellMove b rd x c c') (h : c.hist.closedAt ≠ none) : c'.hist.closedAt ≠ none := by
  cases hm with
  | call k c' _ _ hc =>
    cases hc with
    | close =>
      simp only [Cell.close]
      split
      · simp
      · exact h
    | _ => exact h
  | drain d _ c' p _ hc => cases hc <;> exact h
  | _ => exact h

theorem peer_stays_closed (hP : ProxyReach v config w (Patient v w r) P) (hm : CopyMove v P a P')
    (hu : IsPeer P v u) (h : ((P.sys.sess .agent).cells u).hist.closedAt ≠ none) :
    IsPeer P' v u ∧ ((P'.sys.sess .agent).cells u).hist.closedAt ≠ none := by
  rcases hm.system with heq | ⟨X, b, hb, -⟩
  · rw [IsPeer, heq]
    exact ⟨hu, h⟩
  · have hmove := system_move hb
    have hp' := (hu.paired (patient_orderly hP)).1.move hmove
    refine ⟨⟨hp'.reader, hp'.convReader⟩, ?_⟩
    rcases hmove.sess .agent with ⟨_, hmv⟩ | heq
    · exact cell_stays_closed (move_cell hmv hu.1) h
    · rw [heq]
      exact h

/-- Complete transfers stay complete. -/
theorem Transferred.move (hP : ProxyReach v config w (Patient v w r) P)
    (hP' : ProxyReach v config w (Patient v w r) P') (hm : CopyMove v P a P')
    (h : Transferred v w r P) (hrec : P'.clientConn.received = P.clientConn.received)
    (hend : P.clientConn.ended = true → P'.clientConn.ended = true) : Transferred v w r P' := by
  obtain ⟨hr, ⟨u, hu, hall⟩, hcause⟩ := h
  refine ⟨hrec.trans hr, ⟨u, allRead_move hP hP' hm hu hall⟩, hcause.imp hend ?_⟩
  rintro ⟨u, hu, hcl⟩
  exact ⟨u, peer_stays_closed hP hm hu hcl⟩

/-- The Close that ends the agent's half is a call. -/
theorem cell_closes_call {c c' : Cell}
    (hm : CellMove b rd x c c') (h : c.hist.closedAt = none) (h' : c'.hist.closedAt ≠ none) :
    b = .call x .close ∧ c'.hist.got = c.hist.got ∧ c'.stream.state ≠ .reset := by
  cases hm with
  | call k c' hb _ hc =>
    cases hc with
    | close =>
      refine ⟨hb, ?_⟩
      unfold Cell.close StreamSession.close at h' ⊢
      cases hst : c.stream.state <;> cases hl : c.stream.localCloseOnce <;> simp_all
    | _ => exact absurd h h'
  | drain d _ c' p _ hc => cases hc <;> exact absurd h h'
  | _ => exact absurd h h'

/-- The agent's stream is closed only when all was read. -/
theorem closed_move (hP : ProxyReach v config w (Patient v w r) P)
    (hP' : ProxyReach v config w (Patient v w r) P') (hok : Patient v w r P a)
    (hm : CopyMove v P a P') (hI : Complete v w r P) (hu' : IsPeer P' v u)
    (hcl : ((P'.sys.sess .agent).cells u).hist.closedAt ≠ none) :
    AllRead P'.sys .relay v u ⟨.relay, v⟩ w := by
  -- a stream that was closed before
  have keep : IsPeer P v u → ((P.sys.sess .agent).cells u).hist.closedAt ≠ none →
      AllRead P'.sys .relay v u ⟨.relay, v⟩ w :=
    fun hu h => (allRead_move hP hP' hm hu (hI.closed u hu h)).2
  rcases hm.system with heq | ⟨X, b, hb, hkind⟩
  · rw [IsPeer, heq] at hu'
    rw [heq] at hcl
    exact keep hu' hcl
  · have hmove := system_move hb
    rcases hmove.sess .agent with ⟨rfl, hmv⟩ | heq
    · obtain ⟨rfl, _⟩ := hkind.resolve_right (by simp)
      by_cases hold : u < (P.sys.sess .agent).nextRef
      · have hu : IsPeer P v u := ⟨hold, (hmove.evolves hold).conv.symm.trans hu'.2⟩
        by_cases hopen : ((P.sys.sess .agent).cells u).hist.closedAt = none
        · obtain ⟨rfl, hgot, hst⟩ := cell_closes_call (move_cell hmv hold) hopen hcl
          exact allRead_of_got hP' hu' hst (hgot.trans (hok.closes hu))
        · exact keep hu hopen
      · have hO' := patient_orderly hP'
        have hun := (hO'.cell .agent u hu'.1).unheld (move_new_cell hmv hu'.1 hold).1
        exact absurd hun.closedAt hcl
    · rw [IsPeer, heq] at hu'
      rw [heq] at hcl
      exact keep hu' hcl

/-- The copy to the client has got to the end of the stream: the agent has closed, and the client
has all that the agent wrote. -/
theorem received_at_eof (h : ProxyReach v config w (Patient v w r) P) (hs : P.started = true)
    (hI : Complete v w r P) (hc : P.cancelled = false) (hpc : P.copyOut = .read)
    (heof : ((P.stream v).read copyBufSize).1 = .eof) :
    Transferred v w r P := by
  have hO := patient_orderly h
  have hF := flow_reach h hs
  obtain ⟨u, hpeer⟩ := exists_peer h hs
  have hopen := open_of_not_cancelled h hc
  have hst := (not_reset_of_open h hs hopen hpeer).2
  have hCu := hO.cell .agent u hpeer.1
  obtain ⟨hgot, b, hb, hpre⟩ :=
    (pair_out h hs hpeer hst).eof (hO.cell .relay v hF.held.lt) hst heof
  obtain ⟨rfl, _, hwrote⟩ := (agent_reach h u hpeer).closedAt b hb
  have hcl : ((P.sys.sess .agent).cells u).hist.closedAt ≠ none := by simp [hb]
  refine ⟨?_, ⟨u, hpeer, hI.closed u hpeer hcl⟩, .inr ⟨u, hpeer, hcl⟩⟩
  have hrec := hF.accounted.got hopen
  rw [hpc, carriedOut, List.append_nil] at hrec
  have hdw := hCu.drained_sub
  rw [hwrote] at hdw
  rw [hrec, hpre.eq_of_length (Nat.le_antisymm hpre.length_le hdw.length_le)]
  exact hgot

/-- The client gets nothing that the agent does not write. -/
theorem received_sub (h : ProxyReach v config w (Patient v w r) P) (hs : P.started = true)
    (hopen : P.clientConn.closed = false) (hu : IsPeer P v u) :
    P.clientConn.received ++ carriedOut P.copyOut <+: r := by
  have hO := patient_orderly h
  have hF := flow_reach h hs
  have hst := (not_reset_of_open h hs hopen hu).2
  rw [hF.accounted.got hopen]
  have hgot := (pair_out h hs hu hst).got_sub (hO.cell .relay v hF.held.lt) hst
  have hwrote := (List.prefix_append _ _).trans (agent_reach h u hu).wrote
  exact (hgot.trans (hO.cell .agent u hu.1).drained_sub).trans hwrote

/-- A Write on the stream is refused only after the stream was reset. -/
theorem over_of_refused (h : ProxyReach v config w (Patient v w r) P) (hs : P.started = true)
    (hterm : ((P.sys.sess .relay).cells v).stream.isWriteClosed = true ∨
      ((P.sys.sess .relay).cells v).stream.closedCh = true) : Over P := by
  have hS := (patient_system h).1
  have hF := flow_reach h hs
  have hst : ((P.sys.sess .relay).cells v).stream.state.Terminal := by
    rcases hterm with hcl | hch
    · have hO := patient_orderly h
      have hopen := mt (hO.cell .relay v hF.held.lt).localClosed (not_not.mpr hF.accounted.closedAt)
      simp only [StreamSession.isWriteClosed, Bool.or_eq_true, beq_iff_eq] at hcl
      exact .inr (hcl.resolve_left hopen)
    · exact closedCh_reach hS .relay v hF.held.lt hch
  have hw := (staged_reach h).closed.mp (closed_of_terminal h hs hst).2
  exact .inr (.inr (.inr ((staged_reach h).watch hw)))

/-- What a step brings to its end is complete. -/
theorem over_move (hP : ProxyReach v config w (Patient v w r) P)
    (hP' : ProxyReach v config w (Patient v w r) P') (hok : Patient v w r P a)
    (hm : CopyMove v P a P') (hI : Complete v w r P) (ho : Over P') : Transferred v w r P' := by
  have keep := fun h : Transferred v w r P => h.move hP hP' hm
  cases hm with
  | sys | start | clientSend | closeConn | resetStream => exact keep (hI.transfers ho) rfl id
  | clientEnd =>
    obtain ⟨hs, hrec, u, _, hu, hgot⟩ := hok.ends
    refine ⟨hrec, ?_, .inl rfl⟩
    cases hc : P.cancelled with
    | true => exact (hI.transfers (.inr (.inr (.inr hc)))).read
    | false =>
      have hst := (not_reset_of_open hP hs (open_of_not_cancelled hP hc) hu).1
      exact ⟨u, hu, allRead_of_got hP hu hst hgot⟩
  | readOut _ hpc => exact keep (hI.transfers (by simpa [Over, overOut, hpc] using ho)) rfl id
  | eofOut hs hpc S hb heof =>
    refine keep ?_ rfl id
    cases hc : P.cancelled with
    | true => exact hI.transfers (.inr (.inr (.inr hc)))
    | false => exact received_at_eof hP hs hI hc hpc heof
  | writeOut hs data hpc hcl =>
    have hover : Over P := by simpa [Over, overOut, hpc] using ho
    obtain ⟨hrec, ⟨u, hu, hall⟩, hcause⟩ := hI.transfers hover
    -- all that the agent writes was there already
    have hsub := received_sub hP hs hcl hu
    rw [hpc, carriedOut, hrec] at hsub
    have hnil : data = [] := by
      have hlen := hsub.length_le
      rw [List.length_append] at hlen
      exact List.length_eq_zero_iff.mp (by omega)
    refine ⟨?_, ⟨u, hu, hall⟩, hcause⟩
    simpa [hnil] using hrec
  | failOut _ _ _ hcl | closedIn _ _ _ hcl =>
    have hw := (staged_reach hP).closed.mp hcl
    exact keep (hI.transfers (.inr (.inr (.inr ((staged_reach hP).watch hw))))) rfl id
  | endOut _ err hpc | reportOut _ err hpc =>
    exact keep (hI.transfers (.inr (.inl (by simp [hpc, overOut])))) rfl id
  | eofIn _ _ _ hend => exact keep (hI.transfers (.inl hend)) rfl id
  | readIn _ _ hpc | writeIn _ _ _ hpc | sendIn _ _ _ hpc =>
    exact keep (hI.transfers (by simpa [Over, overIn, hpc] using ho)) rfl id
  | refusedIn hs _ _ _ hcl => exact keep (hI.transfers (over_of_refused hP hs (.inl hcl))) rfl id
  | failIn hs _ _ S hb =>
    refine keep (hI.transfers (over_of_refused hP hs (.inr ?_))) rfl id
    have hcell := system_call hb
    generalize (S.sess .relay).cells v = c' at hcell
    cases hcell with
    | writeFail _ _ hcl => exact hcl
  | endIn _ _ err hpc | reportIn _ _ err hpc =>
    exact keep (hI.transfers (.inr (.inr (.inl (by simp [hpc, overIn]))))) rfl id

/-- `Complete` holds in every run. -/
theorem complete_reach (h : ProxyReach v config w (Patient v w r) P) : Complete v w r P := by
  refine Reach.invariant (Complete v w r) h ?_ ?_
  · refine ⟨fun u hu => ?_, fun ho => ?_⟩
    · cases hu.1
    · simp [Over, newProxy, overOut, overIn] at ho
  · intro P a P' hP hI hok hstep
    have hP' : ProxyReach v config w (Patient v w r) P' := .tail hP hok hstep
    have hm := copy_move hstep
    exact ⟨fun u hu hcl => closed_move hP hP' hok hm hI hu hcl, over_move hP hP' hok hm hI⟩

/-! ## At rest -/

/-- The sessions are at rest, and no goroutine of the copying can move. -/
structure Stalled (v : Ref) (P : Proxy) : Prop where
  quiescent : Quiescent P.sys
  out : P.step v .copyOut = none
  into : ∀ n, P.step v (.copyIn n) = none
  watch : P.step v .watch = none

theorem call_ne_none (h : Held P.sys v) {k : Call}
    (hc : ((P.sys.sess .relay).cells v).call k ≠ none) : P.call v k ≠ none := by
  obtain ⟨c, hc⟩ := Option.ne_none_iff_exists'.mp hc
  simp [Proxy.call, System.step, Session.step, System.wireStep, h.lt, h.handle, hc]

/-- A goroutine that can make its call is not stuck. -/
theorem act_map_ne_none (h : Held P.sys v) {k : Call} {f : Proxy → Proxy}
    (hc : ((P.sys.sess .relay).cells v).call k ≠ none) :
    (P.act v (some k) P.clientConn.toTcpConn).map f ≠ none := fun hnone =>
  call_ne_none h hc (Option.map_eq_none_iff.mp hnone)

/-- A cancelled context has the connection closed and the stream reset. -/
theorem Stalled.done (h : Stalled v P) (hs : P.started = true) (hH : Held P.sys v)
    (hc : P.cancelled = true) : P.watch = .done := by
  have hstuck := h.watch
  simp only [Proxy.step, hs, if_true, Proxy.stepWatch] at hstuck
  cases hpc : P.watch with
  | done => rfl
  | wait => simp [RelayEnd.next, hpc, hc, Proxy.act] at hstuck
  | reset =>
    simp only [RelayEnd.next, hpc, Option.bind_eq_bind, Option.bind_some] at hstuck
    exact absurd hstuck (act_map_ne_none hH (by simp [Cell.call]))

/-- The copy to the stream is at its end, or waits for a client that has not ended and of whose
bytes none is left to read. -/
theorem Stalled.inCases (h : Stalled v P) (hs : P.started = true) (hF : Flow v w P) :
    P.copyIn = .returned ∨
      P.copyIn = .read ∧ P.clientConn.inbound = [] ∧ P.clientConn.ended = false := by
  have hstuck := h.into 1
  simp only [Proxy.step, hs, if_true, Proxy.stepIn] at hstuck
  cases hpc : P.copyIn with
  | returned => exact .inl rfl
  | ended err | report err => simp [hpc, RelayEnd.endIn] at hstuck
  | read =>
    simp only [hpc, InPc.next, Option.bind_eq_bind] at hstuck
    by_cases hcl : P.clientConn.closed = true
    · simp [hcl, Proxy.act] at hstuck
    · by_cases hb : P.clientConn.inbound = []
      · exact .inr ⟨rfl, hb, by simpa [hcl, hb, Proxy.act] using hstuck⟩
      · simp [hcl, hb, copyBufSize, Proxy.act] at hstuck
  | write data =>
    simp only [hpc, InPc.next, Option.bind_eq_bind] at hstuck
    by_cases hw : (P.stream v).isWriteClosed = true
    · simp [hw, Proxy.act] at hstuck
    · simp only [hw, Bool.false_eq_true, if_false, Option.bind_some] at hstuck
      exact absurd hstuck (act_map_ne_none hF.held (by simp only [Cell.call]; split <;> simp))
  | send data =>
    simp only [hpc, InPc.next, Option.bind_eq_bind, Option.bind_some] at hstuck
    have hmem : data ∈ ((P.sys.sess .relay).cells v).writers := by
      simp [hF.accounted.writers, hpc, sendingIn]
    have hidle := ((h.quiescent.at .relay).2.2.2 v hF.held.lt).2.2.2.1
    exact absurd hstuck (act_map_ne_none hF.held (by simp [Cell.call, hmem, hidle, writeOutCap]))

/-- The copy to the client is at its end, or waits for a stream of which nothing is left to read
and that neither side has ended. -/
theorem Stalled.outCases (h : Stalled v P) (hs : P.started = true) (hF : Flow v w P) :
    P.copyOut = .returned ∨
      P.copyOut = .read ∧ ((P.sys.sess .relay).cells v).stream.readBuf = [] ∧
        ((P.sys.sess .relay).cells v).stream.isReadClosed = false := by
  have hstuck := h.out
  simp only [Proxy.step, hs, if_true, Proxy.stepOut] at hstuck
  cases hpc : P.copyOut with
  | returned => exact .inl rfl
  | ended err | report err => simp [hpc, RelayEnd.endOut] at hstuck
  | write data =>
    simp only [hpc, OutPc.next, Option.bind_eq_bind] at hstuck
    by_cases hcl : P.clientConn.closed = true <;> simp [hcl, Proxy.act] at hstuck
  | read =>
    simp only [hpc, OutPc.next, Option.bind_eq_bind, Option.bind_some] at hstuck
    by_cases hb : ((P.sys.sess .relay).cells v).stream.readBuf = []
    · refine .inr ⟨rfl, hb, ?_⟩
      by_contra hcl
      rw [Bool.not_eq_false] at hcl
      exact absurd hstuck
        (act_map_ne_none hF.held (by simp [Cell.call, StreamSession.read, hb, hcl]))
    · exact absurd hstuck (act_map_ne_none hF.held (by simp [Cell.call, StreamSession.read, hb]))

/-- At rest, an end of either side has been passed on. -/
theorem Stalled.cancelled (h : Stalled v P) (hP : ProxyReach v config w (Patient v w r) P)
    (hs : P.started = true) (hu : IsPeer P v u)
    (hend : P.clientConn.ended = true ∨ ((P.sys.sess .agent).cells u).hist.closedAt ≠ none) :
    P.cancelled = true := by
  have hF := flow_reach hP hs
  rcases hend with hend | hcl
  · rcases h.inCases hs hF with hret | ⟨_, _, hopen⟩
    · exact (staged_reach hP).into (by rw [hret]; rfl)
    · exact absurd (hend.symm.trans hopen) (by simp)
  · rcases h.outCases hs hF with hret | ⟨_, _, hread⟩
    · exact (staged_reach hP).out (by rw [hret]; rfl)
    · by_contra hc
      have hS := (patient_system hP).1
      have hO := patient_orderly hP
      have hT := told_reach hS fun X => (h.quiescent.at X).1
      have hp := (hu.paired hO).1
      have hopen := open_of_not_cancelled hP (by simpa using hc)
      obtain ⟨hstu, hstv⟩ := not_reset_of_open hP hs hopen hu
      -- STREAM_CLOSE has reached the relay, so that its Reads would end
      have hlocal := ((hO.cell .agent u hu.1).closedAt hcl).resolve_right hstu
      have hgone : ¬ Gone ((P.sys.sess .relay).cells v) := by
        rintro (hterm | ⟨f, hf⟩)
        · exact hstv (closed_of_terminal hP hs hterm).1
        · rw [hF.held.returned] at hf
          cases hf
      have hremote := h.quiescent.remoteClosed hO hT hp.symm hstu hlocal hgone
      rcases hremote with hst | hst <;>
        simp [StreamSession.isReadClosed,
          show ((P.sys.sess .relay).cells v).stream.state = _ from hst] at hread

/-- A Read of a stream that was reset, with nothing left in its buffer. -/
theorem eof_of_reset {s : StreamSession} (hst : s.state = .reset) (hb : s.readBuf = []) (n : ℕ) :
    (s.read n).1 = .eof := by
  simp [StreamSession.read, StreamSession.isReadClosed, hst, hb]

/-- The agent's stream ends by a reset only. -/
theorem reset_of_remoteClosed (h : ProxyReach v config w (Patient v w r) P)
    (hs : P.started = true) (hu : IsPeer P v u)
    (hrc : ((P.sys.sess .agent).cells u).stream.state ≠ .reset →
      ((P.sys.sess .agent).cells u).stream.state.RemoteClosed) :
    ((P.sys.sess .agent).cells u).stream.state = .reset := by
  by_contra hst
  obtain ⟨b, hb, _⟩ := (pair_in h hu hst).marked (.inr (decide_eq_true (hrc hst)))
  have hnone := (flow_reach h hs).accounted.closedAt
  rw [hb] at hnone
  cases hnone

/-- A closed connection has both transfers complete. -/
theorem complete_of_closed (h : ProxyReach v config w (Patient v w r) P)
    (hu : IsPeer P v u) (hcl : P.clientConn.closed = true) :
    P.clientConn.received = r ∧ AllRead P.sys .relay v u ⟨.relay, v⟩ w := by
  have hw := (staged_reach h).closed.mp hcl
  obtain ⟨hrec, ⟨u', hu', hall⟩, _⟩ :=
    (complete_reach h).transfers (.inr (.inr (.inr ((staged_reach h).watch hw))))
  have hO := patient_orderly h
  rw [hO.unique .agent u u' _ hu.1 hu'.1 hu.2 hu'.2]
  exact ⟨hrec, hall⟩

/-- After the cancellation both sides come to their end. -/
theorem Stalled.eof (h : Stalled v P) (hP : ProxyReach v config w (Patient v w r) P)
    (hs : P.started = true) (hu : IsPeer P v u) (hc : P.cancelled = true) :
    P.clientConn.closed = true ∧
      ∀ n, (((P.sys.sess .agent).cells u).stream.read n).1 = .eof := by
  have hS := (patient_system hP).1
  have hO := patient_orderly hP
  have hT := told_reach hS fun X => (h.quiescent.at X).1
  obtain ⟨hp, hacc⟩ := hu.paired hO
  have hdone := h.done hs (flow_reach hP hs).held hc
  obtain ⟨hreset, hclosed⟩ := closed_of_terminal hP hs ((resetLast_reach hP hs).done hdone)
  refine ⟨hclosed, eof_of_reset ?_ (complete_of_closed hP hu hclosed).2.buffer⟩
  -- the STREAM_RESET has reached the agent
  have hgone : Gone ((P.sys.sess .agent).cells u) := by
    by_contra hg
    exact h.quiescent.not_reset hO hT hp hg hreset
  refine reset_of_remoteClosed hP hs hu fun hst => ?_
  rcases hgone with (hcl | hst') | ⟨f, hf⟩
  · exact .inr hcl
  · exact absurd hst' hst
  · rw [hacc] at hf
    cases hf

/-- At rest all that was written on a stream that is not reset has been delivered. -/
theorem Quiescent.delivered {S : System} {X : Role} {x u : Ref} {c : Conv}
    (hS : SystemReach config ReissuesQuiet S) (hq : Quiescent S) (hp : Paired S X x u c)
    (hI : PairInv S X x u c) :
    ((S.sess X.peer).cells u).hist.delivered = ((S.sess X).cells x).hist.wrote := by
  obtain ⟨hopen, _, hfl, hcell⟩ := hq.at X
  obtain ⟨_, _, _, hout, hhand, _⟩ := hcell x hp.writer
  have hmute : (S.sess X).mute = false := by
    cases hm : (S.sess X).mute with
    | false => rfl
    | true => rw [← hopen, (system_endingInv hS X).mute hm]
  have hall := hI.sound.whole (.inl hmute)
  have hflow := ((orderly_reach hS).cell X x hp.writer).flow
  simp only [pipe, hfl, hhand, hmute, List.filterMap_nil, List.map_nil, Bool.false_eq_true,
    if_false, content, List.append_nil] at hall
  rw [hout, List.flatten_nil, List.append_nil] at hflow
  exact hall.trans hflow

/-- At rest with neither side ended, all that the client has sent has been delivered to the agent,
and the client has all that the agent has written. -/
theorem Stalled.delivered (h : Stalled v P) (hP : ProxyReach v config w (Patient v w r) P)
    (hs : P.started = true) (hu : IsPeer P v u) (hend : P.clientConn.ended = false)
    (hcl : ((P.sys.sess .agent).cells u).hist.closedAt = none) :
    ((P.sys.sess .agent).cells u).hist.got ++ ((P.sys.sess .agent).cells u).stream.readBuf ++
        P.clientConn.unsent = w ∧
      P.clientConn.received = ((P.sys.sess .agent).cells u).hist.wrote := by
  have hQ := patient_quiet hP
  have hO := orderly_reach hQ
  have hF := flow_reach hP hs
  have hp := (hu.paired hO).1
  -- nothing is over, so that both copies wait to read
  have hover : ¬ Over P := by
    intro ho
    rcases ((complete_reach hP).transfers ho).cause with hc | ⟨u', hu', hc⟩
    · exact absurd (hc.symm.trans hend) (by simp)
    · rw [hO.unique .agent u' u _ hu'.1 hu.1 hu'.2 hu.2] at hc
      exact hc hcl
  simp only [Over, not_or, Bool.not_eq_true] at hover
  obtain ⟨_, hout, hinto, hcancel⟩ := hover
  obtain ⟨hin, hempty, _⟩ :=
    (h.inCases hs hF).resolve_left fun heq => by simp [heq, overIn] at hinto
  obtain ⟨hread, hbuf, _⟩ :=
    (h.outCases hs hF).resolve_left fun heq => by simp [heq, overOut] at hout
  have hconn := open_of_not_cancelled hP hcancel
  obtain ⟨hstu, hstv⟩ := not_reset_of_open hP hs hconn hu
  have hsent := hF.accounted.sent hinto
  have hgot := hF.accounted.got hconn
  rw [hin, hempty, carriedIn, List.append_nil, List.append_nil] at hsent
  rw [hread, carriedOut, List.append_nil] at hgot
  constructor
  · rw [(hO.cell .agent u hu.1).buffer hstu]
    have hdel : ((P.sys.sess .agent).cells u).hist.delivered = _ :=
      h.quiescent.delivered hQ hp (pair_in hP hu hstu)
    rw [hdel, hsent]
  · have hrel := (hO.cell .relay v hF.held.lt).buffer hstv
    have hdel : ((P.sys.sess .relay).cells v).hist.delivered =
        ((P.sys.sess .agent).cells u).hist.wrote :=
      h.quiescent.delivered hQ hp.symm (pair_out hP hs hu hstv)
    rw [hbuf, List.append_nil] at hrel
    rw [hgot, hrel, hdel]

/-- In every run in which nobody ends before the transfers are over: the agent's Reads return a
beginning of what the client sends and io.EOF only after all of it, the client gets a beginning of
what the agent writes and its connection is closed only after all of it. When nothing is left to do
and neither side has ended, all that the client has sent was read by the agent or waits in its read
buffer, and the client has got all that the agent has written; once either side has ended and
nothing is left to do, both have come to their end.
SOURCE: router_impl.go:219-262; stream_impl.go:83-124, 223-243; mux_session.go:326-382 -/
theorem copies_both_ways (h : ProxyReach v config w (Patient v w r) P) (hs : P.started = true)
    {u : Ref} (hu : IsPeer P v u) :
    (((P.sys.sess .agent).cells u).hist.got <+: w ∧
      ∀ n, (((P.sys.sess .agent).cells u).stream.read n).1 = .eof →
        ((P.sys.sess .agent).cells u).hist.got = w) ∧
    (P.clientConn.received <+: r ∧ (P.clientConn.closed = true → P.clientConn.received = r)) ∧
    (Stalled v P → P.clientConn.ended = false →
      ((P.sys.sess .agent).cells u).hist.closedAt = none →
      ((P.sys.sess .agent).cells u).hist.got ++ ((P.sys.sess .agent).cells u).stream.readBuf ++
          P.clientConn.unsent = w ∧
        P.clientConn.received = ((P.sys.sess .agent).cells u).hist.wrote) ∧
    (Stalled v P →
      P.clientConn.ended = true ∨ ((P.sys.sess .agent).cells u).hist.closedAt ≠ none →
      P.clientConn.closed = true ∧
        ∀ n, (((P.sys.sess .agent).cells u).stream.read n).1 = .eof) := by
  have hO := patient_orderly h
  -- the agent's stream is reset at the very end
  have got_of_reset : ((P.sys.sess .agent).cells u).stream.state = .reset →
      ((P.sys.sess .agent).cells u).hist.got = w := by
    intro hst
    cases hcl : P.clientConn.closed with
    | true => exact (complete_of_closed h hu hcl).2.got
    | false => exact absurd hst (not_reset_of_open h hs hcl hu).1
  refine ⟨⟨?_, fun n heof => ?_⟩, ⟨?_, fun hcl => (complete_of_closed h hu hcl).1⟩,
    fun hst => hst.delivered h hs hu, ?_⟩
  · by_cases hst : ((P.sys.sess .agent).cells u).stream.state = .reset
    · exact got_of_reset hst ▸ List.prefix_refl _
    · have hgot := (pair_in h hu hst).got_sub (hO.cell .agent u hu.1) hst
      exact hgot.trans (drained_sub h (hu.paired hO).1.writer)
  · exact got_of_reset (reset_of_remoteClosed h hs hu (read_eof heof).2)
  · cases hcl : P.clientConn.closed with
    | true => exact (complete_of_closed h hu hcl).1 ▸ List.prefix_refl _
    | false => exact (List.prefix_append _ _).trans (received_sub h hs hcl hu)
  · intro hst hend
    exact hst.eof h hs hu (hst.cancelled h hs hu hend)

/-- A frame for the relay's first stream. -/
def frameOne (command : Command) (flags : Flags) (payload : Bytes) : Packet :=
  ⟨{ command := command, flags := flags, streamID := 1, payload := payload }, some ⟨.relay, 0⟩⟩

def sysRun (l : List (Role × Action)) : List ProxyAction := l.map fun p => .sys p.1 p.2

/-- The relay opens a stream for the client, the agent accepts it and the copying starts. -/
def copyStartRun : List ProxyAction :=
  sysRun (onSide .relay
      [.openStream [], .openAlloc [], .opening 0 .register, .opening 0 .enqueue] ++
    passRun .relay (frameOne .streamOpen {} []) ++
    onSide .agent [.reader, .reader, .reader, .reader, .acceptStream] ++
    passRun .agent (frameOne .streamOpen { ack := true } []) ++
    onSide .relay [.reader, .reader, .opening 0 .ack]) ++ [ProxyAction.start]

/-- The client sends `[7]` and the relay writes it on the stream. -/
def clientWriteRun : List ProxyAction := [.clientSend 1, .copyIn 1, .copyIn 1, .copyIn 1]

/-- The agent writes `[9]`. -/
def agentWriteRun : List ProxyAction :=
  sysRun (onSide .agent [.call 0 (.write [9]), .call 0 (.writeSend [9])])

/-- The drain goroutines and write loops pass on what both sides have written. -/
def exchangeRun : List ProxyAction :=
  sysRun (onSide .relay [.drain 0 .data, .drain 0 .next] ++
    passRun .relay (frameOne .streamData {} [7]) ++ onSide .agent [.reader, .reader] ++
    onSide .agent [.drain 0 .data, .drain 0 .next] ++
    passRun .agent (frameOne .streamData {} [9]) ++ onSide .relay [.reader, .reader])

/-- The agent closes its half and the relay is told. -/
def agentCloseRun : List ProxyAction :=
  sysRun (onSide .agent [.call 0 .close, .callback 0 .closeFin, .callback 0 .closeCheckClosed,
      .callback 0 .closeCheckReset, .drain 0 .fin, .drain 0 .next, .drain 0 .next] ++
    passRun .agent (frameOne .streamClose { fin := true } []) ++
    onSide .relay [.reader, .reader, .reader, .reader])

/-- The context is cancelled: the connection is closed, the stream is reset and STREAM_RESET
sent. -/
def teardownRun : List ProxyAction :=
  [ProxyAction.watch, .watch] ++
  sysRun (onSide .relay
      [.callback 0 .resetCheck, .callback 0 .resetLookup, .callback 0 .resetSend] ++
    passRun .relay (frameOne .streamReset {} [0, 0, 0, 0]) ++ onSide .agent [.reader, .reader])

/-- Both sides get everything. -/
def exchangedRun : List ProxyAction :=
  copyStartRun ++ clientWriteRun ++ agentWriteRun ++ exchangeRun ++
  sysRun [(.agent, .call 0 (.read 4))] ++ [ProxyAction.copyOut, .copyOut]

/-- Both sides get everything before the agent closes. -/
def patientRun : List ProxyAction :=
  exchangedRun ++ agentCloseRun ++
  [ProxyAction.copyOut, .copyOut] ++ teardownRun ++
  [ProxyAction.copyIn 1, .copyIn 1, .copyOut, .copyIn 1] ++
  sysRun (onSide .relay [.drain 0 .closed, .drain 0 .next] ++
    onSide .agent [.callback 0 .resetCheck, .callback 0 .resetLookup, .callback 0 .resetSend,
      .reader, .reader] ++
    passRun .agent (frameOne .streamReset {} [0, 0, 0, 0]) ++ onSide .relay [.reader])

/-- A run that stands still before anybody ends, and one that ends. -/
theorem copies_both_ways_patient :
    (∃ P, ProxyReach 0 fourStreams [7] (Patient 0 [7] [9]) P ∧ Stalled 0 P ∧
      ((P.sys.sess .agent).cells 0).hist.got ++ ((P.sys.sess .agent).cells 0).stream.readBuf ++
          P.clientConn.unsent = [7] ∧
        P.clientConn.received = ((P.sys.sess .agent).cells 0).hist.wrote) ∧
    ∃ P, ProxyReach 0 fourStreams [7] (Patient 0 [7] [9]) P ∧ Stalled 0 P ∧
      P.clientConn.closed = true ∧ P.clientConn.received = [9] ∧
      ((P.sys.sess .agent).cells 0).hist.got = [7] ∧
      ∀ n, (((P.sys.sess .agent).cells 0).stream.read n).1 = .eof := by
  constructor
  · have hex : ∃ P, ProxyReach 0 fourStreams [7] (Patient 0 [7] [9]) P ∧ P.started = true ∧
        IsPeer P 0 0 ∧ Quiescent P.sys ∧ (P.step 0 .copyOut).isNone ∧ P.copyIn = .read ∧
        P.watch = .wait ∧ P.cancelled = false ∧
        P.clientConn = ⟨⟨[7], [], false, [9], false, false⟩, []⟩ ∧
        ((P.sys.sess .agent).cells 0).hist.closedAt = none :=
      exists_reach_of_exec exchangedRun _ (by decide +kernel)
    obtain ⟨P, hP, hs, hu, hq, hout, hinto, hwatch, hcancel, hconn, hcl⟩ := hex
    have hst : Stalled 0 P := by
      refine ⟨hq, by simpa using hout, fun n => ?_, ?_⟩
      · simp [Proxy.step, Proxy.stepIn, InPc.next, hs, hinto, hconn]
      · simp [Proxy.step, Proxy.stepWatch, RelayEnd.next, hs, hwatch, hcancel]
    obtain ⟨_, _, hdelivered, _⟩ := copies_both_ways hP hs hu
    exact ⟨P, hP, hst, hdelivered hst (by rw [hconn]) hcl⟩
  · have hex : ∃ P, ProxyReach 0 fourStreams [7] (Patient 0 [7] [9]) P ∧ P.started = true ∧
        IsPeer P 0 0 ∧ Quiescent P.sys ∧ P.copyOut = .returned ∧ P.copyIn = .returned ∧
        P.watch = .done ∧ ((P.sys.sess .agent).cells 0).hist.closedAt = some [9] :=
      exists_reach_of_exec patientRun _ (by decide +kernel)
    obtain ⟨P, hP, hs, hu, hq, hout, hinto, hwatch, hcl⟩ := hex
    have hst : Stalled 0 P := by
      refine ⟨hq, ?_, fun n => ?_, ?_⟩
      · simp [Proxy.step, Proxy.stepOut, OutPc.next, hs, hout]
      · simp [Proxy.step, Proxy.stepIn, InPc.next, hs, hinto]
      · simp [Proxy.step, Proxy.stepWatch, RelayEnd.next, hs, hwatch]
    obtain ⟨⟨_, hgot⟩, ⟨_, hrec⟩, _, hrest⟩ := copies_both_ways hP hs hu
    obtain ⟨hclosed, heof⟩ := hrest hst (.inr (by simp [hcl]))
    exact ⟨P, hP, hst, hclosed, hrec hclosed, hgot 4 (heof 4), heof⟩

/-- The client ends its sending side first. -/
def clientFirstRun : List ProxyAction :=
  copyStartRun ++ agentWriteRun ++ sysRun [(.agent, .call 0 .close)] ++ clientWriteRun ++
  [ProxyAction.clientEnd, .copyIn 1, .copyIn 1] ++ teardownRun

/-- The agent ends its half first. -/
def agentFirstRun : List ProxyAction :=
  copyStartRun ++ agentWriteRun ++ clientWriteRun ++ exchangeRun ++ agentCloseRun ++
  [ProxyAction.copyOut, .copyOut, .copyOut, .copyOut, .clientEnd] ++ teardownRun

/-- Whichever side ends first, the agent may read io.EOF with none of the client's bytes; when it
is the client, the client may get none of the agent's either. -/
theorem copies_truncate :
    (∃ P, ProxyReach 0 fourStreams [7] (fun P a => Faultless 0 [9] P a ∧ TidySystem P a) P ∧
      P.clientConn.unsent = [] ∧ P.clientConn.ended = true ∧
      ((P.sys.sess .agent).cells 0).hist.closedAt = some [9] ∧
      (((P.sys.sess .agent).cells 0).stream.read 4).1 = .eof ∧
      ((P.sys.sess .agent).cells 0).hist.got = [] ∧
      P.clientConn.closed = true ∧ P.clientConn.received = []) ∧
    ∃ P, ProxyReach 0 fourStreams [7] (fun P a => Faultless 0 [9] P a ∧ TidySystem P a) P ∧
      P.clientConn.unsent = [] ∧ P.clientConn.ended = true ∧
      ((P.sys.sess .agent).cells 0).hist.closedAt = some [9] ∧
      (((P.sys.sess .agent).cells 0).stream.read 4).1 = .eof ∧
      ((P.sys.sess .agent).cells 0).hist.got = [] := by
  constructor
  · exact exists_reach_of_exec clientFirstRun _ (by decide +kernel)
  · exact exists_reach_of_exec agentFirstRun _ (by decide +kernel)

/-- `copyBidirectional` reports no error, whatever was lost: both goroutines have cancelled the
context that it looks at.
SOURCE: router_impl.go:219-262 -/
theorem result_nil {ok : Proxy → ProxyAction → Prop} (h : ProxyReach v config w ok P)
    {err : Option String} (hr : P.result = some err) : err = none := by
  unfold Proxy.result copyResult at hr
  split at hr
  · next firstErr _ herr =>
    have hc := (staged_reach h).errs (by simp [herr])
    cases firstErr <;> simp [hc] at hr <;> exact hr.symm
  · cases hr

/-- The agent resets the stream, and the byte that the client has sent is lost. -/
theorem result_nil_reset :
    ∃ P err, ProxyReach 0 fourStreams [7] anyStep P ∧ P.errCh = [some (errStreamClosed 1), none] ∧
      P.result = some err ∧ err = none := by
  have hex : ∃ P, ProxyReach 0 fourStreams [7] anyStep P ∧
      P.errCh = [some (errStreamClosed 1), none] ∧ P.result.isSome :=
    exists_reach_of_exec (copyStartRun ++ [ProxyAction.clientSend 1, .copyIn 1] ++
      sysRun (onSide .agent [.call 0 (.reset 0), .callback 0 .resetCheck, .callback 0 .resetLookup,
          .callback 0 .resetSend] ++
        passRun .agent (frameOne .streamReset {} [0, 0, 0, 0]) ++
        onSide .relay [.reader, .reader]) ++
      [.copyIn 1, .copyIn 1, .copyIn 1, .copyOut, .copyOut, .copyOut]) _ (by decide +kernel)
  obtain ⟨P, hP, herr, hr⟩ := hex
  obtain ⟨err, hr⟩ := Option.isSome_iff_exists.mp hr
  exact ⟨P, err, hP, herr, hr, result_nil hP hr⟩

end Atlax.Analysis
