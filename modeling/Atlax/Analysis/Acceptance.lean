import Atlax.Analysis.Endings
import Atlax.Analysis.OpenOnce

/-!
# Which opens are accepted

`acceptPeerOpen` drops a STREAM_OPEN whose identifier is in the map and refuses one of the session's
own parity. A peer that runs the same code keeps to its parity, but it reuses an identifier as soon
as its own half of the old stream is gone, and the other half may still be in the map when the new
STREAM_OPEN comes in. That one is dropped without an answer, and its open waits in vain.

In every run in which an identifier is handed out only when the peer has no entry for it, no
handshake is under way for it and no earlier open with it is still running, every STREAM_OPEN is
accepted, and the ACK that a waiting open needs is on its way to it.
-/

set_option autoImplicit false

namespace Atlax.Analysis

open Atlax.Model Atlax.Library

variable {config : Role → MuxConfig} {r : Ref} {p : Packet}

/-- The identifier is free for an open of `X`: no handshake is under way for it, no open with it is
still running, and the peer has no stream under it. -/
def IDVacant (S : System) (X : Role) (i : ℕ) : Prop :=
  IDUnasked S i ∧
    (∀ r < (S.sess X).nextRef, ((S.sess X).cells r).stream.id = i →
      ((S.sess X).cells r).openPc.running = false) ∧
    (S.sess X.peer).table.get i = none

instance (S : System) (X : Role) (i : ℕ) : Decidable (IDVacant S X i) :=
  inferInstanceAs (Decidable (_ ∧ _ ∧ _))

/-- `OpenStream` hands out an identifier only when it is free on both sides.
SOURCE: mux_session.go:116-141 -/
def ReissuesVacant (S : System) : Role × Action → Prop
  | (X, .openAlloc _) =>
    (S.sess X).table.streams.entries.length < (S.sess X).config.maxConcurrentStreams →
      IDVacant S X (S.sess X).table.allocID.1
  | _ => True

instance (S : System) : DecidablePred (ReissuesVacant S)
  | (X, a) => by
    unfold ReissuesVacant
    induction a <;> infer_instance

variable {s s' : Session} {a : Action} {S S' : System} {X Z : Role}

theorem vacant_unasked {l : Role × Action} (h : ReissuesVacant S l) : ReissuesUnasked S l := by
  obtain ⟨X, a⟩ := l
  cases a with
  | openAlloc payload => exact fun hlen => (h hlen).1
  | _ => trivial

/-- A side has a stream of the conversation `c`, made for the peer, under the identifier `i`. -/
def Standing (S : System) (i : ℕ) (c : Option Conv) : Prop :=
  ∃ X r, (S.sess X).table.get i = some r ∧ ((S.sess X).cells r).openPc = .accepted ∧
    ((S.sess X).cells r).conv = c

/-- A stream made for the peer stood in the map before the step, or its STREAM_OPEN was in the hand
of the read loop. -/
theorem standing_move (hw : ∀ Y, WellFormed (S.sess Y)) (hm : SysMove S X a S') {i : ℕ}
    {c : Option Conv} (h : Standing S' i c) : Standing S i c ∨ Handshaking S i c := by
  obtain ⟨Y, r, hget, hpc, rfl⟩ := h
  rcases hm.sess Y with ⟨rfl, hmove⟩ | heq
  · rcases move_table hmove hget with hold | ⟨rfl, hn, hid⟩
    · have hev := move_evolves hmove r ((hw Y).table i r hold).1
      exact .inl ⟨Y, r, hold, hev.accepted.mp hpc, hev.conv.symm⟩
    · rcases (move_fresh hmove (hn ▸ Nat.lt_succ_self _)).2 with
        ⟨payload, _, _, _, hcell⟩ | ⟨p, _, hrd, _, hcell⟩
      · rw [hcell] at hpc
        cases hpc
      · right
        have hk := (hw Y).kind
        rw [hrd] at hk
        rw [hcell, acceptedCell_id] at hid
        rw [hcell]
        refine ⟨Y.peer, .inr ⟨p, .inr (.inr ?_), Bool.or_eq_true_iff.mpr (.inl hk), hid, rfl⟩⟩
        rw [Role.peer_peer, hrd]
        rfl
  · rw [heq] at hget hpc ⊢
    exact .inl ⟨Y, r, hget, hpc, rfl⟩

theorem IDVacant.not_standing (hw : ∀ Y, WellFormed (S.sess Y))
    (h : IDVacant S X (S.sess X).table.allocID.1) (c : Option Conv) :
    ¬ Standing S (S.sess X).table.allocID.1 c := by
  rintro ⟨Y, r, hget, hpc, _⟩
  rcases Role.eq_or_eq_peer X Y with rfl | rfl
  · -- on the opener's own side the identifier is of its parity, and peers do not use that
    obtain ⟨hr, hid⟩ := (hw Y).table _ r hget
    have hown := ownsID_allocID (hw Y).freeIDs
    rw [← hid] at hown
    exact ((hw Y).owned r hr).mp hown hpc
  · rw [h.2.2] at hget
    cases hget

/-- Under one identifier there is one conversation: being asked for, or standing at the peer. -/
theorem claimed_uniform (h : SystemReach config ReissuesVacant S) :
    Uniform fun i c => Handshaking S i c ∨ Standing S i c := by
  refine Reach.invariant (fun S => Uniform fun i c => Handshaking S i c ∨ Standing S i c) h ?_ ?_
  · rintro i c c' (⟨Y, ⟨r, hr, _⟩ | ⟨p, hp, _⟩⟩ | ⟨Y, r, hget, _⟩)
    · cases hr
    · exact absurd hp (not_sentBy_new config Y p)
    · cases hget
  · rintro S ⟨X, a⟩ S' hS hU hok hstep
    have hw := system_wellFormed hS
    have hrole := system_role hS
    have hF := opensFaithful_reach hS
    have hm := system_move hstep
    have hnew : ∀ i c, Handshaking S' i c ∨ Standing S' i c →
        (Handshaking S i c ∨ Standing S i c) ∨
          ∃ payload, a = .openAlloc payload ∧ i = (S.sess X).table.allocID.1 ∧
            c = some ⟨X, (S.sess X).nextRef⟩ ∧
            (S.sess X).table.streams.entries.length <
              (S.sess X).config.maxConcurrentStreams := by
      rintro i c (hc | hc)
      · exact (handshaking_move hw hrole hF hm hc).imp_left .inl
      · exact .inl (standing_move hw hm hc).symm
    refine hU.step ?_ hnew ?_
    · rintro i c c' ⟨_, _, _, rfl, _⟩ ⟨_, _, _, rfl, _⟩
      rfl
    · rintro i c c' ⟨payload, rfl, rfl, _, hlen⟩ (hc' | hc')
      · exact (hok hlen).1.not_handshaking c' hc'
      · exact (hok hlen).not_standing hw c' hc'

/-- A STREAM_OPEN that the read loop takes up finds its identifier unused, and not of this side's
parity. -/
theorem open_vacant (h : SystemReach config ReissuesVacant S)
    (hrd : (S.sess X).reader = .frame p) (hopen : p.isOpen = true) :
    (S.sess X).table.get p.frame.streamID = none ∧
      (S.sess X).table.ownsID p.frame.streamID = false := by
  have hw := system_wellFormed h
  have hF := opensFaithful_reach h
  have hp : SentBy S X.peer p := .inr (.inr (by rw [Role.peer_peer, hrd]; rfl))
  have hforeign := hF.foreign hw (system_role h) hp hopen
  refine ⟨?_, hforeign⟩
  by_contra hne
  obtain ⟨r, hget⟩ := Option.ne_none_iff_exists'.mp hne
  obtain ⟨hr, hid⟩ := (hw X).table _ r hget
  have hacc : ((S.sess X).cells r).openPc = .accepted := by
    by_contra hpc
    have hown := ((hw X).owned r hr).mpr hpc
    rw [hid, hforeign] at hown
    cases hown
  -- the entry belongs to the conversation of the STREAM_OPEN, which has no stream yet
  have hconv : ((S.sess X).cells r).conv = p.conv :=
    claimed_uniform h p.frame.streamID _ _ (.inr ⟨X, r, hget, hacc, rfl⟩)
      (.inl ⟨X.peer, .inr ⟨p, hp, Bool.or_eq_true_iff.mpr (.inl hopen), rfl, rfl⟩⟩)
  obtain ⟨r₀, _, hc, _⟩ := hF.opens X.peer p hp hopen
  have hfl : p ∈ S.flight X.peer := by
    refine List.mem_append_left _ (List.mem_filter.mpr ⟨?_, ?_⟩)
    · simp [hrd, ReaderPc.unapplied]
    · simp [Packet.inOrder, hopen]
  have hunmade := asked_unmade h hfl hopen hc (r := r)
  rw [Role.peer_peer] at hunmade
  exact hunmade hr (hconv.trans hc)

/-- The ACK that the open `r` of `X` waits for is on its way: the read loop is about to hand it
over, or the open is registered and its STREAM_OPEN or the ACK for it is under way. -/
def AckComing (S : System) (X : Role) (r : Ref) : Prop :=
  (S.sess X).reader = .ackSend r ∨
    (S.sess X).pendingOpen.lookup ((S.sess X).cells r).stream.id = some r ∧
      ∃ p : Packet, p.conv = some ⟨X, r⟩ ∧
        p.frame.streamID = ((S.sess X).cells r).stream.id ∧
        (p.isOpen = true ∧ (EnRoute S X p ∨ (S.sess X.peer).reader = .acceptInsert p ∨
            ∃ r', (S.sess X.peer).reader = .acceptAck r' p) ∨
          p.isAck = true ∧ EnRoute S X.peer p)

/-- The opens that have not returned. -/
structure Awaited (S : System) : Prop where
  alone : ∀ X, ∀ r < (S.sess X).nextRef, ∀ r' < (S.sess X).nextRef,
    ((S.sess X).cells r).openPc.running = true → ((S.sess X).cells r').openPc.running = true →
    ((S.sess X).cells r).stream.id = ((S.sess X).cells r').stream.id → r = r'
  registered : ∀ X, ∀ r < (S.sess X).nextRef, ((S.sess X).cells r).openPc = .enqueue →
    (S.sess X).pendingOpen.lookup ((S.sess X).cells r).stream.id = some r
  coming : (∀ X, (S.sess X).closed = false) → ∀ X, ∀ r < (S.sess X).nextRef,
    ((S.sess X).cells r).openPc = .wait → ((S.sess X).cells r).ackCh = false → AckComing S X r

theorem move_openPc_running (hm : Move s a s') (hr : r < s.nextRef)
    (h : (s'.cells r).openPc.running = true) : (s.cells r).openPc.running = true := by
  obtain heq | ⟨o, -, ho⟩ := move_open hm hr
  · rwa [heq] at h
  · generalize (s'.cells r).openPc = pc' at h ho
    cases ho with
    | register hpc | enqueue hpc | cancel hpc | sessionClosed hpc | cancelled hpc
    | remove _ hpc =>
      rw [hpc]
      rfl
    | ack | failed | removeNone | reset => cases h

/-- An open that waits was waiting, or has just queued its STREAM_OPEN. -/
theorem move_wait (hm : Move s a s') (hr : r < s.nextRef) (h : (s'.cells r).openPc = .wait) :
    (s.cells r).openPc = .wait ∨ a = .opening r .enqueue ∧ (s.cells r).openPc = .enqueue := by
  obtain heq | ⟨o, rfl, ho⟩ := move_open hm hr
  · exact .inl (heq ▸ h)
  · rw [h] at ho
    cases ho with
    | enqueue hpc => exact .inr ⟨rfl, hpc⟩

/-- An open that waits for its token, and had it not before the step either. -/
theorem move_ackCh_wait (hm : Move s a s') (hr : r < s.nextRef)
    (hpc : (s'.cells r).openPc = .wait) (h : (s'.cells r).ackCh = false) :
    (s.cells r).ackCh = false := by
  have hc := move_cell hm hr
  generalize s'.cells r = c' at hpc h hc
  cases hc with
  | openAck => cases hpc
  | call k c' _ _ hc => rwa [call_ackCh hc] at h
  | drain d b c' p _ hc => rwa [drain_ackCh hc] at h
  | ackSend => cases h
  | _ => exact h

/-- A registration goes with another open of the identifier that registers or cleans up, or with an
ACK for the identifier, which the read loop then hands to it. -/
theorem move_pendingOpen_stays (hm : Move s a s') {i : ℕ} (h : s.pendingOpen.lookup i = some r) :
    s'.pendingOpen.lookup i = some r ∨ (∃ r₀ < s.nextRef, (s.cells r₀).stream.id = i ∧
        ((s.cells r₀).openPc = .register ∨ ∃ b, (s.cells r₀).openPc = .cleanup b)) ∨
      ∃ p, s.reader = .frame p ∧ p.isAck = true ∧ p.frame.streamID = i ∧
        s'.reader = .ackSend r := by
  cases hm with
  | register r₀ hr hpc =>
    by_cases hi : i = (s.cells r₀).stream.id
    · exact .inr (.inl ⟨r₀, hr, hi.symm, .inl hpc⟩)
    · left
      simpa [hi] using h
  | openCleanup r₀ hr cancelled hpc =>
    by_cases hi : i = (s.cells r₀).stream.id
    · exact .inr (.inl ⟨r₀, hr, hi.symm, .inr ⟨cancelled, hpc⟩⟩)
    · left
      simpa [hi] using h
  | handleAck p hrd hack r' hl =>
    by_cases hi : i = p.frame.streamID
    · subst hi
      rw [h] at hl
      cases hl
      exact .inr (.inr ⟨p, hrd, hack, rfl, rfl⟩)
    · left
      simpa [hi] using h
  | _ => exact .inl h

theorem outgoing_enqueued {priority : Priority} (h : s.queue.closed = false) :
    Outgoing (s.enqueue p priority) p := by
  left
  simp only [Session.enqueue_queue, WriteQueue.enqueue, h]
  cases priority
  · exact .inl (by simp)
  · exact .inr (by simp)

theorem alone_move (hA : Awaited S) (hok : ReissuesVacant S (X, a)) (hm : SysMove S X a S')
    {Y : Role} {r r' : Ref} (hr : r < (S'.sess Y).nextRef) (hr' : r' < (S'.sess Y).nextRef)
    (hrun : ((S'.sess Y).cells r).openPc.running = true)
    (hrun' : ((S'.sess Y).cells r').openPc.running = true)
    (hid : ((S'.sess Y).cells r).stream.id = ((S'.sess Y).cells r').stream.id) : r = r' := by
  rcases hm.sess Y with ⟨rfl, hmove⟩ | heq
  · -- a running open is an old one, or the one just begun, whose identifier no running open has
    have source : ∀ {r : Ref}, r < (S'.sess Y).nextRef →
        ((S'.sess Y).cells r).openPc.running = true →
        r < (S.sess Y).nextRef ∧ ((S.sess Y).cells r).openPc.running = true ∧
            ((S'.sess Y).cells r).stream.id = ((S.sess Y).cells r).stream.id ∨
          r = (S.sess Y).nextRef ∧ ∀ r₀ < (S.sess Y).nextRef,
            ((S.sess Y).cells r₀).openPc.running = true →
              ((S.sess Y).cells r₀).stream.id ≠ ((S'.sess Y).cells r).stream.id := by
      intro r hr hrun
      rcases move_new hmove hr with hold | ⟨rfl, _⟩
      · exact .inl ⟨hold, move_openPc_running hmove hold hrun, (move_evolves hmove r hold).id⟩
      · refine .inr ⟨rfl, ?_⟩
        rcases (move_fresh hmove hr).2 with ⟨payload, rfl, _, hlen, hcell⟩ | ⟨p, _, _, _, hcell⟩
        · intro r₀ hr₀ hrun₀ hid₀
          rw [hcell, openedCell_id] at hid₀
          rw [(hok hlen).2.1 r₀ hr₀ hid₀] at hrun₀
          cases hrun₀
        · rw [hcell] at hrun
          cases hrun
    rcases source hr hrun with ⟨hold, hrun₀, hid₀⟩ | ⟨rfl, hnew⟩ <;>
      rcases source hr' hrun' with ⟨hold', hrun₀', hid₀'⟩ | ⟨rfl, hnew'⟩
    · rw [hid₀, hid₀'] at hid
      exact hA.alone Y r hold r' hold' hrun₀ hrun₀' hid
    · exact absurd (hid₀.symm.trans hid) (hnew' r hold hrun₀)
    · exact absurd (hid₀'.symm.trans hid.symm) (hnew r' hold' hrun₀')
    · rfl
  · rw [heq] at hr hr' hrun hrun' hid
    exact hA.alone Y r hr r' hr' hrun hrun' hid

/-- An open that has not sent its STREAM_OPEN yet has no ACK under way. -/
theorem unsent_unanswered (h : SystemReach config ReissuesVacant S)
    (hr : r < (S.sess X).nextRef) (hpc : ((S.sess X).cells r).openPc = .enqueue)
    (hp : SentBy S X.peer p) (hack : p.isAck = true) :
    p.frame.streamID ≠ ((S.sess X).cells r).stream.id := by
  intro hid
  have hconv : p.conv = some ⟨X, r⟩ :=
    (matched_reach (h.mono fun _ _ => vacant_unasked)).uniform _ _ _
      ⟨X.peer, .inr ⟨p, hp, Bool.or_eq_true_iff.mpr (.inr hack), hid, rfl⟩⟩
      ⟨X, .inl ⟨r, hr, .inr hpc, rfl, rfl⟩⟩
  obtain ⟨r₀, _, hconv₀, hcr⟩ := (opensFaithful_reach h).acks X.peer p hp hack
  rw [Role.peer_peer] at hconv₀ hcr
  rw [hconv] at hconv₀
  cases hconv₀
  -- the token of the open would be with the call and with the peer's stream
  obtain ⟨r', hr', hc, _⟩ := hcr
  have htok := openTokens_le_one h X r hr
  have hst := one_le_streamsOf hr' hc
  have huns : unsent ((S.sess X).cells r).openPc = true := by simp [unsent, hpc]
  unfold openTokens at htok
  rw [huns, Bool.toNat_true] at htok
  omega

/-- No step loses a registered open. -/
theorem registered_move (h : SystemReach config ReissuesVacant S)
    (hA : Awaited S) (hm : SysMove S X a S') {Y : Role}
    (hr : r < (S'.sess Y).nextRef) (hpc : ((S'.sess Y).cells r).openPc = .enqueue) :
    (S'.sess Y).pendingOpen.lookup ((S'.sess Y).cells r).stream.id = some r := by
  rcases hm.sess Y with ⟨rfl, hmove⟩ | heq
  · rcases move_new hmove hr with hold | ⟨rfl, ⟨_, _, hcell⟩ | ⟨_, _, _, hcell⟩⟩
    · rw [(move_evolves hmove r hold).id]
      rcases move_unsent hmove hold (.inr hpc) with heq | ⟨rfl, _⟩
      · have hpc₀ := heq.trans hpc
        rcases move_pendingOpen_stays hmove (hA.registered Y r hold hpc₀) with
          hl | ⟨r₀, hr₀, hid, hcase⟩ | ⟨p, hrd, hack, hid, _⟩
        · exact hl
        · have hrun₀ : ((S.sess Y).cells r₀).openPc.running = true := by
            rcases hcase with hc | ⟨b, hc⟩ <;> simp [hc, OpenPc.running]
          have hrun : ((S.sess Y).cells r).openPc.running = true := by simp [hpc₀, OpenPc.running]
          obtain rfl := hA.alone Y r₀ hr₀ r hold hrun₀ hrun hid
          simp [hpc₀] at hcase
        · refine absurd hid (unsent_unanswered h hold hpc₀ ?_ hack)
          exact .inr (.inr (by rw [Role.peer_peer, hrd]; rfl))
      · generalize S'.sess Y = s' at hmove
        cases hmove with
        | register => simp
    · rw [hcell] at hpc
      cases hpc
    · rw [hcell] at hpc
      cases hpc
  · rw [heq] at hr hpc ⊢
    exact hA.registered Y r hr hpc

theorem move_handleOpen (hm : Move s .reader s') (h : s.reader = .frame p)
    (hopen : p.isOpen = true) (hget : s.table.get p.frame.streamID = none)
    (hown : s.table.ownsID p.frame.streamID = false) : s'.reader = .acceptInsert p := by
  cases hm with
  | handleOpen p' h' =>
    rw [h] at h'
    cases h'
    rfl
  | _ => simp_all [Harmless, Packet.isOpen, Packet.isAck, Packet.isData, Packet.isClose,
      Packet.isReset]

theorem move_handleAck (hm : Move s .reader s') (h : s.reader = .frame p)
    (hack : p.isAck = true) (hl : s.pendingOpen.lookup p.frame.streamID = some r) :
    s'.reader = .ackSend r := by
  cases hm with
  | handleAck p' h' _ r' hl' =>
    rw [h] at h'
    cases h'
    rw [hl] at hl'
    cases hl'
    rfl
  | handleNothing p' h' _ _ _ _ _ hack' =>
    rw [h] at h'
    cases h'
    rw [hack' hack] at hl
    cases hl
  | _ => simp_all [Harmless, Packet.isOpen, Packet.isAck, Packet.isData, Packet.isClose,
      Packet.isReset]

/-- The read loop takes a STREAM_OPEN from the wire to the ACK for it. -/
theorem accepting_move (h : SystemReach config ReissuesVacant S)
    (hm : SysMove S X.peer a S') (hopen : (S'.sess X.peer).closed = false) (hp : p.isOpen = true)
    (hr : EnRoute S X p ∨ (S.sess X.peer).reader = .acceptInsert p ∨
      ∃ r', (S.sess X.peer).reader = .acceptAck r' p) :
    (EnRoute S' X p ∨ (S'.sess X.peer).reader = .acceptInsert p ∨
        ∃ r', (S'.sess X.peer).reader = .acceptAck r' p) ∨
      ∃ q : Packet, q.conv = p.conv ∧ q.frame.streamID = p.frame.streamID ∧ q.isAck = true ∧
        EnRoute S' X.peer q := by
  rcases hr with hr | hr | ⟨r', hr⟩
  · rcases enRoute_receive hm hr with hr | ⟨rfl, hrd⟩
    · exact .inl (.inl hr)
    · obtain ⟨hget, hown⟩ := open_vacant h hrd hp
      exact .inl (.inr (.inl (move_handleOpen hm.move hrd hp hget hown)))
  · by_cases ha : a = .reader
    · subst ha
      have hmove := hm.move
      generalize S'.sess X.peer = s' at hmove
      refine .inl (.inr (.inr ?_))
      cases hmove with
      | acceptInsert p' h' =>
        rw [hr] at h'
        cases h'
        exact ⟨_, rfl⟩
      | _ => simp_all
    · have hrd := move_reader_busy hm.move ha (by simp [hr]) (by simp [hr])
      exact .inl (.inr (.inl (hrd.trans hr)))
  · by_cases ha : a = .reader
    · subst ha
      have hst : (S.sess X.peer).reader.stream = some (r', p) := by rw [hr]; rfl
      refine .inr ⟨((S.sess X.peer).cells r').ackPacket,
        (opensFaithful_reach h).accepting X.peer r' p hr,
        ((system_wellFormed h X.peer).reader r' p hst).2, rfl, .inl ?_⟩
      have hqueue := (system_endingInv h X.peer).queue_open (hm.not_closed hopen)
      have hmove := hm.move
      generalize S'.sess X.peer = s' at hmove
      cases hmove with
      | acceptAck r₁ p' h' =>
        rw [hr] at h'
        cases h'
        exact outgoing_enqueued hqueue
      | _ => simp_all
    · have hrd := move_reader_busy hm.move ha (by simp [hr]) (by simp [hr])
      exact .inl (.inr (.inr ⟨r', hrd.trans hr⟩))

/-- The open stays registered until the read loop hands it its ACK. -/
theorem registration_move (hA : Awaited S) (hm : SysMove S Z a S')
    (hr : r < (S.sess X).nextRef) (hpc : ((S.sess X).cells r).openPc = .wait)
    (hl : (S.sess X).pendingOpen.lookup ((S.sess X).cells r).stream.id = some r) :
    (S'.sess X).pendingOpen.lookup ((S.sess X).cells r).stream.id = some r ∨
      (S'.sess X).reader = .ackSend r := by
  rcases hm.sess X with ⟨rfl, hmove⟩ | heq
  · rcases move_pendingOpen_stays hmove hl with h | ⟨r₀, hr₀, hid, hcase⟩ | ⟨_, _, _, _, hrd⟩
    · exact .inl h
    · have hrun₀ : ((S.sess X).cells r₀).openPc.running = true := by
        rcases hcase with hc | ⟨b, hc⟩ <;> simp [hc, OpenPc.running]
      have hrun : ((S.sess X).cells r).openPc.running = true := by simp [hpc, OpenPc.running]
      obtain rfl := hA.alone X r₀ hr₀ r hr hrun₀ hrun hid
      simp [hpc] at hcase
    · exact .inr hrd
  · exact .inl (by rw [heq]; exact hl)

/-- The ACK comes. -/
theorem ackComing_move (h : SystemReach config ReissuesVacant S)
    (hA : Awaited S) (hm : SysMove S Z a S') (hopen : ∀ Y, (S'.sess Y).closed = false)
    (hr : r < (S.sess X).nextRef) (hpc : ((S.sess X).cells r).openPc = .wait)
    (hch : ((S'.sess X).cells r).ackCh = false) (hc : AckComing S X r) : AckComing S' X r := by
  have hid' := (hm.evolves hr).id
  rcases hc with hrd | ⟨hl, p, hconv, hid, hp⟩
  · -- the read loop hands the token over, and then the open has it
    left
    rcases hm.sess X with ⟨rfl, hmove⟩ | heq
    · by_cases ha : a = .reader
      · subst ha
        generalize S'.sess X = s' at hmove hch
        cases hmove with
        | ackSend r' h' =>
          rw [hrd] at h'
          cases h'
          simp at hch
        | _ => simp_all
      · rw [move_reader_busy hmove ha (by simp [hrd]) (by simp [hrd]), hrd]
    · rw [heq, hrd]
  · rcases registration_move hA hm hr hpc hl with hl' | hrd
    · have coming : ∀ q : Packet, q.conv = some ⟨X, r⟩ →
          q.frame.streamID = ((S.sess X).cells r).stream.id →
          (q.isOpen = true ∧ (EnRoute S' X q ∨ (S'.sess X.peer).reader = .acceptInsert q ∨
              ∃ r', (S'.sess X.peer).reader = .acceptAck r' q) ∨
            q.isAck = true ∧ EnRoute S' X.peer q) → AckComing S' X r := by
        intro q hqc hqid hq
        refine .inr ⟨by rw [hid', hl'], q, hqc, by rw [hid', hqid], hq⟩
      rcases hp with ⟨hp, hroute⟩ | ⟨hp, hroute⟩
      · rcases Role.eq_or_eq_peer X Z with rfl | rfl
        · refine coming p hconv hid (.inl ⟨hp, ?_⟩)
          rw [hm.peer]
          exact hroute.imp_left (enRoute_send hm (hopen Z))
        · rcases accepting_move h hm (hopen X.peer) hp hroute with hroute | ⟨q, hqc, hqid, hq⟩
          · exact coming p hconv hid (.inl ⟨hp, hroute⟩)
          · exact coming q (hqc.trans hconv) (hqid.trans hid) (.inr hq)
      · rcases Role.eq_or_eq_peer X Z with rfl | rfl
        · rw [← Role.peer_peer Z] at hm
          rcases enRoute_receive hm hroute with hroute | ⟨rfl, hrd⟩
          · exact coming p hconv hid (.inr ⟨hp, hroute⟩)
          · rw [Role.peer_peer] at hm hrd
            exact .inl (move_handleAck hm.move hrd hp (hid ▸ hl))
        · exact coming p hconv hid (.inr ⟨hp, enRoute_send hm (hopen X.peer) hroute⟩)
    · exact .inl hrd

/-- An open waits for the ACK that comes. -/
theorem awaited_reach (h : SystemReach config ReissuesVacant S) :
    Awaited S := by
  refine Reach.invariant Awaited h ?_ ?_
  · constructor
    · intro X r hr
      cases hr
    · intro X r hr
      cases hr
    · intro _ X r hr
      cases hr
  · rintro S ⟨Z, a⟩ S' hS hA hok hstep
    have hm := system_move hstep
    constructor
    · intro X r hr r' hr' hrun hrun' hid
      exact alone_move hA hok hm hr hr' hrun hrun' hid
    · intro X r hr hpc
      exact registered_move hS hA hm hr hpc
    · intro hopen X r hr hpc hch
      rcases hm.sess X with ⟨rfl, hmove⟩ | heq
      · rcases move_new hmove hr with hold | ⟨rfl, ⟨_, _, hcell⟩ | ⟨_, _, _, hcell⟩⟩
        · rcases move_wait hmove hold hpc with hpc₀ | ⟨rfl, hpc₀⟩
          · have hch₀ := move_ackCh_wait hmove hold hpc hch
            have hc := hA.coming (fun Y => hm.not_closed (hopen Y)) X r hold hpc₀ hch₀
            exact ackComing_move hS hA hm hopen hold hpc₀ hch hc
          · -- the open has just queued its STREAM_OPEN
            have hl := hA.registered X r hold hpc₀
            have hid := (move_evolves hmove r hold).id
            have hconv := (system_wellFormed hS X).conv r hold (by simp [hpc₀])
            rw [system_role hS] at hconv
            have hqueue := (system_endingInv hS X).queue_open (hm.not_closed (hopen X))
            refine .inr ⟨?_, ((S.sess X).cells r).openPacket, hconv, hid.symm,
              .inl ⟨rfl, .inl (.inl ?_)⟩⟩
            · rw [hid]
              generalize S'.sess X = s' at hmove
              cases hmove with
              | sendOpen => exact hl
            · generalize S'.sess X = s' at hmove
              cases hmove with
              | sendOpen => exact outgoing_enqueued hqueue
        · rw [hcell] at hpc
          cases hpc
        · rw [hcell] at hpc
          cases hpc
      · rw [heq] at hr hpc
        have hch₀ : ((S.sess X).cells r).ackCh = false := by rwa [heq] at hch
        have hc := hA.coming (fun Y => hm.not_closed (hopen Y)) X r hr hpc hch₀
        exact ackComing_move hS hA hm hopen hr hpc hch hc

/-- Every STREAM_OPEN that reaches the peer passes `acceptPeerOpen`; and while both sessions are
open, the ACK of every open that waits is on its way to it.
SOURCE: mux_session.go:111-172, 408-460, 736-758 -/
theorem opens_accepted {config : Role → MuxConfig} (h : SystemReach config ReissuesVacant S)
    (X : Role) :
    (∀ p, (S.sess X).reader = .frame p → p.isOpen = true →
      (S.sess X).table.get p.frame.streamID = none ∧
        (S.sess X).table.ownsID p.frame.streamID = false ∧
        (S.sess X).step .reader = some ((S.sess X).setReader (.acceptInsert p))) ∧
      ((∀ Y, (S.sess Y).closed = false) → ∀ r < (S.sess X).nextRef,
        ((S.sess X).cells r).openPc = .wait → ((S.sess X).cells r).ackCh = false →
          AckComing S X r) := by
  constructor
  · intro p hrd hopen
    obtain ⟨hget, hown⟩ := open_vacant h hrd hopen
    refine ⟨hget, hown, ?_⟩
    obtain ⟨hcmd, hflag⟩ : p.frame.command = .streamOpen ∧ p.frame.flags.ack = false := by
      simpa [Packet.isOpen] using hopen
    simp [Session.step, Session.readerStep, hrd, Session.handleFrame, hcmd, hflag,
      Session.acceptPeerOpen, hget, hown]
  · intro hopen r hr hpc hch
    exact (awaited_reach h).coming hopen X r hr hpc hch

/-- The agent's open number `n` takes identifier 2, and its STREAM_OPEN reaches the relay. -/
def askRun (n : Ref) (payload : Bytes) : List (Role × Action) :=
  onSide .agent [.openStream payload, .openAlloc payload, .opening n .register,
    .opening n .enqueue] ++
  passRun .agent (frameTwo n .streamOpen {} payload)

theorem opens_accepted_reopened :
    ∃ S, SystemReach fourStreams ReissuesVacant S ∧
      (S.sess .relay).reader = .frame (frameTwo 1 .streamOpen {} [9]) ∧
      (S.sess .relay).table.get 2 = none ∧ ((S.sess .agent).cells 1).openPc = .wait ∧
      AckComing S .agent 1 := by
  have hex : ∃ S, SystemReach fourStreams ReissuesVacant S ∧
      (S.sess .relay).reader = .frame (frameTwo 1 .streamOpen {} [9]) ∧
      1 < (S.sess .agent).nextRef ∧ ((S.sess .agent).cells 1).openPc = .wait ∧
      ((S.sess .agent).cells 1).ackCh = false ∧ (S.sess .relay).closed = false ∧
      (S.sess .agent).closed = false :=
    exists_reach_of_exec (connectRun 0 [] ++ disconnectRun 0 ++ askRun 1 [9]) _ (by decide +kernel)
  obtain ⟨S, hS, hrd, hr, hpc, hch, hrelay, hagent⟩ := hex
  have hopen : ∀ Y, (S.sess Y).closed = false := by
    intro Y
    cases Y
    · exact hrelay
    · exact hagent
  exact ⟨S, hS, hrd, ((opens_accepted hS .relay).1 _ hrd rfl).1, hpc,
    (opens_accepted hS .agent).2 hopen 1 hr hpc hch⟩

/-- The relay closes first and the agent after it, so that identifier 2 is free at the agent before
the agent's STREAM_CLOSE is queued. The next open takes it. -/
def earlyReuseRun : List (Role × Action) :=
  connectRun 0 [] ++
  onSide .relay [.call 0 .close, .callback 0 .closeFin, .callback 0 .closeCheckClosed,
    .callback 0 .closeCheckReset, .drain 0 .fin, .drain 0 .next, .drain 0 .next] ++
  passRun .relay (frameTwo 0 .streamClose { fin := true } []) ++
  onSide .agent [.reader, .reader, .reader, .reader, .call 0 .close, .callback 0 .closeFin,
    .callback 0 .closeCheckClosed, .callback 0 .closeDelete] ++
  askRun 1 [9]

/-- The relay drops the second STREAM_OPEN; then the agent's STREAM_CLOSE for the first stream comes
in and the entry goes. -/
def droppedRun : List (Role × Action) :=
  earlyReuseRun ++ onSide .relay [.reader] ++
  onSide .agent [.drain 0 .fin, .drain 0 .next, .drain 0 .next] ++
  passRun .agent (frameTwo 0 .streamClose { fin := true } []) ++
  onSide .relay [.reader, .reader, .reader, .reader]

/-- The STREAM_OPEN finds its identifier in the map; in the end nothing is under way between the two
sides, the relay has no stream, and the open still waits. -/
theorem open_dropped :
    (∃ S, SystemReach fourStreams anyStep S ∧
      (S.sess .relay).reader = .frame (frameTwo 1 .streamOpen {} [9]) ∧
      (S.sess .relay).table.get 2 = some 0) ∧
    ∃ S, SystemReach fourStreams anyStep S ∧ ((S.sess .agent).cells 1).openPc = .wait ∧
      ((S.sess .agent).cells 1).ackCh = false ∧ (S.sess .relay).table.get 2 = none ∧
      ∀ X ∈ [Role.relay, Role.agent], (S.sess X).packets = [] ∧ S.wire X = [] ∧
        (S.sess X).reader = .idle ∧ (S.sess X).closed = false :=
  ⟨exists_reach_of_exec earlyReuseRun _ (by decide +kernel),
    exists_reach_of_exec droppedRun _ (by decide +kernel)⟩

end Atlax.Analysis
