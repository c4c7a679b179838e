import Atlax.Analysis.Attribution

/-!
# The opening handshake

A STREAM_OPEN carries the identifier and the payload of the stream it asks for, a stream made for
a peer's open has both, and an ACK is sent only for such a stream. That much holds in every run.
Which open an ACK completes is decided by identifier alone: it is the open the ACK answers in every
run in which an identifier is handed out only when no STREAM_OPEN or ACK with it is under way and
no other open with it is about to send one.
-/

set_option autoImplicit false

namespace Atlax.Analysis

open Atlax.Model Atlax.Library

variable {p : Packet}

/-- The peer has made a stream from the STREAM_OPEN of the open `r` of `X`: it has the identifier
and the payload that call was given. -/
def Created (S : System) (X : Role) (r : Ref) : Prop :=
  ∃ r' < (S.sess X.peer).nextRef,
    ((S.sess X.peer).cells r').conv = some ⟨X, r⟩ ∧
    ((S.sess X.peer).cells r').stream.id = ((S.sess X).cells r).stream.id ∧
    ((S.sess X.peer).cells r').stream.openPayload = ((S.sess X).cells r).hist.openArg

/-- What holds of the handshake in every run. -/
structure OpensFaithful (S : System) : Prop where
  opens : ∀ X p, SentBy S X p → p.isOpen = true →
    ∃ r < (S.sess X).nextRef, p.conv = some ⟨X, r⟩ ∧
      p.frame.streamID = ((S.sess X).cells r).stream.id ∧
      p.frame.payload = ((S.sess X).cells r).hist.openArg ∧
      ((S.sess X).cells r).openPc ≠ .accepted
  accepted : ∀ Y, ∀ r' < (S.sess Y).nextRef, ((S.sess Y).cells r').openPc = .accepted →
    ∃ r < (S.sess Y.peer).nextRef, ((S.sess Y).cells r').conv = some ⟨Y.peer, r⟩ ∧
      ((S.sess Y).cells r').stream.id = ((S.sess Y.peer).cells r).stream.id ∧
      ((S.sess Y).cells r').stream.openPayload = ((S.sess Y.peer).cells r).hist.openArg ∧
      ((S.sess Y.peer).cells r).openPc ≠ .accepted
  accepting : ∀ Y r' p, (S.sess Y).reader = .acceptAck r' p → ((S.sess Y).cells r').conv = p.conv
  acks : ∀ Y p, SentBy S Y p → p.isAck = true →
    ∃ r < (S.sess Y.peer).nextRef, p.conv = some ⟨Y.peer, r⟩ ∧ Created S Y.peer r

variable {S S' : System} {X : Role} {a : Action} {Y : Role} {r : Ref} {i : ℕ}

theorem acceptedCell_openPayload (s : Session) (p : Packet) :
    (s.acceptedCell p).stream.openPayload = p.frame.payload := by
  unfold Session.acceptedCell
  dsimp only
  split
  · next h => simp [StreamSession.opened, newStreamSession, h]
  · rfl

/-- Where an OPEN on its way out comes from. -/
theorem produced_open {s : Session} (h : Produced s p) (hp : p.isOpen = true) :
    ∃ r < s.nextRef, (s.cells r).openPc = .enqueue ∧ p = (s.cells r).openPacket := by
  cases h with
  | openPacket r hr hpc => exact ⟨r, hr, hpc, rfl⟩
  | conn command payload hc =>
    rcases hc with rfl | rfl | rfl | rfl <;> simp [Packet.isOpen, connPacket] at hp
  | _ =>
    simp [Packet.isOpen, Cell.ackPacket, Cell.dataPacket, Cell.closePacket, Cell.resetPacket,
      rejectPacket] at hp

/-- Where an ACK on its way out comes from. -/
theorem produced_ack {s : Session} (h : Produced s p) (hp : p.isAck = true) :
    ∃ r q, s.reader = .acceptAck r q ∧ p = (s.cells r).ackPacket := by
  cases h with
  | ack r q hrd => exact ⟨r, q, hrd, rfl⟩
  | conn command payload hc =>
    rcases hc with rfl | rfl | rfl | rfl <;> simp [Packet.isAck, connPacket] at hp
  | _ =>
    simp [Packet.isAck, Cell.openPacket, Cell.dataPacket, Cell.closePacket, Cell.resetPacket,
      rejectPacket] at hp

theorem created_mono (hm : SysMove S X a S') (hr : r < (S.sess Y).nextRef)
    (h : Created S Y r) : Created S' Y r := by
  obtain ⟨r', hr', hc, hid, hp⟩ := h
  have hev := hm.evolves hr
  have hev' := hm.evolves hr'
  refine ⟨r', Nat.lt_of_lt_of_le hr' (hm.nextRef _), hev'.conv.trans hc, ?_, ?_⟩
  · rw [hev'.id, hev.id, hid]
  · rw [hev'.openPayload, hev.openArg, hp]

theorem opensFaithful_move (hw : ∀ Y, WellFormed (S.sess Y)) (hrole : ∀ Y, (S.sess Y).role = Y)
    (h : OpensFaithful S) (hm : SysMove S X a S') : OpensFaithful S' := by
  -- what an open asked for stays what it asked for
  have keep : ∀ {Y : Role} {r : Ref} {i : ℕ} {b : Bytes}, r < (S.sess Y).nextRef →
      i = ((S.sess Y).cells r).stream.id → b = ((S.sess Y).cells r).hist.openArg →
      ((S.sess Y).cells r).openPc ≠ .accepted →
      r < (S'.sess Y).nextRef ∧ i = ((S'.sess Y).cells r).stream.id ∧
        b = ((S'.sess Y).cells r).hist.openArg ∧ ((S'.sess Y).cells r).openPc ≠ .accepted := by
    intro Y r i b hr hi hb hpc
    have hev := hm.evolves hr
    exact ⟨Nat.lt_of_lt_of_le hr (hm.nextRef Y), by rw [hev.id, hi], by rw [hev.openArg, hb],
      fun hacc => hpc (hev.accepted.mp hacc)⟩
  constructor
  · intro Y p hp hopen
    obtain ⟨r, hr, hc, hid, hb, hpc⟩ : ∃ r < (S.sess Y).nextRef, p.conv = some ⟨Y, r⟩ ∧
        p.frame.streamID = ((S.sess Y).cells r).stream.id ∧
        p.frame.payload = ((S.sess Y).cells r).hist.openArg ∧
        ((S.sess Y).cells r).openPc ≠ .accepted := by
      rcases hm.sentBy hp with hp | ⟨rfl, hp⟩
      · exact h.opens Y p hp hopen
      · obtain ⟨r, hr, hpc, rfl⟩ := produced_open hp hopen
        have hacc : ((S.sess Y).cells r).openPc ≠ .accepted := by simp [hpc]
        refine ⟨r, hr, ?_, rfl, rfl, hacc⟩
        have hconv := (hw Y).conv r hr hacc
        rw [hrole Y] at hconv
        exact hconv
    obtain ⟨hr', hid', hb', hpc'⟩ := keep hr hid hb hpc
    exact ⟨r, hr', hc, hid', hb', hpc'⟩
  · intro Y r' hr' hacc
    obtain ⟨r, hr, hc, hid, hb, hpc⟩ : ∃ r < (S.sess Y.peer).nextRef,
        ((S'.sess Y).cells r').conv = some ⟨Y.peer, r⟩ ∧
        ((S'.sess Y).cells r').stream.id = ((S.sess Y.peer).cells r).stream.id ∧
        ((S'.sess Y).cells r').stream.openPayload = ((S.sess Y.peer).cells r).hist.openArg ∧
        ((S.sess Y.peer).cells r).openPc ≠ .accepted := by
      by_cases hold : r' < (S.sess Y).nextRef
      · have hev := hm.evolves hold
        obtain ⟨r, hr, hc, hid, hb, hpc⟩ := h.accepted Y r' hold (hev.accepted.mp hacc)
        exact ⟨r, hr, hev.conv.trans hc, hev.id.trans hid, hev.openPayload.trans hb, hpc⟩
      · rcases hm.sess Y with ⟨rfl, hmove⟩ | heq
        · rcases move_new hmove hr' with hlt | ⟨_, ⟨_, _, hcell⟩ | ⟨p, _, hrd, hcell⟩⟩
          · exact absurd hlt hold
          · rw [hcell] at hacc
            cases hacc
          · have hp : SentBy S Y.peer p := .inr (.inr (by rw [Role.peer_peer, hrd]; rfl))
            have hk := (hw Y).kind
            rw [hrd] at hk
            rw [hcell, acceptedCell_id, acceptedCell_openPayload]
            exact h.opens Y.peer p hp hk
        · rw [heq] at hr'
          exact absurd hr' hold
    obtain ⟨hr', hid', hb', hpc'⟩ := keep hr hid hb hpc
    exact ⟨r, hr', hc, hid', hb', hpc'⟩
  · intro Y r' p hrd
    rcases hm.sess Y with ⟨rfl, hmove⟩ | heq
    · rcases move_acceptAck hmove hrd with hrd | ⟨_, rfl, hcell⟩
      · have hst : (S.sess Y).reader.stream = some (r', p) := by rw [hrd]; rfl
        rw [(hm.evolves ((hw Y).reader r' p hst).1).conv]
        exact h.accepting Y r' p hrd
      · rw [hcell]
        rfl
    · rw [heq] at hrd ⊢
      exact h.accepting Y r' p hrd
  · intro Y p hp hack
    obtain ⟨r, hr, hc, hcr⟩ : ∃ r < (S.sess Y.peer).nextRef, p.conv = some ⟨Y.peer, r⟩ ∧
        Created S Y.peer r := by
      rcases hm.sentBy hp with hp | ⟨rfl, hp⟩
      · exact h.acks Y p hp hack
      · obtain ⟨r', q, hrd, rfl⟩ := produced_ack hp hack
        have hst : (S.sess Y).reader.stream = some (r', q) := by rw [hrd]; rfl
        have hr' := ((hw Y).reader r' q hst).1
        obtain ⟨r, hr, hc, hid, hb, _⟩ :=
          h.accepted Y r' hr' ((hw Y).accepting r' q (.inl hrd))
        refine ⟨r, hr, hc, r', ?_, ?_⟩
        · rwa [Role.peer_peer]
        · rw [Role.peer_peer]
          exact ⟨hc, hid, hb⟩
    exact ⟨r, Nat.lt_of_lt_of_le hr (hm.nextRef _), hc, created_mono hm hr hcr⟩

theorem not_sentBy_new (config : Role → MuxConfig) (Y : Role) (p : Packet) :
    ¬ SentBy (newSystem config) Y p := by
  rintro ((h | h) | h)
  · rcases h with h | h <;> cases h
  · cases h
  · rcases h with h | h <;> cases h

theorem opensFaithful_reach {config : Role → MuxConfig} {ok : System → Role × Action → Prop}
    (h : SystemReach config ok S) : OpensFaithful S := by
  refine Reach.invariant OpensFaithful h ?_ ?_
  · constructor
    · intro Y p hp
      exact absurd hp (not_sentBy_new config Y p)
    · intro Y r hr
      cases hr
    · intro Y r p hrd
      cases hrd
    · intro Y p hp
      exact absurd hp (not_sentBy_new config Y p)
  · rintro S ⟨X, a⟩ S' hr hF _ hstep
    exact opensFaithful_move (system_wellFormed hr) (system_role hr) hF (system_move hstep)

/-- A STREAM_OPEN or an ACK. -/
def isHandshake (p : Packet) : Bool := p.isOpen || p.isAck

/-- An open that has yet to send its STREAM_OPEN, or a STREAM_OPEN or ACK under way, under the
identifier `i` for the conversation `c`. -/
def Handshaking (S : System) (i : ℕ) (c : Option Conv) : Prop :=
  ∃ X, (∃ r < (S.sess X).nextRef,
      (((S.sess X).cells r).openPc = .register ∨ ((S.sess X).cells r).openPc = .enqueue) ∧
      ((S.sess X).cells r).stream.id = i ∧ c = some ⟨X, r⟩) ∨
    ∃ p, SentBy S X p ∧ isHandshake p = true ∧ p.frame.streamID = i ∧ p.conv = c

/-- No handshake is under way for the identifier. -/
def IDUnasked (S : System) (i : ℕ) : Prop :=
  ∀ X ∈ [Role.relay, Role.agent],
    (∀ r < (S.sess X).nextRef, ((S.sess X).cells r).stream.id = i →
      ((S.sess X).cells r).openPc ≠ .register ∧ ((S.sess X).cells r).openPc ≠ .enqueue) ∧
    ∀ p ∈ (S.sess X).packets ++ S.wire X, isHandshake p = true → p.frame.streamID ≠ i

instance (S : System) (i : ℕ) : Decidable (IDUnasked S i) := by
  unfold IDUnasked
  infer_instance

theorem IDUnasked.not_handshaking (h : IDUnasked S i) (c : Option Conv) :
    ¬ Handshaking S i c := by
  have side : ∀ Y : Role, Y ∈ [Role.relay, Role.agent] := by
    intro Y
    cases Y <;> simp
  rintro ⟨Y, ⟨r, hr, hpc, hid, _⟩ | ⟨p, hp, hs, hid, _⟩⟩
  · have hq := (h Y (side Y)).1 r hr hid
    exact hpc.elim hq.1 hq.2
  · rcases hp with hp | hp | hp
    · exact (h Y (side Y)).2 p (List.mem_append_left _ (mem_packets.mpr (.inl hp))) hs hid
    · exact (h Y (side Y)).2 p (List.mem_append_right _ hp) hs hid
    · exact (h Y.peer (side _)).2 p (List.mem_append_left _ (mem_packets.mpr (.inr hp))) hs hid

/-- `OpenStream` hands out an identifier only when no handshake is under way for it.
SOURCE: mux_session.go:116-141 -/
def ReissuesUnasked (S : System) : Role × Action → Prop
  | (X, .openAlloc _) =>
    (S.sess X).table.streams.entries.length < (S.sess X).config.maxConcurrentStreams →
      IDUnasked S (S.sess X).table.allocID.1
  | _ => True

instance (S : System) : DecidablePred (ReissuesUnasked S)
  | (X, a) => by
    unfold ReissuesUnasked
    induction a <;> infer_instance

/-- A handshake that is under way after a step was so before it, except that of the stream the step
makes. -/
theorem handshaking_move (hw : ∀ Y, WellFormed (S.sess Y)) (hrole : ∀ Y, (S.sess Y).role = Y)
    (hF : OpensFaithful S) (hm : SysMove S X a S') {c : Option Conv}
    (h : Handshaking S' i c) :
    Handshaking S i c ∨
      ∃ payload, a = .openAlloc payload ∧ i = (S.sess X).table.allocID.1 ∧
        c = some ⟨X, (S.sess X).nextRef⟩ ∧
        (S.sess X).table.streams.entries.length < (S.sess X).config.maxConcurrentStreams := by
  obtain ⟨Y, ⟨r, hr, hpc, hid, rfl⟩ | ⟨p, hp, hs, rfl, rfl⟩⟩ := h
  · rcases hm.sess Y with ⟨rfl, hmove⟩ | heq
    · rcases move_new hmove hr with hold | ⟨rfl, _⟩
      · rw [(move_evolves hmove r hold).id] at hid
        have hpc' : ((S.sess Y).cells r).openPc = .register ∨
            ((S.sess Y).cells r).openPc = .enqueue := by
          rcases move_unsent hmove hold hpc with heq | ⟨_, hreg⟩
          · rwa [heq]
          · exact .inl hreg
        exact .inl ⟨Y, .inl ⟨r, hold, hpc', hid, rfl⟩⟩
      · rcases (move_fresh hmove hr).2 with ⟨payload, rfl, _, hlen, hcell⟩ | ⟨p, _, _, _, hcell⟩
        · rw [hcell] at hid
          exact .inr ⟨payload, rfl, hid.symm, rfl, hlen⟩
        · rw [hcell] at hpc
          rcases hpc with hpc | hpc <;> cases hpc
    · rw [heq] at hr hpc hid
      exact .inl ⟨Y, .inl ⟨r, hr, hpc, hid, rfl⟩⟩
  · rcases hm.sentBy hp with hp | ⟨rfl, hp⟩
    · exact .inl ⟨Y, .inr ⟨p, hp, hs, rfl, rfl⟩⟩
    · rcases Bool.or_eq_true_iff.mp hs with hopen | hack
      · obtain ⟨r, hr, hpc, rfl⟩ := produced_open hp hopen
        have hconv := (hw Y).conv r hr (by simp [hpc])
        rw [hrole Y] at hconv
        exact .inl ⟨Y, .inl ⟨r, hr, .inr hpc, rfl, hconv⟩⟩
      · obtain ⟨r, q, hrd, rfl⟩ := produced_ack hp hack
        have hst : (S.sess Y).reader.stream = some (r, q) := by rw [hrd]; rfl
        have hk := (hw Y).kind
        rw [hrd] at hk
        refine .inl ⟨Y.peer, .inr ⟨q, .inr (.inr ?_), ?_, ((hw Y).reader r q hst).2.symm, ?_⟩⟩
        · rw [Role.peer_peer, hrd]
          rfl
        · exact Bool.or_eq_true_iff.mpr (.inl hk)
        · exact (hF.accepting Y r q hrd).symm

/-- The opens and the ACKs that may complete them. -/
structure Matched (S : System) : Prop where
  uniform : Uniform (Handshaking S)
  pending : ∀ X i r, (S.sess X).pendingOpen.lookup i = some r → ∀ Z p, SentBy S Z p →
    isHandshake p = true → p.frame.streamID = i → p.conv = some ⟨X, r⟩
  registered : ∀ X, ∀ r < (S.sess X).nextRef, ((S.sess X).cells r).openPc = .enqueue →
    ∀ r', (S.sess X).pendingOpen.lookup ((S.sess X).cells r).stream.id = some r' → r' = r
  ackSend : ∀ X r, (S.sess X).reader = .ackSend r → Created S X r
  ackCh : ∀ X, ∀ r < (S.sess X).nextRef, ((S.sess X).cells r).ackCh = true → Created S X r
  returned : ∀ X, ∀ r < (S.sess X).nextRef, ((S.sess X).cells r).openPc = .returned →
    Created S X r

theorem matched_uniform_move (hw : ∀ Y, WellFormed (S.sess Y)) (hrole : ∀ Y, (S.sess Y).role = Y)
    (hF : OpensFaithful S) (h : Matched S) (hok : ReissuesUnasked S (X, a))
    (hm : SysMove S X a S') : Uniform (Handshaking S') := by
  refine h.uniform.step ?_ (fun i c => handshaking_move hw hrole hF hm) ?_
  · rintro i c c' ⟨_, _, _, rfl, _⟩ ⟨_, _, _, rfl, _⟩
    rfl
  · rintro i c c' ⟨payload, rfl, rfl, _, hlen⟩
    exact (hok hlen).not_handshaking c'

/-- The two sides never open streams under one identifier. -/
theorem opened_parity (hw : ∀ Y, WellFormed (S.sess Y)) (hrole : ∀ Y, (S.sess Y).role = Y)
    {r r' : Ref} (hr : r < (S.sess X).nextRef) (hr' : r' < (S.sess X.peer).nextRef)
    (hpc : ((S.sess X).cells r).openPc ≠ .accepted)
    (hpc' : ((S.sess X.peer).cells r').openPc ≠ .accepted) :
    ((S.sess X).cells r).stream.id ≠ ((S.sess X.peer).cells r').stream.id := by
  have h := ((hw X).ownsID_iff _).mp (((hw X).owned r hr).mpr hpc)
  have h' := ((hw X.peer).ownsID_iff _).mp (((hw X.peer).owned r' hr').mpr hpc')
  rw [hrole] at h h'
  intro heq
  rw [heq, h'] at h
  cases X <;> simp [Role.peer, startID] at h

/-- No side asks for an identifier of the other. -/
theorem OpensFaithful.foreign (hF : OpensFaithful S) (hw : ∀ Y, WellFormed (S.sess Y))
    (hrole : ∀ Y, (S.sess Y).role = Y) (hp : SentBy S X.peer p)
    (hopen : p.isOpen = true) : (S.sess X).table.ownsID p.frame.streamID = false := by
  obtain ⟨r, hr, _, hid, _, hpc⟩ := hF.opens X.peer p hp hopen
  have hpeer := ((hw X.peer).ownsID_iff _).mp (((hw X.peer).owned r hr).mpr hpc)
  rw [← hid, hrole] at hpeer
  by_contra hown
  have hself := ((hw X).ownsID_iff _).mp (Bool.not_eq_false _ ▸ hown)
  rw [hrole, hpeer] at hself
  cases X <;> simp [Role.peer, startID] at hself

/-- The packets of a handshake belong to the open that is registered for them. -/
theorem matched_pending_move (hw : ∀ Y, WellFormed (S.sess Y)) (hrole : ∀ Y, (S.sess Y).role = Y)
    (hF : OpensFaithful S) (h : Matched S) (hm : SysMove S X a S')
    (hunif : Uniform (Handshaking S'))
    (hl : (S'.sess Y).pendingOpen.lookup i = some r) {Z : Role} (hp : SentBy S' Z p)
    (hs : isHandshake p = true) (hid : p.frame.streamID = i) : p.conv = some ⟨Y, r⟩ := by
  by_cases hold : (S.sess Y).pendingOpen.lookup i = some r
  · rcases hm.sentBy hp with hp | ⟨rfl, hp⟩
    · exact h.pending Y i r hold Z p hp hs hid
    · obtain ⟨hr, hid', hpc⟩ := (hw Y).pendingOpen i r hold
      rcases Bool.or_eq_true_iff.mp hs with hopen | hack
      · -- a STREAM_OPEN under the identifier comes from the side that owns it, and there from the
        -- open that has registered last
        obtain ⟨r', hr', hpc', rfl⟩ := produced_open hp hopen
        have hconv := (hw Z).conv r' hr' (by simp [hpc'])
        rw [hrole Z] at hconv
        rcases Role.eq_or_eq_peer Y Z with rfl | rfl
        · have hid₀ : ((S.sess Z).cells r').stream.id = i := hid
          have hreg := h.registered Z r' hr' hpc' r (by rw [hid₀]; exact hold)
          rw [hreg]
          exact hconv
        · exact absurd (hid'.trans hid.symm)
            (opened_parity hw hrole hr hr' hpc (by simp [hpc']))
      · obtain ⟨r', q, hrd, rfl⟩ := produced_ack hp hack
        have hst : (S.sess Z).reader.stream = some (r', q) := by rw [hrd]; rfl
        have hk := (hw Z).kind
        rw [hrd] at hk
        have hq : SentBy S Z.peer q := .inr (.inr (by rw [Role.peer_peer, hrd]; rfl))
        have hqid : q.frame.streamID = i := ((hw Z).reader r' q hst).2.symm.trans hid
        have hqc := h.pending Y i r hold _ q hq (Bool.or_eq_true_iff.mpr (.inl hk)) hqid
        exact (hF.accepting Z r' q hrd).trans hqc
  · -- the open has just registered and has not sent its own STREAM_OPEN yet
    rcases hm.sess Y with ⟨rfl, hmove⟩ | heq
    · rcases move_pendingOpen hmove hl with hl | ⟨rfl, hr, _, hid'⟩
      · exact absurd hl hold
      · have hpc : ((S'.sess Y).cells r).openPc = .enqueue := by
          generalize S'.sess Y = s' at hmove
          cases hmove with
          | register => simp
        have hcell : Handshaking S' i (some ⟨Y, r⟩) :=
          ⟨Y, .inl ⟨r, Nat.lt_of_lt_of_le hr (hm.nextRef Y), .inr hpc,
            (hm.evolves hr).id.trans hid', rfl⟩⟩
        exact hunif i _ _ ⟨Z, .inr ⟨p, hp, hs, hid, rfl⟩⟩ hcell
    · rw [heq] at hl
      exact absurd hl hold

theorem matched_registered_move (h : Matched S)
    (hm : SysMove S X a S') (hr : r < (S'.sess Y).nextRef)
    (hpc : ((S'.sess Y).cells r).openPc = .enqueue) {r' : Ref}
    (hl : (S'.sess Y).pendingOpen.lookup ((S'.sess Y).cells r).stream.id = some r') : r' = r := by
  rcases hm.sess Y with ⟨rfl, hmove⟩ | heq
  · rcases move_new hmove hr with hold | ⟨rfl, ⟨_, _, hcell⟩ | ⟨_, _, _, hcell⟩⟩
    · rw [(move_evolves hmove r hold).id] at hl
      rcases move_unsent hmove hold (.inr hpc) with heq | ⟨rfl, _⟩
      · rcases move_pendingOpen hmove hl with hl | ⟨_, hr', hpc', hid⟩
        · exact h.registered Y r hold (heq.trans hpc) r' hl
        · -- another open with the identifier is about to send its own STREAM_OPEN
          have h₁ : Handshaking S ((S.sess Y).cells r).stream.id (some ⟨Y, r⟩) :=
            ⟨Y, .inl ⟨r, hold, .inr (heq.trans hpc), rfl, rfl⟩⟩
          have h₂ : Handshaking S ((S.sess Y).cells r).stream.id (some ⟨Y, r'⟩) :=
            ⟨Y, .inl ⟨r', hr', .inl hpc', hid, rfl⟩⟩
          simpa using h.uniform _ _ _ h₂ h₁
      · generalize S'.sess Y = s' at hmove hl
        cases hmove with
        | register => simpa using hl.symm
    · rw [hcell] at hpc
      cases hpc
    · rw [hcell] at hpc
      cases hpc
  · rw [heq] at hr hpc hl
    exact h.registered Y r hr hpc r' hl

theorem matched_move (hw : ∀ Y, WellFormed (S.sess Y)) (hrole : ∀ Y, (S.sess Y).role = Y)
    (hF : OpensFaithful S) (h : Matched S) (hok : ReissuesUnasked S (X, a))
    (hm : SysMove S X a S') : Matched S' := by
  have hunif := matched_uniform_move hw hrole hF h hok hm
  constructor
  · exact hunif
  · intro Y i r hl Z p hp hs hid
    exact matched_pending_move hw hrole hF h hm hunif hl hp hs hid
  · intro Y r hr hpc r' hl
    exact matched_registered_move h hm hr hpc hl
  · intro Y r hrd
    have hc : r < (S.sess Y).nextRef ∧ Created S Y r := by
      rcases hm.sess Y with ⟨rfl, hmove⟩ | heq
      · rcases move_ackSend hmove hrd with hrd | ⟨p, hrd, hack, hl⟩
        · exact ⟨((hw Y).ackSend r hrd).1, h.ackSend Y r hrd⟩
        · -- the ACK is matched by identifier; it answers the open that it is matched to
          have hp : SentBy S Y.peer p := .inr (.inr (by rw [Role.peer_peer, hrd]; rfl))
          have hconv := h.pending Y _ r hl _ p hp (Bool.or_eq_true_iff.mpr (.inr hack)) rfl
          obtain ⟨r', hr', hconv', hcr⟩ := hF.acks Y.peer p hp hack
          rw [Role.peer_peer] at hr' hconv' hcr
          rw [hconv] at hconv'
          cases hconv'
          exact ⟨hr', hcr⟩
      · rw [heq] at hrd
        exact ⟨((hw Y).ackSend r hrd).1, h.ackSend Y r hrd⟩
    exact created_mono hm hc.1 hc.2
  · intro Y r hr hch
    rcases hm.sess Y with ⟨rfl, hmove⟩ | heq
    · rcases move_new hmove hr with hold | ⟨rfl, ⟨_, _, hcell⟩ | ⟨_, _, _, hcell⟩⟩
      · rcases move_ackCh hmove hold hch with hch | hrd
        · exact created_mono hm hold (h.ackCh Y r hold hch)
        · exact created_mono hm hold (h.ackSend Y r hrd)
      · rw [hcell] at hch
        cases hch
      · rw [hcell] at hch
        cases hch
    · rw [heq] at hr hch
      exact created_mono hm hr (h.ackCh Y r hr hch)
  · intro Y r hr hpc
    rcases hm.sess Y with ⟨rfl, hmove⟩ | heq
    · rcases move_new hmove hr with hold | ⟨rfl, ⟨_, _, hcell⟩ | ⟨_, _, _, hcell⟩⟩
      · rcases move_returned hmove hold hpc with hpc | hch
        · exact created_mono hm hold (h.returned Y r hold hpc)
        · exact created_mono hm hold (h.ackCh Y r hold hch)
      · rw [hcell] at hpc
        cases hpc
      · rw [hcell] at hpc
        cases hpc
    · rw [heq] at hr hpc
      exact created_mono hm hr (h.returned Y r hr hpc)

/-- Every accepted stream was opened, in every run. -/
theorem matched_reach {config : Role → MuxConfig} (h : SystemReach config ReissuesUnasked S) :
    Matched S := by
  refine Reach.invariant Matched h ?_ ?_
  · constructor
    · rintro i c c' ⟨Y, ⟨r, hr, _⟩ | ⟨p, hp, _⟩⟩
      · cases hr
      · exact absurd hp (not_sentBy_new config Y p)
    · intro Y i r hl
      cases hl
    · intro Y r hr
      cases hr
    · intro Y r hrd
      cases hrd
    · intro Y r hr
      cases hr
    · intro Y r hr
      cases hr
  · rintro S ⟨X, a⟩ S' hr hM hok hstep
    exact matched_move (system_wellFormed hr) (system_role hr) (opensFaithful_reach hr) hM hok
      (system_move hstep)

/-- An open that returns its stream has been answered by the peer it asked: the peer holds a stream
made from its STREAM_OPEN, under its identifier and with its payload; and the ACK that completes
an open was sent for it.
SOURCE: mux_session.go:111-172, 408-460 -/
theorem open_returns_created {config : Role → MuxConfig}
    (h : SystemReach config ReissuesUnasked S) (X : Role) :
    (∀ r < (S.sess X).nextRef, ((S.sess X).cells r).openPc = .returned → Created S X r) ∧
      ∀ p r, (S.sess X).reader = .frame p → p.isAck = true →
        (S.sess X).pendingOpen.lookup p.frame.streamID = some r → p.conv = some ⟨X, r⟩ := by
  have hM := matched_reach h
  refine ⟨hM.returned X, ?_⟩
  intro p r hrd hack hl
  have hp : SentBy S X.peer p := .inr (.inr (by rw [Role.peer_peer, hrd]; rfl))
  exact hM.pending X _ r hl _ p hp (Bool.or_eq_true_iff.mpr (.inr hack)) rfl

theorem open_returns_created_reopened :
    ∃ S, SystemReach fourStreams ReissuesUnasked S ∧ ((S.sess .agent).cells 1).openPc = .returned ∧
      Created S .agent 1 := by
  have hex : ∃ S, SystemReach fourStreams ReissuesUnasked S ∧
      ((S.sess .agent).cells 1).openPc = .returned ∧ 1 < (S.sess .agent).nextRef :=
    exists_reach_of_exec (connectRun 0 [1] ++ disconnectRun 0 ++ connectRun 1 [9]) _
      (by decide +kernel)
  obtain ⟨S, hS, hpc, hr⟩ := hex
  exact ⟨S, hS, hpc, (open_returns_created hS .agent).1 1 hr hpc⟩

/-- The agent's first open is cancelled after the relay has accepted it; the second takes over its
identifier and its ACK. -/
def staleAckRun : List (Role × Action) :=
  onSide .agent [.openStream [1], .openAlloc [1], .opening 0 .register, .opening 0 .enqueue] ++
  passRun .agent (frameTwo 0 .streamOpen {} [1]) ++
  onSide .relay [.reader, .reader, .reader, .reader] ++
  onSide .agent [.opening 0 .cancel, .opening 0 .cleanup, .opening 0 .remove, .opening 0 .reset,
    .openStream [9], .openAlloc [9], .opening 1 .register, .opening 1 .enqueue] ++
  passRun .relay (frameTwo 0 .streamOpen { ack := true } []) ++
  onSide .agent [.reader, .reader, .opening 1 .ack]

/-- The open for `[9]` returns, and the only stream the relay has made is the one for `[1]`. -/
theorem open_returns_stale :
    ∃ S, SystemReach fourStreams anyStep S ∧ ((S.sess .agent).cells 1).openPc = .returned ∧
      ((S.sess .agent).cells 1).hist.openArg = [9] ∧ (S.sess .relay).nextRef = 1 ∧
      ((S.sess .relay).cells 0).conv ≠ some ⟨.agent, 1⟩ ∧
      ((S.sess .relay).cells 0).stream.openPayload = [1] :=
  exists_reach_of_exec staleAckRun _ (by decide +kernel)

end Atlax.Analysis
