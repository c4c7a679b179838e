import Atlax.Analysis.Flight
import Atlax.Analysis.Mapped
import Atlax.Analysis.Opening

/-!
# One stream for one open

An open is a token. It lies with the call until the STREAM_OPEN is queued, then with the frame, then
with the stream the peer makes of it; on the way it may get lost, but no step makes a second one. So
the peer holds at most one stream of a conversation, and none while the STREAM_OPEN is under way.

With that, an identifier that is quiet when it is handed out is settled on both sides, when it is
handed out and when the peer accepts it.
-/

set_option autoImplicit false

namespace Atlax.Analysis

open Atlax.Model Atlax.Library

variable {config : Role → MuxConfig} {ok : System → Role × Action → Prop} {c : Conv} {r : Ref}
    {p : Packet}

/-- A STREAM_OPEN of the conversation. -/
def asks (c : Conv) (p : Packet) : Bool := p.isOpen && decide (p.conv = some c)

/-- The call has not queued its STREAM_OPEN yet. -/
def unsent (pc : OpenPc) : Bool := decide (pc = .register ∨ pc = .enqueue)

/-- The streams of a session that belong to the conversation. -/
def streamsOf (s : Session) (c : Conv) : ℕ :=
  (List.range s.nextRef).countP fun r => decide ((s.cells r).conv = some c)

/-- Where the open `r` of `X` may be: with the call, under way, or with the peer. -/
def openTokens (S : System) (X : Role) (r : Ref) : ℕ :=
  (unsent ((S.sess X).cells r).openPc).toNat + (S.flight X).countP (asks ⟨X, r⟩) +
    streamsOf (S.sess X.peer) ⟨X, r⟩

variable {s s' : Session} {a : Action} {S S' : System} {X : Role}

theorem one_le_streamsOf (hr : r < s.nextRef) (h : (s.cells r).conv = some c) : 1 ≤ streamsOf s c :=
  List.countP_pos_iff.mpr ⟨r, List.mem_range.mpr hr, by simpa using h⟩

theorem streamsOf_eq_zero (h : ∀ r < s.nextRef, (s.cells r).conv ≠ some c) :
    streamsOf s c = 0 := by
  refine List.countP_eq_zero.mpr fun r hr => ?_
  simpa using h r (List.mem_range.mp hr)

theorem move_nextRef_cases (hm : Move s a s') :
    s'.nextRef = s.nextRef ∨ s'.nextRef = s.nextRef + 1 := by
  cases hm with
  | openAlloc | acceptInsert => exact .inr rfl
  | _ => exact .inl rfl

/-- The streams of a conversation after a step: those before it, and the one it makes. -/
theorem streamsOf_move (hm : Move s a s') (c : Conv) :
    streamsOf s' c = streamsOf s c +
      (decide (s.nextRef < s'.nextRef ∧ (s'.cells s.nextRef).conv = some c)).toNat := by
  have hold : (List.range s.nextRef).countP (fun r => decide ((s'.cells r).conv = some c)) =
      streamsOf s c := by
    refine List.countP_congr fun r hr => ?_
    rw [(move_evolves hm r (List.mem_range.mp hr)).conv]
  unfold streamsOf at hold ⊢
  rcases move_nextRef_cases hm with heq | heq
  · rw [heq, hold]
    simp
  · rw [heq, List.range_succ, List.countP_append, hold]
    by_cases hc : (s'.cells s.nextRef).conv = some c <;> simp [hc]

theorem unsent_move (hm : Move s a s') (hr : r < s.nextRef)
    (h : unsent (s'.cells r).openPc = true) : unsent (s.cells r).openPc = true := by
  simp only [unsent, decide_eq_true_eq] at h ⊢
  rcases move_unsent hm hr h with heq | ⟨_, hpc⟩
  · rwa [heq]
  · exact .inl hpc

/-- A packet that is queued is the STREAM_OPEN of a call only if that call queues it. -/
theorem asks_queuedBy (hw : WellFormed s) (hp : QueuedBy s a p) (h : asks ⟨s.role, r⟩ p = true) :
    a = .opening r .enqueue ∧ r < s.nextRef ∧ (s.cells r).openPc = .enqueue := by
  cases hp with
  | openPacket r' hr' hpc =>
    have hconv := hw.conv r' hr' (by simp [hpc])
    simp only [asks, Cell.openPacket, hconv, Bool.and_eq_true, decide_eq_true_eq,
      Option.some.injEq, Conv.mk.injEq, true_and] at h
    obtain ⟨_, rfl⟩ := h
    exact ⟨rfl, hr', hpc⟩
  | ack => simp [asks, Cell.ackPacket, Packet.isOpen] at h
  | drain r' hr' d c p hc =>
    cases hc <;> simp [asks, Cell.dataPacket, Cell.closePacket, Packet.isOpen] at h

theorem asks_inOrder (h : asks c p = true) : p.inOrder = true := by
  simp only [asks, Bool.and_eq_true] at h
  simp [Packet.inOrder, h.1]

theorem countP_asks_filter (c : Conv) (l : List Packet) :
    (l.filter Packet.inOrder).countP (asks c) = l.countP (asks c) := by
  rw [List.countP_filter]
  refine List.countP_congr fun p _ => ?_
  by_cases h : asks c p = true
  · simp [h, asks_inOrder h]
  · simp [h]

/-- The STREAM_OPENs of a conversation under way grow by one when its call queues it, and not
otherwise. -/
theorem flight_asks (hw : WellFormed (S.sess X)) (hrole : (S.sess X).role = X)
    (hctl : ControlUnordered (S.sess X)) (hm : SysMove S X a S') (r : Ref) :
    (S'.flight X).countP (asks ⟨X, r⟩) ≤ (S.flight X).countP (asks ⟨X, r⟩) ∨
      a = .opening r .enqueue ∧ r < (S.sess X).nextRef ∧
        ((S.sess X).cells r).openPc = .enqueue ∧
        (S'.flight X).countP (asks ⟨X, r⟩) ≤ (S.flight X).countP (asks ⟨X, r⟩) + 1 := by
  cases hm.sending hctl with
  | keep h | lose _ _ _ _ h => exact .inl (by rw [h])
  | cut h => exact .inl h.sublist.countP_le
  | queue p hp _ _ h =>
    rw [h, List.countP_append, countP_asks_filter, List.countP_singleton]
    by_cases hp' : asks ⟨X, r⟩ p = true
    · obtain ⟨ha, hr, hpc⟩ := asks_queuedBy hw hp (hrole.symm ▸ hp')
      exact .inr ⟨ha, hr, hpc, by simp [hp']⟩
    · exact .inl (by simp [hp'])

/-- The side that opens only passes its tokens on. -/
theorem openTokens_send (hw : WellFormed (S.sess X)) (hrole : (S.sess X).role = X)
    (hctl : ControlUnordered (S.sess X)) (hm : SysMove S X a S')
    (hr : r < (S.sess X).nextRef) : openTokens S' X r ≤ openTokens S X r := by
  unfold openTokens
  rw [hm.peer]
  rcases flight_asks hw hrole hctl hm r with hle | ⟨rfl, _, hpc, hle⟩
  · have hun : (unsent ((S'.sess X).cells r).openPc).toNat ≤
        (unsent ((S.sess X).cells r).openPc).toNat := by
      cases h : unsent ((S'.sess X).cells r).openPc with
      | false => exact Nat.zero_le _
      | true => rw [unsent_move hm.move hr h]
    omega
  · have hsent : unsent ((S'.sess X).cells r).openPc = false := by
      have hmove := hm.move
      generalize S'.sess X = s' at hmove
      cases hmove with
      | sendOpen => simp [unsent]
    have hun : unsent ((S.sess X).cells r).openPc = true := by simp [unsent, hpc]
    rw [hsent, hun]
    simp only [Bool.toNat_false, Bool.toNat_true]
    omega

/-- The side that accepts makes of a token one stream at most. -/
theorem openTokens_receive (hw : WellFormed (S.sess X.peer)) (hrole : (S.sess X.peer).role = X.peer)
    (hm : SysMove S X.peer a S') (r : Ref) : openTokens S' X r ≤ openTokens S X r := by
  have hX : S'.sess X = S.sess X := by simpa using hm.peer
  have hcount := streamsOf_move hm.move ⟨X, r⟩
  -- a new stream of the conversation is made from the packet the read loop holds
  have hnew : (S.sess X.peer).nextRef < (S'.sess X.peer).nextRef ∧
      ((S'.sess X.peer).cells (S.sess X.peer).nextRef).conv = some ⟨X, r⟩ →
      ∃ p, a = .reader ∧ (S.sess X.peer).reader = .acceptInsert p ∧ p.conv = some ⟨X, r⟩ := by
    rintro ⟨hlt, hconv⟩
    rcases (move_fresh hm.move hlt).2 with ⟨_, _, _, _, hc⟩ | ⟨p, ha, hrd, _, hc⟩
    · rw [hc] at hconv
      simp [Session.openedCell, hrole] at hconv
    · rw [hc] at hconv
      exact ⟨p, ha, hrd, hconv⟩
  -- whatever the read loop does, it only takes from the flight
  have hless : ∀ l, S.flight X = l ++ S'.flight X →
      (S'.flight X).countP (asks ⟨X, r⟩) + l.countP (asks ⟨X, r⟩) =
        (S.flight X).countP (asks ⟨X, r⟩) := by
    intro l h
    rw [h, List.countP_append]
    omega
  -- no stream of the conversation is made unless the read loop accepts one
  have hnone : (a = .reader → ∀ p, (S.sess X.peer).reader ≠ .acceptInsert p) →
      streamsOf (S'.sess X.peer) ⟨X, r⟩ = streamsOf (S.sess X.peer) ⟨X, r⟩ := by
    intro hno
    rw [hcount, decide_eq_false]
    · rfl
    · intro h
      obtain ⟨p, ha, hrd, _⟩ := hnew h
      exact hno ha p hrd
  unfold openTokens
  rw [hX]
  cases hm.receiving with
  | keep h hidle =>
    rw [h, hnone fun ha p hrd => by simpa [hrd, ReaderPc.applying] using hidle ha]
  | drop p ha hrd _ h | remoteClose _ p ha hrd h | deliver _ p ha hrd h =>
    have := hless _ h
    rw [hnone fun _ p => by simp [hrd]]
    omega
  | insert p ha hrd h =>
    have hfl := hless _ h
    rw [countP_asks_filter] at hfl
    by_cases hconv : p.conv = some ⟨X, r⟩
    · have hk := hw.kind
      rw [hrd] at hk
      have hopen : p.isOpen = true := hk
      have hone : [p].countP (asks ⟨X, r⟩) = 1 := by
        simp [asks, hopen, hconv]
      have hle : streamsOf (S'.sess X.peer) ⟨X, r⟩ ≤ streamsOf (S.sess X.peer) ⟨X, r⟩ + 1 := by
        rw [hcount]
        have := Bool.toNat_le (decide ((S.sess X.peer).nextRef < (S'.sess X.peer).nextRef ∧
          ((S'.sess X.peer).cells (S.sess X.peer).nextRef).conv = some ⟨X, r⟩))
        omega
      omega
    · have hsame : streamsOf (S'.sess X.peer) ⟨X, r⟩ = streamsOf (S.sess X.peer) ⟨X, r⟩ := by
        rw [hcount, decide_eq_false]
        · rfl
        · intro hn
          obtain ⟨p', _, hrd', hconv'⟩ := hnew hn
          rw [hrd] at hrd'
          cases hrd'
          exact hconv hconv'
      omega

theorem mem_flight (h : p ∈ S.flight X) : SentBy S X p ∧ p.inOrder = true := by
  simp only [System.flight, List.mem_append, List.mem_filter, Session.tail] at h
  rcases h with ⟨h | h, ho⟩ | h
  · refine ⟨.inr (.inr ?_), ho⟩
    cases hrd : (S.sess X.peer).reader <;> simp_all [ReaderPc.unapplied, ReaderPc.packet]
  · exact ⟨.inr (.inl h), ho⟩
  · split at h
    · cases h
    · simp only [List.mem_filter, List.mem_append] at h
      obtain ⟨h | h, ho⟩ := h
      · refine ⟨.inl (.inr ?_), ho⟩
        cases hw : (S.sess X).writer <;> simp_all [WriterPc.hand]
      · exact ⟨.inl (.inl (.inr h)), ho⟩

/-- A conversation that has not begun has no STREAM_OPEN under way and no stream at the peer. -/
theorem openTokens_fresh (hrole : ∀ Y, (S.sess Y).role = Y) (hw : ∀ Y, WellFormed (S.sess Y))
    (hF : OpensFaithful S) (hr : (S.sess X).nextRef ≤ r) :
    (S.flight X).countP (asks ⟨X, r⟩) = 0 ∧ streamsOf (S.sess X.peer) ⟨X, r⟩ = 0 := by
  constructor
  · refine List.countP_eq_zero.mpr fun p hp hasks => ?_
    simp only [asks, Bool.and_eq_true, decide_eq_true_eq] at hasks
    obtain ⟨r', hr', hconv, _⟩ := hF.opens X p (mem_flight hp).1 hasks.1
    rw [hasks.2] at hconv
    cases hconv
    exact absurd hr' (Nat.not_lt.mpr hr)
  · refine streamsOf_eq_zero fun r' hr' hconv => ?_
    by_cases hacc : ((S.sess X.peer).cells r').openPc = .accepted
    · obtain ⟨r₀, hr₀, hconv', _⟩ := hF.accepted X.peer r' hr' hacc
      rw [hconv, Role.peer_peer] at hconv'
      cases hconv'
      rw [Role.peer_peer] at hr₀
      exact absurd hr₀ (Nat.not_lt.mpr hr)
    · have hconv' := (hw X.peer).conv r' hr' hacc
      rw [hconv, hrole] at hconv'
      simp at hconv'

/-- There is one token at most for every open, in every run. -/
theorem openTokens_le_one
    (h : SystemReach config ok S) : ∀ X, ∀ r < (S.sess X).nextRef, openTokens S X r ≤ 1 := by
  refine Reach.invariant (fun S => ∀ X, ∀ r < (S.sess X).nextRef, openTokens S X r ≤ 1) h ?_ ?_
  · intro X r hr
    cases hr
  · rintro S ⟨Z, a⟩ S' hS hI _ hstep X r hr
    have hm := system_move hstep
    have hw := system_wellFormed hS
    have hrole := system_role hS
    have hctl := system_controlUnordered hS
    rcases Role.eq_or_eq_peer X Z with rfl | rfl
    · rcases move_new hm.move hr with hold | ⟨rfl, _⟩
      · exact Nat.le_trans (openTokens_send (hw Z) (hrole Z) (hctl Z) hm hold) (hI Z r hold)
      · -- the call that has just begun holds its own token
        have hF := opensFaithful_reach hS
        obtain ⟨hfl, hst⟩ := openTokens_fresh hrole hw hF (Nat.le_refl (S.sess Z).nextRef)
        have hfl' : (S'.flight Z).countP (asks ⟨Z, (S.sess Z).nextRef⟩) = 0 := by
          rcases flight_asks (hw Z) (hrole Z) (hctl Z) hm (S.sess Z).nextRef with hle | ⟨_, hlt, _⟩
          · omega
          · exact absurd hlt (Nat.lt_irrefl _)
        unfold openTokens
        rw [hm.peer, hfl', hst]
        exact Bool.toNat_le _
    · have hX : S'.sess X = S.sess X := by simpa using hm.peer
      rw [hX] at hr
      exact Nat.le_trans (openTokens_receive (hw _) (hrole _) hm r) (hI X r hr)

/-- Whose streams carry a conversation: the caller's own, and those made for the peer. -/
theorem conv_cases (hw : WellFormed (S.sess X)) (hrole : (S.sess X).role = X) (hF : OpensFaithful S)
    (hr : r < (S.sess X).nextRef) (hc : ((S.sess X).cells r).conv = some c) :
    c = ⟨X, r⟩ ∧ ((S.sess X).cells r).openPc ≠ .accepted ∨
      c.opener = X.peer ∧ c.ref < (S.sess X.peer).nextRef ∧
        ((S.sess X).cells r).openPc = .accepted := by
  by_cases hacc : ((S.sess X).cells r).openPc = .accepted
  · obtain ⟨r₀, hr₀, hconv, _⟩ := hF.accepted X r hr hacc
    rw [hc] at hconv
    cases hconv
    exact .inr ⟨rfl, hr₀, hacc⟩
  · have hconv := hw.conv r hr hacc
    rw [hc, hrole] at hconv
    cases hconv
    exact .inl ⟨rfl, hacc⟩

/-- Two streams of one conversation on one side would be two tokens. -/
theorem two_le_streamsOf {r r' : Ref} (hr : r < s.nextRef) (hr' : r' < s.nextRef)
    (hc : (s.cells r).conv = some c) (hc' : (s.cells r').conv = some c) (hne : r ≠ r') :
    2 ≤ streamsOf s c := by
  have hsub : [r, r'].Subperm (List.range s.nextRef) := by
    refine List.subperm_of_subset (by simpa using hne) ?_
    intro x hx
    simp only [List.mem_cons, List.not_mem_nil, or_false] at hx
    rcases hx with rfl | rfl <;> exact List.mem_range.mpr ‹_›
  have hle := hsub.countP_le fun r => decide ((s.cells r).conv = some c)
  simpa [streamsOf, hc, hc'] using hle

/-- A side holds one stream of a conversation at most. -/
theorem conv_unique (h : SystemReach config ok S) {r r' : Ref} (hr : r < (S.sess X).nextRef)
    (hr' : r' < (S.sess X).nextRef) (hc : ((S.sess X).cells r).conv = some c)
    (hc' : ((S.sess X).cells r').conv = some c) : r = r' := by
  have hw := system_wellFormed h X
  have hrole := system_role h X
  have hF := opensFaithful_reach h
  rcases conv_cases hw hrole hF hr hc with ⟨rfl, _⟩ | ⟨hop, href, _⟩
  · rcases conv_cases hw hrole hF hr' hc' with ⟨heq, _⟩ | ⟨hop, _⟩
    · cases heq
      rfl
    · exact absurd hop (Role.ne_peer X)
  · by_contra hne
    obtain ⟨Y, k⟩ := c
    simp only at hop href
    subst hop
    have htok := openTokens_le_one h X.peer k href
    have htwo := two_le_streamsOf hr hr' hc hc' hne
    unfold openTokens at htok
    rw [Role.peer_peer] at htok
    omega

/-- While a STREAM_OPEN is under way the peer has no stream of its conversation. -/
theorem asked_unmade (h : SystemReach config ok S) (hp : p ∈ S.flight X) (hopen : p.isOpen = true)
    (hc : p.conv = some c) (hr : r < (S.sess X.peer).nextRef) :
    ((S.sess X.peer).cells r).conv ≠ some c := by
  intro hconv
  obtain ⟨r₀, hr₀, hc₀, _⟩ := (opensFaithful_reach h).opens X p (mem_flight hp).1 hopen
  rw [hc] at hc₀
  cases hc₀
  have htok := openTokens_le_one h X r₀ hr₀
  have hfl : 1 ≤ (S.flight X).countP (asks ⟨X, r₀⟩) :=
    List.countP_pos_iff.mpr ⟨p, hp, by simp [asks, hopen, hc]⟩
  have hst := one_le_streamsOf hr hconv
  unfold openTokens at htok
  omega

theorem quiet_unasked {l : Role × Action} (h : ReissuesQuiet S l) : ReissuesUnasked S l := by
  obtain ⟨X, a⟩ := l
  unfold ReissuesUnasked
  split
  · next Y payload heq =>
    cases heq
    intro hlen Z hZ
    obtain ⟨hcells, hpackets⟩ := h hlen Z hZ
    constructor
    · intro r hr hid
      constructor <;>
        exact fun hpc => hcells r hr hid (.inl fun hd => by
          simpa [hpc, OpenPc.running] using hd.1.2.2.2)
    · intro p hp hs
      refine hpackets p hp ?_
      rcases Bool.or_eq_true_iff.mp hs with hs | hs <;>
        simp only [Packet.isOpen, Packet.isAck, Bool.and_eq_true, beq_iff_eq] at hs <;>
        simp [Packet.onStream, hs.1]
  · trivial

/-- An identifier that is quiet when it is handed out is settled on both sides: when it is handed
out, and when the peer accepts it. -/
theorem quiet_settled (h : SystemReach config ReissuesQuiet S)
    (hok : ReissuesQuiet S (X, a)) : ReissuesSettled (S.sess X) a := by
  have hw := system_wellFormed h X
  -- a stream that is not live has settled
  have settled : ∀ r, ¬ StreamLive (S.sess X) r → Settled (S.sess X) r := by
    intro r hl
    simp only [StreamLive, not_or, not_not] at hl
    exact ⟨hl.1.1, hl.2.2⟩
  unfold ReissuesSettled
  split
  · next payload =>
    intro hlen r hr hid
    exact settled r ((hok hlen X (by cases X <;> simp)).1 r hr hid)
  · split
    · next p hrd =>
      intro r hr hid
      by_contra hs
      have hlive : StreamLive (S.sess X) r := by
        by_contra hl
        exact hs (settled r hl)
      have hk := hw.kind
      rw [hrd] at hk
      have hopen : p.isOpen = true := hk
      have hon : p.onStream = true := by
        simp only [Packet.isOpen, Bool.and_eq_true, beq_iff_eq] at hopen
        simp [Packet.onStream, hopen.1]
      -- the stream and the STREAM_OPEN belong to one conversation, which has no stream yet
      have hA := attributed_reach h
      have hp : Live S p.frame.streamID p.conv :=
        ⟨X, .inl (.inr ⟨p, mem_packets.mpr (.inr (by rw [hrd]; rfl)), hon, rfl, rfl⟩)⟩
      have hr' : Live S p.frame.streamID ((S.sess X).cells r).conv :=
        ⟨X, .inl (.inl ⟨r, hr, hid, rfl, hlive⟩)⟩
      obtain ⟨c, hc⟩ := Option.ne_none_iff_exists'.mp (hA.known _ _ hp)
      have hfl : p ∈ S.flight X.peer := by
        refine List.mem_append_left _ (List.mem_filter.mpr ⟨?_, ?_⟩)
        · simp [Role.peer_peer, hrd, ReaderPc.unapplied]
        · simp [Packet.inOrder, hopen]
      refine asked_unmade h hfl hopen hc (r := r) ?_ ?_
      · rwa [Role.peer_peer]
      · rw [Role.peer_peer]
        exact (hA.uniform _ _ _ hr' hp).trans hc
    · trivial
  · trivial

/-- What is known of the joined sessions when identifiers are handed out quiet. -/
structure Orderly (S : System) : Prop where
  wellFormed : ∀ X, WellFormed (S.sess X)
  role : ∀ X, (S.sess X).role = X
  cell : ∀ X, ∀ r < (S.sess X).nextRef, CellInv ((S.sess X).cells r)
  control : ∀ X, ControlUnordered (S.sess X)
  opens : OpensFaithful S
  matched : Matched S
  attributed : Attributed S
  owned : ∀ X, OwnershipInv (S.sess X)
  mapped : ∀ X, MappedInv (S.sess X)
  unique : ∀ X r r' c, r < (S.sess X).nextRef → r' < (S.sess X).nextRef →
    ((S.sess X).cells r).conv = some c → ((S.sess X).cells r').conv = some c → r = r'

/-- Streams are paired in every run. -/
theorem orderly_reach (h : SystemReach config ReissuesQuiet S) :
    Orderly S := by
  have settled : ∀ X, SessionReach X (config X) ReissuesSettled (S.sess X) :=
    session_reach h fun S X a hr hok => quiet_settled hr hok
  constructor
  · exact system_wellFormed h
  · exact system_role h
  · exact fun X => cellInv_reach (settled X)
  · exact system_controlUnordered h
  · exact opensFaithful_reach h
  · exact matched_reach (h.mono fun _ _ => quiet_unasked)
  · exact attributed_reach h
  · exact fun X => ownershipInv_reach (settled X)
  · exact fun X => mappedInv_reach (settled X)
  · exact fun X r r' c hr hr' hc hc' => conv_unique h hr hr' hc hc'

end Atlax.Analysis
