import Atlax.Analysis.Conversations
import Atlax.Library.Pipe

/-!
# One direction of a stream is a pipe

The writer's drain goroutine is the source, the frames under way are the channel, the reader's
buffer is the sink and STREAM_CLOSE is the end mark: `pipe` reads this off a state of the joined
sessions, for a stream of one side and its counterpart on the other. While identifiers are handed
out quiet, every step of the system is a step of that pipe, up to the moment the reading stream is
reset. What a reader sees then follows from what a pipe guarantees.
-/

set_option autoImplicit false

namespace Atlax.Analysis

open Atlax.Model Atlax.Library

variable {p : Packet} {w v : Ref} {c : Conv}

/-- What a packet carries for a conversation. -/
def item (c : Conv) (p : Packet) : Option (Item UInt8) :=
  if p.conv = some c then
    if p.isData then some (.chunk p.frame.payload) else if p.isClose then some .fin else none
  else none

/-- From stream `w` of `X` to its counterpart `v`: the chunk in the hand of the drain goroutine
counts as under way, unless it can no longer be sent. -/
def pipe (S : System) (X : Role) (w v : Ref) (c : Conv) : Pipe UInt8 where
  taken := ((S.sess X).cells w).hist.drained
  finished := decide (((S.sess X).cells w).drainPc = .done)
  transit := (S.flight X).filterMap (item c) ++
    if (S.sess X).mute then [] else ((S.sess X).cells w).inHand.map .chunk
  broken := (S.sess X).mute
  received := ((S.sess X.peer).cells v).hist.delivered
  ended := decide ((S.sess X.peer).cells v).stream.state.RemoteClosed

/-- The streams `w` of `X` and `v` of its peer belong to the conversation `c`. -/
structure Paired (S : System) (X : Role) (w v : Ref) (c : Conv) : Prop where
  writer : w < (S.sess X).nextRef
  reader : v < (S.sess X.peer).nextRef
  convWriter : ((S.sess X).cells w).conv = some c
  convReader : ((S.sess X.peer).cells v).conv = some c

/-- The stream takes what arrives for it: it was not reset and is not about to be by its open. -/
def Listening (c : Cell) : Prop := c.stream.state ≠ .reset ∧ ∀ f, c.openPc ≠ .resetting f

theorem item_filter (c : Conv) (l : List Packet) :
    (l.filter Packet.inOrder).filterMap (item c) = l.filterMap (item c) := by
  rw [List.filterMap_filter]
  refine List.filterMap_congr fun p _ => ?_
  cases ho : p.inOrder with
  | true => rfl
  | false =>
    simp only [Packet.inOrder, Bool.or_eq_false_iff] at ho
    simp [item, ho]

theorem item_of_isOpen (h : p.isOpen = true) : item c p = none := by
  simp only [Packet.isOpen, Bool.and_eq_true, beq_iff_eq] at h
  simp [item, Packet.isData, Packet.isClose, h.1]

theorem item_of_conv_ne (h : p.conv ≠ some c) : item c p = none := by
  simp [item, h]

theorem item_eq_some {i : Item UInt8} (h : item c p = some i) :
    p.conv = some c ∧
      (p.isData = true ∧ i = .chunk p.frame.payload ∨ p.isClose = true ∧ i = .fin) := by
  unfold item at h
  split at h
  · next hc =>
    refine ⟨hc, ?_⟩
    split at h
    · next hd => exact .inl ⟨hd, by simpa using h.symm⟩
    · split at h
      · next hcl => exact .inr ⟨hcl, by simpa using h.symm⟩
      · cases h
  · cases h

section Cell

variable {a : Action} {rd : ReaderPc} {r : Ref} {c c' : Cell}

/-- Only the drain goroutine, and the open that starts it, move its program counter. -/
theorem cell_source (hm : CellMove a rd r c c') (hopen : a ≠ .opening r .enqueue)
    (hdrain : ∀ d, a ≠ .drain r d) :
    c'.hist.drained = c.hist.drained ∧ c'.drainPc = c.drainPc := by
  cases hm with
  | sendOpen ha => exact absurd ha hopen
  | drain d b c' p ha => exact absurd ha (hdrain d)
  | call k c' _ _ hc =>
    cases hc with
    | close =>
      simp only [Cell.close]
      split <;> simp
    | _ => exact ⟨rfl, rfl⟩
  | resetFrame => exact ⟨rfl, rfl⟩
  | _ => exact ⟨rfl, rfl⟩

/-- What was written before the half was closed is settled by that Close. -/
theorem cell_closedAt (hC : CellInv c) (hm : CellMove a rd r c c') {b : Bytes}
    (h : c.hist.closedAt = some b) : c'.hist.closedAt = some b := by
  cases hm with
  | call k c' _ _ hc =>
    cases hc with
    | close =>
      have honce : c.stream.localCloseOnce = true := by rw [hC.closeOnce, h]; rfl
      unfold Cell.close StreamSession.close
      cases hst : c.stream.state <;> simp [honce, h]
    | _ => exact h
  | drain d b c' p _ hc => cases hc <;> exact h
  | _ => exact h

/-- The open that is about to reset its stream does so, or stays there. -/
theorem cell_resetting (hm : CellMove a rd r c c') {f : Ref} (h : c.openPc = .resetting f) :
    c'.openPc = .resetting f ∨ c'.openPc = .failed := by
  cases hm with
  | call k c' _ _ hc => exact .inl (call_openPc hc ▸ h)
  | drain d b c' p _ hc => exact .inl (drain_openPc hc ▸ h)
  | openFailed | openFailedReset => exact .inr rfl
  | register hpc | sendOpen _ hpc | openAck hpc | openCancel hpc | openClosed hpc
  | openRemoveNone hpc | openCleanup _ hpc | openRemove _ hpc =>
    rw [h] at hpc
    cases hpc
  | _ => exact .inl h

end Cell

variable {S S' : System} {X : Role} {a : Action}

/-- A stream that listens after a step listened before it. -/
theorem listening_move (hO : Orderly S) (hO' : Orderly S') (hm : SysMove S X a S') {Y : Role}
    (hv : v < (S.sess Y).nextRef) (h : Listening ((S'.sess Y).cells v)) :
    Listening ((S.sess Y).cells v) := by
  rcases hm.sess Y with ⟨rfl, hmove⟩ | heq
  · constructor
    · intro hst
      have hst' := (hm.evolves hv).terminal (.inr hst)
      exact h.1 (hst'.trans hst)
    · intro f hf
      -- the open resets its own stream, which nobody holds and so nobody has closed
      have hv' := Nat.lt_of_lt_of_le hv (hm.nextRef Y)
      have hterm : ((S'.sess Y).cells v).stream.state.Terminal := by
        rcases move_resetting hmove hv hf with hf' | ht
        · exact absurd hf' (h.2 f)
        · rwa [(hO.owned Y).found v hv f hf] at ht
      rcases hterm with hcl | hst
      · have hC := hO'.cell Y v hv'
        have hh := Untouched.handle_of_ne hC fun hu => hC.localClosed (.inr hcl) hu.closedAt
        have hheld := (hO'.mapped Y).held v hv' hh
        rcases cell_resetting (move_cell hmove hv) hf with hpc | hpc <;> simp [hpc] at hheld
      · exact h.1 hst
  · rwa [heq] at h

/-- A packet that some other step queues carries nothing for the conversation. -/
theorem item_queuedBy (hO : Orderly S) (hw : w < (S.sess X).nextRef)
    (hc : ((S.sess X).cells w).conv = some c) (hdrain : ∀ d, a ≠ .drain w d)
    (hp : QueuedBy (S.sess X) a p) : item c p = none := by
  cases hp with
  | openPacket r hr hpc => exact item_of_isOpen (by simp [Cell.openPacket, Packet.isOpen])
  | ack => simp [item, Cell.ackPacket, Packet.isData, Packet.isClose]
  | drain r hr d c' p hd =>
    have hne : r ≠ w := by
      rintro rfl
      exact hdrain d rfl
    refine item_of_conv_ne fun hconv => hne (hO.unique X r w c hr hw ?_ hc)
    cases hd <;> exact hconv

/-- A step of the writer's side that its drain goroutine has no part in. -/
theorem pipe_send_other (hO : Orderly S) (hm : SysMove S X a S')
    (hw : w < (S.sess X).nextRef) (hc : ((S.sess X).cells w).conv = some c)
    (hdrain : ∀ d, a ≠ .drain w d)
    (hsrc : ((S'.sess X).cells w).hist.drained = ((S.sess X).cells w).hist.drained ∧
      (((S'.sess X).cells w).drainPc = .done ↔ ((S.sess X).cells w).drainPc = .done) ∧
      ((S'.sess X).cells w).inHand = ((S.sess X).cells w).inHand) :
    (pipe S X w v c).Step (pipe S' X w v c) ∧
      ((pipe S' X w v c).Marked → (pipe S X w v c).Marked) := by
  obtain ⟨hd, hf, hh⟩ := hsrc
  cases hm.sending (hO.control X) with
  | keep h hmute =>
    have heq : pipe S' X w v c = pipe S X w v c := by
      simp [pipe, hm.peer, h, hmute, hd, hf, hh]
    rw [heq]
    exact ⟨.stay, id⟩
  | queue p hp hs hs' h =>
    have heq : pipe S' X w v c = pipe S X w v c := by
      simp only [pipe, hm.peer, h, hs, hs', hd, hf, hh, List.filterMap_append, item_filter]
      simp [item_queuedBy hO hw hc hdrain hp]
    rw [heq]
    exact ⟨.stay, id⟩
  | lose p hp hs hs' h =>
    have heq : pipe S' X w v c = pipe S X w v c := by
      simp [pipe, hm.peer, h, hs, hs', hd, hf]
    rw [heq]
    exact ⟨.stay, id⟩
  | cut h hmute =>
    have hpre : (S'.flight X).filterMap (item c) <+: (pipe S X w v c).transit :=
      (h.filterMap _).trans (List.prefix_append _ _)
    have heq : pipe S' X w v c = { pipe S X w v c with
        transit := (S'.flight X).filterMap (item c), broken := true } := by
      simp [pipe, hm.peer, hmute, hd, hf]
    rw [heq]
    exact ⟨.cut _ hpre, fun hmk => hmk.imp_left fun hfin => hpre.subset hfin⟩

/-- What a move of a drain goroutine does to the packets under way and to its cell. -/
theorem SysMove.drain {d : Drain} (hm : SysMove S X (.drain w d) S') :
    (CellDrain ((S.sess X).cells w) (S.sess X).closed ((S'.sess X).cells w) none ∧
      S'.flight X = S.flight X ∧ (S'.sess X).mute = (S.sess X).mute) ∨
    ∃ p, CellDrain ((S.sess X).cells w) (S.sess X).closed ((S'.sess X).cells w) (some p) ∧
      (S'.sess X).mute = (S.sess X).mute ∧
      S'.flight X = S.flight X ++ if (S.sess X).mute then [] else [p].filter Packet.inOrder := by
  have hwire := hm.wire_self (by simp)
  have hmove := hm.move
  simp only [System.flight, hm.peer, hwire]
  generalize S'.sess X = s' at hmove
  cases hmove with
  | drain _ _ _ c hc => exact .inl ⟨by simpa using hc, rfl, rfl⟩
  | drainSend _ _ _ c p hc =>
    refine .inr ⟨p, by simpa using hc, mute_enqueue _ _ _, ?_⟩
    rw [List.append_assoc, List.append_cancel_left_eq]
    have hmute : ((S.sess X).setCell w c).mute = (S.sess X).mute := rfl
    have htail : ((S.sess X).setCell w c).tail = (S.sess X).tail := rfl
    cases hb : (S.sess X).mute with
    | false => rw [tail_enqueue_data (hmute.trans hb), htail, if_neg (by simp)]
    | true => rw [tail_enqueue_mute (hmute.trans hb), htail, if_pos rfl, List.append_nil]

theorem item_dataPacket {w : Cell} (h : w.conv = some c) (data : Bytes) :
    item c (w.dataPacket data) = some (.chunk data) := by
  simp [item, Cell.dataPacket, h, Packet.isData]

theorem item_closePacket {w : Cell} (h : w.conv = some c) :
    item c w.closePacket = some .fin := by
  simp [item, Cell.closePacket, h, Packet.isData, Packet.isClose]

/-- A step of the writer's drain goroutine; the end mark is sent with STREAM_CLOSE. -/
theorem pipe_drain {d : Drain} (hm : SysMove S X (.drain w d) S')
    (hc : ((S.sess X).cells w).conv = some c) :
    (pipe S X w v c).Step (pipe S' X w v c) ∧
      ((pipe S' X w v c).Marked → (pipe S X w v c).Marked ∨
        ((S.sess X).cells w).drainPc = .sendFIN) := by
  rcases hm.drain with ⟨hd, hfl, hmute⟩ | ⟨p, hd, hmute, hfl⟩
  · -- nothing is queued
    generalize hw' : (S'.sess X).cells w = w' at hd
    cases hd with
    | take data rest flushing hpc hout =>
      have hnd : ((S.sess X).cells w).drainPc ≠ .done := by cases flushing <;> simp [hpc]
      have hin : ((S.sess X).cells w).inHand = [] := by
        cases flushing <;> simp [Cell.inHand, hpc]
      cases hb : (S.sess X).mute with
      | false =>
        have heq : pipe S' X w v c = { pipe S X w v c with
            taken := (pipe S X w v c).taken ++ data
            transit := (pipe S X w v c).transit ++ [.chunk data] } := by
          simp [pipe, hm.peer, hfl, hmute, hw', hb, hnd, hin]
          simp [Cell.inHand]
        rw [heq]
        exact ⟨.send data (by simp [pipe, hnd]) (by simp [pipe, hb]), by simp [Pipe.Marked]; tauto⟩
      | true =>
        have heq : pipe S' X w v c = { pipe S X w v c with
            taken := (pipe S X w v c).taken ++ data } := by
          simp [pipe, hm.peer, hfl, hmute, hw', hb, hnd]
        rw [heq]
        exact ⟨.lose data (by simp [pipe, hnd]) (by simp [pipe, hb]), .inl⟩
    | takeFIN hpc hfin =>
      have heq : pipe S' X w v c = pipe S X w v c := by
        rcases hpc with hpc | hpc <;> simp [pipe, hm.peer, hfl, hmute, hw', hpc, Cell.inHand]
      rw [heq]
      exact ⟨.stay, .inl⟩
    | sawClosed hpc | stateClosed hpc | flushed hpc =>
      have heq : pipe S' X w v c = pipe S X w v c := by
        simp [pipe, hm.peer, hfl, hmute, hw', hpc, Cell.inHand]
      rw [heq]
      exact ⟨.stay, .inl⟩
    | exit hpc =>
      have heq : pipe S' X w v c = { pipe S X w v c with finished := true } := by
        rcases hpc with hpc | hpc <;> simp [pipe, hm.peer, hfl, hmute, hw', hpc, Cell.inHand]
      rw [heq]
      exact ⟨.giveUp, .inl⟩
    | stateReset hpc =>
      have heq : pipe S' X w v c = { pipe S X w v c with finished := true } := by
        simp [pipe, hm.peer, hfl, hmute, hw', hpc, Cell.inHand]
      rw [heq]
      exact ⟨.giveUp, .inl⟩
  · generalize hw' : (S'.sess X).cells w = w' at hd
    cases hd with
    | enqueue data flushing hpc =>
      -- the chunk leaves the hand for the queue, if it is sent at all
      have heq : pipe S' X w v c = pipe S X w v c := by
        cases hb : (S.sess X).mute <;> cases flushing <;>
          simp [pipe, hm.peer, hfl, hmute, hw', hb, hpc, Cell.inHand, item_filter,
            item_dataPacket hc]
      rw [heq]
      exact ⟨.stay, .inl⟩
    | sendFIN hpc =>
      refine ⟨?_, fun _ => .inr hpc⟩
      cases hb : (S.sess X).mute with
      | false =>
        have heq : pipe S' X w v c = { pipe S X w v c with
            finished := true, transit := (pipe S X w v c).transit ++ [.fin] } := by
          simp [pipe, hm.peer, hfl, hmute, hw', hb, hpc, Cell.inHand, item_filter,
            item_closePacket hc]
        rw [heq]
        exact .finish (by simp [pipe, hpc]) (by simp [pipe, hb])
      | true =>
        have heq : pipe S' X w v c = { pipe S X w v c with finished := true } := by
          simp [pipe, hm.peer, hfl, hmute, hw', hb]
        rw [heq]
        exact .giveUp

/-- A step of the writer's side is a step of the pipe; the end mark is sent with STREAM_CLOSE. -/
theorem pipe_send (hO : Orderly S) (hm : SysMove S X a S')
    (hw : w < (S.sess X).nextRef) (hc : ((S.sess X).cells w).conv = some c) :
    (pipe S X w v c).Step (pipe S' X w v c) ∧
      ((pipe S' X w v c).Marked → (pipe S X w v c).Marked ∨
        ((S.sess X).cells w).drainPc = .sendFIN) := by
  by_cases hdrain : ∃ d, a = .drain w d
  · obtain ⟨d, rfl⟩ := hdrain
    exact pipe_drain hm hc
  · have hdrain' : ∀ d, a ≠ .drain w d := fun d hd => hdrain ⟨d, hd⟩
    have hsrc : ((S'.sess X).cells w).hist.drained = ((S.sess X).cells w).hist.drained ∧
        (((S'.sess X).cells w).drainPc = .done ↔ ((S.sess X).cells w).drainPc = .done) ∧
        ((S'.sess X).cells w).inHand = ((S.sess X).cells w).inHand := by
      by_cases hopen : a = .opening w .enqueue
      · -- the open starts the drain goroutine
        subst hopen
        have hmove := hm.move
        have hC := hO.cell X w hw
        generalize S'.sess X = s' at hmove
        cases hmove with
        | sendOpen _ _ hpc =>
          have hidle := hC.unsent (.inr hpc)
          simp [Cell.inHand, hidle]
      · obtain ⟨hd, hpc⟩ := cell_source (move_cell hm.move hw) hopen hdrain'
        exact ⟨hd, by rw [hpc], by simp [Cell.inHand, hpc]⟩
    obtain ⟨hstep, hmark⟩ := pipe_send_other (v := v) hO hm hw hc hdrain' hsrc
    exact ⟨hstep, fun h => .inl (hmark h)⟩

theorem move_deliver {s s' : Session} (hm : Move s .reader s') {r : Ref}
    (h : s.reader = .deliver r p) :
    (s'.cells r).hist.delivered = (s.cells r).hist.delivered ++ p.frame.payload ∧
      (s'.cells r).stream.state = (s.cells r).stream.state := by
  cases hm with
  | deliver r₀ p₀ h₀ =>
    rw [h] at h₀
    cases h₀
    simp [StreamSession.deliver]
  | _ => simp_all

theorem move_remoteClose {s s' : Session} (hm : Move s .reader s') {r : Ref}
    (h : s.reader = .remoteClose r p) :
    (s'.cells r).hist.delivered = (s.cells r).hist.delivered ∧
      (s'.cells r).stream = (s.cells r).stream.remoteClose := by
  cases hm with
  | remoteClose r₀ p₀ h₀ =>
    rw [h] at h₀
    cases h₀
    simp
  | _ => simp_all

/-- The two streams of a conversation have one identifier. -/
theorem Orderly.same_id (hO : Orderly S) (hw : w < (S.sess X).nextRef)
    (hv : v < (S.sess X.peer).nextRef) (hcw : ((S.sess X).cells w).conv = some c)
    (hcv : ((S.sess X.peer).cells v).conv = some c) :
    ((S.sess X).cells w).stream.id = ((S.sess X.peer).cells v).stream.id := by
  -- the stream that was accepted has the identifier of the one that was opened
  have key : ∀ {Y : Role} {k k' : Ref}, k < (S.sess Y).nextRef → k' < (S.sess Y.peer).nextRef →
      ((S.sess Y).cells k).conv = some c → ((S.sess Y.peer).cells k').conv = some c →
      ((S.sess Y).cells k).openPc = .accepted →
      ((S.sess Y).cells k).stream.id = ((S.sess Y.peer).cells k').stream.id := by
    intro Y k k' hk hk' hck hck' hacc
    obtain ⟨r, hr, hconv, hid, _, hpc⟩ := hO.opens.accepted Y k hk hacc
    have hconv' := (hO.wellFormed Y.peer).conv r hr hpc
    rw [hO.role] at hconv'
    rw [hck] at hconv
    rw [hO.unique Y.peer k' r c hk' hr hck' (hconv'.trans hconv.symm)]
    exact hid
  rcases conv_cases (hO.wellFormed X) (hO.role X) hO.opens hw hcw with ⟨rfl, _⟩ | ⟨_, _, hacc⟩
  · rcases conv_cases (hO.wellFormed _) (hO.role _) hO.opens hv hcv with ⟨heq, _⟩ | ⟨_, _, hacc⟩
    · simp at heq
    · have hw' : w < (S.sess X.peer.peer).nextRef := by rwa [Role.peer_peer]
      have hcw' : ((S.sess X.peer.peer).cells w).conv = some ⟨X, w⟩ := by rwa [Role.peer_peer]
      have hid := key hv hw' hcv hcw' hacc
      rw [Role.peer_peer] at hid
      exact hid.symm
  · exact key hw hv hcw hcv hacc

theorem filterMap_head {l l' : List Packet} (h : l = [p].filter Packet.inOrder ++ l') :
    l.filterMap (item c) = (item c p).toList ++ l'.filterMap (item c) := by
  rw [h, List.filterMap_append, item_filter]
  cases hi : item c p <;> simp [hi]

/-- The counterpart has received nothing in the step; the head of what was under way is gone. -/
theorem pipe_skip (hX : S'.sess X = S.sess X)
    (hsink : SinkSame ((S.sess X.peer).cells v) ((S'.sess X.peer).cells v))
    (hl : Listening ((S'.sess X.peer).cells v)) {l : List (Item UInt8)}
    (hfl : (S.flight X).filterMap (item c) = l ++ (S'.flight X).filterMap (item c)) :
    pipe S X w v c = { pipe S' X w v c with transit := l ++ (pipe S' X w v c).transit } := by
  have hst := hsink.2 hl.1
  simp [pipe, hX, hfl, hsink.1, hst]

/-- A frame of the conversation that finds no stream: the counterpart has gone. -/
theorem gone_of_miss (hO : Orderly S) (hA : Authentic S)
    (hp : Paired S X w v c) (hsent : SentBy S X p) (hon : p.onStream = true)
    (hconv : p.conv = some c) (hget : (S.sess X.peer).table.get p.frame.streamID = none) :
    Gone ((S.sess X.peer).cells v) := by
  obtain ⟨r, hr, hs⟩ := hA.sent X p hsent hon
  have hrw := hO.unique X r w c hr hp.writer (hs.conv.trans hconv) hp.convWriter
  subst hrw
  by_contra hg
  have hmap := (hO.mapped X.peer).mapped v hp.reader hg
  rw [← hO.same_id hr hp.reader hp.convWriter hp.convReader, hs.id, hget] at hmap
  cases hmap

/-- A frame that finds no stream carries nothing that the counterpart still waits for. -/
theorem item_miss (hO : Orderly S) (hA : Authentic S)
    (hp : Paired S X w v c) (hl : Listening ((S.sess X.peer).cells v))
    (hS : (pipe S X w v c).Sound) (hsent : SentBy S X p)
    (hget : (S.sess X.peer).table.get p.frame.streamID = none)
    (hmem : ∀ i, item c p = some i → i ∈ (pipe S X w v c).transit) : item c p = none := by
  cases hi : item c p with
  | none => rfl
  | some i =>
    exfalso
    obtain ⟨hpc, hkind⟩ := item_eq_some hi
    have hon : p.onStream = true :=
      onStream_of_kind (hkind.imp And.left fun h => .inl h.1)
    -- the counterpart has ended, and not by a reset: it had the end mark, which comes last
    have hcl : ((S.sess X.peer).cells v).stream.state = .closed := by
      rcases gone_of_miss hO hA hp hsent hon hpc hget with (h | h) | ⟨f, h⟩
      · exact h
      · exact absurd h hl.1
      · exact absurd h (hl.2 f)
    have hnil := hS.sealed (by simp [pipe, hcl, StreamState.RemoteClosed])
    have hin := hmem i hi
    rw [hnil] at hin
    cases hin

/-- The read loop delivers a chunk of the conversation. -/
theorem pipe_deliver (hX : S'.sess X = S.sess X)
    (hm : Move (S.sess X.peer) .reader (S'.sess X.peer))
    (hrd : (S.sess X.peer).reader = .deliver v p) (hk : p.isData = true) (hpc : p.conv = some c)
    (hfl : (S.flight X).filterMap (item c) =
      (item c p).toList ++ (S'.flight X).filterMap (item c)) :
    (pipe S X w v c).Step (pipe S' X w v c) ∧
      ((pipe S' X w v c).Marked → (pipe S X w v c).Marked) := by
  obtain ⟨hd, hst⟩ := move_deliver hm hrd
  have hi : item c p = some (.chunk p.frame.payload) := by simp [item, hpc, hk]
  rw [hi] at hfl
  have heq : pipe S' X w v c = { pipe S X w v c with
      transit := (pipe S' X w v c).transit
      received := (pipe S X w v c).received ++ p.frame.payload } := by
    simp [pipe, hX, hd, hst]
  have htr : (pipe S X w v c).transit = .chunk p.frame.payload :: (pipe S' X w v c).transit := by
    simp [pipe, hX, hfl]
  constructor
  · rw [heq]
    exact .deliver _ _ htr
  · rintro (hfin | he)
    · exact .inl (by rw [htr]; exact List.mem_cons_of_mem _ hfin)
    · exact .inr (by rwa [heq] at he)

/-- The read loop takes the end mark of the conversation. It has not been taken before, so that it
changes the state now. -/
theorem pipe_remoteClose (hX : S'.sess X = S.sess X)
    (hm : Move (S.sess X.peer) .reader (S'.sess X.peer))
    (hrd : (S.sess X.peer).reader = .remoteClose v p) (hclose : p.isClose = true)
    (hpc : p.conv = some c) (hidle : ((S.sess X.peer).cells v).stream.state ≠ .idle)
    (hreset : ((S.sess X.peer).cells v).stream.state ≠ .reset) (hS : (pipe S X w v c).Sound)
    (hfl : (S.flight X).filterMap (item c) =
      (item c p).toList ++ (S'.flight X).filterMap (item c)) :
    (pipe S X w v c).Step (pipe S' X w v c) ∧
      ((pipe S' X w v c).Marked → (pipe S X w v c).Marked) := by
  obtain ⟨hd, hst⟩ := move_remoteClose hm hrd
  have hi : item c p = some .fin := by
    have hnd : p.isData = false := by
      simp only [Packet.isClose, beq_iff_eq] at hclose
      simp [Packet.isData, hclose]
    simp [item, hpc, hnd, hclose]
  rw [hi] at hfl
  have htr : (pipe S X w v c).transit = .fin :: (pipe S' X w v c).transit := by
    simp [pipe, hX, hfl]
  have hopen : ¬ ((S.sess X.peer).cells v).stream.state.RemoteClosed := by
    intro hrc
    have hnil := hS.sealed (by simpa [pipe] using hrc)
    rw [htr] at hnil
    cases hnil
  have hrc : ((S'.sess X.peer).cells v).stream.state.RemoteClosed := by
    rw [hst]
    unfold StreamSession.remoteClose
    cases hs : ((S.sess X.peer).cells v).stream.state <;> simp_all [StreamState.RemoteClosed]
  have heq : pipe S' X w v c = { pipe S X w v c with
      transit := (pipe S' X w v c).transit, ended := true } := by
    simp [pipe, hX, hd, hrc]
  constructor
  · rw [heq]
    exact .close _ htr
  · exact fun _ => .inl (by rw [htr]; exact List.mem_cons_self)

/-- A step of the reader's side is a step of the pipe, as long as the reading stream listens. -/
theorem pipe_receive (hO : Orderly S) (hO' : Orderly S') (hA : Authentic S)
    (hm : SysMove S X.peer a S') (hw : w < (S.sess X).nextRef)
    (hv : v < (S.sess X.peer).nextRef) (hcw : ((S.sess X).cells w).conv = some c)
    (hcv : ((S.sess X.peer).cells v).conv = some c)
    (hl' : Listening ((S'.sess X.peer).cells v)) (hS : (pipe S X w v c).Sound) :
    (pipe S X w v c).Step (pipe S' X w v c) ∧
      ((pipe S' X w v c).Marked → (pipe S X w v c).Marked) := by
  have hX : S'.sess X = S.sess X := by simpa using hm.peer
  have hl := listening_move hO hO' hm hv hl'
  -- a step that applies nothing to the counterpart, and loses nothing for it
  have stay : (a = .reader → ∀ p, (S.sess X.peer).reader ≠ .deliver v p ∧
        (S.sess X.peer).reader ≠ .remoteClose v p) →
      (S.flight X).filterMap (item c) = (S'.flight X).filterMap (item c) →
      (pipe S X w v c).Step (pipe S' X w v c) ∧
        ((pipe S' X w v c).Marked → (pipe S X w v c).Marked) := by
    intro hno hfl
    have heq := pipe_skip (w := w) (l := []) hX (cell_sink (move_cell hm.move hv) hno) hl' hfl
    rw [heq]
    exact ⟨.stay, id⟩
  -- the read loop at a stream of another conversation
  have other : ∀ {r : Ref} {p : Packet}, ((S.sess X.peer).cells r).conv = p.conv →
      p.conv ≠ some c → r ≠ v := by
    rintro r p hr hp rfl
    exact hp (hr.symm.trans hcv)
  cases hm.receiving with
  | keep h hidle =>
    refine stay (fun ha p => ?_) (by rw [h])
    constructor <;> intro hrd <;> simpa [hrd, ReaderPc.applying] using hidle ha
  | drop p ha hrd why h =>
    have hno : a = .reader → ∀ p, (S.sess X.peer).reader ≠ .deliver v p ∧
        (S.sess X.peer).reader ≠ .remoteClose v p := by simp [hrd]
    have hfl := filterMap_head (c := c) h
    have hp : SentBy S X p := .inr (.inr (by rw [hrd]; rfl))
    cases hi : item c p with
    | none => exact stay hno (by simpa [hi] using hfl)
    | some i =>
      obtain ⟨_, hkind⟩ := item_eq_some hi
      rcases why with hh | hopen | hget
      · -- an empty chunk
        obtain ⟨_, hcl, _, hdata⟩ := hh
        rcases hkind with ⟨hd, rfl⟩ | ⟨hc, _⟩
        · rw [(hdata hd).1] at hi
          rw [hi] at hfl
          have heq := pipe_skip (w := w) hX (cell_sink (move_cell hm.move hv) hno) hl' hfl
          have hstep := Pipe.Step.deliver (p := pipe S X w v c) [] _ (by rw [heq]; rfl)
          rw [heq] at hstep ⊢
          simp only [List.append_nil] at hstep
          exact ⟨hstep, fun hmk => hmk.imp_left (List.mem_append_right _)⟩
        · rw [hcl] at hc
          cases hc
      · rw [item_of_isOpen hopen] at hi
        cases hi
      · have hnone := item_miss hO hA ⟨hw, hv, hcw, hcv⟩ hl hS hp hget fun j hj => by
          simp [pipe, hfl, hj]
        rw [hnone] at hi
        cases hi
  | insert p ha hrd h =>
    have hk := (hO.wellFormed X.peer).kind
    rw [hrd] at hk
    refine stay (by simp [hrd]) ?_
    simpa [item_of_isOpen hk] using filterMap_head (c := c) h
  | deliver r p ha hrd h =>
    obtain ⟨hp, hon, hr, hconv⟩ := hO.applied (.inl hrd)
    rw [Role.peer_peer] at hp
    have hk := (hO.wellFormed X.peer).kind
    rw [hrd] at hk
    obtain ⟨r₀, hr₀, hs⟩ := hA.sent X p hp hon
    rw [(hs.data hk).2, if_neg (by simp)] at h
    have hfl := filterMap_head (c := c) h
    by_cases hpc : p.conv = some c
    · have hrv := hO.unique X.peer r v c hr hv (hconv.trans hpc) hcv
      subst hrv ha
      exact pipe_deliver hX hm.move hrd hk hpc hfl
    · refine stay (fun _ p' => ?_) (by simpa [item_of_conv_ne hpc] using hfl)
      have hne := other hconv hpc
      simp [hrd, hne]
  | remoteClose r p ha hrd h =>
    obtain ⟨hp, hon, hr, hconv⟩ := hO.applied (.inr (.inl hrd))
    rw [Role.peer_peer] at hp
    have hk := (hO.wellFormed X.peer).kind
    rw [hrd] at hk
    obtain ⟨r₀, hr₀, hs⟩ := hA.sent X p hp hon
    have hclose : p.isClose = true := by
      rcases hk with ⟨hd, hfin⟩ | hc
      · rw [(hs.data hd).2] at hfin
        cases hfin
      · exact hc
    have hfl := filterMap_head (c := c) h
    by_cases hpc : p.conv = some c
    · have hrv := hO.unique X.peer r v c hr hv (hconv.trans hpc) hcv
      subst hrv ha
      exact pipe_remoteClose hX hm.move hrd hclose hpc (hO.cell X.peer r hv).notIdle hl.1 hS hfl
    · refine stay (fun _ p' => ?_) (by simpa [item_of_conv_ne hpc] using hfl)
      have hne := other hconv hpc
      simp [hrd, hne]

end Atlax.Analysis
