import Atlax.Analysis.QueuedFrames
import Atlax.Model.ByteLink

/-!
# The bytes carry the packets

`Atlax.Model.System` has packets on its wires and `Atlax.Model.ByteLink` has bytes. What is in
flight on a link, read or not, is the encoding of the frames in flight and the beginning of the one
in hand, or, once the connection has broken, a beginning of that. So whatever pieces the bytes are
written and read in, `ReadFrame` returns the next frame that was written or waits for more; it never
finds itself inside a frame. Each step of a link is then a step of the system or none, and every
state of the two sessions that a link can reach is one that the system can reach.
-/

set_option autoImplicit false

namespace Atlax.Analysis

open Atlax.Model Atlax.Library

variable {ps : List Packet} {p : Packet} {n : ℕ}

/-- The bytes of a packet on the wire. -/
def wireBytes (p : Packet) : Bytes := encodeFrame p.frame.toWire

theorem FitsFrame.valid {f : Frame} (h : FitsFrame f) : ValidFrame f.toWire :=
  ⟨h.version, h.payload⟩

/-- A beginning of a frame, short of its end. -/
def Unfinished (b : Bytes) (p : Packet) : Prop :=
  b <+: wireBytes p ∧ b.length < (wireBytes p).length

theorem unfinished_nil (p : Packet) : Unfinished [] p := by
  refine ⟨List.nil_prefix, ?_⟩
  simp only [wireBytes, encodeFrame, List.length_append, header_length, headerSize, List.length_nil]
  omega

/-- What is in flight from `X` is the packets `ps` and the beginning of the frame in hand. -/
structure Conveys (L : ByteLink) (X : Role) (ps : List Packet) : Prop where
  tags : L.tags X = ps.map (·.conv)
  fits : ∀ p ∈ ps, FitsFrame p.frame
  arriving : (L.got X.peer).flatten ++ L.wire X <+: encodeAll wireBytes ps ++ L.begun X
  whole : L.down = false →
    (L.got X.peer).flatten ++ L.wire X = encodeAll wireBytes ps ++ L.begun X
  begun : ∃ p : Packet, FitsFrame p.frame ∧ Unfinished (L.begun X) p
  hand : ∀ p, (L.sess X).writer = .write p → Unfinished (L.begun X) p
  fresh : (L.sess X).writer = .check ∨ (L.sess X).writer = .dequeue → L.begun X = []

/-- The link and the system have the same sessions, and the bytes in flight are the packets in
flight. -/
structure Refines (L : ByteLink) (S : System) : Prop where
  sess : S.sess = L.sess
  wire : ∀ X, Conveys L X (S.wire X)

/-! ## What `ReadFrame` finds -/

/-- The input ends inside the frame: both errors are the input's. -/
def NeedsMore (e : CodecError) : Prop := (∃ err, e = .readHeader err) ∨ ∃ err, e = .readPayload err

theorem readFrame_unfinished {r : Reader} (hp : FitsFrame p.frame)
    (h : Unfinished r.bytes p) : ∃ e r', readFrame r = (.error e, r') ∧ NeedsMore e := by
  obtain ⟨k, hk, htake⟩ : ∃ k, k < (wireBytes p).length ∧ r.bytes = (wireBytes p).take k :=
    ⟨r.bytes.length, h.2, List.prefix_iff_eq_take.mp h.1⟩
  obtain ⟨e, r', hread⟩ := readFrame_cut hp.valid hk htake
  refine ⟨e, r', hread, ?_⟩
  -- the header, as far as it is there, is that of a valid frame
  by_cases hhdr : r.bytes.length < headerSize
  · obtain ⟨err, r₁, hr⟩ := readFull_short hhdr
    rw [readFrame, hr] at hread
    cases hread
    exact .inl ⟨err, rfl⟩
  · have hfront :
        r.bytes = p.frame.toWire.header ++ p.frame.toWire.payload.take (k - headerSize) := by
      have hlen : headerSize ≤ k := by
        have := congrArg List.length htake
        rw [List.length_take, Nat.min_eq_left (Nat.le_of_lt hk)] at this
        omega
      rw [htake, wireBytes, encodeFrame, List.take_append, header_length,
        List.take_of_length_le (by rw [header_length]; exact hlen)]
    obtain ⟨r₁, hr₁, -⟩ := readFull_append hfront
    rw [header_length] at hr₁
    rw [readFrame_header hp.valid hr₁] at hread
    split at hread
    · split at hread <;> cases hread
      next err _ => exact .inr ⟨err, rfl⟩
    · cases hread

/-- Input that is a beginning of the frames in flight: `ReadFrame` returns the first of them and
leaves the rest, or there is less than one frame. -/
theorem readFrame_inflight {part : Bytes} {r : Reader} {rest : Bytes}
    (hfits : ∀ p ∈ ps, FitsFrame p.frame)
    (hpart : ∃ p : Packet, FitsFrame p.frame ∧ Unfinished part p)
    (h : r.bytes ++ rest <+: encodeAll wireBytes ps ++ part) :
    (∃ p ps' r', ps = p :: ps' ∧ readFrame r = (.ok p.frame.toWire, r') ∧
      r.bytes = wireBytes p ++ r'.bytes) ∨
    ∃ e r', readFrame r = (.error e, r') ∧ NeedsMore e := by
  have hr : r.bytes <+: encodeAll wireBytes ps ++ part := (List.prefix_append _ _).trans h
  cases ps with
  | nil =>
    obtain ⟨q, hq, hunf⟩ := hpart
    rw [encodeAll_nil, List.nil_append] at hr
    refine .inr (readFrame_unfinished hq ⟨hr.trans hunf.1, ?_⟩)
    exact Nat.lt_of_le_of_lt hr.length_le hunf.2
  | cons p ps' =>
    have hp := hfits p List.mem_cons_self
    rw [encodeAll_cons, List.append_assoc] at hr
    by_cases hlen : (wireBytes p).length ≤ r.bytes.length
    · have hfront : wireBytes p <+: r.bytes :=
        List.prefix_of_prefix_length_le (List.prefix_append _ _) hr hlen
      obtain ⟨tail, htail⟩ := hfront
      obtain ⟨r', hread, hrest⟩ := readFrame_whole hp.valid htail.symm
      exact .inl ⟨p, ps', r', rfl, hread, by rw [hrest, htail]⟩
    · refine .inr (readFrame_unfinished hp ⟨?_, Nat.lt_of_not_le hlen⟩)
      exact List.prefix_of_prefix_length_le hr (List.prefix_append _ _) (by omega)

/-! ## One step -/

variable {L L' : ByteLink} {S : System} {X : Role} {s : Session} {tl : Bytes} {a : Action}

/-- Which steps of the session move the write loop. -/
theorem move_writer {s s' : Session} (hm : Move s a s') (ha : ∀ p, a ≠ .transmit p) :
    s'.writer = s.writer ∨ s'.writer = .exited ∨ s.writer = .check ∧ s'.writer = .dequeue ∨
      s.writer = .dequeue ∧ ∃ p, s'.writer = .write p := by
  cases hm with
  | writerCheck h =>
    cases s.closed
    · exact .inr (.inr (.inl ⟨h, rfl⟩))
    · exact .inr (.inl rfl)
  | dequeue h p => exact .inr (.inr (.inr ⟨h, p, rfl⟩))
  | dequeueExit | transmitFail => exact .inr (.inl rfl)
  | transmit p => exact absurd rfl (ha p)
  | _ => exact .inl rfl

/-- Only what belongs to the direction counts. -/
theorem Conveys.congr (h : Conveys L X ps) (htags : L'.tags X = L.tags X)
    (hwire : L'.wire X = L.wire X) (hgot : L'.got X.peer = L.got X.peer)
    (hbegun : L'.begun X = L.begun X) (hdown : L'.down = L.down)
    (hsess : L'.sess X = L.sess X) : Conveys L' X ps := by
  refine ⟨?_, h.fits, ?_, ?_, ?_, ?_, ?_⟩
  · rw [htags, h.tags]
  · rw [hgot, hwire, hbegun]
    exact h.arriving
  · rw [hgot, hwire, hbegun, hdown]
    exact h.whole
  · rw [hbegun]
    exact h.begun
  · rw [hbegun, hsess]
    exact h.hand
  · rw [hbegun, hsess]
    exact h.fresh

theorem Conveys.setSess {s' : Session} {Y : Role}
    (h : Conveys L Y ps) (hm : Move (L.sess X) a s') (ha : ∀ p, a ≠ .transmit p) :
    Conveys (L.setSess X s') Y ps := by
  by_cases hY : Y = X
  · subst hY
    refine ⟨h.tags, h.fits, h.arriving, h.whole, h.begun, fun p hp => ?_, fun hw' => ?_⟩
    · rw [ByteLink.setSess_sess, Function.update_self] at hp
      rcases move_writer hm ha with hw | hw | ⟨_, hw⟩ | ⟨hw, _⟩
      · exact h.hand p (hw ▸ hp)
      · rw [hw] at hp
        cases hp
      · rw [hw] at hp
        cases hp
      · show Unfinished (L.begun Y) p
        rw [h.fresh (.inr hw)]
        exact unfinished_nil p
    · rw [ByteLink.setSess_sess, Function.update_self] at hw'
      refine h.fresh ?_
      rcases move_writer hm ha with hw | hw | ⟨hw, _⟩ | ⟨hw, p, hp⟩
      · rwa [hw] at hw'
      · rw [hw] at hw'
        rcases hw' with hw' | hw' <;> cases hw'
      · exact .inl hw
      · exact .inr hw
  · exact h.congr rfl rfl rfl rfl rfl (by simp [hY])

/-- What the callers of both sessions may do: `FromCodec` holds of every frame that the link itself
hands over, and asks the data of a PING to be the array it is in the source. -/
def SmallCalls (L : ByteLink) : ByteLinkAction → Prop
  | .session X a => SmallSteps (L.sess X) a
  | _ => True

instance (L : ByteLink) (a : ByteLinkAction) : Decidable (SmallCalls L a) := by
  unfold SmallCalls
  split <;> infer_instance

/-- The same for a step of the system. -/
def SmallSystem (S : System) (e : Role × Action) : Prop := SmallSteps (S.sess e.1) e.2

theorem smallSystem_reach {config : Role → MuxConfig} (h : SystemReach config SmallSystem S)
    (X : Role) : SmallFrames (S.sess X) :=
  smallFrames_reach (session_reach h (fun _ _ _ _ hok => hok) X)

/-- The frames that `X` has written whole with a step. -/
def sentFrames (X : Role) (L : ByteLink) (a : ByteLinkAction) (L' : ByteLink) : List Frame :=
  match a with
  | .write Y _ =>
    if Y = X then
      match (L.sess X).writer, (L'.sess X).writer with
      | .write p, .check => [p.frame]
      | _, _ => []
    else []
  | _ => []

/-- The frames from `X` that `ReadFrame` returns on the other side with a step. -/
def returnedFrames (X : Role) (_ : ByteLink) (a : ByteLinkAction) (L' : ByteLink) : List Frame :=
  match a with
  | .read Y _ =>
    if Y = X.peer then
      match (L'.sess X.peer).reader with
      | .frame p => [p.frame]
      | _ => []
    else []
  | _ => []

/-- What a link step comes to: steps of the system that lead to a state that the link refines. What
is in flight and what is sent is what is returned and what is then in flight. -/
def Keeps (S : System) (L' : ByteLink) (sent returned : Role → List Frame) : Prop :=
  ∃ S', Reach System.step SmallSystem S S' ∧ Refines L' S' ∧
    ∀ X, (S.wire X).map (·.frame) ++ sent X = returned X ++ (S'.wire X).map (·.frame)

/-- Nothing is sent and nothing returned. -/
abbrev nothing (_ : Role) : List Frame := []

theorem Refines.session (h : Refines L S)
    (hstep : (L.sess X).step a = some s) (hok : SmallSteps (L.sess X) a)
    (hrecv : ∀ p, a ≠ .recv p) (htransmit : ∀ p, a ≠ .transmit p) :
    Keeps S (L.setSess X s) nothing nothing := by
  have hwire : S.wireStep X a = some S.wire := by
    cases a with
    | recv p => exact absurd rfl (hrecv p)
    | transmit p => exact absurd rfl (htransmit p)
    | _ => rfl
  have hS : S.step (X, a) = some ⟨Function.update S.sess X s, S.wire⟩ := by
    simp only [System.step, h.sess, hstep, hwire]
  refine ⟨_, .tail .refl (by rw [SmallSystem, h.sess]; exact hok) hS, ⟨?_, ?_⟩, by simp⟩
  · rw [h.sess]
    rfl
  · intro Y
    exact (h.wire Y).setSess (step_move hstep) htransmit

theorem Refines.closeSession (h : Refines L S) : Keeps S (L.closeSession X) nothing nothing := by
  unfold ByteLink.closeSession
  split
  · next s hs => exact h.session hs ⟨trivial, trivial⟩ nofun nofun
  · exact ⟨S, .refl, h, by simp⟩

/-- The read loop ends: neither direction looks at that. -/
theorem Keeps.readDone (h : Keeps S L nothing nothing) (ended : Role → Bool) :
    Keeps S { L with readDone := ended } nothing nothing := by
  obtain ⟨S', hreach, hR, hflow⟩ := h
  exact ⟨S', hreach, ⟨hR.sess, fun Y => (hR.wire Y).congr rfl rfl rfl rfl rfl rfl⟩, hflow⟩

/-- The connection breaks. -/
theorem Refines.fail (h : Refines L S) (k : Role → ℕ) :
    Refines { L with wire := fun X => (L.wire X).take (k X), down := true } S := by
  refine ⟨h.sess, fun X => ?_⟩
  have hX := h.wire X
  refine ⟨hX.tags, hX.fits, ?_, nofun, hX.begun, hX.hand, hX.fresh⟩
  exact ((List.prefix_append_right_inj _).mpr (List.take_prefix _ _)).trans hX.arriving

/-! ### Writing -/

theorem encodeAll_concat (ps : List Packet) (p : Packet) :
    encodeAll wireBytes (ps ++ [p]) = encodeAll wireBytes ps ++ wireBytes p := by
  simp [encodeAll]

/-- The transport takes a piece of the frame in hand: the last one or not. -/
theorem write_cases (hw : (L.sess X).writer = .write p)
    (hfits : FitsFrame p.frame) (htl : wireBytes p = L.begun X ++ tl) (h : L.write X n = some L') :
    L.down = false ∧
      ((∃ s, (L.sess X).step (.transmit p) = some s ∧ L' = { L.setSess X s with
          wire := Function.update L.wire X (L.wire X ++ tl)
          begun := Function.update L.begun X []
          tags := Function.update L.tags X (L.tags X ++ [p.conv]) }) ∨
        n < tl.length ∧ L' = { L with
          wire := Function.update L.wire X (L.wire X ++ tl.take n)
          begun := Function.update L.begun X (L.begun X ++ tl.take n) }) := by
  have hb : encodeFrame p.frame.toWire = L.begun X ++ tl := htl
  simp only [ByteLink.write, hw, writeFrame_valid hfits.valid, List.nil_append, hb, List.drop_left,
    List.length_append, Option.ite_none_right_eq_some] at h
  obtain ⟨⟨-, hle, hup, -⟩, h⟩ := h
  refine ⟨hup, ?_⟩
  split at h
  · next hlast =>
    obtain ⟨s, hs, rfl⟩ := Option.map_eq_some_iff.mp h
    rw [List.take_of_length_le (by omega)]
    exact .inl ⟨s, hs, rfl⟩
  · next hmore =>
    cases h
    exact .inr ⟨by omega, rfl⟩

/-- The last byte is handed over: one packet more. -/
theorem Conveys.written
    (h : Conveys L X ps) (hfits : FitsFrame p.frame) (htl : wireBytes p = L.begun X ++ tl)
    (hup : L.down = false) (hs : s.writer = .check) :
    Conveys { L.setSess X s with
      wire := Function.update L.wire X (L.wire X ++ tl)
      begun := Function.update L.begun X []
      tags := Function.update L.tags X (L.tags X ++ [p.conv]) } X (ps ++ [p]) := by
  have hbytes : (L.got X.peer).flatten ++ (L.wire X ++ tl) = encodeAll wireBytes (ps ++ [p]) := by
    rw [encodeAll_concat, htl, ← List.append_assoc, h.whole hup, List.append_assoc]
  constructor
  case tags => simp [h.tags]
  case fits =>
    intro q hq
    rcases List.mem_append.mp hq with hq | hq
    · exact h.fits q hq
    · rw [List.mem_singleton.mp hq]
      exact hfits
  case arriving => simp [hbytes]
  case whole =>
    intro _
    simpa using hbytes
  case begun => exact ⟨p, hfits, by simpa using unfinished_nil p⟩
  case hand =>
    intro q hq
    simp [hs] at hq
  case fresh => simp

/-- The frame goes on. -/
theorem Conveys.begins (h : Conveys L X ps)
    (hw : (L.sess X).writer = .write p) (hfits : FitsFrame p.frame)
    (htl : wireBytes p = L.begun X ++ tl) (hup : L.down = false) (hn : n < tl.length) :
    Conveys { L with
      wire := Function.update L.wire X (L.wire X ++ tl.take n)
      begun := Function.update L.begun X (L.begun X ++ tl.take n) } X ps := by
  have hunf : Unfinished (L.begun X ++ tl.take n) p := by
    rw [Unfinished, htl]
    refine ⟨(List.prefix_append_right_inj _).mpr (List.take_prefix _ _), ?_⟩
    simp only [List.length_append, List.length_take]
    omega
  have hbytes : (L.got X.peer).flatten ++ (L.wire X ++ tl.take n) =
      encodeAll wireBytes ps ++ (L.begun X ++ tl.take n) := by
    rw [← List.append_assoc, h.whole hup, List.append_assoc]
  constructor
  case tags => exact h.tags
  case fits => exact h.fits
  case arriving => simp [hbytes]
  case whole =>
    intro _
    simpa using hbytes
  case begun => exact ⟨p, hfits, by simpa using hunf⟩
  case hand =>
    intro q hq
    obtain rfl : p = q := by simpa [hw] using hq
    simpa using hunf
  case fresh => simp [hw]

theorem Refines.write (h : Refines L S) (hsmall : SmallFrames (S.sess X))
    (hstep : L.write X n = some L') :
    Keeps S L' (fun Y => sentFrames Y L (.write X n) L') nothing := by
  cases hw : (L.sess X).writer with
  | write p =>
    have hfits : FitsFrame p.frame := hsmall.outgoing p (.inr (by rw [h.sess]; exact hw))
    obtain ⟨⟨tl, htl⟩, -⟩ := (h.wire X).hand p hw
    obtain ⟨hup, ⟨s, hs, rfl⟩ | ⟨hn, rfl⟩⟩ := write_cases hw hfits htl.symm hstep
    · -- the step of the session is the system's
      have hS : S.step (X, .transmit p) =
          some ⟨Function.update S.sess X s, Function.update S.wire X (S.wire X ++ [p])⟩ := by
        simp only [System.step, h.sess, hs, System.wireStep]
      have hok : SmallSystem S (X, .transmit p) := ⟨trivial, trivial⟩
      have hchecked : s.writer = .check := by
        have hm := step_move hs
        cases hm with
        | transmit => rfl
      refine ⟨_, .tail .refl hok hS, ⟨by rw [h.sess]; rfl, fun Y => ?_⟩, fun Y => ?_⟩ <;>
        dsimp only <;> obtain rfl | rfl := Role.eq_or_eq_peer X Y
      · rw [Function.update_self]
        exact (h.wire Y).written hfits htl.symm hup hchecked
      · rw [Function.update_of_ne (Role.peer_ne X)]
        refine (h.wire X.peer).congr ?_ ?_ rfl ?_ rfl ?_ <;> simp
      · simp [sentFrames, hw, hchecked]
      · simp [sentFrames]
    · refine ⟨S, .refl, ⟨h.sess, fun Y => ?_⟩, fun Y => ?_⟩ <;>
        obtain rfl | rfl := Role.eq_or_eq_peer X Y
      · exact (h.wire Y).begins hw hfits htl.symm hup hn
      · refine (h.wire X.peer).congr rfl ?_ rfl ?_ rfl rfl <;> simp
      · simp [sentFrames, hw]
      · simp [sentFrames]
  | _ =>
    unfold ByteLink.write at hstep
    rw [hw] at hstep
    cases hstep

/-! ### Reading -/

/-- What `ReadFrame` has been given after one more `Read`. -/
theorem bytes_read (L : ByteLink) (X : Role) (n : ℕ) :
    (Reader.mk (L.got X ++ [(L.wire X.peer).take n])).bytes ++ (L.wire X.peer).drop n =
      (L.got X).flatten ++ L.wire X.peer := by
  simp [Reader.bytes]

/-- A `Read` completes the first frame in flight, or there is less than a frame. -/
theorem read_cases (hY : Conveys L X.peer ps) (h : L.read X n = some L') :
    (∃ p ps' r s, ps = p :: ps' ∧ FitsFrame p.frame ∧ (L.sess X).step (.recv p) = some s ∧
      (L.got X).flatten ++ L.wire X.peer = wireBytes p ++ (r ++ (L.wire X.peer).drop n) ∧
      L' = { L.setSess X s with
        wire := Function.update L.wire X.peer (r ++ (L.wire X.peer).drop n)
        got := Function.update L.got X []
        tags := Function.update L.tags X.peer (L.tags X.peer).tail }) ∨
    (L.sess X).reader = .idle ∧ L' = { L with
      wire := Function.update L.wire X.peer ((L.wire X.peer).drop n)
      got := Function.update L.got X (L.got X ++ [(L.wire X.peer).take n]) } := by
  unfold ByteLink.read at h
  rw [Option.ite_none_right_eq_some] at h
  obtain ⟨⟨-, -, -, hidle, -⟩, h⟩ := h
  dsimp only at h
  have harr := hY.arriving
  rw [Role.peer_peer, ← bytes_read L X n] at harr
  rcases readFrame_inflight hY.fits hY.begun harr with ⟨p, ps', r, rfl, hread, hbytes⟩ |
      ⟨e, r, hread, hmore⟩
  · have hfits : FitsFrame p.frame := hY.fits p List.mem_cons_self
    have hhead : (L.tags X.peer).headD none = p.conv := by rw [hY.tags]; rfl
    rw [hread] at h
    dsimp only at h
    rw [toFrame_toWire hfits.command hfits.streamID, hhead] at h
    obtain ⟨s, hs, rfl⟩ := Option.map_eq_some_iff.mp h
    refine .inl ⟨p, ps', r.bytes, s, rfl, hfits, hs, ?_, rfl⟩
    rw [← bytes_read L X n, hbytes, List.append_assoc]
  · rw [hread] at h
    refine .inr ⟨hidle, ?_⟩
    rcases hmore with ⟨err, rfl⟩ | ⟨err, rfl⟩ <;> cases h <;> rfl

/-- One packet less, and its bytes less. -/
theorem Conveys.taken {rest : Bytes} (h : Conveys L X.peer (p :: ps))
    (hbytes : (L.got X).flatten ++ L.wire X.peer = wireBytes p ++ rest) :
    Conveys { L.setSess X s with
      wire := Function.update L.wire X.peer rest
      got := Function.update L.got X []
      tags := Function.update L.tags X.peer (L.tags X.peer).tail } X.peer ps := by
  have harr := h.arriving
  rw [Role.peer_peer, hbytes, encodeAll_cons, List.append_assoc] at harr
  constructor
  case tags => simp [h.tags]
  case fits =>
    intro q hq
    exact h.fits q (List.mem_cons_of_mem _ hq)
  case arriving => simpa using (List.prefix_append_right_inj _).mp harr
  case whole =>
    intro hup
    have hwhole := h.whole hup
    rw [Role.peer_peer, hbytes, encodeAll_cons, List.append_assoc] at hwhole
    simpa using List.append_cancel_left hwhole
  case begun => exact h.begun
  case hand => simpa using h.hand
  case fresh => simpa using h.fresh

/-- `ReadFrame` has more than before, and the wire has less. -/
theorem Conveys.waits (h : Conveys L X.peer ps) (n : ℕ) :
    Conveys { L with
      wire := Function.update L.wire X.peer ((L.wire X.peer).drop n)
      got := Function.update L.got X (L.got X ++ [(L.wire X.peer).take n]) } X.peer ps :=
  ⟨h.tags, h.fits, by simpa using h.arriving, by simpa using h.whole, h.begun, h.hand, h.fresh⟩

theorem Refines.read (h : Refines L S) (hstep : L.read X n = some L') :
    Keeps S L' nothing (fun Y => returnedFrames Y L (.read X n) L') := by
  have hY := h.wire X.peer
  rcases read_cases hY hstep with ⟨p, ps, r, s, hps, hfits, hs, hbytes, rfl⟩ | ⟨hidle, rfl⟩
  · have hS : S.step (X, .recv p) =
        some ⟨Function.update S.sess X s, Function.update S.wire X.peer ps⟩ := by
      simp [System.step, h.sess, hs, System.wireStep, hps]
    have hok : SmallSystem S (X, .recv p) := ⟨⟨hfits.payload, hfits.streamID⟩, trivial⟩
    have hread : s.reader = .frame p := by
      have hm := step_move hs
      cases hm with
      | recv => rfl
    refine ⟨_, .tail .refl hok hS, ⟨by rw [h.sess]; rfl, fun Y => ?_⟩, fun Y => ?_⟩ <;>
      dsimp only <;> obtain rfl | rfl := Role.eq_or_eq_peer X Y
    · rw [Function.update_of_ne (Role.ne_peer Y)]
      have hsess : Conveys (L.setSess Y s) Y (S.wire Y) :=
        (h.wire Y).setSess (step_move hs) (by simp)
      refine hsess.congr ?_ ?_ ?_ rfl rfl rfl <;> simp
    · rw [Function.update_self]
      rw [hps] at hY
      exact hY.taken hbytes
    · simp [returnedFrames]
    · simp [returnedFrames, hread, hps]
  · refine ⟨S, .refl, ⟨h.sess, fun Y => ?_⟩, fun Y => ?_⟩ <;>
      obtain rfl | rfl := Role.eq_or_eq_peer X Y
    · refine (h.wire Y).congr rfl ?_ ?_ rfl rfl rfl <;> simp
    · exact hY.waits n
    · simp [returnedFrames]
    · simp [returnedFrames, hidle]

/-- A step of the link is matched by the system. -/
theorem Refines.step (h : Refines L S) (hsmall : ∀ X, SmallFrames (S.sess X)) {a : ByteLinkAction}
    (hok : SmallCalls L a) (hstep : L.step a = some L') :
    Keeps S L' (fun X => sentFrames X L a L') (fun X => returnedFrames X L a L') := by
  cases a with
  | session X a =>
    simp only [ByteLink.step] at hstep
    split at hstep
    · cases hstep
    · cases hstep
    · next hrecv htransmit =>
      obtain ⟨s, hs, rfl⟩ := Option.map_eq_some_iff.mp hstep
      exact h.session hs hok hrecv htransmit
  | write X n => exact h.write (hsmall X) hstep
  | read X n => exact h.read hstep
  | fail k =>
    cases hstep
    exact ⟨S, .refl, h.fail k, by simp [sentFrames, returnedFrames]⟩
  | readError X =>
    simp only [ByteLink.step, Option.ite_none_right_eq_some, Option.some.injEq] at hstep
    obtain ⟨-, rfl⟩ := hstep
    exact h.closeSession.readDone _
  | writeError X =>
    simp only [ByteLink.step] at hstep
    split at hstep
    · rw [Option.ite_none_right_eq_some, Option.some.injEq] at hstep
      obtain ⟨-, rfl⟩ := hstep
      exact h.closeSession
    · cases hstep

/-! ## Whole runs -/

theorem refines_new (config : Role → MuxConfig) :
    Refines (newByteLink config) (newSystem config) := by
  refine ⟨rfl, fun X => ⟨rfl, by simp [newSystem], by simp [newByteLink, newSystem],
    fun _ => rfl, ?_, nofun, fun _ => rfl⟩⟩
  exact ⟨connPacket .ping [], ⟨rfl, Nat.zero_le _, by simp [connPacket], by simp [connPacket]⟩,
    unfinished_nil _⟩

/-- **A connection of bytes refines a wire of packets.** Whatever pieces the frames are written and
read in, and wherever the connection breaks: the two sessions are in a state that they also reach
when they are joined by wires that carry packets, and what is in flight are the bytes of the packets
in flight and of the beginning of the frame in hand.
SOURCE: frame_codec.go:26-104; mux_session.go:277-320 -/
theorem link_refines_system {config : Role → MuxConfig}
    (h : Reach ByteLink.step SmallCalls (newByteLink config) L) :
    ∃ S, SystemReach config SmallSystem S ∧ S.sess = L.sess ∧ ∀ X,
      (L.got X.peer).flatten ++ L.wire X <+: encodeAll wireBytes (S.wire X) ++ L.begun X ∧
      (L.down = false →
        (L.got X.peer).flatten ++ L.wire X = encodeAll wireBytes (S.wire X) ++ L.begun X) := by
  obtain ⟨S, hS, hR⟩ : ∃ S, SystemReach config SmallSystem S ∧ Refines L S := by
    refine h.simulates Refines (refines_new config) ?_
    intro L a L' S _ hS hR hok hstep
    obtain ⟨S', hreach, hR', -⟩ := hR.step (smallSystem_reach hS) hok hstep
    exact ⟨S', hreach, hR'⟩
  exact ⟨S, hS, hR.sess, fun X => ⟨(hR.wire X).arriving, (hR.wire X).whole⟩⟩

/-- The agent opens a stream; the STREAM_OPEN goes out in two pieces and comes in in two others, the
first of which ends inside the header. -/
def openInPieces : List ByteLinkAction :=
  [Action.openStream [7], .openAlloc [7], .opening 0 .register, .opening 0 .enqueue, .writerCheck,
    .dequeue].map (ByteLinkAction.session .agent) ++
  [ByteLinkAction.write .agent 5, .read .relay 3, .write .agent 8, .read .relay 10]

theorem link_refines_system_open :
    ∃ L, Reach ByteLink.step SmallCalls (newByteLink fourStreams) L ∧ L.got .relay = [] ∧
      ∃ S, SystemReach fourStreams SmallSystem S ∧ S.sess = L.sess := by
  have hex : ∃ L, Reach ByteLink.step SmallCalls (newByteLink fourStreams) L ∧ L.got .relay = [] :=
    exists_reach_of_exec openInPieces _ (by decide)
  obtain ⟨L, hL, hgot⟩ := hex
  obtain ⟨S, hS, hsess, -⟩ := link_refines_system hL
  exact ⟨L, hL, hgot, S, hS, hsess⟩

/-- After a run the frames sent are those returned and those in flight. -/
theorem frames_flow {config : Role → MuxConfig} {as : List ByteLinkAction}
    (h : exec (guarded ByteLink.step SmallCalls) (newByteLink config) as = some L) :
    ∃ S, SystemReach config SmallSystem S ∧ Refines L S ∧ ∀ X,
      outputs ByteLink.step (sentFrames X) (newByteLink config) as =
        outputs ByteLink.step (returnedFrames X) (newByteLink config) as ++
          (S.wire X).map (·.frame) := by
  refine (exec_invariant (fun as L => ∃ S, SystemReach config SmallSystem S ∧ Refines L S ∧ ∀ X,
    outputs ByteLink.step (sentFrames X) (newByteLink config) as =
      outputs ByteLink.step (returnedFrames X) (newByteLink config) as ++ (S.wire X).map (·.frame))
    h ?_ ?_).2
  · exact ⟨newSystem config, .refl, refines_new config, by simp [outputs, newSystem]⟩
  · rintro as a L L' hexec ⟨S, hS, hR, hflow⟩ hok hstep
    obtain ⟨S', hreach, hR', hmore⟩ := hR.step (smallSystem_reach hS) hok hstep
    refine ⟨S', hS.trans hreach, hR', fun X => ?_⟩
    rw [outputs_concat hexec hstep, outputs_concat hexec hstep, hflow X, List.append_assoc,
      hmore X, List.append_assoc]

/-- **What `ReadFrame` returns is what was written.** In every run of a link the frames that
`ReadFrame` returns on one side are, in order, the first of those that `WriteFrame` has written on
the other, and all of them when the connection is up and nothing is left on the way.
SOURCE: frame_codec.go:26-104; mux_session.go:277-320 -/
theorem link_frames_in_order {config : Role → MuxConfig} {as : List ByteLinkAction}
    (h : exec (guarded ByteLink.step SmallCalls) (newByteLink config) as = some L) (X : Role) :
    outputs ByteLink.step (returnedFrames X) (newByteLink config) as <+:
        outputs ByteLink.step (sentFrames X) (newByteLink config) as ∧
      (L.down = false → L.wire X = [] → L.got X.peer = [] →
        outputs ByteLink.step (returnedFrames X) (newByteLink config) as =
          outputs ByteLink.step (sentFrames X) (newByteLink config) as) := by
  obtain ⟨S, -, hR, hflow⟩ := frames_flow h
  rw [hflow X]
  refine ⟨List.prefix_append _ _, fun hup hwire hgot => ?_⟩
  have hwhole := (hR.wire X).whole hup
  rw [hwire, hgot, List.flatten_nil, List.append_nil] at hwhole
  have hnone : S.wire X = [] := by
    cases hps : S.wire X with
    | nil => rfl
    | cons p ps =>
      have hlen := congrArg List.length hwhole
      have hpos := (unfinished_nil p).2
      rw [hps, encodeAll_cons] at hlen
      simp only [List.length_append, List.length_nil] at hlen hpos
      omega
  rw [hnone]
  simp

theorem link_frames_in_order_open :
    ∃ L, exec (guarded ByteLink.step SmallCalls) (newByteLink fourStreams) openInPieces = some L ∧
      (outputs ByteLink.step (returnedFrames .agent) (newByteLink fourStreams)
        openInPieces).length = 1 ∧
      outputs ByteLink.step (returnedFrames .agent) (newByteLink fourStreams) openInPieces =
        outputs ByteLink.step (sentFrames .agent) (newByteLink fourStreams) openInPieces := by
  obtain ⟨L, hL, hup, hwire, hgot⟩ := exists_some_of_any
    (x := exec (guarded ByteLink.step SmallCalls) (newByteLink fourStreams) openInPieces)
    (fun L => L.down = false ∧ L.wire .agent = [] ∧ L.got .relay = []) (by decide)
  exact ⟨L, hL, by decide, (link_frames_in_order hL .agent).2 hup hwire hgot⟩

end Atlax.Analysis
