import Atlax.Analysis.Decoding

/-!
# The byte strings that are frames

`Analysis.Decoding` reads back what `WriteFrame` has written. Here the input is any byte string:
which of them `ReadFrame` accepts, how much of one it takes, and what `WriteFrame` makes of the
frame. The reserved byte is the only thing that is lost on the way.
-/

set_option autoImplicit false

namespace Atlax.Analysis

open Atlax.Model Atlax.Library

/-- Four bytes are the bytes of the number they stand for. -/
theorem putUint32_uint32 {b : Bytes} (h : 4 ≤ b.length) : putUint32 (uint32 b) = b.take 4 := by
  match b, h with
  | b₀ :: b₁ :: b₂ :: b₃ :: rest, _ =>
    have h₀ := b₀.toNat_lt
    have h₁ := b₁.toNat_lt
    have h₂ := b₂.toNat_lt
    have h₃ := b₃.toNat_lt
    simp only [uint32, putUint32, List.take_succ_cons, List.take_zero, List.foldl_cons,
      List.foldl_nil, List.cons.injEq, ← UInt8.toNat_inj, UInt8.toNat_ofNat', and_true]
    omega

theorem uint32_take (b : Bytes) : uint32 (b.take 4) = uint32 b := by
  rw [uint32, uint32, List.take_take, Nat.min_self]

/-- The length field of a header. -/
def payloadLen (b : Bytes) : ℕ := uint32 (b.drop 8)

/-- The frame in front of a byte string. -/
def decodeFrame (b : Bytes) : WireFrame where
  version := b.getD 0 0
  command := b.getD 1 0
  flags := b.getD 2 0
  streamID := UInt32.ofNat (uint32 (b.drop 4))
  payload := (b.drop headerSize).take (payloadLen b)

/-- What `ReadFrame` asks of its input. -/
structure Accepted (b : Bytes) : Prop where
  header : headerSize ≤ b.length
  version : b.getD 0 0 = protocolVersion
  size : payloadLen b ≤ maxPayloadSize
  payload : headerSize + payloadLen b ≤ b.length

variable {r : Reader} {b : Bytes}

theorem readFull_zero (r : Reader) : r.readFull 0 = (.ok [], r) := by
  rw [Reader.readFull, Reader.fill]

theorem readFull_take {n : ℕ} (h : n ≤ r.bytes.length) :
    ∃ r', r.readFull n = (.ok (r.bytes.take n), r') ∧ r'.bytes = r.bytes.drop n :=
  fill_ok r.pieces n [] h

/-- `ReadFrame` once the header is there: the two checks, and the payload. -/
theorem readFrame_of_header (h : headerSize ≤ r.bytes.length) :
    ∃ r₁ : Reader, r₁.bytes = r.bytes.drop headerSize ∧ readFrame r =
      if r.bytes.getD 0 0 ≠ protocolVersion then
        (.error (.unsupportedVersion (r.bytes.getD 0 0)), r₁)
      else if payloadLen r.bytes > maxPayloadSize then
        (.error (.payloadLength (payloadLen r.bytes)), r₁)
      else match r₁.readFull (payloadLen r.bytes) with
        | (.error err, r₂) => (.error (.readPayload err), r₂)
        | (.ok payload, r₂) => (.ok { decodeFrame r.bytes with payload := payload }, r₂) := by
  obtain ⟨r₁, hread, hrest⟩ := readFull_take h
  refine ⟨r₁, hrest, ?_⟩
  have hbyte : ∀ i < headerSize, (r.bytes.take headerSize).getD i 0 = r.bytes.getD i 0 := by
    intro i hi
    simp only [List.getD_eq_getElem?_getD, List.getElem?_take_of_lt hi]
  have hlen : uint32 ((r.bytes.take headerSize).drop 8) = payloadLen r.bytes := by
    rw [List.drop_take, payloadLen, ← uint32_take (r.bytes.drop 8)]
    rfl
  have hid : uint32 ((r.bytes.take headerSize).drop 4) = uint32 (r.bytes.drop 4) := by
    rw [List.drop_take, ← uint32_take, List.take_take, ← uint32_take (r.bytes.drop 4)]
    rfl
  rw [readFrame, hread]
  dsimp only
  rw [validateHeader, hbyte 0 (by decide), hbyte 1 (by decide), hbyte 2 (by decide), hlen, hid]
  by_cases hversion : r.bytes.getD 0 0 ≠ protocolVersion
  · rw [if_pos hversion, if_pos hversion]
  · rw [if_neg hversion, if_neg hversion]
    by_cases hmax : payloadLen r.bytes > maxPayloadSize
    · rw [if_pos hmax, if_pos hmax]
    · rw [if_neg hmax, if_neg hmax]
      by_cases hzero : payloadLen r.bytes > 0
      · exact if_pos hzero
      · rw [Nat.eq_zero_of_not_pos hzero, readFull_zero]
        rfl

theorem readFrame_accepted (h : Accepted r.bytes) :
    ∃ r', readFrame r = (.ok (decodeFrame r.bytes), r') ∧
      r'.bytes = r.bytes.drop (headerSize + payloadLen r.bytes) := by
  obtain ⟨r₁, hrest, hread⟩ := readFrame_of_header h.header
  have hlen : payloadLen r.bytes ≤ r₁.bytes.length := by
    have := h.payload
    rw [hrest, List.length_drop]
    omega
  obtain ⟨r₂, hread₂, hrest₂⟩ := readFull_take hlen
  refine ⟨r₂, ?_, ?_⟩
  · rw [hread, if_neg (not_not_intro h.version), if_neg (Nat.not_lt.mpr h.size), hread₂, hrest]
    rfl
  · rw [hrest₂, hrest, List.drop_drop]

theorem readFrame_refused (h : ¬Accepted r.bytes) : ∃ e r', readFrame r = (.error e, r') := by
  by_cases hheader : headerSize ≤ r.bytes.length
  · obtain ⟨r₁, hrest, hread⟩ := readFrame_of_header hheader
    rw [hread]
    by_cases hversion : r.bytes.getD 0 0 = protocolVersion
    · rw [if_neg (not_not_intro hversion)]
      by_cases hsize : payloadLen r.bytes ≤ maxPayloadSize
      · -- only the payload can be missing
        have hshort : r₁.bytes.length < payloadLen r.bytes := by
          rw [hrest, List.length_drop]
          by_contra hlen
          exact h ⟨hheader, hversion, hsize, by omega⟩
        obtain ⟨e, r₂, hread₂⟩ := readFull_short hshort
        rw [if_neg (Nat.not_lt.mpr hsize), hread₂]
        exact ⟨.readPayload e, r₂, rfl⟩
      · rw [if_pos (Nat.lt_of_not_le hsize)]
        exact ⟨_, _, rfl⟩
    · rw [if_pos hversion]
      exact ⟨_, _, rfl⟩
  · obtain ⟨e, r', hread⟩ := readFull_short (Nat.lt_of_not_le hheader)
    exact ⟨.readHeader e, r', by rw [readFrame, hread]⟩

/-- What a successful `ReadFrame` says of its input, its result and what is left. -/
theorem readFrame_ok {f : WireFrame} {r' : Reader} (h : readFrame r = (.ok f, r')) :
    Accepted r.bytes ∧ f = decodeFrame r.bytes ∧
      r'.bytes = r.bytes.drop (headerSize + payloadLen r.bytes) := by
  by_cases hacc : Accepted r.bytes
  · obtain ⟨r₁, hread, hrest⟩ := readFrame_accepted hacc
    rw [h] at hread
    cases hread
    exact ⟨hacc, rfl, hrest⟩
  · obtain ⟨e, r₁, hread⟩ := readFrame_refused hacc
    rw [h] at hread
    cases hread

theorem Accepted.valid (h : Accepted b) : ValidFrame (decodeFrame b) := by
  refine ⟨h.version, ?_⟩
  exact Nat.le_trans (List.length_take_le _ _) h.size

/-- The bytes that `ReadFrame` takes off an accepted input. -/
def consumed (b : Bytes) : Bytes := b.take (headerSize + payloadLen b)

theorem Accepted.consumed_length (h : Accepted b) :
    (consumed b).length = headerSize + payloadLen b := List.length_take_of_le h.payload

/-- The frame's encoding is what was read, with the reserved byte zero. -/
theorem Accepted.encodeFrame_eq (h : Accepted b) :
    encodeFrame (decodeFrame b) = (consumed b).set 3 0 := by
  have hheader : 12 ≤ b.length := h.header
  have hpayload : (decodeFrame b).payload.length = payloadLen b := by
    have hlen := h.payload
    exact List.length_take_of_le (by rw [List.length_drop]; omega)
  have hid : putUint32 (decodeFrame b).streamID.toNat = (b.drop 4).take 4 := by
    rw [decodeFrame, UInt32.toNat_ofNat', Nat.mod_eq_of_lt (uint32_lt _)]
    exact putUint32_uint32 (by rw [List.length_drop]; omega)
  have hsize : putUint32 (payloadLen b) = (b.drop 8).take 4 :=
    putUint32_uint32 (by rw [List.length_drop]; omega)
  have hfront : (b.take 4).set 3 0 = [b.getD 0 0, b.getD 1 0, b.getD 2 0, 0] := by
    match b, hheader with
    | _ :: _ :: _ :: _ :: _, _ => rfl
  have hsplit : consumed b =
      b.take 4 ++ ((b.drop 4).take 4 ++ ((b.drop 8).take 4 ++ (decodeFrame b).payload)) := by
    rw [consumed, show headerSize + payloadLen b = 4 + (4 + (4 + payloadLen b)) by
      simp only [headerSize]; omega]
    rw [List.take_add, List.take_add, List.take_add, List.drop_drop, List.drop_drop]
    rfl
  rw [hsplit, List.set_append_left _ _ (by rw [List.length_take]; omega), hfront, encodeFrame,
    WireFrame.header, hpayload, hid, hsize]
  simp only [List.append_assoc]
  rfl

theorem set_eq_set_iff {α : Type} {l₁ l₂ : List α} {i : ℕ} {x : α} (h₁ : i < l₁.length)
    (h₂ : i < l₂.length) : l₁.set i x = l₂.set i x ↔ ∀ j, j ≠ i → l₁[j]? = l₂[j]? := by
  constructor
  · intro heq j hj
    rw [← List.getElem?_set_ne hj.symm, heq, List.getElem?_set_ne hj.symm]
  · intro hag
    refine List.ext_getElem? fun j => ?_
    by_cases hj : j = i
    · rw [hj, List.getElem?_set_self h₁, List.getElem?_set_self h₂]
    · rw [List.getElem?_set_ne (Ne.symm hj), List.getElem?_set_ne (Ne.symm hj), hag j hj]

/-- The frame determines its bytes up to the reserved one, and they determine the frame. -/
theorem decodeFrame_inj {b₁ b₂ : Bytes} (h₁ : Accepted b₁) (h₂ : Accepted b₂) :
    decodeFrame b₁ = decodeFrame b₂ ↔ (consumed b₁).set 3 0 = (consumed b₂).set 3 0 := by
  rw [← h₁.encodeFrame_eq, ← h₂.encodeFrame_eq]
  constructor
  · exact congrArg encodeFrame
  · exact frames_selfDelimiting.encode_inj (s := ⟨[encodeFrame (decodeFrame b₁)]⟩) h₁.valid h₂.valid
      (by simp [Reader.bytes])

/-- The byte strings that `ReadFrame` accepts, however they come in pieces: a header with the
version and a length of at most 16 MB, and that many bytes after it. It takes the header and the
payload and nothing else. `WriteFrame` gives the same bytes back but for the reserved one, so two
encodings of one frame differ there or nowhere.
SOURCE: frame_codec.go:26-104 -/
theorem readFrame_exact :
    (∀ r : Reader, (∃ f r', readFrame r = (.ok f, r')) ↔
      12 ≤ r.bytes.length ∧ r.bytes.head? = some 0x01 ∧ payloadLen r.bytes ≤ 16777216 ∧
        12 + payloadLen r.bytes ≤ r.bytes.length) ∧
    (∀ r f r', readFrame r = (.ok f, r') →
      r'.bytes = r.bytes.drop (12 + payloadLen r.bytes) ∧
      ∀ w, writeFrame w (some f) = .ok (w ++ (r.bytes.take (12 + payloadLen r.bytes)).set 3 0)) ∧
    (∀ r₁ r₂ f₁ f₂ r₁' r₂', readFrame r₁ = (.ok f₁, r₁') → readFrame r₂ = (.ok f₂, r₂') →
      (f₁ = f₂ ↔ ∀ i, i ≠ 3 → (r₁.bytes.take (12 + payloadLen r₁.bytes))[i]? =
        (r₂.bytes.take (12 + payloadLen r₂.bytes))[i]?)) := by
  refine ⟨?_, ?_, ?_⟩
  · intro r
    have hversion : 12 ≤ r.bytes.length →
        (r.bytes.getD 0 0 = protocolVersion ↔ r.bytes.head? = some 0x01) := by
      intro hlen
      cases hb : r.bytes with
      | nil => simp [hb] at hlen
      | cons x rest => simp [protocolVersion]
    constructor
    · rintro ⟨f, r', hread⟩
      have hacc := (readFrame_ok hread).1
      exact ⟨hacc.header, (hversion hacc.header).mp hacc.version, hacc.size, hacc.payload⟩
    · rintro ⟨hheader, hone, hsize, hpayload⟩
      obtain ⟨r', hread, -⟩ := readFrame_accepted
        ⟨hheader, (hversion hheader).mpr hone, hsize, hpayload⟩
      exact ⟨_, r', hread⟩
  · intro r f r' hread
    obtain ⟨hacc, rfl, hrest⟩ := readFrame_ok hread
    refine ⟨hrest, ?_⟩
    intro w
    rw [writeFrame_valid hacc.valid, hacc.encodeFrame_eq]
    rfl
  · intro r₁ r₂ f₁ f₂ r₁' r₂' hread₁ hread₂
    obtain ⟨hacc₁, rfl, -⟩ := readFrame_ok hread₁
    obtain ⟨hacc₂, rfl, -⟩ := readFrame_ok hread₂
    rw [decodeFrame_inj hacc₁ hacc₂]
    have hthree : 3 < headerSize := by decide
    have hlen₁ := hacc₁.consumed_length
    have hlen₂ := hacc₂.consumed_length
    exact set_eq_set_iff (by omega) (by omega)

-- a PING whose reserved byte is 7, and one byte of the next frame
example : (readFrame ⟨[[1, 5, 0, 7], [0, 0, 0, 0, 0, 0, 0, 2, 65, 66, 1]]⟩).1.toOption =
    some ⟨1, 5, 0, 0, [65, 66]⟩ := by
  decide

end Atlax.Analysis
