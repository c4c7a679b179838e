import Atlax.Library.Framing
import Atlax.Model.Codec

/-!
# Decoding a byte stream

What `WriteFrame` writes, `ReadFrame` reads back, wherever the stream is cut and however the
transport splits it. The header says how long a frame is, so the encoding delimits itself, and the
rest is the library's result on such encodings.
-/

set_option autoImplicit false

namespace Atlax.Analysis

open Atlax.Model Atlax.Library

/-- A frame that the codec accepts in both directions.
SOURCE: frame_codec.go:62-66, 91-104 -/
def ValidFrame (f : WireFrame) : Prop :=
  f.version = protocolVersion ∧ f.payload.length ≤ maxPayloadSize

/-- The bytes of a frame on the wire. -/
def encodeFrame (f : WireFrame) : Bytes := f.header ++ f.payload

/-- The buffer is filled with the next bytes, whatever pieces they come in. -/
theorem fill_ok (pieces : List Bytes) (need : ℕ) (got : Bytes)
    (h : need ≤ pieces.flatten.length) :
    ∃ r, Reader.fill need got pieces = (.ok (got ++ pieces.flatten.take need), r) ∧
      r.bytes = pieces.flatten.drop need := by
  induction pieces generalizing need got with
  | nil =>
    obtain rfl : need = 0 := by simpa using h
    exact ⟨⟨[]⟩, by simp [Reader.fill], rfl⟩
  | cons piece pieces ih =>
    cases need with
    | zero => exact ⟨⟨piece :: pieces⟩, by simp [Reader.fill], by simp [Reader.bytes]⟩
    | succ need =>
      rw [List.flatten_cons, List.length_append] at h
      unfold Reader.fill
      by_cases hp : piece.length ≤ need + 1
      · obtain ⟨r, hr, hb⟩ := ih (need + 1 - piece.length) (got ++ piece) (by omega)
        refine ⟨r, ?_, ?_⟩
        · rw [if_pos hp, hr, List.flatten_cons, List.take_append, List.take_of_length_le hp,
            List.append_assoc]
        · rw [hb, List.flatten_cons, List.drop_append, List.drop_of_length_le hp, List.nil_append]
      · refine ⟨⟨piece.drop (need + 1) :: pieces⟩, ?_, ?_⟩
        · rw [if_neg hp, List.flatten_cons, List.take_append_of_le_length (by omega)]
        · simp only [Reader.bytes, List.flatten_cons]
          rw [List.drop_append_of_le_length (by omega)]

theorem fill_short (pieces : List Bytes) (need : ℕ) (got : Bytes)
    (h : pieces.flatten.length < need) :
    ∃ e r, Reader.fill need got pieces = (.error e, r) := by
  induction pieces generalizing need got with
  | nil =>
    obtain ⟨need, rfl⟩ := Nat.exists_eq_succ_of_ne_zero (Nat.ne_zero_of_lt h)
    exact ⟨_, _, by rw [Reader.fill]⟩
  | cons piece pieces ih =>
    obtain ⟨need, rfl⟩ := Nat.exists_eq_succ_of_ne_zero (Nat.ne_zero_of_lt h)
    rw [List.flatten_cons, List.length_append] at h
    unfold Reader.fill
    rw [if_pos (by omega)]
    exact ih (need + 1 - piece.length) (got ++ piece) (by omega)

variable {r : Reader} {f : WireFrame}

theorem readFull_append {front rest : Bytes} (h : r.bytes = front ++ rest) :
    ∃ r', r.readFull front.length = (.ok front, r') ∧ r'.bytes = rest := by
  have hlen : front.length ≤ r.pieces.flatten.length := by
    rw [show r.pieces.flatten = front ++ rest from h, List.length_append]
    omega
  obtain ⟨r', hr, hb⟩ := fill_ok r.pieces front.length [] hlen
  rw [show r.pieces.flatten = front ++ rest from h] at hr hb
  rw [List.take_left, List.nil_append] at hr
  rw [List.drop_left] at hb
  exact ⟨r', hr, hb⟩

theorem readFull_short {n : ℕ} (h : r.bytes.length < n) :
    ∃ e r', r.readFull n = (.error e, r') :=
  fill_short r.pieces n [] h

theorem uint32_putUint32 (n : ℕ) (rest : Bytes) : uint32 (putUint32 n ++ rest) = n % 2 ^ 32 := by
  simp only [uint32, putUint32, List.cons_append, List.nil_append, List.take_succ_cons,
    List.take_zero, List.foldl_cons, List.foldl_nil, UInt8.toNat_ofNat']
  omega

theorem putUint32_length (n : ℕ) : (putUint32 n).length = 4 := rfl

theorem foldl_bytes_lt (l : Bytes) (n : ℕ) :
    l.foldl (fun n x => n * 256 + x.toNat) n < (n + 1) * 256 ^ l.length := by
  induction l generalizing n with
  | nil => simp
  | cons x l ih =>
    have hx := x.toNat_lt
    have hle : n * 256 + x.toNat + 1 ≤ (n + 1) * 256 := by omega
    calc l.foldl (fun n x => n * 256 + x.toNat) (n * 256 + x.toNat)
        < (n * 256 + x.toNat + 1) * 256 ^ l.length := ih _
      _ ≤ (n + 1) * 256 * 256 ^ l.length := Nat.mul_le_mul_right _ hle
      _ = (n + 1) * 256 ^ (l.length + 1) := by rw [Nat.pow_succ', Nat.mul_assoc]

theorem uint32_lt (b : Bytes) : uint32 b < 2 ^ 32 := by
  have hlen : (b.take 4).length ≤ 4 := List.length_take_le 4 b
  calc uint32 b < (0 + 1) * 256 ^ (b.take 4).length := foldl_bytes_lt (b.take 4) 0
    _ ≤ 2 ^ 32 := by
      rw [Nat.zero_add, Nat.one_mul]
      exact Nat.pow_le_pow_right (by decide) hlen

theorem header_length (f : WireFrame) : f.header.length = headerSize := rfl

theorem header_streamID (f : WireFrame) :
    UInt32.ofNat (uint32 (f.header.drop 4)) = f.streamID := by
  have hdrop : f.header.drop 4 = putUint32 f.streamID.toNat ++ putUint32 f.payload.length := rfl
  rw [hdrop, uint32_putUint32, Nat.mod_eq_of_lt f.streamID.toNat_lt, UInt32.ofNat_toNat]

theorem header_payloadLen (hv : ValidFrame f) :
    uint32 (f.header.drop 8) = f.payload.length := by
  have hdrop : f.header.drop 8 = putUint32 f.payload.length ++ [] := rfl
  have hmax : maxPayloadSize < 2 ^ 32 := by decide
  have hlen := hv.2
  rw [hdrop, uint32_putUint32, Nat.mod_eq_of_lt (by omega)]

theorem validateHeader_header (hv : ValidFrame f) : validateHeader f.header = .ok () := by
  have hversion : f.header.getD 0 0 = protocolVersion := hv.1
  unfold validateHeader
  rw [header_payloadLen hv, if_neg (not_not_intro hversion), if_neg (Nat.not_lt.mpr hv.2)]

/-- `ReadFrame` once the header of a frame is read: only the payload is left. -/
theorem readFrame_header (hv : ValidFrame f) {r' : Reader}
    (h : r.readFull headerSize = (.ok f.header, r')) :
    readFrame r =
      if f.payload.length > 0 then
        match r'.readFull f.payload.length with
        | (.error err, r'') => (.error (.readPayload err), r'')
        | (.ok payload, r'') => (.ok { f with payload := payload }, r'')
      else (.ok { f with payload := [] }, r') := by
  unfold readFrame
  rw [h]
  simp only [validateHeader_header hv, header_payloadLen hv, header_streamID]
  rfl

theorem readFrame_whole (hv : ValidFrame f) {rest : Bytes}
    (h : r.bytes = encodeFrame f ++ rest) :
    ∃ r', readFrame r = (.ok f, r') ∧ r'.bytes = rest := by
  rw [encodeFrame, List.append_assoc] at h
  obtain ⟨r₁, hr₁, hb₁⟩ := readFull_append h
  rw [readFrame_header hv hr₁]
  by_cases hlen : f.payload.length > 0
  · obtain ⟨r₂, hr₂, hb₂⟩ := readFull_append hb₁
    exact ⟨r₂, by rw [if_pos hlen, hr₂], hb₂⟩
  · have hnil : f.payload = [] := List.length_eq_zero_iff.mp (by omega)
    refine ⟨r₁, ?_, ?_⟩
    · rw [if_neg hlen, ← hnil]
    · rw [hb₁, hnil, List.nil_append]

/-- A stream that ends inside a frame is an error, in the header or in the payload. -/
theorem readFrame_cut (hv : ValidFrame f) {k : ℕ} (hk : k < (encodeFrame f).length)
    (h : r.bytes = (encodeFrame f).take k) : ∃ e r', readFrame r = (.error e, r') := by
  rw [encodeFrame, List.length_append, header_length] at hk
  by_cases hhdr : k < headerSize
  · have hshort : r.bytes.length < headerSize := by
      rw [h, List.length_take]
      omega
    obtain ⟨e, r', hr⟩ := readFull_short hshort
    exact ⟨.readHeader e, r', by rw [readFrame, hr]⟩
  · rw [encodeFrame, List.take_append, List.take_of_length_le (by rw [header_length]; omega),
      header_length] at h
    obtain ⟨r₁, hr₁, hb₁⟩ := readFull_append h
    have hlen : f.payload.length > 0 := by omega
    have hshort : r₁.bytes.length < f.payload.length := by
      rw [hb₁, List.length_take]
      omega
    obtain ⟨e, r₂, hr₂⟩ := readFull_short hshort
    exact ⟨.readPayload e, r₂, by rw [readFrame_header hv hr₁, if_pos hlen, hr₂]⟩

/-- The frame encoding delimits itself. -/
theorem frames_selfDelimiting :
    SelfDelimiting ValidFrame encodeFrame Reader.bytes readFrame where
  whole _ _ _ hv h := readFrame_whole hv h
  cut _ _ _ hv hk h := readFrame_cut hv hk h
  stop r h := by
    obtain ⟨e, r', hr⟩ := readFull_short (r := r) (n := headerSize) (by rw [h]; decide)
    exact ⟨.readHeader e, r', by rw [readFrame, hr]⟩

theorem writeFrame_valid (hv : ValidFrame f) (w : Bytes) :
    writeFrame w (some f) = .ok (w ++ encodeFrame f) := by
  simp only [writeFrame, encodeFrame]
  rw [if_neg (Nat.not_lt.mpr hv.2)]
  split
  · rw [List.append_assoc]
  · next hlen =>
    rw [List.length_eq_zero_iff.mp (Nat.eq_zero_of_not_pos hlen), List.append_nil]

/-! ## Frames of a session -/

/-- The frame survives the bytes it is made of: every named command has its own byte, both flags
have their bits, and the identifier is a uint32. -/
theorem toFrame_toWire {f : Frame} (hcmd : ∀ b, f.command ≠ .unknown b)
    (hid : f.streamID < 2 ^ 32) : f.toWire.toFrame = f := by
  have hcommand : Command.ofByte f.command.toByte = f.command := by
    cases hc : f.command with
    | unknown b => exact absurd hc (hcmd b)
    | _ => rfl
  have hflags : Flags.ofByte f.flags.toByte = f.flags := by
    obtain ⟨fin, ack⟩ := f.flags
    cases fin <;> cases ack <;> rfl
  have hstream : (UInt32.ofNat f.streamID).toNat = f.streamID := by
    rw [UInt32.toNat_ofNat']
    exact Nat.mod_eq_of_lt hid
  unfold WireFrame.toFrame Frame.toWire
  simp only [hcommand, hflags, hstream]

/-- The codec carries the frame: `WriteFrame` accepts it, and from what it has written `ReadFrame`
makes an equal frame, whatever follows and in whatever pieces it comes. -/
def Carried (f : Frame) : Prop :=
  ∀ w, ∃ b, writeFrame w (some f.toWire) = .ok (w ++ b) ∧
    ∀ (r : Reader) (rest : Bytes), r.bytes = b ++ rest →
      ∃ f' r', readFrame r = (.ok f', r') ∧ f'.toFrame = f ∧ r'.bytes = rest

theorem carried {f : Frame} (hversion : f.version = protocolVersion)
    (hlen : f.payload.length ≤ maxPayloadSize) (hcmd : ∀ b, f.command ≠ .unknown b)
    (hid : f.streamID < 2 ^ 32) : Carried f := by
  intro w
  have hv : ValidFrame f.toWire := ⟨hversion, hlen⟩
  refine ⟨encodeFrame f.toWire, writeFrame_valid hv w, ?_⟩
  intro r rest hr
  obtain ⟨r', hread, hrest⟩ := readFrame_whole hv hr
  exact ⟨f.toWire, r', hread, toFrame_toWire hcmd hid, hrest⟩

/-! ## Streams of frames -/

theorem writeFrames_valid (fs : List WireFrame) (hv : ∀ f ∈ fs, ValidFrame f) (w : Bytes) :
    writeFrames w fs = .ok (w ++ encodeAll encodeFrame fs) := by
  induction fs generalizing w with
  | nil => simp [writeFrames, pure, Except.pure]
  | cons f fs ih =>
    have hw := ih (fun g hg => hv g (List.mem_cons_of_mem _ hg)) (w ++ encodeFrame f)
    rw [encodeAll_cons, ← List.append_assoc, ← hw]
    simp [writeFrames, List.foldlM_cons, writeFrame_valid (hv f List.mem_cons_self), bind,
      Except.bind]

/-- A stream of frames that is cut after `k` bytes is read as the frames whose bytes lie in front of
the cut, in order, and then as an error; the pieces the bytes come in make no difference.
SOURCE: frame_codec.go:26-104 -/
theorem frames_read_to_cut (fs : List WireFrame)
    (hv : ∀ f ∈ fs, f.version = protocolVersion ∧ f.payload.length ≤ maxPayloadSize) :
    ∃ b, writeFrames [] fs = .ok b ∧ ∀ k ≤ b.length, ∀ r : Reader, r.bytes = b.take k →
      ∃ n ≤ fs.length,
        (∀ i < fs.length, i < n ↔
          ∃ front, writeFrames [] (fs.take (i + 1)) = .ok front ∧ front.length ≤ k) ∧
        ∃ e, ∀ fuel, n < fuel → readAll readFrame fuel r = (fs.take n, some e) := by
  have hwrite := writeFrames_valid fs hv []
  rw [List.nil_append] at hwrite
  refine ⟨_, hwrite, ?_⟩
  intro k _ r hr
  obtain ⟨n, hn, hwhole, hread⟩ := frames_selfDelimiting.readAll_take fs hv k r hr
  refine ⟨n, hn, ?_, hread⟩
  intro i hi
  rw [hwhole i hi]
  have hfront := writeFrames_valid (fs.take (i + 1)) (fun f hf => hv f (List.mem_of_mem_take hf)) []
  rw [List.nil_append] at hfront
  constructor
  · intro hlen
    exact ⟨_, hfront, hlen⟩
  · rintro ⟨front, hf, hlen⟩
    rw [hfront] at hf
    cases hf
    exact hlen

/-- A PING and a STREAM_DATA frame, 20 and 17 bytes long. -/
def pingAndData : List WireFrame :=
  [⟨protocolVersion, 0x05, 0x00, 0, [1, 2, 3, 4, 5, 6, 7, 8]⟩,
    ⟨protocolVersion, 0x02, 0x01, 7, [104, 101, 108, 108, 111]⟩]

theorem frames_read_to_cut_pingAndData :
    (∀ f ∈ pingAndData, f.version = protocolVersion ∧ f.payload.length ≤ maxPayloadSize) ∧
    ∃ b, writeFrames [] pingAndData = .ok b ∧ ∀ k ≤ b.length, ∀ r : Reader, r.bytes = b.take k →
      ∃ n ≤ pingAndData.length,
        (∀ i < pingAndData.length, i < n ↔
          ∃ front, writeFrames [] (pingAndData.take (i + 1)) = .ok front ∧ front.length ≤ k) ∧
        ∃ e, ∀ fuel, n < fuel → readAll readFrame fuel r = (pingAndData.take n, some e) :=
  ⟨by decide, frames_read_to_cut pingAndData (by decide)⟩

-- the data frame loses its last two bytes; the input comes byte by byte
example : (writeFrames [] pingAndData).toOption.map (fun b =>
    readAll readFrame 3 ⟨(b.take 35).map fun x => [x]⟩) =
      some (pingAndData.take 1, some (.readPayload .unexpectedEOF)) := by
  decide

end Atlax.Analysis
