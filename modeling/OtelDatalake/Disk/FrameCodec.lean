import OtelDatalake.Disk.Frame
import OtelDatalake.Foundation.Outcome

open OtelDatalake.Foundation OtelDatalake.Buffer

namespace OtelDatalake.Disk

variable {Batch : Type} [RecordBatch Batch]

/-- `decode_frame` with what the reader has left: the header and the payload that it declares are consumed. -/
def readFrame (codec : Codec Batch) (bytes : Bytes) (maxPayloadLen : Nat) :
    Except FrameDecodeError (Option ((FrameHeader × Batch) × Bytes)) :=
  match decodeFrame codec bytes maxPayloadLen with
  | .error error => .error error
  | .ok none => .ok none
  | .ok (some (header, batch)) => .ok (some ((header, batch), bytes.drop (frameHeaderLen + header.payloadLen)))

/-- `decode_frame` again and again, until the reader is at its end. -/
def readFrames (codec : Codec Batch) (maxPayloadLen : Nat) :
    Nat → Bytes → Except FrameDecodeError (List (FrameHeader × Batch))
  | 0, _ => .ok []
  | fuel + 1, bytes =>
    match readFrame codec bytes maxPayloadLen with
    | .error error => .error error
    | .ok none => .ok []
    | .ok (some (frame, rest)) =>
      match readFrames codec maxPayloadLen fuel rest with
      | .error error => .error error
      | .ok frames => .ok (frame :: frames)

structure Renumbered (Batch : Type) where
  signal : SignalKind
  seqId : UInt64
  replacement : UInt64
  batch : Batch

def encodePatched (codec : Codec Batch) (sent : Renumbered Batch) : Except String (FrameHeader × Bytes) :=
  match encodeFrame codec sent.signal sent.seqId.toNat sent.batch with
  | .error reason => .error reason
  | .ok (header, bytes) =>
    match patchFrameSeqId codec bytes header sent.replacement.toNat with
    | .error reason => .error reason
    | .ok (patched, header) => .ok (header, patched)

theorem toNat_le_u64Max (seqId : UInt64) : seqId.toNat ≤ u64Max := by
  have bounded := seqId.toNat_lt
  unfold u64Max
  omega

namespace Frame

variable {codec : Codec Batch}

def renumber (frame : Frame codec) (seqId : UInt64) : Frame codec :=
  { frame with seqId := seqId.toNat, seqFits := toNat_le_u64Max seqId }

theorem patchFrameSeqId_renumber (frame : Frame codec) (seqId : UInt64) :
    patchFrameSeqId codec frame.bytes frame.header seqId.toNat =
      .ok ((frame.renumber seqId).bytes, (frame.renumber seqId).header) :=
  frame.patchFrameSeqId_eq seqId.toNat frame.header rfl

theorem readFrame_eq (frame : Frame codec) (rest : Bytes) {maxPayloadLen : Nat}
    (bounded : frame.payload.length ≤ maxPayloadLen) :
    readFrame codec (frame.bytes ++ rest) maxPayloadLen = .ok (some ((frame.header, frame.batch), rest)) := by
  have consumed : (frame.bytes ++ rest).drop (frameHeaderLen + frame.header.payloadLen) = rest :=
    List.drop_left' frame.bytes_length
  rw [readFrame, frame.decodeFrame_eq rest bounded]
  simp only [consumed]

end Frame

theorem encodePatched_ok {codec : Codec Batch} {sent : Renumbered Batch} {header : FrameHeader} {bytes : Bytes}
    (encoded : encodePatched codec sent = .ok (header, bytes)) :
    ∃ frame : Frame codec, frame.signal = sent.signal ∧ frame.seqId = sent.replacement.toNat ∧
      frame.batch = sent.batch ∧ frame.header = header ∧ frame.bytes = bytes := by
  unfold encodePatched at encoded
  cases first : encodeFrame codec sent.signal sent.seqId.toNat sent.batch with
  | error reason =>
    rw [first] at encoded
    cases encoded
  | ok pair =>
    obtain ⟨frame, signal, seqId, batch, headers, written⟩ := encodeFrame_ok (toNat_le_u64Max sent.seqId) first
    have patched := frame.patchFrameSeqId_renumber sent.replacement
    rw [first] at encoded
    rw [headers, written] at patched
    simp only [patched, Except.ok.injEq, Prod.mk.injEq] at encoded
    exact ⟨frame.renumber sent.replacement, signal, rfl, batch, encoded.1, encoded.2⟩

theorem encodePatched_of_encodeFrame {codec : Codec Batch} {sent : Renumbered Batch} {pair : FrameHeader × Bytes}
    (encoded : encodeFrame codec sent.signal sent.seqId.toNat sent.batch = .ok pair) :
    ∃ header bytes, encodePatched codec sent = .ok (header, bytes) ∧ header.payloadLen = pair.1.payloadLen := by
  obtain ⟨frame, -, -, -, headers, written⟩ := encodeFrame_ok (toNat_le_u64Max sent.seqId) encoded
  have patched := frame.patchFrameSeqId_renumber sent.replacement
  rw [headers, written] at patched
  refine ⟨(frame.renumber sent.replacement).header, (frame.renumber sent.replacement).bytes, ?_, ?_⟩
  · simp only [encodePatched, encoded, patched]
  · rw [← headers]
    rfl

theorem readFrames_encoded {codec : Codec Batch} {maxPayloadLen : Nat} {sent : List (Renumbered Batch)}
    {frames : List (FrameHeader × Bytes)}
    (encoded : List.Forall₂ (fun item frame => encodePatched codec item = .ok frame) sent frames)
    (bounded : ∀ frame ∈ frames, frame.1.payloadLen ≤ maxPayloadLen) {fuel : Nat}
    (enough : sent.length < fuel) :
    ∃ decoded, readFrames codec maxPayloadLen fuel (frames.flatMap Prod.snd) = .ok decoded ∧
      decoded.map (fun frame => (frame.1.signal, frame.1.seqId, frame.2)) =
        sent.map fun item => (item.signal, item.replacement.toNat, item.batch) := by
  induction encoded generalizing fuel with
  | nil =>
    obtain ⟨fuel, rfl⟩ : ∃ less, fuel = less + 1 := ⟨fuel - 1, by simp at enough; omega⟩
    exact ⟨[], rfl, rfl⟩
  | @cons item pair rest more first _ ih =>
    obtain ⟨fuel, rfl⟩ : ∃ less, fuel = less + 1 := ⟨fuel - 1, by simp at enough; omega⟩
    obtain ⟨frame, signal, seqId, batch, header, bytes⟩ := encodePatched_ok first
    have small : frame.payload.length ≤ maxPayloadLen := by
      have declared := bounded pair (List.mem_cons_self ..)
      rw [← header] at declared
      exact declared
    obtain ⟨decoded, reads, same⟩ := ih (fun other member => bounded other (List.mem_cons_of_mem _ member))
      (Nat.lt_of_succ_lt_succ enough)
    refine ⟨(frame.header, frame.batch) :: decoded, ?_, ?_⟩
    · rw [List.flatMap_cons, ← bytes, readFrames, frame.readFrame_eq _ small]
      simp only [reads]
    · rw [List.map_cons, List.map_cons, same, ← signal, ← seqId, ← batch]
      rfl

theorem decodeFrame_crc {codec : Codec Batch} {bytes : Bytes} {maxPayloadLen : Nat} {decoded : FrameHeader × Batch}
    (succeeds : decodeFrame codec bytes maxPayloadLen = .ok (some decoded)) :
    (codec.crc32 (slice 4 20 bytes ++ slice frameHeaderLen (ofLe (slice 20 4 bytes)) bytes)).toNat =
      ofLe (slice 24 4 bytes) := by
  unfold decodeFrame at succeeds
  split at succeeds
  · split at succeeds <;> cases succeeds
  split at succeeds
  · cases succeeds
  rename_i header read
  have fields : header.payloadLen = ofLe (slice 20 4 bytes) ∧ header.crc32 = ofLe (slice 24 4 bytes) := by
    unfold decodeHeader at read
    split at read
    · cases read
    split at read
    · cases read
    split at read
    · cases read
    · simp only at read
      split at read
      · cases read
      · cases read
        exact ⟨rfl, rfl⟩
  split at succeeds
  · cases succeeds
  simp only at succeeds
  split at succeeds
  · cases succeeds
  rename_i matching
  rw [← fields.1, ← fields.2]
  exact Decidable.of_not_not matching

theorem decodeFrame_altered (codec : Codec Batch) (frame : Frame codec) {fields behind : Bytes} {maxPayloadLen : Nat}
    (sized : fields.length = 20)
    (differs : (codec.crc32 (fields ++ behind.take (ofLe (slice 16 4 fields)))).toNat ≠ frame.header.crc32)
    (decoded : FrameHeader × Batch) :
    decodeFrame codec (frame.bytes.take 4 ++ (fields ++ (slice 24 4 frame.bytes ++ behind))) maxPayloadLen ≠
      .ok (some decoded) := by
  intro succeeds
  have magic : frame.bytes.take 4 = frameMagic := by
    have taken := frame_magic codec frame.signal frame.seqId (RecordBatch.numRows frame.batch) frame.payload []
    rwa [List.append_nil] at taken
  have stored : slice 24 4 frame.bytes = toLe 4 frame.header.crc32 := by
    have taken := frame_crc codec frame.signal frame.seqId (RecordBatch.numRows frame.batch) frame.payload []
    rwa [List.append_nil] at taken
  rw [magic, stored] at succeeds
  have crc := decodeFrame_crc succeeds
  have covered : slice 4 20 (frameMagic ++ (fields ++ (toLe 4 frame.header.crc32 ++ behind))) = fields :=
    slice_append rfl sized
  have declared : slice 20 4 (frameMagic ++ (fields ++ (toLe 4 frame.header.crc32 ++ behind))) = slice 16 4 fields := by
    have split : fields = fields.take 16 ++ slice 16 4 fields := by
      have whole : (fields.drop 16).take 4 = fields.drop 16 := List.take_of_length_le (by simp [sized])
      rw [slice, whole, List.take_append_drop]
    have four : (slice 16 4 fields).length = 4 := by simp [slice, sized]
    calc slice 20 4 (frameMagic ++ (fields ++ (toLe 4 frame.header.crc32 ++ behind)))
        = slice 20 4 ((frameMagic ++ fields.take 16) ++ (slice 16 4 fields ++
            (toLe 4 frame.header.crc32 ++ behind))) := by
          conv_lhs => rw [split]
          simp only [List.append_assoc]
      _ = slice 16 4 fields := slice_append (by simp [frameMagic, sized]) four
  have checksum : slice 24 4 (frameMagic ++ (fields ++ (toLe 4 frame.header.crc32 ++ behind))) =
      toLe 4 frame.header.crc32 := by
    rw [← List.append_assoc]
    exact slice_append (by simp [frameMagic, sized]) (toLe_length _ _)
  have payload (count : Nat) : slice frameHeaderLen count
      (frameMagic ++ (fields ++ (toLe 4 frame.header.crc32 ++ behind))) = behind.take count := by
    rw [slice, ← List.append_assoc, ← List.append_assoc, List.drop_left' (by simp [frameMagic, frameHeaderLen, sized])]
  have same : ofLe (toLe 4 frame.header.crc32) = frame.header.crc32 := ofLe_toLe (UInt32.toNat_lt _)
  rw [covered, declared, checksum, payload, same] at crc
  exact differs crc

/-- A patched frame decodes to its signal, its new number and its batch, and is consumed as a whole; frames that follow
    one another decode to the list that was encoded; and a frame altered to another checksum does not decode. -/
theorem frame_codec (codec : Codec Batch) (maxPayloadLen : Nat) :
    (∀ (sent : Renumbered Batch) encoded,
      encodeFrame codec sent.signal sent.seqId.toNat sent.batch = .ok encoded →
      encoded.1.payloadLen ≤ maxPayloadLen →
      ∃ header patched, encodePatched codec sent = .ok (header, patched) ∧
        header.signal = sent.signal ∧ header.seqId = sent.replacement.toNat ∧
        ∀ rest, readFrame codec (patched ++ rest) maxPayloadLen = .ok (some ((header, sent.batch), rest))) ∧
    (∀ (sent : List (Renumbered Batch)) frames, sent.mapM (encodePatched codec) = .ok frames →
      (∀ frame ∈ frames, frame.1.payloadLen ≤ maxPayloadLen) → ∀ fuel, sent.length < fuel →
      ∃ decoded, readFrames codec maxPayloadLen fuel (frames.flatMap Prod.snd) = .ok decoded ∧
        decoded.map (fun frame => (frame.1.signal, frame.1.seqId, frame.2)) =
          sent.map fun item => (item.signal, item.replacement.toNat, item.batch)) ∧
    (∀ (sent : Renumbered Batch) header patched fields behind,
      encodePatched codec sent = .ok (header, patched) → fields.length = 20 →
      (codec.crc32 (fields ++ behind.take (ofLe (slice 16 4 fields)))).toNat ≠ header.crc32 →
      ∀ decoded, decodeFrame codec (patched.take 4 ++ (fields ++ (slice 24 4 patched ++ behind))) maxPayloadLen ≠
        .ok (some decoded)) := by
  refine ⟨?_, ?_, ?_⟩
  · intro sent encoded encodes small
    obtain ⟨header, patched, done, length⟩ := encodePatched_of_encodeFrame encodes
    obtain ⟨frame, signal, seqId, batch, rfl, rfl⟩ := encodePatched_ok done
    refine ⟨frame.header, frame.bytes, done, signal, seqId, fun rest => ?_⟩
    rw [← batch]
    exact frame.readFrame_eq rest (length.trans_le small)
  · intro sent frames encodes bounded fuel enough
    exact readFrames_encoded (mapM_ok encodes) bounded enough
  · intro sent header patched fields behind done sized differs
    obtain ⟨frame, -, -, -, rfl, rfl⟩ := encodePatched_ok done
    exact decodeFrame_altered codec frame sized differs

def renumberedLog : Renumbered PlainBatch := ⟨.logs, 0, 7, ⟨1, 2, [3, 4]⟩⟩

theorem frame_codec_log :
    ∃ header patched, encodePatched plainCodec renumberedLog = .ok (header, patched) ∧
      header.signal = .logs ∧ header.seqId = 7 ∧
      ∀ rest, readFrame plainCodec (patched ++ rest) 4 = .ok (some ((header, ⟨1, 2, [3, 4]⟩), rest)) :=
  (frame_codec plainCodec 4).1 renumberedLog _ (plainFrame .logs 0 ⟨1, 2, [3, 4]⟩ (by decide) (by decide)).encodeFrame_eq
    (by decide)

end OtelDatalake.Disk
