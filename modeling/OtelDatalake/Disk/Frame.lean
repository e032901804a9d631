import OtelDatalake.Foundation.LittleEndian
import OtelDatalake.Buffer.Memory

open OtelDatalake.Foundation OtelDatalake.Buffer

namespace OtelDatalake.Disk

abbrev Bytes := List UInt8

/-- The CRC-32 and the Arrow IPC stream format, with the round trip that the format promises. -/
structure Codec (Batch : Type) [RecordBatch Batch] where
  crc32 : Bytes → UInt32
  encode : Batch → Except String Bytes
  decode : Bytes → Except String Batch
  roundTrip : ∀ batch payload, encode batch = .ok payload → decode payload = .ok batch

def frameMagic : Bytes := [0x4f, 0x54, 0x4c, 0x42]

def frameVersion : UInt8 := 1

def frameHeaderLen : Nat := 28

structure FrameHeader where
  signal : SignalKind
  seqId : Nat
  rowCount : Nat
  payloadLen : Nat
  crc32 : Nat
  deriving DecidableEq, Repr

inductive FrameDecodeError where
  | tornFrame
  | invalidHeader (reason : String)
  | crcMismatch (header : FrameHeader) (actualCrc : Nat)
  | ipcDecode (header : FrameHeader) (source : String)
  deriving DecidableEq, Repr

def hexCrc (crc : Nat) : String :=
  let digits := Nat.toDigits 16 crc
  "0x" ++ String.ofList (List.replicate (8 - digits.length) '0' ++ digits)

def FrameDecodeError.message : FrameDecodeError → String
  | .tornFrame => "torn OTLB frame at end of segment"
  | .invalidHeader reason => s!"invalid OTLB frame header: {reason}"
  | .crcMismatch header actualCrc =>
    s!"OTLB frame CRC32 mismatch at seq {header.seqId}: expected {hexCrc header.crc32}, got {hexCrc actualCrc}"
  | .ipcDecode header source => s!"OTLB frame IPC decode error at seq {header.seqId}: {source}"

variable {Batch : Type} [RecordBatch Batch]

/-- Header bytes `4..24`, which the checksum covers. -/
def checkedFields (signal : SignalKind) (seqId rowCount payloadLen : Nat) : Bytes :=
  [frameVersion, signal.asU8, 0, 0] ++ (toLe 8 seqId ++ (toLe 4 rowCount ++ toLe 4 payloadLen))

def frameCrc (codec : Codec Batch) (signal : SignalKind) (seqId rowCount : Nat) (payload : Bytes) : Nat :=
  (codec.crc32 (checkedFields signal seqId rowCount payload.length ++ payload)).toNat

def frameBytes (codec : Codec Batch) (signal : SignalKind) (seqId rowCount : Nat) (payload : Bytes) : Bytes :=
  frameMagic ++ (checkedFields signal seqId rowCount payload.length ++
    (toLe 4 (frameCrc codec signal seqId rowCount payload) ++ payload))

def encodeFrame (codec : Codec Batch) (signal : SignalKind) (seqId : Nat) (batch : Batch) :
    Except String (FrameHeader × Bytes) :=
  let rowCount := RecordBatch.numRows batch
  if rowCount > u32Max then .error "RecordBatch row_count exceeds u32::MAX"
  else
    match codec.encode batch with
    | .error reason => .error reason
    | .ok payload =>
      if payload.length > u32Max then .error "OTLB frame payload exceeds u32::MAX"
      else
        .ok ({ signal := signal, seqId := seqId, rowCount := rowCount, payloadLen := payload.length
               crc32 := frameCrc codec signal seqId rowCount payload },
          frameBytes codec signal seqId rowCount payload)

def patchFrameSeqId (codec : Codec Batch) (frame : Bytes) (header : FrameHeader) (seqId : Nat) :
    Except String (Bytes × FrameHeader) :=
  let expectedLen := frameHeaderLen + header.payloadLen
  if frame.length < frameHeaderLen || frame.length ≠ expectedLen then
    .error s!"cannot patch OTLB frame seq_id: buffer length ({frame.length}) does not match expected frame length ({expectedLen})"
  else
    let numbered := frame.take 8 ++ (toLe 8 seqId ++ frame.drop 16)
    let crc := (codec.crc32 (slice 4 20 numbered ++ numbered.drop frameHeaderLen)).toNat
    .ok (numbered.take 24 ++ (toLe 4 crc ++ numbered.drop frameHeaderLen),
      { header with seqId := seqId, crc32 := crc })

def hexByte (byte : UInt8) : String :=
  let digits := Nat.toDigits 16 byte.toNat
  String.ofList (if digits.length < 2 then '0' :: digits else digits)

def hexBytes (bytes : Bytes) : String := "[" ++ ", ".intercalate (bytes.map hexByte) ++ "]"

/-- The header fields at the front of `bytes`, of which there are at least `FRAME_HEADER_LEN`. -/
def decodeHeader (bytes : Bytes) (maxPayloadLen : Nat) : Except FrameDecodeError FrameHeader :=
  if bytes.take 4 ≠ frameMagic then
    .error (.invalidHeader s!"unexpected frame magic: {hexBytes (bytes.take 4)}")
  else if bytes.getD 4 0 ≠ frameVersion then
    .error (.invalidHeader s!"unsupported frame version: {bytes.getD 4 0}")
  else
    match SignalKind.fromU8 (bytes.getD 5 0) with
    | none => .error (.invalidHeader s!"invalid signal type byte: {bytes.getD 5 0}")
    | some signal =>
      let payloadLen := ofLe (slice 20 4 bytes)
      if payloadLen > maxPayloadLen then
        .error (.invalidHeader s!"frame payload_len ({payloadLen}) exceeds max_payload_len ({maxPayloadLen})")
      else
        .ok { signal := signal
              seqId := ofLe (slice 8 8 bytes)
              rowCount := ofLe (slice 16 4 bytes)
              payloadLen := payloadLen
              crc32 := ofLe (slice 24 4 bytes) }

/-- `decode_frame` on the bytes that are left to read. -/
def decodeFrame (codec : Codec Batch) (bytes : Bytes) (maxPayloadLen : Nat) :
    Except FrameDecodeError (Option (FrameHeader × Batch)) :=
  if bytes.length < frameHeaderLen then
    if bytes.isEmpty then .ok none else .error .tornFrame
  else
    match decodeHeader bytes maxPayloadLen with
    | .error error => .error error
    | .ok header =>
      if bytes.length < frameHeaderLen + header.payloadLen then .error .tornFrame
      else
        let payload := slice frameHeaderLen header.payloadLen bytes
        let actualCrc := (codec.crc32 (slice 4 20 bytes ++ payload)).toNat
        if actualCrc ≠ header.crc32 then .error (.crcMismatch header actualCrc)
        else
          match codec.decode payload with
          | .error source => .error (.ipcDecode header source)
          | .ok batch => .ok (some (header, batch))

@[simp] theorem checkedFields_length (signal : SignalKind) (seqId rowCount payloadLen : Nat) :
    (checkedFields signal seqId rowCount payloadLen).length = 20 := by
  simp [checkedFields]

@[simp] theorem frameBytes_length (codec : Codec Batch) (signal : SignalKind) (seqId rowCount : Nat)
    (payload : Bytes) : (frameBytes codec signal seqId rowCount payload).length = frameHeaderLen + payload.length := by
  simp [frameBytes, frameMagic, frameHeaderLen]
  omega

/-- A batch with its number, as `encode_frame` can store it. -/
structure Frame (codec : Codec Batch) where
  signal : SignalKind
  seqId : Nat
  batch : Batch
  payload : Bytes
  encoded : codec.encode batch = .ok payload
  seqFits : seqId ≤ u64Max
  rowFits : RecordBatch.numRows batch ≤ u32Max
  payloadFits : payload.length ≤ u32Max

namespace Frame

variable {codec : Codec Batch}

def bytes (frame : Frame codec) : Bytes :=
  frameBytes codec frame.signal frame.seqId (RecordBatch.numRows frame.batch) frame.payload

def header (frame : Frame codec) : FrameHeader :=
  { signal := frame.signal
    seqId := frame.seqId
    rowCount := RecordBatch.numRows frame.batch
    payloadLen := frame.payload.length
    crc32 := frameCrc codec frame.signal frame.seqId (RecordBatch.numRows frame.batch) frame.payload }

theorem bytes_length (frame : Frame codec) : frame.bytes.length = frameHeaderLen + frame.payload.length :=
  frameBytes_length _ _ _ _ _

theorem bytes_pos (frame : Frame codec) : 0 < frame.bytes.length := by
  rw [bytes_length, frameHeaderLen]
  omega

theorem encodeFrame_eq (frame : Frame codec) :
    encodeFrame codec frame.signal frame.seqId frame.batch = .ok (frame.header, frame.bytes) := by
  simp only [encodeFrame, Nat.not_lt.mpr frame.rowFits, if_false, frame.encoded,
    Nat.not_lt.mpr frame.payloadFits]
  rfl

end Frame

theorem encodeFrame_ok {codec : Codec Batch} {signal : SignalKind} {seqId : Nat} {batch : Batch}
    {header : FrameHeader} {bytes : Bytes} (numbered : seqId ≤ u64Max)
    (encoded : encodeFrame codec signal seqId batch = .ok (header, bytes)) :
    ∃ frame : Frame codec, frame.signal = signal ∧ frame.seqId = seqId ∧ frame.batch = batch ∧
      frame.header = header ∧ frame.bytes = bytes := by
  simp only [encodeFrame] at encoded
  split at encoded
  · cases encoded
  · rename_i rows
    split at encoded
    · cases encoded
    · rename_i payload written
      split at encoded
      · cases encoded
      · rename_i length
        cases encoded
        exact ⟨⟨signal, seqId, batch, payload, written, numbered, Nat.not_lt.mp rows, Nat.not_lt.mp length⟩,
          rfl, rfl, rfl, rfl, rfl⟩

section Layout

variable (codec : Codec Batch) (signal : SignalKind) (seqId rowCount : Nat) (payload rest : Bytes)

theorem frameBytes_fields :
    frameBytes codec signal seqId rowCount payload ++ rest =
      frameMagic ++ ([frameVersion, signal.asU8, 0, 0] ++ (toLe 8 seqId ++ (toLe 4 rowCount ++
        (toLe 4 payload.length ++ (toLe 4 (frameCrc codec signal seqId rowCount payload) ++
          (payload ++ rest)))))) := by
  simp [frameBytes, checkedFields]

theorem frame_magic : (frameBytes codec signal seqId rowCount payload ++ rest).take 4 = frameMagic := by
  rw [frameBytes_fields]
  rfl

theorem frame_version : (frameBytes codec signal seqId rowCount payload ++ rest).getD 4 0 = frameVersion := by
  rw [frameBytes_fields]
  rfl

theorem frame_signal : (frameBytes codec signal seqId rowCount payload ++ rest).getD 5 0 = signal.asU8 := by
  rw [frameBytes_fields]
  rfl

theorem frame_seqId : slice 8 8 (frameBytes codec signal seqId rowCount payload ++ rest) = toLe 8 seqId := by
  rw [frameBytes_fields, ← List.append_assoc frameMagic]
  exact slice_append rfl (toLe_length _ _)

theorem frame_rowCount :
    slice 16 4 (frameBytes codec signal seqId rowCount payload ++ rest) = toLe 4 rowCount := by
  rw [frameBytes_fields, ← List.append_assoc frameMagic, ← List.append_assoc (frameMagic ++ _)]
  exact slice_append (by simp [frameMagic]) (toLe_length _ _)

theorem frame_payloadLen :
    slice 20 4 (frameBytes codec signal seqId rowCount payload ++ rest) = toLe 4 payload.length := by
  rw [frameBytes_fields, ← List.append_assoc frameMagic, ← List.append_assoc (frameMagic ++ _),
    ← List.append_assoc (_ ++ toLe 8 seqId)]
  exact slice_append (by simp [frameMagic]) (toLe_length _ _)

theorem frame_crc : slice 24 4 (frameBytes codec signal seqId rowCount payload ++ rest) =
    toLe 4 (frameCrc codec signal seqId rowCount payload) := by
  have split : frameBytes codec signal seqId rowCount payload ++ rest =
      (frameMagic ++ checkedFields signal seqId rowCount payload.length) ++
        (toLe 4 (frameCrc codec signal seqId rowCount payload) ++ (payload ++ rest)) := by
    simp [frameBytes]
  rw [split]
  exact slice_append (by simp [frameMagic]) (toLe_length _ _)

theorem frame_checked : slice 4 20 (frameBytes codec signal seqId rowCount payload ++ rest) =
    checkedFields signal seqId rowCount payload.length := by
  have split : frameBytes codec signal seqId rowCount payload ++ rest =
      frameMagic ++ (checkedFields signal seqId rowCount payload.length ++
        (toLe 4 (frameCrc codec signal seqId rowCount payload) ++ (payload ++ rest))) := by
    simp [frameBytes]
  rw [split]
  exact slice_append rfl (checkedFields_length _ _ _ _)

theorem frame_payload :
    slice frameHeaderLen payload.length (frameBytes codec signal seqId rowCount payload ++ rest) = payload := by
  have split : frameBytes codec signal seqId rowCount payload ++ rest =
      (frameMagic ++ (checkedFields signal seqId rowCount payload.length ++
        toLe 4 (frameCrc codec signal seqId rowCount payload))) ++ (payload ++ rest) := by
    simp [frameBytes]
  rw [split]
  exact slice_append (by simp [frameMagic, frameHeaderLen]) rfl

end Layout

theorem decodeHeader_take {bytes : Bytes} {count : Nat} (whole : frameHeaderLen ≤ count) (maxPayloadLen : Nat) :
    decodeHeader (bytes.take count) maxPayloadLen = decodeHeader bytes maxPayloadLen := by
  rw [frameHeaderLen] at whole
  have short : ∀ start width, start + width ≤ 28 → slice start width (bytes.take count) = slice start width bytes := by
    intro start width within
    simp only [slice, List.drop_take, List.take_take]
    congr 1
    omega
  have single : ∀ index < 28, (bytes.take count).getD index 0 = bytes.getD index 0 := by
    intro index within
    simp only [List.getD_eq_getElem?_getD, List.getElem?_take, if_pos (show index < count by omega)]
  have magic : (bytes.take count).take 4 = bytes.take 4 := by
    rw [List.take_take]
    congr 1
    omega
  simp only [decodeHeader, magic, single 4 (by omega), single 5 (by omega), short 20 4 (by omega),
    short 8 8 (by omega), short 16 4 (by omega), short 24 4 (by omega)]

namespace Frame

variable {codec : Codec Batch}

theorem decodeHeader_eq (frame : Frame codec) (rest : Bytes) {maxPayloadLen : Nat}
    (bounded : frame.payload.length ≤ maxPayloadLen) :
    decodeHeader (frame.bytes ++ rest) maxPayloadLen = .ok frame.header := by
  have seq : ofLe (toLe 8 frame.seqId) = frame.seqId := ofLe_toLe (by
    have := frame.seqFits
    unfold u64Max at this
    omega)
  have rows : ofLe (toLe 4 (RecordBatch.numRows frame.batch)) = RecordBatch.numRows frame.batch := ofLe_toLe (by
    have := frame.rowFits
    unfold u32Max at this
    omega)
  have length : ofLe (toLe 4 frame.payload.length) = frame.payload.length := ofLe_toLe (by
    have := frame.payloadFits
    unfold u32Max at this
    omega)
  have crc : ofLe (toLe 4 (frameCrc codec frame.signal frame.seqId (RecordBatch.numRows frame.batch)
      frame.payload)) = frameCrc codec frame.signal frame.seqId (RecordBatch.numRows frame.batch)
      frame.payload := ofLe_toLe (UInt32.toNat_lt _)
  simp only [decodeHeader, Frame.bytes, frame_magic, frame_version, frame_signal, frame_seqId, frame_rowCount,
    frame_payloadLen, frame_crc, ne_eq, not_true_eq_false, if_false, SignalKind.fromU8_asU8, seq, rows, length,
    crc, Nat.not_lt.mpr bounded]
  rfl

theorem decodeFrame_eq (frame : Frame codec) (rest : Bytes) {maxPayloadLen : Nat}
    (bounded : frame.payload.length ≤ maxPayloadLen) :
    decodeFrame codec (frame.bytes ++ rest) maxPayloadLen = .ok (some (frame.header, frame.batch)) := by
  have long : ¬(frame.bytes ++ rest).length < frameHeaderLen := by
    rw [List.length_append, frame.bytes_length]
    omega
  have contained : ¬(frame.bytes ++ rest).length < frameHeaderLen + frame.header.payloadLen := by
    have same : frame.header.payloadLen = frame.payload.length := rfl
    rw [List.length_append, frame.bytes_length, same]
    omega
  have payload : slice frameHeaderLen frame.header.payloadLen (frame.bytes ++ rest) = frame.payload :=
    frame_payload _ _ _ _ _ _
  have checked : slice 4 20 (frame.bytes ++ rest) = checkedFields frame.signal frame.seqId
      (RecordBatch.numRows frame.batch) frame.payload.length := frame_checked _ _ _ _ _ _
  have crc : (codec.crc32 (checkedFields frame.signal frame.seqId (RecordBatch.numRows frame.batch)
      frame.payload.length ++ frame.payload)).toNat = frame.header.crc32 := rfl
  simp only [decodeFrame, if_neg long, frame.decodeHeader_eq rest bounded, if_neg contained, payload, checked,
    crc, ne_eq, not_true_eq_false, if_false, codec.roundTrip _ _ frame.encoded]

/-- A proper part of a frame at the end of what is read is torn. -/
theorem decodeFrame_take (frame : Frame codec) {count maxPayloadLen : Nat} (some : 0 < count)
    (short : count < frame.bytes.length) (bounded : frame.payload.length ≤ maxPayloadLen) :
    decodeFrame codec (frame.bytes.take count) maxPayloadLen = .error .tornFrame := by
  have length : (frame.bytes.take count).length = count := by
    rw [List.length_take]
    omega
  rw [frame.bytes_length] at short
  unfold decodeFrame
  split
  · rename_i header
    have nonempty : (frame.bytes.take count).isEmpty = false := by
      cases taken : frame.bytes.take count with
      | nil =>
        rw [taken] at length
        simp at length
        omega
      | cons => rfl
    simp [nonempty]
  · rename_i header
    rw [length] at header
    have whole := frame.decodeHeader_eq [] bounded
    rw [List.append_nil] at whole
    have cut : (frame.bytes.take count).length < frameHeaderLen + frame.header.payloadLen := by
      rw [length, Frame.header]
      exact short
    simp only [decodeHeader_take (Nat.not_lt.mp header), whole, if_pos cut]

theorem patchFrameSeqId_eq (frame : Frame codec) (seqId : Nat) (header : FrameHeader)
    (same : header.payloadLen = frame.payload.length) :
    patchFrameSeqId codec frame.bytes header seqId =
      .ok (frameBytes codec frame.signal seqId (RecordBatch.numRows frame.batch) frame.payload,
        { header with
          seqId := seqId
          crc32 := frameCrc codec frame.signal seqId (RecordBatch.numRows frame.batch) frame.payload }) := by
  have fits : (frame.bytes.length < frameHeaderLen ||
      decide (frame.bytes.length ≠ frameHeaderLen + header.payloadLen)) = false := by
    simp [frame.bytes_length, same]
  have numbered : frame.bytes.take 8 ++ (toLe 8 seqId ++ frame.bytes.drop 16) =
      frameMagic ++ (checkedFields frame.signal seqId (RecordBatch.numRows frame.batch) frame.payload.length ++
        (toLe 4 frame.header.crc32 ++ frame.payload)) := by
    have fields := frameBytes_fields codec frame.signal frame.seqId (RecordBatch.numRows frame.batch)
      frame.payload []
    rw [List.append_nil, List.append_nil] at fields
    have front : frame.bytes.take 8 = frameMagic ++ [frameVersion, frame.signal.asU8, 0, 0] := by
      rw [Frame.bytes, fields]
      rfl
    have back : frame.bytes.drop 16 = toLe 4 (RecordBatch.numRows frame.batch) ++
        (toLe 4 frame.payload.length ++ (toLe 4 frame.header.crc32 ++ frame.payload)) := by
      rw [Frame.bytes, fields, ← List.append_assoc frameMagic, ← List.append_assoc (frameMagic ++ _)]
      exact List.drop_left' (by simp [frameMagic])
    rw [front, back]
    simp [checkedFields]
  unfold patchFrameSeqId
  rw [if_neg (by rw [fits]; decide)]
  simp only [numbered]
  have checked : slice 4 20 (frameMagic ++ (checkedFields frame.signal seqId (RecordBatch.numRows frame.batch)
      frame.payload.length ++ (toLe 4 frame.header.crc32 ++ frame.payload))) =
      checkedFields frame.signal seqId (RecordBatch.numRows frame.batch) frame.payload.length :=
    slice_append rfl (checkedFields_length _ _ _ _)
  have behind : (frameMagic ++ (checkedFields frame.signal seqId (RecordBatch.numRows frame.batch)
      frame.payload.length ++ (toLe 4 frame.header.crc32 ++ frame.payload))).drop frameHeaderLen =
      frame.payload := by
    rw [← List.append_assoc, ← List.append_assoc]
    exact List.drop_left' (by simp [frameMagic, frameHeaderLen])
  have ahead : (frameMagic ++ (checkedFields frame.signal seqId (RecordBatch.numRows frame.batch)
      frame.payload.length ++ (toLe 4 frame.header.crc32 ++ frame.payload))).take 24 =
      frameMagic ++ checkedFields frame.signal seqId (RecordBatch.numRows frame.batch)
        frame.payload.length := by
    rw [← List.append_assoc]
    exact List.take_left' (by simp [frameMagic])
  rw [checked, behind, ahead]
  simp only [frameBytes, frameCrc, List.append_assoc]

end Frame

section Plain

def crc32Bit (crc : UInt32) : UInt32 := if crc % 2 = 1 then (crc / 2) ^^^ 0xedb88320 else crc / 2

def crc32Byte (crc : UInt32) (byte : UInt8) : UInt32 :=
  (List.range 8).foldl (fun crc _ => crc32Bit crc) (crc ^^^ byte.toUInt32)

/-- The checksum of `crc32fast`. -/
def plainCrc32 (bytes : Bytes) : UInt32 := bytes.foldl crc32Byte 0xffffffff ^^^ 0xffffffff

/-- A codec for plain batches: the schema, the row count and the body. -/
def plainCodec : Codec PlainBatch where
  crc32 := plainCrc32
  encode batch := .ok (batch.schema :: batch.rows :: batch.body)
  decode
    | schema :: rows :: body => .ok { schema := schema, rows := rows, body := body }
    | _ => .error "unexpected end of stream"
  roundTrip := by
    intro batch payload encoded
    cases encoded
    rfl

def plainFrame (signal : SignalKind) (seqId : Nat) (batch : PlainBatch) (numbered : seqId ≤ u64Max)
    (fits : batch.body.length + 2 ≤ u32Max) : Frame plainCodec where
  signal := signal
  seqId := seqId
  batch := batch
  payload := batch.schema :: batch.rows :: batch.body
  encoded := rfl
  seqFits := numbered
  rowFits := (UInt8.toNat_lt batch.rows).le.trans (by decide)
  payloadFits := fits

end Plain

end OtelDatalake.Disk
