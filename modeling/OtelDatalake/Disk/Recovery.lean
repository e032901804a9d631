import OtelDatalake.Buffer.Restore
import OtelDatalake.Disk.Directory

open Std OtelDatalake.Foundation OtelDatalake.Buffer

namespace OtelDatalake.Disk

variable {Batch : Type} [RecordBatch Batch]

abbrev Rings (Batch : Type) [RecordBatch Batch] := SignalKind → SignalRingState Batch

def DiskWatermark.fromRings (instanceId : Nat) (rings : Rings Batch) : DiskWatermark :=
  { instanceId := instanceId
    logs := (rings .logs).committedSeq
    metrics := (rings .metrics).committedSeq
    traces := (rings .traces).committedSeq }

/-- `FRAME_HEADER_LEN_U32.saturating_add(payload_len)`. -/
def frameLen (header : FrameHeader) : Nat := min (frameHeaderLen + header.payloadLen) u32Max

def recoveredItem (segmentNum offset : Nat) (header : FrameHeader) (batch : Batch) (now : Instant) :
    QueuedBatch Batch :=
  { seqId := header.seqId
    payload := .onDisk segmentNum offset (frameLen header) header.rowCount (RecordBatch.schema batch)
    byteSize := frameLen header
    rowCount := header.rowCount
    enqueuedAt := now
    firstFailedAt := none
    attempt := 0
    readyAt := none }

/-- What the scan of one segment has done to the rings, and its own variables. -/
structure SegmentScan (Batch : Type) [RecordBatch Batch] where
  events : List (SignalKind × RecoveryEvent Batch) := []
  maxSeq : SignalKind → Nat := fun _ => 0
  unackedFrames : Nat := 0
  truncateAt : Option Nat := none

namespace SegmentScan

def seeFrame (scan : SegmentScan Batch) (signal : SignalKind) (seqId : Nat) (event : RecoveryEvent Batch) :
    SegmentScan Batch :=
  { scan with
    events := scan.events ++ [(signal, event)]
    maxSeq := fun other => if other = signal then max (scan.maxSeq signal) seqId else scan.maxSeq other }

end SegmentScan

def payloadBound (maxPayloadLen fileLen offset : Nat) : Nat :=
  max maxPayloadLen (min (fileLen - offset - frameHeaderLen) u32Max)

section Scan

variable (codec : Codec Batch) (maxPayloadLen : Nat) (watermark : DiskWatermark) (segmentNum : Nat)
  (now : Instant) (file : Bytes)

/-- The loop of `recover_single_segment` from an offset on. -/
def scanSegment : Nat → Nat → SegmentScan Batch → SegmentScan Batch
  | 0, _, scan => scan
  | fuel + 1, offset, scan =>
    match decodeFrame codec (file.drop offset) (payloadBound maxPayloadLen file.length offset) with
    | .ok none => scan
    | .ok (some (header, batch)) =>
      let seen := scan.seeFrame header.signal header.seqId
        (.frame (recoveredItem segmentNum offset header batch now))
      let counted := if header.seqId ≤ watermark.forSignal header.signal then seen
        else { seen with unackedFrames := seen.unackedFrames + 1 }
      scanSegment fuel (offset + frameLen header) counted
    | .error .tornFrame => { scan with truncateAt := some offset }
    | .error (.crcMismatch header _) | .error (.ipcDecode header _) =>
      scanSegment fuel (offset + frameLen header)
        (scan.seeFrame header.signal header.seqId (.corrupted header.seqId header.rowCount))
    | .error (.invalidHeader _) => { scan with events := scan.events ++ [(.logs, .invalidHeader)] }

/-- Every iteration moves on by a frame header at least, so the file's length bounds their number. -/
def scanFile : SegmentScan Batch :=
  scanSegment codec maxPayloadLen watermark segmentNum now file (file.length + 1) 0 {}

end Scan

def recordEvent (watermark : DiskWatermark) (rings : Rings Batch)
    (event : SignalKind × RecoveryEvent Batch) : Rings Batch :=
  Function.update rings event.1 ((rings event.1).recover (watermark.forSignal event.1) event.2)

structure RecoveredSegment (Batch : Type) [RecordBatch Batch] where
  rings : Rings Batch
  file : Bytes
  segment : Option SealedSegmentMeta

def recoverSingleSegment (codec : Codec Batch) (segmentNum maxPayloadLen : Nat) (watermark : DiskWatermark)
    (now : Instant) (rings : Rings Batch) (file : Bytes) : RecoveredSegment Batch :=
  let scan := scanFile codec maxPayloadLen watermark segmentNum now file
  { rings := scan.events.foldl (recordEvent watermark) rings
    file := scan.truncateAt.elim file file.take
    segment := if scan.unackedFrames > 0 then
        some { segmentId := segmentNum, maxSeq := scan.maxSeq, hasFrames := true }
      else none }

end OtelDatalake.Disk
