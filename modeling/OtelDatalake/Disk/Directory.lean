import OtelDatalake.Disk.Frame

open Std OtelDatalake.Foundation OtelDatalake.Buffer

namespace OtelDatalake.Disk

structure DiskWatermark where
  instanceId : Nat := 0
  logs : Nat := 0
  metrics : Nat := 0
  traces : Nat := 0
  deriving DecidableEq, Repr

namespace DiskWatermark

def forSignal (watermark : DiskWatermark) : SignalKind → Nat
  | .logs => watermark.logs
  | .metrics => watermark.metrics
  | .traces => watermark.traces

def mergeMonotonic (watermark incoming : DiskWatermark) : DiskWatermark × Bool :=
  let merged : DiskWatermark :=
    { instanceId := if watermark.instanceId = 0 ∧ incoming.instanceId ≠ 0 then incoming.instanceId
        else watermark.instanceId
      logs := if incoming.logs > watermark.logs then incoming.logs else watermark.logs
      metrics := if incoming.metrics > watermark.metrics then incoming.metrics else watermark.metrics
      traces := if incoming.traces > watermark.traces then incoming.traces else watermark.traces }
  (merged, merged != watermark)

@[simp] theorem mergeMonotonic_forSignal (watermark incoming : DiskWatermark) (signal : SignalKind) :
    (watermark.mergeMonotonic incoming).1.forSignal signal =
      max (watermark.forSignal signal) (incoming.forSignal signal) := by
  cases signal <;> simp only [mergeMonotonic, forSignal] <;> split <;> omega

end DiskWatermark

/-- A segment file; the first `synced` of its bytes are known to be on stable storage. -/
structure SegmentFile where
  bytes : Bytes := []
  synced : Nat := 0
  deriving DecidableEq, Repr

structure Directory where
  segments : ExtTreeMap Nat SegmentFile := ∅
  watermark : Option DiskWatermark := none

/-- What the writer does to the directory. -/
inductive FsOp where
  | create (segmentId : Nat)
  | write (segmentId : Nat) (bytes : Bytes)
  | sync (segmentId : Nat)
  | unlink (segmentId : Nat)
  | replaceWatermark (watermark : DiskWatermark)
  deriving DecidableEq, Repr

namespace Directory

def apply (dir : Directory) : FsOp → Directory
  | .create segmentId => { dir with segments := dir.segments.insert segmentId {} }
  | .write segmentId bytes =>
    match dir.segments[segmentId]? with
    | none => dir
    | some file =>
      { dir with segments := dir.segments.insert segmentId { file with bytes := file.bytes ++ bytes } }
  | .sync segmentId =>
    match dir.segments[segmentId]? with
    | none => dir
    | some file =>
      { dir with segments := dir.segments.insert segmentId { file with synced := file.bytes.length } }
  | .unlink segmentId => { dir with segments := dir.segments.erase segmentId }
  | .replaceWatermark watermark => { dir with watermark := some watermark }

def applyAll (dir : Directory) (ops : List FsOp) : Directory := ops.foldl apply dir

def watermarkOf (dir : Directory) (signal : SignalKind) : Nat := (dir.watermark.getD {}).forSignal signal

end Directory

structure SealedSegmentMeta where
  segmentId : Nat
  maxSeq : SignalKind → Nat
  hasFrames : Bool

namespace SealedSegmentMeta

def isFullyAcked (segment : SealedSegmentMeta) (watermark : DiskWatermark) : Bool :=
  segment.hasFrames && segment.maxSeq .logs ≤ watermark.logs &&
    segment.maxSeq .metrics ≤ watermark.metrics && segment.maxSeq .traces ≤ watermark.traces

theorem isFullyAcked_le {segment : SealedSegmentMeta} {watermark : DiskWatermark}
    (acked : segment.isFullyAcked watermark = true) (signal : SignalKind) :
    segment.maxSeq signal ≤ watermark.forSignal signal := by
  simp only [isFullyAcked, Bool.and_eq_true, decide_eq_true_eq] at acked
  cases signal
  · exact acked.1.1.2
  · exact acked.1.2
  · exact acked.2

end SealedSegmentMeta

end OtelDatalake.Disk
