import OtelDatalake.Foundation.OrderedMap
import OtelDatalake.Foundation.OrderedQueue
import OtelDatalake.Buffer.Config

open Std OtelDatalake.Foundation

namespace OtelDatalake.Buffer

/-- What the buffer reads of an Arrow `RecordBatch`. -/
class RecordBatch (Batch : Type) where
  Schema : Type
  schemaDecidableEq : DecidableEq Schema
  schema : Batch → Schema
  numRows : Batch → Nat
  arrayMemorySize : Batch → Nat

instance (Batch : Type) [RecordBatch Batch] : DecidableEq (RecordBatch.Schema Batch) :=
  RecordBatch.schemaDecidableEq

/-- A record batch reduced to the sizes that the buffer reads and the bytes it carries. -/
structure PlainBatch where
  schema : UInt8
  rows : UInt8
  body : List UInt8
  deriving DecidableEq, Repr

instance : RecordBatch PlainBatch where
  Schema := UInt8
  schemaDecidableEq := inferInstance
  schema := PlainBatch.schema
  numRows batch := batch.rows.toNat
  arrayMemorySize batch := batch.body.length

inductive LeaseSlotState where
  | reserved
  | queued
  | inFlight
  deriving DecidableEq, Repr

inductive BatchPayload (Batch : Type) [RecordBatch Batch] where
  | inMemory (batch : Batch)
  | onDisk (segmentId offset len rows : Nat) (schema : RecordBatch.Schema Batch)

def BatchPayload.schema {Batch : Type} [RecordBatch Batch] : BatchPayload Batch → RecordBatch.Schema Batch
  | .inMemory batch => RecordBatch.schema batch
  | .onDisk _ _ _ _ schema => schema

def BatchPayload.isOnDisk {Batch : Type} [RecordBatch Batch] : BatchPayload Batch → Bool
  | .inMemory _ => false
  | .onDisk .. => true

/-- `Instant` is a count of nanoseconds from an arbitrary origin. -/
abbrev Instant := Nat

structure QueuedBatch (Batch : Type) [RecordBatch Batch] where
  seqId : Nat
  payload : BatchPayload Batch
  byteSize : Nat
  rowCount : Nat
  enqueuedAt : Instant
  firstFailedAt : Option Instant
  attempt : Nat
  readyAt : Option Instant

structure LeasedBatchMeta where
  seqId : Nat
  byteSize : Nat
  rowCount : Nat
  enqueuedAt : Instant
  firstFailedAt : Option Instant
  deriving DecidableEq, Repr

structure SignalRing (Batch : Type) [RecordBatch Batch] where
  queue : List (QueuedBatch Batch) := []
  slots : ExtTreeMap Nat LeaseSlotState := ∅
  inflightEnqueuedAt : ExtTreeMap Nat Instant := ∅
  nextSeq : Nat := 1
  bytesInFlight : Nat := 0
  rowsInFlight : Nat := 0
  inflightLeases : Nat := 0
  evictedRecords : Nat := 0
  evictedUnreclaimedBytes : ExtTreeMap Nat Nat := ∅
  unreclaimedDiskBytes : Nat := 0
  closed : Bool := false
  receiverDropped : Bool := false
  fatalError : Option String := none

section Ring

variable {Batch : Type} [RecordBatch Batch]

/-- `enqueue_ordered` on the queue alone: push back, push front, or insert before the first later item. -/
def enqueueOrdered (queue : List (QueuedBatch Batch)) (item : QueuedBatch Batch) :
    List (QueuedBatch Batch) :=
  if queue.getLast?.all (fun back => back.seqId < item.seqId) then
    queue ++ [item]
  else if queue.head?.any (fun front => item.seqId < front.seqId) then
    item :: queue
  else
    let position := (queue.findIdx? (fun existing => existing.seqId > item.seqId)).getD queue.length
    queue.insertIdx position item

/-- The `while let` of `advance_watermark`: drop the first charge as long as it is at or below the watermark. -/
def releaseReclaimed (watermark : Nat) : Nat → ExtTreeMap Nat Nat → Nat → ExtTreeMap Nat Nat × Nat
  | 0, evicted, bytes => (evicted, bytes)
  | fuel + 1, evicted, bytes =>
    match firstKeyValue? evicted with
    | none => (evicted, bytes)
    | some (seq, charge) =>
      if seq ≤ watermark then releaseReclaimed watermark fuel (evicted.erase seq) (bytes - charge)
      else (evicted, bytes)

namespace SignalRing

def watermarkCandidate (ring : SignalRing Batch) : Nat :=
  match firstKeyValue? ring.slots with
  | none => ring.nextSeq - 1
  | some (firstUnacked, _) => firstUnacked - 1

def advanceWatermark (ring : SignalRing Batch) (committedSeq : Nat) : SignalRing Batch × Nat :=
  let watermark := max committedSeq ring.watermarkCandidate
  let released := releaseReclaimed watermark ring.evictedUnreclaimedBytes.size
    ring.evictedUnreclaimedBytes ring.unreclaimedDiskBytes
  ({ ring with evictedUnreclaimedBytes := released.1, unreclaimedDiskBytes := released.2 }, watermark)

/-- The slot and the budget of an evicted batch; the file space of an on-disk one stays charged. -/
def releaseEvicted (ring : SignalRing Batch) (evicted : QueuedBatch Batch) : SignalRing Batch :=
  let released := { ring with
    bytesInFlight := ring.bytesInFlight - evicted.byteSize
    rowsInFlight := ring.rowsInFlight - evicted.rowCount
    evictedRecords := ring.evictedRecords + evicted.rowCount
    slots := ring.slots.erase evicted.seqId }
  if evicted.payload.isOnDisk then
    { released with
      evictedUnreclaimedBytes := released.evictedUnreclaimedBytes.insert evicted.seqId evicted.byteSize
      unreclaimedDiskBytes := released.unreclaimedDiskBytes + evicted.byteSize }
  else released

def recordEvictedBatch (ring : SignalRing Batch) (evicted : QueuedBatch Batch) (committedSeq : Nat) :
    SignalRing Batch × Nat :=
  (ring.releaseEvicted evicted).advanceWatermark committedSeq

/-- One iteration of the loop of `requeue_at_head`, with the `any_requeued` flag. -/
def requeueEntry (nextAttempt : Nat) (readyAt : Option Instant) (progress : SignalRing Batch × Bool)
    (entry : BatchPayload Batch × LeasedBatchMeta) : SignalRing Batch × Bool :=
  let ring := { progress.1 with
    inflightEnqueuedAt := progress.1.inflightEnqueuedAt.erase entry.2.seqId }
  if ring.slots[entry.2.seqId]? ≠ some .inFlight then (ring, progress.2)
  else
    ({ ring with
      slots := ring.slots.insert entry.2.seqId .queued
      queue := enqueueOrdered ring.queue
        { seqId := entry.2.seqId
          payload := entry.1
          byteSize := entry.2.byteSize
          rowCount := entry.2.rowCount
          enqueuedAt := entry.2.enqueuedAt
          firstFailedAt := entry.2.firstFailedAt
          attempt := nextAttempt
          readyAt := readyAt } }, true)

def requeueAtHead (ring : SignalRing Batch) (payloads : List (BatchPayload Batch))
    (leased : List LeasedBatchMeta) (nextAttempt : Nat) (readyAt : Option Instant) : SignalRing Batch :=
  let requeued := (payloads.zip leased).reverse.foldl (requeueEntry nextAttempt readyAt) (ring, false)
  if requeued.2 then { requeued.1 with inflightLeases := requeued.1.inflightLeases - 1 }
  else requeued.1

structure AckProgress where
  slots : ExtTreeMap Nat LeaseSlotState
  inflightEnqueuedAt : ExtTreeMap Nat Instant
  ackedBytes : Nat := 0
  ackedRows : Nat := 0
  anyAcked : Bool := false

def ackEntry (progress : AckProgress) (item : LeasedBatchMeta) : AckProgress :=
  let removed := progress.slots[item.seqId]?
  let erased := { progress with
    inflightEnqueuedAt := progress.inflightEnqueuedAt.erase item.seqId
    slots := progress.slots.erase item.seqId }
  if removed = some .inFlight then
    { erased with
      anyAcked := true
      ackedBytes := progress.ackedBytes + item.byteSize
      ackedRows := progress.ackedRows + item.rowCount }
  else erased

def releaseAcked (ring : SignalRing Batch) (acked : AckProgress) : SignalRing Batch :=
  { ring with
    slots := acked.slots
    inflightEnqueuedAt := acked.inflightEnqueuedAt
    bytesInFlight := ring.bytesInFlight - acked.ackedBytes
    rowsInFlight := ring.rowsInFlight - acked.ackedRows
    inflightLeases := ring.inflightLeases - 1 }

def ackEntries (ring : SignalRing Batch) (leased : List LeasedBatchMeta) (committedSeq : Nat) :
    SignalRing Batch × Nat × Nat :=
  let acked := leased.foldl ackEntry
    { slots := ring.slots, inflightEnqueuedAt := ring.inflightEnqueuedAt }
  if acked.anyAcked then
    let advanced := (ring.releaseAcked acked).advanceWatermark committedSeq
    (advanced.1, advanced.2, acked.ackedRows)
  else
    ({ ring with slots := acked.slots, inflightEnqueuedAt := acked.inflightEnqueuedAt },
      committedSeq, acked.ackedRows)

end SignalRing

end Ring

/-- The ring with the atomics that surround its mutex, and the row counters of its metrics. -/
structure SignalRingState (Batch : Type) [RecordBatch Batch] where
  ring : SignalRing Batch := {}
  committedSeq : Nat := 0
  corruptionDrops : Nat := 0
  replayedRecords : Nat := 0
  deadLetterDrops : Nat := 0
  shutdownTimeoutDrops : Nat := 0
  overflowDrops : Nat := 0
  committedRecords : Nat := 0
  blockedSenders : Nat := 0
  firstTransientFailureUnixMs : Nat := 0

end OtelDatalake.Buffer
