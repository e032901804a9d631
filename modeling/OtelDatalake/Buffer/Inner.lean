import OtelDatalake.Buffer.Memory

open Std OtelDatalake.Foundation

namespace OtelDatalake.Buffer

structure LeaseId where
  instanceId : Nat
  signal : SignalKind
  firstSeq : Nat
  lastSeq : Nat
  deriving DecidableEq, Repr

inductive FailureClass where
  | transient
  | rejected (reason : String)
  | fatal (reason : String)
  deriving DecidableEq, Repr

structure Lease (Batch : Type) [RecordBatch Batch] where
  id : LeaseId
  batches : List Batch
  payloads : List (BatchPayload Batch)
  leased : List LeasedBatchMeta
  numRows : Nat
  quarantinedRows : Nat := 0
  byteSize : Nat
  attempt : Nat
  leasedAt : Instant

structure WrittenFrame where
  segmentId : Nat
  offset : Nat
  len : Nat
  deriving DecidableEq, Repr

structure AppendReservation (Batch : Type) [RecordBatch Batch] where
  signal : SignalKind
  seqId : Nat
  frameBytesLen : Nat
  batchRows : Nat
  rows : Nat
  schema : RecordBatch.Schema Batch

structure BufferInner where
  sinkName : String
  instanceId : Nat
  config : BufferConfig

section Operations

variable {Batch : Type} [RecordBatch Batch]

def QueuedBatch.leasedMeta (item : QueuedBatch Batch) : LeasedBatchMeta :=
  { seqId := item.seqId
    byteSize := item.byteSize
    rowCount := item.rowCount
    enqueuedAt := item.enqueuedAt
    firstFailedAt := item.firstFailedAt }

def BatchPayload.inMemoryBatch? : BatchPayload Batch → Option Batch
  | .inMemory batch => some batch
  | .onDisk .. => none

namespace SignalRing

/-- `ready_at > now`, false when there is no deadline. -/
def notReady (readyAt : Option Instant) (now : Instant) : Bool := readyAt.any (fun deadline => deadline > now)

def recordsExceeded (config : BufferConfig) (rows next : Nat) : Bool :=
  config.maxBatchRecords.any fun maxRecords => maxRecords ≤ 1 || rows + next > maxRecords

structure CoalesceCheck where
  lastSeq : Nat
  bytes : Nat
  rows : Nat
  count : Nat := 1
  hitBoundary : Bool := false

def coalesce (config : BufferConfig) (now : Instant) (slots : ExtTreeMap Nat LeaseSlotState)
    (firstAttempt : Nat) (firstSchema : RecordBatch.Schema Batch) (check : CoalesceCheck) :
    List (QueuedBatch Batch) → CoalesceCheck
  | [] => check
  | next :: rest =>
    let expected := saturatingSucc check.lastSeq
    if next.seqId ≠ expected then
      if slots[expected]? ≠ some .reserved then { check with hitBoundary := true } else check
    else if notReady next.readyAt now || next.attempt ≠ firstAttempt || next.payload.schema ≠ firstSchema ||
        check.bytes + next.byteSize > config.maxBatchSizeBytes ||
        recordsExceeded config check.rows next.rowCount then
      { check with hitBoundary := true }
    else
      coalesce config now slots firstAttempt firstSchema
        { check with
          lastSeq := next.seqId
          bytes := check.bytes + next.byteSize
          rows := check.rows + next.rowCount
          count := check.count + 1 } rest

def coalesceFront (config : BufferConfig) (now : Instant) (ring : SignalRing Batch)
    (front : QueuedBatch Batch) (rest : List (QueuedBatch Batch)) : CoalesceCheck :=
  coalesce config now ring.slots front.attempt front.payload.schema
    { lastSeq := front.seqId, bytes := front.byteSize, rows := front.rowCount } rest

def hasEarlierReserved (ring : SignalRing Batch) (seqId : Nat) : Bool :=
  ring.slots.toList.any fun slot => slot.1 < seqId && slot.2 == .reserved

def isDrained (ring : SignalRing Batch) : Bool :=
  ring.closed && ring.queue.isEmpty && ring.inflightLeases == 0 && ring.slots.isEmpty

/-- Pops `items` off the queue into a lease: every slot becomes `InFlight`. -/
def leaseItems (ring : SignalRing Batch) (items rest : List (QueuedBatch Batch)) : SignalRing Batch :=
  { ring with
    queue := rest
    slots := insertKeys ring.slots (items.map (·.seqId)) .inFlight
    inflightEnqueuedAt := items.foldl (fun times item => times.insert item.seqId item.enqueuedAt)
      ring.inflightEnqueuedAt
    inflightLeases := ring.inflightLeases + 1 }

end SignalRing

def leaseOf (inner : BufferInner) (signal : SignalKind) (now : Instant) (front : QueuedBatch Batch)
    (rest : List (QueuedBatch Batch)) : Lease Batch :=
  let items := front :: rest
  { id := { instanceId := inner.instanceId, signal := signal, firstSeq := front.seqId
            lastSeq := (items.getLast (List.cons_ne_nil _ _)).seqId }
    batches := items.filterMap (·.payload.inMemoryBatch?)
    payloads := items.map (·.payload)
    leased := items.map (·.leasedMeta)
    numRows := (items.map (·.rowCount)).sum
    byteSize := (items.map (·.byteSize)).sum
    attempt := front.attempt
    leasedAt := now }

/-- The flush deadline that makes `try_pop_signal_lease` wait, if it has to. -/
def flushWait (inner : BufferInner) (state : SignalRingState Batch) (front : QueuedBatch Batch)
    (check : SignalRing.CoalesceCheck) (now : Instant) : Option Instant :=
  let config := inner.config
  let intervalZero := config.maxBatchIntervalSec == 0
  let bytesReached := config.maxBatchSizeBytes ≤ check.bytes
  let recordsReached := config.maxBatchRecords.any fun maxRecords => maxRecords ≤ check.rows
  let senderBlocked := state.blockedSenders > 0
  let deadline := front.enqueuedAt + config.maxBatchIntervalSec * 1000000000
  if !intervalZero && !state.ring.closed && front.attempt == 0 && !bytesReached && !recordsReached &&
      !check.hitBoundary && !senderBlocked && deadline > now then some deadline
  else none

/-- The new state, the lease, the instant to wait for and whether the ring is drained. -/
def tryPopSignalLease (inner : BufferInner) (signal : SignalKind) (state : SignalRingState Batch)
    (now : Instant) : SignalRingState Batch × Option (Lease Batch) × Option Instant × Bool :=
  let ring := state.ring
  if ring.inflightLeases ≥ inner.config.maxInflightLeases then (state, none, none, ring.isDrained)
  else
    match ring.queue with
    | [] => (state, none, none, ring.closed && ring.inflightLeases == 0 && ring.slots.isEmpty)
    | front :: rest =>
      if ring.hasEarlierReserved front.seqId then (state, none, none, false)
      else if SignalRing.notReady front.readyAt now then (state, none, front.readyAt, false)
      else
        let check := SignalRing.coalesceFront inner.config now ring front rest
        match flushWait inner state front check now with
        | some deadline => (state, none, some deadline, false)
        | none =>
          let taken := rest.take (check.count - 1)
          ({ state with ring := ring.leaseItems (front :: taken) (rest.drop (check.count - 1)) },
            some (leaseOf inner signal now front taken), none, false)

/-- `ack_lease` under the ring's lock; `reset` is `reset_transient_streak`. -/
def ackLease (state : SignalRingState Batch) (leased : List LeasedBatchMeta) (reset : Bool) :
    SignalRingState Batch × Nat :=
  let acked := state.ring.ackEntries leased state.committedSeq
  ({ state with
    ring := acked.1
    committedSeq := acked.2.1
    firstTransientFailureUnixMs := if reset then 0 else state.firstTransientFailureUnixMs }, acked.2.2)

def requeueLease (state : SignalRingState Batch) (payloads : List (BatchPayload Batch))
    (leased : List LeasedBatchMeta) (nextAttempt : Nat) (readyAt : Option Instant) :
    SignalRingState Batch :=
  { state with ring := state.ring.requeueAtHead payloads leased nextAttempt readyAt }

def setFatal (state : SignalRingState Batch) (reason : String) : SignalRingState Batch :=
  { state with ring := { state.ring with fatalError := state.ring.fatalError.or (some reason) } }

def failLease (state : SignalRingState Batch) (payloads : List (BatchPayload Batch))
    (leased : List LeasedBatchMeta) (reason : String) : SignalRingState Batch :=
  setFatal (requeueLease state payloads leased 0 none) reason

def recordStorageFailure (state : SignalRingState Batch) (reason : String) : SignalRingState Batch :=
  setFatal state reason

def SignalRing.clear (ring : SignalRing Batch) : SignalRing Batch :=
  { ring with
    queue := []
    bytesInFlight := 0
    rowsInFlight := 0
    inflightLeases := 0
    slots := ∅
    inflightEnqueuedAt := ∅
    evictedUnreclaimedBytes := ∅
    unreclaimedDiskBytes := 0 }

/-- One ring's share of `discard_remaining_rings`. -/
def discardRemaining (state : SignalRingState Batch) : SignalRingState Batch :=
  let rows := state.ring.rowsInFlight
  let advanced := state.ring.clear.advanceWatermark state.committedSeq
  { state with
    ring := advanced.1
    committedSeq := advanced.2
    shutdownTimeoutDrops := state.shutdownTimeoutDrops + rows }

def canAdmit (ring : SignalRing Batch) (batchBytes budget : Nat) : Bool :=
  let totalUsed := ring.bytesInFlight + ring.unreclaimedDiskBytes
  (ring.queue.isEmpty && totalUsed == 0) || totalUsed + batchBytes ≤ budget

/-- An on-disk front batch behind an earlier active slot frees no space when it is evicted. -/
def frontIsPinnedOnDisk (ring : SignalRing Batch) (front : QueuedBatch Batch) : Bool :=
  front.payload.isOnDisk && (firstKeyValue? ring.slots).any fun slot => slot.1 < front.seqId

/-- The eviction loop of `reserve_or_enqueue_slot`, with the batches it evicted. -/
def evictOldest (batchBytes budget : Nat) : Nat → SignalRingState Batch →
    SignalRingState Batch × List (QueuedBatch Batch)
  | 0, state => (state, [])
  | fuel + 1, state =>
    if canAdmit state.ring batchBytes budget then (state, [])
    else
      match state.ring.queue with
      | [] => (state, [])
      | front :: rest =>
        if frontIsPinnedOnDisk state.ring front then (state, [])
        else
          let evicted := { state.ring with queue := rest }.recordEvictedBatch front state.committedSeq
          let next := evictOldest batchBytes budget fuel
            { state with ring := evicted.1, committedSeq := evicted.2 }
          (next.1, front :: next.2)

inductive Admission where
  | failed (reason : String)
  | downstreamClosed
  | blocked
  | enqueued
  | reserved (seqId : Nat)
  deriving DecidableEq, Repr

/-- The eviction before an admission, which only the drop-oldest policy does. -/
def makeRoom (config : BufferConfig) (state : SignalRingState Batch) (batchBytes : Nat) :
    SignalRingState Batch × List (QueuedBatch Batch) :=
  let swept := if config.overflowPolicy = .dropOldest then
      evictOldest batchBytes config.perSignalBudget state.ring.queue.length state
    else (state, [])
  ({ swept.1 with overflowDrops := swept.1.overflowDrops + (swept.2.map (·.rowCount)).sum }, swept.2)

def inMemoryItem (seqId batchBytes batchRows : Nat) (batch : Batch) (now : Instant) : QueuedBatch Batch :=
  { seqId := seqId
    payload := .inMemory batch
    byteSize := batchBytes
    rowCount := batchRows
    enqueuedAt := now
    firstFailedAt := none
    attempt := 0
    readyAt := none }

/-- The admitted batch takes the next sequence number: queued when it is in memory, else reserved. -/
def assignSlot (ring : SignalRing Batch) (batchBytes batchRows : Nat) (inMemoryBatch : Option Batch)
    (now : Instant) : SignalRing Batch × Admission :=
  let seqId := ring.nextSeq
  let charged := { ring with
    nextSeq := saturatingSucc seqId
    bytesInFlight := ring.bytesInFlight + batchBytes
    rowsInFlight := ring.rowsInFlight + batchRows }
  match inMemoryBatch with
  | some batch =>
    ({ charged with
      slots := ring.slots.insert seqId .queued
      queue := ring.queue ++ [inMemoryItem seqId batchBytes batchRows batch now] }, .enqueued)
  | none => ({ charged with slots := ring.slots.insert seqId .reserved }, .reserved seqId)

/-- The critical section of `reserve_or_enqueue_slot`; `blocked` is the pass that then awaits space. -/
def reserveOrEnqueueSlot (config : BufferConfig) (state : SignalRingState Batch)
    (batchBytes batchRows : Nat) (inMemoryBatch : Option Batch) (now : Instant) :
    SignalRingState Batch × Admission × List (QueuedBatch Batch) :=
  match state.ring.fatalError with
  | some reason => (state, .failed reason, [])
  | none =>
    if state.ring.receiverDropped || state.ring.closed then (state, .downstreamClosed, [])
    else
      let swept := makeRoom config state batchBytes
      if canAdmit swept.1.ring batchBytes config.perSignalBudget then
        let assigned := assignSlot swept.1.ring batchBytes batchRows inMemoryBatch now
        ({ swept.1 with ring := assigned.1 }, assigned.2, swept.2)
      else (swept.1, .blocked, swept.2)

namespace AppendReservation

def rollbackSlot (reservation : AppendReservation Batch) (state : SignalRingState Batch) :
    SignalRingState Batch :=
  match state.ring.slots[reservation.seqId]? with
  | none => state
  | some _ =>
    let advanced := { state.ring with
      slots := state.ring.slots.erase reservation.seqId
      bytesInFlight := state.ring.bytesInFlight - reservation.frameBytesLen
      rowsInFlight := state.ring.rowsInFlight - reservation.batchRows }.advanceWatermark state.committedSeq
    { state with ring := advanced.1, committedSeq := advanced.2 }

def queuedBatch (reservation : AppendReservation Batch) (written : WrittenFrame) (now : Instant) :
    QueuedBatch Batch :=
  { seqId := reservation.seqId
    payload := .onDisk written.segmentId written.offset written.len reservation.rows reservation.schema
    byteSize := written.len
    rowCount := reservation.batchRows
    enqueuedAt := now
    firstFailedAt := none
    attempt := 0
    readyAt := none }

def finish (reservation : AppendReservation Batch) (state : SignalRingState Batch)
    (result : Except String WrittenFrame) (now : Instant) : SignalRingState Batch :=
  match result with
  | .ok written =>
    if state.ring.slots[reservation.seqId]? = some .reserved then
      { state with ring := { state.ring with
          bytesInFlight := state.ring.bytesInFlight - reservation.frameBytesLen + written.len
          slots := state.ring.slots.insert reservation.seqId .queued
          queue := enqueueOrdered state.ring.queue (reservation.queuedBatch written now) } }
    else state
  | .error reason => recordStorageFailure (reservation.rollbackSlot state) reason

end AppendReservation

end Operations

end OtelDatalake.Buffer
