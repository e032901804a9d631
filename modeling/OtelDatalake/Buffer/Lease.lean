import OtelDatalake.Buffer.Inner

open Std OtelDatalake.Foundation

namespace OtelDatalake.Buffer

variable {Batch : Type} [RecordBatch Batch]

namespace Lease

def nextAttempt (lease : Lease Batch) : Nat := min (lease.attempt + 1) u32Max

/-- `first_failed_at` is set by the first failure and kept by the later ones. -/
def stampFailure (now : Instant) (item : LeasedBatchMeta) : LeasedBatchMeta :=
  { item with firstFailedAt := item.firstFailedAt.or (some now) }

/-- The `compare_exchange(0, now_ms)` on `first_transient_failure_unix_ms`. -/
def markTransient (state : SignalRingState Batch) (nowMs : Nat) : SignalRingState Batch :=
  { state with
    firstTransientFailureUnixMs :=
      if state.firstTransientFailureUnixMs = 0 then max nowMs 1 else state.firstTransientFailureUnixMs }

def transientExpired (config : BufferConfig) (firstFailMs : Nat) (leased : List LeasedBatchMeta)
    (now : Instant) (nowMs : Nat) : Bool :=
  config.maxTransientDurationSec > 0 &&
    ((firstFailMs > 0 && config.maxTransientDurationSec * 1000 ≤ max nowMs 1 - firstFailMs) ||
      leased.any fun item => item.firstFailedAt.any fun failed =>
        config.maxTransientDurationSec * 1000000000 ≤ now - failed)

def backoffReadyAt (config : BufferConfig) (attempt : Nat) (now : Instant) : Option Instant :=
  let factor := 2 ^ min attempt 16
  let backoffMs := min (config.initialBackoffMs * factor) (config.maxBackoffSec * 1000)
  if backoffMs > 0 then some (now + backoffMs * 1000000) else none

/-- `ack`; `persisted` is the reply to the watermark update, which only disk mode can fail. -/
def ack (lease : Lease Batch) (state : SignalRingState Batch) (persisted : Except String Unit) :
    SignalRingState Batch :=
  let acked := ackLease state lease.leased true
  match persisted with
  | .error reason => recordStorageFailure acked.1 reason
  | .ok _ => { acked.1 with
      committedRecords := acked.1.committedRecords + (acked.2 - lease.quarantinedRows) }

inductive Disposition where
  | requeue (leased : List LeasedBatchMeta) (nextAttempt : Nat) (readyAt : Option Instant)
  | fail (leased : List LeasedBatchMeta) (reason : String)
  | quarantine

/-- The branches of `nack`; `deadLetter` is the result of writing the exhausted lease to the dead-letter
    store. -/
def disposition (lease : Lease Batch) (inner : BufferInner) (state : SignalRingState Batch)
    (failure : FailureClass) (now : Instant) (nowMs : Nat) (deadLetter : Except String Unit) : Disposition :=
  match failure with
  | .transient =>
    let stamped := lease.leased.map (stampFailure now)
    if transientExpired inner.config (markTransient state nowMs).firstTransientFailureUnixMs stamped now nowMs
    then .fail stamped
      s!"transient retry duration exceeded {inner.config.maxTransientDurationSec}s on sink '{inner.sinkName}'"
    else .requeue stamped lease.nextAttempt (backoffReadyAt inner.config lease.attempt now)
  | .rejected _ =>
    if lease.nextAttempt < inner.config.maxAttempts then .requeue lease.leased lease.nextAttempt none
    else
      match deadLetter with
      | .error reason => .fail lease.leased reason
      | .ok _ => .quarantine
  | .fatal reason => .fail lease.leased reason

def dispose (lease : Lease Batch) (state : SignalRingState Batch) (persisted : Except String Unit) :
    Disposition → SignalRingState Batch
  | .requeue leased nextAttempt readyAt => requeueLease state lease.payloads leased nextAttempt readyAt
  | .fail leased reason => failLease state lease.payloads leased reason
  | .quarantine =>
    let acked := (ackLease { state with deadLetterDrops := state.deadLetterDrops + lease.numRows }
      lease.leased false).1
    match persisted with
    | .error reason => recordStorageFailure acked reason
    | .ok _ => acked

def markFailure (state : SignalRingState Batch) (failure : FailureClass) (nowMs : Nat) :
    SignalRingState Batch :=
  match failure with
  | .transient => markTransient state nowMs
  | .rejected _ | .fatal _ => state

/-- `Drop` of a lease that was neither acked nor nacked. -/
def drop (lease : Lease Batch) (state : SignalRingState Batch) (now : Instant) (nowMs : Nat) :
    SignalRingState Batch :=
  requeueLease (markTransient state nowMs) lease.payloads (lease.leased.map (stampFailure now))
    lease.nextAttempt none

end Lease

inductive Outcome where
  | acked
  | evicted
  | rolledBack
  | storageFailed
  | quarantined
  | discarded
  deriving DecidableEq, Repr

/-- A value held by a task; `discarded` records that a shutdown discard removed its slots. -/
structure Held (α : Type) where
  value : α
  discarded : Bool := false

/-- One signal ring with the leases and reservations that are held on it, and the outcome of every sequence
    number that has left it. -/
structure RingWorld (Batch : Type) [RecordBatch Batch] where
  state : SignalRingState Batch := {}
  leases : List (Held (Lease Batch)) := []
  reservations : List (Held (AppendReservation Batch)) := []
  outcomes : List (Nat × Outcome) := []

inductive RingAction (Batch : Type) [RecordBatch Batch] where
  | enqueue (batch : Batch) (now : Instant)
  | reserve (frameBytesLen batchRows rows : Nat) (schema : RecordBatch.Schema Batch) (now : Instant)
  | finish (seqId : Nat) (result : Except String WrittenFrame) (now : Instant)
  | dropReservation (seqId : Nat)
  | pop (now : Instant)
  | quarantineRows (firstSeq rows : Nat)
  | ack (firstSeq : Nat) (persisted : Except String Unit)
  | nack (firstSeq : Nat) (failure : FailureClass) (now : Instant) (nowMs : Nat)
      (deadLetter persisted : Except String Unit)
  | dropLease (firstSeq : Nat) (now : Instant) (nowMs : Nat)
  | storageFailure (reason : String)
  | advanceWatermark
  | discard
  | closeSenders
  | dropReceiver
  | setBlockedSenders (count : Nat)

namespace RingWorld

def takeHeld {α : Type} (chosen : α → Bool) (held : List (Held α)) : Option (α × List (Held α)) :=
  (held.find? fun entry => chosen entry.value).map fun entry =>
    (entry.value, held.eraseP fun entry => chosen entry.value)

def takeLease (world : RingWorld Batch) (firstSeq : Nat) : Option (Lease Batch × List (Held (Lease Batch))) :=
  takeHeld (fun lease => lease.id.firstSeq == firstSeq) world.leases

def takeReservation (world : RingWorld Batch) (seqId : Nat) :
    Option (AppendReservation Batch × List (Held (AppendReservation Batch))) :=
  takeHeld (fun reservation => reservation.seqId == seqId) world.reservations

def settle (ring : SignalRing Batch) (seqs : List Nat) (outcome : Outcome) : List (Nat × Outcome) :=
  (seqs.filter fun seq => ring.slots.contains seq).map (·, outcome)

def discardHeld {α : Type} (held : List (Held α)) : List (Held α) :=
  held.map fun entry => { entry with discarded := true }

/-- Admission of one batch; a reserved slot is handed to the sender as an `AppendReservation`. -/
def admitBatch (world : RingWorld Batch) (config : BufferConfig) (batchBytes batchRows : Nat)
    (inMemoryBatch : Option Batch) (reservation : Nat → Option (AppendReservation Batch)) (now : Instant) :
    RingWorld Batch :=
  let admitted := reserveOrEnqueueSlot config world.state batchBytes batchRows inMemoryBatch now
  { world with
    state := admitted.1
    reservations := match admitted.2.1 with
      | .reserved seqId => world.reservations ++ (reservation seqId).toList.map fun value => { value := value }
      | _ => world.reservations
    outcomes := world.outcomes ++ admitted.2.2.map fun item => (item.seqId, .evicted) }

def resolveLease (world : RingWorld Batch) (inner : BufferInner) (lease : Lease Batch)
    (others : List (Held (Lease Batch))) (failure : FailureClass) (now : Instant) (nowMs : Nat)
    (deadLetter persisted : Except String Unit) : RingWorld Batch :=
  let disposition := lease.disposition inner world.state failure now nowMs deadLetter
  { world with
    state := lease.dispose (Lease.markFailure world.state failure nowMs) persisted disposition
    leases := others
    outcomes := match disposition with
      | .quarantine => world.outcomes ++ settle world.state.ring (lease.leased.map (·.seqId)) .quarantined
      | _ => world.outcomes }

/-- A ring that is at `u64::MAX` gives out that number again and again: the steps are those of a ring that has not
    come to it. -/
def step (inner : BufferInner) (signal : SignalKind) (world : RingWorld Batch) :
    RingAction Batch → Option (RingWorld Batch)
  | .enqueue batch now =>
    if world.state.ring.nextSeq < u64Max then
      some (world.admitBatch inner.config (RecordBatch.arrayMemorySize batch) (RecordBatch.numRows batch)
        (some batch) (fun _ => none) now)
    else none
  | .reserve frameBytesLen batchRows rows schema now =>
    if world.state.ring.nextSeq < u64Max then
      some (world.admitBatch inner.config frameBytesLen batchRows none
        (fun seqId => some { signal := signal, seqId := seqId, frameBytesLen := frameBytesLen,
                             batchRows := batchRows, rows := rows, schema := schema }) now)
    else none
  | .finish seqId result now =>
    (world.takeReservation seqId).map fun taken =>
      { world with
        state := taken.1.finish world.state result now
        reservations := taken.2
        outcomes := match result with
          | .ok _ => world.outcomes
          | .error _ => world.outcomes ++ settle world.state.ring [seqId] .storageFailed }
  | .dropReservation seqId =>
    (world.takeReservation seqId).map fun taken =>
      { world with
        state := taken.1.rollbackSlot world.state
        reservations := taken.2
        outcomes := world.outcomes ++ settle world.state.ring [seqId] .rolledBack }
  | .pop now =>
    let popped := tryPopSignalLease inner signal world.state now
    some { world with
      state := popped.1
      leases := world.leases ++ popped.2.1.toList.map fun lease => { value := lease } }
  | .quarantineRows firstSeq rows =>
    (world.takeLease firstSeq).map fun _ =>
      { world with
        state := { world.state with deadLetterDrops := world.state.deadLetterDrops + rows }
        leases := world.leases.map fun held =>
          if held.value.id.firstSeq = firstSeq then
            { held with value := { held.value with quarantinedRows := held.value.quarantinedRows + rows } }
          else held }
  | .ack firstSeq persisted =>
    (world.takeLease firstSeq).map fun taken =>
      { world with
        state := taken.1.ack world.state persisted
        leases := taken.2
        outcomes := world.outcomes ++ settle world.state.ring (taken.1.leased.map (·.seqId)) .acked }
  | .nack firstSeq failure now nowMs deadLetter persisted =>
    (world.takeLease firstSeq).map fun taken =>
      world.resolveLease inner taken.1 taken.2 failure now nowMs deadLetter persisted
  | .dropLease firstSeq now nowMs =>
    (world.takeLease firstSeq).map fun taken =>
      { world with state := taken.1.drop world.state now nowMs, leases := taken.2 }
  | .storageFailure reason => some { world with state := recordStorageFailure world.state reason }
  | .advanceWatermark =>
    let advanced := world.state.ring.advanceWatermark world.state.committedSeq
    some { world with state := { world.state with ring := advanced.1, committedSeq := advanced.2 } }
  | .discard =>
    some { world with
      state := discardRemaining world.state
      leases := discardHeld world.leases
      reservations := discardHeld world.reservations
      outcomes := world.outcomes ++ settle world.state.ring world.state.ring.slots.keys .discarded }
  | .closeSenders =>
    some { world with state := { world.state with ring := { world.state.ring with closed := true } } }
  | .dropReceiver =>
    some { world with state := { world.state with ring := { world.state.ring with receiverDropped := true } } }
  | .setBlockedSenders count => some { world with state := { world.state with blockedSenders := count } }

variable {inner : BufferInner} {signal : SignalKind} {world next : RingWorld Batch} {now : Instant}

theorem step_enqueue {batch : Batch} (stepped : step inner signal world (.enqueue batch now) = some next) :
    world.state.ring.nextSeq < u64Max ∧
      world.admitBatch inner.config (RecordBatch.arrayMemorySize batch) (RecordBatch.numRows batch) (some batch)
        (fun _ => none) now = next := by
  simp only [step] at stepped
  split at stepped
  · exact ⟨‹_›, Option.some.inj stepped⟩
  · cases stepped

theorem step_reserve {frameBytesLen batchRows rows : Nat} {schema : RecordBatch.Schema Batch}
    (stepped : step inner signal world (.reserve frameBytesLen batchRows rows schema now) = some next) :
    world.state.ring.nextSeq < u64Max ∧
      world.admitBatch inner.config frameBytesLen batchRows none
        (fun seqId => some { signal := signal, seqId := seqId, frameBytesLen := frameBytesLen,
                             batchRows := batchRows, rows := rows, schema := schema }) now = next := by
  simp only [step] at stepped
  split at stepped
  · exact ⟨‹_›, Option.some.inj stepped⟩
  · cases stepped

end RingWorld

end OtelDatalake.Buffer
