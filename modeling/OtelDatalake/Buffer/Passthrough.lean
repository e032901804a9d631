import OtelDatalake.Buffer.Stream

open Std OtelDatalake.Foundation

namespace OtelDatalake.Buffer

/-- What `prepare` calls: the reader of frames on disk and Arrow's `concat_batches`. -/
structure BatchReader (Batch : Type) [RecordBatch Batch] where
  readFrameAt : (segmentId offset len : Nat) → Except String Batch
  concatBatches : RecordBatch.Schema Batch → List Batch → Except String Batch

variable {Batch : Type} [RecordBatch Batch]

namespace BatchReader

def decode (reader : BatchReader Batch) : BatchPayload Batch → Except String Batch
  | .inMemory batch => .ok batch
  | .onDisk segmentId offset len _ _ => reader.readFrameAt segmentId offset len

def combine (reader : BatchReader Batch) : List Batch → Except String Batch
  | [] => .error "empty lease batches"
  | [batch] => .ok batch
  | first :: rest => reader.concatBatches (RecordBatch.schema first) (first :: rest)

def prepare (reader : BatchReader Batch) (payloads : List (BatchPayload Batch)) : Except String Batch := do
  let decoded ← payloads.mapM reader.decode
  reader.combine decoded

end BatchReader

def Lease.entries (lease : Lease Batch) : List (Nat × BatchPayload Batch) :=
  (lease.leased.map (·.seqId)).zip lease.payloads

def QueuedBatch.entry (item : QueuedBatch Batch) : Nat × BatchPayload Batch := (item.seqId, item.payload)

/-- One call of `recv_passthrough`: in `next_lease`, with the lease that it returned, in the blocking task of `prepare`,
    or with the result of it. It awaits only in `next_lease` and in `prepare`: without a disk `ack_lease` never does. -/
inductive ReceiveCall (Batch : Type) [RecordBatch Batch] where
  | idle
  | leasing
  | holding (lease : Lease Batch)
  | preparing (lease : Lease Batch)
  | prepared (lease : Lease Batch) (batch : Except String Batch)

/-- A batch that a call has returned, and the lease that it was read from. -/
structure Delivery (Batch : Type) [RecordBatch Batch] where
  lease : Lease Batch
  batch : Batch

/-- A buffer in memory mode whose receiver is read by `recv_passthrough` alone, with the results of the calls that were
    not cancelled and the numbers of the batches that were admitted. -/
structure PassthroughWorld (Batch : Type) [RecordBatch Batch] where
  stream : StreamWorld Batch
  call : ReceiveCall Batch := .idle
  returned : List (Except String (Option (Delivery Batch))) := []
  admitted : List (SignalKind × Nat × Batch) := []

inductive PassthroughAction (Batch : Type) [RecordBatch Batch] where
  | other (action : StreamAction Batch)
  | call (now : Instant)
  | poll (now : Instant) (nowMs : Nat)
  | complete (joined : Except String Unit)
  | cancel (now : Instant) (nowMs : Nat)

namespace PassthroughWorld

/-- The operations of a memory-mode ring that do not belong to its receiver. -/
def leavesLeases : RingAction Batch → Bool
  | .enqueue .. | .storageFailure _ | .advanceWatermark | .discard | .dropReceiver | .setBlockedSenders _ => true
  | _ => false

def isOther : StreamAction Batch → Bool
  | .ring _ action => leavesLeases action
  | .cloneSender _ | .dropSender _ | .countDown _ | .closeRing _ => true
  | .nextLease _ | .enable | .tryPop => false

def admits (inner : BufferInner) (stream : StreamWorld Batch) : StreamAction Batch → List (SignalKind × Nat × Batch)
  | .ring signal (.enqueue batch now) =>
    let state := (stream.rings signal).state
    if (reserveOrEnqueueSlot inner.config state (RecordBatch.arrayMemorySize batch) (RecordBatch.numRows batch)
        (some batch) now).2.1 = .enqueued then [(signal, state.ring.nextSeq, batch)] else []
  | _ => []

def finish (world : PassthroughWorld Batch) (stream : StreamWorld Batch)
    (result : Except String (Option (Delivery Batch))) : PassthroughWorld Batch :=
  { world with stream := stream, call := .idle, returned := world.returned ++ [result] }

/-- The call goes on to its next operation on shared state or to its next await. -/
def poll (inner : BufferInner) (scope : Option SignalKind) (world : PassthroughWorld Batch) (now : Instant)
    (nowMs : Nat) : Option (PassthroughWorld Batch) :=
  match world.call with
  | .idle | .preparing _ => none
  | .leasing =>
    match world.stream.receiver with
    | .idle => none
    | .starting _ => (world.stream.step inner scope .enable).map fun stream => { world with stream := stream }
    | .scanning .. => (world.stream.step inner scope .tryPop).map fun stream => { world with stream := stream }
    | .waiting _ => (world.stream.step inner scope (.nextLease now)).map fun stream => { world with stream := stream }
    | .returned (.error reason) => some (world.finish world.stream (.error reason))
    | .returned (.ok none) => some (world.finish world.stream (.ok none))
    | .returned (.ok (some lease)) => some { world with call := .holding lease }
  | .holding lease =>
    match lease.batches with
    | [batch] => some { world with call := .prepared lease (.ok batch) }
    | _ =>
      if lease.payloads.isEmpty then
        some { world with call := .prepared lease (.error "Lease::prepare invoked on empty lease") }
      else some { world with call := .preparing lease }
  | .prepared lease (.ok batch) =>
    (world.stream.stepRing inner lease.id.signal (.ack lease.id.firstSeq (.ok ()))).map fun stream =>
      world.finish stream (.ok (some { lease := lease, batch := batch }))
  | .prepared lease (.error reason) =>
    (world.stream.stepRing inner lease.id.signal (.dropLease lease.id.firstSeq now nowMs)).map fun stream =>
      world.finish stream (.error reason)

/-- The future of the call is dropped at one of its awaits, and with it the lease that it holds there. -/
def cancel (inner : BufferInner) (world : PassthroughWorld Batch) (now : Instant) (nowMs : Nat) :
    Option (PassthroughWorld Batch) :=
  match world.call with
  | .leasing =>
    match world.stream.receiver with
    | .waiting _ => some { world with stream := { world.stream with receiver := .idle }, call := .idle }
    | _ => none
  | .preparing lease =>
    (world.stream.stepRing inner lease.id.signal (.dropLease lease.id.firstSeq now nowMs)).map fun stream =>
      { world with stream := stream, call := .idle }
  | _ => none

def step (inner : BufferInner) (scope : Option SignalKind) (reader : BatchReader Batch)
    (world : PassthroughWorld Batch) : PassthroughAction Batch → Option (PassthroughWorld Batch)
  | .other action =>
    if isOther action then
      (world.stream.step inner scope action).map fun stream =>
        { world with stream := stream, admitted := world.admitted ++ admits inner world.stream action }
    else none
  | .call now =>
    match world.call with
    | .idle =>
      ({ world.stream with receiver := .idle }.step inner scope (.nextLease now)).map fun stream =>
        { world with stream := stream, call := .leasing }
    | _ => none
  | .poll now nowMs => world.poll inner scope now nowMs
  | .complete joined =>
    match world.call with
    | .preparing lease =>
      some { world with call := .prepared lease (joined.bind fun _ => reader.prepare lease.payloads) }
    | _ => none
  | .cancel now nowMs => world.cancel inner now nowMs

def opened (senders : List (Option SignalKind)) : PassthroughWorld Batch :=
  { stream := .opened (fun _ => {}) senders }

def deliveries (world : PassthroughWorld Batch) : List (Delivery Batch) :=
  world.returned.filterMap fun result => result.toOption.join

def delivered (world : PassthroughWorld Batch) (signal : SignalKind) : List (Nat × BatchPayload Batch) :=
  (world.deliveries.filter fun delivery => delivery.lease.id.signal = signal).flatMap (·.lease.entries)

def currentLease (world : PassthroughWorld Batch) : Option (Lease Batch) :=
  match world.call with
  | .idle => none
  | .leasing =>
    match world.stream.receiver with
    | .returned (.ok lease) => lease
    | _ => none
  | .holding lease | .preparing lease | .prepared lease _ => some lease

end PassthroughWorld

/-- The numbered payloads of a ring that its receiver has still to return: those of the leases, then the queue. -/
def RingWorld.stock (world : RingWorld Batch) : List (Nat × BatchPayload Batch) :=
  (world.leases.flatMap (·.value.entries)) ++ world.state.ring.queue.map (·.entry)

end OtelDatalake.Buffer
