import OtelDatalake.Foundation.Signalling
import OtelDatalake.Buffer.EndOfStream

open Std OtelDatalake.Foundation

namespace OtelDatalake.Buffer

variable {Batch : Type} [RecordBatch Batch]

/-- The `Notify` objects of a buffer. -/
inductive Notifier where
  | spaceAvailable (signal : SignalKind)
  | dataReady (signal : SignalKind)
  | anyDataReady
  deriving DecidableEq, Repr

/-- The futures of `next_lease` and of a call of `reserve_or_enqueue_slot`. -/
inductive Waiter where
  | receiver
  | sender (index : Nat) (signal : SignalKind)
  deriving DecidableEq, Repr

/-- What a call of `reserve_or_enqueue_slot` asks for: a batch in memory, or a slot for a frame. -/
inductive SlotRequest (Batch : Type) [RecordBatch Batch] where
  | inMemory (batch : Batch)
  | onDisk (frameBytesLen batchRows rows : Nat) (schema : RecordBatch.Schema Batch)

/-- A pass of the loop looks at the fatal error of the buffer and then at the ring. A refused sender is `blocked` until
    it has counted itself and told the receiver, then `parked`; `leaving` has still to give its count back. -/
inductive SenderPhase where
  | checking
  | looking
  | blocked
  | parked
  | leaving
  | done
  deriving DecidableEq, Repr

structure SlotCall (Batch : Type) [RecordBatch Batch] where
  signal : SignalKind
  request : SlotRequest Batch
  phase : SenderPhase := .checking
  active : Bool := false

/-- The rings of a buffer with its receiver, and the calls that wait for room in them. `passStarted` is the time that the
    receiver has read for its pass. -/
structure WaitingWorld (Batch : Type) [RecordBatch Batch] where
  stream : StreamWorld Batch
  calls : List (SlotCall Batch) := []
  passStarted : Instant := 0

inductive WaitingAction (Batch : Type) [RecordBatch Batch] where
  | stream (action : StreamAction Batch)
  | call (signal : SignalKind) (request : SlotRequest Batch)
  | checkFatal (index : Nat)
  | attempt (index : Nat) (now : Instant)
  | markBlocked (index : Nat)
  | wake (index : Nat)
  | cancel (index : Nat)
  | leave (index : Nat)

namespace SlotRequest

def bytes : SlotRequest Batch → Nat
  | .inMemory batch => RecordBatch.arrayMemorySize batch
  | .onDisk frameBytesLen .. => frameBytesLen

def batchRows : SlotRequest Batch → Nat
  | .inMemory batch => RecordBatch.numRows batch
  | .onDisk _ batchRows .. => batchRows

def inMemoryBatch? : SlotRequest Batch → Option Batch
  | .inMemory batch => some batch
  | .onDisk .. => none

def action (now : Instant) : SlotRequest Batch → RingAction Batch
  | .inMemory batch => .enqueue batch now
  | .onDisk frameBytesLen batchRows rows schema => .reserve frameBytesLen batchRows rows schema now

def outcome (config : BufferConfig) (state : SignalRingState Batch) (now : Instant) (request : SlotRequest Batch) :
    Admission :=
  (reserveOrEnqueueSlot config state request.bytes request.batchRows request.inMemoryBatch? now).2.1

end SlotRequest

def notifyDataReady (signal : SignalKind) : List Notifier := [.dataReady signal, .anyDataReady]

def notifyAll : List Notifier :=
  allSignals.map .spaceAvailable ++ allSignals.map .dataReady ++ [.anyDataReady]

/-- The notifications behind an operation on a ring. -/
def notifications (inner : BufferInner) (signal : SignalKind) (ring : RingWorld Batch) :
    RingAction Batch → List Notifier
  | .finish seqId (.ok written) _ =>
    match ring.takeReservation seqId with
    | some (reservation, _) =>
      if ring.state.ring.slots[reservation.seqId]? = some .reserved then
        (if written.len < reservation.frameBytesLen then [.spaceAvailable signal] else []) ++ notifyDataReady signal
      else []
    | none => []
  | .finish _ (.error _) _ => notifyAll
  | .dropReservation seqId =>
    if ring.state.ring.slots[seqId]?.isSome then .spaceAvailable signal :: notifyDataReady signal else []
  | .ack _ persisted =>
    .spaceAvailable signal :: notifyDataReady signal ++
      match persisted with
      | .ok _ => []
      | .error _ => notifyAll
  | .nack firstSeq failure now nowMs deadLetter persisted =>
    match ring.takeLease firstSeq with
    | some (lease, _) =>
      match lease.disposition inner ring.state failure now nowMs deadLetter, persisted with
      | .requeue .., _ => notifyDataReady signal
      | .fail .., _ => notifyAll
      | .quarantine, .ok _ => .spaceAvailable signal :: notifyDataReady signal
      | .quarantine, .error _ => .spaceAvailable signal :: notifyDataReady signal ++ notifyAll
    | none => []
  | .dropLease .. => notifyDataReady signal
  | .storageFailure _ => notifyAll
  | .discard => .spaceAvailable signal :: notifyDataReady signal
  | .dropReceiver => [.spaceAvailable signal]
  | _ => []

namespace WaitingWorld

/-- The operations on the rings that are no call of this buffer's sender or receiver. -/
def others : RingAction Batch → Bool
  | .enqueue .. | .reserve .. | .pop _ | .advanceWatermark | .closeSenders | .setBlockedSenders _ => false
  | _ => true

def setCall (world : WaitingWorld Batch) (index : Nat) (call : SlotCall Batch) : WaitingWorld Batch :=
  { world with calls := world.calls.set index call }

def callAt (world : WaitingWorld Batch) (index : Nat) (phase : SenderPhase) : Option (SlotCall Batch) :=
  world.calls[index]?.filter fun call => call.phase = phase

/-- A call borrows its sender, so no ring is closed by the drop of a sender while a call waits for room in it. -/
def borrowed (world : WaitingWorld Batch) (signal : SignalKind) : Bool :=
  world.calls.any fun call => call.signal = signal && call.phase ≠ .done

def stepStream (inner : BufferInner) (scope : Option SignalKind) (world : WaitingWorld Batch)
    (action : StreamAction Batch) : Option (WaitingWorld Batch) :=
  (world.stream.step inner scope action).map fun stream =>
    { world with
      stream := stream
      passStarted := match action with
        | .nextLease now => now
        | _ => world.passStarted }

def stepRing (inner : BufferInner) (world : WaitingWorld Batch) (signal : SignalKind) (action : RingAction Batch) :
    Option (WaitingWorld Batch) :=
  (world.stream.stepRing inner signal action).map fun stream => { world with stream := stream }

def blockedSenders (world : WaitingWorld Batch) (signal : SignalKind) : Nat :=
  (world.stream.rings signal).state.blockedSenders

def step (inner : BufferInner) (scope : Option SignalKind) (world : WaitingWorld Batch) :
    WaitingAction Batch → Option (WaitingWorld Batch)
  | .stream (.ring signal action) =>
    if others action then world.stepStream inner scope (.ring signal action) else none
  | .stream (.closeRing index) =>
    match world.stream.closing[index]? with
    | some { remaining := _, locking := some signal } =>
      if world.borrowed signal then none else world.stepStream inner scope (.closeRing index)
    | _ => none
  | .stream action => world.stepStream inner scope action
  | .call signal request => some { world with calls := world.calls ++ [{ signal := signal, request := request }] }
  | .checkFatal index =>
    (world.callAt index .checking).map fun call =>
      world.setCall index { call with phase := if world.stream.fatalError.isSome then .leaving else .looking }
  | .attempt index now =>
    (world.callAt index .looking).bind fun call =>
      (world.stepRing inner call.signal (call.request.action now)).map fun next =>
        let outcome := call.request.outcome inner.config (world.stream.rings call.signal).state now
        next.setCall index { call with phase := if outcome = .blocked then .blocked else .leaving }
  | .markBlocked index =>
    (world.callAt index .blocked).bind fun call =>
      let count := world.blockedSenders call.signal + if call.active then 0 else 1
      (world.stepRing inner call.signal (.setBlockedSenders count)).map fun next =>
        next.setCall index { call with phase := .parked, active := true }
  | .wake index =>
    (world.callAt index .parked).map fun call => world.setCall index { call with phase := .checking }
  | .cancel index =>
    (world.callAt index .parked).map fun call => world.setCall index { call with phase := .leaving }
  | .leave index =>
    (world.callAt index .leaving).bind fun call =>
      let count := world.blockedSenders call.signal - if call.active then 1 else 0
      (world.stepRing inner call.signal (.setBlockedSenders count)).map fun next =>
        next.setCall index { call with phase := .done, active := false }

def raises (inner : BufferInner) (world : WaitingWorld Batch) : WaitingAction Batch → List Notifier
  | .stream (.ring signal action) => notifications inner signal (world.stream.rings signal) action
  | .stream (.closeRing index) =>
    match world.stream.closing[index]? with
    | some { remaining := _, locking := some signal } => notifyDataReady signal
    | _ => []
  | .attempt index now =>
    match world.callAt index .looking with
    | some call =>
      if call.request.outcome inner.config (world.stream.rings call.signal).state now = .enqueued then
        notifyDataReady call.signal
      else []
    | none => []
  | .markBlocked index =>
    match world.callAt index .blocked with
    | some call => notifyDataReady call.signal
    | none => []
  | _ => []

/-- The future of the receiver is made before its second look at the fatal error, that of a sender right before it locks
    the ring. -/
def registers (world : WaitingWorld Batch) : WaitingAction Batch → Option Waiter
  | .stream .enable => some .receiver
  | .attempt index _ => (world.callAt index .looking).map fun call => .sender index call.signal
  | _ => none

def watches (scope : Option SignalKind) : Waiter → Notifier
  | .receiver =>
    match scope with
    | some signal => .dataReady signal
    | none => .anyDataReady
  | .sender _ signal => .spaceAvailable signal

def signalling (inner : BufferInner) (scope : Option SignalKind) :
    Signalling (WaitingWorld Batch) (WaitingAction Batch) Notifier Waiter where
  step := step inner scope
  raises := raises inner
  registers := registers
  watches := watches scope

end WaitingWorld

end OtelDatalake.Buffer
