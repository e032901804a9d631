import OtelDatalake.Foundation.Channel
import OtelDatalake.Buffer.Contents
import OtelDatalake.Pipeline.Receiver

open Std OtelDatalake.Foundation OtelDatalake.Core OtelDatalake.Codec OtelDatalake.Buffer

namespace OtelDatalake.Pipeline

variable {Request Batch : Type} [Buffer.RecordBatch Batch]

/-- Where a handler stands: `decoding` until it has its batch, `sending` until the channel has it. A handler whose
    connection is gone is dropped at either await. -/
inductive CallPhase where
  | decoding
  | sending
  | replied (reply : Reply)
  | dropped
  deriving DecidableEq, Repr

structure ExportCall (Request Batch : Type) where
  arrival : Arrival Request
  batch : Option Batch := none
  phase : CallPhase := .decoding

/-- A handler that has decoded its request: an empty batch is not sent. -/
def ExportCall.decoded (call : ExportCall Request Batch) : Except Reply Batch → ExportCall Request Batch
  | .error reply => { call with phase := .replied reply }
  | .ok batch =>
    { call with
      batch := some batch
      phase := if Buffer.RecordBatch.numRows batch > 0 then .sending else .replied .ok }

/-- `transform` of the noop transformer: at its `recv`, at its `send`, or done. An aborted task returns nothing. -/
inductive TransformerPhase (Batch : Type) where
  | receiving
  | sending (entry : Nat × Batch)
  | returned (result : Except PipelineError Unit)
  | aborted

/-- A buffer in memory mode, where one admission takes a whole batch. -/
structure MemoryInner extends BufferInner where
  inMemory : config.mode = .memory

/-- One signal on its way: the handlers of its requests, their channel, the transformer, and the ring of its buffer in
    memory mode. Every batch is marked with the index of its request; `sent` are the batches that the channel has taken,
    `forwarded` those that the ring has admitted, and `lost` those that were dropped with the transformer. -/
structure IngestWorld (Request Batch : Type) [Buffer.RecordBatch Batch] where
  calls : List (ExportCall Request Batch) := []
  sourceRunning : Bool := true
  channel : Foundation.Channel (Nat × Batch)
  transformer : TransformerPhase Batch := .receiving
  fatalError : Option String := none
  ring : RingWorld Batch := {}
  sent : List (Nat × Batch) := []
  forwarded : List (Nat × Batch) := []
  lost : List (Nat × Batch) := []

inductive IngestAction (Request Batch : Type) [Buffer.RecordBatch Batch] where
  | arrive (arrival : Arrival Request)
  | decode (index : Nat) (join : Join)
  | send (index : Nat)
  | refuse (index : Nat)
  | cancel (index : Nat)
  | stopSource
  | recv
  | finish
  | forward (now : Instant)
  | abort
  | failBuffer (reason : String)
  | ring (action : RingAction Batch)

namespace TransformerPhase

def hand : TransformerPhase Batch → List (Nat × Batch)
  | .sending entry => [entry]
  | _ => []

def running : TransformerPhase Batch → Bool
  | .receiving | .sending _ => true
  | .returned _ | .aborted => false

end TransformerPhase

namespace IngestWorld

def callAt (world : IngestWorld Request Batch) (index : Nat) (phase : CallPhase) :
    Option (ExportCall Request Batch) :=
  world.calls[index]?.filter fun call => call.phase = phase

def setCall (world : IngestWorld Request Batch) (index : Nat) (call : ExportCall Request Batch) :
    IngestWorld Request Batch :=
  { world with calls := world.calls.set index call }

def senderLeft (world : IngestWorld Request Batch) : Bool :=
  world.sourceRunning || world.calls.any fun call => call.phase = .decoding || call.phase = .sending

/-- The transformer ends, and its receiver is dropped with what it holds and what is still in the channel. -/
def stopTransformer (world : IngestWorld Request Batch) (phase : TransformerPhase Batch) : IngestWorld Request Batch :=
  { world with
    transformer := phase
    channel := world.channel.close
    lost := world.lost ++ world.transformer.hand ++ world.channel.queue }

/-- The actions on the ring that are not those of the transformer or of its sender. -/
def others : RingAction Batch → Bool
  | .enqueue .. | .reserve .. | .closeSenders => false
  | _ => true

/-- One pass of `reserve_or_enqueue_slot` for the batch that the transformer holds. -/
def forward (inner : MemoryInner) (signal : SignalKind) (world : IngestWorld Request Batch) (entry : Nat × Batch)
    (now : Instant) : Option (IngestWorld Request Batch) :=
  if world.fatalError.isSome then some (world.stopTransformer (.returned (.error .downstreamClosed)))
  else
    (world.ring.step inner.toBufferInner signal (.enqueue entry.2 now)).map fun ring =>
      match (reserveOrEnqueueSlot inner.config world.ring.state (Buffer.RecordBatch.arrayMemorySize entry.2)
          (Buffer.RecordBatch.numRows entry.2) (some entry.2) now).2.1 with
      | .enqueued => { world with ring := ring, transformer := .receiving, forwarded := world.forwarded ++ [entry] }
      | .blocked | .reserved _ => { world with ring := ring }
      | .failed _ | .downstreamClosed =>
        { world with ring := ring }.stopTransformer (.returned (.error .downstreamClosed))

def step (endpoint : Endpoint Request Batch) (inner : MemoryInner) (signal : SignalKind)
    (world : IngestWorld Request Batch) : IngestAction Request Batch → Option (IngestWorld Request Batch)
  | .arrive arrival =>
    if world.sourceRunning then some { world with calls := world.calls ++ [{ arrival := arrival }] } else none
  | .decode index join =>
    (world.callAt index .decoding).map fun call =>
      world.setCall index (call.decoded (endpoint.convert call.arrival join))
  | .send index =>
    (world.callAt index .sending).bind fun call =>
      call.batch.bind fun batch =>
        (world.channel.send (index, batch)).map fun channel =>
          { world with channel := channel, sent := world.sent ++ [(index, batch)] }.setCall index
            { call with phase := .replied .ok }
  | .refuse index =>
    (world.callAt index .sending).bind fun call =>
      if world.channel.closed then
        some (world.setCall index { call with phase := .replied (Endpoint.closedReply call.arrival) })
      else none
  | .cancel index =>
    ((world.callAt index .decoding).or (world.callAt index .sending)).map fun call =>
      world.setCall index { call with phase := .dropped }
  | .stopSource => some { world with sourceRunning := false }
  | .recv =>
    match world.transformer with
    | .receiving =>
      world.channel.recv.map fun received =>
        { world with channel := received.2, transformer := .sending received.1 }
    | _ => none
  | .finish =>
    match world.transformer with
    | .receiving =>
      if world.channel.queue.isEmpty && !world.senderLeft then
        some (world.stopTransformer (.returned (.ok ())))
      else none
    | _ => none
  | .forward now =>
    match world.transformer with
    | .sending entry => world.forward inner signal entry now
    | _ => none
  | .abort => if world.transformer.running then some (world.stopTransformer .aborted) else none
  | .failBuffer reason => some { world with fatalError := world.fatalError.or (some reason) }
  | .ring .closeSenders =>
    if world.transformer.running then none
    else (world.ring.step inner.toBufferInner signal .closeSenders).map fun ring => { world with ring := ring }
  | .ring action =>
    if others action then (world.ring.step inner.toBufferInner signal action).map fun ring => { world with ring := ring }
    else none

def opened (capacity : Nat) : IngestWorld Request Batch := { channel := .empty capacity }

end IngestWorld

end OtelDatalake.Pipeline
