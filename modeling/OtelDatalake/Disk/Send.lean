import OtelDatalake.Disk.Splitting
import OtelDatalake.Disk.World

open Std OtelDatalake.Foundation OtelDatalake.Buffer

namespace OtelDatalake.Disk

variable {Schema Row : Type} [DecidableEq Schema]

/-- The frame as the writer stores it, if `encode_frame` has made it. -/
def PreEncodedFrame.frame? {Batch : Type} [RecordBatch Batch] (codec : Codec Batch) (signal : SignalKind)
    (frame : PreEncodedFrame Batch) : Option (Frame codec) :=
  match encoded : codec.encode frame.batch with
  | .error _ => none
  | .ok payload =>
    if fits : RecordBatch.numRows frame.batch ≤ u32Max ∧ payload.length ≤ u32Max then
      some { signal := signal, seqId := 0, batch := frame.batch, payload := payload, encoded := encoded
             seqFits := Nat.zero_le _, rowFits := fits.1, payloadFits := fits.2 }
    else none

/-- The errors of `send`; those of the encoding are errors of storage or of Arrow. -/
inductive SendError where
  | encode (reason : String)
  | storage (reason : String)
  | internal (message : String)
  | downstreamClosed
  deriving DecidableEq, Repr

/-- Where a call of `send` stands: in memory mode its batch has yet to be admitted; in disk mode a slot has yet to be
    reserved for the first of its frames, or the writer has yet to answer the append of a frame. -/
inductive SendPhase {Batch : Type} [RecordBatch Batch] (codec : Codec Batch) where
  | enqueuing
  | reserving (frames : List (Frame codec))
  | appending (seqId : Nat) (frames : List (Frame codec))
  | returned (result : Except SendError Unit)
  | dropped

/-- A call of `send` with the sequence numbers that its frames have been given. -/
structure SendCall (codec : Codec (RowBatch Schema Row)) where
  signal : SignalKind
  batch : RowBatch Schema Row
  phase : SendPhase codec
  seqIds : List Nat := []

/-- A buffer in memory mode or in disk mode. -/
inductive Storage (codec : Codec (RowBatch Schema Row)) where
  | memory (rings : SignalKind → RingWorld (RowBatch Schema Row))
  | disk (world : DiskWorld codec)

/-- A buffer with the calls of `send` on it; `fatalError` is that of the whole buffer. -/
structure SendWorld (codec : Codec (RowBatch Schema Row)) where
  storage : Storage codec
  fatalError : Option String := none
  calls : List (SendCall codec) := []

/-- A call starts, makes one pass of `reserve_or_enqueue_slot` or returns, or its future is dropped; or anything else
    happens in the buffer. -/
inductive SendAction (codec : Codec (RowBatch Schema Row)) where
  | send (signal : SignalKind) (batch : RowBatch Schema Row) (joinError : Option String)
  | poll (index : Nat) (now : Instant)
  | drop (index : Nat)
  | buffer (action : DiskAction codec)

variable {codec : Codec (RowBatch Schema Row)}

namespace Storage

def rings : Storage codec → SignalKind → RingWorld (RowBatch Schema Row)
  | memory rings => rings
  | disk world => world.rings

def fatalReason (storage : Storage codec) : Option String :=
  allSignals.findSome? fun signal => (storage.rings signal).state.ring.fatalError

/-- `split_and_encode_frames_for_disk` on the task of the call, or for a large batch on a blocking one. -/
def encode (inner : BufferInner) (signal : SignalKind) (batch : RowBatch Schema Row) (joinError : Option String) :
    SendPhase codec :=
  match if 65536 ≤ batch.memory then joinError else none with
  | some reason => .returned (.error (.internal s!"disk frame encode join error: {reason}"))
  | none =>
    match splitAndEncodeFramesForDisk codec signal batch inner.config.maxDiskFramePayloadBytes with
    | .error reason => .returned (.error (.encode reason))
    | .ok frames => .reserving (frames.filterMap fun frame => frame.frame? codec signal)

def send (inner : BufferInner) (storage : Storage codec) (signal : SignalKind) (batch : RowBatch Schema Row)
    (joinError : Option String) : SendCall codec :=
  { signal := signal
    batch := batch
    phase := match storage with
      | memory _ => .enqueuing
      | disk _ => encode inner signal batch joinError }

end Storage

namespace DiskWorld

/-- The append that a step answers, with the result of `append_encoded_frame`. -/
def answered? (world : DiskWorld codec) : DiskAction codec → Option (SignalKind × Nat × Except SendError Unit)
  | .cancel index => world.senders[index]?.map fun request =>
      (request.signal, request.seqId, .error (.storage "disk buffer writer thread is closed"))
  | .reply _ =>
    match world.writer.phase with
    | .replying (reply :: _) syncErr _ _ =>
      some (reply.1.signal, reply.1.seqId, match Writer.finalAnswer syncErr reply.2 with
        | .ok _ => .ok ()
        | .error reason => .error (.storage reason))
    | _ => none
  | .abandon =>
    match world.writer.phase, world.writer.channel with
    | .stopped, .appendEncoded request :: _ =>
      some (request.signal, request.seqId, .error (.storage "disk buffer writer thread dropped append reply"))
    | _, _ => none
  | _ => none

end DiskWorld

namespace SendCall

def fail (call : SendCall codec) (error : SendError) : SendCall codec := { call with phase := .returned (.error error) }

/-- A pass that admits nothing fails, or goes on behind the wait for space. -/
def refused (call : SendCall codec) : Admission → SendCall codec
  | .failed reason => call.fail (.storage reason)
  | .downstreamClosed => call.fail .downstreamClosed
  | _ => call

def number (call : SendCall codec) (seqId : Nat) (phase : SendPhase codec) : SendCall codec :=
  { call with seqIds := call.seqIds ++ [seqId], phase := phase }

def enqueue (inner : BufferInner) (call : SendCall codec) (rings : SignalKind → RingWorld (RowBatch Schema Row))
    (now : Instant) : Option (Storage codec × SendCall codec) :=
  let ring := rings call.signal
  (RingWorld.step inner call.signal ring (.enqueue call.batch now)).map fun next =>
    (.memory (Function.update rings call.signal next),
      match (reserveOrEnqueueSlot inner.config ring.state (RecordBatch.arrayMemorySize call.batch)
        (RecordBatch.numRows call.batch) (some call.batch) now).2.1 with
      | .enqueued => call.number ring.state.ring.nextSeq (.returned (.ok ()))
      | admission => call.refused admission)

def reserve (inner : BufferInner) (config : WriterConfig) (call : SendCall codec) (world : DiskWorld codec)
    (frame : Frame codec) (frames : List (Frame codec)) (now : Instant) : Option (Storage codec × SendCall codec) :=
  (world.step inner config (.reserve frame now)).map fun next =>
    (.disk next,
      match (reserveOrEnqueueSlot inner.config (world.rings frame.signal).state frame.bytes.length
        (RecordBatch.numRows frame.batch) none now).2.1 with
      | .reserved seqId => call.number seqId (.appending seqId frames)
      | admission => call.refused admission)

def poll (inner : BufferInner) (config : WriterConfig) (call : SendCall codec) (storage : Storage codec)
    (fatalError : Option String) (now : Instant) : Option (Storage codec × SendCall codec) :=
  match call.phase, storage, fatalError with
  | .reserving [], _, _ => some (storage, { call with phase := .returned (.ok ()) })
  | .enqueuing, _, some reason | .reserving (_ :: _), _, some reason => some (storage, call.fail (.storage reason))
  | .enqueuing, .memory rings, none => call.enqueue inner rings now
  | .reserving (frame :: frames), .disk world, none => call.reserve inner config world frame frames now
  | _, _, _ => none

/-- A call that awaits an append goes on with its answer. -/
def resume (call : SendCall codec) (answer : Option (SignalKind × Nat × Except SendError Unit)) : SendCall codec :=
  match call.phase, answer with
  | .appending seqId frames, some (signal, answered, result) =>
    if signal = call.signal ∧ answered = seqId then
      match result with
      | .ok _ => { call with phase := .reserving frames }
      | .error error => call.fail error
    else call
  | _, _ => call

def isWaiting (call : SendCall codec) : Bool :=
  match call.phase with
  | .enqueuing | .reserving _ | .appending _ _ => true
  | .returned _ | .dropped => false

end SendCall

namespace SendWorld

/-- A failure of a ring is recorded as that of the buffer if it is the first. -/
def move (world : SendWorld codec) (storage : Storage codec) (calls : List (SendCall codec)) : SendWorld codec :=
  { storage := storage, fatalError := world.fatalError.or storage.fatalReason, calls := calls }

def act (inner : BufferInner) (config : WriterConfig) (world : SendWorld codec) (action : DiskAction codec) :
    Option (SendWorld codec) :=
  match world.storage, action with
  | .memory rings, .ring signal action =>
    if consumerAction action then
      (RingWorld.step inner signal (rings signal) action).map fun next =>
        world.move (.memory (Function.update rings signal next)) world.calls
    else none
  | .memory _, _ => none
  | .disk _, .reserve .. => none
  | .disk disk, action =>
    (disk.step inner config action).map fun next =>
      world.move (.disk next) (world.calls.map fun call => call.resume (disk.answered? action))

def step (inner : BufferInner) (config : WriterConfig) (world : SendWorld codec) :
    SendAction codec → Option (SendWorld codec)
  | .send signal batch joinError =>
    some { world with calls := world.calls ++ [world.storage.send inner signal batch joinError] }
  | .poll index now =>
    world.calls[index]?.bind fun call =>
      (call.poll inner config world.storage world.fatalError now).map fun moved =>
        world.move moved.1 (world.calls.set index moved.2)
  | .drop index =>
    world.calls[index]?.bind fun call =>
      if call.isWaiting then some { world with calls := world.calls.set index { call with phase := .dropped } }
      else none
  | .buffer action => world.act inner config action

end SendWorld

theorem frame?_of_encoded {Batch : Type} [RecordBatch Batch] {codec : Codec Batch} {signal : SignalKind}
    {frame : PreEncodedFrame Batch}
    (encoded : encodeFrame codec signal 0 frame.batch = .ok (frame.header, frame.bytes)) :
    ∃ stored : Frame codec, frame.frame? codec signal = some stored ∧ stored.signal = signal ∧
      stored.batch = frame.batch ∧ stored.header = frame.header ∧ stored.bytes = frame.bytes := by
  obtain ⟨header, bytes, batch⟩ := frame
  simp only at encoded
  unfold encodeFrame at encoded
  simp only at encoded
  split at encoded
  · cases encoded
  · rename_i few
    split at encoded
    · cases encoded
    · rename_i payload written
      split at encoded
      · cases encoded
      · rename_i short
        cases encoded
        have fits : RecordBatch.numRows batch ≤ u32Max ∧ payload.length ≤ u32Max := ⟨by omega, by omega⟩
        refine ⟨{ signal := signal, seqId := 0, batch := batch, payload := payload, encoded := written
                  seqFits := Nat.zero_le _, rowFits := fits.1, payloadFits := fits.2 }, ?_, rfl, rfl, rfl, rfl⟩
        unfold PreEncodedFrame.frame?
        split
        · rename_i failed
          rw [written] at failed
          cases failed
        · rename_i stored same
          rw [written] at same
          cases same
          rw [dif_pos fits]

end OtelDatalake.Disk
