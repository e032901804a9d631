import OtelDatalake.Buffer.Holding
import OtelDatalake.Disk.SegmentIndex

open Std OtelDatalake.Foundation OtelDatalake.Buffer

namespace OtelDatalake.Disk

variable {Batch : Type} [RecordBatch Batch]

/-- `DiskWatermark::from_rings` in one of the tasks that take a snapshot: it loads one atomic after the other. -/
inductive Snapshot where
  | logs (logs : Nat)
  | metrics (logs metrics : Nat)
  | taken (watermark : DiskWatermark)

/-- A buffer in disk mode: its rings with what is held on them, the tasks that have reserved a slot and not yet sent
    their frame to the writer, those that take a snapshot, the writer thread and the directory. -/
structure DiskWorld (codec : Codec Batch) where
  rings : SignalKind → RingWorld Batch
  senders : List (AppendRequest codec) := []
  snapshots : List Snapshot := []
  writer : Writer codec
  dir : Directory

inductive DiskAction (codec : Codec Batch) where
  | ring (signal : SignalKind) (action : RingAction Batch)
  | reserve (frame : Frame codec) (now : Instant)
  | submit (index : Nat)
  | cancel (index : Nat)
  | startSnapshot
  | readSnapshot (index : Nat)
  | sendSnapshot (index : Nat) (flush : Bool)
  | shutdown
  | writer (action : WriterAction codec)
  | reply (now : Instant)
  | abandon

/-- The actions on a ring that neither admit a batch nor resolve a reservation. -/
def consumerAction : RingAction Batch → Bool
  | .enqueue .. | .reserve .. | .finish .. | .dropReservation _ => false
  | _ => true

def writerOnly {codec : Codec Batch} : WriterAction codec → Bool
  | .submit _ | .reply | .abandon => false
  | _ => true

namespace DiskWorld

variable {codec : Codec Batch}

def setRing (world : DiskWorld codec) (signal : SignalKind) (ring : RingWorld Batch) : DiskWorld codec :=
  { world with rings := Function.update world.rings signal ring }

def stepRing (inner : BufferInner) (world : DiskWorld codec) (signal : SignalKind) (action : RingAction Batch) :
    Option (DiskWorld codec) :=
  (RingWorld.step inner signal (world.rings signal) action).map (world.setRing signal)

def stepWriter (config : WriterConfig) (world : DiskWorld codec) (action : WriterAction codec) :
    Option (DiskWorld codec) :=
  (WriterWorld.step config ⟨world.writer, world.dir⟩ action).map fun next =>
    { world with writer := next.writer, dir := next.dir }

def advanceSnapshot (inner : BufferInner) (world : DiskWorld codec) : Snapshot → Snapshot
  | .logs logs => .metrics logs (world.rings .metrics).state.committedSeq
  | .metrics logs metrics => .taken
      { instanceId := inner.instanceId
        logs := logs
        metrics := metrics
        traces := (world.rings .traces).state.committedSeq }
  | .taken watermark => .taken watermark

/-- `send_pre_encoded_disk_frame` up to the send to the writer. -/
def reserve (inner : BufferInner) (world : DiskWorld codec) (frame : Frame codec) (now : Instant) :
    Option (DiskWorld codec) :=
  let rows := RecordBatch.numRows frame.batch
  let reserved := world.stepRing inner frame.signal
    (.reserve frame.bytes.length rows frame.header.rowCount (RecordBatch.schema frame.batch) now)
  match (reserveOrEnqueueSlot inner.config (world.rings frame.signal).state frame.bytes.length rows none now).2.1 with
  | .reserved seqId =>
    if numbered : seqId < u64Max then
      reserved.map fun next =>
        { next with senders := next.senders ++ [{ frame := frame, seqId := seqId, numbered := numbered.le }] }
    else none
  | _ => reserved

def step (inner : BufferInner) (config : WriterConfig) (world : DiskWorld codec) :
    DiskAction codec → Option (DiskWorld codec)
  | .ring signal action => if consumerAction action then world.stepRing inner signal action else none
  | .reserve frame now => world.reserve inner frame now
  | .submit index =>
    world.senders[index]?.bind fun request =>
      { world with senders := world.senders.eraseIdx index }.stepWriter config (.submit (.appendEncoded request))
  | .cancel index =>
    world.senders[index]?.bind fun request =>
      { world with senders := world.senders.eraseIdx index }.stepRing inner request.signal
        (.dropReservation request.seqId)
  | .startSnapshot =>
    some { world with snapshots := world.snapshots ++ [.logs (world.rings .logs).state.committedSeq] }
  | .readSnapshot index =>
    world.snapshots[index]?.map fun snapshot =>
      { world with snapshots := world.snapshots.set index (world.advanceSnapshot inner snapshot) }
  | .sendSnapshot index flush =>
    match world.snapshots[index]? with
    | some (.taken watermark) =>
      { world with snapshots := world.snapshots.eraseIdx index }.stepWriter config
        (.submit (if flush then .flushWatermark watermark else .updateWatermark watermark))
    | _ => none
  | .shutdown => world.stepWriter config (.submit .shutdown)
  | .writer action => if writerOnly action then world.stepWriter config action else none
  | .reply now =>
    match world.writer.phase with
    | .replying (reply :: _) syncErr _ _ =>
      (world.stepRing inner reply.1.signal
        (.finish reply.1.seqId (Writer.finalAnswer syncErr reply.2) now)).bind fun next =>
          next.stepWriter config .reply
    | _ => none
  | .abandon =>
    match world.writer.phase, world.writer.channel with
    | .stopped, .appendEncoded request :: _ =>
      (world.stepRing inner request.signal (.dropReservation request.seqId)).bind fun next =>
        next.stepWriter config .abandon
    | _, _ => world.stepWriter config .abandon

inductive Moves (inner : BufferInner) (config : WriterConfig) (world : DiskWorld codec) :
    DiskAction codec → DiskWorld codec → Prop where
  | ring {signal : SignalKind} {action : RingAction Batch} {next : DiskWorld codec}
      (consumer : consumerAction action = true) (stepped : world.stepRing inner signal action = some next) :
      Moves inner config world (.ring signal action) next
  | reserved {frame : Frame codec} {now : Instant} {seqId : Nat} {next : DiskWorld codec}
      (admitted : (reserveOrEnqueueSlot inner.config (world.rings frame.signal).state frame.bytes.length
        (RecordBatch.numRows frame.batch) none now).2.1 = .reserved seqId) (numbered : seqId < u64Max)
      (stepped : world.stepRing inner frame.signal (.reserve frame.bytes.length (RecordBatch.numRows frame.batch)
        frame.header.rowCount (RecordBatch.schema frame.batch) now) = some next) :
      Moves inner config world (.reserve frame now)
        { next with senders := next.senders ++ [{ frame := frame, seqId := seqId, numbered := numbered.le }] }
  | refused {frame : Frame codec} {now : Instant} {next : DiskWorld codec}
      (refused : ∀ seqId, (reserveOrEnqueueSlot inner.config (world.rings frame.signal).state frame.bytes.length
        (RecordBatch.numRows frame.batch) none now).2.1 ≠ .reserved seqId)
      (stepped : world.stepRing inner frame.signal (.reserve frame.bytes.length (RecordBatch.numRows frame.batch)
        frame.header.rowCount (RecordBatch.schema frame.batch) now) = some next) :
      Moves inner config world (.reserve frame now) next
  | submit {index : Nat} {request : AppendRequest codec} {next : DiskWorld codec}
      (found : world.senders[index]? = some request)
      (stepped : { world with senders := world.senders.eraseIdx index }.stepWriter config
        (.submit (.appendEncoded request)) = some next) : Moves inner config world (.submit index) next
  | cancel {index : Nat} {request : AppendRequest codec} {next : DiskWorld codec}
      (found : world.senders[index]? = some request)
      (stepped : { world with senders := world.senders.eraseIdx index }.stepRing inner request.signal
        (.dropReservation request.seqId) = some next) : Moves inner config world (.cancel index) next
  | startSnapshot :
      Moves inner config world .startSnapshot
        { world with snapshots := world.snapshots ++ [.logs (world.rings .logs).state.committedSeq] }
  | readSnapshot {index : Nat} {snapshot : Snapshot} (found : world.snapshots[index]? = some snapshot) :
      Moves inner config world (.readSnapshot index)
        { world with snapshots := world.snapshots.set index (world.advanceSnapshot inner snapshot) }
  | sendSnapshot {index : Nat} {flush : Bool} {watermark : DiskWatermark} {next : DiskWorld codec}
      (found : world.snapshots[index]? = some (.taken watermark))
      (stepped : { world with snapshots := world.snapshots.eraseIdx index }.stepWriter config
        (.submit (if flush then .flushWatermark watermark else .updateWatermark watermark)) = some next) :
      Moves inner config world (.sendSnapshot index flush) next
  | shutdown {next : DiskWorld codec} (stepped : world.stepWriter config (.submit .shutdown) = some next) :
      Moves inner config world .shutdown next
  | writer {action : WriterAction codec} {next : DiskWorld codec} (alone : writerOnly action = true)
      (stepped : world.stepWriter config action = some next) : Moves inner config world (.writer action) next
  | reply {now : Instant} {reply : AppendReply codec} {replies : List (AppendReply codec)}
      {syncErr : Option String} {dirty shutdown : Bool} {between next : DiskWorld codec}
      (phase : world.writer.phase = .replying (reply :: replies) syncErr dirty shutdown)
      (finished : world.stepRing inner reply.1.signal
        (.finish reply.1.seqId (Writer.finalAnswer syncErr reply.2) now) = some between)
      (stepped : between.stepWriter config .reply = some next) : Moves inner config world (.reply now) next
  | abandonAppend {request : AppendRequest codec} {rest : List (WriterCommand codec)}
      {between next : DiskWorld codec} (phase : world.writer.phase = .stopped)
      (channel : world.writer.channel = .appendEncoded request :: rest)
      (dropped : world.stepRing inner request.signal (.dropReservation request.seqId) = some between)
      (stepped : between.stepWriter config .abandon = some next) : Moves inner config world .abandon next
  | abandon {next : DiskWorld codec} (stepped : world.stepWriter config .abandon = some next) :
      Moves inner config world .abandon next

theorem moves_of_step {inner : BufferInner} {config : WriterConfig} {world next : DiskWorld codec}
    {action : DiskAction codec} (stepped : world.step inner config action = some next) :
    Moves inner config world action next := by
  cases action with
  | ring signal action =>
    simp only [step] at stepped
    split at stepped
    · rename_i consumer
      exact .ring consumer stepped
    · cases stepped
  | reserve frame now =>
    simp only [step, reserve] at stepped
    split at stepped
    · rename_i seqId admitted
      split at stepped
      · rename_i numbered
        obtain ⟨middle, moved, rfl⟩ := Option.map_eq_some_iff.mp stepped
        exact .reserved admitted numbered moved
      · cases stepped
    · rename_i refused
      exact .refused refused stepped
  | submit index =>
    obtain ⟨request, found, moved⟩ := Option.bind_eq_some_iff.mp stepped
    exact .submit found moved
  | cancel index =>
    obtain ⟨request, found, moved⟩ := Option.bind_eq_some_iff.mp stepped
    exact .cancel found moved
  | startSnapshot =>
    cases stepped
    exact .startSnapshot
  | readSnapshot index =>
    obtain ⟨snapshot, found, rfl⟩ := Option.map_eq_some_iff.mp stepped
    exact .readSnapshot found
  | sendSnapshot index flush =>
    simp only [step] at stepped
    split at stepped
    · rename_i watermark found
      exact .sendSnapshot found stepped
    · cases stepped
  | shutdown => exact .shutdown stepped
  | writer action =>
    simp only [step] at stepped
    split at stepped
    · rename_i alone
      exact .writer alone stepped
    · cases stepped
  | reply now =>
    simp only [step] at stepped
    split at stepped
    · rename_i phase
      obtain ⟨between, finished, moved⟩ := Option.bind_eq_some_iff.mp stepped
      exact .reply phase finished moved
    · cases stepped
  | abandon =>
    simp only [step] at stepped
    split at stepped
    · rename_i phase channel
      obtain ⟨between, dropped, moved⟩ := Option.bind_eq_some_iff.mp stepped
      exact .abandonAppend phase channel dropped moved
    · exact .abandon stepped

def opened (codec : Codec Batch) (config : WriterConfig) (generatedId : Nat) (now : Instant) (unlinks : Nat → Bool)
    (dir : Directory) : DiskWorld codec :=
  let start := WriterWorld.opened codec config generatedId now unlinks dir
  { rings := fun signal =>
      { state := (openAndRecover codec config.maxPayloadLen generatedId now unlinks dir).rings signal }
    writer := start.writer
    dir := start.dir }

end DiskWorld

end OtelDatalake.Disk
