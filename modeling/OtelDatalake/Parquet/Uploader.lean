import OtelDatalake.Foundation.Runs
import OtelDatalake.Foundation.Sending

open OtelDatalake.Foundation

namespace OtelDatalake.Parquet

abbrev Chunk := List UInt8

/-- The errors of the sink; the errors of other libraries are the texts that they display. -/
inductive ParquetSinkError where
  | openDal (cause : String)
  | parquet (cause : String)
  | arrow (cause : String)
  | variantEncoding (message : String)
  | config (message : String)
  | internal (message : String)
  deriving DecidableEq, Repr

def ParquetSinkError.display : ParquetSinkError → String
  | .openDal cause => "OpenDAL storage error: " ++ cause
  | .parquet cause => "Parquet writing failure: " ++ cause
  | .arrow cause => "Arrow array processing error: " ++ cause
  | .variantEncoding message => "Variant encoding error: " ++ message
  | .config message => "Configuration validation error: " ++ message
  | .internal message => "Internal pipeline failure: " ++ message

def defaultChannelCapacity : Nat := 8

def defaultChunkBufferSize : Nat := 256 * 1024

inductive UploaderMessage where
  | chunk (bytes : Chunk)
  | finish
  deriving DecidableEq, Repr

structure BrokenPipe where
  message : String
  deriving DecidableEq, Repr

/-- `sender` tells whether the channel is still held. -/
structure ChannelWriter where
  sender : Bool
  buffer : Chunk
  bufferCapacity : Nat
  bytesWritten : Nat
  deriving DecidableEq, Repr

abbrev Call := Sending UploaderMessage ParquetSinkError

namespace ChannelWriter

def new (bufferCapacity : Nat) : ChannelWriter :=
  ⟨true, [], if bufferCapacity = 0 then defaultChunkBufferSize else bufferCapacity, 0⟩

def sendChunk (writer : ChannelWriter) (chunk : Chunk) : Call (Except BrokenPipe Unit) :=
  if writer.sender then
    .send (.chunk chunk) fun reply => .done (reply.mapError fun error => ⟨error.display⟩)
  else .done (.error ⟨"uploader sender already closed"⟩)

/-- The buffer is cleared before the chunk is sent, also when the send fails. -/
def flushBuffer (writer : ChannelWriter) : Call (Except BrokenPipe Unit × ChannelWriter) :=
  if writer.buffer.isEmpty then .done (.ok (), writer)
  else do
    let cleared := { writer with buffer := [] }
    let result ← cleared.sendChunk writer.buffer
    pure (result, cleared)

/-- A slice at or above the capacity is sent as it is, behind what was buffered before it. -/
def writeThrough (writer : ChannelWriter) (slice : Chunk) : Call (Except BrokenPipe Nat × ChannelWriter) := do
  match ← writer.sendChunk slice with
  | .error error => pure (.error error, writer)
  | .ok () => pure (.ok slice.length, { writer with bytesWritten := writer.bytesWritten + slice.length })

def writeBuffered (writer : ChannelWriter) (slice : Chunk) : Call (Except BrokenPipe Nat × ChannelWriter) :=
  let extended :=
    { writer with buffer := writer.buffer ++ slice, bytesWritten := writer.bytesWritten + slice.length }
  if extended.bufferCapacity ≤ extended.buffer.length then do
    match ← extended.flushBuffer with
    | (.error error, flushed) => pure (.error error, flushed)
    | (.ok (), flushed) => pure (.ok slice.length, flushed)
  else .done (.ok slice.length, extended)

def makeRoom (writer : ChannelWriter) (slice : Chunk) : Call (Except BrokenPipe Unit × ChannelWriter) :=
  if !writer.buffer.isEmpty && decide (writer.bufferCapacity < writer.buffer.length + slice.length) then
    writer.flushBuffer
  else .done (.ok (), writer)

def write (writer : ChannelWriter) (slice : Chunk) : Call (Except BrokenPipe Nat × ChannelWriter) :=
  if slice.isEmpty then .done (.ok 0, writer)
  else do
    match ← writer.makeRoom slice with
    | (.error error, writer) => pure (.error error, writer)
    | (.ok (), writer) =>
      if writer.bufferCapacity ≤ slice.length then writer.writeThrough slice else writer.writeBuffered slice

def flush (writer : ChannelWriter) : Call (Except BrokenPipe Unit × ChannelWriter) := writer.flushBuffer

/-- The sender is taken out of the writer, sends the end of the stream and is dropped. -/
def finish (writer : ChannelWriter) : Call (Except ParquetSinkError Unit × ChannelWriter) := do
  match ← writer.flushBuffer with
  | (.error error, writer) => pure (.error (.internal error.message), writer)
  | (.ok (), writer) =>
    if writer.sender then .send .finish fun reply => .done (reply, { writer with sender := false })
    else .done (.ok (), writer)

end ChannelWriter

inductive WriterCall where
  | write (slice : Chunk)
  | flush
  | finish
  deriving DecidableEq, Repr

def WriterCall.start (call : WriterCall) (writer : ChannelWriter) : Call (Bool × ChannelWriter) :=
  match call with
  | .write slice => writer.write slice >>= fun result => pure (result.1.isOk, result.2)
  | .flush => writer.flush >>= fun result => pure (result.1.isOk, result.2)
  | .finish => writer.finish >>= fun result => pure (result.1.isOk, result.2)

/-- The owner of the channel writer: between calls, in a call that waits for the channel, or gone. -/
inductive WriterSide where
  | idle (writer : ChannelWriter)
  | calling (call : WriterCall) (rest : Call (Bool × ChannelWriter))
  | gone

inductive UploadTask where
  | opening
  | receiving
  | acquiring (bytes : Chunk)
  | writing (bytes : Chunk)
  | acquiringToClose
  | closing
  | aborting (error : ParquetSinkError)
  | ended (result : Option (Except ParquetSinkError Unit))

structure Storage where
  written : Chunk
  object : Option Chunk
  closeAttempted : Bool
  closeSucceeded : Bool
  deriving DecidableEq, Repr

/-- The `UploaderHandle`: held, consumed by `wait_for_completion`, dropped, or returned from. -/
inductive UploaderHandle where
  | held
  | waiting
  | dropped
  | returned (result : Except ParquetSinkError Unit)

inductive RuntimeFlavor where
  | currentThread
  | multiThread
  | outside
  deriving DecidableEq, Repr

structure UploadSetting where
  path : String
  flavor : RuntimeFlavor
  semaphore : Bool

/-- An upload. `received` is all that the task has taken from the channel; `accepted` are the slices that `write` has
    accepted before the finish, and `acceptedLater` those behind it. -/
structure Upload where
  side : WriterSide
  queue : List UploaderMessage
  task : UploadTask
  storage : Storage
  handle : UploaderHandle
  abortSent : Bool
  received : List UploaderMessage
  accepted : List Chunk
  acceptedLater : List Chunk

inductive WriterAction where
  | call (call : WriterCall)
  | dropWriter
  | enqueue
  | refuse (blocked : Bool)

inductive TaskAction where
  | opened (reply : Except String Unit)
  | observeAbort
  | receive
  | permit (reply : Except String Unit)
  | wrote (reply : Except String Unit) (torn : Chunk)
  | commitObject
  | closed (reply : Except String Unit)
  | aborted
  | cancel

inductive HandleAction where
  | dropHandle
  | wait
  | join

inductive UploadAction where
  | writer (action : WriterAction)
  | task (action : TaskAction)
  | handle (action : HandleAction)

namespace Upload

def started (bufferCapacity : Nat) : Upload where
  side := .idle (ChannelWriter.new bufferCapacity)
  queue := []
  task := .opening
  storage := ⟨[], none, false, false⟩
  handle := .held
  abortSent := false
  received := []
  accepted := []
  acceptedLater := []

def sent (upload : Upload) : List UploaderMessage := upload.received ++ upload.queue

def senderDropped (upload : Upload) : Bool :=
  match upload.side with
  | .idle writer => !writer.sender
  | .calling _ _ => false
  | .gone => true

def returned (upload : Upload) (call : WriterCall) (succeeded : Bool) (writer : ChannelWriter) : Upload :=
  if succeeded then
    match call with
    | .write slice =>
      if writer.sender then { upload with side := .idle writer, accepted := upload.accepted ++ [slice] }
      else { upload with side := .idle writer, acceptedLater := upload.acceptedLater ++ [slice] }
    | _ => { upload with side := .idle writer }
  else { upload with side := .gone }

def proceed (upload : Upload) (call : WriterCall) (rest : Call (Bool × ChannelWriter)) : Upload :=
  match rest with
  | .done (succeeded, writer) => upload.returned call succeeded writer
  | .send _ _ => { upload with side := .calling call rest }

def receiverDropped (upload : Upload) : Bool :=
  match upload.task with
  | .ended _ => true
  | _ => false

/-- The error of `send_sync`: the channel is closed, at once or while the send waits for room, or the send may not wait
    on a current-thread runtime. -/
def refusal (setting : UploadSetting) (upload : Upload) (blocked : Bool) : Option ParquetSinkError :=
  if upload.receiverDropped then
    some (.internal (if blocked then "Uploader channel closed: channel closed" else "Uploader channel closed"))
  else if defaultChannelCapacity ≤ upload.queue.length && setting.flavor == .currentThread then
    some (.internal ("Cannot block in place on a current-thread Tokio runtime when uploader channel is full. " ++
      "Use async methods or execute within a multi-threaded Tokio runtime."))
  else none

def abortedError (setting : UploadSetting) : ParquetSinkError :=
  .internal ("Upload aborted for path: " ++ setting.path)

def take (setting : UploadSetting) (upload : Upload) : Option Upload :=
  match upload.queue with
  | .chunk bytes :: rest =>
    some { upload with queue := rest, received := upload.received ++ [.chunk bytes], task := .acquiring bytes }
  | .finish :: rest =>
    some { upload with queue := rest, received := upload.received ++ [.finish], task := .acquiringToClose }
  | [] => if upload.senderDropped then some { upload with task := .aborting (abortedError setting) } else none

/-- `acquire_io_permit`: without a semaphore it cannot fail. -/
def acquireIoPermit (setting : UploadSetting) (reply : Except String Unit) : Option (Except ParquetSinkError Unit) :=
  match reply with
  | .ok () => some (.ok ())
  | .error cause => if setting.semaphore then some (.error (.internal ("Upload semaphore closed: " ++ cause))) else none

def joinResult (result : Option (Except ParquetSinkError Unit)) : Except ParquetSinkError Unit :=
  match result with
  | some result => result
  | none => .error (.internal "Uploader task was cancelled")

def writerStep (setting : UploadSetting) (upload : Upload) (action : WriterAction) : Option Upload :=
  match upload.side, action with
  | .idle writer, .call call => some (upload.proceed call (call.start writer))
  | .idle _, .dropWriter => some { upload with side := .gone }
  | .calling call (.send message resume), .enqueue =>
    if upload.receiverDropped || decide (defaultChannelCapacity ≤ upload.queue.length) then none
    else some ({ upload with queue := upload.queue ++ [message] }.proceed call (resume (.ok ())))
  | .calling call (.send _ resume), .refuse blocked =>
    (upload.refusal setting blocked).map fun error => upload.proceed call (resume (.error error))
  | _, _ => none

def abortWith (upload : Upload) (error : ParquetSinkError) : Upload := { upload with task := .aborting error }

def writeReply (upload : Upload) (bytes torn : Chunk) (reply : Except String Unit) : Upload :=
  match reply with
  | .ok () => { upload with
      task := .receiving, storage := { upload.storage with written := upload.storage.written ++ bytes } }
  | .error cause =>
    { upload with storage := { upload.storage with written := upload.storage.written ++ torn } }.abortWith (.openDal cause)

def startClose (upload : Upload) : Upload :=
  { upload with task := .closing, storage := { upload.storage with closeAttempted := true } }

/-- The storage performs the close: what was written becomes the object. -/
def commit (upload : Upload) : Upload :=
  { upload with storage := { upload.storage with object := some upload.storage.written } }

/-- A reply to the close; a success is only reported of an object that exists. -/
def closeReply (upload : Upload) (reply : Except String Unit) : Option Upload :=
  match reply with
  | .ok () =>
    if upload.storage.object.isSome then
      some { upload with
        task := .ended (some (.ok ())), storage := { upload.storage with closeSucceeded := true } }
    else none
  | .error cause => some (upload.abortWith (.openDal cause))

def taskStep (setting : UploadSetting) (upload : Upload) (action : TaskAction) : Option Upload :=
  match upload.task, action with
  | .ended _, _ => none
  | _, .cancel => some { upload with task := .ended none }
  | .opening, .opened (.ok ()) => some { upload with task := .receiving }
  | .opening, .opened (.error cause) => some { upload with task := .ended (some (.error (.openDal cause))) }
  | .receiving, .receive => upload.take setting
  | .receiving, .observeAbort | .acquiringToClose, .observeAbort | .closing, .observeAbort =>
    if upload.abortSent then some (upload.abortWith (abortedError setting)) else none
  | .acquiring bytes, .permit reply =>
    (acquireIoPermit setting reply).map fun
      | .ok () => { upload with task := .writing bytes }
      | .error error => upload.abortWith error
  | .writing bytes, .wrote reply torn => some (upload.writeReply bytes torn reply)
  | .acquiringToClose, .permit reply =>
    (acquireIoPermit setting reply).map fun
      | .ok () => upload.startClose
      | .error error => upload.abortWith error
  | .closing, .commitObject => some upload.commit
  | .closing, .closed reply => upload.closeReply reply
  | .aborting error, .aborted => some { upload with task := .ended (some (.error error)) }
  | _, _ => none

/-- A move of the holder of the handle. `wait_for_completion` drops it on return, and an upload that has not completed
    is told to abort then. -/
def handleStep (upload : Upload) (action : HandleAction) : Option Upload :=
  match upload.handle, action with
  | .held, .wait => some { upload with handle := .waiting }
  | .held, .dropHandle | .waiting, .dropHandle => some { upload with handle := .dropped, abortSent := true }
  | .waiting, .join =>
    match upload.task with
    | .ended result =>
      some { upload with
        handle := .returned (joinResult result), abortSent := upload.abortSent || !(joinResult result).isOk }
    | _ => none
  | _, _ => none

def step (setting : UploadSetting) (upload : Upload) : UploadAction → Option Upload
  | .writer action => upload.writerStep setting action
  | .task action => upload.taskStep setting action
  | .handle action => upload.handleStep action

end Upload

end OtelDatalake.Parquet
