import Mathlib.Data.List.Infix
import OtelDatalake.Foundation.Fallible
import OtelDatalake.Foundation.LittleEndian
import OtelDatalake.Wasm.Guard

open OtelDatalake.Foundation

namespace OtelDatalake.Wasm.Execution

inductive SignalBatch (Value : Type) where
  | logs (batch : RecordBatch Value)
  | metrics (batch : RecordBatch Value)
  | traces (batch : RecordBatch Value)

namespace SignalBatch

variable {Value : Type}

def recordBatch : SignalBatch Value → RecordBatch Value
  | .logs batch | .metrics batch | .traces batch => batch

def withBatch (signal : SignalBatch Value) (batch : RecordBatch Value) : SignalBatch Value :=
  match signal with
  | .logs _ => .logs batch
  | .metrics _ => .metrics batch
  | .traces _ => .traces batch

def signalType : SignalBatch Value → Nat
  | .logs _ => 0
  | .metrics _ => 1
  | .traces _ => 2

end SignalBatch

inductive WorkerOutcome (Value : Type) where
  | emitted (batches : List (SignalBatch Value))
  | discarded
  | rejected (reason : String) (original : SignalBatch Value)
  | errored (reason : String) (original : SignalBatch Value)

/-- The error of a call into the guest: its text with all its causes, and whether it is the trap of an interrupt. -/
structure Trap where
  chain : String
  interrupt : Bool
  deriving DecidableEq, Repr

def containsText (text part : String) : Bool := decide (part.toList <:+: text.toList)

def Trap.isTimeout (trap : Trap) : Bool :=
  containsText trap.chain "interrupt" || containsText trap.chain "epoch deadline" ||
    containsText trap.chain "deadline" || trap.interrupt

/-- What `datalake_transform` returns: a packed pointer and length, or a pointer only. -/
inductive TransformReturn where
  | v1 (packed : UInt64)
  | legacy (ptr : UInt32)
  deriving DecidableEq, Repr

/-- A guest by what its exports do to an instance, and by the linear memory of the instance. -/
structure GuestModule (Guest : Type) where
  memory : Guest → List UInt8
  alloc : Guest → Nat → Except Trap UInt32 × Guest
  dealloc : Guest → Nat → Nat → Except Trap Unit × Guest
  transform : Guest → Nat → Nat → Nat → Except Trap TransformReturn × Guest
  write : Guest → Nat → List UInt8 → Guest

/-- The Arrow IPC writer and reader; a stream yields its batches up to the first that cannot be read. -/
structure IpcLibrary (Value : Type) where
  serializeBatchToIpc : RecordBatch Value → Except String (List UInt8)
  readStream : List UInt8 → Except String (List (Except String (RecordBatch Value)))

structure ParsedHeader where
  status : Nat
  batchCount : Nat
  batchesPtr : Nat
  messagePtr : Nat
  messageLen : Nat
  deriving DecidableEq, Repr

structure MemoryRead where
  offset : Nat
  length : Nat
  deriving DecidableEq, Repr

/-- The state of one execution: the instance, the allocations to free, and what was read and freed so far. -/
structure Session (Guest : Type) where
  guest : Guest
  allocsToFree : List (Nat × Nat) := []
  reads : List MemoryRead := []
  deallocs : List (Nat × Nat) := []

/-- What a worker has for an execution; `timeoutMs` is its parsed execution limit. -/
structure WorkerSetting where
  id : Nat
  modulePath : String
  maxBatchRows : Nat
  schemaGuard : SchemaGuardMode
  timeoutMs : Nat
  deriving DecidableEq, Repr

def maxGuestMessageLen : Nat := 64 * 1024

def maxGuestBatchCount : Nat := 1024

def u32Limit : Nat := 2 ^ 32 - 1

def isInBoundsAlloc (ptr len memSize : Nat) : Bool := decide (0 < ptr ∧ 0 < len ∧ saturatingAdd usizeMax ptr len ≤ memSize)

def isContinuation (byte : UInt8) : Bool := 0x80 ≤ byte.toNat && byte.toNat ≤ 0xBF

def isSecond (lead second : UInt8) : Bool :=
  if lead.toNat = 0xE0 then 0xA0 ≤ second.toNat && second.toNat ≤ 0xBF
  else if lead.toNat = 0xED then 0x80 ≤ second.toNat && second.toNat ≤ 0x9F
  else if lead.toNat = 0xF0 then 0x90 ≤ second.toNat && second.toNat ≤ 0xBF
  else if lead.toNat = 0xF4 then 0x80 ≤ second.toNat && second.toNat ≤ 0x8F
  else isContinuation second

/-- The length of the sequence at the head of some bytes, with the character that it encodes, if it is whole. -/
def utf8Chunk : List UInt8 → Nat × Option Nat
  | [] => (0, none)
  | lead :: rest =>
    if lead.toNat < 0x80 then (1, some lead.toNat)
    else if 0xC2 ≤ lead.toNat ∧ lead.toNat ≤ 0xDF then
      match rest with
      | second :: _ =>
        if isContinuation second then (2, some ((lead.toNat % 32) * 64 + second.toNat % 64)) else (1, none)
      | [] => (1, none)
    else if 0xE0 ≤ lead.toNat ∧ lead.toNat ≤ 0xF4 then
      match rest with
      | second :: rest =>
        if !isSecond lead second then (1, none)
        else
          match rest with
          | third :: rest =>
            if !isContinuation third then (2, none)
            else if lead.toNat ≤ 0xEF then
              (3, some ((lead.toNat % 16) * 4096 + (second.toNat % 64) * 64 + third.toNat % 64))
            else
              match rest with
              | fourth :: _ =>
                if isContinuation fourth then
                  (4, some ((lead.toNat % 8) * 262144 + (second.toNat % 64) * 4096 + (third.toNat % 64) * 64 +
                    fourth.toNat % 64))
                else (3, none)
              | [] => (3, none)
          | [] => (2, none)
      | [] => (1, none)
    else (1, none)

/-- Each sequence that is not whole is replaced by one replacement character. -/
def lossyChars : Nat → List UInt8 → List Char
  | _, [] => []
  | 0, _ => []
  | fuel + 1, bytes =>
    let (length, code) := utf8Chunk bytes
    (code.map Char.ofNat).getD (Char.ofNat 0xFFFD) :: lossyChars fuel (bytes.drop length)

def fromUtf8Lossy (bytes : List UInt8) : String := String.ofList (lossyChars bytes.length bytes)

section Host

variable {Guest Error : Type} (guestModule : GuestModule Guest)

/-- `Memory::read` and `Memory::data().get(..)`: nothing is read of a range that is not inside of the memory. -/
def readMemory (offset length : Nat) : Fallible (Session Guest) Error (Option (List UInt8)) := fun session =>
  let memory := guestModule.memory session.guest
  if offset + length ≤ memory.length then
    (.ok (some (slice offset length memory)),
      { session with reads := session.reads ++ [⟨offset, length⟩] })
  else (.ok none, session)

def dataSize : Fallible (Session Guest) Error Nat := fun session =>
  (.ok (guestModule.memory session.guest).length, session)

def callAlloc (len : Nat) : Fallible (Session Guest) Error (Except Trap Nat) := fun session =>
  let (result, guest) := guestModule.alloc session.guest len
  (.ok (result.map UInt32.toNat), { session with guest := guest })

def callDealloc (region : Nat × Nat) : Fallible (Session Guest) Error (Except Trap Unit) := fun session =>
  let (result, guest) := guestModule.dealloc session.guest region.1 region.2
  (.ok result, { session with guest := guest, deallocs := session.deallocs ++ [region] })

def callTransform (signalType ptr len : Nat) : Fallible (Session Guest) Error (Except Trap TransformReturn) :=
  fun session =>
    let (result, guest) := guestModule.transform session.guest signalType ptr len
    (.ok result, { session with guest := guest })

def writeMemory (offset : Nat) (bytes : List UInt8) : Fallible (Session Guest) Error Bool := fun session =>
  if offset + bytes.length ≤ (guestModule.memory session.guest).length then
    (.ok true, { session with guest := guestModule.write session.guest offset bytes })
  else (.ok false, session)

def pushInBoundsAlloc (ptr len memSize : Nat) : Fallible (Session Guest) Error Unit := fun session =>
  if isInBoundsAlloc ptr len memSize then
    (.ok (), { session with allocsToFree := session.allocsToFree ++ [(ptr, len)] })
  else (.ok (), session)

def outOfBoundsAccess : String := "out of bounds memory access"

def parseHeader (bytes : List UInt8) : ParsedHeader where
  status := ofLe (slice 0 4 bytes)
  batchCount := ofLe (slice 4 4 bytes)
  batchesPtr := ofLe (slice 8 4 bytes)
  messagePtr := ofLe (slice 12 4 bytes)
  messageLen := ofLe (slice 16 4 bytes)

def readResponseHeader (headerPtr : Nat) : Fallible (Session Guest) WasmTransformError ParsedHeader := do
  match ← readMemory guestModule headerPtr 20 with
  | some bytes => return parseHeader bytes
  | none => Fallible.fail (.pipeline outOfBoundsAccess)

def readGuestMessage (messagePtr messageLen : Nat) : Fallible (Session Guest) Error String :=
  if messagePtr = 0 ∨ messageLen = 0 then return ""
  else do
    match ← readMemory guestModule messagePtr (min messageLen maxGuestMessageLen) with
    | some bytes => return fromUtf8Lossy bytes
    | none => return ""

end Host

section Extract

variable {Guest Value : Type} (guestModule : GuestModule Guest) (ipc : IpcLibrary Value)

def decodeStream (input : SignalBatch Value) :
    List (Except String (RecordBatch Value)) → List (SignalBatch Value) →
      Except WasmTransformError (List (SignalBatch Value))
  | [], outBatches => .ok outBatches
  | maybeBatch :: rest, outBatches =>
    if outBatches.length ≥ maxGuestBatchCount then
      .error (.pipeline s!"Aggregate decoded batch count exceeds maximum allowed limit of {maxGuestBatchCount}")
    else
      match maybeBatch with
      | .error message => .error (.arrowIpc message)
      | .ok batch => decodeStream input rest (outBatches ++ [input.withBatch batch])

/-- An output buffer is freed with the others, unless it is the input buffer. -/
def pushOutput (ipcPtr memSize outputPtr outputLen : Nat) : Fallible (Session Guest) WasmTransformError Unit :=
  if outputPtr ≠ ipcPtr then pushInBoundsAlloc outputPtr outputLen memSize else pure ()

def decodeOutput (memSize : Nat) (input : SignalBatch Value) (outputPtr outputLen : Nat)
    (outBatches : List (SignalBatch Value)) :
    Fallible (Session Guest) WasmTransformError (List (SignalBatch Value)) := do
  match ← readMemory guestModule outputPtr outputLen with
  | none => Fallible.fail (.invalidMemoryBounds outputPtr outputLen memSize)
  | some bytes =>
    match ipc.readStream bytes with
    | .error message => Fallible.fail (.arrowIpc message)
    | .ok stream => Fallible.ofExcept (decodeStream input stream outBatches)

/-- The body of the loop over the descriptors behind the read of one: the bytes that are declared so far, and the
    batches that are decoded so far. -/
def extractOutput (memSize ipcPtr : Nat) (input : SignalBatch Value) (outputPtr outputLen totalBytes : Nat)
    (outBatches : List (SignalBatch Value)) :
    Fallible (Session Guest) WasmTransformError (Nat × List (SignalBatch Value)) :=
  if outputPtr = 0 then
    Fallible.fail (.pipeline "Protocol error: batch descriptor contained null IPC buffer pointer")
  else if saturatingAdd usizeMax totalBytes outputLen > 64 * 1024 * 1024 then
    Fallible.fail (.pipeline "Cumulative batch output size exceeds maximum allowed 64MiB limit")
  else if !(checkedAdd outputPtr outputLen).any (· ≤ memSize) then
    Fallible.fail (.invalidMemoryBounds outputPtr outputLen memSize)
  else do
    pushOutput ipcPtr memSize outputPtr outputLen
    let outBatches ← decodeOutput guestModule ipc memSize input outputPtr outputLen outBatches
    return (saturatingAdd usizeMax totalBytes outputLen, outBatches)

def extractBatch (batchesPtr memSize ipcPtr : Nat) (input : SignalBatch Value) (i totalBytes : Nat)
    (outBatches : List (SignalBatch Value)) :
    Fallible (Session Guest) WasmTransformError (Nat × List (SignalBatch Value)) := do
  match checkedAdd batchesPtr (i * 8) with
  | none => Fallible.fail (.pipeline "Batch descriptor offset overflow")
  | some offset =>
    match ← readMemory guestModule offset 8 with
    | none => Fallible.fail (.pipeline outOfBoundsAccess)
    | some descBytes =>
      extractOutput guestModule ipc memSize ipcPtr input (ofLe (slice 0 4 descBytes)) (ofLe (slice 4 4 descBytes))
        totalBytes outBatches

def extractFrom (batchesPtr memSize ipcPtr : Nat) (input : SignalBatch Value) :
    (count i totalBytes : Nat) → List (SignalBatch Value) →
      Fallible (Session Guest) WasmTransformError (List (SignalBatch Value))
  | 0, _, _, outBatches => return outBatches
  | count + 1, i, totalBytes, outBatches => do
    let (totalBytes, outBatches) ←
      extractBatch guestModule ipc batchesPtr memSize ipcPtr input i totalBytes outBatches
    extractFrom batchesPtr memSize ipcPtr input count (i + 1) totalBytes outBatches

def extractOutputBatches (batchesPtr batchCount : Nat) (input : SignalBatch Value) (ipcPtr : Nat) :
    Fallible (Session Guest) WasmTransformError (List (SignalBatch Value)) :=
  if batchCount > maxGuestBatchCount then
    Fallible.fail (.pipeline
      s!"Guest batch count {batchCount} exceeds maximum allowed limit of {maxGuestBatchCount}")
  else do
    let memSize ← dataSize guestModule
    if saturatingAdd usizeMax batchesPtr (min (batchCount * 8) usizeMax) > memSize then
      Fallible.fail (.pipeline s!"Batch descriptors array bounds exceed guest memory size {memSize}")
    else extractFrom guestModule ipc batchesPtr memSize ipcPtr input batchCount 0 0 []

end Extract

section Execute

variable {Guest Value : Type} (guestModule : GuestModule Guest) (ipc : IpcLibrary Value) (arrow : ArrowLibrary Value)
  (setting : WorkerSetting)

def rejectionReason (message : String) : String := if message = "" then "Guest rejected batch" else message

def errorReason (message : String) (status : Nat) : String :=
  if message = "" then s!"Guest returned error status {status}" else message

def guardOutputs (input : SignalBatch Value) (outBatches : List (SignalBatch Value)) :
    Except WasmTransformError (List (SignalBatch Value)) :=
  outBatches.mapM fun outBatch =>
    (Guard.guardBatch arrow setting.schemaGuard input.recordBatch outBatch.recordBatch).map outBatch.withBatch

def dispatchOutcome (header : ParsedHeader) (message : String) (batch : SignalBatch Value) (ipcPtr : Nat) :
    Fallible (Session Guest) (SignalBatch Value × WasmTransformError) (WorkerOutcome Value) :=
  match header.status with
  | 0 =>
    if header.batchCount = 0 then return .emitted []
    else if header.batchesPtr = 0 then
      Fallible.fail (batch, .pipeline
        "Protocol error: guest returned status 0 with batch_count > 0 but null batches_ptr")
    else do
      let outBatches ← Fallible.mapError (fun error => (batch, error))
        (extractOutputBatches guestModule ipc header.batchesPtr header.batchCount batch ipcPtr)
      let outBatches ← Fallible.mapError (fun error => (batch, error))
        (Fallible.ofExcept (guardOutputs arrow setting batch outBatches))
      return .emitted outBatches
  | 1 => return .discarded
  | 2 => return .rejected (rejectionReason message) batch
  | status => return .errored (errorReason message status) batch

def freeAndFail {Result : Type} (batch : SignalBatch Value) (region : Nat × Nat) (error : WasmTransformError) :
    Fallible (Session Guest) (SignalBatch Value × WasmTransformError) Result := do
  let _ ← callDealloc guestModule region
  Fallible.fail (batch, error)

def callError (trap : Trap) : WasmTransformError :=
  if trap.isTimeout then .executionTimeout setting.timeoutMs else .wasmtime trap.chain

def responseHeader (batch : SignalBatch Value) (input : Nat × Nat) (response : TransformReturn) :
    Fallible (Session Guest) (SignalBatch Value × WasmTransformError) (Nat × Nat) := do
  match response with
  | .v1 packed =>
    let ptr := packed.toNat / 2 ^ 32
    let len := packed.toNat % 2 ^ 32
    if ptr = 0 then
      freeAndFail guestModule batch input (.pipeline
        "Malformed C-ABI v1 response header: ptr=0, returned null response header pointer")
    else if len < 20 then
      freeAndFail guestModule batch input (.pipeline
        s!"Malformed C-ABI v1 response header: ptr={ptr}, len={len}: minimum header size is 20 bytes (minimum required: 20 bytes)")
    else
      let memSize ← dataSize guestModule
      if !(checkedAdd ptr len).any (· ≤ memSize) then
        freeAndFail guestModule batch input (.invalidMemoryBounds ptr len memSize)
      else return (ptr, len)
  | .legacy ptr =>
    let memSize ← dataSize guestModule
    if !(checkedAdd ptr.toNat 20).any (· ≤ memSize) then
      freeAndFail guestModule batch input (.invalidMemoryBounds ptr.toNat 20 memSize)
    else return (ptr.toNat, 20)

def freeAll {Error : Type} : List (Nat × Nat) → Option Trap → Fallible (Session Guest) Error (Option Trap)
  | [], deallocErr => return deallocErr
  | region :: rest, deallocErr => do
    match ← callDealloc guestModule region with
    | .ok () => freeAll rest deallocErr
    | .error trap => freeAll rest (deallocErr.or (some trap))

def finish (batch : SignalBatch Value) (input header : Nat × Nat) :
    Fallible (Session Guest) (SignalBatch Value × WasmTransformError) (WorkerOutcome Value) := do
  let parsed ← Fallible.mapError (fun error => (batch, error)) (readResponseHeader guestModule header.1)
  let message ← readGuestMessage guestModule parsed.messagePtr parsed.messageLen
  let memSize ← dataSize guestModule
  pushInBoundsAlloc input.1 input.2 memSize
  pushInBoundsAlloc header.1 header.2 memSize
  pushInBoundsAlloc parsed.messagePtr parsed.messageLen memSize
  pushInBoundsAlloc parsed.batchesPtr (min (parsed.batchCount * 8) u32Limit) memSize
  let outcome ← Fallible.attempt (dispatchOutcome guestModule ipc arrow setting parsed message batch input.1)
  let session ← Fallible.get
  let deallocErr ← freeAll guestModule session.allocsToFree none
  match outcome, deallocErr with
  | .ok _, some trap => Fallible.fail (batch, .wasmtime trap.chain)
  | .ok outcome, none => return outcome
  | .error failure, _ => Fallible.fail failure

def runGuest (batch : SignalBatch Value) (ipcBuf : List UInt8) :
    Fallible (Session Guest) (SignalBatch Value × WasmTransformError) (WorkerOutcome Value) := do
  let ipcLen := ipcBuf.length
  match ← callAlloc guestModule ipcLen with
  | .error trap => Fallible.fail (batch, callError setting trap)
  | .ok ipcPtr =>
    if ipcPtr = 0 ∧ ipcLen > 0 then Fallible.fail (batch, .oom setting.modulePath setting.id)
    else
      if !(← writeMemory guestModule ipcPtr ipcBuf) then
        freeAndFail guestModule batch (ipcPtr, ipcLen) (.wasmtime outOfBoundsAccess)
      else
        match ← callTransform guestModule batch.signalType ipcPtr ipcLen with
        | .error trap => Fallible.fail (batch, callError setting trap)
        | .ok response =>
          let header ← responseHeader guestModule batch (ipcPtr, ipcLen) response
          finish guestModule ipc arrow setting batch (ipcPtr, ipcLen) header

/-- `execute_batch`, from the result of `check_hot_reload` and the instance that the worker has then. The session is
    that of the instance, if it was called. -/
def executeBatch (reloaded : Except WasmTransformError (Option Guest)) (batch : SignalBatch Value) :
    Except (SignalBatch Value × WasmTransformError) (WorkerOutcome Value) × Option (Session Guest) :=
  match reloaded with
  | .error error => (.error (batch, error), none)
  | .ok guest =>
    let numRows := batch.recordBatch.numRows
    if setting.maxBatchRows > 0 ∧ numRows > setting.maxBatchRows then
      (.ok (.rejected s!"Batch row count {numRows} exceeds configured maximum {setting.maxBatchRows}" batch), none)
    else
      match ipc.serializeBatchToIpc batch.recordBatch with
      | .error message => (.error (batch, .arrowIpc message), none)
      | .ok ipcBuf =>
        if ipcBuf.length > u32Limit then (.error (batch, .pipeline "IPC payload exceeds u32::MAX"), none)
        else
          match guest with
          | none => (.error (batch, .pipeline "WASM worker guest components missing"), none)
          | some guest =>
            let (result, session) := runGuest guestModule ipc arrow setting batch ipcBuf { guest := guest }
            (result, some session)

end Execute

end OtelDatalake.Wasm.Execution
