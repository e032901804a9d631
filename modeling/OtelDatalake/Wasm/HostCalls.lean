import OtelDatalake.Wasm.Execution
import OtelDatalake.Wasm.MetricRegistry

open OtelDatalake.Foundation OtelDatalake.Buffer OtelDatalake.Wasm.Execution

namespace OtelDatalake.Wasm

def maxLogMessageLen : Nat := 65536

/-- What a host function does with the memory of a guest: it refuses with a warning, it panics on the index of a slice,
    or it has the value. -/
inductive HostRead (Value : Type) where
  | refused
  | panicked
  | done (value : Value)
  deriving DecidableEq, Repr

def HostRead.map {Value Result : Type} (f : Value → Result) : HostRead Value → HostRead Result
  | .refused => .refused
  | .panicked => .panicked
  | .done value => .done (f value)

def indexRange (memory : List UInt8) (first last : Nat) : HostRead (List UInt8) :=
  if first ≤ last ∧ last ≤ memory.length then .done (slice first (last - first) memory) else .panicked

def readGuest (memory : List UInt8) (ptr len : UInt32) (maxLen : Nat) : HostRead (List UInt8) :=
  if u32Limit < ptr.toNat + len.toNat then .refused
  else if memory.length < ptr.toNat + len.toNat then .refused
  else indexRange memory ptr.toNat (ptr.toNat + min len.toNat maxLen)

/-- `from_utf8`, or `from_utf8_lossy` where it fails. -/
def decodeText (bytes : List UInt8) : List Char := (decodeUtf8 bytes).getD (lossyChars bytes.length bytes)

def withGuestStr (memory : Option (List UInt8)) (ptr len : UInt32) (maxLen : Nat) : HostRead (List Char) :=
  match memory with
  | none => .refused
  | some memory => (readGuest memory ptr len maxLen).map decodeText

/-- `read_str_from_mem`: the address of an empty text is not looked at. -/
def readStrFromMem (memory : List UInt8) (ptr len : UInt32) (maxLen : Nat) : HostRead (List Char) :=
  if len = 0 then .done [] else (readGuest memory ptr len maxLen).map decodeText

/-- `HostLogRecord`, in the order of its layout. -/
structure HostLogRecord where
  level : UInt32
  msgPtr : UInt32
  msgLen : UInt32
  targetPtr : UInt32
  targetLen : UInt32
  filePtr : UInt32
  fileLen : UInt32
  line : UInt32
  deriving DecidableEq, Repr

def HostLogRecord.toBytes (record : HostLogRecord) : List UInt8 :=
  [record.level, record.msgPtr, record.msgLen, record.targetPtr, record.targetLen, record.filePtr, record.fileLen,
    record.line].flatMap fun field => toLe 4 field.toNat

def recordField (bytes : List UInt8) (index : Nat) : UInt32 := UInt32.ofNat (ofLe (slice (4 * index) 4 bytes))

def decodeLogRecord (memory : List UInt8) (recordPtr : UInt32) : HostRead HostLogRecord :=
  if u32Limit < recordPtr.toNat + 32 then .refused
  else if memory.length < recordPtr.toNat + 32 then .refused
  else
    (indexRange memory recordPtr.toNat (recordPtr.toNat + 32)).map fun bytes =>
      { level := recordField bytes 0
        msgPtr := recordField bytes 1
        msgLen := recordField bytes 2
        targetPtr := recordField bytes 3
        targetLen := recordField bytes 4
        filePtr := recordField bytes 5
        fileLen := recordField bytes 6
        line := recordField bytes 7 }

inductive EventLevel where
  | error
  | warn
  | info
  | debug
  | trace
  deriving DecidableEq, Repr

def logLevelError : UInt32 := 1

def logLevelWarn : UInt32 := 2

def logLevelInfo : UInt32 := 3

def logLevelDebug : UInt32 := 4

/-- `LOG_LEVEL_TRACE` and every other number are one level. -/
def eventLevel (level : UInt32) : EventLevel :=
  if level = logLevelError then .error
  else if level = logLevelWarn then .warn
  else if level = logLevelInfo then .info
  else if level = logLevelDebug then .debug
  else .trace

structure LogOrigin where
  target : List Char
  file : List Char
  line : UInt32
  deriving DecidableEq, Repr

/-- An event of the host's tracing, under the target of all guests. -/
structure GuestEvent where
  level : EventLevel
  component : List Char
  origin : Option LogOrigin
  message : List Char
  deriving DecidableEq, Repr

/-- `handle_structured_host_log`: the three texts are read before the first is looked at. -/
def handleStructuredHostLog (componentId : List Char) (memory : Option (List UInt8)) (recordPtr : UInt32) :
    HostRead GuestEvent :=
  match memory with
  | none => .refused
  | some memory =>
    match decodeLogRecord memory recordPtr with
    | .refused => .refused
    | .panicked => .panicked
    | .done record =>
      match readStrFromMem memory record.msgPtr record.msgLen maxLogMessageLen,
        readStrFromMem memory record.targetPtr record.targetLen maxMetricNameLen,
        readStrFromMem memory record.filePtr record.fileLen maxMetricNameLen with
      | .done message, .done target, .done file =>
        .done ⟨eventLevel record.level, componentId, some ⟨target, file, record.line⟩, message⟩
      | .panicked, _, _ => .panicked
      | _, .panicked, _ => .panicked
      | _, _, .panicked => .panicked
      | _, _, _ => .refused

def handleLegacyHostLog (componentId : List Char) (memory : Option (List UInt8)) (level msgPtr msgLen : UInt32) :
    HostRead GuestEvent :=
  (withGuestStr memory msgPtr msgLen maxLogMessageLen).map fun message => ⟨eventLevel level, componentId, none, message⟩

def metricTypeCounter : UInt32 := 0

def metricTypeGauge : UInt32 := 1

def metricTypeDuration : UInt32 := 2

def metricCall (metricType : UInt32) (name : List Char) (value : UInt64) : Option RecordCall :=
  if metricType = metricTypeCounter then some (.recordCounter name value)
  else if metricType = metricTypeGauge then some (.recordGauge name value)
  else if metricType = metricTypeDuration then some (.recordDuration name value)
  else none

def handleHostMetricEmit (memory : Option (List UInt8)) (metricType namePtr nameLen : UInt32) (value : UInt64) :
    HostRead (Option RecordCall) :=
  (withGuestStr memory namePtr nameLen maxMetricNameLen).map fun name =>
    if name.isEmpty then none else metricCall metricType name value

/-- What a guest asks the SDK to emit; a gauge is given by the bits of its float, a duration by its nanoseconds. -/
inductive GuestMetric where
  | counter (value : UInt64)
  | gauge (bits : UInt64)
  | duration (nanos : Nat)
  deriving DecidableEq, Repr

def GuestMetric.metricType : GuestMetric → UInt32
  | .counter _ => metricTypeCounter
  | .gauge _ => metricTypeGauge
  | .duration _ => metricTypeDuration

def durationToNanos (nanos : Nat) : UInt64 := if nanos ≤ u64Max then UInt64.ofNat nanos else UInt64.ofNat u64Max

def GuestMetric.value : GuestMetric → UInt64
  | .counter value => value
  | .gauge bits => bits
  | .duration nanos => durationToNanos nanos

def panicTarget : List Char := "wasm_guest::panic".toList

/-- The record of the panic hook of the SDK, for texts at given addresses; a panic may have no location. -/
def panicRecord (message : List Char) (location : Option (List Char × UInt32)) (msgPtr targetPtr filePtr : UInt32) :
    HostLogRecord :=
  let (file, line) := location.getD ("unknown".toList, 0)
  { level := logLevelError
    msgPtr := msgPtr
    msgLen := UInt32.ofNat (utf8 message).length
    targetPtr := targetPtr
    targetLen := UInt32.ofNat (utf8 panicTarget).length
    filePtr := filePtr
    fileLen := UInt32.ofNat (utf8 file).length
    line := line }

end OtelDatalake.Wasm
