import OtelDatalake.Buffer.Config
import OtelDatalake.Foundation.Interleaving
import OtelDatalake.Foundation.Registration
import OtelDatalake.Foundation.Utf8

open OtelDatalake.Foundation OtelDatalake.Buffer
open Std

namespace OtelDatalake.Wasm

def maxMetricNameLen : Nat := 256

def maxMetricEntries : Nat := 50

/-- A length in bytes, as `str::len` counts. -/
def isValidMetricName (name : List Char) : Bool :=
  !name.isEmpty && (utf8 name).length ≤ maxMetricNameLen && name.all fun c => c.isAlphanum || c == '_'

structure DurationSummary where
  count : UInt64
  sumNanos : UInt64
  minNanos : UInt64
  maxNanos : UInt64
  lastNanos : UInt64
  deriving DecidableEq, Repr

/-- `MetricValue`; a gauge holds the bits of a float. -/
inductive MetricValue where
  | counter (value : UInt64)
  | gauge (bits : UInt64)
  | duration (summary : DurationSummary)
  deriving DecidableEq, Repr

inductive MetricHandle where
  | counter (instrument : List Char)
  | gauge (instrument : List Char)
  | histogram (instrument : List Char)
  deriving DecidableEq, Repr

inductive MetricKind where
  | counter
  | gauge
  | duration
  deriving DecidableEq, Repr

inductive RecordCall where
  | recordCounter (name : List Char) (delta : UInt64)
  | recordGauge (name : List Char) (bits : UInt64)
  | recordDuration (name : List Char) (nanos : UInt64)
  deriving DecidableEq, Repr

def saturatingAdd64 (left right : UInt64) : UInt64 := UInt64.ofNat (min (left.toNat + right.toNat) u64Max)

def DurationSummary.single (nanos : UInt64) : DurationSummary := ⟨1, nanos, nanos, nanos, nanos⟩

def DurationSummary.observe (summary : DurationSummary) (nanos : UInt64) : DurationSummary where
  count := saturatingAdd64 summary.count 1
  sumNanos := saturatingAdd64 summary.sumNanos nanos
  minNanos := min summary.minNanos nanos
  maxNanos := max summary.maxNanos nanos
  lastNanos := nanos

namespace RecordCall

def name : RecordCall → List Char
  | .recordCounter name _ | .recordGauge name _ | .recordDuration name _ => name

def kind : RecordCall → MetricKind
  | .recordCounter .. => .counter
  | .recordGauge .. => .gauge
  | .recordDuration .. => .duration

def amount : RecordCall → UInt64
  | .recordCounter _ amount | .recordGauge _ amount | .recordDuration _ amount => amount

def update : RecordCall → MetricValue → MetricValue
  | .recordCounter _ delta, .counter value => .counter (saturatingAdd64 value delta)
  | .recordCounter _ delta, _ => .counter delta
  | .recordGauge _ bits, _ => .gauge bits
  | .recordDuration _ nanos, .duration summary => .duration (summary.observe nanos)
  | .recordDuration _ nanos, _ => .duration (.single nanos)

def create : RecordCall → MetricValue
  | .recordCounter _ delta => .counter delta
  | .recordGauge _ bits => .gauge bits
  | .recordDuration _ nanos => .duration (.single nanos)

def createHandle (keyPrefix : List Char) : RecordCall → MetricHandle
  | .recordCounter name _ => .counter (keyPrefix ++ name)
  | .recordGauge name _ => .gauge (keyPrefix ++ name)
  | .recordDuration name _ =>
    if "_duration_seconds".toList <:+ name then .histogram (keyPrefix ++ name)
    else .histogram (keyPrefix ++ name ++ "_duration_seconds".toList)

/-- The instrument that the call emits to: a cached one of another kind is left alone. -/
def emits : RecordCall → Option MetricHandle → Option MetricHandle
  | .recordCounter .., some (.counter instrument) => some (.counter instrument)
  | .recordGauge .., some (.gauge instrument) => some (.gauge instrument)
  | .recordDuration .., some (.histogram instrument) => some (.histogram instrument)
  | _, _ => none

end RecordCall

/-- The registry, with the calls that updated or created a metric, in the order in which they did. -/
structure MetricRegistry where
  keyPrefix : List Char
  registrationLock : Bool := false
  metrics : ExtTreeMap (List Char) MetricValue := ∅
  handles : ExtTreeMap (List Char) MetricHandle := ∅
  recorded : List RecordCall := []
  deriving DecidableEq

namespace MetricRegistry

def new (componentId : List Char) : MetricRegistry :=
  { keyPrefix := "datalake_transformers_".toList ++ componentId ++ "_".toList }

def formatKey (registry : MetricRegistry) (name : List Char) : List Char := registry.keyPrefix ++ name

def readCounter (registry : MetricRegistry) (name : List Char) : UInt64 :=
  match registry.metrics[registry.formatKey name]? with
  | some (.counter value) => value
  | _ => 0

def readDuration (registry : MetricRegistry) (name : List Char) : Option DurationSummary :=
  match registry.metrics[registry.formatKey name]? with
  | some (.duration summary) => some summary
  | _ => none

end MetricRegistry

/-- Where a call is: before its check of the name, done with a name that is not valid, in
    `update_or_register_metric`, in `get_or_register_handle`, or returned with the instrument it emitted to. -/
inductive RecordPhase where
  | entered
  | rejected
  | registering (phase : Registering MetricValue)
  | handling (recorded : Bool) (phase : Registering MetricHandle)
  | returned (recorded : Bool) (emitted : Option MetricHandle)
  deriving DecidableEq, Repr

structure RecordThread where
  call : RecordCall
  phase : RecordPhase := .entered
  deriving DecidableEq, Repr

namespace RecordThread

def isFresh (thread : RecordThread) : Bool := thread.phase == .entered

def registerMetric (registry : MetricRegistry) (call : RecordCall) (phase : Registering MetricValue) :
    Option (MetricRegistry × Registering MetricValue) :=
  (phase.act maxMetricEntries (registry.formatKey call.name) call.update call.create
    ⟨registry.registrationLock, registry.metrics⟩).map fun (map, next) =>
      ({ registry with
          registrationLock := map.locked
          metrics := map.entries
          recorded := if !phase.applied && next.applied then registry.recorded ++ [call] else registry.recorded }, next)

def registerHandle (registry : MetricRegistry) (call : RecordCall) (phase : Registering MetricHandle) :
    Option (MetricRegistry × Registering MetricHandle) :=
  (phase.act maxMetricEntries call.name id (call.createHandle registry.keyPrefix)
    ⟨registry.registrationLock, registry.handles⟩).map fun (map, next) =>
      ({ registry with registrationLock := map.locked, handles := map.entries }, next)

def act (registry : MetricRegistry) (thread : RecordThread) : Unit → Option (MetricRegistry × RecordThread)
  | () =>
    match thread.phase with
    | .entered =>
      if isValidMetricName thread.call.name then some (registry, { thread with phase := .registering .lookup })
      else some (registry, { thread with phase := .rejected })
    | .rejected => none
    | .registering (.done result) => some (registry, { thread with phase := .handling result.isSome .lookup })
    | .registering phase =>
      (registerMetric registry thread.call phase).map fun (registry, next) =>
        (registry, { thread with phase := .registering next })
    | .handling recorded (.done handle) =>
      some (registry, { thread with phase := .returned recorded (thread.call.emits handle) })
    | .handling recorded phase =>
      (registerHandle registry thread.call phase).map fun (registry, next) =>
        (registry, { thread with phase := .handling recorded next })
    | .returned .. => none

end RecordThread

abbrev RecordSystem := Interleaved MetricRegistry RecordThread

def RecordSystem.start (componentId : List Char) : RecordSystem := ⟨.new componentId, []⟩

def RecordSystem.step (system : RecordSystem) (turn : Turn RecordThread Unit) : Option RecordSystem :=
  Interleaved.step RecordThread.isFresh RecordThread.act system turn

end OtelDatalake.Wasm
