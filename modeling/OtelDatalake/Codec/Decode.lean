import OtelDatalake.Codec.AttributeJson
import OtelDatalake.Core.Error
import OtelDatalake.Foundation.LittleEndian
import OtelDatalake.Foundation.Utf8

open OtelDatalake.Core OtelDatalake.Foundation

namespace OtelDatalake.Codec

variable {F64 : Type} (format : FloatFormat F64)

structure Scope where
  name : Text
  version : Text

structure ScopeGroup (Record : Type) where
  scope : Option Scope
  records : List Record

/-- `ResourceLogs`, `ResourceSpans` or `ResourceMetrics`; of a resource only the attributes are read. -/
structure ResourceGroup (F64 Record : Type) where
  resource : Option (List (KeyValue F64))
  scopes : List (ScopeGroup Record)

abbrev ExportRequest (F64 Record : Type) := List (ResourceGroup F64 Record)

structure LogRecord (F64 : Type) where
  timeUnixNano : Nat
  observedTimeUnixNano : Nat
  severityNumber : Int
  severityText : Text
  body : Option (AnyValue F64)
  traceId : List UInt8
  spanId : List UInt8
  flags : Nat
  attributes : List (KeyValue F64)

structure Status where
  code : Int
  message : Text

structure Span (F64 : Type) where
  traceId : List UInt8
  spanId : List UInt8
  traceState : Text
  parentSpanId : List UInt8
  name : Text
  kind : Int
  startTimeUnixNano : Nat
  endTimeUnixNano : Nat
  attributes : List (KeyValue F64)
  status : Option Status

inductive NumberValue (F64 : Type) where
  | asDouble (number : F64)
  | asInt (number : Int)

structure NumberDataPoint (F64 : Type) where
  timeUnixNano : Nat
  value : Option (NumberValue F64)
  attributes : List (KeyValue F64)

structure HistogramDataPoint (F64 : Type) where
  timeUnixNano : Nat
  count : Nat
  sum : Option F64
  attributes : List (KeyValue F64)

/-- A data point of a kind that the decoder does not read: of its fields, those that the schema has columns for. -/
structure OtherDataPoint (F64 : Type) where
  timeUnixNano : Nat
  attributes : List (KeyValue F64)

inductive MetricData (F64 : Type) where
  | gauge (dataPoints : List (NumberDataPoint F64))
  | sum (dataPoints : List (NumberDataPoint F64))
  | histogram (dataPoints : List (HistogramDataPoint F64))
  | exponentialHistogram (dataPoints : List (OtherDataPoint F64))
  | summary (dataPoints : List (OtherDataPoint F64))

structure Metric (F64 : Type) where
  name : Text
  description : Text
  unit : Text
  data : Option (MetricData F64)

def i64Max : Nat := 9223372036854775807

def timestampToI64 (nanos : Nat) : Except PipelineError Int :=
  if nanos ≤ i64Max then .ok nanos
  else .error (.internal ("OTLP timestamp ".toList ++ Nat.toDigits 10 nanos ++
    " exceeds i64::MAX, cannot represent in Arrow TimestampNanosecond".toList))

/-- What a record has from its resource and from its scope. -/
structure RecordContext where
  serviceName : Text
  resourceAttributes : Text
  scopeName : Text
  scopeVersion : Text
  deriving DecidableEq, Repr

/-- The columns built so far, and the two buffers that all records share. -/
structure Decoding (Columns : Type) where
  columns : Columns
  resourceAttrsJson : Text
  scratch : Text

def columnBytes (column : List Text) : Nat := (column.map fun text => (utf8 text).length).sum

/-- `StringBuilder::append_value`, which panics where the offset behind the text does not fit. -/
def appendValue (column : List Text) (text : Text) : Except (Stop PipelineError) (List Text) :=
  if columnBytes (column ++ [text]) ≤ i32Max then .ok (column ++ [text]) else .error .unwound

section Loops

variable {Record Columns : Type}
  (append : RecordContext → Decoding Columns → Record → Except (Stop PipelineError) (Decoding Columns))

def decodeScope (serviceName resourceAttributes : Text) (decoding : Decoding Columns) (group : ScopeGroup Record) :
    Except (Stop PipelineError) (Decoding Columns) :=
  let (scopeName, scopeVersion) := match group.scope with
    | some scope => (scope.name, scope.version)
    | none => ([], [])
  group.records.foldlM (append ⟨serviceName, resourceAttributes, scopeName, scopeVersion⟩) decoding

def decodeResource (decoding : Decoding Columns) (group : ResourceGroup F64 Record) :
    Except (Stop PipelineError) (Decoding Columns) :=
  let (resourceAttrsJson, serviceName) := match group.resource with
    | some attributes =>
      (writeAttributesJson format decoding.resourceAttrsJson attributes, extractServiceName format attributes)
    | none => (['\x7b', '\x7d'], "unknown".toList)
  group.scopes.foldlM (decodeScope append serviceName resourceAttrsJson)
    { decoding with resourceAttrsJson := resourceAttrsJson }

/-- The three nested loops of a decoder, and `RecordBatch::try_new` on the columns that they have built. -/
def decodeRequest (tryNew : Columns → Except PipelineError Columns) (empty : Columns)
    (request : ExportRequest F64 Record) : Except (Stop PipelineError) Columns := do
  let decoding ← request.foldlM (decodeResource format append) ⟨empty, [], []⟩
  (tryNew decoding.columns).mapError .returned

end Loops

structure LogColumns where
  timestamp : List Int
  observedTimestamp : List Int
  severityNumber : List Int
  severityText : List Text
  body : List Text
  traceId : List Text
  spanId : List Text
  flags : List Nat
  attributes : List Text
  serviceName : List Text
  resourceAttributes : List Text
  scopeName : List Text
  scopeVersion : List Text
  deriving DecidableEq, Repr

def LogColumns.lengths (columns : LogColumns) : List Nat :=
  [columns.timestamp.length, columns.observedTimestamp.length, columns.severityNumber.length,
   columns.severityText.length, columns.body.length, columns.traceId.length, columns.spanId.length,
   columns.flags.length, columns.attributes.length, columns.serviceName.length, columns.resourceAttributes.length,
   columns.scopeName.length, columns.scopeVersion.length]

def appendLog (context : RecordContext) (decoding : Decoding LogColumns) (log : LogRecord F64) :
    Except (Stop PipelineError) (Decoding LogColumns) := do
  let columns := decoding.columns
  let timestamp ← (timestampToI64 log.timeUnixNano).mapError .returned
  let observedTimestamp ← (timestampToI64 log.observedTimeUnixNano).mapError .returned
  let severityText ← appendValue columns.severityText log.severityText
  let (text, scratch) := appendAnyValueToBuilder format decoding.scratch log.body
  let body ← appendValue columns.body text
  let traceId ← appendValue columns.traceId (hexEncode log.traceId)
  let spanId ← appendValue columns.spanId (hexEncode log.spanId)
  let scratch := writeAttributesJson format scratch log.attributes
  let attributes ← appendValue columns.attributes scratch
  let serviceName ← appendValue columns.serviceName context.serviceName
  let resourceAttributes ← appendValue columns.resourceAttributes context.resourceAttributes
  let scopeName ← appendValue columns.scopeName context.scopeName
  let scopeVersion ← appendValue columns.scopeVersion context.scopeVersion
  pure { decoding with
    scratch := scratch
    columns :=
      { timestamp := columns.timestamp ++ [timestamp]
        observedTimestamp := columns.observedTimestamp ++ [observedTimestamp]
        severityNumber := columns.severityNumber ++ [log.severityNumber]
        severityText, body, traceId, spanId
        flags := columns.flags ++ [log.flags]
        attributes, serviceName, resourceAttributes, scopeName, scopeVersion } }

def decodeLogs (tryNew : LogColumns → Except PipelineError LogColumns) (request : ExportRequest F64 (LogRecord F64)) :
    Except (Stop PipelineError) LogColumns :=
  decodeRequest format (appendLog format) tryNew ⟨[], [], [], [], [], [], [], [], [], [], [], [], []⟩ request

structure TraceColumns where
  traceId : List Text
  spanId : List Text
  traceState : List Text
  parentSpanId : List Text
  name : List Text
  kind : List Int
  timestamp : List Int
  endTime : List Int
  attributes : List Text
  serviceName : List Text
  resourceAttributes : List Text
  scopeName : List Text
  scopeVersion : List Text
  statusCode : List Int
  statusMessage : List Text
  deriving DecidableEq, Repr

def TraceColumns.lengths (columns : TraceColumns) : List Nat :=
  [columns.traceId.length, columns.spanId.length, columns.traceState.length, columns.parentSpanId.length,
   columns.name.length, columns.kind.length, columns.timestamp.length, columns.endTime.length,
   columns.attributes.length, columns.serviceName.length, columns.resourceAttributes.length,
   columns.scopeName.length, columns.scopeVersion.length, columns.statusCode.length, columns.statusMessage.length]

def statusOrUnset : Option Status → Int × Text
  | some status => (status.code, status.message)
  | none => (0, [])

def appendSpan (context : RecordContext) (decoding : Decoding TraceColumns) (span : Span F64) :
    Except (Stop PipelineError) (Decoding TraceColumns) := do
  let columns := decoding.columns
  let traceId ← appendValue columns.traceId (hexEncode span.traceId)
  let spanId ← appendValue columns.spanId (hexEncode span.spanId)
  let traceState ← appendValue columns.traceState span.traceState
  let parentSpanId ← appendValue columns.parentSpanId (hexEncode span.parentSpanId)
  let name ← appendValue columns.name span.name
  let timestamp ← (timestampToI64 span.startTimeUnixNano).mapError .returned
  let endTime ← (timestampToI64 span.endTimeUnixNano).mapError .returned
  let scratch := writeAttributesJson format decoding.scratch span.attributes
  let attributes ← appendValue columns.attributes scratch
  let serviceName ← appendValue columns.serviceName context.serviceName
  let resourceAttributes ← appendValue columns.resourceAttributes context.resourceAttributes
  let scopeName ← appendValue columns.scopeName context.scopeName
  let scopeVersion ← appendValue columns.scopeVersion context.scopeVersion
  let (statusCode, message) := statusOrUnset span.status
  let statusMessage ← appendValue columns.statusMessage message
  pure { decoding with
    scratch := scratch
    columns :=
      { traceId, spanId, traceState, parentSpanId, name
        kind := columns.kind ++ [span.kind]
        timestamp := columns.timestamp ++ [timestamp]
        endTime := columns.endTime ++ [endTime]
        attributes, serviceName, resourceAttributes, scopeName, scopeVersion
        statusCode := columns.statusCode ++ [statusCode]
        statusMessage } }

def decodeTraces (tryNew : TraceColumns → Except PipelineError TraceColumns) (request : ExportRequest F64 (Span F64)) :
    Except (Stop PipelineError) TraceColumns :=
  decodeRequest format (appendSpan format) tryNew ⟨[], [], [], [], [], [], [], [], [], [], [], [], [], [], []⟩ request

structure MetricColumns (F64 : Type) where
  name : List Text
  desc : List Text
  unit : List Text
  timestamp : List Int
  value : List F64
  attributes : List Text
  serviceName : List Text
  resourceAttributes : List Text
  scopeName : List Text
  scopeVersion : List Text
  deriving DecidableEq, Repr

def MetricColumns.lengths (columns : MetricColumns F64) : List Nat :=
  [columns.name.length, columns.desc.length, columns.unit.length, columns.timestamp.length, columns.value.length,
   columns.attributes.length, columns.serviceName.length, columns.resourceAttributes.length,
   columns.scopeName.length, columns.scopeVersion.length]

def MetricColumns.appendRecord (columns : MetricColumns F64) (metric : Metric F64) (timestampUnixNano : Nat) (value : F64)
    (attributes : Text) (context : RecordContext) : Except (Stop PipelineError) (MetricColumns F64) := do
  let name ← appendValue columns.name metric.name
  let desc ← appendValue columns.desc metric.description
  let unit ← appendValue columns.unit metric.unit
  let timestamp ← (timestampToI64 timestampUnixNano).mapError .returned
  let attributes ← appendValue columns.attributes attributes
  let serviceName ← appendValue columns.serviceName context.serviceName
  let resourceAttributes ← appendValue columns.resourceAttributes context.resourceAttributes
  let scopeName ← appendValue columns.scopeName context.scopeName
  let scopeVersion ← appendValue columns.scopeVersion context.scopeVersion
  pure
    { name, desc, unit
      timestamp := columns.timestamp ++ [timestamp]
      value := columns.value ++ [value]
      attributes, serviceName, resourceAttributes, scopeName, scopeVersion }

def numberValue : Option (NumberValue F64) → F64
  | some (.asDouble number) => number
  | some (.asInt number) => format.ofInt number
  | none => format.zero

/-- The loop over the data points of one metric, with the fields that a kind of data point has. -/
def processPoints {Point : Type} (timeUnixNano : Point → Nat) (value : Point → F64)
    (attributes : Point → List (KeyValue F64)) (metric : Metric F64) (context : RecordContext)
    (decoding : Decoding (MetricColumns F64)) (dataPoints : List Point) :
    Except (Stop PipelineError) (Decoding (MetricColumns F64)) :=
  dataPoints.foldlM (fun decoding point => do
    let scratch := writeAttributesJson format decoding.scratch (attributes point)
    let columns ← decoding.columns.appendRecord metric (timeUnixNano point) (value point) scratch context
    pure { decoding with columns := columns, scratch := scratch }) decoding

def processGauge : Metric F64 → RecordContext → Decoding (MetricColumns F64) → List (NumberDataPoint F64) →
    Except (Stop PipelineError) (Decoding (MetricColumns F64)) :=
  processPoints format (·.timeUnixNano) (fun point => numberValue format point.value) (·.attributes)

def processSum : Metric F64 → RecordContext → Decoding (MetricColumns F64) → List (NumberDataPoint F64) →
    Except (Stop PipelineError) (Decoding (MetricColumns F64)) :=
  processPoints format (·.timeUnixNano) (fun point => numberValue format point.value) (·.attributes)

def processHistogram : Metric F64 → RecordContext → Decoding (MetricColumns F64) → List (HistogramDataPoint F64) →
    Except (Stop PipelineError) (Decoding (MetricColumns F64)) :=
  processPoints format (·.timeUnixNano) (fun point => point.sum.getD (format.ofNat point.count)) (·.attributes)

/-- The kinds of data without a branch are passed over. -/
def appendMetric (context : RecordContext) (decoding : Decoding (MetricColumns F64)) (metric : Metric F64) :
    Except (Stop PipelineError) (Decoding (MetricColumns F64)) :=
  match metric.data with
  | some (.gauge dataPoints) => processGauge format metric context decoding dataPoints
  | some (.sum dataPoints) => processSum format metric context decoding dataPoints
  | some (.histogram dataPoints) => processHistogram format metric context decoding dataPoints
  | _ => .ok decoding

def decodeMetrics (tryNew : MetricColumns F64 → Except PipelineError (MetricColumns F64))
    (request : ExportRequest F64 (Metric F64)) : Except (Stop PipelineError) (MetricColumns F64) :=
  decodeRequest format (appendMetric format) tryNew ⟨[], [], [], [], [], [], [], [], [], []⟩ request

/-- `RecordBatch::try_new` for the schemas of the three signals, on columns of their types. -/
structure TryNew (F64 : Type) where
  logs : LogColumns → Except PipelineError LogColumns
  traces : TraceColumns → Except PipelineError TraceColumns
  metrics : MetricColumns F64 → Except PipelineError (MetricColumns F64)

end OtelDatalake.Codec
