import OtelDatalake.Buffer.Memory
import OtelDatalake.Codec.Completeness

open OtelDatalake.Core OtelDatalake.Codec OtelDatalake.Buffer

namespace OtelDatalake.Pipeline

inductive Code where
  | internal
  | unavailable
  deriving DecidableEq, Repr

/-- What a handler answers: a gRPC status has a message, an HTTP status only its number. A handler that panics answers
    nothing. -/
inductive Reply where
  | ok
  | grpc (code : Code) (message : Text)
  | http (status : Nat)
  | unwound
  deriving DecidableEq, Repr

/-- A request as its server hands it to a handler. -/
inductive Arrival (Request : Type) where
  | grpc (request : Request)
  | http (contentType : Option Text) (body : List UInt8)

/-- One signal of the receiver. The two decoders of the wire are those of `prost` and `serde_json`. -/
structure Endpoint (Request Batch : Type) where
  estimateRecords : Request → Nat
  decode : Request → Except (Stop PipelineError) Batch
  decodeProtobuf : List UInt8 → Except Text Request
  decodeJson : List UInt8 → Except Text Request

/-- How the runtime treats the blocking task that decodes a large request: it may cancel the task before it runs;
    `display` is the text of a join error. -/
structure Join where
  cancelled : Bool := false
  display : Text := []

def httpSpawnBlockingThresholdBytes : Nat := 64 * 1024

def grpcSpawnBlockingRecordThreshold : Nat := 512

section Estimates

variable {F64 Record : Type}

/-- The three `estimate` functions: a sum over the resources and over their scopes. -/
def estimateRecords (count : List Record → Nat) (request : ExportRequest F64 Record) : Nat :=
  request.foldl (fun acc resource =>
    acc + resource.scopes.foldl (fun scopeAcc scope => scopeAcc + count scope.records) 0) 0

def estimateLogsRecords (request : ExportRequest F64 (LogRecord F64)) : Nat := estimateRecords List.length request

def estimateTracesRecords (request : ExportRequest F64 (Span F64)) : Nat := estimateRecords List.length request

def dpCount (metric : Metric F64) : Nat :=
  match metric.data with
  | some (.gauge dataPoints) => dataPoints.length
  | some (.sum dataPoints) => dataPoints.length
  | some (.histogram dataPoints) => dataPoints.length
  | some (.exponentialHistogram dataPoints) => dataPoints.length
  | some (.summary dataPoints) => dataPoints.length
  | none => 0

/-- A metric without a data point counts as one. -/
def estimateMetricsRecords (request : ExportRequest F64 (Metric F64)) : Nat :=
  estimateRecords (fun metrics => metrics.foldl (fun metricAcc metric => metricAcc + max (dpCount metric) 1) 0) request

end Estimates

namespace Endpoint

variable {Request Batch : Type} (endpoint : Endpoint Request Batch)

def decodeHttpBody (contentType : Option Text) (body : List UInt8) : Except Text Request :=
  if "application/x-protobuf".toList <:+: contentType.getD "application/json".toList then
    (endpoint.decodeProtobuf body).mapError ("Failed to decode protobuf: ".toList ++ ·)
  else (endpoint.decodeJson body).mapError ("Failed to decode JSON: ".toList ++ ·)

/-- What is too large to be decoded on the worker of the handler. -/
def offloads : Arrival Request → Bool
  | .grpc request => grpcSpawnBlockingRecordThreshold ≤ endpoint.estimateRecords request
  | .http _ body => httpSpawnBlockingThresholdBytes < body.length

def decodeRequest : Arrival Request → Except Reply Batch
  | .grpc request => (endpoint.decode request).mapError fun
    | .returned error => .grpc .internal error.display
    | .unwound => .unwound
  | .http contentType body =>
    match endpoint.decodeHttpBody contentType body with
    | .error _ => .error (.http 400)
    | .ok request => (endpoint.decode request).mapError fun
      | .returned _ => .http 500
      | .unwound => .unwound

def joinFailure (error : Text) : Arrival Request → Reply
  | .grpc _ => .grpc .internal ("codec task join error: ".toList ++ error)
  | .http .. => .http 500

/-- A handler up to the batch that it sends. A panic of the blocking task is a join error of the handler, and a panic
    of the handler is its own. -/
def convert (arrival : Arrival Request) (join : Join) : Except Reply Batch :=
  if endpoint.offloads arrival then
    if join.cancelled then .error (joinFailure join.display arrival)
    else (endpoint.decodeRequest arrival).mapError fun
      | .unwound => joinFailure join.display arrival
      | reply => reply
  else endpoint.decodeRequest arrival

/-- The answer of a handler whose channel has lost its receiver. -/
def closedReply : Arrival Request → Reply
  | .grpc _ => .grpc .unavailable "pipeline downstream closed".toList
  | .http .. => .http 503

end Endpoint

structure DecodedBatch (Columns : Type) where
  columns : Columns
  arrayMemorySize : Nat

/-- The batches of a signal all have its schema. -/
instance : Buffer.RecordBatch (DecodedBatch LogColumns) where
  Schema := Unit
  schemaDecidableEq := inferInstance
  schema _ := ()
  numRows batch := batch.columns.timestamp.length
  arrayMemorySize := DecodedBatch.arrayMemorySize

instance : Buffer.RecordBatch (DecodedBatch TraceColumns) where
  Schema := Unit
  schemaDecidableEq := inferInstance
  schema _ := ()
  numRows batch := batch.columns.traceId.length
  arrayMemorySize := DecodedBatch.arrayMemorySize

instance {F64 : Type} : Buffer.RecordBatch (DecodedBatch (MetricColumns F64)) where
  Schema := Unit
  schemaDecidableEq := inferInstance
  schema _ := ()
  numRows batch := batch.columns.name.length
  arrayMemorySize := DecodedBatch.arrayMemorySize

section Endpoints

variable {F64 : Type} (format : FloatFormat F64) (tryNew : TryNew F64)

structure Wire (Request Columns : Type) where
  decodeProtobuf : List UInt8 → Except Text Request
  decodeJson : List UInt8 → Except Text Request
  measure : Columns → Nat

def endpointOf {Request Columns : Type} (wire : Wire Request Columns) (estimateRecords : Request → Nat)
    (decode : Request → Except (Stop PipelineError) Columns) : Endpoint Request (DecodedBatch Columns) where
  estimateRecords := estimateRecords
  decode request := (decode request).map fun columns => ⟨columns, wire.measure columns⟩
  decodeProtobuf := wire.decodeProtobuf
  decodeJson := wire.decodeJson

/-- `GrpcLogsService::export` and `handle_logs`. -/
def logsEndpoint (wire : Wire (ExportRequest F64 (LogRecord F64)) LogColumns) :=
  endpointOf wire estimateLogsRecords (decodeLogs format tryNew.logs)

/-- `GrpcTraceService::export` and `handle_traces`. -/
def tracesEndpoint (wire : Wire (ExportRequest F64 (Span F64)) TraceColumns) :=
  endpointOf wire estimateTracesRecords (decodeTraces format tryNew.traces)

/-- `GrpcMetricsService::export` and `handle_metrics`. -/
def metricsEndpoint (wire : Wire (ExportRequest F64 (Metric F64)) (MetricColumns F64)) :=
  endpointOf wire estimateMetricsRecords (decodeMetrics format tryNew.metrics)

end Endpoints

end OtelDatalake.Pipeline
