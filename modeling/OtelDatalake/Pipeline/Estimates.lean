import Mathlib.Algebra.GroupWithZero.Nat
import Mathlib.Algebra.Order.BigOperators.Group.List
import Mathlib.Algebra.Order.Ring.Nat
import OtelDatalake.Pipeline.Receiver

open OtelDatalake.Core OtelDatalake.Codec OtelDatalake.Buffer OtelDatalake.Foundation

namespace OtelDatalake.Pipeline

theorem foldl_add_eq_sum {α : Type} (weight : α → Nat) (items : List α) (start : Nat) :
    items.foldl (fun acc item => acc + weight item) start = start + (items.map weight).sum := by
  induction items generalizing start with
  | nil => rfl
  | cons item rest ih =>
    rw [List.foldl_cons, ih, List.map_cons, List.sum_cons, Nat.add_assoc]

variable {F64 : Type} (format : FloatFormat F64) {tryNew : TryNew F64}

section Counting

variable {Record : Type}

/-- An estimate sums up the records wherever they stand in the request. -/
theorem estimateRecords_eq_sum (weight : Record → Nat) {count : List Record → Nat}
    (counts : ∀ records, count records = (records.map weight).sum) (request : ExportRequest F64 Record) :
    estimateRecords count request = ((contextual format request).map fun entry => weight entry.2).sum := by
  simp only [estimateRecords, foldl_add_eq_sum, Nat.zero_add, contextual]
  induction request with
  | nil => rfl
  | cons group rest ih =>
    rw [List.map_cons, List.sum_cons, List.flatMap_cons, List.map_append, List.sum_append, ih]
    congr 1
    induction group.scopes with
    | nil => rfl
    | cons scope others inner =>
      rw [List.map_cons, List.sum_cons, List.flatMap_cons, List.map_append, List.sum_append, inner, counts, List.map_map]
      rfl

theorem estimateRecords_length (request : ExportRequest F64 Record) :
    estimateRecords List.length request = (contextual format request).length := by
  rw [estimateRecords_eq_sum format (fun _ => 1) (by simp)]
  simp

end Counting

theorem points_length (metric : Metric F64) : (metric.points format).length = dpCount metric := by
  obtain ⟨name, description, unit, data⟩ := metric
  cases data with
  | none => rfl
  | some data => cases data <;> simp [Metric.points, Metric.readPoints, Metric.unreadPoints, dpCount]

section Rows

variable (even : tryNew.TakesEven)
include even

theorem decodeLogs_rows {request : ExportRequest F64 (LogRecord F64)} {columns : LogColumns}
    (decoded : decodeLogs format tryNew.logs request = .ok columns) :
    columns.timestamp.length = estimateLogsRecords request := by
  have spec := decodeLogs_spec format even request
  rw [decoded] at spec
  rw [spec.2.2, estimateLogsRecords, estimateRecords_length format]
  simp [LogColumns.ofRows]

theorem decodeTraces_rows {request : ExportRequest F64 (Span F64)} {columns : TraceColumns}
    (decoded : decodeTraces format tryNew.traces request = .ok columns) :
    columns.traceId.length = estimateTracesRecords request := by
  have spec := decodeTraces_spec format even request
  rw [decoded] at spec
  rw [spec.2.2, estimateTracesRecords, estimateRecords_length format]
  simp [TraceColumns.ofRows]

theorem decodeMetrics_rows {request : ExportRequest F64 (Metric F64)} {columns : MetricColumns F64}
    (decoded : decodeMetrics format tryNew.metrics request = .ok columns) :
    columns.name.length ≤ estimateMetricsRecords request := by
  have spec := decodeMetrics_spec format even request
  rw [decoded] at spec
  have rows : columns.name.length = (decodedPoints format request).length := by
    rw [spec.2.2]
    simp [MetricColumns.ofRows]
  have points : (dataPoints format request).length =
      ((contextual format request).map fun entry => dpCount entry.2).sum := by
    simp [dataPoints, List.length_flatMap, points_length]
  have estimate : estimateMetricsRecords request =
      ((contextual format request).map fun entry => max (dpCount entry.2) 1).sum :=
    estimateRecords_eq_sum format (fun metric => max (dpCount metric) 1)
      (fun metrics => (foldl_add_eq_sum _ metrics 0).trans (Nat.zero_add _)) request
  have covered : ((contextual format request).map fun entry => dpCount entry.2).sum ≤
      ((contextual format request).map fun entry => max (dpCount entry.2) 1).sum :=
    List.sum_le_sum fun entry _ => Nat.le_max_left _ _
  have total := dataPoints_length format request
  omega

end Rows

theorem Endpoint.inline_rows {Request Batch : Type} [Buffer.RecordBatch Batch] {endpoint : Endpoint Request Batch}
    (bounded : ∀ request batch, endpoint.decode request = .ok batch →
      Buffer.RecordBatch.numRows batch ≤ endpoint.estimateRecords request) {request : Request} {join : Join}
    {batch : Batch} (inline : endpoint.offloads (.grpc request) = false)
    (converted : endpoint.convert (.grpc request) join = .ok batch) :
    Buffer.RecordBatch.numRows batch < grpcSpawnBlockingRecordThreshold := by
  simp only [Endpoint.convert, inline, Bool.false_eq_true, if_false, Endpoint.decodeRequest] at converted
  simp only [Endpoint.offloads, decide_eq_false_iff_not, Nat.not_le] at inline
  cases decoded : endpoint.decode request with
  | error error =>
    rw [decoded] at converted
    cases converted
  | ok found =>
    rw [decoded] at converted
    cases converted
    exact (bounded request batch decoded).trans_lt inline

theorem endpointOf_decode {Request Columns : Type} {wire : Wire Request Columns} {estimateRecords : Request → Nat}
    {decode : Request → Except (Stop PipelineError) Columns} {request : Request} {batch : DecodedBatch Columns}
    (decoded : (endpointOf wire estimateRecords decode).decode request = .ok batch) :
    decode request = .ok batch.columns := by
  simp only [endpointOf] at decoded
  cases found : decode request with
  | error error =>
    rw [found] at decoded
    cases decoded
  | ok columns =>
    rw [found] at decoded
    cases decoded
    rfl

/-- Whatever a gRPC handler decodes without a blocking task has fewer than 512 rows, in each of the three signals. -/
theorem inline_rows_lt (even : tryNew.TakesEven) :
    (∀ wire request join batch, (logsEndpoint format tryNew wire).offloads (.grpc request) = false →
      (logsEndpoint format tryNew wire).convert (.grpc request) join = .ok batch →
      Buffer.RecordBatch.numRows batch < 512) ∧
    (∀ wire request join batch, (tracesEndpoint format tryNew wire).offloads (.grpc request) = false →
      (tracesEndpoint format tryNew wire).convert (.grpc request) join = .ok batch →
      Buffer.RecordBatch.numRows batch < 512) ∧
    (∀ wire request join batch, (metricsEndpoint format tryNew wire).offloads (.grpc request) = false →
      (metricsEndpoint format tryNew wire).convert (.grpc request) join = .ok batch →
        Buffer.RecordBatch.numRows batch < 512) := by
  refine ⟨fun wire request join batch inline converted => ?_, fun wire request join batch inline converted => ?_,
    fun wire request join batch inline converted => ?_⟩
  · refine Endpoint.inline_rows ?_ inline converted
    exact fun request batch decoded => (decodeLogs_rows format even (endpointOf_decode decoded)).le
  · refine Endpoint.inline_rows ?_ inline converted
    exact fun request batch decoded => (decodeTraces_rows format even (endpointOf_decode decoded)).le
  · refine Endpoint.inline_rows ?_ inline converted
    exact fun request batch decoded => decodeMetrics_rows format even (endpointOf_decode decoded)

def oneLog : ExportRequest Float (LogRecord Float) :=
  [⟨none, [⟨none, [⟨5, 6, 9, "INFO".toList, none, [], [], 0, []⟩]⟩]⟩]

def bareWire {Request Columns : Type} : Wire Request Columns where
  decodeProtobuf _ := .error "buffer underflow".toList
  decodeJson _ := .error "EOF while parsing a value".toList
  measure _ := 0

theorem inline_rows_lt_oneLog :
    ∃ batch, (logsEndpoint floatFormat evenTryNew bareWire).convert (.grpc oneLog) {} = .ok batch ∧
      Buffer.RecordBatch.numRows batch < 512 :=
  ⟨_, rfl, (inline_rows_lt floatFormat evenTryNew_takesEven).1 bareWire oneLog {} _ rfl rfl⟩

end OtelDatalake.Pipeline
