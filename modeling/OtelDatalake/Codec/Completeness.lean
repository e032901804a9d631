import OtelDatalake.Codec.Decode
import OtelDatalake.Foundation.Outcome

open OtelDatalake.Foundation OtelDatalake.Core

namespace OtelDatalake.Codec

variable {F64 : Type} (format : FloatFormat F64)

def contextOf (resource : Option (List (KeyValue F64))) (scope : Option Scope) : RecordContext where
  serviceName := (resource.map (extractServiceName format)).getD "unknown".toList
  resourceAttributes := (resource.map (convertAttributes format)).getD ['\x7b', '\x7d']
  scopeName := (scope.map (·.name)).getD []
  scopeVersion := (scope.map (·.version)).getD []

def contextual {Record : Type} (request : ExportRequest F64 Record) : List (RecordContext × Record) :=
  request.flatMap fun group => group.scopes.flatMap fun scopeGroup =>
    scopeGroup.records.map fun record => (contextOf format group.resource scopeGroup.scope, record)

/-- How a decoder fills the table of its signal: the rows that entries stand for, the texts of a row, those of them that
    are written before the timestamps of the entry are looked at, and the entries with one that is too large. -/
structure Sheet (Entry Row Columns : Type) where
  ofRows : List Row → Columns
  row : Entry → Row
  texts : List (Row → Text)
  early : List (Row → Text)
  overflows : Entry → Bool

theorem columnBytes_append (left right : List Text) :
    columnBytes (left ++ right) = columnBytes left + columnBytes right := by
  rw [columnBytes, List.map_append, List.sum_append, columnBytes, columnBytes]

def Room {Row : Type} (columns : List (Row → Text)) (rows : List Row) : Prop :=
  ∀ column ∈ columns, columnBytes (rows.map column) ≤ i32Max

theorem Room.mono {Row : Type} {columns : List (Row → Text)} {rows more : List Row} (room : Room columns more)
    (shorter : rows <+: more) : Room columns rows := by
  obtain ⟨rest, rfl⟩ := shorter
  intro column member
  have whole := room column member
  rw [List.map_append, columnBytes_append] at whole
  omega

namespace Sheet

variable {Entry Row Columns : Type} (sheet : Sheet Entry Row Columns)

def written (entries : List Entry) : List Entry := entries.takeWhile fun entry => !sheet.overflows entry

def touched (entries : List Entry) : List Entry := entries.take ((sheet.written entries).length + 1)

/-- No builder of a text column breaks before a timestamp is refused. -/
def Fits (entries : List Entry) : Prop :=
  Room sheet.texts ((sheet.written entries).map sheet.row) ∧ Room sheet.early ((sheet.touched entries).map sheet.row)

variable {sheet} {before after : List Entry}

theorem written_append_good (good : ∀ entry ∈ before, ¬sheet.overflows entry = true) :
    sheet.written (before ++ after) = before ++ sheet.written after :=
  List.takeWhile_append_of_pos fun entry member => by simpa using good entry member

theorem written_good (good : ∀ entry ∈ before, ¬sheet.overflows entry = true) : sheet.written before = before :=
  List.takeWhile_eq_self_iff.mpr fun entry member => by simpa using good entry member

theorem written_append_bad (bad : ∃ entry ∈ before, sheet.overflows entry = true) :
    sheet.written (before ++ after) = sheet.written before ∧ (sheet.written before).length < before.length := by
  have short : (sheet.written before).length < before.length := by
    refine Nat.lt_of_le_of_ne (List.takeWhile_prefix _).length_le fun same => ?_
    obtain ⟨entry, member, large⟩ := bad
    have whole : sheet.written before = before := (List.takeWhile_prefix _).eq_of_length same
    rw [← whole] at member
    simpa [large] using List.mem_takeWhile_imp member
  refine ⟨?_, short⟩
  rw [written, List.takeWhile_append]
  exact if_neg (Nat.ne_of_lt short)

theorem written_initial : sheet.written before <+: sheet.written (before ++ after) := by
  by_cases bad : ∃ entry ∈ before, sheet.overflows entry = true
  · rw [(written_append_bad bad).1]
  · have good : ∀ entry ∈ before, ¬sheet.overflows entry = true := fun entry member large => bad ⟨entry, member, large⟩
    rw [written_append_good good, written_good good]
    exact List.prefix_append before _

theorem touched_initial : sheet.touched before <+: sheet.touched (before ++ after) := by
  have longer : (sheet.written before).length ≤ (sheet.written (before ++ after)).length := written_initial.length_le
  rw [touched, touched, List.take_append]
  refine List.IsPrefix.trans ?_ (List.prefix_append _ _)
  exact List.take_prefix_take_left (Nat.succ_le_succ longer)

theorem touched_append_bad (bad : ∃ entry ∈ before, sheet.overflows entry = true) :
    sheet.touched (before ++ after) = sheet.touched before := by
  have ⟨same, short⟩ : sheet.written (before ++ after) = sheet.written before ∧ _ := written_append_bad bad
  rw [touched, touched, same, List.take_append_of_le_length short]

variable (sheet)

def intake : Intake Entry (Stop PipelineError) where
  bad entry := sheet.overflows entry = true
  fits := sheet.Fits
  breaks stop := stop = .unwound
  fits_of_append _ _ fits := ⟨fits.1.mono (written_initial.map _), fits.2.mono (touched_initial.map _)⟩
  fits_append before after bad fits := by
    rw [Fits, (written_append_bad bad).1, touched_append_bad bad]
    exact fits

structure Appends (rows : List Row) (entry : Entry) (result : Except (Stop PipelineError) (Decoding Columns)) : Prop where
  late : ¬Room sheet.early (rows ++ [sheet.row entry]) → result = .error .unwound
  refused : Room sheet.early (rows ++ [sheet.row entry]) → sheet.overflows entry = true →
    ∃ error, result = .error (.returned error)
  full : ¬sheet.overflows entry = true → ¬Room sheet.texts (rows ++ [sheet.row entry]) → result = .error .unwound
  appended : ¬sheet.overflows entry = true → Room sheet.texts (rows ++ [sheet.row entry]) →
    ∃ next, result = .ok next ∧ next.columns = sheet.ofRows (rows ++ [sheet.row entry])

def Stands (entries : List Entry) (decoding : Decoding Columns) : Prop :=
  decoding.columns = sheet.ofRows (entries.map sheet.row)

variable {sheet}

theorem fits_append_one {entries : List Entry} {entry : Entry} (good : ∀ entry ∈ entries, ¬sheet.overflows entry = true) :
    sheet.Fits (entries ++ [entry]) ↔
      Room sheet.texts ((if sheet.overflows entry = true then entries else entries ++ [entry]).map sheet.row) ∧
        Room sheet.early ((entries ++ [entry]).map sheet.row) := by
  have whole : sheet.written (entries ++ [entry]) =
      if sheet.overflows entry = true then entries else entries ++ [entry] := by
    rw [written_append_good good, written, List.takeWhile_cons]
    by_cases large : sheet.overflows entry = true <;> simp [large]
  have all : sheet.touched (entries ++ [entry]) = entries ++ [entry] := by
    rw [touched, whole]
    refine List.take_of_length_le ?_
    split <;> simp
  rw [Fits, whole, all]

theorem Appends.collects {entries : List Entry} {entry : Entry} {result : Except (Stop PipelineError) (Decoding Columns)}
    (within : ∀ column ∈ sheet.early, column ∈ sheet.texts) {decoding : Decoding Columns}
    (start : sheet.intake.Collects sheet.Stands (.ok decoding) entries)
    (appends : sheet.Appends (entries.map sheet.row) entry result) :
    sheet.intake.Collects sheet.Stands result (entries ++ [entry]) := by
  obtain ⟨good, fits, -⟩ := start
  have fitsOne : sheet.Fits (entries ++ [entry]) ↔ _ := fits_append_one good
  have rows : (entries ++ [entry]).map sheet.row = entries.map sheet.row ++ [sheet.row entry] := by simp
  rw [rows] at fitsOne
  by_cases large : sheet.overflows entry = true
  · rw [if_pos large] at fitsOne
    have settled : Room sheet.texts (entries.map sheet.row) := by
      have whole := fits.1
      rwa [written_good good] at whole
    by_cases early : Room sheet.early (entries.map sheet.row ++ [sheet.row entry])
    · obtain ⟨error, refused⟩ := appends.refused early large
      rw [refused]
      exact ⟨nofun, fun _ => ⟨⟨entry, by simp, large⟩, fitsOne.mpr ⟨settled, early⟩⟩⟩
    · rw [appends.late early]
      exact ⟨fun _ fits => early (fitsOne.mp fits).2, fun other => absurd rfl other⟩
  · rw [if_neg large, rows] at fitsOne
    by_cases room : Room sheet.texts (entries.map sheet.row ++ [sheet.row entry])
    · obtain ⟨next, appended, columns⟩ := appends.appended large room
      rw [appended]
      refine ⟨List.forall_mem_append.mpr ⟨good, by simpa [intake] using large⟩, ?_, ?_⟩
      · exact fitsOne.mpr ⟨room, fun column member => room column (within column member)⟩
      · rw [Stands, rows]
        exact columns
    · rw [appends.full large room]
      exact ⟨fun _ fits => room (fitsOne.mp fits).1, fun other => absurd rfl other⟩

end Sheet

section Loops

variable {Record Entry Row Columns : Type} {sheet : Sheet Entry Row Columns}
  {append : RecordContext → Decoding Columns → Record → Except (Stop PipelineError) (Decoding Columns)}
  {entriesOf : RecordContext → Record → List Entry}

def AppendsEntries (sheet : Sheet Entry Row Columns)
    (append : RecordContext → Decoding Columns → Record → Except (Stop PipelineError) (Decoding Columns))
    (entriesOf : RecordContext → Record → List Entry) : Prop :=
  ∀ context decoding entries record, sheet.intake.Collects sheet.Stands (.ok decoding) entries →
    sheet.intake.Collects sheet.Stands (append context decoding record) (entries ++ entriesOf context record)

theorem decodeScope_collects (appends : AppendsEntries sheet append entriesOf) (serviceName resourceAttributes : Text)
    (decoding : Decoding Columns) (entries : List Entry) (group : ScopeGroup Record)
    (start : sheet.intake.Collects sheet.Stands (.ok decoding) entries) :
    sheet.intake.Collects sheet.Stands (decodeScope append serviceName resourceAttributes decoding group)
      (entries ++ group.records.flatMap (entriesOf ⟨serviceName, resourceAttributes, (group.scope.map (·.name)).getD [],
        (group.scope.map (·.version)).getD []⟩)) := by
  obtain ⟨scope, records⟩ := group
  cases scope with
  | none => exact sheet.intake.foldlM_collects (fun decoding entries => appends _ decoding entries) records start
  | some scope => exact sheet.intake.foldlM_collects (fun decoding entries => appends _ decoding entries) records start

theorem decodeResource_collects (appends : AppendsEntries sheet append entriesOf) (decoding : Decoding Columns)
    (entries : List Entry) (group : ResourceGroup F64 Record)
    (start : sheet.intake.Collects sheet.Stands (.ok decoding) entries) :
    sheet.intake.Collects sheet.Stands (decodeResource format append decoding group)
      (entries ++ group.scopes.flatMap fun scopeGroup =>
        scopeGroup.records.flatMap (entriesOf (contextOf format group.resource scopeGroup.scope))) := by
  obtain ⟨resource, scopes⟩ := group
  cases resource with
  | none =>
    refine sheet.intake.foldlM_collects (fun decoding entries scopeGroup => ?_) scopes start
    exact decodeScope_collects appends _ _ decoding entries scopeGroup
  | some attributes =>
    refine sheet.intake.foldlM_collects (fun decoding entries scopeGroup => ?_) scopes start
    exact decodeScope_collects appends _ _ decoding entries scopeGroup

def entriesOfRequest (entriesOf : RecordContext → Record → List Entry) (request : ExportRequest F64 Record) : List Entry :=
  (contextual format request).flatMap fun entry => entriesOf entry.1 entry.2

/-- The nested loops make one batch of the rows of all entries, or fail on a bad one, or break. -/
theorem decodeRequest_spec {tryNew : Columns → Except PipelineError Columns}
    (appends : AppendsEntries sheet append entriesOf)
    (taken : ∀ rows, tryNew (sheet.ofRows rows) = .ok (sheet.ofRows rows)) (request : ExportRequest F64 Record) :
    sheet.intake.Collects (fun entries columns => columns = sheet.ofRows (entries.map sheet.row))
      (decodeRequest format append tryNew (sheet.ofRows []) request) (entriesOfRequest format entriesOf request) := by
  have start : sheet.intake.Collects sheet.Stands (.ok ⟨sheet.ofRows [], [], []⟩) [] := by
    refine ⟨by simp, ⟨?_, ?_⟩, rfl⟩ <;> exact fun _ _ => Nat.zero_le _
  have collected := sheet.intake.foldlM_collects
    (fun decoding entries group => decodeResource_collects format appends decoding entries group) request start
  have entries : ([] ++ request.flatMap fun group => group.scopes.flatMap fun scopeGroup =>
      scopeGroup.records.flatMap (entriesOf (contextOf format group.resource scopeGroup.scope))) =
        entriesOfRequest format entriesOf request := by
    simp [entriesOfRequest, contextual, List.flatMap_assoc, List.flatMap_map]
  rw [entries] at collected
  rw [decodeRequest]
  cases folded : request.foldlM (decodeResource format append) ⟨sheet.ofRows [], [], []⟩ with
  | error error =>
    rw [folded] at collected
    exact collected
  | ok decoding =>
    rw [folded] at collected
    obtain ⟨good, fits, stands⟩ := collected
    have batch : tryNew decoding.columns = .ok decoding.columns := by
      rw [show decoding.columns = _ from stands, taken]
    simp only [bind, Except.bind, batch, Except.mapError]
    exact ⟨good, fits, stands⟩

end Loops

theorem appendValue_bind {β : Type} (column : List Text) (text : Text) (rest : List Text → Except (Stop PipelineError) β) :
    (appendValue column text >>= rest) =
      if columnBytes (column ++ [text]) ≤ i32Max then rest (column ++ [text]) else .error .unwound := by
  rw [appendValue]
  split <;> rfl

theorem timestampToI64_cases (nanos : Nat) :
    nanos ≤ i64Max ∧ (timestampToI64 nanos).mapError Stop.returned = .ok (nanos : Int) ∨
      i64Max < nanos ∧ ∃ error, (timestampToI64 nanos).mapError Stop.returned = .error (.returned error) := by
  rw [timestampToI64]
  by_cases fits : nanos ≤ i64Max
  · rw [if_pos fits]
    exact .inl ⟨fits, rfl⟩
  · rw [if_neg fits]
    exact .inr ⟨Nat.not_le.mp fits, _, rfl⟩

theorem ite_unwound {α : Type} {fits : Prop} [Decidable fits] {result : Except (Stop PipelineError) α}
    (others : fits → result = .error .unwound) : (if fits then result else .error .unwound) = .error .unwound := by
  split
  · exact others ‹_›
  · rfl

theorem ok_bind {α β : Type} (value : α) (rest : α → Except (Stop PipelineError) β) :
    (Except.ok value >>= rest) = rest value := rfl

theorem error_bind {α β : Type} (stop : Stop PipelineError) (rest : α → Except (Stop PipelineError) β) :
    ((Except.error stop : Except (Stop PipelineError) α) >>= rest) = .error stop := rfl

structure LogRow where
  timestamp : Int
  observedTimestamp : Int
  severityNumber : Int
  severityText : Text
  body : Text
  traceId : Text
  spanId : Text
  flags : Nat
  attributes : Text
  context : RecordContext

def LogColumns.ofRows (rows : List LogRow) : LogColumns where
  timestamp := rows.map (·.timestamp)
  observedTimestamp := rows.map (·.observedTimestamp)
  severityNumber := rows.map (·.severityNumber)
  severityText := rows.map (·.severityText)
  body := rows.map (·.body)
  traceId := rows.map (·.traceId)
  spanId := rows.map (·.spanId)
  flags := rows.map (·.flags)
  attributes := rows.map (·.attributes)
  serviceName := rows.map (·.context.serviceName)
  resourceAttributes := rows.map (·.context.resourceAttributes)
  scopeName := rows.map (·.context.scopeName)
  scopeVersion := rows.map (·.context.scopeVersion)

def logRow (context : RecordContext) (log : LogRecord F64) : LogRow where
  timestamp := log.timeUnixNano
  observedTimestamp := log.observedTimeUnixNano
  severityNumber := log.severityNumber
  severityText := log.severityText
  body := bodyText format log.body
  traceId := hexEncode log.traceId
  spanId := hexEncode log.spanId
  flags := log.flags
  attributes := convertAttributes format log.attributes
  context := context

/-- A timestamp of the log record cannot be represented. -/
def LogRecord.overflows (log : LogRecord F64) : Bool := i64Max < log.timeUnixNano || i64Max < log.observedTimeUnixNano

/-- The timestamps of a log record are looked at first. -/
def logSheet : Sheet (RecordContext × LogRecord F64) LogRow LogColumns where
  ofRows := LogColumns.ofRows
  row entry := logRow format entry.1 entry.2
  texts := [(·.severityText), (·.body), (·.traceId), (·.spanId), (·.attributes), (·.context.serviceName),
    (·.context.resourceAttributes), (·.context.scopeName), (·.context.scopeVersion)]
  early := []
  overflows entry := entry.2.overflows

theorem appendLog_appends (context : RecordContext) {decoding : Decoding LogColumns} {rows : List LogRow}
    (log : LogRecord F64) (stands : decoding.columns = LogColumns.ofRows rows) :
    (logSheet format).Appends rows (context, log) (appendLog format context decoding log) := by
  have early : Room (logSheet format).early (rows ++ [(logSheet format).row (context, log)]) := nofun
  obtain ⟨first, firstOk⟩ | ⟨first, error, firstFails⟩ := timestampToI64_cases log.timeUnixNano
  · obtain ⟨second, secondOk⟩ | ⟨second, error, secondFails⟩ := timestampToI64_cases log.observedTimeUnixNano
    · have small : ¬(logSheet format).overflows (context, log) = true := by
        simp [logSheet, LogRecord.overflows, Nat.not_lt.mpr first, Nat.not_lt.mpr second]
      have body := appendAnyValueToBuilder_fst format decoding.scratch log.body
      simp only [appendLog, firstOk, secondOk, ok_bind, appendValue_bind, stands, body, LogColumns.ofRows]
      refine ⟨fun late => absurd early late, fun _ large => absurd large small, fun _ full => ?_, fun _ room => ?_⟩
      · refine ite_unwound fun severityText => ite_unwound fun body => ite_unwound fun traceId => ite_unwound fun spanId =>
          ite_unwound fun attributes => ite_unwound fun serviceName => ite_unwound fun resourceAttributes =>
          ite_unwound fun scopeName => ite_unwound fun scopeVersion => absurd ?_ full
        simp only [Room, logSheet, List.forall_mem_cons, List.map_append, List.map_cons, List.map_nil]
        exact ⟨severityText, body, traceId, spanId, attributes, serviceName, resourceAttributes, scopeName,
          scopeVersion, nofun⟩
      · simp only [Room, logSheet, logRow, convertAttributes, List.forall_mem_cons, List.map_append, List.map_cons,
          List.map_nil] at room
        simp only [writeAttributesJson] at room ⊢
        simp only [room, if_true]
        exact ⟨_, rfl, by simp [LogColumns.ofRows, logSheet, logRow, convertAttributes, writeAttributesJson]⟩
    · have large : (logSheet format).overflows (context, log) = true := by simp [logSheet, LogRecord.overflows, second]
      simp only [appendLog, firstOk, secondFails, ok_bind, error_bind]
      exact ⟨fun late => absurd early late, fun _ _ => ⟨error, rfl⟩, fun small => absurd large small,
        fun small => absurd large small⟩
  · have large : (logSheet format).overflows (context, log) = true := by simp [logSheet, LogRecord.overflows, first]
    simp only [appendLog, firstFails, error_bind]
    exact ⟨fun late => absurd early late, fun _ _ => ⟨error, rfl⟩, fun small => absurd large small,
      fun small => absurd large small⟩

structure TraceRow where
  traceId : Text
  spanId : Text
  traceState : Text
  parentSpanId : Text
  name : Text
  kind : Int
  timestamp : Int
  endTime : Int
  attributes : Text
  context : RecordContext
  statusCode : Int
  statusMessage : Text

def TraceColumns.ofRows (rows : List TraceRow) : TraceColumns where
  traceId := rows.map (·.traceId)
  spanId := rows.map (·.spanId)
  traceState := rows.map (·.traceState)
  parentSpanId := rows.map (·.parentSpanId)
  name := rows.map (·.name)
  kind := rows.map (·.kind)
  timestamp := rows.map (·.timestamp)
  endTime := rows.map (·.endTime)
  attributes := rows.map (·.attributes)
  serviceName := rows.map (·.context.serviceName)
  resourceAttributes := rows.map (·.context.resourceAttributes)
  scopeName := rows.map (·.context.scopeName)
  scopeVersion := rows.map (·.context.scopeVersion)
  statusCode := rows.map (·.statusCode)
  statusMessage := rows.map (·.statusMessage)

def traceRow (context : RecordContext) (span : Span F64) : TraceRow where
  traceId := hexEncode span.traceId
  spanId := hexEncode span.spanId
  traceState := span.traceState
  parentSpanId := hexEncode span.parentSpanId
  name := span.name
  kind := span.kind
  timestamp := span.startTimeUnixNano
  endTime := span.endTimeUnixNano
  attributes := convertAttributes format span.attributes
  context := context
  statusCode := (span.status.map (·.code)).getD 0
  statusMessage := (span.status.map (·.message)).getD []

def Span.overflows (span : Span F64) : Bool := i64Max < span.startTimeUnixNano || i64Max < span.endTimeUnixNano

/-- The ids, the state and the name of a span are written before its timestamps are looked at. -/
def traceSheet : Sheet (RecordContext × Span F64) TraceRow TraceColumns where
  ofRows := TraceColumns.ofRows
  row entry := traceRow format entry.1 entry.2
  texts := [(·.traceId), (·.spanId), (·.traceState), (·.parentSpanId), (·.name), (·.attributes), (·.context.serviceName),
    (·.context.resourceAttributes), (·.context.scopeName), (·.context.scopeVersion), (·.statusMessage)]
  early := [(·.traceId), (·.spanId), (·.traceState), (·.parentSpanId), (·.name)]
  overflows entry := entry.2.overflows

theorem traceSheet_early : ∀ column ∈ (traceSheet format).early, column ∈ (traceSheet format).texts := by
  simp [traceSheet]

theorem appendSpan_appends (context : RecordContext) {decoding : Decoding TraceColumns} {rows : List TraceRow}
    (span : Span F64) (stands : decoding.columns = TraceColumns.ofRows rows) :
    (traceSheet format).Appends rows (context, span) (appendSpan format context decoding span) := by
  have status : statusOrUnset span.status =
    ((span.status.map (·.code)).getD 0, (span.status.map (·.message)).getD []) := by
    cases span.status <;> rfl
  simp only [appendSpan, appendValue_bind, stands, status, TraceColumns.ofRows]
  by_cases early : Room (traceSheet format).early (rows ++ [(traceSheet format).row (context, span)])
  · have written := early
    simp only [Room, traceSheet, traceRow, List.forall_mem_cons, List.map_append, List.map_cons, List.map_nil] at written
    simp only [written, if_true]
    obtain ⟨first, firstOk⟩ | ⟨first, error, firstFails⟩ := timestampToI64_cases span.startTimeUnixNano
    · obtain ⟨second, secondOk⟩ | ⟨second, error, secondFails⟩ := timestampToI64_cases span.endTimeUnixNano
      · have small : ¬(traceSheet format).overflows (context, span) = true := by
          simp [traceSheet, Span.overflows, Nat.not_lt.mpr first, Nat.not_lt.mpr second]
        simp only [firstOk, secondOk, ok_bind, writeAttributesJson]
        refine ⟨fun late => absurd early late, fun _ large => absurd large small, fun _ full => ?_, fun _ room => ?_⟩
        · refine ite_unwound fun attributes => ite_unwound fun serviceName => ite_unwound fun resourceAttributes =>
            ite_unwound fun scopeName => ite_unwound fun scopeVersion => ite_unwound fun statusMessage => absurd ?_ full
          simp only [Room, traceSheet, traceRow, convertAttributes, writeAttributesJson, List.forall_mem_cons,
            List.map_append, List.map_cons, List.map_nil, written, true_and]
          exact ⟨attributes, serviceName, resourceAttributes, scopeName, scopeVersion, statusMessage, nofun⟩
        · simp only [Room, traceSheet, traceRow, convertAttributes, writeAttributesJson, List.forall_mem_cons,
            List.map_append, List.map_cons, List.map_nil] at room
          simp only [room, if_true]
          exact ⟨_, rfl, by simp [TraceColumns.ofRows, traceSheet, traceRow, convertAttributes, writeAttributesJson]⟩
      · have large : (traceSheet format).overflows (context, span) = true := by simp [traceSheet, Span.overflows, second]
        simp only [firstOk, secondFails, ok_bind, error_bind]
        exact ⟨fun late => absurd early late, fun _ _ => ⟨error, rfl⟩, fun small => absurd large small,
          fun small => absurd large small⟩
    · have large : (traceSheet format).overflows (context, span) = true := by simp [traceSheet, Span.overflows, first]
      simp only [firstFails, error_bind]
      exact ⟨fun late => absurd early late, fun _ _ => ⟨error, rfl⟩, fun small => absurd large small,
        fun small => absurd large small⟩
  · have unwound : ∀ result : Except (Stop PipelineError) (Decoding TraceColumns),
        result = .error .unwound → (traceSheet format).Appends rows (context, span) result := by
      rintro result rfl
      exact ⟨fun _ => rfl, fun room => absurd room early, fun _ _ => rfl,
        fun _ room => absurd (fun column member => room column (traceSheet_early format column member)) early⟩
    refine unwound _ (ite_unwound fun traceId => ite_unwound fun spanId => ite_unwound fun traceState =>
      ite_unwound fun parentSpanId => ite_unwound fun name => absurd ?_ early)
    simp only [Room, traceSheet, traceRow, List.forall_mem_cons, List.map_append, List.map_cons, List.map_nil]
    exact ⟨traceId, spanId, traceState, parentSpanId, name, nofun⟩

structure MetricRow (F64 : Type) where
  name : Text
  desc : Text
  unit : Text
  timestamp : Int
  value : F64
  attributes : Text
  context : RecordContext

def MetricColumns.ofRows (rows : List (MetricRow F64)) : MetricColumns F64 where
  name := rows.map (·.name)
  desc := rows.map (·.desc)
  unit := rows.map (·.unit)
  timestamp := rows.map (·.timestamp)
  value := rows.map (·.value)
  attributes := rows.map (·.attributes)
  serviceName := rows.map (·.context.serviceName)
  resourceAttributes := rows.map (·.context.resourceAttributes)
  scopeName := rows.map (·.context.scopeName)
  scopeVersion := rows.map (·.context.scopeVersion)

/-- A data point of any kind; `value` is the number that the decoder has for the kinds that it reads. -/
structure MetricPoint (F64 : Type) where
  timeUnixNano : Nat
  value : Option F64
  attributes : List (KeyValue F64)

namespace Metric

def readPoints (metric : Metric F64) : List (MetricPoint F64) :=
  match metric.data with
  | some (.gauge points) | some (.sum points) =>
    points.map fun point => ⟨point.timeUnixNano, some (numberValue format point.value), point.attributes⟩
  | some (.histogram points) =>
    points.map fun point => ⟨point.timeUnixNano, some (point.sum.getD (format.ofNat point.count)), point.attributes⟩
  | _ => []

def unreadPoints (metric : Metric F64) : List (MetricPoint F64) :=
  match metric.data with
  | some (.exponentialHistogram points) | some (.summary points) =>
    points.map fun point => ⟨point.timeUnixNano, none, point.attributes⟩
  | _ => []

def points (metric : Metric F64) : List (MetricPoint F64) := metric.readPoints format ++ metric.unreadPoints

end Metric

def metricRow (context : RecordContext) (metric : Metric F64) (point : MetricPoint F64) (value : F64) : MetricRow F64 where
  name := metric.name
  desc := metric.description
  unit := metric.unit
  timestamp := point.timeUnixNano
  value := value
  attributes := convertAttributes format point.attributes
  context := context

structure PlacedPoint (F64 : Type) where
  context : RecordContext
  metric : Metric F64
  point : MetricPoint F64

/-- The name, the description and the unit of a metric are written before the timestamp of a data point is looked at. -/
def metricSheet : Sheet (PlacedPoint F64) (MetricRow F64) (MetricColumns F64) where
  ofRows := MetricColumns.ofRows
  row placed := metricRow format placed.context placed.metric placed.point (placed.point.value.getD format.zero)
  texts := [(·.name), (·.desc), (·.unit), (·.attributes), (·.context.serviceName), (·.context.resourceAttributes),
    (·.context.scopeName), (·.context.scopeVersion)]
  early := [(·.name), (·.desc), (·.unit)]
  overflows placed := i64Max < placed.point.timeUnixNano

theorem metricSheet_early : ∀ column ∈ (metricSheet format).early, column ∈ (metricSheet format).texts := by
  simp [metricSheet]

def readEntries (context : RecordContext) (metric : Metric F64) : List (PlacedPoint F64) :=
  (metric.readPoints format).map fun point => ⟨context, metric, point⟩

/-- A data point that the decoder reads has a timestamp that cannot be represented. -/
def Metric.Overflows (metric : Metric F64) : Prop := ∃ point ∈ metric.readPoints format, i64Max < point.timeUnixNano

theorem appendRecord_appends (context : RecordContext) (metric : Metric F64) (point : MetricPoint F64) {value : F64}
    (number : point.value.getD format.zero = value) {decoding : Decoding (MetricColumns F64)} {rows : List (MetricRow F64)}
    (scratch : Text) (stands : decoding.columns = MetricColumns.ofRows rows) :
    (metricSheet format).Appends rows ⟨context, metric, point⟩ (do
      let columns ← decoding.columns.appendRecord metric point.timeUnixNano value
        (convertAttributes format point.attributes) context
      pure { decoding with columns := columns, scratch := scratch }) := by
  simp only [MetricColumns.appendRecord, bind_assoc]
  simp only [appendValue_bind, stands, MetricColumns.ofRows, pure_bind]
  by_cases early : Room (metricSheet format).early (rows ++ [(metricSheet format).row ⟨context, metric, point⟩])
  · have written := early
    simp only [Room, metricSheet, metricRow, List.forall_mem_cons, List.map_append, List.map_cons, List.map_nil] at written
    simp only [written, if_true]
    obtain ⟨first, firstOk⟩ | ⟨first, error, firstFails⟩ := timestampToI64_cases point.timeUnixNano
    · have small : ¬(metricSheet format).overflows ⟨context, metric, point⟩ = true := by
        simp [metricSheet, Nat.not_lt.mpr first]
      simp only [firstOk, ok_bind]
      refine ⟨fun late => absurd early late, fun _ large => absurd large small, fun _ full => ?_, fun _ room => ?_⟩
      · refine ite_unwound fun attributes => ite_unwound fun serviceName => ite_unwound fun resourceAttributes =>
          ite_unwound fun scopeName => ite_unwound fun scopeVersion => absurd ?_ full
        simp only [Room, metricSheet, metricRow, List.forall_mem_cons, List.map_append, List.map_cons, List.map_nil,
          written, true_and]
        exact ⟨attributes, serviceName, resourceAttributes, scopeName, scopeVersion, nofun⟩
      · simp only [Room, metricSheet, metricRow, List.forall_mem_cons, List.map_append, List.map_cons, List.map_nil]
          at room
        simp only [room, if_true]
        exact ⟨_, rfl, by simp [MetricColumns.ofRows, metricSheet, metricRow, number]⟩
    · have large : (metricSheet format).overflows ⟨context, metric, point⟩ = true := by simp [metricSheet, first]
      simp only [firstFails, error_bind]
      exact ⟨fun late => absurd early late, fun _ _ => ⟨error, rfl⟩, fun small => absurd large small,
        fun small => absurd large small⟩
  · have unwound : ∀ result : Except (Stop PipelineError) (Decoding (MetricColumns F64)),
        result = .error .unwound → (metricSheet format).Appends rows ⟨context, metric, point⟩ result := by
      rintro result rfl
      exact ⟨fun _ => rfl, fun room => absurd room early, fun _ _ => rfl,
        fun _ room => absurd (fun column member => room column (metricSheet_early format column member)) early⟩
    refine unwound _ (ite_unwound fun name => ite_unwound fun desc => ite_unwound fun unit => absurd ?_ early)
    simp only [Room, metricSheet, metricRow, List.forall_mem_cons, List.map_append, List.map_cons, List.map_nil]
    exact ⟨name, desc, unit, nofun⟩

theorem processPoints_collects {Point : Type} (timeUnixNano : Point → Nat) (value : Point → F64)
    (attributes : Point → List (KeyValue F64)) (metric : Metric F64) (context : RecordContext)
    {decoding : Decoding (MetricColumns F64)} {entries : List (PlacedPoint F64)} (dataPoints : List Point)
    (start : (metricSheet format).intake.Collects (metricSheet format).Stands (.ok decoding) entries) :
    (metricSheet format).intake.Collects (metricSheet format).Stands
      (processPoints format timeUnixNano value attributes metric context decoding dataPoints)
      (entries ++ (dataPoints.map fun point => (⟨timeUnixNano point, some (value point), attributes point⟩ :
        MetricPoint F64)).map fun point => ⟨context, metric, point⟩) := by
  rw [List.map_map, List.map_eq_flatMap]
  refine (metricSheet format).intake.foldlM_collects (fun decoding entries point start => ?_) dataPoints start
  exact (appendRecord_appends format context metric ⟨timeUnixNano point, some (value point), attributes point⟩ rfl _
    start.2.2).collects (metricSheet_early format) start

theorem appendLog_entries : AppendsEntries (logSheet format) (appendLog format) fun context log => [(context, log)] :=
  fun context _ _ log start => (appendLog_appends format context log start.2.2).collects nofun start

theorem appendSpan_entries :
    AppendsEntries (traceSheet format) (appendSpan format) fun context span => [(context, span)] :=
  fun context _ _ span start =>
    (appendSpan_appends format context span start.2.2).collects (traceSheet_early format) start

theorem appendMetric_entries : AppendsEntries (metricSheet format) (appendMetric format) (readEntries format) := by
  intro context decoding entries metric start
  obtain ⟨name, description, unit, data⟩ := metric
  cases data with
  | none => simpa [appendMetric, readEntries, Metric.readPoints] using start
  | some data =>
    cases data with
    | gauge points | sum points | histogram points =>
      exact processPoints_collects format _ _ _ ⟨name, description, unit, _⟩ context points start
    | exponentialHistogram points | summary points =>
      simpa [appendMetric, readEntries, Metric.readPoints] using start

/-- A request of one of the three signals. -/
inductive SignalRequest (F64 : Type) where
  | logs (request : ExportRequest F64 (LogRecord F64))
  | traces (request : ExportRequest F64 (Span F64))
  | metrics (request : ExportRequest F64 (Metric F64))

def dataPoints (request : ExportRequest F64 (Metric F64)) : List (PlacedPoint F64) :=
  (contextual format request).flatMap fun entry => (entry.2.points format).map fun point => ⟨entry.1, entry.2, point⟩

def decodedPoints (request : ExportRequest F64 (Metric F64)) : List (PlacedPoint F64) :=
  entriesOfRequest format (readEntries format) request

/-- The row carries the data point; the number of a kind that the decoder does not read is left open. -/
def PlacedPoint.CarriedBy (placed : PlacedPoint F64) (row : MetricRow F64) : Prop :=
  row = metricRow format placed.context placed.metric placed.point row.value ∧
    ∀ value ∈ placed.point.value, row.value = value

/-- Decoding returns an error only for a timestamp that cannot be represented, and otherwise makes one row for each
    record, span or data point, in the order of the request; it does not panic. -/
def Complete (tryNew : TryNew F64) : SignalRequest F64 → Prop
  | .logs request =>
    match decodeLogs format tryNew.logs request with
    | .ok batch => batch = LogColumns.ofRows ((contextual format request).map fun entry => logRow format entry.1 entry.2)
    | .error (.returned _) => ∃ entry ∈ contextual format request, entry.2.overflows = true
    | .error .unwound => False
  | .traces request =>
    match decodeTraces format tryNew.traces request with
    | .ok batch =>
      batch = TraceColumns.ofRows ((contextual format request).map fun entry => traceRow format entry.1 entry.2)
    | .error (.returned _) => ∃ entry ∈ contextual format request, entry.2.overflows = true
    | .error .unwound => False
  | .metrics request =>
    match decodeMetrics format tryNew.metrics request with
    | .ok batch => ∃ rows, batch = MetricColumns.ofRows rows ∧
        List.Forall₂ (PlacedPoint.CarriedBy format) (dataPoints format request) rows
    | .error (.returned _) => ∃ placed ∈ dataPoints format request, i64Max < placed.point.timeUnixNano
    | .error .unwound => False

/-- No data point is of a kind that the decoder passes over, or the decoder fails on one that it reads. -/
def SignalRequest.Readable : SignalRequest F64 → Prop
  | .logs _ | .traces _ => True
  | .metrics request =>
    (∀ entry ∈ contextual format request, entry.2.unreadPoints = []) ∨
      ∃ entry ∈ contextual format request, entry.2.Overflows format

/-- The texts of every column, up to the first timestamp that cannot be represented, take at most `i32::MAX` bytes. -/
def SignalRequest.Fits : SignalRequest F64 → Prop
  | .logs request => (logSheet format).Fits (contextual format request)
  | .traces request => (traceSheet format).Fits (contextual format request)
  | .metrics request => (metricSheet format).Fits (decodedPoints format request)

/-- Arrow makes a batch of columns that are equally long. -/
structure TryNew.TakesEven (tryNew : TryNew F64) : Prop where
  logs : ∀ columns rows, (∀ length ∈ columns.lengths, length = rows) → tryNew.logs columns = .ok columns
  traces : ∀ columns rows, (∀ length ∈ columns.lengths, length = rows) → tryNew.traces columns = .ok columns
  metrics : ∀ columns rows, (∀ length ∈ columns.lengths, length = rows) → tryNew.metrics columns = .ok columns

section Decoders

variable {tryNew : TryNew F64} (even : tryNew.TakesEven)
include even

theorem decodeLogs_spec (request : ExportRequest F64 (LogRecord F64)) :
    (logSheet format).intake.Collects
      (fun entries columns => columns = LogColumns.ofRows (entries.map fun entry => logRow format entry.1 entry.2))
      (decodeLogs format tryNew.logs request) (contextual format request) := by
  have spec := decodeRequest_spec format (appendLog_entries format)
    (fun rows => even.logs (LogColumns.ofRows rows) rows.length (by simp [LogColumns.lengths, LogColumns.ofRows])) request
  rwa [entriesOfRequest, ← List.map_eq_flatMap, List.map_id'] at spec

theorem decodeTraces_spec (request : ExportRequest F64 (Span F64)) :
    (traceSheet format).intake.Collects
      (fun entries columns => columns = TraceColumns.ofRows (entries.map fun entry => traceRow format entry.1 entry.2))
      (decodeTraces format tryNew.traces request) (contextual format request) := by
  have spec := decodeRequest_spec format (appendSpan_entries format)
    (fun rows => even.traces (TraceColumns.ofRows rows) rows.length (by simp [TraceColumns.lengths, TraceColumns.ofRows]))
    request
  rwa [entriesOfRequest, ← List.map_eq_flatMap, List.map_id'] at spec

theorem decodeMetrics_spec (request : ExportRequest F64 (Metric F64)) :
    (metricSheet format).intake.Collects
      (fun entries columns => columns = MetricColumns.ofRows (entries.map (metricSheet format).row))
      (decodeMetrics format tryNew.metrics request) (decodedPoints format request) :=
  decodeRequest_spec format (appendMetric_entries format)
    (fun rows => even.metrics (MetricColumns.ofRows rows) rows.length (by
      simp [MetricColumns.lengths, MetricColumns.ofRows])) request

theorem decodeLogs_complete_iff (request : ExportRequest F64 (LogRecord F64)) :
    Complete format tryNew (.logs request) ↔ (SignalRequest.logs request).Fits format := by
  have spec := decodeLogs_spec format even request
  rw [Complete]
  rcases decoded : decodeLogs format tryNew.logs request with (error | _) | batch <;> rw [decoded] at spec
  · obtain ⟨overflow, fits⟩ := spec.2 nofun
    exact ⟨fun _ => fits, fun _ => overflow⟩
  · exact ⟨False.elim, fun fits => spec.1 rfl fits⟩
  · exact ⟨fun _ => spec.2.1, fun _ => spec.2.2⟩

theorem decodeTraces_complete_iff (request : ExportRequest F64 (Span F64)) :
    Complete format tryNew (.traces request) ↔ (SignalRequest.traces request).Fits format := by
  have spec := decodeTraces_spec format even request
  rw [Complete]
  rcases decoded : decodeTraces format tryNew.traces request with (error | _) | batch <;> rw [decoded] at spec
  · obtain ⟨overflow, fits⟩ := spec.2 nofun
    exact ⟨fun _ => fits, fun _ => overflow⟩
  · exact ⟨False.elim, fun fits => spec.1 rfl fits⟩
  · exact ⟨fun _ => spec.2.1, fun _ => spec.2.2⟩

end Decoders

theorem decodedPoints_carried (request : ExportRequest F64 (Metric F64)) :
    List.Forall₂ (PlacedPoint.CarriedBy format) (decodedPoints format request)
      ((decodedPoints format request).map (metricSheet format).row) := by
  rw [List.forall₂_map_right_iff, List.forall₂_same]
  intro placed _
  refine ⟨rfl, fun value known => ?_⟩
  change placed.point.value.getD format.zero = value
  rw [Option.mem_def.mp known, Option.getD_some]

theorem dataPoints_eq_decodedPoints {request : ExportRequest F64 (Metric F64)}
    (read : ∀ entry ∈ contextual format request, entry.2.unreadPoints = []) :
    dataPoints format request = decodedPoints format request := by
  refine List.flatMap_congr fun entry member => ?_
  rw [Metric.points, read entry member, List.append_nil, readEntries]

theorem dataPoints_length (request : ExportRequest F64 (Metric F64)) :
    (dataPoints format request).length = (decodedPoints format request).length +
      ((contextual format request).map fun entry => entry.2.unreadPoints.length).sum := by
  rw [dataPoints, decodedPoints, entriesOfRequest]
  induction contextual format request with
  | nil => rfl
  | cons entry rest ih =>
    simp only [List.flatMap_cons, List.length_append, List.length_map, Metric.points, readEntries, List.map_cons,
      List.sum_cons] at ih ⊢
    omega

theorem overflows_iff_decoded (request : ExportRequest F64 (Metric F64)) :
    (∃ placed ∈ decodedPoints format request, (metricSheet format).overflows placed = true) ↔
      ∃ entry ∈ contextual format request, entry.2.Overflows format := by
  simp only [decodedPoints, entriesOfRequest, readEntries, metricSheet, Metric.Overflows, List.mem_flatMap, List.mem_map,
    decide_eq_true_eq]
  constructor
  · rintro ⟨_, ⟨entry, member, point, listed, rfl⟩, large⟩
    exact ⟨entry, member, point, listed, large⟩
  · rintro ⟨entry, member, point, listed, large⟩
    exact ⟨_, ⟨entry, member, point, listed, rfl⟩, large⟩

theorem overflows_placed {request : ExportRequest F64 (Metric F64)}
    (found : ∃ entry ∈ contextual format request, entry.2.Overflows format) :
    ∃ placed ∈ dataPoints format request, i64Max < placed.point.timeUnixNano := by
  obtain ⟨entry, member, point, listed, large⟩ := found
  refine ⟨⟨entry.1, entry.2, point⟩, ?_, large⟩
  exact List.mem_flatMap.mpr ⟨entry, member, List.mem_map_of_mem (List.mem_append_left _ listed)⟩

theorem decodeMetrics_complete_iff {tryNew : TryNew F64} (even : tryNew.TakesEven)
    (request : ExportRequest F64 (Metric F64)) :
    Complete format tryNew (.metrics request) ↔
      (SignalRequest.metrics request).Readable format ∧ (SignalRequest.metrics request).Fits format := by
  have spec := decodeMetrics_spec format even request
  rw [Complete, SignalRequest.Readable]
  rcases decoded : decodeMetrics format tryNew.metrics request with (error | _) | batch <;> rw [decoded] at spec
  · obtain ⟨overflow, fits⟩ := spec.2 nofun
    have found := (overflows_iff_decoded format request).mp overflow
    exact ⟨fun _ => ⟨.inr found, fits⟩, fun _ => overflows_placed format found⟩
  · exact ⟨False.elim, fun condition => spec.1 rfl condition.2⟩
  · obtain ⟨good, fits, rfl⟩ := spec
    constructor
    · rintro ⟨rows, same, carried⟩
      -- as many rows as data points, so none of them was passed over
      have rowCount : (decodedPoints format request).length = rows.length := by
        simpa [MetricColumns.ofRows] using congrArg (fun columns => columns.name.length) same
      have total := dataPoints_length format request
      have none : ((contextual format request).map fun entry => entry.2.unreadPoints.length).sum = 0 := by
        have paired := carried.length_eq
        omega
      refine ⟨.inl fun entry member => ?_, fits⟩
      have zero := List.sum_eq_zero_iff_forall_eq_nat.mp none _ (List.mem_map_of_mem member)
      exact List.length_eq_zero_iff.mp zero
    · rintro ⟨read | overflow, -⟩
      · refine ⟨_, rfl, ?_⟩
        rw [dataPoints_eq_decodedPoints format read]
        exact decodedPoints_carried format request
      · obtain ⟨placed, member, large⟩ := (overflows_iff_decoded format request).mpr overflow
        exact absurd large (good placed member)

/-- Decoding is complete exactly for the requests whose texts fit into their columns and which have no data points of
    the kinds that are passed over, or are refused for a timestamp of another kind. -/
theorem decoding_complete_iff {tryNew : TryNew F64} (even : tryNew.TakesEven) (request : SignalRequest F64) :
    Complete format tryNew request ↔ request.Readable format ∧ request.Fits format := by
  cases request with
  | logs request => rw [decodeLogs_complete_iff format even, SignalRequest.Readable, true_and]
  | traces request => rw [decodeTraces_complete_iff format even, SignalRequest.Readable, true_and]
  | metrics request => exact decodeMetrics_complete_iff format even request

def floatFormat : FloatFormat Float where
  isFinite := Float.isFinite
  display := fun number => (toString number).toList
  ofInt := Float.ofInt
  ofNat := Float.ofNat
  zero := 0

def takeEven {Columns : Type} (lengths : Columns → List Nat) (columns : Columns) : Except PipelineError Columns :=
  if (lengths columns).all (· == (lengths columns).headD 0) then .ok columns
  else .error (.arrow "all columns in a record batch must have the same length".toList)

/-- A `try_new` that looks at the lengths of the columns only. -/
def evenTryNew : TryNew F64 where
  logs := takeEven LogColumns.lengths
  traces := takeEven TraceColumns.lengths
  metrics := takeEven MetricColumns.lengths

theorem takeEven_eq_ok {Columns : Type} {lengths : Columns → List Nat} {columns : Columns} {rows : Nat}
    (even : ∀ length ∈ lengths columns, length = rows) : takeEven lengths columns = .ok columns := by
  rw [takeEven, if_pos]
  generalize lengths columns = all at even
  cases all with
  | nil => rfl
  | cons first rest => simpa [even first (by simp)] using fun length member => even length (List.mem_cons_of_mem _ member)

theorem evenTryNew_takesEven : (evenTryNew : TryNew F64).TakesEven where
  logs _ _ := takeEven_eq_ok
  traces _ _ := takeEven_eq_ok
  metrics _ _ := takeEven_eq_ok

def gaugeRequest : ExportRequest Float (Metric Float) :=
  [⟨none, [⟨none, [⟨"latency".toList, [], "ms".toList, some (.gauge [⟨1, some (.asInt 4), []⟩])⟩]⟩]⟩]

theorem decoding_complete_gauge : Complete floatFormat evenTryNew (.metrics gaugeRequest) :=
  (decoding_complete_iff floatFormat evenTryNew_takesEven (.metrics gaugeRequest)).mpr
    ⟨.inl (by decide), by simp only [SignalRequest.Fits, Sheet.Fits, Room]; decide⟩

def exponentialRequest : ExportRequest Float (Metric Float) :=
  [⟨none, [⟨none, [⟨"latency".toList, [], [], some (.exponentialHistogram [⟨1, []⟩])⟩]⟩]⟩]

/-- The data point of an exponential histogram is accepted and lost. -/
theorem decoding_loses_exponential : ¬∀ request : SignalRequest Float, Complete floatFormat evenTryNew request := by
  intro claimed
  obtain ⟨rows, same, carried⟩ := claimed (.metrics exponentialRequest)
  have none : ([] : List Text) = rows.map (·.name) := congrArg MetricColumns.name same
  have paired := carried.length_eq
  rw [List.map_eq_nil_iff.mp none.symm] at paired
  cases paired

end OtelDatalake.Codec
