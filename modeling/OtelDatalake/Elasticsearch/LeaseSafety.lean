import OtelDatalake.Elasticsearch.LeaseVerdicts

open OtelDatalake.Foundation OtelDatalake.Buffer

namespace OtelDatalake.Elasticsearch

variable {Batch : Type} [RecordBatch Batch]

/-- The batches that were admitted for a lease are counted in it, and are what `prepare` reads. -/
structure LeaseHolds (reader : BatchReader Batch) (view : Batch → Table) (lease : Lease Batch)
    (admitted : List Table) : Prop where
  counted : lease.numRows = (admitted.map fun batch => batch.rows.length).sum
  read : ∀ batch, reader.prepare lease.payloads = .ok batch → (view batch).rows = admitted.flatMap Table.rows

/-- Every admitted row has ended: there is none, or each is a row of the sorted batch. -/
def LeaseSettled (world : SinkWorld) (sink : SinkConfig) (signal : SignalKind) (prepared : Except String Table)
    (admitted : List Table) (outcome : LeaseOutcome) : Prop :=
  admitted.flatMap Table.rows = [] ∧ outcome.quarantined = [] ∨
    ∃ sortedBatch chunks oversizedRows,
      prepared.bind (sink.prepareBatch signal) = .ok (sortedBatch, chunks, oversizedRows) ∧
      sortedBatch.rows.Perm (admitted.flatMap Table.rows) ∧ Settled world sink sortedBatch chunks outcome

/-- With a server that answers each document, in every order of the chunk tasks: an acknowledged lease is settled, a
    failed chunk leads to a nack, and the class of the nack is that of every other order. -/
def LosesNoVerdict (sink : SinkConfig) (reader : BatchReader Batch) (view : Batch → Table) (lease : Lease Batch)
    (admitted : List Table) : Prop :=
  ∀ world : SinkWorld, (∀ position, HttpClient.AnswersEach (world.transport position)) → ∀ schedule,
    let prepared := (reader.prepare lease.payloads).map view
    let outcome := world.processLease sink schedule lease.id.signal lease.numRows prepared
    (outcome.resolution = .acked → LeaseSettled world sink lease.id.signal prepared admitted outcome) ∧
    (∀ sortedBatch chunks oversizedRows position chunk, lease.numRows ≠ 0 →
      prepared.bind (sink.prepareBatch lease.id.signal) = .ok (sortedBatch, chunks, oversizedRows) →
      chunks[position]? = some chunk → (world.runTask position chunk).isFailure = true →
        ∃ failure, outcome.resolution = .nacked failure) ∧
    ∀ other, outcome.resolution.severity =
      (world.processLease sink other lease.id.signal lease.numRows prepared).resolution.severity

def WritesDocuments (sink : SinkConfig) (reader : BatchReader Batch) (view : Batch → Table) (lease : Lease Batch) :
    Prop :=
  ∀ batch, reader.prepare lease.payloads = .ok batch →
    (sink.prepareBatch lease.id.signal (view batch)).isOk = true → sink.SingleLineNames (view batch)

theorem SinkConfig.SingleLineNames.of_perm {sink : SinkConfig} {batch sortedBatch : Table}
    (fields : sortedBatch.fields = batch.fields) (rows : sortedBatch.rows.Perm batch.rows) :
    sink.SingleLineNames sortedBatch ↔ sink.SingleLineNames batch := by
  unfold SingleLineNames
  rw [fields]
  simp only [rows.mem_iff]

section Holds

variable {sink : SinkConfig} {reader : BatchReader Batch} {view : Batch → Table} {lease : Lease Batch}
  {admitted : List Table}

theorem LeaseHolds.no_rows (holds : LeaseHolds reader view lease admitted) (none : lease.numRows = 0) :
    admitted.flatMap Table.rows = [] := by
  rw [← List.length_eq_zero_iff, List.length_flatMap, ← holds.counted]
  exact none

theorem losesNoVerdict_of_documents (plain : sink.formatters.SingleLine) (permutes : sink.lexsortToIndices.Permutes)
    (holds : LeaseHolds reader view lease admitted) (documented : WritesDocuments sink reader view lease) :
    LosesNoVerdict sink reader view lease admitted := by
  intro world answers schedule
  simp only
  by_cases noRows : lease.numRows = 0
  · simp only [SinkWorld.processLease, if_pos noRows]
    refine ⟨fun _ => .inl ⟨holds.no_rows noRows, rfl⟩, ?_, fun _ => trivial⟩
    intro _ _ _ _ _ some
    exact absurd noRows some
  · simp only [SinkWorld.processLease, if_neg noRows]
    cases read : reader.prepare lease.payloads with
    | error reason =>
      refine ⟨fun acked => ?_, ?_, fun _ => rfl⟩
      · cases acked
      · intro _ _ _ _ _ _ _ _ _
        exact ⟨_, rfl⟩
    | ok batch =>
      simp only [Except.map, Except.bind]
      cases prepared : sink.prepareBatch lease.id.signal (view batch) with
      | error reason =>
        refine ⟨fun acked => ?_, ?_, fun _ => rfl⟩
        · cases acked
        · intro _ _ _ _ _ _ _ _ _
          exact ⟨_, rfl⟩
      | ok triple =>
        obtain ⟨sortedBatch, chunks, oversizedRows⟩ := triple
        obtain ⟨fields, rows, serialized⟩ := SinkConfig.prepareBatch_ok permutes prepared
        obtain ⟨documents, chunked⟩ := serializeBatchChunks_chunked plain serialized
        have names : sink.SingleLineNames sortedBatch := by
          rw [SinkConfig.SingleLineNames.of_perm fields rows]
          exact documented batch read (by rw [prepared]; rfl)
        refine ⟨?_, ?_, ?_⟩
        · intro acked
          right
          refine ⟨sortedBatch, chunks, oversizedRows, prepared, ?_, ?_⟩
          · rw [← holds.read batch read]
            exact rows
          · exact SinkWorld.processPrepared_settled plain answers names chunked acked
        · intro _ _ _ position chunk _ same found failed
          cases same
          exact SinkWorld.processPrepared_nacked chunked found failed
        · intro other
          exact SinkWorld.processPrepared_severity chunked other

end Holds

def pairCount (payload : List UInt8) : Nat :=
  if (lineRanges payload).length % 2 = 0 then (lineRanges payload).length / 2 else 0

/-- A server that reads a payload by its lines, and answers its documents with the given statuses. -/
def pairServer (status : Nat → Nat) : HttpClient.Transport := fun _ payload =>
  .ok
    { status := 200
      text := []
      json := .ok
        { took := 0
          errors := (List.range (pairCount payload)).any fun document => 400 ≤ status document
          items := (List.range (pairCount payload)).map fun document =>
            { create := some { status := status document } } } }

theorem pairServer_answers (status : Nat → Nat) : HttpClient.AnswersEach (pairServer status) := by
  intro attempt documents response bulk valid received _ parsed
  obtain ⟨paired, -⟩ := scanLines_documents valid 0
  have count : pairCount documents.flatten = documents.length := by
    unfold pairCount lineRanges
    rw [paired, if_pos (by omega)]
    omega
  simp only [pairServer, Except.ok.injEq] at received
  subst received
  simp only [Except.ok.injEq] at parsed
  subst parsed
  rw [count]
  constructor
  · simp
  · intro item member
    obtain ⟨document, -, rfl⟩ := List.mem_map.mp member
    rfl

def serverWorld (status : Nat → Nat) : SinkWorld where
  client := { maxRetries := 0, canonicalReason := fun _ => [] }
  transport := fun _ => pairServer status
  panicked := fun _ => none
  refused := fun _ => none
  writeQuarantine := fun _ _ => .ok ()
  resolve := fun _ => .ok ()

namespace SinkWorld

variable {sink : SinkConfig} {sortedBatch : Table} {documents : List (List UInt8)} {chunks : List BulkChunk}
  {oversizedRows : List (Nat × Nat)}

theorem serverWorld_sendBulk (status : Nat → Nat) (success : ∀ document, status document < 400)
    (position : Nat) (payload : List UInt8) :
    ∃ items : List BulkItemWrapper, items.length = pairCount payload ∧
      (∀ item ∈ items, item.isRecoverable = false) ∧
      (serverWorld status).client.sendBulk ((serverWorld status).transport position) payload =
        (.ok ⟨0, false, items⟩, [⟨List.range (pairCount payload), payload, items⟩]) := by
  refine ⟨(List.range (pairCount payload)).map fun document =>
    { create := some { status := status document } }, by simp, ?_, ?_⟩
  · intro item member
    obtain ⟨document, -, rfl⟩ := List.mem_map.mp member
    have low := success document
    simp only [BulkItemWrapper.isRecoverable, BulkItemWrapper.status, BulkItemWrapper.item, Option.some_or,
      Option.map_some, Option.any_some, Bool.or_eq_false_iff, beq_eq_false_iff_ne]
    omega
  · have clean : ((List.range (pairCount payload)).any fun document => decide (400 ≤ status document)) = false := by
      rw [List.any_eq_false]
      intro document _
      have low := success document
      simp only [decide_eq_true_eq]
      omega
    unfold HttpClient.sendBulk HttpClient.sendLoop
    simp [serverWorld, pairServer, HttpClient.turn, HttpClient.isTransientHttpStatus, HttpClient.checkBulkStatus,
      HttpClient.isSuccessStatus, HttpClient.readResponse, clean]

theorem serverWorld_clean {status : Nat → Nat} (success : ∀ document, status document < 400)
    (chunks : List BulkChunk) : ∀ result ∈ (serverWorld status).taskResults 0 chunks, result.isFailure = false := by
  intro result member
  obtain ⟨position, chunk, -, rfl⟩ := mem_taskResults.mp member
  obtain ⟨items, -, settled, sent⟩ := serverWorld_sendBulk status success position chunk.payload
  have unretried : (⟨0, false, items⟩ : BulkResponse).recoverableCount = 0 := by
    unfold BulkResponse.recoverableCount
    rw [List.length_eq_zero_iff, List.filter_eq_nil_iff]
    intro item inItems
    exact Bool.eq_false_iff.mp (settled item inItems)
  have quiet : (serverWorld status).panicked position = none := rfl
  simp only [runTask, quiet, sent, TaskResult.isFailure, unretried]
  rfl

theorem dispatchAll_ok (schedule : Schedule) {world : SinkWorld}
    (permitted : ∀ position, world.refused position = none) (position : Nat)
    (chunks : List BulkChunk) (set : JoinSet) : ∃ after, world.dispatchAll schedule position chunks set = .ok after := by
  induction chunks generalizing position set with
  | nil => exact ⟨set, rfl⟩
  | cons chunk rest ih =>
    unfold dispatchAll dispatch
    by_cases skipped : chunk.payload = [] ∨ chunk.rowCount = 0
    · simp only [if_pos skipped, bind, Except.bind]
      exact ih (position + 1) set
    · simp only [if_neg skipped, permitted, bind, Except.bind]
      exact ih (position + 1) _

theorem settleResults_acks {world : SinkWorld} (stored : ∀ reason slices, world.writeQuarantine reason slices = .ok ())
    {done : List TaskResult} {results : TaskResults} (recorded : Recorded done results)
    (clean : ∀ result ∈ done, result.isFailure = false) :
    (world.settleResults sink sortedBatch oversizedRows results).resolution = .acked := by
  have noJoinErr : results.firstJoinErr = none := by
    rw [← Option.not_isSome_iff_eq_none]
    intro failed
    obtain ⟨result, member, isErr⟩ := recorded.joinErr.mp failed
    have fine := clean result member
    cases result with
    | failed reason => cases fine
    | joined startRow rowCount sent => cases isErr
  have noEsErr : results.firstEsErr = none := by
    rw [← Option.not_isSome_iff_eq_none]
    intro failed
    obtain ⟨result, member, isErr⟩ := recorded.someErr.mp failed
    have fine := clean result member
    cases result with
    | failed reason => cases isErr
    | joined startRow rowCount sent =>
      cases sent with
      | error err => cases fine
      | ok response => cases isErr
  have settled : ¬ ((results.outcomes.mergeSort fun first second => decide (first.1 ≤ second.1)).any
      fun outcome => decide (0 < outcome.2.2.recoverableCount)) = true := by
    rw [List.any_eq_true]
    rintro ⟨⟨startRow, rowCount, response⟩, member, recoverable⟩
    rw [List.mem_mergeSort, recorded.outcomes] at member
    obtain ⟨result, inDone, isOutcome⟩ := List.mem_filterMap.mp member
    have fine := clean result inDone
    cases result with
    | failed reason => cases isOutcome
    | joined first count sent =>
      cases sent with
      | error err => cases isOutcome
      | ok response' =>
        cases isOutcome
        rw [TaskResult.isFailure] at fine
        rw [recoverable] at fine
        cases fine
  unfold settleResults quarantineAndAck
  simp only [noJoinErr, noEsErr, if_neg settled, stored]
  split <;> rfl

theorem processPrepared_acks (schedule : Schedule) {world : SinkWorld}
    (permitted : ∀ position, world.refused position = none)
    (stored : ∀ reason slices, world.writeQuarantine reason slices = .ok ())
    (chunked : Chunked sink.formatters sink.unpackAttributes sink.maxPayloadBytes sortedBatch documents chunks
      oversizedRows)
    (clean : ∀ result ∈ world.taskResults 0 chunks, result.isFailure = false) :
    (world.processPrepared sink schedule sortedBatch chunks oversizedRows).resolution = .acked := by
  unfold processPrepared
  by_cases none : chunks = []
  · rw [if_pos none]
    unfold quarantineAndAck
    simp only [stored]
    split <;> rfl
  · rw [if_neg none]
    obtain ⟨set, dispatched⟩ := dispatchAll_ok schedule permitted 0 chunks {}
    rw [dispatched]
    have spawned := dispatchAll_holds (Chunked.dispatchable chunked) JoinSet.Holds.init dispatched
    obtain ⟨done, recorded, perm⟩ := spawned.drain schedule.atDrain
    apply settleResults_acks stored recorded
    intro result member
    exact clean result (perm.mem_iff.mp member)

end SinkWorld

section Lines

variable {formatters : Formatters} {unpackAttributes : Bool} {fields : List (List UInt8)}

theorem lineRanges_rows (plain : formatters.SingleLine) {documents : List (List UInt8)}
    (each : ∀ document ∈ documents, ∃ cells, serializeRow formatters unpackAttributes fields cells = .ok document) :
    2 * documents.length ≤ (lineRanges documents.flatten).length ∧
      ∀ document ∈ documents, ∀ cells, serializeRow formatters unpackAttributes fields cells = .ok document →
        (∃ name ∈ writtenNames (fields.zip cells), newline ∈ name) →
          2 * documents.length < (lineRanges documents.flatten).length := by
  unfold lineRanges
  induction documents with
  | nil => simp
  | cons document rest ih =>
    obtain ⟨more, broken⟩ := ih fun other member => each other (List.mem_cons_of_mem _ member)
    obtain ⟨cells, serialized⟩ := each document List.mem_cons_self
    obtain ⟨two, -⟩ := scanLines_serializeRow plain serialized rest.flatten
    rw [List.flatten_cons, List.length_cons]
    constructor
    · omega
    · intro other member cells' serialized' named
      rcases List.mem_cons.mp member with first | later
      · rw [first] at serialized'
        have three := (scanLines_serializeRow plain serialized' rest.flatten).2 named
        omega
      · have beyond := broken other later cells' serialized' named
        omega

theorem serialized_unique {rows : List (List Cell)} {documents documents' : List (List UInt8)}
    (first : List.Forall₂ (fun cells rowBuf => serializeRow formatters unpackAttributes fields cells = .ok rowBuf)
      rows documents)
    (second : List.Forall₂ (fun cells rowBuf => serializeRow formatters unpackAttributes fields cells = .ok rowBuf)
      rows documents') : documents = documents' := by
  apply List.ext_getElem
  · rw [← first.length_eq, second.length_eq]
  · intro position bound bound'
    have inRows : position < rows.length := first.length_eq ▸ bound
    have one := first.get inRows bound
    have two := second.get inRows bound'
    exact Except.ok.inj (one.symm.trans two)

end Lines

theorem SinkWorld.serverWorld_not_settled {sink : SinkConfig} (plain : sink.formatters.SingleLine)
    {sortedBatch : Table} {documents : List (List UInt8)} {chunks : List BulkChunk} {oversizedRows : List (Nat × Nat)}
    (chunked : Chunked sink.formatters sink.unpackAttributes sink.maxPayloadBytes sortedBatch documents chunks
      oversizedRows)
    {status : Nat → Nat} (success : ∀ document, status document < 400) {outcome : LeaseOutcome}
    (settled : Settled (serverWorld status) sink sortedBatch chunks outcome) :
    sink.SingleLineNames sortedBatch := by
  intro cells inRows rowBuf serialized fits name written lineBreak
  obtain ⟨documents', rejected, each, -, -, -, ended⟩ := settled
  have same := serialized_unique each chunked.serialized
  subst same
  obtain ⟨row, bound, rfl⟩ := List.getElem_of_mem inRows
  have inDocuments : row < documents'.length := each.length_eq ▸ bound
  have document_eq : documents'[row] = rowBuf := Except.ok.inj ((each.get bound inDocuments).symm.trans serialized)
  have numbered : documents'[row]? = some rowBuf := by rw [List.getElem?_eq_getElem inDocuments, document_eq]
  cases ended row bound with
  | oversized document found large _ =>
    rw [numbered, Option.some.injEq] at found
    subst found
    omega
  | answered position idx chunk item found inChunk rowAt sound last _ =>
    have member := List.mem_of_getElem? found
    obtain ⟨counted, payload⟩ := chunked.chunk chunk member
    have size := chunked.chunk_length member
    have listed : rowBuf ∈ slice chunk.startRow chunk.rowCount documents' := by
      apply List.mem_of_getElem? (i := idx)
      rw [slice, List.getElem?_take_of_lt inChunk, List.getElem?_drop, rowAt, numbered]
    have rowsOf : ∀ document ∈ slice chunk.startRow chunk.rowCount documents', ∃ cells,
        serializeRow sink.formatters sink.unpackAttributes sortedBatch.fields cells = .ok document := by
      intro document inSlice
      obtain ⟨-, cells, -, origin⟩ := chunked.chunk_document member inSlice
      exact ⟨cells, origin⟩
    have lines := (lineRanges_rows plain rowsOf).2 rowBuf listed _ serialized ⟨name, written, lineBreak⟩
    rw [← payload, size] at lines
    obtain ⟨items, items_eq, -, sent⟩ := serverWorld_sendBulk status success position chunk.payload
    rw [sent] at sound last
    by_cases even : (lineRanges chunk.payload).length % 2 = 0
    · have count : pairCount chunk.payload = (lineRanges chunk.payload).length / 2 := if_pos even
      have beyond : chunk.rowCount ∈ List.range (pairCount chunk.payload) := by
        rw [List.mem_range, count]
        omega
      have inside := (sound _ List.mem_cons_self).bounds _ beyond
      rw [size] at inside
      exact Nat.lt_irrefl _ inside
    · have count : pairCount chunk.payload = 0 := if_neg even
      rw [count, List.length_eq_zero_iff] at items_eq
      simp [HttpClient.lastVerdict, HttpClient.verdicts, items_eq] at last

section Condition

variable {sink : SinkConfig} {reader : BatchReader Batch} {view : Batch → Table} {lease : Lease Batch}
  {admitted : List Table}

theorem documents_of_losesNoVerdict (plain : sink.formatters.SingleLine) (permutes : sink.lexsortToIndices.Permutes)
    (holds : LeaseHolds reader view lease admitted) (lossless : LosesNoVerdict sink reader view lease admitted) :
    WritesDocuments sink reader view lease := by
  intro batch read isOk
  cases prepared : sink.prepareBatch lease.id.signal (view batch) with
  | error reason => simp [prepared, Except.isOk, Except.toBool] at isOk
  | ok triple =>
    obtain ⟨sortedBatch, chunks, oversizedRows⟩ := triple
    obtain ⟨fields, rows, serialized⟩ := SinkConfig.prepareBatch_ok permutes prepared
    obtain ⟨documents, chunked⟩ := serializeBatchChunks_chunked plain serialized
    by_cases noRows : lease.numRows = 0
    · intro cells member
      rw [holds.read batch read, holds.no_rows noRows] at member
      cases member
    · set status : Nat → Nat := fun _ => 201 with status_eq
      have success : ∀ document, status document < 400 := by simp [status_eq]
      have run := (lossless (serverWorld status) (fun _ => pairServer_answers _) ⟨fun _ => [], []⟩).1
      simp only [SinkWorld.processLease, if_neg noRows, read, Except.map, Except.bind, prepared] at run
      have acked := SinkWorld.processPrepared_acks ⟨fun _ => [], []⟩ (fun _ => rfl) (fun _ _ => rfl) chunked
        (SinkWorld.serverWorld_clean success chunks)
      rcases run acked with ⟨none, -⟩ | ⟨sortedBatch', chunks', oversizedRows', same, -, settled⟩
      · intro cells member
        rw [holds.read batch read, none] at member
        cases member
      · cases prepared.symm.trans same
        rw [← SinkConfig.SingleLineNames.of_perm fields rows]
        exact SinkWorld.serverWorld_not_settled plain chunked success settled

/-- An Elasticsearch lease loses and duplicates no verdict exactly when no column name that is written for one of its
    rows holds a line break: such a name splits the row's document, and the items no longer belong to the rows. -/
theorem losesNoVerdict_iff (plain : sink.formatters.SingleLine) (permutes : sink.lexsortToIndices.Permutes)
    (holds : LeaseHolds reader view lease admitted) :
    LosesNoVerdict sink reader view lease admitted ↔ WritesDocuments sink reader view lease :=
  ⟨documents_of_losesNoVerdict plain permutes holds, losesNoVerdict_of_documents plain permutes holds⟩

end Condition

def unsortedSink : SinkConfig where
  sorter := { onMissingColumn := .skip, keys := fun _ => [] }
  lexsortToIndices := fun _ => .error "no sort keys"
  formatters := stringFormatters
  unpackAttributes := false
  maxPayloadBytes := 20971520

theorem unsortedSink_permutes : unsortedSink.lexsortToIndices.Permutes := by
  intro values options rest indices sorted
  cases sorted

def twoRows (name : List UInt8) : Table := ⟨[name], [[.utf8 (ascii "x")], [.utf8 (ascii "y")]]⟩

def twoRowLease : Lease PlainBatch where
  id := ⟨7, .logs, 1, 1⟩
  batches := [⟨1, 2, []⟩]
  payloads := [.inMemory ⟨1, 2, []⟩]
  leased := [⟨1, 0, 2, 0, none⟩]
  numRows := 2
  byteSize := 0
  attempt := 0
  leasedAt := 0

def memoryReader : BatchReader PlainBatch where
  readFrameAt := fun _ _ _ => .error "no disk"
  concatBatches := fun _ _ => .error "one batch"

theorem twoRowLease_holds (name : List UInt8) :
    LeaseHolds memoryReader (fun _ => twoRows name) twoRowLease [twoRows name] where
  counted := rfl
  read := by
    intro batch _
    simp

theorem losesNoVerdict_iff_body :
    LosesNoVerdict unsortedSink memoryReader (fun _ => twoRows (ascii "body")) twoRowLease [twoRows (ascii "body")] := by
  apply (losesNoVerdict_iff stringFormatters_singleLine unsortedSink_permutes (twoRowLease_holds (ascii "body"))).mpr
  intro batch _ _ cells member rowBuf _ _ name written
  have named : name = ascii "body" := by
    simp only [twoRows, List.mem_cons, List.not_mem_nil, or_false] at member
    rcases member with rfl | rfl <;> simpa [twoRows, writtenNames] using written
  rw [named]
  decide

def splittingName : List UInt8 := ascii "a\":1\x7d\n\x7b\"create\":\x7b\x7d\x7d\n\x7b\"b"

def rejectSecond (document : Nat) : Nat := if document = 1 then 400 else 201

def inOrder : Schedule := ⟨fun _ => [], []⟩

def splitOutcome : LeaseOutcome :=
  (serverWorld rejectSecond).processLease unsortedSink inOrder .logs 2 (.ok (twoRows splittingName))

/-- The rejected half of the first row leads to the quarantine of the second row, and the lease is acknowledged. -/
theorem losesNoVerdict_splittingName :
    splitOutcome.resolution = .acked ∧
      splitOutcome.quarantined.flatMap Prod.snd = [(twoRows splittingName).slice 1 1] ∧
      ¬ LosesNoVerdict unsortedSink memoryReader (fun _ => twoRows splittingName) twoRowLease
        [twoRows splittingName] := by
  refine ⟨by decide +kernel, by decide +kernel, ?_⟩
  intro lossless
  have documented := documents_of_losesNoVerdict stringFormatters_singleLine unsortedSink_permutes
    (twoRowLease_holds splittingName) lossless
  have names := documented ⟨1, 2, []⟩ rfl (by decide)
  have short : (bulkAction ++ [123] ++ ([34] ++ splittingName ++ [34, 58] ++ writeEscapedString (ascii "x")) ++
      [125, newline]).length ≤ unsortedSink.maxPayloadBytes := by decide
  have broken := names [.utf8 (ascii "x")] (by simp [twoRows]) _ rfl short splittingName (by decide)
  exact broken (by decide)

end OtelDatalake.Elasticsearch
