import OtelDatalake.Elasticsearch.ChunkTasks

open OtelDatalake.Foundation OtelDatalake.Buffer

namespace OtelDatalake.Elasticsearch

/-- Arrow's sort returns each row number once. -/
def LexsortToIndices.Permutes (lexsortToIndices : LexsortToIndices) : Prop :=
  ∀ values options rest indices, lexsortToIndices ((values, options) :: rest) = .ok indices →
    indices.Perm (List.range values.length)

theorem BatchSorter.sortColumns_length {sorter : BatchSorter} {batch : Table} {keys : List NormalizedSortKey}
    {columns : List (List Cell × SortOptions)} (collected : sorter.sortColumns batch keys = .ok columns) :
    ∀ column ∈ columns, column.1.length = batch.rows.length := by
  induction keys generalizing columns with
  | nil =>
    cases collected
    simp
  | cons key rest ih =>
    unfold sortColumns at collected
    cases named : columnByName batch key.column with
    | some values =>
      rw [named] at collected
      cases others : sorter.sortColumns batch rest with
      | error reason => simp [others, Except.map] at collected
      | ok remaining =>
        simp only [others, Except.map, Except.ok.injEq] at collected
        subst collected
        intro column member
        rcases List.mem_cons.mp member with first | later
        · rw [first]
          unfold columnByName at named
          obtain ⟨position, -, rfl⟩ := Option.map_eq_some_iff.mp named
          simp
        · exact ih others column later
    | none =>
      rw [named] at collected
      cases missing : sorter.onMissingColumn with
      | error => simp [missing] at collected
      | skip =>
        simp only [missing] at collected
        exact ih collected

theorem BatchSorter.sort_perm {sorter : BatchSorter} {lexsortToIndices : LexsortToIndices}
    (permutes : lexsortToIndices.Permutes) {batch sortedBatch : Table} {signal : SignalKind}
    (sorted : sorter.sort lexsortToIndices batch signal = .ok sortedBatch) :
    sortedBatch.fields = batch.fields ∧ sortedBatch.rows.Perm batch.rows := by
  unfold sort at sorted
  by_cases small : batch.rows.length ≤ 1
  · rw [if_pos small] at sorted
    cases sorted
    exact ⟨rfl, .refl _⟩
  · rw [if_neg small] at sorted
    cases collected : sorter.sortColumns batch (sorter.keys signal) with
    | error reason => simp [collected] at sorted
    | ok columns =>
      cases columns with
      | nil =>
        rw [collected] at sorted
        cases sorted
        exact ⟨rfl, .refl _⟩
      | cons first rest =>
        have size := sortColumns_length collected first List.mem_cons_self
        rw [collected] at sorted
        cases lexsorted : lexsortToIndices (first :: rest) with
        | error reason => simp [lexsorted, Except.map] at sorted
        | ok indices =>
          simp only [lexsorted, Except.map, Except.ok.injEq] at sorted
          subst sorted
          refine ⟨rfl, ?_⟩
          have numbered := permutes first.1 first.2 rest indices lexsorted
          rw [size] at numbered
          have moved := numbered.map fun position => batch.rows.getD position []
          have all : ((List.range batch.rows.length).map fun position => batch.rows.getD position []) = batch.rows := by
            apply List.ext_getElem
            · simp
            · intro position inRange inRows
              simp [List.getElem?_eq_getElem inRows]
          rwa [all] at moved

theorem SinkConfig.prepareBatch_ok {sink : SinkConfig} (permutes : sink.lexsortToIndices.Permutes)
    {signal : SignalKind} {batch sortedBatch : Table} {chunks : List BulkChunk} {oversizedRows : List (Nat × Nat)}
    (prepared : sink.prepareBatch signal batch = .ok (sortedBatch, chunks, oversizedRows)) :
    sortedBatch.fields = batch.fields ∧ sortedBatch.rows.Perm batch.rows ∧
      serializeBatchChunksWithOversized sink.formatters sink.unpackAttributes sink.maxPayloadBytes sortedBatch =
        .ok (chunks, oversizedRows) := by
  unfold prepareBatch at prepared
  by_cases noRows : batch.rows.length = 0
  · rw [if_pos noRows] at prepared
    cases prepared
    have empty := List.length_eq_zero_iff.mp noRows
    exact ⟨rfl, .refl _, by simp [serializeBatchChunksWithOversized, empty, pure, Except.pure]⟩
  · rw [if_neg noRows] at prepared
    cases sorted : sink.sorter.sort sink.lexsortToIndices batch signal with
    | error reason => simp [sorted, bind, Except.bind] at prepared
    | ok result =>
      obtain ⟨fields, rows⟩ := BatchSorter.sort_perm permutes sorted
      simp only [sorted, bind, Except.bind] at prepared
      cases serialized : serializeBatchChunksWithOversized sink.formatters sink.unpackAttributes sink.maxPayloadBytes
          result with
      | error reason => simp [serialized] at prepared
      | ok pair =>
        obtain ⟨found, oversized⟩ := pair
        simp only [serialized, Except.ok.injEq, Prod.mk.injEq] at prepared
        obtain ⟨rfl, rfl, rfl⟩ := prepared
        exact ⟨fields, rows, serialized⟩

def SinkConfig.SingleLineNames (sink : SinkConfig) (batch : Table) : Prop :=
  ∀ cells ∈ batch.rows, ∀ rowBuf, serializeRow sink.formatters sink.unpackAttributes batch.fields cells = .ok rowBuf →
    rowBuf.length ≤ sink.maxPayloadBytes → ∀ name ∈ writtenNames (batch.fields.zip cells), newline ∉ name

/-- How one row of a batch ended: as an oversized row that was quarantined, or with the last item that its document was
    answered with, which is a success or was quarantined. -/
inductive RowEnded (world : SinkWorld) (sink : SinkConfig) (documents : List (List UInt8)) (chunks : List BulkChunk)
    (rejected : List Nat) (row : Nat) : Prop where
  | oversized (document : List UInt8) (found : documents[row]? = some document)
      (large : sink.maxPayloadBytes < document.length) (written : row ∈ rejected)
  | answered (position idx : Nat) (chunk : BulkChunk) (item : BulkItemWrapper) (found : chunks[position]? = some chunk)
      (bound : idx < chunk.rowCount) (same : chunk.startRow + idx = row)
      (sound : ∀ exchange ∈ (world.client.sendBulk (world.transport position) chunk.payload).2,
        exchange.Sound (world.transport position) (slice chunk.startRow chunk.rowCount documents))
      (last : HttpClient.lastVerdict (world.client.sendBulk (world.transport position) chunk.payload).2 idx = some item)
      (verdict : item.isSuccess = true ∧ row ∉ rejected ∨ item.isUnrecoverable = true ∧ row ∈ rejected)

/-- The rows in the dead-letter store are the rejected ones, each in one slice, and every row has ended. -/
def Settled (world : SinkWorld) (sink : SinkConfig) (sortedBatch : Table) (chunks : List BulkChunk)
    (outcome : LeaseOutcome) : Prop :=
  ∃ documents rejected,
    List.Forall₂ (fun cells rowBuf =>
      serializeRow sink.formatters sink.unpackAttributes sortedBatch.fields cells = .ok rowBuf)
        sortedBatch.rows documents ∧
    rejected.Nodup ∧ (∀ row ∈ rejected, row < sortedBatch.rows.length) ∧
    outcome.quarantined.flatMap Prod.snd = (rejected.map fun row => sortedBatch.slice row 1) ∧
    ∀ row < sortedBatch.rows.length, RowEnded world sink documents chunks rejected row

namespace SinkWorld

variable {world : SinkWorld} {sink : SinkConfig} {schedule : Schedule} {sortedBatch : Table}
  {documents : List (List UInt8)} {chunks : List BulkChunk} {oversizedRows : List (Nat × Nat)}

theorem Chunked.dispatchable (chunked : Chunked sink.formatters sink.unpackAttributes sink.maxPayloadBytes sortedBatch
    documents chunks oversizedRows) : Dispatchable chunks := by
  intro chunk member
  obtain ⟨counted, payload⟩ := chunked.chunk chunk member
  refine ⟨?_, counted⟩
  intro empty
  rw [payload, List.flatten_eq_nil_iff] at empty
  have size := chunked.chunk_length member
  have first : (slice chunk.startRow chunk.rowCount documents)[0] ∈ slice chunk.startRow chunk.rowCount documents :=
    List.getElem_mem (by omega)
  have listed : (slice chunk.startRow chunk.rowCount documents)[0] ∈ documents :=
    List.mem_of_mem_drop (List.mem_of_mem_take first)
  exact chunked.nonempty _ listed (empty _ first)

theorem oversizedRowNumbers_eq (chunked : Chunked sink.formatters sink.unpackAttributes sink.maxPayloadBytes
    sortedBatch documents chunks oversizedRows) :
    oversizedRowNumbers sortedBatch.rows.length oversizedRows = oversizedRows.map Prod.fst := by
  unfold oversizedRowNumbers
  apply List.filter_eq_self.mpr
  intro row member
  rw [decide_eq_true_eq, chunked.serialized.length_eq]
  exact chunked.row_lt (List.mem_append_right _ member)

theorem rejected_perm (chunked : Chunked sink.formatters sink.unpackAttributes sink.maxPayloadBytes sortedBatch documents
    chunks oversizedRows) {done : List TaskResult} {results : TaskResults} (recorded : Recorded done results)
    (perm : done.Perm (world.taskResults 0 chunks)) :
    (oversizedRowNumbers sortedBatch.rows.length oversizedRows ++
      (results.outcomes.mergeSort fun first second => first.1 ≤ second.1).flatMap
        (unrecoverableRows sortedBatch.rows.length)).Perm
      (oversizedRows.map Prod.fst ++
        (world.taskResults 0 chunks).flatMap (TaskResult.rejected sortedBatch.rows.length)) := by
  rw [oversizedRowNumbers_eq chunked, ← flatMap_rejected]
  apply List.Perm.append_left
  have sorted := List.mergeSort_perm results.outcomes fun first second => decide (first.1 ≤ second.1)
  have outcomes := perm.filterMap TaskResult.outcome?
  rw [← recorded.outcomes] at outcomes
  exact (sorted.trans outcomes).flatMap_right _

theorem rejected_nodup (world : SinkWorld)
    (chunked : Chunked sink.formatters sink.unpackAttributes sink.maxPayloadBytes sortedBatch
    documents chunks oversizedRows) :
    (oversizedRows.map Prod.fst ++
      (world.taskResults 0 chunks).flatMap (TaskResult.rejected sortedBatch.rows.length)).Nodup ∧
    ∀ row ∈ oversizedRows.map Prod.fst ++
      (world.taskResults 0 chunks).flatMap (TaskResult.rejected sortedBatch.rows.length),
        row < sortedBatch.rows.length := by
  have sub := (List.Sublist.refl (oversizedRows.map Prod.fst)).append
    (world.taskResults_rejected sortedBatch.rows.length 0 chunks)
  have all := List.perm_append_comm.trans chunked.rows
  constructor
  · exact (all.nodup_iff.mpr List.nodup_range).sublist sub
  · intro row member
    exact List.mem_range.mp (all.mem_iff.mp (sub.subset member))

theorem mem_rejected (chunked : Chunked sink.formatters sink.unpackAttributes sink.maxPayloadBytes sortedBatch documents
    chunks oversizedRows) {position row : Nat} {chunk : BulkChunk} (found : chunks[position]? = some chunk)
    (inChunk : row ∈ chunk.rows) :
    row ∈ oversizedRows.map Prod.fst ++
        (world.taskResults 0 chunks).flatMap (TaskResult.rejected sortedBatch.rows.length) ↔
      row ∈ (world.runTask position chunk).rejected sortedBatch.rows.length := by
  have listed : row ∈ chunks.flatMap BulkChunk.rows :=
    List.mem_flatMap.mpr ⟨chunk, List.mem_of_getElem? found, inChunk⟩
  obtain ⟨disjoint, -, apart⟩ := List.nodup_append.mp chunked.nodup
  rw [List.mem_append, List.mem_flatMap]
  constructor
  · rintro (large | ⟨result, spawned, rejected⟩)
    · exact absurd rfl (apart row listed row large)
    · obtain ⟨other, chunk', found', rfl⟩ := mem_taskResults.mp spawned
      have inOther := (world.runTask_rejected sortedBatch.rows.length other chunk').subset rejected
      have same := position_unique disjoint found found' inChunk inOther
      subst same
      rw [found, Option.some.injEq] at found'
      subst found'
      exact rejected
  · intro rejected
    exact .inr ⟨_, world.runTask_mem found, rejected⟩

section Acked

variable (plain : sink.formatters.SingleLine) (answers : ∀ position, HttpClient.AnswersEach (world.transport position))
  (names : sink.SingleLineNames sortedBatch)
  (chunked : Chunked sink.formatters sink.unpackAttributes sink.maxPayloadBytes sortedBatch documents chunks
    oversizedRows)
include plain answers names chunked

theorem chunk_answered {position : Nat} {chunk : BulkChunk} (member : chunk ∈ chunks) :
    HttpClient.Answered (world.transport position) (slice chunk.startRow chunk.rowCount documents)
      (world.client.sendBulk (world.transport position) chunk.payload).1
      (world.client.sendBulk (world.transport position) chunk.payload).2 := by
  obtain ⟨counted, payload⟩ := chunked.chunk chunk member
  have size := chunked.chunk_length member
  rw [payload]
  apply HttpClient.sendBulk_answered (answers position)
  · intro empty
    rw [empty, List.length_nil] at size
    omega
  · intro document listed
    obtain ⟨fits, cells, inRows, written⟩ := chunked.chunk_document member listed
    exact serializeRow_isDocument plain written (names cells inRows document written fits)

theorem chunk_row_ended {rejected : List Nat} {position idx : Nat} {chunk : BulkChunk}
    (found : chunks[position]? = some chunk) (bound : idx < chunk.rowCount)
    (clean : (world.runTask position chunk).isFailure = false)
    (listed : chunk.startRow + idx ∈ rejected ↔
      chunk.startRow + idx ∈ (world.runTask position chunk).rejected sortedBatch.rows.length) :
    RowEnded world sink documents chunks rejected (chunk.startRow + idx) := by
  have member := List.mem_of_getElem? found
  have answered : HttpClient.Answered (world.transport position) _ _ _ :=
    chunk_answered plain answers names chunked member
  have size := chunked.chunk_length member
  have inBatch : chunk.startRow + idx < sortedBatch.rows.length := by
    rw [chunked.serialized.length_eq]
    have inside := chunked.chunk_bound member
    omega
  unfold runTask at clean listed
  cases panicked : world.panicked position with
  | some joinErr => simp [panicked, TaskResult.isFailure] at clean
  | none =>
    cases sent : (world.client.sendBulk (world.transport position) chunk.payload).1 with
    | error err => simp [panicked, sent, TaskResult.isFailure] at clean
    | ok response =>
      rw [sent] at answered
      have count : response.items.length = chunk.rowCount := (answered.items response rfl).trans size
      have inItems : idx < response.items.length := count ▸ bound
      have last := answered.verdict response rfl idx (by rw [size]; exact bound)
      rw [List.getElem?_eq_getElem inItems] at last
      have inList : response.items[idx] ∈ response.items := List.getElem_mem inItems
      have settled : response.items[idx].isRecoverable = false := by
        simp only [panicked, sent, TaskResult.isFailure] at clean
        have none : (response.items.filter BulkItemWrapper.isRecoverable).length = 0 :=
          Nat.eq_zero_of_not_pos (of_decide_eq_false clean)
        exact Bool.eq_false_iff.mpr (List.filter_eq_nil_iff.mp (List.length_eq_zero_iff.mp none) _ inList)
      have rejection : chunk.startRow + idx ∈ rejected ↔ response.items[idx].isUnrecoverable = true := by
        rw [listed]
        simp only [panicked, sent, TaskResult.rejected, TaskResult.outcome?, Option.map_some, Option.getD_some,
          mem_unrecoverableRows]
        constructor
        · rintro ⟨other, item, atOther, failed, -, -, same⟩
          have equal : other = idx := by omega
          rw [equal, List.getElem?_eq_getElem inItems, Option.some.injEq] at atOther
          rwa [atOther]
        · intro failed
          exact ⟨idx, _, List.getElem?_eq_getElem inItems, failed, bound, inBatch, rfl⟩
      apply RowEnded.answered position idx chunk response.items[idx] found bound rfl answered.sound last
      by_cases failed : response.items[idx].isUnrecoverable = true
      · exact .inr ⟨failed, rejection.mpr failed⟩
      · have status := answered.status _ inList
        exact .inl ⟨BulkItemWrapper.isSuccess_of_status status settled (Bool.eq_false_iff.mpr failed),
          fun present => failed (rejection.mp present)⟩

theorem settleResults_settled {done : List TaskResult} {results : TaskResults} (recorded : Recorded done results)
    (perm : done.Perm (world.taskResults 0 chunks))
    (acked : (world.settleResults sink sortedBatch oversizedRows results).resolution = .acked) :
    Settled world sink sortedBatch chunks (world.settleResults sink sortedBatch oversizedRows results) := by
  obtain ⟨clean, written⟩ := settleResults_acked recorded acked
  have rejections := rejected_perm chunked recorded perm
  obtain ⟨distinct, bounds⟩ := rejected_nodup world chunked
  refine ⟨documents, _, chunked.serialized, rejections.nodup_iff.mpr distinct, ?_, written, ?_⟩
  · intro row member
    exact bounds row (rejections.mem_iff.mp member)
  · intro row bound
    have placed := chunked.rows.mem_iff.mpr (List.mem_range.mpr bound)
    rcases List.mem_append.mp placed with inChunks | large
    · obtain ⟨chunk, member, inChunk⟩ := List.mem_flatMap.mp inChunks
      obtain ⟨position, found⟩ := List.mem_iff_getElem?.mp member
      obtain ⟨low, high⟩ := List.mem_range'_1.mp inChunk
      obtain ⟨idx, rfl⟩ := Nat.exists_eq_add_of_le low
      have task := world.runTask_mem found
      apply chunk_row_ended plain answers names chunked found (by omega) (clean _ (perm.mem_iff.mpr task))
      rw [rejections.mem_iff, mem_rejected chunked found inChunk]
    · obtain ⟨entry, listed, rfl⟩ := List.mem_map.mp large
      obtain ⟨document, found, -, exceeds⟩ := chunked.exceeding entry listed
      apply RowEnded.oversized document found exceeds
      rw [rejections.mem_iff]
      exact List.mem_append_left _ large

theorem processPrepared_settled
    (acked : (world.processPrepared sink schedule sortedBatch chunks oversizedRows).resolution = .acked) :
    Settled world sink sortedBatch chunks
      (world.processPrepared sink schedule sortedBatch chunks oversizedRows) := by
  unfold processPrepared at acked ⊢
  by_cases none : chunks = []
  · simp only [if_pos none] at acked ⊢
    rw [oversizedRowNumbers_eq chunked] at acked ⊢
    have written := quarantineAndAck_acked acked
    obtain ⟨distinct, bounds⟩ := rejected_nodup world chunked
    have alone : (world.taskResults 0 chunks).flatMap (TaskResult.rejected sortedBatch.rows.length) = [] := by
      simp [none, taskResults]
    rw [alone, List.append_nil] at distinct bounds
    refine ⟨documents, _, chunked.serialized, distinct, bounds, written, ?_⟩
    intro row bound
    have placed := chunked.rows.mem_iff.mpr (List.mem_range.mpr bound)
    rw [none, List.flatMap_nil, List.nil_append] at placed
    obtain ⟨entry, listed, rfl⟩ := List.mem_map.mp placed
    obtain ⟨document, found, -, exceeds⟩ := chunked.exceeding entry listed
    exact .oversized document found exceeds placed
  · simp only [if_neg none] at acked ⊢
    cases dispatched : world.dispatchAll schedule 0 chunks {} with
    | error reason =>
      rw [dispatched] at acked
      cases acked
    | ok set =>
      rw [dispatched] at acked
      have holds := dispatchAll_holds (Chunked.dispatchable chunked) JoinSet.Holds.init dispatched
      obtain ⟨done, recorded, perm⟩ := holds.drain schedule.atDrain
      exact settleResults_settled plain answers names chunked recorded perm acked

end Acked

theorem processPrepared_nacked (chunked : Chunked sink.formatters sink.unpackAttributes sink.maxPayloadBytes sortedBatch
    documents chunks oversizedRows) {position : Nat} {chunk : BulkChunk} (found : chunks[position]? = some chunk)
    (failed : (world.runTask position chunk).isFailure = true) :
    ∃ failure, (world.processPrepared sink schedule sortedBatch chunks oversizedRows).resolution = .nacked failure := by
  unfold processPrepared
  have some : chunks ≠ [] := List.ne_nil_of_mem (List.mem_of_getElem? found)
  rw [if_neg some]
  cases dispatched : world.dispatchAll schedule 0 chunks {} with
  | error reason => exact ⟨_, rfl⟩
  | ok set =>
    have holds := dispatchAll_holds (Chunked.dispatchable chunked) JoinSet.Holds.init dispatched
    obtain ⟨done, recorded, perm⟩ := holds.drain schedule.atDrain
    have task := world.runTask_mem found
    exact settleResults_nacked recorded (perm.mem_iff.mpr task) failed

theorem processPrepared_severity (chunked : Chunked sink.formatters sink.unpackAttributes sink.maxPayloadBytes
    sortedBatch documents chunks oversizedRows) (other : Schedule) :
    (world.processPrepared sink schedule sortedBatch chunks oversizedRows).resolution.severity =
      (world.processPrepared sink other sortedBatch chunks oversizedRows).resolution.severity := by
  unfold processPrepared
  by_cases none : chunks = []
  · simp only [if_pos none]
  · simp only [if_neg none]
    cases dispatched : world.dispatchAll schedule 0 chunks {} with
    | error reason => rw [dispatchAll_refused other {} dispatched]
    | ok set =>
      cases dispatched' : world.dispatchAll other 0 chunks {} with
      | error reason =>
        have refused := dispatchAll_refused schedule {} dispatched'
        rw [dispatched] at refused
        cases refused
      | ok set' =>
        have full := Chunked.dispatchable chunked
        obtain ⟨done, recorded, perm⟩ := (dispatchAll_holds full JoinSet.Holds.init dispatched).drain schedule.atDrain
        obtain ⟨done', recorded', perm'⟩ := (dispatchAll_holds full JoinSet.Holds.init dispatched').drain other.atDrain
        apply settleResults_severity recorded recorded' (perm.trans perm'.symm)
        have disjoint := (List.nodup_append.mp chunked.nodup).1
        have outcomes := perm.filterMap TaskResult.outcome?
        rw [← recorded.outcomes] at outcomes
        intro outcome member second member' same
        exact outcomes_distinct disjoint full outcome (outcomes.mem_iff.mp member) second
          (outcomes.mem_iff.mp member') same

end SinkWorld

end OtelDatalake.Elasticsearch
