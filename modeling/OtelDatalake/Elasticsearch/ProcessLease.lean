import Mathlib.Data.List.Sort
import OtelDatalake.Buffer.Passthrough
import OtelDatalake.Foundation.Text
import OtelDatalake.Elasticsearch.BulkClient

open OtelDatalake.Foundation OtelDatalake.Buffer

namespace OtelDatalake.Elasticsearch

def Table.slice (batch : Table) (offset length : Nat) : Table :=
  { batch with rows := Foundation.slice offset length batch.rows }

structure SortOptions where
  descending : Bool
  nullsFirst : Bool
  deriving DecidableEq, Repr

structure NormalizedSortKey where
  column : String
  options : SortOptions
  deriving DecidableEq, Repr

inductive MissingColumnAction where
  | error
  | skip
  deriving DecidableEq, Repr

structure BatchSorter where
  onMissingColumn : MissingColumnAction
  keys : SignalKind → List NormalizedSortKey

/-- Arrow's `lexsort_to_indices`. -/
abbrev LexsortToIndices := List (List Cell × SortOptions) → Except String (List Nat)

namespace BatchSorter

def columnByName (batch : Table) (column : String) : Option (List Cell) :=
  (batch.fields.idxOf? column.toUTF8.toList).map fun position => batch.rows.map fun row => row.getD position .null

def sortColumns (sorter : BatchSorter) (batch : Table) :
    List NormalizedSortKey → Except String (List (List Cell × SortOptions))
  | [] => .ok []
  | key :: rest =>
    match columnByName batch key.column with
    | some values => (sorter.sortColumns batch rest).map ((values, key.options) :: ·)
    | none =>
      match sorter.onMissingColumn with
      | .error => .error ("internal error: Missing configured sort column '" ++ key.column ++ "'")
      | .skip => sorter.sortColumns batch rest

def sort (sorter : BatchSorter) (lexsortToIndices : LexsortToIndices) (batch : Table) (signal : SignalKind) :
    Except String Table :=
  if batch.rows.length ≤ 1 then .ok batch
  else
    match sorter.sortColumns batch (sorter.keys signal) with
    | .error reason => .error reason
    | .ok [] => .ok batch
    | .ok (first :: rest) =>
      (lexsortToIndices (first :: rest)).map fun indices =>
        { batch with rows := indices.map fun position => batch.rows.getD position [] }

end BatchSorter

/-- The fields of the sink that `process_lease` is called with, and what it calls of other packages. -/
structure SinkConfig where
  sorter : BatchSorter
  lexsortToIndices : LexsortToIndices
  formatters : Formatters
  unpackAttributes : Bool
  maxPayloadBytes : Nat

/-- The closure that `Lease::prepare` runs on the batches of the lease. -/
def SinkConfig.prepareBatch (sink : SinkConfig) (signal : SignalKind) (batch : Table) :
    Except String (Table × List BulkChunk × List (Nat × Nat)) :=
  if batch.rows.length = 0 then .ok (batch, [], [])
  else do
    let sortedBatch ← sink.sorter.sort sink.lexsortToIndices batch signal
    match serializeBatchChunksWithOversized sink.formatters sink.unpackAttributes sink.maxPayloadBytes sortedBatch with
    | .error reason => .error ("storage error: serialization error: " ++ reason)
    | .ok (chunks, oversizedRows) => .ok (sortedBatch, chunks, oversizedRows)

def classifyElasticsearchError (err : ElasticsearchError) : FailureClass :=
  match err with
  | .authenticationFailed _ => .fatal (String.ofList err.display)
  | .http _ => .transient
  | .bulkFailed _ message =>
    if (["HTTP 429", "HTTP 500", "HTTP 502", "HTTP 503", "HTTP 504", "network error"].any fun start =>
        start.toList.isPrefixOf message) || containsText message "recoverable status (429/500/503)".toList then
      .transient
    else .rejected (String.ofList err.display)
  | .serialization _ | .payloadTooLarge _ _ | .startupValidation _ => .rejected (String.ofList err.display)

def failureClassSeverity : FailureClass → Nat
  | .transient => 1
  | .rejected _ => 2
  | .fatal _ => 3

inductive TaskResult where
  | joined (startRow rowCount : Nat) (result : Except ElasticsearchError BulkResponse)
  | failed (joinErr : String)

/-- The accumulators of the results of the chunk tasks. -/
structure TaskResults where
  outcomes : List (Nat × Nat × BulkResponse) := []
  firstEsErr : Option ElasticsearchError := none
  firstJoinErr : Option String := none

def recordTaskResult (results : TaskResults) : TaskResult → TaskResults
  | .joined startRow rowCount (.ok response) =>
    { results with outcomes := results.outcomes ++ [(startRow, rowCount, response)] }
  | .joined _ _ (.error esErr) =>
    let replace := match results.firstEsErr with
      | none => true
      | some existing => decide (failureClassSeverity (classifyElasticsearchError existing) <
          failureClassSeverity (classifyElasticsearchError esErr))
    if replace then { results with firstEsErr := some esErr } else results
  | .failed joinErr =>
    if results.firstJoinErr.isNone then
      { results with firstJoinErr := some ("internal error: Bulk dispatch task failed: " ++ joinErr) }
    else results

inductive Resolution where
  | acked
  | nacked (failure : FailureClass)
  deriving DecidableEq, Repr

/-- What surrounds one call of `process_lease`: the answers to each chunk task, the tasks that panic, the permits that
    are refused, the dead-letter store and the results of resolving the lease. -/
structure SinkWorld where
  client : HttpClient
  transport : (chunk : Nat) → HttpClient.Transport
  panicked : (chunk : Nat) → Option String
  refused : (chunk : Nat) → Option String
  writeQuarantine : (reason : String) → List Table → Except String Unit
  resolve : Resolution → Except String Unit

/-- The order in which tasks complete: the positions in the join set of those that are joined before each dispatch, and
    of those that are joined first when the set is drained. -/
structure Schedule where
  beforeDispatch : (chunk : Nat) → List Nat
  atDrain : List Nat

/-- A join set, as the results that its tasks end with, and the results that were recorded. -/
structure JoinSet where
  tasks : List TaskResult := []
  results : TaskResults := {}

namespace JoinSet

def joinNext (set : JoinSet) (position : Nat) : JoinSet :=
  match set.tasks[position]? with
  | none => set
  | some result => { tasks := set.tasks.eraseIdx position, results := recordTaskResult set.results result }

def joinAll (set : JoinSet) (order : List Nat) : JoinSet := order.foldl joinNext set

def drain (set : JoinSet) (order : List Nat) : TaskResults :=
  let joined := set.joinAll order
  joined.tasks.foldl recordTaskResult joined.results

end JoinSet

def SinkWorld.runTask (world : SinkWorld) (position : Nat) (chunk : BulkChunk) : TaskResult :=
  match world.panicked position with
  | some joinErr => .failed joinErr
  | none => .joined chunk.startRow chunk.rowCount (world.client.sendBulk (world.transport position) chunk.payload).1

def SinkWorld.dispatch (world : SinkWorld) (schedule : Schedule) (position : Nat) (chunk : BulkChunk)
    (set : JoinSet) : Except String JoinSet :=
  if chunk.payload = [] ∨ chunk.rowCount = 0 then .ok set
  else
    let joined := set.joinAll (schedule.beforeDispatch position)
    match world.refused position with
    | some reason => .error ("internal error: Failed to acquire semaphore permit: " ++ reason)
    | none => .ok { joined with tasks := joined.tasks ++ [world.runTask position chunk] }

def SinkWorld.dispatchAll (world : SinkWorld) (schedule : Schedule) :
    (position : Nat) → List BulkChunk → JoinSet → Except String JoinSet
  | _, [], set => .ok set
  | position, chunk :: rest, set => do
    let next ← world.dispatch schedule position chunk set
    world.dispatchAll schedule (position + 1) rest next

/-- The writes to the dead-letter store, the call that resolved the lease and the result. -/
structure LeaseOutcome where
  quarantined : List (String × List Table) := []
  resolution : Resolution
  result : Except String Unit

def oversizedReason (maxPayloadBytes : Nat) (entry : Nat × Nat) : String :=
  "oversized record (" ++ toString entry.2 ++ " bytes > max_payload_bytes " ++ toString maxPayloadBytes ++ ")"

def itemReason (item : BulkItemWrapper) : String :=
  "item " ++ toString (item.status.getD 400) ++ ": " ++ (item.error.map BulkItemError.errorType).getD "unknown" ++
    ": " ++ (item.error.map BulkItemError.reason).getD "unrecoverable bulk item error"

def oversizedRowNumbers (numRows : Nat) (oversizedRows : List (Nat × Nat)) : List Nat :=
  (oversizedRows.map Prod.fst).filter fun row => row < numRows

def unrecoverableRows (numRows : Nat) (outcome : Nat × Nat × BulkResponse) : List Nat :=
  outcome.2.2.items.zipIdx.filterMap fun entry =>
    if entry.1.isUnrecoverable && entry.2 < outcome.2.1 && outcome.1 + entry.2 < numRows then some (outcome.1 + entry.2)
    else none

namespace SinkWorld

def nack (world : SinkWorld) (failure : FailureClass) (result : Except String Unit) : LeaseOutcome :=
  { resolution := .nacked failure, result := (world.resolve (.nacked failure)).bind fun _ => result }

def nackFatal (reason : String) : LeaseOutcome :=
  { resolution := .nacked (.fatal reason), result := .error reason }

def quarantineAndAck (world : SinkWorld) (reason : String) (sortedBatch : Table) (rejected : List Nat) :
    LeaseOutcome :=
  let rejectedSlices := rejected.map fun row => sortedBatch.slice row 1
  if rejectedSlices = [] then { resolution := .acked, result := world.resolve .acked }
  else
    match world.writeQuarantine reason rejectedSlices with
    | .error reason => nackFatal reason
    | .ok () =>
      { quarantined := [(reason, rejectedSlices)], resolution := .acked, result := world.resolve .acked }

def settleResults (world : SinkWorld) (sink : SinkConfig) (sortedBatch : Table) (oversizedRows : List (Nat × Nat))
    (results : TaskResults) : LeaseOutcome :=
  match results.firstJoinErr with
  | some joinErr => nackFatal joinErr
  | none =>
    match results.firstEsErr with
    | some esErr =>
      let failure := classifyElasticsearchError esErr
      world.nack failure (match failure with
        | .fatal _ => .error ("storage error: " ++ String.ofList esErr.display)
        | _ => .ok ())
    | none =>
      let outcomes := results.outcomes.mergeSort fun first second => first.1 ≤ second.1
      if outcomes.any fun outcome => 0 < outcome.2.2.recoverableCount then world.nack .transient (.ok ())
      else
        let reasons := oversizedRows.map (oversizedReason sink.maxPayloadBytes) ++ outcomes.flatMap fun outcome =>
          (outcome.2.2.items.filter BulkItemWrapper.isUnrecoverable).map itemReason
        world.quarantineAndAck (reasons.head?.getD "item 400: unrecoverable bulk item error") sortedBatch
          (oversizedRowNumbers sortedBatch.rows.length oversizedRows ++
            outcomes.flatMap (unrecoverableRows sortedBatch.rows.length))

def processPrepared (world : SinkWorld) (sink : SinkConfig) (schedule : Schedule) (sortedBatch : Table)
    (chunks : List BulkChunk) (oversizedRows : List (Nat × Nat)) : LeaseOutcome :=
  if chunks = [] then
    world.quarantineAndAck
      ((oversizedRows.map (oversizedReason sink.maxPayloadBytes)).head?.getD "oversized bulk item record") sortedBatch
      (oversizedRowNumbers sortedBatch.rows.length oversizedRows)
  else
    match world.dispatchAll schedule 0 chunks {} with
    | .error reason => nackFatal reason
    | .ok set => world.settleResults sink sortedBatch oversizedRows (set.drain schedule.atDrain)

/-- `prepared` is the result of reading and joining the batches of the lease, which `Lease::prepare` starts with. -/
def processLease (world : SinkWorld) (sink : SinkConfig) (schedule : Schedule) (signal : SignalKind) (numRows : Nat)
    (prepared : Except String Table) : LeaseOutcome :=
  if numRows = 0 then { resolution := .acked, result := world.resolve .acked }
  else
    match prepared.bind (sink.prepareBatch signal) with
    | .error reason => nackFatal reason
    | .ok (sortedBatch, chunks, oversizedRows) => world.processPrepared sink schedule sortedBatch chunks oversizedRows

end SinkWorld

end OtelDatalake.Elasticsearch
