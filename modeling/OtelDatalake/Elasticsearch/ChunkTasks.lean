import OtelDatalake.Elasticsearch.ProcessLease

open OtelDatalake.Foundation OtelDatalake.Buffer

namespace OtelDatalake.Elasticsearch

namespace TaskResult

def outcome? : TaskResult → Option (Nat × Nat × BulkResponse)
  | .joined startRow rowCount (.ok response) => some (startRow, rowCount, response)
  | _ => none

def esErr? : TaskResult → Option ElasticsearchError
  | .joined _ _ (.error esErr) => some esErr
  | _ => none

def isJoinError : TaskResult → Bool
  | .failed _ => true
  | .joined _ _ _ => false

def isFailure : TaskResult → Bool
  | .failed _ => true
  | .joined _ _ (.error _) => true
  | .joined _ _ (.ok response) => 0 < response.recoverableCount

end TaskResult

def Resolution.severity : Resolution → Option Nat
  | .acked => none
  | .nacked failure => some (failureClassSeverity failure)

def errorSeverity (err : ElasticsearchError) : Nat := failureClassSeverity (classifyElasticsearchError err)

structure Recorded (done : List TaskResult) (results : TaskResults) : Prop where
  outcomes : results.outcomes = done.filterMap TaskResult.outcome?
  joinErr : results.firstJoinErr.isSome ↔ ∃ result ∈ done, result.isJoinError = true
  someErr : results.firstEsErr.isSome ↔ ∃ result ∈ done, result.esErr?.isSome
  esErr : ∀ err ∈ results.firstEsErr, (∃ result ∈ done, result.esErr? = some err) ∧
    ∀ result ∈ done, ∀ other ∈ result.esErr?, errorSeverity other ≤ errorSeverity err

theorem Recorded.init : Recorded [] {} where
  outcomes := rfl
  joinErr := by simp
  someErr := by simp
  esErr := by simp

namespace Recorded

variable {done : List TaskResult} {results : TaskResults}

def Highest (done : List TaskResult) (err : ElasticsearchError) : Prop :=
  ∀ result ∈ done, ∀ other ∈ result.esErr?, errorSeverity other ≤ errorSeverity err

theorem Highest.append {err : ElasticsearchError} (highest : Highest done err) {result : TaskResult}
    (new : ∀ other ∈ result.esErr?, errorSeverity other ≤ errorSeverity err) : Highest (done ++ [result]) err := by
  intro other member
  rcases List.mem_append.mp member with old | own
  · exact highest other old
  · rw [List.mem_singleton.mp own]
    exact new

theorem esErr_append (recorded : Recorded done results) {result : TaskResult} (noErr : result.esErr? = none) :
    (results.firstEsErr.isSome ↔ ∃ other ∈ done ++ [result], other.esErr?.isSome) ∧
      ∀ err ∈ results.firstEsErr, (∃ other ∈ done ++ [result], other.esErr? = some err) ∧
        Highest (done ++ [result]) err := by
  constructor
  · rw [recorded.someErr]
    simp [or_and_right, exists_or, noErr]
  · intro err member
    obtain ⟨⟨found, inDone, same⟩, highest⟩ := recorded.esErr err member
    refine ⟨⟨found, List.mem_append_left _ inDone, same⟩, Highest.append highest ?_⟩
    rw [noErr]
    simp

theorem record_failed (recorded : Recorded done results) (joinErr : String) :
    Recorded (done ++ [.failed joinErr]) (recordTaskResult results (.failed joinErr)) := by
  have noErr : (TaskResult.failed joinErr).esErr? = none := rfl
  obtain ⟨someErr, esErr⟩ := recorded.esErr_append noErr
  have outcomes := recorded.outcomes
  unfold recordTaskResult
  cases existing : results.firstJoinErr with
  | none =>
    simp only [Option.isNone_none, if_true]
    refine ⟨?_, ?_, someErr, esErr⟩
    · rw [outcomes]
      simp [TaskResult.outcome?]
    · simp [TaskResult.isJoinError]
  | some first =>
    simp only [Option.isNone_some, Bool.false_eq_true, if_false]
    refine ⟨?_, ?_, someErr, esErr⟩
    · rw [outcomes]
      simp [TaskResult.outcome?]
    · simp [existing, TaskResult.isJoinError]

theorem record_ok (recorded : Recorded done results) (startRow rowCount : Nat) (response : BulkResponse) :
    Recorded (done ++ [.joined startRow rowCount (.ok response)])
      (recordTaskResult results (.joined startRow rowCount (.ok response))) := by
  have noErr : (TaskResult.joined startRow rowCount (.ok response)).esErr? = none := rfl
  obtain ⟨someErr, esErr⟩ := recorded.esErr_append noErr
  refine ⟨?_, ?_, someErr, esErr⟩
  · simp only [recordTaskResult]
    rw [recorded.outcomes]
    simp [TaskResult.outcome?]
  · simp only [recordTaskResult, recorded.joinErr]
    simp [or_and_right, exists_or, TaskResult.isJoinError]

/-- An error replaces the one that is kept when it is the first or is worse. -/
theorem recordTaskResult_error (results : TaskResults) (startRow rowCount : Nat) (esErr : ElasticsearchError) :
    recordTaskResult results (.joined startRow rowCount (.error esErr)) =
      { results with firstEsErr := some (match results.firstEsErr with
        | none => esErr
        | some first => if errorSeverity first < errorSeverity esErr then esErr else first) } := by
  unfold recordTaskResult
  cases existing : results.firstEsErr with
  | none => simp
  | some first =>
    by_cases worse : errorSeverity first < errorSeverity esErr
    · have replaced := decide_eq_true worse
      unfold errorSeverity at replaced
      simp only [replaced, if_true, if_pos worse]
    · have unreplaced := decide_eq_false worse
      unfold errorSeverity at unreplaced
      simp only [unreplaced, Bool.false_eq_true, if_false, if_neg worse]
      rw [← existing]

theorem record_error (recorded : Recorded done results) (startRow rowCount : Nat) (esErr : ElasticsearchError) :
    Recorded (done ++ [.joined startRow rowCount (.error esErr)])
      (recordTaskResult results (.joined startRow rowCount (.error esErr))) := by
  set result := TaskResult.joined startRow rowCount (.error esErr) with result_eq
  have ownErr : result.esErr? = some esErr := rfl
  have inAll : result ∈ done ++ [result] := by simp
  rw [recordTaskResult_error]
  constructor
  · rw [recorded.outcomes]
    simp [TaskResult.outcome?, result_eq]
  · rw [recorded.joinErr]
    simp [or_and_right, exists_or, TaskResult.isJoinError, result_eq]
  · have found : ∃ other ∈ done ++ [result], other.esErr?.isSome := ⟨result, inAll, by rw [ownErr]; rfl⟩
    simpa using found
  · rintro err ⟨rfl⟩
    cases existing : results.firstEsErr with
    | none =>
      have noneEarlier : Highest done esErr := by
        intro other old earlier isErr
        have some := recorded.someErr.mpr ⟨other, old, Option.isSome_iff_exists.mpr ⟨earlier, isErr⟩⟩
        rw [existing] at some
        cases some
      refine ⟨⟨result, inAll, ownErr⟩, Highest.append noneEarlier ?_⟩
      rintro other ⟨rfl⟩
      exact Nat.le_refl _
    | some first =>
      obtain ⟨⟨found, inDone, same⟩, highest⟩ := recorded.esErr first existing
      by_cases worse : errorSeverity first < errorSeverity esErr
      · simp only [if_pos worse]
        have highestNow : Highest done esErr := fun other old earlier isErr =>
          (highest other old earlier isErr).trans (Nat.le_of_lt worse)
        refine ⟨⟨result, inAll, ownErr⟩, Highest.append highestNow ?_⟩
        rintro other ⟨rfl⟩
        exact Nat.le_refl _
      · simp only [if_neg worse]
        refine ⟨⟨found, List.mem_append_left _ inDone, same⟩, Highest.append highest ?_⟩
        rintro other ⟨rfl⟩
        exact Nat.not_lt.mp worse

theorem record (recorded : Recorded done results) (result : TaskResult) :
    Recorded (done ++ [result]) (recordTaskResult results result) := by
  cases result with
  | failed joinErr => exact recorded.record_failed joinErr
  | joined startRow rowCount sent =>
    cases sent with
    | ok response => exact recorded.record_ok startRow rowCount response
    | error esErr => exact recorded.record_error startRow rowCount esErr

end Recorded

theorem Recorded.foldl (rest : List TaskResult) {done : List TaskResult} {results : TaskResults}
    (recorded : Recorded done results) : Recorded (done ++ rest) (rest.foldl recordTaskResult results) := by
  induction rest generalizing done results with
  | nil => simpa using recorded
  | cons result rest ih =>
    have next := ih (recorded.record result)
    simpa using next

/-- A join set into which the given tasks were spawned, whichever of them have been joined. -/
def JoinSet.Holds (set : JoinSet) (spawned : List TaskResult) : Prop :=
  ∃ done, Recorded done set.results ∧ (done ++ set.tasks).Perm spawned

namespace JoinSet

variable {set : JoinSet} {spawned : List TaskResult}

theorem Holds.init : Holds {} [] := ⟨[], Recorded.init, .nil⟩

theorem Holds.joinNext (holds : set.Holds spawned) (position : Nat) : (set.joinNext position).Holds spawned := by
  obtain ⟨done, recorded, perm⟩ := holds
  unfold JoinSet.joinNext
  cases found : set.tasks[position]? with
  | none => exact ⟨done, recorded, perm⟩
  | some result =>
    obtain ⟨bound, same⟩ := List.getElem?_eq_some_iff.mp found
    have split := (List.getElem_cons_eraseIdx_perm bound).symm
    rw [same] at split
    refine ⟨done ++ [result], recorded.record result, ?_⟩
    have regrouped := (split.append_left done).symm.trans perm
    simpa using regrouped

theorem Holds.joinAll (holds : set.Holds spawned) (order : List Nat) : (set.joinAll order).Holds spawned := by
  unfold JoinSet.joinAll
  induction order generalizing set with
  | nil => exact holds
  | cons position rest ih => exact ih (holds.joinNext position)

theorem Holds.spawn (holds : set.Holds spawned) (result : TaskResult) :
    ({ set with tasks := set.tasks ++ [result] } : JoinSet).Holds (spawned ++ [result]) := by
  obtain ⟨done, recorded, perm⟩ := holds
  refine ⟨done, recorded, ?_⟩
  rw [← List.append_assoc]
  exact perm.append_right [result]

theorem Holds.drain (holds : set.Holds spawned) (order : List Nat) :
    ∃ done, Recorded done (set.drain order) ∧ done.Perm spawned := by
  obtain ⟨done, recorded, perm⟩ := holds.joinAll order
  exact ⟨_, recorded.foldl _, perm⟩

end JoinSet

namespace SinkWorld

variable {world : SinkWorld} {sink : SinkConfig} {schedule : Schedule} {chunks : List BulkChunk}

def taskResults (world : SinkWorld) (position : Nat) (chunks : List BulkChunk) : List TaskResult :=
  (chunks.zipIdx position).map fun entry => world.runTask entry.2 entry.1

def Dispatchable (chunks : List BulkChunk) : Prop :=
  ∀ chunk ∈ chunks, chunk.payload ≠ [] ∧ 0 < chunk.rowCount

theorem dispatchAll_holds (full : Dispatchable chunks) {position : Nat} {set after : JoinSet}
    {spawned : List TaskResult} (holds : set.Holds spawned)
    (dispatched : world.dispatchAll schedule position chunks set = .ok after) :
    after.Holds (spawned ++ world.taskResults position chunks) := by
  induction chunks generalizing position set spawned with
  | nil =>
    cases dispatched
    simpa [taskResults] using holds
  | cons chunk rest ih =>
    obtain ⟨filled, counted⟩ := full chunk List.mem_cons_self
    have others : Dispatchable rest := fun other member => full other (List.mem_cons_of_mem _ member)
    have unskipped : ¬ (chunk.payload = [] ∨ chunk.rowCount = 0) := by
      rintro (empty | none)
      · exact filled empty
      · omega
    cases refused : world.refused position with
    | some reason => simp [dispatchAll, dispatch, unskipped, refused, bind, Except.bind] at dispatched
    | none =>
      simp only [dispatchAll, dispatch, if_neg unskipped, refused, bind, Except.bind] at dispatched
      have spawnedNext := (holds.joinAll (schedule.beforeDispatch position)).spawn (world.runTask position chunk)
      have run := ih others spawnedNext dispatched
      simpa [taskResults, List.zipIdx_cons] using run

theorem dispatchAll_refused {position : Nat} {set : JoinSet} {reason : String} (other : Schedule) (set' : JoinSet)
    (refused : world.dispatchAll schedule position chunks set = .error reason) :
    world.dispatchAll other position chunks set' = .error reason := by
  induction chunks generalizing position set set' with
  | nil => cases refused
  | cons chunk rest ih =>
    unfold dispatchAll dispatch at refused ⊢
    by_cases skipped : chunk.payload = [] ∨ chunk.rowCount = 0
    · simp only [if_pos skipped, bind, Except.bind] at refused ⊢
      exact ih set' refused
    · simp only [if_neg skipped] at refused ⊢
      cases permit : world.refused position with
      | some cause =>
        simp only [permit, bind, Except.bind] at refused ⊢
        exact refused
      | none =>
        simp only [permit, bind, Except.bind] at refused ⊢
        exact ih _ refused

theorem quarantineAndAck_acked {reason : String} {sortedBatch : Table} {rejected : List Nat}
    (acked : (world.quarantineAndAck reason sortedBatch rejected).resolution = .acked) :
    (world.quarantineAndAck reason sortedBatch rejected).quarantined.flatMap Prod.snd =
      rejected.map fun row => sortedBatch.slice row 1 := by
  unfold quarantineAndAck at acked ⊢
  by_cases none : (rejected.map fun row => sortedBatch.slice row 1) = []
  · simp only [none]
    rfl
  · simp only [if_neg none] at acked ⊢
    cases written : world.writeQuarantine reason (rejected.map fun row => sortedBatch.slice row 1) with
    | error reason =>
      rw [written] at acked
      cases acked
    | ok done => simp

/-- A lease is acknowledged when no task failed, and the slices of the rejected rows are written. -/
theorem settleResults_acked {done : List TaskResult} {results : TaskResults} (recorded : Recorded done results)
    {sortedBatch : Table} {oversizedRows : List (Nat × Nat)}
    (acked : (world.settleResults sink sortedBatch oversizedRows results).resolution = .acked) :
    (∀ result ∈ done, result.isFailure = false) ∧
      (world.settleResults sink sortedBatch oversizedRows results).quarantined.flatMap Prod.snd =
        (oversizedRowNumbers sortedBatch.rows.length oversizedRows ++
          (results.outcomes.mergeSort fun first second => first.1 ≤ second.1).flatMap
            (unrecoverableRows sortedBatch.rows.length)).map fun row => sortedBatch.slice row 1 := by
  unfold settleResults at acked ⊢
  cases joinErr : results.firstJoinErr with
  | some reason =>
    rw [joinErr] at acked
    cases acked
  | none =>
    cases esErr : results.firstEsErr with
    | some err =>
      simp only [joinErr, esErr] at acked
      cases acked
    | none =>
      simp only [joinErr, esErr] at acked ⊢
      by_cases recoverable : (results.outcomes.mergeSort fun first second => decide (first.1 ≤ second.1)).any
          (fun outcome => decide (0 < outcome.2.2.recoverableCount)) = true
      · simp only [if_pos recoverable] at acked
        cases acked
      · simp only [if_neg recoverable] at acked ⊢
        refine ⟨?_, quarantineAndAck_acked acked⟩
        intro result member
        cases result with
        | failed reason =>
          have present := recorded.joinErr.mpr ⟨_, member, rfl⟩
          rw [joinErr] at present
          cases present
        | joined startRow rowCount sent =>
          cases sent with
          | error err =>
            have present := recorded.someErr.mpr ⟨_, member, rfl⟩
            rw [esErr] at present
            cases present
          | ok response =>
            have listed : (startRow, rowCount, response) ∈ results.outcomes := by
              rw [recorded.outcomes]
              exact List.mem_filterMap.mpr ⟨_, member, rfl⟩
            rw [TaskResult.isFailure]
            by_contra failed
            apply recoverable
            rw [List.any_eq_true]
            refine ⟨_, List.mem_mergeSort.mpr listed, ?_⟩
            simpa [Nat.pos_iff_ne_zero] using failed

theorem settleResults_nacked {done : List TaskResult} {results : TaskResults} (recorded : Recorded done results)
    {sortedBatch : Table} {oversizedRows : List (Nat × Nat)} {result : TaskResult} (member : result ∈ done)
    (failed : result.isFailure = true) :
    ∃ failure, (world.settleResults sink sortedBatch oversizedRows results).resolution = .nacked failure := by
  cases resolved : (world.settleResults sink sortedBatch oversizedRows results).resolution with
  | nacked failure => exact ⟨failure, rfl⟩
  | acked =>
    have clean := (settleResults_acked recorded resolved).1 result member
    rw [failed] at clean
    cases clean

theorem mergeSort_outcomes {first second : List (Nat × Nat × BulkResponse)} (perm : first.Perm second)
    (distinct : ∀ outcome ∈ first, ∀ other ∈ first, outcome.1 = other.1 → outcome = other) :
    (first.mergeSort fun outcome other => outcome.1 ≤ other.1) =
      second.mergeSort fun outcome other => outcome.1 ≤ other.1 := by
  set order : Nat × Nat × BulkResponse → Nat × Nat × BulkResponse → Bool := fun outcome other => outcome.1 ≤ other.1
    with order_eq
  have trans : ∀ a b c, order a b = true → order b c = true → order a c = true := by
    intro a b c ab bc
    simp only [order_eq, decide_eq_true_eq] at ab bc ⊢
    exact Nat.le_trans ab bc
  have total : ∀ a b, (order a b || order b a) = true := by
    intro a b
    simp only [order_eq, Bool.or_eq_true, decide_eq_true_eq]
    exact Nat.le_total _ _
  have sorted := (List.mergeSort_perm first order).trans (perm.trans (List.mergeSort_perm second order).symm)
  apply List.Perm.eq_of_pairwise _ (List.pairwise_mergeSort trans total first)
    (List.pairwise_mergeSort trans total second) sorted
  intro outcome other inFirst inSecond before after
  have inBoth : other ∈ first := perm.mem_iff.mpr (List.mem_mergeSort.mp inSecond)
  apply distinct outcome (List.mem_mergeSort.mp inFirst) other inBoth
  simp only [order_eq, decide_eq_true_eq] at before after
  exact Nat.le_antisymm before after

theorem settleResults_severity {done other : List TaskResult} {results results' : TaskResults}
    (recorded : Recorded done results) (recorded' : Recorded other results') (perm : done.Perm other)
    (distinct : ∀ outcome ∈ results.outcomes, ∀ other ∈ results.outcomes, outcome.1 = other.1 → outcome = other)
    {sortedBatch : Table} {oversizedRows : List (Nat × Nat)} :
    (world.settleResults sink sortedBatch oversizedRows results).resolution.severity =
      (world.settleResults sink sortedBatch oversizedRows results').resolution.severity := by
  have joinErrs : results.firstJoinErr.isSome = results'.firstJoinErr.isSome := by
    rw [Bool.eq_iff_iff, recorded.joinErr, recorded'.joinErr]
    simp only [perm.mem_iff]
  have esErrs : results.firstEsErr.isSome = results'.firstEsErr.isSome := by
    rw [Bool.eq_iff_iff, recorded.someErr, recorded'.someErr]
    simp only [perm.mem_iff]
  have outcomes : results.outcomes.Perm results'.outcomes := by
    rw [recorded.outcomes, recorded'.outcomes]
    exact perm.filterMap _
  unfold settleResults
  rcases firstJoin : results.firstJoinErr with _ | reason <;> rcases secondJoin : results'.firstJoinErr with _ | reason'
  · rcases first : results.firstEsErr with _ | err <;> rcases second : results'.firstEsErr with _ | err'
    · simp only [mergeSort_outcomes outcomes distinct]
    · simp [first, second] at esErrs
    · simp [first, second] at esErrs
    · obtain ⟨⟨found, inDone, isErr⟩, highest⟩ := recorded.esErr err first
      obtain ⟨⟨found', inOther, isErr'⟩, highest'⟩ := recorded'.esErr err' second
      have below := highest found' (perm.mem_iff.mpr inOther) err' isErr'
      have above := highest' found (perm.mem_iff.mp inDone) err isErr
      exact congrArg some (Nat.le_antisymm above below)
  · simp [firstJoin, secondJoin] at joinErrs
  · simp [firstJoin, secondJoin] at joinErrs
  · rfl

end SinkWorld

theorem mem_unrecoverableRows {numRows startRow rowCount row : Nat} {response : BulkResponse} :
    row ∈ unrecoverableRows numRows (startRow, rowCount, response) ↔
      ∃ idx item, response.items[idx]? = some item ∧ item.isUnrecoverable = true ∧ idx < rowCount ∧
        startRow + idx < numRows ∧ startRow + idx = row := by
  simp only [unrecoverableRows, List.mem_filterMap, Prod.exists, List.mem_zipIdx_iff_getElem?,
    Option.ite_none_right_eq_some,
    Bool.and_eq_true, decide_eq_true_eq, Option.some.injEq]
  constructor
  · rintro ⟨item, idx, found, ⟨⟨failed, inChunk⟩, inBatch⟩, same⟩
    exact ⟨idx, item, found, failed, inChunk, inBatch, same⟩
  · rintro ⟨idx, item, found, failed, inChunk, inBatch, same⟩
    exact ⟨item, idx, found, ⟨⟨failed, inChunk⟩, inBatch⟩, same⟩

theorem unrecoverableRows_sublist (numRows startRow rowCount : Nat) (response : BulkResponse) :
    (unrecoverableRows numRows (startRow, rowCount, response)).Sublist (List.range' startRow rowCount) := by
  have general : ∀ (items : List BulkItemWrapper) (first : Nat),
      ((items.zipIdx first).filterMap fun entry =>
        if entry.1.isUnrecoverable && entry.2 < rowCount && startRow + entry.2 < numRows then
          some (startRow + entry.2) else none).Sublist (List.range' (startRow + first) (rowCount - first)) := by
    intro items
    induction items with
    | nil => simp
    | cons item rest ih =>
      intro first
      have later := ih (first + 1)
      rw [List.zipIdx_cons, List.filterMap_cons]
      by_cases inside : first < rowCount
      · obtain ⟨size, size_eq⟩ : ∃ size, rowCount - first = size + 1 := ⟨rowCount - first - 1, by omega⟩
        rw [size_eq, List.range'_succ]
        have tail : rowCount - (first + 1) = size := by omega
        rw [tail] at later
        split
        · exact later.cons _
        · next row chosen =>
          have same : startRow + first = row := by
            split at chosen
            · exact Option.some.inj chosen
            · cases chosen
          rw [← same]
          exact later.cons_cons _
      · have outside : (if (item.isUnrecoverable && decide (first < rowCount) &&
            decide (startRow + first < numRows)) = true then some (startRow + first) else none) = none := by
          simp [inside]
        rw [outside, show rowCount - first = 0 by omega]
        rw [show rowCount - (first + 1) = 0 by omega] at later
        exact later
  simpa [unrecoverableRows] using general response.items 0

def TaskResult.rejected (numRows : Nat) (result : TaskResult) : List Nat :=
  (result.outcome?.map (unrecoverableRows numRows)).getD []

theorem flatMap_rejected (numRows : Nat) (done : List TaskResult) :
    (done.filterMap TaskResult.outcome?).flatMap (unrecoverableRows numRows) =
      done.flatMap (TaskResult.rejected numRows) := by
  induction done with
  | nil => rfl
  | cons result rest ih =>
    rw [List.flatMap_cons, ← ih]
    cases outcome : result.outcome? with
    | none => simp [TaskResult.rejected, outcome]
    | some value => simp [TaskResult.rejected, outcome]

namespace SinkWorld

variable {world : SinkWorld} {sink : SinkConfig} {schedule : Schedule} {chunks : List BulkChunk}

theorem runTask_rejected (numRows position : Nat) (chunk : BulkChunk) :
    ((world.runTask position chunk).rejected numRows).Sublist chunk.rows := by
  unfold runTask
  cases world.panicked position with
  | some joinErr => exact List.nil_sublist _
  | none =>
    cases (world.client.sendBulk (world.transport position) chunk.payload).1 with
    | error err => exact List.nil_sublist _
    | ok response => exact unrecoverableRows_sublist numRows chunk.startRow chunk.rowCount response

theorem taskResults_rejected (numRows position : Nat) (chunks : List BulkChunk) :
    ((world.taskResults position chunks).flatMap (TaskResult.rejected numRows)).Sublist
      (chunks.flatMap BulkChunk.rows) := by
  induction chunks generalizing position with
  | nil => simp [taskResults]
  | cons chunk rest ih =>
    have later := ih (position + 1)
    have first := world.runTask_rejected numRows position chunk
    simpa [taskResults, List.zipIdx_cons] using first.append later

theorem mem_taskResults {result : TaskResult} :
    result ∈ world.taskResults 0 chunks ↔
      ∃ position chunk, chunks[position]? = some chunk ∧ world.runTask position chunk = result := by
  simp only [taskResults, List.mem_map, Prod.exists, List.mem_zipIdx_iff_getElem?]
  constructor
  · rintro ⟨chunk, position, found, same⟩
    exact ⟨position, chunk, found, same⟩
  · rintro ⟨position, chunk, found, same⟩
    exact ⟨chunk, position, found, same⟩

theorem runTask_mem (world : SinkWorld) {position : Nat} {chunk : BulkChunk}
    (found : chunks[position]? = some chunk) : world.runTask position chunk ∈ world.taskResults 0 chunks :=
  mem_taskResults.mpr ⟨position, chunk, found, rfl⟩

theorem position_unique (disjoint : (chunks.flatMap BulkChunk.rows).Nodup) {position other row : Nat}
    {chunk chunk' : BulkChunk} (found : chunks[position]? = some chunk) (found' : chunks[other]? = some chunk')
    (inFirst : row ∈ chunk.rows) (inSecond : row ∈ chunk'.rows) : position = other := by
  by_contra differ
  have pairwise := (List.nodup_flatMap.mp disjoint).2
  obtain ⟨bound, rfl⟩ := List.getElem?_eq_some_iff.mp found
  obtain ⟨bound', rfl⟩ := List.getElem?_eq_some_iff.mp found'
  rcases Nat.lt_or_gt_of_ne differ with before | after
  · exact List.pairwise_iff_getElem.mp pairwise position other bound bound' before inFirst inSecond
  · exact List.pairwise_iff_getElem.mp pairwise other position bound' bound after inSecond inFirst

theorem outcomes_distinct (disjoint : (chunks.flatMap BulkChunk.rows).Nodup) (full : Dispatchable chunks) :
    ∀ outcome ∈ (world.taskResults 0 chunks).filterMap TaskResult.outcome?,
      ∀ other ∈ (world.taskResults 0 chunks).filterMap TaskResult.outcome?, outcome.1 = other.1 → outcome = other := by
  have start : ∀ position chunk outcome, (world.runTask position chunk).outcome? = some outcome →
      outcome.1 = chunk.startRow := by
    intro position chunk outcome listed
    unfold runTask at listed
    cases panicked : world.panicked position with
    | some joinErr => simp [panicked, TaskResult.outcome?] at listed
    | none =>
      cases sent : (world.client.sendBulk (world.transport position) chunk.payload).1 with
      | error err => simp [panicked, sent, TaskResult.outcome?] at listed
      | ok response =>
        simp only [panicked, sent, TaskResult.outcome?, Option.some.injEq] at listed
        rw [← listed]
  intro outcome member other member' same
  obtain ⟨result, spawned, listed⟩ := List.mem_filterMap.mp member
  obtain ⟨result', spawned', listed'⟩ := List.mem_filterMap.mp member'
  obtain ⟨position, chunk, found, rfl⟩ := mem_taskResults.mp spawned
  obtain ⟨position', chunk', found', rfl⟩ := mem_taskResults.mp spawned'
  have starts : chunk.startRow = chunk'.startRow := by
    rw [← start position chunk outcome listed, ← start position' chunk' other listed', same]
  have contains : ∀ chunk ∈ chunks, chunk.startRow ∈ chunk.rows := by
    intro chunk member
    exact List.mem_range'_1.mpr ⟨Nat.le_refl _, Nat.lt_add_of_pos_right (full chunk member).2⟩
  have inFirst := contains chunk (List.mem_of_getElem? found)
  have inSecond := contains chunk' (List.mem_of_getElem? found')
  rw [← starts] at inSecond
  have positions := position_unique disjoint found found' inFirst inSecond
  subst positions
  rw [found, Option.some.injEq] at found'
  subst found'
  exact Option.some.inj (listed.symm.trans listed')

end SinkWorld

end OtelDatalake.Elasticsearch
