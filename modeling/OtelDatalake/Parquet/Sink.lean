import OtelDatalake.Core.Error
import OtelDatalake.Foundation.Outcome
import OtelDatalake.Parquet.PartitionSafety

open OtelDatalake.Core OtelDatalake.Foundation

namespace OtelDatalake.Parquet

inductive SignalBatch (Row : Type) where
  | logs (batch : RecordBatch Row)
  | traces (batch : RecordBatch Row)
  | metrics (batch : RecordBatch Row)

def SignalBatch.recordBatch {Row : Type} : SignalBatch Row → RecordBatch Row
  | .logs batch | .traces batch | .metrics batch => batch

structure PreparedBatch (Row : Type) where
  signal : String
  batch : RecordBatch Row

section Router

variable {Row : Type} (surroundings : Surroundings Row) (config : ParquetSinkConfig)

def variantCandidateColumns : List String := ["attributes", "resource_attributes"]

def isVariantCandidate (schema : List (String × DataType)) (column : String) : Bool :=
  match schema.lookup column with
  | some .utf8 | some .largeUtf8 => true
  | _ => false

/-- The columns are encoded row by row, and the first row that cannot be encoded fails the batch. -/
def transformToVariant (batch : RecordBatch Row) (columns : List String) :
    Except ParquetSinkError (RecordBatch Row) :=
  if columns.isEmpty then .ok batch
  else
    match columns.find? fun column => (batch.schema.lookup column).isNone with
    | some column => .error (.variantEncoding ("column '" ++ column ++ "' not found in record batch schema"))
    | none => do
      let rows ← batch.rows.mapM (surroundings.variantRow columns)
      let memory ← surroundings.assemble columns rows
      pure ⟨batch.schema.map fun field => if field.1 ∈ columns then (field.1, .other) else field, rows, memory⟩

def prepareBatch (signal : String) (batch : RecordBatch Row) : Except ParquetSinkError (PreparedBatch Row) :=
  if config.variantEncoding then do
    let prepared ← transformToVariant surroundings batch
      (variantCandidateColumns.filter (isVariantCandidate batch.schema))
    pure ⟨signal, prepared⟩
  else .ok ⟨signal, batch⟩

def routeAndPrepare : SignalBatch Row → Except ParquetSinkError (PreparedBatch Row)
  | .logs batch => prepareBatch surroundings config "logs" batch
  | .traces batch => prepareBatch surroundings config "traces" batch
  | .metrics batch => prepareBatch surroundings config "metrics" batch

end Router

inductive SinkEvent (Row : Type) where
  | received (batch : SignalBatch Row)
  | tick

/-- A part of the run of the sink. -/
abbrev Running (Row : Type) := Fallible (PartitionManager Row) PipelineError

def ParquetSinkError.toPipelineError (error : ParquetSinkError) : PipelineError := .storage error.display.toList

namespace ParquetSink

variable {Row : Type} (surroundings : Surroundings Row) (config : ParquetSinkConfig)

def lift (action : Manage Row Unit) : Running Row Unit := fun manager =>
  match action manager with
  | (.ok (), reached) => (.ok (), reached)
  | (.error error, reached) => (.error error.toPipelineError, reached)

def runtimeRequired : PipelineError :=
  .internal ("ParquetSink requires a multi-threaded Tokio runtime to safely execute synchronous file uploads. " ++
    "Current-thread runtimes will deadlock and panic.").toList

def runBlocking (action : Manage Row Unit) : Running Row Unit :=
  if surroundings.flavor = .multiThread then lift action else Fallible.fail (.internal runtimeRequired.display)

def routeReceived (batch : SignalBatch Row) : Manage Row Unit := do
  let prepared ← Fallible.ofExcept (routeAndPrepare surroundings config batch)
  PartitionManager.routeBatch surroundings config prepared.batch prepared.signal

def handle : SinkEvent Row → Running Row Unit
  | .received batch => runBlocking surroundings (routeReceived surroundings config batch)
  | .tick => runBlocking surroundings (PartitionManager.sweepIdleWriters surroundings config)

def handleEach : List (SinkEvent Row) → Running Row Unit
  | [] => pure ()
  | event :: rest => do
    handle surroundings config event
    handleEach rest

/-- The loop ends with the first error, or behind the last event when the buffer is closed or fails; then the writers are
    flushed and all uploads are awaited in any case. -/
def run (events : List (SinkEvent Row)) (bufferError : Option PipelineError) : Running Row Unit := do
  let looped ← Fallible.attempt do
    handleEach surroundings config events
    Fallible.check bufferError
  let flushed ← Fallible.attempt (runBlocking surroundings (PartitionManager.flushAll surroundings config))
  let waited ← Fallible.attempt (lift (PartitionManager.waitForAllUploads surroundings))
  Fallible.check (keepFirst (keepFirst (keepFirst none looped) flushed) waited)

end ParquetSink

/-- The row that is written for a received one: the row itself, or the row with its columns as variants. -/
def Prepares {Row : Type} (surroundings : Surroundings Row) (received written : Row) : Prop :=
  written = received ∨ ∃ columns, surroundings.variantRow columns received = .ok written

def receivedRows {Row : Type} : List (SinkEvent Row) → List Row
  | [] => []
  | .received batch :: rest => batch.recordBatch.rows ++ receivedRows rest
  | .tick :: rest => receivedRows rest

section Preparing

variable {Row : Type} {surroundings : Surroundings Row} {config : ParquetSinkConfig}

theorem prepares_refl (rows : List Row) : List.Forall₂ (Prepares surroundings) rows rows :=
  List.forall₂_same.mpr fun _ _ => Or.inl rfl

theorem transformToVariant_rows {batch prepared : RecordBatch Row} {columns : List String}
    (passed : transformToVariant surroundings batch columns = .ok prepared) :
    List.Forall₂ (Prepares surroundings) batch.rows prepared.rows := by
  unfold transformToVariant at passed
  split at passed
  · cases passed
    exact prepares_refl _
  split at passed
  · cases passed
  cases encoded : batch.rows.mapM (surroundings.variantRow columns) with
  | error error => simp [encoded, bind, Except.bind] at passed
  | ok rows =>
    cases assembled : surroundings.assemble columns rows with
    | error error => simp [encoded, assembled, bind, Except.bind] at passed
    | ok memory =>
      simp only [encoded, assembled, bind, Except.bind, pure, Except.pure, Except.ok.injEq] at passed
      rw [← passed]
      exact (mapM_ok encoded).imp fun _ _ image => Or.inr ⟨columns, image⟩

theorem prepareBatch_rows {signal : String} {batch : RecordBatch Row} {prepared : PreparedBatch Row}
    (passed : prepareBatch surroundings config signal batch = .ok prepared) :
    List.Forall₂ (Prepares surroundings) batch.rows prepared.batch.rows := by
  unfold prepareBatch at passed
  split at passed
  · cases transformed : transformToVariant surroundings batch
        (variantCandidateColumns.filter (isVariantCandidate batch.schema)) with
    | error error => simp [transformed, bind, Except.bind] at passed
    | ok batch =>
      simp only [transformed, bind, Except.bind, pure, Except.pure, Except.ok.injEq] at passed
      rw [← passed]
      exact transformToVariant_rows transformed
  · cases passed
    exact prepares_refl _

theorem routeAndPrepare_rows {received : SignalBatch Row} {prepared : PreparedBatch Row}
    (passed : routeAndPrepare surroundings config received = .ok prepared) :
    List.Forall₂ (Prepares surroundings) received.recordBatch.rows prepared.batch.rows := by
  cases received with
  | logs batch => exact prepareBatch_rows passed
  | traces batch => exact prepareBatch_rows passed
  | metrics batch => exact prepareBatch_rows passed

end Preparing

namespace ParquetSink

open PartitionManager

variable {Row : Type} {surroundings : Surroundings Row} {config : ParquetSinkConfig} {claim : Prop} {rows : List Row}

theorem lift_triple {pre broken : PartitionManager Row → Prop} {post : Unit → PartitionManager Row → Prop}
    {action : Manage Row Unit} (triple : Fallible.Triple pre action post broken) :
    Fallible.Triple pre (lift action) post broken := by
  intro manager holds
  have reached := triple manager holds
  simp only [lift]
  revert reached
  rcases action manager with ⟨reason | value, stopped⟩
  · exact fun tidy => tidy
  · exact fun kept => kept

theorem runBlocking_triple {pre broken : PartitionManager Row → Prop} {post : Unit → PartitionManager Row → Prop}
    {action : Manage Row Unit} (triple : Fallible.Triple pre action post broken)
    (refused : ∀ manager, pre manager → broken manager) :
    Fallible.Triple pre (runBlocking surroundings action) post broken := by
  apply Fallible.Triple.ite
  · exact fun _ => lift_triple triple
  · exact fun _ => .fail refused

def Written (surroundings : Surroundings Row) (config : ParquetSinkConfig) (claim : Prop) (rows received : List Row)
    (manager : PartitionManager Row) : Prop :=
  ∃ written, List.Forall₂ (Prepares surroundings) received written ∧
    Kept surroundings config claim 0 [] (rows ++ written) manager

theorem routeReceived_written (batch : SignalBatch Row) :
    Fallible.Triple (Kept surroundings config claim 0 [] rows) (routeReceived surroundings config batch)
      (fun _ => Written surroundings config claim rows batch.recordBatch.rows) (Tidy config 0) := by
  apply Fallible.Triple.bind fun prepared manager =>
    List.Forall₂ (Prepares surroundings) batch.recordBatch.rows prepared.batch.rows ∧
      Kept surroundings config claim 0 [] rows manager
  · exact .ofExcept (fun _ _ passed kept => ⟨routeAndPrepare_rows passed, kept⟩) fun _ kept => kept.tidy
  intro prepared
  apply Fallible.Triple.given fun _ holds => holds.1
  intro pairs
  exact (routeBatch_kept prepared.batch prepared.signal).weaken (fun _ holds => holds.2)
    (fun _ _ kept => ⟨_, pairs, kept⟩) fun _ tidy => tidy

theorem handle_written (event : SinkEvent Row) :
    Fallible.Triple (Kept surroundings config claim 0 [] rows) (handle surroundings config event)
      (fun _ => Written surroundings config claim rows (receivedRows [event])) (Tidy config 0) := by
  cases event with
  | received batch =>
    simp only [receivedRows, List.append_nil]
    exact runBlocking_triple (routeReceived_written batch) fun _ kept => kept.tidy
  | tick =>
    apply runBlocking_triple _ fun _ kept => kept.tidy
    apply sweepIdleWriters_kept.weaken (fun _ kept => kept) _ fun _ tidy => tidy
    intro _ manager kept
    exact ⟨[], .nil, by simpa using kept⟩

theorem receivedRows_cons (event : SinkEvent Row) (rest : List (SinkEvent Row)) :
    receivedRows (event :: rest) = receivedRows [event] ++ receivedRows rest := by
  cases event <;> simp [receivedRows]

theorem handleEach_written (events : List (SinkEvent Row)) :
    Fallible.Triple (Kept surroundings config claim 0 [] rows) (handleEach surroundings config events)
      (fun _ => Written surroundings config claim rows (receivedRows events)) (Tidy config 0) := by
  induction events generalizing rows with
  | nil => exact .pure fun _ kept => ⟨[], .nil, by simpa using kept⟩
  | cons event rest ih =>
    apply Fallible.Triple.bind _ (handle_written event)
    intro _
    apply Fallible.Triple.choose
    intro first
    apply Fallible.Triple.given fun _ holds => holds.1
    intro pairs
    apply ih.weaken (fun _ holds => holds.2) _ fun _ tidy => tidy
    rintro _ manager ⟨others, more, kept⟩
    refine ⟨first ++ others, ?_, ?_⟩
    · rw [receivedRows_cons]
      exact List.rel_append pairs more
    · rwa [List.append_assoc] at kept

/-- As long as no error was seen, the rows that were received are in their files, and the files meet `more`. -/
def Accounted (surroundings : Surroundings Row) (config : ParquetSinkConfig) (received : List Row) (clean : Prop)
    (more : PartitionManager Row → Prop) (manager : PartitionManager Row) : Prop :=
  ∃ written, (clean → List.Forall₂ (Prepares surroundings) received written ∧ more manager) ∧
    Kept surroundings config clean 0 [] written manager

theorem Accounted.failed {received : List Row} {found : Option PipelineError} {reason : PipelineError}
    {more : PartitionManager Row → Prop} {manager : PartitionManager Row} (tidy : Tidy config 0 manager) :
    Accounted surroundings config received (keepFirst found (.error reason : Except _ Unit) = none) more manager := by
  have never : ¬ keepFirst found (.error reason : Except _ Unit) = none := by
    intro clean
    obtain ⟨-, value, impossible⟩ := keepFirst_eq_none.mp clean
    cases impossible
  exact ⟨[], fun clean => absurd clean never, tidy, fun clean => absurd clean never⟩

theorem Accounted.passed {received : List Row} {found : Option PipelineError}
    {more : PartitionManager Row → Prop} {manager : PartitionManager Row}
    (accounted : Accounted surroundings config received (found = none) more manager) :
    Accounted surroundings config received (keepFirst found (.ok () : Except PipelineError Unit) = none) more
      manager := by
  obtain ⟨written, holds, kept⟩ := accounted
  exact ⟨written, fun clean => holds (keepFirst_eq_none.mp clean).1,
    kept.weaken (fun clean => (keepFirst_eq_none.mp clean).1) (Nat.le_refl _)⟩

theorem Filed.new : Filed surroundings [] [] (PartitionManager.new : PartitionManager Row) :=
  ⟨.nil, .nil, by simp [PartitionManager.new], by simp [Settled, PartitionManager.new]⟩

theorem loop_accounted (events : List (SinkEvent Row)) (bufferError : Option PipelineError) :
    Fallible.Triple (fun manager => manager = PartitionManager.new)
      (Fallible.attempt do
        handleEach surroundings config events
        Fallible.check bufferError)
      (fun looped => Accounted surroundings config (receivedRows events) (keepFirst none looped = none) fun _ => True)
      (fun _ => False) := by
  have loops : Fallible.Triple (fun manager => manager = PartitionManager.new)
      (do
        handleEach surroundings config events
        Fallible.check bufferError)
      (fun _ => Accounted surroundings config (receivedRows events) ((none : Option PipelineError) = none) fun _ => True)
      (Tidy config 0) := by
    apply Fallible.Triple.bind fun _ => Written surroundings config (@none PipelineError = none) [] (receivedRows events)
    · apply (handleEach_written events).strengthen
      rintro _ rfl
      exact ⟨Tidy.new, fun _ => Filed.new⟩
    · intro _
      apply Fallible.Triple.check
      · rintro manager - ⟨written, pairs, kept⟩
        exact ⟨written, fun _ => ⟨pairs, trivial⟩, kept⟩
      · rintro manager ⟨written, pairs, kept⟩
        exact kept.tidy
  apply Fallible.Triple.attempt (loops.weaken (fun _ holds => holds) _ fun _ tidy => tidy)
  · exact fun _ _ tidy => Accounted.failed tidy
  · exact fun _ _ accounted => accounted.passed

theorem flush_accounted {received : List Row} (found : Option PipelineError) :
    Fallible.Triple (Accounted surroundings config received (found = none) fun _ => True)
      (Fallible.attempt (runBlocking surroundings (flushAll surroundings config)))
      (fun flushed => Accounted surroundings config received (keepFirst found flushed = none)
        fun manager => manager.writers = [])
      (fun _ => False) := by
  apply Fallible.Triple.choose
  intro written
  apply Fallible.Triple.given fun _ holds => holds.1
  intro pairs
  have flushes : Fallible.Triple (Kept surroundings config (found = none) 0 [] written)
      (runBlocking surroundings (flushAll surroundings config))
      (fun _ manager => manager.writers = [] ∧ Kept surroundings config (found = none) 0 [] written manager)
      (Tidy config 0) :=
    runBlocking_triple flushAll_kept fun _ kept => kept.tidy
  apply Fallible.Triple.attempt (flushes.weaken (fun _ holds => holds.2) _ fun _ tidy => tidy)
  · exact fun _ _ tidy => Accounted.failed tidy
  · rintro _ manager ⟨empty, kept⟩
    exact Accounted.passed ⟨written, fun clean => ⟨(pairs clean).1, empty⟩, kept⟩

theorem wait_accounted {received : List Row} (found : Option PipelineError) :
    Fallible.Triple (Accounted surroundings config received (found = none) fun manager => manager.writers = [])
      (Fallible.attempt (lift (waitForAllUploads surroundings)))
      (fun waited => Accounted surroundings config received (keepFirst found waited = none)
        fun manager => manager.writers = [] ∧ manager.inFlightUploads = [])
      (fun _ => False) := by
  apply Fallible.Triple.choose
  intro written
  apply Fallible.Triple.seen fun manager => manager.writers
  intro writers
  apply Fallible.Triple.given fun manager holds => (⟨fun clean => ((holds.2.1 clean).1), fun clean =>
    holds.1.symm.trans (holds.2.1 clean).2⟩ : (found = none → List.Forall₂ (Prepares surroundings) received written) ∧
      (found = none → writers = []))
  rintro ⟨pairs, empty⟩
  have waits : Fallible.Triple
      (fun manager => manager.writers = writers ∧ Kept surroundings config (found = none) 0 [] written manager)
      (lift (waitForAllUploads surroundings))
      (fun _ manager => (manager.writers = writers ∧ manager.inFlightUploads = []) ∧
        Kept surroundings config (found = none) 0 [] written manager) (Tidy config 0) :=
    lift_triple (waitForAllUploads_kept writers)
  apply Fallible.Triple.attempt (waits.weaken (fun _ holds => ⟨holds.1, holds.2.2⟩) _ fun _ tidy => tidy)
  · exact fun _ _ tidy => Accounted.failed tidy
  · rintro _ manager ⟨⟨same, drained⟩, kept⟩
    exact Accounted.passed ⟨written, fun clean => ⟨pairs clean, same.trans (empty clean), drained⟩, kept⟩

theorem run_accounted (surroundings : Surroundings Row) (config : ParquetSinkConfig) (events : List (SinkEvent Row))
    (bufferError : Option PipelineError) :
    Fallible.Triple (fun manager => manager = PartitionManager.new) (run surroundings config events bufferError)
      (fun _ => Accounted surroundings config (receivedRows events) True
        fun manager => manager.writers = [] ∧ manager.inFlightUploads = [])
      (fun _ => True) := by
  have never {State : Type} (state : State) (impossible : False) : True := impossible.elim
  apply Fallible.Triple.bind _
    ((loop_accounted events bufferError).weaken (fun _ holds => holds) (fun _ _ holds => holds) never)
  intro looped
  apply Fallible.Triple.bind _ ((flush_accounted _).weaken (fun _ holds => holds) (fun _ _ holds => holds) never)
  intro flushed
  apply Fallible.Triple.bind _ ((wait_accounted _).weaken (fun _ holds => holds) (fun _ _ holds => holds) never)
  intro waited
  apply Fallible.Triple.check
  · rintro manager clean ⟨written, holds, kept⟩
    exact ⟨written, fun _ => holds clean, kept.weaken (fun _ => clean) (Nat.le_refl _)⟩
  · exact fun _ _ => trivial

/-- If the run of a sink succeeds, every row that was received is in exactly one file, and every file that was opened was
    closed and uploaded. -/
theorem run_files_every_row (surroundings : Surroundings Row) (config : ParquetSinkConfig)
    (events : List (SinkEvent Row)) (bufferError : Option PipelineError) {manager : PartitionManager Row}
    (succeeded : run surroundings config events bufferError PartitionManager.new = (.ok (), manager)) :
    (∃ written, List.Forall₂ (Prepares surroundings) (receivedRows events) written ∧
        (manager.retired.flatMap (·.rows)).Perm written) ∧
      (manager.retired.map (·.file)).Perm (List.range manager.opened) ∧
      ∀ file ∈ manager.retired, file.closed = .ok () ∧ surroundings.uploadResult file.file = .uploaded := by
  have outcome := run_accounted surroundings config events bufferError PartitionManager.new rfl
  rw [succeeded] at outcome
  obtain ⟨written, holds, kept⟩ := outcome
  obtain ⟨pairs, empty, drained⟩ := holds trivial
  have filed := kept.filed trivial
  have rows := filed.rows_perm
  have files := filed.files_perm
  simp only [inUse, empty, List.map_nil, List.append_nil, List.flatMap_nil] at rows files
  refine ⟨⟨written, pairs, rows⟩, files, fun file member => ⟨filed.closed file member, ?_⟩⟩
  rcases filed.settled file.file (List.mem_map_of_mem member) with queued | uploaded
  · rw [drained] at queued
    cases queued
  · exact uploaded

theorem eq_of_ok {State Error : Type} {outcome : Except Error Unit × State} (succeeded : outcome.1 = .ok ()) :
    outcome = (.ok (), outcome.2) := by
  rw [← succeeded]

def calmSurroundings : Surroundings Nat where
  flavor := .multiThread
  clock := fun now => now
  utcNow := fun _ => ⟨2026, 10, 9, 12⟩
  generateFilename := fun _ path _ => path
  startUploader := fun _ _ => .ok ()
  newWriter := fun _ => .ok ()
  writeBatch := fun _ => .ok 10
  closeFile := fun _ => .ok ()
  isFinished := fun _ file => file == 0
  uploadResult := fun _ => .uploaded
  filterRecordBatch := fun _ => .ok 10
  dateParts := fun _ => none
  hashOrder := fun _ keys => keys
  hashOrder_perm := fun _ _ => .refl _
  variantRow := fun _ row => .ok row
  assemble := fun _ _ => .ok 10

def smallConfig : ParquetSinkConfig := ⟨0, 5, 1, 1, 100, true, 2, canonicalPattern⟩

def threeRows : List (SinkEvent Nat) := [.received (.logs ⟨[("attributes", .utf8)], [7, 8, 9], 30⟩), .tick]

/-- The file limit of two rows makes two files of three rows. -/
theorem run_files_three_rows :
    ((run calmSurroundings smallConfig threeRows none PartitionManager.new).2.retired.map (·.rows)) = [[7, 8], [9]] ∧
      ((run calmSurroundings smallConfig threeRows none PartitionManager.new).2.retired.map (·.file)).Perm
        (List.range (run calmSurroundings smallConfig threeRows none PartitionManager.new).2.opened) := by
  have succeeded : (run calmSurroundings smallConfig threeRows none PartitionManager.new).1 = .ok () := by
    decide +kernel
  exact ⟨by decide +kernel,
    (run_files_every_row calmSurroundings smallConfig threeRows none (eq_of_ok succeeded)).2.1⟩

end ParquetSink

end OtelDatalake.Parquet
