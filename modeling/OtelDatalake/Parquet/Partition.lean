import OtelDatalake.Foundation.Fallible
import OtelDatalake.Foundation.LruPool
import OtelDatalake.Parquet.Uploader

open OtelDatalake.Foundation

namespace OtelDatalake.Parquet

structure PartitionId where
  signal : String
  path : String
  deriving DecidableEq, Repr

structure PartitionKey where
  year : Int
  month : Int
  day : Int
  hour : Int
  deriving DecidableEq, Repr

structure ParquetSinkConfig where
  maxFileSizeBytes : Nat
  maxFileIntervalSec : Nat
  maxOpenPartitions : Nat
  maxConcurrentUploads : Nat
  globalMemoryLimitBytes : Nat
  variantEncoding : Bool
  maxRecords : Nat
  partitionPattern : String

/-- The column types that the sink tells apart. A timestamp column may have a time zone. -/
inductive DataType where
  | utf8
  | largeUtf8
  | timestamp (timezone : Option String)
  | int64
  | other
  deriving DecidableEq, Repr

structure RecordBatch (Row : Type) where
  schema : List (String × DataType)
  rows : List Row
  memory : Nat

/-- What the join handle of a background upload gives. -/
inductive UploadResult where
  | uploaded
  | failed (error : ParquetSinkError)
  | panicked (cause : String)
  deriving DecidableEq, Repr

/-- What the clock, the runtime and the libraries answer: an answer is indexed by how many were given before it, and an
    upload by the number of its file. -/
structure Surroundings (Row : Type) where
  flavor : RuntimeFlavor
  clock : Nat → Nat
  utcNow : Nat → PartitionKey
  generateFilename : Nat → String → Nat → String
  startUploader : Nat → String → Except ParquetSinkError Unit
  newWriter : Nat → Except ParquetSinkError Unit
  writeBatch : Nat → Except ParquetSinkError Nat
  closeFile : Nat → Except ParquetSinkError Unit
  isFinished : Nat → Nat → Bool
  uploadResult : Nat → UploadResult
  filterRecordBatch : Nat → Except ParquetSinkError Nat
  /-- The date parts of a timestamp column; a null or a value out of range has none. -/
  dateParts : List (String × DataType) → Option (Row → Option PartitionKey)
  hashOrder : Nat → List PartitionId → List PartitionId
  hashOrder_perm : ∀ now keys, (hashOrder now keys).Perm keys
  variantRow : List String → Row → Except ParquetSinkError Row
  assemble : List String → List Row → Except ParquetSinkError Nat

/-- `rows` are the rows that were written, and `estimatedBytes` is `bytes_written` plus `in_progress_size`. -/
structure ActiveWriter (Row : Type) where
  file : Nat
  rows : List Row
  estimatedBytes : Nat
  openedAt : Nat
  bufferedMemory : Nat
  deriving DecidableEq, Repr

structure RetiredFile (Row : Type) where
  file : Nat
  rows : List Row
  closed : Except ParquetSinkError Unit

/-- `opened` counts the uploads that were started, `now` the answers that were taken, and `retired` records the files
    that were closed. `paths` are the partitions of the uploads, and `appended` is what was written, each time with the
    number of the file. -/
structure PartitionManager (Row : Type) where
  writers : List (PartitionId × ActiveWriter Row)
  lruOrder : List PartitionId
  globalMemoryBytes : Nat
  fileSequence : Nat
  inFlightUploads : List Nat
  opened : Nat
  now : Nat
  retired : List (RetiredFile Row)
  paths : List String
  appended : List (Nat × List Row)

abbrev Manage (Row : Type) := Fallible (PartitionManager Row) ParquetSinkError

section Paths

def zeroPadded (width : Nat) (value : Int) : List Char :=
  let digits := Nat.toDigits 10 value.natAbs
  if value < 0 then '-' :: (List.replicate (width - 1 - digits.length) '0' ++ digits)
  else List.replicate (width - digits.length) '0' ++ digits

def PartitionKey.date (key : PartitionKey) : List Char :=
  zeroPadded 4 key.year ++ '-' :: zeroPadded 2 key.month ++ '-' :: zeroPadded 2 key.day

def formatToken (signal : String) (key : PartitionKey) (token : List Char) : List Char :=
  if token = "signal".toList then signal.toList
  else if token = "date".toList then key.date
  else if token = "hour".toList then zeroPadded 2 key.hour
  else if token = "year".toList then zeroPadded 4 key.year
  else if token = "month".toList then zeroPadded 2 key.month
  else if token = "day".toList then zeroPadded 2 key.day
  else '\x7b' :: token ++ ['\x7d']

/-- The scan over the pattern. Behind a brace that is never closed, what is left of the pattern is written twice. -/
def formatTokens (signal : String) (key : PartitionKey) : Nat → List Char → List Char
  | 0, pattern => pattern
  | fuel + 1, pattern =>
    match pattern.span (· ≠ '\x7b') with
    | (text, []) => text
    | (text, _ :: rest) =>
      match rest.span (· ≠ '\x7d') with
      | (token, []) => text ++ '\x7b' :: token ++ pattern
      | (token, _ :: behind) => text ++ formatToken signal key token ++ formatTokens signal key fuel behind

def canonicalPattern : String := "signal=\x7bsignal\x7d/date=\x7bdate\x7d/hour=\x7bhour\x7d"

def formatPartitionPath (pattern : String) (signal : String) (key : PartitionKey) : String :=
  if pattern = canonicalPattern then
    "signal=" ++ signal ++ "/date=" ++ String.ofList key.date ++ "/hour=" ++ String.ofList (zeroPadded 2 key.hour)
  else String.ofList (formatTokens signal key pattern.length pattern.toList)

end Paths

def keepFirst {Error Value : Type} (first : Option Error) (result : Except Error Value) : Option Error :=
  match first, result with
  | some error, _ => some error
  | none, .error error => some error
  | none, .ok _ => none

def UploadResult.joined : UploadResult → Except ParquetSinkError Unit
  | .uploaded => .ok ()
  | .failed error => .error error
  | .panicked cause => .error (.internal ("Background upload task panicked: " ++ cause))

def UploadResult.awaited : UploadResult → Except ParquetSinkError Unit
  | .uploaded => .ok ()
  | .failed error => .error error
  | .panicked cause => .error (.internal cause)

namespace PartitionManager

variable {Row : Type} (surroundings : Surroundings Row) (config : ParquetSinkConfig)

def new : PartitionManager Row := ⟨[], [], 0, 0, [], 0, 0, [], [], []⟩

def ask {Answer : Type} (answers : Nat → Answer) : Manage Row Answer :=
  fun manager => (.ok (answers manager.now), { manager with now := manager.now + 1 })

def askFor {Answer : Type} (answers : Nat → Except ParquetSinkError Answer) : Manage Row Answer :=
  fun manager => (answers manager.now, { manager with now := manager.now + 1 })

def pollUploads (now : Nat) : List Nat → Option ParquetSinkError → List Nat × Option ParquetSinkError
  | [], first => ([], first)
  | file :: rest, first =>
    if surroundings.isFinished now file then pollUploads now rest (keepFirst first (surroundings.uploadResult file).joined)
    else (file :: (pollUploads now rest first).1, (pollUploads now rest first).2)

def checkBackgroundErrors : Manage Row Unit :=
  if surroundings.flavor = .multiThread then do
    let manager ← Fallible.get
    let polled := pollUploads surroundings manager.now manager.inFlightUploads none
    Fallible.modify fun manager => { manager with inFlightUploads := polled.1, now := manager.now + 1 }
    Fallible.check polled.2
  else pure ()

/-- The upload is taken out of the queue before the runtime is looked at. -/
def waitOldestInFlightUpload : Manage Row Unit := do
  let manager ← Fallible.get
  match manager.inFlightUploads with
  | [] => pure ()
  | oldest :: rest => do
    Fallible.modify fun manager => { manager with inFlightUploads := rest }
    match surroundings.flavor with
    | .outside => Fallible.fail (.internal "No active Tokio runtime available to wait for background upload")
    | .currentThread =>
      Fallible.fail (.internal "ParquetSink requires a multi-threaded Tokio runtime to wait for pending uploads")
    | .multiThread => do
      Fallible.ofExcept (surroundings.uploadResult oldest).joined
      checkBackgroundErrors surroundings

/-- The loop that waits until one more upload may run; a round takes at least one upload out of the queue. -/
def awaitUploads : Nat → Option ParquetSinkError → Manage Row (Option ParquetSinkError)
  | 0, first => pure first
  | fuel + 1, first => do
    let manager ← Fallible.get
    if 0 < config.maxConcurrentUploads ∧ config.maxConcurrentUploads ≤ manager.inFlightUploads.length then do
      let waited ← Fallible.attempt (waitOldestInFlightUpload surroundings)
      awaitUploads fuel (keepFirst first waited)
    else pure first

/-- The memory is given back first, and the upload goes to the background also when the file could not be closed. -/
def retireActiveWriter (active : ActiveWriter Row) : Manage Row Unit := do
  Fallible.modify fun manager =>
    { manager with globalMemoryBytes := manager.globalMemoryBytes - active.bufferedMemory }
  let manager ← Fallible.get
  let waitError ← awaitUploads surroundings config manager.inFlightUploads.length none
  let closed ← ask surroundings.closeFile
  Fallible.modify fun manager => { manager with retired := manager.retired ++ [⟨active.file, active.rows, closed⟩] }
  if surroundings.flavor = .outside then
    Fallible.fail (.internal "No active Tokio runtime available to spawn background upload completion")
  else do
    Fallible.modify fun manager => { manager with inFlightUploads := manager.inFlightUploads ++ [active.file] }
    Fallible.ofExcept closed
    Fallible.check waitError
    checkBackgroundErrors surroundings

def retireWriter (id : PartitionId) : Manage Row (Except ParquetSinkError Unit) := do
  let manager ← Fallible.get
  match manager.writers.lookup id with
  | some active => do
    Fallible.modify fun manager => { manager with writers := without id manager.writers }
    Fallible.attempt (retireActiveWriter surroundings config active)
  | none => pure (.ok ())

def closeWriter (id : PartitionId) : Manage Row Unit := do
  Fallible.modify fun manager => { manager with lruOrder := manager.lruOrder.erase id }
  let retired ← retireWriter surroundings config id
  let checked ← Fallible.attempt (checkBackgroundErrors surroundings)
  Fallible.check (keepFirst (keepFirst none retired) checked)

def abortWriter (id : PartitionId) (manager : PartitionManager Row) : PartitionManager Row :=
  { manager with
    lruOrder := manager.lruOrder.erase id
    writers := without id manager.writers
    globalMemoryBytes :=
      manager.globalMemoryBytes - ((manager.writers.lookup id).map ActiveWriter.bufferedMemory).getD 0 }

def evictOldest : Manage Row Unit := do
  let manager ← Fallible.get
  match manager.lruOrder with
  | [] => Fallible.fail (.internal "LRU order out of sync with active writers")
  | oldest :: _ => closeWriter surroundings config oldest

def evictWhile (crowded : PartitionManager Row → Bool) : Nat → Manage Row Unit
  | 0 => pure ()
  | fuel + 1 => do
    let manager ← Fallible.get
    if crowded manager then do
      evictOldest surroundings config
      evictWhile crowded fuel
    else pure ()

def overMemory (memory : Nat) (manager : PartitionManager Row) : Bool :=
  decide (0 < config.globalMemoryLimitBytes ∧ config.globalMemoryLimitBytes < manager.globalMemoryBytes + memory) &&
    !manager.writers.isEmpty

def overOpen (manager : PartitionManager Row) : Bool :=
  decide (config.maxOpenPartitions ≤ manager.writers.length) && !manager.writers.isEmpty

end PartitionManager

section Rolling

variable {Row : Type} (config : ParquetSinkConfig)

def ParquetSinkConfig.isFullOf (rows : List Row) : Bool :=
  decide (0 < config.maxRecords ∧ config.maxRecords ≤ rows.length)

def ParquetSinkConfig.isLarge (active : ActiveWriter Row) : Bool :=
  decide (0 < config.maxFileSizeBytes ∧ config.maxFileSizeBytes ≤ active.estimatedBytes)

/-- `now` and the opening are in nanoseconds, the interval in seconds. -/
def ParquetSinkConfig.isOld (active : ActiveWriter Row) (now : Nat) : Bool :=
  decide (0 < config.maxFileIntervalSec ∧ config.maxFileIntervalSec ≤ (now - active.openedAt) / 1000000000)

def ParquetSinkConfig.writeLength (written rows : Nat) : Nat :=
  if 0 < config.maxRecords then min rows (config.maxRecords - written) else rows

/-- The share of a slice in the memory of its batch; the product wraps at the size of a word. -/
def sliceMemory (memory totalRows length : Nat) : Nat := (memory * length % 2 ^ 64) / totalRows

end Rolling

namespace PartitionManager

variable {Row : Type} (surroundings : Surroundings Row) (config : ParquetSinkConfig)

def appendSlice (id : PartitionId) (active : ActiveWriter Row) (slice : List Row) (memory : Nat) :
    Manage Row Unit := do
  match ← Fallible.attempt (askFor surroundings.writeBatch) with
  | .error error => do
    Fallible.modify (abortWriter id)
    Fallible.fail error
  | .ok estimatedBytes => do
    let written := { active with
      rows := active.rows ++ slice, estimatedBytes, bufferedMemory := active.bufferedMemory + memory }
    Fallible.modify fun manager =>
      { manager with
        lruOrder := manager.lruOrder.erase id ++ [id]
        writers := put id written manager.writers
        globalMemoryBytes := manager.globalMemoryBytes + memory
        appended := manager.appended ++ [(active.file, slice)] }
    if config.isFullOf written.rows || config.isLarge written then closeWriter surroundings config id else pure ()

def nextSequence : Manage Row Nat := do
  let manager ← Fallible.get
  Fallible.modify fun manager => { manager with fileSequence := (manager.fileSequence + 1) % 65536 }
  pure manager.fileSequence

def startUpload (path : String) : Manage Row Nat := do
  let sequence ← nextSequence
  let filename ← ask fun now => surroundings.generateFilename now path sequence
  askFor fun now => surroundings.startUploader now filename
  let manager ← Fallible.get
  Fallible.modify fun manager => { manager with opened := manager.opened + 1, paths := manager.paths ++ [path] }
  pure manager.opened

/-- A slice goes to a new file. A file that it fills is retired without being stored. -/
def openSlice (id : PartitionId) (slice : List Row) (memory : Nat) : Manage Row Unit := do
  let manager ← Fallible.get
  evictWhile surroundings config (overOpen config) manager.writers.length
  let file ← startUpload surroundings id.path
  askFor surroundings.newWriter
  let estimatedBytes ← askFor surroundings.writeBatch
  let openedAt ← ask surroundings.clock
  let active : ActiveWriter Row := ⟨file, slice, estimatedBytes, openedAt, memory⟩
  Fallible.modify fun manager =>
    { manager with
      globalMemoryBytes := manager.globalMemoryBytes + memory
      appended := manager.appended ++ [(file, slice)] }
  if config.isFullOf active.rows || config.isLarge active then do
    retireActiveWriter surroundings config active
    checkBackgroundErrors surroundings
  else
    Fallible.modify fun manager =>
      { manager with writers := put id active manager.writers, lruOrder := manager.lruOrder ++ [id] }

/-- One round of the loop over the rows, with the number of rows it takes. A round that rolls the file starts over and
    finds no writer then. -/
def routeSlice (id : PartitionId) (memory totalRows : Nat) (rows : List Row) : Manage Row Nat := do
  let opening := config.writeLength 0 rows.length
  let openFile : Manage Row Nat := do
    openSlice surroundings config id (rows.take opening) (sliceMemory memory totalRows opening)
    pure opening
  let manager ← Fallible.get
  match manager.writers.lookup id with
  | none => openFile
  | some active =>
    if config.isFullOf active.rows then do
      closeWriter surroundings config id
      openFile
    else do
      let length := config.writeLength active.rows.length rows.length
      let now ← ask surroundings.clock
      if config.isLarge active || config.isOld active now then do
        closeWriter surroundings config id
        openFile
      else do
        appendSlice surroundings config id active (rows.take length) (sliceMemory memory totalRows length)
        pure length

def routeRows (id : PartitionId) (memory totalRows : Nat) : Nat → List Row → Manage Row Unit
  | 0, _ => pure ()
  | fuel + 1, rows =>
    if rows.isEmpty then pure ()
    else do
      let length ← routeSlice surroundings config id memory totalRows rows
      routeRows id memory totalRows fuel (rows.drop length)

def routeSubBatch (id : PartitionId) (batch : RecordBatch Row) : Manage Row Unit :=
  if batch.rows.isEmpty then pure ()
  else if 0 < config.globalMemoryLimitBytes ∧ config.globalMemoryLimitBytes < batch.memory then
    Fallible.fail (.config ("RecordBatch size (" ++ toString batch.memory ++ " bytes) exceeds global memory limit (" ++
      toString config.globalMemoryLimitBytes ++ " bytes)"))
  else do
    let manager ← Fallible.get
    evictWhile surroundings config (overMemory config batch.memory) manager.writers.length
    routeRows surroundings config id batch.memory batch.rows.length batch.rows.length batch.rows

end PartitionManager

section Keys

variable {Row : Type}

/-- Only a timestamp column, or an integer one that is cast to it, has date parts. -/
def extractTemporalComponents (surroundings : Surroundings Row) (batch : RecordBatch Row) :
    Option (Row → Option PartitionKey) :=
  match batch.schema.lookup "timestamp" with
  | some (.timestamp _) | some .int64 => surroundings.dateParts batch.schema
  | _ => none

def rowKey (components : Option (Row → Option PartitionKey)) (fallback : PartitionKey) (row : Row) : PartitionKey :=
  match components with
  | some parts => (parts row).getD fallback
  | none => fallback

def distinctKeys (keys : List PartitionKey) : List PartitionKey :=
  keys.foldl (fun distinct key => if key ∈ distinct then distinct else distinct ++ [key]) []

end Keys

namespace PartitionManager

variable {Row : Type} (surroundings : Surroundings Row) (config : ParquetSinkConfig)

def routeGroups (batch : RecordBatch Row) (signal : String) (key : Row → PartitionKey) :
    List PartitionKey → Manage Row Unit
  | [] => pure ()
  | group :: rest => do
    let memory ← askFor surroundings.filterRecordBatch
    routeSubBatch surroundings config ⟨signal, formatPartitionPath config.partitionPattern signal group⟩
      ⟨batch.schema, batch.rows.filter (key · = group), memory⟩
    routeGroups batch signal key rest

def routeBatch (batch : RecordBatch Row) (signal : String) : Manage Row Unit := do
  checkBackgroundErrors surroundings
  match batch.rows with
  | [] => pure ()
  | first :: rest => do
    let fallback ← ask surroundings.utcNow
    let key := rowKey (extractTemporalComponents surroundings batch) fallback
    if rest.all (key · = key first) then
      routeSubBatch surroundings config ⟨signal, formatPartitionPath config.partitionPattern signal (key first)⟩ batch
    else routeGroups surroundings config batch signal key (distinctKeys (batch.rows.map key))

def idleKeys : List PartitionId → Manage Row (List PartitionId)
  | [] => pure []
  | id :: rest => do
    let manager ← Fallible.get
    let now ← ask surroundings.clock
    let others ← idleKeys rest
    match manager.writers.lookup id with
    | some active =>
      if config.maxFileIntervalSec * 1000000000 ≤ now - active.openedAt then pure (id :: others) else pure others
    | none => pure others

def closeEach : List PartitionId → Option ParquetSinkError → Manage Row (Option ParquetSinkError)
  | [], first => pure first
  | id :: rest, first => do
    let closed ← Fallible.attempt (closeWriter surroundings config id)
    closeEach rest (keepFirst first closed)

def writerKeys : Manage Row (List PartitionId) := do
  let manager ← Fallible.get
  ask fun now => surroundings.hashOrder now (manager.writers.map Prod.fst)

def sweepIdleWriters : Manage Row Unit := do
  let checked ← Fallible.attempt (checkBackgroundErrors surroundings)
  if config.maxFileIntervalSec = 0 then Fallible.check (keepFirst none checked)
  else do
    let keys ← writerKeys surroundings
    let idle ← idleKeys surroundings config keys
    let first ← closeEach surroundings config idle (keepFirst none checked)
    let last ← Fallible.attempt (checkBackgroundErrors surroundings)
    Fallible.check (keepFirst first last)

def flushAll : Manage Row Unit := do
  let checked ← Fallible.attempt (checkBackgroundErrors surroundings)
  let keys ← writerKeys surroundings
  let first ← closeEach surroundings config keys (keepFirst none checked)
  let last ← Fallible.attempt (checkBackgroundErrors surroundings)
  Fallible.check (keepFirst first last)

def waitForAllUploads : Manage Row Unit := do
  let manager ← Fallible.get
  Fallible.modify fun manager => { manager with inFlightUploads := [] }
  Fallible.check
    (manager.inFlightUploads.foldl (fun first file => keepFirst first (surroundings.uploadResult file).awaited) none)

end PartitionManager

end OtelDatalake.Parquet
