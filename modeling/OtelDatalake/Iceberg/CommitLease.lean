import OtelDatalake.Core.Error
import OtelDatalake.Foundation.Runs
import OtelDatalake.Iceberg.LeaseToken

open OtelDatalake.Foundation OtelDatalake.Buffer OtelDatalake.Core

namespace OtelDatalake.Iceberg

def classifyIcebergError (err : PipelineError) : FailureClass :=
  match err with
  | .internal message => .rejected (String.ofList message)
  | .arrow cause => .rejected (String.ofList cause)
  | .configuration cause => .fatal (String.ofList cause)
  | _ =>
    let lower := toAsciiLowercase err.display
    if ["401", "403", "unauthorized", "forbidden", "access denied", "authentication", "tablenotfound",
        "namespacenotfound", "featureunsupported"].any fun pattern => containsText lower pattern.toList then
      .fatal (String.ofList err.display)
    else if containsText lower "datainvalid".toList then .rejected (String.ofList err.display)
    else .transient

/-- A data file and the lease whose rows were written to it. -/
structure DataFile where
  lease : LeaseId
  path : List Char
  deriving DecidableEq, Repr

/-- A snapshot as an append leaves it: its summary and the data files that it adds. -/
structure TableSnapshot where
  summary : Snapshot
  dataFiles : List DataFile
  deriving DecidableEq, Repr

def TableSnapshot.holds (id : LeaseId) (snapshot : TableSnapshot) : Bool := snapshot.dataFiles.any (·.lease == id)

structure Table where
  history : List TableSnapshot
  current : Option TableSnapshot
  listed : ∀ snapshot ∈ current, snapshot ∈ history

namespace Table

def metadata (table : Table) : TableMetadata where
  snapshots := table.history.map (·.summary)
  currentSnapshot := table.current.map (·.summary)
  listed := by
    intro summary known
    obtain ⟨snapshot, found, rfl⟩ := Option.mem_map.mp known
    exact List.mem_map_of_mem (table.listed snapshot found)

def append (table : Table) (snapshot : TableSnapshot) : Table where
  history := table.history ++ [snapshot]
  current := some snapshot
  listed := by
    intro other known
    cases known
    exact List.mem_append_right _ (List.mem_singleton_self _)

def rollBack (table : Table) (index : Nat) : Table where
  history := table.history
  current := table.history[index]?
  listed := fun _ found => List.mem_of_getElem? found

def own (table : Table) (id : LeaseId) : List TableSnapshot := table.history.filter (·.holds id)

end Table

structure LeasedRows where
  id : LeaseId
  numRows : Nat
  instanceLimit : id.instanceId ≤ u64Max
  ordered : id.firstSeq ≤ id.lastSeq
  lastLimit : id.lastSeq ≤ u64Max

inductive Verdict where
  | acked
  | nacked (failure : FailureClass)
  deriving DecidableEq, Repr

/-- How a call of `commit_lease` ends: what becomes of the lease, what it returns, and the data files of the prepared
    lease if all of them were written. -/
structure Outcome where
  verdict : Option Verdict
  result : Except PipelineError Unit
  prepared : Option (List DataFile)

/-- Where a call of `commit_lease` stands; `table` is what it has loaded. -/
inductive Phase (SubBatch : Type) where
  | idle
  | loading
  | preparing (table : Option Table)
  | writing (table : Option Table) (subBatches : List SubBatch) (allDataFiles : List DataFile)
  | applying (allDataFiles : List DataFile)
  | committing (allDataFiles : List DataFile)
  | reloading (allDataFiles : List DataFile) (commitErr : List Char)

structure World (SubBatch : Type) where
  table : Table
  phase : Phase SubBatch
  outcomes : List Outcome

inductive Action (SubBatch : Type) where
  | start
  | load (reply : Except PipelineError Unit)
  | prepare (result : Except PipelineError (List SubBatch))
  | write (paths : Except PipelineError (List (List Char)))
  | finishWrites
  | apply (result : Except (List Char) Unit)
  | commit (applied : Bool) (summary : List (List Char × List Char)) (reply : Except (List Char) Unit)
  | reload (reply : Except PipelineError Unit)
  | abandon
  | append (snapshot : TableSnapshot)
  | rollBack (index : Nat)

section CommitLease

variable {SubBatch : Type} (order : UnstableSort) (catalog : Bool) (lease : LeasedRows)

namespace World

def finish (world : World SubBatch) (outcome : Outcome) : World SubBatch :=
  { world with phase := .idle, outcomes := world.outcomes ++ [outcome] }

def ack (world : World SubBatch) (prepared : Option (List DataFile)) : World SubBatch :=
  world.finish ⟨some .acked, .ok (), prepared⟩

/-- A failure is nacked as it is classified, and a fatal one is returned as well. -/
def nack (world : World SubBatch) (err : PipelineError) (prepared : Option (List DataFile)) : World SubBatch :=
  let failure := classifyIcebergError err
  let result := match failure with
    | .fatal _ => .error err
    | _ => .ok ()
  world.finish ⟨some (.nacked failure), result, prepared⟩

/-- The table as `load_table` replies with it; without a catalog there is none. -/
def loaded (world : World SubBatch) : Option Table := if catalog then some world.table else none

def enter (world : World SubBatch) (phase : Phase SubBatch) : World SubBatch := { world with phase := phase }

/-- Behind `load_table`: a lease that the table has already is acknowledged without another write. -/
def afterLoad (world : World SubBatch) : World SubBatch :=
  match world.loaded catalog with
  | none => world.enter (.preparing none)
  | some table =>
    if table.metadata.hasCommittedLease order lease.id then world.ack none else world.enter (.preparing (some table))

def prepareFailed (world : World SubBatch) (err : PipelineError) : World SubBatch :=
  match err with
  | .storage _ => world.finish ⟨none, .error err, none⟩
  | _ =>
    if "Lease::prepare join error".toList.isPrefixOf err.display then world.finish ⟨none, .error err, none⟩
    else world.finish ⟨some (.nacked (.rejected (String.ofList err.display))), .ok (), none⟩

/-- Behind the last data file: only a lease with data files is committed. -/
def afterWrites (world : World SubBatch) (table : Option Table) (allDataFiles : List DataFile) : World SubBatch :=
  match table with
  | none => world.ack (some [])
  | some _ => if catalog && !allDataFiles.isEmpty then world.enter (.applying allDataFiles)
    else world.ack (some allDataFiles)

/-- The snapshot that a commit appends: the token of the lease under both keys, then what the library adds. -/
def snapshotOf (allDataFiles : List DataFile) (summary : List (List Char × List Char)) : TableSnapshot :=
  let token := formatLeaseToken lease.id
  ⟨⟨(snapshotPropertyKey lease.id.signal, token) ::
    (instanceSnapshotPropertyKey lease.id.signal lease.id.instanceId, token) :: summary⟩, allDataFiles⟩

def afterCommit (world : World SubBatch) (allDataFiles : List DataFile) (reply : Except (List Char) Unit) :
    World SubBatch :=
  match reply with
  | .ok () => world.ack (some allDataFiles)
  | .error commitErr => world.enter (.reloading allDataFiles commitErr)

/-- Behind a failed commit: the refreshed table tells whether it went through after all. -/
def afterReload (world : World SubBatch) (allDataFiles : List DataFile) (commitErr : List Char)
    (reply : Except PipelineError Unit) : World SubBatch :=
  let refreshed := match reply with
    | .ok () => world.loaded catalog
    | .error _ => none
  if refreshed.any fun table => table.metadata.hasCommittedLease order lease.id then world.ack (some allDataFiles)
  else world.nack (.storage commitErr) (some allDataFiles)

/-- Every step of `commit_lease` on one lease, with whatever its surroundings answer. -/
def step (world : World SubBatch) (action : Action SubBatch) : Option (World SubBatch) :=
  match world.phase, action with
  | _, .append snapshot =>
    if snapshot.holds lease.id then none else some { world with table := world.table.append snapshot }
  | _, .rollBack index => some { world with table := world.table.rollBack index }
  | _, .abandon => some (world.enter .idle)
  | .idle, .start => some (if lease.numRows = 0 then world.ack none else world.enter .loading)
  | .loading, .load (.error err) => if catalog then some (world.nack err none) else none
  | .loading, .load (.ok ()) => some (world.afterLoad order catalog lease)
  | .preparing _, .prepare (.error err) => some (world.prepareFailed err)
  | .preparing table, .prepare (.ok subBatches) => some (world.enter (.writing table subBatches []))
  | .writing (some _) (_ :: _) _, .write (.error err) => some (world.nack err none)
  | .writing (some table) (_ :: rest) allDataFiles, .write (.ok paths) =>
    some (world.enter (.writing (some table) rest (allDataFiles ++ paths.map (⟨lease.id, ·⟩))))
  | .writing (some table) [] allDataFiles, .finishWrites => some (world.afterWrites catalog (some table) allDataFiles)
  | .writing none _ allDataFiles, .finishWrites => some (world.afterWrites catalog none allDataFiles)
  | .applying allDataFiles, .apply (.error err) => some (world.nack (.storage err) (some allDataFiles))
  | .applying allDataFiles, .apply (.ok ()) => some (world.enter (.committing allDataFiles))
  | .committing allDataFiles, .commit applied summary reply =>
    let table := if applied then world.table.append (snapshotOf lease allDataFiles summary) else world.table
    if reply.isOk && !applied then none
    else some ({ world with table := table }.afterCommit allDataFiles reply)
  | .reloading allDataFiles commitErr, .reload reply =>
    some (world.afterReload order catalog lease allDataFiles commitErr reply)
  | _, _ => none

inductive Moves (world : World SubBatch) : Action SubBatch → World SubBatch → Prop where
  | append {snapshot : TableSnapshot} (foreign : ¬snapshot.holds lease.id) :
      Moves world (.append snapshot) { world with table := world.table.append snapshot }
  | rollBack {index : Nat} : Moves world (.rollBack index) { world with table := world.table.rollBack index }
  | abandon : Moves world .abandon (world.enter .idle)
  | start (standing : world.phase = .idle) :
      Moves world .start (if lease.numRows = 0 then world.ack none else world.enter .loading)
  | loadFailed {err : PipelineError} (standing : world.phase = .loading) :
      Moves world (.load (.error err)) (world.nack err none)
  | load (standing : world.phase = .loading) : Moves world (.load (.ok ())) (world.afterLoad order catalog lease)
  | prepareFailed {table : Option Table} {err : PipelineError} (standing : world.phase = .preparing table) :
      Moves world (.prepare (.error err)) (world.prepareFailed err)
  | prepare {table : Option Table} {subBatches : List SubBatch} (standing : world.phase = .preparing table) :
      Moves world (.prepare (.ok subBatches)) (world.enter (.writing table subBatches []))
  | writeFailed {err : PipelineError} : Moves world (.write (.error err)) (world.nack err none)
  | write {table : Table} {subBatch : SubBatch} {rest : List SubBatch} {allDataFiles : List DataFile}
      {paths : List (List Char)} (standing : world.phase = .writing (some table) (subBatch :: rest) allDataFiles) :
      Moves world (.write (.ok paths))
        (world.enter (.writing (some table) rest (allDataFiles ++ paths.map (⟨lease.id, ·⟩))))
  | finishWrites {table : Option Table} {subBatches : List SubBatch} {allDataFiles : List DataFile}
      (standing : world.phase = .writing table subBatches allDataFiles) :
      Moves world .finishWrites (world.afterWrites catalog table allDataFiles)
  | applyFailed {allDataFiles : List DataFile} {err : List Char} :
      Moves world (.apply (.error err)) (world.nack (.storage err) (some allDataFiles))
  | apply {allDataFiles : List DataFile} (standing : world.phase = .applying allDataFiles) :
      Moves world (.apply (.ok ())) (world.enter (.committing allDataFiles))
  | commit {allDataFiles : List DataFile} {summary : List (List Char × List Char)}
      {reply : Except (List Char) Unit} (standing : world.phase = .committing allDataFiles) :
      Moves world (.commit true summary reply)
        ({ world with table := world.table.append (snapshotOf lease allDataFiles summary) }.afterCommit allDataFiles
          reply)
  | commitFailed {allDataFiles : List DataFile} {summary : List (List Char × List Char)} {commitErr : List Char}
      (standing : world.phase = .committing allDataFiles) :
      Moves world (.commit false summary (.error commitErr)) (world.afterCommit allDataFiles (.error commitErr))
  | reload {allDataFiles : List DataFile} {commitErr : List Char} {reply : Except PipelineError Unit}
      (standing : world.phase = .reloading allDataFiles commitErr) :
      Moves world (.reload reply) (world.afterReload order catalog lease allDataFiles commitErr reply)

theorem moves_of_step {world after : World SubBatch} {action : Action SubBatch}
    (stepped : world.step order catalog lease action = some after) : Moves order catalog lease world action after := by
  unfold step at stepped
  split at stepped
  · rename_i snapshot
    split at stepped
    · cases stepped
    · rename_i foreign
      cases stepped
      exact .append foreign
  · cases stepped
    exact .rollBack
  · cases stepped
    exact .abandon
  · rename_i standing
    cases stepped
    exact .start standing
  · rename_i standing
    split at stepped
    · cases stepped
      exact .loadFailed standing
    · cases stepped
  · rename_i standing
    cases stepped
    exact .load standing
  · rename_i standing
    cases stepped
    exact .prepareFailed standing
  · rename_i standing
    cases stepped
    exact .prepare standing
  · cases stepped
    exact .writeFailed
  · rename_i standing
    cases stepped
    exact .write standing
  · rename_i standing
    cases stepped
    exact .finishWrites standing
  · rename_i standing
    cases stepped
    exact .finishWrites standing
  · cases stepped
    exact .applyFailed
  · rename_i standing
    cases stepped
    exact .apply standing
  · rename_i applied summary reply standing
    cases applied with
    | true =>
      simp only [Bool.not_true, Bool.and_false, Bool.false_eq_true, if_false, if_true, Option.some.injEq] at stepped
      subst stepped
      exact .commit standing
    | false =>
      cases reply with
      | ok _ => simp [Except.isOk, Except.toBool] at stepped
      | error commitErr =>
        simp only [Except.isOk, Except.toBool, Bool.false_and, Bool.false_eq_true, if_false,
          Option.some.injEq] at stepped
        subst stepped
        exact .commitFailed standing
  · rename_i standing
    cases stepped
    exact .reload standing
  · cases stepped

end World

end CommitLease

end OtelDatalake.Iceberg
