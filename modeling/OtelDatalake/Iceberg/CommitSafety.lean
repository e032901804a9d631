import OtelDatalake.Iceberg.CommitLease

open OtelDatalake.Foundation OtelDatalake.Buffer OtelDatalake.Core

namespace OtelDatalake.Iceberg

namespace Table

theorem coversLease_mono {before after : Table} {id : LeaseId}
    (kept : ∀ snapshot ∈ before.history, snapshot ∈ after.history)
    (covered : before.metadata.CoversLease id) : after.metadata.CoversLease id := by
  intro seq above within
  obtain ⟨firstSeq, lastSeq, ⟨summary, member, accepted⟩, inside⟩ := covered seq above within
  obtain ⟨snapshot, listed, rfl⟩ := List.mem_map.mp member
  exact ⟨firstSeq, lastSeq, ⟨_, List.mem_map_of_mem (kept snapshot listed), accepted⟩, inside⟩

theorem append_kept (table : Table) (snapshot : TableSnapshot) :
    ∀ other ∈ table.history, other ∈ (table.append snapshot).history :=
  fun _ member => List.mem_append_left _ member

theorem own_append (table : Table) (snapshot : TableSnapshot) (id : LeaseId) :
    (table.append snapshot).own id = table.own id ++ [snapshot].filter (·.holds id) := by
  rw [own, append, List.filter_append, own]

end Table

theorem snapshotOf_covers {table : Table} {lease : LeasedRows} (nonzero : lease.id.instanceId ≠ 0)
    (allDataFiles : List DataFile) (summary : List (List Char × List Char)) :
    (table.append (World.snapshotOf lease allDataFiles summary)).metadata.CoversLease lease.id := by
  have parsed := parseLeaseToken_formatLease (Or.inl rfl) nonzero lease.instanceLimit lease.ordered lease.lastLimit
  intro seq above within
  refine ⟨lease.id.firstSeq, lease.id.lastSeq, ⟨(World.snapshotOf lease allDataFiles summary).summary, ?_,
    snapshotPropertyKey lease.id.signal, ?_, formatLeaseToken lease.id, ?_, parsed⟩, above, within⟩
  · exact List.mem_map_of_mem (List.mem_append_right _ (List.mem_singleton_self _))
  · simp [leaseKeys]
  · simp [World.snapshotOf, Snapshot.leaseProperty]

section Safety

variable {SubBatch : Type} {order : UnstableSort} {catalog : Bool} {lease : LeasedRows}

/-- What a call of `commit_lease` has established where it stands. -/
def Phase.Sound (lease : LeasedRows) (table : Table) : Phase SubBatch → Prop
  | .idle | .loading | .reloading _ _ => True
  | .preparing loaded => loaded.isSome ∧ table.own lease.id = []
  | .writing loaded _ allDataFiles =>
    loaded.isSome ∧ table.own lease.id = [] ∧ ∀ file ∈ allDataFiles, file.lease = lease.id
  | .applying allDataFiles | .committing allDataFiles =>
    table.own lease.id = [] ∧ allDataFiles ≠ [] ∧ ∀ file ∈ allDataFiles, file.lease = lease.id

/-- What stands behind an acknowledgement: data files of the lease in the table, a lease without data files, or tokens
    that cover it. -/
def Outcome.Backed (lease : LeasedRows) (table : Table) (outcome : Outcome) : Prop :=
  outcome.verdict = some .acked →
    table.own lease.id ≠ [] ∨ outcome.prepared = some [] ∨ table.metadata.CoversLease lease.id

structure World.Safe (lease : LeasedRows) (world : World SubBatch) : Prop where
  single : (world.table.own lease.id).length ≤ 1
  recorded : world.table.own lease.id ≠ [] → world.table.metadata.CoversLease lease.id
  phase : world.phase.Sound lease world.table
  backed : ∀ outcome ∈ world.outcomes, outcome.Backed lease world.table

theorem Phase.Sound.grown {phase : Phase SubBatch} {before after : Table} (same : after.own lease.id = before.own lease.id)
    (sound : phase.Sound lease before) : phase.Sound lease after := by
  cases phase with
  | idle | loading | reloading _ _ => trivial
  | preparing _ => exact ⟨sound.1, same.trans sound.2⟩
  | writing _ _ _ => exact ⟨sound.1, same.trans sound.2.1, sound.2.2⟩
  | applying _ | committing _ => exact ⟨same.trans sound.1, sound.2⟩

theorem Outcome.Backed.grown {outcome : Outcome} {before after : Table}
    (kept : ∀ snapshot ∈ before.history, snapshot ∈ after.history)
    (owned : before.own lease.id ≠ [] → after.own lease.id ≠ [])
    (backed : outcome.Backed lease before) : outcome.Backed lease after := by
  intro acked
  obtain own | empty | covered := backed acked
  · exact Or.inl (owned own)
  · exact Or.inr (Or.inl empty)
  · exact Or.inr (Or.inr (Table.coversLease_mono kept covered))

namespace World

theorem Safe.enter {world : World SubBatch} {phase : Phase SubBatch} (safe : world.Safe lease)
    (sound : phase.Sound lease world.table) : (world.enter phase).Safe lease :=
  ⟨safe.single, safe.recorded, sound, safe.backed⟩

theorem Safe.finish {world : World SubBatch} {outcome : Outcome} (safe : world.Safe lease)
    (backed : outcome.Backed lease world.table) : (world.finish outcome).Safe lease := by
  refine ⟨safe.single, safe.recorded, trivial, ?_⟩
  intro other member
  obtain before | rfl := List.mem_append.mp member |>.imp_right List.mem_singleton.mp
  · exact safe.backed other before
  · exact backed

theorem Safe.nack {world : World SubBatch} {err : PipelineError} {prepared : Option (List DataFile)}
    (safe : world.Safe lease) : (world.nack err prepared).Safe lease :=
  safe.finish fun acked => (nomatch acked)

theorem Safe.others {world : World SubBatch} {after : Table} (safe : world.Safe lease)
    (kept : ∀ snapshot ∈ world.table.history, snapshot ∈ after.history)
    (same : after.own lease.id = world.table.own lease.id) : ({ world with table := after }).Safe lease where
  single := same ▸ safe.single
  recorded := fun own => Table.coversLease_mono kept (safe.recorded (same ▸ own))
  phase := safe.phase.grown same
  backed := fun outcome member => (safe.backed outcome member).grown kept (fun own => same ▸ own)

theorem Safe.afterLoad {world : World SubBatch} (safe : world.Safe lease) (present : catalog = true)
    (nonzero : lease.id.instanceId ≠ 0) : (world.afterLoad order catalog lease).Safe lease := by
  have exactly := world.table.metadata.hasCommittedLease_iff order nonzero lease.ordered lease.lastLimit
  rw [World.afterLoad, loaded, if_pos present]
  by_cases committed : world.table.metadata.hasCommittedLease order lease.id = true
  · simp only [if_pos committed]
    exact safe.finish fun _ => Or.inr (Or.inr (exactly.mp committed))
  · simp only [if_neg committed]
    -- a table with data files of the lease would have its token
    have none : world.table.own lease.id = [] := by
      by_contra own
      exact committed (exactly.mpr (safe.recorded own))
    exact safe.enter ⟨rfl, none⟩

theorem Safe.prepareFailed {world : World SubBatch} {err : PipelineError} (safe : world.Safe lease) :
    (world.prepareFailed err).Safe lease := by
  unfold World.prepareFailed
  split
  · exact safe.finish fun acked => (nomatch acked)
  · split
    · exact safe.finish fun acked => (nomatch acked)
    · exact safe.finish fun acked => (nomatch acked)

theorem Safe.afterWrites {world : World SubBatch} {table : Table} {allDataFiles : List DataFile} (safe : world.Safe lease)
    (present : catalog = true) (none : world.table.own lease.id = [])
    (own : ∀ file ∈ allDataFiles, file.lease = lease.id) :
    (world.afterWrites catalog (some table) allDataFiles).Safe lease := by
  rw [World.afterWrites, present, Bool.true_and]
  by_cases empty : allDataFiles = []
  · subst empty
    exact safe.finish fun _ => Or.inr (Or.inl rfl)
  · rw [if_pos (by simpa using empty)]
    exact safe.enter ⟨none, empty, own⟩

theorem snapshotOf_holds {allDataFiles : List DataFile} {summary : List (List Char × List Char)}
    (nonempty : allDataFiles ≠ []) (own : ∀ file ∈ allDataFiles, file.lease = lease.id) :
    (snapshotOf lease allDataFiles summary).holds lease.id = true := by
  obtain ⟨file, rest, rfl⟩ := List.exists_cons_of_ne_nil nonempty
  exact List.any_eq_true.mpr ⟨file, List.mem_cons_self, by simp [own file List.mem_cons_self]⟩

/-- The commit that goes through is the first one: no snapshot had data files of the lease before it. -/
theorem Safe.committed {world : World SubBatch} {allDataFiles : List DataFile} (safe : world.Safe lease)
    (nonzero : lease.id.instanceId ≠ 0) (none : world.table.own lease.id = []) (nonempty : allDataFiles ≠ [])
    (own : ∀ file ∈ allDataFiles, file.lease = lease.id) (summary : List (List Char × List Char)) :
    (({ world with table := world.table.append (snapshotOf lease allDataFiles summary) }).enter .idle).Safe lease ∧
      (world.table.append (snapshotOf lease allDataFiles summary)).own lease.id ≠ [] := by
  have only : (world.table.append (snapshotOf lease allDataFiles summary)).own lease.id =
      [snapshotOf lease allDataFiles summary] := by
    rw [Table.own_append, none, List.nil_append, List.filter_cons_of_pos (snapshotOf_holds nonempty own),
      List.filter_nil]
  refine ⟨⟨?_, ?_, trivial, ?_⟩, ?_⟩
  · exact Nat.le_of_eq (by simp [World.enter, only])
  · intro _
    exact snapshotOf_covers nonzero allDataFiles summary
  · intro outcome member
    exact (safe.backed outcome member).grown (Table.append_kept _ _) (fun before => (before none).elim)
  · rw [only]
    exact List.cons_ne_nil _ _

theorem Safe.afterCommit {world : World SubBatch} {allDataFiles : List DataFile} {reply : Except (List Char) Unit}
    (safe : (world.enter .idle).Safe lease) (answered : reply.isOk = true → world.table.own lease.id ≠ []) :
    (world.afterCommit allDataFiles reply).Safe lease := by
  cases reply with
  | ok _ => exact safe.finish fun _ => Or.inl (answered rfl)
  | error commitErr => exact safe.enter trivial

theorem Safe.afterReload {world : World SubBatch} {allDataFiles : List DataFile} {commitErr : List Char}
    {reply : Except PipelineError Unit} (safe : world.Safe lease) (present : catalog = true)
    (nonzero : lease.id.instanceId ≠ 0) :
    (world.afterReload order catalog lease allDataFiles commitErr reply).Safe lease := by
  have exactly := world.table.metadata.hasCommittedLease_iff order nonzero lease.ordered lease.lastLimit
  unfold World.afterReload
  cases reply with
  | error _ => exact safe.nack
  | ok _ =>
    simp only [loaded, if_pos present, Option.any_some]
    by_cases committed : world.table.metadata.hasCommittedLease order lease.id = true
    · rw [if_pos committed]
      exact safe.finish fun _ => Or.inr (Or.inr (exactly.mp committed))
    · rw [if_neg committed]
      exact safe.nack

theorem Safe.step {world after : World SubBatch} {action : Action SubBatch} (safe : world.Safe lease)
    (present : catalog = true) (rows : lease.numRows ≠ 0) (nonzero : lease.id.instanceId ≠ 0)
    (stepped : world.step order catalog lease action = some after) : after.Safe lease := by
  have sound := safe.phase
  have moves := moves_of_step order catalog lease stepped
  clear stepped
  cases moves with
  | append foreign =>
    refine safe.others (Table.append_kept _ _) ?_
    rw [Table.own_append, List.filter_cons_of_neg foreign, List.filter_nil, List.append_nil]
  | rollBack => exact safe.others (fun _ member => member) rfl
  | abandon => exact safe.enter trivial
  | start standing =>
    rw [if_neg rows]
    exact safe.enter trivial
  | loadFailed standing => exact safe.nack
  | load standing => exact safe.afterLoad present nonzero
  | prepareFailed standing => exact safe.prepareFailed
  | prepare standing =>
    rw [standing] at sound
    exact safe.enter ⟨sound.1, sound.2, fun _ member => (List.not_mem_nil member).elim⟩
  | writeFailed => exact safe.nack
  | write standing =>
    rw [standing] at sound
    obtain ⟨_, none, own⟩ := sound
    refine safe.enter ⟨rfl, none, ?_⟩
    intro file member
    obtain before | written := List.mem_append.mp member
    · exact own file before
    · obtain ⟨path, -, rfl⟩ := List.mem_map.mp written
      rfl
  | finishWrites standing =>
    rw [standing] at sound
    obtain ⟨isLoaded, none, own⟩ := sound
    obtain ⟨loaded, rfl⟩ := Option.isSome_iff_exists.mp isLoaded
    exact safe.afterWrites present none own
  | applyFailed => exact safe.nack
  | apply standing =>
    rw [standing] at sound
    exact safe.enter sound
  | commit standing =>
    rw [standing] at sound
    obtain ⟨none, nonempty, own⟩ := sound
    obtain ⟨committed, written⟩ := safe.committed nonzero none nonempty own _
    exact Safe.afterCommit committed fun _ => written
  | commitFailed standing => exact Safe.afterCommit (safe.enter trivial) fun answered => (nomatch answered)
  | reload standing => exact safe.afterReload present nonzero

end World

def World.opened (SubBatch : Type) (table : Table) : World SubBatch := ⟨table, .idle, []⟩

/-- Attempts on one lease, each of whose steps may work or fail, among any moves of other writers. -/
abbrev Attempts (order : UnstableSort) (catalog : Bool) (lease : LeasedRows) :
    World SubBatch → World SubBatch → Prop :=
  Run (World.step order catalog lease) fun _ _ => True

/-- However often a lease is attempted, at most one snapshot has data files of it, and an acknowledged lease is in the
    table, has no data files or is covered by tokens in it. -/
theorem attempts_commit_once (order : UnstableSort) (lease : LeasedRows) (table : Table) (world : World SubBatch)
    (rows : lease.numRows ≠ 0) (nonzero : lease.id.instanceId ≠ 0) (unwritten : table.own lease.id = [])
    (run : Attempts order true lease (World.opened SubBatch table) world) :
    (world.table.own lease.id).length ≤ 1 ∧
    ∀ outcome ∈ world.outcomes, outcome.verdict = some .acked →
      world.table.own lease.id ≠ [] ∨ outcome.prepared = some [] ∨ world.table.metadata.CoversLease lease.id := by
  have start : (World.opened SubBatch table).Safe lease := by
    refine ⟨?_, fun own => (own unwritten).elim, trivial, fun _ member => (List.not_mem_nil member).elim⟩
    rw [World.opened, unwritten]
    exact Nat.zero_le _
  have safe : world.Safe lease :=
    Run.invariant (World.Safe lease) start
      (fun _ _ _ inv _ stepped => inv.step rfl rows nonzero stepped) run
  exact ⟨safe.single, safe.backed⟩

def fiveRows : LeasedRows := ⟨⟨10, .logs, 3, 5⟩, 5, by decide, by decide, by decide⟩

/-- A commit that goes through without a reply, a failed reload, and a second attempt that finds the token. -/
def lostReply : List (Action Unit) :=
  [.start, .load (.ok ()), .prepare (.ok [()]), .write (.ok ["part-0".toList]), .finishWrites, .apply (.ok ()),
   .commit true [] (.error "timeout".toList), .reload (.error (.storage "timeout".toList)), .start, .load (.ok ())]

def emptyTable : Table := ⟨[], none, by simp⟩

theorem attempts_lost_reply :
    ∃ world : World Unit, world.outcomes.map (·.verdict) = [some (.nacked .transient), some .acked] ∧
      world.table.own fiveRows.id ≠ [] ∧ (world.table.own fiveRows.id).length ≤ 1 := by
  have executed : (execute (World.step stableSort true fiveRows) (World.opened Unit emptyTable) lostReply).map
      (fun world => (world.outcomes.map (·.verdict), (world.table.own fiveRows.id).length)) =
      some ([some (.nacked .transient), some .acked], 1) := by decide
  obtain ⟨world, reached, seen⟩ := Option.map_eq_some_iff.mp executed
  simp only [Prod.mk.injEq] at seen
  have run : Attempts stableSort true fiveRows (World.opened Unit emptyTable) world :=
    execute_run (fun _ _ => trivial) lostReply reached
  have once := attempts_commit_once stableSort fiveRows emptyTable world (by decide) (by decide) rfl run
  refine ⟨world, seen.1, ?_, once.1⟩
  rw [← List.length_pos_iff, seen.2]
  decide

/-- Another commit of the instance has a token over all of the numbers from zero to ten. -/
def coveredTable : Table :=
  emptyTable.append ⟨⟨[("datalake.lease.logs".toList, "000000000000000a:0:10".toList)]⟩, []⟩

/-- A token of another commit lets a lease be acknowledged that has data files in no snapshot. -/
theorem attempts_covered_elsewhere :
    ¬∀ (lease : LeasedRows) (table : Table) (world : World Unit), lease.numRows ≠ 0 → lease.id.instanceId ≠ 0 →
      table.own lease.id = [] → Attempts stableSort true lease (World.opened Unit table) world →
      (world.table.own lease.id).length ≤ 1 ∧
      ∀ outcome ∈ world.outcomes, outcome.verdict = some .acked →
        world.table.own lease.id ≠ [] ∨ outcome.prepared = some [] := by
  intro claimed
  have executed : (execute (World.step stableSort true fiveRows) (World.opened Unit coveredTable)
      [.start, .load (.ok ())]).map
      (fun world => (world.outcomes.map fun outcome => (outcome.verdict, outcome.prepared), world.table.own fiveRows.id)) =
      some ([(some .acked, none)], []) := by decide
  obtain ⟨world, reached, seen⟩ := Option.map_eq_some_iff.mp executed
  simp only [Prod.mk.injEq] at seen
  have run : Attempts stableSort true fiveRows (World.opened Unit coveredTable) world :=
    execute_run (fun _ _ => trivial) _ reached
  obtain ⟨outcome, member, values⟩ := List.mem_map.mp (seen.1 ▸ List.mem_singleton_self _)
  simp only [Prod.mk.injEq] at values
  obtain own | empty := (claimed fiveRows coveredTable world (by decide) (by decide) (by decide) run).2 outcome member
    values.1
  · exact own seen.2
  · rw [values.2] at empty
    cases empty

end Safety

end OtelDatalake.Iceberg
