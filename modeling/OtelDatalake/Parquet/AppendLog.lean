import OtelDatalake.Parquet.PartitionSafety

open OtelDatalake.Foundation

namespace OtelDatalake.Parquet

/-- A slice that was written, with the file and the partition of the file. -/
structure Appended (Row : Type) where
  file : Nat
  path : String
  rows : List Row

def rowsOf {Row : Type} (appended : List (Nat × List Row)) (file : Nat) : List Row :=
  (appended.filter (·.1 = file)).flatMap (·.2)

def Appended.entry {Row : Type} (piece : Appended Row) : Nat × List Row := (piece.file, piece.rows)

namespace PartitionManager

variable {Row : Type} {surroundings : Surroundings Row} {config : ParquetSinkConfig}
  {held : List (PartitionId × ActiveWriter Row)} {log : List (Appended Row)}

/-- The numbers of the files that were closed, that a call has in its hands and that are stored. -/
def files (held : List (PartitionId × ActiveWriter Row)) (manager : PartitionManager Row) : List Nat :=
  manager.retired.map (·.file) ++ (held ++ manager.writers).map (·.2.file)

/-- The log is what was written: every file holds what the log has for it, in the partition that it was opened for, and
    within the limit. -/
structure Recorded (config : ParquetSinkConfig) (held : List (PartitionId × ActiveWriter Row)) (log : List (Appended Row))
    (manager : PartitionManager Row) : Prop where
  appended : manager.appended = log.map Appended.entry
  opened : manager.paths.length = manager.opened
  keys : (manager.writers.map Prod.fst).Nodup
  distinct : (manager.files held).Nodup
  known : ∀ file ∈ manager.files held, file < manager.opened
  marked : ∀ piece ∈ log, manager.paths[piece.file]? = some piece.path
  closed : ∀ file ∈ manager.retired, file.rows = rowsOf (log.map Appended.entry) file.file
  stored : ∀ entry ∈ held ++ manager.writers, entry.2.rows = rowsOf (log.map Appended.entry) entry.2.file ∧
    manager.paths[entry.2.file]? = some entry.1.path
  bounded : ∀ file, 0 < config.maxRecords → (rowsOf (log.map Appended.entry) file).length ≤ config.maxRecords

/-- All that the log is about. -/
def trail (manager : PartitionManager Row) :=
  (manager.writers, manager.retired, manager.opened, manager.paths, manager.appended)

theorem Recorded.of_trail {manager reached : PartitionManager Row} (recorded : Recorded config held log manager)
    (same : reached.trail = manager.trail) : Recorded config held log reached := by
  simp only [trail, Prod.mk.injEq] at same
  obtain ⟨writers, retired, opened, paths, appended⟩ := same
  have files : reached.files held = manager.files held := by rw [files, files, writers, retired]
  constructor
  · rw [appended]
    exact recorded.appended
  · rw [paths, opened]
    exact recorded.opened
  · rw [writers]
    exact recorded.keys
  · rw [files]
    exact recorded.distinct
  · rw [files, opened]
    exact recorded.known
  · rw [paths]
    exact recorded.marked
  · rw [retired]
    exact recorded.closed
  · rw [writers, paths]
    exact recorded.stored
  · exact recorded.bounded

theorem Recorded.new : Recorded config [] [] (PartitionManager.new : PartitionManager Row) where
  appended := rfl
  opened := rfl
  keys := .nil
  distinct := .nil
  known := by simp [files, PartitionManager.new]
  marked := by simp
  closed := by simp [PartitionManager.new]
  stored := by simp [PartitionManager.new]
  bounded := fun _ _ => Nat.zero_le _

section Moves

theorem rowsOf_append (log more : List (Nat × List Row)) (file : Nat) :
    rowsOf (log ++ more) file = rowsOf log file ++ rowsOf more file := by
  rw [rowsOf, List.filter_append, List.flatMap_append]
  rfl

theorem rowsOf_self (file : Nat) (slice : List Row) : rowsOf [(file, slice)] file = slice := by
  simp [rowsOf]

theorem rowsOf_of_ne {file other : Nat} (slice : List Row) (differs : file ≠ other) :
    rowsOf [(file, slice)] other = [] := by
  simp [rowsOf, differs]

theorem Recorded.alone {id : PartitionId} {active : ActiveWriter Row} {manager : PartitionManager Row}
    (recorded : Recorded config ((id, active) :: held) log manager) : active.file ∉ manager.files held := by
  have distinct := recorded.distinct
  rw [files, List.cons_append, List.map_cons] at distinct
  exact (List.nodup_cons.mp (List.perm_middle.nodup_iff.mp distinct)).1

theorem Recorded.move {others : List (PartitionId × ActiveWriter Row)} {manager reached : PartitionManager Row}
    (recorded : Recorded config held log manager)
    (still : (reached.retired, reached.opened, reached.paths, reached.appended) =
      (manager.retired, manager.opened, manager.paths, manager.appended))
    (keys : (reached.writers.map Prod.fst).Nodup)
    (fewer : (others ++ reached.writers).Subperm (held ++ manager.writers)) :
    Recorded config others log reached := by
  simp only [Prod.mk.injEq] at still
  obtain ⟨retired, opened, paths, appended⟩ := still
  have inside : ∀ file ∈ reached.files others, file ∈ manager.files held := by
    intro file member
    rw [files, retired, List.mem_append] at member
    rw [files, List.mem_append]
    refine member.imp_right fun member => ?_
    obtain ⟨entry, found, rfl⟩ := List.mem_map.mp member
    exact List.mem_map_of_mem (fewer.subset found)
  constructor
  · rw [appended]
    exact recorded.appended
  · rw [paths, opened]
    exact recorded.opened
  · exact keys
  · obtain ⟨middle, same, part⟩ := fewer
    have distinct : (manager.retired.map (·.file) ++ middle.map (·.2.file)).Nodup :=
      List.Nodup.sublist ((part.map _).append_left _) recorded.distinct
    rw [files, retired]
    exact ((same.map _).append_left _).nodup_iff.mp distinct
  · rw [opened]
    exact fun file member => recorded.known file (inside file member)
  · rw [paths]
    exact recorded.marked
  · rw [retired]
    exact recorded.closed
  · rw [paths]
    exact fun entry member => recorded.stored entry (fewer.subset member)
  · exact recorded.bounded

theorem Recorded.take {id : PartitionId} {active : ActiveWriter Row} {manager : PartitionManager Row}
    (recorded : Recorded config held log manager) (found : manager.writers.lookup id = some active) :
    Recorded config ((id, active) :: held) log { manager with writers := without id manager.writers } := by
  refine recorded.move rfl (without_keys_nodup recorded.keys id) ?_
  have parts := (lookup_eq_some recorded.keys found).symm
  exact (List.perm_middle.symm.trans (parts.append_left held)).subperm

theorem Recorded.store {id : PartitionId} {active : ActiveWriter Row} {manager reached : PartitionManager Row}
    (recorded : Recorded config ((id, active) :: held) log manager) (missing : id ∉ manager.writers.map Prod.fst)
    (still : (reached.retired, reached.opened, reached.paths, reached.appended) =
      (manager.retired, manager.opened, manager.paths, manager.appended))
    (writers : reached.writers = (id, active) :: manager.writers) : Recorded config held log reached := by
  refine recorded.move still ?_ ?_
  · rw [writers, List.map_cons, List.nodup_cons]
    exact ⟨missing, recorded.keys⟩
  · rw [writers]
    exact List.perm_middle.subperm

theorem Recorded.drop {entry : PartitionId × ActiveWriter Row} {manager : PartitionManager Row}
    (recorded : Recorded config (entry :: held) log manager) : Recorded config held log manager :=
  recorded.move rfl recorded.keys (List.sublist_cons_self ..).subperm

theorem Recorded.retire {id : PartitionId} {active : ActiveWriter Row} {manager : PartitionManager Row}
    (recorded : Recorded config ((id, active) :: held) log manager) (closed : Except ParquetSinkError Unit) :
    Recorded config held log
      { manager with retired := manager.retired ++ [⟨active.file, active.rows, closed⟩] } := by
  have moved : (manager.files ((id, active) :: held)).Perm
      (files held { manager with retired := manager.retired ++ [⟨active.file, active.rows, closed⟩] }) := by
    simp [files]
  refine ⟨recorded.appended, recorded.opened, recorded.keys, moved.nodup_iff.mp recorded.distinct, ?_, recorded.marked,
    ?_, ?_, recorded.bounded⟩
  · exact fun file member => recorded.known file (moved.mem_iff.mpr member)
  · intro file member
    rcases List.mem_append.mp member with member | member
    · exact recorded.closed file member
    · obtain rfl := List.mem_singleton.mp member
      exact (recorded.stored (id, active) (List.mem_cons_self ..)).1
  · exact fun entry member => recorded.stored entry (List.mem_cons_of_mem _ member)

theorem Recorded.open {id : PartitionId} {active : ActiveWriter Row} {manager : PartitionManager Row}
    (recorded : Recorded config held log manager) (file : active.file = manager.opened) (empty : active.rows = []) :
    Recorded config ((id, active) :: held) log
      { manager with opened := manager.opened + 1, paths := manager.paths ++ [id.path] } := by
  have grown : ∀ {file : Nat} {path : String}, manager.paths[file]? = some path →
      (manager.paths ++ [id.path])[file]? = some path := by
    intro file path found
    rw [List.getElem?_append_left (List.getElem?_eq_some_iff.mp found).1]
    exact found
  have fresh : active.file ∉ manager.files held := fun member => by
    have before := recorded.known _ member
    omega
  have split : (files ((id, active) :: held)
      { manager with opened := manager.opened + 1, paths := manager.paths ++ [id.path] }).Perm
      (active.file :: manager.files held) := by
    rw [files, List.cons_append, List.map_cons]
    exact List.perm_middle
  refine ⟨recorded.appended, ?_, recorded.keys, ?_, ?_, fun piece member => grown (recorded.marked piece member),
    recorded.closed, ?_, recorded.bounded⟩
  · rw [List.length_append, recorded.opened, List.length_singleton]
  · exact split.nodup_iff.mpr (List.nodup_cons.mpr ⟨fresh, recorded.distinct⟩)
  · intro other member
    rcases List.mem_cons.mp (split.mem_iff.mp member) with rfl | member
    · exact file ▸ Nat.lt_succ_self _
    · exact Nat.lt_succ_of_lt (recorded.known other member)
  · intro entry member
    rcases List.mem_cons.mp member with rfl | member
    · refine ⟨?_, ?_⟩
      · rw [empty, rowsOf, List.filter_eq_nil_iff.mpr, List.flatMap_nil]
        intro written found
        obtain ⟨piece, logged, rfl⟩ := List.mem_map.mp found
        have before := (List.getElem?_eq_some_iff.mp (recorded.marked piece logged)).1
        rw [recorded.opened] at before
        simp only [Appended.entry, file, decide_eq_true_eq]
        omega
      · rw [file, ← recorded.opened, List.getElem?_concat_length]
    · exact ⟨(recorded.stored entry member).1, grown (recorded.stored entry member).2⟩

theorem Recorded.write {id : PartitionId} {active : ActiveWriter Row} {slice : List Row}
    {manager : PartitionManager Row} (recorded : Recorded config ((id, active) :: held) log manager)
    (written : ActiveWriter Row) (file : written.file = active.file) (grown : written.rows = active.rows ++ slice)
    (fits : 0 < config.maxRecords → written.rows.length ≤ config.maxRecords) :
    Recorded config ((id, written) :: held) (log ++ [⟨active.file, id.path, slice⟩])
      { manager with appended := manager.appended ++ [(active.file, slice)] } := by
  have alone := recorded.alone
  have entries : (log ++ [(⟨active.file, id.path, slice⟩ : Appended Row)]).map Appended.entry =
      log.map Appended.entry ++ [(active.file, slice)] := by
    rw [List.map_append]
    rfl
  have own := recorded.stored (id, active) (List.mem_cons_self ..)
  have other : ∀ {file : Nat}, file ≠ active.file →
      rowsOf ((log ++ [(⟨active.file, id.path, slice⟩ : Appended Row)]).map Appended.entry) file =
        rowsOf (log.map Appended.entry) file := by
    intro file differs
    rw [entries, rowsOf_append, rowsOf_of_ne slice differs.symm, List.append_nil]
  have self : rowsOf ((log ++ [(⟨active.file, id.path, slice⟩ : Appended Row)]).map Appended.entry) active.file =
      written.rows := by
    rw [entries, rowsOf_append, rowsOf_self, grown, own.1]
  have same : files ((id, written) :: held) { manager with appended := manager.appended ++ [(active.file, slice)] } =
      manager.files ((id, active) :: held) := by
    simp [files, file]
  constructor
  · rw [entries, recorded.appended]
  · exact recorded.opened
  · exact recorded.keys
  · rw [same]
    exact recorded.distinct
  · rw [same]
    exact recorded.known
  · intro piece member
    rcases List.mem_append.mp member with member | member
    · exact recorded.marked piece member
    · obtain rfl := List.mem_singleton.mp member
      exact own.2
  · intro retired member
    have differs : retired.file ≠ active.file := fun same =>
      alone (List.mem_append_left _ (List.mem_map.mpr ⟨retired, member, same⟩))
    rw [other differs]
    exact recorded.closed retired member
  · intro entry member
    rcases List.mem_cons.mp member with rfl | member
    · exact ⟨by rw [file, self], by rw [file]; exact own.2⟩
    · have differs : entry.2.file ≠ active.file := fun same =>
        alone (List.mem_append_right _ (List.mem_map.mpr ⟨entry, member, same⟩))
      rw [other differs]
      exact recorded.stored entry (List.mem_cons_of_mem _ member)
  · intro target limited
    by_cases same : target = active.file
    · rw [same, self]
      exact fits limited
    · rw [other same]
      exact recorded.bounded target limited

end Moves

end PartitionManager

end OtelDatalake.Parquet
