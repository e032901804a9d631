import OtelDatalake.Foundation.Calendar
import OtelDatalake.Parquet.SplitLoop

open OtelDatalake.Foundation
open OtelDatalake.Foundation.Template (HasUnclosed)

namespace OtelDatalake.Parquet

namespace PartitionManager

variable {Row : Type} {surroundings : Surroundings Row} {config : ParquetSinkConfig} {log : List (Appended Row)}

section Runs

theorem checkBackgroundErrors_now (manager : PartitionManager Row) :
    (checkBackgroundErrors surroundings manager).2.now = manager.now ∨
      (checkBackgroundErrors surroundings manager).2.now = manager.now + 1 := by
  have triple : Fallible.Triple (fun reached => reached = manager) (checkBackgroundErrors surroundings)
      (fun _ reached => reached.now = manager.now ∨ reached.now = manager.now + 1)
      (fun reached => reached.now = manager.now ∨ reached.now = manager.now + 1) := by
    apply Fallible.Triple.ite
    · intro _
      apply Fallible.Triple.get
      intro read
      apply Fallible.Triple.bind fun _ (reached : PartitionManager Row) =>
        reached.now = manager.now ∨ reached.now = manager.now + 1
      · apply Fallible.Triple.modify
        rintro _ ⟨rfl, rfl⟩
        exact Or.inr rfl
      · exact fun _ => .check (fun _ _ early => early) fun _ early => early
    · exact fun _ => .pure fun _ same => Or.inl (congrArg _ same)
  exact triple.reaches (fun _ _ early => early) (fun _ early => early) rfl

theorem closeEach_recorded (ids : List PartitionId) (first : Option ParquetSinkError) :
    Fallible.Keeps (Recorded config [] log) (closeEach surroundings config ids first) := by
  induction ids generalizing first with
  | nil => exact .pure first
  | cons id rest ih => exact Fallible.Keeps.bind (closeWriter_recorded id).attempt fun closed => ih _

theorem idleKeys_recorded (keys : List PartitionId) :
    Fallible.Keeps (Recorded config [] log) (idleKeys surroundings config keys) := by
  induction keys with
  | nil => exact .pure []
  | cons id rest ih =>
    apply Fallible.Keeps.get
    intro manager
    apply Fallible.Keeps.bind (ask_recorded _)
    intro now
    apply Fallible.Keeps.bind ih
    intro others
    split
    · exact .ite (.pure _) (.pure _)
    · exact .pure _

theorem writerKeys_recorded : Fallible.Keeps (Recorded config [] log) (writerKeys surroundings) :=
  fun _ recorded => recorded.of_trail rfl

theorem sweepIdleWriters_recorded :
    Fallible.Keeps (Recorded config [] log) (sweepIdleWriters surroundings config) := by
  apply Fallible.Keeps.bind checkBackgroundErrors_recorded.attempt
  intro checked
  refine Fallible.Keeps.ite (.check _) ?_
  apply Fallible.Keeps.bind writerKeys_recorded
  intro keys
  apply Fallible.Keeps.bind (idleKeys_recorded keys)
  intro idle
  apply Fallible.Keeps.bind (closeEach_recorded idle _)
  intro first
  exact Fallible.Keeps.bind checkBackgroundErrors_recorded.attempt fun last => .check _

theorem flushAll_recorded : Fallible.Keeps (Recorded config [] log) (flushAll surroundings config) := by
  apply Fallible.Keeps.bind checkBackgroundErrors_recorded.attempt
  intro checked
  apply Fallible.Keeps.bind writerKeys_recorded
  intro keys
  apply Fallible.Keeps.bind (closeEach_recorded keys _)
  intro first
  exact Fallible.Keeps.bind checkBackgroundErrors_recorded.attempt fun last => .check _

theorem routeBatch_recorded (batch : RecordBatch Row) (signal : String) (start : Nat) :
    Fallible.Triple (fun manager => manager.now = start ∧ Recorded config [] log manager)
      (routeBatch surroundings config batch signal)
      (fun _ manager => ∃ now groups pieces, (now = start ∨ now = start + 1) ∧
        Placed config log (formatPartitionPath config.partitionPattern signal)
            (rowKey (extractTemporalComponents surroundings batch) (surroundings.utcNow now)) groups batch.rows pieces
            manager ∧
          groups.Nodup ∧ ∀ row ∈ batch.rows,
            rowKey (extractTemporalComponents surroundings batch) (surroundings.utcNow now) row ∈ groups)
      (Sound config) := by
  apply Fallible.Triple.bind fun _ (manager : PartitionManager Row) =>
    (manager.now = start ∨ manager.now = start + 1) ∧ Recorded config [] log manager
  · rintro manager ⟨rfl, recorded⟩
    have checked : (checkBackgroundErrors surroundings manager).2.now = _ ∨ _ := checkBackgroundErrors_now manager
    have kept : Recorded config [] log (checkBackgroundErrors surroundings manager).2 :=
      checkBackgroundErrors_recorded manager recorded
    revert checked kept
    rcases checkBackgroundErrors surroundings manager with ⟨reason | value, reached⟩
    · exact fun _ kept => ⟨log, kept⟩
    · exact fun checked kept => ⟨checked, kept⟩
  intro _
  split
  · rename_i none
    refine .pure fun manager holds => ⟨start, [], [], Or.inl rfl, ⟨?_, by simp, rfl⟩, .nil, by simp [none]⟩
    rw [List.append_nil]
    exact holds.2
  · rename_i first rest rows
    apply Fallible.Triple.bind fun fallback manager =>
      (∃ now, (now = start ∨ now = start + 1) ∧ fallback = surroundings.utcNow now) ∧ Recorded config [] log manager
    · exact fun manager holds => ⟨⟨manager.now, holds.1, rfl⟩, holds.2.of_trail rfl⟩
    intro fallback
    apply Fallible.Triple.given fun _ holds => holds.1
    rintro ⟨now, early, rfl⟩
    apply Fallible.Triple.strengthen _ fun _ holds => holds.2
    generalize named : rowKey (extractTemporalComponents surroundings batch) (surroundings.utcNow now) = key
    apply Fallible.Triple.ite
    · intro homogeneous
      have alike : ∀ row ∈ batch.rows, key row = key first := by
        rw [rows]
        exact List.forall_mem_cons.mpr ⟨rfl, fun row member =>
          of_decide_eq_true (List.all_eq_true.mp homogeneous row member)⟩
      apply (routeSubBatch_recorded _ batch).weaken (fun _ recorded => recorded) _ fun _ sound => sound
      rintro _ manager ⟨pieces, paths, written, recorded⟩
      refine ⟨now, [key first], pieces, ?_⟩
      rw [named]
      refine ⟨early, ⟨recorded, ?_, ?_⟩, List.nodup_singleton _, ?_⟩
      · intro piece member row inside
        have found : row ∈ pieces.flatMap (·.rows) := List.mem_flatMap.mpr ⟨piece, member, inside⟩
        rw [written] at found
        rw [paths piece member, alike row found]
      · rw [written, List.flatMap_singleton]
        exact (List.filter_eq_self.mpr fun row member => decide_eq_true (alike row member)).symm
      · exact fun row member => List.mem_singleton.mpr (alike row member)
    · intro _
      apply (routeGroups_recorded batch signal key _).weaken (fun _ recorded => recorded) _ fun _ sound => sound
      rintro _ manager ⟨pieces, placed⟩
      have spec := distinctKeys_spec (batch.rows.map key)
      refine ⟨now, distinctKeys (batch.rows.map key), pieces, ?_⟩
      rw [named]
      exact ⟨early, placed, spec.1, fun row member => spec.2 _ (List.mem_map_of_mem member)⟩

theorem Sound.perform {manager : PartitionManager Row} (sound : Sound config manager) (call : ManagerCall Row) :
    Sound config (perform surroundings config call manager).2 := by
  obtain ⟨log, recorded⟩ := sound
  cases call with
  | routeBatch batch signal =>
    apply (routeBatch_recorded batch signal manager.now).reaches _ (fun _ sound => sound) ⟨rfl, recorded⟩
    rintro _ reached ⟨now, groups, pieces, -, placed, -⟩
    exact ⟨_, placed.recorded⟩
  | sweepIdleWriters => exact ⟨log, sweepIdleWriters_recorded manager recorded⟩
  | checkBackgroundErrors => exact ⟨log, checkBackgroundErrors_recorded manager recorded⟩
  | flushAll => exact ⟨log, flushAll_recorded manager recorded⟩

theorem Sound.afterCalls (calls : List (ManagerCall Row)) : Sound config (afterCalls surroundings config calls) := by
  have run (manager : PartitionManager Row) (sound : Sound config manager) :
      Sound config (calls.foldl (fun manager call => (PartitionManager.perform surroundings config call manager).2)
        manager) := by
    induction calls generalizing manager with
    | nil => exact sound
    | cons call rest ih => exact ih _ (sound.perform call)
  exact run PartitionManager.new ⟨[], Recorded.new⟩

end Runs

end PartitionManager

section Hours

variable {Row : Type} {surroundings : Surroundings Row}

/-- The hour that a clock shows so many seconds after the start of 1970. -/
def civilHour (seconds : Int) : PartitionKey :=
  let date := Calendar.ofDayNumber (seconds / 86400)
  ⟨date.year, date.month, date.day, seconds % 86400 / 3600⟩

/-- How a timestamp column is read: `seconds` are those of a row since the start of 1970 in UTC, which a null and a value
    beyond the calendar do not have, and `offset` is how far a time zone is ahead of UTC at a moment, if it is known. -/
structure TimestampReading (Row : Type) where
  seconds : List (String × DataType) → Row → Option Int
  offset : String → Option (Int → Int)

namespace TimestampReading

variable (reading : TimestampReading Row) (schema : List (String × DataType))

/-- The hour of a row on a clock in the time zone of the column, which is UTC for a column without one. -/
def dateParts : Option (Row → Option PartitionKey) :=
  match schema.lookup "timestamp" with
  | some (.timestamp none) | some .int64 => some fun row => (reading.seconds schema row).map civilHour
  | some (.timestamp (some timezone)) =>
    (reading.offset timezone).map fun offset row =>
      (reading.seconds schema row).map fun seconds => civilHour (seconds + offset seconds)
  | _ => none

/-- The date parts of a timestamp column are in the time zone of the column. -/
def Documents (surroundings : Surroundings Row) : Prop :=
  ∀ schema type, schema.lookup "timestamp" = some type → (type = .int64 ∨ ∃ timezone, type = .timestamp timezone) →
    surroundings.dateParts schema = reading.dateParts schema

def hour (current : PartitionKey) (row : Row) : PartitionKey :=
  ((reading.dateParts schema).bind fun parts => parts row).getD current

def utcHour (current : PartitionKey) (row : Row) : PartitionKey :=
  match schema.lookup "timestamp" with
  | some (.timestamp _) | some .int64 => ((reading.seconds schema row).map civilHour).getD current
  | _ => current

variable {reading}

theorem Documents.rowKey (documented : reading.Documents surroundings) (batch : RecordBatch Row)
    (current : PartitionKey) :
    rowKey (extractTemporalComponents surroundings batch) current = reading.hour batch.schema current := by
  funext row
  have parts : extractTemporalComponents surroundings batch = reading.dateParts batch.schema := by
    cases found : batch.schema.lookup "timestamp" with
    | none => simp only [extractTemporalComponents, dateParts, found]
    | some type =>
      have same := documented batch.schema type found
      cases type with
      | timestamp timezone =>
        simp only [extractTemporalComponents, found]
        exact same (Or.inr ⟨timezone, rfl⟩)
      | int64 =>
        simp only [extractTemporalComponents, found]
        exact same (Or.inl rfl)
      | utf8 => simp only [extractTemporalComponents, dateParts, found]
      | largeUtf8 => simp only [extractTemporalComponents, dateParts, found]
      | other => simp only [extractTemporalComponents, dateParts, found]
  rw [parts, hour]
  cases reading.dateParts batch.schema with
  | none => rfl
  | some parts => rfl

end TimestampReading

end Hours

namespace PartitionManager

variable {Row : Type} {surroundings : Surroundings Row} {config : ParquetSinkConfig}

/-- What a call that has routed `rows` has written: every row once, each slice to a file whose path is the expansion of
    the pattern for the hour of its rows, and the rows of an hour in their order. -/
structure Routed (config : ParquetSinkConfig) (signal : String) (hour : Row → PartitionKey) (rows : List Row)
    (before after : PartitionManager Row) (added : List (Nat × List Row)) : Prop where
  appended : after.appended = before.appended ++ added
  once : (added.flatMap (·.2)).Perm rows
  ordered : ∀ key, (added.flatMap (·.2)).filter (hour · = key) = rows.filter (hour · = key)
  paths : ∀ slice ∈ added, ∃ path, after.paths[slice.1]? = some path ∧ ∀ row ∈ slice.2,
    ¬HasUnclosed '\x7b' '\x7d' config.partitionPattern.toList →
      IsExpansion signal (hour row) config.partitionPattern path

/-- Every file holds what was written to it, and no file has been given more than the limit. -/
structure Faithful (config : ParquetSinkConfig) (manager : PartitionManager Row) : Prop where
  closed : ∀ file ∈ manager.retired, file.rows = rowsOf manager.appended file.file
  stored : ∀ entry ∈ manager.writers, entry.2.rows = rowsOf manager.appended entry.2.file ∧
    manager.paths[entry.2.file]? = some entry.1.path
  bounded : ∀ file, 0 < config.maxRecords → (rowsOf manager.appended file).length ≤ config.maxRecords

theorem Recorded.faithful {log : List (Appended Row)} {manager : PartitionManager Row}
    (recorded : Recorded config [] log manager) : Faithful config manager := by
  refine ⟨?_, ?_, ?_⟩
  · rw [recorded.appended]
    exact recorded.closed
  · rw [recorded.appended]
    exact recorded.stored
  · rw [recorded.appended]
    exact recorded.bounded

theorem filter_groups (key : Row → PartitionKey) (rows : List Row) {groups : List PartitionKey}
    (distinct : groups.Nodup) (group : PartitionKey) :
    (groups.flatMap fun other => rows.filter (key · = other)).filter (key · = group) =
      if group ∈ groups then rows.filter (key · = group) else [] := by
  induction groups with
  | nil => rfl
  | cons other rest ih =>
    rw [List.nodup_cons] at distinct
    rw [List.flatMap_cons, List.filter_append, ih distinct.2, List.filter_filter]
    by_cases same : group = other
    · rw [if_neg (same ▸ distinct.1), if_pos (same ▸ List.mem_cons_self ..), List.append_nil]
      apply List.filter_congr
      intro row _
      rw [same, Bool.and_self]
    · have none : rows.filter (fun row => decide (key row = group) && decide (key row = other)) = [] := by
        apply List.filter_eq_nil_iff.mpr
        intro row _
        simp only [Bool.and_eq_true, decide_eq_true_eq]
        rintro ⟨rfl, equal⟩
        exact same equal
      rw [none, List.nil_append]
      simp only [List.mem_cons, same, false_or]

theorem Placed.routed {log pieces : List (Appended Row)} {signal : String} {key : Row → PartitionKey}
    {groups : List PartitionKey} {rows : List Row} {before after : PartitionManager Row}
    (placed : Placed config log (formatPartitionPath config.partitionPattern signal) key groups rows pieces after)
    (recorded : Recorded config [] log before) (distinct : groups.Nodup) (all : ∀ row ∈ rows, key row ∈ groups) :
    Routed config signal key rows before after (pieces.map Appended.entry) := by
  have slices : (pieces.map Appended.entry).flatMap (·.2) = pieces.flatMap (·.rows) := by
    rw [List.flatMap_map]
    rfl
  constructor
  · rw [placed.recorded.appended, recorded.appended, List.map_append]
  · rw [slices, placed.grouped]
    have grouped := filter_groups_perm key rows distinct
    rwa [List.filter_eq_self.mpr fun row member => decide_eq_true (all row member)] at grouped
  · intro group
    rw [slices, placed.grouped, filter_groups key rows distinct]
    split
    · rfl
    · rename_i missing
      symm
      apply List.filter_eq_nil_iff.mpr
      intro row member
      simp only [decide_eq_true_eq]
      rintro rfl
      exact missing (all row member)
  · intro slice member
    obtain ⟨piece, found, rfl⟩ := List.mem_map.mp member
    refine ⟨piece.path, placed.recorded.marked piece (List.mem_append_right _ found), fun row inside closed => ?_⟩
    exact (isExpansion_iff_eq closed).mpr (placed.paths piece found row inside)

/-- Whenever a batch is routed, each of its rows was written to one file of its hour; no file is given more than the
    limit, whatever the calls return; and the loop over the rows ends, whatever the writers hold. -/
theorem routeBatch_conserves (config : ParquetSinkConfig) {reading : TimestampReading Row}
    (documented : reading.Documents surroundings) :
    (∀ calls batch signal after,
      routeBatch surroundings config batch signal (afterCalls surroundings config calls) = (.ok (), after) →
        ∃ now added, (now = (afterCalls surroundings config calls).now ∨
            now = (afterCalls surroundings config calls).now + 1) ∧
          Routed config signal (reading.hour batch.schema (surroundings.utcNow now)) batch.rows
            (afterCalls surroundings config calls) after added) ∧
      (∀ calls, Faithful config (afterCalls surroundings config calls)) ∧
      ∀ id memory totalRows rows passes, 2 * rows.length ≤ passes →
        splitLoop surroundings config id memory totalRows passes rows =
          (routeRows surroundings config id memory totalRows rows.length rows >>= fun _ => pure []) := by
  refine ⟨?_, fun calls => ?_, fun id memory totalRows rows passes enough => splitLoop_eq enough (Nat.le_refl _)⟩
  · intro calls batch signal after succeeded
    obtain ⟨log, recorded⟩ : Sound config (afterCalls surroundings config calls) := Sound.afterCalls calls
    have triple : Fallible.Triple
        (fun manager => manager.now = (afterCalls surroundings config calls).now ∧ Recorded config [] log manager)
        (routeBatch surroundings config batch signal) _ _ :=
      routeBatch_recorded batch signal (afterCalls surroundings config calls).now
    have routed := triple _ ⟨rfl, recorded⟩
    rw [succeeded] at routed
    obtain ⟨now, groups, pieces, early, placed, distinct, all⟩ := routed
    rw [documented.rowKey] at placed all
    exact ⟨now, _, early, placed.routed recorded distinct all⟩
  · obtain ⟨log, recorded⟩ : Sound config (afterCalls surroundings config calls) := Sound.afterCalls calls
    exact recorded.faithful

def twoHours : TimestampReading (Nat × Option Bool) where
  seconds _ row := row.2.map fun later => if later then 3600 else 0
  offset timezone := if timezone = "+05:30" then some fun _ => 19800 else none

def steadySurroundings : Surroundings (Nat × Option Bool) where
  flavor := .multiThread
  clock now := now
  utcNow _ := ⟨2026, 10, 9, 12⟩
  generateFilename _ path _ := path
  startUploader _ _ := .ok ()
  newWriter _ := .ok ()
  writeBatch _ := .ok 10
  closeFile _ := .ok ()
  isFinished _ _ := true
  uploadResult _ := .uploaded
  filterRecordBatch _ := .ok 10
  dateParts schema :=
    match schema.lookup "timestamp" with
    | some (.timestamp none) | some .int64 => some fun row => row.2.map fun later => ⟨1970, 1, 1, if later then 1 else 0⟩
    | some (.timestamp (some timezone)) =>
      if timezone = "+05:30" then some fun row => row.2.map fun later => ⟨1970, 1, 1, if later then 6 else 5⟩ else none
    | _ => none
  hashOrder _ keys := keys
  hashOrder_perm _ _ := .refl _
  variantRow _ row := .ok row
  assemble _ _ := .ok 10

theorem twoHours_documents : twoHours.Documents steadySurroundings := by
  have utc : ∀ later : Bool, civilHour (if later then 3600 else 0) = ⟨1970, 1, 1, if later then 1 else 0⟩ := by
    decide +kernel
  have ahead : ∀ later : Bool,
      civilHour ((if later then 3600 else 0) + 19800) = ⟨1970, 1, 1, if later then 6 else 5⟩ := by
    decide +kernel
  intro schema type found kind
  rcases kind with rfl | ⟨timezone, rfl⟩
  · simp only [steadySurroundings, TimestampReading.dateParts, twoHours, found, Option.map_map, Function.comp_def, utc]
  · cases timezone with
    | none =>
      simp only [steadySurroundings, TimestampReading.dateParts, twoHours, found, Option.map_map, Function.comp_def, utc]
    | some timezone =>
      simp only [steadySurroundings, TimestampReading.dateParts, twoHours, found]
      split
      · simp only [Option.map_some, Option.map_map, Function.comp_def, ahead]
      · rfl

def twoRowFiles : ParquetSinkConfig := ⟨0, 0, 1, 1, 0, false, 2, canonicalPattern⟩

def mixedHours : RecordBatch (Nat × Option Bool) :=
  ⟨[("timestamp", .timestamp none)],
    [(0, some false), (1, none), (2, some true), (3, some false), (4, some true), (5, some false)], 60⟩

theorem routeBatch_conserves_mixedHours :
    ∃ now added, (now = 0 ∨ now = 1) ∧ Routed twoRowFiles "logs"
      (twoHours.hour mixedHours.schema (steadySurroundings.utcNow now)) mixedHours.rows new
      (routeBatch steadySurroundings twoRowFiles mixedHours "logs" new).2 added := by
  have succeeded : (routeBatch steadySurroundings twoRowFiles mixedHours "logs" new).1 = .ok () := by decide +kernel
  have start : afterCalls steadySurroundings twoRowFiles [] = (new : PartitionManager (Nat × Option Bool)) := rfl
  have routed := (routeBatch_conserves twoRowFiles twoHours_documents).1 [] mixedHours "logs"
    (routeBatch steadySurroundings twoRowFiles mixedHours "logs" new).2
  rw [start] at routed
  have outcome : routeBatch steadySurroundings twoRowFiles mixedHours "logs" new =
      (.ok (), (routeBatch steadySurroundings twoRowFiles mixedHours "logs" new).2) := by
    rw [← succeeded]
  obtain ⟨now, added, early, placed⟩ := routed outcome
  exact ⟨now, added, early, placed⟩

/-- A row at the start of 1970 in UTC, when it is half past five there. -/
def zonedRow : RecordBatch (Nat × Option Bool) :=
  ⟨[("timestamp", .timestamp (some "+05:30"))], [(0, some false)], 10⟩

/-- The hour of a path is that of the time zone. -/
theorem routeBatch_localHour :
    twoHours.Documents steadySurroundings ∧
      (routeBatch steadySurroundings twoRowFiles zonedRow "logs" new).1 = .ok () ∧
      ∀ now added, ¬Routed twoRowFiles "logs"
        (twoHours.utcHour zonedRow.schema (steadySurroundings.utcNow now)) zonedRow.rows new
        (routeBatch steadySurroundings twoRowFiles zonedRow "logs" new).2 added := by
  refine ⟨twoHours_documents, by decide +kernel, fun now added routed => ?_⟩
  have written : (routeBatch steadySurroundings twoRowFiles zonedRow "logs" new).2.appended =
    [(0, [(0, some false)])] := by
    decide +kernel
  have placed : (routeBatch steadySurroundings twoRowFiles zonedRow "logs" new).2.paths[0]? =
      some "signal=logs/date=1970-01-01/hour=05" := by
    decide +kernel
  have slice : (0, [(0, some false)]) ∈ added := by
    have all := routed.appended.symm.trans written
    rw [show (new : PartitionManager (Nat × Option Bool)).appended = [] from rfl, List.nil_append] at all
    rw [all]
    exact List.mem_singleton_self _
  obtain ⟨path, found, expands⟩ := routed.paths _ slice
  obtain rfl : "signal=logs/date=1970-01-01/hour=05" = path := Option.some.inj (placed.symm.trans found)
  have hour : twoHours.utcHour zonedRow.schema (steadySurroundings.utcNow now) (0, some false) = ⟨1970, 1, 1, 0⟩ :=
    show civilHour 0 = _ by decide +kernel
  have utc := (isExpansion_iff_eq canonicalPattern_closed).mp
    (expands (0, some false) (List.mem_singleton_self _) canonicalPattern_closed)
  rw [hour] at utc
  exact absurd utc (by decide +kernel)

end PartitionManager

end OtelDatalake.Parquet
