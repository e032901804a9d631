import OtelDatalake.Parquet.AppendLog
import OtelDatalake.Parquet.PartitionPath

open OtelDatalake.Foundation

namespace OtelDatalake.Parquet

namespace PartitionManager

variable {Row : Type} {surroundings : Surroundings Row} {config : ParquetSinkConfig}
  {held : List (PartitionId × ActiveWriter Row)} {log : List (Appended Row)}

def Sound (config : ParquetSinkConfig) (manager : PartitionManager Row) : Prop := ∃ log, Recorded config [] log manager

section Closing

theorem checkBackgroundErrors_recorded :
    Fallible.Keeps (Recorded config held log) (checkBackgroundErrors surroundings) := by
  have fixed : Fallible.Fixes trail (checkBackgroundErrors surroundings) := checkBackgroundErrors_fixes fun _ _ _ => rfl
  exact .of_fixes fixed fun _ _ same recorded => recorded.of_trail same

theorem awaitUploads_recorded (fuel : Nat) (first : Option ParquetSinkError) :
    Fallible.Keeps (Recorded config held log) (awaitUploads surroundings config fuel first) := by
  have fixed : Fallible.Fixes trail (awaitUploads surroundings config fuel first) :=
    awaitUploads_fixes (fun _ _ _ => rfl) fuel first
  exact .of_fixes fixed fun _ _ same recorded => recorded.of_trail same

theorem ask_recorded {Answer : Type} (answers : Nat → Answer) :
    Fallible.Keeps (Recorded config held log) (ask answers) :=
  fun _ recorded => recorded.of_trail rfl

theorem retireActiveWriter_recorded {id : PartitionId} (active : ActiveWriter Row) :
    Fallible.Triple (Recorded config ((id, active) :: held) log) (retireActiveWriter surroundings config active)
      (fun _ => Recorded config held log) (Recorded config held log) := by
  apply Fallible.Triple.bind fun _ => Recorded config ((id, active) :: held) log
  · exact .modify fun _ recorded => recorded.of_trail rfl
  intro _
  apply Fallible.Triple.get
  intro read
  apply Fallible.Triple.bind fun _ => Recorded config ((id, active) :: held) log
  · exact (awaitUploads_recorded _ none).triple.weaken (fun _ holds => holds.2) (fun _ _ recorded => recorded)
      fun _ recorded => recorded.drop
  intro waitError
  apply Fallible.Triple.bind fun _ => Recorded config ((id, active) :: held) log
  · exact (ask_recorded _).triple.weaken (fun _ recorded => recorded) (fun _ _ recorded => recorded)
      fun _ recorded => recorded.drop
  intro closed
  apply Fallible.Triple.bind fun _ => Recorded config held log
  · exact .modify fun _ recorded => recorded.retire closed
  intro _
  apply Fallible.Triple.ite
  · exact fun _ => .fail fun _ recorded => recorded
  intro _
  apply Fallible.Triple.bind fun _ => Recorded config held log
  · exact .modify fun _ recorded => recorded.of_trail rfl
  intro _
  apply Fallible.Triple.bind fun _ => Recorded config held log
  · exact .ofExcept (fun _ _ _ recorded => recorded) fun _ recorded => recorded
  intro _
  apply Fallible.Triple.bind fun _ => Recorded config held log
  · exact .check (fun _ _ recorded => recorded) fun _ recorded => recorded
  exact fun _ => checkBackgroundErrors_recorded.triple

theorem retireWriter_recorded (id : PartitionId) :
    Fallible.Keeps (Recorded config held log) (retireWriter surroundings config id) := by
  have triple : Fallible.Triple (Recorded config held log) (retireWriter surroundings config id)
      (fun _ => Recorded config held log) (Recorded config held log) := by
    apply Fallible.Triple.get
    intro read
    split
    · rename_i active found
      apply Fallible.Triple.bind fun _ => Recorded config ((id, active) :: held) log
      · apply Fallible.Triple.modify
        rintro _ ⟨rfl, recorded⟩
        exact recorded.take found
      · intro _
        exact .attempt (retireActiveWriter_recorded active) fun _ _ recorded => recorded
    · exact .pure fun _ holds => holds.2
  exact fun manager => triple.reaches (fun _ _ recorded => recorded) fun _ recorded => recorded

theorem closeWriter_recorded (id : PartitionId) :
    Fallible.Keeps (Recorded config held log) (closeWriter surroundings config id) := by
  apply Fallible.Keeps.bind
  · exact .modify fun _ recorded => recorded.of_trail rfl
  intro _
  apply Fallible.Keeps.bind (retireWriter_recorded id)
  intro retired
  exact Fallible.Keeps.bind checkBackgroundErrors_recorded.attempt fun checked => .check _

theorem closeWriter_writers (id : PartitionId) (manager : PartitionManager Row) :
    (closeWriter surroundings config id manager).2.writers = without id manager.writers := by
  have checks : Fallible.Fixes (fun manager => manager.writers) (checkBackgroundErrors surroundings) :=
    checkBackgroundErrors_fixes fun _ _ _ => rfl
  have retires : Fallible.Triple (fun reached => reached.writers = manager.writers)
      (retireWriter surroundings config id) (fun _ reached => reached.writers = without id manager.writers)
      (fun reached => reached.writers = without id manager.writers) := by
    apply Fallible.Triple.get
    intro read
    split
    · rename_i active found
      apply Fallible.Triple.bind fun _ (reached : PartitionManager Row) => reached.writers = without id manager.writers
      · apply Fallible.Triple.modify
        rintro _ ⟨rfl, same⟩
        rw [same]
      · exact fun _ => (Fallible.Keeps.of_fixes (retireActiveWriter_fixes active).attempt
          fun _ _ same writers => same.trans writers).triple
    · rename_i missing
      apply Fallible.Triple.pure
      rintro _ ⟨rfl, same⟩
      rw [same] at missing
      rw [same, without_of_not_mem (lookup_eq_none missing)]
  have closes : Fallible.Triple (fun reached => reached.writers = manager.writers)
      (closeWriter surroundings config id) (fun _ reached => reached.writers = without id manager.writers)
      (fun reached => reached.writers = without id manager.writers) := by
    apply Fallible.Triple.bind fun _ (reached : PartitionManager Row) => reached.writers = manager.writers
    · exact .modify fun _ same => same
    intro _
    apply Fallible.Triple.bind _ retires
    intro retired
    apply Fallible.Triple.bind _ (Fallible.Keeps.of_fixes checks.attempt fun _ _ same writers => same.trans writers).triple
    exact fun checked => (Fallible.Keeps.check _).triple
  exact closes.reaches (fun _ _ same => same) (fun _ same => same) rfl

theorem evictWhile_keeps {invariant : PartitionManager Row → Prop} (crowded : PartitionManager Row → Bool)
    (closing : ∀ id, Fallible.Keeps invariant (closeWriter surroundings config id)) (fuel : Nat) :
    Fallible.Keeps invariant (evictWhile surroundings config crowded fuel) := by
  induction fuel with
  | zero => exact .pure ()
  | succ fuel ih =>
    apply Fallible.Keeps.get
    intro read
    apply Fallible.Keeps.ite
    · apply Fallible.Keeps.bind
      · apply Fallible.Keeps.get
        intro manager
        split
        · exact .fail _
        · exact closing _
      · exact fun _ => ih
    · exact .pure ()

def Vacant (config : ParquetSinkConfig) (held : List (PartitionId × ActiveWriter Row)) (log : List (Appended Row))
    (id : PartitionId) (manager : PartitionManager Row) : Prop :=
  manager.writers.lookup id = none ∧ Recorded config held log manager

theorem closeWriter_vacant (id closed : PartitionId) :
    Fallible.Keeps (Vacant config held log id) (closeWriter surroundings config closed) := by
  intro manager vacant
  refine ⟨?_, closeWriter_recorded closed manager vacant.2⟩
  rw [closeWriter_writers]
  exact lookup_without_of_none vacant.1

theorem closeWriter_empties (id : PartitionId) :
    Fallible.Triple (Recorded config held log) (closeWriter surroundings config id)
      (fun _ => Vacant config held log id) (Recorded config held log) := by
  intro manager recorded
  have kept : Recorded config held log (closeWriter surroundings config id manager).2 :=
    closeWriter_recorded id manager recorded
  have writers : (closeWriter surroundings config id manager).2.writers = without id manager.writers :=
    closeWriter_writers id manager
  revert kept writers
  rcases closeWriter surroundings config id manager with ⟨reason | value, reached⟩
  · exact fun kept _ => kept
  · exact fun kept writers => ⟨writers ▸ lookup_without id manager.writers, kept⟩

end Closing

section Writing

theorem startUpload_recorded (id : PartitionId) :
    Fallible.Triple (Vacant config held log id) (startUpload surroundings id.path)
      (fun file => Vacant config ((id, ⟨file, [], 0, 0, 0⟩) :: held) log id) (Recorded config held log) := by
  apply Fallible.Triple.bind fun _ => Vacant config held log id
  · exact fun manager vacant => ⟨vacant.1, vacant.2.of_trail rfl⟩
  intro sequence
  apply Fallible.Triple.bind fun _ => Vacant config held log id
  · exact ask_later _ fun _ vacant => ⟨vacant.1, vacant.2.of_trail rfl⟩
  intro filename
  apply Fallible.Triple.bind fun _ => Vacant config held log id
  · exact askFor_later _ (fun _ vacant => ⟨vacant.1, vacant.2.of_trail rfl⟩) fun _ vacant => vacant.2.of_trail rfl
  intro _
  apply Fallible.Triple.get
  intro read
  apply Fallible.Triple.bind fun _ => Vacant config ((id, ⟨read.opened, [], 0, 0, 0⟩) :: held) log id
  · apply Fallible.Triple.modify
    rintro _ ⟨rfl, missing, recorded⟩
    exact ⟨missing, recorded.open rfl rfl⟩
  · exact fun _ => .pure fun _ vacant => vacant

theorem openSlice_recorded {id : PartitionId} {slice : List Row} (memory : Nat)
    (fits : 0 < config.maxRecords → slice.length ≤ config.maxRecords) :
    Fallible.Triple (Vacant config [] log id) (openSlice surroundings config id slice memory)
      (fun _ manager => ∃ file, Recorded config [] (log ++ [⟨file, id.path, slice⟩]) manager) (Sound config) := by
  apply Fallible.Triple.get
  intro read
  apply Fallible.Triple.bind fun _ => Vacant config [] log id
  · exact (evictWhile_keeps (overOpen config) (closeWriter_vacant id) _).triple.weaken (fun _ holds => holds.2)
      (fun _ _ vacant => vacant) fun _ vacant => ⟨log, vacant.2⟩
  intro _
  apply Fallible.Triple.bind _ ((startUpload_recorded id).weaken (fun _ vacant => vacant) (fun _ _ vacant => vacant)
    fun _ recorded => ⟨log, recorded⟩)
  intro file
  have later {answered : PartitionManager Row} (vacant : Vacant config [(id, ⟨file, [], 0, 0, 0⟩)] log id answered) :
      Vacant config [(id, ⟨file, [], 0, 0, 0⟩)] log id { answered with now := answered.now + 1 } :=
    ⟨vacant.1, vacant.2.of_trail rfl⟩
  apply Fallible.Triple.bind _ (askFor_later _ (fun _ => later) fun _ vacant => ⟨log, (later vacant).2.drop⟩)
  intro _
  apply Fallible.Triple.bind _ (askFor_later _ (fun _ => later) fun _ vacant => ⟨log, (later vacant).2.drop⟩)
  intro estimatedBytes
  apply Fallible.Triple.bind _ (ask_later _ fun _ => later)
  intro openedAt
  apply Fallible.Triple.bind fun _ => Vacant config [(id, ⟨file, slice, estimatedBytes, openedAt, memory⟩)]
    (log ++ [⟨file, id.path, slice⟩]) id
  · apply Fallible.Triple.modify
    rintro manager ⟨missing, recorded⟩
    have grown := recorded.write ⟨file, slice, estimatedBytes, openedAt, memory⟩ rfl (List.nil_append slice).symm fits
    exact ⟨missing, grown.of_trail rfl⟩
  intro _
  apply Fallible.Triple.ite
  · intro _
    apply Fallible.Triple.bind fun _ => Recorded config [] (log ++ [⟨file, id.path, slice⟩])
    · exact (retireActiveWriter_recorded _).weaken (fun _ vacant => vacant.2) (fun _ _ recorded => recorded)
        fun _ recorded => ⟨_, recorded⟩
    · exact fun _ => checkBackgroundErrors_recorded.triple.weaken (fun _ recorded => recorded)
        (fun _ _ recorded => ⟨file, recorded⟩) fun _ recorded => ⟨_, recorded⟩
  · intro _
    apply Fallible.Triple.modify
    rintro manager ⟨missing, recorded⟩
    refine ⟨file, recorded.store (lookup_eq_none missing) rfl ?_⟩
    simp only [put, without_of_not_mem (lookup_eq_none missing)]

theorem appendSlice_recorded {id : PartitionId} {active : ActiveWriter Row} {slice : List Row} (memory : Nat)
    (fits : 0 < config.maxRecords → (active.rows ++ slice).length ≤ config.maxRecords) :
    Fallible.Triple (fun manager => manager.writers.lookup id = some active ∧ Recorded config [] log manager)
      (appendSlice surroundings config id active slice memory)
      (fun _ => Recorded config [] (log ++ [⟨active.file, id.path, slice⟩])) (Sound config) := by
  apply Fallible.Triple.bind fun _ (manager : PartitionManager Row) =>
    manager.writers.lookup id = some active ∧ Recorded config [] log manager
  · exact fun manager holds => ⟨holds.1, holds.2.of_trail rfl⟩
  intro result
  split
  · apply Fallible.Triple.bind fun _ => Sound config
    · apply Fallible.Triple.modify
      rintro manager ⟨-, recorded⟩
      exact ⟨log, recorded.move rfl (without_keys_nodup recorded.keys id) List.filter_sublist.subperm⟩
    · exact fun _ => .fail fun _ sound => sound
  · rename_i estimatedBytes
    apply Fallible.Triple.bind fun _ => Recorded config [] (log ++ [⟨active.file, id.path, slice⟩])
    · apply Fallible.Triple.modify
      rintro manager ⟨found, recorded⟩
      have grown := (recorded.take found).write
        ⟨active.file, active.rows ++ slice, estimatedBytes, active.openedAt, active.bufferedMemory + memory⟩ rfl rfl fits
      exact grown.store (not_mem_without_keys id manager.writers) rfl rfl
    · intro _
      apply Fallible.Triple.ite
      · exact fun _ => (closeWriter_recorded id).triple.weaken (fun _ recorded => recorded) (fun _ _ recorded => recorded)
          fun _ recorded => ⟨_, recorded⟩
      · exact fun _ => .pure fun _ recorded => recorded

end Writing

section Routing

theorem writeLength_fits {written : Nat} (rows : Nat) (within : 0 < config.maxRecords → written ≤ config.maxRecords) :
    0 < config.maxRecords → written + config.writeLength written rows ≤ config.maxRecords := by
  intro limited
  have before := within limited
  rw [ParquetSinkConfig.writeLength, if_pos limited]
  omega

/-- What the loop has written for a partition: the rows in order, each slice to one of its files. -/
def Wrote (config : ParquetSinkConfig) (log : List (Appended Row)) (path : String) (rows : List Row)
    (manager : PartitionManager Row) : Prop :=
  ∃ pieces : List (Appended Row), (∀ piece ∈ pieces, piece.path = path) ∧ pieces.flatMap (·.rows) = rows ∧
    Recorded config [] (log ++ pieces) manager

theorem Wrote.none {path : String} {manager : PartitionManager Row} (recorded : Recorded config [] log manager) :
    Wrote config log path [] manager :=
  ⟨[], by simp, rfl, by rwa [List.append_nil]⟩

theorem openRound_recorded {id : PartitionId} (memory totalRows : Nat) {left : List Row} (some : left ≠ []) :
    Fallible.Triple (Vacant config [] log id)
      (do
        openSlice surroundings config id (left.take (config.writeLength 0 left.length))
          (sliceMemory memory totalRows (config.writeLength 0 left.length))
        pure (config.writeLength 0 left.length))
      (fun length manager => (0 < length ∧ length ≤ left.length) ∧
        ∃ file, Recorded config [] (log ++ [⟨file, id.path, left.take length⟩]) manager)
      (Sound config) := by
  have fits := writeLength_le config 0 left.length
  have taken : 0 < config.writeLength 0 left.length := writeLength_pos (List.length_pos_iff.mpr some) (by omega)
  have short : 0 < config.maxRecords →
      (left.take (config.writeLength 0 left.length)).length ≤ config.maxRecords := by
    rw [List.length_take_of_le fits]
    simpa using writeLength_fits left.length fun _ => Nat.zero_le config.maxRecords
  apply Fallible.Triple.bind _ (openSlice_recorded _ short)
  exact fun _ => .pure fun _ recorded => ⟨⟨taken, fits⟩, recorded⟩

theorem routeSlice_recorded (id : PartitionId) (memory totalRows : Nat) {left : List Row} (some : left ≠ []) :
    Fallible.Triple (Recorded config [] log) (routeSlice surroundings config id memory totalRows left)
      (fun length manager => (0 < length ∧ length ≤ left.length) ∧
        ∃ file, Recorded config [] (log ++ [⟨file, id.path, left.take length⟩]) manager)
      (Sound config) := by
  have empties : Fallible.Triple (Recorded config [] log) (closeWriter surroundings config id)
      (fun _ => Vacant config [] log id) (Sound config) :=
    (closeWriter_empties id).weaken (fun _ recorded => recorded) (fun _ _ vacant => vacant)
      fun _ recorded => ⟨log, recorded⟩
  apply Fallible.Triple.get
  intro read
  split
  · rename_i missing
    apply (openRound_recorded memory totalRows some).strengthen
    rintro _ ⟨rfl, recorded⟩
    exact ⟨missing, recorded⟩
  · rename_i active found
    apply Fallible.Triple.ite
    · intro _
      apply Fallible.Triple.bind _ (empties.strengthen fun _ holds => holds.2)
      exact fun _ => openRound_recorded memory totalRows some
    · intro unfilled
      have fits := writeLength_le config active.rows.length left.length
      have unfull : ¬(0 < config.maxRecords ∧ config.maxRecords ≤ active.rows.length) := by
        simpa [ParquetSinkConfig.isFullOf] using unfilled
      have taken : 0 < config.writeLength active.rows.length left.length :=
        writeLength_pos (List.length_pos_iff.mpr some) unfull
      have short : 0 < config.maxRecords →
          (active.rows ++ left.take (config.writeLength active.rows.length left.length)).length ≤
            config.maxRecords := by
        rw [List.length_append, List.length_take_of_le fits]
        exact writeLength_fits left.length fun limited => by omega
      apply Fallible.Triple.bind fun _ (manager : PartitionManager Row) =>
        manager.writers.lookup id = active ∧ Recorded config [] log manager
      · apply (ask_later _ fun manager holds => ⟨holds.1, holds.2.of_trail rfl⟩).strengthen
        rintro _ ⟨rfl, recorded⟩
        exact ⟨found, recorded⟩
      intro now
      apply Fallible.Triple.ite
      · intro _
        apply Fallible.Triple.bind _ (empties.strengthen fun _ holds => holds.2)
        exact fun _ => openRound_recorded memory totalRows some
      · intro _
        apply Fallible.Triple.bind _ (appendSlice_recorded _ short)
        exact fun _ => .pure fun _ recorded => ⟨⟨taken, fits⟩, active.file, recorded⟩

theorem routeRows_recorded (id : PartitionId) (memory totalRows : Nat) {fuel : Nat} {left : List Row}
    (enough : left.length ≤ fuel) :
    Fallible.Triple (Recorded config [] log) (routeRows surroundings config id memory totalRows fuel left)
      (fun _ => Wrote config log id.path left) (Sound config) := by
  induction fuel generalizing log left with
  | zero =>
    obtain rfl := List.eq_nil_of_length_eq_zero (Nat.le_zero.mp enough)
    exact .pure fun _ => Wrote.none
  | succ fuel ih =>
    apply Fallible.Triple.ite
    · intro none
      obtain rfl := List.isEmpty_iff.mp none
      exact .pure fun _ => Wrote.none
    · intro nonempty
      have some : left ≠ [] := fun none => nonempty (List.isEmpty_iff.mpr none)
      apply Fallible.Triple.bind _ (routeSlice_recorded id memory totalRows some)
      intro length
      apply Fallible.Triple.given fun _ holds => holds.1
      intro fits
      have shorter : (left.drop length).length ≤ fuel := by
        rw [List.length_drop]
        omega
      have rest : Fallible.Triple
          (fun manager => ∃ file, Recorded config [] (log ++ [⟨file, id.path, left.take length⟩]) manager)
          (routeRows surroundings config id memory totalRows fuel (left.drop length))
          (fun _ => Wrote config log id.path left) (Sound config) := by
        apply Fallible.Triple.choose
        intro file
        apply (ih shorter).weaken (fun _ recorded => recorded) _ fun _ sound => sound
        rintro _ manager ⟨pieces, same, rows, recorded⟩
        refine ⟨⟨file, id.path, left.take length⟩ :: pieces, ?_, ?_, ?_⟩
        · exact List.forall_mem_cons.mpr ⟨rfl, same⟩
        · rw [List.flatMap_cons, rows, List.take_append_drop]
        · rwa [List.append_assoc] at recorded
      exact rest.strengthen fun _ holds => holds.2

theorem routeSubBatch_recorded (id : PartitionId) (batch : RecordBatch Row) :
    Fallible.Triple (Recorded config [] log) (routeSubBatch surroundings config id batch)
      (fun _ => Wrote config log id.path batch.rows) (Sound config) := by
  apply Fallible.Triple.ite
  · intro none
    rw [List.isEmpty_iff.mp none]
    exact .pure fun _ => Wrote.none
  intro _
  apply Fallible.Triple.ite
  · exact fun _ => .fail fun _ recorded => ⟨log, recorded⟩
  intro _
  apply Fallible.Triple.get
  intro read
  apply Fallible.Triple.bind fun _ => Recorded config [] log
  · exact (evictWhile_keeps _ closeWriter_recorded _).triple.weaken (fun _ holds => holds.2)
      (fun _ _ recorded => recorded) fun _ recorded => ⟨log, recorded⟩
  · exact fun _ => routeRows_recorded id batch.memory batch.rows.length (Nat.le_refl _)

/-- What a call has written of some rows: each slice to a file of the partition of its rows, and the rows of one key in
    order. -/
structure Placed (config : ParquetSinkConfig) (log : List (Appended Row)) (path : PartitionKey → String)
    (key : Row → PartitionKey) (groups : List PartitionKey) (rows : List Row) (pieces : List (Appended Row))
    (manager : PartitionManager Row) : Prop where
  recorded : Recorded config [] (log ++ pieces) manager
  paths : ∀ piece ∈ pieces, ∀ row ∈ piece.rows, piece.path = path (key row)
  grouped : pieces.flatMap (·.rows) = groups.flatMap fun group => rows.filter (key · = group)

theorem routeGroups_recorded (batch : RecordBatch Row) (signal : String) (key : Row → PartitionKey)
    (groups : List PartitionKey) :
    Fallible.Triple (Recorded config [] log) (routeGroups surroundings config batch signal key groups)
      (fun _ manager => ∃ pieces, Placed config log (formatPartitionPath config.partitionPattern signal) key groups
        batch.rows pieces manager) (Sound config) := by
  induction groups generalizing log with
  | nil => exact .pure fun _ recorded => ⟨[], by rwa [List.append_nil], by simp, rfl⟩
  | cons group rest ih =>
    apply Fallible.Triple.bind _ (askFor_later _ (fun _ recorded => recorded.of_trail rfl)
      fun _ recorded => ⟨log, recorded.of_trail rfl⟩)
    intro memory
    apply Fallible.Triple.bind _ (routeSubBatch_recorded _ _)
    intro _
    apply Fallible.Triple.choose
    intro first
    apply Fallible.Triple.given fun _ holds => And.intro holds.1 holds.2.1
    rintro ⟨same, rows⟩
    have others : Fallible.Triple (Recorded config [] (log ++ first))
        (routeGroups surroundings config batch signal key rest)
        (fun _ manager => ∃ pieces, Placed config (log ++ first)
          (formatPartitionPath config.partitionPattern signal) key rest batch.rows pieces manager) (Sound config) := ih
    apply others.weaken (fun _ holds => holds.2.2) _ fun _ sound => sound
    rintro _ manager ⟨others, recorded, paths, grouped⟩
    refine ⟨first ++ others, ?_, ?_, ?_⟩
    · rwa [List.append_assoc] at recorded
    · intro piece member row inside
      rcases List.mem_append.mp member with member | member
      · have found : row ∈ first.flatMap (·.rows) := List.mem_flatMap.mpr ⟨piece, member, inside⟩
        rw [rows] at found
        rw [same piece member, of_decide_eq_true (List.mem_filter.mp found).2]
      · exact paths piece member row inside
    · rw [List.flatMap_append, List.flatMap_cons, rows, grouped]

end Routing

end PartitionManager

end OtelDatalake.Parquet
