import OtelDatalake.Parquet.PartitionInvariant
import Mathlib.Tactic.Ring

open OtelDatalake.Foundation

namespace OtelDatalake.Parquet

namespace PartitionManager

variable {Row : Type} {surroundings : Surroundings Row} {config : ParquetSinkConfig} {claim : Prop} {reserve : Nat}
  {held : List (ActiveWriter Row)} {rows : List Row}

section Eviction

theorem overMemory_filled {memory : Nat} (manager : PartitionManager Row)
    (crowded : overMemory config memory manager = true) : manager.writers ≠ [] := by
  simp only [overMemory, Bool.and_eq_true, Bool.not_eq_true', List.isEmpty_eq_false_iff] at crowded
  exact crowded.2

theorem overOpen_filled (manager : PartitionManager Row) (crowded : overOpen config manager = true) :
    manager.writers ≠ [] := by
  simp only [overOpen, Bool.and_eq_true, Bool.not_eq_true', List.isEmpty_eq_false_iff] at crowded
  exact crowded.2

theorem evictOldest_kept (writers : List (PartitionId × ActiveWriter Row)) (filled : writers ≠ []) :
    Fallible.Triple
      (fun manager => manager.writers = writers ∧ Kept surroundings config claim reserve held rows manager)
      (evictOldest surroundings config)
      (fun _ manager => (∃ oldest, manager.writers = without oldest writers ∧ oldest ∈ writers.map Prod.fst) ∧
        Kept surroundings config claim reserve held rows manager)
      (Tidy config reserve) := by
  apply Fallible.Triple.get
  intro read
  split
  · exact .fail fun _ holds => holds.2.2.tidy
  · rename_i oldest others order
    intro manager holds
    obtain ⟨rfl, rfl, kept⟩ := holds
    have member : oldest ∈ manager.writers.map Prod.fst :=
      kept.tidy.valid.ordered.mem_iff.mp (by rw [pool, order]; exact List.mem_cons_self ..)
    have closes := closeWriter_kept oldest manager.writers manager ⟨rfl, kept⟩
    revert closes
    rcases closeWriter surroundings config oldest manager with ⟨reason | value, reached⟩
    · exact fun holds => holds.2
    · exact fun holds => ⟨⟨oldest, holds.1, member⟩, holds.2⟩

theorem evictWhile_kept {crowded : PartitionManager Row → Bool} {stable : List (PartitionId × ActiveWriter Row) → Prop}
    (filled : ∀ manager, crowded manager = true → manager.writers ≠ [])
    (closing : ∀ id writers, stable writers → stable (without id writers)) (fuel : Nat) :
    Fallible.Triple
      (fun manager => (manager.writers.length ≤ fuel ∧ stable manager.writers) ∧
        Kept surroundings config claim reserve held rows manager)
      (evictWhile surroundings config crowded fuel)
      (fun _ manager => (crowded manager = false ∧ stable manager.writers) ∧
        Kept surroundings config claim reserve held rows manager)
      (Tidy config reserve) := by
  induction fuel with
  | zero =>
    apply Fallible.Triple.pure
    rintro manager ⟨⟨short, kept⟩, holds⟩
    refine ⟨⟨?_, kept⟩, holds⟩
    cases busy : crowded manager with
    | false => rfl
    | true => exact absurd (List.eq_nil_of_length_eq_zero (Nat.le_zero.mp short)) (filled manager busy)
  | succ fuel ih =>
    apply Fallible.Triple.get
    intro read
    apply Fallible.Triple.ite
    · intro busy
      apply Fallible.Triple.bind fun _ (manager : PartitionManager Row) =>
        (manager.writers.length ≤ fuel ∧ stable manager.writers) ∧
          Kept surroundings config claim reserve held rows manager
      · intro manager holds
        obtain ⟨rfl, ⟨short, kept⟩, holds⟩ := holds
        have evicts := evictOldest_kept manager.writers (filled manager busy) manager ⟨rfl, holds⟩
        revert evicts
        rcases evictOldest surroundings config manager with ⟨reason | value, reached⟩
        · exact fun tidy => tidy
        · rintro ⟨⟨oldest, writers, member⟩, holds⟩
          refine ⟨⟨?_, writers ▸ closing oldest _ kept⟩, holds⟩
          have fewer := without_length_lt member
          rw [writers]
          omega
      · exact fun _ => ih
    · intro calm
      apply Fallible.Triple.pure
      rintro manager ⟨rfl, ⟨-, kept⟩, holds⟩
      exact ⟨⟨Bool.eq_false_iff.mpr calm, kept⟩, holds⟩

end Eviction

section Writing

theorem Filed.write {active : ActiveWriter Row} {slice : List Row} {manager : PartitionManager Row}
    (filed : Filed surroundings (active :: held) rows manager) (written : ActiveWriter Row)
    (file : written.file = active.file)
    (grown : written.rows = active.rows ++ slice) :
    Filed surroundings (written :: held) (rows ++ slice) manager := by
  refine ⟨?_, ?_, filed.closed, filed.settled⟩
  · have before := filed.rows_perm
    simp only [inUse, List.cons_append, List.flatMap_cons, grown, List.append_assoc] at before ⊢
    have moved : (manager.retired.flatMap (·.rows) ++ (active.rows ++ (slice ++
        (held ++ manager.writers.map Prod.snd).flatMap (·.rows)))).Perm
        ((manager.retired.flatMap (·.rows) ++ (active.rows ++
          (held ++ manager.writers.map Prod.snd).flatMap (·.rows))) ++ slice) := by
      rw [List.append_assoc, List.append_assoc]
      exact (List.perm_append_comm.append_left _).append_left _
    exact moved.trans (before.append_right slice)
  · have before := filed.files_perm
    simpa only [inUse, List.cons_append, List.map_cons, file] using before

theorem Filed.store {id : PartitionId} {active : ActiveWriter Row} {manager reached : PartitionManager Row}
    (filed : Filed surroundings (active :: held) rows manager)
    (writers : reached.writers = (id, active) :: manager.writers)
    (retired : reached.retired = manager.retired) (opened : reached.opened = manager.opened)
    (queued : reached.inFlightUploads = manager.inFlightUploads) : Filed surroundings held rows reached := by
  have moved : (reached.inUse held).Perm (manager.inUse (active :: held)) := by
    rw [inUse, inUse, writers, List.map_cons, List.cons_append]
    exact List.perm_middle
  constructor
  · rw [retired]
    exact ((moved.flatMap_right _).append_left _).trans filed.rows_perm
  · rw [retired, opened]
    exact ((moved.map _).append_left _).trans filed.files_perm
  · rw [retired]
    exact filed.closed
  · rw [retired]
    intro file member
    rw [queued]
    exact filed.settled file member

theorem Filed.open {active : ActiveWriter Row} {manager : PartitionManager Row}
    (filed : Filed surroundings held rows { manager with opened := active.file })
    (opened : manager.opened = active.file + 1) :
    Filed surroundings (active :: held) (rows ++ active.rows) manager := by
  refine ⟨?_, ?_, filed.closed, filed.settled⟩
  · have before := filed.rows_perm
    simp only [inUse, List.cons_append, List.flatMap_cons] at before ⊢
    have moved : (manager.retired.flatMap (·.rows) ++ (active.rows ++
        (held ++ manager.writers.map Prod.snd).flatMap (·.rows))).Perm
        ((manager.retired.flatMap (·.rows) ++ (held ++ manager.writers.map Prod.snd).flatMap (·.rows)) ++
          active.rows) := by
      rw [List.append_assoc]
      exact List.perm_append_comm.append_left _
    exact moved.trans (before.append_right active.rows)
  · have before := filed.files_perm
    simp only [inUse, List.cons_append, List.map_cons] at before ⊢
    rw [opened, List.range_succ]
    exact (List.perm_middle.trans (List.perm_append_singleton _ _).symm).trans (before.append_right _)

theorem Tidy.use {id : PartitionId} {active : ActiveWriter Row} {memory : Nat} {manager reached : PartitionManager Row}
    (tidy : Tidy config (reserve + memory) manager) (same : reached.pool = manager.pool.use id active memory)
    (costs : active.bufferedMemory =
      ((manager.writers.lookup id).map ActiveWriter.bufferedMemory).getD 0 + memory)
    (room : manager.writers.lookup id = none → manager.writers.length < max 1 config.maxOpenPartitions) :
    Tidy config reserve reached := by
  have length : reached.writers.length = _ :=
    (congrArg (List.length ∘ LruPool.entries) same).trans tidy.valid.use_entries_length
  have memory : reached.globalMemoryBytes = manager.globalMemoryBytes + memory := congrArg LruPool.total same
  refine ⟨same ▸ tidy.valid.use costs, ?_, fun limited => ?_⟩
  · cases found : manager.writers.lookup id with
    | none =>
      have fits := room found
      simp only [pool, found] at length
      simp only [Option.isSome_none, Bool.false_eq_true, if_false] at length
      omega
    | some held =>
      have fits := tidy.slots
      simp only [pool, found] at length
      simp only [Option.isSome_some, if_true] at length
      omega
  · have bounded := tidy.budget limited
    omega

theorem appendSlice_kept {id : PartitionId} {active : ActiveWriter Row} (slice : List Row) (memory : Nat) :
    Fallible.Triple
      (fun manager => manager.writers.lookup id = some active ∧
        Kept surroundings config claim (reserve + memory) held rows manager)
      (appendSlice surroundings config id active slice memory)
      (fun _ => Kept surroundings config claim reserve held (rows ++ slice)) (Tidy config reserve) := by
  apply Fallible.Triple.bind fun _ (manager : PartitionManager Row) => manager.writers.lookup id = some active ∧
    Kept surroundings config claim (reserve + memory) held rows manager
  · exact fun manager holds => ⟨holds.1, holds.2.of_core rfl rfl⟩
  intro result
  split
  · apply Fallible.Triple.bind fun _ => Tidy config reserve
    · exact .modify fun _ holds => (holds.2.tidy.weaken (Nat.le_add_right _ _)).abortWriter id
    · exact fun _ => .fail fun _ tidy => tidy
  · rename_i estimatedBytes
    apply Fallible.Triple.bind fun _ => Kept surroundings config claim reserve held (rows ++ slice)
    · apply Fallible.Triple.modify
      rintro manager ⟨found, kept⟩
      refine ⟨kept.tidy.use rfl ?_ fun missing => ?_, fun holds => ?_⟩
      · simp [found]
      · simp [found] at missing
      · have taken : Filed surroundings (active :: held) rows { manager with writers := without id manager.writers } :=
          (kept.filed holds).take kept.tidy.valid.distinct found rfl rfl rfl rfl
        have grown := taken.write
          ⟨active.file, active.rows ++ slice, estimatedBytes, active.openedAt, active.bufferedMemory + memory⟩ rfl rfl
        exact grown.store rfl rfl rfl rfl
    · intro _
      apply Fallible.Triple.ite
      · intro _
        exact (closeWriter_clears id).weaken (fun _ kept => kept) (fun _ _ holds => holds.2) fun _ tidy => tidy
      · exact fun _ => .pure fun _ kept => kept

/-- There is room for a writer of the partition, which has none. -/
def Roomy (config : ParquetSinkConfig) (id : PartitionId) (writers : List (PartitionId × ActiveWriter Row)) : Prop :=
  writers.length < max 1 config.maxOpenPartitions ∧ writers.lookup id = none

theorem roomy_of_calm {id : PartitionId} {manager : PartitionManager Row} (calm : overOpen config manager = false)
    (missing : manager.writers.lookup id = none) : Roomy config id manager.writers := by
  refine ⟨?_, missing⟩
  cases writers : manager.writers with
  | nil => simp
  | cons entry rest =>
    simp only [overOpen, writers, List.isEmpty_cons, Bool.not_false, Bool.and_true, decide_eq_false_iff_not] at calm
    omega

def Ready (surroundings : Surroundings Row) (config : ParquetSinkConfig) (claim : Prop) (reserve : Nat)
    (held : List (ActiveWriter Row)) (rows : List Row) (id : PartitionId) (file : Nat) (manager : PartitionManager Row) :
    Prop :=
  (Roomy config id manager.writers ∧ manager.opened = file + 1) ∧
    Kept surroundings config claim reserve held rows { manager with opened := file }

theorem Ready.later {id : PartitionId} {file : Nat} {manager : PartitionManager Row}
    (ready : Ready surroundings config claim reserve held rows id file manager) :
    Ready surroundings config claim reserve held rows id file { manager with now := manager.now + 1 } :=
  ⟨ready.1, ready.2.of_core rfl rfl⟩

theorem Ready.tidy {id : PartitionId} {file : Nat} {manager : PartitionManager Row}
    (ready : Ready surroundings config claim reserve held rows id file manager) : Tidy config reserve manager :=
  ready.2.tidy.of_pool rfl

theorem startUpload_ready (id : PartitionId) :
    Fallible.Triple
      (fun manager => Roomy config id manager.writers ∧ Kept surroundings config claim reserve held rows manager)
      (startUpload surroundings id.path) (Ready surroundings config claim reserve held rows id) (Tidy config reserve) := by
  apply Fallible.Triple.bind fun _ (manager : PartitionManager Row) =>
    Roomy config id manager.writers ∧ Kept surroundings config claim reserve held rows manager
  · exact fun manager holds => ⟨holds.1, holds.2.of_core rfl rfl⟩
  intro sequence
  apply Fallible.Triple.bind fun _ (manager : PartitionManager Row) =>
    Roomy config id manager.writers ∧ Kept surroundings config claim reserve held rows manager
  · exact ask_later _ fun manager holds => ⟨holds.1, holds.2.of_core rfl rfl⟩
  intro filename
  apply Fallible.Triple.bind fun _ (manager : PartitionManager Row) =>
    Roomy config id manager.writers ∧ Kept surroundings config claim reserve held rows manager
  · exact askFor_later _ (fun manager holds => ⟨holds.1, holds.2.of_core rfl rfl⟩)
      fun manager holds => holds.2.tidy.of_pool rfl
  intro _
  apply Fallible.Triple.get
  intro manager
  apply Fallible.Triple.bind fun _ => Ready surroundings config claim reserve held rows id manager.opened
  · apply Fallible.Triple.modify
    rintro _ ⟨rfl, roomy, kept⟩
    exact ⟨⟨roomy, rfl⟩, kept.of_core rfl rfl⟩
  · exact fun _ => .pure fun _ ready => ready

theorem Ready.store {id : PartitionId} (active : ActiveWriter Row) {manager : PartitionManager Row}
    (ready : Ready surroundings config claim (reserve + active.bufferedMemory) held rows id active.file manager) :
    Kept surroundings config claim reserve held (rows ++ active.rows) { manager with
      globalMemoryBytes := manager.globalMemoryBytes + active.bufferedMemory
      writers := put id active manager.writers
      lruOrder := manager.lruOrder ++ [id] } := by
  obtain ⟨⟨⟨room, missing⟩, opened⟩, kept⟩ := ready
  have absent := lookup_eq_none missing
  have unordered : id ∉ manager.lruOrder := fun member => absent (kept.tidy.valid.ordered.mem_iff.mp member)
  refine ⟨kept.tidy.use (?_ : _ = LruPool.use _ id active _) ?_ fun _ => room, fun holds => ?_⟩
  · simp only [pool, LruPool.use, List.erase_of_not_mem unordered]
  · simp only [missing, Option.map_none, Option.getD_none, Nat.zero_add]
  · refine ((kept.filed holds).open opened).store (?_ : _ = (id, active) :: _) rfl rfl rfl
    simp only [put, without_of_not_mem absent]

theorem openSlice_kept {id : PartitionId} (slice : List Row) (memory : Nat) :
    Fallible.Triple
      (fun manager => manager.writers.lookup id = none ∧
        Kept surroundings config claim (reserve + memory) held rows manager)
      (openSlice surroundings config id slice memory)
      (fun _ => Kept surroundings config claim reserve held (rows ++ slice)) (Tidy config reserve) := by
  have less {manager : PartitionManager Row} (tidy : Tidy config (reserve + memory) manager) :
      Tidy config reserve manager := tidy.weaken (Nat.le_add_right _ _)
  apply Fallible.Triple.get
  intro read
  apply Fallible.Triple.bind fun _ (manager : PartitionManager Row) =>
    Roomy config id manager.writers ∧ Kept surroundings config claim (reserve + memory) held rows manager
  · apply (evictWhile_kept overOpen_filled
      (fun _ writers (missing : writers.lookup id = none) => lookup_without_of_none missing) _).weaken
    · rintro _ ⟨rfl, missing, kept⟩
      exact ⟨⟨Nat.le_refl _, missing⟩, kept⟩
    · exact fun _ _ holds => ⟨roomy_of_calm holds.1.1 holds.1.2, holds.2⟩
    · exact fun _ => less
  intro _
  apply Fallible.Triple.bind _ ((startUpload_ready id).weaken (fun _ holds => holds) (fun _ _ ready => ready)
    fun _ => less)
  intro file
  apply Fallible.Triple.bind _ (askFor_later _ (fun _ => Ready.later) fun _ ready => less ready.later.tidy)
  intro _
  apply Fallible.Triple.bind _ (askFor_later _ (fun _ => Ready.later) fun _ ready => less ready.later.tidy)
  intro estimatedBytes
  apply Fallible.Triple.bind _ (ask_later _ fun _ => Ready.later)
  intro openedAt
  apply Fallible.Triple.bind fun _ (manager : PartitionManager Row) => memory ≤ manager.globalMemoryBytes ∧
    Ready surroundings config claim (reserve + memory) held rows id file
      { manager with globalMemoryBytes := manager.globalMemoryBytes - memory }
  · apply Fallible.Triple.modify
    intro manager ready
    refine ⟨Nat.le_add_left _ _, ?_⟩
    simp only [Nat.add_sub_cancel]
    exact ⟨ready.1, ready.2.of_core rfl rfl⟩
  intro _
  apply Fallible.Triple.ite
  · intro _
    apply Fallible.Triple.bind fun _ => Kept surroundings config claim reserve held (rows ++ slice)
    · apply (retireActiveWriter_kept _).strengthen
      rintro manager ⟨-, ready⟩
      refine ⟨less ready.tidy, fun holds => ?_⟩
      exact Filed.open (ready.2.filed holds) ready.1.2
    · exact fun _ => checkBackgroundErrors_kept
  · intro _
    apply Fallible.Triple.modify
    rintro manager ⟨charged, ready⟩
    have stored := Ready.store ⟨file, slice, estimatedBytes, openedAt, memory⟩ ready
    simpa only [Nat.sub_add_cancel charged] using stored

end Writing

section Routing

theorem sliceMemory_add_le (memory totalRows : Nat) {length left : Nat} (fits : length ≤ left) :
    memory * (left - length) / totalRows + sliceMemory memory totalRows length ≤ memory * left / totalRows := by
  have wrapped : sliceMemory memory totalRows length ≤ memory * length / totalRows :=
    Nat.div_le_div_right (Nat.mod_le _ _)
  have parts : memory * (left - length) + memory * length = memory * left := by
    rw [← Nat.mul_add, Nat.sub_add_cancel fits]
  have sums : memory * (left - length) / totalRows + memory * length / totalRows ≤ memory * left / totalRows := by
    rw [← parts]
    exact Nat.div_add_div_le_add_div
  omega

theorem writeLength_pos {written left : Nat} (some : 0 < left)
    (unfilled : ¬(0 < config.maxRecords ∧ config.maxRecords ≤ written)) : 0 < config.writeLength written left := by
  unfold ParquetSinkConfig.writeLength
  split <;> omega

theorem writeLength_le (config : ParquetSinkConfig) (written left : Nat) : config.writeLength written left ≤ left := by
  unfold ParquetSinkConfig.writeLength
  split <;> omega

theorem openRound_kept {id : PartitionId} (memory totalRows : Nat) {left : List Row} (some : left ≠ []) :
    Fallible.Triple
      (fun manager => manager.writers.lookup id = none ∧
        Kept surroundings config claim (memory * left.length / totalRows) held rows manager)
      (do
        openSlice surroundings config id (left.take (config.writeLength 0 left.length))
          (sliceMemory memory totalRows (config.writeLength 0 left.length))
        pure (config.writeLength 0 left.length))
      (fun length manager => (0 < length ∧ length ≤ left.length) ∧
        Kept surroundings config claim (memory * (left.length - length) / totalRows) held
          (rows ++ left.take length) manager)
      (Tidy config 0) := by
  have fits := writeLength_le config 0 left.length
  have taken : 0 < config.writeLength 0 left.length := writeLength_pos (List.length_pos_iff.mpr some) (by omega)
  apply Fallible.Triple.bind fun _ => Kept surroundings config claim
    (memory * (left.length - config.writeLength 0 left.length) / totalRows) held
    (rows ++ left.take (config.writeLength 0 left.length))
  · apply (openSlice_kept _ _).weaken
    · rintro manager ⟨missing, kept⟩
      exact ⟨missing, kept.weaken (fun holds => holds) (sliceMemory_add_le memory totalRows fits)⟩
    · exact fun _ _ kept => kept
    · exact fun _ tidy => tidy.weaken (Nat.zero_le _)
  · exact fun _ => .pure fun _ kept => ⟨⟨taken, fits⟩, kept⟩

theorem routeSlice_kept (id : PartitionId) (memory totalRows : Nat) {left : List Row} (some : left ≠ []) :
    Fallible.Triple (Kept surroundings config claim (memory * left.length / totalRows) held rows)
      (routeSlice surroundings config id memory totalRows left)
      (fun length manager => (0 < length ∧ length ≤ left.length) ∧
        Kept surroundings config claim (memory * (left.length - length) / totalRows) held
          (rows ++ left.take length) manager)
      (Tidy config 0) := by
  have closes : Fallible.Triple (Kept surroundings config claim (memory * left.length / totalRows) held rows)
      (closeWriter surroundings config id)
      (fun _ manager => manager.writers.lookup id = none ∧
        Kept surroundings config claim (memory * left.length / totalRows) held rows manager) (Tidy config 0) :=
    (closeWriter_clears id).weaken (fun _ kept => kept) (fun _ _ holds => holds)
      fun _ tidy => tidy.weaken (Nat.zero_le _)
  apply Fallible.Triple.get
  intro read
  split
  · rename_i missing
    apply (openRound_kept memory totalRows some).strengthen
    rintro _ ⟨rfl, kept⟩
    exact ⟨missing, kept⟩
  · rename_i active found
    apply Fallible.Triple.ite
    · intro _
      apply Fallible.Triple.bind _ (closes.strengthen fun _ holds => holds.2)
      exact fun _ => openRound_kept memory totalRows some
    · intro unfilled
      have fits := writeLength_le config active.rows.length left.length
      have taken : 0 < config.writeLength active.rows.length left.length :=
        writeLength_pos (List.length_pos_iff.mpr some) (by simpa [ParquetSinkConfig.isFullOf] using unfilled)
      apply Fallible.Triple.bind fun _ (manager : PartitionManager Row) =>
        manager.writers.lookup id = active ∧
          Kept surroundings config claim (memory * left.length / totalRows) held rows manager
      · apply (ask_later _ fun manager holds => ⟨holds.1, holds.2.of_core rfl rfl⟩ ).strengthen
        rintro _ ⟨rfl, kept⟩
        exact ⟨found, kept⟩
      intro now
      apply Fallible.Triple.ite
      · intro _
        apply Fallible.Triple.bind _ (closes.strengthen fun _ holds => holds.2)
        exact fun _ => openRound_kept memory totalRows some
      · intro _
        apply Fallible.Triple.bind fun _ => Kept surroundings config claim
          (memory * (left.length - config.writeLength active.rows.length left.length) / totalRows) held
          (rows ++ left.take (config.writeLength active.rows.length left.length))
        · apply (appendSlice_kept _ _).weaken
          · rintro manager ⟨found, kept⟩
            exact ⟨found, kept.weaken (fun holds => holds) (sliceMemory_add_le memory totalRows fits)⟩
          · exact fun _ _ kept => kept
          · exact fun _ tidy => tidy.weaken (Nat.zero_le _)
        · exact fun _ => .pure fun _ kept => ⟨⟨taken, fits⟩, kept⟩

theorem routeRows_kept (id : PartitionId) (memory totalRows : Nat) {fuel : Nat} {left : List Row}
    (enough : left.length ≤ fuel) :
    Fallible.Triple (Kept surroundings config claim (memory * left.length / totalRows) held rows)
      (routeRows surroundings config id memory totalRows fuel left)
      (fun _ => Kept surroundings config claim 0 held (rows ++ left)) (Tidy config 0) := by
  induction fuel generalizing rows left with
  | zero =>
    obtain rfl := List.eq_nil_of_length_eq_zero (Nat.le_zero.mp enough)
    exact .pure fun _ kept => by simpa using kept
  | succ fuel ih =>
    apply Fallible.Triple.ite
    · intro none
      obtain rfl := List.isEmpty_iff.mp none
      exact .pure fun _ kept => by simpa using kept
    · intro nonempty
      have some : left ≠ [] := fun none => nonempty (List.isEmpty_iff.mpr none)
      apply Fallible.Triple.bind _ (routeSlice_kept id memory totalRows some)
      intro length
      apply Fallible.Triple.given fun _ holds => holds.1
      intro fits
      have shorter : (left.drop length).length ≤ fuel := by
        rw [List.length_drop]
        omega
      have rest : Fallible.Triple
          (Kept surroundings config claim (memory * (left.drop length).length / totalRows) held
            (rows ++ left.take length))
          (routeRows surroundings config id memory totalRows fuel (left.drop length))
          (fun _ => Kept surroundings config claim 0 held (rows ++ left.take length ++ left.drop length))
          (Tidy config 0) := ih shorter
      rw [List.length_drop, List.append_assoc, List.take_append_drop] at rest
      exact rest.strengthen fun _ holds => holds.2

theorem Kept.reserve_batch {memory : Nat} {manager : PartitionManager Row}
    (kept : Kept surroundings config claim 0 held rows manager)
    (calm : overMemory config memory manager = false)
    (fits : ¬(0 < config.globalMemoryLimitBytes ∧ config.globalMemoryLimitBytes < memory)) :
    Kept surroundings config claim memory held rows manager := by
  refine ⟨⟨kept.tidy.valid, kept.tidy.slots, fun limited => ?_⟩, kept.filed⟩
  have charged := kept.tidy.valid.charged
  cases writers : manager.writers with
  | nil =>
    -- Without writers nothing is charged, and the batch alone is within the limit.
    simp only [pool, writers, List.map_nil, List.sum_nil] at charged
    omega
  | cons entry rest =>
    simp only [overMemory, writers, List.isEmpty_cons, Bool.not_false, Bool.and_true,
      decide_eq_false_iff_not] at calm
    omega

theorem routeSubBatch_kept (id : PartitionId) (batch : RecordBatch Row) :
    Fallible.Triple (Kept surroundings config claim 0 held rows) (routeSubBatch surroundings config id batch)
      (fun _ => Kept surroundings config claim 0 held (rows ++ batch.rows)) (Tidy config 0) := by
  apply Fallible.Triple.ite
  · intro none
    rw [List.isEmpty_iff.mp none, List.append_nil]
    exact .pure fun _ kept => kept
  intro some
  apply Fallible.Triple.ite
  · exact fun _ => .fail fun _ kept => kept.tidy
  intro fits
  apply Fallible.Triple.get
  intro read
  apply Fallible.Triple.bind fun _ => Kept surroundings config claim batch.memory held rows
  · apply (evictWhile_kept overMemory_filled (fun _ _ (_ : True) => trivial) _).weaken
    · rintro _ ⟨rfl, kept⟩
      exact ⟨⟨Nat.le_refl _, trivial⟩, kept⟩
    · exact fun _ _ holds => holds.2.reserve_batch holds.1.1 fits
    · exact fun _ tidy => tidy
  · intro _
    have filled : 0 < batch.rows.length := List.length_pos_iff.mpr fun none => some (List.isEmpty_iff.mpr none)
    apply (routeRows_kept id batch.memory batch.rows.length (Nat.le_refl _)).strengthen
    intro manager kept
    rwa [Nat.mul_div_cancel _ filled]

end Routing

section Groups

theorem filter_groups_perm (key : Row → PartitionKey) (batch : List Row) {groups : List PartitionKey}
    (distinct : groups.Nodup) :
    (groups.flatMap fun group => batch.filter (key · = group)).Perm (batch.filter (key · ∈ groups)) := by
  induction groups with
  | nil => simp
  | cons group rest ih =>
    rw [List.nodup_cons] at distinct
    have split := List.filter_append_perm (fun row => decide (key row = group))
      (batch.filter (key · ∈ group :: rest))
    have first : (batch.filter (key · ∈ group :: rest)).filter (fun row => decide (key row = group)) =
        batch.filter (key · = group) := by
      rw [List.filter_filter]
      apply List.filter_congr
      intro row _
      by_cases same : key row = group <;> simp [same]
    have others : (batch.filter (key · ∈ group :: rest)).filter (fun row => !decide (key row = group)) =
        batch.filter (key · ∈ rest) := by
      rw [List.filter_filter]
      apply List.filter_congr
      intro row _
      by_cases same : key row = group
      · simp [same, distinct.1]
      · simp [same]
    rw [first, others] at split
    exact ((ih distinct.2).append_left _).trans split

theorem distinctKeys_spec (keys : List PartitionKey) :
    (distinctKeys keys).Nodup ∧ ∀ key ∈ keys, key ∈ distinctKeys keys := by
  -- The keys seen so far are distinct, and none of them is lost.
  have spec (keys seen : List PartitionKey) (distinct : seen.Nodup) :
      (keys.foldl (fun distinct key => if key ∈ distinct then distinct else distinct ++ [key]) seen).Nodup ∧
        ∀ key, key ∈ seen ∨ key ∈ keys →
          key ∈ keys.foldl (fun distinct key => if key ∈ distinct then distinct else distinct ++ [key]) seen := by
    induction keys generalizing seen with
    | nil => exact ⟨distinct, by simp⟩
    | cons key rest ih =>
      rw [List.foldl_cons]
      by_cases known : key ∈ seen
      · rw [if_pos known]
        refine ⟨(ih seen distinct).1, fun other member => (ih seen distinct).2 other ?_⟩
        rcases member with member | member
        · exact Or.inl member
        · rcases List.mem_cons.mp member with rfl | member
          · exact Or.inl known
          · exact Or.inr member
      · rw [if_neg known]
        have grown : (seen ++ [key]).Nodup := by
          rw [List.nodup_append]
          exact ⟨distinct, List.nodup_singleton key, by
            rintro other member _ same rfl
            exact known (List.mem_singleton.mp same ▸ member)⟩
        refine ⟨(ih _ grown).1, fun other member => (ih _ grown).2 other ?_⟩
        rcases member with member | member
        · exact Or.inl (List.mem_append_left _ member)
        · rcases List.mem_cons.mp member with rfl | member
          · exact Or.inl (List.mem_append_right _ (List.mem_singleton_self _))
          · exact Or.inr member
  exact ⟨(spec keys [] .nil).1, fun key member => (spec keys [] .nil).2 key (Or.inr member)⟩

theorem routeGroups_kept (batch : RecordBatch Row) (signal : String) (key : Row → PartitionKey)
    (groups : List PartitionKey) :
    Fallible.Triple (Kept surroundings config claim 0 held rows)
      (routeGroups surroundings config batch signal key groups)
      (fun _ => Kept surroundings config claim 0 held
        (rows ++ groups.flatMap fun group => batch.rows.filter (key · = group))) (Tidy config 0) := by
  induction groups generalizing rows with
  | nil =>
    exact .pure fun _ kept => by simpa using kept
  | cons group rest ih =>
    apply Fallible.Triple.bind _ (askFor_later _ (fun _ kept => kept.of_core rfl rfl) fun _ kept => kept.tidy.of_pool rfl)
    intro memory
    apply Fallible.Triple.bind _ (routeSubBatch_kept _ _)
    intro _
    rw [List.flatMap_cons, ← List.append_assoc]
    exact ih

theorem routeBatch_kept (batch : RecordBatch Row) (signal : String) :
    Fallible.Triple (Kept surroundings config claim 0 held rows) (routeBatch surroundings config batch signal)
      (fun _ => Kept surroundings config claim 0 held (rows ++ batch.rows)) (Tidy config 0) := by
  apply Fallible.Triple.bind _ checkBackgroundErrors_kept
  intro _
  split
  · rename_i none
    rw [none, List.append_nil]
    exact .pure fun _ kept => kept
  · apply Fallible.Triple.bind _ (ask_later _ fun _ kept => kept.of_core rfl rfl)
    intro fallback
    apply Fallible.Triple.ite
    · exact fun _ => routeSubBatch_kept _ _
    · intro _
      apply (routeGroups_kept _ _ _ _).weaken (fun _ kept => kept) _ fun _ tidy => tidy
      intro _ manager kept
      have spec := distinctKeys_spec
        (batch.rows.map (rowKey (extractTemporalComponents surroundings batch) fallback))
      have grouped := filter_groups_perm (rowKey (extractTemporalComponents surroundings batch) fallback) batch.rows spec.1
      have all : batch.rows.filter (fun row => rowKey (extractTemporalComponents surroundings batch) fallback row ∈
          distinctKeys (batch.rows.map (rowKey (extractTemporalComponents surroundings batch) fallback))) =
          batch.rows :=
        List.filter_eq_self.mpr fun row member => decide_eq_true (spec.2 _ (List.mem_map_of_mem member))
      rw [all] at grouped
      exact kept.perm (grouped.append_left rows)

end Groups

end PartitionManager

end OtelDatalake.Parquet
