import OtelDatalake.Parquet.Routing

open OtelDatalake.Foundation

namespace OtelDatalake.Parquet

namespace PartitionManager

variable {Row : Type} {surroundings : Surroundings Row} {config : ParquetSinkConfig} {claim : Prop} {reserve : Nat}
  {held : List (ActiveWriter Row)} {rows : List Row}

def withoutEach (ids : List PartitionId) (writers : List (PartitionId × ActiveWriter Row)) :
    List (PartitionId × ActiveWriter Row) :=
  ids.foldl (fun left id => without id left) writers

theorem mem_withoutEach {ids : List PartitionId} {writers : List (PartitionId × ActiveWriter Row)}
    {entry : PartitionId × ActiveWriter Row} (member : entry ∈ withoutEach ids writers) :
    entry ∈ writers ∧ entry.1 ∉ ids := by
  induction ids generalizing writers with
  | nil => exact ⟨member, by simp⟩
  | cons id rest ih =>
    obtain ⟨stays, other⟩ := ih member
    obtain ⟨held, differs⟩ := List.mem_filter.mp stays
    refine ⟨held, ?_⟩
    rw [List.mem_cons, not_or]
    exact ⟨by simpa using differs, other⟩

theorem withoutEach_keys {ids : List PartitionId} {writers : List (PartitionId × ActiveWriter Row)}
    (all : ids.Perm (writers.map Prod.fst)) : withoutEach ids writers = [] := by
  rw [List.eq_nil_iff_forall_not_mem]
  intro entry member
  obtain ⟨held, missing⟩ := mem_withoutEach member
  exact missing (all.mem_iff.mpr (List.mem_map_of_mem held))

theorem closeEach_kept (ids : List PartitionId) (first : Option ParquetSinkError)
    (writers : List (PartitionId × ActiveWriter Row)) :
    Fallible.Triple
      (fun manager => manager.writers = writers ∧
        Kept surroundings config (claim ∧ first = none) reserve held rows manager)
      (closeEach surroundings config ids first)
      (fun found manager => manager.writers = withoutEach ids writers ∧
        Kept surroundings config (claim ∧ found = none) reserve held rows manager)
      (Tidy config reserve) := by
  induction ids generalizing first writers with
  | nil => exact .pure fun _ holds => holds
  | cons id rest ih =>
    apply Fallible.Triple.bind fun closed (manager : PartitionManager Row) => manager.writers = without id writers ∧
      Kept surroundings config (claim ∧ keepFirst first closed = none) reserve held rows manager
    · apply Fallible.Triple.attempt
        ((closeWriter_kept id writers).weaken (fun _ holds => holds) _ fun _ holds => holds)
      · exact fun reason manager holds => ⟨holds.1, holds.2.failed first reason⟩
      · exact fun value manager holds => ⟨holds.1, holds.2.passed value⟩
    · exact fun closed => ih _ _

theorem writerKeys_kept (writers : List (PartitionId × ActiveWriter Row)) :
    Fallible.Triple
      (fun manager => manager.writers = writers ∧ Kept surroundings config claim reserve held rows manager)
      (writerKeys surroundings)
      (fun keys manager => keys.Perm (writers.map Prod.fst) ∧ manager.writers = writers ∧
        Kept surroundings config claim reserve held rows manager)
      (Tidy config reserve) := by
  rintro manager ⟨rfl, kept⟩
  exact ⟨surroundings.hashOrder_perm _ _, rfl, kept.of_core rfl rfl⟩

theorem idleKeys_kept (keys : List PartitionId) :
    Fallible.Triple (Kept surroundings config claim reserve held rows) (idleKeys surroundings config keys)
      (fun _ => Kept surroundings config claim reserve held rows) (Tidy config reserve) := by
  induction keys with
  | nil => exact .pure fun _ kept => kept
  | cons id rest ih =>
    apply Fallible.Triple.get
    intro read
    apply Fallible.Triple.bind _
      ((ask_later _ fun _ kept => Kept.of_core kept rfl rfl).strengthen fun _ holds => holds.2)
    intro now
    apply Fallible.Triple.bind _ ih
    intro others
    split
    · split
      · exact .pure fun _ kept => kept
      · exact .pure fun _ kept => kept
    · exact .pure fun _ kept => kept

theorem lastCheck_kept (first : Option ParquetSinkError) (writers : List (PartitionId × ActiveWriter Row)) :
    Fallible.Triple
      (fun manager => manager.writers = writers ∧
        Kept surroundings config (claim ∧ first = none) reserve held rows manager)
      (do
        let last ← Fallible.attempt (checkBackgroundErrors surroundings)
        Fallible.check (keepFirst first last))
      (fun _ manager => manager.writers = writers ∧ Kept surroundings config claim reserve held rows manager)
      (Tidy config reserve) := by
  have checks : Fallible.Fixes (fun manager => manager.writers) (checkBackgroundErrors surroundings) :=
    checkBackgroundErrors_fixes fun _ _ _ => rfl
  apply Fallible.Triple.bind _ ((Fallible.Triple.fixing checks.attempt (attempt_kept checkBackgroundErrors_kept)).weaken
    (fun _ holds => holds) (fun _ _ holds => holds) fun _ holds => holds.2)
  intro last
  exact .check (fun _ clean holds => ⟨holds.1, holds.2.weaken (fun holds => ⟨holds, clean⟩) (Nat.le_refl _)⟩)
    fun _ holds => holds.2.tidy

theorem sweepIdleWriters_kept :
    Fallible.Triple (Kept surroundings config claim reserve held rows) (sweepIdleWriters surroundings config)
      (fun _ => Kept surroundings config claim reserve held rows) (Tidy config reserve) := by
  apply Fallible.Triple.bind fun checked =>
    Kept surroundings config (claim ∧ keepFirst none checked = none) reserve held rows
  · apply attempt_kept
    exact checkBackgroundErrors_kept.strengthen fun _ kept => kept.weaken And.left (Nat.le_refl _)
  intro checked
  apply Fallible.Triple.ite
  · intro _
    exact .check (fun _ clean kept => kept.weaken (fun holds => ⟨holds, clean⟩) (Nat.le_refl _)) fun _ kept => kept.tidy
  intro _
  apply Fallible.Triple.seen fun manager => manager.writers
  intro writers
  apply Fallible.Triple.bind _ (writerKeys_kept writers)
  intro keys
  apply Fallible.Triple.bind _ ((idleKeys_kept keys).strengthen fun _ holds => holds.2.2)
  intro idle
  apply Fallible.Triple.seen fun manager => manager.writers
  intro swept
  apply Fallible.Triple.bind _ (closeEach_kept idle _ swept)
  intro first
  exact (lastCheck_kept first _).weaken (fun _ holds => holds) (fun _ _ holds => holds.2) fun _ tidy => tidy

theorem flushAll_kept :
    Fallible.Triple (Kept surroundings config claim reserve held rows) (flushAll surroundings config)
      (fun _ manager => manager.writers = [] ∧ Kept surroundings config claim reserve held rows manager)
      (Tidy config reserve) := by
  apply Fallible.Triple.bind fun checked =>
    Kept surroundings config (claim ∧ keepFirst none checked = none) reserve held rows
  · apply attempt_kept
    exact checkBackgroundErrors_kept.strengthen fun _ kept => kept.weaken And.left (Nat.le_refl _)
  intro checked
  apply Fallible.Triple.seen fun manager => manager.writers
  intro writers
  apply Fallible.Triple.bind _ (writerKeys_kept writers)
  intro keys
  apply Fallible.Triple.bind fun first (manager : PartitionManager Row) => manager.writers = [] ∧
    Kept surroundings config (claim ∧ first = none) reserve held rows manager
  · apply Fallible.Triple.given fun _ holds => holds.1
    intro all
    apply (closeEach_kept keys _ writers).weaken (fun _ holds => holds.2) _ fun _ tidy => tidy
    exact fun _ _ holds => ⟨holds.1.trans (withoutEach_keys all), holds.2⟩
  · exact fun first => lastCheck_kept first []

theorem awaited_clean {files : List Nat} {first : Option ParquetSinkError}
    (clean : files.foldl (fun first file => keepFirst first (surroundings.uploadResult file).awaited) first = none) :
    first = none ∧ ∀ file ∈ files, surroundings.uploadResult file = .uploaded := by
  induction files generalizing first with
  | nil => exact ⟨clean, by simp⟩
  | cons file rest ih =>
    obtain ⟨kept, uploaded⟩ := ih clean
    obtain ⟨unset, ⟨⟩, joined⟩ := keepFirst_eq_none.mp kept
    refine ⟨unset, ?_⟩
    intro other member
    rcases List.mem_cons.mp member with rfl | member
    · exact UploadResult.awaited_eq_ok.mp joined
    · exact uploaded other member

theorem waitForAllUploads_kept (writers : List (PartitionId × ActiveWriter Row)) :
    Fallible.Triple
      (fun manager => manager.writers = writers ∧ Kept surroundings config claim reserve held rows manager)
      (waitForAllUploads surroundings)
      (fun _ manager => (manager.writers = writers ∧ manager.inFlightUploads = []) ∧
        Kept surroundings config claim reserve held rows manager)
      (Tidy config reserve) := by
  apply Fallible.Triple.get
  intro read
  apply Fallible.Triple.bind fun _ (manager : PartitionManager Row) =>
    (manager.writers = writers ∧ manager.inFlightUploads = []) ∧
      Kept surroundings config
        (claim ∧ read.inFlightUploads.foldl
          (fun first file => keepFirst first (surroundings.uploadResult file).awaited) none = none)
        reserve held rows manager
  · apply Fallible.Triple.modify
    rintro _ ⟨rfl, rfl, kept⟩
    refine ⟨⟨rfl, rfl⟩, kept.tidy.of_pool rfl, ?_⟩
    rintro ⟨holds, clean⟩
    refine (kept.filed holds).of_core (?_ : core _ = _) fun file member => ?_
    · rfl
    · rcases (kept.filed holds).settled file member with queued | uploaded
      · exact Or.inr ((awaited_clean clean).2 file queued)
      · exact Or.inr uploaded
  · intro _
    exact .check
      (fun _ clean holds => ⟨holds.1, holds.2.weaken (fun holds => ⟨holds, clean⟩) (Nat.le_refl _)⟩)
      fun _ holds => holds.2.tidy

end PartitionManager

inductive ManagerCall (Row : Type) where
  | routeBatch (batch : RecordBatch Row) (signal : String)
  | sweepIdleWriters
  | checkBackgroundErrors
  | flushAll

namespace PartitionManager

variable {Row : Type} {surroundings : Surroundings Row} {config : ParquetSinkConfig}

def perform (surroundings : Surroundings Row) (config : ParquetSinkConfig) : ManagerCall Row → Manage Row Unit
  | .routeBatch batch signal => routeBatch surroundings config batch signal
  | .sweepIdleWriters => sweepIdleWriters surroundings config
  | .checkBackgroundErrors => checkBackgroundErrors surroundings
  | .flushAll => flushAll surroundings config

def afterCalls (surroundings : Surroundings Row) (config : ParquetSinkConfig) (calls : List (ManagerCall Row)) :
    PartitionManager Row :=
  calls.foldl (fun manager call => (perform surroundings config call manager).2) new

theorem Tidy.new : Tidy config 0 (PartitionManager.new : PartitionManager Row) :=
  ⟨LruPool.Valid.empty _, Nat.zero_le _, fun _ => Nat.zero_le _⟩

theorem Tidy.perform {manager : PartitionManager Row} (tidy : Tidy config 0 manager) (call : ManagerCall Row) :
    Tidy config 0 (perform surroundings config call manager).2 := by
  have kept : Kept surroundings config False 0 [] [] manager := ⟨tidy, False.elim⟩
  cases call with
  | routeBatch batch signal =>
    exact (routeBatch_kept batch signal).reaches (fun _ _ kept => kept.tidy) (fun _ tidy => tidy) kept
  | sweepIdleWriters => exact sweepIdleWriters_kept.reaches (fun _ _ kept => kept.tidy) (fun _ tidy => tidy) kept
  | checkBackgroundErrors =>
    exact checkBackgroundErrors_kept.reaches (fun _ _ kept => kept.tidy) (fun _ tidy => tidy) kept
  | flushAll => exact flushAll_kept.reaches (fun _ _ holds => holds.2.tidy) (fun _ tidy => tidy) kept

theorem Tidy.afterCalls (calls : List (ManagerCall Row)) : Tidy config 0 (afterCalls surroundings config calls) := by
  have run (manager : PartitionManager Row) (tidy : Tidy config 0 manager) :
      Tidy config 0 (calls.foldl (fun manager call => (PartitionManager.perform surroundings config call manager).2)
        manager) := by
    induction calls generalizing manager with
    | nil => exact tidy
    | cons call rest ih => exact ih _ (tidy.perform call)
  exact run PartitionManager.new Tidy.new

/-- Between any calls, the counter is the sum of the recorded memory, the order holds each key once, and both limits
    are kept. -/
theorem manager_invariant (surroundings : Surroundings Row) (config : ParquetSinkConfig)
    (calls : List (ManagerCall Row)) :
    (afterCalls surroundings config calls).globalMemoryBytes =
        ((afterCalls surroundings config calls).writers.map fun entry => entry.2.bufferedMemory).sum ∧
      ((afterCalls surroundings config calls).writers.map Prod.fst).Nodup ∧
      (∀ id, (afterCalls surroundings config calls).lruOrder.count id =
        if id ∈ (afterCalls surroundings config calls).writers.map Prod.fst then 1 else 0) ∧
      (afterCalls surroundings config calls).writers.length ≤ max 1 config.maxOpenPartitions ∧
      (config.globalMemoryLimitBytes ≠ 0 →
        (afterCalls surroundings config calls).globalMemoryBytes ≤ config.globalMemoryLimitBytes) := by
  have tidy : Tidy config 0 (afterCalls surroundings config calls) := Tidy.afterCalls calls
  refine ⟨tidy.valid.charged, tidy.valid.distinct, fun id => ?_, tidy.slots, tidy.budget⟩
  exact (tidy.valid.ordered.count_eq id).trans (List.Nodup.count tidy.valid.distinct)

end PartitionManager

end OtelDatalake.Parquet
