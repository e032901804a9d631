import OtelDatalake.Parquet.Partition

open OtelDatalake.Foundation

namespace OtelDatalake.Parquet

theorem keepFirst_eq_none {Error Value : Type} {first : Option Error} {result : Except Error Value} :
    keepFirst first result = none ↔ first = none ∧ ∃ value, result = .ok value := by
  cases first <;> cases result <;> simp [keepFirst]

theorem UploadResult.joined_eq_ok {result : UploadResult} : result.joined = .ok () ↔ result = .uploaded := by
  cases result <;> simp [joined]

theorem UploadResult.awaited_eq_ok {result : UploadResult} : result.awaited = .ok () ↔ result = .uploaded := by
  cases result <;> simp [awaited]

namespace PartitionManager

variable {Row : Type}

/-- The writers as a pool that is charged with their memory. -/
def pool (manager : PartitionManager Row) : LruPool PartitionId (ActiveWriter Row) :=
  ⟨manager.writers, manager.lruOrder, manager.globalMemoryBytes⟩

def core (manager : PartitionManager Row) := (manager.pool, manager.retired, manager.opened)

/-- The invariant of the writers, with `reserve` bytes of the limit left free. -/
structure Tidy (config : ParquetSinkConfig) (reserve : Nat) (manager : PartitionManager Row) : Prop where
  valid : manager.pool.Valid ActiveWriter.bufferedMemory
  slots : manager.writers.length ≤ max 1 config.maxOpenPartitions
  budget : config.globalMemoryLimitBytes ≠ 0 → manager.globalMemoryBytes + reserve ≤ config.globalMemoryLimitBytes

def Settled (surroundings : Surroundings Row) (files : List Nat) (manager : PartitionManager Row) : Prop :=
  ∀ file ∈ files, file ∈ manager.inFlightUploads ∨ surroundings.uploadResult file = .uploaded

def inUse (held : List (ActiveWriter Row)) (manager : PartitionManager Row) : List (ActiveWriter Row) :=
  held ++ manager.writers.map Prod.snd

/-- Each of `rows` is in one file: a file that was closed, whose upload has not failed so far, or one in use. -/
structure Filed (surroundings : Surroundings Row) (held : List (ActiveWriter Row)) (rows : List Row)
    (manager : PartitionManager Row) : Prop where
  rows_perm : (manager.retired.flatMap (·.rows) ++ (manager.inUse held).flatMap (·.rows)).Perm rows
  files_perm :
    (manager.retired.map (·.file) ++ (manager.inUse held).map (·.file)).Perm (List.range manager.opened)
  closed : ∀ retired ∈ manager.retired, retired.closed = .ok ()
  settled : Settled surroundings (manager.retired.map (·.file)) manager

/-- The writers are in order, and under a claim the rows are in their files. -/
structure Kept (surroundings : Surroundings Row) (config : ParquetSinkConfig) (claim : Prop) (reserve : Nat)
    (held : List (ActiveWriter Row)) (rows : List Row) (manager : PartitionManager Row) : Prop where
  tidy : manager.Tidy config reserve
  filed : claim → manager.Filed surroundings held rows

variable {surroundings : Surroundings Row} {config : ParquetSinkConfig} {claim : Prop} {reserve : Nat}
  {held : List (ActiveWriter Row)} {rows : List Row}

theorem Tidy.weaken {less : Nat} {manager : PartitionManager Row} (tidy : Tidy config reserve manager)
    (smaller : less ≤ reserve) : Tidy config less manager :=
  ⟨tidy.valid, tidy.slots, fun limited => Nat.le_trans (Nat.add_le_add_left smaller _) (tidy.budget limited)⟩

theorem Kept.weaken {weaker : Prop} {less : Nat} {manager : PartitionManager Row}
    (kept : Kept surroundings config claim reserve held rows manager) (implied : weaker → claim)
    (smaller : less ≤ reserve) : Kept surroundings config weaker less held rows manager :=
  ⟨kept.tidy.weaken smaller, fun holds => kept.filed (implied holds)⟩

theorem Kept.perm {others : List Row} {manager : PartitionManager Row}
    (kept : Kept surroundings config claim reserve held rows manager) (same : rows.Perm others) :
    Kept surroundings config claim reserve held others manager :=
  ⟨kept.tidy, fun holds =>
    ⟨(kept.filed holds).rows_perm.trans same, (kept.filed holds).files_perm, (kept.filed holds).closed,
      (kept.filed holds).settled⟩⟩

theorem Tidy.of_pool {manager reached : PartitionManager Row} (tidy : Tidy config reserve manager)
    (same : reached.pool = manager.pool) : Tidy config reserve reached := by
  have writers : reached.writers = manager.writers := congrArg LruPool.entries same
  have memory : reached.globalMemoryBytes = manager.globalMemoryBytes := congrArg LruPool.total same
  exact ⟨same ▸ tidy.valid, writers ▸ tidy.slots, memory ▸ tidy.budget⟩

theorem Filed.of_core {manager reached : PartitionManager Row} (filed : Filed surroundings held rows manager)
    (same : reached.core = manager.core) (settled : Settled surroundings (manager.retired.map (·.file)) reached) :
    Filed surroundings held rows reached := by
  simp only [core, Prod.mk.injEq] at same
  obtain ⟨pools, retired, opened⟩ := same
  have writers : reached.writers = manager.writers := congrArg LruPool.entries pools
  have used : reached.inUse held = manager.inUse held := by rw [inUse, inUse, writers]
  constructor
  · rw [retired, used]
    exact filed.rows_perm
  · rw [retired, used, opened]
    exact filed.files_perm
  · rw [retired]
    exact filed.closed
  · rw [retired]
    exact settled

theorem kept_of_core {Value : Type} {first : Manage Row Value} (fixed : Fallible.Fixes core first)
    (settles : ∀ files, Fallible.Triple (Settled surroundings files) first (fun _ => Settled surroundings files)
      (fun _ => True)) :
    Fallible.Triple (Kept surroundings config claim reserve held rows) first
      (fun _ => Kept surroundings config claim reserve held rows) (Tidy config reserve) := by
  intro manager kept
  have same := fixed manager
  have settled := fun holds => settles _ manager (kept.filed holds).settled
  revert same settled
  rcases first manager with ⟨reason | value, reached⟩
  · exact fun same _ => kept.tidy.of_pool (congrArg Prod.fst same)
  · exact fun same settled =>
      ⟨kept.tidy.of_pool (congrArg Prod.fst same), fun holds => (kept.filed holds).of_core same (settled holds)⟩

theorem Kept.of_core {manager reached : PartitionManager Row}
    (kept : Kept surroundings config claim reserve held rows manager) (same : reached.core = manager.core)
    (queued : reached.inFlightUploads = manager.inFlightUploads) :
    Kept surroundings config claim reserve held rows reached := by
  refine ⟨kept.tidy.of_pool (congrArg Prod.fst same), fun holds => (kept.filed holds).of_core same ?_⟩
  intro file member
  rw [queued]
  exact (kept.filed holds).settled file member

theorem ask_later {Answer : Type} {pre broken : PartitionManager Row → Prop} (answers : Nat → Answer)
    (later : ∀ manager, pre manager → pre { manager with now := manager.now + 1 }) :
    Fallible.Triple pre (ask answers) (fun _ => pre) broken :=
  later

theorem askFor_later {Answer : Type} {pre broken : PartitionManager Row → Prop}
    (answers : Nat → Except ParquetSinkError Answer)
    (later : ∀ manager, pre manager → pre { manager with now := manager.now + 1 })
    (failed : ∀ manager, pre manager → broken { manager with now := manager.now + 1 }) :
    Fallible.Triple pre (askFor answers) (fun _ => pre) broken := by
  intro manager holds
  simp only [askFor]
  cases answers manager.now with
  | error error => exact failed manager holds
  | ok answer => exact later manager holds

theorem Kept.passed {Value : Type} {found : Option ParquetSinkError} {manager : PartitionManager Row}
    (kept : Kept surroundings config (claim ∧ found = none) reserve held rows manager) (value : Value) :
    Kept surroundings config (claim ∧ keepFirst found (.ok value) = none) reserve held rows manager :=
  kept.weaken (fun ⟨holds, clean⟩ => ⟨holds, (keepFirst_eq_none.mp clean).1⟩) (Nat.le_refl _)

theorem Tidy.failed {Value : Type} {manager : PartitionManager Row} (tidy : Tidy config reserve manager)
    (found : Option ParquetSinkError) (reason : ParquetSinkError) :
    Kept surroundings config (claim ∧ keepFirst found (.error reason : Except _ Value) = none) reserve held rows
      manager := by
  refine ⟨tidy, fun ⟨_, clean⟩ => ?_⟩
  obtain ⟨-, value, impossible⟩ := keepFirst_eq_none.mp clean
  cases impossible

theorem attempt_kept {Value : Type} {pre : PartitionManager Row → Prop} {broken : PartitionManager Row → Prop}
    {first : Manage Row Value} {found : Option ParquetSinkError}
    (upheld : Fallible.Triple pre first (fun _ => Kept surroundings config (claim ∧ found = none) reserve held rows)
      (Tidy config reserve)) :
    Fallible.Triple pre (Fallible.attempt first)
      (fun result => Kept surroundings config (claim ∧ keepFirst found result = none) reserve held rows) broken := by
  apply Fallible.Triple.attempt (upheld.weaken (fun _ holds => holds) _ fun _ tidy => tidy)
  · exact fun reason manager tidy => tidy.failed found reason
  · exact fun value manager kept => kept.passed value

section Uploads

theorem pollUploads_settled (now : Nat) {files : List Nat} {first : Option ParquetSinkError}
    (clean : (pollUploads surroundings now files first).2 = none) :
    first = none ∧
      ∀ file ∈ files, file ∈ (pollUploads surroundings now files first).1 ∨
        surroundings.uploadResult file = .uploaded := by
  induction files generalizing first with
  | nil => exact ⟨clean, by simp⟩
  | cons file rest ih =>
    by_cases finished : surroundings.isFinished now file = true
    · rw [pollUploads, if_pos finished] at clean ⊢
      obtain ⟨kept, settled⟩ := ih clean
      obtain ⟨unset, ⟨⟩, joined⟩ := keepFirst_eq_none.mp kept
      refine ⟨unset, ?_⟩
      intro other member
      rcases List.mem_cons.mp member with rfl | member
      · exact Or.inr (UploadResult.joined_eq_ok.mp joined)
      · exact settled other member
    · rw [pollUploads, if_neg finished] at clean ⊢
      obtain ⟨unset, settled⟩ := ih clean
      refine ⟨unset, ?_⟩
      intro other member
      rcases List.mem_cons.mp member with rfl | member
      · exact Or.inl (List.mem_cons_self ..)
      · exact (settled other member).imp_left (List.mem_cons_of_mem _)

def Blind {View : Type} (view : PartitionManager Row → View) : Prop :=
  ∀ manager uploads now, view { manager with inFlightUploads := uploads, now := now } = view manager

variable {View : Type} {view : PartitionManager Row → View}

theorem checkBackgroundErrors_fixes (blind : Blind view) :
    Fallible.Fixes view (checkBackgroundErrors surroundings) := by
  unfold checkBackgroundErrors
  split
  · apply Fallible.Fixes.get
    intro manager
    exact Fallible.Fixes.bind (.modify fun _ => blind _ _ _) fun _ => .check _
  · exact Fallible.Fixes.pure ()

theorem checkBackgroundErrors_settled (files : List Nat) :
    Fallible.Triple (Settled surroundings files) (checkBackgroundErrors surroundings)
      (fun _ => Settled surroundings files) (fun _ => True) := by
  apply Fallible.Triple.ite
  · intro _
    apply Fallible.Triple.get
    intro manager
    -- Behind the poll the files are settled if it has found no error.
    apply Fallible.Triple.bind fun _ reached =>
      (pollUploads surroundings manager.now manager.inFlightUploads none).2 = none → Settled surroundings files reached
    · apply Fallible.Triple.modify
      rintro _ ⟨rfl, settled⟩ clean file member
      rcases settled file member with queued | uploaded
      · exact (pollUploads_settled _ clean).2 file queued
      · exact Or.inr uploaded
    · exact fun _ => .check (fun _ clean settled => settled clean) fun _ _ => trivial
  · exact fun _ => .pure fun _ settled => settled

theorem checkBackgroundErrors_kept :
    Fallible.Triple (Kept surroundings config claim reserve held rows) (checkBackgroundErrors surroundings)
      (fun _ => Kept surroundings config claim reserve held rows) (Tidy config reserve) :=
  kept_of_core (checkBackgroundErrors_fixes fun _ _ _ => rfl) checkBackgroundErrors_settled

theorem waitOldestInFlightUpload_fixes (blind : Blind view) :
    Fallible.Fixes view (waitOldestInFlightUpload surroundings) := by
  apply Fallible.Fixes.get
  intro manager
  split
  · exact Fallible.Fixes.pure ()
  · apply Fallible.Fixes.bind
    · exact Fallible.Fixes.modify fun reached => blind reached _ _
    intro _
    split
    · exact Fallible.Fixes.fail _
    · exact Fallible.Fixes.fail _
    · exact Fallible.Fixes.bind (.ofExcept _) fun _ => checkBackgroundErrors_fixes blind

theorem waitOldestInFlightUpload_settled (files : List Nat) :
    Fallible.Triple (Settled surroundings files) (waitOldestInFlightUpload surroundings)
      (fun _ => Settled surroundings files) (fun _ => True) := by
  apply Fallible.Triple.get
  intro manager
  split
  · exact Fallible.Triple.pure fun _ holds => holds.2
  · rename_i oldest rest queued
    -- The oldest upload has left the queue: the files are settled if it was uploaded.
    apply Fallible.Triple.bind fun _ reached =>
      surroundings.uploadResult oldest = .uploaded → Settled surroundings files reached
    · apply Fallible.Triple.modify
      rintro _ ⟨rfl, settled⟩ uploaded file member
      rcases settled file member with waiting | done
      · rw [queued, List.mem_cons] at waiting
        rcases waiting with rfl | waiting
        · exact Or.inr uploaded
        · exact Or.inl waiting
      · exact Or.inr done
    · intro _
      split
      · exact Fallible.Triple.fail fun _ _ => trivial
      · exact Fallible.Triple.fail fun _ _ => trivial
      · apply Fallible.Triple.bind fun _ => Settled surroundings files
        · exact .ofExcept (fun _ _ joined settled => settled (UploadResult.joined_eq_ok.mp joined)) fun _ _ => trivial
        · exact fun _ => checkBackgroundErrors_settled files

theorem waitOldestInFlightUpload_kept :
    Fallible.Triple (Kept surroundings config claim reserve held rows) (waitOldestInFlightUpload surroundings)
      (fun _ => Kept surroundings config claim reserve held rows) (Tidy config reserve) :=
  kept_of_core (waitOldestInFlightUpload_fixes fun _ _ _ => rfl) waitOldestInFlightUpload_settled

theorem awaitUploads_fixes (blind : Blind view) (fuel : Nat) (first : Option ParquetSinkError) :
    Fallible.Fixes view (awaitUploads surroundings config fuel first) := by
  induction fuel generalizing first with
  | zero => exact Fallible.Fixes.pure first
  | succ fuel ih =>
    apply Fallible.Fixes.get
    intro manager
    split
    · exact Fallible.Fixes.bind (waitOldestInFlightUpload_fixes blind).attempt fun waited => ih _
    · exact Fallible.Fixes.pure first

theorem awaitUploads_kept (fuel : Nat) (first : Option ParquetSinkError) :
    Fallible.Triple (Kept surroundings config (claim ∧ first = none) reserve held rows)
      (awaitUploads surroundings config fuel first)
      (fun found => Kept surroundings config (claim ∧ found = none) reserve held rows) (Tidy config reserve) := by
  induction fuel generalizing first with
  | zero => exact Fallible.Triple.pure fun _ kept => kept
  | succ fuel ih =>
    apply Fallible.Triple.get
    intro manager
    apply Fallible.Triple.ite
    · intro _
      apply Fallible.Triple.bind fun waited =>
        Kept surroundings config (claim ∧ keepFirst first waited = none) reserve held rows
      · apply attempt_kept
        exact waitOldestInFlightUpload_kept.strengthen fun _ holds => holds.2
      · exact fun waited => ih _
    · exact fun _ => .pure fun _ holds => holds.2

theorem pollUploads_length_le (now : Nat) (files : List Nat) (first : Option ParquetSinkError) :
    (pollUploads surroundings now files first).1.length ≤ files.length := by
  induction files generalizing first with
  | nil => exact Nat.le_refl _
  | cons file rest ih =>
    rw [pollUploads]
    split
    · exact Nat.le_succ_of_le (ih _)
    · exact Nat.succ_le_succ (ih first)

theorem checkBackgroundErrors_queue (length : Nat) :
    Fallible.Triple (fun manager => manager.inFlightUploads.length ≤ length) (checkBackgroundErrors surroundings)
      (fun _ manager => manager.inFlightUploads.length ≤ length)
      (fun manager => manager.inFlightUploads.length ≤ length) := by
  apply Fallible.Triple.ite
  · intro _
    apply Fallible.Triple.get
    intro read
    apply Fallible.Triple.bind fun _ (manager : PartitionManager Row) => manager.inFlightUploads.length ≤ length
    · apply Fallible.Triple.modify
      rintro _ ⟨rfl, short⟩
      exact Nat.le_trans (pollUploads_length_le _ _ _) short
    · exact fun _ => .check (fun _ _ short => short) fun _ short => short
  · exact fun _ => .pure fun _ short => short

theorem waitOldestInFlightUpload_queue (length : Nat) :
    Fallible.Triple (fun manager => manager.inFlightUploads.length ≤ length + 1)
      (waitOldestInFlightUpload surroundings) (fun _ manager => manager.inFlightUploads.length ≤ length)
      (fun manager => manager.inFlightUploads.length ≤ length) := by
  apply Fallible.Triple.get
  intro read
  split
  · rename_i none
    apply Fallible.Triple.pure
    rintro _ ⟨rfl, -⟩
    rw [none]
    exact Nat.zero_le _
  · rename_i oldest rest queued
    apply Fallible.Triple.bind fun _ (manager : PartitionManager Row) => manager.inFlightUploads.length ≤ length
    · apply Fallible.Triple.modify
      rintro _ ⟨rfl, short⟩
      rw [queued, List.length_cons] at short
      exact Nat.le_of_succ_le_succ short
    · intro _
      split
      · exact Fallible.Triple.fail fun _ short => short
      · exact Fallible.Triple.fail fun _ short => short
      · apply Fallible.Triple.bind fun _ (manager : PartitionManager Row) => manager.inFlightUploads.length ≤ length
        · exact .ofExcept (fun _ _ _ short => short) fun _ short => short
        · exact fun _ => checkBackgroundErrors_queue length

theorem awaitUploads_room (fuel : Nat) (first : Option ParquetSinkError) :
    Fallible.Triple (fun manager => manager.inFlightUploads.length ≤ fuel)
      (awaitUploads surroundings config fuel first)
      (fun _ manager => config.maxConcurrentUploads = 0 ∨ manager.inFlightUploads.length < config.maxConcurrentUploads)
      (fun _ => False) := by
  induction fuel generalizing first with
  | zero =>
    apply Fallible.Triple.pure
    intro manager short
    omega
  | succ fuel ih =>
    apply Fallible.Triple.get
    intro read
    apply Fallible.Triple.ite
    · intro _
      apply Fallible.Triple.bind fun _ (manager : PartitionManager Row) => manager.inFlightUploads.length ≤ fuel
      · apply Fallible.Triple.attempt
          ((waitOldestInFlightUpload_queue fuel).weaken (fun _ holds => holds.2) _ fun _ short => short)
        · exact fun _ _ short => short
        · exact fun _ _ short => short
      · exact fun waited => ih _
    · intro calm
      apply Fallible.Triple.pure
      rintro _ ⟨rfl, -⟩
      omega

end Uploads

section Closing

theorem Filed.retire {active : ActiveWriter Row} {manager : PartitionManager Row}
    (filed : Filed surroundings (active :: held) rows manager) :
    Filed surroundings held rows { manager with
      retired := manager.retired ++ [⟨active.file, active.rows, .ok ()⟩]
      inFlightUploads := manager.inFlightUploads ++ [active.file] } := by
  constructor
  · have moved := filed.rows_perm
    simp only [inUse, List.cons_append, List.flatMap_cons] at moved
    simpa [inUse] using moved
  · have moved := filed.files_perm
    simp only [inUse, List.cons_append, List.map_cons] at moved
    simpa [inUse] using moved
  · intro retired member
    rcases List.mem_append.mp member with member | member
    · exact filed.closed retired member
    · rw [List.mem_singleton.mp member]
  · intro file member
    rw [List.map_append, List.mem_append] at member
    rcases member with member | member
    · exact (filed.settled file member).imp_left (List.mem_append_left _)
    · exact Or.inl (List.mem_append_right _ (by simpa using member))

theorem retireActiveWriter_fixes (active : ActiveWriter Row) :
    Fallible.Fixes (fun manager => manager.writers) (retireActiveWriter surroundings config active) := by
  have checks : Fallible.Fixes (fun manager => manager.writers) (checkBackgroundErrors surroundings) :=
    checkBackgroundErrors_fixes fun _ _ _ => rfl
  apply Fallible.Fixes.bind
  · exact Fallible.Fixes.modify fun _ => rfl
  intro _
  apply Fallible.Fixes.get
  intro manager
  apply Fallible.Fixes.bind (awaitUploads_fixes (fun _ _ _ => rfl) _ _)
  intro waitError
  apply Fallible.Fixes.bind
  · exact fun _ => rfl
  intro closed
  apply Fallible.Fixes.bind
  · exact Fallible.Fixes.modify fun _ => rfl
  intro _
  split
  · exact Fallible.Fixes.fail _
  · apply Fallible.Fixes.bind
    · exact Fallible.Fixes.modify fun _ => rfl
    intro _
    apply Fallible.Fixes.bind (.ofExcept closed)
    intro _
    exact Fallible.Fixes.bind (.check waitError) fun _ => checks

theorem retireActiveWriter_kept (active : ActiveWriter Row) :
    Fallible.Triple
      (fun manager => Kept surroundings config claim reserve (active :: held) rows
        { manager with globalMemoryBytes := manager.globalMemoryBytes - active.bufferedMemory })
      (retireActiveWriter surroundings config active)
      (fun _ => Kept surroundings config claim reserve held rows) (Tidy config reserve) := by
  apply Fallible.Triple.bind fun _ => Kept surroundings config claim reserve (active :: held) rows
  · exact .modify fun _ kept => kept
  intro _
  apply Fallible.Triple.get
  intro manager
  apply Fallible.Triple.bind fun found =>
    Kept surroundings config (claim ∧ found = none) reserve (active :: held) rows
  · exact (awaitUploads_kept _ none).strengthen fun _ holds => holds.2.weaken And.left (Nat.le_refl _)
  intro waitError
  apply Fallible.Triple.bind fun _ =>
    Kept surroundings config (claim ∧ waitError = none) reserve (active :: held) rows
  · exact ask_later _ fun _ kept => kept.of_core rfl rfl
  intro closed
  -- The file is retired before its upload is queued.
  apply Fallible.Triple.bind fun _ manager =>
    Kept surroundings config ((claim ∧ waitError = none) ∧ closed = .ok ()) reserve held rows
      { manager with inFlightUploads := manager.inFlightUploads ++ [active.file] }
  · apply Fallible.Triple.modify
    intro manager kept
    refine ⟨kept.tidy.of_pool rfl, ?_⟩
    rintro ⟨holds, rfl⟩
    exact (kept.filed holds).retire
  intro _
  apply Fallible.Triple.ite
  · exact fun _ => .fail fun _ kept => kept.tidy.of_pool rfl
  intro _
  apply Fallible.Triple.bind fun _ =>
    Kept surroundings config ((claim ∧ waitError = none) ∧ closed = .ok ()) reserve held rows
  · exact .modify fun _ kept => kept
  intro _
  apply Fallible.Triple.bind fun _ => Kept surroundings config (claim ∧ waitError = none) reserve held rows
  · exact .ofExcept (fun _ _ passed kept => kept.weaken (fun holds => ⟨holds, passed⟩) (Nat.le_refl _))
      fun _ kept => kept.tidy
  intro _
  apply Fallible.Triple.bind fun _ => Kept surroundings config claim reserve held rows
  · exact .check (fun _ clean kept => kept.weaken (fun holds => ⟨holds, clean⟩) (Nat.le_refl _))
      fun _ kept => kept.tidy
  exact fun _ => checkBackgroundErrors_kept

theorem Filed.take {id : PartitionId} {active : ActiveWriter Row} {manager reached : PartitionManager Row}
    (filed : Filed surroundings held rows manager) (distinct : (manager.writers.map Prod.fst).Nodup)
    (found : manager.writers.lookup id = some active) (writers : reached.writers = without id manager.writers)
    (retired : reached.retired = manager.retired) (opened : reached.opened = manager.opened)
    (queued : reached.inFlightUploads = manager.inFlightUploads) :
    Filed surroundings (active :: held) rows reached := by
  have split : (manager.inUse held).Perm (reached.inUse (active :: held)) := by
    rw [inUse, inUse, writers, List.cons_append]
    exact (((lookup_eq_some distinct found).map Prod.snd).append_left held).trans List.perm_middle
  constructor
  · rw [retired]
    exact ((split.flatMap_right _).symm.append_left _).trans filed.rows_perm
  · rw [retired, opened]
    exact ((split.map _).symm.append_left _).trans filed.files_perm
  · rw [retired]
    exact filed.closed
  · rw [retired]
    intro file member
    rw [queued]
    exact filed.settled file member

theorem Tidy.close {id : PartitionId} {manager reached : PartitionManager Row} (tidy : Tidy config reserve manager)
    (same : reached.pool = manager.pool.close ActiveWriter.bufferedMemory id) : Tidy config reserve reached := by
  have writers : reached.writers = without id manager.writers := congrArg LruPool.entries same
  have memory : reached.globalMemoryBytes ≤ manager.globalMemoryBytes := by
    have less : (manager.pool.close ActiveWriter.bufferedMemory id).total ≤ manager.pool.total :=
      LruPool.close_total_le
    rw [← same] at less
    exact less
  have fewer : reached.writers.length ≤ manager.writers.length := writers ▸ List.length_filter_le _ _
  refine ⟨same ▸ tidy.valid.close id, Nat.le_trans fewer tidy.slots, fun limited => ?_⟩
  have bounded := tidy.budget limited
  omega

theorem Tidy.abortWriter {manager : PartitionManager Row} (tidy : Tidy config reserve manager) (id : PartitionId) :
    Tidy config reserve (abortWriter id manager) :=
  tidy.close rfl

theorem retireWriter_kept (id : PartitionId) (writers : List (PartitionId × ActiveWriter Row)) :
    Fallible.Triple
      (fun reached => ∃ manager, (manager.writers = writers ∧
          Kept surroundings config claim reserve held rows manager) ∧
        reached = { manager with lruOrder := manager.lruOrder.erase id })
      (retireWriter surroundings config id)
      (fun retired manager => manager.writers = without id writers ∧
        Kept surroundings config (claim ∧ keepFirst none retired = none) reserve held rows manager)
      (fun manager => manager.writers = without id writers ∧ Tidy config reserve manager) := by
  apply Fallible.Triple.get
  intro read
  split
  · rename_i active found
    apply Fallible.Triple.bind fun _ (manager : PartitionManager Row) =>
      manager.writers = without id writers ∧
        Kept surroundings config claim reserve (active :: held) rows
          { manager with globalMemoryBytes := manager.globalMemoryBytes - active.bufferedMemory }
    · apply Fallible.Triple.modify
      rintro _ ⟨rfl, manager, ⟨rfl, kept⟩, rfl⟩
      have taken : manager.writers.lookup id = some active := found
      refine ⟨rfl, kept.tidy.close (?_ : _ = manager.pool.close _ id), fun holds => ?_⟩
      · simp [pool, LruPool.close, taken]
      · exact (kept.filed holds).take kept.tidy.valid.distinct found rfl rfl rfl rfl
    · intro _
      apply Fallible.Triple.fixing (retireActiveWriter_fixes active).attempt
      apply attempt_kept
      exact (retireActiveWriter_kept active).strengthen fun _ kept => kept.weaken And.left (Nat.le_refl _)
  · rename_i missing
    apply Fallible.Triple.pure
    rintro _ ⟨rfl, manager, ⟨rfl, kept⟩, rfl⟩
    have absent : manager.writers.lookup id = none := missing
    have same := without_of_not_mem (lookup_eq_none absent)
    refine ⟨same.symm, kept.tidy.close (?_ : _ = manager.pool.close _ id), fun holds => ?_⟩
    · simp [pool, LruPool.close, absent, same]
    · have filed := kept.filed holds.1
      exact ⟨filed.rows_perm, filed.files_perm, filed.closed, filed.settled⟩

theorem closeWriter_kept (id : PartitionId) (writers : List (PartitionId × ActiveWriter Row)) :
    Fallible.Triple
      (fun manager => manager.writers = writers ∧ Kept surroundings config claim reserve held rows manager)
      (closeWriter surroundings config id)
      (fun _ manager => manager.writers = without id writers ∧
        Kept surroundings config claim reserve held rows manager)
      (fun manager => manager.writers = without id writers ∧ Tidy config reserve manager) := by
  have checks : Fallible.Fixes (fun manager => manager.writers) (checkBackgroundErrors surroundings) :=
    checkBackgroundErrors_fixes fun _ _ _ => rfl
  apply Fallible.Triple.bind fun _ reached =>
    ∃ manager, (manager.writers = writers ∧ Kept surroundings config claim reserve held rows manager) ∧
      reached = { manager with lruOrder := manager.lruOrder.erase id }
  · exact .modify fun manager holds => ⟨manager, holds, rfl⟩
  intro _
  apply Fallible.Triple.bind _ (retireWriter_kept id writers)
  intro retired
  apply Fallible.Triple.bind _ (Fallible.Triple.fixing checks.attempt (attempt_kept checkBackgroundErrors_kept))
  intro checked
  exact .check (fun _ clean holds => ⟨holds.1, holds.2.weaken (fun holds => ⟨holds, clean⟩) (Nat.le_refl _)⟩)
    fun _ holds => ⟨holds.1, holds.2.tidy⟩

theorem closeWriter_clears (id : PartitionId) :
    Fallible.Triple (Kept surroundings config claim reserve held rows) (closeWriter surroundings config id)
      (fun _ manager => manager.writers.lookup id = none ∧
        Kept surroundings config claim reserve held rows manager)
      (Tidy config reserve) := by
  apply Fallible.Triple.seen fun manager => manager.writers
  intro writers
  apply (closeWriter_kept id writers).weaken (fun _ holds => holds) _ fun _ holds => holds.2
  rintro _ reached ⟨cleared, kept⟩
  exact ⟨cleared ▸ lookup_without id writers, kept⟩

end Closing

end PartitionManager

end OtelDatalake.Parquet
