import OtelDatalake.Parquet.RowPlacement

open OtelDatalake.Foundation

namespace OtelDatalake.Parquet

namespace PartitionManager

variable {Row : Type} (surroundings : Surroundings Row) (config : ParquetSinkConfig)

/-- One pass of the loop over the rows as it is written, with the rows it leaves: a pass that rolls the file leaves all. -/
def splitPass (id : PartitionId) (memory totalRows : Nat) (rows : List Row) : Manage Row (List Row) := do
  let manager ← Fallible.get
  match manager.writers.lookup id with
  | none => do
    let length := config.writeLength 0 rows.length
    openSlice surroundings config id (rows.take length) (sliceMemory memory totalRows length)
    pure (rows.drop length)
  | some active =>
    if config.isFullOf active.rows then do
      closeWriter surroundings config id
      pure rows
    else do
      let length := config.writeLength active.rows.length rows.length
      let now ← ask surroundings.clock
      if config.isLarge active || config.isOld active now then do
        closeWriter surroundings config id
        pure rows
      else do
        appendSlice surroundings config id active (rows.take length) (sliceMemory memory totalRows length)
        pure (rows.drop length)

/-- The loop for a number of passes, with the rows that are left then. -/
def splitLoop (id : PartitionId) (memory totalRows : Nat) : Nat → List Row → Manage Row (List Row)
  | 0, rows => pure rows
  | passes + 1, rows =>
    if rows.isEmpty then pure []
    else do
      let left ← splitPass surroundings config id memory totalRows rows
      splitLoop id memory totalRows passes left

variable {surroundings config} {id : PartitionId} {memory totalRows : Nat} {rows : List Row}

theorem splitPass_vacant {manager : PartitionManager Row} (missing : manager.writers.lookup id = none) :
    splitPass surroundings config id memory totalRows rows manager =
      (routeSlice surroundings config id memory totalRows rows >>= fun length => pure (rows.drop length)) manager := by
  have read : (Fallible.get : Manage Row (PartitionManager Row)) manager = (.ok manager, manager) := rfl
  simp only [splitPass, routeSlice, Fallible.bind_assoc, Fallible.bind_of_ok read, missing]
  rfl

theorem closeWriter_round (before : PartitionManager Row) :
    (closeWriter surroundings config id >>= fun _ => do
        openSlice surroundings config id (rows.take (config.writeLength 0 rows.length))
          (sliceMemory memory totalRows (config.writeLength 0 rows.length))
        pure (config.writeLength 0 rows.length)) before =
      (closeWriter surroundings config id >>= fun _ =>
        routeSlice surroundings config id memory totalRows rows) before := by
  have writers : (closeWriter surroundings config id before).2.writers = without id before.writers :=
    closeWriter_writers id before
  rcases outcome : closeWriter surroundings config id before with ⟨reason | value, reached⟩
  · rw [Fallible.bind_of_error outcome, Fallible.bind_of_error outcome]
  · have missing : reached.writers.lookup id = none := by
      rw [outcome] at writers
      rw [writers]
      exact lookup_without id before.writers
    have read : (Fallible.get : Manage Row (PartitionManager Row)) reached = (.ok reached, reached) := rfl
    rw [Fallible.bind_of_ok outcome, Fallible.bind_of_ok outcome]
    simp only [routeSlice, Fallible.bind_of_ok read, missing]

theorem splitPass_cases (manager : PartitionManager Row) :
    splitPass surroundings config id memory totalRows rows manager =
        (routeSlice surroundings config id memory totalRows rows >>= fun length => pure (rows.drop length)) manager ∨
      ∃ before : PartitionManager Row,
        splitPass surroundings config id memory totalRows rows manager =
            (closeWriter surroundings config id >>= fun _ => pure rows) before ∧
          routeSlice surroundings config id memory totalRows rows manager =
            (closeWriter surroundings config id >>= fun _ =>
              routeSlice surroundings config id memory totalRows rows) before := by
  cases found : manager.writers.lookup id with
  | none => exact Or.inl (splitPass_vacant found)
  | some active =>
    have read : (Fallible.get : Manage Row (PartitionManager Row)) manager = (.ok manager, manager) := rfl
    by_cases full : config.isFullOf active.rows = true
    · refine Or.inr ⟨manager, ?_, ?_⟩
      · simp only [splitPass, Fallible.bind_of_ok read, found, if_pos full]
      · rw [← closeWriter_round]
        simp only [routeSlice, Fallible.bind_of_ok read, found, if_pos full]
    · have clock : (ask surroundings.clock : Manage Row Nat) manager =
          (.ok (surroundings.clock manager.now), { manager with now := manager.now + 1 }) := rfl
      by_cases rolls : (config.isLarge active || config.isOld active (surroundings.clock manager.now)) = true
      · refine Or.inr ⟨{ manager with now := manager.now + 1 }, ?_, ?_⟩
        · simp only [splitPass, Fallible.bind_of_ok read, found, if_neg full, Fallible.bind_of_ok clock, if_pos rolls]
        · rw [← closeWriter_round]
          simp only [routeSlice, Fallible.bind_of_ok read, found, if_neg full, Fallible.bind_of_ok clock, if_pos rolls]
      · refine Or.inl ?_
        simp only [splitPass, routeSlice, Fallible.bind_assoc, Fallible.bind_of_ok read, found, if_neg full,
          Fallible.bind_of_ok clock, if_neg rolls]
        rfl

theorem routeSlice_yields (some : rows ≠ []) :
    Fallible.Yields (fun length => 0 < length ∧ length ≤ rows.length) (fun _ => True)
      (routeSlice surroundings config id memory totalRows rows) := by
  have any {Value : Type} (first : Manage Row Value) : Fallible.Yields (fun _ => True) (fun _ => True) first := by
    intro state
    split <;> trivial
  have positive := List.length_pos_iff.mpr some
  have opens : Fallible.Yields (fun length => 0 < length ∧ length ≤ rows.length) (fun _ => True)
      (do
        openSlice surroundings config id (rows.take (config.writeLength 0 rows.length))
          (sliceMemory memory totalRows (config.writeLength 0 rows.length))
        pure (config.writeLength 0 rows.length)) :=
    .bind (any _) fun _ _ => .pure ⟨writeLength_pos positive (by omega), writeLength_le config 0 rows.length⟩
  apply Fallible.Yields.get
  intro manager
  split
  · exact opens
  · rename_i active found
    split
    · exact .bind (any _) fun _ _ => opens
    · rename_i unfilled
      apply Fallible.Yields.bind (any _)
      intro now _
      split
      · exact .bind (any _) fun _ _ => opens
      · have unfull : ¬(0 < config.maxRecords ∧ config.maxRecords ≤ active.rows.length) := by
          simpa [ParquetSinkConfig.isFullOf] using unfilled
        exact .bind (any _) fun _ _ => .pure ⟨writeLength_pos positive unfull, writeLength_le config _ rows.length⟩

theorem splitLoop_succ (some : rows ≠ []) (passes : Nat) :
    splitLoop surroundings config id memory totalRows (passes + 1) rows =
      (splitPass surroundings config id memory totalRows rows >>=
        splitLoop surroundings config id memory totalRows passes) := by
  rw [splitLoop, if_neg fun none => some (List.isEmpty_iff.mp none)]

theorem splitLoop_round {passes : Nat} {next : Nat → Manage Row (List Row)} (some : rows ≠ [])
    (rest : ∀ more length, passes ≤ more → 0 < length ∧ length ≤ rows.length →
      splitLoop surroundings config id memory totalRows more (rows.drop length) = next length) :
    splitLoop surroundings config id memory totalRows (passes + 2) rows =
      (routeSlice surroundings config id memory totalRows rows >>= next) := by
  have rounds {more : Nat} (few : passes ≤ more) :
      (routeSlice surroundings config id memory totalRows rows >>= fun length => pure (rows.drop length)) >>=
          splitLoop surroundings config id memory totalRows more =
        (routeSlice surroundings config id memory totalRows rows >>= next) := by
    rw [Fallible.bind_assoc]
    exact (routeSlice_yields some).bind_congr fun length bounds => rest more length few bounds
  funext manager
  rw [splitLoop_succ some]
  have cases : splitPass surroundings config id memory totalRows rows manager = _ ∨ _ := splitPass_cases manager
  rcases cases with round | ⟨before, pass, round⟩
  · rw [Fallible.bind_of_eq round, rounds (Nat.le_succ passes)]
  · -- The file is rolled: the second pass finds no writer.
    rw [Fallible.bind_of_eq pass, Fallible.bind_of_eq round, Fallible.bind_assoc, Fallible.bind_assoc]
    have writers : (closeWriter surroundings config id before).2.writers = without id before.writers :=
      closeWriter_writers id before
    rcases outcome : closeWriter surroundings config id before with ⟨reason | value, reached⟩
    · rw [Fallible.bind_of_error outcome, Fallible.bind_of_error outcome]
    · have missing : reached.writers.lookup id = none := by
        rw [outcome] at writers
        rw [writers]
        exact lookup_without id before.writers
      have vacant : splitPass surroundings config id memory totalRows rows reached = _ := splitPass_vacant missing
      have second : (splitPass surroundings config id memory totalRows rows >>=
          splitLoop surroundings config id memory totalRows passes) reached =
          (routeSlice surroundings config id memory totalRows rows >>= next) reached := by
        rw [Fallible.bind_of_eq vacant, rounds (Nat.le_refl passes)]
      rw [Fallible.bind_of_ok outcome, Fallible.bind_of_ok outcome, ← second, ← splitLoop_succ some]
      rfl

/-- Two passes for each row are enough, and the loop has done then what the rounds do. -/
theorem splitLoop_eq {passes fuel : Nat} {rows : List Row} (most : 2 * rows.length ≤ passes)
    (enough : rows.length ≤ fuel) :
    splitLoop surroundings config id memory totalRows passes rows =
      (routeRows surroundings config id memory totalRows fuel rows >>= fun _ => pure []) := by
  induction fuel generalizing passes rows with
  | zero =>
    obtain rfl := List.eq_nil_of_length_eq_zero (Nat.le_zero.mp enough)
    cases passes <;> rfl
  | succ fuel ih =>
    cases rows with
    | nil => cases passes <;> rfl
    | cons row others =>
      obtain ⟨passes, rfl⟩ : ∃ fewer, passes = fewer + 2 := ⟨passes - 2, by simp at most; omega⟩
      have round : (routeRows surroundings config id memory totalRows (fuel + 1) (row :: others) >>= fun _ =>
            (pure [] : Manage Row (List Row))) =
          (routeSlice surroundings config id memory totalRows (row :: others) >>= fun length =>
            routeRows surroundings config id memory totalRows fuel ((row :: others).drop length) >>= fun _ => pure []) :=
        Fallible.bind_assoc ..
      rw [round]
      apply splitLoop_round (List.cons_ne_nil row others)
      intro more length few bounds
      apply ih
      · rw [List.length_drop]
        omega
      · rw [List.length_drop]
        omega

end PartitionManager

end OtelDatalake.Parquet
