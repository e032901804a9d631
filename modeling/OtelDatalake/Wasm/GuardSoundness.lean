import OtelDatalake.Foundation.Outcome
import OtelDatalake.Wasm.Guard

open OtelDatalake.Foundation

namespace OtelDatalake.Wasm

namespace Metadata

theorem get_orInsert_of_ne (metadata : Metadata) {key other : String} (value : String) (differs : other ≠ key) :
    (metadata.orInsert key value).get other = metadata.get other := by
  rw [orInsert]
  split
  · have unequal : (other == key) = false := by simpa using differs
    simp only [get, List.lookup_cons, unequal]
  · rfl

theorem get_merge (input output : Metadata) {key : String} (compliance : isCompliance key = true) :
    (merge input output).get key = input.get key := by
  rw [merge]
  induction output.entries generalizing input with
  | nil => rfl
  | cons entry rest ih =>
    rw [List.foldl_cons]
    by_cases skipped : isCompliance entry.1 = true
    · rw [if_pos skipped]
      exact ih input
    · rw [if_neg skipped, ih]
      refine get_orInsert_of_ne input entry.2 fun same => ?_
      exact skipped (same ▸ compliance)

theorem mem_entries_of_get {metadata : Metadata} {key value : String} (found : metadata.get key = some value) :
    (key, value) ∈ metadata.entries := by
  rw [get, List.lookup_eq_some_iff] at found
  obtain ⟨before, after, split, -⟩ := found
  rw [split]
  simp

theorem get_of_mem_entries {metadata : Metadata} {key value : String} (member : (key, value) ∈ metadata.entries) :
    metadata.get key = some value := by
  rw [get, List.lookup_eq_some_iff]
  obtain ⟨before, after, split⟩ := List.append_of_mem member
  refine ⟨before, after, split, fun entry earlier => ?_⟩
  have distinct := metadata.distinct
  rw [split, List.map_append, List.map_cons, List.nodup_append] at distinct
  have differs := distinct.2.2 entry.1 (List.mem_map_of_mem earlier) key List.mem_cons_self
  simpa [bne_iff_ne] using differs.symm

theorem get_of_same {left right : Metadata} (equal : same left right = true) (key : String) :
    left.get key = right.get key := by
  rw [same, Bool.and_eq_true, decide_eq_true_eq, List.all_eq_true] at equal
  obtain ⟨lengths, each⟩ := equal
  have within : left.entries ⊆ right.entries := by
    intro entry member
    exact mem_entries_of_get (of_decide_eq_true (each entry member))
  -- As many entries on both sides, so the right ones are on the left too.
  have permuted : left.entries.Perm right.entries :=
    (List.subperm_of_subset left.distinct.of_map within).perm_of_length_le (Nat.le_of_eq lengths.symm)
  cases found : left.get key with
  | some value => exact (get_of_mem_entries (within (mem_entries_of_get found))).symm
  | none =>
    cases other : right.get key with
    | none => rfl
    | some value =>
      have member := permuted.mem_iff.mpr (mem_entries_of_get other)
      exact nomatch found.symm.trans (get_of_mem_entries member)

end Metadata

namespace Schema

theorem indexOf_some {schema : Schema} {name : String} {index : Nat} (found : schema.indexOf name = some index) :
    ∃ field, schema.fields[index]? = some field ∧ field.name = name := by
  obtain ⟨bound, named, -⟩ := List.findIdx?_eq_some_iff_getElem.mp found
  exact ⟨schema.fields[index], List.getElem?_eq_getElem bound, of_decide_eq_true named⟩

theorem indexOf_none {schema : Schema} {name : String} (missing : schema.indexOf name = none) :
    ∀ field ∈ schema.fields, field.name ≠ name := by
  intro field member named
  have lacks := List.findIdx?_eq_none_iff.mp missing field member
  simp [named] at lacks

theorem indexOf_isSome {schema : Schema} {name : String} {field : Field} (member : field ∈ schema.fields)
    (named : field.name = name) : ∃ index, schema.indexOf name = some index := by
  cases found : schema.indexOf name with
  | some index => exact ⟨index, rfl⟩
  | none => exact absurd named (indexOf_none found field member)

theorem lastIndexOf_some {name : String} {fields : List Field} {index : Nat}
    (found : lastIndexOf name fields = some index) : ∃ field, fields[index]? = some field ∧ field.name = name := by
  induction fields generalizing index with
  | nil => cases found
  | cons field rest ih =>
    rw [lastIndexOf] at found
    cases later : lastIndexOf name rest with
    | some position =>
      rw [later] at found
      cases found
      exact ih later
    | none =>
      rw [later] at found
      by_cases named : field.name = name
      · simp only [if_pos named] at found
        cases found
        exact ⟨field, rfl, named⟩
      · simp only [if_neg named] at found
        cases found

theorem lastIndexOf_none {name : String} {fields : List Field} (missing : lastIndexOf name fields = none) :
    ∀ field ∈ fields, field.name ≠ name := by
  induction fields with
  | nil => exact fun _ member => absurd member List.not_mem_nil
  | cons field rest ih =>
    rw [lastIndexOf] at missing
    cases later : lastIndexOf name rest with
    | some position =>
      rw [later] at missing
      cases missing
    | none =>
      rw [later] at missing
      by_cases named : field.name = name
      · simp only [if_pos named] at missing
        cases missing
      · exact List.forall_mem_cons.mpr ⟨named, ih later⟩

end Schema

namespace RecordBatch

variable {Value : Type}

theorem dataType_at {batch : RecordBatch Value} {index : Nat} {field : Field} {column : Column Value}
    (placed : batch.schema.fields[index]? = some field) (held : batch.columns[index]? = some column) :
    column.dataType = field.dataType := by
  have left : (batch.columns.map Column.dataType)[index]? = some column.dataType := by simp [held]
  have right : (batch.schema.fields.map Field.dataType)[index]? = some field.dataType := by simp [placed]
  rw [batch.typed, right] at left
  exact (Option.some.inj left).symm

end RecordBatch

namespace Guard

variable {Value : Type}

def Filled (input : RecordBatch Value) (name : String) (column : Column Value) : Prop :=
  ∃ index, input.schema.indexOf name = some index ∧ input.columns[index]? = some column ∧
    column.isEntirelyNull = false

/-- In the emitted batch every immutable column that was filled in the input is present, has its input type and is
    not entirely null, and the compliance entries of the metadata are the input's. -/
structure Preserved (input emitted : RecordBatch Value) : Prop where
  present : ∀ name ∈ immutableColumns, ∀ column, Filled input name column →
    ∃ index, emitted.schema.indexOf name = some index
  typed : ∀ name ∈ immutableColumns, ∀ column, Filled input name column →
    ∀ (index : Nat) field out, emitted.schema.fields[index]? = some field → field.name = name →
      emitted.columns[index]? = some out → out.dataType = column.dataType
  filled : ∀ name ∈ immutableColumns, ∀ column, Filled input name column →
    ∀ (index : Nat) field out, emitted.schema.fields[index]? = some field → field.name = name →
      emitted.columns[index]? = some out → out.isEntirelyNull = false
  compliance : ∀ key, Metadata.isCompliance key = true →
    emitted.schema.metadata.get key = input.schema.metadata.get key

/-- Where the guest's output has an immutable column that was filled in the input more than once, the last of them is
    not entirely null. -/
def LastFilled (input output : RecordBatch Value) : Prop :=
  ∀ name ∈ immutableColumns, ∀ column, Filled input name column →
    ∀ first last out, output.schema.indexOf name = some first →
      Schema.lastIndexOf name output.schema.fields = some last → first ≠ last →
      output.columns[last]? = some out → out.isEntirelyNull = false

theorem columnAt_ok {batch : RecordBatch Value} {index : Nat} {side : String} {column : Column Value} :
    columnAt batch index side = .ok column ↔ batch.columns[index]? = some column := by
  rw [columnAt]
  cases batch.columns[index]? with
  | some found => rw [Except.ok.injEq, Option.some.injEq]
  | none => exact ⟨(nomatch ·), (nomatch ·)⟩

variable {arrow : ArrowLibrary Value}

theorem verifyColumn_filled {input output : RecordBatch Value} {name : String} {column : Column Value}
    (rows : 0 < output.numRows) (filled : Filled input name column)
    (verified : verifyColumn arrow input output name = .ok ()) :
    ∃ index out, output.schema.indexOf name = some index ∧ output.columns[index]? = some out ∧
      out.isEntirelyNull = false := by
  obtain ⟨position, named, placed, notNull⟩ := filled
  have info : inputColInfo input name = .ok (some (column.dataType, false)) := by
    rw [inputColInfo, named]
    simp only [columnAt_ok.mpr placed, bind, Except.bind, notNull, pure, Except.pure]
  simp only [verifyColumn, info, bind, Except.bind, Option.all_some, Bool.not_false, Bool.and_true, Bool.true_and]
    at verified
  cases found : output.schema.indexOf name with
  | none =>
    rw [found] at verified
    simp [rows] at verified
  | some index =>
    rw [found] at verified
    simp only at verified
    cases read : columnAt output index "output" with
    | error error =>
      rw [read] at verified
      cases verified
    | ok out =>
      have placed := columnAt_ok.mp read
      refine ⟨index, out, rfl, placed, ?_⟩
      have sized : out.len = output.numRows := output.sized out (List.mem_of_getElem? placed)
      rw [read] at verified
      simp only at verified
      split at verified
      · cases verified
      · by_contra null
        rw [Bool.not_eq_false] at null
        have nonempty : out.len ≠ 0 := by omega
        rw [if_pos (by simp [null, nonempty])] at verified
        cases verified

/-- What stands for an input field behind the first loop: the last output field of its name with its column, or an
    added one where the output has none. -/
inductive Kept (output : RecordBatch Value) (field : Field) : Field × Column Value × Bool → Prop where
  | last (index : Nat) (outField : Field) (column : Column Value)
    (found : Schema.lastIndexOf field.name output.schema.fields = some index)
    (placed : output.schema.fields[index]? = some outField) (held : output.columns[index]? = some column)
    (typed : outField.dataType = field.dataType) : Kept output field (outField, column, false)
  | backfilled (column : Column Value) (missing : Schema.lastIndexOf field.name output.schema.fields = none) :
    Kept output field (makeFieldRecursivelyNullable field, column, true)

theorem makeFieldRecursivelyNullable_name (field : Field) : (makeFieldRecursivelyNullable field).name = field.name := by
  cases field
  rfl

theorem Kept.name {output : RecordBatch Value} {field : Field} {entry : Field × Column Value × Bool}
    (kept : Kept output field entry) : entry.1.name = field.name := by
  cases kept with
  | last index outField column found placed held typed =>
    obtain ⟨other, placed', named⟩ := Schema.lastIndexOf_some found
    cases placed.symm.trans placed'
    exact named
  | backfilled column missing => exact makeFieldRecursivelyNullable_name field

theorem backfillField_kept {output : RecordBatch Value} {field : Field} {entry : Field × Column Value × Bool}
    (done : backfillField arrow output field = .ok entry) : Kept output field entry := by
  rw [backfillField] at done
  cases found : Schema.lastIndexOf field.name output.schema.fields with
  | none =>
    rw [found] at done
    cases done
    exact .backfilled _ found
  | some index =>
    rw [found] at done
    obtain ⟨outField, placed, -⟩ := Schema.lastIndexOf_some found
    simp only [placed] at done
    split at done
    · cases done
    · rename_i typed
      split at done
      · cases done
      · obtain ⟨column, held, done⟩ := bind_ok.mp done
        cases done
        exact .last index outField column found placed (columnAt_ok.mp held) (not_not.mp typed)

theorem addedColumns_new {input : Schema} {output : RecordBatch Value} {indexed : List (Field × Nat)}
    {new : List (Field × Column Value)} (added : addedColumns input output indexed = .ok new) :
    ∀ entry ∈ new, ∀ field ∈ input.fields, field.name ≠ entry.1.name := by
  induction indexed generalizing new with
  | nil =>
    cases added
    exact fun _ member => absurd member List.not_mem_nil
  | cons indexedField rest ih =>
    obtain ⟨field, index⟩ := indexedField
    rw [addedColumns] at added
    by_cases isNew : (input.indexOf field.name).isNone = true
    · rw [if_pos isNew] at added
      split at added
      · cases added
      · obtain ⟨column, -, added⟩ := bind_ok.mp added
        obtain ⟨others, found, added⟩ := bind_ok.mp added
        cases added
        refine List.forall_mem_cons.mpr ⟨?_, ih found⟩
        exact Schema.indexOf_none (Option.isNone_iff_eq_none.mp isNew)
    · rw [if_neg isNew] at added
      exact ih added

/-- What `backfill_missing_columns` leads to: the kept and the new fields, with their columns or, where nothing had to
    change, with the output's own. -/
structure Backfilled (input : Schema) (output emitted : RecordBatch Value)
    (kept : List (Field × Column Value × Bool)) (new : List (Field × Column Value)) : Prop where
  keptEach : List.Forall₂ (Kept output) input.fields kept
  newEach : ∀ entry ∈ new, ∀ field ∈ input.fields, field.name ≠ entry.1.name
  fields : emitted.schema.fields = kept.map (fun entry => entry.1) ++ new.map Prod.fst
  columns : emitted = output ∨ emitted.columns = kept.map (fun entry => entry.2.1) ++ new.map Prod.snd
  compliance : ∀ key, Metadata.isCompliance key = true → emitted.schema.metadata.get key = input.metadata.get key

theorem backfillMissingColumns_backfilled {input : Schema} {output emitted : RecordBatch Value}
    (done : backfillMissingColumns arrow input output = .ok emitted) :
    ∃ kept new, Backfilled input output emitted kept new := by
  obtain ⟨kept, keptAll, done⟩ := bind_ok.mp done
  obtain ⟨new, newAll, done⟩ := bind_ok.mp done
  have keptEach : List.Forall₂ (Kept output) input.fields kept :=
    (mapM_ok keptAll).imp fun _ _ each => backfillField_kept each
  refine ⟨kept, new, ?_⟩
  simp only at done
  split at done
  · cases done
  · split at done
    · rename_i unchanged
      cases done
      simp only [Bool.and_eq_true, decide_eq_true_eq] at unchanged
      refine ⟨keptEach, addedColumns_new newAll, unchanged.1.2, .inl rfl, fun key compliance => ?_⟩
      rw [Metadata.get_of_same unchanged.2, Metadata.get_merge _ _ compliance]
    · obtain ⟨schema, columns⟩ := arrow.tryNew_ok _ _ _ (mapError_ok.mp done)
      refine ⟨keptEach, addedColumns_new newAll, by rw [schema], .inr columns, fun key compliance => ?_⟩
      rw [schema]
      exact Metadata.get_merge _ _ compliance

theorem kept_names {output : RecordBatch Value} {fields : List Field} {kept : List (Field × Column Value × Bool)}
    (each : List.Forall₂ (Kept output) fields kept) :
    kept.map (fun entry => entry.1.name) = fields.map Field.name := by
  induction each with
  | nil => rfl
  | cons first _ ih => rw [List.map_cons, List.map_cons, first.name, ih]

section Emitted

variable {input : Schema} {output emitted : RecordBatch Value} {kept : List (Field × Column Value × Bool)}
  {new : List (Field × Column Value)}

theorem Backfilled.kept_at (backfilled : Backfilled input output emitted kept new) {index : Nat} {field : Field}
    (placed : input.fields[index]? = some field) : ∃ entry, kept[index]? = some entry ∧ Kept output field entry := by
  obtain ⟨bound, rfl⟩ := List.getElem?_eq_some_iff.mp placed
  have bound' : index < kept.length := backfilled.keptEach.length_eq ▸ bound
  exact ⟨kept[index], List.getElem?_eq_getElem bound', backfilled.keptEach.get bound bound'⟩

theorem Backfilled.names (backfilled : Backfilled input output emitted kept new) :
    emitted.schema.fields.map Field.name = input.fields.map Field.name ++ new.map fun entry => entry.1.name := by
  rw [backfilled.fields, List.map_append, List.map_map, List.map_map, ← kept_names backfilled.keptEach]
  rfl

theorem Backfilled.position (backfilled : Backfilled input output emitted kept new)
    (distinct : (input.fields.map Field.name).Nodup) {index position : Nat} {field outField : Field}
    (placed : input.fields[index]? = some field) (found : emitted.schema.fields[position]? = some outField)
    (named : outField.name = field.name) : position = index := by
  have here : (input.fields.map Field.name)[index]? = some field.name := by simp [placed]
  have there : (emitted.schema.fields.map Field.name)[position]? = some field.name := by simp [found, named]
  rw [backfilled.names] at there
  by_cases inside : position < (input.fields.map Field.name).length
  · rw [List.getElem?_append_left inside] at there
    exact (List.getElem?_inj inside distinct).mp (there.trans here.symm)
  · rw [List.getElem?_append_right (Nat.le_of_not_lt inside)] at there
    obtain ⟨entry, member, same⟩ := List.mem_map.mp (List.mem_of_getElem? there)
    exact absurd same.symm (backfilled.newEach entry member field (List.mem_of_getElem? placed))

/-- An input field stands in the emitted batch, at the field's own position, for the last output column of its name. -/
structure Standing (input : Schema) (output emitted : RecordBatch Value) (field : Field) (index last : Nat)
    (out : Column Value) : Prop where
  placed : input.fields[index]? = some field
  found : Schema.lastIndexOf field.name output.schema.fields = some last
  held : output.columns[last]? = some out
  typed : out.dataType = field.dataType
  named : ∃ outField, emitted.schema.fields[index]? = some outField ∧ outField.name = field.name
  column : emitted.columns[index]? = some out

theorem Backfilled.standing (backfilled : Backfilled input output emitted kept new)
    (distinct : (input.fields.map Field.name).Nodup) {index : Nat} {field present : Field}
    (placed : input.fields[index]? = some field) (member : present ∈ output.schema.fields)
    (named : present.name = field.name) : ∃ last out, Standing input output emitted field index last out := by
  obtain ⟨entry, atIndex, kept⟩ := backfilled.kept_at placed
  have name := kept.name
  cases kept with
  | backfilled column missing => exact absurd named (Schema.lastIndexOf_none missing present member)
  | last last outField out found inFields held typed =>
    have bound := (List.getElem?_eq_some_iff.mp atIndex).1
    have emittedField : emitted.schema.fields[index]? = some outField := by
      rw [backfilled.fields, List.getElem?_append_left (by simpa using bound)]
      simp [atIndex]
    refine ⟨last, out, placed, found, held, (RecordBatch.dataType_at inFields held).trans typed,
      ⟨outField, emittedField, name⟩, ?_⟩
    rcases backfilled.columns with unchanged | columns
    · -- The output itself is emitted, so its last field of the name is the only one.
      have same : last = index := by
        refine backfilled.position distinct placed ?_ name
        rw [unchanged]
        exact inFields
      rw [unchanged, ← same]
      exact held
    · rw [columns, List.getElem?_append_left (by simpa using bound)]
      simp [atIndex]

end Emitted

theorem filled_standing {input output emitted : RecordBatch Value} {kept : List (Field × Column Value × Bool)}
    {new : List (Field × Column Value)} (backfilled : Backfilled input.schema output emitted kept new)
    (distinct : (input.schema.fields.map Field.name).Nodup) {name : String} {column : Column Value}
    (filled : Filled input name column) {first : Nat} (present : output.schema.indexOf name = some first) :
    ∃ field index last out, Standing input.schema output emitted field index last out ∧ field.name = name ∧
      column.dataType = field.dataType := by
  obtain ⟨index, inputIndex, inputColumn, -⟩ := filled
  obtain ⟨field, placed, named⟩ := Schema.indexOf_some inputIndex
  obtain ⟨outField, inOutput, outName⟩ := Schema.indexOf_some present
  obtain ⟨last, out, standing⟩ :=
    backfilled.standing distinct placed (List.mem_of_getElem? inOutput) (outName.trans named.symm)
  exact ⟨field, index, last, out, standing, named, RecordBatch.dataType_at placed inputColumn⟩

/-- The emitted batch keeps the immutable columns and the compliance entries exactly when a repeated immutable column
    of the output is not entirely null where it stands last. -/
theorem preserved_iff_lastFilled {input output emitted : RecordBatch Value}
    (distinct : (input.schema.fields.map Field.name).Nodup) (rows : 0 < output.numRows)
    (accepted : guardBatch arrow .defensive input output = .ok emitted) :
    Preserved input emitted ↔ LastFilled input output := by
  obtain ⟨_, verified, done⟩ := bind_ok.mp accepted
  obtain ⟨kept, new, backfilled⟩ := backfillMissingColumns_backfilled done
  have checked : ∀ name ∈ immutableColumns, verifyColumn arrow input output name = .ok () := forM_ok.mp verified
  constructor
  · intro preserved name member column filled first last out present found _ held
    obtain ⟨field, index, last', out', standing, rfl, -⟩ := filled_standing backfilled distinct filled present
    cases found.symm.trans standing.found
    cases held.symm.trans standing.held
    obtain ⟨outField, placed, named⟩ := standing.named
    exact preserved.filled _ member column filled index outField out placed named standing.column
  · intro lastFilled
    have only : ∀ name ∈ immutableColumns, ∀ column, Filled input name column →
        ∀ (position : Nat) other found, emitted.schema.fields[position]? = some other → other.name = name →
          emitted.columns[position]? = some found → found.dataType = column.dataType ∧ found.isEntirelyNull = false := by
      intro name member column filled position other found placed named held
      obtain ⟨first, firstOut, present, firstHeld, notNull⟩ := verifyColumn_filled rows filled (checked name member)
      obtain ⟨field, index, last, out, standing, rfl, typed⟩ := filled_standing backfilled distinct filled present
      have here : position = index := backfilled.position distinct standing.placed placed named
      subst here
      cases held.symm.trans standing.column
      refine ⟨standing.typed.trans typed.symm, ?_⟩
      by_cases single : first = last
      · subst single
        cases firstHeld.symm.trans standing.held
        exact notNull
      · exact lastFilled _ member column filled first last found present standing.found single standing.held
    refine ⟨?_, ?_, ?_, backfilled.compliance⟩
    · intro name member column filled
      obtain ⟨first, firstOut, present, -, -⟩ := verifyColumn_filled rows filled (checked name member)
      obtain ⟨field, index, last, out, standing, rfl, -⟩ := filled_standing backfilled distinct filled present
      obtain ⟨outField, placed, named⟩ := standing.named
      exact Schema.indexOf_isSome (List.mem_of_getElem? placed) named
    · intro name member column filled position other found placed named held
      exact (only name member column filled position other found placed named held).1
    · intro name member column filled position other found placed named held
      exact (only name member column filled position other found placed named held).2

/-- For the batches that `dispatch_outcome` emits in defensive mode. -/
theorem emitted_preserved_iff {input : RecordBatch Value} {outputs emitted : List (RecordBatch Value)}
    (distinct : (input.schema.fields.map Field.name).Nodup)
    (accepted : guardBatches arrow .defensive input outputs = .ok emitted) :
    List.Forall₂ (fun output batch => 0 < output.numRows → (Preserved input batch ↔ LastFilled input output))
      outputs emitted :=
  (mapM_ok accepted).imp fun _ _ guarded rows => preserved_iff_lastFilled distinct rows guarded

def plainArrow : ArrowLibrary Nat where
  tryNew schema columns :=
    let numRows := (columns.head?.map Column.len).getD 0
    if typed : columns.map Column.dataType = schema.fields.map Field.dataType then
      if sized : ∀ column ∈ columns, column.len = numRows then
        .ok { schema := schema, columns := columns, numRows := numRows, typed := typed, sized := sized }
      else .error "all columns in a record batch must have the same length"
    else .error "column types must match schema types"
  newNullArray dataType length := { dataType := dataType, values := List.replicate length none, nullCount := length }
  debugType _ := "DataType"
  tryNew_ok := by
    intro schema columns batch made
    simp only at made
    split at made
    · split at made
      · cases made
        exact ⟨rfl, rfl⟩
      · cases made
    · cases made

def traceField : Field := .mk "trace_id" (.scalar "Utf8") true []

def filledColumn : Column Nat := { dataType := .scalar "Utf8", values := [some 7], nullCount := 0 }

def nullColumn : Column Nat := { dataType := .scalar "Utf8", values := [none], nullCount := 1 }

def traced : RecordBatch Nat where
  schema := { fields := [traceField] }
  columns := [filledColumn]
  numRows := 1
  typed := rfl
  sized := by simp [Column.len, filledColumn]

/-- The same row with a second, null column of the same name behind it. -/
def shadowed : RecordBatch Nat where
  schema := { fields := [traceField, traceField] }
  columns := [filledColumn, nullColumn]
  numRows := 1
  typed := rfl
  sized := by simp [Column.len, filledColumn, nullColumn]

def wiped : RecordBatch Nat where
  schema := { fields := [traceField] }
  columns := [nullColumn]
  numRows := 1
  typed := rfl
  sized := by simp [Column.len, nullColumn]

theorem emitted_preserved_iff_traced : Preserved traced traced ↔ LastFilled traced traced := by
  have accepted : guardBatches plainArrow .defensive traced [traced] = .ok [traced] := rfl
  have each := emitted_preserved_iff (by decide) accepted
  cases each with
  | cons first _ => exact first (by decide)

theorem not_preserved_shadowed :
    guardBatches plainArrow .defensive traced [shadowed] = .ok [wiped] ∧ ¬ Preserved traced wiped := by
  refine ⟨rfl, fun preserved => ?_⟩
  have filled : Filled traced "trace_id" filledColumn := ⟨0, rfl, rfl, rfl⟩
  have wrong := preserved.filled "trace_id" (by decide) filledColumn filled 0 traceField nullColumn rfl rfl rfl
  exact absurd wrong (by decide)

end Guard

end OtelDatalake.Wasm
