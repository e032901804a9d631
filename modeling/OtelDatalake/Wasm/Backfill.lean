import OtelDatalake.Wasm.GuardSoundness

open OtelDatalake.Foundation

namespace OtelDatalake.Wasm

mutual

/-- A field and all of its nested children are nullable. -/
def Field.recursivelyNullable : Field → Bool
  | .mk _ dataType nullable _ => nullable && dataType.recursivelyNullable

def DataType.recursivelyNullable : DataType → Bool
  | .scalar _ => true
  | .struct fields => fields.recursivelyNullable
  | .list child | .largeList child | .fixedSizeList child _ | .listView child | .largeListView child | .map child _ =>
    child.recursivelyNullable

def FieldList.recursivelyNullable : FieldList → Bool
  | .nil => true
  | .cons first rest => first.recursivelyNullable && rest.recursivelyNullable

end

mutual

theorem makeFieldRecursivelyNullable_eq (field : Field) (nullable : field.recursivelyNullable = true) :
    makeFieldRecursivelyNullable field = field := by
  obtain ⟨name, dataType, own, metadata⟩ := field
  rw [Field.recursivelyNullable, Bool.and_eq_true] at nullable
  rw [makeFieldRecursivelyNullable, makeTypeRecursivelyNullable_eq dataType nullable.2, nullable.1]

theorem makeTypeRecursivelyNullable_eq (dataType : DataType) (nullable : dataType.recursivelyNullable = true) :
    makeTypeRecursivelyNullable dataType = dataType := by
  cases dataType with
  | scalar name => rfl
  | struct fields => rw [makeTypeRecursivelyNullable, makeFieldsRecursivelyNullable_eq fields nullable]
  | list child => rw [makeTypeRecursivelyNullable, makeFieldRecursivelyNullable_eq child nullable]
  | largeList child => rw [makeTypeRecursivelyNullable, makeFieldRecursivelyNullable_eq child nullable]
  | fixedSizeList child size => rw [makeTypeRecursivelyNullable, makeFieldRecursivelyNullable_eq child nullable]
  | listView child => rw [makeTypeRecursivelyNullable, makeFieldRecursivelyNullable_eq child nullable]
  | largeListView child => rw [makeTypeRecursivelyNullable, makeFieldRecursivelyNullable_eq child nullable]
  | map child keysSorted => rw [makeTypeRecursivelyNullable, makeFieldRecursivelyNullable_eq child nullable]

theorem makeFieldsRecursivelyNullable_eq (fields : FieldList) (nullable : fields.recursivelyNullable = true) :
    makeFieldsRecursivelyNullable fields = fields := by
  cases fields with
  | nil => rfl
  | cons first rest =>
    rw [FieldList.recursivelyNullable, Bool.and_eq_true] at nullable
    rw [makeFieldsRecursivelyNullable, makeFieldRecursivelyNullable_eq first nullable.1,
      makeFieldsRecursivelyNullable_eq rest nullable.2]

end

namespace Metadata

theorem get_orInsert (metadata : Metadata) (key value other : String) :
    (metadata.orInsert key value).get other = (metadata.get other).or (if other = key then some value else none) := by
  by_cases same : other = key
  · subst same
    rw [orInsert, if_pos rfl]
    split
    · rename_i absent
      rw [absent]
      simp [get]
    · rename_i present
      obtain ⟨held, found⟩ := Option.ne_none_iff_exists'.mp present
      rw [found]
      rfl
  · rw [get_orInsert_of_ne _ _ same, if_neg same, Option.or_none]

theorem merge_get (input output : Metadata) (key : String) :
    (merge input output).get key = (input.get key).or (if isCompliance key then none else output.get key) := by
  rw [merge, show output.get key = output.entries.lookup key from rfl]
  induction output.entries generalizing input with
  | nil => simp
  | cons entry rest ih =>
    rw [List.foldl_cons, ih, List.lookup_cons]
    by_cases own : key = entry.1
    · subst own
      by_cases compliance : isCompliance entry.1 = true
      · simp [compliance]
      · simp [compliance, get_orInsert]
    · have other : (key == entry.1) = false := beq_false_of_ne own
      rw [other]
      split
      · rfl
      · rw [get_orInsert, if_neg own, Option.or_none]

theorem same_of_get {left right : Metadata} (equal : ∀ key, left.get key = right.get key) : same left right = true := by
  have members : ∀ entry : String × String, entry ∈ left.entries ↔ entry ∈ right.entries := by
    intro entry
    constructor
    · intro member
      exact mem_entries_of_get ((equal entry.1).symm.trans (get_of_mem_entries member))
    · intro member
      exact mem_entries_of_get ((equal entry.1).trans (get_of_mem_entries member))
  have permuted : left.entries.Perm right.entries :=
    (List.perm_ext_iff_of_nodup left.distinct.of_map right.distinct.of_map).mpr members
  rw [same, Bool.and_eq_true, decide_eq_true_eq, List.all_eq_true]
  refine ⟨permuted.length_eq, fun entry member => decide_eq_true ?_⟩
  rw [← equal entry.1]
  exact get_of_mem_entries member

end Metadata

namespace RecordBatch

variable {Value : Type}

def entries (batch : RecordBatch Value) : List (Field × Column Value) := batch.schema.fields.zip batch.columns

theorem lengths (batch : RecordBatch Value) : batch.schema.fields.length = batch.columns.length := by
  simpa using (congrArg List.length batch.typed).symm

theorem entries_fst (batch : RecordBatch Value) : batch.entries.map Prod.fst = batch.schema.fields :=
  List.map_fst_zip (Nat.le_of_eq batch.lengths)

theorem entries_snd (batch : RecordBatch Value) : batch.entries.map Prod.snd = batch.columns :=
  List.map_snd_zip (Nat.le_of_eq batch.lengths.symm)

theorem mem_entries (batch : RecordBatch Value) {index : Nat} {field : Field} {column : Column Value}
    (placed : batch.schema.fields[index]? = some field) (held : batch.columns[index]? = some column) :
    (field, column) ∈ batch.entries := by
  refine List.mem_of_getElem? (i := index) ?_
  simp [entries, List.getElem?_zip_eq_some, placed, held]

def named (batch : RecordBatch Value) (name : String) : Option (Field × Column Value) :=
  batch.entries.find? fun entry => entry.1.name = name

theorem named_some {batch : RecordBatch Value} {name : String} {entry : Field × Column Value}
    (found : batch.named name = some entry) : entry ∈ batch.entries ∧ entry.1.name = name :=
  ⟨List.mem_of_find?_eq_some found, by simpa using List.find?_some found⟩

theorem named_none {batch : RecordBatch Value} {name : String} :
    batch.named name = none ↔ ∀ field ∈ batch.schema.fields, field.name ≠ name := by
  rw [named, List.find?_eq_none, ← batch.entries_fst, List.forall_mem_map]
  simp

def Distinct (fields : List Field) : Prop := (fields.map Field.name).Nodup

theorem entry_unique {batch : RecordBatch Value} (distinct : Distinct batch.schema.fields)
    {first second : Field × Column Value} (one : first ∈ batch.entries) (two : second ∈ batch.entries)
    (same : first.1.name = second.1.name) : first = second := by
  rw [Distinct, ← batch.entries_fst, List.map_map] at distinct
  exact List.inj_on_of_nodup_map distinct one two same

theorem named_of_mem {batch : RecordBatch Value} (distinct : Distinct batch.schema.fields)
    {entry : Field × Column Value} (member : entry ∈ batch.entries) : batch.named entry.1.name = some entry := by
  cases found : batch.named entry.1.name with
  | none =>
    have field : entry.1 ∈ batch.schema.fields := by
      rw [← batch.entries_fst]
      exact List.mem_map_of_mem member
    exact absurd rfl (named_none.mp found entry.1 field)
  | some other =>
    obtain ⟨there, named⟩ := named_some found
    rw [entry_unique distinct there member named]

end RecordBatch

namespace Guard

open RecordBatch

variable {Value : Type} {arrow : ArrowLibrary Value}

/-- A column of a type with nothing but nulls. -/
structure AllNull (column : Column Value) (dataType : DataType) (numRows : Nat) : Prop where
  typed : column.dataType = dataType
  nulls : column.values = List.replicate numRows none

def standIn (arrow : ArrowLibrary Value) (output : RecordBatch Value) (field : Field) : Field × Column Value :=
  (output.named field.name).getD
    (makeFieldRecursivelyNullable field,
      arrow.newNullArray (makeFieldRecursivelyNullable field).dataType output.numRows)

def isAdded (input : Schema) (field : Field) : Bool := input.fields.all fun known => known.name ≠ field.name

/-- The guest's output breaks a rule of the defensive guard. -/
inductive Violates (input : Schema) (output : RecordBatch Value) : Prop where
  | retyped {field outField : Field} (known : field ∈ input.fields) (present : outField ∈ output.schema.fields)
    (same : outField.name = field.name) (changed : outField.dataType ≠ field.dataType)
  | renulled {field outField : Field} (known : field ∈ input.fields) (present : outField ∈ output.schema.fields)
    (same : outField.name = field.name) (changed : outField.isNullable ≠ field.isNullable)
  | required {field : Field} (present : field ∈ output.schema.fields) (added : isAdded input field = true)
    (required : field.isNullable = false)
  | compliance {key upstream value : String} (tagged : Metadata.isCompliance key = true)
    (before : input.metadata.get key = some upstream) (after : output.schema.metadata.get key = some value)
    (changed : upstream ≠ value)

/-- The batch that is to be emitted for the guest's output. -/
structure Backfills (arrow : ArrowLibrary Value) (input : Schema) (output emitted : RecordBatch Value) : Prop where
  names : emitted.schema.fields.map Field.name =
    input.fields.map Field.name ++ (output.schema.fields.filter (isAdded input)).map Field.name
  entries : emitted.entries =
    input.fields.map (standIn arrow output) ++ output.entries.filter fun entry => isAdded input entry.1
  nulls : ∀ field ∈ input.fields, output.named field.name = none →
    AllNull (standIn arrow output field).2 (makeFieldRecursivelyNullable field).dataType output.numRows
  numRows : emitted.numRows = output.numRows
  metadata : ∀ key, emitted.schema.metadata.get key =
    (input.metadata.get key).or (if Metadata.isCompliance key then none else output.schema.metadata.get key)

/-- Arrow makes arrays of nulls. -/
def NullArrays (arrow : ArrowLibrary Value) : Prop :=
  ∀ dataType numRows, AllNull (arrow.newNullArray dataType numRows) dataType numRows

/-- Arrow makes a batch of columns of another batch under their fields, and of arrays of nulls of the same length under
    nullable fields. -/
def Builds (arrow : ArrowLibrary Value) : Prop :=
  ∀ (output : RecordBatch Value) (schema : Schema) (columns : List (Column Value)), columns ≠ [] →
    schema.fields.length = columns.length →
    (∀ entry ∈ schema.fields.zip columns, entry ∈ output.entries ∨ ∃ field,
      entry = (makeFieldRecursivelyNullable field,
        arrow.newNullArray (makeFieldRecursivelyNullable field).dataType output.numRows)) →
    ∃ batch, arrow.tryNew schema columns = .ok batch

section Loops

variable {input : Schema} {output : RecordBatch Value}

theorem lastIndexOf_named (distinct : Distinct output.schema.fields) {name : String} {index : Nat}
    (found : Schema.lastIndexOf name output.schema.fields = some index) :
    ∃ outField column, output.schema.fields[index]? = some outField ∧ output.columns[index]? = some column ∧
      output.named name = some (outField, column) := by
  obtain ⟨outField, placed, rfl⟩ := Schema.lastIndexOf_some found
  have inside : index < output.columns.length := output.lengths ▸ (List.getElem?_eq_some_iff.mp placed).1
  have held : output.columns[index]? = some output.columns[index] := List.getElem?_eq_getElem inside
  exact ⟨outField, _, placed, held, named_of_mem distinct (output.mem_entries placed held)⟩

def Changed (output : RecordBatch Value) (field : Field) : Prop :=
  ∃ entry, output.named field.name = some entry ∧
    (entry.1.dataType ≠ field.dataType ∨ entry.1.isNullable ≠ field.isNullable)

theorem backfillField_changed (distinct : Distinct output.schema.fields) {field : Field}
    (changed : Changed output field) : ∃ error, backfillField arrow output field = .error error := by
  obtain ⟨entry, named, different⟩ := changed
  unfold backfillField
  cases found : Schema.lastIndexOf field.name output.schema.fields with
  | none => exact absurd (named_none.mpr (Schema.lastIndexOf_none found)) (by simp [named])
  | some index =>
    obtain ⟨outField, column, placed, held, named'⟩ := lastIndexOf_named distinct found
    rw [named] at named'
    cases named'
    simp only [placed]
    split
    · exact ⟨_, rfl⟩
    · rename_i typed
      rw [if_pos (different.resolve_left typed).symm]
      exact ⟨_, rfl⟩

theorem backfillField_unchanged (distinct : Distinct output.schema.fields) {field : Field}
    (unchanged : ¬ Changed output field) :
    backfillField arrow output field =
      .ok ((standIn arrow output field).1, (standIn arrow output field).2, (output.named field.name).isNone) := by
  unfold backfillField standIn
  cases found : Schema.lastIndexOf field.name output.schema.fields with
  | none =>
    have missing := named_none.mpr (Schema.lastIndexOf_none found)
    simp only [missing]
    rfl
  | some index =>
    obtain ⟨outField, column, placed, held, named⟩ := lastIndexOf_named distinct found
    have typed : outField.dataType = field.dataType := by
      by_contra other
      exact unchanged ⟨_, named, .inl other⟩
    have nullable : outField.isNullable = field.isNullable := by
      by_contra other
      exact unchanged ⟨_, named, .inr other⟩
    simp only [placed, typed, nullable, named, ne_eq, not_true_eq_false, if_false, columnAt, held]
    rfl

theorem isNone_indexOf (field : Field) : (input.indexOf field.name).isNone = isAdded input field := by
  rw [Bool.eq_iff_iff, Option.isNone_iff_eq_none, Schema.indexOf, List.findIdx?_eq_none_iff, isAdded, List.all_eq_true]
  simp

theorem addedColumns_eq {fields : List Field} {columns : List (Column Value)} (lengths : fields.length = columns.length)
    (first : Nat) (held : ∀ index, columns[index]? ≠ none → output.columns[first + index]? = columns[index]?)
    (nullable : ∀ field ∈ fields, isAdded input field = true → field.isNullable = true) :
    addedColumns input output (fields.zipIdx first) =
      .ok ((fields.zip columns).filter fun entry => isAdded input entry.1) := by
  induction fields generalizing columns first with
  | nil =>
    cases columns with
    | nil => rfl
    | cons column rest => cases lengths
  | cons field rest ih =>
    cases columns with
    | nil => cases lengths
    | cons column others =>
      have here : output.columns[first]? = some column := by simpa using held 0 (by simp)
      have behind : ∀ index, others[index]? ≠ none → output.columns[first + 1 + index]? = others[index]? := by
        intro index inside
        have next := held (index + 1) (by simpa using inside)
        rwa [List.getElem?_cons_succ, show first + (index + 1) = first + 1 + index by omega] at next
      rw [List.forall_mem_cons] at nullable
      have later := ih (Nat.succ.inj lengths) (first + 1) behind nullable.2
      rw [List.zipIdx_cons, addedColumns, isNone_indexOf, List.zip_cons_cons, later]
      cases added : isAdded input field with
      | false => simp [added]
      | true =>
        simp only [nullable.1 added, columnAt, here, List.filter_cons, added, if_true]
        rfl

theorem addedColumns_nullable {indexed : List (Field × Nat)} {new : List (Field × Column Value)}
    (done : addedColumns input output indexed = .ok new) :
    ∀ entry ∈ indexed, isAdded input entry.1 = true → entry.1.isNullable = true := by
  induction indexed generalizing new with
  | nil => exact fun _ member => absurd member List.not_mem_nil
  | cons entry rest ih =>
    obtain ⟨field, index⟩ := entry
    rw [addedColumns, isNone_indexOf] at done
    cases added : isAdded input field with
    | false =>
      rw [added] at done
      exact List.forall_mem_cons.mpr ⟨(fun other => by rw [added] at other; cases other), ih done⟩
    | true =>
      rw [added, if_pos rfl] at done
      cases nullable : field.isNullable with
      | false =>
        rw [nullable] at done
        cases done
      | true =>
        rw [nullable] at done
        obtain ⟨column, -, done⟩ := bind_ok.mp done
        obtain ⟨others, found, -⟩ := bind_ok.mp done
        exact List.forall_mem_cons.mpr ⟨fun _ => nullable, ih found⟩

theorem complianceMutation_none :
    complianceMutation input.metadata output.schema.metadata = none ↔
      ∀ key upstream value, Metadata.isCompliance key = true → input.metadata.get key = some upstream →
        output.schema.metadata.get key = some value → upstream = value := by
  rw [complianceMutation, List.findSome?_eq_none_iff]
  constructor
  · intro unchanged key upstream value tagged before after
    have entry := unchanged (key, value) (Metadata.mem_entries_of_get after)
    by_contra changed
    simp [tagged, before, changed] at entry
  · intro unchanged entry member
    have after := Metadata.get_of_mem_entries member
    split
    · rename_i tagged
      cases before : input.metadata.get entry.1 with
      | none => rfl
      | some upstream => simp [unchanged entry.1 upstream entry.2 tagged before after]
    · rfl

end Loops

section Wanted

variable {input : Schema} {output : RecordBatch Value}

def wanted (arrow : ArrowLibrary Value) (input : Schema) (output : RecordBatch Value) : List (Field × Column Value) :=
  input.fields.map (standIn arrow output) ++ output.entries.filter fun entry => isAdded input entry.1

theorem standIn_name (output : RecordBatch Value) (field : Field) : (standIn arrow output field).1.name = field.name := by
  unfold standIn
  cases found : output.named field.name with
  | none => exact makeFieldRecursivelyNullable_name field
  | some entry => exact (named_some found).2

theorem wanted_names (input : Schema) (output : RecordBatch Value) :
    (wanted arrow input output).map (fun entry => entry.1.name) =
      input.fields.map Field.name ++ (output.schema.fields.filter (isAdded input)).map Field.name := by
  rw [wanted, List.map_append, List.map_map, ← output.entries_fst, List.filter_map, List.map_map]
  congr 1
  exact List.map_congr_left fun field _ => standIn_name output field

theorem mem_wanted {entry : Field × Column Value} (member : entry ∈ wanted arrow input output) :
    entry ∈ output.entries ∨ ∃ field, entry =
      (makeFieldRecursivelyNullable field,
        arrow.newNullArray (makeFieldRecursivelyNullable field).dataType output.numRows) := by
  rw [wanted, List.mem_append, List.mem_map, List.mem_filter] at member
  obtain ⟨field, _, rfl⟩ | ⟨there, _⟩ := member
  · unfold standIn
    cases found : output.named field.name with
    | none => exact .inr ⟨field, rfl⟩
    | some guest => exact .inl (named_some found).1
  · exact .inl there

theorem wanted_len (nulls : NullArrays arrow) {entry : Field × Column Value} (member : entry ∈ wanted arrow input output) :
    entry.2.len = output.numRows := by
  obtain there | ⟨field, rfl⟩ := mem_wanted member
  · refine output.sized entry.2 ?_
    rw [← output.entries_snd]
    exact List.mem_map_of_mem there
  · rw [Column.len, (nulls _ _).nulls, List.length_replicate]

theorem wanted_ne_nil (nonempty : output.columns ≠ []) : wanted arrow input output ≠ [] := by
  rw [← output.entries_snd, ne_eq, List.map_eq_nil_iff] at nonempty
  obtain ⟨entry, member⟩ := List.exists_mem_of_ne_nil _ nonempty
  cases added : isAdded input entry.1 with
  | true =>
    have there : entry ∈ wanted arrow input output := by
      rw [wanted, List.mem_append, List.mem_filter]
      exact .inr ⟨member, added⟩
    exact List.ne_nil_of_mem there
  | false =>
    obtain ⟨known, held, _⟩ := List.all_eq_false.mp added
    have there : standIn arrow output known ∈ wanted arrow input output := by
      rw [wanted, List.mem_append]
      exact .inl (List.mem_map_of_mem held)
    exact List.ne_nil_of_mem there

theorem changed_violates (known : Field) (held : known ∈ input.fields) (changed : Changed output known) :
    Violates input output := by
  obtain ⟨entry, named, different⟩ := changed
  obtain ⟨member, same⟩ := named_some named
  have present : entry.1 ∈ output.schema.fields := by
    rw [← output.entries_fst]
    exact List.mem_map_of_mem member
  obtain retyped | renulled := different
  · exact .retyped held present same retyped
  · exact .renulled held present same renulled

theorem named_of_field (distinct : Distinct output.schema.fields) {field : Field}
    (present : field ∈ output.schema.fields) : ∃ column, output.named field.name = some (field, column) := by
  rw [← output.entries_fst] at present
  obtain ⟨entry, member, rfl⟩ := List.mem_map.mp present
  exact ⟨entry.2, named_of_mem distinct member⟩

theorem backfill_clean (distinct : Distinct output.schema.fields)
    (clean : ¬ Violates input output) :
    backfillMissingColumns arrow input output =
      if !(input.fields.any fun field => (output.named field.name).isNone) &&
          output.schema.fields = (wanted arrow input output).map Prod.fst &&
          Metadata.same output.schema.metadata (Metadata.merge input.metadata output.schema.metadata) then .ok output
      else (arrow.tryNew
        { fields := (wanted arrow input output).map Prod.fst
          metadata := Metadata.merge input.metadata output.schema.metadata }
        ((wanted arrow input output).map Prod.snd)).mapError .pipeline := by
  have kept : input.fields.mapM (backfillField arrow output) = .ok (input.fields.map fun field =>
      ((standIn arrow output field).1, (standIn arrow output field).2, (output.named field.name).isNone)) := by
    refine mapM_of_forall fun field held => ?_
    exact backfillField_unchanged distinct fun changed => clean (changed_violates field held changed)
  have new : addedColumns input output output.schema.fields.zipIdx =
      .ok (output.entries.filter fun entry => isAdded input entry.1) := by
    refine addedColumns_eq output.lengths 0 (fun index _ => by rw [Nat.zero_add]) fun field present added => ?_
    by_contra required
    exact clean (.required present added (by simpa using required))
  have untouched : complianceMutation input.metadata output.schema.metadata = none := by
    rw [complianceMutation_none]
    intro key upstream value tagged before after
    by_contra changed
    exact clean (.compliance tagged before after changed)
  simp only [backfillMissingColumns, kept, new, untouched, bind, Except.bind, wanted, List.map_append, List.map_map,
    List.any_map]
  rfl

theorem backfill_not_violates (distinct : Distinct output.schema.fields) {emitted : RecordBatch Value}
    (done : backfillMissingColumns arrow input output = .ok emitted) : ¬ Violates input output := by
  obtain ⟨kept, keptAll, done⟩ := bind_ok.mp done
  obtain ⟨new, newAll, done⟩ := bind_ok.mp done
  have unchanged : ∀ field ∈ input.fields, ¬ Changed output field := by
    intro field held changed
    obtain ⟨error, failed⟩ := backfillField_changed distinct changed
    obtain ⟨index, inside, rfl⟩ := List.getElem_of_mem held
    have made := (mapM_ok keptAll).get inside ((mapM_ok keptAll).length_eq ▸ inside)
    exact nomatch failed.symm.trans made
  have nullable := addedColumns_nullable newAll
  intro violates
  cases violates with
  | @retyped field outField known present same changed =>
    obtain ⟨column, named⟩ := named_of_field distinct present
    exact unchanged field known ⟨_, same ▸ named, .inl changed⟩
  | @renulled field outField known present same changed =>
    obtain ⟨column, named⟩ := named_of_field distinct present
    exact unchanged field known ⟨_, same ▸ named, .inr changed⟩
  | @required field present added required =>
    obtain ⟨index, inside, rfl⟩ := List.getElem_of_mem present
    have member : (output.schema.fields[index], index) ∈ output.schema.fields.zipIdx := by
      rw [List.mem_zipIdx_iff_getElem?]
      exact List.getElem?_eq_getElem inside
    rw [nullable _ member added] at required
    cases required
  | @compliance key upstream value tagged before after changed =>
    simp only at done
    split at done
    · cases done
    · rename_i untouched
      exact changed (complianceMutation_none.mp untouched key upstream value tagged before after)

theorem wanted_unchanged (distinct : Distinct output.schema.fields)
    (complete : ∀ field ∈ input.fields, output.named field.name ≠ none)
    (fields : output.schema.fields = (wanted arrow input output).map Prod.fst) :
    output.entries = wanted arrow input output := by
  have within : ∀ entry ∈ wanted arrow input output, entry ∈ output.entries := by
    intro entry member
    rw [wanted, List.mem_append, List.mem_map, List.mem_filter] at member
    obtain ⟨field, held, rfl⟩ | ⟨there, _⟩ := member
    · unfold standIn
      cases found : output.named field.name with
      | none => exact absurd found (complete field held)
      | some guest => exact (named_some found).1
    · exact there
  rw [← output.entries_fst] at fields
  have lengths : output.entries.length = (wanted arrow input output).length := by
    simpa using congrArg List.length fields
  refine List.ext_getElem lengths fun index left right => ?_
  have same : output.entries[index].1 = (wanted arrow input output)[index].1 := by
    have both : (output.entries.map Prod.fst)[index]? =
        ((wanted arrow input output).map Prod.fst)[index]? := by rw [fields]
    simpa [left, right] using both
  exact entry_unique distinct (List.getElem_mem left) (within _ (List.getElem_mem right)) (congrArg Field.name same)

theorem wanted_backfills (nulls : NullArrays arrow) {emitted : RecordBatch Value} (nonempty : output.columns ≠ [])
    (entries : emitted.entries = wanted arrow input output)
    (metadata : ∀ key, emitted.schema.metadata.get key =
      (Metadata.merge input.metadata output.schema.metadata).get key) : Backfills arrow input output emitted := by
  refine ⟨?_, entries, fun field _ missing => ?_, ?_, fun key => (metadata key).trans (Metadata.merge_get _ _ key)⟩
  · rw [← wanted_names, ← entries, ← emitted.entries_fst, List.map_map]
    rfl
  · rw [standIn, missing, Option.getD_none]
    exact nulls _ _
  · have wantedSome : wanted arrow input output ≠ [] := wanted_ne_nil nonempty
    obtain ⟨entry, member⟩ := List.exists_mem_of_ne_nil _ wantedSome
    have column : entry.2 ∈ emitted.columns := by
      rw [← emitted.entries_snd, entries]
      exact List.mem_map_of_mem member
    exact (emitted.sized entry.2 column).symm.trans (wanted_len nulls member)

theorem backfill_backfills (nulls : NullArrays arrow) (builds : Builds arrow) (distinct : Distinct output.schema.fields)
    (nonempty : output.columns ≠ []) (clean : ¬ Violates input output) :
    ∃ emitted, backfillMissingColumns arrow input output = .ok emitted ∧ Backfills arrow input output emitted := by
  rw [backfill_clean distinct clean]
  split
  · rename_i unchanged
    simp only [Bool.and_eq_true, Bool.not_eq_true', List.any_eq_false, decide_eq_true_eq] at unchanged
    obtain ⟨⟨complete, fields⟩, metadata⟩ := unchanged
    refine ⟨output, rfl, wanted_backfills nulls nonempty ?_ (Metadata.get_of_same metadata)⟩
    refine wanted_unchanged distinct (fun field held missing => ?_) fields
    exact complete field held (by simp [missing])
  · have zipped : ((wanted arrow input output).map Prod.fst).zip ((wanted arrow input output).map Prod.snd) =
        wanted arrow input output := (List.zip_of_prod rfl rfl).symm
    obtain ⟨batch, made⟩ := builds output
      { fields := (wanted arrow input output).map Prod.fst
        metadata := Metadata.merge input.metadata output.schema.metadata }
      ((wanted arrow input output).map Prod.snd) (by simpa using wanted_ne_nil nonempty) (by simp)
      (by rw [zipped]; exact fun entry member => mem_wanted member)
    obtain ⟨schema, columns⟩ := arrow.tryNew_ok _ _ _ made
    refine ⟨batch, mapError_ok.mpr made, wanted_backfills nulls nonempty ?_ fun key => by rw [schema]⟩
    rw [RecordBatch.entries, schema, columns, zipped]

theorem isAdded_iff {field : Field} : isAdded input field = true ↔ ∀ known ∈ input.fields, known.name ≠ field.name := by
  simp [isAdded]

section Again

variable {emitted : RecordBatch Value}

theorem Backfills.distinct (backfills : Backfills arrow input output emitted) (distinctIn : Distinct input.fields)
    (distinctOut : Distinct output.schema.fields) : Distinct emitted.schema.fields := by
  rw [Distinct, backfills.names, List.nodup_append]
  refine ⟨distinctIn, distinctOut.sublist ((List.filter_sublist).map _), fun left here right there same => ?_⟩
  obtain ⟨known, held, rfl⟩ := List.mem_map.mp here
  obtain ⟨added, new, rfl⟩ := List.mem_map.mp there
  exact isAdded_iff.mp (List.mem_filter.mp new).2 known held same

theorem Backfills.named (backfills : Backfills arrow input output emitted) (distinct : Distinct emitted.schema.fields)
    {field : Field} (held : field ∈ input.fields) : emitted.named field.name = some (standIn arrow output field) := by
  have member : standIn arrow output field ∈ emitted.entries := by
    rw [backfills.entries, List.mem_append]
    exact .inl (List.mem_map_of_mem held)
  have found := named_of_mem distinct member
  rwa [standIn_name] at found

theorem standIn_alike (clean : ¬ Violates input output) {field : Field}
    (held : field ∈ input.fields) (nullable : output.named field.name = none → field.recursivelyNullable = true) :
    (standIn arrow output field).1.dataType = field.dataType ∧
      (standIn arrow output field).1.isNullable = field.isNullable := by
  unfold standIn
  cases found : output.named field.name with
  | none =>
    rw [Option.getD_none, makeFieldRecursivelyNullable_eq field (nullable found)]
    exact ⟨rfl, rfl⟩
  | some guest =>
    have unchanged : ¬ Changed output field := fun changed => clean (changed_violates field held changed)
    refine ⟨?_, ?_⟩
    · by_contra retyped
      exact unchanged ⟨guest, found, .inl retyped⟩
    · by_contra renulled
      exact unchanged ⟨guest, found, .inr renulled⟩

theorem Backfills.clean (backfills : Backfills arrow input output emitted) (distinct : Distinct emitted.schema.fields)
    (clean : ¬ Violates input output)
    (nullable : ∀ field ∈ input.fields, output.named field.name = none → field.recursivelyNullable = true) :
    ¬ Violates input emitted := by
  have alike : ∀ field ∈ input.fields, ∀ outField ∈ emitted.schema.fields, outField.name = field.name →
      outField.dataType = field.dataType ∧ outField.isNullable = field.isNullable := by
    intro field known outField present same
    obtain ⟨column, named⟩ := named_of_field distinct present
    rw [same, backfills.named distinct known] at named
    have own : (standIn arrow output field).1 = outField := congrArg Prod.fst (Option.some.inj named)
    exact own ▸ standIn_alike clean known (nullable field known)
  intro violates
  cases violates with
  | @retyped field outField known present same changed => exact changed (alike field known outField present same).1
  | @renulled field outField known present same changed => exact changed (alike field known outField present same).2
  | @required field present added required =>
    rw [← emitted.entries_fst, backfills.entries, List.map_append, List.mem_append] at present
    obtain stands | new := present
    · obtain ⟨entry, member, rfl⟩ := List.mem_map.mp stands
      obtain ⟨known, held, rfl⟩ := List.mem_map.mp member
      exact isAdded_iff.mp added known held (standIn_name output known).symm
    · obtain ⟨entry, member, rfl⟩ := List.mem_map.mp new
      have there : entry.1 ∈ output.schema.fields := by
        rw [← output.entries_fst]
        exact List.mem_map_of_mem (List.mem_filter.mp member).1
      exact clean (.required there added required)
  | @compliance key upstream value tagged before after changed =>
    rw [backfills.metadata, before] at after
    exact changed (Option.some.inj after)

theorem Backfills.wanted_again (backfills : Backfills arrow input output emitted)
    (distinct : Distinct emitted.schema.fields) : wanted arrow input emitted = emitted.entries := by
  have stands : input.fields.map (standIn arrow emitted) = input.fields.map (standIn arrow output) := by
    refine List.map_congr_left fun field held => ?_
    rw [standIn, backfills.named distinct held, Option.getD_some]
  have dropped : (input.fields.map (standIn arrow output)).filter (fun entry => isAdded input entry.1) = [] := by
    rw [List.filter_eq_nil_iff]
    intro entry member added
    obtain ⟨field, held, rfl⟩ := List.mem_map.mp member
    exact isAdded_iff.mp added field held (standIn_name output field).symm
  rw [wanted, stands, backfills.entries, List.filter_append, dropped, List.nil_append, List.filter_filter]
  simp only [Bool.and_self]

theorem Backfills.again (backfills : Backfills arrow input output emitted)
    (distinctIn : Distinct input.fields) (distinctOut : Distinct output.schema.fields) (clean : ¬ Violates input output)
    (nullable : ∀ field ∈ input.fields, output.named field.name = none → field.recursivelyNullable = true) :
    backfillMissingColumns arrow input emitted = .ok emitted := by
  have distinct := backfills.distinct distinctIn distinctOut
  have complete : (input.fields.any fun field => (emitted.named field.name).isNone) = false := by
    rw [List.any_eq_false]
    intro field held
    simp [backfills.named distinct held]
  have fields : emitted.schema.fields = (wanted arrow input emitted).map Prod.fst := by
    rw [backfills.wanted_again distinct, emitted.entries_fst]
  have metadata : Metadata.same emitted.schema.metadata
      (Metadata.merge input.metadata emitted.schema.metadata) = true := by
    refine Metadata.same_of_get fun key => ?_
    rw [Metadata.merge_get, backfills.metadata]
    split <;> cases input.metadata.get key <;> simp
  rw [backfill_clean distinct (backfills.clean distinct clean nullable)]
  simp [complete, ← fields, metadata]

end Again

/-- `backfill_missing_columns` fails exactly on the outputs that break a rule, and else it returns the input's columns
    in their order with the guest's data or nulls, and the guest's new columns behind them; and if the fields that the
    guest has dropped were nullable with all of their children, a second application returns its result unchanged. -/
theorem backfill_missing_columns_spec (nulls : NullArrays arrow) (builds : Builds arrow) (input : Schema)
    (output : RecordBatch Value) (distinctIn : Distinct input.fields) (distinctOut : Distinct output.schema.fields)
    (nonempty : output.columns ≠ []) :
    ((∃ error, backfillMissingColumns arrow input output = .error error) ↔ Violates input output) ∧
      (¬ Violates input output → ∃ emitted, backfillMissingColumns arrow input output = .ok emitted ∧
        Backfills arrow input output emitted ∧
        ((∀ field ∈ input.fields, (∀ kept ∈ output.schema.fields, kept.name ≠ field.name) →
            field.recursivelyNullable = true) →
          backfillMissingColumns arrow input emitted = .ok emitted)) := by
  have results : ¬ Violates input output →
      ∃ emitted, backfillMissingColumns arrow input output = .ok emitted ∧ Backfills arrow input output emitted :=
    backfill_backfills nulls builds distinctOut nonempty
  refine ⟨⟨?_, fun violates => ?_⟩, fun clean => ?_⟩
  · rintro ⟨error, failed⟩
    by_contra clean
    obtain ⟨emitted, done, _⟩ := results clean
    exact nomatch failed.symm.trans done
  · cases done : backfillMissingColumns arrow input output with
    | error error => exact ⟨error, rfl⟩
    | ok emitted => exact absurd violates (backfill_not_violates distinctOut done)
  · obtain ⟨emitted, done, backfills⟩ := results clean
    refine ⟨emitted, done, backfills, fun nullable => ?_⟩
    exact backfills.again distinctIn distinctOut clean
      fun field held missing => nullable field held (named_none.mp missing)

end Wanted

theorem plainArrow_nullArrays : NullArrays plainArrow := fun _ _ => ⟨rfl, rfl⟩

theorem plainArrow_builds : Builds plainArrow := by
  intro output schema columns nonempty lengths supplied
  have typed : ∀ entry ∈ schema.fields.zip columns, entry.2.dataType = entry.1.dataType := by
    intro entry member
    obtain there | ⟨field, rfl⟩ := supplied entry member
    · obtain ⟨index, inside, rfl⟩ := List.getElem_of_mem there
      obtain ⟨placed, held⟩ := List.getElem?_zip_eq_some.mp (List.getElem?_eq_getElem inside)
      exact RecordBatch.dataType_at placed held
    · rfl
  have sized : ∀ entry ∈ schema.fields.zip columns, entry.2.len = output.numRows := by
    intro entry member
    obtain there | ⟨field, rfl⟩ := supplied entry member
    · exact output.sized entry.2 (List.of_mem_zip there).2
    · simp [plainArrow, Column.len]
  have seconds : (schema.fields.zip columns).map Prod.snd = columns := List.map_snd_zip (Nat.le_of_eq lengths.symm)
  have firsts : (schema.fields.zip columns).map Prod.fst = schema.fields := List.map_fst_zip (Nat.le_of_eq lengths)
  have types : columns.map Column.dataType = schema.fields.map Field.dataType := by
    calc columns.map Column.dataType = ((schema.fields.zip columns).map Prod.snd).map Column.dataType := by rw [seconds]
      _ = (schema.fields.zip columns).map fun entry => entry.2.dataType := List.map_map
      _ = (schema.fields.zip columns).map fun entry => entry.1.dataType := List.map_congr_left typed
      _ = ((schema.fields.zip columns).map Prod.fst).map Field.dataType := by rw [List.map_map]; rfl
      _ = schema.fields.map Field.dataType := by rw [firsts]
  have lens : ∀ column ∈ columns, column.len = output.numRows := by
    rw [← seconds, List.forall_mem_map]
    exact sized
  obtain ⟨first, rest, rfl⟩ := List.exists_cons_of_ne_nil nonempty
  have same : ∀ column ∈ first :: rest, column.len = ((first :: rest).head?.map Column.len).getD 0 := by
    intro column member
    rw [lens column member, List.head?_cons, Option.map_some, Option.getD_some, lens first List.mem_cons_self]
  simp only [plainArrow, dif_pos types, dif_pos same]
  exact ⟨_, rfl⟩

def hostField : Field := .mk "host" (.list (.mk "item" (.scalar "Utf8") true [])) true []

def hostedSchema : Schema := { traced.schema with fields := [hostField, traceField] }

/-- A row whose list of hosts the guest has dropped. -/
theorem backfill_missing_columns_traced :
    ∃ emitted, backfillMissingColumns plainArrow hostedSchema traced = .ok emitted ∧
      Backfills plainArrow hostedSchema traced emitted ∧
      backfillMissingColumns plainArrow hostedSchema emitted = .ok emitted := by
  have distinctIn : (hostedSchema.fields.map Field.name).Nodup := by decide
  have distinctOut : (traced.schema.fields.map Field.name).Nodup := by decide
  obtain ⟨fails, results⟩ := backfill_missing_columns_spec plainArrow_nullArrays plainArrow_builds hostedSchema traced
    distinctIn distinctOut (by simp [traced])
  have accepted : (backfillMissingColumns plainArrow hostedSchema traced).toBool = true := rfl
  have clean : ¬ Violates hostedSchema traced := by
    intro violates
    obtain ⟨error, failed⟩ := fails.mpr violates
    rw [failed] at accepted
    cases accepted
  obtain ⟨emitted, done, backfills, again⟩ := results clean
  refine ⟨emitted, done, backfills, again fun field held _ => ?_⟩
  have nullable : ∀ field ∈ hostedSchema.fields, field.recursivelyNullable = true := by decide
  exact nullable field held

end Guard

end OtelDatalake.Wasm
