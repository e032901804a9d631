import OtelDatalake.Foundation.Json
import OtelDatalake.Foundation.Renaming
import OtelDatalake.Codec.Compliance

open Std OtelDatalake.Foundation OtelDatalake.Core

namespace OtelDatalake.Codec.Compliance

variable {Cell Value : Type}

def view (members : ExtTreeMap String Value) : String → Option Value := fun name => members[name]?

namespace ComplianceEngine

def reordered (engine : ComplianceEngine Value) {order : List (String × String)} (perm : engine.mappings.Perm order) :
    ComplianceEngine Value :=
  { engine with
    mappings := order
    keyed := (perm.map Prod.fst).nodup engine.keyed }

theorem view_remapMember (members : ExtTreeMap String Value) (rule : String × String) :
    view (remapMember members rule) = move rule.1 rule.2 (view members) := by
  funext name
  unfold remapMember move view
  cases found : members[rule.1]? with
  | none => rfl
  | some value =>
    simp only [ExtTreeMap.getElem?_insert, ExtTreeMap.getElem?_erase, Function.update_apply, Std.compare_eq_iff_eq]
    simp only [eq_comm (a := name) (b := rule.2), eq_comm (a := name) (b := rule.1)]

theorem view_foldl (rules : List (String × String)) (members : ExtTreeMap String Value) :
    view (rules.foldl remapMember members) = moveAll rules (view members) := by
  induction rules generalizing members with
  | nil => rfl
  | cons rule rest ih =>
    rw [List.foldl_cons, ih, view_remapMember]
    rfl

theorem view_injective {left right : ExtTreeMap String Value} (same : view left = view right) : left = right :=
  ExtTreeMap.ext_getElem? fun name => congrFun same name

/-- No rule moves a member to the source of another rule, and no two rules move different members to one name. -/
structure Settled (mappings : List (String × String)) (members : ExtTreeMap String Value) : Prop where
  unchained : Unchained mappings (view members)
  unclashing : Unclashing mappings (view members)

theorem settled_iff (engine : ComplianceEngine Value) (members : ExtTreeMap String Value) :
    (∀ left right (first : engine.mappings.Perm left) (second : engine.mappings.Perm right),
      (engine.reordered first).remapObject members = (engine.reordered second).remapObject members) ↔
      Settled engine.mappings members := by
  have views : ∀ left right : List (String × String), left.foldl remapMember members = right.foldl remapMember members ↔
      moveAll left (view members) = moveAll right (view members) := by
    intro left right
    rw [← view_foldl, ← view_foldl]
    exact ⟨congrArg view, view_injective⟩
  have orders : (∀ left right, engine.mappings.Perm left → engine.mappings.Perm right →
      moveAll left (view members) = moveAll right (view members)) ↔
        Unchained engine.mappings (view members) ∧ Unclashing engine.mappings (view members) :=
    moveAll_orders_iff engine.keyed
  constructor
  · intro same
    have settled := orders.mp fun left right first second => (views left right).mp (same left right first second)
    exact ⟨settled.1, settled.2⟩
  · intro settled left right first second
    exact (views left right).mpr (orders.mpr ⟨settled.unchained, settled.unclashing⟩ left right first second)

def unreadable (pair : Field × Column Cell) : Bool :=
  isAttributeColumn pair.1.name &&
    match pair.2 with
    | .utf8 _ => false
    | .other .. => true

def Holds (engine : ComplianceEngine Value) (batch : RecordBatch Cell) (members : ExtTreeMap String Value) : Prop :=
  ∃ pair ∈ batch.schema.fields.zip batch.columns, isAttributeColumn pair.1.name = true ∧
    ∃ rows, pair.2 = .utf8 rows ∧ ∃ text, some text ∈ rows ∧ engine.json.fromStr text = some (.object members)

/-- The result of the remapping, and what is made of it, do not depend on the iteration order of the map. -/
structure OrderFree (arrow : ArrowLibrary Cell) (engine : ComplianceEngine Value) (batch : RecordBatch Cell) : Prop where
  remapped : ∀ left right (first : engine.mappings.Perm left) (second : engine.mappings.Perm right),
    (engine.reordered first).executeRemapRules arrow batch = (engine.reordered second).executeRemapRules arrow batch
  assessed : ∀ left right (first : engine.mappings.Perm left) (second : engine.mappings.Perm right),
    (engine.reordered first).assessAndRemap arrow batch = (engine.reordered second).assessAndRemap arrow batch

section Columns

variable {arrow : ArrowLibrary Cell} {engine other : ComplianceEngine Value} {batch : RecordBatch Cell}

def remappedColumn (engine : ComplianceEngine Value) (field : Field) : Column Cell → Column Cell
  | .utf8 rows => if isAttributeColumn field.name then .utf8 (rows.map (·.map engine.remapText)) else .utf8 rows
  | .other dataType values => .other dataType values

theorem remapColumns_readable {pairs : List (Field × Column Cell)} (readable : pairs.any unreadable = false) :
    engine.remapColumns pairs = .ok (pairs.map fun pair => engine.remappedColumn pair.1 pair.2) := by
  induction pairs with
  | nil => rfl
  | cons first rest ih =>
    obtain ⟨field, column⟩ := first
    rw [List.any_cons, Bool.or_eq_false_iff] at readable
    have own : engine.remapColumn field column = .ok (engine.remappedColumn field column) := by
      unfold remapColumn
      cases read : isAttributeColumn field.name with
      | false => cases column <;> simp [remappedColumn, read]
      | true =>
        cases column with
        | utf8 rows => simp [remappedColumn, read, downcastStringArray, Except.map]
        | other dataType values => simp [unreadable, read] at readable
    simp only [remapColumns, own, ih readable.2]
    rfl

/-- Two columns that `try_new` does not tell apart. -/
structure SameShape (left right : Column Cell) : Prop where
  dataType : left.dataType = right.dataType
  length : left.length = right.length
  hasNull : left.hasNull = right.hasNull

theorem remappedColumn_shape (engine : ComplianceEngine Value) (field : Field) (column : Column Cell) :
    SameShape (engine.remappedColumn field column) column := by
  cases column with
  | other dataType values => exact ⟨rfl, rfl, rfl⟩
  | utf8 rows =>
    simp only [remappedColumn]
    split
    · refine ⟨rfl, by simp [Column.length], ?_⟩
      simp [Column.hasNull, List.any_map, Function.comp_def]
    · exact ⟨rfl, rfl, rfl⟩

theorem remapped_shapes (engine : ComplianceEngine Value) {fields : List Field} {columns : List (Column Cell)}
    (fitting : fields.length = columns.length) :
    List.Forall₂ SameShape ((fields.zip columns).map fun pair => engine.remappedColumn pair.1 pair.2) columns := by
  induction columns generalizing fields with
  | nil =>
    rw [List.zip_nil_right]
    exact .nil
  | cons column rest ih =>
    cases fields with
    | nil => cases fitting
    | cons field others =>
      exact .cons (remappedColumn_shape engine field column) (ih (Nat.succ.inj fitting))

theorem zip_shape {left right : List (Column Cell)} (same : List.Forall₂ SameShape left right) {fields : List Field}
    {pair : Field × Column Cell} (member : pair ∈ fields.zip left) :
    ∃ column, (pair.1, column) ∈ fields.zip right ∧ SameShape pair.2 column := by
  induction same generalizing fields with
  | nil =>
    rw [List.zip_nil_right] at member
    cases member
  | @cons first second rest others shape _ ih =>
    cases fields with
    | nil => cases member
    | cons field fields =>
      rcases List.mem_cons.mp member with rfl | later
      · exact ⟨second, List.mem_cons_self, shape⟩
      · obtain ⟨column, listed, alike⟩ := ih later
        exact ⟨column, List.mem_cons_of_mem _ listed, alike⟩

theorem Sized.congr {fields : List Field} {left right : List (Column Cell)} (same : List.Forall₂ SameShape left right)
    (sized : Sized (fields.zip right)) : Sized (fields.zip left) := by
  obtain ⟨rows, lengths⟩ := sized.sized
  refine ⟨⟨rows, fun pair member => ?_⟩, fun pair member strict => ?_, fun pair member => ?_⟩ <;>
    obtain ⟨column, listed, shape⟩ := zip_shape same member
  · rw [shape.length]
    exact lengths _ listed
  · rw [shape.hasNull]
    exact sized.present _ listed strict
  · rw [shape.dataType]
    exact sized.typed _ listed

theorem executeRemapRules_readable (engine : ComplianceEngine Value) (some : batch.columns ≠ [])
    (readable : (batch.schema.fields.zip batch.columns).any unreadable = false) :
    ∃ result, engine.executeRemapRules arrow batch = .ok result ∧ result.schema = batch.schema ∧
      result.columns = (batch.schema.fields.zip batch.columns).map fun pair => engine.remappedColumn pair.1 pair.2 := by
  have shapes := remapped_shapes engine batch.fitting
  have counts := shapes.length_eq
  obtain ⟨result, made⟩ := arrow.tryNew_sized batch.schema _
    (fun none => some (List.length_eq_zero_iff.mp (by rw [← counts, none]; rfl)))
    (batch.fitting.trans counts.symm) (Sized.congr shapes batch.valid)
  refine ⟨result, ?_, arrow.tryNew_ok _ _ _ made⟩
  simp only [executeRemapRules, remapColumns_readable readable]
  show ((arrow.tryNew batch.schema _).mapError _ : Except PipelineError (RecordBatch Cell)) = .ok result
  rw [made]
  rfl

theorem remapObject_congr {pair : Field × Column Cell} {rows : List (Option String)} {text : String}
    {members : ExtTreeMap String Value} (json : engine.json = other.json)
    (lossless : ∀ left right, engine.json.toText (.object left) = engine.json.toText (.object right) → left = right)
    (same : engine.remappedColumn pair.1 pair.2 = other.remappedColumn pair.1 pair.2)
    (attr : isAttributeColumn pair.1.name = true) (utf8 : pair.2 = .utf8 rows) (member : some text ∈ rows)
    (parsed : engine.json.fromStr text = some (.object members)) :
    engine.remapObject members = other.remapObject members := by
  simp only [utf8, remappedColumn, attr, if_true, Column.utf8.injEq] at same
  have equal := List.map_inj_left.mp same (some text) member
  simp only [Option.map_some, Option.some.injEq, remapText, ← json, parsed] at equal
  exact lossless _ _ equal

end Columns

theorem OrderFree.settled {arrow : ArrowLibrary Cell} {engine : ComplianceEngine Value} {batch : RecordBatch Cell}
    (free : engine.OrderFree arrow batch)
    (lossless : ∀ left right, engine.json.toText (.object left) = engine.json.toText (.object right) → left = right)
    (readable : (batch.schema.fields.zip batch.columns).any unreadable = false) {members : ExtTreeMap String Value}
    (holds : engine.Holds batch members) : Settled engine.mappings members := by
  obtain ⟨pair, listed, attr, rows, utf8, text, member, parsed⟩ := holds
  have some : batch.columns ≠ [] := by
    intro none
    rw [none, List.zip_nil_right] at listed
    cases listed
  rw [← settled_iff]
  intro left right first second
  obtain ⟨result, executed, _, columns⟩ := executeRemapRules_readable (engine.reordered first) some readable
  obtain ⟨result', executed', _, columns'⟩ := executeRemapRules_readable (engine.reordered second) some readable
  have equal := free.remapped left right first second
  rw [executed, executed'] at equal
  cases equal
  have same := List.map_inj_left.mp (columns.symm.trans columns') pair listed
  have json : (engine.reordered first).json = (engine.reordered second).json := rfl
  exact remapObject_congr json lossless same attr utf8 member parsed

def fittingColumns {Cell : Type} (pairs : List (Field × Column Cell)) : Bool :=
  (pairs.all fun pair => pair.2.length == (pairs.head?.map fun first => first.2.length).getD 0) &&
    pairs.all fun pair => (pair.1.nullable || !pair.2.hasNull) && pair.1.dataType == pair.2.dataType

theorem fittingColumns_iff {Cell : Type} {pairs : List (Field × Column Cell)} :
    fittingColumns pairs = true ↔ Sized pairs := by
  simp only [fittingColumns, Bool.and_eq_true, List.all_eq_true, beq_iff_eq, Bool.or_eq_true, Bool.not_eq_true']
  constructor
  · rintro ⟨lengths, checks⟩
    refine ⟨⟨_, lengths⟩, fun pair member strict => ?_, fun pair member => (checks pair member).2⟩
    exact (checks pair member).1.resolve_left (by simp [strict])
  · rintro ⟨⟨rows, lengths⟩, present, typed⟩
    refine ⟨fun pair member => ?_, fun pair member => ⟨?_, typed pair member⟩⟩
    · cases pairs with
      | nil => cases member
      | cons first rest => exact (lengths pair member).trans (lengths first List.mem_cons_self).symm
    · cases strict : pair.1.nullable with
      | true => exact .inl rfl
      | false => exact .inr (present pair member strict)

def plainArrow {Cell : Type} : ArrowLibrary Cell where
  tryNew schema columns :=
    if same : schema.fields.length = columns.length then
      if columns.isEmpty then .error "must either specify a row count or at least one column"
      else if sized : fittingColumns (schema.fields.zip columns) = true then
        .ok { schema := schema, columns := columns, fitting := same, valid := fittingColumns_iff.mp sized }
      else .error "all columns in a record batch must have the specified row count"
    else .error "number of columns must match number of fields in schema"
  tryNew_ok := by
    intro schema columns batch made
    repeat' split at made
    · cases made
    · cases made
      exact ⟨rfl, rfl⟩
    · cases made
    · cases made
  tryNew_sized := by
    intro schema columns some same sized
    rw [dif_pos same, if_neg (by simpa using some), dif_pos (fittingColumns_iff.mpr sized)]
    exact ⟨_, rfl⟩

end ComplianceEngine

end OtelDatalake.Codec.Compliance
