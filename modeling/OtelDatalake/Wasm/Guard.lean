import OtelDatalake.Foundation.LruPool
import OtelDatalake.Wasm.Config

open OtelDatalake.Foundation

namespace OtelDatalake.Wasm

mutual

/-- Arrow's `DataType`: the types that have child fields, and every other type by its name. -/
inductive DataType where
  | scalar (name : String)
  | struct (fields : FieldList)
  | list (child : Field)
  | largeList (child : Field)
  | fixedSizeList (child : Field) (size : Nat)
  | listView (child : Field)
  | largeListView (child : Field)
  | map (child : Field) (keysSorted : Bool)
  deriving DecidableEq, Repr

/-- Arrow's `Field`; its metadata map stands by its entries in key order. -/
inductive Field where
  | mk (name : String) (dataType : DataType) (nullable : Bool) (metadata : List (String × String))
  deriving DecidableEq, Repr

inductive FieldList where
  | nil
  | cons (first : Field) (rest : FieldList)
  deriving DecidableEq, Repr

end

namespace Field

def name : Field → String
  | .mk name _ _ _ => name

def dataType : Field → DataType
  | .mk _ dataType _ _ => dataType

def isNullable : Field → Bool
  | .mk _ _ nullable _ => nullable

end Field

mutual

def makeFieldRecursivelyNullable : Field → Field
  | .mk name dataType _ metadata => .mk name (makeTypeRecursivelyNullable dataType) true metadata

def makeTypeRecursivelyNullable : DataType → DataType
  | .scalar name => .scalar name
  | .struct fields => .struct (makeFieldsRecursivelyNullable fields)
  | .list child => .list (makeFieldRecursivelyNullable child)
  | .largeList child => .largeList (makeFieldRecursivelyNullable child)
  | .fixedSizeList child size => .fixedSizeList (makeFieldRecursivelyNullable child) size
  | .listView child => .listView (makeFieldRecursivelyNullable child)
  | .largeListView child => .largeListView (makeFieldRecursivelyNullable child)
  | .map child keysSorted => .map (makeFieldRecursivelyNullable child) keysSorted

def makeFieldsRecursivelyNullable : FieldList → FieldList
  | .nil => .nil
  | .cons first rest => .cons (makeFieldRecursivelyNullable first) (makeFieldsRecursivelyNullable rest)

end

/-- A schema's metadata map, by entries of distinct keys in the order of iteration. -/
structure Metadata where
  entries : List (String × String) := []
  distinct : (entries.map Prod.fst).Nodup := by decide
  deriving DecidableEq, Repr

namespace Metadata

def get (metadata : Metadata) (key : String) : Option String := metadata.entries.lookup key

def orInsert (metadata : Metadata) (key value : String) : Metadata :=
  if absent : metadata.get key = none then
    { entries := (key, value) :: metadata.entries
      distinct := List.nodup_cons.mpr ⟨lookup_eq_none absent, metadata.distinct⟩ }
  else metadata

/-- Equality of hash maps: as many entries, and each of the left ones on the right. -/
def same (left right : Metadata) : Bool :=
  left.entries.length = right.entries.length &&
    left.entries.all fun entry => right.get entry.1 = some entry.2

def complianceTag : String := "otel::compliance::"

def isCompliance (key : String) : Bool := complianceTag.toList.isPrefixOf key.toList

/-- The input's entries, and the guest's own where the input has none and the key is no compliance key. -/
def merge (input output : Metadata) : Metadata :=
  output.entries.foldl (fun merged entry =>
    if isCompliance entry.1 then merged else merged.orInsert entry.1 entry.2) input

end Metadata

structure Schema where
  fields : List Field
  metadata : Metadata := {}
  deriving DecidableEq, Repr

namespace Schema

def indexOf (schema : Schema) (name : String) : Option Nat :=
  schema.fields.findIdx? fun field => field.name = name

/-- The index a hash map collected over the enumerated fields holds for a name: the last one of that name. -/
def lastIndexOf (name : String) : List Field → Option Nat
  | [] => none
  | field :: rest =>
    match lastIndexOf name rest with
    | some index => some (index + 1)
    | none => if field.name = name then some 0 else none

end Schema

/-- An array with its type and its own null count. -/
structure Column (Value : Type) where
  dataType : DataType
  values : List (Option Value)
  nullCount : Nat
  deriving DecidableEq, Repr

namespace Column

variable {Value : Type}

def len (column : Column Value) : Nat := column.values.length

def isEntirelyNull (column : Column Value) : Bool := column.nullCount = column.len

end Column

/-- Arrow's `RecordBatch`: one column of the field's type for each field, all of the same length. -/
structure RecordBatch (Value : Type) where
  schema : Schema
  columns : List (Column Value)
  numRows : Nat
  typed : columns.map Column.dataType = schema.fields.map Field.dataType
  sized : ∀ column ∈ columns, column.len = numRows

/-- What the guard uses of Arrow: a batch made from a schema and columns, an array of nulls, and the debug text of
    a type. A batch that is made has the schema and the columns it was made from. -/
structure ArrowLibrary (Value : Type) where
  tryNew : Schema → List (Column Value) → Except String (RecordBatch Value)
  newNullArray : DataType → Nat → Column Value
  debugType : DataType → String
  tryNew_ok : ∀ schema columns batch, tryNew schema columns = .ok batch →
    batch.schema = schema ∧ batch.columns = columns

def immutableColumns : List String :=
  ["trace_id", "span_id", "timestamp", "observed_timestamp", "name", "type"]

namespace Guard

variable {Value : Type} (arrow : ArrowLibrary Value)

def columnAt (batch : RecordBatch Value) (index : Nat) (side : String) :
    Except WasmTransformError (Column Value) :=
  match batch.columns[index]? with
  | some column => .ok column
  | none => .error (.pipeline s!"Column index {index} out of bounds in {side}")

def inputColInfo (input : RecordBatch Value) (colName : String) :
    Except WasmTransformError (Option (DataType × Bool)) :=
  match input.schema.indexOf colName with
  | some index => do
    let column ← columnAt input index "input"
    return some (column.dataType, column.isEntirelyNull)
  | none => .ok none

def verifyColumn (input output : RecordBatch Value) (colName : String) : Except WasmTransformError Unit := do
  let info ← inputColInfo input colName
  let inputWasNull := info.all fun found => found.2
  match output.schema.indexOf colName with
  | some index =>
    let column ← columnAt output index "output"
    match info.filter fun found => column.dataType ≠ found.1 with
    | some found =>
      let before := arrow.debugType found.1
      let after := arrow.debugType column.dataType
      throw (.pipeline s!"Immutability violation: core field '{colName}' data type mutated from {before} to {after}")
    | none =>
      if column.isEntirelyNull && column.len ≠ 0 && !inputWasNull then
        throw (.pipeline s!"Immutability violation: core field '{colName}' is entirely null in output")
      else return ()
  | none =>
    if !inputWasNull && output.numRows > 0 then
      throw (.pipeline s!"Immutability violation: core field '{colName}' was dropped by guest")
    else return ()

def verifyStructuralImmutability (input output : RecordBatch Value) : Except WasmTransformError Unit :=
  immutableColumns.forM (verifyColumn arrow input output)

def nullability (nullable : Bool) : String := if nullable then "nullable" else "non-nullable"

/-- One round of the first loop of `backfill_missing_columns`: the field and column that stand for an input field,
    and whether they were added. -/
def backfillField (output : RecordBatch Value) (field : Field) :
    Except WasmTransformError (Field × Column Value × Bool) :=
  match Schema.lastIndexOf field.name output.schema.fields with
  | some index =>
    match output.schema.fields[index]? with
    | none => .error (.pipeline s!"Field index {index} out of bounds in output schema")
    | some outField =>
      let name := field.name
      if outField.dataType ≠ field.dataType then
        let before := arrow.debugType field.dataType
        let after := arrow.debugType outField.dataType
        .error (.pipeline s!"Defensive schema guard violation: column '{name}' data type mutated from {before} to {after}")
      else if field.isNullable ≠ outField.isNullable then
        let before := nullability field.isNullable
        let after := nullability outField.isNullable
        .error (.pipeline s!"Defensive schema guard violation: column '{name}' nullability mutated from {before} to {after}")
      else do
        let column ← columnAt output index "output"
        return (outField, column, false)
  | none =>
    let backfilled := makeFieldRecursivelyNullable field
    .ok (backfilled, arrow.newNullArray backfilled.dataType output.numRows, true)

def addedColumns (input : Schema) (output : RecordBatch Value) :
    List (Field × Nat) → Except WasmTransformError (List (Field × Column Value))
  | [] => .ok []
  | (field, index) :: rest =>
    if (input.indexOf field.name).isNone then
      if !field.isNullable then
        let name := field.name
        .error (.pipeline
          s!"Defensive schema guard violation: newly added column '{name}' must be nullable to ensure backward compatibility")
      else do
        let column ← columnAt output index "output"
        let others ← addedColumns input output rest
        return (field, column) :: others
    else addedColumns input output rest

def complianceMutation (input output : Metadata) : Option (String × String × String) :=
  output.entries.findSome? fun entry =>
    if Metadata.isCompliance entry.1 then
      ((input.get entry.1).filter fun upstream => upstream ≠ entry.2).map fun upstream => (entry.1, upstream, entry.2)
    else none

def backfillMissingColumns (input : Schema) (output : RecordBatch Value) :
    Except WasmTransformError (RecordBatch Value) := do
  let kept ← input.fields.mapM (backfillField arrow output)
  let new ← addedColumns input output output.schema.fields.zipIdx
  let fields := kept.map (fun entry => entry.1) ++ new.map Prod.fst
  let columns := kept.map (fun entry => entry.2.1) ++ new.map Prod.snd
  let added := kept.any fun entry => entry.2.2
  match complianceMutation input.metadata output.schema.metadata with
  | some (key, upstream, value) =>
    throw (.pipeline
      s!"Defensive schema guard violation: guest attempted to mutate compliance metadata '{key}' from '{upstream}' to '{value}'")
  | none =>
    let merged := Metadata.merge input.metadata output.schema.metadata
    if !added && output.schema.fields = fields && Metadata.same output.schema.metadata merged then return output
    else (arrow.tryNew { fields := fields, metadata := merged } columns).mapError .pipeline

def sameSchema (input output : Schema) : Bool :=
  input.fields = output.fields && Metadata.same input.metadata output.metadata

def verifyStrictSchemaEquality (input output : RecordBatch Value) : Except WasmTransformError Unit :=
  if sameSchema input.schema output.schema then .ok ()
  else .error (.pipeline "Strict schema guard violation: output schema does not match input schema.")

/-- What `dispatch_outcome` does to one output batch of the guest. -/
def guardBatch (mode : SchemaGuardMode) (input output : RecordBatch Value) :
    Except WasmTransformError (RecordBatch Value) := do
  verifyStructuralImmutability arrow input output
  match mode with
  | .strict =>
    verifyStrictSchemaEquality input output
    return output
  | .defensive => backfillMissingColumns arrow input.schema output

def guardBatches (mode : SchemaGuardMode) (input : RecordBatch Value) (outputs : List (RecordBatch Value)) :
    Except WasmTransformError (List (RecordBatch Value)) :=
  outputs.mapM (guardBatch arrow mode input)

end Guard

end OtelDatalake.Wasm
