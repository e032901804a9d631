import OtelDatalake.Core.Error
import OtelDatalake.Foundation.OrderedMap

open Std OtelDatalake.Core

namespace OtelDatalake.Codec.Compliance

inductive ComplianceMode where
  | strict
  | quarantine
  | remap
  | off
  deriving DecidableEq, Repr

/-- A column by its values: that of a string array, or of an array of another type. -/
inductive Column (Cell : Type) where
  | utf8 (values : List (Option String))
  | other (dataType : String) (values : List (Option Cell))
  deriving DecidableEq, Repr

namespace Column

variable {Cell : Type}

def dataType : Column Cell → String
  | .utf8 _ => "Utf8"
  | .other dataType _ => dataType

def length : Column Cell → Nat
  | .utf8 values => values.length
  | .other _ values => values.length

def hasNull : Column Cell → Bool
  | .utf8 values => values.any (·.isNone)
  | .other _ values => values.any (·.isNone)

end Column

structure Field where
  name : String
  dataType : String
  nullable : Bool
  deriving DecidableEq, Repr

structure Schema where
  fields : List Field
  metadata : ExtTreeMap String String

/-- What a batch asks of its fields and their columns. -/
structure Sized {Cell : Type} (pairs : List (Field × Column Cell)) : Prop where
  sized : ∃ rows, ∀ pair ∈ pairs, pair.2.length = rows
  present : ∀ pair ∈ pairs, pair.1.nullable = false → pair.2.hasNull = false
  typed : ∀ pair ∈ pairs, pair.1.dataType = pair.2.dataType

structure RecordBatch (Cell : Type) where
  schema : Schema
  columns : List (Column Cell)
  fitting : schema.fields.length = columns.length
  valid : Sized (schema.fields.zip columns)

namespace RecordBatch

variable {Cell : Type}

def columnByName (batch : RecordBatch Cell) (name : String) : Option (Column Cell) :=
  ((batch.schema.fields.zip batch.columns).find? fun pair => pair.1.name == name).map (·.2)

end RecordBatch

/-- Arrow's `RecordBatch::try_new`: a batch that is made has the schema and the columns it was made from, and one is
    made of columns that fit the schema, if there are any. -/
structure ArrowLibrary (Cell : Type) where
  tryNew : Schema → List (Column Cell) → Except String (RecordBatch Cell)
  tryNew_ok : ∀ schema columns batch, tryNew schema columns = .ok batch →
    batch.schema = schema ∧ batch.columns = columns
  tryNew_sized : ∀ schema columns, columns ≠ [] → schema.fields.length = columns.length →
    Sized (schema.fields.zip columns) → ∃ batch, tryNew schema columns = .ok batch

/-- A parsed JSON text: an object by its members, or another value. -/
inductive ParsedJson (Value : Type) where
  | object (members : ExtTreeMap String Value)
  | other (value : Value)

/-- `serde_json`: `from_str` and the `to_string` of its values. -/
structure SerdeJson (Value : Type) where
  fromStr : String → Option (ParsedJson Value)
  toText : ParsedJson Value → String

inductive ComplianceOutput (Cell : Type) where
  | compliant (batch : RecordBatch Cell)
  | remapped (batch : RecordBatch Cell)
  | quarantined (batch : RecordBatch Cell)

/-- The engine, with its mappings in the order in which the `HashMap` yields them. -/
structure ComplianceEngine (Value : Type) where
  json : SerdeJson Value
  mode : ComplianceMode
  mappings : List (String × String)
  keyed : (mappings.map Prod.fst).Nodup

def downcastStringArray {Cell : Type} (column : Column Cell) (name : String) :
    Except PipelineError (List (Option String)) :=
  match column with
  | .utf8 values => .ok values
  | .other .. => .error (.internal ("column '" ++ name ++ "' is not a Utf8 `StringArray`").toList)

namespace ComplianceEngine

variable {Cell Value : Type} (arrow : ArrowLibrary Cell)

def isSchemaCompliant (schema : Schema) : Bool := schema.metadata["otel::compliance::status"]? == some "verified"

def rowCompliant (engine : ComplianceEngine Value) (row : Option String) : Bool :=
  match row.bind engine.json.fromStr with
  | some (.object members) => members.contains "service.name"
  | _ => false

def checkBatchCompliance (engine : ComplianceEngine Value) (batch : RecordBatch Cell) : Except PipelineError Bool :=
  match batch.columnByName "resource_attributes" with
  | none => .ok false
  | some column => (downcastStringArray column "resource_attributes").map fun rows => rows.all engine.rowCompliant

def tagSchemaCompliant (schema : Schema) : Schema :=
  { schema with metadata := schema.metadata.insert "otel::compliance::status" "verified" }

def remapMember (members : ExtTreeMap String Value) (rule : String × String) : ExtTreeMap String Value :=
  match members[rule.1]? with
  | none => members
  | some removedVal => (members.erase rule.1).insert rule.2 removedVal

def remapObject (engine : ComplianceEngine Value) (members : ExtTreeMap String Value) : ExtTreeMap String Value :=
  engine.mappings.foldl remapMember members

def remapText (engine : ComplianceEngine Value) (text : String) : String :=
  match engine.json.fromStr text with
  | none => text
  | some (.object members) => engine.json.toText (.object (engine.remapObject members))
  | some (.other value) => engine.json.toText (.other value)

def isAttributeColumn (name : String) : Bool := name == "attributes" || name == "resource_attributes"

def remapColumn (engine : ComplianceEngine Value) (field : Field) (column : Column Cell) :
    Except PipelineError (Column Cell) :=
  if isAttributeColumn field.name then
    (downcastStringArray column field.name).map fun rows => .utf8 (rows.map (·.map engine.remapText))
  else .ok column

def remapColumns (engine : ComplianceEngine Value) :
    List (Field × Column Cell) → Except PipelineError (List (Column Cell))
  | [] => .ok []
  | (field, column) :: rest => do
    let first ← engine.remapColumn field column
    let others ← remapColumns engine rest
    .ok (first :: others)

def executeRemapRules (engine : ComplianceEngine Value) (batch : RecordBatch Cell) :
    Except PipelineError (RecordBatch Cell) := do
  let newColumns ← engine.remapColumns (batch.schema.fields.zip batch.columns)
  (arrow.tryNew batch.schema newColumns).mapError fun cause => .arrow cause.toList

def tagBatch (batch : RecordBatch Cell) : Except PipelineError (RecordBatch Cell) :=
  (arrow.tryNew (tagSchemaCompliant batch.schema) batch.columns).mapError fun cause => .arrow cause.toList

def strictFailure : PipelineError := .internal
  "Strict compliance validation failed: missing SERVICE_NAME in resource attributes".toList

def assessAndRemap (engine : ComplianceEngine Value) (batch : RecordBatch Cell) :
    Except PipelineError (ComplianceOutput Cell) :=
  if engine.mode = .off then .ok (.compliant batch)
  else if isSchemaCompliant batch.schema then .ok (.compliant batch)
  else
    match engine.mode with
    | .strict => do
      if ← engine.checkBatchCompliance batch then (tagBatch arrow batch).map .compliant
      else .error strictFailure
    | .quarantine => do
      if ← engine.checkBatchCompliance batch then (tagBatch arrow batch).map .compliant
      else .ok (.quarantined batch)
    | .remap => do
      let remapped ← engine.executeRemapRules arrow batch
      if ← engine.checkBatchCompliance remapped then (tagBatch arrow remapped).map .remapped
      else .ok (.quarantined remapped)
    | .off => .ok (.compliant batch)

end ComplianceEngine

end OtelDatalake.Codec.Compliance
