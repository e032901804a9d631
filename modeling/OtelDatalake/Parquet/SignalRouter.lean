import OtelDatalake.Buffer.DeadLetter
import OtelDatalake.Core.Error
import OtelDatalake.Foundation.Outcome
import OtelDatalake.Parquet.Uploader
import OtelDatalake.Parquet.Variant

open OtelDatalake.Core OtelDatalake.Foundation OtelDatalake.Buffer

namespace OtelDatalake.Parquet.SignalRouting

/-- An Arrow type; `variant` is the struct of the binary fields `metadata` and `value`, neither of them nullable. -/
inductive DataType where
  | utf8
  | largeUtf8
  | variant
  | other (name : String)
  deriving DecidableEq, Repr

structure Field where
  name : String
  dataType : DataType
  nullable : Bool
  metadata : List (String × String) := []
  deriving DecidableEq, Repr

structure Schema where
  fields : List Field
  metadata : List (String × String) := []
  deriving DecidableEq, Repr

/-- An array by its rows; a row of a variant array is its metadata and its value. -/
inductive Column (Cell : Type) where
  | utf8 (rows : List (Option (List Char)))
  | largeUtf8 (rows : List (Option (List Char)))
  | variant (rows : List (Option (List UInt8 × List UInt8)))
  | other (name : String) (rows : List (Option Cell))

namespace Column

variable {Cell : Type}

def dataType : Column Cell → DataType
  | .utf8 _ => .utf8
  | .largeUtf8 _ => .largeUtf8
  | .variant _ => .variant
  | .other name _ => .other name

def len : Column Cell → Nat
  | .utf8 rows | .largeUtf8 rows => rows.length
  | .variant rows => rows.length
  | .other _ rows => rows.length

def hasNull : Column Cell → Bool
  | .utf8 rows | .largeUtf8 rows => rows.any (·.isNone)
  | .variant rows => rows.any (·.isNone)
  | .other _ rows => rows.any (·.isNone)

def texts? : Column Cell → Option (List (Option (List Char)))
  | .utf8 rows | .largeUtf8 rows => some rows
  | _ => none

end Column

def Schema.fieldWithName (schema : Schema) (name : String) : Option Field :=
  schema.fields.find? fun field => field.name == name

/-- What a batch asks of its fields and their columns. -/
structure Sized {Cell : Type} (pairs : List (Field × Column Cell)) : Prop where
  some_column : pairs ≠ []
  sized : ∃ rows, ∀ pair ∈ pairs, pair.2.len = rows
  present : ∀ pair ∈ pairs, pair.1.nullable = false → pair.2.hasNull = false
  typed : ∀ pair ∈ pairs, pair.1.dataType = pair.2.dataType

/-- Arrow's `RecordBatch`; one without columns has a row count only. -/
structure RecordBatch (Cell : Type) where
  schema : Schema
  columns : List (Column Cell)
  fitting : schema.fields.length = columns.length
  valid : columns ≠ [] → Sized (schema.fields.zip columns)

def RecordBatch.pairs {Cell : Type} (batch : RecordBatch Cell) : List (Field × Column Cell) :=
  batch.schema.fields.zip batch.columns

/-- What the router uses of Arrow: a batch made from a schema and columns, and the debug text of a type. A batch that
    is made has the schema and the columns it was made from, and one is made wherever they fit each other. -/
structure ArrowLibrary (Cell : Type) where
  tryNew : Schema → List (Column Cell) → Except String (RecordBatch Cell)
  debugType : DataType → String
  tryNew_ok : ∀ schema columns batch, tryNew schema columns = .ok batch →
    batch.schema = schema ∧ batch.columns = columns
  tryNew_sized : ∀ schema columns, schema.fields.length = columns.length → Sized (schema.fields.zip columns) →
    ∃ batch, tryNew schema columns = .ok batch

variable {Cell : Type} (arrow : ArrowLibrary Cell)

def extensionMeta : List (String × String) :=
  [("ARROW:extension:name", "arrow.parquet.variant"), ("ARROW:extension:metadata", "")]

section Transformer

variable (reader : JsonReader) (castF64 : UInt64 → UInt64)

/-- `append_value` of a `BinaryBuilder` with so many bytes, which panics where the offset behind the value does not
    fit. -/
def appendValue (bytes : Nat) (value : List UInt8) : Except (Stop ParquetSinkError) Nat :=
  if bytes + value.length ≤ i32Max then .ok (bytes + value.length) else .error .unwound

def encodeRow (encoder : VariantEncoder) :
    Option (List Char) → Except (Stop ParquetSinkError) (Option (List UInt8 × List UInt8)) × VariantEncoder
  | none => (.ok none, encoder)
  | some text =>
    let encoded := encoder.encodeToScratch reader castF64 text
    (encoded.1.mapError (.returned ∘ .variantEncoding), encoded.2)

def appendRow (metaBytes valBytes : Nat) (row : Option (List UInt8 × List UInt8)) :
    Except (Stop ParquetSinkError) (Nat × Nat) := do
  let (metaSlice, valSlice) := row.getD ([], [])
  let metaBytes ← appendValue metaBytes metaSlice
  let valBytes ← appendValue valBytes valSlice
  pure (metaBytes, valBytes)

/-- The loop of `convert_string_column`, by the bytes that its two builders have. -/
def convertRows (encoder : VariantEncoder) (metaBytes valBytes : Nat) : List (Option (List Char)) →
    Except (Stop ParquetSinkError) (List (Option (List UInt8 × List UInt8))) × VariantEncoder
  | [] => (.ok [], encoder)
  | row :: rest =>
    match encodeRow reader castF64 encoder row with
    | (.error stop, after) => (.error stop, after)
    | (.ok pair, after) =>
      match appendRow metaBytes valBytes pair with
      | .error stop => (.error stop, after)
      | .ok (metaBytes, valBytes) =>
        let others := convertRows after metaBytes valBytes rest
        (others.1.map (pair :: ·), others.2)

def convertStringColumn (encoder : VariantEncoder) (rows : List (Option (List Char))) :
    Except (Stop ParquetSinkError) (List (Option (List UInt8 × List UInt8))) × VariantEncoder :=
  convertRows reader castF64 encoder 0 0 rows

def transformColumn (columnNames : List String) (encoder : VariantEncoder) (pair : Field × Column Cell) :
    Except (Stop ParquetSinkError) (Field × Column Cell) × VariantEncoder :=
  if !columnNames.contains pair.1.name then (.ok pair, encoder)
  else
    match pair.2.texts? with
    | some rows =>
      let converted := convertStringColumn reader castF64 encoder rows
      (converted.1.map fun rows =>
        ({ name := pair.1.name, dataType := .variant, nullable := pair.1.nullable, metadata := extensionMeta },
          .variant rows), converted.2)
    | none => (.error (.returned (.variantEncoding ("column '" ++ pair.1.name ++
        "' is not a Utf8 or LargeUtf8 string array: " ++ arrow.debugType pair.2.dataType))), encoder)

def transformToVariant (encoder : VariantEncoder) (batch : RecordBatch Cell) (columnNames : List String) :
    Except (Stop ParquetSinkError) (RecordBatch Cell) × VariantEncoder :=
  if columnNames.isEmpty then (.ok batch, encoder)
  else
    match columnNames.find? fun name => (batch.schema.fieldWithName name).isNone with
    | some missing =>
      (.error (.returned (.variantEncoding ("column '" ++ missing ++ "' not found in record batch schema"))), encoder)
    | none =>
      let transformed := scanM (transformColumn arrow reader castF64 columnNames) encoder batch.pairs
      (transformed.1.bind fun pairs =>
        (arrow.tryNew { fields := pairs.map Prod.fst, metadata := batch.schema.metadata }
          (pairs.map Prod.snd)).mapError (.returned ∘ .arrow), transformed.2)

end Transformer

structure PreparedBatch (Cell : Type) where
  signal : List Char
  batch : RecordBatch Cell

def variantCandidateColumns : List String := ["attributes", "resource_attributes"]

structure SignalRouter where
  variantEnabled : Bool

namespace SignalRouter

variable (router : SignalRouter) (reader : JsonReader) (castF64 : UInt64 → UInt64)

def stringColumns (schema : Schema) (candidateColumns : List String) : List String :=
  candidateColumns.filter fun name =>
    (schema.fieldWithName name).any fun field => field.dataType = .utf8 || field.dataType = .largeUtf8

def prepareBatch (encoder : VariantEncoder) (signal : List Char) (batch : RecordBatch Cell)
    (candidateColumns : List String) : Except (Stop ParquetSinkError) (PreparedBatch Cell) × VariantEncoder :=
  if !router.variantEnabled then (.ok ⟨signal, batch⟩, encoder)
  else
    let columns := stringColumns batch.schema candidateColumns
    if columns.isEmpty then (.ok ⟨signal, batch⟩, encoder)
    else
      let transformed := transformToVariant arrow reader castF64 encoder batch columns
      (transformed.1.map (⟨signal, ·⟩), transformed.2)

def routeAndPrepare (encoder : VariantEncoder) (signal : SignalKind) (batch : RecordBatch Cell) :
    Except (Stop ParquetSinkError) (PreparedBatch Cell) × VariantEncoder :=
  router.prepareBatch arrow reader castF64 encoder signal.asStr batch variantCandidateColumns

end SignalRouter

end OtelDatalake.Parquet.SignalRouting
