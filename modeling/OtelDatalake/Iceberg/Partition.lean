import Mathlib.Algebra.Group.Int.Defs
import OtelDatalake.Core.Sort
import OtelDatalake.Foundation.Calendar
import OtelDatalake.Foundation.Text

open OtelDatalake.Foundation OtelDatalake.Core

namespace OtelDatalake.Iceberg

inductive PartitionGranularity where
  | hourly
  | daily
  deriving DecidableEq, Repr

/-- The texts of a date and time in UTC by the formats `%Y`, `%m`, `%d` and `%H`. -/
structure DateTimeText where
  year : List Char
  month : List Char
  day : List Char
  hour : List Char
  deriving DecidableEq, Repr

/-- `Utc.timestamp_opt` with what its result is formatted to; none if it is not a single time. -/
abbrev Chrono := (secs : Int) → (nanos : Nat) → Option DateTimeText

def padText (width : Nat) (text : List Char) : List Char := text ++ List.replicate (width - text.length) ' '

def DateTimeText.path (datetime : DateTimeText) : PartitionGranularity → List Char
  | .hourly =>
    "year=".toList ++ datetime.year ++ "/month=".toList ++ padText 2 datetime.month ++ "/day=".toList ++
      padText 2 datetime.day ++ "/hour=".toList ++ padText 2 datetime.hour ++ "/".toList
  | .daily =>
    "year=".toList ++ datetime.year ++ "/month=".toList ++ padText 2 datetime.month ++ "/day=".toList ++
      padText 2 datetime.day ++ "/".toList

/-- Division of integers rounds down here, as `div_euclid` does. -/
def getPartitionPath (chrono : Chrono) (timestampNanos : Int64) (granularity : PartitionGranularity) :
    Except PipelineError (List Char) :=
  let secs := timestampNanos.toInt / 1000000000
  let nanos := (timestampNanos.toInt % 1000000000).toNat
  match chrono secs nanos with
  | none => .error (.internal "Malformed OTLP timestamp".toList)
  | some datetime => .ok (datetime.path granularity)

def checkedMul (left right : Int64) : Option Int64 :=
  let product := left.toInt * right.toInt
  if -2 ^ 63 ≤ product ∧ product < 2 ^ 63 then some (Int64.ofInt product) else none

def microsToNanos (value : Int64) : Except PipelineError Int64 :=
  match checkedMul value 1000 with
  | some nanos => .ok nanos
  | none => .error (.internal "Timestamp overflow".toList)

def readTimestamps (toNanos : Int64 → Except PipelineError Int64) :
    List (Option Int64) → Except PipelineError (List Int64)
  | [] => .ok []
  | none :: _ => .error (.internal "Null timestamp in partition column".toList)
  | some value :: rest => do
    let nanos ← toNanos value
    let others ← readTimestamps toNanos rest
    return nanos :: others

def groupRows (chrono : Chrono) (granularity : PartitionGranularity) :
    (i : Nat) → List Int64 → List (List Char × List Nat) → Except PipelineError (List (List Char × List Nat))
  | _, [], partitions => .ok partitions
  | i, val :: rest, partitions => do
    let path ← getPartitionPath chrono val granularity
    if 2 ^ 32 ≤ i then .error (.internal "out of range integral type conversion attempted".toList)
    else groupRows chrono granularity (i + 1) rest (pushGroup path i partitions)

section Batches

variable {Row : Type}

def takeBatch (batch : RecordBatch Row) (indices : List Nat) : RecordBatch Row :=
  { batch with rows := indices.filterMap fun index => batch.rows[index]? }

def subBatch (arrow : Arrow Row) (batch : RecordBatch Row) (partition : List Char × List Nat) :
    Except PipelineError (List Char × RecordBatch Row) :=
  ((arrow.takeRows partition.2 batch.rows).mapError .arrow).map fun _ => (partition.1, takeBatch batch partition.2)

/-- `hashOrder` is the order in which the map of the partitions gives its entries. -/
def partitionBatch (arrow : Arrow Row) (chrono : Chrono)
    (hashOrder : List (List Char × List Nat) → List (List Char × List Nat)) (batch : RecordBatch Row)
    (timestampColName : String) (granularity : PartitionGranularity) :
    Except PipelineError (List (List Char × RecordBatch Row)) :=
  match batch.columnByName timestampColName with
  | none => .error (.internal ("Missing " ++ timestampColName).toList)
  | some type => do
    let values := batch.rows.map (arrow.timestamp timestampColName)
    let timestampsNanos ←
      match type with
      | .timestamp .nanosecond _ => readTimestamps .ok values
      | .timestamp .microsecond _ => readTimestamps microsToNanos values
      | other =>
        .error (.internal ("Unexpected timestamp column datatype: " ++ arrow.debugType other).toList)
    let partitions ← groupRows chrono granularity 0 timestampsNanos []
    (hashOrder partitions).mapM (subBatch arrow batch)

end Batches

end OtelDatalake.Iceberg
