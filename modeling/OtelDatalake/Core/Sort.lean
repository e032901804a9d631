import Mathlib.Data.List.Induction
import OtelDatalake.Buffer.Config
import OtelDatalake.Core.Error
import OtelDatalake.Foundation.Grouping
import OtelDatalake.Foundation.LittleEndian
import OtelDatalake.Foundation.Outcome

open OtelDatalake.Buffer

namespace OtelDatalake.Core

inductive TimeUnit where
  | second
  | millisecond
  | microsecond
  | nanosecond
  deriving DecidableEq, Repr

/-- The column types that the sinks tell apart; another one is given by its name. -/
inductive DataType where
  | utf8
  | timestamp (unit : TimeUnit) (timezone : Option String)
  | other (name : String)
  deriving DecidableEq, Repr

structure RecordBatch (Row : Type) where
  schema : List (String × DataType)
  rows : List Row
  deriving DecidableEq

namespace RecordBatch

variable {Row : Type}

def columnByName (batch : RecordBatch Row) (column : String) : Option DataType := batch.schema.lookup column

def slice (batch : RecordBatch Row) (offset length : Nat) : RecordBatch Row :=
  { batch with rows := Foundation.slice offset length batch.rows }

end RecordBatch

structure SortOptions where
  descending : Bool
  nullsFirst : Bool
  deriving DecidableEq, Repr

structure NormalizedSortKey where
  column : String
  options : SortOptions
  deriving DecidableEq, Repr

inductive MissingColumnAction where
  | error
  | skip
  deriving DecidableEq, Repr

structure BatchSorter where
  onMissingColumn : MissingColumnAction
  keys : SignalKind → List NormalizedSortKey

/-- What the Arrow library gives; its errors are the texts that they display. -/
structure Arrow (Row : Type) where
  text : String → Row → Option String
  timestamp : String → Row → Option Int64
  debugType : DataType → String
  lexsortToIndices : List NormalizedSortKey → List Row → Except (List Char) (List Nat)
  /-- `take` on every column and `RecordBatch::try_new`, which give the rows of the indices or fail. -/
  takeRows : List Nat → List Row → Except (List Char) Unit

namespace BatchSorter

variable {Row : Type}

def missing (what column : String) : PipelineError :=
  .internal ("Missing configured " ++ what ++ " column '" ++ column ++ "'").toList

/-- The columns to sort by; one that the batch does not have ends the loop or is skipped. -/
def sortCols (sorter : BatchSorter) (batch : RecordBatch Row) (what : String) :
    List NormalizedSortKey → Except PipelineError (List NormalizedSortKey)
  | [] => .ok []
  | key :: rest =>
    match batch.columnByName key.column with
    | some _ => (sorter.sortCols batch what rest).map (key :: ·)
    | none =>
      match sorter.onMissingColumn with
      | .error => .error (missing what key.column)
      | .skip => sorter.sortCols batch what rest

def leadKey (column : String) : NormalizedSortKey := ⟨column, ⟨false, false⟩⟩

def sortWithExtraLeadColumn (sorter : BatchSorter) (arrow : Arrow Row) (batch : RecordBatch Row) (signal : SignalKind)
    (leadColumn : Option String) : Except PipelineError (RecordBatch Row) :=
  if batch.rows.length ≤ 1 then .ok batch
  else do
    let lead ← sorter.sortCols batch "lead sort" (leadColumn.toList.map leadKey)
    let others ← sorter.sortCols batch "sort" (sorter.keys signal)
    match lead ++ others with
    | [] => .ok batch
    | first :: rest => do
      let indices ← (arrow.lexsortToIndices (first :: rest) batch.rows).mapError .arrow
      (arrow.takeRows indices batch.rows).mapError .arrow
      return { batch with rows := indices.filterMap fun index => batch.rows[index]? }

end BatchSorter

/-- Arrow's sort: every row number once, and the rows of one key of the first column together. -/
structure Arrow.Sorts {Row : Type} (arrow : Arrow Row) : Prop where
  permutes : ∀ columns rows indices, arrow.lexsortToIndices columns rows = .ok indices →
    indices.Perm (List.range rows.length)
  groups : ∀ first rest rows indices, arrow.lexsortToIndices (first :: rest) rows = .ok indices →
    Foundation.Grouped ((indices.filterMap fun index => rows[index]?).map (arrow.text first.column))

/-- Sorting by a lead column that the batch has reorders the rows so that equal keys stand together. -/
theorem BatchSorter.sort_lead {Row : Type} {arrow : Arrow Row} (sorts : arrow.Sorts) {sorter : BatchSorter}
    {batch sorted : RecordBatch Row} {signal : SignalKind} {column : String} {type : DataType}
    (present : batch.columnByName column = some type)
    (done : sorter.sortWithExtraLeadColumn arrow batch signal (some column) = .ok sorted) :
    sorted.schema = batch.schema ∧ sorted.rows.Perm batch.rows ∧
      Foundation.Grouped (sorted.rows.map (arrow.text column)) := by
  rw [sortWithExtraLeadColumn] at done
  split at done
  · rename_i short
    cases done
    exact ⟨rfl, .refl _, Foundation.grouped_of_length_le_one (by rwa [List.length_map])⟩
  · obtain ⟨lead, first, done⟩ := Foundation.bind_ok.mp done
    obtain ⟨others, _, done⟩ := Foundation.bind_ok.mp done
    have single : lead = [leadKey column] := by
      simp only [Option.toList_some, List.map_cons, List.map_nil, sortCols, leadKey, present] at first
      exact (Except.ok.inj first).symm
    rw [single, List.singleton_append] at done
    obtain ⟨indices, lexsorted, done⟩ := Foundation.bind_ok.mp done
    obtain ⟨_, _, done⟩ := Foundation.bind_ok.mp done
    rw [Foundation.mapError_ok] at lexsorted
    cases done
    refine ⟨rfl, ?_, sorts.groups _ _ _ _ lexsorted⟩
    have moved := (sorts.permutes _ _ _ lexsorted).filterMap fun index => batch.rows[index]?
    rwa [Foundation.filterMap_range_getElem?] at moved

end OtelDatalake.Core
