import Mathlib.Data.List.Sort
import Mathlib.Data.String.Basic
import Mathlib.Order.WithBot
import OtelDatalake.Core.Sort
import OtelDatalake.Kafka.Sink

open OtelDatalake.Foundation OtelDatalake.Core
open OtelDatalake.Buffer (SignalKind)

namespace OtelDatalake.Kafka

inductive SerializationFormat where
  | ipc
  | json
  deriving DecidableEq, Repr

section Slices

variable {Row : Type} (arrow : Arrow Row)

/-- The loop over the rows from `i` on; it ends with the finished slices, the start of the open one and its key. -/
def scanKeys (batch : RecordBatch Row) (getKey : Nat → Option String) :
    (remaining i start : Nat) → (currentVal : Option String) → (slices : List (Option String × RecordBatch Row)) →
      List (Option String × RecordBatch Row) × Nat × Option String
  | 0, _, start, currentVal, slices => (slices, start, currentVal)
  | remaining + 1, i, start, currentVal, slices =>
    if getKey i ≠ currentVal then
      scanKeys batch getKey remaining (i + 1) i (getKey i) (slices ++ [(currentVal, batch.slice start (i - start))])
    else scanKeys batch getKey remaining (i + 1) start currentVal slices

def extractPartitionSlices (batch : RecordBatch Row) (keyColumn : String) :
    Except PipelineError (List (Option String × RecordBatch Row)) :=
  match batch.columnByName keyColumn with
  | none => .error (.internal ("Missing partition key column '" ++ keyColumn ++ "'").toList)
  | some .utf8 =>
    let numRows := batch.rows.length
    if numRows = 0 then .ok []
    else
      let getKey := fun i => batch.rows[i]?.bind (arrow.text keyColumn)
      let (slices, start, currentVal) := scanKeys batch getKey (numRows - 1) 1 0 (getKey 0) []
      .ok (slices ++ [(currentVal, batch.slice start (numRows - start))])
  | some _ => .error (.internal ("Partition key column '" ++ keyColumn ++ "' must be Utf8").toList)

def serializeRecordBatch (write : SerializationFormat → RecordBatch Row → Except String (List UInt8))
    (format : SerializationFormat) (batch : RecordBatch Row) : Except PipelineError (List UInt8) :=
  (write format batch).mapError fun e => .internal e.toList

def prepareSlice (write : SerializationFormat → RecordBatch Row → Except String (List UInt8))
    (format : SerializationFormat) (slice : Option String × RecordBatch Row) : Except PipelineError PreparedSlice :=
  (serializeRecordBatch write format slice.2).map fun payload => { partitionKey := slice.1, payload := payload }

def prepareKafkaSlices (write : SerializationFormat → RecordBatch Row → Except String (List UInt8))
    (batch : RecordBatch Row) (signal : SignalKind) (sorter : BatchSorter) (partitionKey : Option String)
    (format : SerializationFormat) : Except PipelineError (List PreparedSlice) :=
  if batch.rows.length = 0 then .ok []
  else do
    let sortedBatch ← sorter.sortWithExtraLeadColumn arrow batch signal partitionKey
    let rawSlices ←
      match partitionKey with
      | some keyCol => extractPartitionSlices arrow sortedBatch keyCol
      | none => .ok [(none, sortedBatch)]
    rawSlices.mapM (prepareSlice write format)

variable {arrow}

/-- The slices so far are the runs of the rows before `start`, and the rows from there up to `i` belong to one open run
    of a new key. -/
structure Scanned (key : Row → Option String) (batch : RecordBatch Row) (i start : Nat) (currentVal : Option String)
    (slices : List (Option String × RecordBatch Row)) : Prop where
  started : start < i
  bound : i ≤ batch.rows.length
  labelled : LabelledParts key (batch.rows.take start) (slices.map fun slice => (slice.1, slice.2.rows))
  schemas : ∀ slice ∈ slices, slice.2.schema = batch.schema
  current : ∀ row ∈ slice start (i - start) batch.rows, key row = currentVal
  new : ∀ row ∈ batch.rows.take start, key row ≠ currentVal

namespace Scanned

variable {key : Row → Option String} {batch : RecordBatch Row} {i start : Nat} {currentVal : Option String}
  {slices : List (Option String × RecordBatch Row)}

theorem split (scanned : Scanned key batch i start currentVal slices) :
    batch.rows.take i = batch.rows.take start ++ slice start (i - start) batch.rows := by
  have between := List.take_append_drop start (batch.rows.take i)
  rw [List.take_take, Nat.min_eq_left scanned.started.le, List.drop_take] at between
  exact between.symm

theorem open_ne_nil (scanned : Scanned key batch i start currentVal slices) :
    slice start (i - start) batch.rows ≠ [] := by
  have started := scanned.started
  have bound := scanned.bound
  apply List.ne_nil_of_length_pos
  rw [slice, List.length_take, List.length_drop]
  omega

theorem close (scanned : Scanned key batch i start currentVal slices) :
    LabelledParts key (batch.rows.take i)
        ((slices ++ [(currentVal, batch.slice start (i - start))]).map fun slice => (slice.1, slice.2.rows)) ∧
      ∀ slice ∈ slices ++ [(currentVal, batch.slice start (i - start))], slice.2.schema = batch.schema := by
  constructor
  · rw [List.map_append, scanned.split]
    exact scanned.labelled.push scanned.open_ne_nil scanned.current scanned.new
  · intro slice found
    rcases List.mem_append.mp found with earlier | last
    · exact scanned.schemas slice earlier
    · rw [List.mem_singleton.mp last]
      rfl

theorem advance (scanned : Scanned key batch i start currentVal slices) {row : Row} (read : batch.rows[i]? = some row)
    (same : key row = currentVal) : Scanned key batch (i + 1) start currentVal slices where
  started := Nat.lt_succ_of_lt scanned.started
  bound := (List.getElem?_eq_some_iff.mp read).1
  labelled := scanned.labelled
  schemas := scanned.schemas
  current := by
    have longer : slice start (i + 1 - start) batch.rows = slice start (i - start) batch.rows ++ [row] := by
      rw [slice, Nat.succ_sub scanned.started.le, List.take_add_one, List.getElem?_drop,
        Nat.add_sub_cancel' scanned.started.le, read]
      rfl
    rw [longer]
    intro other found
    rcases List.mem_append.mp found with earlier | last
    · exact scanned.current other earlier
    · rw [List.mem_singleton.mp last]
      exact same
  new := scanned.new

theorem turn (scanned : Scanned key batch i start currentVal slices) (grouped : Grouped (batch.rows.map key)) {row : Row}
    (read : batch.rows[i]? = some row) (different : key row ≠ currentVal) :
    Scanned key batch (i + 1) i (key row) (slices ++ [(currentVal, batch.slice start (i - start))]) where
  started := Nat.lt_succ_self i
  bound := (List.getElem?_eq_some_iff.mp read).1
  labelled := scanned.close.1
  schemas := scanned.close.2
  current := by
    have one : slice i (i + 1 - i) batch.rows = [row] := by
      rw [slice, Nat.add_sub_cancel_left, List.take_one, List.head?_drop, read]
      rfl
    rw [one]
    intro other found
    rw [List.mem_singleton.mp found]
  new := by
    obtain ⟨front, last, ended⟩ := (List.eq_nil_or_concat _).resolve_left scanned.open_ne_nil
    have run : slice start (i - start) batch.rows = front ++ [last] := ended.trans List.concat_eq_append
    have lastKey : key last = currentVal := by
      apply scanned.current
      rw [run]
      exact List.mem_append_right front List.mem_cons_self
    have whole : batch.rows = batch.rows.take i ++ row :: batch.rows.drop (i + 1) := by
      obtain ⟨inside, at'⟩ := List.getElem?_eq_some_iff.mp read
      rw [← at', ← List.drop_eq_getElem_cons inside, List.take_append_drop]
    intro other found
    rw [scanned.split, run, ← List.append_assoc] at found
    rw [whole, scanned.split, run] at grouped
    simp only [List.map_append, List.map_cons, List.append_assoc, List.singleton_append, lastKey] at grouped
    rw [← List.append_assoc, ← List.map_append] at grouped
    have notBefore := grouped.not_mem_of_ne different
    intro same
    apply notBefore
    rw [← same, ← lastKey, ← List.map_singleton, ← List.map_append]
    exact List.mem_map_of_mem found

end Scanned

theorem scanKeys_scanned {key : Row → Option String} {batch : RecordBatch Row} (getKey : Nat → Option String)
    (grouped : Grouped (batch.rows.map key)) (reads : ∀ i row, batch.rows[i]? = some row → getKey i = key row)
    (remaining : Nat) {i start : Nat} {currentVal : Option String} {slices : List (Option String × RecordBatch Row)}
    (scanned : Scanned key batch i start currentVal slices) (rest : i + remaining = batch.rows.length) :
    let ended := scanKeys batch getKey remaining i start currentVal slices
    Scanned key batch batch.rows.length ended.2.1 ended.2.2 ended.1 := by
  induction remaining generalizing i start currentVal slices with
  | zero =>
    rw [← rest]
    exact scanned
  | succ remaining ih =>
    have read : batch.rows[i]? = some (batch.rows[i]) := List.getElem?_eq_getElem (by omega)
    have seen := reads i _ read
    rw [scanKeys]
    split
    · rename_i different
      rw [seen] at different ⊢
      exact ih (scanned.turn grouped read different) (by omega)
    · rename_i same
      rw [seen, ne_eq, not_not] at same
      exact ih (scanned.advance read same) (by omega)

theorem extractPartitionSlices_labelled {batch : RecordBatch Row} {keyColumn : String}
    (typed : batch.columnByName keyColumn = some .utf8) (grouped : Grouped (batch.rows.map (arrow.text keyColumn))) :
    ∃ slices, extractPartitionSlices arrow batch keyColumn = .ok slices ∧
      LabelledParts (arrow.text keyColumn) batch.rows (slices.map fun slice => (slice.1, slice.2.rows)) ∧
      ∀ slice ∈ slices, slice.2.schema = batch.schema := by
  rw [extractPartitionSlices, typed]
  dsimp only
  split
  · rename_i empty
    refine ⟨[], rfl, ?_, fun _ found => absurd found List.not_mem_nil⟩
    rw [List.length_eq_zero_iff.mp empty]
    exact .nil
  · rename_i some
    obtain ⟨row, rest, split⟩ := List.exists_cons_of_length_pos (Nat.pos_of_ne_zero some)
    have seen : batch.rows[0]?.bind (arrow.text keyColumn) = arrow.text keyColumn row := by rw [split]; rfl
    have begun : Scanned (arrow.text keyColumn) batch 1 0 (arrow.text keyColumn row) [] := by
      refine ⟨Nat.zero_lt_one, Nat.pos_of_ne_zero some, ?_, fun _ found => absurd found List.not_mem_nil, ?_, ?_⟩
      · exact .nil
      · intro other found
        rw [split] at found
        rw [List.mem_singleton.mp found]
      · exact fun _ found => absurd found List.not_mem_nil
    have ended := scanKeys_scanned (fun i => batch.rows[i]?.bind (arrow.text keyColumn)) grouped
      (fun i row read => by rw [read]; rfl) (batch.rows.length - 1) begun (by omega)
    have closed := ended.close
    rw [List.take_length] at closed
    rw [← seen] at closed
    exact ⟨_, rfl, closed⟩

structure KeyedSlices (arrow : Arrow Row) (write : SerializationFormat → RecordBatch Row → Except String (List UInt8))
    (format : SerializationFormat) (keyColumn : String) (sortedBatch : RecordBatch Row)
    (parts : List (Option String × RecordBatch Row)) (slices : List PreparedSlice) : Prop where
  /-- Each slice has the label and the serialization of its part of the batch. -/
  written : List.Forall₂ (fun part slice => slice.partitionKey = part.1 ∧
    serializeRecordBatch write format part.2 = .ok slice.payload) parts slices
  concatenated : (parts.flatMap fun part => part.2.rows) = sortedBatch.rows
  single : ∀ part ∈ parts, part.2.schema = sortedBatch.schema ∧ part.2.rows ≠ [] ∧
    ∀ row ∈ part.2.rows, arrow.text keyColumn row = part.1
  distinct : (slices.map PreparedSlice.partitionKey).Nodup
  complete : ∀ key, key ∈ slices.map PreparedSlice.partitionKey ↔
    ∃ row ∈ sortedBatch.rows, arrow.text keyColumn row = key

/-- The slices of a batch are the sorted batch, cut so that each key has exactly one slice, which is labelled by it. -/
theorem prepareKafkaSlices_partition (sorts : arrow.Sorts)
    {write : SerializationFormat → RecordBatch Row → Except String (List UInt8)} {batch : RecordBatch Row}
    {signal : SignalKind} {sorter : BatchSorter} {keyColumn : String} {format : SerializationFormat}
    {slices : List PreparedSlice} (typed : batch.columnByName keyColumn = some .utf8) (some : batch.rows ≠ [])
    (prepared : prepareKafkaSlices arrow write batch signal sorter (.some keyColumn) format = .ok slices) :
    ∃ sortedBatch parts, sorter.sortWithExtraLeadColumn arrow batch signal (.some keyColumn) = .ok sortedBatch ∧
      sortedBatch.rows.Perm batch.rows ∧ KeyedSlices arrow write format keyColumn sortedBatch parts slices := by
  rw [prepareKafkaSlices, if_neg (mt List.length_eq_zero_iff.mp some)] at prepared
  obtain ⟨sortedBatch, sorted, prepared⟩ := bind_ok.mp prepared
  obtain ⟨rawSlices, extracted, prepared⟩ := bind_ok.mp prepared
  obtain ⟨schema, perm, grouped⟩ := BatchSorter.sort_lead sorts typed sorted
  have typedSorted : sortedBatch.columnByName keyColumn = .some .utf8 := by
    rw [← typed, RecordBatch.columnByName, RecordBatch.columnByName, schema]
  obtain ⟨parts, sliced, labelled, schemas⟩ := extractPartitionSlices_labelled typedSorted grouped
  have same : rawSlices = parts := Except.ok.inj (extracted.symm.trans sliced)
  have written : List.Forall₂ (fun part slice => slice.partitionKey = part.1 ∧
      serializeRecordBatch write format part.2 = .ok slice.payload) parts slices := by
    rw [same] at prepared
    refine (mapM_ok prepared).imp fun part slice made => ?_
    cases payload : serializeRecordBatch write format part.2 with
    | error error => simp [prepareSlice, payload, Except.map] at made
    | ok bytes =>
      rw [prepareSlice, payload] at made
      cases made
      exact ⟨rfl, rfl⟩
  have labels : slices.map PreparedSlice.partitionKey =
      (parts.map fun part => (part.1, part.2.rows)).map Prod.fst := by
    rw [List.map_map, eq_comm, ← List.forall₂_eq_eq_eq, List.forall₂_map_left_iff, List.forall₂_map_right_iff]
    exact written.imp fun _ _ related => related.1.symm
  refine ⟨sortedBatch, parts, sorted, perm, written, ?_, ?_, ?_, ?_⟩
  · have whole := labelled.whole
    rwa [List.flatMap_map] at whole
  · intro part found
    have inside := List.mem_map_of_mem (f := fun part => (part.1, part.2.rows)) found
    exact ⟨schemas part found, labelled.nonempty _ inside, labelled.single _ inside⟩
  · rw [labels]
    exact labelled.distinct
  · intro key
    rw [labels]
    exact labelled.label_mem_iff key

end Slices

section Services

/-- The key of a row of a key and a number; a null is the greatest one. -/
def serviceAt (rows : List (Option String × Nat)) (index : Nat) : WithTop String := rows[index]?.bind Prod.fst

def sortedServices (rows : List (Option String × Nat)) : List Nat :=
  (List.range rows.length).insertionSort fun first second => serviceAt rows first ≤ serviceAt rows second

theorem map_filterMap_getElem? {α β : Type} {values : List α} {indices : List Nat}
    (inside : ∀ index ∈ indices, index < values.length) (f : α → Option β) :
    (indices.filterMap fun index => values[index]?).map f = indices.map fun index => values[index]?.bind f := by
  induction indices with
  | nil => rfl
  | cons index rest ih =>
    rw [List.forall_mem_cons] at inside
    rw [List.filterMap_cons, List.getElem?_eq_getElem inside.1, List.map_cons, List.map_cons, ih inside.2,
      List.getElem?_eq_getElem inside.1]
    rfl

def serviceArrow : Arrow (Option String × Nat) where
  text column row := if column = "service_name" then row.1 else none
  timestamp _ _ := none
  debugType _ := ""
  lexsortToIndices columns rows :=
    match columns with
    | [] => .ok (List.range rows.length)
    | first :: _ => .ok (if first.column = "service_name" then sortedServices rows else List.range rows.length)
  takeRows _ _ := .ok ()

theorem serviceArrow_sorts : serviceArrow.Sorts where
  permutes columns rows indices sorted := by
    cases columns with
    | nil =>
      cases sorted
      exact .refl _
    | cons first rest =>
      rw [← Except.ok.inj sorted]
      split
      · exact List.perm_insertionSort _ _
      · exact .refl _
  groups first rest rows indices sorted := by
    rw [← Except.ok.inj sorted]
    by_cases named : first.column = "service_name"
    · rw [if_pos named]
      have read : ((sortedServices rows).filterMap fun index => rows[index]?).map (serviceArrow.text first.column) =
          (sortedServices rows).map (serviceAt rows) := by
        have inside : ∀ index ∈ sortedServices rows, index < rows.length :=
          fun index found => List.mem_range.mp ((List.perm_insertionSort _ _).mem_iff.mp found)
        have text : serviceArrow.text first.column = Prod.fst := funext fun _ => if_pos named
        rw [text]
        exact map_filterMap_getElem? inside Prod.fst
      rw [read]
      have sorted : ((sortedServices rows).map (serviceAt rows)).Pairwise (· ≤ ·) :=
        List.pairwise_map.mpr (List.pairwise_insertionSort _ _)
      have grouped := grouped_of_pairwise sorted
      exact grouped
    · rintro before key middle after split other found
      have nulls : ∀ value ∈ before ++ key :: (middle ++ key :: after), value = none := by
        intro value member
        rw [← split] at member
        obtain ⟨row, _, rfl⟩ := List.mem_map.mp member
        exact if_neg named
      rw [nulls other (by simp [found]), nulls key (by simp)]

/-- A batch with a null key, an empty one and rows of one key apart from each other. -/
def servicesBatch : RecordBatch (Option String × Nat) :=
  ⟨[("timestamp", .other "Int64"), ("service_name", .utf8)],
    [(some "svc-b", 1), (none, 2), (some "", 3), (some "svc-b", 4), (some "svc-a", 5)]⟩

def writeNumbers (_ : SerializationFormat) (batch : RecordBatch (Option String × Nat)) : Except String (List UInt8) :=
  .ok (batch.rows.map fun row => UInt8.ofNat row.2)

/-- Four keys have one slice each; the null key and the empty one stay apart. -/
theorem prepareKafkaSlices_partition_services :
    ∃ sortedBatch parts,
      BatchSorter.sortWithExtraLeadColumn ⟨.skip, fun _ => []⟩ serviceArrow servicesBatch .logs (some "service_name") =
        .ok sortedBatch ∧
      sortedBatch.rows.Perm servicesBatch.rows ∧
      KeyedSlices serviceArrow writeNumbers .json "service_name" sortedBatch parts
        [⟨some "", [3]⟩, ⟨some "svc-a", [5]⟩, ⟨some "svc-b", [1, 4]⟩, ⟨none, [2]⟩] :=
  prepareKafkaSlices_partition serviceArrow_sorts (show servicesBatch.columnByName "service_name" = some .utf8 by decide)
    (by decide) (by decide)

end Services

end OtelDatalake.Kafka
