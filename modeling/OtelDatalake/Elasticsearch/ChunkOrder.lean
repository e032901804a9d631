import OtelDatalake.Elasticsearch.Serializer
import OtelDatalake.Foundation.Outcome

open OtelDatalake.Foundation

namespace OtelDatalake.Elasticsearch

def fits (maxPayloadBytes : Nat) (documents : List (List UInt8)) (row : Nat) : Bool :=
  (documents.getD row []).length ≤ maxPayloadBytes

def oversizedEntry (documents : List (List UInt8)) (row : Nat) : Nat × Nat := (row, (documents.getD row []).length)

/-- The state after the first `row` of the documents: the rows that fit are in the chunks in ascending order, the others
    among the oversized rows, and no chunk exceeds the limit. -/
structure InOrder (maxPayloadBytes : Nat) (documents : List (List UInt8)) (row : Nat) (state : ChunkState) : Prop where
  rows : state.chunks.flatMap BulkChunk.rows ++ List.range' state.chunkStartRow state.chunkRowCount =
    (List.range row).filter (fits maxPayloadBytes documents)
  oversized : state.oversizedRows =
    ((List.range row).filter fun row => !fits maxPayloadBytes documents row).map (oversizedEntry documents)
  bounded : ∀ chunk ∈ state.chunks, chunk.payload.length ≤ maxPayloadBytes
  current : state.currentChunk.length ≤ maxPayloadBytes

namespace InOrder

variable {maxPayloadBytes row : Nat} {documents : List (List UInt8)} {state : ChunkState}

theorem init : InOrder maxPayloadBytes documents 0 {} where
  rows := rfl
  oversized := rfl
  bounded _ found := absurd found List.not_mem_nil
  current := Nat.zero_le _

theorem pushChunk (inOrder : InOrder maxPayloadBytes documents row state) :
    InOrder maxPayloadBytes documents row state.pushChunk := by
  rw [ChunkState.pushChunk]
  split
  · exact inOrder
  · refine ⟨?_, inOrder.oversized, ?_, Nat.zero_le _⟩
    · rw [List.range'_zero, List.append_nil, List.flatMap_append, List.flatMap_singleton]
      exact inOrder.rows
    · intro chunk found
      rcases List.mem_append.mp found with earlier | last
      · exact inOrder.bounded chunk earlier
      · rw [List.mem_singleton.mp last]
        exact inOrder.current

theorem addOversized (inOrder : InOrder maxPayloadBytes documents row state) {document : List UInt8}
    (found : documents[row]? = some document) (large : maxPayloadBytes < document.length) :
    InOrder maxPayloadBytes documents (row + 1)
      { state with oversizedRows := state.oversizedRows ++ [(row, document.length)] } where
  rows := by
    have exceeds : fits maxPayloadBytes documents row = false := by
      simp [fits, List.getD, found, large]
    rw [List.range_succ, List.filter_append, List.filter_singleton, exceeds, inOrder.rows]
    simp
  oversized := by
    have exceeds : fits maxPayloadBytes documents row = false := by
      simp [fits, List.getD, found, large]
    rw [List.range_succ, List.filter_append, List.filter_singleton, exceeds, List.map_append, inOrder.oversized]
    simp [oversizedEntry, List.getD, found]
  bounded := inOrder.bounded
  current := inOrder.current

theorem addFitting (inOrder : InOrder maxPayloadBytes documents row state) {document : List UInt8}
    (found : documents[row]? = some document) (small : document.length ≤ maxPayloadBytes)
    (room : state.currentChunk.length + document.length ≤ maxPayloadBytes)
    (adjacent : 0 < state.chunkRowCount → state.chunkStartRow + state.chunkRowCount = row) :
    InOrder maxPayloadBytes documents (row + 1)
      { state with
        chunkStartRow := if state.chunkRowCount = 0 then row else state.chunkStartRow
        currentChunk := state.currentChunk ++ document
        chunkRowCount := state.chunkRowCount + 1 } := by
  have fitting : fits maxPayloadBytes documents row = true := by
    simp [fits, List.getD, found, small]
  constructor
  · rw [List.range_succ, List.filter_append, List.filter_singleton, fitting, ← inOrder.rows, List.append_assoc]
    congr 1
    by_cases none : state.chunkRowCount = 0
    · simp [none]
    · simp only [if_neg none]
      rw [List.range'_concat, Nat.one_mul, adjacent (Nat.pos_of_ne_zero none)]
      rfl
  · rw [List.range_succ, List.filter_append, List.filter_singleton, fitting, List.map_append]
    simpa using inOrder.oversized
  · exact inOrder.bounded
  · rw [List.length_append]
    exact room

theorem addRow (inOrder : InOrder maxPayloadBytes documents row state)
    (covers : Covers maxPayloadBytes documents row state) {document : List UInt8}
    (found : documents[row]? = some document) :
    InOrder maxPayloadBytes documents (row + 1) (state.addRow maxPayloadBytes row document) := by
  have pushed := inOrder.pushChunk
  obtain ⟨covered, none, empty⟩ := covers.pushChunk
  unfold ChunkState.addRow
  by_cases large : maxPayloadBytes < document.length
  · rw [if_pos large]
    exact pushed.addOversized found large
  · rw [if_neg large]
    by_cases full : maxPayloadBytes < state.currentChunk.length + document.length
    · simp only [if_pos full]
      refine pushed.addFitting found (Nat.not_lt.mp large) ?_ covered.adjacent
      rw [empty, List.length_nil, Nat.zero_add]
      exact Nat.not_lt.mp large
    · simp only [if_neg full]
      exact inOrder.addFitting found (Nat.not_lt.mp large) (Nat.not_lt.mp full) covers.adjacent

theorem addRows (rest : List (List UInt8)) (inOrder : InOrder maxPayloadBytes documents row state)
    (covers : Covers maxPayloadBytes documents row state) (remaining : documents.drop row = rest)
    (nonempty : ∀ document ∈ documents, document ≠ []) :
    InOrder maxPayloadBytes documents (row + rest.length) (state.addRows maxPayloadBytes row rest) := by
  induction rest generalizing row state with
  | nil => exact inOrder
  | cons document rest ih =>
    have found : documents[row]? = some document := by
      have head := congrArg List.head? remaining
      rwa [List.head?_drop] at head
    have following : documents.drop (row + 1) = rest := by
      rw [← List.drop_drop, remaining]
      rfl
    have covered := covers.addRow found (nonempty document (List.mem_of_getElem? found))
    have run := ih (inOrder.addRow covers found) covered following
    rwa [List.length_cons, Nat.add_comm rest.length 1, ← Nat.add_assoc]

end InOrder

/-- The chunks and the oversized rows of a batch: the rows that fit are those of the chunks, one after another, the rows that
    exceed the limit are the oversized ones, both in ascending order, and each chunk is the renderings of its rows. -/
structure PartitionsRows (maxPayloadBytes : Nat) (documents : List (List UInt8)) (chunks : List BulkChunk)
    (oversizedRows : List (Nat × Nat)) : Prop where
  covered : (chunks.flatMap BulkChunk.rows ++ oversizedRows.map Prod.fst).Perm (List.range documents.length)
  rows : chunks.flatMap BulkChunk.rows = (List.range documents.length).filter (fits maxPayloadBytes documents)
  oversized : oversizedRows =
    ((List.range documents.length).filter fun row => !fits maxPayloadBytes documents row).map (oversizedEntry documents)
  chunk : ∀ chunk ∈ chunks, 0 < chunk.rowCount ∧
    chunk.payload = (slice chunk.startRow chunk.rowCount documents).flatten ∧ chunk.payload.length ≤ maxPayloadBytes

/-- Chunking is a partition of the rows in their order. -/
theorem serializeBatchChunks_partitions {formatters : Formatters} {unpackAttributes : Bool} {maxPayloadBytes : Nat}
    {batch : Table} {chunks : List BulkChunk} {oversizedRows : List (Nat × Nat)}
    (serialized : serializeBatchChunksWithOversized formatters unpackAttributes maxPayloadBytes batch =
      .ok (chunks, oversizedRows)) :
    ∃ documents, List.Forall₂ (fun cells document =>
        serializeRow formatters unpackAttributes batch.fields cells = .ok document) batch.rows documents ∧
      PartitionsRows maxPayloadBytes documents chunks oversizedRows := by
  unfold serializeBatchChunksWithOversized at serialized
  by_cases noRows : batch.rows = []
  · simp only [noRows, if_true, pure, Except.pure, bind, Except.bind, Except.ok.injEq, Prod.mk.injEq] at serialized
    obtain ⟨rfl, rfl⟩ := serialized
    exact ⟨[], by simp [noRows], .refl _, rfl, rfl, fun _ found => absurd found List.not_mem_nil⟩
  · rw [if_neg noRows] at serialized
    obtain ⟨state, chunked, rest⟩ := bind_ok.mp serialized
    obtain ⟨rfl, rfl⟩ := Prod.mk.inj (Except.ok.inj rest)
    obtain ⟨documents, each, rfl⟩ := chunkRows_ok chunked
    have nonempty : ∀ document ∈ documents, document ≠ [] := by
      intro document member
      obtain ⟨position, bound, rfl⟩ := List.getElem_of_mem member
      obtain ⟨body, _, rendered⟩ := serializeRow_eq_ok (each.get (each.length_eq ▸ bound) bound)
      rw [List.get_eq_getElem] at rendered
      rw [rendered]
      simp
    have covers : Covers maxPayloadBytes documents (0 + documents.length) _ :=
      Covers.init.addRows documents rfl nonempty
    have inOrder : InOrder maxPayloadBytes documents (0 + documents.length) _ :=
      InOrder.init.addRows documents Covers.init rfl nonempty
    obtain ⟨covered, none, _⟩ := covers.pushChunk
    have pushed := inOrder.pushChunk
    have rows := pushed.rows
    have all := covered.rows
    rw [none, List.range'_zero, List.append_nil, Nat.zero_add] at rows all
    rw [Nat.zero_add] at pushed
    refine ⟨documents, each, all, rows, pushed.oversized, fun chunk found => ?_⟩
    exact ⟨(covered.chunk chunk found).1, (covered.chunk chunk found).2, pushed.bounded chunk found⟩

def mixedRows : Table :=
  ⟨[ascii "f"], [[.utf8 (ascii "x")], [.utf8 (ascii "y")], [.utf8 (ascii "an oversized value of the field")],
    [.utf8 (ascii "z")]]⟩

theorem serializeBatchChunks_partitions_mixedRows :
    ∃ documents, List.Forall₂ (fun cells document =>
        serializeRow stringFormatters false mixedRows.fields cells = .ok document) mixedRows.rows documents ∧
      PartitionsRows 48 documents
        [⟨0, 2, ascii "\x7b\"create\":\x7b\x7d\x7d\n\x7b\"f\":\"x\"\x7d\n\x7b\"create\":\x7b\x7d\x7d\n\x7b\"f\":\"y\"\x7d\n"⟩,
          ⟨3, 1, ascii "\x7b\"create\":\x7b\x7d\x7d\n\x7b\"f\":\"z\"\x7d\n"⟩]
        [(2, 54)] :=
  serializeBatchChunks_partitions (show serializeBatchChunksWithOversized stringFormatters false 48 mixedRows = _ by decide)

end OtelDatalake.Elasticsearch
