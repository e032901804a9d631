import OtelDatalake.Elasticsearch.BulkPayload
import OtelDatalake.Elasticsearch.ChunkOrder

open OtelDatalake.Foundation

namespace OtelDatalake.Elasticsearch

/-- The sub-payload of any ascending rows of a chunk is their renderings, in order. -/
def Extracts (documents : List (List UInt8)) (chunk : BulkChunk) : Prop :=
  ∀ indices : List Nat, indices.Pairwise (· < ·) → (∀ idx ∈ indices, idx < chunk.rowCount) →
    extractSubPayload chunk.payload indices =
      .ok (indices.map fun idx => documents.getD (chunk.startRow + idx) []).flatten

/-- No column that has a value in a row of the chunk has a line break in its name. -/
def NamesSingleLine (batch : Table) (chunk : BulkChunk) : Prop :=
  ∀ row ∈ chunk.rows, ∀ cells, batch.rows[row]? = some cells → ∀ name ∈ writtenNames (batch.fields.zip cells),
    newline ∉ name

def IsBroken (document : List UInt8) : Prop :=
  ∃ action before after, document = action ++ newline :: (before ++ newline :: after) ∧ newline ∉ action ∧
    newline ∉ before ∧ isBlank (action ++ [newline]) = false ∧ isBlank (before ++ [newline]) = false ∧ 2 ≤ after.length

theorem serializeRow_isBroken {formatters : Formatters} (plain : formatters.SingleLine) {unpackAttributes : Bool}
    {fields : List (List UInt8)} {row : List Cell} {rowBuf : List UInt8}
    (serialized : serializeRow formatters unpackAttributes fields row = .ok rowBuf)
    (named : ∃ name ∈ writtenNames (fields.zip row), newline ∈ name) : IsBroken rowBuf := by
  obtain ⟨body, breaks, rfl⟩ := serializeRow_lines plain serialized
  obtain ⟨before, after, rfl, first⟩ := List.eq_append_cons_of_mem (breaks.mpr named)
  refine ⟨ascii "\x7b\"create\":\x7b\x7d\x7d", [123] ++ before, after ++ [125, newline], ?_, by decide, ?_, by decide, ?_,
    by simp⟩
  · have action : bulkAction = ascii "\x7b\"create\":\x7b\x7d\x7d" ++ [newline] := by decide
    rw [action]
    simp
  · rw [List.mem_append, not_or]
    exact ⟨by decide, first⟩
  · exact isBlank_false_of_mem 123 (by simp) (by decide)

theorem scanLines_append {documents : List (List UInt8)} (valid : ∀ document ∈ documents, IsDocument document)
    (rest : List UInt8) (lineStart : Nat) :
    ∃ front, front.length = 2 * documents.length ∧
      scanLines (documents.flatten ++ rest) lineStart [] = front ++
        scanLines rest (lineStart + documents.flatten.length) [] := by
  induction documents generalizing lineStart with
  | nil => exact ⟨[], rfl, rfl⟩
  | cons document others ih =>
    rw [List.forall_mem_cons] at valid
    obtain ⟨middle, scanned⟩ := scanLines_document valid.1 (others.flatten ++ rest) lineStart
    obtain ⟨front, paired, later⟩ := ih valid.2 (lineStart + document.length)
    refine ⟨(lineStart, middle) :: (middle, lineStart + document.length) :: front, ?_, ?_⟩
    · rw [List.length_cons, List.length_cons, List.length_cons, paired]
      omega
    · rw [List.flatten_cons, List.append_assoc, scanned, later, List.length_append, Nat.add_assoc]
      rfl

theorem selectItem_broken {documents : List (List UInt8)} (valid : ∀ document ∈ documents, IsDocument document)
    {document : List UInt8} (broken : IsBroken document) (rest : List UInt8) :
    selectItem (documents.flatten ++ (document ++ rest)) (lineRanges (documents.flatten ++ (document ++ rest)))
      documents.length ≠ .ok document := by
  obtain ⟨action, before, after, rfl, actionLine, beforeLine, actionText, beforeText, longer⟩ := broken
  set payload := documents.flatten ++ (action ++ newline :: (before ++ newline :: after) ++ rest)
  set offset := documents.flatten.length
  obtain ⟨front, paired, scanned⟩ := scanLines_append valid
    (action ++ newline :: (before ++ newline :: after) ++ rest) 0
  have first := scanLines_line action (before ++ newline :: (after ++ rest)) offset [] actionLine actionText
  have second := scanLines_line before (after ++ rest) (offset + action.length + 1) [] beforeLine beforeText
  have ranges : lineRanges payload = front ++ (offset, offset + action.length + 1) ::
      (offset + action.length + 1, offset + action.length + 1 + before.length + 1) ::
        scanLines (after ++ rest) (offset + action.length + 1 + before.length + 1) [] := by
    rw [lineRanges, scanned, Nat.zero_add]
    simp only [List.nil_append] at first second
    simp only [List.append_assoc, List.cons_append]
    rw [first, second]
  have inside : ¬(lineRanges payload).length / 2 ≤ documents.length := by
    rw [ranges, List.length_append, List.length_cons, List.length_cons]
    omega
  have actionRange : (lineRanges payload)[2 * documents.length]? = some (offset, offset + action.length + 1) := by
    rw [ranges, ← paired]
    simp
  have beforeRange : (lineRanges payload)[2 * documents.length + 1]? =
      some (offset + action.length + 1, offset + action.length + 1 + before.length + 1) := by
    rw [ranges, ← paired]
    simp
  rw [selectItem, if_neg inside, actionRange, beforeRange]
  intro same
  have lengths := congrArg List.length (Except.ok.inj same)
  have taken : (slice offset (offset + action.length + 1 + before.length + 1 - offset) payload).length ≤
      action.length + 1 + before.length + 1 := by
    rw [slice, List.length_take]
    omega
  split at lengths
  · simp only [List.length_append, List.length_cons] at lengths
    omega
  · simp only [List.length_append, List.length_cons, List.length_nil] at lengths
    omega

theorem extractSubPayload_single {payload document : List UInt8} {idx : Nat}
    (extracted : extractSubPayload payload [idx] = .ok document) :
    selectItem payload (lineRanges payload) idx = .ok document := by
  rw [extractSubPayload, if_neg (List.cons_ne_nil idx [])] at extracted
  dsimp only at extracted
  split at extracted
  · cases extracted
  · rw [List.mapM_cons, List.mapM_nil] at extracted
    cases selected : selectItem payload (lineRanges payload) idx with
    | error error =>
      rw [selected] at extracted
      cases extracted
    | ok item =>
      rw [selected] at extracted
      have same : [item].flatten = document := Except.ok.inj extracted
      rw [← same, List.flatten_singleton]

section Chunk

variable {formatters : Formatters} {unpackAttributes : Bool} {maxPayloadBytes : Nat} {batch : Table}
  {documents : List (List UInt8)} {chunks : List BulkChunk} {oversized : List (Nat × Nat)}

theorem Chunked.document (chunked : Chunked formatters unpackAttributes maxPayloadBytes batch documents chunks oversized)
    {chunk : BulkChunk} (member : chunk ∈ chunks) {idx : Nat} (inside : idx < chunk.rowCount) :
    ∃ cells document, batch.rows[chunk.startRow + idx]? = some cells ∧
      serializeRow formatters unpackAttributes batch.fields cells = .ok document ∧
      documents[chunk.startRow + idx]? = some document ∧
      (slice chunk.startRow chunk.rowCount documents)[idx]? = some document := by
  have bound := chunked.chunk_bound member
  have inDocuments : chunk.startRow + idx < documents.length := by omega
  have inRows : chunk.startRow + idx < batch.rows.length := chunked.serialized.length_eq ▸ inDocuments
  have found : documents[chunk.startRow + idx]? = some documents[chunk.startRow + idx] :=
    List.getElem?_eq_getElem inDocuments
  refine ⟨batch.rows[chunk.startRow + idx], documents[chunk.startRow + idx], List.getElem?_eq_getElem inRows,
    chunked.serialized.get inRows inDocuments, found, ?_⟩
  rw [slice, List.getElem?_take_of_lt inside, List.getElem?_drop, found]

theorem Chunked.extracts_of_names (plain : formatters.SingleLine)
    (chunked : Chunked formatters unpackAttributes maxPayloadBytes batch documents chunks oversized)
    {chunk : BulkChunk} (member : chunk ∈ chunks) (names : NamesSingleLine batch chunk) : Extracts documents chunk := by
  intro indices _ bounds
  have valid : ∀ document ∈ slice chunk.startRow chunk.rowCount documents, IsDocument document := by
    intro document listed
    obtain ⟨idx, inside, rfl⟩ := List.getElem_of_mem listed
    rw [chunked.chunk_length member] at inside
    obtain ⟨cells, document, row, serialized, _, here⟩ := chunked.document member inside
    rw [List.getElem?_eq_getElem (by rwa [chunked.chunk_length member]), Option.some.injEq] at here
    rw [here]
    have inChunk : chunk.startRow + idx ∈ chunk.rows := List.mem_range'_1.mpr ⟨by omega, by omega⟩
    exact serializeRow_isDocument plain serialized (names _ inChunk cells row)
  have inside : ∀ idx ∈ indices, idx < (slice chunk.startRow chunk.rowCount documents).length := by
    intro idx found
    rw [chunked.chunk_length member]
    exact bounds idx found
  rw [(chunked.chunk chunk member).2, extractSubPayload_documents valid inside]
  congr 2
  apply List.map_congr_left
  intro idx found
  obtain ⟨cells, document, _, _, there, here⟩ := chunked.document member (bounds idx found)
  rw [List.getD_eq_getElem?_getD, List.getD_eq_getElem?_getD, here, there]

theorem Chunked.names_of_extracts (plain : formatters.SingleLine)
    (chunked : Chunked formatters unpackAttributes maxPayloadBytes batch documents chunks oversized)
    {chunk : BulkChunk} (member : chunk ∈ chunks) (extracts : Extracts documents chunk) : NamesSingleLine batch chunk := by
  set parts := slice chunk.startRow chunk.rowCount documents
  have clean : ∀ idx < chunk.rowCount, ∀ cells, batch.rows[chunk.startRow + idx]? = some cells →
      ∀ name ∈ writtenNames (batch.fields.zip cells), newline ∉ name := by
    intro idx
    induction idx using Nat.strongRecOn with
    | ind idx ih =>
      intro inside cells row name written broken
      obtain ⟨others, document, found, serialized, there, here⟩ := chunked.document member inside
      obtain rfl : others = cells := Option.some.inj (found.symm.trans row)
      have short : idx < parts.length := by rwa [chunked.chunk_length member]
      have before : ∀ part ∈ parts.take idx, IsDocument part := by
        intro part listed
        obtain ⟨earlier, bound, rfl⟩ := List.getElem_of_mem listed
        rw [List.length_take] at bound
        have before : earlier < chunk.rowCount := by omega
        obtain ⟨fields, rendered, at', rendering, _, there⟩ := chunked.document member before
        obtain ⟨_, part⟩ := List.getElem?_eq_some_iff.mp there
        rw [List.getElem_take, part]
        exact serializeRow_isDocument plain rendering (ih earlier (by omega) (by omega) fields at')
      have payload : chunk.payload =
          (parts.take idx).flatten ++ (document ++ (parts.drop (idx + 1)).flatten) := by
        obtain ⟨inParts, same⟩ := List.getElem?_eq_some_iff.mp here
        rw [(chunked.chunk chunk member).2, ← List.flatten_cons, ← same, ← List.drop_eq_getElem_cons inParts,
          ← List.flatten_append, List.take_append_drop]
      have single := extracts [idx] (List.pairwise_singleton _ _) (by simpa using inside)
      rw [List.map_singleton, List.flatten_singleton, List.getD_eq_getElem?_getD, there, Option.getD_some,
        payload] at single
      have cut := selectItem_broken before (serializeRow_isBroken plain serialized ⟨name, written, broken⟩)
        (parts.drop (idx + 1)).flatten
      rw [List.length_take, Nat.min_eq_left short.le] at cut
      exact cut (extractSubPayload_single single)
  intro row listed cells found
  obtain ⟨low, high⟩ := List.mem_range'_1.mp listed
  refine clean (row - chunk.startRow) (by omega) cells ?_
  rwa [Nat.add_sub_cancel' low]

end Chunk

/-- The sub-payloads of a chunk are the renderings of its rows exactly if no column name that is written in it holds a
line break. -/
theorem extractSubPayload_renderings_iff {formatters : Formatters} (plain : formatters.SingleLine)
    {unpackAttributes : Bool} {maxPayloadBytes : Nat} {batch : Table} {chunks : List BulkChunk}
    {oversizedRows : List (Nat × Nat)}
    (serialized : serializeBatchChunksWithOversized formatters unpackAttributes maxPayloadBytes batch =
      .ok (chunks, oversizedRows)) :
    ∃ documents, List.Forall₂ (fun cells document =>
        serializeRow formatters unpackAttributes batch.fields cells = .ok document) batch.rows documents ∧
      ∀ chunk ∈ chunks, Extracts documents chunk ↔ NamesSingleLine batch chunk := by
  obtain ⟨documents, chunked⟩ := serializeBatchChunks_chunked plain serialized
  refine ⟨documents, chunked.serialized, fun chunk member => ⟨?_, ?_⟩⟩
  · exact chunked.names_of_extracts plain member
  · exact chunked.extracts_of_names plain member

theorem extractSubPayload_renderings_mixedRows :
    ∃ documents, List.Forall₂ (fun cells document =>
        serializeRow stringFormatters false mixedRows.fields cells = .ok document) mixedRows.rows documents ∧
      ∀ chunk ∈ [(⟨0, 2, ascii "\x7b\"create\":\x7b\x7d\x7d\n\x7b\"f\":\"x\"\x7d\n\x7b\"create\":\x7b\x7d\x7d\n\x7b\"f\":\"y\"\x7d\n"⟩ :
          BulkChunk), ⟨3, 1, ascii "\x7b\"create\":\x7b\x7d\x7d\n\x7b\"f\":\"z\"\x7d\n"⟩],
        Extracts documents chunk ↔ NamesSingleLine mixedRows chunk :=
  extractSubPayload_renderings_iff stringFormatters_singleLine
    (show serializeBatchChunksWithOversized stringFormatters false 48 mixedRows = .ok (_, [(2, 54)]) by decide)

def brokenName : Table := ⟨[ascii "a\nb"], [[.utf8 (ascii "x")]]⟩

/-- The chunk of one row, extracted as a whole, is refused for its odd number of lines. -/
theorem extractSubPayload_brokenName :
    ∃ payload, serializeBatchChunksWithOversized stringFormatters false 48 brokenName = .ok ([⟨0, 1, payload⟩], []) ∧
      serializeRow stringFormatters false brokenName.fields [.utf8 (ascii "x")] = .ok payload ∧
      extractSubPayload payload [0] = .error (.serialization
        "payload has an odd number of lines (3), expected pairs of action and document lines".toList) ∧
      ¬Extracts [payload] ⟨0, 1, payload⟩ := by
  refine ⟨ascii "\x7b\"create\":\x7b\x7d\x7d\n\x7b\"a\nb\":\"x\"\x7d\n", by decide, by decide, by decide, ?_⟩
  intro extracts
  have refused := extracts [0] (List.pairwise_singleton _ _) (by decide)
  exact absurd refused (by decide)

end OtelDatalake.Elasticsearch
