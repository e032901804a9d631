import Mathlib.Data.List.Nodup
import OtelDatalake.Elasticsearch.DocumentText
import OtelDatalake.Elasticsearch.SubPayload

open OtelDatalake.Foundation

namespace OtelDatalake.Elasticsearch

/-- What is written for a cell: its renamed name as it is, and a JSON text for its value. -/
def Renders (formatters : Formatters) (normalise : Json → Json) (unpackAttributes : Bool) (entry : List UInt8 × Cell)
    (part : Json.Written × Json) : Prop :=
  utf8 part.1.name = outputName entry.1 ∧ Json.parse part.1.text = some part.2 ∧
    Carries formatters normalise (unpackAttributes && isAttrField entry.1) entry.2 part.2

def CellsText (cells : List (List UInt8 × Cell)) : Prop :=
  ∀ entry ∈ cells, (∃ text, entry.1 = utf8 text) ∧ ∀ value, entry.2 = .utf8 value → ∃ text, value = utf8 text

/-- No column that has a value in the row needs an escape in its name. -/
def NamesPlain (cells : List (List UInt8 × Cell)) : Prop := ∀ name ∈ writtenNames cells, PlainName name

/-- No two columns that have a value in the row are written under one name. -/
def NamesDistinct (cells : List (List UInt8 × Cell)) : Prop := ((writtenNames cells).map outputName).Nodup

def membersText : (firstField : Bool) → List Json.Written → List Char
  | true, member :: rest => member.render ++ Json.writtenTail rest
  | _, members => Json.writtenTail members

theorem writtenObject_membersText (members : List Json.Written) :
    Json.writtenObject members = '\x7b' :: membersText true members := by
  cases members <;> rfl

section Row

variable {formatters : Formatters} {normalise : Json → Json}

theorem writeFields_text (spells : formatters.SpellsJson normalise) {unpackAttributes firstField : Bool}
    {cells : List (List UInt8 × Cell)} (isText : CellsText cells) {body : List UInt8}
    (written : writeFields formatters unpackAttributes firstField cells = .ok body) :
    ∃ parts, List.Forall₂ (Renders formatters normalise unpackAttributes)
      (cells.filter fun entry => entry.2 ≠ .null) parts ∧
      body ++ [125] = utf8 (membersText firstField (parts.map Prod.fst)) := by
  induction cells generalizing firstField body with
  | nil =>
    cases written
    refine ⟨[], .nil, ?_⟩
    cases firstField <;> rfl
  | cons entry rest ih =>
    obtain ⟨name, cell⟩ := entry
    obtain ⟨⟨named, stringText⟩, others⟩ := List.forall_mem_cons.mp isText
    by_cases null : cell = .null
    · rw [writeFields, if_pos null] at written
      obtain ⟨parts, each, same⟩ := ih others written
      exact ⟨parts, by simpa [null] using each, same⟩
    · obtain ⟨value, tail, first, following, rfl⟩ := writeFields_cons null written
      obtain ⟨parts, each, same⟩ := ih others following
      obtain ⟨label, labelled⟩ := outputName_utf8 named
      obtain ⟨text, json, rfl, parsed, carried⟩ := writeValue_writes spells stringText first
      refine ⟨(⟨label, text⟩, json) :: parts, ?_, ?_⟩
      · rw [List.filter_cons_of_pos (by simpa using null)]
        exact .cons ⟨labelled.symm, parsed, carried⟩ each
      · have tailText : tail ++ [125] = utf8 (Json.writtenTail (parts.map Prod.fst)) := by
          rw [same]
          cases parts <;> rfl
        have member : utf8 (Json.Written.render ⟨label, text⟩) = [34] ++ outputName name ++ [34, 58] ++ utf8 text := by
          rw [Json.Written.render, utf8_cons, utf8_append, utf8_cons, utf8_cons, labelled]
          simp [String.utf8EncodeChar]
        have whole : utf8 (Json.Written.render ⟨label, text⟩ ++ Json.writtenTail (parts.map Prod.fst)) =
            [34] ++ outputName name ++ [34, 58] ++ utf8 text ++ (tail ++ [125]) := by
          rw [utf8_append, member, tailText]
        cases firstField with
        | true =>
          rw [List.map_cons, membersText, whole]
          simp
        | false =>
          show _ = utf8 (',' :: (Json.Written.render ⟨label, text⟩ ++ Json.writtenTail (parts.map Prod.fst)))
          rw [utf8_cons, whole]
          simp [String.utf8EncodeChar]

section Rendered

variable {unpackAttributes : Bool} {entries : List (List UInt8 × Cell)} {parts : List (Json.Written × Json)}
  (each : List.Forall₂ (Renders formatters normalise unpackAttributes) entries parts)
include each

theorem plain_iff_of_renders :
    (∀ entry ∈ entries, PlainName entry.1) ↔ ∀ part ∈ parts, ∀ c ∈ part.1.name, Json.IsPlain c := by
  induction each with
  | nil => simp
  | @cons entry part entries parts renders _ ih =>
    have own : PlainName entry.1 ↔ ∀ c ∈ part.1.name, Json.IsPlain c := by
      rw [← plainName_utf8, renders.1, plainName_outputName]
    rw [List.forall_mem_cons, List.forall_mem_cons, own, ih]

theorem reads_of_renders :
    List.Forall₂ Json.Reads (parts.map Prod.fst) (parts.map fun part => (part.1.name, part.2)) := by
  induction each with
  | nil => exact .nil
  | cons renders _ ih => exact .cons ⟨rfl, renders.2.1⟩ ih

theorem spelled_of_renders : ∀ member ∈ parts.map Prod.fst, (Json.parse member.text).isSome = true := by
  induction each with
  | nil => simp
  | cons renders _ ih =>
    rw [List.map_cons, List.forall_mem_cons]
    exact ⟨Option.isSome_iff_exists.mpr ⟨_, renders.2.1⟩, ih⟩

theorem named_of_renders {carried : List UInt8 × Cell → Json → Prop} {members : List (List Char × Json)}
    (found : List.Forall₂ (fun entry (member : List Char × Json) =>
      utf8 member.1 = outputName entry.1 ∧ carried entry member.2) entries members) :
    List.Forall₂ (fun (written : Json.Written) (member : List Char × Json) => member.1 = written.name)
      (parts.map Prod.fst) members := by
  induction each generalizing members with
  | nil =>
    cases found
    exact .nil
  | cons renders _ ih =>
    cases found with
    | cons same others => exact .cons (utf8_inj.mp (same.1.trans renders.1.symm)) (ih others)

theorem outputNames_of_renders :
    parts.map (fun part => utf8 part.1.name) = entries.map fun entry => outputName entry.1 := by
  induction each with
  | nil => rfl
  | cons renders _ ih => rw [List.map_cons, List.map_cons, renders.1, ih]

theorem distinct_iff_of_renders :
    ((entries.map Prod.fst).map outputName).Nodup ↔ (parts.map fun part => part.1.name).Nodup := by
  have outputNames : (entries.map Prod.fst).map outputName = (parts.map fun part => part.1.name).map utf8 := by
    rw [List.map_map, List.map_map]
    exact (outputNames_of_renders each).symm
  rw [outputNames]
  exact List.nodup_map_iff utf8_injective

end Rendered

theorem names_of_members {carried : List UInt8 × Cell → Json → Prop} {entries : List (List UInt8 × Cell)}
    {members : List (List Char × Json)}
    (found : List.Forall₂ (fun entry (member : List Char × Json) =>
      utf8 member.1 = outputName entry.1 ∧ carried entry member.2) entries members) :
    (entries.map Prod.fst).map outputName = (members.map Prod.fst).map utf8 := by
  induction found with
  | nil => rfl
  | cons same _ ih => rw [List.map_cons, List.map_cons, List.map_cons, List.map_cons, ih, same.1]

theorem rowWellFormed_iff (plain : formatters.SingleLine) (spells : formatters.SpellsJson normalise)
    {unpackAttributes : Bool} {fields : List (List UInt8)} {row : List Cell} (isText : CellsText (fields.zip row))
    {rowBuf : List UInt8} (serialized : serializeRow formatters unpackAttributes fields row = .ok rowBuf) :
    RowWellFormed formatters normalise unpackAttributes (fields.zip row) rowBuf ↔
      NamesPlain (fields.zip row) ∧ NamesDistinct (fields.zip row) := by
  cases written : writeFields formatters unpackAttributes true (fields.zip row) with
  | error reason => simp [serializeRow, written, bind, Except.bind] at serialized
  | ok body =>
    simp only [serializeRow, written, bind, Except.bind, pure, Except.pure, Except.ok.injEq] at serialized
    obtain ⟨parts, each, same⟩ := writeFields_text spells isText written
    set members := parts.map Prod.fst
    have object : [123] ++ body ++ [125] = utf8 (Json.writtenObject members) := by
      rw [writtenObject_membersText, utf8_cons, ← same]
      rfl
    have whole : rowBuf = bulkAction ++ utf8 (Json.writtenObject members) ++ [newline] := by
      rw [← serialized, ← object]
      simp
    have names : NamesPlain (fields.zip row) ↔ ∀ member ∈ members, ∀ c ∈ member.name, Json.IsPlain c := by
      rw [NamesPlain, writtenNames, List.forall_mem_map, List.forall_mem_map]
      exact plain_iff_of_renders each
    rw [names]
    constructor
    · rintro ⟨line, text, read, lines, -, decoded, parsed, distinct, found⟩
      have line : line = utf8 (Json.writtenObject members) :=
        List.append_cancel_left (List.append_cancel_right (lines.symm.trans whole))
      rw [line, decodeUtf8_utf8, Option.some.injEq] at decoded
      subst decoded
      refine ⟨Json.plain_of_parse_writtenObject (spelled_of_renders each) parsed (named_of_renders each found), ?_⟩
      rw [NamesDistinct, writtenNames, names_of_members found]
      exact distinct.map utf8_injective
    · rintro ⟨plainNames, distinct⟩
      refine ⟨utf8 (Json.writtenObject members), Json.writtenObject members, parts.map fun part => (part.1.name, part.2),
        whole, ?_, decodeUtf8_utf8 _, Json.parse_writtenObject_of_plain (reads_of_renders each) plainNames, ?_, ?_⟩
      · rw [← object]
        have fieldsLine : newline ∉ body := fun member => by
          obtain ⟨name, listed, broken⟩ := (newline_mem_writeFields plain written).mp member
          exact (names.mpr plainNames name listed).singleLine broken
        simp only [List.mem_append, List.mem_singleton, not_or]
        exact ⟨⟨by decide, fieldsLine⟩, by decide⟩
      · rw [List.map_map]
        exact (distinct_iff_of_renders each).mp distinct
      · exact List.forall₂_map_right_iff.mpr (each.imp fun entry part renders => ⟨renders.1, renders.2.2⟩)

end Row

theorem Table.IsText.cells {batch : Table} (isText : batch.IsText) {cells : List Cell} (row : cells ∈ batch.rows) :
    CellsText (batch.fields.zip cells) := by
  rintro ⟨name, cell⟩ listed
  obtain ⟨named, inRow⟩ := List.of_mem_zip listed
  exact ⟨isText.names name named, fun value same => isText.strings cells row value (same ▸ inRow)⟩

/-- Every row of a chunk is its action line and one line with an object for its cells, exactly if the names of the
columns with a value in it need no escape and are written under different names. -/
theorem serializeBatchChunks_wellFormed_iff {formatters : Formatters} {normalise : Json → Json}
    (plain : formatters.SingleLine) (spells : formatters.SpellsJson normalise) {unpackAttributes : Bool}
    {maxPayloadBytes : Nat} {batch : Table} (isText : batch.IsText) {chunks : List BulkChunk}
    {oversizedRows : List (Nat × Nat)}
    (serialized : serializeBatchChunksWithOversized formatters unpackAttributes maxPayloadBytes batch =
      .ok (chunks, oversizedRows)) :
    ∃ documents, List.Forall₂ (fun cells document =>
        serializeRow formatters unpackAttributes batch.fields cells = .ok document) batch.rows documents ∧
      ∀ chunk ∈ chunks, chunk.payload = (slice chunk.startRow chunk.rowCount documents).flatten ∧
        ∀ row ∈ chunk.rows, ∃ cells document, batch.rows[row]? = some cells ∧ documents[row]? = some document ∧
          (RowWellFormed formatters normalise unpackAttributes (batch.fields.zip cells) document ↔
            NamesPlain (batch.fields.zip cells) ∧ NamesDistinct (batch.fields.zip cells)) := by
  obtain ⟨documents, chunked⟩ := serializeBatchChunks_chunked plain serialized
  refine ⟨documents, chunked.serialized, fun chunk member => ⟨(chunked.chunk chunk member).2, fun row listed => ?_⟩⟩
  obtain ⟨low, high⟩ := List.mem_range'_1.mp listed
  obtain ⟨cells, document, found, rendered, there, -⟩ :=
    chunked.document member (show row - chunk.startRow < chunk.rowCount by omega)
  rw [Nat.add_sub_cancel' low] at found there
  exact ⟨cells, document, found, there,
    rowWellFormed_iff plain spells (isText.cells (List.mem_of_getElem? found)) rendered⟩

def epochFormatters : Formatters where
  formatTimestamp := fun secs nanos =>
    if secs = 0 ∧ nanos = 0 then some (ascii "1970-01-01T00:00:00.000000000Z") else none
  formatFloat32 := fun _ => none
  formatFloat64 := fun _ => none
  reformatJson := fun value => if value = ascii "\x7b\x7d" then some (ascii "\x7b\x7d") else none
  arrayFormatter := fun _ => .error "unsupported type"

theorem epochFormatters_singleLine : epochFormatters.SingleLine where
  timestamp := fun secs nanos text formatted => by
    obtain ⟨-, same⟩ := Option.ite_none_right_eq_some.mp formatted
    cases same
    decide
  float32 := by simp [epochFormatters]
  float64 := by simp [epochFormatters]
  json := fun value text reformatted => by
    obtain ⟨-, same⟩ := Option.ite_none_right_eq_some.mp reformatted
    cases same
    decide

theorem epochFormatters_spellsJson : epochFormatters.SpellsJson id where
  timestamp := fun secs nanos bytes formatted => by
    obtain ⟨-, same⟩ := Option.ite_none_right_eq_some.mp formatted
    cases same
    exact ⟨"1970-01-01T00:00:00.000000000Z".toList, by decide, by simp [Json.IsPlain]⟩
  float32 := by simp [epochFormatters]
  float64 := by simp [epochFormatters]
  json := fun value compact reformatted => by
    obtain ⟨rfl, same⟩ := Option.ite_none_right_eq_some.mp reformatted
    cases same
    exact ⟨['\x7b', '\x7d'], ['\x7b', '\x7d'], .object [], by decide, by decide, rfl, rfl⟩
  display := by simp [epochFormatters]

/-- A row with a time, an unpacked attribute and a string with a line break, and a row of nulls. -/
def epochRows : Table :=
  ⟨[ascii "timestamp", ascii "attributes", ascii "body"],
    [[.timestamp .nanosecond 0, .utf8 (ascii "\x7b\x7d"), .utf8 (ascii "a\n\"b")], [.null, .null, .null]]⟩

theorem epochRows_isText : epochRows.IsText where
  names := by
    have listed : epochRows.fields = [utf8 "timestamp".toList, utf8 "attributes".toList, utf8 "body".toList] := by decide
    rw [listed]
    simp
  strings := by
    have listed : epochRows.rows =
      [[.timestamp .nanosecond 0, .utf8 (utf8 "\x7b\x7d".toList), .utf8 (utf8 "a\n\"b".toList)],
        [.null, .null, .null]] := by decide
    rw [listed]
    simp

theorem serializeBatchChunks_wellFormed_epochRows :
    ∃ documents, List.Forall₂ (fun cells document =>
        serializeRow epochFormatters true epochRows.fields cells = .ok document) epochRows.rows documents ∧
      ∀ chunk ∈ [(⟨0, 2, bulkAction ++
          ascii "\x7b\"@timestamp\":\"1970-01-01T00:00:00.000000000Z\",\"attributes\":\x7b\x7d,\"body\":\"a\\n\\\"b\"\x7d\n" ++
            bulkAction ++ ascii "\x7b\x7d\n"⟩ : BulkChunk)],
        chunk.payload = (slice chunk.startRow chunk.rowCount documents).flatten ∧
          ∀ row ∈ chunk.rows, ∃ cells document, epochRows.rows[row]? = some cells ∧ documents[row]? = some document ∧
            (RowWellFormed epochFormatters id true (epochRows.fields.zip cells) document ↔
              NamesPlain (epochRows.fields.zip cells) ∧ NamesDistinct (epochRows.fields.zip cells)) :=
  serializeBatchChunks_wellFormed_iff epochFormatters_singleLine epochFormatters_spellsJson epochRows_isText
    (show serializeBatchChunksWithOversized epochFormatters true 1000 epochRows = .ok (_, []) by decide +kernel)

def quotedName : Table := ⟨[ascii "a\"b"], [[.utf8 (ascii "x")]]⟩

/-- The document of the row is no JSON object that has the column for a member. -/
theorem rowWellFormed_quotedName :
    ∃ payload, serializeBatchChunksWithOversized epochFormatters false 1000 quotedName = .ok ([⟨0, 1, payload⟩], []) ∧
      serializeRow epochFormatters false quotedName.fields [.utf8 (ascii "x")] = .ok payload ∧
      ¬RowWellFormed epochFormatters id false (quotedName.fields.zip [.utf8 (ascii "x")]) payload := by
  have serialized : serializeRow epochFormatters false quotedName.fields [.utf8 (ascii "x")] =
      .ok (bulkAction ++ ascii "\x7b\"a\"b\":\"x\"\x7d\n") := by decide
  have isText : CellsText (quotedName.fields.zip [.utf8 (ascii "x")]) := by
    have listed : quotedName.fields.zip [Cell.utf8 (ascii "x")] = [(utf8 "a\"b".toList, .utf8 (utf8 "x".toList))] := by
      decide
    rw [listed]
    simp [CellsText]
  refine ⟨bulkAction ++ ascii "\x7b\"a\"b\":\"x\"\x7d\n", by decide, serialized, fun wellFormed => ?_⟩
  have plain := (rowWellFormed_iff epochFormatters_singleLine epochFormatters_spellsJson isText serialized).mp wellFormed
  have quote := plain.1 (ascii "a\"b") (by decide) 34 (by decide)
  exact quote.1 rfl

end OtelDatalake.Elasticsearch
