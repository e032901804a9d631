import Mathlib.Data.List.Basic
import Mathlib.Data.List.Perm.Basic
import OtelDatalake.Foundation.LittleEndian
import OtelDatalake.Foundation.Outcome

open OtelDatalake.Foundation

namespace OtelDatalake.Elasticsearch

def newline : UInt8 := 10

def carriageReturn : UInt8 := 13

def ascii (text : String) : List UInt8 := text.toList.map fun c => UInt8.ofNat c.toNat

/-- The action line of a `create` in a data stream, with its newline. -/
def bulkAction : List UInt8 := ascii "\x7b\"create\":\x7b\x7d\x7d\n"

def hexChars : List UInt8 := ascii "0123456789abcdef"

inductive TimeUnit where
  | second
  | millisecond
  | microsecond
  | nanosecond
  deriving DecidableEq, Repr

/-- The value of a column in one row. Floats are their bits, `other` is a type that is formatted by Arrow. -/
inductive Cell where
  | null
  | timestamp (unit : TimeUnit) (value : Int)
  | utf8 (value : List UInt8)
  | boolean (value : Bool)
  | integer (value : Int)
  | float32 (bits : UInt32)
  | float64 (bits : UInt64)
  | nullType
  | other (value : List UInt8)
  deriving DecidableEq, Repr

/-- What the serializer calls: `chrono`'s text of a time, `ryu`'s of a finite float, `serde_json`'s reader followed by
    its compact writer, and Arrow's `ArrayFormatter`. -/
structure Formatters where
  formatTimestamp : (secs : Int) → (subsecNanos : Nat) → Option (List UInt8)
  formatFloat32 : UInt32 → Option (List UInt8)
  formatFloat64 : UInt64 → Option (List UInt8)
  reformatJson : List UInt8 → Option (List UInt8)
  arrayFormatter : List UInt8 → Except String (List UInt8)

/-- None of the third-party texts that are written unescaped holds a line break. -/
structure Formatters.SingleLine (formatters : Formatters) : Prop where
  timestamp : ∀ secs nanos text, formatters.formatTimestamp secs nanos = some text → newline ∉ text
  float32 : ∀ bits text, formatters.formatFloat32 bits = some text → newline ∉ text
  float64 : ∀ bits text, formatters.formatFloat64 bits = some text → newline ∉ text
  json : ∀ value text, formatters.reformatJson value = some text → newline ∉ text

structure Table where
  fields : List (List UInt8)
  rows : List (List Cell)
  deriving DecidableEq

def writeTimestamp (formatters : Formatters) (secs : Int) (subsecNanos : Nat) : List UInt8 :=
  match formatters.formatTimestamp secs subsecNanos with
  | some text => [34] ++ text ++ [34]
  | none => ascii "null"

def writeTimestampCol (formatters : Formatters) (unit : TimeUnit) (value : Int) : List UInt8 :=
  match unit with
  | .nanosecond => writeTimestamp formatters (value / 1000000000) (value % 1000000000).toNat
  | .microsecond => writeTimestamp formatters (value / 1000000) (value % 1000000 * 1000).toNat
  | .millisecond => writeTimestamp formatters (value / 1000) (value % 1000 * 1000000).toNat
  | .second => writeTimestamp formatters value 0

def itoa : Int → List UInt8
  | .ofNat value => (Nat.toDigits 10 value).map fun c => UInt8.ofNat c.toNat
  | .negSucc value => 45 :: (Nat.toDigits 10 (value + 1)).map fun c => UInt8.ofNat c.toNat

def escapeByte (byte : UInt8) : List UInt8 :=
  if byte = 34 then [92, 34]
  else if byte = 92 then [92, 92]
  else if byte = newline then [92, 110]
  else if byte = carriageReturn then [92, 114]
  else if byte = 9 then [92, 116]
  else if byte < 0x20 then
    ascii "\\u00" ++ [hexChars.getD (byte >>> 4).toNat 0, hexChars.getD (byte &&& 0x0f).toNat 0]
  else [byte]

def writeEscapedString (value : List UInt8) : List UInt8 := [34] ++ value.flatMap escapeByte ++ [34]

/-- A text that starts as a JSON object or array is written as such when it is unpacked and can be read. -/
def writeStringCol (formatters : Formatters) (value : List UInt8) (unpackJson : Bool) : List UInt8 :=
  if unpackJson && (value.head? == some 123 || value.head? == some 91) then
    if value.contains newline || value.contains carriageReturn then
      match formatters.reformatJson value with
      | some text => text
      | none => writeEscapedString value
    else if (formatters.reformatJson value).isSome then value
    else writeEscapedString value
  else writeEscapedString value

def writeFloat (text : Option (List UInt8)) : List UInt8 := text.getD (ascii "null")

def writeValue (formatters : Formatters) (unpackJson : Bool) : Cell → Except String (List UInt8)
  | .null => .ok (ascii "null")
  | .timestamp unit value => .ok (writeTimestampCol formatters unit value)
  | .utf8 value => .ok (writeStringCol formatters value unpackJson)
  | .boolean value => .ok (if value then ascii "true" else ascii "false")
  | .integer value => .ok (itoa value)
  | .float32 bits => .ok (writeFloat (formatters.formatFloat32 bits))
  | .float64 bits => .ok (writeFloat (formatters.formatFloat64 bits))
  | .nullType => .ok (ascii "null")
  | .other value => (formatters.arrayFormatter value).map writeEscapedString

def outputName (name : List UInt8) : List UInt8 :=
  if name = ascii "timestamp" then ascii "@timestamp" else name

def isAttrField (name : List UInt8) : Bool := name == ascii "attributes" || name == ascii "resource_attributes"

def writeFields (formatters : Formatters) (unpackAttributes : Bool) :
    (firstField : Bool) → List (List UInt8 × Cell) → Except String (List UInt8)
  | _, [] => .ok []
  | firstField, (name, cell) :: rest =>
    if cell = .null then writeFields formatters unpackAttributes firstField rest
    else do
      let value ← writeValue formatters (unpackAttributes && isAttrField name) cell
      let others ← writeFields formatters unpackAttributes false rest
      return (if firstField then [] else [44]) ++ [34] ++ outputName name ++ [34, 58] ++ value ++ others

def serializeRow (formatters : Formatters) (unpackAttributes : Bool) (fields : List (List UInt8)) (row : List Cell) :
    Except String (List UInt8) := do
  let body ← writeFields formatters unpackAttributes true (fields.zip row)
  return bulkAction ++ [123] ++ body ++ [125, newline]

structure BulkChunk where
  startRow : Nat
  rowCount : Nat
  payload : List UInt8
  deriving DecidableEq, Repr

structure ChunkState where
  chunks : List BulkChunk := []
  currentChunk : List UInt8 := []
  chunkStartRow : Nat := 0
  chunkRowCount : Nat := 0
  oversizedRows : List (Nat × Nat) := []
  deriving DecidableEq, Repr

namespace ChunkState

def pushChunk (state : ChunkState) : ChunkState :=
  if state.currentChunk = [] then state
  else
    { state with
      chunks := state.chunks ++ [⟨state.chunkStartRow, state.chunkRowCount, state.currentChunk⟩]
      currentChunk := []
      chunkRowCount := 0 }

def addRow (maxPayloadBytes : Nat) (state : ChunkState) (row : Nat) (rowBuf : List UInt8) : ChunkState :=
  if maxPayloadBytes < rowBuf.length then
    let pushed := state.pushChunk
    { pushed with oversizedRows := pushed.oversizedRows ++ [(row, rowBuf.length)] }
  else
    let fitting := if maxPayloadBytes < state.currentChunk.length + rowBuf.length then state.pushChunk else state
    { fitting with
      chunkStartRow := if fitting.chunkRowCount = 0 then row else fitting.chunkStartRow
      currentChunk := fitting.currentChunk ++ rowBuf
      chunkRowCount := fitting.chunkRowCount + 1 }

end ChunkState

def chunkRows (formatters : Formatters) (unpackAttributes : Bool) (maxPayloadBytes : Nat) (fields : List (List UInt8)) :
    (row : Nat) → List (List Cell) → ChunkState → Except String ChunkState
  | _, [], state => .ok state
  | row, cells :: rest, state => do
    let rowBuf ← serializeRow formatters unpackAttributes fields cells
    chunkRows formatters unpackAttributes maxPayloadBytes fields (row + 1) rest
      (state.addRow maxPayloadBytes row rowBuf)

def serializeBatchChunksWithOversized (formatters : Formatters) (unpackAttributes : Bool) (maxPayloadBytes : Nat)
    (batch : Table) : Except String (List BulkChunk × List (Nat × Nat)) := do
  if batch.rows = [] then return ([], [])
  let state ← chunkRows formatters unpackAttributes maxPayloadBytes batch.fields 0 batch.rows {}
  return (state.pushChunk.chunks, state.pushChunk.oversizedRows)

theorem escapeByte_singleLine (byte : UInt8) : newline ∉ escapeByte byte := by
  revert byte
  have every : ∀ n : Fin 256, newline ∉ escapeByte (UInt8.ofFin n) := by decide +kernel
  intro byte
  exact every byte.toFin

theorem writeEscapedString_singleLine (value : List UInt8) : newline ∉ writeEscapedString value := by
  intro member
  simp only [writeEscapedString, List.mem_append, List.mem_singleton, List.mem_flatMap] at member
  obtain (quote | ⟨byte, -, escaped⟩) | quote := member
  · exact absurd quote (by decide)
  · exact escapeByte_singleLine byte escaped
  · exact absurd quote (by decide)

theorem toDigits_singleLine (value : Nat) :
    newline ∉ (Nat.toDigits 10 value).map fun c => UInt8.ofNat c.toNat := by
  intro member
  obtain ⟨c, digit, same⟩ := List.mem_map.mp member
  have isDigit := Nat.isDigit_of_mem_toDigits (by decide) (by decide) digit
  simp only [Char.isDigit, Bool.and_eq_true, decide_eq_true_eq] at isDigit
  have low : 48 ≤ c.toNat := isDigit.1
  have high : c.toNat ≤ 57 := isDigit.2
  have number := congrArg UInt8.toNat same
  rw [UInt8.toNat_ofNat', Nat.mod_eq_of_lt (by omega)] at number
  have ten : newline.toNat = 10 := rfl
  omega

theorem itoa_singleLine (value : Int) : newline ∉ itoa value := by
  cases value with
  | ofNat value => exact toDigits_singleLine value
  | negSucc value =>
    rw [itoa, List.mem_cons]
    rintro (sign | digit)
    · exact absurd sign (by decide)
    · exact toDigits_singleLine _ digit

theorem newline_mem_outputName (name : List UInt8) : newline ∈ outputName name ↔ newline ∈ name := by
  unfold outputName
  by_cases timestamp : name = ascii "timestamp"
  · rw [if_pos timestamp, timestamp]
    decide
  · rw [if_neg timestamp]

def writtenNames (cells : List (List UInt8 × Cell)) : List (List UInt8) :=
  (cells.filter fun entry => entry.2 ≠ .null).map Prod.fst

theorem writeFields_cons {formatters : Formatters} {unpackAttributes firstField : Bool} {name : List UInt8} {cell : Cell}
    (some : cell ≠ .null) {rest : List (List UInt8 × Cell)} {body : List UInt8}
    (written : writeFields formatters unpackAttributes firstField ((name, cell) :: rest) = .ok body) :
    ∃ value others, writeValue formatters (unpackAttributes && isAttrField name) cell = .ok value ∧
      writeFields formatters unpackAttributes false rest = .ok others ∧
        body = (if firstField then [] else [44]) ++ [34] ++ outputName name ++ [34, 58] ++ value ++ others := by
  rw [writeFields, if_neg some] at written
  obtain ⟨value, first, written⟩ := bind_ok.mp written
  obtain ⟨others, following, written⟩ := bind_ok.mp written
  exact ⟨value, others, first, following, (Except.ok.inj written).symm⟩

theorem serializeRow_eq_ok {formatters : Formatters} {unpackAttributes : Bool} {fields : List (List UInt8)}
    {row : List Cell} {rowBuf : List UInt8}
    (serialized : serializeRow formatters unpackAttributes fields row = .ok rowBuf) :
    ∃ body, writeFields formatters unpackAttributes true (fields.zip row) = .ok body ∧
      rowBuf = bulkAction ++ [123] ++ body ++ [125, newline] := by
  obtain ⟨body, written, rest⟩ := bind_ok.mp serialized
  exact ⟨body, written, (Except.ok.inj rest).symm⟩

section SingleLine

variable {formatters : Formatters} (plain : formatters.SingleLine)
include plain

theorem writeTimestamp_singleLine (secs : Int) (subsecNanos : Nat) :
    newline ∉ writeTimestamp formatters secs subsecNanos := by
  unfold writeTimestamp
  cases formatted : formatters.formatTimestamp secs subsecNanos with
  | none => decide
  | some text =>
    have clean := plain.timestamp _ _ _ formatted
    simp only [List.mem_append, List.mem_singleton, not_or]
    exact ⟨⟨by decide, clean⟩, by decide⟩

theorem writeStringCol_singleLine (value : List UInt8) (unpackJson : Bool) :
    newline ∉ writeStringCol formatters value unpackJson := by
  unfold writeStringCol
  have escaped := writeEscapedString_singleLine value
  split
  · split
    · split
      · next text reformatted => exact plain.json _ _ reformatted
      · exact escaped
    · next raw =>
      split
      · intro member
        apply raw
        simp [member]
      · exact escaped
  · exact escaped

theorem writeValue_singleLine {unpackJson : Bool} {cell : Cell} {text : List UInt8}
    (written : writeValue formatters unpackJson cell = .ok text) : newline ∉ text := by
  cases cell with
  | null | nullType =>
    cases written
    decide
  | timestamp unit value =>
    cases written
    cases unit <;> exact writeTimestamp_singleLine plain _ _
  | utf8 value =>
    cases written
    exact writeStringCol_singleLine plain value unpackJson
  | boolean value =>
    cases written
    cases value <;> decide
  | integer value =>
    cases written
    exact itoa_singleLine value
  | float32 bits =>
    cases written
    cases formatted : formatters.formatFloat32 bits with
    | none => decide
    | some text => exact plain.float32 _ _ formatted
  | float64 bits =>
    cases written
    cases formatted : formatters.formatFloat64 bits with
    | none => decide
    | some text => exact plain.float64 _ _ formatted
  | other value =>
    cases formatted : formatters.arrayFormatter value with
    | error reason => simp [writeValue, formatted, Except.map] at written
    | ok display =>
      simp only [writeValue, formatted, Except.map, Except.ok.injEq] at written
      subst written
      exact writeEscapedString_singleLine display

theorem newline_mem_writeFields {unpackAttributes firstField : Bool} {cells : List (List UInt8 × Cell)}
    {text : List UInt8} (written : writeFields formatters unpackAttributes firstField cells = .ok text) :
    newline ∈ text ↔ ∃ name ∈ writtenNames cells, newline ∈ name := by
  induction cells generalizing firstField text with
  | nil =>
    cases written
    simp [writtenNames]
  | cons entry rest ih =>
    obtain ⟨name, cell⟩ := entry
    by_cases null : cell = .null
    · rw [writeFields, if_pos null] at written
      rw [ih written]
      simp [writtenNames, null]
    · obtain ⟨value, others, first, following, rfl⟩ := writeFields_cons null written
      have names : writtenNames ((name, cell) :: rest) = name :: writtenNames rest := by simp [writtenNames, null]
      have noValue := writeValue_singleLine plain first
      have noComma : newline ∉ (if firstField then [] else [(44 : UInt8)]) := by
        cases firstField <;> decide
      have noQuote : newline ∉ [(34 : UInt8)] := by decide
      have noColon : newline ∉ [(34 : UInt8), 58] := by decide
      rw [names, List.exists_mem_cons_iff, ← ih following, ← newline_mem_outputName name]
      simp only [List.mem_append, noValue, noComma, noQuote, noColon, false_or, or_false]

/-- A serialized row is the action line and an object, whose line breaks are those of the names in it. -/
theorem serializeRow_lines {unpackAttributes : Bool} {fields : List (List UInt8)} {row : List Cell}
    {rowBuf : List UInt8} (serialized : serializeRow formatters unpackAttributes fields row = .ok rowBuf) :
    ∃ body, (newline ∈ body ↔ ∃ name ∈ writtenNames (fields.zip row), newline ∈ name) ∧
      rowBuf = bulkAction ++ ([123] ++ body ++ [125]) ++ [newline] := by
  obtain ⟨body, written, rfl⟩ := serializeRow_eq_ok serialized
  refine ⟨body, newline_mem_writeFields plain written, ?_⟩
  simp

theorem serializeRow_ne_nil {unpackAttributes : Bool} {fields : List (List UInt8)} {row : List Cell} {rowBuf : List UInt8}
    (serialized : serializeRow formatters unpackAttributes fields row = .ok rowBuf) : rowBuf ≠ [] := by
  obtain ⟨body, -, rfl⟩ := serializeRow_lines plain serialized
  simp

end SingleLine

namespace ChunkState

def addRows (maxPayloadBytes : Nat) : (row : Nat) → List (List UInt8) → ChunkState → ChunkState
  | _, [], state => state
  | row, rowBuf :: rest, state => addRows maxPayloadBytes (row + 1) rest (state.addRow maxPayloadBytes row rowBuf)

end ChunkState

theorem chunkRows_ok {formatters : Formatters} {unpackAttributes : Bool} {maxPayloadBytes : Nat}
    {fields : List (List UInt8)} {row : Nat} {rows : List (List Cell)} {state result : ChunkState}
    (chunked : chunkRows formatters unpackAttributes maxPayloadBytes fields row rows state = .ok result) :
    ∃ documents, List.Forall₂ (fun cells rowBuf => serializeRow formatters unpackAttributes fields cells = .ok rowBuf)
        rows documents ∧ result = state.addRows maxPayloadBytes row documents := by
  induction rows generalizing row state with
  | nil =>
    cases chunked
    exact ⟨[], .nil, rfl⟩
  | cons cells rest ih =>
    cases serialized : serializeRow formatters unpackAttributes fields cells with
    | error reason => simp [chunkRows, serialized, bind, Except.bind] at chunked
    | ok rowBuf =>
      simp only [chunkRows, serialized, bind, Except.bind] at chunked
      obtain ⟨documents, each, rfl⟩ := ih chunked
      exact ⟨rowBuf :: documents, .cons serialized each, rfl⟩

def BulkChunk.rows (chunk : BulkChunk) : List Nat := List.range' chunk.startRow chunk.rowCount

structure Covers (maxPayloadBytes : Nat) (documents : List (List UInt8)) (row : Nat) (state : ChunkState) :
    Prop where
  chunk : ∀ chunk ∈ state.chunks, 0 < chunk.rowCount ∧
    chunk.payload = (slice chunk.startRow chunk.rowCount documents).flatten
  current : state.currentChunk = (slice state.chunkStartRow state.chunkRowCount documents).flatten
  empty : state.currentChunk = [] ↔ state.chunkRowCount = 0
  adjacent : 0 < state.chunkRowCount → state.chunkStartRow + state.chunkRowCount = row
  oversized : ∀ entry ∈ state.oversizedRows, ∃ document, documents[entry.1]? = some document ∧
    entry.2 = document.length ∧ maxPayloadBytes < document.length
  large : ∀ number < row, ∀ document, documents[number]? = some document → maxPayloadBytes < document.length →
    number ∈ state.oversizedRows.map Prod.fst
  rows : (state.chunks.flatMap BulkChunk.rows ++ List.range' state.chunkStartRow state.chunkRowCount ++
    state.oversizedRows.map Prod.fst).Perm (List.range row)

theorem slice_succ {α : Type} {start count : Nat} {items : List α} {item : α}
    (following : items[start + count]? = some item) :
    slice start (count + 1) items = slice start count items ++ [item] := by
  have next : (items.drop start)[count]? = some item := by rw [List.getElem?_drop, following]
  rw [slice, slice, List.take_add_one, next]
  rfl

namespace Covers

variable {maxPayloadBytes row : Nat} {documents : List (List UInt8)} {state : ChunkState}

theorem init : Covers maxPayloadBytes documents 0 {} where
  chunk := by simp
  current := by simp [slice]
  empty := by simp
  adjacent := by simp
  oversized := by simp
  large := by simp
  rows := by simp

theorem pushChunk (covers : Covers maxPayloadBytes documents row state) :
    Covers maxPayloadBytes documents row state.pushChunk ∧ state.pushChunk.chunkRowCount = 0 ∧
      state.pushChunk.currentChunk = [] := by
  by_cases none : state.currentChunk = []
  · have same : state.pushChunk = state := by simp [ChunkState.pushChunk, none]
    rw [same]
    exact ⟨covers, covers.empty.mp none, none⟩
  · have counted : 0 < state.chunkRowCount := Nat.pos_of_ne_zero fun zero => none (covers.empty.mpr zero)
    simp only [ChunkState.pushChunk, none, if_false]
    refine ⟨?_, trivial, trivial⟩
    constructor
    · intro chunk member
      rcases List.mem_append.mp member with old | new
      · exact covers.chunk chunk old
      · rw [List.mem_singleton.mp new]
        exact ⟨counted, covers.current⟩
    · simp [slice]
    · simp
    · simp
    · exact covers.oversized
    · exact covers.large
    · simpa [BulkChunk.rows] using covers.rows

theorem addOversized (covers : Covers maxPayloadBytes documents row state) {document : List UInt8}
    (found : documents[row]? = some document) (large : maxPayloadBytes < document.length)
    (none : state.chunkRowCount = 0) :
    Covers maxPayloadBytes documents (row + 1)
      { state with oversizedRows := state.oversizedRows ++ [(row, document.length)] } where
  chunk := covers.chunk
  current := covers.current
  empty := covers.empty
  adjacent := fun counted => absurd none (Nat.pos_iff_ne_zero.mp counted)
  oversized := by
    intro entry member
    rcases List.mem_append.mp member with old | new
    · exact covers.oversized entry old
    · rw [List.mem_singleton.mp new]
      exact ⟨document, found, rfl, large⟩
  large := by
    intro number bound other numbered exceeds
    rw [List.map_append, List.mem_append]
    by_cases new : number = row
    · exact .inr (by simp [new])
    · exact .inl (covers.large number (by omega) other numbered exceeds)
  rows := by
    have grown := covers.rows.append_right [row]
    rw [List.range_succ]
    simpa using grown

theorem addFitting (covers : Covers maxPayloadBytes documents row state) {document : List UInt8}
    (found : documents[row]? = some document) (nonempty : document ≠ [])
    (fits : document.length ≤ maxPayloadBytes) :
    Covers maxPayloadBytes documents (row + 1)
      { state with
        chunkStartRow := if state.chunkRowCount = 0 then row else state.chunkStartRow
        currentChunk := state.currentChunk ++ document
        chunkRowCount := state.chunkRowCount + 1 } := by
  set start := if state.chunkRowCount = 0 then row else state.chunkStartRow with start_eq
  have next : start + state.chunkRowCount = row := by
    by_cases none : state.chunkRowCount = 0
    · simp [start_eq, none]
    · rw [start_eq, if_neg none]
      exact covers.adjacent (Nat.pos_of_ne_zero none)
  have sliced : slice start state.chunkRowCount documents =
      slice state.chunkStartRow state.chunkRowCount documents := by
    by_cases none : state.chunkRowCount = 0
    · simp [slice, none]
    · rw [start_eq, if_neg none]
  have ranged : List.range' start state.chunkRowCount = List.range' state.chunkStartRow state.chunkRowCount := by
    by_cases none : state.chunkRowCount = 0
    · simp [none]
    · rw [start_eq, if_neg none]
  constructor
  · exact covers.chunk
  · have following : documents[start + state.chunkRowCount]? = some document := by rw [next]; exact found
    rw [slice_succ following, sliced, List.flatten_append, ← covers.current]
    simp
  · simp [nonempty]
  · intro _
    show start + (state.chunkRowCount + 1) = row + 1
    omega
  · exact covers.oversized
  · intro number bound other numbered exceeds
    by_cases new : number = row
    · subst new
      rw [found, Option.some.injEq] at numbered
      subst numbered
      omega
    · exact covers.large number (by omega) other numbered exceeds
  · have grown := covers.rows.append_right [row]
    have reordered : (state.chunks.flatMap BulkChunk.rows ++ List.range' start (state.chunkRowCount + 1) ++
        state.oversizedRows.map Prod.fst).Perm (state.chunks.flatMap BulkChunk.rows ++
          List.range' state.chunkStartRow state.chunkRowCount ++ state.oversizedRows.map Prod.fst ++ [row]) := by
      rw [List.range'_concat, ranged, Nat.one_mul, next]
      simp only [List.append_assoc]
      exact (List.perm_append_comm.append_left _).append_left _
    rw [List.range_succ]
    exact reordered.trans grown

theorem addRow (covers : Covers maxPayloadBytes documents row state) {document : List UInt8}
    (found : documents[row]? = some document) (nonempty : document ≠ []) :
    Covers maxPayloadBytes documents (row + 1) (state.addRow maxPayloadBytes row document) := by
  unfold ChunkState.addRow
  obtain ⟨pushed, none, -⟩ := covers.pushChunk
  by_cases large : maxPayloadBytes < document.length
  · rw [if_pos large]
    exact pushed.addOversized found large none
  · rw [if_neg large]
    by_cases full : maxPayloadBytes < state.currentChunk.length + document.length
    · simp only [if_pos full]
      exact pushed.addFitting found nonempty (Nat.not_lt.mp large)
    · simp only [if_neg full]
      exact covers.addFitting found nonempty (Nat.not_lt.mp large)

theorem addRows (rest : List (List UInt8)) (covers : Covers maxPayloadBytes documents row state)
    (remaining : documents.drop row = rest) (nonempty : ∀ document ∈ documents, document ≠ []) :
    Covers maxPayloadBytes documents (row + rest.length) (state.addRows maxPayloadBytes row rest) := by
  induction rest generalizing row state with
  | nil => exact covers
  | cons document rest ih =>
    have found : documents[row]? = some document := by
      have head := congrArg List.head? remaining
      rwa [List.head?_drop] at head
    have following : documents.drop (row + 1) = rest := by
      rw [← List.drop_drop, remaining]
      rfl
    have step := covers.addRow found (nonempty document (List.mem_of_getElem? found))
    have run := ih step following
    rwa [List.length_cons, Nat.add_comm rest.length 1, ← Nat.add_assoc]

end Covers

/-- The chunks and the oversized rows of a batch hold each row once, and a chunk holds the documents of its rows. -/
structure Chunked (formatters : Formatters) (unpackAttributes : Bool) (maxPayloadBytes : Nat) (batch : Table)
    (documents : List (List UInt8)) (chunks : List BulkChunk) (oversized : List (Nat × Nat)) : Prop where
  serialized : List.Forall₂ (fun cells rowBuf =>
    serializeRow formatters unpackAttributes batch.fields cells = .ok rowBuf) batch.rows documents
  nonempty : ∀ document ∈ documents, document ≠ []
  chunk : ∀ chunk ∈ chunks, 0 < chunk.rowCount ∧
    chunk.payload = (slice chunk.startRow chunk.rowCount documents).flatten
  exceeding : ∀ entry ∈ oversized, ∃ document, documents[entry.1]? = some document ∧
    entry.2 = document.length ∧ maxPayloadBytes < document.length
  large : ∀ row document, documents[row]? = some document → maxPayloadBytes < document.length →
    row ∈ oversized.map Prod.fst
  rows : (chunks.flatMap BulkChunk.rows ++ oversized.map Prod.fst).Perm (List.range batch.rows.length)

theorem serializeBatchChunks_chunked {formatters : Formatters} (plain : formatters.SingleLine)
    {unpackAttributes : Bool} {maxPayloadBytes : Nat} {batch : Table} {chunks : List BulkChunk}
    {oversized : List (Nat × Nat)}
    (serialized : serializeBatchChunksWithOversized formatters unpackAttributes maxPayloadBytes batch =
      .ok (chunks, oversized)) :
    ∃ documents, Chunked formatters unpackAttributes maxPayloadBytes batch documents chunks oversized := by
  unfold serializeBatchChunksWithOversized at serialized
  by_cases noRows : batch.rows = []
  · simp only [noRows, if_true, pure, Except.pure, bind, Except.bind, Except.ok.injEq, Prod.mk.injEq] at serialized
    obtain ⟨rfl, rfl⟩ := serialized
    exact ⟨[], by simp [noRows], by simp, by simp, by simp, by simp, by simp [noRows]⟩
  · cases chunked : chunkRows formatters unpackAttributes maxPayloadBytes batch.fields 0 batch.rows {} with
    | error reason => simp [noRows, chunked, bind, Except.bind] at serialized
    | ok state =>
      simp only [noRows, if_false, chunked, bind, Except.bind, pure, Except.pure, Except.ok.injEq,
        Prod.mk.injEq] at serialized
      obtain ⟨rfl, rfl⟩ := serialized
      obtain ⟨documents, each, rfl⟩ := chunkRows_ok chunked
      have nonempty : ∀ document ∈ documents, document ≠ [] := by
        intro document member
        obtain ⟨position, bound, rfl⟩ := List.getElem_of_mem member
        exact serializeRow_ne_nil plain (each.get (each.length_eq ▸ bound) bound)
      have covers : Covers maxPayloadBytes documents (0 + documents.length) _ :=
        Covers.init.addRows documents rfl nonempty
      obtain ⟨pushed, none, -⟩ := covers.pushChunk
      have counted := pushed.rows
      rw [none, List.range'_zero, List.append_nil, Nat.zero_add, ← each.length_eq] at counted
      refine ⟨documents, each, nonempty, pushed.chunk, pushed.oversized, ?_, counted⟩
      intro row document found exceeds
      obtain ⟨bound, -⟩ := List.getElem?_eq_some_iff.mp found
      exact pushed.large row (by omega) document found exceeds

namespace Chunked

variable {formatters : Formatters} {unpackAttributes : Bool} {maxPayloadBytes : Nat} {batch : Table}
  {documents : List (List UInt8)} {chunks : List BulkChunk} {oversized : List (Nat × Nat)}
  (chunked : Chunked formatters unpackAttributes maxPayloadBytes batch documents chunks oversized)
include chunked

theorem nodup : (chunks.flatMap BulkChunk.rows ++ oversized.map Prod.fst).Nodup :=
  chunked.rows.nodup_iff.mpr List.nodup_range

theorem row_lt {row : Nat} (member : row ∈ chunks.flatMap BulkChunk.rows ++ oversized.map Prod.fst) :
    row < documents.length := by
  rw [← chunked.serialized.length_eq]
  exact List.mem_range.mp (chunked.rows.mem_iff.mp member)

theorem chunk_bound {chunk : BulkChunk} (member : chunk ∈ chunks) :
    chunk.startRow + chunk.rowCount ≤ documents.length := by
  have counted := (chunked.chunk chunk member).1
  have last : chunk.startRow + (chunk.rowCount - 1) ∈ chunk.rows := List.mem_range'_1.mpr (by omega)
  have inside := chunked.row_lt (List.mem_append_left _ (List.mem_flatMap.mpr ⟨chunk, member, last⟩))
  omega

theorem chunk_length {chunk : BulkChunk} (member : chunk ∈ chunks) :
    (slice chunk.startRow chunk.rowCount documents).length = chunk.rowCount := by
  have bound := chunked.chunk_bound member
  simp [slice]
  omega

theorem chunk_document {chunk : BulkChunk} (member : chunk ∈ chunks) {document : List UInt8}
    (listed : document ∈ slice chunk.startRow chunk.rowCount documents) :
    document.length ≤ maxPayloadBytes ∧
      ∃ cells ∈ batch.rows, serializeRow formatters unpackAttributes batch.fields cells = .ok document := by
  obtain ⟨position, bound, rfl⟩ := List.getElem_of_mem listed
  have size := chunked.chunk_length member
  have inside := chunked.chunk_bound member
  have inDocuments : chunk.startRow + position < documents.length := by omega
  have same : (slice chunk.startRow chunk.rowCount documents)[position] =
      documents[chunk.startRow + position] := by simp [slice]
  rw [same]
  have inRows : chunk.startRow + position < batch.rows.length := chunked.serialized.length_eq ▸ inDocuments
  constructor
  · by_contra exceeds
    have listedLarge := chunked.large _ _ (List.getElem?_eq_getElem inDocuments) (Nat.not_le.mp exceeds)
    have inChunk : chunk.startRow + position ∈ chunks.flatMap BulkChunk.rows :=
      List.mem_flatMap.mpr ⟨chunk, member, List.mem_range'_1.mpr (by omega)⟩
    exact (List.nodup_append.mp chunked.nodup).2.2 _ inChunk _ listedLarge rfl
  · exact ⟨batch.rows[chunk.startRow + position], List.getElem_mem inRows,
      chunked.serialized.get inRows inDocuments⟩

end Chunked

def stringFormatters : Formatters where
  formatTimestamp := fun _ _ => none
  formatFloat32 := fun _ => none
  formatFloat64 := fun _ => none
  reformatJson := fun _ => none
  arrayFormatter := fun value => .ok value

theorem stringFormatters_singleLine : stringFormatters.SingleLine where
  timestamp := by simp [stringFormatters]
  float32 := by simp [stringFormatters]
  float64 := by simp [stringFormatters]
  json := by simp [stringFormatters]

end OtelDatalake.Elasticsearch
