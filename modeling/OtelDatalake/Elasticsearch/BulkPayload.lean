import Mathlib.Tactic.Ring
import OtelDatalake.Elasticsearch.Serializer

open OtelDatalake.Foundation

namespace OtelDatalake.Elasticsearch

/-- The errors of the sink. `Http` carries the text of the transport's error. -/
inductive ElasticsearchError where
  | http (cause : List Char)
  | bulkFailed (retries : Nat) (message : List Char)
  | authenticationFailed (message : List Char)
  | startupValidation (message : List Char)
  | serialization (message : List Char)
  | payloadTooLarge (actual limit : Nat)
  deriving DecidableEq, Repr

def ElasticsearchError.display : ElasticsearchError → List Char
  | .http cause => "HTTP error: ".toList ++ cause
  | .bulkFailed retries message =>
    "bulk request failed after ".toList ++ Nat.toDigits 10 retries ++ " retries: ".toList ++ message
  | .authenticationFailed message => "authentication failed: ".toList ++ message
  | .startupValidation message => "startup validation failed: ".toList ++ message
  | .serialization message => "serialization error: ".toList ++ message
  | .payloadTooLarge actual limit =>
    "payload size ".toList ++ Nat.toDigits 10 actual ++ " bytes exceeds limit ".toList ++ Nat.toDigits 10 limit ++
      " bytes".toList

def isBlank (line : List UInt8) : Bool :=
  line.all fun byte => byte == carriageReturn || byte == newline || byte == 32 || byte == 9

def lineRange (lineStart : Nat) (line : List UInt8) : List (Nat × Nat) :=
  if isBlank line then [] else [(lineStart, lineStart + line.length)]

/-- The loop over the bytes of a payload; `line` is `payload[line_start..idx]`. -/
def scanLines : List UInt8 → (lineStart : Nat) → (line : List UInt8) → List (Nat × Nat)
  | [], lineStart, line => lineRange lineStart line
  | byte :: rest, lineStart, line =>
    if byte = newline then
      lineRange lineStart (line ++ [byte]) ++ scanLines rest (lineStart + (line.length + 1)) []
    else scanLines rest lineStart (line ++ [byte])

def lineRanges (payload : List UInt8) : List (Nat × Nat) := scanLines payload 0 []

/-- The action and document lines of one item, with a newline where the payload has none. -/
def selectItem (payload : List UInt8) (ranges : List (Nat × Nat)) (idx : Nat) :
    Except ElasticsearchError (List UInt8) :=
  if ranges.length / 2 ≤ idx then
    .error (.serialization ("item index ".toList ++ Nat.toDigits 10 idx ++
      " out of bounds for payload containing ".toList ++ Nat.toDigits 10 (ranges.length / 2) ++ " items".toList))
  else
    match ranges[2 * idx]?, ranges[2 * idx + 1]? with
    | some (actionStart, _), some (_, docEnd) =>
      let item := slice actionStart (docEnd - actionStart) payload
      .ok (if item.getLast? = some newline then item else item ++ [newline])
    | none, _ => .error (.serialization ("missing action line range for item index ".toList ++ Nat.toDigits 10 idx))
    | _, none => .error (.serialization ("missing document line range for item index ".toList ++ Nat.toDigits 10 idx))

def extractSubPayload (payload : List UInt8) (itemIndices : List Nat) : Except ElasticsearchError (List UInt8) :=
  if itemIndices = [] then .ok []
  else
    let ranges := lineRanges payload
    if ranges.length % 2 ≠ 0 then
      .error (.serialization ("payload has an odd number of lines (".toList ++ Nat.toDigits 10 ranges.length ++
        "), expected pairs of action and document lines".toList))
    else (itemIndices.mapM (selectItem payload ranges)).map List.flatten

def IsDocument (document : List UInt8) : Prop :=
  ∃ action body, document = action ++ newline :: (body ++ [newline]) ∧ newline ∉ action ∧ newline ∉ body ∧
    isBlank (action ++ [newline]) = false ∧ isBlank (body ++ [newline]) = false

theorem serializeRow_isDocument {formatters : Formatters} (plain : formatters.SingleLine) {unpackAttributes : Bool}
    {fields : List (List UInt8)} {row : List Cell} {rowBuf : List UInt8}
    (serialized : serializeRow formatters unpackAttributes fields row = .ok rowBuf)
    (names : ∀ name ∈ writtenNames (fields.zip row), newline ∉ name) : IsDocument rowBuf := by
  obtain ⟨body, breaks, rfl⟩ := serializeRow_lines plain serialized
  have singleLine : newline ∉ body := by
    intro member
    obtain ⟨name, written, inName⟩ := breaks.mp member
    exact names name written inName
  refine ⟨ascii "\x7b\"create\":\x7b\x7d\x7d", [123] ++ body ++ [125], ?_, by decide, ?_, by decide, ?_⟩
  · have action : bulkAction = ascii "\x7b\"create\":\x7b\x7d\x7d" ++ [newline] := by decide
    rw [action]
    simp
  · simp only [List.mem_append, not_or]
    exact ⟨⟨by decide, singleLine⟩, by decide⟩
  · have brace : ((123 : UInt8) == carriageReturn || (123 : UInt8) == newline || (123 : UInt8) == 32 ||
        (123 : UInt8) == 9) = false := by decide
    rw [isBlank, List.append_assoc, List.append_assoc, List.singleton_append, List.all_cons, brace, Bool.false_and]

theorem IsDocument.getLast {document : List UInt8} (valid : IsDocument document) :
    document.getLast? = some newline := by
  obtain ⟨action, body, rfl, -⟩ := valid
  simp [List.getLast?_append, List.getLast?_cons]

theorem scanLines_line (text rest : List UInt8) (lineStart : Nat) (line : List UInt8) (singleLine : newline ∉ text)
    (written : isBlank (line ++ text ++ [newline]) = false) :
    scanLines (text ++ newline :: rest) lineStart line =
      (lineStart, lineStart + (line ++ text).length + 1) ::
        scanLines rest (lineStart + (line ++ text).length + 1) [] := by
  induction text generalizing line with
  | nil =>
    rw [List.append_nil] at written
    rw [List.nil_append, scanLines, if_pos rfl, lineRange, written]
    simp [Nat.add_assoc]
  | cons byte text ih =>
    have noBreak : byte ≠ newline := fun same => singleLine (same ▸ List.mem_cons_self)
    have remaining : newline ∉ text := fun member => singleLine (List.mem_cons_of_mem _ member)
    rw [List.cons_append, scanLines, if_neg noBreak, ih (line ++ [byte]) remaining (by simpa using written)]
    simp

theorem scanLines_document {document : List UInt8} (valid : IsDocument document) (rest : List UInt8)
    (lineStart : Nat) :
    ∃ middle, scanLines (document ++ rest) lineStart [] =
      (lineStart, middle) :: (middle, lineStart + document.length) ::
        scanLines rest (lineStart + document.length) [] := by
  obtain ⟨action, body, rfl, actionLine, bodyLine, actionText, bodyText⟩ := valid
  refine ⟨lineStart + action.length + 1, ?_⟩
  have size : lineStart + (action ++ newline :: (body ++ [newline])).length =
      lineStart + action.length + 1 + body.length + 1 := by
    simp
    omega
  have first := scanLines_line action (body ++ newline :: rest) lineStart [] actionLine (by simpa using actionText)
  have second := scanLines_line body rest (lineStart + action.length + 1) [] bodyLine (by simpa using bodyText)
  simp only [List.nil_append] at first second
  rw [size, ← second, ← first]
  simp

theorem scanLines_documents {documents : List (List UInt8)} (valid : ∀ document ∈ documents, IsDocument document)
    (lineStart : Nat) :
    (scanLines documents.flatten lineStart []).length = 2 * documents.length ∧
      ∀ idx < documents.length, ∃ actionEnd docStart,
        (scanLines documents.flatten lineStart [])[2 * idx]? =
          some (lineStart + (documents.take idx).flatten.length, actionEnd) ∧
        (scanLines documents.flatten lineStart [])[2 * idx + 1]? =
          some (docStart, lineStart + (documents.take (idx + 1)).flatten.length) := by
  induction documents generalizing lineStart with
  | nil =>
    constructor
    · simp [scanLines, lineRange, isBlank]
    · simp
  | cons document rest ih =>
    have others : ∀ document ∈ rest, IsDocument document := fun document member =>
      valid document (List.mem_cons_of_mem _ member)
    obtain ⟨paired, spans⟩ := ih others (lineStart + document.length)
    obtain ⟨middle, scanned⟩ := scanLines_document (valid document List.mem_cons_self) rest.flatten lineStart
    rw [List.flatten_cons, scanned]
    constructor
    · simp only [List.length_cons, paired]
      omega
    · intro idx bound
      cases idx with
      | zero => exact ⟨middle, middle, by simp, by simp⟩
      | succ idx =>
        obtain ⟨actionEnd, docStart, action, doc⟩ := spans idx (by simpa using bound)
        refine ⟨actionEnd, docStart, ?_, ?_⟩
        · rw [Nat.mul_succ, List.getElem?_cons_succ, List.getElem?_cons_succ, action]
          simp [Nat.add_assoc]
        · rw [Nat.mul_succ, show 2 * idx + 2 + 1 = 2 * idx + 1 + 2 by omega, List.getElem?_cons_succ,
            List.getElem?_cons_succ, doc]
          simp [Nat.add_assoc]

theorem slice_flatten {documents : List (List UInt8)} {idx : Nat} (bound : idx < documents.length) :
    slice (documents.take idx).flatten.length
      ((documents.take (idx + 1)).flatten.length - (documents.take idx).flatten.length) documents.flatten =
        documents.get ⟨idx, bound⟩ := by
  have split : documents.flatten =
      (documents.take idx).flatten ++ (documents.get ⟨idx, bound⟩ ++ (documents.drop (idx + 1)).flatten) := by
    conv_lhs => rw [← List.take_append_drop idx documents, List.drop_eq_getElem_cons bound]
    rw [List.flatten_append, List.flatten_cons]
    rfl
  have size : (documents.take (idx + 1)).flatten.length =
      (documents.take idx).flatten.length + (documents.get ⟨idx, bound⟩).length := by
    rw [List.take_succ_eq_append_getElem bound, List.flatten_append, List.length_append, List.flatten_singleton]
    rfl
  rw [size, Nat.add_sub_cancel_left, split]
  exact slice_append rfl rfl

theorem selectItem_document {documents : List (List UInt8)} (valid : ∀ document ∈ documents, IsDocument document)
    {idx : Nat} (bound : idx < documents.length) :
    selectItem documents.flatten (lineRanges documents.flatten) idx = .ok (documents.getD idx []) := by
  obtain ⟨paired, spans⟩ := scanLines_documents valid 0
  obtain ⟨actionEnd, docStart, action, doc⟩ := spans idx bound
  have inside : ¬ (lineRanges documents.flatten).length / 2 ≤ idx := by
    rw [lineRanges, paired]
    omega
  rw [selectItem, if_neg inside, lineRanges, action, doc]
  simp only [Nat.zero_add]
  rw [slice_flatten bound]
  have last := (valid _ (List.get_mem documents ⟨idx, bound⟩)).getLast
  rw [if_pos last, List.getD_eq_getElem?_getD, List.getElem?_eq_getElem bound]
  rfl

theorem mapM_selectItem {documents : List (List UInt8)} (valid : ∀ document ∈ documents, IsDocument document)
    {indices : List Nat} (bounds : ∀ idx ∈ indices, idx < documents.length) :
    indices.mapM (selectItem documents.flatten (lineRanges documents.flatten)) =
      .ok (indices.map fun idx => documents.getD idx []) := by
  induction indices with
  | nil => rfl
  | cons idx rest ih =>
    rw [List.mapM_cons, selectItem_document valid (bounds idx List.mem_cons_self),
      ih fun other member => bounds other (List.mem_cons_of_mem _ member)]
    rfl

theorem extractSubPayload_documents {documents : List (List UInt8)}
    (valid : ∀ document ∈ documents, IsDocument document) {indices : List Nat}
    (bounds : ∀ idx ∈ indices, idx < documents.length) :
    extractSubPayload documents.flatten indices = .ok (indices.map fun idx => documents.getD idx []).flatten := by
  unfold extractSubPayload
  by_cases none : indices = []
  · simp [none]
  · obtain ⟨paired, -⟩ := scanLines_documents valid 0
    have even : ¬ (lineRanges documents.flatten).length % 2 ≠ 0 := by
      rw [lineRanges, paired]
      omega
    simp only [if_neg none, if_neg even, mapM_selectItem valid bounds, Except.map]

theorem scanLines_length_start (text : List UInt8) (lineStart : Nat) (line : List UInt8) :
    (scanLines text lineStart line).length = (scanLines text 0 line).length := by
  induction text generalizing lineStart line with
  | nil =>
    unfold scanLines lineRange
    split <;> rfl
  | cons byte rest ih =>
    unfold scanLines
    by_cases lineBreak : byte = newline
    · simp only [if_pos lineBreak, List.length_append]
      rw [ih (lineStart + (line.length + 1)), ih (0 + (line.length + 1))]
      unfold lineRange
      split <;> rfl
    · simp only [if_neg lineBreak]
      rw [ih lineStart]

theorem isBlank_append (first second : List UInt8) : isBlank (first ++ second) = (isBlank first && isBlank second) := by
  unfold isBlank
  exact List.all_append

theorem scanLines_length_le (text rest : List UInt8) (lineStart : Nat) (line : List UInt8) :
    (scanLines rest 0 []).length + (if isBlank (line ++ text) then 0 else 1) ≤
      (scanLines (text ++ newline :: rest) lineStart line).length := by
  have ended : isBlank [newline] = true := by decide
  induction text generalizing lineStart line with
  | nil =>
    rw [List.nil_append, List.append_nil, scanLines, if_pos rfl, List.length_append,
      scanLines_length_start rest (lineStart + (line.length + 1))]
    unfold lineRange
    rw [isBlank_append, ended, Bool.and_true]
    by_cases blank : isBlank line = true
    · simp [blank]
    · simp [blank, Nat.add_comm]
  | cons byte text ih =>
    rw [List.cons_append, scanLines]
    by_cases lineBreak : byte = newline
    · rw [if_pos lineBreak, List.length_append]
      have later := ih (lineStart + (line.length + 1)) []
      have whole : isBlank (line ++ byte :: text) = (isBlank line && isBlank text) := by
        rw [isBlank_append, ← List.singleton_append, isBlank_append, lineBreak, ended, Bool.true_and]
      rw [whole]
      unfold lineRange
      rw [isBlank_append, lineBreak, ended, Bool.and_true]
      rw [List.nil_append] at later
      by_cases blank : isBlank line = true
      · simpa [blank] using later
      · have blankLine : isBlank line = false := Bool.eq_false_iff.mpr blank
        simp only [blankLine, Bool.false_and, Bool.false_eq_true, if_false, List.length_singleton]
        omega
    · rw [if_neg lineBreak]
      have later := ih lineStart (line ++ [byte])
      rwa [List.append_assoc, List.singleton_append] at later

theorem isBlank_false_of_mem {line : List UInt8} (byte : UInt8) (member : byte ∈ line) (ink : isBlank [byte] = false) :
    isBlank line = false := by
  obtain ⟨before, after, rfl⟩ := List.append_of_mem member
  rw [isBlank_append, ← List.singleton_append, isBlank_append, ink]
  simp

theorem scanLines_serializeRow {formatters : Formatters} (plain : formatters.SingleLine) {unpackAttributes : Bool}
    {fields : List (List UInt8)} {row : List Cell} {rowBuf : List UInt8}
    (serialized : serializeRow formatters unpackAttributes fields row = .ok rowBuf) (rest : List UInt8) :
    (scanLines rest 0 []).length + 2 ≤ (scanLines (rowBuf ++ rest) 0 []).length ∧
      ((∃ name ∈ writtenNames (fields.zip row), newline ∈ name) →
        (scanLines rest 0 []).length + 3 ≤ (scanLines (rowBuf ++ rest) 0 []).length) := by
  obtain ⟨body, breaks, rfl⟩ := serializeRow_lines plain serialized
  have action : bulkAction = ascii "\x7b\"create\":\x7b\x7d\x7d" ++ [newline] := by decide
  have actionInk : isBlank (ascii "\x7b\"create\":\x7b\x7d\x7d") = false := by decide
  have shape : bulkAction ++ ([123] ++ body ++ [125]) ++ [newline] ++ rest =
      ascii "\x7b\"create\":\x7b\x7d\x7d" ++ newline :: (([123] ++ body ++ [125]) ++ newline :: rest) := by
    rw [action]
    simp
  rw [shape]
  have first := scanLines_length_le (ascii "\x7b\"create\":\x7b\x7d\x7d")
    (([123] ++ body ++ [125]) ++ newline :: rest) 0 []
  rw [List.nil_append, actionInk, if_neg Bool.false_ne_true] at first
  constructor
  · have second := scanLines_length_le ([123] ++ body ++ [125]) rest 0 []
    have ink : isBlank ([123] ++ body ++ [125]) = false := isBlank_false_of_mem 123 (by simp) (by decide)
    rw [List.nil_append, ink, if_neg Bool.false_ne_true] at second
    omega
  · intro named
    obtain ⟨before, after, rfl⟩ := List.append_of_mem (breaks.mpr named)
    have split : ([123] ++ (before ++ newline :: after) ++ [125]) ++ newline :: rest =
        ([123] ++ before) ++ newline :: ((after ++ [125]) ++ newline :: rest) := by simp
    rw [split] at first ⊢
    have second := scanLines_length_le ([123] ++ before) ((after ++ [125]) ++ newline :: rest) 0 []
    have third := scanLines_length_le (after ++ [125]) rest 0 []
    have inkSecond : isBlank ([123] ++ before) = false := isBlank_false_of_mem 123 (by simp) (by decide)
    have inkThird : isBlank (after ++ [125]) = false := isBlank_false_of_mem 125 (by simp) (by decide)
    rw [List.nil_append, inkSecond, if_neg Bool.false_ne_true] at second
    rw [List.nil_append, inkThird, if_neg Bool.false_ne_true] at third
    omega

end OtelDatalake.Elasticsearch
