import OtelDatalake.Elasticsearch.Escaping
import OtelDatalake.Foundation.JsonObject

open OtelDatalake.Foundation

namespace OtelDatalake.Elasticsearch

/-- What the third-party formatters write: a time is plain text, a finite float a JSON number, and `serde_json` reads
    JSON texts only and writes their value as it holds it, by `normalise`. -/
structure Formatters.SpellsJson (formatters : Formatters) (normalise : Json → Json) : Prop where
  timestamp : ∀ secs nanos bytes, formatters.formatTimestamp secs nanos = some bytes →
    ∃ text, bytes = utf8 text ∧ ∀ c ∈ text, Json.IsPlain c
  float32 : ∀ bits bytes, formatters.formatFloat32 bits = some bytes →
    ∃ text, bytes = utf8 text ∧ Json.scanNumber text = some (text, [])
  float64 : ∀ bits bytes, formatters.formatFloat64 bits = some bytes →
    ∃ text, bytes = utf8 text ∧ Json.scanNumber text = some (text, [])
  json : ∀ value compact, formatters.reformatJson value = some compact → ∃ text spelled json, value = utf8 text ∧
    compact = utf8 spelled ∧ Json.parse text = some json ∧ Json.parse spelled = some (normalise json)
  display : ∀ value bytes, formatters.arrayFormatter value = .ok bytes → ∃ text, bytes = utf8 text

/-- The names and the strings of a batch are UTF-8, as those of Arrow are. -/
structure Table.IsText (batch : Table) : Prop where
  names : ∀ name ∈ batch.fields, ∃ text, name = utf8 text
  strings : ∀ row ∈ batch.rows, ∀ value, Cell.utf8 value ∈ row → ∃ text, value = utf8 text

def TimeUnit.perSecond : TimeUnit → Int
  | .second => 1
  | .millisecond => 1000
  | .microsecond => 1000000
  | .nanosecond => 1000000000

def IsUnpacked (formatters : Formatters) (unpackJson : Bool) (value : List UInt8) : Prop :=
  unpackJson = true ∧ (value.head? = some 123 ∨ value.head? = some 91) ∧ (formatters.reformatJson value).isSome = true

def Spelled (make : List Char → Json) : Option (List UInt8) → Json → Prop
  | some bytes, json => ∃ text, bytes = utf8 text ∧ json = make text
  | none, json => json = .null

def Carries (formatters : Formatters) (normalise : Json → Json) (unpackJson : Bool) : Cell → Json → Prop
  | .null, json => json = .null
  | .nullType, json => json = .null
  | .boolean value, json => json = .bool value
  | .integer value, json => json = .number (toString value).toList
  | .timestamp unit value, json => Spelled .string (formatters.formatTimestamp (value / unit.perSecond)
      (value % unit.perSecond * (1000000000 / unit.perSecond)).toNat) json
  | .utf8 value, json => ∃ text, value = utf8 text ∧
    (IsUnpacked formatters unpackJson value → ∃ spelled, Json.parse text = some spelled ∧
      json = if newline ∈ value ∨ carriageReturn ∈ value then normalise spelled else spelled) ∧
    (¬IsUnpacked formatters unpackJson value → json = .string text)
  | .float32 bits, json => Spelled .number (formatters.formatFloat32 bits) json
  | .float64 bits, json => Spelled .number (formatters.formatFloat64 bits) json
  | .other value, json => ∃ text, formatters.arrayFormatter value = .ok (utf8 text) ∧ json = .string text

/-- A row is the action line and one line with a JSON object, which has one member for each cell that is not null and
    no two members of one name. -/
def RowWellFormed (formatters : Formatters) (normalise : Json → Json) (unpackAttributes : Bool)
    (cells : List (List UInt8 × Cell)) (rowBuf : List UInt8) : Prop :=
  ∃ line text members, rowBuf = bulkAction ++ line ++ [newline] ∧ newline ∉ line ∧ decodeUtf8 line = some text ∧
    Json.parse text = some (.object members) ∧ (members.map Prod.fst).Nodup ∧
      List.Forall₂ (fun entry member => utf8 member.1 = outputName entry.1 ∧
        Carries formatters normalise (unpackAttributes && isAttrField entry.1) entry.2 member.2)
          (cells.filter fun entry => entry.2 ≠ .null) members

def PlainName (name : List UInt8) : Prop := ∀ byte ∈ name, byte ≠ 34 ∧ byte ≠ 92 ∧ 32 ≤ byte

theorem plainName_utf8EncodeChar (c : Char) : PlainName (String.utf8EncodeChar c) ↔ Json.IsPlain c := by
  rcases Nat.lt_or_ge c.toNat 128 with low | high
  · have every : ∀ n < 128,
        (UInt8.ofNat n ≠ 34 ∧ UInt8.ofNat n ≠ 92 ∧ 32 ≤ UInt8.ofNat n) ↔ Json.IsPlain (Char.ofNat n) := by
      decide +kernel
    have own := every c.toNat low
    rw [Char.ofNat_toNat] at own
    rw [utf8EncodeChar_low low, PlainName, List.forall_mem_singleton, own]
  · have other {special : Char} (ascii : special.toNat < 128) : c ≠ special := by
      rintro rfl
      omega
    refine iff_of_true (fun byte member => ?_) ⟨other (by decide), other (by decide), by omega⟩
    have large := UInt8.le_iff_toNat_le.mp (utf8EncodeChar_high high byte member)
    have bound : (128 : UInt8).toNat = 128 := rfl
    refine ⟨?_, ?_, UInt8.le_iff_toNat_le.mpr ?_⟩
    · rintro rfl
      exact absurd large (by decide)
    · rintro rfl
      exact absurd large (by decide)
    · have small : (32 : UInt8).toNat = 32 := rfl
      omega

theorem plainName_utf8 (text : List Char) : PlainName (utf8 text) ↔ ∀ c ∈ text, Json.IsPlain c := by
  constructor
  · intro plain c member
    refine (plainName_utf8EncodeChar c).mp fun byte inside => plain byte ?_
    exact List.mem_flatMap.mpr ⟨c, member, inside⟩
  · intro plain byte member
    obtain ⟨c, listed, inside⟩ := List.mem_flatMap.mp member
    exact (plainName_utf8EncodeChar c).mpr (plain c listed) byte inside

theorem plainName_outputName (name : List UInt8) : PlainName (outputName name) ↔ PlainName name := by
  unfold outputName
  by_cases timestamp : name = ascii "timestamp"
  · rw [if_pos timestamp, timestamp]
    have plain : ∀ byte ∈ ascii "timestamp", byte ≠ 34 ∧ byte ≠ 92 ∧ 32 ≤ byte := by simp [ascii]
    have renamed : ∀ byte ∈ ascii "@timestamp", byte ≠ 34 ∧ byte ≠ 92 ∧ 32 ≤ byte := by simp [ascii]
    exact iff_of_true renamed plain
  · rw [if_neg timestamp]

theorem PlainName.singleLine {name : List UInt8} (plain : PlainName name) : newline ∉ name :=
  fun member => absurd (plain newline member).2.2 (by decide)

theorem outputName_utf8 {name : List UInt8} (text : ∃ text, name = utf8 text) : ∃ text, outputName name = utf8 text := by
  unfold outputName
  by_cases timestamp : name = ascii "timestamp"
  · rw [if_pos timestamp]
    exact ⟨"@timestamp".toList, by decide⟩
  · rw [if_neg timestamp]
    exact text

theorem ascii_utf8 {text : String} (low : ∀ c ∈ text.toList, c.toNat < 128) : ascii text = utf8 text.toList :=
  (utf8_of_low low).symm

theorem escapeChar_plain {c : Char} (plain : Json.IsPlain c) : escapeChar c = [c] := by
  obtain ⟨quote, backslash, printable⟩ := plain
  have other {special : Char} (control : special.toNat < 32) : c ≠ special := by
    rintro rfl
    omega
  rw [escapeChar, if_neg quote, if_neg backslash, if_neg (other (by decide)), if_neg (other (by decide)),
    if_neg (other (by decide)), if_neg (by omega)]

theorem literal_plain {text : List Char} (plain : ∀ c ∈ text, Json.IsPlain c) : literal text = '"' :: text ++ ['"'] := by
  have same : text.flatMap escapeChar = text.flatMap fun c => [c] :=
    List.flatMap_congr fun c member => escapeChar_plain (plain c member)
  rw [literal, same, List.flatMap_singleton']

theorem itoa_utf8 (value : Int) : itoa value = utf8 (toString value).toList := by
  have digits (n : Nat) : ∀ c ∈ Nat.toDigits 10 n, c.toNat < 128 := by
    intro c member
    have digit := Nat.isDigit_of_mem_toDigits (by decide) (by decide) member
    simp only [Char.isDigit, Bool.and_eq_true, decide_eq_true_eq] at digit
    have high : c.toNat ≤ 57 := digit.2
    omega
  rw [Int.toString_eq_repr]
  cases value with
  | ofNat n =>
    have text : (Int.repr (.ofNat n)).toList = Nat.toDigits 10 n := by simp [Int.repr]
    rw [text, utf8_of_low (digits n)]
    rfl
  | negSucc n =>
    have text : (Int.repr (.negSucc n)).toList = '-' :: Nat.toDigits 10 (n + 1) := by simp [Int.repr]
    rw [text, utf8_cons, utf8_of_low (digits (n + 1))]
    rfl

theorem writeTimestampCol_eq (formatters : Formatters) (unit : TimeUnit) (value : Int) :
    writeTimestampCol formatters unit value = writeTimestamp formatters (value / unit.perSecond)
      (value % unit.perSecond * (1000000000 / unit.perSecond)).toNat := by
  cases unit <;> simp [writeTimestampCol, TimeUnit.perSecond]

def Writes (carried : Json → Prop) (bytes : List UInt8) : Prop :=
  ∃ text json, bytes = utf8 text ∧ Json.parse text = some json ∧ carried json

theorem writes_ascii {carried : Json → Prop} {text : String} {json : Json} (low : ∀ c ∈ text.toList, c.toNat < 128)
    (parsed : Json.parse text.toList = some json) (own : carried json) : Writes carried (ascii text) :=
  ⟨text.toList, json, ascii_utf8 low, parsed, own⟩

theorem writes_null {carried : Json → Prop} (own : carried .null) : Writes carried (ascii "null") :=
  writes_ascii (by simp) rfl own

theorem writes_string {carried : Json → Prop} {text : List Char} (own : carried (.string text)) :
    Writes carried (writeEscapedString (utf8 text)) :=
  ⟨literal text, .string text, writeEscapedString_utf8 text, parse_literal text, own⟩

theorem writes_number {carried : Json → Prop} {text : List Char} (number : Json.scanNumber text = some (text, []))
    (own : carried (.number text)) : Writes carried (utf8 text) :=
  ⟨text, .number text, rfl, Json.parse_number number, own⟩

theorem writeFloat_writes {formatted : Option (List UInt8)}
    (number : ∀ bytes, formatted = some bytes → ∃ text, bytes = utf8 text ∧ Json.scanNumber text = some (text, [])) :
    Writes (Spelled .number formatted) (writeFloat formatted) := by
  cases formatted with
  | none => exact writes_null rfl
  | some bytes =>
    obtain ⟨text, rfl, scanned⟩ := number bytes rfl
    exact writes_number scanned ⟨text, rfl, rfl⟩

section Values

variable {formatters : Formatters} {normalise : Json → Json} (spells : formatters.SpellsJson normalise)
include spells

theorem writeTimestampCol_writes (unit : TimeUnit) (value : Int) (unpackJson : Bool) :
    Writes (Carries formatters normalise unpackJson (.timestamp unit value))
      (writeTimestampCol formatters unit value) := by
  show Writes (Spelled .string _) _
  rw [writeTimestampCol_eq, writeTimestamp]
  split
  · rename_i bytes formatted
    rw [formatted]
    obtain ⟨text, rfl, plain⟩ := spells.timestamp _ _ _ formatted
    have quoted : [34] ++ utf8 text ++ [34] = utf8 (literal text) := by
      rw [literal_plain plain, utf8_append, utf8_cons]
      rfl
    exact ⟨literal text, .string text, quoted, parse_literal text, text, rfl, rfl⟩
  · rename_i formatted
    rw [formatted]
    exact writes_null rfl

theorem writeStringCol_writes {value : List UInt8} (isText : ∃ text, value = utf8 text) (unpackJson : Bool) :
    Writes (Carries formatters normalise unpackJson (.utf8 value)) (writeStringCol formatters value unpackJson) := by
  obtain ⟨own, rfl⟩ := isText
  by_cases unpacked : IsUnpacked formatters unpackJson (utf8 own)
  · obtain ⟨wanted, start, readable⟩ := unpacked
    obtain ⟨compact, reformatted⟩ := Option.isSome_iff_exists.mp readable
    obtain ⟨text, spelled, json, same, rfl, raw, normal⟩ := spells.json _ _ reformatted
    obtain rfl := utf8_inj.mp same
    have opens : (unpackJson && ((utf8 own).head? == some 123 || (utf8 own).head? == some 91)) = true := by
      simpa [wanted] using start
    have carries {result : Json} (holds : result = if newline ∈ utf8 own ∨ carriageReturn ∈ utf8 own then normalise json
        else json) : Carries formatters normalise unpackJson (.utf8 (utf8 own)) result :=
      ⟨own, rfl, fun _ => ⟨json, raw, holds⟩, fun other => absurd ⟨wanted, start, readable⟩ other⟩
    rw [writeStringCol, if_pos opens]
    by_cases broken : newline ∈ utf8 own ∨ carriageReturn ∈ utf8 own
    · rw [if_pos (by simpa using broken), reformatted]
      exact ⟨spelled, normalise json, rfl, normal, carries (if_pos broken).symm⟩
    · rw [if_neg (by simpa using broken), if_pos readable]
      exact ⟨own, json, rfl, raw, carries (if_neg broken).symm⟩
  · have escaped : Writes (Carries formatters normalise unpackJson (.utf8 (utf8 own))) (writeEscapedString (utf8 own)) :=
      writes_string ⟨own, rfl, fun other => absurd other unpacked, fun _ => rfl⟩
    unfold writeStringCol
    split
    · rename_i opens
      have unreadable : formatters.reformatJson (utf8 own) = none := by
        rw [← Option.not_isSome_iff_eq_none]
        intro readable
        refine unpacked ⟨?_, ?_, readable⟩
        · exact (Bool.and_eq_true_iff.mp opens).1
        · simpa using (Bool.and_eq_true_iff.mp opens).2
      rw [unreadable]
      split
      · exact escaped
      · exact escaped
    · exact escaped

theorem writeValue_writes {unpackJson : Bool} {cell : Cell}
    (isText : ∀ value, cell = .utf8 value → ∃ text, value = utf8 text)
    {bytes : List UInt8} (written : writeValue formatters unpackJson cell = .ok bytes) :
    Writes (Carries formatters normalise unpackJson cell) bytes := by
  cases cell with
  | null | nullType =>
    cases written
    exact writes_null rfl
  | timestamp unit value =>
    cases written
    exact writeTimestampCol_writes spells unit value unpackJson
  | utf8 value =>
    cases written
    exact writeStringCol_writes spells (isText value rfl) unpackJson
  | boolean value =>
    cases written
    cases value with
    | true => exact writes_ascii (by simp) rfl rfl
    | false => exact writes_ascii (by simp) rfl rfl
  | integer value =>
    cases written
    have plain : Json.Plain (.number (toString value).toList) := Json.isDecimal_toString value
    exact ⟨(toString value).toList, .number (toString value).toList, itoa_utf8 value, Json.parse_render plain, rfl⟩
  | float32 bits =>
    cases written
    exact writeFloat_writes fun bytes formatted => spells.float32 bits bytes formatted
  | float64 bits =>
    cases written
    exact writeFloat_writes fun bytes formatted => spells.float64 bits bytes formatted
  | other value =>
    cases formatted : formatters.arrayFormatter value with
    | error reason => simp [writeValue, formatted, Except.map] at written
    | ok display =>
      simp only [writeValue, formatted, Except.map, Except.ok.injEq] at written
      subst written
      obtain ⟨text, rfl⟩ := spells.display _ _ formatted
      exact writes_string ⟨text, formatted, rfl⟩

end Values

end OtelDatalake.Elasticsearch
