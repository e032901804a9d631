import OtelDatalake.Elasticsearch.Serializer
import OtelDatalake.Foundation.Json
import OtelDatalake.Foundation.Utf8

open OtelDatalake.Foundation

namespace OtelDatalake.Elasticsearch

def escapeChar (c : Char) : List Char :=
  if c = '"' then ['\\', '"']
  else if c = '\\' then ['\\', '\\']
  else if c = '\n' then ['\\', 'n']
  else if c = '\r' then ['\\', 'r']
  else if c = '\t' then ['\\', 't']
  else if c.toNat < 32 then '\\' :: 'u' :: hexDigits 4 c.toNat
  else [c]

def literal (text : List Char) : List Char := '"' :: text.flatMap escapeChar ++ ['"']

theorem escapeByte_low : ∀ n < 128, escapeByte (UInt8.ofNat n) = utf8 (escapeChar (Char.ofNat n)) := by decide +kernel

theorem escapeByte_high {byte : UInt8} (high : 128 ≤ byte) : escapeByte byte = [byte] := by
  have every : ∀ n : Fin 256, 128 ≤ UInt8.ofFin n → escapeByte (UInt8.ofFin n) = [UInt8.ofFin n] := by decide +kernel
  exact every byte.toFin high

theorem escapeChar_high {c : Char} (high : 128 ≤ c.toNat) : escapeChar c = [c] := by
  have other {special : Char} (low : special.toNat < 128) : c ≠ special := by
    rintro rfl
    omega
  rw [escapeChar, if_neg (other (by decide)), if_neg (other (by decide)), if_neg (other (by decide)),
    if_neg (other (by decide)), if_neg (other (by decide)), if_neg (by omega)]

theorem escapeByte_utf8 (c : Char) : (String.utf8EncodeChar c).flatMap escapeByte = utf8 (escapeChar c) := by
  rcases Nat.lt_or_ge c.toNat 128 with low | high
  · have escaped := escapeByte_low c.toNat low
    rw [Char.ofNat_toNat] at escaped
    rw [utf8EncodeChar_low low, List.flatMap_singleton, escaped]
  · have each : (String.utf8EncodeChar c).flatMap escapeByte = (String.utf8EncodeChar c).flatMap fun byte => [byte] :=
      List.flatMap_congr fun byte member => escapeByte_high (utf8EncodeChar_high high byte member)
    rw [each, List.flatMap_singleton', escapeChar_high high, utf8_cons]
    exact (List.append_nil _).symm

theorem writeEscapedString_utf8 (text : List Char) : writeEscapedString (utf8 text) = utf8 (literal text) := by
  have body : (utf8 text).flatMap escapeByte = utf8 (text.flatMap escapeChar) := by
    rw [utf8, List.flatMap_assoc, utf8_flatMap]
    exact List.flatMap_congr fun c _ => escapeByte_utf8 c
  rw [writeEscapedString, body, literal, utf8_append, utf8_cons]
  rfl

theorem escapeChar_spells (c : Char) : Json.Spells (escapeChar c) c := by
  unfold escapeChar
  split
  · rename_i same
    exact Json.spells_short (by rw [same]; rfl) (by decide)
  · rename_i notQuote
    split
    · rename_i same
      exact Json.spells_short (by rw [same]; rfl) (by decide)
    · rename_i notBackslash
      split
      · rename_i same
        exact Json.spells_short (by rw [same]; rfl) (by decide)
      · split
        · rename_i same
          exact Json.spells_short (by rw [same]; rfl) (by decide)
        · split
          · rename_i same
            exact Json.spells_short (by rw [same]; rfl) (by decide)
          · split
            · rename_i small
              exact Json.spells_unicode small
            · rename_i large
              exact Json.spells_self notQuote notBackslash large

theorem parse_literal (text : List Char) : Json.parse (literal text) = some (.string text) := by
  have read : Json.parseValue (2 * (literal text).length + 2) (literal text ++ []) = some (.string text, []) :=
    Json.parseValue_spelled escapeChar_spells text [] _
  rw [List.append_nil] at read
  rw [Json.parse, read]
  rfl

theorem escapeChar_printable (c : Char) : ∀ d ∈ escapeChar c, 32 ≤ d.toNat := by
  have low : ∀ n < 128, (escapeChar (Char.ofNat n)).all (fun d => 32 ≤ d.toNat) = true := by decide +kernel
  rcases Nat.lt_or_ge c.toNat 128 with small | high
  · have printable := low c.toNat small
    rw [Char.ofNat_toNat, List.all_eq_true] at printable
    exact fun d member => of_decide_eq_true (printable d member)
  · rw [escapeChar_high high]
    intro d member
    rw [List.mem_singleton.mp member]
    omega

theorem bare_escapeChar (c : Char) :
    ∃ front, '"' ∉ front ∧ ∀ rest, Json.bare (escapeChar c ++ rest) = front ++ Json.bare rest := by
  unfold escapeChar
  split
  · exact ⟨[], List.not_mem_nil, fun _ => rfl⟩
  · rename_i notQuote
    split
    · exact ⟨[], List.not_mem_nil, fun _ => rfl⟩
    · rename_i notBackslash
      split
      · exact ⟨[], List.not_mem_nil, fun _ => rfl⟩
      · split
        · exact ⟨[], List.not_mem_nil, fun _ => rfl⟩
        · split
          · exact ⟨[], List.not_mem_nil, fun _ => rfl⟩
          · split
            · rename_i small
              have digits : ∀ n < 32, '"' ∉ hexDigits 4 n ∧ '\\' ∉ hexDigits 4 n := by decide
              exact ⟨hexDigits 4 c.toNat, (digits _ small).1, fun rest => Json.bare_append (digits _ small).2 rest⟩
            · have bare : '\\' ∉ [c] := by simpa using Ne.symm notBackslash
              exact ⟨[c], by simpa using Ne.symm notQuote, fun rest => Json.bare_append bare rest⟩

theorem bare_escaped (text : List Char) : '"' ∉ Json.bare (text.flatMap escapeChar) := by
  induction text with
  | nil => exact List.not_mem_nil
  | cons c text ih =>
    obtain ⟨front, free, same⟩ := bare_escapeChar c
    rw [List.flatMap_cons, same, List.mem_append, not_or]
    exact ⟨free, ih⟩

/-- What is written is a JSON string for the text, without a control character and with every quote of the text behind
a backslash. -/
theorem writeEscapedString_decodes (text : List Char) :
    ∃ body, decodeUtf8 (writeEscapedString (utf8 text)) = some ('"' :: body ++ ['"']) ∧
      Json.parse ('"' :: body ++ ['"']) = some (.string text) ∧ '"' ∉ Json.bare body ∧ ∀ c ∈ body, 32 ≤ c.toNat := by
  refine ⟨text.flatMap escapeChar, ?_, parse_literal text, bare_escaped text, ?_⟩
  · rw [writeEscapedString_utf8, decodeUtf8_utf8, literal]
  · intro c member
    obtain ⟨d, _, inside⟩ := List.mem_flatMap.mp member
    exact escapeChar_printable d c inside

end OtelDatalake.Elasticsearch
