import OtelDatalake.Foundation.Json
import OtelDatalake.Codec.AttributeJson

open OtelDatalake.Foundation

namespace OtelDatalake.Codec

variable {F64 : Type} (format : FloatFormat F64)

def lastSet (attrs : List (KeyValue F64)) (key : Text) : Option (AnyValue F64) :=
  (attrs.reverse.find? fun attr => attr.key == key && attr.isSet).bind KeyValue.value

/-- What a value reads as in JSON: an object has one member for each key with a set value, and in it the last one. -/
inductive Denotes : AnyValue F64 → Json → Prop where
  | stringValue (text : Text) : Denotes (.stringValue text) (.string text)
  | boolValue (flag : Bool) : Denotes (.boolValue flag) (.bool flag)
  | intValue (number : Int) : Denotes (.intValue number) (.number (toString number).toList)
  | finite {number : F64} (finite : format.isFinite number = true) :
      Denotes (.doubleValue number) (.number (writeDouble format [] number))
  | nonFinite {number : F64} (nonFinite : format.isFinite number = false) : Denotes (.doubleValue number) .null
  | bytesValue (bytes : List UInt8) : Denotes (.bytesValue bytes) (.string (hexEncode bytes))
  | unset : Denotes .unset .null
  | other : Denotes .other .null
  | arrayValue {values : List (AnyValue F64)} {items : List Json} (denote : List.Forall₂ Denotes values items) :
      Denotes (.arrayValue values) (.array items)
  | kvlistValue {attrs : List (KeyValue F64)} {members : List (Text × Json)} (once : (members.map Prod.fst).Nodup)
      (keys : ∀ key, key ∈ members.map Prod.fst ↔ (lastSet attrs key).isSome = true)
      (denote : ∀ key value json, (key, json) ∈ members → lastSet attrs key = some value → Denotes value json) :
      Denotes (.kvlistValue attrs) (.object members)

mutual

def valueJson : AnyValue F64 → Json
  | .stringValue text => .string text
  | .intValue number => .number (toString number).toList
  | .doubleValue number => if format.isFinite number then .number (writeDouble format [] number) else .null
  | .boolValue flag => .bool flag
  | .bytesValue bytes => .string (hexEncode bytes)
  | .arrayValue values => .array (itemsJson values)
  | .kvlistValue attrs => .object (membersJson attrs)
  | .unset | .other => .null

def itemsJson : List (AnyValue F64) → List Json
  | [] => []
  | item :: rest => valueJson item :: itemsJson rest

def membersJson : List (KeyValue F64) → List (Text × Json)
  | [] => []
  | .mk _ none :: rest | .mk _ (some .unset) :: rest => membersJson rest
  | .mk key (some value) :: rest =>
    if rest.any fun later => later.key == key && later.isSet then membersJson rest
    else (key, valueJson value) :: membersJson rest

end

section Escaping

theorem escapeChar_plain {c : Char} (plain : (c == '"' || c == '\\' || decide (c.toNat < 32)) = false) :
    escapeChar c = [c] := by
  simp only [Bool.or_eq_false_iff, beq_eq_false_iff_ne, decide_eq_false_iff_not] at plain
  obtain ⟨⟨quote, backslash⟩, small⟩ := plain
  have control : ∀ other : Char, other.toNat < 32 → c ≠ other := by
    rintro other below rfl
    exact small below
  simp [escapeChar, quote, backslash, control '\n' (by decide), control '\r' (by decide), control '\t' (by decide),
    show c.toNat ≠ 8 by omega, show c.toNat ≠ 12 by omega, small]

theorem escapeJsonStr_eq (text buf : Text) : escapeJsonStr text buf = buf ++ text.flatMap Json.escape := by
  unfold escapeJsonStr
  split
  · rfl
  · rename_i plain
    have unescaped : text.flatMap escapeChar = text := by
      induction text with
      | nil => rfl
      | cons c rest ih =>
        simp only [List.any_cons, Bool.or_eq_true, not_or] at plain
        have first : (c == '"' || c == '\\' || decide (c.toNat < 32)) = false := by
          rw [Bool.eq_false_iff]
          simpa only [ne_eq, Bool.or_eq_true, not_or] using plain.1
        rw [List.flatMap_cons, escapeChar_plain first, ih (by simpa only [ne_eq, Bool.or_eq_true, not_or] using plain.2)]
        rfl
    show buf ++ text = buf ++ text.flatMap escapeChar
    rw [unescaped]

theorem quoted_eq (text buf : Text) : escapeJsonStr text (buf ++ ['"']) ++ ['"'] = buf ++ Json.quote text := by
  simp [escapeJsonStr_eq, Json.quote]

theorem escape_hexDigits (width n : Nat) : (hexDigits width n).flatMap Json.escape = hexDigits width n := by
  have digit : ∀ digit < 16, Json.escape (Nat.digitChar digit) = [Nat.digitChar digit] := by decide
  induction width generalizing n with
  | zero => rfl
  | succ width ih => simp [hexDigits, ih, digit _ (Nat.mod_lt n (by decide))]

theorem escape_hexEncode (bytes : List UInt8) : (hexEncode bytes).flatMap Json.escape = hexEncode bytes := by
  induction bytes with
  | nil => rfl
  | cons byte rest ih =>
    simp only [hexEncode, List.flatMap_cons, List.flatMap_append, escape_hexDigits] at ih ⊢
    rw [ih]

end Escaping

section Winners

theorem keepWinners_seen (attrs : List (KeyValue F64)) (key : Text) :
    (keepWinners attrs).2.contains key = attrs.any fun later => later.key == key && later.isSet := by
  induction attrs with
  | nil => rfl
  | cons attr rest ih =>
    rw [List.any_cons, ← ih]
    simp only [keepWinners]
    split
    · rename_i winner
      obtain ⟨set, _⟩ := (Bool.and_eq_true _ _).mp winner
      rw [List.contains_cons, set, Bool.and_true, BEq.comm]
    · rename_i loser
      cases set : attr.isSet with
      | false => simp
      | true =>
        rw [set, Bool.true_and, Bool.not_eq_true, Bool.not_eq_false'] at loser
        simp only [Bool.and_true]
        by_cases same : attr.key = key
        · rw [← same, loser, Bool.or_true]
        · simp [same]

theorem keepWinners_head {key : Text} {value : AnyValue F64} {rest : List (KeyValue F64)}
    (set : (KeyValue.mk key (some value)).isSet = true) :
    isOverwritten (some (keepWinners (.mk key (some value) :: rest)).1) key rest = isOverwritten none key rest := by
  have seen := keepWinners_seen rest key
  simp only [isOverwritten, ← seen, keepWinners, set, Bool.true_and]
  split
  · rename_i winner
    simpa [KeyValue.key] using winner
  · rename_i loser
    simpa [KeyValue.key] using loser

theorem keepWinners_tail (attr : KeyValue F64) (rest : List (KeyValue F64)) :
    (keepWinners (attr :: rest)).1.tail = (keepWinners rest).1 := by
  simp only [keepWinners]
  split <;> rfl

theorem writeEntriesJson_keepWinners (attrs : List (KeyValue F64)) (buf : Text) (first : Bool) :
    writeEntriesJson format buf (some (keepWinners attrs).1) first attrs =
      writeEntriesJson format buf none first attrs := by
  induction attrs generalizing buf first with
  | nil => simp [writeEntriesJson]
  | cons attr rest ih =>
    have later : ∀ buf first,
        writeEntriesJson format buf ((some (keepWinners (attr :: rest)).1).map List.tail) first rest =
        writeEntriesJson format buf ((none : Option (List Bool)).map List.tail) first rest := by
      intro buf first
      rw [Option.map_some, keepWinners_tail]
      exact ih buf first
    obtain ⟨key, value⟩ := attr
    rcases value with _ | value
    · rw [writeEntriesJson, writeEntriesJson]
      exact later buf first
    · cases value with
      | unset =>
        rw [writeEntriesJson, writeEntriesJson]
        exact later buf first
      | _ =>
        rw [writeEntriesJson, writeEntriesJson, keepWinners_head rfl, later, later]
        all_goals simp

theorem writeEntriesJson_keepMask (attrs : List (KeyValue F64)) (buf : Text) (first : Bool) :
    writeEntriesJson format buf (keepMask attrs) first attrs = writeEntriesJson format buf none first attrs := by
  unfold keepMask
  split
  · exact writeEntriesJson_keepWinners format attrs buf first
  · rfl

end Winners

section Writing

def openMembers : List (Text × Json) → Text
  | [] => ['\x7d']
  | (name, value) :: rest => Json.quote name ++ ':' :: (Json.render value ++ Json.renderMembers rest)

theorem render_object (members : List (Text × Json)) : Json.render (.object members) = '\x7b' :: openMembers members := by
  rcases members with _ | ⟨⟨name, value⟩, rest⟩ <;> simp [Json.render, openMembers]

theorem writeDouble_append (buf : Text) (number : F64) (finite : format.isFinite number = true) :
    writeDouble format buf number = buf ++ writeDouble format [] number := by
  simp only [writeDouble, finite, if_true]
  split <;> simp

theorem writeEntriesJson_cons {key : Text} {value : AnyValue F64} (set : (KeyValue.mk key (some value)).isSet = true)
    (rest : List (KeyValue F64)) (buf : Text) (first : Bool) :
    writeEntriesJson format buf none first (.mk key (some value) :: rest) =
      if rest.any fun later => later.key == key && later.isSet then writeEntriesJson format buf none first rest
      else writeEntriesJson format
        (writeAnyValueJson format (escapeJsonStr key ((if first then buf else buf ++ [',']) ++ ['"']) ++ ['"', ':']) value)
        none false rest := by
  cases value with
  | unset => cases set
  | _ =>
    rw [writeEntriesJson]
    · rfl
    · simp

theorem membersJson_cons {key : Text} {value : AnyValue F64} (set : (KeyValue.mk key (some value)).isSet = true)
    (rest : List (KeyValue F64)) :
    membersJson format (.mk key (some value) :: rest) =
      if rest.any fun later => later.key == key && later.isSet then membersJson format rest
      else (key, valueJson format value) :: membersJson format rest := by
  cases value with
  | unset => cases set
  | _ =>
    rw [membersJson]
    simp

mutual

theorem writeAnyValueJson_eq (buf : Text) :
    (value : AnyValue F64) → writeAnyValueJson format buf value = buf ++ Json.render (valueJson format value)
  | .stringValue text => by simp [writeAnyValueJson, valueJson, Json.render, quoted_eq]
  | .intValue number => by simp [writeAnyValueJson, valueJson, Json.render]
  | .doubleValue number => by
    cases finite : format.isFinite number with
    | true => simp [writeAnyValueJson, valueJson, Json.render, finite, writeDouble_append format buf number finite]
    | false => simp [writeAnyValueJson, valueJson, Json.render, writeDouble, finite]
  | .boolValue flag => by cases flag <;> simp [writeAnyValueJson, valueJson, Json.render, boolText]
  | .bytesValue bytes => by
    simp [writeAnyValueJson, valueJson, Json.render, writeHexToString, Json.quote, escape_hexEncode]
  | .arrayValue [] => by simp [writeAnyValueJson, valueJson, itemsJson, writeItemsJson, Json.render]
  | .arrayValue (item :: rest) => by
    have items := writeItemsJson_eq (buf ++ ['['] ++ Json.render (valueJson format item)) rest
    rw [writeAnyValueJson, writeItemsJson, if_pos rfl, writeAnyValueJson_eq _ item, items]
    simp [valueJson, itemsJson, Json.render]
  | .kvlistValue [] => by simp [writeAnyValueJson, valueJson, membersJson, Json.render]
  | .kvlistValue (attr :: rest) => by
    have entries := writeEntriesJson_first (buf ++ ['\x7b']) (attr :: rest)
    rw [writeAnyValueJson, writeEntriesJson_keepMask, entries, valueJson, render_object]
    simp
  | .unset => by simp [writeAnyValueJson, valueJson, Json.render]
  | .other => by simp [writeAnyValueJson, valueJson, Json.render]

theorem writeItemsJson_eq (buf : Text) : (items : List (AnyValue F64)) →
    writeItemsJson format buf false items ++ [']'] = buf ++ Json.renderItems (itemsJson format items)
  | [] => by simp [writeItemsJson, itemsJson, Json.renderItems]
  | item :: rest => by
    have items := writeItemsJson_eq (buf ++ [','] ++ Json.render (valueJson format item)) rest
    rw [writeItemsJson, if_neg (by simp), writeAnyValueJson_eq _ item, items]
    simp [itemsJson, Json.renderItems]

theorem writeEntriesJson_later (buf : Text) : (attrs : List (KeyValue F64)) →
    writeEntriesJson format buf none false attrs ++ ['\x7d'] = buf ++ Json.renderMembers (membersJson format attrs)
  | [] => by simp [writeEntriesJson, membersJson, Json.renderMembers]
  | .mk key none :: rest => by
    rw [writeEntriesJson, membersJson]
    exact writeEntriesJson_later buf rest
  | .mk key (some value) :: rest => by
    cases set : (KeyValue.mk key (some value)).isSet with
    | false =>
      cases value with
      | unset =>
        rw [writeEntriesJson, membersJson]
        exact writeEntriesJson_later buf rest
      | _ => cases set
    | true =>
      rw [writeEntriesJson_cons format set, membersJson_cons format set]
      split
      · exact writeEntriesJson_later buf rest
      · rw [if_neg (by simp), writeAnyValueJson_eq _ value, writeEntriesJson_later _ rest]
        simp [escapeJsonStr_eq, Json.renderMembers, Json.quote]

theorem writeEntriesJson_first (buf : Text) : (attrs : List (KeyValue F64)) →
    writeEntriesJson format buf none true attrs ++ ['\x7d'] = buf ++ openMembers (membersJson format attrs)
  | [] => by simp [writeEntriesJson, membersJson, openMembers]
  | .mk key none :: rest => by
    rw [writeEntriesJson, membersJson]
    exact writeEntriesJson_first buf rest
  | .mk key (some value) :: rest => by
    cases set : (KeyValue.mk key (some value)).isSet with
    | false =>
      cases value with
      | unset =>
        rw [writeEntriesJson, membersJson]
        exact writeEntriesJson_first buf rest
      | _ => cases set
    | true =>
      rw [writeEntriesJson_cons format set, membersJson_cons format set]
      split
      · exact writeEntriesJson_first buf rest
      · rw [if_pos rfl, writeAnyValueJson_eq _ value, writeEntriesJson_later _ rest]
        simp [escapeJsonStr_eq, openMembers, Json.quote]

end

end Writing

section Reading

theorem lastSet_cons (attr : KeyValue F64) (rest : List (KeyValue F64)) (key : Text) :
    lastSet (attr :: rest) key =
      (lastSet rest key).or (if attr.key == key && attr.isSet then attr.value else none) := by
  unfold lastSet
  rw [List.reverse_cons, List.find?_append]
  cases found : rest.reverse.find? fun attr => attr.key == key && attr.isSet with
  | none =>
    simp only [Option.none_or, Option.bind_none, List.find?_cons, List.find?_nil]
    split
    · rename_i matching
      rw [if_pos matching]
      rfl
    · rename_i other
      rw [if_neg (by simpa using other)]
      rfl
  | some winner =>
    have matching := List.find?_some found
    have set := (Bool.and_eq_true _ _).mp matching
    obtain ⟨name, value⟩ := winner
    cases value with
    | none => cases set.2
    | some value => rfl

theorem lastSet_isSome (attrs : List (KeyValue F64)) (key : Text) :
    (lastSet attrs key).isSome = attrs.any fun later => later.key == key && later.isSet := by
  induction attrs with
  | nil => rfl
  | cons attr rest ih =>
    rw [lastSet_cons, List.any_cons, Option.isSome_or, ih]
    cases matching : attr.key == key && attr.isSet with
    | false => simp
    | true =>
      obtain ⟨name, value⟩ := attr
      cases value with
      | none => simp [KeyValue.isSet] at matching
      | some value => simp [KeyValue.value]

theorem membersJson_unset {attr : KeyValue F64} (unset : attr.isSet = false) (rest : List (KeyValue F64)) :
    membersJson format (attr :: rest) = membersJson format rest := by
  obtain ⟨key, value⟩ := attr
  rcases value with _ | value
  · rw [membersJson]
  · cases value with
    | unset => rw [membersJson]
    | _ => cases unset

theorem mem_membersJson (attrs : List (KeyValue F64)) (key : Text) (json : Json) :
    (key, json) ∈ membersJson format attrs ↔ ∃ value, lastSet attrs key = some value ∧ valueJson format value = json := by
  induction attrs with
  | nil => simp [membersJson, lastSet]
  | cons attr rest ih =>
    rw [lastSet_cons]
    cases set : attr.isSet with
    | false => simpa [membersJson_unset format set] using ih
    | true =>
      obtain ⟨name, _ | value⟩ := attr
      · cases set
      · have overwritten := lastSet_isSome rest name
        rw [membersJson_cons format set]
        split
        · rename_i later
          rw [ih]
          by_cases same : name = key
          · rw [later, same] at overwritten
            obtain ⟨winner, found⟩ := Option.isSome_iff_exists.mp overwritten
            simp [found]
          · simp [KeyValue.key, same]
        · rename_i last
          have free : lastSet rest name = none := by
            rw [← Option.not_isSome_iff_eq_none, overwritten]
            exact last
          rw [List.mem_cons, ih]
          by_cases same : name = key
          · subst same
            simp [free, KeyValue.key, KeyValue.value, eq_comm]
          · simp [KeyValue.key, same, Ne.symm same]

theorem membersJson_nodup (attrs : List (KeyValue F64)) : ((membersJson format attrs).map Prod.fst).Nodup := by
  induction attrs with
  | nil => simp [membersJson]
  | cons attr rest ih =>
    cases set : attr.isSet with
    | false => simpa [membersJson_unset format set] using ih
    | true =>
      obtain ⟨name, _ | value⟩ := attr
      · cases set
      · rw [membersJson_cons format set]
        split
        · exact ih
        · rename_i last
          refine List.nodup_cons.mpr ⟨fun member => last ?_, ih⟩
          obtain ⟨⟨key, json⟩, listed, rfl⟩ := List.mem_map.mp member
          obtain ⟨winner, found, _⟩ := (mem_membersJson format rest key json).mp listed
          rw [← lastSet_isSome, found]
          rfl

theorem mem_keys (attrs : List (KeyValue F64)) (key : Text) :
    key ∈ (membersJson format attrs).map Prod.fst ↔ (lastSet attrs key).isSome = true := by
  rw [List.mem_map, Option.isSome_iff_exists]
  constructor
  · rintro ⟨⟨_, json⟩, listed, rfl⟩
    obtain ⟨value, found, _⟩ := (mem_membersJson format attrs _ json).mp listed
    exact ⟨value, found⟩
  · rintro ⟨value, found⟩
    exact ⟨(key, valueJson format value), (mem_membersJson format attrs key _).mpr ⟨value, found, rfl⟩, rfl⟩

theorem lastSet_mem {attrs : List (KeyValue F64)} {key : Text} {value : AnyValue F64}
    (found : lastSet attrs key = some value) : ∃ name, .mk name (some value) ∈ attrs := by
  obtain ⟨⟨name, held⟩, winner, same⟩ := Option.bind_eq_some_iff.mp found
  cases same
  exact ⟨name, List.mem_reverse.mp (List.mem_of_find?_eq_some winner)⟩

mutual

theorem denotes_valueJson : (value : AnyValue F64) → Denotes format value (valueJson format value)
  | .stringValue text => by
    rw [valueJson]
    exact .stringValue text
  | .intValue number => by
    rw [valueJson]
    exact .intValue number
  | .doubleValue number => by
    rw [valueJson]
    cases finite : format.isFinite number with
    | true => exact .finite finite
    | false => exact .nonFinite finite
  | .boolValue flag => by
    rw [valueJson]
    exact .boolValue flag
  | .bytesValue bytes => by
    rw [valueJson]
    exact .bytesValue bytes
  | .arrayValue values => by
    rw [valueJson]
    exact .arrayValue (denotes_itemsJson values)
  | .kvlistValue attrs => by
    rw [valueJson]
    refine .kvlistValue (membersJson_nodup format attrs) (fun key => ?_) fun key value json listed found => ?_
    · exact mem_keys format attrs key
    · obtain ⟨winner, same, rfl⟩ := (mem_membersJson format attrs key json).mp listed
      rw [found] at same
      cases same
      exact denotes_attrs attrs value (lastSet_mem found)
  | .unset => by
    rw [valueJson]
    exact .unset
  | .other => by
    rw [valueJson]
    exact .other

theorem denotes_itemsJson : (values : List (AnyValue F64)) → List.Forall₂ (Denotes format) values (itemsJson format values)
  | [] => by
    rw [itemsJson]
    exact .nil
  | item :: rest => by
    rw [itemsJson]
    exact .cons (denotes_valueJson item) (denotes_itemsJson rest)

theorem denotes_attrs : (attrs : List (KeyValue F64)) → ∀ value, (∃ name, .mk name (some value) ∈ attrs) →
    Denotes format value (valueJson format value)
  | [], _, listed => by simp at listed
  | .mk _ none :: rest, value, listed => by
    refine denotes_attrs rest value ?_
    simpa using listed
  | .mk _ (some first) :: rest, value, listed => by
    obtain ⟨name, member⟩ := listed
    rcases List.mem_cons.mp member with same | behind
    · cases same
      exact denotes_valueJson first
    · exact denotes_attrs rest value ⟨name, behind⟩

end

end Reading

/-- `Display` of a finite `f64`: digits with at most a sign and a fraction, never an exponent. -/
def FloatFormat.DisplaysDecimals (format : FloatFormat F64) : Prop :=
  ∀ number, format.isFinite number = true → Json.IsDecimal (format.display number)

section Numbers

variable {format}

theorem isDecimal_writeDouble (displays : format.DisplaysDecimals) {number : F64}
    (finite : format.isFinite number = true) : Json.IsDecimal (writeDouble format [] number) := by
  have decimal := displays number finite
  simp only [writeDouble, finite, if_true, List.nil_append]
  split
  · exact decimal
  · rename_i pointless
    obtain ⟨sign, digits, fraction, same, signed, integer, valid⟩ := decimal
    have bare : fraction = [] := by
      rcases valid with none | ⟨behind, rfl, _⟩
      · exact none
      · refine absurd ?_ pointless
        rw [same]
        simp
    refine ⟨sign, digits, ['.', '0'], ?_, signed, integer, Or.inr ⟨['0'], rfl, by simp, by simp⟩⟩
    rw [same, bare, List.append_nil]

mutual

theorem plain_valueJson (displays : format.DisplaysDecimals) : (value : AnyValue F64) → Json.Plain (valueJson format value)
  | .stringValue _ => by simp [valueJson, Json.Plain]
  | .intValue number => by
    rw [valueJson]
    exact Json.isDecimal_toString number
  | .doubleValue number => by
    rw [valueJson]
    split
    · rename_i finite
      exact isDecimal_writeDouble displays finite
    · trivial
  | .boolValue _ => by simp [valueJson, Json.Plain]
  | .bytesValue _ => by simp [valueJson, Json.Plain]
  | .arrayValue values => by
    rw [valueJson]
    exact plain_itemsJson displays values
  | .kvlistValue attrs => by
    rw [valueJson]
    exact plain_membersJson displays attrs
  | .unset => by simp [valueJson, Json.Plain]
  | .other => by simp [valueJson, Json.Plain]

theorem plain_itemsJson (displays : format.DisplaysDecimals) :
    (values : List (AnyValue F64)) → Json.PlainItems (itemsJson format values)
  | [] => by simp [itemsJson, Json.PlainItems]
  | item :: rest => by
    rw [itemsJson]
    exact ⟨plain_valueJson displays item, plain_itemsJson displays rest⟩

theorem plain_membersJson (displays : format.DisplaysDecimals) :
    (attrs : List (KeyValue F64)) → Json.PlainMembers (membersJson format attrs)
  | [] => by simp [membersJson, Json.PlainMembers]
  | .mk _ none :: rest => by
    rw [membersJson]
    exact plain_membersJson displays rest
  | .mk key (some value) :: rest => by
    cases set : (KeyValue.mk key (some value)).isSet with
    | false =>
      rw [membersJson_unset format set]
      exact plain_membersJson displays rest
    | true =>
      rw [membersJson_cons format set]
      split
      · exact plain_membersJson displays rest
      · exact ⟨plain_valueJson displays value, plain_membersJson displays rest⟩

end

end Numbers

/-- The value that becomes a JSON string is displayed as that string. -/
theorem extractServiceName_eq {attrs : List (KeyValue F64)} {value : AnyValue F64} {text : Text}
    (found : lastSet attrs "service.name".toList = some value) (string : valueJson format value = .string text) :
    extractServiceName format attrs = text := by
  simp only [lastSet] at found
  rw [extractServiceName, found]
  cases value with
  | stringValue own =>
    rw [valueJson] at string
    cases string
    rfl
  | bytesValue bytes =>
    rw [valueJson] at string
    cases string
    simp [anyValueToString, writeAnyValueString, writeHexToString]
  | doubleValue number =>
    rw [valueJson] at string
    split at string <;> cases string
  | _ =>
    rw [valueJson] at string
    cases string

/-- The written attributes parse to an object with one member for each key that has a set value, the last one, at every
    level; lists of any length are written by the same rule; and the extracted service name is that of the object. -/
theorem attributes_parse (displays : format.DisplaysDecimals) (buf : Text) (attrs : List (KeyValue F64)) :
    (∃ members, Json.parse (writeAttributesJson format buf attrs) = some (.object members) ∧
      Denotes format (.kvlistValue attrs) (.object members) ∧
      ∀ text, ("service.name".toList, .string text) ∈ members → extractServiceName format attrs = text) ∧
    ∀ start first, writeEntriesJson format start (some (keepWinners attrs).1) first attrs =
      writeEntriesJson format start none first attrs := by
  refine ⟨⟨membersJson format attrs, ?_, ?_, fun text listed => ?_⟩, writeEntriesJson_keepWinners format attrs⟩
  · have written : writeAttributesJson format buf attrs = Json.render (valueJson format (.kvlistValue attrs)) := by
      rw [writeAttributesJson, writeKvlistJson, writeAnyValueJson_eq, List.nil_append]
    rw [written, Json.parse_render (plain_valueJson displays _), valueJson]
  · have denotes := denotes_valueJson format (.kvlistValue attrs)
    rw [valueJson] at denotes
    exact denotes
  · obtain ⟨value, found, string⟩ := (mem_membersJson format attrs _ _).mp listed
    exact extractServiceName_eq format found string

def wholeNumbers : FloatFormat Int :=
  { isFinite := fun _ => true
    display := fun number => (toString number).toList
    ofInt := id
    ofNat := Int.ofNat
    zero := 0 }

theorem wholeNumbers_displays : wholeNumbers.DisplaysDecimals := fun number _ => Json.isDecimal_toString number

/-- The service is named twice and then left unset; a nested list repeats a key. -/
def renamedService : List (KeyValue Int) :=
  [.mk "service.name".toList (some (.stringValue "a".toList)), .mk "load".toList (some (.doubleValue 5)),
    .mk "service.name".toList (some (.stringValue "b\n".toList)), .mk "service.name".toList (some .unset),
    .mk "peer".toList (some (.kvlistValue [.mk "id".toList (some (.intValue (-1))), .mk "id".toList none]))]

theorem attributes_parse_renamedService :
    extractServiceName wholeNumbers renamedService = "b\n".toList ∧
      ∃ members, Json.parse (writeAttributesJson wholeNumbers [] renamedService) = some (.object members) ∧
        Denotes wholeNumbers (.kvlistValue renamedService) (.object members) := by
  obtain ⟨⟨members, parsed, denotes, _⟩, _⟩ := attributes_parse wholeNumbers wholeNumbers_displays [] renamedService
  exact ⟨by decide, members, parsed, denotes⟩

end OtelDatalake.Codec
