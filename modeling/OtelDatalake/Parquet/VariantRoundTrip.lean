import OtelDatalake.Parquet.VariantSizes

open OtelDatalake.Foundation OtelDatalake.Buffer

namespace OtelDatalake.Parquet

/-- What the documentation of `serde_json::from_str` says of the texts that the encoder treats on its own, and of the
    values that it returns. -/
structure JsonReader.Sound (reader : JsonReader) : Prop where
  empty : ∃ reason, reader.fromStr [] = .error reason
  null : reader.fromStr "null".toList = .ok .null
  emptyObject : reader.fromStr "\x7b\x7d".toList = .ok (.object [])
  valid : ∀ text value, reader.fromStr text = .ok value → value.Valid

def Value.hasDictionary : Value → Bool
  | .object entries => !entries.isEmpty
  | .array _ => true
  | _ => false

def metadataOf (value : Value) : Except String (List UInt8) :=
  if value.hasDictionary then encodeDictionaryMetadata (dictionaryOf value) else .ok staticEmptyMetadata

def encodedPair (castF64 : UInt64 → UInt64) (value : Value) : Except String (List UInt8 × List UInt8) := do
  let metadata ← metadataOf value
  let bytes ← encodeJsonValue castF64 (dictionaryOf value) value
  return (metadata, bytes)

theorem encodedPair_emptyObject (castF64 : UInt64 → UInt64) :
    encodedPair castF64 (.object []) = .ok (staticEmptyMetadata, staticEmptyValue) := by
  have keys : dictionaryOf (.object []) = [] := by simp [dictionaryOf, collectAllKeys, collectEntries, sortKeys]
  have entries : sortEntries ([] : List (String × Except String (List UInt8))) = [] := by simp [sortEntries]
  simp only [encodedPair, keys, encodeJsonValue, encodeEntries, encodeObjectToBuf, entries]
  rfl

section Encoder

variable {reader : JsonReader} {castF64 : UInt64 → UInt64} {encoder : VariantEncoder} {text : List Char} {value : Value}

theorem fill_result (metadata bytes : Except String (List UInt8)) :
    ((encoder.fill metadata bytes).1.map fun _ =>
      ((encoder.fill metadata bytes).2.metaBuf, (encoder.fill metadata bytes).2.valBuf)) = (do
        let metadata ← metadata
        let bytes ← bytes
        return (metadata, bytes)) := by
  cases metadata with
  | error reason => rfl
  | ok metaBytes => cases bytes <;> rfl

theorem encodeJsonInternal_result (encoder : VariantEncoder) (parsed : reader.fromStr text = .ok value) :
    ((encoder.encodeJsonInternal reader castF64 text).1.map fun _ =>
      ((encoder.encodeJsonInternal reader castF64 text).2.metaBuf,
        (encoder.encodeJsonInternal reader castF64 text).2.valBuf)) = encodedPair castF64 value := by
  unfold VariantEncoder.encodeJsonInternal
  rw [parsed]
  cases value with
  | null | bool value | number value | string value => exact fill_result _ _
  | array items => exact fill_result _ _
  | object entries =>
    cases entries with
    | nil =>
      rw [encodedPair_emptyObject]
      rfl
    | cons entry rest => exact fill_result _ _

theorem encodeJsonStr_result (sound : reader.Sound) (parsed : reader.fromStr (trim text) = .ok value)
    (other : trim text ≠ "null".toList) :
    (encoder.encodeJsonStr reader castF64 text).1 = (encodedPair castF64 value).map some := by
  have some_text : trim text ≠ [] := by
    intro none
    obtain ⟨reason, failed⟩ := sound.empty
    rw [none, failed] at parsed
    cases parsed
  unfold VariantEncoder.encodeJsonStr
  dsimp only
  rw [if_neg (not_or_intro some_text other)]
  by_cases braces : trim text = "\x7b\x7d".toList
  · rw [if_pos braces]
    rw [braces, sound.emptyObject] at parsed
    cases parsed
    rw [encodedPair_emptyObject]
    rfl
  · rw [if_neg braces, ← encodeJsonInternal_result encoder parsed]
    rcases encoder.encodeJsonInternal reader castF64 (trim text) with ⟨reason | ⟨⟩, after⟩ <;> rfl

theorem encodeJsonStr_null (isNull : trim text = "null".toList) :
    (encoder.encodeJsonStr reader castF64 text).1 = .ok none := by
  unfold VariantEncoder.encodeJsonStr
  dsimp only
  rw [if_pos (Or.inr isNull)]

theorem encodedPair_of_encodeJsonStr (sound : reader.Sound) (parsed : reader.fromStr (trim text) = .ok value)
    {metadata bytes : List UInt8}
    (returned : (encoder.encodeJsonStr reader castF64 text).1 = .ok (some (metadata, bytes))) :
    encodedPair castF64 value = .ok (metadata, bytes) := by
  have other : trim text ≠ "null".toList := by
    intro isNull
    rw [encodeJsonStr_null isNull] at returned
    cases returned
  rw [encodeJsonStr_result sound parsed other] at returned
  cases pair : encodedPair castF64 value with
  | error reason =>
    rw [pair] at returned
    cases returned
  | ok result =>
    rw [pair] at returned
    cases returned
    rfl

end Encoder

section Pair

variable {castF64 : UInt64 → UInt64} {value : Value} {metadata bytes : List UInt8}

theorem encodedPair_ok (pair : encodedPair castF64 value = .ok (metadata, bytes)) :
    metadataOf value = .ok metadata ∧ encodeJsonValue castF64 (dictionaryOf value) value = .ok bytes := by
  unfold encodedPair at pair
  obtain ⟨first, metadata_eq, pair⟩ := bind_ok.mp pair
  obtain ⟨second, bytes_eq, pair⟩ := bind_ok.mp pair
  cases pair
  exact ⟨metadata_eq, bytes_eq⟩

theorem dictionaryOf_empty (without : value.hasDictionary = false) : dictionaryOf value = [] := by
  cases value with
  | null | bool value | number value | string value => simp [dictionaryOf, collectAllKeys, sortKeys]
  | array items => cases without
  | object entries =>
    cases entries with
    | nil => simp [dictionaryOf, collectAllKeys, collectEntries, sortKeys]
    | cons entry rest => cases without

theorem encodeDictionaryMetadata_keyBytes {keys : List String} (written : encodeDictionaryMetadata keys = .ok metadata) :
    keyBytes keys ≤ u64Max := by
  unfold encodeDictionaryMetadata at written
  split at written
  · cases written
  · omega

theorem lookupIn_self {dictionary : List String} {key : String} (known : key ∈ dictionary) :
    lookupIn dictionary dictionary key = some key := by
  obtain ⟨id, index⟩ := Option.isSome_iff_exists.mp (List.isSome_idxOf?.mpr known)
  obtain ⟨below, here, -⟩ := List.idxOf?_eq_some_iff.mp index
  rw [lookupIn, index, Option.bind_some, List.getElem?_eq_getElem below, here]

theorem lookupIn_getElem {dictionary decoded : List String} (distinct : dictionary.Nodup)
    (fixed : ∀ key ∈ dictionary, lookupIn dictionary decoded key = some key) (id : Nat) (key : String)
    (here : dictionary[id]? = some key) : decoded[id]? = some key := by
  have found := fixed key (List.mem_of_getElem? here)
  have index : dictionary.idxOf? key = some id := by
    obtain ⟨below, rfl⟩ := List.getElem?_eq_some_iff.mp here
    apply List.idxOf?_eq_some_iff.mpr
    refine ⟨below, rfl, ?_⟩
    intro earlier before same
    have equal := (distinct.getElem_inj_iff).mp same
    omega
  rw [lookupIn, index, Option.bind_some] at found
  exact found

theorem decodeVariant_fitting (valid : value.Valid) (pair : encodedPair castF64 value = .ok (metadata, bytes))
    (keys : keyBytes (dictionaryOf value) ≤ u32Max) :
    decodeMetadata metadata = some (dictionaryOf value) ∧
      decodeVariant metadata bytes = some (value.opaqueDoubles castF64) := by
  obtain ⟨written, encoded⟩ := encodedPair_ok pair
  have fits : value.Fits := (encodeJsonValue_encodable valid encoded).1
  have dictionary : decodeMetadata metadata = some (dictionaryOf value) := by
    cases has : value.hasDictionary with
    | false =>
      rw [metadataOf, has] at written
      cases written
      rw [dictionaryOf_empty has]
      rfl
    | true =>
      rw [metadataOf, has] at written
      exact decodeMetadata_fitting written (max_le keys fits.keys_le)
  have read : decodeValue bytes.length (dictionaryOf value) bytes =
      image castF64 (lookupIn (dictionaryOf value) (dictionaryOf value)) value := by
    have all := decodeValue_encodeJsonValue (dictionaryOf value) valid encoded le_rfl []
    rwa [List.append_nil] at all
  have same := (image_iff castF64 value).mpr fun key member => lookupIn_self (mem_sortKeys.mpr member)
  refine ⟨dictionary, ?_⟩
  rw [decodeVariant, dictionary]
  exact read.trans same

theorem keyBytes_of_decodeVariant (valid : value.Valid) (pair : encodedPair castF64 value = .ok (metadata, bytes))
    (decoded : decodeVariant metadata bytes = some (value.opaqueDoubles castF64)) :
    keyBytes (dictionaryOf value) ≤ u32Max := by
  obtain ⟨written, encoded⟩ := encodedPair_ok pair
  cases has : value.hasDictionary with
  | false =>
    rw [dictionaryOf_empty has]
    exact Nat.zero_le _
  | true =>
    rw [metadataOf, has] at written
    obtain ⟨keys, read, decoded⟩ := Option.bind_eq_some_iff.mp decoded
    have all := decodeValue_encodeJsonValue keys valid encoded le_rfl []
    rw [List.append_nil, decoded] at all
    have fixed := (image_iff castF64 value).mp all.symm
    have same := lookupIn_getElem (sortKeys_nodup _) fun key member => fixed key (mem_sortKeys.mp member)
    exact le_trans (le_max_left _ _) (fitting_of_decodeMetadata written read same)

theorem encodedPair_of_fits (valid : value.Valid) (fits : value.Fits) (keys : keyBytes (dictionaryOf value) ≤ u64Max) :
    ∃ metadata bytes, encodedPair castF64 value = .ok (metadata, bytes) := by
  obtain ⟨metadata, written⟩ : ∃ metadata, metadataOf value = .ok metadata := by
    unfold metadataOf
    split
    · exact ⟨_, if_neg (by omega)⟩
    · exact ⟨_, rfl⟩
  obtain ⟨bytes, encoded⟩ : ∃ bytes, encodeJsonValue castF64 (dictionaryOf value) value = .ok bytes :=
    encodeJsonValue_of_encodable valid fits (fun key member => mem_sortKeys.mpr member) fits.keys_le
  exact ⟨metadata, bytes, by rw [encodedPair, written, encoded]; rfl⟩

theorem keyBytes_of_encodedPair (pair : encodedPair castF64 value = .ok (metadata, bytes)) :
    keyBytes (dictionaryOf value) ≤ u64Max := by
  obtain ⟨written, -⟩ := encodedPair_ok pair
  cases has : value.hasDictionary with
  | false =>
    rw [dictionaryOf_empty has]
    exact Nat.zero_le _
  | true =>
    rw [metadataOf, has] at written
    exact encodeDictionaryMetadata_keyBytes written

end Pair

section RoundTrips

variable (reader : JsonReader) (castF64 : UInt64 → UInt64) (encoder : VariantEncoder) (text : List Char) (value : Value)

/-- A text that was read as `value` is encoded to a pair that decodes to it, with the sorted distinct keys as its
    dictionary, and into the scratch buffers of any encoder to the same pair. -/
structure RoundTrips : Prop where
  produced : value ≠ .null → value.Fits → keyBytes (dictionaryOf value) ≤ u64Max →
    ∃ metadata bytes, (encoder.encodeJsonStr reader castF64 text).1 = .ok (some (metadata, bytes))
  decoded : ∀ metadata bytes, (encoder.encodeJsonStr reader castF64 text).1 = .ok (some (metadata, bytes)) →
    decodeVariant metadata bytes = some (value.opaqueDoubles castF64)
  dictionary : ∀ metadata bytes, (encoder.encodeJsonStr reader castF64 text).1 = .ok (some (metadata, bytes)) →
    decodeMetadata metadata = some (dictionaryOf value) ∧ parseDictionaryKeys metadata = some (dictionaryOf value)
  ordered : (dictionaryOf value).Pairwise fun first second => textKey first < textKey second
  distinct : ∀ key, key ∈ dictionaryOf value ↔ key ∈ collectAllKeys value
  scratch : ∀ other : VariantEncoder,
    (other.encodeToScratch reader castF64 text).1 = (encoder.encodeJsonStr reader castF64 text).1

variable {reader castF64 encoder text value}

theorem encodeJsonStr_of_fits (sound : reader.Sound) (parsed : reader.fromStr (trim text) = .ok value)
    (some_value : value ≠ .null) (fits : value.Fits) (keys : keyBytes (dictionaryOf value) ≤ u64Max) :
    ∃ metadata bytes, (encoder.encodeJsonStr reader castF64 text).1 = .ok (some (metadata, bytes)) := by
  have other : trim text ≠ "null".toList := by
    intro isNull
    rw [isNull, sound.null] at parsed
    cases parsed
    exact some_value rfl
  obtain ⟨metadata, bytes, pair⟩ : ∃ metadata bytes, encodedPair castF64 value = .ok (metadata, bytes) :=
    encodedPair_of_fits (sound.valid _ _ parsed) fits keys
  exact ⟨metadata, bytes, by rw [encodeJsonStr_result sound parsed other, pair]; rfl⟩

theorem encodeToScratch_eq (sound : reader.Sound) (parsed : reader.fromStr (trim text) = .ok value)
    (other : VariantEncoder) :
    (other.encodeToScratch reader castF64 text).1 = (encoder.encodeJsonStr reader castF64 text).1 := by
  have same : (other.encodeToScratch reader castF64 text).1 = (other.encodeJsonStr reader castF64 text).1 := rfl
  rw [same]
  by_cases isNull : trim text = "null".toList
  · rw [encodeJsonStr_null isNull, encodeJsonStr_null isNull]
  · rw [encodeJsonStr_result sound parsed isNull, encodeJsonStr_result sound parsed isNull]

theorem roundTrips_keyBytes (sound : reader.Sound) (parsed : reader.fromStr (trim text) = .ok value)
    (whole : RoundTrips reader castF64 encoder text value) (fits : value.Fits)
    (keys : keyBytes (dictionaryOf value) ≤ u64Max) : keyBytes (dictionaryOf value) ≤ u32Max := by
  by_cases isNull : value = .null
  · subst isNull
    rw [dictionaryOf_empty rfl]
    exact Nat.zero_le _
  · obtain ⟨metadata, bytes, returned⟩ := whole.produced isNull fits keys
    exact keyBytes_of_decodeVariant (sound.valid _ _ parsed) (encodedPair_of_encodeJsonStr sound parsed returned)
      (whole.decoded metadata bytes returned)

/-- The offsets of the dictionary are written without a check: a value is read back where the bytes of its keys are
    counted in four bytes, or where the encoder reports that it cannot be encoded. -/
theorem roundTrips_iff (sound : reader.Sound) (parsed : reader.fromStr (trim text) = .ok value) :
    RoundTrips reader castF64 encoder text value ↔
      (value.Fits → keyBytes (dictionaryOf value) ≤ u32Max ∨ u64Max < keyBytes (dictionaryOf value)) := by
  have valid := sound.valid _ _ parsed
  constructor
  · intro whole fits
    by_cases keys : keyBytes (dictionaryOf value) ≤ u64Max
    · exact .inl (roundTrips_keyBytes sound parsed whole fits keys)
    · exact .inr (by omega)
  · intro condition
    have pairKeys : ∀ metadata bytes, encodedPair castF64 value = .ok (metadata, bytes) →
        keyBytes (dictionaryOf value) ≤ u32Max := by
      intro metadata bytes pair
      have small := keyBytes_of_encodedPair pair
      have fits : value.Fits := (encodeJsonValue_encodable valid (encodedPair_ok pair).2).1
      rcases condition fits with fitting | large
      · exact fitting
      · omega
    have read : ∀ metadata bytes, (encoder.encodeJsonStr reader castF64 text).1 = .ok (some (metadata, bytes)) →
        decodeMetadata metadata = some (dictionaryOf value) ∧
          decodeVariant metadata bytes = some (value.opaqueDoubles castF64) := by
      intro metadata bytes returned
      have pair := encodedPair_of_encodeJsonStr sound parsed returned
      exact decodeVariant_fitting valid pair (pairKeys metadata bytes pair)
    constructor
    case produced => exact fun some_value fits keys => encodeJsonStr_of_fits sound parsed some_value fits keys
    case decoded => exact fun metadata bytes returned => (read metadata bytes returned).2
    case dictionary =>
      intro metadata bytes returned
      have dictionary := (read metadata bytes returned).1
      exact ⟨dictionary, parseDictionaryKeys_of_decodeMetadata dictionary⟩
    case ordered => exact sortKeys_ordered _
    case distinct => exact fun key => mem_sortKeys
    case scratch => exact encodeToScratch_eq sound parsed

end RoundTrips

/-- A reader that knows one text beside those that the encoder treats on its own. -/
def JsonReader.ofText (text : List Char) (value : Value) : JsonReader where
  fromStr chars :=
    if chars = "null".toList then .ok .null
    else if chars = "\x7b\x7d".toList then .ok (.object [])
    else if chars = text ∧ text ≠ [] then .ok value
    else .error "expected value"

theorem JsonReader.ofText_sound (text : List Char) {value : Value} (valid : value.Valid) :
    (JsonReader.ofText text value).Sound := by
  constructor
  case empty =>
    refine ⟨"expected value", ?_⟩
    rw [JsonReader.ofText]
    dsimp only
    rw [if_neg (by simp), if_neg (by simp), if_neg (by rintro ⟨same, some_text⟩; exact some_text same.symm)]
  case null => rfl
  case emptyObject => rfl
  case valid =>
    intro chars result read
    rw [JsonReader.ofText] at read
    dsimp only at read
    split_ifs at read
    · cases read
      exact .null
    · cases read
      exact .object [] .nil (by simp)
    · cases read
      exact valid

def oneAttribute : Value := .object [("k", .number (.posInt 1))]

def oneAttributeText : List Char := "\x7b\"k\":1\x7d".toList

theorem oneAttribute_valid : oneAttribute.Valid := by
  apply Value.Valid.object
  · simp
  · simp only [List.mem_singleton, forall_eq]
    exact .number _ (by simp)

theorem roundTrips_iff_oneAttribute :
    RoundTrips (.ofText oneAttributeText oneAttribute) (fun number => number.toFloat.toBits) {} oneAttributeText
      oneAttribute := by
  apply (roundTrips_iff (JsonReader.ofText_sound oneAttributeText oneAttribute_valid) rfl).mpr
  intro fits
  left
  have keys : dictionaryOf oneAttribute = ["k"] := by
    simp [oneAttribute, dictionaryOf, collectAllKeys, collectEntries, sortKeys]
  rw [keys]
  decide

/-- An attribute whose key has `length` letters. -/
def longKey (length : Nat) : Value := .object [(String.ofList (List.replicate length 'a'), .null)]

def longKeyText (length : Nat) : List Char :=
  '\x7b' :: ("\"".toList ++ List.replicate length 'a' ++ "\":null".toList ++ ['\x7d'])

theorem textBytes_replicate (length : Nat) : (textBytes (String.ofList (List.replicate length 'a'))).length = length := by
  have size : (List.replicate length 'a').utf8Encode.size = length := by
    induction length with
    | zero => rfl
    | succ length ih =>
      rw [List.replicate_succ, List.utf8Encode_cons, ByteArray.size_append, ih, Nat.add_comm]
      rfl
  simp [textBytes, size]

theorem longKey_valid (length : Nat) : (longKey length).Valid := by
  apply Value.Valid.object
  · simp
  · simp only [List.mem_singleton, forall_eq]
    exact .null

theorem longKey_dictionary (length : Nat) :
    dictionaryOf (longKey length) = [String.ofList (List.replicate length 'a')] := by
  simp [longKey, dictionaryOf, collectAllKeys, collectEntries, sortKeys]

theorem trim_braced (middle : List Char) : trim ('\x7b' :: (middle ++ ['\x7d'])) = '\x7b' :: (middle ++ ['\x7d']) := by
  have openBrace : isWhitespace '\x7b' = false := by decide
  have closeBrace : isWhitespace '\x7d' = false := by decide
  have reversed : ('\x7b' :: (middle ++ ['\x7d'])).reverse = '\x7d' :: ('\x7b' :: middle).reverse := by
    rw [← List.cons_append, List.reverse_append, List.reverse_singleton, List.singleton_append]
  rw [trim, List.dropWhile_cons, openBrace, if_neg Bool.false_ne_true, reversed, List.dropWhile_cons, closeBrace,
    if_neg Bool.false_ne_true, ← reversed, List.reverse_reverse]

/-- A key of 2^32 letters loses a byte of its length. -/
theorem not_roundTrips_longKey : ¬ RoundTrips (.ofText (longKeyText (u32Max + 1)) (longKey (u32Max + 1)))
    (fun number => number.toFloat.toBits) {} (longKeyText (u32Max + 1)) (longKey (u32Max + 1)) := by
  have parsed (length : Nat) : (JsonReader.ofText (longKeyText length) (longKey length)).fromStr
      (trim (longKeyText length)) = .ok (longKey length) := by
    rw [longKeyText, trim_braced, JsonReader.ofText]
    dsimp only
    rw [if_neg (by simp), if_neg (by simp), if_pos ⟨rfl, by simp⟩]
  have fits (length : Nat) : (longKey length).Fits := by
    apply Value.Encodable.object
    · simp only [List.mem_singleton, forall_eq]
      exact .null
    · simp only [entriesSize, Value.encodedSize]
      decide
  have keys (length : Nat) : keyBytes (dictionaryOf (longKey length)) = length := by
    rw [longKey_dictionary, keyBytes, List.map_singleton, List.sum_singleton, textBytes_replicate]
  intro whole
  have small := roundTrips_keyBytes (JsonReader.ofText_sound _ (longKey_valid _)) (parsed _) whole (fits _)
    (by rw [keys]; decide)
  rw [keys] at small
  exact absurd small (by decide)

end OtelDatalake.Parquet
