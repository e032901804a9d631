import OtelDatalake.Parquet.SignalRouter
import OtelDatalake.Parquet.VariantRoundTrip

open OtelDatalake.Core OtelDatalake.Foundation OtelDatalake.Buffer

namespace OtelDatalake.Parquet.SignalRouting

variable {Cell : Type} {arrow : ArrowLibrary Cell}

section Texts

def isBlank (text : List Char) : Bool := trim text = [] || trim text = "null".toList

theorem isBlank_iff {text : List Char} : isBlank text = true ↔ trim text = [] ∨ trim text = "null".toList := by
  rw [isBlank, Bool.or_eq_true, decide_eq_true_eq, decide_eq_true_eq]

def metadataBytes (value : Value) : Nat :=
  if value.hasDictionary then
    1 + metadataSize (dictionaryOf value) * ((dictionaryOf value).length + 2) + keyBytes (dictionaryOf value)
  else 3

theorem metadataOf_length {value : Value} {metadata : List UInt8} (written : metadataOf value = .ok metadata) :
    metadata.length = metadataBytes value := by
  unfold metadataOf at written
  unfold metadataBytes
  split at written
  · rename_i has
    rw [if_pos has, encodeDictionaryMetadata_ok written, List.length_cons, List.length_append, List.length_append,
      toLe_length, flatMap_toLe_length, runningOffsets_length, List.length_map, List.length_flatMap, ← keyBytes,
      Nat.mul_add, Nat.mul_add]
    omega
  · rename_i without
    rw [if_neg without]
    cases written
    rfl

/-- What a text says: JSON, or else itself if it does not look like an object or an array. -/
def reading (reader : JsonReader) (trimmed : List Char) : Except String Value :=
  match reader.fromStr trimmed with
  | .ok value => .ok value
  | .error reason =>
    if trimmed.head? = some '\x7b' || trimmed.head? = some '[' then .error ("invalid JSON payload: " ++ reason)
    else .ok (.string (String.ofList trimmed))

variable {reader : JsonReader} {castF64 : UInt64 → UInt64} {encoder : VariantEncoder} {text : List Char} {value : Value}

theorem reading_valid (sound : reader.Sound) (read : reading reader text = .ok value) : value.Valid := by
  unfold reading at read
  cases parsed : reader.fromStr text with
  | ok found =>
    rw [parsed] at read
    cases read
    exact sound.valid text _ parsed
  | error reason =>
    simp only [parsed] at read
    split at read
    · cases read
    · cases read
      exact .string _

theorem encodedPair_string (text : String) :
    encodedPair castF64 (.string text) =
      (encodeString (textBytes text)).map fun bytes => (staticEmptyMetadata, bytes) := by
  simp only [encodedPair, encodeJsonValue]
  cases encodeString (textBytes text) <;> rfl

theorem encodeJsonInternal_reading (encoder : VariantEncoder) :
    ((encoder.encodeJsonInternal reader castF64 text).1.map fun _ =>
      ((encoder.encodeJsonInternal reader castF64 text).2.metaBuf,
        (encoder.encodeJsonInternal reader castF64 text).2.valBuf)) =
      (reading reader text).bind (encodedPair castF64) := by
  cases parsed : reader.fromStr text with
  | ok value =>
    have read : reading reader text = .ok value := by rw [reading, parsed]
    rw [encodeJsonInternal_result encoder parsed, read]
    rfl
  | error reason =>
    unfold VariantEncoder.encodeJsonInternal reading
    simp only [parsed]
    split
    · rfl
    · show _ = encodedPair castF64 (.string (String.ofList text))
      rw [encodedPair_string]
      apply (fill_result _ _).trans
      cases encodeString (textBytes (String.ofList text)) <;> rfl

def rowEncoding (reader : JsonReader) (castF64 : UInt64 → UInt64) (text : List Char) :
    Except String (Option (List UInt8 × List UInt8)) :=
  if isBlank text then .ok none
  else ((reading reader (trim text)).bind (encodedPair castF64)).map some

theorem encodeToScratch_rowEncoding (sound : reader.Sound) (encoder : VariantEncoder) (text : List Char) :
    (encoder.encodeToScratch reader castF64 text).1 = rowEncoding reader castF64 text := by
  unfold VariantEncoder.encodeToScratch rowEncoding
  dsimp only
  cases blank : isBlank text with
  | true =>
    rw [if_pos (isBlank_iff.mp blank)]
    rfl
  | false =>
    have some_text : ¬(trim text = [] ∨ trim text = "null".toList) := by
      rw [← isBlank_iff, blank]
      exact Bool.false_ne_true
    rw [if_neg some_text, if_neg Bool.false_ne_true]
    by_cases braces : trim text = "\x7b\x7d".toList
    · have read : reading reader (trim text) = .ok (.object []) := by rw [reading, braces, sound.emptyObject]
      rw [if_pos braces, read]
      show _ = (encodedPair castF64 (.object [])).map some
      rw [encodedPair_emptyObject]
      rfl
    · rw [if_neg braces, ← encodeJsonInternal_reading encoder]
      rcases encoder.encodeJsonInternal reader castF64 (trim text) with ⟨reason | ⟨⟩, after⟩ <;> rfl

end Texts

section Rows

variable (reader : JsonReader) (castF64 : UInt64 → UInt64)

def rowResult : Option (List Char) → Except (Stop ParquetSinkError) (Option (List UInt8 × List UInt8))
  | none => .ok none
  | some text => (rowEncoding reader castF64 text).mapError (.returned ∘ .variantEncoding)

def rowValue : Option (List Char) → Option Value
  | none => none
  | some text =>
    if isBlank text then none
    else
      match reading reader (trim text) with
      | .ok value => some (value.opaqueDoubles castF64)
      | .error _ => none

def pairValue (pair : List UInt8 × List UInt8) : Option Value := decodeVariant pair.1 pair.2

def rowBytes : Option (List Char) → Nat × Nat
  | none => (0, 0)
  | some text =>
    if isBlank text then (0, 0)
    else
      match reading reader (trim text) with
      | .ok value => (metadataBytes value, value.encodedSize (dictionaryOf value).length)
      | .error _ => (0, 0)

variable {reader castF64} {row : Option (List Char)} {pair : Option (List UInt8 × List UInt8)}

theorem rowResult_ok : rowResult reader castF64 row = .ok pair ↔
    (pair = none ∧ ∀ text ∈ row, isBlank text = true) ∨
    ∃ text ∈ row, isBlank text = false ∧ ∃ value, reading reader (trim text) = .ok value ∧
      ∃ bytes, encodedPair castF64 value = .ok bytes ∧ pair = some bytes := by
  cases row with
  | none =>
    constructor
    · intro converted
      cases converted
      exact .inl ⟨rfl, fun _ here => nomatch here⟩
    · rintro (⟨rfl, _⟩ | ⟨text, here, _⟩)
      · rfl
      · cases here
  | some text =>
    simp only [rowResult, mapError_ok, rowEncoding, Option.mem_some_iff, forall_eq', exists_eq_left']
    cases isBlank text with
    | true =>
      rw [if_pos rfl, Except.ok.injEq]
      constructor
      · intro none_pair
        exact .inl ⟨none_pair.symm, rfl⟩
      · rintro (⟨rfl, _⟩ | ⟨some_text, _⟩)
        · rfl
        · cases some_text
    | false =>
      rw [if_neg Bool.false_ne_true]
      constructor
      · intro encoded
        cases read : reading reader (trim text) with
        | error reason =>
          rw [read] at encoded
          cases encoded
        | ok value =>
          rw [read] at encoded
          obtain ⟨bytes, made, rfl⟩ := map_ok.mp encoded
          exact .inr ⟨rfl, value, rfl, bytes, made, rfl⟩
      · rintro (⟨_, blank⟩ | ⟨_, value, read, bytes, made, rfl⟩)
        · cases blank
        · rw [read]
          exact map_ok.mpr ⟨bytes, made, rfl⟩

theorem rowResult_value (sound : reader.Sound) (converted : rowResult reader castF64 row = .ok pair)
    (small : ∀ text ∈ row, ∀ value, reading reader (trim text) = .ok value → keyBytes (dictionaryOf value) ≤ u32Max) :
    pair.map pairValue = (rowValue reader castF64 row).map some := by
  rcases rowResult_ok.mp converted with ⟨rfl, blank⟩ | ⟨text, rfl, some_text, value, read, bytes, encoded, rfl⟩
  · cases row with
    | none => rfl
    | some text =>
      rw [rowValue, if_pos (blank text rfl)]
      rfl
  · have valid := reading_valid sound read
    have decoded := (decodeVariant_fitting valid encoded (small text rfl value read)).2
    rw [rowValue, some_text, if_neg (by simp), read]
    exact congrArg some decoded

theorem rowResult_bytes (sound : reader.Sound) (converted : rowResult reader castF64 row = .ok pair) :
    (pair.getD ([], [])).1.length = (rowBytes reader row).1 ∧ (pair.getD ([], [])).2.length = (rowBytes reader row).2 := by
  rcases rowResult_ok.mp converted with ⟨rfl, blank⟩ | ⟨text, rfl, some_text, value, read, bytes, encoded, rfl⟩
  · cases row with
    | none => exact ⟨rfl, rfl⟩
    | some text =>
      rw [rowBytes, if_pos (blank text rfl)]
      exact ⟨rfl, rfl⟩
  · obtain ⟨written, coded⟩ := encodedPair_ok encoded
    rw [rowBytes, some_text, if_neg Bool.false_ne_true, read]
    exact ⟨metadataOf_length written, (encodeJsonValue_encodable (reading_valid sound read) coded).2⟩

theorem rowResult_ok_iff (sound : reader.Sound) : (∃ pair, rowResult reader castF64 row = .ok pair) ↔
    ∀ text ∈ row, isBlank text = false → ∃ value, reading reader (trim text) = .ok value ∧ value.Fits ∧
      keyBytes (dictionaryOf value) ≤ u64Max := by
  constructor
  · rintro ⟨pair, converted⟩ text here some_text
    rcases rowResult_ok.mp converted with ⟨_, blank⟩ | ⟨found, also, _, value, read, ⟨metadata, bytes⟩, encoded, _⟩
    · rw [blank text here] at some_text
      cases some_text
    · rw [here, Option.mem_some_iff] at also
      subst also
      have fits := (encodeJsonValue_encodable (reading_valid sound read) (encodedPair_ok encoded).2).1
      exact ⟨value, read, fits, keyBytes_of_encodedPair encoded⟩
  · intro each
    cases row with
    | none => exact ⟨none, rfl⟩
    | some text =>
      cases blank : isBlank text with
      | true => exact ⟨none, rowResult_ok.mpr (.inl ⟨rfl, by simpa using blank⟩)⟩
      | false =>
        obtain ⟨value, read, fits, keys⟩ := each text rfl blank
        obtain ⟨metadata, bytes, encoded⟩ := encodedPair_of_fits (reading_valid sound read) fits keys
        exact ⟨_, rowResult_ok.mpr (.inr ⟨text, rfl, blank, value, read, _, encoded, rfl⟩)⟩

theorem rowResult_some (converted : rowResult reader castF64 row = .ok pair) :
    pair.isNone = false ↔ ∃ text ∈ row, isBlank text = false := by
  rcases rowResult_ok.mp converted with ⟨rfl, blank⟩ | ⟨text, here, some_text, value, read, bytes, encoded, rfl⟩
  · constructor
    · intro some_pair
      cases some_pair
    · rintro ⟨text, here, some_text⟩
      rw [blank text here] at some_text
      cases some_text
  · exact ⟨fun _ => ⟨text, here, some_text⟩, fun _ => rfl⟩

def bytesOf (part : List UInt8 × List UInt8 → List UInt8) (pairs : List (Option (List UInt8 × List UInt8))) : Nat :=
  (pairs.map fun pair => (part (pair.getD ([], []))).length).sum

theorem encodeRow_result (sound : reader.Sound) (encoder : VariantEncoder) (row : Option (List Char)) :
    (encodeRow reader castF64 encoder row).1 = rowResult reader castF64 row := by
  cases row with
  | none => rfl
  | some text =>
    show (encoder.encodeToScratch reader castF64 text).1.mapError _ = _
    rw [encodeToScratch_rowEncoding sound]
    rfl

theorem appendRow_ok {metaBytes valBytes : Nat} {row : Option (List UInt8 × List UInt8)} {next : Nat × Nat} :
    appendRow metaBytes valBytes row = .ok next ↔
      metaBytes + (row.getD ([], [])).1.length ≤ i32Max ∧ valBytes + (row.getD ([], [])).2.length ≤ i32Max ∧
        next = (metaBytes + (row.getD ([], [])).1.length, valBytes + (row.getD ([], [])).2.length) := by
  simp only [appendRow, appendValue]
  by_cases metaFits : metaBytes + (row.getD ([], [])).1.length ≤ i32Max
  · by_cases valFits : valBytes + (row.getD ([], [])).2.length ≤ i32Max
    · simp [metaFits, valFits, bind, Except.bind, pure, Except.pure, eq_comm]
    · simp [metaFits, valFits, bind, Except.bind]
  · simp [metaFits, bind, Except.bind]

variable (reader castF64) in
/-- What becomes of the rows of a column whose builders have so many bytes, whatever the buffers of the encoder hold. -/
def packRows (metaBytes valBytes : Nat) : List (Option (List Char)) →
    Except (Stop ParquetSinkError) (List (Option (List UInt8 × List UInt8)))
  | [] => .ok []
  | row :: rest => do
    let pair ← rowResult reader castF64 row
    let bytes ← appendRow metaBytes valBytes pair
    let others ← packRows bytes.1 bytes.2 rest
    pure (pair :: others)

theorem convertRows_result (sound : reader.Sound) (encoder : VariantEncoder) (metaBytes valBytes : Nat)
    (rows : List (Option (List Char))) :
    (convertRows reader castF64 encoder metaBytes valBytes rows).1 = packRows reader castF64 metaBytes valBytes rows := by
  induction rows generalizing encoder metaBytes valBytes with
  | nil => rfl
  | cons row rest ih =>
    rw [convertRows, packRows, ← encodeRow_result sound encoder row]
    rcases encodeRow reader castF64 encoder row with ⟨stop | pair, after⟩
    · rfl
    · simp only [bind, Except.bind]
      cases appendRow metaBytes valBytes pair with
      | error stop => rfl
      | ok bytes =>
        simp only [ih]
        cases packRows reader castF64 bytes.1 bytes.2 rest <;> rfl

theorem packRows_ok {rows : List (Option (List Char))} {pairs : List (Option (List UInt8 × List UInt8))}
    {metaBytes valBytes : Nat} (metaStart : metaBytes ≤ i32Max) (valStart : valBytes ≤ i32Max) :
    packRows reader castF64 metaBytes valBytes rows = .ok pairs ↔ rows.mapM (rowResult reader castF64) = .ok pairs ∧
      metaBytes + bytesOf Prod.fst pairs ≤ i32Max ∧ valBytes + bytesOf Prod.snd pairs ≤ i32Max := by
  induction rows generalizing metaBytes valBytes pairs with
  | nil =>
    refine ⟨?_, And.left⟩
    rintro ⟨⟩
    exact ⟨rfl, metaStart, valStart⟩
  | cons row rest ih =>
    simp only [packRows, bind_ok, mapM_cons_ok, appendRow_ok]
    constructor
    · rintro ⟨pair, encoded, _, ⟨metaFits, valFits, rfl⟩, others, packed, ⟨⟩⟩
      obtain ⟨mapped, metaRest, valRest⟩ := (ih metaFits valFits).mp packed
      refine ⟨⟨pair, others, encoded, mapped, rfl⟩, ?_, ?_⟩
      · rw [bytesOf, List.map_cons, List.sum_cons, ← Nat.add_assoc]
        exact metaRest
      · rw [bytesOf, List.map_cons, List.sum_cons, ← Nat.add_assoc]
        exact valRest
    · rintro ⟨⟨pair, others, encoded, mapped, rfl⟩, metaFits, valFits⟩
      rw [bytesOf, List.map_cons, List.sum_cons, ← Nat.add_assoc] at metaFits valFits
      have metaHere := (Nat.le_add_right _ _).trans metaFits
      have valHere := (Nat.le_add_right _ _).trans valFits
      exact ⟨pair, encoded, _, ⟨metaHere, valHere, rfl⟩, others,
        (ih metaHere valHere).mpr ⟨mapped, metaFits, valFits⟩, rfl⟩

def Packed (pairs : List (Option (List UInt8 × List UInt8))) : Prop :=
  bytesOf Prod.fst pairs ≤ i32Max ∧ bytesOf Prod.snd pairs ≤ i32Max

theorem convertStringColumn_result (sound : reader.Sound) (encoder : VariantEncoder)
    (rows : List (Option (List Char))) :
    (convertStringColumn reader castF64 encoder rows).1 = packRows reader castF64 0 0 rows :=
  convertRows_result sound encoder 0 0 rows

end Rows

section Columns

variable (reader : JsonReader) (castF64 : UInt64 → UInt64)

def variantField (field : Field) : Field := { field with dataType := .variant, metadata := extensionMeta }

/-- What becomes of a column, whatever the buffers held. -/
def columnResult (arrow : ArrowLibrary Cell) (columnNames : List String) (pair : Field × Column Cell) :
    Except (Stop ParquetSinkError) (Field × Column Cell) :=
  if !columnNames.contains pair.1.name then .ok pair
  else
    match pair.2.texts? with
    | some rows => (packRows reader castF64 0 0 rows).map fun rows => (variantField pair.1, .variant rows)
    | none => .error (.returned (.variantEncoding ("column '" ++ pair.1.name ++
        "' is not a Utf8 or LargeUtf8 string array: " ++ arrow.debugType pair.2.dataType)))

/-- The value of each row of a converted column is what the text of that row says; the other columns stay. -/
def Prepared (columns : List String) (before after : Field × Column Cell) : Prop :=
  if before.1.name ∈ columns then
    after.1 = variantField before.1 ∧ ∃ rows pairs, before.2.texts? = some rows ∧ after.2 = .variant pairs ∧
      pairs.map (·.map pairValue) = rows.map fun row => (rowValue reader castF64 row).map some
  else after = before

/-- Whether a column can be converted: its texts can be encoded, within the offsets of two arrays, and where the field
    allows no nulls none is blank. -/
def Convertible (pair : Field × Column Cell) : Prop :=
  ∃ rows, pair.2.texts? = some rows ∧
    (rows.map fun row => (rowBytes reader row).1).sum ≤ i32Max ∧
    (rows.map fun row => (rowBytes reader row).2).sum ≤ i32Max ∧
    (∀ row ∈ rows, ∀ text ∈ row, isBlank text = false → ∃ value, reading reader (trim text) = .ok value ∧ value.Fits ∧
      keyBytes (dictionaryOf value) ≤ u64Max) ∧
    (pair.1.nullable = false → ∀ row ∈ rows, ∃ text ∈ row, isBlank text = false)

/-- The keys of every text of the columns are counted in four bytes. -/
def Readable (columns : List String) (batch : RecordBatch Cell) : Prop :=
  ∀ pair ∈ batch.pairs, pair.1.name ∈ columns → ∀ rows, pair.2.texts? = some rows → ∀ row ∈ rows, ∀ text ∈ row,
    ∀ value, reading reader (trim text) = .ok value → keyBytes (dictionaryOf value) ≤ u32Max

variable {reader castF64} {columnNames : List String} {pair made : Field × Column Cell}

theorem prepared_other (other : pair.1.name ∉ columnNames) : Prepared reader castF64 columnNames pair pair := by
  rw [Prepared, if_neg other]

theorem transformColumn_result (sound : reader.Sound) (encoder : VariantEncoder) (pair : Field × Column Cell) :
    (transformColumn arrow reader castF64 columnNames encoder pair).1 =
      columnResult reader castF64 arrow columnNames pair := by
  unfold transformColumn columnResult
  split
  · rfl
  · cases pair.2.texts? with
    | none => rfl
    | some rows =>
      show (convertStringColumn reader castF64 encoder rows).1.map _ = _
      rw [convertStringColumn_result sound]
      rfl

theorem columnResult_other (other : pair.1.name ∉ columnNames) :
    columnResult reader castF64 arrow columnNames pair = .ok pair :=
  if_pos (by simpa using other)

theorem columnResult_ok (wanted : pair.1.name ∈ columnNames) :
    columnResult reader castF64 arrow columnNames pair = .ok made ↔
      ∃ rows pairs, pair.2.texts? = some rows ∧ rows.mapM (rowResult reader castF64) = .ok pairs ∧ Packed pairs ∧
        made = (variantField pair.1, .variant pairs) := by
  have contained : ¬(!columnNames.contains pair.1.name) = true := by simpa using wanted
  rw [columnResult, if_neg contained]
  cases pair.2.texts? with
  | none =>
    constructor
    · intro failed
      cases failed
    · rintro ⟨rows, pairs, none_rows, _⟩
      cases none_rows
  | some rows =>
    show (packRows reader castF64 0 0 rows).map _ = _ ↔ _
    simp only [map_ok, packRows_ok (Nat.zero_le _) (Nat.zero_le _), Nat.zero_add]
    constructor
    · rintro ⟨pairs, ⟨converted, packed⟩, rfl⟩
      exact ⟨rows, pairs, rfl, converted, packed, rfl⟩
    · rintro ⟨_, pairs, ⟨⟩, converted, packed, rfl⟩
      exact ⟨pairs, ⟨converted, packed⟩, rfl⟩

theorem mapM_rowResult_values (sound : reader.Sound) {rows : List (Option (List Char))}
    {pairs : List (Option (List UInt8 × List UInt8))} (converted : rows.mapM (rowResult reader castF64) = .ok pairs)
    (small : ∀ row ∈ rows, ∀ text ∈ row, ∀ value, reading reader (trim text) = .ok value →
      keyBytes (dictionaryOf value) ≤ u32Max) :
    pairs.map (·.map pairValue) = rows.map fun row => (rowValue reader castF64 row).map some := by
  have each := mapM_ok converted
  clear converted
  induction each with
  | nil => rfl
  | cons first _ ih =>
    rw [List.forall_mem_cons] at small
    rw [List.map_cons, List.map_cons, ih small.2, rowResult_value sound first small.1]

theorem columnResult_prepared (sound : reader.Sound)
    (result : columnResult reader castF64 arrow columnNames pair = .ok made)
    (small : pair.1.name ∈ columnNames → ∀ rows, pair.2.texts? = some rows → ∀ row ∈ rows, ∀ text ∈ row,
      ∀ value, reading reader (trim text) = .ok value → keyBytes (dictionaryOf value) ≤ u32Max) :
    Prepared reader castF64 columnNames pair made := by
  unfold Prepared
  split
  · rename_i wanted
    obtain ⟨rows, pairs, texts, converted, -, rfl⟩ := (columnResult_ok wanted).mp result
    exact ⟨rfl, rows, pairs, texts, rfl, mapM_rowResult_values sound converted (small wanted rows texts)⟩
  · rename_i other
    rw [columnResult_other other] at result
    exact (Except.ok.inj result).symm

end Columns

section Routing

variable {reader : JsonReader} {castF64 : UInt64 → UInt64} {columnNames : List String} {pair made : Field × Column Cell}
  {pairs : List (Field × Column Cell)} {batch : RecordBatch Cell}

theorem RecordBatch.pairs_fields (batch : RecordBatch Cell) : batch.pairs.map Prod.fst = batch.schema.fields :=
  List.map_fst_zip (Nat.le_of_eq batch.fitting)

theorem RecordBatch.pairs_columns (batch : RecordBatch Cell) : batch.pairs.map Prod.snd = batch.columns :=
  List.map_snd_zip (Nat.le_of_eq batch.fitting.symm)

theorem RecordBatch.pairs_of (fields : batch.schema.fields = pairs.map Prod.fst)
    (columns : batch.columns = pairs.map Prod.snd) : batch.pairs = pairs := by
  rw [RecordBatch.pairs, fields, columns, ← List.unzip_fst, ← List.unzip_snd, List.zip_unzip]

theorem ArrowLibrary.tryNew_pairs (metadata : List (String × String)) (some_pair : pairs ≠ []) :
    (∃ batch, arrow.tryNew ⟨pairs.map Prod.fst, metadata⟩ (pairs.map Prod.snd) = .ok batch) ↔ Sized pairs := by
  have zipped : (pairs.map Prod.fst).zip (pairs.map Prod.snd) = pairs := by
    rw [← List.unzip_fst, ← List.unzip_snd, List.zip_unzip]
  constructor
  · rintro ⟨batch, made⟩
    obtain ⟨schema, columns⟩ := arrow.tryNew_ok _ _ _ made
    have sized := batch.valid (by rwa [columns, ne_eq, List.map_eq_nil_iff])
    rwa [schema, columns, zipped] at sized
  · intro sized
    exact arrow.tryNew_sized _ _ (by simp) (by rwa [zipped])

theorem ArrowLibrary.tryNew_made {metadata : List (String × String)}
    (made : arrow.tryNew { fields := pairs.map Prod.fst, metadata } (pairs.map Prod.snd) = .ok batch) :
    batch.schema.metadata = metadata ∧ batch.pairs = pairs := by
  obtain ⟨schema, columns⟩ := arrow.tryNew_ok _ _ _ made
  exact ⟨by rw [schema], RecordBatch.pairs_of (by rw [schema]) columns⟩

theorem RecordBatch.sized (batch : RecordBatch Cell) (some_column : batch.pairs ≠ []) : Sized batch.pairs := by
  refine batch.valid fun none_column => some_column ?_
  rw [RecordBatch.pairs, none_column, List.zip_nil_right]

theorem Column.len_of_texts {column : Column Cell} {rows : List (Option (List Char))}
    (texts : column.texts? = some rows) : column.len = rows.length := by
  cases column with
  | utf8 _ | largeUtf8 _ =>
    cases texts
    rfl
  | variant _ | other _ _ => cases texts

theorem columnResult_len (result : columnResult reader castF64 arrow columnNames pair = .ok made) :
    made.2.len = pair.2.len := by
  by_cases wanted : pair.1.name ∈ columnNames
  · obtain ⟨rows, pairs, texts, converted, -, rfl⟩ := (columnResult_ok wanted).mp result
    rw [Column.len_of_texts texts]
    exact (mapM_ok converted).length_eq.symm
  · rw [columnResult_other wanted] at result
    rw [Except.ok.inj result]

theorem columnResult_typed (result : columnResult reader castF64 arrow columnNames pair = .ok made)
    (typed : pair.1.dataType = pair.2.dataType) : made.1.dataType = made.2.dataType := by
  by_cases wanted : pair.1.name ∈ columnNames
  · obtain ⟨rows, pairs, texts, converted, -, rfl⟩ := (columnResult_ok wanted).mp result
    rfl
  · rw [columnResult_other wanted] at result
    rw [← Except.ok.inj result, typed]

theorem mapM_rowResult_present {rows : List (Option (List Char))} {pairs : List (Option (List UInt8 × List UInt8))}
    (converted : rows.mapM (rowResult reader castF64) = .ok pairs) :
    (Column.variant pairs : Column Cell).hasNull = false ↔ ∀ row ∈ rows, ∃ text ∈ row, isBlank text = false := by
  have each := mapM_ok converted
  clear converted
  induction each with
  | nil => exact ⟨fun _ _ member => absurd member List.not_mem_nil, fun _ => rfl⟩
  | cons first _ ih =>
    rw [List.forall_mem_cons]
    exact Bool.or_eq_false_iff.trans (and_congr (rowResult_some first) ih)

theorem packed_bytes (sound : reader.Sound) {rows : List (Option (List Char))}
    {pairs : List (Option (List UInt8 × List UInt8))} (converted : rows.mapM (rowResult reader castF64) = .ok pairs) :
    bytesOf Prod.fst pairs = (rows.map fun row => (rowBytes reader row).1).sum ∧
      bytesOf Prod.snd pairs = (rows.map fun row => (rowBytes reader row).2).sum := by
  have each := mapM_ok converted
  clear converted
  induction each with
  | nil => exact ⟨rfl, rfl⟩
  | cons first _ ih =>
    obtain ⟨metaBytes, valBytes⟩ := rowResult_bytes sound first
    simp only [bytesOf, List.map_cons, List.sum_cons] at ih ⊢
    exact ⟨by rw [ih.1, metaBytes], by rw [ih.2, valBytes]⟩

theorem columnResult_convertible (sound : reader.Sound) (wanted : pair.1.name ∈ columnNames)
    (result : columnResult reader castF64 arrow columnNames pair = .ok made)
    (present : made.1.nullable = false → made.2.hasNull = false) : Convertible reader pair := by
  obtain ⟨rows, pairs, texts, converted, packed, rfl⟩ := (columnResult_ok wanted).mp result
  rw [Packed, (packed_bytes sound converted).1, (packed_bytes sound converted).2] at packed
  refine ⟨rows, texts, packed.1, packed.2, fun row member => ?_,
    fun strict => (mapM_rowResult_present converted).mp (present strict)⟩
  obtain ⟨found, _, same⟩ := mapM_ok_mem converted member
  exact (rowResult_ok_iff sound).mp ⟨found, same⟩

theorem Convertible.result (sound : reader.Sound) (convertible : Convertible reader pair)
    (wanted : pair.1.name ∈ columnNames) :
    ∃ made, columnResult reader castF64 arrow columnNames pair = .ok made ∧
      (made.1.nullable = false → made.2.hasNull = false) := by
  obtain ⟨rows, texts, metaFits, valFits, encodable, present⟩ := convertible
  obtain ⟨pairs, converted⟩ : ∃ pairs, rows.mapM (rowResult reader castF64) = .ok pairs :=
    mapM_ok_of_forall fun row member => (rowResult_ok_iff sound).mpr (encodable row member)
  have packed : Packed pairs := ⟨(packed_bytes sound converted).1 ▸ metaFits, (packed_bytes sound converted).2 ▸ valFits⟩
  refine ⟨(variantField pair.1, .variant pairs),
    (columnResult_ok wanted).mpr ⟨rows, pairs, texts, converted, packed, rfl⟩, ?_⟩
  intro strict
  exact (mapM_rowResult_present converted).mpr (present strict)

namespace SignalRouter

def converted (router : SignalRouter) (schema : Schema) : List String :=
  if router.variantEnabled then stringColumns schema variantCandidateColumns else []

variable {router : SignalRouter} {encoder : VariantEncoder} {signal : SignalKind} {prepared : PreparedBatch Cell}

theorem found_of_converted {schema : Schema} {name : String} (member : name ∈ router.converted schema) :
    (schema.fieldWithName name).isNone = false := by
  unfold converted at member
  split at member
  · have found := (List.mem_filter.mp member).2
    cases field : schema.fieldWithName name with
    | none =>
      rw [field] at found
      cases found
    | some _ => rfl
  · cases member

theorem transformToVariant_result (sound : reader.Sound) (encoder : VariantEncoder) (some_column : columnNames ≠ [])
    (found : ∀ name ∈ columnNames, (batch.schema.fieldWithName name).isNone = false) :
    (transformToVariant arrow reader castF64 encoder batch columnNames).1 =
      (batch.pairs.mapM (columnResult reader castF64 arrow columnNames)).bind fun pairs =>
        (arrow.tryNew { fields := pairs.map Prod.fst, metadata := batch.schema.metadata }
          (pairs.map Prod.snd)).mapError (.returned ∘ .arrow) := by
  have known : columnNames.find? (fun name => (batch.schema.fieldWithName name).isNone) = none := by
    rw [List.find?_eq_none]
    intro name member
    rw [found name member]
    exact Bool.false_ne_true
  unfold transformToVariant
  rw [if_neg (by simpa using some_column), known]
  show Except.bind (scanM _ encoder batch.pairs).1 _ = _
  rw [scanM_result (transformColumn_result sound)]

theorem routeAndPrepare_ok (sound : reader.Sound) (encoder : VariantEncoder) :
    (router.routeAndPrepare arrow reader castF64 encoder signal batch).1 = .ok prepared ↔ prepared.signal = signal.asStr ∧
      (router.converted batch.schema = [] ∧ prepared.batch = batch ∨
        router.converted batch.schema ≠ [] ∧ ∃ pairs,
          batch.pairs.mapM (columnResult reader castF64 arrow (router.converted batch.schema)) = .ok pairs ∧
          arrow.tryNew { fields := pairs.map Prod.fst, metadata := batch.schema.metadata } (pairs.map Prod.snd) =
            .ok prepared.batch) := by
  have unchanged :
      (Except.ok ⟨signal.asStr, batch⟩ : Except (Stop ParquetSinkError) (PreparedBatch Cell)) = .ok prepared ↔
        prepared.signal = signal.asStr ∧ prepared.batch = batch := by
    rw [Except.ok.injEq]
    constructor
    · rintro rfl
      exact ⟨rfl, rfl⟩
    · rintro ⟨named, same⟩
      rw [← named, ← same]
  have columns : router.converted batch.schema =
      if router.variantEnabled then stringColumns batch.schema variantCandidateColumns else [] := rfl
  unfold routeAndPrepare prepareBatch
  cases enabled : router.variantEnabled with
  | false =>
    rw [enabled, if_neg Bool.false_ne_true] at columns
    rw [columns]
    simpa using unchanged
  | true =>
    rw [enabled, if_pos rfl] at columns
    rw [columns, if_neg (by simp)]
    dsimp only
    by_cases empty : stringColumns batch.schema variantCandidateColumns = []
    · rw [if_pos (by rw [empty]; rfl), unchanged]
      simp [empty]
    · have found : ∀ name ∈ stringColumns batch.schema variantCandidateColumns,
          (batch.schema.fieldWithName name).isNone = false := by
        intro name member
        rw [← columns] at member
        exact found_of_converted member
      rw [if_neg (by simpa using empty)]
      show ((transformToVariant arrow reader castF64 encoder batch _).1).map _ = _ ↔ _
      rw [transformToVariant_result sound encoder empty found, map_ok]
      constructor
      · rintro ⟨result, transformed, rfl⟩
        obtain ⟨pairs, mapped, tried⟩ := bind_ok.mp transformed
        exact ⟨rfl, .inr ⟨empty, pairs, mapped, mapError_ok.mp tried⟩⟩
      · rintro ⟨named, ⟨none_column, _⟩ | ⟨_, pairs, mapped, made⟩⟩
        · exact absurd none_column empty
        · refine ⟨prepared.batch, bind_ok.mpr ⟨pairs, mapped, mapError_ok.mpr made⟩, ?_⟩
          rw [← named]

theorem some_pair_of_converted (some_column : router.converted batch.schema ≠ []) : batch.pairs ≠ [] := by
  obtain ⟨name, member⟩ := List.exists_mem_of_ne_nil _ some_column
  have found := found_of_converted member
  cases field : batch.schema.fieldWithName name with
  | none =>
    rw [field] at found
    cases found
  | some field' =>
    have listed := List.mem_of_find?_eq_some field
    rw [← batch.pairs_fields] at listed
    obtain ⟨pair, member, _⟩ := List.mem_map.mp listed
    exact List.ne_nil_of_mem member

theorem sized_of_mapM (some_column : router.converted batch.schema ≠ [])
    (mapped : batch.pairs.mapM (columnResult reader castF64 arrow (router.converted batch.schema)) = .ok pairs)
    (present : ∀ pair ∈ batch.pairs, ∀ made,
      columnResult reader castF64 arrow (router.converted batch.schema) pair = .ok made →
        made.1.nullable = false → made.2.hasNull = false) : Sized pairs := by
  have whole := batch.sized (some_pair_of_converted some_column)
  obtain ⟨first, member⟩ := List.exists_mem_of_ne_nil _ whole.some_column
  obtain ⟨rows, sized⟩ := whole.sized
  constructor
  case some_column =>
    obtain ⟨made, listed, _⟩ := mapM_ok_mem mapped member
    exact List.ne_nil_of_mem listed
  case sized =>
    refine ⟨rows, fun made listed => ?_⟩
    obtain ⟨pair, member, result⟩ := mapM_ok_mem_output mapped listed
    rw [columnResult_len result, sized pair member]
  case present =>
    intro made listed
    obtain ⟨pair, member, result⟩ := mapM_ok_mem_output mapped listed
    exact present pair member made result
  case typed =>
    intro made listed
    obtain ⟨pair, member, result⟩ := mapM_ok_mem_output mapped listed
    exact columnResult_typed result (whole.typed pair member)

theorem routeAndPrepare_of_convertible (router : SignalRouter) (sound : reader.Sound) (castF64 : UInt64 → UInt64)
    (encoder : VariantEncoder) (signal : SignalKind) (batch : RecordBatch Cell)
    (each : ∀ pair ∈ batch.pairs, pair.1.name ∈ router.converted batch.schema → Convertible reader pair) :
    ∃ prepared, (router.routeAndPrepare arrow reader castF64 encoder signal batch).1 = .ok prepared := by
  by_cases none_column : router.converted batch.schema = []
  · exact ⟨⟨signal.asStr, batch⟩, (routeAndPrepare_ok sound encoder).mpr ⟨rfl, .inl ⟨none_column, rfl⟩⟩⟩
  · have results : ∀ pair ∈ batch.pairs, ∃ made,
        columnResult reader castF64 arrow (router.converted batch.schema) pair = .ok made ∧
          (made.1.nullable = false → made.2.hasNull = false) := by
      intro pair member
      by_cases wanted : pair.1.name ∈ router.converted batch.schema
      · exact (each pair member wanted).result sound wanted
      · exact ⟨pair, columnResult_other wanted, (batch.sized (List.ne_nil_of_mem member)).present pair member⟩
    obtain ⟨pairs, mapped⟩ := mapM_ok_of_forall fun pair member => (results pair member).imp fun _ both => both.1
    have sized := sized_of_mapM none_column mapped fun pair member made result => by
      obtain ⟨found, also, present⟩ := results pair member
      rw [result] at also
      exact Except.ok.inj also ▸ present
    obtain ⟨made, tried⟩ : ∃ made, arrow.tryNew
        { fields := pairs.map Prod.fst, metadata := batch.schema.metadata } (pairs.map Prod.snd) = .ok made :=
      (arrow.tryNew_pairs batch.schema.metadata sized.some_column).mpr sized
    exact ⟨⟨signal.asStr, made⟩, (routeAndPrepare_ok sound encoder).mpr
      ⟨rfl, .inr ⟨none_column, pairs, mapped, tried⟩⟩⟩

/-- What the buffers of the encoder hold does not matter. -/
theorem routeAndPrepare_encoder (sound : reader.Sound) (encoder other : VariantEncoder) :
    (router.routeAndPrepare arrow reader castF64 other signal batch).1 =
      (router.routeAndPrepare arrow reader castF64 encoder signal batch).1 := by
  unfold routeAndPrepare prepareBatch
  split
  · rfl
  · rename_i enabled
    dsimp only
    split
    · rfl
    · rename_i empty
      have found : ∀ name ∈ stringColumns batch.schema variantCandidateColumns,
          (batch.schema.fieldWithName name).isNone = false := by
        intro name member
        have chosen : name ∈ router.converted batch.schema := by
          rwa [converted, if_pos (by simpa using enabled)]
        exact found_of_converted chosen
      rw [List.isEmpty_iff] at empty
      show (transformToVariant arrow reader castF64 other batch _).1.map _ =
        (transformToVariant arrow reader castF64 encoder batch _).1.map _
      rw [transformToVariant_result sound other empty found, transformToVariant_result sound encoder empty found]

/-- The router takes a batch exactly when the texts of all its candidate string columns can be encoded, within the
    offsets of the two arrays of a column, and none of them is null or blank in a column that allows no nulls. -/
theorem routeAndPrepare_ok_iff (router : SignalRouter) (sound : reader.Sound) (castF64 : UInt64 → UInt64)
    (encoder : VariantEncoder) (signal : SignalKind) (batch : RecordBatch Cell) :
    (∃ prepared, (router.routeAndPrepare arrow reader castF64 encoder signal batch).1 = .ok prepared) ↔
      ∀ pair ∈ batch.pairs, pair.1.name ∈ router.converted batch.schema → Convertible reader pair := by
  constructor
  · rintro ⟨prepared, routed⟩ pair member wanted
    obtain ⟨_, ⟨none_column, _⟩ | ⟨_, pairs, mapped, tried⟩⟩ := (routeAndPrepare_ok sound encoder).mp routed
    · rw [none_column] at wanted
      cases wanted
    · obtain ⟨made, listed, result⟩ := mapM_ok_mem mapped member
      have sized := (arrow.tryNew_pairs _ (List.ne_nil_of_mem listed)).mp ⟨_, tried⟩
      exact columnResult_convertible sound wanted result (sized.present made listed)
  · exact routeAndPrepare_of_convertible router sound castF64 encoder signal batch

def attributeColumn : Column Nat := .utf8 [some oneAttributeText, none]

def attributeField : Field := { name := "attributes", dataType := .utf8, nullable := true }

def attributeBatch : RecordBatch Nat where
  schema := { fields := [attributeField] }
  columns := [attributeColumn]
  fitting := rfl
  valid _ := ⟨List.cons_ne_nil _ _, ⟨2, by decide⟩, by decide, by decide⟩

def fitting (pairs : List (Field × Column Cell)) : Bool :=
  !pairs.isEmpty && pairs.all fun pair =>
    pair.2.len = ((pairs.head?).map fun first => first.2.len).getD 0 && (pair.1.nullable || !pair.2.hasNull) &&
      pair.1.dataType = pair.2.dataType

theorem fitting_iff {pairs : List (Field × Column Cell)} : fitting pairs = true ↔ Sized pairs := by
  cases pairs with
  | nil => exact ⟨(nomatch ·), fun sized => absurd rfl sized.some_column⟩
  | cons first rest =>
    simp only [fitting, List.isEmpty_cons, Bool.not_false, Bool.true_and, List.all_eq_true, Bool.and_eq_true,
      decide_eq_true_eq, Bool.or_eq_true, Bool.not_eq_true', List.head?_cons, Option.map_some, Option.getD_some]
    constructor
    · intro each
      refine ⟨List.cons_ne_nil _ _, ⟨first.2.len, fun pair member => of_decide_eq_true (each pair member).1.1⟩,
        fun pair member strict => ?_,
        fun pair member => (each pair member).2⟩
      exact (each pair member).1.2.resolve_left (by simp [strict])
    · intro sized pair member
      obtain ⟨rows, even⟩ := sized.sized
      refine ⟨⟨decide_eq_true ((even pair member).trans (even first List.mem_cons_self).symm), ?_⟩,
        sized.typed pair member⟩
      cases strict : pair.1.nullable with
      | true => exact .inl rfl
      | false => exact .inr (sized.present pair member strict)

def plainArrow : ArrowLibrary Cell where
  tryNew schema columns :=
    if same : schema.fields.length = columns.length then
      if sized : fitting (schema.fields.zip columns) = true then
        .ok { schema := schema, columns := columns, fitting := same, valid := fun _ => fitting_iff.mp sized }
      else .error "all columns in a record batch must have the specified row count"
    else .error "number of columns must match number of fields in schema"
  debugType _ := "DataType"
  tryNew_ok := by
    intro schema columns batch made
    split at made
    · split at made
      · cases made
        exact ⟨rfl, rfl⟩
      · cases made
    · cases made
  tryNew_sized := by
    intro schema columns same sized
    rw [dif_pos same, dif_pos (fitting_iff.mpr sized)]
    exact ⟨_, rfl⟩

theorem reading_oneAttribute :
    reading (.ofText oneAttributeText oneAttribute) (trim oneAttributeText) = .ok oneAttribute := by
  rfl

theorem dictionaryOf_oneAttribute : dictionaryOf oneAttribute = ["k"] := by
  simp [oneAttribute, dictionaryOf, collectAllKeys, collectEntries, sortKeys]

theorem attributeBatch_text {pair : Field × Column Nat} (member : pair ∈ attributeBatch.pairs)
    {rows : List (Option (List Char))} (texts : pair.2.texts? = some rows) {row : Option (List Char)}
    (listed : row ∈ rows) {text : List Char} (here : text ∈ row) : text = oneAttributeText := by
  rw [List.mem_singleton.mp member] at texts
  cases texts
  rcases List.mem_cons.mp listed with rfl | last
  · exact (Option.mem_some_iff.mp here).symm
  · rw [List.mem_singleton.mp last] at here
    cases here

theorem rowBytes_oneAttribute :
    rowBytes (.ofText oneAttributeText oneAttribute) (some oneAttributeText) = (5, 7) := by
  have read : reading (.ofText oneAttributeText oneAttribute) (trim oneAttributeText) = .ok oneAttribute := rfl
  rw [rowBytes, if_neg (by decide), read]
  simp only [metadataBytes, dictionaryOf_oneAttribute]
  decide

theorem attributeBatch_convertible : ∀ pair ∈ attributeBatch.pairs,
    Convertible (.ofText oneAttributeText oneAttribute) pair := by
  intro pair member
  have texts : pair.2.texts? = some [some oneAttributeText, none] := by
    rw [List.mem_singleton.mp member]
    rfl
  refine ⟨_, texts, ?_, ?_, ?_, ?_⟩
  · rw [List.map_cons, rowBytes_oneAttribute]
    decide
  · rw [List.map_cons, rowBytes_oneAttribute]
    decide
  · intro row listed text here _
    rw [attributeBatch_text member texts listed here]
    refine ⟨oneAttribute, reading_oneAttribute, ?_, ?_⟩
    · exact .object _ (by simpa using Value.Encodable.number _) (by decide)
    · rw [dictionaryOf_oneAttribute]
      decide
  · intro strict
    rw [List.mem_singleton.mp member] at strict
    cases strict

theorem attributeBatch_readable (columns : List String) :
    Readable (.ofText oneAttributeText oneAttribute) columns attributeBatch := by
  intro pair member _ rows texts row listed text here value read
  rw [attributeBatch_text member texts listed here, reading_oneAttribute] at read
  cases read
  rw [dictionaryOf_oneAttribute]
  decide

theorem routeAndPrepare_ok_iff_attributes : ∃ prepared, ((⟨true⟩ : SignalRouter).routeAndPrepare plainArrow
    (.ofText oneAttributeText oneAttribute) (fun number => number.toFloat.toBits) {} .logs attributeBatch).1 =
      .ok prepared :=
  (routeAndPrepare_ok_iff ⟨true⟩ (JsonReader.ofText_sound oneAttributeText oneAttribute_valid)
    (fun number => number.toFloat.toBits) {} .logs attributeBatch).mpr
    fun pair member _ => attributeBatch_convertible pair member

/-- What the router returns says of every row what the batch said: a null where the text is missing, blank or `null`,
    the value of the JSON text, or else the text itself; all other columns, their order and the metadata stay. -/
theorem routeAndPrepare_preserves (router : SignalRouter) (sound : reader.Sound) (castF64 : UInt64 → UInt64)
    (encoder : VariantEncoder) (signal : SignalKind) (batch : RecordBatch Cell)
    (readable : Readable reader (router.converted batch.schema) batch)
    (routed : (router.routeAndPrepare arrow reader castF64 encoder signal batch).1 = .ok prepared) :
    prepared.signal = signal.asStr ∧ prepared.batch.schema.metadata = batch.schema.metadata ∧
      List.Forall₂ (Prepared reader castF64 (router.converted batch.schema)) batch.pairs prepared.batch.pairs ∧
      ∀ other, (router.routeAndPrepare arrow reader castF64 other signal batch).1 =
        (router.routeAndPrepare arrow reader castF64 encoder signal batch).1 := by
  obtain ⟨named, ⟨none_column, same⟩ | ⟨_, pairs, mapped, tried⟩⟩ := (routeAndPrepare_ok sound encoder).mp routed
  · rw [same, none_column]
    exact ⟨named, rfl, List.forall₂_same.mpr fun _ _ => prepared_other List.not_mem_nil,
      routeAndPrepare_encoder sound encoder⟩
  · obtain ⟨metadata, same⟩ := arrow.tryNew_made tried
    rw [same]
    refine ⟨named, metadata, ?_, routeAndPrepare_encoder sound encoder⟩
    exact mapM_ok_forall₂ mapped fun pair member made result =>
      columnResult_prepared sound result (readable pair member)

theorem routeAndPrepare_preserves_attributes : ∃ prepared, ((⟨true⟩ : SignalRouter).routeAndPrepare plainArrow
    (.ofText oneAttributeText oneAttribute) (fun number => number.toFloat.toBits) {} .logs attributeBatch).1 =
      .ok prepared ∧ prepared.signal = "logs".toList ∧ ∃ pair pairs, prepared.batch.pairs = [pair] ∧
      pair.2 = .variant pairs ∧ pairs.map (·.map pairValue) = [some (some oneAttribute), none] := by
  have sound := JsonReader.ofText_sound oneAttributeText oneAttribute_valid
  have router : (⟨true⟩ : SignalRouter).converted attributeBatch.schema = ["attributes"] := by decide
  obtain ⟨prepared, routed⟩ : ∃ prepared, ((⟨true⟩ : SignalRouter).routeAndPrepare plainArrow
      (.ofText oneAttributeText oneAttribute) (fun number => number.toFloat.toBits) {} .logs attributeBatch).1 =
        .ok prepared :=
    routeAndPrepare_of_convertible ⟨true⟩ sound (fun number => number.toFloat.toBits) {} .logs attributeBatch
      fun pair member _ => attributeBatch_convertible pair member
  obtain ⟨named, _, all, _⟩ := routeAndPrepare_preserves ⟨true⟩ sound (fun number => number.toFloat.toBits) {} .logs
    attributeBatch (attributeBatch_readable _) routed
  refine ⟨prepared, routed, named, ?_⟩
  rw [router] at all
  obtain ⟨pair, rest, first, none_rest, same⟩ := List.forall₂_cons_left_iff.mp all
  rw [List.forall₂_nil_left_iff.mp none_rest] at same
  rw [Prepared, if_pos (by decide)] at first
  obtain ⟨_, rows, pairs, texts, made, values⟩ := first
  cases texts
  exact ⟨pair, pairs, same, made, values⟩

end SignalRouter

end Routing

end OtelDatalake.Parquet.SignalRouting
