import OtelDatalake.Foundation.Outcome
import OtelDatalake.Parquet.VariantLayout

open OtelDatalake.Foundation OtelDatalake.Buffer

namespace OtelDatalake.Parquet

theorem readText_textBytes (text : String) : readText (textBytes text) = some text := by
  have same : (⟨(textBytes text).toArray⟩ : ByteArray) = text.toByteArray := rfl
  unfold readText String.fromUTF8?
  rw [same, dif_pos text.isValidUTF8]
  rfl

theorem textBytes_of_readText {bytes : List UInt8} {text : String} (read : readText bytes = some text) :
    textBytes text = bytes := by
  unfold readText String.fromUTF8? at read
  split at read
  · cases read
    simp [textBytes, String.fromUTF8]
  · cases read

theorem textKey_injective : Function.Injective textKey := by
  intro first second same
  have bytes : textBytes first = textBytes second :=
    List.map_injective_iff.mpr (fun a b equal => UInt8.toNat_inj.mp equal) same
  have read := readText_textBytes first
  rw [bytes, readText_textBytes second] at read
  exact (Option.some.inj read).symm

theorem readLe_append {size : Nat} {bytes : List UInt8} (exact_size : bytes.length = size) (rest : List UInt8) :
    readLe size (bytes ++ rest) = some (ofLe bytes, rest) := by
  subst exact_size
  simp [readLe]

theorem readLe_toLe {size value : Nat} (fits : value < 256 ^ size) (rest : List UInt8) :
    readLe size (toLe size value ++ rest) = some (value, rest) := by
  rw [readLe_append (toLe_length size value), ofLe_toLe fits]

theorem readAll_toLe (size : Nat) (values : List Nat) (rest : List UInt8) :
    readAll size values.length (values.flatMap (toLe size) ++ rest) =
      some (values.map fun value => value % 256 ^ size, rest) := by
  induction values with
  | nil => rfl
  | cons value values ih =>
    rw [List.length_cons, readAll, List.flatMap_cons, List.append_assoc, readLe_append (toLe_length size value),
      ofLe_toLe_mod]
    simp only [bind, Option.bind, ih, pure, List.map_cons]

theorem readAll_fitting {size : Nat} {values : List Nat} (fits : ∀ value ∈ values, value < 256 ^ size)
    (rest : List UInt8) : readAll size values.length (values.flatMap (toLe size) ++ rest) = some (values, rest) := by
  have same : (values.map fun value => value % 256 ^ size) = values := by
    conv_rhs => rw [← List.map_id values]
    apply List.map_congr_left
    intro value member
    exact Nat.mod_eq_of_lt (fits value member)
  rw [readAll_toLe, same]

def IsSize (size : Nat) : Prop := size = 1 ∨ size = 2 ∨ size = 4

theorem fieldOffsetSize_isSize (totalLen : Nat) : IsSize (fieldOffsetSize totalLen) := by
  unfold fieldOffsetSize IsSize
  split
  · simp
  · split <;> simp

theorem fieldIdSize_isSize (dictionaryLen : Nat) : IsSize (fieldIdSize dictionaryLen) := by
  unfold fieldIdSize IsSize
  split
  · simp
  · split <;> simp

theorem writeInt_ok {noun : String} {value size : Nat} {bytes : List UInt8} (valid : IsSize size)
    (written : writeInt noun value size = .ok bytes) : bytes = toLe size value ∧ value < 256 ^ size := by
  have limit : u32Max < 256 ^ 4 := by decide
  rcases valid with rfl | rfl | rfl
  · simp only [writeInt] at written
    by_cases fits : value ≤ 255
    · rw [if_pos fits] at written
      cases written
      exact ⟨rfl, by omega⟩
    · rw [if_neg fits] at written
      cases written
  · simp only [writeInt] at written
    by_cases fits : value ≤ 65535
    · rw [if_pos fits] at written
      cases written
      exact ⟨rfl, by omega⟩
    · rw [if_neg fits] at written
      cases written
  · simp only [writeInt] at written
    by_cases fits : value ≤ u32Max
    · rw [if_pos fits] at written
      cases written
      exact ⟨rfl, by omega⟩
    · rw [if_neg fits] at written
      cases written

theorem writeAll_ok {α : Type} {write : α → Except String (List UInt8)} {items : List α} {bytes : List UInt8}
    (written : writeAll write items = .ok bytes) :
    ∃ parts, List.Forall₂ (fun item part => write item = .ok part) items parts ∧ bytes = parts.flatten := by
  unfold writeAll at written
  cases mapped : items.mapM write with
  | error reason => simp [mapped, Except.map] at written
  | ok parts =>
    simp only [mapped, Except.map, Except.ok.injEq] at written
    exact ⟨parts, mapM_ok mapped, written.symm⟩

theorem writeAll_writeInt {noun : String} {size : Nat} {values : List Nat} {bytes : List UInt8} (valid : IsSize size)
    (written : writeAll (writeInt noun · size) values = .ok bytes) :
    bytes = values.flatMap (toLe size) ∧ ∀ value ∈ values, value < 256 ^ size := by
  obtain ⟨parts, each, rfl⟩ := writeAll_ok written
  clear written
  induction each with
  | nil => simp
  | cons first others ih =>
    obtain ⟨part, fits⟩ := writeInt_ok valid first
    obtain ⟨rest, restFits⟩ := ih
    subst part
    constructor
    · rw [List.flatten_cons, List.flatMap_cons, rest]
    · intro value member
      rcases List.mem_cons.mp member with head | tail
      · exact head ▸ fits
      · exact restFits value tail

@[elab_as_elim]
theorem Value.induction {motive : Value → Prop} (null : motive .null) (bool : ∀ value, motive (.bool value))
    (number : ∀ value, motive (.number value)) (string : ∀ value, motive (.string value))
    (array : ∀ items, (∀ item ∈ items, motive item) → motive (.array items))
    (object : ∀ entries, (∀ entry ∈ entries, motive entry.2) → motive (.object entries)) (value : Value) :
    motive value :=
  @Value.rec motive (fun items => ∀ item ∈ items, motive item) (fun entries => ∀ entry ∈ entries, motive entry.2)
    (fun entry => motive entry.2) null bool number string array object (by simp)
    (fun _ _ head tail => List.forall_mem_cons.mpr ⟨head, tail⟩) (by simp)
    (fun _ _ head tail => List.forall_mem_cons.mpr ⟨head, tail⟩) (fun _ _ value => value) value

/-- A number outside of `i64` is kept as a double. -/
def Number.opaqueDouble (castF64 : UInt64 → UInt64) : Number → Number
  | .posInt value => if value.toNat ≤ i64Max then .posInt value else .float (castF64 value)
  | number => number

mutual

/-- A value whose keys are looked up in another dictionary. -/
def image (castF64 : UInt64 → UInt64) (lookup : String → Option String) : Value → Option Value
  | .null => some .null
  | .bool value => some (.bool value)
  | .number value => some (.number (value.opaqueDouble castF64))
  | .string value => some (.string value)
  | .array items => (imageItems castF64 lookup items).map .array
  | .object entries => do
    let keys ← (entries.map Prod.fst).mapM lookup
    let values ← imageEntries castF64 lookup entries
    return .object (keys.zip values)

def imageItems (castF64 : UInt64 → UInt64) (lookup : String → Option String) : List Value → Option (List Value)
  | [] => some []
  | item :: rest => do
    let first ← image castF64 lookup item
    let others ← imageItems castF64 lookup rest
    return first :: others

def imageEntries (castF64 : UInt64 → UInt64) (lookup : String → Option String) :
    List (String × Value) → Option (List Value)
  | [] => some []
  | (_, value) :: rest => do
    let first ← image castF64 lookup value
    let others ← imageEntries castF64 lookup rest
    return first :: others

end

mutual

def Value.opaqueDoubles (castF64 : UInt64 → UInt64) : Value → Value
  | .null => .null
  | .bool value => .bool value
  | .number value => .number (value.opaqueDouble castF64)
  | .string value => .string value
  | .array items => .array (opaqueItems castF64 items)
  | .object entries => .object (opaqueEntries castF64 entries)

def opaqueItems (castF64 : UInt64 → UInt64) : List Value → List Value
  | [] => []
  | item :: rest => item.opaqueDoubles castF64 :: opaqueItems castF64 rest

def opaqueEntries (castF64 : UInt64 → UInt64) : List (String × Value) → List (String × Value)
  | [] => []
  | (key, value) :: rest => (key, value.opaqueDoubles castF64) :: opaqueEntries castF64 rest

end

/-- What `serde_json` keeps of its values: a `NegInt` is negative, and the entries of a map are in the order of their
    keys. -/
inductive Value.Valid : Value → Prop where
  | null : Valid .null
  | bool (value : Bool) : Valid (.bool value)
  | number (value : Number) (negative : ∀ number, value = .negInt number → number.toInt < 0) : Valid (.number value)
  | string (value : String) : Valid (.string value)
  | array (items : List Value) (each : ∀ item ∈ items, Valid item) : Valid (.array items)
  | object (entries : List (String × Value))
      (ordered : entries.Pairwise fun first second => textKey first.1 < textKey second.1)
      (each : ∀ entry ∈ entries, Valid entry.2) : Valid (.object entries)

section Lists

variable (castF64 : UInt64 → UInt64) (dictionary : List String) (lookup : String → Option String)

theorem encodeItems_eq (items : List Value) :
    encodeItems castF64 dictionary items = items.map (encodeJsonValue castF64 dictionary) := by
  induction items with
  | nil => rfl
  | cons item rest ih => rw [encodeItems, ih, List.map_cons]

theorem encodeEntries_eq (entries : List (String × Value)) :
    encodeEntries castF64 dictionary entries =
      entries.map fun entry => (entry.1, encodeJsonValue castF64 dictionary entry.2) := by
  induction entries with
  | nil => rfl
  | cons entry rest ih => rw [encodeEntries, ih, List.map_cons]

theorem imageItems_eq (items : List Value) :
    imageItems castF64 lookup items = items.mapM (image castF64 lookup) := by
  induction items with
  | nil => rfl
  | cons item rest ih => rw [imageItems, ih, List.mapM_cons]

theorem imageEntries_eq (entries : List (String × Value)) :
    imageEntries castF64 lookup entries = (entries.map Prod.snd).mapM (image castF64 lookup) := by
  induction entries with
  | nil => rfl
  | cons entry rest ih => rw [imageEntries, ih, List.map_cons, List.mapM_cons]

theorem opaqueItems_eq (items : List Value) :
    opaqueItems castF64 items = items.map (Value.opaqueDoubles castF64) := by
  induction items with
  | nil => rfl
  | cons item rest ih => rw [opaqueItems, ih, List.map_cons]

theorem opaqueEntries_eq (entries : List (String × Value)) :
    opaqueEntries castF64 entries = entries.map fun entry => (entry.1, entry.2.opaqueDoubles castF64) := by
  induction entries with
  | nil => rfl
  | cons entry rest ih => rw [opaqueEntries, ih, List.map_cons]

end Lists

theorem collectItems_eq (items : List Value) : collectItems items = items.flatMap collectAllKeys := by
  induction items with
  | nil => rfl
  | cons item rest ih => rw [collectItems, ih, List.flatMap_cons]

theorem collectEntries_eq (entries : List (String × Value)) :
    collectEntries entries = entries.flatMap fun entry => entry.1 :: collectAllKeys entry.2 := by
  induction entries with
  | nil => rfl
  | cons entry rest ih => rw [collectEntries, ih, List.flatMap_cons, List.cons_append]

theorem signed_mod {width : Nat} {value : Int} (low : -(256 ^ width : Int) ≤ 2 * value)
    (high : 2 * value < (256 ^ width : Int)) : signed width (value % 256 ^ width).toNat = value := by
  have positive : (0 : Int) < 256 ^ width := Int.pow_pos (by decide)
  unfold signed
  by_cases negative : value < 0
  · have shifted : value % 256 ^ width = value + 256 ^ width := by
      rw [← Int.add_emod_right, Int.emod_eq_of_lt (by omega) (by omega)]
    rw [shifted]
    have large : ¬ 2 * (value + 256 ^ width).toNat < 256 ^ width := by
      have cast : ((256 ^ width : Nat) : Int) = 256 ^ width := Int.natCast_pow 256 width
      omega
    rw [if_neg large, Int.toNat_of_nonneg (by omega)]
    omega
  · have kept : value % 256 ^ width = value := Int.emod_eq_of_lt (by omega) (by omega)
    rw [kept]
    have small : 2 * value.toNat < 256 ^ width := by
      have cast : ((256 ^ width : Nat) : Int) = 256 ^ width := Int.natCast_pow 256 width
      omega
    rw [if_pos small, Int.toNat_of_nonneg (by omega)]

theorem decodeInt_intToLe {width : Nat} {value : Int} (low : -(256 ^ width : Int) ≤ 2 * value)
    (high : 2 * value < (256 ^ width : Int)) (rest : List UInt8) :
    decodeInt width (intToLe width value ++ rest) = some (.number (numberOf value)) := by
  have positive : (0 : Int) < 256 ^ width := Int.pow_pos (by decide)
  have bounded : (value % 256 ^ width).toNat < 256 ^ width := by
    have above := Int.emod_lt_of_pos value positive
    have below := Int.emod_nonneg value (Int.ne_of_gt positive)
    have cast : ((256 ^ width : Nat) : Int) = 256 ^ width := Int.natCast_pow 256 width
    omega
  unfold decodeInt intToLe
  rw [readLe_toLe bounded, Option.map_some, signed_mod low high]

theorem numberOf_toInt {number : Int64} (negative : number.toInt < 0) : numberOf number.toInt = .negInt number := by
  rw [numberOf, if_neg (by omega), Int64.ofInt_toInt]

theorem numberOf_toNat (number : UInt64) : numberOf number.toNat = .posInt number := by
  rw [numberOf, if_pos (Int.natCast_nonneg _), Int.toNat_natCast, UInt64.ofNat_toNat]

section Decode

variable {castF64 : UInt64 → UInt64} {dictionary : List String} {fuel : Nat}

theorem decodeValue_primitive (typeId : Nat) (header : UInt8) (rest : List UInt8) (basic : (header &&& 3).toNat = 0)
    (info : (header >>> (2 : UInt8)).toNat = typeId) :
    decodeValue (fuel + 1) dictionary (header :: rest) = decodePrimitive typeId rest := by
  simp only [decodeValue, basic, info]

theorem decodeValue_int {value : Int} (low : -(256 ^ 8 : Int) ≤ 2 * value) (high : 2 * value < (256 ^ 8 : Int))
    {bytes : List UInt8}
    (written : bytes = if -128 ≤ value ∧ value ≤ 127 then 0x0C :: intToLe 1 value
      else if -32768 ≤ value ∧ value ≤ 32767 then 0x10 :: intToLe 2 value
      else if -2147483648 ≤ value ∧ value ≤ 2147483647 then 0x14 :: intToLe 4 value
      else 0x18 :: intToLe 8 value) (rest : List UInt8) :
    decodeValue (fuel + 1) dictionary (bytes ++ rest) = some (.number (numberOf value)) := by
  by_cases one : -128 ≤ value ∧ value ≤ 127
  · rw [written, if_pos one, List.cons_append, decodeValue_primitive 3 _ _ rfl rfl]
    exact decodeInt_intToLe (by omega) (by omega) rest
  · rw [if_neg one] at written
    by_cases two : -32768 ≤ value ∧ value ≤ 32767
    · rw [written, if_pos two, List.cons_append, decodeValue_primitive 4 _ _ rfl rfl]
      exact decodeInt_intToLe (by omega) (by omega) rest
    · rw [if_neg two] at written
      by_cases four : -2147483648 ≤ value ∧ value ≤ 2147483647
      · rw [written, if_pos four, List.cons_append, decodeValue_primitive 5 _ _ rfl rfl]
        exact decodeInt_intToLe (by omega) (by omega) rest
      · rw [written, if_neg four, List.cons_append, decodeValue_primitive 6 _ _ rfl rfl]
        exact decodeInt_intToLe low high rest

theorem decodeValue_double (bits : UInt64) (rest : List UInt8) :
    decodeValue (fuel + 1) dictionary (0x1C :: toLe 8 bits.toNat ++ rest) = some (.number (.float bits)) := by
  rw [List.cons_append, decodeValue_primitive 7 _ _ rfl rfl, decodePrimitive, readLe_toLe (UInt64.toNat_lt bits),
    Option.map_some, UInt64.ofNat_toNat]

theorem decodeValue_number {number : Number} (negative : ∀ value, number = .negInt value → value.toInt < 0)
    (rest : List UInt8) :
    decodeValue (fuel + 1) dictionary (encodeNumber castF64 number ++ rest) =
      some (.number (number.opaqueDouble castF64)) := by
  cases number with
  | posInt value =>
    by_cases fits : value.toNat ≤ i64Max
    · have bound : i64Max = 9223372036854775807 := rfl
      have read : decodeValue (fuel + 1) dictionary (encodeNumber castF64 (.posInt value) ++ rest) =
          some (.number (numberOf value.toNat)) :=
        decodeValue_int (by omega) (by omega) (by simp only [encodeNumber, Number.asI64, if_pos fits]) rest
      rw [read, numberOf_toNat, Number.opaqueDouble, if_pos fits]
    · have written : encodeNumber castF64 (.posInt value) = 0x1C :: toLe 8 (castF64 value).toNat := by
        simp only [encodeNumber, Number.asI64, if_neg fits, Number.asU64]
      rw [written, decodeValue_double, Number.opaqueDouble, if_neg fits]
  | negInt value =>
    have lower := Int64.le_toInt value
    have upper := Int64.toInt_lt value
    have read : decodeValue (fuel + 1) dictionary (encodeNumber castF64 (.negInt value) ++ rest) =
        some (.number (numberOf value.toInt)) :=
      decodeValue_int (by omega) (by omega) (by simp only [encodeNumber, Number.asI64]) rest
    rw [read, numberOf_toInt (negative value rfl)]
    rfl
  | float bits =>
    have written : encodeNumber castF64 (.float bits) = 0x1C :: toLe 8 bits.toNat := rfl
    rw [written, decodeValue_double]
    rfl

theorem decodeString_textBytes (text : String) (rest : List UInt8) :
    decodeString (textBytes text).length (textBytes text ++ rest) = some (.string text) := by
  unfold decodeString
  rw [if_neg (by simp), List.take_left, readText_textBytes]
  rfl

theorem shortHeader (length : Nat) (short : length < 64) :
    ((UInt8.ofNat length <<< 2 ||| 0x01) &&& 3).toNat = 1 ∧
      ((UInt8.ofNat length <<< 2 ||| 0x01) >>> (2 : UInt8)).toNat = length := by
  have all : ∀ n : Fin 64, ((UInt8.ofNat n.val <<< 2 ||| 0x01) &&& 3).toNat = 1 ∧
      ((UInt8.ofNat n.val <<< 2 ||| 0x01) >>> (2 : UInt8)).toNat = n.val := by decide
  exact all ⟨length, short⟩

theorem decodeValue_string {text : String} {bytes : List UInt8} (written : encodeString (textBytes text) = .ok bytes)
    (rest : List UInt8) : decodeValue (fuel + 1) dictionary (bytes ++ rest) = some (.string text) := by
  unfold encodeString at written
  by_cases short : (textBytes text).length < 64
  · rw [if_pos short] at written
    cases written
    obtain ⟨basic, info⟩ := shortHeader _ short
    rw [List.cons_append]
    simp only [decodeValue, basic, info]
    exact decodeString_textBytes text rest
  · rw [if_neg short] at written
    by_cases fits : (textBytes text).length ≤ u32Max
    · rw [if_pos fits] at written
      cases written
      have limit : u32Max < 256 ^ 4 := by decide
      rw [List.cons_append, List.cons_append, decodeValue_primitive 16 _ _ rfl rfl, decodePrimitive,
        List.append_assoc, readLe_toLe (by omega)]
      exact decodeString_textBytes text rest
    · rw [if_neg fits] at written
      cases written

end Decode

end OtelDatalake.Parquet
