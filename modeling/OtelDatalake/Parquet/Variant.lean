import Mathlib.Data.List.Destutter
import Mathlib.Data.List.Lex
import Mathlib.Algebra.Group.Int.Defs
import OtelDatalake.Buffer.Config
import OtelDatalake.Foundation.LittleEndian
import OtelDatalake.Foundation.Text

open OtelDatalake.Foundation OtelDatalake.Buffer

namespace OtelDatalake.Parquet

/-- `serde_json`'s numbers; a float is its bits. -/
inductive Number where
  | posInt (value : UInt64)
  | negInt (value : Int64)
  | float (bits : UInt64)
  deriving DecidableEq, Repr

/-- `serde_json::Value`; a map is a `BTreeMap`, the list of its entries. -/
inductive Value where
  | null
  | bool (value : Bool)
  | number (value : Number)
  | string (value : String)
  | array (items : List Value)
  | object (entries : List (String × Value))
  deriving Repr

def i64Max : Nat := 9223372036854775807

namespace Number

def asI64 : Number → Option Int
  | .posInt value => if value.toNat ≤ i64Max then some value.toNat else none
  | .negInt value => some value.toInt
  | .float _ => none

def asU64 : Number → Option UInt64
  | .posInt value => some value
  | _ => none

end Number

def textBytes (text : String) : List UInt8 := text.toUTF8.data.toList

def textKey (text : String) : List Nat := (textBytes text).map UInt8.toNat

def intToLe (width : Nat) (value : Int) : List UInt8 := toLe width (value % 256 ^ width).toNat

def staticEmptyMetadata : List UInt8 := [0x01, 0x00, 0x00]

def staticEmptyValue : List UInt8 := [0x02, 0x00, 0x00]

/-- `castF64` is the conversion `u as f64`. -/
def encodeNumber (castF64 : UInt64 → UInt64) (number : Number) : List UInt8 :=
  match number.asI64 with
  | some value =>
    if -128 ≤ value ∧ value ≤ 127 then 0x0C :: intToLe 1 value
    else if -32768 ≤ value ∧ value ≤ 32767 then 0x10 :: intToLe 2 value
    else if -2147483648 ≤ value ∧ value ≤ 2147483647 then 0x14 :: intToLe 4 value
    else 0x18 :: intToLe 8 value
  | none =>
    match number.asU64 with
    | some value =>
      if value.toNat ≤ i64Max then 0x18 :: intToLe 8 value.toNat else 0x1C :: toLe 8 (castF64 value).toNat
    | none =>
      match number with
      | .float bits => 0x1C :: toLe 8 bits.toNat
      | _ => []

def encodeString (bytes : List UInt8) : Except String (List UInt8) :=
  if bytes.length < 64 then .ok ((UInt8.ofNat bytes.length <<< 2 ||| 0x01) :: bytes)
  else if bytes.length ≤ u32Max then .ok (0x40 :: toLe 4 bytes.length ++ bytes)
  else .error "string length exceeds u32::MAX"

def runningOffsets : (start : Nat) → List (List UInt8) → List Nat
  | start, [] => [start]
  | start, part :: rest => start :: runningOffsets (start + part.length) rest

def fieldOffsetSize (totalLen : Nat) : Nat := if totalLen ≤ 255 then 1 else if totalLen ≤ 65535 then 2 else 4

def fieldIdSize (dictionaryLen : Nat) : Nat :=
  if dictionaryLen ≤ 256 then 1 else if dictionaryLen ≤ 65536 then 2 else 4

def sizeMinusOne (size : Nat) : UInt8 :=
  match size with
  | 1 => 0
  | 2 => 1
  | _ => 3

def writeInt (noun : String) (value size : Nat) : Except String (List UInt8) :=
  match size with
  | 1 => if value ≤ 255 then .ok (toLe 1 value) else .error (noun ++ " exceeds 1 byte")
  | 2 => if value ≤ 65535 then .ok (toLe 2 value) else .error (noun ++ " exceeds 2 bytes")
  | _ => if value ≤ u32Max then .ok (toLe 4 value) else .error (noun ++ " exceeds 4 bytes")

def writeIntToBuf : (value size : Nat) → Except String (List UInt8) := writeInt "offset/id"

def writeCount (noun : String) (count : Nat) : Except String (List UInt8) :=
  if 255 < count then
    if count ≤ u32Max then .ok (toLe 4 count) else .error (noun ++ " count exceeds u32::MAX")
  else .ok [UInt8.ofNat count]

def writeAll {α : Type} (write : α → Except String (List UInt8)) (values : List α) : Except String (List UInt8) :=
  (values.mapM write).map List.flatten

def sortEntries {α : Type} (entries : List (String × α)) : List (String × α) :=
  (entries.mergeSort fun first second => textKey first.1 ≤ textKey second.1).destutter fun first second =>
    first.1 ≠ second.1

def binarySearch (dictionary : List String) (key : String) : Except String Nat :=
  match dictionary.idxOf? key with
  | some id => .ok id
  | none => .error ("dictionary key '" ++ key ++ "' missing during value encoding")

def objectHeader (isLarge : Bool) (idSize offsetSize : Nat) : UInt8 :=
  let offsetBits : UInt8 := sizeMinusOne offsetSize &&& 0x03
  let idBits : UInt8 := (sizeMinusOne idSize &&& 0x03) <<< (2 : UInt8)
  let largeBit : UInt8 := (isLarge.toUInt8 &&& 0x01) <<< (4 : UInt8)
  (offsetBits ||| idBits ||| largeBit) <<< (2 : UInt8) ||| 0x02

def arrayHeader (isLarge : Bool) (offsetSize : Nat) : UInt8 :=
  let offsetBits : UInt8 := sizeMinusOne offsetSize &&& 0x03
  let largeBit : UInt8 := (isLarge.toUInt8 &&& 0x01) <<< (2 : UInt8)
  (offsetBits ||| largeBit) <<< (2 : UInt8) ||| 0x03

/-- `encode_object_to_buf`, for the entries of a map with the results of encoding their values. -/
def encodeObjectToBuf (dictionary : List String) (map : List (String × Except String (List UInt8))) :
    Except String (List UInt8) := do
  let entries := sortEntries map
  let staged ← entries.mapM Prod.snd
  let idSize := fieldIdSize dictionary.length
  let offsetSize := fieldOffsetSize staged.flatten.length
  let count ← writeCount "element" entries.length
  let idBytes ← writeAll (fun entry => (binarySearch dictionary entry.1).bind (writeIntToBuf · idSize)) entries
  let offsetBytes ← writeAll (writeIntToBuf · offsetSize) (runningOffsets 0 staged)
  return objectHeader (255 < entries.length) idSize offsetSize :: count ++ idBytes ++ offsetBytes ++ staged.flatten

def encodeArrayValue (elements : List (Except String (List UInt8))) : Except String (List UInt8) := do
  let staged ← elements.mapM id
  let offsetSize := fieldOffsetSize staged.flatten.length
  let count ← writeCount "array element" elements.length
  let offsetBytes ← writeAll (writeInt "offset" · offsetSize) (runningOffsets 0 staged)
  return arrayHeader (255 < elements.length) offsetSize :: count ++ offsetBytes ++ staged.flatten

mutual

def encodeJsonValue (castF64 : UInt64 → UInt64) (dictionary : List String) : Value → Except String (List UInt8)
  | .null => .ok [0x00]
  | .bool value => .ok [if value then 0x04 else 0x08]
  | .number value => .ok (encodeNumber castF64 value)
  | .string value => encodeString (textBytes value)
  | .array items => encodeArrayValue (encodeItems castF64 dictionary items)
  | .object entries => encodeObjectToBuf dictionary (encodeEntries castF64 dictionary entries)

def encodeItems (castF64 : UInt64 → UInt64) (dictionary : List String) : List Value →
    List (Except String (List UInt8))
  | [] => []
  | item :: rest => encodeJsonValue castF64 dictionary item :: encodeItems castF64 dictionary rest

def encodeEntries (castF64 : UInt64 → UInt64) (dictionary : List String) : List (String × Value) →
    List (String × Except String (List UInt8))
  | [] => []
  | (key, value) :: rest => (key, encodeJsonValue castF64 dictionary value) :: encodeEntries castF64 dictionary rest

end

mutual

def collectAllKeys : Value → List String
  | .array items => collectItems items
  | .object entries => collectEntries entries
  | _ => []

def collectItems : List Value → List String
  | [] => []
  | item :: rest => collectAllKeys item ++ collectItems rest

def collectEntries : List (String × Value) → List String
  | [] => []
  | (key, value) :: rest => key :: (collectAllKeys value ++ collectEntries rest)

end

def sortKeys (keys : List String) : List String :=
  (keys.mergeSort fun first second => textKey first ≤ textKey second).destutter (· ≠ ·)

def dictionaryOf (value : Value) : List String := sortKeys (collectAllKeys value)

def keyBytes (keys : List String) : Nat := (keys.map fun key => (textBytes key).length).sum

def dictionaryOffsetSize (maxVal : Nat) : Nat :=
  if maxVal ≤ 255 then 1 else if maxVal ≤ 65535 then 2 else if maxVal ≤ 0xFFFFFF then 3 else 4

/-- The bytes of `usize::to_le_bytes` up to `size`: the higher ones are dropped. -/
def writeIntLe (value size : Nat) : List UInt8 := (toLe 8 value).take size

def encodeDictionaryMetadata (keys : List String) : Except String (List UInt8) :=
  if u64Max < keyBytes keys then .error "dictionary key offset overflow"
  else
    let offsetSize := dictionaryOffsetSize (max (keyBytes keys) keys.length)
    let sizeBits : UInt8 := UInt8.ofNat (offsetSize - 1) <<< (6 : UInt8)
    .ok ((0x01 ||| 0x10 ||| sizeBits) :: writeIntLe keys.length offsetSize ++
      (runningOffsets 0 (keys.map textBytes)).flatMap (writeIntLe · offsetSize) ++ keys.flatMap textBytes)

structure VariantEncoder where
  metaBuf : List UInt8 := []
  valBuf : List UInt8 := []

structure JsonReader where
  fromStr : List Char → Except String Value

namespace VariantEncoder

/-- Each buffer is cleared and then written; what an error leaves in it is not read. -/
def fill (encoder : VariantEncoder) (metadata value : Except String (List UInt8)) :
    Except String Unit × VariantEncoder :=
  match metadata with
  | .error reason => (.error reason, { encoder with metaBuf := [] })
  | .ok metaBytes =>
    match value with
    | .error reason => (.error reason, { encoder with metaBuf := metaBytes, valBuf := [] })
    | .ok valBytes => (.ok (), { encoder with metaBuf := metaBytes, valBuf := valBytes })

def encodePrimitiveString (encoder : VariantEncoder) (trimmed : List Char) : Except String Unit × VariantEncoder :=
  encoder.fill (.ok staticEmptyMetadata) (encodeString (textBytes (String.ofList trimmed)))

def encodeJsonInternal (reader : JsonReader) (castF64 : UInt64 → UInt64) (encoder : VariantEncoder)
    (trimmed : List Char) : Except String Unit × VariantEncoder :=
  match reader.fromStr trimmed with
  | .error reason =>
    if trimmed.head? = some '\x7b' || trimmed.head? = some '[' then
      (.error ("invalid JSON payload: " ++ reason), encoder)
    else encoder.encodePrimitiveString trimmed
  | .ok (.object entries) =>
    if entries.isEmpty then encoder.fill (.ok staticEmptyMetadata) (.ok staticEmptyValue)
    else
      let allKeys := dictionaryOf (.object entries)
      encoder.fill (encodeDictionaryMetadata allKeys) (encodeObjectToBuf allKeys (encodeEntries castF64 allKeys entries))
  | .ok (.array items) =>
    let allKeys := dictionaryOf (.array items)
    encoder.fill (encodeDictionaryMetadata allKeys) (encodeArrayValue (encodeItems castF64 allKeys items))
  | .ok primitive => encoder.fill (.ok staticEmptyMetadata) (encodeJsonValue castF64 [] primitive)

def encodeJsonStr (reader : JsonReader) (castF64 : UInt64 → UInt64) (encoder : VariantEncoder) (jsonStr : List Char) :
    Except String (Option (List UInt8 × List UInt8)) × VariantEncoder :=
  let trimmed := trim jsonStr
  if trimmed = [] ∨ trimmed = "null".toList then (.ok none, encoder)
  else if trimmed = "\x7b\x7d".toList then (.ok (some (staticEmptyMetadata, staticEmptyValue)), encoder)
  else
    match encoder.encodeJsonInternal reader castF64 trimmed with
    | (.error reason, after) => (.error reason, after)
    | (.ok (), after) => (.ok (some (after.metaBuf, after.valBuf)), after)

/-- The slices that `encode_to_scratch` lends out are the static ones, or the buffers. -/
def encodeToScratch (reader : JsonReader) (castF64 : UInt64 → UInt64) (encoder : VariantEncoder)
    (jsonStr : List Char) : Except String (Option (List UInt8 × List UInt8)) × VariantEncoder :=
  let trimmed := trim jsonStr
  if trimmed = [] ∨ trimmed = "null".toList then (.ok none, encoder)
  else if trimmed = "\x7b\x7d".toList then (.ok (some (staticEmptyMetadata, staticEmptyValue)), encoder)
  else
    match encoder.encodeJsonInternal reader castF64 trimmed with
    | (.error reason, after) => (.error reason, after)
    | (.ok (), after) => (.ok (some (after.metaBuf, after.valBuf)), after)

end VariantEncoder

def readOffsets (metadata : List UInt8) (offsetSize : Nat) : (count pos : Nat) → Option (List Nat × Nat)
  | 0, pos => some ([], pos)
  | count + 1, pos =>
    if metadata.length < pos + offsetSize then none
    else (readOffsets metadata offsetSize count (pos + offsetSize)).map fun read =>
      (ofLe (slice pos offsetSize metadata) :: read.1, read.2)

def readKeys (metadata : List UInt8) (pos : Nat) : (offsets : List (Nat × Nat)) → (keys : List String) →
    Option (List String)
  | [], keys => some keys
  | (first, last) :: rest, keys =>
    if metadata.length < pos + last then some []
    else if last < first then none
    else
      match String.fromUTF8? ⟨(slice (pos + first) (last - first) metadata).toArray⟩ with
      | some key => readKeys metadata pos rest (keys ++ [key])
      | none => readKeys metadata pos rest keys

def parseDictionaryKeys : (metadata : List UInt8) → Option (List String)
  | [] => some []
  | header :: rest =>
    let metadata := header :: rest
    if header &&& 0x0F ≠ 1 then some []
    else
      let offsetSize := ((header >>> 6) &&& 0x03).toNat + 1
      if metadata.length < 1 + offsetSize then some []
      else
        let count := ofLe (slice 1 offsetSize metadata)
        if count = 0 then some []
        else
          match readOffsets metadata offsetSize (count + 1) (1 + offsetSize) with
          | none => some []
          | some (offsets, pos) => readKeys metadata pos (offsets.zip offsets.tail) []

end OtelDatalake.Parquet
