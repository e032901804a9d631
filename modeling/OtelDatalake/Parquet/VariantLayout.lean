import OtelDatalake.Parquet.Variant

open OtelDatalake.Foundation OtelDatalake.Buffer

namespace OtelDatalake.Parquet

def readText (bytes : List UInt8) : Option String := String.fromUTF8? ⟨bytes.toArray⟩

def readLe (size : Nat) (bytes : List UInt8) : Option (Nat × List UInt8) :=
  if bytes.length < size then none else some (ofLe (bytes.take size), bytes.drop size)

def readAll (size : Nat) : (count : Nat) → List UInt8 → Option (List Nat × List UInt8)
  | 0, bytes => some ([], bytes)
  | count + 1, bytes => do
    let (value, rest) ← readLe size bytes
    let (values, rest) ← readAll size count rest
    return (value :: values, rest)

def signed (width value : Nat) : Int := if 2 * value < 256 ^ width then value else (value : Int) - 256 ^ width

def numberOf (value : Int) : Number :=
  if 0 ≤ value then .posInt (UInt64.ofNat value.toNat) else .negInt (Int64.ofInt value)

def decodeInt (width : Nat) (bytes : List UInt8) : Option Value :=
  (readLe width bytes).map fun read => .number (numberOf (signed width read.1))

def decodeString (length : Nat) (bytes : List UInt8) : Option Value :=
  if bytes.length < length then none else (readText (bytes.take length)).map .string

/-- The primitive types that a JSON value is encoded with. -/
def decodePrimitive (typeId : Nat) (bytes : List UInt8) : Option Value :=
  match typeId with
  | 0 => some .null
  | 1 => some (.bool true)
  | 2 => some (.bool false)
  | 3 => decodeInt 1 bytes
  | 4 => decodeInt 2 bytes
  | 5 => decodeInt 4 bytes
  | 6 => decodeInt 8 bytes
  | 7 => (readLe 8 bytes).map fun read => .number (.float (UInt64.ofNat read.1))
  | 16 => (readLe 4 bytes).bind fun read => decodeString read.1 read.2
  | _ => none

/-- A value of the Parquet Variant layout that starts the bytes: the two low bits of the header are the basic type, the
    others its parameters. `fuel` bounds the nesting. -/
def decodeValue : (fuel : Nat) → (dictionary : List String) → List UInt8 → Option Value
  | 0, _, _ => none
  | _ + 1, _, [] => none
  | fuel + 1, dictionary, header :: rest =>
    let info := (header >>> (2 : UInt8)).toNat
    match (header &&& 3).toNat with
    | 0 => decodePrimitive info rest
    | 1 => decodeString info rest
    | 2 => do
      let (count, rest) ← readLe (if info / 16 % 2 = 1 then 4 else 1) rest
      let (ids, rest) ← readAll (info / 4 % 4 + 1) count rest
      let (offsets, data) ← readAll (info % 4 + 1) (count + 1) rest
      let keys ← ids.mapM fun id => dictionary[id]?
      let values ← (offsets.take count).mapM fun offset => decodeValue fuel dictionary (data.drop offset)
      return .object (keys.zip values)
    | _ => do
      let (count, rest) ← readLe (if info / 4 % 2 = 1 then 4 else 1) rest
      let (offsets, data) ← readAll (info % 4 + 1) (count + 1) rest
      let values ← (offsets.take count).mapM fun offset => decodeValue fuel dictionary (data.drop offset)
      return .array values

def decodeKey (strings : List UInt8) (range : Nat × Nat) : Option String :=
  if range.1 ≤ range.2 ∧ range.2 ≤ strings.length then readText (slice range.1 (range.2 - range.1) strings) else none

/-- The dictionary of the metadata: version 1, the number of keys, their offsets and their bytes. -/
def decodeMetadata : List UInt8 → Option (List String)
  | [] => none
  | header :: rest =>
    if header &&& 0x0F ≠ 1 then none
    else do
      let size := (header >>> (6 : UInt8)).toNat + 1
      let (count, rest) ← readLe size rest
      let (offsets, strings) ← readAll size (count + 1) rest
      (offsets.zip offsets.tail).mapM (decodeKey strings)

def decodeVariant (metadata value : List UInt8) : Option Value := do
  let dictionary ← decodeMetadata metadata
  decodeValue value.length dictionary value

end OtelDatalake.Parquet
