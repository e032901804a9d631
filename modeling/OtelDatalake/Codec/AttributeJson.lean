import OtelDatalake.Foundation.Text

open OtelDatalake.Foundation

namespace OtelDatalake.Codec

abbrev Text := List Char

mutual

/-- `AnyValue` with its optional value; `other` stands for the variants that no branch of the codec names. -/
inductive AnyValue (F64 : Type) where
  | unset
  | stringValue (text : Text)
  | boolValue (flag : Bool)
  | intValue (number : Int)
  | doubleValue (number : F64)
  | arrayValue (values : List (AnyValue F64))
  | kvlistValue (values : List (KeyValue F64))
  | bytesValue (bytes : List UInt8)
  | other

inductive KeyValue (F64 : Type) where
  | mk (key : Text) (value : Option (AnyValue F64))

end

/-- What the codec uses of the floating-point numbers. -/
structure FloatFormat (F64 : Type) where
  isFinite : F64 → Bool
  display : F64 → Text
  ofInt : Int → F64
  ofNat : Nat → F64
  zero : F64

namespace KeyValue

variable {F64 : Type}

def key : KeyValue F64 → Text
  | mk key _ => key

def value : KeyValue F64 → Option (AnyValue F64)
  | mk _ value => value

def isSet : KeyValue F64 → Bool
  | mk _ none | mk _ (some .unset) => false
  | mk _ (some _) => true

end KeyValue

def hexEncode (bytes : List UInt8) : Text := bytes.flatMap fun byte => hexDigits 2 byte.toNat

def writeHexToString (buf : Text) (bytes : List UInt8) : Text := buf ++ hexEncode bytes

def escapeChar (c : Char) : Text :=
  if c = '"' then ['\\', '"']
  else if c = '\\' then ['\\', '\\']
  else if c = '\n' then ['\\', 'n']
  else if c = '\r' then ['\\', 'r']
  else if c = '\t' then ['\\', 't']
  else if c.toNat = 8 then ['\\', 'b']
  else if c.toNat = 12 then ['\\', 'f']
  else if c.toNat < 32 then '\\' :: 'u' :: hexDigits 4 c.toNat
  else [c]

/-- A text without anything to escape is appended as it is. -/
def escapeJsonStr (text buf : Text) : Text :=
  if text.any fun c => c == '"' || c == '\\' || decide (c.toNat < 32) then buf ++ text.flatMap escapeChar
  else buf ++ text

def linearScanThreshold : Nat := 32

section Writing

variable {F64 : Type} (format : FloatFormat F64)

/-- The last attribute with a value wins its key: the mask of the winners and the keys that were seen, from the end. -/
def keepWinners : List (KeyValue F64) → List Bool × List Text
  | [] => ([], [])
  | attr :: rest =>
    let (keep, seen) := keepWinners rest
    if attr.isSet && !seen.contains attr.key then (true :: keep, attr.key :: seen) else (false :: keep, seen)

/-- Long lists are looked through once, before they are written. -/
def keepMask (attrs : List (KeyValue F64)) : Option (List Bool) :=
  if linearScanThreshold < attrs.length then some (keepWinners attrs).1 else none

def isOverwritten (mask : Option (List Bool)) (key : Text) (rest : List (KeyValue F64)) : Bool :=
  match mask with
  | some keep => !keep.headD false
  | none => rest.any fun later => later.key == key && later.isSet

/-- A finite number is written so that it reads as a floating-point number. -/
def writeDouble (buf : Text) (number : F64) : Text :=
  if format.isFinite number then
    let text := format.display number
    if text.any fun c => c == '.' || c == 'e' || c == 'E' then buf ++ text else buf ++ text ++ ['.', '0']
  else buf ++ "null".toList

def boolText (flag : Bool) : Text := if flag then "true".toList else "false".toList

mutual

def writeAnyValueJson (buf : Text) : AnyValue F64 → Text
  | .stringValue text => escapeJsonStr text (buf ++ ['"']) ++ ['"']
  | .intValue number => buf ++ (toString number).toList
  | .doubleValue number => writeDouble format buf number
  | .boolValue flag => buf ++ boolText flag
  | .bytesValue bytes => writeHexToString (buf ++ ['"']) bytes ++ ['"']
  | .arrayValue values => writeItemsJson (buf ++ ['[']) true values ++ [']']
  | .kvlistValue [] => buf ++ ['\x7b', '\x7d']
  | .kvlistValue (attr :: rest) =>
    writeEntriesJson (buf ++ ['\x7b']) (keepMask (attr :: rest)) true (attr :: rest) ++ ['\x7d']
  | .unset | .other => buf ++ "null".toList

def writeItemsJson (buf : Text) (first : Bool) : List (AnyValue F64) → Text
  | [] => buf
  | item :: rest => writeItemsJson (writeAnyValueJson (if first then buf else buf ++ [',']) item) false rest

def writeEntriesJson (buf : Text) (mask : Option (List Bool)) (first : Bool) : List (KeyValue F64) → Text
  | [] => buf
  | .mk _ none :: rest | .mk _ (some .unset) :: rest => writeEntriesJson buf (mask.map List.tail) first rest
  | .mk key (some value) :: rest =>
    if isOverwritten mask key rest then writeEntriesJson buf (mask.map List.tail) first rest
    else
      let separated := if first then buf else buf ++ [',']
      let keyed := escapeJsonStr key (separated ++ ['"']) ++ ['"', ':']
      writeEntriesJson (writeAnyValueJson keyed value) (mask.map List.tail) false rest

end

def writeKvlistJson (buf : Text) (attrs : List (KeyValue F64)) : Text := writeAnyValueJson format buf (.kvlistValue attrs)

/-- The buffer is cleared first. -/
def writeAttributesJson (_buf : Text) (attrs : List (KeyValue F64)) : Text := writeKvlistJson format [] attrs

def convertAttributes (attrs : List (KeyValue F64)) : Text := writeAttributesJson format [] attrs

mutual

def writeAnyValueString (buf : Text) : AnyValue F64 → Text
  | .stringValue text => buf ++ text
  | .intValue number => buf ++ (toString number).toList
  | .doubleValue number => buf ++ format.display number
  | .boolValue flag => buf ++ boolText flag
  | .kvlistValue values => writeKvlistJson format buf values
  | .arrayValue values => writeItemsString (buf ++ ['[']) true values ++ [']']
  | .bytesValue bytes => writeHexToString buf bytes
  | .unset | .other => buf

def writeItemsString (buf : Text) (first : Bool) : List (AnyValue F64) → Text
  | [] => buf
  | item :: rest => writeItemsString (writeAnyValueString (if first then buf else buf ++ [',']) item) false rest

end

def anyValueToString (value : AnyValue F64) : Text := writeAnyValueString format [] value

/-- What is appended to the builder for a value, and what is left in the scratch buffer. -/
def appendAnyValueToBuilder (scratch : Text) (value : Option (AnyValue F64)) : Text × Text :=
  match value with
  | none | some .unset => ([], scratch)
  | some (.stringValue text) => (text, scratch)
  | some (.boolValue flag) => (boolText flag, scratch)
  | some (.bytesValue bytes) => (hexEncode bytes, scratch)
  | some value =>
    let written := writeAnyValueString format [] value
    (written, written)

def extractServiceName (attributes : List (KeyValue F64)) : Text :=
  match (attributes.reverse.find? fun attr => attr.key == "service.name".toList && attr.isSet).bind KeyValue.value with
  | none | some .unset => "unknown".toList
  | some (.stringValue text) => text
  | some value => anyValueToString format value

def bodyText (value : Option (AnyValue F64)) : Text := (value.map (anyValueToString format)).getD []

/-- The scratch buffer has no influence on what is appended. -/
theorem appendAnyValueToBuilder_fst (scratch : Text) (value : Option (AnyValue F64)) :
    (appendAnyValueToBuilder format scratch value).1 = bodyText format value := by
  cases value with
  | none => rfl
  | some value =>
    cases value <;> simp [appendAnyValueToBuilder, bodyText, anyValueToString, writeAnyValueString, writeHexToString]

end Writing

end OtelDatalake.Codec
