import OtelDatalake.Foundation.Parsing

namespace OtelDatalake.Foundation

/-- A JSON value; a number is the text that spells it. -/
inductive Json where
  | null
  | bool (flag : Bool)
  | number (text : List Char)
  | string (text : List Char)
  | array (items : List Json)
  | object (members : List (List Char × Json))

namespace Json

section Render

def escape (c : Char) : List Char :=
  if c = '"' then ['\\', '"']
  else if c = '\\' then ['\\', '\\']
  else if c = '\n' then ['\\', 'n']
  else if c = '\r' then ['\\', 'r']
  else if c = '\t' then ['\\', 't']
  else if c.toNat = 8 then ['\\', 'b']
  else if c.toNat = 12 then ['\\', 'f']
  else if c.toNat < 32 then '\\' :: 'u' :: hexDigits 4 c.toNat
  else [c]

def quote (text : List Char) : List Char := '"' :: text.flatMap escape ++ ['"']

mutual

def render : Json → List Char
  | .null => ['n', 'u', 'l', 'l']
  | .bool true => ['t', 'r', 'u', 'e']
  | .bool false => ['f', 'a', 'l', 's', 'e']
  | .number text => text
  | .string text => quote text
  | .array [] => ['[', ']']
  | .array (item :: rest) => '[' :: (render item ++ renderItems rest)
  | .object [] => ['\x7b', '\x7d']
  | .object ((name, value) :: rest) => '\x7b' :: (quote name ++ ':' :: (render value ++ renderMembers rest))

def renderItems : List Json → List Char
  | [] => [']']
  | item :: rest => ',' :: (render item ++ renderItems rest)

def renderMembers : List (List Char × Json) → List Char
  | [] => ['\x7d']
  | (name, value) :: rest => ',' :: (quote name ++ ':' :: (render value ++ renderMembers rest))

end

end Render

section Parse

def isSpace (c : Char) : Bool := c == ' ' || c == '\n' || c == '\r' || c == '\t'

def skipSpace (text : List Char) : List Char := text.dropWhile isSpace

def isHighSurrogate (code : Nat) : Bool := 0xD800 ≤ code && code ≤ 0xDBFF

def isLowSurrogate (code : Nat) : Bool := 0xDC00 ≤ code && code ≤ 0xDFFF

def shortEscape (c : Char) : Option Char :=
  if c = '"' then some '"'
  else if c = '\\' then some '\\'
  else if c = '/' then some '/'
  else if c = 'b' then some (Char.ofNat 8)
  else if c = 'f' then some (Char.ofNat 12)
  else if c = 'n' then some '\n'
  else if c = 'r' then some '\r'
  else if c = 't' then some '\t'
  else none

/-- What stands behind `\u`: four hexadecimal digits, or two times four for a pair of surrogates. -/
def readUnicode : List Char → Option (Char × List Char)
  | a :: b :: c :: d :: rest =>
    (readDigits 16 0 [a, b, c, d]).bind fun code =>
      if isHighSurrogate code then
        match rest with
        | '\\' :: 'u' :: e :: f :: g :: h :: rest =>
          (readDigits 16 0 [e, f, g, h]).bind fun low =>
            if isLowSurrogate low then
              some (Char.ofNat (0x10000 + (code - 0xD800) * 0x400 + (low - 0xDC00)), rest)
            else none
        | _ => none
      else if isLowSurrogate code then none
      else some (Char.ofNat code, rest)
  | _ => none

def readEscape : List Char → Option (Char × List Char)
  | [] => none
  | c :: rest => if c = 'u' then readUnicode rest else (shortEscape c).map (·, rest)

def parseString : Nat → List Char → Option (List Char × List Char)
  | 0, _ => none
  | _ + 1, [] => none
  | fuel + 1, c :: rest =>
    if c = '"' then some ([], rest)
    else if c = '\\' then
      (readEscape rest).bind fun read => (parseString fuel read.2).map fun tail => (read.1 :: tail.1, tail.2)
    else if c.toNat < 32 then none
    else (parseString fuel rest).map fun tail => (c :: tail.1, tail.2)

def scanDigits (text : List Char) : Option (List Char × List Char) :=
  match text.span Char.isDigit with
  | ([], _) => none
  | (digits, rest) => some (digits, rest)

/-- A single zero, or digits of which the first is none. -/
def scanInteger (text : List Char) : Option (List Char × List Char) :=
  match text with
  | '0' :: rest => some (['0'], rest)
  | text => scanDigits text

def scanFraction (text : List Char) : Option (List Char × List Char) :=
  match text with
  | '.' :: rest => (scanDigits rest).map fun scanned => ('.' :: scanned.1, scanned.2)
  | text => some ([], text)

def scanExponent (text : List Char) : Option (List Char × List Char) :=
  match text with
  | c :: rest =>
    if c = 'e' ∨ c = 'E' then
      match rest with
      | sign :: digits =>
        if sign = '+' ∨ sign = '-' then (scanDigits digits).map fun scanned => (c :: sign :: scanned.1, scanned.2)
        else (scanDigits rest).map fun scanned => (c :: scanned.1, scanned.2)
      | [] => none
    else some ([], text)
  | [] => some ([], [])

def scanUnsigned (text : List Char) : Option (List Char × List Char) :=
  (scanInteger text).bind fun integer =>
    (scanFraction integer.2).bind fun fraction =>
      (scanExponent fraction.2).map fun exponent => (integer.1 ++ fraction.1 ++ exponent.1, exponent.2)

def scanNumber (text : List Char) : Option (List Char × List Char) :=
  match text with
  | '-' :: rest => (scanUnsigned rest).map fun scanned => ('-' :: scanned.1, scanned.2)
  | text => scanUnsigned text

def parseLiteral (word : List Char) (value : Json) (text : List Char) : Option (Json × List Char) :=
  if word.isPrefixOf text then some (value, text.drop word.length) else none

mutual

def parseValue : Nat → List Char → Option (Json × List Char)
  | 0, _ => none
  | fuel + 1, text =>
    let text := skipSpace text
    match text with
    | [] => none
    | c :: rest =>
      if c = '"' then (parseString (rest.length + 1) rest).map fun read => (.string read.1, read.2)
      else if c = '[' then
        match skipSpace rest with
        | ']' :: rest => some (.array [], rest)
        | rest => (parseItems fuel rest).map fun read => (.array read.1, read.2)
      else if c = '\x7b' then
        match skipSpace rest with
        | '\x7d' :: rest => some (.object [], rest)
        | rest => (parseMembers fuel rest).map fun read => (.object read.1, read.2)
      else if c = 'n' then parseLiteral ['n', 'u', 'l', 'l'] .null text
      else if c = 't' then parseLiteral ['t', 'r', 'u', 'e'] (.bool true) text
      else if c = 'f' then parseLiteral ['f', 'a', 'l', 's', 'e'] (.bool false) text
      else (scanNumber text).map fun read => (.number read.1, read.2)

def parseItems : Nat → List Char → Option (List Json × List Char)
  | 0, _ => none
  | fuel + 1, text =>
    (parseValue fuel text).bind fun item =>
      match skipSpace item.2 with
      | ',' :: rest => (parseItems fuel rest).map fun read => (item.1 :: read.1, read.2)
      | ']' :: rest => some ([item.1], rest)
      | _ => none

def parseMembers : Nat → List Char → Option (List (List Char × Json) × List Char)
  | 0, _ => none
  | fuel + 1, text =>
    match skipSpace text with
    | '"' :: rest =>
      (parseString (rest.length + 1) rest).bind fun name =>
        match skipSpace name.2 with
        | ':' :: rest =>
          (parseValue fuel rest).bind fun value =>
            match skipSpace value.2 with
            | ',' :: rest => (parseMembers fuel rest).map fun read => ((name.1, value.1) :: read.1, read.2)
            | '\x7d' :: rest => some ([(name.1, value.1)], rest)
            | _ => none
        | _ => none
    | _ => none

end

def parse (text : List Char) : Option Json :=
  match parseValue (2 * text.length + 2) text with
  | some (value, rest) => if (skipSpace rest).isEmpty then some value else none
  | none => none

end Parse

section RoundTrip

theorem span_isDigit {digits rest : List Char} (all : ∀ c ∈ digits, c.isDigit = true)
    (stop : ∀ c ∈ rest.head?, c.isDigit = false) : (digits ++ rest).span Char.isDigit = (digits, rest) := by
  rw [List.span_eq_takeWhile_dropWhile, List.takeWhile_append_of_pos all, List.dropWhile_append_of_pos all]
  cases rest with
  | nil => simp
  | cons c rest =>
    have other := stop c rfl
    simp [other]

theorem scanDigits_append {digits rest : List Char} (some : digits ≠ []) (all : ∀ c ∈ digits, c.isDigit = true)
    (stop : ∀ c ∈ rest.head?, c.isDigit = false) : scanDigits (digits ++ rest) = .some (digits, rest) := by
  unfold scanDigits
  rw [span_isDigit all stop]
  cases digits with
  | nil => exact absurd rfl some
  | cons c digits => rfl

/-- What may stand behind a number: nothing that would go on with it. -/
def Closing (rest : List Char) : Prop := ∀ c ∈ rest.head?, c.isDigit = false ∧ c ≠ '.' ∧ c ≠ 'e' ∧ c ≠ 'E'

def IsInteger (digits : List Char) : Prop :=
  digits = ['0'] ∨ digits ≠ [] ∧ digits.head? ≠ some '0' ∧ ∀ c ∈ digits, c.isDigit = true

def IsFraction (fraction : List Char) : Prop :=
  fraction = [] ∨ ∃ digits, fraction = '.' :: digits ∧ digits ≠ [] ∧ ∀ c ∈ digits, c.isDigit = true

def IsDecimal (text : List Char) : Prop :=
  ∃ sign digits fraction, text = sign ++ digits ++ fraction ∧ (sign = [] ∨ sign = ['-']) ∧ IsInteger digits ∧
    IsFraction fraction

theorem isInteger_toDigits (n : Nat) : IsInteger (Nat.toDigits 10 n) := by
  rcases Nat.eq_zero_or_pos n with rfl | positive
  · exact Or.inl (Nat.toDigits_zero 10)
  · refine Or.inr ⟨Nat.toDigits_ne_nil, ?_, fun c member => Nat.isDigit_of_mem_toDigits (by decide) (by decide) member⟩
    induction n using Nat.strongRecOn with
    | ind n ih =>
      rw [Nat.toDigits_eq_if (by decide)]
      split
      · rename_i small
        have digit : ∀ n < 10, 0 < n → Nat.digitChar n ≠ '0' := by decide
        simpa using digit n small positive
      · rename_i large
        rw [List.head?_append_of_ne_nil _ Nat.toDigits_ne_nil]
        exact ih (n / 10) (by omega) (by omega)

theorem isDecimal_toString (number : Int) : IsDecimal (toString number).toList := by
  rw [Int.toString_eq_repr]
  cases number with
  | ofNat n =>
    refine ⟨[], Nat.toDigits 10 n, [], ?_, Or.inl rfl, isInteger_toDigits n, Or.inl rfl⟩
    simp [Int.repr]
  | negSucc n =>
    refine ⟨['-'], Nat.toDigits 10 (n + 1), [], ?_, Or.inr rfl, isInteger_toDigits (n + 1), Or.inl rfl⟩
    simp [Int.repr]

theorem scanInteger_append {digits rest : List Char} (integer : IsInteger digits)
    (stop : ∀ c ∈ rest.head?, c.isDigit = false) : scanInteger (digits ++ rest) = some (digits, rest) := by
  rcases integer with rfl | ⟨nonempty, lead, all⟩
  · rfl
  · have scanned := scanDigits_append nonempty all stop
    unfold scanInteger
    split
    · rename_i first
      cases digits with
      | nil => exact absurd rfl nonempty
      | cons c digits =>
        rw [List.cons_append, List.cons.injEq] at first
        exact absurd (congrArg some first.1) lead
    · exact scanned

theorem scanFraction_append {fraction rest : List Char} (valid : IsFraction fraction) (closing : Closing rest) :
    scanFraction (fraction ++ rest) = some (fraction, rest) := by
  rcases valid with rfl | ⟨digits, rfl, nonempty, all⟩
  · unfold scanFraction
    split
    · rename_i dot
      rw [List.nil_append] at dot
      have other := (closing '.' (by rw [dot]; rfl)).2.1
      exact absurd rfl other
    · rfl
  · show (scanDigits (digits ++ rest)).map _ = _
    rw [scanDigits_append nonempty all fun c head => (closing c head).1]
    rfl

theorem scanExponent_closing {rest : List Char} (closing : Closing rest) : scanExponent rest = some ([], rest) := by
  cases rest with
  | nil => rfl
  | cons c rest =>
    have other := (closing c rfl).2.2
    simp [scanExponent, other]

theorem digit_ne {c : Char} (digit : c.isDigit = true) : c ≠ '-' := by
  rintro rfl
  cases digit

theorem IsFraction.stops {fraction rest : List Char} (valid : IsFraction fraction) (closing : Closing rest) :
    ∀ c ∈ (fraction ++ rest).head?, c.isDigit = false := by
  rcases valid with rfl | ⟨digits, rfl, _⟩
  · exact fun c head => (closing c head).1
  · rintro c head
    cases head
    rfl

theorem IsInteger.unsigned {digits : List Char} (integer : IsInteger digits) :
    ∃ c tail, digits = c :: tail ∧ c.isDigit = true := by
  rcases integer with rfl | ⟨nonempty, _, all⟩
  · exact ⟨'0', [], rfl, rfl⟩
  · cases digits with
    | nil => exact absurd rfl nonempty
    | cons c tail => exact ⟨c, tail, rfl, all c List.mem_cons_self⟩

theorem scanNumber_append {text rest : List Char} (decimal : IsDecimal text) (closing : Closing rest) :
    scanNumber (text ++ rest) = some (text, rest) := by
  obtain ⟨sign, digits, fraction, rfl, signed, integer, valid⟩ := decimal
  have unsigned : scanUnsigned (digits ++ (fraction ++ rest)) = some (digits ++ fraction, rest) := by
    simp only [scanUnsigned, scanInteger_append integer (valid.stops closing), Option.bind_some,
      scanFraction_append valid closing, scanExponent_closing closing, Option.map_some, List.append_nil]
  rcases signed with rfl | rfl
  · rw [List.nil_append, List.append_assoc]
    unfold scanNumber
    split
    · rename_i first
      obtain ⟨c, tail, rfl, digit⟩ := integer.unsigned
      rw [List.cons_append, List.cons.injEq] at first
      exact absurd first.1 (digit_ne digit)
    · exact unsigned
  · show (scanUnsigned (digits ++ fraction ++ rest)).map _ = _
    rw [List.append_assoc, unsigned]
    rfl

theorem readEscape_short {c letter : Char} (short : shortEscape letter = some c) (other : letter ≠ 'u')
    (rest : List Char) : readEscape (letter :: rest) = some (c, rest) := by
  simp [readEscape, short, other]

theorem readUnicode_hexDigits {code : Nat} (small : code < 32) (rest : List Char) :
    readUnicode (hexDigits 4 code ++ rest) = some (Char.ofNat code, rest) := by
  have read := readDigits_hexDigits 0 4 code
  have high : isHighSurrogate code = false := by
    simp only [isHighSurrogate, Bool.and_eq_false_iff, decide_eq_false_iff_not]
    omega
  have low : isLowSurrogate code = false := by
    simp only [isLowSurrogate, Bool.and_eq_false_iff, decide_eq_false_iff_not]
    omega
  have value : 0 * 16 ^ 4 + code % 16 ^ 4 = code := by omega
  rw [value] at read
  simp only [hexDigits, List.nil_append, List.cons_append] at read ⊢
  simp only [readUnicode, read, Option.bind_some, high, low, Bool.false_eq_true, if_false]

def Spells (spelling : List Char) (c : Char) : Prop :=
  spelling ≠ [] ∧ ∀ fuel rest,
    parseString (fuel + 1) (spelling ++ rest) = (parseString fuel rest).map fun tail => (c :: tail.1, tail.2)

theorem spells_escape {letters : List Char} {c : Char} (read : ∀ rest, readEscape (letters ++ rest) = some (c, rest)) :
    Spells ('\\' :: letters) c := by
  refine ⟨List.cons_ne_nil _ _, fun fuel rest => ?_⟩
  simp [parseString, read]

theorem spells_short {c letter : Char} (short : shortEscape letter = some c) (other : letter ≠ 'u') :
    Spells ['\\', letter] c :=
  spells_escape (readEscape_short short other)

/-- The characters of the body of a string that stand behind no backslash. -/
def bare : List Char → List Char
  | '\\' :: _ :: rest => bare rest
  | c :: rest => c :: bare rest
  | [] => []

theorem bare_append {front : List Char} (plain : '\\' ∉ front) (rest : List Char) :
    bare (front ++ rest) = front ++ bare rest := by
  induction front with
  | nil => rfl
  | cons c front ih =>
    rw [List.mem_cons, not_or] at plain
    rw [List.cons_append, List.cons_append, ← ih plain.2]
    cases front ++ rest with
    | nil => simp [bare]
    | cons => simp [bare, Ne.symm plain.1]

theorem spells_unicode {c : Char} (small : c.toNat < 32) : Spells ('\\' :: 'u' :: hexDigits 4 c.toNat) c := by
  refine spells_escape fun rest => ?_
  show readUnicode (hexDigits 4 c.toNat ++ rest) = _
  rw [readUnicode_hexDigits small, Char.ofNat_toNat]

theorem spells_self {c : Char} (notQuote : c ≠ '"') (notBackslash : c ≠ '\\') (large : ¬c.toNat < 32) :
    Spells [c] c := by
  refine ⟨List.cons_ne_nil _ _, fun fuel rest => ?_⟩
  simp [parseString, notQuote, notBackslash, large]

theorem escape_spells (c : Char) : Spells (escape c) c := by
  unfold escape
  split
  · rename_i same
    exact spells_short (by rw [same]; rfl) (by decide)
  · rename_i notQuote
    split
    · rename_i same
      exact spells_short (by rw [same]; rfl) (by decide)
    · rename_i notBackslash
      split
      · rename_i same
        exact spells_short (by rw [same]; rfl) (by decide)
      · split
        · rename_i same
          exact spells_short (by rw [same]; rfl) (by decide)
        · split
          · rename_i same
            exact spells_short (by rw [same]; rfl) (by decide)
          · split
            · rename_i same
              exact spells_short (by rw [← Char.ofNat_toNat c, same]; rfl) (by decide)
            · split
              · rename_i same
                exact spells_short (by rw [← Char.ofNat_toNat c, same]; rfl) (by decide)
              · split
                · rename_i small
                  exact spells_unicode small
                · rename_i large
                  exact spells_self notQuote notBackslash large

theorem parseString_flatMap {spell : Char → List Char} (spells : ∀ c, Spells (spell c) c) (text rest : List Char)
    {fuel : Nat} (enough : text.length < fuel) :
    parseString fuel (text.flatMap spell ++ '"' :: rest) = some (text, rest) := by
  induction text generalizing fuel with
  | nil =>
    cases fuel with
    | zero => cases enough
    | succ fuel => simp [parseString]
  | cons c text ih =>
    cases fuel with
    | zero => cases enough
    | succ fuel =>
      rw [List.flatMap_cons, List.append_assoc, (spells c).2, ih (Nat.lt_of_succ_lt_succ enough)]
      rfl

theorem length_le_flatMap_spell {spell : Char → List Char} (spells : ∀ c, Spells (spell c) c) (text : List Char) :
    text.length ≤ (text.flatMap spell).length := by
  induction text with
  | nil => exact Nat.le_refl _
  | cons c text ih =>
    have one := List.length_pos_iff.mpr (spells c).1
    simp only [List.flatMap_cons, List.length_append, List.length_cons]
    omega

theorem parseString_spelled {spell : Char → List Char} (spells : ∀ c, Spells (spell c) c) (text rest : List Char)
    {fuel : Nat} (enough : (text.flatMap spell).length < fuel) :
    parseString fuel (text.flatMap spell ++ ['"'] ++ rest) = some (text, rest) := by
  have short := length_le_flatMap_spell spells text
  rw [List.append_assoc]
  exact parseString_flatMap spells text rest (by omega)

mutual

def Plain : Json → Prop
  | .number text => IsDecimal text
  | .array items => PlainItems items
  | .object members => PlainMembers members
  | _ => True

def PlainItems : List Json → Prop
  | [] => True
  | item :: rest => Plain item ∧ PlainItems rest

def PlainMembers : List (List Char × Json) → Prop
  | [] => True
  | (_, value) :: rest => Plain value ∧ PlainMembers rest

end

theorem IsDecimal.head {text : List Char} (decimal : IsDecimal text) :
    ∃ c tail, text = c :: tail ∧ (c = '-' ∨ c.isDigit = true) := by
  obtain ⟨sign, digits, fraction, rfl, rfl | rfl, integer, _⟩ := decimal
  · obtain ⟨c, tail, rfl, digit⟩ := integer.unsigned
    exact ⟨c, tail ++ fraction, rfl, Or.inr digit⟩
  · exact ⟨'-', digits ++ fraction, rfl, Or.inl rfl⟩

theorem numeric_ne {c other : Char} (numeric : c = '-' ∨ c.isDigit = true) (sign : other ≠ '-')
    (digit : other.isDigit = false) : c ≠ other := by
  rintro rfl
  rcases numeric with same | found
  · exact sign same
  · rw [digit] at found
    cases found

theorem numeric_solid {c : Char} (numeric : c = '-' ∨ c.isDigit = true) : isSpace c = false := by
  simp only [isSpace, Bool.or_eq_false_iff, beq_eq_false_iff_ne]
  exact ⟨⟨⟨numeric_ne numeric (by decide) rfl, numeric_ne numeric (by decide) rfl⟩,
    numeric_ne numeric (by decide) rfl⟩, numeric_ne numeric (by decide) rfl⟩

theorem skipSpace_cons {c : Char} {rest : List Char} (solid : isSpace c = false) : skipSpace (c :: rest) = c :: rest := by
  simp [skipSpace, solid]

theorem render_head (value : Json) (plain : Plain value) :
    ∃ c tail, render value = c :: tail ∧ isSpace c = false ∧ c ≠ ']' := by
  cases value with
  | null => exact ⟨_, _, rfl, rfl, by decide⟩
  | bool flag => cases flag <;> exact ⟨_, _, rfl, rfl, by decide⟩
  | string text => exact ⟨_, _, rfl, rfl, by decide⟩
  | array items => cases items <;> exact ⟨_, _, rfl, rfl, by decide⟩
  | object members => cases members <;> exact ⟨_, _, rfl, rfl, by decide⟩
  | number text =>
    obtain ⟨c, tail, rfl, numeric⟩ := IsDecimal.head plain
    exact ⟨c, tail, rfl, numeric_solid numeric, numeric_ne numeric (by decide) rfl⟩

theorem closing_renderItems (items : List Json) (rest : List Char) : Closing (renderItems items ++ rest) := by
  cases items <;>
  · rintro c head
    cases head
    decide

theorem closing_renderMembers (members : List (List Char × Json)) (rest : List Char) :
    Closing (renderMembers members ++ rest) := by
  rcases members with _ | ⟨⟨name, value⟩, members⟩ <;>
  · rintro c head
    cases head
    decide

theorem parseValue_number {text rest : List Char} (decimal : IsDecimal text) (closing : Closing rest) (fuel : Nat) :
    parseValue (fuel + 1) (text ++ rest) = some (.number text, rest) := by
  have scanned := scanNumber_append decimal closing
  obtain ⟨c, tail, rfl, numeric⟩ := decimal.head
  have solid : skipSpace (c :: (tail ++ rest)) = c :: (tail ++ rest) := skipSpace_cons (numeric_solid numeric)
  simp only [List.cons_append] at scanned ⊢
  simp only [parseValue, solid]
  rw [if_neg (numeric_ne numeric (by decide) rfl), if_neg (numeric_ne numeric (by decide) rfl),
    if_neg (numeric_ne numeric (by decide) rfl), if_neg (numeric_ne numeric (by decide) rfl),
    if_neg (numeric_ne numeric (by decide) rfl), if_neg (numeric_ne numeric (by decide) rfl), scanned]
  rfl

theorem parseValue_spelled {spell : Char → List Char} (spells : ∀ c, Spells (spell c) c) (text rest : List Char)
    (fuel : Nat) :
    parseValue (fuel + 1) ('"' :: text.flatMap spell ++ ['"'] ++ rest) = some (.string text, rest) := by
  have read : parseString ((text.flatMap spell ++ ['"'] ++ rest).length + 1) (text.flatMap spell ++ ['"'] ++ rest) =
      some (text, rest) := by
    refine parseString_spelled spells text rest ?_
    simp only [List.length_append]
    omega
  show (parseString ((text.flatMap spell ++ ['"'] ++ rest).length + 1) (text.flatMap spell ++ ['"'] ++ rest)).map _ = _
  rw [read]
  rfl

theorem parseValue_bracket {c : Char} (solid : isSpace c = false) (other : c ≠ ']') (tail : List Char) (fuel : Nat) :
    parseValue (fuel + 1) ('[' :: c :: tail) = (parseItems fuel (c :: tail)).map fun read => (.array read.1, read.2) := by
  show (match skipSpace (c :: tail) with
    | ']' :: rest => some (Json.array [], rest)
    | rest => (parseItems fuel rest).map fun (read : List Json × List Char) => (Json.array read.1, read.2)) = _
  rw [skipSpace_cons solid]
  split
  · rename_i same
    exact absurd (List.cons.inj same).1 other
  · rfl

def ReadsBack (value : Json) : Prop :=
  Plain value → ∀ {rest fuel}, Closing rest → 2 * (render value).length ≤ fuel →
    parseValue fuel (render value ++ rest) = some (value, rest)

def ReadsItems : List Json → Prop
  | [] => True
  | item :: later => PlainItems (item :: later) → ∀ {rest fuel},
      2 * ((render item).length + (renderItems later).length) ≤ fuel + 1 →
        parseItems fuel (render item ++ (renderItems later ++ rest)) = some (item :: later, rest)

def ReadsMembers : List (List Char × Json) → Prop
  | [] => True
  | (name, value) :: later => PlainMembers ((name, value) :: later) → ∀ {rest fuel},
      2 * ((quote name).length + (render value).length + (renderMembers later).length) ≤ fuel →
        parseMembers fuel (quote name ++ ':' :: (render value ++ (renderMembers later ++ rest))) =
          some ((name, value) :: later, rest)

theorem renderItems_pos (items : List Json) : 0 < (renderItems items).length := by
  cases items <;> simp [renderItems]

theorem renderMembers_pos (members : List (List Char × Json)) : 0 < (renderMembers members).length := by
  cases members <;> simp [renderMembers]

theorem readsBack_array {items : List Json} (reads : ReadsItems items) : ReadsBack (.array items) := by
  intro plain rest fuel closing enough
  cases items with
  | nil =>
    obtain ⟨fuel, rfl⟩ := Nat.exists_eq_add_one_of_ne_zero (show fuel ≠ 0 by simp [render] at enough; omega)
    rfl
  | cons item later =>
    simp only [render, List.length_cons, List.length_append] at enough
    obtain ⟨fuel, rfl⟩ := Nat.exists_eq_add_one_of_ne_zero (show fuel ≠ 0 by omega)
    obtain ⟨start, after, begins, solid, other⟩ := render_head item plain.1
    have inside : parseItems fuel (render item ++ (renderItems later ++ rest)) = some (item :: later, rest) :=
      reads plain (by omega)
    rw [begins, List.cons_append] at inside
    show parseValue (fuel + 1) ('[' :: (render item ++ renderItems later ++ rest)) = _
    rw [List.append_assoc, begins, List.cons_append, parseValue_bracket solid other, inside]
    rfl

theorem readsItems_cons {item : Json} {later : List Json} (first : ReadsBack item) (reads : ReadsItems later) :
    ReadsItems (item :: later) := by
  intro plain rest fuel enough
  have some := renderItems_pos later
  obtain ⟨c, tail, head, _⟩ := render_head item plain.1
  have one : 0 < (render item).length := by simp [head]
  obtain ⟨fuel, rfl⟩ := Nat.exists_eq_add_one_of_ne_zero (show fuel ≠ 0 by omega)
  rw [parseItems, first plain.1 (closing_renderItems later rest) (by omega), Option.bind_some]
  cases later with
  | nil => rfl
  | cons next later =>
    have tail : parseItems fuel (render next ++ (renderItems later ++ rest)) = .some (next :: later, rest) := by
      refine reads plain.2 ?_
      simp only [renderItems, List.length_cons, List.length_append] at enough
      omega
    show (parseItems fuel (render next ++ renderItems later ++ rest)).map _ = _
    rw [List.append_assoc, tail]
    rfl

theorem readsBack_object {members : List (List Char × Json)} (reads : ReadsMembers members) :
    ReadsBack (.object members) := by
  intro plain rest fuel closing enough
  rcases members with _ | ⟨⟨name, value⟩, later⟩
  · obtain ⟨fuel, rfl⟩ := Nat.exists_eq_add_one_of_ne_zero (show fuel ≠ 0 by simp [render] at enough; omega)
    rfl
  · simp only [render, List.length_cons, List.length_append] at enough
    obtain ⟨fuel, rfl⟩ := Nat.exists_eq_add_one_of_ne_zero (show fuel ≠ 0 by omega)
    have inside : parseMembers fuel (quote name ++ ':' :: (render value ++ (renderMembers later ++ rest))) =
        some ((name, value) :: later, rest) := reads plain (by omega)
    have opened : parseValue (fuel + 1) (render (.object ((name, value) :: later)) ++ rest) =
        (parseMembers fuel (quote name ++ ':' :: (render value ++ (renderMembers later ++ rest)))).map
          fun read => (.object read.1, read.2) := by
      simp only [render, List.cons_append, List.append_assoc]
      rfl
    rw [opened, inside]
    rfl

theorem parseMembers_member (name : List Char) {value : Json} {rest : List Char} {fuel : Nat}
    (read : parseValue fuel (render value ++ rest) = some (value, rest)) :
    parseMembers (fuel + 1) (quote name ++ ':' :: (render value ++ rest)) =
      match skipSpace rest with
      | ',' :: rest => (parseMembers fuel rest).map fun (read : List (List Char × Json) × List Char) =>
          ((name, value) :: read.1, read.2)
      | '\x7d' :: rest => some ([(name, value)], rest)
      | _ => none := by
  have named : parseString ((name.flatMap escape ++ ['"'] ++ ':' :: (render value ++ rest)).length + 1)
      (name.flatMap escape ++ ['"'] ++ ':' :: (render value ++ rest)) = some (name, ':' :: (render value ++ rest)) := by
    refine parseString_spelled escape_spells name _ ?_
    simp only [List.length_append]
    omega
  rw [quote, List.cons_append, List.cons_append, parseMembers, skipSpace_cons rfl]
  simp only [named, Option.bind_some]
  rw [skipSpace_cons rfl]
  simp only [read, Option.bind_some]

theorem readsMembers_cons {name : List Char} {value : Json} {later : List (List Char × Json)}
    (first : ReadsBack value) (reads : ReadsMembers later) : ReadsMembers ((name, value) :: later) := by
  intro plain rest fuel enough
  have some : 0 < (quote name).length := by simp [quote]
  have ends := renderMembers_pos later
  obtain ⟨fuel, rfl⟩ := Nat.exists_eq_add_one_of_ne_zero (show fuel ≠ 0 by omega)
  rw [parseMembers_member name (first plain.1 (closing_renderMembers later rest) (by omega))]
  rcases later with _ | ⟨⟨next, after⟩, later⟩
  · rfl
  · have tail : parseMembers fuel (quote next ++ ':' :: (render after ++ (renderMembers later ++ rest))) =
        .some ((next, after) :: later, rest) := by
      refine reads plain.2 ?_
      simp only [renderMembers, List.length_cons, List.length_append] at enough
      omega
    have remaining : renderMembers ((next, after) :: later) ++ rest =
        ',' :: (quote next ++ ':' :: (render after ++ (renderMembers later ++ rest))) := by
      simp [renderMembers]
    rw [remaining, skipSpace_cons rfl]
    simp only
    rw [tail]
    rfl

theorem readsBack_scalar {value : Json} (scalar : ∀ {rest fuel}, Plain value → Closing rest →
    parseValue (fuel + 1) (render value ++ rest) = some (value, rest)) : ReadsBack value := by
  intro plain rest fuel closing enough
  obtain ⟨c, tail, head, _⟩ := render_head value plain
  rw [head, List.length_cons] at enough
  obtain ⟨fuel, rfl⟩ := Nat.exists_eq_add_one_of_ne_zero (show fuel ≠ 0 by omega)
  exact scalar plain closing

mutual

theorem readsBack : (value : Json) → ReadsBack value
  | .null => readsBack_scalar fun _ _ => rfl
  | .bool true => readsBack_scalar fun _ _ => rfl
  | .bool false => readsBack_scalar fun _ _ => rfl
  | .number _ => readsBack_scalar fun plain closing => parseValue_number plain closing _
  | .string text => readsBack_scalar fun _ _ => parseValue_spelled escape_spells text _ _
  | .array items => readsBack_array (readsItems items)
  | .object members => readsBack_object (readsMembers members)

theorem readsItems : (items : List Json) → ReadsItems items
  | [] => trivial
  | item :: later => readsItems_cons (readsBack item) (readsItems later)

theorem readsMembers : (members : List (List Char × Json)) → ReadsMembers members
  | [] => trivial
  | (_, value) :: later => readsMembers_cons (readsBack value) (readsMembers later)

end

theorem parse_render {value : Json} (plain : Plain value) : parse (render value) = some value := by
  have read : parseValue (2 * (render value).length + 2) (render value ++ []) = some (value, []) :=
    readsBack value plain (by rintro c head; cases head) (by omega)
  rw [List.append_nil] at read
  rw [parse, read]
  rfl

end RoundTrip

end Json

end OtelDatalake.Foundation
