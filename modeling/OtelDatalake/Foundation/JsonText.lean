import OtelDatalake.Foundation.Json

namespace OtelDatalake.Foundation

namespace Json

/-- There is no backslash before the first quote, as there is none outside the strings of a JSON text. -/
def Calm (text : List Char) : Prop := '\\' ∉ text.takeWhile (· ≠ '"')

theorem calm_nil : Calm [] := List.not_mem_nil

theorem calm_cons {c : Char} {text : List Char} : Calm (c :: text) ↔ c = '"' ∨ c ≠ '\\' ∧ Calm text := by
  unfold Calm
  by_cases quote : c = '"'
  · simp [quote]
  · simp [quote, eq_comm]

theorem Calm.append {left right : List Char} (first : Calm left) (second : Calm right) : Calm (left ++ right) := by
  induction left with
  | nil => exact second
  | cons c left ih =>
    rw [List.cons_append, calm_cons]
    exact (calm_cons.mp first).imp_right fun plain => ⟨plain.1, ih plain.2⟩

theorem calm_of_notMem {text : List Char} (free : '\\' ∉ text) : Calm text :=
  fun member => free ((List.takeWhile_sublist _).subset member)

/-- What a reader takes from the front of a text, and that it takes the same where the text goes on. -/
structure Taken {α : Type} (read : List Char → Option (α × List Char)) (text : List Char) (value : α)
    (left : List Char) : Prop where
  used : ∃ front, text = front ++ left ∧ Calm front
  more : ∀ rest, Closing rest → read (text ++ rest) = some (value, left ++ rest)

namespace Taken

variable {α β : Type} {read : List Char → Option (α × List Char)} {text middle left : List Char} {value : α}

theorem map (convert : α → β) (taken : Taken read text value left) :
    Taken (fun text => (read text).map fun scanned => (convert scanned.1, scanned.2)) text (convert value) left := by
  refine ⟨taken.used, fun rest closing => ?_⟩
  rw [taken.more rest closing]
  rfl

theorem bind (next : α → List Char → Option (β × List Char)) {result : β} (first : Taken read text value middle)
    (second : Taken (next value) middle result left) :
    Taken (fun text => (read text).bind fun scanned => next scanned.1 scanned.2) text result left := by
  obtain ⟨front, rfl, calm⟩ := first.used
  obtain ⟨between, rfl, calmBetween⟩ := second.used
  refine ⟨⟨front ++ between, by rw [List.append_assoc], calm.append calmBetween⟩, fun rest closing => ?_⟩
  have one := first.more rest closing
  simp only [one, Option.bind_some]
  exact second.more rest closing

theorem behind {c : Char} (plain : c ≠ '\\') {whole : List Char → Option (β × List Char)} {result : β}
    (used : ∃ front, text = front ++ left ∧ Calm front)
    (more : ∀ rest, Closing rest → whole (c :: text ++ rest) = some (result, left ++ rest)) :
    Taken whole (c :: text) result left := by
  obtain ⟨front, rfl, calm⟩ := used
  exact ⟨⟨c :: front, rfl, calm_cons.mpr (.inr ⟨plain, calm⟩)⟩, more⟩

end Taken

theorem scanDigits_some {text digits left : List Char} (scanned : scanDigits text = some (digits, left)) :
    text = digits ++ left ∧ digits ≠ [] ∧ (∀ c ∈ digits, c.isDigit = true) ∧ ∀ c ∈ left.head?, c.isDigit = false := by
  unfold scanDigits at scanned
  rw [List.span_eq_takeWhile_dropWhile] at scanned
  have whole := List.takeWhile_append_dropWhile (p := Char.isDigit) (l := text)
  have stop : ∀ c ∈ (text.dropWhile Char.isDigit).head?, c.isDigit = false := by
    intro c head
    have last := List.head?_dropWhile_not Char.isDigit text
    rw [head] at last
    simpa using last
  split at scanned
  · cases scanned
  · rename_i nonempty same
    cases scanned
    obtain ⟨rfl, rfl⟩ := Prod.mk.inj same
    exact ⟨whole.symm, nonempty, fun c member => List.mem_takeWhile_imp member, stop⟩

theorem notMem_digits {digits : List Char} (all : ∀ c ∈ digits, c.isDigit = true) : '\\' ∉ digits :=
  fun member => absurd (all _ member) (by decide)

theorem head_append {property : Char → Prop} {left rest : List Char} (own : ∀ c ∈ left.head?, property c)
    (other : ∀ c ∈ rest.head?, property c) : ∀ c ∈ (left ++ rest).head?, property c := by
  cases left with
  | nil => exact other
  | cons c left => exact own

theorem scanDigits_taken {text digits left : List Char} (scanned : scanDigits text = some (digits, left)) :
    Taken scanDigits text digits left := by
  obtain ⟨rfl, nonempty, all, stop⟩ := scanDigits_some scanned
  refine ⟨⟨digits, rfl, calm_of_notMem (notMem_digits all)⟩, fun rest closing => ?_⟩
  rw [List.append_assoc]
  exact scanDigits_append nonempty all (head_append stop fun c head => (closing c head).1)

theorem scanInteger_taken {text digits left : List Char} (scanned : scanInteger text = some (digits, left)) :
    Taken scanInteger text digits left := by
  unfold scanInteger at scanned
  split at scanned
  · cases scanned
    exact .behind (by decide) ⟨[], rfl, calm_nil⟩ fun _ _ => rfl
  · rename_i other
    have taken := scanDigits_taken scanned
    refine ⟨taken.used, fun rest closing => ?_⟩
    unfold scanInteger
    split
    · rename_i zero
      cases text with
      | nil => cases scanned
      | cons c text =>
        cases (List.cons.inj zero).1
        exact absurd rfl (other _)
    · exact taken.more rest closing

theorem scanFraction_taken {text fraction left : List Char} (scanned : scanFraction text = some (fraction, left)) :
    Taken scanFraction text fraction left := by
  unfold scanFraction at scanned
  split at scanned
  · obtain ⟨⟨digits, behind⟩, read, same⟩ := Option.map_eq_some_iff.mp scanned
    cases same
    have taken := scanDigits_taken read
    refine .behind (by decide) taken.used fun rest closing => ?_
    have read := taken.more rest closing
    show (scanDigits (_ ++ rest)).map _ = _
    rw [read]
    rfl
  · rename_i other
    cases scanned
    refine ⟨⟨[], rfl, calm_nil⟩, fun rest closing => ?_⟩
    unfold scanFraction
    split
    · rename_i dot
      cases text with
      | nil =>
        have head := closing '.' (by rw [← List.nil_append rest, dot]; rfl)
        exact absurd rfl head.2.1
      | cons c text =>
        cases (List.cons.inj dot).1
        exact absurd rfl (other _)
    · rfl

theorem scanExponent_taken {text exponent left : List Char} (scanned : scanExponent text = some (exponent, left)) :
    Taken scanExponent text exponent left := by
  cases text with
  | nil =>
    cases scanned
    exact ⟨⟨[], rfl, calm_nil⟩, fun rest closing => scanExponent_closing closing⟩
  | cons c text =>
    by_cases marked : c = 'e' ∨ c = 'E'
    · have plain : c ≠ '\\' := by
        rcases marked with rfl | rfl
        · decide
        · decide
      cases text with
      | nil => simp [scanExponent, marked] at scanned
      | cons sign digits =>
        simp only [scanExponent, if_pos marked] at scanned
        by_cases signed : sign = '+' ∨ sign = '-'
        · have plainSign : sign ≠ '\\' := by
            rcases signed with rfl | rfl
            · decide
            · decide
          rw [if_pos signed] at scanned
          obtain ⟨⟨read, behind⟩, found, same⟩ := Option.map_eq_some_iff.mp scanned
          cases same
          have taken := scanDigits_taken found
          obtain ⟨front, rfl, calm⟩ := taken.used
          refine .behind plain ⟨sign :: front, rfl, calm_cons.mpr (.inr ⟨plainSign, calm⟩)⟩ fun rest closing => ?_
          have more := taken.more rest closing
          simp only [List.cons_append, scanExponent, if_pos marked, if_pos signed, more, Option.map_some]
        · rw [if_neg signed] at scanned
          obtain ⟨⟨read, behind⟩, found, same⟩ := Option.map_eq_some_iff.mp scanned
          cases same
          have taken := scanDigits_taken found
          refine .behind plain taken.used fun rest closing => ?_
          have more := taken.more rest closing
          rw [List.cons_append] at more
          simp only [List.cons_append, scanExponent, if_pos marked, if_neg signed, more, Option.map_some]
    · simp only [scanExponent, if_neg marked, Option.some.injEq, Prod.mk.injEq] at scanned
      obtain ⟨rfl, rfl⟩ := scanned
      refine ⟨⟨[], rfl, calm_nil⟩, fun rest closing => ?_⟩
      simp only [List.cons_append, scanExponent, if_neg marked]

theorem scanUnsigned_taken {text number left : List Char} (scanned : scanUnsigned text = some (number, left)) :
    Taken scanUnsigned text number left := by
  obtain ⟨⟨integer, behindInteger⟩, first, scanned⟩ := Option.bind_eq_some_iff.mp scanned
  obtain ⟨⟨fraction, behindFraction⟩, second, scanned⟩ := Option.bind_eq_some_iff.mp scanned
  obtain ⟨⟨exponent, behindExponent⟩, third, same⟩ := Option.map_eq_some_iff.mp scanned
  cases same
  have last := (scanExponent_taken third).map fun exponent => integer ++ fraction ++ exponent
  have behind := Taken.bind (fun fraction text =>
    (scanExponent text).map fun exponent => (integer ++ fraction ++ exponent.1, exponent.2))
    (scanFraction_taken second) last
  exact Taken.bind (fun integer text => (scanFraction text).bind fun fraction =>
    (scanExponent fraction.2).map fun exponent => (integer ++ fraction.1 ++ exponent.1, exponent.2))
    (scanInteger_taken first) behind

theorem scanNumber_taken {text number left : List Char} (scanned : scanNumber text = some (number, left)) :
    Taken scanNumber text number left := by
  unfold scanNumber at scanned
  split at scanned
  · obtain ⟨⟨unsigned, behind⟩, read, same⟩ := Option.map_eq_some_iff.mp scanned
    cases same
    have taken := scanUnsigned_taken read
    refine .behind (by decide) taken.used fun rest closing => ?_
    have more := taken.more rest closing
    show (scanUnsigned (_ ++ rest)).map _ = _
    rw [more]
    rfl
  · rename_i other
    have taken := scanUnsigned_taken scanned
    refine ⟨taken.used, fun rest closing => ?_⟩
    unfold scanNumber
    split
    · rename_i minus
      cases text with
      | nil => cases scanned
      | cons c text =>
        cases (List.cons.inj minus).1
        exact absurd rfl (other _)
    · exact taken.more rest closing

theorem scanNumber_head {text number left : List Char} (scanned : scanNumber text = some (number, left)) :
    ∃ c tail, text = c :: tail ∧ (c = '-' ∨ c.isDigit = true) := by
  unfold scanNumber at scanned
  split at scanned
  · rename_i rest
    exact ⟨'-', rest, rfl, .inl rfl⟩
  · obtain ⟨⟨integer, behind⟩, first, -⟩ := Option.bind_eq_some_iff.mp scanned
    unfold scanInteger at first
    split at first
    · exact ⟨'0', _, rfl, .inr rfl⟩
    · obtain ⟨rfl, nonempty, all, -⟩ := scanDigits_some first
      cases integer with
      | nil => exact absurd rfl nonempty
      | cons c tail => exact ⟨c, tail ++ behind, rfl, .inr (all c List.mem_cons_self)⟩

theorem parse_number {text : List Char} (scanned : scanNumber text = some (text, [])) :
    parse text = some (.number text) := by
  obtain ⟨c, tail, rfl, numeric⟩ := scanNumber_head scanned
  have solid : skipSpace (c :: tail) = c :: tail := skipSpace_cons (numeric_solid numeric)
  have read : parseValue (2 * (c :: tail).length + 2) (c :: tail) = some (.number (c :: tail), []) := by
    simp only [parseValue, solid]
    rw [if_neg (numeric_ne numeric (by decide) rfl), if_neg (numeric_ne numeric (by decide) rfl),
      if_neg (numeric_ne numeric (by decide) rfl), if_neg (numeric_ne numeric (by decide) rfl),
      if_neg (numeric_ne numeric (by decide) rfl), if_neg (numeric_ne numeric (by decide) rfl), scanned]
    rfl
  rw [parse, read]
  rfl

theorem parseLiteral_taken {word text left : List Char} {value result : Json} (plain : '\\' ∉ word)
    (read : parseLiteral word value text = some (result, left)) : Taken (parseLiteral word value) text result left := by
  rw [parseLiteral, Option.ite_none_right_eq_some, List.isPrefixOf_iff_prefix] at read
  obtain ⟨⟨behind, rfl⟩, same⟩ := read
  rw [List.drop_left] at same
  cases same
  refine ⟨⟨word, rfl, calm_of_notMem plain⟩, fun rest closing => ?_⟩
  rw [parseLiteral, List.append_assoc, if_pos (List.isPrefixOf_iff_prefix.mpr (List.prefix_append _ _)), List.drop_left]

theorem quote_notMem_of_readDigits {value code : Nat} {digits : List Char}
    (read : readDigits 16 value digits = some code) : '"' ∉ digits := by
  induction digits generalizing value with
  | nil => exact List.not_mem_nil
  | cons c digits ih =>
    obtain ⟨digit, own, read⟩ := Option.bind_eq_some_iff.mp read
    rw [List.mem_cons, not_or]
    refine ⟨?_, ih read⟩
    rintro rfl
    cases own

theorem readUnicode_more {text left : List Char} {c : Char} (read : readUnicode text = some (c, left)) :
    (∃ front, '"' ∉ front ∧ text = front ++ left) ∧ ∀ rest, readUnicode (text ++ rest) = some (c, left ++ rest) := by
  unfold readUnicode at read
  split at read
  · rename_i first second third fourth behind
    obtain ⟨code, digits, read⟩ := Option.bind_eq_some_iff.mp read
    by_cases high : isHighSurrogate code = true
    · rw [if_pos high] at read
      split at read
      · rename_i fifth sixth seventh eighth behind shadowed
        obtain ⟨low, lowDigits, read⟩ := Option.bind_eq_some_iff.mp read
        rw [Option.ite_none_right_eq_some, Option.some.injEq, Prod.mk.injEq] at read
        obtain ⟨isLow, rfl, rfl⟩ := read
        refine ⟨⟨[first, second, third, fourth] ++ '\\' :: 'u' :: [fifth, sixth, seventh, eighth], ?_, rfl⟩,
          fun rest => ?_⟩
        · have one := quote_notMem_of_readDigits digits
          have two := quote_notMem_of_readDigits lowDigits
          intro member
          rcases List.mem_append.mp member with own | member
          · exact one own
          · rw [List.mem_cons, List.mem_cons] at member
            exact two ((member.resolve_left (by decide)).resolve_left (by decide))
        show (readDigits 16 0 [first, second, third, fourth]).bind _ = _
        rw [digits, Option.bind_some, if_pos high]
        show (readDigits 16 0 [fifth, sixth, seventh, eighth]).bind _ = _
        rw [lowDigits, Option.bind_some, if_pos isLow]
        exact congrArg some (Prod.ext rfl rfl)
      · cases read
    · rw [if_neg high, Option.ite_none_left_eq_some] at read
      obtain ⟨notLow, same⟩ := read
      cases same
      refine ⟨⟨[first, second, third, fourth], quote_notMem_of_readDigits digits, rfl⟩, fun rest => ?_⟩
      show (readDigits 16 0 [first, second, third, fourth]).bind _ = _
      rw [digits, Option.bind_some, if_neg high, if_neg notLow]
      rfl
  · cases read

theorem readEscape_more {text left : List Char} {c : Char} (read : readEscape text = some (c, left)) :
    (∃ front, text = front ++ left) ∧ ∀ rest, readEscape (text ++ rest) = some (c, left ++ rest) := by
  cases text with
  | nil => cases read
  | cons letter text =>
    by_cases unicode : letter = 'u'
    · simp only [readEscape, if_pos unicode] at read
      obtain ⟨⟨front, -, rfl⟩, more⟩ := readUnicode_more read
      refine ⟨⟨letter :: front, rfl⟩, fun rest => ?_⟩
      have goesOn := more rest
      simp only [List.cons_append, readEscape, if_pos unicode]
      exact goesOn
    · simp only [readEscape, if_neg unicode] at read
      obtain ⟨short, found, same⟩ := Option.map_eq_some_iff.mp read
      cases same
      refine ⟨⟨[letter], rfl⟩, fun rest => ?_⟩
      simp only [List.cons_append, readEscape, if_neg unicode, found, Option.map_some]

theorem parseString_more {fuel : Nat} {text left : List Char} {content : List Char}
    (read : parseString fuel text = some (content, left)) :
    (∃ front, text = front ++ left) ∧
      ∀ {more : Nat}, fuel ≤ more → ∀ rest, parseString more (text ++ rest) = some (content, left ++ rest) := by
  induction fuel generalizing text content with
  | zero => cases read
  | succ fuel ih =>
    cases text with
    | nil => cases read
    | cons c text =>
      simp only [parseString] at read
      by_cases quote : c = '"'
      · rw [if_pos quote] at read
        cases read
        refine ⟨⟨[c], rfl⟩, fun {more} enough rest => ?_⟩
        obtain ⟨more, rfl⟩ := Nat.exists_eq_add_of_lt enough
        simp only [List.cons_append, parseString, if_pos quote]
      · rw [if_neg quote] at read
        by_cases backslash : c = '\\'
        · rw [if_pos backslash] at read
          obtain ⟨⟨escaped, behind⟩, escape, read⟩ := Option.bind_eq_some_iff.mp read
          obtain ⟨⟨tail, last⟩, found, same⟩ := Option.map_eq_some_iff.mp read
          obtain ⟨rfl, rfl⟩ := Prod.mk.inj same
          have found : parseString fuel behind = some (tail, last) := found
          obtain ⟨⟨front, rfl⟩, escapeMore⟩ := readEscape_more escape
          obtain ⟨⟨between, rfl⟩, tailMore⟩ := ih found
          refine ⟨⟨c :: (front ++ between), by simp⟩, fun {more} enough rest => ?_⟩
          obtain ⟨more, rfl⟩ := Nat.exists_eq_add_of_lt enough
          have first := escapeMore rest
          have second := tailMore (show fuel ≤ fuel + more by omega) rest
          rw [List.cons_append, parseString, if_neg quote, if_pos backslash, first, Option.bind_some, second]
          rfl
        · rw [if_neg backslash, Option.ite_none_left_eq_some] at read
          obtain ⟨printable, read⟩ := read
          obtain ⟨⟨tail, last⟩, found, same⟩ := Option.map_eq_some_iff.mp read
          obtain ⟨rfl, rfl⟩ := Prod.mk.inj same
          obtain ⟨⟨front, rfl⟩, tailMore⟩ := ih found
          refine ⟨⟨c :: front, rfl⟩, fun {more} enough rest => ?_⟩
          obtain ⟨more, rfl⟩ := Nat.exists_eq_add_of_lt enough
          have second := tailMore (show fuel ≤ fuel + more by omega) rest
          rw [List.cons_append, parseString, if_neg quote, if_neg backslash, if_neg printable, second]
          rfl

/-- Blanks end where anything else stands, so they are the same where the text goes on. -/
theorem skipSpace_append {c : Char} {text tail : List Char} (head : skipSpace text = c :: tail) (rest : List Char) :
    skipSpace (text ++ rest) = c :: (tail ++ rest) := by
  unfold skipSpace at head ⊢
  rw [List.dropWhile_append, head]
  rfl

theorem skipSpace_used (text : List Char) : ∃ front, text = front ++ skipSpace text ∧ Calm front := by
  refine ⟨text.takeWhile isSpace, List.takeWhile_append_dropWhile.symm, calm_of_notMem fun member => ?_⟩
  exact absurd (List.mem_takeWhile_imp member) (by decide)

theorem skipSpace_solid {c : Char} {text tail : List Char} (head : skipSpace text = c :: tail) : isSpace c = false := by
  have stop := List.head?_dropWhile_not isSpace text
  unfold skipSpace at head
  rw [head] at stop
  simpa using stop

def parseSolid (fuel : Nat) (c : Char) (rest : List Char) : Option (Json × List Char) :=
  if c = '"' then (parseString (rest.length + 1) rest).map fun read => (.string read.1, read.2)
  else if c = '[' then
    match skipSpace rest with
    | ']' :: rest => some (.array [], rest)
    | rest => (parseItems fuel rest).map fun read => (.array read.1, read.2)
  else if c = '\x7b' then
    match skipSpace rest with
    | '\x7d' :: rest => some (.object [], rest)
    | rest => (parseMembers fuel rest).map fun read => (.object read.1, read.2)
  else if c = 'n' then parseLiteral ['n', 'u', 'l', 'l'] .null (c :: rest)
  else if c = 't' then parseLiteral ['t', 'r', 'u', 'e'] (.bool true) (c :: rest)
  else if c = 'f' then parseLiteral ['f', 'a', 'l', 's', 'e'] (.bool false) (c :: rest)
  else (scanNumber (c :: rest)).map fun read => (.number read.1, read.2)

theorem parseValue_solid {c : Char} {text rest : List Char} (head : skipSpace text = c :: rest) (fuel : Nat) :
    parseValue (fuel + 1) text = parseSolid fuel c rest := by
  rw [parseValue]
  simp only [head]
  rfl

theorem parseValue_blank {text : List Char} (blank : skipSpace text = []) (fuel : Nat) : parseValue fuel text = none := by
  cases fuel with
  | zero => rfl
  | succ fuel =>
    rw [parseValue]
    simp only [blank]

theorem parseItems_nil (fuel : Nat) : parseItems fuel [] = none := by
  cases fuel with
  | zero => rfl
  | succ fuel =>
    rw [parseItems, parseValue_blank rfl]
    rfl

theorem parseMembers_nil (fuel : Nat) : parseMembers fuel [] = none := by
  cases fuel with
  | zero => rfl
  | succ fuel => rfl

def ValueTaken (fuel : Nat) : Prop :=
  ∀ {text left : List Char} {value : Json} {more : Nat}, parseValue fuel text = some (value, left) → fuel ≤ more →
    Taken (parseValue more) text value left

def ItemsTaken (fuel : Nat) : Prop :=
  ∀ {text left : List Char} {items : List Json} {more : Nat}, parseItems fuel text = some (items, left) →
    fuel ≤ more → Taken (parseItems more) text items left

def MembersTaken (fuel : Nat) : Prop :=
  ∀ {text left : List Char} {members : List (List Char × Json)} {more : Nat},
    parseMembers fuel text = some (members, left) → fuel ≤ more → Taken (parseMembers more) text members left

theorem Taken.blanks {text left : List Char} {value : Json} {more : Nat} {c : Char} {tail : List Char}
    (head : skipSpace text = c :: tail) (taken : Taken (parseValue (more + 1)) (c :: tail) value left) :
    Taken (parseValue (more + 1)) text value left := by
  obtain ⟨front, whole, calm⟩ := skipSpace_used text
  obtain ⟨between, used, calmBetween⟩ := taken.used
  refine ⟨⟨front ++ between, ?_, calm.append calmBetween⟩, fun rest closing => ?_⟩
  · rw [List.append_assoc, ← used, ← head]
    exact whole
  · have solid : skipSpace (c :: (tail ++ rest)) = c :: (tail ++ rest) := skipSpace_cons (skipSpace_solid head)
    rw [parseValue_solid (skipSpace_append head rest), ← parseValue_solid solid]
    exact taken.more rest closing

theorem parseSolid_array_blank {rest : List Char} (blank : skipSpace rest = []) (fuel : Nat) :
    parseSolid fuel '[' rest = none := by
  rw [parseSolid, if_neg (by decide), if_pos rfl, blank]
  show (parseItems fuel []).map _ = _
  rw [parseItems_nil]
  rfl

theorem parseSolid_array_close {rest tail : List Char} (inner : skipSpace rest = ']' :: tail) (fuel : Nat) :
    parseSolid fuel '[' rest = some (.array [], tail) := by
  rw [parseSolid, if_neg (by decide), if_pos rfl, inner]
  rfl

theorem parseSolid_array_items {d : Char} {rest tail : List Char} (inner : skipSpace rest = d :: tail) (other : d ≠ ']')
    (fuel : Nat) : parseSolid fuel '[' rest = (parseItems fuel (d :: tail)).map fun read => (.array read.1, read.2) := by
  rw [parseSolid, if_neg (by decide), if_pos rfl, inner]
  split
  · rename_i same
    exact absurd (List.cons.inj same).1 other
  · rfl

theorem parseSolid_object_blank {rest : List Char} (blank : skipSpace rest = []) (fuel : Nat) :
    parseSolid fuel '\x7b' rest = none := by
  rw [parseSolid, if_neg (by decide), if_neg (by decide), if_pos rfl, blank]
  show (parseMembers fuel []).map _ = _
  rw [parseMembers_nil]
  rfl

theorem parseSolid_object_close {rest tail : List Char} (inner : skipSpace rest = '\x7d' :: tail) (fuel : Nat) :
    parseSolid fuel '\x7b' rest = some (.object [], tail) := by
  rw [parseSolid, if_neg (by decide), if_neg (by decide), if_pos rfl, inner]
  rfl

theorem parseSolid_object_members {d : Char} {rest tail : List Char} (inner : skipSpace rest = d :: tail)
    (other : d ≠ '\x7d') (fuel : Nat) :
    parseSolid fuel '\x7b' rest = (parseMembers fuel (d :: tail)).map fun read => (.object read.1, read.2) := by
  rw [parseSolid, if_neg (by decide), if_neg (by decide), if_pos rfl, inner]
  split
  · rename_i same
    exact absurd (List.cons.inj same).1 other
  · rfl

/-- A value that starts with `c` is taken if what stands behind `c` is read on in the same way. -/
theorem taken_of_solid {c : Char} {rest left : List Char} {value : Json} {more : Nat} (solid : isSpace c = false)
    (plain : c ≠ '\\') (used : ∃ front, rest = front ++ left ∧ Calm front)
    (goesOn : ∀ behind, Closing behind → parseSolid more c (rest ++ behind) = some (value, left ++ behind)) :
    Taken (parseValue (more + 1)) (c :: rest) value left :=
  .behind plain used fun behind closing =>
    (parseValue_solid (skipSpace_cons solid) more).trans (goesOn behind closing)

theorem taken_closed {bracket close : Char} {rest tail : List Char} {value : Json} {more : Nat}
    (solid : isSpace bracket = false) (opens : bracket ≠ '\\') (closes : close ≠ '\\')
    (inner : skipSpace rest = close :: tail)
    (goesOn : ∀ behind, parseSolid more bracket (rest ++ behind) = some (value, tail ++ behind)) :
    Taken (parseValue (more + 1)) (bracket :: rest) value tail := by
  obtain ⟨blanks, whole, calm⟩ := skipSpace_used rest
  rw [inner] at whole
  refine taken_of_solid solid opens ⟨blanks ++ [close], ?_, ?_⟩ fun behind _ => goesOn behind
  · rw [whole, List.append_assoc]
    rfl
  · exact calm.append (calm_of_notMem (by simpa using closes.symm))

theorem taken_inside {α : Type} {bracket d : Char} {rest tail left : List Char} {value : α} {wrap : α → Json} {more : Nat}
    {inside : List Char → Option (α × List Char)} (solid : isSpace bracket = false) (opens : bracket ≠ '\\')
    (inner : skipSpace rest = d :: tail) (taken : Taken inside (d :: tail) value left)
    (goesOn : ∀ behind, parseSolid more bracket (rest ++ behind) =
      (inside (d :: (tail ++ behind))).map fun read => (wrap read.1, read.2)) :
    Taken (parseValue (more + 1)) (bracket :: rest) (wrap value) left := by
  obtain ⟨blanks, whole, calm⟩ := skipSpace_used rest
  rw [inner] at whole
  obtain ⟨between, used, calmBetween⟩ := taken.used
  refine taken_of_solid solid opens ⟨blanks ++ between, ?_, calm.append calmBetween⟩ fun behind closing => ?_
  · rw [whole, used, List.append_assoc]
  · have read := taken.more behind closing
    rw [List.cons_append] at read
    rw [goesOn behind, read]
    rfl

theorem array_taken {fuel more : Nat} (items : ItemsTaken fuel) (enough : fuel ≤ more) {rest left : List Char}
    {value : Json} (read : parseSolid fuel '[' rest = some (value, left)) :
    Taken (parseValue (more + 1)) ('[' :: rest) value left := by
  cases inner : skipSpace rest with
  | nil =>
    rw [parseSolid_array_blank inner] at read
    cases read
  | cons d tail =>
    by_cases closes : d = ']'
    · subst closes
      rw [parseSolid_array_close inner] at read
      cases read
      exact taken_closed rfl (by decide) (by decide) inner fun behind =>
        parseSolid_array_close (skipSpace_append inner behind) more
    · rw [parseSolid_array_items inner closes] at read
      obtain ⟨⟨list, remaining⟩, found, same⟩ := Option.map_eq_some_iff.mp read
      cases same
      exact taken_inside rfl (by decide) inner (items found enough) fun behind =>
        parseSolid_array_items (skipSpace_append inner behind) closes more

theorem object_taken {fuel more : Nat} (members : MembersTaken fuel) (enough : fuel ≤ more) {rest left : List Char}
    {value : Json} (read : parseSolid fuel '\x7b' rest = some (value, left)) :
    Taken (parseValue (more + 1)) ('\x7b' :: rest) value left := by
  cases inner : skipSpace rest with
  | nil =>
    rw [parseSolid_object_blank inner] at read
    cases read
  | cons d tail =>
    by_cases closes : d = '\x7d'
    · subst closes
      rw [parseSolid_object_close inner] at read
      cases read
      exact taken_closed rfl (by decide) (by decide) inner fun behind =>
        parseSolid_object_close (skipSpace_append inner behind) more
    · rw [parseSolid_object_members inner closes] at read
      obtain ⟨⟨list, remaining⟩, found, same⟩ := Option.map_eq_some_iff.mp read
      cases same
      exact taken_inside rfl (by decide) inner (members found enough) fun behind =>
        parseSolid_object_members (skipSpace_append inner behind) closes more

theorem string_taken {rest left : List Char} {value : Json} {fuel : Nat} (more : Nat)
    (read : parseSolid fuel '"' rest = some (value, left)) : Taken (parseValue (more + 1)) ('"' :: rest) value left := by
  obtain ⟨⟨content, remaining⟩, found, same⟩ := Option.map_eq_some_iff.mp read
  cases same
  obtain ⟨⟨front, used⟩, goesOn⟩ := parseString_more found
  refine ⟨⟨'"' :: front, by rw [used]; rfl, calm_cons.mpr (.inl rfl)⟩, fun behind closing => ?_⟩
  have length : rest.length + 1 ≤ (rest ++ behind).length + 1 := by
    rw [List.length_append]
    omega
  rw [List.cons_append, parseValue_solid (skipSpace_cons rfl)]
  show (parseString ((rest ++ behind).length + 1) (rest ++ behind)).map _ = _
  rw [goesOn length behind]
  rfl

theorem solid_taken {fuel more : Nat} (items : ItemsTaken fuel) (members : MembersTaken fuel) (enough : fuel ≤ more)
    {c : Char} (solid : isSpace c = false) {rest left : List Char} {value : Json}
    (read : parseSolid fuel c rest = some (value, left)) : Taken (parseValue (more + 1)) (c :: rest) value left := by
  by_cases quote : c = '"'
  · subst quote
    exact string_taken more read
  by_cases bracket : c = '['
  · subst bracket
    exact array_taken items enough read
  by_cases brace : c = '\x7b'
  · subst brace
    exact object_taken members enough read
  have opens (behind : List Char) : parseValue (more + 1) (c :: rest ++ behind) = parseSolid more c (rest ++ behind) :=
    parseValue_solid (skipSpace_cons solid) more
  simp only [parseSolid, if_neg quote, if_neg bracket, if_neg brace] at read opens
  by_cases null : c = 'n'
  · simp only [if_pos null] at read opens
    have taken := parseLiteral_taken (by decide) read
    exact ⟨taken.used, fun behind closing => (opens behind).trans (taken.more behind closing)⟩
  simp only [if_neg null] at read opens
  by_cases yes : c = 't'
  · simp only [if_pos yes] at read opens
    have taken := parseLiteral_taken (by decide) read
    exact ⟨taken.used, fun behind closing => (opens behind).trans (taken.more behind closing)⟩
  simp only [if_neg yes] at read opens
  by_cases no : c = 'f'
  · simp only [if_pos no] at read opens
    have taken := parseLiteral_taken (by decide) read
    exact ⟨taken.used, fun behind closing => (opens behind).trans (taken.more behind closing)⟩
  simp only [if_neg no] at read opens
  obtain ⟨⟨number, remaining⟩, scanned, same⟩ := Option.map_eq_some_iff.mp read
  cases same
  have taken := (scanNumber_taken scanned).map Json.number
  exact ⟨taken.used, fun behind closing => (opens behind).trans (taken.more behind closing)⟩

theorem ValueTaken.succ {fuel : Nat} (items : ItemsTaken fuel) (members : MembersTaken fuel) : ValueTaken (fuel + 1) := by
  intro text left value more read enough
  obtain ⟨more, rfl⟩ := Nat.exists_eq_add_one_of_ne_zero (show more ≠ 0 by omega)
  cases head : skipSpace text with
  | nil =>
    rw [parseValue_blank head] at read
    cases read
  | cons c tail =>
    rw [parseValue_solid head] at read
    exact (solid_taken items members (by omega) (skipSpace_solid head) read).blanks head

def nextItem (fuel : Nat) (item : Json) (behind : List Char) : Option (List Json × List Char) :=
  match skipSpace behind with
  | ',' :: rest => (parseItems fuel rest).map fun read => (item :: read.1, read.2)
  | ']' :: rest => some ([item], rest)
  | _ => none

def nextMember (fuel : Nat) (name : List Char) (value : Json) (behind : List Char) :
    Option (List (List Char × Json) × List Char) :=
  match skipSpace behind with
  | ',' :: rest => (parseMembers fuel rest).map fun read => ((name, value) :: read.1, read.2)
  | '\x7d' :: rest => some ([(name, value)], rest)
  | _ => none

def memberValue (fuel : Nat) (name : List Char) (behind : List Char) : Option (List (List Char × Json) × List Char) :=
  match skipSpace behind with
  | ':' :: rest => (parseValue fuel rest).bind fun value => nextMember fuel name value.1 value.2
  | _ => none

theorem parseItems_succ (fuel : Nat) (text : List Char) :
    parseItems (fuel + 1) text = (parseValue fuel text).bind fun item => nextItem fuel item.1 item.2 := by
  rw [parseItems]
  rfl

theorem parseMembers_quote {text rest : List Char} (head : skipSpace text = '"' :: rest) (fuel : Nat) :
    parseMembers (fuel + 1) text =
      (parseString (rest.length + 1) rest).bind fun name => memberValue fuel name.1 name.2 := by
  rw [parseMembers, head]
  rfl

theorem nextItem_comma {behind tail : List Char} (inner : skipSpace behind = ',' :: tail) (fuel : Nat) (item : Json) :
    nextItem fuel item behind = (parseItems fuel tail).map fun read => (item :: read.1, read.2) := by
  rw [nextItem, inner]
  rfl

theorem nextItem_close {behind tail : List Char} (inner : skipSpace behind = ']' :: tail) (fuel : Nat) (item : Json) :
    nextItem fuel item behind = some ([item], tail) := by
  rw [nextItem, inner]
  rfl

theorem nextItem_cases {fuel : Nat} {item : Json} {behind left : List Char} {items : List Json}
    (read : nextItem fuel item behind = some (items, left)) :
    (∃ tail, skipSpace behind = ',' :: tail) ∨ ∃ tail, skipSpace behind = ']' :: tail := by
  unfold nextItem at read
  split at read
  · rename_i tail inner
    exact .inl ⟨tail, inner⟩
  · rename_i tail inner
    exact .inr ⟨tail, inner⟩
  · cases read

theorem nextMember_comma {behind tail : List Char} (inner : skipSpace behind = ',' :: tail) (fuel : Nat)
    (name : List Char) (value : Json) : nextMember fuel name value behind =
      (parseMembers fuel tail).map fun read => ((name, value) :: read.1, read.2) := by
  rw [nextMember, inner]
  rfl

theorem nextMember_close {behind tail : List Char} (inner : skipSpace behind = '\x7d' :: tail) (fuel : Nat)
    (name : List Char) (value : Json) : nextMember fuel name value behind = some ([(name, value)], tail) := by
  rw [nextMember, inner]
  rfl

theorem nextMember_cases {fuel : Nat} {name : List Char} {value : Json} {behind left : List Char}
    {members : List (List Char × Json)} (read : nextMember fuel name value behind = some (members, left)) :
    (∃ tail, skipSpace behind = ',' :: tail) ∨ ∃ tail, skipSpace behind = '\x7d' :: tail := by
  unfold nextMember at read
  split at read
  · rename_i tail inner
    exact .inl ⟨tail, inner⟩
  · rename_i tail inner
    exact .inr ⟨tail, inner⟩
  · cases read

theorem memberValue_colon {behind tail : List Char} (inner : skipSpace behind = ':' :: tail) (fuel : Nat)
    (name : List Char) : memberValue fuel name behind =
      (parseValue fuel tail).bind fun value => nextMember fuel name value.1 value.2 := by
  rw [memberValue, inner]
  rfl

theorem used_behind {behind tail left : List Char} {c : Char} (inner : skipSpace behind = c :: tail) (plain : c ≠ '\\')
    (used : ∃ front, tail = front ++ left ∧ Calm front) : ∃ front, behind = front ++ left ∧ Calm front := by
  obtain ⟨blanks, whole, calm⟩ := skipSpace_used behind
  obtain ⟨front, rfl, calmFront⟩ := used
  refine ⟨blanks ++ c :: front, ?_, calm.append (calm_cons.mpr (.inr ⟨plain, calmFront⟩))⟩
  rw [List.append_assoc, List.cons_append, ← inner]
  exact whole

theorem nextItem_taken {fuel more : Nat} (items : ItemsTaken fuel) (enough : fuel ≤ more) {item : Json}
    {behind left : List Char} {list : List Json} (read : nextItem fuel item behind = some (list, left)) :
    Taken (nextItem more item) behind list left := by
  rcases nextItem_cases read with ⟨tail, inner⟩ | ⟨tail, inner⟩
  · rw [nextItem_comma inner] at read
    obtain ⟨⟨later, remaining⟩, found, same⟩ := Option.map_eq_some_iff.mp read
    cases same
    have taken := items found enough
    refine ⟨used_behind inner (by decide) taken.used, fun rest closing => ?_⟩
    rw [nextItem_comma (skipSpace_append inner rest), taken.more rest closing]
    rfl
  · rw [nextItem_close inner] at read
    cases read
    refine ⟨used_behind inner (by decide) ⟨[], rfl, calm_nil⟩, fun rest closing => ?_⟩
    exact nextItem_close (skipSpace_append inner rest) more item

theorem nextMember_taken {fuel more : Nat} (members : MembersTaken fuel) (enough : fuel ≤ more) {name : List Char}
    {value : Json} {behind left : List Char} {list : List (List Char × Json)}
    (read : nextMember fuel name value behind = some (list, left)) :
    Taken (nextMember more name value) behind list left := by
  rcases nextMember_cases read with ⟨tail, inner⟩ | ⟨tail, inner⟩
  · rw [nextMember_comma inner] at read
    obtain ⟨⟨later, remaining⟩, found, same⟩ := Option.map_eq_some_iff.mp read
    cases same
    have taken := members found enough
    refine ⟨used_behind inner (by decide) taken.used, fun rest closing => ?_⟩
    rw [nextMember_comma (skipSpace_append inner rest), taken.more rest closing]
    rfl
  · rw [nextMember_close inner] at read
    cases read
    refine ⟨used_behind inner (by decide) ⟨[], rfl, calm_nil⟩, fun rest closing => ?_⟩
    exact nextMember_close (skipSpace_append inner rest) more name value

theorem memberValue_taken {fuel more : Nat} (values : ValueTaken fuel) (members : MembersTaken fuel)
    (enough : fuel ≤ more) {name behind left : List Char} {list : List (List Char × Json)}
    (read : memberValue fuel name behind = some (list, left)) : Taken (memberValue more name) behind list left := by
  have colon : ∃ tail, skipSpace behind = ':' :: tail := by
    unfold memberValue at read
    split at read
    · rename_i tail inner
      exact ⟨tail, inner⟩
    · cases read
  obtain ⟨tail, inner⟩ := colon
  rw [memberValue_colon inner] at read
  obtain ⟨⟨value, remaining⟩, first, read⟩ := Option.bind_eq_some_iff.mp read
  have taken := Taken.bind (nextMember more name) (values first enough) (nextMember_taken members enough read)
  refine ⟨used_behind inner (by decide) taken.used, fun rest closing => ?_⟩
  rw [memberValue_colon (skipSpace_append inner rest)]
  exact taken.more rest closing

theorem ItemsTaken.succ {fuel : Nat} (values : ValueTaken fuel) (items : ItemsTaken fuel) : ItemsTaken (fuel + 1) := by
  intro text left list more read enough
  obtain ⟨more, rfl⟩ := Nat.exists_eq_add_one_of_ne_zero (show more ≠ 0 by omega)
  have fewer : fuel ≤ more := by omega
  rw [parseItems_succ] at read
  obtain ⟨⟨item, behind⟩, first, read⟩ := Option.bind_eq_some_iff.mp read
  have taken := Taken.bind (nextItem more) (values first fewer) (nextItem_taken items fewer read)
  refine ⟨taken.used, fun rest closing => ?_⟩
  rw [parseItems_succ]
  exact taken.more rest closing

theorem MembersTaken.succ {fuel : Nat} (values : ValueTaken fuel) (members : MembersTaken fuel) :
    MembersTaken (fuel + 1) := by
  intro text left list more read enough
  obtain ⟨more, rfl⟩ := Nat.exists_eq_add_one_of_ne_zero (show more ≠ 0 by omega)
  have quoted : ∃ tail, skipSpace text = '"' :: tail := by
    rw [parseMembers] at read
    split at read
    · rename_i tail inner
      exact ⟨tail, inner⟩
    · cases read
  obtain ⟨tail, head⟩ := quoted
  rw [parseMembers_quote head] at read
  obtain ⟨⟨name, behind⟩, first, read⟩ := Option.bind_eq_some_iff.mp read
  obtain ⟨⟨front, whole⟩, goesOn⟩ := parseString_more first
  have taken := memberValue_taken values members (show fuel ≤ more by omega) read
  obtain ⟨between, used, calm⟩ := taken.used
  obtain ⟨blanks, start, calmBlanks⟩ := skipSpace_used text
  refine ⟨⟨blanks ++ '"' :: (front ++ between), ?_, calmBlanks.append (calm_cons.mpr (.inl rfl))⟩,
    fun rest closing => ?_⟩
  · rw [List.append_assoc, List.cons_append, List.append_assoc, ← used, ← whole, ← head]
    exact start
  · have length : tail.length + 1 ≤ (tail ++ rest).length + 1 := by
      rw [List.length_append]
      omega
    rw [parseMembers_quote (skipSpace_append head rest), goesOn length rest, Option.bind_some]
    exact taken.more rest closing

/-- A value that is read at the front of a text is read in the same way where the text goes on, with no less fuel. -/
theorem parse_taken (fuel : Nat) : ValueTaken fuel ∧ ItemsTaken fuel ∧ MembersTaken fuel := by
  induction fuel with
  | zero =>
    refine ⟨?_, ?_, ?_⟩
    · intro text left value more read
      cases read
    · intro text left items more read
      cases read
    · intro text left members more read
      cases read
  | succ fuel ih =>
    obtain ⟨values, items, members⟩ := ih
    exact ⟨ValueTaken.succ items members, ItemsTaken.succ values items, MembersTaken.succ values members⟩

theorem parse_some {text : List Char} {value : Json} (read : parse text = some value) :
    ∃ blanks, (∀ c ∈ blanks, isSpace c = true) ∧ Calm text ∧ ∀ {rest : List Char} {fuel : Nat}, Closing rest →
      2 * text.length + 2 ≤ fuel → parseValue fuel (text ++ rest) = some (value, blanks ++ rest) := by
  unfold parse at read
  split at read
  · rename_i found left parsed
    rw [Option.ite_none_right_eq_some, List.isEmpty_iff, skipSpace, List.dropWhile_eq_nil_iff] at read
    obtain ⟨blank, same⟩ := read
    cases same
    have taken {fuel : Nat} (enough : 2 * text.length + 2 ≤ fuel) := (parse_taken _).1 parsed enough
    obtain ⟨front, used, calm⟩ := (taken (Nat.le_refl _)).used
    refine ⟨left, blank, ?_, fun closing enough => (taken enough).more _ closing⟩
    rw [used]
    refine calm.append (calm_of_notMem fun member => ?_)
    exact absurd (blank _ member) (by decide)
  · cases read

section Names

theorem split_of_free {text behind front left : List Char} (free : '"' ∉ front)
    (same : text ++ '"' :: behind = front ++ left) : ∃ rest, text = front ++ rest ∧ left = rest ++ '"' :: behind := by
  rcases List.append_eq_append_iff.mp same with ⟨middle, rfl, split⟩ | ⟨middle, rfl, split⟩
  · cases middle with
    | nil => exact ⟨[], by simp, split.symm⟩
    | cons c middle =>
      rw [List.cons_append, List.cons.injEq] at split
      exact absurd (split.1 ▸ List.mem_append_right text List.mem_cons_self) free
  · exact ⟨middle, rfl, split⟩

/-- An escape takes more than nothing from before the quote, or it is the escape of the quote. -/
theorem readEscape_stop {c letter : Char} {text behind left : List Char}
    (read : readEscape (letter :: text ++ '"' :: behind) = some (c, left)) :
    ∃ front rest, letter :: text = front ++ rest ∧ front ≠ [] ∧ left = rest ++ '"' :: behind := by
  by_cases unicode : letter = 'u'
  · rw [List.cons_append, readEscape, if_pos unicode] at read
    obtain ⟨⟨front, free, whole⟩, -⟩ := readUnicode_more read
    obtain ⟨rest, rfl, used⟩ := split_of_free free whole
    exact ⟨letter :: front, rest, rfl, List.cons_ne_nil _ _, used⟩
  · rw [List.cons_append, readEscape, if_neg unicode] at read
    obtain ⟨short, found, same⟩ := Option.map_eq_some_iff.mp read
    cases same
    exact ⟨[letter], text, rfl, List.cons_ne_nil _ _, rfl⟩

theorem parseString_calm {fuel : Nat} {text content left : List Char} (calm : Calm text)
    (read : parseString fuel text = some (content, left)) : '\\' ∉ content := by
  induction fuel generalizing text content with
  | zero => cases read
  | succ fuel ih =>
    cases text with
    | nil => cases read
    | cons c text =>
      rw [parseString] at read
      rcases calm_cons.mp calm with quote | ⟨plain, calm⟩
      · rw [if_pos quote] at read
        cases read
        exact List.not_mem_nil
      · by_cases quote : c = '"'
        · rw [if_pos quote] at read
          cases read
          exact List.not_mem_nil
        · rw [if_neg quote, if_neg plain, Option.ite_none_left_eq_some] at read
          obtain ⟨⟨tail, last⟩, found, same⟩ := Option.map_eq_some_iff.mp read.2
          obtain ⟨rfl, rfl⟩ := Prod.mk.inj same
          rw [List.mem_cons, not_or]
          exact ⟨Ne.symm plain, ih calm found⟩

/-- The content is no longer than the text in front of a quote, or the quote is escaped, and the content ends in what
    stands behind it. -/
def ReadWithin (text content : List Char) : Prop :=
  content.length ≤ text.length ∨ text.getLast? = some '\\' ∧ ∃ last, content.getLast? = some last ∧ last ≠ '\\'

theorem ReadWithin.extend {front rest tail : List Char} (within : ReadWithin rest tail) (some : front ≠ []) (read : Char) :
    ReadWithin (front ++ rest) (read :: tail) := by
  rcases within with short | ⟨ends, last, lastOf, plain⟩
  · have positive := List.length_pos_iff.mpr some
    left
    rw [List.length_append, List.length_cons]
    omega
  · refine .inr ⟨?_, last, ?_, plain⟩
    · rw [List.getLast?_append, ends]
      rfl
    · rw [List.getLast?_cons, lastOf]
      rfl

theorem readWithin_escaped {fuel : Nat} {behind tail left : List Char} (calm : Calm behind)
    (found : parseString fuel (':' :: behind) = some (tail, left)) (read : Char) : ReadWithin ['\\'] (read :: tail) := by
  have content := parseString_calm (calm_cons.mpr (.inr ⟨by decide, calm⟩)) found
  refine .inr ⟨rfl, ?_⟩
  cases tail with
  | nil =>
    cases fuel with
    | zero => cases found
    | succ fuel =>
      obtain ⟨⟨inner, final⟩, -, same⟩ := Option.map_eq_some_iff.mp found
      cases same
  | cons head tail =>
    refine ⟨(head :: tail).getLast (List.cons_ne_nil _ _), ?_, fun same => ?_⟩
    · rw [List.getLast?_cons_cons, List.getLast?_eq_some_getLast (List.cons_ne_nil _ _)]
    · exact content (same ▸ List.getLast_mem _)

theorem parseString_readWithin {fuel : Nat} {text behind content left : List Char} (calm : Calm behind)
    (read : parseString fuel (text ++ '"' :: ':' :: behind) = some (content, left)) : ReadWithin text content := by
  induction fuel generalizing text content with
  | zero => cases read
  | succ fuel ih =>
    cases text with
    | nil =>
      cases read
      exact .inl (Nat.le_refl _)
    | cons c text =>
      rw [List.cons_append, parseString] at read
      by_cases quote : c = '"'
      · rw [if_pos quote] at read
        cases read
        exact .inl (Nat.zero_le _)
      rw [if_neg quote] at read
      by_cases backslash : c = '\\'
      · rw [if_pos backslash] at read
        obtain ⟨⟨escaped, remaining⟩, escape, read⟩ := Option.bind_eq_some_iff.mp read
        obtain ⟨⟨tail, last⟩, found, same⟩ := Option.map_eq_some_iff.mp read
        obtain ⟨rfl, rfl⟩ := Prod.mk.inj same
        cases text with
        | nil =>
          have opened : remaining = ':' :: behind := by
            cases escape
            rfl
          subst opened
          rw [backslash]
          exact readWithin_escaped calm found escaped
        | cons letter text =>
          obtain ⟨front, rest, whole, some, used⟩ := readEscape_stop escape
          subst used
          rw [whole]
          exact (ih found).extend (List.cons_ne_nil c front) escaped
      · rw [if_neg backslash, Option.ite_none_left_eq_some] at read
        obtain ⟨⟨tail, last⟩, found, same⟩ := Option.map_eq_some_iff.mp read.2
        obtain ⟨rfl, rfl⟩ := Prod.mk.inj same
        exact (ih found).extend (List.cons_ne_nil c []) c

/-- A name that is read back as it stands between its quotes needs no escape. -/
theorem plain_of_parseString {fuel : Nat} {name behind left : List Char} (calm : Calm behind)
    (read : parseString fuel (name ++ '"' :: ':' :: behind) = some (name, left)) :
    ∀ c ∈ name, c ≠ '"' ∧ c ≠ '\\' ∧ 32 ≤ c.toNat := by
  induction name generalizing fuel with
  | nil => exact fun c member => absurd member List.not_mem_nil
  | cons first name ih =>
    cases fuel with
    | zero => cases read
    | succ fuel =>
      rw [List.cons_append, parseString] at read
      by_cases quote : first = '"'
      · rw [if_pos quote] at read
        cases read
      rw [if_neg quote] at read
      by_cases backslash : first = '\\'
      · rw [if_pos backslash] at read
        obtain ⟨⟨escaped, remaining⟩, escape, read⟩ := Option.bind_eq_some_iff.mp read
        obtain ⟨⟨tail, last⟩, found, same⟩ := Option.map_eq_some_iff.mp read
        obtain ⟨letters, rfl⟩ := Prod.mk.inj same
        obtain ⟨escapedSame, rfl⟩ := List.cons.inj letters
        cases tail with
        | nil =>
          have quoted : escaped = '"' := by
            cases escape
            rfl
          exact absurd (quoted.symm.trans (escapedSame.trans backslash)) (by decide)
        | cons letter tail =>
          obtain ⟨front, rest, whole, some, used⟩ := readEscape_stop escape
          subst used
          have found : parseString fuel (rest ++ '"' :: ':' :: behind) = .some (front ++ rest, last) := whole ▸ found
          have positive := List.length_pos_iff.mpr some
          rcases parseString_readWithin calm found with short | ⟨ends, other, lastOf, plain⟩
          · rw [List.length_append] at short
            omega
          · rw [List.getLast?_append, ends] at lastOf
            exact absurd (Option.some.inj lastOf).symm plain
      · rw [if_neg backslash, Option.ite_none_left_eq_some] at read
        obtain ⟨printable, read⟩ := read
        obtain ⟨⟨tail, last⟩, found, same⟩ := Option.map_eq_some_iff.mp read
        obtain ⟨letters, rfl⟩ := Prod.mk.inj same
        obtain ⟨-, rfl⟩ := List.cons.inj letters
        intro c member
        rcases List.mem_cons.mp member with rfl | member
        · exact ⟨quote, backslash, Nat.le_of_not_lt printable⟩
        · exact ih found c member

end Names

end Json

end OtelDatalake.Foundation
