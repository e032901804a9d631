import OtelDatalake.Foundation.JsonText

namespace OtelDatalake.Foundation

namespace Json

/-- A member that is written by hand: its name as it stands between the quotes, and the text of its value. -/
structure Written where
  name : List Char
  text : List Char

def Written.render (member : Written) : List Char := '"' :: (member.name ++ '"' :: ':' :: member.text)

def writtenTail : List Written → List Char
  | [] => ['\x7d']
  | member :: rest => ',' :: (member.render ++ writtenTail rest)

def writtenObject : List Written → List Char
  | [] => ['\x7b', '\x7d']
  | member :: rest => '\x7b' :: (member.render ++ writtenTail rest)

def IsPlain (c : Char) : Prop := c ≠ '"' ∧ c ≠ '\\' ∧ 32 ≤ c.toNat

instance (c : Char) : Decidable (IsPlain c) := inferInstanceAs (Decidable (c ≠ '"' ∧ c ≠ '\\' ∧ 32 ≤ c.toNat))

/-- What a reader has to find in a written object: its members, by name and by value. -/
def Reads (member : Written) (read : List Char × Json) : Prop :=
  read.1 = member.name ∧ parse member.text = some read.2

theorem calm_writtenTail (members : List Written) : Calm (writtenTail members) := by
  cases members with
  | nil => exact calm_of_notMem (by decide)
  | cons member rest =>
    refine calm_cons.mpr (.inr ⟨by decide, ?_⟩)
    exact calm_cons.mpr (.inl rfl)

theorem closing_writtenTail (members : List Written) : Closing (writtenTail members) := by
  intro c head
  cases members with
  | nil =>
    cases head
    decide
  | cons member rest =>
    cases head
    decide

theorem skipSpace_blanks {blanks : List Char} (blank : ∀ c ∈ blanks, isSpace c = true) {c : Char}
    (solid : isSpace c = false) (rest : List Char) : skipSpace (blanks ++ c :: rest) = c :: rest := by
  rw [skipSpace, List.dropWhile_append_of_pos blank]
  exact skipSpace_cons solid

theorem skipSpace_render (member : Written) (rest : List Char) :
    skipSpace (member.render ++ rest) = '"' :: (member.name ++ '"' :: ':' :: (member.text ++ rest)) := by
  rw [Written.render, List.cons_append, skipSpace_cons rfl, List.append_assoc]
  rfl

theorem parseString_plain {text : List Char} (plain : ∀ c ∈ text, IsPlain c) (rest : List Char) {fuel : Nat}
    (enough : text.length < fuel) : parseString fuel (text ++ '"' :: rest) = some (text, rest) := by
  induction text generalizing fuel with
  | nil =>
    obtain ⟨fuel, rfl⟩ := Nat.exists_eq_add_one_of_ne_zero (show fuel ≠ 0 by omega)
    rfl
  | cons c text ih =>
    obtain ⟨fuel, rfl⟩ := Nat.exists_eq_add_one_of_ne_zero (show fuel ≠ 0 by omega)
    obtain ⟨⟨quote, backslash, printable⟩, others⟩ := List.forall_mem_cons.mp plain
    rw [List.length_cons] at enough
    rw [List.cons_append, parseString, if_neg quote, if_neg backslash, if_neg (by omega), ih others (by omega)]
    rfl

section Member

variable {member : Written} {value : Json} (spelled : parse member.text = some value) (members : List Written)
include spelled

theorem parseMembers_written (plain : ∀ c ∈ member.name, IsPlain c) {fuel : Nat}
    (enough : 2 * member.text.length + 2 ≤ fuel) :
    ∃ blanks, (∀ c ∈ blanks, isSpace c = true) ∧
      parseMembers (fuel + 1) (member.render ++ writtenTail members) =
        nextMember fuel member.name value (blanks ++ writtenTail members) := by
  obtain ⟨blanks, blank, -, reads⟩ := parse_some spelled
  refine ⟨blanks, blank, ?_⟩
  have named : parseString ((member.name ++ '"' :: (':' :: (member.text ++ writtenTail members))).length + 1)
      (member.name ++ '"' :: (':' :: (member.text ++ writtenTail members))) =
        some (member.name, ':' :: (member.text ++ writtenTail members)) := by
    refine parseString_plain plain _ ?_
    rw [List.length_append]
    omega
  have colon : skipSpace (':' :: (member.text ++ writtenTail members)) = ':' :: (member.text ++ writtenTail members) :=
    skipSpace_cons rfl
  rw [parseMembers_quote (skipSpace_render member _), named, Option.bind_some, memberValue_colon colon,
    reads (closing_writtenTail members) enough, Option.bind_some]

theorem plain_of_parseMembers {fuel : Nat} {first : List Char × Json} {others : List (List Char × Json)} {left : List Char}
    (read : parseMembers (fuel + 1) (member.render ++ writtenTail members) = some (first :: others, left))
    (named : first.1 = member.name) : ∀ c ∈ member.name, IsPlain c := by
  obtain ⟨-, -, calm, -⟩ := parse_some spelled
  rw [parseMembers_quote (skipSpace_render member _)] at read
  obtain ⟨⟨name, behind⟩, found, read⟩ := Option.bind_eq_some_iff.mp read
  have own : name = first.1 := by
    unfold memberValue at read
    split at read
    · obtain ⟨⟨value, behind⟩, -, read⟩ := Option.bind_eq_some_iff.mp read
      unfold nextMember at read
      split at read
      · obtain ⟨⟨later, behind⟩, -, same⟩ := Option.map_eq_some_iff.mp read
        cases same
        rfl
      · cases read
        rfl
      · cases read
    · cases read
  rw [own, named] at found
  exact plain_of_parseString (calm.append (calm_writtenTail members)) found

end Member

theorem parseMembers_plain {member : Written} {members : List Written} {first : List Char × Json}
    {others : List (List Char × Json)} (spelled : Reads member first) (each : List.Forall₂ Reads members others)
    (plain : ∀ written ∈ member :: members, ∀ c ∈ written.name, IsPlain c) {fuel : Nat}
    (enough : 2 * (member.render ++ writtenTail members).length ≤ fuel) :
    parseMembers fuel (member.render ++ writtenTail members) = some (first :: others, []) := by
  induction each generalizing member first fuel with
  | nil =>
    obtain ⟨name, value⟩ := first
    obtain ⟨rfl, spelled⟩ := spelled
    simp only [Written.render, writtenTail, List.length_append, List.length_cons, List.length_nil] at enough
    obtain ⟨fuel, rfl⟩ := Nat.exists_eq_add_one_of_ne_zero (show fuel ≠ 0 by omega)
    obtain ⟨blanks, blank, read⟩ := parseMembers_written spelled [] (plain member List.mem_cons_self)
      (show 2 * member.text.length + 2 ≤ fuel by omega)
    have ends : skipSpace (blanks ++ writtenTail []) = ['\x7d'] := skipSpace_blanks blank rfl []
    rw [read, nextMember_close ends]
  | @cons next second members others reads each ih =>
    obtain ⟨name, value⟩ := first
    obtain ⟨rfl, spelled⟩ := spelled
    have following := (List.forall_mem_cons.mp plain).2
    simp only [Written.render, writtenTail, List.length_append, List.length_cons] at enough
    obtain ⟨fuel, rfl⟩ := Nat.exists_eq_add_one_of_ne_zero (show fuel ≠ 0 by omega)
    obtain ⟨blanks, blank, read⟩ := parseMembers_written spelled (next :: members) (plain member List.mem_cons_self)
      (show 2 * member.text.length + 2 ≤ fuel by omega)
    have later : parseMembers fuel (next.render ++ writtenTail members) = some (second :: others, []) := by
      refine ih reads following ?_
      simp only [Written.render, List.length_append, List.length_cons]
      omega
    have comma : skipSpace (blanks ++ writtenTail (next :: members)) = ',' :: (next.render ++ writtenTail members) :=
      skipSpace_blanks blank rfl _
    rw [read, nextMember_comma comma, later]
    rfl

theorem plain_of_forall₂ {member : Written} {members : List Written} {read : List (List Char × Json)}
    (spelled : ∀ written ∈ member :: members, (parse written.text).isSome)
    {fuel : Nat} (enough : 2 * (member.render ++ writtenTail members).length ≤ fuel) {left : List Char}
    (parsed : parseMembers fuel (member.render ++ writtenTail members) = some (read, left))
    (named : List.Forall₂ (fun written found => found.1 = written.name) (member :: members) read) :
    ∀ written ∈ member :: members, ∀ c ∈ written.name, IsPlain c := by
  induction members generalizing member read fuel with
  | nil =>
    obtain ⟨value, own⟩ := Option.isSome_iff_exists.mp (spelled member List.mem_cons_self)
    simp only [Written.render, writtenTail, List.length_append, List.length_cons, List.length_nil] at enough
    obtain ⟨fuel, rfl⟩ := Nat.exists_eq_add_one_of_ne_zero (show fuel ≠ 0 by omega)
    cases named with
    | cons same _ => exact List.forall_mem_cons.mpr ⟨plain_of_parseMembers own [] parsed same, by simp⟩
  | cons next members ih =>
    obtain ⟨value, own⟩ := Option.isSome_iff_exists.mp (spelled member List.mem_cons_self)
    have following := (List.forall_mem_cons.mp spelled).2
    simp only [Written.render, writtenTail, List.length_append, List.length_cons] at enough
    obtain ⟨fuel, rfl⟩ := Nat.exists_eq_add_one_of_ne_zero (show fuel ≠ 0 by omega)
    cases named with
    | @cons _ first _ others same names =>
      have plain := plain_of_parseMembers own (next :: members) parsed same
      refine List.forall_mem_cons.mpr ⟨plain, ?_⟩
      obtain ⟨blanks, blank, reading⟩ := parseMembers_written own (next :: members) plain
        (show 2 * member.text.length + 2 ≤ fuel by omega)
      have comma : skipSpace (blanks ++ writtenTail (next :: members)) = ',' :: (next.render ++ writtenTail members) :=
        skipSpace_blanks blank rfl _
      rw [reading, nextMember_comma comma] at parsed
      obtain ⟨⟨later, behind⟩, found, whole⟩ := Option.map_eq_some_iff.mp parsed
      cases whole
      refine ih following ?_ found names
      simp only [Written.render, List.length_append, List.length_cons]
      omega

theorem parse_writtenObject (member : Written) (members : List Written) :
    parse (writtenObject (member :: members)) =
      match parseMembers (2 * (member.render ++ writtenTail members).length + 3)
        (member.render ++ writtenTail members) with
      | some (read, left) => if (skipSpace left).isEmpty then some (.object read) else none
      | none => none := by
  have opened : parseValue (2 * (writtenObject (member :: members)).length + 2) (writtenObject (member :: members)) =
      (parseMembers (2 * (member.render ++ writtenTail members).length + 3) (member.render ++ writtenTail members)).map
        fun read => (.object read.1, read.2) := by
    have inner : skipSpace (member.render ++ writtenTail members) =
        '"' :: (member.name ++ '"' :: ':' :: member.text ++ writtenTail members) := skipSpace_cons rfl
    have solid : skipSpace (writtenObject (member :: members)) = '\x7b' :: (member.render ++ writtenTail members) :=
      skipSpace_cons rfl
    have more : 2 * (writtenObject (member :: members)).length + 2 =
        2 * (member.render ++ writtenTail members).length + 3 + 1 := by
      rw [writtenObject, List.length_cons]
      omega
    rw [more, parseValue_solid solid, parseSolid_object_members inner (by decide)]
    rfl
  rw [parse, opened]
  cases parseMembers (2 * (member.render ++ writtenTail members).length + 3) (member.render ++ writtenTail members) with
  | none => rfl
  | some read => rfl

theorem parse_writtenObject_of_plain {members : List Written} {read : List (List Char × Json)}
    (each : List.Forall₂ Reads members read) (plain : ∀ member ∈ members, ∀ c ∈ member.name, IsPlain c) :
    parse (writtenObject members) = some (.object read) := by
  cases each with
  | nil => rfl
  | cons spelled each =>
    rw [parse_writtenObject, parseMembers_plain spelled each plain (by omega)]
    rfl

theorem plain_of_parse_writtenObject {members : List Written} {read : List (List Char × Json)}
    (spelled : ∀ member ∈ members, (parse member.text).isSome)
    (parsed : parse (writtenObject members) = some (.object read))
    (named : List.Forall₂ (fun written found => found.1 = written.name) members read) :
    ∀ member ∈ members, ∀ c ∈ member.name, IsPlain c := by
  cases members with
  | nil => exact fun member listed => absurd listed List.not_mem_nil
  | cons member members =>
    rw [parse_writtenObject] at parsed
    split at parsed
    · rename_i found left inner
      rw [Option.ite_none_right_eq_some] at parsed
      cases parsed.2
      exact plain_of_forall₂ spelled (by omega) inner named
    · cases parsed

end Json

end OtelDatalake.Foundation
