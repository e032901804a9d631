import OtelDatalake.Foundation.Glob

open OtelDatalake.Foundation

namespace OtelDatalake.Elasticsearch

def skipStars : List Char → List Char
  | [] => []
  | p :: rest => if p = '*' then skipStars rest else p :: rest

theorem skipStars_length_le (pattern : List Char) : (skipStars pattern).length ≤ pattern.length := by
  induction pattern with
  | nil => exact Nat.le_refl 0
  | cons p rest ih =>
    rw [skipStars]
    split
    · exact Nat.le_succ_of_le ih
    · exact Nat.le_refl _

/-- The inner loop over the target, and the call behind it on what is left. -/
def matchSomeRest (accepts : List Char → Bool) : List Char → Bool
  | [] => accepts []
  | t :: target => accepts (t :: target) || matchSomeRest accepts target

def matchRecursive : (pattern target : List Char) → Bool
  | [], target => target.isEmpty
  | p :: pattern, target =>
    if p = '*' then
      if (skipStars pattern).isEmpty then true else matchSomeRest (matchRecursive (skipStars pattern)) target
    else if p = '?' then
      match target with
      | [] => false
      | _ :: target => matchRecursive pattern target
    else
      match target with
      | [] => false
      | t :: target => if t ≠ p then false else matchRecursive pattern target
termination_by pattern => pattern.length
decreasing_by
  · exact Nat.lt_succ_of_le (skipStars_length_le pattern)
  · exact Nat.lt_succ_self _
  · exact Nat.lt_succ_self _

def patternMatches (pattern target : String) : Bool :=
  if pattern = "*" then true else matchRecursive pattern.toList target.toList

/-- The wildcards that the doc of `pattern_matches` names. -/
def wildcard (c : Char) : Glob.Piece Char :=
  if c = '*' then .anything else if c = '?' then .one else .literal c

/-- A reading of patterns in which the star is the only wildcard. -/
def starOnly (c : Char) : Glob.Piece Char :=
  if c = '*' then .anything else .literal c

theorem language_skipStars (pattern : List Char) :
    Glob.language (.anything :: (skipStars pattern).map wildcard) =
      Glob.language (.anything :: pattern.map wildcard) := by
  induction pattern with
  | nil => rfl
  | cons p rest ih =>
    rw [skipStars]
    split
    · rename_i star
      rw [List.map_cons, wildcard, if_pos star, Glob.language_anything_anything]
      exact ih
    · rfl

theorem matchSomeRest_iff (accepts : List Char → Bool) (target : List Char) :
    matchSomeRest accepts target = true ↔ ∃ rest, rest <:+ target ∧ accepts rest = true := by
  induction target with
  | nil =>
    constructor
    · intro found
      exact ⟨[], List.suffix_rfl, found⟩
    · rintro ⟨rest, suffix, found⟩
      rwa [List.suffix_nil.mp suffix] at found
  | cons t target ih =>
    rw [matchSomeRest, Bool.or_eq_true, ih]
    constructor
    · rintro (found | ⟨rest, suffix, found⟩)
      · exact ⟨t :: target, List.suffix_rfl, found⟩
      · exact ⟨rest, suffix.trans (List.suffix_cons t target), found⟩
    · rintro ⟨rest, suffix, found⟩
      rcases List.suffix_cons_iff.mp suffix with rfl | suffix
      · exact .inl found
      · exact .inr ⟨rest, suffix, found⟩

theorem matchRecursive_star (pattern target : List Char) :
    matchRecursive ('*' :: pattern) target =
      if (skipStars pattern).isEmpty then true else matchSomeRest (matchRecursive (skipStars pattern)) target := by
  cases target with
  | nil => rw [matchRecursive, if_pos rfl]
  | cons t target => rw [matchRecursive, if_pos rfl]

theorem matchRecursive_iff (pattern target : List Char) :
    matchRecursive pattern target = true ↔ target ∈ Glob.language (pattern.map wildcard) := by
  induction pattern, target using matchRecursive.induct with
  | case1 target =>
    rw [matchRecursive, List.isEmpty_iff]
    exact (Glob.mem_language_nil target).symm
  | case2 pattern target ends =>
    rw [matchRecursive_star, if_pos ends]
    rw [List.map_cons, wildcard, if_pos rfl, ← language_skipStars, List.isEmpty_iff.mp ends]
    exact iff_of_true rfl (Glob.mem_language_anything_nil target)
  | case3 pattern target goesOn ih =>
    rw [matchRecursive_star, if_neg goesOn, matchSomeRest_iff]
    rw [List.map_cons, wildcard, if_pos rfl, ← language_skipStars, Glob.mem_language_anything]
    exact exists_congr fun rest => and_congr_right fun _ => ih rest
  | case4 pattern notStar =>
    rw [matchRecursive, if_neg notStar, if_pos rfl]
    rw [List.map_cons, wildcard, if_neg notStar, if_pos rfl, Glob.mem_language_one]
    simp
  | case5 pattern t target notStar ih =>
    rw [matchRecursive, if_neg notStar, if_pos rfl, ih]
    rw [List.map_cons, wildcard, if_neg notStar, if_pos rfl, Glob.mem_language_one]
    simp
  | case6 p pattern notStar notOne =>
    rw [matchRecursive, if_neg notStar, if_neg notOne]
    rw [List.map_cons, wildcard, if_neg notStar, if_neg notOne, Glob.mem_language_literal]
    simp
  | case7 p pattern notStar notOne t target different =>
    rw [matchRecursive, if_neg notStar, if_neg notOne, if_pos different]
    rw [List.map_cons, wildcard, if_neg notStar, if_neg notOne, Glob.mem_language_literal]
    simp [different]
  | case8 p pattern notStar notOne t target same ih =>
    rw [matchRecursive, if_neg notStar, if_neg notOne, if_neg same, ih]
    rw [List.map_cons, wildcard, if_neg notStar, if_neg notOne, Glob.mem_language_literal]
    simp [not_not.mp same]

/-- Matching decides the glob language in which a star stands for any text and a question mark for any
character; being a function, it ends for every pattern. -/
theorem patternMatches_iff (pattern target : String) :
    patternMatches pattern target = true ↔
      target.toList ∈ Glob.language (pattern.toList.map wildcard) := by
  rw [patternMatches]
  split
  · rename_i star
    rw [star]
    exact iff_of_true rfl (Glob.mem_language_anything_nil target.toList)
  · exact matchRecursive_iff pattern.toList target.toList

theorem patternMatches_questionMark :
    ¬∀ pattern target : String, patternMatches pattern target = true ↔
      target.toList ∈ Glob.language (pattern.toList.map starOnly) := by
  intro all
  have matched : patternMatches "?" "a" = true := by
    simp [patternMatches, matchRecursive]
  obtain ⟨rest, same, _⟩ := (Glob.mem_language_literal '?' _ []).mp ((all "?" "a").mp matched)
  exact absurd same (by simp)

example : patternMatches "logs-?-default" "logs-12-default" = false := by
  simp [patternMatches, matchRecursive]

end OtelDatalake.Elasticsearch
