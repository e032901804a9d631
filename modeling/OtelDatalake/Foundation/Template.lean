import Mathlib.Data.List.Basic
import OtelDatalake.Foundation.Text

namespace OtelDatalake.Foundation.Template

/-- A piece of a template: a symbol outside the tokens, a token without its brackets, or what follows a bracket that
    is never closed. -/
inductive Piece (α : Type) where
  | symbol (value : α)
  | token (name : List α)
  | unclosed (rest : List α)
  deriving DecidableEq, Repr

variable {α : Type} (opening closing : α)

def Piece.source : Piece α → List α
  | symbol value => [value]
  | token name => opening :: name ++ [closing]
  | unclosed rest => opening :: rest

/-- The pieces of a template; a token ends at the first closing bracket behind its opening one. -/
inductive Reads : List α → List (Piece α) → Prop where
  | nil : Reads [] []
  | symbol {value : α} {rest : List α} {pieces : List (Piece α)} (outside : value ≠ opening) (reads : Reads rest pieces) :
      Reads (value :: rest) (.symbol value :: pieces)
  | token {name rest : List α} {pieces : List (Piece α)} (inside : closing ∉ name) (reads : Reads rest pieces) :
      Reads (opening :: name ++ closing :: rest) (.token name :: pieces)
  | unclosed {rest : List α} (open' : closing ∉ rest) : Reads (opening :: rest) [.unclosed rest]

def HasUnclosed (template : List α) : Prop :=
  ∃ before rest, template = before ++ opening :: rest ∧ closing ∉ rest

variable {opening closing}

theorem Reads.source {template : List α} {pieces : List (Piece α)} (reads : Reads opening closing template pieces) :
    pieces.flatMap (Piece.source opening closing) = template := by
  induction reads with
  | nil => rfl
  | symbol _ _ ih => rw [List.flatMap_cons, ih, Piece.source, List.singleton_append]
  | token _ _ ih =>
    rw [List.flatMap_cons, ih, Piece.source, List.append_assoc, List.singleton_append]
  | unclosed => rw [List.flatMap_cons, List.flatMap_nil, List.append_nil, Piece.source]

theorem Reads.unique {template : List α} {left right : List (Piece α)} (first : Reads opening closing template left)
    (second : Reads opening closing template right) : left = right := by
  induction first generalizing right with
  | nil => cases second; rfl
  | symbol outside _ ih =>
    cases second with
    | symbol _ reads => rw [ih reads]
    | token => exact absurd rfl outside
    | unclosed => exact absurd rfl outside
  | @token name rest pieces inside _ ih =>
    generalize same : opening :: name ++ closing :: rest = template at second
    cases second with
    | nil => cases same
    | symbol outside => exact absurd (List.cons.inj same).1.symm outside
    | token inside' reads =>
      obtain ⟨rfl, rfl⟩ := separator_append_inj inside' inside (List.cons.inj same).2.symm
      rw [ih reads]
    | unclosed open' =>
      rw [← (List.cons.inj same).2] at open'
      exact absurd (List.mem_append_right name List.mem_cons_self) open'
  | @unclosed rest open' =>
    generalize same : opening :: rest = template at second
    cases second with
    | nil => cases same
    | symbol outside => exact absurd (List.cons.inj same).1.symm outside
    | token =>
      rw [(List.cons.inj same).2] at open'
      exact absurd (List.mem_append_right _ List.mem_cons_self) open'
    | unclosed => rw [(List.cons.inj same).2]

theorem Reads.text {text rest : List α} {pieces : List (Piece α)} (outside : opening ∉ text)
    (reads : Reads opening closing rest pieces) :
    Reads opening closing (text ++ rest) (text.map Piece.symbol ++ pieces) := by
  induction text with
  | nil => exact reads
  | cons value text ih =>
    rw [List.mem_cons, not_or] at outside
    exact .symbol (Ne.symm outside.1) (ih outside.2)

theorem not_hasUnclosed_of_notMem {text : List α} (outside : opening ∉ text) : ¬HasUnclosed opening closing text := by
  rintro ⟨before, rest, rfl, _⟩
  exact outside (List.mem_append_right before List.mem_cons_self)

theorem hasUnclosed_token {before rest : List α} :
    HasUnclosed opening closing (before ++ closing :: rest) ↔ HasUnclosed opening closing (closing :: rest) := by
  constructor
  · rintro ⟨front, back, same, open'⟩
    rcases List.append_eq_append_iff.mp same with ⟨middle, rfl, split⟩ | ⟨middle, rfl, split⟩
    · exact ⟨middle, back, split, open'⟩
    · cases middle with
      | nil => exact ⟨[], back, split.symm, open'⟩
      | cons value middle =>
        rw [(List.cons.inj split).2] at open'
        exact absurd (List.mem_append_right middle List.mem_cons_self) open'
  · rintro ⟨front, back, same, open'⟩
    exact ⟨before ++ front, back, by rw [same, List.append_assoc], open'⟩

theorem hasUnclosed_cons {value : α} {rest : List α} (outside : value ≠ opening) :
    HasUnclosed opening closing (value :: rest) ↔ HasUnclosed opening closing rest := by
  constructor
  · rintro ⟨front, back, same, open'⟩
    cases front with
    | nil => exact absurd (List.cons.inj same).1 outside
    | cons _ front => exact ⟨front, back, (List.cons.inj same).2, open'⟩
  · rintro ⟨front, back, same, open'⟩
    exact ⟨value :: front, back, by rw [same, List.cons_append], open'⟩

end OtelDatalake.Foundation.Template
