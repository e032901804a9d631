import Mathlib.Computability.Language

namespace OtelDatalake.Foundation.Glob

/-- What one symbol of a pattern stands for: any text, any one symbol, or a symbol itself. -/
inductive Piece (α : Type) where
  | anything
  | one
  | literal (symbol : α)
  deriving DecidableEq, Repr

variable {α : Type}

def Piece.language : Piece α → Language α
  | anything => ⊤
  | one => {text | ∃ symbol, text = [symbol]}
  | literal symbol => {[symbol]}

def language (pieces : List (Piece α)) : Language α :=
  (pieces.map Piece.language).prod

@[simp] theorem mem_language_nil (text : List α) : text ∈ language ([] : List (Piece α)) ↔ text = [] :=
  Iff.rfl

theorem language_cons (piece : Piece α) (pieces : List (Piece α)) :
    language (piece :: pieces) = piece.language * language pieces := by
  rw [language, List.map_cons, List.prod_cons, ← language]

theorem mem_language_anything (text : List α) (pieces : List (Piece α)) :
    text ∈ language (.anything :: pieces) ↔ ∃ rest, rest <:+ text ∧ rest ∈ language pieces := by
  rw [language_cons, Language.mem_mul]
  constructor
  · rintro ⟨taken, _, rest, inside, rfl⟩
    exact ⟨rest, ⟨taken, rfl⟩, inside⟩
  · rintro ⟨rest, ⟨taken, rfl⟩, inside⟩
    exact ⟨taken, trivial, rest, inside, rfl⟩

theorem mem_language_one (text : List α) (pieces : List (Piece α)) :
    text ∈ language (.one :: pieces) ↔ ∃ symbol rest, text = symbol :: rest ∧ rest ∈ language pieces := by
  rw [language_cons, Language.mem_mul]
  constructor
  · rintro ⟨_, ⟨symbol, rfl⟩, rest, inside, rfl⟩
    exact ⟨symbol, rest, rfl, inside⟩
  · rintro ⟨symbol, rest, rfl, inside⟩
    exact ⟨[symbol], ⟨symbol, rfl⟩, rest, inside, rfl⟩

theorem mem_language_literal (symbol : α) (text : List α) (pieces : List (Piece α)) :
    text ∈ language (.literal symbol :: pieces) ↔ ∃ rest, text = symbol :: rest ∧ rest ∈ language pieces := by
  rw [language_cons, Language.mem_mul]
  constructor
  · rintro ⟨_, rfl, rest, inside, rfl⟩
    exact ⟨rest, rfl, inside⟩
  · rintro ⟨rest, rfl, inside⟩
    exact ⟨[symbol], rfl, rest, inside, rfl⟩

theorem language_anything_anything (pieces : List (Piece α)) :
    language (.anything :: .anything :: pieces) = language (.anything :: pieces) := by
  apply Language.ext
  intro text
  rw [mem_language_anything, mem_language_anything]
  constructor
  · rintro ⟨middle, outer, inside⟩
    obtain ⟨rest, inner, inside⟩ := (mem_language_anything middle pieces).mp inside
    exact ⟨rest, inner.trans outer, inside⟩
  · rintro ⟨rest, outer, inside⟩
    exact ⟨text, List.suffix_rfl, (mem_language_anything text pieces).mpr ⟨rest, outer, inside⟩⟩

theorem mem_language_anything_nil (text : List α) : text ∈ language [Piece.anything] :=
  (mem_language_anything text []).mpr ⟨[], List.nil_suffix, (mem_language_nil []).mpr rfl⟩

end OtelDatalake.Foundation.Glob
