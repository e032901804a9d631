import OtelDatalake.Foundation.Template
import OtelDatalake.Foundation.Text
import OtelDatalake.Parquet.Partition

open OtelDatalake.Foundation
open OtelDatalake.Foundation.Template (Piece Reads HasUnclosed)

namespace OtelDatalake.Parquet

section Expansion

variable (signal : String) (key : PartitionKey)

def tokenValue (token : List Char) : Option (List Char) :=
  [("signal".toList, signal.toList), ("date".toList, key.date), ("hour".toList, zeroPadded 2 key.hour),
    ("year".toList, zeroPadded 4 key.year), ("month".toList, zeroPadded 2 key.month),
    ("day".toList, zeroPadded 2 key.day)].lookup token

def expandPiece (piece : Piece Char) : List Char :=
  match piece with
  | .token name => (tokenValue signal key name).getD (piece.source '\x7b' '\x7d')
  | piece => piece.source '\x7b' '\x7d'

/-- The path is the pattern with every recognised token replaced by its value and all the rest copied once. -/
def IsExpansion (pattern path : String) : Prop :=
  ∃ pieces, Reads '\x7b' '\x7d' pattern.toList pieces ∧ path.toList = pieces.flatMap (expandPiece signal key)

variable {signal : String} {key : PartitionKey}

theorem lookup_cons_getD {α β : Type} [BEq α] [LawfulBEq α] [DecidableEq α] (a k : α) (b d : β) (rest : List (α × β)) :
    (((k, b) :: rest).lookup a).getD d = if a = k then b else (rest.lookup a).getD d := by
  rw [List.lookup_cons]
  by_cases same : a = k
  · rw [if_pos same, same, beq_self_eq_true]
    rfl
  · rw [if_neg same, beq_eq_false_iff_ne.mpr same]

theorem formatToken_eq (token : List Char) : formatToken signal key token = expandPiece signal key (.token token) := by
  simp only [expandPiece, tokenValue, lookup_cons_getD, List.lookup_nil, Option.getD_none]
  rfl

@[simp] theorem expandPiece_symbol (c : Char) : expandPiece signal key (.symbol c) = [c] := rfl

@[simp] theorem expandPiece_unclosed (rest : List Char) : expandPiece signal key (.unclosed rest) = '\x7b' :: rest := rfl

theorem expand_symbols (text : List Char) : (text.map Piece.symbol).flatMap (expandPiece signal key) = text := by
  induction text with
  | nil => rfl
  | cons c text ih => rw [List.map_cons, List.flatMap_cons, ih, expandPiece_symbol, List.singleton_append]

theorem formatTokens_token (signal : String) (key : PartitionKey) (fuel : Nat) {text token : List Char}
    (behind : List Char) (free : '\x7b' ∉ text)
    (inside : '\x7d' ∉ token) :
    formatTokens signal key (fuel + 1) (text ++ '\x7b' :: (token ++ '\x7d' :: behind)) =
      text ++ formatToken signal key token ++ formatTokens signal key fuel behind := by
  rw [formatTokens, span_ne_append _ free]
  dsimp only
  rw [span_ne_append _ inside]

theorem formatTokens_unclosed {text rest : List Char} (fuel : Nat) (free : '\x7b' ∉ text) (open' : '\x7d' ∉ rest) :
    formatTokens signal key (fuel + 1) (text ++ '\x7b' :: rest) =
      text ++ '\x7b' :: rest ++ (text ++ '\x7b' :: rest) := by
  rw [formatTokens, span_ne_append _ free]
  dsimp only
  rw [span_ne_of_notMem open']

theorem formatTokens_text {text : List Char} (fuel : Nat) (free : '\x7b' ∉ text) :
    formatTokens signal key (fuel + 1) text = text := by
  rw [formatTokens, span_ne_of_notMem free]

/-- The scan reads the pieces of the pattern and gives what they stand for, with more behind it exactly if some brace is
    never closed. -/
theorem formatTokens_reads (signal : String) (key : PartitionKey) (fuel : Nat) (pattern : List Char)
    (enough : pattern.length ≤ fuel) :
    ∃ pieces again, Reads '\x7b' '\x7d' pattern pieces ∧
      formatTokens signal key fuel pattern = pieces.flatMap (expandPiece signal key) ++ again ∧
      (again = [] ↔ ¬HasUnclosed '\x7b' '\x7d' pattern) := by
  induction fuel generalizing pattern with
  | zero =>
    rw [List.length_eq_zero_iff.mp (Nat.le_zero.mp enough)]
    exact ⟨[], [], .nil, rfl, iff_of_true rfl (Template.not_hasUnclosed_of_notMem List.not_mem_nil)⟩
  | succ fuel ih =>
    rcases first_or_none '\x7b' pattern with free | ⟨text, rest, rfl, free⟩
    · refine ⟨pattern.map Piece.symbol, [], ?_, ?_, iff_of_true rfl (Template.not_hasUnclosed_of_notMem free)⟩
      · have reads : Reads '\x7b' '\x7d' (pattern ++ []) (pattern.map Piece.symbol ++ []) := .text free .nil
        rwa [List.append_nil, List.append_nil] at reads
      · rw [formatTokens_text fuel free, expand_symbols, List.append_nil]
    · rcases first_or_none '\x7d' rest with open' | ⟨token, behind, rfl, inside⟩
      · refine ⟨text.map Piece.symbol ++ [.unclosed rest], text ++ '\x7b' :: rest, .text free (.unclosed open'), ?_, ?_⟩
        · rw [formatTokens_unclosed fuel free open', List.flatMap_append, expand_symbols, List.flatMap_singleton,
            expandPiece_unclosed]
        · exact iff_of_false (by simp) (not_not.mpr ⟨text, rest, rfl, open'⟩)
      · have shorter : behind.length ≤ fuel := by
          simp only [List.length_append, List.length_cons] at enough
          omega
        obtain ⟨pieces, again, reads, scanned, nothing⟩ := ih behind shorter
        refine ⟨text.map Piece.symbol ++ .token token :: pieces, again, .text free (.token inside reads), ?_, ?_⟩
        · rw [formatTokens_token signal key fuel behind free inside, scanned, formatToken_eq, List.flatMap_append,
            expand_symbols,
            List.flatMap_cons]
          simp only [List.append_assoc]
        · have before : text ++ '\x7b' :: (token ++ '\x7d' :: behind) = (text ++ '\x7b' :: token) ++ '\x7d' :: behind := by
            rw [List.append_assoc, List.cons_append]
          rw [nothing, before, Template.hasUnclosed_token, Template.hasUnclosed_cons (by decide)]

theorem isExpansion_iff (pattern : String) :
    IsExpansion signal key pattern (String.ofList (formatTokens signal key pattern.length pattern.toList)) ↔
      ¬HasUnclosed '\x7b' '\x7d' pattern.toList := by
  obtain ⟨pieces, again, reads, scanned, nothing⟩ :=
    formatTokens_reads signal key pattern.length pattern.toList (Nat.le_of_eq String.length_toList)
  rw [← nothing, IsExpansion, scanned, String.toList_ofList]
  constructor
  · rintro ⟨others, reads', same⟩
    rw [reads'.unique reads] at same
    exact List.append_right_eq_self.mp same
  · intro none
    exact ⟨pieces, reads, by rw [none, List.append_nil]⟩

theorem formatPartitionPath_eq (pattern : String) :
    formatPartitionPath pattern signal key = String.ofList (formatTokens signal key pattern.length pattern.toList) := by
  rw [formatPartitionPath]
  split
  · rename_i canonical
    rw [canonical]
    apply String.toList_injective
    have scanned : formatTokens signal key canonicalPattern.length canonicalPattern.toList =
        "signal=".toList ++ formatToken signal key "signal".toList ++ ("/date=".toList ++
          formatToken signal key "date".toList ++ ("/hour=".toList ++ formatToken signal key "hour".toList ++ [])) := by
      have free : ∀ text ∈ ["signal=".toList, "/date=".toList, "/hour=".toList], '\x7b' ∉ text := by decide
      have inside : ∀ token ∈ ["signal".toList, "date".toList, "hour".toList], '\x7d' ∉ token := by decide
      have first := formatTokens_token signal key 42 "/date=\x7bdate\x7d/hour=\x7bhour\x7d".toList
        (free "signal=".toList (by decide)) (inside "signal".toList (by decide))
      have second := formatTokens_token signal key 41 "/hour=\x7bhour\x7d".toList
        (free "/date=".toList (by decide)) (inside "date".toList (by decide))
      have third := formatTokens_token signal key 40 []
        (free "/hour=".toList (by decide)) (inside "hour".toList (by decide))
      rw [formatTokens_text _ List.not_mem_nil] at third
      exact first.trans (congrArg _ (second.trans (congrArg _ third)))
    simp only [String.toList_append, String.toList_ofList, scanned, List.append_assoc, List.append_nil]
    rfl
  · rfl

theorem canonicalPattern_closed : ¬HasUnclosed '\x7b' '\x7d' canonicalPattern.toList := by
  have split : canonicalPattern.toList =
      "signal=\x7bsignal\x7d/date=\x7bdate\x7d/hour=\x7bhour".toList ++ '\x7d' :: [] := by decide
  rw [split, Template.hasUnclosed_token, Template.hasUnclosed_cons (by decide)]
  exact Template.not_hasUnclosed_of_notMem List.not_mem_nil

theorem isExpansion_iff_eq {pattern path : String} (closed : ¬HasUnclosed '\x7b' '\x7d' pattern.toList) :
    IsExpansion signal key pattern path ↔ path = formatPartitionPath pattern signal key := by
  have expands : IsExpansion signal key pattern (formatPartitionPath pattern signal key) := by
    rw [formatPartitionPath_eq]
    exact (isExpansion_iff pattern).mpr closed
  refine ⟨fun other => ?_, fun same => same ▸ expands⟩
  obtain ⟨pieces, reads, scanned⟩ := other
  obtain ⟨others, reads', scanned'⟩ := expands
  rw [reads'.unique reads] at scanned'
  exact String.toList_injective (scanned.trans scanned'.symm)

end Expansion

/-- The path is the expansion of the pattern exactly if every brace of the pattern is closed behind it; and the fast path
always agrees with the general one. -/
theorem formatPartitionPath_expands_iff (pattern signal : String) (key : PartitionKey) :
    (IsExpansion signal key pattern (formatPartitionPath pattern signal key) ∧
        formatPartitionPath canonicalPattern signal key =
          String.ofList (formatTokens signal key canonicalPattern.length canonicalPattern.toList)) ↔
      ¬HasUnclosed '\x7b' '\x7d' pattern.toList := by
  rw [formatPartitionPath_eq, formatPartitionPath_eq, isExpansion_iff]
  exact and_iff_left rfl

/-- A text with an open brace at its end is written twice. -/
theorem formatPartitionPath_unclosed :
    formatPartitionPath "a\x7bb" "logs" ⟨2024, 1, 2, 3⟩ = "a\x7bba\x7bb" ∧
      ¬IsExpansion "logs" ⟨2024, 1, 2, 3⟩ "a\x7bb" (formatPartitionPath "a\x7bb" "logs" ⟨2024, 1, 2, 3⟩) := by
  refine ⟨by decide, ?_⟩
  rw [formatPartitionPath_eq, isExpansion_iff]
  exact not_not.mpr ⟨['a'], ['b'], by decide, by decide⟩

end OtelDatalake.Parquet
