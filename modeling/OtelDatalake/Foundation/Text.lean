import Mathlib.Data.List.TakeWhile
import Mathlib.Data.List.Infix
import Mathlib.Algebra.GroupWithZero.Nat

namespace OtelDatalake.Foundation

/-- The last `width` hexadecimal digits of a number, in lower case. -/
def hexDigits : (width : Nat) → Nat → List Char
  | 0, _ => []
  | width + 1, n => hexDigits width (n / 16) ++ [Nat.digitChar (n % 16)]

@[simp] theorem hexDigits_length (width n : Nat) : (hexDigits width n).length = width := by
  induction width generalizing n with
  | zero => rfl
  | succ width ih => simp [hexDigits, ih]

theorem digitChar_injOn {left right : Nat} (first : left < 16) (second : right < 16)
    (same : Nat.digitChar left = Nat.digitChar right) : left = right := by
  have all : ∀ left < 16, ∀ right < 16, Nat.digitChar left = Nat.digitChar right → left = right := by decide
  exact all left first right second same

theorem hexDigits_injOn {width left right : Nat} (first : left < 16 ^ width) (second : right < 16 ^ width)
    (same : hexDigits width left = hexDigits width right) : left = right := by
  induction width generalizing left right with
  | zero => omega
  | succ width ih =>
    rw [hexDigits, hexDigits] at same
    obtain ⟨high, low⟩ := List.append_inj' same rfl
    have quotient := ih (Nat.div_lt_of_lt_mul (by rw [Nat.pow_succ] at first; omega))
      (Nat.div_lt_of_lt_mul (by rw [Nat.pow_succ] at second; omega)) high
    have remainder := digitChar_injOn (Nat.mod_lt left (by decide)) (Nat.mod_lt right (by decide))
      (List.singleton_inj.mp low)
    omega

theorem toDigits_ten_inj {left right : Nat} (same : Nat.toDigits 10 left = Nat.toDigits 10 right) : left = right := by
  have read := congrArg (fun digits => Nat.ofDigitChars 10 digits 0) same
  simpa only [Nat.ofDigitChars_ten_toDigits] using read

def paddedDigits (width n : Nat) : List Char :=
  List.replicate (width - (Nat.toDigits 10 n).length) '0' ++ Nat.toDigits 10 n

theorem ofDigitChars_zeros (count : Nat) (digits : List Char) :
    Nat.ofDigitChars 10 (List.replicate count '0' ++ digits) 0 = Nat.ofDigitChars 10 digits 0 := by
  induction count with
  | zero => rfl
  | succ count ih =>
    rw [List.replicate_succ, List.cons_append, ← ih]
    rfl

theorem paddedDigits_inj {width left right : Nat} :
    paddedDigits width left = paddedDigits width right ↔ left = right := by
  refine ⟨fun same => ?_, fun same => by rw [same]⟩
  have read := congrArg (fun digits => Nat.ofDigitChars 10 digits 0) same
  simpa only [paddedDigits, ofDigitChars_zeros, Nat.ofDigitChars_ten_toDigits] using read

theorem isDigit_of_mem_paddedDigits {width n : Nat} {c : Char} (found : c ∈ paddedDigits width n) :
    c.isDigit = true := by
  rcases List.mem_append.mp found with zero | digit
  · rw [List.eq_of_mem_replicate zero]
    rfl
  · exact Nat.isDigit_of_mem_toDigits (by decide) (by decide) digit

/-- The last `width` decimal digits of a number. -/
def decimalDigits : (width : Nat) → Nat → List Char
  | 0, _ => []
  | width + 1, n => decimalDigits width (n / 10) ++ [Nat.digitChar (n % 10)]

theorem decimalDigits_zero (width : Nat) : decimalDigits width 0 = List.replicate width '0' := by
  induction width with
  | zero => rfl
  | succ width ih =>
    rw [decimalDigits, Nat.zero_div, ih, List.replicate_succ']
    rfl

theorem paddedDigits_eq_decimalDigits {width n : Nat} (fits : n < 10 ^ (width + 1)) :
    paddedDigits (width + 1) n = decimalDigits (width + 1) n := by
  induction width generalizing n with
  | zero =>
    have small : n < 10 := by simpa using fits
    rw [paddedDigits, Nat.toDigits_of_lt_base small, decimalDigits, Nat.mod_eq_of_lt small]
    rfl
  | succ width ih =>
    by_cases small : n < 10
    · rw [paddedDigits, Nat.toDigits_of_lt_base small, decimalDigits, Nat.div_eq_of_lt small, decimalDigits_zero,
        Nat.mod_eq_of_lt small]
      rfl
    · have quotient : n / 10 < 10 ^ (width + 1) := Nat.div_lt_of_lt_mul (by rw [Nat.pow_succ] at fits; omega)
      rw [decimalDigits, ← ih quotient, paddedDigits, paddedDigits,
        Nat.toDigits_of_base_le (by decide) (Nat.le_of_not_lt small), List.length_append, List.length_singleton,
        Nat.add_sub_add_right, List.append_assoc]

theorem digitChar_lt {left right : Nat} (less : left < right) (bound : right < 10) :
    Nat.digitChar left < Nat.digitChar right := by
  have all : ∀ right < 10, ∀ left < right, Nat.digitChar left < Nat.digitChar right := by decide
  exact all right bound left less

/-- The digits of two numbers agree up to a place where the smaller number has the smaller digit. -/
theorem decimalDigits_split {width left right : Nat} (less : left < right) (fits : right < 10 ^ width) :
    ∃ shared low high leftRest rightRest, decimalDigits width left = shared ++ low :: leftRest ∧
      decimalDigits width right = shared ++ high :: rightRest ∧ low < high := by
  induction width generalizing left right with
  | zero => omega
  | succ width ih =>
    have quotient : right / 10 < 10 ^ width := Nat.div_lt_of_lt_mul (by rw [Nat.pow_succ] at fits; omega)
    rcases Nat.lt_or_ge (left / 10) (right / 10) with smaller | notSmaller
    · obtain ⟨shared, low, high, leftRest, rightRest, first, second, digits⟩ := ih smaller quotient
      refine ⟨shared, low, high, leftRest ++ [Nat.digitChar (left % 10)], rightRest ++ [Nat.digitChar (right % 10)],
        ?_, ?_, digits⟩
      · rw [decimalDigits, first, List.append_assoc, List.cons_append]
      · rw [decimalDigits, second, List.append_assoc, List.cons_append]
    · have same : left / 10 = right / 10 := by omega
      refine ⟨decimalDigits width (right / 10), Nat.digitChar (left % 10), Nat.digitChar (right % 10), [], [],
        ?_, rfl, ?_⟩
      · rw [decimalDigits, same]
      · exact digitChar_lt (by omega) (Nat.mod_lt right (by decide))

theorem append_separator_inj {α : Type} {separator : α} {left right first second : List α}
    (leftFree : separator ∉ first) (rightFree : separator ∉ second)
    (same : left ++ separator :: first = right ++ separator :: second) : left = right ∧ first = second := by
  rcases List.append_eq_append_iff.mp same with ⟨middle, rfl, split⟩ | ⟨middle, rfl, split⟩
  · cases middle with
    | nil => simpa using split
    | cons head tail =>
      rw [List.cons_append, List.cons.injEq] at split
      exact absurd (split.2 ▸ List.mem_append_right tail List.mem_cons_self) leftFree
  · cases middle with
    | nil => simpa [eq_comm] using split
    | cons head tail =>
      rw [List.cons_append, List.cons.injEq] at split
      exact absurd (split.2 ▸ List.mem_append_right tail List.mem_cons_self) rightFree

theorem separator_append_inj {α : Type} {separator : α} {left right first second : List α}
    (leftFree : separator ∉ left) (rightFree : separator ∉ right)
    (same : left ++ separator :: first = right ++ separator :: second) : left = right ∧ first = second := by
  induction left generalizing right with
  | nil =>
    cases right with
    | nil => exact ⟨rfl, (List.cons.inj same).2⟩
    | cons value right =>
      rw [(List.cons.inj same).1] at rightFree
      exact absurd List.mem_cons_self rightFree
  | cons value left ih =>
    rw [List.mem_cons, not_or] at leftFree
    cases right with
    | nil => exact absurd (List.cons.inj same).1.symm leftFree.1
    | cons other right =>
      rw [List.mem_cons, not_or] at rightFree
      obtain ⟨rfl, tails⟩ := List.cons.inj same
      obtain ⟨rfl, rfl⟩ := ih leftFree.2 rightFree.2 tails
      exact ⟨rfl, rfl⟩

theorem span_ne_append {α : Type} [DecidableEq α] {separator : α} {before : List α} (behind : List α)
    (free : separator ∉ before) :
    (before ++ separator :: behind).span (· ≠ separator) = (before, separator :: behind) := by
  have kept : ∀ value ∈ before, decide (value ≠ separator) = true :=
    fun value found => decide_eq_true fun same => free (same ▸ found)
  rw [List.span_eq_takeWhile_dropWhile, List.takeWhile_append_of_pos kept, List.dropWhile_append_of_pos kept]
  simp

theorem span_ne_of_notMem {α : Type} [DecidableEq α] {separator : α} {values : List α} (free : separator ∉ values) :
    values.span (· ≠ separator) = (values, []) := by
  have kept : ∀ value ∈ values, decide (value ≠ separator) = true :=
    fun value found => decide_eq_true fun same => free (same ▸ found)
  rw [List.span_eq_takeWhile_dropWhile, List.takeWhile_eq_self_iff.mpr kept, List.dropWhile_eq_nil_iff.mpr kept]

theorem first_or_none {α : Type} [DecidableEq α] (separator : α) (values : List α) :
    separator ∉ values ∨ ∃ before behind, values = before ++ separator :: behind ∧ separator ∉ before := by
  by_cases found : separator ∈ values
  · exact .inr (List.eq_append_cons_of_mem found)
  · exact .inl found

/-- The characters with the Unicode property `White_Space`. -/
def isWhitespace (c : Char) : Bool :=
  let code := c.toNat
  (9 ≤ code && code ≤ 13) || code == 32 || code == 133 || code == 160 || code == 5760 ||
    (8192 ≤ code && code ≤ 8202) || code == 8232 || code == 8233 || code == 8239 || code == 8287 || code == 12288

def trim (text : List Char) : List Char :=
  ((text.dropWhile isWhitespace).reverse.dropWhile isWhitespace).reverse

/-- `Char.toLower` maps the ASCII letters only. -/
def toAsciiLowercase (text : List Char) : List Char := text.map Char.toLower

def eqIgnoreAsciiCase (left right : List Char) : Bool := toAsciiLowercase left == toAsciiLowercase right

def containsText (text pattern : List Char) : Bool := decide (pattern <:+: text)

/-- `split_whitespace().next()` -/
def firstWord (text : List Char) : Option (List Char) :=
  let word := (text.dropWhile isWhitespace).takeWhile fun c => !isWhitespace c
  if word.isEmpty then none else some word

def parseUnsigned (limit : Nat) (text : List Char) : Option Nat :=
  let digits := if text.head? = some '+' then text.tail else text
  let value := Nat.ofDigitChars 10 digits 0
  if !digits.isEmpty && digits.all Char.isDigit && value ≤ limit then some value else none

end OtelDatalake.Foundation
