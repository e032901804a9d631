import OtelDatalake.Foundation.Text

namespace OtelDatalake.Foundation

/-- `char::to_digit`: digits, then letters of either case. -/
def toDigit (radix : Nat) (c : Char) : Option Nat :=
  let code := c.toNat
  let digit :=
    if 48 ≤ code && code ≤ 57 then some (code - 48)
    else if 97 ≤ code && code ≤ 122 then some (code - 87)
    else if 65 ≤ code && code ≤ 90 then some (code - 55)
    else none
  digit.filter (· < radix)

def readDigits (radix : Nat) : Nat → List Char → Option Nat
  | value, [] => some value
  | value, c :: rest => (toDigit radix c).bind fun digit => readDigits radix (value * radix + digit) rest

/-- `from_str_radix` of an unsigned number up to `limit`: digits behind at most one plus sign. -/
def fromStrRadix (radix limit : Nat) (text : List Char) : Option Nat :=
  let digits := if text.head? = some '+' then text.tail else text
  if digits.isEmpty then none else (readDigits radix 0 digits).filter (· ≤ limit)

/-- `split_once` at a character. -/
def splitOnce (separator : Char) : List Char → Option (List Char × List Char)
  | [] => none
  | c :: rest =>
    if c = separator then some ([], rest)
    else (splitOnce separator rest).map fun parts => (c :: parts.1, parts.2)

theorem splitOnce_append {separator : Char} {left : List Char} (right : List Char) (free : separator ∉ left) :
    splitOnce separator (left ++ separator :: right) = some (left, right) := by
  induction left with
  | nil => simp [splitOnce]
  | cons c rest ih =>
    rw [List.mem_cons, not_or] at free
    rw [List.cons_append, splitOnce, if_neg (Ne.symm free.1), ih free.2]
    rfl

theorem splitOnce_none {separator : Char} {text : List Char} (free : separator ∉ text) :
    splitOnce separator text = none := by
  induction text with
  | nil => rfl
  | cons c rest ih =>
    rw [List.mem_cons, not_or] at free
    rw [splitOnce, if_neg (Ne.symm free.1), ih free.2]
    rfl

theorem readDigits_append (radix value : Nat) (left right : List Char) :
    readDigits radix value (left ++ right) =
      (readDigits radix value left).bind fun middle => readDigits radix middle right := by
  induction left generalizing value with
  | nil => rfl
  | cons c rest ih =>
    rw [List.cons_append, readDigits, readDigits]
    cases toDigit radix c with
    | none => rfl
    | some digit => exact ih _

theorem toDigit_digitChar {radix digit : Nat} (small : radix ≤ 16) (bound : digit < radix) :
    toDigit radix (Nat.digitChar digit) = some digit := by
  have all : ∀ digit < 16, toDigit 16 (Nat.digitChar digit) = some digit := by decide
  have found := all digit (Nat.lt_of_lt_of_le bound small)
  rw [toDigit, Option.filter_eq_some_iff] at found ⊢
  exact ⟨found.1, by simpa using bound⟩

theorem readDigits_hexDigits (value width n : Nat) :
    readDigits 16 value (hexDigits width n) = some (value * 16 ^ width + n % 16 ^ width) := by
  induction width generalizing n with
  | zero => simp [hexDigits, readDigits, Nat.mod_one]
  | succ width ih =>
    have last := toDigit_digitChar (Nat.le_refl 16) (Nat.mod_lt n (by decide))
    have split : n % 16 ^ (width + 1) = n / 16 % 16 ^ width * 16 + n % 16 := by
      rw [Nat.pow_succ, Nat.mul_comm, Nat.mod_mul]
      omega
    rw [hexDigits, readDigits_append, ih, Option.bind_some, readDigits, last, Option.bind_some, readDigits, split,
      Nat.pow_succ, ← Nat.mul_assoc, Nat.add_mul]
    simp only [Option.some.injEq]
    omega

theorem readDigits_toDigits (n : Nat) : readDigits 10 0 (Nat.toDigits 10 n) = some n := by
  induction n using Nat.strongRecOn with
  | ind n ih =>
    rw [Nat.toDigits_eq_if (by decide)]
    by_cases small : n < 10
    · rw [if_pos small, readDigits, toDigit_digitChar (by decide) small]
      simp [readDigits]
    · have last := toDigit_digitChar (Nat.le_of_ble_eq_true rfl : 10 ≤ 16) (Nat.mod_lt n (by decide))
      rw [if_neg small, readDigits_append, ih (n / 10) (by omega), Option.bind_some, readDigits, last, Option.bind_some,
        readDigits]
      simp only [Option.some.injEq]
      omega

theorem not_mem_hexDigits {c : Char} (other : ∀ digit < 16, Nat.digitChar digit ≠ c) (width n : Nat) :
    c ∉ hexDigits width n := by
  induction width generalizing n with
  | zero => exact List.not_mem_nil
  | succ width ih =>
    rw [hexDigits, List.mem_append, List.mem_singleton, not_or]
    exact ⟨ih (n / 16), (other (n % 16) (Nat.mod_lt n (by decide))).symm⟩

theorem fromStrRadix_of_free {radix limit : Nat} {text : List Char} (free : '+' ∉ text) (nonempty : text ≠ []) :
    fromStrRadix radix limit text = (readDigits radix 0 text).filter (· ≤ limit) := by
  have start : text.head? ≠ some '+' := fun head => free (List.mem_of_mem_head? head)
  rw [fromStrRadix, if_neg start, if_neg (by simpa using nonempty)]

theorem fromStrRadix_hexDigits {limit width n : Nat} (fits : n < 16 ^ width) (bound : n ≤ limit) (wide : 0 < width) :
    fromStrRadix 16 limit (hexDigits width n) = some n := by
  have nonempty : hexDigits width n ≠ [] := by
    rw [← List.length_pos_iff, hexDigits_length]
    exact wide
  rw [fromStrRadix_of_free (not_mem_hexDigits (by decide) width n) nonempty, readDigits_hexDigits, Nat.mod_eq_of_lt fits]
  simp [Option.filter, bound]

theorem not_mem_toDigits {c : Char} (other : c.isDigit = false) (n : Nat) : c ∉ Nat.toDigits 10 n := by
  intro member
  have digit := Nat.isDigit_of_mem_toDigits (by decide) (by decide) member
  rw [other] at digit
  cases digit

theorem fromStrRadix_toDigits {limit n : Nat} (bound : n ≤ limit) :
    fromStrRadix 10 limit (Nat.toDigits 10 n) = some n := by
  rw [fromStrRadix_of_free (not_mem_toDigits (by decide) n) Nat.toDigits_ne_nil, readDigits_toDigits]
  simp [Option.filter, bound]

end OtelDatalake.Foundation
