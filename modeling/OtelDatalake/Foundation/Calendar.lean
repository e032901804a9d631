import Mathlib.Data.Nat.Find
import Mathlib.Tactic.SplitIfs

namespace OtelDatalake.Foundation.Calendar

structure Date where
  year : Int
  month : Nat
  day : Nat
  deriving DecidableEq, Repr

def isLeap (year : Int) : Bool := decide (year % 4 = 0 ∧ (year % 100 ≠ 0 ∨ year % 400 = 0))

/-- The days of a year before the first of a month; those before month 13 are all of them. -/
def daysBeforeMonth (leap : Bool) (month : Nat) : Nat :=
  [0, 0, 31, 59, 90, 120, 151, 181, 212, 243, 273, 304, 334, 365].getD month 0 + if leap && 2 < month then 1 else 0

def daysBeforeYear (year : Int) : Int := 365 * year + (year + 3) / 4 - (year + 99) / 100 + (year + 399) / 400

namespace Date

def leap (date : Date) : Bool := isLeap date.year

structure Valid (date : Date) : Prop where
  month : 1 ≤ date.month ∧ date.month ≤ 12
  day : 1 ≤ date.day ∧ daysBeforeMonth date.leap date.month + date.day ≤ daysBeforeMonth date.leap (date.month + 1)

def dayNumber (date : Date) : Int :=
  daysBeforeYear date.year + daysBeforeMonth date.leap date.month + (date.day - 1) - daysBeforeYear 1970

end Date

theorem daysBeforeMonth_last (leap : Bool) : daysBeforeMonth leap 13 = if leap then 366 else 365 := by
  cases leap <;> rfl

theorem daysBeforeYear_succ (year : Int) :
    daysBeforeYear (year + 1) = daysBeforeYear year + daysBeforeMonth (isLeap year) 13 := by
  rw [daysBeforeMonth_last, daysBeforeYear, daysBeforeYear]
  by_cases leap : year % 4 = 0 ∧ (year % 100 ≠ 0 ∨ year % 400 = 0)
  · rw [isLeap, decide_eq_true leap, if_pos rfl]
    omega
  · rw [isLeap, decide_eq_false leap, if_neg Bool.false_ne_true]
    omega

/-- The year that holds a number of days since the first of January of year 0: by the mean length of a year, up to one. -/
def yearOf (days : Int) : Int :=
  let guess := days * 400 / 146097
  if days < daysBeforeYear guess then guess - 1
  else if daysBeforeYear (guess + 1) ≤ days then guess + 1
  else guess

theorem yearOf_spec (days : Int) : daysBeforeYear (yearOf days) ≤ days ∧ days < daysBeforeYear (yearOf days + 1) := by
  have low : 146097 * (days * 400 / 146097) ≤ days * 400 := Int.mul_ediv_self_le (by decide)
  have high : days * 400 < 146097 * (days * 400 / 146097) + 146097 := Int.lt_mul_ediv_self_add (by decide)
  rw [yearOf]
  generalize days * 400 / 146097 = guess at low high ⊢
  split_ifs with early late
  · rw [daysBeforeYear] at early
    constructor
    · rw [daysBeforeYear]
      omega
    · rw [Int.sub_add_cancel, daysBeforeYear]
      exact early
  · rw [daysBeforeYear] at late
    refine ⟨by rw [daysBeforeYear]; exact late, ?_⟩
    rw [daysBeforeYear]
    omega
  · exact ⟨by omega, by omega⟩

/-- The month that holds a day of a year, counted from 0: the last one that has begun. -/
def monthOf (leap : Bool) (day : Nat) : Nat := Nat.findGreatest (fun month => daysBeforeMonth leap month ≤ day) 12

theorem monthOf_spec {leap : Bool} {day : Nat} (inYear : day < daysBeforeMonth leap 13) :
    (1 ≤ monthOf leap day ∧ monthOf leap day ≤ 12) ∧ daysBeforeMonth leap (monthOf leap day) ≤ day ∧
      day < daysBeforeMonth leap (monthOf leap day + 1) := by
  have january : daysBeforeMonth leap 1 ≤ day := by
    have none : daysBeforeMonth leap 1 = 0 := by cases leap <;> rfl
    rw [none]
    exact Nat.zero_le day
  have last : monthOf leap day ≤ 12 := Nat.findGreatest_le 12
  have begun : daysBeforeMonth leap (monthOf leap day) ≤ day :=
    Nat.findGreatest_spec (P := fun month => daysBeforeMonth leap month ≤ day) (by decide) january
  refine ⟨⟨Nat.le_findGreatest (by decide) january, last⟩, begun, ?_⟩
  rcases Nat.lt_or_eq_of_le last with earlier | december
  · have notBegun : ¬daysBeforeMonth leap (monthOf leap day + 1) ≤ day :=
      Nat.findGreatest_is_greatest (P := fun month => daysBeforeMonth leap month ≤ day) (Nat.lt_succ_self _) earlier
    exact Nat.not_le.mp notBegun
  · rw [december]
    exact inYear

def ofDayNumber (number : Int) : Date :=
  let days := number + daysBeforeYear 1970
  let year := yearOf days
  let inYear := (days - daysBeforeYear year).toNat
  let month := monthOf (isLeap year) inYear
  ⟨year, month, inYear - daysBeforeMonth (isLeap year) month + 1⟩

theorem ofDayNumber_spec (number : Int) : (ofDayNumber number).Valid ∧ (ofDayNumber number).dayNumber = number := by
  obtain ⟨begun, ends⟩ := yearOf_spec (number + daysBeforeYear 1970)
  rw [daysBeforeYear_succ] at ends
  have inYear : ((number + daysBeforeYear 1970 - daysBeforeYear (yearOf (number + daysBeforeYear 1970))).toNat) <
      daysBeforeMonth (isLeap (yearOf (number + daysBeforeYear 1970))) 13 := by omega
  obtain ⟨month, first, last⟩ := monthOf_spec inYear
  refine ⟨⟨month, ?_⟩, ?_⟩
  · simp only [ofDayNumber, Date.leap]
    omega
  · simp only [ofDayNumber, Date.dayNumber, Date.leap]
    omega

theorem ofDayNumber_inj {left right : Int} : ofDayNumber left = ofDayNumber right ↔ left = right := by
  refine ⟨fun same => ?_, fun same => by rw [same]⟩
  rw [← (ofDayNumber_spec left).2, same, (ofDayNumber_spec right).2]

end OtelDatalake.Foundation.Calendar
