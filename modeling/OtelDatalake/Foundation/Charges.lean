import Mathlib.Algebra.BigOperators.Group.Multiset.Basic
import Mathlib.Algebra.Order.BigOperators.Group.Multiset
import Mathlib.Algebra.Order.Ring.Nat

namespace OtelDatalake.Foundation

/-- The charges fit the budget, or one of them that does not fit alone is all that is charged. -/
def WithinBudget (budget : Nat) (charges : Multiset Nat) : Prop :=
  charges.sum ≤ budget ∨ ∃ charge ∈ charges, budget < charge ∧ charges.sum = charge

variable {budget charge : Nat} {charges fewer : Multiset Nat}

theorem WithinBudget.mono (within : WithinBudget budget charges) (dropped : fewer ≤ charges) :
    WithinBudget budget fewer := by
  obtain ⟨gone, rfl⟩ := Multiset.le_iff_exists_add.mp dropped
  rw [WithinBudget, Multiset.sum_add] at within
  rcases within with fits | ⟨charge, member, alone, equal⟩
  · exact Or.inl (by omega)
  · rcases Multiset.mem_add.mp member with held | left
    · have bound := Multiset.le_sum_of_mem held
      exact Or.inr ⟨charge, held, alone, by omega⟩
    · have bound := Multiset.le_sum_of_mem left
      exact Or.inl (by omega)

theorem WithinBudget.cons (fits : charges.sum = 0 ∨ charges.sum + charge ≤ budget) :
    WithinBudget budget (charge ::ₘ charges) := by
  have total : (charge ::ₘ charges).sum = charge + charges.sum := Multiset.sum_cons charge charges
  rcases fits with empty | fits
  · by_cases small : charge ≤ budget
    · exact Or.inl (by omega)
    · exact Or.inr ⟨charge, Multiset.mem_cons_self charge charges, Nat.not_le.mp small, by omega⟩
  · exact Or.inl (by omega)

end OtelDatalake.Foundation
