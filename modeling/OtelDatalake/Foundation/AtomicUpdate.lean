import Mathlib.Data.List.Chain

namespace OtelDatalake.Foundation

/-- An atomic cell, with the values that it held before its present one, oldest first. -/
structure AtomicCell (α : Type) where
  value : α
  past : List α := []
  deriving DecidableEq, Repr

/-- Where a thread is in `try_update`: before its load, before the compare-exchange of a value that it saw for
    the one its closure gave, behind the loop with the value it replaced (and how many updates came before its
    own), or behind the loop with a value for which its closure gave none. -/
inductive TryUpdate (α : Type) where
  | begin
  | attempt (prev next : α)
  | updated (prev : α) (place : Nat)
  | refused (prev : α)
  deriving DecidableEq, Repr

/-- What the hardware answers: a load or a failed compare-exchange sees some value that the cell has held, a
    weak compare-exchange fails at will. -/
inductive CellAnswer (α : Type) where
  | sees (value : α)
  | exchanges
  deriving DecidableEq, Repr

variable {α : Type}

namespace AtomicCell

def history (cell : AtomicCell α) : List α := cell.past ++ [cell.value]

def store (cell : AtomicCell α) (next : α) : AtomicCell α := { value := next, past := cell.history }

@[simp] theorem store_past (cell : AtomicCell α) (next : α) : (cell.store next).past = cell.history := rfl

theorem store_history (cell : AtomicCell α) (next : α) : (cell.store next).history = cell.history ++ [next] := rfl

theorem history_length (cell : AtomicCell α) : cell.history.length = cell.past.length + 1 := by
  rw [history, List.length_append, List.length_singleton]

theorem history_getElem?_value (cell : AtomicCell α) : cell.history[cell.past.length]? = some cell.value := by
  rw [history, List.getElem?_append_right (Nat.le_refl _), Nat.sub_self]
  rfl

theorem store_isChain {related : α → α → Prop} {cell : AtomicCell α} {next : α}
    (before : cell.history.IsChain related) (own : related cell.value next) :
    (cell.store next).history.IsChain related := by
  rw [store_history, history, List.append_assoc, List.singleton_append, List.isChain_append_cons_cons]
  exact ⟨before, own, List.isChain_singleton next⟩

end AtomicCell

namespace TryUpdate

def propose (update : α → Option α) (seen : α) : TryUpdate α :=
  match update seen with
  | some next => .attempt seen next
  | none => .refused seen

/-- One atomic step of the loop around the compare-exchange. -/
def act [DecidableEq α] (update : α → Option α) (cell : AtomicCell α) :
    TryUpdate α → CellAnswer α → Option (AtomicCell α × TryUpdate α)
  | .begin, .sees value | .attempt _ _, .sees value =>
    if value ∈ cell.history then some (cell, propose update value) else none
  | .attempt prev next, .exchanges =>
    if cell.value = prev then some (cell.store next, .updated prev cell.past.length) else none
  | _, _ => none

/-- The place of the thread's own update in the order of all updates. -/
def place? : TryUpdate α → Option Nat
  | .updated _ place => some place
  | _ => none

@[simp] theorem place?_propose (update : α → Option α) (seen : α) : (propose update seen).place? = none := by
  unfold propose
  cases update seen <;> rfl

/-- What a thread holds is what its closure gives, and its update stands in the cell's history. -/
def Recorded (update : α → Option α) (cell : AtomicCell α) : TryUpdate α → Prop
  | .begin => True
  | .attempt prev next => update prev = some next
  | .updated prev place =>
    ∃ next, update prev = some next ∧ cell.history[place]? = some prev ∧ cell.history[place + 1]? = some next
  | .refused prev => update prev = none

theorem recorded_propose (update : α → Option α) (cell : AtomicCell α) (seen : α) :
    (propose update seen).Recorded update cell := by
  unfold propose
  cases proposed : update seen with
  | none => exact proposed
  | some next => exact proposed

/-- A step leaves the cell as it is, or it is the thread's own update of the cell's present value. -/
theorem act_cases [DecidableEq α] {update : α → Option α} {cell after : AtomicCell α} {phase next : TryUpdate α}
    {answer : CellAnswer α} (recorded : phase.Recorded update cell)
    (acted : phase.act update cell answer = some (after, next)) :
    (∃ seen, after = cell ∧ next = propose update seen ∧ phase.place? = none) ∨
    (∃ stored, update cell.value = some stored ∧ after = cell.store stored ∧
      next = .updated cell.value cell.past.length ∧ phase.place? = none) := by
  cases answer with
  | sees value =>
    cases phase with
    | begin | attempt =>
      simp only [act, Option.ite_none_right_eq_some, Option.some.injEq, Prod.mk.injEq] at acted
      obtain ⟨-, rfl, rfl⟩ := acted
      exact .inl ⟨value, rfl, rfl, rfl⟩
    | updated | refused => cases acted
  | exchanges =>
    cases phase with
    | attempt prev stored =>
      simp only [act, Option.ite_none_right_eq_some, Option.some.injEq, Prod.mk.injEq] at acted
      obtain ⟨rfl, rfl, rfl⟩ := acted
      exact .inr ⟨stored, recorded, rfl, rfl, rfl⟩
    | begin | updated | refused => cases acted

theorem Recorded.stored {update : α → Option α} {cell : AtomicCell α} {phase : TryUpdate α}
    (recorded : phase.Recorded update cell) (stored : α) : phase.Recorded update (cell.store stored) := by
  cases phase with
  | begin | attempt | refused => exact recorded
  | updated prev place =>
    obtain ⟨next, proposed, replaced, present⟩ := recorded
    have kept {index : Nat} {value : α} (found : cell.history[index]? = some value) :
        (cell.store stored).history[index]? = some value := by
      obtain ⟨bound, -⟩ := List.getElem?_eq_some_iff.mp found
      rw [AtomicCell.store_history, List.getElem?_append_left bound, found]
    exact ⟨next, proposed, kept replaced, kept present⟩

theorem Recorded.updated {update : α → Option α} {cell : AtomicCell α} {stored : α}
    (proposed : update cell.value = some stored) :
    (TryUpdate.updated cell.value cell.past.length).Recorded update (cell.store stored) := by
  refine ⟨stored, proposed, ?_, ?_⟩
  · rw [AtomicCell.store_history, List.getElem?_append_left (by rw [AtomicCell.history_length]; omega)]
    exact cell.history_getElem?_value
  · rw [AtomicCell.store_history, ← AtomicCell.history_length]
    exact List.getElem?_concat_length

theorem Recorded.place_lt {update : α → Option α} {cell : AtomicCell α} {phase : TryUpdate α} {place : Nat}
    (recorded : phase.Recorded update cell) (own : phase.place? = some place) : place < cell.past.length := by
  cases phase with
  | begin | attempt | refused => cases own
  | updated prev index =>
    cases own
    obtain ⟨next, -, -, present⟩ := recorded
    obtain ⟨bound, -⟩ := List.getElem?_eq_some_iff.mp present
    rw [AtomicCell.history_length] at bound
    omega

end TryUpdate

end OtelDatalake.Foundation
