import Mathlib.Logic.Relation

namespace OtelDatalake.Foundation

variable {State Action : Type}

/-- One move of a partial step function, by an action that is permitted in the state it starts from. -/
def Move (step : State → Action → Option State) (permitted : State → Action → Prop)
    (before after : State) : Prop :=
  ∃ action, permitted before action ∧ step before action = some after

abbrev Run (step : State → Action → Option State) (permitted : State → Action → Prop) :
    State → State → Prop :=
  Relation.ReflTransGen (Move step permitted)

def execute (step : State → Action → Option State) : State → List Action → Option State
  | state, [] => some state
  | state, action :: rest => (step state action).bind fun next => execute step next rest

theorem Run.invariant {step : State → Action → Option State} {permitted : State → Action → Prop}
    {start state : State} (inv : State → Prop) (initial : inv start)
    (preserved : ∀ before action after, inv before → permitted before action →
      step before action = some after → inv after)
    (run : Run step permitted start state) : inv state := by
  induction run with
  | refl => exact initial
  | tail _ move ih =>
    obtain ⟨action, allowed, stepped⟩ := move
    exact preserved _ _ _ ih allowed stepped

theorem Run.weaken {step : State → Action → Option State} {strong weak : State → Action → Prop}
    {start state : State} (implied : ∀ before action, strong before action → weak before action)
    (run : Run step strong start state) : Run step weak start state := by
  induction run with
  | refl => exact .refl
  | tail _ move ih =>
    obtain ⟨action, allowed, stepped⟩ := move
    exact ih.tail ⟨action, implied _ _ allowed, stepped⟩

theorem execute_run {step : State → Action → Option State} {permitted : State → Action → Prop}
    (allowed : ∀ state action, permitted state action) {start state : State} (actions : List Action)
    (executed : execute step start actions = some state) : Run step permitted start state := by
  induction actions generalizing start with
  | nil =>
    cases executed
    exact .refl
  | cons action rest ih =>
    simp only [execute, Option.bind_eq_some_iff] at executed
    obtain ⟨next, stepped, executed⟩ := executed
    exact .head ⟨action, allowed _ _, stepped⟩ (ih executed)

theorem execute_run_of_mem {step : State → Action → Option State} {permitted : State → Action → Prop}
    {start state : State} (actions : List Action) (allowed : ∀ action ∈ actions, ∀ state, permitted state action)
    (executed : execute step start actions = some state) : Run step permitted start state := by
  induction actions generalizing start with
  | nil =>
    cases executed
    exact .refl
  | cons action rest ih =>
    rw [List.forall_mem_cons] at allowed
    obtain ⟨next, stepped, executed⟩ := Option.bind_eq_some_iff.mp executed
    exact .head ⟨action, allowed.1 _, stepped⟩ (ih allowed.2 executed)

/-- Moves that each spend something of a budget, which no other move fills up again, are at most as many as it holds. -/
theorem execute_countP_le {step : State → Action → Option State} (inv : State → Prop) (own : Action → Bool)
    (budget : State → Nat) (preserved : ∀ before action after, inv before → step before action = some after → inv after)
    (spent : ∀ before action after, inv before → step before action = some after →
      budget after + (if own action then 1 else 0) ≤ budget before)
    {start state : State} (initial : inv start) (actions : List Action)
    (executed : execute step start actions = some state) : actions.countP own + budget state ≤ budget start := by
  induction actions generalizing start with
  | nil =>
    cases executed
    simp
  | cons action rest ih =>
    simp only [execute, Option.bind_eq_some_iff] at executed
    obtain ⟨next, stepped, executed⟩ := executed
    have later := ih (preserved _ _ _ initial stepped) executed
    have now := spent _ _ _ initial stepped
    rw [List.countP_cons]
    omega

section Permitted

variable (step : State → Action → Option State) (permitted : State → Action → Prop)
  [∀ state action, Decidable (permitted state action)]

def executePermitted : State → List Action → Option State
  | state, [] => some state
  | state, action :: rest =>
    if permitted state action then (step state action).bind fun next => executePermitted next rest
    else none

theorem executePermitted_run {start state : State} (actions : List Action)
    (executed : executePermitted step permitted start actions = some state) :
    Run step permitted start state := by
  induction actions generalizing start with
  | nil =>
    cases executed
    exact .refl
  | cons action rest ih =>
    rw [executePermitted] at executed
    split at executed
    · rename_i allowed
      obtain ⟨next, stepped, executed⟩ := Option.bind_eq_some_iff.mp executed
      exact .head ⟨action, allowed, stepped⟩ (ih executed)
    · cases executed

end Permitted

end OtelDatalake.Foundation
