import Mathlib.Data.List.Basic

namespace OtelDatalake.Foundation

/-- A computation on a state that may fail; a failure keeps the state that was reached. -/
def Fallible (State Error Value : Type) := State → Except Error Value × State

namespace Fallible

variable {State Error Value Result : Type}

instance : Monad (Fallible State Error) where
  pure value := fun state => (.ok value, state)
  bind first next := fun state =>
    match first state with
    | (.error reason, reached) => (.error reason, reached)
    | (.ok value, reached) => next value reached

def get : Fallible State Error State := fun state => (.ok state, state)

def modify (update : State → State) : Fallible State Error Unit := fun state => (.ok (), update state)

def fail (reason : Error) : Fallible State Error Value := fun state => (.error reason, state)

def ofExcept (result : Except Error Value) : Fallible State Error Value := fun state => (result, state)

def attempt (first : Fallible State Error Value) : Fallible State Error (Except Error Value) :=
  fun state => (.ok (first state).1, (first state).2)

def mapError {Other : Type} (convert : Error → Other) (first : Fallible State Error Value) :
    Fallible State Other Value :=
  fun state => ((first state).1.mapError convert, (first state).2)

def check (found : Option Error) : Fallible State Error Unit :=
  match found with
  | some reason => fail reason
  | none => pure ()

/-- The computation leaves what `view` shows of the state as it is, also when it fails. -/
def Fixes {View : Type} (view : State → View) (first : Fallible State Error Value) : Prop :=
  ∀ state, view (first state).2 = view state

/-- The computation keeps an invariant of the state, also when it fails. -/
def Keeps (invariant : State → Prop) (first : Fallible State Error Value) : Prop :=
  ∀ state, invariant state → invariant (first state).2

/-- From every state that meets `pre`, the computation either returns a value and a state that meet `post`, or fails in
    a state that meets `broken`. -/
def Triple (pre : State → Prop) (first : Fallible State Error Value) (post : Value → State → Prop)
    (broken : State → Prop) : Prop :=
  ∀ state, pre state →
    match first state with
    | (.ok value, reached) => post value reached
    | (.error _, reached) => broken reached

/-- Whatever state it starts from, the computation returns a value that meets `returned` or fails with an error that
    meets `failed`. -/
def Yields (returned : Value → Prop) (failed : Error → Prop) (first : Fallible State Error Value) : Prop :=
  ∀ state,
    match (first state).1 with
    | .ok value => returned value
    | .error reason => failed reason

theorem bind_of_error {first : Fallible State Error Result} {next : Result → Fallible State Error Value}
    {state reached : State} {reason : Error} (failed : first state = (.error reason, reached)) :
    (first >>= next) state = (.error reason, reached) := by
  simp only [Bind.bind, failed]

theorem bind_of_ok {first : Fallible State Error Result} {next : Result → Fallible State Error Value}
    {state reached : State} {value : Result} (passed : first state = (.ok value, reached)) :
    (first >>= next) state = next value reached := by
  simp only [Bind.bind, passed]

theorem bind_of_eq {first second : Fallible State Error Result} {state other : State}
    (same : first state = second other) (next : Result → Fallible State Error Value) :
    (first >>= next) state = (second >>= next) other := by
  simp only [Bind.bind, same]

theorem bind_assoc {Last : Type} (first : Fallible State Error Result) (next : Result → Fallible State Error Value)
    (last : Value → Fallible State Error Last) :
    first >>= next >>= last = first >>= fun value => next value >>= last := by
  funext state
  rcases outcome : first state with ⟨reason | value, reached⟩
  · rw [bind_of_error outcome, bind_of_error (bind_of_error outcome)]
  · rw [bind_of_ok outcome]
    simp only [Bind.bind, outcome]

namespace Yields

variable {returned : Value → Prop} {failed : Error → Prop}

theorem bind_congr {mid : Result → Prop} {broken : Error → Prop} {first : Fallible State Error Result}
    {next other : Result → Fallible State Error Value} (before : Yields mid broken first)
    (same : ∀ value, mid value → next value = other value) : first >>= next = first >>= other := by
  funext state
  have reached := before state
  rcases outcome : first state with ⟨reason | value, stopped⟩
  · rw [bind_of_error outcome, bind_of_error outcome]
  · rw [outcome] at reached
    rw [bind_of_ok outcome, bind_of_ok outcome, same value reached]

theorem pure {value : Value} (good : returned value) :
    Yields returned failed (Pure.pure value : Fallible State Error Value) :=
  fun _ => good

theorem fail {reason : Error} (good : failed reason) :
    Yields returned failed (Fallible.fail reason : Fallible State Error Value) :=
  fun _ => good

theorem get {next : State → Fallible State Error Value} (after : ∀ held, Yields returned failed (next held)) :
    Yields returned failed (Fallible.get >>= next) :=
  fun state => after state state

theorem bind {mid : Result → Prop} {first : Fallible State Error Result} {next : Result → Fallible State Error Value}
    (before : Yields mid failed first) (after : ∀ value, mid value → Yields returned failed (next value)) :
    Yields returned failed (first >>= next) := by
  intro state
  have reached := before state
  simp only [Bind.bind]
  generalize first state = outcome at reached
  obtain ⟨result, stopped⟩ := outcome
  cases result with
  | error reason => exact reached
  | ok value => exact after value reached stopped

theorem mapError {Other : Type} {convert : Error → Other} {others : Other → Prop}
    {first : Fallible State Error Value} (before : Yields returned failed first)
    (converted : ∀ reason, failed reason → others (convert reason)) :
    Yields returned others (Fallible.mapError convert first) := by
  intro state
  have reached := before state
  simp only [Fallible.mapError]
  generalize (first state).1 = outcome at reached
  cases outcome with
  | error reason => exact converted reason reached
  | ok value => exact reached

theorem attempt {first : Fallible State Error Value} {good : Except Error Value → Prop}
    (before : Yields (fun value => good (.ok value)) (fun reason => good (.error reason)) first) :
    Yields good failed (Fallible.attempt first) := by
  intro state
  have reached := before state
  simp only [Fallible.attempt]
  generalize (first state).1 = outcome at reached ⊢
  cases outcome with
  | error reason => exact reached
  | ok value => exact reached

end Yields

namespace Fixes

variable {View : Type} {view : State → View}

theorem pure (value : Value) : Fixes view (Pure.pure value : Fallible State Error Value) := fun _ => rfl

theorem fail (reason : Error) : Fixes view (Fallible.fail reason : Fallible State Error Value) := fun _ => rfl

theorem ofExcept (result : Except Error Value) : Fixes view (Fallible.ofExcept result : Fallible State Error Value) :=
  fun _ => rfl

theorem check (found : Option Error) : Fixes view (Fallible.check found : Fallible State Error Unit) := by
  cases found with
  | none => exact pure ()
  | some reason => exact fail reason

theorem modify {update : State → State} (kept : ∀ state, view (update state) = view state) :
    Fixes view (Fallible.modify update : Fallible State Error Unit) :=
  kept

theorem attempt {first : Fallible State Error Value} (fixed : Fixes view first) :
    Fixes view (Fallible.attempt first) :=
  fixed

theorem get {next : State → Fallible State Error Value} (after : ∀ held, Fixes view (next held)) :
    Fixes view (Fallible.get >>= next) :=
  fun state => after state state

theorem bind {first : Fallible State Error Result} {next : Result → Fallible State Error Value}
    (before : Fixes view first) (after : ∀ value, Fixes view (next value)) : Fixes view (first >>= next) := by
  intro state
  have same := before state
  simp only [Bind.bind]
  generalize first state = outcome at same
  obtain ⟨result, reached⟩ := outcome
  cases result with
  | error reason => exact same
  | ok value => exact (after value reached).trans same

end Fixes

namespace Triple

variable {pre broken : State → Prop} {post : Value → State → Prop}

theorem pure {value : Value} (kept : ∀ state, pre state → post value state) :
    Triple pre (Pure.pure value : Fallible State Error Value) post broken :=
  kept

theorem fail {reason : Error} (kept : ∀ state, pre state → broken state) :
    Triple pre (Fallible.fail reason : Fallible State Error Value) post broken :=
  kept

theorem modify {update : State → State} {post : Unit → State → Prop}
    (kept : ∀ state, pre state → post () (update state)) :
    Triple pre (Fallible.modify update : Fallible State Error Unit) post broken :=
  kept

theorem ofExcept {result : Except Error Value} (passed : ∀ value state, result = .ok value → pre state → post value state)
    (failed : ∀ state, pre state → broken state) :
    Triple pre (Fallible.ofExcept result : Fallible State Error Value) post broken := by
  intro state holds
  cases result with
  | error reason => exact failed state holds
  | ok value => exact passed value state rfl holds

theorem check {found : Option Error} {post : Unit → State → Prop}
    (passed : ∀ state, found = none → pre state → post () state) (failed : ∀ state, pre state → broken state) :
    Triple pre (Fallible.check found : Fallible State Error Unit) post broken := by
  intro state holds
  cases found with
  | none => exact passed state rfl holds
  | some reason => exact failed state holds

theorem get {next : State → Fallible State Error Value}
    (after : ∀ held, Triple (fun state => state = held ∧ pre state) (next held) post broken) :
    Triple pre (Fallible.get >>= next) post broken :=
  fun state holds => after state state ⟨rfl, holds⟩

theorem bind {first : Fallible State Error Result} {next : Result → Fallible State Error Value}
    (mid : Result → State → Prop) (before : Triple pre first mid broken)
    (after : ∀ value, Triple (mid value) (next value) post broken) : Triple pre (first >>= next) post broken := by
  intro state holds
  have reached := before state holds
  simp only [Bind.bind]
  generalize first state = outcome at reached
  obtain ⟨result, stopped⟩ := outcome
  cases result with
  | error reason => exact reached
  | ok value => exact after value stopped reached

theorem attempt {first : Fallible State Error Value} {post : Except Error Value → State → Prop} {stopped : State → Prop}
    (before : Triple pre first (fun value => post (.ok value)) stopped)
    (failed : ∀ reason state, stopped state → post (.error reason) state) :
    Triple pre (Fallible.attempt first) post broken := by
  intro state holds
  have reached := before state holds
  simp only [Fallible.attempt]
  revert reached
  rcases first state with ⟨reason | value, stopped⟩
  · exact failed reason stopped
  · exact fun reached => reached

theorem mapError {Other : Type} {convert : Error → Other} {first : Fallible State Error Value}
    (before : Triple pre first post broken) : Triple pre (Fallible.mapError convert first) post broken := by
  intro state holds
  have reached := before state holds
  simp only [Fallible.mapError]
  revert reached
  rcases first state with ⟨reason | value, stopped⟩
  · exact fun reached => reached
  · exact fun reached => reached

theorem weaken {weaker stopped : State → Prop} {stronger : Value → State → Prop} {first : Fallible State Error Value}
    (triple : Triple weaker first stronger stopped) (before : ∀ state, pre state → weaker state)
    (after : ∀ value state, stronger value state → post value state) (failed : ∀ state, stopped state → broken state) :
    Triple pre first post broken := by
  intro state holds
  have reached := triple state (before state holds)
  revert reached
  rcases first state with ⟨reason | value, stopped⟩
  · exact failed stopped
  · exact after value stopped

theorem seen {View : Type} (view : State → View) {first : Fallible State Error Value}
    (triple : ∀ shown, Triple (fun state => view state = shown ∧ pre state) first post broken) :
    Triple pre first post broken :=
  fun state holds => triple (view state) state ⟨rfl, holds⟩

theorem given {fact : Prop} {first : Fallible State Error Value} (common : ∀ state, pre state → fact)
    (triple : fact → Triple pre first post broken) : Triple pre first post broken :=
  fun state holds => triple (common state holds) state holds

theorem strengthen {weaker : State → Prop} {first : Fallible State Error Value} (triple : Triple weaker first post broken)
    (before : ∀ state, pre state → weaker state) : Triple pre first post broken :=
  fun state holds => triple state (before state holds)

theorem choose {Choice : Type} {options : Choice → State → Prop} {first : Fallible State Error Value}
    (triple : ∀ choice, Triple (options choice) first post broken) :
    Triple (fun state => ∃ choice, options choice state) first post broken :=
  fun state ⟨choice, holds⟩ => triple choice state holds

theorem reaches {always : State → Prop} {first : Fallible State Error Value} (triple : Triple pre first post broken)
    (passed : ∀ value state, post value state → always state) (failed : ∀ state, broken state → always state)
    {state : State} (holds : pre state) : always (first state).2 := by
  have reached := triple state holds
  revert reached
  rcases first state with ⟨reason | value, stopped⟩
  · exact failed stopped
  · exact passed value stopped

theorem fixing {View : Type} {view : State → View} {seen : View} {first : Fallible State Error Value}
    (fixed : Fixes view first) (triple : Triple pre first post broken) :
    Triple (fun state => view state = seen ∧ pre state) first (fun value state => view state = seen ∧ post value state)
      (fun state => view state = seen ∧ broken state) := by
  intro state holds
  have same := (fixed state).trans holds.1
  have reached := triple state holds.2
  revert same reached
  rcases first state with ⟨reason | value, stopped⟩
  · exact fun same reached => ⟨same, reached⟩
  · exact fun same reached => ⟨same, reached⟩

theorem ite {condition : Prop} [Decidable condition] {first second : Fallible State Error Value}
    (yes : condition → Triple pre first post broken) (no : ¬ condition → Triple pre second post broken) :
    Triple pre (if condition then first else second) post broken := by
  by_cases holds : condition
  · rw [if_pos holds]
    exact yes holds
  · rw [if_neg holds]
    exact no holds

end Triple

namespace Keeps

variable {invariant : State → Prop}

theorem pure (value : Value) : Keeps invariant (Pure.pure value : Fallible State Error Value) := fun _ holds => holds

theorem fail (reason : Error) : Keeps invariant (Fallible.fail reason : Fallible State Error Value) :=
  fun _ holds => holds

theorem check (found : Option Error) : Keeps invariant (Fallible.check found : Fallible State Error Unit) := by
  cases found with
  | none => exact pure ()
  | some reason => exact fail reason

theorem modify {update : State → State} (kept : ∀ state, invariant state → invariant (update state)) :
    Keeps invariant (Fallible.modify update : Fallible State Error Unit) :=
  kept

theorem attempt {first : Fallible State Error Value} (kept : Keeps invariant first) :
    Keeps invariant (Fallible.attempt first) :=
  kept

theorem get {next : State → Fallible State Error Value} (after : ∀ held, Keeps invariant (next held)) :
    Keeps invariant (Fallible.get >>= next) :=
  fun state => after state state

theorem bind {first : Fallible State Error Result} {next : Result → Fallible State Error Value}
    (before : Keeps invariant first) (after : ∀ value, Keeps invariant (next value)) :
    Keeps invariant (first >>= next) := by
  intro state holds
  have reached := before state holds
  simp only [Bind.bind]
  generalize first state = outcome at reached
  obtain ⟨result, stopped⟩ := outcome
  cases result with
  | error reason => exact reached
  | ok value => exact after value stopped reached

theorem ite {condition : Prop} [Decidable condition] {first second : Fallible State Error Value}
    (yes : Keeps invariant first) (no : Keeps invariant second) :
    Keeps invariant (if condition then first else second) := by
  split
  · exact yes
  · exact no

theorem of_fixes {View : Type} {view : State → View} {first : Fallible State Error Value} (fixed : Fixes view first)
    (depends : ∀ state reached, view reached = view state → invariant state → invariant reached) :
    Keeps invariant first :=
  fun state => depends state _ (fixed state)

theorem triple {first : Fallible State Error Value} (kept : Keeps invariant first) :
    Triple invariant first (fun _ => invariant) invariant := by
  intro state holds
  have reached := kept state holds
  revert reached
  rcases first state with ⟨reason | value, stopped⟩
  · exact fun reached => reached
  · exact fun reached => reached

end Keeps

end Fallible

end OtelDatalake.Foundation
