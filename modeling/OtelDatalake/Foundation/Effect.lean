import Mathlib.Data.List.Basic

namespace OtelDatalake.Foundation

section Operations

variable {Store Op : Type}

/-- A list of operations on a store, done one after the other. -/
inductive Operate (operation : Store → Op → Store → Prop) : Store → List Op → Store → Prop where
  | none (store : Store) : Operate operation store [] store
  | cons {store next last : Store} {op : Op} {rest : List Op} (first : operation store op next)
      (later : Operate operation next rest last) : Operate operation store (op :: rest) last

variable {operation : Store → Op → Store → Prop} {store next last : Store}

theorem Operate.single {op : Op} (first : operation store op next) : Operate operation store [op] next :=
  .cons first (.none _)

theorem Operate.append {ops more : List Op} (first : Operate operation store ops next)
    (second : Operate operation next more last) : Operate operation store (ops ++ more) last := by
  induction first with
  | none => exact second
  | cons op _ ih => exact .cons op (ih second)

theorem Operate.invariant {ops : List Op} (inv : Store → Prop) (start : inv store)
    (preserved : ∀ before op after, inv before → operation before op after → inv after)
    (operated : Operate operation store ops last) : inv last := by
  induction operated with
  | none => exact start
  | cons op _ ih => exact ih (preserved _ _ _ start op)

/-- The operations that an interruption leaves done: the first `count` ones and perhaps a part of the next. -/
def interrupt (part : Op → Option Op) (count : Nat) (ops : List Op) : List Op :=
  ops.take count ++ (ops[count]?.bind part).toList

/-- If parts of operations are operations, then so is every interrupted list of them. -/
theorem Operate.interrupt {part : Op → Option Op}
    (parted : ∀ before op after piece, operation before op after → part op = some piece →
      ∃ between, operation before piece between)
    {ops : List Op} (operated : Operate operation store ops last) (count : Nat) :
    ∃ reached, Operate operation store (Foundation.interrupt part count ops) reached := by
  induction operated generalizing count with
  | none store => exact ⟨store, by simpa [Foundation.interrupt] using Operate.none store⟩
  | @cons store next last op rest first _ ih =>
    cases count with
    | zero =>
      cases piece : part op with
      | none => exact ⟨store, by simpa [Foundation.interrupt, piece] using Operate.none store⟩
      | some done =>
        obtain ⟨between, reached⟩ := parted _ _ _ _ first piece
        exact ⟨between, by simpa [Foundation.interrupt, piece] using Operate.single reached⟩
    | succ count =>
      obtain ⟨reached, rest⟩ := ih count
      exact ⟨reached, by simpa [Foundation.interrupt] using Operate.cons first rest⟩

end Operations

/-- A computation on a state that may fail. The operations on a store that it does are listed either way. -/
def Effect (State Op Value : Type) := State → Except String Value × State × List Op

namespace Effect

variable {State Store Op Value Result : Type}

instance : Monad (Effect State Op) where
  pure value := fun state => (.ok value, state, [])
  bind first next := fun state =>
    match first state with
    | (.error reason, reached, ops) => (.error reason, reached, ops)
    | (.ok value, reached, ops) =>
      ((next value reached).1, (next value reached).2.1, ops ++ (next value reached).2.2)

def get : Effect State Op State := fun state => (.ok state, state, [])

def set (state : State) : Effect State Op Unit := fun _ => (.ok (), state, [])

def emit (ops : List Op) : Effect State Op Unit := fun state => (.ok (), state, ops)

def fail (reason : String) : Effect State Op Value := fun state => (.error reason, state, [])

def check (fault : Option String) (context : String → String) : Effect State Op Unit :=
  match fault with
  | none => pure ()
  | some reason => fail (context reason)

theorem bind_ok {first : Effect State Op Result} {next : Result → Effect State Op Value} {state : State} {value : Value}
    (ok : ((first >>= next) state).1 = .ok value) : ∃ middle reached, (next middle reached).1 = .ok value := by
  simp only [Bind.bind] at ok
  split at ok
  · cases ok
  · rename_i middle reached ops _
    exact ⟨middle, reached, ok⟩

/-- From every state and store that meet `pre`, the effect's operations lead to a store that meets `post`. -/
def Triple (operation : Store → Op → Store → Prop) (pre : State → Store → Prop)
    (effect : Effect State Op Value) (post : Except String Value → State → Store → Prop) : Prop :=
  ∀ state store, pre state store → ∃ reached, Operate operation store (effect state).2.2 reached ∧
    post (effect state).1 (effect state).2.1 reached

namespace Triple

variable {operation : Store → Op → Store → Prop} {pre : State → Store → Prop}
  {post : Except String Value → State → Store → Prop}

theorem pure {value : Value} (kept : ∀ state store, pre state store → post (.ok value) state store) :
    Triple operation pre (Pure.pure value) post :=
  fun state store holds => ⟨store, .none store, kept state store holds⟩

theorem weaken {weaker : State → Store → Prop} {effect : Effect State Op Value}
    (implied : ∀ state store, pre state store → weaker state store)
    (triple : Triple operation weaker effect post) : Triple operation pre effect post :=
  fun state store holds => triple state store (implied state store holds)

theorem bind {first : Effect State Op Result} {next : Result → Effect State Op Value}
    {mid : Except String Result → State → Store → Prop} (before : Triple operation pre first mid)
    (failed : ∀ reason state store, mid (.error reason) state store → post (.error reason) state store)
    (after : ∀ value, Triple operation (mid (.ok value)) (next value) post) :
    Triple operation pre (first >>= next) post := by
  intro state store holds
  obtain ⟨between, operated, reached⟩ := before state store holds
  simp only [Bind.bind]
  generalize first state = outcome at operated reached
  obtain ⟨result, stopped, ops⟩ := outcome
  cases result with
  | error reason => exact ⟨between, operated, failed reason stopped between reached⟩
  | ok value =>
    obtain ⟨last, more, ended⟩ := after value stopped between reached
    exact ⟨last, operated.append more, ended⟩

end Triple

end Effect

end OtelDatalake.Foundation
