import Mathlib.Logic.Function.Basic
import OtelDatalake.Foundation.Runs

namespace OtelDatalake.Foundation

/-- Tasks over one state that wake each other: what an action does, the notifications that its task sends behind it, and
    the watcher whose wait starts with it. -/
structure Signalling (State Action Channel Watcher : Type) where
  step : State → Action → Option State
  raises : State → Action → List Channel
  registers : State → Action → Option Watcher
  watches : Watcher → Channel

/-- The state, the notifications that are still to be sent, and who was notified since its wait started. -/
structure Signalled (State Channel Watcher : Type) where
  state : State
  pending : List Channel := []
  notified : Watcher → Bool := fun _ => false

inductive SignalMove (Action : Type) where
  | act (action : Action)
  | notify (index : Nat)
  deriving DecidableEq, Repr

namespace Signalling

variable {State Action Channel Watcher : Type} [DecidableEq Channel] [DecidableEq Watcher]
  (system : Signalling State Action Channel Watcher)

def move (board : Signalled State Channel Watcher) : SignalMove Action → Option (Signalled State Channel Watcher)
  | .act action =>
    (system.step board.state action).map fun next =>
      { state := next
        pending := board.pending ++ system.raises board.state action
        notified := match system.registers board.state action with
          | some watcher => Function.update board.notified watcher false
          | none => board.notified }
  | .notify index =>
    board.pending[index]?.map fun channel =>
      { board with
        pending := board.pending.eraseIdx index
        notified := fun watcher => system.watches watcher = channel || board.notified watcher }

/-- `Calm state watcher` says that the watcher has nothing to do. An action keeps a watcher calm or notifies it, and a
    watcher is calm when its wait starts. -/
structure Attentive (valid : State → Prop) (permitted : State → Action → Prop) (Calm : State → Watcher → Prop) :
    Prop where
  keeps : ∀ state action next, valid state → permitted state action → system.step state action = some next →
    valid next
  begins : ∀ state action next watcher, valid state → permitted state action →
    system.step state action = some next → system.registers state action = some watcher → Calm next watcher
  calms : ∀ state action next watcher, valid state → permitted state action → system.step state action = some next →
    Calm state watcher → Calm next watcher ∨ system.watches watcher ∈ system.raises state action

def permits (permitted : State → Action → Prop) (board : Signalled State Channel Watcher) : SignalMove Action → Prop
  | .act action => permitted board.state action
  | .notify _ => True

/-- A watcher is notified, or its notification is still to be sent, or it is calm. -/
def Heard (Calm : State → Watcher → Prop) (board : Signalled State Channel Watcher) (watcher : Watcher) : Prop :=
  board.notified watcher = true ∨ system.watches watcher ∈ board.pending ∨ Calm board.state watcher

variable {system} {valid : State → Prop} {permitted : State → Action → Prop} {Calm : State → Watcher → Prop}
  {board next : Signalled State Channel Watcher}

theorem Attentive.act {action : Action} (attentive : system.Attentive valid permitted Calm) (sound : valid board.state)
    (allowed : permitted board.state action) (moved : system.move board (.act action) = some next)
    (heard : ∀ watcher, system.Heard Calm board watcher) (watcher : Watcher) : system.Heard Calm next watcher := by
  obtain ⟨state, stepped, rfl⟩ := Option.map_eq_some_iff.mp moved
  by_cases starts : system.registers board.state action = some watcher
  · exact .inr (.inr (attentive.begins _ _ _ _ sound allowed stepped starts))
  · rcases heard watcher with notified | pending | calm
    · left
      cases registered : system.registers board.state action with
      | none => exact notified
      | some other =>
        have apart : watcher ≠ other := fun same => starts (same ▸ registered)
        simpa only [Function.update_of_ne apart] using notified
    · exact .inr (.inl (List.mem_append_left _ pending))
    · rcases attentive.calms _ _ _ _ sound allowed stepped calm with calm | raised
      · exact .inr (.inr calm)
      · exact .inr (.inl (List.mem_append_right _ raised))

theorem heard_notify {index : Nat} (moved : system.move board (.notify index) = some next)
    (heard : ∀ watcher, system.Heard Calm board watcher) (watcher : Watcher) : system.Heard Calm next watcher := by
  obtain ⟨channel, found, rfl⟩ := Option.map_eq_some_iff.mp moved
  by_cases addressed : system.watches watcher = channel
  · exact .inl (by simp [addressed])
  · rcases heard watcher with notified | pending | calm
    · exact .inl (by simp [notified])
    · refine .inr (.inl ?_)
      obtain ⟨position, located⟩ := List.mem_iff_getElem?.mp pending
      refine List.mem_eraseIdx_iff_getElem?.mpr ⟨position, ?_, located⟩
      rintro rfl
      exact addressed (Option.some.inj (located.symm.trans found))
    · exact .inr (.inr calm)

/-- No wake-up is lost: in every state that a run reaches, a watcher has been notified, is about to be, or has nothing to
    do. -/
theorem Attentive.heard_of_run {start : State} (attentive : system.Attentive valid permitted Calm)
    (sound : valid start) (calm : ∀ watcher, Calm start watcher)
    (run : Run system.move (permits permitted) { state := start } board) :
    valid board.state ∧ ∀ watcher, system.Heard Calm board watcher := by
  refine run.invariant (fun board => valid board.state ∧ ∀ watcher, system.Heard Calm board watcher)
    ⟨sound, fun watcher => .inr (.inr (calm watcher))⟩ ?_
  intro before move after kept allowed moved
  cases move with
  | act action =>
    refine ⟨?_, attentive.act kept.1 allowed moved kept.2⟩
    obtain ⟨state, stepped, rfl⟩ := Option.map_eq_some_iff.mp moved
    exact attentive.keeps _ _ _ kept.1 allowed stepped
  | notify index =>
    refine ⟨?_, heard_notify moved kept.2⟩
    obtain ⟨channel, _, rfl⟩ := Option.map_eq_some_iff.mp moved
    exact kept.1

end Signalling

end OtelDatalake.Foundation
