import Mathlib.Data.List.Rotate
import OtelDatalake.Buffer.Numbering
import OtelDatalake.Buffer.RingInvariant

open Std OtelDatalake.Foundation

namespace OtelDatalake.Buffer

variable {Batch : Type} [RecordBatch Batch]

def scopeSignals : Option SignalKind → List SignalKind
  | some signal => [signal]
  | none => allSignals

/-- `decrement_senders` of a dropped sender: the signals it has still to count down, and the ring of which it was the
    last sender and which it has still to close. -/
structure ClosingSender where
  remaining : List SignalKind
  locking : Option SignalKind := none

/-- `next_lease`: between its two looks at the fatal error, in its pass over the rings, waiting for a notification, or
    done. -/
inductive ReceiverPhase (Batch : Type) [RecordBatch Batch] where
  | idle
  | starting (now : Instant)
  | scanning (now : Instant) (left : List SignalKind) (allDrained : Bool) (deadline : Option Instant)
  | waiting (deadline : Option Instant)
  | returned (result : Except String (Option (Lease Batch)))

/-- The rings of a buffer with its senders and one of its receivers. -/
structure StreamWorld (Batch : Type) [RecordBatch Batch] where
  rings : SignalKind → RingWorld Batch
  activeSenders : SignalKind → Nat
  senders : List (Option SignalKind)
  closing : List ClosingSender := []
  fatalError : Option String := none
  receiver : ReceiverPhase Batch := .idle
  rrCursor : Nat := 0

inductive StreamAction (Batch : Type) [RecordBatch Batch] where
  | ring (signal : SignalKind) (action : RingAction Batch)
  | cloneSender (index : Nat)
  | dropSender (index : Nat)
  | countDown (index : Nat)
  | closeRing (index : Nat)
  | nextLease (now : Instant)
  | enable
  | tryPop

namespace StreamWorld

/-- The rings in the order in which `next_lease` looks at them. -/
def scanOrder (scope : Option SignalKind) (rrCursor : Nat) : List SignalKind :=
  match scope with
  | some signal => [signal]
  | none => allSignals.rotate rrCursor

def setRing (world : StreamWorld Batch) (signal : SignalKind) (ring : RingWorld Batch) : StreamWorld Batch :=
  { world with
    rings := Function.update world.rings signal ring
    fatalError := world.fatalError.or ring.state.ring.fatalError }

def stepRing (inner : BufferInner) (world : StreamWorld Batch) (signal : SignalKind) (action : RingAction Batch) :
    Option (StreamWorld Batch) :=
  ((world.rings signal).step inner signal action).map (world.setRing signal)

def checkFatal (world : StreamWorld Batch) (next : ReceiverPhase Batch) : StreamWorld Batch :=
  match world.fatalError with
  | some reason => { world with receiver := .returned (.error reason) }
  | none => { world with receiver := next }

def earliest : Option Instant → Option Instant → Option Instant
  | some left, some right => some (min left right)
  | left, right => left.or right

def tryPop (inner : BufferInner) (scope : Option SignalKind) (world : StreamWorld Batch) (now : Instant)
    (signal : SignalKind) (left : List SignalKind) (allDrained : Bool) (deadline : Option Instant) :
    Option (StreamWorld Batch) :=
  let popped := tryPopSignalLease inner signal (world.rings signal).state now
  (world.stepRing inner signal (.pop now)).map fun next =>
    match popped.2.1 with
    | some lease =>
      { next with
        receiver := .returned (.ok (some lease))
        rrCursor := if scope.isNone then (signal.asU8.toNat + 1) % 3 else world.rrCursor }
    | none =>
      { next with
        receiver := .scanning now left (allDrained && popped.2.2.2) (earliest deadline popped.2.2.1) }

def step (inner : BufferInner) (scope : Option SignalKind) (world : StreamWorld Batch) :
    StreamAction Batch → Option (StreamWorld Batch)
  | .ring _ .closeSenders => none
  | .ring signal action => world.stepRing inner signal action
  | .cloneSender index =>
    world.senders[index]?.map fun sender =>
      { world with
        senders := world.senders ++ [sender]
        activeSenders := fun signal => world.activeSenders signal + (scopeSignals sender).count signal }
  | .dropSender index =>
    world.senders[index]?.map fun sender =>
      { world with
        senders := world.senders.eraseIdx index
        closing := world.closing ++ [{ remaining := scopeSignals sender }] }
  | .countDown index =>
    match world.closing[index]? with
    | some { remaining := signal :: rest, locking := none } =>
      some { world with
        activeSenders := Function.update world.activeSenders signal (world.activeSenders signal - 1)
        closing := world.closing.set index
          { remaining := rest, locking := if world.activeSenders signal = 1 then some signal else none } }
    | _ => none
  | .closeRing index =>
    match world.closing[index]? with
    | some { remaining := rest, locking := some signal } =>
      { world with closing := world.closing.set index { remaining := rest } }.stepRing inner signal .closeSenders
    | _ => none
  | .nextLease now =>
    match world.receiver with
    | .starting _ | .scanning .. => none
    | _ => some (world.checkFatal (.starting now))
  | .enable =>
    match world.receiver with
    | .starting now => some (world.checkFatal (.scanning now (scanOrder scope world.rrCursor) true none))
    | _ => none
  | .tryPop =>
    match world.receiver with
    | .scanning now (signal :: left) allDrained deadline =>
      world.tryPop inner scope now signal left allDrained deadline
    | .scanning _ [] allDrained deadline =>
      some { world with receiver := if allDrained then .returned (.ok none) else .waiting deadline }
    | _ => none

def opened (states : SignalKind → SignalRingState Batch) (senders : List (Option SignalKind)) :
    StreamWorld Batch :=
  { rings := fun signal => { state := states signal }
    activeSenders := fun signal => (senders.flatMap scopeSignals).count signal
    senders := senders }

end StreamWorld

end OtelDatalake.Buffer
