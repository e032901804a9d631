import OtelDatalake.Buffer.Config
import OtelDatalake.Foundation.Interleaving

open OtelDatalake.Foundation

namespace OtelDatalake.Buffer

/-- The readiness atomics of `SignalRingState`. -/
structure ReadinessAtomics where
  blockedSenders : Nat := 0
  blockedSinceUnixMs : Nat := 0
  firstTransientFailureUnixMs : Nat := 0
  deriving DecidableEq, Repr

/-- What `is_ready` reads. -/
structure ReadinessView where
  fatalReason : Option String := none
  readinessStallSec : Nat
  maxTransientDurationSec : Nat
  rings : List ReadinessAtomics

namespace ReadinessView

def saturatingMul (left right : Nat) : Nat := min (left * right) u64Max

def stallThresholdMs (view : ReadinessView) : Nat := saturatingMul view.readinessStallSec 1000

def transientThresholdMs (view : ReadinessView) : Nat := saturatingMul view.maxTransientDurationSec 1000

def ringReady (view : ReadinessView) (nowMs : Nat) (ring : ReadinessAtomics) : Bool :=
  !(view.stallThresholdMs > 0 && ring.blockedSenders > 0 &&
      (ring.blockedSinceUnixMs > 0 && nowMs - ring.blockedSinceUnixMs ≥ view.stallThresholdMs)) &&
    !(view.transientThresholdMs > 0 &&
      (ring.firstTransientFailureUnixMs > 0 &&
        nowMs - ring.firstTransientFailureUnixMs ≥ view.transientThresholdMs))

def isReady (view : ReadinessView) (nowMs : Nat) : Bool :=
  view.fatalReason.isNone && view.rings.all (view.ringReady nowMs)

end ReadinessView

/-- Where a guard stands between two atomic operations: `ready` is in none of its methods, every other phase
    names the operation that comes next. -/
inductive GuardPhase where
  | ready
  | blockedStore
  | admittedClear
  | admittedStore
  | admittedRecheck
  | admittedReset
  | dropClear
  | dropped
  deriving DecidableEq, Repr

structure BlockedSendGuard where
  active : Bool := false
  phase : GuardPhase := .ready
  deriving DecidableEq, Repr

/-- A guard in no method is called, or a guard inside one makes its next atomic operation. `nowMs` is what
    `current_unix_ms` returned. -/
inductive GuardChoice where
  | markBlocked
  | markAdmitted
  | drop
  | proceed (nowMs : Nat)
  deriving DecidableEq, Repr

namespace BlockedSendGuard

def isFresh (guard : BlockedSendGuard) : Bool := guard = {}

def markBlocked (ring : ReadinessAtomics) (guard : BlockedSendGuard) : ReadinessAtomics × BlockedSendGuard :=
  if !guard.active then
    let prev := ring.blockedSenders
    let ring := { ring with blockedSenders := prev + 1 }
    if prev = 0 then (ring, { guard with phase := .blockedStore })
    else (ring, { guard with active := true })
  else (ring, guard)

def markAdmitted (ring : ReadinessAtomics) (guard : BlockedSendGuard) : ReadinessAtomics × BlockedSendGuard :=
  if guard.active then
    let prev := ring.blockedSenders
    let ring := { ring with blockedSenders := prev - 1 }
    if prev ≤ 1 then (ring, { guard with phase := .admittedClear })
    else (ring, { guard with phase := .admittedStore })
  else (ring, guard)

def drop (ring : ReadinessAtomics) (guard : BlockedSendGuard) : ReadinessAtomics × BlockedSendGuard :=
  if guard.active then
    let prev := ring.blockedSenders
    let ring := { ring with blockedSenders := prev - 1 }
    if prev ≤ 1 then (ring, { guard with phase := .dropClear })
    else (ring, { active := false, phase := .dropped })
  else (ring, { guard with phase := .dropped })

def proceed (nowMs : Nat) (ring : ReadinessAtomics) (guard : BlockedSendGuard) :
    Option (ReadinessAtomics × BlockedSendGuard) :=
  match guard.phase with
  | .ready | .dropped => none
  | .blockedStore =>
    some ({ ring with blockedSinceUnixMs := max nowMs 1 }, { active := true, phase := .ready })
  | .admittedClear | .admittedReset =>
    some ({ ring with blockedSinceUnixMs := 0 }, { active := false, phase := .ready })
  | .admittedStore =>
    some ({ ring with blockedSinceUnixMs := max nowMs 1 }, { guard with phase := .admittedRecheck })
  | .admittedRecheck =>
    if ring.blockedSenders = 0 then some (ring, { guard with phase := .admittedReset })
    else some (ring, { active := false, phase := .ready })
  | .dropClear =>
    some ({ ring with blockedSinceUnixMs := 0 }, { active := false, phase := .dropped })

def act (ring : ReadinessAtomics) (guard : BlockedSendGuard) (choice : GuardChoice) :
    Option (ReadinessAtomics × BlockedSendGuard) :=
  match choice with
  | .markBlocked => if guard.phase = .ready then some (guard.markBlocked ring) else none
  | .markAdmitted => if guard.phase = .ready then some (guard.markAdmitted ring) else none
  | .drop => if guard.phase = .ready then some (guard.drop ring) else none
  | .proceed nowMs => guard.proceed nowMs ring

def isIdle (guard : BlockedSendGuard) : Bool := guard.phase = .ready || guard.phase = .dropped

def storesTime (guard : BlockedSendGuard) : Bool := guard.phase = .blockedStore || guard.phase = .admittedStore

def storesZero (guard : BlockedSendGuard) : Bool :=
  guard.phase = .admittedClear || guard.phase = .admittedReset || guard.phase = .dropClear

/-- What the guard has added to `blocked_senders` and not yet taken back. -/
def registered (guard : BlockedSendGuard) : Nat :=
  match guard.phase with
  | .ready => if guard.active then 1 else 0
  | .blockedStore => 1
  | _ => 0

end BlockedSendGuard

/-- The guards of one signal over its atomics. -/
abbrev BlockedSenders := Interleaved ReadinessAtomics BlockedSendGuard

namespace BlockedSenders

abbrev GuardTurn := Turn BlockedSendGuard GuardChoice

def step : BlockedSenders → GuardTurn → Option BlockedSenders :=
  Interleaved.step BlockedSendGuard.isFresh BlockedSendGuard.act

def initial : BlockedSenders := ⟨{}, []⟩

def Quiet (system : BlockedSenders) : Prop := ∀ guard ∈ system.threads, guard.isIdle = true

/-- The count is positive exactly when the timestamp is set. -/
def Signalled (ring : ReadinessAtomics) : Prop := 0 < ring.blockedSenders ↔ ring.blockedSinceUnixMs ≠ 0

/-- Zero is stored only while no sender is counted, or while another guard has still to store its time. -/
def timely (system : BlockedSenders) : GuardTurn → Prop
  | .start _ => True
  | .act index _ => ∀ guard ∈ system.threads[index]?, guard.storesZero = true →
      system.shared.blockedSenders = 0 ∨ ∃ other ∈ system.threads, other.storesTime = true

instance : ∀ (system : BlockedSenders) (turn : GuardTurn), Decidable (timely system turn)
  | _, .start _ => inferInstanceAs (Decidable True)
  | system, .act index _ =>
    inferInstanceAs (Decidable (∀ guard ∈ system.threads[index]?, guard.storesZero = true →
      system.shared.blockedSenders = 0 ∨ ∃ other ∈ system.threads, other.storesTime = true))

instance (system : BlockedSenders) : Decidable (Quiet system) :=
  inferInstanceAs (Decidable (∀ guard ∈ system.threads, guard.isIdle = true))

instance (ring : ReadinessAtomics) : Decidable (Signalled ring) :=
  inferInstanceAs (Decidable (0 < ring.blockedSenders ↔ ring.blockedSinceUnixMs ≠ 0))

end BlockedSenders

end OtelDatalake.Buffer
