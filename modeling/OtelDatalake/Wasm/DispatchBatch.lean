import OtelDatalake.Foundation.LittleEndian
import OtelDatalake.Foundation.Runs

open OtelDatalake.Foundation

namespace OtelDatalake.Wasm.DispatchBatch

/-- The channel of a worker: what the worker has taken out of it, and what is still in it. -/
structure WorkerChannel (Batch : Type) where
  capacity : Nat
  taken : List Batch
  queue : List Batch
  closed : Bool
  deriving DecidableEq, Repr

namespace WorkerChannel

variable {Batch : Type}

def history (channel : WorkerChannel Batch) : List Batch := channel.taken ++ channel.queue

def backedUp (channel : WorkerChannel Batch) : Bool :=
  !channel.closed && decide (channel.capacity ≤ channel.queue.length)

def drain (channel : WorkerChannel Batch) : Option (WorkerChannel Batch) :=
  match channel.queue with
  | [] => none
  | batch :: rest => some { channel with taken := channel.taken ++ [batch], queue := rest }

def close (channel : WorkerChannel Batch) : WorkerChannel Batch := { channel with closed := true }

def push (channel : WorkerChannel Batch) (batch : Batch) : WorkerChannel Batch :=
  { channel with queue := channel.queue ++ [batch] }

end WorkerChannel

inductive TrySendError where
  | full
  | closed
  deriving DecidableEq, Repr

def WorkerChannel.trySend {Batch : Type} (channel : WorkerChannel Batch) (batch : Batch) :
    Except TrySendError (WorkerChannel Batch) :=
  if channel.closed then .error .closed
  else if channel.capacity ≤ channel.queue.length then .error .full
  else .ok (channel.push batch)

/-- Where a call of `dispatch_batch` stands: in one of its two loops, at one of its two awaits, or at its end. -/
inductive CallPhase where
  | scanning (offset : Nat) (firstFullIdx : Option Nat)
  | sending (fullIdx : Nat)
  | rescanning (fullIdx retryOffset : Nat) (firstFullIdx : Option Nat)
  | sendingSurvivor (survivorIdx : Nat)
  | returned (routed : Bool)
  deriving DecidableEq, Repr

structure Call (Batch : Type) where
  batch : Batch
  concurrency : Nat
  nextWorker : Nat
  channels : List (WorkerChannel Batch)
  phase : CallPhase
  deriving DecidableEq, Repr

/-- A step of the call itself, or of a worker during it. -/
inductive CallMove where
  | advance
  | drain (index : Nat)
  | close (index : Nat)
  deriving DecidableEq, Repr

/-- The call as `run` makes it, with the number of the channels as `concurrency`. -/
def dispatchBatch {Batch : Type} (batch : Batch) (workerTxs : List (WorkerChannel Batch)) (nextWorker : Nat) :
    Call Batch where
  batch := batch
  concurrency := workerTxs.length
  nextWorker := nextWorker
  channels := workerTxs
  phase := .scanning 0 none

namespace Call

variable {Batch : Type}

def enter (call : Call Batch) (phase : CallPhase) : Call Batch := { call with phase := phase }

def deliver (call : Call Batch) (index : Nat) (channel : WorkerChannel Batch) : Call Batch :=
  { call with
    nextWorker := saturatingAdd usizeMax index 1 % call.concurrency
    channels := call.channels.set index channel
    phase := .returned true }

def tryWorker (call : Call Batch) (index : Nat) (firstFullIdx : Option Nat) (next : Option Nat → CallPhase) :
    Call Batch :=
  match call.channels[index]? with
  | none => call.enter (next firstFullIdx)
  | some channel =>
    match channel.trySend call.batch with
    | .ok channel => call.deliver index channel
    | .error .full => call.enter (next (firstFullIdx.or (some index)))
    | .error .closed => call.enter (next firstFullIdx)

def awaitWorker (call : Call Batch) (index : Nat) (failed : CallPhase) : Option (Call Batch) :=
  match call.channels[index]? with
  | none => some (call.enter (.returned false))
  | some channel =>
    match channel.trySend call.batch with
    | .ok channel => some (call.deliver index channel)
    | .error .full => none
    | .error .closed => some (call.enter failed)

def scanIdx (call : Call Batch) (offset : Nat) : Nat := saturatingAdd usizeMax call.nextWorker offset % call.concurrency

def retryIdx (call : Call Batch) (fullIdx retryOffset : Nat) : Nat :=
  saturatingAdd usizeMax fullIdx retryOffset % call.concurrency

def advance (call : Call Batch) : Option (Call Batch) :=
  match call.phase with
  | .scanning offset firstFullIdx =>
    if offset < call.concurrency then
      some (call.tryWorker (call.scanIdx offset) firstFullIdx (.scanning (offset + 1)))
    else
      match firstFullIdx with
      | none => some (call.enter (.returned false))
      | some fullIdx => some (call.enter (.sending fullIdx))
  | .sending fullIdx => call.awaitWorker fullIdx (.rescanning fullIdx 1 none)
  | .rescanning fullIdx retryOffset firstFullIdx =>
    if retryOffset < call.concurrency then
      some (call.tryWorker (call.retryIdx fullIdx retryOffset) firstFullIdx (.rescanning fullIdx (retryOffset + 1)))
    else
      match firstFullIdx with
      | none => some (call.enter (.returned false))
      | some survivorIdx => some (call.enter (.sendingSurvivor survivorIdx))
  | .sendingSurvivor survivorIdx => call.awaitWorker survivorIdx (.returned false)
  | .returned _ => none

def step (call : Call Batch) : CallMove → Option (Call Batch)
  | .advance => call.advance
  | .drain index =>
    (call.channels[index]?).bind fun channel =>
      channel.drain.map fun channel => { call with channels := call.channels.set index channel }
  | .close index =>
    (call.channels[index]?).map fun channel => { call with channels := call.channels.set index channel.close }

def historyOf (call : Call Batch) (index : Nat) : List Batch := ((call.channels[index]?).map (·.history)).getD []

end Call

/-- Any interleaving of the steps of the call with those of the workers. -/
abbrev Reaches {Batch : Type} (start call : Call Batch) : Prop := Run Call.step (fun _ _ => True) start call

/-- The batch is in exactly one channel if the call has returned `true`, and else in none; and every channel is closed
    if it has returned `false`. -/
structure Settles {Batch : Type} (start call : Call Batch) : Prop where
  placed : call.phase = .returned true → ∃ index < start.channels.length, ∀ other,
    call.historyOf other = if other = index then start.historyOf other ++ [start.batch] else start.historyOf other
  withheld : call.phase ≠ .returned true → ∀ other, call.historyOf other = start.historyOf other
  stopped : call.phase = .returned false → ∀ channel ∈ call.channels, channel.closed = true

end OtelDatalake.Wasm.DispatchBatch
