import OtelDatalake.Foundation.Interleaving
import OtelDatalake.Wasm.Config

open OtelDatalake.Foundation

namespace OtelDatalake.Wasm

/-- `DispatcherConfig`, and what the workers have of the transformer's configuration and of its dead-letter outputs. -/
structure DispatcherSetting where
  concurrency : Nat
  workerChannelCapacity : Nat
  onError : OnErrorPolicy
  onReject : OnRejectPolicy
  allowUnmaskedPassthrough : Bool
  rerouteError : Bool
  rerouteReject : Bool
  deriving DecidableEq, Repr

inductive Destination where
  | output
  | rerouteError
  | rerouteReject
  deriving DecidableEq, Repr

/-- What became of a batch in a guest; `Rejected` and `Errored` carry the batch that was executed. -/
inductive WorkerOutcome (Batch : Type) where
  | emitted (batches : List Batch)
  | discarded
  | rejected (reason : String)
  | errored (reason : String)
  deriving DecidableEq, Repr

section Handling

variable {Batch : Type} (setting : DispatcherSetting) (accepts : Destination → Bool)

/-- What is sent for a batch, and whether the channels it needed are open. -/
structure Handled (Batch : Type) where
  sends : List (Destination × Batch)
  healthy : Bool
  deriving DecidableEq, Repr

def sendTo (destination : Destination) (batch : Batch) : Handled Batch :=
  if accepts destination then ⟨[(destination, batch)], true⟩ else ⟨[], false⟩

def handleRejected (original : Batch) : Handled Batch :=
  match setting.onReject with
  | .reroute => if setting.rerouteReject then sendTo accepts .rerouteReject original else ⟨[], true⟩
  | .drop => ⟨[], true⟩

def handleErrored (original : Batch) : Handled Batch :=
  match setting.onError with
  | .reroute => if setting.rerouteError then sendTo accepts .rerouteError original else ⟨[], true⟩
  | .passthrough => if setting.allowUnmaskedPassthrough then sendTo accepts .output original else ⟨[], true⟩
  | .drop => ⟨[], true⟩

def sendEmitted (batches : List Batch) : Handled Batch :=
  if accepts .output || batches.isEmpty then ⟨batches.map fun batch => (.output, batch), true⟩ else ⟨[], false⟩

def handleWorkerOutcome (outcome : WorkerOutcome Batch) (original : Batch) : Handled Batch :=
  match outcome with
  | .emitted batches => sendEmitted accepts batches
  | .discarded => ⟨[], true⟩
  | .rejected _ => handleRejected setting accepts original
  | .errored _ => handleErrored setting accepts original

def handleClosed (unprocessed : Batch) : Handled Batch :=
  if setting.rerouteError then sendTo accepts .rerouteError unprocessed else ⟨[], true⟩

end Handling

/-- Where the task of a worker stands; it leaves between its last look at the channel and the drop of its receiver. -/
inductive WorkerPhase (Batch : Type) where
  | initializing
  | waiting
  | executing (batch : Batch)
  | drainingErrored (reason : String)
  | drainingClosed
  | leaving
  | ended
  deriving DecidableEq, Repr

/-- A worker with its channel and with the status that it has reported of its initialisation. -/
structure Worker (Batch : Type) where
  phase : WorkerPhase Batch
  queue : List Batch
  initStatus : Option (Except String Unit)

/-- A batch that was disposed of, what became of it in the worker, and what was sent for it. -/
structure Disposal (Batch : Type) where
  batch : Batch
  outcome : WorkerOutcome Batch
  sends : List (Destination × Batch)

/-- The moves of a worker: the replies of its blocking tasks, or that one has panicked, and those of the channels that it
    sends to. -/
inductive WorkerMove (Batch : Type) where
  | initialized (status : Except String Unit)
  | receive
  | executed (result : Except String (WorkerOutcome Batch)) (rejuvenated : Except String Unit)
      (accepts : Destination → Bool)
  | taskFailed
  | drain (accepts : Destination → Bool)
  | dropReceiver

namespace Worker

variable {Batch : Type} (setting : DispatcherSetting)

def spawned : Worker Batch := ⟨.initializing, [], none⟩

/-- Where a worker goes on from a batch whose channels were open or not. -/
def afterBatch (healthy : Bool) : WorkerPhase Batch := if healthy then .waiting else .drainingClosed

def act (sending : Bool) (worker : Worker Batch) (move : WorkerMove Batch) :
    Option (Worker Batch × List (Disposal Batch)) :=
  match worker.phase, move with
  | .initializing, .initialized (.ok ()) => some ({ worker with phase := .waiting, initStatus := some (.ok ()) }, [])
  | .initializing, .initialized (.error reason) =>
    some ({ worker with phase := .leaving, initStatus := some (.error reason) }, [])
  | .waiting, .receive =>
    match worker.queue with
    | batch :: rest => some ({ worker with phase := .executing batch, queue := rest }, [])
    | [] => if sending then none else some ({ worker with phase := .ended }, [])
  | .executing batch, .executed (.ok outcome) _ accepts =>
    let handled := handleWorkerOutcome setting accepts outcome batch
    some ({ worker with phase := afterBatch handled.healthy }, [⟨batch, outcome, handled.sends⟩])
  | .executing batch, .executed (.error reason) rejuvenated accepts =>
    let handled := handleErrored setting accepts batch
    let phase := match rejuvenated with
      | .error rejuvErr => .drainingErrored ("Worker terminated due to rejuvenation failure: " ++ rejuvErr)
      | .ok () => afterBatch handled.healthy
    some ({ worker with phase := phase }, [⟨batch, .errored reason, handled.sends⟩])
  -- The batch is gone with the blocking task, and the channel is not drained.
  | .executing _, .taskFailed => some ({ worker with phase := .leaving }, [])
  | .drainingErrored reason, .drain accepts =>
    match worker.queue with
    | batch :: rest =>
      some ({ worker with queue := rest }, [⟨batch, .errored reason, (handleErrored setting accepts batch).sends⟩])
    | [] => some ({ worker with phase := .leaving }, [])
  | .drainingClosed, .drain accepts =>
    match worker.queue with
    | batch :: rest =>
      some ({ worker with queue := rest },
        [⟨batch, .errored "downstream output closed", (handleClosed setting accepts batch).sends⟩])
    | [] => some ({ worker with phase := .leaving }, [])
  | .leaving, .dropReceiver => some ({ worker with phase := .ended }, [])
  | _, _ => none

def holding (worker : Worker Batch) : List Batch :=
  match worker.phase with
  | .executing batch => batch :: worker.queue
  | _ => worker.queue

def closed (worker : Worker Batch) : Bool :=
  match worker.phase with
  | .ended => true
  | _ => false

def push (worker : Worker Batch) (batch : Batch) : Worker Batch := { worker with queue := worker.queue ++ [batch] }

end Worker

inductive Channel where
  | open
  | full
  | closed
  deriving DecidableEq, Repr

inductive DispatcherPhase (Batch : Type) where
  | awaitingInit (index successfulWorkers : Nat) (lastErr : String)
  | receiving
  | scanning (batch : Batch) (offset : Nat) (firstFullIdx : Option Nat)
  | sending (batch : Batch) (fullIdx : Nat)
  | rescanning (batch : Batch) (fullIdx retryOffset : Nat) (firstFullIdx : Option Nat)
  | sendingSurvivor (batch : Batch) (survivorIdx : Nat)
  | draining (result : Except String Unit)
  | returned (result : Except String Unit)

structure Dispatcher (Batch : Type) where
  phase : DispatcherPhase Batch
  nextWorker : Nat
  workers : List (Worker Batch)
  received : List Batch
  disposed : List (Disposal Batch)
  abandoned : List Batch

/-- The moves of the dispatcher with its input, and of its workers. -/
inductive DispatcherMove (Batch : Type) where
  | input (batch : Option Batch)
  | advance
  | worker (index : Nat) (move : WorkerMove Batch)

namespace Dispatcher

variable {Batch : Type} (setting : DispatcherSetting)

def cap : Nat := max setting.workerChannelCapacity 1

def spawnWorkers : Dispatcher Batch where
  phase := .awaitingInit 0 0 ""
  nextWorker := 0
  workers := List.replicate (max setting.concurrency 1) Worker.spawned
  received := []
  disposed := []
  abandoned := []

def channel (worker : Worker Batch) : Channel :=
  if worker.closed then .closed else if cap setting ≤ worker.queue.length then .full else .open

/-- The sender of each worker is held until the loop of the dispatcher ends. -/
def holdsSenders (dispatcher : Dispatcher Batch) : Bool :=
  match dispatcher.phase with
  | .draining _ | .returned _ => false
  | _ => true

def deliver (dispatcher : Dispatcher Batch) (index : Nat) (worker : Worker Batch) (batch : Batch) : Dispatcher Batch :=
  { dispatcher with
    phase := .receiving
    nextWorker := (index + 1) % dispatcher.workers.length
    workers := dispatcher.workers.set index (worker.push batch) }

def abandon (dispatcher : Dispatcher Batch) (batch : Batch) : Dispatcher Batch :=
  { dispatcher with
    phase := .draining (.error "Dispatcher worker channel closed")
    abandoned := dispatcher.abandoned ++ [batch] }

def enter (dispatcher : Dispatcher Batch) (phase : DispatcherPhase Batch) : Dispatcher Batch :=
  { dispatcher with phase := phase }

def awaitInit (dispatcher : Dispatcher Batch) (index successfulWorkers : Nat) (lastErr : String) :
    Option (Dispatcher Batch) :=
  match dispatcher.workers[index]? with
  | some worker =>
    worker.initStatus.map fun
      | .ok () => dispatcher.enter (.awaitingInit (index + 1) (successfulWorkers + 1) lastErr)
      | .error reason => dispatcher.enter (.awaitingInit (index + 1) successfulWorkers reason)
  | none =>
    if successfulWorkers = 0 then
      some (dispatcher.enter (.returned (.error ("All workers failed to initialize. Last error: " ++ lastErr))))
    else some (dispatcher.enter .receiving)

/-- One `try_send`: the batch is delivered, or the scan goes on. -/
def trySend (dispatcher : Dispatcher Batch) (index : Nat) (batch : Batch) (firstFullIdx : Option Nat)
    (next : Option Nat → DispatcherPhase Batch) : Dispatcher Batch :=
  match dispatcher.workers[index]? with
  | none => dispatcher.enter (next firstFullIdx)
  | some worker =>
    match channel setting worker with
    | .open => dispatcher.deliver index worker batch
    | .full => dispatcher.enter (next (firstFullIdx.or (some index)))
    | .closed => dispatcher.enter (next firstFullIdx)

/-- One `send().await`: it waits for room, and fails when the receiver is dropped. -/
def awaitSend (dispatcher : Dispatcher Batch) (index : Nat) (batch : Batch) (failed : Dispatcher Batch) :
    Option (Dispatcher Batch) :=
  match dispatcher.workers[index]? with
  | none => some (dispatcher.abandon batch)
  | some worker =>
    match channel setting worker with
    | .open => some (dispatcher.deliver index worker batch)
    | .full => none
    | .closed => some failed

def advance (dispatcher : Dispatcher Batch) : Option (Dispatcher Batch) :=
  let concurrency := dispatcher.workers.length
  match dispatcher.phase with
  | .awaitingInit index successfulWorkers lastErr => dispatcher.awaitInit index successfulWorkers lastErr
  | .receiving => none
  | .scanning batch offset firstFullIdx =>
    if offset < concurrency then
      some (dispatcher.trySend setting ((dispatcher.nextWorker + offset) % concurrency) batch firstFullIdx
        fun firstFullIdx => .scanning batch (offset + 1) firstFullIdx)
    else
      match firstFullIdx with
      | some fullIdx => some (dispatcher.enter (.sending batch fullIdx))
      | none => some (dispatcher.abandon batch)
  | .sending batch fullIdx =>
    dispatcher.awaitSend setting fullIdx batch (dispatcher.enter (.rescanning batch fullIdx 1 none))
  | .rescanning batch fullIdx retryOffset firstFullIdx =>
    if retryOffset < concurrency then
      some (dispatcher.trySend setting ((fullIdx + retryOffset) % concurrency) batch firstFullIdx
        fun firstFullIdx => .rescanning batch fullIdx (retryOffset + 1) firstFullIdx)
    else
      match firstFullIdx with
      | some survivorIdx => some (dispatcher.enter (.sendingSurvivor batch survivorIdx))
      | none => some (dispatcher.abandon batch)
  | .sendingSurvivor batch survivorIdx =>
    dispatcher.awaitSend setting survivorIdx batch (dispatcher.abandon batch)
  | .draining result => if dispatcher.workers.all Worker.closed then some (dispatcher.enter (.returned result)) else none
  | .returned _ => none

def take (dispatcher : Dispatcher Batch) (batch : Option Batch) : Option (Dispatcher Batch) :=
  match dispatcher.phase with
  | .receiving =>
    match batch with
    | some batch =>
      some { dispatcher with phase := .scanning batch 0 none, received := dispatcher.received ++ [batch] }
    | none => some (dispatcher.enter (.draining (.ok ())))
  | _ => none

def step (dispatcher : Dispatcher Batch) : DispatcherMove Batch → Option (Dispatcher Batch)
  | .input batch => dispatcher.take batch
  | .advance => dispatcher.advance setting
  | .worker index move =>
    (dispatcher.workers[index]?).bind fun worker =>
      (worker.act setting dispatcher.holdsSenders move).map fun (worker, disposals) =>
        { dispatcher with
          workers := dispatcher.workers.set index worker
          disposed := dispatcher.disposed ++ disposals }

end Dispatcher

end OtelDatalake.Wasm
