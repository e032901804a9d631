import Mathlib.Logic.Function.Basic
import OtelDatalake.Core.Error
import OtelDatalake.Codec.AttributeText
import OtelDatalake.Buffer.Config
import OtelDatalake.Foundation.Runs

open OtelDatalake.Foundation OtelDatalake.Core OtelDatalake.Codec OtelDatalake.Buffer

namespace OtelDatalake.Pipeline

/-- What the join handle of a task returns: its result, or the text of a `JoinError`. -/
inductive TaskExit where
  | ok
  | failed (error : PipelineError)
  | panicked (error : Text)
  deriving DecidableEq, Repr

inductive TaskId where
  | source
  | transformer (signal : SignalKind)
  | sink (signal : SignalKind)
  deriving DecidableEq, Repr

/-- A handle is joined when it has returned the end of its task; polled again, it panics. -/
inductive TaskState where
  | running
  | ended (exit : TaskExit)
  | joined
  deriving DecidableEq, Repr

/-- `main` from its `select!` on. -/
inductive SupervisorPhase where
  | selecting
  | awaitingSource
  | joining
  | aborting (left : List TaskId)
  | finalizing
  | awaitingSighup
  | awaitingAdmin
  | returned
  | panicked
  deriving DecidableEq, Repr

/-- The tasks of the pipeline with what `main` knows of them. `done` are its flags, `selected` is the branch of the
    `select!` that was taken, none for the shutdown signal. The last two handles are there when they were spawned. -/
structure SupervisorWorld where
  tasks : TaskId → TaskState := fun _ => .running
  done : TaskId → Bool := fun _ => false
  shutdown : Bool := false
  selected : Option TaskId := none
  exitErr : Option Text := none
  drainRes : SignalKind → Option TaskExit := fun _ => none
  timedOut : Bool := false
  finalized : Option (Except PipelineError Unit) := none
  sighup : Option TaskState := none
  admin : Option TaskState := none
  phase : SupervisorPhase := .selecting

inductive SupervisorAction where
  | taskEnds (task : TaskId) (exit : TaskExit)
  | sighupEnds (exit : TaskExit)
  | adminEnds (exit : TaskExit)
  | shutdownSignal
  | select (task : TaskId)
  | awaitSource
  | join (task : TaskId)
  | drained
  | timeout
  | abort (exit : TaskExit)
  | finalize (disk : Option (Except PipelineError Unit × Except PipelineError Unit)) (dropped : Nat)
  | awaitSighup
  | awaitAdmin
  | adminTimeout (exit : TaskExit)
  deriving DecidableEq, Repr

def SupervisorAction.own : SupervisorAction → Bool
  | .taskEnds .. | .sighupEnds _ | .adminEnds _ | .shutdownSignal | .select _ => false
  | _ => true

/-- The order in which the signals are drained, which is not that of the rings. -/
def drainOrder : List SignalKind := [.logs, .traces, .metrics]

def signalName : SignalKind → Text
  | .logs => "Logs".toList
  | .metrics => "Metrics".toList
  | .traces => "Traces".toList

/-- The tasks in the order in which a drain that has timed out aborts them. -/
def allTasks : List TaskId := .source :: drainOrder.map .transformer ++ drainOrder.map .sink

def superviseSinkExit (signalName : Text) : TaskExit → Text
  | .failed error => signalName ++ " sink failed: ".toList ++ error.display
  | .ok => signalName ++ " sink exited prematurely".toList
  | .panicked error => signalName ++ " sink task panicked: ".toList ++ error

/-- The error of a task that ends before the shutdown. -/
def exitError : TaskId → TaskExit → Text
  | .source, .failed error => "Source receiver stopped unexpectedly with error: ".toList ++ error.display
  | .source, .ok => "Source receiver stopped unexpectedly".toList
  | .source, .panicked error => "Source receiver task panicked: ".toList ++ error
  | .transformer signal, .failed error => signalName signal ++ " transformer failed: ".toList ++ error.display
  | .transformer signal, .ok => signalName signal ++ " transformer exited prematurely".toList
  | .transformer signal, .panicked error => signalName signal ++ " transformer task panicked: ".toList ++ error
  | .sink signal, exit => superviseSinkExit (signalName signal) exit

def drainError (signal : SignalKind) : Option TaskExit → Option Text
  | some (.failed error) => some (signalName signal ++ " sink failed during drain: ".toList ++ error.display)
  | some (.panicked error) => some (signalName signal ++ " sink task panicked during drain: ".toList ++ error)
  | some .ok | none => none

def timeoutError : Except PipelineError Unit → Option Text
  | .error error => some ("Shutdown drain timed out: ".toList ++ error.display)
  | .ok () => none

/-- `finalize_shutdown_timeout_async`: what the disk says to the sync and to its own shutdown comes first, and a discard
    is an error of its own. -/
def finalizeShutdownTimeout (config : BufferConfig) (sinkName : Text)
    (disk : Option (Except PipelineError Unit × Except PipelineError Unit)) (dropped : Nat) :
    Except PipelineError Unit := do
  match disk with
  | some (syncRes, shutRes) =>
    syncRes
    shutRes
  | none => pure ()
  match config.effectiveDrainPolicy with
  | .persist => pure ()
  | .discard =>
    .error (.storage ("sink '".toList ++ sinkName ++ "' shutdown drain timed out under Discard policy (".toList ++
      Nat.toDigits 10 dropped ++ " records dropped)".toList))

namespace SupervisorWorld

def setTask (world : SupervisorWorld) (task : TaskId) (state : TaskState) : SupervisorWorld :=
  { world with tasks := Function.update world.tasks task state }

def poll (world : SupervisorWorld) (task : TaskId) (next : SupervisorWorld → TaskExit → SupervisorWorld) :
    Option SupervisorWorld :=
  match world.tasks task with
  | .running => none
  | .ended exit => some (next (world.setTask task .joined) exit)
  | .joined => some { world with phase := .panicked }

def setDone (world : SupervisorWorld) (task : TaskId) : SupervisorWorld :=
  { world with done := Function.update world.done task true }

/-- The loop over the results of the drain keeps the first error. -/
def collect (world : SupervisorWorld) (phase : SupervisorPhase) : SupervisorWorld :=
  { world with
    exitErr := drainOrder.foldl (fun err signal => err.or (drainError signal (world.drainRes signal))) world.exitErr
    phase := phase }

/-- The result of a sink is kept, that of a transformer is not looked at. -/
def joined (world : SupervisorWorld) (task : TaskId) (exit : TaskExit) : SupervisorWorld :=
  match task with
  | .sink signal => { world.setDone task with drainRes := Function.update world.drainRes signal (some exit) }
  | _ => world.setDone task

/-- An aborted task is taken to end, as it does if it comes to an await; one that has already ended keeps its own end,
    which nobody looks at. -/
def abortTask (world : SupervisorWorld) (task : TaskId) (exit : TaskExit) : SupervisorWorld :=
  match world.tasks task with
  | .running => world.setTask task (.ended exit)
  | _ => world

def step (config : BufferConfig) (sinkName : Text) (world : SupervisorWorld) : SupervisorAction → Option SupervisorWorld
  | .taskEnds task exit =>
    if world.tasks task = .running then some (world.setTask task (.ended exit)) else none
  | .sighupEnds exit => if world.sighup = some .running then some { world with sighup := some (.ended exit) } else none
  | .adminEnds exit => if world.admin = some .running then some { world with admin := some (.ended exit) } else none
  | .shutdownSignal =>
    if world.phase = .selecting then some { world with shutdown := true, phase := .awaitingSource } else none
  | .select task =>
    if world.phase = .selecting then
      world.poll task fun next exit =>
        { next.setDone task with
          exitErr := some (exitError task exit), selected := some task, shutdown := true, phase := .awaitingSource }
    else none
  | .awaitSource =>
    if world.phase = .awaitingSource then
      if world.done .source then some { world with phase := .joining }
      else world.poll .source fun next _ => { next.setDone .source with phase := .joining }
    else none
  | .join task =>
    if world.phase = .joining ∧ task ≠ .source ∧ world.done task = false then world.poll task fun next => next.joined task
    else none
  | .drained =>
    if world.phase = .joining ∧ allTasks.all world.done then some (world.collect .awaitingSighup) else none
  | .timeout =>
    if world.phase = .awaitingSource ∨ world.phase = .joining then
      some ({ world with timedOut := true }.collect (.aborting allTasks))
    else none
  | .abort exit =>
    match world.phase with
    | .aborting (task :: left) =>
      if world.done task then some { world with phase := .aborting left }
      else (world.abortTask task exit).poll task fun next _ => { next with phase := .aborting left }
    | .aborting [] => some { world with phase := .finalizing }
    | _ => none
  | .finalize disk dropped =>
    if world.phase = .finalizing then
      let outcome := finalizeShutdownTimeout config sinkName disk dropped
      some { world with
        finalized := some outcome
        exitErr := world.exitErr.or (timeoutError outcome)
        phase := .awaitingSighup }
    else none
  | .awaitSighup =>
    if world.phase = .awaitingSighup then
      match world.sighup with
      | some .running => none
      | some .joined => some { world with phase := .panicked }
      | some (.ended _) => some { world with sighup := some .joined, phase := .awaitingAdmin }
      | none => some { world with phase := .awaitingAdmin }
    else none
  | .awaitAdmin =>
    if world.phase = .awaitingAdmin then
      match world.admin with
      | some .running => none
      | some .joined => some { world with phase := .panicked }
      | some (.ended _) => some { world with admin := some .joined, phase := .returned }
      | none => some { world with phase := .returned }
    else none
  | .adminTimeout _ =>
    if world.phase = .awaitingAdmin ∧ world.admin = some .running then
      some { world with admin := some .joined, phase := .returned }
    else none

def spawned (sighup admin : Bool) : SupervisorWorld :=
  { sighup := if sighup then some .running else none, admin := if admin then some .running else none }

end SupervisorWorld

end OtelDatalake.Pipeline
