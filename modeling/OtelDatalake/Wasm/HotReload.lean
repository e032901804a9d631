import OtelDatalake.Foundation.Interleaving
import OtelDatalake.Wasm.Engine

open OtelDatalake.Foundation

namespace OtelDatalake.Wasm

/-- What the holder of the snapshot's write lock does next: `publish_module` loads the counter, writes the
    snapshot, stores the counter and releases; `advance_generation` adds to the counter, writes the snapshot's
    generation and releases. -/
inductive EngineWrite (Module : Type) where
  | publishLoad (module : Module)
  | publishWrite (module : Module) (newGen : Nat)
  | publishStore (module : Module) (newGen : Nat)
  | advanceAdd
  | advanceWrite (newGen : Nat)
  | release
  deriving DecidableEq, Repr

/-- The engine with the holder of its write lock. `published` is the history of the publishes, newest first:
    a publish is in it from its store of the counter on, which is the first that a worker can see of it. -/
structure SharedEngine (Module : Type) where
  cache : EngineCache Module := {}
  writer : Option (EngineWrite Module) := none
  published : List (Nat × Module) := []
  deriving DecidableEq, Repr

inductive EngineTurn (Module : Type) where
  | lockPublish (module : Module)
  | lockAdvance
  | proceed
  deriving DecidableEq, Repr

inductive ReloadPhase where
  | idle
  | load
  | snapshot
  deriving DecidableEq, Repr

/-- What a worker has seen: the publish that its module came with (none for the module it was started with),
    and how many publishes there were at its last read of the engine. -/
structure Observation where
  source : Option Nat := none
  seen : Nat := 0
  deriving DecidableEq, Repr

/-- A worker's thread: in `WasmWorker::new` before its snapshot read, in the branch of `new` that found no
    snapshot, with an error from `new`, or with a worker that is idle or in `check_hot_reload` before its
    counter load or its snapshot read. -/
inductive WorkerThread (Module Config : Type) where
  | creating (module : Module) (config : Config)
  | unseen (module : Module) (config : Config)
  | failed
  | running (worker : WasmWorker Module Config) (phase : ReloadPhase) (observation : Observation)
  deriving DecidableEq, Repr

inductive WorkerChoice where
  | proceed
  | checkHotReload
  | rejuvenate
  deriving DecidableEq, Repr

variable {Module Config : Type}

namespace SharedEngine

def write (engine : SharedEngine Module) : EngineWrite Module → SharedEngine Module
  | .publishLoad module =>
    { engine with writer := some (.publishWrite module (engine.cache.generation + 1)) }
  | .publishWrite module newGen =>
    { engine with
      cache := { engine.cache with snapshot := some { module := module, generation := newGen } }
      writer := some (.publishStore module newGen) }
  | .publishStore module newGen =>
    { engine with
      cache := { engine.cache with generation := newGen }
      writer := some .release
      published := (newGen, module) :: engine.published }
  | .advanceAdd =>
    { engine with
      cache := { engine.cache with generation := engine.cache.generation + 1 }
      writer := some (.advanceWrite (engine.cache.generation + 1)) }
  | .advanceWrite newGen =>
    { engine with
      cache := { engine.cache with
        snapshot := engine.cache.snapshot.map fun snapshot => { snapshot with generation := newGen } }
      writer := some .release }
  | .release => { engine with writer := none }

def act (engine : SharedEngine Module) : EngineTurn Module → Option (SharedEngine Module)
  | .lockPublish module =>
    if engine.writer.isNone then some { engine with writer := some (.publishLoad module) } else none
  | .lockAdvance => if engine.writer.isNone then some { engine with writer := some .advanceAdd } else none
  | .proceed => engine.writer.map engine.write

/-- The snapshot behind the read lock, which no one takes while a writer holds the lock. -/
def readSnapshot (engine : SharedEngine Module) : Option (Option (ModuleSnapshot Module)) :=
  if engine.writer.isNone then some engine.cache.currentSnapshot else none

/-- The module published last at or before a generation, with the generation of its publish. -/
def lastPublished (engine : SharedEngine Module) (generation : Nat) : Option (Nat × Module) :=
  engine.published.find? fun entry => entry.1 ≤ generation

/-- A read at this moment, by a worker whose module came with `source`. -/
def observe (engine : SharedEngine Module) (source : Option Nat) : Observation :=
  { source := source, seen := engine.published.length }

end SharedEngine

namespace WorkerThread

variable (instantiates : Module → Config → Bool)

def isFresh : WorkerThread Module Config → Bool
  | .creating .. => true
  | _ => false

def create (engine : SharedEngine Module) (module : Module) (config : Config) (generation : Nat)
    (source : Option Nat) : WorkerThread Module Config :=
  if instantiates module config then
    .running { module := module, config := config, guest := module, localGeneration := generation } .load
      (engine.observe source)
  else .failed

/-- The next lock acquisition or atomic load of a worker, with the local work that follows it. -/
def proceed (engine : SharedEngine Module) : WorkerThread Module Config → Option (WorkerThread Module Config)
  | .creating module config =>
    engine.readSnapshot.map fun
      | some snapshot => create instantiates engine snapshot.module config snapshot.generation
          ((engine.lastPublished snapshot.generation).map Prod.fst)
      | none => .unseen module config
  | .unseen module config => some (create instantiates engine module config engine.cache.moduleGeneration none)
  | .failed => none
  | .running _ .idle _ => none
  | .running worker .load observation =>
    some (.running worker (if worker.localGeneration < engine.cache.moduleGeneration then .snapshot else .idle)
      (engine.observe observation.source))
  | .running worker .snapshot observation =>
    engine.readSnapshot.map fun snapshot =>
      match worker.tryAdopt instantiates snapshot with
      | (worker, true) =>
        .running worker .load (engine.observe ((engine.lastPublished worker.localGeneration).map Prod.fst))
      | (worker, false) => .running worker .idle (engine.observe observation.source)

def act (engine : SharedEngine Module) (thread : WorkerThread Module Config) (choice : WorkerChoice) :
    Option (SharedEngine Module × WorkerThread Module Config) :=
  match choice, thread with
  | .proceed, thread => (thread.proceed instantiates engine).map fun thread => (engine, thread)
  | .checkHotReload, .running worker .idle observation => some (engine, .running worker .load observation)
  | .rejuvenate, .running worker .idle observation =>
    some (engine, .running (worker.rejuvenate instantiates) .idle observation)
  | _, _ => none

end WorkerThread

abbrev ReloadSystem (Module Config : Type) := Interleaved (SharedEngine Module) (WorkerThread Module Config)

inductive ReloadTurn (Module Config : Type) where
  | engine (turn : EngineTurn Module)
  | worker (turn : Turn (WorkerThread Module Config) WorkerChoice)
  deriving DecidableEq, Repr

namespace ReloadSystem

def initial : ReloadSystem Module Config := ⟨{}, []⟩

def step (instantiates : Module → Config → Bool) (system : ReloadSystem Module Config) :
    ReloadTurn Module Config → Option (ReloadSystem Module Config)
  | .engine turn => (system.shared.act turn).map fun engine => { system with shared := engine }
  | .worker turn => Interleaved.step WorkerThread.isFresh (WorkerThread.act instantiates) system turn

/-- `WasmWorker::new`, having found no snapshot, loads the counter only while nothing has been published. -/
def timelyNew (system : ReloadSystem Module Config) : ReloadTurn Module Config → Bool
  | .engine _ | .worker (.start _) => true
  | .worker (.act index _) =>
    match system.threads[index]? with
    | some (.unseen _ _) => system.shared.published.isEmpty
    | _ => true

end ReloadSystem

end OtelDatalake.Wasm
