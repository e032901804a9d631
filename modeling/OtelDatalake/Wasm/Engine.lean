import Mathlib.Data.Nat.Notation

namespace OtelDatalake.Wasm

structure ModuleSnapshot (Module : Type) where
  module : Module
  generation : Nat
  deriving DecidableEq, Repr

/-- `EngineCache`: the snapshot behind its lock and the generation counter beside it. The source's `u64`
    counter wraps only after `2^64` publishes. -/
structure EngineCache (Module : Type) where
  snapshot : Option (ModuleSnapshot Module) := none
  generation : Nat := 0
  deriving DecidableEq, Repr

structure WasmWorker (Module Config : Type) where
  module : Module
  config : Config
  /-- The module that the instance in `guest` was made from. -/
  guest : Module
  batchesProcessed : Nat := 0
  localGeneration : Nat
  deriving DecidableEq, Repr

section Operations

variable {Module Config : Type}

namespace EngineCache

/-- `publish_module` from taking the write lock to giving it back. -/
def publishModule (engine : EngineCache Module) (module : Module) : EngineCache Module × Nat :=
  let newGen := engine.generation + 1
  ({ snapshot := some { module := module, generation := newGen }, generation := newGen }, newGen)

def currentSnapshot (engine : EngineCache Module) : Option (ModuleSnapshot Module) := engine.snapshot

def moduleGeneration (engine : EngineCache Module) : Nat := engine.generation

end EngineCache

namespace WasmWorker

variable (instantiates : Module → Config → Bool)

def install (worker : WasmWorker Module Config) (snapshot : ModuleSnapshot Module) : WasmWorker Module Config :=
  { worker with
    guest := snapshot.module
    module := snapshot.module
    localGeneration := snapshot.generation
    batchesProcessed := 0 }

/-- The body of the `check_hot_reload` loop behind its two reads; the flag says whether the loop goes on. -/
def tryAdopt (worker : WasmWorker Module Config) (snapshot : Option (ModuleSnapshot Module)) :
    WasmWorker Module Config × Bool :=
  match snapshot with
  | none => (worker, false)
  | some snapshot =>
    if worker.localGeneration ≥ snapshot.generation then (worker, false)
    else if instantiates snapshot.module worker.config then (worker.install snapshot, true)
    else ({ worker with localGeneration := snapshot.generation }, false)

def rejuvenate (worker : WasmWorker Module Config) : WasmWorker Module Config :=
  if instantiates worker.module worker.config then
    { worker with guest := worker.module, batchesProcessed := 0 }
  else { worker with batchesProcessed := 0 }

/-- The loop of `check_hot_reload` with nothing between its reads. Every round that goes on raises
    `local_generation`, so the rounds are bounded by what is missing to the engine's generation. -/
def checkRounds (engine : EngineCache Module) : Nat → WasmWorker Module Config → WasmWorker Module Config
  | 0, worker => worker
  | rounds + 1, worker =>
    if worker.localGeneration < engine.moduleGeneration then
      let (worker, goesOn) := worker.tryAdopt instantiates engine.currentSnapshot
      if goesOn then checkRounds engine rounds worker else worker
    else worker

def checkHotReload (engine : EngineCache Module) (worker : WasmWorker Module Config) : WasmWorker Module Config :=
  checkRounds instantiates engine (engine.generation - worker.localGeneration) worker

end WasmWorker

end Operations

end OtelDatalake.Wasm
