import OtelDatalake.Foundation.Text
import OtelDatalake.Wasm.Config
import OtelDatalake.Wasm.GenerationSafety

open OtelDatalake.Foundation

namespace OtelDatalake.Wasm

/-- The WebAssembly runtime and the digest: `Module::new` on an engine, `WasmWorker::instantiate_guest`, and the
    lowercase hexadecimal SHA-256 of bytes. -/
structure Runtime (Bytes Module : Type) where
  compile : Nat → Bytes → Except String Module
  instantiateGuest : Module → WasmTransformerConfig → Except WasmTransformError Unit
  computeSha256 : Bytes → String

/-- An engine with the workers that run on it, none of them ahead of it. -/
structure EngineSite (Module : Type) where
  handle : Nat
  cache : EngineCache Module
  workers : List (WasmWorker Module WasmTransformerConfig)
  behind : ∀ worker ∈ workers, worker.localGeneration ≤ cache.generation

variable {Bytes Module : Type}

namespace Runtime

variable (runtime : Runtime Bytes Module)

def instantiates (module : Module) (config : WasmTransformerConfig) : Bool :=
  (runtime.instantiateGuest module config).toBool

def probeCandidate (module : Module) (config : WasmTransformerConfig) : Except WasmTransformError Unit :=
  runtime.instantiateGuest module config

/-- The configuration that `compile_and_probe_candidate` makes up for its probe. -/
def probeCfg : WasmTransformerConfig :=
  { id := "probe"
    type := "wasm"
    modulePath := ""
    sha256 := none
    maxExecutionDuration := "5s"
    drainTimeout := "5s"
    maxBatchRows := 1000
    concurrency := 1
    workerChannelCapacity := 10
    maxMemory := "64MiB"
    rejuvenateThreshold := "50MiB"
    rejuvenateBatches := 1000
    initTimeout := "5s"
    onError := .reroute
    allowUnmaskedPassthrough := false
    onReject := .reroute
    schemaGuard := .defensive
    envWhitelist := []
    env := []
    config := none
    enableSighup := false }

/-- `actual.eq_ignore_ascii_case(expected)` for the digest of the bytes. -/
def digestMatches (bytes : Bytes) (expected : String) : Bool :=
  eqIgnoreAsciiCase (runtime.computeSha256 bytes).toList expected.toList

def verifySha256 (bytes : Bytes) : Option String → Except WasmTransformError Unit
  | none => .ok ()
  | some expected =>
    let trimmed := String.ofList (trim expected.toList)
    if runtime.digestMatches bytes trimmed then .ok ()
    else .error (.sha256Mismatch trimmed (runtime.computeSha256 bytes))

def compileAndProbeCandidate (handle : Nat) (newBytes : Bytes) (expectedSha : Option String) :
    Except WasmTransformError Module := do
  runtime.verifySha256 newBytes expectedSha
  let newModule ← (runtime.compile handle newBytes).mapError .wasmtime
  runtime.probeCandidate newModule probeCfg
  return newModule

/-- Stage 2 of a reload: each engine gets its candidate, the last generation is the result. -/
def publishEach : Nat → List (Nat × EngineCache Module) → List Module → Nat × List (Nat × EngineCache Module)
  | _, (handle, engine) :: engines, module :: modules =>
    let (engine, newGen) := engine.publishModule module
    let (lastGen, engines) := publishEach newGen engines modules
    (lastGen, (handle, engine) :: engines)
  | lastGen, engines, _ => (lastGen, engines)

def stageAndPublishModule (engines : List (Nat × EngineCache Module)) (bytes : Bytes)
    (expectedSha : Option String) : Except WasmTransformError Nat × List (Nat × EngineCache Module) :=
  match expectedSha.filter fun expected => !runtime.digestMatches bytes expected with
  | some expected => (.error (.sha256Mismatch expected (runtime.computeSha256 bytes)), engines)
  | none =>
    match engines.mapM fun engine => runtime.compileAndProbeCandidate engine.1 bytes none with
    | .error error => (.error error, engines)
    | .ok candidates =>
      let (lastGen, engines) := publishEach 0 engines candidates
      (.ok lastGen, engines)

/-- The probes of `reload_module`: the configured signal, or every signal in turn. -/
def probeSignals (module : Module) (config : WasmTransformerConfig) : Except String Unit :=
  let failed := fun (signal : String) (error : WasmTransformError) =>
    s!"WASM guest validation failed on reload for signal '{signal}': {error.display}"
  match config.env.lookup "signal" with
  | some signal => (runtime.probeCandidate module config).mapError (failed signal)
  | none => ["logs", "traces", "metrics"].forM fun signal =>
      (runtime.probeCandidate module (config.withEnv "signal" signal)).mapError (failed signal)

/-- `reload_module` with the outcome of reading `config.module_path`; errors are the texts of
    `PipelineError::Internal`. -/
def reloadCandidate (config : WasmTransformerConfig) (handle : Nat) (file : Except String Bytes) :
    Except String Module := do
  let wasmBytes ← file.mapError fun error =>
    s!"Failed to read WASM module '{config.modulePath}' for reload: {error}"
  match config.sha256.filter fun expected => !runtime.digestMatches wasmBytes expected with
  | some expectedHash =>
    let calculated := runtime.computeSha256 wasmBytes
    throw s!"SHA256 mismatch for WASM module '{config.modulePath}' during reload: expected {expectedHash}, got {calculated}"
  | none =>
    let newMod ← (runtime.compile handle wasmBytes).mapError fun error =>
      s!"Failed to compile reloaded module: {error}"
    runtime.probeSignals newMod config
    return newMod

def reloadModule (config : WasmTransformerConfig) (handle : Nat) (engine : EngineCache Module)
    (file : Except String Bytes) : Except String Nat × EngineCache Module :=
  match runtime.reloadCandidate config handle file with
  | .error error => (.error error, engine)
  | .ok newMod =>
    let (engine, newGen) := engine.publishModule newMod
    (.ok newGen, engine)

end Runtime

end OtelDatalake.Wasm
