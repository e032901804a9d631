import Mathlib.Data.Nat.Notation

namespace OtelDatalake.Wasm

inductive OnErrorPolicy where
  | reroute
  | drop
  | passthrough
  deriving DecidableEq, Repr

inductive OnRejectPolicy where
  | reroute
  | drop
  deriving DecidableEq, Repr

inductive SchemaGuardMode where
  | defensive
  | strict
  deriving DecidableEq, Repr

/-- `WasmTransformerConfig`; `env` stands for the hash map by its entries, `config` for the JSON value by its
    text. -/
structure WasmTransformerConfig where
  id : String
  type : String := "wasm"
  modulePath : String
  sha256 : Option String := none
  maxExecutionDuration : String := "500ms"
  drainTimeout : String := "10s"
  maxBatchRows : Nat := 5000
  concurrency : Nat := 4
  workerChannelCapacity : Nat := 1
  maxMemory : String := "64MiB"
  rejuvenateThreshold : String := "16MiB"
  rejuvenateBatches : Nat := 10000
  initTimeout : String := "2s"
  onError : OnErrorPolicy := .reroute
  allowUnmaskedPassthrough : Bool := false
  onReject : OnRejectPolicy := .reroute
  schemaGuard : SchemaGuardMode := .defensive
  envWhitelist : List String := []
  env : List (String × String) := []
  config : Option String := none
  enableSighup : Bool := false
  deriving DecidableEq, Repr

def WasmTransformerConfig.withEnv (config : WasmTransformerConfig) (key value : String) : WasmTransformerConfig :=
  { config with env := (key, value) :: config.env.filter fun entry => entry.1 ≠ key }

/-- The errors of `WasmTransformError` that the modelled functions make; `wasmtime` carries the runtime's text. -/
inductive WasmTransformError where
  | wasmtime (message : String)
  | abiVersionMismatch (version : Nat)
  | missingExport (name : String)
  | sha256Mismatch (expected actual : String)
  | initFailed (message : String)
  | pipeline (message : String)
  | oom (modulePath : String) (workerId : Nat)
  | executionTimeout (timeoutMs : Nat)
  | arrowIpc (message : String)
  | invalidMemoryBounds (ptr len memSize : Nat)
  deriving DecidableEq, Repr

def WasmTransformError.display : WasmTransformError → String
  | .wasmtime message => s!"Wasmtime error: {message}"
  | .abiVersionMismatch version => s!"ABI version mismatch: expected 1, got {version}"
  | .missingExport name => s!"Missing required WASM export: {name}"
  | .sha256Mismatch expected actual => s!"SHA-256 mismatch: expected {expected}, got {actual}"
  | .initFailed message => s!"Guest init failed: {message}"
  | .pipeline message => s!"Pipeline error: {message}"
  | .oom modulePath workerId => s!"WASM OOM: module={modulePath}, instance={workerId}"
  | .executionTimeout timeoutMs => s!"Guest execution timeout after {timeoutMs}ms"
  | .arrowIpc message => s!"Arrow IPC error: {message}"
  | .invalidMemoryBounds ptr len memSize =>
    s!"Invalid guest memory bounds: ptr={ptr}, len={len} exceeds guest memory bounds {memSize}"

end OtelDatalake.Wasm
