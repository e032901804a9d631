import Mathlib.Data.Nat.Notation

namespace OtelDatalake.Buffer

/-- `SignalType` of `sort.rs`, which the buffer calls `SignalKind`. -/
inductive SignalKind where
  | logs
  | metrics
  | traces
  deriving DecidableEq, Repr

def SignalKind.asU8 : SignalKind → UInt8
  | .logs => 0
  | .metrics => 1
  | .traces => 2

def SignalKind.fromU8 (tag : UInt8) : Option SignalKind :=
  if tag = 0 then some .logs
  else if tag = 1 then some .metrics
  else if tag = 2 then some .traces
  else none

@[simp] theorem SignalKind.fromU8_asU8 (signal : SignalKind) : fromU8 signal.asU8 = some signal := by
  cases signal <;> rfl

def allSignals : List SignalKind := [.logs, .metrics, .traces]

inductive BufferMode where
  | memory
  | disk
  deriving DecidableEq, Repr

inductive OverflowPolicy where
  | block
  | dropOldest
  deriving DecidableEq, Repr

inductive DrainTimeoutPolicy where
  | persist
  | discard
  deriving DecidableEq, Repr

/-- The settings the modelled functions read. Byte sizes, counts and durations are natural numbers: the
    source's `u64` and `usize` saturate only at `2^64`. -/
structure BufferConfig where
  mode : BufferMode := .memory
  segmentSizeBytes : Nat := 67108864
  syncOnWrite : Bool := false
  maxBufferBytes : Nat := 805306368
  overflowPolicy : OverflowPolicy := .block
  maxBatchSizeBytes : Nat := 33554432
  maxBatchRecords : Option Nat := none
  maxBatchIntervalSec : Nat := 60
  maxInflightLeases : Nat := 1
  initialBackoffMs : Nat := 500
  maxBackoffSec : Nat := 60
  maxAttempts : Nat := 3
  maxTransientDurationSec : Nat := 0
  onDrainTimeout : Option DrainTimeoutPolicy := none
  deriving DecidableEq, Repr

def u32Max : Nat := 4294967295

def u64Max : Nat := 18446744073709551615

/-- `saturating_add(1)` on a `u64` sequence number. -/
def saturatingSucc (seq : Nat) : Nat := min (seq + 1) u64Max

theorem saturatingSucc_of_lt {seq : Nat} (below : seq < u64Max) : saturatingSucc seq = seq + 1 :=
  Nat.min_eq_left below

namespace BufferConfig

def perSignalBudget (config : BufferConfig) : Nat := config.maxBufferBytes / 3

def maxDiskFramePayloadBytes (config : BufferConfig) : Nat :=
  let doubled := config.segmentSizeBytes * 2
  if doubled > u32Max then u32Max else doubled

def effectiveDrainPolicy (config : BufferConfig) : DrainTimeoutPolicy :=
  match config.onDrainTimeout with
  | some policy => policy
  | none =>
    match config.mode with
    | .memory => .discard
    | .disk => .persist

end BufferConfig

end OtelDatalake.Buffer
