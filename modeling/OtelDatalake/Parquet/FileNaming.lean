import Mathlib.Data.List.DropRight
import OtelDatalake.Foundation.AtomicUpdate
import OtelDatalake.Foundation.Interleaving
import OtelDatalake.Foundation.LittleEndian
import OtelDatalake.Foundation.Text

open OtelDatalake.Foundation

namespace OtelDatalake.Parquet

def maxNanos : Nat := 2 ^ 63 - 1

/-- The counter is never negative: it starts at zero and every stamp is at least a clamped clock reading. -/
structure FileNamer where
  nodeId : List Char
  lastNanos : AtomicCell Nat
  deriving DecidableEq, Repr

structure NameRequest where
  partitionPrefix : List Char
  sequence : UInt16
  deriving DecidableEq, Repr

/-- A filename that was returned, with the stamp in it and the place of its update in the order of all updates
    (none if `try_update` gave an error). -/
structure GeneratedName where
  request : NameRequest
  update : Option Nat
  timestampNano : Nat
  filename : List Char
  deriving DecidableEq, Repr

/-- A call of `generate_filename`: before it reads the clock, in `try_update`, or returned. -/
inductive NamingThread where
  | called (request : NameRequest)
  | stamping (request : NameRequest) (now : Nat) (phase : TryUpdate Nat)
  | named (generated : GeneratedName)
  deriving DecidableEq, Repr

/-- What a call gets from outside: the clock's nanoseconds since the epoch (none where they do not fit), the
    answers of the atomic counter, and the text of a new UUID. -/
inductive NamingChoice where
  | clock (timestampNanosOpt : Option Int)
  | cell (answer : CellAnswer Nat)
  | uuid (uuidStr : List Char)
  deriving DecidableEq, Repr


def advance (now prev : Nat) : Option Nat := if now > prev then some now else some (saturatingAdd maxNanos prev 1)

/-- The `map_or` behind `try_update`, once that has a result. -/
def handedOut (now : Nat) : TryUpdate Nat → Option Nat
  | .updated prev _ => some (if now > prev then now else saturatingAdd maxNanos prev 1)
  | .refused _ => some now
  | .begin | .attempt _ _ => none

/-- `trim_end_matches('/')` -/
def NameRequest.directory (request : NameRequest) : List Char := request.partitionPrefix.rdropWhile (· = '/')

namespace FileNamer

def startingAt (nodeId : List Char) (lastNanos : Nat) : FileNamer := ⟨nodeId, { value := lastNanos }⟩

def new (nodeId : List Char) : FileNamer := startingAt nodeId 0

def clone (namer : FileNamer) : FileNamer := startingAt namer.nodeId namer.lastNanos.value

def filename (namer : FileNamer) (request : NameRequest) (timestampNano : Nat) (uuidStr : List Char) : List Char :=
  let name := paddedDigits 20 timestampNano ++ '_' :: namer.nodeId ++ '_' :: uuidStr ++
    '_' :: paddedDigits 4 request.sequence.toNat ++ ".parquet".toList
  if request.directory.isEmpty then name else request.directory ++ '/' :: name

end FileNamer

namespace NamingThread

def isFresh : NamingThread → Bool
  | .called _ => true
  | _ => false

/-- The next read of the clock or access of the counter, or the work on the name that follows them. -/
def act (namer : FileNamer) : NamingThread → NamingChoice → Option (FileNamer × NamingThread)
  | .called request, .clock timestampNanosOpt =>
    some (namer, .stamping request (max (timestampNanosOpt.getD 0) 0).toNat .begin)
  | .stamping request now phase, .cell answer =>
    (phase.act (advance now) namer.lastNanos answer).map fun (lastNanos, phase) =>
      ({ namer with lastNanos := lastNanos }, .stamping request now phase)
  | .stamping request now phase, .uuid uuidStr =>
    (handedOut now phase).map fun timestampNano =>
      (namer, .named ⟨request, phase.place?, timestampNano, namer.filename request timestampNano uuidStr⟩)
  | _, _ => none

end NamingThread

/-- Calls on one namer, each begun at any time. -/
abbrev NamingSystem := Interleaved FileNamer NamingThread

def NamingSystem.start (namer : FileNamer) : NamingSystem := ⟨namer, []⟩

def NamingSystem.step (system : NamingSystem) (turn : Turn NamingThread NamingChoice) : Option NamingSystem :=
  Interleaved.step NamingThread.isFresh NamingThread.act system turn

end OtelDatalake.Parquet
