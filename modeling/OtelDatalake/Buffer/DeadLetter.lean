import OtelDatalake.Buffer.Config
import OtelDatalake.Foundation.Interleaving
import OtelDatalake.Foundation.LittleEndian

open OtelDatalake.Foundation

namespace OtelDatalake.Buffer

def SignalKind.asStr : SignalKind → List Char
  | .logs => "logs".toList
  | .metrics => "metrics".toList
  | .traces => "traces".toList

/-- A file below the store's directory: the sink's directory and the name in it. -/
structure QuarantinePath where
  sink : List Char
  name : List Char
  deriving DecidableEq, Repr

/-- The atomics of `DeadLetterStore` and the `.arrow` files below its directory. -/
structure DeadLetterStore where
  maxBytes : Nat
  currentBytes : Nat
  fileSeq : Nat := 1
  files : List QuarantinePath := []
  deriving DecidableEq, Repr

/-- A single component that is neither empty nor `.` or `..`. -/
def isSafePathComponent (val : List Char) : Bool :=
  !val.isEmpty && !val.contains '/' && !val.contains '\\' && !val.contains '\x00' &&
    val ≠ ".".toList && val ≠ "..".toList

inductive QuarantineFile where
  | arrow
  | json
  deriving DecidableEq, Repr

/-- The operations of `write_file_atomic`. The temporary file's name carries the call's own sequence number, so no
    other call touches it. -/
inductive AtomicWrite where
  | create
  | write
  | sync
  | rename
  deriving DecidableEq, Repr

/-- What a `write_quarantine` call does next. `seq` is its number from `file_seq`, `suffixed` says whether its stem
    carries that number. -/
inductive QuarantinePhase where
  | validate
  | reserveLoad
  | reserveSwap (current : Nat)
  | createDir
  | fetchSeq
  | checkExists (seq : Nat)
  | writing (file : QuarantineFile) (operation : AtomicWrite) (seq : Nat) (suffixed : Bool)
  | syncDir (seq : Nat) (suffixed : Bool)
  | removeArrow (seq : Nat) (suffixed : Bool)
  | release
  | succeeded (seq : Nat) (suffixed : Bool)
  | failed
  deriving DecidableEq, Repr

/-- A call with the parts of its metadata that name the file; `addedBytes` is the size of its two files. -/
structure QuarantineCall where
  sink : List Char
  signal : SignalKind
  firstSeq : Nat
  lastSeq : Nat
  timestampUnixMs : Nat
  addedBytes : Nat
  phase : QuarantinePhase := .validate
  deriving DecidableEq, Repr

namespace QuarantineCall

/-- `<signal>_<first_seq>_<last_seq>_<timestamp_unix_ms>` -/
def baseStem (call : QuarantineCall) : List Char :=
  call.signal.asStr ++ '_' :: (Nat.toDigits 10 call.firstSeq ++ '_' :: (Nat.toDigits 10 call.lastSeq ++
    '_' :: Nat.toDigits 10 call.timestampUnixMs))

def stem (call : QuarantineCall) (seq : Nat) (suffixed : Bool) : List Char :=
  if suffixed then call.baseStem ++ '_' :: Nat.toDigits 10 seq else call.baseStem

def arrowPath (call : QuarantineCall) (seq : Nat) (suffixed : Bool) : QuarantinePath :=
  { sink := call.sink, name := call.stem seq suffixed ++ ".arrow".toList }

def isFresh (call : QuarantineCall) : Bool := call.phase = .validate

/-- One step of a call; `works` says whether the operation succeeds, for the exchange whether it does not fail
    spuriously. -/
def act (store : DeadLetterStore) (call : QuarantineCall) (works : Bool) :
    Option (DeadLetterStore × QuarantineCall) :=
  let goOn := fun phase => some (store, { call with phase := phase })
  match call.phase with
  | .validate => goOn (if isSafePathComponent call.sink && works then .reserveLoad else .failed)
  | .reserveLoad => goOn (.reserveSwap store.currentBytes)
  | .reserveSwap current =>
    let next := saturatingAdd u64Max current call.addedBytes
    if next > store.maxBytes then goOn .failed
    else if store.currentBytes = current && works then
      some ({ store with currentBytes := next }, { call with phase := .createDir })
    else goOn (.reserveSwap store.currentBytes)
  | .createDir => goOn (if works then .fetchSeq else .release)
  | .fetchSeq =>
    some ({ store with fileSeq := (store.fileSeq + 1) % (u64Max + 1) }, { call with phase := .checkExists store.fileSeq })
  | .checkExists seq =>
    -- `Path::exists` is false as well where the stat fails.
    goOn (.writing .arrow .create seq (works && store.files.contains (call.arrowPath seq false)))
  | .writing file operation seq suffixed =>
    if works then
      match operation, file with
      | .create, _ => goOn (.writing file .write seq suffixed)
      | .write, _ => goOn (.writing file .sync seq suffixed)
      | .sync, _ => goOn (.writing file .rename seq suffixed)
      | .rename, .arrow =>
        some ({ store with files := call.arrowPath seq suffixed :: store.files },
          { call with phase := .writing .json .create seq suffixed })
      | .rename, .json => goOn (.syncDir seq suffixed)
    else
      match file with
      | .arrow => goOn .release
      | .json => goOn (.removeArrow seq suffixed)
  | .syncDir seq suffixed => goOn (.succeeded seq suffixed)
  | .removeArrow seq suffixed =>
    if works then
      some ({ store with files := store.files.filter fun path => path ≠ call.arrowPath seq suffixed },
        { call with phase := .release })
    else goOn .release
  | .release =>
    some ({ store with currentBytes := store.currentBytes - call.addedBytes }, { call with phase := .failed })
  | .succeeded .. | .failed => none

def persisted (call : QuarantineCall) : Nat :=
  match call.phase with
  | .succeeded .. => call.addedBytes
  | _ => 0

def reserved (call : QuarantineCall) : Nat :=
  match call.phase with
  | .validate | .reserveLoad | .reserveSwap _ | .succeeded .. | .failed => 0
  | _ => call.addedBytes

def awaits (call : QuarantineCall) : Option QuarantinePath :=
  match call.phase with
  | .writing .arrow _ seq suffixed => some (call.arrowPath seq suffixed)
  | _ => none

def returned (call : QuarantineCall) : Option QuarantinePath :=
  match call.phase with
  | .succeeded seq suffixed => some (call.arrowPath seq suffixed)
  | _ => none

end QuarantineCall

abbrev Quarantine := Interleaved DeadLetterStore QuarantineCall

namespace Quarantine

abbrev QuarantineTurn := Turn QuarantineCall Bool

def step : Quarantine → QuarantineTurn → Option Quarantine :=
  Interleaved.step QuarantineCall.isFresh QuarantineCall.act

def opened (maxBytes initialBytes : Nat) (files : List QuarantinePath) : Quarantine :=
  ⟨{ maxBytes := maxBytes, currentBytes := initialBytes, files := files }, []⟩

/-- A check that takes the base path takes it while it is free: the stat has not failed on a file that is there, and no
    other call has chosen the path and has still to rename its file to it. One that takes the numbered path finds no
    file of an earlier process there. A reservation does not saturate the counter, and `file_seq` does not wrap. -/
def timely (system : Quarantine) : QuarantineTurn → Bool
  | .start _ => true
  | .act index works =>
    match system.threads[index]? with
    | none => true
    | some call =>
      match call.phase with
      | .reserveSwap current => current + call.addedBytes ≤ u64Max || system.shared.maxBytes < u64Max
      | .fetchSeq => system.shared.fileSeq < u64Max
      | .checkExists seq =>
        if works && system.shared.files.contains (call.arrowPath seq false) then
          !system.shared.files.contains (call.arrowPath seq true)
        else
          !system.shared.files.contains (call.arrowPath seq false) &&
            system.threads.all fun other => other.awaits ≠ some (call.arrowPath seq false)
      | _ => true

end Quarantine

end OtelDatalake.Buffer
