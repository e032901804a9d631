import OtelDatalake.Buffer.DeadLetter
import OtelDatalake.Codec.AttributeText
import OtelDatalake.Core.Error
import OtelDatalake.Foundation.Volume

open OtelDatalake.Foundation OtelDatalake.Core OtelDatalake.Codec OtelDatalake.Buffer

namespace OtelDatalake.Pipeline

structure FileDlqSink where
  transformerId : Text
  signal : Text
  role : Text
  safe : isSafePathComponent transformerId ∧ isSafePathComponent signal ∧ isSafePathComponent role

def FileDlqSink.dlqDir (sink : FileDlqSink) : Text :=
  "dlq/".toList ++ sink.transformerId ++ '/' :: (sink.signal ++ '/' :: sink.role)

/-- `FileDlqSink::new`: the first component that is not safe is named, with its debug text. -/
def FileDlqSink.new (debug : Text → Text) (transformerId signal role : Text) : Except Text FileDlqSink :=
  let refused label value := .error ("DLQ ".toList ++ label ++ " contains unsafe path components: ".toList ++ debug value)
  if first : isSafePathComponent transformerId then
    if second : isSafePathComponent signal then
      if third : isSafePathComponent role then .ok ⟨transformerId, signal, role, first, second, third⟩
      else refused "role".toList role
    else refused "signal".toList signal
  else refused "transformer_id".toList transformerId

structure DlqPath where
  dir : Text
  name : Text
  deriving DecidableEq, Repr

def DlqPath.display (path : DlqPath) : Text := path.dir ++ '/' :: path.name

/-- What a send takes for the name of its file: the process it runs in, its clock, and the number from `DLQ_SEQ`. -/
structure DlqStamp where
  boot : Nat
  millis : Nat
  seq : Nat
  deriving DecidableEq, Repr

/-- Where a send is. `tmp` is its number from `DLQ_TMP_COUNTER`, `inode` the temporary file that it holds open. -/
inductive DlqPhase where
  | createDir
  | fetchSeq
  | encode
  | fetchTmp (buf : List UInt8)
  | create (buf : List UInt8) (tmp : Nat)
  | write (buf : List UInt8) (tmp inode : Nat)
  | sync (buf : List UInt8) (tmp inode : Nat)
  | rename (buf : List UInt8) (tmp : Nat)
  | remove (tmp : Nat) (error : Text)
  | openDir
  | syncDir
  | succeeded
  | failed (error : PipelineError)
  | aborted
  deriving DecidableEq, Repr

structure DlqCall (Batch : Type) where
  sink : FileDlqSink
  signal : SignalKind
  batch : Batch
  stamp : Option DlqStamp := none
  phase : DlqPhase := .createDir

/-- The volume with the two counters of a process; `boot` counts the processes that there have been. -/
structure DlqHost where
  volume : Volume DlqPath := {}
  dlqSeq : Nat := 0
  tmpCounter : Nat := 0
  pid : Nat
  boot : Nat := 0

structure DlqWorld (Batch : Type) where
  host : DlqHost
  calls : List (DlqCall Batch) := []

/-- What the operating system or the blocking task answers, what the clock says, and how much of a write reaches the
    file where that is not all: `write_all` returns once the last bytes are buffered, and `sync_all` waits for their
    write but does not say that it failed. -/
structure DlqChoice where
  outcome : Except Text Unit := .ok ()
  millis : Nat := 0
  written : Option Nat := none
  deriving DecidableEq, Repr

def DlqChoice.reached (choice : DlqChoice) (buf : List UInt8) : List UInt8 :=
  match choice.written with
  | none => buf
  | some count => buf.take count

/-- A send starts or goes on, or the process ends and another one starts, after a crash of the machine if that left a
    volume. -/
inductive DlqAction (Batch : Type) where
  | send (sink : FileDlqSink) (signal : SignalKind) (batch : Batch)
  | act (index : Nat) (choice : DlqChoice)
  | restart (survivor : Option (Volume DlqPath)) (pid : Nat)

def fileName (signal : SignalKind) (stamp : DlqStamp) : Text :=
  signal.asStr ++ '_' :: (Nat.toDigits 10 stamp.millis ++ '_' :: (Nat.toDigits 10 stamp.seq ++ ".arrow".toList))

def tempName (signal : SignalKind) (stamp : DlqStamp) (pid tmp : Nat) : Text :=
  ".tmp_".toList ++ signal.asStr ++ '_' :: (Nat.toDigits 10 stamp.millis ++ '_' :: (Nat.toDigits 10 stamp.seq ++
    '_' :: (Nat.toDigits 10 pid ++ '_' :: (Nat.toDigits 10 tmp ++ ".arrow".toList))))

namespace DlqCall

variable {Batch : Type}

def filePath (call : DlqCall Batch) (stamp : DlqStamp) : DlqPath := ⟨call.sink.dlqDir, fileName call.signal stamp⟩

def tempFilePath (call : DlqCall Batch) (stamp : DlqStamp) (pid tmp : Nat) : DlqPath :=
  ⟨call.sink.dlqDir, tempName call.signal stamp pid tmp⟩

def enter (call : DlqCall Batch) (phase : DlqPhase) : DlqCall Batch := { call with phase := phase }

def fail (call : DlqCall Batch) (text : Text) : DlqCall Batch := call.enter (.failed (.internal text))

def failPersist (call : DlqCall Batch) (stamp : DlqStamp) (error : Text) : DlqCall Batch :=
  call.fail ("Failed to persist DLQ batch to ".toList ++ (call.filePath stamp).display ++ ": ".toList ++ error)

def persist (host : DlqHost) (call : DlqCall Batch) (stamp : DlqStamp) (choice : DlqChoice) :
    Option (DlqHost × DlqCall Batch) :=
  let withVolume (volume : Volume DlqPath) : DlqHost := { host with volume := volume }
  match call.phase, choice.outcome with
  | .create buf tmp, .ok () =>
    match host.volume.createNew (call.tempFilePath stamp host.pid tmp) with
    | some (volume, inode) => some (withVolume volume, call.enter (.write buf tmp inode))
    | none => some (host, call.failPersist stamp "File exists (os error 17)".toList)
  | .create .., .error error => some (host, call.failPersist stamp error)
  | .write buf tmp inode, .ok () =>
    some (withVolume (host.volume.append inode (choice.reached buf)), call.enter (.sync buf tmp inode))
  | .write buf tmp inode, .error error =>
    some (withVolume (host.volume.append inode (choice.reached buf)), call.enter (.remove tmp error))
  | .sync buf tmp inode, .ok () => some (withVolume (host.volume.syncFile inode), call.enter (.rename buf tmp))
  | .sync _ tmp _, .error error => some (host, call.enter (.remove tmp error))
  | .rename _ tmp, .ok () =>
    match host.volume.rename (call.tempFilePath stamp host.pid tmp) (call.filePath stamp) with
    | some volume => some (withVolume volume, call.enter .openDir)
    | none => some (host, call.enter (.remove tmp "No such file or directory (os error 2)".toList))
  | .rename _ tmp, .error error => some (host, call.enter (.remove tmp error))
  | .remove tmp error, .ok () =>
    some (withVolume ((host.volume.remove (call.tempFilePath stamp host.pid tmp)).getD host.volume),
      call.failPersist stamp error)
  | .remove _ error, .error _ => some (host, call.failPersist stamp error)
  | .openDir, .ok () => some (host, call.enter .syncDir)
  | .openDir, .error error =>
    some (host, call.failPersist stamp ("Failed to open DLQ directory ".toList ++ call.sink.dlqDir ++
      " for sync: ".toList ++ error))
  | .syncDir, .ok () =>
    some (withVolume (host.volume.syncDir fun path => path.dir == call.sink.dlqDir), call.enter .succeeded)
  | .syncDir, .error error =>
    some (host, call.failPersist stamp ("Failed to sync DLQ directory ".toList ++ call.sink.dlqDir ++
      ": ".toList ++ error))
  | _, _ => none

def act (encode : Batch → Except Text (List UInt8)) (host : DlqHost) (call : DlqCall Batch) (choice : DlqChoice) :
    Option (DlqHost × DlqCall Batch) :=
  match call.phase with
  | .createDir =>
    match choice.outcome with
    | .ok () => some (host, call.enter .fetchSeq)
    | .error error =>
      some (host, call.fail ("Failed to create DLQ directory ".toList ++ call.sink.dlqDir ++ ": ".toList ++ error))
  | .fetchSeq =>
    some ({ host with dlqSeq := host.dlqSeq + 1 },
      { call with stamp := some ⟨host.boot, choice.millis, host.dlqSeq⟩, phase := .encode })
  | .encode =>
    match choice.outcome, encode call.batch with
    | .ok (), .ok buf => some (host, call.enter (.fetchTmp buf))
    | .ok (), .error error => some (host, call.fail ("Failed to serialize DLQ batch to Arrow IPC: ".toList ++ error))
    | .error error, _ => some (host, call.fail ("DLQ serialization blocking task failed: ".toList ++ error))
  | .fetchTmp buf =>
    some ({ host with tmpCounter := host.tmpCounter + 1 }, call.enter (.create buf host.tmpCounter))
  | _ => call.stamp.bind fun stamp => call.persist host stamp choice

def abort (call : DlqCall Batch) : DlqCall Batch :=
  match call.phase with
  | .succeeded | .failed _ => call
  | _ => call.enter .aborted

end DlqCall

namespace DlqWorld

variable {Batch : Type}

def step (encode : Batch → Except Text (List UInt8)) (world : DlqWorld Batch) : DlqAction Batch → Option (DlqWorld Batch)
  | .send sink signal batch => some { world with calls := world.calls ++ [{ sink, signal, batch }] }
  | .act index choice =>
    (world.calls[index]?).bind fun call =>
      (call.act encode world.host choice).map fun (host, next) => ⟨host, world.calls.set index next⟩
  | .restart survivor pid =>
    some ⟨{ volume := survivor.getD world.host.volume, pid := pid, boot := world.host.boot + 1 },
      world.calls.map DlqCall.abort⟩

/-- A volume that a crash leaves is one that it may leave. -/
def Possible (world : DlqWorld Batch) : DlqAction Batch → Prop
  | .restart (some survivor) _ => world.host.volume.Crashed survivor
  | _ => True

/-- A write that is not refused has reached the file when its send goes on. -/
def Reported (world : DlqWorld Batch) : DlqAction Batch → Prop
  | .act index choice => ∀ call ∈ world.calls[index]?, ∀ buf tmp inode, call.phase = .write buf tmp inode →
      choice.outcome = .ok () → choice.written = none
  | _ => True

/-- The first process, on a volume without files. The directories that `create_dir_all` makes are not synced into their
    parents: those whose own entries are durable all the same are `lasting`. -/
def booted (lasting : Text → Bool) (pid : Nat) : DlqWorld Batch :=
  { host := { volume := { lasting := fun path => lasting path.dir }, pid := pid } }

end DlqWorld

end OtelDatalake.Pipeline
