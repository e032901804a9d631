import OtelDatalake.Foundation.Effect
import OtelDatalake.Disk.Recovery

open Std OtelDatalake.Foundation OtelDatalake.Buffer

namespace OtelDatalake.Disk

variable {Batch : Type} [RecordBatch Batch]

/-- The arguments of `writer_loop` that stay the same. -/
structure WriterConfig where
  dir : String
  segmentSizeBytes : Nat
  maxPayloadLen : Nat
  syncOnWrite : Bool
  deriving DecidableEq, Repr

def segmentFileName (segmentId : Nat) : String :=
  let digits := toString segmentId
  "segment-" ++ "".pushn '0' (20 - digits.length) ++ digits ++ ".bin"

def segmentPath (config : WriterConfig) (segmentId : Nat) : String :=
  config.dir ++ "/" ++ segmentFileName segmentId

structure ActiveSegment where
  segmentId : Nat
  bytesWritten : Nat := 0
  maxSeq : SignalKind → Nat := fun _ => 0
  hasFrames : Bool := false

namespace ActiveSegment

def sealedMeta (segment : ActiveSegment) : SealedSegmentMeta :=
  { segmentId := segment.segmentId, maxSeq := segment.maxSeq, hasFrames := segment.hasFrames }

def grown (segment : ActiveSegment) (signal : SignalKind) (seqId frameLen : Nat) : ActiveSegment :=
  { segment with
    bytesWritten := segment.bytesWritten + frameLen
    maxSeq := fun other =>
      if other = signal then max (segment.maxSeq signal) seqId else segment.maxSeq other
    hasFrames := true }

/-- The frame does not fit behind the ones that are there. -/
def rolls (segment : ActiveSegment) (config : WriterConfig) (frameLen : Nat) : Bool :=
  segment.bytesWritten > 0 && segment.bytesWritten + frameLen > config.segmentSizeBytes

end ActiveSegment

/-- The variables of `writer_loop` that `write_encoded_frame` changes. -/
structure SegmentWriter where
  active : Option ActiveSegment := none
  sealedSegments : List SealedSegmentMeta := []
  nextSegmentId : Nat

/-- The errors of the system calls of one append; `write` says how many bytes came before it. -/
structure WriteFaults where
  rollSync : Option String := none
  create : Option String := none
  write : Option (Nat × String) := none
  sealSync : Option String := none
  unlinks : Nat → Bool := fun _ => true

/-- The segments that are kept, and the removals that succeed. -/
def gcSealedSegments (sealedSegments : List SealedSegmentMeta) (watermark : DiskWatermark) (unlinks : Nat → Bool) :
    List SealedSegmentMeta × List FsOp :=
  (sealedSegments.filter fun segment => !segment.isFullyAcked watermark,
    (sealedSegments.filter fun segment => segment.isFullyAcked watermark && unlinks segment.segmentId).map
      fun segment => .unlink segment.segmentId)

/-- `active_segment.take()`, the sync of its file and the garbage collection with it among the sealed ones. -/
def sealActive (watermark : DiskWatermark) (sync : Option String) (unlinks : Nat → Bool)
    (segment : ActiveSegment) : Effect SegmentWriter FsOp Unit := do
  let writer ← Effect.get
  Effect.set { writer with active := none }
  Effect.check sync fun reason => s!"failed to sync sealed segment: {reason}"
  let collected := gcSealedSegments (writer.sealedSegments ++ [segment.sealedMeta]) watermark unlinks
  Effect.set { writer with active := none, sealedSegments := collected.1 }
  Effect.emit (.sync segment.segmentId :: collected.2)

/-- The frame with its number, if its length and row count are as they should be. -/
def numberFrame (codec : Codec Batch) (config : WriterConfig) (signal : SignalKind) (seqId rows : Nat)
    (frameBytes : Bytes) : Except String Bytes :=
  if frameBytes.length < frameHeaderLen then
    .error s!"encoded OTLB frame shorter than {frameHeaderLen}-byte header ({frameBytes.length} bytes)"
  else
    let payloadLen := frameBytes.length - frameHeaderLen
    if payloadLen > u32Max then .error "frame payload length overflow"
    else if payloadLen > config.maxPayloadLen then
      .error s!"OTLB frame payload_len ({payloadLen}) exceeds max_payload_len ({config.maxPayloadLen})"
    else
      let hdrRows := ofLe (slice 16 4 frameBytes)
      if hdrRows ≠ rows then
        .error s!"OTLB frame header row_count ({hdrRows}) does not match expected rows ({rows})"
      else
        match patchFrameSeqId codec frameBytes
          { signal := signal, seqId := 0, rowCount := hdrRows, payloadLen := payloadLen, crc32 := 0 } seqId with
        | .error reason => .error reason
        | .ok (bytes, _) => if bytes.length > u32Max then .error "frame length overflow" else .ok bytes

section Write

variable (config : WriterConfig) (watermark : DiskWatermark) (faults : WriteFaults)

def rollSegment (frameLen : Nat) : Effect SegmentWriter FsOp Unit := do
  let writer ← Effect.get
  match writer.active with
  | none => pure ()
  | some segment =>
    if segment.rolls config frameLen then sealActive watermark faults.rollSync faults.unlinks segment else pure ()

def openSegment : Effect SegmentWriter FsOp ActiveSegment := do
  let writer ← Effect.get
  match writer.active with
  | some segment => pure segment
  | none =>
    Effect.set { writer with nextSegmentId := saturatingSucc writer.nextSegmentId }
    Effect.check faults.create fun reason =>
      s!"failed to create segment '{segmentPath config writer.nextSegmentId}': {reason}"
    Effect.emit [.create writer.nextSegmentId]
    let segment : ActiveSegment := { segmentId := writer.nextSegmentId }
    Effect.set { writer with nextSegmentId := saturatingSucc writer.nextSegmentId, active := some segment }
    pure segment

/-- `write_all` of a frame: an error comes after a proper part of it. -/
def writeFrame (signal : SignalKind) (seqId : Nat) (bytes : Bytes) (segment : ActiveSegment) :
    Effect SegmentWriter FsOp ActiveSegment := do
  match faults.write.filter fun fault => fault.1 < bytes.length with
  | some (count, reason) =>
    Effect.emit [.write segment.segmentId (bytes.take count)]
    Effect.fail s!"failed to write to segment '{segmentPath config segment.segmentId}': {reason}"
  | none =>
    Effect.emit [.write segment.segmentId bytes]
    let writer ← Effect.get
    let grown := segment.grown signal seqId bytes.length
    Effect.set { writer with active := some grown }
    pure grown

def sealFull (segment : ActiveSegment) : Effect SegmentWriter FsOp Unit :=
  if segment.bytesWritten ≥ config.segmentSizeBytes then
    sealActive watermark faults.sealSync faults.unlinks segment
  else pure ()

/-- The part of `write_encoded_frame` behind its checks. -/
def storeFrame (signal : SignalKind) (seqId : Nat) (bytes : Bytes) : Effect SegmentWriter FsOp WrittenFrame := do
  rollSegment config watermark faults bytes.length
  let segment ← openSegment config faults
  let grown ← writeFrame config faults signal seqId bytes segment
  sealFull config watermark faults grown
  pure { segmentId := segment.segmentId, offset := segment.bytesWritten, len := bytes.length }

def writeEncodedFrame (codec : Codec Batch) (signal : SignalKind) (seqId rows : Nat) (frameBytes : Bytes) :
    Effect SegmentWriter FsOp WrittenFrame :=
  match numberFrame codec config signal seqId rows frameBytes with
  | .error reason => Effect.fail reason
  | .ok bytes => storeFrame config watermark faults signal seqId bytes

end Write

section Stages

variable {config : WriterConfig} {watermark : DiskWatermark} {faults : WriteFaults} {segments : SegmentWriter}
  {segment : ActiveSegment}

theorem sealActive_error {sync : Option String} (unlinks : Nat → Bool) {reason : String}
    (failed : sync = some reason) :
    sealActive watermark sync unlinks segment segments =
      (.error s!"failed to sync sealed segment: {reason}", { segments with active := none }, []) := by
  subst failed
  rfl

theorem sealActive_ok {sync : Option String} (unlinks : Nat → Bool) (synced : sync = none) :
    sealActive watermark sync unlinks segment segments =
      (.ok (),
        { segments with
          active := none
          sealedSegments := (gcSealedSegments (segments.sealedSegments ++ [segment.sealedMeta]) watermark unlinks).1 },
        .sync segment.segmentId ::
          (gcSealedSegments (segments.sealedSegments ++ [segment.sealedMeta]) watermark unlinks).2) := by
  subst synced
  rfl

theorem rollSegment_stay {frameLen : Nat}
    (stays : ∀ segment ∈ segments.active, segment.rolls config frameLen = false) :
    rollSegment config watermark faults frameLen segments = (.ok (), segments, []) := by
  simp only [rollSegment, Bind.bind, Effect.get]
  cases current : segments.active with
  | none => rfl
  | some segment =>
    rw [current] at stays
    simp only [stays segment rfl]
    rfl

theorem rollSegment_seal {frameLen : Nat} (current : segments.active = some segment)
    (rolls : segment.rolls config frameLen = true) :
    rollSegment config watermark faults frameLen segments =
      sealActive watermark faults.rollSync faults.unlinks segment segments := by
  simp only [rollSegment, Bind.bind, Effect.get, current, rolls]
  rfl

theorem openSegment_active (current : segments.active = some segment) :
    openSegment config faults segments = (.ok segment, segments, []) := by
  simp only [openSegment, Bind.bind, Effect.get, current]
  rfl

theorem openSegment_error {reason : String} (idle : segments.active = none) (failed : faults.create = some reason) :
    openSegment config faults segments =
      (.error s!"failed to create segment '{segmentPath config segments.nextSegmentId}': {reason}",
        { segments with nextSegmentId := saturatingSucc segments.nextSegmentId }, []) := by
  simp only [openSegment, Bind.bind, Effect.get, idle, failed]
  rfl

theorem openSegment_create (idle : segments.active = none) (created : faults.create = none) :
    openSegment config faults segments =
      (.ok { segmentId := segments.nextSegmentId },
        { segments with
          nextSegmentId := saturatingSucc segments.nextSegmentId
          active := some { segmentId := segments.nextSegmentId } }, [.create segments.nextSegmentId]) := by
  simp only [openSegment, Bind.bind, Effect.get, idle, created]
  rfl

theorem writeFrame_error {signal : SignalKind} {seqId count : Nat} {bytes : Bytes} {reason : String}
    (failed : faults.write = some (count, reason)) (short : count < bytes.length) :
    writeFrame config faults signal seqId bytes segment segments =
      (.error s!"failed to write to segment '{segmentPath config segment.segmentId}': {reason}", segments,
        [.write segment.segmentId (bytes.take count)]) := by
  have kept : (faults.write.filter fun fault => fault.1 < bytes.length) = some (count, reason) := by
    simp [failed, Option.filter, short]
  simp only [writeFrame, kept]
  rfl

theorem writeFrame_ok {signal : SignalKind} {seqId : Nat} {bytes : Bytes}
    (whole : ∀ fault ∈ faults.write, bytes.length ≤ fault.1) :
    writeFrame config faults signal seqId bytes segment segments =
      (.ok (segment.grown signal seqId bytes.length),
        { segments with active := some (segment.grown signal seqId bytes.length) },
        [.write segment.segmentId bytes]) := by
  have none : (faults.write.filter fun fault => fault.1 < bytes.length) = none := by
    rw [Option.filter_eq_none_iff]
    intro fault member
    simpa using whole fault member
  simp only [writeFrame, none]
  rfl

theorem writeFrame_cases (faults : WriteFaults) (bytes : Bytes) :
    (∃ count reason, faults.write = some (count, reason) ∧ count < bytes.length) ∨
      ∀ fault ∈ faults.write, bytes.length ≤ fault.1 := by
  cases failed : faults.write with
  | none => exact Or.inr fun fault member => absurd member (Option.not_mem_none _)
  | some fault =>
    by_cases short : fault.1 < bytes.length
    · exact Or.inl ⟨fault.1, fault.2, rfl, short⟩
    · refine Or.inr fun other member => ?_
      cases member
      exact Nat.not_lt.mp short

end Stages

/-- A frame that was encoded with the number 0 and the number that the writer is to give it. -/
structure AppendRequest (codec : Codec Batch) where
  frame : Frame codec
  seqId : Nat
  numbered : seqId ≤ u64Max

namespace AppendRequest

variable {codec : Codec Batch}

def signal (request : AppendRequest codec) : SignalKind := request.frame.signal

def stored (request : AppendRequest codec) : Frame codec :=
  { request.frame with seqId := request.seqId, seqFits := request.numbered }

end AppendRequest

inductive WriterCommand (codec : Codec Batch) where
  | appendEncoded (request : AppendRequest codec)
  | updateWatermark (watermark : DiskWatermark)
  | flushWatermark (watermark : DiskWatermark)
  | shutdown

abbrev AppendReply (codec : Codec Batch) := AppendRequest codec × Except String WrittenFrame

structure BatchProgress (codec : Codec Batch) where
  appendReplies : List (AppendReply codec) := []
  watermarkDirty : Bool := false
  forceSyncSegment : Bool := false
  shouldShutdown : Bool := false

inductive WriterPhase (codec : Codec Batch) where
  | waiting
  | processing (todo : List (WriterCommand codec)) (progress : BatchProgress codec)
  | replying (replies : List (AppendReply codec)) (syncErr : Option String) (watermarkDirty shouldShutdown : Bool)
  | leaving
  | stopped

structure LoggedFrame where
  segmentId : Nat
  signal : SignalKind
  seqId : Nat
  deriving DecidableEq, Repr

/-- The writer thread with the channel it reads; `answers` and `log` record what it has answered and written. -/
structure Writer (codec : Codec Batch) where
  channel : List (WriterCommand codec) := []
  phase : WriterPhase codec := .waiting
  segments : SegmentWriter
  persistedWatermark : DiskWatermark
  stagedWatermark : DiskWatermark
  answers : List (AppendReply codec) := []
  log : List LoggedFrame := []

inductive WriterAction (codec : Codec Batch) where
  | submit (command : WriterCommand codec)
  | receive
  | process (faults : WriteFaults)
  | sync (fault : Option String)
  | reply
  | persist (fault : Option String) (unlinks : Nat → Bool)
  | leave (fault : Option String)
  | abandon

def AppendRequest.logged {codec : Codec Batch} (request : AppendRequest codec) : FsOp → Option LoggedFrame
  | .write segmentId bytes =>
    if bytes = request.stored.bytes then
      some { segmentId := segmentId, signal := request.signal, seqId := request.seqId }
    else none
  | _ => none

namespace Writer

variable {codec : Codec Batch}

def written (writer : Writer codec) (ops : List FsOp) : List LoggedFrame :=
  match writer.phase with
  | .processing (.appendEncoded request :: _) _ => ops.filterMap request.logged
  | _ => []

def processCommand (config : WriterConfig) (writer : Writer codec) (faults : WriteFaults)
    (todo : List (WriterCommand codec)) (progress : BatchProgress codec) :
    WriterCommand codec → Writer codec × List FsOp
  | .appendEncoded request =>
    let written := writeEncodedFrame config writer.persistedWatermark faults codec request.signal request.seqId
      request.frame.header.rowCount request.frame.bytes writer.segments
    ({ writer with
       segments := written.2.1
       log := writer.log ++ written.2.2.filterMap request.logged
       phase := .processing todo
         { progress with appendReplies := progress.appendReplies ++ [(request, written.1)] } }, written.2.2)
  | .updateWatermark watermark =>
    let merged := writer.stagedWatermark.mergeMonotonic watermark
    ({ writer with
       stagedWatermark := merged.1
       phase := .processing todo { progress with watermarkDirty := progress.watermarkDirty || merged.2 } }, [])
  | .flushWatermark watermark =>
    ({ writer with
       stagedWatermark := (writer.stagedWatermark.mergeMonotonic watermark).1
       phase := .processing todo { progress with watermarkDirty := true, forceSyncSegment := true } }, [])
  | .shutdown => ({ writer with phase := .processing todo { progress with shouldShutdown := true } }, [])

/-- The segment that the end of a batch syncs. -/
def syncDue (config : WriterConfig) (writer : Writer codec) (progress : BatchProgress codec) :
    Option ActiveSegment :=
  if (!progress.appendReplies.isEmpty && config.syncOnWrite) || progress.forceSyncSegment then
    writer.segments.active
  else none

/-- The answer that is sent: an error of the sync takes precedence. -/
def finalAnswer (syncErr : Option String) (result : Except String WrittenFrame) : Except String WrittenFrame :=
  match syncErr with
  | some reason => .error reason
  | none => result

/-- The end of a batch: the watermark is replaced and segments are collected, or the staged one is dropped. -/
def persistWatermark (writer : Writer codec) (syncErr fault : Option String) (unlinks : Nat → Bool) :
    Writer codec × List FsOp :=
  match syncErr.or fault with
  | some _ => ({ writer with stagedWatermark := writer.persistedWatermark }, [])
  | none =>
    let collected := gcSealedSegments writer.segments.sealedSegments writer.stagedWatermark unlinks
    ({ writer with
       persistedWatermark := writer.stagedWatermark
       segments := { writer.segments with sealedSegments := collected.1 } },
      .replaceWatermark writer.stagedWatermark :: collected.2)

def abandoned : WriterCommand codec → List (AppendReply codec)
  | .appendEncoded request => [(request, .error "disk buffer writer thread dropped append reply")]
  | _ => []

/-- One step of the writer thread, or of a task that sends to it, and what it does to the directory. Runs end where the
    next segment would get the id `u64::MAX`. -/
def transition (config : WriterConfig) (writer : Writer codec) :
    WriterAction codec → Option (Writer codec × List FsOp)
  | .submit command => some ({ writer with channel := writer.channel ++ [command] }, [])
  | .receive =>
    match writer.phase, writer.channel with
    | .waiting, _ :: _ =>
      some ({ writer with
        channel := writer.channel.drop 64
        phase := .processing (writer.channel.take 64) {} }, [])
    | _, _ => none
  | .process faults =>
    match writer.phase with
    | .processing (command :: todo) progress =>
      if writer.segments.nextSegmentId < u64Max then some (writer.processCommand config faults todo progress command)
      else none
    | _ => none
  | .sync fault =>
    match writer.phase with
    | .processing [] progress =>
      match writer.syncDue config progress with
      | none =>
        some ({ writer with
          phase := .replying progress.appendReplies none progress.watermarkDirty progress.shouldShutdown }, [])
      | some segment =>
        let syncErr := fault.map fun reason =>
          s!"failed to sync active segment '{segmentPath config segment.segmentId}': {reason}"
        some ({ writer with
          phase := .replying progress.appendReplies syncErr progress.watermarkDirty progress.shouldShutdown },
          if fault.isSome then [] else [.sync segment.segmentId])
    | _ => none
  | .reply =>
    match writer.phase with
    | .replying (reply :: replies) syncErr watermarkDirty shouldShutdown =>
      some ({ writer with
        phase := .replying replies syncErr watermarkDirty shouldShutdown
        answers := writer.answers ++ [(reply.1, finalAnswer syncErr reply.2)] }, [])
    | _ => none
  | .persist fault unlinks =>
    match writer.phase with
    | .replying [] syncErr watermarkDirty shouldShutdown =>
      let persisted := if watermarkDirty then writer.persistWatermark syncErr fault unlinks else (writer, [])
      some ({ persisted.1 with phase := if shouldShutdown then .leaving else .waiting }, persisted.2)
    | _ => none
  | .leave fault =>
    let left := ({ writer with phase := .stopped, segments := { writer.segments with active := none } },
      match writer.segments.active, fault with
      | some segment, none => [.sync segment.segmentId]
      | _, _ => [])
    match writer.phase, writer.channel with
    | .leaving, _ => some left
    | .waiting, [] => some left
    | _, _ => none
  | .abandon =>
    match writer.phase, writer.channel with
    | .stopped, command :: rest =>
      some ({ writer with channel := rest, answers := writer.answers ++ abandoned command }, [])
    | _, _ => none

inductive Moves (config : WriterConfig) (writer : Writer codec) :
    WriterAction codec → Writer codec → List FsOp → Prop where
  | submit (command : WriterCommand codec) :
      Moves config writer (.submit command) { writer with channel := writer.channel ++ [command] } []
  | receive (phase : writer.phase = .waiting) :
      Moves config writer .receive
        { writer with channel := writer.channel.drop 64, phase := .processing (writer.channel.take 64) {} } []
  | process {faults : WriteFaults} {command : WriterCommand codec} {todo : List (WriterCommand codec)}
      {progress : BatchProgress codec} (phase : writer.phase = .processing (command :: todo) progress)
      (numbered : writer.segments.nextSegmentId < u64Max) :
      Moves config writer (.process faults) (writer.processCommand config faults todo progress command).1
        (writer.processCommand config faults todo progress command).2
  | unsynced {fault : Option String} {progress : BatchProgress codec}
      (phase : writer.phase = .processing [] progress) (due : writer.syncDue config progress = none) :
      Moves config writer (.sync fault)
        { writer with
          phase := .replying progress.appendReplies none progress.watermarkDirty progress.shouldShutdown } []
  | synced {progress : BatchProgress codec} {segment : ActiveSegment}
      (phase : writer.phase = .processing [] progress) (due : writer.syncDue config progress = some segment) :
      Moves config writer (.sync none)
        { writer with
          phase := .replying progress.appendReplies none progress.watermarkDirty progress.shouldShutdown }
        [.sync segment.segmentId]
  | syncFailed {progress : BatchProgress codec} {reason message : String}
      (phase : writer.phase = .processing [] progress) :
      Moves config writer (.sync (some reason))
        { writer with
          phase := .replying progress.appendReplies (some message) progress.watermarkDirty progress.shouldShutdown }
        []
  | reply {reply : AppendReply codec} {replies : List (AppendReply codec)} {syncErr : Option String}
      {dirty shutdown : Bool} (phase : writer.phase = .replying (reply :: replies) syncErr dirty shutdown) :
      Moves config writer .reply
        { writer with
          phase := .replying replies syncErr dirty shutdown
          answers := writer.answers ++ [(reply.1, finalAnswer syncErr reply.2)] } []
  | persist {fault : Option String} {unlinks : Nat → Bool} {syncErr : Option String} {shutdown : Bool}
      (phase : writer.phase = .replying [] syncErr true shutdown) :
      Moves config writer (.persist fault unlinks)
        { (writer.persistWatermark syncErr fault unlinks).1 with phase := if shutdown then .leaving else .waiting }
        (writer.persistWatermark syncErr fault unlinks).2
  | clean {fault : Option String} {unlinks : Nat → Bool} {syncErr : Option String} {shutdown : Bool}
      (phase : writer.phase = .replying [] syncErr false shutdown) :
      Moves config writer (.persist fault unlinks)
        { writer with phase := if shutdown then .leaving else .waiting } []
  | leave {fault : Option String} {ops : List FsOp} (phase : writer.phase = .leaving ∨ writer.phase = .waiting)
      (sync : ops = [] ∨ ∃ segment, writer.segments.active = some segment ∧ ops = [.sync segment.segmentId]) :
      Moves config writer (.leave fault)
        { writer with phase := .stopped, segments := { writer.segments with active := none } } ops
  | abandon {command : WriterCommand codec} {rest : List (WriterCommand codec)}
      (phase : writer.phase = .stopped) (channel : writer.channel = command :: rest) :
      Moves config writer .abandon
        { writer with channel := rest, answers := writer.answers ++ abandoned command } []

theorem moves_of_transition {config : WriterConfig} {writer next : Writer codec} {action : WriterAction codec}
    {ops : List FsOp} (moved : writer.transition config action = some (next, ops)) :
    Moves config writer action next ops := by
  cases action with
  | submit command =>
    cases moved
    exact .submit command
  | receive =>
    simp only [transition] at moved
    split at moved
    · rename_i phase _
      cases moved
      exact .receive phase
    · cases moved
  | process faults =>
    simp only [transition] at moved
    split at moved
    · rename_i phase
      split at moved
      · rename_i numbered
        rw [Option.some.injEq, Prod.ext_iff] at moved
        obtain ⟨rfl, rfl⟩ := moved
        exact .process phase numbered
      · cases moved
    · cases moved
  | sync fault =>
    simp only [transition] at moved
    split at moved
    · rename_i progress phase
      split at moved
      · rename_i due
        cases moved
        exact .unsynced phase due
      · rename_i segment due
        cases fault with
        | none =>
          cases moved
          exact .synced phase due
        | some reason =>
          cases moved
          exact .syncFailed phase
    · cases moved
  | reply =>
    simp only [transition] at moved
    split at moved
    · rename_i phase
      cases moved
      exact .reply phase
    · cases moved
  | persist fault unlinks =>
    simp only [transition] at moved
    split at moved
    · rename_i syncErr dirty shutdown phase
      cases dirty with
      | true =>
        cases moved
        exact .persist phase
      | false =>
        cases moved
        exact .clean phase
    · cases moved
  | leave fault =>
    have sync : ∀ result, result = (match writer.segments.active, fault with
        | some segment, none => [FsOp.sync segment.segmentId]
        | _, _ => []) → result = [] ∨ ∃ segment, writer.segments.active = some segment ∧
          result = [.sync segment.segmentId] := by
      rintro result rfl
      split
      · rename_i segment current
        exact Or.inr ⟨segment, current, rfl⟩
      · exact Or.inl rfl
    simp only [transition] at moved
    split at moved
    · rename_i phase
      rw [Option.some.injEq, Prod.mk.injEq] at moved
      obtain ⟨rfl, equal⟩ := moved
      exact .leave (Or.inl phase) (sync ops equal.symm)
    · rename_i phase _
      rw [Option.some.injEq, Prod.mk.injEq] at moved
      obtain ⟨rfl, equal⟩ := moved
      exact .leave (Or.inr phase) (sync ops equal.symm)
    · cases moved
  | abandon =>
    simp only [transition] at moved
    split at moved
    · rename_i phase channel
      cases moved
      exact .abandon phase channel
    · cases moved

end Writer

structure WriterWorld (codec : Codec Batch) where
  writer : Writer codec
  dir : Directory

def WriterWorld.step {codec : Codec Batch} (config : WriterConfig) (world : WriterWorld codec)
    (action : WriterAction codec) : Option (WriterWorld codec) :=
  (world.writer.transition config action).map fun moved =>
    { writer := moved.1, dir := world.dir.applyAll moved.2 }

def readFrameAt (codec : Codec Batch) (config : WriterConfig) (dir : Directory) (written : WrittenFrame) :
    Except String Batch :=
  let path := segmentPath config written.segmentId
  match dir.segments[written.segmentId]? with
  | none => .error s!"failed to open segment {path} for lease prepare"
  | some file =>
    match decodeFrame codec (slice written.offset written.len file.bytes)
      (max config.maxPayloadLen (written.len - frameHeaderLen)) with
    | .ok (some (_, batch)) => .ok batch
    | .ok none => .error s!"unexpected EOF reading frame at offset {written.offset} in {path}"
    | .error error =>
      .error s!"failed to decode frame at offset {written.offset} in {path}: {error.message}"

end OtelDatalake.Disk
