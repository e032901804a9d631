import OtelDatalake.Disk.Containment
import OtelDatalake.Disk.Writer

open Std OtelDatalake.Foundation OtelDatalake.Buffer

namespace OtelDatalake.Disk

variable {Batch : Type} [RecordBatch Batch]

def WriterConfig.ofBuffer (dir : String) (config : BufferConfig) : WriterConfig :=
  { dir := dir
    segmentSizeBytes := config.segmentSizeBytes
    maxPayloadLen := config.maxDiskFramePayloadBytes
    syncOnWrite := config.syncOnWrite }

/-- The watermark of the directory, which gets an instance id if it has none. -/
def loadInitialWatermark (generatedId : Nat) (dir : Directory) : DiskWatermark × Directory :=
  let watermark := dir.watermark.getD {}
  if watermark.instanceId = 0 then
    let named := { watermark with instanceId := generatedId }
    (named, dir.apply (.replaceWatermark named))
  else (watermark, dir)

def restoredRings (watermark : DiskWatermark) : Rings Batch := fun signal => .restored (watermark.forSignal signal)

/-- A segment file after its scan; a truncated one has been synced. -/
def SegmentFile.recovered (file : SegmentFile) (bytes : Bytes) : SegmentFile :=
  if bytes.length = file.bytes.length then file else { bytes := bytes, synced := bytes.length }

theorem SegmentFile.recovered_bytes (file : SegmentFile) {bytes : Bytes} (part : bytes <+: file.bytes) :
    (file.recovered bytes).bytes = bytes := by
  unfold SegmentFile.recovered
  split
  · rename_i long
    exact (part.eq_of_length long).symm
  · rfl

/-- The backend that `open_and_recover` hands to the writer thread, with the rings it has filled. -/
structure OpenedBackend (Batch : Type) [RecordBatch Batch] where
  rings : Rings Batch
  segments : SegmentWriter
  watermark : DiskWatermark
  dir : Directory

section Recover

variable (codec : Codec Batch) (maxPayloadLen : Nat) (watermark : DiskWatermark) (now : Instant)

/-- The scan of one segment; only its rings depend on the rings before it. -/
def recoverEntry (rings : Rings Batch) (entry : Nat × SegmentFile) : RecoveredSegment Batch :=
  recoverSingleSegment codec entry.1 maxPayloadLen watermark now rings entry.2.bytes

/-- `recover_segments`; `unlinks` says which obsolete segments can be removed. -/
def recoverSegments (unlinks : Nat → Bool) (rings : Rings Batch) (dir : Directory) : OpenedBackend Batch :=
  let entries := dir.segments.toList
  let scanned := entries.foldl (fun rings entry => (recoverEntry codec maxPayloadLen watermark now rings entry).rings)
    rings
  let advanced : Rings Batch := fun signal => (scanned signal).advanced (scanned signal).ring
  let merged := watermark.mergeMonotonic (.fromRings watermark.instanceId advanced)
  { rings := advanced
    segments :=
      { sealedSegments := entries.filterMap fun entry =>
          (recoverEntry codec maxPayloadLen watermark now rings entry).segment
        nextSegmentId := saturatingSucc ((entries.map Prod.fst).foldl max 0) }
    watermark := merged.1
    dir :=
      { segments := dir.segments.filterMap fun segmentId file =>
          let outcome := recoverEntry codec maxPayloadLen watermark now rings (segmentId, file)
          if outcome.segment.isSome || !unlinks segmentId then some (file.recovered outcome.file) else none
        watermark := if merged.2 then some merged.1 else dir.watermark } }

end Recover

def openAndRecover (codec : Codec Batch) (maxPayloadLen generatedId : Nat) (now : Instant) (unlinks : Nat → Bool)
    (dir : Directory) : OpenedBackend Batch :=
  let loaded := loadInitialWatermark generatedId dir
  recoverSegments codec maxPayloadLen loaded.1 now unlinks (restoredRings loaded.1) loaded.2

theorem loadInitialWatermark_segments (generatedId : Nat) (dir : Directory) :
    (loadInitialWatermark generatedId dir).2.segments = dir.segments := by
  simp only [loadInitialWatermark]
  split <;> rfl

theorem loadInitialWatermark_watermark (generatedId : Nat) (dir : Directory) :
    (loadInitialWatermark generatedId dir).2.watermark = some (loadInitialWatermark generatedId dir).1 := by
  simp only [loadInitialWatermark]
  split
  · rfl
  · rename_i named
    cases stored : dir.watermark with
    | none =>
      rw [stored] at named
      exact absurd rfl named
    | some watermark => rfl

@[simp] theorem loadInitialWatermark_forSignal (generatedId : Nat) (dir : Directory) (signal : SignalKind) :
    (loadInitialWatermark generatedId dir).1.forSignal signal = (dir.watermark.getD {}).forSignal signal := by
  simp only [loadInitialWatermark]
  split
  · cases signal <;> rfl
  · rfl

def recoveryEvents (codec : Codec Batch) (maxPayloadLen : Nat) (watermark : DiskWatermark) (now : Instant)
    (dir : Directory) (signal : SignalKind) : List (RecoveryEvent Batch) :=
  dir.segments.toList.flatMap fun entry =>
    ((scanFile codec maxPayloadLen watermark entry.1 now entry.2.bytes).events.filter
      fun event => event.1 = signal).map Prod.snd

def recoveredLog (codec : Codec Batch) (maxPayloadLen : Nat) (watermark : DiskWatermark) (now : Instant)
    (dir : Directory) : List LoggedFrame :=
  dir.segments.toList.flatMap fun entry =>
    (scanFile codec maxPayloadLen watermark entry.1 now entry.2.bytes).events.filterMap fun event =>
      match event.2 with
      | .frame item => some { segmentId := entry.1, signal := event.1, seqId := item.seqId }
      | _ => none

def WriterWorld.opened (codec : Codec Batch) (config : WriterConfig) (generatedId : Nat) (now : Instant)
    (unlinks : Nat → Bool) (dir : Directory) : WriterWorld codec :=
  let backend := openAndRecover codec config.maxPayloadLen generatedId now unlinks dir
  { writer :=
      { segments := backend.segments
        persistedWatermark := backend.watermark
        stagedWatermark := backend.watermark
        log := recoveredLog codec config.maxPayloadLen (loadInitialWatermark generatedId dir).1 now dir }
    dir := backend.dir }

section Recovered

variable {codec : Codec Batch} {maxPayloadLen generatedId : Nat} {watermark : DiskWatermark} {now : Instant}
  {unlinks : Nat → Bool} {rings : Rings Batch} {dir : Directory}

theorem recoverEntries_rings (entries : List (Nat × SegmentFile)) (rings : Rings Batch) (signal : SignalKind) :
    entries.foldl (fun rings entry => (recoverEntry codec maxPayloadLen watermark now rings entry).rings) rings
        signal =
      (entries.flatMap fun entry => ((scanFile codec maxPayloadLen watermark entry.1 now
        entry.2.bytes).events.filter fun event => event.1 = signal).map Prod.snd).foldl
          (SignalRingState.recover (watermark.forSignal signal)) (rings signal) := by
  induction entries generalizing rings with
  | nil => rfl
  | cons entry rest ih =>
    rw [List.foldl_cons, ih, List.flatMap_cons, List.foldl_append]
    simp only [recoverEntry, recoverSingleSegment, recordEvents_apply]

theorem recoverSegments_rings (signal : SignalKind) :
    (recoverSegments codec maxPayloadLen watermark now unlinks (restoredRings watermark) dir).rings signal =
      .reopened (watermark.forSignal signal) (recoveryEvents codec maxPayloadLen watermark now dir signal) := by
  simp only [recoverSegments, recoverEntries_rings]
  rfl

theorem mem_reopened_queue {committed : Nat} {events : List (RecoveryEvent Batch)} {item : QueuedBatch Batch} :
    item ∈ (SignalRingState.reopened committed events).ring.queue ↔ committed < item.seqId ∧ .frame item ∈ events := by
  have empty : (SignalRingState.restored committed : SignalRingState Batch).ring.queue = [] := rfl
  simp only [SignalRingState.reopened, SignalRingState.advanced, SignalRing.advanceWatermark,
    SignalRingState.recover_queue, mem_foldl_enqueueOrdered, empty, List.not_mem_nil, false_or, List.mem_filterMap]
  constructor
  · rintro ⟨event, listed, read⟩
    cases event with
    | frame other =>
      simp only [RecoveryEvent.unacked?] at read
      split at read
      · cases read
      · rename_i above
        cases read
        exact ⟨Nat.not_le.mp above, listed⟩
    | corrupted seqId rowCount => cases read
    | invalidHeader => cases read
  · rintro ⟨above, listed⟩
    exact ⟨.frame item, listed, if_neg (Nat.not_le.mpr above)⟩

theorem mem_recoveryEvents {signal : SignalKind} {event : RecoveryEvent Batch} :
    event ∈ recoveryEvents codec maxPayloadLen watermark now dir signal ↔
      ∃ segmentId file, dir.segments[segmentId]? = some file ∧
        (signal, event) ∈ (scanFile codec maxPayloadLen watermark segmentId now file.bytes).events := by
  simp only [recoveryEvents, List.mem_flatMap, List.mem_map, List.mem_filter, decide_eq_true_eq]
  constructor
  · rintro ⟨⟨segmentId, file⟩, listed, ⟨other, found⟩, ⟨reported, rfl⟩, rfl⟩
    exact ⟨segmentId, file, ExtTreeMap.mem_toList_iff_getElem?_eq_some.mp listed, reported⟩
  · rintro ⟨segmentId, file, found, reported⟩
    exact ⟨(segmentId, file), ExtTreeMap.mem_toList_iff_getElem?_eq_some.mpr found, _, ⟨reported, rfl⟩, rfl⟩

theorem mem_recoverSegments_queue {signal : SignalKind} {item : QueuedBatch Batch} :
    item ∈ ((recoverSegments codec maxPayloadLen watermark now unlinks (restoredRings watermark) dir).rings
        signal).ring.queue ↔
      watermark.forSignal signal < item.seqId ∧ ∃ segmentId file, dir.segments[segmentId]? = some file ∧
        (signal, .frame item) ∈ (scanFile codec maxPayloadLen watermark segmentId now file.bytes).events := by
  rw [recoverSegments_rings, mem_reopened_queue, mem_recoveryEvents]

theorem scanFile_frame {segmentNum : Nat} {file : Bytes} {signal : SignalKind} {item : QueuedBatch Batch}
    (reported : (signal, .frame item) ∈ (scanFile codec maxPayloadLen watermark segmentNum now file).events) :
    ∃ offset header batch, item = recoveredItem segmentNum offset header batch now := by
  obtain ⟨visited, _, header, _, event⟩ := mem_scanFile.mp reported
  have equal := congrArg Prod.snd event
  simp only [eventAt] at equal
  split at equal
  · exact ⟨_, _, _, RecoveryEvent.frame.inj equal⟩
  · cases equal

theorem recovered_recoverEntry (segmentId : Nat) (file : SegmentFile) :
    (file.recovered (recoverEntry codec maxPayloadLen watermark now rings (segmentId, file)).file).bytes =
      (recoverEntry codec maxPayloadLen watermark now rings (segmentId, file)).file :=
  file.recovered_bytes (recoverSingleSegment_part ..)

theorem recoverSegments_found {segmentId : Nat} {left : SegmentFile}
    (found : (recoverSegments codec maxPayloadLen watermark now unlinks rings dir).dir.segments[segmentId]? =
      some left) :
    ∃ file, dir.segments[segmentId]? = some file ∧
      left = file.recovered (recoverEntry codec maxPayloadLen watermark now rings (segmentId, file)).file := by
  simp only [recoverSegments, ExtTreeMap.getElem?_filterMap', Option.bind_eq_some_iff] at found
  obtain ⟨file, there, kept⟩ := found
  split at kept
  · cases kept
    exact ⟨file, there, rfl⟩
  · cases kept

theorem recoverSegments_file {segmentId : Nat} {file : SegmentFile}
    (found : dir.segments[segmentId]? = some file)
    (kept : (recoverEntry codec maxPayloadLen watermark now rings (segmentId, file)).segment.isSome = true) :
    (recoverSegments codec maxPayloadLen watermark now unlinks rings dir).dir.segments[segmentId]? =
      some (file.recovered (recoverEntry codec maxPayloadLen watermark now rings (segmentId, file)).file) := by
  simp [recoverSegments, found, kept]

theorem recover_committed (watermark : Nat) (events : List (RecoveryEvent Batch)) (state : SignalRingState Batch) :
    (events.foldl (SignalRingState.recover watermark) state).committedSeq = state.committedSeq := by
  induction events generalizing state with
  | nil => rfl
  | cons event rest ih =>
    rw [List.foldl_cons, ih]
    cases event with
    | frame item =>
      simp only [SignalRingState.recover]
      split <;> rfl
    | corrupted seqId rowCount => rfl
    | invalidHeader => rfl

theorem reopened_committed (watermark : Nat) (events : List (RecoveryEvent Batch)) :
    watermark ≤ (SignalRingState.reopened watermark events).committedSeq := by
  simp only [SignalRingState.reopened, SignalRingState.advanced, SignalRing.advanceWatermark, recover_committed]
  exact Nat.le_max_left _ _

theorem fromRings_forSignal (instanceId : Nat) (rings : Rings Batch) (signal : SignalKind) :
    (DiskWatermark.fromRings instanceId rings).forSignal signal = (rings signal).committedSeq := by
  cases signal <;> rfl

theorem recoverSegments_watermark (unlinks : Nat → Bool) (signal : SignalKind) :
    (recoverSegments codec maxPayloadLen watermark now unlinks (restoredRings watermark) dir).watermark.forSignal
        signal =
      ((recoverSegments codec maxPayloadLen watermark now unlinks (restoredRings watermark) dir).rings
        signal).committedSeq := by
  have raised : watermark.forSignal signal ≤ ((recoverSegments codec maxPayloadLen watermark now unlinks
      (restoredRings watermark) dir).rings signal).committedSeq := by
    rw [recoverSegments_rings]
    exact reopened_committed _ _
  have merged : (recoverSegments codec maxPayloadLen watermark now unlinks (restoredRings watermark)
      dir).watermark.forSignal signal = max (watermark.forSignal signal) ((recoverSegments codec maxPayloadLen
        watermark now unlinks (restoredRings watermark) dir).rings signal).committedSeq := by
    simp only [recoverSegments, DiskWatermark.mergeMonotonic_forSignal, fromRings_forSignal]
  rw [merged, max_eq_right raised]

theorem recoverSegments_stored (stored : dir.watermark = some watermark) :
    (recoverSegments codec maxPayloadLen watermark now unlinks rings dir).dir.watermark =
      some (recoverSegments codec maxPayloadLen watermark now unlinks rings dir).watermark := by
  simp only [recoverSegments]
  split
  · rfl
  · rename_i unchanged
    simp only [DiskWatermark.mergeMonotonic, bne_iff_ne, ne_eq, not_not] at unchanged ⊢
    rw [stored, unchanged]

end Recovered

end OtelDatalake.Disk
