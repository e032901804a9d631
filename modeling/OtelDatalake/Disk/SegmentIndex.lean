import OtelDatalake.Disk.Open
import OtelDatalake.Disk.WriterMoves

open Std OtelDatalake.Foundation OtelDatalake.Buffer

namespace OtelDatalake.Disk

variable {Batch : Type} [RecordBatch Batch] {codec : Codec Batch}

theorem numberFrame_ok {config : WriterConfig} {request : AppendRequest codec} {rows : Nat} {bytes : Bytes}
    (numbered : numberFrame codec config request.signal request.seqId rows request.frame.bytes = .ok bytes) :
    bytes = request.stored.bytes ∧ request.stored.Storable ∧
      request.stored.payload.length ≤ config.maxPayloadLen := by
  have length := request.frame.bytes_length
  simp only [numberFrame] at numbered
  split at numbered
  · cases numbered
  · split at numbered
    · cases numbered
    · split at numbered
      · cases numbered
      · rename_i bounded
        split at numbered
        · cases numbered
        · rw [request.frame.patchFrameSeqId_eq request.seqId _ (by simp [length])] at numbered
          simp only at numbered
          split at numbered
          · cases numbered
          · rename_i short
            cases numbered
            refine ⟨rfl, Nat.not_lt.mp short, ?_⟩
            rw [length] at bounded
            have same : request.stored.payload = request.frame.payload := rfl
            rw [same]
            omega

section Directory

variable {dir : Directory}

@[simp] theorem Directory.applyAll_nil : dir.applyAll [] = dir := rfl

@[simp] theorem Directory.applyAll_cons (op : FsOp) (ops : List FsOp) :
    dir.applyAll (op :: ops) = (dir.apply op).applyAll ops := rfl

@[simp] theorem Directory.mem_create {segmentId other : Nat} :
    other ∈ (dir.apply (.create segmentId)).segments ↔ other = segmentId ∨ other ∈ dir.segments := by
  simp only [Directory.apply, ExtTreeMap.mem_insert, Std.compare_eq_iff_eq]
  exact or_congr_left eq_comm

@[simp] theorem Directory.mem_unlink {segmentId other : Nat} :
    other ∈ (dir.apply (.unlink segmentId)).segments ↔ other ≠ segmentId ∧ other ∈ dir.segments := by
  simp only [Directory.apply, ExtTreeMap.mem_erase, ne_eq, Std.compare_eq_iff_eq]
  exact and_congr_left' (not_congr eq_comm)

theorem mem_insert_of_getElem? {map : ExtTreeMap Nat SegmentFile} {key other : Nat} {old new : SegmentFile}
    (found : map[key]? = some old) : other ∈ map.insert key new ↔ other ∈ map := by
  rw [ExtTreeMap.mem_insert, Std.compare_eq_iff_eq]
  refine ⟨?_, Or.inr⟩
  rintro (rfl | held)
  · rw [ExtTreeMap.mem_iff_isSome_getElem?, found]
    rfl
  · exact held

@[simp] theorem Directory.mem_write {segmentId other : Nat} {bytes : Bytes} :
    other ∈ (dir.apply (.write segmentId bytes)).segments ↔ other ∈ dir.segments := by
  simp only [Directory.apply]
  split
  · rfl
  · rename_i found
    exact mem_insert_of_getElem? found

@[simp] theorem Directory.mem_sync {segmentId other : Nat} :
    other ∈ (dir.apply (.sync segmentId)).segments ↔ other ∈ dir.segments := by
  simp only [Directory.apply]
  split
  · rfl
  · rename_i found
    exact mem_insert_of_getElem? found

@[simp] theorem Directory.mem_replaceWatermark {watermark : DiskWatermark} {other : Nat} :
    other ∈ (dir.apply (.replaceWatermark watermark)).segments ↔ other ∈ dir.segments := Iff.rfl

theorem Directory.mem_unlinks {dir : Directory} {removed : List Nat} {other : Nat} :
    other ∈ (dir.applyAll (removed.map .unlink)).segments ↔ other ∉ removed ∧ other ∈ dir.segments := by
  induction removed generalizing dir with
  | nil => simp
  | cons first rest ih =>
    rw [List.map_cons, Directory.applyAll_cons, ih, Directory.mem_unlink, List.mem_cons]
    tauto

@[simp] theorem Directory.write_watermark (segmentId : Nat) (bytes : Bytes) :
    (dir.apply (.write segmentId bytes)).watermark = dir.watermark := by
  simp only [Directory.apply]
  split <;> rfl

@[simp] theorem Directory.sync_watermark (segmentId : Nat) :
    (dir.apply (.sync segmentId)).watermark = dir.watermark := by
  simp only [Directory.apply]
  split <;> rfl

theorem Directory.unlinks_watermark (dir : Directory) (removed : List Nat) :
    (dir.applyAll (removed.map .unlink)).watermark = dir.watermark := by
  induction removed generalizing dir with
  | nil => rfl
  | cons first rest ih =>
    rw [List.map_cons, Directory.applyAll_cons, ih]
    rfl

end Directory

theorem gcSealedSegments_ops (sealedSegments : List SealedSegmentMeta) (watermark : DiskWatermark)
    (unlinks : Nat → Bool) :
    (gcSealedSegments sealedSegments watermark unlinks).2 =
      ((sealedSegments.filter fun segment => segment.isFullyAcked watermark &&
        unlinks segment.segmentId).map (·.segmentId)).map .unlink := by
  simp [gcSealedSegments]

/-- The index of the segments bounds every logged frame, and those above the stored watermark have their file. -/
structure Indexed (segments : SegmentWriter) (persisted : DiskWatermark) (log : List LoggedFrame)
    (dir : Directory) : Prop where
  stored : dir.watermark = some persisted
  files : segments.nextSegmentId < u64Max → ∀ segmentId ∈ dir.segments, segmentId < segments.nextSegmentId
  logBelow : segments.nextSegmentId < u64Max → ∀ entry ∈ log, entry.segmentId < segments.nextSegmentId
  active : ∀ segment ∈ segments.active, segment.segmentId ∈ dir.segments
  sealedBelow : segments.nextSegmentId < u64Max →
    ∀ segment ∈ segments.sealedSegments, segment.segmentId < segments.nextSegmentId
  apart : ∀ segment ∈ segments.sealedSegments, ∀ current ∈ segments.active, segment.segmentId ≠ current.segmentId
  activeMax : ∀ segment ∈ segments.active, ∀ entry ∈ log, entry.segmentId = segment.segmentId →
    entry.seqId ≤ segment.maxSeq entry.signal
  sealedMax : ∀ segment ∈ segments.sealedSegments, ∀ entry ∈ log, entry.segmentId = segment.segmentId →
    entry.seqId ≤ segment.maxSeq entry.signal
  present : ∀ entry ∈ log, persisted.forSignal entry.signal < entry.seqId → entry.segmentId ∈ dir.segments

namespace Indexed

variable {segments : SegmentWriter} {persisted : DiskWatermark} {log : List LoggedFrame} {dir : Directory}

theorem sameFiles {other : Directory} (indexed : Indexed segments persisted log dir)
    (same : ∀ segmentId, segmentId ∈ other.segments ↔ segmentId ∈ dir.segments)
    (watermark : other.watermark = dir.watermark) : Indexed segments persisted log other where
  stored := watermark.trans indexed.stored
  files numbered segmentId member := indexed.files numbered segmentId ((same segmentId).mp member)
  logBelow := indexed.logBelow
  active segment held := (same _).mpr (indexed.active segment held)
  sealedBelow := indexed.sealedBelow
  apart := indexed.apart
  activeMax := indexed.activeMax
  sealedMax := indexed.sealedMax
  present entry member above := (same _).mpr (indexed.present entry member above)

theorem dropActive (indexed : Indexed segments persisted log dir) :
    Indexed { segments with active := none } persisted log dir where
  stored := indexed.stored
  files := indexed.files
  logBelow := indexed.logBelow
  active _ held := absurd held (Option.not_mem_none _)
  sealedBelow := indexed.sealedBelow
  apart _ _ _ held := absurd held (Option.not_mem_none _)
  activeMax _ held := absurd held (Option.not_mem_none _)
  sealedMax := indexed.sealedMax
  present := indexed.present

theorem sealed {segment : ActiveSegment} (indexed : Indexed segments persisted log dir)
    (current : segments.active = some segment) :
    Indexed { segments with active := none, sealedSegments := segments.sealedSegments ++ [segment.sealedMeta] }
      persisted log dir where
  stored := indexed.stored
  files := indexed.files
  logBelow := indexed.logBelow
  active _ held := absurd held (Option.not_mem_none _)
  sealedBelow numbered other member := by
    rcases List.mem_append.mp member with old | new
    · exact indexed.sealedBelow numbered other old
    · rw [List.mem_singleton.mp new]
      exact indexed.files numbered _ (indexed.active segment current)
  apart _ _ _ held := absurd held (Option.not_mem_none _)
  activeMax _ held := absurd held (Option.not_mem_none _)
  sealedMax other member := by
    rcases List.mem_append.mp member with old | new
    · exact indexed.sealedMax other old
    · rw [List.mem_singleton.mp new]
      exact indexed.activeMax segment current
  present := indexed.present

theorem collect (indexed : Indexed segments persisted log dir) (unlinks : Nat → Bool) :
    Indexed { segments with sealedSegments := (gcSealedSegments segments.sealedSegments persisted unlinks).1 }
      persisted log (dir.applyAll (gcSealedSegments segments.sealedSegments persisted unlinks).2) := by
  have kept : ∀ segment ∈ (gcSealedSegments segments.sealedSegments persisted unlinks).1,
      segment ∈ segments.sealedSegments := fun segment member => (List.mem_filter.mp member).1
  rw [gcSealedSegments_ops]
  refine
    { stored := (Directory.unlinks_watermark _ _).trans indexed.stored
      files := fun numbered segmentId member =>
        indexed.files numbered segmentId (Directory.mem_unlinks.mp member).2
      logBelow := indexed.logBelow
      active := fun segment held => ?_
      sealedBelow := fun numbered segment member => indexed.sealedBelow numbered segment (kept segment member)
      apart := fun segment member => indexed.apart segment (kept segment member)
      activeMax := indexed.activeMax
      sealedMax := fun segment member => indexed.sealedMax segment (kept segment member)
      present := fun entry member above => ?_ }
  · refine Directory.mem_unlinks.mpr ⟨fun removed => ?_, indexed.active segment held⟩
    obtain ⟨other, listed, same⟩ := List.mem_map.mp removed
    exact indexed.apart other (List.mem_filter.mp listed).1 segment held same
  · refine Directory.mem_unlinks.mpr ⟨fun removed => ?_, indexed.present entry member above⟩
    obtain ⟨other, listed, same⟩ := List.mem_map.mp removed
    obtain ⟨held, acked⟩ := List.mem_filter.mp listed
    simp only [Bool.and_eq_true] at acked
    have bound := indexed.sealedMax other held entry member same.symm
    have covered := SealedSegmentMeta.isFullyAcked_le acked.1 entry.signal
    omega

theorem replace {larger : DiskWatermark} (indexed : Indexed segments persisted log dir)
    (raised : ∀ signal, persisted.forSignal signal ≤ larger.forSignal signal) :
    Indexed segments larger log (dir.apply (.replaceWatermark larger)) :=
  { indexed with
    stored := rfl
    present := fun entry member above =>
      indexed.present entry member ((raised entry.signal).trans_lt above) }

theorem lt_saturatingSucc {number : Nat} (room : saturatingSucc number < u64Max) :
    number < u64Max ∧ number < saturatingSucc number := by
  unfold saturatingSucc at *
  omega

theorem advance (indexed : Indexed segments persisted log dir) :
    Indexed { segments with nextSegmentId := saturatingSucc segments.nextSegmentId } persisted log dir :=
  { indexed with
    files := fun numbered segmentId member =>
      (indexed.files (lt_saturatingSucc numbered).1 segmentId member).trans (lt_saturatingSucc numbered).2
    logBelow := fun numbered entry member =>
      (indexed.logBelow (lt_saturatingSucc numbered).1 entry member).trans (lt_saturatingSucc numbered).2
    sealedBelow := fun numbered segment member =>
      (indexed.sealedBelow (lt_saturatingSucc numbered).1 segment member).trans (lt_saturatingSucc numbered).2 }

theorem create (indexed : Indexed segments persisted log dir) (numbered : segments.nextSegmentId < u64Max) :
    Indexed
      { segments with
        nextSegmentId := saturatingSucc segments.nextSegmentId
        active := some { segmentId := segments.nextSegmentId } } persisted log
      (dir.apply (.create segments.nextSegmentId)) := by
  have advanced := indexed.advance
  refine
    { stored := indexed.stored
      files := fun room segmentId member => ?_
      logBelow := advanced.logBelow
      active := fun segment held => ?_
      sealedBelow := advanced.sealedBelow
      apart := fun segment member fresh held => ?_
      activeMax := fun segment held entry member same => ?_
      sealedMax := indexed.sealedMax
      present := fun entry member above =>
        Directory.mem_create.mpr (Or.inr (indexed.present entry member above)) }
  · rcases Directory.mem_create.mp member with rfl | old
    · exact (lt_saturatingSucc room).2
    · exact advanced.files room segmentId old
  · cases held
    exact Directory.mem_create.mpr (Or.inl rfl)
  · cases held
    exact (indexed.sealedBelow numbered segment member).ne
  · cases held
    exact absurd same (indexed.logBelow numbered entry member).ne

theorem write {segment : ActiveSegment} (indexed : Indexed segments persisted log dir)
    (current : segments.active = some segment) (signal : SignalKind) (seqId : Nat) (bytes : Bytes) :
    Indexed { segments with active := some (segment.grown signal seqId bytes.length) } persisted
      (log ++ [⟨segment.segmentId, signal, seqId⟩]) (dir.apply (.write segment.segmentId bytes)) := by
  have here := indexed.active segment current
  have same : Indexed segments persisted log (dir.apply (.write segment.segmentId bytes)) :=
    indexed.sameFiles (fun _ => Directory.mem_write) (Directory.write_watermark _ _)
  refine
    { stored := same.stored
      files := same.files
      logBelow := fun numbered entry member => ?_
      active := fun other held => ?_
      sealedBelow := same.sealedBelow
      apart := fun other member grown held => ?_
      activeMax := fun other held entry member equal => ?_
      sealedMax := fun other held entry member equal => ?_
      present := fun entry member above => ?_ }
  · rcases List.mem_append.mp member with old | new
    · exact indexed.logBelow numbered entry old
    · rw [List.mem_singleton.mp new]
      exact indexed.files numbered _ here
  · cases held
    exact Directory.mem_write.mpr here
  · cases held
    exact indexed.apart other member segment current
  · cases held
    simp only [ActiveSegment.grown] at equal ⊢
    rcases List.mem_append.mp member with old | new
    · have bound := indexed.activeMax segment current entry old equal
      split
      · rename_i matching
        rw [matching] at bound
        exact bound.trans (Nat.le_max_left _ _)
      · exact bound
    · rw [List.mem_singleton.mp new, if_pos rfl]
      exact Nat.le_max_right _ _
  · rcases List.mem_append.mp member with old | new
    · exact indexed.sealedMax other held entry old equal
    · rw [List.mem_singleton.mp new] at equal
      exact absurd equal.symm (indexed.apart other held segment current)
  · rcases List.mem_append.mp member with old | new
    · exact Directory.mem_write.mpr (indexed.present entry old above)
    · rw [List.mem_singleton.mp new]
      exact Directory.mem_write.mpr here

end Indexed

section Opened

variable {maxPayloadLen generatedId : Nat} {watermark : DiskWatermark} {now : Instant} {unlinks : Nat → Bool}
  {rings : Rings Batch} {dir : Directory}

theorem start_le_foldl_max (numbers : List Nat) (start : Nat) : start ≤ numbers.foldl max start := by
  induction numbers generalizing start with
  | nil => exact le_rfl
  | cons first rest ih => exact (Nat.le_max_left start first).trans (ih _)

theorem le_foldl_max {numbers : List Nat} {number : Nat} (start : Nat) (listed : number ∈ numbers) :
    number ≤ numbers.foldl max start := by
  induction numbers generalizing start with
  | nil => cases listed
  | cons first rest ih =>
    rcases List.mem_cons.mp listed with rfl | later
    · exact (Nat.le_max_right start number).trans (start_le_foldl_max rest _)
    · exact ih _ later

theorem recoverSegments_below {entry : Nat × SegmentFile} (member : entry ∈ dir.segments.toList)
    (numbered : (recoverSegments codec maxPayloadLen watermark now unlinks rings dir).segments.nextSegmentId < u64Max) :
    entry.1 < (recoverSegments codec maxPayloadLen watermark now unlinks rings dir).segments.nextSegmentId :=
  (le_foldl_max 0 (List.mem_map.mpr ⟨entry, member, rfl⟩)).trans_lt (Indexed.lt_saturatingSucc numbered).2

theorem mem_recoveredLog {entry : LoggedFrame} :
    entry ∈ recoveredLog codec maxPayloadLen watermark now dir ↔
      ∃ file item, dir.segments[entry.segmentId]? = some file ∧ item.seqId = entry.seqId ∧
        (entry.signal, .frame item) ∈
          (scanFile codec maxPayloadLen watermark entry.segmentId now file.bytes).events := by
  simp only [recoveredLog, List.mem_flatMap, List.mem_filterMap]
  constructor
  · rintro ⟨⟨segmentId, file⟩, listed, ⟨signal, event⟩, found, read⟩
    cases event with
    | frame item =>
      cases read
      exact ⟨file, item, ExtTreeMap.mem_toList_iff_getElem?_eq_some.mp listed, rfl, found⟩
    | corrupted seqId rowCount => cases read
    | invalidHeader => cases read
  · rintro ⟨file, item, listed, same, found⟩
    refine ⟨(entry.segmentId, file), ExtTreeMap.mem_toList_iff_getElem?_eq_some.mpr listed, _, found, ?_⟩
    simp only [same]

theorem recoverSegments_indexed (codec : Codec Batch) (maxPayloadLen : Nat) (now : Instant)
    (unlinks : Nat → Bool) (stored : dir.watermark = some watermark) :
    let backend := recoverSegments codec maxPayloadLen watermark now unlinks (restoredRings watermark) dir
    Indexed backend.segments backend.watermark (recoveredLog codec maxPayloadLen watermark now dir) backend.dir where
  stored := recoverSegments_stored stored
  files numbered segmentId member := by
    have held := ExtTreeMap.mem_of_mem_filterMap member
    rw [ExtTreeMap.mem_iff_isSome_getElem?, Option.isSome_iff_exists] at held
    obtain ⟨file, found⟩ := held
    exact recoverSegments_below (ExtTreeMap.mem_toList_iff_getElem?_eq_some.mpr found) numbered
  logBelow numbered entry member := by
    obtain ⟨file, item, found, _, _⟩ := mem_recoveredLog.mp member
    exact recoverSegments_below (ExtTreeMap.mem_toList_iff_getElem?_eq_some.mpr found) numbered
  active _ held := absurd held (Option.not_mem_none _)
  sealedBelow numbered segment member := by
    obtain ⟨entry, listed, found⟩ := List.mem_filterMap.mp member
    simp only [recoverEntry, recoverSingleSegment] at found
    split at found
    · cases found
      exact recoverSegments_below listed numbered
    · cases found
  apart _ _ _ held := absurd held (Option.not_mem_none _)
  activeMax _ held := absurd held (Option.not_mem_none _)
  sealedMax segment member entry logged same := by
    obtain ⟨⟨segmentId, bytes⟩, listed, found⟩ := List.mem_filterMap.mp member
    obtain ⟨file, item, there, numbered, event⟩ := mem_recoveredLog.mp logged
    simp only [recoverEntry, recoverSingleSegment] at found
    split at found
    · cases found
      simp only at same
      rw [same, ExtTreeMap.mem_toList_iff_getElem?_eq_some.mp listed] at there
      cases there
      rw [same] at event
      rw [← numbered]
      exact scanFile_tallied.maxSeq _ event item.seqId rfl
    · cases found
  present entry logged above := by
    obtain ⟨file, item, there, numbered, event⟩ := mem_recoveredLog.mp logged
    have raised : watermark.forSignal entry.signal < item.seqId := by
      rw [numbered]
      refine Nat.lt_of_le_of_lt ?_ above
      rw [recoverSegments_watermark, recoverSegments_rings]
      exact reopened_committed _ _
    have kept : (recoverEntry codec maxPayloadLen watermark now (restoredRings watermark)
        (entry.segmentId, file)).segment.isSome = true := recoverSingleSegment_kept event raised
    rw [ExtTreeMap.mem_iff_isSome_getElem?, recoverSegments_file there kept]
    rfl

end Opened

def Logs (request : AppendRequest codec) (before : Directory × List LoggedFrame) (op : FsOp)
    (after : Directory × List LoggedFrame) : Prop :=
  after = (before.1.apply op, before.2 ++ (request.logged op).toList)

theorem Logs.operate (request : AppendRequest codec) (ops : List FsOp) (store : Directory × List LoggedFrame) :
    Operate (Logs request) store ops (store.1.applyAll ops, store.2 ++ ops.filterMap request.logged) := by
  induction ops generalizing store with
  | nil =>
    have idle : Operate (Logs request) store [] store := .none store
    simpa using idle
  | cons op rest ih =>
    refine .cons rfl ?_
    have later := ih (store.1.apply op, store.2 ++ (request.logged op).toList)
    cases logged : request.logged op with
    | none => simpa [logged] using later
    | some entry => simpa [logged] using later

theorem Logs.eq {request : AppendRequest codec} {ops : List FsOp} {store last : Directory × List LoggedFrame}
    (operated : Operate (Logs request) store ops last) :
    last = (store.1.applyAll ops, store.2 ++ ops.filterMap request.logged) := by
  induction operated with
  | none => simp
  | @cons store next last op rest first _ ih =>
    rw [ih, first]
    cases logged : request.logged op with
    | none => simp [logged]
    | some entry => simp [logged]

theorem gcSealedSegments_logged (request : AppendRequest codec) (sealedSegments : List SealedSegmentMeta)
    (watermark : DiskWatermark) (unlinks : Nat → Bool) :
    (gcSealedSegments sealedSegments watermark unlinks).2.filterMap request.logged = [] := by
  simp [gcSealedSegments, AppendRequest.logged]

section Stages

variable (config : WriterConfig) (faults : WriteFaults) (persisted : DiskWatermark) (request : AppendRequest codec)

theorem sealActive_indexed (sync : Option String) (unlinks : Nat → Bool) (segment : ActiveSegment) (next : Nat) :
    Effect.Triple (Logs request)
      (fun segments store => Indexed segments persisted store.2 store.1 ∧ segments.active = some segment ∧
        segments.nextSegmentId = next)
      (sealActive persisted sync unlinks segment)
      (fun _ segments store => Indexed segments persisted store.2 store.1 ∧ segments.nextSegmentId = next) := by
  rintro segments ⟨dir, log⟩ ⟨indexed, current, same⟩
  cases failed : sync with
  | some reason =>
    rw [sealActive_error unlinks rfl]
    exact ⟨_, .none _, indexed.dropActive, same⟩
  | none =>
    rw [sealActive_ok unlinks rfl]
    refine ⟨_, Logs.operate request _ _, ?_, same⟩
    rw [List.filterMap_cons_none rfl, gcSealedSegments_logged, List.append_nil]
    exact ((indexed.sealed current).sameFiles (fun _ => Directory.mem_sync) (Directory.sync_watermark _)).collect unlinks

theorem rollSegment_indexed (frameLen : Nat) :
    Effect.Triple (Logs request)
      (fun segments store => Indexed segments persisted store.2 store.1 ∧ segments.nextSegmentId < u64Max)
      (rollSegment config persisted faults frameLen)
      (fun _ segments store => Indexed segments persisted store.2 store.1 ∧ segments.nextSegmentId < u64Max) := by
  rintro segments store ⟨indexed, numbered⟩
  by_cases stays : ∀ segment ∈ segments.active, segment.rolls config frameLen = false
  · rw [rollSegment_stay stays]
    exact ⟨store, .none _, indexed, numbered⟩
  · simp only [not_forall, Bool.not_eq_false] at stays
    obtain ⟨segment, current, rolls⟩ := stays
    rw [rollSegment_seal current rolls]
    obtain ⟨reached, operated, kept, same⟩ := sealActive_indexed persisted request faults.rollSync faults.unlinks
      segment segments.nextSegmentId segments store ⟨indexed, current, rfl⟩
    exact ⟨reached, operated, kept, same.trans_lt numbered⟩

theorem openSegment_indexed :
    Effect.Triple (Logs request)
      (fun segments store => Indexed segments persisted store.2 store.1 ∧ segments.nextSegmentId < u64Max)
      (openSegment config faults)
      (fun result segments store => Indexed segments persisted store.2 store.1 ∧
        ∀ segment, result = .ok segment → segments.active = some segment) := by
  rintro segments ⟨dir, log⟩ ⟨indexed, numbered⟩
  cases current : segments.active with
  | some segment =>
    rw [openSegment_active current]
    exact ⟨_, .none _, indexed, fun other same => by cases same; exact current⟩
  | none =>
    cases failed : faults.create with
    | some reason =>
      rw [openSegment_error current failed]
      exact ⟨_, .none _, indexed.advance, fun _ same => by cases same⟩
    | none =>
      rw [openSegment_create current failed]
      refine ⟨_, .single rfl, ?_, fun _ same => by cases same; rfl⟩
      simpa [AppendRequest.logged] using indexed.create numbered

theorem writeFrame_indexed (segment : ActiveSegment) :
    Effect.Triple (Logs request)
      (fun segments store => Indexed segments persisted store.2 store.1 ∧ segments.active = some segment)
      (writeFrame config faults request.signal request.seqId request.stored.bytes segment)
      (fun result segments store => Indexed segments persisted store.2 store.1 ∧
        ∀ grown, result = .ok grown → segments.active = some grown ∧
          ⟨segment.segmentId, request.signal, request.seqId⟩ ∈ store.2) := by
  rintro segments ⟨dir, log⟩ ⟨indexed, current⟩
  rcases writeFrame_cases faults request.stored.bytes with ⟨count, reason, failed, short⟩ | whole
  · rw [writeFrame_error failed short]
    have unlogged : request.logged (.write segment.segmentId (request.stored.bytes.take count)) = none := by
      refine if_neg fun same => ?_
      have := congrArg List.length same
      rw [List.length_take] at this
      omega
    refine ⟨_, .single rfl, ?_, fun _ same => by cases same⟩
    simpa [unlogged] using indexed.sameFiles (fun _ => Directory.mem_write)
      (Directory.write_watermark _ _)
  · rw [writeFrame_ok whole]
    have logged : request.logged (.write segment.segmentId request.stored.bytes) =
        some ⟨segment.segmentId, request.signal, request.seqId⟩ := if_pos rfl
    refine ⟨_, .single rfl, ?_, fun grown same => ?_⟩
    · simpa [logged] using indexed.write current request.signal request.seqId request.stored.bytes
    · cases same
      exact ⟨rfl, by simp [logged]⟩

theorem sealFull_indexed (entry : LoggedFrame) (segment : ActiveSegment) :
    Effect.Triple (Logs request)
      (fun segments store => (Indexed segments persisted store.2 store.1 ∧ segments.active = some segment) ∧
        entry ∈ store.2)
      (sealFull config persisted faults segment)
      (fun _ segments store => Indexed segments persisted store.2 store.1 ∧ entry ∈ store.2) := by
  rintro segments store ⟨held, logged⟩
  unfold sealFull
  split
  · obtain ⟨reached, operated, kept, _⟩ := sealActive_indexed persisted request faults.sealSync faults.unlinks segment
      segments.nextSegmentId segments store ⟨held.1, held.2, rfl⟩
    refine ⟨reached, operated, kept, ?_⟩
    rw [Logs.eq operated]
    exact List.mem_append_left _ logged
  · exact ⟨store, .none _, held.1, logged⟩

theorem storeFrame_indexed :
    Effect.Triple (Logs request)
      (fun segments store => Indexed segments persisted store.2 store.1 ∧ segments.nextSegmentId < u64Max)
      (storeFrame config persisted faults request.signal request.seqId request.stored.bytes)
      (fun result segments store => Indexed segments persisted store.2 store.1 ∧
        ∀ written, result = .ok written → ⟨written.segmentId, request.signal, request.seqId⟩ ∈ store.2) := by
  refine (rollSegment_indexed config faults persisted request _).bind
    (fun _ _ _ kept => ⟨kept.1, fun _ same => by cases same⟩) fun _ =>
    (openSegment_indexed config faults persisted request).bind
      (fun _ _ _ kept => ⟨kept.1, fun _ same => by cases same⟩) fun segment => ?_
  have write := writeFrame_indexed config faults persisted request segment
  refine Effect.Triple.weaken (fun _ _ opened => ⟨opened.1, opened.2 segment rfl⟩)
    (write.bind (fun _ _ _ kept => ⟨kept.1, fun _ same => by cases same⟩) fun grown => ?_)
  have full := sealFull_indexed config faults persisted request ⟨segment.segmentId, request.signal, request.seqId⟩ grown
  refine Effect.Triple.weaken (fun _ _ written => ⟨⟨written.1, (written.2 grown rfl).1⟩, (written.2 grown rfl).2⟩)
    (full.bind (fun _ _ _ kept => ⟨kept.1, fun _ same => by cases same⟩) fun _ => ?_)
  refine Effect.Triple.pure fun segments store kept => ⟨kept.1, fun written same => ?_⟩
  cases same
  exact kept.2

/-- What an append does to the index, whichever of its system calls fail. -/
theorem writeEncodedFrame_indexed (rows : Nat) {segments : SegmentWriter} {log : List LoggedFrame}
    {dir : Directory} (indexed : Indexed segments persisted log dir) (assigned : segments.nextSegmentId < u64Max) :
    let written := writeEncodedFrame config persisted faults codec request.signal request.seqId rows
      request.frame.bytes segments
    Indexed written.2.1 persisted (log ++ written.2.2.filterMap request.logged) (dir.applyAll written.2.2) ∧
      ∀ place, written.1 = .ok place →
        ⟨place.segmentId, request.signal, request.seqId⟩ ∈ log ++ written.2.2.filterMap request.logged := by
  cases numbered : numberFrame codec config request.signal request.seqId rows request.frame.bytes with
  | error reason =>
    simp only [writeEncodedFrame, numbered, Effect.fail]
    exact ⟨by simpa using indexed, fun _ same => by cases same⟩
  | ok bytes =>
    simp only [writeEncodedFrame, numbered, (numberFrame_ok numbered).1]
    obtain ⟨reached, operated, kept⟩ := storeFrame_indexed config faults persisted request segments (dir, log)
      ⟨indexed, assigned⟩
    rw [Logs.eq operated] at kept
    exact kept

end Stages

namespace WriterWorld

structure Tracked (world : WriterWorld codec) : Prop where
  indexed : Indexed world.writer.segments world.writer.persistedWatermark world.writer.log world.dir
  staged : ∀ signal, world.writer.persistedWatermark.forSignal signal ≤
    world.writer.stagedWatermark.forSignal signal
  recorded : Granted (fun request written => ⟨written.segmentId, request.signal, request.seqId⟩ ∈ world.writer.log)
    world.writer.replies

theorem Tracked.opened (codec : Codec Batch) (config : WriterConfig) (generatedId : Nat) (now : Instant)
    (unlinks : Nat → Bool) (dir : Directory) : (opened codec config generatedId now unlinks dir).Tracked := by
  have indexed := recoverSegments_indexed codec config.maxPayloadLen now unlinks
    (loadInitialWatermark_watermark generatedId dir)
  simp only [recoveredLog, loadInitialWatermark_segments] at indexed
  exact
    { indexed := indexed
      staged := fun _ => le_rfl
      recorded := granted_nil }

/-- The index stays right whatever the writer does and whichever system calls fail. -/
theorem Tracked.index {config : WriterConfig} {world : WriterWorld codec} {writer : Writer codec}
    {action : WriterAction codec} {ops : List FsOp} (tracked : world.Tracked)
    (moves : Writer.Moves config world.writer action writer ops) :
    Indexed writer.segments writer.persistedWatermark writer.log (world.dir.applyAll ops) := by
  have indexed := tracked.indexed
  cases moves with
  | @process faults command todo progress phase numbered =>
    cases command with
    | appendEncoded request =>
      exact (writeEncodedFrame_indexed config faults world.writer.persistedWatermark request
        request.frame.header.rowCount indexed numbered).1
    | updateWatermark watermark => exact indexed
    | flushWatermark watermark => exact indexed
    | shutdown => exact indexed
  | synced phase due => exact indexed.sameFiles (fun _ => Directory.mem_sync) (Directory.sync_watermark _)
  | @persist fault unlinks syncErr shutdown phase =>
    simp only [Writer.persistWatermark]
    split
    · exact indexed
    · exact (indexed.replace tracked.staged).collect unlinks
  | leave phase sync =>
    rcases sync with rfl | ⟨segment, _, rfl⟩
    · exact indexed.dropActive
    · exact indexed.dropActive.sameFiles (fun _ => Directory.mem_sync) (Directory.sync_watermark _)
  | _ => exact indexed

theorem Tracked.step {config : WriterConfig} {world next : WriterWorld codec} {action : WriterAction codec}
    (tracked : world.Tracked) (stepped : world.step config action = some next) : next.Tracked := by
  obtain ⟨⟨writer, ops⟩, moved, rfl⟩ := Option.map_eq_some_iff.mp stepped
  have moves := Writer.moves_of_transition moved
  refine ⟨tracked.index moves, moves.staged_le tracked.staged, ?_⟩
  refine moves.granted (tracked.recorded.mono fun request written logged => moves.log logged) ?_
  intro faults request todo progress same phase written ok
  subst same
  cases moves with
  | @process faults command others state here numbered =>
    rw [phase] at here
    cases here
    exact (writeEncodedFrame_indexed config faults world.writer.persistedWatermark request
      request.frame.header.rowCount tracked.indexed numbered).2 written ok

end WriterWorld

end OtelDatalake.Disk
