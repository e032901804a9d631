import OtelDatalake.Disk.SegmentIndex

open Std OtelDatalake.Foundation OtelDatalake.Buffer

namespace OtelDatalake.Disk

variable {Batch : Type} [RecordBatch Batch] {codec : Codec Batch}

section Files

variable {dir : Directory} {segmentId other : Nat} {file : SegmentFile} {bytes : Bytes}

theorem Directory.getElem?_create :
    (dir.apply (.create segmentId)).segments[other]? =
      if segmentId = other then some {} else dir.segments[other]? := by
  simp [Directory.apply, ExtTreeMap.getElem?_insert]

theorem Directory.getElem?_write (found : dir.segments[segmentId]? = some file) :
    (dir.apply (.write segmentId bytes)).segments[other]? =
      if segmentId = other then some { file with bytes := file.bytes ++ bytes } else dir.segments[other]? := by
  simp [Directory.apply, found, ExtTreeMap.getElem?_insert]

theorem Directory.getElem?_sync :
    (dir.apply (.sync segmentId)).segments[other]? =
      if segmentId = other then dir.segments[other]?.map fun file => { file with synced := file.bytes.length }
      else dir.segments[other]? := by
  simp only [Directory.apply]
  split
  · rename_i missing
    split
    · rename_i same
      subst same
      simp [missing]
    · rfl
  · rename_i file found
    split
    · rename_i same
      subst same
      simp [found]
    · rename_i apart
      simp [ExtTreeMap.getElem?_insert, apart]

theorem Directory.getElem?_unlink :
    (dir.apply (.unlink segmentId)).segments[other]? =
      if segmentId = other then none else dir.segments[other]? := by
  simp [Directory.apply, ExtTreeMap.getElem?_erase]

end Files

theorem locate_append {offset : Nat} {frames more : List (Frame codec)} :
    locate offset (frames ++ more) = locate offset frames ++ locate (offset + (framesBytes frames).length) more := by
  induction frames generalizing offset with
  | nil => rfl
  | cons frame rest ih =>
    simp only [List.cons_append, locate, ih, framesBytes_cons, List.length_append, Nat.add_assoc]

/-- A directory with the frames that stand as a whole in its segments, and those that are on their way there. -/
structure Stock (codec : Codec Batch) where
  ledger : Nat → List (Frame codec)
  pending : List (Frame codec) := []
  dir : Directory

/-- An operation on the directory: a write goes behind whole frames only, and a segment is removed only when the
    stored watermark covers its frames. -/
inductive Stores (maxPayloadLen : Nat) (limit : SignalKind → Nat) (stock : Stock codec) : FsOp → Stock codec → Prop where
  | create {segmentId : Nat} (unused : stock.ledger segmentId = []) (absent : segmentId ∉ stock.dir.segments) :
      Stores maxPayloadLen limit stock (.create segmentId) { stock with dir := stock.dir.apply (.create segmentId) }
  | whole {segmentId : Nat} {file : SegmentFile} {frame : Frame codec} {rest : List (Frame codec)}
      (queued : stock.pending = frame :: rest) (found : stock.dir.segments[segmentId]? = some file)
      (clean : file.bytes = framesBytes (stock.ledger segmentId)) (storable : frame.Storable)
      (bounded : frame.payload.length ≤ maxPayloadLen) :
      Stores maxPayloadLen limit stock (.write segmentId frame.bytes)
        { ledger := Function.update stock.ledger segmentId (stock.ledger segmentId ++ [frame])
          pending := rest
          dir := stock.dir.apply (.write segmentId frame.bytes) }
  | part {segmentId count : Nat} {file : SegmentFile} {frame : Frame codec}
      (found : stock.dir.segments[segmentId]? = some file)
      (clean : file.bytes = framesBytes (stock.ledger segmentId)) (short : count < frame.bytes.length)
      (bounded : frame.payload.length ≤ maxPayloadLen) :
      Stores maxPayloadLen limit stock (.write segmentId (frame.bytes.take count))
        { stock with dir := stock.dir.apply (.write segmentId (frame.bytes.take count)) }
  | sync {segmentId : Nat} :
      Stores maxPayloadLen limit stock (.sync segmentId) { stock with dir := stock.dir.apply (.sync segmentId) }
  | unlink {segmentId : Nat}
      (covered : ∀ frame ∈ stock.ledger segmentId, frame.seqId ≤ stock.dir.watermarkOf frame.signal) :
      Stores maxPayloadLen limit stock (.unlink segmentId) { stock with dir := stock.dir.apply (.unlink segmentId) }
  | replace {watermark : DiskWatermark}
      (raised : ∀ signal, stock.dir.watermarkOf signal ≤ watermark.forSignal signal)
      (limited : ∀ signal, watermark.forSignal signal ≤ limit signal) :
      Stores maxPayloadLen limit stock (.replaceWatermark watermark)
        { stock with dir := stock.dir.apply (.replaceWatermark watermark) }

theorem mem_update_append {ledger : Nat → List (Frame codec)} {written segmentId : Nat} {new frame : Frame codec} :
    frame ∈ Function.update ledger written (ledger written ++ [new]) segmentId ↔
      frame ∈ ledger segmentId ∨ segmentId = written ∧ frame = new := by
  by_cases same : segmentId = written
  · subst same
    simp
  · simp [same]

/-- What a crash leaves of an operation that it interrupts. -/
def cutWrite (length : Nat) : FsOp → Option FsOp
  | .write segmentId bytes => some (.write segmentId (bytes.take length))
  | _ => none

theorem Stores.cut {maxPayloadLen length : Nat} {limit : SignalKind → Nat} {stock next : Stock codec} {op piece : FsOp}
    (stores : Stores maxPayloadLen limit stock op next) (cut : cutWrite length op = some piece) :
    ∃ between, Stores maxPayloadLen limit stock piece between := by
  cases stores with
  | @whole segmentId file frame rest queued found clean storable bounded =>
    cases cut
    by_cases short : length < frame.bytes.length
    · exact ⟨_, .part found clean short bounded⟩
    · rw [List.take_of_length_le (Nat.not_lt.mp short)]
      exact ⟨_, .whole queued found clean storable bounded⟩
  | part found clean short bounded =>
    cases cut
    rw [List.take_take]
    exact ⟨_, .part found clean (Nat.min_le_right _ _ |>.trans_lt short) bounded⟩
  | _ => cases cut

theorem Stores.grows {maxPayloadLen : Nat} {limit : SignalKind → Nat} {stock next : Stock codec} {op : FsOp}
    (stores : Stores maxPayloadLen limit stock op next) (segmentId : Nat) :
    stock.ledger segmentId <+: next.ledger segmentId := by
  cases stores with
  | @whole written file frame rest =>
    by_cases same : segmentId = written
    · subst same
      simp
    · simp [same]
  | _ => exact List.prefix_rfl

theorem stores_grow {maxPayloadLen : Nat} {limit : SignalKind → Nat} {stock last : Stock codec} {ops : List FsOp}
    (operated : Operate (Stores maxPayloadLen limit) stock ops last) (segmentId : Nat) :
    stock.ledger segmentId <+: last.ledger segmentId :=
  operated.invariant (fun reached => stock.ledger segmentId <+: reached.ledger segmentId) List.prefix_rfl
    fun _ _ _ grown stores => grown.trans (stores.grows segmentId)

theorem Stores.drawn {maxPayloadLen : Nat} {limit : SignalKind → Nat} {stock next : Stock codec} {op : FsOp}
    (stores : Stores maxPayloadLen limit stock op next) {segmentId : Nat} {frame : Frame codec}
    (member : frame ∈ next.ledger segmentId ++ next.pending) : ∃ other, frame ∈ stock.ledger other ++ stock.pending := by
  cases stores with
  | @whole written file stored rest queued =>
    rcases List.mem_append.mp member with held | waiting
    · rcases mem_update_append.mp held with old | ⟨_, rfl⟩
      · exact ⟨segmentId, List.mem_append_left _ old⟩
      · exact ⟨segmentId, List.mem_append_right _ (queued ▸ List.mem_cons_self)⟩
    · exact ⟨segmentId, List.mem_append_right _ (queued ▸ List.mem_cons_of_mem _ waiting)⟩
  | _ => exact ⟨segmentId, member⟩

theorem stores_drawn {maxPayloadLen : Nat} {limit : SignalKind → Nat} {stock last : Stock codec} {ops : List FsOp}
    (operated : Operate (Stores maxPayloadLen limit) stock ops last) {segmentId : Nat} {frame : Frame codec}
    (member : frame ∈ last.ledger segmentId ++ last.pending) : ∃ other, frame ∈ stock.ledger other ++ stock.pending := by
  induction operated generalizing segmentId with
  | none => exact ⟨segmentId, member⟩
  | cons first _ ih =>
    obtain ⟨other, held⟩ := ih member
    exact first.drawn held

theorem Frame.number_of_bytes {frame other : Frame codec} (same : frame.bytes = other.bytes) :
    frame.signal = other.signal ∧ frame.seqId = other.seqId ∧ frame.payload.length = other.payload.length := by
  have first := frame.decodeHeader_eq [] (Nat.le_max_left frame.payload.length other.payload.length)
  have second := other.decodeHeader_eq [] (Nat.le_max_right frame.payload.length other.payload.length)
  rw [same, second, Except.ok.injEq] at first
  exact ⟨congrArg FrameHeader.signal first.symm, congrArg FrameHeader.seqId first.symm,
    congrArg FrameHeader.payloadLen first.symm⟩

theorem Frame.part_ne {frame other : Frame codec} {count : Nat} (short : count < frame.bytes.length) :
    frame.bytes.take count ≠ other.bytes := by
  intro same
  have length := congrArg List.length same
  rw [List.length_take, Nat.min_eq_left short.le, other.bytes_length] at length
  have first := frame.decodeHeader_eq [] (Nat.le_max_left frame.payload.length other.payload.length)
  have second := other.decodeHeader_eq [] (Nat.le_max_right frame.payload.length other.payload.length)
  rw [List.append_nil] at first second
  rw [← same, decodeHeader_take (by omega), first, Except.ok.injEq] at second
  have payload : frame.payload.length = other.payload.length := congrArg FrameHeader.payloadLen second
  rw [frame.bytes_length] at short
  omega

theorem Stores.logged {maxPayloadLen : Nat} {limit : SignalKind → Nat} {stock next : Stock codec} {op : FsOp}
    (stores : Stores maxPayloadLen limit stock op next) {request : AppendRequest codec} {entry : LoggedFrame}
    (logged : request.logged op = some entry) :
    ∃ frame ∈ next.ledger entry.segmentId, frame.signal = entry.signal ∧ frame.seqId = entry.seqId := by
  cases stores with
  | @whole segmentId file frame rest queued found clean storable bounded =>
    simp only [AppendRequest.logged] at logged
    split at logged
    · rename_i same
      cases logged
      obtain ⟨signal, seqId, _⟩ := Frame.number_of_bytes same
      exact ⟨frame, mem_update_append.mpr (Or.inr ⟨rfl, rfl⟩), signal, seqId⟩
    · cases logged
  | part found clean short bounded =>
    simp only [AppendRequest.logged, if_neg (Frame.part_ne short)] at logged
    cases logged
  | _ => cases logged

theorem stores_logged {maxPayloadLen : Nat} {limit : SignalKind → Nat} {stock last : Stock codec} {ops : List FsOp}
    (operated : Operate (Stores maxPayloadLen limit) stock ops last) {request : AppendRequest codec}
    {entry : LoggedFrame} (logged : entry ∈ ops.filterMap request.logged) :
    ∃ frame ∈ last.ledger entry.segmentId, frame.signal = entry.signal ∧ frame.seqId = entry.seqId := by
  induction operated with
  | none => cases logged
  | @cons store next last op rest first later ih =>
    obtain ⟨other, member, read⟩ := List.mem_filterMap.mp logged
    rcases List.mem_cons.mp member with rfl | further
    · obtain ⟨frame, held, number⟩ := first.logged read
      exact ⟨frame, (stores_grow later entry.segmentId).subset held, number⟩
    · exact ih (List.mem_filterMap.mpr ⟨other, further, read⟩)

theorem stores_dir {maxPayloadLen : Nat} {limit : SignalKind → Nat} {stock last : Stock codec} {ops : List FsOp}
    (operated : Operate (Stores maxPayloadLen limit) stock ops last) : last.dir = stock.dir.applyAll ops := by
  induction operated with
  | none => rfl
  | cons first _ ih =>
    rw [ih, Directory.applyAll_cons]
    cases first <;> rfl

/-- The segments from `first` on hold the frames of the ledger, with at most a torn frame behind them, and the file
    of every frame above the stored watermark is there. -/
structure Laid (first maxPayloadLen : Nat) (stock : Stock codec) : Prop where
  files : ∀ segmentId file, first ≤ segmentId → stock.dir.segments[segmentId]? = some file →
    ∃ tail, file.bytes = framesBytes (stock.ledger segmentId) ++ tail ∧ Torn codec maxPayloadLen tail
  storable : ∀ segmentId, ∀ frame ∈ stock.ledger segmentId,
    frame.Storable ∧ frame.payload.length ≤ maxPayloadLen
  kept : ∀ segmentId, ∀ frame ∈ stock.ledger segmentId, stock.dir.watermarkOf frame.signal < frame.seqId →
    segmentId ∈ stock.dir.segments

theorem torn_take {maxPayloadLen count : Nat} {frame : Frame codec} (short : count < frame.bytes.length)
    (bounded : frame.payload.length ≤ maxPayloadLen) : Torn codec maxPayloadLen (frame.bytes.take count) := by
  rcases Nat.eq_zero_or_pos count with rfl | positive
  · exact Or.inl rfl
  · exact Or.inr ⟨frame, count, positive, short, bounded, rfl⟩

theorem Directory.watermarkOf_write (dir : Directory) (segmentId : Nat) (bytes : Bytes) :
    (dir.apply (.write segmentId bytes)).watermarkOf = dir.watermarkOf := by
  funext signal
  simp [Directory.watermarkOf]

theorem Directory.watermarkOf_sync (dir : Directory) (segmentId : Nat) :
    (dir.apply (.sync segmentId)).watermarkOf = dir.watermarkOf := by
  funext signal
  simp [Directory.watermarkOf]

theorem Laid.step {first maxPayloadLen : Nat} {limit : SignalKind → Nat} {stock next : Stock codec} {op : FsOp}
    (laid : Laid first maxPayloadLen stock) (stores : Stores maxPayloadLen limit stock op next) :
    Laid first maxPayloadLen next := by
  cases stores with
  | @create created unused absent =>
    refine ⟨fun segmentId file start found => ?_, laid.storable, fun segmentId frame member above => ?_⟩
    · rw [Directory.getElem?_create] at found
      split at found
      · rename_i same
        subst same
        cases found
        exact ⟨[], by simp [unused], Or.inl rfl⟩
      · exact laid.files segmentId file start found
    · exact Directory.mem_create.mpr (Or.inr (laid.kept segmentId frame member above))
  | @whole written stored frame rest queued there clean storable bounded =>
    refine ⟨fun segmentId file start found => ?_, fun segmentId other member => ?_,
      fun segmentId other member above => ?_⟩
    · rw [Directory.getElem?_write there] at found
      split at found
      · rename_i same
        subst same
        cases found
        exact ⟨[], by simp [clean], Or.inl rfl⟩
      · rename_i apart
        simp only [Function.update_of_ne (Ne.symm apart)]
        exact laid.files segmentId file start found
    · rcases mem_update_append.mp member with old | ⟨_, rfl⟩
      · exact laid.storable segmentId other old
      · exact ⟨storable, bounded⟩
    · refine Directory.mem_write.mpr ?_
      rcases mem_update_append.mp member with old | ⟨rfl, rfl⟩
      · rw [Directory.watermarkOf_write] at above
        exact laid.kept segmentId other old above
      · rw [ExtTreeMap.mem_iff_isSome_getElem?, there]
        rfl
  | @part written count stored frame there clean short bounded =>
    refine ⟨fun segmentId file start found => ?_, laid.storable, fun segmentId other member above => ?_⟩
    · rw [Directory.getElem?_write there] at found
      split at found
      · rename_i same
        subst same
        cases found
        exact ⟨frame.bytes.take count, by simp [clean], torn_take short bounded⟩
      · exact laid.files segmentId file start found
    · rw [Directory.watermarkOf_write] at above
      exact Directory.mem_write.mpr (laid.kept segmentId other member above)
  | @sync synced =>
    refine ⟨fun segmentId file start found => ?_, laid.storable, fun segmentId other member above => ?_⟩
    · rw [Directory.getElem?_sync] at found
      split at found
      · obtain ⟨old, there, rfl⟩ := Option.map_eq_some_iff.mp found
        exact laid.files segmentId old start there
      · exact laid.files segmentId file start found
    · rw [Directory.watermarkOf_sync] at above
      exact Directory.mem_sync.mpr (laid.kept segmentId other member above)
  | @unlink removed covered =>
    refine ⟨fun segmentId file start found => ?_, laid.storable, fun segmentId other member above => ?_⟩
    · rw [Directory.getElem?_unlink] at found
      split at found
      · cases found
      · exact laid.files segmentId file start found
    · refine Directory.mem_unlink.mpr ⟨?_, laid.kept segmentId other member above⟩
      rintro rfl
      exact absurd (covered other member) (Nat.not_le.mpr above)
  | @replace watermark raised limited =>
    refine ⟨laid.files, laid.storable, fun segmentId other member above => ?_⟩
    exact laid.kept segmentId other member ((raised other.signal).trans_lt above)

theorem Laid.operate {first maxPayloadLen : Nat} {limit : SignalKind → Nat} {stock last : Stock codec} {ops : List FsOp}
    (laid : Laid first maxPayloadLen stock) (operated : Operate (Stores maxPayloadLen limit) stock ops last) :
    Laid first maxPayloadLen last :=
  operated.invariant (Laid first maxPayloadLen) laid fun _ _ _ before stores => before.step stores

theorem stores_limit {maxPayloadLen : Nat} {limit : SignalKind → Nat} {stock last : Stock codec} {ops : List FsOp}
    (start : ∀ signal, stock.dir.watermarkOf signal ≤ limit signal)
    (operated : Operate (Stores maxPayloadLen limit) stock ops last) (signal : SignalKind) :
    last.dir.watermarkOf signal ≤ limit signal := by
  refine operated.invariant (fun reached => reached.dir.watermarkOf signal ≤ limit signal) (start signal) ?_
  intro before op after within stores
  cases stores with
  | whole => rwa [Directory.watermarkOf_write]
  | part => rwa [Directory.watermarkOf_write]
  | sync => rwa [Directory.watermarkOf_sync]
  | replace raised limited => exact limited signal
  | _ => exact within

theorem stores_unwritten {maxPayloadLen : Nat} {limit : SignalKind → Nat} {stock last : Stock codec} {ops : List FsOp}
    (operated : Operate (Stores maxPayloadLen limit) stock ops last)
    (unwritten : ∀ frame rest, stock.pending = frame :: rest → ∀ segmentId, FsOp.write segmentId frame.bytes ∉ ops) :
    last.ledger = stock.ledger := by
  induction operated with
  | none => rfl
  | @cons stock next last op rest first later ih =>
    cases first with
    | whole queued => exact absurd List.mem_cons_self (unwritten _ _ queued _)
    | _ => exact ih fun frame more queued segmentId member =>
        unwritten frame more queued segmentId (List.mem_cons_of_mem _ member)

theorem stores_written {maxPayloadLen : Nat} {limit : SignalKind → Nat} {stock last : Stock codec} {ops : List FsOp}
    (operated : Operate (Stores maxPayloadLen limit) stock ops last) {writer : Writer codec} {entry : LoggedFrame}
    (written : entry ∈ writer.written ops) :
    ∃ frame ∈ last.ledger entry.segmentId, frame.signal = entry.signal ∧ frame.seqId = entry.seqId := by
  unfold Writer.written at written
  split at written
  · exact stores_logged operated written
  · cases written

theorem stores_raised {maxPayloadLen : Nat} {limit : SignalKind → Nat} {stock last : Stock codec} {ops : List FsOp}
    (operated : Operate (Stores maxPayloadLen limit) stock ops last) (signal : SignalKind) :
    stock.dir.watermarkOf signal ≤ last.dir.watermarkOf signal := by
  refine operated.invariant (fun reached => stock.dir.watermarkOf signal ≤ reached.dir.watermarkOf signal) le_rfl ?_
  intro before op after raised stores
  cases stores with
  | whole => rwa [Directory.watermarkOf_write]
  | part => rwa [Directory.watermarkOf_write]
  | sync => rwa [Directory.watermarkOf_sync]
  | replace higher limited => exact raised.trans (higher signal)
  | _ => exact raised

section Located

variable {first maxPayloadLen segmentId : Nat} {stock : Stock codec} {located : Nat × Frame codec}

theorem Laid.stands {file : SegmentFile} (laid : Laid first maxPayloadLen stock) (start : first ≤ segmentId)
    (member : located ∈ locate 0 (stock.ledger segmentId)) (found : stock.dir.segments[segmentId]? = some file) :
    Visits maxPayloadLen file.bytes 0 located.1 ∧ ∃ rest, file.bytes.drop located.1 = located.2.bytes ++ rest := by
  obtain ⟨tail, bytes, _⟩ := laid.files segmentId file start found
  have whole : file.bytes.drop 0 = framesBytes (stock.ledger segmentId) ++ tail := by
    rw [List.drop_zero, bytes]
  exact ⟨(visits_frames (fun frame listed => (laid.storable segmentId frame listed).1) maxPayloadLen whole).1
    located member, locate_here whole member⟩

theorem Laid.read {file : SegmentFile} (laid : Laid first maxPayloadLen stock) (start : first ≤ segmentId)
    (member : located ∈ locate 0 (stock.ledger segmentId)) (found : stock.dir.segments[segmentId]? = some file)
    (config : WriterConfig) :
    readFrameAt codec config stock.dir
      { segmentId := segmentId, offset := located.1, len := located.2.bytes.length } = .ok located.2.batch := by
  obtain ⟨_, rest, here⟩ := laid.stands start member found
  have exact' : slice located.1 located.2.bytes.length file.bytes = located.2.bytes ++ [] := by
    rw [slice, here, List.take_left, List.append_nil]
  have bounded : located.2.payload.length ≤
      max config.maxPayloadLen (located.2.bytes.length - frameHeaderLen) := by
    rw [located.2.bytes_length, Nat.add_sub_cancel_left]
    exact Nat.le_max_right _ _
  simp only [readFrameAt, found, exact', located.2.decodeFrame_eq [] bounded]

/-- A frame is in the queue of its ring, and its segment is kept with the frame in its place. -/
structure Reenqueued (now : Instant) (segmentId : Nat) (located : Nat × Frame codec)
    (backend : OpenedBackend Batch) : Prop where
  enqueued : storedItem segmentId now located ∈ (backend.rings located.2.signal).ring.queue
  stored : ∃ file, backend.dir.segments[segmentId]? = some file ∧
    slice located.1 located.2.bytes.length file.bytes = located.2.bytes

theorem Laid.reenqueued (laid : Laid first maxPayloadLen stock) (start : first ≤ segmentId)
    (member : located ∈ locate 0 (stock.ledger segmentId))
    (above : stock.dir.watermarkOf located.2.signal < located.2.seqId) (generatedId : Nat) (now : Instant)
    (unlinks : Nat → Bool) :
    Reenqueued now segmentId located
      (openAndRecover codec maxPayloadLen generatedId now unlinks stock.dir) := by
  have held := laid.kept segmentId located.2 (locate_mem member) above
  rw [ExtTreeMap.mem_iff_isSome_getElem?, Option.isSome_iff_exists] at held
  obtain ⟨file, found⟩ := held
  have storable := (laid.storable segmentId located.2 (locate_mem member)).1
  obtain ⟨visits, rest, here⟩ := laid.stands start member found
  have raised : (loadInitialWatermark generatedId stock.dir).1.forSignal located.2.signal < located.2.seqId := by
    rw [loadInitialWatermark_forSignal]
    exact above
  have reported := reported_of_visits segmentId (loadInitialWatermark generatedId stock.dir).1 now visits storable here
  have loaded : (loadInitialWatermark generatedId stock.dir).2.segments[segmentId]? = some file := by
    rw [loadInitialWatermark_segments]
    exact found
  refine ⟨mem_recoverSegments_queue.mpr ⟨raised, segmentId, file, loaded, reported⟩, ?_⟩
  refine ⟨_, recoverSegments_file loaded (recoverSingleSegment_kept reported raised), ?_⟩
  rw [recovered_recoverEntry]
  exact recoverSingleSegment_file visits storable here

end Located

end OtelDatalake.Disk
