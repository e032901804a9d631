import OtelDatalake.Disk.Ledger

open Std OtelDatalake.Foundation OtelDatalake.Buffer

namespace OtelDatalake.Disk

variable {Batch : Type} [RecordBatch Batch] {codec : Codec Batch}

/-- The writer's variables agree with the frames in the files. -/
structure Filed (first : Nat) (config : WriterConfig) (persisted : DiskWatermark) (segments : SegmentWriter)
    (stock : Stock codec) : Prop where
  laid : Laid first config.maxPayloadLen stock
  index : ∃ log, Indexed segments persisted log stock.dir ∧
    ∀ segmentId, ∀ frame ∈ stock.ledger segmentId, ⟨segmentId, frame.signal, frame.seqId⟩ ∈ log
  active : ∀ segment ∈ segments.active, first ≤ segment.segmentId ∧
    segment.bytesWritten = (framesBytes (stock.ledger segment.segmentId)).length
  fresh : segments.nextSegmentId < u64Max → first ≤ segments.nextSegmentId
  owned : ∀ segmentId, ∀ frame ∈ stock.ledger segmentId, first ≤ segmentId

def Ready (segment : ActiveSegment) (stock : Stock codec) : Prop :=
  ∃ file, stock.dir.segments[segment.segmentId]? = some file ∧
    file.bytes = framesBytes (stock.ledger segment.segmentId)

def Untorn (config : WriterConfig) (segments : SegmentWriter) (dir : Directory) (frameLen : Nat) : Prop :=
  ∀ segment ∈ segments.active, segment.rolls config frameLen = false →
    ∃ file, dir.segments[segment.segmentId]? = some file ∧ file.bytes.length = segment.bytesWritten

namespace Filed

variable {first : Nat} {config : WriterConfig} {persisted : DiskWatermark} {segments : SegmentWriter}
  {stock : Stock codec} {segment : ActiveSegment} {limit : SignalKind → Nat}

theorem ready {frameLen : Nat} (filed : Filed first config persisted segments stock)
    (untorn : Untorn config segments stock.dir frameLen) (current : segments.active = some segment)
    (stays : segment.rolls config frameLen = false) : Ready segment stock := by
  obtain ⟨file, found, length⟩ := untorn segment current stays
  obtain ⟨start, written⟩ := filed.active segment current
  obtain ⟨tail, bytes, _⟩ := filed.laid.files segment.segmentId file start found
  refine ⟨file, found, ?_⟩
  rw [bytes, List.length_append, written] at length
  rw [bytes, List.eq_nil_of_length_eq_zero (show tail.length = 0 by omega), List.append_nil]

theorem repend (filed : Filed first config persisted segments stock) (pending : List (Frame codec)) :
    Filed first config persisted segments { stock with pending := pending } where
  laid := ⟨filed.laid.files, filed.laid.storable, filed.laid.kept⟩
  index := filed.index
  active := filed.active
  fresh := filed.fresh
  owned := filed.owned

theorem watermarkOf (filed : Filed first config persisted segments stock) (signal : SignalKind) :
    stock.dir.watermarkOf signal = persisted.forSignal signal := by
  obtain ⟨log, indexed, _⟩ := filed.index
  rw [Directory.watermarkOf, indexed.stored]
  rfl

theorem dropActive (filed : Filed first config persisted segments stock) :
    Filed first config persisted { segments with active := none } stock where
  laid := filed.laid
  index := by
    obtain ⟨log, indexed, logged⟩ := filed.index
    exact ⟨log, indexed.dropActive, logged⟩
  active _ held := absurd held (Option.not_mem_none _)
  fresh := filed.fresh
  owned := filed.owned

theorem sync (filed : Filed first config persisted segments stock) (segmentId : Nat) :
    Filed first config persisted segments { stock with dir := stock.dir.apply (.sync segmentId) } where
  laid := filed.laid.step (show Stores config.maxPayloadLen (fun _ => 0) stock (.sync segmentId) _ from .sync)
  index := by
    obtain ⟨log, indexed, logged⟩ := filed.index
    exact ⟨log, indexed.sameFiles (fun _ => Directory.mem_sync) (Directory.sync_watermark _), logged⟩
  active := filed.active
  fresh := filed.fresh
  owned := filed.owned

theorem sealed (filed : Filed first config persisted segments stock) (current : segments.active = some segment) :
    Filed first config persisted
      { segments with active := none, sealedSegments := segments.sealedSegments ++ [segment.sealedMeta] } stock where
  laid := filed.laid
  index := by
    obtain ⟨log, indexed, logged⟩ := filed.index
    exact ⟨log, indexed.sealed current, logged⟩
  active _ held := absurd held (Option.not_mem_none _)
  fresh := filed.fresh
  owned := filed.owned

theorem operate_unlinks {maxPayloadLen : Nat} {removed : List Nat}
    (covered : ∀ segmentId ∈ removed, ∀ frame ∈ stock.ledger segmentId,
      frame.seqId ≤ stock.dir.watermarkOf frame.signal) :
    Operate (Stores maxPayloadLen limit) stock (removed.map .unlink)
      { stock with dir := stock.dir.applyAll (removed.map .unlink) } := by
  induction removed generalizing stock with
  | nil => exact .none stock
  | cons segmentId rest ih =>
    have later : Operate (Stores maxPayloadLen limit) { stock with dir := stock.dir.apply (.unlink segmentId) }
        (rest.map .unlink) { stock with dir := stock.dir.applyAll ((segmentId :: rest).map .unlink) } :=
      ih fun other member => covered other (List.mem_cons_of_mem _ member)
    exact .cons (.unlink (covered segmentId List.mem_cons_self)) later

theorem collect (filed : Filed first config persisted segments stock) (unlinks : Nat → Bool) :
    let collected := gcSealedSegments segments.sealedSegments persisted unlinks
    Operate (Stores config.maxPayloadLen limit) stock collected.2 { stock with dir := stock.dir.applyAll collected.2 } ∧
      Filed first config persisted { segments with sealedSegments := collected.1 }
        { stock with dir := stock.dir.applyAll collected.2 } := by
  obtain ⟨log, indexed, logged⟩ := filed.index
  have operated : Operate (Stores config.maxPayloadLen limit) stock
      (gcSealedSegments segments.sealedSegments persisted unlinks).2
      { stock with dir := stock.dir.applyAll (gcSealedSegments segments.sealedSegments persisted unlinks).2 } := by
    rw [gcSealedSegments_ops]
    refine operate_unlinks fun segmentId member frame listed => ?_
    obtain ⟨segment, chosen, rfl⟩ := List.mem_map.mp member
    obtain ⟨held, acked⟩ := List.mem_filter.mp chosen
    rw [Bool.and_eq_true] at acked
    rw [filed.watermarkOf]
    exact (indexed.sealedMax segment held _ (logged _ frame listed) rfl).trans
      (SealedSegmentMeta.isFullyAcked_le acked.1 frame.signal)
  refine ⟨operated, ?_⟩
  exact
    { laid := filed.laid.operate operated
      index := ⟨log, indexed.collect unlinks, logged⟩
      active := filed.active
      fresh := filed.fresh
      owned := filed.owned }

theorem advance (filed : Filed first config persisted segments stock) :
    Filed first config persisted { segments with nextSegmentId := saturatingSucc segments.nextSegmentId } stock where
  laid := filed.laid
  index := by
    obtain ⟨log, indexed, logged⟩ := filed.index
    exact ⟨log, indexed.advance, logged⟩
  active := filed.active
  fresh numbered := (filed.fresh (Indexed.lt_saturatingSucc numbered).1).trans (Indexed.lt_saturatingSucc numbered).2.le
  owned := filed.owned

theorem unused (filed : Filed first config persisted segments stock) (numbered : segments.nextSegmentId < u64Max) :
    stock.ledger segments.nextSegmentId = [] ∧ segments.nextSegmentId ∉ stock.dir.segments := by
  obtain ⟨log, indexed, logged⟩ := filed.index
  refine ⟨List.eq_nil_iff_forall_not_mem.mpr fun frame member => ?_, fun member => ?_⟩
  · exact absurd (indexed.logBelow numbered _ (logged _ frame member)) (Nat.lt_irrefl _)
  · exact absurd (indexed.files numbered _ member) (Nat.lt_irrefl _)

theorem create (filed : Filed first config persisted segments stock) (numbered : segments.nextSegmentId < u64Max) :
    Filed first config persisted
      { segments with
        nextSegmentId := saturatingSucc segments.nextSegmentId
        active := some { segmentId := segments.nextSegmentId } }
      { stock with dir := stock.dir.apply (.create segments.nextSegmentId) } where
  laid := filed.laid.step (show Stores config.maxPayloadLen (fun _ => 0) stock (.create segments.nextSegmentId) _
    from .create (filed.unused numbered).1 (filed.unused numbered).2)
  index := by
    obtain ⟨log, indexed, logged⟩ := filed.index
    exact ⟨log, indexed.create numbered, logged⟩
  active segment held := by
    cases held
    exact ⟨filed.fresh numbered, by simp [(filed.unused numbered).1]⟩
  fresh := filed.advance.fresh
  owned := filed.owned

theorem part {frame : Frame codec} {count : Nat} (filed : Filed first config persisted segments stock)
    (stores : Stores config.maxPayloadLen limit stock (.write segment.segmentId (frame.bytes.take count))
      { stock with dir := stock.dir.apply (.write segment.segmentId (frame.bytes.take count)) }) :
    Filed first config persisted segments
      { stock with dir := stock.dir.apply (.write segment.segmentId (frame.bytes.take count)) } where
  laid := filed.laid.step stores
  index := by
    obtain ⟨log, indexed, logged⟩ := filed.index
    exact ⟨log, indexed.sameFiles (fun _ => Directory.mem_write) (Directory.write_watermark _ _), logged⟩
  active := filed.active
  fresh := filed.fresh
  owned := filed.owned

theorem write {frame : Frame codec} {rest : List (Frame codec)}
    (filed : Filed first config persisted segments stock) (current : segments.active = some segment)
    (stores : Stores config.maxPayloadLen limit stock (.write segment.segmentId frame.bytes)
      { ledger := Function.update stock.ledger segment.segmentId (stock.ledger segment.segmentId ++ [frame])
        pending := rest
        dir := stock.dir.apply (.write segment.segmentId frame.bytes) }) :
    Filed first config persisted
      { segments with active := some (segment.grown frame.signal frame.seqId frame.bytes.length) }
      { ledger := Function.update stock.ledger segment.segmentId (stock.ledger segment.segmentId ++ [frame])
        pending := rest
        dir := stock.dir.apply (.write segment.segmentId frame.bytes) } where
  laid := filed.laid.step stores
  index := by
    obtain ⟨log, indexed, logged⟩ := filed.index
    refine ⟨_, indexed.write current frame.signal frame.seqId frame.bytes, fun segmentId other member => ?_⟩
    rcases mem_update_append.mp member with old | ⟨rfl, rfl⟩
    · exact List.mem_append_left _ (logged segmentId other old)
    · exact List.mem_append_right _ (List.mem_singleton.mpr rfl)
  active grown held := by
    cases held
    obtain ⟨start, written⟩ := filed.active segment current
    exact ⟨start, by simp [ActiveSegment.grown, written]⟩
  fresh := filed.fresh
  owned segmentId other member := by
    rcases mem_update_append.mp member with old | ⟨rfl, _⟩
    · exact filed.owned segmentId other old
    · exact (filed.active segment current).1

end Filed

def AppendRequest.Stands (ledger : Nat → List (Frame codec)) (request : AppendRequest codec)
    (written : WrittenFrame) : Prop :=
  (written.offset, request.stored) ∈ locate 0 (ledger written.segmentId) ∧
    written.len = request.stored.bytes.length

theorem AppendRequest.Stands.grow {ledger larger : Nat → List (Frame codec)} {request : AppendRequest codec}
    {written : WrittenFrame} (stands : request.Stands ledger written)
    (grows : ∀ segmentId, ledger segmentId <+: larger segmentId) : request.Stands larger written := by
  obtain ⟨more, same⟩ := grows written.segmentId
  refine ⟨?_, stands.2⟩
  rw [← same, locate_append]
  exact List.mem_append_left _ stands.1

section Stages

variable (first : Nat) (config : WriterConfig) (faults : WriteFaults) (persisted : DiskWatermark)
  (request : AppendRequest codec) (pending : List (Frame codec)) {limit : SignalKind → Nat}

theorem sealActive_filed (sync : Option String) (unlinks : Nat → Bool) (segment : ActiveSegment) (next : Nat)
    (inv : (Nat → List (Frame codec)) → List (Frame codec) → Prop) :
    Effect.Triple (Stores config.maxPayloadLen limit)
      (fun segments stock => Filed first config persisted segments stock ∧ segments.active = some segment ∧
        segments.nextSegmentId = next ∧ inv stock.ledger stock.pending)
      (sealActive persisted sync unlinks segment)
      (fun _ segments stock => Filed first config persisted segments stock ∧ segments.active = none ∧
        segments.nextSegmentId = next ∧ inv stock.ledger stock.pending) := by
  rintro segments stock ⟨filed, current, same, held⟩
  cases failed : sync with
  | some reason =>
    rw [sealActive_error unlinks rfl]
    exact ⟨_, .none _, filed.dropActive, rfl, same, held⟩
  | none =>
    rw [sealActive_ok unlinks rfl]
    obtain ⟨operated, collected⟩ := ((filed.sealed current).sync segment.segmentId).collect unlinks
    exact ⟨_, .cons .sync operated, collected, rfl, same, held⟩

theorem rollSegment_filed (frameLen : Nat) :
    Effect.Triple (Stores config.maxPayloadLen limit)
      (fun segments stock => Filed first config persisted segments stock ∧ segments.nextSegmentId < u64Max ∧
        Untorn config segments stock.dir frameLen ∧ stock.pending = pending)
      (rollSegment config persisted faults frameLen)
      (fun _ segments stock => Filed first config persisted segments stock ∧ segments.nextSegmentId < u64Max ∧
        (∀ segment ∈ segments.active, Ready segment stock) ∧ stock.pending = pending) := by
  rintro segments stock ⟨filed, numbered, untorn, queued⟩
  by_cases stays : ∀ segment ∈ segments.active, segment.rolls config frameLen = false
  · rw [rollSegment_stay stays]
    exact ⟨stock, .none _, filed, numbered, fun segment held => filed.ready untorn held (stays segment held), queued⟩
  · simp only [not_forall, Bool.not_eq_false] at stays
    obtain ⟨segment, current, rolls⟩ := stays
    rw [rollSegment_seal current rolls]
    obtain ⟨reached, operated, kept, idle, next, same⟩ := sealActive_filed first config persisted faults.rollSync
      faults.unlinks segment segments.nextSegmentId (fun _ queue => queue = pending) segments stock
      ⟨filed, current, rfl, queued⟩
    refine ⟨reached, operated, kept, next.trans_lt numbered, fun other held => ?_, same⟩
    rw [idle] at held
    cases held

theorem openSegment_filed :
    Effect.Triple (Stores config.maxPayloadLen limit)
      (fun segments stock => Filed first config persisted segments stock ∧ segments.nextSegmentId < u64Max ∧
        (∀ segment ∈ segments.active, Ready segment stock) ∧ stock.pending = pending)
      (openSegment config faults)
      (fun result segments stock => Filed first config persisted segments stock ∧
        stock.pending = pending ∧
        ∀ segment, result = .ok segment → segments.active = some segment ∧ Ready segment stock) := by
  rintro segments stock ⟨filed, numbered, ready, queued⟩
  cases current : segments.active with
  | some segment =>
    rw [openSegment_active current]
    refine ⟨_, .none _, filed, queued, fun other same => ?_⟩
    cases same
    exact ⟨current, ready segment current⟩
  | none =>
    cases failed : faults.create with
    | some reason =>
      rw [openSegment_error current failed]
      exact ⟨_, .none _, filed.advance, queued, fun _ same => by cases same⟩
    | none =>
      rw [openSegment_create current failed]
      have unused := filed.unused numbered
      refine ⟨_, .single (.create unused.1 unused.2), filed.create numbered, queued, fun segment same => ?_⟩
      cases same
      refine ⟨rfl, {}, ?_, ?_⟩
      · rw [Directory.getElem?_create, if_pos rfl]
      · simp [unused.1]

theorem writeFrame_filed (segment : ActiveSegment) (storable : request.stored.Storable)
    (bounded : request.stored.payload.length ≤ config.maxPayloadLen) :
    Effect.Triple (Stores config.maxPayloadLen limit)
      (fun segments stock => Filed first config persisted segments stock ∧
        stock.pending = request.stored :: pending ∧ segments.active = some segment ∧ Ready segment stock)
      (writeFrame config faults request.signal request.seqId request.stored.bytes segment)
      (fun result segments stock => Filed first config persisted segments stock ∧
        (stock.pending = pending ∨ stock.pending = request.stored :: pending) ∧
        ∀ grown, result = .ok grown → segments.active = some grown ∧
          (segment.bytesWritten, request.stored) ∈ locate 0 (stock.ledger segment.segmentId)) := by
  rintro segments stock ⟨filed, queued, current, file, found, clean⟩
  rcases writeFrame_cases faults request.stored.bytes with ⟨count, reason, failed, short⟩ | whole
  · rw [writeFrame_error failed short]
    have stores : Stores config.maxPayloadLen limit stock _ _ := .part found clean short bounded
    exact ⟨_, .single stores, filed.part stores, Or.inr queued, fun _ same => by cases same⟩
  · rw [writeFrame_ok whole]
    have stores : Stores config.maxPayloadLen limit stock _ _ := .whole queued found clean storable bounded
    refine ⟨_, .single stores, filed.write current stores, Or.inl rfl, fun grown same => ?_⟩
    cases same
    refine ⟨rfl, ?_⟩
    simp [locate_append, locate, (filed.active segment current).2]

theorem sealFull_filed (segment : ActiveSegment) (inv : (Nat → List (Frame codec)) → List (Frame codec) → Prop) :
    Effect.Triple (Stores config.maxPayloadLen limit)
      (fun segments stock => Filed first config persisted segments stock ∧ segments.active = some segment ∧
        inv stock.ledger stock.pending)
      (sealFull config persisted faults segment)
      (fun _ segments stock => Filed first config persisted segments stock ∧ inv stock.ledger stock.pending) := by
  rintro segments stock ⟨filed, current, held⟩
  unfold sealFull
  split
  · obtain ⟨reached, operated, kept, _, _, same⟩ := sealActive_filed first config persisted faults.sealSync
      faults.unlinks segment segments.nextSegmentId inv segments stock ⟨filed, current, rfl, held⟩
    exact ⟨reached, operated, kept, same⟩
  · exact ⟨stock, .none _, filed, held⟩

theorem storeFrame_filed (storable : request.stored.Storable)
    (bounded : request.stored.payload.length ≤ config.maxPayloadLen) :
    Effect.Triple (Stores config.maxPayloadLen limit)
      (fun segments stock => Filed first config persisted segments stock ∧ segments.nextSegmentId < u64Max ∧
        Untorn config segments stock.dir request.stored.bytes.length ∧ stock.pending = request.stored :: pending)
      (storeFrame config persisted faults request.signal request.seqId request.stored.bytes)
      (fun result segments stock => Filed first config persisted segments stock ∧
        (stock.pending = pending ∨ stock.pending = request.stored :: pending) ∧
        ∀ written, result = .ok written → request.Stands stock.ledger written) := by
  refine (rollSegment_filed first config faults persisted (request.stored :: pending) _).bind
    (fun _ _ _ kept => ⟨kept.1, Or.inr kept.2.2.2, fun _ same => by cases same⟩) fun _ => ?_
  refine (openSegment_filed first config faults persisted (request.stored :: pending)).bind
    (fun _ _ _ kept => ⟨kept.1, Or.inr kept.2.1, fun _ same => by cases same⟩) fun segment => ?_
  refine Effect.Triple.weaken (fun _ _ opened => ⟨opened.1, opened.2.1, opened.2.2 segment rfl⟩)
    ((writeFrame_filed first config faults persisted request pending segment storable bounded).bind
      (fun _ _ _ kept => ⟨kept.1, kept.2.1, fun _ same => by cases same⟩) fun grown => ?_)
  refine Effect.Triple.weaken
    (fun _ _ written => ⟨written.1, (written.2.2 grown rfl).1, written.2.1, (written.2.2 grown rfl).2⟩)
    ((sealFull_filed first config faults persisted grown fun ledger queue =>
      (queue = pending ∨ queue = request.stored :: pending) ∧
        (segment.bytesWritten, request.stored) ∈ locate 0 (ledger segment.segmentId)).bind
      (fun _ _ _ kept => ⟨kept.1, kept.2.1, fun _ same => by cases same⟩) fun _ => ?_)
  refine Effect.Triple.pure fun segments stock kept => ⟨kept.1, kept.2.1, fun written same => ?_⟩
  cases same
  exact ⟨kept.2.2, rfl⟩

theorem AppendRequest.stored_length (request : AppendRequest codec) :
    request.stored.bytes.length = request.frame.bytes.length := by
  rw [request.stored.bytes_length, request.frame.bytes_length]
  rfl

/-- What an append does to the files, whichever of its system calls fail. -/
theorem writeEncodedFrame_filed (rows : Nat) {segments : SegmentWriter} {stock : Stock codec}
    (filed : Filed first config persisted segments stock) (assigned : segments.nextSegmentId < u64Max)
    (untorn : Untorn config segments stock.dir request.frame.bytes.length)
    (queued : stock.pending = request.stored :: pending) :
    let written := writeEncodedFrame config persisted faults codec request.signal request.seqId rows
      request.frame.bytes segments
    ∃ reached, Operate (Stores config.maxPayloadLen limit) stock written.2.2 reached ∧
      Filed first config persisted written.2.1 reached ∧
      (reached.pending = pending ∨ reached.pending = request.stored :: pending) ∧
      ∀ place, written.1 = .ok place → request.Stands reached.ledger place := by
  cases numbered : numberFrame codec config request.signal request.seqId rows request.frame.bytes with
  | error reason =>
    simp only [writeEncodedFrame, numbered, Effect.fail]
    exact ⟨stock, .none _, filed, Or.inr queued, fun _ same => by cases same⟩
  | ok bytes =>
    obtain ⟨same, storable, bounded⟩ := numberFrame_ok numbered
    simp only [writeEncodedFrame, numbered, same]
    refine storeFrame_filed first config faults persisted request pending storable bounded segments stock
      ⟨filed, assigned, ?_, queued⟩
    rw [request.stored_length]
    exact untorn

end Stages

/-- An append goes to a new segment, or to one whose file has the length that the writer takes it to have. -/
def cleanAppend (config : WriterConfig) (world : WriterWorld codec) : WriterAction codec → Bool
  | .process _ =>
    match world.writer.phase, world.writer.segments.active with
    | .processing (.appendEncoded request :: _) _, some segment =>
      segment.rolls config request.frame.bytes.length ||
        world.dir.segments[segment.segmentId]?.any fun file => file.bytes.length == segment.bytesWritten
    | _, _ => true
  | _ => true

theorem untorn_of_clean {config : WriterConfig} {world : WriterWorld codec} {faults : WriteFaults}
    {request : AppendRequest codec} {todo : List (WriterCommand codec)} {progress : BatchProgress codec}
    (clean : cleanAppend config world (.process faults) = true)
    (phase : world.writer.phase = .processing (.appendEncoded request :: todo) progress) :
    Untorn config world.writer.segments world.dir request.frame.bytes.length := by
  intro segment current stays
  rw [Option.mem_def] at current
  simp only [cleanAppend, phase, current, stays, Bool.false_or] at clean
  obtain ⟨file, found, length⟩ := (Option.any_eq_true _ _).mp clean
  exact ⟨file, found, by simpa using length⟩

theorem Filed.moves {first : Nat} {config : WriterConfig} {world : WriterWorld codec} {next : Writer codec}
    {action : WriterAction codec} {ops : List FsOp} {ledger : Nat → List (Frame codec)} {others : List (Frame codec)}
    {limit : SignalKind → Nat}
    (filed : Filed first config world.writer.persistedWatermark world.writer.segments
      ⟨ledger, world.writer.requests.map (·.stored) ++ others, world.dir⟩)
    (staged : ∀ signal, world.writer.persistedWatermark.forSignal signal ≤
      world.writer.stagedWatermark.forSignal signal)
    (limited : ∀ signal, world.writer.stagedWatermark.forSignal signal ≤ limit signal)
    (moves : Writer.Moves config world.writer action next ops) (clean : cleanAppend config world action = true) :
    ∃ reached, Operate (Stores config.maxPayloadLen limit)
        ⟨ledger, world.writer.requests.map (·.stored) ++ others, world.dir⟩ ops reached ∧
      Filed first config next.persistedWatermark next.segments reached ∧
      (reached.pending = world.writer.requests.map (·.stored) ++ others ∨
        reached.pending = next.requests.map (·.stored) ++ others) ∧
      ∀ faults request todo progress, action = .process faults →
        world.writer.phase = .processing (.appendEncoded request :: todo) progress → ∀ written,
        (writeEncodedFrame config world.writer.persistedWatermark faults codec request.signal request.seqId
          request.frame.header.rowCount request.frame.bytes world.writer.segments).1 = .ok written →
        request.Stands reached.ledger written := by
  cases moves with
  | @process faults command todo progress phase numbered =>
    cases command with
    | appendEncoded request =>
      have queued := Writer.requests_processing phase
      have untorn := untorn_of_clean clean phase
      obtain ⟨reached, operated, kept, pending, stands⟩ := writeEncodedFrame_filed first config faults
        world.writer.persistedWatermark request
        (((todo ++ world.writer.channel).filterMap (·.request?)).map (·.stored) ++ others)
        request.frame.header.rowCount filed numbered untorn (by rw [queued]; rfl)
      refine ⟨reached, operated, kept, ?_, ?_⟩
      · rw [Writer.requests_process]
        rcases pending with left | still
        · exact Or.inr left
        · refine Or.inl ?_
          rw [still, queued]
          rfl
      · intro again other more state same here written ok
        rw [phase] at here
        cases same
        cases here
        exact stands written ok
    | updateWatermark watermark =>
      exact ⟨_, .none _, filed, Or.inl rfl, fun _ _ _ _ _ here => by rw [phase] at here; cases here⟩
    | flushWatermark watermark =>
      exact ⟨_, .none _, filed, Or.inl rfl, fun _ _ _ _ _ here => by rw [phase] at here; cases here⟩
    | shutdown =>
      exact ⟨_, .none _, filed, Or.inl rfl, fun _ _ _ _ _ here => by rw [phase] at here; cases here⟩
  | @synced progress segment phase due =>
    exact ⟨_, .single .sync, filed.sync segment.segmentId, Or.inl rfl, fun _ _ _ _ same => by cases same⟩
  | @persist fault unlinks syncErr shutdown phase =>
    simp only [Writer.persistWatermark]
    split
    · exact ⟨_, .none _, filed, Or.inl rfl, fun _ _ _ _ same => by cases same⟩
    · obtain ⟨log, indexed, logged⟩ := filed.index
      have stores : Stores config.maxPayloadLen limit
          ⟨ledger, world.writer.requests.map (·.stored) ++ others, world.dir⟩
          (.replaceWatermark world.writer.stagedWatermark) _ :=
        .replace (fun signal => by rw [filed.watermarkOf]; exact staged signal) limited
      have replaced : Filed first config world.writer.stagedWatermark world.writer.segments
          ⟨ledger, world.writer.requests.map (·.stored) ++ others,
            world.dir.apply (.replaceWatermark world.writer.stagedWatermark)⟩ :=
        { laid := filed.laid.step stores
          index := ⟨log, indexed.replace staged, logged⟩
          active := filed.active
          fresh := filed.fresh
          owned := filed.owned }
      obtain ⟨operated, collected⟩ := replaced.collect unlinks
      exact ⟨_, .cons stores operated, collected, Or.inl rfl, fun _ _ _ _ same => by cases same⟩
  | leave phase sync =>
    rcases sync with rfl | ⟨segment, _, rfl⟩
    · exact ⟨_, .none _, filed.dropActive, Or.inl rfl, fun _ _ _ _ same => by cases same⟩
    · exact ⟨_, .single .sync, filed.dropActive.sync segment.segmentId, Or.inl rfl, fun _ _ _ _ same => by cases same⟩
  | submit command => exact ⟨_, .none _, filed, Or.inl rfl, fun _ _ _ _ same => by cases same⟩
  | receive phase => exact ⟨_, .none _, filed, Or.inl rfl, fun _ _ _ _ same => by cases same⟩
  | unsynced phase due => exact ⟨_, .none _, filed, Or.inl rfl, fun _ _ _ _ same => by cases same⟩
  | syncFailed phase => exact ⟨_, .none _, filed, Or.inl rfl, fun _ _ _ _ same => by cases same⟩
  | reply phase => exact ⟨_, .none _, filed, Or.inl rfl, fun _ _ _ _ same => by cases same⟩
  | clean phase => exact ⟨_, .none _, filed, Or.inl rfl, fun _ _ _ _ same => by cases same⟩
  | abandon phase channel => exact ⟨_, .none _, filed, Or.inl rfl, fun _ _ _ _ same => by cases same⟩

namespace WriterWorld

variable {first : Nat} {config : WriterConfig} {world next : WriterWorld codec} {ledger : Nat → List (Frame codec)}

/-- The writer's variables and answers agree with the frames in the files. -/
structure Laying (first : Nat) (config : WriterConfig) (ledger : Nat → List (Frame codec))
    (world : WriterWorld codec) : Prop where
  filed : Filed first config world.writer.persistedWatermark world.writer.segments ⟨ledger, [], world.dir⟩
  staged : ∀ signal, world.writer.persistedWatermark.forSignal signal ≤
    world.writer.stagedWatermark.forSignal signal
  stands : Granted (AppendRequest.Stands ledger) world.writer.replies

theorem Laying.moves {writer : Writer codec} {action : WriterAction codec} {ops : List FsOp}
    (laying : Laying first config ledger world) (moves : Writer.Moves config world.writer action writer ops)
    (clean : cleanAppend config world action = true) {limit : SignalKind → Nat}
    (limited : ∀ signal, world.writer.stagedWatermark.forSignal signal ≤ limit signal) (others : List (Frame codec)) :
    ∃ reached, Operate (Stores config.maxPayloadLen limit)
        ⟨ledger, world.writer.requests.map (·.stored) ++ others, world.dir⟩ ops reached ∧
      Laying first config reached.ledger ⟨writer, reached.dir⟩ ∧
      (reached.pending = world.writer.requests.map (·.stored) ++ others ∨
        reached.pending = writer.requests.map (·.stored) ++ others) := by
  obtain ⟨reached, operated, filed, pending, fresh⟩ := (laying.filed.repend _).moves laying.staged limited
    moves clean
  refine ⟨reached, operated, ⟨filed.repend [], moves.staged_le laying.staged, ?_⟩, pending⟩
  exact moves.granted (laying.stands.mono fun request written stands => stands.grow (stores_grow operated)) fresh

theorem Laying.step {action : WriterAction codec} (laying : Laying first config ledger world)
    (clean : cleanAppend config world action = true) (stepped : world.step config action = some next) :
    ∃ larger, Laying first config larger next := by
  obtain ⟨⟨writer, ops⟩, moved, rfl⟩ := Option.map_eq_some_iff.mp stepped
  obtain ⟨reached, operated, kept, _⟩ := laying.moves (Writer.moves_of_transition moved) clean
    (fun _ => le_rfl) []
  rw [stores_dir operated] at kept
  exact ⟨reached.ledger, kept⟩

def firstFree (dir : Directory) : Nat := (dir.segments.toList.map Prod.fst).foldl max 0 + 1

theorem Laying.opened (codec : Codec Batch) (config : WriterConfig) (generatedId : Nat) (now : Instant)
    (unlinks : Nat → Bool) (dir : Directory) :
    Laying (firstFree dir) config (fun _ => []) (opened codec config generatedId now unlinks dir) := by
  have tracked := Tracked.opened codec config generatedId now unlinks dir
  have next : (WriterWorld.opened codec config generatedId now unlinks dir).writer.segments.nextSegmentId =
      min (firstFree dir) u64Max := by
    simp only [WriterWorld.opened, openAndRecover, recoverSegments, loadInitialWatermark_segments]
    rfl
  refine ⟨?_, tracked.staged, granted_nil⟩
  exact
    { laid :=
        { files := fun segmentId file start found => by
            obtain ⟨old, there, _⟩ := recoverSegments_found found
            rw [loadInitialWatermark_segments] at there
            have listed := ExtTreeMap.mem_toList_iff_getElem?_eq_some.mpr there
            have below := le_foldl_max 0 (List.mem_map_of_mem (f := Prod.fst) listed)
            exact absurd (Nat.lt_succ_of_le below) (Nat.not_lt.mpr start)
          storable := fun _ _ member => absurd member List.not_mem_nil
          kept := fun _ _ member => absurd member List.not_mem_nil }
      index := ⟨_, tracked.indexed, fun _ _ member => absurd member List.not_mem_nil⟩
      active := fun _ held => absurd held (Option.not_mem_none _)
      fresh := fun numbered => by
        rw [next] at numbered ⊢
        omega
      owned := fun _ _ member => absurd member List.not_mem_nil }

/-- An append is stored where it was reported to be, and recovery enqueues it there if it is unacknowledged. -/
structure Isolated (config : WriterConfig) (dir : Directory) (request : AppendRequest codec)
    (written : WrittenFrame) : Prop where
  stored : ∀ file, dir.segments[written.segmentId]? = some file →
    slice written.offset written.len file.bytes = request.stored.bytes ∧
      readFrameAt codec config dir written = .ok request.frame.batch
  recovered : dir.watermarkOf request.signal < request.seqId → written.segmentId ∈ dir.segments ∧
    ∀ generatedId now unlinks, Reenqueued now written.segmentId (written.offset, request.stored)
      (openAndRecover codec config.maxPayloadLen generatedId now unlinks dir)

theorem Laying.isolated {request : AppendRequest codec} {written : WrittenFrame}
    (laying : Laying first config ledger world) (stands : request.Stands ledger written) :
    Isolated config world.dir request written := by
  obtain ⟨member, length⟩ := stands
  have start := laying.filed.owned written.segmentId request.stored (locate_mem member)
  have laid := laying.filed.laid
  have place : written = { written with len := request.stored.bytes.length } := by rw [← length]
  constructor
  · intro file found
    obtain ⟨_, rest, here⟩ := laid.stands start member found
    constructor
    · rw [length, slice, here, List.take_left]
    · rw [place]
      exact laid.read start member found config
  · intro above
    exact ⟨laid.kept written.segmentId request.stored (locate_mem member) above, fun generatedId now unlinks =>
      laid.reenqueued start member above generatedId now unlinks⟩

/-- In every run that never appends behind a part of a failed frame, every append that was answered `Ok` is isolated
    from the failures of the others. -/
theorem append_isolated_of_run (config : WriterConfig) (generatedId : Nat) (now : Instant) (unlinks : Nat → Bool)
    (dir : Directory) {world : WriterWorld codec}
    (run : Run (step config) (fun world action => cleanAppend config world action = true)
      (opened codec config generatedId now unlinks dir) world) :
    Granted (Isolated config world.dir) world.writer.answers := by
  obtain ⟨ledger, laying⟩ := run.invariant
    (fun world => ∃ ledger, Laying (firstFree dir) config ledger world)
    ⟨_, .opened codec config generatedId now unlinks dir⟩
    fun _ _ _ ⟨_, laying⟩ clean stepped => laying.step clean stepped
  exact (granted_append.mp laying.stands).2.mono fun _ _ => laying.isolated

def wideSegments : WriterConfig :=
  { dir := "/var/lib/buffer", segmentSizeBytes := 100, maxPayloadLen := 4096, syncOnWrite := true }

def logRequest (seqId : UInt8) (body : Bytes) : WriterAction plainCodec :=
  .submit (.appendEncoded { frame := logFrame 0 body, seqId := seqId.toNat, numbered := byte_le_u64Max seqId })

def openedEmpty (config : WriterConfig) : WriterWorld plainCodec := opened plainCodec config 7 0 (fun _ => true) {}

/-- The second write breaks off after five bytes; the third frame is too long for the rest of the segment. -/
def rolledAfterFault : List (WriterAction plainCodec) :=
  [logRequest 1 [7], logRequest 2 [8], logRequest 3 (List.replicate 70 9), .receive, .process {},
    .process { write := some (5, "no space") }, .process {}, .sync none, .reply, .reply, .reply]

theorem append_isolated_of_run_rolledAfterFault :
    ∃ world, executePermitted (step wideSegments) (fun world action => cleanAppend wideSegments world action = true)
        (openedEmpty wideSegments) rolledAfterFault = some world ∧
      world.writer.answers.map (fun reply => reply.2.toOption) = [some ⟨1, 0, 31⟩, none, some ⟨2, 0, 100⟩] ∧
      Granted (Isolated wideSegments world.dir) world.writer.answers := by
  have answered : ((executePermitted (step wideSegments)
      (fun world action => cleanAppend wideSegments world action = true) (openedEmpty wideSegments)
      rolledAfterFault).any fun world => decide (world.writer.answers.map (fun reply => reply.2.toOption) =
        [some ⟨1, 0, 31⟩, none, some ⟨2, 0, 100⟩])) = true := by
    decide
  obtain ⟨world, executed, answers⟩ := (Option.any_eq_true _ _).mp answered
  refine ⟨world, executed, of_decide_eq_true answers, ?_⟩
  exact append_isolated_of_run wideSegments 7 0 (fun _ => true) {} (executePermitted_run _ _ rolledAfterFault executed)

/-- The second write breaks off, and the third frame goes behind what it has left. -/
def appendedAfterFault : List (WriterAction plainCodec) :=
  [logRequest 1 [7], logRequest 2 [8], logRequest 3 [9], .receive, .process {},
    .process { write := some (5, "no space") }, .process {}, .sync none, .reply, .reply, .reply]

/-- The answer to the third append names a place at which there is something else. -/
theorem append_isolation_fails :
    ¬∀ world, Run (step wideSegments) (fun _ _ => True) (openedEmpty wideSegments) world →
      Granted (Isolated wideSegments world.dir) world.writer.answers := by
  intro isolated
  have misplaced : ((execute (step wideSegments) (openedEmpty wideSegments) appendedAfterFault).any fun world =>
      world.writer.answers.any fun reply => reply.2.toOption.any fun written =>
        world.dir.segments[written.segmentId]?.any fun file =>
          slice written.offset written.len file.bytes != reply.1.stored.bytes) = true := by
    decide +kernel
  obtain ⟨world, executed, answered⟩ := (Option.any_eq_true _ _).mp misplaced
  obtain ⟨reply, member, wrong⟩ := List.any_eq_true.mp answered
  have granted := isolated world (execute_run (fun _ _ => trivial) appendedAfterFault executed) reply member
  obtain ⟨written, answer, displaced⟩ := (Option.any_eq_true _ _).mp wrong
  cases ok : reply.2 with
  | error reason =>
    rw [ok] at answer
    cases answer
  | ok place =>
    rw [ok] at answer
    cases answer
    obtain ⟨file, found, differs⟩ := (Option.any_eq_true _ _).mp displaced
    rw [((granted written ok).stored file found).1] at differs
    simp at differs

end WriterWorld

end OtelDatalake.Disk
