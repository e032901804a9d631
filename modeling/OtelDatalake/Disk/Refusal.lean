import OtelDatalake.Disk.Reopening

open Std OtelDatalake.Foundation OtelDatalake.Buffer

namespace OtelDatalake.Disk

variable {Batch : Type} [RecordBatch Batch] {codec : Codec Batch}

section Stages

variable (config : WriterConfig) (faults : WriteFaults) (persisted : DiskWatermark) (request : AppendRequest codec)
  (log : List LoggedFrame)

theorem sealActive_unlogged (sync : Option String) (unlinks : Nat → Bool) (segment : ActiveSegment) :
    Effect.Triple (Logs request) (fun _ store => store.2 = log) (sealActive persisted sync unlinks segment)
      (fun _ _ store => store.2 = log) := by
  rintro segments store same
  cases failed : sync with
  | some reason =>
    rw [sealActive_error unlinks rfl]
    exact ⟨_, .none _, same⟩
  | none =>
    rw [sealActive_ok unlinks rfl]
    refine ⟨_, Logs.operate request _ _, ?_⟩
    rw [List.filterMap_cons_none rfl, gcSealedSegments_logged, List.append_nil]
    exact same

theorem rollSegment_unlogged (frameLen : Nat) :
    Effect.Triple (Logs request) (fun _ store => store.2 = log) (rollSegment config persisted faults frameLen)
      (fun _ _ store => store.2 = log) := by
  intro segments store same
  by_cases stays : ∀ segment ∈ segments.active, segment.rolls config frameLen = false
  · rw [rollSegment_stay stays]
    exact ⟨store, .none _, same⟩
  · simp only [not_forall, Bool.not_eq_false] at stays
    obtain ⟨segment, current, rolls⟩ := stays
    rw [rollSegment_seal current rolls]
    exact sealActive_unlogged persisted request log faults.rollSync faults.unlinks segment segments store same

theorem openSegment_unlogged :
    Effect.Triple (Logs request) (fun _ store => store.2 = log) (openSegment config faults)
      (fun _ _ store => store.2 = log) := by
  rintro segments store same
  cases current : segments.active with
  | some segment =>
    rw [openSegment_active current]
    exact ⟨store, .none _, same⟩
  | none =>
    cases failed : faults.create with
    | some reason =>
      rw [openSegment_error current failed]
      exact ⟨store, .none _, same⟩
    | none =>
      rw [openSegment_create current failed]
      exact ⟨_, .single rfl, by simpa [AppendRequest.logged] using same⟩

theorem writeFrame_unlogged (segment : ActiveSegment) :
    Effect.Triple (Logs request) (fun _ store => store.2 = log)
      (writeFrame config faults request.signal request.seqId request.stored.bytes segment)
      (fun result _ store => ∀ reason, result = .error reason → store.2 = log) := by
  intro segments store same
  rcases writeFrame_cases faults request.stored.bytes with ⟨count, reason, failed, short⟩ | whole
  · rw [writeFrame_error failed short]
    have unlogged : request.logged (.write segment.segmentId (request.stored.bytes.take count)) = none :=
      if_neg (Frame.part_ne short)
    exact ⟨_, .single rfl, fun _ _ => by simpa [unlogged] using same⟩
  · rw [writeFrame_ok whole]
    exact ⟨_, .single rfl, fun _ failed => by cases failed⟩

/-- Behind a whole frame only the sync of a full segment can fail. -/
theorem sealFull_succeeds (synced : faults.sealSync = none) (segment : ActiveSegment) :
    Effect.Triple (Logs request) (fun _ _ => True) (sealFull config persisted faults segment)
      (fun result _ _ => result = .ok ()) := by
  intro segments store _
  unfold sealFull
  split
  · rw [sealActive_ok faults.unlinks synced]
    exact ⟨_, Logs.operate request _ _, rfl⟩
  · exact ⟨store, .none _, rfl⟩

theorem storeFrame_unlogged (synced : faults.sealSync = none) :
    Effect.Triple (Logs request) (fun _ store => store.2 = log)
      (storeFrame config persisted faults request.signal request.seqId request.stored.bytes)
      (fun result _ store => ∀ reason, result = .error reason → store.2 = log) := by
  refine (rollSegment_unlogged config faults persisted request log _).bind (fun _ _ _ same _ _ => same) fun _ => ?_
  refine (openSegment_unlogged config faults request log).bind (fun _ _ _ same _ _ => same) fun segment => ?_
  refine (writeFrame_unlogged config faults request log segment).bind (fun reason _ _ same _ _ => same reason rfl)
    fun grown => ?_
  refine Effect.Triple.weaken (fun _ _ _ => trivial) ((sealFull_succeeds config faults persisted request synced
    grown).bind (fun _ _ _ failed => by cases failed) fun _ => ?_)
  exact Effect.Triple.pure fun _ _ _ _ failed => by cases failed

/-- An append that fails has not written its frame, unless a sync has failed behind it. -/
theorem writeEncodedFrame_unlogged (synced : faults.sealSync = none) (rows : Nat) (segments : SegmentWriter) :
    let written := writeEncodedFrame config persisted faults codec request.signal request.seqId rows
      request.frame.bytes segments
    ∀ reason, written.1 = .error reason → written.2.2.filterMap request.logged = [] := by
  cases numbered : numberFrame codec config request.signal request.seqId rows request.frame.bytes with
  | error reason =>
    simp only [writeEncodedFrame, numbered, Effect.fail]
    exact fun _ _ => rfl
  | ok bytes =>
    simp only [writeEncodedFrame, numbered, (numberFrame_ok numbered).1]
    intro reason failed
    obtain ⟨reached, operated, same⟩ := storeFrame_unlogged config faults persisted request [] synced segments
      ({}, []) rfl
    have whole := Logs.eq operated
    rw [Prod.ext_iff] at whole
    rw [← same reason failed, whole.2, List.nil_append]

end Stages

def WriterPhase.syncErr : WriterPhase codec → Option String
  | .replying _ syncErr _ _ => syncErr
  | _ => none

namespace Writer

variable {config : WriterConfig} {writer next : Writer codec} {action : WriterAction codec} {ops : List FsOp}

/-- The appends whose answer, still to be given, is an error. -/
def Refuses (writer : Writer codec) (request : AppendRequest codec) : Prop :=
  ∃ reply ∈ writer.phase.pending, reply.1 = request ∧ ∃ reason, finalAnswer writer.phase.syncErr reply.2 = .error reason

/-- No sync fails behind a frame that was written whole. -/
def syncsHold (writer : Writer codec) : WriterAction codec → Bool
  | .process faults => faults.sealSync.isNone
  | .sync fault => fault.isNone || writer.phase.pending.all fun reply => !reply.2.isOk
  | _ => true

theorem Moves.refuses (moves : Moves config writer action next ops) (holds : writer.syncsHold action = true)
    {request : AppendRequest codec} (refuses : next.Refuses request) :
    writer.Refuses request ∨ next.log = writer.log ∧ ∃ faults todo progress, action = .process faults ∧
      writer.phase = .processing (.appendEncoded request :: todo) progress := by
  obtain ⟨reply, member, rfl, reason, refused⟩ := refuses
  cases moves with
  | submit command => exact .inl ⟨reply, member, rfl, reason, refused⟩
  | abandon phase channel => exact .inl ⟨reply, member, rfl, reason, refused⟩
  | receive phase => cases member
  | leave phase sync => cases member
  | @persist _ _ _ shutdown phase => cases shutdown <;> cases member
  | @clean _ _ _ shutdown phase => cases shutdown <;> cases member
  | @process faults command todo progress phase _ =>
    have unsynced : (writer.processCommand config faults todo progress command).1.phase.syncErr = none := by
      cases command <;> rfl
    rw [unsynced] at refused
    have earlier : reply ∈ progress.appendReplies → writer.Refuses reply.1 := fun listed =>
      ⟨reply, by rwa [phase], rfl, reason, by rw [phase]; exact refused⟩
    cases command with
    | appendEncoded request =>
      rcases List.mem_append.mp member with old | new
      · exact .inl (earlier old)
      · rw [List.mem_singleton] at new
        subst new
        have synced : faults.sealSync = none := by simpa [syncsHold] using holds
        have unlogged := writeEncodedFrame_unlogged config faults writer.persistedWatermark request synced
          request.frame.header.rowCount writer.segments reason refused
        exact .inr ⟨by simp only [processCommand, unlogged, List.append_nil], faults, todo, progress, rfl, phase⟩
    | updateWatermark watermark => exact .inl (earlier member)
    | flushWatermark watermark => exact .inl (earlier member)
    | shutdown => exact .inl (earlier member)
  | unsynced phase due => exact .inl ⟨reply, by rwa [phase], rfl, reason, by rw [phase]; exact refused⟩
  | synced phase due => exact .inl ⟨reply, by rwa [phase], rfl, reason, by rw [phase]; exact refused⟩
  | syncFailed phase =>
    simp only [syncsHold, phase, Option.isNone_some, Bool.false_or] at holds
    have failed := List.all_eq_true.mp holds reply member
    refine .inl ⟨reply, by rwa [phase], rfl, ?_⟩
    rw [phase]
    cases result : reply.2 with
    | error reason => exact ⟨reason, rfl⟩
    | ok written =>
      rw [result] at failed
      cases failed
  | reply phase =>
    exact .inl ⟨reply, by rw [phase]; exact List.mem_cons_of_mem _ member, rfl, reason, by rw [phase]; exact refused⟩

end Writer

namespace DiskWorld

variable {inner : BufferInner} {config : WriterConfig} {origin : SignalKind → SignalRing Batch}
  {ledger larger : Nat → List (Frame codec)} {world next : DiskWorld codec} {signal : SignalKind} {seqId : Nat}

/-- The number has been given out, and no frame under it stands in a segment or is on its way there. -/
structure Unstored (ledger : Nat → List (Frame codec)) (world : DiskWorld codec) (signal : SignalKind) (seqId : Nat) :
    Prop where
  given : seqId < world.nextSeq signal
  absent : ∀ segmentId, ∀ frame ∈ ledger segmentId ++ world.requests.map (·.stored), frame.key ≠ (signal, seqId)

theorem Unstored.drawn (unstored : Unstored ledger world signal seqId) (drawn : Drawn ledger larger world next) :
    Unstored larger next signal seqId where
  given := unstored.given.trans_le (drawn.counted signal)
  absent segmentId frame member key := by
    rcases drawn.known segmentId frame member with ⟨other, known⟩ | late
    · exact unstored.absent other frame known key
    · obtain ⟨rfl, rfl⟩ := Prod.mk.inj key
      exact absurd unstored.given (Nat.not_lt.mpr late)

theorem Unstored.not_holds (unstored : Unstored ledger world signal seqId)
    (sane : Sane inner config origin ledger world) (payload : BatchPayload Batch) :
    ¬ (world.rings signal).Holds seqId payload := by
  intro holds
  have located := sane.located signal seqId payload holds
  cases payload with
  | inMemory batch => exact located
  | onDisk segmentId offset len rows schema =>
    obtain ⟨frame, member, key, _⟩ := located
    exact unstored.absent segmentId frame (List.mem_append_left _ (locate_mem member)) key

theorem Sane.unstored (sane : Sane inner config origin ledger world) {request : AppendRequest codec}
    (left : world.requests.Perm (request :: next.requests)) (counted : next.nextSeq = world.nextSeq) :
    Unstored ledger next request.signal request.seqId := by
  have queued : request.stored ∈ world.requests.map (·.stored) :=
    List.mem_map_of_mem (left.mem_iff.mpr List.mem_cons_self)
  refine ⟨?_, fun segmentId frame member key => ?_⟩
  · rw [counted]
    exact sane.numbers.below 0 request.stored (List.mem_append_right _ queued)
  · have once := (((left.map (·.stored)).append_left (ledger segmentId)).map Frame.key).nodup_iff.mp
      (sane.numbers.once segmentId)
    rw [List.map_append, List.map_cons, List.map_cons, List.nodup_middle, ← List.map_append] at once
    refine (List.nodup_cons.mp once).1 ?_
    rw [show request.stored.key = (request.signal, request.seqId) from rfl, ← key]
    exact List.mem_map_of_mem member

/-- Nothing of an append that is to be answered with an error stands in a file. -/
def Denied (ledger : Nat → List (Frame codec)) (world : DiskWorld codec) : Prop :=
  ∀ request, world.writer.Refuses request → Unstored ledger world request.signal request.seqId

def syncsHold (world : DiskWorld codec) : DiskAction codec → Bool
  | .writer action => world.writer.syncsHold action
  | _ => true

inductive Drives (config : WriterConfig) (world : DiskWorld codec) (action : DiskAction codec)
    (next : DiskWorld codec) : Prop where
  | idle (same : next.writer = world.writer)
  | moves {acted : WriterAction codec} {ops : List FsOp}
      (moves : Writer.Moves config world.writer acted next.writer ops)
      (faulty : ∀ faults, acted = .process faults → action = .writer acted)
      (holds : world.syncsHold action = true → world.writer.syncsHold acted = true)

theorem Drives.of_stepWriter {action : DiskAction codec} {acted : WriterAction codec} {between : DiskWorld codec}
    (stepped : between.stepWriter config acted = some next) (same : between.writer = world.writer)
    (faulty : ∀ faults, acted = .process faults → action = .writer acted)
    (holds : world.syncsHold action = true → world.writer.syncsHold acted = true) :
    Drives config world action next := by
  obtain ⟨_, moved, rfl⟩ := Option.map_eq_some_iff.mp stepped
  obtain ⟨⟨writer, ops⟩, transition, rfl⟩ := Option.map_eq_some_iff.mp moved
  rw [same] at transition
  exact .moves (Writer.moves_of_transition transition) faulty holds

theorem stepRing_writer {signal : SignalKind} {action : RingAction Batch}
    (stepped : world.stepRing inner signal action = some next) :
    next.writer = world.writer := by
  obtain ⟨ring, _, rfl⟩ := Option.map_eq_some_iff.mp stepped
  rfl

theorem drives_of_step {action : DiskAction codec} (stepped : world.step inner config action = some next) :
    Drives config world action next := by
  have moves := moves_of_step stepped
  clear stepped
  cases moves with
  | ring consumer stepped => exact .idle (stepRing_writer stepped)
  | reserved admitted numbered stepped =>
    have same := stepRing_writer stepped
    exact .idle same
  | refused refused stepped => exact .idle (stepRing_writer stepped)
  | cancel found stepped =>
    obtain ⟨ring, _, rfl⟩ := Option.map_eq_some_iff.mp stepped
    exact .idle rfl
  | startSnapshot => exact .idle rfl
  | readSnapshot found => exact .idle rfl
  | submit found stepped => exact .of_stepWriter stepped rfl (fun _ => nofun) fun _ => rfl
  | sendSnapshot found stepped => exact .of_stepWriter stepped rfl (fun _ => nofun) fun _ => rfl
  | shutdown stepped => exact .of_stepWriter stepped rfl (fun _ => nofun) fun _ => rfl
  | abandon stepped => exact .of_stepWriter stepped rfl (fun _ => nofun) fun _ => rfl
  | writer alone stepped => exact .of_stepWriter stepped rfl (fun _ _ => rfl) id
  | reply phase finished stepped =>
    exact .of_stepWriter stepped (stepRing_writer finished) (fun _ => nofun) fun _ => rfl
  | abandonAppend phase channel dropped stepped =>
    exact .of_stepWriter stepped (stepRing_writer dropped) (fun _ => nofun) fun _ => rfl

theorem process_requests {faults : WriteFaults} {request : AppendRequest codec} {todo : List (WriterCommand codec)}
    {progress : BatchProgress codec} (phase : world.writer.phase = .processing (.appendEncoded request :: todo) progress)
    (stepped : world.step inner config (.writer (.process faults)) = some next) :
    world.requests = request :: next.requests ∧ next.nextSeq = world.nextSeq := by
  cases moves_of_step stepped with
  | writer alone stepped =>
    obtain ⟨_, moved, rfl⟩ := Option.map_eq_some_iff.mp stepped
    obtain ⟨⟨writer, ops⟩, transition, rfl⟩ := Option.map_eq_some_iff.mp moved
    simp only [Writer.transition, phase] at transition
    split at transition
    · cases transition
      refine ⟨?_, rfl⟩
      rw [requests, Writer.requests_processing phase]
      rfl
    · cases transition

theorem Denied.step (denied : Denied ledger world) (sane : Sane inner config origin ledger world)
    {action : DiskAction codec} (stepped : world.step inner config action = some next)
    (holds : world.syncsHold action = true) (drawn : Drawn ledger larger world next) : Denied larger next := by
  intro request refuses
  cases drives_of_step stepped with
  | idle same =>
    rw [same] at refuses
    exact (denied request refuses).drawn drawn
  | moves moves faulty synced =>
    rcases moves.refuses (synced holds) refuses with old | ⟨unlogged, faults, todo, progress, rfl, phase⟩
    · exact (denied request old).drawn drawn
    · obtain rfl := faulty faults rfl
      obtain ⟨left, counted⟩ := process_requests phase stepped
      rw [drawn.unwritten unlogged]
      exact sane.unstored (.of_eq left) counted

end DiskWorld

end OtelDatalake.Disk
