import OtelDatalake.Disk.World

open Std OtelDatalake.Foundation OtelDatalake.Buffer

namespace OtelDatalake.Disk

variable {Batch : Type} [RecordBatch Batch] {codec : Codec Batch}

namespace DiskWorld

def committed (world : DiskWorld codec) (signal : SignalKind) : Nat := (world.rings signal).state.committedSeq

/-- What a snapshot has loaded so far is at most what is committed. -/
def SnapshotBelow (bound : SignalKind → Nat) : Snapshot → Prop
  | .logs logs => logs ≤ bound .logs
  | .metrics logs metrics => logs ≤ bound .logs ∧ metrics ≤ bound .metrics
  | .taken watermark => ∀ signal, watermark.forSignal signal ≤ bound signal

theorem SnapshotBelow.mono {bound larger : SignalKind → Nat} {snapshot : Snapshot}
    (below : SnapshotBelow bound snapshot) (raised : ∀ signal, bound signal ≤ larger signal) :
    SnapshotBelow larger snapshot := by
  cases snapshot with
  | logs logs => exact below.trans (raised _)
  | metrics logs metrics => exact ⟨below.1.trans (raised _), below.2.trans (raised _)⟩
  | taken watermark => exact fun signal => (below signal).trans (raised signal)

/-- What holds of a buffer in every run: the rings are sound, no watermark on its way to the file is above what is
    committed, and every batch on disk is in the log. -/
structure Guarded (config : BufferConfig) (origin : SignalKind → SignalRing Batch) (world : DiskWorld codec) :
    Prop where
  sound : ∀ signal, (world.rings signal).Sound config (origin signal)
  tracked : WriterWorld.Tracked ⟨world.writer, world.dir⟩
  staged : ∀ signal, world.writer.stagedWatermark.forSignal signal ≤ world.committed signal
  carried : ∀ command ∈ world.writer.commands, ∀ watermark ∈ command.watermark?,
    ∀ signal, watermark.forSignal signal ≤ world.committed signal
  snapshots : ∀ snapshot ∈ world.snapshots, SnapshotBelow world.committed snapshot
  placed : ∀ signal seqId segmentId offset len rows schema,
    (world.rings signal).Holds seqId (.onDisk segmentId offset len rows schema) →
    ⟨segmentId, signal, seqId⟩ ∈ world.writer.log

variable {inner : BufferInner} {config : WriterConfig} {origin : SignalKind → SignalRing Batch}
  {world next : DiskWorld codec}

theorem Guarded.persisted (guarded : Guarded inner.config origin world) (signal : SignalKind) :
    world.writer.persistedWatermark.forSignal signal ≤ world.committed signal :=
  (guarded.tracked.staged signal).trans (guarded.staged signal)

theorem Guarded.tasks (guarded : Guarded inner.config origin world) (senders : List (AppendRequest codec))
    {snapshots : List Snapshot} (below : ∀ snapshot ∈ snapshots, SnapshotBelow world.committed snapshot) :
    Guarded inner.config origin { world with senders := senders, snapshots := snapshots } where
  sound := guarded.sound
  tracked := guarded.tracked
  staged := guarded.staged
  carried := guarded.carried
  snapshots := below
  placed := guarded.placed

theorem Guarded.stepRing (guarded : Guarded inner.config origin world) {signal : SignalKind}
    {action : RingAction Batch} (stepped : world.stepRing inner signal action = some next)
    (logged : ∀ seqId written now, action = .finish seqId (.ok written) now →
      ⟨written.segmentId, signal, seqId⟩ ∈ world.writer.log) :
    Guarded inner.config origin next ∧ next.writer = world.writer := by
  obtain ⟨ring, moved, rfl⟩ := Option.map_eq_some_iff.mp stepped
  obtain ⟨departed, advance⟩ := (guarded.sound signal).step moved
  have raised : ∀ other, world.committed other ≤ (world.setRing signal ring).committed other := by
    intro other
    by_cases same : other = signal
    · subst same
      simpa [committed, setRing] using advance.committed_le (guarded.sound other)
    · simp [committed, setRing, same]
  refine ⟨?_, rfl⟩
  exact
    { sound := by
        intro other
        by_cases same : other = signal
        · subst same
          simpa [setRing] using advance.sound (guarded.sound other)
        · simpa [setRing, same] using guarded.sound other
      tracked := guarded.tracked
      staged := fun other => (guarded.staged other).trans (raised other)
      carried := fun command member watermark carries other =>
        (guarded.carried command member watermark carries other).trans (raised other)
      snapshots := fun snapshot member => (guarded.snapshots snapshot member).mono raised
      placed := by
        intro other seqId segmentId offset len rows schema holds
        by_cases same : other = signal
        · subst same
          simp only [setRing, Function.update_self] at holds
          rcases (guarded.sound other).holds moved holds with
            old | ⟨batch, now, _, memory⟩ | ⟨written, now, reservation, others, finished, _, payload⟩
          · exact guarded.placed other seqId segmentId offset len rows schema old
          · cases memory
          · simp only [AppendReservation.queuedBatch, BatchPayload.onDisk.injEq] at payload
            rw [payload.1]
            exact logged seqId written now finished
        · simp only [setRing, Function.update_of_ne same] at holds
          exact guarded.placed other seqId segmentId offset len rows schema holds }

theorem Guarded.stepWriter (guarded : Guarded inner.config origin world) {action : WriterAction codec}
    (stepped : world.stepWriter config action = some next)
    (sent : ∀ command, action = .submit command → ∀ watermark ∈ command.watermark?,
      ∀ signal, watermark.forSignal signal ≤ world.committed signal) :
    Guarded inner.config origin next ∧ (∀ entry ∈ world.writer.log, entry ∈ next.writer.log) ∧
      ∀ signal, world.writer.persistedWatermark.forSignal signal ≤
        next.writer.persistedWatermark.forSignal signal := by
  obtain ⟨reached, moved, rfl⟩ := Option.map_eq_some_iff.mp stepped
  have tracked := guarded.tracked.step moved
  obtain ⟨⟨writer, ops⟩, transition, rfl⟩ := Option.map_eq_some_iff.mp moved
  have moves := Writer.moves_of_transition transition
  refine ⟨?_, fun entry => moves.log, fun signal => ?_⟩
  · exact
      { sound := guarded.sound
        tracked := tracked
        staged := moves.staged guarded.staged guarded.persisted guarded.carried
        carried := fun command member watermark carries => by
          rcases moves.commands member with old | new
          · exact guarded.carried command old watermark carries
          · exact sent command new watermark carries
        snapshots := guarded.snapshots
        placed := fun signal seqId segmentId offset len rows schema holds =>
          moves.log (guarded.placed signal seqId segmentId offset len rows schema holds) }
  · rcases moves.persisted with same | staged
    · simp only [same]
      exact le_rfl
    · simp only [staged]
      exact guarded.tracked.staged signal

/-- What a step leads to: a guarded world, of which neither the log nor the stored watermark has lost anything. -/
structure Onward (config : BufferConfig) (origin : SignalKind → SignalRing Batch) (world next : DiskWorld codec) :
    Prop where
  guarded : Guarded config origin next
  log : ∀ entry ∈ world.writer.log, entry ∈ next.writer.log
  persisted : ∀ signal, world.writer.persistedWatermark.forSignal signal ≤
    next.writer.persistedWatermark.forSignal signal

theorem Guarded.ring (guarded : Guarded inner.config origin world) {signal : SignalKind}
    {action : RingAction Batch} (stepped : world.stepRing inner signal action = some next)
    (logged : ∀ seqId written now, action = .finish seqId (.ok written) now →
      ⟨written.segmentId, signal, seqId⟩ ∈ world.writer.log) : Onward inner.config origin world next := by
  obtain ⟨kept, same⟩ := guarded.stepRing stepped logged
  exact ⟨kept, fun entry => by rw [same]; exact id, fun signal => by rw [same]⟩

theorem Guarded.finish (guarded : Guarded inner.config origin world) {reply : AppendReply codec}
    {replies : List (AppendReply codec)} {syncErr : Option String} {dirty shutdown : Bool} {now : Instant}
    (phase : world.writer.phase = .replying (reply :: replies) syncErr dirty shutdown)
    (finished : world.stepRing inner reply.1.signal
      (.finish reply.1.seqId (Writer.finalAnswer syncErr reply.2) now) = some next) :
    Onward inner.config origin world next := by
  have recorded := (granted_append.mp guarded.tracked.recorded).1
  simp only [phase] at recorded
  refine guarded.ring finished fun seqId written later same => ?_
  simp only [RingAction.finish.injEq] at same
  rw [← same.1]
  exact recorded reply List.mem_cons_self written (Writer.finalAnswer_ok same.2.1).2

theorem Guarded.writer (guarded : Guarded inner.config origin world) {action : WriterAction codec}
    (stepped : world.stepWriter config action = some next)
    (silent : ∀ command, action = .submit command → command.watermark? = none) :
    Onward inner.config origin world next := by
  obtain ⟨kept, log, persisted⟩ := guarded.stepWriter stepped fun command same watermark carries => by
    rw [silent command same] at carries
    cases carries
  exact ⟨kept, log, persisted⟩

theorem Onward.trans {between : DiskWorld codec} (first : Onward inner.config origin world between)
    (second : Onward inner.config origin between next) : Onward inner.config origin world next :=
  ⟨second.guarded, fun entry member => second.log entry (first.log entry member),
    fun signal => (first.persisted signal).trans (second.persisted signal)⟩

theorem SnapshotBelow.advance {snapshot : Snapshot}
    (below : SnapshotBelow world.committed snapshot) :
    SnapshotBelow world.committed (world.advanceSnapshot inner snapshot) := by
  cases snapshot with
  | logs logs => exact ⟨below, le_rfl⟩
  | metrics logs metrics =>
    intro signal
    cases signal
    · exact below.1
    · exact below.2
    · exact le_rfl
  | taken watermark => exact below

theorem Guarded.step (guarded : Guarded inner.config origin world) {action : DiskAction codec}
    (stepped : world.step inner config action = some next) : Onward inner.config origin world next := by
  have moves := moves_of_step stepped
  clear stepped
  cases moves with
  | ring consumer stepped => exact guarded.ring stepped fun seqId written now same => by subst same; cases consumer
  | reserved admitted numbered stepped =>
    have onward := guarded.ring stepped fun seqId written now same => by cases same
    exact ⟨onward.guarded.tasks _ onward.guarded.snapshots, onward.log, onward.persisted⟩
  | refused refused stepped => exact guarded.ring stepped fun seqId written now same => by cases same
  | submit found stepped =>
    have onward := (guarded.tasks (world.senders.eraseIdx _) guarded.snapshots).writer stepped
      fun command same => by cases same; rfl
    exact ⟨onward.guarded, onward.log, onward.persisted⟩
  | cancel found stepped =>
    have onward := (guarded.tasks (world.senders.eraseIdx _) guarded.snapshots).ring stepped
      fun seqId written now same => by cases same
    exact ⟨onward.guarded, onward.log, onward.persisted⟩
  | startSnapshot =>
    refine ⟨guarded.tasks world.senders fun snapshot member => ?_, fun _ => id, fun _ => le_rfl⟩
    rcases List.mem_append.mp member with old | new
    · exact guarded.snapshots snapshot old
    · rw [List.mem_singleton.mp new]
      exact le_rfl
  | readSnapshot found =>
    refine ⟨guarded.tasks world.senders fun snapshot member => ?_, fun _ => id, fun _ => le_rfl⟩
    rcases List.mem_or_eq_of_mem_set member with old | rfl
    · exact guarded.snapshots snapshot old
    · exact (guarded.snapshots _ (List.mem_of_getElem? found)).advance
  | @sendSnapshot index flush watermark next found stepped =>
    have below := guarded.snapshots _ (List.mem_of_getElem? found)
    have remaining : Guarded inner.config origin { world with snapshots := world.snapshots.eraseIdx index } :=
      guarded.tasks world.senders fun snapshot member =>
        guarded.snapshots snapshot (List.mem_of_mem_eraseIdx member)
    obtain ⟨kept, log, persisted⟩ := remaining.stepWriter stepped fun command same carried carries => by
      cases same
      cases flush <;> cases carries <;> exact below
    exact ⟨kept, log, persisted⟩
  | shutdown stepped => exact guarded.writer stepped fun command same => by cases same; rfl
  | writer alone stepped => exact guarded.writer stepped fun command same => by subst same; cases alone
  | @reply now reply replies syncErr dirty shutdown between next phase finished stepped =>
    have first := guarded.finish phase finished
    exact first.trans (first.guarded.writer stepped fun command same => by cases same)
  | abandonAppend phase channel dropped stepped =>
    have first := guarded.ring dropped fun seqId written now same => by cases same
    exact first.trans (first.guarded.writer stepped fun command same => by cases same)
  | abandon stepped => exact guarded.writer stepped fun command same => by cases same

section Opened

variable {generatedId : Nat} {now : Instant} {unlinks : Nat → Bool} {dir : Directory}

theorem recoveryEvents_loaded (codec : Codec Batch) (maxPayloadLen generatedId : Nat) (watermark : DiskWatermark)
    (now : Instant) (dir : Directory) (signal : SignalKind) :
    recoveryEvents codec maxPayloadLen watermark now (loadInitialWatermark generatedId dir).2 signal =
      recoveryEvents codec maxPayloadLen watermark now dir signal := by
  simp only [recoveryEvents, loadInitialWatermark_segments]

/-- The frames of a directory have numbers below `u64::MAX`, and those that are unacknowledged have distinct ones. -/
structure Numbered (codec : Codec Batch) (maxPayloadLen : Nat) (watermark : DiskWatermark) (now : Instant)
    (dir : Directory) : Prop where
  bounded : ∀ signal, watermark.forSignal signal < u64Max
  numbers : ∀ signal, ∀ event ∈ recoveryEvents codec maxPayloadLen watermark now dir signal,
    ∀ seq ∈ event.seqId?, seq < u64Max
  distinct : ∀ signal, (((recoveryEvents codec maxPayloadLen watermark now dir signal).filterMap
    (·.unacked? (watermark.forSignal signal))).map (·.seqId)).Nodup

theorem opened_ring (unlinks : Nat → Bool) (signal : SignalKind) :
    ((opened codec config generatedId now unlinks dir).rings signal).state =
      .reopened ((loadInitialWatermark generatedId dir).1.forSignal signal)
        (recoveryEvents codec config.maxPayloadLen (loadInitialWatermark generatedId dir).1 now dir signal) := by
  simp only [opened, openAndRecover, recoverSegments_rings, recoveryEvents_loaded]

theorem Numbered.sound (numbered : Numbered codec config.maxPayloadLen (loadInitialWatermark generatedId dir).1 now dir)
    (buffer : BufferConfig) (signal : SignalKind) :
    ((opened codec config generatedId now unlinks dir).rings signal).Sound buffer
      ((opened codec config generatedId now unlinks dir).rings signal).state.ring := by
  have reopened := Opened.recovered _ _ (numbered.bounded signal) (numbered.numbers signal) (numbered.distinct signal)
  rw [← opened_ring unlinks] at reopened
  exact reopened.sound buffer

theorem Numbered.guarded
    (numbered : Numbered codec config.maxPayloadLen (loadInitialWatermark generatedId dir).1 now dir)
    (buffer : BufferConfig) (unlinks : Nat → Bool) :
    Guarded buffer (fun signal => ((opened codec config generatedId now unlinks dir).rings signal).state.ring)
      (opened codec config generatedId now unlinks dir) where
  sound := numbered.sound buffer
  tracked := .opened codec config generatedId now unlinks dir
  staged signal := (recoverSegments_watermark unlinks signal).le
  carried command member := absurd member List.not_mem_nil
  snapshots snapshot member := absurd member List.not_mem_nil
  placed signal seqId segmentId offset len rows schema holds := by
    rcases holds with ⟨item, queued, rfl, payload⟩ | ⟨held, member, _⟩
    · rw [opened_ring, mem_reopened_queue, mem_recoveryEvents] at queued
      obtain ⟨_, segmentNum, file, found, reported⟩ := queued
      obtain ⟨start, header, batch, equal⟩ := scanFile_frame reported
      rw [equal, recoveredItem, BatchPayload.onDisk.injEq] at payload
      rw [payload.1] at found reported
      exact mem_recoveredLog.mpr ⟨file, item, found, rfl, reported⟩
    · cases member

end Opened

/-- What holds of the directory of a reached state, and of it and an earlier one; `frames` have been written to the
    segments. -/
structure WatermarkSafe (frames : List LoggedFrame) (before after : DiskWorld codec) : Prop where
  stored : ∃ watermark, after.dir.watermark = some watermark ∧ ∀ signal,
    watermark.forSignal signal ≤ after.committed signal ∧
      ∀ earlier ∈ before.dir.watermark, earlier.forSignal signal ≤ watermark.forSignal signal
  unlinked : ∀ entry ∈ frames, entry.segmentId ∉ after.dir.segments →
    entry.seqId ≤ after.dir.watermarkOf entry.signal
  linked : ∀ segment ∈ after.writer.segments.active, segment.segmentId ∈ after.dir.segments
  present : ∀ signal seqId segmentId offset len rows schema,
    (after.rings signal).Holds seqId (.onDisk segmentId offset len rows schema) →
    seqId ∈ (after.rings signal).state.ring.slots → segmentId ∈ after.dir.segments

theorem Guarded.run {permitted : DiskWorld codec → DiskAction codec → Prop}
    (guarded : Guarded inner.config origin world) (run : Run (DiskWorld.step inner config) permitted world next) :
    Onward inner.config origin world next := by
  induction run with
  | refl => exact ⟨guarded, fun _ => id, fun _ => le_rfl⟩
  | tail _ move ih =>
    obtain ⟨action, _, stepped⟩ := move
    exact ih.trans (ih.guarded.step stepped)

theorem Guarded.watermarkOf (guarded : Guarded inner.config origin world) (signal : SignalKind) :
    world.dir.watermarkOf signal = world.writer.persistedWatermark.forSignal signal := by
  have stored : world.dir.watermark = some world.writer.persistedWatermark := guarded.tracked.indexed.stored
  rw [Directory.watermarkOf, stored, Option.getD_some]

theorem Guarded.safe (guarded : Guarded inner.config origin next) {frames : List LoggedFrame}
    (raised : ∀ signal, world.dir.watermarkOf signal ≤ next.dir.watermarkOf signal)
    (unlinked : ∀ entry ∈ frames, entry.segmentId ∉ next.dir.segments →
      entry.seqId ≤ next.dir.watermarkOf entry.signal) : WatermarkSafe frames world next where
  stored := by
    refine ⟨_, guarded.tracked.indexed.stored, fun signal => ⟨guarded.persisted signal, ?_⟩⟩
    intro earlier stored
    have larger := raised signal
    rwa [guarded.watermarkOf, Directory.watermarkOf, Option.mem_def.mp stored, Option.getD_some] at larger
  unlinked := unlinked
  linked := guarded.tracked.indexed.active
  present := by
    intro signal seqId segmentId offset len rows schema holds active
    have logged := guarded.placed signal seqId segmentId offset len rows schema holds
    refine guarded.tracked.indexed.present _ logged ?_
    exact (guarded.persisted signal).trans_lt ((guarded.sound signal).represented.active seqId active).1

theorem Onward.raised (before : Guarded inner.config origin world) (onward : Onward inner.config origin world next)
    (signal : SignalKind) : world.dir.watermarkOf signal ≤ next.dir.watermarkOf signal := by
  rw [before.watermarkOf, onward.guarded.watermarkOf]
  exact onward.persisted signal

/-- In every run of one opened buffer the stored watermark only grows and stays at or below what is committed, a
    segment is removed only when the watermark covers the frames that recovery has found in it or the writer has
    written to it, and every active batch on disk has its segment. -/
theorem safe_of_run (inner : BufferInner) (config : WriterConfig) (generatedId : Nat) (now : Instant)
    (unlinks : Nat → Bool) (dir : Directory) {before after : DiskWorld codec}
    (numbered : Numbered codec config.maxPayloadLen (loadInitialWatermark generatedId dir).1 now dir)
    (reached : Run (step inner config) (fun _ _ => True) (opened codec config generatedId now unlinks dir) before)
    (run : Run (step inner config) (fun _ _ => True) before after) :
    WatermarkSafe after.writer.log before after := by
  have guarded := ((numbered.guarded inner.config unlinks).run reached).guarded
  have onward := guarded.run run
  refine onward.guarded.safe (onward.raised guarded) fun entry logged gone => ?_
  rw [onward.guarded.watermarkOf]
  by_contra above
  exact gone (onward.guarded.tracked.indexed.present entry logged (Nat.not_le.mp above))

/-- Every frame fills a segment. -/
def smallSegments : WriterConfig :=
  { dir := "/var/lib/buffer", segmentSizeBytes := 1, maxPayloadLen := 4096, syncOnWrite := true }

def openedEmpty (config : WriterConfig) : DiskWorld plainCodec := opened plainCodec config 7 0 (fun _ => true) {}

theorem numbered_empty (codec : Codec Batch) (maxPayloadLen generatedId : Nat) (now : Instant) :
    Numbered codec maxPayloadLen (loadInitialWatermark generatedId {}).1 now {} where
  bounded signal := by
    have zero : (loadInitialWatermark generatedId {}).1.forSignal signal = 0 := by cases signal <;> rfl
    rw [zero]
    decide
  numbers _ _ member := absurd member List.not_mem_nil
  distinct _ := List.nodup_nil

def storeOne : List (DiskAction plainCodec) :=
  [.reserve (logFrame 0 [7]) 5, .submit 0, .writer .receive, .writer (.process {}),
    .writer (.sync none), .reply 6, .writer (.persist none fun _ => true), .ring .logs (.pop 7)]

def commitOne : List (DiskAction plainCodec) :=
  [.ring .logs (.ack 1 (.ok ())), .startSnapshot, .readSnapshot 0, .readSnapshot 0, .sendSnapshot 0 false,
    .writer .receive, .writer (.process {}), .writer (.sync none), .writer (.persist none fun _ => true)]

end DiskWorld

end OtelDatalake.Disk
