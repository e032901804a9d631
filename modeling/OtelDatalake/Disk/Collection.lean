import OtelDatalake.Disk.Durability

open Std OtelDatalake.Foundation OtelDatalake.Buffer

namespace OtelDatalake.Disk

variable {Batch : Type} [RecordBatch Batch] {codec : Codec Batch}

/-- A buffer that is opened again after each crash; `earlier` are the frames that its former writers have written. -/
structure Chronicle (codec : Codec Batch) where
  world : DiskWorld codec
  earlier : List LoggedFrame := []

namespace Chronicle

def frames (chronicle : Chronicle codec) : List LoggedFrame := chronicle.earlier ++ chronicle.world.writer.log

def step (inner : BufferInner) (config : WriterConfig) (chronicle : Chronicle codec) :
    LifeAction codec → Option (Chronicle codec)
  | .live action => (chronicle.world.step inner config action).map fun next => { chronicle with world := next }
  | .crash point generatedId now unlinks =>
    (DiskWorld.leftBehind config chronicle.world point).map fun dir =>
      { world := .opened codec config generatedId now unlinks dir
        earlier := chronicle.frames ++ DiskWorld.leftWritten config chronicle.world point }

def cleanLife (config : WriterConfig) (chronicle : Chronicle codec) : LifeAction codec → Bool :=
  DiskWorld.cleanLife config chronicle.world

/-- The stored watermark covers a frame, or the frame stands in its segment. -/
def Recorded (ledger : Nat → List (Frame codec)) (dir : Directory) (entry : LoggedFrame) : Prop :=
  entry.seqId ≤ dir.watermarkOf entry.signal ∨
    ∃ frame ∈ ledger entry.segmentId, frame.signal = entry.signal ∧ frame.seqId = entry.seqId

theorem Recorded.mono {ledger larger : Nat → List (Frame codec)} {dir later : Directory} {entry : LoggedFrame}
    (recorded : Recorded ledger dir entry) (grows : ∀ segmentId, ledger segmentId <+: larger segmentId)
    (raised : ∀ signal, dir.watermarkOf signal ≤ later.watermarkOf signal) : Recorded larger later entry := by
  rcases recorded with below | ⟨frame, held, number⟩
  · exact Or.inl (below.trans (raised entry.signal))
  · exact Or.inr ⟨frame, (grows entry.segmentId).subset held, number⟩

/-- What holds of a buffer that never appends behind a part of a failed frame. -/
structure Kept (inner : BufferInner) (config : WriterConfig) (origin : SignalKind → SignalRing Batch)
    (ledger : Nat → List (Frame codec)) (chronicle : Chronicle codec) : Prop where
  sane : DiskWorld.Sane inner config origin ledger chronicle.world
  recorded : ∀ entry ∈ chronicle.frames, Recorded ledger chronicle.world.dir entry

variable {inner : BufferInner} {config : WriterConfig} {origin : SignalKind → SignalRing Batch}
  {ledger : Nat → List (Frame codec)} {chronicle next : Chronicle codec}

theorem Kept.unlinked (kept : Kept inner config origin ledger chronicle) {entry : LoggedFrame}
    (member : entry ∈ chronicle.frames) (gone : entry.segmentId ∉ chronicle.world.dir.segments) :
    entry.seqId ≤ chronicle.world.dir.watermarkOf entry.signal := by
  rcases kept.recorded entry member with below | ⟨frame, held, signal, seqId⟩
  · exact below
  · by_contra above
    refine gone (kept.sane.laying.filed.laid.kept entry.segmentId frame held ?_)
    rw [signal, seqId]
    exact Nat.not_le.mp above

theorem opened_raised {stock : Stock codec} {generatedId : Nat} {now : Instant} {unlinks : Nat → Bool}
    (guarded : DiskWorld.Guarded inner.config origin
      (DiskWorld.opened codec config generatedId now unlinks stock.dir)) (signal : SignalKind) :
    stock.dir.watermarkOf signal ≤
      (DiskWorld.opened codec config generatedId now unlinks stock.dir).dir.watermarkOf signal := by
  have persisted : (DiskWorld.opened codec config generatedId now unlinks
      stock.dir).writer.persistedWatermark.forSignal signal =
      ((DiskWorld.opened codec config generatedId now unlinks stock.dir).rings signal).state.committedSeq :=
    recoverSegments_watermark unlinks signal
  rw [guarded.watermarkOf, persisted, DiskWorld.opened_ring]
  refine Nat.le_trans ?_ (reopened_committed _ _)
  rw [loadInitialWatermark_forSignal]
  exact le_rfl

/-- After a restart every frame that stood in its segment still does, or the stored watermark covers it. -/
theorem Recorded.reopen {stock : Stock codec} (laid : Laid 0 config.maxPayloadLen stock) {entry : LoggedFrame}
    (recorded : Recorded stock.ledger stock.dir entry) {generatedId : Nat} {now : Instant} {unlinks : Nat → Bool}
    (raised : ∀ signal, stock.dir.watermarkOf signal ≤
      (DiskWorld.opened codec config generatedId now unlinks stock.dir).dir.watermarkOf signal) :
    Recorded (survivors (WriterWorld.opened codec config generatedId now unlinks stock.dir).dir stock.ledger)
      (DiskWorld.opened codec config generatedId now unlinks stock.dir).dir entry := by
  rcases recorded with below | ⟨frame, held, signal, seqId⟩
  · exact Or.inl (below.trans (raised entry.signal))
  · by_cases above : stock.dir.watermarkOf frame.signal < frame.seqId
    · obtain ⟨place, member⟩ := exists_locate 0 held
      have again := laid.reenqueued (Nat.zero_le _) member above generatedId now unlinks
      obtain ⟨file, found, _⟩ := again.stored
      have there : entry.segmentId ∈ (WriterWorld.opened codec config generatedId now unlinks stock.dir).dir.segments := by
        rw [ExtTreeMap.mem_iff_isSome_getElem?]
        exact Option.isSome_iff_exists.mpr ⟨file, found⟩
      exact Or.inr ⟨frame, mem_survivors.mpr ⟨there, held⟩, signal, seqId⟩
    · rw [signal, seqId] at above
      exact Or.inl ((Nat.not_lt.mp above).trans (raised entry.signal))

theorem recovered_stands {stock : Stock codec} (laid : Laid 0 config.maxPayloadLen stock) {watermark : DiskWatermark}
    {now : Instant} {entry : LoggedFrame}
    (listed : entry ∈ recoveredLog codec config.maxPayloadLen watermark now stock.dir) :
    ∃ frame ∈ stock.ledger entry.segmentId, frame.signal = entry.signal ∧ frame.seqId = entry.seqId := by
  obtain ⟨file, item, found, seqId, reported⟩ := mem_recoveredLog.mp listed
  rw [(laid.scan found watermark now fun _ => {}).1] at reported
  obtain ⟨located, member, event⟩ := List.mem_map.mp reported
  rw [frameEvent, Prod.mk.injEq, RecoveryEvent.frame.injEq] at event
  refine ⟨located.2, locate_mem member, event.1, ?_⟩
  rw [← seqId, ← event.2]
  rfl

theorem Kept.step (kept : Kept inner config origin ledger chronicle) {action : LifeAction codec}
    (stepped : chronicle.step inner config action = some next) (clean : cleanLife config chronicle action = true) :
    (∃ origin ledger, Kept inner config origin ledger next) ∧
      ∀ signal, chronicle.world.dir.watermarkOf signal ≤ next.world.dir.watermarkOf signal := by
  cases action with
  | live action =>
    obtain ⟨world, moved, rfl⟩ := Option.map_eq_some_iff.mp stepped
    obtain ⟨larger, sane, drawn⟩ := kept.sane.step_drawn moved clean
    have raised := (kept.sane.guarded.step moved).raised kept.sane.guarded
    refine ⟨⟨origin, larger, sane, fun entry member => ?_⟩, raised⟩
    rcases List.mem_append.mp member with old | logged
    · exact (kept.recorded entry (List.mem_append_left _ old)).mono drawn.grows raised
    · rcases drawn.logged entry logged with before | stands
      · exact (kept.recorded entry (List.mem_append_right _ before)).mono drawn.grows raised
      · exact Or.inr stands
  | crash point generatedId now unlinks =>
    obtain ⟨dir, left, rfl⟩ := Option.map_eq_some_iff.mp stepped
    obtain ⟨stock, rfl, crashed, _, written⟩ := kept.sane.crashed_known left clean
    have sane := DiskWorld.sane_opened inner crashed.laid crashed.numbers kept.sane.limit (kept.sane.covered_lt crashed)
      generatedId now unlinks
    have raised := opened_raised sane.guarded
    refine ⟨⟨_, _, sane, fun entry member => ?_⟩, fun signal => (crashed.raised signal).trans (raised signal)⟩
    refine Recorded.reopen crashed.laid ?_ raised
    rcases List.mem_append.mp member with known | found
    · rcases List.mem_append.mp known with old | new
      · exact (kept.recorded entry old).mono crashed.grows crashed.raised
      · exact Or.inr (written entry new)
    · exact Or.inr (recovered_stands crashed.laid found)

def opened (codec : Codec Batch) (config : WriterConfig) (generatedId : Nat) (now : Instant) (unlinks : Nat → Bool) :
    Chronicle codec := { world := .opened codec config generatedId now unlinks {} }

theorem Kept.opened (codec : Codec Batch) (inner : BufferInner) (config : WriterConfig) (generatedId : Nat)
    (now : Instant) (unlinks : Nat → Bool) :
    ∃ origin ledger, Kept inner config origin ledger (opened codec config generatedId now unlinks) := by
  obtain ⟨origin, ledger, kept⟩ := Lives.Kept.opened codec inner config generatedId now unlinks
  exact ⟨origin, ledger, kept.sane, fun _ member => absurd member List.not_mem_nil⟩

theorem Kept.run (kept : Kept inner config origin ledger chronicle)
    (run : Run (Chronicle.step inner config) (fun chronicle action => cleanLife config chronicle action = true)
      chronicle next) :
    (∃ origin ledger, Kept inner config origin ledger next) ∧
      ∀ signal, chronicle.world.dir.watermarkOf signal ≤ next.world.dir.watermarkOf signal := by
  induction run with
  | refl => exact ⟨⟨origin, ledger, kept⟩, fun _ => le_rfl⟩
  | tail _ move ih =>
    obtain ⟨⟨_, _, between⟩, raised⟩ := ih
    obtain ⟨action, clean, stepped⟩ := move
    obtain ⟨after, further⟩ := between.step stepped clean
    exact ⟨after, fun signal => (raised signal).trans (further signal)⟩

/-- In every run that never appends behind a part of a failed frame, over any number of crashes, the stored watermark
    only grows and stays at or below what is committed, a segment is removed only when the watermark covers all the
    frames that were written to it, and every active batch on disk has its segment. -/
theorem watermark_safe_of_run (inner : BufferInner) (config : WriterConfig) (generatedId : Nat) (now : Instant)
    (unlinks : Nat → Bool) {before after : Chronicle codec}
    (reached : Run (step inner config) (fun chronicle action => cleanLife config chronicle action = true)
      (opened codec config generatedId now unlinks) before)
    (run : Run (step inner config) (fun chronicle action => cleanLife config chronicle action = true) before after) :
    DiskWorld.WatermarkSafe after.frames before.world after.world := by
  obtain ⟨_, _, start⟩ := Kept.opened codec inner config generatedId now unlinks
  obtain ⟨⟨_, _, first⟩, _⟩ := start.run reached
  obtain ⟨⟨_, _, last⟩, raised⟩ := first.run run
  exact last.sane.guarded.safe raised fun _ member gone => last.unlinked member gone

/-- A frame is stored, and its lease comes again after a crash. -/
def storedAndReopened : List (LifeAction plainCodec) :=
  DiskWorld.storeOne.map .live ++ [.crash .between 7 8 fun _ => true, .live (.ring .logs (.pop 9))]

theorem watermark_safe_of_run_storedAndReopened :
    ∃ before after, executePermitted (step RingWorld.plainInner DiskWorld.smallSegments)
        (fun chronicle action => cleanLife DiskWorld.smallSegments chronicle action = true)
        (opened plainCodec DiskWorld.smallSegments 7 0 fun _ => true) storedAndReopened = some before ∧
      executePermitted (step RingWorld.plainInner DiskWorld.smallSegments)
        (fun chronicle action => cleanLife DiskWorld.smallSegments chronicle action = true) before
        (DiskWorld.commitOne.map .live) = some after ∧
      (1 ∈ before.world.dir.segments ∧ 1 ∉ after.world.dir.segments ∧ ⟨1, .logs, 1⟩ ∈ after.frames) ∧
      DiskWorld.WatermarkSafe after.frames before.world after.world := by
  have removed : ((executePermitted (step RingWorld.plainInner DiskWorld.smallSegments)
      (fun chronicle action => cleanLife DiskWorld.smallSegments chronicle action = true)
      (opened plainCodec DiskWorld.smallSegments 7 0 fun _ => true) storedAndReopened).any fun before =>
        (executePermitted (step RingWorld.plainInner DiskWorld.smallSegments)
          (fun chronicle action => cleanLife DiskWorld.smallSegments chronicle action = true) before
          (DiskWorld.commitOne.map .live)).any fun after =>
            decide (1 ∈ before.world.dir.segments ∧ 1 ∉ after.world.dir.segments ∧
              ⟨1, .logs, 1⟩ ∈ after.frames)) = true := by
    decide +kernel
  obtain ⟨before, stored, found⟩ := (Option.any_eq_true _ _).mp removed
  obtain ⟨after, committed, collected⟩ := (Option.any_eq_true _ _).mp found
  refine ⟨before, after, stored, committed, of_decide_eq_true collected, ?_⟩
  exact watermark_safe_of_run RingWorld.plainInner DiskWorld.smallSegments 7 0 (fun _ => true)
    (executePermitted_run _ _ storedAndReopened stored)
    (executePermitted_run _ _ (DiskWorld.commitOne.map .live) committed)

/-- Of the second frame one byte is written. After a crash recovery finds the first frame only, and leases it. -/
def storedBehindByte : List (LifeAction plainCodec) :=
  [.live (.reserve (logFrame 0 [7]) 5),
    .live (.reserve (logFrame 0 [8]) 5),
    .live (.reserve (logFrame 0 [9]) 5),
    .live (.submit 0), .live (.submit 0), .live (.submit 0), .live (.writer .receive),
    .live (.writer (.process {})), .live (.writer (.process { write := some (1, "no space") })),
    .live (.writer (.process {})), .live (.writer (.sync none)), .live (.reply 6), .live (.reply 6), .live (.reply 6),
    .crash .between 7 8 fun _ => true, .live (.ring .logs (.pop 9))]

/-- The third frame, whose append was answered `Ok`, stands in the segment that is removed when the first one is
    acknowledged. -/
theorem unlinked_above_watermark :
    ∃ before after, Run (step RingWorld.plainInner WriterWorld.wideSegments) (fun _ _ => True)
        (opened plainCodec WriterWorld.wideSegments 7 0 fun _ => true) before ∧
      Run (step RingWorld.plainInner WriterWorld.wideSegments) (fun _ _ => True) before after ∧
      ((before.world.dir.segments[1]?.map fun file => slice 32 31 file.bytes) =
          some (logFrame 3 [9]).bytes ∧
        1 ∉ after.world.dir.segments ∧ after.world.dir.watermarkOf .logs = 1) ∧
      ¬DiskWorld.WatermarkSafe after.frames before.world after.world := by
  have removed : ((execute (step RingWorld.plainInner WriterWorld.wideSegments)
      (opened plainCodec WriterWorld.wideSegments 7 0 fun _ => true) storedBehindByte).any fun before =>
        (execute (step RingWorld.plainInner WriterWorld.wideSegments) before (DiskWorld.commitOne.map .live)).any
          fun after => decide (((before.world.dir.segments[1]?.map fun file => slice 32 31 file.bytes) =
            some (logFrame 3 [9]).bytes ∧
              1 ∉ after.world.dir.segments ∧ after.world.dir.watermarkOf .logs = 1) ∧
            ⟨1, .logs, 3⟩ ∈ after.frames)) = true := by
    decide +kernel
  obtain ⟨before, stored, found⟩ := (Option.any_eq_true _ _).mp removed
  obtain ⟨after, committed, collected⟩ := (Option.any_eq_true _ _).mp found
  obtain ⟨lost, written⟩ := of_decide_eq_true collected
  refine ⟨before, after, execute_run (fun _ _ => trivial) _ stored, execute_run (fun _ _ => trivial) _ committed,
    lost, fun safe => ?_⟩
  have covered := safe.unlinked ⟨1, .logs, 3⟩ written lost.2.1
  rw [lost.2.2] at covered
  exact absurd covered (by decide)

end Chronicle

end OtelDatalake.Disk
