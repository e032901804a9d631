import OtelDatalake.Disk.Reopening

open Std OtelDatalake.Foundation OtelDatalake.Buffer

namespace OtelDatalake.Disk

variable {Batch : Type} [RecordBatch Batch] {codec : Codec Batch}

/-- A frame at the place that its sender was told. -/
structure StoredFrame (codec : Codec Batch) where
  segmentId : Nat
  offset : Nat
  frame : Frame codec

namespace StoredFrame

def Stands (ledger : Nat → List (Frame codec)) (entry : StoredFrame codec) : Prop :=
  (entry.offset, entry.frame) ∈ locate 0 (ledger entry.segmentId)

theorem Stands.grow {ledger larger : Nat → List (Frame codec)} {entry : StoredFrame codec}
    (stands : entry.Stands ledger) (grows : ∀ segmentId, ledger segmentId <+: larger segmentId) :
    entry.Stands larger := by
  obtain ⟨more, same⟩ := grows entry.segmentId
  rw [Stands, ← same, locate_append]
  exact List.mem_append_left _ stands

end StoredFrame

namespace DiskWorld

/-- The appends that were reported `Ok` to their senders. -/
def reported (world : DiskWorld codec) : List (StoredFrame codec) :=
  world.writer.answers.filterMap fun reply =>
    reply.2.toOption.map fun written => ⟨written.segmentId, written.offset, reply.1.stored⟩

/-- The number of a frame was acknowledged, evicted, rolled back, quarantined or discarded. -/
def settled (world : DiskWorld codec) (entry : StoredFrame codec) : Bool :=
  (world.rings entry.frame.signal).outcomes.any fun outcome => outcome.1 == entry.frame.seqId

end DiskWorld

/-- A buffer that is opened again after each crash; `earlier` are the frames that it owed when it crashed last. -/
structure Lives (codec : Codec Batch) where
  world : DiskWorld codec
  earlier : List (StoredFrame codec) := []

inductive LifeAction (codec : Codec Batch) where
  | live (action : DiskAction codec)
  | crash (point : DiskWorld.CrashPoint codec) (generatedId : Nat) (now : Instant) (unlinks : Nat → Bool)

/-- A step that appends behind whole frames only, or a crash in one. -/
def DiskWorld.cleanLife (config : WriterConfig) (world : DiskWorld codec) : LifeAction codec → Bool
  | .live action => cleanStep config world action
  | .crash point _ _ _ => cleanCrash config world point

namespace Lives

def owed (lives : Lives codec) : List (StoredFrame codec) :=
  (lives.earlier ++ lives.world.reported).filter fun entry => !lives.world.settled entry

def step (inner : BufferInner) (config : WriterConfig) (lives : Lives codec) : LifeAction codec → Option (Lives codec)
  | .live action => (lives.world.step inner config action).map fun next => { lives with world := next }
  | .crash point generatedId now unlinks =>
    (DiskWorld.leftBehind config lives.world point).map fun dir =>
      { world := .opened codec config generatedId now unlinks dir, earlier := lives.owed }

def cleanLife (config : WriterConfig) (lives : Lives codec) : LifeAction codec → Bool :=
  DiskWorld.cleanLife config lives.world

variable {inner : BufferInner} {config : WriterConfig} {lives next : Lives codec}

/-- The frames owed from earlier lives stand in the files and were in the rings when the buffer was opened. -/
structure Kept (inner : BufferInner) (config : WriterConfig) (origin : SignalKind → SignalRing Batch)
    (ledger : Nat → List (Frame codec)) (lives : Lives codec) : Prop where
  sane : DiskWorld.Sane inner config origin ledger lives.world
  stands : ∀ entry ∈ lives.earlier, entry.Stands ledger
  enqueued : ∀ entry ∈ lives.earlier, ¬ (origin entry.frame.signal).Gone entry.frame.seqId

variable {origin : SignalKind → SignalRing Batch} {ledger : Nat → List (Frame codec)}

theorem Kept.owed (kept : Kept inner config origin ledger lives) {entry : StoredFrame codec}
    (member : entry ∈ lives.owed) :
    entry.Stands ledger ∧ lives.world.committed entry.frame.signal < entry.frame.seqId := by
  obtain ⟨known, unsettled⟩ := List.mem_filter.mp member
  have sound := kept.sane.guarded.sound entry.frame.signal
  have recorded : entry.Stands ledger ∧ ¬ (origin entry.frame.signal).Gone entry.frame.seqId := by
    rcases List.mem_append.mp known with old | recent
    · exact ⟨kept.stands entry old, kept.enqueued entry old⟩
    · obtain ⟨reply, answered, told⟩ := List.mem_filterMap.mp recent
      obtain ⟨written, ok, rfl⟩ := Option.map_eq_some_iff.mp told
      have granted : reply.2 = .ok written := by
        cases result : reply.2 with
        | error _ => rw [result] at ok; cases ok
        | ok other => rw [result] at ok; cases ok; rfl
      have stands := (granted_append.mp kept.sane.laying.stands).2 reply answered written granted
      have late := (granted_append.mp kept.sane.answered).2 reply answered written granted
      exact ⟨stands.1, fun gone => absurd gone.2 (Nat.not_lt.mpr late)⟩
  refine ⟨recorded.1, ?_⟩
  have below : entry.frame.seqId < lives.world.nextSeq entry.frame.signal :=
    kept.sane.numbers.below entry.segmentId entry.frame (List.mem_append_left _ (locate_mem recorded.1))
  have active : entry.frame.seqId ∈ (lives.world.rings entry.frame.signal).state.ring.slots := by
    by_contra absent
    rcases sound.settled entry.frame.seqId ⟨absent, below⟩ with before | outcome
    · exact recorded.2 before
    · obtain ⟨outcome, listed, same⟩ := List.mem_map.mp outcome
      have settled : lives.world.settled entry = true :=
        List.any_eq_true.mpr ⟨outcome, listed, by rw [same]; exact beq_self_eq_true _⟩
      rw [settled] at unsettled
      cases unsettled
  exact (sound.represented.active entry.frame.seqId active).1

/-- What recovery makes of the directory that a crash leaves. -/
theorem Kept.reenqueued (kept : Kept inner config origin ledger lives) {stock : Stock codec}
    (crashed : DiskWorld.Crashed config lives.world ledger stock) {entry : StoredFrame codec}
    (member : entry ∈ lives.owed) (generatedId : Nat) (now : Instant) (unlinks : Nat → Bool) :
    Reenqueued now entry.segmentId (entry.offset, entry.frame)
      (openAndRecover codec config.maxPayloadLen generatedId now unlinks stock.dir) := by
  obtain ⟨stands, above⟩ := kept.owed member
  exact crashed.laid.reenqueued (Nat.zero_le _) (stands.grow crashed.grows)
    ((crashed.covered entry.frame.signal).trans_lt above) generatedId now unlinks

theorem Kept.step (kept : Kept inner config origin ledger lives) {action : LifeAction codec}
    (stepped : lives.step inner config action = some next) (clean : cleanLife config lives action = true) :
    ∃ origin ledger, Kept inner config origin ledger next := by
  cases action with
  | live action =>
    obtain ⟨world, moved, rfl⟩ := Option.map_eq_some_iff.mp stepped
    obtain ⟨larger, sane, grows⟩ := kept.sane.step moved clean
    exact ⟨origin, larger, sane, fun entry member => (kept.stands entry member).grow grows, kept.enqueued⟩
  | crash point generatedId now unlinks =>
    obtain ⟨dir, left, rfl⟩ := Option.map_eq_some_iff.mp stepped
    obtain ⟨stock, rfl, crashed⟩ := kept.sane.crashed left clean
    have sane := DiskWorld.sane_opened inner crashed.laid crashed.numbers kept.sane.limit (kept.sane.covered_lt crashed)
      generatedId now unlinks
    refine ⟨_, _, sane, fun entry member => ?_, fun entry member gone => ?_⟩
    · obtain ⟨stands, _⟩ := kept.owed member
      obtain ⟨file, found, _⟩ := (kept.reenqueued crashed member generatedId now unlinks).stored
      have held : entry.segmentId ∈
          (WriterWorld.opened codec config generatedId now unlinks stock.dir).dir.segments := by
        rw [ExtTreeMap.mem_iff_isSome_getElem?]
        exact Option.isSome_iff_exists.mpr ⟨file, found⟩
      rw [StoredFrame.Stands, DiskWorld.locate_survivors held]
      exact stands.grow crashed.grows
    · have queued := (kept.reenqueued crashed member generatedId now unlinks).enqueued
      have slot := (sane.guarded.sound entry.frame.signal).queued_slot queued
      refine gone.1 ?_
      rw [ExtTreeMap.mem_iff_isSome_getElem?]
      exact Option.isSome_iff_exists.mpr ⟨_, slot⟩

def opened (codec : Codec Batch) (config : WriterConfig) (generatedId : Nat) (now : Instant) (unlinks : Nat → Bool) :
    Lives codec := { world := .opened codec config generatedId now unlinks {} }

theorem Kept.opened (codec : Codec Batch) (inner : BufferInner) (config : WriterConfig) (generatedId : Nat)
    (now : Instant) (unlinks : Nat → Bool) :
    ∃ origin ledger, Kept inner config origin ledger (opened codec config generatedId now unlinks) := by
  have laid : Laid 0 config.maxPayloadLen (⟨fun _ => [], [], {}⟩ : Stock codec) :=
    { files := fun segmentId file _ found => by simp at found
      storable := fun _ _ member => absurd member List.not_mem_nil
      kept := fun _ _ member => absurd member List.not_mem_nil }
  have numbers : Numbers (fun _ => 1) (fun _ => []) ([] : List (Frame codec)) :=
    ⟨fun _ => List.nodup_nil, fun _ _ _ _ member => absurd member List.not_mem_nil,
      fun _ _ member => absurd member List.not_mem_nil⟩
  have below : ∀ signal, ({} : Directory).watermarkOf signal < u64Max := by
    intro signal
    cases signal <;> decide
  have sane := DiskWorld.sane_opened inner laid numbers (fun _ => by decide) below generatedId now unlinks
  exact ⟨_, _, sane, fun _ member => absurd member List.not_mem_nil, fun _ member => absurd member List.not_mem_nil⟩

/-- Recovery enqueues every frame that is owed, at the place that its sender was told. -/
def AtLeastOnce (config : WriterConfig) (lives : Lives codec) (dir : Directory) : Prop :=
  ∀ entry ∈ lives.owed, ∀ generatedId now unlinks,
    Reenqueued now entry.segmentId (entry.offset, entry.frame)
      (openAndRecover codec config.maxPayloadLen generatedId now unlinks dir)

/-- In every run that never appends behind a part of a failed frame, a crash at any point loses no frame that is
    owed. -/
theorem at_least_once_of_run (inner : BufferInner) (config : WriterConfig) (generatedId : Nat) (now : Instant)
    (unlinks : Nat → Bool) {lives : Lives codec}
    (run : Run (step inner config) (fun lives action => cleanLife config lives action = true)
      (opened codec config generatedId now unlinks) lives)
    (point : DiskWorld.CrashPoint codec) (clean : DiskWorld.cleanCrash config lives.world point = true)
    {dir : Directory} (left : DiskWorld.leftBehind config lives.world point = some dir) :
    AtLeastOnce config lives dir := by
  obtain ⟨origin, ledger, kept⟩ := run.invariant (fun lives => ∃ origin ledger, Kept inner config origin ledger lives)
    (Kept.opened codec inner config generatedId now unlinks)
    fun _ _ _ ⟨_, _, kept⟩ clean stepped => kept.step stepped clean
  obtain ⟨stock, rfl, crashed⟩ := kept.sane.crashed left clean
  intro entry member generatedId now unlinks
  exact kept.reenqueued crashed member generatedId now unlinks

/-- Three frames are sent, and the write of the second one breaks off after five bytes. -/
def storeAcrossFault (third : Frame plainCodec) : List (LifeAction plainCodec) :=
  [.live (.reserve (logFrame 0 [7]) 5),
    .live (.reserve (logFrame 0 [8]) 5), .live (.reserve third 5),
    .live (.submit 0), .live (.submit 0), .live (.submit 0), .live (.writer .receive),
    .live (.writer (.process {})), .live (.writer (.process { write := some (5, "no space") })),
    .live (.writer (.process {})), .live (.writer (.sync none)), .live (.reply 6), .live (.reply 6), .live (.reply 6)]

/-- The third frame fills the rest of the segment, and the buffer crashes before it stores the watermark. -/
def rolledThenCrashed : List (LifeAction plainCodec) :=
  storeAcrossFault (logFrame 0 (List.replicate 70 9)) ++
    [.crash (.during (.persist none fun _ => true) 0 0) 7 8 fun _ => true, .live (.ring .logs (.pop 9))]

theorem at_least_once_of_run_rolledThenCrashed :
    ∃ lives, executePermitted (step RingWorld.plainInner WriterWorld.wideSegments)
        (fun lives action => cleanLife WriterWorld.wideSegments lives action = true)
        (opened plainCodec WriterWorld.wideSegments 7 0 fun _ => true) rolledThenCrashed = some lives ∧
      lives.owed.map (fun entry => (entry.segmentId, entry.offset, entry.frame.seqId)) = [(1, 0, 1), (2, 0, 3)] ∧
      AtLeastOnce WriterWorld.wideSegments lives lives.world.dir := by
  have owes : ((executePermitted (step RingWorld.plainInner WriterWorld.wideSegments)
      (fun lives action => cleanLife WriterWorld.wideSegments lives action = true)
      (opened plainCodec WriterWorld.wideSegments 7 0 fun _ => true) rolledThenCrashed).any fun lives =>
        decide (lives.owed.map (fun entry => (entry.segmentId, entry.offset, entry.frame.seqId)) =
          [(1, 0, 1), (2, 0, 3)])) = true := by
    decide
  obtain ⟨lives, executed, owed⟩ := (Option.any_eq_true _ _).mp owes
  refine ⟨lives, executed, of_decide_eq_true owed, ?_⟩
  exact at_least_once_of_run RingWorld.plainInner WriterWorld.wideSegments 7 0 (fun _ => true)
    (executePermitted_run _ _ rolledThenCrashed executed) .between rfl rfl

/-- The third frame goes behind what the second one has left, and recovery does not find it. -/
theorem appended_frame_lost :
    ¬∀ (lives : Lives plainCodec) (point : DiskWorld.CrashPoint plainCodec) (dir : Directory),
      Run (step RingWorld.plainInner WriterWorld.wideSegments) (fun _ _ => True)
        (opened plainCodec WriterWorld.wideSegments 7 0 fun _ => true) lives →
      DiskWorld.leftBehind WriterWorld.wideSegments lives.world point = some dir →
      AtLeastOnce WriterWorld.wideSegments lives dir := by
  intro atLeastOnce
  have lost : ((execute (step RingWorld.plainInner WriterWorld.wideSegments)
      (opened plainCodec WriterWorld.wideSegments 7 0 fun _ => true)
      (storeAcrossFault (logFrame 0 [9]))).any fun lives =>
        lives.owed.any fun entry => entry.frame.signal == .logs && entry.frame.seqId == 3 &&
          ((openAndRecover plainCodec WriterWorld.wideSegments.maxPayloadLen 7 8 (fun _ => true)
            lives.world.dir).rings .logs).ring.queue.all fun item => item.seqId != 3) = true := by
    decide +kernel
  obtain ⟨lives, executed, found⟩ := (Option.any_eq_true _ _).mp lost
  obtain ⟨entry, member, checked⟩ := List.any_eq_true.mp found
  obtain ⟨named, missing⟩ := Bool.and_eq_true_iff.mp checked
  obtain ⟨signal, numbered⟩ := Bool.and_eq_true_iff.mp named
  have again := atLeastOnce lives .between lives.world.dir
    (execute_run (fun _ _ => trivial) _ executed) rfl entry member 7 8 fun _ => true
  have logs : entry.frame.signal = .logs := by simpa using signal
  have queued := again.enqueued
  rw [logs] at queued
  have absent := List.all_eq_true.mp missing _ queued
  have third : entry.frame.seqId = 3 := by simpa using numbered
  simp [storedItem, third] at absent

end Lives

end OtelDatalake.Disk
