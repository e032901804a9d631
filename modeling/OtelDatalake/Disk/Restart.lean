import Mathlib.Data.List.Nodup
import Mathlib.Data.List.Perm.Subperm
import OtelDatalake.Disk.Isolation
import OtelDatalake.Disk.WatermarkSafety

open Std OtelDatalake.Foundation OtelDatalake.Buffer

namespace OtelDatalake.Disk

variable {Batch : Type} [RecordBatch Batch] {codec : Codec Batch}

def Frame.key (frame : Frame codec) : SignalKind × Nat := (frame.signal, frame.seqId)

/-- The frames in the files and those on their way there have distinct numbers below a bound. -/
structure Numbers (bound : SignalKind → Nat) (ledger : Nat → List (Frame codec)) (pending : List (Frame codec)) :
    Prop where
  once : ∀ segmentId, ((ledger segmentId ++ pending).map Frame.key).Nodup
  apart : ∀ segmentId other, segmentId ≠ other → ∀ frame ∈ ledger segmentId, ∀ copy ∈ ledger other,
    frame.key ≠ copy.key
  below : ∀ segmentId, ∀ frame ∈ ledger segmentId ++ pending, frame.seqId < bound frame.signal

namespace Numbers

variable {bound larger : SignalKind → Nat} {ledger fewer : Nat → List (Frame codec)}
  {pending less : List (Frame codec)}

theorem thin (numbers : Numbers bound ledger pending)
    (ledgers : ∀ segmentId, (fewer segmentId).Sublist (ledger segmentId)) (queue : less.Subperm pending)
    (raised : ∀ signal, bound signal ≤ larger signal) : Numbers larger fewer less where
  once segmentId := by
    obtain ⟨reordered, same, sublist⟩ := queue
    have once := (numbers.once segmentId).sublist (((ledgers segmentId).append sublist).map Frame.key)
    exact (((same.append_left (fewer segmentId)).map Frame.key).nodup_iff).mp once
  apart segmentId other different frame member copy listed :=
    numbers.apart segmentId other different frame ((ledgers segmentId).subset member) copy
      ((ledgers other).subset listed)
  below segmentId frame member := by
    refine (numbers.below segmentId frame ?_).trans_le (raised frame.signal)
    rcases List.mem_append.mp member with old | new
    · exact List.mem_append_left _ ((ledgers segmentId).subset old)
    · exact List.mem_append_right _ (queue.subset new)

theorem stores {maxPayloadLen : Nat} {limit : SignalKind → Nat} {stock next : Stock codec} {op : FsOp}
    (numbers : Numbers bound stock.ledger stock.pending) (stores : Stores maxPayloadLen limit stock op next) :
    Numbers bound next.ledger next.pending := by
  cases stores with
  | @whole written file frame rest queued found clean storable bounded =>
    have once : ∀ segmentId, ((stock.ledger segmentId ++ frame :: rest).map Frame.key).Nodup := by
      rw [← queued]
      exact numbers.once
    have fresh : ∀ segmentId, ∀ other ∈ stock.ledger segmentId, other.key ≠ frame.key := by
      intro segmentId other member
      have distinct := once segmentId
      rw [List.map_append, List.nodup_append] at distinct
      exact distinct.2.2 _ (List.mem_map_of_mem member) _ (List.mem_map_of_mem List.mem_cons_self)
    refine ⟨fun segmentId => ?_, fun segmentId other different first member second listed => ?_,
      fun segmentId other member => ?_⟩
    · by_cases same : segmentId = written
      · subst same
        simpa using once segmentId
      · simp only [Function.update_of_ne same]
        exact (once segmentId).sublist (((List.sublist_cons_self frame rest).append_left _).map _)
    · rcases mem_update_append.mp member with old | ⟨here, new⟩
      · rcases mem_update_append.mp listed with held | ⟨there, late⟩
        · exact numbers.apart segmentId other different first old second held
        · rw [late]
          exact fresh segmentId first old
      · rcases mem_update_append.mp listed with held | ⟨there, late⟩
        · rw [new]
          exact (fresh other second held).symm
        · exact absurd (here.trans there.symm) different
    · refine numbers.below segmentId other ?_
      rw [queued]
      rcases List.mem_append.mp member with inside | waiting
      · rcases mem_update_append.mp inside with old | ⟨_, new⟩
        · exact List.mem_append_left _ old
        · rw [new]
          exact List.mem_append_right _ List.mem_cons_self
      · exact List.mem_append_right _ (List.mem_cons_of_mem _ waiting)
  | _ => exact numbers

theorem operate {maxPayloadLen : Nat} {limit : SignalKind → Nat} {stock last : Stock codec} {ops : List FsOp}
    (numbers : Numbers bound stock.ledger stock.pending)
    (operated : Operate (Stores maxPayloadLen limit) stock ops last) : Numbers bound last.ledger last.pending :=
  operated.invariant (fun reached => Numbers bound reached.ledger reached.pending) numbers
    fun _ _ _ before done => before.stores done

theorem add (numbers : Numbers bound ledger pending) (frame : Frame codec)
    (assigned : frame.seqId = bound frame.signal) :
    Numbers (Function.update bound frame.signal (frame.seqId + 1)) ledger (pending ++ [frame]) := by
  have fresh : ∀ segmentId, ∀ other ∈ ledger segmentId ++ pending, other.key ≠ frame.key := by
    intro segmentId other member same
    have below := numbers.below segmentId other member
    rw [Frame.key, Frame.key, Prod.mk.injEq] at same
    rw [same.1, same.2, assigned] at below
    exact absurd below (Nat.lt_irrefl _)
  refine ⟨fun segmentId => ?_, numbers.apart, fun segmentId other member => ?_⟩
  · rw [← List.append_assoc, List.map_append, List.nodup_append]
    refine ⟨numbers.once segmentId, List.nodup_singleton _, ?_⟩
    intro key listed last only
    obtain ⟨other, member, rfl⟩ := List.mem_map.mp listed
    rw [List.map_singleton, List.mem_singleton] at only
    rw [only]
    exact fresh segmentId other member
  · rw [← List.append_assoc] at member
    rcases List.mem_append.mp member with old | new
    · have below := numbers.below segmentId other old
      by_cases same : other.signal = frame.signal
      · rw [same] at below ⊢
        rw [Function.update_self]
        omega
      · rwa [Function.update_of_ne same]
    · rw [List.mem_singleton.mp new, Function.update_self]
      exact Nat.lt_succ_self _

theorem unique (numbers : Numbers bound ledger pending) {segmentId other : Nat} {frame copy : Frame codec}
    (member : frame ∈ ledger segmentId ++ pending) (listed : copy ∈ ledger other ++ pending)
    (same : frame.key = copy.key) : frame = copy := by
  have inside : ∀ segmentId, ∀ first ∈ ledger segmentId ++ pending, ∀ second ∈ ledger segmentId ++ pending,
      first.key = second.key → first = second := fun segmentId _ first _ second equal =>
    List.inj_on_of_nodup_map (numbers.once segmentId) first second equal
  rcases List.mem_append.mp member with held | waiting
  · rcases List.mem_append.mp listed with there | queued
    · by_cases equal : segmentId = other
      · subst equal
        exact inside segmentId frame member copy listed same
      · exact absurd same (numbers.apart segmentId other equal frame held copy there)
    · exact inside segmentId frame member copy (List.mem_append_right _ queued) same
  · exact inside other frame (List.mem_append_right _ waiting) copy listed same

end Numbers

theorem exists_locate (offset : Nat) {frames : List (Frame codec)} {frame : Frame codec} (member : frame ∈ frames) :
    ∃ place, (place, frame) ∈ locate offset frames := by
  induction frames generalizing offset with
  | nil => cases member
  | cons first rest ih =>
    rcases List.mem_cons.mp member with rfl | later
    · exact ⟨offset, List.mem_cons_self⟩
    · obtain ⟨place, found⟩ := ih (offset + first.bytes.length) later
      exact ⟨place, List.mem_cons_of_mem _ found⟩

section Scan

variable {maxPayloadLen : Nat} {stock : Stock codec} {watermark : DiskWatermark} {now : Instant}

theorem Laid.scan {segmentId : Nat} {file : SegmentFile} (laid : Laid 0 maxPayloadLen stock)
    (found : stock.dir.segments[segmentId]? = some file) (watermark : DiskWatermark) (now : Instant)
    (rings : Rings Batch) :
    (scanFile codec maxPayloadLen watermark segmentId now file.bytes).events =
        (locate 0 (stock.ledger segmentId)).map (frameEvent segmentId now) ∧
      (recoverEntry codec maxPayloadLen watermark now rings (segmentId, file)).file =
        framesBytes (stock.ledger segmentId) := by
  obtain ⟨tail, bytes, torn⟩ := laid.files segmentId file (Nat.zero_le _) found
  have storable : ∀ frame ∈ stock.ledger segmentId, frame.Storable := fun frame member =>
    (laid.storable segmentId frame member).1
  rw [recoverEntry, bytes]
  exact ⟨(scanFile_whole segmentId watermark now storable torn).1,
    (recoverSingleSegment_whole segmentId watermark now storable torn rings .logs).2⟩

theorem Laid.recoveryEvents_eq (laid : Laid 0 maxPayloadLen stock) (watermark : DiskWatermark) (now : Instant)
    (signal : SignalKind) :
    recoveryEvents codec maxPayloadLen watermark now stock.dir signal =
      stock.dir.segments.toList.flatMap fun entry =>
        ((locate 0 (stock.ledger entry.1)).filter fun located => located.2.signal = signal).map
          fun located => RecoveryEvent.frame (storedItem entry.1 now located) := by
  unfold recoveryEvents
  refine List.flatMap_congr fun entry member => ?_
  have found : stock.dir.segments[entry.1]? = some entry.2 := ExtTreeMap.mem_toList_iff_getElem?_eq_some.mp member
  rw [(laid.scan found watermark now fun _ => {}).1]
  exact wholeEvents_signal (fun frame listed => (laid.storable entry.1 frame listed).1) signal

theorem Laid.mem_recoveryEvents (laid : Laid 0 maxPayloadLen stock) {signal : SignalKind}
    {event : RecoveryEvent Batch} :
    event ∈ recoveryEvents codec maxPayloadLen watermark now stock.dir signal ↔
      ∃ segmentId ∈ stock.dir.segments, ∃ located ∈ locate 0 (stock.ledger segmentId),
        located.2.signal = signal ∧ event = .frame (storedItem segmentId now located) := by
  rw [laid.recoveryEvents_eq, List.mem_flatMap]
  constructor
  · rintro ⟨entry, member, listed⟩
    obtain ⟨located, selected, rfl⟩ := List.mem_map.mp listed
    obtain ⟨inside, matching⟩ := List.mem_filter.mp selected
    refine ⟨entry.1, ?_, located, inside, by simpa using matching, rfl⟩
    rw [ExtTreeMap.mem_iff_isSome_getElem?, ExtTreeMap.mem_toList_iff_getElem?_eq_some.mp member]
    rfl
  · rintro ⟨segmentId, held, located, inside, matching, rfl⟩
    rw [ExtTreeMap.mem_iff_isSome_getElem?, Option.isSome_iff_exists] at held
    obtain ⟨file, found⟩ := held
    exact ⟨(segmentId, file), ExtTreeMap.mem_toList_iff_getElem?_eq_some.mpr found,
      List.mem_map.mpr ⟨located, List.mem_filter.mpr ⟨inside, by simpa using matching⟩, rfl⟩⟩

theorem storedItems_seqs (segmentId : Nat) (signal : SignalKind) (frames : List (Frame codec)) :
    ((((((locate 0 frames).filter fun located => located.2.signal = signal).map
      fun located => RecoveryEvent.frame (storedItem segmentId now located)).filterMap
        (·.unacked? (watermark.forSignal signal))).map (·.seqId))).Sublist (seqsOf signal frames) := by
  rw [storedEvents_unacked, ← located_seqId signal 0 frames, List.map_map]
  have narrower : ((locate 0 frames).filter fun entry =>
      entry.2.signal = signal ∧ watermark.forSignal signal < entry.2.seqId).Sublist
      ((locate 0 frames).filter fun entry => entry.2.signal = signal) :=
    List.monotone_filter_right _ fun entry chosen => by simpa using (of_decide_eq_true chosen).1
  exact narrower.map _

theorem mem_seqsOf {signal : SignalKind} {frames : List (Frame codec)} {seq : Nat} :
    seq ∈ seqsOf signal frames ↔ ∃ frame ∈ frames, frame.key = (signal, seq) := by
  simp only [seqsOf, List.mem_map, List.mem_filter, decide_eq_true_eq, Frame.key, Prod.mk.injEq, and_assoc]

theorem seqsOf_nodup {signal : SignalKind} {frames : List (Frame codec)} (once : (frames.map Frame.key).Nodup) :
    (seqsOf signal frames).Nodup := by
  have keys : (seqsOf signal frames).map (signal, ·) =
      (frames.filter fun frame => frame.signal = signal).map Frame.key := by
    rw [seqsOf, List.map_map]
    refine List.map_congr_left fun frame member => ?_
    have same : frame.signal = signal := by simpa using (List.mem_filter.mp member).2
    simp only [Function.comp, Frame.key, same]
  refine List.Nodup.of_map (signal, ·) ?_
  rw [keys]
  exact once.sublist (List.filter_sublist.map _)

theorem Laid.numbered {bound : SignalKind → Nat} {pending : List (Frame codec)} (laid : Laid 0 maxPayloadLen stock)
    (numbers : Numbers bound stock.ledger pending) (limited : ∀ signal, bound signal ≤ u64Max)
    (generatedId : Nat) (now : Instant) (below : ∀ signal, stock.dir.watermarkOf signal < u64Max) :
    DiskWorld.Numbered codec maxPayloadLen (loadInitialWatermark generatedId stock.dir).1 now stock.dir where
  bounded signal := by
    rw [loadInitialWatermark_forSignal]
    exact below signal
  numbers signal event member seq read := by
    obtain ⟨segmentId, _, located, inside, _, rfl⟩ := laid.mem_recoveryEvents.mp member
    cases read
    exact (numbers.below segmentId located.2 (List.mem_append_left _ (locate_mem inside))).trans_le
      (limited located.2.signal)
  distinct signal := by
    rw [laid.recoveryEvents_eq, List.filterMap_flatMap, List.map_flatMap, List.nodup_flatMap]
    constructor
    · intro entry _
      have once := numbers.once entry.1
      rw [List.map_append] at once
      exact (seqsOf_nodup (List.nodup_append.mp once).1).sublist (storedItems_seqs entry.1 signal _)
    · refine ExtTreeMap.distinct_keys_toList.imp fun {first second} different => ?_
      intro seq left right
      obtain ⟨frame, member, named⟩ := mem_seqsOf.mp ((storedItems_seqs first.1 signal _).subset left)
      obtain ⟨copy, listed, same⟩ := mem_seqsOf.mp ((storedItems_seqs second.1 signal _).subset right)
      refine numbers.apart first.1 second.1 (fun equal => different ?_) frame member copy listed (named.trans same.symm)
      rw [equal, Std.compare_eq_iff_eq]

end Scan

def survivors (dir : Directory) (ledger : Nat → List (Frame codec)) (segmentId : Nat) : List (Frame codec) :=
  if segmentId ∈ dir.segments then ledger segmentId else []

theorem survivors_sublist (dir : Directory) (ledger : Nat → List (Frame codec)) (segmentId : Nat) :
    (survivors dir ledger segmentId).Sublist (ledger segmentId) := by
  unfold survivors
  split
  · exact List.Sublist.refl _
  · exact List.nil_sublist _

theorem mem_survivors {dir : Directory} {ledger : Nat → List (Frame codec)} {segmentId : Nat} {frame : Frame codec} :
    frame ∈ survivors dir ledger segmentId ↔ segmentId ∈ dir.segments ∧ frame ∈ ledger segmentId := by
  unfold survivors
  split
  · rename_i held
    simp [held]
  · rename_i gone
    simp [gone]

section Reopen

variable {config : WriterConfig} {stock : Stock codec} {generatedId : Nat} {now : Instant} {unlinks : Nat → Bool}

theorem opened_found {segmentId : Nat} {left : SegmentFile}
    (found : (WriterWorld.opened codec config generatedId now unlinks stock.dir).dir.segments[segmentId]? =
      some left) :
    ∃ file, stock.dir.segments[segmentId]? = some file ∧
      left.bytes = (recoverEntry codec config.maxPayloadLen (loadInitialWatermark generatedId stock.dir).1 now
        (restoredRings (loadInitialWatermark generatedId stock.dir).1) (segmentId, file)).file := by
  obtain ⟨file, there, rfl⟩ := recoverSegments_found found
  rw [loadInitialWatermark_segments] at there
  exact ⟨file, there, recovered_recoverEntry segmentId file⟩

/-- After a restart the files hold whole frames only. -/
theorem Laid.reopen (laid : Laid 0 config.maxPayloadLen stock) (generatedId : Nat) (now : Instant)
    (unlinks : Nat → Bool) :
    WriterWorld.Laying 0 config
      (survivors (WriterWorld.opened codec config generatedId now unlinks stock.dir).dir stock.ledger)
      (WriterWorld.opened codec config generatedId now unlinks stock.dir) := by
  have tracked := WriterWorld.Tracked.opened codec config generatedId now unlinks stock.dir
  refine ⟨?_, tracked.staged, granted_nil⟩
  refine
    { laid :=
        { files := fun segmentId left _ found => ?_
          storable := fun segmentId frame member => laid.storable segmentId frame (mem_survivors.mp member).2
          kept := fun segmentId frame member _ => (mem_survivors.mp member).1 }
      index := ⟨recoveredLog codec config.maxPayloadLen (loadInitialWatermark generatedId stock.dir).1 now stock.dir,
        tracked.indexed, fun segmentId frame member => ?_⟩
      active := fun _ held => absurd held (Option.not_mem_none _)
      fresh := fun _ => Nat.zero_le _
      owned := fun _ _ _ => Nat.zero_le _ }
  · obtain ⟨file, there, bytes⟩ := opened_found found
    have held : segmentId ∈ (WriterWorld.opened codec config generatedId now unlinks stock.dir).dir.segments := by
      rw [ExtTreeMap.mem_iff_isSome_getElem?, found]
      rfl
    refine ⟨[], ?_, Or.inl rfl⟩
    rw [bytes, (laid.scan there _ now _).2, List.append_nil]
    simp only [survivors, if_pos held]
  · obtain ⟨held, listed⟩ := mem_survivors.mp member
    rw [ExtTreeMap.mem_iff_isSome_getElem?, Option.isSome_iff_exists] at held
    obtain ⟨left, found⟩ := held
    obtain ⟨file, there, _⟩ := opened_found found
    obtain ⟨offset, inside⟩ := exists_locate 0 listed
    have storable : ((offset, frame) : Nat × Frame codec).2.Storable := (laid.storable segmentId frame listed).1
    have reported : (frame.signal, .frame (storedItem segmentId now (offset, frame))) ∈
        (scanFile codec config.maxPayloadLen (loadInitialWatermark generatedId stock.dir).1 segmentId now
          file.bytes).events := by
      rw [(laid.scan there _ now fun _ => {}).1]
      refine List.mem_map.mpr ⟨(offset, frame), inside, ?_⟩
      rw [frameEvent, recoveredItem_eq storable]
    exact mem_recoveredLog.mpr ⟨file, storedItem segmentId now (offset, frame), there, rfl, reported⟩

theorem reopened_nextSeq (committed : Nat) (events : List (RecoveryEvent Batch)) :
    (SignalRingState.reopened committed events).ring.nextSeq =
      ((events.filterMap (·.seqId?)).map saturatingSucc).foldl max (saturatingSucc committed) := by
  rw [List.foldl_map]
  exact SignalRingState.recover_nextSeq committed events _

theorem foldl_max_le {numbers : List Nat} {start bound : Nat} (first : start ≤ bound)
    (rest : ∀ number ∈ numbers, number ≤ bound) : numbers.foldl max start ≤ bound := by
  induction numbers generalizing start with
  | nil => exact first
  | cons number more ih =>
    exact ih (max_le first (rest number List.mem_cons_self)) fun later member =>
      rest later (List.mem_cons_of_mem _ member)

theorem Laid.numbers {bound : SignalKind → Nat} {pending : List (Frame codec)}
    (laid : Laid 0 config.maxPayloadLen stock) (numbers : Numbers bound stock.ledger pending)
    (limited : ∀ signal, bound signal ≤ u64Max) (generatedId : Nat) (now : Instant) (unlinks : Nat → Bool) :
    Numbers
      (fun signal => ((DiskWorld.opened codec config generatedId now unlinks stock.dir).rings
        signal).state.ring.nextSeq)
      (survivors (WriterWorld.opened codec config generatedId now unlinks stock.dir).dir stock.ledger) [] := by
  have kept := numbers.thin (survivors_sublist
    (WriterWorld.opened codec config generatedId now unlinks stock.dir).dir stock.ledger) (List.nil_subperm)
    fun _ => le_rfl
  refine ⟨kept.once, kept.apart, fun segmentId frame member => ?_⟩
  rw [List.append_nil] at member
  obtain ⟨held, listed⟩ := mem_survivors.mp member
  have small : frame.seqId < u64Max :=
    (numbers.below segmentId frame (List.mem_append_left _ listed)).trans_le (limited frame.signal)
  obtain ⟨left, found⟩ := Option.isSome_iff_exists.mp (ExtTreeMap.mem_iff_isSome_getElem?.mp held)
  obtain ⟨file, there, _⟩ := opened_found found
  obtain ⟨offset, inside⟩ := exists_locate 0 listed
  have event : .frame (storedItem segmentId now (offset, frame)) ∈ recoveryEvents codec config.maxPayloadLen
      (loadInitialWatermark generatedId stock.dir).1 now stock.dir frame.signal :=
    laid.mem_recoveryEvents.mpr ⟨segmentId, by rw [ExtTreeMap.mem_iff_isSome_getElem?, there]; rfl,
      (offset, frame), inside, rfl, rfl⟩
  have seen : frame.seqId ∈ (recoveryEvents codec config.maxPayloadLen (loadInitialWatermark generatedId stock.dir).1
      now stock.dir frame.signal).filterMap (·.seqId?) := List.mem_filterMap.mpr ⟨_, event, rfl⟩
  rw [DiskWorld.opened_ring, reopened_nextSeq]
  refine Nat.lt_of_lt_of_le ?_ (le_foldl_max _ (List.mem_map_of_mem seen))
  unfold saturatingSucc
  omega

theorem opened_nextSeq_le (dir : Directory) (signal : SignalKind) :
    ((DiskWorld.opened codec config generatedId now unlinks dir).rings signal).state.ring.nextSeq ≤ u64Max := by
  rw [DiskWorld.opened_ring, reopened_nextSeq]
  refine foldl_max_le (Nat.min_le_right _ _) fun number member => ?_
  obtain ⟨seq, _, rfl⟩ := List.mem_map.mp member
  exact Nat.min_le_right _ _

end Reopen

end OtelDatalake.Disk
