import OtelDatalake.Disk.TornTail

open Std OtelDatalake.Foundation OtelDatalake.Buffer

namespace OtelDatalake.Disk

variable {Batch : Type} [RecordBatch Batch] {codec : Codec Batch}

section Located

variable {maxPayloadLen : Nat} {file tail : Bytes} {offset : Nat} {frames : List (Frame codec)}

theorem locate_here (here : file.drop offset = framesBytes frames ++ tail) {located : Nat × Frame codec}
    (member : located ∈ locate offset frames) : ∃ rest, file.drop located.1 = located.2.bytes ++ rest := by
  induction frames generalizing offset with
  | nil => cases member
  | cons frame rest ih =>
    rw [framesBytes_cons, List.append_assoc] at here
    rcases List.mem_cons.mp member with rfl | later
    · exact ⟨_, here⟩
    · refine ih ?_ later
      rw [← List.drop_drop, here, List.drop_left]

theorem locate_le {located : Nat × Frame codec} (member : located ∈ locate offset frames) :
    offset ≤ located.1 := by
  induction frames generalizing offset with
  | nil => cases member
  | cons frame rest ih =>
    rcases List.mem_cons.mp member with rfl | later
    · exact le_rfl
    · exact (Nat.le_add_right _ _).trans (ih later)

theorem Frame.Storable.hop {frame : Frame codec} {rest : Bytes} (storable : frame.Storable) (maxPayloadLen : Nat)
    (here : file.drop offset = frame.bytes ++ rest) :
    Hop maxPayloadLen file offset (offset + frame.bytes.length) :=
  ⟨frame.header, (Frame.headerAt_eq maxPayloadLen 0 0 here).1, by rw [storable.frameLen_eq]⟩

theorem visits_frames (storable : ∀ frame ∈ frames, frame.Storable) (maxPayloadLen : Nat)
    (here : file.drop offset = framesBytes frames ++ tail) :
    (∀ located ∈ locate offset frames, Visits maxPayloadLen file offset located.1) ∧
      Visits maxPayloadLen file offset (offset + (framesBytes frames).length) := by
  induction frames generalizing offset with
  | nil => exact ⟨fun _ member => absurd member List.not_mem_nil, .refl⟩
  | cons frame rest ih =>
    rw [framesBytes_cons, List.append_assoc] at here
    have first := (storable frame List.mem_cons_self).hop maxPayloadLen here
    have next : file.drop (offset + frame.bytes.length) = framesBytes rest ++ tail := by
      rw [← List.drop_drop, here, List.drop_left]
    obtain ⟨visited, ended⟩ := ih (fun other member => storable other (List.mem_cons_of_mem _ member)) next
    constructor
    · intro located member
      rcases List.mem_cons.mp member with rfl | later
      · exact .refl
      · exact .head first (visited located later)
    · rw [framesBytes_cons, List.length_append, ← Nat.add_assoc]
      exact .head first ended

end Located

/-- A segment in which the bytes of one frame have been altered in place. -/
structure AlteredSegment (codec : Codec Batch) where
  before : List (Frame codec)
  target : Frame codec
  damaged : Bytes
  after : List (Frame codec)
  inPlace : damaged.length = target.bytes.length
  altered : damaged ≠ target.bytes
  storable : ∀ frame ∈ before ++ target :: after, frame.Storable

namespace AlteredSegment

def file (segment : AlteredSegment codec) : Bytes :=
  framesBytes segment.before ++ (segment.damaged ++ framesBytes segment.after)

def damagedAt (segment : AlteredSegment codec) : Nat := (framesBytes segment.before).length

def earlier (segment : AlteredSegment codec) : List (Nat × Frame codec) := locate 0 segment.before

def later (segment : AlteredSegment codec) : List (Nat × Frame codec) :=
  locate (segment.damagedAt + segment.target.bytes.length) segment.after

theorem drop_damaged (segment : AlteredSegment codec) :
    segment.file.drop (segment.damagedAt + segment.target.bytes.length) = framesBytes segment.after ++ [] := by
  rw [List.append_nil, file, damagedAt, ← List.drop_drop, List.drop_left, ← segment.inPlace, List.drop_left]

variable (segment : AlteredSegment codec) {maxPayloadLen : Nat} {located : Nat × Frame codec}

theorem here (member : located ∈ segment.earlier ++ segment.later) :
    ∃ rest, segment.file.drop located.1 = located.2.bytes ++ rest := by
  rcases List.mem_append.mp member with front | back
  · exact locate_here (show segment.file.drop 0 = framesBytes segment.before ++ _ from rfl) front
  · exact locate_here segment.drop_damaged back

theorem storable_of (member : located ∈ segment.earlier ++ segment.later) : located.2.Storable := by
  apply segment.storable
  rcases List.mem_append.mp member with front | back
  · exact List.mem_append_left _ (locate_mem front)
  · exact List.mem_append_right _ (List.mem_cons_of_mem _ (locate_mem back))

theorem visits_before (maxPayloadLen : Nat) :
    (∀ located ∈ segment.earlier, Visits maxPayloadLen segment.file 0 located.1) ∧
      Visits maxPayloadLen segment.file 0 segment.damagedAt := by
  have visited := visits_frames (fun frame member => segment.storable frame (List.mem_append_left _ member))
    maxPayloadLen (show segment.file.drop 0 = framesBytes segment.before ++ _ from rfl)
  rw [Nat.zero_add] at visited
  exact visited

theorem visits_later (member : located ∈ segment.later) :
    Visits maxPayloadLen segment.file 0 located.1 ↔
      Visits maxPayloadLen segment.file segment.damagedAt located.1 := by
  have reached := (segment.visits_before maxPayloadLen).2
  constructor
  · intro visits
    rcases reached.total visits with onward | back
    · exact onward
    · have above : segment.damagedAt ≤ located.1 := (Nat.le_add_right _ _).trans (locate_le member)
      have same : located.1 = segment.damagedAt := Nat.le_antisymm (Visits.le back) above
      rw [same]
  · exact reached.trans

/-- An altered frame whose header is still valid and keeps its length does not lead the scan astray. -/
theorem visits_of_length {header : FrameHeader}
    (found : headerAt maxPayloadLen segment.file segment.damagedAt = some header)
    (same : header.payloadLen = segment.target.payload.length) (member : located ∈ segment.later) :
    Visits maxPayloadLen segment.file segment.damagedAt located.1 := by
  have length : frameLen header = segment.target.bytes.length := by
    have storable := segment.storable segment.target (List.mem_append_right _ List.mem_cons_self)
    rw [← storable.frameLen_eq, frameLen, same]
    rfl
  have hop : Hop maxPayloadLen segment.file segment.damagedAt (segment.damagedAt + segment.target.bytes.length) :=
    ⟨header, found, by rw [length]⟩
  refine .head hop ((visits_frames ?_ maxPayloadLen segment.drop_damaged).1 located member)
  exact fun frame listed => segment.storable frame (List.mem_append_right _ (List.mem_cons_of_mem _ listed))

end AlteredSegment

/-- An unacknowledged frame is enqueued again, and neither truncation nor unlinking removes it. -/
structure Survives (segmentNum : Nat) (now : Instant) (outcome : RecoveredSegment Batch)
    (located : Nat × Frame codec) : Prop where
  enqueued : storedItem segmentNum now located ∈ (outcome.rings located.2.signal).ring.queue
  stored : slice located.1 located.2.bytes.length outcome.file = located.2.bytes
  linked : outcome.segment.isSome

def Unscanned (segmentNum : Nat) (rings : Rings Batch) : Prop :=
  ∀ signal, ∀ item ∈ (rings signal).ring.queue, ∀ offset len rows schema,
    item.payload ≠ .onDisk segmentNum offset len rows schema

section Outcome

variable {segmentNum maxPayloadLen : Nat} {watermark : DiskWatermark} {now : Instant} {rings : Rings Batch}
  {file : Bytes}

theorem mem_foldl_enqueueOrdered {items queue : List (QueuedBatch Batch)} {item : QueuedBatch Batch} :
    item ∈ items.foldl enqueueOrdered queue ↔ item ∈ queue ∨ item ∈ items := by
  induction items generalizing queue with
  | nil => simp
  | cons first rest ih =>
    rw [List.foldl_cons, ih, mem_enqueueOrdered, List.mem_cons]
    tauto

theorem mem_scanFile {signal : SignalKind} {item : QueuedBatch Batch} :
    (signal, .frame item) ∈ (scanFile codec maxPayloadLen watermark segmentNum now file).events ↔
      ∃ visited, Visits maxPayloadLen file 0 visited ∧
        FrameEventAt codec maxPayloadLen segmentNum now file visited (signal, .frame item) := by
  rw [scanFile, mem_scanSegment (by omega) (fun same => by cases same)]
  simp

theorem mem_recoverSingleSegment {signal : SignalKind} {item : QueuedBatch Batch} :
    item ∈ ((recoverSingleSegment codec segmentNum maxPayloadLen watermark now rings file).rings signal).ring.queue ↔
      item ∈ (rings signal).ring.queue ∨ watermark.forSignal signal < item.seqId ∧
        (signal, .frame item) ∈ (scanFile codec maxPayloadLen watermark segmentNum now file).events := by
  simp only [recoverSingleSegment, recordEvents_apply, SignalRingState.recover_queue, mem_foldl_enqueueOrdered,
    List.mem_filterMap, List.mem_map, List.mem_filter, decide_eq_true_eq]
  refine or_congr_right ⟨?_, ?_⟩
  · rintro ⟨event, ⟨entry, ⟨listed, rfl⟩, rfl⟩, read⟩
    cases found : entry.2 with
    | frame other =>
      simp only [found, RecoveryEvent.unacked?] at read
      split at read
      · cases read
      · rename_i above
        cases read
        exact ⟨Nat.not_le.mp above, by rw [← found]; exact listed⟩
    | corrupted seqId rowCount =>
      rw [found] at read
      cases read
    | invalidHeader =>
      rw [found] at read
      cases read
  · rintro ⟨above, listed⟩
    exact ⟨.frame item, ⟨_, ⟨listed, rfl⟩, rfl⟩, if_neg (Nat.not_le.mpr above)⟩

theorem scanFile_tallied : (scanFile codec maxPayloadLen watermark segmentNum now file).Tallied watermark := by
  have blank : SegmentScan.Tallied watermark ({} : SegmentScan Batch) :=
    ⟨rfl, fun event member => absurd member List.not_mem_nil⟩
  exact scanSegment_tallied blank _ _

theorem recoverSingleSegment_kept {signal : SignalKind} {item : QueuedBatch Batch}
    (listed : (signal, .frame item) ∈ (scanFile codec maxPayloadLen watermark segmentNum now file).events)
    (above : watermark.forSignal signal < item.seqId) :
    (recoverSingleSegment codec segmentNum maxPayloadLen watermark now rings file).segment.isSome := by
  have counted : (signal, item) ∈ unackedItems watermark
      (scanFile codec maxPayloadLen watermark segmentNum now file).events :=
    List.mem_filterMap.mpr ⟨_, listed, by simp [RecoveryEvent.unacked?, Nat.not_le.mpr above]⟩
  have positive : (scanFile codec maxPayloadLen watermark segmentNum now file).unackedFrames > 0 := by
    rw [scanFile_tallied.unacked]
    exact List.length_pos_of_mem counted
  simp [recoverSingleSegment, positive]

theorem recoverSingleSegment_part (codec : Codec Batch) (segmentNum maxPayloadLen : Nat) (watermark : DiskWatermark)
    (now : Instant) (rings : Rings Batch) (file : Bytes) :
    (recoverSingleSegment codec segmentNum maxPayloadLen watermark now rings file).file <+: file := by
  simp only [recoverSingleSegment]
  cases (scanFile codec maxPayloadLen watermark segmentNum now file).truncateAt with
  | none => exact List.prefix_rfl
  | some cut => exact List.take_prefix cut file

theorem recoverSingleSegment_file {visited : Nat} {frame : Frame codec} {rest : Bytes}
    (visits : Visits maxPayloadLen file 0 visited) (storable : frame.Storable)
    (here : file.drop visited = frame.bytes ++ rest) :
    slice visited frame.bytes.length
      (recoverSingleSegment codec segmentNum maxPayloadLen watermark now rings file).file = frame.bytes := by
  have whole : slice visited frame.bytes.length file = frame.bytes := by
    rw [slice, here, List.take_left]
  simp only [recoverSingleSegment]
  cases truncated : (scanFile codec maxPayloadLen watermark segmentNum now file).truncateAt with
  | none => exact whole
  | some cut =>
    obtain ⟨reached, ended⟩ := scanSegment_truncateAt rfl truncated
    have within := visits.before_end (storable.hop maxPayloadLen here) reached ended
    rw [Option.elim_some, slice, List.drop_take, List.take_take, Nat.min_eq_left (by omega)]
    exact whole

theorem reported_of_visits (segmentNum : Nat) (watermark : DiskWatermark) (now : Instant)
    {located : Nat × Frame codec} {rest : Bytes}
    (visits : Visits maxPayloadLen file 0 located.1) (storable : located.2.Storable)
    (here : file.drop located.1 = located.2.bytes ++ rest) :
    (located.2.signal, .frame (storedItem segmentNum now located)) ∈
      (scanFile codec maxPayloadLen watermark segmentNum now file).events := by
  obtain ⟨header, event⟩ := Frame.headerAt_eq maxPayloadLen segmentNum now here
  refine mem_scanFile.mpr ⟨located.1, visits, ?_⟩
  refine ⟨located.2.header, header, ?_⟩
  rw [event, recoveredItem_eq storable]
  rfl

theorem survives_of_visits {located : Nat × Frame codec} {rest : Bytes}
    (visits : Visits maxPayloadLen file 0 located.1) (storable : located.2.Storable)
    (here : file.drop located.1 = located.2.bytes ++ rest)
    (above : watermark.forSignal located.2.signal < located.2.seqId) :
    Survives segmentNum now (recoverSingleSegment codec segmentNum maxPayloadLen watermark now rings file)
      located := by
  have reported := reported_of_visits segmentNum watermark now visits storable here
  exact
    { enqueued := mem_recoverSingleSegment.mpr (Or.inr ⟨above, reported⟩)
      stored := recoverSingleSegment_file visits storable here
      linked := recoverSingleSegment_kept reported above }

theorem Survives.visits {located : Nat × Frame codec} (unscanned : Unscanned segmentNum rings)
    (survives : Survives segmentNum now
      (recoverSingleSegment codec segmentNum maxPayloadLen watermark now rings file) located) :
    Visits maxPayloadLen file 0 located.1 := by
  rcases mem_recoverSingleSegment.mp survives.enqueued with old | ⟨_, found⟩
  · exact absurd rfl (unscanned _ _ old located.1 located.2.bytes.length _ _)
  · obtain ⟨visited, visits, header, _, event⟩ := mem_scanFile.mp found
    have reported := congrArg Prod.snd event
    simp only [eventAt] at reported
    split at reported
    · have payload := congrArg QueuedBatch.payload (RecoveryEvent.frame.inj reported)
      simp only [storedItem, recoveredItem, BatchPayload.onDisk.injEq] at payload
      rw [payload.2.1]
      exact visits
    · cases reported

end Outcome

/-- Every unaltered unacknowledged frame survives exactly if following the lengths in the headers from the altered
    frame leads to all those behind it. -/
theorem survives_iff_visits (codec : Codec Batch) (segment : AlteredSegment codec) (segmentNum maxPayloadLen : Nat)
    (watermark : DiskWatermark) (now : Instant) (rings : Rings Batch) (unscanned : Unscanned segmentNum rings) :
    (∀ located ∈ segment.earlier ++ segment.later, watermark.forSignal located.2.signal < located.2.seqId →
      Survives segmentNum now
        (recoverSingleSegment codec segmentNum maxPayloadLen watermark now rings segment.file) located) ↔
    ∀ located ∈ segment.later, watermark.forSignal located.2.signal < located.2.seqId →
      Visits maxPayloadLen segment.file segment.damagedAt located.1 := by
  constructor
  · intro survive located member above
    exact (segment.visits_later member).mp
      ((survive located (List.mem_append_right _ member) above).visits unscanned)
  · intro visits located member above
    obtain ⟨rest, here⟩ := segment.here member
    refine survives_of_visits ?_ (segment.storable_of member) here above
    rcases List.mem_append.mp member with front | back
    · exact (segment.visits_before maxPayloadLen).1 located front
    · exact (segment.visits_later back).mpr (visits located back above)

theorem byte_le_u64Max (number : UInt8) : number.toNat ≤ u64Max :=
  (UInt8.toNat_lt number).le.trans (by decide)

theorem short_fits (body : Bytes) : (body.take 70).length + 2 ≤ u32Max := by
  have short := List.length_take_le 70 body
  have room : 70 + 2 ≤ u32Max := by decide
  omega

/-- A frame with at most seventy bytes. -/
def logFrame (seqId : UInt8) (body : Bytes) : Frame plainCodec :=
  plainFrame .logs seqId.toNat { schema := 0, rows := 1, body := body.take 70 } (byte_le_u64Max seqId) (short_fits body)

/-- Three frames, of which the second has one byte changed. -/
def alteredSegment (position : Nat) (byte : UInt8)
    (altered : (logFrame 2 [8]).bytes.set position byte ≠ (logFrame 2 [8]).bytes) : AlteredSegment plainCodec where
  before := [logFrame 1 [7]]
  target := logFrame 2 [8]
  damaged := (logFrame 2 [8]).bytes.set position byte
  after := [logFrame 3 [9]]
  inPlace := List.length_set
  altered := altered
  storable := by
    intro frame member
    unfold Frame.Storable
    revert frame
    decide

/-- A changed payload byte is contained. -/
theorem survives_iff_visits_payload :
    (alteredSegment 30 99 (by decide +kernel)).later.length = 1 ∧
      ∀ located ∈ (alteredSegment 30 99 (by decide +kernel)).earlier ++
          (alteredSegment 30 99 (by decide +kernel)).later, 0 < located.2.seqId →
        Survives 1 0 (recoverSingleSegment plainCodec 1 4096 {} 0 (fun _ => .restored 0)
          (alteredSegment 30 99 (by decide +kernel)).file) located := by
  have contained := (survives_iff_visits plainCodec (alteredSegment 30 99 (by decide +kernel)) 1 4096 {} 0
    (fun _ => .restored 0) (fun _ _ member => absurd member List.not_mem_nil)).mpr
  have found : headerAt 4096 (alteredSegment 30 99 (by decide +kernel)).file
      (alteredSegment 30 99 (by decide +kernel)).damagedAt =
      some (logFrame 2 [8]).header := by
    decide +kernel
  refine ⟨rfl, fun located member above => ?_⟩
  refine contained (fun other listed _ => ?_) located member ?_
  · exact AlteredSegment.visits_of_length _ found rfl listed
  · cases located.2.signal <;> exact above

/-- A changed magic byte loses the frame behind it. -/
theorem survives_fails_magic :
    ¬∀ located ∈ (alteredSegment 0 0 (by decide)).earlier ++
        (alteredSegment 0 0 (by decide)).later, 0 < located.2.seqId →
      Survives 1 0 (recoverSingleSegment plainCodec 1 4096 {} 0 (fun _ => .restored 0)
        (alteredSegment 0 0 (by decide)).file) located := by
  intro survive
  have last := survive ((alteredSegment 0 0 (by decide)).damagedAt +
      (alteredSegment 0 0 (by decide)).target.bytes.length, logFrame 3 [9])
    (List.mem_append_right _ List.mem_cons_self) (by decide)
  have queued := List.mem_map_of_mem (f := QueuedBatch.seqId) last.enqueued
  revert queued
  decide +kernel

end OtelDatalake.Disk
