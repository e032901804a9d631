import Mathlib.Logic.Relation
import OtelDatalake.Disk.Recovery

open Std OtelDatalake.Foundation OtelDatalake.Buffer

namespace OtelDatalake.Disk

variable {Batch : Type} [RecordBatch Batch]

/-- The header at the front of `bytes` if it is valid and its payload is there. -/
def containedHeader (bytes : Bytes) (maxPayloadLen : Nat) : Option FrameHeader :=
  if bytes.length < frameHeaderLen then none
  else
    match decodeHeader bytes maxPayloadLen with
    | .error _ => none
    | .ok header => if bytes.length < frameHeaderLen + header.payloadLen then none else some header

theorem decodeFrame_cases (codec : Codec Batch) (bytes : Bytes) (maxPayloadLen : Nat) :
    (∃ header, containedHeader bytes maxPayloadLen = some header ∧
      ((∃ batch, decodeFrame codec bytes maxPayloadLen = .ok (some (header, batch))) ∨
        (∃ crc, decodeFrame codec bytes maxPayloadLen = .error (.crcMismatch header crc)) ∨
        ∃ source, decodeFrame codec bytes maxPayloadLen = .error (.ipcDecode header source))) ∨
    (containedHeader bytes maxPayloadLen = none ∧
      (decodeFrame codec bytes maxPayloadLen = .ok none ∨
        decodeFrame codec bytes maxPayloadLen = .error .tornFrame ∨
        ∃ reason, decodeFrame codec bytes maxPayloadLen = .error (.invalidHeader reason))) := by
  unfold decodeFrame containedHeader
  split
  · right
    refine ⟨rfl, ?_⟩
    split
    · exact Or.inl rfl
    · exact Or.inr (Or.inl rfl)
  · cases read : decodeHeader bytes maxPayloadLen with
    | error error =>
      right
      refine ⟨rfl, Or.inr (Or.inr ?_)⟩
      have invalid : ∃ reason, error = .invalidHeader reason := by
        unfold decodeHeader at read
        split at read
        · cases read
          exact ⟨_, rfl⟩
        · split at read
          · cases read
            exact ⟨_, rfl⟩
          · split at read
            · cases read
              exact ⟨_, rfl⟩
            · simp only at read
              split at read
              · cases read
                exact ⟨_, rfl⟩
              · cases read
      obtain ⟨reason, rfl⟩ := invalid
      exact ⟨reason, rfl⟩
    | ok header =>
      simp only
      split
      · exact Or.inr ⟨rfl, Or.inr (Or.inl rfl)⟩
      · left
        refine ⟨header, rfl, ?_⟩
        split
        · exact Or.inr (Or.inl ⟨_, rfl⟩)
        · cases codec.decode (slice frameHeaderLen header.payloadLen bytes) with
          | error source => exact Or.inr (Or.inr ⟨source, rfl⟩)
          | ok batch => exact Or.inl ⟨batch, rfl⟩

section Scan

variable (codec : Codec Batch) (maxPayloadLen : Nat) (watermark : DiskWatermark) (segmentNum : Nat)
  (now : Instant) (file : Bytes)

def headerAt (offset : Nat) : Option FrameHeader :=
  containedHeader (file.drop offset) (payloadBound maxPayloadLen file.length offset)

/-- What the scan reports about the frame at an offset. -/
def eventAt (offset : Nat) (header : FrameHeader) : RecoveryEvent Batch :=
  match decodeFrame codec (file.drop offset) (payloadBound maxPayloadLen file.length offset) with
  | .ok (some (_, batch)) => .frame (recoveredItem segmentNum offset header batch now)
  | _ => .corrupted header.seqId header.rowCount

def SegmentScan.visit (scan : SegmentScan Batch) (header : FrameHeader) (event : RecoveryEvent Batch) :
    SegmentScan Batch :=
  { scan.seeFrame header.signal header.seqId event with
    unackedFrames := scan.unackedFrames + (event.unacked? (watermark.forSignal header.signal)).toList.length }

variable {codec maxPayloadLen watermark segmentNum now file}

theorem scanSegment_visit {fuel offset : Nat} {scan : SegmentScan Batch} {header : FrameHeader}
    (found : headerAt maxPayloadLen file offset = some header) :
    scanSegment codec maxPayloadLen watermark segmentNum now file (fuel + 1) offset scan =
      scanSegment codec maxPayloadLen watermark segmentNum now file fuel (offset + frameLen header)
        (scan.visit watermark header (eventAt codec maxPayloadLen segmentNum now file offset header)) := by
  rcases decodeFrame_cases codec (file.drop offset) (payloadBound maxPayloadLen file.length offset) with
    ⟨other, same, decoded⟩ | ⟨missing, _⟩
  · have equal : other = header := Option.some.inj (same.symm.trans found)
    subst equal
    rcases decoded with ⟨batch, decoded⟩ | ⟨crc, decoded⟩ | ⟨source, decoded⟩
    · have numbered : (recoveredItem segmentNum offset other batch now).seqId = other.seqId := rfl
      simp only [scanSegment, eventAt, decoded, SegmentScan.visit, RecoveryEvent.unacked?, numbered]
      congr 1
      split <;> rfl
    · simp only [scanSegment, eventAt, decoded]
      rfl
    · simp only [scanSegment, eventAt, decoded]
      rfl
  · rw [headerAt, missing] at found
    cases found

theorem scanSegment_end (codec : Codec Batch) (watermark : DiskWatermark) (segmentNum : Nat) (now : Instant)
    (fuel : Nat) (scan : SegmentScan Batch) {offset : Nat} (missing : headerAt maxPayloadLen file offset = none) :
    ∃ ending truncateAt, scanSegment codec maxPayloadLen watermark segmentNum now file (fuel + 1) offset scan =
        { scan with events := scan.events ++ ending, truncateAt := truncateAt } ∧
      (ending = [] ∨ ending = [(.logs, .invalidHeader)]) ∧
      (truncateAt = scan.truncateAt ∨ truncateAt = some offset) := by
  rcases decodeFrame_cases codec (file.drop offset) (payloadBound maxPayloadLen file.length offset) with
    ⟨other, same, _⟩ | ⟨_, done | torn | ⟨reason, invalid⟩⟩
  · rw [headerAt, same] at missing
    cases missing
  · exact ⟨[], scan.truncateAt, by simp [scanSegment, done], Or.inl rfl, Or.inl rfl⟩
  · exact ⟨[], some offset, by simp [scanSegment, torn], Or.inl rfl, Or.inr rfl⟩
  · exact ⟨[(.logs, .invalidHeader)], scan.truncateAt, by simp [scanSegment, invalid], Or.inr rfl, Or.inl rfl⟩

theorem frameLen_pos (header : FrameHeader) : 0 < frameLen header := by
  unfold frameLen frameHeaderLen u32Max
  omega

theorem headerAt_lt {offset : Nat} {header : FrameHeader}
    (found : headerAt maxPayloadLen file offset = some header) : offset < file.length := by
  unfold headerAt containedHeader at found
  split at found
  · cases found
  · rename_i long
    rw [List.length_drop] at long
    unfold frameHeaderLen at long
    omega

def Hop (maxPayloadLen : Nat) (file : Bytes) (offset next : Nat) : Prop :=
  ∃ header, headerAt maxPayloadLen file offset = some header ∧ next = offset + frameLen header

/-- The offsets that the scan visits from one on. -/
abbrev Visits (maxPayloadLen : Nat) (file : Bytes) : Nat → Nat → Prop :=
  Relation.ReflTransGen (Hop maxPayloadLen file)

theorem Hop.lt {offset next : Nat} (hop : Hop maxPayloadLen file offset next) : offset < next := by
  obtain ⟨header, _, rfl⟩ := hop
  have := frameLen_pos header
  omega

theorem Hop.unique {offset next other : Nat} (first : Hop maxPayloadLen file offset next)
    (second : Hop maxPayloadLen file offset other) : next = other := by
  obtain ⟨header, found, rfl⟩ := first
  obtain ⟨again, same, rfl⟩ := second
  rw [found] at same
  cases same
  rfl

theorem Visits.le {offset later : Nat} (visits : Visits maxPayloadLen file offset later) : offset ≤ later := by
  induction visits with
  | refl => exact le_rfl
  | tail _ hop ih => exact ih.trans hop.lt.le

theorem Visits.total {start first second : Nat} (left : Visits maxPayloadLen file start first)
    (right : Visits maxPayloadLen file start second) :
    Visits maxPayloadLen file first second ∨ Visits maxPayloadLen file second first :=
  Relation.ReflTransGen.total_of_right_unique (fun _ _ _ => Hop.unique) left right

def FrameEventAt (codec : Codec Batch) (maxPayloadLen segmentNum : Nat) (now : Instant) (file : Bytes)
    (offset : Nat) (event : SignalKind × RecoveryEvent Batch) : Prop :=
  ∃ header, headerAt maxPayloadLen file offset = some header ∧
    event = (header.signal, eventAt codec maxPayloadLen segmentNum now file offset header)

/-- The scan reports the frames at the offsets it visits and then perhaps an invalid header. -/
theorem mem_scanSegment {fuel offset : Nat} {scan : SegmentScan Batch}
    {event : SignalKind × RecoveryEvent Batch} (enough : file.length < offset + fuel)
    (framed : event.2 ≠ .invalidHeader) :
    event ∈ (scanSegment codec maxPayloadLen watermark segmentNum now file fuel offset scan).events ↔
      event ∈ scan.events ∨ ∃ visited, Visits maxPayloadLen file offset visited ∧
        FrameEventAt codec maxPayloadLen segmentNum now file visited event := by
  induction fuel generalizing offset scan with
  | zero =>
    have ended : ∀ visited, Visits maxPayloadLen file offset visited →
        ¬FrameEventAt codec maxPayloadLen segmentNum now file visited event := by
      rintro visited visits ⟨header, found, _⟩
      have := visits.le
      have := headerAt_lt found
      omega
    simp only [scanSegment]
    constructor
    · exact Or.inl
    · rintro (held | ⟨visited, visits, found⟩)
      · exact held
      · exact absurd found (ended visited visits)
  | succ fuel ih =>
    cases found : headerAt maxPayloadLen file offset with
    | none =>
      obtain ⟨ending, truncateAt, reached, ends, _⟩ :=
        scanSegment_end codec watermark segmentNum now fuel scan found
      rw [reached]
      simp only [List.mem_append]
      constructor
      · rintro (held | last)
        · exact Or.inl held
        · rcases ends with rfl | rfl
          · cases last
          · have same := List.mem_singleton.mp last
            exact absurd (congrArg Prod.snd same) framed
      · rintro (held | ⟨visited, visits, header, there, _⟩)
        · exact Or.inl held
        · rcases Relation.ReflTransGen.cases_head visits with rfl | ⟨next, ⟨other, here, _⟩, _⟩
          · rw [found] at there
            cases there
          · rw [found] at here
            cases here
    | some header =>
      rw [scanSegment_visit found, ih (by have := frameLen_pos header; omega)]
      have hop : Hop maxPayloadLen file offset (offset + frameLen header) := ⟨header, found, rfl⟩
      simp only [SegmentScan.visit, SegmentScan.seeFrame, List.mem_append, List.mem_singleton]
      constructor
      · rintro ((held | rfl) | ⟨visited, visits, there⟩)
        · exact Or.inl held
        · exact Or.inr ⟨offset, .refl, header, found, rfl⟩
        · exact Or.inr ⟨visited, .head hop visits, there⟩
      · rintro (held | ⟨visited, visits, there⟩)
        · exact Or.inl (Or.inl held)
        · rcases Relation.ReflTransGen.cases_head visits with rfl | ⟨next, first, later⟩
          · obtain ⟨other, here, same⟩ := there
            rw [found] at here
            cases here
            exact Or.inl (Or.inr same)
          · rw [← hop.unique first] at later
            exact Or.inr ⟨visited, later, there⟩

def unackedItems (watermark : DiskWatermark) (events : List (SignalKind × RecoveryEvent Batch)) :
    List (SignalKind × QueuedBatch Batch) :=
  events.filterMap fun event => (event.2.unacked? (watermark.forSignal event.1)).map (event.1, ·)

structure SegmentScan.Tallied (watermark : DiskWatermark) (scan : SegmentScan Batch) : Prop where
  unacked : scan.unackedFrames = (unackedItems watermark scan.events).length
  maxSeq : ∀ event ∈ scan.events, ∀ seq ∈ event.2.seqId?, seq ≤ scan.maxSeq event.1

theorem SegmentScan.Tallied.visit {scan : SegmentScan Batch} {header : FrameHeader}
    {event : RecoveryEvent Batch} (tallied : scan.Tallied watermark) (numbered : event.seqId? = some header.seqId) :
    (scan.visit watermark header event).Tallied watermark := by
  constructor
  · simp only [SegmentScan.visit, SegmentScan.seeFrame, tallied.unacked, unackedItems, List.filterMap_append,
      List.length_append]
    cases read : event.unacked? (watermark.forSignal header.signal) <;> simp [read]
  · intro seen member seq read
    simp only [SegmentScan.visit, SegmentScan.seeFrame] at member ⊢
    rcases List.mem_append.mp member with old | new
    · have bound := tallied.maxSeq seen old seq read
      split
      · rename_i same
        rw [same] at bound
        exact bound.trans (Nat.le_max_left _ _)
      · exact bound
    · rw [List.mem_singleton.mp new] at read ⊢
      rw [if_pos rfl]
      rw [numbered] at read
      cases read
      exact Nat.le_max_right _ _

theorem eventAt_seqId (codec : Codec Batch) (maxPayloadLen segmentNum : Nat) (now : Instant) (file : Bytes)
    (offset : Nat) (header : FrameHeader) :
    (eventAt codec maxPayloadLen segmentNum now file offset header).seqId? = some header.seqId := by
  unfold eventAt
  split <;> rfl

theorem scanSegment_tallied {scan : SegmentScan Batch} (tallied : scan.Tallied watermark) (fuel offset : Nat) :
    (scanSegment codec maxPayloadLen watermark segmentNum now file fuel offset scan).Tallied watermark := by
  induction fuel generalizing offset scan with
  | zero => exact tallied
  | succ fuel ih =>
    cases found : headerAt maxPayloadLen file offset with
    | none =>
      obtain ⟨ending, truncateAt, reached, ends, _⟩ :=
        scanSegment_end codec watermark segmentNum now fuel scan found
      rw [reached]
      rcases ends with rfl | rfl
      · simpa using ⟨tallied.unacked, tallied.maxSeq⟩
      · refine ⟨?_, ?_⟩
        · simp [unackedItems, tallied.unacked, RecoveryEvent.unacked?]
        · intro event member seq read
          rcases List.mem_append.mp member with old | new
          · exact tallied.maxSeq event old seq read
          · rw [List.mem_singleton.mp new] at read
            cases read
    | some header =>
      rw [scanSegment_visit found]
      exact ih (tallied.visit (eventAt_seqId _ _ _ _ _ _ _)) _

theorem scanSegment_truncateAt {scan : SegmentScan Batch} {fuel offset cut : Nat}
    (whole : scan.truncateAt = none)
    (truncated : (scanSegment codec maxPayloadLen watermark segmentNum now file fuel offset scan).truncateAt =
      some cut) :
    Visits maxPayloadLen file offset cut ∧ headerAt maxPayloadLen file cut = none := by
  induction fuel generalizing offset scan with
  | zero =>
    rw [scanSegment, whole] at truncated
    cases truncated
  | succ fuel ih =>
    cases found : headerAt maxPayloadLen file offset with
    | none =>
      obtain ⟨ending, truncateAt, reached, _, cuts⟩ :=
        scanSegment_end codec watermark segmentNum now fuel scan found
      rw [reached] at truncated
      simp only at truncated
      rcases cuts with rfl | rfl
      · rw [whole] at truncated
        cases truncated
      · cases truncated
        exact ⟨.refl, found⟩
    | some header =>
      rw [scanSegment_visit found] at truncated
      obtain ⟨visits, ended⟩ := ih (by exact whole) truncated
      exact ⟨.head ⟨header, found, rfl⟩ visits, ended⟩

theorem Visits.before_end {start visited cut next : Nat} (visits : Visits maxPayloadLen file start visited)
    (hop : Hop maxPayloadLen file visited next) (reached : Visits maxPayloadLen file start cut)
    (ended : headerAt maxPayloadLen file cut = none) : next ≤ cut := by
  have stuck : ∀ later, Visits maxPayloadLen file cut later → later = cut := by
    intro later onward
    rcases Relation.ReflTransGen.cases_head onward with same | ⟨other, ⟨header, found, _⟩, _⟩
    · exact same.symm
    · rw [ended] at found
      cases found
  rcases visits.total reached with onward | back
  · rcases Relation.ReflTransGen.cases_head onward with rfl | ⟨other, first, later⟩
    · obtain ⟨header, found, _⟩ := hop
      rw [ended] at found
      cases found
    · rw [hop.unique first]
      exact Visits.le later
  · have same := stuck visited back
    subst same
    obtain ⟨header, found, _⟩ := hop
    rw [ended] at found
    cases found

end Scan

section Frames

variable {codec : Codec Batch} {maxPayloadLen segmentNum : Nat} {now : Instant} {file : Bytes} {offset : Nat}

/-- A whole frame whose length fits the `u32` of its location. -/
def Frame.Storable (frame : Frame codec) : Prop := frame.bytes.length ≤ u32Max

theorem Frame.Storable.frameLen_eq {frame : Frame codec} (storable : frame.Storable) :
    frameLen frame.header = frame.bytes.length := by
  rw [Frame.Storable, frame.bytes_length] at storable
  rw [frameLen, frame.bytes_length]
  exact Nat.min_eq_left storable

theorem Frame.payload_le_bound {frame : Frame codec} {rest : Bytes} (maxPayloadLen : Nat)
    (here : file.drop offset = frame.bytes ++ rest) :
    frame.payload.length ≤ payloadBound maxPayloadLen file.length offset := by
  have lengths := congrArg List.length here
  rw [List.length_drop, List.length_append, frame.bytes_length] at lengths
  have := frame.payloadFits
  unfold payloadBound
  omega

theorem Frame.decodeAt {frame : Frame codec} {rest : Bytes} (maxPayloadLen : Nat)
    (here : file.drop offset = frame.bytes ++ rest) :
    decodeFrame codec (file.drop offset) (payloadBound maxPayloadLen file.length offset) =
      .ok (some (frame.header, frame.batch)) := by
  have bounded := Frame.payload_le_bound maxPayloadLen here
  rw [here]
  exact frame.decodeFrame_eq rest bounded

theorem Frame.headerAt_eq {frame : Frame codec} {rest : Bytes} (maxPayloadLen segmentNum : Nat) (now : Instant)
    (here : file.drop offset = frame.bytes ++ rest) :
    headerAt maxPayloadLen file offset = some frame.header ∧
      eventAt codec maxPayloadLen segmentNum now file offset frame.header =
        .frame (recoveredItem segmentNum offset frame.header frame.batch now) := by
  have decoded := Frame.decodeAt maxPayloadLen here
  refine ⟨?_, by simp [eventAt, decoded]⟩
  rcases decodeFrame_cases codec (file.drop offset) (payloadBound maxPayloadLen file.length offset) with
    ⟨header, found, ⟨batch, read⟩ | ⟨crc, read⟩ | ⟨source, read⟩⟩ | ⟨_, read | read | ⟨reason, read⟩⟩
  · rw [read] at decoded
    cases decoded
    exact found
  all_goals
    rw [read] at decoded
    cases decoded

def framesBytes (frames : List (Frame codec)) : Bytes := frames.flatMap Frame.bytes

@[simp] theorem framesBytes_nil : framesBytes ([] : List (Frame codec)) = [] := rfl

@[simp] theorem framesBytes_cons (frame : Frame codec) (frames : List (Frame codec)) :
    framesBytes (frame :: frames) = frame.bytes ++ framesBytes frames := rfl

@[simp] theorem framesBytes_append (left right : List (Frame codec)) :
    framesBytes (left ++ right) = framesBytes left ++ framesBytes right := List.flatMap_append

def locate (offset : Nat) : List (Frame codec) → List (Nat × Frame codec)
  | [] => []
  | frame :: rest => (offset, frame) :: locate (offset + frame.bytes.length) rest

def frameEvent (segmentNum : Nat) (now : Instant) (located : Nat × Frame codec) :
    SignalKind × RecoveryEvent Batch :=
  (located.2.signal, .frame (recoveredItem segmentNum located.1 located.2.header located.2.batch now))

theorem scanSegment_frames (watermark : DiskWatermark) {frames : List (Frame codec)} {tail : Bytes}
    (storable : ∀ frame ∈ frames, frame.Storable) (here : file.drop offset = framesBytes frames ++ tail)
    (fuel : Nat) (scan : SegmentScan Batch) :
    ∃ reached : SegmentScan Batch,
      scanSegment codec maxPayloadLen watermark segmentNum now file (fuel + frames.length) offset scan =
        scanSegment codec maxPayloadLen watermark segmentNum now file fuel (offset + (framesBytes frames).length)
          reached ∧
      reached.events = scan.events ++ (locate offset frames).map (frameEvent segmentNum now) ∧
      reached.truncateAt = scan.truncateAt := by
  induction frames generalizing offset scan with
  | nil => exact ⟨scan, by simp, by simp [locate], rfl⟩
  | cons frame rest ih =>
    have first : file.drop offset = frame.bytes ++ (framesBytes rest ++ tail) := by
      rw [here, framesBytes_cons, List.append_assoc]
    have next : file.drop (offset + frame.bytes.length) = framesBytes rest ++ tail := by
      rw [← List.drop_drop, first, List.drop_left]
    obtain ⟨found, event⟩ := Frame.headerAt_eq maxPayloadLen segmentNum now first
    have length := (storable frame List.mem_cons_self).frameLen_eq
    obtain ⟨reached, scanned, events, whole⟩ := ih
      (fun other member => storable other (List.mem_cons_of_mem _ member)) next
      (scan.visit watermark frame.header
        (eventAt codec maxPayloadLen segmentNum now file offset frame.header))
    refine ⟨reached, ?_, ?_, whole⟩
    · rw [List.length_cons, ← Nat.add_assoc, scanSegment_visit found, length, scanned, framesBytes_cons,
        List.length_append, Nat.add_assoc]
    · rw [events, event]
      simp [SegmentScan.visit, SegmentScan.seeFrame, locate, frameEvent, Frame.header]

theorem recordEvents_apply (watermark : DiskWatermark) (rings : Rings Batch)
    (events : List (SignalKind × RecoveryEvent Batch)) (signal : SignalKind) :
    events.foldl (recordEvent watermark) rings signal =
      ((events.filter fun event => event.1 = signal).map Prod.snd).foldl
        (SignalRingState.recover (watermark.forSignal signal)) (rings signal) := by
  induction events generalizing rings with
  | nil => rfl
  | cons event rest ih =>
    rw [List.foldl_cons, ih]
    by_cases same : event.1 = signal
    · subst same
      simp [recordEvent]
    · have kept : recordEvent watermark rings event signal = rings signal :=
        Function.update_of_ne (Ne.symm same) _ _
      simp [same, kept]

end Frames

end OtelDatalake.Disk
