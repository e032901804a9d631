import Mathlib.Order.MinMax
import OtelDatalake.Disk.Scan

open Std OtelDatalake.Foundation OtelDatalake.Buffer

namespace OtelDatalake.Disk

variable {Batch : Type} [RecordBatch Batch] {codec : Codec Batch}

/-- The frames that the first `count` bytes of their concatenation contain as a whole. -/
def wholeFrames : Nat → List (Frame codec) → List (Frame codec)
  | _, [] => []
  | count, frame :: rest =>
    if frame.bytes.length ≤ count then frame :: wholeFrames (count - frame.bytes.length) rest else []

theorem wholeFrames_sublist (count : Nat) (frames : List (Frame codec)) :
    (wholeFrames count frames).Sublist frames := by
  induction frames generalizing count with
  | nil => exact List.Sublist.refl _
  | cons first rest ih =>
    unfold wholeFrames
    split
    · exact (ih _).cons_cons first
    · exact List.nil_sublist _

/-- Behind the whole frames there is nothing or a proper part of one more frame. -/
theorem take_framesBytes (count : Nat) (frames : List (Frame codec)) :
    (framesBytes frames).take count = framesBytes (wholeFrames count frames) ∨
    ∃ frame ∈ frames, ∃ part, 0 < part ∧ part < frame.bytes.length ∧
      (framesBytes frames).take count = framesBytes (wholeFrames count frames) ++ frame.bytes.take part := by
  induction frames generalizing count with
  | nil => exact Or.inl (by simp [wholeFrames])
  | cons first rest ih =>
    unfold wholeFrames
    split
    · rename_i within
      have split : (framesBytes (first :: rest)).take count =
          first.bytes ++ (framesBytes rest).take (count - first.bytes.length) := by
        rw [framesBytes_cons, List.take_append, List.take_of_length_le within]
      rcases ih (count - first.bytes.length) with whole | ⟨frame, member, part, positive, short, torn⟩
      · left
        rw [split, whole, framesBytes_cons]
      · right
        refine ⟨frame, List.mem_cons_of_mem _ member, part, positive, short, ?_⟩
        rw [split, torn, framesBytes_cons, List.append_assoc]
    · rename_i beyond
      have front : (framesBytes (first :: rest)).take count = first.bytes.take count := by
        rw [framesBytes_cons, List.take_append_of_le_length (by omega)]
      by_cases empty : count = 0
      · left
        simp [empty]
      · right
        refine ⟨first, List.mem_cons_self, count, by omega, by omega, ?_⟩
        rw [front, framesBytes_nil, List.nil_append]

def storedItem (segmentNum : Nat) (now : Instant) (located : Nat × Frame codec) : QueuedBatch Batch :=
  { seqId := located.2.seqId
    payload := .onDisk segmentNum located.1 located.2.bytes.length (RecordBatch.numRows located.2.batch)
      (RecordBatch.schema located.2.batch)
    byteSize := located.2.bytes.length
    rowCount := RecordBatch.numRows located.2.batch
    enqueuedAt := now
    firstFailedAt := none
    attempt := 0
    readyAt := none }

def storedItems (segmentNum : Nat) (watermark : DiskWatermark) (now : Instant) (signal : SignalKind)
    (frames : List (Frame codec)) : List (QueuedBatch Batch) :=
  ((locate 0 frames).filter fun located =>
    located.2.signal = signal ∧ watermark.forSignal signal < located.2.seqId).map (storedItem segmentNum now)

def seqsOf (signal : SignalKind) (frames : List (Frame codec)) : List Nat :=
  (frames.filter fun frame => frame.signal = signal).map (·.seqId)

/-- What recovery makes of the first `count` bytes of a segment; `onePast` is the successor of a number. -/
structure TornTailRecovered (onePast : Nat → Nat) (segmentNum maxPayloadLen : Nat) (watermark : DiskWatermark)
    (now : Instant) (rings : Rings Batch) (frames : List (Frame codec)) (count : Nat)
    (outcome : RecoveredSegment Batch) : Prop where
  file : outcome.file = framesBytes (wholeFrames count frames)
  enqueued : ∀ signal, (outcome.rings signal).ring.queue =
    (storedItems segmentNum watermark now signal (wholeFrames count frames)).foldl enqueueOrdered
      (rings signal).ring.queue
  inOrder : ∀ signal, (∀ item ∈ (rings signal).ring.queue, ∀ seq ∈ seqsOf signal frames, item.seqId < seq) →
    (outcome.rings signal).ring.queue = (rings signal).ring.queue ++
      storedItems segmentNum watermark now signal (wholeFrames count frames)
  nextSeq : ∀ signal, (outcome.rings signal).ring.nextSeq =
    (seqsOf signal (wholeFrames count frames)).max?.elim (rings signal).ring.nextSeq
      fun largest => max (rings signal).ring.nextSeq (onePast largest)
  uncorrupted : ∀ signal, (outcome.rings signal).corruptionDrops = (rings signal).corruptionDrops

def Torn (codec : Codec Batch) (maxPayloadLen : Nat) (tail : Bytes) : Prop :=
  tail = [] ∨ ∃ frame : Frame codec, ∃ part, 0 < part ∧ part < frame.bytes.length ∧
    frame.payload.length ≤ maxPayloadLen ∧ tail = frame.bytes.take part

section Recovered

variable {segmentNum maxPayloadLen : Nat} {watermark : DiskWatermark} {now : Instant} {kept : List (Frame codec)}
  {tail : Bytes}

theorem scanFile_whole (segmentNum : Nat) (watermark : DiskWatermark) (now : Instant)
    (storable : ∀ frame ∈ kept, frame.Storable) (behind : Torn codec maxPayloadLen tail) :
    (scanFile codec maxPayloadLen watermark segmentNum now (framesBytes kept ++ tail)).events =
        (locate 0 kept).map (frameEvent segmentNum now) ∧
      (scanFile codec maxPayloadLen watermark segmentNum now (framesBytes kept ++ tail)).truncateAt =
        if tail = [] then none else some (framesBytes kept).length := by
  have short : kept.length ≤ (framesBytes kept).length := by
    clear storable
    induction kept with
    | nil => exact le_rfl
    | cons frame rest ih =>
      have := frame.bytes_pos
      simp only [List.length_cons, framesBytes_cons, List.length_append]
      omega
  have fuel : (framesBytes kept ++ tail).length + 1 =
      ((framesBytes kept ++ tail).length - kept.length + 1) + kept.length := by
    rw [List.length_append]
    omega
  obtain ⟨reached, scanned, events, truncated⟩ := scanSegment_frames watermark storable
    (show (framesBytes kept ++ tail).drop 0 = framesBytes kept ++ tail from rfl)
    ((framesBytes kept ++ tail).length - kept.length + 1) {}
  have rest : (framesBytes kept ++ tail).drop (0 + (framesBytes kept).length) = tail := by
    rw [Nat.zero_add, List.drop_left]
  unfold scanFile
  rw [fuel, scanned, scanSegment, rest]
  rcases behind with rfl | ⟨frame, part, positive, proper, bounded, rfl⟩
  · have ended : decodeFrame codec [] (payloadBound maxPayloadLen (framesBytes kept ++ []).length
        (0 + (framesBytes kept).length)) = .ok none := rfl
    rw [ended]
    exact ⟨by simpa using events, by simpa using truncated⟩
  · have torn := frame.decodeFrame_take positive proper
      (bounded.trans (Nat.le_max_left _ (min ((framesBytes kept ++ frame.bytes.take part).length -
        (0 + (framesBytes kept).length) - frameHeaderLen) u32Max)))
    have nonempty : frame.bytes.take part ≠ [] := by
      intro empty
      have := congrArg List.length empty
      rw [List.length_take, List.length_nil] at this
      omega
    rw [payloadBound, torn, if_neg nonempty]
    exact ⟨by simpa using events, by simp⟩

theorem recoveredItem_eq {located : Nat × Frame codec} (storable : located.2.Storable) :
    recoveredItem segmentNum located.1 located.2.header located.2.batch now = storedItem segmentNum now located := by
  simp only [recoveredItem, storedItem, storable.frameLen_eq]
  rfl

theorem locate_mem {offset : Nat} {frames : List (Frame codec)} {located : Nat × Frame codec}
    (member : located ∈ locate offset frames) : located.2 ∈ frames := by
  induction frames generalizing offset with
  | nil => cases member
  | cons frame rest ih =>
    rcases List.mem_cons.mp member with rfl | later
    · exact List.mem_cons_self
    · exact List.mem_cons_of_mem _ (ih later)

theorem wholeEvents_signal (storable : ∀ frame ∈ kept, frame.Storable) (signal : SignalKind) :
    (((locate 0 kept).map (frameEvent segmentNum now)).filter fun event => event.1 = signal).map Prod.snd =
      ((locate 0 kept).filter fun located => located.2.signal = signal).map
        fun located => RecoveryEvent.frame (storedItem segmentNum now located) := by
  rw [List.filter_map, List.map_map]
  refine List.map_congr_left fun located member => ?_
  have listed := (List.mem_filter.mp member).1
  simp only [Function.comp, frameEvent, recoveredItem_eq (storable _ (locate_mem listed))]

theorem recoverSingleSegment_whole (segmentNum : Nat) (watermark : DiskWatermark) (now : Instant)
    (storable : ∀ frame ∈ kept, frame.Storable) (behind : Torn codec maxPayloadLen tail) (rings : Rings Batch)
    (signal : SignalKind) :
    (recoverSingleSegment codec segmentNum maxPayloadLen watermark now rings
        (framesBytes kept ++ tail)).rings signal =
      (((locate 0 kept).filter fun located => located.2.signal = signal).map
        fun located => RecoveryEvent.frame (storedItem segmentNum now located)).foldl
          (SignalRingState.recover (watermark.forSignal signal)) (rings signal) ∧
    (recoverSingleSegment codec segmentNum maxPayloadLen watermark now rings
      (framesBytes kept ++ tail)).file = framesBytes kept := by
  obtain ⟨events, truncated⟩ := scanFile_whole segmentNum watermark now storable behind
  simp only [recoverSingleSegment, events, truncated, recordEvents_apply, wholeEvents_signal storable, true_and]
  split_ifs with clean
  · rw [clean, List.append_nil]
    rfl
  · exact List.take_left

theorem storedEvents_unacked (signal : SignalKind) (located : List (Nat × Frame codec)) :
    ((located.filter fun entry => entry.2.signal = signal).map
      fun entry => RecoveryEvent.frame (storedItem segmentNum now entry)).filterMap
        (·.unacked? (watermark.forSignal signal)) =
      (located.filter fun entry => entry.2.signal = signal ∧ watermark.forSignal signal < entry.2.seqId).map
        (storedItem segmentNum now) := by
  induction located with
  | nil => rfl
  | cons entry rest ih =>
    by_cases same : entry.2.signal = signal
    · by_cases above : watermark.forSignal signal < entry.2.seqId
      · have read : (RecoveryEvent.frame (storedItem segmentNum now entry)).unacked?
            (watermark.forSignal signal) = some (storedItem segmentNum now entry) := if_neg (Nat.not_le.mpr above)
        rw [List.filter_cons_of_pos (by simpa using same), List.filter_cons_of_pos (by simp [same, above]),
          List.map_cons, List.map_cons, List.filterMap_cons_some read, ih]
      · have read : (RecoveryEvent.frame (storedItem segmentNum now entry)).unacked?
            (watermark.forSignal signal) = none := if_pos (Nat.not_lt.mp above)
        rw [List.filter_cons_of_pos (by simpa using same), List.filter_cons_of_neg (by simp [above]),
          List.map_cons, List.filterMap_cons_none read, ih]
    · simp [same, ih]

theorem located_seqId (signal : SignalKind) (offset : Nat) (frames : List (Frame codec)) :
    ((locate offset frames).filter fun entry => entry.2.signal = signal).map (·.2.seqId) = seqsOf signal frames := by
  induction frames generalizing offset with
  | nil => rfl
  | cons frame rest ih =>
    have later := ih (offset + frame.bytes.length)
    by_cases same : frame.signal = signal
    · simp [locate, seqsOf, same] at later ⊢
      exact later
    · simp [locate, seqsOf, same] at later ⊢
      exact later

theorem storedEvents_seqId (signal : SignalKind) (frames : List (Frame codec)) :
    (((locate 0 frames).filter fun entry => entry.2.signal = signal).map
      fun entry => RecoveryEvent.frame (storedItem segmentNum now entry)).filterMap (·.seqId?) =
      seqsOf signal frames := by
  rw [← located_seqId signal 0 frames, List.filterMap_map, ← List.filterMap_eq_map]
  rfl

theorem foldl_max_succ {onePast : Nat → Nat} (monotone : Monotone onePast) (seqs : List Nat) (start : Nat) :
    seqs.foldl (fun next seq => max next (onePast seq)) start =
      seqs.max?.elim start fun largest => max start (onePast largest) := by
  induction seqs generalizing start with
  | nil => rfl
  | cons seq rest ih =>
    rw [List.foldl_cons, ih, List.max?_cons]
    cases rest.max? with
    | none => rfl
    | some largest => simp [monotone.map_max, max_assoc]

theorem enqueueOrdered_foldl {items queue : List (QueuedBatch Batch)}
    (ascending : Ascending (·.seqId) items)
    (above : ∀ old ∈ queue, ∀ item ∈ items, old.seqId < item.seqId) :
    items.foldl enqueueOrdered queue = queue ++ items := by
  induction items generalizing queue with
  | nil => simp
  | cons item rest ih =>
    have last : enqueueOrdered queue item = queue ++ [item] := by
      unfold enqueueOrdered
      rw [if_pos]
      cases back : queue.getLast? with
      | none => rfl
      | some old =>
        simp only [Option.all_some, decide_eq_true_eq]
        exact above old (List.mem_of_getLast? back) item List.mem_cons_self
    rw [List.foldl_cons, last, ih ascending.of_cons ?_, List.append_assoc, List.singleton_append]
    intro old member later listed
    rcases List.mem_append.mp member with held | new
    · exact above old held later (List.mem_cons_of_mem _ listed)
    · rw [List.mem_singleton.mp new]
      exact ascending.head_lt later listed

theorem storedItems_ascending {frames : List (Frame codec)} (signal : SignalKind)
    (increasing : (seqsOf signal frames).Pairwise (· < ·)) :
    Ascending (·.seqId) (storedItems segmentNum watermark now signal frames) := by
  rw [← located_seqId signal 0 frames, List.pairwise_map] at increasing
  have narrower := increasing.filter (fun entry => decide (watermark.forSignal signal < entry.2.seqId))
  rw [List.filter_filter] at narrower
  unfold storedItems Ascending
  rw [List.pairwise_map]
  simpa [storedItem, and_comm, Bool.and_comm] using narrower

end Recovered

theorem saturatingSucc_monotone : Monotone saturatingSucc := by
  intro left right ordered
  unfold saturatingSucc
  omega

theorem torn_tail_recovered (codec : Codec Batch) (segmentNum maxPayloadLen : Nat) (watermark : DiskWatermark)
    (now : Instant) (rings : Rings Batch) (frames : List (Frame codec)) (count : Nat)
    (storable : ∀ frame ∈ frames, frame.Storable)
    (bounded : ∀ frame ∈ frames, frame.payload.length ≤ maxPayloadLen)
    (increasing : ∀ signal, (seqsOf signal frames).Pairwise (· < ·)) :
    TornTailRecovered saturatingSucc segmentNum maxPayloadLen watermark now rings frames count
      (recoverSingleSegment codec segmentNum maxPayloadLen watermark now rings
        ((framesBytes frames).take count)) := by
  have kept : ∀ frame ∈ wholeFrames count frames, frame.Storable := fun frame member =>
    storable frame ((wholeFrames_sublist count frames).subset member)
  obtain ⟨tail, split, behind⟩ : ∃ tail, (framesBytes frames).take count =
      framesBytes (wholeFrames count frames) ++ tail ∧ Torn codec maxPayloadLen tail := by
    rcases take_framesBytes count frames with whole | ⟨frame, member, part, positive, proper, torn⟩
    · exact ⟨[], by rw [whole, List.append_nil], Or.inl rfl⟩
    · exact ⟨_, torn, Or.inr ⟨frame, part, positive, proper, bounded frame member, rfl⟩⟩
  rw [split]
  have received := fun signal => (recoverSingleSegment_whole segmentNum watermark now kept behind rings signal).1
  have enqueued : ∀ signal, ((recoverSingleSegment codec segmentNum maxPayloadLen watermark now rings
      (framesBytes (wholeFrames count frames) ++ tail)).rings signal).ring.queue =
      (storedItems segmentNum watermark now signal (wholeFrames count frames)).foldl enqueueOrdered
        (rings signal).ring.queue := by
    intro signal
    rw [received, SignalRingState.recover_queue, storedEvents_unacked]
    rfl
  refine ⟨?_, enqueued, ?_, ?_, ?_⟩
  · exact (recoverSingleSegment_whole segmentNum watermark now kept behind rings .logs).2
  · intro signal lower
    have narrowed : (seqsOf signal (wholeFrames count frames)).Sublist (seqsOf signal frames) :=
      ((wholeFrames_sublist count frames).filter _).map _
    rw [enqueued]
    refine enqueueOrdered_foldl (storedItems_ascending signal ((increasing signal).sublist narrowed)) ?_
    intro old member item listed
    obtain ⟨located, selected, rfl⟩ := List.mem_map.mp listed
    refine lower old member _ (narrowed.subset ?_)
    rw [← located_seqId signal 0]
    obtain ⟨found, matching⟩ := List.mem_filter.mp selected
    exact List.mem_map.mpr ⟨located, List.mem_filter.mpr ⟨found, by simpa using (of_decide_eq_true matching).1⟩, rfl⟩
  · intro signal
    rw [received, SignalRingState.recover_nextSeq, storedEvents_seqId, foldl_max_succ saturatingSucc_monotone]
  · intro signal
    rw [received]
    generalize ((locate 0 (wholeFrames count frames)).filter _) = located
    generalize rings signal = state
    induction located generalizing state with
    | nil => rfl
    | cons entry rest ih =>
      rw [List.map_cons, List.foldl_cons, ih]
      simp only [SignalRingState.recover]
      split <;> rfl

def tornFrames : List (Frame plainCodec) :=
  [plainFrame .logs 4 { schema := 0, rows := 1, body := [7] } (by decide) (by decide),
    plainFrame .metrics 9 { schema := 0, rows := 2, body := [] } (by decide) (by decide),
    plainFrame .logs 5 { schema := 0, rows := 1, body := [8, 9] } (by decide) (by decide)]

theorem torn_tail_recovered_tornFrames :
    TornTailRecovered saturatingSucc 1 4096 { logs := 2 } 0 (fun _ => .restored 2) tornFrames 70
      (recoverSingleSegment plainCodec 1 4096 { logs := 2 } 0 (fun _ => .restored 2)
        ((framesBytes tornFrames).take 70)) := by
  refine torn_tail_recovered plainCodec 1 4096 { logs := 2 } 0 (fun _ => .restored 2) tornFrames 70 ?_ ?_ ?_
  · intro frame member
    unfold Frame.Storable
    revert frame
    decide
  · decide
  · intro signal
    cases signal <;> decide

/-- A frame that is longer than a `u32` is cut off behind that many bytes. -/
theorem recoverSingleSegment_long (frame : Frame codec) (segmentNum maxPayloadLen : Nat)
    (watermark : DiskWatermark) (now : Instant) (rings : Rings Batch) (long : ¬frame.Storable)
    (short : frame.payload.length < u32Max) :
    (recoverSingleSegment codec segmentNum maxPayloadLen watermark now rings frame.bytes).file.length = u32Max := by
  have beyond : u32Max < frame.bytes.length := Nat.not_le.mp long
  have length := frame.bytes_length
  have here : frame.bytes.drop 0 = frame.bytes ++ [] := by simp
  obtain ⟨found, _⟩ := Frame.headerAt_eq maxPayloadLen segmentNum now here
  have step : 0 + frameLen frame.header = u32Max := by
    have same : frame.header.payloadLen = frame.payload.length := rfl
    rw [frameLen, same]
    omega
  have torn : decodeFrame codec (frame.bytes.drop u32Max)
      (payloadBound maxPayloadLen frame.bytes.length u32Max) = .error .tornFrame := by
    have rest : (frame.bytes.drop u32Max).length = frame.bytes.length - u32Max := List.length_drop
    have few : (frame.bytes.drop u32Max).length < frameHeaderLen := by omega
    have nonempty : (frame.bytes.drop u32Max).isEmpty = false := by
      rw [List.isEmpty_eq_false_iff, ← List.length_pos_iff]
      omega
    rw [decodeFrame, if_pos few, nonempty]
    rfl
  have truncated : (scanFile codec maxPayloadLen watermark segmentNum now frame.bytes).truncateAt = some u32Max := by
    have fuel : frame.bytes.length + 1 = frame.bytes.length - 1 + 1 + 1 := by
      have := frame.bytes_pos
      omega
    rw [scanFile, fuel, scanSegment_visit found, step, scanSegment, torn]
  simp only [recoverSingleSegment, truncated, Option.elim_some, List.length_take]
  omega

theorem not_recovered_long (frame : Frame codec) (onePast : Nat → Nat) (segmentNum maxPayloadLen : Nat)
    (watermark : DiskWatermark) (now : Instant) (rings : Rings Batch) (long : ¬frame.Storable)
    (short : frame.payload.length < u32Max) :
    ¬TornTailRecovered onePast segmentNum maxPayloadLen watermark now rings [frame] frame.bytes.length
      (recoverSingleSegment codec segmentNum maxPayloadLen watermark now rings
        ((framesBytes [frame]).take frame.bytes.length)) := by
  intro recovered
  have kept := congrArg List.length recovered.file
  have beyond : u32Max < frame.bytes.length := Nat.not_le.mp long
  have whole : framesBytes [frame] = frame.bytes := by simp
  have contained : wholeFrames frame.bytes.length [frame] = [frame] := by simp [wholeFrames]
  rw [contained, whole, List.take_of_length_le le_rfl,
    recoverSingleSegment_long frame segmentNum maxPayloadLen watermark now rings long short] at kept
  omega

def lastFrame : Frame plainCodec := plainFrame .logs u64Max { schema := 0, rows := 1, body := [] } le_rfl (by decide)

def longBatch : PlainBatch := { schema := 0, rows := 1, body := List.replicate 4294967283 0 }

theorem longBatch_body : longBatch.body.length = 4294967283 := List.length_replicate

def longFrame : Frame plainCodec :=
  plainFrame .logs 1 longBatch (by decide) (by rw [longBatch_body, u32Max]; omega)

theorem longFrame_payload : longFrame.payload.length = 4294967285 := by
  have payload : longFrame.payload = longBatch.schema :: longBatch.rows :: longBatch.body := rfl
  rw [payload, List.length_cons, List.length_cons, longBatch_body]

/-- The number behind the last one is that number itself, and the length of a frame stops at that of a `u32`. -/
theorem torn_tail_saturates :
    (lastFrame.payload.length ≤ 4096 ∧
      ¬TornTailRecovered (· + 1) 1 4096 {} 0 (fun _ => .restored 0) [lastFrame] lastFrame.bytes.length
        (recoverSingleSegment plainCodec 1 4096 {} 0 (fun _ => .restored 0)
          ((framesBytes [lastFrame]).take lastFrame.bytes.length))) ∧
    (longFrame.payload.length ≤ u32Max ∧
      ¬TornTailRecovered saturatingSucc 1 u32Max {} 0 (fun _ => .restored 0) [longFrame] longFrame.bytes.length
        (recoverSingleSegment plainCodec 1 u32Max {} 0 (fun _ => .restored 0)
          ((framesBytes [longFrame]).take longFrame.bytes.length))) := by
  refine ⟨⟨by decide, fun recovered => ?_⟩, ⟨?_, fun recovered => ?_⟩⟩
  · have next := recovered.nextSeq .logs
    revert next
    decide +kernel
  · rw [longFrame_payload, u32Max]
    omega
  · refine not_recovered_long longFrame saturatingSucc 1 u32Max {} 0 (fun _ => .restored 0) ?_ ?_ recovered
    · rw [Frame.Storable, longFrame.bytes_length, longFrame_payload, frameHeaderLen, u32Max]
      omega
    · rw [longFrame_payload, u32Max]
      omega

end OtelDatalake.Disk
