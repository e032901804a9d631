import OtelDatalake.Disk.Durability

open Std OtelDatalake.Foundation OtelDatalake.Buffer

namespace OtelDatalake.Disk

variable {Batch : Type} [RecordBatch Batch] {codec : Codec Batch}

/-- The file after a loss of power: any suffix of what was not synced may be gone. -/
def SegmentFile.lose (file : SegmentFile) (kept : Nat) : SegmentFile :=
  let bytes := file.bytes.take (max file.synced kept)
  { bytes := bytes, synced := bytes.length }

def Directory.lose (dir : Directory) (kept : Nat → Nat) : Directory :=
  { dir with segments := dir.segments.map fun segmentId file => file.lose (kept segmentId) }

section Lose

variable {dir : Directory} {kept : Nat → Nat}

theorem Directory.lose_found {segmentId : Nat} {left : SegmentFile}
    (found : (dir.lose kept).segments[segmentId]? = some left) :
    ∃ file, dir.segments[segmentId]? = some file ∧ left = file.lose (kept segmentId) := by
  rw [Directory.lose, ExtTreeMap.getElem?_map] at found
  obtain ⟨file, there, rfl⟩ := Option.map_eq_some_iff.mp found
  exact ⟨file, there, rfl⟩

theorem Directory.mem_lose {segmentId : Nat} : segmentId ∈ (dir.lose kept).segments ↔ segmentId ∈ dir.segments :=
  ExtTreeMap.mem_map

theorem Directory.watermarkOf_lose : (dir.lose kept).watermarkOf = dir.watermarkOf := rfl

end Lose

theorem wholeFrames_all {count : Nat} {frames : List (Frame codec)} (enough : (framesBytes frames).length ≤ count) :
    wholeFrames count frames = frames := by
  induction frames generalizing count with
  | nil => rfl
  | cons first rest ih =>
    rw [framesBytes_cons, List.length_append] at enough
    rw [wholeFrames, if_pos (by omega), ih (by omega)]

theorem take_torn {maxPayloadLen : Nat} {frames : List (Frame codec)} {tail : Bytes} (count : Nat)
    (bounded : ∀ frame ∈ frames, frame.payload.length ≤ maxPayloadLen) (torn : Torn codec maxPayloadLen tail) :
    ∃ left, (framesBytes frames ++ tail).take count = framesBytes (wholeFrames count frames) ++ left ∧
      Torn codec maxPayloadLen left := by
  rcases Nat.le_total count (framesBytes frames).length with inside | beyond
  · rw [List.take_append_of_le_length inside]
    rcases take_framesBytes count frames with whole | ⟨frame, member, part, positive, short, split⟩
    · exact ⟨[], by rw [whole, List.append_nil], .inl rfl⟩
    · exact ⟨_, split, .inr ⟨frame, part, positive, short, bounded frame member, rfl⟩⟩
  · refine ⟨tail.take (count - (framesBytes frames).length), ?_, ?_⟩
    · rw [List.take_append, List.take_of_length_le beyond, wholeFrames_all beyond]
    · rcases torn with rfl | ⟨frame, part, _, short, within, rfl⟩
      · exact .inl List.take_nil
      · rw [List.take_take]
        exact torn_take ((Nat.min_le_right _ _).trans_lt short) within

def leftFrames (dir : Directory) (kept : Nat → Nat) (ledger : Nat → List (Frame codec)) (segmentId : Nat) :
    List (Frame codec) :=
  match dir.segments[segmentId]? with
  | some file => wholeFrames (max file.synced (kept segmentId)) (ledger segmentId)
  | none => ledger segmentId

theorem leftFrames_sublist (dir : Directory) (kept : Nat → Nat) (ledger : Nat → List (Frame codec)) (segmentId : Nat) :
    (leftFrames dir kept ledger segmentId).Sublist (ledger segmentId) := by
  unfold leftFrames
  split
  · exact wholeFrames_sublist _ _
  · exact List.Sublist.refl _

theorem Laid.lose {maxPayloadLen : Nat} {stock : Stock codec} (laid : Laid 0 maxPayloadLen stock) (kept : Nat → Nat) :
    Laid 0 maxPayloadLen ⟨leftFrames stock.dir kept stock.ledger, [], stock.dir.lose kept⟩ where
  files segmentId left _ found := by
    obtain ⟨file, there, rfl⟩ := Directory.lose_found found
    obtain ⟨tail, bytes, torn⟩ := laid.files segmentId file (Nat.zero_le _) there
    simp only [leftFrames, there, SegmentFile.lose, bytes]
    exact take_torn _ (fun frame member => (laid.storable segmentId frame member).2) torn
  storable segmentId frame member :=
    laid.storable segmentId frame ((leftFrames_sublist stock.dir kept stock.ledger segmentId).subset member)
  kept segmentId frame member above := by
    rw [Directory.watermarkOf_lose] at above
    exact Directory.mem_lose.mpr (laid.kept segmentId frame
      ((leftFrames_sublist stock.dir kept stock.ledger segmentId).subset member) above)

/-- A buffer that is opened on what a loss of power leaves is as sane as before, and no frame in it is new. -/
theorem DiskWorld.Sane.outlive {inner : BufferInner} {config : WriterConfig} {origin : SignalKind → SignalRing Batch}
    {ledger : Nat → List (Frame codec)} {world : DiskWorld codec} (sane : Sane inner config origin ledger world)
    {point : CrashPoint codec} {dir : Directory} (left : leftBehind config world point = some dir)
    (clean : cleanCrash config world point = true) (kept : Nat → Nat) (generatedId : Nat) (now : Instant)
    (unlinks : Nat → Bool) :
    ∃ origin fewer, Sane inner config origin fewer (opened codec config generatedId now unlinks (dir.lose kept)) ∧
      ∀ segmentId, ∀ frame ∈ fewer segmentId, ∃ other, frame ∈ ledger other ++ world.requests.map (·.stored) := by
  obtain ⟨stock, rfl, crashed, known, _⟩ := sane.crashed_known left clean
  have below : ∀ signal, (stock.dir.lose kept).watermarkOf signal < u64Max := sane.covered_lt crashed
  have numbers : Numbers world.nextSeq (leftFrames stock.dir kept stock.ledger) ([] : List (Frame codec)) :=
    crashed.numbers.thin (leftFrames_sublist stock.dir kept stock.ledger) List.nil_subperm fun _ => le_rfl
  refine ⟨_, _, sane_opened inner (crashed.laid.lose kept) numbers sane.limit below generatedId now unlinks,
    fun segmentId frame member => ?_⟩
  have inside := (leftFrames_sublist stock.dir kept stock.ledger segmentId).subset (mem_survivors.mp member).2
  exact known segmentId frame inside

/-- The stored watermark covers a number, or a file starts with whole frames of which one has the signal and no lower
    number. -/
def Leaves (codec : Codec Batch) (dir : Directory) (signal : SignalKind) (seqId : Nat) : Prop :=
  seqId ≤ dir.watermarkOf signal ∨ ∃ (segmentId : Nat) (file : SegmentFile) (frames : List (Frame codec)) (rest : Bytes),
    dir.segments[segmentId]? = some file ∧ file.bytes = framesBytes frames ++ rest ∧
      (∀ frame ∈ frames, frame.Storable) ∧ ∃ frame ∈ frames, frame.signal = signal ∧ seqId ≤ frame.seqId

theorem Leaves.lt_nextSeq {dir : Directory} {signal : SignalKind} {seqId : Nat} (leaves : Leaves codec dir signal seqId)
    (room : seqId < u64Max) (config : WriterConfig) (generatedId : Nat) (now : Instant) (unlinks : Nat → Bool) :
    seqId < (DiskWorld.opened codec config generatedId now unlinks dir).nextSeq signal := by
  rw [DiskWorld.nextSeq, DiskWorld.opened_ring, reopened_nextSeq]
  rcases leaves with covered | ⟨segmentId, file, frames, rest, found, bytes, storable, frame, member, rfl, above⟩
  · refine Nat.lt_of_lt_of_le ?_ (start_le_foldl_max _ _)
    rw [loadInitialWatermark_forSignal]
    have same : dir.watermarkOf signal = (dir.watermark.getD {}).forSignal signal := rfl
    unfold saturatingSucc
    omega
  · obtain ⟨offset, inside⟩ := exists_locate 0 member
    have whole : file.bytes.drop 0 = framesBytes frames ++ rest := bytes
    have visits := (visits_frames storable config.maxPayloadLen whole).1 (offset, frame) inside
    obtain ⟨behind, here⟩ := locate_here whole inside
    have reported := reported_of_visits segmentId (loadInitialWatermark generatedId dir).1 now visits
      (storable frame member) here
    have event := mem_recoveryEvents.mpr ⟨segmentId, file, found, reported⟩
    have seen : frame.seqId ∈ (recoveryEvents codec config.maxPayloadLen (loadInitialWatermark generatedId dir).1 now dir
        frame.signal).filterMap (·.seqId?) := List.mem_filterMap.mpr ⟨_, event, rfl⟩
    refine Nat.lt_of_lt_of_le ?_ (le_foldl_max _ (List.mem_map_of_mem seen))
    unfold saturatingSucc
    omega

end OtelDatalake.Disk
