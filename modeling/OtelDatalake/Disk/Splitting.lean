import OtelDatalake.Disk.Frame

open OtelDatalake.Foundation OtelDatalake.Buffer

namespace OtelDatalake.Disk

/-- A record batch by its rows. `memory` is `get_array_memory_size`, which a slice shares with its batch. -/
structure RowBatch (Schema Row : Type) where
  schema : Schema
  rows : List Row
  memory : Nat
  deriving DecidableEq, Repr

variable {Schema Row : Type} [DecidableEq Schema]

instance : RecordBatch (RowBatch Schema Row) where
  Schema := Schema
  schemaDecidableEq := inferInstance
  schema := RowBatch.schema
  numRows batch := batch.rows.length
  arrayMemorySize := RowBatch.memory

omit [DecidableEq Schema] in
def RowBatch.slice (batch : RowBatch Schema Row) (offset length : Nat) : RowBatch Schema Row :=
  { batch with rows := Foundation.slice offset length batch.rows }

structure PreEncodedFrame (Batch : Type) where
  header : FrameHeader
  bytes : Bytes
  batch : Batch

def unsplittable (payloadLen maxPayloadLen : Nat) : String :=
  s!"single-row RecordBatch encoded OTLB payload ({payloadLen} bytes) exceeds max_payload_len ({maxPayloadLen} bytes)"

/-- The halves are split behind one another into the frames that are there already. -/
def splitAndEncodeRecursive (codec : Codec (RowBatch Schema Row)) (signal : SignalKind) (maxPayloadLen : Nat)
    (batch : RowBatch Schema Row) (out : List (PreEncodedFrame (RowBatch Schema Row))) :
    Except String (List (PreEncodedFrame (RowBatch Schema Row))) :=
  match encodeFrame codec signal 0 batch with
  | .error reason => .error reason
  | .ok (header, bytes) =>
    if header.payloadLen ≤ maxPayloadLen then .ok (out ++ [⟨header, bytes, batch⟩])
    else if _few : batch.rows.length ≤ 1 then .error (unsplittable header.payloadLen maxPayloadLen)
    else
      let mid := batch.rows.length / 2
      match splitAndEncodeRecursive codec signal maxPayloadLen (batch.slice 0 mid) out with
      | .error reason => .error reason
      | .ok out => splitAndEncodeRecursive codec signal maxPayloadLen (batch.slice mid (batch.rows.length - mid)) out
termination_by batch.rows.length
decreasing_by
  all_goals simp only [RowBatch.slice, Foundation.slice, List.length_take, List.length_drop]
  all_goals omega

def splitAndEncodeFramesForDisk (codec : Codec (RowBatch Schema Row)) (signal : SignalKind)
    (batch : RowBatch Schema Row) (maxPayloadLen : Nat) :
    Except String (List (PreEncodedFrame (RowBatch Schema Row))) :=
  splitAndEncodeRecursive codec signal maxPayloadLen batch []

section Slices

omit [DecidableEq Schema]

variable (batch : RowBatch Schema Row)

theorem RowBatch.slice_whole : batch.slice 0 batch.rows.length = batch := by
  simp [RowBatch.slice, Foundation.slice]

theorem RowBatch.slice_length {offset length : Nat} (within : offset + length ≤ batch.rows.length) :
    (batch.slice offset length).rows.length = length := by
  simp only [RowBatch.slice, Foundation.slice, List.length_take, List.length_drop]
  omega

theorem RowBatch.slice_slice {offset length inner count : Nat} (within : inner + count ≤ length) :
    (batch.slice offset length).slice inner count = batch.slice (offset + inner) count := by
  simp only [RowBatch.slice, Foundation.slice, List.drop_take, List.take_take, List.drop_drop]
  rw [Nat.min_eq_left (by omega)]

theorem RowBatch.slices_rows (mid : Nat) :
    (batch.slice 0 mid).rows ++ (batch.slice mid (batch.rows.length - mid)).rows = batch.rows := by
  have all : (batch.rows.drop mid).take (batch.rows.length - mid) = batch.rows.drop mid :=
    List.take_of_length_le (by simp)
  simp only [RowBatch.slice, Foundation.slice, List.drop_zero, all, List.take_append_drop]

end Slices

variable (codec : Codec (RowBatch Schema Row)) (signal : SignalKind) (maxPayloadLen : Nat)

/-- The frames hold the rows of the batch in order, each as it is encoded and within the maximum. -/
structure FramesOf (batch : RowBatch Schema Row) (frames : List (PreEncodedFrame (RowBatch Schema Row))) : Prop where
  rows : frames.flatMap (fun frame => frame.batch.rows) = batch.rows
  schema : ∀ frame ∈ frames, frame.batch.schema = batch.schema
  bounded : ∀ frame ∈ frames, frame.header.payloadLen ≤ maxPayloadLen
  encoded : ∀ frame ∈ frames, encodeFrame codec signal 0 frame.batch = .ok (frame.header, frame.bytes)

/-- A slice that is the reason for a failure: it cannot be encoded at all, or it exceeds the maximum and is a single row
    or the whole of an empty batch. -/
def Unencodable (batch : RowBatch Schema Row) : Prop :=
  ∃ offset length, offset + length ≤ batch.rows.length ∧
    ((∃ reason, encodeFrame codec signal 0 (batch.slice offset length) = .error reason) ∨
      ((length = 1 ∨ batch.rows = []) ∧
        ∃ header bytes, encodeFrame codec signal 0 (batch.slice offset length) = .ok (header, bytes) ∧
          maxPayloadLen < header.payloadLen))

variable {codec signal maxPayloadLen}

theorem Unencodable.of_slice {batch : RowBatch Schema Row} {offset length : Nat} (some : 0 < length)
    (within : offset + length ≤ batch.rows.length)
    (failing : Unencodable codec signal maxPayloadLen (batch.slice offset length)) :
    Unencodable codec signal maxPayloadLen batch := by
  obtain ⟨inner, count, contained, reason⟩ := failing
  rw [batch.slice_length within] at contained
  rw [batch.slice_slice contained] at reason
  refine ⟨offset + inner, count, by omega, reason.imp_right ?_⟩
  rintro ⟨few, large⟩
  refine ⟨few.imp_right fun none => ?_, large⟩
  have empty := batch.slice_length within
  rw [none] at empty
  exact absurd empty.symm (Nat.pos_iff_ne_zero.mp some)

theorem FramesOf.append {batch : RowBatch Schema Row} {mid : Nat}
    {left right : List (PreEncodedFrame (RowBatch Schema Row))}
    (first : FramesOf codec signal maxPayloadLen (batch.slice 0 mid) left)
    (second : FramesOf codec signal maxPayloadLen (batch.slice mid (batch.rows.length - mid)) right) :
    FramesOf codec signal maxPayloadLen batch (left ++ right) := by
  constructor
  · rw [List.flatMap_append, first.rows, second.rows, batch.slices_rows]
  · intro frame member
    rcases List.mem_append.mp member with member | member
    · exact first.schema frame member
    · exact second.schema frame member
  · intro frame member
    rcases List.mem_append.mp member with member | member
    · exact first.bounded frame member
    · exact second.bounded frame member
  · intro frame member
    rcases List.mem_append.mp member with member | member
    · exact first.encoded frame member
    · exact second.encoded frame member

section Branches

variable {batch : RowBatch Schema Row} {header : FrameHeader} {bytes : Bytes}

theorem splitAndEncodeRecursive_fits (encoded : encodeFrame codec signal 0 batch = .ok (header, bytes))
    (fits : header.payloadLen ≤ maxPayloadLen) (out : List (PreEncodedFrame (RowBatch Schema Row))) :
    splitAndEncodeRecursive codec signal maxPayloadLen batch out = .ok (out ++ [⟨header, bytes, batch⟩]) := by
  unfold splitAndEncodeRecursive
  simp only [encoded, if_pos fits]

theorem splitAndEncodeRecursive_halves (encoded : encodeFrame codec signal 0 batch = .ok (header, bytes))
    (large : ¬ header.payloadLen ≤ maxPayloadLen) (many : ¬ batch.rows.length ≤ 1)
    {out middle : List (PreEncodedFrame (RowBatch Schema Row))}
    (first : splitAndEncodeRecursive codec signal maxPayloadLen (batch.slice 0 (batch.rows.length / 2)) out =
      .ok middle) :
    splitAndEncodeRecursive codec signal maxPayloadLen batch out =
      splitAndEncodeRecursive codec signal maxPayloadLen
        (batch.slice (batch.rows.length / 2) (batch.rows.length - batch.rows.length / 2)) middle := by
  conv_lhs => unfold splitAndEncodeRecursive
  simp only [encoded, if_neg large, dif_neg many, first]

end Branches

/-- The recursion adds the frames of the batch to those that are there, or fails for a slice of the batch. -/
theorem splitAndEncodeRecursive_spec (batch : RowBatch Schema Row)
    (out : List (PreEncodedFrame (RowBatch Schema Row))) :
    (∃ frames, splitAndEncodeRecursive codec signal maxPayloadLen batch out = .ok (out ++ frames) ∧
      FramesOf codec signal maxPayloadLen batch frames) ∨
    (∃ reason, splitAndEncodeRecursive codec signal maxPayloadLen batch out = .error reason) ∧
      Unencodable codec signal maxPayloadLen batch := by
  induction size : batch.rows.length using Nat.strong_induction_on generalizing batch out with
  | _ rows ih =>
    subst size
    unfold splitAndEncodeRecursive
    cases encodes : encodeFrame codec signal 0 batch with
    | error reason =>
      refine Or.inr ⟨⟨reason, rfl⟩, 0, batch.rows.length, by omega, Or.inl ⟨reason, ?_⟩⟩
      rw [batch.slice_whole]
      exact encodes
    | ok pair =>
      obtain ⟨header, bytes⟩ := pair
      by_cases small : header.payloadLen ≤ maxPayloadLen
      · left
        refine ⟨[⟨header, bytes, batch⟩], by simp only [if_pos small], by simp, ?_, ?_, ?_⟩
        · simp
        · simpa using small
        · simpa using encodes
      by_cases few : batch.rows.length ≤ 1
      · right
        simp only [if_neg small, dif_pos few]
        refine ⟨⟨_, rfl⟩, 0, batch.rows.length, by omega, Or.inr ⟨?_, header, bytes, ?_, Nat.lt_of_not_le small⟩⟩
        · rcases Nat.le_one_iff_eq_zero_or_eq_one.mp few with none | one
          · exact Or.inr (List.eq_nil_of_length_eq_zero none)
          · exact Or.inl one
        · rw [batch.slice_whole]
          exact encodes
      · simp only [if_neg small, dif_neg few]
        have left := ih (batch.slice 0 (batch.rows.length / 2)).rows.length
          (by rw [batch.slice_length (by omega)]; omega) _ out rfl
        rcases left with ⟨frames, runs, first⟩ | ⟨⟨reason, fails⟩, failing⟩
        · have right := ih (batch.slice (batch.rows.length / 2) (batch.rows.length - batch.rows.length / 2)).rows.length
            (by rw [batch.slice_length (by omega)]; omega) _ (out ++ frames) rfl
          rcases right with ⟨more, finishes, second⟩ | ⟨⟨reason, fails⟩, failing⟩
          · exact Or.inl ⟨frames ++ more, by simp only [runs, finishes, List.append_assoc], first.append second⟩
          · exact Or.inr ⟨⟨reason, by simp only [runs, fails]⟩, failing.of_slice (by omega) (by omega)⟩
        · exact Or.inr ⟨⟨reason, by simp only [fails]⟩, failing.of_slice (by omega) (by omega)⟩

/-- The split ends with frames that hold the rows in order and within the maximum, or fails for a slice that cannot be
    encoded or cannot be split. -/
theorem split_covers_batch (codec : Codec (RowBatch Schema Row)) (signal : SignalKind) (batch : RowBatch Schema Row)
    (maxPayloadLen : Nat) :
    (∃ frames, splitAndEncodeFramesForDisk codec signal batch maxPayloadLen = .ok frames ∧
      FramesOf codec signal maxPayloadLen batch frames) ∨
    (∃ reason, splitAndEncodeFramesForDisk codec signal batch maxPayloadLen = .error reason) ∧
      Unencodable codec signal maxPayloadLen batch :=
  splitAndEncodeRecursive_spec batch []

/-- A codec for rows of one byte: the schema, the memory and the rows. -/
def rowCodec : Codec (RowBatch UInt8 UInt8) where
  crc32 := plainCrc32
  encode batch :=
    if batch.memory < 256 then .ok (batch.schema :: UInt8.ofNat batch.memory :: batch.rows) else .error "out of memory"
  decode
    | schema :: memory :: rows => .ok ⟨schema, rows, memory.toNat⟩
    | _ => .error "unexpected end of stream"
  roundTrip := by
    rintro ⟨schema, rows, memory⟩ payload encoded
    simp only at encoded
    split at encoded
    · rename_i small
      cases encoded
      simp [Nat.mod_eq_of_lt small]
    · cases encoded

def emptyBatch : RowBatch UInt8 UInt8 := ⟨1, [], 0⟩

/-- The schema of an empty batch alone exceeds the maximum, and the batch has no single row that could. -/
theorem split_empty_fails :
    (∃ reason, splitAndEncodeFramesForDisk rowCodec .logs emptyBatch 1 = .error reason) ∧
      ¬∃ offset, offset + 1 ≤ emptyBatch.rows.length ∧ ∃ header bytes,
        encodeFrame rowCodec .logs 0 (emptyBatch.slice offset 1) = .ok (header, bytes) ∧ 1 < header.payloadLen := by
  constructor
  · refine ⟨unsplittable 2 1, ?_⟩
    rw [splitAndEncodeFramesForDisk, splitAndEncodeRecursive]
    rfl
  · rintro ⟨offset, within, -⟩
    simp [emptyBatch] at within

end OtelDatalake.Disk
