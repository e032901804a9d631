import OtelDatalake.Wasm.HostCalls
import OtelDatalake.Wasm.LossyText

open OtelDatalake.Foundation OtelDatalake.Buffer OtelDatalake.Wasm.Execution

namespace OtelDatalake.Wasm

variable {memory : List UInt8} {ptr len : UInt32} {maxLen : Nat}

/-- A region of the memory with its bytes; one that ends at the last of all addresses is out of reach of the host. -/
structure Holds (memory : List UInt8) (ptr : UInt32) (bytes : List UInt8) : Prop where
  inside : ptr.toNat + bytes.length ≤ memory.length
  addressed : ptr.toNat + bytes.length ≤ u32Limit
  bytes : slice ptr.toNat bytes.length memory = bytes

/-- A region that is not wholly in the memory, or ends behind the last of all addresses. -/
def OutOfReach (memory : List UInt8) (ptr len : UInt32) : Prop :=
  u32Limit < ptr.toNat + len.toNat ∨ memory.length < ptr.toNat + len.toNat

/-- The host reads inside of the memory and at most the bytes of the limit; what it refuses is outside. -/
theorem readGuest_cases (memory : List UInt8) (ptr len : UInt32) (maxLen : Nat) :
    (readGuest memory ptr len maxLen = .refused ∧ OutOfReach memory ptr len) ∨
    ¬OutOfReach memory ptr len ∧ ∃ bytes, readGuest memory ptr len maxLen = .done bytes ∧
      bytes.length = min len.toNat maxLen ∧
      Holds memory ptr bytes := by
  rw [readGuest]
  by_cases overflow : u32Limit < ptr.toNat + len.toNat
  · exact .inl ⟨if_pos overflow, .inl overflow⟩
  by_cases outside : memory.length < ptr.toNat + len.toNat
  · exact .inl ⟨by rw [if_neg overflow, if_pos outside], .inr outside⟩
  have least : min len.toNat maxLen ≤ len.toNat := Nat.min_le_left ..
  have length : (slice ptr.toNat (min len.toNat maxLen) memory).length = min len.toNat maxLen := by
    rw [slice, List.length_take_of_le]
    rw [List.length_drop]
    omega
  refine .inr ⟨(Or.elim · overflow outside), slice ptr.toNat (min len.toNat maxLen) memory, ?_, length, ?_⟩
  · rw [if_neg overflow, if_neg outside, indexRange, if_pos (by omega), Nat.add_sub_cancel_left]
  · exact ⟨by omega, by omega, by rw [length]⟩

theorem readGuest_holds {bytes : List UInt8} (holds : Holds memory ptr bytes) (maxLen : Nat) :
    readGuest memory ptr (UInt32.ofNat bytes.length) maxLen = .done (bytes.take maxLen) := by
  have small : (UInt32.ofNat bytes.length).toNat = bytes.length := by
    have bound := holds.addressed
    rw [UInt32.toNat_ofNat', Nat.mod_eq_of_lt]
    simp only [u32Limit] at bound
    omega
  have inside := holds.inside
  have addressed := holds.addressed
  rw [readGuest, small, if_neg (by omega), if_neg (by omega), indexRange, if_pos (by omega), Nat.add_sub_cancel_left]
  have part : slice ptr.toNat (min bytes.length maxLen) memory = bytes.take maxLen := by
    have whole := holds.bytes
    rw [slice] at whole
    rw [slice, Nat.min_comm, ← List.take_take, whole]
  rw [part]

theorem decodeText_eq (bytes : List UInt8) : decodeText bytes = lossyChars bytes.length bytes := by
  rw [decodeText]
  cases decoded : decodeUtf8 bytes with
  | none => rfl
  | some chars =>
    have whole := decodeUtf8_eq_some.mp decoded
    have own := lossyChars_take chars (utf8 chars).length _ (Nat.le_refl _)
    rw [List.take_length, capText_of_le (Nat.le_refl _), whole] at own
    exact own.symm

theorem decodeText_take (text : List Char) (limit : Nat) : decodeText ((utf8 text).take limit) = capText limit text := by
  rw [decodeText_eq]
  exact lossyChars_take text limit _ (Nat.le_refl _)

theorem length_decodeText (bytes : List UInt8) : (decodeText bytes).length ≤ bytes.length := by
  rw [decodeText_eq]
  exact length_lossyChars bytes _

/-- What the host makes of a text of the guest: nothing of what is not in its memory, and at most the limit of the rest. -/
structure ReadsText (memory : List UInt8) (ptr len : UInt32) (maxLen : Nat) (text : List Char) : Prop where
  bytes : ∃ bytes, bytes.length = min len.toNat maxLen ∧ text = decodeText bytes ∧ (len = 0 ∨ Holds memory ptr bytes)
  length : text.length ≤ maxLen

theorem readGuest_text (memory : List UInt8) (ptr len : UInt32) (maxLen : Nat) :
    ((readGuest memory ptr len maxLen).map decodeText = .refused ∧ OutOfReach memory ptr len) ∨
    ¬OutOfReach memory ptr len ∧
      ∃ text, (readGuest memory ptr len maxLen).map decodeText = .done text ∧ ReadsText memory ptr len maxLen text := by
  rcases readGuest_cases memory ptr len maxLen with ⟨refused, outside⟩ | ⟨inside, bytes, read, length, holds⟩
  · exact .inl ⟨by rw [refused]; rfl, outside⟩
  · refine .inr ⟨inside, decodeText bytes, by rw [read]; rfl, ⟨bytes, length, rfl, .inr holds⟩, ?_⟩
    have bound := length_decodeText bytes
    omega

theorem withGuestStr_text (memory : List UInt8) (ptr len : UInt32) (maxLen : Nat) :
    (withGuestStr (some memory) ptr len maxLen = .refused ∧ OutOfReach memory ptr len) ∨
    ¬OutOfReach memory ptr len ∧
      ∃ text, withGuestStr (some memory) ptr len maxLen = .done text ∧ ReadsText memory ptr len maxLen text :=
  readGuest_text memory ptr len maxLen

theorem readStrFromMem_text (memory : List UInt8) (ptr len : UInt32) (maxLen : Nat) :
    (readStrFromMem memory ptr len maxLen = .refused ∧ len ≠ 0 ∧ OutOfReach memory ptr len) ∨
    ¬(len ≠ 0 ∧ OutOfReach memory ptr len) ∧
      ∃ text, readStrFromMem memory ptr len maxLen = .done text ∧ ReadsText memory ptr len maxLen text := by
  rw [readStrFromMem]
  by_cases blank : len = 0
  · subst blank
    exact .inr ⟨fun both => both.1 rfl, [], if_pos rfl, ⟨[], by simp, rfl, .inl rfl⟩, Nat.zero_le _⟩
  · rw [if_neg blank]
    rcases readGuest_text memory ptr len maxLen with ⟨refused, outside⟩ | ⟨inside, read⟩
    · exact .inl ⟨refused, blank, outside⟩
    · exact .inr ⟨fun both => inside both.2, read⟩

theorem HostLogRecord.toBytes_length (record : HostLogRecord) : record.toBytes.length = 32 := by
  simp [HostLogRecord.toBytes]

theorem ofNat_ofLe_toLe (field : UInt32) : UInt32.ofNat (ofLe (toLe 4 field.toNat)) = field := by
  rw [ofLe_toLe field.toNat_lt, UInt32.ofNat_toNat]

theorem recordField_toBytes {record : HostLogRecord} {index : Nat} {field : UInt32}
    (found : [record.level, record.msgPtr, record.msgLen, record.targetPtr, record.targetLen, record.filePtr,
      record.fileLen, record.line][index]? = some field) : recordField record.toBytes index = field := by
  rw [recordField, HostLogRecord.toBytes, slice_flatMap (fun item => toLe_length 4 _) found, ofNat_ofLe_toLe]

theorem toLe_recordField {bytes : List UInt8} {index : Nat} (inside : 4 * index + 4 ≤ bytes.length) :
    toLe 4 (recordField bytes index).toNat = slice (4 * index) 4 bytes := by
  have length : (slice (4 * index) 4 bytes).length = 4 := by
    rw [slice, List.length_take_of_le]
    rw [List.length_drop]
    omega
  have bound := ofLe_lt (slice (4 * index) 4 bytes)
  have whole := toLe_ofLe (slice (4 * index) 4 bytes)
  rw [length] at bound whole
  rw [recordField, UInt32.toNat_ofNat', Nat.mod_eq_of_lt (Nat.lt_of_lt_of_eq bound (by decide)), whole]

theorem decodeLogRecord_cases (memory : List UInt8) (recordPtr : UInt32) :
    (decodeLogRecord memory recordPtr = .refused ∧ OutOfReach memory recordPtr 32) ∨
    ¬OutOfReach memory recordPtr 32 ∧ ∃ record, decodeLogRecord memory recordPtr = .done record ∧
      Holds memory recordPtr record.toBytes := by
  rw [decodeLogRecord]
  by_cases overflow : u32Limit < recordPtr.toNat + 32
  · exact .inl ⟨if_pos overflow, .inl overflow⟩
  by_cases outside : memory.length < recordPtr.toNat + 32
  · exact .inl ⟨by rw [if_neg overflow, if_pos outside], .inr outside⟩
  have length : (slice recordPtr.toNat 32 memory).length = 32 := by
    rw [slice, List.length_take_of_le]
    rw [List.length_drop]
    omega
  right
  rw [if_neg overflow, if_neg outside, indexRange, if_pos (by omega), Nat.add_sub_cancel_left]
  refine ⟨(Or.elim · overflow outside), _, rfl, ?_⟩
  have spelled : [0, 1, 2, 3, 4, 5, 6, 7].flatMap
      (fun index => toLe 4 (recordField (slice recordPtr.toNat 32 memory) index).toNat) =
      slice recordPtr.toNat 32 memory := by
    have pieces : ((List.range 8).flatMap fun index => slice (4 * index) 4 (slice recordPtr.toNat 32 memory)) =
        slice recordPtr.toNat 32 memory := flatMap_slice length
    rw [List.flatMap_congr fun index listed => toLe_recordField ?_]
    · exact pieces
    · simp only [List.mem_cons, List.not_mem_nil, or_false] at listed
      omega
  exact ⟨by rw [HostLogRecord.toBytes_length]; omega, by rw [HostLogRecord.toBytes_length]; omega,
    by rw [HostLogRecord.toBytes_length]; exact spelled.symm⟩

theorem decodeLogRecord_holds {recordPtr : UInt32} {record : HostLogRecord}
    (holds : Holds memory recordPtr record.toBytes) : decodeLogRecord memory recordPtr = .done record := by
  have inside := holds.inside
  have addressed := holds.addressed
  have read := holds.bytes
  rw [HostLogRecord.toBytes_length] at inside addressed read
  rw [decodeLogRecord, if_neg (by omega), if_neg (by omega), indexRange, if_pos (by omega), Nat.add_sub_cancel_left, read]
  simp only [HostRead.map]
  rw [recordField_toBytes rfl, recordField_toBytes rfl, recordField_toBytes rfl, recordField_toBytes rfl,
    recordField_toBytes rfl, recordField_toBytes rfl, recordField_toBytes rfl, recordField_toBytes rfl]

/-- A text that a guest passes by its address and its length; the address of an empty text may be anything. -/
structure Passes (memory : List UInt8) (ptr len : UInt32) (text : List Char) : Prop where
  length : len = UInt32.ofNat (utf8 text).length
  holds : text = [] ∨ Holds memory ptr (utf8 text)

theorem withGuestStr_passes {text : List Char} (holds : Holds memory ptr (utf8 text)) (maxLen : Nat) :
    withGuestStr (some memory) ptr (UInt32.ofNat (utf8 text).length) maxLen = .done (capText maxLen text) := by
  simp only [withGuestStr, readGuest_holds holds, HostRead.map, decodeText_take]

theorem readStrFromMem_passes {text : List Char} (passes : Passes memory ptr len text) (maxLen : Nat) :
    readStrFromMem memory ptr len maxLen = .done (capText maxLen text) := by
  obtain ⟨rfl, holds⟩ := passes
  by_cases blank : UInt32.ofNat (utf8 text).length = 0
  · have empty : text = [] := by
      rcases holds with empty | holds
      · exact empty
      · have bound := holds.addressed
        have none' := congrArg UInt32.toNat blank
        rw [UInt32.toNat_ofNat', Nat.mod_eq_of_lt (by simp only [u32Limit] at bound; omega)] at none'
        cases text with
        | nil => rfl
        | cons c text =>
          have positive := utf8EncodeChar_pos c
          rw [utf8_cons, List.length_append, UInt32.toNat_zero] at none'
          omega
    subst empty
    rfl
  · rw [readStrFromMem, if_neg blank]
    rcases holds with rfl | holds
    · exact absurd rfl blank
    · simp only [readGuest_holds holds, HostRead.map, decodeText_take]

def HostLogRecord.texts (record : HostLogRecord) : List (UInt32 × UInt32) :=
  [(record.msgPtr, record.msgLen), (record.targetPtr, record.targetLen), (record.filePtr, record.fileLen)]

/-- The record, or a text of it that is not empty, is out of reach. -/
def RecordOutOfReach (memory : List UInt8) (recordPtr : UInt32) : Prop :=
  OutOfReach memory recordPtr 32 ∨ ∃ record : HostLogRecord, Holds memory recordPtr record.toBytes ∧
    ∃ text ∈ record.texts, text.2 ≠ 0 ∧ OutOfReach memory text.1 text.2

theorem recordOutOfReach_iff {recordPtr : UInt32} {record : HostLogRecord} (inside : ¬OutOfReach memory recordPtr 32)
    (holds : Holds memory recordPtr record.toBytes) :
    RecordOutOfReach memory recordPtr ↔ ∃ text ∈ record.texts, text.2 ≠ 0 ∧ OutOfReach memory text.1 text.2 := by
  constructor
  · rintro (outside | ⟨other, held, found⟩)
    · exact absurd outside inside
    · have same := (decodeLogRecord_holds holds).symm.trans (decodeLogRecord_holds held)
      cases same
      exact found
  · exact fun found => .inr ⟨record, holds, found⟩

/-- A structured record is refused exactly if it is out of reach, or a text of it is. -/
theorem handleStructuredHostLog_cases (memory : List UInt8) (componentId : List Char) (recordPtr : UInt32) :
    (handleStructuredHostLog componentId (some memory) recordPtr = .refused ∧ RecordOutOfReach memory recordPtr) ∨
    ¬RecordOutOfReach memory recordPtr ∧
      ∃ (record : HostLogRecord) (message target file : List Char), Holds memory recordPtr record.toBytes ∧
        ReadsText memory record.msgPtr record.msgLen maxLogMessageLen message ∧
        ReadsText memory record.targetPtr record.targetLen maxMetricNameLen target ∧
        ReadsText memory record.filePtr record.fileLen maxMetricNameLen file ∧
        handleStructuredHostLog componentId (some memory) recordPtr =
          .done ⟨eventLevel record.level, componentId, some ⟨target, file, record.line⟩, message⟩ := by
  simp only [handleStructuredHostLog]
  rcases decodeLogRecord_cases memory recordPtr with ⟨refused, outside⟩ | ⟨inside, record, decoded, holds⟩
  · rw [refused]
    exact .inl ⟨rfl, .inl outside⟩
  rw [decoded, recordOutOfReach_iff inside holds]
  simp only [HostLogRecord.texts, List.exists_mem_cons_iff, List.not_mem_nil, false_and, exists_false, or_false]
  -- A text that is out of reach has the record refused, whatever the others are.
  rcases readStrFromMem_text memory record.msgPtr record.msgLen maxLogMessageLen with
      ⟨message, outside⟩ | ⟨first, text, message, texts⟩ <;>
    rcases readStrFromMem_text memory record.targetPtr record.targetLen maxMetricNameLen with
      ⟨target, outside'⟩ | ⟨second, module, target, modules⟩ <;>
    rcases readStrFromMem_text memory record.filePtr record.fileLen maxMetricNameLen with
      ⟨file, outside''⟩ | ⟨third, path, file, paths⟩ <;>
    simp only [message, target, file]
  case inr.inr.inr =>
    exact .inr ⟨(Or.elim · first (Or.elim · second third)), record, text, module, path, holds, texts, modules, paths, rfl⟩
  case inl.inl.inl | inl.inl.inr | inl.inr.inl | inl.inr.inr => exact .inl ⟨trivial, .inl outside⟩
  case inr.inl.inl | inr.inl.inr => exact .inl ⟨trivial, .inr (.inl outside')⟩
  case inr.inr.inl => exact .inl ⟨trivial, .inr (.inr outside'')⟩

/-- Whatever a guest passes, no host function indexes its memory out of range: it refuses exactly what is out of reach, and
    hands on no more than its limits of the rest. -/
theorem hostCalls_contained (memory : List UInt8) (componentId : List Char) :
    (∀ recordPtr, (handleStructuredHostLog componentId (some memory) recordPtr = .refused ↔
        RecordOutOfReach memory recordPtr) ∧
      (¬RecordOutOfReach memory recordPtr →
        ∃ (record : HostLogRecord) (message target file : List Char), Holds memory recordPtr record.toBytes ∧
          ReadsText memory record.msgPtr record.msgLen 65536 message ∧
          ReadsText memory record.targetPtr record.targetLen 256 target ∧
          ReadsText memory record.filePtr record.fileLen 256 file ∧
          handleStructuredHostLog componentId (some memory) recordPtr =
            .done ⟨eventLevel record.level, componentId, some ⟨target, file, record.line⟩, message⟩)) ∧
    (∀ level ptr len, (handleLegacyHostLog componentId (some memory) level ptr len = .refused ↔
        OutOfReach memory ptr len) ∧
      (¬OutOfReach memory ptr len → ∃ message, ReadsText memory ptr len 65536 message ∧
        handleLegacyHostLog componentId (some memory) level ptr len =
          .done ⟨eventLevel level, componentId, none, message⟩)) ∧
    (∀ metricType ptr len value, (handleHostMetricEmit (some memory) metricType ptr len value = .refused ↔
        OutOfReach memory ptr len) ∧
      (¬OutOfReach memory ptr len → ∃ name, ReadsText memory ptr len 256 name ∧
        handleHostMetricEmit (some memory) metricType ptr len value =
          .done (if name.isEmpty then none else metricCall metricType name value))) := by
  refine ⟨fun recordPtr => ?_, fun level ptr len => ?_, fun metricType ptr len value => ?_⟩
  · rcases handleStructuredHostLog_cases memory componentId recordPtr with ⟨refused, outside⟩ | ⟨inside, done⟩
    · exact ⟨iff_of_true refused outside, (absurd outside ·)⟩
    · refine ⟨iff_of_false (fun refused => ?_) inside, fun _ => done⟩
      obtain ⟨record, message, target, file, _, _, _, _, made⟩ := done
      rw [made] at refused
      cases refused
  · rcases withGuestStr_text memory ptr len maxLogMessageLen with ⟨refused, outside⟩ | ⟨inside, message, read, reads⟩
    · exact ⟨iff_of_true (by rw [handleLegacyHostLog, refused]; rfl) outside, (absurd outside ·)⟩
    · have made : handleLegacyHostLog componentId (some memory) level ptr len =
          .done ⟨eventLevel level, componentId, none, message⟩ := by
        rw [handleLegacyHostLog, read]
        rfl
      exact ⟨iff_of_false (by simp [made]) inside, fun _ => ⟨message, reads, made⟩⟩
  · rcases withGuestStr_text memory ptr len maxMetricNameLen with ⟨refused, outside⟩ | ⟨inside, name, read, reads⟩
    · exact ⟨iff_of_true (by rw [handleHostMetricEmit, refused]; rfl) outside, (absurd outside ·)⟩
    · have made : handleHostMetricEmit (some memory) metricType ptr len value =
          .done (if name.isEmpty then none else metricCall metricType name value) := by
        rw [handleHostMetricEmit, read]
        rfl
      exact ⟨iff_of_false (by simp [made]) inside, fun _ => ⟨name, reads, made⟩⟩

/-- A record that a guest lays out in its memory is the event of the host, with its texts cut at the limits; so is that of
    the panic hook. -/
theorem hostLog_roundTrip (memory : List UInt8) (componentId message target file : List Char) (recordPtr : UInt32)
    (record : HostLogRecord) (holds : Holds memory recordPtr record.toBytes)
    (passesMessage : Passes memory record.msgPtr record.msgLen message)
    (passesTarget : Passes memory record.targetPtr record.targetLen target)
    (passesFile : Passes memory record.filePtr record.fileLen file) :
    handleStructuredHostLog componentId (some memory) recordPtr =
      .done ⟨eventLevel record.level, componentId,
        some ⟨capText maxMetricNameLen target, capText maxMetricNameLen file, record.line⟩,
        capText maxLogMessageLen message⟩ := by
  simp only [handleStructuredHostLog, decodeLogRecord_holds holds, readStrFromMem_passes passesMessage,
    readStrFromMem_passes passesTarget, readStrFromMem_passes passesFile]

def metricChar (c : Char) : Bool := c.isAlphanum || c == '_'

theorem metricChar_low {c : Char} (valid : metricChar c = true) : c.toNat < 128 := by
  delta metricChar Char.isAlphanum Char.isAlpha Char.isUpper Char.isLower Char.isDigit at valid
  simp only [Bool.or_eq_true, Bool.and_eq_true, decide_eq_true_eq, beq_iff_eq, UInt32.le_iff_toNat_le] at valid
  rcases valid with ((⟨_, upper⟩ | ⟨_, lower⟩) | ⟨_, digit⟩) | rfl
  · exact Nat.lt_of_le_of_lt upper (by decide)
  · exact Nat.lt_of_le_of_lt lower (by decide)
  · exact Nat.lt_of_le_of_lt digit (by decide)
  · decide

theorem utf8EncodeChar_metricChar {c : Char} (valid : metricChar c = true) : (String.utf8EncodeChar c).length = 1 := by
  rw [utf8EncodeChar_low (metricChar_low valid)]
  rfl

theorem capText_metric {name : List Char} {limit : Nat} (valid : (name.take limit).all metricChar = true) :
    capText limit name = name.take limit := by
  induction name generalizing limit with
  | nil => rw [List.take_nil, capText]
  | cons c name ih =>
    cases limit with
    | zero =>
      have positive := utf8EncodeChar_pos c
      rw [capText, if_neg (by omega), if_pos rfl, List.take_zero]
    | succ limit =>
      rw [List.take_succ_cons, List.all_cons, Bool.and_eq_true] at valid
      obtain ⟨own, rest⟩ := valid
      rw [capText, utf8EncodeChar_metricChar own, if_pos (by omega), List.take_succ_cons, Nat.add_sub_cancel, ih rest]

/-- A name that is cut is valid exactly when what is left of it is: a character that is cut off is none of a name. -/
theorem capText_all (name : List Char) (limit : Nat) :
    (capText limit name).all metricChar = (name.take limit).all metricChar := by
  induction name generalizing limit with
  | nil => rw [List.take_nil, capText]
  | cons c name ih =>
    have positive := utf8EncodeChar_pos c
    cases limit with
    | zero => rw [capText, if_neg (by omega), if_pos rfl, List.take_zero]
    | succ limit =>
      rw [List.take_succ_cons, List.all_cons]
      cases valid : metricChar c with
      | true =>
        rw [capText, utf8EncodeChar_metricChar valid, if_pos (by omega), List.all_cons, valid, Nat.add_sub_cancel, ih]
      | false =>
        by_cases fits : (String.utf8EncodeChar c).length ≤ limit + 1
        · rw [capText, if_pos fits, List.all_cons, valid, Bool.false_and, Bool.false_and]
        · rw [capText, if_neg fits, if_neg (Nat.succ_ne_zero _), Bool.false_and]
          decide

theorem capText_isEmpty {name : List Char} {limit : Nat} (named : name ≠ []) (positive : 0 < limit) :
    (capText limit name).isEmpty = false := by
  obtain ⟨c, rest, rfl⟩ := List.exists_cons_of_ne_nil named
  rw [capText]
  split
  · rfl
  · rw [if_neg (Nat.ne_of_gt positive)]
    rfl

theorem utf8_metric_length {name : List Char} (valid : name.all metricChar = true) : (utf8 name).length = name.length := by
  induction name with
  | nil => rfl
  | cons c name ih =>
    rw [List.all_cons, Bool.and_eq_true] at valid
    rw [utf8_cons, List.length_append, utf8EncodeChar_metricChar valid.1, ih valid.2, List.length_cons, Nat.add_comm]

/-- The check of the registry that bounds the length of a name refuses none of a guest's, since they are cut before. -/
theorem isValidMetricName_capText {name : List Char} (named : name ≠ []) :
    isValidMetricName (capText maxMetricNameLen name) = (name.take maxMetricNameLen).all metricChar := by
  cases valid : (name.take maxMetricNameLen).all metricChar with
  | true =>
    have chars : (name.take maxMetricNameLen).all (fun c => c.isAlphanum || c == '_') = true := valid
    have short : (utf8 (name.take maxMetricNameLen)).length ≤ maxMetricNameLen := by
      rw [utf8_metric_length valid, List.length_take]
      exact Nat.min_le_left ..
    have kept : (capText maxMetricNameLen name).isEmpty = false := capText_isEmpty named (by decide)
    rw [capText_metric valid] at kept ⊢
    rw [isValidMetricName, kept, chars, decide_eq_true short]
    rfl
  | false =>
    have invalid := capText_all name maxMetricNameLen
    rw [valid] at invalid
    have chars : (capText maxMetricNameLen name).all (fun c => c.isAlphanum || c == '_') = false := invalid
    rw [isValidMetricName, chars, Bool.and_false]

def GuestMetric.recordCall (name : List Char) : GuestMetric → RecordCall
  | .counter value => .recordCounter name value
  | .gauge bits => .recordGauge name bits
  | .duration nanos => .recordDuration name (durationToNanos nanos)

/-- A metric that a guest emits through the SDK is the call of the registry, under the first 256 bytes of its name: a longer
    name is not refused but joins the metric of those. -/
theorem metricEmit_roundTrip (memory : List UInt8) (metric : GuestMetric) (name : List Char) (namePtr : UInt32)
    (holds : Holds memory namePtr (utf8 name)) (named : name ≠ []) :
    handleHostMetricEmit (some memory) metric.metricType namePtr (UInt32.ofNat (utf8 name).length) metric.value =
      .done (some (metric.recordCall (capText maxMetricNameLen name))) ∧
    (isValidMetricName (capText maxMetricNameLen name) = true ↔ (name.take maxMetricNameLen).all metricChar = true) ∧
    ((name.take maxMetricNameLen).all metricChar = true →
      capText maxMetricNameLen name = name.take maxMetricNameLen) := by
  refine ⟨?_, by rw [isValidMetricName_capText named], capText_metric⟩
  have kept : (capText maxMetricNameLen name).isEmpty = false := capText_isEmpty named (by decide)
  rw [handleHostMetricEmit, withGuestStr_passes holds]
  simp only [HostRead.map, kept, Bool.false_eq_true, if_false]
  cases metric <;> rfl

def panicMemory : List UInt8 :=
  (panicRecord "index out of bounds é".toList (some ("src/lib.rs".toList, 42)) 32 54 71).toBytes ++
    utf8 ("index out of bounds é".toList ++ panicTarget ++ "src/lib.rs".toList)

theorem hostLog_roundTrip_panic :
    handleStructuredHostLog "enricher".toList (some panicMemory) 0 =
      .done ⟨.error, "enricher".toList, some ⟨panicTarget, "src/lib.rs".toList, 42⟩, "index out of bounds é".toList⟩ :=
  hostLog_roundTrip panicMemory "enricher".toList "index out of bounds é".toList panicTarget "src/lib.rs".toList 0
    (panicRecord "index out of bounds é".toList (some ("src/lib.rs".toList, 42)) 32 54 71)
    ⟨by decide, by decide, by decide⟩ ⟨rfl, .inr ⟨by decide, by decide, by decide⟩⟩
    ⟨rfl, .inr ⟨by decide, by decide, by decide⟩⟩ ⟨rfl, .inr ⟨by decide, by decide, by decide⟩⟩

theorem holds_whole {bytes : List UInt8} (addressed : bytes.length ≤ u32Limit) : Holds bytes 0 bytes where
  inside := Nat.le_of_eq (Nat.zero_add _)
  addressed := (Nat.zero_add _).trans_le addressed
  bytes := List.take_length

/-- A valid name that is longer than the host reads. -/
def longName : List Char := List.replicate 300 'a'

theorem longName_valid : longName.all metricChar = true := List.all_replicate.trans rfl

theorem longName_length : (utf8 longName).length = 300 := (utf8_metric_length longName_valid).trans List.length_replicate

theorem longName_take : (longName.take maxMetricNameLen).all metricChar = true :=
  List.all_eq_true.mpr fun c member => List.all_eq_true.mp longName_valid c (List.mem_of_mem_take member)

theorem metricEmit_roundTrip_duration :
    handleHostMetricEmit (some (utf8 longName)) 2 0 300 1500 =
      .done (some (.recordDuration (List.replicate 256 'a') 1500)) := by
  have holds : Holds (utf8 longName) 0 (utf8 longName) := holds_whole (by rw [longName_length]; decide)
  have named : longName ≠ [] := by
    intro empty
    have length := longName_length
    rw [empty] at length
    cases length
  obtain ⟨emitted, -, cut⟩ := metricEmit_roundTrip (utf8 longName) (.duration 1500) longName 0 holds named
  rw [longName_length, cut longName_take, longName, List.take_replicate] at emitted
  exact emitted

end OtelDatalake.Wasm
