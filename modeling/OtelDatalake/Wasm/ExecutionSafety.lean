import Mathlib.Algebra.BigOperators.Group.List.Basic
import OtelDatalake.Foundation.Outcome
import OtelDatalake.Wasm.Execution
import OtelDatalake.Wasm.GuardSoundness

open OtelDatalake.Foundation OtelDatalake.Foundation.Fallible

namespace OtelDatalake.Wasm.Execution

variable {Guest Value Error : Type} {guestModule : GuestModule Guest} {ipc : IpcLibrary Value}
  {arrow : ArrowLibrary Value} {setting : WorkerSetting}

def descriptorAt (memory : List UInt8) (batchesPtr i : Nat) : Nat × Nat :=
  (ofLe (slice (batchesPtr + i * 8) 4 memory), ofLe (slice (batchesPtr + i * 8 + 4) 4 memory))

structure Decoding (guestModule : GuestModule Guest) (guest : Guest) (allocs : List (Nat × Nat))
    (session : Session Guest) : Prop where
  same : session.guest = guest
  allocs : session.allocsToFree = allocs
  deallocs : session.deallocs = []
  reads : ∀ read ∈ session.reads, read.offset + read.length ≤ (guestModule.memory guest).length

section Steps

variable {guest : Guest} {allocs : List (Nat × Nat)} {broken : Session Guest → Prop}

theorem readMemory_triple (offset length : Nat) :
    Triple (Decoding guestModule guest allocs)
      (readMemory guestModule offset length : Fallible (Session Guest) Error (Option (List UInt8)))
      (fun found session => Decoding guestModule guest allocs session ∧ ∀ bytes ∈ found,
        offset + length ≤ (guestModule.memory guest).length ∧ bytes = slice offset length (guestModule.memory guest))
      broken := by
  intro session decoding
  by_cases inside : offset + length ≤ (guestModule.memory guest).length
  · simp only [readMemory, decoding.same, if_pos inside]
    refine ⟨⟨rfl, decoding.allocs, decoding.deallocs, fun read member => ?_⟩, fun bytes found => ?_⟩
    · obtain earlier | own := List.mem_append.mp member
      · exact decoding.reads read earlier
      · rw [List.mem_singleton] at own
        rw [own]
        exact inside
    · cases found
      exact ⟨inside, rfl⟩
  · simp only [readMemory, decoding.same, if_neg inside]
    exact ⟨decoding, fun bytes found => by cases found⟩

theorem dataSize_triple :
    Triple (Decoding guestModule guest allocs) (dataSize guestModule : Fallible (Session Guest) Error Nat)
      (fun memSize session => Decoding guestModule guest allocs session ∧
        memSize = (guestModule.memory guest).length) broken := by
  intro session decoding
  exact ⟨decoding, by rw [decoding.same]⟩

def pushed (memSize : Nat) (region : Nat × Nat) : List (Nat × Nat) :=
  if isInBoundsAlloc region.1 region.2 memSize then [region] else []

theorem pushInBoundsAlloc_triple (ptr len memSize : Nat) :
    Triple (Decoding guestModule guest allocs) (pushInBoundsAlloc ptr len memSize : Fallible (Session Guest) Error Unit)
      (fun _ => Decoding guestModule guest (allocs ++ pushed memSize (ptr, len))) broken := by
  intro session decoding
  by_cases inside : isInBoundsAlloc ptr len memSize = true
  · simp only [pushInBoundsAlloc, pushed, if_pos inside]
    exact ⟨decoding.same, by rw [decoding.allocs], decoding.deallocs, decoding.reads⟩
  · simp only [pushInBoundsAlloc, pushed, if_neg inside, List.append_nil]
    exact decoding

end Steps

section Extract

variable {guest : Guest} {allocs : List (Nat × Nat)}

def maxDeclaredBytes : Nat := 64 * 1024 * 1024

def outputPushed (memSize ipcPtr : Nat) (descriptor : Nat × Nat) : List (Nat × Nat) :=
  if descriptor.1 ≠ ipcPtr then pushed memSize descriptor else []

theorem decodeStream_length {input : SignalBatch Value} {stream : List (Except String (RecordBatch Value))}
    {before after : List (SignalBatch Value)} (few : before.length ≤ maxGuestBatchCount)
    (decoded : decodeStream input stream before = .ok after) : after.length ≤ maxGuestBatchCount := by
  induction stream generalizing before with
  | nil =>
    cases decoded
    exact few
  | cons maybeBatch rest ih =>
    unfold decodeStream at decoded
    split at decoded
    · cases decoded
    · rename_i room
      cases maybeBatch with
      | error message => cases decoded
      | ok batch =>
        refine ih ?_ decoded
        rw [List.length_append, List.length_singleton]
        omega

def Reached (guestModule : GuestModule Guest) (guest : Guest) (session : Session Guest) : Prop :=
  ∃ allocs, Decoding guestModule guest allocs session

theorem Decoding.reached {session : Session Guest} (decoding : Decoding guestModule guest allocs session) :
    Reached guestModule guest session := ⟨allocs, decoding⟩

theorem pushOutput_triple (ipcPtr memSize outputPtr outputLen : Nat) :
    Triple (Decoding guestModule guest allocs) (pushOutput ipcPtr memSize outputPtr outputLen)
      (fun _ => Decoding guestModule guest (allocs ++ outputPushed memSize ipcPtr (outputPtr, outputLen)))
      (Reached guestModule guest) := by
  refine .ite (fun other => ?_) fun same => ?_
  · rw [outputPushed, if_pos other]
    exact pushInBoundsAlloc_triple outputPtr outputLen memSize
  · rw [outputPushed, if_neg same, List.append_nil]
    exact .pure fun _ decoding => decoding

theorem decodeOutput_triple {memSize outputPtr outputLen : Nat} {input : SignalBatch Value}
    {outBatches : List (SignalBatch Value)} (few : outBatches.length ≤ maxGuestBatchCount) :
    Triple (Decoding guestModule guest allocs)
      (decodeOutput guestModule ipc memSize input outputPtr outputLen outBatches)
      (fun result session => Decoding guestModule guest allocs session ∧ result.length ≤ maxGuestBatchCount)
      (Reached guestModule guest) := by
  refine .bind _ (readMemory_triple outputPtr outputLen) fun found => ?_
  cases found with
  | none => exact .fail fun _ held => held.1.reached
  | some bytes =>
    dsimp only
    cases ipc.readStream bytes with
    | error message => exact .fail fun _ held => held.1.reached
    | ok stream =>
      exact .ofExcept (fun _ _ done held => ⟨held.1, decodeStream_length few done⟩) fun _ held => held.1.reached

theorem extractOutput_triple {memSize ipcPtr outputPtr outputLen totalBytes : Nat} {input : SignalBatch Value}
    {outBatches : List (SignalBatch Value)} (few : outBatches.length ≤ maxGuestBatchCount) :
    Triple (Decoding guestModule guest allocs)
      (extractOutput guestModule ipc memSize ipcPtr input outputPtr outputLen totalBytes outBatches)
      (fun result session =>
        Decoding guestModule guest (allocs ++ outputPushed memSize ipcPtr (outputPtr, outputLen)) session ∧
        result.1 = totalBytes + outputLen ∧ result.1 ≤ maxDeclaredBytes ∧ result.2.length ≤ maxGuestBatchCount)
      (Reached guestModule guest) := by
  refine .ite (fun _ => .fail fun _ decoding => decoding.reached) fun _ => ?_
  refine .ite (fun _ => .fail fun _ decoding => decoding.reached) fun within => ?_
  refine .ite (fun _ => .fail fun _ decoding => decoding.reached) fun _ => ?_
  have total : saturatingAdd usizeMax totalBytes outputLen = totalBytes + outputLen := by
    simp only [saturatingAdd, usizeMax] at within ⊢
    omega
  have limited : totalBytes + outputLen ≤ maxDeclaredBytes := by
    rw [total] at within
    exact Nat.le_of_not_lt within
  rw [total]
  refine .bind _ (pushOutput_triple ipcPtr memSize outputPtr outputLen) fun _ => ?_
  refine .bind _ (decodeOutput_triple few) fun decoded => ?_
  exact .pure fun _ held => ⟨held.1, rfl, limited, held.2⟩

theorem extractBatch_triple {batchesPtr memSize ipcPtr i totalBytes : Nat} {input : SignalBatch Value}
    {outBatches : List (SignalBatch Value)} (few : outBatches.length ≤ maxGuestBatchCount) :
    Triple (Decoding guestModule guest allocs)
      (extractBatch guestModule ipc batchesPtr memSize ipcPtr input i totalBytes outBatches)
      (fun result session =>
        Decoding guestModule guest
          (allocs ++ outputPushed memSize ipcPtr (descriptorAt (guestModule.memory guest) batchesPtr i)) session ∧
        result.1 = totalBytes + (descriptorAt (guestModule.memory guest) batchesPtr i).2 ∧
        result.1 ≤ maxDeclaredBytes ∧ result.2.length ≤ maxGuestBatchCount)
      (Reached guestModule guest) := by
  unfold extractBatch
  cases placed : checkedAdd batchesPtr (i * 8) with
  | none => exact .fail fun _ decoding => decoding.reached
  | some offset =>
    have position : batchesPtr + i * 8 = offset := by
      unfold checkedAdd at placed
      split at placed
      · exact Option.some.inj placed
      · cases placed
    refine .bind _ (readMemory_triple offset 8) fun found => ?_
    cases found with
    | none => exact .fail fun _ held => held.1.reached
    | some descBytes =>
      refine .given (fun _ held => (held.2 descBytes rfl).2) fun bytes => ?_
      have own : (ofLe (slice 0 4 descBytes), ofLe (slice 4 4 descBytes)) =
          descriptorAt (guestModule.memory guest) batchesPtr i := by
        rw [bytes, slice_slice (by omega), slice_slice (by omega), descriptorAt, position]
        rfl
      rw [← own]
      exact (extractOutput_triple few).strengthen fun _ held => held.1

theorem extractFrom_triple {batchesPtr memSize ipcPtr : Nat} {input : SignalBatch Value} (count : Nat)
    {i totalBytes : Nat} {outBatches : List (SignalBatch Value)} (few : outBatches.length ≤ maxGuestBatchCount)
    (bounded : totalBytes ≤ maxDeclaredBytes) :
    Triple (Decoding guestModule guest allocs)
      (extractFrom guestModule ipc batchesPtr memSize ipcPtr input count i totalBytes outBatches)
      (fun result session =>
        Decoding guestModule guest (allocs ++ ((List.range' i count).map
          (descriptorAt (guestModule.memory guest) batchesPtr)).flatMap (outputPushed memSize ipcPtr)) session ∧
        totalBytes + (((List.range' i count).map
          (descriptorAt (guestModule.memory guest) batchesPtr)).map Prod.snd).sum ≤ maxDeclaredBytes ∧
        result.length ≤ maxGuestBatchCount)
      (Reached guestModule guest) := by
  induction count generalizing i totalBytes outBatches allocs with
  | zero => exact .pure fun _ decoding => ⟨by simpa using decoding, by simpa using bounded, few⟩
  | succ count ih =>
    refine .bind _ (extractBatch_triple few) fun result => ?_
    obtain ⟨total, decoded⟩ := result
    refine .given (fun _ held => held.2) fun ⟨own, within, small⟩ => ?_
    refine ((ih small within).strengthen fun _ held => held.1).weaken (fun _ held => held) ?_ fun _ stopped => stopped
    rintro result session ⟨decoding, sum, short⟩
    have own' : total = totalBytes + (descriptorAt (guestModule.memory guest) batchesPtr i).2 := own
    rw [List.range'_succ, List.map_cons, List.flatMap_cons, ← List.append_assoc, List.map_cons, List.sum_cons]
    exact ⟨decoding, by omega, short⟩

def descriptors (memory : List UInt8) (batchesPtr batchCount : Nat) : List (Nat × Nat) :=
  (List.range batchCount).map (descriptorAt memory batchesPtr)

theorem extractOutputBatches_triple {batchesPtr batchCount ipcPtr : Nat} {input : SignalBatch Value} :
    Triple (Decoding guestModule guest allocs)
      (extractOutputBatches guestModule ipc batchesPtr batchCount input ipcPtr)
      (fun result session =>
        Decoding guestModule guest (allocs ++ (descriptors (guestModule.memory guest) batchesPtr batchCount).flatMap
          (outputPushed (guestModule.memory guest).length ipcPtr)) session ∧
        ((descriptors (guestModule.memory guest) batchesPtr batchCount).map Prod.snd).sum ≤ maxDeclaredBytes ∧
        result.length ≤ maxGuestBatchCount ∧ batchCount ≤ maxGuestBatchCount)
      (Reached guestModule guest) := by
  refine .ite (fun _ => .fail fun _ decoding => decoding.reached) fun small => ?_
  refine .bind _ dataSize_triple fun memSize => ?_
  refine .given (fun _ held => held.2) fun size => ?_
  subst size
  refine .ite (fun _ => .fail fun _ held => held.1.reached) fun _ => ?_
  refine ((extractFrom_triple batchCount (Nat.zero_le _) (Nat.zero_le _)).strengthen fun _ held => held.1).weaken
    (fun _ held => held) ?_ fun _ stopped => stopped
  rintro result session ⟨decoding, sum, few⟩
  rw [← List.range_eq_range'] at decoding sum
  rw [Nat.zero_add] at sum
  exact ⟨decoding, sum, few, Nat.le_of_not_lt small⟩

end Extract

/-- The input buffer, the response header and the memory of the guest behind its answer. -/
structure Exchange where
  input : Nat × Nat
  header : Nat × Nat
  memory : List UInt8

namespace Exchange

def parsed (exchange : Exchange) : ParsedHeader := parseHeader (slice exchange.header.1 20 exchange.memory)

def outputs (exchange : Exchange) : List (Nat × Nat) :=
  descriptors exchange.memory exchange.parsed.batchesPtr exchange.parsed.batchCount

/-- The input buffer, the header, the message, the table and the output buffers that do not start at the input buffer. -/
def parts (exchange : Exchange) : List (Nat × Nat) :=
  [exchange.input, exchange.header, (exchange.parsed.messagePtr, exchange.parsed.messageLen),
    (exchange.parsed.batchesPtr, exchange.parsed.batchCount * 8)] ++
    exchange.outputs.filter fun output => output.1 ≠ exchange.input.1

def regions (exchange : Exchange) : List (Nat × Nat) := exchange.parts.filter fun region => 0 < region.2

/-- A block that `datalake_alloc` can have returned: not at the null pointer, and inside of the memory. -/
def IsAllocation (exchange : Exchange) (region : Nat × Nat) : Prop :=
  region.1 ≠ 0 ∧ region.1 + region.2 ≤ exchange.memory.length

end Exchange

/-- What is known of a response that is accepted: the limits of its batches, and the regions that are freed. -/
structure Accepted (exchange : Exchange) (batches : List (SignalBatch Value)) (deallocs : List (Nat × Nat)) :
    Prop where
  few : batches.length ≤ maxGuestBatchCount
  counted : exchange.parsed.batchCount ≤ maxGuestBatchCount
  declared : (exchange.outputs.map Prod.snd).sum ≤ maxDeclaredBytes
  freed : deallocs = exchange.parts.filter fun region => isInBoundsAlloc region.1 region.2 exchange.memory.length

section Finish

variable {guest : Guest} {allocs : List (Nat × Nat)} {batch : SignalBatch Value}

theorem guardOutputs_length {outBatches guarded : List (SignalBatch Value)}
    (done : guardOutputs arrow setting batch outBatches = .ok guarded) : guarded.length = outBatches.length :=
  (mapM_ok done).length_eq.symm

theorem dispatchOutcome_triple {header : ParsedHeader} {message : String} {ipcPtr : Nat} :
    Triple (Decoding guestModule guest allocs)
      (dispatchOutcome guestModule ipc arrow setting header message batch ipcPtr)
      (fun outcome session => Reached guestModule guest session ∧ ∀ batches, outcome = .emitted batches →
        Decoding guestModule guest (allocs ++
          (descriptors (guestModule.memory guest) header.batchesPtr header.batchCount).flatMap
            (outputPushed (guestModule.memory guest).length ipcPtr)) session ∧
        ((descriptors (guestModule.memory guest) header.batchesPtr header.batchCount).map Prod.snd).sum ≤
          maxDeclaredBytes ∧
        batches.length ≤ maxGuestBatchCount ∧ header.batchCount ≤ maxGuestBatchCount)
      (Reached guestModule guest) := by
  unfold dispatchOutcome
  split
  · refine .ite (fun none => .pure fun session decoding => ⟨decoding.reached, fun batches same => ?_⟩) fun _ => ?_
    · cases same
      simpa [none, descriptors] using decoding
    refine .ite (fun _ => .fail fun _ decoding => decoding.reached) fun _ => ?_
    refine .bind _ extractOutputBatches_triple.mapError fun outBatches => ?_
    refine .bind (fun guarded session => guarded.length = outBatches.length ∧ _)
      (Triple.mapError (.ofExcept (fun guarded session done held => ⟨guardOutputs_length done, held⟩)
        fun _ held => held.1.reached)) fun guarded => ?_
    refine .pure fun session held => ⟨held.2.1.reached, fun batches same => ?_⟩
    cases same
    exact ⟨held.2.1, held.2.2.1, by rw [held.1]; exact held.2.2.2.1, held.2.2.2.2⟩
  · exact .pure fun _ decoding => ⟨decoding.reached, fun _ same => by cases same⟩
  · exact .pure fun _ decoding => ⟨decoding.reached, fun _ same => by cases same⟩
  · exact .pure fun _ decoding => ⟨decoding.reached, fun _ same => by cases same⟩

def Done (reads : List MemoryRead) (deallocs : List (Nat × Nat)) (session : Session Guest) : Prop :=
  session.reads = reads ∧ session.deallocs = deallocs

theorem freeAll_triple {Error : Type} {broken : Session Guest → Prop} (regions : List (Nat × Nat))
    (deallocErr : Option Trap) {reads : List MemoryRead} {deallocs : List (Nat × Nat)} :
    Triple (Done reads deallocs)
      (freeAll guestModule regions deallocErr : Fallible (Session Guest) Error (Option Trap))
      (fun _ => Done reads (deallocs ++ regions)) broken := by
  induction regions generalizing deallocErr deallocs with
  | nil => exact .pure fun _ done => by rwa [List.append_nil]
  | cons region rest ih =>
    have called : Triple (Done reads deallocs)
        (callDealloc guestModule region : Fallible (Session Guest) Error (Except Trap Unit))
        (fun _ => Done reads (deallocs ++ [region])) broken := by
      intro session done
      exact ⟨done.1, by show session.deallocs ++ [region] = _; rw [done.2]⟩
    have behind : deallocs ++ [region] ++ rest = deallocs ++ region :: rest := by simp
    refine .bind _ called fun result => ?_
    cases result with
    | ok _ => exact behind ▸ ih deallocErr
    | error trap => exact behind ▸ ih (deallocErr.or (some trap))

theorem readResponseHeader_triple (headerPtr : Nat) :
    Triple (Decoding guestModule guest allocs) (readResponseHeader guestModule headerPtr)
      (fun parsed session => Decoding guestModule guest allocs session ∧
        parsed = parseHeader (slice headerPtr 20 (guestModule.memory guest)))
      (Reached guestModule guest) := by
  refine .bind _ (readMemory_triple headerPtr 20) fun found => ?_
  cases found with
  | none => exact .fail fun _ held => held.1.reached
  | some bytes => exact .pure fun _ held => ⟨held.1, congrArg parseHeader (held.2 bytes rfl).2⟩

theorem readGuestMessage_triple {Error : Type} {broken : Session Guest → Prop} (messagePtr messageLen : Nat) :
    Triple (Decoding guestModule guest allocs)
      (readGuestMessage guestModule messagePtr messageLen : Fallible (Session Guest) Error String)
      (fun _ => Decoding guestModule guest allocs) broken := by
  refine .ite (fun _ => .pure fun _ decoding => decoding) fun _ => ?_
  refine .bind _ (readMemory_triple messagePtr (min messageLen maxGuestMessageLen)) fun found => ?_
  cases found with
  | none => exact .pure fun _ held => held.1
  | some bytes => exact .pure fun _ held => held.1

theorem flatMap_pushed (memSize : Nat) (regions : List (Nat × Nat)) :
    regions.flatMap (pushed memSize) = regions.filter fun region => isInBoundsAlloc region.1 region.2 memSize := by
  induction regions with
  | nil => rfl
  | cons region rest ih =>
    rw [List.flatMap_cons, ih, List.filter_cons, pushed]
    split <;> rfl

theorem flatMap_outputPushed (memSize ipcPtr : Nat) (outputs : List (Nat × Nat)) :
    outputs.flatMap (outputPushed memSize ipcPtr) =
      (outputs.filter fun output => output.1 ≠ ipcPtr).flatMap (pushed memSize) := by
  induction outputs with
  | nil => rfl
  | cons output rest ih =>
    rw [List.flatMap_cons, ih, List.filter_cons, outputPushed]
    by_cases other : output.1 ≠ ipcPtr
    · rw [if_pos other, if_pos (by simpa using other), List.flatMap_cons]
    · rw [if_neg other, if_neg (by simpa using other), List.nil_append]

theorem pushed_parts (exchange : Exchange) (counted : exchange.parsed.batchCount ≤ maxGuestBatchCount) :
    [] ++ pushed exchange.memory.length exchange.input ++ pushed exchange.memory.length exchange.header ++
        pushed exchange.memory.length (exchange.parsed.messagePtr, exchange.parsed.messageLen) ++
        pushed exchange.memory.length
          (exchange.parsed.batchesPtr, min (exchange.parsed.batchCount * 8) u32Limit) ++
        exchange.outputs.flatMap (outputPushed exchange.memory.length exchange.input.1) =
      exchange.parts.filter fun region => isInBoundsAlloc region.1 region.2 exchange.memory.length := by
  have unsaturated : min (exchange.parsed.batchCount * 8) u32Limit = exchange.parsed.batchCount * 8 := by
    simp only [maxGuestBatchCount] at counted
    simp only [u32Limit]
    omega
  rw [unsaturated, flatMap_outputPushed, Exchange.parts, ← flatMap_pushed]
  simp

/-- Every read lies in the memory of the guest. -/
def ReadsInside (memory : List UInt8) (session : Session Guest) : Prop :=
  ∀ read ∈ session.reads, read.offset + read.length ≤ memory.length

theorem Reached.inside {session : Session Guest} (reached : Reached guestModule guest session) :
    ReadsInside (guestModule.memory guest) session := by
  obtain ⟨_, decoding⟩ := reached
  exact decoding.reads

theorem finish_triple (guest : Guest) {input header : Nat × Nat} :
    Triple (Decoding guestModule guest []) (finish guestModule ipc arrow setting batch input header)
      (fun outcome session => ReadsInside (guestModule.memory guest) session ∧ ∀ batches, outcome = .emitted batches →
        Accepted ⟨input, header, guestModule.memory guest⟩ batches session.deallocs)
      (ReadsInside (guestModule.memory guest)) := by
  refine .bind _ ((readResponseHeader_triple header.1).mapError.weaken (fun _ held => held) (fun _ _ held => held)
    fun _ reached => reached.inside) fun parsed => ?_
  refine .given (fun _ held => held.2) fun same => ?_
  refine .bind _ ((readGuestMessage_triple parsed.messagePtr parsed.messageLen).strengthen fun _ held => held.1)
    fun message => ?_
  refine .bind _ dataSize_triple fun memSize => ?_
  refine .given (fun _ held => held.2) fun size => ?_
  subst size
  refine .bind _ ((pushInBoundsAlloc_triple input.1 input.2 _).strengthen fun _ held => held.1) fun _ => ?_
  refine .bind _ (pushInBoundsAlloc_triple header.1 header.2 _) fun _ => ?_
  refine .bind _ (pushInBoundsAlloc_triple parsed.messagePtr parsed.messageLen _) fun _ => ?_
  refine .bind _ (pushInBoundsAlloc_triple parsed.batchesPtr (min (parsed.batchCount * 8) u32Limit) _) fun _ => ?_
  refine .bind (fun outcome session => Reached guestModule guest session ∧ ∀ batches, outcome = .ok (.emitted batches) →
      Accepted ⟨input, header, guestModule.memory guest⟩ batches session.allocsToFree)
    (.attempt (dispatchOutcome_triple.weaken (fun _ held => held) ?_ fun _ reached => reached)
      fun _ _ reached => ⟨reached, fun _ same => by cases same⟩) fun outcome => ?_
  · rintro outcome session ⟨reached, facts⟩
    refine ⟨reached, fun batches emitted => ?_⟩
    obtain ⟨decoding, declared, few, counted⟩ := facts batches (Except.ok.inj emitted)
    have own : parsed = (⟨input, header, guestModule.memory guest⟩ : Exchange).parsed := same
    subst own
    exact ⟨few, counted, declared, decoding.allocs.trans (pushed_parts ⟨input, header, guestModule.memory guest⟩ counted)⟩
  · refine .get fun held => ?_
    refine .given (fun state known => known.1 ▸ known.2) fun ⟨reached, accepted⟩ => ?_
    obtain ⟨allocs, decoding⟩ := reached
    have inside := decoding.reached.inside
    refine .bind _ ((freeAll_triple held.allocsToFree none).strengthen fun state known =>
      show Done held.reads [] state from ⟨by rw [known.1], by rw [known.1]; exact decoding.deallocs⟩) fun deallocErr => ?_
    have kept : ∀ {session : Session Guest}, Done held.reads ([] ++ held.allocsToFree) session →
        ReadsInside (guestModule.memory guest) session := fun done read member => inside read (done.1 ▸ member)
    cases outcome with
    | error failure => exact .fail fun _ done => kept done
    | ok outcome =>
      cases deallocErr with
      | some trap => exact .fail fun _ done => kept done
      | none =>
        refine .pure fun session done => ⟨kept done, fun batches emitted => ?_⟩
        rw [done.2, List.nil_append]
        exact accepted batches (congrArg Except.ok emitted)

end Finish

section Originals

variable {batch : SignalBatch Value}

/-- Unless it is emitted or discarded, the batch comes back as it was. -/
def KeepsOriginal (batch : SignalBatch Value) :
    Except (SignalBatch Value × WasmTransformError) (WorkerOutcome Value) → Prop
  | .ok (.emitted _) | .ok .discarded => True
  | .ok (.rejected _ original) | .ok (.errored _ original) => original = batch
  | .error (original, _) => original = batch

abbrev Returns (batch : SignalBatch Value) {Result : Type} (good : Result → Prop)
    (first : Fallible (Session Guest) (SignalBatch Value × WasmTransformError) Result) : Prop :=
  Yields good (fun failure => failure.1 = batch) first

theorem yields_trivial {Result : Type} (first : Fallible (Session Guest) Error Result) :
    Yields (fun _ => True) (fun _ => True) first := by
  intro session
  cases (first session).1 <;> trivial

theorem readMemory_yields {failed : Error → Prop} (offset length : Nat) :
    Yields (fun _ => True) failed
      (readMemory guestModule offset length : Fallible (Session Guest) Error (Option (List UInt8))) := by
  intro session
  by_cases inside : offset + length ≤ (guestModule.memory session.guest).length
  · simp only [readMemory, if_pos inside]
  · simp only [readMemory, if_neg inside]

theorem pushInBoundsAlloc_yields {failed : Error → Prop} (ptr len memSize : Nat) :
    Yields (fun _ => True) failed (pushInBoundsAlloc ptr len memSize : Fallible (Session Guest) Error Unit) := by
  intro session
  by_cases inside : isInBoundsAlloc ptr len memSize = true
  · simp only [pushInBoundsAlloc, if_pos inside]
  · simp only [pushInBoundsAlloc, if_neg inside]

theorem writeMemory_yields {failed : Error → Prop} (offset : Nat) (bytes : List UInt8) :
    Yields (fun _ => True) failed (writeMemory guestModule offset bytes : Fallible (Session Guest) Error Bool) := by
  intro session
  by_cases inside : offset + bytes.length ≤ (guestModule.memory session.guest).length
  · simp only [writeMemory, if_pos inside]
  · simp only [writeMemory, if_neg inside]

theorem readGuestMessage_yields {failed : Error → Prop} (messagePtr messageLen : Nat) :
    Yields (fun _ => True) failed
      (readGuestMessage guestModule messagePtr messageLen : Fallible (Session Guest) Error String) := by
  unfold readGuestMessage
  split
  · exact .pure trivial
  · refine .bind (readMemory_yields _ _) fun found _ => ?_
    cases found with
    | none => exact .pure trivial
    | some bytes => exact .pure trivial

theorem freeAll_yields {failed : Error → Prop} (regions : List (Nat × Nat)) (deallocErr : Option Trap) :
    Yields (fun _ => True) failed
      (freeAll guestModule regions deallocErr : Fallible (Session Guest) Error (Option Trap)) := by
  induction regions generalizing deallocErr with
  | nil => exact .pure trivial
  | cons region rest ih =>
    have called : Yields (fun _ => True) failed
        (callDealloc guestModule region : Fallible (Session Guest) Error (Except Trap Unit)) := fun _ => trivial
    refine .bind called fun result _ => ?_
    cases result with
    | ok _ => exact ih deallocErr
    | error trap => exact ih (deallocErr.or (some trap))

theorem freeAndFail_returns {Result : Type} {good : Result → Prop} (region : Nat × Nat) (error : WasmTransformError) :
    Returns batch good (freeAndFail guestModule batch region error) := by
  have called : Returns batch (fun _ => True) (callDealloc guestModule region) := fun _ => trivial
  exact .bind called fun _ _ => .fail rfl

theorem dispatchOutcome_returns {header : ParsedHeader} {message : String} {ipcPtr : Nat} :
    Returns batch (fun outcome => KeepsOriginal batch (.ok outcome))
      (dispatchOutcome guestModule ipc arrow setting header message batch ipcPtr) := by
  unfold dispatchOutcome
  split
  · split
    · exact .pure trivial
    · split
      · exact .fail rfl
      · refine .bind ((yields_trivial _).mapError fun _ _ => rfl) fun outBatches _ => ?_
        exact .bind ((yields_trivial _).mapError fun _ _ => rfl) fun guarded _ => .pure trivial
  · exact .pure trivial
  · exact .pure rfl
  · exact .pure rfl

theorem finish_returns {input header : Nat × Nat} :
    Returns batch (fun outcome => KeepsOriginal batch (.ok outcome))
      (finish guestModule ipc arrow setting batch input header) := by
  have size : Returns batch (fun _ => True) (dataSize guestModule) := fun _ => trivial
  refine .bind ((yields_trivial _).mapError fun _ _ => rfl) fun parsed _ => ?_
  refine .bind (readGuestMessage_yields _ _) fun message _ => ?_
  refine .bind size fun memSize _ => ?_
  refine .bind (pushInBoundsAlloc_yields _ _ _) fun _ _ => ?_
  refine .bind (pushInBoundsAlloc_yields _ _ _) fun _ _ => ?_
  refine .bind (pushInBoundsAlloc_yields _ _ _) fun _ _ => ?_
  refine .bind (pushInBoundsAlloc_yields _ _ _) fun _ _ => ?_
  have attempted : Returns batch (KeepsOriginal batch)
      (Fallible.attempt (dispatchOutcome guestModule ipc arrow setting parsed message batch input.1)) :=
    .attempt dispatchOutcome_returns
  refine .bind attempted fun outcome kept => ?_
  refine .get fun held => ?_
  refine .bind (freeAll_yields _ _) fun deallocErr _ => ?_
  cases outcome with
  | error failure => exact .fail kept
  | ok outcome =>
    cases deallocErr with
    | some trap => exact .fail rfl
    | none => exact .pure kept

theorem responseHeader_returns {input : Nat × Nat} {response : TransformReturn} :
    Returns batch (fun _ => True) (responseHeader guestModule batch input response) := by
  have size : Returns batch (fun _ => True) (dataSize guestModule) := fun _ => trivial
  cases response with
  | v1 packed =>
    unfold responseHeader
    simp only
    split
    · exact freeAndFail_returns _ _
    · split
      · exact freeAndFail_returns _ _
      · refine .bind size fun memSize _ => ?_
        split
        · exact freeAndFail_returns _ _
        · exact .pure trivial
  | legacy ptr =>
    refine .bind size fun memSize _ => ?_
    split
    · exact freeAndFail_returns _ _
    · exact .pure trivial

theorem runGuest_returns {ipcBuf : List UInt8} :
    Returns batch (fun outcome => KeepsOriginal batch (.ok outcome))
      (runGuest guestModule ipc arrow setting batch ipcBuf) := by
  have allocated : Returns batch (fun _ => True) (callAlloc guestModule ipcBuf.length) := fun _ => trivial
  refine .bind allocated fun result _ => ?_
  cases result with
  | error trap => exact .fail rfl
  | ok ipcPtr =>
    simp only
    split
    · exact .fail rfl
    · refine .bind (writeMemory_yields _ _) fun written _ => ?_
      split
      · exact freeAndFail_returns _ _
      · have transformed : Returns batch (fun _ => True)
          (callTransform guestModule batch.signalType ipcPtr ipcBuf.length) := fun _ => trivial
        refine .bind transformed fun answer _ => ?_
        cases answer with
        | error trap => exact .fail rfl
        | ok response => exact .bind responseHeader_returns fun header _ => finish_returns

end Originals

def headerRegion : TransformReturn → Nat × Nat
  | .v1 packed => (packed.toNat / 2 ^ 32, packed.toNat % 2 ^ 32)
  | .legacy ptr => (ptr.toNat, 20)

def exchangeWith (guestModule : GuestModule Guest) (batch : SignalBatch Value) (ipcBuf : List UInt8) (guest : Guest) :
    Option Exchange :=
  match (guestModule.alloc guest ipcBuf.length).1 with
  | .error _ => none
  | .ok ipcPtr =>
    let called := guestModule.transform
      (guestModule.write (guestModule.alloc guest ipcBuf.length).2 ipcPtr.toNat ipcBuf) batch.signalType ipcPtr.toNat
      ipcBuf.length
    match called.1 with
    | .error _ => none
    | .ok response => some ⟨(ipcPtr.toNat, ipcBuf.length), headerRegion response, guestModule.memory called.2⟩

section Run

variable {guest : Guest} {batch : SignalBatch Value} {ipcBuf : List UInt8}

/-- Every read lies in the memory that the guest has answered with. -/
def ReadsAnswer (answer : Option Exchange) (session : Session Guest) : Prop :=
  ∀ read ∈ session.reads, ∃ exchange, answer = some exchange ∧ read.offset + read.length ≤ exchange.memory.length

theorem ReadsAnswer.none {answer : Option Exchange} {session : Session Guest} (reads : session.reads = []) :
    ReadsAnswer answer session := by
  intro read member
  rw [reads] at member
  cases member

section Fresh

variable {broken : Session Guest → Prop}

theorem dataSize_fresh :
    Triple (fun session => session = { guest := guest }) (dataSize guestModule : Fallible (Session Guest) Error Nat)
      (fun _ session => session = { guest := guest }) broken :=
  fun _ fresh => fresh

theorem callAlloc_fresh (len : Nat) :
    Triple (fun session => session = { guest := guest })
      (callAlloc guestModule len : Fallible (Session Guest) Error (Except Trap Nat))
      (fun result session => session = { guest := (guestModule.alloc guest len).2 } ∧
        result = (guestModule.alloc guest len).1.map UInt32.toNat) broken := by
  intro session fresh
  subst fresh
  exact ⟨rfl, rfl⟩

theorem writeMemory_fresh (offset : Nat) (bytes : List UInt8) :
    Triple (fun session => session = { guest := guest })
      (writeMemory guestModule offset bytes : Fallible (Session Guest) Error Bool)
      (fun written session => session.reads = [] ∧
        (written = true → session = { guest := guestModule.write guest offset bytes })) broken := by
  intro session fresh
  subst fresh
  by_cases inside : offset + bytes.length ≤ (guestModule.memory guest).length
  · simp only [writeMemory, if_pos inside]
    exact ⟨trivial, fun _ => trivial⟩
  · simp only [writeMemory, if_neg inside]
    exact ⟨trivial, fun written => by cases written⟩

theorem callTransform_fresh (signalType ptr len : Nat) :
    Triple (fun session => session = { guest := guest })
      (callTransform guestModule signalType ptr len : Fallible (Session Guest) Error (Except Trap TransformReturn))
      (fun result session => session = { guest := (guestModule.transform guest signalType ptr len).2 } ∧
        result = (guestModule.transform guest signalType ptr len).1) broken := by
  intro session fresh
  subst fresh
  exact ⟨rfl, rfl⟩

end Fresh

theorem freeAndFail_triple {Result : Type} {post : Result → Session Guest → Prop} {broken : Session Guest → Prop}
    (region : Nat × Nat) (error : WasmTransformError)
    (unread : ∀ session : Session Guest, session.reads = [] → broken session) :
    Triple (fun session => session.reads = []) (freeAndFail guestModule batch region error) post broken := by
  refine .bind (fun _ session => session.reads = []) (fun session reads => reads) fun _ => ?_
  exact .fail unread

theorem responseHeader_triple {input : Nat × Nat} {response : TransformReturn} {answer : Option Exchange} :
    Triple (fun session => session = { guest := guest }) (responseHeader guestModule batch input response)
      (fun header session => session = { guest := guest } ∧ header = headerRegion response)
      (ReadsAnswer answer) := by
  have fails : ∀ (error : WasmTransformError) {pre : Session Guest → Prop},
      (∀ session, pre session → session = { guest := guest }) → Triple pre
        (freeAndFail guestModule batch input error)
        (fun header session => session = { guest := guest } ∧ header = headerRegion response) (ReadsAnswer answer) := by
    intro error pre fresh
    refine (freeAndFail_triple input error fun _ => ReadsAnswer.none).strengthen fun session held => ?_
    rw [fresh session held]
  cases response with
  | v1 packed =>
    refine .ite (fun _ => fails _ fun _ fresh => fresh) fun _ => ?_
    refine .ite (fun _ => fails _ fun _ fresh => fresh) fun _ => ?_
    refine .bind _ dataSize_fresh fun memSize => ?_
    exact .ite (fun _ => fails _ fun _ fresh => fresh) fun _ => .pure fun _ fresh => ⟨fresh, rfl⟩
  | legacy ptr =>
    refine .bind _ dataSize_fresh fun memSize => ?_
    exact .ite (fun _ => fails _ fun _ fresh => fresh) fun _ => .pure fun _ fresh => ⟨fresh, rfl⟩

theorem runGuest_triple :
    Triple (fun session => session = { guest := guest }) (runGuest guestModule ipc arrow setting batch ipcBuf)
      (fun outcome session => ReadsAnswer (exchangeWith guestModule batch ipcBuf guest) session ∧
        ∀ batches, outcome = .emitted batches → ∃ exchange,
          exchangeWith guestModule batch ipcBuf guest = some exchange ∧ Accepted exchange batches session.deallocs)
      (ReadsAnswer (exchangeWith guestModule batch ipcBuf guest)) := by
  have unread : ∀ {reached : Guest} {session : Session Guest}, session = { guest := reached } →
      ReadsAnswer (exchangeWith guestModule batch ipcBuf guest) session := by
    intro reached session fresh
    exact .none (by rw [fresh])
  refine .bind _ (callAlloc_fresh ipcBuf.length) fun result => ?_
  refine .given (fun _ held => held.2) fun returned => ?_
  cases alloc : (guestModule.alloc guest ipcBuf.length).1 with
  | error trap =>
    rw [alloc] at returned
    subst returned
    exact .fail fun _ held => unread held.1
  | ok ipcPtr =>
    rw [alloc] at returned
    subst returned
    refine .ite (fun _ => .fail fun _ held => unread held.1) fun _ => ?_
    refine .bind _ ((writeMemory_fresh ipcPtr.toNat ipcBuf).strengthen fun _ held => held.1) fun written => ?_
    cases written with
    | false => exact (freeAndFail_triple _ _ fun _ => ReadsAnswer.none).strengthen fun _ held => held.1
    | true =>
      refine .bind _ ((callTransform_fresh batch.signalType ipcPtr.toNat ipcBuf.length).strengthen
        fun _ held => held.2 rfl) fun answer => ?_
      refine .given (fun _ held => held.2) fun returned => ?_
      cases answer with
      | error trap => exact .fail fun _ held => unread held.1
      | ok response =>
        refine .bind _ (responseHeader_triple.strengthen fun _ held => held.1) fun header => ?_
        refine .given (fun _ held => held.2) fun same => ?_
        subst same
        generalize answered : guestModule.transform (guestModule.write (guestModule.alloc guest ipcBuf.length).2
          ipcPtr.toNat ipcBuf) batch.signalType ipcPtr.toNat ipcBuf.length = called at returned
        have exchanged : exchangeWith guestModule batch ipcBuf guest =
            some ⟨(ipcPtr.toNat, ipcBuf.length), headerRegion response, guestModule.memory called.2⟩ := by
          simp only [exchangeWith, alloc, answered, ← returned]
        refine (finish_triple called.2).weaken ?_ ?_ ?_
        · intro session held
          rw [held.1]
          exact ⟨rfl, rfl, rfl, fun _ member => by cases member⟩
        · rintro outcome session ⟨inside, accepted⟩
          exact ⟨fun read member => ⟨_, exchanged, inside read member⟩,
            fun batches emitted => ⟨_, exchanged, accepted batches emitted⟩⟩
        · exact fun session inside read member => ⟨_, exchanged, inside read member⟩

end Run

theorem filter_start {regions : List (Nat × Nat)} (distinct : (regions.map Prod.fst).Nodup) {region : Nat × Nat}
    (member : region ∈ regions) : (regions.filter fun other => other.1 = region.1) = [region] := by
  induction regions with
  | nil => cases member
  | cons first rest ih =>
    rw [List.map_cons, List.nodup_cons] at distinct
    obtain rfl | later := List.mem_cons.mp member
    · have others : (rest.filter fun other => other.1 = region.1) = [] := by
        rw [List.filter_eq_nil_iff]
        intro other there same
        exact distinct.1 (List.mem_map.mpr ⟨other, there, of_decide_eq_true same⟩)
      rw [List.filter_cons_of_pos (by simp), others]
    · have apart : first.1 ≠ region.1 := fun same => distinct.1 (List.mem_map.mpr ⟨region, later, same.symm⟩)
      rw [List.filter_cons_of_neg (by simpa using apart)]
      exact ih distinct.2 later

theorem Accepted.freed_once {exchange : Exchange} {batches : List (SignalBatch Value)} {deallocs : List (Nat × Nat)}
    (accepted : Accepted exchange batches deallocs) (distinct : (exchange.regions.map Prod.fst).Nodup)
    {region : Nat × Nat} (member : region ∈ exchange.regions) (allocation : exchange.IsAllocation region) :
    (deallocs.filter fun call => call.1 = region.1) = [region] := by
  have nonempty : 0 < region.2 := by simpa using (List.mem_filter.mp member).2
  have kept : isInBoundsAlloc region.1 region.2 exchange.memory.length = true := by
    have within := allocation.2
    refine decide_eq_true ⟨Nat.pos_of_ne_zero allocation.1, nonempty, ?_⟩
    exact Nat.le_trans (Nat.min_le_left _ _) within
  have same : deallocs = exchange.regions.filter fun other =>
      isInBoundsAlloc other.1 other.2 exchange.memory.length := by
    rw [accepted.freed, Exchange.regions, List.filter_filter]
    refine List.filter_congr fun other _ => ?_
    by_cases inside : isInBoundsAlloc other.1 other.2 exchange.memory.length = true
    · have len := (of_decide_eq_true inside).2.1
      simp [inside, len]
    · simp [inside]
  rw [same, List.filter_comm, filter_start distinct member, List.filter_eq_self]
  intro other own
  rw [List.mem_singleton] at own
  rwa [own]

def answerOf (guestModule : GuestModule Guest) (ipc : IpcLibrary Value)
    (reloaded : Except WasmTransformError (Option Guest)) (batch : SignalBatch Value) : Option Exchange :=
  match reloaded, ipc.serializeBatchToIpc batch.recordBatch with
  | .ok (some guest), .ok ipcBuf => exchangeWith guestModule batch ipcBuf guest
  | _, _ => none

/-- The guest's answer is only read inside of its memory, what is accepted keeps the limits, the regions of an accepted
    answer are freed once each, and the batch is given back unless it is emitted or discarded. -/
structure SafelyExecuted (answer : Option Exchange) (batch : SignalBatch Value)
    (result : Except (SignalBatch Value × WasmTransformError) (WorkerOutcome Value))
    (called : Option (Session Guest)) : Prop where
  reads : ∀ session, called = some session → ReadsAnswer answer session
  original : KeepsOriginal batch result
  accepted : ∀ batches, result = .ok (.emitted batches) → ∃ session exchange, called = some session ∧
    answer = some exchange ∧ batches.length ≤ maxGuestBatchCount ∧
    exchange.parsed.batchCount ≤ maxGuestBatchCount ∧ (exchange.outputs.map Prod.snd).sum ≤ maxDeclaredBytes ∧
    ((exchange.regions.map Prod.fst).Nodup → ∀ region ∈ exchange.regions, exchange.IsAllocation region →
      (session.deallocs.filter fun call => call.1 = region.1) = [region])

theorem SafelyExecuted.uncalled {answer : Option Exchange} {batch : SignalBatch Value}
    {result : Except (SignalBatch Value × WasmTransformError) (WorkerOutcome Value)} (kept : KeepsOriginal batch result)
    (other : ∀ batches, result ≠ .ok (.emitted batches)) :
    SafelyExecuted answer batch result (none : Option (Session Guest)) :=
  ⟨(fun _ none => by cases none), kept, fun batches same => absurd same (other batches)⟩

theorem runGuest_safe (guest : Guest) (batch : SignalBatch Value) (ipcBuf : List UInt8) :
    SafelyExecuted (exchangeWith guestModule batch ipcBuf guest) batch
      (runGuest guestModule ipc arrow setting batch ipcBuf { guest := guest }).1
      (some (runGuest guestModule ipc arrow setting batch ipcBuf { guest := guest }).2) := by
  have ran : Triple (fun session => session = { guest := guest })
      (runGuest guestModule ipc arrow setting batch ipcBuf)
      (fun outcome session => ReadsAnswer (exchangeWith guestModule batch ipcBuf guest) session ∧
        ∀ batches, outcome = .emitted batches → ∃ exchange,
          exchangeWith guestModule batch ipcBuf guest = some exchange ∧ Accepted exchange batches session.deallocs)
      (ReadsAnswer (exchangeWith guestModule batch ipcBuf guest)) := runGuest_triple
  have reached := ran { guest := guest } rfl
  have returned : Returns batch (fun outcome => KeepsOriginal batch (.ok outcome))
      (runGuest guestModule ipc arrow setting batch ipcBuf) := runGuest_returns
  have kept := returned { guest := guest }
  generalize runGuest guestModule ipc arrow setting batch ipcBuf { guest := guest } = outcome at reached kept ⊢
  obtain ⟨result, session⟩ := outcome
  cases result with
  | error failure => exact ⟨fun _ same => Option.some.inj same ▸ reached, kept, fun _ same => nomatch same⟩
  | ok outcome =>
    refine ⟨fun _ same => Option.some.inj same ▸ reached.1, kept, fun batches emitted => ?_⟩
    obtain ⟨exchange, answered, accepted⟩ := reached.2 batches (Except.ok.inj emitted)
    exact ⟨session, exchange, rfl, answered, accepted.few, accepted.counted, accepted.declared,
      fun distinct region member allocation => accepted.freed_once distinct member allocation⟩

theorem execute_batch_safe (guestModule : GuestModule Guest) (ipc : IpcLibrary Value) (arrow : ArrowLibrary Value)
    (setting : WorkerSetting) (reloaded : Except WasmTransformError (Option Guest)) (batch : SignalBatch Value) :
    SafelyExecuted (answerOf guestModule ipc reloaded batch) batch
      (executeBatch guestModule ipc arrow setting reloaded batch).1
      (executeBatch guestModule ipc arrow setting reloaded batch).2 := by
  unfold executeBatch
  cases reloaded with
  | error error => exact .uncalled rfl fun _ same => nomatch same
  | ok guest =>
    simp only
    split
    · exact .uncalled rfl fun _ same => nomatch same
    · cases serialized : ipc.serializeBatchToIpc batch.recordBatch with
      | error message => exact .uncalled rfl fun _ same => nomatch same
      | ok ipcBuf =>
        simp only
        split
        · exact .uncalled rfl fun _ same => nomatch same
        · cases guest with
          | none => exact .uncalled rfl fun _ same => nomatch same
          | some guest =>
            have exchanged : answerOf guestModule ipc (.ok (some guest)) batch =
                exchangeWith guestModule batch ipcBuf guest := by
              simp only [answerOf, serialized]
            rw [exchanged]
            exact runGuest_safe guest batch ipcBuf

/-- A guest with a response that holds one batch: the header at 16, the table at 40 and the output at 48. -/
def answeringGuest : GuestModule (List UInt8) where
  memory := id
  alloc memory _ := (.ok 8, memory)
  dealloc memory _ _ := (.ok (), memory)
  transform memory _ _ _ := (.ok (.v1 68719476756), memory)
  write memory offset bytes := memory.take offset ++ bytes ++ memory.drop (offset + bytes.length)

def answeringMemory : List UInt8 :=
  toLe 16 0 ++ (toLe 4 0 ++ toLe 4 1 ++ toLe 4 40 ++ toLe 4 0 ++ toLe 4 0) ++ toLe 4 0 ++ (toLe 4 48 ++ toLe 4 2) ++ [7, 7]

def tracedIpc : IpcLibrary Nat where
  serializeBatchToIpc _ := .ok [7, 7]
  readStream bytes := if bytes = [7, 7] then .ok [.ok Guard.traced] else .error "stream"

def plainSetting : WorkerSetting := ⟨0, "copy.wasm", 5000, .defensive, 500⟩

def emittedCount : Except (SignalBatch Value × WasmTransformError) (WorkerOutcome Value) → Option Nat
  | .ok (.emitted batches) => some batches.length
  | _ => none

theorem execute_batch_safe_answering :
    SafelyExecuted (answerOf answeringGuest tracedIpc (.ok (some answeringMemory)) (.traces Guard.traced))
      (.traces Guard.traced)
      (executeBatch answeringGuest tracedIpc Guard.plainArrow plainSetting (.ok (some answeringMemory))
        (.traces Guard.traced)).1
      (executeBatch answeringGuest tracedIpc Guard.plainArrow plainSetting (.ok (some answeringMemory))
        (.traces Guard.traced)).2 ∧
      emittedCount (executeBatch answeringGuest tracedIpc Guard.plainArrow plainSetting (.ok (some answeringMemory))
        (.traces Guard.traced)).1 = some 1 ∧
      (executeBatch answeringGuest tracedIpc Guard.plainArrow plainSetting (.ok (some answeringMemory))
        (.traces Guard.traced)).2.map (·.deallocs) = some [(8, 2), (16, 20), (40, 8), (48, 2)] :=
  ⟨execute_batch_safe _ _ _ _ _ _, by decide +kernel, by decide +kernel⟩

end OtelDatalake.Wasm.Execution
