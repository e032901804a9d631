import OtelDatalake.Buffer.Budget
import OtelDatalake.Disk.Isolation
import OtelDatalake.Disk.WatermarkSafety

open Std OtelDatalake.Foundation OtelDatalake.Buffer

namespace OtelDatalake.Disk

variable {Batch : Type} [RecordBatch Batch] {codec : Codec Batch}

theorem writeEncodedFrame_len {config : WriterConfig} {watermark : DiskWatermark} {faults : WriteFaults}
    {request : AppendRequest codec} {rows : Nat} {segments : SegmentWriter} {written : WrittenFrame}
    (ok : (writeEncodedFrame config watermark faults codec request.signal request.seqId rows request.frame.bytes
      segments).1 = .ok written) : written.len = request.frame.bytes.length := by
  cases numbered : numberFrame codec config request.signal request.seqId rows request.frame.bytes with
  | error reason =>
    simp only [writeEncodedFrame, numbered] at ok
    cases ok
  | ok bytes =>
    simp only [writeEncodedFrame, numbered] at ok
    obtain ⟨_, _, opened⟩ := Effect.bind_ok ok
    obtain ⟨_, _, grown⟩ := Effect.bind_ok opened
    obtain ⟨_, _, stored⟩ := Effect.bind_ok grown
    obtain ⟨_, _, returned⟩ := Effect.bind_ok stored
    cases returned
    rw [(numberFrame_ok numbered).1, request.stored_length]

namespace DiskWorld

def Fits (world : DiskWorld codec) (request : AppendRequest codec) : Prop :=
  request.seqId < (world.rings request.signal).state.ring.nextSeq ∧
    ∀ held ∈ (world.rings request.signal).reservations, held.value.seqId = request.seqId →
      held.value.frameBytesLen = request.frame.bytes.length

/-- Every ring keeps to its budget, and every append is stored in the length that its reservation is for. -/
structure Sized (config : BufferConfig) (origin : SignalKind → SignalRing Batch) (world : DiskWorld codec) : Prop where
  guarded : Guarded config origin world
  within : ∀ signal, WithinBudget config.perSignalBudget (world.rings signal).charges
  pending : ∀ request ∈ world.writer.requests ++ world.senders, world.Fits request
  answered : Granted (fun request written => written.len = request.frame.bytes.length ∧ world.Fits request)
    world.writer.replies

variable {inner : BufferInner} {config : WriterConfig} {origin : SignalKind → SignalRing Batch}
  {world next : DiskWorld codec}

theorem Fits.stepRing {request : AppendRequest codec} (fits : world.Fits request) {signal : SignalKind}
    {action : RingAction Batch} (sound : (world.rings signal).Sound inner.config (origin signal))
    (stepped : world.stepRing inner signal action = some next) : next.Fits request := by
  obtain ⟨ring, moved, rfl⟩ := Option.map_eq_some_iff.mp stepped
  by_cases same : request.signal = signal
  · subst same
    obtain ⟨_, advance⟩ := sound.step moved
    simp only [Fits, setRing, Function.update_self]
    refine ⟨fits.1.trans_le advance.transition.evolves.nextSeq, fun held member numbered => ?_⟩
    rcases RingWorld.step_reservations moved member with ⟨old, listed, equal⟩ | ⟨_, _, _, _, _, _, fresh, _⟩
    · rw [← equal] at numbered ⊢
      exact fits.2 old listed numbered
    · have below := fits.1
      omega
  · simpa [Fits, setRing, same] using fits

theorem Sized.tasks (sized : Sized inner.config origin world) {senders : List (AppendRequest codec)}
    {snapshots : List Snapshot} (fewer : ∀ request ∈ senders, request ∈ world.senders)
    (below : ∀ snapshot ∈ snapshots, SnapshotBelow world.committed snapshot) :
    Sized inner.config origin { world with senders := senders, snapshots := snapshots } where
  guarded := sized.guarded.tasks senders below
  within := sized.within
  pending request member := by
    rcases List.mem_append.mp member with queued | sending
    · exact sized.pending request (List.mem_append_left _ queued)
    · exact sized.pending request (List.mem_append_right _ (fewer request sending))
  answered := sized.answered

theorem Sized.ring (sized : Sized inner.config origin world) {signal : SignalKind} {action : RingAction Batch}
    (stepped : world.stepRing inner signal action = some next)
    (measured : (world.rings signal).Measured action) (guarded : Guarded inner.config origin next) :
    Sized inner.config origin next := by
  have fits : ∀ request, world.Fits request → next.Fits request := fun request fits =>
    fits.stepRing (sized.guarded.sound signal) stepped
  obtain ⟨ring, moved, rfl⟩ := Option.map_eq_some_iff.mp stepped
  exact
    { guarded := guarded
      within := by
        intro other
        by_cases same : other = signal
        · subst same
          simpa [setRing] using ((sized.guarded.sound other).spends measured moved).within (sized.within other)
        · simpa [setRing, same] using sized.within other
      pending := fun request member => fits request (sized.pending request member)
      answered := sized.answered.mono fun request written granted => ⟨granted.1, fits request granted.2⟩ }

theorem Sized.writer (sized : Sized inner.config origin world) {action : WriterAction codec}
    (stepped : world.stepWriter config action = some next) (guarded : Guarded inner.config origin next)
    (submitted : ∀ request, action = .submit (.appendEncoded request) → world.Fits request) :
    Sized inner.config origin next := by
  obtain ⟨reached, moved, rfl⟩ := Option.map_eq_some_iff.mp stepped
  obtain ⟨⟨writer, ops⟩, transition, rfl⟩ := Option.map_eq_some_iff.mp moved
  have moves := Writer.moves_of_transition transition
  have queued : ∀ request ∈ writer.requests, world.Fits request := by
    intro request member
    obtain ⟨command, listed, carries⟩ := List.mem_filterMap.mp member
    rcases moves.commands listed with old | new
    · exact sized.pending request (List.mem_append_left _ (List.mem_filterMap.mpr ⟨command, old, carries⟩))
    · cases command with
      | appendEncoded other =>
        cases carries
        exact submitted _ new
      | _ => cases carries
  exact
    { guarded := guarded
      within := sized.within
      pending := by
        intro request member
        rcases List.mem_append.mp member with carried | sending
        · exact queued request carried
        · exact sized.pending request (List.mem_append_right _ sending)
      answered := by
        refine moves.granted sized.answered ?_
        rintro faults request todo progress rfl phase written ok
        refine ⟨writeEncodedFrame_len ok, sized.pending request (List.mem_append_left _ ?_)⟩
        rw [Writer.requests_processing phase]
        exact List.mem_append_left _ (by simp [WriterCommand.request?]) }

theorem Sized.measured (sized : Sized inner.config origin world) {reply : AppendReply codec}
    {replies : List (AppendReply codec)} {syncErr : Option String} {dirty shutdown : Bool} (now : Instant)
    (phase : world.writer.phase = .replying (reply :: replies) syncErr dirty shutdown) :
    (world.rings reply.1.signal).Measured (.finish reply.1.seqId (Writer.finalAnswer syncErr reply.2) now) := by
  cases answer : Writer.finalAnswer syncErr reply.2 with
  | error reason => trivial
  | ok written =>
    intro taken found
    have pending := (granted_append.mp sized.answered).1
    rw [phase] at pending
    obtain ⟨length, fits⟩ := pending reply List.mem_cons_self written (Writer.finalAnswer_ok answer).2
    obtain ⟨_, _, ⟨held, member, equal⟩, _⟩ := takeHeld_eq_some found
    rw [length, ← equal]
    refine (fits.2 held member ?_).symm
    rw [equal]
    exact RingWorld.takeReservation_seqId found

theorem Sized.reserved (sized : Sized inner.config origin world) {frame : Frame codec} {now : Instant} {seqId : Nat}
    (admitted : (reserveOrEnqueueSlot inner.config (world.rings frame.signal).state frame.bytes.length
      (RecordBatch.numRows frame.batch) none now).2.1 = .reserved seqId) (numbered : seqId ≤ u64Max)
    (stepped : world.stepRing inner frame.signal (.reserve frame.bytes.length (RecordBatch.numRows frame.batch)
      frame.header.rowCount (RecordBatch.schema frame.batch) now) = some next)
    (kept : Sized inner.config origin next) :
    Sized inner.config origin
      { next with senders := next.senders ++ [{ frame := frame, seqId := seqId, numbered := numbered }] } := by
  refine
    { guarded := kept.guarded.tasks _ kept.guarded.snapshots
      within := kept.within
      pending := fun request member => ?_
      answered := kept.answered }
  rw [← List.append_assoc, List.mem_append] at member
  rcases member with old | new
  · exact kept.pending request old
  · rw [List.mem_singleton.mp new]
    obtain ⟨ring, moved, rfl⟩ := Option.map_eq_some_iff.mp stepped
    have sound := sized.guarded.sound frame.signal
    simp only [Fits, AppendRequest.signal, setRing, Function.update_self]
    rcases RingWorld.reserve_nextSeq moved with ⟨same, raised⟩ | ⟨refused, _⟩
    · rw [admitted, Admission.reserved.injEq] at same
      refine ⟨by omega, fun held member equal => ?_⟩
      rcases RingWorld.step_reservations moved member with ⟨old, listed, value⟩ | ⟨_, _, _, _, _, action, _, sized⟩
      · have below := sound.reservation_lt listed
        rw [value, equal] at below
        omega
      · cases action
        exact sized
    · exact absurd admitted (refused seqId)

theorem Sized.step (sized : Sized inner.config origin world) {action : DiskAction codec}
    (stepped : world.step inner config action = some next) : Sized inner.config origin next := by
  have guarded := (sized.guarded.step stepped).guarded
  have moves := moves_of_step stepped
  clear stepped
  cases moves with
  | @ring signal action next consumer stepped =>
    refine sized.ring stepped ?_ guarded
    cases action with
    | finish seqId result now => cases consumer
    | _ => trivial
  | reserved admitted numbered stepped =>
    have onward := sized.guarded.ring stepped fun seqId written now same => by cases same
    exact sized.reserved admitted numbered.le stepped (sized.ring stepped trivial onward.guarded)
  | refused refused stepped => exact sized.ring stepped trivial guarded
  | submit found stepped =>
    have fits := sized.pending _ (List.mem_append_right _ (List.mem_of_getElem? found))
    refine (sized.tasks (fun _ => List.mem_of_mem_eraseIdx) sized.guarded.snapshots).writer stepped guarded ?_
    intro request same
    cases same
    exact fits
  | cancel found stepped =>
    exact (sized.tasks (fun _ => List.mem_of_mem_eraseIdx) sized.guarded.snapshots).ring stepped trivial guarded
  | startSnapshot => exact sized.tasks (fun _ => id) guarded.snapshots
  | readSnapshot found => exact sized.tasks (fun _ => id) guarded.snapshots
  | @sendSnapshot index flush watermark next found stepped =>
    have remaining : Sized inner.config origin { world with snapshots := world.snapshots.eraseIdx index } :=
      sized.tasks (fun _ => id) fun snapshot member =>
        sized.guarded.snapshots snapshot (List.mem_of_mem_eraseIdx member)
    refine remaining.writer stepped guarded ?_
    intro request same
    cases flush <;> cases same
  | shutdown stepped => exact sized.writer stepped guarded fun request same => by cases same
  | writer alone stepped => exact sized.writer stepped guarded fun request same => by subst same; cases alone
  | @reply now reply replies syncErr dirty shutdown between next phase finished stepped =>
    have first := sized.ring finished (sized.measured now phase) (sized.guarded.finish phase finished).guarded
    exact first.writer stepped guarded fun request same => by cases same
  | abandonAppend phase channel dropped stepped =>
    have onward := sized.guarded.ring dropped fun seqId written now same => by cases same
    exact (sized.ring dropped trivial onward.guarded).writer stepped guarded fun request same => by cases same
  | abandon stepped => exact sized.writer stepped guarded fun request same => by cases same

theorem sized_opened (codec : Codec Batch) (buffer : BufferConfig) (config : WriterConfig) (generatedId : Nat)
    (now : Instant) (unlinks : Nat → Bool) :
    Sized buffer
      (fun signal => ((opened codec config generatedId now unlinks {}).rings signal).state.ring)
      (opened codec config generatedId now unlinks {}) where
  guarded := (numbered_empty codec config.maxPayloadLen generatedId now).guarded buffer unlinks
  within signal := Or.inl (by
    have empty : ((opened codec config generatedId now unlinks {}).rings signal).charges = 0 := by
      rw [RingWorld.charges, opened_ring]
      exact Multiset.le_zero.mp (SignalRing.advanceWatermark_charges _)
    rw [empty]
    exact Nat.zero_le _)
  pending request member := absurd member List.not_mem_nil
  answered := granted_nil

end DiskWorld

def memoryAction : RingAction Batch → Bool
  | .reserve .. | .finish .. | .dropReservation _ => false
  | _ => true

theorem memory_budgeted (inner : BufferInner) (signal : SignalKind) {world : RingWorld Batch}
    (run : Run (RingWorld.step inner signal) (fun _ action => memoryAction action = true) {} world) :
    world.Budgeted inner.config := by
  have holds : world.Sound inner.config ({} : SignalRing Batch) ∧
      WithinBudget inner.config.perSignalBudget world.charges := by
    refine run.invariant (fun world => world.Sound inner.config ({} : SignalRing Batch) ∧
      WithinBudget inner.config.perSignalBudget world.charges)
      ⟨Opened.new.sound inner.config, Or.inl (Nat.zero_le _)⟩ ?_
    rintro before action after ⟨sound, within⟩ memory stepped
    obtain ⟨_, advance⟩ := sound.step stepped
    refine ⟨advance.sound sound, (sound.spends ?_ stepped).within within⟩
    cases action with
    | finish seqId result now => cases memory
    | _ => trivial
  exact holds.1.budgeted holds.2

/-- From an empty buffer, in memory or on disk and under either overflow policy, every reached ring keeps to the
    budget of its signal, and evicts only queued batches, the lowest first. -/
theorem admission_budget (inner : BufferInner) :
    (∀ (signal : SignalKind) (world : RingWorld Batch),
      Run (RingWorld.step inner signal) (fun _ action => memoryAction action = true) {} world →
      world.Budgeted inner.config) ∧
    ∀ (codec : Codec Batch) (config : WriterConfig) (generatedId : Nat) (now : Instant) (unlinks : Nat → Bool)
      (world : DiskWorld codec),
      Run (DiskWorld.step inner config) (fun _ _ => True)
        (DiskWorld.opened codec config generatedId now unlinks {}) world →
      ∀ signal, (world.rings signal).Budgeted inner.config := by
  refine ⟨fun signal world run => memory_budgeted inner signal run, ?_⟩
  intro codec config generatedId now unlinks world run signal
  have sized := run.invariant (DiskWorld.Sized inner.config
    fun signal => ((DiskWorld.opened codec config generatedId now unlinks {}).rings signal).state.ring)
    (DiskWorld.sized_opened codec inner.config config generatedId now unlinks)
    fun before action after sized _ stepped => sized.step stepped
  exact (sized.guarded.sound signal).budgeted (sized.within signal)

/-- A budget of two bytes for each signal, with the oldest batch dropped. -/
def tightInner : BufferInner :=
  { sinkName := "lake", instanceId := 7
    config := { maxBufferBytes := 6, overflowPolicy := .dropOldest, maxBatchIntervalSec := 0 } }

/-- A batch of three bytes is queued alone and evicted for one of two bytes. -/
def oversizeEvicted : List (RingAction PlainBatch) := [.enqueue ⟨0, 1, [1, 2, 3]⟩ 5, .enqueue ⟨0, 1, [4, 5]⟩ 6]

theorem admission_budget_oversizeEvicted :
    ∃ world, execute (RingWorld.step tightInner .logs) {} oversizeEvicted = some world ∧
      world.outcomes = [(1, .evicted)] ∧ world.state.ring.totalUsed = 2 ∧ world.Budgeted tightInner.config :=
  ⟨_, rfl, rfl, rfl, (admission_budget tightInner).1 .logs _
    (executePermitted_run _ (fun _ action => memoryAction action = true) oversizeEvicted rfl)⟩

end OtelDatalake.Disk
