import OtelDatalake.Buffer.Withdrawal
import OtelDatalake.Disk.Send
import OtelDatalake.Disk.WatermarkSafety
import OtelDatalake.Foundation.Interleaving

open Std OtelDatalake.Foundation OtelDatalake.Buffer

namespace OtelDatalake.Disk

variable {Schema Row : Type} [DecidableEq Schema] {codec : Codec (RowBatch Schema Row)}

/-- What a step that admits nothing does to one ring, and the answer that it has for a call on this ring. -/
inductive OnRing (inner : BufferInner) (signal : SignalKind) (answer : Option (SignalKind × Nat × Except SendError Unit))
    (ring next : RingWorld (RowBatch Schema Row)) : Prop where
  | idle (same : next = ring) (unanswered : ∀ seqId result, answer ≠ some (signal, seqId, result))
  | acts {action : RingAction (RowBatch Schema Row)} (stepped : RingWorld.step inner signal ring action = some next)
      (silent : RingWorld.admits action = false) (unresolved : ∀ seqId, RingWorld.resolves seqId action = false)
      (unanswered : ∀ seqId result, answer ≠ some (signal, seqId, result))
  | written {seqId : Nat} {written : WrittenFrame} {now : Instant}
      (stepped : RingWorld.step inner signal ring (.finish seqId (.ok written) now) = some next)
      (answered : answer = some (signal, seqId, .ok ()))
  | failed {seqId : Nat} {action : RingAction (RowBatch Schema Row)} {error : SendError}
      (stepped : RingWorld.step inner signal ring action = some next)
      (failure : action = .dropReservation seqId ∨ ∃ reason now, action = .finish seqId (.error reason) now)
      (answered : answer = some (signal, seqId, .error error))

namespace OnRing

variable {inner : BufferInner} {signal : SignalKind} {answer : Option (SignalKind × Nat × Except SendError Unit)}
  {ring next : RingWorld (RowBatch Schema Row)} {origin : SignalRing (RowBatch Schema Row)}

theorem nextSeq (touched : OnRing inner signal answer ring next) :
    next.state.ring.nextSeq = ring.state.ring.nextSeq := by
  cases touched with
  | idle same => rw [same]
  | acts stepped silent => exact RingWorld.step_nextSeq stepped silent
  | written stepped => exact RingWorld.step_nextSeq stepped rfl
  | failed stepped failure =>
    refine RingWorld.step_nextSeq stepped ?_
    rcases failure with rfl | ⟨reason, now, rfl⟩ <;> rfl

theorem sound (touched : OnRing inner signal answer ring next) (before : ring.Sound inner.config origin) :
    next.Sound inner.config origin := by
  cases touched with
  | idle same => exact same ▸ before
  | acts stepped | written stepped | failed stepped =>
    obtain ⟨_, advance⟩ := before.step stepped
    exact advance.sound before

theorem withdrawn (touched : OnRing inner signal answer ring next) (sound : ring.Sound inner.config origin)
    {seqId : Nat} (before : ring.Withdrawn seqId) : next.Withdrawn seqId := by
  cases touched with
  | idle same => exact same ▸ before
  | acts stepped | written stepped | failed stepped => exact before.step sound stepped

end OnRing

namespace DiskWorld

variable {inner : BufferInner} {config : WriterConfig} {world next : DiskWorld codec} {signal : SignalKind}

theorem stepWriter_rings {action : WriterAction codec} (stepped : world.stepWriter config action = some next) :
    next.rings = world.rings := by
  obtain ⟨_, _, rfl⟩ := Option.map_eq_some_iff.mp stepped
  rfl

theorem onRing_of_stepRing {touched : SignalKind} {action : RingAction (RowBatch Schema Row)}
    {answer : Option (SignalKind × Nat × Except SendError Unit)}
    (stepped : world.stepRing inner touched action = some next)
    (own : ∀ ring, RingWorld.step inner touched (world.rings touched) action = some ring →
      OnRing inner touched answer (world.rings touched) ring)
    (foreign : ∀ other seqId result, answer = some (other, seqId, result) → other = touched) (signal : SignalKind) :
    OnRing inner signal answer (world.rings signal) (next.rings signal) := by
  obtain ⟨ring, moved, rfl⟩ := Option.map_eq_some_iff.mp stepped
  by_cases same : signal = touched
  · subst same
    simpa [setRing] using own ring moved
  · refine .idle (by simp [setRing, same]) fun seqId result answered => same (foreign _ _ _ answered)

theorem onRing_of_stepWriter {action : WriterAction codec} {answer : Option (SignalKind × Nat × Except SendError Unit)}
    (stepped : world.stepWriter config action = some next) (unanswered : answer = none) (signal : SignalKind) :
    OnRing inner signal answer (world.rings signal) (next.rings signal) := by
  rw [stepWriter_rings stepped, unanswered]
  exact .idle rfl fun _ _ => nofun

theorem onRing_of_drop {request : AppendRequest codec} (error : SendError)
    {answer : Option (SignalKind × Nat × Except SendError Unit)}
    (stepped : world.stepRing inner request.signal (.dropReservation request.seqId) = some next)
    (answered : answer = some (request.signal, request.seqId, .error error)) (signal : SignalKind) :
    OnRing inner signal answer (world.rings signal) (next.rings signal) := by
  refine onRing_of_stepRing stepped (fun ring moved => .failed moved (Or.inl rfl) answered) ?_ signal
  intro other seqId result same
  rw [answered] at same
  cases same
  rfl

theorem onRing_of_abandon (stepped : world.step inner config .abandon = some next) (signal : SignalKind) :
    OnRing inner signal (world.answered? .abandon) (world.rings signal) (next.rings signal) := by
  simp only [step] at stepped
  split at stepped
  · rename_i phase channel
    obtain ⟨between, dropped, moved⟩ := Option.bind_eq_some_iff.mp stepped
    rw [stepWriter_rings moved]
    refine onRing_of_drop (.storage "disk buffer writer thread dropped append reply") dropped ?_ signal
    simp only [answered?, phase, channel]
  · rename_i unmatched
    refine onRing_of_stepWriter stepped ?_ signal
    simp only [answered?]

theorem onRing_of_step {action : DiskAction codec} (stepped : world.step inner config action = some next)
    (uncalled : ∀ frame now, action ≠ .reserve frame now) (signal : SignalKind) :
    OnRing inner signal (world.answered? action) (world.rings signal) (next.rings signal) := by
  have whole := stepped
  have moves := moves_of_step stepped
  clear stepped
  cases moves with
  | @ring touched action _ consumer stepped =>
    refine onRing_of_stepRing stepped (fun ring moved => ?_) (fun _ _ _ same => by cases same) signal
    refine .acts moved ?_ ?_ fun _ _ => nofun
    · cases action <;> first | rfl | cases consumer
    · intro seqId
      cases action <;> first | rfl | cases consumer
  | reserved => exact absurd rfl (uncalled _ _)
  | refused => exact absurd rfl (uncalled _ _)
  | submit found stepped =>
    rw [stepWriter_rings stepped]
    exact .idle rfl fun _ _ => nofun
  | @cancel index request _ found stepped =>
    refine onRing_of_drop (.storage "disk buffer writer thread is closed") stepped ?_ signal
    simp only [answered?, found, Option.map_some]
  | startSnapshot => exact .idle rfl fun _ _ => nofun
  | readSnapshot found => exact .idle rfl fun _ _ => nofun
  | sendSnapshot found stepped =>
    rw [stepWriter_rings stepped]
    exact .idle rfl fun _ _ => nofun
  | shutdown stepped => exact onRing_of_stepWriter stepped rfl signal
  | writer alone stepped => exact onRing_of_stepWriter stepped rfl signal
  | @reply now reply replies syncErr dirty shutdown between next phase finished stepped =>
    rw [stepWriter_rings stepped]
    refine onRing_of_stepRing finished (fun ring moved => ?_) ?_ signal
    · cases answer : Writer.finalAnswer syncErr reply.2 with
      | ok written =>
        rw [answer] at moved
        exact .written moved (by simp only [answered?, phase, answer])
      | error reason =>
        rw [answer] at moved
        exact .failed moved (Or.inr ⟨reason, now, rfl⟩) (by simp only [answered?, phase, answer]; rfl)
    · intro other seqId result same
      simp only [answered?, phase] at same
      cases same
      rfl
  | abandonAppend => exact onRing_of_abandon whole signal
  | abandon => exact onRing_of_abandon whole signal

end DiskWorld

namespace SendCall

variable {inner : BufferInner} {call : SendCall codec} {ring next : RingWorld (RowBatch Schema Row)}
  {origin : SignalRing (RowBatch Schema Row)}

/-- What holds of a call whose batch is at most one frame: it has been given a number only for the frame that it waits
    for, and has returned an error only if it was given none or that number is withdrawn. -/
def Whole (call : SendCall codec) (ring : RingWorld (RowBatch Schema Row)) : Prop :=
  match call.phase with
  | .enqueuing => call.seqIds = []
  | .reserving [] => True
  | .reserving (frame :: frames) => call.seqIds = [] ∧ frames = [] ∧ frame.signal = call.signal
  | .appending seqId frames => call.seqIds = [seqId] ∧ frames = [] ∧ ring.Reserving seqId
  | .returned (.error _) => ∀ seqId ∈ call.seqIds, ring.Withdrawn seqId
  | .returned (.ok _) | .dropped => True

theorem Whole.fail (unnumbered : call.seqIds = []) (error : SendError) : (call.fail error).Whole ring := by
  intro seqId member
  rw [show (call.fail error).seqIds = [] from unnumbered] at member
  cases member

theorem Whole.refused (whole : call.Whole ring) (unnumbered : call.seqIds = []) (admission : Admission) :
    (call.refused admission).Whole ring := by
  cases admission with
  | failed reason => exact .fail unnumbered _
  | downstreamClosed => exact .fail unnumbered _
  | _ => exact whole

theorem Whole.step (whole : call.Whole ring) (sound : ring.Sound inner.config origin) {signal : SignalKind}
    {action : RingAction (RowBatch Schema Row)} (stepped : RingWorld.step inner signal ring action = some next)
    (unresolved : ∀ seqId frames, call.phase = .appending seqId frames → RingWorld.resolves seqId action = false) :
    call.Whole next := by
  unfold Whole at whole ⊢
  cases phase : call.phase with
  | enqueuing => simpa only [phase] using whole
  | reserving frames =>
    simp only [phase] at whole ⊢
    cases frames with
    | nil => trivial
    | cons frame frames => exact whole
  | appending seqId frames =>
    simp only [phase] at whole ⊢
    exact ⟨whole.1, whole.2.1, whole.2.2.step sound stepped (unresolved seqId frames phase)⟩
  | returned result =>
    simp only [phase] at whole ⊢
    cases result with
    | ok _ => trivial
    | error error => exact fun seqId member => (whole seqId member).step sound stepped
  | dropped => trivial

theorem resume_unanswered {answer : Option (SignalKind × Nat × Except SendError Unit)}
    (unanswered : ∀ seqId frames, call.phase = .appending seqId frames → ∀ result,
      answer ≠ some (call.signal, seqId, result)) : call.resume answer = call := by
  unfold resume
  split
  · rename_i seqId frames signal answered result phase
    split
    · rename_i same
      obtain ⟨rfl, rfl⟩ := same
      exact absurd rfl (unanswered _ _ phase result)
    · rfl
  · rfl

theorem resume_signal (call : SendCall codec) (answer : Option (SignalKind × Nat × Except SendError Unit)) :
    (call.resume answer).signal = call.signal := by
  unfold resume
  repeat' split
  all_goals rfl

theorem resume_seqIds (call : SendCall codec) (answer : Option (SignalKind × Nat × Except SendError Unit)) :
    (call.resume answer).seqIds = call.seqIds := by
  unfold resume
  repeat' split
  all_goals rfl

theorem Whole.other {answer : Option (SignalKind × Nat × Except SendError Unit)} {seqId : Nat}
    {result : Except SendError Unit} {action : RingAction (RowBatch Schema Row)} (whole : call.Whole ring)
    (sound : ring.Sound inner.config origin) (answered : answer = some (call.signal, seqId, result))
    (stepped : RingWorld.step inner call.signal ring action = some next)
    (resolves : ∀ other, RingWorld.resolves other action = (seqId == other))
    (apart : ∀ frames, call.phase ≠ .appending seqId frames) : (call.resume answer).Whole next := by
  rw [resume_unanswered]
  · refine whole.step sound stepped fun other frames phase => ?_
    rw [resolves, beq_eq_false_iff_ne]
    rintro rfl
    exact apart frames phase
  · intro other frames phase again same
    rw [answered] at same
    cases same
    exact apart frames phase

theorem Whole.onRing {answer : Option (SignalKind × Nat × Except SendError Unit)} (whole : call.Whole ring)
    (sound : ring.Sound inner.config origin) (touched : OnRing inner call.signal answer ring next) :
    (call.resume answer).Whole next := by
  cases touched with
  | idle same unanswered =>
    rw [resume_unanswered fun seqId _ _ => unanswered seqId, same]
    exact whole
  | acts stepped _ unresolved unanswered =>
    rw [resume_unanswered fun seqId _ _ => unanswered seqId]
    exact whole.step sound stepped fun seqId _ _ => unresolved seqId
  | @written seqId written now stepped answered =>
    by_cases waits : ∃ frames, call.phase = .appending seqId frames
    · obtain ⟨frames, phase⟩ := waits
      have single : frames = [] := by
        simp only [Whole, phase] at whole
        exact whole.2.1
      simp only [resume, phase, answered, Whole, single, and_self, if_true]
    · exact whole.other sound answered stepped (fun _ => rfl) fun frames phase => waits ⟨frames, phase⟩
  | @failed seqId action error stepped failure answered =>
    by_cases waits : ∃ frames, call.phase = .appending seqId frames
    · obtain ⟨frames, phase⟩ := waits
      simp only [Whole, phase] at whole
      have withdrawn := whole.2.2.withdrawn sound stepped failure
      have resumed : call.resume answer = call.fail error := by
        simp only [resume, phase, answered, and_self, if_true]
      rw [resumed]
      intro other member
      rw [show (call.fail error).seqIds = [seqId] from whole.1, List.mem_singleton] at member
      exact member ▸ withdrawn
    · refine whole.other sound answered stepped (fun other => ?_) fun frames phase => waits ⟨frames, phase⟩
      rcases failure with rfl | ⟨reason, now, rfl⟩ <;> rfl

/-- A pass in memory mode is an admission of the batch, which takes the next number or leaves the call as it is. -/
theorem enqueue_cases {rings : SignalKind → RingWorld (RowBatch Schema Row)} {now : Instant} {storage : Storage codec}
    {moved : SendCall codec} (polled : call.enqueue inner rings now = some (storage, moved)) :
    ∃ next, RingWorld.step inner call.signal (rings call.signal) (.enqueue call.batch now) = some next ∧
      storage = .memory (Function.update rings call.signal next) ∧
      (moved = call.number (rings call.signal).state.ring.nextSeq (.returned (.ok ())) ∧
          next.state.ring.nextSeq = (rings call.signal).state.ring.nextSeq + 1 ∨
        ∃ admission, moved = call.refused admission ∧
          next.state.ring.nextSeq = (rings call.signal).state.ring.nextSeq) := by
  unfold enqueue at polled
  obtain ⟨next, stepped, same⟩ := Option.map_eq_some_iff.mp polled
  rw [Prod.mk.injEq] at same
  obtain ⟨rfl, rfl⟩ := same
  refine ⟨next, stepped, rfl, ?_⟩
  rcases RingWorld.enqueue_nextSeq stepped with ⟨admitted, raised⟩ | ⟨unadmitted, kept⟩
  · exact Or.inl ⟨by rw [admitted], raised⟩
  · generalize (reserveOrEnqueueSlot inner.config (rings call.signal).state (RecordBatch.arrayMemorySize call.batch)
      (RecordBatch.numRows call.batch) (some call.batch) now).2.1 = admission at unadmitted ⊢
    exact Or.inr ⟨admission, by cases admission <;> first | rfl | exact absurd rfl unadmitted, kept⟩

/-- A pass in disk mode reserves the next number for the frame, or leaves the call as it is. -/
theorem reserve_cases {config : WriterConfig} {world : DiskWorld codec} {frame : Frame codec}
    {frames : List (Frame codec)} {now : Instant} {storage : Storage codec} {moved : SendCall codec}
    (polled : call.reserve inner config world frame frames now = some (storage, moved))
    (sound : (world.rings frame.signal).Sound inner.config origin) :
    ∃ next : RingWorld (RowBatch Schema Row), RingWorld.step inner frame.signal (world.rings frame.signal)
        (.reserve frame.bytes.length (RecordBatch.numRows frame.batch) frame.header.rowCount
          (RecordBatch.schema frame.batch) now) = some next ∧
      storage.rings = Function.update world.rings frame.signal next ∧
      (moved = call.number (world.rings frame.signal).state.ring.nextSeq
            (.appending (world.rings frame.signal).state.ring.nextSeq frames) ∧
          next.Reserving (world.rings frame.signal).state.ring.nextSeq ∧
          next.state.ring.nextSeq = (world.rings frame.signal).state.ring.nextSeq + 1 ∨
        ∃ admission, moved = call.refused admission ∧
          next.state.ring.nextSeq = (world.rings frame.signal).state.ring.nextSeq) := by
  unfold reserve at polled
  obtain ⟨after, stepped, same⟩ := Option.map_eq_some_iff.mp polled
  rw [Prod.mk.injEq] at same
  obtain ⟨rfl, rfl⟩ := same
  cases DiskWorld.moves_of_step stepped with
  | @reserved _ _ seqId _ admitted numbered moved =>
    obtain ⟨ring, acted, rfl⟩ := Option.map_eq_some_iff.mp moved
    obtain ⟨reserving, rfl, raised⟩ := RingWorld.reserve_reserving sound acted admitted
    exact ⟨ring, acted, rfl, Or.inl ⟨by rw [admitted], reserving, raised⟩⟩
  | refused refused moved =>
    obtain ⟨ring, acted, rfl⟩ := Option.map_eq_some_iff.mp moved
    have kept : ring.state.ring.nextSeq = (world.rings frame.signal).state.ring.nextSeq := by
      rcases RingWorld.reserve_nextSeq acted with ⟨admitted, _⟩ | ⟨_, kept⟩
      · exact absurd admitted (refused _)
      · exact kept
    generalize (reserveOrEnqueueSlot inner.config (world.rings frame.signal).state frame.bytes.length
      (RecordBatch.numRows frame.batch) none now).2.1 = admission at refused ⊢
    exact ⟨ring, acted, rfl, Or.inr ⟨admission, by cases admission <;> first | rfl | exact absurd rfl (refused _), kept⟩⟩

end SendCall

namespace SendWorld

variable {inner : BufferInner} {config : WriterConfig} {world next : SendWorld codec} {first : SignalKind → Nat}
  {lost : SignalKind → Nat → Prop}

def ring (world : SendWorld codec) (signal : SignalKind) : RingWorld (RowBatch Schema Row) :=
  world.storage.rings signal

def nextSeq (world : SendWorld codec) (signal : SignalKind) : Nat := (world.ring signal).state.ring.nextSeq

def Owned (world : SendWorld codec) (signal : SignalKind) (seqId : Nat) : Prop :=
  ∃ call ∈ world.calls, call.signal = signal ∧ seqId ∈ call.seqIds

/-- What holds of a buffer whose batches are at most one frame each: every number that has been given out since the
    start is that of a call, or one of those that are lost. -/
structure Tracked (inner : BufferInner) (first : SignalKind → Nat) (lost : SignalKind → Nat → Prop)
    (world : SendWorld codec) : Prop where
  sound : ∀ signal, ∃ origin, (world.ring signal).Sound inner.config origin
  numbered : ∀ call ∈ world.calls, ∀ seqId ∈ call.seqIds, seqId < world.nextSeq call.signal
  whole : ∀ call ∈ world.calls, call.Whole (world.ring call.signal)
  owned : ∀ signal seqId, first signal ≤ seqId → seqId < world.nextSeq signal →
    world.Owned signal seqId ∨ lost signal seqId
  withdrawn : ∀ signal seqId, lost signal seqId → (world.ring signal).Withdrawn seqId

theorem owner_moved {left right : List (SendCall codec)} {call moved : SendCall codec} {signal : SignalKind}
    {seqId : Nat} (same : moved.signal = call.signal) (kept : ∀ other ∈ call.seqIds, other ∈ moved.seqIds)
    (found : ∃ owner ∈ left ++ call :: right, owner.signal = signal ∧ seqId ∈ owner.seqIds) :
    ∃ owner ∈ left ++ moved :: right, owner.signal = signal ∧ seqId ∈ owner.seqIds := by
  by_cases own : call.signal = signal ∧ seqId ∈ call.seqIds
  · exact Interleaved.exists_moved left right ⟨same.trans own.1, kept seqId own.2⟩
  · exact Interleaved.exists_others moved found own

section Calls

variable {left right : List (SendCall codec)} {call moved : SendCall codec}

theorem Tracked.update (tracked : Tracked inner first lost world) (split : world.calls = left ++ call :: right)
    (signal : moved.signal = call.signal) (seqIds : moved.seqIds = call.seqIds)
    (whole : moved.Whole (world.ring call.signal)) (fatalError : Option String) :
    Tracked inner first lost { world with fatalError := fatalError, calls := left ++ moved :: right } := by
  obtain ⟨sound, numbered, others, owned, withdrawn⟩ := tracked
  rw [split] at numbered others
  refine ⟨sound, Interleaved.forall_moved numbered ?_, Interleaved.forall_moved others ?_, ?_, withdrawn⟩
  · rw [seqIds, signal]
    exact numbered call (by simp)
  · rw [signal]
    exact whole
  · intro other seqId above below
    refine (owned other seqId above below).imp_left fun owner => ?_
    rw [Owned, split] at owner
    exact owner_moved signal (by rw [seqIds]; exact fun _ => id) owner

theorem Tracked.admit (tracked : Tracked inner first lost world) (split : world.calls = left ++ call :: right)
    {storage : Storage codec} {action : RingAction (RowBatch Schema Row)}
    (stepped : RingWorld.step inner call.signal (world.ring call.signal) action = some (storage.rings call.signal))
    (apart : ∀ other, other ≠ call.signal → storage.rings other = world.ring other)
    (unresolved : ∀ seqId, RingWorld.resolves seqId action = false) (signal : moved.signal = call.signal)
    (whole : moved.Whole (storage.rings call.signal))
    (numbers : (storage.rings call.signal).state.ring.nextSeq = world.nextSeq call.signal ∧ moved.seqIds = call.seqIds ∨
      (storage.rings call.signal).state.ring.nextSeq = world.nextSeq call.signal + 1 ∧
        moved.seqIds = call.seqIds ++ [world.nextSeq call.signal]) :
    Tracked inner first lost (world.move storage (left ++ moved :: right)) := by
  obtain ⟨sound, numbered, others, owned, withdrawn⟩ := tracked
  rw [split] at numbered others
  have raised : ∀ other, world.nextSeq other ≤ (storage.rings other).state.ring.nextSeq := by
    intro other
    by_cases same : other = call.signal
    · subst same
      rcases numbers with ⟨kept, _⟩ | ⟨next, _⟩ <;> omega
    · rw [apart other same]
      exact le_rfl
  have kept : ∀ seqId ∈ call.seqIds, seqId ∈ moved.seqIds := by
    intro seqId member
    rcases numbers with ⟨_, same⟩ | ⟨_, same⟩
    · rw [same]
      exact member
    · rw [same]
      exact List.mem_append_left _ member
  refine ⟨fun other => ?_, ?_, ?_, fun other seqId above below => ?_, fun other seqId gone => ?_⟩
  · by_cases same : other = call.signal
    · subst same
      obtain ⟨origin, before⟩ := sound call.signal
      obtain ⟨_, advance⟩ := before.step stepped
      exact ⟨origin, advance.sound before⟩
    · obtain ⟨origin, before⟩ := sound other
      refine ⟨origin, ?_⟩
      rw [show (world.move storage (left ++ moved :: right)).ring other = world.ring other from apart other same]
      exact before
  · have before : ∀ other ∈ left ++ call :: right, ∀ seqId ∈ other.seqIds,
        seqId < (storage.rings other.signal).state.ring.nextSeq := fun other member seqId listed =>
      (numbered other member seqId listed).trans_le (raised other.signal)
    refine Interleaved.forall_moved before fun seqId listed => ?_
    show seqId < (storage.rings moved.signal).state.ring.nextSeq
    have own := before call (by simp)
    rw [signal]
    rcases numbers with ⟨_, same⟩ | ⟨next, same⟩
    · rw [same] at listed
      exact own seqId listed
    · rw [same] at listed
      rcases List.mem_append.mp listed with old | new
      · exact own seqId old
      · rw [List.mem_singleton.mp new, next]
        exact Nat.lt_succ_self _
  · have before : ∀ other ∈ left ++ right, other.Whole (storage.rings other.signal) := by
      intro other member
      have held := others other (Interleaved.mem_of_mem_others call member)
      by_cases same : other.signal = call.signal
      · obtain ⟨origin, before⟩ := sound call.signal
        rw [same] at held ⊢
        exact held.step before stepped fun seqId _ _ => unresolved seqId
      · rw [apart other.signal same]
        exact held
    intro other member
    rcases List.mem_append.mp (show other ∈ left ++ moved :: right from member) with place | place
    · exact before other (List.mem_append_left _ place)
    rcases List.mem_cons.mp place with rfl | place
    · show other.Whole (storage.rings other.signal)
      rw [signal]
      exact whole
    · exact before other (List.mem_append_right _ place)
  · by_cases old : seqId < world.nextSeq other
    · refine (owned other seqId above old).imp_left fun owner => ?_
      rw [Owned, split] at owner
      exact owner_moved signal kept owner
    · have below : seqId < (storage.rings other).state.ring.nextSeq := below
      by_cases same : other = call.signal
      · subst same
        rcases numbers with ⟨same, _⟩ | ⟨next, given⟩
        · omega
        · obtain rfl : seqId = world.nextSeq call.signal := by omega
          exact .inl (Interleaved.exists_moved left right
            ⟨signal, by rw [given]; exact List.mem_append_right _ (by simp)⟩)
      · rw [apart other same] at below
        exact absurd below old
  · have before := withdrawn other seqId gone
    show (storage.rings other).Withdrawn seqId
    by_cases same : other = call.signal
    · subst same
      obtain ⟨origin, held⟩ := sound call.signal
      exact before.step held stepped
    · rw [apart other same]
      exact before

theorem Tracked.enqueue (tracked : Tracked inner first lost world) (split : world.calls = left ++ call :: right)
    (phase : call.phase = .enqueuing) {rings : SignalKind → RingWorld (RowBatch Schema Row)}
    (memory : world.storage = .memory rings) {now : Instant} {storage : Storage codec}
    (polled : call.enqueue inner rings now = some (storage, moved)) :
    Tracked inner first lost (world.move storage (left ++ moved :: right)) := by
  have whole := tracked.whole call (by rw [split]; simp)
  have unnumbered : call.seqIds = [] := by simpa only [SendCall.Whole, phase] using whole
  have own : ∀ signal, world.ring signal = rings signal := fun signal => by
    simp only [ring, memory, Storage.rings]
  obtain ⟨next, stepped, rfl, outcome⟩ := SendCall.enqueue_cases polled
  have after : (Storage.memory (Function.update rings call.signal next) : Storage codec).rings call.signal = next := by
    simp only [Storage.rings, Function.update_self]
  have apart : ∀ other, other ≠ call.signal →
      (Storage.memory (Function.update rings call.signal next) : Storage codec).rings other = world.ring other := by
    intro other different
    rw [own, Storage.rings, Function.update_of_ne different]
  rw [← own] at stepped
  have held : call.Whole next := by
    obtain ⟨origin, sound⟩ := tracked.sound call.signal
    exact whole.step sound stepped fun _ _ _ => rfl
  rw [← after] at stepped held
  rcases outcome with ⟨rfl, raised⟩ | ⟨admission, rfl, kept⟩
  · refine tracked.admit split stepped apart (fun _ => rfl) rfl trivial (Or.inr ⟨?_, ?_⟩)
    · rw [after, raised, nextSeq, own]
    · rw [SendCall.number, nextSeq, own]
  · refine tracked.admit split stepped apart (fun _ => rfl) ?_ (held.refused unnumbered admission) (Or.inl ⟨?_, ?_⟩)
    · cases admission <;> rfl
    · rw [after, kept, nextSeq, own]
    · cases admission <;> rfl

theorem Tracked.reserve (tracked : Tracked inner first lost world) (split : world.calls = left ++ call :: right)
    {frame : Frame codec} {frames : List (Frame codec)} (phase : call.phase = .reserving (frame :: frames))
    {disk : DiskWorld codec} (stored : world.storage = .disk disk) {now : Instant} {storage : Storage codec}
    (polled : call.reserve inner config disk frame frames now = some (storage, moved)) :
    Tracked inner first lost (world.move storage (left ++ moved :: right)) := by
  have whole := tracked.whole call (by rw [split]; simp)
  obtain ⟨unnumbered, single, own⟩ : call.seqIds = [] ∧ frames = [] ∧ frame.signal = call.signal := by
    simpa only [SendCall.Whole, phase] using whole
  have rings : ∀ signal, world.ring signal = disk.rings signal := fun signal => by
    simp only [ring, stored, Storage.rings]
  obtain ⟨origin, sound⟩ := tracked.sound call.signal
  rw [rings, ← own] at sound
  obtain ⟨next, stepped, touched, outcome⟩ := SendCall.reserve_cases polled sound
  rw [own] at stepped touched outcome sound
  have after : storage.rings call.signal = next := by rw [touched, Function.update_self]
  have apart : ∀ other, other ≠ call.signal → storage.rings other = world.ring other := by
    intro other different
    rw [touched, rings, Function.update_of_ne different]
  have held : call.Whole next := by
    rw [rings] at whole
    exact whole.step sound stepped fun _ _ _ => rfl
  rw [← rings, ← after] at stepped
  rw [← after] at held
  rcases outcome with ⟨rfl, reserving, raised⟩ | ⟨admission, rfl, kept⟩
  · refine tracked.admit split stepped apart (fun _ => rfl) rfl ?_ (Or.inr ⟨?_, ?_⟩)
    · rw [after]
      exact ⟨by simp [SendCall.number, unnumbered], single, reserving⟩
    · rw [after, raised, nextSeq, rings]
    · rw [SendCall.number, nextSeq, rings]
  · refine tracked.admit split stepped apart (fun _ => rfl) ?_ (held.refused unnumbered admission) (Or.inl ⟨?_, ?_⟩)
    · cases admission <;> rfl
    · rw [after, kept, nextSeq, rings]
    · cases admission <;> rfl

theorem Tracked.poll (tracked : Tracked inner first lost world) (split : world.calls = left ++ call :: right)
    {now : Instant} {storage : Storage codec}
    (polled : call.poll inner config world.storage world.fatalError now = some (storage, moved)) :
    Tracked inner first lost (world.move storage (left ++ moved :: right)) := by
  have whole := tracked.whole call (by rw [split]; simp)
  unfold SendCall.poll at polled
  split at polled
  · cases polled
    refine tracked.update split ?_ ?_ ?_ _
    · rfl
    · rfl
    · trivial
  · rename_i phase _
    cases polled
    have unnumbered : call.seqIds = [] := by simpa only [SendCall.Whole, phase] using whole
    refine tracked.update split ?_ ?_ ?_ _
    · rfl
    · rfl
    · exact .fail unnumbered _
  · rename_i phase _
    cases polled
    have unnumbered : call.seqIds = [] := by
      simp only [SendCall.Whole, phase] at whole
      exact whole.1
    refine tracked.update split ?_ ?_ ?_ _
    · rfl
    · rfl
    · exact .fail unnumbered _
  · rename_i phase memory _
    exact tracked.enqueue split phase memory polled
  · rename_i phase stored _
    exact tracked.reserve split phase stored polled
  · cases polled

end Calls

theorem Tracked.touch (tracked : Tracked inner first lost world) {storage : Storage codec}
    {answer : Option (SignalKind × Nat × Except SendError Unit)}
    (touched : ∀ signal, OnRing inner signal answer (world.ring signal) (storage.rings signal)) :
    Tracked inner first lost (world.move storage (world.calls.map fun call => call.resume answer)) := by
  have kept : ∀ signal, (storage.rings signal).state.ring.nextSeq = world.nextSeq signal := fun signal =>
    (touched signal).nextSeq
  refine ⟨fun signal => ?_, fun call member seqId listed => ?_, fun call member => ?_,
    fun signal seqId above below => ?_, fun signal seqId gone => ?_⟩
  · obtain ⟨origin, sound⟩ := tracked.sound signal
    exact ⟨origin, (touched signal).sound sound⟩
  · obtain ⟨before, held, rfl⟩ := List.mem_map.mp member
    rw [SendCall.resume_seqIds] at listed
    rw [SendCall.resume_signal]
    exact (tracked.numbered before held seqId listed).trans_eq (kept before.signal).symm
  · obtain ⟨before, held, rfl⟩ := List.mem_map.mp member
    rw [SendCall.resume_signal]
    obtain ⟨origin, sound⟩ := tracked.sound before.signal
    exact (tracked.whole before held).onRing sound (touched before.signal)
  · refine (tracked.owned signal seqId above (below.trans_eq (kept signal))).imp_left ?_
    rintro ⟨owner, member, rfl, listed⟩
    refine ⟨owner.resume answer, List.mem_map_of_mem member, owner.resume_signal answer, ?_⟩
    rw [SendCall.resume_seqIds]
    exact listed
  · obtain ⟨origin, sound⟩ := tracked.sound signal
    exact (touched signal).withdrawn sound (tracked.withdrawn signal seqId gone)

theorem Tracked.act (tracked : Tracked inner first lost world) {action : DiskAction codec}
    (acted : world.act inner config action = some next) : Tracked inner first lost next := by
  unfold SendWorld.act at acted
  split at acted
  · rename_i rings touched action memory
    split at acted
    · rename_i consumer
      obtain ⟨ring, stepped, rfl⟩ := Option.map_eq_some_iff.mp acted
      have unmoved : world.calls = world.calls.map fun call => call.resume none :=
        (List.map_id'' (fun call => call.resume_unanswered fun _ _ _ _ => nofun) _).symm
      rw [unmoved]
      refine tracked.touch fun signal => ?_
      have own : world.ring signal = rings signal := by simp only [SendWorld.ring, memory, Storage.rings]
      rw [own, Storage.rings]
      by_cases same : signal = touched
      · subst same
        rw [Function.update_self]
        refine .acts stepped ?_ ?_ fun _ _ => nofun
        · cases action <;> first | rfl | cases consumer
        · intro seqId
          cases action <;> first | rfl | cases consumer
      · exact .idle (Function.update_of_ne same ..) fun _ _ => nofun
    · cases acted
  · cases acted
  · cases acted
  · rename_i disk stored uncalled
    obtain ⟨after, stepped, rfl⟩ := Option.map_eq_some_iff.mp acted
    refine tracked.touch fun signal => ?_
    have own : world.ring signal = disk.rings signal := by simp only [SendWorld.ring, stored, Storage.rings]
    rw [own, Storage.rings]
    exact DiskWorld.onRing_of_step stepped uncalled signal

/-- The batch of a call is at most one frame. -/
def oneFrame (inner : BufferInner) (world : SendWorld codec) : SendAction codec → Prop
  | .send signal batch _ => match world.storage with
    | .memory _ => True
    | .disk _ => ∀ frames, splitAndEncodeFramesForDisk codec signal batch
        inner.config.maxDiskFramePayloadBytes = .ok frames → frames.length ≤ 1
  | _ => True

theorem frame?_signal {Batch : Type} [RecordBatch Batch] {codec : Codec Batch} {signal : SignalKind}
    {frame : PreEncodedFrame Batch} {stored : Frame codec} (made : frame.frame? codec signal = some stored) :
    stored.signal = signal := by
  unfold PreEncodedFrame.frame? at made
  split at made
  · cases made
  · split at made
    · cases made
      rfl
    · cases made

theorem send_whole {signal : SignalKind} {batch : RowBatch Schema Row} {joinError : Option String}
    (single : oneFrame inner world (.send signal batch joinError)) (ring : RingWorld (RowBatch Schema Row)) :
    (world.storage.send inner signal batch joinError).Whole ring := by
  cases stored : world.storage with
  | memory rings => exact rfl
  | disk disk =>
    simp only [oneFrame, stored] at single
    simp only [Storage.send, Storage.encode]
    split
    · exact fun seqId member => absurd member List.not_mem_nil
    · split
      · exact fun seqId member => absurd member List.not_mem_nil
      · rename_i frames split
        have few := single frames split
        cases frames with
        | nil => trivial
        | cons frame rest =>
          have alone : rest = [] := List.eq_nil_of_length_eq_zero (Nat.le_zero.mp (Nat.le_of_succ_le_succ few))
          rw [alone]
          cases made : frame.frame? codec signal with
          | none =>
            simp only [List.filterMap_cons, made, List.filterMap_nil]
            trivial
          | some stored =>
            simp only [List.filterMap_cons, made, List.filterMap_nil]
            exact ⟨rfl, rfl, frame?_signal made⟩

theorem Tracked.step (tracked : Tracked inner first lost world) {action : SendAction codec}
    (single : oneFrame inner world action) (stepped : world.step inner config action = some next) :
    Tracked inner first lost next := by
  cases action with
  | send signal batch joinError =>
    cases stepped
    have unnumbered : (world.storage.send inner signal batch joinError).seqIds = [] := rfl
    refine ⟨tracked.sound, fun call member seqId listed => ?_, fun call member => ?_,
      fun other seqId above below => ?_, tracked.withdrawn⟩
    · rcases List.mem_append.mp member with old | new
      · exact tracked.numbered call old seqId listed
      · rw [List.mem_singleton.mp new, unnumbered] at listed
        cases listed
    · rcases List.mem_append.mp member with old | new
      · exact tracked.whole call old
      · rw [List.mem_singleton.mp new]
        exact send_whole single _
    · refine (tracked.owned other seqId above below).imp_left fun ⟨owner, listed, owns⟩ => ?_
      exact ⟨owner, List.mem_append_left _ listed, owns⟩
  | poll index now =>
    obtain ⟨call, found, acted⟩ := Option.bind_eq_some_iff.mp stepped
    obtain ⟨⟨storage, moved⟩, polled, rfl⟩ := Option.map_eq_some_iff.mp acted
    obtain ⟨left, right, split, rfl⟩ := Interleaved.getElem?_split found
    rw [split, Interleaved.set_split]
    exact tracked.poll split polled
  | drop index =>
    obtain ⟨call, found, acted⟩ := Option.bind_eq_some_iff.mp stepped
    obtain ⟨left, right, split, rfl⟩ := Interleaved.getElem?_split found
    split at acted
    · cases acted
      rw [split, Interleaved.set_split]
      refine tracked.update split ?_ ?_ ?_ _
      · rfl
      · rfl
      · trivial
    · cases acted
  | buffer action => exact tracked.act stepped

end SendWorld

end OtelDatalake.Disk
