import Mathlib.Data.List.Forall2
import OtelDatalake.Wasm.DispatchBatch

open OtelDatalake.Foundation

namespace OtelDatalake.Wasm.DispatchBatch

variable {Batch : Type}

/-- A channel that its worker has drained of some batches or closed. -/
structure Worn (before after : WorkerChannel Batch) : Prop where
  capacity : after.capacity = before.capacity
  history : after.history = before.history
  shorter : after.queue.length ≤ before.queue.length
  closed : before.closed = true → after.closed = true

namespace Worn

theorem refl (channel : WorkerChannel Batch) : Worn channel channel := ⟨rfl, rfl, Nat.le_refl _, id⟩

theorem trans {first second third : WorkerChannel Batch} (earlier : Worn first second) (later : Worn second third) :
    Worn first third :=
  ⟨later.capacity.trans earlier.capacity, later.history.trans earlier.history, Nat.le_trans later.shorter earlier.shorter,
    fun closed => later.closed (earlier.closed closed)⟩

theorem drain {before after : WorkerChannel Batch} (drained : before.drain = some after) : Worn before after := by
  unfold WorkerChannel.drain at drained
  split at drained
  · cases drained
  · rename_i batch rest queue
    cases drained
    refine ⟨rfl, ?_, ?_, id⟩
    · simp [WorkerChannel.history, queue]
    · simp [queue]

theorem close (channel : WorkerChannel Batch) : Worn channel channel.close := ⟨rfl, rfl, Nat.le_refl _, fun _ => rfl⟩

theorem backedUp {before after : WorkerChannel Batch} (worn : Worn before after) (full : after.backedUp = true) :
    before.backedUp = true := by
  have fewer := worn.shorter
  have closed := worn.closed
  simp only [WorkerChannel.backedUp, Bool.and_eq_true, Bool.not_eq_true', decide_eq_true_eq, worn.capacity] at full ⊢
  refine ⟨?_, Nat.le_trans full.2 fewer⟩
  cases shut : before.closed with
  | false => rfl
  | true => exact (closed shut).symm.trans full.1

end Worn

def Shut (channels : List (WorkerChannel Batch)) (index : Nat) : Prop :=
  ∀ channel, channels[index]? = some channel → channel.closed = true

def Jammed (channels : List (WorkerChannel Batch)) (index : Nat) : Prop :=
  ∃ channel, channels[index]? = some channel ∧ channel.backedUp = true

theorem Jammed.lt {channels : List (WorkerChannel Batch)} {index : Nat} (jammed : Jammed channels index) :
    index < channels.length := by
  obtain ⟨channel, found, _⟩ := jammed
  exact (List.getElem?_eq_some_iff.mp found).1

theorem Jammed.not_shut {channels : List (WorkerChannel Batch)} {index : Nat} (jammed : Jammed channels index) :
    ¬ Shut channels index := by
  obtain ⟨channel, found, full⟩ := jammed
  intro shut
  simp [WorkerChannel.backedUp, shut channel found] at full

section Channels

variable {before after : List (WorkerChannel Batch)}

theorem Jammed.earlier (worn : List.Forall₂ Worn before after) {index : Nat} (jammed : Jammed after index) :
    Jammed before index := by
  obtain ⟨channel, found, full⟩ := jammed
  obtain ⟨bound, rfl⟩ := List.getElem?_eq_some_iff.mp found
  have earlier : index < before.length := worn.length_eq ▸ bound
  exact ⟨before[index], List.getElem?_eq_getElem earlier, (worn.get earlier bound).backedUp full⟩

theorem Shut.later (worn : List.Forall₂ Worn before after) {index : Nat} (shut : Shut before index) :
    Shut after index := by
  intro channel found
  obtain ⟨bound, rfl⟩ := List.getElem?_eq_some_iff.mp found
  have earlier : index < before.length := worn.length_eq ▸ bound
  exact (worn.get earlier bound).closed (shut _ (List.getElem?_eq_getElem earlier))

theorem worn_set {channels : List (WorkerChannel Batch)} {index : Nat} {channel next : WorkerChannel Batch}
    (found : channels[index]? = some channel) (worn : Worn channel next) :
    List.Forall₂ Worn channels (channels.set index next) := by
  induction channels generalizing index with
  | nil => cases found
  | cons first rest ih =>
    cases index with
    | zero =>
      cases found
      exact .cons worn (List.forall₂_same.mpr fun other _ => .refl other)
    | succ index => exact .cons (.refl first) (ih found)

theorem worn_trans {first second third : List (WorkerChannel Batch)} (earlier : List.Forall₂ Worn first second)
    (later : List.Forall₂ Worn second third) : List.Forall₂ Worn first third := by
  induction earlier generalizing third with
  | nil =>
    cases later
    exact .nil
  | cons worn _ ih =>
    cases later with
    | cons worn' rest => exact .cons (worn.trans worn') (ih rest)

end Channels

/-- Among any three channels that are open and full, two are the same. -/
def AtMostTwoJammed (channels : List (WorkerChannel Batch)) : Prop :=
  ∀ first second third, Jammed channels first → Jammed channels second → Jammed channels third →
    first = second ∨ first = third ∨ second = third

/-- The first loop comes to every channel that is open. -/
def Scanned (start : Call Batch) : Prop :=
  ∀ index < start.channels.length, ¬ Shut start.channels index → ∃ offset < start.channels.length,
    start.scanIdx offset = index

section Cases

variable {call next : Call Batch}

inductive Passes (call : Call Batch) : CallPhase → CallPhase → Prop where
  | skip {offset firstFullIdx} (shut : Shut call.channels (call.scanIdx offset)) :
    offset < call.concurrency → Passes call (.scanning offset firstFullIdx) (.scanning (offset + 1) firstFullIdx)
  | note {offset firstFullIdx} (jammed : Jammed call.channels (call.scanIdx offset)) :
    Passes call (.scanning offset firstFullIdx)
      (.scanning (offset + 1) (firstFullIdx.or (some (call.scanIdx offset))))
  | none {offset} : call.concurrency ≤ offset → Passes call (.scanning offset .none) (.returned false)
  | wait {offset fullIdx} : call.concurrency ≤ offset → Passes call (.scanning offset (some fullIdx)) (.sending fullIdx)
  | retry {fullIdx} (shut : Shut call.channels fullIdx) :
    Passes call (.sending fullIdx) (.rescanning fullIdx 1 .none)
  | missing {fullIdx} (gone : call.channels[fullIdx]? = .none) : Passes call (.sending fullIdx) (.returned false)
  | skipAgain {fullIdx retryOffset firstFullIdx} (shut : Shut call.channels (call.retryIdx fullIdx retryOffset)) :
    Passes call (.rescanning fullIdx retryOffset firstFullIdx) (.rescanning fullIdx (retryOffset + 1) firstFullIdx)
  | noteAgain {fullIdx retryOffset firstFullIdx} (jammed : Jammed call.channels (call.retryIdx fullIdx retryOffset)) :
    Passes call (.rescanning fullIdx retryOffset firstFullIdx)
      (.rescanning fullIdx (retryOffset + 1) (firstFullIdx.or (some (call.retryIdx fullIdx retryOffset))))
  | noneAgain {fullIdx retryOffset} : call.concurrency ≤ retryOffset →
    Passes call (.rescanning fullIdx retryOffset .none) (.returned false)
  | waitAgain {fullIdx retryOffset survivorIdx} : call.concurrency ≤ retryOffset →
    Passes call (.rescanning fullIdx retryOffset (some survivorIdx)) (.sendingSurvivor survivorIdx)
  | giveUp {survivorIdx} (shut : Shut call.channels survivorIdx) :
    Passes call (.sendingSurvivor survivorIdx) (.returned false)

theorem Passes.not_delivered {before after : CallPhase} (passes : Passes call before after) :
    after ≠ .returned true := by
  intro returned
  cases passes <;> cases returned

def Delivers (call next : Call Batch) : Prop :=
  ∃ index channel, call.channels[index]? = some channel ∧ next = call.deliver index (channel.push call.batch)

theorem trySend_cases (channel : WorkerChannel Batch) (batch : Batch) :
    channel.trySend batch = .ok (channel.push batch) ∨
      (channel.trySend batch = .error .full ∧ channel.backedUp = true) ∨
      channel.trySend batch = .error .closed ∧ channel.closed = true := by
  unfold WorkerChannel.trySend WorkerChannel.backedUp
  cases channel.closed with
  | true => simp
  | false =>
    by_cases full : channel.capacity ≤ channel.queue.length
    · simp [full]
    · simp [full]

theorem shut_of_closed {channels : List (WorkerChannel Batch)} {index : Nat} {channel : WorkerChannel Batch}
    (found : channels[index]? = some channel) (closed : channel.closed = true) : Shut channels index := by
  intro other same
  rw [found] at same
  cases same
  exact closed

theorem shut_of_none {channels : List (WorkerChannel Batch)} {index : Nat} (missing : channels[index]? = none) :
    Shut channels index := by
  intro other same
  rw [missing] at same
  cases same

theorem tryWorker_cases (index : Nat) (firstFullIdx : Option Nat) (phase : Option Nat → CallPhase)
    (stepped : call.tryWorker index firstFullIdx phase = next) :
    Delivers call next ∨ (Shut call.channels index ∧ next = call.enter (phase firstFullIdx)) ∨
      Jammed call.channels index ∧ next = call.enter (phase (firstFullIdx.or (some index))) := by
  unfold Call.tryWorker at stepped
  cases found : call.channels[index]? with
  | none =>
    simp only [found] at stepped
    exact .inr (.inl ⟨shut_of_none found, stepped.symm⟩)
  | some channel =>
    obtain sent | ⟨sent, full⟩ | ⟨sent, closed⟩ := trySend_cases channel call.batch
    · simp only [found, sent] at stepped
      exact .inl ⟨index, channel, found, stepped.symm⟩
    · simp only [found, sent] at stepped
      exact .inr (.inr ⟨⟨channel, found, full⟩, stepped.symm⟩)
    · simp only [found, sent] at stepped
      exact .inr (.inl ⟨shut_of_closed found closed, stepped.symm⟩)

theorem awaitWorker_cases (index : Nat) (failed : CallPhase) (stepped : call.awaitWorker index failed = some next) :
    Delivers call next ∨ (Shut call.channels index ∧ next = call.enter failed) ∨
      call.channels[index]? = none ∧ next = call.enter (.returned false) := by
  unfold Call.awaitWorker at stepped
  cases found : call.channels[index]? with
  | none =>
    simp only [found, Option.some.injEq] at stepped
    exact .inr (.inr ⟨rfl, stepped.symm⟩)
  | some channel =>
    obtain sent | ⟨sent, _⟩ | ⟨sent, closed⟩ := trySend_cases channel call.batch
    · simp only [found, sent, Option.some.injEq] at stepped
      exact .inl ⟨index, channel, found, stepped.symm⟩
    · simp only [found, sent, reduceCtorEq] at stepped
    · simp only [found, sent, Option.some.injEq] at stepped
      exact .inr (.inl ⟨shut_of_closed found closed, stepped.symm⟩)

theorem advance_cases (stepped : call.advance = some next) :
    (Delivers call next ∨ ∃ phase, Passes call call.phase phase ∧ next = call.enter phase) ∧
      ∀ routed, call.phase ≠ .returned routed := by
  unfold Call.advance at stepped
  cases phase : call.phase with
  | scanning offset firstFullIdx =>
    refine ⟨?_, fun _ => CallPhase.noConfusion⟩
    simp only [phase] at stepped
    split at stepped
    · rename_i more
      obtain delivered | ⟨shut, rfl⟩ | ⟨jammed, rfl⟩ := tryWorker_cases _ _ _ (Option.some.inj stepped)
      · exact .inl delivered
      · exact .inr ⟨_, .skip shut more, rfl⟩
      · exact .inr ⟨_, .note jammed, rfl⟩
    · rename_i past
      cases firstFullIdx with
      | none =>
        cases stepped
        exact .inr ⟨_, .none (Nat.le_of_not_lt past), rfl⟩
      | some fullIdx =>
        cases stepped
        exact .inr ⟨_, .wait (Nat.le_of_not_lt past), rfl⟩
  | sending fullIdx =>
    refine ⟨?_, fun _ => CallPhase.noConfusion⟩
    simp only [phase] at stepped
    obtain delivered | ⟨shut, rfl⟩ | ⟨gone, rfl⟩ := awaitWorker_cases _ _ stepped
    · exact .inl delivered
    · exact .inr ⟨_, .retry shut, rfl⟩
    · exact .inr ⟨_, .missing gone, rfl⟩
  | rescanning fullIdx retryOffset firstFullIdx =>
    refine ⟨?_, fun _ => CallPhase.noConfusion⟩
    simp only [phase] at stepped
    split at stepped
    · obtain delivered | ⟨shut, rfl⟩ | ⟨jammed, rfl⟩ := tryWorker_cases _ _ _ (Option.some.inj stepped)
      · exact .inl delivered
      · exact .inr ⟨_, .skipAgain shut, rfl⟩
      · exact .inr ⟨_, .noteAgain jammed, rfl⟩
    · rename_i past
      cases firstFullIdx with
      | none =>
        cases stepped
        exact .inr ⟨_, .noneAgain (Nat.le_of_not_lt past), rfl⟩
      | some survivorIdx =>
        cases stepped
        exact .inr ⟨_, .waitAgain (Nat.le_of_not_lt past), rfl⟩
  | sendingSurvivor survivorIdx =>
    refine ⟨?_, fun _ => CallPhase.noConfusion⟩
    simp only [phase] at stepped
    obtain delivered | ⟨shut, rfl⟩ | ⟨gone, rfl⟩ := awaitWorker_cases _ _ stepped
    · exact .inl delivered
    · exact .inr ⟨_, .giveUp shut, rfl⟩
    · exact .inr ⟨_, .giveUp (shut_of_none gone), rfl⟩
  | returned routed => simp only [phase, reduceCtorEq] at stepped

end Cases

theorem retryIdx_covers (call : Call Batch) (bound : call.concurrency ≤ isizeMax) {fullIdx index : Nat}
    (full : fullIdx < call.concurrency) (inside : index < call.concurrency) (other : index ≠ fullIdx) :
    ∃ retryOffset, 1 ≤ retryOffset ∧ retryOffset < call.concurrency ∧ call.retryIdx fullIdx retryOffset = index := by
  have unsaturated : ∀ {sum : Nat}, sum < 2 * call.concurrency → min sum usizeMax = sum := by
    intro sum small
    simp only [isizeMax, usizeMax] at bound ⊢
    omega
  by_cases behind : fullIdx < index
  · refine ⟨index - fullIdx, by omega, by omega, ?_⟩
    have sum : fullIdx + (index - fullIdx) = index := by omega
    rw [Call.retryIdx, saturatingAdd, sum, unsaturated (by omega), Nat.mod_eq_of_lt inside]
  · refine ⟨index + call.concurrency - fullIdx, by omega, by omega, ?_⟩
    have sum : fullIdx + (index + call.concurrency - fullIdx) = index + call.concurrency := by omega
    rw [Call.retryIdx, saturatingAdd, sum, unsaturated (by omega), Nat.add_mod_right, Nat.mod_eq_of_lt inside]

section Progress

/-- What is known in each phase of a call, of the channels as they are and as they were at its start. -/
def PhaseHolds (start : Call Batch) (channels : List (WorkerChannel Batch)) : CallPhase → Prop
  | .scanning offset firstFullIdx =>
    (firstFullIdx = none → ∀ earlier < offset, Shut channels (start.scanIdx earlier)) ∧
      ∀ fullIdx ∈ firstFullIdx, Jammed start.channels fullIdx
  | .sending fullIdx => Jammed start.channels fullIdx
  | .rescanning fullIdx retryOffset firstFullIdx =>
    Jammed start.channels fullIdx ∧ Shut channels fullIdx ∧
      (∀ earlier, 1 ≤ earlier → earlier < retryOffset → Shut channels (start.retryIdx fullIdx earlier) ∨
        firstFullIdx = some (start.retryIdx fullIdx earlier)) ∧
      ∀ survivorIdx ∈ firstFullIdx, Jammed start.channels survivorIdx ∧ survivorIdx ≠ fullIdx
  | .sendingSurvivor survivorIdx => ∀ index, index ≠ survivorIdx → Shut channels index
  | .returned routed => routed = false → ∀ index, Shut channels index

theorem PhaseHolds.later {start : Call Batch} {before after : List (WorkerChannel Batch)} {phase : CallPhase}
    (holds : PhaseHolds start before phase) (worn : List.Forall₂ Worn before after) : PhaseHolds start after phase := by
  cases phase with
  | scanning offset firstFullIdx => exact ⟨fun none earlier less => (holds.1 none earlier less).later worn, holds.2⟩
  | sending fullIdx => exact holds
  | rescanning fullIdx retryOffset firstFullIdx =>
    obtain ⟨jammed, shut, visited, survivors⟩ := holds
    exact ⟨jammed, shut.later worn, fun earlier one less => (visited earlier one less).imp_left (·.later worn), survivors⟩
  | sendingSurvivor survivorIdx => exact fun index other => (holds index other).later worn
  | returned routed => exact fun failed index => (holds failed index).later worn

structure Intact (start call : Call Batch) : Prop where
  batch : call.batch = start.batch
  concurrency : call.concurrency = start.concurrency
  nextWorker : call.nextWorker = start.nextWorker
  worn : List.Forall₂ Worn start.channels call.channels

variable {start call next : Call Batch}

theorem passes_holds (counted : start.concurrency = start.channels.length)
    (bound : start.channels.length ≤ isizeMax) (few : AtMostTwoJammed start.channels) (scanned : Scanned start)
    (intact : Intact start call) {before after : CallPhase} (passes : Passes call before after)
    (holds : PhaseHolds start call.channels before) : PhaseHolds start call.channels after := by
  have scanIdx : ∀ offset, call.scanIdx offset = start.scanIdx offset := by
    intro offset
    rw [Call.scanIdx, Call.scanIdx, intact.nextWorker, intact.concurrency]
  have retryIdx : ∀ fullIdx offset, call.retryIdx fullIdx offset = start.retryIdx fullIdx offset := by
    intro fullIdx offset
    rw [Call.retryIdx, Call.retryIdx, intact.concurrency]
  have length := intact.worn.length_eq
  have outside : ∀ index, ¬ index < start.concurrency → Shut call.channels index := by
    intro index beyond
    exact shut_of_none (List.getElem?_eq_none (by omega))
  cases passes with
  | @skip offset firstFullIdx shut _ =>
    refine ⟨fun none earlier less => ?_, holds.2⟩
    obtain less | rfl := Nat.lt_succ_iff_lt_or_eq.mp less
    · exact holds.1 none earlier less
    · exact scanIdx earlier ▸ shut
  | @note offset firstFullIdx jammed =>
    cases firstFullIdx with
    | none =>
      refine ⟨(fun none => by cases none), fun fullIdx noted => ?_⟩
      cases noted
      exact jammed.earlier intact.worn
    | some fullIdx => exact ⟨(fun none => by cases none), holds.2⟩
  | @none offset past =>
    intro _ index
    by_cases early : Shut start.channels index
    · exact early.later intact.worn
    by_cases inside : index < start.concurrency
    · obtain ⟨earlier, less, rfl⟩ := scanned index (by omega) early
      exact holds.1 rfl earlier (by have := intact.concurrency; omega)
    · exact outside index inside
  | @wait offset fullIdx _ => exact holds.2 fullIdx rfl
  | @retry fullIdx shut =>
    exact ⟨holds, shut, fun earlier one less => absurd one (by omega), fun _ none => by cases none⟩
  | @missing fullIdx gone =>
    have inside := holds.lt
    have beyond := List.getElem?_eq_none_iff.mp gone
    omega
  | @skipAgain fullIdx retryOffset firstFullIdx shut =>
    obtain ⟨jammed, failed, visited, survivors⟩ := holds
    refine ⟨jammed, failed, fun earlier one less => ?_, survivors⟩
    obtain less | rfl := Nat.lt_succ_iff_lt_or_eq.mp less
    · exact visited earlier one less
    · exact .inl (retryIdx _ _ ▸ shut)
  | @noteAgain fullIdx retryOffset firstFullIdx jammed' =>
    obtain ⟨jammed, failed, visited, survivors⟩ := holds
    rw [retryIdx] at jammed' ⊢
    have fresh : start.retryIdx fullIdx retryOffset ≠ fullIdx := by
      intro same
      exact (same ▸ jammed').not_shut failed
    have early := jammed'.earlier intact.worn
    cases firstFullIdx with
    | none =>
      refine ⟨jammed, failed, fun earlier one less => ?_, fun survivorIdx noted => ?_⟩
      · obtain less | rfl := Nat.lt_succ_iff_lt_or_eq.mp less
        · exact (visited earlier one less).imp_right (fun none => by cases none)
        · exact .inr rfl
      · cases noted
        exact ⟨early, fresh⟩
    | some survivorIdx =>
      refine ⟨jammed, failed, fun earlier one less => ?_, survivors⟩
      obtain less | rfl := Nat.lt_succ_iff_lt_or_eq.mp less
      · exact visited earlier one less
      -- a second survivor would be a third channel that is full
      · obtain ⟨second, other⟩ := survivors survivorIdx rfl
        obtain same | same | same := few _ _ _ jammed second early
        · exact absurd same.symm other
        · exact absurd same.symm fresh
        · exact .inr (congrArg some same)
  | @noneAgain fullIdx retryOffset past =>
    obtain ⟨jammed, failed, visited, _⟩ := holds
    intro _ index
    by_cases same : index = fullIdx
    · exact same ▸ failed
    by_cases inside : index < start.concurrency
    · obtain ⟨earlier, one, less, rfl⟩ := retryIdx_covers start (counted ▸ bound) (counted ▸ jammed.lt) inside same
      exact (visited earlier one (by have := intact.concurrency; omega)).resolve_right (fun none => by cases none)
    · exact outside index inside
  | @waitAgain fullIdx retryOffset survivorIdx past =>
    obtain ⟨jammed, failed, visited, _⟩ := holds
    intro index other
    by_cases same : index = fullIdx
    · exact same ▸ failed
    by_cases inside : index < start.concurrency
    · obtain ⟨earlier, one, less, rfl⟩ := retryIdx_covers start (counted ▸ bound) (counted ▸ jammed.lt) inside same
      exact (visited earlier one (by have := intact.concurrency; omega)).resolve_right
        fun noted => other (Option.some.inj noted).symm
    · exact outside index inside
  | @giveUp survivorIdx shut =>
    intro _ index
    by_cases same : index = survivorIdx
    · exact same ▸ shut
    · exact holds index same

theorem worker_worn {move : CallMove} (other : move ≠ .advance) (stepped : call.step move = some next) :
    ∃ channels, List.Forall₂ Worn call.channels channels ∧ next = { call with channels := channels } := by
  cases move with
  | advance => exact absurd rfl other
  | drain index =>
    simp only [Call.step, Option.bind_eq_some_iff, Option.map_eq_some_iff] at stepped
    obtain ⟨channel, found, drained, took, rfl⟩ := stepped
    exact ⟨_, worn_set found (.drain took), rfl⟩
  | close index =>
    simp only [Call.step, Option.map_eq_some_iff] at stepped
    obtain ⟨channel, found, rfl⟩ := stepped
    exact ⟨_, worn_set found (.close channel), rfl⟩

theorem historyOf_worn (same : List.Forall₂ Worn call.channels next.channels) (index : Nat) :
    next.historyOf index = call.historyOf index := by
  have histories : next.channels.map (·.history) = call.channels.map (·.history) := by
    refine List.ext_getElem (by simp [same.length_eq]) fun position first second => ?_
    rw [List.length_map] at first second
    simpa using (same.get second first).history
  simp only [Call.historyOf, ← List.getElem?_map, histories]

def Placed (start call : Call Batch) : Prop :=
  ∃ index < start.channels.length, ∀ other,
    call.historyOf other = if other = index then start.historyOf other ++ [start.batch] else start.historyOf other

theorem Intact.delivers (intact : Intact start call) (delivers : Delivers call next) :
    next.phase = .returned true ∧ Placed start next := by
  obtain ⟨index, channel, found, rfl⟩ := delivers
  obtain ⟨inside, own⟩ := List.getElem?_eq_some_iff.mp found
  refine ⟨rfl, index, by rwa [intact.worn.length_eq], fun other => ?_⟩
  rw [← historyOf_worn intact.worn other]
  simp only [Call.deliver, Call.historyOf, List.getElem?_set]
  by_cases same : index = other
  · subst same
    simp [inside, own, WorkerChannel.history, WorkerChannel.push, intact.batch]
  · simp [same, Ne.symm same]

/-- The batch is placed, or it is not and what is known in the phase of the call holds. -/
def Progress (start call : Call Batch) : Prop :=
  (call.phase = .returned true ∧ Placed start call) ∨
    (call.phase ≠ .returned true ∧ Intact start call ∧ PhaseHolds start call.channels call.phase)

theorem step_progress (counted : start.concurrency = start.channels.length)
    (bound : start.channels.length ≤ isizeMax) (few : AtMostTwoJammed start.channels) (scanned : Scanned start)
    {move : CallMove} (progress : Progress start call) (stepped : call.step move = some next) :
    Progress start next := by
  by_cases own : move = .advance
  · subst own
    obtain ⟨moved, going⟩ := advance_cases stepped
    obtain ⟨returned, _⟩ | ⟨_, intact, holds⟩ := progress
    · exact absurd returned (going true)
    obtain delivers | ⟨phase, passes, rfl⟩ := moved
    · exact .inl (intact.delivers delivers)
    · exact .inr ⟨passes.not_delivered, ⟨intact.batch, intact.concurrency, intact.nextWorker, intact.worn⟩,
        passes_holds counted bound few scanned intact passes holds⟩
  · obtain ⟨channels, worn, rfl⟩ := worker_worn own stepped
    obtain ⟨returned, index, inside, histories⟩ | ⟨going, intact, holds⟩ := progress
    · refine .inl ⟨returned, index, inside, fun other => ?_⟩
      rw [historyOf_worn worn other, histories other]
    · exact .inr ⟨going, ⟨intact.batch, intact.concurrency, intact.nextWorker, worn_trans intact.worn worn⟩,
        holds.later worn⟩

theorem progress_settles (progress : Progress start call) : Settles start call := by
  obtain ⟨returned, placed⟩ | ⟨going, intact, holds⟩ := progress
  · exact ⟨fun _ => placed, fun going => absurd returned going, fun failed => by rw [returned] at failed; cases failed⟩
  · refine ⟨fun returned => absurd returned going, fun _ other => historyOf_worn intact.worn other, ?_⟩
    intro failed channel member
    rw [failed] at holds
    obtain ⟨index, inside, own⟩ := List.getElem_of_mem member
    exact holds rfl index channel (List.getElem?_eq_some_iff.mpr ⟨inside, own⟩)

/-- Where every open channel is scanned and no third one is full, every run of the call does as it should. -/
theorem reaches_settles (counted : start.concurrency = start.channels.length)
    (bound : start.channels.length ≤ isizeMax) (few : AtMostTwoJammed start.channels) (scanned : Scanned start)
    (fresh : start.phase = .scanning 0 none) (reaches : Reaches start call) : Settles start call := by
  have initial : Progress start start := by
    refine .inr ⟨by simp [fresh], ⟨rfl, rfl, rfl, List.forall₂_same.mpr fun channel _ => .refl channel⟩, ?_⟩
    rw [fresh]
    exact ⟨(fun _ earlier less => absurd less (Nat.not_lt_zero _)), fun _ none => by cases none⟩
  exact progress_settles (Run.invariant (Progress start) initial
    (fun _ _ _ progress _ stepped => step_progress counted bound few scanned progress stepped) reaches)

end Progress

end OtelDatalake.Wasm.DispatchBatch
