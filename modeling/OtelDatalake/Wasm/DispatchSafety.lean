import OtelDatalake.Wasm.Dispatcher

open OtelDatalake.Foundation OtelDatalake.Foundation.Interleaved

namespace OtelDatalake.Wasm

variable {Batch : Type} {setting : DispatcherSetting}

/-- What the policies say is sent for a batch. -/
def prescribed (setting : DispatcherSetting) (outcome : WorkerOutcome Batch) (batch : Batch) :
    List (Destination × Batch) :=
  match outcome with
  | .emitted batches => batches.map fun emitted => (.output, emitted)
  | .discarded => []
  | .rejected _ =>
    match setting.onReject with
    | .reroute => if setting.rerouteReject then [(.rerouteReject, batch)] else []
    | .drop => []
  | .errored _ =>
    match setting.onError with
    | .reroute => if setting.rerouteError then [(.rerouteError, batch)] else []
    | .passthrough => if setting.allowUnmaskedPassthrough then [(.output, batch)] else []
    | .drop => []

def WorkerMove.Accepted : WorkerMove Batch → Prop
  | .executed _ _ accepts | .drain accepts => ∀ destination, accepts destination = true
  | _ => True

def DispatcherMove.Accepted : DispatcherMove Batch → Prop
  | .worker _ move => move.Accepted
  | _ => True

def DispatcherMove.isAdvance : DispatcherMove Batch → Bool
  | .advance => true
  | _ => false

def DispatcherMove.failsTask : DispatcherMove Batch → Bool
  | .worker _ .taskFailed => true
  | _ => false

theorem handleErrored_prescribed {accepts : Destination → Bool} (accepted : ∀ destination, accepts destination = true)
    (batch : Batch) (reason : String) :
    handleErrored setting accepts batch = ⟨prescribed setting (.errored reason) batch, true⟩ := by
  rw [handleErrored, prescribed]
  cases setting.onError with
  | drop => rfl
  | reroute | passthrough =>
    simp only [sendTo, accepted, if_true]
    split <;> rfl

theorem handleRejected_prescribed {accepts : Destination → Bool} (accepted : ∀ destination, accepts destination = true)
    (batch : Batch) (reason : String) :
    handleRejected setting accepts batch = ⟨prescribed setting (.rejected reason) batch, true⟩ := by
  rw [handleRejected, prescribed]
  cases setting.onReject with
  | drop => rfl
  | reroute =>
    simp only [sendTo, accepted, if_true]
    split <;> rfl

theorem handleWorkerOutcome_prescribed {accepts : Destination → Bool}
    (accepted : ∀ destination, accepts destination = true) (outcome : WorkerOutcome Batch) (batch : Batch) :
    handleWorkerOutcome setting accepts outcome batch = ⟨prescribed setting outcome batch, true⟩ := by
  cases outcome with
  | emitted batches => simp [handleWorkerOutcome, sendEmitted, accepted, prescribed]
  | discarded => rfl
  | rejected reason => exact handleRejected_prescribed accepted batch reason
  | errored reason => exact handleErrored_prescribed accepted batch reason

namespace Worker

/-- A worker with nothing in its channel when it has not started yet or looks at it no more. -/
structure Quiet (worker : Worker Batch) : Prop where
  starting : worker.phase = .initializing → worker.queue = []
  leaving : worker.phase = .leaving → worker.queue = []
  ended : worker.phase = .ended → worker.queue = []
  healthy : worker.phase ≠ .drainingClosed
  reported : worker.initStatus.isSome = true → worker.phase ≠ .initializing

/-- What one step of a worker does with the batches that it has. -/
structure Disposes (setting : DispatcherSetting) (before after : Worker Batch) (disposals : List (Disposal Batch)) :
    Prop where
  quiet : after.Quiet
  balance : ∀ counted : Batch → Bool,
    before.holding.countP counted = after.holding.countP counted + (disposals.map (·.batch)).countP counted
  followed : ∀ disposal ∈ disposals, disposal.sends = prescribed setting disposal.outcome disposal.batch
  reported : before.initStatus.isSome = true → after.initStatus.isSome = true

theorem Quiet.empty {phase : WorkerPhase Batch} {initStatus : Option (Except String Unit)}
    (healthy : phase ≠ .drainingClosed) (started : phase ≠ .initializing) : Quiet ⟨phase, [], initStatus⟩ :=
  ⟨fun _ => rfl, fun _ => rfl, fun _ => rfl, healthy, fun _ => started⟩

theorem Quiet.busy {phase : WorkerPhase Batch} {queue : List Batch} {initStatus : Option (Except String Unit)}
    (busy : phase = .waiting ∨ (∃ batch, phase = .executing batch) ∨ ∃ reason, phase = .drainingErrored reason) :
    Quiet ⟨phase, queue, initStatus⟩ := by
  obtain rfl | ⟨batch, rfl⟩ | ⟨reason, rfl⟩ := busy <;>
    exact ⟨(nomatch ·), (nomatch ·), (nomatch ·), (nomatch ·), fun _ => (nomatch ·)⟩

theorem Disposes.nothing {before after : Worker Batch} (quiet : after.Quiet) (same : after.holding = before.holding)
    (reported : before.initStatus.isSome = true → after.initStatus.isSome = true) :
    before.Disposes setting after [] := by
  refine ⟨quiet, fun counted => ?_, fun disposal member => (List.not_mem_nil member).elim, reported⟩
  simp [same]

theorem Disposes.one {before after : Worker Batch} {batch : Batch} {outcome : WorkerOutcome Batch} (quiet : after.Quiet)
    (first : before.holding = batch :: after.holding)
    (reported : before.initStatus.isSome = true → after.initStatus.isSome = true) :
    before.Disposes setting after [⟨batch, outcome, prescribed setting outcome batch⟩] := by
  refine ⟨quiet, fun counted => ?_, ?_, reported⟩
  · simp only [first, List.map_cons, List.map_nil, List.countP_cons, List.countP_nil]
    omega
  · intro disposal member
    rw [List.mem_singleton.mp member]

theorem act_disposes {sending : Bool} {worker after : Worker Batch} {move : WorkerMove Batch}
    {disposals : List (Disposal Batch)} (quiet : worker.Quiet) (accepted : move.Accepted) (completes : move ≠ .taskFailed)
    (acted : worker.act setting sending move = some (after, disposals)) :
    worker.Disposes setting after disposals := by
  obtain ⟨phase, queue, initStatus⟩ := worker
  unfold act at acted
  split at acted
  · rename_i starting
    have empty := quiet.starting starting
    cases acted
    simp only at starting empty
    subst starting empty
    exact Disposes.nothing (Quiet.busy (.inl rfl)) rfl fun _ => rfl
  · rename_i starting
    have empty := quiet.starting starting
    cases acted
    simp only at starting empty
    subst starting empty
    exact Disposes.nothing (Quiet.empty (nomatch ·) (nomatch ·)) rfl fun _ => rfl
  · rename_i waiting
    simp only at waiting
    subst waiting
    split at acted
    · rename_i batch rest queued
      simp only at queued
      subst queued
      cases acted
      exact Disposes.nothing (Quiet.busy (.inr (.inl ⟨batch, rfl⟩))) rfl fun known => known
    · rename_i queued
      simp only at queued
      subst queued
      split at acted
      · cases acted
      · cases acted
        exact Disposes.nothing (Quiet.empty (nomatch ·) (nomatch ·)) rfl fun known => known
  · rename_i batch outcome _ accepts executing
    simp only at executing
    subst executing
    simp only [handleWorkerOutcome_prescribed accepted, afterBatch, if_true, Option.some.injEq, Prod.mk.injEq] at acted
    obtain ⟨rfl, rfl⟩ := acted
    exact Disposes.one (Quiet.busy (.inl rfl)) rfl fun known => known
  · rename_i batch reason rejuvenated accepts executing
    simp only at executing
    subst executing
    simp only [handleErrored_prescribed accepted batch reason, afterBatch, if_true, Option.some.injEq,
      Prod.mk.injEq] at acted
    obtain ⟨rfl, rfl⟩ := acted
    cases rejuvenated with
    | ok _ => exact Disposes.one (Quiet.busy (.inl rfl)) rfl fun known => known
    | error rejuvErr => exact Disposes.one (Quiet.busy (.inr (.inr ⟨_, rfl⟩))) rfl fun known => known
  · exact (completes rfl).elim
  · rename_i reason accepts draining
    simp only at draining
    subst draining
    split at acted
    · rename_i batch rest queued
      simp only at queued
      subst queued
      simp only [handleErrored_prescribed accepted batch reason, Option.some.injEq, Prod.mk.injEq] at acted
      obtain ⟨rfl, rfl⟩ := acted
      exact Disposes.one (Quiet.busy (.inr (.inr ⟨reason, rfl⟩))) rfl fun known => known
    · rename_i queued
      simp only at queued
      subst queued
      cases acted
      exact Disposes.nothing (Quiet.empty (nomatch ·) (nomatch ·)) rfl fun known => known
  · rename_i accepts draining
    exact (quiet.healthy draining).elim
  · rename_i leaving
    have empty := quiet.leaving leaving
    cases acted
    simp only at leaving empty
    subst leaving empty
    exact Disposes.nothing (Quiet.empty (nomatch ·) (nomatch ·)) rfl fun known => known
  · cases acted

theorem act_closed {sending : Bool} {worker : Worker Batch} {move : WorkerMove Batch} (closed : worker.closed = true) :
    worker.act setting sending move = none := by
  obtain ⟨phase, queue, initStatus⟩ := worker
  cases phase with
  | ended => cases move <;> rfl
  | _ => cases closed

theorem push_holding (worker : Worker Batch) (batch : Batch) (counted : Batch → Bool) :
    (worker.push batch).holding.countP counted = worker.holding.countP counted + [batch].countP counted := by
  obtain ⟨phase, queue, initStatus⟩ := worker
  cases phase with
  | executing current => simp only [push, holding, List.countP_cons, List.countP_append, List.countP_nil]; omega
  | _ => simp [push, holding]

theorem Quiet.push {worker : Worker Batch} {batch : Batch} (quiet : worker.Quiet)
    (reported : worker.initStatus.isSome = true)
    (staying : worker.phase ≠ .leaving) (alive : worker.closed = false) : (worker.push batch).Quiet := by
  have started := quiet.reported reported
  refine ⟨fun starting => (started starting).elim, fun leaving => (staying leaving).elim, ?_, quiet.healthy,
    fun _ => started⟩
  intro ended
  have phase : worker.phase = .ended := ended
  simp [closed, phase] at alive

end Worker

namespace DispatcherPhase

def pending : DispatcherPhase Batch → List Batch
  | .scanning batch _ _ | .sending batch _ | .rescanning batch _ _ _ | .sendingSurvivor batch _ => [batch]
  | _ => []

def failing : DispatcherPhase Batch → Bool
  | .draining (.error _) | .returned (.error _) => true
  | _ => false

def awaited (count : Nat) : DispatcherPhase Batch → Nat
  | .awaitingInit index _ _ => index
  | _ => count

theorem carrying {phase : DispatcherPhase Batch} {batch : Batch} (held : phase.pending = [batch]) :
    (∀ count, phase.awaited count = count) ∧ phase.failing = false := by
  cases phase with
  | awaitingInit _ _ _ | receiving | draining _ | returned _ => cases held
  | _ => exact ⟨fun _ => rfl, rfl⟩

end DispatcherPhase

namespace Dispatcher

/-- Everything that was received is disposed of, in the hands of the dispatcher, dropped with an error or held by a
    worker. -/
structure Sound (setting : DispatcherSetting) (dispatcher : Dispatcher Batch) : Prop where
  balance : ∀ counted : Batch → Bool,
    dispatcher.received.countP counted =
      (dispatcher.disposed.map (·.batch)).countP counted + dispatcher.phase.pending.countP counted +
      dispatcher.abandoned.countP counted + total (fun worker => worker.holding.countP counted) dispatcher.workers
  quiet : ∀ worker ∈ dispatcher.workers, worker.Quiet
  reported : ∀ index < dispatcher.phase.awaited dispatcher.workers.length, ∀ worker,
    dispatcher.workers[index]? = some worker → worker.initStatus.isSome = true
  kept : dispatcher.phase.failing = false → dispatcher.abandoned = []
  finished : dispatcher.phase = .returned (.ok ()) → ∀ worker ∈ dispatcher.workers, worker.closed = true
  followed : ∀ disposal ∈ dispatcher.disposed, disposal.sends = prescribed setting disposal.outcome disposal.batch

variable {dispatcher after : Dispatcher Batch}

theorem Sound.enter {phase : DispatcherPhase Batch} (sound : dispatcher.Sound setting)
    (same : phase.pending = dispatcher.phase.pending)
    (reported : ∀ index < phase.awaited dispatcher.workers.length, ∀ worker,
      dispatcher.workers[index]? = some worker → worker.initStatus.isSome = true)
    (kept : phase.failing = false → dispatcher.abandoned = [])
    (finished : phase = .returned (.ok ()) → ∀ worker ∈ dispatcher.workers, worker.closed = true) :
    (dispatcher.enter phase).Sound setting := by
  refine ⟨?_, sound.quiet, reported, kept, finished, sound.followed⟩
  intro counted
  simpa only [Dispatcher.enter, same] using sound.balance counted

theorem Sound.worker {index : Nat} {move : WorkerMove Batch} (sound : dispatcher.Sound setting)
    (accepted : move.Accepted) (completes : (DispatcherMove.worker index move).failsTask = false)
    (stepped : dispatcher.step setting (.worker index move) = some after) : after.Sound setting := by
  simp only [Dispatcher.step, Option.bind_eq_some_iff, Option.map_eq_some_iff] at stepped
  obtain ⟨worker, found, ⟨next, disposals⟩, acted, rfl⟩ := stepped
  obtain ⟨left, right, split, rfl⟩ := getElem?_split found
  have member : worker ∈ dispatcher.workers := List.mem_of_getElem? found
  have disposes := Worker.act_disposes (sound.quiet worker member) accepted (by rintro rfl; cases completes) acted
  have moved : dispatcher.workers.set left.length next = left ++ next :: right := by rw [split, set_split]
  refine ⟨?_, ?_, ?_, sound.kept, ?_, ?_⟩
  · intro counted
    have before := sound.balance counted
    have step := disposes.balance counted
    rw [split, total_append, total_cons] at before
    simp only [moved, total_append, total_cons, List.map_append, List.countP_append]
    omega
  · simp only [moved]
    exact forall_moved (split ▸ sound.quiet) disposes.quiet
  · intro place bound other known
    simp only [List.length_set] at bound
    simp only [List.getElem?_set] at known
    split at known
    · rename_i same
      subst same
      have started := sound.reported left.length bound worker found
      split at known
      · cases known
        exact disposes.reported started
      · cases known
    · exact sound.reported place bound other known
  · intro returned
    have closed := sound.finished returned worker member
    rw [Worker.act_closed closed] at acted
    cases acted
  · intro disposal listed
    obtain before | new := List.mem_append.mp listed
    · exact sound.followed disposal before
    · exact disposes.followed disposal new

theorem Sound.deliver {index : Nat} {worker : Worker Batch} {batch : Batch} (sound : dispatcher.Sound setting)
    (found : dispatcher.workers[index]? = some worker) (held : dispatcher.phase.pending = [batch])
    (staying : worker.phase ≠ .leaving) (alive : worker.closed = false) :
    (dispatcher.deliver index worker batch).Sound setting := by
  obtain ⟨running, working⟩ := DispatcherPhase.carrying held
  obtain ⟨left, right, split, rfl⟩ := getElem?_split found
  have member : worker ∈ dispatcher.workers := List.mem_of_getElem? found
  have bound : left.length < dispatcher.workers.length := (List.getElem?_eq_some_iff.mp found).1
  have started := sound.reported left.length (by rwa [running]) worker found
  have moved : dispatcher.workers.set left.length (worker.push batch) = left ++ worker.push batch :: right := by
    rw [split, set_split]
  refine ⟨?_, ?_, ?_, fun _ => sound.kept working, (nomatch ·), sound.followed⟩
  · intro counted
    have before := sound.balance counted
    have pushed := worker.push_holding batch counted
    rw [split, total_append, total_cons, held] at before
    simp only [Dispatcher.deliver, moved, total_append, total_cons, DispatcherPhase.pending, List.countP_nil]
    omega
  · simp only [Dispatcher.deliver, moved]
    exact forall_moved (split ▸ sound.quiet) ((sound.quiet worker member).push started staying alive)
  · intro place within other known
    simp only [Dispatcher.deliver, DispatcherPhase.awaited, List.length_set] at within
    simp only [Dispatcher.deliver, List.getElem?_set] at known
    split at known
    · cases known
      exact started
    · exact sound.reported place (by rwa [running]) other known

theorem Sound.abandon {batch : Batch} (sound : dispatcher.Sound setting) (held : dispatcher.phase.pending = [batch]) :
    (dispatcher.abandon batch).Sound setting := by
  have running := (DispatcherPhase.carrying held).1
  refine ⟨?_, sound.quiet, ?_, (nomatch ·), (nomatch ·), sound.followed⟩
  · intro counted
    have before := sound.balance counted
    rw [held] at before
    simp only [Dispatcher.abandon, DispatcherPhase.pending, List.countP_nil, List.countP_append]
    omega
  · intro index bound
    exact sound.reported index (by rwa [running])

theorem Sound.carry {phase : DispatcherPhase Batch} {batch : Batch} (sound : dispatcher.Sound setting)
    (held : dispatcher.phase.pending = [batch]) (still : phase.pending = [batch]) :
    (dispatcher.enter phase).Sound setting := by
  obtain ⟨running, working⟩ := DispatcherPhase.carrying held
  have awaited := (DispatcherPhase.carrying still).1
  refine sound.enter (still.trans held.symm) ?_ (fun _ => sound.kept working) ?_
  · intro index bound
    exact sound.reported index (by rwa [running, ← awaited dispatcher.workers.length])
  · rintro rfl
    cases still

def target (dispatcher : Dispatcher Batch) : Option Nat :=
  let concurrency := dispatcher.workers.length
  match dispatcher.phase with
  | .scanning _ offset _ => if offset < concurrency then some ((dispatcher.nextWorker + offset) % concurrency) else none
  | .sending _ fullIdx => some fullIdx
  | .rescanning _ fullIdx retryOffset _ =>
    if retryOffset < concurrency then some ((fullIdx + retryOffset) % concurrency) else none
  | .sendingSurvivor _ survivorIdx => some survivorIdx
  | _ => none

def Punctual (dispatcher : Dispatcher Batch) : Prop :=
  ∀ index ∈ dispatcher.target, ∀ worker ∈ dispatcher.workers[index]?, worker.phase ≠ .leaving

theorem Sound.trySend {index : Nat} {batch : Batch} {firstFullIdx : Option Nat}
    {next : Option Nat → DispatcherPhase Batch} (sound : dispatcher.Sound setting) (punctual : dispatcher.Punctual)
    (tried : dispatcher.target = some index) (held : dispatcher.phase.pending = [batch])
    (still : ∀ firstFullIdx, (next firstFullIdx).pending = [batch]) :
    (dispatcher.trySend setting index batch firstFullIdx next).Sound setting := by
  unfold Dispatcher.trySend
  split
  · exact sound.carry held (still _)
  · rename_i worker found
    have staying := punctual index tried worker found
    unfold channel
    cases alive : worker.closed with
    | true => exact sound.carry held (still _)
    | false =>
      simp only [Bool.false_eq_true, if_false]
      by_cases full : cap setting ≤ worker.queue.length
      · simp only [if_pos full]
        exact sound.carry held (still _)
      · simp only [if_neg full]
        exact sound.deliver found held staying alive

theorem Sound.awaitSend {index : Nat} {batch : Batch} {failed : Dispatcher Batch} (sound : dispatcher.Sound setting)
    (punctual : dispatcher.Punctual) (tried : dispatcher.target = some index)
    (held : dispatcher.phase.pending = [batch]) (otherwise : failed.Sound setting)
    (sent : dispatcher.awaitSend setting index batch failed = some after) : after.Sound setting := by
  unfold Dispatcher.awaitSend at sent
  split at sent
  · cases sent
    exact sound.abandon held
  · rename_i worker found
    have staying := punctual index tried worker found
    unfold channel at sent
    cases alive : worker.closed with
    | true =>
      simp only [alive, if_true, Option.some.injEq] at sent
      subst sent
      exact otherwise
    | false =>
      simp only [alive, Bool.false_eq_true, if_false] at sent
      by_cases full : cap setting ≤ worker.queue.length
      · simp only [if_pos full] at sent
        cases sent
      · simp only [if_neg full, Option.some.injEq] at sent
        subst sent
        exact sound.deliver found held staying alive

theorem Sound.awaitInit {index successfulWorkers : Nat} {lastErr : String} (sound : dispatcher.Sound setting)
    (standing : dispatcher.phase = .awaitingInit index successfulWorkers lastErr)
    (awaited : dispatcher.awaitInit index successfulWorkers lastErr = some after) : after.Sound setting := by
  have reported := sound.reported
  have kept : dispatcher.abandoned = [] := sound.kept (by rw [standing]; rfl)
  have pending : dispatcher.phase.pending = [] := by rw [standing]; rfl
  rw [standing] at reported
  unfold Dispatcher.awaitInit at awaited
  split at awaited
  · rename_i worker found
    obtain ⟨status, known, rfl⟩ := Option.map_eq_some_iff.mp awaited
    have next : ∀ place < index + 1, ∀ other, dispatcher.workers[place]? = some other →
        other.initStatus.isSome = true := by
      intro place bound other there
      by_cases earlier : place < index
      · exact reported place earlier other there
      · have same : place = index := by omega
        rw [same, found] at there
        cases there
        rw [known]
        rfl
    cases status with
    | ok _ => exact sound.enter pending.symm next (fun _ => kept) (nomatch ·)
    | error reason => exact sound.enter pending.symm next (fun _ => kept) (nomatch ·)
  · rename_i missing
    have all : ∀ place < dispatcher.workers.length, ∀ other, dispatcher.workers[place]? = some other →
        other.initStatus.isSome = true := by
      intro place bound other there
      exact reported place (Nat.lt_of_lt_of_le bound (List.getElem?_eq_none_iff.mp missing)) other there
    split at awaited
    · cases awaited
      exact sound.enter pending.symm all (nomatch ·) (nomatch ·)
    · cases awaited
      exact sound.enter pending.symm all (fun _ => kept) (nomatch ·)

theorem Sound.advance (sound : dispatcher.Sound setting) (punctual : dispatcher.Punctual)
    (stepped : dispatcher.advance setting = some after) : after.Sound setting := by
  unfold Dispatcher.advance at stepped
  simp only at stepped
  split at stepped
  · rename_i index successfulWorkers lastErr standing
    exact sound.awaitInit standing stepped
  · cases stepped
  · rename_i batch offset firstFullIdx standing
    have held : dispatcher.phase.pending = [batch] := by rw [standing]; rfl
    split at stepped
    · rename_i more
      cases stepped
      exact sound.trySend punctual (by simp only [target, standing, if_pos more]) held fun _ => rfl
    · split at stepped
      · cases stepped
        exact sound.carry held rfl
      · cases stepped
        exact sound.abandon held
  · rename_i batch fullIdx standing
    have held : dispatcher.phase.pending = [batch] := by rw [standing]; rfl
    exact sound.awaitSend punctual (by simp only [target, standing]) held (sound.carry held rfl) stepped
  · rename_i batch fullIdx retryOffset firstFullIdx standing
    have held : dispatcher.phase.pending = [batch] := by rw [standing]; rfl
    split at stepped
    · rename_i more
      cases stepped
      exact sound.trySend punctual (by simp only [target, standing, if_pos more]) held fun _ => rfl
    · split at stepped
      · cases stepped
        exact sound.carry held rfl
      · cases stepped
        exact sound.abandon held
  · rename_i batch survivorIdx standing
    have held : dispatcher.phase.pending = [batch] := by rw [standing]; rfl
    exact sound.awaitSend punctual (by simp only [target, standing]) held (sound.abandon held) stepped
  · rename_i result standing
    have reported := sound.reported
    have kept := sound.kept
    rw [standing] at reported kept
    split at stepped
    · rename_i closed
      cases stepped
      refine sound.enter (by rw [standing]; rfl) reported ?_ fun _ => List.all_eq_true.mp closed
      cases result with
      | ok _ => exact fun _ => kept rfl
      | error _ => exact (nomatch ·)
    · cases stepped
  · cases stepped

theorem Sound.take {batch : Option Batch} (sound : dispatcher.Sound setting)
    (taken : dispatcher.take batch = some after) : after.Sound setting := by
  unfold Dispatcher.take at taken
  split at taken
  · rename_i standing
    have reported := sound.reported
    have kept := sound.kept
    rw [standing] at reported kept
    split at taken
    · rename_i batch
      cases taken
      refine ⟨?_, sound.quiet, reported, fun _ => kept rfl, (nomatch ·), sound.followed⟩
      intro counted
      have before := sound.balance counted
      simp only [standing, DispatcherPhase.pending, List.countP_nil] at before
      simp only [DispatcherPhase.pending, List.countP_append]
      omega
    · cases taken
      exact sound.enter (by rw [standing]; rfl) reported (fun _ => kept rfl) (nomatch ·)
  · cases taken

theorem spawnWorkers_sound : (spawnWorkers setting : Dispatcher Batch).Sound setting := by
  have spawned : ∀ worker ∈ (spawnWorkers setting : Dispatcher Batch).workers, worker = Worker.spawned :=
    fun worker member => List.eq_of_mem_replicate member
  refine ⟨?_, ?_, fun index bound => (Nat.not_lt_zero index bound).elim, fun _ => rfl, ?_,
    fun _ member => (List.not_mem_nil member).elim⟩
  · intro counted
    simp [spawnWorkers, total, DispatcherPhase.pending, Worker.holding, Worker.spawned]
  · intro worker member
    rw [spawned worker member]
    refine ⟨fun _ => rfl, ?_, ?_, ?_, ?_⟩ <;> intro other <;> cases other
  · intro stopped
    cases stopped

/-- Sends succeed, no blocking task panics, and a batch is sent to no worker that is leaving. -/
def Permitted (dispatcher : Dispatcher Batch) (move : DispatcherMove Batch) : Prop :=
  move.Accepted ∧ move.failsTask = false ∧ (move.isAdvance = true → dispatcher.Punctual)

theorem Sound.step {move : DispatcherMove Batch} (sound : dispatcher.Sound setting)
    (permitted : dispatcher.Permitted move) (stepped : dispatcher.step setting move = some after) :
    after.Sound setting := by
  cases move with
  | input batch => exact sound.take stepped
  | advance => exact sound.advance (permitted.2.2 rfl) stepped
  | worker index move => exact sound.worker permitted.1 permitted.2.1 stepped

/-- Nothing is left in the channel of a worker that has ended, and once `run` has returned `Ok`, every batch received
    was disposed of exactly once, as the policies say. -/
def LosesNothing (setting : DispatcherSetting) (dispatcher : Dispatcher Batch) : Prop :=
  (∀ worker ∈ dispatcher.workers, worker.closed = true → worker.queue = []) ∧
  (dispatcher.phase = .returned (.ok ()) →
    (dispatcher.disposed.map (·.batch)).Perm dispatcher.received ∧
    ∀ disposal ∈ dispatcher.disposed, disposal.sends = prescribed setting disposal.outcome disposal.batch)

theorem Worker.Quiet.closed {worker : Worker Batch} (quiet : worker.Quiet) (closed : worker.closed = true) :
    worker.holding = [] := by
  obtain ⟨phase, queue, initStatus⟩ := worker
  cases phase with
  | ended => exact quiet.ended rfl
  | _ => cases closed

theorem Sound.losesNothing (sound : dispatcher.Sound setting) : dispatcher.LosesNothing setting := by
  refine ⟨?_, ?_⟩
  · intro worker member closed
    have empty := Worker.Quiet.closed (sound.quiet worker member) closed
    unfold Worker.holding at empty
    split at empty
    · cases empty
    · exact empty
  · intro returned
    refine ⟨?_, sound.followed⟩
    classical
    rw [List.perm_iff_count]
    intro batch
    have balance := sound.balance (· == batch)
    have kept := sound.kept (by rw [returned]; rfl)
    have none : total (fun worker => worker.holding.countP (· == batch)) dispatcher.workers = 0 := by
      refine List.sum_eq_zero ?_
      intro count member
      obtain ⟨worker, listed, rfl⟩ := List.mem_map.mp member
      rw [Worker.Quiet.closed (sound.quiet worker listed) (sound.finished returned worker listed), List.countP_nil]
    simp only [returned, DispatcherPhase.pending, kept, none, List.countP_nil] at balance
    simp only [List.count]
    omega

end Dispatcher

abbrev PunctualRun (setting : DispatcherSetting) : Dispatcher Batch → Dispatcher Batch → Prop :=
  Run (Dispatcher.step setting) Dispatcher.Permitted

theorem punctual_run_loses_nothing (setting : DispatcherSetting) (dispatcher : Dispatcher Batch)
    (run : PunctualRun setting (Dispatcher.spawnWorkers setting) dispatcher) : dispatcher.LosesNothing setting := by
  have sound : dispatcher.Sound setting :=
    Run.invariant (Dispatcher.Sound setting) Dispatcher.spawnWorkers_sound
      (fun _ _ _ sound permitted stepped => sound.step permitted stepped) run
  exact sound.losesNothing

/-- Two workers with a channel for one batch each; errors are dropped. -/
def twoWorkers : DispatcherSetting := ⟨2, 1, .drop, .drop, false, false, false⟩

/-- Both workers start, the first one traps and cannot be rejuvenated, and two batches come in. -/
def trappedWorker : List (DispatcherMove Nat) :=
  [.worker 0 (.initialized (.ok ())), .worker 1 (.initialized (.ok ())), .advance, .advance, .advance,
   .input (some 7), .advance, .worker 0 .receive,
   .worker 0 (.executed (.error "trap") (.error "out of memory") fun _ => true), .worker 0 (.drain fun _ => true),
   .worker 0 .dropReceiver, .input (some 8), .advance, .worker 1 .receive,
   .worker 1 (.executed (.ok (.emitted [9])) (.ok ()) fun _ => true), .input none, .worker 1 .receive, .advance]

instance (move : WorkerMove Batch) : Decidable move.Accepted :=
  match move with
  | .executed _ _ accepts | .drain accepts =>
    decidable_of_iff (accepts .output = true ∧ accepts .rerouteError = true ∧ accepts .rerouteReject = true)
      ⟨fun all destination => by cases destination <;> simp [all], fun all => ⟨all _, all _, all _⟩⟩
  | .initialized _ | .receive | .taskFailed | .dropReceiver => isTrue trivial

instance (dispatcher : Dispatcher Nat) : Decidable dispatcher.Punctual :=
  inferInstanceAs (Decidable (∀ index ∈ dispatcher.target, ∀ worker ∈ dispatcher.workers[index]?, worker.phase ≠ .leaving))

instance (move : DispatcherMove Batch) : Decidable move.Accepted :=
  match move with
  | .worker _ move => inferInstanceAs (Decidable move.Accepted)
  | .input _ | .advance => isTrue trivial

instance (dispatcher : Dispatcher Nat) (move : DispatcherMove Nat) : Decidable (dispatcher.Permitted move) :=
  inferInstanceAs (Decidable (_ ∧ _))

def Dispatcher.seen (dispatcher : Dispatcher Nat) : Bool × List Nat × List Nat :=
  (match dispatcher.phase with
    | .returned (.ok ()) => true
    | _ => false, dispatcher.received, dispatcher.disposed.map (·.batch))

theorem Dispatcher.seen_returned {dispatcher : Dispatcher Nat} {received disposed : List Nat}
    (seen : dispatcher.seen = (true, received, disposed)) :
    dispatcher.phase = .returned (.ok ()) ∧ dispatcher.received = received ∧
      dispatcher.disposed.map (·.batch) = disposed := by
  simp only [Dispatcher.seen, Prod.mk.injEq] at seen
  refine ⟨?_, seen.2⟩
  have returned := seen.1
  split at returned
  · rename_i phase
    exact phase
  · cases returned

theorem trappedWorker_loses_nothing : ∃ dispatcher : Dispatcher Nat,
    PunctualRun twoWorkers (Dispatcher.spawnWorkers twoWorkers) dispatcher ∧
      dispatcher.phase = .returned (.ok ()) ∧ (dispatcher.disposed.map (·.batch)).Perm [7, 8] := by
  have executed : (executePermitted (Dispatcher.step twoWorkers) Dispatcher.Permitted
      (Dispatcher.spawnWorkers twoWorkers) trappedWorker).map Dispatcher.seen = some (true, [7, 8], [7, 8]) := by
    decide
  obtain ⟨dispatcher, reached, seen⟩ := Option.map_eq_some_iff.mp executed
  have run : PunctualRun twoWorkers (Dispatcher.spawnWorkers twoWorkers) dispatcher :=
    executePermitted_run _ _ trappedWorker reached
  obtain ⟨returned, received, -⟩ := Dispatcher.seen_returned seen
  have disposed := ((punctual_run_loses_nothing twoWorkers dispatcher run).2 returned).1
  exact ⟨dispatcher, run, returned, received ▸ disposed⟩

/-- The first worker fails to start, and a batch comes into its channel before the receiver is dropped. -/
def failedWorker : List (DispatcherMove Nat) :=
  [.worker 1 (.initialized (.ok ())), .worker 0 (.initialized (.error "missing export")), .advance, .advance, .advance,
   .input (some 7), .advance, .worker 0 .dropReceiver, .input none, .worker 1 .receive, .advance]

/-- A batch that is sent to a worker that is leaving is lost while `run` returns `Ok`. -/
theorem leaving_worker_loses_batch :
    ¬∀ (setting : DispatcherSetting) (dispatcher : Dispatcher Nat),
      Run (Dispatcher.step setting) (fun _ => DispatcherMove.Accepted) (Dispatcher.spawnWorkers setting) dispatcher →
      dispatcher.LosesNothing setting := by
  intro claimed
  have executed : (executePermitted (Dispatcher.step twoWorkers) (fun _ => DispatcherMove.Accepted)
      (Dispatcher.spawnWorkers twoWorkers) failedWorker).map Dispatcher.seen = some (true, [7], []) := by
    decide
  obtain ⟨dispatcher, reached, seen⟩ := Option.map_eq_some_iff.mp executed
  have run := executePermitted_run (Dispatcher.step twoWorkers) (fun _ => DispatcherMove.Accepted) failedWorker reached
  obtain ⟨returned, received, disposed⟩ := Dispatcher.seen_returned seen
  have lost := ((claimed twoWorkers dispatcher run).2 returned).1
  rw [received, disposed] at lost
  exact absurd lost.length_eq (by decide)

end OtelDatalake.Wasm
