import Mathlib.Data.List.Perm.Subperm
import OtelDatalake.Pipeline.SupervisorSafety

open OtelDatalake.Foundation OtelDatalake.Core OtelDatalake.Codec OtelDatalake.Buffer

namespace OtelDatalake.Pipeline

namespace SupervisorWorld

variable {config : BufferConfig} {sinkName : Text} {world next : SupervisorWorld} {action : SupervisorAction}
  {task : TaskId}

/-- The `select!` and the drain found nothing to report. -/
def Clean (world : SupervisorWorld) : Prop :=
  world.selected = none ∧ ∀ signal, drainError signal (world.drainRes signal) = none

/-- What the error that `main` will return stands for. -/
def Reports (config : BufferConfig) (world : SupervisorWorld) : Prop :=
  match world.phase with
  | .selecting => world.exitErr = none ∧ world.selected = none ∧ world.timedOut = false ∧ world.finalized = none
  | .awaitingSource | .joining =>
    (world.exitErr = none ↔ world.selected = none) ∧ world.timedOut = false ∧ world.finalized = none
  | .aborting _ | .finalizing => (world.exitErr = none ↔ world.Clean) ∧ world.timedOut = true
  | .awaitingSighup | .awaitingAdmin | .returned =>
    (world.exitErr = none ↔ world.Clean ∧ (world.timedOut = true → world.finalized = some (.ok ()))) ∧
    (world.timedOut = false → ∀ task, world.done task = true) ∧
    (world.finalized = some (.ok ()) → config.effectiveDrainPolicy = .persist)
  | .panicked => True

/-- A sink whose flag is set was seen by the `select!` or has left its result to the drain. -/
def Kept (world : SupervisorWorld) : Prop :=
  ∀ signal, world.done (.sink signal) = true → world.selected = some (.sink signal) ∨ world.drainRes signal ≠ none

theorem collect_exitErr {phase : SupervisorPhase} :
    (world.collect phase).exitErr = none ↔
      world.exitErr = none ∧ ∀ signal, drainError signal (world.drainRes signal) = none := by
  simp only [collect, drainOrder, List.foldl_cons, List.foldl_nil, Option.or_eq_none_iff]
  constructor
  · rintro ⟨⟨⟨unset, logs⟩, traces⟩, metrics⟩
    refine ⟨unset, fun signal => ?_⟩
    cases signal with
    | logs => exact logs
    | traces => exact traces
    | metrics => exact metrics
  · rintro ⟨unset, drained⟩
    exact ⟨⟨⟨unset, drained .logs⟩, drained .traces⟩, drained .metrics⟩

theorem persist_of_finalized {disk : Option (Except PipelineError Unit × Except PipelineError Unit)} {dropped : Nat}
    (finalized : finalizeShutdownTimeout config sinkName disk dropped = .ok ()) :
    config.effectiveDrainPolicy = .persist := by
  unfold finalizeShutdownTimeout at finalized
  cases policy : config.effectiveDrainPolicy with
  | persist => rfl
  | discard =>
    rw [policy] at finalized
    rcases disk with _ | ⟨_ | _, _ | _⟩ <;> cases finalized

theorem timeoutError_eq_none {outcome : Except PipelineError Unit} : timeoutError outcome = none ↔ outcome = .ok () := by
  cases outcome <;> simp [timeoutError]

theorem Reports.of_same (reports : world.Reports config) (phase : next.phase = world.phase)
    (exitErr : next.exitErr = world.exitErr) (selected : next.selected = world.selected)
    (drainRes : next.drainRes = world.drainRes) (timedOut : next.timedOut = world.timedOut)
    (finalized : next.finalized = world.finalized) (done : next.done = world.done) : next.Reports config := by
  unfold Reports Clean at reports ⊢
  rw [phase, exitErr, selected, drainRes, timedOut, finalized, done]
  exact reports

theorem Reports.join {exit : TaskExit} (reports : world.Reports config) (joining : world.phase = .joining) :
    ((world.setTask task .joined).joined task exit).Reports config := by
  have phase : ((world.setTask task .joined).joined task exit).phase = .joining := by simp [setTask, joining]
  simp only [Reports, joining] at reports
  simp only [Reports, phase]
  cases task <;> exact reports

theorem Reports.drained (reports : world.Reports config) (joining : world.phase = .joining)
    (joined : allTasks.all world.done = true) : (world.collect .awaitingSighup).Reports config := by
  simp only [Reports, joining] at reports
  obtain ⟨selected, intime, unset⟩ := reports
  refine ⟨?_, fun _ task => List.all_eq_true.mp joined task (mem_allTasks task), fun finalized => ?_⟩
  · rw [collect_exitErr, selected]
    simp [Clean, collect, intime]
  · have unset : (world.collect .awaitingSighup).finalized = none := unset
    rw [unset] at finalized
    cases finalized

theorem Reports.timeout (reports : world.Reports config)
    (waiting : world.phase = .awaitingSource ∨ world.phase = .joining) :
    ({ world with timedOut := true }.collect (.aborting allTasks)).Reports config := by
  have selected : world.exitErr = none ↔ world.selected = none := by
    rcases waiting with phase | phase <;> simp only [Reports, phase] at reports <;> exact reports.1
  refine ⟨?_, rfl⟩
  rw [collect_exitErr, selected]
  rfl

theorem Reports.finalize {disk : Option (Except PipelineError Unit × Except PipelineError Unit)} {dropped : Nat}
    (reports : world.Reports config) (finalizing : world.phase = .finalizing) :
    Reports config { world with
      finalized := some (finalizeShutdownTimeout config sinkName disk dropped)
      exitErr := world.exitErr.or (timeoutError (finalizeShutdownTimeout config sinkName disk dropped))
      phase := .awaitingSighup } := by
  simp only [Reports, finalizing] at reports
  obtain ⟨clean, late⟩ := reports
  refine ⟨?_, fun intime => ?_, fun finalized => persist_of_finalized (Option.some.inj finalized)⟩
  · rw [Option.or_eq_none_iff, clean, timeoutError_eq_none]
    simp [Clean, late]
  · rw [late] at intime
    cases intime

theorem Reports.step (reports : world.Reports config) (supervised : world.Supervised)
    (stepped : step config sinkName world action = some next) : next.Reports config := by
  cases supervised.moves stepped with
  | taskEnds | sighupEnds | adminEnds => exact reports.of_same rfl rfl rfl rfl rfl rfl rfl
  | shutdownSignal selecting =>
    simp only [Reports, selecting] at reports ⊢
    exact ⟨by simp [reports.1, reports.2.1], reports.2.2⟩
  | select selecting unset =>
    simp only [Reports, selecting] at reports
    exact ⟨by simp, reports.2.2⟩
  | sourceJoined phase _ | awaitSource phase _ =>
    simp only [Reports, phase] at reports
    exact reports
  | join joining apart unset => exact reports.join joining
  | drained joining joined => exact reports.drained joining joined
  | timeout waiting => exact reports.timeout waiting
  | passed phase _ | abort phase _ | aborted phase =>
    simp only [Reports, phase] at reports
    exact reports
  | finalize finalizing => exact reports.finalize finalizing
  | noSighup phase _ | awaitSighup phase _ | noAdmin phase _ | awaitAdmin phase _ | adminTimeout phase _ =>
    simp only [Reports, phase] at reports
    exact reports

theorem Kept.setDone (kept : world.Kept) (apart : ∀ signal, task ≠ .sink signal) : (world.setDone task).Kept := by
  intro signal done
  have unmarked : world.done (.sink signal) = true := by
    simpa [SupervisorWorld.setDone, Function.update_of_ne (apart signal).symm] using done
  exact kept signal unmarked

theorem Kept.joined {exit : TaskExit} (kept : world.Kept) : (world.joined task exit).Kept := by
  cases task with
  | source => exact kept.setDone (by simp)
  | transformer signal => exact kept.setDone (by simp)
  | sink signal =>
    intro other done
    by_cases same : other = signal
    · subst same
      exact .inr (by simp [SupervisorWorld.joined])
    · have unmarked : world.done (.sink other) = true := by
        simpa [SupervisorWorld.joined, SupervisorWorld.setDone, same] using done
      simpa [SupervisorWorld.joined, SupervisorWorld.setDone, same] using kept other unmarked

theorem Kept.select {exit : TaskExit} (fresh : ∀ task, world.done task = false) :
    Kept { (world.setTask task .joined).setDone task with
      exitErr := some (exitError task exit), selected := some task, shutdown := true, phase := .awaitingSource } := by
  intro signal done
  left
  by_contra missed
  have apart : TaskId.sink signal ≠ task := fun same => missed (congrArg some same.symm)
  have unset : world.done (.sink signal) = true := by
    simpa [SupervisorWorld.setDone, SupervisorWorld.setTask, apart] using done
  rw [fresh (.sink signal)] at unset
  cases unset

theorem Kept.step (kept : world.Kept) (supervised : world.Supervised)
    (stepped : step config sinkName world action = some next) : next.Kept := by
  cases supervised.moves stepped with
  | select selecting unset => exact Kept.select (supervised.fresh selecting)
  | awaitSource awaiting unset =>
    have joined : (world.setTask .source .joined).Kept := kept
    have marked : ((world.setTask .source .joined).setDone .source).Kept := joined.setDone (by simp)
    exact marked
  | @join task exit joining apart unset =>
    have joined : (world.setTask task .joined).Kept := kept
    exact joined.joined
  | _ => exact kept

theorem reported_of_run {sighup admin : Bool}
    (run : Run (step config sinkName) (fun _ _ => True) (spawned sighup admin) world) :
    world.Supervised ∧ world.Reports config ∧ world.Kept := by
  refine run.invariant (fun world => world.Supervised ∧ world.Reports config ∧ world.Kept) ?_ ?_
  · exact ⟨.spawned sighup admin, ⟨rfl, rfl, rfl, rfl⟩, fun _ done => by cases done⟩
  · rintro before action after ⟨supervised, reports, kept⟩ - stepped
    exact ⟨supervised.step stepped, reports.step supervised stepped, kept.step supervised stepped⟩

theorem drainError_eq_none {signal : SignalKind} {result : Option TaskExit} :
    drainError signal result = none ↔ result = none ∨ result = some .ok := by
  rcases result with _ | _ | _ | _ <;> simp [drainError]

/-- `main` ends well exactly when it was told to stop and no sink reported an error to the drain, and the drain was in
    time or its timeout was finalized without an error, which only the policy to persist allows. A drain in time has the
    result of every sink. What a transformer ends with during the drain is not part of it. -/
theorem supervise_status (config : BufferConfig) (sinkName : Text) (sighup admin : Bool)
    (run : Run (step config sinkName) (fun _ _ => True) (spawned sighup admin) world)
    (returned : world.phase = .returned) :
    (world.exitErr = none ↔ world.selected = none ∧
      if world.timedOut then
        (∀ signal, world.drainRes signal = none ∨ world.drainRes signal = some .ok) ∧ world.finalized = some (.ok ())
      else ∀ signal, world.drainRes signal = some .ok) ∧
    (world.finalized = some (.ok ()) → config.effectiveDrainPolicy = .persist) := by
  obtain ⟨supervised, reports, kept⟩ := reported_of_run run
  simp only [Reports, returned] at reports
  obtain ⟨status, finished, persists⟩ := reports
  refine ⟨?_, persists⟩
  rw [status, Clean, and_assoc]
  refine and_congr_right fun unselected => ?_
  have results : (∀ signal, drainError signal (world.drainRes signal) = none) ↔
      ∀ signal, world.drainRes signal = none ∨ world.drainRes signal = some .ok :=
    forall_congr' fun signal => drainError_eq_none
  rw [results]
  cases late : world.timedOut with
  | true => simp
  | false =>
    have collected (signal : SignalKind) : world.drainRes signal ≠ none :=
      (kept signal (finished late (.sink signal))).resolve_left (by simp [unselected])
    simp [collected]

/-- The traces transformer fails while the pipeline drains, and one sink is aborted before it ends. -/
def forgivenDrain : List SupervisorAction :=
  [.shutdownSignal, .taskEnds .source .ok, .awaitSource,
    .taskEnds (.transformer .traces) (.failed (.storage "disk full".toList)), .join (.transformer .traces),
    .taskEnds (.sink .logs) .ok, .join (.sink .logs), .timeout] ++
  List.replicate 8 (.abort (.panicked "cancelled".toList)) ++
  [.finalize (some (.ok (), .ok ())) 0, .awaitSighup, .awaitAdmin]

theorem supervise_status_forgivenDrain :
    ∃ world, execute (step { mode := .disk } "default".toList) (spawned false false) forgivenDrain = some world ∧
      world.timedOut = true ∧ world.exitErr = none ∧ world.selected = none :=
  ⟨_, rfl, rfl, rfl, ((supervise_status { mode := .disk } "default".toList false false
    (execute_run (fun _ _ => trivial) forgivenDrain rfl) rfl).1.mp rfl).1⟩

/-- How many moves `main` has before it at most, where it does not wait for the handles. -/
def rank : SupervisorPhase → Nat
  | .selecting | .awaitingSource => 13
  | .joining => 12
  | .aborting left => left.length + 4
  | .finalizing => 3
  | .awaitingSighup => 2
  | .awaitingAdmin => 1
  | .returned | .panicked => 0

def unmarked (done : TaskId → Bool) : Nat := allTasks.countP fun task => !done task

def budget (world : SupervisorWorld) : Nat := rank world.phase + unmarked world.done

theorem unmarked_update {done : TaskId → Bool} (unset : done task = false) :
    unmarked (Function.update done task true) + 1 = unmarked done := by
  have split (others : List TaskId) (nodup : others.Nodup) (listed : task ∈ others) :
      (others.countP fun other => !Function.update done task true other) + 1 = others.countP fun other => !done other := by
    induction others with
    | nil => cases listed
    | cons other rest ih =>
      obtain ⟨apart, nodup⟩ := List.nodup_cons.mp nodup
      by_cases same : other = task
      · subst same
        have untouched : (rest.countP fun member => !Function.update done other true member) =
            rest.countP fun member => !done member := by
          refine List.countP_congr fun member listed => ?_
          rw [Function.update_of_ne (ne_of_mem_of_not_mem listed apart)]
        simp [untouched, unset]
      · have rest := ih nodup (List.mem_of_ne_of_mem (Ne.symm same) listed)
        simp only [List.countP_cons, Function.update_of_ne same]
        omega
  exact split allTasks nodup_allTasks (mem_allTasks task)

/-- Every move of `main` after the `select!` brings it closer to its return; no end of a task sets it back, and it never
    comes back to the `select!`. -/
theorem budget_step (supervised : world.Supervised) (started : world.phase ≠ .selecting)
    (stepped : step config sinkName world action = some next) :
    next.phase ≠ .selecting ∧ next.budget + (if action.own then 1 else 0) ≤ world.budget := by
  cases supervised.moves stepped with
  | taskEnds | sighupEnds | adminEnds => exact ⟨started, Nat.le_refl _⟩
  | shutdownSignal selecting => exact absurd selecting started
  | select selecting unset => exact absurd selecting started
  | awaitSource phase unset =>
    have fewer := unmarked_update unset
    refine ⟨by simp, ?_⟩
    simp only [budget, phase, rank, SupervisorAction.own, setDone, setTask, if_true]
    omega
  | join joining apart unset =>
    have fewer := unmarked_update unset
    refine ⟨by simp [setTask, joining], ?_⟩
    simp only [budget, joined_phase, joined_done, setDone, setTask, SupervisorAction.own, if_true]
    omega
  | drained phase joined =>
    refine ⟨by simp [collect], ?_⟩
    simp only [budget, collect, phase, rank, SupervisorAction.own, if_true]
    omega
  | timeout waiting =>
    have length : allTasks.length = 7 := rfl
    refine ⟨by simp [collect], ?_⟩
    rcases waiting with phase | phase <;> simp only [budget, collect, phase, rank, SupervisorAction.own, if_true, length]
      <;> omega
  | passed phase _ | abort phase _ =>
    refine ⟨by simp, ?_⟩
    simp only [budget, phase, rank, SupervisorAction.own, if_true, List.length_cons, setTask]
    omega
  | aborted phase =>
    refine ⟨by simp, ?_⟩
    simp only [budget, phase, rank, SupervisorAction.own, if_true, List.length_nil]
    omega
  | sourceJoined phase _ | finalize phase | noSighup phase _ | awaitSighup phase _ | noAdmin phase _ | awaitAdmin phase _
  | adminTimeout phase _ =>
    refine ⟨by simp, ?_⟩
    simp only [budget, phase, rank, SupervisorAction.own, if_true]
    omega

theorem budget_le (supervised : world.Supervised) : world.budget ≤ 20 := by
  have marks : unmarked world.done ≤ 7 := List.countP_le_length
  have length : allTasks.length = 7 := rfl
  have ranked : rank world.phase ≤ 13 := by
    cases phase : world.phase with
    | aborting left =>
      have nodup := supervised.nodup
      rw [phase] at nodup
      have fewer : left.length ≤ allTasks.length :=
        (List.subperm_of_subset nodup fun task _ => mem_allTasks task).length_le
      simp only [rank]
      omega
    | _ => simp [rank]
  exact Nat.add_le_add ranked marks

theorem Supervised.progress (supervised : world.Supervised) (started : world.phase ≠ .selecting) :
    world.phase = .returned ∨ world.phase = .awaitingSighup ∧ world.sighup = some .running ∨
      ∃ action next, action.own = true ∧ SupervisorWorld.step config sinkName world action = some next := by
  cases phase : world.phase with
  | selecting => exact absurd phase started
  | awaitingSource => exact .inr (.inr ⟨.timeout, _, rfl, if_pos (.inl phase)⟩)
  | joining => exact .inr (.inr ⟨.timeout, _, rfl, if_pos (.inr phase)⟩)
  | aborting left =>
    have tracks := supervised.tracks
    rw [phase] at tracks
    refine .inr (.inr ⟨.abort .ok, ?_⟩)
    cases left with
    | nil => exact ⟨_, rfl, by simp only [SupervisorWorld.step, phase]; rfl⟩
    | cons task left =>
      simp only [SupervisorWorld.step, phase]
      cases marked : world.done task with
      | true => exact ⟨_, rfl, if_pos rfl⟩
      | false =>
        cases state : world.tasks task with
        | running => exact ⟨_, rfl, by simp [abortTask, poll, state, setTask]; rfl⟩
        | ended exit => exact ⟨_, rfl, by simp [abortTask, poll, state]; rfl⟩
        | joined => exact absurd state (tracks.unjoined marked (List.mem_cons_self ..))
  | finalizing => exact .inr (.inr ⟨.finalize none 0, _, rfl, if_pos phase⟩)
  | awaitingSighup =>
    have sighup := supervised.sighup
    rw [phase] at sighup
    cases state : world.sighup with
    | none => exact .inr (.inr ⟨.awaitSighup, _, rfl, by simp [SupervisorWorld.step, phase, state]; rfl⟩)
    | some handle =>
      cases handle with
      | running => exact .inr (.inl ⟨rfl, rfl⟩)
      | ended exit => exact .inr (.inr ⟨.awaitSighup, _, rfl, by simp [SupervisorWorld.step, phase, state]; rfl⟩)
      | joined => exact absurd state sighup
  | awaitingAdmin =>
    have admin := supervised.admin
    rw [phase] at admin
    refine .inr (.inr ?_)
    cases state : world.admin with
    | none => exact ⟨.awaitAdmin, _, rfl, by simp [SupervisorWorld.step, phase, state]; rfl⟩
    | some handle =>
      cases handle with
      | running => exact ⟨.adminTimeout .ok, _, rfl, if_pos ⟨phase, state⟩⟩
      | ended exit => exact ⟨.awaitAdmin, _, rfl, by simp [SupervisorWorld.step, phase, state]; rfl⟩
      | joined => exact absurd state admin
  | returned => exact .inl rfl
  | panicked => exact absurd phase supervised.calm

/-- Once the `select!` is over, `main` can be stuck only in front of the task of the SIGHUP handler: it has a move of its
    own in every other state before its return, and cannot make more than twenty, whatever ends in between. That the
    join of an aborted task does not wait is an assumption on the task: `abortTask` ends it at its next await. -/
theorem supervise_terminates (config : BufferConfig) (sinkName : Text) (sighup admin : Bool)
    (run : Run (step config sinkName) (fun _ _ => True) (spawned sighup admin) world)
    (started : world.phase ≠ .selecting) :
    (world.phase = .returned ∨ world.phase = .awaitingSighup ∧ world.sighup = some .running ∨
      ∃ action next, action.own = true ∧ step config sinkName world action = some next) ∧
    ∀ actions final, execute (step config sinkName) world actions = some final →
      actions.countP SupervisorAction.own ≤ 20 := by
  have supervised := supervised_of_run run
  refine ⟨?_, fun actions final executed => ?_⟩
  · exact supervised.progress started
  · have spent := execute_countP_le (fun world => world.Supervised ∧ world.phase ≠ .selecting) SupervisorAction.own budget
      (fun _ _ _ inv stepped => ⟨inv.1.step stepped, (budget_step inv.1 inv.2 stepped).1⟩)
      (fun _ _ _ inv stepped => (budget_step inv.1 inv.2 stepped).2) ⟨supervised, started⟩ actions executed
    have bound := budget_le supervised
    omega

theorem supervise_terminates_forgivenDrain :
    ∃ world, execute (step { mode := .disk } "default".toList) (spawned true false) (forgivenDrain.take 9) = some world ∧
      ∃ action next, action.own = true ∧ step { mode := .disk } "default".toList world action = some next :=
  have run := execute_run (fun _ _ => trivial) (forgivenDrain.take 9) rfl
  ⟨_, rfl, ((supervise_terminates { mode := .disk } "default".toList true false run (by decide)).1.resolve_left
    (by decide)).resolve_left (by simp)⟩

end SupervisorWorld

end OtelDatalake.Pipeline
