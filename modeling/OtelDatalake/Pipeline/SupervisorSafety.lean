import OtelDatalake.Pipeline.Supervisor

open OtelDatalake.Foundation OtelDatalake.Core OtelDatalake.Codec OtelDatalake.Buffer

namespace OtelDatalake.Pipeline

theorem mem_allTasks (task : TaskId) : task ∈ allTasks := by
  cases task with
  | source => decide
  | transformer signal => cases signal <;> decide
  | sink signal => cases signal <;> decide

theorem nodup_allTasks : allTasks.Nodup := by decide

/-- The tasks whose handles `main` may still have to join. -/
def SupervisorPhase.left : SupervisorPhase → List TaskId
  | .selecting | .awaitingSource | .joining => allTasks
  | .aborting left => left
  | _ => []

def SupervisorPhase.pastSighup : SupervisorPhase → Bool
  | .awaitingAdmin | .returned => true
  | _ => false

namespace SupervisorWorld

variable {config : BufferConfig} {sinkName : Text} {world next : SupervisorWorld} {action : SupervisorAction}
  {task : TaskId}

/-- Which handles have been joined: those of the flags, and from an abort on those that are no longer `left`. -/
def Tracks (world : SupervisorWorld) (left : List TaskId) : Prop :=
  ∀ task, world.tasks task = .joined ↔ world.done task = true ∨ task ∉ left

/-- Every handle is joined at most once, and none is left in the end. -/
structure Supervised (world : SupervisorWorld) : Prop where
  tracks : world.Tracks world.phase.left
  nodup : world.phase.left.Nodup
  fresh : world.phase = .selecting → ∀ task, world.done task = false
  source : world.phase = .joining → world.done .source = true
  calm : world.phase ≠ .panicked
  shutdown : world.phase ≠ .selecting → world.shutdown = true
  sighup : if world.phase.pastSighup then world.sighup = none ∨ world.sighup = some .joined
    else world.sighup ≠ some .joined
  admin : if world.phase = .returned then world.admin = none ∨ world.admin = some .joined
    else world.admin ≠ some .joined

theorem taken {guard : Prop} [Decidable guard] {after : SupervisorWorld}
    (moved : (if guard then some after else none) = some next) : guard ∧ next = after := by
  split at moved
  · rename_i holds
    exact ⟨holds, (Option.some.inj moved).symm⟩
  · cases moved

theorem poll_eq_some {after : SupervisorWorld → TaskExit → SupervisorWorld}
    (polled : world.poll task after = some next) :
    (∃ exit, world.tasks task = .ended exit ∧ next = after (world.setTask task .joined) exit) ∨
      world.tasks task = .joined ∧ next = { world with phase := .panicked } := by
  unfold poll at polled
  split at polled
  · cases polled
  · rename_i exit ended
    exact .inl ⟨exit, ended, (Option.some.inj polled).symm⟩
  · rename_i joined
    exact .inr ⟨joined, (Option.some.inj polled).symm⟩

theorem Tracks.ends {left : List TaskId} {exit : TaskExit} (tracks : world.Tracks left)
    (running : world.tasks task = .running) : (world.setTask task (.ended exit)).Tracks left := by
  intro other
  by_cases same : other = task
  · subst same
    have unjoined := (tracks other).not.mp (by simp [running])
    simpa [setTask] using unjoined
  · simpa [setTask, same] using tracks other

theorem Tracks.done {left : List TaskId} (tracks : world.Tracks left) :
    ((world.setTask task .joined).setDone task).Tracks left := by
  intro other
  by_cases same : other = task
  · subst same
    simp [setTask, setDone]
  · simpa [setTask, setDone, same] using tracks other

theorem Tracks.of_same {left : List TaskId} (tracks : world.Tracks left) (tasks : next.tasks = world.tasks)
    (done : next.done = world.done) : next.Tracks left := by
  intro other
  rw [tasks, done]
  exact tracks other

theorem Tracks.unjoined {left : List TaskId} (tracks : world.Tracks left) (unset : world.done task = false)
    (listed : task ∈ left) : world.tasks task ≠ .joined := by
  rw [Ne, tracks task, unset]
  simp [listed]

theorem Supervised.taskEnds {exit : TaskExit} (supervised : world.Supervised) (running : world.tasks task = .running) :
    (world.setTask task (.ended exit)).Supervised :=
  { supervised with tracks := supervised.tracks.ends running }

theorem Supervised.sighupEnds {exit : TaskExit} (supervised : world.Supervised)
    (running : world.sighup = some .running) : Supervised { world with sighup := some (.ended exit) } := by
  have before := supervised.sighup
  rw [running] at before
  refine { supervised with sighup := ?_ }
  split
  · rename_i past
    simp [past] at before
  · simp

theorem Supervised.adminEnds {exit : TaskExit} (supervised : world.Supervised)
    (running : world.admin = some .running) : Supervised { world with admin := some (.ended exit) } := by
  have before := supervised.admin
  rw [running] at before
  refine { supervised with admin := ?_ }
  split
  · rename_i returned
    rw [if_pos returned] at before
    simp at before
  · simp

theorem Supervised.moved (supervised : world.Supervised) (tracks : next.Tracks next.phase.left)
    (nodup : next.phase.left.Nodup) (calm : next.phase ≠ .panicked) (started : next.phase ≠ .selecting)
    (source : next.phase = .joining → next.done .source = true) (shutdown : next.shutdown = true)
    (sighup : next.sighup = world.sighup) (admin : next.admin = world.admin)
    (helpers : world.phase.pastSighup = false ∧ next.phase.pastSighup = false) : next.Supervised where
  tracks := tracks
  nodup := nodup
  fresh selecting := absurd selecting started
  source := source
  calm := calm
  shutdown _ := shutdown
  sighup := by
    have before := supervised.sighup
    rw [if_neg (by simp [helpers.1])] at before
    rw [if_neg (by simp [helpers.2]), sighup]
    exact before
  admin := by
    have before := supervised.admin
    have unreturned : ∀ {phase : SupervisorPhase}, phase.pastSighup = false → phase ≠ .returned := by
      rintro _ past rfl
      cases past
    rw [if_neg (unreturned helpers.1)] at before
    rw [if_neg (unreturned helpers.2), admin]
    exact before

theorem Supervised.advance (supervised : world.Supervised) (tasks : next.tasks = world.tasks)
    (done : next.done = world.done) (left : next.phase.left = world.phase.left) (calm : next.phase ≠ .panicked)
    (started : next.phase ≠ .selecting) (source : next.phase = .joining → world.done .source = true)
    (shutdown : next.shutdown = true) (sighup : next.sighup = world.sighup) (admin : next.admin = world.admin)
    (helpers : world.phase.pastSighup = false ∧ next.phase.pastSighup = false) : next.Supervised := by
  refine supervised.moved ?_ ?_ calm started ?_ shutdown sighup admin helpers
  · rw [left]
    exact supervised.tracks.of_same tasks done
  · rw [left]
    exact supervised.nodup
  · rw [done]
    exact source

theorem Supervised.polled {after : SupervisorWorld → TaskExit → SupervisorWorld} (supervised : world.Supervised)
    (polled : world.poll task after = some next) (left : world.phase.left = allTasks) (unset : world.done task = false) :
    ∃ exit, next = after (world.setTask task .joined) exit := by
  have tracks := supervised.tracks
  rw [left] at tracks
  rcases poll_eq_some polled with ⟨exit, _, rfl⟩ | ⟨joined, _⟩
  · exact ⟨exit, rfl⟩
  · exact absurd joined (tracks.unjoined unset (mem_allTasks task))

theorem Tracks.skip {left : List TaskId} (tracks : world.Tracks (task :: left)) (done : world.done task = true) :
    world.Tracks left := by
  intro other
  rw [tracks other, List.mem_cons, not_or]
  by_cases same : other = task
  · subst same
    simp [done]
  · simp [same]

theorem Tracks.aborted {left : List TaskId} (tracks : world.Tracks (task :: left)) (nodup : (task :: left).Nodup) :
    (world.setTask task .joined).Tracks left := by
  intro other
  by_cases same : other = task
  · subst same
    simp [setTask, (List.nodup_cons.mp nodup).1]
  · simpa [setTask, same] using tracks other

theorem setTask_setTask {first last : TaskState} :
    (world.setTask task first).setTask task last = world.setTask task last := by
  simp [setTask]

/-- The abort of a handle that has not been joined joins it, whatever the end of its task. -/
theorem poll_abortTask {exit : TaskExit} {after : SupervisorWorld → SupervisorWorld}
    (polled : ((world.abortTask task exit).poll task fun next _ => after next) = some next)
    (unjoined : world.tasks task ≠ .joined) : next = after (world.setTask task .joined) := by
  unfold abortTask at polled
  split at polled
  · rcases poll_eq_some polled with ⟨_, _, rfl⟩ | ⟨joined, _⟩
    · rw [setTask_setTask]
    · simp [setTask] at joined
  · rcases poll_eq_some polled with ⟨_, _, rfl⟩ | ⟨joined, _⟩
    · rfl
    · exact absurd joined unjoined

@[simp] theorem joined_phase {exit : TaskExit} : (world.joined task exit).phase = world.phase := by
  cases task <;> rfl

@[simp] theorem joined_shutdown {exit : TaskExit} : (world.joined task exit).shutdown = world.shutdown := by
  cases task <;> rfl

@[simp] theorem joined_sighup {exit : TaskExit} : (world.joined task exit).sighup = world.sighup := by
  cases task <;> rfl

@[simp] theorem joined_admin {exit : TaskExit} : (world.joined task exit).admin = world.admin := by
  cases task <;> rfl

@[simp] theorem joined_done {exit : TaskExit} : (world.joined task exit).done = (world.setDone task).done := by
  cases task <;> rfl

@[simp] theorem joined_tasks {exit : TaskExit} : (world.joined task exit).tasks = world.tasks := by
  cases task <;> rfl

/-- What a step does where no handle is polled again. -/
inductive Moves (config : BufferConfig) (sinkName : Text) (world : SupervisorWorld) :
    SupervisorAction → SupervisorWorld → Prop where
  | taskEnds {task : TaskId} {exit : TaskExit} (running : world.tasks task = .running) :
    Moves config sinkName world (.taskEnds task exit) (world.setTask task (.ended exit))
  | sighupEnds {exit : TaskExit} (running : world.sighup = some .running) :
    Moves config sinkName world (.sighupEnds exit) { world with sighup := some (.ended exit) }
  | adminEnds {exit : TaskExit} (running : world.admin = some .running) :
    Moves config sinkName world (.adminEnds exit) { world with admin := some (.ended exit) }
  | shutdownSignal (selecting : world.phase = .selecting) :
    Moves config sinkName world .shutdownSignal { world with shutdown := true, phase := .awaitingSource }
  | select {task : TaskId} {exit : TaskExit} (selecting : world.phase = .selecting) (unset : world.done task = false) :
    Moves config sinkName world (.select task)
      { (world.setTask task .joined).setDone task with
        exitErr := some (exitError task exit), selected := some task, shutdown := true, phase := .awaitingSource }
  | sourceJoined (awaiting : world.phase = .awaitingSource) (done : world.done .source = true) :
    Moves config sinkName world .awaitSource { world with phase := .joining }
  | awaitSource (awaiting : world.phase = .awaitingSource) (unset : world.done .source = false) :
    Moves config sinkName world .awaitSource
      { (world.setTask .source .joined).setDone .source with phase := .joining }
  | join {task : TaskId} {exit : TaskExit} (joining : world.phase = .joining) (apart : task ≠ .source)
      (unset : world.done task = false) :
    Moves config sinkName world (.join task) ((world.setTask task .joined).joined task exit)
  | drained (joining : world.phase = .joining) (joined : allTasks.all world.done = true) :
    Moves config sinkName world .drained (world.collect .awaitingSighup)
  | timeout (waiting : world.phase = .awaitingSource ∨ world.phase = .joining) :
    Moves config sinkName world .timeout ({ world with timedOut := true }.collect (.aborting allTasks))
  | passed {task : TaskId} {left : List TaskId} {exit : TaskExit} (aborting : world.phase = .aborting (task :: left))
      (done : world.done task = true) :
    Moves config sinkName world (.abort exit) { world with phase := .aborting left }
  | abort {task : TaskId} {left : List TaskId} {exit : TaskExit} (aborting : world.phase = .aborting (task :: left))
      (unset : world.done task = false) :
    Moves config sinkName world (.abort exit) { world.setTask task .joined with phase := .aborting left }
  | aborted {exit : TaskExit} (aborting : world.phase = .aborting []) :
    Moves config sinkName world (.abort exit) { world with phase := .finalizing }
  | finalize {disk : Option (Except PipelineError Unit × Except PipelineError Unit)} {dropped : Nat}
      (finalizing : world.phase = .finalizing) :
    Moves config sinkName world (.finalize disk dropped)
      { world with
        finalized := some (finalizeShutdownTimeout config sinkName disk dropped)
        exitErr := world.exitErr.or (timeoutError (finalizeShutdownTimeout config sinkName disk dropped))
        phase := .awaitingSighup }
  | noSighup (awaiting : world.phase = .awaitingSighup) (unspawned : world.sighup = none) :
    Moves config sinkName world .awaitSighup { world with phase := .awaitingAdmin }
  | awaitSighup {exit : TaskExit} (awaiting : world.phase = .awaitingSighup)
      (ended : world.sighup = some (.ended exit)) :
    Moves config sinkName world .awaitSighup { world with sighup := some .joined, phase := .awaitingAdmin }
  | noAdmin (awaiting : world.phase = .awaitingAdmin) (unspawned : world.admin = none) :
    Moves config sinkName world .awaitAdmin { world with phase := .returned }
  | awaitAdmin {exit : TaskExit} (awaiting : world.phase = .awaitingAdmin)
      (ended : world.admin = some (.ended exit)) :
    Moves config sinkName world .awaitAdmin { world with admin := some .joined, phase := .returned }
  | adminTimeout {exit : TaskExit} (awaiting : world.phase = .awaitingAdmin) (running : world.admin = some .running) :
    Moves config sinkName world (.adminTimeout exit) { world with admin := some .joined, phase := .returned }

theorem Supervised.moves_abort {left : List TaskId} {exit : TaskExit} (supervised : world.Supervised)
    (aborting : world.phase = .aborting (task :: left))
    (stepped : SupervisorWorld.step config sinkName world (.abort exit) = some next) :
    Moves config sinkName world (.abort exit) next := by
  simp only [SupervisorWorld.step, aborting] at stepped
  split at stepped
  · rename_i done
    cases stepped
    exact .passed aborting done
  · rename_i undone
    have unset : world.done task = false := Bool.not_eq_true _ ▸ undone
    have tracks := supervised.tracks
    rw [aborting] at tracks
    have joins := poll_abortTask stepped (tracks.unjoined unset (List.mem_cons_self ..))
    subst joins
    exact .abort aborting unset

theorem Supervised.moves_awaitSighup (supervised : world.Supervised)
    (stepped : step config sinkName world .awaitSighup = some next) :
    Moves config sinkName world .awaitSighup next := by
  simp only [SupervisorWorld.step] at stepped
  split at stepped
  · rename_i awaiting
    have sighup := supervised.sighup
    rw [awaiting] at sighup
    split at stepped
    · cases stepped
    · rename_i joined
      exact absurd joined sighup
    · rename_i exit ended
      cases stepped
      exact .awaitSighup awaiting ended
    · rename_i unspawned
      cases stepped
      exact .noSighup awaiting unspawned
  · cases stepped

theorem Supervised.moves_awaitAdmin (supervised : world.Supervised)
    (stepped : step config sinkName world .awaitAdmin = some next) : Moves config sinkName world .awaitAdmin next := by
  simp only [SupervisorWorld.step] at stepped
  split at stepped
  · rename_i awaiting
    have admin := supervised.admin
    rw [awaiting] at admin
    split at stepped
    · cases stepped
    · rename_i joined
      exact absurd joined admin
    · rename_i exit ended
      cases stepped
      exact .awaitAdmin awaiting ended
    · rename_i unspawned
      cases stepped
      exact .noAdmin awaiting unspawned
  · cases stepped

theorem Supervised.moves_awaitSource (supervised : world.Supervised)
    (stepped : step config sinkName world .awaitSource = some next) :
    Moves config sinkName world .awaitSource next := by
  simp only [SupervisorWorld.step] at stepped
  split at stepped
  · rename_i awaiting
    split at stepped
    · rename_i done
      cases stepped
      exact .sourceJoined awaiting done
    · rename_i undone
      have unset : world.done .source = false := Bool.not_eq_true _ ▸ undone
      obtain ⟨exit, rfl⟩ := supervised.polled stepped (by rw [awaiting]; rfl) unset
      exact .awaitSource awaiting unset
  · cases stepped

theorem Supervised.moves (supervised : world.Supervised)
    (stepped : SupervisorWorld.step config sinkName world action = some next) :
    Moves config sinkName world action next := by
  cases action with
  | select task =>
    simp only [SupervisorWorld.step] at stepped
    split at stepped
    · rename_i selecting
      have unset := supervised.fresh selecting task
      obtain ⟨exit, rfl⟩ := supervised.polled stepped (by rw [selecting]; rfl) unset
      exact .select selecting unset
    · cases stepped
  | awaitSource => exact supervised.moves_awaitSource stepped
  | join task =>
    simp only [SupervisorWorld.step] at stepped
    split at stepped
    · rename_i joins
      obtain ⟨joining, apart, unset⟩ := joins
      obtain ⟨exit, rfl⟩ := supervised.polled stepped (by rw [joining]; rfl) unset
      exact .join joining apart unset
    · cases stepped
  | abort exit =>
    cases phase : world.phase with
    | aborting left =>
      cases left with
      | cons task left => exact supervised.moves_abort phase stepped
      | nil =>
        simp only [SupervisorWorld.step, phase] at stepped
        cases stepped
        exact .aborted phase
    | _ =>
      simp only [SupervisorWorld.step, phase] at stepped
      cases stepped
  | awaitSighup => exact supervised.moves_awaitSighup stepped
  | awaitAdmin => exact supervised.moves_awaitAdmin stepped
  | taskEnds task exit =>
    obtain ⟨running, rfl⟩ := taken stepped
    exact .taskEnds running
  | sighupEnds exit =>
    obtain ⟨running, rfl⟩ := taken stepped
    exact .sighupEnds running
  | adminEnds exit =>
    obtain ⟨running, rfl⟩ := taken stepped
    exact .adminEnds running
  | shutdownSignal =>
    obtain ⟨selecting, rfl⟩ := taken stepped
    exact .shutdownSignal selecting
  | drained =>
    obtain ⟨⟨joining, joined⟩, rfl⟩ := taken stepped
    exact .drained joining joined
  | timeout =>
    obtain ⟨waiting, rfl⟩ := taken stepped
    exact .timeout waiting
  | finalize disk dropped =>
    obtain ⟨finalizing, rfl⟩ := taken stepped
    exact .finalize finalizing
  | adminTimeout exit =>
    obtain ⟨⟨awaiting, running⟩, rfl⟩ := taken stepped
    exact .adminTimeout awaiting running

theorem Supervised.select {exit : TaskExit} (supervised : world.Supervised) (selecting : world.phase = .selecting) :
    Supervised { (world.setTask task .joined).setDone task with
      exitErr := some (exitError task exit), selected := some task, shutdown := true, phase := .awaitingSource } := by
  have tracks := supervised.tracks
  rw [selecting] at tracks
  exact supervised.moved tracks.done nodup_allTasks (by simp) (by simp) (by simp) rfl rfl rfl
    ⟨by rw [selecting]; rfl, rfl⟩

theorem Supervised.awaitSource (supervised : world.Supervised) (awaiting : world.phase = .awaitingSource) :
    Supervised { (world.setTask .source .joined).setDone .source with phase := .joining } := by
  have tracks := supervised.tracks
  rw [awaiting] at tracks
  refine supervised.moved tracks.done nodup_allTasks (by simp) (by simp) (fun _ => ?_)
    (supervised.shutdown (by simp [awaiting])) rfl rfl ⟨by rw [awaiting]; rfl, rfl⟩
  simp [setDone]

theorem Supervised.join {exit : TaskExit} (supervised : world.Supervised) (joining : world.phase = .joining)
    (apart : task ≠ .source) : ((world.setTask task .joined).joined task exit).Supervised := by
  have tracks := supervised.tracks
  rw [joining] at tracks
  have marked : ((world.setTask task .joined).setDone task).Tracks allTasks := tracks.done
  have phase : ((world.setTask task .joined).joined task exit).phase = .joining := by simp [setTask, joining]
  have shutdown := supervised.shutdown (by simp [joining])
  refine supervised.moved ?_ ?_ ?_ ?_ (fun _ => ?_) ?_ ?_ ?_ ⟨by rw [joining]; rfl, by rw [phase]; rfl⟩
  · rw [phase]
    exact marked.of_same (by simp [setDone]) (by simp)
  · rw [phase]
    exact nodup_allTasks
  · simp [setTask, joining]
  · simp [setTask, joining]
  · simpa [setDone, setTask, Ne.symm apart] using supervised.source joining
  · simpa [setTask] using shutdown
  · simp [setTask]
  · simp [setTask]

theorem Supervised.drained (supervised : world.Supervised) (joining : world.phase = .joining)
    (joined : allTasks.all world.done = true) : (world.collect .awaitingSighup).Supervised := by
  refine supervised.moved (fun task => ?_) List.nodup_nil (by simp [collect]) (by simp [collect]) (by simp [collect])
    (supervised.shutdown (by simp [joining])) rfl rfl ⟨by rw [joining]; rfl, rfl⟩
  have done : world.done task = true := List.all_eq_true.mp joined task (mem_allTasks task)
  simpa [collect, SupervisorPhase.left, done] using (supervised.tracks task).mpr (.inl done)

theorem Supervised.timeout (supervised : world.Supervised)
    (waiting : world.phase = .awaitingSource ∨ world.phase = .joining) :
    ({ world with timedOut := true }.collect (.aborting allTasks)).Supervised := by
  have left : world.phase.left = allTasks := by rcases waiting with phase | phase <;> rw [phase] <;> rfl
  have before : world.phase.pastSighup = false := by rcases waiting with phase | phase <;> rw [phase] <;> rfl
  have started : world.phase ≠ .selecting := by rcases waiting with phase | phase <;> simp [phase]
  exact supervised.advance rfl rfl left.symm (by simp [collect]) (by simp [collect]) (by simp [collect])
    (supervised.shutdown started) rfl rfl ⟨before, rfl⟩

theorem Supervised.passed {left : List TaskId} (supervised : world.Supervised)
    (aborting : world.phase = .aborting (task :: left)) (done : world.done task = true) :
    Supervised { world with phase := .aborting left } := by
  have tracks := supervised.tracks
  have nodup := supervised.nodup
  rw [aborting] at tracks nodup
  exact supervised.moved ((tracks.skip done).of_same rfl rfl) (List.nodup_cons.mp nodup).2 (by simp) (by simp) (by simp)
    (supervised.shutdown (by simp [aborting])) rfl rfl ⟨by rw [aborting]; rfl, rfl⟩

theorem Supervised.abort {left : List TaskId} (supervised : world.Supervised)
    (aborting : world.phase = .aborting (task :: left)) :
    Supervised { world.setTask task .joined with phase := .aborting left } := by
  have tracks := supervised.tracks
  have nodup := supervised.nodup
  rw [aborting] at tracks nodup
  exact supervised.moved ((tracks.aborted nodup).of_same rfl rfl) (List.nodup_cons.mp nodup).2 (by simp) (by simp)
    (by simp) (supervised.shutdown (by simp [aborting])) rfl rfl ⟨by rw [aborting]; rfl, rfl⟩

theorem Supervised.awaitSighup {handle : Option TaskState} (supervised : world.Supervised)
    (awaiting : world.phase = .awaitingSighup) (settled : handle = none ∨ handle = some .joined) :
    Supervised { world with sighup := handle, phase := .awaitingAdmin } := by
  have tracks := supervised.tracks
  have admin := supervised.admin
  rw [awaiting] at tracks admin
  exact ⟨tracks.of_same rfl rfl, List.nodup_nil, by simp, by simp, by simp,
    fun _ => supervised.shutdown (by simp [awaiting]), settled, admin⟩

theorem Supervised.awaitAdmin {handle : Option TaskState} (supervised : world.Supervised)
    (awaiting : world.phase = .awaitingAdmin) (settled : handle = none ∨ handle = some .joined) :
    Supervised { world with admin := handle, phase := .returned } := by
  have tracks := supervised.tracks
  have sighup := supervised.sighup
  rw [awaiting] at tracks sighup
  exact ⟨tracks.of_same rfl rfl, List.nodup_nil, by simp, by simp, by simp,
    fun _ => supervised.shutdown (by simp [awaiting]), sighup, settled⟩

theorem Supervised.step (supervised : world.Supervised) (stepped : step config sinkName world action = some next) :
    next.Supervised := by
  cases supervised.moves stepped with
  | taskEnds running => exact supervised.taskEnds running
  | sighupEnds running => exact supervised.sighupEnds running
  | adminEnds running => exact supervised.adminEnds running
  | shutdownSignal selecting =>
    exact supervised.advance rfl rfl (by rw [selecting]; rfl) (by simp) (by simp) (by simp) rfl rfl rfl
      ⟨by rw [selecting]; rfl, rfl⟩
  | select selecting unset => exact supervised.select selecting
  | sourceJoined awaiting done =>
    exact supervised.advance rfl rfl (by rw [awaiting]; rfl) (by simp) (by simp) (fun _ => done)
      (supervised.shutdown (by simp [awaiting])) rfl rfl ⟨by rw [awaiting]; rfl, rfl⟩
  | awaitSource awaiting unset => exact supervised.awaitSource awaiting
  | join joining apart unset => exact supervised.join joining apart
  | drained joining joined => exact supervised.drained joining joined
  | timeout waiting => exact supervised.timeout waiting
  | passed aborting done => exact supervised.passed aborting done
  | abort aborting unset => exact supervised.abort aborting
  | aborted aborting =>
    exact supervised.advance rfl rfl (by rw [aborting]; rfl) (by simp) (by simp) (by simp)
      (supervised.shutdown (by simp [aborting])) rfl rfl ⟨by rw [aborting]; rfl, rfl⟩
  | finalize finalizing =>
    exact supervised.advance rfl rfl (by rw [finalizing]; rfl) (by simp) (by simp) (by simp)
      (supervised.shutdown (by simp [finalizing])) rfl rfl ⟨by rw [finalizing]; rfl, rfl⟩
  | noSighup awaiting unspawned => exact supervised.awaitSighup awaiting (.inl unspawned)
  | awaitSighup awaiting ended => exact supervised.awaitSighup awaiting (.inr rfl)
  | noAdmin awaiting unspawned => exact supervised.awaitAdmin awaiting (.inl unspawned)
  | awaitAdmin awaiting ended => exact supervised.awaitAdmin awaiting (.inr rfl)
  | adminTimeout awaiting running => exact supervised.awaitAdmin awaiting (.inr rfl)

theorem Supervised.spawned (sighup admin : Bool) : (spawned sighup admin).Supervised where
  tracks task := by simp [SupervisorWorld.spawned, SupervisorPhase.left, mem_allTasks]
  nodup := nodup_allTasks
  fresh _ _ := rfl
  source joining := by cases joining
  calm := by simp [SupervisorWorld.spawned]
  shutdown started := absurd rfl started
  sighup := by cases sighup <;> simp [SupervisorWorld.spawned, SupervisorPhase.pastSighup]
  admin := by cases admin <;> simp [SupervisorWorld.spawned]

theorem supervised_of_run {sighup admin : Bool}
    (run : Run (step config sinkName) (fun _ _ => True) (spawned sighup admin) world) : world.Supervised :=
  run.invariant Supervised (.spawned sighup admin) fun _ _ _ supervised _ stepped => supervised.step stepped

/-- In whichever order the tasks end, `main` polls no handle again that it has joined; when it returns it has told all of
    them to stop and has joined every one. -/
theorem supervise_joins (config : BufferConfig) (sinkName : Text) (sighup admin : Bool)
    (run : Run (step config sinkName) (fun _ _ => True) (spawned sighup admin) world) :
    world.phase ≠ .panicked ∧ (world.phase ≠ .selecting → world.shutdown = true) ∧
    (world.phase = .returned → (∀ task, world.tasks task = .joined) ∧ world.sighup ≠ some .running ∧
      world.admin ≠ some .running) := by
  have supervised := supervised_of_run run
  refine ⟨supervised.calm, supervised.shutdown, fun returned => ⟨fun task => ?_, ?_, ?_⟩⟩
  · rw [supervised.tracks task, returned]
    exact .inr List.not_mem_nil
  · have joined := supervised.sighup
    rw [returned] at joined
    rcases joined with unspawned | joined
    · simp [unspawned]
    · simp [joined]
  · have joined := supervised.admin
    rw [if_pos returned] at joined
    rcases joined with unspawned | joined
    · simp [unspawned]
    · simp [joined]

/-- A sink fails, one of the others ends in time, and the rest is aborted; the handlers are there. -/
def abortedDrain : List SupervisorAction :=
  [.taskEnds (.sink .traces) (.failed (.storage "disk full".toList)), .select (.sink .traces), .taskEnds .source .ok,
    .awaitSource, .taskEnds (.sink .logs) .ok, .join (.sink .logs), .timeout] ++
  List.replicate 8 (.abort (.panicked "cancelled".toList)) ++
  [.finalize (some (.ok (), .ok ())) 0, .sighupEnds .ok, .awaitSighup, .adminTimeout .ok]

theorem supervise_joins_abortedDrain :
    ∃ world, execute (step { mode := .disk } "default".toList) (spawned true true) abortedDrain = some world ∧
      world.phase = .returned ∧ (∀ task, world.tasks task = .joined) ∧
      world.exitErr = some "Traces sink failed: storage error: disk full".toList :=
  ⟨_, rfl, rfl, ((supervise_joins { mode := .disk } "default".toList true true
    (execute_run (fun _ _ => trivial) abortedDrain rfl)).2.2 rfl).1, by decide⟩

end SupervisorWorld

end OtelDatalake.Pipeline
