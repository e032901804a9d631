import OtelDatalake.Foundation.Outcome
import OtelDatalake.Wasm.Reload

open OtelDatalake.Foundation

namespace OtelDatalake.Wasm

variable {Bytes Module Config : Type}

namespace WasmWorker

def Runs (worker : WasmWorker Module Config) (module : Module) : Prop :=
  worker.guest = module ∧ worker.module = module

variable {instantiates : Module → Config → Bool}

theorem checkHotReload_publishModule (engine : EngineCache Module) (module : Module)
    {worker : WasmWorker Module Config} (behind : worker.localGeneration ≤ engine.generation) :
    worker.checkHotReload instantiates (engine.publishModule module).1 =
      if instantiates module worker.config then
        worker.install { module := module, generation := engine.generation + 1 }
      else { worker with localGeneration := engine.generation + 1 } := by
  have rounds : engine.generation + 1 - worker.localGeneration = engine.generation - worker.localGeneration + 1 := by
    omega
  have older : worker.localGeneration < engine.generation + 1 := Nat.lt_succ_of_le behind
  have newer : ¬ worker.localGeneration ≥ engine.generation + 1 := Nat.not_le_of_lt older
  simp only [checkHotReload, EngineCache.publishModule, rounds, checkRounds, EngineCache.moduleGeneration, if_pos older,
    EngineCache.currentSnapshot, tryAdopt, if_neg newer]
  by_cases fits : instantiates module worker.config = true
  · simp only [if_pos fits, if_true]
    -- The installed generation is the engine's, so a further round has nothing to do.
    cases engine.generation - worker.localGeneration with
    | zero => rfl
    | succ rest => simp only [checkRounds, install, EngineCache.moduleGeneration, Nat.lt_irrefl, if_false]
  · simp only [if_neg fits, Bool.false_eq_true, if_false]

theorem runs_checkHotReload_iff (engine : EngineCache Module) (module : Module)
    {worker : WasmWorker Module Config} (behind : worker.localGeneration ≤ engine.generation) :
    (worker.checkHotReload instantiates (engine.publishModule module).1).Runs module ↔
      instantiates module worker.config = true ∨ worker.Runs module := by
  rw [checkHotReload_publishModule engine module behind]
  by_cases fits : instantiates module worker.config = true
  · rw [if_pos fits]
    exact ⟨fun _ => .inl fits, fun _ => ⟨rfl, rfl⟩⟩
  · rw [if_neg fits]
    exact ⟨.inr, fun either => either.resolve_left fits⟩

end WasmWorker

namespace WorkerThread

variable {instantiates : Module → Config → Bool} {engine : SharedEngine Module}

/-- The thread moves while everything else stands still. -/
abbrev MovesAlone (instantiates : Module → Config → Bool) (engine : SharedEngine Module) :
    WorkerThread Module Config → WorkerThread Module Config → Prop :=
  Relation.ReflTransGen fun thread next => ∃ choice, thread.act instantiates engine choice = some (engine, next)

theorem MovesAlone.executes {thread next : WorkerThread Module Config}
    (moves : MovesAlone instantiates engine thread next) (left right : List (WorkerThread Module Config)) :
    ∃ turns, execute (ReloadSystem.step instantiates) ⟨engine, left ++ thread :: right⟩ turns =
      some ⟨engine, left ++ next :: right⟩ := by
  induction moves using Relation.ReflTransGen.head_induction_on with
  | refl => exact ⟨[], rfl⟩
  | head move _ ih =>
    obtain ⟨choice, acted⟩ := move
    obtain ⟨turns, executed⟩ := ih
    refine ⟨.worker (.act left.length choice) :: turns, ?_⟩
    rw [execute, ReloadSystem.step, Interleaved.step_act isFresh acted]
    exact executed

theorem act_load_behind {worker : WasmWorker Module Config} {observation : Observation}
    (older : worker.localGeneration < engine.cache.generation) :
    (running worker .load observation).act instantiates engine .proceed =
      some (engine, .running worker .snapshot (engine.observe observation.source)) := by
  have older : worker.localGeneration < engine.cache.moduleGeneration := older
  rw [act, proceed, if_pos older]
  rfl

theorem act_load_upToDate {worker : WasmWorker Module Config} {observation : Observation}
    (newer : engine.cache.generation ≤ worker.localGeneration) :
    (running worker .load observation).act instantiates engine .proceed =
      some (engine, .running worker .idle (engine.observe observation.source)) := by
  have newer : ¬ worker.localGeneration < engine.cache.moduleGeneration := Nat.not_lt_of_le newer
  rw [act, proceed, if_neg newer]
  rfl

theorem act_snapshot {worker adopted : WasmWorker Module Config} {observation : Observation} {goesOn : Bool}
    (free : engine.writer = none)
    (tried : worker.tryAdopt instantiates engine.cache.currentSnapshot = (adopted, goesOn)) :
    ∃ observation', (running worker .snapshot observation).act instantiates engine .proceed =
      some (engine, .running adopted (if goesOn then .load else .idle) observation') := by
  rw [act, proceed, SharedEngine.readSnapshot, free]
  cases goesOn with
  | true =>
    exact ⟨engine.observe ((engine.lastPublished adopted.localGeneration).map Prod.fst), by simp [tried]⟩
  | false => exact ⟨engine.observe observation.source, by simp [tried]⟩

/-- `check_hot_reload` as one call is what the reads of its thread do when nothing comes between them. -/
theorem movesAlone_checkHotReload (coherent : engine.Coherent) (free : engine.writer = none)
    (worker : WasmWorker Module Config) (observation : Observation) :
    ∃ observation', MovesAlone instantiates engine (.running worker .idle observation)
      (.running (worker.checkHotReload instantiates engine.cache) .idle observation') := by
  have called : MovesAlone instantiates engine (.running worker .idle observation)
      (.running worker .load observation) := .single ⟨.checkHotReload, rfl⟩
  by_cases older : worker.localGeneration < engine.cache.generation
  · obtain ⟨rounds, count⟩ : ∃ rounds, engine.cache.generation - worker.localGeneration = rounds + 1 :=
      ⟨engine.cache.generation - worker.localGeneration - 1, by omega⟩
    have read : engine.readSnapshot = some engine.cache.currentSnapshot := by
      rw [SharedEngine.readSnapshot, free]
      rfl
    have loaded := called.tail ⟨.proceed, act_load_behind older⟩
    rw [WasmWorker.checkHotReload, count, WasmWorker.checkRounds, EngineCache.moduleGeneration, if_pos older]
    cases tried : worker.tryAdopt instantiates engine.cache.currentSnapshot with
    | mk adopted goesOn =>
      obtain ⟨_, snapshotRead⟩ := act_snapshot free tried
      have tried' := loaded.tail ⟨.proceed, snapshotRead⟩
      cases goesOn with
      | false => exact ⟨_, tried'⟩
      | true =>
        -- The loop goes on only behind an installed snapshot, which carries the engine's generation.
        have current : adopted.localGeneration = engine.cache.generation := by
          have backed := coherent.readable read
          cases found : engine.cache.currentSnapshot with
          | none =>
            rw [found] at tried
            cases tried
          | some snapshot =>
            rw [found] at tried backed
            simp only [WasmWorker.tryAdopt] at tried
            split at tried
            · cases tried
            · split at tried
              · cases tried
                exact backed.1
              · cases tried
        have upToDate : ¬ adopted.localGeneration < engine.cache.moduleGeneration := by
          rw [EngineCache.moduleGeneration, current]
          exact Nat.lt_irrefl _
        have stays : adopted.checkRounds instantiates engine.cache rounds = adopted := by
          cases rounds with
          | zero => rfl
          | succ rest => rw [WasmWorker.checkRounds, if_neg upToDate]
        simp only [if_true, stays]
        exact ⟨_, tried'.tail ⟨.proceed, act_load_upToDate (Nat.le_of_eq current.symm)⟩⟩
  · have newer : engine.cache.generation ≤ worker.localGeneration := Nat.le_of_not_lt older
    have none : engine.cache.generation - worker.localGeneration = 0 := by omega
    rw [WasmWorker.checkHotReload, none, WasmWorker.checkRounds]
    exact ⟨_, called.tail ⟨.proceed, act_load_upToDate newer⟩⟩

def worker? : WorkerThread Module Config → Option (WasmWorker Module Config)
  | .running worker _ _ => some worker
  | _ => none

end WorkerThread

def ReloadSystem.Sound.site {system : ReloadSystem Module WasmTransformerConfig} (sound : system.Sound) (handle : Nat) :
    EngineSite Module where
  handle := handle
  cache := system.shared.cache
  workers := system.threads.filterMap WorkerThread.worker?
  behind := by
    intro worker member
    obtain ⟨thread, place, eq⟩ := List.mem_filterMap.mp member
    cases thread with
    | running worker phase observation =>
      cases eq
      have tracked : WorkerThread.Tracked system.shared worker observation := sound.books _ place
      exact tracked.behind
    | creating | unseen | failed => cases eq

namespace Runtime

variable (runtime : Runtime Bytes Module)

def engines (sites : List (EngineSite Module)) : List (Nat × EngineCache Module) :=
  sites.map fun site => (site.handle, site.cache)

/-- After a reload that reported success the next check of every worker switches it to the module of its engine;
    after one that failed no engine has changed. -/
def StagedReloadAdopted (sites : List (EngineSite Module)) (bytes : Bytes) (expectedSha : Option String) : Prop :=
  match runtime.stageAndPublishModule (engines sites) bytes expectedSha with
  | (.error _, after) => after = engines sites
  | (.ok _, after) =>
    List.Forall₂ (fun site engine => ∀ worker ∈ site.workers, ∀ module,
      runtime.compile site.handle bytes = .ok module →
        (worker.checkHotReload runtime.instantiates engine.2).Runs module) sites after

def ReloadAdopted (config : WasmTransformerConfig) (site : EngineSite Module) (file : Except String Bytes) : Prop :=
  match runtime.reloadModule config site.handle site.cache file with
  | (.error _, after) => after = site.cache
  | (.ok _, after) => ∀ worker ∈ site.workers, ∀ bytes module, file = .ok bytes →
      runtime.compile site.handle bytes = .ok module →
        (worker.checkHotReload runtime.instantiates after).Runs module

/-- The digest is the expected one, and every engine compiles the bytes to a module that the probe's configuration
    instantiates. -/
def StagedAccepts (sites : List (EngineSite Module)) (bytes : Bytes) (expectedSha : Option String) : Prop :=
  (∀ expected, expectedSha = some expected → runtime.digestMatches bytes expected = true) ∧
    ∀ site ∈ sites, ∃ module, runtime.compile site.handle bytes = .ok module ∧
      runtime.instantiates module probeCfg = true

/-- The file can be read, its digest is the configured one, it compiles, and the configuration instantiates it for
    its signal, or for each signal where it names none. -/
def ReloadAccepts (config : WasmTransformerConfig) (handle : Nat) (bytes : Bytes) (module : Module) : Prop :=
  (∀ expected, config.sha256 = some expected → runtime.digestMatches bytes expected = true) ∧
    runtime.compile handle bytes = .ok module ∧
    match config.env.lookup "signal" with
    | some _ => runtime.instantiates module config = true
    | none => ∀ signal ∈ ["logs", "traces", "metrics"],
        runtime.instantiates module (config.withEnv "signal" signal) = true

/-- Every worker of a site has a configuration that instantiates the module, or runs the module already. -/
def Fits (site : EngineSite Module) (module : Module) : Prop :=
  ∀ worker ∈ site.workers, runtime.instantiates module worker.config = true ∨ worker.Runs module

variable {runtime}

theorem instantiates_iff {module : Module} {config : WasmTransformerConfig} :
    runtime.instantiates module config = true ↔ runtime.instantiateGuest module config = .ok () := by
  rw [instantiates]
  cases runtime.instantiateGuest module config with
  | error error => exact ⟨(nomatch ·), (nomatch ·)⟩
  | ok guest => exact ⟨fun _ => rfl, fun _ => rfl⟩

theorem compileAndProbeCandidate_ok {handle : Nat} {bytes : Bytes} {module : Module} :
    runtime.compileAndProbeCandidate handle bytes none = .ok module ↔
      runtime.compile handle bytes = .ok module ∧ runtime.instantiates module probeCfg = true := by
  rw [instantiates_iff]
  simp only [compileAndProbeCandidate, verifySha256, probeCandidate]
  cases runtime.compile handle bytes with
  | error error => exact ⟨(nomatch ·), fun both => nomatch both.1⟩
  | ok compiled =>
    show (runtime.instantiateGuest compiled probeCfg >>= fun _ => pure compiled) = .ok module ↔ _
    cases guest : runtime.instantiateGuest compiled probeCfg with
    | error error =>
      refine ⟨(nomatch ·), fun both => ?_⟩
      rw [Except.ok.inj both.1] at guest
      exact nomatch guest.symm.trans both.2
    | ok made =>
      refine ⟨fun eq => ?_, fun both => congrArg _ (Except.ok.inj both.1)⟩
      have same : compiled = module := Except.ok.inj eq
      rw [← same]
      exact ⟨rfl, guest⟩

theorem publishEach_forall₂ {staged : EngineSite Module → Module → Prop} {sites : List (EngineSite Module)}
    {candidates : List Module} (all : List.Forall₂ staged sites candidates) (lastGen : Nat) :
    List.Forall₂ (fun site engine => ∃ module, staged site module ∧
      engine = (site.handle, (site.cache.publishModule module).1)) sites
      (publishEach lastGen (engines sites) candidates).2 := by
  induction all generalizing lastGen with
  | nil => exact .nil
  | cons first rest ih => exact .cons ⟨_, first, rfl⟩ (ih _)

theorem filter_mismatch_eq_none {matchesDigest : String → Bool} {expected : Option String} :
    (expected.filter fun digest => !matchesDigest digest) = none ↔
      ∀ digest, expected = some digest → matchesDigest digest = true := by
  cases expected with
  | none => exact ⟨fun _ _ eq => (nomatch eq), fun _ => rfl⟩
  | some digest => simp [Option.filter]

theorem stagedReloadAdopted_iff (sites : List (EngineSite Module)) (bytes : Bytes) (expectedSha : Option String) :
    runtime.StagedReloadAdopted sites bytes expectedSha ↔
      (runtime.StagedAccepts sites bytes expectedSha → ∀ site ∈ sites, ∀ module,
        runtime.compile site.handle bytes = .ok module → runtime.Fits site module) := by
  rw [StagedReloadAdopted, stageAndPublishModule]
  cases digest : expectedSha.filter fun expected => !runtime.digestMatches bytes expected with
  | some expected =>
    refine ⟨fun _ accepts => ?_, fun _ => rfl⟩
    rw [filter_mismatch_eq_none.mpr accepts.1] at digest
    cases digest
  | none =>
    simp only
    cases staged : (engines sites).mapM fun engine => runtime.compileAndProbeCandidate engine.1 bytes none with
    | error error =>
      refine ⟨fun _ accepts => ?_, fun _ => rfl⟩
      obtain ⟨engine, member, failed⟩ := mapM_error staged
      obtain ⟨site, place, rfl⟩ := List.mem_map.mp member
      obtain ⟨module, accepted⟩ := accepts.2 site place
      exact nomatch failed.symm.trans (compileAndProbeCandidate_ok.mpr accepted)
    | ok candidates =>
      have each := List.forall₂_map_left_iff.mp (mapM_ok staged)
      have published := publishEach_forall₂ each 0
      have accepts : runtime.StagedAccepts sites bytes expectedSha := by
        refine ⟨filter_mismatch_eq_none.mp digest, fun site member => ?_⟩
        obtain ⟨position, bound, rfl⟩ := List.getElem_of_mem member
        have bound' : position < candidates.length := each.length_eq ▸ bound
        exact ⟨candidates[position], compileAndProbeCandidate_ok.mp (each.get bound bound')⟩
      rw [forall_prop_of_true accepts]
      refine forall₂_iff_forall published ?_
      rintro site _ ⟨module, staged, rfl⟩
      have compiled := (compileAndProbeCandidate_ok.mp staged).1
      constructor
      · intro adopted other same worker member
        have known := adopted worker member other same
        rw [← Except.ok.inj (compiled.symm.trans same)] at known ⊢
        exact (WasmWorker.runs_checkHotReload_iff _ _ (site.behind worker member)).mp known
      · intro fits worker member other same
        have known := fits other same worker member
        rw [← Except.ok.inj (compiled.symm.trans same)] at known ⊢
        exact (WasmWorker.runs_checkHotReload_iff _ _ (site.behind worker member)).mpr known

theorem probeSignals_ok {module : Module} {config : WasmTransformerConfig} :
    runtime.probeSignals module config = .ok () ↔
      match config.env.lookup "signal" with
      | some _ => runtime.instantiates module config = true
      | none => ∀ signal ∈ ["logs", "traces", "metrics"],
          runtime.instantiates module (config.withEnv "signal" signal) = true := by
  simp only [probeSignals, probeCandidate]
  cases config.env.lookup "signal" with
  | some signal => rw [mapError_ok, instantiates_iff]
  | none =>
    rw [forM_ok]
    simp only [mapError_ok, instantiates_iff]

theorem reloadCandidate_ok {config : WasmTransformerConfig} {handle : Nat} {file : Except String Bytes}
    {module : Module} :
    runtime.reloadCandidate config handle file = .ok module ↔
      ∃ bytes, file = .ok bytes ∧ runtime.ReloadAccepts config handle bytes module := by
  cases file with
  | error error =>
    constructor
    · intro failed
      cases failed
    · rintro ⟨bytes, read, -⟩
      cases read
  | ok bytes =>
    simp only [Except.ok.injEq, exists_eq_left', ReloadAccepts, ← probeSignals_ok]
    simp only [reloadCandidate, Except.mapError, bind, Except.bind]
    cases digest : config.sha256.filter fun expected => !runtime.digestMatches bytes expected with
    | some expected =>
      constructor
      · intro failed
        cases failed
      · intro accepts
        rw [filter_mismatch_eq_none.mpr accepts.1] at digest
        cases digest
    | none =>
      have verified := filter_mismatch_eq_none.mp digest
      cases compiled : runtime.compile handle bytes with
      | error error =>
        constructor
        · intro failed
          cases failed
        · intro accepts
          cases accepts.2.1
      | ok newMod =>
        simp only [Except.ok.injEq]
        cases probed : runtime.probeSignals newMod config with
        | error error =>
          constructor
          · intro failed
            cases failed
          · rintro ⟨-, same, probes⟩
            rw [same, probes] at probed
            cases probed
        | ok done =>
          refine ⟨fun eq => ?_, fun accepts => congrArg _ accepts.2.1⟩
          have same : newMod = module := Except.ok.inj eq
          exact ⟨verified, same, same ▸ probed⟩

theorem reloadAdopted_iff (config : WasmTransformerConfig) (site : EngineSite Module) (file : Except String Bytes) :
    runtime.ReloadAdopted config site file ↔
      ∀ bytes module, file = .ok bytes → runtime.ReloadAccepts config site.handle bytes module →
        runtime.Fits site module := by
  rw [ReloadAdopted, reloadModule]
  cases reloaded : runtime.reloadCandidate config site.handle file with
  | error error =>
    refine ⟨fun _ bytes module read accepts => ?_, fun _ => rfl⟩
    exact nomatch reloaded.symm.trans (reloadCandidate_ok.mpr ⟨bytes, read, accepts⟩)
  | ok newMod =>
    obtain ⟨bytes, read, accepts⟩ := reloadCandidate_ok.mp reloaded
    simp only
    constructor
    · intro adopted other module read' accepts' worker member
      have known := adopted worker member other module read' accepts'.2.1
      have same : newMod = module := by
        rw [read] at read'
        cases read'
        exact Except.ok.inj (accepts.2.1.symm.trans accepts'.2.1)
      rw [← same] at known ⊢
      exact (WasmWorker.runs_checkHotReload_iff _ _ (site.behind worker member)).mp known
    · intro fits worker member other module read' compiled
      have same : newMod = module := by
        rw [read] at read'
        cases read'
        exact Except.ok.inj (accepts.2.1.symm.trans compiled)
      rw [← same]
      have taken := fits bytes newMod read accepts worker member
      exact (WasmWorker.runs_checkHotReload_iff _ _ (site.behind worker member)).mpr taken

/-- A reload that reports success is adopted by every worker, and one that fails changes no engine, exactly when a
    module that passes the reload's own digest, compilation and probes is instantiated by the configuration of every
    worker that does not run it already. -/
theorem reload_adopted_iff (runtime : Runtime Bytes Module) :
    (∀ (sites : List (EngineSite Module)) bytes expectedSha,
      runtime.StagedReloadAdopted sites bytes expectedSha ↔
        (runtime.StagedAccepts sites bytes expectedSha → ∀ site ∈ sites, ∀ module,
          runtime.compile site.handle bytes = .ok module → runtime.Fits site module)) ∧
    (∀ config (site : EngineSite Module) file,
      runtime.ReloadAdopted config site file ↔
        ∀ bytes module, file = .ok bytes → runtime.ReloadAccepts config site.handle bytes module →
          runtime.Fits site module) :=
  ⟨stagedReloadAdopted_iff, reloadAdopted_iff⟩

/-- A guest that refuses to start without its settings, over modules that are their own bytes. -/
def settingsRuntime : Runtime Nat Nat where
  compile := fun _ bytes => .ok bytes
  instantiateGuest := fun module config =>
    if module = 2 ∧ config.env.lookup "signal" = some "logs" then .error (.initFailed "guest returned -1") else .ok ()
  computeSha256 := fun _ => "00"

def logsWorker : WasmWorker Nat WasmTransformerConfig where
  module := 1
  config := { id := "mask", modulePath := "mask.wasm", env := [("signal", "logs")] }
  guest := 1
  localGeneration := 1

def logsSite : EngineSite Nat where
  handle := 0
  cache := { snapshot := some ⟨1, 1⟩, generation := 1 }
  workers := [logsWorker]
  behind := by simp [logsWorker]

theorem not_stagedReloadAdopted_logs : ¬ settingsRuntime.StagedReloadAdopted [logsSite] 2 none := by
  intro adopted
  cases adopted with
  | cons first _ =>
    have runs := first logsWorker List.mem_cons_self 2 rfl
    exact absurd runs.1 (by decide)

end Runtime

end OtelDatalake.Wasm
