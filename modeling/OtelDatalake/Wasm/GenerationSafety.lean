import OtelDatalake.Wasm.HotReload

open OtelDatalake.Foundation

namespace OtelDatalake.Wasm

variable {Module Config : Type}

namespace SharedEngine

def Backed (published : List (Nat × Module)) (generation : Nat) : Option (ModuleSnapshot Module) → Prop
  | none => published = []
  | some snapshot => snapshot.generation = generation ∧
      ∃ publishedAt rest, published = (publishedAt, snapshot.module) :: rest

def WriterBacked (engine : SharedEngine Module) : Prop :=
  match engine.writer with
  | none | some (.publishLoad _) | some .advanceAdd | some .release =>
    Backed engine.published engine.cache.generation engine.cache.snapshot
  | some (.publishWrite _ newGen) =>
    newGen = engine.cache.generation + 1 ∧
      Backed engine.published engine.cache.generation engine.cache.snapshot
  | some (.publishStore module newGen) =>
    newGen = engine.cache.generation + 1 ∧
      engine.cache.snapshot = some { module := module, generation := newGen }
  | some (.advanceWrite newGen) =>
    newGen = engine.cache.generation ∧
      ∃ before, newGen = before + 1 ∧ Backed engine.published before engine.cache.snapshot

structure Coherent (engine : SharedEngine Module) : Prop where
  ordered : engine.published.Pairwise fun newer older => older.1 < newer.1
  bounded : ∀ entry ∈ engine.published, entry.1 ≤ engine.cache.generation
  backed : engine.WriterBacked

theorem Coherent.initial : Coherent ({} : SharedEngine Module) :=
  ⟨.nil, fun _ member => absurd member List.not_mem_nil, rfl⟩

/-- What others can see of an engine's turn: the generation grows, by a publish exactly by one. -/
inductive Visible (before after : SharedEngine Module) : Prop where
  | silent (same : after.published = before.published)
    (grows : before.cache.generation ≤ after.cache.generation)
  | publish (module : Module)
    (recorded : after.published = (before.cache.generation + 1, module) :: before.published)
    (grows : after.cache.generation = before.cache.generation + 1)

theorem Coherent.write {engine : SharedEngine Module} (coherent : Coherent engine) {next : EngineWrite Module}
    (holds : engine.writer = some next) :
    Coherent (engine.write next) ∧ Visible engine (engine.write next) := by
  obtain ⟨ordered, bounded, backed⟩ := coherent
  simp only [WriterBacked, holds] at backed
  cases next with
  | publishLoad module => exact ⟨⟨ordered, bounded, rfl, backed⟩, .silent rfl (Nat.le_refl _)⟩
  | publishWrite module newGen => exact ⟨⟨ordered, bounded, backed.1, rfl⟩, .silent rfl (Nat.le_refl _)⟩
  | publishStore module newGen =>
    obtain ⟨rfl, written⟩ := backed
    refine ⟨⟨?_, ?_, ?_⟩, .publish module rfl rfl⟩
    · refine List.pairwise_cons.mpr ⟨?_, ordered⟩
      intro entry member
      exact Nat.lt_succ_of_le (bounded entry member)
    · intro entry member
      rcases List.mem_cons.mp member with rfl | member
      · exact Nat.le_refl _
      · exact Nat.le_succ_of_le (bounded entry member)
    · simp only [WriterBacked, SharedEngine.write, written]
      exact ⟨rfl, _, _, rfl⟩
  | advanceAdd =>
    refine ⟨⟨ordered, ?_, rfl, _, rfl, backed⟩, .silent rfl (Nat.le_succ _)⟩
    intro entry member
    exact Nat.le_succ_of_le (bounded entry member)
  | advanceWrite newGen =>
    obtain ⟨rfl, before, raised, backed⟩ := backed
    refine ⟨⟨ordered, bounded, ?_⟩, .silent rfl (Nat.le_refl _)⟩
    cases found : engine.cache.snapshot with
    | none =>
      rw [found] at backed
      simp only [WriterBacked, SharedEngine.write, found, Option.map_none]
      exact backed
    | some snapshot =>
      rw [found] at backed
      simp only [WriterBacked, SharedEngine.write, found, Option.map_some]
      exact ⟨rfl, backed.2⟩
  | release => exact ⟨⟨ordered, bounded, backed⟩, .silent rfl (Nat.le_refl _)⟩

theorem Coherent.act {engine after : SharedEngine Module} (coherent : Coherent engine) {turn : EngineTurn Module}
    (acted : engine.act turn = some after) : Coherent after ∧ Visible engine after := by
  cases turn with
  | lockPublish module =>
    by_cases free : engine.writer.isNone = true
    · rw [SharedEngine.act, if_pos free] at acted
      cases acted
      have backed := coherent.backed
      simp only [WriterBacked, Option.isNone_iff_eq_none.mp free] at backed
      exact ⟨⟨coherent.ordered, coherent.bounded, backed⟩, .silent rfl (Nat.le_refl _)⟩
    · rw [SharedEngine.act, if_neg free] at acted
      cases acted
  | lockAdvance =>
    by_cases free : engine.writer.isNone = true
    · rw [SharedEngine.act, if_pos free] at acted
      cases acted
      have backed := coherent.backed
      simp only [WriterBacked, Option.isNone_iff_eq_none.mp free] at backed
      exact ⟨⟨coherent.ordered, coherent.bounded, backed⟩, .silent rfl (Nat.le_refl _)⟩
    · rw [SharedEngine.act, if_neg free] at acted
      cases acted
  | proceed =>
    obtain ⟨next, holds, rfl⟩ := Option.map_eq_some_iff.mp acted
    exact coherent.write holds

theorem Coherent.readable {engine : SharedEngine Module} (coherent : Coherent engine)
    {snapshot : Option (ModuleSnapshot Module)} (read : engine.readSnapshot = some snapshot) :
    Backed engine.published engine.cache.generation snapshot := by
  by_cases free : engine.writer.isNone = true
  · rw [readSnapshot, if_pos free] at read
    have backed := coherent.backed
    simp only [WriterBacked, Option.isNone_iff_eq_none.mp free] at backed
    exact Option.some.inj read ▸ backed
  · rw [readSnapshot, if_neg free] at read
    cases read

/-- The newest publish is the last one at or before any generation that it does not exceed. -/
theorem lastPublished_head {engine : SharedEngine Module} {publishedAt generation : Nat} {module : Module}
    {rest : List (Nat × Module)} (newest : engine.published = (publishedAt, module) :: rest)
    (reached : publishedAt ≤ generation) : engine.lastPublished generation = some (publishedAt, module) := by
  rw [lastPublished, newest, List.find?_cons_of_pos]
  simpa using reached

theorem Coherent.lastPublished_snapshot {engine : SharedEngine Module} (coherent : Coherent engine)
    {snapshot : ModuleSnapshot Module} (read : engine.readSnapshot = some (some snapshot)) :
    ∃ publishedAt rest, engine.published = (publishedAt, snapshot.module) :: rest ∧
      publishedAt ≤ snapshot.generation ∧
      engine.lastPublished snapshot.generation = some (publishedAt, snapshot.module) := by
  obtain ⟨current, publishedAt, rest, newest⟩ := coherent.readable read
  have reached : publishedAt ≤ snapshot.generation := by
    rw [current]
    exact coherent.bounded _ (newest ▸ List.mem_cons_self)
  exact ⟨publishedAt, rest, newest, reached, lastPublished_head newest reached⟩

end SharedEngine

namespace WorkerThread

variable {instantiates : Module → Config → Bool}

/-- Everything that one step of a worker can do; it never writes to the engine. -/
inductive Effect (instantiates : Module → Config → Bool) (engine : SharedEngine Module) :
    WorkerThread Module Config → WorkerThread Module Config → Prop where
  | took (module config) (snapshot : ModuleSnapshot Module) (read : engine.readSnapshot = some (some snapshot)) :
    Effect instantiates engine (.creating module config)
      (create instantiates engine snapshot.module config snapshot.generation
        ((engine.lastPublished snapshot.generation).map Prod.fst))
  | missed (module config) (read : engine.readSnapshot = some none) :
    Effect instantiates engine (.creating module config) (.unseen module config)
  | counted (module config) :
    Effect instantiates engine (.unseen module config)
      (create instantiates engine module config engine.cache.moduleGeneration none)
  | behind (worker observation) (older : worker.localGeneration < engine.cache.generation) :
    Effect instantiates engine (.running worker .load observation)
      (.running worker .snapshot (engine.observe observation.source))
  | upToDate (worker observation) (newer : engine.cache.generation ≤ worker.localGeneration) :
    Effect instantiates engine (.running worker .load observation)
      (.running worker .idle (engine.observe observation.source))
  | empty (worker observation) (read : engine.readSnapshot = some none) :
    Effect instantiates engine (.running worker .snapshot observation)
      (.running worker .idle (engine.observe observation.source))
  | known (worker observation) (snapshot : ModuleSnapshot Module)
    (read : engine.readSnapshot = some (some snapshot)) (older : snapshot.generation ≤ worker.localGeneration) :
    Effect instantiates engine (.running worker .snapshot observation)
      (.running worker .idle (engine.observe observation.source))
  | adopted (worker observation) (snapshot : ModuleSnapshot Module)
    (read : engine.readSnapshot = some (some snapshot)) (newer : worker.localGeneration < snapshot.generation) :
    Effect instantiates engine (.running worker .snapshot observation)
      (.running (worker.install snapshot) .load
        (engine.observe ((engine.lastPublished snapshot.generation).map Prod.fst)))
  | refused (worker observation) (snapshot : ModuleSnapshot Module)
    (read : engine.readSnapshot = some (some snapshot)) (newer : worker.localGeneration < snapshot.generation)
    (fails : instantiates snapshot.module worker.config = false) :
    Effect instantiates engine (.running worker .snapshot observation)
      (.running { worker with localGeneration := snapshot.generation } .idle (engine.observe observation.source))
  | called (worker observation) :
    Effect instantiates engine (.running worker .idle observation) (.running worker .load observation)
  | renewed (worker observation) :
    Effect instantiates engine (.running worker .idle observation)
      (.running (worker.rejuvenate instantiates) .idle observation)

theorem proceed_effect {engine : SharedEngine Module} {thread next : WorkerThread Module Config}
    (proceeded : thread.proceed instantiates engine = some next) : Effect instantiates engine thread next := by
  cases thread with
  | creating module config =>
    obtain ⟨snapshot, read, rfl⟩ := Option.map_eq_some_iff.mp proceeded
    cases snapshot with
    | none => exact .missed module config read
    | some snapshot => exact .took module config snapshot read
  | unseen module config =>
    cases proceeded
    exact .counted module config
  | failed => cases proceeded
  | running worker phase observation =>
    cases phase with
    | idle => cases proceeded
    | load =>
      by_cases older : worker.localGeneration < engine.cache.moduleGeneration
      · simp only [proceed, if_pos older] at proceeded
        cases proceeded
        exact .behind worker observation older
      · simp only [proceed, if_neg older] at proceeded
        cases proceeded
        exact .upToDate worker observation (Nat.le_of_not_lt older)
    | snapshot =>
      obtain ⟨snapshot, read, rfl⟩ := Option.map_eq_some_iff.mp proceeded
      cases snapshot with
      | none => exact .empty worker observation read
      | some snapshot =>
        by_cases older : worker.localGeneration ≥ snapshot.generation
        · simp only [WasmWorker.tryAdopt, if_pos older]
          exact .known worker observation snapshot read older
        · have newer : worker.localGeneration < snapshot.generation := Nat.lt_of_not_ge older
          by_cases fits : instantiates snapshot.module worker.config = true
          · simp only [WasmWorker.tryAdopt, if_neg older, if_pos fits]
            exact .adopted worker observation snapshot read newer
          · simp only [WasmWorker.tryAdopt, if_neg older, if_neg fits]
            exact .refused worker observation snapshot read newer (by simpa using fits)

theorem act_effect {engine after : SharedEngine Module} {thread next : WorkerThread Module Config}
    {choice : WorkerChoice} (acted : thread.act instantiates engine choice = some (after, next)) :
    after = engine ∧ Effect instantiates engine thread next := by
  cases choice with
  | proceed =>
    obtain ⟨moved, proceeded, same⟩ := Option.map_eq_some_iff.mp acted
    cases same
    exact ⟨rfl, proceed_effect proceeded⟩
  | checkHotReload =>
    cases thread with
    | running worker phase observation =>
      cases phase with
      | idle =>
        cases acted
        exact ⟨rfl, .called worker observation⟩
      | load | snapshot => cases acted
    | creating | unseen | failed => cases acted
  | rejuvenate =>
    cases thread with
    | running worker phase observation =>
      cases phase with
      | idle =>
        cases acted
        exact ⟨rfl, .renewed worker observation⟩
      | load | snapshot => cases acted
    | creating | unseen | failed => cases acted

/-- A worker's books: its generation is one the engine has reached, its guest is made from its module, and the
    publish it took the module from is in the history at or before its generation. -/
structure Tracked (engine : SharedEngine Module) (worker : WasmWorker Module Config) (observation : Observation) :
    Prop where
  behind : worker.localGeneration ≤ engine.cache.generation
  same : worker.guest = worker.module
  seen : observation.seen ≤ engine.published.length
  source : ∀ publishedAt, observation.source = some publishedAt →
    (publishedAt, worker.guest) ∈ engine.published ∧ publishedAt ≤ worker.localGeneration

/-- A worker whose generation has reached the newest publish runs its module; a worker that has returned with no
    publish since its last read has reached it. -/
structure Current (engine : SharedEngine Module) (worker : WasmWorker Module Config) (phase : ReloadPhase)
    (observation : Observation) : Prop where
  reached : ∀ publishedAt module, engine.published.head? = some (publishedAt, module) →
    publishedAt ≤ worker.localGeneration → worker.guest = module
  returned : phase = .idle → observation.seen = engine.published.length →
    ∀ publishedAt module, engine.published.head? = some (publishedAt, module) →
      publishedAt ≤ worker.localGeneration

def Books (engine : SharedEngine Module) : WorkerThread Module Config → Prop
  | .running worker _ observation => Tracked engine worker observation
  | _ => True

def UpToDate (engine : SharedEngine Module) : WorkerThread Module Config → Prop
  | .running worker phase observation => Current engine worker phase observation
  | _ => True

theorem rejuvenate_localGeneration (worker : WasmWorker Module Config) :
    (worker.rejuvenate instantiates).localGeneration = worker.localGeneration := by
  rw [WasmWorker.rejuvenate]
  split <;> rfl

theorem rejuvenate_module (worker : WasmWorker Module Config) :
    (worker.rejuvenate instantiates).module = worker.module := by
  rw [WasmWorker.rejuvenate]
  split <;> rfl

theorem rejuvenate_guest {worker : WasmWorker Module Config} (same : worker.guest = worker.module) :
    (worker.rejuvenate instantiates).guest = worker.module := by
  rw [WasmWorker.rejuvenate]
  split
  · rfl
  · exact same

theorem Books.effect {engine : SharedEngine Module} (coherent : engine.Coherent)
    {thread next : WorkerThread Module Config} (books : Books engine thread)
    (effect : Effect instantiates engine thread next) : Books engine next := by
  cases effect with
  | took module config snapshot read =>
    obtain ⟨publishedAt, rest, newest, reached, last⟩ := coherent.lastPublished_snapshot read
    obtain ⟨current, -⟩ := coherent.readable read
    unfold create
    split
    · refine ⟨Nat.le_of_eq current, rfl, Nat.le_refl _, ?_⟩
      intro source eq
      simp only [SharedEngine.observe, last, Option.map_some, Option.some.injEq] at eq
      subst eq
      exact ⟨newest ▸ List.mem_cons_self, reached⟩
    · trivial
  | missed => trivial
  | counted module config =>
    unfold create
    split
    · exact ⟨Nat.le_refl _, rfl, Nat.le_refl _, fun _ eq => nomatch eq⟩
    · trivial
  | behind worker observation older | upToDate worker observation older | empty worker observation older
  | known worker observation snapshot older =>
    exact ⟨books.behind, books.same, Nat.le_refl _, books.source⟩
  | adopted worker observation snapshot read newer =>
    obtain ⟨publishedAt, rest, newest, reached, last⟩ := coherent.lastPublished_snapshot read
    obtain ⟨current, -⟩ := coherent.readable read
    refine ⟨Nat.le_of_eq current, rfl, Nat.le_refl _, ?_⟩
    intro source eq
    simp only [SharedEngine.observe, last, Option.map_some, Option.some.injEq] at eq
    subst eq
    exact ⟨newest ▸ List.mem_cons_self, reached⟩
  | refused worker observation snapshot read newer fails =>
    obtain ⟨current, -⟩ := coherent.readable read
    refine ⟨Nat.le_of_eq current, books.same, Nat.le_refl _, ?_⟩
    intro publishedAt eq
    obtain ⟨recorded, earlier⟩ := books.source publishedAt eq
    exact ⟨recorded, Nat.le_of_lt (Nat.lt_of_le_of_lt earlier newer)⟩
  | called worker observation => exact books
  | renewed worker observation =>
    refine ⟨?_, ?_, books.seen, ?_⟩
    · rw [rejuvenate_localGeneration]
      exact books.behind
    · rw [rejuvenate_guest books.same, rejuvenate_module]
    · rw [rejuvenate_localGeneration, rejuvenate_guest books.same, ← books.same]
      exact books.source

theorem Books.visible {before after : SharedEngine Module} {thread : WorkerThread Module Config}
    (books : Books before thread) (visible : before.Visible after) : Books after thread := by
  cases thread with
  | creating | unseen | failed => trivial
  | running worker phase observation =>
    obtain ⟨behind, same, seen, source⟩ := books
    cases visible with
    | silent unchanged grows =>
      refine ⟨Nat.le_trans behind grows, same, ?_, ?_⟩
      · rw [unchanged]
        exact seen
      · rw [unchanged]
        exact source
    | publish module recorded grows =>
      refine ⟨by omega, same, ?_, ?_⟩
      · rw [recorded, List.length_cons]
        omega
      · intro publishedAt eq
        obtain ⟨member, earlier⟩ := source publishedAt eq
        rw [recorded]
        exact ⟨List.mem_cons_of_mem _ member, earlier⟩

theorem UpToDate.effect {engine : SharedEngine Module} (coherent : engine.Coherent)
    (always : ∀ module config, instantiates module config = true) {thread next : WorkerThread Module Config}
    (timely : ∀ module config, thread = .unseen module config → engine.published = [])
    (books : Books engine thread) (current : UpToDate engine thread)
    (effect : Effect instantiates engine thread next) : UpToDate engine next := by
  cases effect with
  | took module config snapshot read =>
    obtain ⟨publishedAt, rest, newest, reached, -⟩ := coherent.lastPublished_snapshot read
    unfold create
    rw [if_pos (always _ _)]
    refine ⟨?_, fun idle => nomatch idle⟩
    intro at' module' head _
    rw [newest, List.head?_cons, Option.some.injEq, Prod.mk.injEq] at head
    exact head.2
  | missed => trivial
  | counted module config =>
    have none := timely module config rfl
    unfold create
    rw [if_pos (always _ _)]
    refine ⟨?_, fun idle => nomatch idle⟩
    intro publishedAt module' head _
    rw [none] at head
    cases head
  | behind worker observation older => exact ⟨current.reached, fun idle => nomatch idle⟩
  | upToDate worker observation newer =>
    refine ⟨current.reached, fun _ _ publishedAt module head => ?_⟩
    have bounded := coherent.bounded _ (List.mem_of_mem_head? head)
    exact Nat.le_trans bounded newer
  | empty worker observation read =>
    refine ⟨current.reached, fun _ _ publishedAt module head => ?_⟩
    have none : engine.published = [] := coherent.readable read
    rw [none] at head
    cases head
  | known worker observation snapshot read older =>
    refine ⟨current.reached, fun _ _ publishedAt module head => ?_⟩
    obtain ⟨at', rest, newest, reached, -⟩ := coherent.lastPublished_snapshot read
    rw [newest, List.head?_cons, Option.some.injEq, Prod.mk.injEq] at head
    rw [← head.1]
    exact Nat.le_trans reached older
  | adopted worker observation snapshot read newer =>
    obtain ⟨publishedAt, rest, newest, reached, -⟩ := coherent.lastPublished_snapshot read
    refine ⟨?_, fun idle => nomatch idle⟩
    intro at' module' head _
    rw [newest, List.head?_cons, Option.some.injEq, Prod.mk.injEq] at head
    exact head.2
  | refused worker observation snapshot read newer fails =>
    rw [always] at fails
    cases fails
  | called worker observation => exact ⟨current.reached, fun idle => nomatch idle⟩
  | renewed worker observation =>
    refine ⟨?_, ?_⟩
    · rw [rejuvenate_localGeneration, rejuvenate_guest books.same, ← books.same]
      exact current.reached
    · rw [rejuvenate_localGeneration]
      exact current.returned

theorem UpToDate.visible {before after : SharedEngine Module} {thread : WorkerThread Module Config}
    (books : Books before thread) (current : UpToDate before thread) (visible : before.Visible after) :
    UpToDate after thread := by
  cases thread with
  | creating | unseen | failed => trivial
  | running worker phase observation =>
    cases visible with
    | silent unchanged grows =>
      refine ⟨?_, ?_⟩
      · rw [unchanged]
        exact current.reached
      · rw [unchanged]
        exact current.returned
    | publish module recorded grows =>
      -- The new publish is ahead of the worker, and there is one more than the worker has seen.
      refine ⟨?_, ?_⟩
      · intro publishedAt module' head reached
        rw [recorded, List.head?_cons, Option.some.injEq, Prod.mk.injEq] at head
        have behind := books.behind
        omega
      · intro _ seen
        rw [recorded, List.length_cons] at seen
        have before := books.seen
        omega

/-- From one state of a worker to a later one its generation does not fall, and its module does not come from an
    earlier publish. -/
def Advances (before after : WorkerThread Module Config) : Prop :=
  ∀ worker phase observation, before = .running worker phase observation →
    ∃ worker' phase' observation', after = .running worker' phase' observation' ∧
      worker.localGeneration ≤ worker'.localGeneration ∧
      ∀ publishedAt, observation.source = some publishedAt →
        ∃ later, observation'.source = some later ∧ publishedAt ≤ later

theorem Advances.refl (thread : WorkerThread Module Config) : Advances thread thread :=
  fun _ _ _ eq => ⟨_, _, _, eq, Nat.le_refl _, fun _ source => ⟨_, source, Nat.le_refl _⟩⟩

theorem Advances.trans {first second third : WorkerThread Module Config} (early : Advances first second)
    (late : Advances second third) : Advances first third := by
  intro worker phase observation eq
  obtain ⟨worker', phase', observation', eq', grows, sources⟩ := early _ _ _ eq
  obtain ⟨worker'', phase'', observation'', eq'', grows', sources'⟩ := late _ _ _ eq'
  refine ⟨worker'', phase'', observation'', eq'', Nat.le_trans grows grows', ?_⟩
  intro publishedAt source
  obtain ⟨next, source', order⟩ := sources _ source
  obtain ⟨later, source'', order'⟩ := sources' _ source'
  exact ⟨later, source'', Nat.le_trans order order'⟩

theorem Advances.effect {engine : SharedEngine Module} (coherent : engine.Coherent)
    {thread next : WorkerThread Module Config} (books : Books engine thread)
    (effect : Effect instantiates engine thread next) : Advances thread next := by
  intro worker phase observation eq
  cases effect with
  | took | missed | counted => cases eq
  | behind | upToDate | empty | known | called =>
    cases eq
    exact ⟨_, _, _, rfl, Nat.le_refl _, fun _ source => ⟨_, source, Nat.le_refl _⟩⟩
  | adopted worker observation snapshot read newer =>
    cases eq
    refine ⟨_, _, _, rfl, Nat.le_of_lt newer, ?_⟩
    intro publishedAt source
    obtain ⟨recorded, -⟩ := books.source publishedAt source
    obtain ⟨newestAt, rest, newest, -, last⟩ := coherent.lastPublished_snapshot read
    refine ⟨newestAt, by simp only [SharedEngine.observe, last, Option.map_some], ?_⟩
    -- The newest publish is the greatest of the history.
    have ordered := coherent.ordered
    rw [newest] at recorded ordered
    rcases List.mem_cons.mp recorded with same | older
    · exact Nat.le_of_eq (Prod.mk.inj same).1
    · exact Nat.le_of_lt ((List.pairwise_cons.mp ordered).1 _ older)
  | refused worker observation snapshot read newer fails =>
    cases eq
    exact ⟨_, _, _, rfl, Nat.le_of_lt newer, fun _ source => ⟨_, source, Nat.le_refl _⟩⟩
  | renewed worker observation =>
    cases eq
    refine ⟨_, _, _, rfl, ?_, fun _ source => ⟨_, source, Nat.le_refl _⟩⟩
    exact Nat.le_of_eq (rejuvenate_localGeneration worker).symm

def isChecking : WorkerThread Module Config → Bool
  | .running _ .load _ | .running _ .snapshot _ => true
  | _ => false

/-- How many reads `check_hot_reload` has still to make while the engine's generation stays. -/
def remaining (engine : SharedEngine Module) : WorkerThread Module Config → Nat
  | .running worker .load _ => if worker.localGeneration < engine.cache.generation then 3 else 1
  | .running _ .snapshot _ => 2
  | _ => 0

theorem remaining_pos (engine : SharedEngine Module) {thread : WorkerThread Module Config}
    (checking : thread.isChecking = true) : 0 < thread.remaining engine := by
  cases thread with
  | creating | unseen | failed => cases checking
  | running worker phase observation =>
    cases phase with
    | idle => cases checking
    | load =>
      simp only [remaining]
      split <;> omega
    | snapshot => exact Nat.succ_pos _

theorem remaining_le (engine : SharedEngine Module) (thread : WorkerThread Module Config) :
    thread.remaining engine ≤ 3 := by
  cases thread with
  | creating | unseen | failed => exact Nat.zero_le _
  | running worker phase observation =>
    cases phase with
    | idle => exact Nat.zero_le _
    | load =>
      simp only [remaining]
      split <;> omega
    | snapshot => exact Nat.le_succ _

theorem remaining_grows {before after : SharedEngine Module}
    (grows : before.cache.generation ≤ after.cache.generation) (thread : WorkerThread Module Config) :
    thread.remaining after ≤ thread.remaining before + 2 * (after.cache.generation - before.cache.generation) := by
  cases thread with
  | creating | unseen | failed => exact Nat.zero_le _
  | running worker phase observation =>
    cases phase with
    | idle => exact Nat.zero_le _
    | load =>
      simp only [remaining]
      split <;> split <;> omega
    | snapshot => exact Nat.le_add_right _ _

theorem remaining_falls {engine : SharedEngine Module} (coherent : engine.Coherent)
    {thread next : WorkerThread Module Config} (checking : thread.isChecking = true)
    (effect : Effect instantiates engine thread next) :
    (∃ worker observation, next = .running worker .idle observation) ∨
      (next.isChecking = true ∧ next.remaining engine < thread.remaining engine) := by
  cases effect with
  | took | missed | counted | called | renewed => cases checking
  | behind worker observation older =>
    refine .inr ⟨rfl, ?_⟩
    simp only [remaining, if_pos older]
    omega
  | upToDate | empty | known | refused => exact .inl ⟨_, _, rfl⟩
  | adopted worker observation snapshot read newer =>
    obtain ⟨current, -⟩ := coherent.readable read
    have reached : ¬ (worker.install snapshot).localGeneration < engine.cache.generation := by
      rw [WasmWorker.install, current]
      exact Nat.lt_irrefl _
    refine .inr ⟨rfl, ?_⟩
    simp only [remaining, if_neg reached]
    omega

theorem proceed_isSome (instantiates : Module → Config → Bool) (engine : SharedEngine Module)
    {thread : WorkerThread Module Config}
    (checking : thread.isChecking = true) :
    (thread.act instantiates engine .proceed).isSome = true ∨ engine.writer.isSome = true := by
  cases free : engine.writer with
  | some writer => exact .inr rfl
  | none =>
    refine .inl ?_
    cases thread with
    | creating | unseen | failed => cases checking
    | running worker phase observation =>
      cases phase with
      | idle => cases checking
      | load => rfl
      | snapshot => simp [act, proceed, SharedEngine.readSnapshot, free]

end WorkerThread

namespace ReloadSystem

variable {instantiates : Module → Config → Bool}

theorem step_cases {before after : ReloadSystem Module Config} {turn : ReloadTurn Module Config}
    (stepped : step instantiates before turn = some after) :
    (∃ engineTurn engine, turn = .engine engineTurn ∧ before.shared.act engineTurn = some engine ∧
      after = ⟨engine, before.threads⟩) ∨
    (∃ module config, turn = .worker (.start (.creating module config)) ∧
      after = ⟨before.shared, before.threads ++ [.creating module config]⟩) ∨
    (∃ left thread right choice next, turn = .worker (.act left.length choice) ∧
      before.threads = left ++ thread :: right ∧ WorkerThread.Effect instantiates before.shared thread next ∧
      after = ⟨before.shared, left ++ next :: right⟩) := by
  cases turn with
  | engine engineTurn =>
    obtain ⟨engine, acted, rfl⟩ := Option.map_eq_some_iff.mp stepped
    exact .inl ⟨engineTurn, engine, rfl, acted, rfl⟩
  | worker workerTurn =>
    obtain ⟨thread, rfl, fresh, rfl⟩ | ⟨left, thread, right, choice, engine, next, rfl, split, acted, rfl⟩ :=
      Interleaved.step_cases stepped
    · cases thread with
      | creating module config => exact .inr (.inl ⟨module, config, rfl, rfl⟩)
      | unseen | failed | running => cases fresh
    · obtain ⟨rfl, effect⟩ := WorkerThread.act_effect acted
      exact .inr (.inr ⟨left, thread, right, choice, next, rfl, split, effect, rfl⟩)

structure Sound (system : ReloadSystem Module Config) : Prop where
  coherent : system.shared.Coherent
  books : ∀ thread ∈ system.threads, thread.Books system.shared

theorem Sound.initial : Sound (initial : ReloadSystem Module Config) :=
  ⟨SharedEngine.Coherent.initial, fun _ member => absurd member List.not_mem_nil⟩

theorem Sound.step {before after : ReloadSystem Module Config} {turn : ReloadTurn Module Config}
    (sound : Sound before) (stepped : step instantiates before turn = some after) : Sound after := by
  obtain ⟨coherent, books⟩ := sound
  obtain ⟨engineTurn, engine, rfl, acted, rfl⟩ | ⟨module, config, rfl, rfl⟩ |
    ⟨left, thread, right, choice, next, rfl, split, effect, rfl⟩ := step_cases stepped
  · obtain ⟨coherent, visible⟩ := coherent.act acted
    exact ⟨coherent, fun thread member => (books thread member).visible visible⟩
  · refine ⟨coherent, fun thread member => ?_⟩
    rcases List.mem_append.mp member with member | member
    · exact books thread member
    · rw [List.mem_singleton.mp member]
      trivial
  · rw [split] at books
    refine ⟨coherent, fun other member => ?_⟩
    rcases List.mem_append.mp member with member | member
    · exact books other (List.mem_append_left _ member)
    · rcases List.mem_cons.mp member with rfl | member
      · exact (books thread (by simp)).effect coherent effect
      · exact books other (by simp [member])

theorem Sound.of_run {permitted : ReloadSystem Module Config → ReloadTurn Module Config → Prop}
    {before after : ReloadSystem Module Config} (sound : Sound before)
    (run : Run (ReloadSystem.step instantiates) permitted before after) : Sound after :=
  run.invariant Sound sound fun _ _ _ holds _ stepped => holds.step stepped

def Fresh (system : ReloadSystem Module Config) : Prop :=
  ∀ thread ∈ system.threads, thread.UpToDate system.shared

theorem Fresh.step (always : ∀ module config, instantiates module config = true)
    {before after : ReloadSystem Module Config} {turn : ReloadTurn Module Config} (sound : Sound before)
    (fresh : Fresh before) (timely : timelyNew before turn = true)
    (stepped : step instantiates before turn = some after) : Fresh after := by
  obtain ⟨engineTurn, engine, rfl, acted, rfl⟩ | ⟨module, config, rfl, rfl⟩ |
    ⟨left, thread, right, choice, next, rfl, split, effect, rfl⟩ := step_cases stepped
  · obtain ⟨-, visible⟩ := sound.coherent.act acted
    exact fun thread member => (fresh thread member).visible (sound.books thread member) visible
  · intro thread member
    rcases List.mem_append.mp member with member | member
    · exact fresh thread member
    · rw [List.mem_singleton.mp member]
      trivial
  · have unpublished : ∀ module config, thread = .unseen module config → before.shared.published = [] := by
      rintro module config rfl
      simpa [timelyNew, split] using timely
    have own : thread ∈ before.threads := by simp [split]
    intro other member
    rcases List.mem_append.mp member with member | member
    · exact fresh other (split ▸ List.mem_append_left _ member)
    · rcases List.mem_cons.mp member with rfl | member
      · exact (fresh thread own).effect sound.coherent always unpublished (sound.books thread own) effect
      · exact fresh other (by simp [split, member])

theorem step_advances {before after : ReloadSystem Module Config} {turn : ReloadTurn Module Config}
    (sound : Sound before) (stepped : step instantiates before turn = some after) (index : Nat)
    (thread : WorkerThread Module Config) (found : before.threads[index]? = some thread) :
    ∃ next, after.threads[index]? = some next ∧ thread.Advances next := by
  obtain ⟨engineTurn, engine, rfl, acted, rfl⟩ | ⟨module, config, rfl, rfl⟩ |
    ⟨left, moving, right, choice, next, rfl, split, effect, rfl⟩ := step_cases stepped
  · exact ⟨thread, found, .refl thread⟩
  · obtain ⟨bound, -⟩ := List.getElem?_eq_some_iff.mp found
    exact ⟨thread, by rw [List.getElem?_append_left bound]; exact found, .refl thread⟩
  · rw [split] at found
    have books : moving.Books before.shared := sound.books moving (by simp [split])
    by_cases own : left.length = index
    · subst own
      have same : moving = thread := by simpa using found
      subst same
      exact ⟨next, by simp, .effect sound.coherent books effect⟩
    · refine ⟨thread, ?_, .refl thread⟩
      simp only
      rw [← Interleaved.set_split left right moving next, List.getElem?_set_ne own]
      exact found

theorem run_advances {permitted : ReloadSystem Module Config → ReloadTurn Module Config → Prop}
    {before after : ReloadSystem Module Config} (sound : Sound before)
    (run : Run (step instantiates) permitted before after) (index : Nat) (thread : WorkerThread Module Config)
    (found : before.threads[index]? = some thread) :
    ∃ next, after.threads[index]? = some next ∧ thread.Advances next := by
  induction run with
  | refl => exact ⟨thread, found, .refl thread⟩
  | tail run move ih =>
    obtain ⟨middle, found, early⟩ := ih
    obtain ⟨turn, -, stepped⟩ := move
    obtain ⟨next, found, late⟩ := step_advances (sound.of_run run) stepped index middle found
    exact ⟨next, found, early.trans late⟩

def isOwn (index : Nat) : ReloadTurn Module Config → Bool
  | .worker (.act position _) => position = index
  | _ => false

theorem step_generation {before after : ReloadSystem Module Config} {turn : ReloadTurn Module Config}
    (sound : Sound before) (stepped : step instantiates before turn = some after) :
    before.shared.cache.generation ≤ after.shared.cache.generation := by
  obtain ⟨engineTurn, engine, rfl, acted, rfl⟩ | ⟨module, config, rfl, rfl⟩ |
    ⟨left, moving, right, choice, next, rfl, split, effect, rfl⟩ := step_cases stepped
  · obtain ⟨-, visible⟩ := sound.coherent.act acted
    cases visible with
    | silent same grows => exact grows
    | publish module recorded grows => exact grows ▸ Nat.le_succ _
  · exact Nat.le_refl _
  · exact Nat.le_refl _

theorem execute_generation {before after : ReloadSystem Module Config} {turns : List (ReloadTurn Module Config)}
    (sound : Sound before) (executed : execute (step instantiates) before turns = some after) :
    before.shared.cache.generation ≤ after.shared.cache.generation := by
  induction turns generalizing before with
  | nil =>
    cases executed
    exact Nat.le_refl _
  | cons turn rest ih =>
    obtain ⟨next, stepped, executed⟩ := Option.bind_eq_some_iff.mp executed
    exact Nat.le_trans (step_generation sound stepped) (ih (sound.step stepped) executed)

/-- A check that has made as many reads as it had to, and two more for every generation that came in between, has
    returned on the way. -/
theorem check_returns {turns : List (ReloadTurn Module Config)} {before after : ReloadSystem Module Config}
    {index : Nat} {thread : WorkerThread Module Config} (sound : Sound before)
    (found : before.threads[index]? = some thread) (checking : thread.isChecking = true)
    (executed : execute (step instantiates) before turns = some after)
    (enough : thread.remaining before.shared +
      2 * (after.shared.cache.generation - before.shared.cache.generation) ≤ turns.countP (isOwn index)) :
    ∃ done rest middle worker observation, turns = done ++ rest ∧
      execute (step instantiates) before done = some middle ∧
      middle.threads[index]? = some (.running worker .idle observation) := by
  induction turns generalizing before thread with
  | nil =>
    have positive := WorkerThread.remaining_pos before.shared checking
    simp only [List.countP_nil] at enough
    omega
  | cons turn rest ih =>
    obtain ⟨next, stepped, executed⟩ := Option.bind_eq_some_iff.mp executed
    have grows := step_generation sound stepped
    have grows' := execute_generation (sound.step stepped) executed
    -- A check that goes on from `next` with enough turns left returns in the rest.
    have goesOn : ∀ thread', next.threads[index]? = some thread' → thread'.isChecking = true →
        thread'.remaining next.shared + 2 * (after.shared.cache.generation - next.shared.cache.generation) ≤
          rest.countP (isOwn index) →
        ∃ done rest' middle worker observation, turn :: rest = done ++ rest' ∧
          execute (step instantiates) before done = some middle ∧
          middle.threads[index]? = some (.running worker .idle observation) := by
      intro thread' found' checking' enough'
      obtain ⟨done, rest', middle, worker, observation, split, reached, idle⟩ :=
        ih (sound.step stepped) found' checking' executed enough'
      refine ⟨turn :: done, rest', middle, worker, observation, by rw [split, List.cons_append], ?_, idle⟩
      rw [execute, stepped]
      exact reached
    obtain ⟨engineTurn, engine, rfl, acted, rfl⟩ | ⟨module, config, rfl, rfl⟩ |
      ⟨left, moving, right, choice, moved, rfl, split, effect, rfl⟩ := step_cases stepped
    · refine goesOn thread found checking ?_
      have more := thread.remaining_grows grows
      simp only [List.countP_cons, isOwn, Bool.false_eq_true, if_false] at enough
      simp only at grows grows' more ⊢
      omega
    · obtain ⟨bound, -⟩ := List.getElem?_eq_some_iff.mp found
      refine goesOn thread (by rw [List.getElem?_append_left bound]; exact found) checking ?_
      simpa only [List.countP_cons, isOwn, Bool.false_eq_true, if_false, Nat.add_zero] using enough
    · rw [split] at found
      by_cases own : left.length = index
      · subst own
        have same : moving = thread := by simpa using found
        subst same
        rcases moving.remaining_falls sound.coherent checking effect with ⟨worker, observation, rfl⟩ | ⟨goes, falls⟩
        · have reached : execute (step instantiates) before [.worker (.act left.length choice)] =
              some ⟨before.shared, left ++ .running worker .idle observation :: right⟩ := by
            rw [execute, stepped]
            rfl
          exact ⟨_, rest, _, worker, observation, rfl, reached, Interleaved.getElem?_moved left right _⟩
        · refine goesOn moved (Interleaved.getElem?_moved left right moved) goes ?_
          simp only [List.countP_cons, isOwn, decide_true, if_true] at enough
          show moved.remaining before.shared +
            2 * (after.shared.cache.generation - before.shared.cache.generation) ≤ rest.countP (isOwn left.length)
          omega
      · refine goesOn thread ?_ checking ?_
        · simp only
          rw [← Interleaved.set_split left right moving moved, List.getElem?_set_ne own]
          exact found
        · simpa only [List.countP_cons, isOwn, decide_eq_false own, Bool.false_eq_true, if_false, Nat.add_zero]
            using enough

/-- The laws that hold in every interleaving: a snapshot that can be read pairs its generation with the module
    published last at or before it; a worker's generation is one the engine has reached and its module the one of
    the publish it came with; neither goes back later on; and a check in progress can always go on, once a writer
    has left the lock, and returns after at most three reads and two more for every new generation. -/
structure Consistent (instantiates : Module → Config → Bool) (system : ReloadSystem Module Config) : Prop where
  paired : ∀ snapshot, system.shared.readSnapshot = some (some snapshot) →
    (system.shared.lastPublished snapshot.generation).map Prod.snd = some snapshot.module
  behind : ∀ worker phase observation, .running worker phase observation ∈ system.threads →
    worker.localGeneration ≤ system.shared.cache.generation
  sourced : ∀ worker phase observation publishedAt, .running worker phase observation ∈ system.threads →
    observation.source = some publishedAt → (publishedAt, worker.guest) ∈ system.shared.published
  advances : ∀ later, Run (step instantiates) (fun _ _ => True) system later →
    ∀ (index : Nat) thread, system.threads[index]? = some thread →
      ∃ next, later.threads[index]? = some next ∧ WorkerThread.Advances thread next
  goesOn : ∀ (index : Nat) thread, system.threads[index]? = some thread → thread.isChecking = true →
    (step instantiates system (.worker (.act index .proceed))).isSome = true ∨
      (system.shared.writer.isSome = true ∧ (step instantiates system (.engine .proceed)).isSome = true)
  returns : ∀ (index : Nat) thread, system.threads[index]? = some thread → thread.isChecking = true →
    ∀ turns after, execute (step instantiates) system turns = some after →
      3 + 2 * (after.shared.cache.generation - system.shared.cache.generation) ≤ turns.countP (isOwn index) →
      ∃ done rest middle worker observation, turns = done ++ rest ∧
        execute (step instantiates) system done = some middle ∧
        middle.threads[index]? = some (.running worker .idle observation)

theorem Sound.consistent {system : ReloadSystem Module Config} (sound : Sound system) :
    Consistent instantiates system where
  paired := by
    intro snapshot read
    obtain ⟨publishedAt, rest, -, -, last⟩ := sound.coherent.lastPublished_snapshot read
    rw [last]
    rfl
  behind := by
    intro worker phase observation member
    have tracked : WorkerThread.Tracked system.shared worker observation := sound.books _ member
    exact tracked.behind
  sourced := by
    intro worker phase observation publishedAt member source
    have tracked : WorkerThread.Tracked system.shared worker observation := sound.books _ member
    exact (tracked.source publishedAt source).1
  advances := fun later run index thread found => run_advances sound run index thread found
  goesOn := by
    intro index thread found checking
    rcases WorkerThread.proceed_isSome instantiates system.shared checking with possible | held
    · refine .inl ?_
      rw [ReloadSystem.step, Interleaved.step, found, Option.bind_some, Option.isSome_map]
      exact possible
    · refine .inr ⟨held, ?_⟩
      rw [ReloadSystem.step, Option.isSome_map, SharedEngine.act, Option.isSome_map]
      exact held
  returns := by
    intro index thread found checking turns after executed enough
    have few := WorkerThread.remaining_le system.shared thread
    exact check_returns sound found checking executed (by omega)

theorem timely_runs_published (always : ∀ module config, instantiates module config = true)
    {system : ReloadSystem Module Config}
    (run : Run (step instantiates) (fun before turn => timelyNew before turn = true) initial system)
    {worker : WasmWorker Module Config} {observation : Observation}
    (returned : .running worker .idle observation ∈ system.threads)
    (seen : observation.seen = system.shared.published.length) {publishedAt : Nat} {module : Module}
    (newest : system.shared.published.head? = some (publishedAt, module)) : worker.guest = module := by
  have both : Sound system ∧ Fresh system := by
    refine run.invariant (fun state => Sound state ∧ Fresh state) ?_ ?_
    · exact ⟨.initial, fun _ member => absurd member List.not_mem_nil⟩
    · intro before turn after holds timely stepped
      exact ⟨holds.1.step stepped, holds.2.step always holds.1 timely stepped⟩
  have current : WorkerThread.Current system.shared worker .idle observation := both.2 _ returned
  exact current.reached publishedAt module newest (current.returned rfl seen publishedAt module newest)

/-- A counter load of `new` behind a publish pairs the new generation with the module that `new` was given; the
    check that follows sees nothing to do. -/
theorem untimely_runs_given (always : ∀ module config, instantiates module config = true)
    {before : ReloadSystem Module Config} {index : Nat} {module : Module} {config : Config}
    (found : before.threads[index]? = some (.unseen module config)) :
    ∃ after worker observation,
      execute (step instantiates) before [.worker (.act index .proceed), .worker (.act index .proceed)] =
        some after ∧
      after.shared = before.shared ∧ after.threads[index]? = some (.running worker .idle observation) ∧
      observation.seen = after.shared.published.length ∧ worker.guest = module := by
  obtain ⟨engine, threads⟩ := before
  obtain ⟨left, right, rfl, rfl⟩ := Interleaved.getElem?_split found
  refine ⟨⟨engine, left ++ .running ⟨module, config, module, 0, engine.cache.generation⟩ .idle
    (engine.observe none) :: right⟩, _, _, ?_, rfl, Interleaved.getElem?_moved left right _, rfl, rfl⟩
  have first : step instantiates ⟨engine, left ++ .unseen module config :: right⟩
      (.worker (.act left.length .proceed)) = some ⟨engine,
        left ++ .running ⟨module, config, module, 0, engine.cache.generation⟩ .load (engine.observe none) :: right⟩ := by
    apply Interleaved.step_act WorkerThread.isFresh
    simp only [WorkerThread.act, WorkerThread.proceed, WorkerThread.create, always, if_true, Option.map_some,
      EngineCache.moduleGeneration]
  have second : step instantiates ⟨engine,
        left ++ .running ⟨module, config, module, 0, engine.cache.generation⟩ .load (engine.observe none) :: right⟩
      (.worker (.act left.length .proceed)) = some ⟨engine,
        left ++ .running ⟨module, config, module, 0, engine.cache.generation⟩ .idle (engine.observe none) :: right⟩ := by
    apply Interleaved.step_act WorkerThread.isFresh
    simp only [WorkerThread.act, WorkerThread.proceed, Option.map_some, EngineCache.moduleGeneration,
      Nat.lt_irrefl, if_false, SharedEngine.observe]
  rw [execute, first, Option.bind_some, execute, second]
  rfl

/-- The generation laws hold in every interleaving. A worker that has returned from `check_hot_reload` or `new`
    with no publish since its last read runs the published module as long as `new` never loads the counter behind
    a publish that its snapshot read came before; such a load leaves it on the module it was given. -/
theorem generations_consistent (instantiates : Module → Config → Bool)
    (always : ∀ module config, instantiates module config = true) :
    (∀ system : ReloadSystem Module Config, Run (step instantiates) (fun _ _ => True) initial system →
      Consistent instantiates system) ∧
    (∀ system : ReloadSystem Module Config,
      Run (step instantiates) (fun before turn => timelyNew before turn = true) initial system →
      ∀ worker observation, .running worker .idle observation ∈ system.threads →
        observation.seen = system.shared.published.length →
        ∀ publishedAt module, system.shared.published.head? = some (publishedAt, module) →
          worker.guest = module) ∧
    (∀ before : ReloadSystem Module Config, Run (step instantiates) (fun _ _ => True) initial before →
      ∀ index module config publishedAt newest, before.threads[index]? = some (.unseen module config) →
        before.shared.published.head? = some (publishedAt, newest) → newest ≠ module →
        ∃ after worker observation,
          execute (step instantiates) before [.worker (.act index .proceed), .worker (.act index .proceed)] =
            some after ∧
          after.threads[index]? = some (.running worker .idle observation) ∧
          observation.seen = after.shared.published.length ∧
          after.shared.published.head? = some (publishedAt, newest) ∧ worker.guest ≠ newest) := by
  refine ⟨?_, ?_, ?_⟩
  · intro system run
    exact (Sound.of_run .initial run).consistent
  · intro system run worker observation returned seen publishedAt module newest
    exact timely_runs_published always run returned seen newest
  · intro before _ index module config publishedAt newest found head differs
    obtain ⟨after, worker, observation, executed, same, idle, seen, given⟩ := untimely_runs_given always found
    exact ⟨after, worker, observation, executed, idle, seen, same ▸ head, given ▸ differs.symm⟩

/-- A worker is created before the first publish and picks that publish up with its next check. -/
def pickedUpTurns : List (ReloadTurn Nat Unit) :=
  [.worker (.start (.creating 1 ())), .worker (.act 0 .proceed), .worker (.act 0 .proceed),
    .worker (.act 0 .proceed), .engine (.lockPublish 7), .engine .proceed, .engine .proceed, .engine .proceed,
    .engine .proceed, .worker (.act 0 .checkHotReload), .worker (.act 0 .proceed), .worker (.act 0 .proceed),
    .worker (.act 0 .proceed)]

def pickedUp : ReloadSystem Nat Unit :=
  ⟨{ cache := { snapshot := some ⟨7, 1⟩, generation := 1 }, published := [(1, 7)] },
    [.running ⟨7, (), 7, 0, 1⟩ .idle ⟨some 1, 1⟩]⟩

theorem generations_consistent_pickedUp :
    Consistent (fun _ _ => true) pickedUp ∧
      ∃ worker observation, .running worker .idle observation ∈ pickedUp.threads ∧ worker.guest = 7 := by
  have laws := generations_consistent (fun (_ : Nat) (_ : Unit) => true) fun _ _ => rfl
  have run : Run (step fun _ _ => true) (fun before turn => timelyNew before turn = true) initial pickedUp :=
    executePermitted_run _ _ pickedUpTurns (by decide)
  have executed : execute (step fun _ _ => true) initial pickedUpTurns = some pickedUp := by decide
  refine ⟨laws.1 pickedUp (execute_run (fun _ _ => trivial) pickedUpTurns executed), ⟨7, (), 7, 0, 1⟩, ⟨some 1, 1⟩,
    List.mem_cons_self, ?_⟩
  exact laws.2.1 pickedUp run ⟨7, (), 7, 0, 1⟩ ⟨some 1, 1⟩ List.mem_cons_self rfl 1 7 rfl

/-- The first publish falls between the two reads of `new`. -/
def overtakenNewTurns : List (ReloadTurn Nat Unit) :=
  [.worker (.start (.creating 1 ())), .worker (.act 0 .proceed), .engine (.lockPublish 7), .engine .proceed,
    .engine .proceed, .engine .proceed, .engine .proceed, .worker (.act 0 .proceed), .worker (.act 0 .proceed)]

theorem not_published_overtaken :
    ∃ system : ReloadSystem Nat Unit, Run (step fun _ _ => true) (fun _ _ => True) initial system ∧
      ∃ worker observation, .running worker .idle observation ∈ system.threads ∧
        observation.seen = system.shared.published.length ∧
        system.shared.published.head? = some (1, 7) ∧ worker.guest ≠ 7 :=
  ⟨⟨{ cache := { snapshot := some ⟨7, 1⟩, generation := 1 }, published := [(1, 7)] },
      [.running ⟨1, (), 1, 0, 1⟩ .idle ⟨none, 1⟩]⟩,
    execute_run (fun _ _ => trivial) overtakenNewTurns (by decide),
    ⟨1, (), 1, 0, 1⟩, ⟨none, 1⟩, List.mem_cons_self, rfl, rfl, by decide⟩

end ReloadSystem

end OtelDatalake.Wasm
