import Mathlib.Data.Int.CardIntervalMod
import OtelDatalake.Elasticsearch.Failover

open OtelDatalake.Foundation OtelDatalake.Buffer

namespace OtelDatalake.Elasticsearch

/-- A call that stored, in the cooldown of the endpoint at a position, a time after `now`. -/
def CoolingAt (calls : List EndpointCall) (position now : Nat) : Prop :=
  ∃ mark, .marked mark ∈ calls ∧ mark.position = position ∧ now < mark.cooldownUntil

section Failover

variable {pool : EndpointPool} {calls left right : List EndpointCall} {call next : EndpointCall} {clock : Nat}

def EndpointCall.Explained (endpoints : List (List Char)) (calls : List EndpointCall) : EndpointCall → Prop
  | .scanning scan =>
    scan.offset ≤ endpoints.length ∧
      ∀ offset < scan.offset, CoolingAt calls (scan.candidate endpoints.length offset) scan.now
  | .picked scan endpoint =>
    scan.offset ≤ endpoints.length ∧
      (∀ offset < scan.offset, CoolingAt calls (scan.candidate endpoints.length offset) scan.now) ∧
      endpoint = endpoints.getD (scan.candidate endpoints.length scan.offset) []
  | .store mark | .marked mark =>
    endpoints.findIdx? (fun endpoint => endpoint = trimEndpoint mark.failed) = some mark.position
  | _ => True

/-- Every cooldown has been stored by a call, and every endpoint that a scan passed over was in such a cooldown. -/
structure EndpointCalls.Sound (endpoints : List (List Char)) (system : EndpointCalls) : Prop where
  same : system.shared.endpoints = endpoints
  cooling : ∀ position now, now < system.shared.endpointCooldowns.getD position 0 →
    CoolingAt system.threads position now
  explained : ∀ call ∈ system.threads, call.Explained endpoints system.threads

theorem CoolingAt.subset {later : List EndpointCall} {position now : Nat} (cooling : CoolingAt calls position now)
    (kept : ∀ mark, .marked mark ∈ calls → .marked mark ∈ later) : CoolingAt later position now := by
  obtain ⟨mark, member, there⟩ := cooling
  exact ⟨mark, kept mark member, there⟩

theorem EndpointCall.Explained.subset {endpoints : List (List Char)} {later : List EndpointCall}
    (explained : call.Explained endpoints calls) (kept : ∀ mark, .marked mark ∈ calls → .marked mark ∈ later) :
    call.Explained endpoints later := by
  cases call with
  | scanning scan =>
    obtain ⟨bound, passed⟩ := explained
    exact ⟨bound, fun offset before => (passed offset before).subset kept⟩
  | picked scan endpoint =>
    obtain ⟨bound, passed, found⟩ := explained
    exact ⟨bound, fun offset before => (passed offset before).subset kept, found⟩
  | _ => exact explained

inductive EndpointCall.Moves (pool : EndpointPool) (clock : Nat) : EndpointCall → EndpointPool → EndpointCall → Prop
  | single (endpoint : List Char) : Moves pool clock .nextEndpoint pool (.single endpoint)
  | entered : Moves pool clock .nextEndpoint pool (.fetch clock)
  | fetched (now : Nat) : Moves pool clock (.fetch now)
      { pool with currentEndpoint := (pool.currentEndpoint + 1) % 2 ^ 64 }
      (.scanning { now, ticket := pool.currentEndpoint })
  | passed {scan : Scan} (further : scan.offset < pool.count)
      (cooling : scan.now < pool.endpointCooldowns.getD (scan.candidate pool.count scan.offset) 0) :
      Moves pool clock (.scanning scan) pool (.scanning { scan with offset := scan.offset + 1 })
  | ready {scan : Scan}
      (elapsed : pool.endpointCooldowns.getD (scan.candidate pool.count scan.offset) 0 ≤ scan.now) :
      Moves pool clock (.scanning scan) pool
        (.picked scan (pool.endpoints.getD (scan.candidate pool.count scan.offset) []))
  | exhausted {scan : Scan} (whole : pool.count ≤ scan.offset) :
      Moves pool clock (.scanning scan) pool (.picked scan (pool.endpoints.getD (scan.ticket % pool.count) []))
  | named {failed : List Char} {position : Nat} (found : pool.position? (trimEndpoint failed) = some position) :
      Moves pool clock (.markEndpointFailed failed) pool (.store { failed, position, seen := clock })
  | unknown (failed : List Char) : Moves pool clock (.markEndpointFailed failed) pool .unknown
  | stored (mark : Mark) : Moves pool clock (.store mark)
      { pool with endpointCooldowns := pool.endpointCooldowns.set mark.position mark.cooldownUntil } (.marked mark)

theorem act_moves {shared : EndpointPool} (acted : call.act pool clock = some (shared, next)) :
    call.Moves pool clock shared next := by
  cases call with
  | nextEndpoint =>
    simp only [EndpointCall.act] at acted
    split_ifs at acted <;> cases acted
    · exact .single _
    · exact .single _
    · exact .entered
  | fetch now =>
    cases acted
    exact .fetched now
  | scanning scan =>
    simp only [EndpointCall.act] at acted
    split_ifs at acted with further ready <;> cases acted
    · exact .ready ready
    · exact .passed further (Nat.lt_of_not_le ready)
    · exact .exhausted (Nat.le_of_not_lt further)
  | markEndpointFailed failed =>
    simp only [EndpointCall.act] at acted
    split at acted <;> cases acted
    · exact .named ‹_›
    · exact .unknown failed
  | store mark =>
    cases acted
    exact .stored mark
  | single _ | picked _ _ | marked _ | unknown => cases acted

theorem marked_kept {shared : EndpointPool} (acted : call.act pool clock = some (shared, next)) (mark : Mark)
    (member : .marked mark ∈ left ++ call :: right) : .marked mark ∈ left ++ next :: right := by
  rw [List.mem_append, List.mem_cons] at member ⊢
  rcases member with place | rfl | place
  · exact .inl place
  · cases acted
  · exact .inr (.inr place)

theorem Scan.candidate_whole (scan : Scan) (count : Nat) : scan.candidate count count = scan.ticket % count := by
  rw [candidate, Nat.add_mod_right, Nat.mod_mod]

theorem explained_act {endpoints : List (List Char)} {shared : EndpointPool}
    (same : pool.endpoints = endpoints)
    (cooling : ∀ position now, now < pool.endpointCooldowns.getD position 0 → CoolingAt calls position now)
    (explained : call.Explained endpoints calls) (acted : call.act pool clock = some (shared, next)) :
    next.Explained endpoints calls := by
  subst same
  cases act_moves acted with
  | single _ | entered | unknown _ => trivial
  | fetched now => exact ⟨Nat.zero_le _, fun offset before => absurd before (Nat.not_lt_zero _)⟩
  | @passed scan further inCooldown =>
    refine ⟨further, fun offset before => ?_⟩
    rcases Nat.lt_succ_iff_lt_or_eq.mp before with earlier | rfl
    · exact explained.2 offset earlier
    · exact cooling _ _ inCooldown
  | ready _ => exact ⟨explained.1, explained.2, rfl⟩
  | @exhausted scan whole =>
    refine ⟨explained.1, explained.2, ?_⟩
    rw [Nat.le_antisymm explained.1 whole]
    exact congrArg (pool.endpoints.getD · []) (scan.candidate_whole pool.count).symm
  | named found => exact found
  | stored mark => exact explained

theorem cooldowns_act {shared : EndpointPool} (acted : call.act pool clock = some (shared, next)) :
    shared.endpoints = pool.endpoints ∧ (shared.endpointCooldowns = pool.endpointCooldowns ∨
      ∃ mark, call = .store mark ∧ next = .marked mark ∧
        shared.endpointCooldowns = pool.endpointCooldowns.set mark.position mark.cooldownUntil) := by
  cases act_moves acted with
  | stored mark => exact ⟨rfl, .inr ⟨mark, rfl, rfl, rfl⟩⟩
  | _ => exact ⟨rfl, .inl rfl⟩

theorem getD_set_cases (times : List Nat) (position other deadline : Nat) :
    (times.set position deadline).getD other 0 = times.getD other 0 ∨
      position = other ∧ (times.set position deadline).getD other 0 = deadline := by
  rw [List.getD_eq_getElem?_getD, List.getD_eq_getElem?_getD, List.getElem?_set]
  split_ifs with here inside
  · exact .inr ⟨here, rfl⟩
  · subst here
    rw [List.getElem?_eq_none (Nat.le_of_not_lt inside)]
    exact .inl rfl
  · exact .inl rfl

variable {endpoints : List (List Char)} {before after : EndpointCalls} {turn : Turn EndpointCall Nat}

theorem EndpointCalls.Sound.step (sound : before.Sound endpoints) (stepped : before.step turn = some after) :
    after.Sound endpoints := by
  rcases Interleaved.step_cases stepped with ⟨fresh, rfl, isFresh, rfl⟩ |
    ⟨left, call, right, clock, shared, next, rfl, split, acted, rfl⟩
  · have kept : ∀ mark, .marked mark ∈ before.threads → .marked mark ∈ before.threads ++ [fresh] :=
      fun _ member => List.mem_append_left _ member
    refine ⟨sound.same, fun position now early => (sound.cooling position now early).subset kept, ?_⟩
    intro call member
    rcases List.mem_append.mp member with place | last
    · exact (sound.explained call place).subset kept
    · rw [List.mem_singleton.mp last]
      cases fresh with
      | nextEndpoint | markEndpointFailed _ => trivial
      | _ => cases isFresh
  · have kept : ∀ mark, .marked mark ∈ before.threads → .marked mark ∈ left ++ next :: right := by
      rw [split]
      exact marked_kept acted
    obtain ⟨endpointsKept, cooldowns⟩ := cooldowns_act acted
    refine ⟨endpointsKept.trans sound.same, ?_, ?_⟩
    · intro position now early
      rcases cooldowns with unchanged | ⟨mark, rfl, rfl, stored⟩
      · exact (sound.cooling position now (unchanged ▸ early)).subset kept
      · change now < shared.endpointCooldowns.getD position 0 at early
        rw [stored] at early
        rcases getD_set_cases before.shared.endpointCooldowns mark.position position mark.cooldownUntil with
          unchanged | ⟨there, fixed⟩
        · exact (sound.cooling position now (unchanged ▸ early)).subset kept
        · exact ⟨mark, by simp, there, fixed ▸ early⟩
    · have explained := sound.explained
      rw [split] at explained
      apply Interleaved.forall_moved fun other member => (explained other member).subset (split ▸ kept)
      exact (explained_act sound.same sound.cooling (split ▸ explained call (by simp)) acted).subset kept

theorem EndpointPool.tryNew_ok {configured : List (List Char)} (built : EndpointPool.tryNew configured = .ok pool) :
    configured ≠ [] ∧ pool = ⟨configured.map trimEndpoint, List.replicate configured.length 0, 0⟩ := by
  unfold EndpointPool.tryNew at built
  dsimp only at built
  split_ifs at built with none_configured some_empty
  cases built
  refine ⟨fun none => none_configured (by rw [none]; rfl), ?_⟩
  rw [List.map_const', List.length_map]

theorem EndpointCalls.Sound.initial {configured : List (List Char)}
    (built : EndpointPool.tryNew configured = .ok pool) : EndpointCalls.Sound pool.endpoints ⟨pool, []⟩ := by
  refine ⟨rfl, fun position now early => ?_, fun call member => absurd member List.not_mem_nil⟩
  obtain ⟨_, rfl⟩ := EndpointPool.tryNew_ok built
  have elapsed : (List.replicate configured.length 0).getD position 0 = 0 := by
    rw [List.getD_eq_getElem?_getD, List.getElem?_replicate]
    split <;> rfl
  exact absurd (Nat.lt_of_lt_of_eq early elapsed) (Nat.not_lt_zero now)

/-- A scan passes over an endpoint only when `mark_endpoint_failed` has been called with it less than ten seconds before
    what the clock said to the scan; where it passes over all of them, it returns the one it started from. -/
theorem EndpointCalls.failover {configured : List (List Char)} {system : EndpointCalls}
    (reached : system.Reached configured) {scan : Scan} {endpoint : List Char}
    (member : .picked scan endpoint ∈ system.threads) :
    endpoint = (configured.map trimEndpoint).getD (scan.candidate configured.length scan.offset) [] ∧
      scan.offset ≤ configured.length ∧ ∀ offset < scan.offset, ∃ mark, .marked mark ∈ system.threads ∧
        (configured.map trimEndpoint)[scan.candidate configured.length offset]? = some (trimEndpoint mark.failed) ∧
        scan.now < mark.seen + 10 := by
  obtain ⟨pool, built, run⟩ := reached
  have sound := run.invariant (·.Sound pool.endpoints) (.initial built) fun _ _ _ sound _ stepped => sound.step stepped
  obtain ⟨_, rfl⟩ := EndpointPool.tryNew_ok built
  obtain ⟨bound, passed, found⟩ := sound.explained _ member
  rw [List.length_map] at bound passed found
  refine ⟨found, bound, fun offset before => ?_⟩
  obtain ⟨mark, stored, there, early⟩ := passed offset before
  obtain ⟨inside, named, _⟩ := List.findIdx?_eq_some_iff_getElem.mp (sound.explained _ stored)
  refine ⟨mark, stored, ?_, ?_⟩
  · rw [← there, List.getElem?_eq_getElem inside, of_decide_eq_true named]
  · exact Nat.lt_of_lt_of_le early (Nat.min_le_left _ _)

end Failover

def markedFirst : List (Turn EndpointCall Nat) :=
  [.start (.markEndpointFailed ['a', '/']), .start .nextEndpoint, .act 0 100, .act 0 100, .act 1 105, .act 1 105,
    .act 1 105, .act 1 105]

def passedFirst : EndpointCalls :=
  ⟨⟨[['a'], ['b']], [110, 0], 1⟩, [.marked ⟨['a', '/'], 0, 100⟩, .picked ⟨105, 0, 1⟩ ['b']]⟩

theorem reached_passedFirst : passedFirst.Reached [['a'], ['b']] :=
  ⟨⟨[['a'], ['b']], [0, 0], 0⟩, by decide, execute_run (fun _ _ => trivial) markedFirst (by decide)⟩

theorem EndpointCalls.failover_passedFirst : ∃ mark, .marked mark ∈ passedFirst.threads ∧
    (['a'] : List Char) = trimEndpoint mark.failed ∧ 105 < mark.seen + 10 := by
  have picked : .picked ⟨105, 0, 1⟩ ['b'] ∈ passedFirst.threads := by decide
  obtain ⟨_, _, passed⟩ := failover reached_passedFirst picked
  obtain ⟨mark, stored, named, early⟩ := passed 0 Nat.one_pos
  exact ⟨mark, stored, Option.some.inj named, early⟩

section Avoidance

/-- The clock does not run backwards between two cooldowns that are stored for one endpoint. -/
def EndpointCalls.InOrder (system : EndpointCalls) : Turn EndpointCall Nat → Prop
  | .start _ => True
  | .act index _ => ∀ mark ∈ (system.threads[index]?).bind EndpointCall.storing?,
      system.shared.endpointCooldowns.getD mark.position 0 ≤ mark.cooldownUntil

instance (system : EndpointCalls) : ∀ turn, Decidable (system.InOrder turn)
  | .start _ => isTrue trivial
  | .act index _ => inferInstanceAs (Decidable (∀ mark ∈ (system.threads[index]?).bind EndpointCall.storing?, _))

variable {pool shared : EndpointPool} {call next : EndpointCall} {clock : Nat} {endpoints : List (List Char)}
  {before after : EndpointCalls} {turn : Turn EndpointCall Nat}

/-- Where the clock does not run backwards, a cooldown that a call has stored is not shortened. -/
structure EndpointCalls.Cooling (endpoints : List (List Char)) (system : EndpointCalls) : Prop
    extends system.Sound endpoints where
  sized : system.shared.endpointCooldowns.length = endpoints.length
  held : ∀ mark, .marked mark ∈ system.threads →
    mark.cooldownUntil ≤ system.shared.endpointCooldowns.getD mark.position 0

theorem cooldowns_step (stepped : before.step turn = some after) (inOrder : before.InOrder turn) (position : Nat) :
    before.shared.endpointCooldowns.getD position 0 ≤ after.shared.endpointCooldowns.getD position 0 ∧
      after.shared.endpointCooldowns.length = before.shared.endpointCooldowns.length := by
  rcases Interleaved.step_cases stepped with ⟨fresh, rfl, isFresh, rfl⟩ |
    ⟨left, call, right, clock, shared, next, rfl, split, acted, rfl⟩
  · exact ⟨Nat.le_refl _, rfl⟩
  · rcases (cooldowns_act acted).2 with unchanged | ⟨mark, rfl, rfl, stored⟩
    · exact ⟨Nat.le_of_eq (by rw [unchanged]), by rw [unchanged]⟩
    · have later := inOrder mark (by rw [split, Interleaved.getElem?_moved]; rfl)
      refine ⟨?_, by rw [stored, List.length_set]⟩
      show _ ≤ shared.endpointCooldowns.getD position 0
      rw [stored]
      rcases getD_set_cases before.shared.endpointCooldowns mark.position position mark.cooldownUntil with
        unchanged | ⟨rfl, fixed⟩
      · exact Nat.le_of_eq unchanged.symm
      · exact Nat.le_trans later (Nat.le_of_eq fixed.symm)

theorem marked_act {mark : Mark} (acted : call.act pool clock = some (shared, .marked mark)) :
    call = .store mark ∧
      shared.endpointCooldowns = pool.endpointCooldowns.set mark.position mark.cooldownUntil := by
  cases act_moves acted
  exact ⟨rfl, rfl⟩

theorem EndpointCalls.Cooling.step (cooling : before.Cooling endpoints) (inOrder : before.InOrder turn)
    (stepped : before.step turn = some after) : after.Cooling endpoints := by
  have monotone := cooldowns_step stepped inOrder
  refine ⟨cooling.toSound.step stepped, (monotone 0).2.trans cooling.sized, ?_⟩
  intro mark member
  rcases Interleaved.step_cases stepped with ⟨fresh, rfl, isFresh, rfl⟩ |
    ⟨left, call, right, clock, shared, next, rfl, split, acted, rfl⟩
  · rcases List.mem_append.mp member with place | last
    · exact cooling.held mark place
    · rw [← List.mem_singleton.mp last] at isFresh
      cases isFresh
  · rcases List.mem_append.mp member with place | place
    · exact (cooling.held mark (split ▸ List.mem_append_left _ place)).trans (monotone _).1
    rcases List.mem_cons.mp place with rfl | place
    · obtain ⟨rfl, stored⟩ := marked_act acted
      have explained := cooling.explained (.store mark) (by simp [split])
      have inside : mark.position < before.shared.endpointCooldowns.length := by
        rw [cooling.sized]
        exact (List.findIdx?_eq_some_iff_getElem.mp explained).1
      show _ ≤ shared.endpointCooldowns.getD mark.position 0
      rw [stored, List.getD_eq_getElem?_getD, List.getElem?_set_self inside]
      exact Nat.le_refl _
    · exact (cooling.held mark (split ▸ List.mem_append_right _ (List.mem_cons_of_mem _ place))).trans (monotone _).1

theorem pick_act {scan : Scan} {endpoint : List Char}
    (acted : call.act pool clock = some (shared, .picked scan endpoint)) (further : scan.offset < pool.count) :
    pool.endpointCooldowns.getD (scan.candidate pool.count scan.offset) 0 ≤ scan.now := by
  cases act_moves acted with
  | ready elapsed => exact elapsed
  | exhausted whole => exact absurd whole (Nat.not_le_of_lt further)

/-- A call that returns after the endpoint at a position has been marked returns it only when the cooldown is over. -/
structure EndpointCalls.Avoids (endpoints : List (List Char)) (mark : Mark) (system since : EndpointCalls) : Prop
    extends system.Cooling endpoints where
  stored : .marked mark ∈ system.threads
  avoids : ∀ (index : Nat) (scan : Scan) (endpoint : List Char), system.threads[index]? = some (.picked scan endpoint) →
    since.threads[index]? ≠ some (.picked scan endpoint) → scan.offset < endpoints.length →
    scan.candidate endpoints.length scan.offset = mark.position → mark.cooldownUntil ≤ scan.now

theorem EndpointCalls.Avoids.step {mark : Mark} {since : EndpointCalls} (avoiding : before.Avoids endpoints mark since)
    (inOrder : before.InOrder turn) (stepped : before.step turn = some after) :
    after.Avoids endpoints mark since := by
  have cooling := avoiding.toCooling.step inOrder stepped
  rcases Interleaved.step_cases stepped with ⟨fresh, rfl, isFresh, rfl⟩ |
    ⟨left, call, right, clock, shared, next, rfl, split, acted, rfl⟩
  · refine ⟨cooling, List.mem_append_left _ avoiding.stored, fun index scan endpoint found => ?_⟩
    by_cases inside : index < before.threads.length
    · rw [List.getElem?_append_left inside] at found
      exact avoiding.avoids index scan endpoint found
    · rw [List.getElem?_append_right (Nat.le_of_not_lt inside)] at found
      rw [← List.mem_singleton.mp (List.mem_of_getElem? found)] at isFresh
      cases isFresh
  · refine ⟨cooling, marked_kept acted mark (split ▸ avoiding.stored), fun index scan endpoint found pending => ?_⟩
    by_cases own : index = left.length
    · subst own
      rw [Interleaved.getElem?_moved, Option.some.injEq] at found
      subst found
      intro further there
      have count : before.shared.count = endpoints.length := congrArg List.length avoiding.same
      have ready := pick_act acted (count ▸ further)
      rw [count, there] at ready
      exact (avoiding.held mark avoiding.stored).trans ready
    · rw [Interleaved.getElem?_others left right call next own, ← split] at found
      exact avoiding.avoids index scan endpoint found pending

theorem EndpointCalls.Cooling.initial {configured : List (List Char)}
    (built : EndpointPool.tryNew configured = .ok pool) : EndpointCalls.Cooling pool.endpoints ⟨pool, []⟩ := by
  refine ⟨.initial built, ?_, fun mark member => absurd member List.not_mem_nil⟩
  obtain ⟨_, rfl⟩ := EndpointPool.tryNew_ok built
  simp

/-- A call of `next_endpoint` that returns after an endpoint has been marked does not return it until its cooldown is
    over, unless the call has found every endpoint in cooldown. -/
theorem EndpointCalls.avoids_failed {configured : List (List Char)} {since system : EndpointCalls}
    (built : EndpointPool.tryNew configured = .ok pool) (earlier : Run EndpointCalls.step InOrder ⟨pool, []⟩ since)
    {mark : Mark} (stored : .marked mark ∈ since.threads) (later : Run EndpointCalls.step InOrder since system)
    {index : Nat} {scan : Scan} {endpoint : List Char} (picked : system.threads[index]? = some (.picked scan endpoint))
    (pending : since.threads[index]? ≠ some (.picked scan endpoint)) (early : scan.now < mark.cooldownUntil) :
    scan.candidate configured.length scan.offset ≠ mark.position ∨ scan.offset = configured.length := by
  have cooling := earlier.invariant (·.Cooling pool.endpoints) (.initial built)
    fun _ _ _ cooling inOrder stepped => cooling.step inOrder stepped
  have start : since.Avoids pool.endpoints mark since :=
    ⟨cooling, stored, fun _ _ _ found pending => absurd found pending⟩
  have avoiding := later.invariant (·.Avoids pool.endpoints mark since) start
    fun _ _ _ avoiding inOrder stepped => avoiding.step inOrder stepped
  obtain ⟨_, rfl⟩ := EndpointPool.tryNew_ok built
  have bound := (avoiding.explained _ (List.mem_of_getElem? picked)).1
  have avoids := avoiding.avoids index scan endpoint picked pending
  rw [List.length_map] at bound avoids
  by_cases further : scan.offset < configured.length
  · exact .inl fun there => absurd (avoids further there) (Nat.not_le_of_lt early)
  · exact .inr (Nat.le_antisymm bound (Nat.le_of_not_lt further))

def justMarked : EndpointCalls :=
  ⟨⟨[['a'], ['b']], [110, 0], 0⟩, [.marked ⟨['a', '/'], 0, 100⟩, .nextEndpoint]⟩

theorem EndpointCalls.avoids_failed_passedFirst : (⟨105, 0, 1⟩ : Scan).candidate 2 1 ≠ 0 ∨ 1 = 2 := by
  have built : EndpointPool.tryNew [['a'], ['b']] = .ok ⟨[['a'], ['b']], [0, 0], 0⟩ := by decide
  have earlier : executePermitted step InOrder ⟨⟨[['a'], ['b']], [0, 0], 0⟩, []⟩ (markedFirst.take 4) =
      some justMarked := by decide
  have later : executePermitted step InOrder justMarked (markedFirst.drop 4) = some passedFirst := by decide
  have stored : .marked ⟨['a', '/'], 0, 100⟩ ∈ justMarked.threads := by decide
  have picked : passedFirst.threads[1]? = some (.picked ⟨105, 0, 1⟩ ['b']) := rfl
  exact avoids_failed built (executePermitted_run _ _ _ earlier) stored (executePermitted_run _ _ _ later) picked
    (by decide) (by decide)

end Avoidance

section RoundRobin

variable {pool shared : EndpointPool} {call next : EndpointCall} {clock : Nat} {before after : EndpointCalls}
  {turn : Turn EndpointCall Nat}

def tickets (calls : List EndpointCall) : List Nat := calls.filterMap EndpointCall.ticket?

/-- The tickets taken so far are consecutive numbers, reduced to a machine word, and the counter is the next of them. -/
structure EndpointCalls.Numbered (system : EndpointCalls) : Prop where
  current : system.shared.currentEndpoint = (tickets system.threads).length % 2 ^ 64
  numbered : (tickets system.threads).Perm ((List.range (tickets system.threads).length).map (· % 2 ^ 64))

theorem ticket_act (acted : call.act pool clock = some (shared, next)) :
    (next.ticket? = call.ticket? ∧ shared.currentEndpoint = pool.currentEndpoint) ∨
      (call.ticket? = none ∧ next.ticket? = some pool.currentEndpoint ∧
        shared.currentEndpoint = (pool.currentEndpoint + 1) % 2 ^ 64) := by
  cases act_moves acted with
  | fetched now => exact .inr ⟨rfl, rfl, rfl⟩
  | _ => exact .inl ⟨rfl, rfl⟩

theorem tickets_kept (left right : List EndpointCall) (same : next.ticket? = call.ticket?) :
    tickets (left ++ next :: right) = tickets (left ++ call :: right) := by
  simp only [tickets, List.filterMap_append, List.filterMap_cons, same]

theorem tickets_taken (left right : List EndpointCall) {ticket : Nat} (without : call.ticket? = none)
    (taken : next.ticket? = some ticket) :
    (tickets (left ++ next :: right)).Perm (tickets (left ++ call :: right) ++ [ticket]) := by
  simp only [tickets, List.filterMap_append, List.filterMap_cons, without, taken]
  exact List.perm_middle.trans (List.perm_append_singleton _ _).symm

theorem EndpointCalls.Numbered.step (numbered : before.Numbered) (stepped : before.step turn = some after) :
    after.Numbered := by
  rcases Interleaved.step_cases stepped with ⟨fresh, rfl, isFresh, rfl⟩ |
    ⟨left, call, right, clock, shared, next, rfl, split, acted, rfl⟩
  · have unticketed : tickets (before.threads ++ [fresh]) = tickets before.threads := by
      cases fresh with
      | nextEndpoint | markEndpointFailed _ =>
        rw [tickets, List.filterMap_append]
        exact List.append_nil _
      | _ => cases isFresh
    exact ⟨by rw [unticketed]; exact numbered.current, by rw [unticketed]; exact numbered.numbered⟩
  · obtain ⟨current, perm⟩ := numbered
    rw [split] at current perm
    rcases ticket_act acted with ⟨same, unmoved⟩ | ⟨without, taken, moved⟩
    · refine ⟨?_, ?_⟩
      · rw [tickets_kept left right same, ← current]
        exact unmoved
      · rw [tickets_kept left right same]
        exact perm
    · have grown := tickets_taken left right without taken
      have length := grown.length_eq
      rw [List.length_append, List.length_singleton] at length
      refine ⟨?_, ?_⟩
      · rw [length, Nat.add_mod, ← current]
        rw [moved, Nat.add_mod, current, Nat.mod_mod]
      · rw [length, List.range_succ, List.map_append, List.map_singleton, ← current]
        exact grown.trans (perm.append_right _)

theorem EndpointCalls.Numbered.initial {configured : List (List Char)}
    (built : EndpointPool.tryNew configured = .ok pool) : EndpointCalls.Numbered ⟨pool, []⟩ := by
  obtain ⟨_, rfl⟩ := EndpointPool.tryNew_ok built
  exact ⟨rfl, .nil⟩

/-- When every call so far has scanned, none has marked an endpoint, and every endpoint has been returned as often as if
    the calls had been made one after another. -/
theorem EndpointCalls.roundRobin {configured : List (List Char)} {system : EndpointCalls}
    (reached : system.Reached configured) (few : system.threads.length ≤ 2 ^ 64)
    (scanned : ∀ call ∈ system.threads, ∃ scan endpoint, call = .picked scan endpoint) {position : Nat}
    (inside : position < configured.length) :
    system.threads.countP (fun call => call.position? configured.length = some position) =
      system.threads.length / configured.length +
        if position < system.threads.length % configured.length then 1 else 0 := by
  have each : ∀ call ∈ system.threads, ∃ ticket, call.ticket? = some ticket ∧
      call.position? configured.length = some (ticket % configured.length) := by
    intro call member
    obtain ⟨scan, endpoint, rfl⟩ := scanned call member
    refine ⟨scan.ticket, rfl, ?_⟩
    obtain ⟨_, _, passed⟩ := EndpointCalls.failover reached member
    have none_passed : scan.offset = 0 := by
      by_contra some_passed
      obtain ⟨mark, stored, _⟩ := passed 0 (Nat.pos_of_ne_zero some_passed)
      obtain ⟨_, _, other⟩ := scanned _ stored
      cases other
    rw [EndpointCall.position?, Scan.candidate, none_passed, Nat.add_zero, Nat.mod_mod]
  obtain ⟨pool, built, run⟩ := reached
  have numbered := run.invariant (·.Numbered) (.initial built) fun _ _ _ numbered _ stepped => numbered.step stepped
  have all : (tickets system.threads).length = system.threads.length := by
    rw [tickets, List.filterMap_length_eq_length]
    intro call member
    obtain ⟨ticket, has, _⟩ := each call member
    rw [has]
    rfl
  have consecutive : (tickets system.threads).Perm (List.range system.threads.length) := by
    have small : ∀ number ∈ List.range system.threads.length, number % 2 ^ 64 = id number :=
      fun number member => Nat.mod_eq_of_lt (Nat.lt_of_lt_of_le (List.mem_range.mp member) few)
    have perm := numbered.numbered
    rwa [all, List.map_congr_left small, List.map_id] at perm
  have counted : system.threads.countP (fun call => call.position? configured.length = some position) =
      (tickets system.threads).countP fun ticket => ticket % configured.length = position := by
    rw [tickets, List.countP_filterMap]
    apply List.countP_congr
    intro call member
    obtain ⟨ticket, has, there⟩ := each call member
    simp [has, there]
  rw [counted, consecutive.countP_eq]
  have modEq := Nat.count_modEq_card system.threads.length (Nat.zero_lt_of_lt inside) position
  rw [Nat.mod_eq_of_lt inside] at modEq
  rw [← modEq, Nat.count]
  apply List.countP_congr
  intro ticket _
  rw [decide_eq_true_eq, decide_eq_true_eq, Nat.ModEq, Nat.mod_eq_of_lt inside]

def threeCalls : List (Turn EndpointCall Nat) :=
  [.start .nextEndpoint, .start .nextEndpoint, .start .nextEndpoint, .act 0 7, .act 1 7, .act 2 7, .act 1 7, .act 0 7,
    .act 0 7, .act 2 7, .act 1 7, .act 2 7]

def handedOut : EndpointCalls :=
  ⟨⟨[['a'], ['b']], [0, 0], 3⟩, [.picked ⟨7, 1, 0⟩ ['b'], .picked ⟨7, 0, 0⟩ ['a'], .picked ⟨7, 2, 0⟩ ['a']]⟩

theorem reached_handedOut : handedOut.Reached [['a'], ['b']] :=
  ⟨⟨[['a'], ['b']], [0, 0], 0⟩, by decide, execute_run (fun _ _ => trivial) threeCalls (by decide)⟩

theorem EndpointCalls.roundRobin_handedOut :
    handedOut.threads.countP (fun call => call.position? 2 = some 0) = 2 :=
  roundRobin reached_handedOut (by decide) (by simp [handedOut]) (by decide)

end RoundRobin

end OtelDatalake.Elasticsearch
