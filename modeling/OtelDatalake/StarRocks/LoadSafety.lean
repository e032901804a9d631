import OtelDatalake.StarRocks.Load

open OtelDatalake.Foundation OtelDatalake.Buffer

namespace OtelDatalake.StarRocks

/-- A label is committed at most once, and only out of a prepared transaction; a load or a commit that is answered with
    success is committed. -/
structure LabelServer.CommitsOnce (starRocks : LabelServer) : Prop where
  processed : ∀ request, starRocks.process .committed request = .committed
  accepted : ∀ request after, starRocks.accept .committed request = some after → after = .committed
  prepared : ∀ state request, starRocks.process state request = .committed → state = .committed ∨ state.isPrepared = true
  transacted : ∀ state request, starRocks.accept state request = some .committed →
    request = .streamLoad ∨ state = .committed ∨ state.isPrepared = true
  loaded : ∀ state after, starRocks.accept state .streamLoad = some after → after = .committed
  completed : ∀ state after, starRocks.accept state .commitTransaction = some after → after = .committed

/-- A label that was aborted never begins again. -/
structure LabelServer.AbortedStays (starRocks : LabelServer) : Prop where
  processed : ∀ request, starRocks.process .aborted request = .aborted
  accepted : ∀ request after, starRocks.accept .aborted request = some after → after = .aborted

/-- What the server has decided on a label stays. -/
structure LabelState.Follows (before after : LabelState) : Prop where
  aborted : before = .aborted → after = .aborted
  committed : before = .committed → after = .committed

namespace LabelServer

variable {starRocks : LabelServer} (once : starRocks.CommitsOnce) (final : starRocks.AbortedStays)
include once final

theorem process_follows (state : LabelState) (request : Request) : state.Follows (starRocks.process state request) where
  aborted same := by
    rw [same]
    exact final.processed request
  committed same := by
    rw [same]
    exact once.processed request

theorem accept_follows {state after : LabelState} {request : Request}
    (accepted : starRocks.accept state request = some after) : state.Follows after where
  aborted same := final.accepted request after (same ▸ accepted)
  committed same := once.accepted request after (same ▸ accepted)

end LabelServer

namespace LabelState

theorem advance_follows {state after : LabelState} (advanced : state.advance = some after) :
    state ≠ .absent ∧ state.Follows after := by
  cases state with
  | running oneShot | prepared oneShot =>
    cases oneShot
    · cases advanced
    · cases advanced
      exact ⟨by simp, by simp, by simp⟩
  | _ => cases advanced

theorem expire_follows {state after : LabelState} (expired : state.expire = some after) :
    state ≠ .absent ∧ state.Follows after := by
  cases state with
  | running oneShot | prepared oneShot =>
    cases expired
    exact ⟨by simp, by simp, by simp⟩
  | _ => cases expired

end LabelState

theorem activeLabel_attempt_inj {digest : List Char → Nat} {table : List Char} {id : LeaseId} {attempt again : Nat}
    (same : activeLabel (formatLeaseLabel digest table id) attempt =
      activeLabel (formatLeaseLabel digest table id) again) : attempt = again := by
  obtain ⟨front, base⟩ := formatLeaseLabel_last digest table id
  have marked : ∀ n ≠ 0, ∃ front, activeLabel (formatLeaseLabel digest table id) n =
      front ++ '_' :: 'a' :: Nat.toDigits 10 n := by
    intro n retry
    have positive : max n 1 = n := by omega
    rw [activeLabel, if_neg retry, formatAttemptLeaseLabel, positive]
    exact ⟨_, rfl⟩
  by_cases first : attempt = 0
  · by_cases second : again = 0
    · exact first.trans second.symm
    · obtain ⟨other, marked⟩ := marked again second
      rw [marked, activeLabel, if_pos first, base] at same
      have marks := append_separator_inj (underscore_not_mem_toDigits _) (attemptMark_not_mem _) same
      exact absurd marks.2 (toDigits_ne_attemptMark _ _)
  · obtain ⟨one, firstMarked⟩ := marked attempt first
    by_cases second : again = 0
    · rw [firstMarked, activeLabel, if_pos second, base] at same
      have marks := append_separator_inj (attemptMark_not_mem _) (underscore_not_mem_toDigits _) same
      exact absurd marks.2.symm (toDigits_ne_attemptMark _ _)
    · obtain ⟨other, secondMarked⟩ := marked again second
      rw [firstMarked, secondMarked] at same
      have marks := append_separator_inj (attemptMark_not_mem _) (attemptMark_not_mem _) same
      exact toDigits_ten_inj (List.cons.inj marks.2).2

section Server

variable {label : List Char} {server : List Char → LabelState} {state : LabelState} {k : Nat}

def AbortedBelow (label : List Char) (server : List Char → LabelState) (fallbackIdx : Nat) : Prop :=
  ∀ i < fallbackIdx, server (activeLabel label i) = .aborted

def BegunInOrder (label : List Char) (server : List Char → LabelState) : Prop :=
  ∀ i, server (activeLabel label i) ≠ .absent → AbortedBelow label server i

theorem AbortedBelow.update {name : List Char} {fallbackIdx : Nat} (below : AbortedBelow label server fallbackIdx)
    (follows : (server name).Follows state) : AbortedBelow label (Function.update server name state) fallbackIdx := by
  intro i smaller
  have aborted := below i smaller
  by_cases same : activeLabel label i = name
  · rw [same, Function.update_self]
    exact follows.aborted (same ▸ aborted)
  · rw [Function.update_of_ne same]
    exact aborted

theorem BegunInOrder.update (distinct : ∀ i j, activeLabel label i = activeLabel label j → i = j)
    (ordered : BegunInOrder label server) (below : AbortedBelow label server k)
    (follows : (server (activeLabel label k)).Follows state) :
    BegunInOrder label (Function.update server (activeLabel label k) state) := by
  intro i begun
  by_cases same : i = k
  · subst same
    exact below.update follows
  · rw [Function.update_of_ne fun equal => same (distinct i k equal)] at begun
    exact (ordered i begun).update follows

theorem BegunInOrder.own {name : List Char} (distinct : ∀ i j, activeLabel label i = activeLabel label j → i = j)
    (ordered : BegunInOrder label server) (begun : server name ≠ .absent) (follows : (server name).Follows state) :
    BegunInOrder label (Function.update server name state) := by
  by_cases derived : ∃ i, activeLabel label i = name
  · obtain ⟨i, rfl⟩ := derived
    exact ordered.update distinct (ordered i begun) follows
  · intro i begun
    rw [Function.update_of_ne fun equal => derived ⟨i, equal⟩] at begun
    exact (ordered i begun).update follows

end Server

section Attempts

variable {debug : DebugText} {label : List Char} {server : List Char → LabelState} {fallbackIdx probes : Nat}

def AttemptOrdered (label : List Char) (server : List Char → LabelState) : Attempt → Prop
  | .idle => True
  | .calling fallbackIdx _ _ => fallbackIdx ≤ u32Max ∧ AbortedBelow label server fallbackIdx
  | .returned fallbackIdx result => fallbackIdx ≤ u32Max ∧ AbortedBelow label server fallbackIdx ∧
      (result = .ok () → ∃ i, server (activeLabel label i) = .committed)

theorem AttemptOrdered.update {attempt : Attempt} {name : List Char} {state : LabelState}
    (ordered : AttemptOrdered label server attempt) (follows : (server name).Follows state) :
    AttemptOrdered label (Function.update server name state) attempt := by
  cases attempt with
  | idle => trivial
  | calling fallbackIdx probes call => exact ⟨ordered.1, ordered.2.update follows⟩
  | returned fallbackIdx result =>
    refine ⟨ordered.1, ordered.2.1.update follows, fun success => ?_⟩
    obtain ⟨i, committed⟩ := ordered.2.2 success
    refine ⟨i, ?_⟩
    by_cases same : activeLabel label i = name
    · rw [same, Function.update_self]
      exact follows.committed (same ▸ committed)
    · rw [Function.update_of_ne same]
      exact committed

theorem nextLabel_ordered (mode : TransactionMode) (err : StreamLoadError) (bound : fallbackIdx ≤ u32Max)
    (below : AbortedBelow label server fallbackIdx) (aborted : server (activeLabel label fallbackIdx) = .aborted) :
    AttemptOrdered label server (nextLabel label mode fallbackIdx probes err) := by
  have next : min (fallbackIdx + 1) u32Max ≤ u32Max ∧ AbortedBelow label server (min (fallbackIdx + 1) u32Max) := by
    refine ⟨Nat.min_le_right _ _, fun i smaller => ?_⟩
    by_cases same : i = fallbackIdx
    · rw [same]
      exact aborted
    · exact below i (by omega)
  unfold nextLabel
  split
  · exact ⟨bound, below, by simp⟩
  · simp only
    split
    · exact ⟨next.1, next.2, by simp⟩
    · exact next

theorem resume_error_ordered (call : SdkCall) (err : StreamLoadError) (bound : fallbackIdx ≤ u32Max)
    (below : AbortedBelow label server fallbackIdx) :
    AttemptOrdered label server (resume debug label fallbackIdx probes call (.error err)) := by
  cases call with
  | sendSingleBatch | beginTransaction | commitTransaction | completeV2 =>
    simp only [resume]
    split
    · exact ⟨bound, below⟩
    · exact ⟨bound, below, by simp⟩
  | loadTransactionData | prepareTransaction => exact ⟨bound, below⟩
  | _ => exact ⟨bound, below, by simp⟩

theorem resume_ok_ordered {starRocks : LabelServer} (once : starRocks.CommitsOnce) (final : starRocks.AbortedStays)
    {call : SdkCall} {state : LabelState} (bound : fallbackIdx ≤ u32Max) (below : AbortedBelow label server fallbackIdx)
    (accepted : starRocks.accept (server (activeLabel label fallbackIdx)) call.request = some state) :
    AttemptOrdered label (Function.update server (activeLabel label fallbackIdx) state)
      (resume debug label fallbackIdx probes call .ok) := by
  have after := below.update (LabelServer.accept_follows once final accepted)
  have success : state = .committed → ∃ i,
      Function.update server (activeLabel label fallbackIdx) state (activeLabel label i) = .committed :=
    fun committed => ⟨fallbackIdx, by rw [Function.update_self, committed]⟩
  cases call with
  | sendSingleBatch => exact ⟨bound, after, fun _ => success (once.loaded _ state accepted)⟩
  | commitTransaction | completeV2 => exact ⟨bound, after, fun _ => success (once.completed _ state accepted)⟩
  | beginTransaction | loadTransactionData | prepareTransaction => exact ⟨bound, after⟩
  | rollbackFailed err | rollbackUncommitted err => exact ⟨bound, after, by simp⟩
  | confirmV1 | confirmV2 | recheckV2 => trivial

theorem resume_status_ordered {call : SdkCall} {reply : LoadStatus} (bound : fallbackIdx ≤ u32Max)
    (below : AbortedBelow label server fallbackIdx) (asked : call.request = .loadState)
    (truthful : (server (activeLabel label fallbackIdx)).describedBy reply = true) :
    AttemptOrdered label server (resume debug label fallbackIdx probes call (.status reply)) := by
  simp only [LabelState.describedBy, Bool.and_eq_true, Bool.or_eq_true, Bool.not_eq_true', beq_iff_eq] at truthful
  obtain ⟨⟨committed, _⟩, aborted⟩ := truthful
  have success : isLoadStatusOk reply.status = true ∧ isLoadStateCommitted reply = true →
      ∃ i, server (activeLabel label i) = .committed := by
    intro named
    exact ⟨fallbackIdx, committed.resolve_left (by simp [named.2])⟩
  have gone : isLoadStateAborted reply = true → server (activeLabel label fallbackIdx) = .aborted :=
    fun named => aborted.resolve_left (by simp [named])
  cases call with
  | confirmV1 err =>
    simp only [resume, confirmV1LabelCommitted, Bool.and_eq_true]
    split
    · rename_i named
      exact ⟨bound, below, fun _ => success named⟩
    · split
      · rename_i named
        exact nextLabel_ordered _ _ bound below (gone named)
      · exact ⟨bound, below, by simp⟩
  | confirmV2 cause =>
    simp only [resume, confirmOrCompleteV2Label, Bool.and_eq_true]
    split
    · rename_i named
      exact ⟨bound, below, fun _ => success named⟩
    · split
      · exact ⟨bound, below⟩
      · split
        · rename_i named
          cases cause with
          | begin err => exact nextLabel_ordered _ _ bound below (gone named)
          | commit err => exact ⟨bound, below, by simp⟩
        · exact ⟨bound, below⟩
  | recheckV2 =>
    simp only [resume, Bool.and_eq_true]
    split
    · rename_i named
      exact ⟨bound, below, fun _ => success named⟩
    · exact ⟨bound, below, by simp⟩
  | _ => cases asked

/-- Only a reply that names the label aborted makes an attempt go on to another label. -/
theorem resume_moves {call nextCall : SdkCall} {result : SdkResult} {nextIdx nextProbes : Nat}
    (resumed : resume debug label fallbackIdx probes call result = .calling nextIdx nextProbes nextCall) :
    nextIdx = fallbackIdx ∨ nextIdx = min (fallbackIdx + 1) u32Max ∧
      ∃ reply, result = .status reply ∧ isLoadStateAborted reply = true := by
  have next : ∀ {mode err}, nextLabel label mode fallbackIdx probes err = .calling nextIdx nextProbes nextCall →
      nextIdx = min (fallbackIdx + 1) u32Max := by
    intro mode err moved
    unfold nextLabel at moved
    split at moved
    · cases moved
    · simp only at moved
      split at moved
      · cases moved
      · cases moved
        rfl
  unfold resume at resumed
  split at resumed
  case h_3 =>
    unfold confirmV1LabelCommitted at resumed
    split at resumed
    · cases resumed
    · split at resumed
      · rename_i named
        exact Or.inr ⟨next resumed, _, rfl, named⟩
      · cases resumed
  case h_4 =>
    unfold confirmOrCompleteV2Label at resumed
    split at resumed
    · cases resumed
    · split at resumed
      · cases resumed
        exact Or.inl rfl
      · split at resumed
        · rename_i named
          split at resumed
          · exact Or.inr ⟨next resumed, _, rfl, named⟩
          · cases resumed
        · cases resumed
          exact Or.inl rfl
  all_goals
    try split at resumed
    all_goals
      cases resumed
    all_goals exact Or.inl rfl

end Attempts

namespace LoadWorld

structure Ordered (label : List Char) (world : LoadWorld) : Prop where
  begun : BegunInOrder label world.server
  sent : ∀ entry ∈ world.sent, ∃ i, entry.2 = activeLabel label i ∧ AbortedBelow label world.server i
  attempt : AttemptOrdered label world.server world.attempt
  remembered : ∀ fallbackIdx ∈ world.fallbackAttempt,
    fallbackIdx ≤ u32Max ∧ AbortedBelow label world.server fallbackIdx

variable {starRocks : LabelServer} {display : StreamLoadError → String} {debug : DebugText} {label : List Char}
  {world next : LoadWorld} {name : List Char} {state : LabelState}

theorem Ordered.setLabel (ordered : Ordered label world) (follows : (world.server name).Follows state)
    (begun : BegunInOrder label (Function.update world.server name state)) :
    Ordered label (world.setLabel name state) where
  begun := begun
  sent entry member := by
    obtain ⟨i, same, below⟩ := ordered.sent entry member
    exact ⟨i, same, below.update follows⟩
  attempt := ordered.attempt.update follows
  remembered fallbackIdx known :=
    ⟨(ordered.remembered fallbackIdx known).1, (ordered.remembered fallbackIdx known).2.update follows⟩

theorem Ordered.step (once : starRocks.CommitsOnce) (final : starRocks.AbortedStays)
    (distinct : ∀ i j, activeLabel label i = activeLabel label j → i = j) {action : LoadAction}
    (ordered : Ordered label world)
    (stepped : world.step starRocks display debug label action = some next) : Ordered label next := by
  cases action with
  | start mode =>
    simp only [LoadWorld.step] at stepped
    split at stepped
    · cases stepped
      refine ⟨ordered.begun, ordered.sent, ?_, ordered.remembered⟩
      cases known : world.fallbackAttempt with
      | none => exact ⟨Nat.zero_le _, fun i smaller => absurd smaller (Nat.not_lt_zero i)⟩
      | some fallbackIdx => exact ordered.remembered fallbackIdx known
    · cases stepped
  | send =>
    simp only [LoadWorld.step] at stepped
    split at stepped
    · rename_i fallbackIdx probes call calling
      have current := ordered.attempt
      rw [calling] at current
      cases stepped
      refine ⟨ordered.begun, fun entry member => ?_, ordered.attempt, ordered.remembered⟩
      rcases List.mem_append.mp member with old | new
      · exact ordered.sent entry old
      · rw [List.mem_singleton.mp new]
        exact ⟨fallbackIdx, rfl, current.2⟩
    · cases stepped
  | process index =>
    obtain ⟨entry, found, rfl⟩ := Option.map_eq_some_iff.mp stepped
    obtain ⟨i, same, below⟩ := ordered.sent entry (List.mem_of_getElem? found)
    have follows := LabelServer.process_follows once final (world.server entry.2) entry.1
    refine ordered.setLabel follows ?_
    rw [same] at follows ⊢
    exact ordered.begun.update distinct below follows
  | accept =>
    simp only [LoadWorld.step] at stepped
    split at stepped
    · rename_i fallbackIdx probes call calling
      have current := ordered.attempt
      rw [calling] at current
      obtain ⟨state, accepted, rfl⟩ := Option.map_eq_some_iff.mp stepped
      have follows := LabelServer.accept_follows once final accepted
      have updated := ordered.setLabel follows (ordered.begun.update distinct current.2 follows)
      exact ⟨updated.begun, updated.sent, resume_ok_ordered once final current.1 current.2 accepted, updated.remembered⟩
    · cases stepped
  | report reply =>
    simp only [LoadWorld.step] at stepped
    split at stepped
    · rename_i fallbackIdx probes call calling
      have current := ordered.attempt
      rw [calling] at current
      split at stepped
      · rename_i permitted
        cases stepped
        exact ⟨ordered.begun, ordered.sent,
          resume_status_ordered current.1 current.2 permitted.1 permitted.2, ordered.remembered⟩
      · cases stepped
    · cases stepped
  | fail err =>
    simp only [LoadWorld.step] at stepped
    split at stepped
    · rename_i fallbackIdx probes call calling
      have current := ordered.attempt
      rw [calling] at current
      split at stepped
      · cases stepped
        exact ⟨ordered.begun, ordered.sent, resume_error_ordered call err current.1 current.2, ordered.remembered⟩
      · cases stepped
    · cases stepped
  | finish =>
    simp only [LoadWorld.step] at stepped
    split at stepped
    · cases stepped
      exact ⟨ordered.begun, ordered.sent, trivial, by simp⟩
    · rename_i fallbackIdx err returned
      have current := ordered.attempt
      rw [returned] at current
      cases stepped
      refine ⟨ordered.begun, ordered.sent, trivial, fun known remembered => ?_⟩
      simp only at remembered
      split at remembered
      · cases remembered
        exact ⟨current.1, current.2.1⟩
      · cases remembered
    · cases stepped
  | advance name =>
    obtain ⟨state, advanced, rfl⟩ := Option.map_eq_some_iff.mp stepped
    obtain ⟨begun, follows⟩ := LabelState.advance_follows advanced
    exact ordered.setLabel follows (ordered.begun.own distinct begun follows)
  | expire name =>
    obtain ⟨state, expired, rfl⟩ := Option.map_eq_some_iff.mp stepped
    obtain ⟨begun, follows⟩ := LabelState.expire_follows expired
    exact ordered.setLabel follows (ordered.begun.own distinct begun follows)
  | forget =>
    cases stepped
    exact ⟨ordered.begun, ordered.sent, ordered.attempt, by simp⟩
  | restart =>
    cases stepped
    exact ⟨ordered.begun, ordered.sent, trivial, by simp⟩

theorem step_committed (once : starRocks.CommitsOnce) {action : LoadAction}
    (stepped : world.step starRocks display debug label action = some next) (committed : world.server name = .committed) :
    next.server name = .committed := by
  have updated : ∀ {changed state}, (world.server changed = .committed → state = .committed) →
      Function.update world.server changed state name = .committed := by
    intro changed state follows
    by_cases same : name = changed
    · subst same
      rw [Function.update_self]
      exact follows committed
    · rw [Function.update_of_ne same]
      exact committed
  cases action with
  | process index =>
    obtain ⟨entry, _, rfl⟩ := Option.map_eq_some_iff.mp stepped
    refine updated fun same => ?_
    rw [same]
    exact once.processed entry.1
  | accept =>
    simp only [LoadWorld.step] at stepped
    split at stepped
    · obtain ⟨state, accepted, rfl⟩ := Option.map_eq_some_iff.mp stepped
      exact updated fun same => once.accepted _ state (same ▸ accepted)
    · cases stepped
  | advance changed =>
    obtain ⟨state, advanced, rfl⟩ := Option.map_eq_some_iff.mp stepped
    exact updated (LabelState.advance_follows advanced).2.committed
  | expire changed =>
    obtain ⟨state, expired, rfl⟩ := Option.map_eq_some_iff.mp stepped
    exact updated (LabelState.expire_follows expired).2.committed
  | start | send | report | fail | finish =>
    simp only [LoadWorld.step] at stepped
    repeat' split at stepped
    all_goals
      cases stepped
    all_goals exact committed
  | forget | restart =>
    cases stepped
    exact committed

theorem run_committed (once : starRocks.CommitsOnce) {permitted : LoadWorld → LoadAction → Prop}
    (run : Run (LoadWorld.step starRocks display debug label) permitted world next)
    (committed : world.server name = .committed) : next.server name = .committed :=
  run.invariant (fun world => world.server name = .committed) committed fun _ _ _ committed _ stepped =>
    step_committed once stepped committed

/-- The sink goes on to the next label when it is told that the current one is aborted, and it is. -/
theorem Ordered.moves {action : LoadAction} {fallbackIdx probes nextIdx nextProbes : Nat} {call nextCall : SdkCall}
    (ordered : Ordered label world) (stepped : world.step starRocks display debug label action = some next)
    (calling : world.attempt = .calling fallbackIdx probes call)
    (goesOn : next.attempt = .calling nextIdx nextProbes nextCall) (changed : nextIdx ≠ fallbackIdx) :
    nextIdx = fallbackIdx + 1 ∧ ∃ reply, action = .report reply ∧ isLoadStateAborted reply = true ∧
      world.server (activeLabel label fallbackIdx) = .aborted := by
  have bound := ordered.attempt
  rw [calling] at bound
  have keeps : next.attempt = world.attempt → False := by
    intro same
    rw [same, calling] at goesOn
    cases goesOn
    exact changed rfl
  cases action with
  | start mode => simp [LoadWorld.step, calling] at stepped
  | finish => simp [LoadWorld.step, calling] at stepped
  | send =>
    simp only [LoadWorld.step, calling] at stepped
    cases stepped
    exact (keeps calling.symm).elim
  | process index =>
    obtain ⟨entry, _, rfl⟩ := Option.map_eq_some_iff.mp stepped
    exact (keeps rfl).elim
  | advance name =>
    obtain ⟨state, _, rfl⟩ := Option.map_eq_some_iff.mp stepped
    exact (keeps rfl).elim
  | expire name =>
    obtain ⟨state, _, rfl⟩ := Option.map_eq_some_iff.mp stepped
    exact (keeps rfl).elim
  | forget =>
    cases stepped
    exact (keeps rfl).elim
  | restart =>
    cases stepped
    cases goesOn
  | accept =>
    simp only [LoadWorld.step, calling] at stepped
    obtain ⟨state, _, rfl⟩ := Option.map_eq_some_iff.mp stepped
    rcases resume_moves goesOn with same | ⟨_, reply, answer, _⟩
    · exact absurd same changed
    · cases answer
  | fail err =>
    simp only [LoadWorld.step, calling] at stepped
    split at stepped
    · cases stepped
      rcases resume_moves goesOn with same | ⟨_, reply, answer, _⟩
      · exact absurd same changed
      · cases answer
    · cases stepped
  | report reply =>
    simp only [LoadWorld.step, calling] at stepped
    split at stepped
    · rename_i permitted
      cases stepped
      rcases resume_moves goesOn with same | ⟨advanced, other, answer, named⟩
      · exact absurd same changed
      · cases answer
        refine ⟨?_, reply, rfl, named, ?_⟩
        · have := bound.1
          omega
        · have truthful := permitted.2
          simp only [LabelState.describedBy, named, Bool.not_true, Bool.false_or, Bool.and_eq_true,
            beq_iff_eq] at truthful
          exact truthful.2
    · cases stepped

/-- In every run of attempts to load one lease, with lost and late requests, replies that go missing and restarts of the
    sink, on a server where an aborted label never begins again: at most one of the labels of the lease is ever
    committed, an attempt succeeds only when one is, and the sink goes on to the next label only when it is told that the
    one before is aborted, and it is. -/
theorem load_once {starRocks : LabelServer} (once : starRocks.CommitsOnce) (final : starRocks.AbortedStays)
    (display : StreamLoadError → String) (debug : DebugText) (digest : List Char → Nat) (table : List Char) (id : LeaseId)
    {server : List Char → LabelState}
    (unused : ∀ i, server (activeLabel (formatLeaseLabel digest table id) i) = .absent) {before after : LoadWorld}
    (reached : Run (LoadWorld.step starRocks display debug (formatLeaseLabel digest table id)) (fun _ _ => True)
      { server := server } before)
    (run : Run (LoadWorld.step starRocks display debug (formatLeaseLabel digest table id)) (fun _ _ => True)
      before after) :
    let label := formatLeaseLabel digest table id
    (∀ i j, before.server (activeLabel label i) = .committed → after.server (activeLabel label j) = .committed →
      activeLabel label i = activeLabel label j) ∧
    (∀ fallbackIdx, after.attempt = .returned fallbackIdx (.ok ()) →
      ∃ i, after.server (activeLabel label i) = .committed) ∧
    (∀ fallbackIdx probes call, after.attempt = .calling fallbackIdx probes call →
      ∀ i < fallbackIdx, after.server (activeLabel label i) = .aborted) ∧
    ∀ action next fallbackIdx probes call nextIdx nextProbes nextCall,
      after.step starRocks display debug label action = some next → after.attempt = .calling fallbackIdx probes call →
      next.attempt = .calling nextIdx nextProbes nextCall → nextIdx ≠ fallbackIdx →
      nextIdx = fallbackIdx + 1 ∧ ∃ reply, action = .report reply ∧ isLoadStateAborted reply = true ∧
        after.server (activeLabel label fallbackIdx) = .aborted := by
  intro label
  have distinct : ∀ i j, activeLabel label i = activeLabel label j → i = j := fun _ _ => activeLabel_attempt_inj
  have fresh : Ordered label { server := server } :=
    ⟨fun i begun => absurd (unused i) begun, by simp, trivial, by simp⟩
  have ordered : Ordered label after := by
    refine Run.invariant (Ordered label) fresh ?_ (reached.trans run)
    intro _ _ _ ordered _ stepped
    exact ordered.step once final distinct stepped
  refine ⟨fun i j first second => ?_, fun fallbackIdx returned => ?_, fun fallbackIdx probes call calling => ?_, ?_⟩
  · have still := run_committed once run first
    rcases Nat.lt_trichotomy i j with smaller | rfl | larger
    · have aborted := ordered.begun j (by rw [second]; simp) i smaller
      rw [aborted] at still
      cases still
    · rfl
    · have aborted := ordered.begun i (by rw [still]; simp) j larger
      rw [aborted] at second
      cases second
  · have current := ordered.attempt
    rw [returned] at current
    exact current.2.2 rfl
  · have current := ordered.attempt
    rw [calling] at current
    exact current.2
  · intro action next fallbackIdx probes call nextIdx nextProbes nextCall stepped calling goesOn changed
    exact ordered.moves stepped calling goesOn changed

end LoadWorld

namespace LabelState

def process (state : LabelState) (request : Request) : LabelState :=
  match request, state with
  | .streamLoad, .absent => .running true
  | .beginTransaction, .absent => .running false
  | .prepareTransaction, .running false => .prepared false
  | .commitTransaction, .prepared _ => .committed
  | .rollbackTransaction, .running _ => .aborted
  | .rollbackTransaction, .prepared _ => .aborted
  | _, _ => state

def accept (state : LabelState) (request : Request) : Option LabelState :=
  match request, state with
  | .streamLoad, .absent => some .committed
  | .beginTransaction, .absent => some (.running false)
  | .loadData, .running false => some (.running false)
  | .prepareTransaction, .running false => some (.prepared false)
  | .prepareTransaction, .prepared false => some (.prepared false)
  | .commitTransaction, .prepared _ => some .committed
  | .commitTransaction, .committed => some .committed
  | .rollbackTransaction, .running _ => some .aborted
  | .rollbackTransaction, .prepared _ => some .aborted
  | .rollbackTransaction, .aborted => some .aborted
  | _, _ => none

/-- A load or a transaction takes an aborted label as one that is not there. -/
def reopened (state : LabelState) (request : Request) : LabelState :=
  match request, state with
  | .streamLoad, .aborted | .beginTransaction, .aborted => .absent
  | _, _ => state

theorem process_committed {state : LabelState} {request : Request} (processed : state.process request = .committed) :
    state = .committed ∨ state.isPrepared = true := by
  cases state with
  | committed => exact .inl rfl
  | prepared oneShot => exact .inr rfl
  | running oneShot => cases request <;> cases oneShot <;> cases processed
  | absent | aborted => cases request <;> cases processed

theorem accept_committed {state : LabelState} {request : Request}
    (accepted : state.accept request = some .committed) :
    request = .streamLoad ∨ state = .committed ∨ state.isPrepared = true := by
  cases state with
  | committed => exact .inr (.inl rfl)
  | prepared oneShot => exact .inr (.inr rfl)
  | running oneShot => cases request <;> cases oneShot <;> cases accepted
  | absent =>
    cases request with
    | streamLoad => exact .inl rfl
    | _ => cases accepted
  | aborted => cases request <;> cases accepted

theorem accept_loaded {state after : LabelState} (accepted : state.accept .streamLoad = some after) :
    after = .committed := by
  cases state <;> cases accepted
  rfl

theorem accept_completed {state after : LabelState} (accepted : state.accept .commitTransaction = some after) :
    after = .committed := by
  cases state <;> cases accepted <;> rfl

theorem isPrepared_reopened {state : LabelState} {request : Request} :
    ((state.reopened request) = .committed ↔ state = .committed) ∧
      (state.reopened request).isPrepared = state.isPrepared := by
  cases request <;> cases state <;> simp [reopened, isPrepared]

end LabelState

namespace LabelServer

/-- Every label is taken for good by the first request for it. -/
def takesOnce : LabelServer := ⟨LabelState.process, LabelState.accept⟩

/-- An aborted label may be used again. -/
def takesAgain : LabelServer :=
  ⟨fun state request => (state.reopened request).process request,
    fun state request => (state.reopened request).accept request⟩

theorem takesOnce_commitsOnce : takesOnce.CommitsOnce where
  processed request := by cases request <;> rfl
  accepted request after accepted := by
    cases request <;> cases accepted
    rfl
  prepared _ _ := LabelState.process_committed
  transacted _ _ := LabelState.accept_committed
  loaded _ _ := LabelState.accept_loaded
  completed _ _ := LabelState.accept_completed

theorem takesOnce_abortedStays : takesOnce.AbortedStays where
  processed request := by cases request <;> rfl
  accepted request after accepted := by
    cases request <;> cases accepted
    rfl

theorem takesAgain_commitsOnce : takesAgain.CommitsOnce where
  processed request := by cases request <;> rfl
  accepted request after accepted := by
    cases request <;> cases accepted
    rfl
  prepared state request processed := by
    rw [← LabelState.isPrepared_reopened.1, ← LabelState.isPrepared_reopened.2]
    exact LabelState.process_committed processed
  transacted state request accepted := by
    rw [← LabelState.isPrepared_reopened.1, ← LabelState.isPrepared_reopened.2]
    exact LabelState.accept_committed accepted
  loaded _ _ := LabelState.accept_loaded
  completed _ _ := LabelState.accept_completed

end LabelServer

namespace LoadWorld

/-- The base label is begun by a request whose reply is lost and rolled back by the next attempt; the commit of the
    fallback label takes effect while the sink is restarted, and the restarted sink finds it. -/
def restartedLoad : List LoadAction :=
  let taken := StreamLoadError.starRocksFailure "Label Already Exists".toList []
  let stateOf := fun state : String => LoadAction.report ⟨"Success".toList, some state.toList, none⟩
  [.start .v2, .send, .process 0, .fail (.network []), .finish,
    .start .v2, .fail taken, stateOf "LOADING", .accept, .finish,
    .start .v2, .fail taken, stateOf "ABORTED", .accept, .accept, .accept, .send, .process 1, .restart,
    .start .v2, .fail taken, stateOf "ABORTED", .fail taken, stateOf "VISIBLE"]

def plainLabel : List Char :=
  formatLeaseLabel (fun _ => 0) "otel_logs".toList { instanceId := 7, signal := .logs, firstSeq := 1, lastSeq := 4 }

def isReturnedOk : Attempt → Bool
  | .returned _ (.ok ()) => true
  | _ => false

theorem load_once_restarted :
    ∃ world, execute (LoadWorld.step .takesOnce (fun _ => "") (fun _ => []) plainLabel) {} restartedLoad = some world ∧
      isReturnedOk world.attempt = true ∧ world.server plainLabel = .aborted ∧
      ∃ i, world.server (activeLabel plainLabel i) = .committed := by
  have executed : ((execute (LoadWorld.step .takesOnce (fun _ => "") (fun _ => []) plainLabel) {} restartedLoad).any
      fun world => isReturnedOk world.attempt && world.server plainLabel == .aborted) = true := by decide +kernel
  obtain ⟨world, reached, shown⟩ := (Option.any_eq_true _ _).mp executed
  simp only [Bool.and_eq_true, beq_iff_eq] at shown
  refine ⟨world, reached, shown.1, shown.2, ?_⟩
  have once := load_once LabelServer.takesOnce_commitsOnce LabelServer.takesOnce_abortedStays (fun _ => "")
    (fun _ => []) (fun _ => 0) "otel_logs".toList { instanceId := 7, signal := .logs, firstSeq := 1, lastSeq := 4 }
    (fun _ => rfl) (execute_run (fun _ _ => trivial) restartedLoad reached) .refl
  cases attempt : world.attempt with
  | returned fallbackIdx result =>
    cases result with
    | ok done => exact once.2.1 fallbackIdx attempt
    | error err => simp [attempt, isReturnedOk] at shown
  | _ => simp [attempt, isReturnedOk] at shown

/-- The first request for the base label is still on its way when the second one is begun and aborted and the sink has
    committed the fallback label; then it begins the aborted label again. -/
def lateLoad : List LoadAction :=
  let taken := StreamLoadError.starRocksFailure "Label Already Exists".toList []
  let aborted := LoadAction.report ⟨"Success".toList, some "ABORTED".toList, none⟩
  [.start .v1, .send, .fail (.network []), .finish, .start .v1, .send, .process 1, .fail (.network []), .finish,
    .start .v1, .fail taken, .expire plainLabel, aborted, .accept, .finish,
    .process 0, .advance plainLabel, .advance plainLabel]

/-- On a server where an aborted label may begin again, two labels of one lease are committed. -/
theorem load_twice_takesAgain : LabelServer.takesAgain.CommitsOnce ∧
    ∃ world, Run (LoadWorld.step .takesAgain (fun _ => "") (fun _ => []) plainLabel) (fun _ _ => True) {} world ∧
      world.server (activeLabel plainLabel 0) = .committed ∧ world.server (activeLabel plainLabel 1) = .committed ∧
      activeLabel plainLabel 0 ≠ activeLabel plainLabel 1 := by
  have executed : ((execute (LoadWorld.step .takesAgain (fun _ => "") (fun _ => []) plainLabel) {} lateLoad).any
      fun world => world.server (activeLabel plainLabel 0) == .committed &&
        world.server (activeLabel plainLabel 1) == .committed) = true := by decide +kernel
  obtain ⟨world, reached, shown⟩ := (Option.any_eq_true _ _).mp executed
  simp only [Bool.and_eq_true, beq_iff_eq] at shown
  exact ⟨LabelServer.takesAgain_commitsOnce, world, execute_run (fun _ _ => trivial) lateLoad reached, shown.1, shown.2,
    by decide +kernel⟩

end LoadWorld

end OtelDatalake.StarRocks
