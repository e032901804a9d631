import OtelDatalake.Buffer.BlockedSend

open OtelDatalake.Foundation

namespace OtelDatalake.Buffer

namespace BlockedSendGuard

def mayStoreZero (guard : BlockedSendGuard) : Bool := guard.storesZero || guard.phase = .admittedRecheck

inductive Effect (ring : ReadinessAtomics) (guard : BlockedSendGuard) :
    ReadinessAtomics → BlockedSendGuard → Prop where
  | register (next) (idle : guard.isIdle = true) (was : guard.registered = 0) (is : next.registered = 1)
    (first : ring.blockedSenders = 0 → next.storesTime = true) :
    Effect ring guard { ring with blockedSenders := ring.blockedSenders + 1 } next
  | release (next) (idle : guard.isIdle = true) (was : guard.registered = 1) (is : next.registered = 0)
    (last : ring.blockedSenders ≤ 1 → next.storesZero = true) :
    Effect ring guard { ring with blockedSenders := ring.blockedSenders - 1 } next
  | stamp (next) (since : Nat) (stores : guard.storesTime = true) (same : next.registered = guard.registered)
    (positive : since ≠ 0) (after : guard.registered = 1 ∨ next.mayStoreZero = true) :
    Effect ring guard { ring with blockedSinceUnixMs := since } next
  | clear (next) (stores : guard.storesZero = true) (same : next.registered = guard.registered)
    (idle : next.isIdle = true) : Effect ring guard { ring with blockedSinceUnixMs := 0 } next
  | pass (next) (same : next.registered = guard.registered) (noTime : guard.storesTime = false)
    (noZero : guard.storesZero = false) (zero : guard.mayStoreZero = true → ring.blockedSenders = 0 →
      next.mayStoreZero = true)
    (settled : 0 < ring.blockedSenders → guard.isIdle = false → next.isIdle = true) :
    Effect ring guard ring next

theorem markBlocked_effect {ring : ReadinessAtomics} {guard : BlockedSendGuard} (ready : guard.phase = .ready) :
    Effect ring guard (guard.markBlocked ring).1 (guard.markBlocked ring).2 := by
  obtain ⟨active, phase⟩ := guard
  cases ready
  cases active with
  | false =>
    by_cases first : ring.blockedSenders = 0
    · have run : markBlocked ring ⟨false, .ready⟩ =
          ({ ring with blockedSenders := ring.blockedSenders + 1 }, ⟨false, .blockedStore⟩) := by
        simp [markBlocked, first]
      rw [run]
      exact .register _ rfl rfl rfl fun _ => rfl
    · have run : markBlocked ring ⟨false, .ready⟩ =
          ({ ring with blockedSenders := ring.blockedSenders + 1 }, ⟨true, .ready⟩) := by
        simp [markBlocked, first]
      rw [run]
      exact .register _ rfl rfl rfl fun none => absurd none first
  | true => exact .pass _ rfl rfl rfl (fun zero => Bool.noConfusion zero) fun _ busy => Bool.noConfusion busy

theorem markAdmitted_effect {ring : ReadinessAtomics} {guard : BlockedSendGuard} (ready : guard.phase = .ready) :
    Effect ring guard (guard.markAdmitted ring).1 (guard.markAdmitted ring).2 := by
  obtain ⟨active, phase⟩ := guard
  cases ready
  cases active with
  | false => exact .pass _ rfl rfl rfl (fun zero => Bool.noConfusion zero) fun _ busy => Bool.noConfusion busy
  | true =>
    by_cases last : ring.blockedSenders ≤ 1
    · have run : markAdmitted ring ⟨true, .ready⟩ =
          ({ ring with blockedSenders := ring.blockedSenders - 1 }, ⟨true, .admittedClear⟩) := by
        simp [markAdmitted, last]
      rw [run]
      exact .release _ rfl rfl rfl fun _ => rfl
    · have run : markAdmitted ring ⟨true, .ready⟩ =
          ({ ring with blockedSenders := ring.blockedSenders - 1 }, ⟨true, .admittedStore⟩) := by
        simp [markAdmitted, last]
      rw [run]
      exact .release _ rfl rfl rfl fun few => absurd few last

theorem drop_effect {ring : ReadinessAtomics} {guard : BlockedSendGuard} (ready : guard.phase = .ready) :
    Effect ring guard (guard.drop ring).1 (guard.drop ring).2 := by
  obtain ⟨active, phase⟩ := guard
  cases ready
  cases active with
  | false => exact .pass _ rfl rfl rfl (fun zero => Bool.noConfusion zero) fun _ busy => Bool.noConfusion busy
  | true =>
    by_cases last : ring.blockedSenders ≤ 1
    · have run : drop ring ⟨true, .ready⟩ =
          ({ ring with blockedSenders := ring.blockedSenders - 1 }, ⟨true, .dropClear⟩) := by
        simp [drop, last]
      rw [run]
      exact .release _ rfl rfl rfl fun _ => rfl
    · have run : drop ring ⟨true, .ready⟩ =
          ({ ring with blockedSenders := ring.blockedSenders - 1 }, ⟨false, .dropped⟩) := by
        simp [drop, last]
      rw [run]
      exact .release _ rfl rfl rfl fun few => absurd few last

theorem proceed_effect {ring after : ReadinessAtomics} {guard next : BlockedSendGuard} {nowMs : Nat}
    (proceeded : guard.proceed nowMs ring = some (after, next)) : Effect ring guard after next := by
  obtain ⟨active, phase⟩ := guard
  have stamped : max nowMs 1 ≠ 0 := by omega
  cases phase with
  | ready | dropped => cases proceeded
  | blockedStore =>
    cases proceeded
    exact .stamp _ _ rfl rfl stamped (.inl rfl)
  | admittedClear | admittedReset | dropClear =>
    cases proceeded
    exact .clear _ rfl rfl rfl
  | admittedStore =>
    cases proceeded
    exact .stamp _ _ rfl rfl stamped (.inr rfl)
  | admittedRecheck =>
    by_cases empty : ring.blockedSenders = 0
    · simp only [proceed, if_pos empty] at proceeded
      cases proceeded
      exact .pass _ rfl rfl rfl (fun _ _ => rfl) fun counted => absurd empty (by omega)
    · simp only [proceed, if_neg empty] at proceeded
      cases proceeded
      exact .pass _ rfl rfl rfl (fun _ none => absurd none empty) fun _ _ => rfl

theorem called_effect {ring after : ReadinessAtomics} {guard next : BlockedSendGuard}
    {called : ReadinessAtomics × BlockedSendGuard} (effect : guard.phase = .ready → Effect ring guard called.1 called.2)
    (acted : (if guard.phase = .ready then some called else none) = some (after, next)) :
    Effect ring guard after next := by
  by_cases ready : guard.phase = .ready
  · rw [if_pos ready] at acted
    have same := Option.some.inj acted
    rw [same] at effect
    exact effect ready
  · rw [if_neg ready] at acted
    cases acted

theorem act_effect {ring after : ReadinessAtomics} {guard next : BlockedSendGuard} {choice : GuardChoice}
    (acted : guard.act ring choice = some (after, next)) : Effect ring guard after next := by
  cases choice with
  | markBlocked => exact called_effect markBlocked_effect acted
  | markAdmitted => exact called_effect markAdmitted_effect acted
  | drop => exact called_effect drop_effect acted
  | proceed nowMs => exact proceed_effect acted

end BlockedSendGuard

namespace BlockedSenders

/-- The count is what the guards have registered, and a set timestamp that no sender is left for has a guard
    that will still clear it. This holds in every order of operations. -/
structure Accounted (system : BlockedSenders) : Prop where
  counted : system.shared.blockedSenders = Interleaved.total BlockedSendGuard.registered system.threads
  cleared : system.shared.blockedSenders = 0 → system.shared.blockedSinceUnixMs ≠ 0 →
    ∃ guard ∈ system.threads, guard.mayStoreZero = true

/-- A counted sender without a timestamp has a guard that will still store one. -/
def Stamped (system : BlockedSenders) : Prop :=
  0 < system.shared.blockedSenders → system.shared.blockedSinceUnixMs = 0 →
    ∃ guard ∈ system.threads, guard.storesTime = true

theorem Accounted.initial : Accounted initial := ⟨rfl, fun _ set => absurd rfl set⟩

theorem Stamped.initial : Stamped initial := fun counted => absurd counted (Nat.lt_irrefl 0)

theorem idle_not_mayStoreZero {guard : BlockedSendGuard} (idle : guard.isIdle = true) : ¬ guard.mayStoreZero = true := by
  obtain ⟨active, phase⟩ := guard
  cases phase <;> simp_all [BlockedSendGuard.isIdle, BlockedSendGuard.mayStoreZero, BlockedSendGuard.storesZero]

theorem idle_not_storesTime {guard : BlockedSendGuard} (idle : guard.isIdle = true) : ¬ guard.storesTime = true := by
  obtain ⟨active, phase⟩ := guard
  cases phase <;> simp_all [BlockedSendGuard.isIdle, BlockedSendGuard.storesTime]

theorem storesZero_mayStoreZero {guard : BlockedSendGuard} (stores : guard.storesZero = true) :
    guard.mayStoreZero = true := by
  simp [BlockedSendGuard.mayStoreZero, stores]

theorem storesTime_not_mayStoreZero {guard : BlockedSendGuard} (stores : guard.storesTime = true) :
    ¬ guard.mayStoreZero = true := by
  obtain ⟨active, phase⟩ := guard
  cases phase <;>
    simp_all [BlockedSendGuard.storesTime, BlockedSendGuard.mayStoreZero, BlockedSendGuard.storesZero]

theorem storesZero_not_storesTime {guard : BlockedSendGuard} (stores : guard.storesZero = true) :
    ¬ guard.storesTime = true := fun time => storesTime_not_mayStoreZero time (storesZero_mayStoreZero stores)

theorem Accounted.effect {ring after : ReadinessAtomics} {left right : List BlockedSendGuard}
    {guard next : BlockedSendGuard} (books : Accounted ⟨ring, left ++ guard :: right⟩)
    (effect : BlockedSendGuard.Effect ring guard after next) : Accounted ⟨after, left ++ next :: right⟩ := by
  have counted := books.counted
  simp only [Interleaved.total_append, Interleaved.total_cons] at counted
  cases effect with
  | register next idle was is first =>
    refine ⟨?_, fun none => absurd none (Nat.succ_ne_zero _)⟩
    simp only [Interleaved.total_append, Interleaved.total_cons]
    omega
  | release next idle was is last =>
    refine ⟨?_, fun none _ => ?_⟩
    · simp only [Interleaved.total_append, Interleaved.total_cons]
      omega
    · have few : ring.blockedSenders ≤ 1 := by
        simp only at none
        omega
      exact Interleaved.exists_moved left right (storesZero_mayStoreZero (last few))
  | stamp next since stores same positive later =>
    refine ⟨?_, fun none _ => ?_⟩
    · simp only [Interleaved.total_append, Interleaved.total_cons]
      omega
    · simp only at none
      rcases later with own | zero
      · omega
      · exact Interleaved.exists_moved left right zero
  | clear next stores same idle =>
    refine ⟨?_, fun _ set => absurd rfl set⟩
    simp only [Interleaved.total_append, Interleaved.total_cons]
    omega
  | pass next same noTime noZero zero settled =>
    refine ⟨?_, fun none set => ?_⟩
    · simp only [Interleaved.total_append, Interleaved.total_cons]
      omega
    · by_cases pending : guard.mayStoreZero = true
      · exact Interleaved.exists_moved left right (zero pending none)
      · exact Interleaved.exists_others next (books.cleared none set) pending

theorem Stamped.effect {ring after : ReadinessAtomics} {left right : List BlockedSendGuard}
    {guard next : BlockedSendGuard} (stamped : Stamped ⟨ring, left ++ guard :: right⟩)
    (allowed : guard.storesZero = true → ring.blockedSenders = 0 ∨
      ∃ other ∈ left ++ guard :: right, other.storesTime = true)
    (effect : BlockedSendGuard.Effect ring guard after next) : Stamped ⟨after, left ++ next :: right⟩ := by
  intro counted unset
  cases effect with
  | register next idle was is first =>
    by_cases alone : ring.blockedSenders = 0
    · exact Interleaved.exists_moved left right (first alone)
    · exact Interleaved.exists_others next (stamped (Nat.pos_of_ne_zero alone) unset) (idle_not_storesTime idle)
  | release next idle was is last =>
    have before : 0 < ring.blockedSenders := by
      simp only at counted
      omega
    exact Interleaved.exists_others next (stamped before unset) (idle_not_storesTime idle)
  | stamp next since stores same positive later => exact absurd unset positive
  | clear next stores same idle =>
    rcases allowed stores with none | pending
    · simp only at counted
      omega
    · exact Interleaved.exists_others next pending (storesZero_not_storesTime stores)
  | pass next same noTime noZero zero settled =>
    exact Interleaved.exists_others next (stamped counted unset) (by simp [noTime])

theorem Accounted.step {before after : BlockedSenders} {turn : GuardTurn} (books : Accounted before)
    (stepped : step before turn = some after) : Accounted after := by
  obtain ⟨ring, guards⟩ := before
  obtain ⟨guard, rfl, fresh, rfl⟩ | ⟨left, guard, right, choice, ring', next, rfl, split, acted, rfl⟩ :=
    Interleaved.step_cases stepped
  · have isNew : guard = {} := by simpa [BlockedSendGuard.isFresh] using fresh
    subst isNew
    refine ⟨?_, fun none set => ?_⟩
    · have counted := books.counted
      simpa [BlockedSendGuard.registered] using counted
    · obtain ⟨other, member, zero⟩ := books.cleared none set
      exact ⟨other, List.mem_append_left _ member, zero⟩
  · simp only at split
    subst split
    exact books.effect (BlockedSendGuard.act_effect acted)

theorem Stamped.step {before after : BlockedSenders} {turn : GuardTurn} (stamped : Stamped before)
    (allowed : timely before turn) (stepped : step before turn = some after) : Stamped after := by
  obtain ⟨ring, guards⟩ := before
  obtain ⟨guard, rfl, fresh, rfl⟩ | ⟨left, guard, right, choice, ring', next, rfl, split, acted, rfl⟩ :=
    Interleaved.step_cases stepped
  · intro counted unset
    obtain ⟨other, member, time⟩ := stamped counted unset
    exact ⟨other, List.mem_append_left _ member, time⟩
  · simp only at split
    subst split
    refine stamped.effect (fun zero => ?_) (BlockedSendGuard.act_effect acted)
    exact allowed guard (by simp) zero

theorem timely_signalled {system : BlockedSenders} (run : Run step timely initial system) (quiet : Quiet system) :
    Signalled system.shared := by
  have books : Accounted system :=
    run.invariant Accounted .initial fun _ _ _ holds _ stepped => holds.step stepped
  have stamped : Stamped system :=
    run.invariant Stamped .initial fun _ _ _ holds allowed stepped => holds.step allowed stepped
  constructor
  · intro counted unset
    obtain ⟨guard, member, time⟩ := stamped counted unset
    exact idle_not_storesTime (quiet guard member) time
  · intro set
    by_contra none
    obtain ⟨guard, member, zero⟩ := books.cleared (by omega) set
    exact idle_not_mayStoreZero (quiet guard member) zero

theorem settles {ring : ReadinessAtomics} {guard : BlockedSendGuard} (counted : 0 < ring.blockedSenders)
    (unset : ring.blockedSinceUnixMs = 0) (busy : ¬ guard.isIdle = true) (noTime : ¬ guard.storesTime = true) :
    ∃ next, guard.act ring (.proceed 0) = some (ring, next) ∧ next.isIdle = true := by
  obtain ⟨active, phase⟩ := guard
  obtain ⟨senders, since, transient⟩ := ring
  cases unset
  cases phase with
  | ready | dropped => exact absurd rfl busy
  | blockedStore | admittedStore => exact absurd rfl noTime
  | admittedClear | admittedReset | dropClear => exact ⟨_, rfl, rfl⟩
  | admittedRecheck =>
    have nonempty : senders ≠ 0 := by
      simp only at counted
      omega
    refine ⟨⟨false, .ready⟩, ?_, rfl⟩
    simp only [BlockedSendGuard.act, BlockedSendGuard.proceed, if_neg nonempty]

/-- Once a counted sender has no timestamp and no guard is going to store one, it stays invisible until all
    guards have come to rest. -/
theorem lost_quiet (system : BlockedSenders) (counted : 0 < system.shared.blockedSenders)
    (unset : system.shared.blockedSinceUnixMs = 0) (noTime : ∀ guard ∈ system.threads, ¬ guard.storesTime = true) :
    ∃ later, Run step (fun _ _ => True) system later ∧ Quiet later ∧ ¬ Signalled later.shared := by
  -- The number of guards inside a method falls with every operation.
  induction busyCount : system.threads.countP (fun guard => !guard.isIdle) generalizing system with
  | zero =>
    refine ⟨system, .refl, ?_, fun signalled => signalled.mp counted unset⟩
    intro guard member
    have idle := List.countP_eq_zero.mp busyCount guard member
    simpa using idle
  | succ rest ih =>
    have nonzero : 0 < system.threads.countP fun guard => !guard.isIdle := by omega
    obtain ⟨guard, member, busy⟩ := List.countP_pos_iff.mp nonzero
    have busy : ¬ guard.isIdle = true := by simpa using busy
    obtain ⟨next, acted, idle⟩ := settles counted unset busy (noTime guard member)
    obtain ⟨ring, guards⟩ := system
    obtain ⟨left, right, rfl⟩ := List.append_of_mem member
    have stepped : step ⟨ring, left ++ guard :: right⟩ (.act left.length (.proceed 0)) =
        some ⟨ring, left ++ next :: right⟩ := Interleaved.step_act _ acted
    have others : ∀ other ∈ left ++ next :: right, ¬ other.storesTime = true := by
      intro other place
      simp only [List.mem_append, List.mem_cons] at place noTime
      rcases place with place | rfl | place
      · exact noTime other (.inl place)
      · exact idle_not_storesTime idle
      · exact noTime other (.inr (.inr place))
    have fewer : (left ++ next :: right).countP (fun guard => !guard.isIdle) = rest := by
      simp only [List.countP_append, List.countP_cons, busy, idle, Bool.not_false, Bool.not_true,
        Bool.false_eq_true, if_true, if_false] at busyCount ⊢
      omega
    obtain ⟨later, run, quiet, lost⟩ := ih ⟨ring, left ++ next :: right⟩ counted unset others fewer
    exact ⟨later, .head ⟨_, trivial, stepped⟩ run, quiet, lost⟩

theorem untimely_lost {before after : BlockedSenders} {turn : GuardTurn} (early : ¬ timely before turn)
    (stepped : step before turn = some after) :
    ∃ later, Run step (fun _ _ => True) after later ∧ Quiet later ∧ ¬ Signalled later.shared := by
  obtain ⟨ring, guards⟩ := before
  obtain ⟨guard, rfl, fresh, rfl⟩ | ⟨left, guard, right, choice, ring', next, rfl, split, acted, rfl⟩ :=
    Interleaved.step_cases stepped
  · exact absurd trivial early
  · simp only at split
    subst split
    simp only [timely, List.getElem?_append_right (Nat.le_refl _), Nat.sub_self, List.getElem?_cons_zero,
      Option.mem_some_iff, forall_eq', not_forall, not_or, not_exists, not_and] at early
    obtain ⟨zero, counted, noTime⟩ := early
    have effect := BlockedSendGuard.act_effect acted
    cases effect with
    | register next idle | release next idle =>
      exact absurd (storesZero_mayStoreZero zero) (idle_not_mayStoreZero idle)
    | stamp next since stores => exact absurd stores (noTime guard (by simp))
    | clear next stores same idle =>
      refine lost_quiet _ (Nat.pos_of_ne_zero counted) rfl ?_
      intro other place
      simp only [List.mem_append, List.mem_cons] at place noTime
      rcases place with place | rfl | place
      · exact noTime other (.inl place)
      · exact idle_not_storesTime idle
      · exact noTime other (.inr (.inr place))
    | pass next same time noZero => simp [zero] at noZero

theorem isReady_stalled {view : ReadinessView} {ring : ReadinessAtomics} {nowMs : Nat} (signalled : Signalled ring)
    (member : ring ∈ view.rings) (enabled : 0 < view.stallThresholdMs) (counted : 0 < ring.blockedSenders)
    (elapsed : ring.blockedSinceUnixMs + view.stallThresholdMs ≤ nowMs) : view.isReady nowMs = false := by
  have since : 0 < ring.blockedSinceUnixMs := Nat.pos_of_ne_zero (signalled.mp counted)
  have long : view.stallThresholdMs ≤ nowMs - ring.blockedSinceUnixMs := by omega
  have stalled : view.ringReady nowMs ring = false := by
    simp [ReadinessView.ringReady, enabled, counted, since, long]
  have unready : view.rings.all (view.ringReady nowMs) = false := List.all_eq_false.mpr ⟨ring, member, by simp [stalled]⟩
  simp [ReadinessView.isReady, unready]

/-- As long as every store of zero is timely, a counted sender has its timestamp whenever no guard is in the
    middle of an operation, and `is_ready` reports it once it has stalled; a store that is not can hide it. -/
theorem blocked_sender_signalled (system : BlockedSenders) :
    (Run step timely initial system → Quiet system →
      Signalled system.shared ∧
        ∀ (view : ReadinessView) nowMs, system.shared ∈ view.rings → 0 < view.stallThresholdMs →
          0 < system.shared.blockedSenders →
          system.shared.blockedSinceUnixMs + view.stallThresholdMs ≤ nowMs → view.isReady nowMs = false) ∧
    (∀ turn after, Run step (fun _ _ => True) initial system → ¬ timely system turn →
      step system turn = some after →
      ∃ later, Run step (fun _ _ => True) after later ∧ Quiet later ∧ ¬ Signalled later.shared) := by
  constructor
  · intro run quiet
    have signalled := timely_signalled run quiet
    exact ⟨signalled, fun _ _ member enabled counted elapsed =>
      isReady_stalled signalled member enabled counted elapsed⟩
  · intro turn after _ early stepped
    exact untimely_lost early stepped

/-- Two senders block, the first is admitted and the second remains. -/
def admittedTurns : List GuardTurn :=
  [.start {}, .start {}, .act 0 .markBlocked, .act 0 (.proceed 5), .act 1 .markBlocked, .act 0 .markAdmitted,
    .act 0 (.proceed 7), .act 0 (.proceed 7)]

def admittedState : BlockedSenders := ⟨{ blockedSenders := 1, blockedSinceUnixMs := 7 }, [{}, { active := true }]⟩

theorem blocked_sender_signalled_admitted : Quiet admittedState ∧ Signalled admittedState.shared :=
  ⟨by decide, ((blocked_sender_signalled admittedState).1
    (executePermitted_run step timely admittedTurns (by decide)) (by decide)).1⟩

/-- The first guard's store of zero falls behind the second guard's registration and store. -/
def overtakenTurns : List GuardTurn :=
  [.start {}, .start {}, .act 0 .markBlocked, .act 0 (.proceed 5), .act 0 .markAdmitted, .act 1 .markBlocked,
    .act 1 (.proceed 7), .act 0 (.proceed 7)]

theorem not_signalled_overtaken : ∃ system, Run step (fun _ _ => True) initial system ∧ Quiet system ∧
    ¬ Signalled system.shared :=
  ⟨⟨{ blockedSenders := 1 }, [{}, { active := true }]⟩,
    execute_run (fun _ _ => trivial) overtakenTurns (by decide), by decide, by decide⟩

end BlockedSenders

end OtelDatalake.Buffer
