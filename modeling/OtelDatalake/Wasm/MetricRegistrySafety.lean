import Mathlib.Data.List.Induction
import OtelDatalake.Wasm.MetricRegistry

open OtelDatalake.Foundation OtelDatalake.Buffer

namespace OtelDatalake.Wasm

theorem saturatingAdd64_toNat (left right : UInt64) :
    (saturatingAdd64 left right).toNat = min (left.toNat + right.toNat) u64Max := by
  have bound : min (left.toNat + right.toNat) u64Max < 2 ^ 64 := by
    rw [u64Max]
    omega
  rw [saturatingAdd64, UInt64.toNat_ofNat', Nat.mod_eq_of_lt bound]

theorem min64_cases (left right : UInt64) :
    (min left right = left ∨ min left right = right) ∧ min left right ≤ left ∧ min left right ≤ right := by
  show ((if left ≤ right then left else right) = left ∨ (if left ≤ right then left else right) = right) ∧
    (if left ≤ right then left else right) ≤ left ∧ (if left ≤ right then left else right) ≤ right
  by_cases ordered : left ≤ right
  · rw [if_pos ordered]
    exact ⟨.inl rfl, UInt64.le_refl _, ordered⟩
  · rw [if_neg ordered]
    exact ⟨.inr rfl, (UInt64.le_total left right).resolve_left ordered, UInt64.le_refl _⟩

theorem max64_cases (left right : UInt64) :
    (max left right = left ∨ max left right = right) ∧ left ≤ max left right ∧ right ≤ max left right := by
  show ((if left ≤ right then right else left) = left ∨ (if left ≤ right then right else left) = right) ∧
    left ≤ (if left ≤ right then right else left) ∧ right ≤ (if left ≤ right then right else left)
  by_cases ordered : left ≤ right
  · rw [if_pos ordered]
    exact ⟨.inr rfl, ordered, UInt64.le_refl _⟩
  · rw [if_neg ordered]
    exact ⟨.inl rfl, UInt64.le_refl _, (UInt64.le_total left right).resolve_left ordered⟩

def MetricValue.kind : MetricValue → MetricKind
  | .counter _ => .counter
  | .gauge _ => .gauge
  | .duration _ => .duration

/-- What a metric of each kind says about the amounts that were recorded under its name. -/
def MetricValue.Summarizes (amounts : List UInt64) : MetricValue → Prop
  | .counter value => value.toNat = min (amounts.map UInt64.toNat).sum u64Max
  | .gauge bits => bits ∈ amounts
  | .duration summary =>
    summary.count.toNat = min amounts.length u64Max ∧
      summary.sumNanos.toNat = min (amounts.map UInt64.toNat).sum u64Max ∧
      (summary.minNanos ∈ amounts ∧ ∀ amount ∈ amounts, summary.minNanos ≤ amount) ∧
      (summary.maxNanos ∈ amounts ∧ ∀ amount ∈ amounts, amount ≤ summary.maxNanos) ∧
      summary.lastNanos ∈ amounts

theorem MetricValue.Summarizes.perm {left right : List UInt64} {value : MetricValue} (same : left.Perm right)
    (summarizes : value.Summarizes left) : value.Summarizes right := by
  have sums := (same.map UInt64.toNat).sum_eq
  cases value with
  | counter value => rwa [Summarizes, ← sums]
  | gauge bits => exact same.mem_iff.mp summarizes
  | duration summary =>
    obtain ⟨count, sum, ⟨least, lower⟩, ⟨greatest, upper⟩, last⟩ := summarizes
    refine ⟨same.length_eq ▸ count, sums ▸ sum, ⟨same.mem_iff.mp least, ?_⟩, ⟨same.mem_iff.mp greatest, ?_⟩,
      same.mem_iff.mp last⟩
    · exact fun amount member => lower amount (same.mem_iff.mpr member)
    · exact fun amount member => upper amount (same.mem_iff.mpr member)

namespace RecordCall

def applyTo (call : RecordCall) : Option MetricValue → MetricValue
  | none => call.create
  | some value => call.update value

def replay (name : List Char) (calls : List RecordCall) : Option MetricValue :=
  calls.foldl (fun value call => if call.name = name then some (call.applyTo value) else value) none

def amounts (name : List Char) (calls : List RecordCall) : List UInt64 :=
  (calls.filter fun call => call.name = name).map amount

theorem replay_append (name : List Char) (calls : List RecordCall) (call : RecordCall) :
    replay name (calls ++ [call]) =
      if call.name = name then some (call.applyTo (replay name calls)) else replay name calls := by
  rw [replay, List.foldl_append]
  rfl

theorem amounts_append (name : List Char) (calls : List RecordCall) (call : RecordCall) :
    amounts name (calls ++ [call]) = amounts name calls ++ if call.name = name then [call.amount] else [] := by
  rw [amounts, List.filter_append, List.map_append]
  by_cases same : call.name = name
  · simp [amounts, same]
  · simp [amounts, same]

theorem create_kind (call : RecordCall) : call.create.kind = call.kind := by cases call <;> rfl

theorem create_summarizes (call : RecordCall) : call.create.Summarizes [call.amount] := by
  have bound (amount : UInt64) : amount.toNat = min amount.toNat u64Max := by
    have limit := amount.toNat_lt
    rw [u64Max]
    omega
  cases call with
  | recordCounter name delta => simpa [create, MetricValue.Summarizes, amount] using bound delta
  | recordGauge name bits => exact List.mem_singleton_self bits
  | recordDuration name nanos =>
    refine ⟨rfl, ?_, ⟨List.mem_singleton_self _, ?_⟩, ⟨List.mem_singleton_self _, ?_⟩, List.mem_singleton_self _⟩
    · simpa [DurationSummary.single, amount] using bound nanos
    · exact fun other member => UInt64.le_of_eq (List.mem_singleton.mp member).symm
    · exact fun other member => UInt64.le_of_eq (List.mem_singleton.mp member)

theorem update_kind (call : RecordCall) (value : MetricValue) : (call.update value).kind = call.kind := by
  cases call <;> cases value <;> rfl

theorem update_summarizes {call : RecordCall} {value : MetricValue} {amounts : List UInt64}
    (kinds : value.kind = call.kind) (before : value.Summarizes amounts) :
    (call.update value).Summarizes (amounts ++ [call.amount]) := by
  have own : call.amount ∈ amounts ++ [call.amount] := by simp
  have sums : ((amounts ++ [call.amount]).map UInt64.toNat).sum =
      (amounts.map UInt64.toNat).sum + call.amount.toNat := by simp
  cases call with
  | recordCounter name delta =>
    cases value with
    | counter value =>
      have total : value.toNat = min (amounts.map UInt64.toNat).sum u64Max := before
      show (saturatingAdd64 value delta).toNat = _
      rw [saturatingAdd64_toNat, sums, total]
      show _ = min (_ + delta.toNat) _
      omega
    | gauge | duration => cases kinds
  | recordGauge name bits => exact own
  | recordDuration name nanos =>
    cases value with
    | counter | gauge => cases kinds
    | duration summary =>
      obtain ⟨count, total, ⟨least, lower⟩, ⟨greatest, upper⟩, last⟩ := before
      refine ⟨?_, ?_, ⟨?_, ?_⟩, ⟨?_, ?_⟩, own⟩
      · show (saturatingAdd64 summary.count 1).toNat = _
        rw [saturatingAdd64_toNat, count, List.length_append, List.length_singleton]
        show min (_ + 1) _ = _
        omega
      · show (saturatingAdd64 summary.sumNanos nanos).toNat = _
        rw [saturatingAdd64_toNat, sums, total]
        show _ = min (_ + nanos.toNat) _
        omega
      · show min summary.minNanos nanos ∈ _
        rcases (min64_cases summary.minNanos nanos).1 with kept | taken
        · rw [kept]
          exact List.mem_append_left _ least
        · rw [taken]
          exact own
      · intro other member
        show min summary.minNanos nanos ≤ other
        rcases List.mem_append.mp member with member | member
        · exact UInt64.le_trans (min64_cases summary.minNanos nanos).2.1 (lower other member)
        · rw [List.mem_singleton.mp member]
          exact (min64_cases summary.minNanos nanos).2.2
      · show max summary.maxNanos nanos ∈ _
        rcases (max64_cases summary.maxNanos nanos).1 with kept | taken
        · rw [kept]
          exact List.mem_append_left _ greatest
        · rw [taken]
          exact own
      · intro other member
        show other ≤ max summary.maxNanos nanos
        rcases List.mem_append.mp member with member | member
        · exact UInt64.le_trans (upper other member) (max64_cases summary.maxNanos nanos).2.1
        · rw [List.mem_singleton.mp member]
          exact (max64_cases summary.maxNanos nanos).2.2

theorem exists_of_replay {name : List Char} {calls : List RecordCall} {value : MetricValue}
    (replayed : replay name calls = some value) : ∃ call ∈ calls, call.name = name := by
  induction calls using List.reverseRecOn generalizing value with
  | nil => cases replayed
  | append_singleton calls call ih =>
    rw [replay_append] at replayed
    by_cases same : call.name = name
    · exact ⟨call, by simp, same⟩
    · rw [if_neg same] at replayed
      obtain ⟨other, member, named⟩ := ih replayed
      exact ⟨other, List.mem_append_left _ member, named⟩

theorem amounts_eq_nil {name : List Char} {calls : List RecordCall} (missing : replay name calls = none) :
    amounts name calls = [] := by
  induction calls using List.reverseRecOn with
  | nil => rfl
  | append_singleton calls call ih =>
    rw [replay_append] at missing
    by_cases same : call.name = name
    · rw [if_pos same] at missing
      cases missing
    · rw [if_neg same] at missing
      rw [amounts_append, if_neg same, List.append_nil]
      exact ih missing

theorem replay_summarizes {name : List Char} {calls : List RecordCall} {kind : MetricKind}
    (kinds : ∀ call ∈ calls, call.name = name → call.kind = kind) {value : MetricValue}
    (replayed : replay name calls = some value) : value.kind = kind ∧ value.Summarizes (amounts name calls) := by
  induction calls using List.reverseRecOn generalizing value with
  | nil => cases replayed
  | append_singleton calls call ih =>
    have earlier : ∀ other ∈ calls, other.name = name → other.kind = kind :=
      fun other member => kinds other (List.mem_append_left _ member)
    rw [replay_append] at replayed
    rw [amounts_append]
    by_cases same : call.name = name
    · rw [if_pos same, Option.some.injEq] at replayed
      have own : call.kind = kind := kinds call (by simp) same
      rw [if_pos same, ← replayed]
      cases found : replay name calls with
      | none =>
        refine ⟨(create_kind call).trans own, ?_⟩
        rw [amounts_eq_nil found]
        exact create_summarizes call
      | some held =>
        obtain ⟨heldKind, summarizes⟩ := ih earlier found
        exact ⟨(update_kind call held).trans own, update_summarizes (heldKind.trans own.symm) summarizes⟩
    · rw [if_neg same] at replayed ⊢
      rw [List.append_nil]
      exact ih earlier replayed

end RecordCall

namespace RecordThread

def recorded (thread : RecordThread) : Bool :=
  match thread.phase with
  | .entered | .rejected => false
  | .registering phase => phase.applied
  | .handling recorded _ | .returned recorded _ => recorded

def dropped (thread : RecordThread) : Bool :=
  match thread.phase with
  | .entered | .rejected => false
  | .registering phase => phase.dropped
  | .handling recorded _ | .returned recorded _ => !recorded

def inside (thread : RecordThread) : Bool :=
  match thread.phase with
  | .registering phase => phase.inside
  | .handling _ phase => phase.inside
  | .entered | .rejected | .returned .. => false

def recordedCall (thread : RecordThread) : Option RecordCall := if thread.recorded then some thread.call else none

/-- What the call knows of the map it works on, and of the metrics once it is dropped. -/
structure Knows (registry : MetricRegistry) (thread : RecordThread) : Prop where
  metric : ∀ phase, thread.phase = .registering phase →
    phase.Guarded maxMetricEntries (registry.formatKey thread.call.name) registry.metrics
  handle : ∀ recorded phase, thread.phase = .handling recorded phase →
    phase.Guarded maxMetricEntries thread.call.name registry.handles
  full : thread.dropped = true →
    maxMetricEntries ≤ registry.metrics.size ∧ registry.formatKey thread.call.name ∉ registry.metrics
  valid : thread.phase = .entered ∨ thread.phase = .rejected ∨ isValidMetricName thread.call.name = true

/-- A move of a call: local work that leaves the registry alone, or an operation of one of its registrations. -/
inductive Moved (registry : MetricRegistry) (thread : RecordThread) (after : MetricRegistry) (next : RecordThread) :
    Prop where
  | work (same : after = registry) (call : next.call = thread.call) (recorded : next.recorded = thread.recorded)
      (dropped : next.dropped = thread.dropped) (inside : next.inside = thread.inside)
      (knows : thread.Knows registry → next.Knows registry)
  | metric (phase own : Registering MetricValue) (before : thread.phase = .registering phase)
      (moved : next = { thread with phase := .registering own })
      (registered : registerMetric registry thread.call phase = some (after, own))
  | handle (recorded : Bool) (phase own : Registering MetricHandle) (before : thread.phase = .handling recorded phase)
      (moved : next = { thread with phase := .handling recorded own })
      (registered : registerHandle registry thread.call phase = some (after, own))

theorem act_moved {registry after : MetricRegistry} {thread next : RecordThread} {choice : Unit}
    (acted : thread.act registry choice = some (after, next)) : Moved registry thread after next := by
  obtain ⟨call, phase⟩ := thread
  cases phase with
  | entered =>
    simp only [act] at acted
    split at acted
    · rename_i valid
      cases acted
      refine .work rfl rfl rfl rfl rfl fun _ => ⟨?_, ?_, ?_, .inr (.inr valid)⟩
      · rintro phase ⟨⟩
        exact trivial
      · rintro recorded phase ⟨⟩
      · rintro ⟨⟩
    · cases acted
      refine .work rfl rfl rfl rfl rfl fun _ => ⟨?_, ?_, ?_, .inr (.inl rfl)⟩
      · rintro phase ⟨⟩
      · rintro recorded phase ⟨⟩
      · rintro ⟨⟩
  | rejected => cases acted
  | registering phase =>
    by_cases finished : ∃ result, phase = .done result
    · obtain ⟨result, rfl⟩ := finished
      cases acted
      refine .work rfl rfl rfl ?_ rfl fun knows => ⟨?_, ?_, ?_, ?_⟩
      · cases result <;> rfl
      · rintro phase ⟨⟩
      · rintro recorded phase ⟨⟩
        exact trivial
      · intro lost
        refine knows.full ?_
        cases result
        · rfl
        · cases lost
      · rcases knows.valid with early | early | valid
        · cases early
        · cases early
        · exact .inr (.inr valid)
    · have moved : (registerMetric registry call phase).map
          (fun moved => (moved.1, RecordThread.mk call (.registering moved.2))) = some (after, next) := by
        cases phase with
        | done result => exact absurd ⟨result, rfl⟩ finished
        | lookup | acquire | recheck | measure | insert | release => exact acted
      obtain ⟨⟨registryAfter, own⟩, registered, same⟩ := Option.map_eq_some_iff.mp moved
      cases same
      exact .metric phase own rfl rfl registered
  | handling recorded phase =>
    by_cases finished : ∃ result, phase = .done result
    · obtain ⟨result, rfl⟩ := finished
      cases acted
      refine .work rfl rfl rfl rfl rfl fun knows => ⟨?_, ?_, knows.full, ?_⟩
      · rintro phase ⟨⟩
      · rintro recorded phase ⟨⟩
      · rcases knows.valid with early | early | valid
        · cases early
        · cases early
        · exact .inr (.inr valid)
    · have moved : (registerHandle registry call phase).map
          (fun moved => (moved.1, RecordThread.mk call (.handling recorded moved.2))) = some (after, next) := by
        cases phase with
        | done result => exact absurd ⟨result, rfl⟩ finished
        | lookup | acquire | recheck | measure | insert | release => exact acted
      obtain ⟨⟨registryAfter, own⟩, registered, same⟩ := Option.map_eq_some_iff.mp moved
      cases same
      exact .handle recorded phase own rfl rfl registered
  | returned recorded emitted => cases acted

theorem recordedCall_eq {left right : RecordThread} (call : left.call = right.call)
    (recorded : left.recorded = right.recorded) : left.recordedCall = right.recordedCall := by
  rw [recordedCall, recordedCall, call, recorded]

theorem Knows.metric_moved {registry : MetricRegistry} {other : RecordThread} (knows : other.Knows registry)
    {key : List Char} {update : MetricValue → MetricValue} {create : MetricValue} {phase own : Registering MetricValue}
    {after : MetricRegistry} (kept : after.keyPrefix = registry.keyPrefix) (handles : after.handles = registry.handles)
    (effect : Registering.Effect maxMetricEntries key update create registry.metrics after.metrics phase own)
    (alone : phase.inside = true → other.inside = false) : other.Knows after := by
  have keys : after.formatKey other.call.name = registry.formatKey other.call.name := by
    rw [MetricRegistry.formatKey, MetricRegistry.formatKey, kept]
  refine ⟨?_, ?_, ?_, knows.valid⟩
  · intro otherPhase place
    rw [keys]
    refine (knows.metric otherPhase place).kept effect fun inside => ?_
    have outside := alone inside
    rwa [RecordThread.inside, place] at outside
  · intro recorded otherPhase place
    rw [handles]
    exact knows.handle recorded otherPhase place
  · intro lost
    obtain ⟨full, absent⟩ := knows.full lost
    rw [keys, effect.mem_iff full]
    exact ⟨Nat.le_trans full effect.size_le, absent⟩

theorem Knows.handle_moved {registry : MetricRegistry} {other : RecordThread} (knows : other.Knows registry)
    {key : List Char} {update : MetricHandle → MetricHandle} {create : MetricHandle}
    {phase own : Registering MetricHandle} {after : MetricRegistry} (kept : after.keyPrefix = registry.keyPrefix)
    (metrics : after.metrics = registry.metrics)
    (effect : Registering.Effect maxMetricEntries key update create registry.handles after.handles phase own)
    (alone : phase.inside = true → other.inside = false) : other.Knows after := by
  have keys : after.formatKey other.call.name = registry.formatKey other.call.name := by
    rw [MetricRegistry.formatKey, MetricRegistry.formatKey, kept]
  refine ⟨?_, ?_, ?_, knows.valid⟩
  · intro otherPhase place
    rw [keys, metrics]
    exact knows.metric otherPhase place
  · intro recorded otherPhase place
    refine (knows.handle recorded otherPhase place).kept effect fun inside => ?_
    have outside := alone inside
    rwa [RecordThread.inside, place] at outside
  · intro lost
    rw [keys, metrics]
    exact knows.full lost

end RecordThread

namespace RecordSystem

/-- The lock has one holder; the metrics are what the recorded calls make one after the other, and these are the
    calls that have updated or created a metric, each once. -/
structure Consistent (system : RecordSystem) : Prop where
  lock : Interleaved.total (fun thread => thread.inside.toNat) system.threads = system.shared.registrationLock.toNat
  knows : ∀ thread ∈ system.threads, thread.Knows system.shared
  metricsBound : system.shared.metrics.size ≤ maxMetricEntries
  handlesBound : system.shared.handles.size ≤ maxMetricEntries
  replayed : ∀ name, system.shared.metrics[system.shared.formatKey name]? =
    RecordCall.replay name system.shared.recorded
  keyed : ∀ key ∈ system.shared.metrics, ∃ name, key = system.shared.formatKey name
  once : system.shared.recorded.Perm (system.threads.filterMap RecordThread.recordedCall)

theorem Consistent.start (componentId : List Char) : Consistent (RecordSystem.start componentId) := by
  refine ⟨rfl, ?_, Nat.zero_le _, Nat.zero_le _, ?_, ?_, .nil⟩
  · exact fun thread member => absurd member List.not_mem_nil
  · exact fun name => Std.ExtTreeMap.getElem?_empty
  · exact fun key member => absurd member Std.ExtTreeMap.not_mem_empty

theorem Consistent.alone {registry : MetricRegistry} {left right : List RecordThread} {thread : RecordThread}
    (consistent : Consistent ⟨registry, left ++ thread :: right⟩) (inside : thread.inside = true) :
    ∀ other ∈ left ++ right, other.inside = false := by
  intro other member
  have whole : Interleaved.total (fun thread => thread.inside.toNat) (left ++ thread :: right) ≤ thread.inside.toNat := by
    rw [consistent.lock, inside]
    exact Bool.toNat_le _
  have none := Interleaved.others_zero _ whole other member
  cases outside : other.inside with
  | false => rfl
  | true =>
    rw [outside] at none
    cases none

theorem Consistent.held {registry : MetricRegistry} {left right : List RecordThread} {thread : RecordThread}
    (consistent : Consistent ⟨registry, left ++ thread :: right⟩) (inside : thread.inside = true) :
    registry.registrationLock = true := by
  have part := Interleaved.le_total (fun thread : RecordThread => thread.inside.toNat)
    (show thread ∈ left ++ thread :: right by simp)
  rw [consistent.lock, inside] at part
  cases lock : registry.registrationLock with
  | true => rfl
  | false =>
    rw [lock] at part
    cases part

theorem total_moved {left right : List RecordThread} {thread next : RecordThread} {before after : Bool}
    (total : Interleaved.total (fun thread => thread.inside.toNat) (left ++ thread :: right) = before.toNat)
    (lock : before.toNat + next.inside.toNat = after.toNat + thread.inside.toNat) :
    Interleaved.total (fun thread => thread.inside.toNat) (left ++ next :: right) = after.toNat := by
  rw [Interleaved.total_append, Interleaved.total_cons] at total ⊢
  omega

theorem recordedCall_moved {left right : List RecordThread} {thread next : RecordThread}
    (same : next.recordedCall = thread.recordedCall) :
    (left ++ next :: right).filterMap RecordThread.recordedCall =
      (left ++ thread :: right).filterMap RecordThread.recordedCall := by
  rw [List.filterMap_append, List.filterMap_append, List.filterMap_cons, List.filterMap_cons, same]

theorem recordedCall_joined {left right : List RecordThread} {thread next : RecordThread} {calls : List RecordCall}
    (before : calls.Perm ((left ++ thread :: right).filterMap RecordThread.recordedCall))
    (fresh : thread.recorded = false) (recorded : next.recorded = true) :
    (calls ++ [next.call]).Perm ((left ++ next :: right).filterMap RecordThread.recordedCall) := by
  have none : thread.recordedCall = none := by rw [RecordThread.recordedCall, if_neg (by rw [fresh]; decide)]
  have own : next.recordedCall = some next.call := by rw [RecordThread.recordedCall, if_pos recorded]
  rw [List.filterMap_append, List.filterMap_cons_none none] at before
  rw [List.filterMap_append, List.filterMap_cons_some own]
  exact (before.append_right [next.call]).trans
    ((List.perm_append_singleton _ _).trans List.perm_middle.symm)

theorem Consistent.work {registry : MetricRegistry} {left right : List RecordThread} {thread next : RecordThread}
    (consistent : Consistent ⟨registry, left ++ thread :: right⟩) (call : next.call = thread.call)
    (recorded : next.recorded = thread.recorded) (inside : next.inside = thread.inside)
    (knows : thread.Knows registry → next.Knows registry) : Consistent ⟨registry, left ++ next :: right⟩ := by
  refine ⟨?_, ?_, consistent.metricsBound, consistent.handlesBound, consistent.replayed, consistent.keyed, ?_⟩
  · exact total_moved consistent.lock (by rw [inside])
  · exact Interleaved.forall_moved consistent.knows (knows (consistent.knows thread (by simp)))
  · rw [recordedCall_moved (RecordThread.recordedCall_eq call recorded)]
    exact consistent.once

theorem Consistent.handle {registry after : MetricRegistry} {left right : List RecordThread} {thread : RecordThread}
    {recorded : Bool} {phase own : Registering MetricHandle}
    (consistent : Consistent ⟨registry, left ++ thread :: right⟩) (place : thread.phase = .handling recorded phase)
    (registered : RecordThread.registerHandle registry thread.call phase = some (after, own)) :
    Consistent ⟨after, left ++ { thread with phase := .handling recorded own } :: right⟩ := by
  have knows := consistent.knows thread (by simp)
  have inside : thread.inside = phase.inside := by rw [RecordThread.inside, place]
  have flag : thread.recorded = recorded := by rw [RecordThread.recorded, place]
  have lost : thread.dropped = !recorded := by rw [RecordThread.dropped, place]
  obtain ⟨⟨map, moved⟩, acted, same⟩ := Option.map_eq_some_iff.mp registered
  cases same
  have guarded := knows.handle recorded phase place
  have effect := Registering.act_effect guarded acted
  have lock := Registering.act_lock (fun entered => consistent.held (inside.trans entered)) acted
  refine ⟨?_, ?_, consistent.metricsBound, effect.size_le_capacity consistent.handlesBound, consistent.replayed,
    consistent.keyed, ?_⟩
  · exact total_moved consistent.lock (by rw [inside]; exact lock)
  · intro other member
    rw [List.mem_append, List.mem_cons] at member
    have elsewhere (found : other ∈ left ++ right) : other.Knows { registry with
        registrationLock := map.locked, handles := map.entries } := by
      have outside (entered : phase.inside = true) := consistent.alone (inside.trans entered) other found
      exact (consistent.knows other (Interleaved.mem_of_mem_others thread found)).handle_moved rfl rfl effect outside
    rcases member with member | rfl | member
    · exact elsewhere (List.mem_append_left _ member)
    · refine ⟨?_, ?_, fun dropped => knows.full (lost.trans dropped), ?_⟩
      · rintro phase ⟨⟩
      · rintro recorded phase ⟨⟩
        exact Registering.act_guarded guarded acted
      · rcases knows.valid with early | early | valid
        · rw [place] at early
          cases early
        · rw [place] at early
          cases early
        · exact .inr (.inr valid)
    · exact elsewhere (List.mem_append_right _ member)
  · have same : ({ thread with phase := .handling recorded own } : RecordThread).recordedCall = thread.recordedCall :=
      RecordThread.recordedCall_eq rfl flag.symm
    rw [recordedCall_moved same]
    exact consistent.once

theorem replayed_step {registry : MetricRegistry} {call : RecordCall} {phase own : Registering MetricValue}
    {entries : Std.ExtTreeMap (List Char) MetricValue}
    (replayed : ∀ name, registry.metrics[registry.formatKey name]? = RecordCall.replay name registry.recorded)
    (effect : Registering.Effect maxMetricEntries (registry.formatKey call.name) call.update call.create
      registry.metrics entries phase own) (name : List Char) :
    entries[registry.formatKey name]? = RecordCall.replay name
      (if !phase.applied && own.applied then registry.recorded ++ [call] else registry.recorded) := by
  have keys : compare (registry.formatKey call.name) (registry.formatKey name) = .eq ↔ call.name = name := by
    rw [Std.LawfulEqOrd.compare_eq_iff_eq, MetricRegistry.formatKey, MetricRegistry.formatKey, List.append_cancel_left_eq]
  cases effect with
  | silent same applied =>
    rw [applied, Bool.not_and_self, if_neg Bool.false_ne_true, same]
    exact replayed name
  | drop same absent full applied =>
    rw [applied, Bool.not_and_self, if_neg Bool.false_ne_true, same]
    exact replayed name
  | update value found stored fresh applied =>
    rw [fresh, applied, Bool.not_false, Bool.and_self, if_pos rfl, stored, Std.ExtTreeMap.getElem?_insert,
      RecordCall.replay_append]
    by_cases same : call.name = name
    · rw [if_pos (keys.mpr same), if_pos same, ← same, ← replayed, found]
      rfl
    · rw [if_neg fun equal => same (keys.mp equal), if_neg same]
      exact replayed name
  | create absent room stored inside fresh applied =>
    rw [fresh, applied, Bool.not_false, Bool.and_self, if_pos rfl, stored, Std.ExtTreeMap.getElem?_insert,
      RecordCall.replay_append]
    by_cases same : call.name = name
    · have missing : registry.metrics[registry.formatKey call.name]? = none :=
        Std.ExtTreeMap.getElem?_eq_none absent
      rw [if_pos (keys.mpr same), if_pos same, ← same, ← replayed, missing]
      rfl
    · rw [if_neg fun equal => same (keys.mp equal), if_neg same]
      exact replayed name

theorem full_after {registry : MetricRegistry} {thread : RecordThread} {call : RecordCall}
    {phase own : Registering MetricValue} {entries : Std.ExtTreeMap (List Char) MetricValue}
    (before : thread.dropped = true →
      maxMetricEntries ≤ registry.metrics.size ∧ registry.formatKey call.name ∉ registry.metrics)
    (lost : thread.dropped = phase.dropped)
    (effect : Registering.Effect maxMetricEntries (registry.formatKey call.name) call.update call.create
      registry.metrics entries phase own) (dropped : own.dropped = true) :
    maxMetricEntries ≤ entries.size ∧ registry.formatKey call.name ∉ entries := by
  cases effect with
  | silent same applied kept =>
    rw [same]
    exact before (lost.trans (kept.symm.trans dropped))
  | drop same absent full =>
    rw [same]
    exact ⟨full, absent⟩
  | update value found stored fresh applied kept =>
    rw [kept] at dropped
    cases dropped
  | create absent room stored inside fresh applied kept =>
    rw [kept] at dropped
    cases dropped

theorem Consistent.metric {registry after : MetricRegistry} {left right : List RecordThread} {thread : RecordThread}
    {phase own : Registering MetricValue} (consistent : Consistent ⟨registry, left ++ thread :: right⟩)
    (place : thread.phase = .registering phase)
    (registered : RecordThread.registerMetric registry thread.call phase = some (after, own)) :
    Consistent ⟨after, left ++ { thread with phase := .registering own } :: right⟩ := by
  have knows := consistent.knows thread (by simp)
  have inside : thread.inside = phase.inside := by rw [RecordThread.inside, place]
  have flag : thread.recorded = phase.applied := by rw [RecordThread.recorded, place]
  have lost : thread.dropped = phase.dropped := by rw [RecordThread.dropped, place]
  obtain ⟨⟨map, moved⟩, acted, same⟩ := Option.map_eq_some_iff.mp registered
  cases same
  have guarded := knows.metric phase place
  have guardedAfter := Registering.act_guarded guarded acted
  have effect := Registering.act_effect guarded acted
  have fullAfter := full_after knows.full lost effect
  have lock := Registering.act_lock (fun entered => consistent.held (inside.trans entered)) acted
  refine ⟨?_, ?_, effect.size_le_capacity consistent.metricsBound, consistent.handlesBound,
    replayed_step consistent.replayed effect, ?_, ?_⟩
  · exact total_moved consistent.lock (by rw [inside]; exact lock)
  · intro other member
    rw [List.mem_append, List.mem_cons] at member
    have elsewhere (found : other ∈ left ++ right) : other.Knows { registry with
        registrationLock := map.locked
        metrics := map.entries
        recorded := if !phase.applied && own.applied then registry.recorded ++ [thread.call] else registry.recorded } := by
      have outside (entered : phase.inside = true) := consistent.alone (inside.trans entered) other found
      exact (consistent.knows other (Interleaved.mem_of_mem_others thread found)).metric_moved rfl rfl effect outside
    rcases member with member | rfl | member
    · exact elsewhere (List.mem_append_left _ member)
    · refine ⟨?_, ?_, ?_, ?_⟩
      · rintro phase ⟨⟩
        exact guardedAfter
      · rintro recorded phase ⟨⟩
      · exact fullAfter
      · rcases knows.valid with early | early | valid
        · rw [place] at early
          cases early
        · rw [place] at early
          cases early
        · exact .inr (.inr valid)
    · exact elsewhere (List.mem_append_right _ member)
  · intro key member
    rcases effect.mem_cases member with old | new
    · exact consistent.keyed key old
    · exact ⟨thread.call.name, new⟩
  · have once := consistent.once
    by_cases joins : (!phase.applied && own.applied) = true
    · rw [if_pos joins]
      rw [Bool.and_eq_true, Bool.not_eq_true'] at joins
      have recorded : ({ thread with phase := .registering own } : RecordThread).recorded = true := joins.2
      exact recordedCall_joined once (flag.trans joins.1) recorded
    · rw [if_neg joins]
      have same : ({ thread with phase := .registering own } : RecordThread).recordedCall = thread.recordedCall := by
        refine RecordThread.recordedCall_eq rfl (Eq.trans ?_ flag.symm)
        exact effect.applied_eq joins
      rw [recordedCall_moved same]
      exact once

theorem Consistent.step {before after : RecordSystem} {turn : Turn RecordThread Unit} (consistent : Consistent before)
    (stepped : RecordSystem.step before turn = some after) : Consistent after := by
  obtain ⟨registry, threads⟩ := before
  rcases Interleaved.step_cases stepped with ⟨thread, rfl, fresh, rfl⟩ |
    ⟨left, thread, right, choice, shared, next, rfl, split, acted, rfl⟩
  · obtain ⟨call, phase⟩ := thread
    have entered : phase = .entered := beq_iff_eq.mp fresh
    subst entered
    refine ⟨?_, ?_, consistent.metricsBound, consistent.handlesBound, consistent.replayed, consistent.keyed, ?_⟩
    · rw [Interleaved.total_append, consistent.lock]
      rfl
    · intro thread member
      rcases List.mem_append.mp member with member | member
      · exact consistent.knows thread member
      · cases List.mem_singleton.mp member
        refine ⟨?_, ?_, ?_, .inl rfl⟩
        · rintro phase ⟨⟩
        · rintro recorded phase ⟨⟩
        · rintro ⟨⟩
    · rw [List.filterMap_append]
      simpa [RecordThread.recordedCall, RecordThread.recorded] using consistent.once
  · cases split
    cases RecordThread.act_moved acted with
    | work same call recorded dropped inside knows =>
      cases same
      exact consistent.work call recorded inside knows
    | metric phase own place moved registered =>
      cases moved
      exact consistent.metric place registered
    | handle recorded phase own place moved registered =>
      cases moved
      exact consistent.handle place registered

theorem Consistent.of_run {componentId : List Char} {system : RecordSystem}
    (run : Run RecordSystem.step (fun _ _ => True) (RecordSystem.start componentId) system) : Consistent system :=
  run.invariant Consistent (.start componentId) fun _ _ _ consistent _ stepped => consistent.step stepped

/-- Each valid name is used with one kind of metric only. -/
def OneKind (system : RecordSystem) : Prop :=
  ∀ left ∈ system.threads, ∀ right ∈ system.threads, isValidMetricName left.call.name = true →
    left.call.name = right.call.name → left.call.kind = right.call.kind

def recordedAmounts (system : RecordSystem) (name : List Char) : List UInt64 :=
  RecordCall.amounts name (system.threads.filterMap RecordThread.recordedCall)

theorem Consistent.recorded_thread {system : RecordSystem} (consistent : Consistent system) {call : RecordCall}
    (recorded : call ∈ system.shared.recorded) :
    ∃ thread ∈ system.threads, thread.call = call ∧ isValidMetricName call.name = true := by
  obtain ⟨thread, member, own⟩ := List.mem_filterMap.mp (consistent.once.mem_iff.mp recorded)
  rw [RecordThread.recordedCall, Option.ite_none_right_eq_some, Option.some.injEq] at own
  obtain ⟨applied, rfl⟩ := own
  refine ⟨thread, member, rfl, ?_⟩
  rcases (consistent.knows thread member).valid with early | early | valid
  · rw [RecordThread.recorded, early] at applied
    cases applied
  · rw [RecordThread.recorded, early] at applied
    cases applied
  · exact valid

theorem Consistent.summarizes {system : RecordSystem} (consistent : Consistent system) (oneKind : OneKind system)
    {name : List Char} {value : MetricValue}
    (found : system.shared.metrics[system.shared.formatKey name]? = some value) :
    value.Summarizes (system.recordedAmounts name) ∧
      ∀ thread ∈ system.threads, thread.call.name = name → thread.call.kind = value.kind := by
  have replayed := (consistent.replayed name).symm.trans found
  obtain ⟨first, member, own⟩ := RecordCall.exists_of_replay replayed
  obtain ⟨author, place, same, valid⟩ := consistent.recorded_thread member
  have kinds : ∀ call ∈ system.shared.recorded, call.name = name → call.kind = first.kind := by
    intro call recorded named
    obtain ⟨other, otherPlace, otherSame, -⟩ := consistent.recorded_thread recorded
    have agree := oneKind author place other otherPlace (by rw [same]; exact valid)
      (by rw [same, otherSame, own, named])
    rw [← same, ← otherSame]
    exact agree.symm
  obtain ⟨kind, summarizes⟩ := RecordCall.replay_summarizes kinds replayed
  refine ⟨summarizes.perm ((consistent.once.filter _).map _), ?_⟩
  intro thread threadPlace named
  rw [kind, ← same]
  exact (oneKind author place thread threadPlace (by rw [same]; exact valid) (by rw [same, own, named])).symm

end RecordSystem

end OtelDatalake.Wasm
