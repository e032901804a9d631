import OtelDatalake.Buffer.RetryIdentity
import OtelDatalake.Kafka.Sink

open Std OtelDatalake.Foundation OtelDatalake.Core OtelDatalake.Buffer

namespace OtelDatalake.Kafka

/-- What becomes of a record that `send_result` is called with, and `send` after it where the queue is full. -/
def ProducerAnswer.fate (answer : ProducerAnswer) : DeliveryResult :=
  match answer.sendResult with
  | .ok deliveryFut => deliveryFut
  | .error error =>
    if KafkaSink.isQueueFull error then
      match answer.send with
      | none => .cancelled
      | some (.ok ()) => .delivered
      | some (.error error) => .failed error
    else .failed error

/-- The record waits for its delivery inside `send`, and the delivery is cancelled there. -/
def ProducerAnswer.panics (answer : ProducerAnswer) : Bool :=
  match answer.sendResult with
  | .ok _ => false
  | .error error => KafkaSink.isQueueFull error && answer.send.isNone

section Fate

variable (answer : ProducerAnswer) {error : KafkaError}

theorem ProducerAnswer.fate_accepted {deliveryFut : DeliveryResult} (accepted : answer.sendResult = .ok deliveryFut) :
    answer.fate = deliveryFut := by
  simp only [fate, accepted]

theorem ProducerAnswer.fate_queueFull (refused : answer.sendResult = .error error)
    (full : KafkaSink.isQueueFull error = true) :
    answer.fate = match answer.send with
      | none => .cancelled
      | some (.ok ()) => .delivered
      | some (.error error) => .failed error := by
  simp only [fate, refused, full, if_true]

theorem ProducerAnswer.fate_refused (refused : answer.sendResult = .error error)
    (other : ¬KafkaSink.isQueueFull error = true) : answer.fate = .failed error := by
  simp only [fate, refused, if_neg other]

theorem ProducerAnswer.panics_refused (refused : answer.sendResult = .error error) :
    answer.panics = (KafkaSink.isQueueFull error && answer.send.isNone) := by
  simp only [panics, refused]

end Fate

/-- `send` enqueues a record as `send_result` does, goes on while the queue is full, and returns the result of the
    delivery; it has none to return for a delivery that is cancelled. -/
def ProducerAnswer.SendsAlike (answer : ProducerAnswer) : Prop :=
  answer.send = match answer.fate with
    | .delivered => some (.ok ())
    | .failed error => some (.error error)
    | .cancelled => none

def DeliveryResult.failureClass? : DeliveryResult → Option FailureClass
  | .failed error => some (classifyKafkaError error)
  | _ => none

def Worst (failures : List FailureClass) : Option FailureClass → Prop
  | none => failures = []
  | some worst => worst ∈ failures ∧ ∀ other ∈ failures, failureSeverity other ≤ failureSeverity worst

theorem Worst.merge {failures : List FailureClass} {current : Option FailureClass} (worst : Worst failures current)
    (next : FailureClass) : Worst (failures ++ [next]) (some (mergeFailureClass current next)) := by
  cases current with
  | none =>
    cases worst
    simp [Worst, mergeFailureClass]
  | some existing =>
    obtain ⟨listed, highest⟩ := worst
    simp only [mergeFailureClass]
    split
    · rename_i kept
      refine ⟨List.mem_append_left _ listed, fun other member => ?_⟩
      rcases List.mem_append.mp member with earlier | last
      · exact highest other earlier
      · rw [List.mem_singleton.mp last]
        exact kept
    · rename_i replaced
      refine ⟨List.mem_append_right _ (List.mem_singleton_self _), fun other member => ?_⟩
      rcases List.mem_append.mp member with earlier | last
      · have bound := highest other earlier
        omega
      · rw [List.mem_singleton.mp last]

theorem Worst.congr {failures others : List FailureClass} {current : Option FailureClass}
    (worst : Worst failures current) (same : ∀ failure, failure ∈ failures ↔ failure ∈ others) :
    Worst others current := by
  cases current with
  | none =>
    cases worst
    exact List.eq_nil_iff_forall_not_mem.mpr fun failure member => List.not_mem_nil ((same failure).mpr member)
  | some existing =>
    exact ⟨(same existing).mp worst.1, fun other member => worst.2 other ((same other).mpr member)⟩

namespace KafkaSink

/-- The failures that are merged so far and those that the delivery futures bring are the failures of `fates`. -/
structure SendProgress.Tracks (progress : SendProgress) (fates : List DeliveryResult) : Prop where
  failures : ∃ merged, Worst merged progress.failure ∧ ∀ failure,
    failure ∈ fates.filterMap (·.failureClass?) ↔
      failure ∈ merged ++ progress.deliveryFuts.filterMap (·.failureClass?)
  cancelled : .cancelled ∈ fates ↔ .cancelled ∈ progress.deliveryFuts

variable {progress next : SendProgress} {earlier : List DeliveryResult} {answer : ProducerAnswer}
    {stop : Stop PipelineError}

theorem SendProgress.Tracks.enqueued (tracks : progress.Tracks earlier) (deliveryFut : DeliveryResult) :
    { progress with deliveryFuts := progress.deliveryFuts ++ [deliveryFut] }.Tracks (earlier ++ [deliveryFut]) := by
  obtain ⟨⟨merged, worst, same⟩, cancelled⟩ := tracks
  refine ⟨⟨merged, worst, fun failure => ?_⟩, ?_⟩
  · rw [List.filterMap_append, List.filterMap_append, ← List.append_assoc, List.mem_append, List.mem_append, same]
  · rw [List.mem_append, List.mem_append, cancelled]

theorem SendProgress.Tracks.failed (tracks : progress.Tracks earlier) (error : KafkaError) :
    (progress.fail error).Tracks (earlier ++ [.failed error]) := by
  obtain ⟨⟨merged, worst, same⟩, cancelled⟩ := tracks
  refine ⟨⟨merged ++ [classifyKafkaError error], worst.merge _, fun failure => ?_⟩, ?_⟩
  · have listed := same failure
    simp only [List.filterMap_append, List.mem_append] at listed ⊢
    rw [listed]
    simp only [DeliveryResult.failureClass?, fail, List.filterMap_cons, List.filterMap_nil]
    exact or_right_comm
  · simp only [List.mem_append, List.mem_singleton, reduceCtorEq, or_false, fail]
    exact cancelled

theorem SendProgress.Tracks.delivered (tracks : progress.Tracks earlier) : progress.Tracks (earlier ++ [.delivered]) := by
  obtain ⟨⟨merged, worst, same⟩, cancelled⟩ := tracks
  refine ⟨⟨merged, worst, fun failure => ?_⟩, ?_⟩
  · rw [List.filterMap_append, ← same]
    simp [DeliveryResult.failureClass?]
  · simpa using cancelled

theorem enqueueSlice_tracks (tracks : progress.Tracks earlier)
    (enqueued : enqueueSlice answer progress = .ok next) : next.Tracks (earlier ++ [answer.fate]) := by
  unfold enqueueSlice at enqueued
  cases accepted : answer.sendResult with
  | ok deliveryFut =>
    rw [accepted] at enqueued
    cases enqueued
    rw [answer.fate_accepted accepted]
    exact tracks.enqueued deliveryFut
  | error error =>
    simp only [accepted] at enqueued
    split at enqueued
    · rename_i full
      split at enqueued
      · cases enqueued
      · rename_i sent
        cases enqueued
        rw [answer.fate_queueFull accepted full, sent]
        exact tracks.delivered
      · rename_i later sent
        cases enqueued
        rw [answer.fate_queueFull accepted full, sent]
        exact tracks.failed later
    · rename_i other
      cases enqueued
      rw [answer.fate_refused accepted other]
      exact tracks.failed error

theorem enqueueSlice_stopped (stopped : enqueueSlice answer progress = .error stop) :
    answer.fate = .cancelled ∧ answer.panics = true ∧ stop = .unwound := by
  unfold enqueueSlice at stopped
  cases accepted : answer.sendResult with
  | ok deliveryFut =>
    rw [accepted] at stopped
    cases stopped
  | error error =>
    simp only [accepted] at stopped
    split at stopped
    · rename_i full
      split at stopped
      · rename_i sent
        cases stopped
        refine ⟨?_, ?_, rfl⟩
        · rw [answer.fate_queueFull accepted full, sent]
        · rw [answer.panics_refused accepted, full, sent]
          rfl
      · cases stopped
      · cases stopped
    · cases stopped

theorem enqueueSlice_answered (enqueued : enqueueSlice answer progress = .ok next) : answer.panics = false := by
  unfold enqueueSlice at enqueued
  cases accepted : answer.sendResult with
  | ok deliveryFut => simp only [ProducerAnswer.panics, accepted]
  | error error =>
    simp only [accepted] at enqueued
    split at enqueued
    · split at enqueued
      · cases enqueued
      · rename_i sent
        rw [answer.panics_refused accepted, sent, Option.isNone_some, Bool.and_false]
      · rename_i sent
        rw [answer.panics_refused accepted, sent, Option.isNone_some, Bool.and_false]
    · rename_i other
      rw [answer.panics_refused accepted, Bool.eq_false_iff.mpr other, Bool.false_and]

def answers (sink : KafkaSink) (producer : FutureProducer) (position : Nat) : List PreparedSlice → List ProducerAnswer
  | [] => []
  | slice :: rest => producer position (sink.record slice) :: answers sink producer (position + 1) rest

def fates (sink : KafkaSink) (producer : FutureProducer) (position : Nat) (slices : List PreparedSlice) :
    List DeliveryResult :=
  (sink.answers producer position slices).map (·.fate)

theorem enqueueSlices_tracks (sink : KafkaSink) (producer : FutureProducer) (slices : List PreparedSlice)
    (position : Nat) (tracks : progress.Tracks earlier) :
    match sink.enqueueSlices producer position slices progress with
    | .ok next => next.Tracks (earlier ++ sink.fates producer position slices)
    | .error _ => .cancelled ∈ sink.fates producer position slices := by
  induction slices generalizing position progress earlier with
  | nil =>
    simp only [enqueueSlices, KafkaSink.fates, answers, List.map_nil, List.append_nil]
    exact tracks
  | cons slice rest ih =>
    simp only [enqueueSlices, KafkaSink.fates, answers, List.map_cons]
    cases enqueued : enqueueSlice (producer position (sink.record slice)) progress with
    | error stop =>
      rw [(enqueueSlice_stopped enqueued).1]
      exact List.mem_cons_self
    | ok middle =>
      have later := ih (position + 1) (enqueueSlice_tracks tracks enqueued)
      simp only
      cases finished : sink.enqueueSlices producer (position + 1) rest middle with
      | error stop =>
        rw [finished] at later
        exact List.mem_cons_of_mem _ later
      | ok last =>
        rw [finished] at later
        rw [List.append_assoc] at later
        exact later

theorem enqueueSlices_panics (sink : KafkaSink) (producer : FutureProducer) (slices : List PreparedSlice)
    (position : Nat) (progress : SendProgress) :
    match sink.enqueueSlices producer position slices progress with
    | .ok _ => (sink.answers producer position slices).any (·.panics) = false
    | .error stop => (sink.answers producer position slices).any (·.panics) = true ∧ stop = .unwound := by
  induction slices generalizing position progress with
  | nil => rfl
  | cons slice rest ih =>
    simp only [enqueueSlices, answers, List.any_cons]
    cases enqueued : enqueueSlice (producer position (sink.record slice)) progress with
    | error stop =>
      obtain ⟨_, panics, unwound⟩ := enqueueSlice_stopped enqueued
      rw [panics, Bool.true_or]
      exact ⟨rfl, unwound⟩
    | ok middle =>
      rw [enqueueSlice_answered enqueued, Bool.false_or]
      exact ih (position + 1) middle

theorem awaitDeliveries_worst {merged : List FailureClass} {failure : Option FailureClass}
    (deliveries : List DeliveryResult) (worst : Worst merged failure) :
    match awaitDeliveries deliveries failure with
    | .ok result => .cancelled ∉ deliveries ∧ Worst (merged ++ deliveries.filterMap (·.failureClass?)) result
    | .error stop => .cancelled ∈ deliveries ∧ stop = .returned deliveryCancelled := by
  induction deliveries generalizing merged failure with
  | nil =>
    simp only [awaitDeliveries, List.filterMap_nil, List.append_nil]
    exact ⟨List.not_mem_nil, worst⟩
  | cons first rest ih =>
    cases first with
    | delivered => simpa [awaitDeliveries, DeliveryResult.failureClass?] using ih worst
    | cancelled => simp [awaitDeliveries]
    | failed error =>
      have later := ih (worst.merge (classifyKafkaError error))
      simpa [awaitDeliveries, DeliveryResult.failureClass?] using later

theorem sendSlices_spec (sink : KafkaSink) (producer : FutureProducer) (slices : List PreparedSlice) :
    match sink.sendSlices producer slices with
    | .ok result => .cancelled ∉ sink.fates producer 0 slices ∧
        Worst ((sink.fates producer 0 slices).filterMap (·.failureClass?)) result
    | .error _ => .cancelled ∈ sink.fates producer 0 slices := by
  have start : ({} : SendProgress).Tracks [] := ⟨⟨[], rfl, by simp⟩, Iff.rfl⟩
  have tracked := enqueueSlices_tracks sink producer slices 0 start
  unfold sendSlices
  cases enqueued : sink.enqueueSlices producer 0 slices {} with
  | error stop =>
    rw [enqueued] at tracked
    exact tracked
  | ok progress =>
    rw [enqueued, List.nil_append] at tracked
    obtain ⟨⟨merged, worst, same⟩, cancelled⟩ := tracked
    have awaited := awaitDeliveries_worst progress.deliveryFuts worst
    simp only
    cases finished : awaitDeliveries progress.deliveryFuts progress.failure with
    | error stop =>
      rw [finished] at awaited
      exact cancelled.mpr awaited.1
    | ok result =>
      rw [finished] at awaited
      exact ⟨fun member => awaited.1 (cancelled.mp member), awaited.2.congr fun failure => (same failure).symm⟩

def endOf : Except (Stop PipelineError) (Option FailureClass) → LeaseEnd
  | .error _ => .dropped
  | .ok (some failure) => .nacked failure
  | .ok none => .acked

theorem conclude_fst (visit : LeaseVisit) (sent : Except (Stop PipelineError) (Option FailureClass)) :
    (visit.conclude sent).1 = endOf sent := by
  rcases sent with stop | failure | failure <;> rfl

theorem sendSlices_single (sink : KafkaSink) (producer : FutureProducer) (slice : PreparedSlice) :
    endOf (sink.sendSlices producer [slice]) =
      match (producer 0 (sink.record slice)).fate with
      | .delivered => .acked
      | .failed error => .nacked (classifyKafkaError error)
      | .cancelled => .dropped := by
  simp only [sendSlices, enqueueSlices, enqueueSlice, ProducerAnswer.fate]
  cases accepted : (producer 0 (sink.record slice)).sendResult with
  | ok deliveryFut => cases deliveryFut <;> rfl
  | error error =>
    by_cases full : isQueueFull error = true
    · simp only [full, if_true]
      cases sent : (producer 0 (sink.record slice)).send with
      | none => rfl
      | some result => cases result <;> rfl
    · simp only [full]
      rfl

/-- The path for one slice ends the lease as the path for any number of slices would. -/
theorem sendPreparedSlices_end (sink : KafkaSink) {producer : FutureProducer}
    (alike : ∀ position record, (producer position record).SendsAlike) (slices : List PreparedSlice) :
    endOf (sink.sendPreparedSlices producer slices) = endOf (sink.sendSlices producer slices) := by
  unfold sendPreparedSlices
  split
  · rename_i slice
    rw [sendSlices_single, alike 0 (sink.record slice)]
    cases (producer 0 (sink.record slice)).fate <;> rfl
  · rfl

/-- How `send_prepared_slices` ends where a delivery is cancelled: `send`, which the path for one slice calls, and the
    path for any number of slices where the queue is full, panics; the loop over the delivery futures returns. -/
def stopOf (sink : KafkaSink) (producer : FutureProducer) (slices : List PreparedSlice) : Stop PipelineError :=
  if slices.length = 1 ∨ (sink.answers producer 0 slices).any (·.panics) = true then .unwound
  else .returned deliveryCancelled

theorem sendSlices_stopped {sink : KafkaSink} {producer : FutureProducer} {slices : List PreparedSlice}
    {stop : Stop PipelineError}
    (stopped : sink.sendSlices producer slices = .error stop) :
    stop = if (sink.answers producer 0 slices).any (·.panics) = true then .unwound else .returned deliveryCancelled := by
  have panics := enqueueSlices_panics sink producer slices 0 {}
  unfold sendSlices at stopped
  cases enqueued : sink.enqueueSlices producer 0 slices {} with
  | error first =>
    rw [enqueued] at stopped panics
    cases stopped
    rw [if_pos panics.1, panics.2]
  | ok progress =>
    rw [enqueued] at stopped panics
    have merged : Worst progress.failure.toList progress.failure := by
      cases progress.failure <;> simp [Worst]
    have awaited := awaitDeliveries_worst progress.deliveryFuts merged
    have stopped : awaitDeliveries progress.deliveryFuts progress.failure = .error stop := stopped
    rw [stopped] at awaited
    rw [if_neg (Bool.eq_false_iff.mp panics), awaited.2]

theorem sendPreparedSlices_stopped {sink : KafkaSink} {producer : FutureProducer} {slices : List PreparedSlice}
    {stop : Stop PipelineError} (stopped : sink.sendPreparedSlices producer slices = .error stop) :
    stop = sink.stopOf producer slices := by
  unfold sendPreparedSlices at stopped
  split at stopped
  · rename_i slice
    rw [stopOf, if_pos (.inl rfl)]
    split at stopped
    · cases stopped
      rfl
    · cases stopped
    · cases stopped
  · rename_i several
    have many : slices.length ≠ 1 := by
      intro one
      obtain ⟨slice, rfl⟩ := List.length_eq_one_iff.mp one
      exact several slice rfl
    rw [stopOf, sendSlices_stopped stopped]
    simp only [many, false_or]

/-- Where no delivery is cancelled, the path for one slice returns what the path for any number of slices would. -/
theorem sendPreparedSlices_eq (sink : KafkaSink) {producer : FutureProducer}
    (alike : ∀ position record, (producer position record).SendsAlike) {slices : List PreparedSlice}
    (uncancelled : .cancelled ∉ sink.fates producer 0 slices) :
    sink.sendPreparedSlices producer slices = sink.sendSlices producer slices := by
  have same := sendPreparedSlices_end sink alike slices
  have general := sendSlices_spec sink producer slices
  cases sent : sink.sendSlices producer slices with
  | error stop =>
    rw [sent] at general
    exact absurd general uncancelled
  | ok result =>
    rw [sent] at same
    cases prepared : sink.sendPreparedSlices producer slices with
    | error stop =>
      rw [prepared] at same
      cases result <;> cases same
    | ok found =>
      rw [prepared] at same
      cases result <;> cases found <;> cases same <;> rfl

structure Judged (sink : KafkaSink) (visit : LeaseVisit) (slices : List PreparedSlice) (ending : LeaseEnd) :
    Prop where
  acked : ending = .acked ↔ ∀ fate ∈ sink.fates visit.producer 0 slices, fate = .delivered
  nacked : .cancelled ∉ sink.fates visit.producer 0 slices →
    (∃ error, .failed error ∈ sink.fates visit.producer 0 slices) →
      ∃ failure, ending = .nacked failure ∧
        Worst ((sink.fates visit.producer 0 slices).filterMap (·.failureClass?)) (some failure)
  cancelled : .cancelled ∈ sink.fates visit.producer 0 slices → ending = .dropped
  alike : ending = endOf (sink.sendSlices visit.producer slices)

theorem mem_failures {fates : List DeliveryResult} {failure : FailureClass} :
    failure ∈ fates.filterMap (·.failureClass?) ↔ ∃ error, .failed error ∈ fates ∧ classifyKafkaError error = failure := by
  rw [List.mem_filterMap]
  constructor
  · rintro ⟨fate, member, classified⟩
    cases fate with
    | failed error => exact ⟨error, member, Option.some.inj classified⟩
    | delivered => cases classified
    | cancelled => cases classified
  · rintro ⟨error, member, classified⟩
    exact ⟨.failed error, member, congrArg some classified⟩

theorem judged_endOf (sink : KafkaSink) (visit : LeaseVisit) (slices : List PreparedSlice) :
    Judged sink visit slices (endOf (sink.sendSlices visit.producer slices)) := by
  have spec := sendSlices_spec sink visit.producer slices
  cases sent : sink.sendSlices visit.producer slices with
  | error stop =>
    rw [sent] at spec
    refine ⟨⟨fun same => (nomatch same), fun all => ?_⟩, fun none => absurd spec none, fun _ => rfl, by rw [sent]⟩
    exact nomatch all _ spec
  | ok result =>
    rw [sent] at spec
    obtain ⟨uncancelled, worst⟩ := spec
    cases result with
    | none =>
      have unfailed : ∀ error, .failed error ∉ sink.fates visit.producer 0 slices := by
        intro error member
        have listed := mem_failures.mpr ⟨error, member, rfl⟩
        rw [show (sink.fates visit.producer 0 slices).filterMap (·.failureClass?) = [] from worst] at listed
        exact List.not_mem_nil listed
      refine ⟨⟨fun _ fate member => ?_, fun _ => rfl⟩, fun _ some => ?_, fun some => absurd some uncancelled, by rw [sent]⟩
      · cases fate with
        | delivered => rfl
        | failed error => exact absurd member (unfailed error)
        | cancelled => exact absurd member uncancelled
      · obtain ⟨error, member⟩ := some
        exact absurd member (unfailed error)
    | some failure =>
      refine ⟨⟨fun same => (nomatch same), fun all => ?_⟩, fun _ _ => ⟨failure, rfl, worst⟩,
        fun some => absurd some uncancelled, by rw [sent]⟩
      obtain ⟨error, member, _⟩ := mem_failures.mp worst.1
      exact nomatch all _ member

structure Handled (sink : KafkaSink) (visit : LeaseVisit) (slices : List PreparedSlice)
    (handled : LeaseEnd × Except (Stop PipelineError) Unit) : Prop extends Judged sink visit slices handled.1 where
  stopped : handled.1 = .dropped → handled.2 = .error (sink.stopOf visit.producer slices)

theorem visitLease_handled (sink : KafkaSink) {visit : LeaseVisit} {slices : List PreparedSlice}
    (alike : ∀ position record, (visit.producer position record).SendsAlike) (rows : visit.numRows ≠ 0)
    (prepared : visit.prepared = .ok slices) : Handled sink visit slices (sink.visitLease visit) := by
  have concluded : sink.visitLease visit = visit.conclude (sink.sendPreparedSlices visit.producer slices) := by
    simp only [visitLease, if_neg rows, prepared]
    cases slices <;> rfl
  have ending : (sink.visitLease visit).1 = endOf (sink.sendSlices visit.producer slices) := by
    rw [concluded, conclude_fst, sendPreparedSlices_end sink alike]
  refine ⟨ending ▸ judged_endOf sink visit slices, fun dropped => ?_⟩
  rw [concluded] at dropped ⊢
  cases sent : sink.sendPreparedSlices visit.producer slices with
  | error stop => exact congrArg Except.error (sendPreparedSlices_stopped sent)
  | ok failure =>
    rw [sent] at dropped
    cases failure <;> cases dropped

theorem run_visits (sink : KafkaSink) (closing : Except PipelineError Unit) (visits : List LeaseVisit) {position : Nat}
    {ending : LeaseEnd} (ended : (sink.run closing visits).1[position]? = some ending) :
    ∃ visit, visits[position]? = some visit ∧ (sink.visitLease visit).1 = ending ∧
      ∀ stop, (sink.visitLease visit).2 = .error stop → (sink.run closing visits).2 = .error stop := by
  induction visits generalizing position with
  | nil => simp [run] at ended
  | cons first rest ih =>
    simp only [run] at ended ⊢
    cases visited : sink.visitLease first with
    | mk reached result =>
      cases result with
      | error stop =>
        rw [visited] at ended
        cases position with
        | zero => exact ⟨first, rfl, by rw [visited]; exact Option.some.inj ended, by simp [visited]⟩
        | succ position => simp at ended
      | ok done =>
        rw [visited] at ended
        cases position with
        | zero => exact ⟨first, rfl, by rw [visited]; exact Option.some.inj ended, by simp [visited]⟩
        | succ position => exact ih (by simpa using ended)

end KafkaSink

def KafkaSink.LeaseEnd.ringAction {Batch : Type} [Buffer.RecordBatch Batch] (ending : KafkaSink.LeaseEnd)
    (lease : Lease Batch)
    (now : Instant) (nowMs : Nat) (deadLetter persisted : Except String Unit) : RingAction Batch :=
  match ending with
  | .acked => .ack lease.id.firstSeq persisted
  | .nacked failure => .nack lease.id.firstSeq failure now nowMs deadLetter persisted
  | .dropped => .dropLease lease.id.firstSeq now nowMs

theorem dropped_requeues {Batch : Type} [Buffer.RecordBatch Batch] {inner : BufferInner} {signal : SignalKind}
    {origin : SignalRing Batch} {world next : RingWorld Batch} {lease : Lease Batch}
    {others : List (Held (Lease Batch))} {now : Instant} {nowMs : Nat} {deadLetter persisted : Except String Unit}
    (sound : RingWorld.Sound inner.config origin world)
    (taken : world.takeLease lease.id.firstSeq = some (lease, others))
    (owned : lease.ownsSlot world.state.ring = true)
    (stepped : RingWorld.step inner signal world
      (KafkaSink.LeaseEnd.dropped.ringAction lease now nowMs deadLetter persisted) = some next) :
    ∀ item ∈ lease.leased, next.state.ring.slots[item.seqId]? = some .queued := by
  intro item listed
  obtain ⟨_, advance⟩ := sound.step stepped
  have represented := (advance.sound sound).represented
  refine (represented.queued item.seqId).mpr ?_
  have dropped : (lease.drop world.state now nowMs).ring.queue = next.state.ring.queue := by
    simp only [KafkaSink.LeaseEnd.ringAction, RingWorld.step, taken, Option.map_some, Option.some.injEq] at stepped
    rw [← stepped]
  have same := SameBatches.stamped lease.leased now
  rw [← dropped]
  rcases sound.putBack_queue taken same (Eq.refl (Lease.markTransient world.state nowMs).ring) lease.nextAttempt none
    with requeued | ⟨_, gone⟩
  · have paired := (sound.taken taken).1.paired
    have entry : item.seqId ∈ (lease.putBack (lease.leased.map (Lease.stampFailure now)) lease.nextAttempt none).map
        (·.seqId) := by
      rw [Lease.putBack_map (paired.trans same.length.symm) _ _ (·.seqId) (·.seqId) fun _ => rfl, same.seqIds]
      exact List.mem_map.mpr ⟨item, listed, rfl⟩
    obtain ⟨queued, member, number⟩ := List.mem_map.mp entry
    exact List.mem_map.mpr ⟨queued, (requeued queued).mpr (Or.inr member), number⟩
  · simp only [Lease.ownsSlot, List.any_eq_true, beq_iff_eq] at owned
    obtain ⟨other, member, found⟩ := owned
    have absent := (gone other member).1
    rw [ExtTreeMap.mem_iff_isSome_getElem?, found] at absent
    exact absurd rfl absent

/-- Every lease that `run` reaches is acknowledged if and only if all its slices were delivered, is otherwise rejected
    with the worst of its failures, and is dropped, which ends the run and queues its batches again, if a delivery is
    cancelled. The run then ends with an error, or by a panic where `send` waited for the delivery; one slice by itself
    makes no difference to the lease. -/
theorem run_ends_leases (Batch : Type) [Buffer.RecordBatch Batch] (sink : KafkaSink) (closing : Except PipelineError Unit)
    (visits : List KafkaSink.LeaseVisit)
    (alike : ∀ visit ∈ visits, ∀ position record, (visit.producer position record).SendsAlike) :
    (∀ (position : Nat) (visit : KafkaSink.LeaseVisit) (ending : KafkaSink.LeaseEnd) (slices : List PreparedSlice),
      visits[position]? = some visit →
      (sink.run closing visits).1[position]? = some ending → visit.numRows ≠ 0 → visit.prepared = .ok slices →
        KafkaSink.Judged sink visit slices ending ∧
          (ending = .dropped → (sink.run closing visits).2 = .error (sink.stopOf visit.producer slices)) ∧
          (.cancelled ∉ sink.fates visit.producer 0 slices →
            sink.sendPreparedSlices visit.producer slices = sink.sendSlices visit.producer slices)) ∧
    (∀ (inner : BufferInner) (signal : SignalKind) (start : SignalRingState Batch) (world next : RingWorld Batch)
      (lease : Lease Batch) (others : List (Held (Lease Batch))) (now : Instant) (nowMs : Nat)
      (deadLetter persisted : Except String Unit), Opened start →
      Run (RingWorld.step inner signal) (fun _ _ => True) { state := start } world →
      world.takeLease lease.id.firstSeq = some (lease, others) → lease.ownsSlot world.state.ring = true →
      RingWorld.step inner signal world
        (KafkaSink.LeaseEnd.dropped.ringAction lease now nowMs deadLetter persisted) = some next →
      ∀ item ∈ lease.leased, next.state.ring.slots[item.seqId]? = some .queued) := by
  refine ⟨fun position visit ending slices listed ended rows prepared => ?_, ?_⟩
  · obtain ⟨reached, found, same, stops⟩ := KafkaSink.run_visits sink closing visits ended
    rw [listed] at found
    cases found
    have handled := KafkaSink.visitLease_handled sink (alike visit (List.mem_of_getElem? listed)) rows prepared
    refine ⟨same ▸ handled.toJudged, fun dropped => ?_, ?_⟩
    · exact stops _ (handled.stopped (same.trans dropped))
    · exact KafkaSink.sendPreparedSlices_eq sink (alike visit (List.mem_of_getElem? listed))
  · intro inner signal start world next lease others now nowMs deadLetter persisted opened run taken owned stepped
    exact dropped_requeues ((opened.sound inner.config).run run) taken owned stepped

namespace KafkaSink

def timedOut : KafkaError := { kind := .messageProduction .messageTimedOut, text := "Message timed out" }

def tooLarge : KafkaError := { kind := .messageProduction .messageSizeTooLarge, text := "Message size too large" }

/-- The queue is full for the first record, which then times out; the second is too large, the others arrive. -/
def mixedProducer : FutureProducer
  | 0, _ =>
    { sendResult := .error { kind := .messageProduction .queueFull, text := "Queue full" }
      send := some (.error timedOut) }
  | 1, _ => { sendResult := .ok (.failed tooLarge), send := some (.error tooLarge) }
  | _, _ => { sendResult := .ok .delivered, send := some (.ok ()) }

theorem mixedProducer_alike (position : Nat) (record : FutureRecord) : (mixedProducer position record).SendsAlike := by
  match position with
  | 0 => rfl
  | 1 => rfl
  | _ + 2 => rfl

def mixedSlices : List PreparedSlice := [⟨none, [1]⟩, ⟨some "a", [2]⟩, ⟨some "b", [3]⟩]

def mixedVisit : LeaseVisit :=
  { numRows := 3, prepared := .ok mixedSlices, producer := mixedProducer, resolved := .ok () }

end KafkaSink

/-- A lease with a transient and a permanent failure is rejected for the permanent one. -/
theorem run_ends_leases_mixed :
    (KafkaSink.run ⟨"logs"⟩ (.ok ()) [KafkaSink.mixedVisit]).1 = [.nacked (.rejected "Message size too large")] ∧
      KafkaSink.Judged ⟨"logs"⟩ KafkaSink.mixedVisit KafkaSink.mixedSlices
        (.nacked (.rejected "Message size too large")) := by
  have alike : ∀ visit ∈ [KafkaSink.mixedVisit], ∀ position record,
      (visit.producer position record).SendsAlike := by
    intro visit member
    rw [List.mem_singleton.mp member]
    exact KafkaSink.mixedProducer_alike
  have ends := run_ends_leases PlainBatch ⟨"logs"⟩ (.ok ()) [KafkaSink.mixedVisit] alike
  exact ⟨rfl, (ends.1 0 KafkaSink.mixedVisit _ KafkaSink.mixedSlices rfl rfl (by decide) rfl).1⟩

namespace KafkaSink

/-- The delivery of the only record is cancelled. -/
def cancelledProducer : FutureProducer := fun _ _ => { sendResult := .ok .cancelled, send := none }

def cancelledVisit : LeaseVisit :=
  { numRows := 1, prepared := .ok [⟨none, [1]⟩], producer := cancelledProducer, resolved := .ok () }

end KafkaSink

/-- `run` does not return where the delivery of a single slice is cancelled; the other path would return an error. -/
theorem run_unwinds_single :
    (∀ position record, (KafkaSink.cancelledProducer position record).SendsAlike) ∧
      KafkaSink.run ⟨"logs"⟩ (.ok ()) [KafkaSink.cancelledVisit] = ([.dropped], .error .unwound) ∧
      KafkaSink.sendSlices ⟨"logs"⟩ KafkaSink.cancelledProducer [⟨none, [1]⟩] =
        .error (.returned KafkaSink.deliveryCancelled) :=
  ⟨fun _ _ => rfl, rfl, rfl⟩

end OtelDatalake.Kafka
