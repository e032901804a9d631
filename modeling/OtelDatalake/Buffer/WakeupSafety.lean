import OtelDatalake.Buffer.Wakeups

open Std OtelDatalake.Foundation

namespace OtelDatalake.Buffer

variable {Batch : Type} [RecordBatch Batch]

/-- No lease can be popped from a ring at any time from `since` on and before the deadline. -/
def Idle (inner : BufferInner) (signal : SignalKind) (state : SignalRingState Batch) (since : Instant)
    (deadline : Option Instant) : Prop :=
  ∀ now, since ≤ now → (∀ limit ∈ deadline, now < limit) → (tryPopSignalLease inner signal state now).2.1 = none

/-- The two states are alike in what a receiver reads, but fewer senders may be blocked in the second one. -/
structure SignalRingState.Resembles (before after : SignalRingState Batch) : Prop where
  queue : after.ring.queue = before.ring.queue
  slots : after.ring.slots = before.ring.slots
  inflightLeases : after.ring.inflightLeases = before.ring.inflightLeases
  closed : after.ring.closed = before.ring.closed
  fatalError : after.ring.fatalError = before.ring.fatalError
  blocked : after.blockedSenders ≤ before.blockedSenders

section Popping

variable {inner : BufferInner} {signal : SignalKind} {state after : SignalRingState Batch} {now later : Instant}

namespace SignalRing

theorem notReady_mono {readyAt : Option Instant} (passed : now ≤ later) (ready : notReady readyAt now = false) :
    notReady readyAt later = false := by
  cases readyAt with
  | none => rfl
  | some deadline =>
    simp only [notReady, Option.any_some, decide_eq_false_iff_not, Nat.not_lt, gt_iff_lt] at ready ⊢
    exact ready.trans passed

theorem coalesce_later {config : BufferConfig} {slots : ExtTreeMap Nat LeaseSlotState} {attempt : Nat}
    {schema : RecordBatch.Schema Batch} (passed : now ≤ later) (items : List (QueuedBatch Batch)) {check : CoalesceCheck}
    (clear : (coalesce config now slots attempt schema check items).hitBoundary = false) :
    coalesce config later slots attempt schema check items = coalesce config now slots attempt schema check items := by
  induction items generalizing check with
  | nil => rfl
  | cons next rest ih =>
    simp only [coalesce] at clear ⊢
    by_cases gap : next.seqId ≠ saturatingSucc check.lastSeq
    · simp only [if_pos gap] at clear ⊢
    · simp only [if_neg gap] at clear ⊢
      split at clear
      · cases clear
      · rename_i passes
        simp only [Bool.or_eq_true, not_or, Bool.not_eq_true] at passes
        obtain ⟨⟨⟨⟨ready, attempts⟩, schemas⟩, bytes⟩, records⟩ := passes
        have still := notReady_mono passed ready
        simp only [still, ready, attempts, schemas, bytes, records, Bool.or_self, Bool.false_eq_true, if_false]
        exact ih clear

end SignalRing

theorem flushWait_some {front : QueuedBatch Batch} {check : SignalRing.CoalesceCheck} {deadline : Instant}
    (waits : flushWait inner state front check now = some deadline) :
    check.hitBoundary = false ∧ state.blockedSenders = 0 ∧ now < deadline ∧
      ∀ later < deadline, flushWait inner state front check later = some deadline := by
  simp only [flushWait] at waits ⊢
  split at waits
  · rename_i holds
    cases waits
    simp only [Bool.and_eq_true, Bool.not_eq_true', decide_eq_false_iff_not, decide_eq_true_eq] at holds ⊢
    refine ⟨holds.1.1.2, by omega, holds.2, fun later below => ?_⟩
    rw [if_pos]
    exact ⟨holds.1, below⟩
  · cases waits

/-- A look that finds no lease, and returns a time to wait for, will find none before that time. -/
theorem idle_of_look (nothing : (tryPopSignalLease inner signal state now).2.1 = none) :
    Idle inner signal state now (tryPopSignalLease inner signal state now).2.2.1 := by
  intro later since before
  simp only [tryPopSignalLease] at nothing before ⊢
  by_cases full : state.ring.inflightLeases ≥ inner.config.maxInflightLeases
  · simp only [if_pos full]
  · simp only [if_neg full] at nothing before ⊢
    cases queue : state.ring.queue with
    | nil => rfl
    | cons front rest =>
      simp only [queue] at nothing before ⊢
      by_cases earlier : state.ring.hasEarlierReserved front.seqId = true
      · simp only [if_pos earlier]
      · simp only [if_neg earlier] at nothing before ⊢
        by_cases notReady : SignalRing.notReady front.readyAt now = true
        · simp only [if_pos notReady] at before
          have still : SignalRing.notReady front.readyAt later = true := by
            cases readyAt : front.readyAt with
            | none => simp [SignalRing.notReady, readyAt] at notReady
            | some deadline =>
              have below := before deadline (by simp [readyAt])
              simpa [SignalRing.notReady] using below
          simp only [if_pos still]
        · simp only [if_neg notReady] at nothing before
          have ready := SignalRing.notReady_mono since (Bool.not_eq_true _ ▸ notReady)
          simp only [ready, Bool.false_eq_true, if_false]
          cases waits : flushWait inner state front
              (SignalRing.coalesceFront inner.config now state.ring front rest) now with
          | none => simp [waits] at nothing
          | some deadline =>
            simp only [waits] at before
            obtain ⟨boundary, _, _, still⟩ := flushWait_some waits
            have same : SignalRing.coalesceFront inner.config later state.ring front rest =
                SignalRing.coalesceFront inner.config now state.ring front rest :=
              SignalRing.coalesce_later since rest boundary
            rw [same, still later (before deadline rfl)]

theorem tryPop_drained : (tryPopSignalLease inner signal state now).2.2.2 = state.ring.isDrained := by
  simp only [tryPopSignalLease]
  split
  · rfl
  · cases queue : state.ring.queue with
    | nil => simp [SignalRing.isDrained, queue]
    | cons front rest =>
      have busy : state.ring.isDrained = false := by simp [SignalRing.isDrained, queue]
      rw [busy]
      simp only
      by_cases earlier : state.ring.hasEarlierReserved front.seqId = true
      · simp only [if_pos earlier]
      · by_cases notReady : SignalRing.notReady front.readyAt now = true
        · simp only [if_neg earlier, if_pos notReady]
        · simp only [if_neg earlier, if_neg notReady]
          split <;> rfl

/-- What keeps a ring without a lease: the receiver finds the queue as it was, no more room for a lease, no fewer
    reservations in front, and no more reason to flush. -/
theorem tryPop_none_of (before after : SignalRingState Batch) (queue : after.ring.queue = before.ring.queue)
    (inflightLeases : after.ring.inflightLeases = before.ring.inflightLeases)
    (closed : after.ring.closed = before.ring.closed) (blocked : after.blockedSenders ≤ before.blockedSenders)
    (reserved : ∀ seqId, before.ring.hasEarlierReserved seqId = true → after.ring.hasEarlierReserved seqId = true)
    (scan : ∀ front rest, before.ring.queue = front :: rest →
      SignalRing.coalesceFront inner.config now after.ring front rest =
        SignalRing.coalesceFront inner.config now before.ring front rest)
    (nothing : (tryPopSignalLease inner signal before now).2.1 = none) :
    (tryPopSignalLease inner signal after now).2.1 = none := by
  simp only [tryPopSignalLease, queue, inflightLeases] at nothing ⊢
  by_cases full : before.ring.inflightLeases ≥ inner.config.maxInflightLeases
  · simp only [if_pos full]
  · simp only [if_neg full] at nothing ⊢
    cases parts : before.ring.queue with
    | nil => rfl
    | cons front rest =>
      simp only [parts] at nothing ⊢
      by_cases earlier : before.ring.hasEarlierReserved front.seqId = true
      · simp only [if_pos (reserved _ earlier)]
      · simp only [if_neg earlier] at nothing
        split
        · rfl
        · by_cases notReady : SignalRing.notReady front.readyAt now = true
          · simp only [if_pos notReady]
          · simp only [if_neg notReady, scan front rest parts] at nothing ⊢
            cases waits : flushWait inner before front
                (SignalRing.coalesceFront inner.config now before.ring front rest) now with
            | none => simp [waits] at nothing
            | some deadline =>
              obtain ⟨_, unblocked, _⟩ := flushWait_some waits
              have same : flushWait inner after front
                  (SignalRing.coalesceFront inner.config now before.ring front rest) now = some deadline := by
                have zero : after.blockedSenders = before.blockedSenders := by omega
                rw [← waits]
                simp only [flushWait, closed, zero]
              rw [same]

theorem SignalRingState.Resembles.idle {before after : SignalRingState Batch} {since : Instant}
    {deadline : Option Instant} (alike : before.Resembles after) (idle : Idle inner signal before since deadline) :
    Idle inner signal after since deadline := by
  intro now later below
  refine tryPop_none_of _ _ alike.queue alike.inflightLeases alike.closed alike.blocked ?_ ?_ (idle now later below)
  · intro seqId earlier
    simpa only [SignalRing.hasEarlierReserved, alike.slots] using earlier
  · intro front rest _
    simp only [SignalRing.coalesceFront, alike.slots]

theorem SignalRingState.Resembles.isDrained {before after : SignalRingState Batch} (alike : before.Resembles after) :
    after.ring.isDrained = before.ring.isDrained := by
  simp only [SignalRing.isDrained, alike.queue, alike.slots, alike.inflightLeases, alike.closed]

namespace SignalRing

theorem coalesce_congr {config : BufferConfig} {slots others : ExtTreeMap Nat LeaseSlotState} {attempt : Nat}
    {schema : RecordBatch.Schema Batch} (bound : Nat) (agree : ∀ seq : Nat, seq < bound → others[seq]? = slots[seq]?)
    (items : List (QueuedBatch Batch)) {check : CoalesceCheck}
    (sorted : (check.lastSeq :: items.map (·.seqId)).Pairwise (· < ·)) (below : ∀ item ∈ items, item.seqId < bound) :
    coalesce config now others attempt schema check items = coalesce config now slots attempt schema check items := by
  induction items generalizing check with
  | nil => rfl
  | cons next rest ih =>
    have ahead : check.lastSeq < next.seqId := (List.pairwise_cons.mp sorted).1 _ List.mem_cons_self
    have inside : next.seqId < bound := below next List.mem_cons_self
    have same : others[saturatingSucc check.lastSeq]? = slots[saturatingSucc check.lastSeq]? := by
      refine agree _ ?_
      unfold saturatingSucc
      omega
    simp only [coalesce, same]
    split
    · rfl
    · split
      · rfl
      · exact ih (List.pairwise_cons.mp sorted).2 fun item member => below item (List.mem_cons_of_mem _ member)

end SignalRing

theorem Idle.assignSlot {config : BufferConfig} {origin : SignalRing Batch} {world : RingWorld Batch}
    (sound : RingWorld.Sound config origin world) {since : Instant} {deadline : Option Instant}
    (idle : Idle inner signal world.state since deadline) (batchBytes batchRows : Nat) (now : Instant) :
    Idle inner signal { world.state with ring := (assignSlot world.state.ring batchBytes batchRows none now).1 } since
      deadline := by
  have balanced := sound.accounted.balanced
  have behind : ∀ item ∈ world.state.ring.queue, item.seqId < world.state.ring.nextSeq :=
    fun item member => balanced.queued_lt member
  intro later passed before
  refine tryPop_none_of world.state _ rfl rfl rfl le_rfl ?_ ?_ (idle later passed before)
  · intro seqId earlier
    simp only [SignalRing.hasEarlierReserved, List.any_eq_true] at earlier ⊢
    obtain ⟨⟨seq, state⟩, listed, reserved⟩ := earlier
    refine ⟨(seq, state), ?_, reserved⟩
    rw [ExtTreeMap.mem_toList_iff_getElem?_eq_some] at listed ⊢
    simp only [OtelDatalake.Buffer.assignSlot]
    rw [ExtTreeMap.getElem?_insert, if_neg]
    · exact listed
    · intro same
      have active : seq ∈ world.state.ring.slots := by
        rw [ExtTreeMap.mem_iff_isSome_getElem?, listed]
        rfl
      have below := balanced.belowNext seq active
      rw [Nat.compare_eq_eq.mp same] at below
      exact lt_irrefl _ below
  · intro front rest queue
    have sorted := balanced.ascending
    rw [queue] at sorted behind
    refine SignalRing.coalesce_congr world.state.ring.nextSeq ?_ rest ?_
      fun item member => behind item (List.mem_cons_of_mem _ member)
    · intro seq below
      simp only [OtelDatalake.Buffer.assignSlot]
      rw [ExtTreeMap.getElem?_insert, if_neg]
      intro same
      rw [Nat.compare_eq_eq.mp same] at below
      exact lt_irrefl _ below
    · simpa [Ascending, List.pairwise_map] using sorted

end Popping

theorem mem_notifyAll {signal : SignalKind} {channel : Notifier} (aimed : channel ∈ notifyDataReady signal) :
    channel ∈ notifyAll := by
  cases signal <;>
    simp only [notifyDataReady, List.mem_cons, List.not_mem_nil, or_false] at aimed <;>
    rcases aimed with rfl | rfl <;>
    decide

theorem spaceAvailable_mem_notifyAll (signal : SignalKind) : Notifier.spaceAvailable signal ∈ notifyAll := by
  cases signal <;> decide

section Operations

variable {inner : BufferInner} {signal : SignalKind} {config : BufferConfig} {origin : SignalRing Batch}
  {ring next : RingWorld Batch} {action : RingAction Batch} {channel : Notifier}

theorem SignalRingState.Resembles.of_eq {before after : SignalRingState Batch} (same : after = before) :
    before.Resembles after := by
  subst same
  exact ⟨rfl, rfl, rfl, rfl, rfl, le_rfl⟩

/-- The receiver finds nothing new in a ring, and the reservations that were live are. -/
structure Undisturbed (ring next : RingWorld Batch) : Prop where
  alike : ring.state.Resembles next.state
  reservations : ring.liveReservations ≠ [] → next.liveReservations ≠ []

theorem undisturbed_finish {seqId : Nat} {written : WrittenFrame} {now : Instant}
    (sound : RingWorld.Sound config origin ring) (aimed : channel ∈ notifyDataReady signal)
    (stepped : RingWorld.step inner signal ring (.finish seqId (.ok written) now) = some next)
    (silent : channel ∉ notifications inner signal ring (.finish seqId (.ok written) now)) : Undisturbed ring next := by
  obtain ⟨⟨reservation, remaining⟩, taken, rfl⟩ := Option.map_eq_some_iff.mp stepped
  simp only [notifications, taken] at silent
  split at silent
  · exact absurd (List.mem_append_right _ aimed) silent
  · rename_i unreserved
    have same : reservation.finish ring.state (.ok written) now = ring.state := by
      simp only [AppendReservation.finish, if_neg unreserved]
    obtain ⟨_, _, _, live | ⟨stale, _⟩⟩ := takeHeld_eq_some taken
    · have held := sound.accounted.perm live (List.Perm.refl _)
      exact absurd (held.balanced.reserved_mem List.mem_cons_self) unreserved
    · refine ⟨.of_eq same, fun some none => some ?_⟩
      exact List.Perm.eq_nil (none ▸ stale)

theorem undisturbed_dropReservation {seqId : Nat} (sound : RingWorld.Sound config origin ring)
    (aimed : channel ∈ notifyDataReady signal)
    (stepped : RingWorld.step inner signal ring (.dropReservation seqId) = some next)
    (silent : channel ∉ notifications inner signal ring (.dropReservation seqId)) : Undisturbed ring next := by
  obtain ⟨⟨reservation, remaining⟩, taken, rfl⟩ := Option.map_eq_some_iff.mp stepped
  have same := RingWorld.takeReservation_seqId taken
  simp only [notifications] at silent
  split at silent
  · exact absurd (List.mem_cons_of_mem _ aimed) silent
  · rename_i absent
    rw [Option.not_isSome_iff_eq_none, ← same] at absent
    have unchanged : reservation.rollbackSlot ring.state = ring.state := by
      simp only [AppendReservation.rollbackSlot, absent]
    obtain ⟨_, _, _, live | ⟨stale, _⟩⟩ := takeHeld_eq_some taken
    · have held := sound.accounted.perm live (List.Perm.refl _)
      rw [held.balanced.reserved_mem List.mem_cons_self] at absent
      cases absent
    · refine ⟨.of_eq unchanged, fun some none => some ?_⟩
      exact List.Perm.eq_nil (none ▸ stale)

/-- An operation of another task tells the receiver, or gives it nothing new to find. -/
theorem undisturbed_of_silent (sound : RingWorld.Sound config origin ring) (aimed : channel ∈ notifyDataReady signal)
    (other : WaitingWorld.others action = true) (stepped : RingWorld.step inner signal ring action = some next)
    (silent : channel ∉ notifications inner signal ring action) : Undisturbed ring next := by
  cases action with
  | finish seqId result now =>
    cases result with
    | ok written => exact undisturbed_finish sound aimed stepped silent
    | error reason => exact absurd (mem_notifyAll aimed) silent
  | dropReservation seqId => exact undisturbed_dropReservation sound aimed stepped silent
  | quarantineRows firstSeq rows =>
    obtain ⟨_, _, rfl⟩ := Option.map_eq_some_iff.mp stepped
    exact ⟨⟨rfl, rfl, rfl, rfl, rfl, le_rfl⟩, id⟩
  | ack firstSeq persisted =>
    exact absurd (List.mem_append_left _ (List.mem_cons_of_mem _ aimed)) silent
  | nack firstSeq failure now nowMs deadLetter persisted =>
    obtain ⟨⟨lease, remaining⟩, taken, rfl⟩ := Option.map_eq_some_iff.mp stepped
    simp only [notifications, taken] at silent
    split at silent
    · exact absurd aimed silent
    · exact absurd (mem_notifyAll aimed) silent
    · exact absurd (List.mem_cons_of_mem _ aimed) silent
    · exact absurd (List.mem_append_left _ (List.mem_cons_of_mem _ aimed)) silent
  | dropLease firstSeq now nowMs => exact absurd aimed silent
  | storageFailure reason => exact absurd (mem_notifyAll aimed) silent
  | discard => exact absurd (List.mem_cons_of_mem _ aimed) silent
  | dropReceiver =>
    cases stepped
    exact ⟨⟨rfl, rfl, rfl, rfl, rfl, le_rfl⟩, id⟩
  | _ => cases other

/-- A ring with no more room than before, which answers its senders as it did. -/
structure SignalRing.Fuller (before after : SignalRing Batch) : Prop where
  used : before.bytesInFlight + before.unreclaimedDiskBytes ≤ after.bytesInFlight + after.unreclaimedDiskBytes
  slots : ∀ seq ∈ before.slots, seq ∈ after.slots
  fatalError : after.fatalError = before.fatalError
  receiverDropped : after.receiverDropped = before.receiverDropped
  closed : after.closed = before.closed

namespace SignalRing.Fuller

variable {first second third : SignalRing Batch}

theorem of_eq (same : second = first) : first.Fuller second := by
  subst same
  exact ⟨le_rfl, fun _ => id, rfl, rfl, rfl⟩

theorem trans (left : first.Fuller second) (right : second.Fuller third) : first.Fuller third where
  used := left.used.trans right.used
  slots seq member := right.slots seq (left.slots seq member)
  fatalError := right.fatalError.trans left.fatalError
  receiverDropped := right.receiverDropped.trans left.receiverDropped
  closed := right.closed.trans left.closed

end SignalRing.Fuller

theorem requeueEntries_fuller (nextAttempt : Nat) (readyAt : Option Instant)
    (entries : List (BatchPayload Batch × LeasedBatchMeta)) (progress : SignalRing Batch × Bool) :
    progress.1.Fuller (entries.foldl (SignalRing.requeueEntry nextAttempt readyAt) progress).1 := by
  induction entries generalizing progress with
  | nil => exact .of_eq rfl
  | cons entry rest ih =>
    rw [List.foldl_cons]
    refine SignalRing.Fuller.trans ?_ (ih _)
    simp only [SignalRing.requeueEntry]
    split
    · exact ⟨le_rfl, fun _ => id, rfl, rfl, rfl⟩
    · exact ⟨le_rfl, fun seq member => ExtTreeMap.mem_insert.mpr (.inr member), rfl, rfl, rfl⟩

theorem requeueLease_fuller (state : SignalRingState Batch) (payloads : List (BatchPayload Batch))
    (leased : List LeasedBatchMeta) (nextAttempt : Nat) (readyAt : Option Instant) :
    state.ring.Fuller (requeueLease state payloads leased nextAttempt readyAt).ring := by
  have kept := requeueEntries_fuller nextAttempt readyAt (payloads.zip leased).reverse (state.ring, false)
  simp only [requeueLease, SignalRing.requeueAtHead]
  split
  · exact ⟨kept.used, kept.slots, kept.fatalError, kept.receiverDropped, kept.closed⟩
  · exact kept

theorem tryPopSignalLease_fuller (inner : BufferInner) (signal : SignalKind) (state : SignalRingState Batch)
    (now : Instant) : state.ring.Fuller (tryPopSignalLease inner signal state now).1.ring := by
  rcases tryPopSignalLease_cases inner signal state now with
    ⟨wait, drained, idle⟩ | ⟨front, taken, rest, _, popped⟩
  · rw [idle]
    exact .of_eq rfl
  · rw [popped]
    exact ⟨le_rfl, fun seq member => mem_insertKeys _ member, rfl, rfl, rfl⟩

theorem finish_fuller {reservation : AppendReservation Batch} {state : SignalRingState Batch} {written : WrittenFrame}
    (now : Instant) (large : reservation.frameBytesLen ≤ written.len) :
    state.ring.Fuller (reservation.finish state (.ok written) now).ring := by
  simp only [AppendReservation.finish]
  split
  · refine ⟨?_, fun seq member => ExtTreeMap.mem_insert.mpr (.inr member), rfl, rfl, rfl⟩
    simp only
    omega
  · exact .of_eq rfl

theorem fatalError_of_silent (other : WaitingWorld.others action = true)
    (stepped : RingWorld.step inner signal ring action = some next) (shared : channel ∈ notifyAll)
    (silent : channel ∉ notifications inner signal ring action) :
    next.state.ring.fatalError = ring.state.ring.fatalError := by
  cases action with
  | finish seqId result now =>
    obtain ⟨⟨reservation, remaining⟩, taken, rfl⟩ := Option.map_eq_some_iff.mp stepped
    cases result with
    | ok written =>
      simp only [AppendReservation.finish]
      split <;> rfl
    | error reason => exact absurd shared silent
  | dropReservation seqId =>
    obtain ⟨⟨reservation, remaining⟩, taken, rfl⟩ := Option.map_eq_some_iff.mp stepped
    simp only [AppendReservation.rollbackSlot]
    split <;> rfl
  | quarantineRows firstSeq rows =>
    obtain ⟨_, _, rfl⟩ := Option.map_eq_some_iff.mp stepped
    rfl
  | ack firstSeq persisted =>
    obtain ⟨⟨lease, remaining⟩, taken, rfl⟩ := Option.map_eq_some_iff.mp stepped
    cases persisted with
    | ok _ =>
      simp only [Lease.ack, ackLease, SignalRing.ackEntries]
      split <;> rfl
    | error reason => exact absurd (List.mem_append_right _ shared) silent
  | nack firstSeq failure now nowMs deadLetter persisted =>
    obtain ⟨⟨lease, remaining⟩, taken, rfl⟩ := Option.map_eq_some_iff.mp stepped
    have marked : (Lease.markFailure ring.state failure nowMs).ring = ring.state.ring := by
      cases failure <;> rfl
    simp only [notifications, taken] at silent
    simp only [RingWorld.resolveLease]
    cases disposition : lease.disposition inner ring.state failure now nowMs deadLetter with
    | requeue leased nextAttempt readyAt =>
      rw [← marked]
      exact (requeueLease_fuller ..).fatalError
    | fail leased reason =>
      rw [disposition] at silent
      exact absurd shared silent
    | quarantine =>
      rw [disposition] at silent
      cases persisted with
      | ok _ =>
        simp only [Lease.dispose, ackLease, SignalRing.ackEntries]
        rw [← marked]
        split <;> rfl
      | error reason => exact absurd (List.mem_append_right _ shared) silent
  | dropLease firstSeq now nowMs =>
    obtain ⟨⟨lease, remaining⟩, taken, rfl⟩ := Option.map_eq_some_iff.mp stepped
    exact (requeueLease_fuller (Lease.markTransient ring.state nowMs) ..).fatalError
  | storageFailure reason => exact absurd shared silent
  | discard =>
    cases stepped
    rfl
  | dropReceiver =>
    cases stepped
    rfl
  | _ => cases other

theorem fuller_of_silent (other : WaitingWorld.others action = true)
    (stepped : RingWorld.step inner signal ring action = some next)
    (silent : Notifier.spaceAvailable signal ∉ notifications inner signal ring action) :
    ring.state.ring.Fuller next.state.ring := by
  have shared := spaceAvailable_mem_notifyAll signal
  cases action with
  | finish seqId result now =>
    obtain ⟨⟨reservation, remaining⟩, taken, rfl⟩ := Option.map_eq_some_iff.mp stepped
    cases result with
    | ok written =>
      simp only [notifications, taken] at silent
      by_cases reserved : ring.state.ring.slots[reservation.seqId]? = some .reserved
      · rw [if_pos reserved] at silent
        by_cases short : written.len < reservation.frameBytesLen
        · rw [if_pos short] at silent
          exact absurd (List.mem_append_left _ List.mem_cons_self) silent
        · exact finish_fuller now (Nat.not_lt.mp short)
      · simp only [AppendReservation.finish, if_neg reserved]
        exact .of_eq rfl
    | error reason => exact absurd shared silent
  | dropReservation seqId =>
    obtain ⟨⟨reservation, remaining⟩, taken, rfl⟩ := Option.map_eq_some_iff.mp stepped
    have same := RingWorld.takeReservation_seqId taken
    simp only [notifications] at silent
    split at silent
    · exact absurd List.mem_cons_self silent
    · rename_i absent
      rw [Option.not_isSome_iff_eq_none, ← same] at absent
      simp only [AppendReservation.rollbackSlot, absent]
      exact .of_eq rfl
  | quarantineRows firstSeq rows =>
    obtain ⟨_, _, rfl⟩ := Option.map_eq_some_iff.mp stepped
    exact .of_eq rfl
  | ack firstSeq persisted => exact absurd (List.mem_append_left _ List.mem_cons_self) silent
  | nack firstSeq failure now nowMs deadLetter persisted =>
    obtain ⟨⟨lease, remaining⟩, taken, rfl⟩ := Option.map_eq_some_iff.mp stepped
    have marked : (Lease.markFailure ring.state failure nowMs).ring = ring.state.ring := by
      cases failure <;> rfl
    simp only [notifications, taken] at silent
    simp only [RingWorld.resolveLease]
    cases disposition : lease.disposition inner ring.state failure now nowMs deadLetter with
    | requeue leased nextAttempt readyAt =>
      rw [← marked]
      exact requeueLease_fuller ..
    | fail leased reason =>
      rw [disposition] at silent
      exact absurd shared silent
    | quarantine =>
      rw [disposition] at silent
      cases persisted with
      | ok _ => exact absurd List.mem_cons_self silent
      | error reason => exact absurd (List.mem_append_left _ List.mem_cons_self) silent
  | dropLease firstSeq now nowMs =>
    obtain ⟨⟨lease, remaining⟩, taken, rfl⟩ := Option.map_eq_some_iff.mp stepped
    exact requeueLease_fuller (Lease.markTransient ring.state nowMs) ..
  | storageFailure reason => exact absurd shared silent
  | discard => exact absurd List.mem_cons_self silent
  | dropReceiver => exact absurd List.mem_cons_self silent
  | _ => cases other

end Operations

section Admissions

variable {inner : BufferInner} {signal : SignalKind} {config : BufferConfig} {origin : SignalRing Batch}
  {state : SignalRingState Batch} {ring next : RingWorld Batch} {request : SlotRequest Batch} {now : Instant}

theorem reserveOrEnqueueSlot_cases (config : BufferConfig) (state : SignalRingState Batch)
    (batchBytes batchRows : Nat) (inMemoryBatch : Option Batch) (now : Instant) :
    let admitted := reserveOrEnqueueSlot config state batchBytes batchRows inMemoryBatch now
    let room := (makeRoom config state batchBytes).1
    let assigned := assignSlot room.ring batchBytes batchRows inMemoryBatch now
    (admitted.1 = state ∧ admitted.2.1 ≠ .blocked ∧ ∀ seqId, admitted.2.1 ≠ .reserved seqId) ∨
      (state.ring.fatalError = none ∧ state.ring.receiverDropped = false ∧ state.ring.closed = false) ∧
        (admitted.1 = room ∧ admitted.2.1 = .blocked ∧
            canAdmit room.ring batchBytes config.perSignalBudget = false ∨
          admitted.1 = { room with ring := assigned.1 } ∧ admitted.2.1 = assigned.2) := by
  simp only [reserveOrEnqueueSlot]
  split
  · exact .inl ⟨rfl, by simp, by simp⟩
  · rename_i healthy
    split
    · exact .inl ⟨rfl, by simp, by simp⟩
    · rename_i unclosed
      simp only [Bool.or_eq_true, not_or, Bool.not_eq_true] at unclosed
      refine .inr ⟨⟨healthy, unclosed⟩, ?_⟩
      split
      · exact .inr ⟨rfl, rfl⟩
      · rename_i refused
        exact .inl ⟨rfl, rfl, Bool.not_eq_true _ ▸ refused⟩

theorem evictOldest_fatalError (batchBytes budget fuel : Nat) (state : SignalRingState Batch) :
    (evictOldest batchBytes budget fuel state).1.ring.fatalError = state.ring.fatalError := by
  induction fuel generalizing state with
  | zero => rfl
  | succ fuel ih =>
    simp only [evictOldest]
    split
    · rfl
    · split
      · rfl
      · split
        · rfl
        · rw [ih]
          simp only [SignalRing.recordEvictedBatch, SignalRing.advanceWatermark, SignalRing.releaseEvicted]
          split <;> rfl

theorem makeRoom_fatalError (config : BufferConfig) (state : SignalRingState Batch) (batchBytes : Nat) :
    (makeRoom config state batchBytes).1.ring.fatalError = state.ring.fatalError := by
  simp only [makeRoom]
  split
  · exact evictOldest_fatalError ..
  · rfl

theorem makeRoom_keeping (keeping : config.overflowPolicy ≠ .dropOldest) (state : SignalRingState Batch)
    (batchBytes : Nat) : (makeRoom config state batchBytes).1 = state := by
  simp only [makeRoom, if_neg keeping]
  rfl

namespace SlotRequest

theorem step_state (stepped : ring.step inner signal (request.action now) = some next) :
    next.state = (reserveOrEnqueueSlot inner.config ring.state request.bytes request.batchRows
      request.inMemoryBatch? now).1 := by
  cases request with
  | inMemory batch =>
    obtain ⟨_, rfl⟩ := RingWorld.step_enqueue stepped
    rfl
  | onDisk frameBytesLen batchRows rows schema =>
    obtain ⟨_, rfl⟩ := RingWorld.step_reserve stepped
    rfl

theorem step_reservations (stepped : ring.step inner signal (request.action now) = some next)
    (live : ring.liveReservations ≠ []) : next.liveReservations ≠ [] := by
  cases request with
  | inMemory batch =>
    obtain ⟨_, rfl⟩ := RingWorld.step_enqueue stepped
    simp only [RingWorld.admitBatch, RingWorld.liveReservations]
    split
    · rw [liveValues_append]
      exact List.append_ne_nil_of_left_ne_nil live _
    · exact live
  | onDisk frameBytesLen batchRows rows schema =>
    obtain ⟨_, rfl⟩ := RingWorld.step_reserve stepped
    simp only [RingWorld.admitBatch, RingWorld.liveReservations]
    split
    · rw [liveValues_append]
      exact List.append_ne_nil_of_left_ne_nil live _
    · exact live

theorem step_idle (sound : RingWorld.Sound config origin ring)
    (stepped : ring.step inner signal (request.action now) = some next)
    (silent : request.outcome inner.config ring.state now ≠ .enqueued) {since : Instant} {deadline : Option Instant}
    (idle : Idle inner signal ring.state since deadline) :
    Idle inner signal next.state since deadline ∨ inner.config.overflowPolicy = .dropOldest ∧
      (next.liveReservations ≠ [] ∨ request.outcome inner.config ring.state now = .blocked) := by
  have state := step_state stepped
  rcases reserveOrEnqueueSlot_cases inner.config ring.state request.bytes request.batchRows request.inMemoryBatch? now with
    ⟨same, _⟩ | ⟨_, ⟨same, blocked, _⟩ | ⟨same, assigned⟩⟩
  · left
    rwa [state, same]
  · by_cases evicts : inner.config.overflowPolicy = .dropOldest
    · exact .inr ⟨evicts, .inr blocked⟩
    · left
      rwa [state, same, makeRoom_keeping evicts]
  · cases request with
    | inMemory batch => exact absurd assigned silent
    | onDisk frameBytesLen batchRows rows schema =>
      by_cases evicts : inner.config.overflowPolicy = .dropOldest
      · refine .inr ⟨evicts, .inl ?_⟩
        have reserved : (reserveOrEnqueueSlot inner.config ring.state frameBytesLen batchRows none now).2.1 =
            .reserved _ := assigned
        obtain ⟨_, rfl⟩ := RingWorld.step_reserve stepped
        simp only [RingWorld.admitBatch, RingWorld.liveReservations, reserved, liveValues_append]
        exact List.append_ne_nil_of_right_ne_nil _ (by simp [liveValues])
      · left
        rw [state, same, makeRoom_keeping evicts]
        exact idle.assignSlot sound frameBytesLen batchRows now

theorem step_isDrained (stepped : ring.step inner signal (request.action now) = some next)
    (undrained : ring.state.ring.isDrained = false) : next.state.ring.isDrained = false := by
  rw [step_state stepped]
  cases closed : ring.state.ring.closed with
  | true => rwa [reserveOrEnqueueSlot_refused _ _ _ _ _ _ closed]
  | false => simp [SignalRing.isDrained, reserveOrEnqueueSlot_closed, closed]

theorem step_fatalError (stepped : ring.step inner signal (request.action now) = some next) :
    next.state.ring.fatalError = ring.state.ring.fatalError := by
  have room := makeRoom_fatalError inner.config ring.state request.bytes
  rw [step_state stepped]
  rcases reserveOrEnqueueSlot_cases inner.config ring.state request.bytes request.batchRows request.inMemoryBatch? now with
    ⟨same, _⟩ | ⟨_, ⟨same, _⟩ | ⟨same, _⟩⟩
  · rw [same]
  · rw [same, room]
  · rw [same, ← room]
    cases request <;> rfl

theorem step_fuller (keeping : inner.config.overflowPolicy ≠ .dropOldest)
    (stepped : ring.step inner signal (request.action now) = some next) : ring.state.ring.Fuller next.state.ring := by
  rw [step_state stepped]
  rcases reserveOrEnqueueSlot_cases inner.config ring.state request.bytes request.batchRows request.inMemoryBatch? now with
    ⟨same, _⟩ | ⟨_, ⟨same, _⟩ | ⟨same, _⟩⟩
  · exact .of_eq (by rw [same])
  · exact .of_eq (by rw [same, makeRoom_keeping keeping])
  · rw [same, makeRoom_keeping keeping]
    cases request with
    | inMemory batch =>
      refine ⟨?_, fun seq member => ExtTreeMap.mem_insert.mpr (.inr member), rfl, rfl, rfl⟩
      simp only [assignSlot, inMemoryBatch?]
      omega
    | onDisk frameBytesLen batchRows rows schema =>
      refine ⟨?_, fun seq member => ExtTreeMap.mem_insert.mpr (.inr member), rfl, rfl, rfl⟩
      simp only [assignSlot, inMemoryBatch?]
      omega

end SlotRequest

end Admissions

theorem recover_fatalError (watermark : Nat) (state : SignalRingState Batch) (event : RecoveryEvent Batch) :
    (SignalRingState.recover watermark state event).ring.fatalError = state.ring.fatalError := by
  cases event with
  | frame item =>
    simp only [SignalRingState.recover]
    split <;> rfl
  | _ => rfl

theorem Opened.healthy {state : SignalRingState Batch} (opened : Opened state) : state.ring.fatalError = none := by
  cases opened with
  | new => rfl
  | recovered watermark events bounded numbers distinct =>
    have scanned : ∀ state : SignalRingState Batch,
        (events.foldl (SignalRingState.recover watermark) state).ring.fatalError = state.ring.fatalError := by
      clear numbers distinct
      induction events with
      | nil => exact fun _ => rfl
      | cons event rest ih =>
        intro state
        rw [List.foldl_cons, ih]
        exact recover_fatalError watermark state event
    exact scanned _

namespace StreamWorld

variable {inner : BufferInner} {scope : Option SignalKind} {world next : StreamWorld Batch} {signal : SignalKind}

theorem step_ring {move : RingAction Batch} (stepped : step inner scope world (.ring signal move) = some next) :
    ∃ ring, (world.rings signal).step inner signal move = some ring ∧ next = world.setRing signal ring := by
  cases move with
  | closeSenders => cases stepped
  | _ =>
    simp only [step, stepRing, Option.map_eq_some_iff] at stepped
    obtain ⟨ring, taken, rfl⟩ := stepped
    exact ⟨ring, taken, rfl⟩

theorem step_rings {action : StreamAction Batch} (stepped : step inner scope world action = some next) :
    (next.rings = world.rings ∧ next.fatalError = world.fatalError) ∨
      ∃ signal move ring, (world.rings signal).step inner signal move = some ring ∧
        next.rings = (world.setRing signal ring).rings ∧ next.fatalError = (world.setRing signal ring).fatalError := by
  cases action with
  | ring signal action =>
    obtain ⟨ring, taken, rfl⟩ := step_ring stepped
    exact .inr ⟨signal, action, ring, taken, rfl, rfl⟩
  | cloneSender index =>
    obtain ⟨_, _, rfl⟩ := Option.map_eq_some_iff.mp stepped
    exact .inl ⟨rfl, rfl⟩
  | dropSender index =>
    obtain ⟨_, _, rfl⟩ := Option.map_eq_some_iff.mp stepped
    exact .inl ⟨rfl, rfl⟩
  | countDown index =>
    simp only [step] at stepped
    split at stepped
    · cases stepped
      exact .inl ⟨rfl, rfl⟩
    · cases stepped
  | closeRing index =>
    simp only [step] at stepped
    split at stepped
    · rename_i rest signal found
      obtain ⟨ring, taken, rfl⟩ := Option.map_eq_some_iff.mp stepped
      exact .inr ⟨signal, _, ring, taken, rfl, rfl⟩
    · cases stepped
  | nextLease now =>
    simp only [step] at stepped
    split at stepped
    · cases stepped
    · cases stepped
    · cases stepped
      simp only [checkFatal]
      split <;> exact .inl ⟨rfl, rfl⟩
  | enable =>
    simp only [step] at stepped
    split at stepped
    · cases stepped
      simp only [checkFatal]
      split <;> exact .inl ⟨rfl, rfl⟩
    · cases stepped
  | tryPop =>
    simp only [step] at stepped
    split at stepped
    · rename_i now signal left allDrained deadline found
      simp only [tryPop, stepRing, Option.map_map, Option.map_eq_some_iff] at stepped
      obtain ⟨ring, taken, rfl⟩ := stepped
      refine .inr ⟨signal, _, ring, taken, ?_⟩
      simp only [Function.comp_apply]
      split <;> exact ⟨rfl, rfl⟩
    · cases stepped
      exact .inl ⟨rfl, rfl⟩
    · cases stepped

def Failing (world : StreamWorld Batch) : Prop :=
  ∀ signal, world.fatalError = none → (world.rings signal).state.ring.fatalError = none

theorem Failing.step {action : StreamAction Batch} (failing : world.Failing)
    (stepped : step inner scope world action = some next) : next.Failing := by
  rcases step_rings stepped with ⟨rings, fatalError⟩ | ⟨signal, move, ring, _, rings, fatalError⟩
  · intro other healthy
    rw [fatalError] at healthy
    rw [rings]
    exact failing other healthy
  · intro other healthy
    rw [fatalError, setRing, Option.or_eq_none_iff] at healthy
    rw [rings]
    exact setRing_cases (fun _ ring => ring.state.ring.fatalError = none) (fun other => failing other healthy.1)
      healthy.2 other

end StreamWorld

end OtelDatalake.Buffer
