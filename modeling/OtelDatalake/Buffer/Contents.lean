import OtelDatalake.Buffer.RingInvariant

open Std OtelDatalake.Foundation

namespace OtelDatalake.Buffer

variable {Batch : Type} [RecordBatch Batch]

def Lease.putBack (lease : Lease Batch) (leased : List LeasedBatchMeta) (nextAttempt : Nat)
    (readyAt : Option Instant) : List (QueuedBatch Batch) :=
  (lease.payloads.zip leased).map (SignalRing.Balanced.requeued nextAttempt readyAt)

def Lease.Disposition.retried (lease : Lease Batch) : Disposition → Option (List (QueuedBatch Batch))
  | .requeue leased nextAttempt readyAt => some (lease.putBack leased nextAttempt readyAt)
  | .fail .. | .quarantine => none

namespace RingWorld

/-- The lease that an action puts back for another attempt, with the queue items it becomes. -/
def retried (inner : BufferInner) (world : RingWorld Batch) :
    RingAction Batch → Option (Lease Batch × List (QueuedBatch Batch))
  | .nack firstSeq failure now nowMs deadLetter _ =>
    (world.takeLease firstSeq).bind fun taken =>
      ((taken.1.disposition inner world.state failure now nowMs deadLetter).retried taken.1).map (taken.1, ·)
  | .dropLease firstSeq now _ =>
    (world.takeLease firstSeq).map fun taken =>
      (taken.1, taken.1.putBack (taken.1.leased.map (Lease.stampFailure now)) taken.1.nextAttempt none)
  | _ => none

/-- The batches that an action may add to the queue. -/
inductive Arrives (inner : BufferInner) (world : RingWorld Batch) :
    RingAction Batch → QueuedBatch Batch → Prop where
  | enqueued {batch : Batch} {now : Instant} {item : QueuedBatch Batch} (payload : item.payload = .inMemory batch)
      (fresh : item.attempt = 0) : Arrives inner world (.enqueue batch now) item
  | finished {seqId : Nat} {written : WrittenFrame} {now : Instant} {reservation : AppendReservation Batch}
      {others : List (Held (AppendReservation Batch))}
      (taken : world.takeReservation seqId = some (reservation, others)) :
      Arrives inner world (.finish seqId (.ok written) now) (reservation.queuedBatch written now)
  | retried {action : RingAction Batch} {lease : Lease Batch} {items : List (QueuedBatch Batch)}
      {item : QueuedBatch Batch} (retried : world.retried inner action = some (lease, items))
      (member : item ∈ items) : Arrives inner world action item
  | failed {firstSeq : Nat} {failure : FailureClass} {now : Instant} {nowMs : Nat}
      {deadLetter persisted : Except String Unit} {lease : Lease Batch}
      {others : List (Held (Lease Batch))} {leased : List LeasedBatchMeta} {item : QueuedBatch Batch}
      (taken : world.takeLease firstSeq = some (lease, others)) (same : SameBatches leased lease.leased)
      (member : item ∈ lease.putBack leased 0 none) :
      Arrives inner world (.nack firstSeq failure now nowMs deadLetter persisted) item

end RingWorld

theorem makeRoom_queue {config : BufferConfig} {state : SignalRingState Batch} {batchBytes : Nat}
    {item : QueuedBatch Batch} (member : item ∈ (makeRoom config state batchBytes).1.ring.queue) :
    item ∈ state.ring.queue := by
  have swept : ∀ fuel (state : SignalRingState Batch),
      item ∈ (evictOldest batchBytes config.perSignalBudget fuel state).1.ring.queue →
      item ∈ state.ring.queue := by
    intro fuel
    induction fuel with
    | zero => exact fun _ => id
    | succ fuel ih =>
      intro state kept
      unfold evictOldest at kept
      split at kept
      · exact kept
      · split at kept
        · exact kept
        · rename_i front rest queue
          split at kept
          · exact kept
          · have behind := ih _ kept
            simp only [SignalRing.recordEvictedBatch, SignalRing.advanceWatermark,
              SignalRing.releaseEvicted] at behind
            rw [queue]
            refine List.mem_cons_of_mem _ ?_
            split at behind <;> exact behind
  unfold makeRoom at member
  split at member
  · exact swept _ _ member
  · exact member

theorem makeRoom_block {config : BufferConfig} (block : config.overflowPolicy = .block)
    (state : SignalRingState Batch) (batchBytes : Nat) : (makeRoom config state batchBytes).1.ring = state.ring := by
  simp [makeRoom, block]

theorem reserveOrEnqueueSlot_queue {config : BufferConfig} {state : SignalRingState Batch}
    {batchBytes batchRows : Nat} {inMemoryBatch : Option Batch} {now : Instant} {item : QueuedBatch Batch}
    (member : item ∈ (reserveOrEnqueueSlot config state batchBytes batchRows inMemoryBatch now).1.ring.queue) :
    item ∈ state.ring.queue ∨ ∃ batch ∈ inMemoryBatch, item.payload = .inMemory batch ∧ item.attempt = 0 := by
  unfold reserveOrEnqueueSlot at member
  split at member
  · exact Or.inl member
  · split at member
    · exact Or.inl member
    · simp only at member
      split at member
      · unfold assignSlot at member
        cases inMemoryBatch with
        | none => exact Or.inl (makeRoom_queue member)
        | some batch =>
          rcases List.mem_append.mp member with kept | last
          · exact Or.inl (makeRoom_queue kept)
          · rw [List.mem_singleton.mp last]
            exact Or.inr ⟨batch, rfl, rfl, rfl⟩
      · exact Or.inl (makeRoom_queue member)

theorem reserveOrEnqueueSlot_block {config : BufferConfig} (block : config.overflowPolicy = .block)
    {state : SignalRingState Batch} {batchBytes batchRows : Nat} {inMemoryBatch : Option Batch}
    {now : Instant} {item : QueuedBatch Batch} (member : item ∈ state.ring.queue) :
    item ∈ (reserveOrEnqueueSlot config state batchBytes batchRows inMemoryBatch now).1.ring.queue := by
  have kept := makeRoom_block block state batchBytes
  unfold reserveOrEnqueueSlot
  split
  · exact member
  · split
    · exact member
    · simp only
      split
      · unfold assignSlot
        cases inMemoryBatch with
        | none =>
          simp only [kept]
          exact member
        | some batch =>
          simp only [kept]
          exact List.mem_append_left _ member
      · rw [kept]
        exact member

theorem AppendReservation.rollbackSlot_queue (reservation : AppendReservation Batch)
    (state : SignalRingState Batch) : (reservation.rollbackSlot state).ring.queue = state.ring.queue := by
  unfold AppendReservation.rollbackSlot
  split <;> rfl

theorem ackLease_queue (state : SignalRingState Batch) (leased : List LeasedBatchMeta) (reset : Bool) :
    (ackLease state leased reset).1.ring.queue = state.ring.queue := by
  simp only [ackLease, SignalRing.ackEntries]
  split <;> rfl

theorem Lease.ack_queue (lease : Lease Batch) (state : SignalRingState Batch)
    (persisted : Except String Unit) : (lease.ack state persisted).ring.queue = state.ring.queue := by
  cases persisted <;> exact ackLease_queue state lease.leased true

namespace RingWorld

variable {config : BufferConfig} {origin : SignalRing Batch} {world next : RingWorld Batch}

theorem Sound.putBack_queue {firstSeq : Nat} {lease : Lease Batch} {others : List (Held (Lease Batch))}
    {leased : List LeasedBatchMeta} {marked : SignalRingState Batch} (sound : Sound config origin world)
    (taken : world.takeLease firstSeq = some (lease, others)) (same : SameBatches leased lease.leased)
    (ring : marked.ring = world.state.ring) (nextAttempt : Nat) (readyAt : Option Instant) :
    (∀ item, item ∈ (requeueLease marked lease.payloads leased nextAttempt readyAt).ring.queue ↔
      item ∈ world.state.ring.queue ∨ item ∈ lease.putBack leased nextAttempt readyAt) ∨
    (requeueLease marked lease.payloads leased nextAttempt readyAt).ring.queue = world.state.ring.queue ∧
      ∀ item ∈ lease.leased, world.state.ring.Gone item.seqId := by
  obtain ⟨wellFormed, _, owned | ⟨accounted, _, gone⟩, _⟩ := sound.taken taken
  · left
    intro item
    have marked' : Accounted { world.state with ring := marked.ring } world.liveReservations
        (lease.leased ++ (liveValues others).flatMap (·.leased)) := owned.1.flags ring rfl
    have queue : item ∈ (requeueLease marked lease.payloads leased nextAttempt readyAt).ring.queue ↔
        item ∈ marked.ring.queue ∨ item ∈ lease.putBack leased nextAttempt readyAt :=
      Transition.requeueLease_queue (same.accounted marked') (wellFormed.paired.trans same.length.symm)
        nextAttempt readyAt item
    rw [ring] at queue
    exact queue
  · right
    have marked' : Accounted { world.state with ring := marked.ring } world.liveReservations
        ((liveValues others).flatMap (·.leased)) := accounted.flags ring rfl
    have idle := marked'.requeueLease_gone lease.payloads (fun item (member : item ∈ leased) => by
      obtain ⟨other, listed, equal⟩ := same.mem member
      rw [ring, ← equal]
      exact gone other listed) nextAttempt readyAt
    have queue : (requeueLease marked lease.payloads leased nextAttempt readyAt).ring.queue =
        marked.ring.queue := congrArg (fun state => state.ring.queue) idle
    rw [ring] at queue
    exact ⟨queue, gone⟩

theorem Sound.nack_queue {inner : BufferInner} {firstSeq : Nat} {lease : Lease Batch}
    {others : List (Held (Lease Batch))} (sound : Sound config origin world)
    (taken : world.takeLease firstSeq = some (lease, others)) (failure : FailureClass) (now : Instant)
    (nowMs : Nat) (deadLetter persisted : Except String Unit) (item : QueuedBatch Batch) :
    (item ∈ world.state.ring.queue →
      item ∈ (world.resolveLease inner lease others failure now nowMs deadLetter persisted).state.ring.queue) ∧
    (item ∈ (world.resolveLease inner lease others failure now nowMs deadLetter persisted).state.ring.queue →
      item ∈ world.state.ring.queue ∨
        Arrives inner world (.nack firstSeq failure now nowMs deadLetter persisted) item) := by
  have ring : (Lease.markFailure world.state failure nowMs).ring = world.state.ring := by
    cases failure <;> rfl
  have keeps := lease.disposition_keeps inner world.state failure now nowMs deadLetter
  have seen : world.retried inner (.nack firstSeq failure now nowMs deadLetter persisted) =
      ((lease.disposition inner world.state failure now nowMs deadLetter).retried lease).map (lease, ·) := by
    simp [retried, taken]
  unfold resolveLease
  simp only
  generalize lease.disposition inner world.state failure now nowMs deadLetter = disposition at keeps seen ⊢
  cases disposition with
  | requeue leased nextAttempt readyAt =>
    rcases sound.putBack_queue taken keeps ring nextAttempt readyAt with all | ⟨unchanged, _⟩
    · refine ⟨fun held => (all item).mpr (Or.inl held), fun held => ?_⟩
      rcases (all item).mp held with old | new
      · exact Or.inl old
      · exact Or.inr (.retried seen new)
    · simp only [Lease.dispose, unchanged]
      exact ⟨id, Or.inl⟩
  | fail leased reason =>
    rcases sound.putBack_queue taken keeps ring 0 none with all | ⟨unchanged, _⟩
    · refine ⟨fun held => (all item).mpr (Or.inl held), fun held => ?_⟩
      rcases (all item).mp held with old | new
      · exact Or.inl old
      · exact Or.inr (.failed taken keeps new)
    · simp only [Lease.dispose, failLease, setFatal, unchanged]
      exact ⟨id, Or.inl⟩
  | quarantine =>
    have same : (lease.dispose (Lease.markFailure world.state failure nowMs) persisted
        .quarantine).ring.queue = world.state.ring.queue := by
      rw [← ring]
      cases persisted <;> exact ackLease_queue _ lease.leased false
    simp only [same]
    exact ⟨id, Or.inl⟩

theorem pop_queue (inner : BufferInner) (signal : SignalKind) (state : SignalRingState Batch) (now : Instant)
    (item : QueuedBatch Batch) :
    (item ∈ state.ring.queue → item ∈ (tryPopSignalLease inner signal state now).1.ring.queue ∨
      ∃ lease, (tryPopSignalLease inner signal state now).2.1 = some lease ∧
        item.seqId ∈ lease.leased.map (·.seqId)) ∧
    (item ∈ (tryPopSignalLease inner signal state now).1.ring.queue → item ∈ state.ring.queue) := by
  rcases tryPopSignalLease_cases inner signal state now with
    ⟨wait, drained, idle⟩ | ⟨front, taken, rest, formed, leased⟩
  · rw [idle]
    exact ⟨Or.inl, id⟩
  · rw [leased, formed.queue]
    refine ⟨fun held => ?_, fun held => List.mem_append_right _ held⟩
    rcases List.mem_append.mp held with inside | behind
    · refine Or.inr ⟨_, rfl, List.mem_map.mpr ⟨item.leasedMeta, ?_, rfl⟩⟩
      exact List.mem_map.mpr ⟨item, inside, rfl⟩
    · exact Or.inl behind

theorem Sound.arrives {inner : BufferInner} {signal : SignalKind} {action : RingAction Batch}
    (sound : Sound config origin world) (stepped : RingWorld.step inner signal world action = some next)
    {item : QueuedBatch Batch} (member : item ∈ next.state.ring.queue) :
    item ∈ world.state.ring.queue ∨ Arrives inner world action item := by
  cases action with
  | enqueue batch now =>
    obtain ⟨_, rfl⟩ := step_enqueue stepped
    rcases reserveOrEnqueueSlot_queue member with old | ⟨found, same, payload, fresh⟩
    · exact Or.inl old
    · cases same
      exact Or.inr (.enqueued payload fresh)
  | reserve frameBytesLen batchRows rows schema now =>
    obtain ⟨_, rfl⟩ := step_reserve stepped
    rcases reserveOrEnqueueSlot_queue member with old | ⟨found, same, _⟩
    · exact Or.inl old
    · cases same
  | finish seqId result now =>
    obtain ⟨⟨reservation, others⟩, taken, rfl⟩ := Option.map_eq_some_iff.mp stepped
    cases result with
    | ok written =>
      simp only [AppendReservation.finish] at member
      split at member
      · rcases mem_enqueueOrdered.mp member with rfl | old
        · exact Or.inr (.finished taken)
        · exact Or.inl old
      · exact Or.inl member
    | error reason =>
      simp only [AppendReservation.finish, recordStorageFailure, setFatal,
        AppendReservation.rollbackSlot_queue] at member
      exact Or.inl member
  | dropReservation seqId =>
    obtain ⟨⟨reservation, others⟩, taken, rfl⟩ := Option.map_eq_some_iff.mp stepped
    rw [AppendReservation.rollbackSlot_queue] at member
    exact Or.inl member
  | pop now =>
    cases stepped
    exact Or.inl ((pop_queue inner signal world.state now item).2 member)
  | quarantineRows firstSeq rows =>
    obtain ⟨_, _, rfl⟩ := Option.map_eq_some_iff.mp stepped
    exact Or.inl member
  | ack firstSeq persisted =>
    obtain ⟨⟨lease, others⟩, taken, rfl⟩ := Option.map_eq_some_iff.mp stepped
    simp only [Lease.ack_queue] at member
    exact Or.inl member
  | nack firstSeq failure now nowMs deadLetter persisted =>
    obtain ⟨⟨lease, others⟩, taken, rfl⟩ := Option.map_eq_some_iff.mp stepped
    exact (sound.nack_queue taken failure now nowMs deadLetter persisted item).2 member
  | dropLease firstSeq now nowMs =>
    obtain ⟨⟨lease, others⟩, taken, rfl⟩ := Option.map_eq_some_iff.mp stepped
    rcases sound.putBack_queue taken (SameBatches.stamped lease.leased now)
      (show (Lease.markTransient world.state nowMs).ring = world.state.ring from rfl) lease.nextAttempt none with
      all | ⟨unchanged, _⟩
    · rcases (all item).mp member with old | new
      · exact Or.inl old
      · have seen : world.retried inner (.dropLease firstSeq now nowMs) =
            some (lease, lease.putBack (lease.leased.map (Lease.stampFailure now)) lease.nextAttempt none) := by
          simp only [retried, taken, Option.map_some]
        exact Or.inr (.retried seen new)
    · simp only [Lease.drop, unchanged] at member
      exact Or.inl member
  | discard =>
    cases stepped
    cases member
  | _ =>
    cases stepped
    exact Or.inl member

/-- Under the blocking policy a step removes a batch from the queue only into a lease or by a discard. -/
theorem Sound.keeps {inner : BufferInner} {signal : SignalKind} {action : RingAction Batch}
    (sound : Sound inner.config origin world) (block : inner.config.overflowPolicy = .block)
    (stepped : RingWorld.step inner signal world action = some next) {item : QueuedBatch Batch}
    (member : item ∈ world.state.ring.queue) :
    item ∈ next.state.ring.queue ∨ action = .discard ∨
      ∃ now lease, action = .pop now ∧ (tryPopSignalLease inner signal world.state now).2.1 = some lease ∧
        item.seqId ∈ lease.leased.map (·.seqId) := by
  cases action with
  | enqueue batch now =>
    obtain ⟨_, rfl⟩ := step_enqueue stepped
    exact Or.inl (reserveOrEnqueueSlot_block block member)
  | reserve frameBytesLen batchRows rows schema now =>
    obtain ⟨_, rfl⟩ := step_reserve stepped
    exact Or.inl (reserveOrEnqueueSlot_block block member)
  | finish seqId result now =>
    obtain ⟨⟨reservation, others⟩, taken, rfl⟩ := Option.map_eq_some_iff.mp stepped
    left
    cases result with
    | ok written =>
      simp only [AppendReservation.finish]
      split
      · exact mem_enqueueOrdered.mpr (Or.inr member)
      · exact member
    | error reason =>
      simp only [AppendReservation.finish, recordStorageFailure, setFatal,
        AppendReservation.rollbackSlot_queue]
      exact member
  | dropReservation seqId =>
    obtain ⟨⟨reservation, others⟩, taken, rfl⟩ := Option.map_eq_some_iff.mp stepped
    left
    rw [AppendReservation.rollbackSlot_queue]
    exact member
  | pop now =>
    cases stepped
    rcases (pop_queue inner signal world.state now item).1 member with kept | ⟨lease, popped, inside⟩
    · exact Or.inl kept
    · exact Or.inr (Or.inr ⟨now, lease, rfl, popped, inside⟩)
  | quarantineRows firstSeq rows =>
    obtain ⟨_, _, rfl⟩ := Option.map_eq_some_iff.mp stepped
    exact Or.inl member
  | ack firstSeq persisted =>
    obtain ⟨⟨lease, others⟩, taken, rfl⟩ := Option.map_eq_some_iff.mp stepped
    simp only [Lease.ack_queue]
    exact Or.inl member
  | nack firstSeq failure now nowMs deadLetter persisted =>
    obtain ⟨⟨lease, others⟩, taken, rfl⟩ := Option.map_eq_some_iff.mp stepped
    exact Or.inl ((sound.nack_queue taken failure now nowMs deadLetter persisted item).1 member)
  | dropLease firstSeq now nowMs =>
    obtain ⟨⟨lease, others⟩, taken, rfl⟩ := Option.map_eq_some_iff.mp stepped
    left
    rcases sound.putBack_queue taken (SameBatches.stamped lease.leased now)
      (show (Lease.markTransient world.state nowMs).ring = world.state.ring from rfl) lease.nextAttempt none with
      all | ⟨unchanged, _⟩
    · exact (all item).mpr (Or.inl member)
    · simp only [Lease.drop, unchanged]
      exact member
  | discard => exact Or.inr (Or.inl rfl)
  | _ =>
    cases stepped
    exact Or.inl member

theorem Sound.retried_queue {inner : BufferInner} {signal : SignalKind} {action : RingAction Batch}
    {lease : Lease Batch} {items : List (QueuedBatch Batch)} (sound : Sound config origin world)
    (retried : world.retried inner action = some (lease, items))
    (stepped : RingWorld.step inner signal world action = some next) :
    (∀ item, item ∈ next.state.ring.queue ↔ item ∈ world.state.ring.queue ∨ item ∈ items) ∨
      ∀ item ∈ lease.leased, world.state.ring.Gone item.seqId := by
  cases action with
  | nack firstSeq failure now nowMs deadLetter persisted =>
    obtain ⟨⟨taken, others⟩, found, rfl⟩ := Option.map_eq_some_iff.mp stepped
    have ring : (Lease.markFailure world.state failure nowMs).ring = world.state.ring := by
      cases failure <;> rfl
    have keeps := taken.disposition_keeps inner world.state failure now nowMs deadLetter
    simp only [RingWorld.retried, found, Option.bind_some, Option.map_eq_some_iff, Prod.mk.injEq] at retried
    obtain ⟨built, disposed, rfl, rfl⟩ := retried
    unfold resolveLease
    simp only
    generalize taken.disposition inner world.state failure now nowMs deadLetter = disposition at keeps disposed ⊢
    cases disposition with
    | requeue leased nextAttempt readyAt =>
      cases disposed
      exact (sound.putBack_queue found keeps ring nextAttempt readyAt).imp_right And.right
    | fail leased reason => cases disposed
    | quarantine => cases disposed
  | dropLease firstSeq now nowMs =>
    obtain ⟨⟨taken, others⟩, found, rfl⟩ := Option.map_eq_some_iff.mp stepped
    simp only [RingWorld.retried, found, Option.map_some, Option.some.injEq, Prod.mk.injEq] at retried
    obtain ⟨rfl, rfl⟩ := retried
    exact (sound.putBack_queue found (SameBatches.stamped taken.leased now) rfl taken.nextAttempt none).imp_right
      And.right
  | _ => cases retried

theorem step_leases {inner : BufferInner} {signal : SignalKind} {action : RingAction Batch}
    (stepped : RingWorld.step inner signal world action = some next) {held : Held (Lease Batch)}
    (member : held ∈ next.leases) :
    (∃ old ∈ world.leases, old.value.payloads = held.value.payloads ∧ old.value.leased = held.value.leased ∧
        old.value.numRows = held.value.numRows) ∨
      ∃ now, action = .pop now ∧ (tryPopSignalLease inner signal world.state now).2.1 = some held.value := by
  have stays : held ∈ world.leases → ∃ old ∈ world.leases,
      old.value.payloads = held.value.payloads ∧ old.value.leased = held.value.leased ∧
        old.value.numRows = held.value.numRows := fun old => ⟨held, old, rfl, rfl, rfl⟩
  cases action with
  | finish seqId result now =>
    obtain ⟨_, _, rfl⟩ := Option.map_eq_some_iff.mp stepped
    exact Or.inl (stays member)
  | dropReservation seqId =>
    obtain ⟨_, _, rfl⟩ := Option.map_eq_some_iff.mp stepped
    exact Or.inl (stays member)
  | pop now =>
    cases stepped
    rcases List.mem_append.mp member with old | new
    · exact Or.inl (stays old)
    · obtain ⟨lease, listed, rfl⟩ := List.mem_map.mp new
      exact Or.inr ⟨now, rfl, Option.mem_toList.mp listed⟩
  | quarantineRows firstSeq rows =>
    obtain ⟨_, _, rfl⟩ := Option.map_eq_some_iff.mp stepped
    obtain ⟨old, listed, rfl⟩ := List.mem_map.mp member
    refine Or.inl ⟨old, listed, ?_⟩
    split <;> exact ⟨rfl, rfl, rfl⟩
  | ack firstSeq persisted =>
    obtain ⟨⟨lease, others⟩, taken, rfl⟩ := Option.map_eq_some_iff.mp stepped
    exact Or.inl (stays ((takeHeld_eq_some taken).1.subset member))
  | nack firstSeq failure now nowMs deadLetter persisted =>
    obtain ⟨⟨lease, others⟩, taken, rfl⟩ := Option.map_eq_some_iff.mp stepped
    exact Or.inl (stays ((takeHeld_eq_some taken).1.subset member))
  | dropLease firstSeq now nowMs =>
    obtain ⟨⟨lease, others⟩, taken, rfl⟩ := Option.map_eq_some_iff.mp stepped
    exact Or.inl (stays ((takeHeld_eq_some taken).1.subset member))
  | discard =>
    cases stepped
    obtain ⟨old, listed, rfl⟩ := List.mem_map.mp member
    exact Or.inl ⟨old, listed, rfl, rfl, rfl⟩
  | enqueue batch now =>
    obtain ⟨_, rfl⟩ := step_enqueue stepped
    exact Or.inl (stays member)
  | reserve frameBytesLen batchRows rows schema now =>
    obtain ⟨_, rfl⟩ := step_reserve stepped
    exact Or.inl (stays member)
  | _ =>
    cases stepped
    exact Or.inl (stays member)

end RingWorld

end OtelDatalake.Buffer
