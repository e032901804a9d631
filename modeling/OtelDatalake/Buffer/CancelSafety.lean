import Mathlib.Data.List.Zip
import Mathlib.Data.UInt
import OtelDatalake.Buffer.Passthrough

open Std OtelDatalake.Foundation

namespace OtelDatalake.Buffer

variable {Batch : Type} [RecordBatch Batch]

section Entries

variable {lease : Lease Batch} {leased : List LeasedBatchMeta}

theorem leaseOf_entries (inner : BufferInner) (signal : SignalKind) (now : Instant) (front : QueuedBatch Batch)
    (taken : List (QueuedBatch Batch)) :
    (leaseOf inner signal now front taken).entries = (front :: taken).map (·.entry) := by
  simp only [Lease.entries, leaseOf, List.map_map]
  exact List.zip_map'

theorem leaseOf_batches (inner : BufferInner) (signal : SignalKind) (now : Instant) (front : QueuedBatch Batch)
    (taken : List (QueuedBatch Batch)) :
    (leaseOf inner signal now front taken).batches =
      (leaseOf inner signal now front taken).payloads.filterMap (·.inMemoryBatch?) := by
  simp only [leaseOf]
  rw [List.filterMap_map]
  rfl

theorem putBack_entries (same : SameBatches leased lease.leased) (nextAttempt : Nat) (readyAt : Option Instant) :
    (lease.putBack leased nextAttempt readyAt).map (·.entry) = lease.entries := by
  rw [Lease.entries, ← same.seqIds, Lease.putBack, List.map_map, List.zip_map_left, ← List.zip_swap leased,
    List.map_map]
  rfl

end Entries

section Admission

variable {config : BufferConfig} {state : SignalRingState Batch}

theorem evictOldest_suffix (batchBytes budget fuel : Nat) (state : SignalRingState Batch) :
    (evictOldest batchBytes budget fuel state).1.ring.queue <:+ state.ring.queue := by
  induction fuel generalizing state with
  | zero => exact List.suffix_rfl
  | succ fuel ih =>
    unfold evictOldest
    split
    · exact List.suffix_rfl
    · split
      · exact List.suffix_rfl
      · rename_i front rest queue
        split
        · exact List.suffix_rfl
        · refine (ih _).trans ?_
          simp only [SignalRing.recordEvictedBatch, SignalRing.advanceWatermark, SignalRing.releaseEvicted]
          rw [queue]
          split <;> exact List.suffix_cons front rest

theorem makeRoom_suffix (config : BufferConfig) (state : SignalRingState Batch) (batchBytes : Nat) :
    (makeRoom config state batchBytes).1.ring.queue <:+ state.ring.queue := by
  unfold makeRoom
  split
  · exact evictOldest_suffix ..
  · exact List.suffix_rfl

theorem reserveOrEnqueueSlot_suffix (config : BufferConfig) (state : SignalRingState Batch)
    (batchBytes batchRows : Nat) (batch : Batch) (now : Instant) :
    let admitted := reserveOrEnqueueSlot config state batchBytes batchRows (some batch) now
    ∃ kept, kept <:+ state.ring.queue ∧
      ((admitted.2.1 ≠ .enqueued ∧ admitted.1.ring.queue = kept ∧ admitted.1.ring.nextSeq = state.ring.nextSeq) ∨
        admitted.2.1 = .enqueued ∧ admitted.1.ring.nextSeq = saturatingSucc state.ring.nextSeq ∧
          admitted.1.ring.queue = kept ++ [inMemoryItem state.ring.nextSeq batchBytes batchRows batch now]) := by
  have number := (makeRoom_steady state config batchBytes).nextSeq
  have room := makeRoom_suffix config state batchBytes
  unfold reserveOrEnqueueSlot
  split
  · exact ⟨_, List.suffix_rfl, Or.inl ⟨by simp, rfl, rfl⟩⟩
  · split
    · exact ⟨_, List.suffix_rfl, Or.inl ⟨by simp, rfl, rfl⟩⟩
    · simp only
      split
      · refine ⟨_, room, Or.inr ⟨rfl, ?_, ?_⟩⟩
        · simp [assignSlot, number]
        · simp [assignSlot, number]
      · exact ⟨_, room, Or.inl ⟨by simp, rfl, number⟩⟩

end Admission

namespace RingWorld

/-- A ring that is read by one receiver: `delivered` has left it in order, `current` is the lease that is held, and the
    rest stands behind in the order of its numbers, each under the batch that was admitted with it. -/
structure Consumed (config : BufferConfig) (delivered : List (Nat × BatchPayload Batch)) (current : List (Lease Batch))
    (admitted : List (Nat × Batch)) (ring : RingWorld Batch) : Prop where
  sound : Sound config ({} : SignalRing Batch) ring
  unreserved : ring.reservations = []
  current : ring.leases.map (·.value) = current
  ordered : Ascending Prod.fst (delivered ++ ring.stock)
  below : ∀ entry ∈ delivered ++ ring.stock, entry.1 < ring.state.ring.nextSeq
  acked : ∀ seq, (seq, .acked) ∈ ring.outcomes → seq ∈ delivered.map Prod.fst
  known : ∀ entry ∈ delivered ++ ring.stock, ∃ batch, (entry.1, batch) ∈ admitted ∧ entry.2 = .inMemory batch

variable {inner : BufferInner} {signal : SignalKind} {config : BufferConfig} {current later : List (Lease Batch)}
  {delivered more : List (Nat × BatchPayload Batch)} {admitted : List (Nat × Batch)} {ring next : RingWorld Batch}
  {action : RingAction Batch} {lease : Lease Batch}

theorem Consumed.shrink (consumed : Consumed inner.config delivered current admitted ring)
    (stepped : step inner signal ring action = some next)
    (number : next.state.ring.nextSeq = ring.state.ring.nextSeq)
    (unreserved : next.reservations = []) (held : next.leases.map (·.value) = later)
    (kept : (more ++ next.stock).Sublist (delivered ++ ring.stock))
    (acked : ∀ seq, (seq, .acked) ∈ next.outcomes → seq ∈ more.map Prod.fst) :
    Consumed inner.config more later admitted next := by
  obtain ⟨_, advance⟩ := consumed.sound.step stepped
  refine ⟨advance.sound consumed.sound, unreserved, held, consumed.ordered.sublist kept, ?_, acked, ?_⟩
  · intro entry member
    rw [number]
    exact consumed.below entry (kept.subset member)
  · exact fun entry member => consumed.known entry (kept.subset member)

theorem stock_of_leases {values : List (Lease Batch)} (held : ring.leases.map (·.value) = values) :
    ring.stock = values.flatMap (·.entries) ++ ring.state.ring.queue.map (·.entry) := by
  rw [stock, ← held, List.flatMap_map]

theorem Consumed.enqueue {batch : Batch} {now : Instant}
    (consumed : Consumed inner.config delivered current admitted ring)
    (stepped : step inner signal ring (.enqueue batch now) = some next) :
    Consumed inner.config delivered current (admitted ++
      if (reserveOrEnqueueSlot inner.config ring.state (RecordBatch.arrayMemorySize batch)
        (RecordBatch.numRows batch) (some batch) now).2.1 = .enqueued
      then [(ring.state.ring.nextSeq, batch)] else []) next := by
  obtain ⟨numbered, moved⟩ := step_enqueue stepped
  have held : next.leases = ring.leases := by rw [← moved, admitBatch]
  have unreserved : next.reservations = [] := by
    rw [← moved]
    simp only [admitBatch]
    split <;> simp [consumed.unreserved]
  have acked : ∀ seq, (seq, .acked) ∈ next.outcomes → seq ∈ delivered.map Prod.fst := by
    intro seq member
    rw [← moved] at member
    refine consumed.acked seq ?_
    simpa [admitBatch] using member
  have state : next.state = (reserveOrEnqueueSlot inner.config ring.state (RecordBatch.arrayMemorySize batch)
      (RecordBatch.numRows batch) (some batch) now).1 := by rw [← moved, admitBatch]
  obtain ⟨kept, behind, ⟨refused, queue, number⟩ | ⟨accepted, number, queue⟩⟩ :=
    reserveOrEnqueueSlot_suffix inner.config ring.state (RecordBatch.arrayMemorySize batch) (RecordBatch.numRows batch)
      batch now
  all_goals rw [← state] at queue number
  · rw [if_neg refused, List.append_nil]
    refine consumed.shrink stepped number unreserved (held ▸ consumed.current) ?_ acked
    rw [stock, stock, held, queue]
    exact (List.Sublist.refl _).append ((List.Sublist.refl _).append (behind.sublist.map _))
  · rw [if_pos accepted]
    obtain ⟨_, advance⟩ := consumed.sound.step stepped
    have split : ∃ left, left.Sublist (delivered ++ ring.stock) ∧
        delivered ++ next.stock = left ++ [(ring.state.ring.nextSeq, .inMemory batch)] := by
      refine ⟨delivered ++ (ring.leases.flatMap (·.value.entries) ++ kept.map (·.entry)), ?_, ?_⟩
      · exact (List.Sublist.refl _).append ((List.Sublist.refl _).append (behind.sublist.map _))
      · rw [stock, held, queue]
        simp [QueuedBatch.entry, inMemoryItem]
    obtain ⟨left, sublist, split⟩ := split
    refine ⟨advance.sound consumed.sound, unreserved, held ▸ consumed.current, ?_, ?_, acked, ?_⟩
    · rw [split]
      refine List.pairwise_append.mpr ⟨consumed.ordered.sublist sublist, List.pairwise_singleton _ _, ?_⟩
      intro low member high last
      rw [List.mem_singleton.mp last]
      exact consumed.below low (sublist.subset member)
    · rw [split, number, saturatingSucc_of_lt numbered]
      intro entry member
      rcases List.mem_append.mp member with old | last
      · exact (consumed.below entry (sublist.subset old)).trans (Nat.lt_succ_self _)
      · rw [List.mem_singleton.mp last]
        exact Nat.lt_succ_self _
    · rw [split]
      intro entry member
      rcases List.mem_append.mp member with old | last
      · obtain ⟨known, listed, same⟩ := consumed.known entry (sublist.subset old)
        exact ⟨known, List.mem_append_left _ listed, same⟩
      · rw [List.mem_singleton.mp last]
        exact ⟨batch, List.mem_append_right _ List.mem_cons_self, rfl⟩

theorem Consumed.other (consumed : Consumed inner.config delivered current admitted ring)
    (stepped : step inner signal ring action = some next)
    (others : PassthroughWorld.leavesLeases action = true ∨ action = .closeSenders) (silent : admits action = false) :
    Consumed inner.config delivered current admitted next := by
  have outcomes : ∀ seq, (seq, .acked) ∈ next.outcomes → (seq, .acked) ∈ ring.outcomes := by
    intro seq member
    cases action with
    | discard =>
      cases stepped
      simpa [settle] using member
    | enqueue => cases silent
    | storageFailure | advanceWatermark | dropReceiver | setBlockedSenders | closeSenders =>
      cases stepped
      exact member
    | _ => simp [PassthroughWorld.leavesLeases] at others
  have held : next.leases.map (·.value) = ring.leases.map (·.value) ∧ next.reservations = [] := by
    have none := consumed.unreserved
    cases action with
    | discard =>
      cases stepped
      simp [discardHeld, none]
    | enqueue => cases silent
    | storageFailure | advanceWatermark | dropReceiver | setBlockedSenders | closeSenders =>
      cases stepped
      exact ⟨rfl, none⟩
    | _ => simp [PassthroughWorld.leavesLeases] at others
  have queue : next.state.ring.queue.Sublist ring.state.ring.queue := by
    cases action with
    | discard =>
      cases stepped
      exact List.nil_sublist _
    | enqueue => cases silent
    | storageFailure | advanceWatermark | dropReceiver | setBlockedSenders | closeSenders =>
      cases stepped
      exact List.Sublist.refl _
    | _ => simp [PassthroughWorld.leavesLeases] at others
  refine consumed.shrink stepped (step_nextSeq stepped silent) held.2 (held.1.trans consumed.current) ?_
    (fun seq member => consumed.acked seq (outcomes seq member))
  rw [stock_of_leases held.1, stock_of_leases rfl]
  exact (List.Sublist.refl _).append ((List.Sublist.refl _).append (queue.map _))

theorem Consumed.pop {now : Instant} (consumed : Consumed inner.config delivered [] admitted ring)
    (stepped : step inner signal ring (.pop now) = some next) :
    Consumed inner.config delivered (tryPopSignalLease inner signal ring.state now).2.1.toList admitted next := by
  have empty : ring.leases = [] := List.map_eq_nil_iff.mp consumed.current
  have held : next.leases.map (·.value) = (tryPopSignalLease inner signal ring.state now).2.1.toList := by
    cases stepped
    simp [empty, Function.comp_def]
  have same : next.stock = ring.stock := by
    rw [stock_of_leases held, stock_of_leases consumed.current]
    cases stepped
    rcases tryPopSignalLease_cases inner signal ring.state now with
      ⟨wait, drained, idle⟩ | ⟨front, taken, rest, formed, popped⟩
    · rw [idle]
      rfl
    · rw [popped, formed.queue]
      simp [leaseOf_entries, SignalRing.leaseItems]
  refine consumed.shrink stepped (step_nextSeq stepped rfl) ?_ held ?_ ?_
  · cases stepped
    exact consumed.unreserved
  · rw [same]
  · cases stepped
    exact consumed.acked

theorem takeLease_single {discarded : Bool} (single : ring.leases = [⟨lease, discarded⟩]) :
    ring.takeLease lease.id.firstSeq = some (lease, []) := by
  simp [takeLease, takeHeld, single]

theorem Consumed.ack (consumed : Consumed inner.config delivered [lease] admitted ring)
    (stepped : step inner signal ring (.ack lease.id.firstSeq (.ok ())) = some next) :
    Consumed inner.config (delivered ++ lease.entries) [] admitted next := by
  obtain ⟨held, single, rfl⟩ := List.map_eq_singleton_iff.mp consumed.current
  have taken : ring.takeLease held.value.id.firstSeq = some (held.value, []) := takeLease_single single
  have acked := stepped
  simp only [step, taken, Option.map_some] at stepped
  have queue : next.state.ring.queue = ring.state.ring.queue := by
    cases stepped
    exact Lease.ack_queue ..
  refine consumed.shrink acked (step_nextSeq acked rfl) ?_ ?_ ?_ ?_
  · cases stepped
    exact consumed.unreserved
  · cases stepped
    rfl
  · rw [stock_of_leases consumed.current, stock, queue]
    cases stepped
    simp
  · have paired := (consumed.sound.wellFormed held (by simp [single])).paired
    cases stepped
    intro seq member
    rw [List.map_append, Lease.entries, List.map_fst_zip (by simp [paired])]
    rcases List.mem_append.mp member with old | new
    · exact List.mem_append_left _ (consumed.acked seq old)
    · obtain ⟨other, listed, equal⟩ := List.mem_map.mp new
      cases equal
      exact List.mem_append_right _ (List.mem_of_mem_filter listed)

/-- A dropped lease stands in front of the queue again, batch by batch, unless a discard has removed its batches. -/
theorem Consumed.dropLease_queue {now : Instant} {nowMs : Nat}
    (consumed : Consumed inner.config delivered [lease] admitted ring)
    (stepped : step inner signal ring (.dropLease lease.id.firstSeq now nowMs) = some next) :
    next.state.ring.queue =
        lease.putBack (lease.leased.map (Lease.stampFailure now)) lease.nextAttempt none ++ ring.state.ring.queue ∨
      next.state.ring.queue = ring.state.ring.queue ∧ ∀ item ∈ lease.leased, ring.state.ring.Gone item.seqId := by
  obtain ⟨held, single, rfl⟩ := List.map_eq_singleton_iff.mp consumed.current
  have taken : ring.takeLease held.value.id.firstSeq = some (held.value, []) := takeLease_single single
  have same := SameBatches.stamped held.value.leased now
  obtain ⟨_, advance⟩ := consumed.sound.step stepped
  simp only [step, taken, Option.map_some] at stepped
  rcases consumed.sound.putBack_queue taken same (Eq.refl (Lease.markTransient ring.state nowMs).ring)
    held.value.nextAttempt none with requeued | ⟨queue, gone⟩
  · left
    refine Ascending.eq_of_mem (advance.sound consumed.sound).accounted.balanced.ascending ?_ ?_
    · have ordered := consumed.ordered
      rw [stock_of_leases consumed.current, List.flatMap_singleton, ← putBack_entries same held.value.nextAttempt none,
        ← List.map_append] at ordered
      have entries := List.pairwise_map.mp (List.pairwise_append.mp ordered).2.1
      exact entries
    · cases stepped
      intro item
      rw [List.mem_append, or_comm]
      exact requeued item
  · right
    cases stepped
    exact ⟨queue, gone⟩

theorem Consumed.not_gone (consumed : Consumed inner.config delivered [lease] admitted ring)
    (live : ∀ held ∈ ring.leases, held.discarded = false) : ¬∀ item ∈ lease.leased, ring.state.ring.Gone item.seqId := by
  intro gone
  obtain ⟨held, single, rfl⟩ := List.map_eq_singleton_iff.mp consumed.current
  have member : held ∈ ring.leases := by simp [single]
  obtain ⟨item, listed⟩ := List.exists_mem_of_ne_nil _ (consumed.sound.wellFormed held member).nonempty
  have slot := consumed.sound.live_slot member (live held member) listed
  have missing := (gone item listed).1
  rw [ExtTreeMap.mem_iff_isSome_getElem?, slot] at missing
  exact missing rfl

theorem Consumed.dropLease {now : Instant} {nowMs : Nat}
    (consumed : Consumed inner.config delivered [lease] admitted ring)
    (stepped : step inner signal ring (.dropLease lease.id.firstSeq now nowMs) = some next) :
    Consumed inner.config delivered [] admitted next ∧ next.outcomes = ring.outcomes ∧
      ((∀ held ∈ ring.leases, held.discarded = false) → next.stock = ring.stock) := by
  have queue := consumed.dropLease_queue stepped
  have live := consumed.not_gone
  obtain ⟨held, single, rfl⟩ := List.map_eq_singleton_iff.mp consumed.current
  have taken : ring.takeLease held.value.id.firstSeq = some (held.value, []) := takeLease_single single
  have requeued : ∀ items, next.state.ring.queue = items ++ ring.state.ring.queue →
      next.stock = items.map (·.entry) ++ ring.state.ring.queue.map (·.entry) := by
    intro items front
    simp only [step, taken, Option.map_some] at stepped
    rw [stock, front]
    cases stepped
    simp
  have before : ring.stock = held.value.entries ++ ring.state.ring.queue.map (·.entry) := by
    rw [stock_of_leases consumed.current, List.flatMap_singleton]
  have whole : next.state.ring.queue = held.value.putBack (held.value.leased.map (Lease.stampFailure now))
      held.value.nextAttempt none ++ ring.state.ring.queue → next.stock = ring.stock := by
    intro front
    rw [requeued _ front, before, putBack_entries (SameBatches.stamped _ now)]
  have dropped := stepped
  simp only [step, taken, Option.map_some] at dropped
  refine ⟨consumed.shrink stepped (step_nextSeq stepped rfl) ?_ ?_ ?_ ?_, ?_, ?_⟩
  · cases dropped
    exact consumed.unreserved
  · cases dropped
    rfl
  · rcases queue with front | ⟨same, _⟩
    · rw [whole front]
    · rw [before, requeued [] same, List.map_nil, List.nil_append]
      exact (List.Sublist.refl _).append (List.sublist_append_right _ _)
  · cases dropped
    exact consumed.acked
  · cases dropped
    rfl
  · intro undiscarded
    rcases queue with front | ⟨_, gone⟩
    · exact whole front
    · exact absurd gone (live undiscarded)

theorem tryPopSignalLease_retry {state : SignalRingState Batch} {now : Instant} {front : QueuedBatch Batch}
    {rest : List (QueuedBatch Batch)} (queue : state.ring.queue = front :: rest)
    (capacity : state.ring.inflightLeases < inner.config.maxInflightLeases)
    (unreserved : state.ring.hasEarlierReserved front.seqId = false) (ready : front.readyAt = none)
    (retried : front.attempt ≠ 0) : (tryPopSignalLease inner signal state now).2.1.isSome = true := by
  have waits : ∀ check, flushWait inner state front check now = none := by
    intro check
    simp [flushWait, retried]
  unfold tryPopSignalLease
  simp only [queue, unreserved, ready, waits, SignalRing.notReady, Option.any_none, Nat.not_le.mpr capacity,
    if_false, Bool.false_eq_true, Option.isSome_some]

theorem Consumed.popped (consumed : Consumed config delivered [] admitted ring) {now : Instant} {lease : Lease Batch}
    (popped : (tryPopSignalLease inner signal ring.state now).2.1 = some lease) :
    lease.entries ≠ [] ∧ lease.entries <+: ring.stock := by
  rcases tryPopSignalLease_cases inner signal ring.state now with
    ⟨wait, drained, idle⟩ | ⟨front, taken, rest, formed, leased⟩
  · rw [idle] at popped
    cases popped
  · rw [leased] at popped
    cases popped
    rw [leaseOf_entries, stock_of_leases consumed.current, formed.queue, List.map_append]
    exact ⟨by simp, List.prefix_append _ _⟩

theorem Consumed.dropLease_pop {now popAt : Instant} {nowMs : Nat}
    (consumed : Consumed inner.config delivered [lease] admitted ring)
    (live : ∀ held ∈ ring.leases, held.discarded = false)
    (stepped : step inner signal ring (.dropLease lease.id.firstSeq now nowMs) = some next) :
    ∃ retried, (tryPopSignalLease inner signal next.state popAt).2.1 = some retried ∧
      retried.entries ≠ [] ∧ retried.entries <+: next.stock := by
  obtain ⟨after, -, -⟩ := consumed.dropLease stepped
  have front := (consumed.dropLease_queue stepped).resolve_right fun same => consumed.not_gone live same.2
  obtain ⟨held, single, rfl⟩ := List.map_eq_singleton_iff.mp consumed.current
  have member : held ∈ ring.leases := by simp [single]
  have wellFormed := consumed.sound.wellFormed held member
  have idle : next.liveLeases = [] := by
    rw [liveLeases, List.map_eq_nil_iff.mp after.current]
    rfl
  have capacity : next.state.ring.inflightLeases < inner.config.maxInflightLeases := by
    have room := consumed.sound.capacity
    rw [liveLeases, single] at room
    simp only [liveValues, live held member, List.filter_cons, Bool.not_false, if_true, List.filter_nil, List.map_cons,
      List.map_nil, List.length_singleton] at room
    rw [after.sound.inflightLeases, idle, List.length_nil]
    omega
  have unreserved : ∀ seqId, next.state.ring.hasEarlierReserved seqId = false := by
    intro seqId
    refine List.any_eq_false.mpr fun slot listed earlier => ?_
    simp only [Bool.and_eq_true, beq_iff_eq] at earlier
    have found := ExtTreeMap.mem_toList_iff_getElem?_eq_some.mp listed
    rw [earlier.2, after.sound.slot_iff] at found
    rw [liveReservations, after.unreserved] at found
    cases found
  cases items : held.value.putBack (held.value.leased.map (Lease.stampFailure now)) held.value.nextAttempt none with
  | nil =>
    rw [Lease.putBack, List.map_eq_nil_iff, List.zip_eq_nil_iff, List.map_eq_nil_iff, ← List.length_eq_zero_iff,
      wellFormed.paired, List.length_eq_zero_iff, or_self] at items
    exact absurd items wellFormed.nonempty
  | cons first later =>
    rw [items, List.cons_append] at front
    have requeued : first ∈ held.value.putBack (held.value.leased.map (Lease.stampFailure now))
        held.value.nextAttempt none := by simp [items]
    obtain ⟨entry, -, rfl⟩ := List.mem_map.mp requeued
    have retried : (tryPopSignalLease inner signal next.state popAt).2.1.isSome = true :=
      tryPopSignalLease_retry front capacity (unreserved _) rfl
        (by simp [SignalRing.Balanced.requeued, Lease.nextAttempt, u32Max])
    obtain ⟨lease, popped⟩ := Option.isSome_iff_exists.mp retried
    exact ⟨lease, popped, after.popped popped⟩

end RingWorld

namespace PassthroughWorld

variable {inner : BufferInner} {scope : Option SignalKind} {reader : BatchReader Batch}
  {world next : PassthroughWorld Batch} {stream : StreamWorld Batch}

def leasedFrom (world : PassthroughWorld Batch) (signal : SignalKind) : List (Lease Batch) :=
  (world.currentLease.filter fun lease => lease.id.signal = signal).toList

def admittedTo (world : PassthroughWorld Batch) (signal : SignalKind) : List (Nat × Batch) :=
  (world.admitted.filter fun entry => entry.1 = signal).map Prod.snd

/-- Every ring is read in order by the calls of the receiver, and a call returns what its lease reads. -/
structure Receiving (inner : BufferInner) (reader : BatchReader Batch) (world : PassthroughWorld Batch) : Prop where
  consumed : ∀ signal, RingWorld.Consumed inner.config (world.delivered signal) (world.leasedFrom signal)
    (world.admittedTo signal) (world.stream.rings signal)
  batches : ∀ lease ∈ world.currentLease, lease.batches = lease.payloads.filterMap (·.inMemoryBatch?)
  prepared : ∀ lease batch, world.call = .prepared lease (.ok batch) → reader.prepare lease.payloads = .ok batch
  read : ∀ delivery ∈ world.deliveries, reader.prepare delivery.lease.payloads = .ok delivery.batch

theorem mem_currentLease {lease : Lease Batch} (receiving : Receiving inner reader world)
    (current : world.currentLease = some lease) :
    RingWorld.Consumed inner.config (world.delivered lease.id.signal) [lease] (world.admittedTo lease.id.signal)
      (world.stream.rings lease.id.signal) := by
  have consumed := receiving.consumed lease.id.signal
  rw [leasedFrom, current] at consumed
  simpa [Option.filter] using consumed

theorem Receiving.moves (receiving : Receiving inner reader world) (rings : next.stream.rings = world.stream.rings)
    (current : next.currentLease = world.currentLease) (deliveries : next.deliveries = world.deliveries)
    (admitted : next.admitted = world.admitted)
    (prepared : ∀ lease batch, next.call = .prepared lease (.ok batch) → reader.prepare lease.payloads = .ok batch) :
    Receiving inner reader next where
  consumed signal := by
    rw [delivered, leasedFrom, admittedTo, rings, current, deliveries, admitted]
    exact receiving.consumed signal
  batches := by
    rw [current]
    exact receiving.batches
  prepared := prepared
  read := by
    rw [deliveries]
    exact receiving.read

theorem prepare_single {lease : Lease Batch} {batch : Batch} (reader : BatchReader Batch)
    (inMemory : ∀ payload ∈ lease.payloads, ∃ batch, payload = .inMemory batch)
    (batches : lease.batches = lease.payloads.filterMap (·.inMemoryBatch?)) (single : lease.batches = [batch]) :
    reader.prepare lease.payloads = .ok batch := by
  have all : ∀ payloads : List (BatchPayload Batch), (∀ payload ∈ payloads, ∃ batch, payload = .inMemory batch) →
      payloads = (payloads.filterMap (·.inMemoryBatch?)).map .inMemory := by
    intro payloads
    induction payloads with
    | nil => exact fun _ => rfl
    | cons first rest ih =>
      intro inMemory
      obtain ⟨held, rfl⟩ := inMemory first List.mem_cons_self
      have later := ih fun payload member => inMemory payload (List.mem_cons_of_mem _ member)
      exact congrArg (BatchPayload.inMemory held :: ·) later
  rw [all lease.payloads inMemory, ← batches, single]
  rfl

theorem finish_deliveries (result : Except String (Option (Delivery Batch))) :
    (world.finish stream result).deliveries = world.deliveries ++ result.toOption.join.toList := by
  rw [deliveries, finish, List.filterMap_append, deliveries]
  cases result with
  | error reason => rfl
  | ok delivery => cases delivery <;> rfl

theorem Receiving.release {lease : Lease Batch} {action : RingAction Batch} (receiving : Receiving inner reader world)
    (current : world.currentLease = some lease)
    (stepped : world.stream.stepRing inner lease.id.signal action = some next.stream) (idle : next.call = .idle)
    (admitted : next.admitted = world.admitted)
    (delivered : ∀ signal ≠ lease.id.signal, next.delivered signal = world.delivered signal)
    (read : ∀ delivery ∈ next.deliveries, reader.prepare delivery.lease.payloads = .ok delivery.batch)
    (released : ∀ ring, (world.stream.rings lease.id.signal).step inner lease.id.signal action = some ring →
      RingWorld.Consumed inner.config (next.delivered lease.id.signal) [] (world.admittedTo lease.id.signal) ring) :
    Receiving inner reader next := by
  obtain ⟨ring, moved, rings⟩ := Option.map_eq_some_iff.mp stepped
  have none : next.currentLease = none := by
    rw [currentLease, idle]
  refine ⟨fun signal => ?_, by simp [none], by simp [idle], read⟩
  rw [leasedFrom, none, admittedTo, admitted, ← rings]
  by_cases same : signal = lease.id.signal
  · subst same
    simp only [StreamWorld.setRing, Function.update_self]
    exact released ring moved
  · have other := receiving.consumed signal
    rw [leasedFrom, current] at other
    simp only [StreamWorld.setRing, Function.update_of_ne same]
    rw [delivered signal same]
    simpa [Option.filter, Ne.symm same, admittedTo] using other

theorem Consumed.payloads {delivered : List (Nat × BatchPayload Batch)} {admitted : List (Nat × Batch)}
    {lease : Lease Batch} {ring : RingWorld Batch}
    (consumed : RingWorld.Consumed inner.config delivered [lease] admitted ring) :
    ∀ payload ∈ lease.payloads, ∃ batch, payload = .inMemory batch := by
  intro payload member
  obtain ⟨held, single, rfl⟩ := List.map_eq_singleton_iff.mp consumed.current
  have paired := (consumed.sound.wellFormed held (by simp [single])).paired
  have entry : payload ∈ held.value.entries.map Prod.snd := by
    rw [Lease.entries, List.map_snd_zip (by simp [paired])]
    exact member
  obtain ⟨⟨seq, payload⟩, listed, rfl⟩ := List.mem_map.mp entry
  obtain ⟨batch, _, same⟩ := consumed.known (seq, payload) (by
    rw [RingWorld.stock_of_leases consumed.current, List.flatMap_singleton]
    simp [listed])
  exact ⟨batch, same⟩

theorem stepRing_consumed {before : StreamWorld Batch} {own : SignalKind} {moved : RingAction Batch}
    {delivered : SignalKind → List (Nat × BatchPayload Batch)} {current : SignalKind → List (Lease Batch)}
    {admitted : SignalKind → List (Nat × Batch)}
    (consumed : ∀ signal, RingWorld.Consumed inner.config (delivered signal) (current signal) (admitted signal)
      (before.rings signal))
    (others : leavesLeases moved = true ∨ moved = .closeSenders) (silent : RingWorld.admits moved = false)
    (stepped : before.stepRing inner own moved = some stream) :
    stream.receiver = before.receiver ∧ ∀ signal, RingWorld.Consumed inner.config (delivered signal) (current signal)
      (admitted signal) (stream.rings signal) := by
  obtain ⟨ring, moves, rfl⟩ := Option.map_eq_some_iff.mp stepped
  refine ⟨rfl, fun signal => ?_⟩
  by_cases same : signal = own
  · subst same
    simp only [StreamWorld.setRing, Function.update_self]
    exact (consumed signal).other moves others silent
  · simp only [StreamWorld.setRing, Function.update_of_ne same]
    exact consumed signal

theorem enqueue_consumed {own : SignalKind} {batch : Batch} {now : Instant} (receiving : Receiving inner reader world)
    (stepped : world.stream.stepRing inner own (.enqueue batch now) = some stream) :
    stream.receiver = world.stream.receiver ∧ ∀ signal, RingWorld.Consumed inner.config (world.delivered signal)
      (world.leasedFrom signal) (world.admittedTo signal ++ ((admits inner world.stream
        (.ring own (.enqueue batch now))).filter fun entry => entry.1 = signal).map Prod.snd)
      (stream.rings signal) := by
  obtain ⟨ring, moves, rfl⟩ := Option.map_eq_some_iff.mp stepped
  refine ⟨rfl, fun signal => ?_⟩
  by_cases same : signal = own
  · subst same
    have admitted := (receiving.consumed signal).enqueue moves
    simp only [StreamWorld.setRing, Function.update_self, admits]
    split at admitted
    · rename_i accepted
      rw [if_pos accepted]
      simpa using admitted
    · rename_i refused
      rw [if_neg refused]
      simpa using admitted
  · have unchanged := receiving.consumed signal
    simp only [StreamWorld.setRing, Function.update_of_ne same, admits]
    split
    · simpa [Ne.symm same] using unchanged
    · simpa using unchanged

theorem other_consumed {action : StreamAction Batch} (receiving : Receiving inner reader world)
    (other : isOther action = true) (stepped : world.stream.step inner scope action = some stream) :
    stream.receiver = world.stream.receiver ∧ ∀ signal, RingWorld.Consumed inner.config (world.delivered signal)
      (world.leasedFrom signal) (world.admittedTo signal ++
        ((admits inner world.stream action).filter fun entry => entry.1 = signal).map Prod.snd)
      (stream.rings signal) := by
  have consumed : ∀ signal, RingWorld.Consumed inner.config (world.delivered signal) (world.leasedFrom signal)
      (world.admittedTo signal ++ []) (world.stream.rings signal) := by
    intro signal
    rw [List.append_nil]
    exact receiving.consumed signal
  cases action with
  | ring own action =>
    cases action with
    | enqueue batch now => exact enqueue_consumed receiving stepped
    | storageFailure | advanceWatermark | discard | dropReceiver | setBlockedSenders =>
      exact stepRing_consumed consumed (Or.inl rfl) rfl stepped
    | _ => cases other
  | cloneSender index =>
    obtain ⟨sender, _, rfl⟩ := Option.map_eq_some_iff.mp stepped
    exact ⟨rfl, consumed⟩
  | dropSender index =>
    obtain ⟨sender, _, rfl⟩ := Option.map_eq_some_iff.mp stepped
    exact ⟨rfl, consumed⟩
  | countDown index =>
    simp only [StreamWorld.step] at stepped
    split at stepped
    · cases stepped
      exact ⟨rfl, consumed⟩
    · cases stepped
  | closeRing index =>
    simp only [StreamWorld.step] at stepped
    split at stepped
    · rename_i rest own found
      have closed := stepRing_consumed (by exact consumed) (Or.inr rfl) rfl stepped
      exact closed
    · cases stepped
  | nextLease | enable | tryPop => cases other

theorem Receiving.other {action : StreamAction Batch} (receiving : Receiving inner reader world)
    (other : isOther action = true) (stepped : world.stream.step inner scope action = some stream) :
    Receiving inner reader
      { world with stream := stream, admitted := world.admitted ++ admits inner world.stream action } := by
  obtain ⟨receiver, consumed⟩ := other_consumed receiving other stepped
  have current : { world with stream := stream,
                              admitted := world.admitted ++ admits inner world.stream action }.currentLease =
      world.currentLease := by
    simp only [currentLease, receiver]
  refine ⟨fun signal => ?_, current ▸ receiving.batches, receiving.prepared, receiving.read⟩
  rw [leasedFrom, current, admittedTo, List.filter_append, List.map_append]
  exact consumed signal

theorem Receiving.acquire {own : SignalKind} {ring : RingWorld Batch} (receiving : Receiving inner reader world)
    (none : world.currentLease = none) (leasing : next.call = .leasing)
    (rings : next.stream.rings = Function.update world.stream.rings own ring)
    (returned : next.returned = world.returned) (admitted : next.admitted = world.admitted)
    (consumed : RingWorld.Consumed inner.config (world.delivered own) next.currentLease.toList
      (world.admittedTo own) ring)
    (taken : ∀ lease ∈ next.currentLease, lease.id.signal = own ∧
      lease.batches = lease.payloads.filterMap (·.inMemoryBatch?)) : Receiving inner reader next := by
  refine ⟨fun signal => ?_, fun lease current => (taken lease current).2, by simp [leasing], ?_⟩
  · have before := receiving.consumed signal
    rw [leasedFrom, none] at before
    rw [delivered, deliveries, returned, admittedTo, admitted, rings, leasedFrom]
    by_cases same : signal = own
    · subst same
      have filtered : next.currentLease.filter (fun lease => lease.id.signal = signal) = next.currentLease := by
        cases current : next.currentLease with
        | none => rfl
        | some lease => simp [Option.filter, (taken lease current).1]
      rw [Function.update_self, filtered]
      exact consumed
    · have filtered : next.currentLease.filter (fun lease => lease.id.signal = signal) = Option.none := by
        refine Option.filter_eq_none_iff.mpr fun lease current => ?_
        simpa [(taken lease current).1] using Ne.symm same
      rw [Function.update_of_ne same, filtered]
      exact before
  · rw [deliveries, returned]
    exact receiving.read

theorem Receiving.tryPop (receiving : Receiving inner reader world) (leasing : world.call = .leasing)
    (none : world.currentLease = none) (stepped : world.stream.step inner scope .tryPop = some stream) :
    Receiving inner reader { world with stream := stream } := by
  simp only [StreamWorld.step] at stepped
  split at stepped
  · rename_i now own left allDrained deadline found
    simp only [StreamWorld.tryPop, StreamWorld.stepRing, Option.map_map, Option.map_eq_some_iff,
      Function.comp_apply] at stepped
    obtain ⟨ring, moves, rfl⟩ := stepped
    have before := fun signal => receiving.consumed signal
    simp only [leasedFrom, none, Option.filter_none, Option.toList_none] at before
    have popped := (before own).pop moves
    have signalOf : ∀ lease ∈ (tryPopSignalLease inner own (world.stream.rings own).state now).2.1,
        lease.id.signal = own ∧ lease.batches = lease.payloads.filterMap (·.inMemoryBatch?) := by
      intro lease leased
      rcases tryPopSignalLease_cases inner own (world.stream.rings own).state now with
        ⟨wait, drained, idle⟩ | ⟨front, taken, rest, formed, formedLease⟩
      · rw [idle] at leased
        cases leased
      · rw [formedLease] at leased
        cases leased
        exact ⟨rfl, leaseOf_batches inner own now front taken⟩
    generalize tryPopSignalLease inner own (world.stream.rings own).state now = result at popped signalOf
    obtain ⟨state, lease, ready, drained⟩ := result
    cases lease with
    | none =>
      refine receiving.acquire none leasing rfl rfl rfl ?_ ?_
      · simp only [currentLease, leasing]
        exact popped
      · simp [currentLease, leasing]
    | some lease =>
      refine receiving.acquire none leasing rfl rfl rfl ?_ ?_
      · simp only [currentLease, leasing]
        exact popped
      · simp only [currentLease, leasing]
        exact signalOf
  · rename_i now allDrained deadline found
    cases stepped
    refine receiving.moves rfl ?_ rfl rfl (by simp [leasing])
    rw [none, currentLease]
    simp only [leasing]
    cases allDrained <;> rfl
  · cases stepped

theorem Receiving.checkFatal {phase : ReceiverPhase Batch} (receiving : Receiving inner reader world)
    (leasing : world.call = .leasing) (none : world.currentLease = none) (empty : ∀ lease, phase ≠ .returned (.ok lease)) :
    Receiving inner reader { world with stream := world.stream.checkFatal phase } := by
  have rings : (world.stream.checkFatal phase).rings = world.stream.rings := by
    unfold StreamWorld.checkFatal
    split <;> rfl
  refine receiving.moves rings ?_ rfl rfl (by simp [leasing])
  rw [none, currentLease]
  simp only [leasing]
  split
  · rename_i lease found
    unfold StreamWorld.checkFatal at found
    split at found
    · cases found
    · exact absurd found (empty lease)
  · rfl

theorem delivered_finish (result : Except String (Option (Delivery Batch))) (signal : SignalKind) :
    (world.finish stream result).delivered signal = world.delivered signal ++
      (result.toOption.join.toList.filter fun delivery => delivery.lease.id.signal = signal).flatMap
        (·.lease.entries) := by
  rw [delivered, finish_deliveries, List.filter_append, List.flatMap_append]
  rfl

theorem Receiving.poll {now : Instant} {nowMs : Nat} (receiving : Receiving inner reader world)
    (polled : world.poll inner scope now nowMs = some next) : Receiving inner reader next := by
  unfold PassthroughWorld.poll at polled
  split at polled
  · cases polled
  · cases polled
  · rename_i leasing
    split at polled
    · cases polled
    · rename_i started found
      obtain ⟨stream, stepped, rfl⟩ := Option.map_eq_some_iff.mp polled
      simp only [StreamWorld.step, found] at stepped
      cases stepped
      exact receiving.checkFatal leasing (by simp [currentLease, leasing, found]) (by simp)
    · rename_i found
      obtain ⟨stream, stepped, rfl⟩ := Option.map_eq_some_iff.mp polled
      exact receiving.tryPop leasing (by simp [currentLease, leasing, found]) stepped
    · rename_i deadline found
      obtain ⟨stream, stepped, rfl⟩ := Option.map_eq_some_iff.mp polled
      simp only [StreamWorld.step, found] at stepped
      cases stepped
      exact receiving.checkFatal leasing (by simp [currentLease, leasing, found]) (by simp)
    · rename_i reason found
      cases polled
      refine receiving.moves rfl (by simp [currentLease, leasing, found, finish]) ?_ rfl (by simp [finish])
      rw [finish_deliveries]
      exact List.append_nil _
    · rename_i found
      cases polled
      refine receiving.moves rfl (by simp [currentLease, leasing, found, finish]) ?_ rfl (by simp [finish])
      rw [finish_deliveries]
      exact List.append_nil _
    · rename_i lease found
      cases polled
      exact receiving.moves rfl (by simp [currentLease, leasing, found]) rfl rfl (by simp)
  · rename_i lease holding
    have current : world.currentLease = some lease := by simp [currentLease, holding]
    split at polled
    · rename_i batch single
      cases polled
      refine receiving.moves rfl current.symm rfl rfl ?_
      intro other found prepared
      cases prepared
      exact prepare_single reader (Consumed.payloads (mem_currentLease receiving current))
        (receiving.batches lease current) single
    · split at polled
      · cases polled
        exact receiving.moves rfl current.symm rfl rfl (by simp)
      · cases polled
        exact receiving.moves rfl current.symm rfl rfl (by simp)
  · rename_i lease batch prepared
    have current : world.currentLease = some lease := by simp [currentLease, prepared]
    obtain ⟨stream, stepped, rfl⟩ := Option.map_eq_some_iff.mp polled
    refine receiving.release current stepped rfl rfl ?_ ?_ ?_
    · intro signal other
      rw [delivered_finish]
      simp [Except.toOption, Ne.symm other]
    · rw [finish_deliveries]
      intro delivery member
      rcases List.mem_append.mp member with old | new
      · exact receiving.read delivery old
      · cases List.mem_singleton.mp new
        exact receiving.prepared lease batch prepared
    · intro ring moved
      have acked := (mem_currentLease receiving current).ack moved
      rw [delivered_finish]
      simpa [Except.toOption] using acked
  · rename_i lease reason prepared
    have current : world.currentLease = some lease := by simp [currentLease, prepared]
    obtain ⟨stream, stepped, rfl⟩ := Option.map_eq_some_iff.mp polled
    refine receiving.release current stepped rfl rfl ?_ ?_ ?_
    · intro signal _
      rw [delivered_finish]
      simp [Except.toOption]
    · rw [finish_deliveries]
      simpa [Except.toOption] using receiving.read
    · intro ring moved
      have dropped := ((mem_currentLease receiving current).dropLease moved).1
      rw [delivered_finish]
      simpa [Except.toOption] using dropped

theorem Receiving.cancel {now : Instant} {nowMs : Nat} (receiving : Receiving inner reader world)
    (cancelled : world.cancel inner now nowMs = some next) : Receiving inner reader next := by
  unfold PassthroughWorld.cancel at cancelled
  split at cancelled
  · rename_i leasing
    split at cancelled
    · rename_i deadline found
      cases cancelled
      exact receiving.moves rfl (by simp [currentLease, leasing, found]) rfl rfl (by simp)
    · cases cancelled
  · rename_i lease preparing
    have current : world.currentLease = some lease := by simp [currentLease, preparing]
    obtain ⟨stream, stepped, rfl⟩ := Option.map_eq_some_iff.mp cancelled
    refine receiving.release current stepped rfl rfl (fun _ _ => rfl) receiving.read ?_
    intro ring moved
    exact ((mem_currentLease receiving current).dropLease moved).1
  · cases cancelled

theorem Receiving.step {action : PassthroughAction Batch} (receiving : Receiving inner reader world)
    (stepped : world.step inner scope reader action = some next) : Receiving inner reader next := by
  cases action with
  | other action =>
    simp only [PassthroughWorld.step] at stepped
    split at stepped
    · rename_i other
      obtain ⟨stream, moved, rfl⟩ := Option.map_eq_some_iff.mp stepped
      exact receiving.other other moved
    · cases stepped
  | call now =>
    simp only [PassthroughWorld.step] at stepped
    split at stepped
    · rename_i idle
      simp only [StreamWorld.step, Option.map_some, Option.some.injEq] at stepped
      have started : Receiving inner reader
          { world with stream := { world.stream with receiver := .idle }, call := .leasing } :=
        receiving.moves rfl (by simp [currentLease, idle]) rfl rfl (by simp)
      subst stepped
      exact started.checkFatal rfl rfl (by simp)
    · cases stepped
  | poll now nowMs => exact receiving.poll stepped
  | complete joined =>
    simp only [PassthroughWorld.step] at stepped
    split at stepped
    · rename_i lease preparing
      cases stepped
      refine receiving.moves rfl (by simp [currentLease, preparing]) rfl rfl ?_
      intro other batch prepared
      cases joined with
      | error reason => cases prepared
      | ok done =>
        obtain ⟨rfl, read⟩ := ReceiveCall.prepared.inj prepared
        exact read
    · cases stepped
  | cancel now nowMs => exact receiving.cancel stepped

theorem receiving_opened (inner : BufferInner) (reader : BatchReader Batch) (senders : List (Option SignalKind)) :
    Receiving inner reader (opened senders) where
  consumed signal :=
    { sound := Opened.new.sound inner.config
      unreserved := rfl
      current := rfl
      ordered := List.Pairwise.nil
      below := by simp [delivered, deliveries, opened, RingWorld.stock, StreamWorld.opened]
      acked := by simp [opened, StreamWorld.opened]
      known := by simp [delivered, deliveries, opened, RingWorld.stock, StreamWorld.opened] }
  batches := by simp [currentLease, opened]
  prepared := by simp [opened]
  read := by simp [deliveries, opened]

theorem Receiving.acked_returned (receiving : Receiving inner reader world) {signal : SignalKind} {seq : Nat}
    (acked : (seq, .acked) ∈ (world.stream.rings signal).outcomes) :
    ∃ delivery ∈ world.deliveries, delivery.lease.id.signal = signal ∧
      reader.prepare delivery.lease.payloads = .ok delivery.batch ∧
      ∃ batch, (signal, seq, batch) ∈ world.admitted ∧ (seq, .inMemory batch) ∈ delivery.lease.entries := by
  have consumed := receiving.consumed signal
  obtain ⟨⟨number, payload⟩, member, rfl⟩ := List.mem_map.mp (consumed.acked seq acked)
  obtain ⟨batch, known, same⟩ := consumed.known _ (List.mem_append_left _ member)
  obtain ⟨delivery, returned, entry⟩ := List.mem_flatMap.mp member
  obtain ⟨listed, own⟩ := List.mem_filter.mp returned
  obtain ⟨⟨other, admitted⟩, stored, rfl⟩ := List.mem_map.mp known
  obtain ⟨kept, equal⟩ := List.mem_filter.mp stored
  simp only [decide_eq_true_eq] at own equal
  simp only at same
  subst same equal
  exact ⟨delivery, listed, own, receiving.read delivery listed, batch, kept, entry⟩

theorem Receiving.cancel_ring {now : Instant} {nowMs : Nat} (receiving : Receiving inner reader world)
    (cancelled : world.cancel inner now nowMs = some next) (signal : SignalKind) :
    (next.stream.rings signal).outcomes = (world.stream.rings signal).outcomes ∧
      (next.stream.rings signal).leases = [] ∧
      ((∀ held ∈ (world.stream.rings signal).leases, held.discarded = false) →
        (next.stream.rings signal).stock = (world.stream.rings signal).stock ∧
        ((world.stream.rings signal).leases ≠ [] → ∀ popAt, ∃ lease,
          (tryPopSignalLease inner signal (next.stream.rings signal).state popAt).2.1 = some lease ∧
            lease.entries ≠ [] ∧ lease.entries <+: (next.stream.rings signal).stock)) := by
  have unheld : ∀ signal, world.leasedFrom signal = [] → (world.stream.rings signal).leases = [] := by
    intro signal none
    have current := (receiving.consumed signal).current
    rw [none] at current
    exact List.map_eq_nil_iff.mp current
  unfold PassthroughWorld.cancel at cancelled
  split at cancelled
  · rename_i leasing
    split at cancelled
    · rename_i deadline found
      cases cancelled
      have empty := unheld signal (by simp [leasedFrom, currentLease, leasing, found])
      exact ⟨rfl, empty, fun _ => ⟨rfl, fun held => absurd empty held⟩⟩
    · cases cancelled
  · rename_i lease preparing
    have current : world.currentLease = some lease := by simp [currentLease, preparing]
    obtain ⟨stream, stepped, rfl⟩ := Option.map_eq_some_iff.mp cancelled
    obtain ⟨ring, moved, rfl⟩ := Option.map_eq_some_iff.mp stepped
    by_cases same : signal = lease.id.signal
    · subst same
      have consumed := mem_currentLease receiving current
      obtain ⟨after, outcomes, stock⟩ := consumed.dropLease moved
      simp only [StreamWorld.setRing, Function.update_self]
      refine ⟨outcomes, List.map_eq_nil_iff.mp after.current, fun live => ⟨stock live, fun _ popAt => ?_⟩⟩
      exact consumed.dropLease_pop live moved
    · have empty := unheld signal (by simp [leasedFrom, current, Option.filter, Ne.symm same])
      have unchanged : (world.stream.setRing lease.id.signal ring).rings signal = world.stream.rings signal :=
        Function.update_of_ne same ..
      exact ⟨congrArg (·.outcomes) unchanged, (congrArg (·.leases) unchanged).trans empty,
        fun _ => ⟨congrArg (·.stock) unchanged, fun held => absurd empty held⟩⟩
  · cases cancelled

/-- Whenever a call of `recv_passthrough` is cancelled, a batch has only been acknowledged if it was returned, and the
    batches of the lease that the call held are the next ones that later calls return, in the same order. -/
theorem recvPassthrough_cancelSafe (inner : BufferInner) (scope : Option SignalKind) (reader : BatchReader Batch)
    (senders : List (Option SignalKind)) {world : PassthroughWorld Batch}
    (run : Run (step inner scope reader) (fun _ _ => True) (opened senders) world) :
    (∀ signal seq, (seq, .acked) ∈ (world.stream.rings signal).outcomes →
      ∃ delivery ∈ world.deliveries, delivery.lease.id.signal = signal ∧
        reader.prepare delivery.lease.payloads = .ok delivery.batch ∧
        ∃ batch, (signal, seq, batch) ∈ world.admitted ∧ (seq, .inMemory batch) ∈ delivery.lease.entries) ∧
    (∀ signal, Ascending Prod.fst (world.delivered signal ++ (world.stream.rings signal).stock)) ∧
    ∀ now nowMs next, world.step inner scope reader (.cancel now nowMs) = some next →
      (next.call = .idle ∧ next.returned = world.returned) ∧ ∀ signal,
      (next.stream.rings signal).outcomes = (world.stream.rings signal).outcomes ∧
      (next.stream.rings signal).leases = [] ∧
      ((∀ held ∈ (world.stream.rings signal).leases, held.discarded = false) →
        (next.stream.rings signal).stock = (world.stream.rings signal).stock ∧
        ((world.stream.rings signal).leases ≠ [] → ∀ popAt, ∃ lease,
          (tryPopSignalLease inner signal (next.stream.rings signal).state popAt).2.1 = some lease ∧
            lease.entries ≠ [] ∧ lease.entries <+: (next.stream.rings signal).stock)) := by
  have receiving : Receiving inner reader world := by
    refine run.invariant (Receiving inner reader) (receiving_opened inner reader senders) ?_
    intro before action after receiving _ stepped
    exact receiving.step stepped
  refine ⟨fun signal seq acked => receiving.acked_returned acked, fun signal => (receiving.consumed signal).ordered, ?_⟩
  intro now nowMs next cancelled
  refine ⟨?_, receiving.cancel_ring cancelled⟩
  simp only [step, PassthroughWorld.cancel] at cancelled
  split at cancelled
  · split at cancelled
    · cases cancelled
      exact ⟨rfl, rfl⟩
    · cases cancelled
  · obtain ⟨stream, _, rfl⟩ := Option.map_eq_some_iff.mp cancelled
    exact ⟨rfl, rfl⟩
  · cases cancelled

def plainReader : BatchReader PlainBatch where
  readFrameAt _ _ _ := .error "no disk"
  concatBatches schema batches :=
    .ok ⟨schema, (batches.map (·.rows)).sum, batches.flatMap (·.body)⟩

/-- A lease of two batches, up to the blocking task that joins them. -/
def cancelledPrepare : List (PassthroughAction PlainBatch) :=
  [.other (.ring .logs (.enqueue ⟨0, 2, [1, 2]⟩ 5)), .other (.ring .logs (.enqueue ⟨0, 1, [3]⟩ 5)), .call 6, .poll 6 1,
    .poll 6 1, .poll 6 1, .poll 6 1]

theorem recvPassthrough_cancelSafe_prepare :
    ∃ world next, execute (step RingWorld.plainInner (some .logs) plainReader) (opened [some .logs]) cancelledPrepare =
        some world ∧
      world.step RingWorld.plainInner (some .logs) plainReader (.cancel 7 2) = some next ∧
      (next.stream.rings .logs).stock = [(1, .inMemory ⟨0, 2, [1, 2]⟩), (2, .inMemory ⟨0, 1, [3]⟩)] ∧
      (next.stream.rings .logs).stock = (world.stream.rings .logs).stock :=
  ⟨_, _, rfl, rfl, rfl, (((recvPassthrough_cancelSafe RingWorld.plainInner (some .logs) plainReader [some .logs]
    (execute_run (fun _ _ => trivial) cancelledPrepare rfl)).2.2 7 2 _ rfl).2 .logs).2.2 (by decide) |>.1⟩

end PassthroughWorld

end OtelDatalake.Buffer
