import Mathlib.Algebra.Order.BigOperators.Group.List
import Mathlib.Algebra.Order.Ring.Nat
import OtelDatalake.Buffer.Numbering
import OtelDatalake.Buffer.RingInvariant

open Std OtelDatalake.Foundation

namespace OtelDatalake.Buffer

variable {Batch : Type} [RecordBatch Batch]

/-- The rows that the counters of a ring attribute to an outcome or show as still in flight. -/
def SignalRingState.rowTotal (state : SignalRingState Batch) : Nat :=
  state.committedRecords + state.overflowDrops + state.deadLetterDrops + state.shutdownTimeoutDrops +
    state.ring.rowsInFlight

def Admission.rows (batchRows : Nat) : Admission → Nat
  | .enqueued => batchRows
  | .reserved _ => batchRows
  | _ => 0

section Rows

variable {state : SignalRingState Batch} {reserved : List (AppendReservation Batch)}
  {leased : List LeasedBatchMeta}

theorem evictOldest_counters (batchBytes budget fuel : Nat) (state : SignalRingState Batch) :
    (evictOldest batchBytes budget fuel state).1 =
      { state with
        ring := (evictOldest batchBytes budget fuel state).1.ring
        committedSeq := (evictOldest batchBytes budget fuel state).1.committedSeq } := by
  induction fuel generalizing state with
  | zero => rfl
  | succ fuel ih =>
    unfold evictOldest
    split
    · rfl
    · split
      · rfl
      · split
        · rfl
        · simp only
          rw [ih]

theorem releaseEvicted_rows (ring : SignalRing Batch) (evicted : QueuedBatch Batch) :
    (ring.releaseEvicted evicted).rowsInFlight = ring.rowsInFlight - evicted.rowCount := by
  unfold SignalRing.releaseEvicted
  split <;> rfl

theorem evictOldest_rows (accounted : Accounted state reserved leased) (batchBytes budget fuel : Nat) :
    (evictOldest batchBytes budget fuel state).1.ring.rowsInFlight +
      ((evictOldest batchBytes budget fuel state).2.map (·.rowCount)).sum = state.ring.rowsInFlight := by
  induction fuel generalizing state with
  | zero => rfl
  | succ fuel ih =>
    unfold evictOldest
    split
    · rfl
    · split
      · rfl
      · rename_i front rest queue
        split
        · rfl
        · have swept := ih (accounted.evict queue).1
          have rows := accounted.balanced.rows
          rw [queue, List.map_cons, List.sum_cons] at rows
          have left : (state.advanced ({ state.ring with queue := rest }.releaseEvicted front)).ring.rowsInFlight =
              state.ring.rowsInFlight - front.rowCount := releaseEvicted_rows _ _
          simp only [SignalRing.recordEvictedBatch, List.map_cons, List.sum_cons]
          simp only [SignalRingState.advanced] at swept left
          omega

theorem makeRoom_rowTotal (accounted : Accounted state reserved leased) (config : BufferConfig)
    (batchBytes : Nat) : (makeRoom config state batchBytes).1.rowTotal = state.rowTotal := by
  unfold makeRoom
  split
  · have rows := evictOldest_rows accounted batchBytes config.perSignalBudget state.ring.queue.length
    have counters := evictOldest_counters batchBytes config.perSignalBudget state.ring.queue.length state
    simp only [SignalRingState.rowTotal]
    rw [counters]
    simp only
    omega
  · rfl

theorem reserveOrEnqueueSlot_rowTotal (accounted : Accounted state reserved leased) (config : BufferConfig)
    (batchBytes batchRows : Nat) (inMemoryBatch : Option Batch) (now : Instant) :
    (reserveOrEnqueueSlot config state batchBytes batchRows inMemoryBatch now).1.rowTotal =
      state.rowTotal +
        (reserveOrEnqueueSlot config state batchBytes batchRows inMemoryBatch now).2.1.rows batchRows := by
  have room := makeRoom_rowTotal accounted config batchBytes
  unfold reserveOrEnqueueSlot
  split
  · rfl
  · split
    · rfl
    · simp only
      split
      · rw [← room]
        cases inMemoryBatch <;> simp only [SignalRingState.rowTotal, assignSlot, Admission.rows] <;> omega
      · exact room

@[simp] theorem recordStorageFailure_rowTotal (state : SignalRingState Batch) (reason : String) :
    (recordStorageFailure state reason).rowTotal = state.rowTotal := rfl

theorem requeueEntries_rows (nextAttempt : Nat) (readyAt : Option Instant)
    (entries : List (BatchPayload Batch × LeasedBatchMeta)) (progress : SignalRing Batch × Bool) :
    (entries.foldl (SignalRing.requeueEntry nextAttempt readyAt) progress).1.rowsInFlight =
      progress.1.rowsInFlight := by
  induction entries generalizing progress with
  | nil => rfl
  | cons entry rest ih =>
    rw [List.foldl_cons, ih]
    simp only [SignalRing.requeueEntry]
    split <;> rfl

@[simp] theorem requeueLease_rowTotal (state : SignalRingState Batch) (payloads : List (BatchPayload Batch))
    (leased : List LeasedBatchMeta) (nextAttempt : Nat) (readyAt : Option Instant) :
    (requeueLease state payloads leased nextAttempt readyAt).rowTotal = state.rowTotal := by
  simp only [SignalRingState.rowTotal, requeueLease, SignalRing.requeueAtHead]
  split <;> simp only [requeueEntries_rows]

@[simp] theorem failLease_rowTotal (state : SignalRingState Batch) (payloads : List (BatchPayload Batch))
    (leased : List LeasedBatchMeta) (reason : String) :
    (failLease state payloads leased reason).rowTotal = state.rowTotal :=
  requeueLease_rowTotal state payloads leased 0 none

theorem discardRemaining_rowTotal (state : SignalRingState Batch) :
    (discardRemaining state).rowTotal = state.rowTotal := by
  simp only [SignalRingState.rowTotal, discardRemaining, SignalRing.advanceWatermark, SignalRing.clear]
  omega

theorem tryPopSignalLease_rowTotal (inner : BufferInner) (signal : SignalKind) (state : SignalRingState Batch)
    (now : Instant) : (tryPopSignalLease inner signal state now).1.rowTotal = state.rowTotal := by
  rcases tryPopSignalLease_cases inner signal state now with
    ⟨wait, drained, idle⟩ | ⟨front, taken, rest, _, popped⟩
  · rw [idle]
  · rw [popped]
    rfl

theorem rollbackSlot_rowTotal {reservation : AppendReservation Batch}
    (accounted : Accounted state (reservation :: reserved) leased) :
    (reservation.rollbackSlot state).rowTotal + reservation.batchRows = state.rowTotal := by
  have owned := accounted.balanced.reserved_mem List.mem_cons_self
  have rows := accounted.balanced.rows
  rw [List.map_cons, List.sum_cons] at rows
  simp only [AppendReservation.rollbackSlot, owned, SignalRingState.rowTotal, SignalRing.advanceWatermark]
  omega

theorem finish_rowTotal (reservation : AppendReservation Batch) (state : SignalRingState Batch)
    (written : WrittenFrame) (now : Instant) :
    (reservation.finish state (.ok written) now).rowTotal = state.rowTotal := by
  simp only [AppendReservation.finish]
  split <;> rfl

theorem ackLease_rows {items : List LeasedBatchMeta} (accounted : Accounted state reserved (items ++ leased))
    (reset : Bool) :
    (ackLease state items reset).1.rowTotal + (items.map (·.rowCount)).sum = state.rowTotal ∧
      (ackLease state items reset).2 = (items.map (·.rowCount)).sum := by
  have owned : ∀ item ∈ items, state.ring.slots[item.seqId]? = some .inFlight := fun item member =>
    accounted.balanced.leased_mem (List.mem_append_left _ member)
  have distinct := accounted.balanced.leased_nodup
  rw [List.map_append] at distinct
  have acked := SignalRing.Balanced.ackEntry_owned
    ({ slots := state.ring.slots, inflightEnqueuedAt := state.ring.inflightEnqueuedAt } :
      SignalRing.AckProgress) owned (List.nodup_append.mp distinct).1
  have rows := accounted.balanced.rows
  rw [List.map_append, List.sum_append] at rows
  simp only [ackLease, SignalRing.ackEntries, SignalRingState.rowTotal, acked]
  cases items with
  | nil => simp
  | cons item rest =>
    simp only [List.isEmpty_cons, Bool.not_false, Bool.or_true, if_true, SignalRing.advanceWatermark,
      SignalRing.releaseAcked, Nat.zero_add, and_true]
    omega

theorem ackLease_rows_gone {items : List LeasedBatchMeta} (accounted : Accounted state reserved leased)
    (gone : ∀ item ∈ items, state.ring.Gone item.seqId) (reset : Bool) :
    (ackLease state items reset).1.rowTotal = state.rowTotal ∧ (ackLease state items reset).2 = 0 := by
  have absent := SignalRing.Balanced.ackEntry_absent
    ({ slots := state.ring.slots, inflightEnqueuedAt := state.ring.inflightEnqueuedAt } :
      SignalRing.AckProgress)
    fun item member => ⟨(gone item member).1, accounted.untimed (gone item member).1⟩
  simp only [ackLease, SignalRing.ackEntries, SignalRingState.rowTotal, absent]
  exact ⟨rfl, rfl⟩

end Rows

/-- A rejected lease that has used up its attempts. -/
def Lease.exhausts (config : BufferConfig) (lease : Lease Batch) : FailureClass → Bool
  | .rejected _ => config.maxAttempts ≤ lease.nextAttempt
  | _ => false

theorem Lease.disposition_quarantine (lease : Lease Batch) (inner : BufferInner) (state : SignalRingState Batch)
    (failure : FailureClass) (now : Instant) (nowMs : Nat) (deadLetter : Except String Unit)
    (quarantined : lease.disposition inner state failure now nowMs deadLetter = .quarantine) :
    lease.exhausts inner.config failure = true ∧ deadLetter.isOk = true := by
  cases failure with
  | transient =>
    simp only [Lease.disposition] at quarantined
    split at quarantined <;> cases quarantined
  | rejected reason =>
    simp only [Lease.disposition] at quarantined
    split at quarantined
    · cases quarantined
    · rename_i used
      cases deadLetter with
      | error reason => cases quarantined
      | ok => exact ⟨by simpa [Lease.exhausts] using used, rfl⟩
  | fatal reason => cases quarantined

namespace RingWorld

def quarantinedRows (world : RingWorld Batch) : Nat := (world.liveLeases.map (·.quarantinedRows)).sum

def unresolvedRows (world : RingWorld Batch) : Nat := world.state.ring.rowsInFlight - world.quarantinedRows

def admittedRows (config : BufferConfig) (world : RingWorld Batch) : RingAction Batch → Nat
  | .enqueue batch now =>
    (reserveOrEnqueueSlot config world.state (RecordBatch.arrayMemorySize batch) (RecordBatch.numRows batch)
      (some batch) now).2.1.rows (RecordBatch.numRows batch)
  | .reserve frameBytesLen batchRows _ _ now =>
    (reserveOrEnqueueSlot config world.state frameBytesLen batchRows none now).2.1.rows batchRows
  | _ => 0

def reservedRows (world : RingWorld Batch) (seqId : Nat) : Nat :=
  if seqId ∈ world.state.ring.slots then (world.takeReservation seqId).elim 0 (·.1.batchRows) else 0

def rolledBackRows (world : RingWorld Batch) : RingAction Batch → Nat
  | .finish seqId (.error _) _ => world.reservedRows seqId
  | .dropReservation seqId => world.reservedRows seqId
  | _ => 0

/-- The steps that attribute no row twice and none to nothing: only a lease that still has its slots is
    quarantined from, and no more rows than it has; a lease with quarantined rows is only acknowledged; a lease
    whose slots were discarded is not dead-lettered; the watermark of an acknowledgement is stored. -/
def keepsRows (config : BufferConfig) (world : RingWorld Batch) : RingAction Batch → Bool
  | .quarantineRows firstSeq rows => (world.takeLease firstSeq).all fun taken =>
    if taken.1.ownsSlot world.state.ring then taken.1.quarantinedRows + rows ≤ taken.1.numRows else rows == 0
  | .ack firstSeq persisted => (world.takeLease firstSeq).all fun taken =>
    persisted.isOk || taken.1.quarantinedRows == taken.1.numRows || !taken.1.ownsSlot world.state.ring
  | .nack firstSeq failure _ _ deadLetter _ => (world.takeLease firstSeq).all fun taken =>
    if taken.1.ownsSlot world.state.ring then taken.1.quarantinedRows == 0
    else !(taken.1.exhausts config failure && deadLetter.isOk) || taken.1.numRows == 0
  | .dropLease firstSeq _ _ => (world.takeLease firstSeq).all fun taken =>
    taken.1.quarantinedRows == 0 || !taken.1.ownsSlot world.state.ring
  | .discard => world.leases.all fun held =>
    held.value.quarantinedRows == 0 || !held.value.ownsSlot world.state.ring
  | _ => true

variable {config : BufferConfig} {origin : SignalRing Batch} {world next : RingWorld Batch}

theorem Sound.taken_rows {firstSeq : Nat} {lease : Lease Batch} {others : List (Held (Lease Batch))}
    (sound : Sound config origin world) (taken : world.takeLease firstSeq = some (lease, others)) :
    (lease.ownsSlot world.state.ring = true ∧
        (liveValues world.leases).Perm (lease :: liveValues others) ∧
        Accounted world.state world.liveReservations
          (lease.leased ++ (liveValues others).flatMap (·.leased))) ∨
      (lease.ownsSlot world.state.ring = false ∧ (liveValues world.leases).Perm (liveValues others) ∧
        ∀ item ∈ lease.leased, world.state.ring.Gone item.seqId) := by
  obtain ⟨_, _, _, live | ⟨stale, old, member, discarded, same⟩⟩ := takeHeld_eq_some taken
  · refine Or.inl ⟨?_, live, sound.accounted.perm (List.Perm.refl _) (live.flatMap_right Lease.leased)⟩
    have present : lease ∈ liveValues world.leases := live.mem_iff.mpr List.mem_cons_self
    obtain ⟨entry, listed, kept, equal⟩ := mem_liveValues.mp present
    rw [← equal, sound.ownsSlot listed, kept]
    rfl
  · refine Or.inr ⟨?_, stale, ?_⟩
    · rw [← same, sound.ownsSlot member, discarded]
      rfl
    · rw [← same]
      exact sound.goneLeases old member discarded

theorem Sound.taken_reservation_rows {seqId : Nat} {reservation : AppendReservation Batch}
    {others : List (Held (AppendReservation Batch))} (sound : Sound config origin world)
    (taken : world.takeReservation seqId = some (reservation, others)) :
    (reservation.rollbackSlot world.state).rowTotal + world.reservedRows seqId = world.state.rowTotal := by
  obtain ⟨numbered, _, accounted | ⟨_, gone⟩⟩ := sound.takenReservation taken
  · have held : seqId ∈ world.state.ring.slots := by
      rw [ExtTreeMap.mem_iff_isSome_getElem?, ← numbered,
        accounted.balanced.reserved_mem List.mem_cons_self]
      rfl
    rw [reservedRows, if_pos held, taken]
    exact rollbackSlot_rowTotal accounted
  · have absent : seqId ∉ world.state.ring.slots := numbered ▸ gone.1
    rw [Accounted.rollbackSlot_gone gone, reservedRows, if_neg absent]
    rfl

theorem quarantinedRows_append (held : List (Held (Lease Batch))) (lease : Lease Batch) :
    ((liveValues (held ++ [{ value := lease }])).map (·.quarantinedRows)).sum =
      ((liveValues held).map (·.quarantinedRows)).sum + lease.quarantinedRows := by
  rw [liveValues_append, List.map_append, List.sum_append]
  rfl

theorem Sound.firstSeq_nodup (sound : Sound config origin world) :
    (world.leases.map (·.value.id.firstSeq)).Nodup := by
  have distinct := sound.distinct
  have wellFormed := sound.wellFormed
  generalize world.leases = leases at distinct wellFormed ⊢
  induction leases with
  | nil => exact List.nodup_nil
  | cons first rest ih =>
    have listed : ∀ held : Held (Lease Batch), held.value.WellFormed →
        held.value.id.firstSeq ∈ held.value.leased.map (·.seqId) := by
      intro held formed
      rw [formed.contiguous, List.mem_range'_1]
      have := List.length_pos_iff.mpr formed.nonempty
      omega
    rw [List.flatMap_cons, List.map_append, List.nodup_append] at distinct
    rw [List.map_cons, List.nodup_cons]
    refine ⟨fun repeated => ?_, ih distinct.2.1 fun held member => wellFormed held (List.mem_cons_of_mem _ member)⟩
    obtain ⟨other, member, same⟩ := List.mem_map.mp repeated
    have mine := listed first (wellFormed first List.mem_cons_self)
    have theirs := listed other (wellFormed other (List.mem_cons_of_mem _ member))
    obtain ⟨item, inside, numbered⟩ := List.mem_map.mp theirs
    exact distinct.2.2 _ mine _ (List.mem_map.mpr ⟨item, List.mem_flatMap.mpr ⟨other, member, inside⟩, numbered⟩)
      same.symm

def countQuarantined (firstSeq rows : Nat) (held : Held (Lease Batch)) : Held (Lease Batch) :=
  if held.value.id.firstSeq = firstSeq then
    { held with value := { held.value with quarantinedRows := held.value.quarantinedRows + rows } }
  else held

theorem quarantinedRows_count {firstSeq : Nat} (rows : Nat) {held : List (Held (Lease Batch))}
    {entry : Held (Lease Batch)} (distinct : (held.map (·.value.id.firstSeq)).Nodup)
    (found : held.find? (fun entry => entry.value.id.firstSeq == firstSeq) = some entry) :
    ((liveValues (held.map (countQuarantined firstSeq rows))).map (·.quarantinedRows)).sum =
      ((liveValues held).map (·.quarantinedRows)).sum + if entry.discarded then 0 else rows := by
  induction held with
  | nil => cases found
  | cons first rest ih =>
    rw [List.map_cons, List.nodup_cons] at distinct
    have live : ∀ (head : Held (Lease Batch)) (tail : List (Held (Lease Batch))),
        ((liveValues (head :: tail)).map (·.quarantinedRows)).sum =
          (if head.discarded then 0 else head.value.quarantinedRows) +
            ((liveValues tail).map (·.quarantinedRows)).sum := by
      intro head tail
      cases discarded : head.discarded <;> simp [liveValues, discarded]
    rw [List.map_cons, live, live]
    by_cases here : first.value.id.firstSeq = firstSeq
    · rw [List.find?_cons_of_pos (by simpa using here)] at found
      cases found
      have others : rest.map (countQuarantined firstSeq rows) = rest := by
        refine (List.map_congr_left fun held member => ?_).trans rest.map_id
        refine if_neg fun same => distinct.1 ?_
        exact List.mem_map.mpr ⟨held, member, same.trans here.symm⟩
      rw [others, countQuarantined, if_pos here]
      cases entry.discarded
      · simp only [Bool.false_eq_true, if_false]
        omega
      · rfl
    · rw [List.find?_cons_of_neg (by simpa using here)] at found
      rw [ih distinct.2 found, countQuarantined, if_neg here]
      omega

theorem Sound.found {firstSeq : Nat} {lease : Lease Batch} {others : List (Held (Lease Batch))}
    (sound : Sound config origin world) (taken : world.takeLease firstSeq = some (lease, others)) :
    ∃ entry, world.leases.find? (fun entry => entry.value.id.firstSeq == firstSeq) = some entry ∧
      entry.value = lease ∧ lease.ownsSlot world.state.ring = !entry.discarded := by
  obtain ⟨entry, found, equal⟩ := Option.map_eq_some_iff.mp taken
  cases equal
  exact ⟨entry, found, rfl, sound.ownsSlot (List.mem_of_find?_eq_some found)⟩

/-- What a step adds to the counters, to the admitted, to the rolled back and to the quarantined rows. -/
structure Tallies (config : BufferConfig) (world next : RingWorld Batch) (action : RingAction Batch) : Prop where
  rows : world.state.rowTotal + world.admittedRows config action + next.quarantinedRows =
    next.state.rowTotal + world.rolledBackRows action + world.quarantinedRows

section Steps

variable {inner : BufferInner} {firstSeq : Nat} {lease : Lease Batch} {others : List (Held (Lease Batch))}

theorem Sound.ack_tallies (sound : Sound config origin world)
    (counted : lease.numRows = (lease.leased.map (·.rowCount)).sum)
    (bounded : lease.ownsSlot world.state.ring = true → lease.quarantinedRows ≤ lease.numRows)
    (taken : world.takeLease firstSeq = some (lease, others)) (persisted : Except String Unit)
    (kept : persisted.isOk = true ∨ lease.quarantinedRows = lease.numRows ∨
      lease.ownsSlot world.state.ring = false) :
    world.state.rowTotal + ((liveValues others).map (·.quarantinedRows)).sum =
      (lease.ack world.state persisted).rowTotal + world.quarantinedRows := by
  have spent : (lease.ack world.state persisted).rowTotal = (ackLease world.state lease.leased true).1.rowTotal +
      if persisted.isOk then (ackLease world.state lease.leased true).2 - lease.quarantinedRows else 0 := by
    cases persisted with
    | error reason => rfl
    | ok =>
      simp only [Lease.ack, SignalRingState.rowTotal, Except.isOk, Except.toBool, if_true]
      omega
  rw [spent, quarantinedRows, liveLeases]
  rcases sound.taken_rows taken with ⟨owns, live, accounted⟩ | ⟨absent, stale, gone⟩
  · obtain ⟨total, acked⟩ := ackLease_rows accounted true
    have bound := bounded owns
    rw [acked, ← counted, (live.map _).sum_eq, List.map_cons, List.sum_cons]
    rw [← counted] at total
    split
    · omega
    · rename_i failed
      rcases kept with ok | all | absent
      · exact absurd ok failed
      · omega
      · rw [owns] at absent
        cases absent
  · obtain ⟨total, acked⟩ := ackLease_rows_gone sound.accounted gone true
    rw [acked, total, (stale.map _).sum_eq]
    simp

theorem Sound.requeue_tallies (sound : Sound config origin world)
    (taken : world.takeLease firstSeq = some (lease, others))
    (kept : lease.quarantinedRows = 0 ∨ lease.ownsSlot world.state.ring = false) :
    ((liveValues others).map (·.quarantinedRows)).sum = world.quarantinedRows := by
  rw [quarantinedRows, liveLeases]
  rcases sound.taken_rows taken with ⟨owns, live, _⟩ | ⟨_, stale, _⟩
  · rw [(live.map _).sum_eq, List.map_cons, List.sum_cons]
    rcases kept with none | absent
    · omega
    · rw [owns] at absent
      cases absent
  · rw [(stale.map _).sum_eq]

theorem markFailure_rowTotal (state : SignalRingState Batch) (failure : FailureClass) (nowMs : Nat) :
    (Lease.markFailure state failure nowMs).rowTotal = state.rowTotal := by
  cases failure <;> rfl

theorem Sound.quarantine_tallies (sound : Sound config origin world)
    (counted : lease.numRows = (lease.leased.map (·.rowCount)).sum)
    (taken : world.takeLease firstSeq = some (lease, others)) {marked : SignalRingState Batch}
    (ring : marked.ring = world.state.ring) (committed : marked.committedSeq = world.state.committedSeq)
    (total : marked.rowTotal = world.state.rowTotal) (persisted : Except String Unit)
    (kept : lease.ownsSlot world.state.ring = true ∨ lease.numRows = 0) :
    (lease.dispose marked persisted .quarantine).rowTotal = world.state.rowTotal := by
  have spent : (lease.dispose marked persisted .quarantine).rowTotal =
      (ackLease { marked with deadLetterDrops := marked.deadLetterDrops + lease.numRows }
        lease.leased false).1.rowTotal := by
    cases persisted <;> rfl
  have added : ({ marked with deadLetterDrops := marked.deadLetterDrops + lease.numRows } :
      SignalRingState Batch).rowTotal = world.state.rowTotal + lease.numRows := by
    rw [← total]
    simp only [SignalRingState.rowTotal]
    omega
  rw [spent]
  rcases sound.taken_rows taken with ⟨_, _, accounted⟩ | ⟨absent, _, gone⟩
  · have counts : Accounted { marked with deadLetterDrops := marked.deadLetterDrops + lease.numRows }
        world.liveReservations (lease.leased ++ (liveValues others).flatMap (·.leased)) :=
      accounted.flags ring committed
    have acked := (ackLease_rows counts false).1
    rw [← counted, added] at acked
    omega
  · have counts : Accounted { marked with deadLetterDrops := marked.deadLetterDrops + lease.numRows }
        world.liveReservations world.liveLeased := sound.accounted.flags ring committed
    have acked := (ackLease_rows_gone counts (by simpa only [ring] using gone) false).1
    rcases kept with owns | none
    · rw [owns] at absent
      cases absent
    · rw [acked, added, none, Nat.add_zero]

end Steps

structure Counted (world : RingWorld Batch) : Prop where
  rows : ∀ held ∈ world.leases, held.value.numRows = (held.value.leased.map (·.rowCount)).sum
  quarantined : ∀ held ∈ world.leases, held.discarded = false → held.value.quarantinedRows ≤ held.value.numRows

theorem Counted.taken {firstSeq : Nat} {lease : Lease Batch} {others : List (Held (Lease Batch))}
    (counted : Counted world) (sound : Sound config origin world)
    (taken : world.takeLease firstSeq = some (lease, others)) :
    lease.numRows = (lease.leased.map (·.rowCount)).sum ∧
      (lease.ownsSlot world.state.ring = true → lease.quarantinedRows ≤ lease.numRows) := by
  obtain ⟨entry, found, rfl, owns⟩ := sound.found taken
  have member := List.mem_of_find?_eq_some found
  refine ⟨counted.rows entry member, fun live => counted.quarantined entry member ?_⟩
  rw [live] at owns
  simpa using owns.symm

theorem Sound.tallies {inner : BufferInner} {signal : SignalKind} {action : RingAction Batch}
    (sound : Sound inner.config origin world) (counted : Counted world)
    (stepped : RingWorld.step inner signal world action = some next)
    (kept : world.keepsRows inner.config action = true) : Tallies inner.config world next action := by
  cases action with
  | enqueue batch now =>
    obtain ⟨_, rfl⟩ := step_enqueue stepped
    have rows := reserveOrEnqueueSlot_rowTotal sound.accounted inner.config (RecordBatch.arrayMemorySize batch)
      (RecordBatch.numRows batch) (some batch) now
    exact ⟨by simp only [RingWorld.admitBatch, admittedRows, rolledBackRows, rows]; rfl⟩
  | reserve frameBytesLen batchRows rows schema now =>
    obtain ⟨_, rfl⟩ := step_reserve stepped
    have rows := reserveOrEnqueueSlot_rowTotal sound.accounted inner.config frameBytesLen batchRows none now
    exact ⟨by simp only [RingWorld.admitBatch, admittedRows, rolledBackRows, rows]; rfl⟩
  | finish seqId result now =>
    obtain ⟨⟨reservation, others⟩, taken, rfl⟩ := Option.map_eq_some_iff.mp stepped
    cases result with
    | ok written =>
      have rows := finish_rowTotal reservation world.state written now
      exact ⟨by simp only [rows]; rfl⟩
    | error reason =>
      have rows := sound.taken_reservation_rows taken
      exact ⟨by simp only [AppendReservation.finish, recordStorageFailure_rowTotal, rolledBackRows, rows]; rfl⟩
  | dropReservation seqId =>
    obtain ⟨⟨reservation, others⟩, taken, rfl⟩ := Option.map_eq_some_iff.mp stepped
    have rows := sound.taken_reservation_rows taken
    exact ⟨by simp only [rolledBackRows, rows]; rfl⟩
  | pop now =>
    cases stepped
    have rows := tryPopSignalLease_rowTotal inner signal world.state now
    refine ⟨?_⟩
    simp only [admittedRows, rolledBackRows, rows, quarantinedRows, liveLeases]
    rcases tryPopSignalLease_cases inner signal world.state now with
      ⟨wait, drained, idle⟩ | ⟨front, taken, rest, _, popped⟩
    · simp [idle]
    · simp only [popped, Option.toList_some, List.map_cons, List.map_nil, quarantinedRows_append]
      rfl
  | quarantineRows firstSeq rows =>
    obtain ⟨⟨lease, others⟩, taken, rfl⟩ := Option.map_eq_some_iff.mp stepped
    obtain ⟨entry, found, rfl, owns⟩ := sound.found taken
    have counts := quarantinedRows_count rows sound.firstSeq_nodup found
    simp only [keepsRows, taken, Option.all_some] at kept
    have silent : entry.discarded = true → rows = 0 := by
      intro discarded
      rw [owns, discarded] at kept
      simpa using kept
    constructor
    change world.state.rowTotal + 0 +
      ((liveValues (world.leases.map (countQuarantined firstSeq rows))).map (·.quarantinedRows)).sum = _
    rw [counts]
    simp only [SignalRingState.rowTotal, rolledBackRows, quarantinedRows, liveLeases]
    split
    · rename_i discarded
      have := silent discarded
      omega
    · omega
  | ack firstSeq persisted =>
    obtain ⟨⟨lease, others⟩, taken, rfl⟩ := Option.map_eq_some_iff.mp stepped
    obtain ⟨rows, bounded⟩ := counted.taken sound taken
    have tally := sound.ack_tallies rows bounded taken persisted (by
      simpa [keepsRows, taken, or_assoc] using kept)
    exact ⟨tally⟩
  | nack firstSeq failure now nowMs deadLetter persisted =>
    obtain ⟨⟨lease, others⟩, taken, rfl⟩ := Option.map_eq_some_iff.mp stepped
    simp only [keepsRows, taken, Option.all_some] at kept
    have unspent : lease.quarantinedRows = 0 ∨ lease.ownsSlot world.state.ring = false := by
      cases owns : lease.ownsSlot world.state.ring
      · exact Or.inr rfl
      · exact Or.inl (by simpa [owns] using kept)
    have held := sound.requeue_tallies taken unspent
    have marked := markFailure_rowTotal world.state failure nowMs
    have total : (lease.dispose (Lease.markFailure world.state failure nowMs) persisted
        (lease.disposition inner world.state failure now nowMs deadLetter)).rowTotal = world.state.rowTotal := by
      cases disposed : lease.disposition inner world.state failure now nowMs deadLetter with
      | requeue leased nextAttempt readyAt => exact (requeueLease_rowTotal ..).trans marked
      | fail leased reason => exact (failLease_rowTotal ..).trans marked
      | quarantine =>
        obtain ⟨exhausts, written⟩ := lease.disposition_quarantine inner _ _ _ _ _ disposed
        refine sound.quarantine_tallies (counted.taken sound taken).1 taken (by cases failure <;> rfl)
          (by cases failure <;> rfl) marked persisted ?_
        cases owns : lease.ownsSlot world.state.ring
        · exact Or.inr (by simpa [owns, exhausts, written] using kept)
        · exact Or.inl rfl
    constructor
    change world.state.rowTotal + 0 + ((liveValues others).map (·.quarantinedRows)).sum = _
    rw [held]
    simp only [resolveLease, total, rolledBackRows]
  | dropLease firstSeq now nowMs =>
    obtain ⟨⟨lease, others⟩, taken, rfl⟩ := Option.map_eq_some_iff.mp stepped
    have held := sound.requeue_tallies taken (by simpa [keepsRows, taken] using kept)
    constructor
    change world.state.rowTotal + 0 + ((liveValues others).map (·.quarantinedRows)).sum = _
    rw [held]
    simp only [Lease.drop, requeueLease_rowTotal, rolledBackRows]
    rfl
  | discard =>
    cases stepped
    have total := discardRemaining_rowTotal world.state
    have unspent : world.quarantinedRows = 0 := by
      refine List.sum_eq_zero fun rows member => ?_
      obtain ⟨lease, live, rfl⟩ := List.mem_map.mp member
      obtain ⟨held, listed, kept', rfl⟩ := mem_liveValues.mp live
      have spared := List.all_eq_true.mp kept held listed
      simpa [sound.ownsSlot listed, kept'] using spared
    constructor
    rw [unspent]
    simp only [total, admittedRows, rolledBackRows, quarantinedRows, liveLeases, liveValues_discardHeld]
    rfl
  | _ =>
    cases stepped
    exact ⟨rfl⟩

theorem Counted.step {inner : BufferInner} {signal : SignalKind} {action : RingAction Batch}
    (counted : Counted world) (sound : Sound inner.config origin world)
    (stepped : RingWorld.step inner signal world action = some next)
    (kept : world.keepsRows inner.config action = true) : Counted next := by
  refine ⟨fun held member => ?_, fun held member live => ?_⟩
  · rcases step_leases stepped member with ⟨old, listed, _, leased, rows⟩ | ⟨now, rfl, popped⟩
    · rw [← rows, ← leased]
      exact counted.rows old listed
    · rcases tryPopSignalLease_cases inner signal world.state now with
        ⟨wait, drained, idle⟩ | ⟨front, taken, rest, _, formed⟩
      · rw [idle] at popped
        cases popped
      · rw [formed] at popped
        rw [← Option.some.inj popped]
        simp [leaseOf, QueuedBatch.leasedMeta, Function.comp_def]
  · have stays : held ∈ world.leases → held.value.quarantinedRows ≤ held.value.numRows := fun old =>
      counted.quarantined held old live
    cases action with
    | finish seqId result now =>
      obtain ⟨_, _, rfl⟩ := Option.map_eq_some_iff.mp stepped
      exact stays member
    | dropReservation seqId =>
      obtain ⟨_, _, rfl⟩ := Option.map_eq_some_iff.mp stepped
      exact stays member
    | pop now =>
      cases stepped
      rcases List.mem_append.mp member with old | new
      · exact stays old
      · obtain ⟨lease, popped, rfl⟩ := List.mem_map.mp new
        rcases tryPopSignalLease_cases inner signal world.state now with
          ⟨wait, drained, idle⟩ | ⟨front, taken, rest, _, formed⟩
        · simp [idle] at popped
        · rw [formed, Option.toList_some, List.mem_singleton] at popped
          rw [popped]
          exact Nat.zero_le _
    | quarantineRows firstSeq rows =>
      obtain ⟨⟨lease, others⟩, taken, rfl⟩ := Option.map_eq_some_iff.mp stepped
      obtain ⟨entry, found, rfl, owns⟩ := sound.found taken
      obtain ⟨old, listed, rfl⟩ := List.mem_map.mp member
      by_cases here : old.value.id.firstSeq = firstSeq
      · have named : entry.value.id.firstSeq = firstSeq := by simpa using List.find?_some found
        have same : old = entry := List.inj_on_of_nodup_map sound.firstSeq_nodup listed
          (List.mem_of_find?_eq_some found) (here.trans named.symm)
        subst same
        rw [if_pos here] at live ⊢
        simp only [keepsRows, taken, Option.all_some, owns] at kept
        simp only at live
        simpa [live] using kept
      · rw [if_neg here] at live ⊢
        exact counted.quarantined old listed live
    | ack firstSeq persisted =>
      obtain ⟨_, taken, rfl⟩ := Option.map_eq_some_iff.mp stepped
      exact stays ((takeHeld_eq_some taken).1.subset member)
    | nack firstSeq failure now nowMs deadLetter persisted =>
      obtain ⟨_, taken, rfl⟩ := Option.map_eq_some_iff.mp stepped
      exact stays ((takeHeld_eq_some taken).1.subset member)
    | dropLease firstSeq now nowMs =>
      obtain ⟨_, taken, rfl⟩ := Option.map_eq_some_iff.mp stepped
      exact stays ((takeHeld_eq_some taken).1.subset member)
    | discard =>
      cases stepped
      obtain ⟨old, _, rfl⟩ := List.mem_map.mp member
      cases live
    | enqueue batch now =>
      obtain ⟨_, rfl⟩ := step_enqueue stepped
      exact stays member
    | reserve frameBytesLen batchRows rows schema now =>
      obtain ⟨_, rfl⟩ := step_reserve stepped
      exact stays member
    | _ =>
      cases stepped
      exact stays member

theorem Sound.quarantined_le (sound : Sound config origin world) (counted : Counted world) :
    world.quarantinedRows ≤ world.state.ring.rowsInFlight := by
  have rows := sound.accounted.balanced.rows
  have leased : (world.liveLeased.map (·.rowCount)).sum = (world.liveLeases.map (·.numRows)).sum := by
    rw [liveLeased, List.map_flatMap, List.flatMap, List.sum_flatten, List.map_map]
    refine congrArg List.sum (List.map_congr_left fun lease live => ?_)
    obtain ⟨held, listed, _, rfl⟩ := mem_liveValues.mp live
    exact (counted.rows held listed).symm
  have below : world.quarantinedRows ≤ (world.liveLeases.map (·.numRows)).sum := by
    refine List.sum_le_sum fun lease live => ?_
    obtain ⟨held, listed, kept, rfl⟩ := mem_liveValues.mp live
    exact counted.quarantined held listed kept
  omega

end RingWorld

/-- A ring with the rows that were admitted to it and those that were rolled back. -/
structure RowAudit (Batch : Type) [RecordBatch Batch] where
  world : RingWorld Batch
  admitted : Nat
  rolledBack : Nat := 0

namespace RowAudit

def opened (state : SignalRingState Batch) : RowAudit Batch :=
  { world := { state := state }, admitted := state.replayedRecords }

def step (inner : BufferInner) (signal : SignalKind) (audit : RowAudit Batch) (action : RingAction Batch) :
    Option (RowAudit Batch) :=
  (audit.world.step inner signal action).map fun next =>
    { world := next
      admitted := audit.admitted + audit.world.admittedRows inner.config action
      rolledBack := audit.rolledBack + audit.world.rolledBackRows action }

/-- Every admitted row that was not rolled back has one outcome or is still in flight. -/
def Conserved (audit : RowAudit Batch) : Prop :=
  audit.admitted = audit.rolledBack + (audit.world.state.committedRecords + audit.world.state.overflowDrops +
    audit.world.state.deadLetterDrops + audit.world.state.shutdownTimeoutDrops + audit.world.unresolvedRows)

/-- The invariant behind the conservation of rows. -/
structure Audited (config : BufferConfig) (origin : SignalRing Batch) (audit : RowAudit Batch) : Prop where
  sound : RingWorld.Sound config origin audit.world
  counted : RingWorld.Counted audit.world
  rows : audit.admitted + audit.world.quarantinedRows = audit.rolledBack + audit.world.state.rowTotal

theorem recover_rowTotal (watermark : Nat) (events : List (RecoveryEvent Batch)) (state : SignalRingState Batch)
    (replayed : state.replayedRecords = state.rowTotal) :
    (events.foldl (SignalRingState.recover watermark) state).replayedRecords =
      (events.foldl (SignalRingState.recover watermark) state).rowTotal := by
  induction events generalizing state with
  | nil => exact replayed
  | cons event rest ih =>
    rw [List.foldl_cons]
    apply ih
    cases event with
    | frame item =>
      simp only [SignalRingState.recover]
      split
      · exact replayed
      · simp only [SignalRingState.rowTotal] at replayed ⊢
        omega
    | corrupted seqId rowCount => exact replayed
    | invalidHeader => exact replayed

theorem audited_opened {start : SignalRingState Batch} (isOpened : Opened start) (config : BufferConfig) :
    Audited config start.ring (opened start) where
  sound := isOpened.sound config
  counted := ⟨by simp [opened], by simp [opened]⟩
  rows := by
    have replayed : start.replayedRecords = start.rowTotal := by
      cases isOpened with
      | new => rfl
      | recovered watermark events _ _ _ => exact recover_rowTotal watermark events _ rfl
    simp [opened, replayed, RingWorld.quarantinedRows, RingWorld.liveLeases, liveValues]

theorem Audited.step {inner : BufferInner} {signal : SignalKind} {origin : SignalRing Batch}
    {audit next : RowAudit Batch} {action : RingAction Batch} (audited : Audited inner.config origin audit)
    (kept : audit.world.keepsRows inner.config action = true)
    (stepped : RowAudit.step inner signal audit action = some next) : Audited inner.config origin next := by
  obtain ⟨world, moved, rfl⟩ := Option.map_eq_some_iff.mp stepped
  obtain ⟨_, advance⟩ := audited.sound.step moved
  have tally := (audited.sound.tallies audited.counted moved kept).rows
  have rows := audited.rows
  exact
    { sound := advance.sound audited.sound
      counted := audited.counted.step audited.sound moved kept
      rows := by
        simp only
        omega }

theorem Audited.conserved {config : BufferConfig} {origin : SignalRing Batch} {audit : RowAudit Batch}
    (audited : Audited config origin audit) : audit.Conserved := by
  have rows := audited.rows
  have below := audited.sound.quarantined_le audited.counted
  simp only [SignalRingState.rowTotal] at rows
  simp only [Conserved, RingWorld.unresolvedRows]
  omega

/-- In every run whose steps all keep the attribution of rows, no admitted row is counted twice and none is
    lost. -/
theorem rows_conserved_of_run (inner : BufferInner) (signal : SignalKind) {start : SignalRingState Batch}
    (isOpened : Opened start) {audit : RowAudit Batch}
    (run : Run (step inner signal) (fun audit action => audit.world.keepsRows inner.config action = true)
      (opened start) audit) : audit.Conserved := by
  have audited : Audited inner.config start.ring audit := by
    refine run.invariant (Audited inner.config start.ring) (audited_opened isOpened inner.config) ?_
    intro before action after audited kept stepped
    exact audited.step kept stepped
  exact audited.conserved

/-- One row of a lease is quarantined and the lease acknowledged; the next lease is given back and discarded. -/
def quarantineThenAck : List (RingAction PlainBatch) :=
  [.enqueue ⟨0, 3, [1, 2]⟩ 5, .pop 6, .quarantineRows 1 1, .ack 1 (.ok ()), .enqueue ⟨0, 2, [3]⟩ 7, .pop 8,
    .nack 2 .transient 9 1 (.ok ()) (.ok ()), .discard]

theorem rows_conserved_of_run_quarantineThenAck :
    ∃ audit, executePermitted (step RingWorld.plainInner .logs)
        (fun audit action => audit.world.keepsRows RingWorld.plainInner.config action = true) (opened {})
        quarantineThenAck = some audit ∧
      audit.admitted = 5 ∧ audit.world.state.committedRecords = 2 ∧ audit.world.state.deadLetterDrops = 1 ∧
      audit.world.state.shutdownTimeoutDrops = 2 ∧ audit.Conserved :=
  ⟨_, rfl, rfl, rfl, rfl, rfl,
    rows_conserved_of_run RingWorld.plainInner .logs .new (executePermitted_run _ _ quarantineThenAck rfl)⟩

/-- One row of a lease is quarantined, the lease is given back, and its retry is acknowledged. -/
def quarantineThenRetry : List (RingAction PlainBatch) :=
  [.enqueue ⟨0, 2, [1, 2]⟩ 5, .pop 6, .quarantineRows 1 1, .nack 1 (.rejected "status 400") 7 1 (.ok ()) (.ok ()),
    .pop 8, .ack 1 (.ok ())]

/-- The quarantined row is counted as dead-lettered and as committed. -/
theorem rows_counted_twice :
    ∃ audit, execute (step RingWorld.plainInner .logs) (opened {}) quarantineThenRetry = some audit ∧
      audit.admitted = 2 ∧ audit.rolledBack = 0 ∧ audit.world.state.committedRecords = 2 ∧
      audit.world.state.deadLetterDrops = 1 ∧ audit.world.state.ring.rowsInFlight = 0 ∧ ¬audit.Conserved :=
  ⟨_, rfl, rfl, rfl, rfl, rfl, rfl, by unfold Conserved; decide⟩

end RowAudit

end OtelDatalake.Buffer
