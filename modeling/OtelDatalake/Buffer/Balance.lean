import OtelDatalake.Buffer.Lease

open Std OtelDatalake.Foundation

namespace OtelDatalake.Buffer

variable {Batch : Type} [RecordBatch Batch]

theorem enqueueOrdered_eq {queue : List (QueuedBatch Batch)} (sorted : Ascending (·.seqId) queue)
    (item : QueuedBatch Batch) : enqueueOrdered queue item = insertOrdered (·.seqId) item queue := by
  unfold enqueueOrdered
  split
  · rename_i behind
    refine (insertOrdered_above ?_).symm
    intro existing member
    rcases List.eq_nil_or_concat queue with rfl | ⟨front, last, rfl⟩
    · simp at member
    · rw [List.concat_eq_append] at sorted behind member
      have lastLower : last.seqId < item.seqId := by simpa using behind
      rcases List.mem_append.mp member with member | member
      · have lower : existing.seqId < last.seqId :=
          (List.pairwise_append.mp sorted).2.2 existing member last (by simp)
        exact (lower.trans lastLower).le
      · have same : existing = last := by simpa using member
        exact same ▸ lastLower.le
  · split
    · rename_i ahead
      refine (insertOrdered_below ?_).symm
      intro existing member
      cases queue with
      | nil => simp at member
      | cons front rest =>
        have frontHigher : item.seqId < front.seqId := by simpa using ahead
        rcases List.mem_cons.mp member with rfl | member
        · exact frontHigher
        · exact frontHigher.trans (sorted.head_lt existing member)
    · exact insertIdx_findIdx _ _ _

theorem enqueueOrdered_perm {queue : List (QueuedBatch Batch)} (sorted : Ascending (·.seqId) queue)
    (item : QueuedBatch Batch) : (enqueueOrdered queue item).Perm (item :: queue) := by
  rw [enqueueOrdered_eq sorted]
  exact insertOrdered_perm _ _ _

theorem mem_enqueueOrdered {queue : List (QueuedBatch Batch)} {item other : QueuedBatch Batch} :
    other ∈ enqueueOrdered queue item ↔ other = item ∨ other ∈ queue := by
  unfold enqueueOrdered
  split
  · simp [or_comm]
  · split
    · simp
    · have inserted := insertIdx_findIdx (·.seqId) item queue
      simp only [inserted]
      exact (insertOrdered_perm _ _ _).mem_iff.trans List.mem_cons

theorem enqueueOrdered_sum {queue : List (QueuedBatch Batch)} (sorted : Ascending (·.seqId) queue)
    (item : QueuedBatch Batch) (weight : QueuedBatch Batch → Nat) :
    ((enqueueOrdered queue item).map weight).sum = weight item + (queue.map weight).sum :=
  ((enqueueOrdered_perm sorted item).map weight).sum_eq

theorem releaseReclaimed_sum (watermark fuel : Nat) (evicted : ExtTreeMap Nat Nat) :
    (releaseReclaimed watermark fuel evicted (entrySum evicted)).2 =
      entrySum (releaseReclaimed watermark fuel evicted (entrySum evicted)).1 := by
  induction fuel generalizing evicted with
  | zero => rfl
  | succ fuel ih =>
    simp only [releaseReclaimed]
    split
    · rfl
    · rename_i seq charge first
      split
      · have split := entrySum_erase (firstKeyValue?_eq_some first).1
        have rest : entrySum evicted - charge = entrySum (evicted.erase seq) := by omega
        rw [rest]
        exact ih _
      · rfl

theorem releaseReclaimed_mem {watermark fuel bytes seq : Nat} {evicted : ExtTreeMap Nat Nat}
    (kept : seq ∈ (releaseReclaimed watermark fuel evicted bytes).1) : seq ∈ evicted := by
  induction fuel generalizing evicted bytes with
  | zero => exact kept
  | succ fuel ih =>
    simp only [releaseReclaimed] at kept
    split at kept
    · exact kept
    · split at kept
      · exact (ExtTreeMap.mem_erase.mp (ih kept)).2
      · exact kept

theorem releaseReclaimed_above {watermark fuel bytes : Nat} {evicted : ExtTreeMap Nat Nat}
    (enough : evicted.size ≤ fuel) :
    ∀ seq ∈ (releaseReclaimed watermark fuel evicted bytes).1, watermark < seq := by
  induction fuel generalizing evicted bytes with
  | zero =>
    intro seq member
    have empty : evicted = ∅ := ExtTreeMap.eq_empty_iff_size_eq_zero.mpr (Nat.le_zero.mp enough)
    simp [releaseReclaimed, empty] at member
  | succ fuel ih =>
    simp only [releaseReclaimed]
    split
    · rename_i none
      intro seq member
      exact absurd member (firstKeyValue?_eq_none.mp none seq)
    · rename_i first charge found
      obtain ⟨present, least⟩ := firstKeyValue?_eq_some found
      have member : first ∈ evicted := by rw [ExtTreeMap.mem_iff_isSome_getElem?, present]; rfl
      split
      · refine ih ?_
        rw [ExtTreeMap.size_erase, if_pos (ExtTreeMap.contains_iff_mem.mpr member)]
        omega
      · intro seq kept
        have := least seq kept
        omega

namespace SignalRing

structure Bounded (ring : SignalRing Batch) : Prop where
  nextPositive : 0 < ring.nextSeq
  positive : ∀ seq ∈ ring.slots, 0 < seq
  belowNext : ∀ seq ∈ ring.slots, seq < ring.nextSeq
  numbered : ring.nextSeq ≤ u64Max

/-- The candidate is the largest number below `next_seq` and below every active slot. -/
theorem le_watermarkCandidate {ring : SignalRing Batch} (bounded : ring.Bounded) (bound : Nat) :
    bound ≤ ring.watermarkCandidate ↔ bound < ring.nextSeq ∧ ∀ seq ∈ ring.slots, bound < seq := by
  have next := bounded.nextPositive
  unfold watermarkCandidate
  split
  · rename_i none
    have absent := firstKeyValue?_eq_none.mp none
    constructor
    · intro reached
      exact ⟨by omega, fun seq member => absurd member (absent seq)⟩
    · intro holds
      omega
  · rename_i first slot found
    obtain ⟨present, least⟩ := firstKeyValue?_eq_some found
    have member : first ∈ ring.slots := by rw [ExtTreeMap.mem_iff_isSome_getElem?, present]; rfl
    have firstPositive := bounded.positive first member
    have firstBelow := bounded.belowNext first member
    constructor
    · intro reached
      refine ⟨by omega, fun seq held => ?_⟩
      have := least seq held
      omega
    · intro holds
      have := holds.2 first member
      omega

theorem watermarkCandidate_mono {before after : SignalRing Batch} (boundedBefore : before.Bounded)
    (boundedAfter : after.Bounded) (next : before.nextSeq ≤ after.nextSeq)
    (slots : ∀ seq ∈ after.slots, seq ∈ before.slots ∨ before.nextSeq ≤ seq) :
    before.watermarkCandidate ≤ after.watermarkCandidate := by
  obtain ⟨lower, above⟩ := (le_watermarkCandidate boundedBefore _).mp le_rfl
  refine (le_watermarkCandidate boundedAfter _).mpr ⟨by omega, fun seq member => ?_⟩
  rcases slots seq member with held | fresh
  · exact above seq held
  · omega

theorem Bounded.watermarkCandidate_lt {ring : SignalRing Batch} (bounded : ring.Bounded) :
    ring.watermarkCandidate < ring.nextSeq ∧ ∀ seq ∈ ring.slots, ring.watermarkCandidate < seq :=
  (le_watermarkCandidate bounded _).mp le_rfl

@[simp] theorem advanceWatermark_committed (ring : SignalRing Batch) (committedSeq : Nat) :
    (ring.advanceWatermark committedSeq).2 = max committedSeq ring.watermarkCandidate := rfl

@[simp] theorem advanceWatermark_candidate (ring : SignalRing Batch) (committedSeq : Nat) :
    (ring.advanceWatermark committedSeq).1.watermarkCandidate = ring.watermarkCandidate := rfl

def queueSlots (queue : List (QueuedBatch Batch)) : List (Nat × LeaseSlotState) :=
  queue.map fun item => (item.seqId, .queued)

def reservedSlots (reserved : List (AppendReservation Batch)) : List (Nat × LeaseSlotState) :=
  reserved.map fun reservation => (reservation.seqId, .reserved)

def leasedSlots (leased : List LeasedBatchMeta) : List (Nat × LeaseSlotState) :=
  leased.map fun item => (item.seqId, .inFlight)

/-- The ring's slots and counters agree with its queue, with the reservations whose slots it still has and
    with the leased batches whose slots it still has. -/
structure Balanced (ring : SignalRing Batch) (reserved : List (AppendReservation Batch))
    (leased : List LeasedBatchMeta) : Prop extends ring.Bounded where
  ascending : Ascending (·.seqId) ring.queue
  indexed : Indexes ring.slots (queueSlots ring.queue ++ (reservedSlots reserved ++ leasedSlots leased))
  bytes : ring.bytesInFlight = (ring.queue.map (·.byteSize)).sum +
    (reserved.map (·.frameBytesLen)).sum + (leased.map (·.byteSize)).sum
  rows : ring.rowsInFlight = (ring.queue.map (·.rowCount)).sum +
    (reserved.map (·.batchRows)).sum + (leased.map (·.rowCount)).sum
  enqueuedAt : ∀ seq, seq ∈ ring.inflightEnqueuedAt ↔ seq ∈ leased.map (·.seqId)
  unreclaimed : ring.unreclaimedDiskBytes = entrySum ring.evictedUnreclaimedBytes
  evictedGone : ∀ seq ∈ ring.evictedUnreclaimedBytes, seq ∉ ring.slots ∧ seq < ring.nextSeq

namespace Balanced

variable {ring : SignalRing Batch} {reserved : List (AppendReservation Batch)}
  {leased : List LeasedBatchMeta}

theorem queued_mem (balanced : ring.Balanced reserved leased) {item : QueuedBatch Batch}
    (member : item ∈ ring.queue) : ring.slots[item.seqId]? = some .queued := by
  refine (balanced.indexed.2 _ _).mpr (List.mem_append_left _ ?_)
  exact List.mem_map.mpr ⟨item, member, rfl⟩

theorem queued_lt (balanced : ring.Balanced reserved leased) {item : QueuedBatch Batch}
    (member : item ∈ ring.queue) : item.seqId < ring.nextSeq := by
  refine balanced.belowNext _ ?_
  rw [ExtTreeMap.mem_iff_isSome_getElem?, balanced.queued_mem member]
  rfl

theorem reserved_mem (balanced : ring.Balanced reserved leased) {reservation : AppendReservation Batch}
    (member : reservation ∈ reserved) : ring.slots[reservation.seqId]? = some .reserved := by
  refine (balanced.indexed.2 _ _).mpr (List.mem_append_right _ (List.mem_append_left _ ?_))
  exact List.mem_map.mpr ⟨reservation, member, rfl⟩

theorem leased_mem (balanced : ring.Balanced reserved leased) {item : LeasedBatchMeta}
    (member : item ∈ leased) : ring.slots[item.seqId]? = some .inFlight := by
  refine (balanced.indexed.2 _ _).mpr (List.mem_append_right _ (List.mem_append_right _ ?_))
  exact List.mem_map.mpr ⟨item, member, rfl⟩

theorem leased_nodup (balanced : ring.Balanced reserved leased) : (leased.map (·.seqId)).Nodup := by
  have nodup := balanced.indexed.1
  simp only [List.map_append] at nodup
  have inner := (List.nodup_append.mp (List.nodup_append.mp nodup).2.1).2.1
  simpa [leasedSlots, Function.comp_def] using inner

theorem fresh (balanced : ring.Balanced reserved leased) : ring.nextSeq ∉ ring.slots := fun member =>
  absurd (balanced.belowNext _ member) (Nat.lt_irrefl _)

theorem perm {reordered : List (AppendReservation Batch)} {moved : List LeasedBatchMeta}
    (balanced : ring.Balanced reserved leased) (reservations : reserved.Perm reordered)
    (items : leased.Perm moved) : ring.Balanced reordered moved where
  toBounded := balanced.toBounded
  ascending := balanced.ascending
  indexed := balanced.indexed.perm
    (List.Perm.append_left _ ((reservations.map _).append (items.map _)))
  bytes := by rw [balanced.bytes, (reservations.map _).sum_eq, (items.map _).sum_eq]
  rows := by rw [balanced.rows, (reservations.map _).sum_eq, (items.map _).sum_eq]
  enqueuedAt seq := (balanced.enqueuedAt seq).trans (items.map _).mem_iff
  unreclaimed := balanced.unreclaimed
  evictedGone := balanced.evictedGone

theorem restamp {stamped : List LeasedBatchMeta} (balanced : ring.Balanced reserved leased)
    (seqIds : stamped.map (·.seqId) = leased.map (·.seqId))
    (sizes : stamped.map (·.byteSize) = leased.map (·.byteSize))
    (counts : stamped.map (·.rowCount) = leased.map (·.rowCount)) : ring.Balanced reserved stamped where
  toBounded := balanced.toBounded
  ascending := balanced.ascending
  indexed := by
    have slots : leasedSlots stamped = leasedSlots leased := by
      have keyed := congrArg (List.map fun seq => (seq, LeaseSlotState.inFlight)) seqIds
      simpa [leasedSlots, Function.comp_def] using keyed
    rw [slots]
    exact balanced.indexed
  bytes := by rw [sizes, balanced.bytes]
  rows := by rw [counts, balanced.rows]
  enqueuedAt seq := by rw [seqIds, balanced.enqueuedAt]
  unreclaimed := balanced.unreclaimed
  evictedGone := balanced.evictedGone

theorem advance (balanced : ring.Balanced reserved leased) (committedSeq : Nat) :
    (ring.advanceWatermark committedSeq).1.Balanced reserved leased where
  toBounded := ⟨balanced.nextPositive, balanced.positive, balanced.belowNext, balanced.numbered⟩
  ascending := balanced.ascending
  indexed := balanced.indexed
  bytes := balanced.bytes
  rows := balanced.rows
  enqueuedAt := balanced.enqueuedAt
  unreclaimed := by
    simp only [advanceWatermark, balanced.unreclaimed]
    exact releaseReclaimed_sum _ _ _
  evictedGone seq member := balanced.evictedGone seq (releaseReclaimed_mem member)

theorem evict {front : QueuedBatch Batch} {rest : List (QueuedBatch Batch)}
    (balanced : ring.Balanced reserved leased) (queue : ring.queue = front :: rest) :
    ({ ring with queue := rest }.releaseEvicted front).Balanced reserved leased := by
  have held : front.seqId ∈ ring.slots := by
    rw [ExtTreeMap.mem_iff_isSome_getElem?, balanced.queued_mem (by simp [queue])]
    rfl
  have notEvicted : front.seqId ∉ ring.evictedUnreclaimedBytes := fun member =>
    (balanced.evictedGone _ member).1 held
  have ascending := balanced.ascending
  have indexed := balanced.indexed
  have bytes := balanced.bytes
  have rows := balanced.rows
  rw [queue] at ascending indexed bytes rows
  simp only [List.map_cons, List.sum_cons] at bytes rows
  have kept : ∀ seq ∈ ring.slots.erase front.seqId, seq ∈ ring.slots := fun seq member =>
    (ExtTreeMap.mem_erase.mp member).2
  have gone : ∀ seq ∈ ring.evictedUnreclaimedBytes,
      seq ∉ ring.slots.erase front.seqId ∧ seq < ring.nextSeq := fun seq member =>
    ⟨fun back => (balanced.evictedGone seq member).1 (kept seq back), (balanced.evictedGone seq member).2⟩
  cases onDisk : front.payload.isOnDisk
  · simp only [releaseEvicted, onDisk, Bool.false_eq_true, if_false]
    exact
      { nextPositive := balanced.nextPositive
        positive := fun seq member => balanced.positive seq (kept seq member)
        belowNext := fun seq member => balanced.belowNext seq (kept seq member)
        numbered := balanced.numbered
        ascending := ascending.of_cons
        indexed := indexed.erase
        bytes := by simp only [bytes]; omega
        rows := by simp only [rows]; omega
        enqueuedAt := balanced.enqueuedAt
        unreclaimed := balanced.unreclaimed
        evictedGone := gone }
  · simp only [releaseEvicted, onDisk, if_true]
    exact
      { nextPositive := balanced.nextPositive
        positive := fun seq member => balanced.positive seq (kept seq member)
        belowNext := fun seq member => balanced.belowNext seq (kept seq member)
        numbered := balanced.numbered
        ascending := ascending.of_cons
        indexed := indexed.erase
        bytes := by simp only [bytes]; omega
        rows := by simp only [rows]; omega
        enqueuedAt := balanced.enqueuedAt
        unreclaimed := by
          simp only
          rw [entrySum_insert notEvicted front.byteSize, balanced.unreclaimed, Nat.add_comm]
        evictedGone := by
          intro seq member
          rcases ExtTreeMap.mem_insert.mp member with same | member
          · have equal : front.seqId = seq := by simpa using same
            subst equal
            exact ⟨by simp, balanced.belowNext _ held⟩
          · exact gone seq member }

theorem assign_bounds (balanced : ring.Balanced reserved leased) (state : LeaseSlotState) :
    (∀ seq ∈ ring.slots.insert ring.nextSeq state, 0 < seq ∧ seq < ring.nextSeq + 1) ∧
      ∀ seq ∈ ring.evictedUnreclaimedBytes,
        seq ∉ ring.slots.insert ring.nextSeq state ∧ seq < ring.nextSeq + 1 := by
  constructor
  · intro seq member
    rcases ExtTreeMap.mem_insert.mp member with same | held
    · have equal : ring.nextSeq = seq := by simpa using same
      have := balanced.nextPositive
      omega
    · have := balanced.positive seq held
      have := balanced.belowNext seq held
      omega
  · intro seq member
    obtain ⟨absent, below⟩ := balanced.evictedGone seq member
    refine ⟨fun back => ?_, by omega⟩
    rcases ExtTreeMap.mem_insert.mp back with same | held
    · have equal : ring.nextSeq = seq := by simpa using same
      omega
    · exact absent held

theorem enqueue (balanced : ring.Balanced reserved leased) (item : QueuedBatch Batch)
    (assigned : item.seqId = ring.nextSeq) (numbered : ring.nextSeq < u64Max) :
    { ring with
      nextSeq := ring.nextSeq + 1
      bytesInFlight := ring.bytesInFlight + item.byteSize
      rowsInFlight := ring.rowsInFlight + item.rowCount
      slots := ring.slots.insert ring.nextSeq .queued
      queue := ring.queue ++ [item] }.Balanced reserved leased where
  nextPositive := Nat.succ_pos _
  positive seq member := ((balanced.assign_bounds .queued).1 seq member).1
  belowNext seq member := ((balanced.assign_bounds .queued).1 seq member).2
  numbered := numbered
  ascending := by
    refine balanced.ascending.append (List.pairwise_singleton _ _) ?_
    intro low member high last
    have same : high = item := by simpa using last
    subst same
    rw [assigned]
    exact balanced.queued_lt member
  indexed := by
    refine (balanced.indexed.insert balanced.fresh .queued).perm ?_
    simp only [queueSlots, List.map_append, List.map_cons, List.map_nil, assigned, List.append_assoc,
      List.singleton_append]
    exact List.perm_middle.symm
  bytes := by simp [balanced.bytes]; omega
  rows := by simp [balanced.rows]; omega
  enqueuedAt := balanced.enqueuedAt
  unreclaimed := balanced.unreclaimed
  evictedGone := (balanced.assign_bounds .queued).2

theorem reserve (balanced : ring.Balanced reserved leased) {reservation : AppendReservation Batch}
    (assigned : reservation.seqId = ring.nextSeq) (numbered : ring.nextSeq < u64Max) :
    { ring with
      nextSeq := ring.nextSeq + 1
      bytesInFlight := ring.bytesInFlight + reservation.frameBytesLen
      rowsInFlight := ring.rowsInFlight + reservation.batchRows
      slots := ring.slots.insert ring.nextSeq .reserved }.Balanced (reservation :: reserved) leased where
  nextPositive := Nat.succ_pos _
  positive seq member := ((balanced.assign_bounds .reserved).1 seq member).1
  belowNext seq member := ((balanced.assign_bounds .reserved).1 seq member).2
  numbered := numbered
  ascending := balanced.ascending
  indexed := by
    refine (balanced.indexed.insert balanced.fresh .reserved).perm ?_
    simp only [reservedSlots, List.map_cons, assigned, List.cons_append]
    exact List.perm_middle.symm
  bytes := by simp [balanced.bytes]; omega
  rows := by simp [balanced.rows]; omega
  enqueuedAt := balanced.enqueuedAt
  unreclaimed := balanced.unreclaimed
  evictedGone := (balanced.assign_bounds .reserved).2

theorem queue_slot (balanced : ring.Balanced reserved leased) (item : QueuedBatch Batch)
    {state : LeaseSlotState} {others : List (Nat × LeaseSlotState)}
    (distinct : state ≠ .queued)
    (split : (queueSlots ring.queue ++ (reservedSlots reserved ++ leasedSlots leased)).Perm
      ((item.seqId, state) :: (queueSlots ring.queue ++ others))) :
    Ascending (·.seqId) (enqueueOrdered ring.queue item) ∧
      Indexes (ring.slots.insert item.seqId .queued)
        (queueSlots (enqueueOrdered ring.queue item) ++ others) := by
  have indexed := balanced.indexed.perm split
  have unqueued : item.seqId ∉ ring.queue.map (·.seqId) := by
    intro member
    obtain ⟨existing, present, same⟩ := List.mem_map.mp member
    have queued := balanced.queued_mem present
    rw [same, (indexed.2 item.seqId state).mpr (by simp)] at queued
    exact distinct (Option.some.inj queued)
  refine ⟨?_, ?_⟩
  · rw [enqueueOrdered_eq balanced.ascending]
    exact balanced.ascending.insertOrdered unqueued
  · refine (indexed.update .queued).perm ?_
    have moved := (enqueueOrdered_perm balanced.ascending item).map
      (fun entry : QueuedBatch Batch => (entry.seqId, LeaseSlotState.queued))
    exact (List.Perm.append_right others moved).symm

theorem finish {reservation : AppendReservation Batch}
    (balanced : ring.Balanced (reservation :: reserved) leased) (written : WrittenFrame) (now : Instant) :
    { ring with
      bytesInFlight := ring.bytesInFlight - reservation.frameBytesLen + written.len
      slots := ring.slots.insert reservation.seqId .queued
      queue := enqueueOrdered ring.queue (reservation.queuedBatch written now) }.Balanced reserved leased := by
  have held : reservation.seqId ∈ ring.slots := by
    rw [ExtTreeMap.mem_iff_isSome_getElem?, balanced.reserved_mem (by simp)]
    rfl
  have same := mem_insert_held held LeaseSlotState.queued
  obtain ⟨ascending, indexed⟩ := balanced.queue_slot (reservation.queuedBatch written now)
    (show LeaseSlotState.reserved ≠ .queued by decide) List.perm_middle
  have bytes := balanced.bytes
  have rows := balanced.rows
  simp only [List.map_cons, List.sum_cons] at bytes rows
  exact
    { nextPositive := balanced.nextPositive
      positive := fun seq member => balanced.positive seq ((same seq).mp member)
      belowNext := fun seq member => balanced.belowNext seq ((same seq).mp member)
      numbered := balanced.numbered
      ascending := ascending
      indexed := indexed
      bytes := by
        simp only [enqueueOrdered_sum balanced.ascending, bytes, AppendReservation.queuedBatch]
        omega
      rows := by
        simp only [enqueueOrdered_sum balanced.ascending, rows, AppendReservation.queuedBatch]
        omega
      enqueuedAt := balanced.enqueuedAt
      unreclaimed := balanced.unreclaimed
      evictedGone := fun seq member =>
        ⟨fun back => (balanced.evictedGone seq member).1 ((same seq).mp back),
          (balanced.evictedGone seq member).2⟩ }

theorem rollback {reservation : AppendReservation Batch}
    (balanced : ring.Balanced (reservation :: reserved) leased) :
    { ring with
      slots := ring.slots.erase reservation.seqId
      bytesInFlight := ring.bytesInFlight - reservation.frameBytesLen
      rowsInFlight := ring.rowsInFlight - reservation.batchRows }.Balanced reserved leased := by
  have kept : ∀ seq ∈ ring.slots.erase reservation.seqId, seq ∈ ring.slots := fun seq member =>
    (ExtTreeMap.mem_erase.mp member).2
  have bytes := balanced.bytes
  have rows := balanced.rows
  simp only [List.map_cons, List.sum_cons] at bytes rows
  exact
    { nextPositive := balanced.nextPositive
      positive := fun seq member => balanced.positive seq (kept seq member)
      belowNext := fun seq member => balanced.belowNext seq (kept seq member)
      numbered := balanced.numbered
      ascending := balanced.ascending
      indexed := (balanced.indexed.perm List.perm_middle).erase
      bytes := by simp only [bytes]; omega
      rows := by simp only [rows]; omega
      enqueuedAt := balanced.enqueuedAt
      unreclaimed := balanced.unreclaimed
      evictedGone := fun seq member =>
        ⟨fun back => (balanced.evictedGone seq member).1 (kept seq back),
          (balanced.evictedGone seq member).2⟩ }

theorem clear (bounded : ring.Bounded) : ring.clear.Balanced [] [] where
  nextPositive := bounded.nextPositive
  positive seq member := absurd member ExtTreeMap.not_mem_empty
  belowNext seq member := absurd member ExtTreeMap.not_mem_empty
  numbered := bounded.numbered
  ascending := List.Pairwise.nil
  indexed := Indexes.empty
  bytes := rfl
  rows := rfl
  enqueuedAt seq := iff_of_false ExtTreeMap.not_mem_empty (by simp)
  unreclaimed := rfl
  evictedGone seq member := absurd member ExtTreeMap.not_mem_empty

omit [RecordBatch Batch] in
theorem mem_insert_enqueuedAt [RecordBatch Batch] {items : List (QueuedBatch Batch)}
    {times : ExtTreeMap Nat Instant} {seq : Nat} :
    seq ∈ items.foldl (fun times item => times.insert item.seqId item.enqueuedAt) times ↔
      seq ∈ items.map (·.seqId) ∨ seq ∈ times := by
  induction items generalizing times with
  | nil => simp
  | cons item rest ih =>
    rw [List.foldl_cons, ih, ExtTreeMap.mem_insert, List.map_cons, List.mem_cons]
    rw [Std.compare_eq_iff_eq, eq_comm (a := item.seqId)]
    tauto

theorem leaseItems_slots {items rest : List (QueuedBatch Batch)} (balanced : ring.Balanced reserved leased)
    (queue : ring.queue = items ++ rest) :
    Indexes (ring.leaseItems items rest).slots ((items.map (·.seqId)).map (·, .inFlight) ++
      (queueSlots rest ++ (reservedSlots reserved ++ leasedSlots leased))) ∧
      ∀ seq, seq ∈ (ring.leaseItems items rest).slots ↔ seq ∈ ring.slots := by
  have indexed := balanced.indexed
  have split : queueSlots ring.queue ++ (reservedSlots reserved ++ leasedSlots leased) =
      (items.map (·.seqId)).map (·, .queued) ++
        (queueSlots rest ++ (reservedSlots reserved ++ leasedSlots leased)) := by
    simp [queueSlots, queue]
  rw [split] at indexed
  have restated := indexed.insertKeys .inFlight
  refine ⟨restated, fun seq => ?_⟩
  rw [indexed.mem_iff]
  refine (restated.mem_iff seq).trans ?_
  simp

theorem lease {items rest : List (QueuedBatch Batch)} (balanced : ring.Balanced reserved leased)
    (queue : ring.queue = items ++ rest) :
    (ring.leaseItems items rest).Balanced reserved (items.map (·.leasedMeta) ++ leased) := by
  have ascending := balanced.ascending
  have bytes := balanced.bytes
  have rows := balanced.rows
  rw [queue] at ascending bytes rows
  simp only [List.map_append, List.sum_append] at bytes rows
  obtain ⟨restated, held⟩ := balanced.leaseItems_slots queue
  refine
    { nextPositive := balanced.nextPositive
      positive := fun seq member => balanced.positive seq ((held seq).mp member)
      belowNext := fun seq member => balanced.belowNext seq ((held seq).mp member)
      numbered := balanced.numbered
      ascending := (List.pairwise_append.mp ascending).2.1
      indexed := restated.perm ?_
      bytes := ?_
      rows := ?_
      enqueuedAt := ?_
      unreclaimed := balanced.unreclaimed
      evictedGone := fun seq member =>
        ⟨fun back => (balanced.evictedGone seq member).1 ((held seq).mp back),
          (balanced.evictedGone seq member).2⟩ }
  · have slots : leasedSlots (items.map (·.leasedMeta) ++ leased) =
        (items.map (·.seqId)).map (·, .inFlight) ++ leasedSlots leased := by
      simp [leasedSlots, QueuedBatch.leasedMeta]
    rw [slots]
    refine List.perm_append_comm_assoc _ _ _ |>.trans ?_
    exact List.Perm.append_left _ (List.perm_append_comm_assoc _ _ _)
  · simp only [leaseItems, bytes, List.map_append, List.sum_append, List.map_map]
    simp only [Function.comp_def, QueuedBatch.leasedMeta]
    omega
  · simp only [leaseItems, rows, List.map_append, List.sum_append, List.map_map]
    simp only [Function.comp_def, QueuedBatch.leasedMeta]
    omega
  · intro seq
    simp only [leaseItems, mem_insert_enqueuedAt, balanced.enqueuedAt, List.map_append, List.mem_append,
      List.map_map]
    rfl

theorem ackEntry_owned {items : List LeasedBatchMeta} (progress : AckProgress)
    (owned : ∀ item ∈ items, progress.slots[item.seqId]? = some .inFlight)
    (distinct : (items.map (·.seqId)).Nodup) :
    items.foldl ackEntry progress =
      { slots := eraseKeys progress.slots (items.map (·.seqId))
        inflightEnqueuedAt := eraseKeys progress.inflightEnqueuedAt (items.map (·.seqId))
        ackedBytes := progress.ackedBytes + (items.map (·.byteSize)).sum
        ackedRows := progress.ackedRows + (items.map (·.rowCount)).sum
        anyAcked := progress.anyAcked || !items.isEmpty } := by
  induction items generalizing progress with
  | nil => simp [eraseKeys]
  | cons item rest ih =>
    have first := owned item (by simp)
    obtain ⟨absent, distinct⟩ := List.nodup_cons.mp distinct
    rw [List.foldl_cons]
    have acked : ackEntry progress item =
        { slots := progress.slots.erase item.seqId
          inflightEnqueuedAt := progress.inflightEnqueuedAt.erase item.seqId
          ackedBytes := progress.ackedBytes + item.byteSize
          ackedRows := progress.ackedRows + item.rowCount
          anyAcked := true } := by
      simp [ackEntry, first]
    rw [acked, ih _ ?_ distinct]
    · simp [eraseKeys, Nat.add_assoc]
    · intro other member
      have different : item.seqId ≠ other.seqId := fun same =>
        absent (List.mem_map.mpr ⟨other, member, same.symm⟩)
      simp [ExtTreeMap.getElem?_erase, different, owned other (by simp [member])]

theorem ackEntry_absent {items : List LeasedBatchMeta} (progress : AckProgress)
    (absent : ∀ item ∈ items, item.seqId ∉ progress.slots ∧ item.seqId ∉ progress.inflightEnqueuedAt) :
    items.foldl ackEntry progress = progress := by
  induction items generalizing progress with
  | nil => rfl
  | cons item rest ih =>
    obtain ⟨noSlot, noTime⟩ := absent item (by simp)
    have kept : ackEntry progress item = progress := by
      have missing : progress.slots[item.seqId]? = none := by simpa using noSlot
      simp [ackEntry, missing, erase_absent noSlot, erase_absent noTime]
    rw [List.foldl_cons, kept]
    exact ih progress fun other member => absent other (by simp [member])

theorem ack {items : List LeasedBatchMeta} (acked : AckProgress)
    (balanced : ring.Balanced reserved (items ++ leased))
    (slots : acked.slots = eraseKeys ring.slots (items.map (·.seqId)))
    (times : acked.inflightEnqueuedAt = eraseKeys ring.inflightEnqueuedAt (items.map (·.seqId)))
    (ackedBytes : acked.ackedBytes = (items.map (·.byteSize)).sum)
    (ackedRows : acked.ackedRows = (items.map (·.rowCount)).sum) :
    (ring.releaseAcked acked).Balanced reserved leased := by
  have bytes := balanced.bytes
  have rows := balanced.rows
  simp only [List.map_append, List.sum_append] at bytes rows
  have moved : (queueSlots ring.queue ++ (reservedSlots reserved ++ leasedSlots (items ++ leased))).Perm
      ((items.map (·.seqId)).map (·, .inFlight) ++
        (queueSlots ring.queue ++ (reservedSlots reserved ++ leasedSlots leased))) := by
    have slots : leasedSlots (items ++ leased) =
        (items.map (·.seqId)).map (·, .inFlight) ++ leasedSlots leased := by simp [leasedSlots]
    rw [slots]
    refine (List.Perm.append_left _ (List.perm_append_comm_assoc _ _ _)).trans ?_
    exact List.perm_append_comm_assoc _ _ _
  have indexed := (balanced.indexed.perm moved).eraseKeys
  have kept : ∀ seq ∈ eraseKeys ring.slots (items.map (·.seqId)), seq ∈ ring.slots := fun seq member =>
    (mem_eraseKeys.mp member).2
  have distinct : ((items ++ leased).map (·.seqId)).Nodup := balanced.leased_nodup
  rw [← slots] at indexed kept
  exact
    { nextPositive := balanced.nextPositive
      positive := fun seq member => balanced.positive seq (kept seq member)
      belowNext := fun seq member => balanced.belowNext seq (kept seq member)
      numbered := balanced.numbered
      ascending := balanced.ascending
      indexed := indexed
      bytes := by simp only [releaseAcked, bytes, ackedBytes]; omega
      rows := by simp only [releaseAcked, rows, ackedRows]; omega
      enqueuedAt := by
        intro seq
        simp only [releaseAcked, times]
        rw [mem_eraseKeys, balanced.enqueuedAt]
        rw [List.map_append, List.nodup_append] at distinct
        rw [List.map_append, List.mem_append]
        constructor
        · rintro ⟨absent, member | member⟩
          · exact absurd member absent
          · exact member
        · intro member
          exact ⟨fun other => distinct.2.2 seq other seq member rfl, Or.inr member⟩
      unreclaimed := balanced.unreclaimed
      evictedGone := fun seq member =>
        ⟨fun back => (balanced.evictedGone seq member).1 (kept seq back),
          (balanced.evictedGone seq member).2⟩ }

def requeued (nextAttempt : Nat) (readyAt : Option Instant)
    (entry : BatchPayload Batch × LeasedBatchMeta) : QueuedBatch Batch :=
  { seqId := entry.2.seqId
    payload := entry.1
    byteSize := entry.2.byteSize
    rowCount := entry.2.rowCount
    enqueuedAt := entry.2.enqueuedAt
    firstFailedAt := entry.2.firstFailedAt
    attempt := nextAttempt
    readyAt := readyAt }

theorem requeueEntry_owned {entry : BatchPayload Batch × LeasedBatchMeta}
    (owned : ring.slots[entry.2.seqId]? = some .inFlight) (nextAttempt : Nat) (readyAt : Option Instant)
    (flag : Bool) :
    requeueEntry nextAttempt readyAt (ring, flag) entry =
      ({ ring with
        inflightEnqueuedAt := ring.inflightEnqueuedAt.erase entry.2.seqId
        slots := ring.slots.insert entry.2.seqId .queued
        queue := enqueueOrdered ring.queue (requeued nextAttempt readyAt entry) }, true) := by
  simp [requeueEntry, owned, requeued]

theorem requeueEntry_absent {entry : BatchPayload Batch × LeasedBatchMeta}
    (noSlot : entry.2.seqId ∉ ring.slots) (noTime : entry.2.seqId ∉ ring.inflightEnqueuedAt)
    (nextAttempt : Nat) (readyAt : Option Instant) (flag : Bool) :
    requeueEntry nextAttempt readyAt (ring, flag) entry = (ring, flag) := by
  have missing : ring.slots[entry.2.seqId]? = none := by simpa using noSlot
  simp [requeueEntry, missing, erase_absent noTime]

theorem requeue_entry {entry : BatchPayload Batch × LeasedBatchMeta}
    (balanced : ring.Balanced reserved (entry.2 :: leased)) (nextAttempt : Nat) (readyAt : Option Instant) :
    { ring with
      inflightEnqueuedAt := ring.inflightEnqueuedAt.erase entry.2.seqId
      slots := ring.slots.insert entry.2.seqId .queued
      queue := enqueueOrdered ring.queue (requeued nextAttempt readyAt entry) }.Balanced reserved leased := by
  have held : entry.2.seqId ∈ ring.slots := by
    rw [ExtTreeMap.mem_iff_isSome_getElem?, balanced.leased_mem (by simp)]
    rfl
  have same := mem_insert_held held LeaseSlotState.queued
  have split : (queueSlots ring.queue ++ (reservedSlots reserved ++ leasedSlots (entry.2 :: leased))).Perm
      (((requeued nextAttempt readyAt entry).seqId, .inFlight) ::
        (queueSlots ring.queue ++ (reservedSlots reserved ++ leasedSlots leased))) :=
    (List.Perm.append_left _ List.perm_middle).trans List.perm_middle
  obtain ⟨ascending, indexed⟩ := balanced.queue_slot (requeued nextAttempt readyAt entry) (by decide) split
  have absent : entry.2.seqId ∉ leased.map (·.seqId) := by
    have distinct := (balanced.indexed.perm split).1
    have inner := (List.nodup_cons.mp distinct).1
    simp only [List.map_append, List.mem_append, not_or] at inner
    simpa [leasedSlots, requeued] using inner.2.2
  have bytes := balanced.bytes
  have rows := balanced.rows
  simp only [List.map_cons, List.sum_cons] at bytes rows
  exact
    { nextPositive := balanced.nextPositive
      positive := fun seq member => balanced.positive seq ((same seq).mp member)
      belowNext := fun seq member => balanced.belowNext seq ((same seq).mp member)
      numbered := balanced.numbered
      ascending := ascending
      indexed := indexed
      bytes := by
        simp only [enqueueOrdered_sum balanced.ascending, bytes, requeued]
        omega
      rows := by
        simp only [enqueueOrdered_sum balanced.ascending, rows, requeued]
        omega
      enqueuedAt := by
        intro seq
        simp only [ExtTreeMap.mem_erase, balanced.enqueuedAt, ne_eq, Std.compare_eq_iff_eq, List.map_cons,
          List.mem_cons]
        constructor
        · rintro ⟨different, same | member⟩
          · exact absurd same.symm different
          · exact member
        · intro member
          exact ⟨fun same => absent (same ▸ member), Or.inr member⟩
      unreclaimed := balanced.unreclaimed
      evictedGone := fun seq member =>
        ⟨fun back => (balanced.evictedGone seq member).1 ((same seq).mp back),
          (balanced.evictedGone seq member).2⟩ }

/-- What the loop of `requeue_at_head` leaves alone. -/
structure Requeued (before after : SignalRing Batch) : Prop where
  nextSeq : after.nextSeq = before.nextSeq
  inflightLeases : after.inflightLeases = before.inflightLeases
  slots : ∀ seq, seq ∈ after.slots ↔ seq ∈ before.slots

theorem requeue {entries : List (BatchPayload Batch × LeasedBatchMeta)}
    (balanced : ring.Balanced reserved (entries.map Prod.snd ++ leased)) (nextAttempt : Nat)
    (readyAt : Option Instant) (flag : Bool) :
    (entries.foldl (requeueEntry nextAttempt readyAt) (ring, flag)).1.Balanced reserved leased ∧
      (entries.foldl (requeueEntry nextAttempt readyAt) (ring, flag)).2 = (flag || !entries.isEmpty) ∧
      Requeued ring (entries.foldl (requeueEntry nextAttempt readyAt) (ring, flag)).1 := by
  induction entries generalizing ring flag with
  | nil => exact ⟨balanced, by simp, ⟨rfl, rfl, fun _ => Iff.rfl⟩⟩
  | cons entry rest ih =>
    have owned := balanced.leased_mem (show entry.2 ∈ _ by simp)
    have held : entry.2.seqId ∈ ring.slots := by
      rw [ExtTreeMap.mem_iff_isSome_getElem?, owned]
      rfl
    rw [List.foldl_cons, requeueEntry_owned owned]
    obtain ⟨after, flagged, unchanged⟩ := ih (requeue_entry balanced nextAttempt readyAt) true
    refine ⟨after, by simp [flagged], unchanged.nextSeq, unchanged.inflightLeases, fun seq => ?_⟩
    exact (unchanged.slots seq).trans (mem_insert_held held _ seq)

theorem requeue_queue {entries : List (BatchPayload Batch × LeasedBatchMeta)}
    (balanced : ring.Balanced reserved (entries.map Prod.snd ++ leased)) (nextAttempt : Nat)
    (readyAt : Option Instant) (flag : Bool) (item : QueuedBatch Batch) :
    item ∈ (entries.foldl (requeueEntry nextAttempt readyAt) (ring, flag)).1.queue ↔
      item ∈ ring.queue ∨ item ∈ entries.map (requeued nextAttempt readyAt) := by
  induction entries generalizing ring flag with
  | nil => simp
  | cons entry rest ih =>
    have owned := balanced.leased_mem (show entry.2 ∈ _ by simp)
    rw [List.foldl_cons, requeueEntry_owned owned, ih (requeue_entry balanced nextAttempt readyAt) true]
    rw [mem_enqueueOrdered, List.map_cons, List.mem_cons]
    tauto

theorem requeue_absent {entries : List (BatchPayload Batch × LeasedBatchMeta)}
    (absent : ∀ entry ∈ entries, entry.2.seqId ∉ ring.slots ∧ entry.2.seqId ∉ ring.inflightEnqueuedAt)
    (nextAttempt : Nat) (readyAt : Option Instant) (flag : Bool) :
    entries.foldl (requeueEntry nextAttempt readyAt) (ring, flag) = (ring, flag) := by
  induction entries with
  | nil => rfl
  | cons entry rest ih =>
    obtain ⟨noSlot, noTime⟩ := absent entry (by simp)
    rw [List.foldl_cons, requeueEntry_absent noSlot noTime]
    exact ih fun other member => absent other (by simp [member])

end Balanced

end SignalRing

end OtelDatalake.Buffer
