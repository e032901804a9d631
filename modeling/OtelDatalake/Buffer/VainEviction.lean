import OtelDatalake.Buffer.Budget

open Std OtelDatalake.Foundation

namespace OtelDatalake.Buffer

variable {Batch : Type} [RecordBatch Batch]

namespace SignalRing

/-- An on-disk batch behind a leased or reserved slot: no eviction reaches it. -/
def pinnedOnDisk (ring : SignalRing Batch) (item : QueuedBatch Batch) : Bool :=
  item.payload.isOnDisk && ring.slots.toList.any fun slot => decide (slot.1 < item.seqId) && slot.2 != .queued

/-- The batches that can be evicted before the queue ends or its front is pinned. -/
def evictable (ring : SignalRing Batch) : List (QueuedBatch Batch) :=
  ring.queue.takeWhile fun item => !ring.pinnedOnDisk item

def FitsSwept (ring : SignalRing Batch) (batchBytes budget : Nat) : Prop :=
  let left := ring.totalUsed - (ring.evictable.map (·.byteSize)).sum
  (ring.evictable = ring.queue ∧ left = 0) ∨ left + batchBytes ≤ budget

variable {ring : SignalRing Batch} {reserved : List (AppendReservation Batch)} {leased : List LeasedBatchMeta}

theorem pinnedOnDisk_iff {item : QueuedBatch Batch} :
    ring.pinnedOnDisk item = true ↔ item.payload.isOnDisk = true ∧
      ∃ seq slot, seq < item.seqId ∧ ring.slots[seq]? = some slot ∧ slot ≠ .queued := by
  simp only [pinnedOnDisk, Bool.and_eq_true, List.any_eq_true, decide_eq_true_eq, bne_iff_ne, Prod.exists,
    ExtTreeMap.mem_toList_iff_getElem?_eq_some]
  constructor
  · rintro ⟨onDisk, seq, slot, found, earlier, other⟩
    exact ⟨onDisk, seq, slot, earlier, found, other⟩
  · rintro ⟨onDisk, seq, slot, earlier, found, other⟩
    exact ⟨onDisk, seq, slot, found, earlier, other⟩

theorem Balanced.front_pinned (balanced : ring.Balanced reserved leased) {front : QueuedBatch Batch}
    {rest : List (QueuedBatch Batch)} (queue : ring.queue = front :: rest) :
    frontIsPinnedOnDisk ring front = ring.pinnedOnDisk front := by
  apply Bool.eq_iff_iff.mpr
  rw [pinnedOnDisk_iff, frontIsPinnedOnDisk, Bool.and_eq_true]
  refine and_congr_right fun _ => ?_
  constructor
  · intro first
    obtain ⟨⟨seq, slot⟩, found, earlier⟩ := (Option.any_eq_true _ _).mp first
    obtain ⟨present, _⟩ := firstKeyValue?_eq_some found
    have below : seq < front.seqId := by simpa using earlier
    refine ⟨seq, slot, below, present, ?_⟩
    rintro rfl
    have listed := (balanced.indexed.2 seq .queued).mp present
    simp only [queueSlots, reservedSlots, leasedSlots, List.mem_append, List.mem_map, Prod.mk.injEq, reduceCtorEq,
      and_false, exists_false, or_false, and_true] at listed
    obtain ⟨item, member, rfl⟩ := listed
    have ascending := balanced.ascending
    rw [queue] at ascending member
    rcases List.mem_cons.mp member with rfl | behind
    · exact absurd below (lt_irrefl _)
    · exact absurd (below.trans (ascending.head_lt item behind)) (lt_irrefl _)
  · rintro ⟨seq, slot, earlier, found, _⟩
    have member : seq ∈ ring.slots := by
      rw [ExtTreeMap.mem_iff_isSome_getElem?, found]
      rfl
    cases first : firstKeyValue? ring.slots with
    | none => exact absurd member (firstKeyValue?_eq_none.mp first seq)
    | some entry =>
      obtain ⟨least, state⟩ := entry
      have lowest := (firstKeyValue?_eq_some first).2 seq member
      simpa using lowest.trans_lt earlier

theorem pinnedOnDisk_erase {evicted : SignalRing Batch} {seqId : Nat} (queued : ring.slots[seqId]? = some .queued)
    (slots : evicted.slots = ring.slots.erase seqId) : evicted.pinnedOnDisk = ring.pinnedOnDisk := by
  funext item
  apply Bool.eq_iff_iff.mpr
  rw [pinnedOnDisk_iff, pinnedOnDisk_iff, slots]
  refine and_congr_right fun _ => exists_congr fun seq => exists_congr fun slot => and_congr_right fun _ => ?_
  by_cases same : seqId = seq
  · subst same
    simp only [ExtTreeMap.getElem?_erase_self, queued, Option.some.injEq, reduceCtorEq, false_and, false_iff]
    rintro ⟨rfl, other⟩
    exact other rfl
  · rw [ExtTreeMap.getElem?_erase]
    simp [same]

/-- What the eviction loop makes of a ring: a part of the evictable batches is gone, all of them unless the incoming
    batch fits earlier. -/
structure Swept (batchBytes budget : Nat) (ring after : SignalRing Batch) (evicted : List (QueuedBatch Batch)) :
    Prop where
  queue : ring.queue = evicted ++ after.queue
  evictable : ring.evictable = evicted ++ after.evictable
  used : after.totalUsed + (evicted.map (·.byteSize)).sum = ring.totalUsed
  clean : after.evictedUnreclaimedBytes = ∅
  stopped : canAdmit after batchBytes budget = true ∨ after.evictable = []

theorem Swept.stay {batchBytes budget : Nat} (clean : ring.evictedUnreclaimedBytes = ∅)
    (stopped : canAdmit ring batchBytes budget = true ∨ ring.evictable = []) : Swept batchBytes budget ring ring [] :=
  ⟨rfl, rfl, rfl, clean, stopped⟩

theorem canAdmit_iff {batchBytes budget : Nat} :
    canAdmit ring batchBytes budget = true ↔
      (ring.queue = [] ∧ ring.totalUsed = 0) ∨ ring.totalUsed + batchBytes ≤ budget := by
  simp [canAdmit, totalUsed]

theorem evictable_eq_nil (empty : ring.queue = []) : ring.evictable = [] := by
  rw [evictable, empty]
  rfl

/-- Something evicted buys the admission exactly if dropping everything evictable would. -/
theorem Swept.admits_iff {batchBytes budget : Nat} {after : SignalRing Batch} {evicted : List (QueuedBatch Batch)}
    (swept : Swept batchBytes budget ring after evicted) :
    (evicted ≠ [] → canAdmit after batchBytes budget = true) ↔
      ring.evictable = [] ∨ ring.FitsSwept batchBytes budget := by
  have used := swept.used
  have bytes : (ring.evictable.map (·.byteSize)).sum =
      (evicted.map (·.byteSize)).sum + (after.evictable.map (·.byteSize)).sum := by
    rw [swept.evictable, List.map_append, List.sum_append]
  have whole : after.evictable = [] → (ring.evictable = ring.queue ↔ after.queue = []) := by
    intro none
    rw [swept.evictable, swept.queue, none]
    simp
  simp only [FitsSwept, bytes]
  constructor
  · intro bought
    rcases Classical.em (evicted = []) with rfl | some
    · rcases swept.stopped with admitted | none
      · rcases canAdmit_iff.mp admitted with ⟨empty, _⟩ | fits
        · exact Or.inl (by rw [swept.evictable, evictable_eq_nil empty]; rfl)
        · exact Or.inr (Or.inr (by omega))
      · exact Or.inl (by rw [swept.evictable, none]; rfl)
    · rcases canAdmit_iff.mp (bought some) with ⟨empty, unused⟩ | fits
      · exact Or.inr (Or.inl ⟨(whole (evictable_eq_nil empty)).mpr empty, by omega⟩)
      · exact Or.inr (Or.inr (by omega))
  · intro holds some
    rcases swept.stopped with admitted | none
    · exact admitted
    · have gone : (after.evictable.map (·.byteSize)).sum = 0 := by rw [none]; rfl
      rcases holds with idle | ⟨all, unused⟩ | fits
      · rw [swept.evictable, none, List.append_nil] at idle
        exact absurd idle some
      · exact canAdmit_iff.mpr (Or.inl ⟨(whole none).mp all, by omega⟩)
      · exact canAdmit_iff.mpr (Or.inr (by omega))

end SignalRing

def SignalRingState.evictFront (state : SignalRingState Batch) (front : QueuedBatch Batch)
    (rest : List (QueuedBatch Batch)) : SignalRingState Batch :=
  state.advanced ({ state.ring with queue := rest }.releaseEvicted front)

section Loop

variable {state : SignalRingState Batch} {reserved : List (AppendReservation Batch)} {leased : List LeasedBatchMeta}
  {front : QueuedBatch Batch} {rest : List (QueuedBatch Batch)}

@[simp] theorem evictFront_queue : (state.evictFront front rest).ring.queue = rest := by
  simp only [SignalRingState.evictFront, SignalRingState.advanced, SignalRing.advanceWatermark,
    SignalRing.releaseEvicted]
  split <;> rfl

@[simp] theorem evictFront_slots : (state.evictFront front rest).ring.slots = state.ring.slots.erase front.seqId := by
  simp only [SignalRingState.evictFront, SignalRingState.advanced, SignalRing.advanceWatermark,
    SignalRing.releaseEvicted]
  split <;> rfl

@[simp] theorem evictFront_nextSeq : (state.evictFront front rest).ring.nextSeq = state.ring.nextSeq := by
  simp only [SignalRingState.evictFront, SignalRingState.advanced, SignalRing.advanceWatermark,
    SignalRing.releaseEvicted]
  split <;> rfl

theorem evictFront_unreclaimed {seq : Nat} (clean : state.ring.evictedUnreclaimedBytes = ∅)
    (kept : seq ∈ (state.evictFront front rest).ring.evictedUnreclaimedBytes) :
    seq = front.seqId ∧ front.payload.isOnDisk = true ∧
      (state.evictFront front rest).ring.watermarkCandidate < seq := by
  have above : max state.committedSeq (state.evictFront front rest).ring.watermarkCandidate < seq :=
    releaseReclaimed_above le_rfl seq kept
  have member : seq ∈ ({ state.ring with queue := rest }.releaseEvicted front).evictedUnreclaimedBytes :=
    releaseReclaimed_mem kept
  simp only [SignalRing.releaseEvicted, clean] at member
  split at member
  · rename_i onDisk
    simp only [ExtTreeMap.mem_insert, Std.compare_eq_iff_eq, ExtTreeMap.not_mem_empty, or_false] at member
    exact ⟨member.symm, onDisk, by omega⟩
  · exact absurd member ExtTreeMap.not_mem_empty

theorem evictFront_reclaims (accounted : Accounted state reserved leased) (queue : state.ring.queue = front :: rest)
    (free : frontIsPinnedOnDisk state.ring front = false) (clean : state.ring.evictedUnreclaimedBytes = ∅) :
    (state.evictFront front rest).ring.evictedUnreclaimedBytes = ∅ := by
  apply ExtTreeMap.eq_empty_iff_forall_not_mem.mpr
  intro seq kept
  obtain ⟨rfl, onDisk, above⟩ := evictFront_unreclaimed clean kept
  have queued := accounted.balanced.queued_mem (show front ∈ state.ring.queue by simp [queue])
  have held : front.seqId ∈ state.ring.slots := by
    rw [ExtTreeMap.mem_iff_isSome_getElem?, queued]
    rfl
  have bounded : (state.evictFront front rest).ring.Bounded := (accounted.evict queue).1.balanced.toBounded
  have reached : front.seqId ≤ (state.evictFront front rest).ring.watermarkCandidate := by
    refine (SignalRing.le_watermarkCandidate bounded _).mpr ⟨?_, fun other left => ?_⟩
    · rw [evictFront_nextSeq]
      exact accounted.balanced.belowNext _ held
    · rw [evictFront_slots, ExtTreeMap.mem_erase, ne_eq, Std.compare_eq_iff_eq] at left
      obtain ⟨distinct, active⟩ := left
      simp only [frontIsPinnedOnDisk, onDisk, Bool.true_and] at free
      cases first : firstKeyValue? state.ring.slots with
      | none => exact absurd active (firstKeyValue?_eq_none.mp first other)
      | some entry =>
        obtain ⟨least, slot⟩ := entry
        rw [first] at free
        have notBelow : ¬ least < front.seqId := by simpa using free
        have lowest := (firstKeyValue?_eq_some first).2 other active
        omega
  omega

theorem evictFront_totalUsed (accounted : Accounted state reserved leased) (queue : state.ring.queue = front :: rest)
    (free : frontIsPinnedOnDisk state.ring front = false) (clean : state.ring.evictedUnreclaimedBytes = ∅) :
    (state.evictFront front rest).ring.totalUsed + front.byteSize = state.ring.totalUsed := by
  have before := accounted.balanced
  have after : (state.evictFront front rest).ring.Balanced reserved leased := (accounted.evict queue).1.balanced
  have unreclaimed := before.unreclaimed
  have nothing := after.unreclaimed
  have bytes := before.bytes
  have left := after.bytes
  rw [clean] at unreclaimed
  rw [evictFront_reclaims accounted queue free clean] at nothing
  rw [queue, List.map_cons, List.sum_cons] at bytes
  rw [evictFront_queue] at left
  simp only [SignalRing.totalUsed]
  omega

theorem evictFront_evictable (accounted : Accounted state reserved leased) (queue : state.ring.queue = front :: rest)
    (free : frontIsPinnedOnDisk state.ring front = false) :
    state.ring.evictable = front :: (state.evictFront front rest).ring.evictable := by
  have queued := accounted.balanced.queued_mem (show front ∈ state.ring.queue by simp [queue])
  have pins : (state.evictFront front rest).ring.pinnedOnDisk = state.ring.pinnedOnDisk :=
    SignalRing.pinnedOnDisk_erase queued evictFront_slots
  have unpinned : state.ring.pinnedOnDisk front = false := (accounted.balanced.front_pinned queue).symm.trans free
  rw [SignalRing.evictable, SignalRing.evictable, pins, evictFront_queue, queue, List.takeWhile_cons, unpinned]
  rfl

theorem evictOldest_swept (accounted : Accounted state reserved leased)
    (clean : state.ring.evictedUnreclaimedBytes = ∅) (batchBytes budget : Nat) {fuel : Nat}
    (enough : state.ring.queue.length ≤ fuel) :
    SignalRing.Swept batchBytes budget state.ring (evictOldest batchBytes budget fuel state).1.ring
      (evictOldest batchBytes budget fuel state).2 := by
  induction fuel generalizing state with
  | zero =>
    refine .stay clean (Or.inr (SignalRing.evictable_eq_nil ?_))
    exact List.eq_nil_of_length_eq_zero (Nat.le_zero.mp enough)
  | succ fuel ih =>
    unfold evictOldest
    split
    · rename_i admitted
      exact .stay clean (Or.inl admitted)
    · split
      · rename_i empty
        exact .stay clean (Or.inr (SignalRing.evictable_eq_nil empty))
      · rename_i front rest queue
        split
        · rename_i pinned
          refine .stay clean (Or.inr ?_)
          rw [accounted.balanced.front_pinned queue] at pinned
          rw [SignalRing.evictable, queue, List.takeWhile_cons, pinned]
          rfl
        · rename_i free
          have unpinned : frontIsPinnedOnDisk state.ring front = false := by simpa using free
          have shorter : (state.evictFront front rest).ring.queue.length ≤ fuel := by
            rw [queue, List.length_cons] at enough
            rw [evictFront_queue]
            omega
          have later := ih (accounted.evict queue).1 (evictFront_reclaims accounted queue unpinned clean) shorter
          have used := evictFront_totalUsed accounted queue unpinned clean
          have swept : (evictOldest batchBytes budget fuel (state.evictFront front rest)).1.ring.totalUsed +
              ((evictOldest batchBytes budget fuel (state.evictFront front rest)).2.map (·.byteSize)).sum =
                (state.evictFront front rest).ring.totalUsed := later.used
          refine ⟨?_, ?_, ?_, later.clean, later.stopped⟩
          · rw [queue]
            exact congrArg (front :: ·) (evictFront_queue.symm.trans later.queue)
          · rw [evictFront_evictable accounted queue unpinned]
            exact congrArg (front :: ·) later.evictable
          · show (evictOldest batchBytes budget fuel (state.evictFront front rest)).1.ring.totalUsed +
              ((front :: (evictOldest batchBytes budget fuel (state.evictFront front rest)).2).map (·.byteSize)).sum =
                state.ring.totalUsed
            rw [List.map_cons, List.sum_cons]
            omega

end Loop

namespace RingWorld

variable {config : BufferConfig} {origin : SignalRing Batch} {world next : RingWorld Batch}

def Reclaimed (state : SignalRingState Batch) : Prop := state.ring.evictedUnreclaimedBytes = ∅

theorem reclaimed_advanceWatermark {ring : SignalRing Batch} (clean : ring.evictedUnreclaimedBytes = ∅)
    (committedSeq : Nat) : (ring.advanceWatermark committedSeq).1.evictedUnreclaimedBytes = ∅ := by
  apply ExtTreeMap.eq_empty_iff_forall_not_mem.mpr
  intro seq kept
  have member : seq ∈ ring.evictedUnreclaimedBytes := releaseReclaimed_mem kept
  rw [clean] at member
  exact ExtTreeMap.not_mem_empty member

theorem reclaimed_ackLease {state : SignalRingState Batch} (clean : Reclaimed state) (leased : List LeasedBatchMeta)
    (reset : Bool) : Reclaimed (ackLease state leased reset).1 := by
  simp only [Reclaimed, ackLease, SignalRing.ackEntries]
  split
  · refine reclaimed_advanceWatermark ?_ _
    exact clean
  · exact clean

theorem requeueEntries_unreclaimed (nextAttempt : Nat) (readyAt : Option Instant)
    (entries : List (BatchPayload Batch × LeasedBatchMeta)) (progress : SignalRing Batch × Bool) :
    (entries.foldl (SignalRing.requeueEntry nextAttempt readyAt) progress).1.evictedUnreclaimedBytes =
      progress.1.evictedUnreclaimedBytes := by
  induction entries generalizing progress with
  | nil => rfl
  | cons entry rest ih =>
    rw [List.foldl_cons, ih]
    simp only [SignalRing.requeueEntry]
    split <;> rfl

theorem reclaimed_requeueLease {state : SignalRingState Batch} (clean : Reclaimed state)
    (payloads : List (BatchPayload Batch)) (leased : List LeasedBatchMeta) (nextAttempt : Nat)
    (readyAt : Option Instant) : Reclaimed (requeueLease state payloads leased nextAttempt readyAt) := by
  simp only [Reclaimed, requeueLease, SignalRing.requeueAtHead]
  split <;> exact (requeueEntries_unreclaimed _ _ _ _).trans clean

theorem reclaimed_rollbackSlot {state : SignalRingState Batch} (clean : Reclaimed state)
    (reservation : AppendReservation Batch) : Reclaimed (reservation.rollbackSlot state) := by
  simp only [Reclaimed, AppendReservation.rollbackSlot]
  split
  · exact clean
  · refine reclaimed_advanceWatermark ?_ _
    exact clean

theorem reclaimed_admit {state : SignalRingState Batch} {reserved : List (AppendReservation Batch)}
    {leased : List LeasedBatchMeta} (accounted : Accounted state reserved leased) (clean : Reclaimed state)
    (config : BufferConfig) (batchBytes batchRows : Nat) (inMemoryBatch : Option Batch) (now : Instant) :
    Reclaimed (reserveOrEnqueueSlot config state batchBytes batchRows inMemoryBatch now).1 := by
  have room : (makeRoom config state batchBytes).1.ring.evictedUnreclaimedBytes = ∅ := by
    unfold makeRoom
    split
    · exact (evictOldest_swept accounted clean _ _ le_rfl).clean
    · exact clean
  simp only [Reclaimed, reserveOrEnqueueSlot]
  split
  · exact clean
  · split
    · exact clean
    · split
      · cases inMemoryBatch <;> exact room
      · exact room

theorem Sound.reclaimed_step {inner : BufferInner} {signal : SignalKind} {action : RingAction Batch}
    (sound : Sound inner.config origin world) (clean : Reclaimed world.state)
    (stepped : RingWorld.step inner signal world action = some next) : Reclaimed next.state := by
  cases action with
  | enqueue batch now =>
    obtain ⟨_, rfl⟩ := step_enqueue stepped
    exact reclaimed_admit sound.accounted clean _ _ _ _ _
  | reserve frameBytesLen batchRows rows schema now =>
    obtain ⟨_, rfl⟩ := step_reserve stepped
    exact reclaimed_admit sound.accounted clean _ _ _ _ _
  | finish seqId result now =>
    obtain ⟨⟨reservation, remaining⟩, _, rfl⟩ := Option.map_eq_some_iff.mp stepped
    cases result with
    | ok written =>
      simp only [Reclaimed, AppendReservation.finish]
      split <;> exact clean
    | error reason => exact reclaimed_rollbackSlot clean reservation
  | dropReservation seqId =>
    obtain ⟨⟨reservation, remaining⟩, _, rfl⟩ := Option.map_eq_some_iff.mp stepped
    exact reclaimed_rollbackSlot clean reservation
  | pop now =>
    cases stepped
    rcases tryPopSignalLease_cases inner signal world.state now with
      ⟨wait, drained, idle⟩ | ⟨front, taken, rest, _, popped⟩
    · simp only [idle]
      exact clean
    · simp only [popped]
      exact clean
  | quarantineRows firstSeq rows =>
    obtain ⟨_, _, rfl⟩ := Option.map_eq_some_iff.mp stepped
    exact clean
  | ack firstSeq persisted =>
    obtain ⟨⟨lease, others⟩, _, rfl⟩ := Option.map_eq_some_iff.mp stepped
    have acked := reclaimed_ackLease clean lease.leased true
    cases persisted <;> exact acked
  | nack firstSeq failure now nowMs deadLetter persisted =>
    obtain ⟨⟨lease, others⟩, _, rfl⟩ := Option.map_eq_some_iff.mp stepped
    have marked : Reclaimed (Lease.markFailure world.state failure nowMs) := by
      cases failure <;> exact clean
    unfold resolveLease
    simp only
    cases lease.disposition inner world.state failure now nowMs deadLetter with
    | requeue leased nextAttempt readyAt => exact reclaimed_requeueLease marked _ _ _ _
    | fail leased reason => exact reclaimed_requeueLease marked _ _ _ _
    | quarantine =>
      have counted : Reclaimed { Lease.markFailure world.state failure nowMs with
          deadLetterDrops := (Lease.markFailure world.state failure nowMs).deadLetterDrops + lease.numRows } := marked
      have acked := reclaimed_ackLease counted lease.leased false
      cases persisted <;> exact acked
  | dropLease firstSeq now nowMs =>
    obtain ⟨⟨lease, others⟩, _, rfl⟩ := Option.map_eq_some_iff.mp stepped
    exact reclaimed_requeueLease clean _ _ _ _
  | advanceWatermark =>
    cases stepped
    exact reclaimed_advanceWatermark clean _
  | discard =>
    cases stepped
    exact reclaimed_advanceWatermark rfl _
  | _ =>
    cases stepped
    exact clean

theorem reclaimed_opened {start : SignalRingState Batch} (opened : Opened start) : Reclaimed start := by
  cases opened with
  | new => rfl
  | recovered watermark events _ _ _ =>
    have scanned : ∀ state : SignalRingState Batch, Reclaimed state →
        Reclaimed (events.foldl (SignalRingState.recover watermark) state) := by
      intro state clean
      refine List.foldlRecOn events _ clean fun before kept event _ => ?_
      cases event with
      | frame item =>
        simp only [Reclaimed, SignalRingState.recover]
        split <;> exact kept
      | corrupted seqId rowCount => exact kept
      | invalidHeader => exact kept
    have fresh : Reclaimed (SignalRingState.restored watermark : SignalRingState Batch) := rfl
    exact reclaimed_advanceWatermark (scanned _ fresh) _

theorem reclaimed_of_run {inner : BufferInner} {signal : SignalKind} {start : SignalRingState Batch}
    (opened : Opened start) (run : Run (step inner signal) (fun _ _ => True) { state := start } world) :
    Sound inner.config start.ring world ∧ Reclaimed world.state := by
  refine run.invariant (fun world => Sound inner.config start.ring world ∧ Reclaimed world.state)
    ⟨opened.sound inner.config, reclaimed_opened opened⟩ ?_
  intro before action after kept _ stepped
  obtain ⟨sound, clean⟩ := kept
  obtain ⟨departed, advance⟩ := sound.step stepped
  exact ⟨advance.sound sound, sound.reclaimed_step clean stepped⟩

def heldBytes (world : RingWorld Batch) : Nat :=
  (world.liveReservations.map (·.frameBytesLen)).sum + (world.liveLeased.map (·.byteSize)).sum

end RingWorld

def SignalRing.refusing (ring : SignalRing Batch) : Bool :=
  ring.fatalError.isSome || ring.receiverDropped || ring.closed

def Admission.isAdmitted : Admission → Bool
  | .enqueued | .reserved _ => true
  | _ => false

namespace RingWorld

variable {config : BufferConfig} {origin : SignalRing Batch} {world next : RingWorld Batch}

/-- An admission that evicts for nothing but the batch it then admits. -/
structure EvictsToAdmit (config : BufferConfig) (world : RingWorld Batch) (batchBytes batchRows : Nat)
    (inMemoryBatch : Option Batch) (now : Instant) : Prop where
  admitted : (reserveOrEnqueueSlot config world.state batchBytes batchRows inMemoryBatch now).2.2 ≠ [] →
    (reserveOrEnqueueSlot config world.state batchBytes batchRows inMemoryBatch now).2.1.isAdmitted = true
  held : world.heldBytes ≠ 0 → config.perSignalBudget < world.heldBytes + batchBytes →
    (reserveOrEnqueueSlot config world.state batchBytes batchRows inMemoryBatch now).2.2 = []

theorem reserveOrEnqueueSlot_open {state : SignalRingState Batch} (dropOldest : config.overflowPolicy = .dropOldest)
    (willing : state.ring.refusing = false) (batchBytes batchRows : Nat) (inMemoryBatch : Option Batch)
    (now : Instant) :
    (reserveOrEnqueueSlot config state batchBytes batchRows inMemoryBatch now).2.2 =
        (evictOldest batchBytes config.perSignalBudget state.ring.queue.length state).2 ∧
      (reserveOrEnqueueSlot config state batchBytes batchRows inMemoryBatch now).2.1.isAdmitted =
        canAdmit (evictOldest batchBytes config.perSignalBudget state.ring.queue.length state).1.ring batchBytes
          config.perSignalBudget := by
  simp only [SignalRing.refusing, Bool.or_eq_false_iff, Option.isSome_eq_false_iff, Option.isNone_iff_eq_none]
    at willing
  obtain ⟨⟨sane, receiving⟩, unclosed⟩ := willing
  simp only [reserveOrEnqueueSlot, sane, receiving, unclosed, makeRoom, dropOldest, Bool.or_self, Bool.false_eq_true,
    if_true, if_false]
  split
  · rename_i admitted
    cases inMemoryBatch <;> exact ⟨rfl, admitted.symm⟩
  · rename_i refused
    exact ⟨rfl, by simpa [Admission.isAdmitted] using refused⟩

theorem reserveOrEnqueueSlot_refusing {state : SignalRingState Batch} (refusing : state.ring.refusing = true)
    (batchBytes batchRows : Nat) (inMemoryBatch : Option Batch) (now : Instant) :
    (reserveOrEnqueueSlot config state batchBytes batchRows inMemoryBatch now).2.2 = [] := by
  simp only [reserveOrEnqueueSlot]
  split
  · rfl
  · rename_i sane
    simp only [SignalRing.refusing, sane, Option.isSome_none, Bool.false_or] at refusing
    rw [if_pos refusing]

theorem Sound.admitted_held (sound : Sound config origin world) {batchBytes budget : Nat}
    (admitted : canAdmit (evictOldest batchBytes budget world.state.ring.queue.length world.state).1.ring batchBytes
      budget = true) : world.heldBytes = 0 ∨ world.heldBytes + batchBytes ≤ budget := by
  have after := (Transition.evictOldest sound.accounted batchBytes budget world.state.ring.queue.length).accounted
  have bytes := after.balanced.bytes
  simp only [heldBytes]
  rcases SignalRing.canAdmit_iff.mp admitted with ⟨_, unused⟩ | fits
  · left
    simp only [SignalRing.totalUsed] at unused
    omega
  · right
    simp only [SignalRing.totalUsed] at fits
    omega

theorem Sound.evictsToAdmit_iff (sound : Sound config origin world) (clean : Reclaimed world.state)
    (dropOldest : config.overflowPolicy = .dropOldest) (batchBytes batchRows : Nat) (inMemoryBatch : Option Batch)
    (now : Instant) :
    EvictsToAdmit config world batchBytes batchRows inMemoryBatch now ↔
      world.state.ring.refusing = true ∨ world.state.ring.evictable = [] ∨
        world.state.ring.FitsSwept batchBytes config.perSignalBudget := by
  cases refusing : world.state.ring.refusing with
  | true =>
    have nothing : (reserveOrEnqueueSlot config world.state batchBytes batchRows inMemoryBatch now).2.2 = [] :=
      reserveOrEnqueueSlot_refusing refusing batchBytes batchRows inMemoryBatch now
    simp only [true_or, iff_true]
    exact ⟨fun some => absurd nothing some, fun _ _ => nothing⟩
  | false =>
    obtain ⟨evicted, admitted⟩ :=
      reserveOrEnqueueSlot_open dropOldest refusing batchBytes batchRows inMemoryBatch now
    have swept := evictOldest_swept sound.accounted clean batchBytes config.perSignalBudget le_rfl
    simp only [Bool.false_eq_true, false_or]
    rw [← swept.admits_iff]
    constructor
    · intro worth some
      rw [← admitted]
      exact worth.admitted (evicted ▸ some)
    · intro worth
      refine ⟨fun some => admitted.trans (worth (evicted ▸ some)), fun holding exceeds => ?_⟩
      by_contra some
      rw [evicted] at some
      rcases sound.admitted_held (worth some) with nothing | fits
      · exact holding nothing
      · exact absurd fits (Nat.not_le.mpr exceeds)

/-- In every state that a ring reaches under the drop-oldest policy, an incoming batch has nothing evicted in vain
    exactly if the ring refuses it outright, its front batch cannot be evicted, or the batch fits once everything
    evictable is gone. -/
theorem evicts_to_admit_of_run (inner : BufferInner) (signal : SignalKind) {start : SignalRingState Batch}
    (opened : Opened start) {world : RingWorld Batch}
    (run : Run (step inner signal) (fun _ _ => True) { state := start } world)
    (dropOldest : inner.config.overflowPolicy = .dropOldest) (batchBytes batchRows : Nat)
    (inMemoryBatch : Option Batch) (now : Instant) :
    EvictsToAdmit inner.config world batchBytes batchRows inMemoryBatch now ↔
      world.state.ring.refusing = true ∨ world.state.ring.evictable = [] ∨
        world.state.ring.FitsSwept batchBytes inner.config.perSignalBudget := by
  obtain ⟨sound, clean⟩ := reclaimed_of_run opened run
  exact sound.evictsToAdmit_iff clean dropOldest batchBytes batchRows inMemoryBatch now

/-- A disk buffer with room for 2000 bytes a signal. -/
def droppingInner : BufferInner :=
  { sinkName := "lake"
    instanceId := 7
    config :=
      { mode := .disk, segmentSizeBytes := 1000, maxBufferBytes := 6000, maxBatchSizeBytes := 500
        overflowPolicy := .dropOldest } }

/-- Five senders reserve a slot; the frame of the first is written, the others wait for the writer. -/
def waitingWrites : List (RingAction PlainBatch) :=
  let reserve (frameBytesLen batchRows : Nat) : RingAction PlainBatch :=
    .reserve frameBytesLen batchRows batchRows (0 : UInt8) 5
  [reserve 100 1, reserve 500 5, reserve 500 5, reserve 500 5, reserve 300 3, .finish 1 (.ok ⟨1, 0, 100⟩) 6]

/-- The queued frame is evicted for a batch that then has to wait for the writer all the same. -/
theorem waiting_writes_evict_in_vain :
    ∃ world, execute (step droppingInner .logs) {} waitingWrites = some world ∧
      Run (step droppingInner .logs) (fun _ _ => True) { state := ({} : SignalRingState PlainBatch) } world ∧
      (reserveOrEnqueueSlot droppingInner.config world.state 400 4 none 7).2.2.map (·.seqId) = [1] ∧
      (reserveOrEnqueueSlot droppingInner.config world.state 400 4 none 7).2.1 = .blocked ∧
      ¬ EvictsToAdmit droppingInner.config world 400 4 none 7 := by
  refine ⟨_, rfl, execute_run (fun _ _ => trivial) waitingWrites rfl, rfl, rfl, fun worth => ?_⟩
  have admitted := worth.admitted (by decide)
  exact absurd admitted (by decide)

/-- The same ring has room for a smaller batch once the queued frame is evicted. -/
theorem evicts_to_admit_of_run_waitingWrites :
    ∃ world, execute (step droppingInner .logs) {} waitingWrites = some world ∧
      (reserveOrEnqueueSlot droppingInner.config world.state 150 1 none 7).2.2.map (·.seqId) = [1] ∧
      EvictsToAdmit droppingInner.config world 150 1 none 7 := by
  refine ⟨_, rfl, rfl, ?_⟩
  refine (evicts_to_admit_of_run droppingInner .logs .new (execute_run (fun _ _ => trivial) waitingWrites rfl) rfl
    150 1 none 7).mpr (Or.inr (Or.inr (Or.inr ?_)))
  decide

end RingWorld

end OtelDatalake.Buffer
