import OtelDatalake.Buffer.Representation

open Std OtelDatalake.Foundation

namespace OtelDatalake.Buffer

variable {Batch : Type} [RecordBatch Batch]

/-- What the recovery scan reports to a ring: a decoded frame as the queue item it becomes, a frame that it skips,
    or a header at which it stops. -/
inductive RecoveryEvent (Batch : Type) [RecordBatch Batch] where
  | frame (item : QueuedBatch Batch)
  | corrupted (seqId rowCount : Nat)
  | invalidHeader

namespace SignalRingState

def restored (watermark : Nat) : SignalRingState Batch :=
  { ring := { nextSeq := saturatingSucc watermark }, committedSeq := watermark }

/-- The ring's part of `record_recovered_frame`, `record_corrupted_frame` and the invalid-header branch. -/
def recover (watermark : Nat) (state : SignalRingState Batch) : RecoveryEvent Batch → SignalRingState Batch
  | .frame item =>
    let seen := { state.ring with nextSeq := max state.ring.nextSeq (saturatingSucc item.seqId) }
    if item.seqId ≤ watermark then { state with ring := seen }
    else
      { state with
        ring := { seen with
          bytesInFlight := seen.bytesInFlight + item.byteSize
          rowsInFlight := seen.rowsInFlight + item.rowCount
          slots := seen.slots.insert item.seqId .queued
          queue := enqueueOrdered seen.queue item }
        replayedRecords := state.replayedRecords + item.rowCount }
  | .corrupted seqId rowCount =>
    { state with
      corruptionDrops := if seqId > watermark then state.corruptionDrops + rowCount else state.corruptionDrops
      ring := { state.ring with nextSeq := max state.ring.nextSeq (saturatingSucc seqId) } }
  | .invalidHeader => { state with corruptionDrops := state.corruptionDrops + 1 }

/-- One ring after `load_initial_watermark` and `recover_segments`. -/
def reopened (watermark : Nat) (events : List (RecoveryEvent Batch)) : SignalRingState Batch :=
  let scanned := events.foldl (recover watermark) (restored watermark)
  scanned.advanced scanned.ring

end SignalRingState

namespace RecoveryEvent

def seqId? : RecoveryEvent Batch → Option Nat
  | .frame item => some item.seqId
  | .corrupted seqId _ => some seqId
  | .invalidHeader => none

def unacked? (watermark : Nat) : RecoveryEvent Batch → Option (QueuedBatch Batch)
  | .frame item => if item.seqId ≤ watermark then none else some item
  | _ => none

end RecoveryEvent

namespace SignalRingState

theorem recover_nextSeq (watermark : Nat) (events : List (RecoveryEvent Batch)) (state : SignalRingState Batch) :
    (events.foldl (recover watermark) state).ring.nextSeq =
      (events.filterMap (·.seqId?)).foldl (fun next seq => max next (saturatingSucc seq)) state.ring.nextSeq := by
  induction events generalizing state with
  | nil => rfl
  | cons event rest ih =>
    rw [List.foldl_cons, ih]
    cases event with
    | frame item =>
      simp only [recover, List.filterMap_cons, RecoveryEvent.seqId?, List.foldl_cons]
      split <;> rfl
    | corrupted seqId rowCount => rfl
    | invalidHeader => rfl

theorem recover_queue (watermark : Nat) (events : List (RecoveryEvent Batch)) (state : SignalRingState Batch) :
    (events.foldl (recover watermark) state).ring.queue =
      (events.filterMap (·.unacked? watermark)).foldl enqueueOrdered state.ring.queue := by
  induction events generalizing state with
  | nil => rfl
  | cons event rest ih =>
    rw [List.foldl_cons, ih]
    cases event with
    | frame item =>
      simp only [recover, List.filterMap_cons, RecoveryEvent.unacked?]
      split <;> rfl
    | corrupted seqId rowCount => rfl
    | invalidHeader => rfl

structure Restoring (watermark : Nat) (state : SignalRingState Batch) : Prop where
  balanced : state.ring.Balanced [] []
  committed : state.committedSeq = watermark
  above : ∀ seq ∈ state.ring.slots, watermark < seq
  below : watermark < state.ring.nextSeq
  idle : state.ring.inflightLeases = 0
  unevicted : state.ring.evictedUnreclaimedBytes = ∅

theorem Restoring.start {watermark : Nat} (bounded : watermark < u64Max) :
    Restoring watermark (restored watermark : SignalRingState Batch) := by
  have next : watermark < saturatingSucc watermark := by
    unfold saturatingSucc
    omega
  exact
    { balanced :=
        { nextPositive := Nat.zero_lt_of_lt next
          positive := fun seq member => absurd member ExtTreeMap.not_mem_empty
          belowNext := fun seq member => absurd member ExtTreeMap.not_mem_empty
          numbered := Nat.min_le_right _ _
          ascending := List.Pairwise.nil
          indexed := Indexes.empty
          bytes := rfl
          rows := rfl
          enqueuedAt := fun seq => iff_of_false ExtTreeMap.not_mem_empty (by simp)
          unreclaimed := rfl
          evictedGone := fun seq member => absurd member ExtTreeMap.not_mem_empty }
      committed := rfl
      above := fun seq member => absurd member ExtTreeMap.not_mem_empty
      below := next
      idle := rfl
      unevicted := rfl }

theorem Restoring.pass {watermark next : Nat} {state : SignalRingState Batch}
    (restoring : Restoring watermark state) (drops : Nat) (larger : state.ring.nextSeq ≤ next)
    (numbered : next ≤ u64Max) :
    Restoring watermark
      { state with ring := { state.ring with nextSeq := next }, corruptionDrops := drops } where
  balanced :=
    { nextPositive := restoring.balanced.nextPositive.trans_le larger
      positive := restoring.balanced.positive
      belowNext := fun seq member => (restoring.balanced.belowNext seq member).trans_le larger
      numbered := numbered
      ascending := restoring.balanced.ascending
      indexed := restoring.balanced.indexed
      bytes := restoring.balanced.bytes
      rows := restoring.balanced.rows
      enqueuedAt := restoring.balanced.enqueuedAt
      unreclaimed := restoring.balanced.unreclaimed
      evictedGone := fun seq member =>
        ⟨(restoring.balanced.evictedGone seq member).1,
          (restoring.balanced.evictedGone seq member).2.trans_le larger⟩ }
  committed := restoring.committed
  above := restoring.above
  below := restoring.below.trans_le larger
  idle := restoring.idle
  unevicted := restoring.unevicted

theorem Restoring.queue {watermark replayed : Nat} {state : SignalRingState Batch} {item : QueuedBatch Batch}
    (restoring : Restoring watermark state) (above : watermark < item.seqId)
    (below : item.seqId < state.ring.nextSeq) (fresh : item.seqId ∉ state.ring.slots) :
    Restoring watermark
      { state with
        ring := { state.ring with
          bytesInFlight := state.ring.bytesInFlight + item.byteSize
          rowsInFlight := state.ring.rowsInFlight + item.rowCount
          slots := state.ring.slots.insert item.seqId .queued
          queue := enqueueOrdered state.ring.queue item }
        replayedRecords := replayed } := by
  have balanced := restoring.balanced
  have bounds : ∀ seq ∈ state.ring.slots.insert item.seqId .queued,
      watermark < seq ∧ seq < state.ring.nextSeq := by
    intro seq member
    rw [ExtTreeMap.mem_insert, Std.compare_eq_iff_eq] at member
    rcases member with rfl | held
    · exact ⟨above, below⟩
    · exact ⟨restoring.above seq held, balanced.belowNext seq held⟩
  have unqueued : item.seqId ∉ state.ring.queue.map (·.seqId) := by
    intro member
    obtain ⟨existing, present, same⟩ := List.mem_map.mp member
    apply fresh
    rw [← same, ExtTreeMap.mem_iff_isSome_getElem?, balanced.queued_mem present]
    rfl
  have reordered := (enqueueOrdered_perm balanced.ascending item).map
    (fun entry : QueuedBatch Batch => (entry.seqId, LeaseSlotState.queued))
  refine
    { balanced :=
        { nextPositive := balanced.nextPositive
          positive := fun seq member => Nat.zero_lt_of_lt (bounds seq member).1
          belowNext := fun seq member => (bounds seq member).2
          numbered := balanced.numbered
          ascending := ?_
          indexed := ?_
          bytes := ?_
          rows := ?_
          enqueuedAt := balanced.enqueuedAt
          unreclaimed := balanced.unreclaimed
          evictedGone := ?_ }
      committed := restoring.committed
      above := fun seq member => (bounds seq member).1
      below := restoring.below
      idle := restoring.idle
      unevicted := restoring.unevicted }
  · rw [enqueueOrdered_eq balanced.ascending]
    exact balanced.ascending.insertOrdered unqueued
  · exact (balanced.indexed.insert fresh .queued).perm (List.Perm.append_right _ reordered.symm)
  · simp only [enqueueOrdered_sum balanced.ascending, balanced.bytes]
    omega
  · simp only [enqueueOrdered_sum balanced.ascending, balanced.rows]
    omega
  · intro seq member
    simp only [restoring.unevicted] at member
    exact absurd member ExtTreeMap.not_mem_empty

theorem Restoring.event {watermark : Nat} {state : SignalRingState Batch} {event : RecoveryEvent Batch}
    (restoring : Restoring watermark state) (bounded : ∀ seq ∈ event.seqId?, seq < u64Max)
    (fresh : ∀ item ∈ event.unacked? watermark, item.seqId ∉ state.ring.slots) :
    Restoring watermark (recover watermark state event) := by
  cases event with
  | frame item =>
    have below : item.seqId < saturatingSucc item.seqId := by
      have := bounded item.seqId rfl
      unfold saturatingSucc
      omega
    have passed := restoring.pass state.corruptionDrops
      (Nat.le_max_left state.ring.nextSeq (saturatingSucc item.seqId))
      (Nat.max_le.mpr ⟨restoring.balanced.numbered, Nat.min_le_right _ _⟩)
    simp only [recover]
    split
    · exact passed
    · rename_i above
      have unqueued := fresh item (by simp [RecoveryEvent.unacked?, above])
      exact passed.queue (by omega) (below.trans_le (Nat.le_max_right _ _)) unqueued
  | corrupted seqId rowCount =>
    exact restoring.pass _ (Nat.le_max_left _ _)
      (Nat.max_le.mpr ⟨restoring.balanced.numbered, Nat.min_le_right _ _⟩)
  | invalidHeader => exact restoring.pass _ le_rfl restoring.balanced.numbered

theorem recover_slots {watermark seq : Nat} {state : SignalRingState Batch} {event : RecoveryEvent Batch}
    (member : seq ∈ (recover watermark state event).ring.slots) :
    seq ∈ state.ring.slots ∨ seq ∈ (event.unacked? watermark).map (·.seqId) := by
  cases event with
  | frame item =>
    simp only [recover] at member
    split at member
    · exact Or.inl member
    · rename_i above
      rw [ExtTreeMap.mem_insert, Std.compare_eq_iff_eq] at member
      rcases member with same | held
      · subst same
        exact Or.inr (by simp [RecoveryEvent.unacked?, above])
      · exact Or.inl held
  | corrupted seqId rowCount => exact Or.inl member
  | invalidHeader => exact Or.inl member

theorem Restoring.scan {watermark : Nat} {events : List (RecoveryEvent Batch)} {state : SignalRingState Batch}
    (restoring : Restoring watermark state)
    (bounded : ∀ event ∈ events, ∀ seq ∈ event.seqId?, seq < u64Max)
    (distinct : ((events.filterMap (·.unacked? watermark)).map (·.seqId)).Nodup)
    (fresh : ∀ item ∈ events.filterMap (·.unacked? watermark), item.seqId ∉ state.ring.slots) :
    Restoring watermark (events.foldl (recover watermark) state) := by
  induction events generalizing state with
  | nil => exact restoring
  | cons event rest ih =>
    rw [List.foldl_cons]
    have first := restoring.event (bounded event List.mem_cons_self) fun item found =>
      fresh item (List.mem_filterMap.mpr ⟨event, List.mem_cons_self, found⟩)
    have later : ∀ other ∈ rest, ∀ seq ∈ other.seqId?, seq < u64Max := fun other member =>
      bounded other (List.mem_cons_of_mem _ member)
    refine ih first later ?_ ?_
    · rw [List.filterMap_cons] at distinct
      split at distinct
      · exact distinct
      · exact (List.nodup_cons.mp distinct).2
    · intro item found back
      rcases recover_slots back with held | same
      · refine fresh item ?_ held
        obtain ⟨other, member, read⟩ := List.mem_filterMap.mp found
        exact List.mem_filterMap.mpr ⟨other, List.mem_cons_of_mem _ member, read⟩
      · obtain ⟨front, read, numbered⟩ := Option.mem_map.mp same
        rw [List.filterMap_cons, read] at distinct
        refine (List.nodup_cons.mp distinct).1 ?_
        exact List.mem_map.mpr ⟨item, found, numbered.symm⟩

theorem Restoring.accounted {watermark : Nat} {state : SignalRingState Batch}
    (restoring : Restoring watermark state) : Accounted (state.advanced state.ring) [] [] where
  balanced := restoring.balanced.advance _
  committed := by
    simp only [SignalRingState.advanced, SignalRing.advanceWatermark_committed,
      SignalRing.advanceWatermark_candidate, restoring.committed]
    exact max_eq_right ((SignalRing.le_watermarkCandidate restoring.balanced.toBounded _).mpr
      ⟨restoring.below, restoring.above⟩)

theorem reopened_accounted {watermark : Nat} {events : List (RecoveryEvent Batch)}
    (bounded : watermark < u64Max) (numbers : ∀ event ∈ events, ∀ seq ∈ event.seqId?, seq < u64Max)
    (distinct : ((events.filterMap (·.unacked? watermark)).map (·.seqId)).Nodup) :
    Accounted (reopened watermark events) [] [] ∧ (reopened watermark events).ring.inflightLeases = 0 := by
  have scanned := (Restoring.start bounded).scan numbers distinct
    (fun item _ member => absurd member ExtTreeMap.not_mem_empty)
  exact ⟨scanned.accounted, scanned.idle⟩

end SignalRingState

/-- The states in which a ring starts: a new one, or one that recovery rebuilt from frames whose numbers are
    distinct and leave room for a successor. -/
inductive Opened : SignalRingState Batch → Prop where
  | new : Opened {}
  | recovered (watermark : Nat) (events : List (RecoveryEvent Batch)) (bounded : watermark < u64Max)
      (numbers : ∀ event ∈ events, ∀ seq ∈ event.seqId?, seq < u64Max)
      (distinct : ((events.filterMap (·.unacked? watermark)).map (·.seqId)).Nodup) :
      Opened (.reopened watermark events)

theorem Opened.sound {state : SignalRingState Batch} (opened : Opened state) (config : BufferConfig) :
    RingWorld.Sound config state.ring { state := state } := by
  cases opened with
  | new =>
    have blank : SignalRingState.Restoring 0 (.restored 0 : SignalRingState Batch) :=
      SignalRingState.Restoring.start (by decide)
    exact RingWorld.Sound.start blank.accounted rfl
  | recovered watermark events bounded numbers distinct =>
    obtain ⟨accounted, idle⟩ := SignalRingState.reopened_accounted bounded numbers distinct
    exact RingWorld.Sound.start accounted idle

end OtelDatalake.Buffer
