import OtelDatalake.Buffer.Restore

open Std OtelDatalake.Foundation

namespace OtelDatalake.Buffer

variable {Batch : Type} [RecordBatch Batch]

def Lease.ownsSlot (lease : Lease Batch) (ring : SignalRing Batch) : Bool :=
  lease.leased.any fun item => ring.slots[item.seqId]? == some .inFlight

namespace RingWorld

/-- The representation invariant of a signal ring with the leases and reservations that are held on it. -/
structure Represented (config : BufferConfig) (world : RingWorld Batch) : Prop where
  ascending : world.state.ring.queue.Pairwise (fun left right => left.seqId < right.seqId)
  queued : ∀ seq, world.state.ring.slots[seq]? = some .queued ↔
    seq ∈ world.state.ring.queue.map (·.seqId)
  reserved : ∀ seq, world.state.ring.slots[seq]? = some .reserved ↔
    seq ∈ world.liveReservations.map (·.seqId)
  inFlight : ∀ seq, world.state.ring.slots[seq]? = some .inFlight ↔
    seq ∈ world.liveLeased.map (·.seqId)
  reservedOnce : (world.liveReservations.map (·.seqId)).Nodup
  leasedOnce : ((world.leases.flatMap (·.value.leased)).map (·.seqId)).Nodup
  bytes : world.state.ring.bytesInFlight = (world.state.ring.queue.map (·.byteSize)).sum +
    (world.liveReservations.map (·.frameBytesLen)).sum + (world.liveLeased.map (·.byteSize)).sum
  rows : world.state.ring.rowsInFlight = (world.state.ring.queue.map (·.rowCount)).sum +
    (world.liveReservations.map (·.batchRows)).sum + (world.liveLeased.map (·.rowCount)).sum
  inflightLeases : world.state.ring.inflightLeases =
    (world.leases.filter fun held => held.value.ownsSlot world.state.ring).length
  capacity : world.state.ring.inflightLeases ≤ config.maxInflightLeases
  enqueuedAt : ∀ seq, seq ∈ world.state.ring.inflightEnqueuedAt ↔
    world.state.ring.slots[seq]? = some .inFlight
  unreclaimed : world.state.ring.unreclaimedDiskBytes =
    (world.state.ring.evictedUnreclaimedBytes.toList.map Prod.snd).sum
  active : ∀ seq ∈ world.state.ring.slots,
    world.state.committedSeq < seq ∧ seq < world.state.ring.nextSeq

variable {config : BufferConfig} {origin : SignalRing Batch} {world : RingWorld Batch}

theorem Sound.slot_iff (sound : Sound config origin world) (seq : Nat) (state : LeaseSlotState) :
    world.state.ring.slots[seq]? = some state ↔
      match state with
      | .queued => seq ∈ world.state.ring.queue.map (·.seqId)
      | .reserved => seq ∈ world.liveReservations.map (·.seqId)
      | .inFlight => seq ∈ world.liveLeased.map (·.seqId) := by
  rw [sound.accounted.balanced.indexed.2]
  cases state <;>
    simp [SignalRing.queueSlots, SignalRing.reservedSlots, SignalRing.leasedSlots]

theorem Sound.ownsSlot (sound : Sound config origin world) {held : Held (Lease Batch)}
    (member : held ∈ world.leases) : held.value.ownsSlot world.state.ring = !held.discarded := by
  cases discarded : held.discarded
  · obtain ⟨item, listed⟩ := List.exists_mem_of_ne_nil _ (sound.wellFormed held member).nonempty
    simp only [Lease.ownsSlot, Bool.not_false, List.any_eq_true, beq_iff_eq]
    exact ⟨item, listed, sound.live_slot member discarded listed⟩
  · simp only [Lease.ownsSlot, Bool.not_true, List.any_eq_false, beq_iff_eq]
    intro item listed found
    have gone := (sound.goneLeases held member discarded item listed).1
    rw [ExtTreeMap.mem_iff_isSome_getElem?, found] at gone
    exact gone rfl

theorem Sound.represented (sound : Sound config origin world) : Represented config world where
  ascending := sound.accounted.balanced.ascending
  queued seq := sound.slot_iff seq .queued
  reserved seq := sound.slot_iff seq .reserved
  inFlight seq := sound.slot_iff seq .inFlight
  reservedOnce := by
    have distinct := sound.accounted.balanced.indexed.1
    simp only [List.map_append] at distinct
    have inner := (List.nodup_append.mp (List.nodup_append.mp distinct).2.1).1
    simpa [SignalRing.reservedSlots, Function.comp_def] using inner
  leasedOnce := sound.distinct
  bytes := sound.accounted.balanced.bytes
  rows := sound.accounted.balanced.rows
  inflightLeases := by
    rw [sound.inflightLeases, liveLeases, liveValues, List.length_map]
    congr 1
    exact List.filter_congr fun held member => (sound.ownsSlot member).symm
  capacity := sound.inflightLeases.trans_le sound.capacity
  enqueuedAt seq := (sound.accounted.balanced.enqueuedAt seq).trans (sound.slot_iff seq .inFlight).symm
  unreclaimed := sound.accounted.balanced.unreclaimed
  active seq member := by
    rw [sound.accounted.committed]
    exact ⟨sound.accounted.balanced.watermarkCandidate_lt.2 seq member,
      sound.accounted.balanced.belowNext seq member⟩

/-- The representation invariant holds in every state that a ring reaches, in any order of operations, as long as it
    has not come to the number `u64::MAX`. -/
theorem represented_of_run (inner : BufferInner) (signal : SignalKind) {start : SignalRingState Batch}
    (opened : Opened start)
    (run : Run (step inner signal) (fun _ _ => True) { state := start } world) :
    Represented inner.config world :=
  ((opened.sound inner.config).run run).represented

def plainInner : BufferInner :=
  { sinkName := "lake", instanceId := 7, config := { maxBatchIntervalSec := 0, maxInflightLeases := 2 } }

/-- A lease is acknowledged after a discard has removed its slot and a further lease was popped. -/
def lateAck : List (RingAction PlainBatch) :=
  [.enqueue ⟨0, 2, [1, 2]⟩ 5, .pop 6, .discard, .enqueue ⟨0, 3, [3]⟩ 7, .pop 8, .ack 1 (.ok ())]

theorem represented_of_run_lateAck :
    ∃ world, execute (step plainInner .logs) {} lateAck = some world ∧
      world.state.ring.inflightLeases = 1 ∧ Represented plainInner.config world :=
  ⟨_, rfl, rfl, represented_of_run plainInner .logs .new (execute_run (fun _ _ => trivial) lateAck rfl)⟩

/-- A ring that recovery has rebuilt from one frame, the last but one that can be numbered. -/
def lastNumbers : SignalRingState PlainBatch :=
  .reopened 0 [.frame
    { seqId := u64Max - 1, payload := .onDisk 1 0 30 1 (0 : UInt8), byteSize := 30, rowCount := 1, enqueuedAt := 4
      firstFailedAt := none, attempt := 0, readyAt := none }]

theorem lastNumbers_opened : Opened lastNumbers := by
  refine .recovered 0 _ (by decide) ?_ ?_
  · intro event member seq numbered
    rw [List.mem_singleton.mp member] at numbered
    rw [← Option.mem_some_iff.mp numbered]
    decide
  · decide

def diskInner : BufferInner := { plainInner with config := { plainInner.config with mode := .disk } }

/-- A frame is written to a disk buffer: its slot is reserved and the append finishes. -/
def appendOne (world : RingWorld PlainBatch) : RingWorld PlainBatch :=
  let reserved := world.admitBatch diskInner.config 30 1 none
    (fun seqId => some { signal := .logs, seqId := seqId, frameBytesLen := 30, batchRows := 1, rows := 1,
                         schema := (0 : UInt8) }) 5
  (step diskInner .logs reserved
    (.finish world.state.ring.nextSeq (.ok { segmentId := 2, offset := 0, len := 30 }) 6)).getD reserved

/-- `saturating_add` gives out `u64::MAX` twice. -/
theorem represented_fails_saturated : Opened lastNumbers ∧
    ¬Represented diskInner.config (appendOne (appendOne { state := lastNumbers })) := by
  constructor
  · exact lastNumbers_opened
  · intro represented
    have ascending : ((appendOne (appendOne { state := lastNumbers })).state.ring.queue.map (·.seqId)).Pairwise
        (· < ·) := List.pairwise_map.mpr represented.ascending
    have queue : (appendOne (appendOne { state := lastNumbers })).state.ring.queue.map (·.seqId) =
        [u64Max - 1, u64Max, u64Max] := by decide +kernel
    rw [queue] at ascending
    revert ascending
    decide

structure Committed (start : SignalRing Batch) (world : RingWorld Batch) : Prop where
  watermark : (∃ first ∈ world.state.ring.slots, (∀ seq ∈ world.state.ring.slots, first ≤ seq) ∧
      world.state.committedSeq = first - 1) ∨
    ((∀ seq, seq ∉ world.state.ring.slots) ∧ world.state.committedSeq = world.state.ring.nextSeq - 1)
  active : ∀ seq ∈ world.state.ring.slots, world.state.committedSeq < seq
  settled : ∀ seq ≤ world.state.committedSeq, start.Gone seq ∨ ∃ outcome, (seq, outcome) ∈ world.outcomes

theorem Sound.watermark (sound : Sound config origin world) : Committed origin world := by
  obtain ⟨below, above⟩ := sound.accounted.balanced.watermarkCandidate_lt
  rw [← sound.accounted.committed] at below above
  refine ⟨?_, above, fun seq reached => ?_⟩
  · rw [sound.accounted.committed]
    unfold SignalRing.watermarkCandidate
    split
    · rename_i none
      exact Or.inr ⟨firstKeyValue?_eq_none.mp none, rfl⟩
    · rename_i first slot found
      obtain ⟨present, least⟩ := firstKeyValue?_eq_some found
      refine Or.inl ⟨first, ?_, least, rfl⟩
      rw [ExtTreeMap.mem_iff_isSome_getElem?, present]
      rfl
  · have gone : world.state.ring.Gone seq :=
      ⟨fun member => absurd (above seq member) (Nat.not_lt.mpr reached), by omega⟩
    rcases sound.settled seq gone with before | recorded
    · exact Or.inl before
    · obtain ⟨⟨_, outcome⟩, member, rfl⟩ := List.mem_map.mp recorded
      exact Or.inr ⟨outcome, member⟩

theorem committed_monotone {inner : BufferInner} {signal : SignalKind}
    {permitted : RingWorld Batch → RingAction Batch → Prop} {before after : RingWorld Batch}
    (sound : Sound inner.config origin before) (run : Run (step inner signal) permitted before after) :
    before.state.committedSeq ≤ after.state.committedSeq := by
  induction run with
  | refl => exact le_rfl
  | tail reached move ih =>
    obtain ⟨action, _, stepped⟩ := move
    obtain ⟨departed, advance⟩ := (sound.run reached).step stepped
    exact ih.trans (advance.committed_le (sound.run reached))

/-- In every run the commit watermark never falls, stays right below the first active slot, and covers only
    sequence numbers that have left the ring. -/
theorem committed_of_run (inner : BufferInner) (signal : SignalKind) {start : SignalRingState Batch}
    {before after : RingWorld Batch} (opened : Opened start)
    (reached : Run (step inner signal) (fun _ _ => True) { state := start } before)
    (run : Run (step inner signal) (fun _ _ => True) before after) :
    before.state.committedSeq ≤ after.state.committedSeq ∧ Committed start.ring after := by
  have sound := (opened.sound inner.config).run reached
  exact ⟨committed_monotone sound run, (sound.run run).watermark⟩

def reverseAcks : List (RingAction PlainBatch) :=
  [.enqueue ⟨0, 2, [1]⟩ 5, .pop 6, .enqueue ⟨0, 3, [3]⟩ 7, .pop 8, .ack 2 (.ok ())]

theorem committed_of_run_reverseAcks :
    ∃ before after, execute (step plainInner .logs) {} reverseAcks = some before ∧
      before.state.committedSeq = 0 ∧
      execute (step plainInner .logs) before [.ack 1 (.ok ())] = some after ∧
      after.state.committedSeq = 2 ∧ Committed ({} : SignalRing PlainBatch) after :=
  ⟨_, _, rfl, rfl, rfl, rfl, (committed_of_run plainInner .logs .new
    (execute_run (fun _ _ => trivial) reverseAcks rfl)
    (execute_run (fun _ _ => trivial) [.ack 1 (.ok ())] rfl)).2⟩

end RingWorld

end OtelDatalake.Buffer
