import OtelDatalake.Buffer.RingInvariant

open Std OtelDatalake.Foundation

namespace OtelDatalake.Buffer

variable {Batch : Type} [RecordBatch Batch]

/-- A lease as it leaves a ring: `front` and `taken` are the batches at the head of the queue that it is made of. -/
structure LeaseFormation (config : BufferConfig) (ring : SignalRing Batch) (lease : Lease Batch)
    (front : QueuedBatch Batch) (taken : List (QueuedBatch Batch)) : Prop where
  queue : front :: taken <+: ring.queue
  first : lease.id.firstSeq = front.seqId
  smallest : ∀ seq, ring.slots[seq]? = some .queued → lease.id.firstSeq ≤ seq
  ordered : lease.id.firstSeq ≤ lease.id.lastSeq
  range : (front :: taken).map (·.seqId) =
    List.range' lease.id.firstSeq (lease.id.lastSeq + 1 - lease.id.firstSeq)
  leased : lease.leased = (front :: taken).map (·.leasedMeta)
  payloads : lease.payloads = (front :: taken).map (·.payload)
  queued : ∀ seq, lease.id.firstSeq ≤ seq → seq ≤ lease.id.lastSeq → ring.slots[seq]? = some .queued
  unreserved : ∀ seq < lease.id.firstSeq, ring.slots[seq]? ≠ some .reserved
  schemas : ∀ item ∈ taken, item.payload.schema = front.payload.schema
  attempts : ∀ item ∈ front :: taken, item.attempt = lease.attempt
  totalRows : lease.numRows = ((front :: taken).map (·.rowCount)).sum
  totalBytes : lease.byteSize = ((front :: taken).map (·.byteSize)).sum
  rows : ∀ maxRecords ∈ config.maxBatchRecords, lease.numRows ≤ max maxRecords front.rowCount
  bytes : lease.byteSize ≤ max config.maxBatchSizeBytes front.byteSize

theorem hasEarlierReserved_false {ring : SignalRing Batch} {seqId : Nat}
    (unreserved : ring.hasEarlierReserved seqId = false) :
    ∀ seq < seqId, ring.slots[seq]? ≠ some .reserved := by
  intro seq below found
  have listed := ExtTreeMap.mem_toList_iff_getElem?_eq_some.mpr found
  have clear := List.any_eq_false.mp unreserved _ listed
  simp [below] at clear

namespace Formed

variable {config : BufferConfig} {ring : SignalRing Batch} {now : Instant} {front : QueuedBatch Batch}
  {taken rest : List (QueuedBatch Batch)}

theorem totalBytes_le (formed : Formed config ring now front taken rest) :
    ((front :: taken).map (·.byteSize)).sum ≤ max config.maxBatchSizeBytes front.byteSize := by
  by_cases empty : taken = []
  · subst empty
    simp
  · have bound := formed.coalescible.bytes empty
    simp only at bound
    simp only [List.map_cons, List.sum_cons]
    omega

theorem totalRows_le (formed : Formed config ring now front taken rest) {maxRecords : Nat}
    (limited : maxRecords ∈ config.maxBatchRecords) :
    ((front :: taken).map (·.rowCount)).sum ≤ max maxRecords front.rowCount := by
  by_cases empty : taken = []
  · subst empty
    simp
  · have bound := (formed.coalescible.records empty maxRecords limited).2
    simp only at bound
    simp only [List.map_cons, List.sum_cons]
    omega

end Formed

namespace RingWorld

variable {config : BufferConfig} {origin : SignalRing Batch} {world : RingWorld Batch}

theorem Sound.formation {inner : BufferInner} {signal : SignalKind} {now : Instant}
    {front : QueuedBatch Batch} {taken rest : List (QueuedBatch Batch)}
    (sound : Sound config origin world) (formed : Formed config world.state.ring now front taken rest) :
    LeaseFormation config world.state.ring (leaseOf inner signal now front taken) front taken := by
  have wellFormed := leaseOf_wellFormed formed sound.accounted.balanced.ascending inner signal
  have length : (leaseOf inner signal now front taken).leased.length = taken.length + 1 := by
    simp [leaseOf]
  have last := wellFormed.last
  rw [length] at last
  have count : (leaseOf inner signal now front taken).id.lastSeq + 1 -
      (leaseOf inner signal now front taken).id.firstSeq = taken.length + 1 := by
    omega
  have range : (front :: taken).map (·.seqId) =
      List.range' (leaseOf inner signal now front taken).id.firstSeq (taken.length + 1) := by
    have numbers := wellFormed.contiguous
    rw [length] at numbers
    simpa [leaseOf, QueuedBatch.leasedMeta, Function.comp_def] using numbers
  refine
    { queue := ⟨rest, formed.queue.symm⟩
      first := rfl
      smallest := ?_
      ordered := by omega
      range := by rw [count, range]
      leased := rfl
      payloads := rfl
      queued := ?_
      unreserved := hasEarlierReserved_false formed.unreserved
      schemas := formed.coalescible.schemas
      attempts := List.forall_mem_cons.mpr ⟨rfl, formed.coalescible.attempts⟩
      totalRows := rfl
      totalBytes := rfl
      rows := fun maxRecords limited => formed.totalRows_le limited
      bytes := formed.totalBytes_le }
  · intro seq found
    have queued := (sound.slot_iff seq .queued).mp found
    obtain ⟨item, member, rfl⟩ := List.mem_map.mp queued
    have ascending := sound.accounted.balanced.ascending
    rw [formed.queue] at member ascending
    rcases List.mem_cons.mp member with rfl | behind
    · exact le_rfl
    · exact (ascending.head_lt item behind).le
  · intro seq lower upper
    have inside : seq ∈ (front :: taken).map (·.seqId) := by
      rw [range, List.mem_range'_1]
      omega
    obtain ⟨item, member, rfl⟩ := List.mem_map.mp inside
    refine sound.accounted.balanced.queued_mem ?_
    rw [formed.queue]
    exact List.mem_append_left _ member

/-- Every lease popped in a reachable state is a contiguous, uniform and bounded front part of the queue, as long as
    the ring has not come to the number `u64::MAX`. -/
theorem lease_formation_of_run (inner : BufferInner) (signal : SignalKind) {start : SignalRingState Batch}
    (opened : Opened start)
    (run : Run (step inner signal) (fun _ _ => True) { state := start } world) {now : Instant}
    {lease : Lease Batch} (popped : (tryPopSignalLease inner signal world.state now).2.1 = some lease) :
    ∃ front taken, LeaseFormation inner.config world.state.ring lease front taken := by
  have sound := (opened.sound inner.config).run run
  rcases tryPopSignalLease_cases inner signal world.state now with
    ⟨wait, drained, idle⟩ | ⟨front, taken, rest, formed, leased⟩
  · rw [idle] at popped
    cases popped
  · rw [leased] at popped
    cases popped
    exact ⟨front, taken, sound.formation formed⟩

/-- The second of three batches is still being written when the first is requeued. -/
def gapBehindRetry : List (RingAction PlainBatch) :=
  [.enqueue ⟨0, 2, [1, 2]⟩ 5, .pop 6, .reserve 40 1 1 (0 : UInt8) 7, .enqueue ⟨0, 3, [3]⟩ 8, .dropLease 1 9 1]

theorem lease_formation_of_run_gap :
    ∃ world lease, execute (step plainInner .logs) {} gapBehindRetry = some world ∧
      (tryPopSignalLease plainInner .logs world.state 10).2.1 = some lease ∧
      lease.id.lastSeq = 1 ∧
      ∃ front taken, LeaseFormation plainInner.config world.state.ring lease front taken :=
  ⟨_, _, rfl, rfl, rfl, lease_formation_of_run plainInner .logs .new
    (execute_run (fun _ _ => trivial) gapBehindRetry rfl) rfl⟩

/-- Two frames of the number `u64::MAX` are leased together. -/
theorem lease_formation_fails_saturated : Opened lastNumbers ∧
    ∃ lease,
      (tryPopSignalLease diskInner .logs (appendOne (appendOne { state := lastNumbers })).state 7).2.1 = some lease ∧
      ¬∃ front taken,
        LeaseFormation diskInner.config (appendOne (appendOne { state := lastNumbers })).state.ring lease front taken := by
  refine ⟨lastNumbers_opened, ?_⟩
  have popped : (tryPopSignalLease diskInner .logs (appendOne (appendOne { state := lastNumbers })).state 7).2.1.map
      (fun lease => (lease.id.firstSeq, lease.id.lastSeq, lease.leased.map (·.seqId))) =
        some (u64Max - 1, u64Max, [u64Max - 1, u64Max, u64Max]) := by decide +kernel
  obtain ⟨lease, found, same⟩ := Option.map_eq_some_iff.mp popped
  simp only [Prod.mk.injEq] at same
  obtain ⟨first, last, numbers⟩ := same
  refine ⟨lease, found, fun ⟨front, taken, formed⟩ => ?_⟩
  have range := formed.range
  have leased : lease.leased.map (·.seqId) = (front :: taken).map (·.seqId) := by
    rw [formed.leased, List.map_map]
    rfl
  rw [← leased, numbers, first, last] at range
  revert range
  decide

end RingWorld

end OtelDatalake.Buffer
