import OtelDatalake.Buffer.Accounting

open Std OtelDatalake.Foundation

namespace OtelDatalake.Buffer

variable {Batch : Type} [RecordBatch Batch]

namespace SignalRing

def CoalesceCheck.extend (check : CoalesceCheck) (group : List (QueuedBatch Batch)) : CoalesceCheck :=
  { check with
    lastSeq := (group.map (·.seqId)).getLast?.getD check.lastSeq
    bytes := check.bytes + (group.map (·.byteSize)).sum
    rows := check.rows + (group.map (·.rowCount)).sum
    count := check.count + group.length }

structure Coalescible (config : BufferConfig) (now : Instant) (attempt : Nat)
    (schema : RecordBatch.Schema Batch) (check : CoalesceCheck) (group : List (QueuedBatch Batch)) :
    Prop where
  successive : List.IsChain (fun seq next => next = saturatingSucc seq) (check.lastSeq :: group.map (·.seqId))
  ready : ∀ item ∈ group, notReady item.readyAt now = false
  attempts : ∀ item ∈ group, item.attempt = attempt
  schemas : ∀ item ∈ group, item.payload.schema = schema
  bytes : group ≠ [] → check.bytes + (group.map (·.byteSize)).sum ≤ config.maxBatchSizeBytes
  records : group ≠ [] → ∀ maxRecords ∈ config.maxBatchRecords,
    1 < maxRecords ∧ check.rows + (group.map (·.rowCount)).sum ≤ maxRecords

theorem recordsExceeded_false {config : BufferConfig} {rows next : Nat} :
    recordsExceeded config rows next = false ↔
      ∀ maxRecords ∈ config.maxBatchRecords, 1 < maxRecords ∧ rows + next ≤ maxRecords := by
  unfold recordsExceeded
  cases config.maxBatchRecords <;> simp

variable {config : BufferConfig} {now : Instant} {slots : ExtTreeMap Nat LeaseSlotState} {attempt : Nat}
  {schema : RecordBatch.Schema Batch} {check : CoalesceCheck}

theorem coalesce_cons_take {next : QueuedBatch Batch} {rest : List (QueuedBatch Batch)}
    (coalescible : Coalescible config now attempt schema check [next]) :
    coalesce config now slots attempt schema check (next :: rest) =
      coalesce config now slots attempt schema (check.extend [next]) rest := by
  have numbered : next.seqId = saturatingSucc check.lastSeq := by simpa using coalescible.successive
  have bytes : check.bytes + next.byteSize ≤ config.maxBatchSizeBytes := by
    simpa using coalescible.bytes (by simp)
  have records : recordsExceeded config check.rows next.rowCount = false := by
    refine recordsExceeded_false.mpr fun maxRecords member => ?_
    simpa using coalescible.records (by simp) maxRecords member
  have attempts := coalescible.attempts next (by simp)
  have schemas := coalescible.schemas next (by simp)
  have ready := coalescible.ready next (by simp)
  simp [coalesce, numbered, ready, attempts, schemas, records, Nat.not_lt.mpr bytes, CoalesceCheck.extend]

theorem coalesce_cons (slots : ExtTreeMap Nat LeaseSlotState) (next : QueuedBatch Batch)
    (rest : List (QueuedBatch Batch)) (check : CoalesceCheck) :
    Coalescible config now attempt schema check [next] ∨
      ∃ boundary, coalesce config now slots attempt schema check (next :: rest) =
        { check with hitBoundary := boundary } := by
  by_cases numbered : next.seqId = saturatingSucc check.lastSeq
  · by_cases blocked : (notReady next.readyAt now || next.attempt ≠ attempt || next.payload.schema ≠ schema ||
        check.bytes + next.byteSize > config.maxBatchSizeBytes ||
        recordsExceeded config check.rows next.rowCount) = true
    · refine Or.inr ⟨true, ?_⟩
      simp only [coalesce, numbered, ne_eq, not_true_eq_false, if_false]
      rw [if_pos blocked]
    · refine Or.inl ?_
      simp only [Bool.or_eq_true, decide_eq_true_eq, not_or, Bool.not_eq_true, ne_eq, not_not,
        gt_iff_lt, Nat.not_lt] at blocked
      obtain ⟨⟨⟨⟨ready, attempts⟩, schemas⟩, bytes⟩, records⟩ := blocked
      exact
        { successive := by simp [numbered]
          ready := by simpa using ready
          attempts := by simpa using attempts
          schemas := by simpa using schemas
          bytes := fun _ => by simpa using bytes
          records := fun _ => by simpa using recordsExceeded_false.mp records }
  · refine Or.inr ?_
    simp only [coalesce, ne_eq, numbered, not_false_eq_true, if_true]
    split
    · exact ⟨true, rfl⟩
    · exact ⟨check.hitBoundary, rfl⟩

theorem Coalescible.cons {next : QueuedBatch Batch} {group : List (QueuedBatch Batch)}
    (first : Coalescible config now attempt schema check [next])
    (later : Coalescible config now attempt schema (check.extend [next]) group) :
    Coalescible config now attempt schema check (next :: group) where
  successive := by
    have numbered : next.seqId = saturatingSucc check.lastSeq := by simpa using first.successive
    exact List.IsChain.cons_cons numbered later.successive
  ready := List.forall_mem_cons.mpr ⟨first.ready next (by simp), later.ready⟩
  attempts := List.forall_mem_cons.mpr ⟨first.attempts next (by simp), later.attempts⟩
  schemas := List.forall_mem_cons.mpr ⟨first.schemas next (by simp), later.schemas⟩
  bytes := fun _ => by
    by_cases empty : group = []
    · subst empty
      exact first.bytes (by simp)
    · have bound := later.bytes empty
      simp only [CoalesceCheck.extend, List.map_cons, List.map_nil, List.sum_cons, List.sum_nil] at bound
      simp only [List.map_cons, List.sum_cons]
      omega
  records := fun _ maxRecords member => by
    by_cases empty : group = []
    · subst empty
      exact first.records (by simp) maxRecords member
    · have bound := later.records empty maxRecords member
      simp only [CoalesceCheck.extend, List.map_cons, List.map_nil, List.sum_cons, List.sum_nil] at bound
      simp only [List.map_cons, List.sum_cons]
      omega

theorem CoalesceCheck.extend_cons (next : QueuedBatch Batch) (group : List (QueuedBatch Batch)) :
    (check.extend [next]).extend group = check.extend (next :: group) := by
  simp only [CoalesceCheck.extend, List.map_cons, List.map_nil, List.sum_cons, List.sum_nil,
    List.length_cons, List.length_nil, List.getLast?_cons, List.getLast?_nil, Option.getD_some, Option.getD_none]
  congr 1 <;> omega

theorem coalesce_split (config : BufferConfig) (now : Instant) (slots : ExtTreeMap Nat LeaseSlotState)
    (attempt : Nat) (schema : RecordBatch.Schema Batch) (queue : List (QueuedBatch Batch))
    (check : CoalesceCheck) :
    ∃ group remaining boundary, queue = group ++ remaining ∧
      Coalescible config now attempt schema check group ∧
      coalesce config now slots attempt schema check queue =
        { check.extend group with hitBoundary := boundary } := by
  induction queue generalizing check with
  | nil =>
    refine ⟨[], [], check.hitBoundary, rfl, ?_, by simp [coalesce, CoalesceCheck.extend]⟩
    exact ⟨by simp, by simp, by simp, by simp, by simp, by simp⟩
  | cons next rest ih =>
    rcases coalesce_cons slots next rest check with first | ⟨boundary, stopped⟩
    · obtain ⟨group, remaining, boundary, split, later, reached⟩ := ih (check.extend [next])
      refine ⟨next :: group, remaining, boundary, by simp [split], first.cons later, ?_⟩
      rw [coalesce_cons_take first, reached, CoalesceCheck.extend_cons]
    · refine ⟨[], next :: rest, boundary, rfl, ?_, ?_⟩
      · exact ⟨by simp, by simp, by simp, by simp, by simp, by simp⟩
      · simpa [CoalesceCheck.extend] using stopped

theorem coalesce_group {group remaining : List (QueuedBatch Batch)} {check : CoalesceCheck}
    (coalescible : Coalescible config now attempt schema check group) :
    coalesce config now slots attempt schema check (group ++ remaining) =
      coalesce config now slots attempt schema (check.extend group) remaining := by
  induction group generalizing check with
  | nil => simp [CoalesceCheck.extend]
  | cons next rest ih =>
    have numbered := coalescible.successive
    rw [List.map_cons, List.isChain_cons_cons] at numbered
    have bytes := coalescible.bytes (by simp)
    simp only [List.map_cons, List.sum_cons] at bytes
    have records := coalescible.records (by simp)
    simp only [List.map_cons, List.sum_cons] at records
    have first : Coalescible config now attempt schema check [next] :=
      { successive := by simp [numbered.1]
        ready := by simpa using coalescible.ready next (by simp)
        attempts := by simpa using coalescible.attempts next (by simp)
        schemas := by simpa using coalescible.schemas next (by simp)
        bytes := fun _ => by
          simp only [List.map_cons, List.map_nil, List.sum_cons, List.sum_nil]
          omega
        records := fun _ maxRecords member => by
          have bound := records maxRecords member
          simp only [List.map_cons, List.map_nil, List.sum_cons, List.sum_nil]
          omega }
    have later : Coalescible config now attempt schema (check.extend [next]) rest :=
      { successive := numbered.2
        ready := fun item member => coalescible.ready item (by simp [member])
        attempts := fun item member => coalescible.attempts item (by simp [member])
        schemas := fun item member => coalescible.schemas item (by simp [member])
        bytes := fun _ => by
          simp only [CoalesceCheck.extend, List.map_cons, List.map_nil, List.sum_cons, List.sum_nil]
          omega
        records := fun _ maxRecords member => by
          have bound := records maxRecords member
          simp only [CoalesceCheck.extend, List.map_cons, List.map_nil, List.sum_cons, List.sum_nil]
          omega }
    rw [List.cons_append, coalesce_cons_take first, ih later, CoalesceCheck.extend_cons]

theorem range_of_successive {seqs : List Nat} {first : Nat}
    (successive : List.IsChain (fun seq next => next = saturatingSucc seq) (first :: seqs))
    (sorted : (first :: seqs).Pairwise (· < ·)) : seqs = List.range' (first + 1) seqs.length := by
  induction seqs generalizing first with
  | nil => rfl
  | cons next rest ih =>
    obtain ⟨numbered, later⟩ := List.isChain_cons_cons.mp successive
    have ahead : first < next := (List.pairwise_cons.mp sorted).1 next List.mem_cons_self
    have same : next = first + 1 := by
      unfold saturatingSucc at numbered
      omega
    subst same
    have continued := ih later (List.pairwise_cons.mp sorted).2
    rw [List.length_cons, List.range'_succ, ← continued]

theorem successive_of_range {seqs : List Nat} {first : Nat} (range : seqs = List.range' (first + 1) seqs.length)
    (bounded : ∀ seq ∈ seqs, seq ≤ u64Max) :
    List.IsChain (fun seq next => next = saturatingSucc seq) (first :: seqs) := by
  induction seqs generalizing first with
  | nil => exact List.IsChain.singleton _
  | cons next rest ih =>
    rw [List.length_cons, List.range'_succ, List.cons.injEq] at range
    obtain ⟨rfl, continued⟩ := range
    refine List.IsChain.cons_cons ?_ (ih continued fun seq member => bounded seq (List.mem_cons_of_mem _ member))
    exact (saturatingSucc_of_lt (bounded _ List.mem_cons_self)).symm

end SignalRing

/-- The conditions under which a pop leases `front` and the batches of `taken` behind it. -/
structure Formed (config : BufferConfig) (ring : SignalRing Batch) (now : Instant) (front : QueuedBatch Batch)
    (taken rest : List (QueuedBatch Batch)) : Prop where
  queue : ring.queue = front :: taken ++ rest
  capacity : ring.inflightLeases < config.maxInflightLeases
  unreserved : ring.hasEarlierReserved front.seqId = false
  ready : SignalRing.notReady front.readyAt now = false
  coalescible : SignalRing.Coalescible config now front.attempt front.payload.schema
    { lastSeq := front.seqId, bytes := front.byteSize, rows := front.rowCount } taken
  count : (SignalRing.coalesceFront config now ring front (taken ++ rest)).count = 1 + taken.length

theorem Formed.contiguous {config : BufferConfig} {ring : SignalRing Batch} {now : Instant}
    {front : QueuedBatch Batch} {taken rest : List (QueuedBatch Batch)}
    (formed : Formed config ring now front taken rest) (sorted : Ascending (·.seqId) ring.queue) :
    taken.map (·.seqId) = List.range' (front.seqId + 1) taken.length := by
  have ascending : ((front :: taken).map (·.seqId)).Pairwise (· < ·) := by
    rw [formed.queue] at sorted
    exact List.pairwise_map.mpr (List.pairwise_append.mp sorted).1
  have range := SignalRing.range_of_successive formed.coalescible.successive ascending
  rwa [List.length_map] at range

theorem tryPopSignalLease_cases (inner : BufferInner) (signal : SignalKind) (state : SignalRingState Batch)
    (now : Instant) :
    (∃ wait drained, tryPopSignalLease inner signal state now = (state, none, wait, drained)) ∨
      ∃ front taken rest, Formed inner.config state.ring now front taken rest ∧
        tryPopSignalLease inner signal state now =
          ({ state with ring := state.ring.leaseItems (front :: taken) rest },
            some (leaseOf inner signal now front taken), none, false) := by
  unfold tryPopSignalLease
  simp only
  split
  · exact Or.inl ⟨_, _, rfl⟩
  · rename_i capacity
    split
    · exact Or.inl ⟨_, _, rfl⟩
    · rename_i front behind queue
      split
      · exact Or.inl ⟨_, _, rfl⟩
      · rename_i unreserved
        split
        · exact Or.inl ⟨_, _, rfl⟩
        · rename_i ready
          split
          · exact Or.inl ⟨_, _, rfl⟩
          · obtain ⟨taken, rest, boundary, split, coalescible, reached⟩ :=
              SignalRing.coalesce_split inner.config now state.ring.slots front.attempt front.payload.schema
                behind { lastSeq := front.seqId, bytes := front.byteSize, rows := front.rowCount }
            have count : (SignalRing.coalesceFront inner.config now state.ring front behind).count =
                1 + taken.length := by
              rw [SignalRing.coalesceFront, reached]
              rfl
            refine Or.inr ⟨front, taken, rest, ⟨?_, by omega, by simpa using unreserved,
              by simpa using ready, coalescible, split ▸ count⟩, ?_⟩
            · rw [queue, split]
              rfl
            · rw [count, Nat.add_sub_cancel_left, split]
              simp

end OtelDatalake.Buffer
