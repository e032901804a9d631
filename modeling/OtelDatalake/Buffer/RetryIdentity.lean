import Mathlib.Algebra.Order.BigOperators.Group.List
import Mathlib.Algebra.Order.Group.Nat
import OtelDatalake.Buffer.LeaseFormation
import OtelDatalake.Buffer.Contents

open Std OtelDatalake.Foundation

namespace OtelDatalake.Buffer

variable {Batch : Type} [RecordBatch Batch]

def Mergeable (config : BufferConfig) (left right : QueuedBatch Batch) : Prop :=
  right.seqId = left.seqId + 1 ∧ right.attempt = left.attempt ∧ right.payload.schema = left.payload.schema ∧
    left.byteSize + right.byteSize ≤ config.maxBatchSizeBytes ∧
    SignalRing.recordsExceeded config left.rowCount right.rowCount = false

instance (config : BufferConfig) (left right : QueuedBatch Batch) : Decidable (Mergeable config left right) :=
  inferInstanceAs (Decidable (_ ∧ _))

theorem Formed.mem_range {config : BufferConfig} {ring : SignalRing Batch} {now : Instant}
    {front item : QueuedBatch Batch} {taken rest : List (QueuedBatch Batch)}
    (formed : Formed config ring now front taken rest) (sorted : Ascending (·.seqId) ring.queue)
    (member : item ∈ front :: taken) :
    front.seqId ≤ item.seqId ∧ item.seqId ≤ front.seqId + taken.length := by
  have numbers := formed.contiguous sorted
  rcases List.mem_cons.mp member with rfl | behind
  · omega
  · have listed : item.seqId ∈ taken.map (·.seqId) := List.mem_map.mpr ⟨item, behind, rfl⟩
    rw [numbers, List.mem_range'_1] at listed
    omega

theorem Formed.exists_mem {config : BufferConfig} {ring : SignalRing Batch} {now : Instant}
    {front : QueuedBatch Batch} {taken rest : List (QueuedBatch Batch)} {seq : Nat}
    (formed : Formed config ring now front taken rest) (sorted : Ascending (·.seqId) ring.queue)
    (lower : front.seqId ≤ seq) (upper : seq ≤ front.seqId + taken.length) :
    ∃ item ∈ front :: taken, item.seqId = seq := by
  have numbers := formed.contiguous sorted
  by_cases starts : seq = front.seqId
  · exact ⟨front, List.mem_cons_self, starts.symm⟩
  · have listed : seq ∈ taken.map (·.seqId) := by
      rw [numbers, List.mem_range'_1]
      omega
    obtain ⟨item, behind, numbered⟩ := List.mem_map.mp listed
    exact ⟨item, List.mem_cons_of_mem _ behind, numbered⟩

theorem Formed.mergeable {config : BufferConfig} {ring : SignalRing Batch} {now : Instant}
    {front left right : QueuedBatch Batch} {taken rest : List (QueuedBatch Batch)}
    (formed : Formed config ring now front taken rest) (sorted : Ascending (·.seqId) ring.queue)
    (first : left ∈ front :: taken)
    (second : right ∈ front :: taken) (neighbours : right.seqId = left.seqId + 1) :
    Mergeable config left right := by
  have behind : right ∈ taken := by
    have lowest := (formed.mem_range sorted first).1
    rcases List.mem_cons.mp second with rfl | member
    · omega
    · exact member
  have some : taken ≠ [] := List.ne_nil_of_mem behind
  have attempts : ∀ item ∈ front :: taken, item.attempt = front.attempt :=
    List.forall_mem_cons.mpr ⟨rfl, formed.coalescible.attempts⟩
  have schemas : ∀ item ∈ front :: taken, item.payload.schema = front.payload.schema :=
    List.forall_mem_cons.mpr ⟨rfl, formed.coalescible.schemas⟩
  have distinct : left ≠ right := by
    rintro rfl
    omega
  have pair : ∀ weight : QueuedBatch Batch → Nat,
      weight left + weight right ≤ weight front + (taken.map weight).sum := by
    intro weight
    obtain ⟨before, after, split⟩ := List.append_of_mem first
    have other : right ∈ before ++ after := by
      rw [split] at second
      rcases List.mem_append.mp second with member | member
      · exact List.mem_append_left _ member
      · rcases List.mem_cons.mp member with same | member
        · exact absurd same.symm distinct
        · exact List.mem_append_right _ member
    have total := congrArg (fun items => (items.map weight).sum) split
    simp only [List.map_cons, List.sum_cons, List.map_append, List.sum_append] at total
    have bound := List.le_sum_of_mem (List.mem_map.mpr ⟨right, other, rfl⟩ :
      weight right ∈ (before ++ after).map weight)
    rw [List.map_append, List.sum_append] at bound
    omega
  refine ⟨neighbours, (attempts right second).trans (attempts left first).symm,
    (schemas right second).trans (schemas left first).symm, ?_, ?_⟩
  · exact (pair (·.byteSize)).trans (formed.coalescible.bytes some)
  · refine SignalRing.recordsExceeded_false.mpr fun maxRecords limited => ?_
    have bound := formed.coalescible.records some maxRecords limited
    exact ⟨bound.1, (pair (·.rowCount)).trans bound.2⟩

/-- The limits that one pop keeps to. -/
structure Lease.Fits (config : BufferConfig) (lease : Lease Batch) : Prop where
  schemas : ∀ left ∈ lease.payloads, ∀ right ∈ lease.payloads, left.schema = right.schema
  bytes : 1 < lease.leased.length → (lease.leased.map (·.byteSize)).sum ≤ config.maxBatchSizeBytes
  records : 1 < lease.leased.length → ∀ maxRecords ∈ config.maxBatchRecords,
    1 < maxRecords ∧ (lease.leased.map (·.rowCount)).sum ≤ maxRecords

theorem leaseOf_fits {config : BufferConfig} {ring : SignalRing Batch} {now : Instant}
    {front : QueuedBatch Batch} {taken rest : List (QueuedBatch Batch)}
    (formed : Formed config ring now front taken rest) (inner : BufferInner) (signal : SignalKind) :
    (leaseOf inner signal now front taken).Fits config := by
  have schemas : ∀ payload ∈ (leaseOf inner signal now front taken).payloads,
      payload.schema = front.payload.schema := by
    intro payload member
    obtain ⟨item, listed, rfl⟩ := List.mem_map.mp member
    rcases List.mem_cons.mp listed with rfl | behind
    · rfl
    · exact formed.coalescible.schemas item behind
  have several : 1 < (leaseOf inner signal now front taken).leased.length → taken ≠ [] := by
    rintro long rfl
    simp [leaseOf] at long
  refine ⟨fun left first right second => (schemas left first).trans (schemas right second).symm, ?_, ?_⟩
  · intro long
    have bound := formed.coalescible.bytes (several long)
    simpa [leaseOf, QueuedBatch.leasedMeta, Function.comp_def] using bound
  · intro long maxRecords limited
    have bound := formed.coalescible.records (several long) maxRecords limited
    simpa [leaseOf, QueuedBatch.leasedMeta, Function.comp_def] using bound

theorem Lease.putBack_map {α : Type} {lease : Lease Batch} {leased : List LeasedBatchMeta}
    (paired : lease.payloads.length = leased.length) (nextAttempt : Nat) (readyAt : Option Instant)
    (view : QueuedBatch Batch → α) (read : LeasedBatchMeta → α)
    (reads : ∀ entry, view (SignalRing.Balanced.requeued nextAttempt readyAt entry) = read entry.2) :
    (lease.putBack leased nextAttempt readyAt).map view = leased.map read := by
  have second : (lease.payloads.zip leased).map Prod.snd = leased := List.map_snd_zip paired.ge
  conv_rhs => rw [← second]
  simp [Lease.putBack, reads]

namespace RingWorld

/-- A transient nack that comes after the transient retry duration is over. -/
def expiredNack (inner : BufferInner) (world : RingWorld Batch) : RingAction Batch → Bool
  | .nack firstSeq .transient now nowMs _ _ =>
    (world.takeLease firstSeq).any fun taken =>
      Lease.transientExpired inner.config (Lease.markTransient world.state nowMs).firstTransientFailureUnixMs
        (taken.1.leased.map (Lease.stampFailure now)) now nowMs
  | _ => false

/-- What keeps a retry apart from the rest of the queue: it is not an expired one, and no queued batch may share a
    lease with a batch that it puts back. -/
structure Isolated (inner : BufferInner) (world : RingWorld Batch) (action : RingAction Batch) : Prop where
  unexpired : world.expiredNack inner action = false
  apart : ∀ entry ∈ (world.retried inner action).elim [] Prod.snd, ∀ item ∈ world.state.ring.queue,
    ¬Mergeable inner.config item entry ∧ ¬Mergeable inner.config entry item

instance (inner : BufferInner) (world : RingWorld Batch) (action : RingAction Batch) :
    Decidable (Isolated inner world action) :=
  decidable_of_iff (world.expiredNack inner action = false ∧
    ∀ entry ∈ (world.retried inner action).elim [] Prod.snd, ∀ item ∈ world.state.ring.queue,
      ¬Mergeable inner.config item entry ∧ ¬Mergeable inner.config entry item)
    ⟨fun both => ⟨both.1, both.2⟩, fun isolated => ⟨isolated.unexpired, isolated.apart⟩⟩

def retriedLease (inner : BufferInner) (world : RingWorld Batch) : RingAction Batch → Option (Lease Batch)
  | .nack firstSeq .transient .. => (world.takeLease firstSeq).map Prod.fst
  | .nack firstSeq (.rejected _) .. =>
    ((world.takeLease firstSeq).map Prod.fst).filter fun lease => lease.nextAttempt < inner.config.maxAttempts
  | .dropLease firstSeq .. => (world.takeLease firstSeq).map Prod.fst
  | _ => none

def Pops (inner : BufferInner) (signal : SignalKind) (seq : Nat) (world : RingWorld Batch)
    (action : RingAction Batch) : Prop :=
  ∃ now lease, action = .pop now ∧ (tryPopSignalLease inner signal world.state now).2.1 = some lease ∧
    lease.id.firstSeq ≤ seq ∧ seq ≤ lease.id.lastSeq

/-- In every run of permitted steps, the next lease popped that contains the first number of a retried lease has
    the range of that lease. -/
def RetryKeepsRange (inner : BufferInner) (signal : SignalKind)
    (permitted : RingWorld Batch → RingAction Batch → Prop) : Prop :=
  ∀ (start : SignalRingState Batch) (before after later : RingWorld Batch) (action : RingAction Batch)
    (lease next : Lease Batch) (now : Instant), Opened start →
    Run (step inner signal) permitted { state := start } before → permitted before action →
    before.retriedLease inner action = some lease → step inner signal before action = some after →
    Run (step inner signal) (fun world action => permitted world action ∧
      ¬Pops inner signal lease.id.firstSeq world action) after later →
    (tryPopSignalLease inner signal later.state now).2.1 = some next →
    next.id.firstSeq ≤ lease.id.firstSeq → lease.id.firstSeq ≤ next.id.lastSeq →
    next.id.firstSeq = lease.id.firstSeq ∧ next.id.lastSeq = lease.id.lastSeq

/-- A retried range that waits in the queue as `group`. -/
structure Pending (config : BufferConfig) (ring : SignalRing Batch) (first last : Nat)
    (group : List (QueuedBatch Batch)) : Prop where
  present : ∀ item ∈ group, item ∈ ring.queue
  contiguous : group.map (·.seqId) = List.range' first group.length
  nonempty : group ≠ []
  width : last + 1 = first + group.length
  uniform : ∀ left ∈ group, ∀ right ∈ group, left.attempt = right.attempt ∧
    left.payload.schema = right.payload.schema ∧ left.readyAt = right.readyAt
  retried : ∀ item ∈ group, item.attempt ≠ 0
  bytes : 1 < group.length → (group.map (·.byteSize)).sum ≤ config.maxBatchSizeBytes
  records : 1 < group.length → ∀ maxRecords ∈ config.maxBatchRecords,
    1 < maxRecords ∧ (group.map (·.rowCount)).sum ≤ maxRecords
  apart : ∀ item ∈ ring.queue, item.seqId < first ∨ last < item.seqId → ∀ member ∈ group,
    ¬Mergeable config item member ∧ ¬Mergeable config member item

namespace Pending

variable {config : BufferConfig} {origin : SignalRing Batch} {ring : SignalRing Batch} {now : Instant}
  {first last : Nat} {group taken rest : List (QueuedBatch Batch)} {front : QueuedBatch Batch}

theorem mem_range (pending : Pending config ring first last group) {item : QueuedBatch Batch}
    (member : item ∈ group) : first ≤ item.seqId ∧ item.seqId ≤ last := by
  have listed : item.seqId ∈ group.map (·.seqId) := List.mem_map.mpr ⟨item, member, rfl⟩
  rw [pending.contiguous, List.mem_range'_1] at listed
  have := pending.width
  omega

theorem exists_mem (pending : Pending config ring first last group) {seq : Nat} (lower : first ≤ seq)
    (upper : seq ≤ last) : ∃ item ∈ group, item.seqId = seq := by
  have listed : seq ∈ group.map (·.seqId) := by
    rw [pending.contiguous, List.mem_range'_1]
    have := pending.width
    omega
  exact List.mem_map.mp listed

theorem first_le_last (pending : Pending config ring first last group) : first ≤ last := by
  have := List.length_pos_iff.mpr pending.nonempty
  have := pending.width
  omega

theorem coalescible {later : List (QueuedBatch Batch)}
    (pending : Pending config ring first last (front :: later)) (bounded : ∀ item ∈ ring.queue, item.seqId ≤ u64Max)
    (ready : SignalRing.notReady front.readyAt now = false) :
    SignalRing.Coalescible config now front.attempt front.payload.schema
      { lastSeq := front.seqId, bytes := front.byteSize, rows := front.rowCount } later where
  successive := by
    have numbers := pending.contiguous
    rw [List.map_cons, List.length_cons, List.range'_succ, List.cons.injEq] at numbers
    obtain ⟨rfl, numbers⟩ := numbers
    refine SignalRing.successive_of_range (by simpa using numbers) ?_
    intro seq listed
    obtain ⟨item, member, rfl⟩ := List.mem_map.mp listed
    exact bounded item (pending.present item (List.mem_cons_of_mem _ member))
  ready item member := by
    rw [(pending.uniform item (List.mem_cons_of_mem _ member) front List.mem_cons_self).2.2]
    exact ready
  attempts item member :=
    (pending.uniform item (List.mem_cons_of_mem _ member) front List.mem_cons_self).1
  schemas item member :=
    (pending.uniform item (List.mem_cons_of_mem _ member) front List.mem_cons_self).2.1
  bytes several := by
    have long : 1 < (front :: later).length := by
      have := List.length_pos_iff.mpr several
      rw [List.length_cons]
      omega
    simpa using pending.bytes long
  records several maxRecords limited := by
    have long : 1 < (front :: later).length := by
      have := List.length_pos_iff.mpr several
      rw [List.length_cons]
      omega
    simpa using pending.records long maxRecords limited

theorem front_first (pending : Pending config ring first last group)
    (sorted : Ascending (·.seqId) ring.queue) (formed : Formed config ring now front taken rest)
    (reached : ∃ item ∈ front :: taken, item.seqId = first) : front.seqId = first := by
  obtain ⟨item, inside, numbered⟩ := reached
  have queued : ∀ other ∈ front :: taken, other ∈ ring.queue := by
    rw [formed.queue]
    exact fun other member => List.mem_append_left _ member
  obtain ⟨member, grouped, same⟩ := pending.exists_mem le_rfl pending.first_le_last
  have equal : member = item :=
    sorted.eq_of_key (pending.present member grouped) (queued item inside) (same.trans numbered.symm)
  subst equal
  have lower : front.seqId ≤ first := by
    rcases List.mem_cons.mp inside with rfl | behind
    · exact numbered.le
    · have ascending := sorted
      rw [formed.queue] at ascending
      have below := ascending.head_lt member (List.mem_append_left _ behind)
      omega
  by_contra different
  have upper := (formed.mem_range sorted inside).2
  obtain ⟨left, present, adjoining⟩ := formed.exists_mem sorted (show front.seqId ≤ first - 1 by omega) (by omega)
  have merged := formed.mergeable sorted present inside (by omega)
  exact (pending.apart left (queued left present) (Or.inl (by omega)) member grouped).1 merged

theorem taken_eq (pending : Pending config ring first last group)
    (sorted : Ascending (·.seqId) ring.queue) (bounded : ∀ item ∈ ring.queue, item.seqId ≤ u64Max)
    (formed : Formed config ring now front taken rest) (reached : ∃ item ∈ front :: taken, item.seqId = first) :
    front :: taken = group := by
  have starts := pending.front_first sorted formed reached
  have above : ∀ item ∈ ring.queue, first ≤ item.seqId := by
    have ascending := sorted
    rw [formed.queue] at ascending ⊢
    intro item member
    rcases List.mem_cons.mp member with rfl | behind
    · exact starts.ge
    · have := ascending.head_lt item behind
      omega
  obtain ⟨remaining, split⟩ := sorted.front_of_contiguous above pending.contiguous pending.present
  cases group with
  | nil => exact absurd rfl pending.nonempty
  | cons head later =>
    have queue := formed.queue.symm.trans split
    rw [List.cons_append, List.cons_append, List.cons.injEq] at queue
    obtain ⟨rfl, queue⟩ := queue
    have count := formed.count
    rw [queue, SignalRing.coalesceFront,
      SignalRing.coalesce_group (pending.coalescible bounded formed.ready)] at count
    obtain ⟨group, _, _, _, _, reachedCheck⟩ := SignalRing.coalesce_split config now ring.slots
      front.attempt front.payload.schema remaining (SignalRing.CoalesceCheck.extend
        { lastSeq := front.seqId, bytes := front.byteSize, rows := front.rowCount } later)
    have longer : later.length ≤ taken.length := by
      rw [reachedCheck] at count
      simp only [SignalRing.CoalesceCheck.extend] at count
      omega
    have width := pending.width
    rw [List.length_cons] at width
    by_cases more : later.length < taken.length
    · exfalso
      have queued : ∀ other ∈ front :: taken, other ∈ ring.queue := by
        rw [formed.queue]
        exact fun other member => List.mem_append_left _ member
      obtain ⟨final, grouped, same⟩ := pending.exists_mem pending.first_le_last le_rfl
      obtain ⟨item, inside, numbered⟩ := formed.exists_mem sorted (show front.seqId ≤ last by omega) (by omega)
      obtain ⟨next, behind, following⟩ := formed.exists_mem sorted (show front.seqId ≤ last + 1 by omega) (by omega)
      have equal : final = item :=
        sorted.eq_of_key (pending.present final grouped) (queued item inside) (same.trans numbered.symm)
      subst equal
      have merged := formed.mergeable sorted inside behind (by omega)
      exact (pending.apart next (queued next behind) (Or.inr (by omega)) final grouped).2 merged
    · rw [(List.append_inj queue (by omega)).1]

end Pending

theorem popped_formed {inner : BufferInner} {signal : SignalKind} {state : SignalRingState Batch}
    {now : Instant} {lease : Lease Batch}
    (popped : (tryPopSignalLease inner signal state now).2.1 = some lease) :
    ∃ front taken rest, Formed inner.config state.ring now front taken rest ∧
      lease = leaseOf inner signal now front taken := by
  rcases tryPopSignalLease_cases inner signal state now with
    ⟨wait, drained, idle⟩ | ⟨front, taken, rest, formed, leased⟩
  · rw [idle] at popped
    cases popped
  · rw [leased] at popped
    cases popped
    exact ⟨front, taken, rest, formed, rfl⟩

theorem leaseOf_bounds {config : BufferConfig} {ring : SignalRing Batch} {now : Instant}
    {front : QueuedBatch Batch} {taken rest : List (QueuedBatch Batch)}
    (formed : Formed config ring now front taken rest) (sorted : Ascending (·.seqId) ring.queue)
    (inner : BufferInner) (signal : SignalKind) :
    (leaseOf inner signal now front taken).id.firstSeq = front.seqId ∧
      (leaseOf inner signal now front taken).id.lastSeq = front.seqId + taken.length := by
  have last := (leaseOf_wellFormed formed sorted inner signal).last
  have length : (leaseOf inner signal now front taken).leased.length = taken.length + 1 := by
    simp [leaseOf]
  have first : (leaseOf inner signal now front taken).id.firstSeq = front.seqId := rfl
  exact ⟨first, by omega⟩

theorem fits_of_step {inner : BufferInner} {signal : SignalKind} {world next : RingWorld Batch}
    {action : RingAction Batch} (fits : ∀ held ∈ world.leases, held.value.Fits inner.config)
    (stepped : step inner signal world action = some next) :
    ∀ held ∈ next.leases, held.value.Fits inner.config := by
  intro held member
  rcases step_leases stepped member with ⟨old, listed, payloads, leased, _⟩ | ⟨now, rfl, popped⟩
  · obtain ⟨schemas, bytes, records⟩ := fits old listed
    rw [payloads] at schemas
    rw [leased] at bytes records
    exact ⟨schemas, bytes, records⟩
  · obtain ⟨front, taken, rest, formed, same⟩ := popped_formed popped
    rw [same]
    exact leaseOf_fits formed inner signal

theorem fits_of_run {inner : BufferInner} {signal : SignalKind} {world : RingWorld Batch}
    {permitted : RingWorld Batch → RingAction Batch → Prop} {start : SignalRingState Batch}
    (run : Run (step inner signal) permitted { state := start } world) :
    ∀ held ∈ world.leases, held.value.Fits inner.config :=
  run.invariant (fun world => ∀ held ∈ world.leases, held.value.Fits inner.config) (by simp)
    fun _ _ _ fits _ stepped => fits_of_step fits stepped

theorem mergeable_attempt {config : BufferConfig} {left right : QueuedBatch Batch}
    (different : left.attempt ≠ right.attempt) :
    ¬Mergeable config left right ∧ ¬Mergeable config right left :=
  ⟨fun merged => different merged.2.1.symm, fun merged => different merged.2.1⟩

/-- A retried range that is still in the queue, or that a discard has removed. -/
def Waits (config : BufferConfig) (first last : Nat) (world : RingWorld Batch) : Prop :=
  (∃ group, Pending config world.state.ring first last group) ∨ world.state.ring.Gone first

variable {inner : BufferInner} {signal : SignalKind} {origin : SignalRing Batch}
  {world next : RingWorld Batch} {action : RingAction Batch} {first last : Nat}

theorem Pending.arrival_apart {group : List (QueuedBatch Batch)} {item member : QueuedBatch Batch}
    (pending : Pending inner.config world.state.ring first last group) (isolated : Isolated inner world action)
    (arrives : Arrives inner world action item) (grouped : member ∈ group) :
    ¬Mergeable inner.config item member ∧ ¬Mergeable inner.config member item := by
  have retried := pending.retried member grouped
  cases arrives with
  | enqueued payload fresh =>
    exact mergeable_attempt (by rw [fresh]; exact retried.symm)
  | finished taken => exact mergeable_attempt (Ne.symm retried)
  | retried seen listed =>
    have apart := isolated.apart item (by rw [seen]; exact listed) member (pending.present member grouped)
    exact apart.symm
  | failed taken same listed =>
    obtain ⟨entry, _, rfl⟩ := List.mem_map.mp listed
    exact mergeable_attempt (Ne.symm retried)

theorem Pending.kept {group : List (QueuedBatch Batch)} {item : QueuedBatch Batch}
    (pending : Pending inner.config world.state.ring first last group)
    (sound : Sound inner.config origin world) (block : inner.config.overflowPolicy = .block)
    (stepped : step inner signal world action = some next) (grouped : item ∈ group) :
    item ∈ next.state.ring.queue ∨ action = .discard ∨ Pops inner signal first world action := by
  rcases sound.keeps block stepped (pending.present item grouped) with
    kept | discarded | ⟨now, lease, rfl, popped, inside⟩
  · exact Or.inl kept
  · exact Or.inr (Or.inl discarded)
  · have sorted := sound.accounted.balanced.ascending
    obtain ⟨front, taken, rest, formed, rfl⟩ := popped_formed popped
    obtain ⟨starts, ends⟩ := leaseOf_bounds formed sorted inner signal
    obtain ⟨starting, listed, numbered⟩ := pending.exists_mem le_rfl pending.first_le_last
    have lowest : front.seqId ≤ first := by
      have ascending := sorted
      have present := pending.present starting listed
      rw [formed.queue] at present ascending
      rcases List.mem_cons.mp present with rfl | behind
      · exact numbered.le
      · have := ascending.head_lt starting behind
        omega
    have reached : item.seqId ≤ front.seqId + taken.length := by
      obtain ⟨leased, member, equal⟩ := List.mem_map.mp inside
      obtain ⟨batch, held, rfl⟩ := List.mem_map.mp member
      have := (formed.mem_range sorted held).2
      have : batch.leasedMeta.seqId = batch.seqId := rfl
      omega
    have lower := (pending.mem_range grouped).1
    exact Or.inr (Or.inr ⟨now, _, rfl, popped, by omega, by omega⟩)

theorem Waits.step (waits : Waits inner.config first last world) (sound : Sound inner.config origin world)
    (block : inner.config.overflowPolicy = .block) (isolated : Isolated inner world action)
    (unpopped : ¬Pops inner signal first world action)
    (stepped : RingWorld.step inner signal world action = some next) :
    Waits inner.config first last next := by
  obtain ⟨departed, advance⟩ := sound.step stepped
  rcases waits with ⟨group, pending⟩ | gone
  · by_cases discarded : action = .discard
    · subst discarded
      cases stepped
      obtain ⟨item, listed, rfl⟩ := pending.exists_mem le_rfl pending.first_le_last
      exact Or.inr ⟨ExtTreeMap.not_mem_empty, sound.accounted.balanced.queued_lt (pending.present item listed)⟩
    · refine Or.inl ⟨group, { pending with present := ?_, apart := ?_ }⟩
      · intro item grouped
        rcases pending.kept sound block stepped grouped with kept | same | popped
        · exact kept
        · exact absurd same discarded
        · exact absurd popped unpopped
      · intro item queued outside member grouped
        rcases sound.arrives stepped queued with old | arrived
        · exact pending.apart item old outside member grouped
        · exact pending.arrival_apart isolated arrived grouped
  · exact Or.inr (advance.transition.evolves.gone gone)

theorem retried_of_lease {lease : Lease Batch} (unexpired : world.expiredNack inner action = false)
    (retries : world.retriedLease inner action = some lease) :
    ∃ firstSeq others leased readyAt, world.takeLease firstSeq = some (lease, others) ∧
      SameBatches leased lease.leased ∧
      world.retried inner action = some (lease, lease.putBack leased lease.nextAttempt readyAt) := by
  cases action with
  | nack firstSeq failure now nowMs deadLetter persisted =>
    cases failure with
    | transient =>
      obtain ⟨⟨taken, others⟩, found, rfl⟩ := Option.map_eq_some_iff.mp retries
      simp only [expiredNack, found, Option.any_some] at unexpired
      refine ⟨firstSeq, others, taken.leased.map (Lease.stampFailure now),
        Lease.backoffReadyAt inner.config taken.attempt now, found, SameBatches.stamped _ _, ?_⟩
      simp [retried, found, Lease.disposition, unexpired, Lease.Disposition.retried]
    | rejected reason =>
      obtain ⟨mapped, below⟩ := Option.filter_eq_some_iff.mp retries
      obtain ⟨⟨taken, others⟩, found, rfl⟩ := Option.map_eq_some_iff.mp mapped
      have limit : taken.nextAttempt < inner.config.maxAttempts := by simpa using below
      refine ⟨firstSeq, others, taken.leased, none, found, SameBatches.refl _, ?_⟩
      simp [retried, found, Lease.disposition, limit, Lease.Disposition.retried]
    | fatal reason => cases retries
  | dropLease firstSeq now nowMs =>
    obtain ⟨⟨taken, others⟩, found, rfl⟩ := Option.map_eq_some_iff.mp retries
    refine ⟨firstSeq, others, taken.leased.map (Lease.stampFailure now), none, found,
      SameBatches.stamped _ _, ?_⟩
    simp [retried, found]
  | _ => cases retries

theorem Sound.waits {lease : Lease Batch} (sound : Sound inner.config origin world)
    (fits : ∀ held ∈ world.leases, held.value.Fits inner.config) (isolated : Isolated inner world action)
    (retries : world.retriedLease inner action = some lease)
    (stepped : RingWorld.step inner signal world action = some next) :
    Waits inner.config lease.id.firstSeq lease.id.lastSeq next := by
  obtain ⟨firstSeq, others, leased, readyAt, found, same, seen⟩ :=
    retried_of_lease isolated.unexpired retries
  have wellFormed := (sound.taken found).1
  have paired : lease.payloads.length = leased.length := wellFormed.paired.trans same.length.symm
  obtain ⟨entry, held, rfl⟩ := (takeHeld_eq_some found).2.2.1
  have fit := fits entry held
  obtain ⟨departed, advance⟩ := sound.step stepped
  rcases sound.retried_queue seen stepped with queue | gone
  · have numbers := Lease.putBack_map paired entry.value.nextAttempt readyAt
      (·.seqId) (·.seqId) fun _ => rfl
    have sizes := Lease.putBack_map paired entry.value.nextAttempt readyAt
      (·.byteSize) (·.byteSize) fun _ => rfl
    have counts := Lease.putBack_map paired entry.value.nextAttempt readyAt
      (·.rowCount) (·.rowCount) fun _ => rfl
    rw [same.seqIds] at numbers
    rw [same.sizes] at sizes
    rw [same.counts] at counts
    have length : (entry.value.putBack leased entry.value.nextAttempt readyAt).length =
        entry.value.leased.length := by
      simpa using congrArg List.length numbers
    have members : ∀ item ∈ entry.value.putBack leased entry.value.nextAttempt readyAt,
        item.attempt = entry.value.nextAttempt ∧ item.readyAt = readyAt ∧
          item.payload ∈ entry.value.payloads := by
      intro item member
      obtain ⟨pair, listed, rfl⟩ := List.mem_map.mp member
      exact ⟨rfl, rfl, (List.of_mem_zip listed).1⟩
    refine Or.inl ⟨entry.value.putBack leased entry.value.nextAttempt readyAt,
      { present := fun item member => (queue item).mpr (Or.inr member)
        contiguous := by rw [numbers, wellFormed.contiguous, length]
        nonempty := ?_
        width := by rw [length, wellFormed.last]
        uniform := ?_
        retried := ?_
        bytes := by rw [length, sizes]; exact fit.bytes
        records := by rw [length, counts]; exact fit.records
        apart := ?_ }⟩
    · intro empty
      rw [empty] at length
      exact wellFormed.nonempty (List.eq_nil_of_length_eq_zero length.symm)
    · intro left first right second
      obtain ⟨leftAttempt, leftReady, leftPayload⟩ := members left first
      obtain ⟨rightAttempt, rightReady, rightPayload⟩ := members right second
      exact ⟨leftAttempt.trans rightAttempt.symm, fit.schemas _ leftPayload _ rightPayload,
        leftReady.trans rightReady.symm⟩
    · intro item member
      rw [(members item member).1]
      unfold Lease.nextAttempt u32Max
      omega
    · intro item queued outside member grouped
      rcases (queue item).mp queued with old | new
      · exact (isolated.apart member (by rw [seen]; exact grouped) item old)
      · exfalso
        have listed : item.seqId ∈ entry.value.leased.map (·.seqId) := by
          rw [← numbers]
          exact List.mem_map.mpr ⟨item, new, rfl⟩
        rw [wellFormed.contiguous, List.mem_range'_1] at listed
        have := wellFormed.last
        omega
  · right
    obtain ⟨item, listed, numbered⟩ : ∃ item ∈ entry.value.leased,
        item.seqId = entry.value.id.firstSeq := by
      have inside : entry.value.id.firstSeq ∈ entry.value.leased.map (·.seqId) := by
        rw [wellFormed.contiguous, List.mem_range'_1]
        have := List.length_pos_iff.mpr wellFormed.nonempty
        omega
      exact List.mem_map.mp inside
    rw [← numbered]
    exact advance.transition.evolves.gone (gone item listed)

/-- Under the blocking policy, in every run whose retries are isolated, a retried lease keeps its range. -/
theorem retry_keeps_range (inner : BufferInner) (signal : SignalKind)
    (block : inner.config.overflowPolicy = .block) :
    RetryKeepsRange inner signal (Isolated inner : RingWorld Batch → RingAction Batch → Prop) := by
  intro start before after later action lease next now opened reached isolated retries stepped waiting
    popped lower upper
  have sound := (opened.sound inner.config).run reached
  have waits := sound.waits (fits_of_run reached) isolated retries stepped
  obtain ⟨departed, advance⟩ := sound.step stepped
  have reachedSound := advance.sound sound
  have kept : Sound inner.config start.ring later ∧
      Waits inner.config lease.id.firstSeq lease.id.lastSeq later := by
    refine waiting.invariant (fun world => Sound inner.config start.ring world ∧
      Waits inner.config lease.id.firstSeq lease.id.lastSeq world) ⟨reachedSound, waits⟩ ?_
    intro world action next holds permitted stepped
    obtain ⟨departed, advance⟩ := holds.1.step stepped
    exact ⟨advance.sound holds.1, holds.2.step holds.1 block permitted.1 permitted.2 stepped⟩
  have balanced := kept.1.accounted.balanced
  have sorted := balanced.ascending
  have bounded : ∀ item ∈ later.state.ring.queue, item.seqId ≤ u64Max := fun item queued =>
    ((balanced.queued_lt queued).trans_le balanced.numbered).le
  obtain ⟨front, taken, rest, formed, rfl⟩ := popped_formed popped
  obtain ⟨starts, ends⟩ := leaseOf_bounds formed sorted inner signal
  have reachedItem := formed.exists_mem sorted (show front.seqId ≤ lease.id.firstSeq by omega) (by omega)
  rcases kept.2 with ⟨group, pending⟩ | gone
  · have exact_group := pending.taken_eq sorted bounded formed reachedItem
    have first := pending.front_first sorted formed reachedItem
    have width := pending.width
    rw [← exact_group, List.length_cons] at width
    omega
  · exfalso
    obtain ⟨item, inside, numbered⟩ := reachedItem
    have queued : item ∈ later.state.ring.queue := by
      rw [formed.queue]
      exact List.mem_append_left _ inside
    apply gone.1
    rw [← numbered, ExtTreeMap.mem_iff_isSome_getElem?, balanced.queued_mem queued]
    rfl

def leaseOfTwo : List (RingAction PlainBatch) :=
  [.enqueue ⟨0, 2, [1]⟩ 5, .enqueue ⟨0, 3, [2]⟩ 6, .pop 7]

/-- The lease of two batches is nacked and a third batch is queued before the next pop. -/
theorem retry_keeps_range_of_two :
    ∃ before after later next,
      executePermitted (step plainInner .logs) (Isolated plainInner) {} leaseOfTwo = some before ∧
      step plainInner .logs before (.nack 1 (.rejected "busy") 8 8 (.ok ()) (.ok ())) = some after ∧
      step plainInner .logs after (.enqueue ⟨0, 1, [3]⟩ 9) = some later ∧
      (tryPopSignalLease plainInner .logs later.state 10).2.1 = some next ∧
      next.id.firstSeq = 1 ∧ next.id.lastSeq = 2 :=
  ⟨_, _, _, _, rfl, rfl, rfl, rfl, retry_keeps_range plainInner .logs rfl {} _ _ _
    (.nack 1 (.rejected "busy") 8 8 (.ok ()) (.ok ())) _ _ 10 .new
    (executePermitted_run _ _ leaseOfTwo rfl) (by decide) rfl rfl
    (.single ⟨.enqueue ⟨0, 1, [3]⟩ 9, ⟨by decide, by rintro ⟨_, _, same, _⟩; cases same⟩, rfl⟩)
    rfl (by decide) (by decide)⟩

/-- Two leases of one batch each, the second of which is put back. -/
def adjacentRetries : List (RingAction PlainBatch) :=
  [.enqueue ⟨0, 2, [1]⟩ 5, .pop 6, .enqueue ⟨0, 3, [2]⟩ 7, .pop 8,
    .nack 2 (.rejected "busy") 9 9 (.ok ()) (.ok ())]

/-- When the first is put back too, the next pop leases both as one range. -/
theorem retry_range_grows :
    ¬RetryKeepsRange plainInner .logs (fun (_ : RingWorld PlainBatch) (_ : RingAction PlainBatch) => True) := by
  intro keeps
  have same := keeps {} _ _ _ (.nack 1 (.rejected "busy") 10 10 (.ok ()) (.ok ())) _ _ 11 .new
    (execute_run (fun _ _ => trivial) adjacentRetries rfl) trivial rfl rfl .refl rfl (by decide) (by decide)
  exact absurd same.2 (by decide)

end RingWorld

end OtelDatalake.Buffer
