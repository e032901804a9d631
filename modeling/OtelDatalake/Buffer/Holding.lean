import OtelDatalake.Buffer.Contents

open Std OtelDatalake.Foundation

namespace OtelDatalake.Buffer

variable {Batch : Type} [RecordBatch Batch]

theorem mem_zip_of_map_eq {α β : Type} {key : β → Nat} {payloads : List α} {left right : List β} {payload : α}
    {entry : β} (same : left.map key = right.map key) (member : (payload, entry) ∈ payloads.zip left) :
    ∃ other, (payload, other) ∈ payloads.zip right ∧ key other = key entry := by
  induction payloads generalizing left right with
  | nil => cases member
  | cons first later ih =>
    cases left with
    | nil => cases member
    | cons front rest =>
      cases right with
      | nil => cases same
      | cons head tail =>
        rw [List.map_cons, List.map_cons, List.cons.injEq] at same
        rw [List.zip_cons_cons] at member ⊢
        rcases List.mem_cons.mp member with equal | behind
        · cases equal
          exact ⟨head, List.mem_cons_self, same.1.symm⟩
        · obtain ⟨other, found, equal⟩ := ih same.2 behind
          exact ⟨other, List.mem_cons_of_mem _ found, equal⟩

def Lease.Carries (lease : Lease Batch) (seqId : Nat) (payload : BatchPayload Batch) : Prop :=
  ∃ item, (payload, item) ∈ lease.payloads.zip lease.leased ∧ item.seqId = seqId

theorem Lease.carries_putBack {lease : Lease Batch} {leased : List LeasedBatchMeta} {nextAttempt : Nat}
    {readyAt : Option Instant} {item : QueuedBatch Batch} (same : SameBatches leased lease.leased)
    (member : item ∈ lease.putBack leased nextAttempt readyAt) : lease.Carries item.seqId item.payload := by
  obtain ⟨⟨payload, entry⟩, listed, rfl⟩ := List.mem_map.mp member
  obtain ⟨other, found, equal⟩ := mem_zip_of_map_eq same.seqIds listed
  exact ⟨other, found, equal⟩

theorem leaseOf_carries {inner : BufferInner} {signal : SignalKind} {now : Instant} {front : QueuedBatch Batch}
    {taken : List (QueuedBatch Batch)} {seqId : Nat} {payload : BatchPayload Batch}
    (carries : (leaseOf inner signal now front taken).Carries seqId payload) :
    ∃ item ∈ front :: taken, item.seqId = seqId ∧ item.payload = payload := by
  obtain ⟨entry, listed, rfl⟩ := carries
  simp only [leaseOf, List.zip_map', List.mem_map] at listed
  obtain ⟨item, member, equal⟩ := listed
  cases equal
  exact ⟨item, member, rfl, rfl⟩

namespace RingWorld

/-- A sequence number is queued with a payload or carried with it by a lease. -/
def Holds (world : RingWorld Batch) (seqId : Nat) (payload : BatchPayload Batch) : Prop :=
  (∃ item ∈ world.state.ring.queue, item.seqId = seqId ∧ item.payload = payload) ∨
    ∃ held ∈ world.leases, held.value.Carries seqId payload

variable {config : BufferConfig} {origin : SignalRing Batch} {world next : RingWorld Batch}

theorem takeLease_mem {firstSeq : Nat} {lease : Lease Batch} {others : List (Held (Lease Batch))}
    (taken : world.takeLease firstSeq = some (lease, others)) : ∃ held ∈ world.leases, held.value = lease := by
  obtain ⟨_, _, ⟨entry, member, same⟩, _⟩ := takeHeld_eq_some taken
  exact ⟨entry, member, same⟩

theorem takeReservation_seqId {seqId : Nat} {reservation : AppendReservation Batch}
    {others : List (Held (AppendReservation Batch))}
    (taken : world.takeReservation seqId = some (reservation, others)) : reservation.seqId = seqId := by
  obtain ⟨entry, found, equal⟩ := Option.map_eq_some_iff.mp taken
  cases equal
  simpa using List.find?_some found

theorem retried_carries {inner : BufferInner} {action : RingAction Batch} {lease : Lease Batch}
    {items : List (QueuedBatch Batch)} (retried : world.retried inner action = some (lease, items))
    {item : QueuedBatch Batch} (member : item ∈ items) :
    ∃ held ∈ world.leases, held.value.Carries item.seqId item.payload := by
  cases action with
  | nack firstSeq failure now nowMs deadLetter persisted =>
    obtain ⟨⟨taken, others⟩, found, disposed⟩ := Option.bind_eq_some_iff.mp retried
    have keeps := taken.disposition_keeps inner world.state failure now nowMs deadLetter
    obtain ⟨held, listed, same⟩ := takeLease_mem found
    generalize taken.disposition inner world.state failure now nowMs deadLetter = disposition at keeps disposed
    cases disposition with
    | requeue leased nextAttempt readyAt =>
      cases disposed
      exact ⟨held, listed, same ▸ Lease.carries_putBack keeps member⟩
    | fail leased reason => cases disposed
    | quarantine => cases disposed
  | dropLease firstSeq now nowMs =>
    obtain ⟨⟨taken, others⟩, found, equal⟩ := Option.map_eq_some_iff.mp retried
    cases equal
    obtain ⟨held, listed, same⟩ := takeLease_mem found
    exact ⟨held, listed, same ▸ Lease.carries_putBack (SameBatches.stamped _ now) member⟩
  | _ => cases retried

theorem Sound.holds {inner : BufferInner} {signal : SignalKind} {action : RingAction Batch}
    (sound : Sound config origin world) (stepped : RingWorld.step inner signal world action = some next)
    {seqId : Nat} {payload : BatchPayload Batch} (holds : next.Holds seqId payload) :
    world.Holds seqId payload ∨ (∃ batch now, action = .enqueue batch now ∧ payload = .inMemory batch) ∨
      ∃ written now reservation others, action = .finish seqId (.ok written) now ∧
        world.takeReservation seqId = some (reservation, others) ∧
        payload = (reservation.queuedBatch written now).payload := by
  rcases holds with ⟨item, member, rfl, rfl⟩ | ⟨held, member, carries⟩
  · rcases sound.arrives stepped member with old | arrives
    · exact Or.inl (Or.inl ⟨item, old, rfl, rfl⟩)
    · cases arrives with
      | enqueued payload _ => exact Or.inr (Or.inl ⟨_, _, rfl, payload⟩)
      | finished taken =>
        have same := takeReservation_seqId taken
        subst same
        exact Or.inr (Or.inr ⟨_, _, _, _, rfl, taken, rfl⟩)
      | retried retried listed => exact Or.inl (Or.inr (retried_carries retried listed))
      | failed taken same listed =>
        obtain ⟨entry, present, equal⟩ := takeLease_mem taken
        exact Or.inl (Or.inr ⟨entry, present, equal ▸ Lease.carries_putBack same listed⟩)
  · rcases step_leases stepped member with ⟨old, listed, payloads, leased, _⟩ | ⟨now, rfl, popped⟩
    · refine Or.inl (Or.inr ⟨old, listed, ?_⟩)
      rw [Lease.Carries, payloads, leased]
      exact carries
    · rcases tryPopSignalLease_cases inner signal world.state now with
        ⟨wait, drained, idle⟩ | ⟨front, taken, rest, formed, leased⟩
      · rw [idle] at popped
        cases popped
      · rw [leased] at popped
        rw [← Option.some.inj popped] at carries
        obtain ⟨item, inside, same, equal⟩ := leaseOf_carries carries
        refine Or.inl (Or.inl ⟨item, ?_, same, equal⟩)
        rw [formed.queue]
        exact List.mem_append_left _ inside

end RingWorld

end OtelDatalake.Buffer
