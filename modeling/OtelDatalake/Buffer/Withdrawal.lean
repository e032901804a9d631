import OtelDatalake.Buffer.Budget
import OtelDatalake.Buffer.Numbering

open Std OtelDatalake.Foundation

namespace OtelDatalake.Buffer.RingWorld

variable {Batch : Type} [RecordBatch Batch]

def Undelivered (world : RingWorld Batch) (seqId : Nat) : Prop :=
  ∀ held ∈ world.leases, ∀ payload, ¬ held.value.Carries seqId payload

/-- The slot of a sequence number is gone, and no lease has taken it along. -/
structure Withdrawn (world : RingWorld Batch) (seqId : Nat) : Prop where
  gone : world.state.ring.Gone seqId
  undelivered : world.Undelivered seqId

structure Reserving (world : RingWorld Batch) (seqId : Nat) : Prop where
  held : ∃ held ∈ world.reservations, held.value.seqId = seqId
  undelivered : world.Undelivered seqId

variable {inner : BufferInner} {signal : SignalKind} {origin : SignalRing Batch} {world next : RingWorld Batch}
  {action : RingAction Batch} {seqId : Nat}

theorem Sound.carries_lt (sound : Sound inner.config origin world) {held : Held (Lease Batch)}
    (member : held ∈ world.leases) {payload : BatchPayload Batch} (carries : held.value.Carries seqId payload) :
    seqId < world.state.ring.nextSeq := by
  obtain ⟨item, listed, rfl⟩ := carries
  have leased := (List.of_mem_zip listed).2
  cases discarded : held.discarded
  · refine sound.accounted.balanced.belowNext _ ?_
    rw [ExtTreeMap.mem_iff_isSome_getElem?, sound.live_slot member discarded leased]
    rfl
  · exact (sound.goneLeases held member discarded item leased).2

theorem Sound.undelivered_of_le (sound : Sound inner.config origin world)
    (unassigned : world.state.ring.nextSeq ≤ seqId) : world.Undelivered seqId := by
  intro held member payload carries
  exact absurd (sound.carries_lt member carries) (Nat.not_lt.mpr unassigned)

theorem Sound.queued_slot (sound : Sound inner.config origin world) {item : QueuedBatch Batch}
    (member : item ∈ world.state.ring.queue) : world.state.ring.slots[item.seqId]? = some .queued :=
  (sound.represented.queued item.seqId).mpr (List.mem_map_of_mem member)

theorem Sound.holds_lt (sound : Sound inner.config origin world) {payload : BatchPayload Batch}
    (holds : world.Holds seqId payload) : seqId < world.state.ring.nextSeq := by
  rcases holds with ⟨item, member, rfl, _⟩ | ⟨held, member, carries⟩
  · exact sound.accounted.balanced.queued_lt member
  · exact sound.carries_lt member carries

theorem Withdrawn.not_holds (withdrawn : world.Withdrawn seqId) (sound : Sound inner.config origin world)
    (payload : BatchPayload Batch) : ¬ world.Holds seqId payload := by
  rintro (⟨item, member, rfl, _⟩ | ⟨held, member, carries⟩)
  · apply withdrawn.gone.1
    rw [ExtTreeMap.mem_iff_isSome_getElem?, sound.queued_slot member]
    rfl
  · exact withdrawn.undelivered held member payload carries

/-- In a ring that no task uses yet, a number that was given out and is not queued is withdrawn. -/
theorem Sound.withdrawn_of_idle (sound : Sound inner.config origin world) (unreserved : world.reservations = [])
    (unleased : world.leases = []) (given : seqId < world.state.ring.nextSeq)
    (unqueued : ∀ item ∈ world.state.ring.queue, item.seqId ≠ seqId) : world.Withdrawn seqId := by
  refine ⟨⟨fun member => ?_, given⟩, fun held member => ?_⟩
  · rw [ExtTreeMap.mem_iff_isSome_getElem?, Option.isSome_iff_exists] at member
    obtain ⟨status, slot⟩ := member
    cases status with
    | queued =>
      obtain ⟨item, queued, same⟩ := List.mem_map.mp ((sound.represented.queued seqId).mp slot)
      exact unqueued item queued same
    | reserved =>
      obtain ⟨reservation, live, _⟩ := List.mem_map.mp ((sound.represented.reserved seqId).mp slot)
      simp [liveReservations, unreserved, liveValues] at live
    | inFlight =>
      obtain ⟨item, live, _⟩ := List.mem_map.mp ((sound.represented.inFlight seqId).mp slot)
      simp [liveLeased, liveLeases, unleased, liveValues] at live
  · rw [unleased] at member
    cases member

theorem Undelivered.step (undelivered : world.Undelivered seqId)
    (stepped : RingWorld.step inner signal world action = some next)
    (unqueued : ∀ item ∈ world.state.ring.queue, item.seqId ≠ seqId) : next.Undelivered seqId := by
  intro held member payload carries
  rcases step_leases stepped member with ⟨old, listed, payloads, leased, _⟩ | ⟨now, rfl, popped⟩
  · refine undelivered old listed payload ?_
    rw [Lease.Carries, payloads, leased]
    exact carries
  · rcases tryPopSignalLease_cases inner signal world.state now with
      ⟨wait, drained, idle⟩ | ⟨front, taken, rest, formed, leased⟩
    · rw [idle] at popped
      cases popped
    · rw [leased] at popped
      rw [← Option.some.inj popped] at carries
      obtain ⟨item, inside, same, _⟩ := leaseOf_carries carries
      refine unqueued item ?_ same
      rw [formed.queue]
      exact List.mem_append_left _ inside

theorem Withdrawn.step (withdrawn : world.Withdrawn seqId) (sound : Sound inner.config origin world)
    (stepped : RingWorld.step inner signal world action = some next) : next.Withdrawn seqId := by
  obtain ⟨_, advance⟩ := sound.step stepped
  refine ⟨advance.transition.evolves.gone withdrawn.gone, withdrawn.undelivered.step stepped ?_⟩
  intro item member same
  exact withdrawn.not_holds sound item.payload (Or.inl ⟨item, member, same, rfl⟩)

theorem Reserving.slot (reserving : world.Reserving seqId) (sound : Sound inner.config origin world) :
    world.state.ring.slots[seqId]? = some .reserved ∨ world.state.ring.Gone seqId := by
  obtain ⟨held, member, rfl⟩ := reserving.held
  cases discarded : held.discarded
  · exact Or.inl (sound.accounted.balanced.reserved_mem (mem_liveValues.mpr ⟨held, member, discarded, rfl⟩))
  · exact Or.inr (sound.goneReservations held member discarded)

theorem Reserving.unqueued (reserving : world.Reserving seqId) (sound : Sound inner.config origin world) :
    ∀ item ∈ world.state.ring.queue, item.seqId ≠ seqId := by
  rintro item member rfl
  have queued := sound.queued_slot member
  rcases reserving.slot sound with reserved | gone
  · rw [reserved] at queued
    cases queued
  · apply gone.1
    rw [ExtTreeMap.mem_iff_isSome_getElem?, queued]
    rfl

def resolves (seqId : Nat) : RingAction Batch → Bool
  | .finish other _ _ | .dropReservation other => other == seqId
  | _ => false

theorem takeReservation_keeps {other : Nat} {reservation : AppendReservation Batch}
    {others : List (Held (AppendReservation Batch))} (taken : world.takeReservation other = some (reservation, others))
    (apart : (other == seqId) = false) (held : ∃ held ∈ world.reservations, held.value.seqId = seqId) :
    ∃ held ∈ others, held.value.seqId = seqId := by
  obtain ⟨entry, _, equal⟩ := Option.map_eq_some_iff.mp taken
  cases equal
  obtain ⟨held, member, rfl⟩ := held
  refine ⟨held, (List.mem_eraseP_of_neg ?_).mpr member, rfl⟩
  rw [beq_eq_false_iff_ne] at apart
  simpa using apart.symm

theorem Reserving.step (reserving : world.Reserving seqId) (sound : Sound inner.config origin world)
    (stepped : RingWorld.step inner signal world action = some next) (other : resolves seqId action = false) :
    next.Reserving seqId := by
  refine ⟨?_, reserving.undelivered.step stepped (reserving.unqueued sound)⟩
  cases action with
  | enqueue batch now =>
    obtain ⟨_, rfl⟩ := step_enqueue stepped
    obtain ⟨held, member, same⟩ := reserving.held
    simp only [admitBatch]
    split
    · exact ⟨held, List.mem_append_left _ member, same⟩
    · exact ⟨held, member, same⟩
  | reserve frameBytesLen batchRows rows schema now =>
    obtain ⟨_, rfl⟩ := step_reserve stepped
    obtain ⟨held, member, same⟩ := reserving.held
    simp only [admitBatch]
    split
    · exact ⟨held, List.mem_append_left _ member, same⟩
    · exact ⟨held, member, same⟩
  | finish finished result now =>
    obtain ⟨taken, found, rfl⟩ := Option.map_eq_some_iff.mp stepped
    exact takeReservation_keeps found other reserving.held
  | dropReservation dropped =>
    obtain ⟨taken, found, rfl⟩ := Option.map_eq_some_iff.mp stepped
    exact takeReservation_keeps found other reserving.held
  | discard =>
    cases stepped
    obtain ⟨held, member, same⟩ := reserving.held
    exact ⟨_, List.mem_map_of_mem member, same⟩
  | quarantineRows firstSeq rows =>
    obtain ⟨_, _, rfl⟩ := Option.map_eq_some_iff.mp stepped
    exact reserving.held
  | ack firstSeq persisted =>
    obtain ⟨_, _, rfl⟩ := Option.map_eq_some_iff.mp stepped
    exact reserving.held
  | nack firstSeq failure now nowMs deadLetter persisted =>
    obtain ⟨_, _, rfl⟩ := Option.map_eq_some_iff.mp stepped
    exact reserving.held
  | dropLease firstSeq now nowMs =>
    obtain ⟨_, _, rfl⟩ := Option.map_eq_some_iff.mp stepped
    exact reserving.held
  | _ =>
    cases stepped
    exact reserving.held

theorem rollbackSlot_withdraws {reservation : AppendReservation Batch} {state : SignalRingState Batch}
    (assigned : reservation.seqId < state.ring.nextSeq) :
    (reservation.rollbackSlot state).ring.Gone reservation.seqId := by
  unfold AppendReservation.rollbackSlot
  split
  · rename_i absent
    refine ⟨fun member => ?_, assigned⟩
    rw [ExtTreeMap.mem_iff_isSome_getElem?, absent] at member
    cases member
  · refine ⟨fun member => ?_, assigned⟩
    simp only [SignalRing.advanceWatermark, ExtTreeMap.mem_erase] at member
    exact member.1 Std.compare_self

theorem Reserving.withdrawn (reserving : world.Reserving seqId) (sound : Sound inner.config origin world)
    (stepped : RingWorld.step inner signal world action = some next)
    (failed : action = .dropReservation seqId ∨ ∃ reason now, action = .finish seqId (.error reason) now) :
    next.Withdrawn seqId := by
  refine ⟨?_, reserving.undelivered.step stepped (reserving.unqueued sound)⟩
  have assigned : ∀ {reservation others}, world.takeReservation seqId = some (reservation, others) →
      reservation.seqId = seqId ∧ reservation.seqId < world.state.ring.nextSeq := by
    intro reservation others found
    obtain ⟨_, _, ⟨held, member, rfl⟩, _⟩ := takeHeld_eq_some found
    exact ⟨takeReservation_seqId found, sound.reservation_lt member⟩
  rcases failed with rfl | ⟨reason, now, rfl⟩
  · obtain ⟨taken, found, rfl⟩ := Option.map_eq_some_iff.mp stepped
    obtain ⟨rfl, below⟩ := assigned found
    exact rollbackSlot_withdraws below
  · obtain ⟨taken, found, rfl⟩ := Option.map_eq_some_iff.mp stepped
    obtain ⟨rfl, below⟩ := assigned found
    exact rollbackSlot_withdraws below

theorem reserve_reserving {frameBytesLen batchRows rows : Nat} {schema : RecordBatch.Schema Batch} {now : Instant}
    (sound : Sound inner.config origin world)
    (stepped : RingWorld.step inner signal world (.reserve frameBytesLen batchRows rows schema now) = some next)
    (admitted : (reserveOrEnqueueSlot inner.config world.state frameBytesLen batchRows none now).2.1 =
      .reserved seqId) :
    next.Reserving seqId ∧ seqId = world.state.ring.nextSeq ∧ next.state.ring.nextSeq = seqId + 1 := by
  have numbers := reserve_nextSeq stepped
  simp only [admitted] at numbers
  obtain ⟨same, raised⟩ | ⟨refused, _⟩ := numbers
  · cases same
    refine ⟨⟨?_, ?_⟩, rfl, raised⟩
    · obtain ⟨_, rfl⟩ := step_reserve stepped
      simp only [admitBatch, admitted]
      exact ⟨_, List.mem_append_right _ List.mem_cons_self, rfl⟩
    · refine (sound.undelivered_of_le le_rfl).step stepped fun item member same => ?_
      have below := sound.holds_lt (Or.inl ⟨item, member, rfl, rfl⟩)
      omega
  · exact absurd rfl (refused seqId)

theorem enqueue_nextSeq {batch : Batch} {now : Instant}
    (stepped : RingWorld.step inner signal world (.enqueue batch now) = some next) :
    let admitted := (reserveOrEnqueueSlot inner.config world.state (RecordBatch.arrayMemorySize batch)
      (RecordBatch.numRows batch) (some batch) now).2.1
    (admitted = .enqueued ∧ next.state.ring.nextSeq = world.state.ring.nextSeq + 1) ∨
      admitted ≠ .enqueued ∧ next.state.ring.nextSeq = world.state.ring.nextSeq := by
  obtain ⟨numbered, rfl⟩ := step_enqueue stepped
  have room := (makeRoom_steady world.state inner.config (RecordBatch.arrayMemorySize batch)).nextSeq
  simp only [admitBatch]
  unfold reserveOrEnqueueSlot
  split
  · exact Or.inr ⟨by simp, rfl⟩
  · split
    · exact Or.inr ⟨by simp, rfl⟩
    · simp only
      split
      · refine Or.inl ⟨rfl, ?_⟩
        simp only [assignSlot, room, saturatingSucc_of_lt numbered]
      · exact Or.inr ⟨by simp, room⟩

end OtelDatalake.Buffer.RingWorld
