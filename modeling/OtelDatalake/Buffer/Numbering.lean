import OtelDatalake.Buffer.Holding

open Std OtelDatalake.Foundation

namespace OtelDatalake.Buffer

variable {Batch : Type} [RecordBatch Batch]

section Kept

variable (ring : SignalRing Batch) (state : SignalRingState Batch)

theorem requeueEntries_steady (nextAttempt : Nat) (readyAt : Option Instant)
    (entries : List (BatchPayload Batch × LeasedBatchMeta)) (progress : SignalRing Batch × Bool) :
    progress.1.Steady (entries.foldl (SignalRing.requeueEntry nextAttempt readyAt) progress).1 := by
  induction entries generalizing progress with
  | nil => exact .refl _
  | cons entry rest ih =>
    rw [List.foldl_cons]
    refine SignalRing.Steady.trans ?_ (ih _)
    simp only [SignalRing.requeueEntry]
    split <;> exact ⟨rfl, rfl⟩

theorem requeueLease_steady (payloads : List (BatchPayload Batch)) (leased : List LeasedBatchMeta)
    (nextAttempt : Nat) (readyAt : Option Instant) :
    state.ring.Steady (requeueLease state payloads leased nextAttempt readyAt).ring := by
  have kept := requeueEntries_steady nextAttempt readyAt (payloads.zip leased).reverse (state.ring, false)
  simp only [requeueLease, SignalRing.requeueAtHead]
  split
  · exact ⟨kept.nextSeq, kept.closed⟩
  · exact kept

theorem ackLease_steady (leased : List LeasedBatchMeta) (reset : Bool) :
    state.ring.Steady (ackLease state leased reset).1.ring := by
  simp only [ackLease, SignalRing.ackEntries]
  split <;> exact ⟨rfl, rfl⟩

theorem rollbackSlot_steady (reservation : AppendReservation Batch) :
    state.ring.Steady (reservation.rollbackSlot state).ring := by
  simp only [AppendReservation.rollbackSlot]
  split <;> exact ⟨rfl, rfl⟩

theorem finish_steady (reservation : AppendReservation Batch) (result : Except String WrittenFrame)
    (now : Instant) : state.ring.Steady (reservation.finish state result now).ring := by
  cases result with
  | ok written =>
    simp only [AppendReservation.finish]
    split <;> exact ⟨rfl, rfl⟩
  | error reason =>
    have rolled := rollbackSlot_steady state reservation
    exact ⟨rolled.nextSeq, rolled.closed⟩

theorem tryPopSignalLease_steady (inner : BufferInner) (signal : SignalKind) (now : Instant) :
    state.ring.Steady (tryPopSignalLease inner signal state now).1.ring := by
  rcases tryPopSignalLease_cases inner signal state now with
    ⟨wait, drained, idle⟩ | ⟨front, taken, rest, _, popped⟩
  · rw [idle]
    exact .refl _
  · rw [popped]
    exact ⟨rfl, rfl⟩

theorem ack_steady (lease : Lease Batch) (persisted : Except String Unit) :
    state.ring.Steady (lease.ack state persisted).ring := by
  have acked := ackLease_steady state lease.leased true
  cases persisted <;> exact ⟨acked.nextSeq, acked.closed⟩

theorem dispose_steady (lease : Lease Batch) (persisted : Except String Unit) (disposition : Lease.Disposition) :
    state.ring.Steady (lease.dispose state persisted disposition).ring := by
  cases disposition with
  | requeue leased nextAttempt readyAt => exact requeueLease_steady ..
  | fail leased reason =>
    have requeued := requeueLease_steady state lease.payloads leased 0 none
    exact ⟨requeued.nextSeq, requeued.closed⟩
  | quarantine =>
    have acked := ackLease_steady { state with deadLetterDrops := state.deadLetterDrops + lease.numRows }
      lease.leased false
    cases persisted <;> exact ⟨acked.nextSeq, acked.closed⟩

theorem reserveOrEnqueueSlot_closed (config : BufferConfig) (batchBytes batchRows : Nat)
    (inMemoryBatch : Option Batch) (now : Instant) :
    (reserveOrEnqueueSlot config state batchBytes batchRows inMemoryBatch now).1.ring.closed =
      state.ring.closed := by
  have room := (makeRoom_steady state config batchBytes).closed
  unfold reserveOrEnqueueSlot
  split
  · rfl
  · split
    · rfl
    · simp only
      split
      · cases inMemoryBatch <;> exact room
      · exact room

theorem reserveOrEnqueueSlot_refused (config : BufferConfig) (batchBytes batchRows : Nat)
    (inMemoryBatch : Option Batch) (now : Instant) (closed : state.ring.closed = true) :
    (reserveOrEnqueueSlot config state batchBytes batchRows inMemoryBatch now).1 = state := by
  unfold reserveOrEnqueueSlot
  split
  · rfl
  · rw [closed, Bool.or_true, if_pos rfl]

theorem reserveOrEnqueueSlot_nextSeq (config : BufferConfig) (batchBytes batchRows : Nat) (now : Instant) :
    let admitted := reserveOrEnqueueSlot config state batchBytes batchRows none now
    (admitted.2.1 = .reserved state.ring.nextSeq ∧
        admitted.1.ring.nextSeq = saturatingSucc state.ring.nextSeq) ∨
      (∀ seqId, admitted.2.1 ≠ .reserved seqId) ∧ admitted.1.ring.nextSeq = state.ring.nextSeq := by
  have room := (makeRoom_steady state config batchBytes).nextSeq
  unfold reserveOrEnqueueSlot
  split
  · exact Or.inr ⟨by simp, rfl⟩
  · split
    · exact Or.inr ⟨by simp, rfl⟩
    · simp only
      split
      · refine Or.inl ⟨?_, ?_⟩
        · simp only [assignSlot, room]
        · simp only [assignSlot, room]
      · exact Or.inr ⟨by simp, room⟩

end Kept

namespace RingWorld

def admits : RingAction Batch → Bool
  | .enqueue .. | .reserve .. => true
  | _ => false

variable {inner : BufferInner} {signal : SignalKind} {world next : RingWorld Batch} {action : RingAction Batch}

theorem step_steady (stepped : step inner signal world action = some next) (silent : admits action = false)
    (unclosed : action ≠ .closeSenders) : world.state.ring.Steady next.state.ring := by
  cases action with
  | enqueue batch now => cases silent
  | reserve frameBytesLen batchRows rows schema now => cases silent
  | finish seqId result now =>
    obtain ⟨taken, _, rfl⟩ := Option.map_eq_some_iff.mp stepped
    exact finish_steady ..
  | dropReservation seqId =>
    obtain ⟨taken, _, rfl⟩ := Option.map_eq_some_iff.mp stepped
    exact rollbackSlot_steady ..
  | pop now =>
    cases stepped
    exact tryPopSignalLease_steady ..
  | quarantineRows firstSeq rows =>
    obtain ⟨taken, _, rfl⟩ := Option.map_eq_some_iff.mp stepped
    exact .refl _
  | ack firstSeq persisted =>
    obtain ⟨taken, _, rfl⟩ := Option.map_eq_some_iff.mp stepped
    exact ack_steady ..
  | nack firstSeq failure now nowMs deadLetter persisted =>
    obtain ⟨taken, _, rfl⟩ := Option.map_eq_some_iff.mp stepped
    have disposed := dispose_steady (Lease.markFailure world.state failure nowMs) taken.1 persisted
      (taken.1.disposition inner world.state failure now nowMs deadLetter)
    cases failure <;> exact disposed
  | dropLease firstSeq now nowMs =>
    obtain ⟨taken, _, rfl⟩ := Option.map_eq_some_iff.mp stepped
    exact requeueLease_steady (Lease.markTransient world.state nowMs) ..
  | closeSenders => exact absurd rfl unclosed
  | _ =>
    cases stepped
    exact ⟨rfl, rfl⟩

theorem step_nextSeq (stepped : step inner signal world action = some next) (silent : admits action = false) :
    next.state.ring.nextSeq = world.state.ring.nextSeq := by
  cases action with
  | closeSenders =>
    cases stepped
    rfl
  | _ => exact (step_steady stepped silent (by simp)).nextSeq

theorem step_closed (stepped : step inner signal world action = some next) (unclosed : action ≠ .closeSenders) :
    next.state.ring.closed = world.state.ring.closed := by
  cases action with
  | enqueue batch now =>
    obtain ⟨_, rfl⟩ := step_enqueue stepped
    exact reserveOrEnqueueSlot_closed ..
  | reserve frameBytesLen batchRows rows schema now =>
    obtain ⟨_, rfl⟩ := step_reserve stepped
    exact reserveOrEnqueueSlot_closed ..
  | closeSenders => exact absurd rfl unclosed
  | _ => exact (step_steady stepped rfl (by simp)).closed

theorem reserve_nextSeq {frameBytesLen batchRows rows : Nat} {schema : RecordBatch.Schema Batch} {now : Instant}
    (stepped : step inner signal world (.reserve frameBytesLen batchRows rows schema now) = some next) :
    let admitted := (reserveOrEnqueueSlot inner.config world.state frameBytesLen batchRows none now).2.1
    (admitted = .reserved world.state.ring.nextSeq ∧ next.state.ring.nextSeq = world.state.ring.nextSeq + 1) ∨
      (∀ seqId, admitted ≠ .reserved seqId) ∧ next.state.ring.nextSeq = world.state.ring.nextSeq := by
  obtain ⟨numbered, rfl⟩ := step_reserve stepped
  rw [← saturatingSucc_of_lt numbered]
  exact reserveOrEnqueueSlot_nextSeq ..

theorem step_reservations (stepped : step inner signal world action = some next)
    {held : Held (AppendReservation Batch)} (member : held ∈ next.reservations) :
    (∃ old ∈ world.reservations, old.value = held.value) ∨
      ∃ frameBytesLen batchRows rows schema now, action = .reserve frameBytesLen batchRows rows schema now ∧
        held.value.seqId = world.state.ring.nextSeq ∧ held.value.frameBytesLen = frameBytesLen := by
  have stays : held ∈ world.reservations → ∃ old ∈ world.reservations, old.value = held.value := fun old =>
    ⟨held, old, rfl⟩
  cases action with
  | enqueue batch now =>
    obtain ⟨_, rfl⟩ := step_enqueue stepped
    simp only [admitBatch] at member
    split at member
    · exact Or.inl (stays (by simpa using member))
    · exact Or.inl (stays member)
  | reserve frameBytesLen batchRows rows schema now =>
    have numbers := reserve_nextSeq stepped
    obtain ⟨_, rfl⟩ := step_reserve stepped
    simp only [admitBatch] at member
    split at member
    · rename_i seqId admitted
      rcases List.mem_append.mp member with old | new
      · exact Or.inl (stays old)
      · rcases numbers with ⟨numbered, _⟩ | ⟨refused, _⟩
        · have same : seqId = world.state.ring.nextSeq := by
            rw [admitted] at numbered
            exact Admission.reserved.inj numbered
          simp only [Option.toList_some, List.map_cons, List.map_nil, List.mem_singleton] at new
          subst new
          exact Or.inr ⟨frameBytesLen, batchRows, rows, schema, now, rfl, same, rfl⟩
        · exact absurd admitted (refused seqId)
    · exact Or.inl (stays member)
  | finish seqId result now =>
    obtain ⟨taken, found, rfl⟩ := Option.map_eq_some_iff.mp stepped
    exact Or.inl (stays ((takeHeld_eq_some found).1.subset member))
  | dropReservation seqId =>
    obtain ⟨taken, found, rfl⟩ := Option.map_eq_some_iff.mp stepped
    exact Or.inl (stays ((takeHeld_eq_some found).1.subset member))
  | quarantineRows firstSeq rows =>
    obtain ⟨_, _, rfl⟩ := Option.map_eq_some_iff.mp stepped
    exact Or.inl (stays member)
  | ack firstSeq persisted =>
    obtain ⟨_, _, rfl⟩ := Option.map_eq_some_iff.mp stepped
    exact Or.inl (stays member)
  | nack firstSeq failure now nowMs deadLetter persisted =>
    obtain ⟨_, _, rfl⟩ := Option.map_eq_some_iff.mp stepped
    exact Or.inl (stays member)
  | dropLease firstSeq now nowMs =>
    obtain ⟨_, _, rfl⟩ := Option.map_eq_some_iff.mp stepped
    exact Or.inl (stays member)
  | discard =>
    cases stepped
    obtain ⟨old, listed, rfl⟩ := List.mem_map.mp member
    exact Or.inl ⟨old, listed, rfl⟩
  | _ =>
    cases stepped
    exact Or.inl (stays member)

end RingWorld

end OtelDatalake.Buffer
