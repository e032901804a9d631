import OtelDatalake.Buffer.Balance

open Std OtelDatalake.Foundation

namespace OtelDatalake.Buffer

variable {Batch : Type} [RecordBatch Batch]

/-- What the operations keep that neither admit a batch nor close the ring. -/
structure SignalRing.Steady (before after : SignalRing Batch) : Prop where
  nextSeq : after.nextSeq = before.nextSeq
  closed : after.closed = before.closed

namespace SignalRing.Steady

theorem refl (ring : SignalRing Batch) : ring.Steady ring := ⟨rfl, rfl⟩

theorem trans {first second third : SignalRing Batch} (left : first.Steady second) (right : second.Steady third) :
    first.Steady third :=
  ⟨right.nextSeq.trans left.nextSeq, right.closed.trans left.closed⟩

end SignalRing.Steady

section Kept

variable (ring : SignalRing Batch) (state : SignalRingState Batch)

theorem advanceWatermark_steady (committedSeq : Nat) : ring.Steady (ring.advanceWatermark committedSeq).1 := ⟨rfl, rfl⟩

theorem releaseEvicted_steady (evicted : QueuedBatch Batch) : ring.Steady (ring.releaseEvicted evicted) := by
  simp only [SignalRing.releaseEvicted]
  split <;> exact ⟨rfl, rfl⟩

theorem evictOldest_steady (batchBytes budget fuel : Nat) :
    state.ring.Steady (evictOldest batchBytes budget fuel state).1.ring := by
  induction fuel generalizing state with
  | zero => exact .refl _
  | succ fuel ih =>
    simp only [evictOldest]
    repeat' split
    · exact .refl _
    · exact .refl _
    · exact .refl _
    · rename_i front rest _ _
      refine SignalRing.Steady.trans ?_ (ih _)
      have evicted := (releaseEvicted_steady { state.ring with queue := rest } front).trans
        (advanceWatermark_steady _ state.committedSeq)
      exact ⟨evicted.nextSeq, evicted.closed⟩

theorem makeRoom_steady (config : BufferConfig) (batchBytes : Nat) :
    state.ring.Steady (makeRoom config state batchBytes).1.ring := by
  simp only [makeRoom]
  split
  · exact evictOldest_steady ..
  · exact .refl _

end Kept

theorem zip_reverse_perm {α β : Type} {payloads : List α} {items : List β} (paired : payloads.length = items.length)
    (leased : List β) : (items ++ leased).Perm ((payloads.zip items).reverse.map Prod.snd ++ leased) := by
  rw [List.map_reverse, List.map_snd_zip paired.ge]
  exact List.Perm.append_right _ items.reverse_perm.symm

/-- What an operation may do to the slots: remove those of `departed` and add only freshly assigned sequence
    numbers. -/
structure SignalRing.Evolves (before after : SignalRing Batch) (departed : List Nat) : Prop where
  nextSeq : before.nextSeq ≤ after.nextSeq
  slots : ∀ seq ∈ after.slots, seq ∈ before.slots ∨ before.nextSeq ≤ seq
  kept : ∀ seq < after.nextSeq, seq ∉ after.slots →
    seq ∈ departed ∨ (seq < before.nextSeq ∧ seq ∉ before.slots)

namespace SignalRing.Evolves

variable {before after : SignalRing Batch} {departed : List Nat}

theorem trans {last : SignalRing Batch} {later : List Nat} (left : before.Evolves after departed)
    (right : after.Evolves last later) : before.Evolves last (departed ++ later) := by
  refine ⟨left.nextSeq.trans right.nextSeq, fun seq member => ?_, fun seq below absent => ?_⟩
  · rcases right.slots seq member with held | fresh
    · exact left.slots seq held
    · exact Or.inr (left.nextSeq.trans fresh)
  · rcases right.kept seq below absent with gone | ⟨earlier, missing⟩
    · exact Or.inl (List.mem_append_right _ gone)
    · rcases left.kept seq earlier missing with gone | held
      · exact Or.inl (List.mem_append_left _ gone)
      · exact Or.inr held

theorem remove (nextSeq : after.nextSeq = before.nextSeq)
    (slots : ∀ seq, seq ∈ after.slots ↔ seq ∉ departed ∧ seq ∈ before.slots) :
    before.Evolves after departed := by
  refine ⟨nextSeq.ge, fun seq member => Or.inl ((slots seq).mp member).2, fun seq below absent => ?_⟩
  by_cases gone : seq ∈ departed
  · exact Or.inl gone
  · exact Or.inr ⟨nextSeq ▸ below, fun held => absent ((slots seq).mpr ⟨gone, held⟩)⟩

theorem keep (nextSeq : after.nextSeq = before.nextSeq)
    (slots : ∀ seq, seq ∈ after.slots ↔ seq ∈ before.slots) : before.Evolves after [] :=
  remove nextSeq fun seq => by simp [slots seq]

theorem refl (ring : SignalRing Batch) : ring.Evolves ring [] := keep rfl fun _ => Iff.rfl

theorem assign {state : LeaseSlotState} (nextSeq : after.nextSeq = before.nextSeq + 1)
    (slots : after.slots = before.slots.insert before.nextSeq state) : before.Evolves after [] := by
  refine ⟨by omega, fun seq member => ?_, fun seq below absent => Or.inr ?_⟩
  · rw [slots, ExtTreeMap.mem_insert, Std.compare_eq_iff_eq] at member
    rcases member with same | held
    · exact Or.inr same.le
    · exact Or.inl held
  · rw [slots, ExtTreeMap.mem_insert, Std.compare_eq_iff_eq, not_or] at absent
    exact ⟨by omega, absent.2⟩

theorem advance (evolves : before.Evolves after departed) (committedSeq : Nat) :
    before.Evolves (after.advanceWatermark committedSeq).1 departed :=
  ⟨evolves.nextSeq, evolves.slots, evolves.kept⟩

theorem gone (evolves : before.Evolves after departed) {seq : Nat}
    (absent : seq ∉ before.slots ∧ seq < before.nextSeq) : seq ∉ after.slots ∧ seq < after.nextSeq := by
  refine ⟨fun member => ?_, absent.2.trans_le evolves.nextSeq⟩
  rcases evolves.slots seq member with held | fresh
  · exact absent.1 held
  · omega

theorem candidate_le (evolves : before.Evolves after departed) (boundedBefore : before.Bounded)
    (boundedAfter : after.Bounded) : before.watermarkCandidate ≤ after.watermarkCandidate :=
  watermarkCandidate_mono boundedBefore boundedAfter evolves.nextSeq evolves.slots

end SignalRing.Evolves

/-- The ring is balanced and `committed_seq` is where its slots put the watermark. -/
structure Accounted (state : SignalRingState Batch) (reserved : List (AppendReservation Batch))
    (leased : List LeasedBatchMeta) : Prop where
  balanced : state.ring.Balanced reserved leased
  committed : state.committedSeq = state.ring.watermarkCandidate

def SignalRingState.advanced (state : SignalRingState Batch) (ring : SignalRing Batch) :
    SignalRingState Batch :=
  { state with
    ring := (ring.advanceWatermark state.committedSeq).1
    committedSeq := (ring.advanceWatermark state.committedSeq).2 }

namespace Accounted

variable {state : SignalRingState Batch} {reserved remaining : List (AppendReservation Batch)}
  {leased kept : List LeasedBatchMeta} {departed : List Nat}

theorem perm (accounted : Accounted state reserved leased) (reservations : reserved.Perm remaining)
    (items : leased.Perm kept) : Accounted state remaining kept :=
  ⟨accounted.balanced.perm reservations items, accounted.committed⟩

theorem flags {other : SignalRingState Batch} {leases : Nat} {closed dropped : Bool}
    {fatal : Option String} (accounted : Accounted state reserved leased)
    (ring : other.ring = { state.ring with
      inflightLeases := leases, closed := closed, receiverDropped := dropped, fatalError := fatal })
    (committed : other.committedSeq = state.committedSeq) : Accounted other reserved leased := by
  obtain ⟨balanced, watermark⟩ := accounted
  constructor
  · rw [ring]
    exact
      { toBounded := ⟨balanced.nextPositive, balanced.positive, balanced.belowNext, balanced.numbered⟩
        ascending := balanced.ascending
        indexed := balanced.indexed
        bytes := balanced.bytes
        rows := balanced.rows
        enqueuedAt := balanced.enqueuedAt
        unreclaimed := balanced.unreclaimed
        evictedGone := balanced.evictedGone }
  · rw [committed, watermark, ring]
    rfl

theorem advance {ring : SignalRing Batch} (accounted : Accounted state reserved leased)
    (balanced : ring.Balanced remaining kept) (evolves : state.ring.Evolves ring departed) :
    Accounted (state.advanced ring) remaining kept where
  balanced := balanced.advance _
  committed := by
    have raised := evolves.candidate_le accounted.balanced.toBounded balanced.toBounded
    simp only [SignalRingState.advanced, SignalRing.advanceWatermark_committed,
      SignalRing.advanceWatermark_candidate, accounted.committed]
    exact max_eq_right raised

theorem keep {ring : SignalRing Batch} (accounted : Accounted state reserved leased)
    (balanced : ring.Balanced remaining kept) (nextSeq : ring.nextSeq = state.ring.nextSeq)
    (slots : ∀ seq, seq ∈ ring.slots ↔ seq ∈ state.ring.slots) :
    Accounted { state with ring := ring } remaining kept where
  balanced := balanced
  committed := by
    have forward : state.ring.Evolves ring [] := .keep nextSeq slots
    have backward : ring.Evolves state.ring [] := .keep nextSeq.symm fun seq => (slots seq).symm
    rw [accounted.committed]
    exact Nat.le_antisymm (forward.candidate_le accounted.balanced.toBounded balanced.toBounded)
      (backward.candidate_le balanced.toBounded accounted.balanced.toBounded)

theorem assign {ring : SignalRing Batch} {slot : LeaseSlotState}
    (accounted : Accounted state reserved leased) (balanced : ring.Balanced remaining leased)
    (nextSeq : ring.nextSeq = state.ring.nextSeq + 1)
    (slots : ring.slots = state.ring.slots.insert state.ring.nextSeq slot) :
    Accounted { state with ring := ring } remaining leased where
  balanced := balanced
  committed := by
    have evolves : state.ring.Evolves ring [] := .assign nextSeq slots
    have raised := evolves.candidate_le accounted.balanced.toBounded balanced.toBounded
    obtain ⟨_, above⟩ := balanced.watermarkCandidate_lt
    have first := above state.ring.nextSeq (by rw [slots]; simp)
    have kept : ring.watermarkCandidate ≤ state.ring.watermarkCandidate := by
      refine (SignalRing.le_watermarkCandidate accounted.balanced.toBounded _).mpr ⟨first, ?_⟩
      intro seq member
      refine above seq ?_
      rw [slots, ExtTreeMap.mem_insert]
      exact Or.inr member
    rw [accounted.committed]
    exact Nat.le_antisymm raised kept

theorem evict {front : QueuedBatch Batch} {rest : List (QueuedBatch Batch)}
    (accounted : Accounted state reserved leased) (queue : state.ring.queue = front :: rest) :
    Accounted (state.advanced ({ state.ring with queue := rest }.releaseEvicted front)) reserved leased ∧
      state.ring.Evolves (state.advanced ({ state.ring with queue := rest }.releaseEvicted front)).ring
        [front.seqId] := by
  have nextSeq : ({ state.ring with queue := rest }.releaseEvicted front).nextSeq = state.ring.nextSeq := by
    unfold SignalRing.releaseEvicted
    split <;> rfl
  have slots : ({ state.ring with queue := rest }.releaseEvicted front).slots =
      state.ring.slots.erase front.seqId := by
    unfold SignalRing.releaseEvicted
    split <;> rfl
  have evolves : state.ring.Evolves ({ state.ring with queue := rest }.releaseEvicted front)
      [front.seqId] := by
    refine .remove nextSeq fun seq => ?_
    rw [slots, ExtTreeMap.mem_erase, ne_eq, Std.compare_eq_iff_eq, List.mem_singleton, eq_comm]
  exact ⟨accounted.advance (accounted.balanced.evict queue) evolves, evolves.advance _⟩

end Accounted

/-- One ring operation: the accounts it leaves, what it does to the slots and how many leases it leaves. -/
structure Transition (before after : SignalRingState Batch) (reserved : List (AppendReservation Batch))
    (leased : List LeasedBatchMeta) (departed : List Nat) (leases : Nat) : Prop where
  accounted : Accounted after reserved leased
  evolves : before.ring.Evolves after.ring departed
  inflightLeases : after.ring.inflightLeases = leases

namespace Transition

variable {state : SignalRingState Batch} {reserved : List (AppendReservation Batch)}
  {leased : List LeasedBatchMeta}

theorem stay (accounted : Accounted state reserved leased) :
    Transition state state reserved leased [] state.ring.inflightLeases :=
  ⟨accounted, .refl _, rfl⟩

theorem flags {other : SignalRingState Batch} {closed dropped : Bool} {fatal : Option String}
    (accounted : Accounted state reserved leased)
    (ring : other.ring = { state.ring with
      closed := closed, receiverDropped := dropped, fatalError := fatal })
    (committed : other.committedSeq = state.committedSeq) :
    Transition state other reserved leased [] state.ring.inflightLeases where
  accounted := accounted.flags ring committed
  evolves := .keep (by rw [ring]) (by rw [ring]; exact fun _ => Iff.rfl)
  inflightLeases := by rw [ring]

theorem same {other : SignalRingState Batch} (accounted : Accounted state reserved leased)
    (ring : other.ring = state.ring) (committed : other.committedSeq = state.committedSeq) :
    Transition state other reserved leased [] state.ring.inflightLeases :=
  flags accounted ring committed

theorem thenFlags {after other : SignalRingState Batch} {departed : List Nat} {leases : Nat}
    {closed dropped : Bool} {fatal : Option String}
    (transition : Transition state after reserved leased departed leases)
    (ring : other.ring = { after.ring with
      closed := closed, receiverDropped := dropped, fatalError := fatal })
    (committed : other.committedSeq = after.committedSeq) :
    Transition state other reserved leased departed leases := by
  have changed := flags transition.accounted ring committed
  refine ⟨changed.accounted, ?_, changed.inflightLeases.trans transition.inflightLeases⟩
  simpa using transition.evolves.trans changed.evolves

theorem evictOldest (accounted : Accounted state reserved leased) (batchBytes budget fuel : Nat) :
    Transition state (Buffer.evictOldest batchBytes budget fuel state).1 reserved leased
      ((Buffer.evictOldest batchBytes budget fuel state).2.map (·.seqId)) state.ring.inflightLeases := by
  induction fuel generalizing state with
  | zero => exact stay accounted
  | succ fuel ih =>
    unfold Buffer.evictOldest
    split
    · exact stay accounted
    · split
      · exact stay accounted
      · rename_i front rest queue
        split
        · exact stay accounted
        · obtain ⟨evicted, evolves⟩ := accounted.evict queue
          have swept := ih evicted
          refine ⟨swept.accounted, evolves.trans swept.evolves, swept.inflightLeases.trans ?_⟩
          simp only [SignalRingState.advanced, SignalRing.advanceWatermark, SignalRing.releaseEvicted]
          split <;> rfl

/-- The reservations after an admission; `reservation` builds the one of a reserved slot. -/
def admitReservation (reserved : List (AppendReservation Batch))
    (reservation : Nat → Option (AppendReservation Batch)) : Admission → List (AppendReservation Batch)
  | .reserved seqId => (reservation seqId).toList ++ reserved
  | _ => reserved

theorem makeRoom (accounted : Accounted state reserved leased) (config : BufferConfig) (batchBytes : Nat) :
    Transition state (Buffer.makeRoom config state batchBytes).1 reserved leased
      ((Buffer.makeRoom config state batchBytes).2.map (·.seqId)) state.ring.inflightLeases := by
  unfold Buffer.makeRoom
  split
  · exact (evictOldest accounted _ _ _).thenFlags rfl rfl
  · exact (stay accounted).thenFlags rfl rfl

theorem assignSlot {batchBytes batchRows : Nat} {inMemoryBatch : Option Batch}
    {reservation : Nat → Option (AppendReservation Batch)} (accounted : Accounted state reserved leased)
    (numbered : state.ring.nextSeq < u64Max) (now : Instant)
    (reserves : inMemoryBatch = none → ∀ seqId, ∃ built, reservation seqId = some built ∧
      built.seqId = seqId ∧ built.frameBytesLen = batchBytes ∧ built.batchRows = batchRows) :
    let assigned := Buffer.assignSlot state.ring batchBytes batchRows inMemoryBatch now
    Transition state { state with ring := assigned.1 } (admitReservation reserved reservation assigned.2)
      leased [] state.ring.inflightLeases := by
  intro assigned
  have succ := saturatingSucc_of_lt numbered
  cases inMemoryBatch with
  | some batch =>
    have balanced := accounted.balanced.enqueue
      (inMemoryItem state.ring.nextSeq batchBytes batchRows batch now) rfl numbered
    rw [← succ] at balanced
    exact ⟨accounted.assign balanced succ rfl, .assign succ rfl, rfl⟩
  | none =>
    obtain ⟨built, found, named, sized, counted⟩ := reserves rfl state.ring.nextSeq
    have balanced := accounted.balanced.reserve named numbered
    rw [sized, counted, ← succ] at balanced
    have listed : admitReservation reserved reservation assigned.2 = built :: reserved := by
      simp [assigned, Buffer.assignSlot, admitReservation, found]
    rw [listed]
    exact ⟨accounted.assign balanced succ rfl, .assign succ rfl, rfl⟩

theorem admitBatch {batchBytes batchRows : Nat} {inMemoryBatch : Option Batch}
    {reservation : Nat → Option (AppendReservation Batch)} (accounted : Accounted state reserved leased)
    (numbered : state.ring.nextSeq < u64Max) (config : BufferConfig) (now : Instant)
    (reserves : inMemoryBatch = none → ∀ seqId, ∃ built, reservation seqId = some built ∧
      built.seqId = seqId ∧ built.frameBytesLen = batchBytes ∧ built.batchRows = batchRows) :
    let admitted := reserveOrEnqueueSlot config state batchBytes batchRows inMemoryBatch now
    Transition state admitted.1 (admitReservation reserved reservation admitted.2.1) leased
      (admitted.2.2.map (·.seqId)) state.ring.inflightLeases := by
  intro admitted
  simp only [admitted, reserveOrEnqueueSlot]
  split
  · exact stay accounted
  · split
    · exact stay accounted
    · have swept := makeRoom accounted config batchBytes
      split
      · have room := (makeRoom_steady state config batchBytes).nextSeq
        have assigned := assignSlot swept.accounted (room ▸ numbered) now reserves
        refine ⟨assigned.accounted, ?_, assigned.inflightLeases.trans swept.inflightLeases⟩
        simpa using swept.evolves.trans assigned.evolves
      · exact swept

theorem finish {reservation : AppendReservation Batch}
    (accounted : Accounted state (reservation :: reserved) leased) (written : WrittenFrame) (now : Instant) :
    Transition state (reservation.finish state (.ok written) now) reserved leased []
      state.ring.inflightLeases := by
  have owned := accounted.balanced.reserved_mem (List.mem_cons_self)
  have held : reservation.seqId ∈ state.ring.slots := by
    rw [ExtTreeMap.mem_iff_isSome_getElem?, owned]
    rfl
  have same := mem_insert_held held LeaseSlotState.queued
  simp only [AppendReservation.finish, owned, if_true]
  exact ⟨accounted.keep (accounted.balanced.finish written now) rfl same, .keep rfl same, rfl⟩

theorem rollbackSlot {reservation : AppendReservation Batch}
    (accounted : Accounted state (reservation :: reserved) leased) :
    Transition state (reservation.rollbackSlot state) reserved leased [reservation.seqId]
      state.ring.inflightLeases := by
  have owned := accounted.balanced.reserved_mem (List.mem_cons_self)
  have evolves : state.ring.Evolves { state.ring with
      slots := state.ring.slots.erase reservation.seqId
      bytesInFlight := state.ring.bytesInFlight - reservation.frameBytesLen
      rowsInFlight := state.ring.rowsInFlight - reservation.batchRows } [reservation.seqId] := by
    refine .remove rfl fun seq => ?_
    rw [ExtTreeMap.mem_erase, ne_eq, Std.compare_eq_iff_eq, List.mem_singleton, eq_comm]
  simp only [AppendReservation.rollbackSlot, owned]
  exact ⟨accounted.advance accounted.balanced.rollback evolves, evolves.advance _, rfl⟩

theorem finishError {reservation : AppendReservation Batch}
    (accounted : Accounted state (reservation :: reserved) leased) (reason : String) (now : Instant) :
    Transition state (reservation.finish state (.error reason) now) reserved leased [reservation.seqId]
      state.ring.inflightLeases := by
  have rolled := rollbackSlot accounted
  exact rolled.thenFlags rfl rfl

theorem lease {items rest : List (QueuedBatch Batch)} (accounted : Accounted state reserved leased)
    (queue : state.ring.queue = items ++ rest) :
    Transition state { state with ring := state.ring.leaseItems items rest } reserved
      (items.map (·.leasedMeta) ++ leased) [] (state.ring.inflightLeases + 1) := by
  have balanced := accounted.balanced.lease queue
  have same := (accounted.balanced.leaseItems_slots queue).2
  exact ⟨accounted.keep balanced rfl same, .keep rfl same, rfl⟩

theorem ackLease {items : List LeasedBatchMeta} (accounted : Accounted state reserved (items ++ leased))
    (nonempty : items ≠ []) (reset : Bool) :
    Transition state (Buffer.ackLease state items reset).1 reserved leased (items.map (·.seqId))
      (state.ring.inflightLeases - 1) := by
  have owned : ∀ item ∈ items, state.ring.slots[item.seqId]? = some .inFlight := fun item member =>
    accounted.balanced.leased_mem (List.mem_append_left _ member)
  have distinct : (items.map (·.seqId)).Nodup := by
    have all := accounted.balanced.leased_nodup
    rw [List.map_append] at all
    exact (List.nodup_append.mp all).1
  have acked := SignalRing.Balanced.ackEntry_owned
    ({ slots := state.ring.slots, inflightEnqueuedAt := state.ring.inflightEnqueuedAt } : SignalRing.AckProgress)
    owned distinct
  have flagged : (items.foldl SignalRing.ackEntry
      { slots := state.ring.slots, inflightEnqueuedAt := state.ring.inflightEnqueuedAt }).anyAcked = true := by
    rw [acked]
    cases items with
    | nil => exact absurd rfl nonempty
    | cons => rfl
  have balanced := accounted.balanced.ack (items.foldl SignalRing.ackEntry
    { slots := state.ring.slots, inflightEnqueuedAt := state.ring.inflightEnqueuedAt })
    (by rw [acked]) (by rw [acked]) (by simp [acked]) (by simp [acked])
  have evolves : state.ring.Evolves (state.ring.releaseAcked (items.foldl SignalRing.ackEntry
      { slots := state.ring.slots, inflightEnqueuedAt := state.ring.inflightEnqueuedAt }))
      (items.map (·.seqId)) := by
    refine .remove rfl fun seq => ?_
    simp only [SignalRing.releaseAcked, acked]
    exact mem_eraseKeys
  have released : Transition state (state.advanced (state.ring.releaseAcked (items.foldl SignalRing.ackEntry
      { slots := state.ring.slots, inflightEnqueuedAt := state.ring.inflightEnqueuedAt }))) reserved leased
      (items.map (·.seqId)) (state.ring.inflightLeases - 1) :=
    ⟨accounted.advance balanced evolves, evolves.advance _, rfl⟩
  have unfolded : state.ring.ackEntries items state.committedSeq = _ := if_pos flagged
  simp only [Buffer.ackLease, unfolded]
  exact released.thenFlags rfl rfl

theorem requeueLease {payloads : List (BatchPayload Batch)} {items : List LeasedBatchMeta}
    (accounted : Accounted state reserved (items ++ leased)) (nonempty : items ≠ [])
    (paired : payloads.length = items.length) (nextAttempt : Nat) (readyAt : Option Instant) :
    Transition state (Buffer.requeueLease state payloads items nextAttempt readyAt) reserved leased []
      (state.ring.inflightLeases - 1) := by
  have reordered := zip_reverse_perm paired leased
  obtain ⟨balanced, flagged, unchanged⟩ :=
    (accounted.balanced.perm (List.Perm.refl _) reordered).requeue nextAttempt readyAt false
  have any : (false || !(payloads.zip items).reverse.isEmpty) = true := by
    have : (payloads.zip items).length ≠ 0 := by
      rw [List.length_zip, paired, Nat.min_self]
      exact fun empty => nonempty (List.eq_nil_of_length_eq_zero empty)
    cases zipped : payloads.zip items with
    | nil => simp [zipped] at this
    | cons => simp
  have kept := accounted.keep balanced unchanged.nextSeq unchanged.slots
  rw [any] at flagged
  have unfolded : Buffer.requeueLease state payloads items nextAttempt readyAt =
      { state with ring :=
        { ((payloads.zip items).reverse.foldl (SignalRing.requeueEntry nextAttempt readyAt)
            (state.ring, false)).1 with
          inflightLeases := ((payloads.zip items).reverse.foldl
            (SignalRing.requeueEntry nextAttempt readyAt) (state.ring, false)).1.inflightLeases - 1 } } := by
    simp only [Buffer.requeueLease, SignalRing.requeueAtHead, flagged, if_true]
  rw [unfolded]
  exact ⟨kept.flags rfl rfl, .keep unchanged.nextSeq unchanged.slots, congrArg (· - 1) unchanged.inflightLeases⟩

theorem requeueLease_queue {payloads : List (BatchPayload Batch)} {items : List LeasedBatchMeta}
    (accounted : Accounted state reserved (items ++ leased)) (paired : payloads.length = items.length)
    (nextAttempt : Nat) (readyAt : Option Instant) (item : QueuedBatch Batch) :
    item ∈ (Buffer.requeueLease state payloads items nextAttempt readyAt).ring.queue ↔
      item ∈ state.ring.queue ∨
        item ∈ (payloads.zip items).map (SignalRing.Balanced.requeued nextAttempt readyAt) := by
  have reordered := zip_reverse_perm paired leased
  have queue := (accounted.balanced.perm (List.Perm.refl _) reordered).requeue_queue nextAttempt readyAt
    false item
  rw [List.map_reverse, List.mem_reverse] at queue
  refine Iff.trans ?_ queue
  simp only [Buffer.requeueLease, SignalRing.requeueAtHead]
  split <;> rfl

theorem discard (accounted : Accounted state reserved leased) :
    Transition state (discardRemaining state) [] [] state.ring.slots.keys 0 := by
  have evolves : state.ring.Evolves state.ring.clear state.ring.slots.keys := by
    refine .remove rfl fun seq => ?_
    rw [ExtTreeMap.mem_keys]
    exact iff_of_false ExtTreeMap.not_mem_empty fun both => both.1 both.2
  have cleared := accounted.advance (SignalRing.Balanced.clear accounted.balanced.toBounded) evolves
  have discarded : Transition state (state.advanced state.ring.clear) [] [] state.ring.slots.keys 0 :=
    ⟨cleared, evolves.advance _, rfl⟩
  exact discarded.thenFlags rfl rfl

theorem advanceWatermark (accounted : Accounted state reserved leased) :
    Transition state (state.advanced state.ring) reserved leased [] state.ring.inflightLeases :=
  ⟨accounted.advance accounted.balanced (.refl _), (SignalRing.Evolves.refl _).advance _, rfl⟩

end Transition

def SignalRing.Gone (ring : SignalRing Batch) (seq : Nat) : Prop := seq ∉ ring.slots ∧ seq < ring.nextSeq

namespace Accounted

variable {state : SignalRingState Batch} {reserved : List (AppendReservation Batch)}
  {leased : List LeasedBatchMeta}

theorem untimed (accounted : Accounted state reserved leased) {seq : Nat} (absent : seq ∉ state.ring.slots) :
    seq ∉ state.ring.inflightEnqueuedAt := by
  intro timed
  obtain ⟨item, member, rfl⟩ := List.mem_map.mp ((accounted.balanced.enqueuedAt seq).mp timed)
  apply absent
  rw [ExtTreeMap.mem_iff_isSome_getElem?, accounted.balanced.leased_mem member]
  rfl

theorem ackLease_gone {items : List LeasedBatchMeta} (accounted : Accounted state reserved leased)
    (gone : ∀ item ∈ items, state.ring.Gone item.seqId) (reset : Bool) :
    Transition state (ackLease state items reset).1 reserved leased [] state.ring.inflightLeases := by
  have absent := SignalRing.Balanced.ackEntry_absent
    ({ slots := state.ring.slots, inflightEnqueuedAt := state.ring.inflightEnqueuedAt } :
      SignalRing.AckProgress)
    fun item member => ⟨(gone item member).1, accounted.untimed (gone item member).1⟩
  refine Transition.same accounted ?_ ?_
  · simp [ackLease, SignalRing.ackEntries, absent]
  · simp [ackLease, SignalRing.ackEntries, absent]

theorem requeueLease_gone {items : List LeasedBatchMeta} (accounted : Accounted state reserved leased)
    (payloads : List (BatchPayload Batch)) (gone : ∀ item ∈ items, state.ring.Gone item.seqId)
    (nextAttempt : Nat) (readyAt : Option Instant) :
    requeueLease state payloads items nextAttempt readyAt = state := by
  have missing : ∀ entry ∈ (payloads.zip items).reverse,
      entry.2.seqId ∉ state.ring.slots ∧ entry.2.seqId ∉ state.ring.inflightEnqueuedAt := by
    intro entry member
    have listed := List.of_mem_zip (List.mem_reverse.mp member)
    have absent := (gone entry.2 listed.2).1
    exact ⟨absent, accounted.untimed absent⟩
  have absent := SignalRing.Balanced.requeue_absent missing nextAttempt readyAt false
  simp [requeueLease, SignalRing.requeueAtHead, absent]

theorem finish_gone {reservation : AppendReservation Batch} (gone : state.ring.Gone reservation.seqId)
    (written : WrittenFrame) (now : Instant) : reservation.finish state (.ok written) now = state := by
  have missing : state.ring.slots[reservation.seqId]? = none := by simpa using gone.1
  simp [AppendReservation.finish, missing]

theorem rollbackSlot_gone {reservation : AppendReservation Batch}
    (gone : state.ring.Gone reservation.seqId) : reservation.rollbackSlot state = state := by
  have missing : state.ring.slots[reservation.seqId]? = none := by simpa using gone.1
  simp [AppendReservation.rollbackSlot, missing]

end Accounted

end OtelDatalake.Buffer
