import OtelDatalake.Foundation.Charges
import OtelDatalake.Buffer.Conservation

open Std OtelDatalake.Foundation

namespace OtelDatalake.Buffer

variable {Batch : Type} [RecordBatch Batch]

namespace SignalRing

/-- The batch sizes that a ring has charged to its budget: queued, reserved, leased, and evicted on disk. -/
def charges (ring : SignalRing Batch) (reserved : List (AppendReservation Batch))
    (leased : List LeasedBatchMeta) : Multiset Nat :=
  (ring.queue.map (·.byteSize) : Multiset Nat) + (reserved.map (·.frameBytesLen) : Multiset Nat) +
    (leased.map (·.byteSize) : Multiset Nat) +
    (ring.evictedUnreclaimedBytes.toList.map Prod.snd : Multiset Nat)

def totalUsed (ring : SignalRing Batch) : Nat := ring.bytesInFlight + ring.unreclaimedDiskBytes

section Charges

variable {ring : SignalRing Batch} {reserved : List (AppendReservation Batch)} {leased : List LeasedBatchMeta}

theorem Balanced.charges_sum (balanced : ring.Balanced reserved leased) :
    (ring.charges reserved leased).sum = ring.totalUsed := by
  have unreclaimed := balanced.unreclaimed
  have bytes := balanced.bytes
  simp only [charges, totalUsed, Multiset.sum_add, Multiset.sum_coe]
  simp only [entrySum] at unreclaimed
  omega

theorem charges_perm {reordered : List (AppendReservation Batch)} {moved : List LeasedBatchMeta}
    (reservations : reserved.Perm reordered) (items : leased.Perm moved) :
    ring.charges reserved leased = ring.charges reordered moved := by
  have first : (reserved.map (·.frameBytesLen) : Multiset Nat) = reordered.map (·.frameBytesLen) :=
    Multiset.coe_eq_coe.mpr (reservations.map _)
  have second : (leased.map (·.byteSize) : Multiset Nat) = moved.map (·.byteSize) :=
    Multiset.coe_eq_coe.mpr (items.map _)
  rw [charges, first, second]
  rfl

theorem toList_erase_snd {map : ExtTreeMap Nat Nat} {key value : Nat} (found : map[key]? = some value) :
    ((map.toList.map Prod.snd : List Nat) : Multiset Nat) = value ::ₘ ((map.erase key).toList.map Prod.snd : List Nat) :=
  Multiset.coe_eq_coe.mpr ((toList_erase found).map Prod.snd)

theorem toList_insert_snd {map : ExtTreeMap Nat Nat} {key : Nat} (fresh : key ∉ map) (value : Nat) :
    (((map.insert key value).toList.map Prod.snd : List Nat) : Multiset Nat) =
      value ::ₘ (map.toList.map Prod.snd : List Nat) :=
  Multiset.coe_eq_coe.mpr ((toList_insert fresh value).map Prod.snd)

theorem releaseReclaimed_le (watermark fuel bytes : Nat) (evicted : ExtTreeMap Nat Nat) :
    (((releaseReclaimed watermark fuel evicted bytes).1.toList.map Prod.snd : List Nat) : Multiset Nat) ≤
      (evicted.toList.map Prod.snd : List Nat) := by
  induction fuel generalizing evicted bytes with
  | zero => exact le_rfl
  | succ fuel ih =>
    simp only [releaseReclaimed]
    split
    · exact le_rfl
    · rename_i seq charge first
      split
      · refine (ih _ _).trans ?_
        rw [toList_erase_snd (firstKeyValue?_eq_some first).1]
        exact Multiset.le_cons_self _ _
      · exact le_rfl

theorem advanceWatermark_charges (committedSeq : Nat) :
    (ring.advanceWatermark committedSeq).1.charges reserved leased ≤ ring.charges reserved leased :=
  Multiset.add_le_add_left (releaseReclaimed_le _ _ _ _)

theorem Balanced.evict_charges {front : QueuedBatch Batch} {rest : List (QueuedBatch Batch)}
    (balanced : ring.Balanced reserved leased) (queue : ring.queue = front :: rest) :
    ({ ring with queue := rest }.releaseEvicted front).charges reserved leased ≤ ring.charges reserved leased := by
  have held : front.seqId ∈ ring.slots := by
    rw [ExtTreeMap.mem_iff_isSome_getElem?, balanced.queued_mem (by simp [queue])]
    rfl
  have fresh : front.seqId ∉ ring.evictedUnreclaimedBytes := fun member =>
    (balanced.evictedGone _ member).1 held
  have before : ring.charges reserved leased = front.byteSize ::ₘ { ring with queue := rest }.charges reserved leased := by
    simp only [charges, queue, List.map_cons, ← Multiset.cons_coe, Multiset.cons_add]
  rw [before]
  cases onDisk : front.payload.isOnDisk
  · simp only [releaseEvicted, onDisk, Bool.false_eq_true, if_false]
    exact Multiset.le_cons_self _ _
  · simp only [releaseEvicted, onDisk, if_true, charges, toList_insert_snd fresh, Multiset.add_cons]
    exact le_rfl

theorem Balanced.finish_charges {reservation : AppendReservation Batch}
    (balanced : ring.Balanced (reservation :: reserved) leased) {written : WrittenFrame} (now : Instant)
    (measured : written.len = reservation.frameBytesLen) (bytes : Nat) :
    { ring with
      bytesInFlight := bytes
      slots := ring.slots.insert reservation.seqId .queued
      queue := enqueueOrdered ring.queue (reservation.queuedBatch written now) }.charges reserved leased =
        ring.charges (reservation :: reserved) leased := by
  have queued : ((enqueueOrdered ring.queue (reservation.queuedBatch written now)).map (·.byteSize) : Multiset Nat) =
      reservation.frameBytesLen ::ₘ (ring.queue.map (·.byteSize) : List Nat) := by
    rw [← measured]
    exact Multiset.coe_eq_coe.mpr ((enqueueOrdered_perm balanced.ascending _).map _)
  simp only [charges, queued, List.map_cons, ← Multiset.cons_coe, Multiset.cons_add, Multiset.add_cons]

theorem lease_charges {items rest : List (QueuedBatch Batch)} (queue : ring.queue = items ++ rest) :
    (ring.leaseItems items rest).charges reserved (items.map (·.leasedMeta) ++ leased) =
      ring.charges reserved leased := by
  simp only [charges, leaseItems, queue, List.map_append, ← Multiset.coe_add, List.map_map, Function.comp_def,
    QueuedBatch.leasedMeta]
  simp only [add_assoc, add_comm, add_left_comm]

theorem Balanced.requeue_charges {entries : List (BatchPayload Batch × LeasedBatchMeta)}
    (balanced : ring.Balanced reserved (entries.map Prod.snd ++ leased)) (nextAttempt : Nat)
    (readyAt : Option Instant) (flag : Bool) :
    (entries.foldl (requeueEntry nextAttempt readyAt) (ring, flag)).1.charges reserved leased =
      ring.charges reserved (entries.map Prod.snd ++ leased) := by
  induction entries generalizing ring flag with
  | nil => rfl
  | cons entry rest ih =>
    have owned := balanced.leased_mem (show entry.2 ∈ _ by simp)
    rw [List.foldl_cons, requeueEntry_owned owned, ih (requeue_entry balanced nextAttempt readyAt) true]
    have queued : ((enqueueOrdered ring.queue (requeued nextAttempt readyAt entry)).map (·.byteSize) : Multiset Nat) =
        entry.2.byteSize ::ₘ (ring.queue.map (·.byteSize) : List Nat) :=
      Multiset.coe_eq_coe.mpr ((enqueueOrdered_perm balanced.ascending _).map _)
    simp only [charges, queued, List.map_cons, List.cons_append, ← Multiset.cons_coe, Multiset.cons_add,
      Multiset.add_cons]

end Charges

end SignalRing

section Operations

variable {state : SignalRingState Batch} {reserved : List (AppendReservation Batch)} {leased : List LeasedBatchMeta}

theorem evictOldest_charges (accounted : Accounted state reserved leased) (batchBytes budget fuel : Nat) :
    (evictOldest batchBytes budget fuel state).1.ring.charges reserved leased ≤ state.ring.charges reserved leased := by
  induction fuel generalizing state with
  | zero => exact le_rfl
  | succ fuel ih =>
    unfold evictOldest
    split
    · exact le_rfl
    · split
      · exact le_rfl
      · rename_i front rest queue
        split
        · exact le_rfl
        · have swept := ih (accounted.evict queue).1
          refine swept.trans ?_
          exact (SignalRing.advanceWatermark_charges _).trans (accounted.balanced.evict_charges queue)

theorem makeRoom_charges (accounted : Accounted state reserved leased) (config : BufferConfig) (batchBytes : Nat) :
    (makeRoom config state batchBytes).1.ring.charges reserved leased ≤ state.ring.charges reserved leased := by
  unfold makeRoom
  split
  · exact evictOldest_charges accounted _ _ _
  · exact le_rfl

theorem canAdmit_fits {ring : SignalRing Batch} {batchBytes budget : Nat} (balanced : ring.Balanced reserved leased)
    (admitted : canAdmit ring batchBytes budget = true) :
    (ring.charges reserved leased).sum = 0 ∨ (ring.charges reserved leased).sum + batchBytes ≤ budget := by
  rw [balanced.charges_sum, SignalRing.totalUsed]
  simp only [canAdmit, Bool.or_eq_true, Bool.and_eq_true, beq_iff_eq, decide_eq_true_eq] at admitted
  rcases admitted with ⟨_, empty⟩ | fits
  · exact Or.inl empty
  · exact Or.inr fits

theorem assignSlot_charges {ring : SignalRing Batch} {batchBytes batchRows : Nat} {inMemoryBatch : Option Batch}
    {reservation : Nat → Option (AppendReservation Batch)} (now : Instant)
    (reserves : inMemoryBatch = none → ∀ seqId, ∃ built, reservation seqId = some built ∧
      built.seqId = seqId ∧ built.frameBytesLen = batchBytes ∧ built.batchRows = batchRows) :
    (assignSlot ring batchBytes batchRows inMemoryBatch now).1.charges
        (Transition.admitReservation reserved reservation
          (assignSlot ring batchBytes batchRows inMemoryBatch now).2) leased =
      batchBytes ::ₘ ring.charges reserved leased := by
  cases inMemoryBatch with
  | some batch =>
    simp only [assignSlot, Transition.admitReservation, SignalRing.charges, inMemoryItem, List.map_append,
      List.map_cons, List.map_nil, ← Multiset.coe_add, Multiset.coe_singleton]
    simp only [← Multiset.singleton_add, add_comm, add_left_comm]
  | none =>
    obtain ⟨built, found, _, sized, _⟩ := reserves rfl ring.nextSeq
    simp only [assignSlot, Transition.admitReservation, found, Option.toList_some, List.singleton_append,
      SignalRing.charges, List.map_cons, sized, ← Multiset.cons_coe, Multiset.cons_add, Multiset.add_cons]

/-- What an operation does to the charges: it drops some, or it drops some and adds one that the check admits. -/
inductive Spends (budget : Nat) (before : Multiset Nat) : Multiset Nat → Prop where
  | drop {after : Multiset Nat} (fewer : after ≤ before) : Spends budget before after
  | add {kept : Multiset Nat} (charge : Nat) (fewer : kept ≤ before)
      (fits : kept.sum = 0 ∨ kept.sum + charge ≤ budget) : Spends budget before (charge ::ₘ kept)

theorem Spends.within {budget : Nat} {before after : Multiset Nat} (spends : Spends budget before after)
    (within : WithinBudget budget before) : WithinBudget budget after := by
  cases spends with
  | drop fewer => exact within.mono fewer
  | add charge fewer fits => exact WithinBudget.cons fits

theorem reserveOrEnqueueSlot_spends {batchBytes batchRows : Nat} {inMemoryBatch : Option Batch}
    {reservation : Nat → Option (AppendReservation Batch)} (accounted : Accounted state reserved leased)
    (config : BufferConfig) (now : Instant)
    (reserves : inMemoryBatch = none → ∀ seqId, ∃ built, reservation seqId = some built ∧
      built.seqId = seqId ∧ built.frameBytesLen = batchBytes ∧ built.batchRows = batchRows) :
    let admitted := reserveOrEnqueueSlot config state batchBytes batchRows inMemoryBatch now
    Spends config.perSignalBudget (state.ring.charges reserved leased)
      (admitted.1.ring.charges (Transition.admitReservation reserved reservation admitted.2.1) leased) := by
  intro admitted
  simp only [admitted, reserveOrEnqueueSlot]
  split
  · exact .drop le_rfl
  · split
    · exact .drop le_rfl
    · have swept := makeRoom_charges accounted config batchBytes
      have room := (Transition.makeRoom accounted config batchBytes).accounted
      split
      · rename_i fits
        simp only
        rw [assignSlot_charges now reserves]
        exact .add batchBytes swept (canAdmit_fits room.balanced fits)
      · exact .drop swept

theorem ackLease_charges (items : List LeasedBatchMeta) (reset : Bool) :
    (ackLease state items reset).1.ring.charges reserved leased ≤ state.ring.charges reserved (items ++ leased) := by
  have dropped : state.ring.charges reserved leased ≤ state.ring.charges reserved (items ++ leased) := by
    simp only [SignalRing.charges, List.map_append, ← Multiset.coe_add]
    refine Multiset.add_le_add_right (Multiset.add_le_add_left ?_)
    exact Multiset.le_add_left _ _
  have acked : (ackLease state items reset).1.ring.charges reserved leased ≤ state.ring.charges reserved leased := by
    simp only [ackLease, SignalRing.ackEntries]
    split
    · exact SignalRing.advanceWatermark_charges _
    · exact le_rfl
  exact acked.trans dropped

theorem requeueLease_charges {payloads : List (BatchPayload Batch)} {items : List LeasedBatchMeta}
    (accounted : Accounted state reserved (items ++ leased)) (paired : payloads.length = items.length)
    (nextAttempt : Nat) (readyAt : Option Instant) :
    (requeueLease state payloads items nextAttempt readyAt).ring.charges reserved leased =
      state.ring.charges reserved (items ++ leased) := by
  have reordered := zip_reverse_perm paired leased
  have requeued := (accounted.balanced.perm (List.Perm.refl _) reordered).requeue_charges nextAttempt readyAt false
  rw [SignalRing.charges_perm (List.Perm.refl _) reordered, ← requeued]
  simp only [requeueLease, SignalRing.requeueAtHead]
  split <;> rfl

end Operations

namespace RingWorld

def charges (world : RingWorld Batch) : Multiset Nat :=
  world.state.ring.charges world.liveReservations world.liveLeased

/-- An append that is reported as stored is as long as the frame that its reservation is for. -/
def Measured (world : RingWorld Batch) : RingAction Batch → Prop
  | .finish seqId (.ok written) _ =>
    ∀ taken ∈ world.takeReservation seqId, written.len = taken.1.frameBytesLen
  | _ => True

variable {config : BufferConfig} {origin : SignalRing Batch} {world next : RingWorld Batch}

section Steps

variable {firstSeq : Nat} {lease : Lease Batch} {others : List (Held (Lease Batch))}

theorem Sound.resolve_charges {after : SignalRingState Batch} (sound : Sound config origin world)
    (taken : world.takeLease firstSeq = some (lease, others))
    (live : ∀ leased, Accounted world.state world.liveReservations (lease.leased ++ leased) →
      after.ring.charges world.liveReservations leased ≤
        world.state.ring.charges world.liveReservations (lease.leased ++ leased))
    (stale : (∀ item ∈ lease.leased, world.state.ring.Gone item.seqId) → ∀ leased,
      after.ring.charges world.liveReservations leased ≤ world.state.ring.charges world.liveReservations leased) :
    after.ring.charges world.liveReservations ((liveValues others).flatMap (·.leased)) ≤ world.charges := by
  rcases sound.taken_rows taken with ⟨_, split, accounted⟩ | ⟨_, split, gone⟩
  · have before : world.charges = world.state.ring.charges world.liveReservations
        (lease.leased ++ (liveValues others).flatMap (·.leased)) :=
      SignalRing.charges_perm (List.Perm.refl _) (split.flatMap_right Lease.leased)
    rw [before]
    exact live _ accounted
  · have before : world.charges = world.state.ring.charges world.liveReservations
        ((liveValues others).flatMap (·.leased)) :=
      SignalRing.charges_perm (List.Perm.refl _) (split.flatMap_right Lease.leased)
    rw [before]
    exact stale gone _

theorem Sound.ack_charges (sound : Sound config origin world)
    (taken : world.takeLease firstSeq = some (lease, others)) {marked : SignalRingState Batch}
    (ring : marked.ring = world.state.ring) (reset : Bool) :
    (ackLease marked lease.leased reset).1.ring.charges world.liveReservations
      ((liveValues others).flatMap (·.leased)) ≤ world.charges := by
  refine sound.resolve_charges taken (fun leased _ => ?_) fun gone leased => ?_
  · rw [← ring]
    exact ackLease_charges lease.leased reset
  · rw [← ring]
    simp only [ackLease, SignalRing.ackEntries]
    split
    · exact SignalRing.advanceWatermark_charges _
    · exact le_rfl

theorem Sound.requeue_charges {leased : List LeasedBatchMeta} {marked : SignalRingState Batch} (nextAttempt : Nat)
    (readyAt : Option Instant) (sound : Sound config origin world)
    (taken : world.takeLease firstSeq = some (lease, others)) (same : SameBatches leased lease.leased)
    (ring : marked.ring = world.state.ring) (committed : marked.committedSeq = world.state.committedSeq) :
    (requeueLease marked lease.payloads leased nextAttempt readyAt).ring.charges world.liveReservations
      ((liveValues others).flatMap (·.leased)) ≤ world.charges := by
  have wellFormed := (sound.taken taken).1
  refine sound.resolve_charges taken (fun rest accounted => ?_) fun gone rest => ?_
  · have marks : Accounted marked world.liveReservations (lease.leased ++ rest) := accounted.flags ring committed
    rw [requeueLease_charges (same.accounted marks) (wellFormed.paired.trans same.length.symm), ring]
    simp only [SignalRing.charges, List.map_append, same.sizes]
    exact le_rfl
  · have absent : ∀ item ∈ leased, marked.ring.Gone item.seqId := by
      intro item member
      obtain ⟨other, listed, equal⟩ := same.mem member
      rw [ring, ← equal]
      exact gone other listed
    have marks : Accounted marked world.liveReservations world.liveLeased := sound.accounted.flags ring committed
    rw [marks.requeueLease_gone lease.payloads absent, ring]

theorem rollback_charges {seqId : Nat} {reservation : AppendReservation Batch}
    {remaining : List (Held (AppendReservation Batch))}
    (taken : world.takeReservation seqId = some (reservation, remaining)) :
    (reservation.rollbackSlot world.state).ring.charges (liveValues remaining) world.liveLeased ≤ world.charges := by
  obtain ⟨_, _, _, live | ⟨stale, _⟩⟩ := takeHeld_eq_some taken
  · have before : world.charges = world.state.ring.charges (reservation :: liveValues remaining) world.liveLeased :=
      SignalRing.charges_perm live (List.Perm.refl _)
    rw [before]
    have dropped : world.state.ring.charges (liveValues remaining) world.liveLeased ≤
        world.state.ring.charges (reservation :: liveValues remaining) world.liveLeased := by
      simp only [SignalRing.charges, List.map_cons, ← Multiset.cons_coe, Multiset.cons_add, Multiset.add_cons]
      exact Multiset.le_cons_self _ _
    simp only [AppendReservation.rollbackSlot]
    split
    · exact dropped
    · exact (SignalRing.advanceWatermark_charges _).trans dropped
  · have before : world.charges = world.state.ring.charges (liveValues remaining) world.liveLeased :=
      SignalRing.charges_perm stale (List.Perm.refl _)
    rw [before]
    simp only [AppendReservation.rollbackSlot]
    split
    · exact le_rfl
    · exact SignalRing.advanceWatermark_charges _

theorem Sound.finish_charges {seqId : Nat} {reservation : AppendReservation Batch}
    {remaining : List (Held (AppendReservation Batch))} {written : WrittenFrame} (now : Instant)
    (sound : Sound config origin world) (taken : world.takeReservation seqId = some (reservation, remaining))
    (measured : written.len = reservation.frameBytesLen) :
    (reservation.finish world.state (.ok written) now).ring.charges (liveValues remaining) world.liveLeased =
      world.charges := by
  obtain ⟨_, _, _, live | ⟨stale, old, member, discarded, same⟩⟩ := takeHeld_eq_some taken
  · have accounted : Accounted world.state (reservation :: liveValues remaining) world.liveLeased :=
      sound.accounted.perm live (List.Perm.refl _)
    have owned := accounted.balanced.reserved_mem List.mem_cons_self
    simp only [AppendReservation.finish, owned, if_true]
    rw [accounted.balanced.finish_charges now measured]
    exact SignalRing.charges_perm live.symm (List.Perm.refl _)
  · have gone : world.state.ring.Gone reservation.seqId := same ▸ sound.goneReservations old member discarded
    rw [Accounted.finish_gone gone]
    exact SignalRing.charges_perm stale.symm (List.Perm.refl _)

theorem Sound.admit_spends {batchBytes batchRows : Nat} {inMemoryBatch : Option Batch}
    {reservation : Nat → Option (AppendReservation Batch)} (sound : Sound config origin world) (now : Instant)
    (reserves : inMemoryBatch = none → ∀ seqId, ∃ built, reservation seqId = some built ∧
      built.seqId = seqId ∧ built.frameBytesLen = batchBytes ∧ built.batchRows = batchRows) :
    Spends config.perSignalBudget world.charges
      (world.admitBatch config batchBytes batchRows inMemoryBatch reservation now).charges := by
  have spent := reserveOrEnqueueSlot_spends sound.accounted config now reserves
  have reordered := liveReservations_admit world.reservations reservation
    (reserveOrEnqueueSlot config world.state batchBytes batchRows inMemoryBatch now).2.1
  have same : (reserveOrEnqueueSlot config world.state batchBytes batchRows inMemoryBatch now).1.ring.charges
      (Transition.admitReservation world.liveReservations reservation
        (reserveOrEnqueueSlot config world.state batchBytes batchRows inMemoryBatch now).2.1) world.liveLeased =
      (world.admitBatch config batchBytes batchRows inMemoryBatch reservation now).charges :=
    SignalRing.charges_perm reordered (List.Perm.refl _)
  simp only [same] at spent
  exact spent

theorem liveLeased_countQuarantined (firstSeq rows : Nat) (held : List (Held (Lease Batch))) :
    (liveValues (held.map (countQuarantined firstSeq rows))).flatMap (·.leased) =
      (liveValues held).flatMap (·.leased) := by
  induction held with
  | nil => rfl
  | cons first rest ih =>
    have same : (countQuarantined firstSeq rows first).discarded = first.discarded ∧
        (countQuarantined firstSeq rows first).value.leased = first.value.leased := by
      unfold countQuarantined
      split <;> exact ⟨rfl, rfl⟩
    simp only [liveValues] at ih
    cases discarded : first.discarded <;> simp [liveValues, same.1, same.2, discarded, ih]

end Steps

theorem Sound.spends {inner : BufferInner} {signal : SignalKind} {action : RingAction Batch}
    (sound : Sound inner.config origin world) (measured : world.Measured action)
    (stepped : RingWorld.step inner signal world action = some next) :
    Spends inner.config.perSignalBudget world.charges next.charges := by
  cases action with
  | enqueue batch now =>
    obtain ⟨_, rfl⟩ := step_enqueue stepped
    exact sound.admit_spends now (by simp)
  | reserve frameBytesLen batchRows rows schema now =>
    obtain ⟨_, rfl⟩ := step_reserve stepped
    exact sound.admit_spends now fun _ seqId => ⟨_, rfl, rfl, rfl, rfl⟩
  | finish seqId result now =>
    obtain ⟨⟨reservation, remaining⟩, taken, rfl⟩ := Option.map_eq_some_iff.mp stepped
    cases result with
    | ok written => exact .drop (sound.finish_charges now taken (measured _ taken)).le
    | error reason => exact .drop (rollback_charges taken)
  | dropReservation seqId =>
    obtain ⟨⟨reservation, remaining⟩, taken, rfl⟩ := Option.map_eq_some_iff.mp stepped
    exact .drop (rollback_charges taken)
  | pop now =>
    cases stepped
    rcases tryPopSignalLease_cases inner signal world.state now with
      ⟨wait, drained, idle⟩ | ⟨front, taken, rest, formed, popped⟩
    · simp only [charges, liveLeased, liveLeases, liveReservations, idle, Option.toList_none, List.map_nil,
        List.append_nil]
      exact .drop le_rfl
    · have leased : (world.state.ring.leaseItems (front :: taken) rest).charges world.liveReservations
          ((front :: taken).map (·.leasedMeta) ++ world.liveLeased) = world.charges :=
        SignalRing.lease_charges formed.queue
      have reordered : ((liveValues (world.leases ++ [{ value := leaseOf inner signal now front taken }])).flatMap
          (·.leased)).Perm ((front :: taken).map (·.leasedMeta) ++ world.liveLeased) := by
        have live : liveValues (world.leases ++ [{ value := leaseOf inner signal now front taken }]) =
            world.liveLeases ++ [leaseOf inner signal now front taken] := liveValues_append _ _
        rw [live, List.flatMap_append, List.flatMap_singleton]
        exact List.perm_append_comm
      simp only [popped, Option.toList_some, List.map_cons, List.map_nil]
      rw [← leased]
      exact .drop (SignalRing.charges_perm (List.Perm.refl _) reordered).le
  | quarantineRows firstSeq rows =>
    obtain ⟨_, _, rfl⟩ := Option.map_eq_some_iff.mp stepped
    have same := liveLeased_countQuarantined firstSeq rows world.leases
    refine .drop (Eq.le ?_)
    exact congrArg (world.state.ring.charges world.liveReservations) same
  | ack firstSeq persisted =>
    obtain ⟨⟨lease, others⟩, taken, rfl⟩ := Option.map_eq_some_iff.mp stepped
    have dropped := sound.ack_charges taken rfl true
    refine .drop ?_
    cases persisted <;> exact dropped
  | nack firstSeq failure now nowMs deadLetter persisted =>
    obtain ⟨⟨lease, others⟩, taken, rfl⟩ := Option.map_eq_some_iff.mp stepped
    have ring : (Lease.markFailure world.state failure nowMs).ring = world.state.ring := by
      cases failure <;> rfl
    have committed : (Lease.markFailure world.state failure nowMs).committedSeq = world.state.committedSeq := by
      cases failure <;> rfl
    have keeps := lease.disposition_keeps inner world.state failure now nowMs deadLetter
    refine .drop ?_
    unfold resolveLease
    simp only
    generalize lease.disposition inner world.state failure now nowMs deadLetter = disposition at keeps ⊢
    cases disposition with
    | requeue leased nextAttempt readyAt => exact sound.requeue_charges _ _ taken keeps ring committed
    | fail leased reason => exact sound.requeue_charges _ _ taken keeps ring committed
    | quarantine =>
      have counted : ({ Lease.markFailure world.state failure nowMs with
          deadLetterDrops := (Lease.markFailure world.state failure nowMs).deadLetterDrops + lease.numRows } :
            SignalRingState Batch).ring = world.state.ring := ring
      have dropped := sound.ack_charges taken counted false
      cases persisted <;> exact dropped
  | dropLease firstSeq now nowMs =>
    obtain ⟨⟨lease, others⟩, taken, rfl⟩ := Option.map_eq_some_iff.mp stepped
    exact .drop (sound.requeue_charges _ _ taken (SameBatches.stamped lease.leased now) rfl rfl)
  | advanceWatermark =>
    cases stepped
    exact .drop (SignalRing.advanceWatermark_charges _)
  | discard =>
    cases stepped
    simp only [charges, liveLeased, liveLeases, liveReservations, liveValues_discardHeld]
    refine .drop ((SignalRing.advanceWatermark_charges _).trans ?_)
    exact Multiset.zero_le _
  | _ =>
    cases stepped
    exact .drop le_rfl

end RingWorld

/-- The evictions of one sweep: each takes the queued batch with the lowest number and leaves the other slots. -/
inductive SignalRing.Sweeps : SignalRing Batch → List (QueuedBatch Batch) → SignalRing Batch → Prop where
  | stop (ring : SignalRing Batch) : Sweeps ring [] ring
  | evict {ring between last : SignalRing Batch} {front : QueuedBatch Batch} {later : List (QueuedBatch Batch)}
      (queued : ring.slots[front.seqId]? = some .queued)
      (lowest : ∀ seq, ring.slots[seq]? = some .queued → front.seqId ≤ seq)
      (slots : between.slots = ring.slots.erase front.seqId) (sweeps : Sweeps between later last) :
      Sweeps ring (front :: later) last

section Sweeps

variable {state : SignalRingState Batch} {reserved : List (AppendReservation Batch)} {leased : List LeasedBatchMeta}

theorem evictOldest_sweeps (accounted : Accounted state reserved leased) (batchBytes budget fuel : Nat) :
    state.ring.Sweeps (evictOldest batchBytes budget fuel state).2 (evictOldest batchBytes budget fuel state).1.ring := by
  induction fuel generalizing state with
  | zero => exact .stop _
  | succ fuel ih =>
    unfold evictOldest
    split
    · exact .stop _
    · split
      · exact .stop _
      · rename_i front rest queue
        split
        · exact .stop _
        · have ascending := accounted.balanced.ascending
          rw [queue] at ascending
          refine .evict (accounted.balanced.queued_mem (by simp [queue])) (fun seq found => ?_) ?_
            (ih (accounted.evict queue).1)
          · have listed := (accounted.balanced.indexed.2 seq .queued).mp found
            simp only [SignalRing.queueSlots, SignalRing.reservedSlots, SignalRing.leasedSlots, List.mem_append,
              List.mem_map, Prod.mk.injEq, queue, reduceCtorEq, and_false, exists_false, or_false, and_true] at listed
            obtain ⟨item, member, rfl⟩ := listed
            rcases List.mem_cons.mp member with rfl | behind
            · exact le_rfl
            · exact (ascending.head_lt item behind).le
          · simp only [SignalRing.recordEvictedBatch, SignalRing.advanceWatermark, SignalRing.releaseEvicted]
            split <;> rfl

theorem makeRoom_sweeps (accounted : Accounted state reserved leased) (config : BufferConfig) (batchBytes : Nat) :
    state.ring.Sweeps (makeRoom config state batchBytes).2 (makeRoom config state batchBytes).1.ring := by
  unfold makeRoom
  split
  · exact evictOldest_sweeps accounted _ _ _
  · exact .stop _

end Sweeps

namespace RingWorld

/-- What the admission of batches keeps: the used bytes fit the budget, or are those of one batch that alone is too
    large for it; and whatever is evicted for a further batch is queued, the lowest number first. -/
structure Budgeted (config : BufferConfig) (world : RingWorld Batch) : Prop where
  within : WithinBudget config.perSignalBudget world.charges
  used : world.state.ring.totalUsed = world.charges.sum
  evictions : ∀ batchBytes, world.state.ring.Sweeps (makeRoom config world.state batchBytes).2
    (makeRoom config world.state batchBytes).1.ring

variable {config : BufferConfig} {origin : SignalRing Batch} {world : RingWorld Batch}

theorem Sound.reservation_lt (sound : Sound config origin world) {held : Held (AppendReservation Batch)}
    (member : held ∈ world.reservations) : held.value.seqId < world.state.ring.nextSeq := by
  cases discarded : held.discarded
  · have owned := sound.accounted.balanced.reserved_mem (mem_liveValues.mpr ⟨held, member, discarded, rfl⟩)
    refine sound.accounted.balanced.belowNext _ ?_
    rw [ExtTreeMap.mem_iff_isSome_getElem?, owned]
    rfl
  · exact (sound.goneReservations held member discarded).2

theorem Sound.budgeted (sound : Sound config origin world)
    (within : WithinBudget config.perSignalBudget world.charges) : Budgeted config world where
  within := within
  used := sound.accounted.balanced.charges_sum.symm
  evictions := makeRoom_sweeps sound.accounted config

end RingWorld

end OtelDatalake.Buffer
