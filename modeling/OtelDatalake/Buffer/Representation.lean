import Mathlib.Data.List.Flatten
import OtelDatalake.Foundation.Runs
import OtelDatalake.Buffer.Formation

open Std OtelDatalake.Foundation

namespace OtelDatalake.Buffer

variable {Batch : Type} [RecordBatch Batch]

def liveValues {α : Type} (held : List (Held α)) : List α :=
  (held.filter fun entry => !entry.discarded).map (·.value)

section Held

variable {α : Type} {held others : List (Held α)} {chosen : α → Bool} {value : α}

theorem liveValues_append (left right : List (Held α)) :
    liveValues (left ++ right) = liveValues left ++ liveValues right := by
  simp [liveValues]

theorem mem_liveValues : value ∈ liveValues held ↔ ∃ entry ∈ held, entry.discarded = false ∧
    entry.value = value := by
  simp [liveValues, and_assoc]

theorem takeHeld_eq_some (taken : RingWorld.takeHeld chosen held = some (value, others)) :
    others.Sublist held ∧ chosen value = true ∧
      (∃ entry ∈ held, entry.value = value) ∧
      ((liveValues held).Perm (value :: liveValues others) ∨
        (liveValues held).Perm (liveValues others) ∧
          ∃ entry ∈ held, entry.discarded = true ∧ entry.value = value) := by
  simp only [RingWorld.takeHeld, Option.map_eq_some_iff, Prod.mk.injEq] at taken
  obtain ⟨entry, found, rfl, rfl⟩ := taken
  have picked : chosen entry.value = true := by simpa using List.find?_some found
  have member := List.mem_of_find?_eq_some found
  have split : held.Perm (entry :: held.eraseP fun entry => chosen entry.value) := by
    obtain ⟨_, before, after, parts, skipped⟩ := List.find?_eq_some_iff_append.mp found
    subst parts
    have erased : (before ++ entry :: after).eraseP (fun entry => chosen entry.value) = before ++ after := by
      rw [List.eraseP_append_right _ (by simpa using skipped), List.eraseP_cons, picked, cond_true]
    rw [erased]
    exact List.perm_middle
  refine ⟨List.eraseP_sublist, picked, ⟨entry, member, rfl⟩, ?_⟩
  have live := (split.filter fun entry => !entry.discarded).map (·.value)
  cases discarded : entry.discarded
  · left
    simpa [liveValues, discarded] using live
  · right
    exact ⟨by simpa [liveValues, discarded] using live, entry, member, discarded, rfl⟩

end Held

structure SameBatches (left right : List LeasedBatchMeta) : Prop where
  seqIds : left.map (·.seqId) = right.map (·.seqId)
  sizes : left.map (·.byteSize) = right.map (·.byteSize)
  counts : left.map (·.rowCount) = right.map (·.rowCount)

namespace SameBatches

variable {left right : List LeasedBatchMeta}

theorem refl (leased : List LeasedBatchMeta) : SameBatches leased leased := ⟨rfl, rfl, rfl⟩

theorem stamped (leased : List LeasedBatchMeta) (now : Instant) :
    SameBatches (leased.map (Lease.stampFailure now)) leased := by
  constructor <;> simp [Lease.stampFailure, Function.comp_def]

theorem length (same : SameBatches left right) : left.length = right.length := by
  simpa using congrArg List.length same.seqIds

theorem nonempty (same : SameBatches left right) (held : right ≠ []) : left ≠ [] := by
  intro empty
  have counted := same.length
  rw [empty] at counted
  exact held (List.eq_nil_of_length_eq_zero counted.symm)

theorem mem (same : SameBatches left right) {item : LeasedBatchMeta} (member : item ∈ left) :
    ∃ other ∈ right, other.seqId = item.seqId := by
  have listed : item.seqId ∈ left.map (·.seqId) := List.mem_map.mpr ⟨item, member, rfl⟩
  rw [same.seqIds] at listed
  exact List.mem_map.mp listed

theorem accounted {state : SignalRingState Batch} {reserved : List (AppendReservation Batch)}
    {leased : List LeasedBatchMeta} (same : SameBatches left right)
    (accounted : Accounted state reserved (right ++ leased)) : Accounted state reserved (left ++ leased) := by
  refine ⟨accounted.balanced.restamp ?_ ?_ ?_, accounted.committed⟩
  · rw [List.map_append, List.map_append, same.seqIds]
  · rw [List.map_append, List.map_append, same.sizes]
  · rw [List.map_append, List.map_append, same.counts]

end SameBatches

def Lease.Disposition.Keeps (original : List LeasedBatchMeta) : Disposition → Prop
  | .requeue leased _ _ => SameBatches leased original
  | .fail leased _ => SameBatches leased original
  | .quarantine => True

theorem Lease.disposition_keeps (lease : Lease Batch) (inner : BufferInner) (state : SignalRingState Batch)
    (failure : FailureClass) (now : Instant) (nowMs : Nat) (deadLetter : Except String Unit) :
    (lease.disposition inner state failure now nowMs deadLetter).Keeps lease.leased := by
  cases failure with
  | transient =>
    simp only [Lease.disposition]
    split
    · exact SameBatches.stamped _ _
    · exact SameBatches.stamped _ _
  | rejected reason =>
    simp only [Lease.disposition]
    split
    · exact SameBatches.refl _
    · split
      · exact SameBatches.refl _
      · trivial
  | fatal reason => exact SameBatches.refl _

structure Lease.WellFormed (lease : Lease Batch) : Prop where
  nonempty : lease.leased ≠ []
  paired : lease.payloads.length = lease.leased.length
  contiguous : lease.leased.map (·.seqId) = List.range' lease.id.firstSeq lease.leased.length
  last : lease.id.lastSeq + 1 = lease.id.firstSeq + lease.leased.length

namespace RingWorld

def liveLeases (world : RingWorld Batch) : List (Lease Batch) := liveValues world.leases

def liveLeased (world : RingWorld Batch) : List LeasedBatchMeta := world.liveLeases.flatMap (·.leased)

def liveReservations (world : RingWorld Batch) : List (AppendReservation Batch) :=
  liveValues world.reservations

/-- The ring's accounts are those of the live leases and reservations; what a discard has touched is gone from
    the ring; and every sequence number is active, has an outcome or was gone from `origin`, the ring that the
    run started with. -/
structure Sound (config : BufferConfig) (origin : SignalRing Batch) (world : RingWorld Batch) : Prop where
  accounted : Accounted world.state world.liveReservations world.liveLeased
  inflightLeases : world.state.ring.inflightLeases = world.liveLeases.length
  capacity : world.liveLeases.length ≤ config.maxInflightLeases
  wellFormed : ∀ held ∈ world.leases, held.value.WellFormed
  goneLeases : ∀ held ∈ world.leases, held.discarded = true →
    ∀ item ∈ held.value.leased, world.state.ring.Gone item.seqId
  goneReservations : ∀ held ∈ world.reservations, held.discarded = true →
    world.state.ring.Gone held.value.seqId
  distinct : ((world.leases.flatMap (·.value.leased)).map (·.seqId)).Nodup
  settled : ∀ seq, world.state.ring.Gone seq → origin.Gone seq ∨ seq ∈ world.outcomes.map Prod.fst

theorem Sound.start {config : BufferConfig} {state : SignalRingState Batch} (accounted : Accounted state [] [])
    (idle : state.ring.inflightLeases = 0) : Sound config state.ring { state := state } where
  accounted := accounted
  inflightLeases := idle
  capacity := Nat.zero_le _
  wellFormed := by simp
  goneLeases := by simp
  goneReservations := by simp
  distinct := List.nodup_nil
  settled _ gone := Or.inl gone

theorem Sound.live_slot {config : BufferConfig} {origin : SignalRing Batch} {world : RingWorld Batch}
    (sound : Sound config origin world) {held : Held (Lease Batch)} (member : held ∈ world.leases)
    (live : held.discarded = false) {item : LeasedBatchMeta} (leased : item ∈ held.value.leased) :
    world.state.ring.slots[item.seqId]? = some .inFlight :=
  sound.accounted.balanced.leased_mem
    (List.mem_flatMap.mpr ⟨held.value, mem_liveValues.mpr ⟨held, member, live, rfl⟩, leased⟩)

/-- What one step does: a ring transition to the accounts of the next world, with an outcome for every
    sequence number that departs. -/
structure Advance (config : BufferConfig) (world next : RingWorld Batch) (departed : List Nat) : Prop where
  transition : Transition world.state next.state next.liveReservations next.liveLeased departed
    next.liveLeases.length
  capacity : next.liveLeases.length ≤ config.maxInflightLeases
  wellFormed : ∀ held ∈ next.leases, held.value.WellFormed
  goneLeases : ∀ held ∈ next.leases, held.discarded = true →
    ∀ item ∈ held.value.leased, next.state.ring.Gone item.seqId
  goneReservations : ∀ held ∈ next.reservations, held.discarded = true →
    next.state.ring.Gone held.value.seqId
  distinct : ((next.leases.flatMap (·.value.leased)).map (·.seqId)).Nodup
  outcomes : ∀ entry ∈ world.outcomes, entry ∈ next.outcomes
  settled : ∀ seq ∈ departed, seq ∈ next.outcomes.map Prod.fst

variable {config : BufferConfig} {origin : SignalRing Batch} {world next : RingWorld Batch}
  {departed : List Nat}

theorem Advance.sound (sound : Sound config origin world) (advance : Advance config world next departed) :
    Sound config origin next where
  accounted := advance.transition.accounted
  inflightLeases := advance.transition.inflightLeases
  capacity := advance.capacity
  wellFormed := advance.wellFormed
  goneLeases := advance.goneLeases
  goneReservations := advance.goneReservations
  distinct := advance.distinct
  settled seq gone := by
    rcases advance.transition.evolves.kept seq gone.2 gone.1 with left | ⟨earlier, absent⟩
    · exact Or.inr (advance.settled seq left)
    · rcases sound.settled seq ⟨absent, earlier⟩ with before | settled
      · exact Or.inl before
      · obtain ⟨entry, member, same⟩ := List.mem_map.mp settled
        exact Or.inr (List.mem_map.mpr ⟨entry, advance.outcomes entry member, same⟩)

theorem Advance.committed_le (sound : Sound config origin world) (advance : Advance config world next departed) :
    world.state.committedSeq ≤ next.state.committedSeq := by
  rw [sound.accounted.committed, advance.transition.accounted.committed]
  exact advance.transition.evolves.candidate_le sound.accounted.balanced.toBounded
    advance.transition.accounted.balanced.toBounded

theorem Sound.shrink (sound : Sound config origin world)
    (transition : Transition world.state next.state next.liveReservations next.liveLeased departed
      next.liveLeases.length)
    (capacity : next.liveLeases.length ≤ config.maxInflightLeases)
    (leases : next.leases.Sublist world.leases) (reservations : next.reservations.Sublist world.reservations)
    (outcomes : ∀ entry ∈ world.outcomes, entry ∈ next.outcomes)
    (settled : ∀ seq ∈ departed, seq ∈ next.outcomes.map Prod.fst) : Advance config world next departed where
  transition := transition
  capacity := capacity
  wellFormed held member := sound.wellFormed held (leases.subset member)
  goneLeases held member discarded item leased :=
    transition.evolves.gone (sound.goneLeases held (leases.subset member) discarded item leased)
  goneReservations held member discarded :=
    transition.evolves.gone (sound.goneReservations held (reservations.subset member) discarded)
  distinct := sound.distinct.sublist ((leases.flatMap _).map _)
  outcomes := outcomes
  settled := settled

theorem Sound.taken {firstSeq : Nat} {lease : Lease Batch} {others : List (Held (Lease Batch))}
    (sound : Sound config origin world) (taken : world.takeLease firstSeq = some (lease, others)) :
    lease.WellFormed ∧ others.Sublist world.leases ∧
      (Accounted world.state world.liveReservations
          (lease.leased ++ (liveValues others).flatMap (·.leased)) ∧
        world.state.ring.inflightLeases - 1 = (liveValues others).length ∨
      Accounted world.state world.liveReservations ((liveValues others).flatMap (·.leased)) ∧
        world.state.ring.inflightLeases = (liveValues others).length ∧
        ∀ item ∈ lease.leased, world.state.ring.Gone item.seqId) ∧
      (liveValues others).length ≤ config.maxInflightLeases := by
  obtain ⟨subset, _, ⟨entry, member, rfl⟩, live | ⟨stale, old, oldMember, discarded, same⟩⟩ :=
    takeHeld_eq_some taken
  · have counted : world.liveLeases.length = (liveValues others).length + 1 := live.length_eq
    have bound := sound.capacity
    refine ⟨sound.wellFormed entry member, subset, Or.inl ⟨?_, ?_⟩, by omega⟩
    · exact sound.accounted.perm (List.Perm.refl _) (live.flatMap_right Lease.leased)
    · rw [sound.inflightLeases, counted]
      rfl
  · have counted : world.liveLeases.length = (liveValues others).length := stale.length_eq
    have bound := sound.capacity
    refine ⟨sound.wellFormed entry member, subset, Or.inr ⟨?_, ?_, ?_⟩, by omega⟩
    · exact sound.accounted.perm (List.Perm.refl _) (stale.flatMap_right Lease.leased)
    · rw [sound.inflightLeases, counted]
    · rw [← same]
      exact sound.goneLeases old oldMember discarded

theorem mem_settle {ring : SignalRing Batch} {seqs : List Nat} {outcome : Outcome} {seq : Nat} :
    seq ∈ (settle ring seqs outcome).map Prod.fst ↔ seq ∈ seqs ∧ seq ∈ ring.slots := by
  simp [settle]

theorem Sound.resolve {firstSeq : Nat} {lease : Lease Batch} {others : List (Held (Lease Batch))}
    {after : SignalRingState Batch} (sound : Sound config origin world)
    (taken : world.takeLease firstSeq = some (lease, others)) (departed : List Nat)
    (outcomes : List (Nat × Outcome))
    (live : ∀ leased, Accounted world.state world.liveReservations (lease.leased ++ leased) →
      Transition world.state after world.liveReservations leased departed
        (world.state.ring.inflightLeases - 1))
    (stale : ∀ leased, Accounted world.state world.liveReservations leased →
      (∀ item ∈ lease.leased, world.state.ring.Gone item.seqId) →
      Transition world.state after world.liveReservations leased [] world.state.ring.inflightLeases)
    (settled : ∀ seq ∈ departed, (∃ item ∈ lease.leased, item.seqId = seq) ∧
      (seq ∈ world.state.ring.slots → seq ∈ outcomes.map Prod.fst)) :
    ∃ departed, Advance config world
      { world with state := after, leases := others, outcomes := world.outcomes ++ outcomes } departed := by
  obtain ⟨_, subset, owned | ⟨accounted, counted, gone⟩, bound⟩ := sound.taken taken
  · obtain ⟨accounted, counted⟩ := owned
    have transition := live _ accounted
    rw [counted] at transition
    refine ⟨departed, sound.shrink transition bound subset (List.Sublist.refl _)
      (fun _ => List.mem_append_left _) fun seq member => ?_⟩
    obtain ⟨⟨item, leased, rfl⟩, recorded⟩ := settled seq member
    have active : item.seqId ∈ world.state.ring.slots := by
      rw [ExtTreeMap.mem_iff_isSome_getElem?,
        accounted.balanced.leased_mem (List.mem_append_left _ leased)]
      rfl
    rw [List.map_append]
    exact List.mem_append_right _ (recorded active)
  · have transition := stale _ accounted gone
    rw [counted] at transition
    exact ⟨[], sound.shrink transition bound subset (List.Sublist.refl _)
      (fun _ => List.mem_append_left _) (by simp)⟩

theorem Sound.ack {firstSeq : Nat} {lease : Lease Batch} {others : List (Held (Lease Batch))}
    (sound : Sound config origin world) (taken : world.takeLease firstSeq = some (lease, others))
    (persisted : Except String Unit) :
    ∃ departed, Advance config world
      { world with
        state := lease.ack world.state persisted
        leases := others
        outcomes := world.outcomes ++
          settle world.state.ring (lease.leased.map (·.seqId)) .acked } departed := by
  refine sound.resolve taken (lease.leased.map (·.seqId)) _ ?_ ?_ ?_
  · intro leased accounted
    have acked := Transition.ackLease accounted (sound.taken taken).1.nonempty true
    cases persisted with
    | error reason => exact acked.thenFlags rfl rfl
    | ok => exact acked.thenFlags rfl rfl
  · intro leased accounted gone
    have idle := accounted.ackLease_gone gone true
    cases persisted with
    | error reason => exact idle.thenFlags rfl rfl
    | ok => exact idle.thenFlags rfl rfl
  · intro seq member
    exact ⟨List.mem_map.mp member, fun active => mem_settle.mpr ⟨member, active⟩⟩

theorem Sound.requeue {firstSeq : Nat} {lease : Lease Batch} {others : List (Held (Lease Batch))}
    {leased : List LeasedBatchMeta} {marked after : SignalRingState Batch} {nextAttempt : Nat}
    {readyAt : Option Instant} {fatal : Option String} (sound : Sound config origin world)
    (taken : world.takeLease firstSeq = some (lease, others)) (same : SameBatches leased lease.leased)
    (ring : marked.ring = world.state.ring) (committed : marked.committedSeq = world.state.committedSeq)
    (requeued : after.ring =
      { (requeueLease marked lease.payloads leased nextAttempt readyAt).ring with fatalError := fatal })
    (kept : after.committedSeq = marked.committedSeq) :
    ∃ departed, Advance config world { world with state := after, leases := others } departed := by
  have wellFormed := (sound.taken taken).1
  have unchanged : ∀ reserved leased, Accounted world.state reserved leased →
      Accounted marked reserved leased := fun reserved leased accounted => accounted.flags ring committed
  obtain ⟨departed, advance⟩ := sound.resolve taken [] []
    (by
      intro rest accounted
      have moved := Transition.requeueLease (same.accounted (unchanged _ _ accounted))
        (same.nonempty wellFormed.nonempty) (wellFormed.paired.trans same.length.symm) nextAttempt readyAt
      have flagged := moved.thenFlags requeued kept
      exact ⟨flagged.accounted, ring ▸ flagged.evolves, by rw [flagged.inflightLeases, ring]⟩)
    (by
      intro rest accounted gone
      have idle := (unchanged _ _ accounted).requeueLease_gone lease.payloads
        (fun item (member : item ∈ leased) => by
          obtain ⟨other, listed, equal⟩ := same.mem member
          rw [ring, ← equal]
          exact gone other listed) nextAttempt readyAt
      rw [idle, ring] at requeued
      exact Transition.flags accounted requeued (kept.trans committed))
    (by simp)
  rw [List.append_nil] at advance
  exact ⟨departed, advance⟩

theorem Sound.quarantine {firstSeq : Nat} {lease : Lease Batch} {others : List (Held (Lease Batch))}
    {marked : SignalRingState Batch} (sound : Sound config origin world)
    (taken : world.takeLease firstSeq = some (lease, others)) (ring : marked.ring = world.state.ring)
    (committed : marked.committedSeq = world.state.committedSeq) (persisted : Except String Unit) :
    ∃ departed, Advance config world
      { world with
        state := lease.dispose marked persisted .quarantine
        leases := others
        outcomes := world.outcomes ++
          settle world.state.ring (lease.leased.map (·.seqId)) .quarantined } departed := by
  refine sound.resolve taken (lease.leased.map (·.seqId)) _ ?_ ?_ ?_
  · intro leased accounted
    have counted : Accounted { marked with deadLetterDrops := marked.deadLetterDrops + lease.numRows }
        world.liveReservations (lease.leased ++ leased) := accounted.flags ring committed
    have acked := Transition.ackLease counted (sound.taken taken).1.nonempty false
    have moved : Transition world.state _ world.liveReservations leased (lease.leased.map (·.seqId))
        (world.state.ring.inflightLeases - 1) :=
      ⟨acked.accounted, ring ▸ acked.evolves, by rw [acked.inflightLeases, ring]⟩
    cases persisted with
    | error reason => exact moved.thenFlags rfl rfl
    | ok => exact moved
  · intro leased accounted gone
    have counted : Accounted { marked with deadLetterDrops := marked.deadLetterDrops + lease.numRows }
        world.liveReservations leased := accounted.flags ring committed
    have acked := counted.ackLease_gone (by simpa only [ring] using gone) false
    have moved : Transition world.state _ world.liveReservations leased []
        world.state.ring.inflightLeases :=
      ⟨acked.accounted, ring ▸ acked.evolves, by rw [acked.inflightLeases, ring]⟩
    cases persisted with
    | error reason => exact moved.thenFlags rfl rfl
    | ok => exact moved
  · intro seq member
    exact ⟨List.mem_map.mp member, fun active => mem_settle.mpr ⟨member, active⟩⟩

theorem Sound.nack {firstSeq : Nat} {lease : Lease Batch} {others : List (Held (Lease Batch))}
    {inner : BufferInner} (sound : Sound inner.config origin world)
    (taken : world.takeLease firstSeq = some (lease, others)) (failure : FailureClass) (now : Instant)
    (nowMs : Nat) (deadLetter persisted : Except String Unit) :
    ∃ departed, Advance inner.config world
      (world.resolveLease inner lease others failure now nowMs deadLetter persisted) departed := by
  have ring : (Lease.markFailure world.state failure nowMs).ring = world.state.ring := by
    cases failure <;> rfl
  have committed : (Lease.markFailure world.state failure nowMs).committedSeq = world.state.committedSeq := by
    cases failure <;> rfl
  have keeps := lease.disposition_keeps inner world.state failure now nowMs deadLetter
  unfold resolveLease
  simp only
  generalize lease.disposition inner world.state failure now nowMs deadLetter = disposition at keeps ⊢
  cases disposition with
  | requeue leased nextAttempt readyAt => exact sound.requeue taken keeps ring committed rfl rfl
  | fail leased reason => exact sound.requeue taken keeps ring committed rfl rfl
  | quarantine => exact sound.quarantine taken ring committed persisted

theorem Sound.takenReservation {seqId : Nat} {reservation : AppendReservation Batch}
    {others : List (Held (AppendReservation Batch))} (sound : Sound config origin world)
    (taken : world.takeReservation seqId = some (reservation, others)) :
    reservation.seqId = seqId ∧ others.Sublist world.reservations ∧
      (Accounted world.state (reservation :: liveValues others) world.liveLeased ∨
        Accounted world.state (liveValues others) world.liveLeased ∧
          world.state.ring.Gone reservation.seqId) := by
  obtain ⟨subset, picked, _, live | ⟨stale, old, oldMember, discarded, same⟩⟩ := takeHeld_eq_some taken
  · exact ⟨by simpa using picked, subset, Or.inl (sound.accounted.perm live (List.Perm.refl _))⟩
  · refine ⟨by simpa using picked, subset, Or.inr ⟨sound.accounted.perm stale (List.Perm.refl _), ?_⟩⟩
    rw [← same]
    exact sound.goneReservations old oldMember discarded

theorem Sound.release {seqId : Nat} {reservation : AppendReservation Batch}
    {others : List (Held (AppendReservation Batch))} {after : SignalRingState Batch}
    (sound : Sound config origin world) (taken : world.takeReservation seqId = some (reservation, others))
    (departed : List Nat) (outcomes : List (Nat × Outcome))
    (live : ∀ reserved, Accounted world.state (reservation :: reserved) world.liveLeased →
      Transition world.state after reserved world.liveLeased departed world.state.ring.inflightLeases)
    (stale : ∀ reserved, Accounted world.state reserved world.liveLeased →
      world.state.ring.Gone reservation.seqId →
      Transition world.state after reserved world.liveLeased [] world.state.ring.inflightLeases)
    (settled : ∀ seq ∈ departed, seq = seqId ∧
      (seq ∈ world.state.ring.slots → seq ∈ outcomes.map Prod.fst)) :
    ∃ departed, Advance config world
      { world with state := after, reservations := others, outcomes := world.outcomes ++ outcomes }
      departed := by
  obtain ⟨numbered, subset, accounted | ⟨accounted, gone⟩⟩ := sound.takenReservation taken
  · have transition := live _ accounted
    rw [sound.inflightLeases] at transition
    refine ⟨departed, sound.shrink transition sound.capacity (List.Sublist.refl _) subset
      (fun _ => List.mem_append_left _) fun seq member => ?_⟩
    obtain ⟨rfl, recorded⟩ := settled seq member
    have active : seq ∈ world.state.ring.slots := by
      rw [← numbered, ExtTreeMap.mem_iff_isSome_getElem?, accounted.balanced.reserved_mem List.mem_cons_self]
      rfl
    rw [List.map_append]
    exact List.mem_append_right _ (recorded active)
  · have transition := stale _ accounted gone
    rw [sound.inflightLeases] at transition
    exact ⟨[], sound.shrink transition sound.capacity (List.Sublist.refl _) subset
      (fun _ => List.mem_append_left _) (by simp)⟩

theorem Sound.finish {seqId : Nat} {reservation : AppendReservation Batch}
    {others : List (Held (AppendReservation Batch))} (sound : Sound config origin world)
    (taken : world.takeReservation seqId = some (reservation, others)) (result : Except String WrittenFrame)
    (now : Instant) :
    ∃ departed, Advance config world
      { world with
        state := reservation.finish world.state result now
        reservations := others
        outcomes := match result with
          | .ok _ => world.outcomes
          | .error _ => world.outcomes ++ settle world.state.ring [seqId] .storageFailed } departed := by
  have numbered := (sound.takenReservation taken).1
  cases result with
  | ok written =>
    obtain ⟨departed, advance⟩ := sound.release taken [] []
      (fun reserved accounted => Transition.finish accounted written now)
      (fun reserved accounted gone => by
        rw [Accounted.finish_gone gone]
        exact Transition.stay accounted) (by simp)
    rw [List.append_nil] at advance
    exact ⟨departed, advance⟩
  | error reason =>
    refine sound.release taken [reservation.seqId] _
      (fun reserved accounted => Transition.finishError accounted reason now)
      (fun reserved accounted gone => ?_) (fun seq member => ?_)
    · simp only [AppendReservation.finish, Accounted.rollbackSlot_gone gone]
      exact Transition.flags accounted rfl rfl
    · have same : seq = seqId := by rw [List.mem_singleton.mp member, numbered]
      exact ⟨same, fun active => mem_settle.mpr ⟨by simp [same], active⟩⟩

theorem Sound.dropReservation {seqId : Nat} {reservation : AppendReservation Batch}
    {others : List (Held (AppendReservation Batch))} (sound : Sound config origin world)
    (taken : world.takeReservation seqId = some (reservation, others)) :
    ∃ departed, Advance config world
      { world with
        state := reservation.rollbackSlot world.state
        reservations := others
        outcomes := world.outcomes ++ settle world.state.ring [seqId] .rolledBack } departed := by
  have numbered := (sound.takenReservation taken).1
  refine sound.release taken [reservation.seqId] _
    (fun reserved accounted => Transition.rollbackSlot accounted)
    (fun reserved accounted gone => ?_) (fun seq member => ?_)
  · rw [Accounted.rollbackSlot_gone gone]
    exact Transition.stay accounted
  · have same : seq = seqId := by rw [List.mem_singleton.mp member, numbered]
    exact ⟨same, fun active => mem_settle.mpr ⟨by simp [same], active⟩⟩

theorem liveReservations_admit (reservations : List (Held (AppendReservation Batch)))
    (reservation : Nat → Option (AppendReservation Batch)) (admission : Admission) :
    (Transition.admitReservation (liveValues reservations) reservation admission).Perm
      (liveValues (match admission with
        | .reserved seqId => reservations ++ (reservation seqId).toList.map fun value => { value := value }
        | _ => reservations)) := by
  cases admission with
  | reserved seqId =>
    have live : liveValues ((reservation seqId).toList.map fun value => { value := value }) =
        (reservation seqId).toList := by
      cases reservation seqId <;> rfl
    simp only [Transition.admitReservation, liveValues_append, live]
    exact List.perm_append_comm
  | _ => exact List.Perm.refl _

theorem Sound.admitBatch {batchBytes batchRows : Nat} {inMemoryBatch : Option Batch}
    {reservation : Nat → Option (AppendReservation Batch)} (sound : Sound config origin world)
    (numbered : world.state.ring.nextSeq < u64Max) (now : Instant)
    (reserves : inMemoryBatch = none → ∀ seqId, ∃ built, reservation seqId = some built ∧
      built.seqId = seqId ∧ built.frameBytesLen = batchBytes ∧ built.batchRows = batchRows) :
    ∃ departed, Advance config world
      (world.admitBatch config batchBytes batchRows inMemoryBatch reservation now) departed := by
  have admitted := Transition.admitBatch sound.accounted numbered config now reserves
  simp only at admitted
  have reordered := liveReservations_admit world.reservations reservation
    (reserveOrEnqueueSlot config world.state batchBytes batchRows inMemoryBatch now).2.1
  refine ⟨_,
    { transition := ⟨admitted.accounted.perm reordered (List.Perm.refl _), admitted.evolves,
        admitted.inflightLeases.trans sound.inflightLeases⟩
      capacity := sound.capacity
      wellFormed := sound.wellFormed
      goneLeases := fun held member discarded item leased =>
        admitted.evolves.gone (sound.goneLeases held member discarded item leased)
      goneReservations := ?_
      distinct := sound.distinct
      outcomes := fun entry => List.mem_append_left _
      settled := ?_ }⟩
  · intro held member discarded
    refine admitted.evolves.gone (sound.goneReservations held ?_ discarded)
    simp only [RingWorld.admitBatch] at member
    split at member
    · rcases List.mem_append.mp member with old | new
      · exact old
      · obtain ⟨value, _, rfl⟩ := List.mem_map.mp new
        cases discarded
    · exact member
  · intro seq member
    obtain ⟨item, evicted, rfl⟩ := List.mem_map.mp member
    simp only [RingWorld.admitBatch, List.map_append, List.mem_append, List.mem_map]
    exact Or.inr ⟨(item.seqId, .evicted), ⟨item, evicted, rfl⟩, rfl⟩

theorem leaseOf_wellFormed {ring : SignalRing Batch} {now : Instant} {front : QueuedBatch Batch}
    {taken rest : List (QueuedBatch Batch)} (formed : Formed config ring now front taken rest)
    (sorted : Ascending (·.seqId) ring.queue) (inner : BufferInner) (signal : SignalKind) :
    (leaseOf inner signal now front taken).WellFormed := by
  have contiguous := formed.contiguous sorted
  refine ⟨by simp [leaseOf], by simp [leaseOf], ?_, ?_⟩
  · simp only [leaseOf, List.map_map, Function.comp_def, QueuedBatch.leasedMeta, List.map_cons,
      List.length_cons, List.length_map, List.range'_succ, contiguous]
  · rcases List.eq_nil_or_concat taken with rfl | ⟨init, last, rfl⟩
    · simp [leaseOf]
    · have numbered := congrArg List.getLast? contiguous
      simp only [List.concat_eq_append, List.map_append, List.map_cons, List.map_nil,
        List.getLast?_append, List.getLast?_singleton, Option.some_or, List.length_append,
        List.length_singleton, List.getLast?_range'] at numbered
      simp [leaseOf] at numbered ⊢
      omega

theorem Sound.pop_distinct {now : Instant} {front : QueuedBatch Batch} {taken rest : List (QueuedBatch Batch)}
    (sound : Sound config origin world) (formed : Formed config world.state.ring now front taken rest)
    (inner : BufferInner) (signal : SignalKind) :
    (((world.leases ++ [({ value := leaseOf inner signal now front taken } : Held (Lease Batch))]).flatMap
      (·.value.leased)).map (·.seqId)).Nodup := by
  have wellFormed := leaseOf_wellFormed formed sound.accounted.balanced.ascending inner signal
  rw [List.flatMap_append, List.map_append, List.nodup_append]
  refine ⟨sound.distinct, ?_, ?_⟩
  · simp only [List.flatMap_singleton, wellFormed.contiguous]
    exact List.nodup_range'
  · rintro seq old other new rfl
    obtain ⟨item, listed, numbered⟩ := List.mem_map.mp new
    simp only [List.flatMap_singleton, leaseOf, List.mem_map] at listed
    obtain ⟨batch, member, rfl⟩ := listed
    have present : batch ∈ world.state.ring.queue := by
      rw [formed.queue]
      exact List.mem_append_left _ member
    have queued := sound.accounted.balanced.queued_mem present
    obtain ⟨leased, held, same⟩ := List.mem_map.mp old
    obtain ⟨entry, present, inside⟩ := List.mem_flatMap.mp held
    have equal : leased.seqId = batch.seqId := same.trans numbered.symm
    cases discarded : entry.discarded
    · have inFlight := sound.live_slot present discarded inside
      rw [equal, queued] at inFlight
      cases inFlight
    · have gone := (sound.goneLeases entry present discarded leased inside).1
      rw [equal, ExtTreeMap.mem_iff_isSome_getElem?, queued] at gone
      exact gone rfl

theorem Sound.pop {inner : BufferInner} (sound : Sound inner.config origin world) (signal : SignalKind)
    (now : Instant) :
    ∃ departed, Advance inner.config world
      { world with
        state := (tryPopSignalLease inner signal world.state now).1
        leases := world.leases ++
          (tryPopSignalLease inner signal world.state now).2.1.toList.map fun lease => { value := lease } }
      departed := by
  rcases tryPopSignalLease_cases inner signal world.state now with
    ⟨wait, drained, idle⟩ | ⟨front, taken, rest, formed, popped⟩
  · simp only [idle, Option.toList_none, List.map_nil, List.append_nil]
    have stay := Transition.stay sound.accounted
    rw [sound.inflightLeases] at stay
    exact ⟨[], sound.shrink stay sound.capacity (List.Sublist.refl _) (List.Sublist.refl _) (fun _ => id) (by simp)⟩
  · simp only [popped, Option.toList_some, List.map_cons, List.map_nil]
    have leased := Transition.lease sound.accounted formed.queue
    have live : liveValues (world.leases ++ [{ value := leaseOf inner signal now front taken }]) =
        world.liveLeases ++ [leaseOf inner signal now front taken] := liveValues_append _ _
    have counted : (liveValues (world.leases ++ [{ value := leaseOf inner signal now front taken }])).length =
        world.state.ring.inflightLeases + 1 := by
      rw [live, sound.inflightLeases]
      simp
    have reordered : ((front :: taken).map (·.leasedMeta) ++ world.liveLeased).Perm
        ((liveValues (world.leases ++ [{ value := leaseOf inner signal now front taken }])).flatMap
          (·.leased)) := by
      rw [live, List.flatMap_append, List.flatMap_singleton]
      exact List.perm_append_comm
    refine ⟨[],
      { transition := ⟨leased.accounted.perm (List.Perm.refl _) reordered, leased.evolves,
          leased.inflightLeases.trans counted.symm⟩
        capacity := counted.trans_le formed.capacity
        wellFormed := ?_
        goneLeases := ?_
        goneReservations := fun held member discarded =>
          leased.evolves.gone (sound.goneReservations held member discarded)
        distinct := sound.pop_distinct formed inner signal
        outcomes := fun _ => id
        settled := by simp }⟩
    · intro held member
      rcases List.mem_append.mp member with old | new
      · exact sound.wellFormed held old
      · rw [List.mem_singleton.mp new]
        exact leaseOf_wellFormed formed sound.accounted.balanced.ascending inner signal
    · intro held member discarded
      rcases List.mem_append.mp member with old | new
      · exact fun item listed => leased.evolves.gone (sound.goneLeases held old discarded item listed)
      · rw [List.mem_singleton.mp new] at discarded
        cases discarded

theorem Sound.relabel {inner : BufferInner} {after : SignalRingState Batch}
    (sound : Sound inner.config origin world) (update : Lease Batch → Lease Batch)
    (ring : after.ring = world.state.ring) (committed : after.committedSeq = world.state.committedSeq)
    (leased : ∀ lease : Lease Batch, (update lease).leased = lease.leased)
    (wellFormed : ∀ lease : Lease Batch, lease.WellFormed → (update lease).WellFormed) :
    Advance inner.config world
      { world with
        state := after
        leases := world.leases.map fun held => { held with value := update held.value } } [] := by
  have live : liveValues (world.leases.map fun held => { held with value := update held.value }) =
      world.liveLeases.map update := by
    simp [liveValues, liveLeases, List.filter_map, Function.comp_def]
  have items : ((liveValues (world.leases.map fun held => { held with value := update held.value })).flatMap
      (·.leased)) = world.liveLeased := by
    simp [live, liveLeased, List.flatMap_map, leased]
  have counted : (liveValues (world.leases.map fun held => { held with value := update held.value })).length =
      world.state.ring.inflightLeases := by
    rw [live, List.length_map, sound.inflightLeases]
  have moved := Transition.same sound.accounted ring committed
  refine
    { transition := ⟨moved.accounted.perm (List.Perm.refl _) (List.Perm.of_eq items.symm), moved.evolves,
        moved.inflightLeases.trans counted.symm⟩
      capacity := counted.trans_le (sound.inflightLeases.trans_le sound.capacity)
      wellFormed := ?_
      goneLeases := ?_
      goneReservations := fun held member discarded =>
        moved.evolves.gone (sound.goneReservations held member discarded)
      distinct := by simpa [List.flatMap_map, leased] using sound.distinct
      outcomes := fun _ => id
      settled := by simp }
  · intro held member
    obtain ⟨old, listed, rfl⟩ := List.mem_map.mp member
    exact wellFormed _ (sound.wellFormed old listed)
  · intro held member discarded item listed
    obtain ⟨old, oldMember, rfl⟩ := List.mem_map.mp member
    simp only [leased] at listed
    exact moved.evolves.gone (sound.goneLeases old oldMember discarded item listed)

theorem Sound.quarantineRows {inner : BufferInner} (sound : Sound inner.config origin world) (firstSeq rows : Nat) :
    ∃ departed, Advance inner.config world
      { world with
        state := { world.state with deadLetterDrops := world.state.deadLetterDrops + rows }
        leases := world.leases.map fun held =>
          if held.value.id.firstSeq = firstSeq then
            { held with value := { held.value with quarantinedRows := held.value.quarantinedRows + rows } }
          else held } departed := by
  have written : (fun held : Held (Lease Batch) =>
      if held.value.id.firstSeq = firstSeq then
        { held with value := { held.value with quarantinedRows := held.value.quarantinedRows + rows } }
      else held) = fun held => { held with value := if held.value.id.firstSeq = firstSeq then
        { held.value with quarantinedRows := held.value.quarantinedRows + rows } else held.value } := by
    funext held
    split <;> rfl
  rw [written]
  refine ⟨[], sound.relabel (fun lease => if lease.id.firstSeq = firstSeq then
    { lease with quarantinedRows := lease.quarantinedRows + rows } else lease) rfl rfl ?_ ?_⟩
  · intro lease
    split <;> rfl
  · intro lease holds
    split
    · exact ⟨holds.nonempty, holds.paired, holds.contiguous, holds.last⟩
    · exact holds

theorem liveValues_discardHeld {α : Type} (held : List (Held α)) : liveValues (discardHeld held) = [] := by
  simp [liveValues, discardHeld]

theorem Sound.discard (sound : Sound config origin world) :
    Advance config world
      { world with
        state := discardRemaining world.state
        leases := discardHeld world.leases
        reservations := discardHeld world.reservations
        outcomes := world.outcomes ++ settle world.state.ring world.state.ring.slots.keys .discarded }
      world.state.ring.slots.keys := by
  have cleared := Transition.discard sound.accounted
  have emptied : ∀ seq, seq ∉ (discardRemaining world.state).ring.slots := fun seq =>
    ExtTreeMap.not_mem_empty
  have next : (discardRemaining world.state).ring.nextSeq = world.state.ring.nextSeq := rfl
  refine
    { transition := ⟨cleared.accounted.perm ?_ ?_, cleared.evolves, ?_⟩
      capacity := by simp [liveLeases, liveValues_discardHeld]
      wellFormed := ?_
      goneLeases := ?_
      goneReservations := ?_
      distinct := by simpa [discardHeld, List.flatMap_map] using sound.distinct
      outcomes := fun entry => List.mem_append_left _
      settled := ?_ }
  · simp [liveReservations, liveValues_discardHeld]
  · simp [liveLeased, liveLeases, liveValues_discardHeld]
  · simp [cleared.inflightLeases, liveLeases, liveValues_discardHeld]
  · intro held member
    obtain ⟨old, listed, rfl⟩ := List.mem_map.mp member
    exact sound.wellFormed old listed
  · intro held member _ item leased
    obtain ⟨old, listed, rfl⟩ := List.mem_map.mp member
    refine ⟨emptied _, ?_⟩
    rw [next]
    cases discarded : old.discarded
    · refine sound.accounted.balanced.belowNext _ ?_
      rw [ExtTreeMap.mem_iff_isSome_getElem?, sound.live_slot listed discarded leased]
      rfl
    · exact (sound.goneLeases old listed discarded item leased).2
  · intro held member _
    obtain ⟨old, listed, rfl⟩ := List.mem_map.mp member
    refine ⟨emptied _, ?_⟩
    rw [next]
    cases discarded : old.discarded
    · refine sound.accounted.balanced.belowNext _ ?_
      have live : old.value ∈ world.liveReservations := mem_liveValues.mpr ⟨old, listed, discarded, rfl⟩
      rw [ExtTreeMap.mem_iff_isSome_getElem?, sound.accounted.balanced.reserved_mem live]
      rfl
    · exact (sound.goneReservations old listed discarded).2
  · intro seq member
    rw [List.map_append]
    exact List.mem_append_right _ (mem_settle.mpr ⟨member, ExtTreeMap.mem_keys.mp member⟩)

theorem Sound.flags {after : SignalRingState Batch} {closed dropped : Bool} {fatal : Option String}
    (sound : Sound config origin world)
    (ring : after.ring = { world.state.ring with
      closed := closed, receiverDropped := dropped, fatalError := fatal })
    (committed : after.committedSeq = world.state.committedSeq) :
    ∃ departed, Advance config world { world with state := after } departed := by
  have moved := Transition.flags sound.accounted ring committed
  rw [sound.inflightLeases] at moved
  exact ⟨[], sound.shrink moved sound.capacity (List.Sublist.refl _) (List.Sublist.refl _) (fun _ => id) (by simp)⟩

theorem Sound.step {inner : BufferInner} {signal : SignalKind} {action : RingAction Batch}
    (sound : Sound inner.config origin world) (stepped : step inner signal world action = some next) :
    ∃ departed, Advance inner.config world next departed := by
  cases action with
  | enqueue batch now =>
    obtain ⟨numbered, rfl⟩ := step_enqueue stepped
    exact sound.admitBatch numbered now (by simp)
  | reserve frameBytesLen batchRows rows schema now =>
    obtain ⟨numbered, rfl⟩ := step_reserve stepped
    exact sound.admitBatch numbered now fun _ seqId => ⟨_, rfl, rfl, rfl, rfl⟩
  | finish seqId result now =>
    obtain ⟨⟨reservation, others⟩, taken, rfl⟩ := Option.map_eq_some_iff.mp stepped
    exact sound.finish taken result now
  | dropReservation seqId =>
    obtain ⟨⟨reservation, others⟩, taken, rfl⟩ := Option.map_eq_some_iff.mp stepped
    exact sound.dropReservation taken
  | pop now =>
    cases stepped
    exact sound.pop signal now
  | quarantineRows firstSeq rows =>
    obtain ⟨_, _, rfl⟩ := Option.map_eq_some_iff.mp stepped
    exact sound.quarantineRows firstSeq rows
  | ack firstSeq persisted =>
    obtain ⟨⟨lease, others⟩, taken, rfl⟩ := Option.map_eq_some_iff.mp stepped
    exact sound.ack taken persisted
  | nack firstSeq failure now nowMs deadLetter persisted =>
    obtain ⟨⟨lease, others⟩, taken, rfl⟩ := Option.map_eq_some_iff.mp stepped
    exact sound.nack taken failure now nowMs deadLetter persisted
  | dropLease firstSeq now nowMs =>
    obtain ⟨⟨lease, others⟩, taken, rfl⟩ := Option.map_eq_some_iff.mp stepped
    exact sound.requeue taken (SameBatches.stamped lease.leased now) rfl rfl rfl rfl
  | storageFailure reason =>
    cases stepped
    exact sound.flags rfl rfl
  | advanceWatermark =>
    cases stepped
    have moved := Transition.advanceWatermark sound.accounted
    rw [sound.inflightLeases] at moved
    exact ⟨[], sound.shrink moved sound.capacity (List.Sublist.refl _) (List.Sublist.refl _) (fun _ => id) (by simp)⟩
  | discard =>
    cases stepped
    exact ⟨_, sound.discard⟩
  | closeSenders =>
    cases stepped
    exact sound.flags rfl rfl
  | dropReceiver =>
    cases stepped
    exact sound.flags rfl rfl
  | setBlockedSenders count =>
    cases stepped
    exact sound.flags rfl rfl

theorem Sound.run {inner : BufferInner} {signal : SignalKind}
    {permitted : RingWorld Batch → RingAction Batch → Prop} {start : RingWorld Batch}
    (sound : Sound inner.config origin start) (run : Run (RingWorld.step inner signal) permitted start world) :
    Sound inner.config origin world := by
  refine run.invariant (Sound inner.config origin) sound ?_
  intro before action after sound _ stepped
  obtain ⟨departed, advance⟩ := sound.step stepped
  exact advance.sound sound

end RingWorld

end OtelDatalake.Buffer
