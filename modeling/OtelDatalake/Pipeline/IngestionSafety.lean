import OtelDatalake.Buffer.CancelSafety
import OtelDatalake.Pipeline.Ingestion

open Std OtelDatalake.Foundation OtelDatalake.Core OtelDatalake.Codec OtelDatalake.Buffer

namespace OtelDatalake.Pipeline

section Stock

variable {Batch : Type} [Buffer.RecordBatch Batch] {inner : BufferInner} {signal : SignalKind} {config : BufferConfig}
  {origin : SignalRing Batch} {ring next : RingWorld Batch} {action : RingAction Batch}
  {entry : Nat × BatchPayload Batch}

theorem mem_stock :
    entry ∈ ring.stock ↔ (∃ held ∈ ring.leases, entry ∈ held.value.entries) ∨
      ∃ item ∈ ring.state.ring.queue, item.entry = entry := by
  simp [RingWorld.stock]

theorem retried_entries {lease : Lease Batch} {items : List (QueuedBatch Batch)}
    (retried : ring.retried inner action = some (lease, items)) :
    (∃ held ∈ ring.leases, held.value = lease) ∧ items.map (·.entry) = lease.entries := by
  cases action with
  | nack firstSeq failure now nowMs deadLetter persisted =>
    simp only [RingWorld.retried, Option.bind_eq_some_iff, Option.map_eq_some_iff, Prod.mk.injEq] at retried
    obtain ⟨⟨found, others⟩, taken, built, disposed, rfl, rfl⟩ := retried
    have keeps := found.disposition_keeps inner ring.state failure now nowMs deadLetter
    refine ⟨(takeHeld_eq_some taken).2.2.1, ?_⟩
    cases disposition : found.disposition inner ring.state failure now nowMs deadLetter with
    | requeue leased nextAttempt readyAt =>
      rw [disposition] at disposed keeps
      cases disposed
      exact putBack_entries keeps nextAttempt readyAt
    | fail leased reason =>
      rw [disposition] at disposed
      cases disposed
    | quarantine =>
      rw [disposition] at disposed
      cases disposed
  | dropLease firstSeq now nowMs =>
    simp only [RingWorld.retried, Option.map_eq_some_iff, Prod.mk.injEq] at retried
    obtain ⟨⟨found, others⟩, taken, rfl, rfl⟩ := retried
    exact ⟨(takeHeld_eq_some taken).2.2.1, putBack_entries (SameBatches.stamped _ _) _ _⟩
  | _ => cases retried

theorem stock_of_step (sound : RingWorld.Sound config origin ring) (unreserved : ring.reservations = [])
    (stepped : ring.step inner signal action = some next) (silent : RingWorld.admits action = false)
    (member : entry ∈ next.stock) : entry ∈ ring.stock := by
  rw [mem_stock] at member ⊢
  rcases member with ⟨held, listed, inside⟩ | ⟨item, listed, rfl⟩
  · rcases RingWorld.step_leases stepped listed with ⟨old, kept, payloads, leased, _⟩ | ⟨now, rfl, popped⟩
    · refine .inl ⟨old, kept, ?_⟩
      rwa [Lease.entries, payloads, leased]
    · rcases tryPopSignalLease_cases inner signal ring.state now with
        ⟨_, _, idle⟩ | ⟨front, taken, rest, formed, leased⟩
      · rw [idle] at popped
        cases popped
      · rw [leased, Option.some.injEq] at popped
        rw [← popped, leaseOf_entries] at inside
        obtain ⟨item, here, same⟩ := List.mem_map.mp inside
        refine .inr ⟨item, ?_, same⟩
        rw [formed.queue]
        exact List.mem_append_left _ here
  · rcases sound.arrives stepped listed with old | arrived
    · exact .inr ⟨item, old, rfl⟩
    · cases arrived with
      | enqueued => cases silent
      | finished taken =>
        rw [RingWorld.takeReservation, unreserved] at taken
        cases taken
      | retried retried here =>
        obtain ⟨⟨held, kept, rfl⟩, entries⟩ := retried_entries retried
        exact .inl ⟨held, kept, entries ▸ List.mem_map_of_mem here⟩
      | failed taken same here =>
        obtain ⟨held, kept, rfl⟩ := (takeHeld_eq_some taken).2.2.1
        exact .inl ⟨held, kept, putBack_entries same 0 none ▸ List.mem_map_of_mem here⟩

theorem enqueue_stock {batch : Batch} {now : Instant} (stepped : ring.step inner signal (.enqueue batch now) = some next)
    (member : entry ∈ next.stock) :
    entry ∈ ring.stock ∨ (reserveOrEnqueueSlot inner.config ring.state (Buffer.RecordBatch.arrayMemorySize batch)
        (Buffer.RecordBatch.numRows batch) (some batch) now).2.1 = .enqueued ∧
      entry = (ring.state.ring.nextSeq, .inMemory batch) := by
  rw [mem_stock] at member ⊢
  obtain ⟨_, rfl⟩ := RingWorld.step_enqueue stepped
  rcases member with held | ⟨item, listed, rfl⟩
  · exact .inl (.inl held)
  · obtain ⟨kept, behind, ⟨_, queue, _⟩ | ⟨accepted, _, queue⟩⟩ :=
      reserveOrEnqueueSlot_suffix inner.config ring.state (Buffer.RecordBatch.arrayMemorySize batch)
        (Buffer.RecordBatch.numRows batch)
        batch now
    · rw [RingWorld.admitBatch, queue] at listed
      exact .inl (.inr ⟨item, behind.subset listed, rfl⟩)
    · rw [RingWorld.admitBatch, queue] at listed
      rcases List.mem_append.mp listed with old | new
      · exact .inl (.inr ⟨item, behind.subset old, rfl⟩)
      · rw [List.mem_singleton.mp new]
        exact .inr ⟨accepted, rfl⟩

theorem enqueue_nextSeq {batch : Batch} {now : Instant}
    (stepped : ring.step inner signal (.enqueue batch now) = some next) :
    next.state.ring.nextSeq = ring.state.ring.nextSeq + if (reserveOrEnqueueSlot inner.config ring.state
      (Buffer.RecordBatch.arrayMemorySize batch) (Buffer.RecordBatch.numRows batch) (some batch) now).2.1 =
      .enqueued then 1 else 0 := by
  obtain ⟨numbered, rfl⟩ := RingWorld.step_enqueue stepped
  obtain ⟨_, _, ⟨refused, _, number⟩ | ⟨accepted, number, _⟩⟩ :=
    reserveOrEnqueueSlot_suffix inner.config ring.state (Buffer.RecordBatch.arrayMemorySize batch)
      (Buffer.RecordBatch.numRows batch)
      batch now
  · rw [if_neg refused]
    exact number
  · rw [if_pos accepted, ← saturatingSucc_of_lt numbered]
    exact number

end Stock

namespace IngestWorld

variable {Request Batch : Type} [Buffer.RecordBatch Batch] {endpoint : Endpoint Request Batch} {inner : BufferInner}
  {signal : SignalKind} {world next : IngestWorld Request Batch} {index : Nat} {call : ExportCall Request Batch}
  {batch : Batch}

/-- The handler has answered that it took a batch with rows. -/
def Accepts (world : IngestWorld Request Batch) (index : Nat) (batch : Batch) : Prop :=
  0 < Buffer.RecordBatch.numRows batch ∧
    ∃ call, world.calls[index]? = some call ∧ call.phase = .replied .ok ∧ call.batch = some batch

/-- The batch of a handler is what its request decodes to, and a handler that sends has one with rows. -/
structure Handling (endpoint : Endpoint Request Batch) (call : ExportCall Request Batch) : Prop where
  converted : ∀ batch ∈ call.batch, ∃ join, endpoint.convert call.arrival join = .ok batch
  fresh : call.phase = .decoding → call.batch = none
  sending : call.phase = .sending → ∃ batch ∈ call.batch, 0 < Buffer.RecordBatch.numRows batch

/-- What has been sent is forwarded, lost, held by the transformer or still queued, in this order. -/
structure Conserved (endpoint : Endpoint Request Batch) (world : IngestWorld Request Batch) : Prop where
  fifo : world.forwarded ++ world.lost ++ world.transformer.hand ++ world.channel.queue = world.sent
  accepted : ∀ index batch, (index, batch) ∈ world.sent ↔ world.Accepts index batch
  distinct : (world.sent.map Prod.fst).Nodup
  handling : ∀ call ∈ world.calls, Handling endpoint call
  closed : world.channel.closed = !world.transformer.running
  kept : world.transformer.running = true → world.lost = []
  clean : world.transformer = .returned (.ok ()) → world.lost = [] ∧ world.senderLeft = false

/-- The ring numbers the batches in the order in which they were forwarded, and holds them under their numbers. -/
structure Stored (config : BufferConfig) (world : IngestWorld Request Batch) : Prop where
  sound : RingWorld.Sound config ({} : SignalRing Batch) world.ring
  unreserved : world.ring.reservations = []
  numbered : world.ring.state.ring.nextSeq = world.forwarded.length + 1
  stock : ∀ entry ∈ world.ring.stock, 0 < entry.1 ∧ ∃ index batch,
    world.forwarded[entry.1 - 1]? = some (index, batch) ∧ entry.2 = .inMemory batch

theorem callAt_eq_some {phase : CallPhase} :
    world.callAt index phase = some call ↔ world.calls[index]? = some call ∧ call.phase = phase := by
  simp [callAt, Option.filter_eq_some_iff]

theorem getElem?_setCall {new : ExportCall Request Batch} (found : world.calls[index]? = some call) (other : Nat) :
    (world.setCall index new).calls[other]? = if other = index then some new else world.calls[other]? := by
  by_cases same : other = index
  · subst same
    rw [if_pos rfl, setCall, List.getElem?_set_self (List.getElem?_eq_some_iff.mp found).1]
  · rw [if_neg same, setCall, List.getElem?_set_ne (Ne.symm same)]

theorem senderLeft_eq_false : world.senderLeft = false ↔
    world.sourceRunning = false ∧ ∀ call ∈ world.calls, call.phase ≠ .decoding ∧ call.phase ≠ .sending := by
  simp [senderLeft]

theorem mem_setCall {new other : ExportCall Request Batch} (member : other ∈ (world.setCall index new).calls) :
    other ∈ world.calls ∨ other = new := List.mem_or_eq_of_mem_set member

theorem accepts_setCall {new : ExportCall Request Batch} (found : world.calls[index]? = some call)
    (waiting : call.phase = .decoding ∨ call.phase = .sending) (other : Nat) (batch : Batch) :
    (world.setCall index new).Accepts other batch ↔ world.Accepts other batch ∨
      (0 < Buffer.RecordBatch.numRows batch ∧ other = index ∧ new.phase = .replied .ok ∧ new.batch = some batch) := by
  have unanswered : ¬call.phase = .replied .ok := by
    rcases waiting with waiting | waiting <;> simp [waiting]
  simp only [Accepts, getElem?_setCall found]
  by_cases same : other = index
  · subst same
    simp [found, unanswered]
  · simp [same]

theorem Conserved.setCall {new : ExportCall Request Batch} (conserved : Conserved endpoint world)
    (found : world.calls[index]? = some call) (waiting : call.phase = .decoding ∨ call.phase = .sending)
    (handling : Handling endpoint new)
    (silent : new.phase = .replied .ok → ∀ batch ∈ new.batch, Buffer.RecordBatch.numRows batch = 0) :
    Conserved endpoint (world.setCall index new) where
  fifo := conserved.fifo
  accepted other batch := by
    rw [accepts_setCall found waiting, ← conserved.accepted]
    refine ⟨.inl, ?_⟩
    rintro (sent | ⟨rows, _, phase, own⟩)
    · exact sent
    · have none := silent phase batch own
      omega
  distinct := conserved.distinct
  handling other member := by
    rcases mem_setCall member with old | rfl
    · exact conserved.handling other old
    · exact handling
  closed := conserved.closed
  kept := conserved.kept
  clean ended := by
    obtain ⟨empty, left⟩ := conserved.clean ended
    obtain ⟨decoding, sending⟩ := (senderLeft_eq_false.mp left).2 call (List.mem_of_getElem? found)
    rcases waiting with waiting | waiting
    · exact absurd waiting decoding
    · exact absurd waiting sending

theorem Conserved.arrive {arrival : Arrival Request} (conserved : Conserved endpoint world)
    (running : world.sourceRunning = true) :
    Conserved endpoint { world with calls := world.calls ++ [{ arrival := arrival }] } where
  fifo := conserved.fifo
  accepted index batch := by
    rw [conserved.accepted]
    simp only [Accepts, List.getElem?_append]
    by_cases inside : index < world.calls.length
    · rw [if_pos inside]
    · rw [if_neg inside, List.getElem?_eq_none (Nat.not_lt.mp inside)]
      simp only [List.getElem?_singleton]
      split <;> simp
  distinct := conserved.distinct
  handling call member := by
    rcases List.mem_append.mp member with old | fresh
    · exact conserved.handling call old
    · rw [List.mem_singleton.mp fresh]
      exact ⟨by simp, fun _ => rfl, by simp⟩
  closed := conserved.closed
  kept := conserved.kept
  clean ended := by
    have stopped := (senderLeft_eq_false.mp (conserved.clean ended).2).1
    rw [running] at stopped
    cases stopped

theorem handling_decoded (endpoint : Endpoint Request Batch) (join : Join) (fresh : call.batch = none) :
    Handling endpoint (call.decoded (endpoint.convert call.arrival join)) ∧
      ((call.decoded (endpoint.convert call.arrival join)).phase = .replied .ok →
        ∀ batch ∈ (call.decoded (endpoint.convert call.arrival join)).batch, Buffer.RecordBatch.numRows batch = 0) := by
  cases converted : endpoint.convert call.arrival join with
  | error reply =>
    exact ⟨⟨by simp [ExportCall.decoded, fresh], by simp [ExportCall.decoded], by simp [ExportCall.decoded]⟩,
      by simp [ExportCall.decoded, fresh]⟩
  | ok batch =>
    by_cases rows : Buffer.RecordBatch.numRows batch > 0
    · simp only [ExportCall.decoded, if_pos rows]
      refine ⟨⟨?_, by simp, fun _ => ⟨batch, rfl, rows⟩⟩, by simp⟩
      rintro other same
      cases same
      exact ⟨join, converted⟩
    · simp only [ExportCall.decoded, if_neg rows]
      refine ⟨⟨?_, by simp, by simp⟩, ?_⟩
      · rintro other same
        cases same
        exact ⟨join, converted⟩
      · rintro _ other same
        cases same
        omega

theorem Conserved.send {channel : Foundation.Channel (Nat × Batch)} (conserved : Conserved endpoint world)
    (found : world.calls[index]? = some call) (sending : call.phase = .sending) (own : call.batch = some batch)
    (taken : world.channel.send (index, batch) = some channel) :
    Conserved endpoint (IngestWorld.setCall
      { world with channel := channel, sent := world.sent ++ [(index, batch)] } index
      { call with phase := .replied .ok }) := by
  obtain ⟨unclosed, _, queue, unclosed', _⟩ := Foundation.Channel.send_eq_some taken
  have running : world.transformer.running = true := by
    have closed := conserved.closed
    rw [unclosed] at closed
    simpa using closed
  have handled := conserved.handling call (List.mem_of_getElem? found)
  obtain ⟨same, listed, rows⟩ := handled.sending sending
  rw [own, Option.mem_some_iff] at listed
  subst listed
  have unsent : ∀ other, (index, other) ∉ world.sent := by
    intro other member
    obtain ⟨_, named, listed, phase, _⟩ := (conserved.accepted index other).mp member
    rw [found, Option.some.injEq] at listed
    rw [← listed, sending] at phase
    cases phase
  refine ⟨?_, fun other named => ?_, ?_, ?_, ?_, conserved.kept, ?_⟩
  · change world.forwarded ++ world.lost ++ world.transformer.hand ++ channel.queue = world.sent ++ [(index, batch)]
    rw [queue, ← List.append_assoc, conserved.fifo]
  · change (other, named) ∈ world.sent ++ [(index, batch)] ↔
      (world.setCall index { call with phase := .replied .ok }).Accepts other named
    rw [accepts_setCall found (.inr sending), List.mem_append, conserved.accepted, List.mem_singleton, Prod.mk.injEq]
    refine or_congr_right ⟨?_, ?_⟩
    · rintro ⟨rfl, rfl⟩
      exact ⟨rows, rfl, rfl, own⟩
    · rintro ⟨_, rfl, _, listed⟩
      exact ⟨rfl, Option.some.inj (listed.symm.trans own)⟩
  · change ((world.sent ++ [(index, batch)]).map Prod.fst).Nodup
    rw [List.map_append, List.nodup_append]
    refine ⟨conserved.distinct, List.nodup_singleton _, ?_⟩
    intro tag member other single
    rw [List.mem_singleton.mp single]
    rintro rfl
    obtain ⟨⟨_, held⟩, listed, rfl⟩ := List.mem_map.mp member
    exact unsent held listed
  · intro other member
    rcases mem_setCall member with old | rfl
    · exact conserved.handling other old
    · exact ⟨handled.converted, by simp, by simp⟩
  · change channel.closed = !world.transformer.running
    rw [unclosed', running]
    rfl
  · intro ended
    have stopped : world.transformer.running = false := by
      change world.transformer = .returned (.ok ()) at ended
      rw [ended]
      rfl
    rw [running] at stopped
    cases stopped

theorem Conserved.recv {received : (Nat × Batch) × Foundation.Channel (Nat × Batch)} (conserved : Conserved endpoint world)
    (receiving : world.transformer = .receiving) (taken : world.channel.recv = some received) :
    Conserved endpoint { world with channel := received.2, transformer := .sending received.1 } := by
  have pair : world.channel.recv = some (received.1, received.2) := taken
  obtain ⟨queue, closed, _⟩ := Foundation.Channel.recv_eq_some pair
  have fifo := conserved.fifo
  have open' := conserved.closed
  have kept := conserved.kept
  rw [receiving] at fifo open' kept
  refine ⟨?_, conserved.accepted, conserved.distinct, conserved.handling, closed.trans open', kept, by simp⟩
  rw [queue] at fifo
  simpa [TransformerPhase.hand] using fifo

theorem Conserved.stop {phase : TransformerPhase Batch} (conserved : Conserved endpoint world)
    (running : world.transformer.running = true) (ended : phase.running = false)
    (clean : phase = .returned (.ok ()) → world.transformer.hand = [] ∧ world.channel.queue = [] ∧
      world.senderLeft = false) : Conserved endpoint (world.stopTransformer phase) := by
  have empty : phase.hand = [] := by
    cases phase with
    | receiving | sending entry => cases ended
    | _ => rfl
  refine ⟨?_, conserved.accepted, conserved.distinct, conserved.handling, ?_, ?_, ?_⟩
  · have fifo := conserved.fifo
    simp only [stopTransformer, Foundation.Channel.close, empty, List.append_nil]
    rw [← fifo]
    simp only [List.append_assoc]
  · simp only [stopTransformer, Foundation.Channel.close, ended]
    rfl
  · intro still
    change phase.running = true at still
    rw [ended] at still
    cases still
  · intro well
    obtain ⟨hand, queue, left⟩ := clean well
    refine ⟨?_, left⟩
    simp only [stopTransformer, conserved.kept running, hand, queue, List.append_nil]

theorem Conserved.enqueued {entry : Nat × Batch} {ring : RingWorld Batch} (conserved : Conserved endpoint world)
    (sending : world.transformer = .sending entry) :
    Conserved endpoint
      { world with ring := ring, transformer := .receiving, forwarded := world.forwarded ++ [entry] } := by
  have fifo := conserved.fifo
  have open' := conserved.closed
  have kept := conserved.kept
  rw [sending] at fifo open' kept
  refine ⟨?_, conserved.accepted, conserved.distinct, conserved.handling, open', kept, by simp⟩
  rw [kept rfl] at fifo ⊢
  simpa [TransformerPhase.hand] using fifo

theorem Conserved.ring {ring : RingWorld Batch} (conserved : Conserved endpoint world) :
    Conserved endpoint { world with ring := ring } :=
  ⟨conserved.fifo, conserved.accepted, conserved.distinct, conserved.handling, conserved.closed, conserved.kept,
    conserved.clean⟩

theorem Stored.ring {config : BufferConfig} {ring : RingWorld Batch} {action : RingAction Batch}
    (stored : Stored config world) (same : config = inner.config)
    (taken : world.ring.step inner signal action = some ring) (silent : RingWorld.admits action = false) :
    Stored config { world with ring := ring } := by
  subst same
  obtain ⟨_, advance⟩ := stored.sound.step taken
  refine ⟨advance.sound stored.sound, ?_, (RingWorld.step_nextSeq taken silent).trans stored.numbered, ?_⟩
  · rw [List.eq_nil_iff_forall_not_mem]
    intro held member
    rcases RingWorld.step_reservations taken member with ⟨old, listed, _⟩ | ⟨_, _, _, _, _, rfl, _⟩
    · rw [stored.unreserved] at listed
      cases listed
    · cases silent
  · exact fun entry member => stored.stock entry (stock_of_step stored.sound stored.unreserved taken silent member)

theorem Stored.enqueue {ring : RingWorld Batch} {entry : Nat × Batch} {now : Instant} (stored : Stored inner.config world)
    (taken : world.ring.step inner signal (.enqueue entry.2 now) = some ring) :
    Stored inner.config
      { world with
        ring := ring
        forwarded := world.forwarded ++ if (reserveOrEnqueueSlot inner.config world.ring.state
          (Buffer.RecordBatch.arrayMemorySize entry.2) (Buffer.RecordBatch.numRows entry.2)
          (some entry.2) now).2.1 = .enqueued
          then [entry] else [] } := by
  obtain ⟨_, advance⟩ := stored.sound.step taken
  refine ⟨advance.sound stored.sound, ?_, ?_, ?_⟩
  · rw [List.eq_nil_iff_forall_not_mem]
    intro held member
    rcases RingWorld.step_reservations taken member with ⟨old, listed, _⟩ | ⟨_, _, _, _, _, same, _⟩
    · rw [stored.unreserved] at listed
      cases listed
    · cases same
  · rw [enqueue_nextSeq taken, stored.numbered, List.length_append]
    split <;> simp
  · intro held member
    rcases enqueue_stock taken member with old | ⟨accepted, rfl⟩
    · obtain ⟨positive, index, batch, found, payload⟩ := stored.stock held old
      refine ⟨positive, index, batch, ?_, payload⟩
      rw [List.getElem?_append_left (List.getElem?_eq_some_iff.mp found).1]
      exact found
    · rw [stored.numbered, if_pos accepted]
      exact ⟨Nat.succ_pos _, entry.1, entry.2, by simp, rfl⟩

theorem Stored.same {config : BufferConfig} (stored : Stored config world) (ring : next.ring = world.ring)
    (forwarded : next.forwarded = world.forwarded) : Stored config next := by
  refine ⟨ring ▸ stored.sound, ring ▸ stored.unreserved, ?_, fun entry member => ?_⟩
  · rw [ring, forwarded]
    exact stored.numbered
  · rw [forwarded]
    exact stored.stock entry (ring ▸ member)

theorem forward_keeps {inner : MemoryInner} {entry : Nat × Batch} {now : Instant} (conserved : Conserved endpoint world)
    (stored : Stored inner.config world) (sending : world.transformer = .sending entry)
    (stepped : world.forward inner signal entry now = some next) :
    Conserved endpoint next ∧ Stored inner.config next := by
  have running : world.transformer.running = true := by
    rw [sending]
    rfl
  have failed : ∀ ring, Conserved endpoint
      (stopTransformer { world with ring := ring } (.returned (.error .downstreamClosed))) := by
    intro ring
    have kept : Conserved endpoint { world with ring := ring } := conserved.ring
    exact kept.stop running rfl (by simp)
  simp only [forward] at stepped
  split at stepped
  · cases stepped
    exact ⟨failed world.ring, stored.same rfl rfl⟩
  · obtain ⟨ring, taken, rfl⟩ := Option.map_eq_some_iff.mp stepped
    have moved := stored.enqueue taken
    split
    · rename_i accepted
      rw [if_pos accepted] at moved
      exact ⟨conserved.enqueued sending, moved.same rfl rfl⟩
    · rename_i refused
      rw [refused, if_neg (by simp), List.append_nil] at moved
      exact ⟨conserved.ring, moved⟩
    · rename_i refused
      rw [refused, if_neg (by simp), List.append_nil] at moved
      exact ⟨conserved.ring, moved⟩
    · rename_i refused
      rw [refused, if_neg (by simp), List.append_nil] at moved
      exact ⟨failed ring, moved.same rfl rfl⟩
    · rename_i refused
      rw [refused, if_neg (by simp), List.append_nil] at moved
      exact ⟨failed ring, moved.same rfl rfl⟩

theorem step_keeps {inner : MemoryInner} {action : IngestAction Request Batch} (conserved : Conserved endpoint world)
    (stored : Stored inner.config world) (stepped : step endpoint inner signal world action = some next) :
    Conserved endpoint next ∧ Stored inner.config next := by
  cases action with
  | arrive arrival =>
    simp only [step] at stepped
    split at stepped
    · rename_i running
      cases stepped
      exact ⟨conserved.arrive running, stored.same rfl rfl⟩
    · cases stepped
  | decode index join =>
    obtain ⟨call, found, rfl⟩ := Option.map_eq_some_iff.mp stepped
    obtain ⟨located, decoding⟩ := callAt_eq_some.mp found
    have fresh := (conserved.handling call (List.mem_of_getElem? located)).fresh decoding
    obtain ⟨handling, silent⟩ := handling_decoded endpoint join fresh
    exact ⟨conserved.setCall located (.inl decoding) handling silent, stored.same rfl rfl⟩
  | send index =>
    obtain ⟨call, found, rest⟩ := Option.bind_eq_some_iff.mp stepped
    obtain ⟨batch, own, rest⟩ := Option.bind_eq_some_iff.mp rest
    obtain ⟨channel, taken, rfl⟩ := Option.map_eq_some_iff.mp rest
    obtain ⟨located, sending⟩ := callAt_eq_some.mp found
    exact ⟨conserved.send located sending own taken, stored.same rfl rfl⟩
  | refuse index =>
    obtain ⟨call, found, rest⟩ := Option.bind_eq_some_iff.mp stepped
    obtain ⟨located, sending⟩ := callAt_eq_some.mp found
    split at rest
    · cases rest
      have handled := conserved.handling call (List.mem_of_getElem? located)
      refine ⟨conserved.setCall located (.inr sending) ⟨handled.converted, by simp, by simp⟩ ?_, stored.same rfl rfl⟩
      intro phase
      cases arrival : call.arrival <;> simp [Endpoint.closedReply, arrival] at phase
    · cases rest
  | cancel index =>
    obtain ⟨call, found, rfl⟩ := Option.map_eq_some_iff.mp stepped
    have located : world.calls[index]? = some call ∧ (call.phase = .decoding ∨ call.phase = .sending) := by
      rcases Option.or_eq_some_iff.mp found with first | ⟨_, second⟩
      · exact ⟨(callAt_eq_some.mp first).1, .inl (callAt_eq_some.mp first).2⟩
      · exact ⟨(callAt_eq_some.mp second).1, .inr (callAt_eq_some.mp second).2⟩
    have handled := conserved.handling call (List.mem_of_getElem? located.1)
    exact ⟨conserved.setCall located.1 located.2 ⟨handled.converted, by simp, by simp⟩ (by simp),
      stored.same rfl rfl⟩
  | stopSource =>
    cases stepped
    refine ⟨⟨conserved.fifo, conserved.accepted, conserved.distinct, conserved.handling, conserved.closed,
      conserved.kept, fun ended => ⟨(conserved.clean ended).1, ?_⟩⟩, stored.same rfl rfl⟩
    have calls := (senderLeft_eq_false.mp (conserved.clean ended).2).2
    exact senderLeft_eq_false.mpr ⟨rfl, calls⟩
  | recv =>
    simp only [step] at stepped
    split at stepped
    · rename_i receiving
      obtain ⟨received, taken, rfl⟩ := Option.map_eq_some_iff.mp stepped
      exact ⟨conserved.recv receiving taken, stored.same rfl rfl⟩
    · cases stepped
  | finish =>
    simp only [step] at stepped
    split at stepped
    · rename_i receiving
      split at stepped
      · rename_i ready
        simp only [Bool.and_eq_true, List.isEmpty_iff, Bool.not_eq_true'] at ready
        cases stepped
        have hand : world.transformer.hand = [] := by
          rw [receiving]
          rfl
        exact ⟨conserved.stop (by rw [receiving]; rfl) rfl fun _ => ⟨hand, ready⟩, stored.same rfl rfl⟩
      · cases stepped
    · cases stepped
  | forward now =>
    simp only [step] at stepped
    split at stepped
    · rename_i entry sending
      exact forward_keeps conserved stored sending stepped
    · cases stepped
  | abort =>
    simp only [step] at stepped
    split at stepped
    · rename_i running
      cases stepped
      exact ⟨conserved.stop running rfl (by simp), stored.same rfl rfl⟩
    · cases stepped
  | failBuffer reason =>
    cases stepped
    exact ⟨⟨conserved.fifo, conserved.accepted, conserved.distinct, conserved.handling, conserved.closed,
      conserved.kept, conserved.clean⟩, stored.same rfl rfl⟩
  | ring action =>
    have moved : ∃ ring, world.ring.step inner.toBufferInner signal action = some ring ∧
        next = { world with ring := ring } ∧ RingWorld.admits action = false := by
      cases action with
      | closeSenders =>
        simp only [step] at stepped
        split at stepped
        · cases stepped
        · obtain ⟨ring, taken, rfl⟩ := Option.map_eq_some_iff.mp stepped
          exact ⟨ring, taken, rfl, rfl⟩
      | enqueue | reserve => cases stepped
      | _ =>
        simp only [step, others, if_true, Option.map_eq_some_iff] at stepped
        obtain ⟨ring, taken, rfl⟩ := stepped
        exact ⟨ring, taken, rfl, rfl⟩
    obtain ⟨ring, taken, rfl, silent⟩ := moved
    exact ⟨conserved.ring, stored.ring rfl taken silent⟩

theorem opened_keeps (endpoint : Endpoint Request Batch) (config : BufferConfig) (capacity : Nat) :
    Conserved endpoint (opened capacity : IngestWorld Request Batch) ∧
      Stored config (opened capacity : IngestWorld Request Batch) := by
  refine ⟨⟨rfl, ?_, List.nodup_nil, by simp [opened], rfl, fun _ => rfl, ?_⟩,
    ⟨Opened.new.sound config, rfl, rfl, by simp [opened, RingWorld.stock]⟩⟩
  · simp [opened, Accepts]
  · intro ended
    cases ended

theorem keeps_of_run {inner : MemoryInner} {capacity : Nat}
    (run : Run (step endpoint inner signal) (fun _ _ => True) (opened capacity) world) :
    Conserved endpoint world ∧ Stored inner.config world := by
  refine run.invariant (fun world => Conserved endpoint world ∧ Stored inner.config world)
    (opened_keeps endpoint inner.config capacity) ?_
  intro before action after kept _ stepped
  exact step_keeps kept.1 kept.2 stepped

/-- Where the batch of a request is: an admitted one has its number in the ring, under which the ring holds nothing
    else, until that number has an outcome. -/
inductive Place (world : IngestWorld Request Batch) (index : Nat) (batch : Batch) : Prop where
  | queued (member : (index, batch) ∈ world.channel.queue)
  | held (transformer : world.transformer = .sending (index, batch))
  | admitted (position : Nat) (found : world.forwarded[position]? = some (index, batch))
      (numbered : position + 1 ∈ world.ring.state.ring.slots ∨ position + 1 ∈ world.ring.outcomes.map Prod.fst)
      (content : ∀ payload, (position + 1, payload) ∈ world.ring.stock → payload = .inMemory batch)
  | lost (member : (index, batch) ∈ world.lost)
      (ended : world.transformer = .aborted ∨ ∃ error, world.transformer = .returned (.error error))

theorem Stored.admitted {config : BufferConfig} {position : Nat} (stored : Stored config world)
    (found : world.forwarded[position]? = some (index, batch)) : world.Place index batch := by
  have inside := (List.getElem?_eq_some_iff.mp found).1
  have below : position + 1 < world.ring.state.ring.nextSeq := by
    rw [stored.numbered]
    omega
  refine .admitted position found ?_ ?_
  · by_cases active : position + 1 ∈ world.ring.state.ring.slots
    · exact .inl active
    · rcases stored.sound.settled (position + 1) ⟨active, below⟩ with ⟨_, before⟩ | settled
      · have first : position + 1 < 1 := before
        omega
      · exact .inr settled
  · intro payload member
    obtain ⟨_, other, named, listed, same⟩ := stored.stock _ member
    rw [Nat.add_sub_cancel, found, Option.some.injEq, Prod.mk.injEq] at listed
    rw [listed.2]
    exact same

/-- Every request that was answered with success and that has rows is in exactly one place, with the batch that it decodes
    to, and no other request is in any: an answer is never ahead of the channel, and nothing is sent twice or made up. -/
theorem ingest_once (endpoint : Endpoint Request Batch) (inner : MemoryInner) (signal : SignalKind) (capacity : Nat)
    (run : Run (step endpoint inner signal) (fun _ _ => True) (opened capacity) world) :
    (∀ index batch, world.Accepts index batch → world.Place index batch ∧
      ∃ call join, world.calls[index]? = some call ∧ endpoint.convert call.arrival join = .ok batch) ∧
    ((world.forwarded ++ world.lost ++ world.transformer.hand ++ world.channel.queue).map Prod.fst).Nodup ∧
    ∀ index batch, (index, batch) ∈ world.forwarded ++ world.lost ++ world.transformer.hand ++ world.channel.queue →
      world.Accepts index batch := by
  obtain ⟨conserved, stored⟩ := keeps_of_run run
  rw [conserved.fifo]
  refine ⟨fun index batch accepts => ⟨?_, ?_⟩, conserved.distinct, fun index batch => (conserved.accepted index batch).mp⟩
  · have sent := (conserved.accepted index batch).mpr accepts
    rw [← conserved.fifo, List.mem_append, List.mem_append, List.mem_append] at sent
    rcases sent with ((forwarded | lost) | hand) | queued
    · obtain ⟨position, found⟩ := List.mem_iff_getElem?.mp forwarded
      exact stored.admitted found
    · refine .lost lost ?_
      cases phase : world.transformer with
      | receiving | sending entry =>
        rw [conserved.kept (by rw [phase]; rfl)] at lost
        cases lost
      | returned result =>
        cases result with
        | error error => exact .inr ⟨error, rfl⟩
        | ok done =>
          rw [(conserved.clean phase).1] at lost
          cases lost
      | aborted => exact .inl rfl
    · cases phase : world.transformer with
      | sending entry =>
        rw [phase, TransformerPhase.hand, List.mem_singleton] at hand
        exact .held (hand ▸ phase)
      | _ =>
        rw [phase] at hand
        cases hand
    · exact .queued queued
  · obtain ⟨_, call, found, _, own⟩ := accepts
    obtain ⟨join, converted⟩ := (conserved.handling call (List.mem_of_getElem? found)).converted batch own
    exact ⟨call, join, found, converted⟩

/-- The ring numbers the requests in the order in which the channel took them, and a transformer that ends well leaves
    none behind: no handler is left, and every accepted request has been forwarded. -/
theorem transform_inOrder (endpoint : Endpoint Request Batch) (inner : MemoryInner) (signal : SignalKind) (capacity : Nat)
    (run : Run (step endpoint inner signal) (fun _ _ => True) (opened capacity) world) :
    world.forwarded <+: world.sent ∧ world.channel.queue.length ≤ world.channel.capacity ∧
    world.ring.state.ring.nextSeq = world.forwarded.length + 1 ∧
    (world.transformer = .returned (.ok ()) → world.forwarded = world.sent ∧ world.sourceRunning = false ∧
      (∀ call ∈ world.calls, call.phase ≠ .decoding ∧ call.phase ≠ .sending) ∧
      ∀ index batch, world.Accepts index batch → ∃ position : Nat, world.forwarded[position]? = some (index, batch)) := by
  obtain ⟨conserved, stored⟩ := keeps_of_run run
  have fifo := conserved.fifo
  refine ⟨⟨world.lost ++ world.transformer.hand ++ world.channel.queue, ?_⟩, world.channel.bounded, stored.numbered, ?_⟩
  · simpa only [List.append_assoc] using fifo
  · intro ended
    obtain ⟨lost, left⟩ := conserved.clean ended
    obtain ⟨source, calls⟩ := senderLeft_eq_false.mp left
    have closed : world.channel.closed = true := by
      rw [conserved.closed, ended]
      rfl
    rw [lost, ended, world.channel.emptied closed] at fifo
    have whole : world.forwarded = world.sent := by simpa [TransformerPhase.hand] using fifo
    refine ⟨whole, source, calls, fun index batch accepts => ?_⟩
    rw [← List.mem_iff_getElem?, whole]
    exact (conserved.accepted index batch).mpr accepts

/-- Requests that carry their batch: in gRPC as it is, in JSON as its rows and its body. -/
def plainEndpoint : Endpoint PlainBatch PlainBatch where
  estimateRecords batch := batch.rows.toNat
  decode := .ok
  decodeProtobuf _ := .error "buffer underflow".toList
  decodeJson
    | [] => .error "EOF while parsing a value".toList
    | rows :: body => .ok ⟨0, rows, body⟩

def plainMemory : MemoryInner := { RingWorld.plainInner with inMemory := rfl }

/-- A request of each transport, and one without rows; the first batch is in the ring when the second is taken. -/
def mixedRequests : List (IngestAction PlainBatch PlainBatch) :=
  [.arrive (.grpc ⟨0, 2, [1, 2]⟩), .arrive (.http none [1, 9]), .arrive (.grpc ⟨0, 0, []⟩), .decode 1 {},
    .decode 0 {}, .decode 2 {}, .send 0, .recv, .send 1, .forward 5, .recv]

theorem ingest_once_mixedRequests :
    ∃ world, execute (step plainEndpoint plainMemory .logs) (opened 1) mixedRequests = some world ∧
      world.Place 0 ⟨0, 2, [1, 2]⟩ ∧ world.Place 1 ⟨0, 1, [9]⟩ :=
  ⟨_, rfl,
    ((ingest_once plainEndpoint plainMemory .logs 1 (execute_run (fun _ _ => trivial) mixedRequests rfl)).1 0 _
      ⟨by decide, _, rfl, rfl, rfl⟩).1,
    ((ingest_once plainEndpoint plainMemory .logs 1 (execute_run (fun _ _ => trivial) mixedRequests rfl)).1 1 _
      ⟨by decide, _, rfl, rfl, rfl⟩).1⟩

theorem transform_inOrder_mixedRequests :
    ∃ world, execute (step plainEndpoint plainMemory .logs) (opened 1)
        (mixedRequests ++ [.forward 6, .stopSource, .finish]) = some world ∧
      world.forwarded.length = 2 ∧ world.forwarded = world.sent :=
  ⟨_, rfl, rfl, ((transform_inOrder plainEndpoint plainMemory .logs 1 (execute_run (fun _ _ => trivial)
    (mixedRequests ++ [.forward 6, .stopSource, .finish]) rfl)).2.2.2 rfl).1⟩

end IngestWorld

end OtelDatalake.Pipeline
