import OtelDatalake.Buffer.Withdrawal
import OtelDatalake.Disk.Upkeep

open Std OtelDatalake.Foundation OtelDatalake.Buffer

namespace OtelDatalake.Disk.DiskWorld

variable {Batch : Type} [RecordBatch Batch] {codec : Codec Batch} {inner : BufferInner} {config : WriterConfig}
  {origin : SignalKind → SignalRing Batch} {ledger : Nat → List (Frame codec)} {world : DiskWorld codec}

/-- Where a crash falls: between two steps, or into a step of the writer after some of its operations and perhaps a part
    of the next write. -/
inductive CrashPoint (codec : Codec Batch) where
  | between
  | during (action : WriterAction codec) (count length : Nat)

/-- The directory that a crash leaves, with every write, rename and unlink that was completed. -/
def leftBehind (config : WriterConfig) (world : DiskWorld codec) : CrashPoint codec → Option Directory
  | .between => some world.dir
  | .during action count length =>
    (world.writer.transition config action).map fun moved =>
      world.dir.applyAll (interrupt (cutWrite length) count moved.2)

def leftWritten (config : WriterConfig) (world : DiskWorld codec) : CrashPoint codec → List LoggedFrame
  | .between => []
  | .during action count length =>
    match world.writer.transition config action with
    | none => []
    | some moved => world.writer.written (interrupt (cutWrite length) count moved.2)

/-- The step into which a crash falls appends behind whole frames only. -/
def cleanCrash (config : WriterConfig) (world : DiskWorld codec) : CrashPoint codec → Bool
  | .between => true
  | .during action _ _ => cleanAppend config ⟨world.writer, world.dir⟩ action

structure Crashed (config : WriterConfig) (world : DiskWorld codec) (ledger : Nat → List (Frame codec))
    (stock : Stock codec) : Prop where
  laid : Laid 0 config.maxPayloadLen stock
  numbers : Numbers world.nextSeq stock.ledger stock.pending
  covered : ∀ signal, stock.dir.watermarkOf signal ≤ world.committed signal
  grows : ∀ segmentId, ledger segmentId <+: stock.ledger segmentId
  raised : ∀ signal, world.dir.watermarkOf signal ≤ stock.dir.watermarkOf signal

theorem Sane.watermarkOf_le (sane : Sane inner config origin ledger world) (signal : SignalKind) :
    world.dir.watermarkOf signal ≤ world.committed signal := by
  have same := sane.laying.filed.watermarkOf signal
  exact same.trans_le (sane.guarded.persisted signal)

/-- What is committed has been numbered, so recovery can go on behind the watermark that a crash leaves. -/
theorem Sane.covered_lt (sane : Sane inner config origin ledger world) {stock : Stock codec}
    (crashed : Crashed config world ledger stock) (signal : SignalKind) : stock.dir.watermarkOf signal < u64Max := by
  have room := (sane.guarded.sound signal).accounted
  have committed := room.balanced.watermarkCandidate_lt.1
  rw [← room.committed] at committed
  exact ((crashed.covered signal).trans_lt committed).trans_le (sane.limit signal)

/-- What a crash leaves, that no frame in it is new, and that it holds what the interrupted step has written. -/
theorem Sane.crashed_known (sane : Sane inner config origin ledger world) {point : CrashPoint codec} {dir : Directory}
    (left : leftBehind config world point = some dir) (clean : cleanCrash config world point = true) :
    ∃ stock : Stock codec, stock.dir = dir ∧ Crashed config world ledger stock ∧
      (∀ segmentId, ∀ frame ∈ stock.ledger segmentId, ∃ other,
        frame ∈ ledger other ++ world.requests.map (·.stored)) ∧
      ∀ entry ∈ leftWritten config world point, ∃ frame ∈ stock.ledger entry.segmentId,
        frame.signal = entry.signal ∧ frame.seqId = entry.seqId := by
  have numbers : Numbers world.nextSeq ledger
      (world.writer.requests.map (·.stored) ++ world.senders.map (·.stored)) := by
    rw [← List.map_append]
    exact sane.numbers
  have laid : Laid 0 config.maxPayloadLen
      ⟨ledger, world.writer.requests.map (·.stored) ++ world.senders.map (·.stored), world.dir⟩ :=
    (sane.laying.filed.repend _).laid
  cases point with
  | between =>
    cases left
    exact ⟨_, rfl, ⟨laid, numbers, sane.watermarkOf_le, fun _ => List.prefix_rfl, fun _ => le_rfl⟩,
      fun segmentId frame member => ⟨segmentId, List.mem_append_left _ member⟩,
      fun _ member => absurd member List.not_mem_nil⟩
  | during action count length =>
    obtain ⟨⟨writer, ops⟩, moved, rfl⟩ := Option.map_eq_some_iff.mp left
    obtain ⟨_, operated, _, _⟩ := sane.laying.moves (Writer.moves_of_transition moved) clean sane.guarded.staged
      (world.senders.map (·.stored))
    obtain ⟨reached, partly⟩ := operated.interrupt (fun _ _ _ _ => Stores.cut) count
    refine ⟨reached, stores_dir partly, ⟨laid.operate partly, Numbers.operate numbers partly, ?_, stores_grow partly,
      stores_raised partly⟩, fun segmentId frame member => ?_, fun entry member => ?_⟩
    · exact stores_limit sane.watermarkOf_le partly
    · rw [requests, List.map_append]
      exact stores_drawn partly (List.mem_append_left _ member)
    · rw [leftWritten, moved] at member
      exact stores_written partly member

theorem Sane.crashed (sane : Sane inner config origin ledger world) {point : CrashPoint codec} {dir : Directory}
    (left : leftBehind config world point = some dir) (clean : cleanCrash config world point = true) :
    ∃ stock : Stock codec, stock.dir = dir ∧ Crashed config world ledger stock := by
  obtain ⟨stock, same, crashed, _⟩ := sane.crashed_known left clean
  exact ⟨stock, same, crashed⟩

section Reopen

variable {stock : Stock codec} {bound : SignalKind → Nat} {pending : List (Frame codec)}

theorem opened_located (laid : Laid 0 config.maxPayloadLen stock) (generatedId : Nat) (now : Instant)
    (unlinks : Nat → Bool) {signal : SignalKind} {item : QueuedBatch Batch}
    (queued : item ∈ ((opened codec config generatedId now unlinks stock.dir).rings signal).state.ring.queue) :
    ∃ segmentId, ∃ located ∈ locate 0 (stock.ledger segmentId), located.2.signal = signal ∧
      item = storedItem segmentId now located ∧ stock.dir.watermarkOf signal < item.seqId := by
  rw [opened_ring, mem_reopened_queue, laid.mem_recoveryEvents] at queued
  obtain ⟨above, segmentId, _, located, inside, matching, same⟩ := queued
  rw [loadInitialWatermark_forSignal] at above
  exact ⟨segmentId, located, inside, matching, RecoveryEvent.frame.inj same, above⟩

theorem locate_survivors {dir : Directory} {ledger : Nat → List (Frame codec)} {segmentId : Nat}
    (held : segmentId ∈ dir.segments) : locate 0 (survivors dir ledger segmentId) = locate 0 (ledger segmentId) := by
  simp only [survivors, if_pos held]

theorem sane_opened (inner : BufferInner) (laid : Laid 0 config.maxPayloadLen stock)
    (numbers : Numbers bound stock.ledger pending) (limited : ∀ signal, bound signal ≤ u64Max)
    (below : ∀ signal, stock.dir.watermarkOf signal < u64Max) (generatedId : Nat) (now : Instant)
    (unlinks : Nat → Bool) :
    Sane inner config (fun signal => ((opened codec config generatedId now unlinks stock.dir).rings signal).state.ring)
      (survivors (WriterWorld.opened codec config generatedId now unlinks stock.dir).dir stock.ledger)
      (opened codec config generatedId now unlinks stock.dir) where
  guarded := (laid.numbered numbers limited generatedId now below).guarded inner.config unlinks
  laying := laid.reopen generatedId now unlinks
  numbers := laid.numbers numbers limited generatedId now unlinks
  limit := opened_nextSeq_le stock.dir
  began _ := le_rfl
  recent _ member := absurd member List.not_mem_nil
  answered := granted_nil
  located := by
    rintro signal seqId payload (⟨item, queued, rfl, rfl⟩ | ⟨held, member, _⟩)
    · obtain ⟨segmentId, located, inside, rfl, rfl, above⟩ := opened_located laid generatedId now unlinks queued
      have again := laid.reenqueued (Nat.zero_le _) inside above generatedId now unlinks
      obtain ⟨file, kept, _⟩ := again.stored
      have held : segmentId ∈ (WriterWorld.opened codec config generatedId now unlinks stock.dir).dir.segments := by
        rw [ExtTreeMap.mem_iff_isSome_getElem?]
        exact Option.isSome_iff_exists.mpr ⟨file, kept⟩
      refine ⟨located.2, ?_, rfl, rfl⟩
      rw [locate_survivors held]
      exact inside
    · cases member

end Reopen

end OtelDatalake.Disk.DiskWorld
