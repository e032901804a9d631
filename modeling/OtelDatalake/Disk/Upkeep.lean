import OtelDatalake.Buffer.Numbering
import OtelDatalake.Disk.Restart

open Std OtelDatalake.Foundation OtelDatalake.Buffer

namespace OtelDatalake.Disk

variable {Batch : Type} [RecordBatch Batch] {codec : Codec Batch}

def Located (ledger : Nat → List (Frame codec)) (signal : SignalKind) (seqId : Nat) : BatchPayload Batch → Prop
  | .inMemory _ => False
  | .onDisk segmentId offset len _ _ => ∃ frame, (offset, frame) ∈ locate 0 (ledger segmentId) ∧
      frame.key = (signal, seqId) ∧ len = frame.bytes.length

theorem Located.grow {ledger larger : Nat → List (Frame codec)} {signal : SignalKind} {seqId : Nat}
    {payload : BatchPayload Batch} (located : Located ledger signal seqId payload)
    (grows : ∀ segmentId, ledger segmentId <+: larger segmentId) : Located larger signal seqId payload := by
  cases payload with
  | inMemory batch => exact located
  | onDisk segmentId offset len rows schema =>
    obtain ⟨frame, member, rest⟩ := located
    obtain ⟨more, same⟩ := grows segmentId
    refine ⟨frame, ?_, rest⟩
    rw [← same, locate_append]
    exact List.mem_append_left _ member

namespace DiskWorld

def nextSeq (world : DiskWorld codec) (signal : SignalKind) : Nat := (world.rings signal).state.ring.nextSeq

/-- The appends that are on their way to the files. -/
def requests (world : DiskWorld codec) : List (AppendRequest codec) := world.writer.requests ++ world.senders

/-- What holds of a buffer that never appends behind a part of a failed frame: the files hold the frames of the
    ledger under distinct numbers, and the rings refer to these. -/
structure Sane (inner : BufferInner) (config : WriterConfig) (origin : SignalKind → SignalRing Batch)
    (ledger : Nat → List (Frame codec)) (world : DiskWorld codec) : Prop where
  guarded : Guarded inner.config origin world
  laying : WriterWorld.Laying 0 config ledger ⟨world.writer, world.dir⟩
  numbers : Numbers world.nextSeq ledger (world.requests.map (·.stored))
  limit : ∀ signal, world.nextSeq signal ≤ u64Max
  began : ∀ signal, (origin signal).nextSeq ≤ world.nextSeq signal
  recent : ∀ request ∈ world.requests, (origin request.signal).nextSeq ≤ request.seqId
  answered : Granted (fun request _ => (origin request.signal).nextSeq ≤ request.seqId) world.writer.replies
  located : ∀ signal seqId payload, (world.rings signal).Holds seqId payload → Located ledger signal seqId payload

variable {inner : BufferInner} {config : WriterConfig} {origin : SignalKind → SignalRing Batch}
  {ledger : Nat → List (Frame codec)} {world next : DiskWorld codec}

/-- What a step does to the frames: those that stand as a whole stay, and one that is new has a new number. -/
structure Drawn (ledger larger : Nat → List (Frame codec)) (world next : DiskWorld codec) : Prop where
  grows : ∀ segmentId, ledger segmentId <+: larger segmentId
  known : ∀ segmentId, ∀ frame ∈ larger segmentId ++ next.requests.map (·.stored),
    (∃ other, frame ∈ ledger other ++ world.requests.map (·.stored)) ∨ world.nextSeq frame.signal ≤ frame.seqId
  counted : ∀ signal, world.nextSeq signal ≤ next.nextSeq signal
  logged : ∀ entry ∈ next.writer.log, entry ∈ world.writer.log ∨
    ∃ frame ∈ larger entry.segmentId, frame.signal = entry.signal ∧ frame.seqId = entry.seqId
  lengthened : world.writer.log <+: next.writer.log
  unwritten : next.writer.log = world.writer.log → larger = ledger

theorem Drawn.quiet (ledger : Nat → List (Frame codec)) (fewer : ∀ request ∈ next.requests, request ∈ world.requests)
    (counted : next.nextSeq = world.nextSeq) (unlogged : next.writer.log = world.writer.log) :
    Drawn ledger ledger world next where
  grows _ := List.prefix_rfl
  known segmentId frame member := by
    refine .inl ⟨segmentId, ?_⟩
    rcases List.mem_append.mp member with held | waiting
    · exact List.mem_append_left _ held
    · obtain ⟨request, listed, rfl⟩ := List.mem_map.mp waiting
      exact List.mem_append_right _ (List.mem_map_of_mem (fewer request listed))
  counted signal := by rw [counted]
  logged entry member := .inl (unlogged ▸ member)
  lengthened := unlogged ▸ List.prefix_rfl
  unwritten _ := rfl

theorem Drawn.trans {between larger : Nat → List (Frame codec)} {middle : DiskWorld codec}
    (first : Drawn ledger between world middle) (second : Drawn between larger middle next) :
    Drawn ledger larger world next where
  grows segmentId := (first.grows segmentId).trans (second.grows segmentId)
  known segmentId frame member := by
    rcases second.known segmentId frame member with ⟨other, held⟩ | late
    · exact first.known other frame held
    · exact .inr ((first.counted frame.signal).trans late)
  counted signal := (first.counted signal).trans (second.counted signal)
  logged entry member := by
    rcases second.logged entry member with old | stored
    · rcases first.logged entry old with older | ⟨frame, held, number⟩
      · exact .inl older
      · exact .inr ⟨frame, (second.grows entry.segmentId).subset held, number⟩
    · exact .inr stored
  lengthened := first.lengthened.trans second.lengthened
  unwritten same := by
    have middle : next.writer.log = middle.writer.log := by
      refine (second.lengthened.eq_of_length (Nat.le_antisymm second.lengthened.length_le ?_)).symm
      rw [same]
      exact first.lengthened.length_le
    rw [second.unwritten middle, first.unwritten (middle.symm.trans same)]

theorem stepRing_log {signal : SignalKind} {action : RingAction Batch}
    (stepped : world.stepRing inner signal action = some next) : next.writer.log = world.writer.log := by
  obtain ⟨ring, _, rfl⟩ := Option.map_eq_some_iff.mp stepped
  rfl

theorem stepRing_requests {signal : SignalKind} {action : RingAction Batch}
    (stepped : world.stepRing inner signal action = some next) : next.requests = world.requests := by
  obtain ⟨ring, _, rfl⟩ := Option.map_eq_some_iff.mp stepped
  rfl

theorem Drawn.ring (ledger : Nat → List (Frame codec)) {signal : SignalKind} {action : RingAction Batch}
    (stepped : world.stepRing inner signal action = some next) (counted : next.nextSeq = world.nextSeq) :
    Drawn ledger ledger world next := by
  refine .quiet ledger (fun request member => ?_) counted (stepRing_log stepped)
  rwa [stepRing_requests stepped] at member

theorem Drawn.reserve (ledger : Nat → List (Frame codec)) {frame : Frame codec} {now : Instant} {seqId : Nat}
    {reserved : DiskWorld codec}
    (admitted : (reserveOrEnqueueSlot inner.config (world.rings frame.signal).state frame.bytes.length
      (RecordBatch.numRows frame.batch) none now).2.1 = .reserved seqId) (numbered : seqId < u64Max)
    (stepped : world.stepRing inner frame.signal (.reserve frame.bytes.length (RecordBatch.numRows frame.batch)
      frame.header.rowCount (RecordBatch.schema frame.batch) now) = some reserved) :
    Drawn ledger ledger world { reserved with senders := reserved.senders ++ [⟨frame, seqId, numbered.le⟩] } := by
  have requests : reserved.requests = world.requests := stepRing_requests stepped
  obtain ⟨ring, moved, rfl⟩ := Option.map_eq_some_iff.mp stepped
  have raised := RingWorld.reserve_nextSeq moved
  refine ⟨fun _ => List.prefix_rfl, fun segmentId other member => ?_, fun signal => ?_, fun _ => .inl, List.prefix_rfl,
    fun _ => rfl⟩
  · simp only [DiskWorld.requests] at member requests ⊢
    rw [← List.append_assoc, requests, List.map_append, ← List.append_assoc] at member
    rcases List.mem_append.mp member with old | new
    · exact .inl ⟨segmentId, old⟩
    · right
      rw [List.map_singleton, List.mem_singleton] at new
      subst new
      rcases raised with ⟨same, _⟩ | ⟨refused, _⟩
      · rw [admitted] at same
        cases same
        exact le_rfl
      · exact absurd admitted (refused seqId)
  · by_cases same : signal = frame.signal
    · subst same
      simp only [nextSeq, setRing, Function.update_self]
      rcases raised with ⟨_, next⟩ | ⟨_, next⟩ <;> omega
    · simp [nextSeq, setRing, same]

theorem Sane.tasks (sane : Sane inner config origin ledger world) {senders : List (AppendRequest codec)}
    {snapshots : List Snapshot} (fewer : senders.Sublist world.senders)
    (below : ∀ snapshot ∈ snapshots, SnapshotBelow world.committed snapshot) :
    Sane inner config origin ledger { world with senders := senders, snapshots := snapshots } where
  guarded := sane.guarded.tasks senders below
  laying := sane.laying
  numbers := by
    refine sane.numbers.thin (fun _ => List.Sublist.refl _) ?_ fun _ => le_rfl
    simp only [requests, List.map_append]
    exact ((fewer.map _).append_left _).subperm
  limit := sane.limit
  began := sane.began
  recent := by
    intro request member
    rcases List.mem_append.mp member with queued | sending
    · exact sane.recent request (List.mem_append_left _ queued)
    · exact sane.recent request (List.mem_append_right _ (fewer.subset sending))
  answered := sane.answered
  located := sane.located

theorem stepRing_nextSeq {signal : SignalKind} {action : RingAction Batch}
    (stepped : world.stepRing inner signal action = some next) (silent : RingWorld.admits action = false) :
    next.nextSeq = world.nextSeq := by
  obtain ⟨ring, moved, rfl⟩ := Option.map_eq_some_iff.mp stepped
  funext other
  by_cases same : other = signal
  · subst same
    simpa [nextSeq, setRing] using RingWorld.step_nextSeq moved silent
  · simp [nextSeq, setRing, same]

theorem refused_nextSeq {frame : Frame codec} {now : Instant}
    (refused : ∀ seqId, (reserveOrEnqueueSlot inner.config (world.rings frame.signal).state frame.bytes.length
      (RecordBatch.numRows frame.batch) none now).2.1 ≠ .reserved seqId)
    (stepped : world.stepRing inner frame.signal (.reserve frame.bytes.length (RecordBatch.numRows frame.batch)
      frame.header.rowCount (RecordBatch.schema frame.batch) now) = some next) : next.nextSeq = world.nextSeq := by
  obtain ⟨ring, moved, rfl⟩ := Option.map_eq_some_iff.mp stepped
  funext other
  by_cases same : other = frame.signal
  · subst same
    rcases RingWorld.reserve_nextSeq moved with ⟨admitted, _⟩ | ⟨_, kept⟩
    · exact absurd admitted (refused _)
    · simpa [nextSeq, setRing] using kept
  · simp [nextSeq, setRing, same]

theorem Sane.holds (sane : Sane inner config origin ledger world) {signal : SignalKind} {action : RingAction Batch}
    (stepped : world.stepRing inner signal action = some next)
    (disk : ∀ batch now, action ≠ .enqueue batch now)
    (stands : ∀ seqId written now, action = .finish seqId (.ok written) now →
      ∃ request : AppendRequest codec, request.stored.key = (signal, seqId) ∧ request.Stands ledger written)
    (other : SignalKind) (seqId : Nat) (payload : BatchPayload Batch)
    (holds : (next.rings other).Holds seqId payload) : Located ledger other seqId payload := by
  obtain ⟨ring, moved, rfl⟩ := Option.map_eq_some_iff.mp stepped
  by_cases same : other = signal
  · subst same
    simp only [setRing, Function.update_self] at holds
    rcases (sane.guarded.sound other).holds moved holds with
      old | ⟨batch, now, enqueued, _⟩ | ⟨written, now, reservation, others, finished, _, rfl⟩
    · exact sane.located other seqId payload old
    · exact absurd enqueued (disk batch now)
    · obtain ⟨request, key, member, length⟩ := stands seqId written now finished
      exact ⟨request.stored, member, key, length⟩
  · simp only [setRing, Function.update_of_ne same] at holds
    exact sane.located other seqId payload holds

theorem Sane.ring (sane : Sane inner config origin ledger world) {signal : SignalKind} {action : RingAction Batch}
    (stepped : world.stepRing inner signal action = some next) (same : next.nextSeq = world.nextSeq)
    (disk : ∀ batch now, action ≠ .enqueue batch now) (guarded : Guarded inner.config origin next)
    (stands : ∀ seqId written now, action = .finish seqId (.ok written) now →
      ∃ request : AppendRequest codec, request.stored.key = (signal, seqId) ∧ request.Stands ledger written) :
    Sane inner config origin ledger next := by
  have located := sane.holds stepped disk stands
  obtain ⟨ring, moved, rfl⟩ := Option.map_eq_some_iff.mp stepped
  exact
    { guarded := guarded
      laying := sane.laying
      numbers := by
        rw [same]
        exact sane.numbers
      limit := by
        rw [same]
        exact sane.limit
      began := by
        rw [same]
        exact sane.began
      recent := sane.recent
      answered := sane.answered
      located := located }

theorem unwritten_of_silent {writer next : Writer codec} {action : WriterAction codec} {ops : List FsOp}
    (moves : Writer.Moves config writer action next ops) (silent : writer.written ops = []) {frame : Frame codec}
    {rest others : List (Frame codec)} (queued : writer.requests.map (·.stored) ++ others = frame :: rest)
    (segmentId : Nat) : FsOp.write segmentId frame.bytes ∉ ops := by
  intro member
  by_cases append : ∃ request todo progress, writer.phase = .processing (.appendEncoded request :: todo) progress
  · obtain ⟨request, todo, progress, phase⟩ := append
    rw [Writer.requests_processing phase] at queued
    obtain ⟨rfl, _⟩ := List.cons.inj queued
    rw [Writer.written, phase] at silent
    have logged := List.filterMap_eq_nil_iff.mp silent _ member
    simp only [AppendRequest.logged, if_pos] at logged
    cases logged
  · simp only [not_exists] at append
    exact moves.unwritten append member

theorem Sane.writer (sane : Sane inner config origin ledger world) {action : WriterAction codec}
    (stepped : world.stepWriter config action = some next) (guarded : Guarded inner.config origin next)
    (quiet : ∀ command, action = .submit command → command.request? = none)
    (clean : cleanAppend config ⟨world.writer, world.dir⟩ action = true) :
    ∃ larger, Sane inner config origin larger next ∧ Drawn ledger larger world next := by
  obtain ⟨between, moved, rfl⟩ := Option.map_eq_some_iff.mp stepped
  obtain ⟨⟨writer, ops⟩, transition, rfl⟩ := Option.map_eq_some_iff.mp moved
  have moves := Writer.moves_of_transition transition
  obtain ⟨reached, operated, laying, pending⟩ := sane.laying.moves moves clean (fun _ => le_rfl)
    (world.senders.map (·.stored))
  have fewer := moves.requests quiet
  have grows := stores_grow operated
  rw [stores_dir operated] at laying
  refine ⟨reached.ledger, ?_, grows, fun segmentId frame member => .inl ?_, fun _ => le_rfl, fun entry member => ?_,
    moves.log_eq ▸ List.prefix_append _ _, fun same => stores_unwritten operated fun frame rest queued segmentId => ?_⟩
  rotate_left
  · rw [requests, List.map_append]
    rcases List.mem_append.mp member with held | waiting
    · exact stores_drawn operated (List.mem_append_left _ held)
    · refine ⟨segmentId, List.mem_append_right _ ?_⟩
      rw [requests, List.map_append] at waiting
      exact ((fewer.map _).append_right _).subset waiting
  · rw [moves.log_eq] at member
    rcases List.mem_append.mp member with old | new
    · exact .inl old
    · exact .inr (stores_written operated new)
  · rw [moves.log_eq, List.append_right_eq_self] at same
    exact unwritten_of_silent moves same queued segmentId
  exact
    { guarded := guarded
      laying := laying
      numbers := by
        have start : Numbers world.nextSeq ledger
            (world.writer.requests.map (·.stored) ++ world.senders.map (·.stored)) := by
          rw [← List.map_append]
          exact sane.numbers
        have reached : Numbers world.nextSeq reached.ledger reached.pending := Numbers.operate start operated
        refine reached.thin (fun _ => List.Sublist.refl _) ?_ fun _ => le_rfl
        simp only [requests, List.map_append]
        rcases pending with same | same
        · rw [same]
          exact ((fewer.map _).append_right _).subperm
        · rw [same]
      limit := sane.limit
      began := sane.began
      recent := fun request member => by
        rcases List.mem_append.mp member with queued | sending
        · exact sane.recent request (List.mem_append_left _ (fewer.subset queued))
        · exact sane.recent request (List.mem_append_right _ sending)
      answered := moves.granted sane.answered fun faults request todo progress same phase written ok => by
        refine sane.recent request (List.mem_append_left _ ?_)
        rw [Writer.requests_processing phase]
        exact List.mem_cons_self
      located := fun signal seqId payload holds => (sane.located signal seqId payload holds).grow grows }

theorem submit_requests {index : Nat} {request : AppendRequest codec} (found : world.senders[index]? = some request)
    (stepped : { world with senders := world.senders.eraseIdx index }.stepWriter config
      (.submit (.appendEncoded request)) = some next) : next.requests.Perm world.requests := by
  obtain ⟨within, rfl⟩ := List.getElem?_eq_some_iff.mp found
  cases stepped
  simp only [requests, Writer.requests_submit, WriterCommand.request?, Option.toList_some, List.append_assoc,
    List.singleton_append]
  exact (List.getElem_cons_eraseIdx_perm within).append_left _

theorem Sane.submit (sane : Sane inner config origin ledger world) {index : Nat} {request : AppendRequest codec}
    (found : world.senders[index]? = some request) (guarded : Guarded inner.config origin next)
    (stepped : { world with senders := world.senders.eraseIdx index }.stepWriter config
      (.submit (.appendEncoded request)) = some next) : Sane inner config origin ledger next := by
  have moved : next = { world with
      senders := world.senders.eraseIdx index
      writer := { world.writer with channel := world.writer.channel ++ [.appendEncoded request] } } := by
    cases stepped
    rfl
  have reordered := submit_requests found stepped
  have numbers := sane.numbers.thin (fun _ => List.Sublist.refl _) (reordered.map (·.stored)).subperm fun _ => le_rfl
  subst moved
  exact
    { guarded := guarded
      laying := ⟨sane.laying.filed, sane.laying.staged, sane.laying.stands⟩
      numbers := numbers
      limit := sane.limit
      began := sane.began
      recent := fun request member => sane.recent request (reordered.subset member)
      answered := sane.answered
      located := sane.located }

theorem Sane.reserve (sane : Sane inner config origin ledger world) {frame : Frame codec} {now : Instant} {seqId : Nat}
    {reserved : DiskWorld codec}
    (admitted : (reserveOrEnqueueSlot inner.config (world.rings frame.signal).state frame.bytes.length
      (RecordBatch.numRows frame.batch) none now).2.1 = .reserved seqId) (numbered : seqId < u64Max)
    (stepped : world.stepRing inner frame.signal (.reserve frame.bytes.length (RecordBatch.numRows frame.batch)
      frame.header.rowCount (RecordBatch.schema frame.batch) now) = some reserved)
    (guarded : Guarded inner.config origin
      { reserved with senders := reserved.senders ++ [⟨frame, seqId, numbered.le⟩] }) :
    Sane inner config origin ledger
      { reserved with senders := reserved.senders ++ [⟨frame, seqId, numbered.le⟩] } := by
  have located := sane.holds stepped (fun _ _ same => by cases same) (fun _ _ _ same => by cases same)
  obtain ⟨ring, moved, rfl⟩ := Option.map_eq_some_iff.mp stepped
  have assigned : seqId = world.nextSeq frame.signal ∧ ring.state.ring.nextSeq = world.nextSeq frame.signal + 1 := by
    rcases RingWorld.reserve_nextSeq moved with ⟨same, next⟩ | ⟨refused, _⟩
    · rw [admitted] at same
      cases same
      exact ⟨rfl, next⟩
    · exact absurd admitted (refused seqId)
  have next : nextSeq { world.setRing frame.signal ring with
      senders := (world.setRing frame.signal ring).senders ++ [⟨frame, seqId, numbered.le⟩] } =
      Function.update world.nextSeq frame.signal (seqId + 1) := by
    funext signal
    by_cases same : signal = frame.signal
    · subst same
      simp [nextSeq, setRing, assigned.1, assigned.2]
    · simp [nextSeq, setRing, same]
  have began := sane.began frame.signal
  rw [← assigned.1] at began
  have added : Numbers (Function.update world.nextSeq frame.signal (seqId + 1)) ledger
      (world.requests.map (·.stored) ++ [AppendRequest.stored ⟨frame, seqId, numbered.le⟩]) :=
    sane.numbers.add (AppendRequest.stored ⟨frame, seqId, numbered.le⟩) assigned.1
  exact
    { guarded := guarded
      laying := sane.laying
      numbers := by
        rw [next]
        simpa only [requests, setRing, ← List.append_assoc, List.map_append, List.map_singleton] using added
      limit := fun signal => by
        rw [next]
        by_cases same : signal = frame.signal
        · subst same
          rw [Function.update_self]
          exact numbered
        · rw [Function.update_of_ne same]
          exact sane.limit signal
      began := fun signal => by
        rw [next]
        by_cases same : signal = frame.signal
        · subst same
          rw [Function.update_self]
          exact began.trans (Nat.le_succ _)
        · rw [Function.update_of_ne same]
          exact sane.began signal
      recent := fun request member => by
        simp only [requests, setRing, ← List.append_assoc] at member
        rcases List.mem_append.mp member with old | new
        · exact sane.recent request old
        · rw [List.mem_singleton.mp new]
          exact began
      answered := sane.answered
      located := located }

def cleanStep (config : WriterConfig) (world : DiskWorld codec) : DiskAction codec → Bool
  | .writer action => cleanAppend config ⟨world.writer, world.dir⟩ action
  | _ => true

theorem Sane.step_drawn (sane : Sane inner config origin ledger world) {action : DiskAction codec}
    (stepped : world.step inner config action = some next) (clean : cleanStep config world action = true) :
    ∃ larger, Sane inner config origin larger next ∧ Drawn ledger larger world next := by
  have guarded := (sane.guarded.step stepped).guarded
  have moves := moves_of_step stepped
  clear stepped
  cases moves with
  | @ring signal action next consumer stepped =>
    have silent : RingWorld.admits action = false := by
      cases action <;> first | rfl | cases consumer
    have same := stepRing_nextSeq stepped silent
    refine ⟨ledger, sane.ring stepped same ?_ guarded ?_, .ring ledger stepped same⟩
    · intro batch now equal
      subst equal
      cases consumer
    · intro seqId written now equal
      subst equal
      cases consumer
  | @reserved frame now seqId between admitted numbered stepped =>
    exact ⟨ledger, sane.reserve admitted numbered stepped guarded, .reserve ledger admitted numbered stepped⟩
  | @refused frame now next refused stepped =>
    have same := refused_nextSeq refused stepped
    exact ⟨ledger, sane.ring stepped same (fun _ _ equal => by cases equal) guarded (fun _ _ _ equal => by cases equal),
      .ring ledger stepped same⟩
  | @submit index request next found stepped =>
    refine ⟨ledger, sane.submit found guarded stepped, .quiet ledger ?_ ?_ ?_⟩
    · exact fun other member => (submit_requests found stepped).subset member
    · obtain ⟨between, _, rfl⟩ := Option.map_eq_some_iff.mp stepped
      rfl
    · cases stepped
      rfl
  | @cancel index request next found stepped =>
    have fewer := sane.tasks (List.eraseIdx_sublist world.senders index) sane.guarded.snapshots
    have same := stepRing_nextSeq stepped rfl
    have unlogged := stepRing_log stepped
    refine ⟨ledger, fewer.ring stepped same (fun _ _ equal => by cases equal) guarded
      (fun _ _ _ equal => by cases equal), .quiet ledger ?_ same unlogged⟩
    rw [stepRing_requests stepped]
    exact fun other member => ((List.eraseIdx_sublist world.senders index).append_left _).subset member
  | startSnapshot =>
    exact ⟨ledger, sane.tasks (List.Sublist.refl _) guarded.snapshots, .quiet ledger (fun _ member => member) rfl rfl⟩
  | readSnapshot found =>
    exact ⟨ledger, sane.tasks (List.Sublist.refl _) guarded.snapshots, .quiet ledger (fun _ member => member) rfl rfl⟩
  | @sendSnapshot index flush watermark next found stepped =>
    have remaining : ∀ snapshot ∈ world.snapshots.eraseIdx index, SnapshotBelow world.committed snapshot :=
      fun snapshot member => sane.guarded.snapshots snapshot (List.mem_of_mem_eraseIdx member)
    have fewer := sane.tasks (List.Sublist.refl world.senders) remaining
    obtain ⟨larger, kept, drawn⟩ :=
      fewer.writer stepped guarded (fun command equal => by cases equal; cases flush <;> rfl) rfl
    exact ⟨larger, kept, drawn.grows, drawn.known, drawn.counted, drawn.logged, drawn.lengthened, drawn.unwritten⟩
  | shutdown stepped => exact sane.writer stepped guarded (fun command equal => by cases equal; rfl) rfl
  | writer alone stepped =>
    exact sane.writer stepped guarded (fun command equal => by subst equal; cases alone) clean
  | @reply now reply replies syncErr dirty shutdown between next phase finished stepped =>
    have first := (sane.guarded.finish phase finished).guarded
    have stands := (granted_append.mp sane.laying.stands).1
    simp only [phase] at stands
    have same := stepRing_nextSeq finished rfl
    have middle := sane.ring finished same (fun _ _ equal => by cases equal) first
        fun seqId written later equal => by
      simp only [RingAction.finish.injEq] at equal
      refine ⟨reply.1, by rw [← equal.1]; rfl, ?_⟩
      exact stands reply List.mem_cons_self written (Writer.finalAnswer_ok equal.2.1).2
    obtain ⟨larger, kept, drawn⟩ := middle.writer stepped guarded (fun command equal => by cases equal) rfl
    exact ⟨larger, kept, (Drawn.ring ledger finished same).trans drawn⟩
  | @abandonAppend request rest between next phase channel dropped stepped =>
    have first := (sane.guarded.ring dropped fun _ _ _ equal => by cases equal).guarded
    have same := stepRing_nextSeq dropped rfl
    have middle := sane.ring dropped same (fun _ _ equal => by cases equal) first
      fun _ _ _ equal => by cases equal
    obtain ⟨larger, kept, drawn⟩ := middle.writer stepped guarded (fun command equal => by cases equal) rfl
    exact ⟨larger, kept, (Drawn.ring ledger dropped same).trans drawn⟩
  | abandon stepped => exact sane.writer stepped guarded (fun command equal => by cases equal) rfl

theorem Sane.step (sane : Sane inner config origin ledger world) {action : DiskAction codec}
    (stepped : world.step inner config action = some next) (clean : cleanStep config world action = true) :
    ∃ larger, Sane inner config origin larger next ∧ ∀ segmentId, ledger segmentId <+: larger segmentId := by
  obtain ⟨larger, kept, drawn⟩ := sane.step_drawn stepped clean
  exact ⟨larger, kept, drawn.grows⟩

end DiskWorld

end OtelDatalake.Disk
