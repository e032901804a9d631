import OtelDatalake.Disk.LossyCrash
import OtelDatalake.Disk.Refusal
import OtelDatalake.Disk.SendSafety

open Std OtelDatalake.Foundation OtelDatalake.Buffer

namespace OtelDatalake.Disk

variable {Schema Row : Type} [DecidableEq Schema] {codec : Codec (RowBatch Schema Row)}

namespace DiskWorld

variable {inner : BufferInner} {config : WriterConfig}
  {origin : SignalKind → SignalRing (RowBatch Schema Row)} {ledger larger : Nat → List (Frame codec)}
  {world next : DiskWorld codec} {signal : SignalKind} {seqId : Nat}

theorem abandon_requests {request : AppendRequest codec} {rest : List (WriterCommand codec)} {between : DiskWorld codec}
    (phase : world.writer.phase = .stopped) (channel : world.writer.channel = .appendEncoded request :: rest)
    (dropped : world.stepRing inner request.signal (.dropReservation request.seqId) = some between)
    (stepped : between.stepWriter config .abandon = some next) :
    world.requests = request :: next.requests ∧ next.nextSeq = world.nextSeq ∧ next.writer.log = world.writer.log := by
  have counted := stepRing_nextSeq dropped rfl
  obtain ⟨ring, _, rfl⟩ := Option.map_eq_some_iff.mp dropped
  obtain ⟨_, moved, rfl⟩ := Option.map_eq_some_iff.mp stepped
  obtain ⟨⟨writer, ops⟩, transition, rfl⟩ := Option.map_eq_some_iff.mp moved
  simp only [Writer.transition, setRing, phase, channel] at transition
  cases transition
  refine ⟨?_, counted, rfl⟩
  simp only [requests, Writer.requests, Writer.commands, phase, channel, WriterPhase.todo, setRing]
  rfl

theorem Denied.answered (denied : Denied ledger world) (sane : Sane inner config origin ledger world)
    {action : DiskAction codec} (stepped : world.step inner config action = some next)
    (drawn : Drawn ledger larger world next) {error : SendError}
    (answered : world.answered? action = some (signal, seqId, .error error)) : Unstored larger next signal seqId := by
  cases action with
  | cancel index =>
    cases found : world.senders[index]? with
    | none =>
      simp only [answered?, found] at answered
      cases answered
    | some request =>
      simp only [answered?, found, Option.map_some, Option.some.injEq, Prod.mk.injEq] at answered
      obtain ⟨rfl, rfl, _⟩ := answered
      simp only [DiskWorld.step, found, Option.bind_some] at stepped
      have counted := stepRing_nextSeq stepped rfl
      have kept := stepRing_requests stepped
      have unlogged := stepRing_log stepped
      rw [drawn.unwritten unlogged]
      refine sane.unstored ?_ counted
      obtain ⟨within, rfl⟩ := List.getElem?_eq_some_iff.mp found
      rw [kept]
      exact ((List.getElem_cons_eraseIdx_perm within).symm.append_left _).trans List.perm_middle
  | reply now =>
    simp only [answered?] at answered
    split at answered
    · rename_i reply replies syncErr dirty shutdown phase
      rw [Option.some.injEq, Prod.mk.injEq, Prod.mk.injEq] at answered
      obtain ⟨rfl, rfl, failed⟩ := answered
      split at failed
      · cases failed
      · rename_i reason refused
        refine (denied reply.1 ⟨reply, ?_, rfl, reason, ?_⟩).drawn drawn
        · rw [phase]
          exact List.mem_cons_self
        · rw [phase]
          exact refused
    · cases answered
  | abandon =>
    simp only [answered?] at answered
    split at answered
    · rename_i request rest phase channel
      cases answered
      simp only [DiskWorld.step, phase, channel] at stepped
      obtain ⟨between, dropped, moved⟩ := Option.bind_eq_some_iff.mp stepped
      obtain ⟨left, counted, unlogged⟩ := abandon_requests phase channel dropped moved
      rw [drawn.unwritten unlogged]
      exact sane.unstored (.of_eq left) counted
    · cases answered
  | _ => cases answered

end DiskWorld

/-- A buffer in use, or its end: a crash leaves `kept` bytes of each file, and what was synced, and the buffer is opened
    again. -/
inductive SendLife (codec : Codec (RowBatch Schema Row)) where
  | live (action : SendAction codec)
  | crash (point : DiskWorld.CrashPoint codec) (kept : Nat → Nat) (generatedId : Nat) (now : Instant)
      (unlinks : Nat → Bool)

namespace Storage

/-- What is in memory is gone, and what a crash leaves on disk is recovered. -/
def reopen (config : WriterConfig) (point : DiskWorld.CrashPoint codec) (kept : Nat → Nat) (generatedId : Nat)
    (now : Instant) (unlinks : Nat → Bool) : Storage codec → Option (Storage codec)
  | memory _ => some (.memory fun _ => {})
  | disk world => (DiskWorld.leftBehind config world point).map fun dir =>
      .disk (.opened codec config generatedId now unlinks (dir.lose kept))

/-- No append goes behind a part of a failed frame. -/
def cleanStep (config : WriterConfig) : Storage codec → SendAction codec → Bool
  | disk world, .buffer action => DiskWorld.cleanStep config world action
  | _, _ => true

def cleanCrash (config : WriterConfig) (point : DiskWorld.CrashPoint codec) : Storage codec → Bool
  | memory _ => true
  | disk world => DiskWorld.cleanCrash config world point

/-- No sync fails behind a frame that was written whole. -/
def syncsHold : Storage codec → SendAction codec → Bool
  | disk world, .buffer action => world.syncsHold action
  | _, _ => true

end Storage

def SendCall.hasFailed (call : SendCall codec) : Bool :=
  match call.phase with
  | .returned (.error _) => true
  | _ => false

/-- A call after the end of the process: its future is gone, and numbers that the reopened buffer will give again are no
    longer its own. -/
def SendCall.outlive (call : SendCall codec) (storage : Storage codec) : SendCall codec :=
  { call with
    phase := if call.isWaiting then .dropped else call.phase
    seqIds := call.seqIds.filter fun seqId => seqId < (storage.rings call.signal).state.ring.nextSeq }

namespace SendCall

variable {inner : BufferInner} {config : WriterConfig} {call moved : SendCall codec}
  {ring : RingWorld (RowBatch Schema Row)} {disk : DiskWorld codec}

theorem hasFailed_refused {admission : Admission} (failed : (call.refused admission).hasFailed = true) :
    (call.refused admission).seqIds = call.seqIds := by
  cases admission <;> rfl

/-- In disk mode a pass reserves a slot at most, and a call that fails in it was given no number. -/
theorem poll_disk (whole : call.Whole ring) {fatalError : Option String} {now : Instant} {storage reached : Storage codec}
    (stored : storage = .disk disk) (polled : call.poll inner config storage fatalError now = some (reached, moved)) :
    (moved.hasFailed = true → moved.seqIds = []) ∧ ∃ after, reached = .disk after ∧
      (after = disk ∨ ∃ frame, disk.step inner config (.reserve frame now) = some after) := by
  unfold poll at polled
  split at polled
  · cases polled
    exact ⟨nofun, disk, stored, .inl rfl⟩
  · rename_i phase
    cases polled
    have unnumbered : call.seqIds = [] := by simpa only [Whole, phase] using whole
    exact ⟨fun _ => unnumbered, disk, stored, .inl rfl⟩
  · rename_i phase
    cases polled
    simp only [Whole, phase] at whole
    exact ⟨fun _ => whole.1, disk, stored, .inl rfl⟩
  · cases stored
  · rename_i frame frames world phase
    cases stored
    simp only [Whole, phase] at whole
    obtain ⟨after, stepped, same⟩ := Option.map_eq_some_iff.mp polled
    rw [Prod.mk.injEq] at same
    obtain ⟨rfl, rfl⟩ := same
    refine ⟨fun failed => ?_, after, rfl, .inr ⟨frame, stepped⟩⟩
    split at failed
    · cases failed
    · rw [hasFailed_refused failed]
      exact whole.1
  · cases polled

theorem resume_failed (whole : call.Whole ring) {answer : Option (SignalKind × Nat × Except SendError Unit)}
    (failed : (call.resume answer).hasFailed = true) {seqId : Nat} (listed : seqId ∈ call.seqIds) :
    call.hasFailed = true ∨ ∃ error, answer = some (call.signal, seqId, .error error) := by
  unfold resume at failed
  split at failed
  · rename_i awaited frames signal answered result phase
    split at failed
    · rename_i own
      obtain ⟨rfl, rfl⟩ := own
      cases result with
      | ok _ => cases failed
      | error error =>
        simp only [Whole, phase] at whole
        rw [whole.1, List.mem_singleton] at listed
        exact .inr ⟨error, by rw [listed]⟩
    · exact .inl failed
  · exact .inl failed

end SendCall

namespace SendWorld

def live (inner : BufferInner) (config : WriterConfig) (world : SendWorld codec) :
    SendLife codec → Option (SendWorld codec)
  | .live action => world.step inner config action
  | .crash point kept generatedId now unlinks =>
    (world.storage.reopen config point kept generatedId now unlinks).map fun storage =>
      { storage := storage, calls := world.calls.map fun call => call.outlive storage }

/-- Every batch is at most one frame, and appends go behind whole frames only. -/
def Clean (inner : BufferInner) (config : WriterConfig) (world : SendWorld codec) : SendLife codec → Prop
  | .live action => oneFrame inner world action ∧ world.storage.cleanStep config action = true
  | .crash point _ _ _ _ => world.storage.cleanCrash config point = true

def syncsHold (world : SendWorld codec) : SendLife codec → Bool
  | .live action => world.storage.syncsHold action
  | .crash .. => true

def Spares (inner : BufferInner) (config : WriterConfig) (world : SendWorld codec) (life : SendLife codec) : Prop :=
  Clean inner config world life ∧ world.syncsHold life = true

variable {inner : BufferInner} {config : WriterConfig} {origin : SignalKind → SignalRing (RowBatch Schema Row)}
  {ledger : Nat → List (Frame codec)} {first : SignalKind → Nat} {lost : SignalKind → Nat → Prop}
  {world next : SendWorld codec} {disk after : DiskWorld codec} {calls others : List (SendCall codec)}

/-- The files hold no frame of a failed call, nor one under a number that is lost. -/
structure Backed (inner : BufferInner) (config : WriterConfig) (origin : SignalKind → SignalRing (RowBatch Schema Row))
    (ledger : Nat → List (Frame codec)) (lost : SignalKind → Nat → Prop) (calls : List (SendCall codec))
    (disk : DiskWorld codec) : Prop where
  sane : disk.Sane inner config origin ledger
  denied : disk.Denied ledger
  failed : ∀ call ∈ calls, call.hasFailed = true → ∀ seqId ∈ call.seqIds, disk.Unstored ledger call.signal seqId
  lost : ∀ signal seqId, lost signal seqId → disk.Unstored ledger signal seqId

theorem Backed.recall (backed : Backed inner config origin ledger lost calls disk)
    (failed : ∀ call ∈ others, call.hasFailed = true → ∀ seqId ∈ call.seqIds,
      ∃ old ∈ calls, old.hasFailed = true ∧ old.signal = call.signal ∧ seqId ∈ old.seqIds) :
    Backed inner config origin ledger lost others disk where
  sane := backed.sane
  denied := backed.denied
  failed call member ended seqId listed := by
    obtain ⟨old, before, done, same, owned⟩ := failed call member ended seqId listed
    rw [← same]
    exact backed.failed old before done seqId owned
  lost := backed.lost

theorem Backed.advance (backed : Backed inner config origin ledger lost calls disk) {action : DiskAction codec}
    (stepped : disk.step inner config action = some after) (clean : DiskWorld.cleanStep config disk action = true)
    (holds : disk.syncsHold action = true)
    (failed : ∀ call ∈ others, call.hasFailed = true → ∀ seqId ∈ call.seqIds,
      (∃ old ∈ calls, old.hasFailed = true ∧ old.signal = call.signal ∧ seqId ∈ old.seqIds) ∨
        ∃ error, disk.answered? action = some (call.signal, seqId, .error error)) :
    ∃ larger, Backed inner config origin larger lost others after := by
  obtain ⟨larger, sane, drawn⟩ := backed.sane.step_drawn stepped clean
  refine ⟨larger, sane, backed.denied.step backed.sane stepped holds drawn, fun call member ended seqId listed => ?_,
    fun signal seqId gone => (backed.lost signal seqId gone).drawn drawn⟩
  rcases failed call member ended seqId listed with ⟨old, before, done, same, owned⟩ | ⟨error, answered⟩
  · rw [← same]
    exact (backed.failed old before done seqId owned).drawn drawn
  · exact backed.denied.answered backed.sane stepped drawn answered

theorem Backed.set (backed : Backed inner config origin ledger lost calls disk) (index : Nat) {moved : SendCall codec}
    (unnumbered : moved.hasFailed = true → moved.seqIds = []) :
    Backed inner config origin ledger lost (calls.set index moved) disk := by
  refine backed.recall fun call member ended seqId listed => ?_
  rcases List.mem_or_eq_of_mem_set member with old | rfl
  · exact ⟨call, old, ended, rfl, listed⟩
  · rw [unnumbered ended] at listed
    cases listed

theorem act_disk (stored : world.storage = .disk disk) {action : DiskAction codec}
    (acted : world.act inner config action = some next) :
    ∃ after, disk.step inner config action = some after ∧
      next = world.move (.disk after) (world.calls.map fun call => call.resume (disk.answered? action)) := by
  unfold SendWorld.act at acted
  split at acted
  · rename_i memory
    rw [stored] at memory
    cases memory
  · cases acted
  · cases acted
  · rename_i same _
    rw [stored] at same
    cases same
    obtain ⟨after, stepped, rfl⟩ := Option.map_eq_some_iff.mp acted
    exact ⟨after, stepped, rfl⟩

theorem Backed.step (backed : Backed inner config origin ledger lost world.calls disk)
    (tracked : Tracked inner first lost world) (stored : world.storage = .disk disk) {action : SendAction codec}
    (clean : world.storage.cleanStep config action = true) (holds : world.storage.syncsHold action = true)
    (stepped : world.step inner config action = some next) :
    ∃ after larger, next.storage = .disk after ∧ Backed inner config origin larger lost next.calls after := by
  cases action with
  | send signal batch joinError =>
    cases stepped
    refine ⟨disk, ledger, stored, backed.recall fun call member ended seqId listed => ?_⟩
    rcases List.mem_append.mp member with old | new
    · exact ⟨call, old, ended, rfl, listed⟩
    · rw [List.mem_singleton.mp new] at listed
      cases listed
  | poll index now =>
    obtain ⟨call, found, acted⟩ := Option.bind_eq_some_iff.mp stepped
    obtain ⟨⟨storage, moved⟩, polled, rfl⟩ := Option.map_eq_some_iff.mp acted
    have whole := tracked.whole call (List.mem_of_getElem? found)
    obtain ⟨unnumbered, after, rfl, rfl | ⟨frame, reserved⟩⟩ := SendCall.poll_disk whole stored polled
    · exact ⟨after, ledger, rfl, backed.set index unnumbered⟩
    · obtain ⟨larger, reached⟩ := backed.advance reserved rfl rfl fun call member ended seqId listed =>
        .inl ⟨call, member, ended, rfl, listed⟩
      exact ⟨after, larger, rfl, reached.set index unnumbered⟩
  | drop index =>
    obtain ⟨call, found, acted⟩ := Option.bind_eq_some_iff.mp stepped
    split at acted
    · cases acted
      exact ⟨disk, ledger, stored, backed.set index nofun⟩
    · cases acted
  | buffer action =>
    rw [stored] at clean holds
    obtain ⟨after, moved, rfl⟩ := act_disk stored stepped
    have failed : ∀ call ∈ world.calls.map fun call => call.resume (disk.answered? action),
        call.hasFailed = true → ∀ seqId ∈ call.seqIds,
        (∃ old ∈ world.calls, old.hasFailed = true ∧ old.signal = call.signal ∧ seqId ∈ old.seqIds) ∨
          ∃ error, disk.answered? action = some (call.signal, seqId, .error error) := by
      intro call member ended seqId listed
      obtain ⟨old, before, rfl⟩ := List.mem_map.mp member
      rw [SendCall.resume_seqIds] at listed
      rw [SendCall.resume_signal]
      exact (SendCall.resume_failed (tracked.whole old before) ended listed).imp_left fun done =>
        ⟨old, before, done, rfl, listed⟩
    obtain ⟨larger, reached⟩ := backed.advance moved clean holds failed
    exact ⟨after, larger, rfl, reached⟩

section Reopen

variable {point : DiskWorld.CrashPoint codec} {kept : Nat → Nat} {generatedId : Nat} {now : Instant}
  {unlinks : Nat → Bool}

theorem withdrawn_of_unstored (sane : after.Sane inner config origin ledger) (signal : SignalKind) {seqId : Nat}
    (unreserved : (after.rings signal).reservations = []) (unleased : (after.rings signal).leases = [])
    (unstored : after.Unstored ledger signal seqId) : (after.rings signal).Withdrawn seqId := by
  refine (sane.guarded.sound signal).withdrawn_of_idle unreserved unleased unstored.given fun item queued same => ?_
  exact unstored.not_holds sane item.payload (.inl ⟨item, queued, same, rfl⟩)

theorem outlive_phase (call : SendCall codec) (storage : Storage codec) :
    (call.outlive storage).phase = .dropped ∨ (call.outlive storage).phase = call.phase := by
  unfold SendCall.outlive
  split
  · exact .inl rfl
  · exact .inr rfl

theorem outlive_failed {call : SendCall codec} {storage : Storage codec}
    (failed : (call.outlive storage).hasFailed = true) : call.hasFailed = true := by
  unfold SendCall.hasFailed at failed
  rcases outlive_phase call storage with dropped | same
  · rw [dropped] at failed
    cases failed
  · rw [same] at failed
    exact failed

/-- Behind the end of the process every call is whole if nothing of the failed ones is found. -/
theorem outlive_whole {call : SendCall codec} {storage : Storage codec} {ring : RingWorld (RowBatch Schema Row)}
    (withdrawn : call.hasFailed = true → ∀ seqId ∈ (call.outlive storage).seqIds, ring.Withdrawn seqId) :
    (call.outlive storage).Whole ring := by
  cases phase : call.phase with
  | returned result =>
    have same : (call.outlive storage).phase = .returned result := by
      simp only [SendCall.outlive, SendCall.isWaiting, phase, Bool.false_eq_true, if_false]
    cases result with
    | ok _ => simp only [SendCall.Whole, same]
    | error error =>
      simp only [SendCall.Whole, same]
      exact withdrawn (by simp only [SendCall.hasFailed, phase])
  | _ =>
    have ended : (call.outlive storage).phase = .dropped := by
      simp [SendCall.outlive, SendCall.isWaiting, phase]
    simp only [SendCall.Whole, ended]

theorem Backed.reopen (backed : Backed inner config origin ledger lost world.calls disk)
    (tracked : Tracked inner first lost world) (stored : world.storage = .disk disk)
    (clean : world.storage.cleanCrash config point = true)
    (stepped : world.live inner config (.crash point kept generatedId now unlinks) = some next) :
    ∃ lost, Tracked inner first lost next ∧ ∃ after origin ledger, next.storage = .disk after ∧
      Backed inner config origin ledger lost next.calls after := by
  obtain ⟨storage, reopened, rfl⟩ := Option.map_eq_some_iff.mp stepped
  rw [stored] at reopened clean
  obtain ⟨dir, left, rfl⟩ := Option.map_eq_some_iff.mp reopened
  obtain ⟨origin, fewer, sane, known⟩ := backed.sane.outlive left clean kept generatedId now unlinks
  have waiting : (DiskWorld.opened codec config generatedId now unlinks (dir.lose kept)).writer.phase = .waiting := rfl
  have unrequested : (DiskWorld.opened codec config generatedId now unlinks (dir.lose kept)).requests = [] := rfl
  have idle : ∀ signal, ((DiskWorld.opened codec config generatedId now unlinks (dir.lose kept)).rings
      signal).reservations = [] ∧ ((DiskWorld.opened codec config generatedId now unlinks (dir.lose kept)).rings
      signal).leases = [] := fun _ => ⟨rfl, rfl⟩
  have counted : ∀ signal, ((Storage.disk (.opened codec config generatedId now unlinks (dir.lose kept))).rings
      signal).state.ring.nextSeq =
        (DiskWorld.opened codec config generatedId now unlinks (dir.lose kept)).nextSeq signal := fun _ => rfl
  generalize DiskWorld.opened codec config generatedId now unlinks (dir.lose kept) = after at *
  have carried : ∀ {signal seqId}, disk.Unstored ledger signal seqId → seqId < after.nextSeq signal →
      after.Unstored fewer signal seqId := by
    intro signal seqId unstored given
    refine ⟨given, fun segmentId frame member key => ?_⟩
    rw [unrequested, List.map_nil, List.append_nil] at member
    obtain ⟨other, present⟩ := known segmentId frame member
    exact unstored.absent other frame present key
  have withdrawn : ∀ {signal seqId}, after.Unstored fewer signal seqId → (after.rings signal).Withdrawn seqId :=
    fun {signal} {_} => withdrawn_of_unstored sane signal (idle signal).1 (idle signal).2
  have failed : ∀ call ∈ world.calls, call.hasFailed = true → ∀ seqId ∈ (call.outlive (.disk after)).seqIds,
      after.Unstored fewer call.signal seqId := by
    intro call member ended seqId listed
    obtain ⟨own, below⟩ := List.mem_filter.mp listed
    exact carried (backed.failed call member ended seqId own) (of_decide_eq_true below)
  refine ⟨after.Unstored fewer, ⟨fun signal => ⟨_, sane.guarded.sound signal⟩, ?_, ?_, ?_, fun _ _ => withdrawn⟩,
    after, origin, fewer, rfl, sane, ?_, ?_, fun _ _ => id⟩
  · intro call member seqId listed
    obtain ⟨old, before, rfl⟩ := List.mem_map.mp member
    exact of_decide_eq_true (List.mem_filter.mp listed).2
  · intro call member
    obtain ⟨old, before, rfl⟩ := List.mem_map.mp member
    exact outlive_whole fun ended seqId listed => withdrawn (failed old before ended seqId listed)
  · intro signal seqId above below
    by_cases unstored : after.Unstored fewer signal seqId
    · exact .inr unstored
    · left
      obtain ⟨segmentId, frame, member, key⟩ : ∃ segmentId, ∃ frame ∈ fewer segmentId, frame.key = (signal, seqId) := by
        by_contra absent
        simp only [not_exists, not_and] at absent
        refine unstored ⟨below, fun segmentId frame member => absent segmentId frame ?_⟩
        rwa [unrequested, List.map_nil, List.append_nil] at member
      obtain ⟨other, present⟩ := known segmentId frame member
      have given := backed.sane.numbers.below other frame present
      obtain ⟨rfl, rfl⟩ := Prod.mk.inj key
      have own : world.nextSeq frame.signal = disk.nextSeq frame.signal := by
        simp only [nextSeq, ring, stored, Storage.rings, DiskWorld.nextSeq]
      rcases tracked.owned frame.signal frame.seqId above (given.trans_eq own.symm) with
        ⟨owner, listed, same, numbered⟩ | gone
      · refine ⟨owner.outlive (.disk after), List.mem_map_of_mem listed, same,
          List.mem_filter.mpr ⟨numbered, decide_eq_true ?_⟩⟩
        rw [same]
        exact below
      · exact absurd rfl ((backed.lost _ _ gone).absent other frame present)
  · rintro request ⟨reply, pending, _⟩
    rw [waiting] at pending
    cases pending
  · intro call member ended seqId listed
    obtain ⟨old, before, rfl⟩ := List.mem_map.mp member
    exact failed old before (outlive_failed ended) seqId listed

theorem tracked_restart {rings : SignalKind → RingWorld (RowBatch Schema Row)}
    (stored : world.storage = .memory rings)
    (stepped : world.live inner config (.crash point kept generatedId now unlinks) = some next) :
    (∀ first, ∃ lost, Tracked inner first lost next) ∧ next.storage = .memory fun _ => {} := by
  obtain ⟨storage, reopened, rfl⟩ := Option.map_eq_some_iff.mp stepped
  rw [stored] at reopened
  cases reopened
  have sound : ∀ signal : SignalKind, ((Storage.memory fun _ => {} : Storage codec).rings signal).Sound inner.config
      ((Storage.memory fun _ => {} : Storage codec).rings signal).state.ring := fun _ => Opened.new.sound inner.config
  have withdrawn : ∀ {signal : SignalKind} {seqId : Nat},
      seqId < ((Storage.memory fun _ => {} : Storage codec).rings signal).state.ring.nextSeq →
      ((Storage.memory fun _ => {} : Storage codec).rings signal).Withdrawn seqId := fun {signal} {_} given =>
    (sound signal).withdrawn_of_idle rfl rfl given fun _ queued => absurd queued List.not_mem_nil
  refine ⟨fun first => ⟨fun signal seqId =>
      seqId < ((Storage.memory fun _ => {} : Storage codec).rings signal).state.ring.nextSeq,
    fun signal => ⟨_, sound signal⟩, ?_, ?_, fun _ _ _ below => .inr below, fun _ _ => withdrawn⟩, rfl⟩
  · intro call member seqId listed
    obtain ⟨old, before, rfl⟩ := List.mem_map.mp member
    exact of_decide_eq_true (List.mem_filter.mp listed).2
  · intro call member
    obtain ⟨old, before, rfl⟩ := List.mem_map.mp member
    exact outlive_whole fun _ seqId listed => withdrawn (of_decide_eq_true (List.mem_filter.mp listed).2)

end Reopen

theorem step_memory {rings : SignalKind → RingWorld (RowBatch Schema Row)} (stored : world.storage = .memory rings)
    {action : SendAction codec} (stepped : world.step inner config action = some next) :
    ∃ rings, next.storage = .memory rings := by
  cases action with
  | send signal batch joinError =>
    cases stepped
    exact ⟨rings, stored⟩
  | poll index now =>
    obtain ⟨call, _, acted⟩ := Option.bind_eq_some_iff.mp stepped
    obtain ⟨⟨storage, moved⟩, polled, rfl⟩ := Option.map_eq_some_iff.mp acted
    rw [stored] at polled
    unfold SendCall.poll at polled
    split at polled
    · cases polled
      exact ⟨rings, rfl⟩
    · cases polled
      exact ⟨rings, rfl⟩
    · cases polled
      exact ⟨rings, rfl⟩
    · obtain ⟨_, _, rfl, _⟩ := SendCall.enqueue_cases polled
      exact ⟨_, rfl⟩
    · rename_i disk _
      cases disk
    · cases polled
  | drop index =>
    obtain ⟨call, _, acted⟩ := Option.bind_eq_some_iff.mp stepped
    split at acted
    · cases acted
      exact ⟨rings, stored⟩
    · cases acted
  | buffer action =>
    simp only [SendWorld.step, SendWorld.act, stored] at stepped
    split at stepped
    · split at stepped
      · obtain ⟨_, _, rfl⟩ := Option.map_eq_some_iff.mp stepped
        exact ⟨_, rfl⟩
      · cases stepped
    · cases stepped
    · cases stepped
    · rename_i disk _
      cases disk

/-- What holds of a buffer over any number of reopenings. -/
def Settled (inner : BufferInner) (config : WriterConfig) (first : SignalKind → Nat) (world : SendWorld codec) : Prop :=
  ∃ lost, Tracked inner first lost world ∧ ∀ disk, world.storage = .disk disk →
    ∃ origin ledger, Backed inner config origin ledger lost world.calls disk

theorem Settled.live (settled : Settled inner config first world) {life : SendLife codec}
    (spares : Spares inner config world life) (stepped : world.live inner config life = some next) :
    Settled inner config first next := by
  obtain ⟨lost, tracked, backed⟩ := settled
  cases life with
  | live action =>
    refine ⟨lost, tracked.step spares.1.1 stepped, fun disk reached => ?_⟩
    cases stored : world.storage with
    | memory rings =>
      obtain ⟨_, memory⟩ := step_memory stored stepped
      rw [memory] at reached
      cases reached
    | disk before =>
      obtain ⟨origin, ledger, kept⟩ := backed before stored
      obtain ⟨after, larger, same, still⟩ := kept.step tracked stored spares.1.2 spares.2 stepped
      rw [same] at reached
      cases reached
      exact ⟨origin, larger, still⟩
  | crash point kept generatedId now unlinks =>
    cases stored : world.storage with
    | memory rings =>
      obtain ⟨restarted, fresh⟩ := tracked_restart stored stepped
      obtain ⟨lost, restarted⟩ := restarted first
      refine ⟨lost, restarted, fun disk reached => ?_⟩
      rw [fresh] at reached
      cases reached
    | disk disk =>
      obtain ⟨origin, ledger, kept⟩ := backed disk stored
      obtain ⟨lost, reopened, after, origin, ledger, reached, still⟩ := kept.reopen tracked stored spares.1 stepped
      refine ⟨lost, reopened, fun other same => ?_⟩
      rw [reached] at same
      cases same
      exact ⟨origin, ledger, still⟩

end SendWorld

/-- A buffer as it is opened: in memory, or on a directory with whole frames and perhaps torn ones behind them. -/
inductive Storage.Opens (config : WriterConfig) : Storage codec → Prop where
  | memory : Opens config (.memory fun _ => {})
  | disk (generatedId : Nat) (now : Instant) (unlinks : Nat → Bool) (stock : Stock codec) (bound : SignalKind → Nat)
      (laid : Laid 0 config.maxPayloadLen stock) (numbers : Numbers bound stock.ledger stock.pending)
      (limited : ∀ signal, bound signal ≤ u64Max) (below : ∀ signal, stock.dir.watermarkOf signal < u64Max) :
      Opens config (.disk (.opened codec config generatedId now unlinks stock.dir))

theorem Storage.Opens.settled {config : WriterConfig} {start : Storage codec} (opens : start.Opens config)
    (inner : BufferInner) :
    SendWorld.Settled inner config (fun signal => (start.rings signal).state.ring.nextSeq)
      ({ storage := start } : SendWorld codec) := by
  have tracked : (∀ signal, ∃ origin, (start.rings signal).Sound inner.config origin) →
      SendWorld.Tracked inner (fun signal => (start.rings signal).state.ring.nextSeq) (fun _ _ => False)
        ({ storage := start } : SendWorld codec) := fun sound =>
    { sound := sound
      numbered := fun _ member => absurd member List.not_mem_nil
      whole := fun _ member => absurd member List.not_mem_nil
      owned := fun _ _ above below => absurd below (Nat.not_lt.mpr above)
      withdrawn := fun _ _ => False.elim }
  cases opens with
  | memory => exact ⟨_, tracked fun _ => ⟨_, Opened.new.sound inner.config⟩, nofun⟩
  | disk generatedId now unlinks stock bound laid numbers limited below =>
    have sane := DiskWorld.sane_opened inner laid numbers limited below generatedId now unlinks
    refine ⟨_, tracked fun signal => ⟨_, sane.guarded.sound signal⟩, fun disk same => ?_⟩
    cases same
    refine ⟨_, _, sane, ?_, fun _ member => absurd member List.not_mem_nil, fun _ _ => False.elim⟩
    rintro request ⟨reply, pending, _⟩
    cases pending

namespace SendWorld

variable {inner : BufferInner} {config : WriterConfig} {world : SendWorld codec} {lost : SignalKind → Nat → Prop}

/-- Nothing of a call that has returned an error is queued or leased, and what is so was there at the start or is of
    a call. -/
structure AllOrNothing (start : Storage codec) (world : SendWorld codec) : Prop where
  failed : ∀ call ∈ world.calls, ∀ error, call.phase = .returned (.error error) →
    ∀ seqId ∈ call.seqIds, ∀ payload, ¬ (world.ring call.signal).Holds seqId payload
  owned : ∀ signal seqId payload, (world.ring signal).Holds seqId payload →
    seqId < (start.rings signal).state.ring.nextSeq ∨ ∃ call ∈ world.calls, call.signal = signal ∧ seqId ∈ call.seqIds

theorem AllOrNothing.of_tracked {start : Storage codec}
    (tracked : Tracked inner (fun signal => (start.rings signal).state.ring.nextSeq) lost world) :
    AllOrNothing start world := by
  constructor
  · intro call member error phase seqId listed payload
    obtain ⟨origin, sound⟩ := tracked.sound call.signal
    have whole := tracked.whole call member
    simp only [SendCall.Whole, phase] at whole
    exact (whole seqId listed).not_holds sound payload
  · intro signal seqId payload holds
    obtain ⟨origin, sound⟩ := tracked.sound signal
    by_cases old : seqId < (start.rings signal).state.ring.nextSeq
    · exact .inl old
    · rcases tracked.owned signal seqId (Nat.not_lt.mp old) (sound.holds_lt holds) with owned | gone
      · exact .inr owned
      · exact absurd holds ((tracked.withdrawn signal seqId gone).not_holds sound payload)

/-- Over any number of ends of the process, in memory mode or in disk mode, a call that returns an error leaves nothing
    behind if every batch is at most one frame and, up to the last reopening, appends go behind whole frames only and no
    sync fails behind one. -/
theorem all_or_nothing_of_run (inner : BufferInner) (config : WriterConfig) {start : Storage codec}
    (opens : start.Opens config) {reopened world : SendWorld codec}
    (lives : Run (live inner config) (Spares inner config) { storage := start } reopened)
    (run : Run (step inner config) (oneFrame inner) reopened world) : AllOrNothing start world := by
  obtain ⟨lost, tracked, _⟩ := lives.invariant _ (opens.settled inner)
    fun _ _ _ settled spares stepped => settled.live spares stepped
  have last : Tracked inner (fun signal => (start.rings signal).state.ring.nextSeq) lost world :=
    run.invariant _ tracked fun _ _ _ tracked single stepped => tracked.step single stepped
  exact .of_tracked last

/-- A frame of at most two rows is within the maximum. -/
def rowInner : BufferInner :=
  { sinkName := "lake", instanceId := 7
    config := { mode := .disk, segmentSizeBytes := 2, syncOnWrite := true, maxBatchIntervalSec := 0 } }

def rowConfig : WriterConfig := .ofBuffer "/var/lib/buffer" rowInner.config

def openedRows : Storage rowCodec := .disk (.opened rowCodec rowConfig 7 0 (fun _ => true) {})

def rowFrame (rows : List UInt8) (small : rows.length ≤ 2) : Frame rowCodec where
  signal := .logs
  seqId := 0
  batch := ⟨1, rows, 8⟩
  payload := 1 :: 8 :: rows
  encoded := rfl
  seqFits := Nat.zero_le _
  rowFits := small.trans (by decide)
  payloadFits := (Nat.add_le_add_right small 2).trans (by decide)

def preEncodedRows (rows : List UInt8) (small : rows.length ≤ 2) : PreEncodedFrame (RowBatch UInt8 UInt8) :=
  ⟨(rowFrame rows small).header, (rowFrame rows small).bytes, (rowFrame rows small).batch⟩

theorem split_two : splitAndEncodeFramesForDisk rowCodec .logs ⟨1, [4, 5], 8⟩
    rowInner.config.maxDiskFramePayloadBytes = .ok [preEncodedRows [4, 5] (by decide)] :=
  splitAndEncodeRecursive_fits rfl (by decide) []

theorem split_three : splitAndEncodeFramesForDisk rowCodec .logs ⟨1, [4, 5, 6], 8⟩
    rowInner.config.maxDiskFramePayloadBytes =
      .ok [preEncodedRows [4] (by decide), preEncodedRows [5, 6] (by decide)] :=
  (splitAndEncodeRecursive_halves rfl (by decide) (by decide)
    (splitAndEncodeRecursive_fits rfl (by decide) [])).trans (splitAndEncodeRecursive_fits rfl (by decide) _)

def started (calls : List (SendCall rowCodec)) : SendWorld rowCodec := { storage := openedRows, calls := calls }

def sending (rows : List UInt8) (frames : List (Frame rowCodec)) : SendCall rowCodec :=
  ⟨.logs, ⟨1, rows, 8⟩, .reserving frames, []⟩

theorem send_started (calls : List (SendCall rowCodec)) {rows : List UInt8}
    {frames : List (PreEncodedFrame (RowBatch UInt8 UInt8))} (stored : List (Frame rowCodec))
    (split : splitAndEncodeFramesForDisk rowCodec .logs ⟨1, rows, 8⟩ rowInner.config.maxDiskFramePayloadBytes =
      .ok frames) (made : frames.filterMap (fun frame => frame.frame? rowCodec .logs) = stored) :
    live rowInner rowConfig (started calls) (.live (.send .logs ⟨1, rows, 8⟩ none)) =
      some (started (calls ++ [sending rows stored])) := by
  have small : ¬65536 ≤ 8 := by decide
  simp only [live, step, started, openedRows, Storage.send, Storage.encode, if_neg small, split, made]
  rfl

/-- One append, from the reservation of the call with this index to the end of the batch of the writer. -/
def append (index : Nat) (faults : WriteFaults) : List (SendAction rowCodec) :=
  [.poll index 5, .buffer (.submit 0), .buffer (.writer .receive), .buffer (.writer (.process faults)),
    .buffer (.writer (.sync none)), .buffer (.reply 6), .buffer (.writer (.persist none fun _ => true))]

def restart : SendLife rowCodec := .crash .between (fun _ => 100) 7 8 fun _ => true

def failedSeqIds (world : SendWorld codec) : List Nat :=
  (world.calls.filter (·.hasFailed)).flatMap (·.seqIds)

def leasedSeqIds (world : SendWorld codec) : List Nat :=
  (world.ring .logs).leases.flatMap fun held => (held.value.payloads.zip held.value.leased).map (·.2.seqId)

def plainClean (config : WriterConfig) (world : SendWorld codec) : SendLife codec → Bool
  | .live (.send ..) => false
  | .live action => world.storage.cleanStep config action
  | .crash point _ _ _ _ => world.storage.cleanCrash config point

theorem clean_of_plain {inner : BufferInner} {world : SendWorld codec} {life : SendLife codec}
    (plain : plainClean config world life = true) : Clean inner config world life := by
  cases life with
  | live action =>
    cases action with
    | send => cases plain
    | poll index now => exact ⟨trivial, plain⟩
    | drop index => exact ⟨trivial, plain⟩
    | buffer action => exact ⟨trivial, plain⟩
  | crash point kept generatedId now unlinks => exact plain

def plainSpares (config : WriterConfig) (world : SendWorld codec) (life : SendLife codec) : Bool :=
  plainClean config world life && world.syncsHold life

theorem spares_of_plain {inner : BufferInner} {world : SendWorld codec} {life : SendLife codec}
    (plain : plainSpares config world life = true) : Spares inner config world life := by
  obtain ⟨clean, holds⟩ := Bool.and_eq_true_iff.mp plain
  exact ⟨clean_of_plain clean, holds⟩

theorem openedRows_opens : openedRows.Opens rowConfig :=
  .disk 7 0 (fun _ => true) ⟨fun _ => [], [], {}⟩ (fun _ => 1)
    ⟨fun _ _ _ found => by simp at found, fun _ _ member => absurd member List.not_mem_nil,
      fun _ _ member => absurd member List.not_mem_nil⟩
    ⟨fun _ => List.nodup_nil, fun _ _ _ _ member => absurd member List.not_mem_nil,
      fun _ _ member => absurd member List.not_mem_nil⟩
    (fun _ => by decide) fun signal => by cases signal <;> decide

theorem send_clean {calls : List (SendCall rowCodec)} {rows : List UInt8}
    {frames : List (PreEncodedFrame (RowBatch UInt8 UInt8))}
    (split : splitAndEncodeFramesForDisk rowCodec .logs ⟨1, rows, 8⟩ rowInner.config.maxDiskFramePayloadBytes =
      .ok frames) (few : frames.length ≤ 1) :
    Clean rowInner rowConfig (started calls) (.live (.send .logs ⟨1, rows, 8⟩ none)) := by
  refine ⟨fun others again => ?_, rfl⟩
  rw [split] at again
  cases again
  exact few

/-- The second of two batches is stored, no segment can be created for the first, and the process ends. -/
def storeSecond : List (SendLife rowCodec) :=
  [.live (.poll 0 5), .live (.poll 1 5), .live (.buffer (.submit 1)), .live (.buffer (.submit 0)),
    .live (.buffer (.writer .receive)), .live (.buffer (.writer (.process {}))),
    .live (.buffer (.writer (.process { create := some "no space" }))), .live (.buffer (.writer (.sync none))),
    .live (.buffer (.reply 6)), .live (.buffer (.reply 6)), .live (.buffer (.writer (.persist none fun _ => true))),
    restart]

theorem all_or_nothing_of_run_refused :
    ∃ reopened world, Run (live rowInner rowConfig) (Spares rowInner rowConfig) { storage := openedRows } reopened ∧
      Run (step rowInner rowConfig) (oneFrame rowInner) reopened world ∧
      (failedSeqIds world = [1] ∧ leasedSeqIds world = [2]) ∧ AllOrNothing openedRows world := by
  have first := send_started [] [rowFrame [4, 5] (by decide)] split_two rfl
  have second := send_started [sending [4, 5] [rowFrame [4, 5] (by decide)]] [rowFrame [4, 5] (by decide)] split_two rfl
  have ran : ((executePermitted (live rowInner rowConfig) (fun world life => plainSpares rowConfig world life = true)
      (started [sending [4, 5] [rowFrame [4, 5] (by decide)], sending [4, 5] [rowFrame [4, 5] (by decide)]])
      storeSecond).any fun reopened =>
        (reopened.step rowInner rowConfig (.buffer (.ring .logs (.pop 9)))).any fun world =>
          decide (failedSeqIds world = [1] ∧ leasedSeqIds world = [2])) = true := by
    decide +kernel
  obtain ⟨reopened, executed, found⟩ := (Option.any_eq_true _ _).mp ran
  obtain ⟨world, popped, leased⟩ := (Option.any_eq_true _ _).mp found
  have lives : Run (live rowInner rowConfig) (Spares rowInner rowConfig) { storage := openedRows } reopened :=
    .head ⟨_, ⟨send_clean split_two le_rfl, rfl⟩, first⟩ (.head ⟨_, ⟨send_clean split_two le_rfl, rfl⟩, second⟩
      ((executePermitted_run _ _ _ executed).weaken fun _ _ => spares_of_plain))
  have run : Run (step rowInner rowConfig) (oneFrame rowInner) reopened world :=
    .head ⟨.buffer (.ring .logs (.pop 9)), trivial, popped⟩ .refl
  exact ⟨reopened, world, lives, run, of_decide_eq_true leased,
    all_or_nothing_of_run rowInner rowConfig openedRows_opens lives run⟩

theorem not_allOrNothing {start : Storage codec} {world : SendWorld codec} {seqId : Nat}
    (failed : (world.calls.any fun call => call.hasFailed && (call.signal == .logs && call.seqIds.contains seqId)) = true)
    (leased : seqId ∈ leasedSeqIds world) : ¬ AllOrNothing start world := by
  intro holds
  obtain ⟨call, member, returned⟩ := List.any_eq_true.mp failed
  obtain ⟨ended, own⟩ := Bool.and_eq_true_iff.mp returned
  obtain ⟨logs, listed⟩ := Bool.and_eq_true_iff.mp own
  have signal : call.signal = .logs := by simpa using logs
  obtain ⟨held, inside, carries⟩ := List.mem_flatMap.mp leased
  obtain ⟨⟨payload, item⟩, pair, numbered⟩ := List.mem_map.mp carries
  unfold SendCall.hasFailed at ended
  split at ended
  · rename_i error phase
    refine holds.failed call member error phase seqId (by simpa using listed) payload (.inr ?_)
    rw [signal]
    exact ⟨held, inside, item, pair, numbered⟩
  · cases ended

/-- A batch of two frames of which the first is leased and the second fails. -/
theorem split_send_delivered :
    ¬∀ world, Run (live rowInner rowConfig) (fun _ _ => True) { storage := openedRows } world →
      AllOrNothing openedRows world := by
  intro allOrNothing
  have sent := send_started [] [rowFrame [4] (by decide), rowFrame [5, 6] (by decide)] split_three rfl
  have ran : ((execute (live rowInner rowConfig)
      (started [sending [4, 5, 6] [rowFrame [4] (by decide), rowFrame [5, 6] (by decide)]])
      ((append 0 {} ++ [SendAction.buffer (.ring .logs (.pop 7))] ++
        append 0 { write := some (5, "no space") }).map .live)).any
        fun world => (world.calls.any fun call => call.hasFailed && (call.signal == .logs && call.seqIds.contains 1)) &&
          decide (1 ∈ leasedSeqIds world)) = true := by
    decide +kernel
  obtain ⟨world, executed, found⟩ := (Option.any_eq_true _ _).mp ran
  obtain ⟨failed, leased⟩ := Bool.and_eq_true_iff.mp found
  exact not_allOrNothing failed (of_decide_eq_true leased)
    (allOrNothing world (.head ⟨_, trivial, sent⟩ (execute_run (fun _ _ => trivial) _ executed)))

/-- A batch of one frame that is written whole, and whose segment cannot be synced: recovery queues it. -/
theorem unsynced_send_delivered :
    ∃ world, Run (live rowInner rowConfig) (Clean rowInner rowConfig) { storage := openedRows } world ∧
      ¬AllOrNothing openedRows world := by
  have sent := send_started [] [rowFrame [4, 5] (by decide)] split_two rfl
  have ran : ((executePermitted (live rowInner rowConfig) (fun world life => plainClean rowConfig world life = true)
      (started [sending [4, 5] [rowFrame [4, 5] (by decide)]])
      ((append 0 { sealSync := some "input/output error" }).map .live ++
        [restart, .live (.buffer (.ring .logs (.pop 9)))])).any fun world =>
          (world.calls.any fun call => call.hasFailed && (call.signal == .logs && call.seqIds.contains 1)) &&
            decide (1 ∈ leasedSeqIds world)) = true := by
    decide +kernel
  obtain ⟨world, executed, found⟩ := (Option.any_eq_true _ _).mp ran
  obtain ⟨failed, leased⟩ := Bool.and_eq_true_iff.mp found
  refine ⟨world, .head ⟨_, send_clean split_two le_rfl, sent⟩ ?_, not_allOrNothing failed (of_decide_eq_true leased)⟩
  exact (executePermitted_run _ _ _ executed).weaken fun _ _ => clean_of_plain

end SendWorld

end OtelDatalake.Disk
