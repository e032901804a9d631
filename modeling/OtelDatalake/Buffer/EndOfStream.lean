import OtelDatalake.Buffer.Stream

open Std OtelDatalake.Foundation

namespace OtelDatalake.Buffer

variable {Batch : Type} [RecordBatch Batch]

section Sums

variable {α : Type} {items : List α} {index : Nat} {item : α}

theorem sum_eraseIdx (weight : α → Nat) (found : items[index]? = some item) :
    (items.map weight).sum = weight item + ((items.eraseIdx index).map weight).sum := by
  induction items generalizing index with
  | nil => cases found
  | cons first rest ih =>
    cases index with
    | zero =>
      cases found
      rfl
    | succ index =>
      have split := ih (by simpa using found)
      simp only [List.eraseIdx_cons_succ, List.map_cons, List.sum_cons]
      omega

theorem sum_set (weight : α → Nat) (found : items[index]? = some item) (other : α) :
    ((items.set index other).map weight).sum + weight item = (items.map weight).sum + weight other := by
  induction items generalizing index with
  | nil => cases found
  | cons first rest ih =>
    cases index with
    | zero =>
      cases found
      simp only [List.set_cons_zero, List.map_cons, List.sum_cons]
      omega
    | succ index =>
      have split := ih (by simpa using found)
      simp only [List.set_cons_succ, List.map_cons, List.sum_cons]
      omega

end Sums

namespace RingWorld

structure Drained (world : RingWorld Batch) : Prop where
  closed : world.state.ring.closed = true
  empty : ∀ seq, seq ∉ world.state.ring.slots

variable {config : BufferConfig} {origin : SignalRing Batch} {world next : RingWorld Batch}

theorem Drained.of_state (same : next.state = world.state) (drained : Drained world) : Drained next := by
  constructor
  · rw [same]
    exact drained.closed
  · rw [same]
    exact drained.empty

theorem Drained.step {inner : BufferInner} {signal : SignalKind} {action : RingAction Batch} (drained : Drained world)
    (sound : Sound inner.config origin world) (stepped : RingWorld.step inner signal world action = some next) :
    Drained next := by
  obtain ⟨_, advance⟩ := sound.step stepped
  have empty : next.state.ring.nextSeq = world.state.ring.nextSeq → ∀ seq, seq ∉ next.state.ring.slots := by
    intro same seq member
    rcases advance.transition.evolves.slots seq member with old | fresh
    · exact drained.empty seq old
    · have below := advance.transition.accounted.balanced.belowNext seq member
      omega
  cases action with
  | enqueue batch now =>
    obtain ⟨_, rfl⟩ := step_enqueue stepped
    have refused := reserveOrEnqueueSlot_refused world.state inner.config (RecordBatch.arrayMemorySize batch)
      (RecordBatch.numRows batch) (some batch) now drained.closed
    exact Drained.of_state refused drained
  | reserve frameBytesLen batchRows rows schema now =>
    obtain ⟨_, rfl⟩ := step_reserve stepped
    have refused := reserveOrEnqueueSlot_refused world.state inner.config frameBytesLen batchRows none now
      drained.closed
    exact Drained.of_state refused drained
  | closeSenders =>
    cases stepped
    exact ⟨rfl, drained.empty⟩
  | _ =>
    refine ⟨?_, empty (step_nextSeq stepped rfl)⟩
    rw [step_closed stepped (by simp)]
    exact drained.closed

end RingWorld

theorem tryPopSignalLease_drained {inner : BufferInner} {signal : SignalKind} {state : SignalRingState Batch}
    {now : Instant} (drained : (tryPopSignalLease inner signal state now).2.2.2 = true) :
    state.ring.closed = true ∧ ∀ seq, seq ∉ state.ring.slots := by
  have none : ∀ {slots : ExtTreeMap Nat LeaseSlotState}, slots.isEmpty = true → ∀ seq, seq ∉ slots := by
    intro slots empty seq member
    rw [ExtTreeMap.isEmpty_iff] at empty
    subst empty
    exact ExtTreeMap.not_mem_empty member
  simp only [tryPopSignalLease] at drained
  split at drained
  · simp only [SignalRing.isDrained, Bool.and_eq_true] at drained
    exact ⟨drained.1.1.1, none drained.2⟩
  · split at drained
    · simp only [Bool.and_eq_true] at drained
      exact ⟨drained.1.1, none drained.2⟩
    · repeat' split at drained
      all_goals cases drained

theorem recover_closed (watermark : Nat) (state : SignalRingState Batch) (event : RecoveryEvent Batch) :
    (SignalRingState.recover watermark state event).ring.closed = state.ring.closed := by
  cases event with
  | frame item =>
    simp only [SignalRingState.recover]
    split <;> rfl
  | _ => rfl

theorem Opened.unclosed {state : SignalRingState Batch} (opened : Opened state) : state.ring.closed = false := by
  cases opened with
  | new => rfl
  | recovered watermark events bounded numbers distinct =>
    have scanned : ∀ state : SignalRingState Batch,
        (events.foldl (SignalRingState.recover watermark) state).ring.closed = state.ring.closed := by
      clear numbers distinct
      induction events with
      | nil => exact fun _ => rfl
      | cons event rest ih =>
        intro state
        rw [List.foldl_cons, ih]
        exact recover_closed watermark state event
    exact scanned _

namespace StreamWorld

def senderCount (world : StreamWorld Batch) (signal : SignalKind) : Nat :=
  (world.senders.map fun sender => (scopeSignals sender).count signal).sum +
    (world.closing.map fun task => task.remaining.count signal).sum

/-- What the receiver knows of the rings of its scope. -/
def Seen (scope : Option SignalKind) (world : StreamWorld Batch) : Prop :=
  match world.receiver with
  | .scanning _ left true _ => ∀ signal ∈ scopeSignals scope, signal ∉ left → (world.rings signal).Drained
  | .returned (.ok none) => ∀ signal ∈ scopeSignals scope, (world.rings signal).Drained
  | _ => True

structure Counted (config : BufferConfig) (origin : SignalKind → SignalRing Batch) (world : StreamWorld Batch) :
    Prop where
  sound : ∀ signal, RingWorld.Sound config (origin signal) (world.rings signal)
  senders : ∀ signal, world.activeSenders signal = world.senderCount signal
  closed : ∀ signal, (world.rings signal).state.ring.closed = true → world.activeSenders signal = 0
  locking : ∀ task ∈ world.closing, ∀ signal, task.locking = some signal → world.activeSenders signal = 0

variable {inner : BufferInner} {scope : Option SignalKind} {config : BufferConfig}
  {origin : SignalKind → SignalRing Batch} {world next : StreamWorld Batch} {signal : SignalKind}

theorem setRing_cases (inv : SignalKind → RingWorld Batch → Prop) {ring : RingWorld Batch}
    (others : ∀ other, inv other (world.rings other)) (changed : inv signal ring) (other : SignalKind) :
    inv other ((world.setRing signal ring).rings other) := by
  by_cases same : other = signal
  · subst same
    simpa [setRing] using changed
  · simpa [setRing, same] using others other

theorem Seen.of_drained (seen : Seen scope world) (receiver : next.receiver = world.receiver)
    (drained : ∀ signal, (world.rings signal).Drained → (next.rings signal).Drained) : Seen scope next := by
  unfold Seen at seen ⊢
  rw [receiver]
  split
  · rename_i now left deadline found
    rw [found] at seen
    exact fun signal member outside => drained signal (seen signal member outside)
  · rename_i found
    rw [found] at seen
    exact fun signal member => drained signal (seen signal member)
  · trivial

theorem Counted.drained_setRing {ring : RingWorld Batch} {action : RingAction Batch}
    (counted : Counted inner.config origin world)
    (stepped : (world.rings signal).step inner signal action = some ring) (other : SignalKind)
    (drained : (world.rings other).Drained) : ((world.setRing signal ring).rings other).Drained := by
  revert drained
  refine setRing_cases (fun other ring => (world.rings other).Drained → ring.Drained) (fun _ => id) ?_ other
  exact fun drained => drained.step (counted.sound signal) stepped

theorem Counted.setRing {ring : RingWorld Batch} {action : RingAction Batch}
    (counted : Counted inner.config origin world)
    (stepped : (world.rings signal).step inner signal action = some ring)
    (last : action = .closeSenders → world.activeSenders signal = 0) :
    Counted inner.config origin (world.setRing signal ring) where
  sound := by
    obtain ⟨_, advance⟩ := (counted.sound signal).step stepped
    exact setRing_cases _ counted.sound (advance.sound (counted.sound signal))
  senders := counted.senders
  closed := by
    refine setRing_cases (fun other ring => ring.state.ring.closed = true → world.activeSenders other = 0)
      counted.closed ?_
    intro closed
    by_cases closing : action = .closeSenders
    · exact last closing
    · rw [RingWorld.step_closed stepped closing] at closed
      exact counted.closed signal closed
  locking := counted.locking

theorem Counted.count_zero (counted : Counted config origin world) (none : world.activeSenders signal = 0) :
    (∀ sender ∈ world.senders, (scopeSignals sender).count signal = 0) ∧
      ∀ task ∈ world.closing, task.remaining.count signal = 0 := by
  have total := counted.senders signal
  rw [none, senderCount, eq_comm, Nat.add_eq_zero_iff, List.sum_eq_zero_iff_forall_eq_nat,
    List.sum_eq_zero_iff_forall_eq_nat] at total
  simpa using total

theorem Counted.cloneSender {index : Nat} {sender : Option SignalKind} (counted : Counted config origin world)
    (found : world.senders[index]? = some sender) :
    Counted config origin { world with
      senders := world.senders ++ [sender]
      activeSenders := fun signal => world.activeSenders signal + (scopeSignals sender).count signal } := by
  have unchanged : ∀ signal, world.activeSenders signal = 0 →
      world.activeSenders signal + (scopeSignals sender).count signal = 0 := by
    intro signal none
    rw [none, (counted.count_zero none).1 sender (List.mem_of_getElem? found)]
  refine ⟨counted.sound, fun signal => ?_, fun signal closed => unchanged signal (counted.closed signal closed),
    fun task member signal locked => unchanged signal (counted.locking task member signal locked)⟩
  have total := counted.senders signal
  simp only [senderCount, List.map_append, List.sum_append, List.map_cons, List.map_nil, List.sum_singleton] at total ⊢
  omega

theorem Counted.dropSender {index : Nat} {sender : Option SignalKind} (counted : Counted config origin world)
    (found : world.senders[index]? = some sender) :
    Counted config origin { world with
      senders := world.senders.eraseIdx index
      closing := world.closing ++ [{ remaining := scopeSignals sender }] } := by
  refine ⟨counted.sound, fun signal => ?_, counted.closed, fun task member signal locked => ?_⟩
  · have total := counted.senders signal
    have moved := sum_eraseIdx (fun sender => (scopeSignals sender).count signal) found
    simp only [senderCount, List.map_append, List.sum_append, List.map_cons, List.map_nil,
      List.sum_singleton] at total ⊢
    omega
  · rcases List.mem_append.mp member with old | new
    · exact counted.locking task old signal locked
    · rw [List.mem_singleton.mp new] at locked
      cases locked

theorem Counted.countDown {index : Nat} {rest : List SignalKind} (counted : Counted config origin world)
    (found : world.closing[index]? = some { remaining := signal :: rest, locking := none }) :
    Counted config origin { world with
      activeSenders := Function.update world.activeSenders signal (world.activeSenders signal - 1)
      closing := world.closing.set index
        { remaining := rest, locking := if world.activeSenders signal = 1 then some signal else none } } := by
  have unchanged : ∀ other, world.activeSenders other = 0 →
      Function.update world.activeSenders signal (world.activeSenders signal - 1) other = 0 := by
    intro other none
    by_cases same : other = signal
    · subst same
      simp [none]
    · simpa [same] using none
  refine ⟨counted.sound, fun other => ?_, fun other closed => unchanged other (counted.closed other closed),
    fun task member other locked => ?_⟩
  · have total := counted.senders other
    have replaced := sum_set (fun task : ClosingSender => task.remaining.count other) found
      { remaining := rest, locking := if world.activeSenders signal = 1 then some signal else none }
    by_cases same : other = signal
    · subst same
      simp only [senderCount, List.count_cons_self, Function.update_self] at total replaced ⊢
      omega
    · rw [List.count_cons_of_ne (Ne.symm same)] at replaced
      simp only [senderCount, Function.update_of_ne same] at total replaced ⊢
      omega
  · rcases List.mem_or_eq_of_mem_set member with old | new
    · exact unchanged other (counted.locking task old other locked)
    · rw [new] at locked
      simp only at locked
      split at locked
      · rename_i last
        cases locked
        simp [last]
      · cases locked

theorem Counted.unlock {index : Nat} {rest : List SignalKind} (counted : Counted config origin world)
    (found : world.closing[index]? = some { remaining := rest, locking := some signal }) :
    Counted config origin { world with closing := world.closing.set index { remaining := rest } } := by
  refine ⟨counted.sound, fun other => ?_, counted.closed, fun task member other locked => ?_⟩
  · have total := counted.senders other
    have replaced := sum_set (fun task : ClosingSender => task.remaining.count other) found { remaining := rest }
    simp only [senderCount] at total replaced ⊢
    omega
  · rcases List.mem_or_eq_of_mem_set member with old | new
    · exact counted.locking task old other locked
    · rw [new] at locked
      cases locked

theorem mem_scanOrder (rrCursor : Nat) : signal ∈ scanOrder scope rrCursor ↔ signal ∈ scopeSignals scope := by
  cases scope with
  | some own => rfl
  | none => exact List.mem_rotate

theorem checkFatal_counted (phase : ReceiverPhase Batch) (counted : Counted config origin world) :
    Counted config origin (world.checkFatal phase) := by
  unfold checkFatal
  split <;> exact ⟨counted.sound, counted.senders, counted.closed, counted.locking⟩

theorem checkFatal_seen (phase : ReceiverPhase Batch) (seen : Seen scope { world with receiver := phase }) :
    Seen scope (world.checkFatal phase) := by
  unfold checkFatal
  split
  · trivial
  · exact seen

theorem tryPop_seen {now : Instant} {left : List SignalKind} {allDrained : Bool} {deadline : Option Instant}
    (counted : Counted inner.config origin world)
    (seen : Seen scope { world with receiver := .scanning now (signal :: left) allDrained deadline })
    (popped : world.tryPop inner scope now signal left allDrained deadline = some next) :
    Counted inner.config origin next ∧ Seen scope next := by
  simp only [tryPop, stepRing, Option.map_map, Option.map_eq_some_iff] at popped
  obtain ⟨ring, stepped, rfl⟩ := popped
  have moved := counted.setRing stepped (by simp)
  have kept := counted.drained_setRing stepped
  simp only [Function.comp_apply]
  split
  · exact ⟨⟨moved.sound, moved.senders, moved.closed, moved.locking⟩, trivial⟩
  · refine ⟨⟨moved.sound, moved.senders, moved.closed, moved.locking⟩, ?_⟩
    cases allDrained with
    | false => trivial
    | true =>
      cases drained : (tryPopSignalLease inner signal (world.rings signal).state now).2.2.2 with
      | false => trivial
      | true =>
        intro other member outside
        apply kept other
        by_cases same : other = signal
        · subst same
          obtain ⟨closed, empty⟩ := tryPopSignalLease_drained drained
          exact ⟨closed, empty⟩
        · exact seen other member (by simp [same, outside])

theorem stepRing_seen {action : RingAction Batch} (counted : Counted inner.config origin world)
    (seen : Seen scope world) (stepped : world.stepRing inner signal action = some next)
    (last : action = .closeSenders → world.activeSenders signal = 0) :
    Counted inner.config origin next ∧ Seen scope next := by
  obtain ⟨ring, moved, rfl⟩ := Option.map_eq_some_iff.mp stepped
  exact ⟨counted.setRing moved last, seen.of_drained rfl (counted.drained_setRing moved)⟩

theorem step_seen {action : StreamAction Batch} (counted : Counted inner.config origin world)
    (seen : Seen scope world) (stepped : step inner scope world action = some next) :
    Counted inner.config origin next ∧ Seen scope next := by
  cases action with
  | ring signal action =>
    cases action with
    | closeSenders => cases stepped
    | _ => exact stepRing_seen counted seen stepped (by simp)
  | cloneSender index =>
    obtain ⟨sender, found, rfl⟩ := Option.map_eq_some_iff.mp stepped
    exact ⟨counted.cloneSender found, seen⟩
  | dropSender index =>
    obtain ⟨sender, found, rfl⟩ := Option.map_eq_some_iff.mp stepped
    exact ⟨counted.dropSender found, seen⟩
  | countDown index =>
    simp only [step] at stepped
    split at stepped
    · rename_i signal rest found
      cases stepped
      exact ⟨counted.countDown found, seen⟩
    · cases stepped
  | closeRing index =>
    simp only [step] at stepped
    split at stepped
    · rename_i rest signal found
      have last := counted.locking _ (List.mem_of_getElem? found) signal rfl
      exact stepRing_seen (counted.unlock found) seen stepped (fun _ => last)
    · cases stepped
  | nextLease now =>
    simp only [step] at stepped
    split at stepped
    · cases stepped
    · cases stepped
    · cases stepped
      exact ⟨checkFatal_counted _ counted, checkFatal_seen _ trivial⟩
  | enable =>
    simp only [step] at stepped
    split at stepped
    · cases stepped
      refine ⟨checkFatal_counted _ counted, checkFatal_seen _ fun signal member outside => ?_⟩
      exact absurd ((mem_scanOrder world.rrCursor).mpr member) outside
    · cases stepped
  | tryPop =>
    simp only [step] at stepped
    split at stepped
    · rename_i now signal left allDrained deadline found
      refine tryPop_seen counted ?_ stepped
      unfold Seen at seen ⊢
      rwa [found] at seen
    · rename_i now allDrained deadline found
      cases stepped
      refine ⟨⟨counted.sound, counted.senders, counted.closed, counted.locking⟩, ?_⟩
      cases allDrained with
      | false => trivial
      | true =>
        unfold Seen at seen
        rw [found] at seen
        exact fun signal member => seen signal member (by simp)
    · cases stepped

theorem opened_counted {states : SignalKind → SignalRingState Batch} (isOpened : ∀ signal, Opened (states signal))
    (config : BufferConfig) (senders : List (Option SignalKind)) :
    Counted config (fun signal => (states signal).ring) (opened states senders) where
  sound signal := (isOpened signal).sound config
  senders signal := by
    simp [opened, senderCount, List.count_flatMap, Function.comp_def]
  closed signal closed := by
    rw [opened, (isOpened signal).unclosed] at closed
    cases closed
  locking task member := by cases member

/-- `next_lease` only ends the stream when every sender of its signals has closed and no slot of any kind is left in
    their rings, in any order of the operations of the buffer. -/
theorem nextLease_endOfStream (inner : BufferInner) (scope : Option SignalKind)
    {states : SignalKind → SignalRingState Batch} (isOpened : ∀ signal, Opened (states signal))
    (senders : List (Option SignalKind)) {world : StreamWorld Batch}
    (run : Run (step inner scope) (fun _ _ => True) (opened states senders) world)
    (ended : world.receiver = .returned (.ok none)) :
    ∀ signal ∈ scopeSignals scope,
      world.activeSenders signal = 0 ∧
      (∀ sender ∈ world.senders, signal ∉ scopeSignals sender) ∧
      (∀ task ∈ world.closing, signal ∉ task.remaining) ∧
      (world.rings signal).state.ring.closed = true ∧
      ∀ seq : Nat, (world.rings signal).state.ring.slots[seq]? = none := by
  have kept : Counted inner.config (fun signal => (states signal).ring) world ∧ Seen scope world := by
    refine run.invariant (fun world => Counted inner.config (fun signal => (states signal).ring) world ∧
      Seen scope world) ⟨opened_counted isOpened inner.config senders, trivial⟩ ?_
    intro before action after kept _ stepped
    exact step_seen kept.1 kept.2 stepped
  obtain ⟨counted, seen⟩ := kept
  unfold Seen at seen
  rw [ended] at seen
  intro signal member
  have drained := seen signal member
  have none := counted.closed signal drained.closed
  obtain ⟨senders, closing⟩ := counted.count_zero none
  exact ⟨none, fun sender listed => List.count_eq_zero.mp (senders sender listed),
    fun task listed => List.count_eq_zero.mp (closing task listed), drained.closed,
    fun seq => ExtTreeMap.getElem?_eq_none (drained.empty seq)⟩

/-- The only sender is dropped while its batch is in flight; the nacked batch is delivered before the stream ends. -/
def drainedStream : List (StreamAction PlainBatch) :=
  [.ring .logs (.enqueue ⟨0, 2, [1, 2]⟩ 5), .nextLease 6, .enable, .tryPop, .dropSender 0, .countDown 0,
    .nextLease 7, .closeRing 0, .enable, .tryPop, .tryPop, .ring .logs (.nack 1 .transient 8 1 (.ok ()) (.ok ())),
    .nextLease 9000000000, .enable, .tryPop, .ring .logs (.ack 1 (.ok ())), .nextLease 9000000001, .enable,
    .tryPop, .tryPop]

theorem nextLease_endOfStream_drainedStream :
    ∃ world, execute (step RingWorld.plainInner (some .logs)) (opened (fun _ => {}) [some .logs]) drainedStream =
        some world ∧
      (world.receiver = .returned (.ok none) ∧ world.activeSenders .logs = 0) ∧
      ∀ seq : Nat, (world.rings .logs).state.ring.slots[seq]? = none :=
  ⟨_, rfl, ⟨rfl, rfl⟩, ((nextLease_endOfStream RingWorld.plainInner (some .logs) (fun _ => .new) [some .logs]
    (execute_run (fun _ _ => trivial) drainedStream rfl) rfl) .logs (by simp [scopeSignals])).2.2.2.2⟩

end StreamWorld

end OtelDatalake.Buffer
