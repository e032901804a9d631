import OtelDatalake.Buffer.WakeupSafety

open Std OtelDatalake.Foundation

namespace OtelDatalake.Buffer

variable {Batch : Type} [RecordBatch Batch]

namespace WaitingWorld

variable {inner : BufferInner} {scope : Option SignalKind} {origin : SignalKind → SignalRing Batch}
  {world next : WaitingWorld Batch} {action : WaitingAction Batch} {signal : SignalKind} {index : Nat}

theorem callAt_eq_some {phase : SenderPhase} {call : SlotCall Batch} :
    world.callAt index phase = some call ↔ world.calls[index]? = some call ∧ call.phase = phase := by
  simp [callAt, Option.filter_eq_some_iff]

theorem stepRing_eq_some {move : RingAction Batch} (moved : world.stepRing inner signal move = some next) :
    ∃ ring, (world.stream.rings signal).step inner signal move = some ring ∧
      next = { world with stream := world.stream.setRing signal ring } := by
  obtain ⟨stream, stepped, rfl⟩ := Option.map_eq_some_iff.mp moved
  obtain ⟨ring, taken, rfl⟩ := Option.map_eq_some_iff.mp stepped
  exact ⟨ring, taken, rfl⟩

/-- A step is a step of the stream, or a call changes its phase and at most a ring with it. -/
inductive Stepped (inner : BufferInner) (scope : Option SignalKind) (world : WaitingWorld Batch) :
    WaitingAction Batch → WaitingWorld Batch → Prop where
  | stream {action : StreamAction Batch} {next : WaitingWorld Batch}
      (stepped : world.stepStream inner scope action = some next)
      (other : ∀ signal move, action = .ring signal move → others move = true)
      (unborrowed : ∀ index remaining signal, action = .closeRing index →
        world.stream.closing[index]? = some { remaining := remaining, locking := some signal } →
        world.borrowed signal = false) : Stepped inner scope world (.stream action) next
  | call (signal : SignalKind) (request : SlotRequest Batch) :
      Stepped inner scope world (.call signal request)
        { world with calls := world.calls ++ [{ signal := signal, request := request }] }
  | pass {action : WaitingAction Batch} {index : Nat} {call : SlotCall Batch} {phase : SenderPhase}
      (found : world.calls[index]? = some call) (unblocked : call.phase ≠ .blocked)
      (other : phase ≠ .blocked ∧ phase ≠ .parked) (raised : raises inner world action = [])
      (registered : registers world action = none) :
      Stepped inner scope world action (world.setCall index { call with phase := phase })
  | attempt {index : Nat} {now : Instant} {call : SlotCall Batch} {ring : RingWorld Batch}
      (found : world.callAt index .looking = some call)
      (taken : (world.stream.rings call.signal).step inner call.signal (call.request.action now) = some ring) :
      Stepped inner scope world (.attempt index now)
        (WaitingWorld.setCall { world with stream := world.stream.setRing call.signal ring } index
          { call with
            phase :=
              if call.request.outcome inner.config (world.stream.rings call.signal).state now = .blocked then .blocked
              else .leaving })
  | markBlocked {index count : Nat} {call : SlotCall Batch} {ring : RingWorld Batch}
      (found : world.callAt index .blocked = some call)
      (taken : (world.stream.rings call.signal).step inner call.signal (.setBlockedSenders count) = some ring) :
      Stepped inner scope world (.markBlocked index)
        (WaitingWorld.setCall { world with stream := world.stream.setRing call.signal ring } index
          { call with phase := .parked, active := true })
  | leave {index count : Nat} {call : SlotCall Batch} {ring : RingWorld Batch}
      (found : world.callAt index .leaving = some call) (fewer : count ≤ world.blockedSenders call.signal)
      (taken : (world.stream.rings call.signal).step inner call.signal (.setBlockedSenders count) = some ring) :
      Stepped inner scope world (.leave index)
        (WaitingWorld.setCall { world with stream := world.stream.setRing call.signal ring } index
          { call with phase := .done, active := false })

theorem step_stepped (stepped : step inner scope world action = some next) : Stepped inner scope world action next := by
  cases action with
  | stream action =>
    cases action with
    | ring signal move =>
      simp only [step] at stepped
      split at stepped
      · rename_i other
        refine .stream stepped ?_ (by simp)
        intro signal move same
        cases same
        exact other
      · cases stepped
    | closeRing index =>
      simp only [step] at stepped
      split at stepped
      · rename_i remaining signal found
        split at stepped
        · cases stepped
        · rename_i unborrowed
          refine .stream stepped (by simp) ?_
          intro index remaining signal same located
          cases same
          rw [found] at located
          cases located
          exact Bool.not_eq_true _ ▸ unborrowed
      · cases stepped
    | _ => exact .stream stepped (by simp) (by simp)
  | call signal request =>
    cases stepped
    exact .call signal request
  | checkFatal index =>
    obtain ⟨call, found, rfl⟩ := Option.map_eq_some_iff.mp stepped
    rw [callAt_eq_some] at found
    refine .pass found.1 (by simp [found.2]) ?_ rfl rfl
    split <;> simp
  | attempt index now =>
    obtain ⟨call, found, moved⟩ := Option.bind_eq_some_iff.mp stepped
    obtain ⟨_, entered, rfl⟩ := Option.map_eq_some_iff.mp moved
    obtain ⟨ring, taken, rfl⟩ := stepRing_eq_some entered
    exact .attempt found taken
  | markBlocked index =>
    obtain ⟨call, found, moved⟩ := Option.bind_eq_some_iff.mp stepped
    obtain ⟨_, entered, rfl⟩ := Option.map_eq_some_iff.mp moved
    obtain ⟨ring, taken, rfl⟩ := stepRing_eq_some entered
    exact .markBlocked found taken
  | wake index =>
    obtain ⟨call, found, rfl⟩ := Option.map_eq_some_iff.mp stepped
    rw [callAt_eq_some] at found
    exact .pass found.1 (by simp [found.2]) (by simp) rfl rfl
  | cancel index =>
    obtain ⟨call, found, rfl⟩ := Option.map_eq_some_iff.mp stepped
    rw [callAt_eq_some] at found
    exact .pass found.1 (by simp [found.2]) (by simp) rfl rfl
  | leave index =>
    obtain ⟨call, found, moved⟩ := Option.bind_eq_some_iff.mp stepped
    obtain ⟨_, entered, rfl⟩ := Option.map_eq_some_iff.mp moved
    obtain ⟨ring, taken, rfl⟩ := stepRing_eq_some entered
    exact .leave found (Nat.sub_le ..) taken

def OnPass (world : WaitingWorld Batch) : Prop :=
  match world.stream.receiver with
  | .starting now => world.passStarted = now
  | .scanning now .. => world.passStarted = now
  | _ => True

structure Valid (inner : BufferInner) (scope : Option SignalKind) (origin : SignalKind → SignalRing Batch)
    (world : WaitingWorld Batch) : Prop where
  counted : world.stream.Counted inner.config origin
  seen : world.stream.Seen scope
  failing : world.stream.Failing
  onPass : world.OnPass

theorem OnPass.of_receiver (onPass : world.OnPass) (receiver : next.stream.receiver = world.stream.receiver)
    (passStarted : next.passStarted = world.passStarted) : next.OnPass := by
  unfold OnPass at onPass ⊢
  rw [receiver, passStarted]
  exact onPass

theorem OnPass.stepStream {action : StreamAction Batch} (onPass : world.OnPass)
    (stepped : world.stepStream inner scope action = some next) : next.OnPass := by
  obtain ⟨stream, moved, rfl⟩ := Option.map_eq_some_iff.mp stepped
  cases action with
  | ring signal move =>
    obtain ⟨ring, _, rfl⟩ := StreamWorld.step_ring moved
    exact onPass
  | cloneSender index =>
    obtain ⟨_, _, rfl⟩ := Option.map_eq_some_iff.mp moved
    exact onPass
  | dropSender index =>
    obtain ⟨_, _, rfl⟩ := Option.map_eq_some_iff.mp moved
    exact onPass
  | countDown index =>
    simp only [StreamWorld.step] at moved
    split at moved
    · cases moved
      exact onPass
    · cases moved
  | closeRing index =>
    simp only [StreamWorld.step] at moved
    split at moved
    · obtain ⟨_, _, rfl⟩ := Option.map_eq_some_iff.mp moved
      exact onPass
    · cases moved
  | nextLease now =>
    simp only [StreamWorld.step] at moved
    split at moved
    · cases moved
    · cases moved
    · cases moved
      simp only [StreamWorld.checkFatal]
      split
      · trivial
      · exact rfl
  | enable =>
    simp only [StreamWorld.step] at moved
    split at moved
    · rename_i now found
      cases moved
      unfold OnPass at onPass
      rw [found] at onPass
      simp only [StreamWorld.checkFatal]
      split
      · trivial
      · exact onPass
    · cases moved
  | tryPop =>
    simp only [StreamWorld.step] at moved
    split at moved
    · rename_i now signal left allDrained deadline found
      unfold OnPass at onPass
      rw [found] at onPass
      simp only [StreamWorld.tryPop, Option.map_eq_some_iff] at moved
      obtain ⟨_, _, rfl⟩ := moved
      split
      · trivial
      · exact onPass
    · rename_i now allDrained deadline found
      cases moved
      simp only [OnPass]
      cases allDrained <;> trivial
    · cases moved

theorem Valid.setRing {ring : RingWorld Batch} {move : RingAction Batch} {calls : List (SlotCall Batch)}
    (valid : world.Valid inner scope origin) (taken : (world.stream.rings signal).step inner signal move = some ring)
    (unclosed : move ≠ .closeSenders) :
    Valid inner scope origin { world with stream := world.stream.setRing signal ring, calls := calls } := by
  have stepped : world.stream.stepRing inner signal move = some (world.stream.setRing signal ring) := by
    rw [StreamWorld.stepRing, taken]
    rfl
  have whole : world.stream.step inner scope (.ring signal move) = some (world.stream.setRing signal ring) := by
    cases move with
    | closeSenders => exact absurd rfl unclosed
    | _ => exact stepped
  obtain ⟨counted, seen⟩ := StreamWorld.step_seen valid.counted valid.seen whole
  exact ⟨counted, seen, valid.failing.step whole, valid.onPass.of_receiver rfl rfl⟩

theorem SlotRequest.action_ne (request : SlotRequest Batch) (now : Instant) : request.action now ≠ .closeSenders := by
  cases request <;> simp [SlotRequest.action]

theorem Valid.step (valid : world.Valid inner scope origin) (stepped : step inner scope world action = some next) :
    next.Valid inner scope origin := by
  cases step_stepped stepped with
  | @stream action _ moved _ _ =>
    have onPass := valid.onPass.stepStream moved
    obtain ⟨stream, whole, rfl⟩ := Option.map_eq_some_iff.mp moved
    obtain ⟨counted, seen⟩ := StreamWorld.step_seen valid.counted valid.seen whole
    exact ⟨counted, seen, valid.failing.step whole, onPass⟩
  | call signal request => exact ⟨valid.counted, valid.seen, valid.failing, valid.onPass⟩
  | pass found unblocked other raised registered => exact ⟨valid.counted, valid.seen, valid.failing, valid.onPass⟩
  | @attempt _ now call _ _ taken => exact valid.setRing taken (SlotRequest.action_ne call.request now)
  | markBlocked found taken => exact valid.setRing taken (by simp)
  | leave found fewer taken => exact valid.setRing taken (by simp)

/-- Under drop-oldest an admission may evict what kept a lease back, and tell nobody. The finish or the drop of its
    reservation does so later on, or the sender that it has blocked. -/
def Unsettled (config : BufferConfig) (world : WaitingWorld Batch) (signal : SignalKind) : Prop :=
  config.overflowPolicy = .dropOldest ∧ ((world.stream.rings signal).liveReservations ≠ [] ∨
    ∃ call ∈ world.calls, call.signal = signal ∧ call.phase = .blocked)

def Quiet (inner : BufferInner) (world : WaitingWorld Batch) (signal : SignalKind) (since : Instant)
    (deadline : Option Instant) : Prop :=
  Idle inner signal (world.stream.rings signal).state since deadline ∨ world.Unsettled inner.config signal

/-- What a pass knows when it has looked at every ring that is not `left`. -/
structure Resting (inner : BufferInner) (scope : Option SignalKind) (world : WaitingWorld Batch)
    (left : List SignalKind) (allDrained : Bool) (deadline : Option Instant) : Prop where
  healthy : world.stream.fatalError = none
  quiet : ∀ signal ∈ scopeSignals scope, signal ∉ left → world.Quiet inner signal world.passStarted deadline
  undrained : allDrained = false → ∃ signal ∈ scopeSignals scope,
    (world.stream.rings signal).state.ring.isDrained = false
  within : ∀ signal ∈ left, signal ∈ scopeSignals scope

def CalmReceiver (inner : BufferInner) (scope : Option SignalKind) (world : WaitingWorld Batch) : Prop :=
  match world.stream.receiver with
  | .scanning _ left allDrained deadline => world.Resting inner scope left allDrained deadline
  | .waiting deadline => world.Resting inner scope [] false deadline
  | _ => True

/-- A step gives the receiver nothing more to do on a ring. -/
structure Lull (inner : BufferInner) (world next : WaitingWorld Batch) (signal : SignalKind) : Prop where
  quiet : ∀ since deadline, world.Quiet inner signal since deadline → next.Quiet inner signal since deadline
  undrained : (world.stream.rings signal).state.ring.isDrained = false →
    (next.stream.rings signal).state.ring.isDrained = false

theorem Resting.of_lull {left : List SignalKind} {allDrained : Bool} {deadline : Option Instant}
    (resting : world.Resting inner scope left allDrained deadline) (passStarted : next.passStarted = world.passStarted)
    (healthy : next.stream.fatalError = none) (lull : ∀ signal ∈ scopeSignals scope, Lull inner world next signal) :
    next.Resting inner scope left allDrained deadline where
  healthy := healthy
  quiet signal member outside := by
    rw [passStarted]
    exact (lull signal member).quiet _ _ (resting.quiet signal member outside)
  undrained remains := by
    obtain ⟨signal, member, undrained⟩ := resting.undrained remains
    exact ⟨signal, member, (lull signal member).undrained undrained⟩
  within := resting.within

theorem CalmReceiver.of_lull (calm : world.CalmReceiver inner scope)
    (receiver : next.stream.receiver = world.stream.receiver) (passStarted : next.passStarted = world.passStarted)
    (healthy : world.stream.fatalError = none → next.stream.fatalError = none)
    (lull : ∀ signal ∈ scopeSignals scope, Lull inner world next signal) : next.CalmReceiver inner scope := by
  unfold CalmReceiver at calm ⊢
  rw [receiver]
  split
  · rename_i found
    rw [found] at calm
    exact calm.of_lull passStarted (healthy calm.healthy) lull
  · rename_i found
    rw [found] at calm
    exact calm.of_lull passStarted (healthy calm.healthy) lull
  · trivial

theorem Lull.of_ring (ring : next.stream.rings signal = world.stream.rings signal)
    (blocked : ∀ call ∈ world.calls, call.signal = signal → call.phase = .blocked → call ∈ next.calls) :
    Lull inner world next signal := by
  refine ⟨fun since deadline quiet => ?_, fun undrained => ring ▸ undrained⟩
  rcases quiet with idle | ⟨evicts, live | ⟨call, listed, same, phase⟩⟩
  · exact .inl (ring ▸ idle)
  · exact .inr ⟨evicts, .inl (ring ▸ live)⟩
  · exact .inr ⟨evicts, .inr ⟨call, blocked call listed same phase, same, phase⟩⟩

theorem Lull.of_undisturbed (undisturbed : Undisturbed (world.stream.rings signal) (next.stream.rings signal))
    (blocked : ∀ call ∈ world.calls, call.signal = signal → call.phase = .blocked → call ∈ next.calls) :
    Lull inner world next signal := by
  refine ⟨fun since deadline quiet => ?_, fun undrained => undisturbed.alike.isDrained.trans undrained⟩
  rcases quiet with idle | ⟨evicts, live | ⟨call, listed, same, phase⟩⟩
  · exact .inl (undisturbed.alike.idle idle)
  · exact .inr ⟨evicts, .inl (undisturbed.reservations live)⟩
  · exact .inr ⟨evicts, .inr ⟨call, blocked call listed same phase, same, phase⟩⟩

theorem mem_set_of_ne {call other new : SlotCall Batch} {calls : List (SlotCall Batch)}
    (found : calls[index]? = some other) (listed : call ∈ calls) (apart : call ≠ other) : call ∈ calls.set index new := by
  obtain ⟨position, located⟩ := List.mem_iff_getElem?.mp listed
  refine List.mem_iff_getElem?.mpr ⟨position, ?_⟩
  rw [List.getElem?_set_ne, located]
  rintro rfl
  exact apart (Option.some.inj (located.symm.trans found))

theorem mem_setCall {call other new : SlotCall Batch} (found : world.calls[index]? = some other)
    (apart : other.phase ≠ .blocked ∨ other.signal ≠ signal) (listed : call ∈ world.calls) (same : call.signal = signal)
    (blocked : call.phase = .blocked) : call ∈ (world.setCall index new).calls := by
  refine mem_set_of_ne found listed ?_
  rintro rfl
  rcases apart with apart | apart
  · exact apart blocked
  · exact apart same

theorem setRing_ring {stream : StreamWorld Batch} {ring : RingWorld Batch} {other : SignalKind} (apart : other ≠ signal) :
    (stream.setRing signal ring).rings other = stream.rings other := by
  simp [StreamWorld.setRing, apart]

theorem setRing_self {stream : StreamWorld Batch} {ring : RingWorld Batch} :
    (stream.setRing signal ring).rings signal = ring := by
  simp [StreamWorld.setRing]

theorem watches_receiver (member : signal ∈ scopeSignals scope) :
    watches scope .receiver ∈ notifyDataReady signal := by
  cases scope with
  | some own =>
    rw [List.mem_singleton.mp member]
    exact List.mem_cons_self
  | none => exact List.mem_cons_of_mem _ List.mem_cons_self

theorem watches_shared (scope : Option SignalKind) : watches scope .receiver ∈ notifyAll := by
  cases scope with
  | some own => cases own <;> decide
  | none => decide

theorem healthy_setRing {ring : RingWorld Batch} (failing : world.stream.Failing)
    (kept : ring.state.ring.fatalError = (world.stream.rings signal).state.ring.fatalError)
    (healthy : world.stream.fatalError = none) : (world.stream.setRing signal ring).fatalError = none := by
  simp only [StreamWorld.setRing, healthy, Option.none_or, kept]
  exact failing signal healthy

theorem lull_setRing {ring : RingWorld Batch} {other : SignalKind} {calls : List (SlotCall Batch)}
    (apart : other ≠ signal)
    (blocked : ∀ call ∈ world.calls, call.signal = other → call.phase = .blocked → call ∈ calls) :
    Lull inner world { world with stream := world.stream.setRing signal ring, calls := calls } other :=
  .of_ring (setRing_ring apart) blocked

theorem CalmReceiver.ring {move : RingAction Batch} {ring : RingWorld Batch} (calm : world.CalmReceiver inner scope)
    (valid : world.Valid inner scope origin) (other : others move = true)
    (taken : (world.stream.rings signal).step inner signal move = some ring)
    (silent : watches scope .receiver ∉ notifications inner signal (world.stream.rings signal) move) :
    CalmReceiver inner scope { world with stream := world.stream.setRing signal ring } := by
  have kept := fatalError_of_silent other taken (watches_shared scope) silent
  refine calm.of_lull rfl rfl (healthy_setRing valid.failing kept) fun read member => ?_
  by_cases same : read = signal
  · subst same
    have undisturbed := undisturbed_of_silent (valid.counted.sound read) (watches_receiver member) other taken silent
    exact .of_undisturbed (by simpa only [setRing_self] using undisturbed) fun call listed _ _ => listed
  · exact lull_setRing same fun call listed _ _ => listed

theorem calmReceiver_enable (stepped : world.stepStream inner scope .enable = some next) :
    next.CalmReceiver inner scope := by
  obtain ⟨stream, moved, rfl⟩ := Option.map_eq_some_iff.mp stepped
  simp only [StreamWorld.step] at moved
  split at moved
  · cases moved
    simp only [StreamWorld.checkFatal]
    split
    · trivial
    · rename_i healthy
      refine ⟨healthy, fun signal member outside => ?_, by simp,
        fun signal => (StreamWorld.mem_scanOrder world.stream.rrCursor).mp⟩
      exact absurd ((StreamWorld.mem_scanOrder world.stream.rrCursor).mpr member) outside
  · cases moved

theorem earliest_before {left right : Option Instant} {now : Instant}
    (before : ∀ limit ∈ StreamWorld.earliest left right, now < limit) :
    (∀ limit ∈ left, now < limit) ∧ ∀ limit ∈ right, now < limit := by
  cases left <;> cases right <;> simp_all [StreamWorld.earliest]

theorem Quiet.earlier {since : Instant} {deadline sooner : Option Instant}
    (quiet : world.Quiet inner signal since deadline)
    (covers : ∀ now : Instant, (∀ limit ∈ sooner, now < limit) → ∀ limit ∈ deadline, now < limit) :
    world.Quiet inner signal since sooner := by
  rcases quiet with idle | unsettled
  · exact .inl fun now later before => idle now later (covers now before)
  · exact .inr unsettled

theorem CalmReceiver.tryPop {now : Instant} {left : List SignalKind} {allDrained : Bool} {deadline : Option Instant}
    (resting : world.Resting inner scope (signal :: left) allDrained deadline) (valid : world.Valid inner scope origin)
    (started : world.passStarted = now) {stream : StreamWorld Batch}
    (popped : world.stream.tryPop inner scope now signal left allDrained deadline = some stream) :
    CalmReceiver inner scope { world with stream := stream } := by
  simp only [StreamWorld.tryPop, StreamWorld.stepRing, Option.map_map, Option.map_eq_some_iff] at popped
  obtain ⟨ring, taken, rfl⟩ := popped
  simp only [Function.comp_apply]
  split
  · trivial
  · rename_i nothing
    have same : ring.state = (world.stream.rings signal).state ∧
        ring.reservations = (world.stream.rings signal).reservations := by
      cases taken
      refine ⟨?_, rfl⟩
      rcases tryPopSignalLease_cases inner signal (world.stream.rings signal).state now with
        ⟨_, _, idle⟩ | ⟨_, _, _, _, found⟩
      · rw [idle]
      · rw [found] at nothing
        cases nothing
    have undisturbed : Undisturbed (world.stream.rings signal) ring := by
      refine ⟨.of_eq same.1, fun live => ?_⟩
      rwa [RingWorld.liveReservations, same.2]
    have lull : ∀ read, Lull inner world { world with stream := world.stream.setRing signal ring } read := by
      intro read
      by_cases equal : read = signal
      · subst equal
        exact .of_undisturbed (by simpa only [setRing_self] using undisturbed) fun call listed _ _ => listed
      · exact lull_setRing equal fun call listed _ _ => listed
    have healthy := healthy_setRing valid.failing undisturbed.alike.fatalError resting.healthy
    have member : signal ∈ scopeSignals scope := resting.within signal List.mem_cons_self
    refine ⟨healthy, fun read member outside => ?_, ?_,
      fun read inside => resting.within read (List.mem_cons_of_mem _ inside)⟩
    · refine (lull read).quiet _ _ ?_
      by_cases equal : read = signal
      · subst equal
        refine Quiet.earlier (.inl ?_) fun now before => (earliest_before before).2
        rw [started]
        exact idle_of_look nothing
      · refine (resting.quiet read member ?_).earlier fun now before => (earliest_before before).1
        rintro (_ | ⟨_, inside⟩)
        · exact equal rfl
        · exact outside inside
    · intro remains
      rcases Bool.and_eq_false_iff.mp remains with earlier | found
      · obtain ⟨read, inside, undrained⟩ := resting.undrained earlier
        exact ⟨read, inside, (lull read).undrained undrained⟩
      · rw [tryPop_drained] at found
        exact ⟨signal, member, (lull signal).undrained found⟩

theorem CalmReceiver.stream {action : StreamAction Batch} (calm : world.CalmReceiver inner scope)
    (valid : world.Valid inner scope origin) (stepped : world.stepStream inner scope action = some next)
    (other : ∀ signal move, action = .ring signal move → others move = true)
    (silent : watches scope .receiver ∉ raises inner world (.stream action)) : next.CalmReceiver inner scope := by
  cases action with
  | ring signal move =>
    obtain ⟨stream, moved, rfl⟩ := Option.map_eq_some_iff.mp stepped
    obtain ⟨ring, taken, rfl⟩ := StreamWorld.step_ring moved
    exact calm.ring valid (other signal move rfl) taken silent
  | cloneSender index =>
    obtain ⟨stream, moved, rfl⟩ := Option.map_eq_some_iff.mp stepped
    obtain ⟨_, _, rfl⟩ := Option.map_eq_some_iff.mp moved
    exact calm.of_lull rfl rfl id fun _ _ => .of_ring rfl fun call listed _ _ => listed
  | dropSender index =>
    obtain ⟨stream, moved, rfl⟩ := Option.map_eq_some_iff.mp stepped
    obtain ⟨_, _, rfl⟩ := Option.map_eq_some_iff.mp moved
    exact calm.of_lull rfl rfl id fun _ _ => .of_ring rfl fun call listed _ _ => listed
  | countDown index =>
    obtain ⟨stream, moved, rfl⟩ := Option.map_eq_some_iff.mp stepped
    simp only [StreamWorld.step] at moved
    split at moved
    · cases moved
      exact calm.of_lull rfl rfl id fun _ _ => .of_ring rfl fun call listed _ _ => listed
    · cases moved
  | closeRing index =>
    obtain ⟨stream, moved, rfl⟩ := Option.map_eq_some_iff.mp stepped
    simp only [StreamWorld.step] at moved
    split at moved
    · rename_i remaining signal found
      obtain ⟨ring, taken, rfl⟩ := Option.map_eq_some_iff.mp moved
      have outside : signal ∉ scopeSignals scope := by
        intro member
        simp only [raises, found] at silent
        exact silent (watches_receiver member)
      cases taken
      refine calm.of_lull rfl rfl (healthy_setRing valid.failing rfl) fun read member =>
        .of_ring ?_ fun call listed _ _ => listed
      exact setRing_ring fun same => outside (same ▸ member)
    · cases moved
  | nextLease now =>
    obtain ⟨stream, moved, rfl⟩ := Option.map_eq_some_iff.mp stepped
    simp only [StreamWorld.step] at moved
    split at moved
    · cases moved
    · cases moved
    · cases moved
      simp only [StreamWorld.checkFatal]
      split <;> trivial
  | enable => exact calmReceiver_enable stepped
  | tryPop =>
    obtain ⟨stream, moved, rfl⟩ := Option.map_eq_some_iff.mp stepped
    have onPass := valid.onPass
    unfold CalmReceiver at calm
    unfold OnPass at onPass
    simp only [StreamWorld.step] at moved
    split at moved
    · rename_i now signal left allDrained deadline found
      rw [found] at calm onPass
      exact CalmReceiver.tryPop calm valid onPass moved
    · rename_i now allDrained deadline found
      rw [found] at calm
      cases moved
      cases allDrained with
      | true => trivial
      | false =>
        have resting : world.Resting inner scope [] false deadline := calm
        exact ⟨resting.healthy, resting.quiet, resting.undrained, resting.within⟩
    · cases moved

/-- An admission that tells nobody leaves the receiver nothing to do, unless a notification is bound to follow. -/
theorem CalmReceiver.attempt {now : Instant} {call : SlotCall Batch} {ring : RingWorld Batch}
    (calm : world.CalmReceiver inner scope) (valid : world.Valid inner scope origin)
    (found : world.callAt index .looking = some call)
    (taken : (world.stream.rings call.signal).step inner call.signal (call.request.action now) = some ring)
    (silent : watches scope .receiver ∉ raises inner world (.attempt index now)) :
    CalmReceiver inner scope (WaitingWorld.setCall { world with stream := world.stream.setRing call.signal ring } index
      { call with
        phase :=
          if call.request.outcome inner.config (world.stream.rings call.signal).state now = .blocked then .blocked
          else .leaving }) := by
  obtain ⟨located, looking⟩ := callAt_eq_some.mp found
  have others : ∀ {read : SignalKind} {new : SlotCall Batch}, ∀ other ∈ world.calls, other.signal = read →
      other.phase = .blocked → other ∈ (world.setCall index new).calls := fun other listed same blocked =>
    mem_setCall located (.inl (by simp [looking])) listed same blocked
  have kept := healthy_setRing valid.failing (SlotRequest.step_fatalError taken)
  refine calm.of_lull rfl rfl kept fun read member => ?_
  by_cases same : read = call.signal
  · subst same
    have quietly : call.request.outcome inner.config (world.stream.rings call.signal).state now ≠ .enqueued := by
      intro enqueued
      simp only [raises, found, if_pos enqueued] at silent
      exact silent (watches_receiver member)
    refine ⟨fun since deadline quiet => ?_, fun undrained => ?_⟩
    · simp only [Quiet, Unsettled, setCall, setRing_self]
      rcases quiet with idle | ⟨evicts, live | ⟨other, listed, same, blocked⟩⟩
      · rcases SlotRequest.step_idle (valid.counted.sound call.signal) taken quietly idle with
          idle | ⟨evicts, live | blocked⟩
        · exact .inl idle
        · exact .inr ⟨evicts, .inl live⟩
        · refine .inr ⟨evicts, .inr ⟨_, List.mem_set (List.getElem?_eq_some_iff.mp located).1 _, rfl, ?_⟩⟩
          rw [if_pos blocked]
      · exact .inr ⟨evicts, .inl (SlotRequest.step_reservations taken live)⟩
      · exact .inr ⟨evicts, .inr ⟨other, others other listed same blocked, same, blocked⟩⟩
    · simp only [setCall, setRing_self]
      exact SlotRequest.step_isDrained taken undrained
  · exact lull_setRing same others

theorem CalmReceiver.step (calm : world.CalmReceiver inner scope) (valid : world.Valid inner scope origin)
    (stepped : step inner scope world action = some next)
    (silent : watches scope .receiver ∉ raises inner world action) : next.CalmReceiver inner scope := by
  cases step_stepped stepped with
  | stream moved other unborrowed => exact calm.stream valid moved other silent
  | call signal request =>
    exact calm.of_lull rfl rfl id fun _ _ => .of_ring rfl fun call listed _ _ => List.mem_append_left _ listed
  | pass found unblocked other raised registered =>
    exact calm.of_lull rfl rfl id fun _ _ => .of_ring rfl fun call listed same blocked =>
      mem_setCall found (.inl unblocked) listed same blocked
  | attempt found taken => exact calm.attempt valid found taken silent
  | @markBlocked _ _ call ring found taken =>
    have located := (callAt_eq_some.mp found).1
    have outside : call.signal ∉ scopeSignals scope := by
      intro member
      simp only [raises, found] at silent
      exact silent (watches_receiver member)
    cases taken
    refine calm.of_lull rfl rfl (healthy_setRing valid.failing rfl) fun read member => ?_
    have apart : read ≠ call.signal := fun same => outside (same ▸ member)
    exact lull_setRing apart fun other listed same blocked =>
      mem_setCall located (.inr (Ne.symm apart)) listed same blocked
  | @leave index count call ring found fewer taken =>
    obtain ⟨located, leaving⟩ := callAt_eq_some.mp found
    have others : ∀ {read : SignalKind} {new : SlotCall Batch}, ∀ other ∈ world.calls, other.signal = read →
        other.phase = .blocked → other ∈ (world.setCall index new).calls := fun other listed same blocked =>
      mem_setCall located (.inl (by simp [leaving])) listed same blocked
    cases taken
    refine calm.of_lull rfl rfl (healthy_setRing valid.failing rfl) fun read member => ?_
    by_cases same : read = call.signal
    · subst same
      refine .of_undisturbed ?_ others
      simp only [setCall, setRing_self]
      exact ⟨⟨rfl, rfl, rfl, rfl, rfl, fewer⟩, id⟩
    · exact lull_setRing same others

/-- The ring of a call still answers it as when it was refused: the batch does not fit, and something is left in the ring
    that will free its space. -/
structure Stuck (config : BufferConfig) (call : SlotCall Batch) (ring : SignalRing Batch) : Prop where
  fatalError : ring.fatalError = none
  receiverDropped : ring.receiverDropped = false
  closed : ring.closed = false
  full : config.perSignalBudget < ring.bytesInFlight + ring.unreclaimedDiskBytes + call.request.bytes
  occupied : 0 < ring.bytesInFlight + ring.unreclaimedDiskBytes ∨ ∃ seq, seq ∈ ring.slots

def CalmSender (inner : BufferInner) (world : WaitingWorld Batch) (index : Nat) (signal : SignalKind) : Prop :=
  ∀ call, world.calls[index]? = some call → call.signal = signal → call.phase = .blocked ∨ call.phase = .parked →
    Stuck inner.config call (world.stream.rings signal).state.ring

theorem Stuck.fuller {config : BufferConfig} {call : SlotCall Batch} {before after : SignalRing Batch}
    (stuck : Stuck config call before) (fuller : before.Fuller after) : Stuck config call after where
  fatalError := fuller.fatalError.trans stuck.fatalError
  receiverDropped := fuller.receiverDropped.trans stuck.receiverDropped
  closed := fuller.closed.trans stuck.closed
  full := by
    have full := stuck.full
    have used := fuller.used
    omega
  occupied := by
    rcases stuck.occupied with charged | ⟨seq, member⟩
    · exact .inl (charged.trans_le fuller.used)
    · exact .inr ⟨seq, fuller.slots seq member⟩

/-- A refused call is stuck: its ring has no room, and what fills it holds a slot or is charged to it. -/
theorem stuck_of_blocked {config : BufferConfig} {origin : SignalRing Batch} {call : SlotCall Batch}
    {before ring : RingWorld Batch} {now : Instant} (keeping : inner.config.overflowPolicy ≠ .dropOldest)
    (sound : RingWorld.Sound config origin before)
    (taken : before.step inner signal (call.request.action now) = some ring)
    (blocked : call.request.outcome inner.config before.state now = .blocked) :
    Stuck inner.config call ring.state.ring := by
  have state := SlotRequest.step_state taken
  rcases reserveOrEnqueueSlot_cases inner.config before.state call.request.bytes call.request.batchRows
    call.request.inMemoryBatch? now with
    ⟨_, unblocked, _⟩ | ⟨⟨healthy, kept, unclosed⟩, ⟨same, _, refused⟩ | ⟨_, assigned⟩⟩
  · exact absurd blocked unblocked
  · rw [makeRoom_keeping keeping] at same refused
    rw [state, same]
    simp only [canAdmit, Bool.or_eq_false_iff, Bool.and_eq_false_iff, List.isEmpty_eq_false_iff, beq_eq_false_iff_ne,
      decide_eq_false_iff_not, Nat.not_le] at refused
    refine ⟨healthy, kept, unclosed, refused.2, ?_⟩
    rcases refused.1 with waiting | charged
    · obtain ⟨item, member⟩ := List.exists_mem_of_ne_nil _ waiting
      have queued := sound.accounted.balanced.queued_mem member
      refine .inr ⟨item.seqId, ?_⟩
      rw [ExtTreeMap.mem_iff_isSome_getElem?, queued]
      rfl
    · exact .inl (Nat.pos_of_ne_zero charged)
  · have outcome : (assignSlot (makeRoom inner.config before.state call.request.bytes).1.ring call.request.bytes
        call.request.batchRows call.request.inMemoryBatch? now).2 = .blocked := assigned.symm.trans blocked
    cases request : call.request.inMemoryBatch? with
    | none => simp [assignSlot, request] at outcome
    | some batch => simp [assignSlot, request] at outcome

theorem CalmSender.fuller (calm : world.CalmSender inner index signal)
    (same : ∀ call, next.calls[index]? = some call → call.signal = signal → call.phase = .blocked ∨ call.phase = .parked →
      ∃ old, world.calls[index]? = some old ∧ old.signal = signal ∧ (old.phase = .blocked ∨ old.phase = .parked) ∧
        old.request = call.request)
    (fuller : (world.stream.rings signal).state.ring.Fuller (next.stream.rings signal).state.ring) :
    next.CalmSender inner index signal := by
  intro call located own waiting
  obtain ⟨old, found, owned, waited, request⟩ := same call located own waiting
  have stuck := (calm old found owned waited).fuller fuller
  exact ⟨stuck.fatalError, stuck.receiverDropped, stuck.closed, request ▸ stuck.full, stuck.occupied⟩

theorem setRing_fuller {stream : StreamWorld Batch} {ring : RingWorld Batch} (moved : SignalKind) (signal : SignalKind)
    (fuller : moved = signal → (stream.rings signal).state.ring.Fuller ring.state.ring) :
    (stream.rings signal).state.ring.Fuller ((stream.setRing moved ring).rings signal).state.ring := by
  by_cases same : moved = signal
  · subst same
    rw [setRing_self]
    exact fuller rfl
  · rw [setRing_ring (Ne.symm same)]
    exact .of_eq rfl

theorem CalmSender.stream {action : StreamAction Batch} (calm : world.CalmSender inner index signal)
    (stepped : world.stepStream inner scope action = some next)
    (other : ∀ signal move, action = .ring signal move → others move = true)
    (unborrowed : ∀ index remaining signal, action = .closeRing index →
      world.stream.closing[index]? = some { remaining := remaining, locking := some signal } →
      world.borrowed signal = false)
    (silent : Notifier.spaceAvailable signal ∉ raises inner world (.stream action)) :
    next.CalmSender inner index signal := by
  obtain ⟨stream, moved, rfl⟩ := Option.map_eq_some_iff.mp stepped
  have kept : (world.stream.rings signal).state.ring.Fuller (stream.rings signal).state.ring →
      CalmSender inner { world with stream := stream } index signal := fun fuller =>
    calm.fuller (fun call located own waiting => ⟨call, located, own, waiting, rfl⟩) fuller
  cases action with
  | ring moving move =>
    obtain ⟨ring, taken, rfl⟩ := StreamWorld.step_ring moved
    refine kept (setRing_fuller moving signal ?_)
    rintro rfl
    exact fuller_of_silent (other moving move rfl) taken silent
  | cloneSender index =>
    obtain ⟨_, _, rfl⟩ := Option.map_eq_some_iff.mp moved
    exact kept (.of_eq rfl)
  | dropSender index =>
    obtain ⟨_, _, rfl⟩ := Option.map_eq_some_iff.mp moved
    exact kept (.of_eq rfl)
  | countDown index =>
    simp only [StreamWorld.step] at moved
    split at moved
    · cases moved
      exact kept (.of_eq rfl)
    · cases moved
  | closeRing closing =>
    simp only [StreamWorld.step] at moved
    split at moved
    · rename_i remaining closed found
      obtain ⟨ring, taken, rfl⟩ := Option.map_eq_some_iff.mp moved
      intro call located own waiting
      refine kept (setRing_fuller closed signal ?_) call located own waiting
      rintro rfl
      have free := unborrowed closing remaining closed rfl found
      simp only [borrowed, List.any_eq_false] at free
      have done := free call (List.mem_of_getElem? located)
      rcases waiting with waiting | waiting <;> simp [own, waiting] at done
    · cases moved
  | nextLease now =>
    simp only [StreamWorld.step] at moved
    split at moved
    · cases moved
    · cases moved
    · cases moved
      refine kept (.of_eq ?_)
      simp only [StreamWorld.checkFatal]
      split <;> rfl
  | enable =>
    simp only [StreamWorld.step] at moved
    split at moved
    · cases moved
      refine kept (.of_eq ?_)
      simp only [StreamWorld.checkFatal]
      split <;> rfl
    · cases moved
  | tryPop =>
    simp only [StreamWorld.step] at moved
    split at moved
    · rename_i now read left allDrained deadline found
      simp only [StreamWorld.tryPop, StreamWorld.stepRing, Option.map_map, Option.map_eq_some_iff] at moved
      obtain ⟨ring, taken, rfl⟩ := moved
      refine kept ?_
      have popped : (world.stream.rings signal).state.ring.Fuller
          ((world.stream.setRing read ring).rings signal).state.ring := by
        refine setRing_fuller read signal ?_
        rintro rfl
        cases taken
        exact tryPopSignalLease_fuller inner read (world.stream.rings read).state now
      simp only [Function.comp_apply]
      split <;> exact popped
    · cases moved
      exact kept (.of_eq rfl)
    · cases moved

theorem CalmSender.attempt {now : Instant} {own : Nat} {call : SlotCall Batch} {ring : RingWorld Batch}
    (keeping : inner.config.overflowPolicy ≠ .dropOldest) (valid : world.Valid inner scope origin)
    (found : world.callAt own .looking = some call)
    (taken : (world.stream.rings call.signal).step inner call.signal (call.request.action now) = some ring)
    (calm : own ≠ index → world.CalmSender inner index signal) :
    CalmSender inner (WaitingWorld.setCall { world with stream := world.stream.setRing call.signal ring } own
      { call with
        phase :=
          if call.request.outcome inner.config (world.stream.rings call.signal).state now = .blocked then .blocked
          else .leaving }) index signal := by
  have located := (callAt_eq_some.mp found).1
  by_cases same : own = index
  · subst same
    intro asked listed signals waiting
    simp only [setCall, List.getElem?_set_self (List.getElem?_eq_some_iff.mp located).1, Option.some.injEq] at listed
    subst listed
    split at waiting
    · rename_i blocked
      subst signals
      simp only [setCall, setRing_self]
      have stuck := stuck_of_blocked keeping (valid.counted.sound call.signal) taken blocked
      exact ⟨stuck.fatalError, stuck.receiverDropped, stuck.closed, stuck.full, stuck.occupied⟩
    · rcases waiting with waiting | waiting <;> cases waiting
  · refine (calm same).fuller (fun other listed signals waiting => ⟨other, ?_, signals, waiting, rfl⟩) ?_
    · simpa only [setCall, List.getElem?_set_ne same] using listed
    · refine setRing_fuller call.signal signal ?_
      rintro rfl
      exact SlotRequest.step_fuller keeping taken

theorem CalmSender.step (calm : world.CalmSender inner index signal)
    (keeping : inner.config.overflowPolicy ≠ .dropOldest) (valid : world.Valid inner scope origin)
    (stepped : step inner scope world action = some next)
    (silent : Notifier.spaceAvailable signal ∉ raises inner world action) : next.CalmSender inner index signal := by
  -- A call that waits after its own step has waited before it.
  have waited : ∀ {own : Nat} {old new : SlotCall Batch}, world.calls[own]? = some old → old.signal = new.signal →
      old.request = new.request →
      (new.phase = .blocked ∨ new.phase = .parked → old.phase = .blocked ∨ old.phase = .parked) →
      ∀ call, (world.calls.set own new)[index]? = some call → call.signal = signal →
        call.phase = .blocked ∨ call.phase = .parked →
        ∃ old, world.calls[index]? = some old ∧ old.signal = signal ∧ (old.phase = .blocked ∨ old.phase = .parked) ∧
          old.request = call.request := by
    intro own old new located signals requests before call listed same waiting
    by_cases own = index
    · rename_i mine
      subst mine
      rw [List.getElem?_set_self (List.getElem?_eq_some_iff.mp located).1, Option.some.injEq] at listed
      subst listed
      exact ⟨old, located, signals.trans same, before waiting, requests⟩
    · rename_i apart
      rw [List.getElem?_set_ne apart] at listed
      exact ⟨call, listed, same, waiting, rfl⟩
  cases step_stepped stepped with
  | stream moved other unborrowed => exact calm.stream moved other unborrowed silent
  | call asked request =>
    refine calm.fuller (fun call listed same waiting => ?_) (.of_eq rfl)
    by_cases inside : index < world.calls.length
    · rw [List.getElem?_append_left inside] at listed
      exact ⟨call, listed, same, waiting, rfl⟩
    · rw [List.getElem?_append_right (Nat.not_lt.mp inside)] at listed
      have fresh := List.mem_singleton.mp (List.mem_of_getElem? listed)
      rw [fresh] at waiting
      rcases waiting with waiting | waiting <;> cases waiting
  | pass found unblocked other raised registered =>
    refine calm.fuller (waited found rfl rfl ?_) (.of_eq rfl)
    rintro (waiting | waiting)
    · exact absurd waiting other.1
    · exact absurd waiting other.2
  | attempt found taken => exact CalmSender.attempt keeping valid found taken fun _ => calm
  | @markBlocked _ _ call ring found taken =>
    obtain ⟨located, blocked⟩ := callAt_eq_some.mp found
    refine calm.fuller (waited located rfl rfl fun _ => .inl blocked) ?_
    cases taken
    exact setRing_fuller call.signal signal fun same => .of_eq (same ▸ rfl)
  | @leave _ _ call ring found fewer taken =>
    refine calm.fuller (waited (callAt_eq_some.mp found).1 rfl rfl ?_) ?_
    · rintro (waiting | waiting) <;> cases waiting
    · cases taken
      exact setRing_fuller call.signal signal fun same => .of_eq (same ▸ rfl)

def Calm (inner : BufferInner) (scope : Option SignalKind) (world : WaitingWorld Batch) : Waiter → Prop
  | .receiver => world.CalmReceiver inner scope
  | .sender index signal => inner.config.overflowPolicy ≠ .dropOldest → world.CalmSender inner index signal

theorem attentive (inner : BufferInner) (scope : Option SignalKind) (origin : SignalKind → SignalRing Batch) :
    (signalling inner scope).Attentive (Valid inner scope origin) (fun _ _ => True) (Calm inner scope) where
  keeps world action next valid _ stepped := valid.step stepped
  begins world action next watcher valid _ stepped starts := by
    cases action with
    | stream action =>
      cases action with
      | enable =>
        cases starts
        exact calmReceiver_enable stepped
      | _ => cases starts
    | attempt index now =>
      obtain ⟨call, found, rfl⟩ := Option.map_eq_some_iff.mp starts
      intro keeping
      have attempted : step inner scope world (.attempt index now) = some next := stepped
      cases step_stepped attempted with
      | pass _ _ _ _ registered => cases registered.symm.trans starts
      | @attempt _ _ own ring located taken =>
        cases located.symm.trans found
        exact CalmSender.attempt keeping valid found taken fun apart => absurd rfl apart
    | _ => cases starts
  calms world action next watcher valid _ stepped calm := by
    rw [or_iff_not_imp_right]
    intro silent
    cases watcher with
    | receiver => exact calm.step valid stepped silent
    | sender index signal => exact fun keeping => (calm keeping).step keeping valid stepped silent

theorem opened_valid {states : SignalKind → SignalRingState Batch} (isOpened : ∀ signal, Opened (states signal))
    (inner : BufferInner) (scope : Option SignalKind) (senders : List (Option SignalKind)) :
    Valid inner scope (fun signal => (states signal).ring) { stream := .opened states senders } :=
  ⟨StreamWorld.opened_counted isOpened inner.config senders, trivial, fun signal _ => (isOpened signal).healthy, trivial⟩

section Sleepers

variable {states : SignalKind → SignalRingState Batch} {board : Signalled (WaitingWorld Batch) Notifier Waiter}

theorem heard_of_run (inner : BufferInner) (scope : Option SignalKind) (isOpened : ∀ signal, Opened (states signal))
    (senders : List (Option SignalKind))
    (run : Run (signalling inner scope).move (Signalling.permits fun _ _ => True)
      { state := { stream := .opened states senders } } board) (watcher : Waiter) :
    (signalling inner scope).Heard (Calm inner scope) board watcher := by
  refine ((attentive inner scope _).heard_of_run (opened_valid isOpened inner scope senders) ?_ run).2 watcher
  intro watcher
  cases watcher with
  | receiver => trivial
  | sender index signal => exact fun _ call found => by cases found

/-- A receiver that waits in `next_lease` without a notification, sent or still to be sent, sleeps through nothing: the
    buffer has not failed, its stream has not ended, and no ring has a lease for it before the time that it waits for.
    Only under drop-oldest can an admission uncover one, and then the notification that wakes it is bound to follow. -/
theorem nextLease_wakes (inner : BufferInner) (scope : Option SignalKind) (isOpened : ∀ signal, Opened (states signal))
    (senders : List (Option SignalKind)) {deadline : Option Instant}
    (run : Run (signalling inner scope).move (Signalling.permits fun _ _ => True)
      { state := { stream := .opened states senders } } board)
    (waits : board.state.stream.receiver = .waiting deadline) (unnotified : board.notified .receiver = false)
    (unsent : watches scope .receiver ∉ board.pending) :
    board.state.stream.fatalError = none ∧
      (∃ signal ∈ scopeSignals scope, (board.state.stream.rings signal).state.ring.isDrained = false) ∧
      ∀ signal ∈ scopeSignals scope, ¬board.state.Unsettled inner.config signal →
        ∀ now, board.state.passStarted ≤ now → (∀ limit ∈ deadline, now < limit) →
          (tryPopSignalLease inner signal (board.state.stream.rings signal).state now).2.1 = none := by
  have resting : board.state.Resting inner scope [] false deadline := by
    rcases heard_of_run inner scope isOpened senders run .receiver with notified | pending | calm
    · rw [unnotified] at notified
      cases notified
    · exact absurd pending unsent
    · simp only [Calm, CalmReceiver, waits] at calm
      exact calm
  refine ⟨resting.healthy, resting.undrained rfl, fun signal member settled => ?_⟩
  rcases resting.quiet signal member List.not_mem_nil with idle | unsettled
  · exact idle
  · exact absurd unsettled settled

/-- A ring for one batch, which the receiver leaves to grow, and a sender that has to wait behind it. -/
def tightInner : BufferInner := { sinkName := "lake", instanceId := 7, config := { maxBufferBytes := 9 } }

def crowded : List (SignalMove (WaitingAction PlainBatch)) :=
  [.act (.call .logs (.inMemory ⟨0, 2, [1, 2]⟩)), .act (.checkFatal 0), .act (.attempt 0 5), .notify 0, .notify 0,
    .act (.leave 0), .act (.stream (.nextLease 6)), .act (.stream .enable), .act (.stream .tryPop),
    .act (.stream .tryPop)]

theorem permits_all (board : Signalled (WaitingWorld PlainBatch) Notifier Waiter)
    (move : SignalMove (WaitingAction PlainBatch)) : Signalling.permits (fun _ _ => True) board move := by
  cases move <;> trivial

theorem nextLease_wakes_crowded :
    ∃ board, execute (signalling tightInner (some .logs)).move { state := { stream := .opened (fun _ => {}) [none] } }
        crowded = some board ∧
      board.state.stream.receiver = .waiting (some 60000000005) ∧ ∀ now, 6 ≤ now → now < 60000000005 →
        (tryPopSignalLease tightInner .logs (board.state.stream.rings .logs).state now).2.1.isNone := by
  refine ⟨_, rfl, rfl, fun now later before => ?_⟩
  rw [(nextLease_wakes tightInner (some .logs) (fun _ => .new) [none] (execute_run permits_all crowded rfl) rfl rfl
    (by decide)).2.2 .logs (by simp [scopeSignals]) (fun unsettled => by cases unsettled.1) now later
    (fun limit waits => by cases waits; exact before)]
  rfl

end Sleepers

end WaitingWorld

end OtelDatalake.Buffer
