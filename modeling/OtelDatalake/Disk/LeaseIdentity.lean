import OtelDatalake.Buffer.LeaseFormation
import OtelDatalake.Disk.LossyCrash

open Std OtelDatalake.Foundation OtelDatalake.Buffer

namespace OtelDatalake.Disk

variable {Batch : Type} [RecordBatch Batch] {codec : Codec Batch}

def readPayload (codec : Codec Batch) (config : WriterConfig) (dir : Directory) : BatchPayload Batch → Except String Batch
  | .inMemory batch => .ok batch
  | .onDisk segmentId offset len _ _ =>
    readFrameAt codec config dir { segmentId := segmentId, offset := offset, len := len }

/-- A lease as it was handed out: its identity, and what stands under each of its numbers. -/
structure HandedLease (Batch : Type) where
  id : LeaseId
  batches : List (Nat × Except String Batch)

def handOut (codec : Codec Batch) (config : WriterConfig) (dir : Directory) (lease : Lease Batch) : HandedLease Batch where
  id := lease.id
  batches := (lease.payloads.zip lease.leased).map fun entry => (entry.2.seqId, readPayload codec config dir entry.1)

/-- A buffer that is opened again after each loss of power, with the leases that it has ever handed out. -/
structure Outages (codec : Codec Batch) where
  world : DiskWorld codec
  handed : List (HandedLease Batch) := []

/-- A crash leaves `kept` bytes of each file, and what was synced. -/
inductive OutageAction (codec : Codec Batch) where
  | live (action : DiskAction codec)
  | crash (point : DiskWorld.CrashPoint codec) (kept : Nat → Nat) (generatedId : Nat) (now : Instant)
    (unlinks : Nat → Bool)

namespace Outages

def popped (inner : BufferInner) (world : DiskWorld codec) : DiskAction codec → Option (Lease Batch)
  | .ring signal (.pop now) => (tryPopSignalLease inner signal (world.rings signal).state now).2.1
  | _ => none

def step (inner : BufferInner) (config : WriterConfig) (outages : Outages codec) :
    OutageAction codec → Option (Outages codec)
  | .live action => (outages.world.step inner config action).map fun next =>
    { world := next
      handed := outages.handed ++
        ((popped inner outages.world action).map (handOut codec config outages.world.dir)).toList }
  | .crash point kept generatedId now unlinks =>
    (DiskWorld.leftBehind config outages.world point).map fun dir =>
      { outages with world := .opened codec config generatedId now unlinks (dir.lose kept) }

/-- The steps append behind whole frames only, and a crash leaves a trace of every number that was handed out. -/
def Spares (config : WriterConfig) (outages : Outages codec) : OutageAction codec → Prop
  | .live action => DiskWorld.cleanStep config outages.world action = true
  | .crash point kept _ _ _ => DiskWorld.cleanCrash config outages.world point = true ∧
    ∀ dir, DiskWorld.leftBehind config outages.world point = some dir →
      ∀ lease ∈ outages.handed, ∀ entry ∈ lease.batches, Leaves codec (dir.lose kept) lease.id.signal entry.1

/-- No number that was handed out is assigned again, and it stands for one batch, in whichever leases it was. -/
structure NeverReused (inner : BufferInner) (outages : Outages codec) : Prop where
  assigned : ∀ signal batchBytes batchRows now seqId,
    (reserveOrEnqueueSlot inner.config (outages.world.rings signal).state batchBytes batchRows none now).2.1 =
      .reserved seqId → ∀ lease ∈ outages.handed, lease.id.signal = signal → seqId ∉ lease.batches.map Prod.fst
  read : ∀ lease ∈ outages.handed, ∀ entry ∈ lease.batches, ∃ batch, entry.2 = .ok batch
  numbered : ∀ first ∈ outages.handed, ∀ second ∈ outages.handed, first.id.signal = second.id.signal →
    ∀ entry ∈ first.batches, ∀ other ∈ second.batches, entry.1 = other.1 → entry.2 = other.2
  named : ∀ first ∈ outages.handed, ∀ second ∈ outages.handed, first.id = second.id → first.batches = second.batches

variable {inner : BufferInner} {config : WriterConfig} {origin : SignalKind → SignalRing Batch}
  {ledger : Nat → List (Frame codec)} {world : DiskWorld codec} {outages next : Outages codec}

structure Shows (ledger : Nat → List (Frame codec)) (lease : HandedLease Batch) : Prop where
  stored : ∀ entry ∈ lease.batches, ∃ segmentId, ∃ frame ∈ ledger segmentId, frame.key = (lease.id.signal, entry.1) ∧
    entry.2 = .ok frame.batch
  range : lease.batches.map Prod.fst = List.range' lease.id.firstSeq (lease.id.lastSeq + 1 - lease.id.firstSeq)

theorem queued_read (sane : DiskWorld.Sane inner config origin ledger world) {signal : SignalKind}
    {item : QueuedBatch Batch} (queued : item ∈ (world.rings signal).state.ring.queue) :
    ∃ segmentId, ∃ frame ∈ ledger segmentId, frame.key = (signal, item.seqId) ∧
      readPayload codec config world.dir item.payload = .ok frame.batch := by
  have sound := sane.guarded.sound signal
  have located := sane.located signal item.seqId item.payload (.inl ⟨item, queued, rfl, rfl⟩)
  cases place : item.payload with
  | inMemory batch =>
    rw [place] at located
    cases located
  | onDisk segmentId offset len rows schema =>
    rw [place] at located
    obtain ⟨frame, member, key, length⟩ := located
    have slot : item.seqId ∈ (world.rings signal).state.ring.slots := by
      rw [ExtTreeMap.mem_iff_isSome_getElem?, sound.queued_slot queued]
      rfl
    have above : world.dir.watermarkOf signal < item.seqId :=
      (sane.watermarkOf_le signal).trans_lt (sound.represented.active item.seqId slot).1
    have laid := sane.laying.filed.laid
    have named : frame.signal = signal ∧ frame.seqId = item.seqId := Prod.mk.inj key
    have kept := laid.kept segmentId frame (locate_mem member) (by rw [named.1, named.2]; exact above)
    rw [ExtTreeMap.mem_iff_isSome_getElem?, Option.isSome_iff_exists] at kept
    obtain ⟨file, found⟩ := kept
    refine ⟨segmentId, frame, locate_mem member, key, ?_⟩
    rw [readPayload, length]
    exact laid.read (Nat.zero_le _) member found config

theorem popped_shows (sane : DiskWorld.Sane inner config origin ledger world) {action : DiskAction codec}
    {lease : Lease Batch} (taken : popped inner world action = some lease) :
    Shows ledger (handOut codec config world.dir lease) := by
  unfold popped at taken
  split at taken
  · rename_i signal now
    rcases tryPopSignalLease_cases inner signal (world.rings signal).state now with
      ⟨wait, drained, idle⟩ | ⟨front, taking, rest, formed, leased⟩
    · rw [idle] at taken
      cases taken
    · rw [leased] at taken
      cases taken
      have batches : (handOut codec config world.dir (leaseOf inner signal now front taking)).batches =
          (front :: taking).map fun item => (item.seqId, readPayload codec config world.dir item.payload) := by
        simp only [handOut, leaseOf, List.zip_map', List.map_map]
        rfl
      constructor
      · intro entry listed
        rw [batches] at listed
        obtain ⟨item, member, rfl⟩ := List.mem_map.mp listed
        have queued : item ∈ (world.rings signal).state.ring.queue := by
          rw [formed.queue]
          exact List.mem_append_left _ member
        exact queued_read sane queued
      · have formation : LeaseFormation inner.config _ (leaseOf inner signal now front taking) front taking :=
        (sane.guarded.sound signal).formation formed
        rw [batches, List.map_map]
        exact formation.range
  · cases taken

structure Remembers (inner : BufferInner) (config : WriterConfig) (origin : SignalKind → SignalRing Batch)
    (ledger : Nat → List (Frame codec)) (outages : Outages codec) : Prop where
  sane : DiskWorld.Sane inner config origin ledger outages.world
  below : ∀ lease ∈ outages.handed, ∀ entry ∈ lease.batches, entry.1 < outages.world.nextSeq lease.id.signal
  alone : ∀ lease ∈ outages.handed, ∀ entry ∈ lease.batches, ∀ segmentId,
    ∀ frame ∈ ledger segmentId ++ outages.world.requests.map (·.stored), frame.key = (lease.id.signal, entry.1) →
      entry.2 = .ok frame.batch
  read : ∀ lease ∈ outages.handed, ∀ entry ∈ lease.batches, ∃ batch, entry.2 = .ok batch
  numbered : ∀ first ∈ outages.handed, ∀ second ∈ outages.handed, first.id.signal = second.id.signal →
    ∀ entry ∈ first.batches, ∀ other ∈ second.batches, entry.1 = other.1 → entry.2 = other.2
  ranges : ∀ lease ∈ outages.handed,
    lease.batches.map Prod.fst = List.range' lease.id.firstSeq (lease.id.lastSeq + 1 - lease.id.firstSeq)

theorem Remembers.live (remembers : Remembers inner config origin ledger outages) {action : DiskAction codec}
    (stepped : outages.step inner config (.live action) = some next)
    (clean : DiskWorld.cleanStep config outages.world action = true) :
    ∃ larger, Remembers inner config origin larger next := by
  obtain ⟨world, moved, rfl⟩ := Option.map_eq_some_iff.mp stepped
  obtain ⟨larger, sane, drawn⟩ := remembers.sane.step_drawn moved clean
  have shown : ∀ lease ∈ ((popped inner outages.world action).map (handOut codec config outages.world.dir)).toList,
      Shows ledger lease := by
    intro lease listed
    obtain ⟨taken, found, rfl⟩ := Option.map_eq_some_iff.mp (Option.mem_toList.mp listed)
    exact popped_shows remembers.sane found
  have held : ∀ {segmentId : Nat} {frame : Frame codec}, frame ∈ ledger segmentId →
      frame ∈ ledger segmentId ++ outages.world.requests.map (·.stored) := List.mem_append_left _
  refine ⟨larger, sane, fun lease listed entry member => ?_, fun lease listed entry member segmentId frame there key => ?_,
    fun lease listed entry member => ?_, fun first listed second also same entry member other present equal => ?_,
    fun lease listed => ?_⟩
  · rcases List.mem_append.mp listed with old | new
    · exact (remembers.below lease old entry member).trans_le (drawn.counted _)
    · obtain ⟨segmentId, frame, stored, key, _⟩ := (shown lease new).stored entry member
      obtain ⟨named, numbered⟩ := Prod.mk.inj key
      have below := remembers.sane.numbers.below segmentId frame (held stored)
      rw [named, numbered] at below
      exact below.trans_le (drawn.counted _)
  · rcases List.mem_append.mp listed with old | new
    · obtain ⟨named, numbered⟩ := Prod.mk.inj key
      rcases drawn.known segmentId frame there with ⟨before, known⟩ | late
      · exact remembers.alone lease old entry member before frame known key
      · rw [named, numbered] at late
        exact absurd (remembers.below lease old entry member) (Nat.not_lt.mpr late)
    · obtain ⟨place, shows, stored, own, read⟩ := (shown lease new).stored entry member
      have same := sane.numbers.unique (List.mem_append_left _ ((drawn.grows place).subset stored)) there
        (own.trans key.symm)
      rw [read, same]
  · rcases List.mem_append.mp listed with old | new
    · exact remembers.read lease old entry member
    · obtain ⟨_, frame, _, _, read⟩ := (shown lease new).stored entry member
      exact ⟨frame.batch, read⟩
  · rcases List.mem_append.mp listed with old | new
    · rcases List.mem_append.mp also with before | late
      · exact remembers.numbered first old second before same entry member other present equal
      · obtain ⟨place, frame, stored, key, read⟩ := (shown second late).stored other present
        rw [← same, ← equal] at key
        rw [remembers.alone first old entry member place frame (held stored) key, read]
    · obtain ⟨place, frame, stored, key, read⟩ := (shown first new).stored entry member
      rcases List.mem_append.mp also with before | late
      · rw [same, equal] at key
        rw [remembers.alone second before other present place frame (held stored) key, read]
      · obtain ⟨there, copy, listed, named, again⟩ := (shown second late).stored other present
        rw [← same, ← equal] at named
        have one := remembers.sane.numbers.unique (held stored) (held listed) (key.trans named.symm)
        rw [read, again, one]
  · rcases List.mem_append.mp listed with old | new
    · exact remembers.ranges lease old
    · exact (shown lease new).range

theorem Remembers.crash (remembers : Remembers inner config origin ledger outages)
    {point : DiskWorld.CrashPoint codec} {kept : Nat → Nat} {generatedId : Nat} {now : Instant} {unlinks : Nat → Bool}
    (stepped : outages.step inner config (.crash point kept generatedId now unlinks) = some next)
    (spares : Spares config outages (.crash point kept generatedId now unlinks)) :
    ∃ origin ledger, Remembers inner config origin ledger next := by
  obtain ⟨dir, left, rfl⟩ := Option.map_eq_some_iff.mp stepped
  have leaves := spares.2 dir left
  obtain ⟨origin, fewer, sane, known⟩ := remembers.sane.outlive left spares.1 kept generatedId now unlinks
  refine ⟨origin, fewer, sane, fun lease listed entry member => ?_,
    fun lease listed entry member segmentId frame there => ?_, remembers.read, remembers.numbered, remembers.ranges⟩
  · have room := (remembers.below lease listed entry member).trans_le (remembers.sane.limit _)
    exact (leaves lease listed entry member).lt_nextSeq room config generatedId now unlinks
  · have none : (DiskWorld.opened codec config generatedId now unlinks (dir.lose kept)).requests = [] := rfl
    rw [none, List.map_nil, List.append_nil] at there
    obtain ⟨other, present⟩ := known segmentId frame there
    exact remembers.alone lease listed entry member other frame present

def opened (codec : Codec Batch) (config : WriterConfig) (generatedId : Nat) (now : Instant) (unlinks : Nat → Bool) :
    Outages codec := { world := .opened codec config generatedId now unlinks {} }

theorem Remembers.opened (codec : Codec Batch) (inner : BufferInner) (config : WriterConfig) (generatedId : Nat)
    (now : Instant) (unlinks : Nat → Bool) :
    ∃ origin ledger, Remembers inner config origin ledger (opened codec config generatedId now unlinks) := by
  obtain ⟨origin, ledger, kept⟩ := Lives.Kept.opened codec inner config generatedId now unlinks
  refine ⟨origin, ledger, kept.sane, ?_, ?_, ?_, ?_, ?_⟩ <;>
  · intro lease listed
    cases listed

theorem eq_of_keys {α β : Type} {left right : List (α × β)} (keys : left.map Prod.fst = right.map Prod.fst)
    (values : ∀ entry ∈ left, ∀ other ∈ right, entry.1 = other.1 → entry.2 = other.2) : left = right := by
  induction left generalizing right with
  | nil => exact (List.map_eq_nil_iff.mp keys.symm).symm
  | cons entry left ih =>
    cases right with
    | nil => cases keys
    | cons other right =>
      obtain ⟨key, keys⟩ := List.cons.inj keys
      have first : entry = other := Prod.ext key (values entry List.mem_cons_self other List.mem_cons_self key)
      rw [first, ih keys fun one inside two present =>
        values one (List.mem_cons_of_mem _ inside) two (List.mem_cons_of_mem _ present)]

theorem Remembers.neverReused (remembers : Remembers inner config origin ledger outages) : NeverReused inner outages where
  assigned signal batchBytes batchRows now seqId admitted lease listed same member := by
    obtain ⟨entry, present, rfl⟩ := List.mem_map.mp member
    have below := remembers.below lease listed entry present
    rcases reserveOrEnqueueSlot_nextSeq (outages.world.rings signal).state inner.config batchBytes batchRows now with
      ⟨next, _⟩ | ⟨refused, _⟩
    · rw [admitted] at next
      injection next with assigned
      rw [same, DiskWorld.nextSeq, ← assigned] at below
      exact absurd below (Nat.lt_irrefl _)
    · exact absurd admitted (refused entry.1)
  read := remembers.read
  numbered := remembers.numbered
  named first listed second also same := by
    refine eq_of_keys ?_ (remembers.numbered first listed second also (congrArg LeaseId.signal same))
    rw [remembers.ranges first listed, remembers.ranges second also, same]

/-- In every run whose crashes leave a trace of every number that was handed out, and that never appends behind a part
of a failed frame, no number is reused. -/
theorem never_reused_of_run (inner : BufferInner) (config : WriterConfig) (generatedId : Nat) (now : Instant)
    (unlinks : Nat → Bool) {outages : Outages codec}
    (run : Run (step inner config) (Spares config) (opened codec config generatedId now unlinks) outages) :
    NeverReused inner outages := by
  obtain ⟨origin, ledger, remembers⟩ := run.invariant
    (fun outages => ∃ origin ledger, Remembers inner config origin ledger outages)
    (Remembers.opened codec inner config generatedId now unlinks) fun before action after held spares stepped => by
      obtain ⟨origin, ledger, remembers⟩ := held
      cases action with
      | live action =>
        obtain ⟨larger, kept⟩ := remembers.live stepped spares
        exact ⟨origin, larger, kept⟩
      | crash point kept generatedId now unlinks => exact remembers.crash stepped spares
  exact remembers.neverReused

def sendAndPop (body : Bytes) : List (OutageAction plainCodec) :=
  [.live (.reserve (logFrame 0 body) 5), .live (.submit 0), .live (.writer .receive),
    .live (.writer (.process {})), .live (.writer (.sync none)), .live (.reply 6),
    .live (.writer (.persist none fun _ => true)), .live (.ring .logs (.pop 7))]

/-- A loss of power that takes everything that was not synced. -/
def loseAll : OutageAction plainCodec := .crash .between (fun _ => 0) 7 8 fun _ => true

def cleanLive (config : WriterConfig) (outages : Outages codec) : OutageAction codec → Bool
  | .live action => DiskWorld.cleanStep config outages.world action
  | .crash .. => false

def leases (outages : Outages plainCodec) : List (List (Nat × Option Bytes)) :=
  outages.handed.map fun lease => lease.batches.map fun entry => (entry.1, entry.2.toOption.map (·.body))

/-- The first batch is handed out again behind the crash, and the second one gets a number of its own. -/
theorem never_reused_of_run_synced :
    ∃ outages, Run (step RingWorld.plainInner WriterWorld.wideSegments) (Spares WriterWorld.wideSegments)
        (opened plainCodec WriterWorld.wideSegments 7 0 fun _ => true) outages ∧
      leases outages = [[(1, some [7])], [(1, some [7])], [(2, some [8])]] ∧
      NeverReused RingWorld.plainInner outages := by
  have evaluated : ((executePermitted (step RingWorld.plainInner WriterWorld.wideSegments)
      (fun outages action => cleanLive WriterWorld.wideSegments outages action = true)
      (opened plainCodec WriterWorld.wideSegments 7 0 fun _ => true) (sendAndPop [7])).any fun before =>
        decide ((before.world.dir.lose fun _ => 0).segments[1]? =
          some ⟨(logFrame 1 [7]).bytes, 31⟩) &&
        (before.handed.all fun lease => lease.id.signal == .logs && lease.batches.all fun entry => entry.1 ≤ 1) &&
        (step RingWorld.plainInner WriterWorld.wideSegments before loseAll).any fun between =>
          (executePermitted (step RingWorld.plainInner WriterWorld.wideSegments)
            (fun outages action => cleanLive WriterWorld.wideSegments outages action = true) between
            (.live (.ring .logs (.pop 7)) :: sendAndPop [8])).any fun outages =>
              decide (leases outages = [[(1, some [7])], [(1, some [7])], [(2, some [8])]])) =
      true := by
    decide +kernel
  obtain ⟨before, first, checked⟩ := (Option.any_eq_true _ _).mp evaluated
  obtain ⟨left, behind⟩ := Bool.and_eq_true_iff.mp checked
  obtain ⟨found, numbered⟩ := Bool.and_eq_true_iff.mp left
  obtain ⟨between, crashed, continued⟩ := (Option.any_eq_true _ _).mp behind
  obtain ⟨outages, second, ids⟩ := (Option.any_eq_true _ _).mp continued
  have clean : ∀ (outages : Outages plainCodec) action, cleanLive WriterWorld.wideSegments outages action = true →
      Spares WriterWorld.wideSegments outages action := by
    intro outages action allowed
    cases action with
    | live action => exact allowed
    | crash => cases allowed
  have spares : Spares WriterWorld.wideSegments before loseAll := by
    refine ⟨rfl, fun dir same lease listed entry member => ?_⟩
    cases same
    have own := List.all_eq_true.mp numbered lease listed
    obtain ⟨logs, numbers⟩ := Bool.and_eq_true_iff.mp own
    have low := of_decide_eq_true (List.all_eq_true.mp numbers entry member)
    refine .inr ⟨1, _, [logFrame 1 [7]], [], of_decide_eq_true found, by simp, ?_, ?_⟩
    · rw [List.forall_mem_singleton, Frame.Storable]
      decide
    · exact ⟨_, List.mem_singleton.mpr rfl, (beq_iff_eq.mp logs).symm, low⟩
  have run : Run (step RingWorld.plainInner WriterWorld.wideSegments) (Spares WriterWorld.wideSegments)
      (opened plainCodec WriterWorld.wideSegments 7 0 fun _ => true) outages :=
    (((executePermitted_run _ _ _ first).weaken clean).tail ⟨loseAll, spares, crashed⟩).trans
      ((executePermitted_run _ _ _ second).weaken clean)
  exact ⟨outages, run, of_decide_eq_true ids, never_reused_of_run RingWorld.plainInner WriterWorld.wideSegments 7 0
    (fun _ => true) run⟩

/-- A segment has room for three short frames, and nothing is synced before it is full. -/
def unsyncedSegments : WriterConfig := { WriterWorld.wideSegments with syncOnWrite := false }

/-- The batch of the first lease is lost, and the next batch is handed out under the same identity. -/
theorem number_reused :
    ¬∀ outages : Outages plainCodec, Run (step RingWorld.plainInner unsyncedSegments) (fun _ _ => True)
      (opened plainCodec unsyncedSegments 7 0 fun _ => true) outages → NeverReused RingWorld.plainInner outages := by
  intro neverReused
  have reused : ((execute (step RingWorld.plainInner unsyncedSegments)
      (opened plainCodec unsyncedSegments 7 0 fun _ => true)
      (sendAndPop [7] ++ loseAll :: sendAndPop [8])).any fun outages =>
        outages.handed.any fun first => outages.handed.any fun second => decide (first.id = second.id) &&
          decide (first.batches.map (·.2.toOption.map (·.body)) ≠ second.batches.map (·.2.toOption.map (·.body)))) =
      true := by
    decide +kernel
  obtain ⟨outages, executed, found⟩ := (Option.any_eq_true _ _).mp reused
  obtain ⟨first, listed, found⟩ := List.any_eq_true.mp found
  obtain ⟨second, also, found⟩ := List.any_eq_true.mp found
  obtain ⟨same, different⟩ := Bool.and_eq_true_iff.mp found
  have kept := neverReused outages (execute_run (fun _ _ => trivial) _ executed)
  have equal := kept.named first listed second also (of_decide_eq_true same)
  exact of_decide_eq_true different (by rw [equal])

end Outages

end OtelDatalake.Disk
