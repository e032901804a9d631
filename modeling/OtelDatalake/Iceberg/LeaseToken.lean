import OtelDatalake.Foundation.Parsing
import OtelDatalake.Buffer.Inner

open OtelDatalake.Foundation OtelDatalake.Buffer

namespace OtelDatalake.Iceberg

def snapshotPropertyKey : SignalKind → List Char
  | .logs => "datalake.lease.logs".toList
  | .metrics => "datalake.lease.metrics".toList
  | .traces => "datalake.lease.traces".toList

/-- `datalake.lease.<signal>.<instance_id:016x>` -/
def instanceSnapshotPropertyKey (signal : SignalKind) (instanceId : Nat) : List Char :=
  snapshotPropertyKey signal ++ '.' :: hexDigits 16 instanceId

/-- `{instance_id:016x}:{first_seq}` and `{last_seq}` with a separator between them. -/
def formatLease (separator : Char) (id : LeaseId) : List Char :=
  hexDigits 16 id.instanceId ++ ':' :: (Nat.toDigits 10 id.firstSeq ++ separator :: Nat.toDigits 10 id.lastSeq)

def formatLeaseToken (id : LeaseId) : List Char := formatLease ':' id

def formatLeaseRange (id : LeaseId) : List Char := formatLease '-' id

def parseLeaseToken (token : List Char) : Option (Nat × Nat × Nat) := do
  let (instStr, seqPart) ← splitOnce ':' token
  let instanceId ← fromStrRadix 16 u64Max instStr
  if instanceId = 0 then none
  else
    let (firstStr, lastStr) ← (splitOnce ':' seqPart).or (splitOnce '-' seqPart)
    let firstSeq ← fromStrRadix 10 u64Max firstStr
    let lastSeq ← fromStrRadix 10 u64Max lastStr
    if firstSeq ≤ lastSeq then some (instanceId, firstSeq, lastSeq) else none

def tokenMatchesLease (raw : List Char) (id : LeaseId) : Bool :=
  match parseLeaseToken raw with
  | none => false
  | some (committedInstanceId, committedFirstSeq, committedLastSeq) =>
    committedInstanceId == id.instanceId && decide (committedFirstSeq ≤ id.firstSeq) &&
      decide (id.lastSeq ≤ committedLastSeq)

/-- `sort_unstable_by_key` on the start of an interval: equal starts may come in any order. -/
structure UnstableSort where
  sort : List (Nat × Nat) → List (Nat × Nat)
  perm : ∀ intervals, (sort intervals).Perm intervals
  sorted : ∀ intervals, (sort intervals).Pairwise fun left right => left.1 ≤ right.1

/-- The loop of `intervals_cover_range` over the sorted intervals. -/
def coversFrom (lastSeq : Nat) : Nat → List (Nat × Nat) → Bool
  | _, [] => false
  | coveredThrough, (start, stop) :: rest =>
    if stop < coveredThrough then coversFrom lastSeq coveredThrough rest
    else if coveredThrough < start then false
    else if lastSeq ≤ stop then true
    else coversFrom lastSeq (min (stop + 1) u64Max) rest

def intervalsCoverRange (order : UnstableSort) (intervals : List (Nat × Nat)) (firstSeq lastSeq : Nat) : Bool :=
  if lastSeq < firstSeq || intervals.isEmpty then false
  else coversFrom lastSeq firstSeq (order.sort intervals)

def Covered (intervals : List (Nat × Nat)) (seq : Nat) : Prop :=
  ∃ interval ∈ intervals, interval.1 ≤ seq ∧ seq ≤ interval.2

theorem Covered.cons_iff {start stop seq : Nat} {rest : List (Nat × Nat)} :
    Covered ((start, stop) :: rest) seq ↔ (start ≤ seq ∧ seq ≤ stop) ∨ Covered rest seq := by
  simp [Covered]

theorem coversFrom_iff {intervals : List (Nat × Nat)} {coveredThrough lastSeq : Nat} (bound : lastSeq ≤ u64Max)
    (below : coveredThrough ≤ lastSeq) (sorted : intervals.Pairwise fun left right => left.1 ≤ right.1) :
    coversFrom lastSeq coveredThrough intervals = true ↔
      ∀ seq, coveredThrough ≤ seq → seq ≤ lastSeq → Covered intervals seq := by
  induction intervals generalizing coveredThrough with
  | nil =>
    simp only [coversFrom, Bool.false_eq_true, false_iff]
    intro all
    obtain ⟨interval, member, -⟩ := all coveredThrough (Nat.le_refl _) below
    exact List.not_mem_nil member
  | cons interval rest ih =>
    obtain ⟨start, stop⟩ := interval
    obtain ⟨first, ordered⟩ := List.pairwise_cons.mp sorted
    rw [coversFrom]
    by_cases behind : stop < coveredThrough
    · rw [if_pos behind, ih below ordered]
      refine forall₃_congr fun seq above _ => ?_
      rw [Covered.cons_iff, or_iff_right]
      omega
    · rw [if_neg behind]
      by_cases gap : coveredThrough < start
      · -- the sort puts every later interval behind the gap as well
        simp only [if_pos gap, Bool.false_eq_true, false_iff]
        intro all
        obtain ⟨inside, -⟩ | ⟨other, member, inside, -⟩ :=
          Covered.cons_iff.mp (all coveredThrough (Nat.le_refl _) below)
        · omega
        · have later := first other member
          simp only at later
          omega
      · rw [if_neg gap]
        by_cases reached : lastSeq ≤ stop
        · simp only [if_pos reached, true_iff]
          intro seq above within
          exact Covered.cons_iff.mpr (Or.inl ⟨by omega, by omega⟩)
        · have next : min (stop + 1) u64Max = stop + 1 := by omega
          rw [if_neg reached, next, ih (by omega) ordered]
          constructor
          · intro all seq above within
            by_cases inside : seq ≤ stop
            · exact Covered.cons_iff.mpr (Or.inl ⟨by omega, inside⟩)
            · exact Covered.cons_iff.mpr (Or.inr (all seq (by omega) within))
          · intro all seq above within
            obtain inside | later := Covered.cons_iff.mp (all seq (by omega) within)
            · omega
            · exact later

theorem intervalsCoverRange_iff (order : UnstableSort) (intervals : List (Nat × Nat)) {firstSeq lastSeq : Nat}
    (bound : lastSeq ≤ u64Max) :
    intervalsCoverRange order intervals firstSeq lastSeq = true ↔
      firstSeq ≤ lastSeq ∧ ∀ seq, firstSeq ≤ seq → seq ≤ lastSeq → Covered intervals seq := by
  rw [intervalsCoverRange]
  by_cases reversed : lastSeq < firstSeq
  · simp [reversed, Nat.not_le.mpr reversed]
  have forward := Nat.not_lt.mp reversed
  have same : ∀ seq, Covered (order.sort intervals) seq ↔ Covered intervals seq := by
    intro seq
    simp only [Covered, (order.perm intervals).mem_iff]
  cases intervals with
  | nil =>
    simp only [List.isEmpty_nil, Bool.or_true, if_true, Bool.false_eq_true, false_iff]
    rintro ⟨-, all⟩
    obtain ⟨interval, member, -⟩ := all firstSeq (Nat.le_refl _) forward
    exact List.not_mem_nil member
  | cons interval rest =>
    rw [if_neg (by simp [forward]), coversFrom_iff bound forward (order.sorted _)]
    simp only [same, forward, true_and]

theorem splitOnce_formatted {separator : Char} (known : separator = ':' ∨ separator = '-') (firstSeq lastSeq : Nat) :
    let seqPart := Nat.toDigits 10 firstSeq ++ separator :: Nat.toDigits 10 lastSeq
    (splitOnce ':' seqPart).or (splitOnce '-' seqPart) =
      some (Nat.toDigits 10 firstSeq, Nat.toDigits 10 lastSeq) := by
  intro seqPart
  obtain rfl | rfl := known
  · rw [splitOnce_append _ (not_mem_toDigits (by decide) firstSeq), Option.some_or]
  · have free : ':' ∉ seqPart := by
      rw [List.mem_append, List.mem_cons, not_or, not_or]
      exact ⟨not_mem_toDigits (by decide) firstSeq, by decide, not_mem_toDigits (by decide) lastSeq⟩
    rw [splitOnce_none free, Option.none_or, splitOnce_append _ (not_mem_toDigits (by decide) firstSeq)]

theorem parseLeaseToken_formatLease {separator : Char} {id : LeaseId} (known : separator = ':' ∨ separator = '-')
    (nonzero : id.instanceId ≠ 0) (bound : id.instanceId ≤ u64Max) (ordered : id.firstSeq ≤ id.lastSeq)
    (limited : id.lastSeq ≤ u64Max) :
    parseLeaseToken (formatLease separator id) = some (id.instanceId, id.firstSeq, id.lastSeq) := by
  have fits : id.instanceId < 16 ^ 16 := by
    simp only [u64Max] at bound
    omega
  have instanceId := fromStrRadix_hexDigits fits bound (by decide)
  have firstSeq := fromStrRadix_toDigits (Nat.le_trans ordered limited)
  have lastSeq := fromStrRadix_toDigits limited
  have parts := splitOnce_formatted known id.firstSeq id.lastSeq
  simp only at parts
  rw [parseLeaseToken, formatLease, splitOnce_append _ (not_mem_hexDigits (by decide) 16 id.instanceId)]
  simp [instanceId, nonzero, parts, firstSeq, lastSeq, ordered]

structure Snapshot where
  additionalProperties : List (List Char × List Char)
  deriving DecidableEq, Repr

def Snapshot.leaseProperty (snapshot : Snapshot) (key : List Char) : Option (List Char) :=
  snapshot.additionalProperties.lookup key

def Snapshot.recordsUnder (snapshot : Snapshot) (key : List Char) (id : LeaseId) : Bool :=
  (snapshot.leaseProperty key).any (tokenMatchesLease · id)

def Snapshot.hasCommittedLease (snapshot : Snapshot) (id : LeaseId) : Bool :=
  if id.instanceId = 0 then false
  else snapshot.recordsUnder (instanceSnapshotPropertyKey id.signal id.instanceId) id ||
    snapshot.recordsUnder (snapshotPropertyKey id.signal) id

def leaseKeys (id : LeaseId) : List (List Char) :=
  [instanceSnapshotPropertyKey id.signal id.instanceId, snapshotPropertyKey id.signal]

/-- The range of the token that a snapshot has under a key, if it is one of the instance of a lease. -/
def Snapshot.intervalUnder (snapshot : Snapshot) (id : LeaseId) (key : List Char) : Option (Nat × Nat) := do
  let raw ← snapshot.leaseProperty key
  let (inst, firstSeq, lastSeq) ← parseLeaseToken raw
  if inst = id.instanceId then some (firstSeq, lastSeq) else none

structure TableMetadata where
  snapshots : List Snapshot
  currentSnapshot : Option Snapshot
  listed : ∀ snapshot ∈ currentSnapshot, snapshot ∈ snapshots

def TableMetadata.intervals (table : TableMetadata) (id : LeaseId) : List (Nat × Nat) :=
  table.snapshots.flatMap fun snapshot => (leaseKeys id).filterMap (snapshot.intervalUnder id)

def TableMetadata.hasCommittedLease (order : UnstableSort) (table : TableMetadata) (id : LeaseId) : Bool :=
  if id.instanceId = 0 then false
  else if table.currentSnapshot.any (·.hasCommittedLease id) then true
  else if table.snapshots.any (·.hasCommittedLease id) then true
  else intervalsCoverRange order (table.intervals id) id.firstSeq id.lastSeq

/-- A token of the instance of a lease that some snapshot has under one of the keys of the lease. -/
def TableMetadata.Accepts (table : TableMetadata) (id : LeaseId) (firstSeq lastSeq : Nat) : Prop :=
  ∃ snapshot ∈ table.snapshots, ∃ key ∈ leaseKeys id, ∃ raw, snapshot.leaseProperty key = some raw ∧
    parseLeaseToken raw = some (id.instanceId, firstSeq, lastSeq)

/-- The accepted tokens together cover the whole range of a lease. -/
def TableMetadata.CoversLease (table : TableMetadata) (id : LeaseId) : Prop :=
  ∀ seq, id.firstSeq ≤ seq → seq ≤ id.lastSeq →
    ∃ firstSeq lastSeq, table.Accepts id firstSeq lastSeq ∧ firstSeq ≤ seq ∧ seq ≤ lastSeq

theorem Snapshot.intervalUnder_some {snapshot : Snapshot} {id : LeaseId} {key : List Char} {firstSeq lastSeq : Nat} :
    snapshot.intervalUnder id key = some (firstSeq, lastSeq) ↔
      ∃ raw, snapshot.leaseProperty key = some raw ∧
        parseLeaseToken raw = some (id.instanceId, firstSeq, lastSeq) := by
  simp only [Snapshot.intervalUnder, Option.bind_eq_bind, Option.bind_eq_some_iff]
  constructor
  · rintro ⟨raw, property, ⟨inst, first, last⟩, parsed, selected⟩
    simp only [Option.ite_none_right_eq_some, Option.some.injEq, Prod.mk.injEq] at selected
    obtain ⟨rfl, rfl, rfl⟩ := selected
    exact ⟨raw, property, parsed⟩
  · rintro ⟨raw, property, parsed⟩
    exact ⟨raw, property, _, parsed, if_pos rfl⟩

theorem TableMetadata.mem_intervals {table : TableMetadata} {id : LeaseId} {firstSeq lastSeq : Nat} :
    (firstSeq, lastSeq) ∈ table.intervals id ↔ table.Accepts id firstSeq lastSeq := by
  simp only [TableMetadata.intervals, TableMetadata.Accepts, List.mem_flatMap, List.mem_filterMap,
    Snapshot.intervalUnder_some]

theorem TableMetadata.coversLease_iff {table : TableMetadata} {id : LeaseId} :
    table.CoversLease id ↔
      ∀ seq, id.firstSeq ≤ seq → seq ≤ id.lastSeq → Covered (table.intervals id) seq := by
  refine forall₃_congr fun seq _ _ => ?_
  constructor
  · rintro ⟨firstSeq, lastSeq, accepted, inside⟩
    exact ⟨(firstSeq, lastSeq), TableMetadata.mem_intervals.mpr accepted, inside⟩
  · rintro ⟨⟨firstSeq, lastSeq⟩, member, inside⟩
    exact ⟨firstSeq, lastSeq, TableMetadata.mem_intervals.mp member, inside⟩

theorem tokenMatchesLease_iff {raw : List Char} {id : LeaseId} :
    tokenMatchesLease raw id = true ↔
      ∃ firstSeq lastSeq, parseLeaseToken raw = some (id.instanceId, firstSeq, lastSeq) ∧
        firstSeq ≤ id.firstSeq ∧ id.lastSeq ≤ lastSeq := by
  rw [tokenMatchesLease]
  cases parsed : parseLeaseToken raw with
  | none => simp
  | some triple =>
    obtain ⟨inst, first, last⟩ := triple
    simp only [Bool.and_eq_true, beq_iff_eq, decide_eq_true_eq, Option.some.injEq, Prod.mk.injEq]
    constructor
    · rintro ⟨⟨rfl, starts⟩, ends⟩
      exact ⟨first, last, ⟨rfl, rfl, rfl⟩, starts, ends⟩
    · rintro ⟨_, _, ⟨rfl, rfl, rfl⟩, starts, ends⟩
      exact ⟨⟨rfl, starts⟩, ends⟩

theorem Snapshot.hasCommittedLease_covers {table : TableMetadata} {snapshot : Snapshot} {id : LeaseId}
    (member : snapshot ∈ table.snapshots) (recorded : snapshot.hasCommittedLease id = true) :
    table.CoversLease id := by
  have found : ∃ key ∈ leaseKeys id, snapshot.recordsUnder key id = true := by
    rw [Snapshot.hasCommittedLease] at recorded
    split at recorded
    · cases recorded
    · simpa [leaseKeys] using recorded
  obtain ⟨key, listed, recordedUnder⟩ := found
  obtain ⟨raw, property, matching⟩ : ∃ raw, snapshot.leaseProperty key = some raw ∧ tokenMatchesLease raw id = true := by
    simpa [Snapshot.recordsUnder, Option.any_eq_true] using recordedUnder
  obtain ⟨firstSeq, lastSeq, parsed, starts, ends⟩ := tokenMatchesLease_iff.mp matching
  intro seq above within
  exact ⟨firstSeq, lastSeq, ⟨snapshot, member, key, listed, raw, property, parsed⟩, Nat.le_trans starts above,
    Nat.le_trans within ends⟩

theorem TableMetadata.hasCommittedLease_iff (order : UnstableSort) (table : TableMetadata) {id : LeaseId}
    (nonzero : id.instanceId ≠ 0) (ordered : id.firstSeq ≤ id.lastSeq) (limited : id.lastSeq ≤ u64Max) :
    table.hasCommittedLease order id = true ↔ table.CoversLease id := by
  rw [TableMetadata.hasCommittedLease, if_neg nonzero]
  by_cases current : table.currentSnapshot.any (·.hasCommittedLease id) = true
  · simp only [if_pos current, true_iff]
    cases known : table.currentSnapshot with
    | none => simp [known] at current
    | some snapshot =>
      rw [known, Option.any_some] at current
      exact Snapshot.hasCommittedLease_covers (table.listed snapshot known) current
  · rw [if_neg current]
    by_cases recorded : table.snapshots.any (·.hasCommittedLease id) = true
    · simp only [if_pos recorded, true_iff]
      obtain ⟨snapshot, member, committed⟩ := List.any_eq_true.mp recorded
      exact Snapshot.hasCommittedLease_covers member committed
    · rw [if_neg recorded, intervalsCoverRange_iff order _ limited, TableMetadata.coversLease_iff]
      simp only [ordered, true_and]

/-- The table has a lease as committed exactly when tokens cover it, and it reads back what is written for one. -/
theorem lease_deduplication_exact (order : UnstableSort) :
    (∀ (table : TableMetadata) (id : LeaseId), id.instanceId ≠ 0 → id.firstSeq ≤ id.lastSeq → id.lastSeq ≤ u64Max →
      (table.hasCommittedLease order id = true ↔ table.CoversLease id)) ∧
    (∀ id : LeaseId, id.instanceId ≠ 0 → id.instanceId ≤ u64Max → id.firstSeq ≤ id.lastSeq → id.lastSeq ≤ u64Max →
      parseLeaseToken (formatLeaseToken id) = some (id.instanceId, id.firstSeq, id.lastSeq) ∧
      parseLeaseToken (formatLeaseRange id) = some (id.instanceId, id.firstSeq, id.lastSeq)) ∧
    ∀ (intervals : List (Nat × Nat)) (firstSeq lastSeq : Nat), lastSeq ≤ u64Max →
      (intervalsCoverRange order intervals firstSeq lastSeq = true ↔
        firstSeq ≤ lastSeq ∧ ∀ seq, firstSeq ≤ seq → seq ≤ lastSeq → Covered intervals seq) := by
  refine ⟨?_, ?_, ?_⟩
  · intro table id nonzero ordered limited
    exact table.hasCommittedLease_iff order nonzero ordered limited
  · intro id nonzero bound ordered limited
    have token := parseLeaseToken_formatLease (Or.inl rfl) nonzero bound ordered limited
    have range := parseLeaseToken_formatLease (Or.inr rfl) nonzero bound ordered limited
    exact ⟨token, range⟩
  · intro intervals firstSeq lastSeq limited
    exact intervalsCoverRange_iff order intervals limited

def stableSort : UnstableSort where
  sort := List.insertionSort fun left right => left.1 ≤ right.1
  perm := List.perm_insertionSort _
  sorted := by
    intro intervals
    have := List.pairwise_insertionSort (fun left right : Nat × Nat => left.1 ≤ right.1) intervals
    exact this

/-- Two commits that together hold the numbers of instance ten from three to the last one. -/
def splitHistory : TableMetadata where
  snapshots :=
    [⟨[("datalake.lease.logs".toList, "000000000000000a:5-18446744073709551615".toList)]⟩,
     ⟨[("datalake.lease.logs.000000000000000a".toList, "A:+2:4".toList)]⟩]
  currentSnapshot := some ⟨[("datalake.lease.logs.000000000000000a".toList, "A:+2:4".toList)]⟩
  listed := by decide

def lastLease : LeaseId := ⟨10, .logs, 3, u64Max⟩

theorem lease_deduplication_split :
    splitHistory.CoversLease lastLease ∧
    parseLeaseToken (formatLeaseRange lastLease) = some (10, 3, u64Max) ∧
    intervalsCoverRange stableSort [(5, u64Max), (2, 4), (0, 3)] 1 u64Max = true := by
  have exactly := lease_deduplication_exact stableSort
  have committed : splitHistory.hasCommittedLease stableSort lastLease = true := by decide
  have covered := (exactly.1 splitHistory lastLease (by decide) (by decide) (by decide)).mp committed
  have read := (exactly.2.1 lastLease (by decide) (by decide) (by decide) (by decide)).2
  have range := (exactly.2.2 [(5, u64Max), (2, 4), (0, 3)] 1 u64Max (by decide)).mpr
  refine ⟨covered, read, range ⟨by decide, ?_⟩⟩
  intro seq above within
  by_cases late : 5 ≤ seq
  · exact ⟨(5, u64Max), by decide, late, within⟩
  · by_cases early : seq ≤ 3
    · exact ⟨(0, 3), by decide, by omega, early⟩
    · exact ⟨(2, 4), by decide, by omega, by omega⟩

end OtelDatalake.Iceberg
