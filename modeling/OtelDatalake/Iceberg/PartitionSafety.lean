import OtelDatalake.Foundation.Outcome
import OtelDatalake.Iceberg.Partition

open OtelDatalake.Foundation OtelDatalake.Core

namespace OtelDatalake.Iceberg

def PartitionGranularity.nanos : PartitionGranularity → Int
  | .hourly => 3600000000000
  | .daily => 86400000000000

/-- The UTC hour or day of a time in nanoseconds since the epoch, counted from it. -/
def bucket (granularity : PartitionGranularity) (nanos : Int) : Int := nanos / granularity.nanos

/-- What chrono documents for the years that its format writes with four digits: the date of the proleptic Gregorian
    calendar and the hour, with zeros in front. -/
def Chrono.Documented (chrono : Chrono) : Prop :=
  ∀ secs nanos, nanos < 1000000000 → 0 ≤ (Calendar.ofDayNumber (secs / 86400)).year →
    (Calendar.ofDayNumber (secs / 86400)).year ≤ 9999 →
      chrono secs nanos = some
        { year := paddedDigits 4 (Calendar.ofDayNumber (secs / 86400)).year.toNat
          month := paddedDigits 2 (Calendar.ofDayNumber (secs / 86400)).month
          day := paddedDigits 2 (Calendar.ofDayNumber (secs / 86400)).day
          hour := paddedDigits 2 (secs % 86400 / 3600).toNat }

def pathOf (granularity : PartitionGranularity) (date : Calendar.Date) (hour : Nat) : List Char :=
  DateTimeText.path ⟨paddedDigits 4 date.year.toNat, paddedDigits 2 date.month, paddedDigits 2 date.day,
    paddedDigits 2 hour⟩ granularity

section Paths

theorem padText_paddedDigits (width n : Nat) : padText width (paddedDigits width n) = paddedDigits width n := by
  have long : width ≤ (paddedDigits width n).length := by
    rw [paddedDigits, List.length_append, List.length_replicate]
    omega
  rw [padText, Nat.sub_eq_zero_of_le long, List.replicate_zero, List.append_nil]

theorem slash_not_mem_paddedDigits (width n : Nat) : '/' ∉ paddedDigits width n := by
  intro found
  exact absurd (isDigit_of_mem_paddedDigits found) (by decide)

def pathPart (label : List Char) (width n : Nat) (rest : List Char) : List Char := label ++ (paddedDigits width n ++ rest)

theorem pathPart_inj {label first second : List Char} {width left right : Nat} (begins : first.head? = some '/')
    (starts : second.head? = some '/') :
    pathPart label width left first = pathPart label width right second ↔ left = right ∧ first = second := by
  refine ⟨fun same => ?_, fun same => by rw [same.1, same.2]⟩
  obtain ⟨behind, rfl⟩ := List.head?_eq_some_iff.mp begins
  obtain ⟨after, rfl⟩ := List.head?_eq_some_iff.mp starts
  obtain ⟨number, rest⟩ := separator_append_inj (slash_not_mem_paddedDigits width left)
    (slash_not_mem_paddedDigits width right) (List.append_cancel_left same)
  exact ⟨paddedDigits_inj.mp number, by rw [rest]⟩

theorem pathPart_head {label : List Char} (begins : label.head? = some '/') (width n : Nat) (rest : List Char) :
    (pathPart label width n rest).head? = some '/' := by
  rw [pathPart, List.head?_append, begins, Option.some_or]

def hourPart (granularity : PartitionGranularity) (hour : Nat) : List Char :=
  match granularity with
  | .hourly => pathPart "/hour=".toList 2 hour "/".toList
  | .daily => "/".toList

theorem hourPart_head (granularity : PartitionGranularity) (hour : Nat) :
    (hourPart granularity hour).head? = some '/' := by
  cases granularity with
  | hourly => exact pathPart_head rfl 2 hour _
  | daily => rfl

theorem hourPart_inj {granularity : PartitionGranularity} {first second : Nat} :
    hourPart granularity first = hourPart granularity second ↔ (granularity = .hourly → first = second) := by
  cases granularity with
  | hourly =>
    rw [hourPart, hourPart, pathPart_inj rfl rfl]
    simp
  | daily => simp [hourPart]

theorem pathOf_eq (granularity : PartitionGranularity) (date : Calendar.Date) (hour : Nat) :
    pathOf granularity date hour =
      pathPart "year=".toList 4 date.year.toNat (pathPart "/month=".toList 2 date.month
        (pathPart "/day=".toList 2 date.day (hourPart granularity hour))) := by
  unfold pathOf DateTimeText.path
  cases granularity with
  | hourly => simp only [padText_paddedDigits, pathPart, hourPart, List.append_assoc]
  | daily => simp only [padText_paddedDigits, pathPart, hourPart, List.append_assoc]

theorem datePart_inj {first second : List Char} {left right : Calendar.Date} (begins : first.head? = some '/')
    (starts : second.head? = some '/') :
    pathPart "year=".toList 4 left.year.toNat (pathPart "/month=".toList 2 left.month
        (pathPart "/day=".toList 2 left.day first)) =
      pathPart "year=".toList 4 right.year.toNat (pathPart "/month=".toList 2 right.month
        (pathPart "/day=".toList 2 right.day second)) ↔
      left.year.toNat = right.year.toNat ∧ left.month = right.month ∧ left.day = right.day ∧ first = second := by
  have day : "/day=".toList.head? = some '/' := rfl
  have month : "/month=".toList.head? = some '/' := rfl
  rw [pathPart_inj (pathPart_head month 2 left.month _) (pathPart_head month 2 right.month _),
    pathPart_inj (pathPart_head day 2 left.day _) (pathPart_head day 2 right.day _), pathPart_inj begins starts]

theorem pathOf_inj {granularity : PartitionGranularity} {left right : Calendar.Date} {first second : Nat}
    (before : 0 ≤ left.year) (after : 0 ≤ right.year) :
    pathOf granularity left first = pathOf granularity right second ↔
      left = right ∧ (granularity = .hourly → first = second) := by
  have dates : left = right ↔ left.year.toNat = right.year.toNat ∧ left.month = right.month ∧ left.day = right.day := by
    refine ⟨fun same => by rw [same]; exact ⟨rfl, rfl, rfl⟩, fun ⟨year, month, day⟩ => ?_⟩
    have years : left.year = right.year := by omega
    cases left
    cases right
    rw [Calendar.Date.mk.injEq]
    exact ⟨years, month, day⟩
  rw [pathOf_eq, pathOf_eq, datePart_inj (hourPart_head granularity first) (hourPart_head granularity second),
    hourPart_inj, dates]
  simp only [and_assoc]

/-- The years of the times that fit 64 bits in nanoseconds have four digits. -/
theorem year_bounds (secs : Int) (low : -9223372037 ≤ secs) (high : secs ≤ 9223372036) :
    0 ≤ (Calendar.ofDayNumber (secs / 86400)).year ∧ (Calendar.ofDayNumber (secs / 86400)).year ≤ 9999 := by
  have days : -106752 ≤ secs / 86400 ∧ secs / 86400 ≤ 106751 := by omega
  obtain ⟨begun, ends⟩ := Calendar.yearOf_spec (secs / 86400 + Calendar.daysBeforeYear 1970)
  have epoch : Calendar.daysBeforeYear 1970 = 719528 := by decide
  show 0 ≤ Calendar.yearOf (secs / 86400 + Calendar.daysBeforeYear 1970) ∧
    Calendar.yearOf (secs / 86400 + Calendar.daysBeforeYear 1970) ≤ 9999
  rw [epoch] at begun ends ⊢
  generalize Calendar.yearOf (secs / 86400 + 719528) = year at begun ends ⊢
  rw [Calendar.daysBeforeYear] at begun ends
  omega

theorem getPartitionPath_ok {chrono : Chrono} (documented : chrono.Documented) (granularity : PartitionGranularity)
    (time : Int64) :
    getPartitionPath chrono time granularity = .ok (pathOf granularity
      (Calendar.ofDayNumber (time.toInt / 1000000000 / 86400)) (time.toInt / 1000000000 % 86400 / 3600).toNat) := by
  have low := time.le_toInt
  have high := time.toInt_lt
  obtain ⟨positive, small⟩ := year_bounds (time.toInt / 1000000000) (by omega) (by omega)
  have given := documented (time.toInt / 1000000000) (time.toInt % 1000000000).toNat (by omega) positive small
  rw [getPartitionPath, given]
  rfl

theorem getPartitionPath_eq_iff {chrono : Chrono} (documented : chrono.Documented) (granularity : PartitionGranularity)
    (left right : Int64) :
    getPartitionPath chrono left granularity = getPartitionPath chrono right granularity ↔
      bucket granularity left.toInt = bucket granularity right.toInt := by
  have lowLeft := left.le_toInt
  have highLeft := left.toInt_lt
  have lowRight := right.le_toInt
  have highRight := right.toInt_lt
  have yearLeft := year_bounds (left.toInt / 1000000000) (by omega) (by omega)
  have yearRight := year_bounds (right.toInt / 1000000000) (by omega) (by omega)
  rw [getPartitionPath_ok documented, getPartitionPath_ok documented, Except.ok.injEq,
    pathOf_inj yearLeft.1 yearRight.1, Calendar.ofDayNumber_inj]
  cases granularity with
  | hourly =>
    simp only [bucket, PartitionGranularity.nanos, forall_const]
    omega
  | daily =>
    simp only [bucket, PartitionGranularity.nanos, reduceCtorEq, false_implies, and_true]
    omega

end Paths

def FitsI64 (nanos : Int) : Prop := -2 ^ 63 ≤ nanos ∧ nanos < 2 ^ 63

def unitNanos : TimeUnit → Int
  | .second => 1000000000
  | .millisecond => 1000000
  | .microsecond => 1000
  | .nanosecond => 1

section Timestamps

theorem microsToNanos_ok {value nanos : Int64} :
    microsToNanos value = .ok nanos ↔
      FitsI64 (value.toInt * unitNanos .microsecond) ∧ nanos.toInt = value.toInt * unitNanos .microsecond := by
  have thousand : (1000 : Int64).toInt = 1000 := rfl
  rw [microsToNanos, checkedMul, thousand, unitNanos]
  by_cases fits : -2 ^ 63 ≤ value.toInt * 1000 ∧ value.toInt * 1000 < 2 ^ 63
  · rw [if_pos fits]
    have back : (Int64.ofInt (value.toInt * 1000)).toInt = value.toInt * 1000 := Int64.toInt_ofInt_of_le fits.1 fits.2
    constructor
    · intro same
      rw [← Except.ok.inj same]
      exact ⟨fits, back⟩
    · rintro ⟨_, same⟩
      exact congrArg Except.ok (Int64.toInt_inj.mp (back.trans same.symm))
  · rw [if_neg fits]
    exact ⟨fun same => (nomatch same), fun both => absurd both.1 fits⟩

theorem readTimestamps_ok {toNanos : Int64 → Except PipelineError Int64} {values : List (Option Int64)}
    {times : List Int64} (read : readTimestamps toNanos values = .ok times) :
    List.Forall₂ (fun value time => ∃ given, value = some given ∧ toNanos given = .ok time) values times := by
  induction values generalizing times with
  | nil =>
    cases read
    exact .nil
  | cons value rest ih =>
    cases value with
    | none => cases read
    | some given =>
      obtain ⟨nanos, converted, read⟩ := bind_ok.mp read
      obtain ⟨others, later, read⟩ := bind_ok.mp read
      cases read
      exact .cons ⟨given, rfl, converted⟩ (ih later)

theorem readTimestamps_of_forall {toNanos : Int64 → Except PipelineError Int64} {values : List (Option Int64)}
    (all : ∀ value ∈ values, ∃ given nanos, value = some given ∧ toNanos given = .ok nanos) :
    ∃ times, readTimestamps toNanos values = .ok times := by
  induction values with
  | nil => exact ⟨[], rfl⟩
  | cons value rest ih =>
    rw [List.forall_mem_cons] at all
    obtain ⟨given, nanos, rfl, converted⟩ := all.1
    obtain ⟨others, read⟩ := ih all.2
    exact ⟨nanos :: others, by rw [readTimestamps, converted, read]; rfl⟩

theorem groupRows_grouped {chrono : Chrono} {granularity : PartitionGranularity} {times : List Int64}
    {pathAt : Nat → List Char}
    (paths : ∀ i time, times[i]? = some time → getPartitionPath chrono time granularity = .ok (pathAt i))
    (small : times.length < 2 ^ 32) (rest : List Int64) {i : Nat} (behind : times.drop i = rest)
    {partitions : List (List Char × List Nat)} (grouped : GroupedBy pathAt (List.range i) partitions) :
    ∃ final, groupRows chrono granularity i rest partitions = .ok final ∧
      GroupedBy pathAt (List.range (i + rest.length)) final := by
  induction rest generalizing i partitions with
  | nil => exact ⟨partitions, rfl, grouped⟩
  | cons time rest ih =>
    have here : times[i]? = some time := by
      have head := congrArg List.head? behind
      rwa [List.head?_drop] at head
    have next : times.drop (i + 1) = rest := by
      rw [← List.drop_drop, behind]
      rfl
    have inside := (List.getElem?_eq_some_iff.mp here).1
    have pushed := grouped.push i
    rw [← List.range_succ] at pushed
    obtain ⟨final, done, result⟩ := ih next pushed
    refine ⟨final, ?_, ?_⟩
    · rw [groupRows, paths i time here]
      exact (if_neg (by omega)).trans done
    · rwa [List.length_cons, Nat.add_comm rest.length 1, ← Nat.add_assoc]

end Timestamps

section Batches

variable {Row : Type} {arrow : Arrow Row} {chrono : Chrono} {granularity : PartitionGranularity}
  {hashOrder : List (List Char × List Nat) → List (List Char × List Nat)} {batch : RecordBatch Row} {column : String}
  {unit : TimeUnit} {timezone : Option String}

def rowNanos (arrow : Arrow Row) (unit : TimeUnit) (column : String) (row : Row) : Option Int :=
  (arrow.timestamp column row).map fun value => value.toInt * unitNanos unit

/-- The sub-batches of a batch: each row number is in one of them, in ascending order, their paths differ, and two rows are
    in one sub-batch exactly if their times fall in one hour or day. -/
structure SubBatches (arrow : Arrow Row) (unit : TimeUnit) (column : String) (granularity : PartitionGranularity)
    (batch : RecordBatch Row) (groups : List (List Char × List Nat)) (result : List (List Char × RecordBatch Row)) :
    Prop where
  rows : result = groups.map fun group => (group.1, takeBatch batch group.2)
  covered : (groups.flatMap Prod.snd).Perm (List.range batch.rows.length)
  ascending : ∀ group ∈ groups, group.2.Pairwise (· < ·)
  paths : (result.map Prod.fst).Nodup
  together : ∀ first second left right firstNanos secondNanos, batch.rows[first]? = some left →
    batch.rows[second]? = some right → rowNanos arrow unit column left = some firstNanos →
      rowNanos arrow unit column right = some secondNanos →
        ((∃ group ∈ groups, first ∈ group.2 ∧ second ∈ group.2) ↔
          bucket granularity firstNanos = bucket granularity secondNanos)

theorem partitionBatch_eq (arrow : Arrow Row) (chrono : Chrono)
    (hashOrder : List (List Char × List Nat) → List (List Char × List Nat)) (granularity : PartitionGranularity)
    (known : unit = .nanosecond ∨ unit = .microsecond)
    (typed : batch.columnByName column = some (.timestamp unit timezone)) :
    ∃ toNanos : Int64 → Except PipelineError Int64,
      (∀ value nanos, toNanos value = .ok nanos ↔
        FitsI64 (value.toInt * unitNanos unit) ∧ nanos.toInt = value.toInt * unitNanos unit) ∧
      partitionBatch arrow chrono hashOrder batch column granularity =
        ((readTimestamps toNanos (batch.rows.map (arrow.timestamp column))) >>= fun times =>
          groupRows chrono granularity 0 times [] >>= fun partitions =>
            (hashOrder partitions).mapM (subBatch arrow batch)) := by
  rcases known with rfl | rfl
  · refine ⟨.ok, fun value nanos => ?_, ?_⟩
    · rw [unitNanos, Int.mul_one, Except.ok.injEq, ← Int64.toInt_inj, eq_comm]
      exact ⟨fun same => ⟨⟨value.le_toInt, value.toInt_lt⟩, same⟩, And.right⟩
    · rw [partitionBatch, typed]
  · refine ⟨microsToNanos, fun value nanos => microsToNanos_ok, ?_⟩
    rw [partitionBatch, typed]

theorem subBatches_of_times (granularity : PartitionGranularity) (documented : chrono.Documented)
    (takes : ∀ indices rows, arrow.takeRows indices rows = .ok ())
    (hashes : ∀ entries, (hashOrder entries).Perm entries) (small : batch.rows.length < 2 ^ 32) {times : List Int64}
    (each : List.Forall₂ (fun row time => rowNanos arrow unit column row = some time.toInt) batch.rows times) :
    ∃ result groups, (groupRows chrono granularity 0 times [] >>= fun partitions =>
        (hashOrder partitions).mapM (subBatch arrow batch)) = .ok result ∧
      SubBatches arrow unit column granularity batch groups result := by
  have size := each.length_eq
  let pathAt := fun i => (getPartitionPath chrono (times.getD i 0) granularity).toOption.getD []
  have paths : ∀ i time, times[i]? = some time → getPartitionPath chrono time granularity = .ok (pathAt i) := by
    intro i time found
    show _ = Except.ok ((getPartitionPath chrono (times.getD i 0) granularity).toOption.getD [])
    rw [List.getD_eq_getElem?_getD, found, Option.getD_some, getPartitionPath_ok documented]
    rfl
  have none : GroupedBy pathAt (List.range 0) [] := .nil
  obtain ⟨partitions, grouped, byPath⟩ := groupRows_grouped paths (size ▸ small) times List.drop_zero none
  rw [Nat.zero_add, ← size] at byPath
  have ordered := byPath.perm (hashes partitions)
  have taken : ∀ group ∈ hashOrder partitions, subBatch arrow batch group = .ok (group.1, takeBatch batch group.2) := by
    intro group _
    rw [subBatch, takes]
    rfl
  refine ⟨_, hashOrder partitions, bind_ok.mpr ⟨partitions, grouped, mapM_of_forall taken⟩, rfl, ordered.covered,
    ?_, ?_, ?_⟩
  · intro group member
    rw [ordered.members group member]
    exact List.pairwise_lt_range.filter _
  · rw [List.map_map]
    exact ordered.distinct
  · intro first second left right firstNanos secondNanos inFirst inSecond firstTime secondTime
    obtain ⟨firstInside, rfl⟩ := List.getElem?_eq_some_iff.mp inFirst
    obtain ⟨secondInside, rfl⟩ := List.getElem?_eq_some_iff.mp inSecond
    have leftTime := each.get firstInside (size ▸ firstInside)
    have rightTime := each.get secondInside (size ▸ secondInside)
    rw [List.get_eq_getElem, List.get_eq_getElem] at leftTime rightTime
    rw [Option.some.inj (firstTime.symm.trans leftTime), Option.some.inj (secondTime.symm.trans rightTime),
      ordered.together_iff (List.mem_range.mpr firstInside) (List.mem_range.mpr secondInside),
      ← getPartitionPath_eq_iff documented, paths first _ (List.getElem?_eq_getElem (size ▸ firstInside)),
      paths second _ (List.getElem?_eq_getElem (size ▸ secondInside)), Except.ok.injEq]

/-- Partitioning fails exactly if a timestamp is null or does not fit 64 bits in nanoseconds, and otherwise splits the
batch by the UTC hour or day of its rows. -/
theorem partitionBatch_subBatches (documented : chrono.Documented)
    (takes : ∀ indices rows, arrow.takeRows indices rows = .ok ())
    (hashes : ∀ entries, (hashOrder entries).Perm entries)
    (typed : batch.columnByName column = some (.timestamp unit timezone))
    (known : unit = .nanosecond ∨ unit = .microsecond) (small : batch.rows.length < 2 ^ 32) :
    ((∃ error, partitionBatch arrow chrono hashOrder batch column granularity = .error error) ↔
        ∃ row ∈ batch.rows, ∀ nanos, rowNanos arrow unit column row = some nanos → ¬FitsI64 nanos) ∧
      ∀ result, partitionBatch arrow chrono hashOrder batch column granularity = .ok result →
        ∃ groups, SubBatches arrow unit column granularity batch groups result := by
  obtain ⟨toNanos, converts, unfolded⟩ := partitionBatch_eq arrow chrono hashOrder granularity known typed
  rw [unfolded]
  cases read : readTimestamps toNanos (batch.rows.map (arrow.timestamp column)) with
  | error error =>
    refine ⟨iff_of_true ⟨error, rfl⟩ ?_, fun result done => nomatch done⟩
    by_contra good
    push Not at good
    have all : ∀ value ∈ batch.rows.map (arrow.timestamp column), ∃ given nanos, value = some given ∧
        toNanos given = .ok nanos := by
      intro value found
      obtain ⟨row, member, rfl⟩ := List.mem_map.mp found
      obtain ⟨nanos, present, fits⟩ := good row member
      obtain ⟨given, held, rfl⟩ := Option.map_eq_some_iff.mp present
      exact ⟨given, Int64.ofInt (given.toInt * unitNanos unit), held,
        (converts _ _).mpr ⟨fits, Int64.toInt_ofInt_of_le fits.1 fits.2⟩⟩
    obtain ⟨times, succeeded⟩ := readTimestamps_of_forall all
    rw [succeeded] at read
    cases read
  | ok times =>
    have each : List.Forall₂ (fun row time => rowNanos arrow unit column row = some time.toInt) batch.rows times := by
      refine (List.forall₂_map_left_iff.mp (readTimestamps_ok read)).imp fun row time converted => ?_
      obtain ⟨given, present, converted⟩ := converted
      rw [rowNanos, present, Option.map_some, ((converts given time).mp converted).2]
    obtain ⟨result, groups, done, subBatches⟩ := subBatches_of_times granularity documented takes hashes small each
    constructor
    · refine iff_of_false (fun ⟨error, failed⟩ => ?_) ?_
      · have clash := done.symm.trans failed
        cases clash
      · rintro ⟨row, member, bad⟩
        obtain ⟨position, inside, rfl⟩ := List.getElem_of_mem member
        have time := each.get inside (each.length_eq ▸ inside)
        exact bad _ time ⟨Int64.le_toInt _, Int64.toInt_lt _⟩
    · intro other same
      obtain rfl : result = other := Except.ok.inj (done.symm.trans same)
      exact ⟨groups, subBatches⟩

end Batches

def gregorian : Chrono := fun secs _ =>
  let date := Calendar.ofDayNumber (secs / 86400)
  some ⟨paddedDigits 4 date.year.toNat, paddedDigits 2 date.month, paddedDigits 2 date.day,
    paddedDigits 2 (secs % 86400 / 3600).toNat⟩

theorem gregorian_documented : gregorian.Documented := fun _ _ _ _ _ => rfl

/-- Rows of one timestamp, of which Arrow takes any. -/
def timesArrow : Arrow (Option Int64) where
  text _ _ := none
  timestamp _ row := row
  debugType _ := ""
  lexsortToIndices _ _ := .ok []
  takeRows _ _ := .ok ()

/-- The last hour before the epoch on both sides of the first hour behind it. -/
def epochBatch : RecordBatch (Option Int64) :=
  ⟨[("timestamp", .timestamp .microsecond (some "UTC"))], [some (-1), some 0, some (-3600000000), some 3599999999]⟩

theorem partitionBatch_subBatches_epoch :
    ∃ groups, SubBatches timesArrow .microsecond "timestamp" .hourly epochBatch groups
      [("year=1969/month=12/day=31/hour=23/".toList, { epochBatch with rows := [some (-1), some (-3600000000)] }),
        ("year=1970/month=01/day=01/hour=00/".toList, { epochBatch with rows := [some 0, some 3599999999] })] :=
  (partitionBatch_subBatches gregorian_documented (fun _ _ => rfl)
    (show ∀ entries, (id entries : List (List Char × List Nat)).Perm entries from fun _ => .refl _)
    (show epochBatch.columnByName "timestamp" = some (.timestamp .microsecond (some "UTC")) by decide) (.inr rfl)
    (by decide)).2 _ (by decide +kernel)

end OtelDatalake.Iceberg
