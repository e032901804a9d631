import OtelDatalake.Buffer.DeadLetter
import OtelDatalake.Foundation.Text

open OtelDatalake.Foundation

namespace OtelDatalake.Buffer

namespace QuarantineCall

def exact (store : DeadLetterStore) (call : QuarantineCall) : Prop :=
  ∀ current, call.phase = .reserveSwap current → current + call.addedBytes ≤ u64Max ∨ store.maxBytes < u64Max

/-- A step moves the counter by what the call's part of it changes, and raises it only within the quota. -/
structure Charged (store : DeadLetterStore) (call : QuarantineCall) (after : DeadLetterStore) (next : QuarantineCall) :
    Prop where
  quota : after.maxBytes = store.maxBytes
  balance : after.currentBytes + (call.persisted + call.reserved) =
    store.currentBytes + (next.persisted + next.reserved)
  bounded : after.currentBytes ≤ store.currentBytes ∨ after.currentBytes ≤ store.maxBytes

theorem Charged.still {store : DeadLetterStore} {call next : QuarantineCall}
    (same : next.persisted + next.reserved = call.persisted + call.reserved) : Charged store call store next :=
  ⟨rfl, by omega, .inl (Nat.le_refl _)⟩

theorem act_charged {store after : DeadLetterStore} {call next : QuarantineCall} {works : Bool}
    (acted : call.act store works = some (after, next)) (fits : call.exact store)
    (covered : call.persisted + call.reserved ≤ store.currentBytes) : Charged store call after next := by
  obtain ⟨sink, signal, firstSeq, lastSeq, timestamp, added, phase⟩ := call
  cases phase with
  | validate =>
    cases acted
    refine .still ?_
    cases isSafePathComponent sink && works <;> rfl
  | reserveLoad =>
    cases acted
    exact .still rfl
  | reserveSwap current =>
    simp only [act] at acted
    split at acted
    · cases acted
      exact .still rfl
    · rename_i within
      split at acted
      · rename_i swapped
        cases acted
        simp only [Bool.and_eq_true, decide_eq_true_eq] at swapped
        have limit : current + added ≤ u64Max ∨ store.maxBytes < u64Max := fits current rfl
        have next : saturatingAdd u64Max current added = current + added := by
          simp only [saturatingAdd] at within ⊢
          omega
        refine ⟨rfl, ?_, .inr (Nat.le_of_not_lt within)⟩
        simp only [persisted, reserved, next]
        omega
      · cases acted
        exact .still rfl
  | createDir =>
    cases acted
    refine .still ?_
    cases works <;> rfl
  | fetchSeq =>
    cases acted
    exact ⟨rfl, rfl, .inl (Nat.le_refl _)⟩
  | checkExists seq =>
    cases acted
    exact .still rfl
  | writing file operation seq suffixed =>
    cases works with
    | false =>
      cases file with
      | arrow | json =>
        cases acted
        exact .still rfl
    | true =>
      cases operation with
      | create | write | sync =>
        cases acted
        exact .still rfl
      | rename =>
        cases file with
        | arrow =>
          cases acted
          exact ⟨rfl, rfl, .inl (Nat.le_refl _)⟩
        | json =>
          cases acted
          exact .still rfl
  | syncDir seq suffixed =>
    cases acted
    exact .still (by simp only [persisted, reserved, Nat.add_zero, Nat.zero_add])
  | removeArrow seq suffixed =>
    cases works with
    | false =>
      cases acted
      exact .still rfl
    | true =>
      cases acted
      exact ⟨rfl, rfl, .inl (Nat.le_refl _)⟩
  | release =>
    cases acted
    simp only [persisted, reserved] at covered
    refine ⟨rfl, ?_, .inl (Nat.sub_le _ _)⟩
    simp only [persisted, reserved]
    omega
  | succeeded seq suffixed => cases acted
  | failed => cases acted

section Names

theorem count_toDigits (n : Nat) : (Nat.toDigits 10 n).count '_' = 0 :=
  List.count_eq_zero.mpr Nat.underscore_not_in_toDigits

theorem count_asStr (signal : SignalKind) : signal.asStr.count '_' = 0 := by
  cases signal <;> rfl

theorem count_baseStem (call : QuarantineCall) : call.baseStem.count '_' = 3 := by
  simp [baseStem, count_toDigits, count_asStr]

theorem count_stem (call : QuarantineCall) (seq : Nat) (suffixed : Bool) :
    (call.stem seq suffixed).count '_' = if suffixed then 4 else 3 := by
  cases suffixed with
  | false => exact count_baseStem call
  | true => simp [stem, count_baseStem, count_toDigits]

theorem arrowPath_inj {call other : QuarantineCall} {seq number : Nat} {suffixed marked : Bool}
    (same : call.arrowPath seq suffixed = other.arrowPath number marked) :
    suffixed = marked ∧ (suffixed = true → seq = number) := by
  have stems : call.stem seq suffixed = other.stem number marked :=
    List.append_cancel_right (congrArg QuarantinePath.name same)
  have counts : (if suffixed then 4 else 3) = (if marked then 4 else 3) := by
    rw [← count_stem call seq, ← count_stem other number, stems]
  have kinds : suffixed = marked := by
    cases suffixed <;> cases marked <;> first | rfl | cases counts
  subst kinds
  refine ⟨rfl, fun numbered => ?_⟩
  subst numbered
  have digits := append_separator_inj Nat.underscore_not_in_toDigits Nat.underscore_not_in_toDigits stems
  exact toDigits_ten_inj digits.2

end Names

def number (call : QuarantineCall) : Option Nat :=
  match call.phase with
  | .checkExists seq | .writing _ _ seq _ | .syncDir seq _ | .removeArrow seq _ | .succeeded seq _ => some seq
  | _ => none

def holds (call : QuarantineCall) : Option QuarantinePath :=
  match call.phase with
  | .writing _ _ seq suffixed | .syncDir seq suffixed | .removeArrow seq suffixed | .succeeded seq suffixed =>
    some (call.arrowPath seq suffixed)
  | _ => none

def stored (call : QuarantineCall) : Option QuarantinePath :=
  match call.phase with
  | .writing .json _ seq suffixed | .syncDir seq suffixed | .removeArrow seq suffixed | .succeeded seq suffixed =>
    some (call.arrowPath seq suffixed)
  | _ => none

inductive Placed (store : DeadLetterStore) (call : QuarantineCall) (works : Bool) :
    DeadLetterStore → QuarantineCall → Prop where
  | quiet (after next) (files : after.files = store.files) (seqs : after.fileSeq = store.fileSeq)
    (numbers : ∀ seq, next.number = some seq → call.number = some seq)
    (paths : ∀ path, next.holds = some path → call.holds = some path)
    (waits : ∀ path, next.awaits = some path → call.awaits = some path)
    (renamed : ∀ path, next.stored = some path → call.stored = some path) : Placed store call works after next
  | numbered (next) (fetches : call.phase = .fetchSeq) (number : next.number = some store.fileSeq)
    (path : next.holds = none) (renamed : next.stored = none) :
    Placed store call works { store with fileSeq := (store.fileSeq + 1) % (u64Max + 1) } next
  | chosen (next seq) (checks : call.phase = .checkExists seq) (number : next.number = some seq)
    (path : next.holds = some (call.arrowPath seq (works && store.files.contains (call.arrowPath seq false))))
    (renamed : next.stored = none) : Placed store call works store next
  | renamed (next path) (numbers : next.number = call.number) (waited : call.awaits = some path)
    (holds : next.holds = some path) (stores : next.stored = some path) :
    Placed store call works { store with files := path :: store.files } next
  | removed (next path) (held : call.holds = some path) (number : next.number = none) (holds : next.holds = none)
    (stores : next.stored = none) :
    Placed store call works { store with files := store.files.filter fun other => other ≠ path } next

theorem awaits_holds {call : QuarantineCall} {path : QuarantinePath} (waits : call.awaits = some path) :
    call.holds = some path := by
  obtain ⟨sink, signal, firstSeq, lastSeq, timestamp, added, phase⟩ := call
  cases phase with
  | writing file operation seq suffixed =>
    cases file with
    | arrow => exact waits
    | json => cases waits
  | syncDir | removeArrow | succeeded | validate | reserveLoad | reserveSwap | createDir | fetchSeq | checkExists
  | release | failed => cases waits

theorem Placed.bare {store after : DeadLetterStore} {call next : QuarantineCall} {works : Bool}
    (files : after.files = store.files) (seqs : after.fileSeq = store.fileSeq) (number : next.number = none)
    (path : next.holds = none) (renamed : next.stored = none) : Placed store call works after next :=
  .quiet after next files seqs (by simp [number]) (by simp [path])
    (fun _ waits => nomatch path.symm.trans (awaits_holds waits)) (by simp [renamed])

theorem Placed.kept {store : DeadLetterStore} {call next : QuarantineCall} {works : Bool}
    (number : next.number = call.number) (path : next.holds = call.holds) (waits : next.awaits = call.awaits)
    (renamed : next.stored = call.stored) : Placed store call works store next :=
  .quiet store next rfl rfl (fun _ same => number ▸ same) (fun _ same => path ▸ same) (fun _ same => waits ▸ same)
    (fun _ same => renamed ▸ same)

theorem act_placed {store after : DeadLetterStore} {call next : QuarantineCall} {works : Bool}
    (acted : call.act store works = some (after, next)) : Placed store call works after next := by
  obtain ⟨sink, signal, firstSeq, lastSeq, timestamp, added, phase⟩ := call
  cases phase with
  | validate =>
    cases acted
    cases isSafePathComponent sink && works <;> exact .bare rfl rfl rfl rfl rfl
  | reserveLoad =>
    cases acted
    exact .bare rfl rfl rfl rfl rfl
  | reserveSwap current =>
    simp only [act] at acted
    split at acted
    · cases acted
      exact .bare rfl rfl rfl rfl rfl
    · split at acted
      · cases acted
        exact .bare rfl rfl rfl rfl rfl
      · cases acted
        exact .bare rfl rfl rfl rfl rfl
  | createDir =>
    cases acted
    cases works <;> exact .bare rfl rfl rfl rfl rfl
  | fetchSeq =>
    cases acted
    exact .numbered _ rfl rfl rfl rfl
  | checkExists seq =>
    cases acted
    exact .chosen _ seq rfl rfl rfl rfl
  | writing file operation seq suffixed =>
    cases works with
    | false =>
      cases file with
      | arrow =>
        cases acted
        exact .bare rfl rfl rfl rfl rfl
      | json =>
        cases acted
        exact .kept rfl rfl rfl rfl
    | true =>
      cases operation with
      | create | write | sync =>
        cases acted
        cases file <;> exact .kept rfl rfl rfl rfl
      | rename =>
        cases file with
        | arrow =>
          cases acted
          exact .renamed _ _ rfl rfl rfl rfl
        | json =>
          cases acted
          exact .kept rfl rfl rfl rfl
  | syncDir seq suffixed =>
    cases acted
    exact .kept rfl rfl rfl rfl
  | removeArrow seq suffixed =>
    cases works with
    | false =>
      cases acted
      exact .bare rfl rfl rfl rfl rfl
    | true =>
      cases acted
      exact .removed _ _ rfl rfl rfl rfl
  | release =>
    cases acted
    exact .bare rfl rfl rfl rfl rfl
  | succeeded seq suffixed => cases acted
  | failed => cases acted

theorem holds_cases {call : QuarantineCall} {path : QuarantinePath} (held : call.holds = some path) :
    call.stored = some path ∨ call.awaits = some path := by
  obtain ⟨sink, signal, firstSeq, lastSeq, timestamp, added, phase⟩ := call
  cases phase with
  | writing file operation seq suffixed =>
    cases file with
    | arrow => exact .inr held
    | json => exact .inl held
  | syncDir | removeArrow | succeeded => exact .inl held
  | validate | reserveLoad | reserveSwap | createDir | fetchSeq | checkExists | release | failed => cases held

theorem holds_number {call : QuarantineCall} {path : QuarantinePath} (held : call.holds = some path) :
    ∃ seq suffixed, call.number = some seq ∧ path = call.arrowPath seq suffixed := by
  obtain ⟨sink, signal, firstSeq, lastSeq, timestamp, added, phase⟩ := call
  cases phase with
  | writing file operation seq suffixed | syncDir seq suffixed | removeArrow seq suffixed | succeeded seq suffixed =>
    cases held
    exact ⟨seq, suffixed, rfl, rfl⟩
  | validate | reserveLoad | reserveSwap | createDir | fetchSeq | checkExists | release | failed => cases held

theorem awaits_of_stored {call : QuarantineCall} {path : QuarantinePath} (renamed : call.stored = some path) :
    call.awaits = none := by
  obtain ⟨sink, signal, firstSeq, lastSeq, timestamp, added, phase⟩ := call
  cases phase with
  | writing file operation seq suffixed =>
    cases file with
    | arrow => cases renamed
    | json => rfl
  | syncDir | removeArrow | succeeded | validate | reserveLoad | reserveSwap | createDir | fetchSeq | checkExists
  | release | failed => rfl

theorem stored_holds {call : QuarantineCall} {path : QuarantinePath} (renamed : call.stored = some path) :
    call.holds = some path := by
  obtain ⟨sink, signal, firstSeq, lastSeq, timestamp, added, phase⟩ := call
  cases phase with
  | writing file operation seq suffixed =>
    cases file with
    | arrow => cases renamed
    | json => exact renamed
  | syncDir | removeArrow | succeeded => exact renamed
  | validate | reserveLoad | reserveSwap | createDir | fetchSeq | checkExists | release | failed => cases renamed

theorem returned_stored {call : QuarantineCall} {path : QuarantinePath} (back : call.returned = some path) :
    call.stored = some path := by
  obtain ⟨sink, signal, firstSeq, lastSeq, timestamp, added, phase⟩ := call
  cases phase with
  | succeeded seq suffixed => exact back
  | writing | syncDir | removeArrow | validate | reserveLoad | reserveSwap | createDir | fetchSeq | checkExists | release
  | failed => cases back

end QuarantineCall

namespace Quarantine

open QuarantineCall

/-- The counter is the initial value, what was persisted and what is reserved, within the quota. -/
structure Balanced (maxBytes initialBytes : Nat) (system : Quarantine) : Prop where
  limit : system.shared.maxBytes = maxBytes
  balance : system.shared.currentBytes = initialBytes + (Interleaved.total persisted system.threads +
    Interleaved.total reserved system.threads)
  quota : system.shared.currentBytes ≤ max maxBytes initialBytes

/-- No two calls have the same number or hold the same path, a file that was renamed is there, and no call is about to
    rename its file to one that is there. The files of earlier processes stand, and no call holds the path of one. -/
structure Unshared (earlier : List QuarantinePath) (system : Quarantine) : Prop where
  below : ∀ call ∈ system.threads, ∀ seq, call.number = some seq → seq < system.shared.fileSeq
  numbers : system.threads.Pairwise fun first second => ∀ seq, first.number = some seq → second.number ≠ some seq
  paths : system.threads.Pairwise fun first second => ∀ path, first.holds = some path → second.holds ≠ some path
  present : ∀ call ∈ system.threads, ∀ path, call.stored = some path → path ∈ system.shared.files
  clear : ∀ call ∈ system.threads, ∀ path, call.awaits = some path → path ∉ system.shared.files
  kept : ∀ path ∈ earlier, path ∈ system.shared.files
  foreign : ∀ call ∈ system.threads, ∀ path, call.holds = some path → path ∉ earlier

theorem symmetricNumbers {first second : QuarantineCall}
    (apart : ∀ seq, first.number = some seq → second.number ≠ some seq) :
    ∀ seq, second.number = some seq → first.number ≠ some seq :=
  fun seq taken other => apart seq other taken

theorem symmetricPaths {first second : QuarantineCall}
    (apart : ∀ path, first.holds = some path → second.holds ≠ some path) :
    ∀ path, second.holds = some path → first.holds ≠ some path :=
  fun path held other => apart path other held

theorem Balanced.opened (maxBytes initialBytes : Nat) (files : List QuarantinePath) :
    Balanced maxBytes initialBytes (opened maxBytes initialBytes files) :=
  ⟨rfl, rfl, Nat.le_max_right _ _⟩

theorem Unshared.opened (maxBytes initialBytes : Nat) (files : List QuarantinePath) :
    Unshared files (opened maxBytes initialBytes files) where
  below _ member := absurd member List.not_mem_nil
  numbers := .nil
  paths := .nil
  present _ member := absurd member List.not_mem_nil
  clear _ member := absurd member List.not_mem_nil
  kept _ member := member
  foreign _ member := absurd member List.not_mem_nil

theorem timely_exact {store : DeadLetterStore} {left right : List QuarantineCall} {call : QuarantineCall} {works : Bool}
    (allowed : timely ⟨store, left ++ call :: right⟩ (.act left.length works) = true) : call.exact store := by
  intro current phase
  simp only [timely, Interleaved.getElem?_moved, phase, Bool.or_eq_true, decide_eq_true_eq] at allowed
  exact allowed

theorem timely_fetchSeq {store : DeadLetterStore} {left right : List QuarantineCall} {call : QuarantineCall}
    {works : Bool} (allowed : timely ⟨store, left ++ call :: right⟩ (.act left.length works) = true)
    (fetches : call.phase = .fetchSeq) : (store.fileSeq + 1) % (u64Max + 1) = store.fileSeq + 1 := by
  simp only [timely, Interleaved.getElem?_moved, fetches, decide_eq_true_eq] at allowed
  exact Nat.mod_eq_of_lt (Nat.succ_lt_succ allowed)

theorem timely_checkExists {store : DeadLetterStore} {left right : List QuarantineCall} {call : QuarantineCall}
    {works : Bool} {seq : Nat} (allowed : timely ⟨store, left ++ call :: right⟩ (.act left.length works) = true)
    (checks : call.phase = .checkExists seq) :
    call.arrowPath seq (works && store.files.contains (call.arrowPath seq false)) ∉ store.files ∧
      ((works && store.files.contains (call.arrowPath seq false)) = false →
        ∀ other ∈ left ++ right, other.awaits ≠ some (call.arrowPath seq false)) := by
  simp only [timely, Interleaved.getElem?_moved, checks] at allowed
  cases found : works && store.files.contains (call.arrowPath seq false) with
  | true =>
    rw [found, if_pos rfl] at allowed
    exact ⟨by simpa using allowed, nofun⟩
  | false =>
    rw [found, if_neg Bool.false_ne_true, Bool.and_eq_true, List.all_eq_true] at allowed
    refine ⟨by simpa using allowed.1, fun _ other member => ?_⟩
    simpa using allowed.2 other (Interleaved.mem_of_mem_others call member)

theorem Balanced.step {maxBytes initialBytes : Nat} {before after : Quarantine} {turn : QuarantineTurn}
    (balanced : Balanced maxBytes initialBytes before) (allowed : timely before turn = true)
    (stepped : step before turn = some after) : Balanced maxBytes initialBytes after := by
  obtain ⟨store, calls⟩ := before
  obtain ⟨limit, balance, quota⟩ := balanced
  obtain ⟨call, rfl, fresh, rfl⟩ | ⟨left, call, right, works, store', next, rfl, split, acted, rfl⟩ :=
    Interleaved.step_cases stepped
  · have phase : call.phase = .validate := by simpa [isFresh] using fresh
    have none : call.persisted = 0 ∧ call.reserved = 0 := by simp [persisted, reserved, phase]
    refine ⟨limit, ?_, quota⟩
    simp only [Interleaved.total_append, Interleaved.total_cons, Interleaved.total_nil] at balance ⊢
    omega
  · simp only at split
    subst split
    simp only [Interleaved.total_append, Interleaved.total_cons] at balance
    have acted : call.act store works = some (store', next) := acted
    have charged := act_charged acted (timely_exact allowed) (by omega)
    obtain ⟨same, moved, bounded⟩ := charged
    have limit : store.maxBytes = maxBytes := limit
    have quota : store.currentBytes ≤ max maxBytes initialBytes := quota
    refine ⟨same.trans limit, ?_, ?_⟩
    · simp only [Interleaved.total_append, Interleaved.total_cons]
      omega
    · show store'.currentBytes ≤ max maxBytes initialBytes
      omega

theorem chosen_free {earlier : List QuarantinePath} {store : DeadLetterStore} {left right : List QuarantineCall}
    {call : QuarantineCall} {works : Bool} {seq : Nat} (unshared : Unshared earlier ⟨store, left ++ call :: right⟩)
    (allowed : timely ⟨store, left ++ call :: right⟩ (.act left.length works) = true)
    (checks : call.phase = .checkExists seq) :
    ∀ other ∈ left ++ right,
      other.holds ≠ some (call.arrowPath seq (works && store.files.contains (call.arrowPath seq false))) := by
  intro other member held
  have inside : other ∈ left ++ call :: right := Interleaved.mem_of_mem_others call member
  have own : call.number = some seq := by simp [number, checks]
  obtain ⟨missing, unawaited⟩ := timely_checkExists allowed checks
  cases found : works && store.files.contains (call.arrowPath seq false) with
  | false =>
    rw [found] at held missing
    rcases holds_cases held with renamed | waits
    · exact missing (unshared.present other inside _ renamed)
    · exact unawaited found other member waits
  | true =>
    rw [found] at held
    obtain ⟨number, suffixed, taken, path⟩ := holds_number held
    obtain ⟨marked, same⟩ := arrowPath_inj path
    have equal : seq = number := same rfl
    rw [← equal] at taken
    exact Interleaved.pairwise_others symmetricNumbers unshared.numbers other member seq own taken

theorem Unshared.started {earlier : List QuarantinePath} {store : DeadLetterStore} {calls : List QuarantineCall}
    {call : QuarantineCall} (unshared : Unshared earlier ⟨store, calls⟩) (fresh : call.isFresh = true) :
    Unshared earlier ⟨store, calls ++ [call]⟩ := by
  have phase : call.phase = .validate := by simpa [isFresh] using fresh
  have bare : call.number = none ∧ call.holds = none ∧ call.stored = none ∧ call.awaits = none := by
    simp [number, holds, stored, awaits, phase]
  exact {
    below := List.forall_mem_append.mpr ⟨unshared.below, by simp [bare]⟩
    numbers := Interleaved.pairwise_started unshared.numbers fun _ _ _ _ taken => nomatch bare.1.symm.trans taken
    paths := Interleaved.pairwise_started unshared.paths fun _ _ _ _ held => nomatch bare.2.1.symm.trans held
    present := List.forall_mem_append.mpr ⟨unshared.present, by simp [bare]⟩
    clear := List.forall_mem_append.mpr ⟨unshared.clear, by simp [bare]⟩
    kept := unshared.kept
    foreign := List.forall_mem_append.mpr ⟨unshared.foreign, by simp [bare]⟩ }

section Moves

variable {earlier : List QuarantinePath} {store after : DeadLetterStore} {left right : List QuarantineCall}
  {call next : QuarantineCall} {works : Bool} (unshared : Unshared earlier ⟨store, left ++ call :: right⟩)
include unshared

theorem Unshared.quiet (files : after.files = store.files) (seqs : after.fileSeq = store.fileSeq)
    (number : ∀ seq, next.number = some seq → call.number = some seq)
    (holds : ∀ path, next.holds = some path → call.holds = some path)
    (awaits : ∀ path, next.awaits = some path → call.awaits = some path)
    (stored : ∀ path, next.stored = some path → call.stored = some path) :
    Unshared earlier ⟨after, left ++ next :: right⟩ := by
  obtain ⟨below, numbers, paths, present, clear, kept, foreign⟩ := unshared
  have own : call ∈ left ++ call :: right := List.mem_append_right _ List.mem_cons_self
  refine ⟨?_, ?_, ?_, ?_, ?_, ?_, ?_⟩
  · rw [seqs]
    exact Interleaved.forall_moved below fun seq taken => below call own seq (number seq taken)
  · exact Interleaved.pairwise_moved symmetricNumbers numbers fun _ _ apart seq taken => apart seq (number seq taken)
  · exact Interleaved.pairwise_moved symmetricPaths paths fun _ _ apart path held => apart path (holds path held)
  · rw [files]
    exact Interleaved.forall_moved present fun path renamed => present call own path (stored path renamed)
  · rw [files]
    exact Interleaved.forall_moved clear fun path waits => clear call own path (awaits path waits)
  · rw [files]
    exact kept
  · exact Interleaved.forall_moved foreign fun path held => foreign call own path (holds path held)

theorem Unshared.numbered (number : next.number = some store.fileSeq) (bare : next.holds = none)
    (renamed : next.stored = none) :
    Unshared earlier ⟨{ store with fileSeq := store.fileSeq + 1 }, left ++ next :: right⟩ := by
  obtain ⟨below, numbers, paths, present, clear, kept, foreign⟩ := unshared
  refine ⟨?_, ?_, ?_, ?_, ?_, kept, ?_⟩
  · refine Interleaved.forall_moved (fun other member seq taken => Nat.lt_succ_of_lt (below other member seq taken)) ?_
    intro seq taken
    rw [number] at taken
    cases taken
    exact Nat.lt_succ_self _
  · refine Interleaved.pairwise_moved symmetricNumbers numbers fun other member _ seq taken older => ?_
    rw [number] at taken
    cases taken
    exact absurd (below other (Interleaved.mem_of_mem_others call member) _ older) (Nat.lt_irrefl _)
  · exact Interleaved.pairwise_moved symmetricPaths paths fun _ _ _ _ held => nomatch bare.symm.trans held
  · exact Interleaved.forall_moved present fun _ stored => nomatch renamed.symm.trans stored
  · exact Interleaved.forall_moved clear fun _ waits => nomatch bare.symm.trans (awaits_holds waits)
  · exact Interleaved.forall_moved foreign fun _ held => nomatch bare.symm.trans held

theorem Unshared.chosen {seq : Nat} {path : QuarantinePath} (own : call.number = some seq)
    (number : next.number = some seq)
    (holds : next.holds = some path) (renamed : next.stored = none) (missing : path ∉ store.files)
    (free : ∀ other ∈ left ++ right, other.holds ≠ some path) : Unshared earlier ⟨store, left ++ next :: right⟩ := by
  obtain ⟨below, numbers, paths, present, clear, kept, foreign⟩ := unshared
  have chosen : ∀ other, next.holds = some other → other = path := fun other held =>
    Option.some.inj (held.symm.trans holds)
  refine ⟨?_, ?_, ?_, ?_, ?_, kept, ?_⟩
  · refine Interleaved.forall_moved below fun found taken => ?_
    rw [number] at taken
    exact below call (List.mem_append_right _ List.mem_cons_self) found (own.trans taken)
  · refine Interleaved.pairwise_moved symmetricNumbers numbers fun _ _ apart found taken => ?_
    rw [number] at taken
    exact apart found (own.trans taken)
  · refine Interleaved.pairwise_moved symmetricPaths paths fun other member _ found held => ?_
    rw [chosen found held]
    exact free other member
  · exact Interleaved.forall_moved present fun _ stored => nomatch renamed.symm.trans stored
  · refine Interleaved.forall_moved clear fun found waits => ?_
    rw [chosen found (awaits_holds waits)]
    exact missing
  · refine Interleaved.forall_moved foreign fun found held earliest => missing ?_
    rw [chosen found held] at earliest
    exact kept path earliest

theorem Unshared.renamed {path : QuarantinePath} (number : next.number = call.number) (waited : call.awaits = some path)
    (holds : next.holds = some path) (stores : next.stored = some path) :
    Unshared earlier ⟨{ store with files := path :: store.files }, left ++ next :: right⟩ := by
  obtain ⟨below, numbers, paths, present, clear, kept, foreign⟩ := unshared
  have own : call ∈ left ++ call :: right := List.mem_append_right _ List.mem_cons_self
  have held := awaits_holds waited
  refine ⟨?_, ?_, ?_, ?_, ?_, ?_, ?_⟩
  · exact Interleaved.forall_moved below fun seq taken => below call own seq (number ▸ taken)
  · exact Interleaved.pairwise_moved symmetricNumbers numbers fun _ _ apart seq taken => apart seq (number ▸ taken)
  · exact Interleaved.pairwise_moved symmetricPaths paths fun _ _ apart found same =>
      apart found (held.trans (holds.symm.trans same))
  · refine Interleaved.forall_moved (fun other member found renamed =>
      List.mem_cons_of_mem _ (present other member found renamed)) ?_
    intro found renamed
    rw [stores] at renamed
    cases renamed
    exact List.mem_cons_self
  · refine Interleaved.forall_next (fun other member found waits => ?_) fun _ waits =>
      nomatch (awaits_of_stored stores).symm.trans waits
    have differs : found ≠ path := fun same =>
      Interleaved.pairwise_others symmetricPaths paths other member path held (same ▸ awaits_holds waits)
    have missing := clear other (Interleaved.mem_of_mem_others call member) found waits
    simp [differs, missing]
  · exact fun found earliest => List.mem_cons_of_mem _ (kept found earliest)
  · exact Interleaved.forall_moved foreign fun found same => foreign call own found (held.trans (holds.symm.trans same))

theorem Unshared.removed {path : QuarantinePath} (held : call.holds = some path) (number : next.number = none)
    (holds : next.holds = none) (stores : next.stored = none) :
    Unshared earlier ⟨{ store with files := store.files.filter fun other => other ≠ path }, left ++ next :: right⟩ := by
  obtain ⟨below, numbers, paths, present, clear, kept, foreign⟩ := unshared
  refine ⟨?_, ?_, ?_, ?_, ?_, ?_, ?_⟩
  · exact Interleaved.forall_moved below fun _ taken => nomatch number.symm.trans taken
  · exact Interleaved.pairwise_moved symmetricNumbers numbers fun _ _ _ _ taken => nomatch number.symm.trans taken
  · exact Interleaved.pairwise_moved symmetricPaths paths fun _ _ _ _ same => nomatch holds.symm.trans same
  · refine Interleaved.forall_next (fun other member found renamed => ?_) fun _ renamed =>
      nomatch stores.symm.trans renamed
    have apart := Interleaved.pairwise_others symmetricPaths paths other member path held
    have differs : found ≠ path := fun same => apart (same ▸ stored_holds renamed)
    have there := present other (Interleaved.mem_of_mem_others call member) found renamed
    exact List.mem_filter.mpr ⟨there, by simpa using differs⟩
  · refine Interleaved.forall_next (fun other member found waits there => ?_) fun _ waits =>
      nomatch holds.symm.trans (awaits_holds waits)
    exact clear other (Interleaved.mem_of_mem_others call member) found waits (List.mem_of_mem_filter there)
  · intro found earliest
    have differs : found ≠ path := fun same =>
      foreign call (List.mem_append_right _ List.mem_cons_self) path held (same ▸ earliest)
    exact List.mem_filter.mpr ⟨kept found earliest, by simpa using differs⟩
  · exact Interleaved.forall_moved foreign fun _ same => nomatch holds.symm.trans same

end Moves

theorem Unshared.step {earlier : List QuarantinePath} {before after : Quarantine} {turn : QuarantineTurn}
    (unshared : Unshared earlier before) (allowed : timely before turn = true)
    (stepped : step before turn = some after) : Unshared earlier after := by
  obtain ⟨store, calls⟩ := before
  obtain ⟨call, rfl, fresh, rfl⟩ | ⟨left, call, right, works, store', next, rfl, split, acted, rfl⟩ :=
    Interleaved.step_cases stepped
  · exact unshared.started fresh
  · simp only at split
    subst split
    have acted : call.act store works = some (store', next) := acted
    cases act_placed acted with
    | quiet after next files seqs number holds awaits stored =>
      exact unshared.quiet files seqs number holds awaits stored
    | numbered next fetches number bare renamed =>
      rw [timely_fetchSeq allowed fetches]
      exact unshared.numbered number bare renamed
    | chosen next seq checks number holds renamed =>
      have own : call.number = some seq := by simp [QuarantineCall.number, checks]
      exact unshared.chosen own number holds renamed (timely_checkExists allowed checks).1
        (chosen_free unshared allowed checks)
    | renamed next path number waited holds stores => exact unshared.renamed number waited holds stores
    | removed next path held number holds stores => exact unshared.removed held number holds stores

/-- As long as every existence check is timely, the counter is the initial value with the sizes of the persisted pairs
    and the reservations of the running calls, it stays within the quota, no two successful calls have the same path,
    their files and those of earlier processes are there, and no call is about to rename its file to one that is. -/
theorem quarantine_accounted (maxBytes initialBytes : Nat) (files : List QuarantinePath) (system : Quarantine)
    (run : Run step (fun before turn => timely before turn = true) (opened maxBytes initialBytes files) system) :
    system.shared.currentBytes = initialBytes + (Interleaved.total persisted system.threads +
        Interleaved.total reserved system.threads) ∧
      system.shared.currentBytes ≤ max maxBytes initialBytes ∧
      (system.threads.Pairwise fun first second => ∀ path, first.returned = some path → second.returned ≠ some path) ∧
      (∀ call ∈ system.threads, ∀ path, call.returned = some path → path ∈ system.shared.files) ∧
      (∀ path ∈ files, path ∈ system.shared.files) ∧
      ∀ call ∈ system.threads, ∀ path, call.awaits = some path → path ∉ system.shared.files := by
  have balanced : Balanced maxBytes initialBytes system :=
    run.invariant _ (.opened maxBytes initialBytes files) fun _ _ _ holds allowed stepped => holds.step allowed stepped
  have unshared : Unshared files system :=
    run.invariant _ (.opened maxBytes initialBytes files) fun _ _ _ holds allowed stepped => holds.step allowed stepped
  refine ⟨balanced.balance, balanced.quota, ?_, ?_, unshared.kept, unshared.clear⟩
  · refine unshared.paths.imp fun apart path first second => ?_
    exact apart path (stored_holds (returned_stored first)) (stored_holds (returned_stored second))
  · intro call member path back
    exact unshared.present call member path (returned_stored back)

def logsCall : QuarantineCall :=
  { sink := "iceberg".toList, signal := .logs, firstSeq := 1, lastSeq := 2, timestampUnixMs := 7, addedBytes := 10 }

/-- A number of turns of a call in which everything works; it takes six to its existence check and nine more. -/
def workingTurns (index count : Nat) : List QuarantineTurn := List.replicate count (.act index true)

/-- One call after the other, with the same metadata. -/
def sequentialTurns : List QuarantineTurn :=
  [.start logsCall, .start logsCall] ++ workingTurns 0 15 ++ workingTurns 1 15

def sequentialState : Quarantine :=
  ⟨{ maxBytes := 100, currentBytes := 25, fileSeq := 3,
     files := [logsCall.arrowPath 2 true, logsCall.arrowPath 1 false] },
    [{ logsCall with phase := .succeeded 1 false }, { logsCall with phase := .succeeded 2 true }]⟩

theorem quarantine_accounted_sequential :
    sequentialState.shared.currentBytes = 5 + (Interleaved.total persisted sequentialState.threads +
      Interleaved.total reserved sequentialState.threads) :=
  (quarantine_accounted 100 5 [] sequentialState
    (executePermitted_run step (fun before turn => timely before turn = true) sequentialTurns (by decide))).1

def racingTurns : List QuarantineTurn :=
  [.start logsCall, .start logsCall] ++ workingTurns 0 6 ++ workingTurns 1 6 ++ workingTurns 0 9 ++ workingTurns 1 9

def racingState : Quarantine :=
  ⟨{ maxBytes := 100, currentBytes := 25, fileSeq := 3,
     files := [logsCall.arrowPath 2 false, logsCall.arrowPath 1 false] },
    [{ logsCall with phase := .succeeded 1 false }, { logsCall with phase := .succeeded 2 false }]⟩

theorem same_path_racing : ∃ system, Run step (fun _ _ => True) (opened 100 5 []) system ∧
    ¬ system.threads.Pairwise fun first second => ∀ path, first.returned = some path → second.returned ≠ some path := by
  refine ⟨racingState, execute_run (fun _ _ => trivial) racingTurns (by decide), fun apart => ?_⟩
  have differs := (List.pairwise_cons.mp apart).1 _ List.mem_cons_self (logsCall.arrowPath 1 false) rfl
  exact differs rfl

end Quarantine

end OtelDatalake.Buffer
