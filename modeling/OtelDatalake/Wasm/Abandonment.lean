import OtelDatalake.Wasm.Placement

open OtelDatalake.Foundation

namespace OtelDatalake.Wasm.DispatchBatch

variable {Batch : Type} {call : Call Batch}

theorem reaches_advance {next : Call Batch} (stepped : call.advance = some next) : Reaches call next :=
  .single ⟨.advance, trivial, stepped⟩

theorem reaches_close (indices : List Nat) (call : Call Batch) :
    ∃ channels, Reaches call { call with channels := channels } ∧
      ∀ index, channels[index]? = (call.channels[index]?).map fun channel =>
        if index ∈ indices then channel.close else channel := by
  induction indices generalizing call with
  | nil => exact ⟨call.channels, .refl, by simp⟩
  | cons first rest ih =>
    cases found : call.channels[first]? with
    | none =>
      obtain ⟨channels, reaches, closed⟩ := ih call
      refine ⟨channels, reaches, fun index => ?_⟩
      rw [closed index]
      by_cases same : index = first
      · rw [same, found]
        rfl
      · simp [same]
    | some channel =>
      obtain ⟨channels, reaches, closed⟩ := ih { call with channels := call.channels.set first channel.close }
      have stepped : call.step (.close first) =
          some { call with channels := call.channels.set first channel.close } := by
        simp only [Call.step, found, Option.map_some]
      refine ⟨channels, .head ⟨_, trivial, stepped⟩ reaches, fun index => ?_⟩
      rw [closed index]
      obtain ⟨inside, own⟩ := List.getElem?_eq_some_iff.mp found
      by_cases same : first = index
      · subst same
        simp [inside, own, WorkerChannel.close]
      · simp [List.getElem?_set_ne same, Ne.symm same]

theorem reaches_spared (spared : List Nat) (call : Call Batch) :
    ∃ channels, Reaches call { call with channels := channels } ∧
      (∀ index ∈ spared, channels[index]? = call.channels[index]?) ∧
      ∀ index, index ∉ spared → Shut channels index := by
  obtain ⟨channels, reaches, closed⟩ :=
    reaches_close ((List.range call.channels.length).filter fun index => index ∉ spared) call
  refine ⟨channels, reaches, fun index member => ?_, fun index other channel found => ?_⟩
  · rw [closed index]
    simp [member]
  · rw [closed index] at found
    obtain ⟨earlier, own, rfl⟩ := Option.map_eq_some_iff.mp found
    have inside := (List.getElem?_eq_some_iff.mp own).1
    simp [inside, other, WorkerChannel.close]

theorem tryWorker_shut {index : Nat} (shut : Shut call.channels index) (firstFullIdx : Option Nat)
    (next : Option Nat → CallPhase) : call.tryWorker index firstFullIdx next = call.enter (next firstFullIdx) := by
  unfold Call.tryWorker
  cases found : call.channels[index]? with
  | none => rfl
  | some channel =>
    have sent : channel.trySend call.batch = .error .closed := by simp [WorkerChannel.trySend, shut channel found]
    simp only [sent]

theorem trySend_backedUp {channel : WorkerChannel Batch} (full : channel.backedUp = true) (batch : Batch) :
    channel.trySend batch = .error .full := by
  simp only [WorkerChannel.backedUp, Bool.and_eq_true, Bool.not_eq_true', decide_eq_true_eq] at full
  simp [WorkerChannel.trySend, full]

theorem tryWorker_jammed {index : Nat} (jammed : Jammed call.channels index) (firstFullIdx : Option Nat)
    (next : Option Nat → CallPhase) :
    call.tryWorker index firstFullIdx next = call.enter (next (firstFullIdx.or (some index))) := by
  obtain ⟨channel, found, full⟩ := jammed
  simp only [Call.tryWorker, found, trySend_backedUp full]

section Loops

variable {index : Nat → Nat} {phase : Nat → Option Nat → CallPhase}

theorem reaches_looped
    (body : ∀ offset firstFullIdx, offset < call.concurrency →
      (call.enter (phase offset firstFullIdx)).advance =
        some ((call.enter (phase offset firstFullIdx)).tryWorker (index offset) firstFullIdx (phase (offset + 1))))
    (left : Nat) {offset : Nat} (span : offset + left = call.concurrency)
    (stuck : ∀ later, offset ≤ later → later < call.concurrency →
      Shut call.channels (index later) ∨ Jammed call.channels (index later))
    (firstFullIdx : Option Nat) :
    ∃ found, Reaches (call.enter (phase offset firstFullIdx)) (call.enter (phase call.concurrency found)) ∧
      (∀ fullIdx ∈ found, fullIdx ∈ firstFullIdx ∨ Jammed call.channels fullIdx ∧
        ∃ later < call.concurrency, index later = fullIdx) ∧
      (found = none → firstFullIdx = none ∧
        ∀ later, offset ≤ later → later < call.concurrency → Shut call.channels (index later)) := by
  induction left generalizing offset firstFullIdx with
  | zero =>
    rw [Nat.add_zero] at span
    subst span
    exact ⟨firstFullIdx, .refl, fun _ noted => .inl noted, fun none => ⟨none, fun later _ _ => by omega⟩⟩
  | succ left ih =>
    have more : offset < call.concurrency := by omega
    have behind : offset + 1 + left = call.concurrency := by omega
    obtain shut | jammed := stuck offset (Nat.le_refl _) more
    · obtain ⟨found, reaches, members, none⟩ :=
        ih behind (fun later from_ below => stuck later (by omega) below) firstFullIdx
      have stepped : (call.enter (phase offset firstFullIdx)).advance =
          some (call.enter (phase (offset + 1) firstFullIdx)) :=
        (body offset firstFullIdx more).trans (congrArg some (tryWorker_shut shut _ _))
      refine ⟨found, (reaches_advance stepped).trans reaches, members, fun empty => ⟨(none empty).1, ?_⟩⟩
      intro later from_ below
      obtain less | rfl := Nat.lt_or_eq_of_le from_
      · exact (none empty).2 later less below
      · exact shut
    · obtain ⟨found, reaches, members, none⟩ :=
        ih behind (fun later from_ below => stuck later (by omega) below) (firstFullIdx.or (some (index offset)))
      have stepped : (call.enter (phase offset firstFullIdx)).advance =
          some (call.enter (phase (offset + 1) (firstFullIdx.or (some (index offset))))) :=
        (body offset firstFullIdx more).trans (congrArg some (tryWorker_jammed jammed _ _))
      refine ⟨found, (reaches_advance stepped).trans reaches, fun fullIdx member => ?_, fun empty => ?_⟩
      · obtain noted | jammed := members fullIdx member
        · cases firstFullIdx with
          | none =>
            cases noted
            exact .inr ⟨jammed, offset, more, rfl⟩
          | some earlier => exact .inl noted
        · exact .inr jammed
      · have noted := (none empty).1
        cases firstFullIdx <;> cases noted

end Loops

theorem reaches_scanned (call : Call Batch) (stuck : ∀ offset < call.concurrency,
      Shut call.channels (call.scanIdx offset) ∨ Jammed call.channels (call.scanIdx offset)) :
    ∃ found, Reaches (call.enter (.scanning 0 none)) (call.enter (.scanning call.concurrency found)) ∧
      (∀ fullIdx ∈ found, Jammed call.channels fullIdx ∧ ∃ offset < call.concurrency, call.scanIdx offset = fullIdx) ∧
      (found = none → ∀ offset < call.concurrency, Shut call.channels (call.scanIdx offset)) := by
  have body : ∀ offset firstFullIdx, offset < call.concurrency →
      (call.enter (.scanning offset firstFullIdx)).advance =
        some ((call.enter (.scanning offset firstFullIdx)).tryWorker (call.scanIdx offset) firstFullIdx
          (.scanning (offset + 1))) := by
    intro offset firstFullIdx more
    exact if_pos more
  obtain ⟨found, reaches, members, none⟩ :=
    reaches_looped body call.concurrency (Nat.zero_add _) (fun later _ below => stuck later below) none
  exact ⟨found, reaches, fun fullIdx member => (members fullIdx member).resolve_left (fun none => by cases none),
    fun empty offset below => (none empty).2 offset (Nat.zero_le _) below⟩

theorem reaches_rescanned (call : Call Batch) {fullIdx : Nat} (some : 1 ≤ call.concurrency)
    (stuck : ∀ retryOffset < call.concurrency, Shut call.channels (call.retryIdx fullIdx retryOffset) ∨
      Jammed call.channels (call.retryIdx fullIdx retryOffset)) :
    ∃ found, Reaches (call.enter (.rescanning fullIdx 1 none))
        (call.enter (.rescanning fullIdx call.concurrency found)) ∧
      (∀ survivorIdx ∈ found, Jammed call.channels survivorIdx) ∧
      (found = none → ∀ retryOffset, 1 ≤ retryOffset → retryOffset < call.concurrency →
        Shut call.channels (call.retryIdx fullIdx retryOffset)) := by
  have body : ∀ retryOffset firstFullIdx, retryOffset < call.concurrency →
      (call.enter (.rescanning fullIdx retryOffset firstFullIdx)).advance =
        Option.some ((call.enter (.rescanning fullIdx retryOffset firstFullIdx)).tryWorker
          (call.retryIdx fullIdx retryOffset) firstFullIdx (.rescanning fullIdx (retryOffset + 1))) := by
    intro retryOffset firstFullIdx more
    exact if_pos more
  obtain ⟨found, reaches, members, none⟩ :=
    reaches_looped body (call.concurrency - 1) (Nat.add_sub_cancel' some) (fun later _ below => stuck later below) none
  refine ⟨found, reaches, fun survivorIdx member => ?_, fun empty => (none empty).2⟩
  exact ((members survivorIdx member).resolve_left (fun none => by cases none)).1

theorem reaches_unscanned {index : Nat} (fresh : call.phase = .scanning 0 none)
    (missed : ∀ offset < call.concurrency, call.scanIdx offset ≠ index) :
    ∃ channels, Reaches call { call with channels := channels, phase := .returned false } ∧
      channels[index]? = call.channels[index]? := by
  obtain ⟨channels, reaches, same, shut⟩ := reaches_spared [index] call
  have all : ∀ offset < call.concurrency, Shut channels (call.scanIdx offset) :=
    fun offset below => shut _ (by simpa using missed offset below)
  obtain ⟨found, looped, members, _⟩ :=
    reaches_scanned { call with channels := channels } fun offset below => .inl (all offset below)
  have entered : { call with channels := channels } = { call with channels := channels }.enter (.scanning 0 none) := by
    rw [← fresh]
    rfl
  have empty : found = none := by
    cases found with
    | none => rfl
    | some fullIdx =>
      obtain ⟨jammed, offset, below, rfl⟩ := members fullIdx rfl
      exact absurd (all offset below) jammed.not_shut
  subst empty
  have ended : ({ call with channels := channels }.enter (.scanning call.concurrency none)).advance =
      some { call with channels := channels, phase := .returned false } := by
    simp [Call.advance, Call.enter]
  exact ⟨channels, (reaches.trans (entered ▸ looped)).trans (reaches_advance ended), same index (by simp)⟩

theorem reaches_failed (call : Call Batch) {index : Nat} {failed : CallPhase} (jammed : Jammed call.channels index)
    (awaits : ∀ channels, { call with channels := channels }.advance =
      { call with channels := channels }.awaitWorker index failed) :
    ∃ channels, Reaches call { call with channels := channels, phase := failed } ∧ Shut channels index ∧
      ∀ other, other ≠ index → channels[other]? = call.channels[other]? := by
  obtain ⟨channel, found, _⟩ := jammed
  have inside := (List.getElem?_eq_some_iff.mp found).1
  have here : (call.channels.set index channel.close)[index]? = some channel.close := List.getElem?_set_self inside
  have closed : call.step (.close index) = some { call with channels := call.channels.set index channel.close } := by
    simp only [Call.step, found, Option.map_some]
  have ended : { call with channels := call.channels.set index channel.close }.advance =
      some { call with channels := call.channels.set index channel.close, phase := failed } := by
    have sent : channel.close.trySend call.batch = .error .closed := rfl
    rw [awaits]
    simp only [Call.awaitWorker, here, sent]
    rfl
  refine ⟨_, .head ⟨_, trivial, closed⟩ (reaches_advance ended), shut_of_closed here rfl, fun other ne => ?_⟩
  exact List.getElem?_set_ne (Ne.symm ne)

theorem Jammed.congr {before after : List (WorkerChannel Batch)} {index : Nat} (jammed : Jammed before index)
    (same : after[index]? = before[index]?) : Jammed after index := by
  obtain ⟨channel, found, full⟩ := jammed
  exact ⟨channel, same.trans found, full⟩

theorem two_others {first second third fullIdx : Nat} (distinct : first ≠ second ∧ first ≠ third ∧ second ≠ third)
    (member : fullIdx ∈ [first, second, third]) :
    ∃ left right, left ∈ [first, second, third] ∧ right ∈ [first, second, third] ∧ left ≠ right ∧ left ≠ fullIdx ∧
      right ≠ fullIdx := by
  simp only [List.mem_cons, List.not_mem_nil, or_false] at member
  obtain rfl | rfl | rfl := member
  · exact ⟨second, third, by simp, by simp, distinct.2.2, distinct.1.symm, distinct.2.1.symm⟩
  · exact ⟨first, third, by simp, by simp, distinct.2.1, distinct.1, distinct.2.2.symm⟩
  · exact ⟨first, second, by simp, by simp, distinct.1, distinct.2.1, distinct.2.2⟩

theorem reaches_third (fresh : call.phase = .scanning 0 none) (counted : call.concurrency = call.channels.length)
    (bound : call.channels.length ≤ isizeMax) (scanned : Scanned call) {first second third : Nat}
    (jammed : ∀ index ∈ [first, second, third], Jammed call.channels index)
    (distinct : first ≠ second ∧ first ≠ third ∧ second ≠ third) :
    ∃ channels index, Reaches call { call with channels := channels, phase := .returned false } ∧
      Jammed channels index := by
  obtain ⟨cut, reaches, same, shut⟩ := reaches_spared [first, second, third] call
  have spared : ∀ index ∈ [first, second, third], Jammed cut index :=
    fun index member => (jammed index member).congr (same index member)
  have stuck : ∀ index, Shut cut index ∨ Jammed cut index := by
    intro index
    by_cases member : index ∈ [first, second, third]
    · exact .inr (spared index member)
    · exact .inl (shut index member)
  have among : ∀ {index}, Jammed cut index → index ∈ [first, second, third] := by
    intro index full
    by_contra other
    exact full.not_shut (shut index other)
  have entered : { call with channels := cut } = { call with channels := cut }.enter (.scanning 0 none) := by
    rw [← fresh]
    rfl
  obtain ⟨found, looped, members, none⟩ := reaches_scanned { call with channels := cut } fun _ _ => stuck _
  cases found with
  | none =>
    have member : first ∈ [first, second, third] := by simp
    have open_ := (jammed first member).not_shut
    obtain ⟨offset, below, own⟩ := scanned first (jammed first member).lt open_
    exact absurd (own ▸ none rfl offset (counted ▸ below)) (spared first member).not_shut
  | some fullIdx =>
    have full := (members fullIdx rfl).1
    obtain ⟨left, right, leftIn, rightIn, apart, leftOther, rightOther⟩ := two_others distinct (among full)
    have waits : ({ call with channels := cut }.enter (.scanning call.concurrency (some fullIdx))).advance =
        some ({ call with channels := cut }.enter (.sending fullIdx)) := by
      simp [Call.advance, Call.enter]
    obtain ⟨after, failed, gone, rest⟩ : ∃ after, Reaches ({ call with channels := cut }.enter (.sending fullIdx))
        { call with channels := after, phase := .rescanning fullIdx 1 .none } ∧ Shut after fullIdx ∧
        ∀ other, other ≠ fullIdx → after[other]? = cut[other]? :=
      reaches_failed ({ call with channels := cut }.enter (.sending fullIdx)) full fun _ => rfl
    have stuck' : ∀ index, Shut after index ∨ Jammed after index := by
      intro index
      by_cases own : index = fullIdx
      · exact .inl (own ▸ gone)
      · exact (stuck index).imp (fun shut channel at_ => shut channel ((rest index own) ▸ at_))
          (fun jammed => jammed.congr (rest index own))
    have inside := (jammed _ (among full)).lt
    obtain ⟨found', looped', members', none'⟩ :=
      reaches_rescanned { call with channels := after } (by show 1 ≤ call.concurrency; omega) fun _ _ => stuck' _
    have leftFull : Jammed after left := (spared left leftIn).congr (rest left leftOther)
    have rightFull : Jammed after right := (spared right rightIn).congr (rest right rightOther)
    cases found' with
    | none =>
      have leftInside := (jammed left leftIn).lt
      obtain ⟨offset, one, below, own⟩ :=
        retryIdx_covers { call with channels := after } (counted ▸ bound) (counted ▸ inside)
          (counted ▸ leftInside) leftOther
      exact absurd (own ▸ none' rfl offset one below) leftFull.not_shut
    | some survivorIdx =>
      have waits' : ({ call with channels := after }.enter
          (.rescanning fullIdx call.concurrency (some survivorIdx))).advance =
          some ({ call with channels := after }.enter (.sendingSurvivor survivorIdx)) := by
        simp [Call.advance, Call.enter]
      obtain ⟨last, failed', _, rest'⟩ : ∃ last,
          Reaches ({ call with channels := after }.enter (.sendingSurvivor survivorIdx))
            { call with channels := last, phase := .returned false } ∧ Shut last survivorIdx ∧
          ∀ other, other ≠ survivorIdx → last[other]? = after[other]? :=
        reaches_failed ({ call with channels := after }.enter (.sendingSurvivor survivorIdx)) (members' survivorIdx rfl)
          fun _ => rfl
      have whole : Reaches call { call with channels := last, phase := .returned false } := by
        have first := (reaches.trans (entered ▸ looped)).trans ((reaches_advance waits).trans failed)
        exact first.trans (looped'.trans ((reaches_advance waits').trans failed'))
      by_cases own : left = survivorIdx
      · exact ⟨last, right, whole, rightFull.congr (rest' right fun same => apart (own.trans same.symm))⟩
      · exact ⟨last, left, whole, leftFull.congr (rest' left own)⟩

theorem not_settles {start : Call Batch} {channels : List (WorkerChannel Batch)} {index : Nat}
    (opened : ¬ Shut channels index) :
    ¬ Settles start { call with channels := channels, phase := .returned false } := by
  intro settles
  exact opened fun channel found => settles.stopped rfl channel (List.mem_of_getElem? found)

/-- Every run of `dispatch_batch` places the batch once if it returns `true` and else not at all, and returns `false`
    only beside closed channels, exactly if its first loop comes to every open channel and at most two channels are
    open and full at the call. -/
theorem dispatch_batch_settles_iff (batch : Batch) (workerTxs : List (WorkerChannel Batch)) (nextWorker : Nat)
    (bound : workerTxs.length ≤ isizeMax) :
    (∀ call, Reaches (dispatchBatch batch workerTxs nextWorker) call →
        Settles (dispatchBatch batch workerTxs nextWorker) call) ↔
      Scanned (dispatchBatch batch workerTxs nextWorker) ∧ AtMostTwoJammed workerTxs := by
  constructor
  · intro settles
    have scanned : Scanned (dispatchBatch batch workerTxs nextWorker) := by
      intro index _ opened
      by_contra missed
      obtain ⟨channels, reaches, same⟩ : ∃ channels, Reaches (dispatchBatch batch workerTxs nextWorker)
          { dispatchBatch batch workerTxs nextWorker with channels := channels, phase := .returned false } ∧
          channels[index]? = workerTxs[index]? :=
        reaches_unscanned rfl fun offset below own => missed ⟨offset, below, own⟩
      have left : ¬ Shut channels index := fun shut => opened fun channel found => shut channel (same.trans found)
      exact not_settles left (settles _ reaches)
    refine ⟨scanned, fun first second third one two three => ?_⟩
    by_contra distinct
    simp only [not_or] at distinct
    have jammed : ∀ index ∈ [first, second, third], Jammed workerTxs index := by
      intro index member
      simp only [List.mem_cons, List.not_mem_nil, or_false] at member
      obtain rfl | rfl | rfl := member
      · exact one
      · exact two
      · exact three
    obtain ⟨channels, index, reaches, left⟩ := reaches_third rfl rfl bound scanned jammed distinct
    exact not_settles left.not_shut (settles _ reaches)
  · intro condition call reaches
    exact reaches_settles rfl bound condition.2 condition.1 rfl reaches

/-- `run` starts at the first worker and goes on behind the one that took the last batch, so its calls leave no channel
    out. -/
theorem scanned_of_lt {batch : Batch} {workerTxs : List (WorkerChannel Batch)} {nextWorker : Nat}
    (bound : workerTxs.length ≤ isizeMax) (inside : nextWorker < workerTxs.length) :
    Scanned (dispatchBatch batch workerTxs nextWorker) := by
  intro index below _
  by_cases same : index = nextWorker
  · refine ⟨0, by show 0 < workerTxs.length; omega, ?_⟩
    simp only [isizeMax] at bound
    have unsaturated : saturatingAdd usizeMax nextWorker 0 = nextWorker := by
      simp only [saturatingAdd, usizeMax]
      omega
    show saturatingAdd usizeMax nextWorker 0 % workerTxs.length = index
    rw [unsaturated, Nat.mod_eq_of_lt inside, same]
  · obtain ⟨offset, _, less, own⟩ :=
      retryIdx_covers (dispatchBatch batch workerTxs nextWorker) bound inside below same
    exact ⟨offset, less, own⟩

def fullChannel (waiting : Nat) : WorkerChannel Nat := ⟨1, [], [waiting], false⟩

/-- Three workers are full, and two of them end while the call waits for them. -/
theorem dispatch_batch_drops_beside_open :
    ¬ ∀ call, Reaches (dispatchBatch 4 [fullChannel 1, fullChannel 2, fullChannel 3] 0) call →
      Settles (dispatchBatch 4 [fullChannel 1, fullChannel 2, fullChannel 3] 0) call := by
  intro settles
  have executed : execute Call.step (dispatchBatch 4 [fullChannel 1, fullChannel 2, fullChannel 3] 0)
      [.advance, .advance, .advance, .advance, .close 0, .advance, .advance, .advance, .advance, .close 1, .advance] =
      some { dispatchBatch 4 [(fullChannel 1).close, (fullChannel 2).close, fullChannel 3] 0 with
        phase := .returned false } := by decide
  have settled := settles _ (execute_run (fun _ _ => trivial) _ executed)
  exact absurd (settled.stopped rfl (fullChannel 3) (by simp [dispatchBatch])) (by decide)

theorem dispatch_batch_settles_iff_two :
    [fullChannel 1, fullChannel 2].length ≤ isizeMax ∧
      ∀ call, Reaches (dispatchBatch 3 [fullChannel 1, fullChannel 2] 1) call →
        Settles (dispatchBatch 3 [fullChannel 1, fullChannel 2] 1) call := by
  have small : [fullChannel 1, fullChannel 2].length ≤ isizeMax := by decide
  refine ⟨small, (dispatch_batch_settles_iff 3 [fullChannel 1, fullChannel 2] 1 small).mpr
    ⟨scanned_of_lt small (by decide), fun first second third one two three => ?_⟩⟩
  have below : ∀ {index}, Jammed [fullChannel 1, fullChannel 2] index → index < 2 := fun jammed => jammed.lt
  have := below one
  have := below two
  have := below three
  omega

end OtelDatalake.Wasm.DispatchBatch
