import OtelDatalake.Foundation.Utf8
import OtelDatalake.Parquet.FileNaming

open OtelDatalake.Foundation

namespace OtelDatalake.Parquet

theorem advance_lt {now prev next : Nat} (advanced : advance now prev = some next) (below : next < maxNanos) :
    prev < next := by
  rw [advance] at advanced
  split at advanced
  · rename_i later
    cases advanced
    exact later
  · cases advanced
    rw [saturatingAdd] at below ⊢
    omega

theorem advance_isSome (now prev : Nat) : ∃ next, advance now prev = some next := by
  unfold advance
  split
  · exact ⟨_, rfl⟩
  · exact ⟨_, rfl⟩

theorem handedOut_updated {now prev next place : Nat} (advanced : advance now prev = some next) :
    handedOut now (.updated prev place) = some next := by
  rw [← advanced, handedOut, advance]
  split <;> rfl

namespace FileNamer

def nameStart (request : NameRequest) : List Char :=
  if request.directory.isEmpty then [] else request.directory ++ ['/']

theorem filename_eq (namer : FileNamer) (request : NameRequest) (timestampNano : Nat) (uuidStr : List Char) :
    ∃ behind, namer.filename request timestampNano uuidStr =
      nameStart request ++ (paddedDigits 20 timestampNano ++ behind) := by
  refine ⟨'_' :: namer.nodeId ++ '_' :: uuidStr ++ '_' :: paddedDigits 4 request.sequence.toNat ++
    ".parquet".toList, ?_⟩
  simp only [filename, nameStart]
  split
  · simp only [List.nil_append, List.append_assoc]
  · simp only [List.cons_append, List.nil_append, List.append_assoc]

theorem filename_lt (namer : FileNamer) {left right : NameRequest} (together : left.directory = right.directory)
    {earlier later : Nat} (less : earlier < later) (fits : later < maxNanos) (leftUuid rightUuid : List Char) :
    utf8 (namer.filename left earlier leftUuid) < utf8 (namer.filename right later rightUuid) := by
  have width : later < 10 ^ 20 := Nat.lt_trans fits (by decide)
  obtain ⟨shared, low, high, leftRest, rightRest, first, second, digits⟩ := decimalDigits_split less width
  have leftDigits : paddedDigits 20 earlier = decimalDigits 20 earlier :=
    paddedDigits_eq_decimalDigits (Nat.lt_trans less width)
  have rightDigits : paddedDigits 20 later = decimalDigits 20 later := paddedDigits_eq_decimalDigits width
  have written : high ∈ paddedDigits 20 later := by
    rw [rightDigits, second]
    simp
  have digit := isDigit_of_mem_paddedDigits written
  have ascii : high.toNat < 128 := by
    simp only [Char.isDigit, Bool.and_eq_true, decide_eq_true_eq] at digit
    have bound := UInt32.le_iff_toNat_le.mp digit.2
    exact Nat.lt_of_le_of_lt bound (by decide)
  obtain ⟨leftBehind, leftName⟩ := namer.filename_eq left earlier leftUuid
  obtain ⟨rightBehind, rightName⟩ := namer.filename_eq right later rightUuid
  have split (before after behind : List Char) (c : Char) :
      nameStart right ++ ((before ++ c :: after) ++ behind) =
        (nameStart right ++ before) ++ c :: (after ++ behind) := by
    simp only [List.append_assoc, List.cons_append]
  have start : nameStart left = nameStart right := by rw [nameStart, nameStart, together]
  rw [leftName, rightName, leftDigits, rightDigits, first, second, start, split, split]
  exact utf8_lt_of_split digits ascii

end FileNamer

namespace NamingThread

def place? : NamingThread → Option Nat
  | .called _ => none
  | .stamping _ _ phase => phase.place?
  | .named generated => generated.update

/-- A name carries the stamp that its update stored. -/
def Recorded (namer : FileNamer) : NamingThread → Prop
  | .called _ => True
  | .stamping _ now phase => phase.Recorded (advance now) namer.lastNanos
  | .named generated => ∃ place uuidStr, generated.update = some place ∧ place < namer.lastNanos.past.length ∧
      namer.lastNanos.history[place + 1]? = some generated.timestampNano ∧
      generated.filename = namer.filename generated.request generated.timestampNano uuidStr

def Apart (left right : NamingThread) : Prop :=
  ∀ place, left.place? = some place → right.place? ≠ some place

theorem Apart.symm {left right : NamingThread} (apart : left.Apart right) : right.Apart left :=
  fun place own other => apart place other own

inductive Moved (namer : FileNamer) (thread : NamingThread) (after : FileNamer) (next : NamingThread) : Prop where
  | local (same : after = namer) (recorded : next.Recorded after) (place : next.place? = thread.place?)
  | update (now stored : Nat) (advanced : advance now namer.lastNanos.value = some stored)
      (counted : after = { namer with lastNanos := namer.lastNanos.store stored })
      (recorded : next.Recorded after) (place : next.place? = some namer.lastNanos.past.length)

theorem act_moved {namer after : FileNamer} {thread next : NamingThread} {choice : NamingChoice}
    (recorded : thread.Recorded namer) (acted : thread.act namer choice = some (after, next)) :
    Moved namer thread after next := by
  cases thread with
  | named generated => cases choice <;> cases acted
  | called request =>
    cases choice with
    | clock reading =>
      cases acted
      exact .local rfl trivial rfl
    | cell answer | uuid uuidStr => cases acted
  | stamping request now phase =>
    cases choice with
    | clock reading => cases acted
    | cell answer =>
      obtain ⟨⟨lastNanos, phaseAfter⟩, stepped, moved⟩ := Option.map_eq_some_iff.mp acted
      cases moved
      rcases TryUpdate.act_cases recorded stepped with ⟨seen, rfl, rfl, none⟩ | ⟨stored, advanced, rfl, rfl, -⟩
      · refine .local rfl (TryUpdate.recorded_propose _ _ seen) ?_
        rw [place?, place?, TryUpdate.place?_propose, none]
      · exact .update now stored advanced rfl (TryUpdate.Recorded.updated advanced) rfl
    | uuid uuidStr =>
      obtain ⟨timestampNano, handed, moved⟩ := Option.map_eq_some_iff.mp acted
      cases moved
      refine .local rfl ?_ rfl
      cases phase with
      | begin | attempt => cases handed
      | refused prev =>
        obtain ⟨stored, advanced⟩ := advance_isSome now prev
        rw [show advance now prev = none from recorded] at advanced
        cases advanced
      | updated prev place =>
        have kept : (TryUpdate.updated prev place).Recorded (advance now) namer.lastNanos := recorded
        have before := kept.place_lt rfl
        obtain ⟨stored, advanced, -, present⟩ := recorded
        rw [handedOut_updated advanced] at handed
        cases handed
        exact ⟨place, uuidStr, rfl, before, present, rfl⟩

theorem Recorded.stored {namer : FileNamer} {thread : NamingThread} (recorded : thread.Recorded namer) (stored : Nat) :
    thread.Recorded { namer with lastNanos := namer.lastNanos.store stored } := by
  cases thread with
  | called request => exact trivial
  | stamping request now phase => exact TryUpdate.Recorded.stored recorded stored
  | named generated =>
    obtain ⟨place, uuidStr, update, before, present, name⟩ := recorded
    refine ⟨place, uuidStr, update, ?_, ?_, name⟩
    · rw [AtomicCell.store_past, AtomicCell.history_length]
      exact Nat.lt_succ_of_lt before
    · obtain ⟨bound, -⟩ := List.getElem?_eq_some_iff.mp present
      rw [AtomicCell.store_history, List.getElem?_append_left bound, present]

theorem Recorded.place_lt {namer : FileNamer} {thread : NamingThread} {place : Nat}
    (recorded : thread.Recorded namer) (own : thread.place? = some place) : place < namer.lastNanos.past.length := by
  cases thread with
  | called request => cases own
  | stamping request now phase => exact TryUpdate.Recorded.place_lt recorded own
  | named generated =>
    obtain ⟨index, uuidStr, update, before, -, -⟩ := recorded
    rw [place?, update] at own
    cases own
    exact before

end NamingThread

namespace NamingSystem

/-- While the counter is below the largest stamp it has only been raised; each update belongs to one call. -/
structure Orderly (system : NamingSystem) : Prop where
  raised : system.shared.lastNanos.value < maxNanos → system.shared.lastNanos.history.IsChain (· < ·)
  recorded : ∀ thread ∈ system.threads, thread.Recorded system.shared
  apart : system.threads.Pairwise NamingThread.Apart

theorem Orderly.start (nodeId : List Char) (lastNanos : Nat) :
    Orderly (NamingSystem.start (.startingAt nodeId lastNanos)) :=
  ⟨fun _ => List.isChain_singleton lastNanos, fun _ member => absurd member List.not_mem_nil, .nil⟩

theorem Orderly.step {before after : NamingSystem} {turn : Turn NamingThread NamingChoice} (orderly : Orderly before)
    (stepped : step before turn = some after) : Orderly after := by
  rcases Interleaved.step_cases stepped with ⟨thread, rfl, fresh, rfl⟩ |
    ⟨left, thread, right, choice, shared, next, rfl, split, acted, rfl⟩
  · cases thread with
    | called request =>
      refine ⟨orderly.raised, ?_, Interleaved.pairwise_started orderly.apart ?_⟩
      · intro thread member
        rcases List.mem_append.mp member with member | member
        · exact orderly.recorded thread member
        · cases List.mem_singleton.mp member
          exact trivial
      · intro other _ place _ own
        cases own
    | stamping | named => cases fresh
  · have recorded := split ▸ orderly.recorded
    have apart := split ▸ orderly.apart
    have own : thread.Recorded before.shared := recorded thread (by simp)
    cases NamingThread.act_moved own acted with
    | «local» same nextRecorded place =>
      cases same
      refine ⟨orderly.raised, Interleaved.forall_moved recorded nextRecorded, ?_⟩
      refine Interleaved.pairwise_moved NamingThread.Apart.symm apart fun other _ separate => ?_
      intro index mine
      exact separate index (place ▸ mine)
    | update now stored advanced counted nextRecorded place =>
      cases counted
      refine ⟨fun below => ?_, ?_, ?_⟩
      · have less := advance_lt advanced below
        exact AtomicCell.store_isChain (orderly.raised (Nat.lt_trans less below)) less
      · exact Interleaved.forall_moved (fun other member => (recorded other member).stored stored) nextRecorded
      · refine Interleaved.pairwise_moved NamingThread.Apart.symm apart fun other member _ => ?_
        intro index mine theirs
        rw [place] at mine
        cases mine
        have placed := (recorded other (Interleaved.mem_of_mem_others thread member)).place_lt theirs
        exact absurd placed (Nat.lt_irrefl _)

theorem Orderly.of_run {nodeId : List Char} {lastNanos : Nat} {system : NamingSystem}
    (run : Run NamingSystem.step (fun _ _ => True) (NamingSystem.start (.startingAt nodeId lastNanos)) system) :
    Orderly system :=
  run.invariant Orderly (.start nodeId lastNanos) fun _ _ _ orderly _ stepped => orderly.step stepped

theorem Orderly.increasing {system : NamingSystem} (orderly : Orderly system)
    (below : system.shared.lastNanos.value < maxNanos) : system.shared.lastNanos.history.Pairwise (· < ·) :=
  List.isChain_iff_pairwise.mp (orderly.raised below)

theorem Orderly.le_value {system : NamingSystem} (orderly : Orderly system)
    (below : system.shared.lastNanos.value < maxNanos) {stamp : Nat} (held : stamp ∈ system.shared.lastNanos.history) :
    stamp ≤ system.shared.lastNanos.value := by
  have increasing := orderly.increasing below
  rw [AtomicCell.history, List.pairwise_append] at increasing
  rcases List.mem_append.mp held with earlier | last
  · exact Nat.le_of_lt (increasing.2.2 stamp earlier _ (List.mem_singleton_self _))
  · exact Nat.le_of_eq (List.mem_singleton.mp last)

theorem Orderly.named {system : NamingSystem} (orderly : Orderly system) {index : Nat} {generated : GeneratedName}
    (found : system.threads[index]? = some (.named generated)) :
    ∃ place uuidStr, generated.update = some place ∧
      system.shared.lastNanos.history[place + 1]? = some generated.timestampNano ∧
      generated.filename = system.shared.filename generated.request generated.timestampNano uuidStr := by
  obtain ⟨place, uuidStr, update, -, present, name⟩ := orderly.recorded _ (List.mem_of_getElem? found)
  exact ⟨place, uuidStr, update, present, name⟩

theorem Orderly.name_lt {system : NamingSystem} (orderly : Orderly system)
    (below : system.shared.lastNanos.value < maxNanos) {first second earlier later : Nat} {left right : GeneratedName}
    (leftFound : system.threads[first]? = some (.named left))
    (rightFound : system.threads[second]? = some (.named right)) (leftUpdate : left.update = some earlier)
    (rightUpdate : right.update = some later) (together : left.request.directory = right.request.directory)
    (less : earlier < later) : utf8 left.filename < utf8 right.filename := by
  obtain ⟨leftPlace, leftUuid, leftSame, leftStored, leftName⟩ := orderly.named leftFound
  obtain ⟨rightPlace, rightUuid, rightSame, rightStored, rightName⟩ := orderly.named rightFound
  cases leftUpdate.symm.trans leftSame
  cases rightUpdate.symm.trans rightSame
  obtain ⟨leftBound, leftStamp⟩ := List.getElem?_eq_some_iff.mp leftStored
  obtain ⟨rightBound, rightStamp⟩ := List.getElem?_eq_some_iff.mp rightStored
  have stamps : left.timestampNano < right.timestampNano := by
    rw [← leftStamp, ← rightStamp]
    exact List.pairwise_iff_getElem.mp (orderly.increasing below) _ _ leftBound rightBound (by omega)
  have fits := Nat.lt_of_le_of_lt (orderly.le_value below (List.mem_of_getElem? rightStored)) below
  rw [leftName, rightName]
  exact FileNamer.filename_lt _ together stamps fits leftUuid rightUuid

theorem Orderly.place_ne {system : NamingSystem} (orderly : Orderly system) {first second place : Nat}
    {left right : GeneratedName} (different : first ≠ second)
    (leftFound : system.threads[first]? = some (.named left))
    (rightFound : system.threads[second]? = some (.named right)) (leftUpdate : left.update = some place) :
    right.update ≠ some place := by
  obtain ⟨leftBound, leftThread⟩ := List.getElem?_eq_some_iff.mp leftFound
  obtain ⟨rightBound, rightThread⟩ := List.getElem?_eq_some_iff.mp rightFound
  have apart := List.pairwise_iff_getElem.mp orderly.apart
  rcases Nat.lt_or_gt_of_ne different with before | behind
  · have separate := apart first second leftBound rightBound before
    rw [leftThread, rightThread] at separate
    exact separate place leftUpdate
  · have separate := apart second first rightBound leftBound behind
    rw [leftThread, rightThread] at separate
    exact fun same => separate place same leftUpdate

/-- In every interleaving of calls on one namer whose counter stays below the largest stamp, each update raises
    the counter, every name carries the stamp that its own update stored, and the names of one directory are
    different and sort, byte by byte, in the order of their updates. -/
theorem generateFilename_ordered {nodeId : List Char} {lastNanos : Nat} {system : NamingSystem}
    (run : Run step (fun _ _ => True) (NamingSystem.start (.startingAt nodeId lastNanos)) system)
    (below : system.shared.lastNanos.value < maxNanos) :
    system.shared.lastNanos.history.Pairwise (· < ·) ∧
    (∀ (index : Nat) (generated : GeneratedName), system.threads[index]? = some (.named generated) →
      ∃ place, generated.update = some place ∧
        system.shared.lastNanos.history[place + 1]? = some generated.timestampNano) ∧
    ∀ (first second : Nat) (left right : GeneratedName), first ≠ second →
      system.threads[first]? = some (.named left) → system.threads[second]? = some (.named right) →
      left.request.directory = right.request.directory →
      left.filename ≠ right.filename ∧
        ∃ earlier later, left.update = some earlier ∧ right.update = some later ∧ earlier ≠ later ∧
          (earlier < later ↔ utf8 left.filename < utf8 right.filename) := by
  have orderly := Orderly.of_run run
  refine ⟨orderly.increasing below, ?_, ?_⟩
  · intro index generated found
    obtain ⟨place, uuidStr, update, present, -⟩ := orderly.named found
    exact ⟨place, update, present⟩
  · intro first second left right different leftFound rightFound together
    obtain ⟨earlier, -, leftUpdate, -, -⟩ := orderly.named leftFound
    obtain ⟨later, -, rightUpdate, -, -⟩ := orderly.named rightFound
    have places : earlier ≠ later := by
      rintro rfl
      exact orderly.place_ne different leftFound rightFound leftUpdate rightUpdate
    have forward := orderly.name_lt below leftFound rightFound leftUpdate rightUpdate together
    have backward := orderly.name_lt below rightFound leftFound rightUpdate leftUpdate together.symm
    refine ⟨?_, earlier, later, leftUpdate, rightUpdate, places, forward, fun names => ?_⟩
    · intro same
      rcases Nat.lt_or_gt_of_ne places with less | greater
      · exact List.lt_irrefl _ (same ▸ forward less)
      · exact List.lt_irrefl _ (same ▸ backward greater)
    · by_contra notLess
      have greater : later < earlier := by omega
      exact List.lt_asymm names (backward greater)

/-- Two calls whose clocks run backwards race for the counter: the later reading stores first, the other's
    compare-exchange fails, sees the new value and counts on from it. -/
def racingClocks : List (Turn NamingThread NamingChoice) :=
  [.start (.called ⟨"p/".toList, 7⟩), .start (.called ⟨"p".toList, 3⟩),
    .act 0 (.clock (some 50)), .act 1 (.clock (some 90)), .act 0 (.cell (.sees 0)), .act 1 (.cell (.sees 0)),
    .act 1 (.cell .exchanges), .act 0 (.cell (.sees 90)), .act 0 (.cell .exchanges),
    .act 0 (.uuid "u".toList), .act 1 (.uuid "v".toList)]

def racedSystem : NamingSystem :=
  ⟨⟨"n".toList, { value := 91, past := [0, 90] }⟩,
    [.named ⟨⟨"p/".toList, 7⟩, some 1, 91, "p/00000000000000000091_n_u_0007.parquet".toList⟩,
      .named ⟨⟨"p".toList, 3⟩, some 0, 90, "p/00000000000000000090_n_v_0003.parquet".toList⟩]⟩

theorem racingClocks_run : Run step (fun _ _ => True) (NamingSystem.start (.startingAt "n".toList 0)) racedSystem := by
  refine execute_run (fun _ _ => trivial) racingClocks ?_
  decide +kernel

theorem generateFilename_ordered_raced :
    "p/00000000000000000091_n_u_0007.parquet".toList ≠ "p/00000000000000000090_n_v_0003.parquet".toList ∧
      ∃ earlier later, some 1 = some earlier ∧ some 0 = some later ∧ earlier ≠ later ∧
        (earlier < later ↔ utf8 "p/00000000000000000091_n_u_0007.parquet".toList <
          utf8 "p/00000000000000000090_n_v_0003.parquet".toList) :=
  (generateFilename_ordered racingClocks_run (by decide)).2.2 0 1 _ _ (by decide) rfl rfl (by decide)

end NamingSystem

end OtelDatalake.Parquet
