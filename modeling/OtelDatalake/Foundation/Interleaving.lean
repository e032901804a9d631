import Mathlib.Algebra.BigOperators.Group.List.Basic
import Mathlib.Algebra.GroupWithZero.Nat
import OtelDatalake.Foundation.Runs

namespace OtelDatalake.Foundation

/-- Threads, each with a state of its own, over one shared state. -/
structure Interleaved (Shared Thread : Type) where
  shared : Shared
  threads : List Thread
  deriving DecidableEq, Repr

/-- A thread is started, or the thread at a position makes its next atomic step. -/
inductive Turn (Thread Choice : Type) where
  | start (thread : Thread)
  | act (index : Nat) (choice : Choice)
  deriving DecidableEq, Repr

namespace Interleaved

variable {Shared Thread Choice : Type}

/-- Any thread may move next: `fresh` says in which states a thread starts, `act` is one atomic step. -/
def step (fresh : Thread → Bool) (act : Shared → Thread → Choice → Option (Shared × Thread))
    (system : Interleaved Shared Thread) : Turn Thread Choice → Option (Interleaved Shared Thread)
  | .start thread =>
    if fresh thread then some { system with threads := system.threads ++ [thread] } else none
  | .act index choice =>
    (system.threads[index]?).bind fun thread =>
      (act system.shared thread choice).map fun (shared, thread) =>
        { shared := shared, threads := system.threads.set index thread }

def total (share : Thread → Nat) (threads : List Thread) : Nat := (threads.map share).sum

@[simp] theorem total_nil (share : Thread → Nat) : total share [] = 0 := rfl

@[simp] theorem total_cons (share : Thread → Nat) (thread : Thread) (threads : List Thread) :
    total share (thread :: threads) = share thread + total share threads := by simp [total]

@[simp] theorem total_append (share : Thread → Nat) (left right : List Thread) :
    total share (left ++ right) = total share left + total share right := by simp [total]

theorem le_total (share : Thread → Nat) {thread : Thread} {threads : List Thread} (member : thread ∈ threads) :
    share thread ≤ total share threads := by
  obtain ⟨left, right, rfl⟩ := List.append_of_mem member
  rw [total_append, total_cons]
  omega

theorem others_zero (share : Thread → Nat) {left right : List Thread} {thread : Thread}
    (whole : total share (left ++ thread :: right) ≤ share thread) : ∀ other ∈ left ++ right, share other = 0 := by
  intro other member
  have part := le_total share member
  rw [total_append, total_cons] at whole
  rw [total_append] at part
  omega

theorem getElem?_split {threads : List Thread} {index : Nat} {thread : Thread}
    (found : threads[index]? = some thread) :
    ∃ left right, threads = left ++ thread :: right ∧ left.length = index := by
  obtain ⟨bound, rfl⟩ := List.getElem?_eq_some_iff.mp found
  refine ⟨threads.take index, threads.drop (index + 1), ?_, by simp [Nat.le_of_lt bound]⟩
  rw [List.getElem_cons_drop, List.take_append_drop]

theorem set_split (left right : List Thread) (thread next : Thread) :
    (left ++ thread :: right).set left.length next = left ++ next :: right := by
  rw [List.set_append_right _ _ (Nat.le_refl _)]
  simp

theorem getElem?_moved (left right : List Thread) (next : Thread) : (left ++ next :: right)[left.length]? = some next := by
  simp

theorem getElem?_others (left right : List Thread) (thread next : Thread) {index : Nat} (other : index ≠ left.length) :
    (left ++ next :: right)[index]? = (left ++ thread :: right)[index]? := by
  rw [← set_split left right thread next, List.getElem?_set_ne (Ne.symm other)]

/-- Everything a turn can do: a fresh thread joins at the end, or one thread moves and the others stay. -/
theorem step_cases {fresh : Thread → Bool} {act : Shared → Thread → Choice → Option (Shared × Thread)}
    {before after : Interleaved Shared Thread} {turn : Turn Thread Choice}
    (stepped : step fresh act before turn = some after) :
    (∃ thread, turn = .start thread ∧ fresh thread = true ∧
      after = { before with threads := before.threads ++ [thread] }) ∨
    (∃ left thread right choice shared next, turn = .act left.length choice ∧
      before.threads = left ++ thread :: right ∧ act before.shared thread choice = some (shared, next) ∧
      after = ⟨shared, left ++ next :: right⟩) := by
  cases turn with
  | start thread =>
    by_cases isFresh : fresh thread = true
    · rw [step, if_pos isFresh] at stepped
      exact .inl ⟨thread, rfl, isFresh, (Option.some.inj stepped).symm⟩
    · rw [step, if_neg isFresh] at stepped
      cases stepped
  | act index choice =>
    rw [step, Option.bind_eq_some_iff] at stepped
    obtain ⟨thread, found, stepped⟩ := stepped
    obtain ⟨⟨shared, next⟩, acted, rfl⟩ := Option.map_eq_some_iff.mp stepped
    obtain ⟨left, right, split, rfl⟩ := getElem?_split found
    refine .inr ⟨left, thread, right, choice, shared, next, rfl, split, acted, ?_⟩
    simp only [split, set_split]

theorem step_act (fresh : Thread → Bool) {act : Shared → Thread → Choice → Option (Shared × Thread)}
    {shared after : Shared} {left right : List Thread} {thread next : Thread} {choice : Choice}
    (acted : act shared thread choice = some (after, next)) :
    step fresh act ⟨shared, left ++ thread :: right⟩ (.act left.length choice) =
      some ⟨after, left ++ next :: right⟩ := by
  simp only [step, getElem?_moved, Option.bind_some, acted, Option.map_some, set_split]

theorem exists_moved {property : Thread → Prop} (left right : List Thread) {next : Thread} (holds : property next) :
    ∃ thread ∈ left ++ next :: right, property thread :=
  ⟨next, by simp, holds⟩

theorem exists_others {property : Thread → Prop} {left right : List Thread} {thread : Thread} (next : Thread)
    (found : ∃ other ∈ left ++ thread :: right, property other) (lacks : ¬ property thread) :
    ∃ other ∈ left ++ next :: right, property other := by
  obtain ⟨other, member, holds⟩ := found
  have elsewhere : other ≠ thread := fun same => lacks (same ▸ holds)
  refine ⟨other, ?_, holds⟩
  simp only [List.mem_append, List.mem_cons] at member ⊢
  rcases member with member | member | member
  · exact .inl member
  · exact absurd member elsewhere
  · exact .inr (.inr member)

theorem mem_of_mem_others {left right : List Thread} (thread : Thread) {other : Thread} (member : other ∈ left ++ right) :
    other ∈ left ++ thread :: right := by
  rw [List.mem_append, List.mem_cons]
  rcases List.mem_append.mp member with place | place
  · exact .inl place
  · exact .inr (.inr place)

theorem forall_next {property : Thread → Prop} {left right : List Thread} {next : Thread}
    (others : ∀ other ∈ left ++ right, property other) (own : property next) :
    ∀ other ∈ left ++ next :: right, property other := by
  intro other member
  rw [List.mem_append, List.mem_cons] at member
  rcases member with place | rfl | place
  · exact others other (List.mem_append_left _ place)
  · exact own
  · exact others other (List.mem_append_right _ place)

theorem forall_moved {property : Thread → Prop} {left right : List Thread} {thread next : Thread}
    (before : ∀ other ∈ left ++ thread :: right, property other) (own : property next) :
    ∀ other ∈ left ++ next :: right, property other :=
  forall_next (fun other member => before other (mem_of_mem_others thread member)) own

theorem pairwise_others {related : Thread → Thread → Prop} {left right : List Thread} {thread : Thread}
    (symmetric : ∀ {first second}, related first second → related second first)
    (pairs : (left ++ thread :: right).Pairwise related) : ∀ other ∈ left ++ right, related thread other := by
  rw [List.pairwise_append, List.pairwise_cons] at pairs
  intro other member
  rcases List.mem_append.mp member with place | place
  · exact symmetric (pairs.2.2 other place thread List.mem_cons_self)
  · exact pairs.2.1.1 other place

theorem pairwise_moved {related : Thread → Thread → Prop} {left right : List Thread} {thread next : Thread}
    (symmetric : ∀ {first second}, related first second → related second first)
    (before : (left ++ thread :: right).Pairwise related)
    (kept : ∀ other ∈ left ++ right, related thread other → related next other) :
    (left ++ next :: right).Pairwise related := by
  rw [List.pairwise_append, List.pairwise_cons] at before ⊢
  obtain ⟨lefts, ⟨own, rights⟩, across⟩ := before
  refine ⟨lefts, ⟨?_, rights⟩, ?_⟩
  · intro other member
    exact kept other (List.mem_append_right _ member) (own other member)
  · intro other place follower member
    rcases List.mem_cons.mp member with rfl | member
    · have apart := symmetric (across other place thread List.mem_cons_self)
      exact symmetric (kept other (List.mem_append_left _ place) apart)
    · exact across other place follower (List.mem_cons_of_mem _ member)

theorem pairwise_started {related : Thread → Thread → Prop} {threads : List Thread} {thread : Thread}
    (before : threads.Pairwise related) (joins : ∀ other ∈ threads, related other thread) :
    (threads ++ [thread]).Pairwise related := by
  rw [List.pairwise_append]
  refine ⟨before, List.pairwise_singleton _ _, ?_⟩
  intro other place follower member
  rw [List.mem_singleton.mp member]
  exact joins other place

end Interleaved

end OtelDatalake.Foundation
