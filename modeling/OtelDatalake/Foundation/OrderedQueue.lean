import Mathlib.Data.List.Sort
import Mathlib.Data.List.InsertIdx
import Mathlib.Data.List.TakeWhile

namespace OtelDatalake.Foundation

variable {α : Type}

def Ascending (key : α → Nat) (queue : List α) : Prop :=
  queue.Pairwise (fun left right => key left < key right)

def insertOrdered (key : α → Nat) (item : α) (queue : List α) : List α :=
  queue.takeWhile (fun existing => key existing ≤ key item) ++
    item :: queue.dropWhile (fun existing => key existing ≤ key item)

theorem insertOrdered_perm (key : α → Nat) (item : α) (queue : List α) :
    (insertOrdered key item queue).Perm (item :: queue) := by
  unfold insertOrdered
  refine List.perm_middle.trans ?_
  rw [List.takeWhile_append_dropWhile]

theorem Ascending.nodup {key : α → Nat} {queue : List α} (sorted : Ascending key queue) :
    (queue.map key).Nodup :=
  List.pairwise_map.mpr (sorted.imp fun lower => lower.ne)

theorem Ascending.append {key : α → Nat} {left right : List α} (sortedLeft : Ascending key left)
    (sortedRight : Ascending key right)
    (below : ∀ low ∈ left, ∀ high ∈ right, key low < key high) : Ascending key (left ++ right) :=
  List.pairwise_append.mpr ⟨sortedLeft, sortedRight, below⟩

theorem Ascending.head_lt {key : α → Nat} {front : α} {rest : List α}
    (sorted : Ascending key (front :: rest)) : ∀ item ∈ rest, key front < key item :=
  (List.pairwise_cons.mp sorted).1

theorem Ascending.eq_of_key {key : α → Nat} {queue : List α} (sorted : Ascending key queue) {left right : α}
    (first : left ∈ queue) (second : right ∈ queue) (same : key left = key right) : left = right :=
  List.inj_on_of_nodup_map sorted.nodup first second same

theorem Ascending.eq_of_mem {key : α → Nat} {left right : List α} (first : Ascending key left)
    (second : Ascending key right) (same : ∀ item, item ∈ left ↔ item ∈ right) : left = right := by
  have perm : left.Perm right := by
    refine (List.perm_ext_iff_of_nodup ?_ ?_).mpr same
    · exact first.nodup.of_map
    · exact second.nodup.of_map
  refine perm.eq_of_pairwise (fun lower higher _ _ below above => ?_) first second
  omega

theorem Ascending.front_of_contiguous {key : α → Nat} {queue group : List α} (sorted : Ascending key queue)
    {lowest : Nat} (above : ∀ item ∈ queue, lowest ≤ key item)
    (contiguous : group.map key = List.range' lowest group.length)
    (present : ∀ item ∈ group, item ∈ queue) : ∃ rest, queue = group ++ rest := by
  induction group generalizing queue lowest with
  | nil => exact ⟨queue, rfl⟩
  | cons first later ih =>
    rw [List.map_cons, List.length_cons, List.range'_succ, List.cons.injEq] at contiguous
    cases queue with
    | nil => exact absurd (present first List.mem_cons_self) List.not_mem_nil
    | cons front behind =>
      have front_eq : first = front := by
        refine sorted.eq_of_key (present first List.mem_cons_self) List.mem_cons_self ?_
        have lower := above front List.mem_cons_self
        rcases List.mem_cons.mp (present first List.mem_cons_self) with rfl | member
        · rfl
        · have := sorted.head_lt first member
          omega
      subst front_eq
      have higher : ∀ item ∈ behind, lowest + 1 ≤ key item := fun item member => by
        have := sorted.head_lt item member
        omega
      have inside : ∀ item ∈ later, item ∈ behind := by
        intro item member
        rcases List.mem_cons.mp (present item (List.mem_cons_of_mem _ member)) with rfl | held
        · have listed : key item ∈ later.map key := List.mem_map.mpr ⟨item, member, rfl⟩
          rw [contiguous.2, List.mem_range'_1] at listed
          omega
        · exact held
      obtain ⟨rest, split⟩ := ih sorted.of_cons higher contiguous.2 inside
      exact ⟨rest, by rw [split, List.cons_append]⟩

theorem Ascending.dropWhile_above {key : α → Nat} {queue : List α} (sorted : Ascending key queue)
    (bound : Nat) : ∀ item ∈ queue.dropWhile (fun existing => key existing ≤ bound), bound < key item := by
  induction queue with
  | nil => simp
  | cons front rest ih =>
    intro item member
    rw [List.dropWhile_cons] at member
    split at member
    · exact ih sorted.of_cons item member
    · rename_i above
      have lower : bound < key front := by simpa using above
      rcases List.mem_cons.mp member with rfl | member
      · exact lower
      · exact lower.trans (sorted.head_lt item member)

theorem Ascending.insertOrdered {key : α → Nat} {item : α} {queue : List α} (sorted : Ascending key queue)
    (fresh : key item ∉ queue.map key) : Ascending key (Foundation.insertOrdered key item queue) := by
  have whole := sorted
  rw [← List.takeWhile_append_dropWhile (p := fun existing => key existing ≤ key item) (l := queue)] at whole
  obtain ⟨left, right, across⟩ := List.pairwise_append.mp whole
  have above := sorted.dropWhile_above (key item)
  have below : ∀ low ∈ queue.takeWhile (fun existing => key existing ≤ key item), key low < key item := by
    intro low member
    have reached : key low ≤ key item := by simpa using List.mem_takeWhile_imp member
    have distinct : key low ≠ key item := fun same =>
      fresh (List.mem_map.mpr ⟨low, (List.takeWhile_sublist _).mem member, same⟩)
    omega
  refine Ascending.append left (List.pairwise_cons.mpr ⟨above, right⟩) ?_
  intro low member high reached
  rcases List.mem_cons.mp reached with rfl | reached
  · exact below low member
  · exact across low member high reached

theorem insertOrdered_above {key : α → Nat} {item : α} {queue : List α}
    (above : ∀ existing ∈ queue, key existing ≤ key item) :
    insertOrdered key item queue = queue ++ [item] := by
  unfold insertOrdered
  rw [List.takeWhile_eq_self_iff.mpr (by simpa using above),
    List.dropWhile_eq_nil_iff.mpr (by simpa using above)]

theorem insertOrdered_below {key : α → Nat} {item : α} {queue : List α}
    (below : ∀ existing ∈ queue, key item < key existing) :
    insertOrdered key item queue = item :: queue := by
  cases queue with
  | nil => rfl
  | cons front rest =>
    have first := below front (by simp)
    simp [insertOrdered, first]

theorem insertIdx_findIdx (key : α → Nat) (item : α) (queue : List α) :
    queue.insertIdx ((queue.findIdx? (fun existing => key existing > key item)).getD queue.length) item =
      insertOrdered key item queue := by
  induction queue with
  | nil => rfl
  | cons front rest ih =>
    by_cases later : key item < key front
    · simp [List.findIdx?_cons, insertOrdered, later]
    · have reached : key front ≤ key item := Nat.le_of_not_lt later
      have shifted : ((rest.findIdx? (fun existing => key existing > key item)).map (· + 1)).getD
          (rest.length + 1) =
          (rest.findIdx? (fun existing => key existing > key item)).getD rest.length + 1 := by
        cases rest.findIdx? (fun existing => key existing > key item) <;> rfl
      simp only [insertOrdered, List.takeWhile_cons, List.dropWhile_cons, reached, decide_true, if_true,
        List.cons_append, List.findIdx?_cons, gt_iff_lt, later, decide_false, Bool.false_eq_true,
        if_false, List.length_cons]
      simp only [gt_iff_lt] at shifted
      rw [shifted, List.insertIdx_succ_cons]
      simp only [gt_iff_lt, insertOrdered] at ih
      rw [ih]

end OtelDatalake.Foundation
