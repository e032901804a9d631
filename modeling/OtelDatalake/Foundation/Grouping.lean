import Mathlib.Data.List.Nodup
import Mathlib.Data.List.Induction
import Mathlib.Order.Defs.Unbundled

namespace OtelDatalake.Foundation

variable {α κ : Type}

theorem filterMap_range_getElem? (values : List α) :
    ((List.range values.length).filterMap fun index => values[index]?) = values := by
  induction values using List.reverseRecOn with
  | nil => rfl
  | append_singleton front last ih =>
    have kept : ∀ index ∈ List.range front.length, (front ++ [last])[index]? = front[index]? :=
      fun index inside => List.getElem?_append_left (List.mem_range.mp inside)
    rw [List.length_append, List.length_singleton, List.range_succ, List.filterMap_append,
      List.filterMap_congr kept, ih]
    simp

/-- Between two equal keys stands no other key. -/
def Grouped (keys : List κ) : Prop :=
  ∀ before key middle after, keys = before ++ key :: (middle ++ key :: after) → ∀ other ∈ middle, other = key

theorem grouped_of_length_le_one {keys : List κ} (short : keys.length ≤ 1) : Grouped keys := by
  rintro before key middle after rfl
  simp only [List.length_append, List.length_cons] at short
  omega

theorem grouped_of_pairwise {le : κ → κ → Prop} [Std.Antisymm le] {keys : List κ} (sorted : keys.Pairwise le) :
    Grouped keys := by
  rintro before key middle after rfl other found
  have tail := List.rel_of_pairwise_cons (List.pairwise_append.mp sorted).2.1
    (List.mem_append_left (key :: after) found)
  have inner := (List.pairwise_append.mp (List.pairwise_append.mp sorted).2.1.of_cons).2.2 other found key
    List.mem_cons_self
  exact Std.Antisymm.antisymm _ _ inner tail

theorem Grouped.not_mem_of_ne {before after : List κ} {last next : κ}
    (grouped : Grouped (before ++ last :: next :: after)) (different : next ≠ last) : next ∉ before ++ [last] := by
  intro found
  rcases List.mem_append.mp found with earlier | same
  · obtain ⟨front, middle, rfl⟩ := List.append_of_mem earlier
    have between := grouped front next (middle ++ [last]) after (by simp) last
      (List.mem_append_right middle List.mem_cons_self)
    exact different between.symm
  · exact different (List.mem_singleton.mp same)

/-- Labelled parts that make up a list: none is empty, all values of a part have its label, and no label occurs twice. -/
structure LabelledParts (key : α → κ) (values : List α) (parts : List (κ × List α)) : Prop where
  whole : parts.flatMap Prod.snd = values
  nonempty : ∀ part ∈ parts, part.2 ≠ []
  single : ∀ part ∈ parts, ∀ value ∈ part.2, key value = part.1
  distinct : (parts.map Prod.fst).Nodup

namespace LabelledParts

variable {key : α → κ} {values : List α} {parts : List (κ × List α)}

theorem nil : LabelledParts key [] [] :=
  ⟨rfl, fun _ found => absurd found List.not_mem_nil, fun _ found => absurd found List.not_mem_nil, List.nodup_nil⟩

theorem label_mem_iff (labelled : LabelledParts key values parts) (label : κ) :
    label ∈ parts.map Prod.fst ↔ ∃ value ∈ values, key value = label := by
  rw [← labelled.whole]
  constructor
  · intro found
    obtain ⟨part, member, rfl⟩ := List.mem_map.mp found
    obtain ⟨value, inside⟩ := List.exists_mem_of_ne_nil part.2 (labelled.nonempty part member)
    exact ⟨value, List.mem_flatMap.mpr ⟨part, member, inside⟩, labelled.single part member value inside⟩
  · rintro ⟨value, found, rfl⟩
    obtain ⟨part, member, inside⟩ := List.mem_flatMap.mp found
    rw [labelled.single part member value inside]
    exact List.mem_map_of_mem member

theorem push (labelled : LabelledParts key values parts) {label : κ} {run : List α} (some : run ≠ [])
    (alike : ∀ value ∈ run, key value = label) (new : ∀ value ∈ values, key value ≠ label) :
    LabelledParts key (values ++ run) (parts ++ [(label, run)]) where
  whole := by rw [List.flatMap_append, labelled.whole, List.flatMap_singleton]
  nonempty part found := by
    rcases List.mem_append.mp found with earlier | last
    · exact labelled.nonempty part earlier
    · rw [List.mem_singleton.mp last]
      exact some
  single part found := by
    rcases List.mem_append.mp found with earlier | last
    · exact labelled.single part earlier
    · rw [List.mem_singleton.mp last]
      exact alike
  distinct := by
    rw [List.map_append, List.map_singleton]
    refine List.Nodup.append labelled.distinct (List.nodup_singleton label) ?_
    rw [List.disjoint_singleton, labelled.label_mem_iff]
    rintro ⟨value, found, same⟩
    exact new value found same

end LabelledParts

/-- A value joins the group of its key, or starts one. -/
def pushGroup [DecidableEq κ] (key : κ) (value : α) : List (κ × List α) → List (κ × List α)
  | [] => [(key, [value])]
  | (other, values) :: rest =>
    if other = key then (other, values ++ [value]) :: rest else (other, values) :: pushGroup key value rest

/-- Values in groups of one key each: a group is the values of its key, in their order. -/
structure GroupedBy [DecidableEq κ] (keyOf : α → κ) (values : List α) (groups : List (κ × List α)) : Prop where
  distinct : (groups.map Prod.fst).Nodup
  members : ∀ group ∈ groups, group.2 = values.filter fun value => keyOf value = group.1
  covered : (groups.flatMap Prod.snd).Perm values

section Pushing

variable [DecidableEq κ] {keyOf : α → κ} {values : List α} {groups : List (κ × List α)}

theorem pushGroup_flatMap (key : κ) (value : α) (groups : List (κ × List α)) :
    ((pushGroup key value groups).flatMap Prod.snd).Perm (groups.flatMap Prod.snd ++ [value]) := by
  induction groups with
  | nil => exact .refl _
  | cons group rest ih =>
    obtain ⟨other, members⟩ := group
    rw [pushGroup]
    split
    · simp only [List.flatMap_cons, List.append_assoc]
      exact List.perm_append_comm.append_left members
    · simp only [List.flatMap_cons, List.append_assoc]
      exact ih.append_left members

theorem mem_pushGroup {key : κ} {value : α} {groups : List (κ × List α)} (distinct : (groups.map Prod.fst).Nodup)
    {group : κ × List α} (found : group ∈ pushGroup key value groups) :
    (group ∈ groups ∧ group.1 ≠ key) ∨ (∃ members, (key, members) ∈ groups ∧ group = (key, members ++ [value])) ∨
      (key ∉ groups.map Prod.fst ∧ group = (key, [value])) := by
  induction groups with
  | nil => exact .inr (.inr ⟨List.not_mem_nil, List.mem_singleton.mp found⟩)
  | cons first rest ih =>
    obtain ⟨other, members⟩ := first
    rw [List.map_cons, List.nodup_cons] at distinct
    rw [pushGroup] at found
    split at found
    · rename_i same
      rcases List.mem_cons.mp found with rfl | later
      · exact .inr (.inl ⟨members, by rw [← same]; exact List.mem_cons_self, by rw [same]⟩)
      · have listed : group.1 ∈ rest.map Prod.fst := List.mem_map_of_mem later
        refine .inl ⟨List.mem_cons_of_mem _ later, fun again => ?_⟩
        rw [again, ← same] at listed
        exact distinct.1 listed
    · rename_i different
      rcases List.mem_cons.mp found with rfl | later
      · exact .inl ⟨List.mem_cons_self, different⟩
      · rcases ih distinct.2 later with ⟨old, others⟩ | ⟨members, old, grown⟩ | ⟨absent, new⟩
        · exact .inl ⟨List.mem_cons_of_mem _ old, others⟩
        · exact .inr (.inl ⟨members, List.mem_cons_of_mem _ old, grown⟩)
        · refine .inr (.inr ⟨?_, new⟩)
          rw [List.map_cons, List.mem_cons, not_or]
          exact ⟨Ne.symm different, absent⟩

theorem map_fst_pushGroup (key : κ) (value : α) (groups : List (κ × List α)) :
    (pushGroup key value groups).map Prod.fst =
      if key ∈ groups.map Prod.fst then groups.map Prod.fst else groups.map Prod.fst ++ [key] := by
  induction groups with
  | nil => rfl
  | cons first rest ih =>
    obtain ⟨other, members⟩ := first
    rw [pushGroup]
    by_cases same : other = key
    · simp [same]
    · simp only [if_neg same, List.map_cons, List.mem_cons, Ne.symm same, false_or, ih]
      split <;> rfl

namespace GroupedBy

theorem nil : GroupedBy keyOf [] [] := ⟨List.nodup_nil, fun _ found => absurd found List.not_mem_nil, .refl _⟩

theorem push (grouped : GroupedBy keyOf values groups) (value : α) :
    GroupedBy keyOf (values ++ [value]) (pushGroup (keyOf value) value groups) where
  distinct := by
    rw [map_fst_pushGroup]
    split
    · exact grouped.distinct
    · rename_i new
      exact grouped.distinct.append (List.nodup_singleton _) (List.disjoint_singleton.mpr new)
  members group found := by
    rw [List.filter_append, List.filter_singleton]
    rcases mem_pushGroup grouped.distinct found with ⟨old, other⟩ | ⟨members, old, rfl⟩ | ⟨absent, rfl⟩
    · rw [decide_eq_false (Ne.symm other), cond_false, List.append_nil]
      exact grouped.members group old
    · rw [decide_eq_true rfl, cond_true, ← grouped.members _ old]
    · have none : values.filter (fun other => decide (keyOf other = keyOf value)) = [] := by
        rw [List.filter_eq_nil_iff]
        intro other listed same
        obtain ⟨group, member, inside⟩ := List.mem_flatMap.mp (grouped.covered.mem_iff.mpr listed)
        rw [grouped.members group member, List.mem_filter] at inside
        have key := of_decide_eq_true inside.2
        rw [of_decide_eq_true same] at key
        exact absent (key ▸ List.mem_map_of_mem member)
      rw [decide_eq_true rfl, cond_true, none, List.nil_append]
  covered := (pushGroup_flatMap _ value groups).trans (grouped.covered.append_right [value])

theorem perm (grouped : GroupedBy keyOf values groups) {others : List (κ × List α)} (reordered : others.Perm groups) :
    GroupedBy keyOf values others where
  distinct := (reordered.map Prod.fst).nodup_iff.mpr grouped.distinct
  members group found := grouped.members group (reordered.mem_iff.mp found)
  covered := (reordered.flatMap_right Prod.snd).trans grouped.covered

theorem together_iff (grouped : GroupedBy keyOf values groups) {first second : α} (left : first ∈ values)
    (right : second ∈ values) :
    (∃ group ∈ groups, first ∈ group.2 ∧ second ∈ group.2) ↔ keyOf first = keyOf second := by
  constructor
  · rintro ⟨group, member, inFirst, inSecond⟩
    rw [grouped.members group member, List.mem_filter] at inFirst inSecond
    rw [of_decide_eq_true inFirst.2, of_decide_eq_true inSecond.2]
  · intro same
    obtain ⟨group, member, inside⟩ := List.mem_flatMap.mp (grouped.covered.mem_iff.mpr left)
    refine ⟨group, member, inside, ?_⟩
    rw [grouped.members group member, List.mem_filter] at inside ⊢
    exact ⟨right, by rw [← same]; exact inside.2⟩

end GroupedBy

end Pushing

end OtelDatalake.Foundation
