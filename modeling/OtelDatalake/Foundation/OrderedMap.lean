import Mathlib.Data.List.Sort
import Mathlib.Algebra.BigOperators.Group.List.Basic
import Mathlib.Algebra.GroupWithZero.Nat

open Std

namespace OtelDatalake.Foundation

section Entries

variable {β : Type}

def firstKeyValue? (map : ExtTreeMap Nat β) : Option (Nat × β) := map.toList.head?

theorem firstKeyValue?_eq_none {map : ExtTreeMap Nat β} : firstKeyValue? map = none ↔ ∀ key, key ∉ map := by
  simp only [firstKeyValue?, List.head?_eq_none_iff]
  constructor
  · intro empty key member
    rw [ExtTreeMap.mem_iff_isSome_getElem?, Option.isSome_iff_exists] at member
    obtain ⟨value, found⟩ := member
    have listed := ExtTreeMap.mem_toList_iff_getElem?_eq_some.mpr found
    simp [empty] at listed
  · intro absent
    apply List.eq_nil_iff_forall_not_mem.mpr
    rintro ⟨key, value⟩ listed
    have found := ExtTreeMap.mem_toList_iff_getElem?_eq_some.mp listed
    exact absent key (by rw [ExtTreeMap.mem_iff_isSome_getElem?, found]; rfl)

theorem firstKeyValue?_eq_some {map : ExtTreeMap Nat β} {key : Nat} {value : β}
    (first : firstKeyValue? map = some (key, value)) :
    map[key]? = some value ∧ ∀ other ∈ map, key ≤ other := by
  obtain ⟨tail, split⟩ := List.head?_eq_some_iff.mp first
  refine ⟨ExtTreeMap.mem_toList_iff_getElem?_eq_some.mp (by simp [split]), ?_⟩
  intro other member
  rw [ExtTreeMap.mem_iff_isSome_getElem?, Option.isSome_iff_exists] at member
  obtain ⟨found, member⟩ := member
  have listed := ExtTreeMap.mem_toList_iff_getElem?_eq_some.mpr member
  have ordered := ExtTreeMap.ordered_keys_toList (t := map)
  rw [split] at listed ordered
  rcases List.mem_cons.mp listed with same | later
  · exact (congrArg Prod.fst same).ge
  · exact (Nat.compare_eq_lt.mp ((List.pairwise_cons.mp ordered).1 _ later)).le

def entrySum (map : ExtTreeMap Nat Nat) : Nat := (map.toList.map Prod.snd).sum

theorem toList_nodup (map : ExtTreeMap Nat β) : map.toList.Nodup := by
  refine (ExtTreeMap.distinct_keys_toList (t := map)).imp ?_
  rintro left right distinct rfl
  exact distinct (by simp)

theorem toList_insert {map : ExtTreeMap Nat β} {key : Nat} (fresh : key ∉ map) (value : β) :
    (map.insert key value).toList.Perm ((key, value) :: map.toList) := by
  have absent : (key, value) ∉ map.toList := by
    intro listed
    have found := ExtTreeMap.mem_toList_iff_getElem?_eq_some.mp listed
    exact fresh (by rw [ExtTreeMap.mem_iff_isSome_getElem?, found]; rfl)
  rw [List.perm_ext_iff_of_nodup (toList_nodup _) (List.nodup_cons.mpr ⟨absent, toList_nodup _⟩)]
  rintro ⟨other, found⟩
  have missing : map[key]? = none := by
    rw [ExtTreeMap.mem_iff_isSome_getElem?] at fresh
    simpa using fresh
  rw [List.mem_cons, ExtTreeMap.mem_toList_iff_getElem?_eq_some,
    ExtTreeMap.mem_toList_iff_getElem?_eq_some]
  grind

theorem toList_erase {map : ExtTreeMap Nat β} {key : Nat} {value : β} (found : map[key]? = some value) :
    map.toList.Perm ((key, value) :: (map.erase key).toList) := by
  have restored : map = (map.erase key).insert key value := by
    apply ExtTreeMap.ext_getElem?
    intro other
    grind
  have split := toList_insert (show key ∉ map.erase key by simp) value
  rwa [← restored] at split

theorem entrySum_insert {map : ExtTreeMap Nat Nat} {key : Nat} (fresh : key ∉ map) (value : Nat) :
    entrySum (map.insert key value) = value + entrySum map := by
  simpa [entrySum] using ((toList_insert fresh value).map Prod.snd).sum_eq

theorem entrySum_erase {map : ExtTreeMap Nat Nat} {key value : Nat} (found : map[key]? = some value) :
    entrySum map = value + entrySum (map.erase key) := by
  simpa [entrySum] using ((toList_erase found).map Prod.snd).sum_eq

end Entries

section Index

variable {κ σ : Type} [Ord κ] [TransOrd κ]

/-- `index` holds exactly the keyed states of `records`, no key of which occurs twice. -/
def Indexes (index : ExtTreeMap κ σ) (records : List (κ × σ)) : Prop :=
  (records.map Prod.fst).Nodup ∧ ∀ key state, index[key]? = some state ↔ (key, state) ∈ records

theorem Indexes.empty : Indexes (∅ : ExtTreeMap κ σ) [] := by
  simp [Indexes]

theorem Indexes.mem_iff {index : ExtTreeMap κ σ} {records : List (κ × σ)} (holds : Indexes index records)
    (key : κ) : key ∈ index ↔ key ∈ records.map Prod.fst := by
  rw [ExtTreeMap.mem_iff_isSome_getElem?, Option.isSome_iff_exists]
  simp [holds.2]

theorem Indexes.perm {index : ExtTreeMap κ σ} {records reordered : List (κ × σ)}
    (holds : Indexes index records) (perm : records.Perm reordered) : Indexes index reordered :=
  ⟨(perm.map Prod.fst).nodup_iff.mp holds.1, fun key state => (holds.2 key state).trans perm.mem_iff⟩

variable [LawfulEqOrd κ]

theorem mem_insert_held {index : ExtTreeMap κ σ} {key : κ} (held : key ∈ index) (state : σ) (other : κ) :
    other ∈ index.insert key state ↔ other ∈ index := by
  rw [ExtTreeMap.mem_insert]
  constructor
  · rintro (same | member)
    · have equal : key = other := by simpa using same
      exact equal ▸ held
    · exact member
  · exact Or.inr

theorem Indexes.insert {index : ExtTreeMap κ σ} {records : List (κ × σ)} {key : κ}
    (holds : Indexes index records) (fresh : key ∉ index) (state : σ) :
    Indexes (index.insert key state) ((key, state) :: records) := by
  have absent : key ∉ records.map Prod.fst := fun member => fresh ((holds.mem_iff key).mpr member)
  refine ⟨List.nodup_cons.mpr ⟨absent, holds.1⟩, fun other found => ?_⟩
  rw [ExtTreeMap.getElem?_insert]
  by_cases same : key = other
  · subst other
    have missing : (key, found) ∉ records := fun member =>
      absent (List.mem_map.mpr ⟨(key, found), member, rfl⟩)
    simp [missing, eq_comm]
  · simp [same, Ne.symm same, holds.2]

theorem Indexes.erase {index : ExtTreeMap κ σ} {records : List (κ × σ)} {key : κ} {state : σ}
    (holds : Indexes index ((key, state) :: records)) : Indexes (index.erase key) records := by
  obtain ⟨absent, distinct⟩ := List.nodup_cons.mp holds.1
  refine ⟨distinct, fun other found => ?_⟩
  rw [ExtTreeMap.getElem?_erase]
  by_cases same : key = other
  · subst other
    have missing : (key, found) ∉ records := fun member =>
      absent (List.mem_map.mpr ⟨(key, found), member, rfl⟩)
    simp [missing]
  · simp [same, holds.2, Ne.symm same]

theorem Indexes.update {index : ExtTreeMap κ σ} {records : List (κ × σ)} {key : κ} {state : σ}
    (holds : Indexes index ((key, state) :: records)) (next : σ) :
    Indexes (index.insert key next) ((key, next) :: records) := by
  have erased := holds.erase.insert (show key ∉ index.erase key by simp) next
  have same : (index.erase key).insert key next = index.insert key next := by
    apply ExtTreeMap.ext_getElem?
    intro other
    grind
  rwa [same] at erased

def eraseKeys (index : ExtTreeMap κ σ) (keys : List κ) : ExtTreeMap κ σ :=
  keys.foldl (fun map key => map.erase key) index

def insertKeys (index : ExtTreeMap κ σ) (keys : List κ) (state : σ) : ExtTreeMap κ σ :=
  keys.foldl (fun map key => map.insert key state) index

theorem erase_absent {index : ExtTreeMap κ σ} {key : κ} (absent : key ∉ index) : index.erase key = index := by
  apply ExtTreeMap.ext_getElem?
  intro other
  rw [ExtTreeMap.getElem?_erase]
  split
  · rename_i same
    have equal : key = other := by simpa using same
    subst equal
    simpa using absent
  · rfl

theorem mem_eraseKeys {index : ExtTreeMap κ σ} {keys : List κ} {key : κ} :
    key ∈ eraseKeys index keys ↔ key ∉ keys ∧ key ∈ index := by
  induction keys generalizing index with
  | nil => simp [eraseKeys]
  | cons first rest ih =>
    have unfolded : eraseKeys index (first :: rest) = eraseKeys (index.erase first) rest := rfl
    rw [unfolded, ih, ExtTreeMap.mem_erase]
    simp only [Std.compare_eq_iff_eq, ne_eq, List.mem_cons, not_or]
    constructor
    · rintro ⟨absent, different, member⟩
      exact ⟨⟨fun same => different same.symm, absent⟩, member⟩
    · rintro ⟨⟨different, absent⟩, member⟩
      exact ⟨absent, fun same => different same.symm, member⟩

omit [LawfulEqOrd κ] in
theorem mem_insertKeys {index : ExtTreeMap κ σ} {keys : List κ} {key : κ} (state : σ) (member : key ∈ index) :
    key ∈ insertKeys index keys state := by
  induction keys generalizing index with
  | nil => exact member
  | cons first rest ih => exact ih (ExtTreeMap.mem_insert.mpr (.inr member))

theorem Indexes.eraseKeys {index : ExtTreeMap κ σ} {keys : List κ} {state : σ} {records : List (κ × σ)}
    (holds : Indexes index (keys.map (·, state) ++ records)) :
    Indexes (Foundation.eraseKeys index keys) records := by
  induction keys generalizing index with
  | nil => exact holds
  | cons key rest ih => exact ih holds.erase

theorem Indexes.insertKeys {index : ExtTreeMap κ σ} {keys : List κ} {state : σ}
    {records : List (κ × σ)} (holds : Indexes index (keys.map (·, state) ++ records)) (next : σ) :
    Indexes (Foundation.insertKeys index keys next) (keys.map (·, next) ++ records) := by
  induction keys generalizing index records with
  | nil => exact holds
  | cons key rest ih =>
    have updated := holds.update next
    have moved : ((key, next) :: (rest.map (·, state) ++ records)).Perm
        (rest.map (·, state) ++ (key, next) :: records) := List.perm_middle.symm
    exact (ih (updated.perm moved)).perm List.perm_middle

end Index

end OtelDatalake.Foundation
