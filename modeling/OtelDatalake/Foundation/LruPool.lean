import Mathlib.Data.List.Perm.Basic
import Mathlib.Data.List.Nodup
import Mathlib.Algebra.BigOperators.Group.List.Basic
import Mathlib.Algebra.GroupWithZero.Nat

namespace OtelDatalake.Foundation

section Entries

variable {κ σ : Type} [DecidableEq κ]

def without (key : κ) (entries : List (κ × σ)) : List (κ × σ) := entries.filter fun entry => entry.1 ≠ key

def put (key : κ) (value : σ) (entries : List (κ × σ)) : List (κ × σ) := (key, value) :: without key entries

theorem without_keys (key : κ) (entries : List (κ × σ)) :
    (without key entries).map Prod.fst = (entries.map Prod.fst).filter (· ≠ key) := by
  rw [without, List.filter_map]
  rfl

theorem without_keys_nodup {entries : List (κ × σ)} (distinct : (entries.map Prod.fst).Nodup) (key : κ) :
    ((without key entries).map Prod.fst).Nodup := by
  rw [without_keys]
  exact distinct.filter _

theorem not_mem_without_keys (key : κ) (entries : List (κ × σ)) : key ∉ (without key entries).map Prod.fst := by
  rw [without_keys]
  simp

theorem lookup_eq_none {key : κ} {entries : List (κ × σ)} (missing : entries.lookup key = none) :
    key ∉ entries.map Prod.fst := by
  rw [List.lookup_eq_none_iff] at missing
  rw [List.mem_map]
  rintro ⟨entry, member, rfl⟩
  exact absurd (missing entry member) (by simp)

theorem without_of_not_mem {key : κ} {entries : List (κ × σ)} (missing : key ∉ entries.map Prod.fst) :
    without key entries = entries := by
  apply List.filter_eq_self.mpr
  intro entry member
  simp only [ne_eq, decide_eq_true_eq]
  rintro rfl
  exact missing (List.mem_map_of_mem member)

theorem lookup_eq_some {key : κ} {value : σ} {entries : List (κ × σ)} (distinct : (entries.map Prod.fst).Nodup)
    (found : entries.lookup key = some value) : entries.Perm ((key, value) :: without key entries) := by
  induction entries with
  | nil => cases found
  | cons entry rest ih =>
    rw [List.map_cons, List.nodup_cons] at distinct
    rw [List.lookup_cons] at found
    by_cases same : key = entry.1
    · rw [beq_iff_eq.mpr same] at found
      cases found
      have others : without key (entry :: rest) = rest := by
        rw [without, List.filter_cons_of_neg (by simp [same])]
        exact without_of_not_mem (same ▸ distinct.1)
      rw [others, same]
    · rw [beq_eq_false_iff_ne.mpr same] at found
      have kept : without key (entry :: rest) = entry :: without key rest := by
        rw [without, List.filter_cons_of_pos (by simpa using Ne.symm same)]
        rfl
      rw [kept]
      exact ((ih distinct.2 found).cons entry).trans (.swap _ _ _)

theorem lookup_without (key : κ) (entries : List (κ × σ)) : (without key entries).lookup key = none := by
  cases found : (without key entries).lookup key with
  | none => rfl
  | some value =>
    rw [List.lookup_eq_some_iff] at found
    obtain ⟨before, after, split, -⟩ := found
    exact absurd (by rw [split]; simp) (not_mem_without_keys key entries)

theorem without_length_lt {key : κ} {entries : List (κ × σ)} (held : key ∈ entries.map Prod.fst) :
    (without key entries).length < entries.length := by
  obtain ⟨entry, member, rfl⟩ := List.mem_map.mp held
  exact List.length_filter_lt_length_iff_exists.mpr ⟨entry, member, by simp⟩

theorem lookup_without_of_none {key other : κ} {entries : List (κ × σ)} (missing : entries.lookup key = none) :
    (without other entries).lookup key = none := by
  rw [List.lookup_eq_none_iff] at missing ⊢
  intro entry member
  exact missing entry (List.mem_of_mem_filter member)

end Entries

/-- Entries that are charged with what they cost, in the order of their last use. -/
structure LruPool (κ σ : Type) where
  entries : List (κ × σ)
  order : List κ
  total : Nat

namespace LruPool

variable {κ σ : Type} (cost : σ → Nat)

/-- The total is the sum of the costs, and the order holds each key once. -/
structure Valid (pool : LruPool κ σ) : Prop where
  distinct : (pool.entries.map Prod.fst).Nodup
  ordered : pool.order.Perm (pool.entries.map Prod.fst)
  charged : pool.total = (pool.entries.map fun entry => cost entry.2).sum

theorem Valid.empty : Valid cost (⟨[], [], 0⟩ : LruPool κ σ) := ⟨.nil, .nil, rfl⟩

variable [DecidableEq κ]

def close (pool : LruPool κ σ) (key : κ) : LruPool κ σ where
  entries := without key pool.entries
  order := pool.order.erase key
  total := pool.total - ((pool.entries.lookup key).map cost).getD 0

def use (pool : LruPool κ σ) (key : κ) (value : σ) (charge : Nat) : LruPool κ σ where
  entries := put key value pool.entries
  order := pool.order.erase key ++ [key]
  total := pool.total + charge

variable {cost} {pool : LruPool κ σ} {key : κ} {value : σ}

theorem Valid.total_split (valid : Valid cost pool) (found : pool.entries.lookup key = some value) :
    pool.total = cost value + ((without key pool.entries).map fun entry => cost entry.2).sum := by
  rw [valid.charged, ((lookup_eq_some valid.distinct found).map _).sum_eq, List.map_cons, List.sum_cons]

theorem Valid.erase_order (valid : Valid cost pool) (key : κ) :
    (pool.order.erase key).Perm ((without key pool.entries).map Prod.fst) := by
  have same : (fun other : κ => decide (other ≠ key)) = (· != key) := by
    funext other
    by_cases equal : other = key <;> simp [equal]
  rw [without_keys, same, ← valid.distinct.erase_eq_filter]
  exact valid.ordered.erase key

theorem Valid.close (valid : Valid cost pool) (key : κ) : Valid cost (pool.close cost key) := by
  refine ⟨without_keys_nodup valid.distinct key, valid.erase_order key, ?_⟩
  cases found : pool.entries.lookup key with
  | none =>
    have kept := without_of_not_mem (lookup_eq_none found)
    simp only [LruPool.close, found, kept]
    exact valid.charged
  | some value =>
    have split := valid.total_split found
    simp only [LruPool.close, found, Option.map_some, Option.getD_some]
    omega

theorem Valid.use {charge : Nat} (valid : Valid cost pool)
    (costs : cost value = ((pool.entries.lookup key).map cost).getD 0 + charge) :
    Valid cost (pool.use key value charge) := by
  refine ⟨?_, ?_, ?_⟩
  · rw [LruPool.use, put, List.map_cons, List.nodup_cons]
    exact ⟨not_mem_without_keys key _, without_keys_nodup valid.distinct key⟩
  · rw [LruPool.use, put, List.map_cons]
    exact (List.perm_append_singleton key _).trans ((valid.erase_order key).cons key)
  · simp only [LruPool.use, put, List.map_cons, List.sum_cons]
    cases found : pool.entries.lookup key with
    | none =>
      have kept := without_of_not_mem (lookup_eq_none found)
      simp only [found, Option.map_none, Option.getD_none] at costs
      rw [kept, valid.charged]
      omega
    | some held =>
      have split := valid.total_split found
      simp only [found, Option.map_some, Option.getD_some] at costs
      omega

theorem close_total_le : (pool.close cost key).total ≤ pool.total := Nat.sub_le _ _

theorem Valid.use_entries_length (valid : Valid cost pool) {charge : Nat} :
    (pool.use key value charge).entries.length =
      if (pool.entries.lookup key).isSome then pool.entries.length else pool.entries.length + 1 := by
  simp only [LruPool.use, put, List.length_cons]
  cases found : pool.entries.lookup key with
  | none =>
    rw [without_of_not_mem (lookup_eq_none found)]
    rfl
  | some held =>
    have split := (lookup_eq_some valid.distinct found).length_eq
    rw [List.length_cons] at split
    rw [split]
    rfl

end LruPool

end OtelDatalake.Foundation
