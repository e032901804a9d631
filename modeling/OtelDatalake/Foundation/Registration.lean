import OtelDatalake.Foundation.OrderedMap

open Std

namespace OtelDatalake.Foundation

/-- A map behind the lock that its registrations take. -/
structure LockedMap (κ V : Type) [Ord κ] where
  locked : Bool
  entries : ExtTreeMap κ V

/-- Where a call is in a double-checked registration: before its first lookup, before it takes the lock, in the
    locked part before it looks again, counts the entries, inserts its own or gives the lock back, and behind
    all of it. The result is the entry as the call left it, or none where the map had no room. -/
inductive Registering (V : Type) where
  | lookup
  | acquire
  | recheck
  | measure
  | insert
  | release (result : Option V)
  | done (result : Option V)
  deriving DecidableEq, Repr

variable {κ V : Type} [Ord κ]

namespace Registering

def applied : Registering V → Bool
  | .release result | .done result => result.isSome
  | .lookup | .acquire | .recheck | .measure | .insert => false

def dropped : Registering V → Bool
  | .release result | .done result => result.isNone
  | .lookup | .acquire | .recheck | .measure | .insert => false

def inside : Registering V → Bool
  | .recheck | .measure | .insert | .release _ => true
  | .lookup | .acquire | .done _ => false

section Act

variable [TransOrd κ] (capacity : Nat) (key : κ) (update : V → V) (create : V)

def act (map : LockedMap κ V) : Registering V → Option (LockedMap κ V × Registering V)
  | .lookup =>
    match map.entries[key]? with
    | some value => some ({ map with entries := map.entries.insert key (update value) }, .done (some (update value)))
    | none => some (map, .acquire)
  | .acquire => if map.locked then none else some ({ map with locked := true }, .recheck)
  | .recheck =>
    match map.entries[key]? with
    | some value => some ({ map with entries := map.entries.insert key (update value) }, .release (some (update value)))
    | none => some (map, .measure)
  | .measure => some (map, if capacity ≤ map.entries.size then .release none else .insert)
  | .insert => some ({ map with entries := map.entries.insert key create }, .release (some create))
  | .release result => some ({ map with locked := false }, .done result)
  | .done _ => none

/-- What the locked part of a call has found out, which only another locked part could change. -/
def Guarded (entries : ExtTreeMap κ V) : Registering V → Prop
  | .measure => key ∉ entries
  | .insert => key ∉ entries ∧ entries.size < capacity
  | .lookup | .acquire | .recheck | .release _ | .done _ => True

/-- What one operation does to the map and to what the call has achieved. -/
inductive Effect (before after : ExtTreeMap κ V) (phase next : Registering V) : Prop where
  | silent (same : after = before) (applied : next.applied = phase.applied) (dropped : next.dropped = phase.dropped)
  | drop (same : after = before) (absent : key ∉ before) (full : capacity ≤ before.size)
      (applied : next.applied = phase.applied) (dropped : phase.dropped = false)
  | update (value : V) (found : before[key]? = some value) (stored : after = before.insert key (update value))
      (fresh : phase.applied = false) (applied : next.applied = true) (kept : next.dropped = false)
  | create (absent : key ∉ before) (room : before.size < capacity) (stored : after = before.insert key create)
      (inside : phase.inside = true) (fresh : phase.applied = false) (applied : next.applied = true)
      (kept : next.dropped = false)

variable {capacity key update create}

theorem act_effect {map after : LockedMap κ V} {phase next : Registering V}
    (guarded : phase.Guarded capacity key map.entries)
    (acted : phase.act capacity key update create map = some (after, next)) :
    Effect capacity key update create map.entries after.entries phase next := by
  cases phase with
  | lookup | recheck =>
    rw [act] at acted
    split at acted
    · rename_i value found
      cases acted
      exact .update value found rfl rfl rfl rfl
    · cases acted
      exact .silent rfl rfl rfl
  | acquire =>
    simp only [act, Option.ite_none_left_eq_some] at acted
    cases acted.2
    exact .silent rfl rfl rfl
  | measure =>
    cases acted
    by_cases full : capacity ≤ map.entries.size
    · rw [if_pos full]
      exact .drop rfl guarded full rfl rfl
    · rw [if_neg full]
      exact .silent rfl rfl rfl
  | insert =>
    cases acted
    exact .create guarded.1 guarded.2 rfl rfl rfl rfl rfl
  | release result =>
    cases acted
    exact .silent rfl rfl rfl
  | done result => cases acted

theorem act_guarded {map after : LockedMap κ V} {phase next : Registering V}
    (guarded : phase.Guarded capacity key map.entries)
    (acted : phase.act capacity key update create map = some (after, next)) :
    next.Guarded capacity key after.entries := by
  cases phase with
  | lookup =>
    rw [act] at acted
    split at acted <;> cases acted <;> exact trivial
  | recheck =>
    rw [act] at acted
    split at acted
    · cases acted
      exact trivial
    · rename_i missing
      cases acted
      rw [Guarded, ExtTreeMap.mem_iff_isSome_getElem?, missing]
      exact Bool.false_ne_true
  | acquire =>
    simp only [act, Option.ite_none_left_eq_some] at acted
    cases acted.2
    exact trivial
  | measure =>
    cases acted
    by_cases full : capacity ≤ map.entries.size
    · rw [if_pos full]
      exact trivial
    · rw [if_neg full]
      exact ⟨guarded, Nat.lt_of_not_le full⟩
  | insert | release => cases acted; exact trivial
  | done result => cases acted

theorem act_lock {map after : LockedMap κ V} {phase next : Registering V}
    (held : phase.inside = true → map.locked = true)
    (acted : phase.act capacity key update create map = some (after, next)) :
    map.locked.toNat + next.inside.toNat = after.locked.toNat + phase.inside.toNat := by
  cases phase with
  | lookup | recheck =>
    rw [act] at acted
    split at acted <;> cases acted <;> rfl
  | acquire =>
    simp only [act, Option.ite_none_left_eq_some] at acted
    obtain ⟨free, moved⟩ := acted
    cases moved
    rw [Bool.not_eq_true] at free
    rw [free]
    rfl
  | measure =>
    cases acted
    split <;> rfl
  | insert => cases acted; rfl
  | release result =>
    cases acted
    rw [held rfl]
    rfl
  | done result => cases acted

variable {before after : ExtTreeMap κ V} {phase next : Registering V}

theorem Effect.size_le (effect : Effect capacity key update create before after phase next) :
    before.size ≤ after.size := by
  cases effect with
  | silent same | drop same => rw [same]
  | update value found stored | create absent room stored =>
    rw [stored, ExtTreeMap.size_insert]
    split <;> omega

theorem Effect.size_le_capacity (effect : Effect capacity key update create before after phase next)
    (bounded : before.size ≤ capacity) : after.size ≤ capacity := by
  cases effect with
  | silent same | drop same => rwa [same]
  | update value found stored =>
    have held : before.contains key = true :=
      ExtTreeMap.contains_iff_mem.mpr (ExtTreeMap.mem_iff_isSome_getElem?.mpr (by rw [found]; rfl))
    rwa [stored, ExtTreeMap.size_insert, if_pos held]
  | create absent room stored =>
    rw [stored, ExtTreeMap.size_insert]
    split <;> omega

theorem Effect.applied_eq (effect : Effect capacity key update create before after phase next)
    (silent : ¬(!phase.applied && next.applied) = true) : next.applied = phase.applied := by
  cases effect with
  | silent same applied | drop same absent full applied => exact applied
  | update value found stored fresh applied | create absent room stored inside fresh applied =>
    rw [fresh, applied] at silent
    exact absurd rfl silent

variable [LawfulEqOrd κ]

theorem Effect.mem_cases (effect : Effect capacity key update create before after phase next) {other : κ}
    (member : other ∈ after) : other ∈ before ∨ other = key := by
  cases effect with
  | silent same | drop same => exact .inl (same ▸ member)
  | update value found stored | create absent room stored =>
    rw [stored, ExtTreeMap.mem_insert, LawfulEqOrd.compare_eq_iff_eq] at member
    exact member.symm.imp_right Eq.symm

/-- Entries are never removed, and a map with room for no more keeps exactly the keys it has. -/
theorem Effect.mem_iff (effect : Effect capacity key update create before after phase next)
    (full : capacity ≤ before.size) (other : κ) : other ∈ after ↔ other ∈ before := by
  cases effect with
  | silent same | drop same => rw [same]
  | update value found stored =>
    rw [stored, mem_insert_held (ExtTreeMap.mem_iff_isSome_getElem?.mpr (by rw [found]; rfl))]
  | create absent room => omega

/-- What another call has found out stays true, as only a call in its locked part adds a key. -/
theorem Guarded.kept {other : Registering V} {otherKey : κ} (guarded : other.Guarded capacity otherKey before)
    (effect : Effect capacity key update create before after phase next)
    (alone : phase.inside = true → other.inside = false) : other.Guarded capacity otherKey after := by
  cases effect with
  | silent same | drop same => rwa [same]
  | update value found stored =>
    have held : key ∈ before := ExtTreeMap.mem_iff_isSome_getElem?.mpr (by rw [found]; rfl)
    have size : after.size = before.size := by
      rw [stored, ExtTreeMap.size_insert, if_pos (ExtTreeMap.contains_iff_mem.mpr held)]
    have keys : otherKey ∈ after ↔ otherKey ∈ before := by rw [stored, mem_insert_held held]
    cases other with
    | measure => exact fun member => guarded (keys.mp member)
    | insert => exact ⟨fun member => guarded.1 (keys.mp member), size ▸ guarded.2⟩
    | lookup | acquire | recheck | release | done => exact trivial
  | create absent room stored inside =>
    have outside := alone inside
    cases other with
    | measure | insert => cases outside
    | lookup | acquire | recheck | release | done => exact trivial

end Act

end Registering

end OtelDatalake.Foundation
