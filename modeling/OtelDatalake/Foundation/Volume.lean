import Mathlib.Logic.Function.Basic

namespace OtelDatalake.Foundation

/-- A volume whose files are found by their paths. An entry lists what a crash may leave of it: what it is now, and
    before that what it has been since its directory was last synced. Of a path that is not `lasting` a crash may lose
    the directory itself. -/
structure Volume (Path : Type) where
  entries : Path → List (Option Nat) := fun _ => [none]
  content : Nat → List UInt8 := fun _ => []
  synced : Nat → Bool := fun _ => false
  nextInode : Nat := 0
  lasting : Path → Bool := fun _ => true

namespace Volume

variable {Path : Type}

def inode (volume : Volume Path) (path : Path) : Option Nat := (volume.entries path).headD none

def read (volume : Volume Path) (path : Path) : Option (List UInt8) := (volume.inode path).map volume.content

def Sealed (volume : Volume Path) (inode : Nat) (bytes : List UInt8) : Prop :=
  volume.synced inode = true ∧ volume.content inode = bytes

/-- What is left of a volume when its machine crashes: each entry is one of those it may be or has gone with its
    directory, and what was synced is as it was; the rest may be anything. -/
structure Crashed (before after : Volume Path) : Prop where
  entries : ∀ path, (∃ entry ∈ before.entries path, after.entries path = [entry]) ∨
    before.lasting path = false ∧ after.entries path = [none]
  kept : ∀ inode bytes, before.Sealed inode bytes → after.Sealed inode bytes
  nextInode : after.nextInode = before.nextInode
  lasting : after.lasting = before.lasting

def lost (volume : Volume Path) : Volume Path :=
  { volume with
    entries := fun path => if volume.lasting path then [(volume.entries path).getLastD none] else [none]
    content := fun inode => if volume.synced inode then volume.content inode else [] }

section Operations

variable [DecidableEq Path] (volume : Volume Path)

def setEntry (path : Path) (entry : Option Nat) : Volume Path :=
  { volume with entries := Function.update volume.entries path (entry :: volume.entries path) }

/-- `create_new` -/
def createNew (path : Path) : Option (Volume Path × Nat) :=
  match volume.inode path with
  | some _ => none
  | none =>
    some ({ volume.setEntry path (some volume.nextInode) with
      content := Function.update volume.content volume.nextInode []
      synced := Function.update volume.synced volume.nextInode false
      nextInode := volume.nextInode + 1 }, volume.nextInode)

omit [DecidableEq Path] in
def append (inode : Nat) (bytes : List UInt8) : Volume Path :=
  { volume with
    content := Function.update volume.content inode (volume.content inode ++ bytes)
    synced := Function.update volume.synced inode false }

omit [DecidableEq Path] in
def syncFile (inode : Nat) : Volume Path := { volume with synced := Function.update volume.synced inode true }

def rename (source target : Path) : Option (Volume Path) :=
  (volume.inode source).map fun inode => (volume.setEntry target (some inode)).setEntry source none

def remove (path : Path) : Option (Volume Path) :=
  match volume.inode path with
  | some _ => some (volume.setEntry path none)
  | none => none

omit [DecidableEq Path] in
def syncDir (within : Path → Bool) : Volume Path :=
  { volume with entries := fun path => if within path then [volume.inode path] else volume.entries path }

end Operations

/-- What an operation leaves alone: of the paths it may at most forget what they have been, of the inodes nothing. -/
structure Frame (before after : Volume Path) (paths : Path → Prop) (inodes : Nat → Prop) : Prop where
  entries : ∀ path, paths path →
    after.entries path = before.entries path ∨ after.entries path = [before.inode path]
  content : ∀ inode, inodes inode → after.content inode = before.content inode
  synced : ∀ inode, inodes inode → after.synced inode = before.synced inode
  lasting : after.lasting = before.lasting

variable {before after volume : Volume Path} {paths : Path → Prop} {inodes : Nat → Prop} {path : Path}

theorem Frame.inode (frame : Frame before after paths inodes) (apart : paths path) :
    after.inode path = before.inode path := by
  rcases frame.entries path apart with same | synced
  · rw [Volume.inode, same]
    rfl
  · rw [Volume.inode, synced]
    rfl

theorem Frame.settled {entry : Option Nat} (frame : Frame before after paths inodes) (apart : paths path)
    (settled : before.entries path = [entry]) : after.entries path = [entry] := by
  rcases frame.entries path apart with same | synced
  · rw [same, settled]
  · rw [synced, Volume.inode, settled]
    rfl

theorem Frame.sealed {inode : Nat} {bytes : List UInt8} (frame : Frame before after paths inodes) (apart : inodes inode)
    (before : before.Sealed inode bytes) : after.Sealed inode bytes :=
  ⟨(frame.synced inode apart).trans before.1, (frame.content inode apart).trans before.2⟩

theorem Frame.mono {fewer : Path → Prop} {less : Nat → Prop} (frame : Frame before after paths inodes)
    (path : ∀ path, fewer path → paths path) (inode : ∀ inode, less inode → inodes inode) :
    Frame before after fewer less :=
  ⟨fun other apart => frame.entries other (path other apart),
    fun other apart => frame.content other (inode other apart),
    fun other apart => frame.synced other (inode other apart), frame.lasting⟩

theorem Frame.refl (volume : Volume Path) : Frame volume volume paths inodes :=
  ⟨fun _ _ => .inl rfl, fun _ _ => rfl, fun _ _ => rfl, rfl⟩

theorem mem_of_inode {inode : Nat} (found : volume.inode path = some inode) : some inode ∈ volume.entries path := by
  rw [Volume.inode] at found
  cases listed : volume.entries path with
  | nil =>
    rw [listed] at found
    cases found
  | cons entry rest =>
    rw [listed] at found
    exact List.mem_cons.mpr (.inl found.symm)

section Operations

variable [DecidableEq Path]

theorem setEntry_entries_ne {entry : Option Nat} {other : Path} (apart : other ≠ path) :
    (volume.setEntry path entry).entries other = volume.entries other :=
  Function.update_of_ne apart ..

@[simp] theorem setEntry_entries {entry : Option Nat} :
    (volume.setEntry path entry).entries path = entry :: volume.entries path :=
  Function.update_self ..

theorem createNew_eq_some {inode : Nat} (created : volume.createNew path = some (after, inode)) :
    inode = volume.nextInode ∧ after.entries path = some inode :: volume.entries path ∧ after.content inode = [] ∧
    after.nextInode = volume.nextInode + 1 ∧
    Frame volume after (fun other => other ≠ path) (fun other => other < volume.nextInode) := by
  unfold createNew at created
  split at created
  · cases created
  · cases created
    refine ⟨rfl, setEntry_entries, Function.update_self .., rfl, fun other apart => ?_, fun other below => ?_,
      fun other below => ?_, rfl⟩
    · exact .inl (setEntry_entries_ne apart)
    · exact Function.update_of_ne (Nat.ne_of_lt below) ..
    · exact Function.update_of_ne (Nat.ne_of_lt below) ..

theorem createNew_entries {inode : Nat} {other : Path} (created : volume.createNew path = some (after, inode))
    (apart : other ≠ path) : after.entries other = volume.entries other := by
  unfold createNew at created
  split at created
  · cases created
  · cases created
    exact setEntry_entries_ne apart

omit [DecidableEq Path] in
theorem append_content (inode : Nat) (bytes : List UInt8) :
    (volume.append inode bytes).content inode = volume.content inode ++ bytes :=
  Function.update_self ..

omit [DecidableEq Path] in
theorem append_frame (inode : Nat) (bytes : List UInt8) :
    Frame volume (volume.append inode bytes) paths (fun other => other ≠ inode) where
  entries _ _ := .inl rfl
  content _ apart := Function.update_of_ne apart ..
  synced _ apart := Function.update_of_ne apart ..
  lasting := rfl

omit [DecidableEq Path] in
theorem syncFile_frame (inode : Nat) : Frame volume (volume.syncFile inode) paths (fun other => other ≠ inode) where
  entries _ _ := .inl rfl
  content _ _ := rfl
  synced _ apart := Function.update_of_ne apart ..
  lasting := rfl

theorem rename_eq_some {source target : Path} (renamed : volume.rename source target = some after)
    (apart : target ≠ source) :
    ∃ inode, volume.inode source = some inode ∧ after.entries target = some inode :: volume.entries target ∧
      after.entries source = none :: volume.entries source ∧
      (∀ path, path ≠ source → path ≠ target → after.entries path = volume.entries path) ∧
      after.content = volume.content ∧ after.synced = volume.synced ∧ after.nextInode = volume.nextInode ∧
      after.lasting = volume.lasting := by
  obtain ⟨inode, found, rfl⟩ := Option.map_eq_some_iff.mp renamed
  refine ⟨inode, found, ?_, ?_, fun path first second => ?_, rfl, rfl, rfl, rfl⟩
  · rw [setEntry_entries_ne apart, setEntry_entries]
  · rw [setEntry_entries, setEntry_entries_ne apart.symm]
  · rw [setEntry_entries_ne first, setEntry_entries_ne second]

theorem remove_frame : Frame volume ((volume.remove path).getD volume) (fun other => other ≠ path) inodes := by
  unfold remove
  split
  · exact ⟨fun other apart => .inl (setEntry_entries_ne apart), fun _ _ => rfl, fun _ _ => rfl, rfl⟩
  · exact .refl volume

omit [DecidableEq Path] in
theorem syncDir_frame (within : Path → Bool) : Frame volume (volume.syncDir within) paths inodes := by
  refine ⟨fun path _ => ?_, fun _ _ => rfl, fun _ _ => rfl, rfl⟩
  cases inside : within path with
  | true => exact .inr (if_pos inside)
  | false => exact .inl (if_neg (by simp [inside]))

omit [DecidableEq Path] in
theorem syncDir_entries (within : Path → Bool) (inside : within path = true) :
    (volume.syncDir within).entries path = [volume.inode path] :=
  if_pos inside

omit [DecidableEq Path] in
theorem syncDir_mem {within : Path → Bool} {entry : Option Nat} (listed : volume.entries path ≠ [])
    (member : entry ∈ (volume.syncDir within).entries path) : entry ∈ volume.entries path := by
  simp only [syncDir] at member
  split at member
  · rw [List.mem_singleton] at member
    obtain ⟨first, rest, whole⟩ := List.exists_cons_of_ne_nil listed
    rw [member, inode, whole]
    exact List.mem_cons_self
  · exact member

omit [DecidableEq Path] in
theorem syncDir_listed {within : Path → Bool} (listed : volume.entries path ≠ []) :
    (volume.syncDir within).entries path ≠ [] := by
  simp only [syncDir]
  split
  · exact List.cons_ne_nil _ _
  · exact listed

theorem remove_nextInode : ((volume.remove path).getD volume).nextInode = volume.nextInode := by
  unfold remove
  split <;> rfl

theorem remove_lasting : ((volume.remove path).getD volume).lasting = volume.lasting := by
  unfold remove
  split <;> rfl

theorem remove_mem {other : Path} {inode : Nat}
    (member : some inode ∈ ((volume.remove path).getD volume).entries other) :
    some inode ∈ volume.entries other := by
  unfold remove at member
  split at member
  · by_cases same : other = path
    · subst same
      rw [Option.getD_some, setEntry_entries, List.mem_cons] at member
      exact member.resolve_left (by simp)
    · rw [Option.getD_some, setEntry_entries_ne same] at member
      exact member
  · exact member

theorem remove_listed (other : Path) (listed : volume.entries other ≠ []) :
    ((volume.remove path).getD volume).entries other ≠ [] := by
  unfold remove
  split
  · by_cases same : other = path
    · subst same
      rw [Option.getD_some, setEntry_entries]
      exact List.cons_ne_nil _ _
    · rw [Option.getD_some, setEntry_entries_ne same]
      exact listed
  · exact listed

end Operations

/-- What has settled in a lasting directory stays there. -/
theorem Crashed.settled {entry : Option Nat} (crashed : Crashed before after) (lasting : before.lasting path = true)
    (settled : before.entries path = [entry]) : after.entries path = [entry] := by
  rcases crashed.entries path with ⟨found, listed, survives⟩ | ⟨gone, _⟩
  · rw [settled, List.mem_singleton] at listed
    rw [survives, listed]
  · rw [lasting] at gone
    cases gone

theorem Crashed.mem {inode : Nat} (crashed : Crashed before after) (member : some inode ∈ after.entries path) :
    some inode ∈ before.entries path := by
  rcases crashed.entries path with ⟨entry, listed, survives⟩ | ⟨_, none⟩
  · rw [survives, List.mem_singleton] at member
    exact member ▸ listed
  · rw [none, List.mem_singleton] at member
    cases member

theorem Crashed.listed (crashed : Crashed before after) (path : Path) : after.entries path ≠ [] := by
  rcases crashed.entries path with ⟨entry, _, survives⟩ | ⟨_, none⟩
  · rw [survives]
    exact List.cons_ne_nil _ _
  · rw [none]
    exact List.cons_ne_nil _ _

/-- What has settled on a sealed inode in a lasting directory is read after any crash. -/
theorem Crashed.read {inode : Nat} {bytes : List UInt8} (crashed : Crashed before after)
    (lasting : before.lasting path = true) (settled : before.entries path = [some inode])
    (whole : before.Sealed inode bytes) : after.read path = some bytes := by
  have survives := crashed.settled lasting settled
  rw [Volume.read, Volume.inode, survives]
  exact congrArg some (crashed.kept inode bytes whole).2

theorem crashed_lost (listed : ∀ path, volume.entries path ≠ []) : volume.Crashed volume.lost where
  entries path := by
    cases lasting : volume.lasting path with
    | false => exact .inr ⟨rfl, if_neg (by simp [lasting])⟩
    | true =>
      refine .inl ⟨(volume.entries path).getLastD none, ?_, if_pos lasting⟩
      rw [List.getLastD_eq_getLast?, List.getLast?_eq_some_getLast (listed path)]
      exact List.getLast_mem (listed path)
  kept inode bytes whole := ⟨whole.1, (if_pos whole.1).trans whole.2⟩
  nextInode := rfl
  lasting := rfl

end Volume

end OtelDatalake.Foundation
