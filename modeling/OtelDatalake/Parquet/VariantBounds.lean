import OtelDatalake.Parquet.VariantDictionary

open OtelDatalake.Foundation

namespace OtelDatalake.Parquet

/-- The panics of an index and of the bounds of a slice, and the abort of a reservation that the allocator refuses. -/
inductive BoundsPanic where
  | index (position length : Nat)
  | order (start stop : Nat)
  | range (stop length : Nat)
  | memory (bytes : Nat)
  deriving DecidableEq, Repr

def usizeBytes : Nat := 8

/-- A `String` is a pointer, a capacity and a length. -/
def stringBytes : Nat := 3 * usizeBytes

/-- `Vec::with_capacity`, where `serves` is what the allocator answers to a request of so many bytes. -/
def reserve (serves : Nat → Bool) (capacity width : Nat) : Except BoundsPanic Unit :=
  if serves (capacity * width) then .ok () else .error (.memory (capacity * width))

def indexed {α : Type} (values : List α) (position : Nat) : Except BoundsPanic α :=
  match values[position]? with
  | some value => .ok value
  | none => .error (.index position values.length)

def sliced (bytes : List UInt8) (start stop : Nat) : Except BoundsPanic (List UInt8) :=
  if stop < start then .error (.order start stop)
  else if bytes.length < stop then .error (.range stop bytes.length)
  else .ok (slice start (stop - start) bytes)

def readIntLe (bytes : List UInt8) (pos size : Nat) : Except BoundsPanic Nat :=
  (sliced bytes pos (pos + size)).map ofLe

def pushOffsets (metadata : List UInt8) (offsetSize : Nat) : (remaining pos : Nat) → (offsets : List Nat) →
    Except BoundsPanic (Option (List Nat × Nat))
  | 0, pos, offsets => .ok (some (offsets, pos))
  | remaining + 1, pos, offsets =>
    if metadata.length < pos + offsetSize then .ok none
    else
      match readIntLe metadata pos offsetSize with
      | .error panic => .error panic
      | .ok offset => pushOffsets metadata offsetSize remaining (pos + offsetSize) (offsets ++ [offset])

def takeKey (metadata : List UInt8) (pos : Nat) (offsets : List Nat) (i : Nat) (keys : List String) :
    Except BoundsPanic (Option (List String)) := do
  let start ← indexed offsets i
  let stop ← indexed offsets (i + 1)
  if metadata.length < pos + stop then return none
  let text ← sliced metadata (pos + start) (pos + stop)
  match String.fromUTF8? ⟨text.toArray⟩ with
  | some key => return some (keys ++ [key])
  | none => return some keys

def pushKeys (metadata : List UInt8) (pos : Nat) (offsets : List Nat) : (remaining i : Nat) → (keys : List String) →
    Except BoundsPanic (List String)
  | 0, _, keys => .ok keys
  | remaining + 1, i, keys =>
    match takeKey metadata pos offsets i keys with
    | .error panic => .error panic
    | .ok none => .ok []
    | .ok (some keys) => pushKeys metadata pos offsets remaining (i + 1) keys

/-- `parse_dictionary_keys` with every reservation that it makes and every index and slice that it takes. -/
def tryParseDictionaryKeys (serves : Nat → Bool) (metadata : List UInt8) : Except BoundsPanic (List String) := do
  if metadata.isEmpty then return []
  let header ← indexed metadata 0
  if header &&& 0x0F ≠ 1 then return []
  let offsetSize := ((header >>> 6) &&& 0x03).toNat + 1
  if metadata.length < 1 + offsetSize then return []
  let count ← readIntLe metadata 1 offsetSize
  if count = 0 then return []
  reserve serves (count + 1) usizeBytes
  match ← pushOffsets metadata offsetSize (count + 1) (1 + offsetSize) [] with
  | none => return []
  | some (offsets, pos) =>
    reserve serves count stringBytes
    pushKeys metadata pos offsets count 0 []

theorem indexed_ok {α : Type} {values : List α} {position : Nat} (within : position < values.length) :
    indexed values position = .ok values[position] := by
  rw [indexed, List.getElem?_eq_getElem within]

theorem readIntLe_ok {bytes : List UInt8} {pos size : Nat} (within : pos + size ≤ bytes.length) :
    readIntLe bytes pos size = .ok (ofLe (slice pos size bytes)) := by
  rw [readIntLe, sliced, if_neg (by omega), if_neg (by omega), Nat.add_sub_cancel_left]
  rfl

theorem pushOffsets_eq (metadata : List UInt8) (offsetSize remaining pos : Nat) (offsets : List Nat) :
    pushOffsets metadata offsetSize remaining pos offsets =
      .ok ((readOffsets metadata offsetSize remaining pos).map fun read => (offsets ++ read.1, read.2)) := by
  induction remaining generalizing pos offsets with
  | zero => simp [pushOffsets, readOffsets]
  | succ remaining ih =>
    rw [pushOffsets, readOffsets]
    by_cases short : metadata.length < pos + offsetSize
    · rw [if_pos short, if_pos short]
      rfl
    · rw [if_neg short, if_neg short, readIntLe_ok (Nat.not_lt.mp short)]
      simp only [ih, Option.map_map]
      congr 2
      funext read
      simp

theorem readOffsets_length {metadata : List UInt8} {offsetSize count pos : Nat} {read : List Nat × Nat}
    (found : readOffsets metadata offsetSize count pos = some read) : read.1.length = count := by
  induction count generalizing pos read with
  | zero =>
    cases found
    rfl
  | succ count ih =>
    rw [readOffsets] at found
    split at found
    · cases found
    · obtain ⟨others, rest, rfl⟩ := Option.map_eq_some_iff.mp found
      rw [List.length_cons, ih rest]

def Reaches (metadata : List UInt8) (pos : Nat) (offsets : List Nat) (first i : Nat) : Prop :=
  ∀ j, first ≤ j → j < i → pos + offsets.getD (j + 1) 0 ≤ metadata.length

section Keys

variable {metadata : List UInt8} {pos : Nat} {offsets : List Nat}

end Keys

theorem pushKeys_toOption (metadata : List UInt8) (pos : Nat) (offsets : List Nat) (remaining first : Nat)
    (enough : offsets.length = first + remaining + 1) (keys : List String) :
    (pushKeys metadata pos offsets remaining first keys).toOption =
      readKeys metadata pos ((offsets.drop first).zip (offsets.drop (first + 1))) keys := by
  induction remaining generalizing first keys with
  | zero =>
    have last : offsets.drop (first + 1) = [] := List.drop_eq_nil_of_le (by omega)
    rw [last, List.zip_nil_right]
    rfl
  | succ remaining ih =>
    have here : first < offsets.length := by omega
    have next : first + 1 < offsets.length := by omega
    rw [List.drop_eq_getElem_cons here, List.drop_eq_getElem_cons next, List.zip_cons_cons, pushKeys, readKeys, takeKey,
      indexed_ok here, indexed_ok next]
    simp only [bind, Except.bind, pure, Except.pure]
    by_cases beyond : metadata.length < pos + offsets[first + 1]
    · rw [if_pos beyond, if_pos beyond]
      rfl
    · rw [if_neg beyond, if_neg beyond, sliced]
      by_cases order : offsets[first + 1] < offsets[first]
      · rw [if_pos (by omega), if_pos order]
        rfl
      · rw [if_neg (by omega), if_neg order, if_neg beyond, Nat.add_sub_add_left]
        have later := fun more => ih (first + 1) (by omega) more
        rw [List.drop_eq_getElem_cons next] at later
        cases decoded : String.fromUTF8?
            ⟨(slice (pos + offsets[first]) (offsets[first + 1] - offsets[first]) metadata).toArray⟩ with
        | some key =>
          simp only [decoded]
          exact later (keys ++ [key])
        | none =>
          simp only [decoded]
          exact later keys

def announcedKeys (metadata : List UInt8) : Option (Nat × Nat) :=
  match metadata with
  | [] => none
  | header :: _ =>
    let offsetSize := ((header >>> 6) &&& 0x03).toNat + 1
    if header &&& 0x0F ≠ 1 ∨ metadata.length < 1 + offsetSize then none
    else
      let count := ofLe (slice 1 offsetSize metadata)
      if count = 0 then none else some (offsetSize, count)

theorem tryParseDictionaryKeys_eq (serves : Nat → Bool) (metadata : List UInt8) :
    tryParseDictionaryKeys serves metadata =
      match announcedKeys metadata with
      | none => .ok []
      | some (offsetSize, count) =>
        (reserve serves (count + 1) usizeBytes).bind fun _ =>
          match readOffsets metadata offsetSize (count + 1) (1 + offsetSize) with
          | none => .ok []
          | some (offsets, pos) =>
            (reserve serves count stringBytes).bind fun _ => pushKeys metadata pos offsets count 0 [] := by
  cases metadata with
  | nil => rfl
  | cons header rest =>
    rw [tryParseDictionaryKeys, announcedKeys, indexed_ok (Nat.zero_lt_succ _)]
    simp only [List.isEmpty_cons, Bool.false_eq_true, if_false, List.getElem_cons_zero, bind, Except.bind, pure,
      Except.pure]
    by_cases version : header &&& 0x0F ≠ 1
    · rw [if_pos version, if_pos (Or.inl version)]
    · rw [if_neg version]
      by_cases short : (header :: rest).length < 1 + (((header >>> 6) &&& 0x03).toNat + 1)
      · rw [if_pos short, if_pos (Or.inr short)]
      · rw [if_neg short, if_neg (not_or.mpr ⟨version, short⟩), readIntLe_ok (Nat.not_lt.mp short)]
        simp only []
        by_cases empty : ofLe (slice 1 (((header >>> 6) &&& 0x03).toNat + 1) (header :: rest)) = 0
        · rw [if_pos empty, if_pos empty]
        · rw [if_neg empty, if_neg empty, pushOffsets_eq]
          simp only []
          cases reserve serves (ofLe (slice 1 (((header >>> 6) &&& 0x03).toNat + 1) (header :: rest)) + 1)
            usizeBytes with
          | error refused => rfl
          | ok served =>
            cases readOffsets (header :: rest) (((header >>> 6) &&& 0x03).toNat + 1)
              (ofLe (slice 1 (((header >>> 6) &&& 0x03).toNat + 1) (header :: rest)) + 1)
              (1 + (((header >>> 6) &&& 0x03).toNat + 1)) <;> rfl

/-- Where the allocator serves every request, the two readings of the source agree: a panic is the value that is
missing. -/
theorem tryParseDictionaryKeys_toOption (metadata : List UInt8) :
    (tryParseDictionaryKeys (fun _ => true) metadata).toOption = parseDictionaryKeys metadata := by
  rw [tryParseDictionaryKeys_eq]
  cases metadata with
  | nil => rfl
  | cons header rest =>
    rw [announcedKeys, parseDictionaryKeys]
    by_cases version : header &&& 0x0F ≠ 1
    · rw [if_pos version, if_pos (Or.inl version)]
      rfl
    · by_cases short : (header :: rest).length < 1 + (((header >>> 6) &&& 0x03).toNat + 1)
      · rw [if_neg version, if_pos short, if_pos (Or.inr short)]
        rfl
      · rw [if_neg version, if_neg short, if_neg (not_or.mpr ⟨version, short⟩)]
        by_cases empty : ofLe (slice 1 (((header >>> 6) &&& 0x03).toNat + 1) (header :: rest)) = 0
        · rw [if_pos empty, if_pos empty]
          rfl
        · rw [if_neg empty, if_neg empty]
          simp only [reserve, if_true, Except.bind]
          cases found : readOffsets (header :: rest) (((header >>> 6) &&& 0x03).toNat + 1)
              (ofLe (slice 1 (((header >>> 6) &&& 0x03).toNat + 1) (header :: rest)) + 1)
              (1 + (((header >>> 6) &&& 0x03).toNat + 1)) with
          | none => rfl
          | some read =>
            have length := readOffsets_length found
            have keys := pushKeys_toOption (header :: rest) read.2 read.1
              (ofLe (slice 1 (((header >>> 6) &&& 0x03).toNat + 1) (header :: rest))) 0 (by omega) []
            rwa [List.drop_zero, List.drop_one] at keys

theorem reserve_cases (serves : Nat → Bool) (capacity width : Nat) :
    (serves (capacity * width) = true ∧ reserve serves capacity width = .ok ()) ∨
    (serves (capacity * width) = false ∧ reserve serves capacity width = .error (.memory (capacity * width))) := by
  rw [reserve]
  cases serves (capacity * width) with
  | true => exact Or.inl ⟨rfl, rfl⟩
  | false => exact Or.inr ⟨rfl, rfl⟩

end OtelDatalake.Parquet
