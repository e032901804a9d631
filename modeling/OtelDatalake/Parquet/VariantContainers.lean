import OtelDatalake.Parquet.VariantScalars

open OtelDatalake.Foundation OtelDatalake.Buffer

namespace OtelDatalake.Parquet

theorem runningOffsets_length (start : Nat) (parts : List (List UInt8)) :
    (runningOffsets start parts).length = parts.length + 1 := by
  induction parts generalizing start with
  | nil => rfl
  | cons part rest ih => simp [runningOffsets, ih]

theorem runningOffsets_mapM {α β : Type} {f : List UInt8 → Option β} {g : α → Option β} {parts : List (List UInt8)}
    {items : List α} (each : List.Forall₂ (fun part item => ∀ suffix, f (part ++ suffix) = g item) parts items)
    (front rest : List UInt8) :
    ((runningOffsets front.length parts).take parts.length).mapM
        (fun offset => f ((front ++ (parts.flatten ++ rest)).drop offset)) = items.mapM g := by
  induction each generalizing front with
  | nil => rfl
  | @cons part item parts items first _ ih =>
    have following := ih (front ++ part)
    have lengths : (front ++ part).length = front.length + part.length := List.length_append
    have bytes : front ++ part ++ (parts.flatten ++ rest) = front ++ ((part :: parts).flatten ++ rest) := by
      simp only [List.flatten_cons, List.append_assoc]
    rw [lengths, bytes] at following
    have here : (front ++ ((part :: parts).flatten ++ rest)).drop front.length = part ++ (parts.flatten ++ rest) := by
      rw [List.drop_left, List.flatten_cons, List.append_assoc]
    rw [runningOffsets, List.length_cons, List.take_succ_cons, List.mapM_cons, List.mapM_cons, here, first, following]

theorem writeCount_ok {noun : String} {count : Nat} {bytes : List UInt8} (written : writeCount noun count = .ok bytes)
    (rest : List UInt8) : readLe (if 255 < count then 4 else 1) (bytes ++ rest) = some (count, rest) := by
  unfold writeCount at written
  by_cases large : 255 < count
  · rw [if_pos large] at written ⊢
    by_cases fits : count ≤ u32Max
    · rw [if_pos fits] at written
      cases written
      have limit : u32Max < 256 ^ 4 := by decide
      exact readLe_toLe (by omega) rest
    · rw [if_neg fits] at written
      cases written
  · rw [if_neg large] at written ⊢
    cases written
    have one : [UInt8.ofNat count] = toLe 1 count := rfl
    rw [one]
    exact readLe_toLe (by omega) rest

theorem arrayHeader_fields (isLarge : Bool) {size : Nat} (valid : IsSize size) :
    (arrayHeader isLarge size &&& 3).toNat = 3 ∧
      ((arrayHeader isLarge size >>> (2 : UInt8)).toNat / 4 % 2 = 1 ↔ isLarge = true) ∧
      (arrayHeader isLarge size >>> (2 : UInt8)).toNat % 4 + 1 = size := by
  rcases valid with rfl | rfl | rfl <;> cases isLarge <;> decide

theorem objectHeader_fields (isLarge : Bool) {idSize size : Nat} (validId : IsSize idSize) (valid : IsSize size) :
    (objectHeader isLarge idSize size &&& 3).toNat = 2 ∧
      ((objectHeader isLarge idSize size >>> (2 : UInt8)).toNat / 16 % 2 = 1 ↔ isLarge = true) ∧
      (objectHeader isLarge idSize size >>> (2 : UInt8)).toNat / 4 % 4 + 1 = idSize ∧
      (objectHeader isLarge idSize size >>> (2 : UInt8)).toNat % 4 + 1 = size := by
  rcases validId with rfl | rfl | rfl <;> rcases valid with rfl | rfl | rfl <;> cases isLarge <;> decide

theorem encodeArrayValue_ok {elements : List (Except String (List UInt8))} {bytes : List UInt8}
    (written : encodeArrayValue elements = .ok bytes) :
    ∃ staged count offsetBytes, elements.mapM id = .ok staged ∧ writeCount "array element" elements.length = .ok count ∧
      writeAll (writeInt "offset" · (fieldOffsetSize staged.flatten.length)) (runningOffsets 0 staged) = .ok offsetBytes ∧
      bytes = arrayHeader (255 < elements.length) (fieldOffsetSize staged.flatten.length) ::
        count ++ offsetBytes ++ staged.flatten := by
  unfold encodeArrayValue at written
  obtain ⟨staged, parts, written⟩ := bind_ok.mp written
  obtain ⟨count, counted, written⟩ := bind_ok.mp written
  obtain ⟨offsetBytes, offsets, written⟩ := bind_ok.mp written
  exact ⟨staged, count, offsetBytes, parts, counted, offsets, (Except.ok.inj written).symm⟩

theorem encodeObjectToBuf_ok {dictionary : List String} {map : List (String × Except String (List UInt8))}
    {bytes : List UInt8} (written : encodeObjectToBuf dictionary map = .ok bytes) :
    ∃ staged count idBytes offsetBytes, (sortEntries map).mapM Prod.snd = .ok staged ∧
      writeCount "element" (sortEntries map).length = .ok count ∧
      writeAll (fun entry => (binarySearch dictionary entry.1).bind (writeIntToBuf · (fieldIdSize dictionary.length)))
        (sortEntries map) = .ok idBytes ∧
      writeAll (writeIntToBuf · (fieldOffsetSize staged.flatten.length)) (runningOffsets 0 staged) = .ok offsetBytes ∧
      bytes = objectHeader (255 < (sortEntries map).length) (fieldIdSize dictionary.length)
        (fieldOffsetSize staged.flatten.length) :: count ++ idBytes ++ offsetBytes ++ staged.flatten := by
  unfold encodeObjectToBuf at written
  obtain ⟨staged, parts, written⟩ := bind_ok.mp written
  obtain ⟨count, counted, written⟩ := bind_ok.mp written
  obtain ⟨idBytes, searched, written⟩ := bind_ok.mp written
  obtain ⟨offsetBytes, offsets, written⟩ := bind_ok.mp written
  exact ⟨staged, count, idBytes, offsetBytes, parts, counted, searched, offsets, (Except.ok.inj written).symm⟩

theorem sortEntries_ordered {α : Type} {entries : List (String × α)}
    (ordered : entries.Pairwise fun first second => textKey first.1 < textKey second.1) :
    sortEntries entries = entries := by
  have sorted : entries.mergeSort (fun first second => decide (textKey first.1 ≤ textKey second.1)) = entries := by
    apply List.mergeSort_of_pairwise
    apply ordered.imp
    intro first second before
    exact decide_eq_true (le_of_lt before)
  unfold sortEntries
  rw [sorted]
  apply List.destutter_of_isChain
  apply List.Pairwise.isChain
  apply ordered.imp
  intro first second before same
  exact absurd (same ▸ before) (lt_irrefl _)

theorem writeAll_binarySearch {α : Type} {dictionary : List String} {entries : List (String × α)} {bytes : List UInt8}
    {size : Nat} (valid : IsSize size)
    (written : writeAll (fun entry => (binarySearch dictionary entry.1).bind (writeIntToBuf · size)) entries = .ok bytes) :
    ∃ ids, List.Forall₂ (fun (entry : String × α) id => dictionary.idxOf? entry.1 = some id) entries ids ∧
      bytes = ids.flatMap (toLe size) ∧ ∀ id ∈ ids, id < 256 ^ size := by
  obtain ⟨parts, each, rfl⟩ := writeAll_ok written
  clear written
  induction each with
  | nil => exact ⟨[], .nil, rfl, by simp⟩
  | @cons entry part entries parts first _ ih =>
    obtain ⟨ids, found, rest, fits⟩ := ih
    cases index : dictionary.idxOf? entry.1 with
    | none => simp [binarySearch, index, Except.bind] at first
    | some id =>
      simp only [binarySearch, index, Except.bind] at first
      obtain ⟨part_eq, fit⟩ := writeInt_ok valid first
      refine ⟨id :: ids, .cons index found, ?_, ?_⟩
      · rw [List.flatten_cons, List.flatMap_cons, part_eq, rest]
      · intro other member
        rcases List.mem_cons.mp member with head | tail
        · exact head ▸ fit
        · exact fits other tail

section Decode

variable {castF64 : UInt64 → UInt64} {dictionary decoded : List String} {fuel : Nat}

theorem staged_readBack {α β : Type} {items : List α} {staged : List (List UInt8)}
    {encode : α → Except String (List UInt8)} {decode : List UInt8 → Option β} {expected : α → Option β} {limit : Nat}
    (pairs : List.Forall₂ (fun item part => encode item = .ok part) items staged)
    (each : ∀ item ∈ items, ∀ part, encode item = .ok part → part.length ≤ limit →
      ∀ suffix, decode (part ++ suffix) = expected item) (small : staged.flatten.length ≤ limit) :
    List.Forall₂ (fun part item => ∀ suffix, decode (part ++ suffix) = expected item) staged items := by
  induction pairs with
  | nil => exact .nil
  | @cons item part items staged first _ ih =>
    rw [List.flatten_cons, List.length_append] at small
    have here := each item List.mem_cons_self part first (by omega)
    exact .cons here (ih (fun other member => each other (List.mem_cons_of_mem _ member)) (by omega))

theorem decodeValue_encodeArrayValue {α : Type} {items : List α} {encode : α → Except String (List UInt8)}
    {expected : α → Option Value} {bytes : List UInt8} (written : encodeArrayValue (items.map encode) = .ok bytes)
    (each : ∀ item ∈ items, ∀ part, encode item = .ok part → part.length ≤ fuel →
      ∀ suffix, decodeValue fuel decoded (part ++ suffix) = expected item)
    (enough : bytes.length ≤ fuel + 1) (rest : List UInt8) :
    decodeValue (fuel + 1) decoded (bytes ++ rest) = (items.mapM expected).map .array := by
  obtain ⟨staged, count, offsetBytes, parts, counted, offsets, rfl⟩ := encodeArrayValue_ok written
  have size := fieldOffsetSize_isSize staged.flatten.length
  obtain ⟨offsets_eq, fits⟩ := writeAll_writeInt size offsets
  have pairs := List.forall₂_map_left_iff.mp (mapM_ok parts)
  have small : staged.flatten.length ≤ fuel := by
    simp only [List.length_append, List.length_cons] at enough
    omega
  have values := runningOffsets_mapM (staged_readBack pairs each small) [] rest
  obtain ⟨basic, large, width⟩ := arrayHeader_fields (decide (255 < (items.map encode).length)) size
  have countRead := writeCount_ok counted (offsetBytes ++ (staged.flatten ++ rest))
  have offsetsRead := readAll_fitting fits (staged.flatten ++ rest)
  have lengths : staged.length = (items.map encode).length := by
    rw [List.length_map]
    exact pairs.length_eq.symm
  rw [runningOffsets_length, ← offsets_eq, lengths] at offsetsRead
  rw [lengths, List.length_nil, List.nil_append] at values
  simp only [List.append_assoc, List.cons_append, decodeValue, basic, large, width, decide_eq_true_eq, countRead,
    bind, Option.bind, offsetsRead, values]
  cases items.mapM expected <;> rfl

def lookupIn (dictionary decoded : List String) (key : String) : Option String :=
  (dictionary.idxOf? key).bind fun id => decoded[id]?

theorem lookupIn_mapM (decoded : List String) {α : Type} {entries : List (String × α)} {ids : List Nat}
    (found : List.Forall₂ (fun (entry : String × α) id => dictionary.idxOf? entry.1 = some id) entries ids) :
    (ids.mapM fun id => decoded[id]?) = (entries.map Prod.fst).mapM (lookupIn dictionary decoded) := by
  induction found with
  | nil => rfl
  | @cons entry id entries ids first _ ih =>
    have here : lookupIn dictionary decoded entry.1 = decoded[id]? := by rw [lookupIn, first, Option.bind_some]
    rw [List.map_cons, List.mapM_cons, List.mapM_cons, here, ih]

theorem decodeValue_encodeObjectToBuf {entries : List (String × Value)} {encode : Value → Except String (List UInt8)}
    {expected : Value → Option Value} {bytes : List UInt8}
    (ordered : entries.Pairwise fun first second => textKey first.1 < textKey second.1)
    (written : encodeObjectToBuf dictionary (entries.map fun entry => (entry.1, encode entry.2)) = .ok bytes)
    (each : ∀ entry ∈ entries, ∀ part, encode entry.2 = .ok part → part.length ≤ fuel →
      ∀ suffix, decodeValue fuel decoded (part ++ suffix) = expected entry.2)
    (enough : bytes.length ≤ fuel + 1) (rest : List UInt8) :
    decodeValue (fuel + 1) decoded (bytes ++ rest) = (do
      let keys ← (entries.map Prod.fst).mapM (lookupIn dictionary decoded)
      let values ← (entries.map Prod.snd).mapM expected
      return .object (keys.zip values)) := by
  have kept : sortEntries (entries.map fun entry => (entry.1, encode entry.2)) =
      entries.map fun entry => (entry.1, encode entry.2) :=
    sortEntries_ordered (List.pairwise_map.mpr ordered)
  obtain ⟨staged, count, idBytes, offsetBytes, parts, counted, searched, offsets, rfl⟩ := encodeObjectToBuf_ok written
  rw [kept] at parts counted searched enough ⊢
  have size := fieldOffsetSize_isSize staged.flatten.length
  have idSize := fieldIdSize_isSize dictionary.length
  obtain ⟨offsets_eq, fits⟩ := writeAll_writeInt size offsets
  obtain ⟨ids, found, ids_eq, idsFit⟩ := writeAll_binarySearch idSize searched
  have pairs := List.forall₂_map_left_iff.mp (mapM_ok parts)
  have small : staged.flatten.length ≤ fuel := by
    simp only [List.length_append, List.length_cons] at enough
    omega
  have values := runningOffsets_mapM (staged_readBack pairs each small) [] rest
  have valueList : (entries.mapM fun entry => expected entry.2) = (entries.map Prod.snd).mapM expected := by
    rw [List.mapM_map]
    rfl
  have keys := lookupIn_mapM decoded found
  obtain ⟨basic, large, idWidth, width⟩ :=
    objectHeader_fields (decide (255 < (entries.map fun entry => (entry.1, encode entry.2)).length)) idSize size
  have countRead := writeCount_ok counted (idBytes ++ (offsetBytes ++ (staged.flatten ++ rest)))
  have idsRead := readAll_fitting idsFit (offsetBytes ++ (staged.flatten ++ rest))
  have offsetsRead := readAll_fitting fits (staged.flatten ++ rest)
  have lengths : staged.length = (entries.map fun entry => (entry.1, encode entry.2)).length := by
    rw [List.length_map]
    exact pairs.length_eq.symm
  rw [runningOffsets_length, ← offsets_eq, lengths] at offsetsRead
  rw [← ids_eq, ← found.length_eq] at idsRead
  rw [lengths, List.length_nil, List.nil_append, valueList] at values
  rw [List.map_map] at keys
  simp only [List.append_assoc, List.cons_append, decodeValue, basic, large, idWidth, width, decide_eq_true_eq, countRead,
    bind, Option.bind, idsRead, offsetsRead, keys, values]
  rfl

theorem encodeNumber_length_pos (number : Number) : 0 < (encodeNumber castF64 number).length := by
  cases number with
  | posInt value =>
    by_cases fits : value.toNat ≤ i64Max
    · simp only [encodeNumber, Number.asI64, if_pos fits]
      split
      · exact Nat.succ_pos _
      · split
        · exact Nat.succ_pos _
        · split <;> exact Nat.succ_pos _
    · simp only [encodeNumber, Number.asI64, if_neg fits, Number.asU64]
      exact Nat.succ_pos _
  | negInt value =>
    simp only [encodeNumber, Number.asI64]
    split
    · exact Nat.succ_pos _
    · split
      · exact Nat.succ_pos _
      · split <;> exact Nat.succ_pos _
  | float bits => exact Nat.succ_pos _

theorem encodeString_length_pos {text bytes : List UInt8} (written : encodeString text = .ok bytes) :
    0 < bytes.length := by
  unfold encodeString at written
  split at written
  · cases written
    exact Nat.succ_pos _
  · split at written
    · cases written
      exact Nat.succ_pos _
    · cases written

theorem encodeJsonValue_length_pos {value : Value} {bytes : List UInt8}
    (written : encodeJsonValue castF64 dictionary value = .ok bytes) : 0 < bytes.length := by
  cases value with
  | null | bool value =>
    cases written
    exact Nat.succ_pos _
  | number number =>
    cases written
    exact encodeNumber_length_pos number
  | string text => exact encodeString_length_pos written
  | array items =>
    obtain ⟨staged, count, offsetBytes, -, -, -, rfl⟩ := encodeArrayValue_ok written
    exact Nat.succ_pos _
  | object entries =>
    obtain ⟨staged, count, idBytes, offsetBytes, -, -, -, -, rfl⟩ := encodeObjectToBuf_ok written
    exact Nat.succ_pos _

theorem decodeValue_encodeJsonValue (decoded : List String) {value : Value} (valid : value.Valid) {bytes : List UInt8}
    (written : encodeJsonValue castF64 dictionary value = .ok bytes) (enough : bytes.length ≤ fuel)
    (rest : List UInt8) :
    decodeValue fuel decoded (bytes ++ rest) = image castF64 (lookupIn dictionary decoded) value := by
  induction value using Value.induction generalizing fuel bytes rest with
  | null =>
    cases written
    cases fuel with
    | zero => cases enough
    | succ fuel => rfl
  | bool value =>
    cases written
    cases fuel with
    | zero => cases enough
    | succ fuel => cases value <;> rfl
  | number number =>
    have positive := encodeJsonValue_length_pos written
    obtain ⟨less, rfl⟩ : ∃ less, fuel = less + 1 := ⟨fuel - 1, by omega⟩
    cases written
    cases valid with
    | number _ negative => exact decodeValue_number negative rest
  | string text =>
    have positive := encodeJsonValue_length_pos written
    obtain ⟨less, rfl⟩ : ∃ less, fuel = less + 1 := ⟨fuel - 1, by omega⟩
    exact decodeValue_string written rest
  | array items ih =>
    have positive := encodeJsonValue_length_pos written
    obtain ⟨less, rfl⟩ : ∃ less, fuel = less + 1 := ⟨fuel - 1, by omega⟩
    cases valid with
    | array _ each =>
      rw [encodeJsonValue, encodeItems_eq] at written
      rw [image, imageItems_eq]
      apply decodeValue_encodeArrayValue written _ enough
      intro item member part encoded small suffix
      exact ih item member (each item member) encoded small suffix
  | object entries ih =>
    have positive := encodeJsonValue_length_pos written
    obtain ⟨less, rfl⟩ : ∃ less, fuel = less + 1 := ⟨fuel - 1, by omega⟩
    cases valid with
    | object _ ordered each =>
      rw [encodeJsonValue, encodeEntries_eq] at written
      rw [image, imageEntries_eq]
      apply decodeValue_encodeObjectToBuf ordered written _ enough
      intro entry member part encoded small suffix
      exact ih entry member (each entry member) encoded small suffix

end Decode

theorem mapM_eq_map_iff {α β : Type} (f : α → Option β) (g : α → β) (items : List α) :
    items.mapM f = some (items.map g) ↔ ∀ item ∈ items, f item = some (g item) := by
  induction items with
  | nil => simp
  | cons item rest ih =>
    rw [List.mapM_cons, List.forall_mem_cons, ← ih, List.map_cons]
    cases f item <;> cases rest.mapM f <;> simp

theorem mapM_some_length {α β : Type} {f : α → Option β} {items : List α} {results : List β}
    (mapped : items.mapM f = some results) : results.length = items.length := by
  induction items generalizing results with
  | nil =>
    cases mapped
    rfl
  | cons item rest ih =>
    rw [List.mapM_cons] at mapped
    cases first : f item with
    | none => simp [first] at mapped
    | some result =>
      cases others : rest.mapM f with
      | none => simp [first, others] at mapped
      | some remaining =>
        simp only [first, others, Option.bind_eq_bind, Option.bind_some, Option.pure_def, Option.some.injEq] at mapped
        rw [← mapped, List.length_cons, List.length_cons, ih others]

theorem imageObject_iff {lookup : String → Option String} {f : Value → Option Value} {g : Value → Value}
    (entries : List (String × Value)) :
    (do let keys ← (entries.map Prod.fst).mapM lookup
        let values ← (entries.map Prod.snd).mapM f
        return Value.object (keys.zip values)) = some (.object (entries.map fun entry => (entry.1, g entry.2))) ↔
      ∀ entry ∈ entries, lookup entry.1 = some entry.1 ∧ f entry.2 = some (g entry.2) := by
  have keysFixed := mapM_eq_map_iff lookup id (entries.map Prod.fst)
  have valuesFixed := mapM_eq_map_iff f g (entries.map Prod.snd)
  rw [List.map_id, List.forall_mem_map] at keysFixed
  rw [List.forall_mem_map] at valuesFixed
  rw [forall₂_and]
  constructor
  · intro same
    cases keys : (entries.map Prod.fst).mapM lookup with
    | none => simp [keys] at same
    | some found =>
      cases values : (entries.map Prod.snd).mapM f with
      | none => simp [keys, values] at same
      | some images =>
        simp only [keys, values, Option.bind_eq_bind, Option.bind_some, Option.pure_def, Option.some.injEq,
          Value.object.injEq] at same
        have keysLength := mapM_some_length keys
        have valuesLength := mapM_some_length values
        rw [List.length_map] at keysLength valuesLength
        have firsts := congrArg (List.map Prod.fst) same
        have seconds := congrArg (List.map Prod.snd) same
        rw [List.map_fst_zip (by omega), List.map_map] at firsts
        rw [List.map_snd_zip (by omega), List.map_map] at seconds
        constructor
        · apply keysFixed.mp
          rw [keys, firsts]
          rfl
        · apply valuesFixed.mp
          rw [values, seconds, List.map_map]
          rfl
  · intro fixed
    rw [keysFixed.mpr fixed.1, valuesFixed.mpr fixed.2]
    simp [List.zip_map', Function.comp_def]

/-- The image of a value is the value where, and only where, every key is its own image. -/
theorem image_iff (castF64 : UInt64 → UInt64) {lookup : String → Option String} (value : Value) :
    image castF64 lookup value = some (value.opaqueDoubles castF64) ↔
      ∀ key ∈ collectAllKeys value, lookup key = some key := by
  induction value using Value.induction with
  | null | bool value | number value | string value => simp [image, Value.opaqueDoubles, collectAllKeys]
  | array items ih =>
    have each := mapM_eq_map_iff (image castF64 lookup) (Value.opaqueDoubles castF64) items
    rw [image, imageItems_eq, Value.opaqueDoubles, opaqueItems_eq, collectAllKeys, collectItems_eq,
      List.forall_mem_flatMap]
    have members : (∀ item ∈ items, image castF64 lookup item = some (item.opaqueDoubles castF64)) ↔
        ∀ item ∈ items, ∀ key ∈ collectAllKeys item, lookup key = some key :=
      forall₂_congr ih
    rw [← members, ← each]
    cases items.mapM (image castF64 lookup) <;> simp
  | object entries ih =>
    rw [image, imageEntries_eq, Value.opaqueDoubles, opaqueEntries_eq, collectAllKeys, collectEntries_eq, imageObject_iff,
      List.forall_mem_flatMap]
    apply forall₂_congr
    intro entry member
    rw [List.forall_mem_cons, ih entry member]

end OtelDatalake.Parquet
