import OtelDatalake.Parquet.VariantDictionary

open OtelDatalake.Foundation OtelDatalake.Buffer

namespace OtelDatalake.Parquet

def Number.encodedSize (number : Number) : Nat :=
  match number.asI64 with
  | some value =>
    if -128 ≤ value ∧ value ≤ 127 then 2
    else if -32768 ≤ value ∧ value ≤ 32767 then 3
    else if -2147483648 ≤ value ∧ value ≤ 2147483647 then 5
    else 9
  | none => 9

def countSize (count : Nat) : Nat := if 255 < count then 4 else 1

mutual

def Value.encodedSize (dictionaryLen : Nat) : Value → Nat
  | .null => 1
  | .bool _ => 1
  | .number number => number.encodedSize
  | .string text => (textBytes text).length + if (textBytes text).length < 64 then 1 else 5
  | .array items =>
    1 + countSize items.length + fieldOffsetSize (itemsSize dictionaryLen items) * (items.length + 1) +
      itemsSize dictionaryLen items
  | .object entries =>
    1 + countSize entries.length + fieldIdSize dictionaryLen * entries.length +
      fieldOffsetSize (entriesSize dictionaryLen entries) * (entries.length + 1) + entriesSize dictionaryLen entries

def itemsSize (dictionaryLen : Nat) : List Value → Nat
  | [] => 0
  | item :: rest => item.encodedSize dictionaryLen + itemsSize dictionaryLen rest

def entriesSize (dictionaryLen : Nat) : List (String × Value) → Nat
  | [] => 0
  | (_, value) :: rest => value.encodedSize dictionaryLen + entriesSize dictionaryLen rest

end

/-- A value all of whose strings and containers are measured in four bytes. -/
inductive Value.Encodable (dictionaryLen : Nat) : Value → Prop where
  | null : Encodable dictionaryLen .null
  | bool (value : Bool) : Encodable dictionaryLen (.bool value)
  | number (value : Number) : Encodable dictionaryLen (.number value)
  | string (text : String) (fits : (textBytes text).length ≤ u32Max) : Encodable dictionaryLen (.string text)
  | array (items : List Value) (each : ∀ item ∈ items, Encodable dictionaryLen item)
      (fits : itemsSize dictionaryLen items ≤ u32Max) : Encodable dictionaryLen (.array items)
  | object (entries : List (String × Value)) (each : ∀ entry ∈ entries, Encodable dictionaryLen entry.2)
      (fits : entriesSize dictionaryLen entries ≤ u32Max) : Encodable dictionaryLen (.object entries)

def Value.Fits (value : Value) : Prop := value.Encodable (dictionaryOf value).length

theorem itemsSize_eq (dictionaryLen : Nat) (items : List Value) :
    itemsSize dictionaryLen items = (items.map (Value.encodedSize dictionaryLen)).sum := by
  induction items with
  | nil => rfl
  | cons item rest ih => rw [itemsSize, ih, List.map_cons, List.sum_cons]

theorem entriesSize_eq (dictionaryLen : Nat) (entries : List (String × Value)) :
    entriesSize dictionaryLen entries = itemsSize dictionaryLen (entries.map Prod.snd) := by
  induction entries with
  | nil => rfl
  | cons entry rest ih => rw [entriesSize, ih, List.map_cons, itemsSize]

theorem encodeNumber_length (castF64 : UInt64 → UInt64) (number : Number) :
    (encodeNumber castF64 number).length = number.encodedSize := by
  unfold encodeNumber Number.encodedSize
  cases number with
  | posInt value =>
    by_cases fits : value.toNat ≤ i64Max
    · simp only [Number.asI64, if_pos fits]
      split_ifs <;> simp [intToLe]
    · simp only [Number.asI64, if_neg fits, Number.asU64]
      simp
  | negInt value =>
    simp only [Number.asI64]
    split_ifs <;> simp [intToLe]
  | float bits => simp [Number.asI64, Number.asU64]

theorem Number.encodedSize_pos (number : Number) : 0 < number.encodedSize := by
  unfold Number.encodedSize
  split
  · split_ifs <;> decide
  · decide

theorem Value.encodedSize_pos (dictionaryLen : Nat) (value : Value) : 0 < value.encodedSize dictionaryLen := by
  cases value with
  | null | bool value => exact Nat.one_pos
  | number number => exact number.encodedSize_pos
  | string text =>
    rw [Value.encodedSize]
    split <;> omega
  | array items =>
    rw [Value.encodedSize]
    omega
  | object entries =>
    rw [Value.encodedSize]
    omega

theorem length_le_itemsSize (dictionaryLen : Nat) (items : List Value) :
    items.length ≤ itemsSize dictionaryLen items := by
  induction items with
  | nil => exact Nat.le_refl 0
  | cons item rest ih =>
    have positive := item.encodedSize_pos dictionaryLen
    rw [List.length_cons, itemsSize]
    omega

section Keys

variable {dictionaryLen : Nat}

theorem collectItems_length {items : List Value}
    (each : ∀ item ∈ items, (collectAllKeys item).length < item.encodedSize dictionaryLen) :
    (collectItems items).length ≤ itemsSize dictionaryLen items := by
  induction items with
  | nil => exact Nat.le_refl 0
  | cons item rest ih =>
    obtain ⟨here, others⟩ := List.forall_mem_cons.mp each
    have remaining := ih others
    rw [collectItems, List.length_append, itemsSize]
    omega

theorem collectEntries_length {entries : List (String × Value)}
    (each : ∀ entry ∈ entries, (collectAllKeys entry.2).length < entry.2.encodedSize dictionaryLen) :
    (collectEntries entries).length ≤ entriesSize dictionaryLen entries := by
  induction entries with
  | nil => exact Nat.le_refl 0
  | cons entry rest ih =>
    obtain ⟨here, others⟩ := List.forall_mem_cons.mp each
    have remaining := ih others
    rw [collectEntries, List.length_cons, List.length_append, entriesSize]
    omega

theorem collectAllKeys_length (value : Value) : (collectAllKeys value).length < value.encodedSize dictionaryLen := by
  induction value using Value.induction with
  | null | bool value | number value | string value => exact Value.encodedSize_pos dictionaryLen _
  | array items ih =>
    have inside := collectItems_length ih
    rw [collectAllKeys, Value.encodedSize]
    omega
  | object entries ih =>
    have inside := collectEntries_length ih
    rw [collectAllKeys, Value.encodedSize]
    omega

end Keys

theorem sortKeys_length_le (keys : List String) : (sortKeys keys).length ≤ keys.length := by
  have fewer := (List.destutter_sublist (· ≠ ·)
    (keys.mergeSort fun first second => decide (textKey first ≤ textKey second))).length_le
  rw [List.length_mergeSort] at fewer
  exact fewer

theorem Value.Fits.keys_le {value : Value} (fits : value.Fits) : (dictionaryOf value).length ≤ u32Max := by
  have fewer := sortKeys_length_le (collectAllKeys value)
  have bound : (collectAllKeys value).length ≤ u32Max := by
    unfold Value.Fits at fits
    generalize (dictionaryOf value).length = count at fits
    cases fits with
    | null | bool value | number value | string text small => exact Nat.zero_le _
    | array items each total =>
      exact le_trans (collectItems_length fun item _ => collectAllKeys_length item) total
    | object entries each total =>
      exact le_trans (collectEntries_length fun entry _ => collectAllKeys_length entry.2) total
  exact le_trans fewer bound

theorem runningOffsets_total_mem (start : Nat) (parts : List (List UInt8)) :
    start + parts.flatten.length ∈ runningOffsets start parts := by
  induction parts generalizing start with
  | nil => simp [runningOffsets]
  | cons part parts ih =>
    have last := ih (start + part.length)
    rw [runningOffsets, List.flatten_cons, List.length_append, ← Nat.add_assoc]
    exact List.mem_cons_of_mem _ last

theorem isSize_pow {size : Nat} (valid : IsSize size) : 256 ^ size ≤ u32Max + 1 := by
  rcases valid with rfl | rfl | rfl <;> decide

theorem flatMap_toLe_length (size : Nat) (values : List Nat) :
    (values.flatMap (toLe size)).length = size * values.length := by
  induction values with
  | nil => rfl
  | cons value rest ih =>
    rw [List.flatMap_cons, List.length_append, ih, toLe_length, List.length_cons, Nat.mul_succ, Nat.add_comm]

theorem writeCount_length {noun : String} {count : Nat} {bytes : List UInt8}
    (written : writeCount noun count = .ok bytes) : bytes.length = countSize count := by
  unfold writeCount at written
  unfold countSize
  split at written
  · split at written
    · cases written
      rw [toLe_length, if_pos (by assumption)]
    · cases written
  · cases written
    rw [if_neg (by assumption)]
    rfl

section Encode

variable {castF64 : UInt64 → UInt64} {dictionary : List String}

theorem staged_length {α : Type} {items : List α} {staged : List (List UInt8)}
    {encode : α → Except String (List UInt8)} {size : α → Nat}
    (pairs : List.Forall₂ (fun item part => encode item = .ok part) items staged)
    (each : ∀ item ∈ items, ∀ part, encode item = .ok part → part.length = size item) :
    staged.flatten.length = (items.map size).sum := by
  induction pairs with
  | nil => rfl
  | @cons item part items staged first _ ih =>
    obtain ⟨here, others⟩ := List.forall_mem_cons.mp each
    rw [List.flatten_cons, List.length_append, List.map_cons, List.sum_cons, here part first, ih others]

theorem forall₂_left {α β : Type} {R : α → β → Prop} {items : List α} {results : List β}
    (pairs : List.Forall₂ R items results) : ∀ item ∈ items, ∃ result, R item result := by
  intro item member
  obtain ⟨i, within, rfl⟩ := List.getElem_of_mem member
  have other : i < results.length := pairs.length_eq ▸ within
  exact ⟨results[i], pairs.get within other⟩

theorem encodeArrayValue_sizes {α : Type} {items : List α} {encode : α → Except String (List UInt8)} {size : α → Nat}
    {bytes : List UInt8} (written : encodeArrayValue (items.map encode) = .ok bytes)
    (each : ∀ item ∈ items, ∀ part, encode item = .ok part → part.length = size item) :
    bytes.length = 1 + countSize items.length + fieldOffsetSize (items.map size).sum * (items.length + 1) +
        (items.map size).sum ∧
      (items.map size).sum ≤ u32Max ∧ ∀ item ∈ items, ∃ part, encode item = .ok part := by
  obtain ⟨staged, count, offsetBytes, parts, counted, offsets, rfl⟩ := encodeArrayValue_ok written
  have valid := fieldOffsetSize_isSize staged.flatten.length
  obtain ⟨offsets_eq, fits⟩ := writeAll_writeInt valid offsets
  have pairs := List.forall₂_map_left_iff.mp (mapM_ok parts)
  have total := staged_length pairs each
  have last := fits _ (runningOffsets_total_mem 0 staged)
  have limit := isSize_pow valid
  have countLength := writeCount_length counted
  have offsetsLength := congrArg List.length offsets_eq
  rw [flatMap_toLe_length, runningOffsets_length, ← pairs.length_eq] at offsetsLength
  rw [List.length_map] at countLength
  rw [List.length_append, List.length_append, List.length_cons, countLength, offsetsLength, ← total]
  exact ⟨by omega, by omega, forall₂_left pairs⟩

theorem encodeObjectToBuf_sizes {entries : List (String × Value)} {encode : Value → Except String (List UInt8)}
    {size : Value → Nat} {bytes : List UInt8}
    (ordered : entries.Pairwise fun first second => textKey first.1 < textKey second.1)
    (written : encodeObjectToBuf dictionary (entries.map fun entry => (entry.1, encode entry.2)) = .ok bytes)
    (each : ∀ entry ∈ entries, ∀ part, encode entry.2 = .ok part → part.length = size entry.2) :
    bytes.length = 1 + countSize entries.length + fieldIdSize dictionary.length * entries.length +
        fieldOffsetSize (entries.map fun entry => size entry.2).sum * (entries.length + 1) +
        (entries.map fun entry => size entry.2).sum ∧
      (entries.map fun entry => size entry.2).sum ≤ u32Max ∧ ∀ entry ∈ entries, ∃ part, encode entry.2 = .ok part := by
  have kept : sortEntries (entries.map fun entry => (entry.1, encode entry.2)) =
      entries.map fun entry => (entry.1, encode entry.2) :=
    sortEntries_ordered (List.pairwise_map.mpr ordered)
  obtain ⟨staged, count, idBytes, offsetBytes, parts, counted, searched, offsets, rfl⟩ := encodeObjectToBuf_ok written
  rw [kept] at parts counted searched ⊢
  have valid := fieldOffsetSize_isSize staged.flatten.length
  obtain ⟨offsets_eq, fits⟩ := writeAll_writeInt valid offsets
  obtain ⟨ids, found, ids_eq, -⟩ := writeAll_binarySearch (fieldIdSize_isSize dictionary.length) searched
  have pairs := List.forall₂_map_left_iff.mp (mapM_ok parts)
  have total := staged_length pairs each
  have last := fits _ (runningOffsets_total_mem 0 staged)
  have limit := isSize_pow valid
  have countLength := writeCount_length counted
  have idsLength := congrArg List.length ids_eq
  have offsetsLength := congrArg List.length offsets_eq
  rw [flatMap_toLe_length, runningOffsets_length, ← pairs.length_eq] at offsetsLength
  rw [flatMap_toLe_length, ← found.length_eq, List.length_map] at idsLength
  rw [List.length_map] at countLength
  rw [List.length_append, List.length_append, List.length_append, List.length_cons, countLength, offsetsLength, idsLength,
    ← total]
  exact ⟨by omega, by omega, forall₂_left pairs⟩

theorem encodeJsonValue_encodable {value : Value} (valid : value.Valid) {bytes : List UInt8}
    (written : encodeJsonValue castF64 dictionary value = .ok bytes) :
    value.Encodable dictionary.length ∧ bytes.length = value.encodedSize dictionary.length := by
  induction value using Value.induction generalizing bytes with
  | null =>
    cases written
    exact ⟨.null, rfl⟩
  | bool value =>
    cases written
    exact ⟨.bool value, rfl⟩
  | number number =>
    cases written
    exact ⟨.number number, encodeNumber_length castF64 number⟩
  | string text =>
    rw [encodeJsonValue, encodeString] at written
    rw [Value.encodedSize]
    by_cases short : (textBytes text).length < 64
    · rw [if_pos short] at written ⊢
      cases written
      have limit : 64 ≤ u32Max := by decide
      exact ⟨.string text (by omega), rfl⟩
    · rw [if_neg short] at written ⊢
      by_cases fits : (textBytes text).length ≤ u32Max
      · rw [if_pos fits] at written
        cases written
        refine ⟨.string text fits, ?_⟩
        rw [List.length_append, List.length_cons, toLe_length]
        omega
      · rw [if_neg fits] at written
        cases written
  | array items ih =>
    cases valid with
    | array _ each =>
      rw [encodeJsonValue, encodeItems_eq] at written
      obtain ⟨length, total, encoded⟩ := encodeArrayValue_sizes written fun item member part encoded =>
        (ih item member (each item member) encoded).2
      rw [← itemsSize_eq] at length total
      refine ⟨.array items ?_ total, length⟩
      intro item member
      obtain ⟨part, written⟩ := encoded item member
      exact (ih item member (each item member) written).1
  | object entries ih =>
    cases valid with
    | object _ ordered each =>
      rw [encodeJsonValue, encodeEntries_eq] at written
      obtain ⟨length, total, encoded⟩ := encodeObjectToBuf_sizes ordered written fun entry member part encoded =>
        (ih entry member (each entry member) encoded).2
      have sizes : (entries.map fun entry => entry.2.encodedSize dictionary.length).sum =
          entriesSize dictionary.length entries := by
        rw [entriesSize_eq, itemsSize_eq, List.map_map]
        rfl
      rw [sizes] at length total
      refine ⟨.object entries ?_ total, length⟩
      intro entry member
      obtain ⟨part, written⟩ := encoded entry member
      exact (ih entry member (each entry member) written).1

theorem ok_bind {α β : Type} (value : α) (next : α → Except String β) : (Except.ok value >>= next) = next value := rfl

theorem writeAll_of_forall {α : Type} {write : α → Except String (List UInt8)} {items : List α}
    (each : ∀ item ∈ items, ∃ bytes, write item = .ok bytes) : ∃ bytes, writeAll write items = .ok bytes := by
  obtain ⟨results, mapped⟩ := mapM_ok_of_forall each
  exact ⟨results.flatten, by rw [writeAll, mapped]; rfl⟩

theorem writeInt_of_lt (noun : String) {value size : Nat} (valid : IsSize size) (fits : value < 256 ^ size) :
    ∃ bytes, writeInt noun value size = .ok bytes := by
  have limit : u32Max + 1 = 256 ^ 4 := by decide
  rcases valid with rfl | rfl | rfl
  · exact ⟨_, if_pos (by omega)⟩
  · exact ⟨_, if_pos (by omega)⟩
  · exact ⟨_, if_pos (by omega)⟩

theorem writeCount_of_le (noun : String) {count : Nat} (fits : count ≤ u32Max) :
    ∃ bytes, writeCount noun count = .ok bytes := by
  unfold writeCount
  by_cases large : 255 < count
  · exact ⟨_, by rw [if_pos large, if_pos fits]⟩
  · exact ⟨_, by rw [if_neg large]⟩

theorem fieldOffsetSize_fits {total : Nat} (fits : total ≤ u32Max) : total < 256 ^ fieldOffsetSize total := by
  have limit : u32Max = 4294967295 := rfl
  unfold fieldOffsetSize
  split
  · omega
  · split <;> omega

theorem fieldIdSize_fits {id count : Nat} (known : id < count) (fits : count ≤ u32Max) : id < 256 ^ fieldIdSize count := by
  have limit : u32Max = 4294967295 := rfl
  unfold fieldIdSize
  split
  · omega
  · split <;> omega

theorem writeAll_runningOffsets (noun : String) {staged : List (List UInt8)} (fits : staged.flatten.length ≤ u32Max) :
    ∃ bytes, writeAll (writeInt noun · (fieldOffsetSize staged.flatten.length)) (runningOffsets 0 staged) = .ok bytes := by
  apply writeAll_of_forall
  intro offset member
  have below := runningOffsets_le 0 staged offset member
  have bound := fieldOffsetSize_fits fits
  exact writeInt_of_lt noun (fieldOffsetSize_isSize _) (by omega)

theorem encodeArrayValue_of_parts {α : Type} {items : List α} {encode : α → Except String (List UInt8)} {size : α → Nat}
    (each : ∀ item ∈ items, ∃ part, encode item = .ok part ∧ part.length = size item)
    (count : items.length ≤ u32Max) (total : (items.map size).sum ≤ u32Max) :
    ∃ bytes, encodeArrayValue (items.map encode) = .ok bytes := by
  have encoded : ∀ element ∈ items.map encode, ∃ part, id element = .ok part := by
    rw [List.forall_mem_map]
    intro item member
    obtain ⟨part, written, -⟩ := each item member
    exact ⟨part, written⟩
  obtain ⟨staged, parts⟩ := mapM_ok_of_forall encoded
  have totalLength : staged.flatten.length = (items.map size).sum := by
    apply staged_length (List.forall₂_map_left_iff.mp (mapM_ok parts))
    intro item member part written
    obtain ⟨other, otherWritten, length⟩ := each item member
    rw [id, otherWritten] at written
    cases written
    exact length
  rw [← List.length_map encode] at count
  obtain ⟨countBytes, counted⟩ := writeCount_of_le "array element" count
  obtain ⟨offsetBytes, offsets⟩ := writeAll_runningOffsets "offset" (totalLength ▸ total)
  simp only [encodeArrayValue, parts, ok_bind, counted, offsets]
  exact ⟨_, rfl⟩

theorem encodeObjectToBuf_of_parts {entries : List (String × Value)} {encode : Value → Except String (List UInt8)}
    {size : Value → Nat} (ordered : entries.Pairwise fun first second => textKey first.1 < textKey second.1)
    (each : ∀ entry ∈ entries, ∃ part, encode entry.2 = .ok part ∧ part.length = size entry.2)
    (known : ∀ entry ∈ entries, entry.1 ∈ dictionary) (keys : dictionary.length ≤ u32Max)
    (count : entries.length ≤ u32Max) (total : (entries.map fun entry => size entry.2).sum ≤ u32Max) :
    ∃ bytes, encodeObjectToBuf dictionary (entries.map fun entry => (entry.1, encode entry.2)) = .ok bytes := by
  have kept : sortEntries (entries.map fun entry => (entry.1, encode entry.2)) =
      entries.map fun entry => (entry.1, encode entry.2) :=
    sortEntries_ordered (List.pairwise_map.mpr ordered)
  have encoded : ∀ element ∈ entries.map fun entry => (entry.1, encode entry.2), ∃ part, element.2 = .ok part := by
    rw [List.forall_mem_map]
    intro entry member
    obtain ⟨part, written, -⟩ := each entry member
    exact ⟨part, written⟩
  obtain ⟨staged, parts⟩ := mapM_ok_of_forall encoded
  have totalLength : staged.flatten.length = (entries.map fun entry => size entry.2).sum := by
    apply staged_length (List.forall₂_map_left_iff.mp (mapM_ok parts))
    intro entry member part written
    obtain ⟨other, otherWritten, length⟩ := each entry member
    rw [otherWritten] at written
    cases written
    exact length
  have found : ∀ element ∈ entries.map fun entry => (entry.1, encode entry.2),
      ∃ bytes, (binarySearch dictionary element.1).bind (writeInt "offset/id" · (fieldIdSize dictionary.length)) =
        .ok bytes := by
    rw [List.forall_mem_map]
    intro entry member
    obtain ⟨id, index⟩ := Option.isSome_iff_exists.mp (List.isSome_idxOf?.mpr (known entry member))
    obtain ⟨below, -, -⟩ := List.idxOf?_eq_some_iff.mp index
    rw [binarySearch, index]
    exact writeInt_of_lt "offset/id" (fieldIdSize_isSize _) (fieldIdSize_fits below keys)
  rw [← List.length_map (fun entry => (entry.1, encode entry.2))] at count
  obtain ⟨countBytes, counted⟩ := writeCount_of_le "element" count
  obtain ⟨idBytes, searched⟩ := writeAll_of_forall found
  obtain ⟨offsetBytes, offsets⟩ := writeAll_runningOffsets "offset/id" (totalLength ▸ total)
  simp only [encodeObjectToBuf, kept, parts, ok_bind, counted, searched, writeIntToBuf, offsets]
  exact ⟨_, rfl⟩

theorem encodeJsonValue_of_encodable {value : Value} (valid : value.Valid) (fits : value.Encodable dictionary.length)
    (known : ∀ key ∈ collectAllKeys value, key ∈ dictionary) (keys : dictionary.length ≤ u32Max) :
    ∃ bytes, encodeJsonValue castF64 dictionary value = .ok bytes := by
  induction value using Value.induction with
  | null | bool value | number value => exact ⟨_, rfl⟩
  | string text =>
    cases fits with
    | string _ small =>
      rw [encodeJsonValue, encodeString]
      by_cases short : (textBytes text).length < 64
      · exact ⟨_, by rw [if_pos short]⟩
      · exact ⟨_, by rw [if_neg short, if_pos small]⟩
  | array items ih =>
    cases valid with
    | array _ each =>
      cases fits with
      | array _ encodable total =>
        rw [collectAllKeys, collectItems_eq, List.forall_mem_flatMap] at known
        have count := length_le_itemsSize dictionary.length items
        rw [encodeJsonValue, encodeItems_eq]
        rw [itemsSize_eq] at total count
        apply encodeArrayValue_of_parts _ (le_trans count total) total
        intro item member
        obtain ⟨part, written⟩ := ih item member (each item member) (encodable item member) (known item member)
        exact ⟨part, written, (encodeJsonValue_encodable (each item member) written).2⟩
  | object entries ih =>
    cases valid with
    | object _ ordered each =>
      cases fits with
      | object _ encodable total =>
        rw [collectAllKeys, collectEntries_eq, List.forall_mem_flatMap] at known
        have count := length_le_itemsSize dictionary.length (entries.map Prod.snd)
        rw [entriesSize_eq] at total
        rw [encodeJsonValue, encodeEntries_eq]
        rw [itemsSize_eq, List.map_map] at total count
        rw [List.length_map] at count
        refine encodeObjectToBuf_of_parts ordered ?_ ?_ keys (le_trans count total) total
        · intro entry member
          have inside := (List.forall_mem_cons.mp (known entry member)).2
          obtain ⟨part, written⟩ := ih entry member (each entry member) (encodable entry member) inside
          exact ⟨part, written, (encodeJsonValue_encodable (each entry member) written).2⟩
        · intro entry member
          exact (List.forall_mem_cons.mp (known entry member)).1

end Encode

end OtelDatalake.Parquet
