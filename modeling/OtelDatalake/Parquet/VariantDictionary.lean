import OtelDatalake.Parquet.VariantContainers

open OtelDatalake.Foundation OtelDatalake.Buffer

namespace OtelDatalake.Parquet

theorem mem_destutter_ne {α : Type} [DecidableEq α] {item first : α} {rest : List α} (member : item ∈ first :: rest) :
    item ∈ rest.destutter' (· ≠ ·) first := by
  induction rest generalizing first with
  | nil => exact member
  | cons next rest ih =>
    by_cases same : first = next
    · subst same
      rw [List.destutter'_cons_neg _ (by simp)]
      apply ih
      rcases List.mem_cons.mp member with head | tail
      · exact head ▸ List.mem_cons_self
      · exact tail
    · rw [List.destutter'_cons_pos _ same]
      rcases List.mem_cons.mp member with head | tail
      · exact head ▸ List.mem_cons_self
      · exact List.mem_cons_of_mem _ (ih tail)

theorem mem_sortKeys {keys : List String} {key : String} : key ∈ sortKeys keys ↔ key ∈ keys := by
  have sorted : key ∈ keys.mergeSort (fun first second => decide (textKey first ≤ textKey second)) ↔ key ∈ keys :=
    List.mem_mergeSort
  rw [← sorted, sortKeys]
  constructor
  · exact fun member => (List.destutter_sublist _ _).subset member
  · intro member
    cases list : keys.mergeSort fun first second => decide (textKey first ≤ textKey second) with
    | nil =>
      rw [list] at member
      cases member
    | cons first rest =>
      rw [list] at member
      exact mem_destutter_ne member

theorem strictly_of_apart {keys : List String} (weakly : keys.Pairwise fun first second => textKey first ≤ textKey second)
    (apart : keys.IsChain (· ≠ ·)) : keys.Pairwise fun first second => textKey first < textKey second := by
  induction keys with
  | nil => exact .nil
  | cons key rest ih =>
    obtain ⟨below, rest_weakly⟩ := List.pairwise_cons.mp weakly
    refine List.pairwise_cons.mpr ⟨?_, ih rest_weakly apart.tail⟩
    intro other member
    cases rest with
    | nil => cases member
    | cons next rest =>
      have different : textKey key ≠ textKey next :=
        fun same => (List.isChain_cons_cons.mp apart).1 (textKey_injective same)
      have first : textKey key < textKey next := lt_of_le_of_ne (below next List.mem_cons_self) different
      rcases List.mem_cons.mp member with head | tail
      · exact head ▸ first
      · exact lt_of_lt_of_le first ((List.pairwise_cons.mp rest_weakly).1 other tail)

theorem sortKeys_ordered (keys : List String) :
    (sortKeys keys).Pairwise fun first second => textKey first < textKey second := by
  have sorted : (keys.mergeSort fun first second => decide (textKey first ≤ textKey second)).Pairwise
      fun first second => decide (textKey first ≤ textKey second) = true := by
    apply List.pairwise_mergeSort
    · intro a b c first second
      exact decide_eq_true (le_trans (of_decide_eq_true first) (of_decide_eq_true second))
    · intro a b
      simpa using le_total (textKey a) (textKey b)
  have weakly := (sorted.imp fun le => of_decide_eq_true le).sublist (List.destutter_sublist (· ≠ ·) _)
  exact strictly_of_apart weakly (List.isChain_destutter (· ≠ ·) _)

theorem sortKeys_nodup (keys : List String) : (sortKeys keys).Nodup := by
  apply (sortKeys_ordered keys).imp
  intro first second before same
  exact absurd (same ▸ before) (lt_irrefl _)

def IsDictionarySize (size : Nat) : Prop := size = 1 ∨ size = 2 ∨ size = 3 ∨ size = 4

theorem dictionaryOffsetSize_isDictionarySize (maxVal : Nat) : IsDictionarySize (dictionaryOffsetSize maxVal) := by
  unfold dictionaryOffsetSize IsDictionarySize
  split
  · simp
  · split
    · simp
    · split <;> simp

theorem dictionaryOffsetSize_fits {maxVal : Nat} (fits : maxVal ≤ u32Max) :
    maxVal < 256 ^ dictionaryOffsetSize maxVal := by
  have limit : u32Max = 4294967295 := rfl
  unfold dictionaryOffsetSize
  split
  · omega
  · split
    · omega
    · split <;> omega

theorem metadataHeader_fields {size : Nat} (valid : IsDictionarySize size) :
    (0x01 ||| 0x10 ||| UInt8.ofNat (size - 1) <<< (6 : UInt8)) &&& 0x0F = (1 : UInt8) ∧
      ((0x01 ||| 0x10 ||| UInt8.ofNat (size - 1) <<< (6 : UInt8)) >>> (6 : UInt8)).toNat + 1 = size := by
  rcases valid with rfl | rfl | rfl | rfl <;> decide

theorem writeIntLe_eq {size : Nat} (valid : IsDictionarySize size) (value : Nat) :
    writeIntLe value size = toLe size value := by
  apply toLe_take
  rcases valid with rfl | rfl | rfl | rfl <;> decide

def metadataSize (keys : List String) : Nat := dictionaryOffsetSize (max (keyBytes keys) keys.length)

theorem encodeDictionaryMetadata_ok {keys : List String} {bytes : List UInt8}
    (written : encodeDictionaryMetadata keys = .ok bytes) :
    bytes = (0x01 ||| 0x10 ||| UInt8.ofNat (metadataSize keys - 1) <<< (6 : UInt8)) ::
      (toLe (metadataSize keys) keys.length ++
        ((runningOffsets 0 (keys.map textBytes)).flatMap (toLe (metadataSize keys)) ++ keys.flatMap textBytes)) := by
  have valid := dictionaryOffsetSize_isDictionarySize (max (keyBytes keys) keys.length)
  unfold encodeDictionaryMetadata at written
  split at written
  · cases written
  · cases written
    have same : (writeIntLe · (dictionaryOffsetSize (max (keyBytes keys) keys.length))) = toLe (metadataSize keys) :=
      funext (writeIntLe_eq valid)
    have count := congrFun same keys.length
    rw [List.cons_append, List.cons_append, List.append_assoc, same, count]
    rfl

theorem decodeMetadata_written {keys : List String} {bytes : List UInt8}
    (written : encodeDictionaryMetadata keys = .ok bytes) :
    decodeMetadata bytes = (readAll (metadataSize keys) (keys.length % 256 ^ metadataSize keys + 1)
      ((runningOffsets 0 (keys.map textBytes)).flatMap (toLe (metadataSize keys)) ++ keys.flatMap textBytes)).bind
      fun read => (read.1.zip read.1.tail).mapM (decodeKey read.2) := by
  have valid : IsDictionarySize (metadataSize keys) := dictionaryOffsetSize_isDictionarySize _
  obtain ⟨version, size⟩ := metadataHeader_fields valid
  have count := readLe_append (toLe_length (metadataSize keys) keys.length)
    ((runningOffsets 0 (keys.map textBytes)).flatMap (toLe (metadataSize keys)) ++ keys.flatMap textBytes)
  rw [ofLe_toLe_mod] at count
  rw [encodeDictionaryMetadata_ok written, decodeMetadata, if_neg (not_not_intro version), size]
  dsimp only
  rw [count]
  rfl

theorem runningOffsets_zip_cons (start : Nat) (part : List UInt8) (parts : List (List UInt8)) :
    (runningOffsets start (part :: parts)).zip (runningOffsets start (part :: parts)).tail =
      (start, start + part.length) ::
        (runningOffsets (start + part.length) parts).zip (runningOffsets (start + part.length) parts).tail := by
  have head : runningOffsets (start + part.length) parts =
      (start + part.length) :: (runningOffsets (start + part.length) parts).tail := by
    cases parts <;> rfl
  rw [runningOffsets, List.tail_cons]
  conv_lhs => rw [head]
  rw [List.zip_cons_cons, ← head]

theorem decodeKey_runningOffsets (keys : List String) (front rest : List UInt8) :
    ((runningOffsets front.length (keys.map textBytes)).zip (runningOffsets front.length (keys.map textBytes)).tail).mapM
      (decodeKey (front ++ (keys.flatMap textBytes ++ rest))) = some keys := by
  induction keys generalizing front with
  | nil => rfl
  | cons key keys ih =>
    have following := ih (front ++ textBytes key)
    have bytes : front ++ textBytes key ++ (keys.flatMap textBytes ++ rest) =
        front ++ ((key :: keys).flatMap textBytes ++ rest) := by
      simp only [List.flatMap_cons, List.append_assoc]
    rw [bytes, List.length_append] at following
    have here : decodeKey (front ++ ((key :: keys).flatMap textBytes ++ rest))
        (front.length, front.length + (textBytes key).length) = some key := by
      have within : front.length ≤ front.length + (textBytes key).length ∧ front.length + (textBytes key).length ≤
          (front ++ ((key :: keys).flatMap textBytes ++ rest)).length := by
        simp only [List.length_append, List.flatMap_cons]
        omega
      have field : front ++ ((key :: keys).flatMap textBytes ++ rest) =
          front ++ (textBytes key ++ (keys.flatMap textBytes ++ rest)) := by
        rw [List.flatMap_cons, List.append_assoc]
      rw [decodeKey, if_pos within, field, slice_append rfl (by dsimp only; omega), readText_textBytes]
    rw [List.map_cons, runningOffsets_zip_cons, List.mapM_cons, here, following]
    rfl

theorem runningOffsets_le (start : Nat) (parts : List (List UInt8)) :
    ∀ offset ∈ runningOffsets start parts, offset ≤ start + parts.flatten.length := by
  induction parts generalizing start with
  | nil => simp [runningOffsets]
  | cons part parts ih =>
    rw [runningOffsets, List.flatten_cons, List.length_append, List.forall_mem_cons]
    refine ⟨by omega, ?_⟩
    intro offset member
    have below := ih (start + part.length) offset member
    omega

theorem keyBytes_eq (keys : List String) : keyBytes keys = (keys.map textBytes).flatten.length := by
  rw [keyBytes, List.length_flatten, List.map_map]
  rfl

theorem decodeMetadata_fitting {keys : List String} {bytes : List UInt8}
    (written : encodeDictionaryMetadata keys = .ok bytes) (fits : max (keyBytes keys) keys.length ≤ u32Max) :
    decodeMetadata bytes = some keys := by
  have bound : max (keyBytes keys) keys.length < 256 ^ metadataSize keys := dictionaryOffsetSize_fits fits
  have offsetsFit : ∀ offset ∈ runningOffsets 0 (keys.map textBytes), offset < 256 ^ metadataSize keys := by
    intro offset member
    have below := runningOffsets_le 0 (keys.map textBytes) offset member
    rw [← keyBytes_eq] at below
    omega
  have read := readAll_fitting offsetsFit (keys.flatMap textBytes)
  rw [runningOffsets_length, List.length_map] at read
  have found := decodeKey_runningOffsets keys [] []
  rw [List.length_nil, List.nil_append, List.append_nil] at found
  rw [decodeMetadata_written written, Nat.mod_eq_of_lt (by omega), read]
  exact found

theorem readLe_some {size value : Nat} {bytes rest : List UInt8} (read : readLe size bytes = some (value, rest)) :
    size ≤ bytes.length ∧ value = ofLe (bytes.take size) ∧ rest = bytes.drop size := by
  unfold readLe at read
  split at read
  · cases read
  · cases read
    exact ⟨by omega, rfl, rfl⟩

theorem readAll_succ_some {size count : Nat} {bytes rest : List UInt8} {values : List Nat}
    (read : readAll size (count + 1) bytes = some (values, rest)) :
    ∃ value middle others, readLe size bytes = some (value, middle) ∧ readAll size count middle = some (others, rest) ∧
      values = value :: others := by
  cases first : readLe size bytes with
  | none => simp [readAll, first] at read
  | some value =>
    cases following : readAll size count value.2 with
    | none => simp [readAll, first, following] at read
    | some remaining =>
      simp only [readAll, first, following, Option.bind_eq_bind, Option.bind_some, Option.pure_def, Option.some.injEq,
        Prod.mk.injEq] at read
      exact ⟨value.1, value.2, remaining.1, rfl, by rw [following, ← read.2], read.1.symm⟩

theorem readAll_some {size count : Nat} {bytes rest : List UInt8} {values : List Nat}
    (read : readAll size count bytes = some (values, rest)) :
    values.length = count ∧ size * count ≤ bytes.length ∧ rest = bytes.drop (size * count) := by
  induction count generalizing bytes values with
  | zero =>
    cases read
    exact ⟨rfl, Nat.zero_le _, rfl⟩
  | succ count ih =>
    obtain ⟨value, middle, others, first, following, rfl⟩ := readAll_succ_some read
    obtain ⟨room, -, rfl⟩ := readLe_some first
    obtain ⟨length, following_room, rest_eq⟩ := ih following
    rw [List.length_drop] at following_room
    rw [List.length_cons, length, Nat.mul_succ, rest_eq, List.drop_drop]
    exact ⟨rfl, by omega, by rw [Nat.add_comm]⟩

theorem decodeKey_some {strings : List UInt8} {first last : Nat} {key : String}
    (read : decodeKey strings (first, last) = some key) :
    last = first + (textBytes key).length ∧ last ≤ strings.length ∧
      slice first (textBytes key).length strings = textBytes key := by
  unfold decodeKey at read
  split at read
  case isFalse => cases read
  case isTrue within =>
    have bytes := textBytes_of_readText read
    have length : (textBytes key).length = last - first := by
      rw [bytes, slice, List.length_take, List.length_drop]
      omega
    refine ⟨by omega, within.2, ?_⟩
    rw [length, bytes]

theorem mapM_cons_some {α β : Type} {f : α → Option β} {item : α} {rest : List α} {result : β} {results : List β}
    (mapped : (item :: rest).mapM f = some (result :: results)) : f item = some result ∧ rest.mapM f = some results := by
  rw [List.mapM_cons] at mapped
  cases first : f item with
  | none => simp [first] at mapped
  | some found =>
    cases others : rest.mapM f with
    | none => simp [first, others] at mapped
    | some remaining => simpa [first, others] using mapped

theorem runningOffsets_mod_total {modulus : Nat} {keys : List String} {strings : List UInt8} {start : Nat}
    (read : (((runningOffsets start (keys.map textBytes)).map (· % modulus)).zip
      ((runningOffsets start (keys.map textBytes)).map (· % modulus)).tail).mapM (decodeKey strings) = some keys) :
    (start + keyBytes keys) % modulus = start % modulus + keyBytes keys := by
  induction keys generalizing start with
  | nil => rfl
  | cons key keys ih =>
    rw [← List.map_tail, List.zip_map, List.map_cons, runningOffsets_zip_cons, List.map_cons] at read
    obtain ⟨first, others⟩ := mapM_cons_some read
    rw [← List.zip_map, List.map_tail] at others
    have last : (start + (textBytes key).length) % modulus = start % modulus + (textBytes key).length :=
      (decodeKey_some first).1
    have rest := ih others
    have total : keyBytes (key :: keys) = (textBytes key).length + keyBytes keys := by
      rw [keyBytes, List.map_cons, List.sum_cons, keyBytes]
    rw [total, ← Nat.add_assoc, rest, last, Nat.add_assoc]

theorem fitting_of_decodeMetadata {keys decoded : List String} {bytes : List UInt8}
    (written : encodeDictionaryMetadata keys = .ok bytes) (read : decodeMetadata bytes = some decoded)
    (same : ∀ (id : Nat) key, keys[id]? = some key → decoded[id]? = some key) :
    max (keyBytes keys) keys.length ≤ u32Max := by
  have valid : IsDictionarySize (metadataSize keys) := dictionaryOffsetSize_isDictionarySize _
  have positive : 0 < 256 ^ metadataSize keys := Nat.pow_pos (by decide)
  have top : 256 ^ metadataSize keys ≤ u32Max + 1 := by
    rcases valid with size | size | size | size <;> rw [size] <;> decide
  rw [decodeMetadata_written written] at read
  obtain ⟨⟨values, strings⟩, offsets, found⟩ := Option.bind_eq_some_iff.mp read
  have valuesLength := (readAll_some offsets).1
  have decodedLength := mapM_some_length found
  simp only [List.length_zip, List.length_tail] at decodedLength
  -- A count that lost a byte would leave the last key without a number.
  have countFits : keys.length < 256 ^ metadataSize keys := by
    have low := Nat.mod_lt keys.length positive
    by_contra large
    have exists_last : keys.length - 1 < keys.length := by omega
    have present := (List.getElem?_eq_some_iff.mp (same _ _ (List.getElem?_eq_getElem exists_last))).1
    omega
  rw [Nat.mod_eq_of_lt countFits] at offsets valuesLength
  have all := readAll_toLe (metadataSize keys) (runningOffsets 0 (keys.map textBytes)) (keys.flatMap textBytes)
  rw [runningOffsets_length, List.length_map, offsets] at all
  cases all
  have decodedKeys : decoded = keys := by
    apply List.ext_getElem?
    intro id
    by_cases within : id < keys.length
    · have here := List.getElem?_eq_getElem within
      rw [same id _ here, here]
    · rw [List.getElem?_eq_none (by omega), List.getElem?_eq_none (by omega)]
  rw [decodedKeys] at found
  have total := runningOffsets_mod_total found
  have below := Nat.mod_lt (0 + keyBytes keys) positive
  omega

theorem readOffsets_of_readAll {metadata rest : List UInt8} {size count pos : Nat} {values : List Nat}
    (within : pos ≤ metadata.length) (read : readAll size count (metadata.drop pos) = some (values, rest)) :
    readOffsets metadata size count pos = some (values, pos + size * count) := by
  induction count generalizing pos values with
  | zero =>
    cases read
    rfl
  | succ count ih =>
    obtain ⟨value, middle, others, first, following, rfl⟩ := readAll_succ_some read
    obtain ⟨room, rfl, rfl⟩ := readLe_some first
    rw [List.length_drop] at room
    rw [List.drop_drop] at following
    have end_eq : pos + size + size * count = pos + size * (count + 1) := by rw [Nat.mul_succ]; omega
    rw [readOffsets, if_neg (by omega), ih (by omega) following, end_eq]
    rfl

theorem readKeys_of_decodeKey {metadata : List UInt8} {pos : Nat} (within : pos ≤ metadata.length)
    {ranges : List (Nat × Nat)} {keys : List String}
    (read : ranges.mapM (decodeKey (metadata.drop pos)) = some keys) (before : List String) :
    readKeys metadata pos ranges before = some (before ++ keys) := by
  induction ranges generalizing keys before with
  | nil =>
    cases read
    rw [readKeys, List.reverse_nil, List.append_nil]
  | cons range ranges ih =>
    obtain ⟨key, others, rfl⟩ : ∃ key others, keys = key :: others := by
      have length := mapM_some_length read
      exact List.exists_cons_of_length_eq_add_one length
    obtain ⟨first, following⟩ := mapM_cons_some read
    obtain ⟨last_eq, room, bytes⟩ := decodeKey_some first
    rw [List.length_drop] at room
    have text : String.fromUTF8? ⟨(slice (pos + range.1) (range.2 - range.1) metadata).toArray⟩ = some key := by
      have same : slice (pos + range.1) (range.2 - range.1) metadata = textBytes key := by
        rw [← bytes, slice, slice, List.drop_drop, last_eq, Nat.add_sub_cancel_left]
      rw [same]
      exact readText_textBytes key
    rw [readKeys, if_neg (by omega), if_neg (by omega), text]
    have remaining := ih following (before ++ [key])
    rw [List.append_assoc] at remaining
    exact remaining

theorem sizeBits_eq (header : UInt8) : ((header >>> 6) &&& 0x03).toNat = (header >>> (6 : UInt8)).toNat := by
  have small : (header >>> (6 : UInt8)).toNat < 4 := by
    have bound := UInt8.toNat_lt header
    rw [UInt8.toNat_shiftRight, Nat.shiftRight_eq_div_pow]
    have six : (6 : UInt8).toNat % 8 = 6 := rfl
    rw [six]
    omega
  rw [UInt8.toNat_and]
  have mask : (0x03 : UInt8).toNat = 2 ^ 2 - 1 := rfl
  rw [mask, Nat.and_two_pow_sub_one_eq_mod, Nat.mod_eq_of_lt small]

theorem parseDictionaryKeys_of_decodeMetadata {metadata : List UInt8} {keys : List String}
    (read : decodeMetadata metadata = some keys) : parseDictionaryKeys metadata = some keys := by
  cases metadata with
  | nil => cases read
  | cons header rest =>
    rw [decodeMetadata] at read
    split at read
    case isTrue => cases read
    case isFalse version =>
      obtain ⟨⟨count, middle⟩, counted, read⟩ := Option.bind_eq_some_iff.mp read
      obtain ⟨⟨offsets, strings⟩, listed, found⟩ := Option.bind_eq_some_iff.mp read
      obtain ⟨room, count_eq, rfl⟩ := readLe_some counted
      obtain ⟨length, offsetsRoom, rfl⟩ := readAll_some listed
      have countRead : ofLe (slice 1 ((header >>> (6 : UInt8)).toNat + 1) (header :: rest)) = count := count_eq.symm
      simp only [parseDictionaryKeys, sizeBits_eq, if_neg version, countRead]
      rw [if_neg (by rw [List.length_cons]; omega)]
      by_cases empty : count = 0
      · subst empty
        obtain ⟨only, rfl⟩ := List.length_eq_one_iff.mp length
        cases found
        rfl
      · rw [if_neg empty]
        have position : rest.drop ((header >>> (6 : UInt8)).toNat + 1) =
            (header :: rest).drop (1 + ((header >>> (6 : UInt8)).toNat + 1)) := by
          rw [Nat.add_comm 1, List.drop_succ_cons]
        rw [position] at listed offsetsRoom
        dsimp only at found
        rw [position, List.drop_drop] at found
        rw [List.length_drop] at offsetsRoom
        rw [readOffsets_of_readAll (by rw [List.length_cons]; omega) listed]
        exact readKeys_of_decodeKey (by rw [List.length_cons] at offsetsRoom ⊢; omega) found []

end OtelDatalake.Parquet
