import OtelDatalake.Foundation.Text
import OtelDatalake.Buffer.Inner

open OtelDatalake.Foundation OtelDatalake.Buffer

namespace OtelDatalake.StarRocks

def maxStreamLoadLabelLen : Nat := 128

def isLabelChar (c : Char) : Bool := c.isAlphanum || c == '_' || c == '-'

def sanitizeChar (c : Char) : Char := if isLabelChar c then c else '_'

def signalName : SignalKind → List Char
  | .logs => "logs".toList
  | .metrics => "metrics".toList
  | .traces => "traces".toList

/-- `_{instance_id:016x}_{signal}_{first_seq}_{last_seq}` -/
def labelSuffix (id : LeaseId) : List Char :=
  '_' :: hexDigits 16 id.instanceId ++ '_' :: (signalName id.signal ++ '_' :: (Nat.toDigits 10 id.firstSeq ++
    '_' :: Nat.toDigits 10 id.lastSeq))

/-- `format_lease_label`; `digest` is the number that the first eight bytes of the SHA-256 digest of a table name
    spell. -/
def formatLeaseLabel (digest : List Char → Nat) (table : List Char) (id : LeaseId) : List Char :=
  let suffix := labelSuffix id
  let sanitizedTable := table.map sanitizeChar
  let candidate := "dl_".toList ++ sanitizedTable ++ suffix
  if candidate.length ≤ maxStreamLoadLabelLen ∧ sanitizedTable = table then candidate
  else
    let overhead := 3 + 1 + 16 + suffix.length
    let maxPrefixLen := maxStreamLoadLabelLen - overhead
    let prefixLen := min sanitizedTable.length maxPrefixLen
    "dl_".toList ++ sanitizedTable.take prefixLen ++ '_' :: hexDigits 16 (digest table) ++ suffix

def formatAttemptLeaseLabel (baseLabel : List Char) (attempt : Nat) : List Char :=
  let suffix := '_' :: 'a' :: Nat.toDigits 10 (max attempt 1)
  let maxBaseLen := maxStreamLoadLabelLen - suffix.length
  baseLabel.take (min baseLabel.length maxBaseLen) ++ suffix

/-- The label under which `send_v1` and `send_v2` load with a fallback index. -/
def activeLabel (label : List Char) (fallbackIdx : Nat) : List Char :=
  if fallbackIdx = 0 then label else formatAttemptLeaseLabel label fallbackIdx

/-- The numbers of a lease are `u64`. -/
def InRange (id : LeaseId) : Prop := id.instanceId ≤ u64Max ∧ id.firstSeq ≤ u64Max ∧ id.lastSeq ≤ u64Max

instance (id : LeaseId) : Decidable (InRange id) := inferInstanceAs (Decidable (_ ∧ _ ∧ _))

/-- A label that the server accepts. -/
def LegalLabel (label : List Char) : Prop :=
  label.length ≤ maxStreamLoadLabelLen ∧ ∀ c ∈ label, isLabelChar c = true

/-- Every label of a table is legal, and no two attempts of two leases share one. -/
def LegalAndDistinct (digest : List Char → Nat) (table : List Char) : Prop :=
  (∀ id attempt, InRange id → attempt ≤ u32Max → LegalLabel (activeLabel (formatLeaseLabel digest table id) attempt)) ∧
  ∀ id other attempt again, InRange id → InRange other → attempt ≤ u32Max → again ≤ u32Max →
    activeLabel (formatLeaseLabel digest table id) attempt = activeLabel (formatLeaseLabel digest table other) again →
    id = other ∧ attempt = again

/-- The length that a table takes in a label that is not cut: its own and that of its digest if it has one. -/
def tableLength (table : List Char) : Nat :=
  table.length + if table.all isLabelChar then 0 else 17

section Characters

theorem digit_labelChar {c : Char} (digit : c.isDigit = true) : isLabelChar c = true := by
  simp [isLabelChar, Char.isAlphanum, digit]

theorem digitChar_labelChar {n : Nat} (bound : n < 16) :
    isLabelChar (Nat.digitChar n) = true ∧ Nat.digitChar n ≠ '_' := by
  have all : ∀ n < 16, isLabelChar (Nat.digitChar n) = true ∧ Nat.digitChar n ≠ '_' := by decide
  exact all n bound

theorem hexDigits_labelChar {width n : Nat} : ∀ c ∈ hexDigits width n, isLabelChar c = true ∧ c ≠ '_' := by
  induction width generalizing n with
  | zero => simp [hexDigits]
  | succ width ih =>
    intro c member
    rcases List.mem_append.mp member with high | low
    · exact ih c high
    · rw [List.mem_singleton.mp low]
      exact digitChar_labelChar (Nat.mod_lt n (by decide))

theorem toDigits_labelChar {n : Nat} : ∀ c ∈ Nat.toDigits 10 n, isLabelChar c = true :=
  fun _ member => digit_labelChar (Nat.isDigit_of_mem_toDigits (by decide) (by decide) member)

theorem signalName_labelChar (signal : SignalKind) :
    (∀ c ∈ signalName signal, isLabelChar c = true) ∧ '_' ∉ signalName signal := by
  have checked : (signalName signal).all (fun c => isLabelChar c && c != '_') = true := by
    cases signal <;> rfl
  have each := List.all_eq_true.mp checked
  constructor
  · intro c member
    exact (Bool.and_eq_true_iff.mp (each c member)).1
  · intro member
    exact absurd (each '_' member) (by decide)

theorem signalName_inj {left right : SignalKind} (same : signalName left = signalName right) : left = right := by
  cases left <;> cases right <;> first | rfl | (revert same; decide)

theorem sanitizeChar_labelChar (c : Char) : isLabelChar (sanitizeChar c) = true := by
  unfold sanitizeChar
  split
  · assumption
  · decide

theorem map_sanitizeChar_eq (table : List Char) : table.map sanitizeChar = table ↔ table.all isLabelChar = true := by
  have pointwise : table.map sanitizeChar = table ↔ ∀ c ∈ table, sanitizeChar c = id c := by
    rw [← List.map_inj_left, List.map_id]
  rw [pointwise, List.all_eq_true]
  constructor
  · intro same c member
    rw [← id_eq c, ← same c member]
    exact sanitizeChar_labelChar c
  · intro safe c member
    rw [sanitizeChar, if_pos (safe c member), id]

end Characters

section Lengths

theorem toDigits_length {n k : Nat} (positive : 0 < k) (bound : n < 10 ^ k) : (Nat.toDigits 10 n).length ≤ k :=
  (Nat.length_toDigits_le_iff (by decide) positive).mpr bound

theorem labelSuffix_length {id : LeaseId} (range : InRange id) : (labelSuffix id).length ≤ 67 := by
  have name : (signalName id.signal).length ≤ 7 := by cases id.signal <;> decide
  have firstSeq : (Nat.toDigits 10 id.firstSeq).length ≤ 20 :=
    toDigits_length (by decide) (range.2.1.trans_lt (by decide))
  have lastSeq : (Nat.toDigits 10 id.lastSeq).length ≤ 20 :=
    toDigits_length (by decide) (range.2.2.trans_lt (by decide))
  simp only [labelSuffix, List.length_append, List.length_cons, hexDigits_length]
  omega

def labelHead (digest : List Char → Nat) (table : List Char) (suffixLength : Nat) : List Char :=
  let sanitizedTable := table.map sanitizeChar
  if 3 + table.length + suffixLength ≤ maxStreamLoadLabelLen ∧ sanitizedTable = table then
    "dl_".toList ++ table
  else
    "dl_".toList ++ sanitizedTable.take (min table.length (maxStreamLoadLabelLen - (20 + suffixLength))) ++
      '_' :: hexDigits 16 (digest table)

theorem formatLeaseLabel_eq (digest : List Char → Nat) (table : List Char) (id : LeaseId) :
    formatLeaseLabel digest table id = labelHead digest table (labelSuffix id).length ++ labelSuffix id := by
  have opening : "dl_".toList.length = 3 := by decide
  simp only [formatLeaseLabel, labelHead, List.length_append, List.length_map, opening]
  split
  · rename_i short
    rw [short.2]
  · simp only [List.append_assoc]

theorem labelHead_length (digest : List Char → Nat) (table : List Char) (suffixLength : Nat) :
    (labelHead digest table suffixLength).length =
      if 3 + table.length + suffixLength ≤ 128 ∧ table.all isLabelChar = true then 3 + table.length
      else 3 + min table.length (128 - (20 + suffixLength)) + 17 := by
  have opening : "dl_".toList.length = 3 := by decide
  unfold labelHead
  simp only [maxStreamLoadLabelLen, map_sanitizeChar_eq]
  split
  · rw [List.length_append, opening]
  · simp only [List.length_append, List.length_cons, List.length_take, List.length_map, hexDigits_length, opening]
    omega

theorem formatLeaseLabel_length {id : LeaseId} (digest : List Char → Nat) (table : List Char) (range : InRange id) :
    (formatLeaseLabel digest table id).length ≤ 128 ∧
      (formatLeaseLabel digest table id).length ≤ 70 + tableLength table := by
  have suffix := labelSuffix_length range
  have head := labelHead_length digest table (labelSuffix id).length
  rw [formatLeaseLabel_eq, List.length_append, head, tableLength]
  constructor
  · split <;> omega
  · split
    · rename_i short
      rw [if_pos short.2]
      omega
    · split <;> rename_i long safe
      · simp only [safe, and_true] at long
        omega
      · omega

end Lengths

section Legal

theorem labelSuffix_legal (id : LeaseId) : ∀ c ∈ labelSuffix id, isLabelChar c = true := by
  have separator : ∀ c, c = '_' → isLabelChar c = true := by
    rintro _ rfl
    decide
  simp only [labelSuffix, List.cons_append, List.mem_cons, List.mem_append, or_imp, forall_and]
  exact ⟨separator, fun c member => (hexDigits_labelChar c member).1, separator, (signalName_labelChar id.signal).1,
    separator, toDigits_labelChar, separator, toDigits_labelChar⟩

theorem formatLeaseLabel_legal (digest : List Char → Nat) (table : List Char) (id : LeaseId) :
    ∀ c ∈ formatLeaseLabel digest table id, isLabelChar c = true := by
  have opening : ∀ c ∈ "dl_".toList, isLabelChar c = true := List.all_eq_true.mp rfl
  rw [formatLeaseLabel_eq]
  intro c member
  rcases List.mem_append.mp member with head | suffix
  · unfold labelHead at head
    simp only at head
    split at head
    · rename_i short
      rcases List.mem_append.mp head with front | name
      · exact opening c front
      · exact List.all_eq_true.mp ((map_sanitizeChar_eq table).mp short.2) c name
    · rcases List.mem_append.mp head with front | digits
      · rcases List.mem_append.mp front with front | name
        · exact opening c front
        · obtain ⟨original, _, rfl⟩ := List.mem_map.mp (List.mem_of_mem_take name)
          exact sanitizeChar_labelChar original
      · rcases List.mem_cons.mp digits with rfl | digit
        · decide
        · exact (hexDigits_labelChar c digit).1
  · exact labelSuffix_legal id c suffix

theorem activeLabel_legal {label : List Char} {attempt : Nat} (legal : LegalLabel label) (bound : attempt ≤ u32Max) :
    LegalLabel (activeLabel label attempt) := by
  unfold activeLabel
  split
  · exact legal
  · have digits : (Nat.toDigits 10 (max attempt 1)).length ≤ 10 :=
      toDigits_length (by decide) (by unfold u32Max at bound; omega)
    constructor
    · simp only [formatAttemptLeaseLabel, List.length_append, List.length_take, List.length_cons, maxStreamLoadLabelLen]
      omega
    · intro c member
      rcases List.mem_append.mp member with base | suffix
      · exact legal.2 c (List.mem_of_mem_take base)
      · rcases List.mem_cons.mp suffix with rfl | suffix
        · decide
        · rcases List.mem_cons.mp suffix with rfl | digit
          · decide
          · exact toDigits_labelChar c digit

end Legal

section Distinct

variable {id other : LeaseId}

theorem digit_ne {c : Char} (other : Char) {n : Nat} (digit : c ∈ Nat.toDigits 10 n) (letter : other.isDigit = false) :
    c ≠ other := by
  rintro rfl
  rw [Nat.isDigit_of_mem_toDigits (by decide) (by decide) digit] at letter
  cases letter

theorem underscore_not_mem_toDigits (n : Nat) : '_' ∉ Nat.toDigits 10 n :=
  fun member => digit_ne '_' member (by decide) rfl

theorem labelSuffix_inj {left right : List Char} (range : InRange id) (otherRange : InRange other)
    (same : left ++ labelSuffix id = right ++ labelSuffix other) : id = other := by
  simp only [labelSuffix, List.cons_append] at same
  have split : ∀ (front : List Char) (id : LeaseId), front ++ '_' :: (hexDigits 16 id.instanceId ++
      '_' :: (signalName id.signal ++ '_' :: (Nat.toDigits 10 id.firstSeq ++ '_' :: Nat.toDigits 10 id.lastSeq))) =
      (((front ++ '_' :: hexDigits 16 id.instanceId) ++ '_' :: signalName id.signal) ++
        '_' :: Nat.toDigits 10 id.firstSeq) ++ '_' :: Nat.toDigits 10 id.lastSeq := by
    intro front id
    simp only [List.append_assoc, List.cons_append]
  rw [split left id, split right other] at same
  have separate : ∀ n, '_' ∉ hexDigits 16 n := fun n member => (hexDigits_labelChar '_' member).2 rfl
  obtain ⟨same, lastSeq⟩ := append_separator_inj (underscore_not_mem_toDigits _) (underscore_not_mem_toDigits _) same
  obtain ⟨same, firstSeq⟩ := append_separator_inj (underscore_not_mem_toDigits _) (underscore_not_mem_toDigits _) same
  obtain ⟨same, signal⟩ := append_separator_inj (signalName_labelChar _).2 (signalName_labelChar _).2 same
  obtain ⟨_, instanceId⟩ := append_separator_inj (separate _) (separate _) same
  have instances : id.instanceId = other.instanceId :=
    hexDigits_injOn (range.1.trans_lt (by decide)) (otherRange.1.trans_lt (by decide)) instanceId
  have signals := signalName_inj signal
  have firsts := toDigits_ten_inj firstSeq
  have lasts := toDigits_ten_inj lastSeq
  cases id
  cases other
  simp_all

theorem formatLeaseLabel_last (digest : List Char → Nat) (table : List Char) (id : LeaseId) :
    ∃ front, formatLeaseLabel digest table id = front ++ '_' :: Nat.toDigits 10 id.lastSeq := by
  rw [formatLeaseLabel_eq, labelSuffix]
  refine ⟨labelHead digest table (labelSuffix id).length ++ ('_' :: hexDigits 16 id.instanceId ++
    '_' :: (signalName id.signal ++ '_' :: Nat.toDigits 10 id.firstSeq)), ?_⟩
  simp only [labelSuffix, List.append_assoc, List.cons_append]

theorem formatAttemptLeaseLabel_whole {label : List Char} {attempt : Nat} (short : label.length ≤ 116)
    (bound : attempt ≤ u32Max) (retry : attempt ≠ 0) :
    formatAttemptLeaseLabel label attempt = label ++ '_' :: 'a' :: Nat.toDigits 10 attempt := by
  have positive : max attempt 1 = attempt := by omega
  have digits : (Nat.toDigits 10 attempt).length ≤ 10 :=
    toDigits_length (by decide) (by unfold u32Max at bound; omega)
  simp only [formatAttemptLeaseLabel, positive, List.length_cons, maxStreamLoadLabelLen]
  rw [List.take_of_length_le (by omega)]

theorem attemptMark_not_mem (n : Nat) : '_' ∉ 'a' :: Nat.toDigits 10 n := by
  intro member
  rcases List.mem_cons.mp member with letter | digit
  · revert letter
    decide
  · exact underscore_not_mem_toDigits n digit

theorem toDigits_ne_attemptMark (n attempt : Nat) : Nat.toDigits 10 n ≠ 'a' :: Nat.toDigits 10 attempt := by
  intro same
  have member : 'a' ∈ Nat.toDigits 10 n := by rw [same]; exact List.mem_cons_self
  exact digit_ne 'a' member (by decide) rfl

theorem activeLabel_inj {digest : List Char → Nat} {table : List Char} {attempt again : Nat}
    (short : tableLength table ≤ 46) (range : InRange id) (otherRange : InRange other) (bound : attempt ≤ u32Max)
    (otherBound : again ≤ u32Max)
    (same : activeLabel (formatLeaseLabel digest table id) attempt =
      activeLabel (formatLeaseLabel digest table other) again) : id = other ∧ attempt = again := by
  have whole : ∀ {id : LeaseId}, InRange id → (formatLeaseLabel digest table id).length ≤ 116 := by
    intro id range
    have length := (formatLeaseLabel_length digest table range).2
    omega
  have inj : formatLeaseLabel digest table id = formatLeaseLabel digest table other → id = other := by
    intro same
    rw [formatLeaseLabel_eq, formatLeaseLabel_eq] at same
    exact labelSuffix_inj range otherRange same
  obtain ⟨front, base⟩ := formatLeaseLabel_last digest table id
  obtain ⟨otherFront, otherBase⟩ := formatLeaseLabel_last digest table other
  by_cases first : attempt = 0
  · by_cases second : again = 0
    · rw [activeLabel, activeLabel, if_pos first, if_pos second] at same
      exact ⟨inj same, first.trans second.symm⟩
    · rw [activeLabel, activeLabel, if_pos first, if_neg second,
        formatAttemptLeaseLabel_whole (whole otherRange) otherBound second, base] at same
      have marks := append_separator_inj (underscore_not_mem_toDigits _) (attemptMark_not_mem _) same
      exact absurd marks.2 (toDigits_ne_attemptMark _ _)
  · by_cases second : again = 0
    · rw [activeLabel, activeLabel, if_neg first, if_pos second,
        formatAttemptLeaseLabel_whole (whole range) bound first, otherBase] at same
      have marks := append_separator_inj (attemptMark_not_mem _) (underscore_not_mem_toDigits _) same
      exact absurd marks.2.symm (toDigits_ne_attemptMark _ _)
    · rw [activeLabel, activeLabel, if_neg first, if_neg second,
        formatAttemptLeaseLabel_whole (whole range) bound first,
        formatAttemptLeaseLabel_whole (whole otherRange) otherBound second] at same
      obtain ⟨bases, marks⟩ := append_separator_inj (attemptMark_not_mem _) (attemptMark_not_mem _) same
      exact ⟨inj bases, toDigits_ten_inj (List.cons.inj marks).2⟩

end Distinct

/-- Two leases whose last numbers differ in the last of twenty digits. -/
def longLease (lastSeq : Nat) : LeaseId :=
  { instanceId := 0, signal := .metrics, firstSeq := 18446744073709551610, lastSeq := lastSeq }

theorem longLease_suffix : ∃ common : List Char, common.length = 66 ∧
    labelSuffix (longLease 18446744073709551614) = common ++ ['4'] ∧
    labelSuffix (longLease 18446744073709551615) = common ++ ['5'] :=
  ⟨(labelSuffix (longLease 18446744073709551614)).take 66, by decide, by decide, by decide⟩

/-- The labels of a table are legal and distinct exactly when the longest of them does not have to be cut. -/
theorem legalAndDistinct_iff (digest : List Char → Nat) (table : List Char) :
    LegalAndDistinct digest table ↔ tableLength table ≤ 46 := by
  constructor
  · intro ⟨_, distinct⟩
    by_contra long
    obtain ⟨common, length, first, second⟩ := longLease_suffix
    have head := labelHead_length digest table 67
    have enough : 116 ≤ (labelHead digest table 67 ++ common).length := by
      rw [List.length_append, length, head]
      unfold tableLength at long
      split
      · rename_i short
        rw [if_pos short.2] at long
        omega
      · split at long <;> rename_i cut safe
        · simp only [safe, and_true] at cut
          omega
        · omega
    have labels : ∀ lastSeq digit, labelSuffix (longLease lastSeq) = common ++ [digit] →
        activeLabel (formatLeaseLabel digest table (longLease lastSeq)) 4294967295 =
          (labelHead digest table 67 ++ common).take 116 ++ "_a4294967295".toList := by
      intro lastSeq digit suffix
      have mark : '_' :: 'a' :: Nat.toDigits 10 (max 4294967295 1) = "_a4294967295".toList := by decide
      have markLength : "_a4294967295".toList.length = 12 := by decide
      have suffixLength : (labelSuffix (longLease lastSeq)).length = 67 := by
        rw [suffix, List.length_append, length]
        rfl
      rw [activeLabel, if_neg (by decide), formatAttemptLeaseLabel, mark, markLength, formatLeaseLabel_eq, suffixLength,
        suffix, ← List.append_assoc]
      simp only [maxStreamLoadLabelLen, List.length_append, List.length_singleton] at enough ⊢
      rw [List.take_append_of_le_length (by simp only [List.length_append]; omega)]
      congr 2
      omega
    have same := (labels _ _ first).trans (labels _ _ second).symm
    have equal := distinct _ _ _ _ (by decide) (by decide) (by decide) (by decide) same
    exact absurd equal.1 (by decide)
  · intro short
    refine ⟨fun id attempt range bound => ?_, fun id other attempt again range otherRange bound otherBound same => ?_⟩
    · exact activeLabel_legal ⟨(formatLeaseLabel_length digest table range).1, formatLeaseLabel_legal digest table id⟩
        bound
    · exact activeLabel_inj short range otherRange bound otherBound same

/-- The first fallback labels of two leases of a table with a long name are the same. -/
theorem legalAndDistinct_collision : ¬LegalAndDistinct (fun _ => 0) (List.replicate 96 'a') := by
  intro ⟨_, distinct⟩
  have equal := distinct { instanceId := 7, signal := .logs, firstSeq := 1, lastSeq := 1000 }
    { instanceId := 7, signal := .logs, firstSeq := 1, lastSeq := 1001 } 1 1 (by decide) (by decide) (by decide)
    (by decide) (by decide +kernel)
  exact absurd equal.1 (by decide)

end OtelDatalake.StarRocks
