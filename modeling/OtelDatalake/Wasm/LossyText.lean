import OtelDatalake.Foundation.Utf8
import OtelDatalake.Wasm.Execution

open OtelDatalake.Foundation

namespace OtelDatalake.Wasm.Execution

theorem toNat_ofNat_small {n : Nat} (small : n < 256) : (UInt8.ofNat n).toNat = n := by
  rw [UInt8.toNat_ofNat', Nat.mod_eq_of_lt small]

theorem toNat_scalar (c : Char) : c.toNat < 0xD800 ∨ 0xDFFF < c.toNat ∧ c.toNat < 0x110000 := c.valid

theorem isContinuation_tail (n : Nat) : isContinuation (UInt8.ofNat (n % 0x40 + 0x80)) = true := by
  rw [isContinuation, toNat_ofNat_small (by omega)]
  simp only [Bool.and_eq_true, decide_eq_true_eq]
  omega

theorem isSecond_three {n : Nat} (lower : 0x800 ≤ n) (scalar : n < 0xD800 ∨ 0xDFFF < n) (upper : n ≤ 0xFFFF) :
    isSecond (UInt8.ofNat (n / 4096 % 0x10 + 0xe0)) (UInt8.ofNat (n / 64 % 0x40 + 0x80)) = true := by
  rw [isSecond, isContinuation, toNat_ofNat_small (by omega), toNat_ofNat_small (by omega)]
  split
  · simp only [Bool.and_eq_true, decide_eq_true_eq]
    omega
  · split
    · simp only [Bool.and_eq_true, decide_eq_true_eq]
      omega
    · rw [if_neg (by omega), if_neg (by omega)]
      simp only [Bool.and_eq_true, decide_eq_true_eq]
      omega

theorem isSecond_four {n : Nat} (lower : 0x10000 ≤ n) (upper : n < 0x110000) :
    isSecond (UInt8.ofNat (n / 262144 % 0x08 + 0xf0)) (UInt8.ofNat (n / 4096 % 0x40 + 0x80)) = true := by
  rw [isSecond, isContinuation, toNat_ofNat_small (by omega), toNat_ofNat_small (by omega)]
  rw [if_neg (by omega), if_neg (by omega)]
  split
  · simp only [Bool.and_eq_true, decide_eq_true_eq]
    omega
  · split
    · simp only [Bool.and_eq_true, decide_eq_true_eq]
      omega
    · simp only [Bool.and_eq_true, decide_eq_true_eq]
      omega

/-- The bytes of a character are read as one whole sequence, whatever follows them. -/
theorem utf8Chunk_encode (c : Char) (rest : List UInt8) :
    utf8Chunk (String.utf8EncodeChar c ++ rest) = ((String.utf8EncodeChar c).length, some c.toNat) := by
  have scalar := toNat_scalar c
  have same : c.val.toNat = c.toNat := rfl
  simp only [String.utf8EncodeChar, same]
  generalize c.toNat = n at scalar
  by_cases one : n ≤ 0x7f
  · simp only [if_pos one, List.cons_append, List.nil_append, utf8Chunk]
    rw [toNat_ofNat_small (by omega), if_pos (by omega)]
    rfl
  by_cases two : n ≤ 0x7ff
  · simp only [if_neg one, if_pos two, List.cons_append, List.nil_append, utf8Chunk, isContinuation_tail]
    rw [toNat_ofNat_small (by omega), toNat_ofNat_small (by omega), if_neg (by omega), if_pos (by omega), if_pos trivial]
    simp only [List.length_cons, List.length_nil, Prod.mk.injEq, Option.some.injEq, true_and]
    omega
  by_cases three : n ≤ 0xffff
  · have second := isSecond_three (n := n) (by omega) (by omega) three
    simp only [if_neg one, if_neg two, if_pos three, List.cons_append, List.nil_append, utf8Chunk, isContinuation_tail,
      second]
    rw [toNat_ofNat_small (by omega), toNat_ofNat_small (by omega), toNat_ofNat_small (by omega), if_neg (by omega),
      if_neg (by omega), if_pos (by omega), if_neg (by simp), if_neg (by simp), if_pos (by omega)]
    simp only [List.length_cons, List.length_nil, Prod.mk.injEq, Option.some.injEq, true_and]
    omega
  · have second := isSecond_four (n := n) (by omega) (by omega)
    simp only [if_neg one, if_neg two, if_neg three, List.cons_append, List.nil_append, utf8Chunk, isContinuation_tail,
      second]
    rw [toNat_ofNat_small (by omega), toNat_ofNat_small (by omega), toNat_ofNat_small (by omega),
      toNat_ofNat_small (by omega), if_neg (by omega), if_neg (by omega), if_pos (by omega), if_neg (by simp),
      if_neg (by simp), if_neg (by omega), if_pos trivial]
    simp only [List.length_cons, List.length_nil, Prod.mk.injEq, Option.some.injEq, true_and]
    omega

/-- The bytes of a character that has been cut off are read as one broken sequence. -/
theorem utf8Chunk_cut (c : Char) {count : Nat} (some' : 0 < count) (fewer : count < (String.utf8EncodeChar c).length) :
    utf8Chunk ((String.utf8EncodeChar c).take count) = (count, none) := by
  have scalar := toNat_scalar c
  have same : c.val.toNat = c.toNat := rfl
  simp only [String.utf8EncodeChar, same] at fewer ⊢
  generalize c.toNat = n at scalar fewer
  by_cases one : n ≤ 0x7f
  · simp only [if_pos one, List.length_cons, List.length_nil] at fewer
    omega
  by_cases two : n ≤ 0x7ff
  · simp only [if_neg one, if_pos two, List.length_cons, List.length_nil] at fewer ⊢
    obtain rfl : count = 1 := by omega
    simp only [List.take_succ_cons, List.take_zero, utf8Chunk]
    rw [toNat_ofNat_small (by omega), if_neg (by omega), if_pos (by omega)]
  by_cases three : n ≤ 0xffff
  · have second := isSecond_three (n := n) (by omega) (by omega) three
    simp only [if_neg one, if_neg two, if_pos three, List.length_cons, List.length_nil] at fewer ⊢
    obtain rfl | rfl : count = 1 ∨ count = 2 := by omega
    · simp only [List.take_succ_cons, List.take_zero, utf8Chunk]
      rw [toNat_ofNat_small (by omega), if_neg (by omega), if_neg (by omega), if_pos (by omega)]
    · simp only [List.take_succ_cons, List.take_zero, utf8Chunk, second]
      rw [toNat_ofNat_small (by omega), if_neg (by omega), if_neg (by omega), if_pos (by omega), if_neg (by simp)]
  · have second := isSecond_four (n := n) (by omega) (by omega)
    simp only [if_neg one, if_neg two, if_neg three, List.length_cons, List.length_nil] at fewer ⊢
    obtain rfl | rfl | rfl : count = 1 ∨ count = 2 ∨ count = 3 := by omega
    · simp only [List.take_succ_cons, List.take_zero, utf8Chunk]
      rw [toNat_ofNat_small (by omega), if_neg (by omega), if_neg (by omega), if_pos (by omega)]
    · simp only [List.take_succ_cons, List.take_zero, utf8Chunk, second]
      rw [toNat_ofNat_small (by omega), if_neg (by omega), if_neg (by omega), if_pos (by omega), if_neg (by simp)]
    · simp only [List.take_succ_cons, List.take_zero, utf8Chunk, second, isContinuation_tail]
      rw [toNat_ofNat_small (by omega), if_neg (by omega), if_neg (by omega), if_pos (by omega), if_neg (by simp),
        if_neg (by simp), if_neg (by omega)]

/-- A text of which at most `limit` bytes are read: a character that is cut off becomes one replacement character. -/
def capText : Nat → List Char → List Char
  | _, [] => []
  | limit, c :: text =>
    let width := (String.utf8EncodeChar c).length
    if width ≤ limit then c :: capText (limit - width) text
    else if limit = 0 then [] else [Char.ofNat 0xFFFD]

theorem utf8EncodeChar_pos (c : Char) : 0 < (String.utf8EncodeChar c).length := by
  rw [String.utf8EncodeChar]
  split
  · exact Nat.zero_lt_one
  · split
    · exact Nat.zero_lt_succ _
    · split <;> exact Nat.zero_lt_succ _

theorem lossyChars_succ {bytes : List UInt8} (fuel : Nat) (nonempty : 0 < bytes.length) :
    lossyChars (fuel + 1) bytes =
      ((utf8Chunk bytes).2.map Char.ofNat).getD (Char.ofNat 0xFFFD) ::
        lossyChars fuel (bytes.drop (utf8Chunk bytes).1) := by
  cases bytes with
  | nil => cases nonempty
  | cons byte bytes => rfl

theorem lossyChars_take (text : List Char) (limit fuel : Nat) (enough : ((utf8 text).take limit).length ≤ fuel) :
    lossyChars fuel ((utf8 text).take limit) = capText limit text := by
  induction text generalizing limit fuel with
  | nil => cases fuel <;> simp [utf8, lossyChars, capText]
  | cons c text ih =>
    have positive := utf8EncodeChar_pos c
    rw [utf8_cons] at enough ⊢
    rw [capText]
    by_cases fits : (String.utf8EncodeChar c).length ≤ limit
    · rw [if_pos fits]
      rw [List.take_append, List.take_of_length_le fits] at enough ⊢
      rw [List.length_append] at enough
      obtain ⟨less, rfl⟩ : ∃ less, fuel = less + 1 := ⟨fuel - 1, by omega⟩
      rw [lossyChars_succ less (by rw [List.length_append]; omega), utf8Chunk_encode, List.drop_left,
        ih _ less (by omega)]
      simp only [Option.map_some, Option.getD_some, Char.ofNat_toNat]
    · rw [if_neg fits]
      rw [List.take_append_of_le_length (by omega)] at enough ⊢
      by_cases blank : limit = 0
      · subst blank
        cases fuel <;> simp [lossyChars]
      · rw [if_neg blank]
        have kept : ((String.utf8EncodeChar c).take limit).length = limit := List.length_take_of_le (by omega)
        obtain ⟨less, rfl⟩ : ∃ less, fuel = less + 1 := ⟨fuel - 1, by omega⟩
        rw [lossyChars_succ less (by omega), utf8Chunk_cut c (by omega) (by omega), List.drop_eq_nil_of_le (by omega)]
        cases less <;> rfl

theorem capText_of_le {text : List Char} {limit : Nat} (fits : (utf8 text).length ≤ limit) :
    capText limit text = text := by
  induction text generalizing limit with
  | nil => rfl
  | cons c text ih =>
    rw [utf8_cons, List.length_append] at fits
    rw [capText, if_pos (by omega), ih (by omega)]

theorem utf8Chunk_pos (lead : UInt8) (rest : List UInt8) : 0 < (utf8Chunk (lead :: rest)).1 := by
  simp only [utf8Chunk]
  repeat' split
  all_goals exact Nat.zero_lt_succ _

theorem length_lossyChars (bytes : List UInt8) (fuel : Nat) : (lossyChars fuel bytes).length ≤ bytes.length := by
  induction fuel generalizing bytes with
  | zero => cases bytes <;> simp [lossyChars]
  | succ fuel ih =>
    cases bytes with
    | nil => simp [lossyChars]
    | cons lead rest =>
      have positive := utf8Chunk_pos lead rest
      have less := ih ((lead :: rest).drop (utf8Chunk (lead :: rest)).1)
      rw [lossyChars_succ fuel (by simp), List.length_cons]
      rw [List.length_drop, List.length_cons] at less
      rw [List.length_cons]
      omega

theorem decodeUtf8_eq_some {bytes : List UInt8} {text : List Char} : decodeUtf8 bytes = some text ↔ utf8 text = bytes := by
  constructor
  · intro decoded
    obtain ⟨chars, found, same⟩ := Option.map_eq_some_iff.mp decoded
    obtain ⟨spelled, encoded⟩ := ByteArray.isSome_utf8Decode?_iff.mp (Option.isSome_of_eq_some found)
    have data := congrArg ByteArray.data encoded
    have whole : bytes = utf8 spelled := by
      simpa [List.utf8Encode, utf8] using data
    rw [whole, decodeUtf8_utf8] at decoded
    rw [whole, Option.some.inj decoded]
  · rintro rfl
    exact decodeUtf8_utf8 text

end OtelDatalake.Wasm.Execution
