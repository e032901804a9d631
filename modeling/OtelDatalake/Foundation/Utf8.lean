import Mathlib.Data.List.Basic

namespace OtelDatalake.Foundation

def utf8 (text : List Char) : List UInt8 := text.flatMap String.utf8EncodeChar

def decodeUtf8 (bytes : List UInt8) : Option (List Char) := bytes.toByteArray.utf8Decode?.map Array.toList

theorem decodeUtf8_utf8 (text : List Char) : decodeUtf8 (utf8 text) = some text := by
  have decoded : (utf8 text).toByteArray.utf8Decode? = some text.toArray := List.utf8Decode?_utf8Encode
  rw [decodeUtf8, decoded]
  rfl

theorem utf8_inj {left right : List Char} : utf8 left = utf8 right ↔ left = right := by
  refine ⟨fun same => ?_, fun same => same ▸ rfl⟩
  have decoded := decodeUtf8_utf8 left
  rw [same, decodeUtf8_utf8 right] at decoded
  exact (Option.some.inj decoded).symm

theorem utf8_injective : Function.Injective utf8 := fun _ _ => utf8_inj.mp

theorem utf8_cons (c : Char) (text : List Char) : utf8 (c :: text) = String.utf8EncodeChar c ++ utf8 text := rfl

theorem utf8_append (left right : List Char) : utf8 (left ++ right) = utf8 left ++ utf8 right :=
  List.flatMap_append

theorem utf8_flatMap {α : Type} (items : List α) (spell : α → List Char) :
    utf8 (items.flatMap spell) = items.flatMap fun item => utf8 (spell item) :=
  List.flatMap_assoc

theorem utf8EncodeChar_low {c : Char} (low : c.toNat < 128) : String.utf8EncodeChar c = [UInt8.ofNat c.toNat] := by
  have small : c.val.toNat ≤ 0x7f := by
    have same : c.val.toNat = c.toNat := rfl
    omega
  rw [String.utf8EncodeChar]
  exact if_pos small

theorem utf8_of_low {text : List Char} (low : ∀ c ∈ text, c.toNat < 128) :
    utf8 text = text.map fun c => UInt8.ofNat c.toNat := by
  induction text with
  | nil => rfl
  | cons c text ih =>
    obtain ⟨own, others⟩ := List.forall_mem_cons.mp low
    rw [utf8_cons, utf8EncodeChar_low own, ih others]
    rfl

/-- Texts that first differ in a character of ASCII stand in the order of these two, byte by byte. -/
theorem utf8_lt_of_split {shared left right : List Char} {low high : Char} (less : low < high)
    (ascii : high.toNat < 128) : utf8 (shared ++ low :: left) < utf8 (shared ++ high :: right) := by
  have values : low.toNat < high.toNat := UInt32.lt_iff_toNat_lt.mp less
  rw [utf8_append, utf8_append, utf8_cons, utf8_cons, utf8EncodeChar_low (Nat.lt_trans values ascii),
    utf8EncodeChar_low ascii]
  apply List.append_left_lt
  rw [List.singleton_append, List.singleton_append, List.cons_lt_cons_iff]
  left
  rw [UInt8.lt_iff_toNat_lt, UInt8.toNat_ofNat', UInt8.toNat_ofNat']
  omega

theorem utf8EncodeChar_high {c : Char} (high : 128 ≤ c.toNat) : ∀ byte ∈ String.utf8EncodeChar c, 128 ≤ byte := by
  have large : ¬c.val.toNat ≤ 0x7f := by
    have same : c.val.toNat = c.toNat := rfl
    omega
  have bound (n : Nat) (lower : 128 ≤ n) (upper : n < 256) : (128 : UInt8) ≤ UInt8.ofNat n := by
    rw [UInt8.le_iff_toNat_le, UInt8.toNat_ofNat', Nat.mod_eq_of_lt upper]
    exact lower
  rw [String.utf8EncodeChar, if_neg large]
  split
  · intro byte member
    simp only [List.mem_cons, List.not_mem_nil, or_false] at member
    rcases member with rfl | rfl <;> exact bound _ (by omega) (by omega)
  · split
    · intro byte member
      simp only [List.mem_cons, List.not_mem_nil, or_false] at member
      rcases member with rfl | rfl | rfl <;> exact bound _ (by omega) (by omega)
    · intro byte member
      simp only [List.mem_cons, List.not_mem_nil, or_false] at member
      rcases member with rfl | rfl | rfl | rfl <;> exact bound _ (by omega) (by omega)

end OtelDatalake.Foundation
