import Mathlib.Data.List.Basic
import Mathlib.Algebra.GroupWithZero.Nat

namespace OtelDatalake.Foundation

/-- The largest value of a 64-bit `usize`. -/
def usizeMax : Nat := 2 ^ 64 - 1

/-- No slice has more elements. -/
def isizeMax : Nat := 2 ^ 63 - 1

/-- The largest offset of an Arrow array with offsets of four bytes. -/
def i32Max : Nat := 2147483647

def saturatingAdd (bound left right : Nat) : Nat := min (left + right) bound

def checkedAdd (left right : Nat) : Option Nat := if left + right ≤ usizeMax then some (left + right) else none

/-- The `width` least significant bytes of a number, lowest first. -/
def toLe : Nat → Nat → List UInt8
  | 0, _ => []
  | width + 1, value => UInt8.ofNat value :: toLe width (value / 256)

def ofLe : List UInt8 → Nat
  | [] => 0
  | byte :: rest => byte.toNat + 256 * ofLe rest

@[simp] theorem toLe_length (width value : Nat) : (toLe width value).length = width := by
  induction width generalizing value with
  | zero => rfl
  | succ width ih => simp [toLe, ih]

theorem ofLe_toLe_mod (width value : Nat) : ofLe (toLe width value) = value % 256 ^ width := by
  induction width generalizing value with
  | zero => simp [toLe, ofLe, Nat.mod_one]
  | succ width ih =>
    have low : (UInt8.ofNat value).toNat = value % 256 := UInt8.toNat_ofNat'
    rw [toLe, ofLe, ih, low, Nat.pow_succ', Nat.mod_mul]

theorem toLe_take {width count : Nat} (fewer : count ≤ width) (value : Nat) :
    (toLe width value).take count = toLe count value := by
  induction count generalizing width value with
  | zero => simp [toLe]
  | succ count ih =>
    obtain ⟨rest, rfl⟩ : ∃ rest, width = rest + 1 := ⟨width - 1, by omega⟩
    rw [toLe, toLe, List.take_succ_cons, ih (by omega)]

theorem ofLe_toLe {width value : Nat} (fits : value < 256 ^ width) : ofLe (toLe width value) = value := by
  rw [ofLe_toLe_mod, Nat.mod_eq_of_lt fits]

theorem toLe_ofLe (bytes : List UInt8) : toLe bytes.length (ofLe bytes) = bytes := by
  induction bytes with
  | nil => rfl
  | cons byte rest ih =>
    have bound : byte.toNat < 256 := byte.toNat_lt
    have low : UInt8.ofNat (byte.toNat + 256 * ofLe rest) = byte := by
      apply UInt8.toNat_inj.mp
      rw [UInt8.toNat_ofNat']
      omega
    have high : (byte.toNat + 256 * ofLe rest) / 256 = ofLe rest := by omega
    rw [ofLe, List.length_cons, toLe, low, high, ih]

theorem ofLe_lt (bytes : List UInt8) : ofLe bytes < 256 ^ bytes.length := by
  induction bytes with
  | nil => exact Nat.zero_lt_one
  | cons byte rest ih =>
    have bound : byte.toNat < 256 := byte.toNat_lt
    rw [ofLe, List.length_cons, Nat.pow_succ]
    omega

def slice {α : Type} (start count : Nat) (bytes : List α) : List α := (bytes.drop start).take count

variable {α : Type}

theorem slice_append {before field after : List α} {start count : Nat} (starts : before.length = start)
    (counts : field.length = count) : slice start count (before ++ (field ++ after)) = field := by
  subst starts counts
  simp [slice]

theorem slice_flatMap {β : Type} {spell : β → List α} {width : Nat} (widths : ∀ item, (spell item).length = width)
    {items : List β} {index : Nat} {item : β} (found : items[index]? = some item) :
    slice (width * index) width (items.flatMap spell) = spell item := by
  obtain ⟨inside, rfl⟩ := List.getElem?_eq_some_iff.mp found
  have split : items = items.take index ++ items[index] :: items.drop (index + 1) := by
    rw [List.getElem_cons_drop, List.take_append_drop]
  have before : ((items.take index).flatMap spell).length = width * index := by
    rw [List.length_flatMap, List.map_congr_left fun item _ => widths item, List.map_const', List.sum_replicate_nat,
      List.length_take_of_le (Nat.le_of_lt inside), Nat.mul_comm]
  conv_lhs => rw [split, List.flatMap_append, List.flatMap_cons]
  exact slice_append before (widths _)

theorem flatMap_slice {width count : Nat} {values : List α} (whole : values.length = width * count) :
    ((List.range count).flatMap fun index => slice (width * index) width values) = values := by
  induction count generalizing values with
  | zero => exact (List.length_eq_zero_iff.mp whole).symm
  | succ count ih =>
    have shorter : (values.drop width).length = width * count := by
      rw [List.length_drop, whole, Nat.mul_succ, Nat.add_sub_cancel]
    have shifted (index : Nat) :
      slice (width * (index + 1)) width values = slice (width * index) width (values.drop width) := by
      rw [slice, slice, List.drop_drop, Nat.mul_succ, Nat.add_comm]
    rw [List.range_succ_eq_map, List.flatMap_cons, List.flatMap_map]
    simp only [shifted]
    rw [ih shorter, Nat.mul_zero, slice, List.drop_zero, List.take_append_drop]

theorem slice_slice {start count first length : Nat} (within : start + count ≤ length) (bytes : List α) :
    slice start count (slice first length bytes) = slice (first + start) count bytes := by
  unfold slice
  rw [List.drop_take, List.take_take, List.drop_drop, Nat.min_eq_left (by omega)]

end OtelDatalake.Foundation
