import Mathlib.Algebra.Order.Group.Nat
import Mathlib.Data.List.Induction
import Mathlib.Data.List.TakeDrop
import Mathlib.Data.Nat.Bitwise
import Mathlib.Tactic.Ring

/-! Fixed layouts of unsigned big-endian integers, as `struct.pack` and `struct.unpack` read a
format of such fields. -/

namespace DurableContext.ByteLayout

abbrev Bytes := List UInt8

/-- `b"..."` of ASCII characters. -/
def ascii (text : String) : Bytes := text.toList.map fun char => UInt8.ofNat char.toNat

/-- The last `width` bytes of a number. -/
def bigEndian : Nat → Nat → Bytes
  | 0, _ => []
  | width + 1, value => bigEndian width (value / 256) ++ [UInt8.ofNat value]

def number (bytes : Bytes) : Nat := bytes.foldl (fun high byte => high * 256 + byte.toNat) 0

/-- `data[start:stop]`. -/
def slice (data : Bytes) (start stop : Nat) : Bytes := (data.take stop).drop start

/-- `struct.pack_into`, and slice assignment of as many bytes. -/
def splice (data : Bytes) (start : Nat) (bytes : Bytes) : Bytes :=
  data.take start ++ bytes ++ data.drop (start + bytes.length)

/-- Whether one bit of a bitmap is set; the low bit of a byte comes first. -/
def hasBit (bitmap : Bytes) (bit : Nat) : Bool :=
  (bitmap.getD (bit / 8) 0).toNat &&& 1 <<< (bit % 8) != 0

def setBit (bitmap : Bytes) (bit : Nat) : Bytes :=
  bitmap.set (bit / 8) (UInt8.ofNat ((bitmap.getD (bit / 8) 0).toNat ||| 1 <<< (bit % 8)))

/-- Packs each value into its width, if it is in range. -/
def pack : List Nat → List Int → Option Bytes
  | [], [] => some []
  | width :: widths, value :: values =>
      if 0 ≤ value ∧ value < 256 ^ width then
        (pack widths values).map (bigEndian width value.toNat ++ ·)
      else none
  | _, _ => none

/-- Reads the values of these widths off bytes of exactly their total width. -/
def unpack : List Nat → Bytes → Option (List Int)
  | [], data => if data = [] then some [] else none
  | width :: widths, data =>
      if data.length < width then none
      else (unpack widths (data.drop width)).map (((number (data.take width) : Nat) : Int) :: ·)

@[simp] theorem length_bigEndian (width value : Nat) : (bigEndian width value).length = width := by
  induction width generalizing value with
  | zero => rfl
  | succ width ih => rw [bigEndian, List.length_append, ih, List.length_singleton]

theorem number_concat (bytes : Bytes) (byte : UInt8) :
    number (bytes ++ [byte]) = number bytes * 256 + byte.toNat := by
  rw [number, List.foldl_append]
  rfl

theorem number_lt (bytes : Bytes) : number bytes < 256 ^ bytes.length := by
  induction bytes using List.reverseRecOn with
  | nil => simp [number]
  | append_singleton bytes byte ih =>
      have small : byte.toNat < 256 := byte.toNat_lt
      rw [number_concat, List.length_append, List.length_singleton, pow_succ]
      omega

theorem number_bigEndian {width value : Nat} (bound : value < 256 ^ width) :
    number (bigEndian width value) = value := by
  induction width generalizing value with
  | zero =>
      have zero : value = 0 := by simpa using bound
      rw [zero]
      rfl
  | succ width ih =>
      have high : value / 256 < 256 ^ width := by
        rw [pow_succ] at bound
        exact Nat.div_lt_of_lt_mul (by rwa [Nat.mul_comm])
      have low : (UInt8.ofNat value).toNat = value % 256 := UInt8.toNat_ofNat'
      rw [bigEndian, number_concat, ih high, low]
      omega

/-! ### Slices -/

theorem take_of_append {data head rest : Bytes} (same : data = head ++ rest) :
    data.take head.length = head := by
  rw [same, List.take_left]

theorem slice_of_append {data before middle rest : Bytes} (same : data = before ++ middle ++ rest)
    {start stop : Nat} (starts : start = before.length)
    (stops : stop = before.length + middle.length) : slice data start stop = middle := by
  rw [slice, same, starts, stops, ← List.length_append, List.take_left, List.drop_left]

theorem length_slice {data : Bytes} {start stop : Nat} (inside : stop ≤ data.length) :
    (slice data start stop).length = stop - start := by
  rw [slice, List.length_drop, List.length_take, Nat.min_eq_left inside]

/-! ### Packing and unpacking -/

theorem length_pack {widths : List Nat} {values : List Int} {bytes : Bytes}
    (packed : pack widths values = some bytes) : bytes.length = widths.sum := by
  induction widths generalizing values bytes with
  | nil =>
      cases values with
      | nil =>
          cases packed
          rfl
      | cons value values => cases packed
  | cons width widths ih =>
      cases values with
      | nil => cases packed
      | cons value values =>
          rw [pack] at packed
          split at packed
          · obtain ⟨rest, packedRest, rfl⟩ := Option.map_eq_some_iff.mp packed
            rw [List.length_append, length_bigEndian, ih packedRest, List.sum_cons]
          · cases packed

theorem unpack_pack {widths : List Nat} {values : List Int} {bytes : Bytes}
    (packed : pack widths values = some bytes) : unpack widths bytes = some values := by
  induction widths generalizing values bytes with
  | nil =>
      cases values with
      | nil =>
          cases packed
          rfl
      | cons value values => cases packed
  | cons width widths ih =>
      cases values with
      | nil => cases packed
      | cons value values =>
          rw [pack] at packed
          split at packed
          · rename_i range
            obtain ⟨rest, packedRest, rfl⟩ := Option.map_eq_some_iff.mp packed
            have enough : ¬ (bigEndian width value.toNat ++ rest).length < width := by
              rw [List.length_append, length_bigEndian]
              omega
            have bound : value.toNat < 256 ^ width := by
              have cast : ((256 ^ width : Nat) : Int) = 256 ^ width := by norm_cast
              omega
            have front : (bigEndian width value.toNat ++ rest).take width =
                bigEndian width value.toNat := List.take_left' (length_bigEndian _ _)
            have back : (bigEndian width value.toNat ++ rest).drop width = rest :=
              List.drop_left' (length_bigEndian _ _)
            rw [unpack, if_neg enough, front, back, ih packedRest, number_bigEndian bound,
              Int.toNat_of_nonneg range.1]
            rfl
          · cases packed

theorem unpack_one (bytes : Bytes) {width : Nat} (size : bytes.length = width) :
    unpack [width] bytes = some [((number bytes : Nat) : Int)] := by
  have whole : bytes.take width = bytes := List.take_of_length_le size.le
  have rest : bytes.drop width = [] := List.drop_of_length_le size.le
  rw [unpack, if_neg (by omega), whole, rest, unpack, if_pos rfl, Option.map_some]

theorem unpack_checksum (sum : Nat) :
    unpack [4] (bigEndian 4 (sum % 2 ^ 32)) = some [((sum % 2 ^ 32 : Nat) : Int)] := by
  have bound : sum % 2 ^ 32 < 256 ^ 4 := Nat.mod_lt _ (by norm_num)
  rw [unpack_one _ (length_bigEndian 4 _), number_bigEndian bound]

theorem pack_some {widths : List Nat} {values : List Int}
    (fits : List.Forall₂ (fun width value => 0 ≤ value ∧ value < 256 ^ width) widths values) :
    ∃ bytes, pack widths values = some bytes := by
  induction fits with
  | nil => exact ⟨[], rfl⟩
  | @cons width value widths values range _ ih =>
      obtain ⟨bytes, packed⟩ := ih
      exact ⟨_, by rw [pack, if_pos range, packed, Option.map_some]⟩

theorem unpack_range {widths : List Nat} {data : Bytes} {values : List Int}
    (unpacked : unpack widths data = some values) :
    List.Forall₂ (fun width value => 0 ≤ value ∧ value < 256 ^ width) widths values := by
  induction widths generalizing data values with
  | nil =>
      rw [unpack] at unpacked
      split at unpacked
      · cases unpacked
        exact .nil
      · cases unpacked
  | cons width widths ih =>
      rw [unpack] at unpacked
      split at unpacked
      · cases unpacked
      rename_i enough
      obtain ⟨rest, unpackedRest, rfl⟩ := Option.map_eq_some_iff.mp unpacked
      have size : (data.take width).length = width := by
        rw [List.length_take]
        omega
      have bound := number_lt (data.take width)
      rw [size] at bound
      exact .cons ⟨Int.natCast_nonneg _, by exact_mod_cast bound⟩ (ih unpackedRest)

/-! ### Writing in place -/

theorem length_splice {data bytes : Bytes} {start : Nat} (inside : start + bytes.length ≤ data.length) :
    (splice data start bytes).length = data.length := by
  rw [splice, List.length_append, List.length_append, List.length_take, List.length_drop]
  omega

theorem slice_splice_self {data bytes : Bytes} {start stop : Nat} (inside : stop ≤ data.length)
    (size : stop = start + bytes.length) : slice (splice data start bytes) start stop = bytes := by
  have before : (data.take start).length = start := by
    rw [List.length_take]
    omega
  exact slice_of_append rfl before.symm (by rw [before, size])

theorem slice_splice_other {data bytes : Bytes} {start first last : Nat}
    (inside : start + bytes.length ≤ data.length)
    (apart : last ≤ start ∨ start + bytes.length ≤ first) :
    slice (splice data start bytes) first last = slice data first last := by
  have before : (data.take start).length = start := by
    rw [List.length_take]
    omega
  have kept : ∀ index, index < start ∨ start + bytes.length ≤ index →
      (splice data start bytes)[index]? = data[index]? := by
    intro index side
    rw [splice, List.append_assoc]
    rcases side with early | late
    · rw [List.getElem?_append_left (by omega), List.getElem?_take_of_lt early]
    · rw [List.getElem?_append_right (by omega), List.getElem?_append_right (by omega),
        List.getElem?_drop]
      congr 1
      omega
  apply List.ext_getElem?
  intro index
  rw [slice, slice, List.getElem?_drop, List.getElem?_drop, List.getElem?_take, List.getElem?_take]
  split
  · exact kept _ (by omega)
  · rfl

theorem and_shift_ne_zero (value bit : Nat) : (value &&& 1 <<< bit != 0) = value.testBit bit := by
  rw [Nat.one_shiftLeft, Nat.and_two_pow]
  cases value.testBit bit with
  | false => simp
  | true => simp

theorem length_setBit (bitmap : Bytes) (bit : Nat) : (setBit bitmap bit).length = bitmap.length := by
  rw [setBit, List.length_set]

theorem hasBit_setBit {bitmap : Bytes} {bit : Nat} (inside : bit / 8 < bitmap.length) (other : Nat) :
    hasBit (setBit bitmap bit) other = (decide (other = bit) || hasBit bitmap other) := by
  have small : (bitmap.getD (bit / 8) 0).toNat < 2 ^ 8 := UInt8.toNat_lt _
  have shifted : 1 <<< (bit % 8) < 2 ^ 8 := by
    rw [Nat.one_shiftLeft]
    exact Nat.pow_lt_pow_right (by decide) (Nat.mod_lt _ (by decide))
  have fits := Nat.or_lt_two_pow small shifted
  rw [hasBit, hasBit, and_shift_ne_zero, and_shift_ne_zero, setBit]
  by_cases byte : other / 8 = bit / 8
  · rw [byte, List.getD_eq_getElem?_getD, List.getElem?_set_self inside, Option.getD_some,
      UInt8.toNat_ofNat', Nat.mod_eq_of_lt fits, Nat.testBit_or, Nat.one_shiftLeft,
      Nat.testBit_two_pow, Bool.or_comm]
    congr 1
    rw [decide_eq_decide]
    omega
  · have apart : other ≠ bit := fun same => byte (by rw [same])
    rw [decide_eq_false apart, Bool.false_or, List.getD_eq_getElem?_getD,
      List.getElem?_set_ne (Ne.symm byte), ← List.getD_eq_getElem?_getD]

theorem hasBit_replicate (count bit : Nat) : hasBit (List.replicate count 0) bit = false := by
  have zero : (List.replicate count (0 : UInt8)).getD (bit / 8) 0 = 0 := by
    rw [List.getD_eq_getElem?_getD, List.getElem?_replicate]
    split <;> rfl
  rw [hasBit, and_shift_ne_zero, zero]
  exact Nat.zero_testBit _

end DurableContext.ByteLayout
