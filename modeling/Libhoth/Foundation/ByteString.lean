import Mathlib.Algebra.BigOperators.Group.List.Basic
import Mathlib.Tactic.Common
import Mathlib.Tactic.Ring

/-!
# Byte strings: slices, little-endian words and sums

The wire formats are byte lists. `slice` is a run of bytes at an offset, `littleEndian` reads a
byte list as a number with the least significant byte first and `toLittleEndian` writes a number at
a width, dropping what does not fit. `littleEndian_toLittleEndian` is the round trip. `byteSum` is
the sum of the bytes as a number, and `toNat_foldl_add` says that adding bytes in eight bits is that
sum modulo 256.
-/

set_option autoImplicit false
set_option relaxedAutoImplicit false

namespace Libhoth.Foundation.ByteString

/-! ### Slices -/

section Slices

variable {α : Type*}

/-- The `count` elements from `offset` on, or as many of them as there are. -/
def slice (elements : List α) (offset count : ℕ) : List α :=
  (elements.drop offset).take count

@[simp] theorem length_slice (elements : List α) (offset count : ℕ) :
    (slice elements offset count).length = min count (elements.length - offset) := by
  simp [slice]

theorem length_slice_of_le {elements : List α} {offset count : ℕ}
    (hbound : offset + count ≤ elements.length) : (slice elements offset count).length = count := by
  rw [length_slice]
  omega

/-- An element of a slice is the element of the list at the shifted index. -/
theorem getElem_slice (elements : List α) {offset count index : ℕ}
    (hindex : index < (slice elements offset count).length)
    (hshifted : offset + index < elements.length) :
    (slice elements offset count)[index] = elements[offset + index] := by
  simp [slice]

theorem getElem?_slice (elements : List α) (offset count index : ℕ) :
    (slice elements offset count)[index]? =
      if index < count then elements[offset + index]? else none := by
  rw [slice, List.getElem?_take]
  simp

/-- A slice and what comes behind it. -/
theorem slice_append_drop (elements : List α) (offset count : ℕ) :
    slice elements offset count ++ elements.drop (offset + count) = elements.drop offset := by
  rw [slice, ← List.drop_drop, List.take_append_drop]

/-- A slice inside the first of two lists. -/
theorem slice_append_left {first : List α} {offset count : ℕ}
    (hinside : offset + count ≤ first.length) (second : List α) :
    slice (first ++ second) offset count = slice first offset count := by
  rw [slice, slice, List.drop_append_of_le_length (by omega),
    List.take_append_of_le_length (by rw [List.length_drop]; omega)]

/-- A slice inside the second of two lists. -/
theorem slice_append_right (first second : List α) (offset count : ℕ) :
    slice (first ++ second) (first.length + offset) count = slice second offset count := by
  rw [slice, slice, List.drop_length_add_append]

end Slices

/-! ### Little-endian words -/

/-- The number whose little-endian bytes are given. -/
def littleEndian : List UInt8 → ℕ
  | [] => 0
  | byte :: rest => byte.toNat + 256 * littleEndian rest

/-- The `width` little-endian bytes of a number, dropping what does not fit. -/
def toLittleEndian : ℕ → ℕ → List UInt8
  | 0, _ => []
  | width + 1, value => UInt8.ofNat value :: toLittleEndian width (value / 256)

@[simp] theorem length_toLittleEndian (width value : ℕ) :
    (toLittleEndian width value).length = width := by
  induction width generalizing value with
  | zero => rfl
  | succ width ih => simp [toLittleEndian, ih]

/-- Writing a number and reading it back keeps what fits in the width. -/
theorem littleEndian_toLittleEndian (width value : ℕ) :
    littleEndian (toLittleEndian width value) = value % 256 ^ width := by
  induction width generalizing value with
  | zero => simp [toLittleEndian, littleEndian, Nat.mod_one]
  | succ width ih =>
    rw [toLittleEndian, littleEndian, ih, UInt8.toNat_ofNat', pow_succ' 256 width, Nat.mod_mul]

theorem littleEndian_toLittleEndian_of_lt {width value : ℕ} (hfits : value < 256 ^ width) :
    littleEndian (toLittleEndian width value) = value := by
  rw [littleEndian_toLittleEndian, Nat.mod_eq_of_lt hfits]

/-- Reading bytes as a number and writing it back gives the bytes. -/
theorem toLittleEndian_littleEndian (bytes : List UInt8) :
    toLittleEndian bytes.length (littleEndian bytes) = bytes := by
  induction bytes with
  | nil => rfl
  | cons byte rest ih =>
    have hbyte : byte.toNat < 256 := byte.toNat_lt
    have hhead : UInt8.ofNat (byte.toNat + 256 * littleEndian rest) = byte := by
      apply UInt8.toNat_inj.mp
      rw [UInt8.toNat_ofNat']
      omega
    have hrest : (byte.toNat + 256 * littleEndian rest) / 256 = littleEndian rest := by
      omega
    rw [List.length_cons, littleEndian, toLittleEndian, hhead, hrest, ih]

theorem littleEndian_replicate_zero (count : ℕ) : littleEndian (List.replicate count 0) = 0 := by
  induction count with
  | zero => rfl
  | succ count ih => simp [List.replicate_succ, littleEndian, ih]

theorem littleEndian_lt (bytes : List UInt8) : littleEndian bytes < 256 ^ bytes.length := by
  induction bytes with
  | nil => simp [littleEndian]
  | cons byte rest ih =>
    have hbyte : byte.toNat < 256 := byte.toNat_lt
    rw [littleEndian, List.length_cons, pow_succ]
    omega

/-- The little-endian word of `width` bytes at an offset; bytes past the end count as zero. -/
def wordAt (bytes : List UInt8) (offset width : ℕ) : ℕ :=
  littleEndian (slice bytes offset width)

theorem wordAt_lt (bytes : List UInt8) (offset width : ℕ) :
    wordAt bytes offset width < 256 ^ width :=
  (littleEndian_lt _).trans_le (Nat.pow_le_pow_right (by norm_num) (by rw [length_slice]; omega))

theorem wordAt_append_left {first : List UInt8} {offset width : ℕ}
    (hinside : offset + width ≤ first.length) (second : List UInt8) :
    wordAt (first ++ second) offset width = wordAt first offset width := by
  rw [wordAt, wordAt, slice_append_left hinside]

theorem wordAt_append_right (first second : List UInt8) (offset width : ℕ) :
    wordAt (first ++ second) (first.length + offset) width = wordAt second offset width := by
  rw [wordAt, wordAt, slice_append_right]

/-- The bytes of a word that is all there. -/
theorem toLittleEndian_wordAt {bytes : List UInt8} {offset width : ℕ}
    (hinside : offset + width ≤ bytes.length) :
    toLittleEndian width (wordAt bytes offset width) = slice bytes offset width := by
  have hslice := toLittleEndian_littleEndian (slice bytes offset width)
  rwa [length_slice_of_le hinside] at hslice

/-- A word written at the start of a list is read back. -/
theorem wordAt_toLittleEndian {width value : ℕ} (hfits : value < 256 ^ width)
    (rest : List UInt8) : wordAt (toLittleEndian width value ++ rest) 0 width = value := by
  rw [wordAt, slice, List.drop_zero, List.take_left' (length_toLittleEndian _ _),
    littleEndian_toLittleEndian_of_lt hfits]

/-- A number written between two lists is read back, cut to the width. -/
theorem wordAt_between_mod {front : List UInt8} {offset : ℕ} (hoffset : front.length = offset)
    (width value : ℕ) (back : List UInt8) :
    wordAt (front ++ (toLittleEndian width value ++ back)) offset width = value % 256 ^ width := by
  have hword := wordAt_append_right front (toLittleEndian width value ++ back) 0 width
  rw [Nat.add_zero, hoffset] at hword
  rw [hword, wordAt, slice, List.drop_zero, List.take_left' (length_toLittleEndian _ _),
    littleEndian_toLittleEndian]

/-- A word written between two lists is read back. -/
theorem wordAt_between {front : List UInt8} {offset : ℕ} (hoffset : front.length = offset)
    {width value : ℕ} (hfits : value < 256 ^ width) (back : List UInt8) :
    wordAt (front ++ (toLittleEndian width value ++ back)) offset width = value := by
  have hword := wordAt_append_right front (toLittleEndian width value ++ back) 0 width
  rwa [Nat.add_zero, hoffset, wordAt_toLittleEndian hfits] at hword

/-! ### Sums of bytes -/

/-- The sum of the bytes as a number. -/
def byteSum (bytes : List UInt8) : ℕ :=
  (bytes.map UInt8.toNat).sum

@[simp] theorem byteSum_append (first second : List UInt8) :
    byteSum (first ++ second) = byteSum first + byteSum second := by
  simp [byteSum]

/-- Adding bytes in an eight-bit register is adding them as numbers modulo 256. -/
theorem toNat_foldl_add (bytes : List UInt8) (start : UInt8) :
    (bytes.foldl (· + ·) start).toNat = (start.toNat + byteSum bytes) % 256 := by
  induction bytes generalizing start with
  | nil => simp [byteSum, Nat.mod_eq_of_lt start.toNat_lt]
  | cons byte rest ih =>
    rw [List.foldl_cons, ih, UInt8.toNat_add]
    simp [byteSum, Nat.add_assoc]

end Libhoth.Foundation.ByteString
