import Mathlib.Data.BitVec
import Mathlib.Data.List.Nodup
import Mathlib.Logic.Function.Iterate
import Mathlib.Tactic.Common

/-!
# Linear maps over exclusive or

A map of bit vectors is linear when it respects exclusive or (`XorLinear`). Shifts, truncations and
their sums and compositions are linear. A linear map is determined by its columns, which are its
values at the vectors with one bit set (`XorLinear.combine_columns`).

`isIndependent` decides by elimination whether a list of vectors has no sum of some of them that is
zero, and `independent_of_isIndependent` is its soundness. So the columns of a linear map decide
whether it is injective on all vectors (`XorLinear.injective`), and whether zero is its only fixed
point (`XorLinear.eq_zero_of_fixed`).
-/

set_option autoImplicit false
set_option relaxedAutoImplicit false

namespace Libhoth.Foundation.ExclusiveOr

variable {n m k : ℕ}

/-! ### Linear maps -/

/-- A map that respects exclusive or. -/
def XorLinear (map : BitVec n → BitVec m) : Prop :=
  ∀ first second, map (first ^^^ second) = map first ^^^ map second

theorem xorLinear_id : XorLinear fun vector : BitVec n ↦ vector :=
  fun _ _ ↦ rfl

theorem xorLinear_zero : XorLinear fun _ : BitVec n ↦ (0 : BitVec m) :=
  fun _ _ ↦ BitVec.xor_self.symm

theorem xorLinear_shiftLeft (amount : ℕ) : XorLinear fun vector : BitVec n ↦ vector <<< amount :=
  fun first second ↦ BitVec.shiftLeft_xor_distrib first second amount

theorem xorLinear_ushiftRight (amount : ℕ) :
    XorLinear fun vector : BitVec n ↦ vector >>> amount :=
  fun first second ↦ BitVec.ushiftRight_xor_distrib first second amount

theorem xorLinear_setWidth (width : ℕ) :
    XorLinear fun vector : BitVec n ↦ vector.setWidth width :=
  fun _ _ ↦ BitVec.setWidth_xor

namespace XorLinear

variable {map other : BitVec n → BitVec m}

theorem comp {after : BitVec m → BitVec k} (hafter : XorLinear after) (hmap : XorLinear map) :
    XorLinear fun vector ↦ after (map vector) :=
  fun first second ↦ (congrArg after (hmap first second)).trans (hafter _ _)

theorem xor (hmap : XorLinear map) (hother : XorLinear other) :
    XorLinear fun vector ↦ map vector ^^^ other vector := by
  intro first second
  simp only [hmap first second, hother first second]
  ac_rfl

theorem iterate {step : BitVec n → BitVec n} (hstep : XorLinear step) (steps : ℕ) :
    XorLinear step^[steps] := by
  induction steps with
  | zero => exact xorLinear_id
  | succ steps ih => exact ih.comp hstep

theorem map_zero (hmap : XorLinear map) : map 0 = 0 := by
  have hdouble := hmap 0 0
  rwa [BitVec.xor_self, BitVec.xor_self] at hdouble

/-- A linear map is injective when only zero goes to zero. -/
theorem injective_of_kernel (hmap : XorLinear map)
    (hkernel : ∀ vector, map vector = 0 → vector = 0) : Function.Injective map := by
  intro first second hequal
  rw [← BitVec.xor_eq_zero_iff] at hequal ⊢
  rw [← hmap] at hequal
  exact hkernel _ hequal

/-- The orbit of a vector other than zero under an injective linear map stays clear of zero. -/
theorem iterate_ne_zero {step : BitVec n → BitVec n} (hstep : XorLinear step)
    (hinjective : Function.Injective step) {vector : BitVec n} (hvector : vector ≠ 0)
    (steps : ℕ) : step^[steps] vector ≠ 0 := by
  have hzero : step^[steps] 0 = 0 := Function.iterate_fixed hstep.map_zero steps
  rw [← hzero]
  exact (hinjective.iterate steps).ne hvector

end XorLinear

/-! ### Sums of vectors -/

/-- A vector or zero. -/
def scale (bit : Bool) (vector : BitVec m) : BitVec m :=
  if bit then vector else 0

/-- The sum of the vectors whose bit is set. -/
def combine : List Bool → List (BitVec m) → BitVec m
  | bit :: bits, vector :: vectors => scale bit vector ^^^ combine bits vectors
  | _, _ => 0

/-- Only the sum of none of the vectors is zero. -/
def Independent (vectors : List (BitVec m)) : Prop :=
  ∀ bits : List Bool, bits.length = vectors.length → combine bits vectors = 0 →
    ∀ bit ∈ bits, bit = false

/-- A vector with the bit at an index cleared by a pivot that has it set. -/
def clear (pivot : BitVec m) (index : ℕ) (vector : BitVec m) : BitVec m :=
  if vector.getLsbD index then vector ^^^ pivot else vector

/-- Elimination: every vector, cleared by those before it, has a bit set. -/
def eliminates : ℕ → List (BitVec m) → Bool
  | _, [] => true
  | 0, _ :: _ => false
  | fuel + 1, pivot :: vectors =>
    let index := pivot.toNat.log2
    pivot.getLsbD index && eliminates fuel (vectors.map (clear pivot index))

/-- Whether elimination finds the vectors independent. -/
def isIndependent (vectors : List (BitVec m)) : Bool :=
  eliminates vectors.length vectors

/-! ### Elimination -/

section Elimination

theorem getLsbD_scale (bit : Bool) (vector : BitVec m) (index : ℕ) :
    (scale bit vector).getLsbD index = (bit && vector.getLsbD index) := by
  cases bit <;> simp [scale]

theorem scale_xor_scale (first second : Bool) (vector : BitVec m) :
    scale first vector ^^^ scale second vector = scale (first ^^ second) vector := by
  cases first <;> cases second <;> simp [scale]

theorem combine_eq_zero {bits : List Bool} (hbits : ∀ bit ∈ bits, bit = false)
    (vectors : List (BitVec m)) : combine bits vectors = 0 := by
  induction bits generalizing vectors with
  | nil => rfl
  | cons bit bits ih =>
    cases vectors with
    | nil => rfl
    | cons vector vectors =>
      rw [combine, hbits bit List.mem_cons_self,
        ih fun other hother ↦ hbits other (List.mem_cons_of_mem _ hother)]
      exact BitVec.xor_self

variable {pivot : BitVec m} {index : ℕ}

theorem getLsbD_clear (hpivot : pivot.getLsbD index = true) (vector : BitVec m) :
    (clear pivot index vector).getLsbD index = false := by
  rw [clear]
  split_ifs with hset
  · rw [BitVec.getLsbD_xor, hset, hpivot]
    rfl
  · exact Bool.not_eq_true _ ▸ hset

/-- Sums of cleared vectors are cleared. -/
theorem getLsbD_combine_clear (hpivot : pivot.getLsbD index = true) (bits : List Bool)
    (vectors : List (BitVec m)) :
    (combine bits (vectors.map (clear pivot index))).getLsbD index = false := by
  induction bits generalizing vectors with
  | nil => simp [combine]
  | cons bit bits ih =>
    cases vectors with
    | nil => simp [combine]
    | cons vector vectors =>
      rw [List.map_cons, combine, BitVec.getLsbD_xor, getLsbD_scale, getLsbD_clear hpivot, ih]
      simp

/-- Clearing changes a sum by the pivot or by nothing. -/
theorem exists_combine_clear (pivot : BitVec m) (index : ℕ) (bits : List Bool)
    (vectors : List (BitVec m)) : ∃ odd, combine bits (vectors.map (clear pivot index)) =
      combine bits vectors ^^^ scale odd pivot := by
  induction bits generalizing vectors with
  | nil => exact ⟨false, by simp [combine, scale]⟩
  | cons bit bits ih =>
    cases vectors with
    | nil => exact ⟨false, by simp [combine, scale]⟩
    | cons vector vectors =>
      obtain ⟨odd, hrest⟩ := ih vectors
      have hhead : scale bit (clear pivot index vector) =
          scale bit vector ^^^ scale (bit && vector.getLsbD index) pivot := by
        cases bit <;> cases hset : vector.getLsbD index <;> simp [scale, clear, hset]
      refine ⟨(bit && vector.getLsbD index) ^^ odd, ?_⟩
      rw [List.map_cons, combine, combine, hrest, hhead, ← scale_xor_scale]
      ac_rfl

/-- One round of elimination. -/
theorem independent_cons (hpivot : pivot.getLsbD index = true) {vectors : List (BitVec m)}
    (hcleared : Independent (vectors.map (clear pivot index))) :
    Independent (pivot :: vectors) := by
  intro bits hlength hzero
  obtain ⟨first, bits, rfl⟩ := List.exists_cons_of_length_eq_add_one hlength
  rw [List.length_cons, List.length_cons, Nat.succ_inj] at hlength
  have hequal : scale first pivot = combine bits vectors := BitVec.xor_eq_zero_iff.mp hzero
  obtain ⟨odd, hsum⟩ := exists_combine_clear pivot index bits vectors
  rw [← hequal, scale_xor_scale] at hsum
  have heven : (first ^^ odd) = false := by
    have hbit := getLsbD_combine_clear hpivot bits vectors
    rwa [hsum, getLsbD_scale, hpivot, Bool.and_true] at hbit
  have hrest : ∀ bit ∈ bits, bit = false := by
    refine hcleared bits (hlength.trans (List.length_map _).symm) ?_
    rw [hsum, heven]
    rfl
  have hfirst : first = false := by
    have hbit := getLsbD_scale first pivot index
    rw [hequal, combine_eq_zero hrest, hpivot, Bool.and_true] at hbit
    exact hbit.symm.trans BitVec.getLsbD_zero
  exact List.forall_mem_cons.mpr ⟨hfirst, hrest⟩

theorem independent_of_eliminates {fuel : ℕ} {vectors : List (BitVec m)}
    (hchecked : eliminates fuel vectors = true) : Independent vectors := by
  induction fuel generalizing vectors with
  | zero =>
    cases vectors with
    | nil => exact fun bits hlength _ ↦ by simp [List.length_eq_zero_iff.mp hlength]
    | cons pivot vectors => exact absurd hchecked Bool.false_ne_true
  | succ fuel ih =>
    cases vectors with
    | nil => exact fun bits hlength _ ↦ by simp [List.length_eq_zero_iff.mp hlength]
    | cons pivot vectors =>
      obtain ⟨hpivot, hrest⟩ := Bool.and_eq_true_iff.mp hchecked
      exact independent_cons hpivot (ih hrest)

/-- The check by elimination is sound. -/
theorem independent_of_isIndependent {vectors : List (BitVec m)}
    (hchecked : isIndependent vectors = true) : Independent vectors :=
  independent_of_eliminates hchecked

end Elimination

/-! ### Columns -/

/-- The values of a map at the vectors with one bit set. -/
def columns (map : BitVec n → BitVec m) : List (BitVec m) :=
  (List.range n).map fun index ↦ map (BitVec.twoPow n index)

/-- The bits of a vector, the lowest one first. -/
def bitsOf (vector : BitVec n) : List Bool :=
  (List.range n).map vector.getLsbD

/-- A vector is the sum of its bits. -/
theorem getLsbD_combine_twoPow (vector : BitVec n) {index : ℕ} (hindex : index < n)
    {indices : List ℕ} (hnodup : indices.Nodup) :
    (combine (indices.map vector.getLsbD) (indices.map (BitVec.twoPow n))).getLsbD index =
      (decide (index ∈ indices) && vector.getLsbD index) := by
  induction indices with
  | nil => simp [combine]
  | cons head rest ih =>
    obtain ⟨hhead, hrest⟩ := List.nodup_cons.mp hnodup
    rw [List.map_cons, List.map_cons, combine, BitVec.getLsbD_xor, getLsbD_scale, ih hrest,
      BitVec.getLsbD_twoPow]
    by_cases hsame : head = index
    · subst hsame
      simp [hhead, hindex]
    · simp [hsame, Ne.symm hsame]

namespace XorLinear

variable {map : BitVec n → BitVec m}

theorem map_scale (hmap : XorLinear map) (bit : Bool) (vector : BitVec n) :
    map (scale bit vector) = scale bit (map vector) := by
  cases bit
  · exact hmap.map_zero
  · rfl

theorem map_combine (hmap : XorLinear map) (bits : List Bool) (vectors : List (BitVec n)) :
    map (combine bits vectors) = combine bits (vectors.map map) := by
  induction bits generalizing vectors with
  | nil => exact hmap.map_zero
  | cons bit bits ih =>
    cases vectors with
    | nil => exact hmap.map_zero
    | cons vector vectors =>
      rw [List.map_cons, combine, combine, hmap, hmap.map_scale, ih]

/-- A linear map is determined by its columns. -/
theorem combine_columns (hmap : XorLinear map) (vector : BitVec n) :
    combine (bitsOf vector) (columns map) = map vector := by
  have hsum : combine (bitsOf vector) ((List.range n).map (BitVec.twoPow n)) = vector := by
    refine BitVec.eq_of_getLsbD_eq fun index hindex ↦ ?_
    rw [bitsOf, getLsbD_combine_twoPow vector hindex List.nodup_range,
      decide_eq_true (List.mem_range.mpr hindex), Bool.true_and]
  have hcolumns : columns map = ((List.range n).map (BitVec.twoPow n)).map map := by
    rw [List.map_map]
    rfl
  rw [hcolumns, ← hmap.map_combine, hsum]

/-- A linear map with independent columns is injective. -/
theorem injective (hmap : XorLinear map) (hcolumns : isIndependent (columns map) = true) :
    Function.Injective map := by
  refine hmap.injective_of_kernel fun vector hzero ↦ BitVec.eq_of_getLsbD_eq fun index hindex ↦ ?_
  have hbits : ∀ bit ∈ bitsOf vector, bit = false :=
    independent_of_isIndependent hcolumns (bitsOf vector) (by simp [bitsOf, columns])
      ((hmap.combine_columns vector).trans hzero)
  rw [BitVec.ofNat_eq_ofNat, BitVec.getLsbD_zero]
  exact hbits _ (List.mem_map.mpr ⟨index, List.mem_range.mpr hindex, rfl⟩)

/-- A linear map whose columns differ independently from the vectors has no fixed point but zero. -/
theorem eq_zero_of_fixed {step : BitVec n → BitVec n} (hstep : XorLinear step)
    (hcolumns : isIndependent (columns fun vector ↦ step vector ^^^ vector) = true)
    {vector : BitVec n} (hfixed : step vector = vector) : vector = 0 := by
  have hdifference : XorLinear fun vector ↦ step vector ^^^ vector := hstep.xor xorLinear_id
  refine hdifference.injective hcolumns ?_
  simp only [hfixed, hstep.map_zero, BitVec.xor_self]

end XorLinear

end Libhoth.Foundation.ExclusiveOr
