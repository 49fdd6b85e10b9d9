import Libhoth.Foundation.ExclusiveOr
import Mathlib.Data.Nat.Bitwise

/-!
# Cyclic redundancy checks

A reflected cyclic redundancy check of any width and polynomial is a register that is shifted right
once per message bit, with the polynomial added when a one falls out (`shift`). The register step is
linear over exclusive or, and it is injective when the polynomial has its top bit, so two registers
that differ never meet again (`shift_injective`).

`feed` runs a message, bit by bit, through the register. `feed_eq_iterate` says that up to a
register's width of bits may be added at once, which is how an implementation consumes bytes.
`feed_ne_of_burst` is the detection law: messages that differ only within a window as wide as the
register leave different registers.
-/

set_option autoImplicit false
set_option relaxedAutoImplicit false

namespace Libhoth.Foundation.CyclicRedundancy

open ExclusiveOr

variable {w : ℕ}

/-! ### The register -/

/-- One step of the register: a one that falls out adds the polynomial. -/
def shift (polynomial register : BitVec w) : BitVec w :=
  (register >>> 1) ^^^ (if register.getLsbD 0 then polynomial else 0)

section Register

variable (polynomial : BitVec w)

@[simp] theorem shift_zero : shift polynomial 0 = 0 := by
  simp [shift]

theorem shift_xor (first second : BitVec w) :
    shift polynomial (first ^^^ second) = shift polynomial first ^^^ shift polynomial second := by
  simp only [shift, BitVec.getLsbD_xor, BitVec.ushiftRight_xor_distrib]
  cases first.getLsbD 0 <;> cases second.getLsbD 0
  · simp
  · simp [BitVec.xor_assoc]
  · simp only [Bool.xor_false, if_true, Bool.false_eq_true, if_false]
    rw [BitVec.ofNat_eq_ofNat, BitVec.xor_zero]
    ac_rfl
  · have hcancel : (first >>> 1 ^^^ polynomial) ^^^ (second >>> 1 ^^^ polynomial) =
        (first >>> 1 ^^^ second >>> 1) ^^^ (polynomial ^^^ polynomial) := by ac_rfl
    simp [hcancel]

theorem xorLinear_shift : XorLinear (shift polynomial) :=
  shift_xor polynomial

/-- A register that stays clear after a step was clear: the polynomial sets the top bit. -/
theorem eq_zero_of_shift_eq_zero (hpolynomial : polynomial.msb = true) {register : BitVec w}
    (hzero : shift polynomial register = 0) : register = 0 := by
  have hwidth : 0 < w := by
    rcases Nat.eq_zero_or_pos w with rfl | hpos
    · rw [BitVec.msb_eq_getLsbD_last, BitVec.getLsbD_of_ge _ _ (Nat.le_refl _)] at hpolynomial
      exact absurd hpolynomial (by decide)
    · exact hpos
  have hbit : ∀ index, (shift polynomial register).getLsbD index = false := by
    simp [hzero]
  have hlow : register.getLsbD 0 = false := by
    by_contra hset
    rw [Bool.not_eq_false] at hset
    have htop := hbit (w - 1)
    rw [shift, hset, if_pos rfl, BitVec.getLsbD_xor, ← BitVec.msb_eq_getLsbD_last polynomial,
      hpolynomial, BitVec.getLsbD_ushiftRight, BitVec.getLsbD_of_ge _ _ (by omega)] at htop
    exact absurd htop (by decide)
  refine BitVec.eq_of_getLsbD_eq fun index hindex ↦ ?_
  rw [BitVec.ofNat_eq_ofNat, BitVec.getLsbD_zero]
  cases index with
  | zero => exact hlow
  | succ index =>
    have hnext := hbit index
    rw [shift, hlow] at hnext
    simpa [Nat.add_comm] using hnext

theorem shift_injective (hpolynomial : polynomial.msb = true) :
    Function.Injective (shift polynomial) :=
  (xorLinear_shift polynomial).injective_of_kernel fun _ hzero ↦
    eq_zero_of_shift_eq_zero polynomial hpolynomial hzero

theorem iterate_shift_zero (steps : ℕ) : (shift polynomial)^[steps] 0 = 0 :=
  Function.iterate_fixed (shift_zero polynomial) steps

/-- A step undoes a shift to the left that dropped nothing. -/
theorem shift_shiftLeft_one {register : BitVec w} (htop : register.msb = false) :
    shift polynomial (register <<< 1) = register := by
  refine BitVec.eq_of_getLsbD_eq fun index hindex ↦ ?_
  rw [BitVec.msb_eq_getLsbD_last] at htop
  by_cases hlast : index = w - 1
  · subst hlast
    simp [shift, htop]
  · have hinside : 1 + index < w := by omega
    simp [shift, hinside, BitVec.getLsbD_eq_getElem hindex]

end Register

/-! ### Messages -/

/-- A bit at the low end of a register. -/
def ofBit (bit : Bool) : BitVec w :=
  if bit then 1 else 0

/-- The register after a message. -/
def feed (polynomial register : BitVec w) (message : List Bool) : BitVec w :=
  message.foldl (fun state bit ↦ shift polynomial (state ^^^ ofBit bit)) register

/-- Bits packed into a register, the first one lowest. -/
def packed : List Bool → BitVec w
  | [] => 0
  | bit :: rest => ofBit bit ^^^ (packed rest <<< 1)

theorem getLsbD_ofBit (hwidth : 0 < w) (bit : Bool) (index : ℕ) :
    (ofBit bit : BitVec w).getLsbD index = (decide (index = 0) && bit) := by
  cases bit
  · simp [ofBit]
  · simp [ofBit, BitVec.getLsbD_one, hwidth]

theorem getLsbD_packed (bits : List Bool) {index : ℕ} (hindex : index < w) :
    (packed bits : BitVec w).getLsbD index = bits.getD index false := by
  induction bits generalizing index with
  | nil => simp [packed]
  | cons bit rest ih =>
    rw [packed, BitVec.getLsbD_xor, getLsbD_ofBit (by omega), BitVec.getLsbD_shiftLeft]
    cases index with
    | zero => simp
    | succ index => simp [hindex, ih (show index < w by omega)]

section Messages

variable (polynomial : BitVec w)

@[simp] theorem feed_nil (register : BitVec w) : feed polynomial register [] = register :=
  rfl

@[simp] theorem feed_cons (register : BitVec w) (bit : Bool) (rest : List Bool) :
    feed polynomial register (bit :: rest) =
      feed polynomial (shift polynomial (register ^^^ ofBit bit)) rest :=
  rfl

theorem feed_append (register : BitVec w) (first second : List Bool) :
    feed polynomial register (first ++ second) =
      feed polynomial (feed polynomial register first) second :=
  List.foldl_append

/-- Up to a register's width of bits may be added at once, before the steps for them. -/
theorem feed_eq_iterate (register : BitVec w) {bits : List Bool} (hfits : bits.length ≤ w) :
    feed polynomial register bits =
      (shift polynomial)^[bits.length] (register ^^^ packed bits) := by
  induction bits generalizing register with
  | nil => simp [packed]
  | cons bit rest ih =>
    rw [List.length_cons] at hfits
    have htop : (packed rest : BitVec w).msb = false := by
      rw [BitVec.msb_eq_getLsbD_last, getLsbD_packed rest (by omega), List.getD_eq_default _ _
        (by omega)]
    rw [feed_cons, ih _ (by omega), List.length_cons, Function.iterate_succ_apply, packed,
      ← BitVec.xor_assoc, shift_xor polynomial (register ^^^ ofBit bit),
      shift_shiftLeft_one polynomial htop]

/-- Zero bits only step the register. -/
theorem feed_of_forall_false (register : BitVec w) {bits : List Bool}
    (hfalse : ∀ bit ∈ bits, bit = false) :
    feed polynomial register bits = (shift polynomial)^[bits.length] register := by
  induction bits generalizing register with
  | nil => rfl
  | cons bit rest ih =>
    obtain ⟨rfl, hrest⟩ := List.forall_mem_cons.mp hfalse
    rw [feed_cons, ih _ hrest, List.length_cons, Function.iterate_succ_apply]
    simp [ofBit]

/-- The difference of two registers is what the difference of the messages leaves of their first
difference. -/
theorem feed_xor (register other : BitVec w) {first second : List Bool}
    (hlength : first.length = second.length) :
    feed polynomial register first ^^^ feed polynomial other second =
      feed polynomial (register ^^^ other) (List.zipWith xor first second) := by
  induction first generalizing register other second with
  | nil =>
    obtain rfl := List.eq_nil_of_length_eq_zero hlength.symm
    rfl
  | cons bit rest ih =>
    obtain ⟨partner, tail, rfl⟩ := List.exists_cons_of_length_eq_add_one hlength.symm
    have hbits : (ofBit bit ^^^ ofBit partner : BitVec w) = ofBit (bit ^^ partner) := by
      cases bit <;> cases partner <;> simp [ofBit]
    have hregroup : register ^^^ ofBit bit ^^^ (other ^^^ ofBit partner) =
        register ^^^ other ^^^ (ofBit bit ^^^ ofBit partner) := by ac_rfl
    rw [feed_cons, feed_cons, ih _ _ (by simpa using hlength), ← shift_xor, hregroup, hbits,
      List.zipWith_cons_cons, feed_cons]

end Messages

/-! ### Detection of bursts -/

section Bursts

variable {polynomial : BitVec w}

/-- A one is not packed into nothing. -/
theorem packed_ne_zero {bits : List Bool} (hfits : bits.length ≤ w) (hone : true ∈ bits) :
    (packed bits : BitVec w) ≠ 0 := by
  intro hclear
  obtain ⟨index, hindex, hbit⟩ := List.mem_iff_getElem.mp hone
  have hpacked := getLsbD_packed bits (hindex.trans_le hfits)
  rw [hclear, List.getD_eq_getElem _ _ hindex, hbit] at hpacked
  simp at hpacked

/-- A clear register is not clear after a message whose ones lie in a window of its width. -/
theorem feed_ne_zero (hpolynomial : polynomial.msb = true) {front window back : List Bool}
    (hfront : ∀ bit ∈ front, bit = false) (hfits : window.length ≤ w) (hone : true ∈ window)
    (hback : ∀ bit ∈ back, bit = false) :
    feed polynomial 0 (front ++ window ++ back) ≠ 0 := by
  rw [feed_append, feed_append, feed_of_forall_false polynomial 0 hfront, iterate_shift_zero,
    feed_eq_iterate polynomial 0 hfits, feed_of_forall_false polynomial _ hback,
    ← Function.iterate_add_apply, BitVec.ofNat_eq_ofNat, BitVec.zero_xor]
  exact (xorLinear_shift polynomial).iterate_ne_zero (shift_injective polynomial hpolynomial)
    (packed_ne_zero hfits hone) _

/-- The same for a message whose ones are given by their places. -/
theorem feed_ne_zero_of_window (hpolynomial : polynomial.msb = true) {bits : List Bool}
    (start : ℕ) (hone : true ∈ bits)
    (hwindow : ∀ index, bits[index]? = some true → start ≤ index ∧ index < start + w) :
    feed polynomial 0 bits ≠ 0 := by
  have hsplit : bits = bits.take start ++ (bits.drop start).take w ++ bits.drop (start + w) := by
    rw [List.append_assoc, ← List.drop_drop, List.take_append_drop, List.take_append_drop]
  rw [hsplit]
  refine feed_ne_zero hpolynomial (fun bit hmem ↦ ?_) (List.length_take_le _ _) ?_ fun bit hmem ↦ ?_
  · obtain ⟨index, hindex⟩ := List.mem_iff_getElem?.mp hmem
    rw [List.getElem?_take] at hindex
    split_ifs at hindex with hbefore
    cases bit with
    | false => rfl
    | true => exact absurd (hwindow index hindex).1 (not_le.mpr hbefore)
  · obtain ⟨index, hindex⟩ := List.mem_iff_getElem?.mp hone
    obtain ⟨hstart, hend⟩ := hwindow index hindex
    refine List.mem_iff_getElem?.mpr ⟨index - start, ?_⟩
    rw [List.getElem?_take_of_lt (by omega), List.getElem?_drop, Nat.add_sub_cancel' hstart, hindex]
  · obtain ⟨index, hindex⟩ := List.mem_iff_getElem?.mp hmem
    rw [List.getElem?_drop] at hindex
    cases bit with
    | false => rfl
    | true => exact absurd (hwindow _ hindex).2 (by omega)

/-- Messages of one length that differ, but only within a window as wide as the register, leave
different registers. -/
theorem feed_ne_of_burst (hpolynomial : polynomial.msb = true) (register : BitVec w)
    {first second : List Bool} (hlength : first.length = second.length) (hne : first ≠ second)
    (start : ℕ)
    (hburst : ∀ index, first[index]? ≠ second[index]? → start ≤ index ∧ index < start + w) :
    feed polynomial register first ≠ feed polynomial register second := by
  intro hequal
  have hdiff := feed_xor polynomial register register hlength
  rw [hequal, BitVec.xor_self, BitVec.xor_self] at hdiff
  refine feed_ne_zero_of_window hpolynomial start ?_ ?_ hdiff.symm
  · obtain ⟨index, hindex⟩ : ∃ index, first[index]? ≠ second[index]? := by
      by_contra hsame
      exact hne (List.ext_getElem? fun index ↦ not_not.mp (not_exists.mp hsame index))
    by_cases hinside : index < first.length
    · have hother : index < second.length := hlength ▸ hinside
      rw [List.getElem?_eq_getElem hinside, List.getElem?_eq_getElem hother] at hindex
      refine List.mem_iff_getElem?.mpr ⟨index, ?_⟩
      rw [List.getElem?_zipWith, List.getElem?_eq_getElem hinside, List.getElem?_eq_getElem hother]
      simpa using hindex
    · rw [List.getElem?_eq_none (by omega), List.getElem?_eq_none (by omega)] at hindex
      exact absurd rfl hindex
  · intro index hindex
    refine hburst index fun hsame ↦ ?_
    rw [List.getElem?_zipWith, hsame] at hindex
    cases hbit : second[index]? <;> simp [hbit] at hindex

end Bursts

end Libhoth.Foundation.CyclicRedundancy
