import Libhoth.Foundation.ExclusiveOr
import Libhoth.Transports.UsbFifo

/-!
# The generator of request IDs

`libhoth_generate_pseudorandom_u32` is linear over exclusive or. Its columns show that it is
injective (`libhothGeneratePseudorandomU32_injective`), so from a seed other than zero it never
reaches zero (`iterate_ne_zero`).

A request ID is the low bytes of sixteen states in a row, which is linear as well, in the state
before them. `drawnId_injective` says that the ID gives that state away, and
`eq_zero_of_returns` that sixteen steps return to no state but zero, so the next ID is another one
(`drawnId_advanced_ne`).
-/

set_option autoImplicit false
set_option relaxedAutoImplicit false

namespace Libhoth.Transports.UsbFifoPrng

open Foundation.ExclusiveOr UsbFifo

/-! ### One step -/

/-- A step of the generator on bit vectors. -/
def stepBits (state : BitVec 32) : BitVec 32 :=
  (libhothGeneratePseudorandomU32 ⟨state⟩).toBitVec

/-- A vector and its shift to the left. -/
theorem xorLinear_xorShiftLeft (amount : ℕ) :
    XorLinear fun state : BitVec 32 ↦ state ^^^ state <<< amount :=
  xorLinear_id.xor (xorLinear_shiftLeft amount)

/-- A vector and its shift to the right. -/
theorem xorLinear_xorShiftRight (amount : ℕ) :
    XorLinear fun state : BitVec 32 ↦ state ^^^ state >>> amount :=
  xorLinear_id.xor (xorLinear_ushiftRight amount)

theorem xorLinear_stepBits : XorLinear stepBits :=
  (xorLinear_xorShiftLeft 5).comp ((xorLinear_xorShiftRight 17).comp (xorLinear_xorShiftLeft 13))

theorem stepBits_injective : Function.Injective stepBits :=
  xorLinear_stepBits.injective (by decide +kernel)

/-- The step of the generator is injective. -/
theorem libhothGeneratePseudorandomU32_injective :
    Function.Injective libhothGeneratePseudorandomU32 := by
  intro first second hequal
  exact UInt32.toBitVec_inj.mp (stepBits_injective (congrArg UInt32.toBitVec hequal))

theorem toBitVec_iterate (steps : ℕ) (seed : UInt32) :
    (libhothGeneratePseudorandomU32^[steps] seed).toBitVec = stepBits^[steps] seed.toBitVec := by
  induction steps generalizing seed with
  | zero => rfl
  | succ steps ih => exact ih (libhothGeneratePseudorandomU32 seed)

theorem toBitVec_ne_zero {seed : UInt32} (hseed : seed ≠ 0) : seed.toBitVec ≠ 0 :=
  fun hzero ↦ hseed (UInt32.toBitVec_inj.mp hzero)

/-- From a seed other than zero the generator never reaches zero. -/
theorem iterate_ne_zero {seed : UInt32} (hseed : seed ≠ 0) (steps : ℕ) :
    libhothGeneratePseudorandomU32^[steps] seed ≠ 0 := by
  intro hzero
  refine xorLinear_stepBits.iterate_ne_zero stepBits_injective (toBitVec_ne_zero hseed) steps ?_
  rw [← toBitVec_iterate, hzero]
  rfl

/-! ### Request IDs -/

/-- The request ID that is drawn from a state. -/
def drawnId (state : UInt32) : List UInt8 :=
  (randomBytes libhothUsbFifoRequestIdSize state).1

theorem length_randomBytes (count : ℕ) (seed : UInt32) :
    (randomBytes count seed).1.length = count := by
  induction count generalizing seed with
  | zero => rfl
  | succ count ih => exact congrArg Nat.succ (ih _)

/-- Drawing bytes takes as many steps. -/
theorem randomBytes_snd (count : ℕ) (seed : UInt32) :
    (randomBytes count seed).2 = libhothGeneratePseudorandomU32^[count] seed := by
  induction count generalizing seed with
  | zero => rfl
  | succ count ih => exact ih (libhothGeneratePseudorandomU32 seed)

/-- Bytes packed into a vector, the first one lowest. -/
def packBytes : List UInt8 → BitVec 128
  | [] => 0
  | byte :: bytes => byte.toBitVec.setWidth 128 ^^^ packBytes bytes <<< 8

/-- The bytes that are drawn from a state, as a vector. -/
def drawnBits (count : ℕ) (state : BitVec 32) : BitVec 128 :=
  packBytes (randomBytes count ⟨state⟩).1

theorem xorLinear_drawnBits (count : ℕ) : XorLinear (drawnBits count) := by
  induction count with
  | zero => exact xorLinear_zero
  | succ count ih =>
    have hlow : XorLinear fun state ↦ ((stepBits state).setWidth 8).setWidth 128 :=
      (xorLinear_setWidth 128).comp ((xorLinear_setWidth 8).comp xorLinear_stepBits)
    have hhigh : XorLinear fun state ↦ drawnBits count (stepBits state) <<< 8 :=
      (xorLinear_shiftLeft 8).comp (ih.comp xorLinear_stepBits)
    exact hlow.xor hhigh

/-- A request ID gives away the state that it was drawn from. -/
theorem drawnId_injective : Function.Injective drawnId := by
  have hbits : Function.Injective (drawnBits libhothUsbFifoRequestIdSize) :=
    (xorLinear_drawnBits _).injective (by decide +kernel)
  intro first second hequal
  exact UInt32.toBitVec_inj.mp (hbits (congrArg packBytes hequal))

/-- As many steps as a request ID takes lead back to no state but zero. -/
theorem eq_zero_of_returns {state : UInt32}
    (hreturns : libhothGeneratePseudorandomU32^[libhothUsbFifoRequestIdSize] state = state) :
    state = 0 := by
  have hfixed : stepBits^[libhothUsbFifoRequestIdSize] state.toBitVec = state.toBitVec := by
    rw [← toBitVec_iterate, hreturns]
  exact UInt32.toBitVec_inj.mp
    ((xorLinear_stepBits.iterate _).eq_zero_of_fixed (by decide +kernel) hfixed)

/-- The next request ID is another one. -/
theorem drawnId_advanced_ne {state : UInt32} (hstate : state ≠ 0) :
    drawnId state ≠ drawnId (libhothGeneratePseudorandomU32^[libhothUsbFifoRequestIdSize] state) :=
  fun hequal ↦ hstate (eq_zero_of_returns (drawnId_injective hequal).symm)

end Libhoth.Transports.UsbFifoPrng
