import Mathlib.Tactic.Common

/-!
# The 64-bit error word

`libhoth_error` packs a context (16 bits), a space (16 bits) and a code (32 bits) into one word;
zero is success. `libhothErrConstruct` packs and `libhothErrGetCtx`, `libhothErrGetSpace`,
`libhothErrGetCode` unpack, as the macros of `status.h` do. The three projections recover what was
packed, cut to its width, so an error packed with a non-zero context is never success
(`libhothErrConstruct_ne_success`).
-/

set_option autoImplicit false
set_option relaxedAutoImplicit false

namespace Libhoth.Protocol.Status

/-- `libhoth_error`, an unsigned 64-bit word. -/
abbrev LibhothError := BitVec 64

/-- `HOTH_SUCCESS`. -/
def hothSuccess : LibhothError := 0

/-- `libhoth_status`, the codes of the library's own errors. -/
inductive LibhothStatus
  | ok
  | unknownVendor
  | interfaceNotFound
  | mallocFailed
  | timeout
  | outUnderflow
  | inOverflow
  | unsupportedVersion
  | invalidParameter
  | fail
  | responseBufferOverflow
  | interfaceBusy
  | dfuAppMismatch
  | dfuRomextMismatch
  | initiateFail
  | commitFail
  | badImage
  | imageNotSectorAligned
  deriving DecidableEq, Repr

/-- The numeric value of a `libhoth_status`. -/
def LibhothStatus.value : LibhothStatus → ℕ
  | ok => 0
  | unknownVendor => 1
  | interfaceNotFound => 2
  | mallocFailed => 3
  | timeout => 4
  | outUnderflow => 5
  | inOverflow => 6
  | unsupportedVersion => 7
  | invalidParameter => 8
  | fail => 9
  | responseBufferOverflow => 10
  | interfaceBusy => 11
  | dfuAppMismatch => 12
  | dfuRomextMismatch => 13
  | initiateFail => 14
  | commitFail => 15
  | badImage => 16
  | imageNotSectorAligned => 17

/-- `hoth_context_id`, the subsystem an error comes from. -/
inductive HothContextId
  | none
  | init
  | usb
  | spi
  | cmdExec
  deriving DecidableEq, Repr

/-- The numeric value of a `hoth_context_id`. -/
def HothContextId.value : HothContextId → ℕ
  | none => 0
  | init => 1
  | usb => 10
  | spi => 20
  | cmdExec => 30

/-- `hoth_host_space`, the domain an error code belongs to. -/
inductive HothHostSpace
  | ec
  | mtd
  | libusb
  | spidev
  | libhoth
  | pierotErr
  | posix
  deriving DecidableEq, Repr

/-- The numeric value of a `hoth_host_space`. -/
def HothHostSpace.value : HothHostSpace → ℕ
  | ec => 1
  | mtd => 2
  | libusb => 3
  | spidev => 4
  | libhoth => 5
  | pierotErr => 6
  | posix => 7

/-- The result codes of an embedded-controller response that the library names in its own
errors. -/
inductive HothStatus
  | success
  | invalidCommand
  | busError
  | invalidResponseSize
  deriving DecidableEq, Repr

/-- The numeric value of a `hoth_status`. -/
def HothStatus.value : HothStatus → ℕ
  | success => 0
  | invalidCommand => 1
  | busError => 15
  | invalidResponseSize => 21

/-- `LIBHOTH_ERR_CONSTRUCT`: pack a context, a space and a code, each cut to its field. -/
def libhothErrConstruct (ctx space code : BitVec 64) : LibhothError :=
  ((ctx &&& 0xFFFF#64) <<< 48) ||| ((space &&& 0xFFFF#64) <<< 32) ||| (code &&& 0xFFFFFFFF#64)

/-- `LIBHOTH_ERR_GET_CTX`. -/
def libhothErrGetCtx (err : LibhothError) : BitVec 16 :=
  ((err >>> 48) &&& 0xFFFF#64).setWidth 16

/-- `LIBHOTH_ERR_GET_SPACE`. -/
def libhothErrGetSpace (err : LibhothError) : BitVec 16 :=
  ((err >>> 32) &&& 0xFFFF#64).setWidth 16

/-- `LIBHOTH_ERR_GET_CODE`. -/
def libhothErrGetCode (err : LibhothError) : BitVec 32 :=
  (err &&& 0xFFFFFFFF#64).setWidth 32

theorem getLsbD_ffff (index : ℕ) : (0xFFFF#64).getLsbD index = decide (index < 16) := by
  have hmask : (0xFFFF#64) = (BitVec.allOnes 16).setWidth 64 := by decide
  rw [hmask, BitVec.getLsbD_setWidth, BitVec.getLsbD_allOnes]
  grind

theorem getLsbD_ffffffff (index : ℕ) : (0xFFFFFFFF#64).getLsbD index = decide (index < 32) := by
  have hmask : (0xFFFFFFFF#64) = (BitVec.allOnes 32).setWidth 64 := by decide
  rw [hmask, BitVec.getLsbD_setWidth, BitVec.getLsbD_allOnes]
  grind

@[simp] theorem libhothErrGetCtx_construct (ctx space code : BitVec 64) :
    libhothErrGetCtx (libhothErrConstruct ctx space code) = ctx.setWidth 16 := by
  apply BitVec.eq_of_getLsbD_eq
  intro index hindex
  simp only [libhothErrGetCtx, libhothErrConstruct, BitVec.getLsbD_setWidth, BitVec.getLsbD_and,
    BitVec.getLsbD_ushiftRight, BitVec.getLsbD_or, BitVec.getLsbD_shiftLeft, getLsbD_ffff,
    getLsbD_ffffffff]
  grind

@[simp] theorem libhothErrGetSpace_construct (ctx space code : BitVec 64) :
    libhothErrGetSpace (libhothErrConstruct ctx space code) = space.setWidth 16 := by
  apply BitVec.eq_of_getLsbD_eq
  intro index hindex
  simp only [libhothErrGetSpace, libhothErrConstruct, BitVec.getLsbD_setWidth,
    BitVec.getLsbD_and, BitVec.getLsbD_ushiftRight, BitVec.getLsbD_or, BitVec.getLsbD_shiftLeft,
    getLsbD_ffff, getLsbD_ffffffff]
  grind

@[simp] theorem libhothErrGetCode_construct (ctx space code : BitVec 64) :
    libhothErrGetCode (libhothErrConstruct ctx space code) = code.setWidth 32 := by
  apply BitVec.eq_of_getLsbD_eq
  intro index hindex
  simp only [libhothErrGetCode, libhothErrConstruct, BitVec.getLsbD_setWidth, BitVec.getLsbD_and,
    BitVec.getLsbD_or, BitVec.getLsbD_shiftLeft, getLsbD_ffff, getLsbD_ffffffff]
  grind

/-- An error packed with a context that is not zero in its field is never success. -/
theorem libhothErrConstruct_ne_success {ctx : BitVec 64} (hctx : ctx.setWidth 16 ≠ 0#16)
    (space code : BitVec 64) : libhothErrConstruct ctx space code ≠ hothSuccess := by
  intro hsuccess
  have hpacked := libhothErrGetCtx_construct ctx space code
  rw [hsuccess] at hpacked
  exact hctx (hpacked.symm.trans (by decide))

/-- The errors of host command execution: `HOTH_CTX_CMD_EXEC` with a space and a code. -/
def cmdExecError (space : HothHostSpace) (code : BitVec 64) : LibhothError :=
  libhothErrConstruct (BitVec.ofNat 64 HothContextId.cmdExec.value)
    (BitVec.ofNat 64 space.value) code

/-- The library's own errors of host command execution. -/
def cmdExecStatus (status : LibhothStatus) : LibhothError :=
  cmdExecError .libhoth (BitVec.ofNat 64 status.value)

@[simp] theorem cmdExecError_ne_success (space : HothHostSpace) (code : BitVec 64) :
    cmdExecError space code ≠ hothSuccess :=
  libhothErrConstruct_ne_success (by decide) _ _

@[simp] theorem cmdExecStatus_ne_success (status : LibhothStatus) :
    cmdExecStatus status ≠ hothSuccess :=
  cmdExecError_ne_success _ _

@[simp] theorem libhothErrGetSpace_cmdExecError (space : HothHostSpace) (code : BitVec 64) :
    libhothErrGetSpace (cmdExecError space code) = BitVec.ofNat 16 space.value := by
  rw [cmdExecError, libhothErrGetSpace_construct]
  cases space <;> rfl

@[simp] theorem libhothErrGetCode_cmdExecError (space : HothHostSpace) (code : BitVec 64) :
    libhothErrGetCode (cmdExecError space code) = code.setWidth 32 :=
  libhothErrGetCode_construct _ _ _

end Libhoth.Protocol.Status
