import Libhoth.Foundation.ByteString
import Libhoth.Foundation.CellMemory
import Libhoth.Protocol.Status
import Mathlib.Data.Int.Notation

/-!
# What the SPI and the MTD transport share

Both find the response of the host command in a mailbox, behind the header of `libhoth_ec.h`, and
both compute with the library's statuses as `int`s. The caller's buffer is a memory of bytes.
-/

set_option autoImplicit false
set_option relaxedAutoImplicit false

namespace Libhoth.Transports.LibhothEc

open Foundation.ByteString Foundation.CellMemory Protocol.Status

/-- A `libhoth_status` as an `int`. -/
def statusInt (status : LibhothStatus) : ℤ := status.value

/-- `LIBHOTH_OK`. -/
def libhothOk : ℤ := statusInt .ok

@[simp] theorem statusInt_eq_libhothOk_iff (status : LibhothStatus) :
    statusInt status = libhothOk ↔ status = .ok := by
  cases status <;> decide

/-- The size of `struct hoth_host_response`. -/
def hothHostResponseSize : ℕ := 8

/-- `data_len` of the `struct hoth_host_response` in a buffer. -/
def dataLen (response : ℕ → UInt8) : ℕ :=
  littleEndian (load response 4 2)

theorem dataLen_lt (response : ℕ → UInt8) : dataLen response < 2 ^ 16 := by
  have hlt := littleEndian_lt (load response 4 2)
  rwa [length_load] at hlt

/-- What a receive function leaves: its error, the caller's buffer, and the caller's size, which is
missing when the pointer to it is null. -/
structure Received where
  error : LibhothError
  response : ℕ → UInt8
  actualSize : Option ℕ

end Libhoth.Transports.LibhothEc
