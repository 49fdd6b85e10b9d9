import Mathlib.Data.Int.Notation
import Mathlib.Tactic.Common

/-!
# What the USB transports share

The status codes that the transports return as an `int`, and the fields of the descriptors that they
pick their endpoints from.
-/

set_option autoImplicit false
set_option relaxedAutoImplicit false

namespace Libhoth.Transports.Libusb

/-! ### Status codes -/

/-- `LIBHOTH_OK` as the `int` that the transport returns. -/
def libhothOk : ℤ := 0

/-- `LIBUSB_ERROR_IO`. -/
def libusbErrorIo : ℤ := -1

/-- `LIBUSB_ERROR_INVALID_PARAM`. -/
def libusbErrorInvalidParam : ℤ := -2

/-- `LIBUSB_ERROR_NO_DEVICE`. -/
def libusbErrorNoDevice : ℤ := -4

/-- `LIBUSB_ERROR_TIMEOUT`. -/
def libusbErrorTimeout : ℤ := -7

/-- `LIBUSB_ERROR_OVERFLOW`. -/
def libusbErrorOverflow : ℤ := -8

/-- `LIBUSB_ERROR_PIPE`. -/
def libusbErrorPipe : ℤ := -9

/-- `LIBUSB_ERROR_INTERRUPTED`. -/
def libusbErrorInterrupted : ℤ := -10

/-- `enum libusb_transfer_status`. -/
inductive LibusbTransferStatus
  | completed
  | error
  | timedOut
  | cancelled
  | stall
  | noDevice
  | overflow
  deriving DecidableEq

/-- `transfer_status_to_error`. -/
def transferStatusToError : LibusbTransferStatus → ℤ
  | .completed => libhothOk
  | .error | .cancelled => libusbErrorIo
  | .timedOut => libusbErrorTimeout
  | .stall => libusbErrorPipe
  | .noDevice => libusbErrorNoDevice
  | .overflow => libusbErrorOverflow

/-- Only a completed transfer is no error. -/
theorem transferStatusToError_eq_libhothOk_iff (status : LibusbTransferStatus) :
    transferStatusToError status = libhothOk ↔ status = .completed := by
  cases status <;> decide

/-! ### Descriptors -/

/-- `enum libhoth_usb_interface_type`. -/
inductive LibhothUsbInterfaceType
  | unknown
  | mailbox
  | fifo
  deriving DecidableEq

/-- The fields of `struct libusb_endpoint_descriptor` that the transport reads. -/
structure LibusbEndpointDescriptor where
  bEndpointAddress : UInt8
  bmAttributes : UInt8
  wMaxPacketSize : UInt16

/-- The direction is `LIBUSB_ENDPOINT_IN`. -/
def LibusbEndpointDescriptor.isIn (endpoint : LibusbEndpointDescriptor) : Bool :=
  endpoint.bEndpointAddress &&& 0x80 = 0x80

/-- The direction is `LIBUSB_ENDPOINT_OUT`. -/
def LibusbEndpointDescriptor.isOut (endpoint : LibusbEndpointDescriptor) : Bool :=
  endpoint.bEndpointAddress &&& 0x80 = 0

/-- The transfer type is `LIBUSB_TRANSFER_TYPE_BULK`. -/
def LibusbEndpointDescriptor.isBulk (endpoint : LibusbEndpointDescriptor) : Bool :=
  endpoint.bmAttributes &&& 0x03 = 2

end Libhoth.Transports.Libusb
