import Libhoth.Foundation.InteractingProgram
import Libhoth.Transports.LibhothEc

/-!
# The SPI transport

`libhoth_spi.c` on an open device. A request is sent and a response received in one of two ways.
`libhothSpiSendRequest` programs the request into the mailbox page by page, and
`libhothSpiReceiveResponse` reads the header and then the data that it announces. A device opened as
atomic keeps the request (`libhothSpiBufferRequest`), and `libhothSpiSendAndReceiveResponse` sends
it and reads the whole response buffer in one message of five transfers.

A message is a list of transfers, whose lengths are 32-bit words. The loop that waits for the device
need not end and is cut off after a number of rounds.
-/

set_option autoImplicit false
set_option relaxedAutoImplicit false

namespace Libhoth.Transports.SpiDevice

open Foundation.ByteString Foundation.CellMemory Foundation.InteractingProgram Protocol.Status
open LibhothEc

/-! ### Constants and error words -/

/-- `SPI_NOR_OPCODE_PAGE_PROGRAM`. -/
def spiNorOpcodePageProgram : UInt8 := 0x02

/-- `SPI_NOR_OPCODE_SLOW_READ`. -/
def spiNorOpcodeSlowRead : UInt8 := 0x03

/-- `SPI_NOR_OPCODE_READ_STATUS`. -/
def spiNorOpcodeReadStatus : UInt8 := 0x05

/-- `SPI_NOR_OPCODE_WRITE_ENABLE`. -/
def spiNorOpcodeWriteEnable : UInt8 := 0x06

/-- `SPI_NOR_DEVICE_STATUS_WIP_BIT`. -/
def spiNorDeviceStatusWipBit : UInt8 := 1

/-- `SPI_NOR_FLASH_PAGE_SIZE`. -/
def spiNorFlashPageSize : ℕ := 256

/-- An error word of the SPI transport. -/
def spiError (space : HothHostSpace) (code : ℤ) : LibhothError :=
  libhothErrConstruct (BitVec.ofNat 64 HothContextId.spi.value) (BitVec.ofNat 64 space.value)
    (BitVec.ofInt 64 code)

/-- `spi_err_posix`. -/
def spiErrPosix (errnum : ℤ) : LibhothError :=
  if errnum = 0 then hothSuccess else spiError .posix errnum

/-- `spi_err_libhoth`. -/
def spiErrLibhoth (libhothErr : ℤ) : LibhothError :=
  if libhothErr = libhothOk then hothSuccess else spiError .libhoth libhothErr

/-- An error word of the SPI transport is never success. -/
@[simp] theorem spiError_ne_success (space : HothHostSpace) (code : ℤ) :
    spiError space code ≠ hothSuccess :=
  libhothErrConstruct_ne_success (by decide) _ _

@[simp] theorem spiErrLibhoth_eq_success_iff (libhothErr : ℤ) :
    spiErrLibhoth libhothErr = hothSuccess ↔ libhothErr = libhothOk := by
  unfold spiErrLibhoth
  split_ifs with hok <;> simp [hok]

/-! ### Messages -/

/-- The fields of `struct spi_ioc_transfer` that the transport sets: the bytes behind the pointer
`tx_buf`, whether there is an `rx_buf`, the length, and whether the chip is deselected after it. -/
structure SpiIocTransfer where
  txBuf : Option (List UInt8)
  rxBuf : Bool
  len : UInt32
  csChange : Bool

/-- The number of bytes that a message receives. -/
def receivedLength : List SpiIocTransfer → ℕ
  | [] => 0
  | transfer :: rest =>
    (if transfer.rxBuf then transfer.len.toNat else 0) + receivedLength rest

/-- What the transport asks of the kernel and of the C library. `spi_nor_busy_wait` hands the
transfer itself to `ioctl` in place of its address, so that call is one of its own. -/
inductive SpiCall
  | message (transfers : List SpiIocTransfer)
  | statusMessage (transfer : SpiIocTransfer)
  | getMonotonicMs
  | usleep (us : ℕ)
  | malloc (size : ℕ)

/-- A message fails with an error number, or its receive buffers hold bytes. -/
inductive MessageReply (length : ℕ)
  | failed (errno : ℤ)
  | received (bytes : List UInt8) (filled : bytes.length = length)

/-- The replies: messages, the time in milliseconds unless the clock fails, and whether memory was
allocated. -/
abbrev SpiReply : SpiCall → Type
  | .message transfers => MessageReply (receivedLength transfers)
  | .statusMessage transfer => MessageReply transfer.len.toNat
  | .getMonotonicMs => Option ℕ
  | .usleep _ => Unit
  | .malloc _ => Bool

/-- Programs of the SPI transport. -/
abbrev SpiProgram := Interaction SpiReply

/-! ### The flash commands -/

/-- `struct libhoth_spi_device`. -/
structure LibhothSpiDevice where
  mailboxAddress : UInt32
  addressMode4b : Bool
  bufferedRequest : Option (List UInt8)
  deviceBusyWaitTimeout : UInt32
  deviceBusyWaitCheckInterval : UInt32

/-- The device that `libhoth_spi_open` leaves, for a mailbox and the two times of the options. -/
def libhothSpiOpened (mailbox timeout checkInterval : UInt32) : LibhothSpiDevice where
  mailboxAddress := mailbox
  addressMode4b := true
  bufferedRequest := none
  deviceBusyWaitTimeout := timeout
  deviceBusyWaitCheckInterval := checkInterval

/-- `spi_nor_address`: the address with its most significant byte first. -/
def spiNorAddress (address : UInt32) (addressMode4b : Bool) : List UInt8 :=
  (toLittleEndian (if addressMode4b then 4 else 3) address.toNat).reverse

/-- A transfer that sends the first bytes of a buffer. -/
def sending (bytes : List UInt8) (len : UInt32) (csChange : Bool) : SpiIocTransfer :=
  ⟨some bytes, false, len, csChange⟩

/-- A transfer that receives. -/
def receiving (len : UInt32) : SpiIocTransfer :=
  ⟨none, true, len, false⟩

/-- The transfer of a command with an address. -/
def commandTransfer (opcode : UInt8) (address : UInt32) (addressMode4b : Bool) : SpiIocTransfer :=
  let bytes := opcode :: spiNorAddress address addressMode4b
  sending bytes (UInt32.ofNat bytes.length) false

/-- The time that has passed, where the clock may wrap around. -/
def timeElapsedMs (startTimeMs currentTimeMs : ℕ) : ℕ :=
  if currentTimeMs < startTimeMs then (2 ^ 64 - 1 - startTimeMs) + currentTimeMs
  else currentTimeMs - startTimeMs

/-- One round of the loop of `spi_nor_busy_wait`. -/
def busyWaitRound (timeoutUs checkIntervalUs : UInt32) (startTimeMs : ℕ) (_ : Unit) :
    SpiProgram (Unit ⊕ ℤ) := do
  match ← request (SpiCall.statusMessage ⟨some [spiNorOpcodeReadStatus, 0], true, 2, false⟩) with
  | .failed _ => return .inr (statusInt .fail)
  | .received rxBuf _ =>
    if rxBuf.getD 1 0 &&& spiNorDeviceStatusWipBit = 0 then return .inr libhothOk
    else do
      match ← request SpiCall.getMonotonicMs with
      | none => return .inr (statusInt .fail)
      | some currentTimeMs =>
        if timeElapsedMs startTimeMs currentTimeMs > timeoutUs.toNat / 1000 then
          return .inr (statusInt .timeout)
        else do
          request (SpiCall.usleep checkIntervalUs.toNat)
          return .inl ()

/-- `spi_nor_busy_wait`. -/
def spiNorBusyWait (timeoutUs checkIntervalUs : UInt32) (rounds : ℕ) :
    SpiProgram (Option ℤ) := do
  match ← request SpiCall.getMonotonicMs with
  | none => return some (statusInt .fail)
  | some startTimeMs =>
    whileRounds (busyWaitRound timeoutUs checkIntervalUs startTimeMs) rounds ()

/-- `spi_nor_write_enable`. -/
def spiNorWriteEnable : SpiProgram ℤ := do
  match ← request (SpiCall.message [sending [spiNorOpcodeWriteEnable] 1 false]) with
  | .failed _ => return statusInt .fail
  | .received _ _ => return libhothOk

/-- The loop variables of `spi_nor_write`. -/
structure WriteState where
  address : UInt32
  bytesSent : ℕ

/-- One round of the loop of `spi_nor_write`. -/
def writeRound (spiDev : LibhothSpiDevice) (data : List UInt8) (rounds : ℕ) (state : WriteState) :
    SpiProgram ({next : WriteState //
      data.length - next.bytesSent < data.length - state.bytesSent} ⊕ Option ℤ) := do
  if hmore : state.bytesSent < data.length then do
    let status ← spiNorWriteEnable
    if status ≠ libhothOk then return .inr (some status)
    else do
      let chunkSendSize := min spiNorFlashPageSize (data.length - state.bytesSent)
      match ← request (SpiCall.message
        [commandTransfer spiNorOpcodePageProgram state.address spiDev.addressMode4b,
          sending (data.drop state.bytesSent) (UInt32.ofNat chunkSendSize) false]) with
      | .failed _ => return .inr (some (statusInt .fail))
      | .received _ _ => do
        match ← spiNorBusyWait spiDev.deviceBusyWaitTimeout spiDev.deviceBusyWaitCheckInterval
          rounds with
        | none => return .inr none
        | some busyWaitStatus =>
          if busyWaitStatus ≠ libhothOk then return .inr (some busyWaitStatus)
          else
            return .inl ⟨⟨state.address + UInt32.ofNat chunkSendSize,
              state.bytesSent + chunkSendSize⟩, by
                simp only [chunkSendSize, spiNorFlashPageSize]
                omega⟩
  else return .inr (some libhothOk)

/-- `spi_nor_write`. -/
def spiNorWrite (spiDev : LibhothSpiDevice) (address : UInt32) (data : List UInt8) (rounds : ℕ) :
    SpiProgram (Option ℤ) :=
  if data = [] then return some (statusInt .invalidParameter)
  else
    whileDecreasing (fun state : WriteState ↦ data.length - state.bytesSent)
      (writeRound spiDev data rounds) ⟨address, 0⟩

/-- `spi_nor_read` into a buffer: the status and the buffer. -/
def spiNorRead (spiDev : LibhothSpiDevice) (address : UInt32) (buffer : ℕ → UInt8)
    (offset len : ℕ) : SpiProgram (ℤ × (ℕ → UInt8)) := do
  if len = 0 then return (statusInt .invalidParameter, buffer)
  else do
    match ← request (SpiCall.message
      [commandTransfer spiNorOpcodeSlowRead address spiDev.addressMode4b,
        receiving (UInt32.ofNat len)]) with
    | .failed _ => return (statusInt .fail, buffer)
    | .received bytes _ => return (libhothOk, store buffer offset bytes)

/-! ### Sending and receiving -/

/-- `libhoth_spi_send_request`. -/
def libhothSpiSendRequest (spiDev : LibhothSpiDevice) (requestData : List UInt8) (rounds : ℕ) :
    SpiProgram (Option LibhothError) := do
  match ← spiNorWrite spiDev spiDev.mailboxAddress requestData rounds with
  | none => return none
  | some status => return some (spiErrLibhoth status)

/-- `libhoth_spi_receive_response`. -/
def libhothSpiReceiveResponse (spiDev : LibhothSpiDevice) (response : ℕ → UInt8)
    (maxResponseSize : ℕ) (actualSize : Option ℕ) : SpiProgram Received := do
  if maxResponseSize < hothHostResponseSize then
    return ⟨spiErrLibhoth (statusInt .invalidParameter), response, actualSize⟩
  else do
    let (status, response) ← spiNorRead spiDev spiDev.mailboxAddress response 0
      hothHostResponseSize
    if status ≠ libhothOk then return ⟨spiErrLibhoth status, response, actualSize⟩
    else do
      let hostDataLen := dataLen response
      let actualSize := actualSize.map fun _ ↦ hothHostResponseSize
      if maxResponseSize < hothHostResponseSize + hostDataLen then
        return ⟨spiErrLibhoth (statusInt .responseBufferOverflow), response, actualSize⟩
      else if hostDataLen > 0 then do
        let (status, response) ← spiNorRead spiDev
          (spiDev.mailboxAddress + UInt32.ofNat hothHostResponseSize) response
          hothHostResponseSize hostDataLen
        if status ≠ libhothOk then return ⟨spiErrLibhoth status, response, actualSize⟩
        else return ⟨hothSuccess, response, actualSize.map (· + hostDataLen)⟩
      else return ⟨hothSuccess, response, actualSize.map (· + hostDataLen)⟩

/-- `libhoth_spi_buffer_request`: the error and the device. -/
def libhothSpiBufferRequest (spiDev : LibhothSpiDevice) (requestData : List UInt8) :
    SpiProgram (LibhothError × LibhothSpiDevice) := do
  if spiDev.bufferedRequest.isSome then
    return (spiErrLibhoth (statusInt .interfaceBusy), spiDev)
  else do
    let allocated ← request (SpiCall.malloc requestData.length)
    if !allocated then return (spiErrLibhoth (statusInt .mallocFailed), spiDev)
    else return (hothSuccess, { spiDev with bufferedRequest := some requestData })

/-- The five transfers of `libhoth_spi_send_and_receive_response`. -/
def atomicTransfers (spiDev : LibhothSpiDevice) (requestData : List UInt8) (maxResponseSize : ℕ) :
    List SpiIocTransfer :=
  [sending [spiNorOpcodeWriteEnable] 1 true,
    commandTransfer spiNorOpcodePageProgram spiDev.mailboxAddress spiDev.addressMode4b,
    sending requestData (UInt32.ofNat requestData.length) true,
    commandTransfer spiNorOpcodeSlowRead spiDev.mailboxAddress spiDev.addressMode4b,
    receiving (UInt32.ofNat maxResponseSize)]

/-- `libhoth_spi_send_and_receive_response`: what it leaves, and the device. -/
def libhothSpiSendAndReceiveResponse (spiDev : LibhothSpiDevice) (response : ℕ → UInt8)
    (maxResponseSize : ℕ) (actualSize : Option ℕ) :
    SpiProgram (Received × LibhothSpiDevice) := do
  if maxResponseSize < hothHostResponseSize then
    return (⟨spiErrLibhoth (statusInt .invalidParameter), response, actualSize⟩, spiDev)
  else
    match spiDev.bufferedRequest with
    | none =>
      return (⟨spiErrLibhoth (statusInt .interfaceBusy), response, actualSize⟩, spiDev)
    | some requestData => do
      let released := { spiDev with bufferedRequest := none }
      match ← request (SpiCall.message (atomicTransfers spiDev requestData maxResponseSize)) with
      | .failed errno => return (⟨spiErrPosix errno, response, actualSize⟩, released)
      | .received bytes _ =>
        let response := store response 0 bytes
        if dataLen response > maxResponseSize - hothHostResponseSize then
          return (⟨spiErrLibhoth (statusInt .responseBufferOverflow), response,
            actualSize⟩, released)
        else
          return (⟨hothSuccess, response,
            actualSize.map fun _ ↦ dataLen response + hothHostResponseSize⟩, released)

end Libhoth.Transports.SpiDevice
