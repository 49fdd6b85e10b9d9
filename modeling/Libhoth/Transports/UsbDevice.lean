import Libhoth.Transports.UsbMailbox

/-!
# Opening a USB device

`libhoth_usb.c`, `libhoth_claim_device` of `libhoth_device.c`, and the open and close functions of
the two drivers. What these functions ask of libusb and of the C library is a `UsbDeviceCall`; a
search for a device, an allocation or a claim is one call, which may fail.

A device keeps the data of its driver in a union. It is modelled as the cells that the union
consists of, at the offsets of a 64-bit platform: the packet sizes and endpoints of the mailbox
driver are the first six bytes, and the FIFO driver has them behind four pointers. `libhothUsbOpen`
and `libhothUsbReconnect` leave a device with a handle and driver data, or without a handle.

Three loops need not end: that around `libusb_open`, that of `libhoth_claim_device`, and that of
`libhoth_usb_reconnect`. Each is cut off after a number of rounds.
-/

set_option autoImplicit false
set_option relaxedAutoImplicit false

namespace Libhoth.Transports.UsbDevice

open Foundation.ByteString Foundation.CellMemory Foundation.InteractingProgram
open Protocol.Status Libusb UsbMailbox

/-! ### Error words -/

/-- `LIBUSB_ERROR_ACCESS`. -/
def libusbErrorAccess : ℤ := -3

/-- `LIBUSB_ERROR_BUSY`. -/
def libusbErrorBusy : ℤ := -6

/-- `LIBUSB_ERROR_OTHER`. -/
def libusbErrorOther : ℤ := -99

/-- `LIBHOTH_ERR_MALLOC_FAILED` as an `int`. -/
def libhothErrMallocFailed : ℤ := LibhothStatus.mallocFailed.value

/-- `LIBHOTH_ERR_INTERFACE_NOT_FOUND` as an `int`. -/
def libhothErrInterfaceNotFound : ℤ := LibhothStatus.interfaceNotFound.value

/-- An error word of the USB transport. -/
def usbError (space : HothHostSpace) (code : ℤ) : LibhothError :=
  libhothErrConstruct (BitVec.ofNat 64 HothContextId.usb.value) (BitVec.ofNat 64 space.value)
    (BitVec.ofInt 64 code)

/-- `usb_err_libusb`. -/
def usbErrLibusb (libusbErr : ℤ) : LibhothError :=
  if libusbErr = 0 then hothSuccess else usbError .libusb libusbErr

/-- `usb_err_libhoth`. -/
def usbErrLibhoth (libhothErr : ℤ) : LibhothError :=
  if libhothErr = libhothOk then hothSuccess else usbError .libhoth libhothErr

/-- `wrap_usb_err`. -/
def wrapUsbErr (ret : ℤ) : LibhothError :=
  if ret < 0 then usbErrLibusb ret else usbErrLibhoth ret

/-- An error word of the USB transport is never success. -/
@[simp] theorem usbError_ne_success (space : HothHostSpace) (code : ℤ) :
    usbError space code ≠ hothSuccess :=
  libhothErrConstruct_ne_success (by decide) _ _

@[simp] theorem usbErrLibusb_eq_success_iff (libusbErr : ℤ) :
    usbErrLibusb libusbErr = hothSuccess ↔ libusbErr = 0 := by
  unfold usbErrLibusb
  split_ifs with hzero <;> simp [hzero]

@[simp] theorem usbErrLibhoth_eq_success_iff (libhothErr : ℤ) :
    usbErrLibhoth libhothErr = hothSuccess ↔ libhothErr = libhothOk := by
  unfold usbErrLibhoth
  split_ifs with hzero <;> simp [hzero]

@[simp] theorem wrapUsbErr_eq_success_iff (ret : ℤ) :
    wrapUsbErr ret = hothSuccess ↔ ret = libhothOk := by
  unfold wrapUsbErr
  split_ifs with hnegative
  · exact usbErrLibusb_eq_success_iff ret
  · exact usbErrLibhoth_eq_success_iff ret

/-! ### Descriptors -/

/-- The fields of `struct libusb_interface_descriptor` that the transport reads. -/
structure LibusbInterfaceDescriptor where
  bInterfaceClass : UInt8
  bInterfaceSubClass : UInt8
  bInterfaceProtocol : UInt8
  endpoints : List LibusbEndpointDescriptor

/-- `struct libusb_config_descriptor`: the alternate settings of each interface. -/
abbrev LibusbConfigDescriptor := List (List LibusbInterfaceDescriptor)

/-- `struct libhoth_usb_interface_info`. -/
structure LibhothUsbInterfaceInfo where
  type : LibhothUsbInterfaceType
  interfaceId : UInt8
  interfaceAltsetting : UInt8

/-- The type that the class, subclass and protocol of an interface say. -/
def LibusbInterfaceDescriptor.type (interface : LibusbInterfaceDescriptor) :
    LibhothUsbInterfaceType :=
  if interface.bInterfaceClass ≠ 0xFF then .unknown
  else if interface.bInterfaceSubClass = 0x71 ∧ interface.bInterfaceProtocol = 0x01 then .mailbox
  else if interface.bInterfaceSubClass = 0x58 ∧ interface.bInterfaceProtocol = 0x01 then .fifo
  else .unknown

/-- The inner loop of `libhoth_usb_find_interface`, from an alternate setting on. -/
def findAltsetting (interfaceId : ℕ) :
    List LibusbInterfaceDescriptor → ℕ → Option LibhothUsbInterfaceInfo
  | [], _ => none
  | interface :: rest, altsetting =>
    if interface.type = .unknown then findAltsetting interfaceId rest (altsetting + 1)
    else some ⟨interface.type, UInt8.ofNat interfaceId, UInt8.ofNat altsetting⟩

/-- The outer loop of `libhoth_usb_find_interface`, from an interface on. -/
def findInterfaceFrom : LibusbConfigDescriptor → ℕ → Option LibhothUsbInterfaceInfo
  | [], _ => none
  | altsettings :: rest, interfaceId =>
    match findAltsetting interfaceId altsettings 0 with
    | some info => some info
    | none => findInterfaceFrom rest (interfaceId + 1)

/-- `libhoth_usb_find_interface`. -/
def libhothUsbFindInterface (configuration : LibusbConfigDescriptor) : LibhothUsbInterfaceInfo :=
  (findInterfaceFrom configuration 0).getD ⟨.unknown, 0, 0⟩

/-- The endpoints of the interface that an info names. -/
def selectedEndpoints (configuration : LibusbConfigDescriptor) (info : LibhothUsbInterfaceInfo) :
    List LibusbEndpointDescriptor :=
  match configuration[info.interfaceId.toNat]? with
  | none => []
  | some altsettings =>
    match altsettings[info.interfaceAltsetting.toNat]? with
    | none => []
    | some interface => interface.endpoints

/-! ### Calls -/

/-- `struct libhoth_usb_loc`. -/
structure LibhothUsbLoc where
  bus : UInt8
  ports : List UInt8

/-- What opening a device asks of libusb and of the C library. Devices are numbers. -/
inductive UsbDeviceCall
  | getMonotonicMs
  | getDevice (loc : LibhothUsbLoc)
  | prngSeed
  | usleep (us : ℕ)
  | calloc
  | getDeviceDescriptor (device : ℕ)
  | getActiveConfigDescriptor (device : ℕ)
  | getBusNumber (device : ℕ)
  | getPortNumbers (device : ℕ)
  | libusbOpen (device : ℕ)
  | claimInterface (handle : ℕ) (interfaceId : UInt8)
  | releaseInterface (handle : ℕ) (interfaceId : UInt8)
  | libusbClose (handle : ℕ)
  | allocTransfer
  | malloc
  | freeTransfer (pointer : ℕ)
  | free (pointer : ℕ)

/-- A status other than zero, or a value. -/
inductive StatusOr (α : Type)
  | failed (status : ℤ) (nonzero : status ≠ 0)
  | ok (value : α)

/-- The replies: times and seeds, whether the struct of a device could be allocated, statuses with
what was asked for, and pointers, which are zero when an allocation failed. -/
abbrev UsbDeviceReply : UsbDeviceCall → Type
  | .getMonotonicMs => ℕ
  | .getDevice _ => StatusOr ℕ
  | .prngSeed => UInt32
  | .usleep _ => Unit
  | .calloc => Bool
  | .getDeviceDescriptor _ => StatusOr UInt16
  | .getActiveConfigDescriptor _ => StatusOr LibusbConfigDescriptor
  | .getBusNumber _ => UInt8
  | .getPortNumbers _ => StatusOr (List UInt8)
  | .libusbOpen _ => StatusOr ℕ
  | .claimInterface _ _ => ℤ
  | .releaseInterface _ _ => ℤ
  | .libusbClose _ => Unit
  | .allocTransfer => ℕ
  | .malloc => ℕ
  | .freeTransfer _ => Unit
  | .free _ => Unit

/-- Programs that open a device. -/
abbrev UsbDeviceProgram := Interaction UsbDeviceReply

/-! ### Devices -/

/-- `struct libhoth_usb_device`, with the cells of its union. A handle is missing when the pointer
is null. -/
structure LibhothUsbDevice where
  handle : Option ℕ
  claimTimeoutUs : UInt32
  loc : LibhothUsbLoc
  info : LibhothUsbInterfaceInfo
  driverData : ℕ → UInt8

/-- The word at an offset of the union. -/
def loadWord (cells : ℕ → UInt8) (offset width : ℕ) : ℕ :=
  littleEndian (load cells offset width)

/-- Store a word at an offset of the union. -/
def storeWord (cells : ℕ → UInt8) (offset width value : ℕ) : ℕ → UInt8 :=
  store cells offset (toLittleEndian width value)

/-- The offset of the packet sizes and endpoints of the mailbox driver. -/
def mailboxFields : ℕ := 0

/-- The size of `struct libhoth_usb_mailbox`. -/
def mailboxSize : ℕ := 6

/-- The offset of the packet sizes and endpoints of the FIFO driver, behind four pointers. -/
def fifoFields : ℕ := 32

/-- The size of `struct libhoth_usb_fifo`. -/
def fifoSize : ℕ := 56

/-- The packet sizes and endpoints at an offset. -/
def loadEndpoints (cells : ℕ → UInt8) (offset : ℕ) : LibhothUsbMailbox where
  maxPacketSizeIn := UInt16.ofNat (loadWord cells offset 2)
  maxPacketSizeOut := UInt16.ofNat (loadWord cells (offset + 2) 2)
  epIn := cells (offset + 4)
  epOut := cells (offset + 5)

/-- Store packet sizes and endpoints at an offset. -/
def storeEndpoints (cells : ℕ → UInt8) (offset : ℕ) (fields : LibhothUsbMailbox) : ℕ → UInt8 :=
  store cells offset (toLittleEndian 2 fields.maxPacketSizeIn.toNat ++
    toLittleEndian 2 fields.maxPacketSizeOut.toNat ++ [fields.epIn, fields.epOut])

/-! ### The drivers -/

/-- `libhoth_usb_mailbox_open` on the union. -/
def mailboxOpen (type : LibhothUsbInterfaceType) (cells : ℕ → UInt8)
    (endpoints : List LibusbEndpointDescriptor) : ℤ × (ℕ → UInt8) :=
  let opened := libhothUsbMailboxOpen type (loadEndpoints cells mailboxFields) endpoints
  (opened.1, storeEndpoints cells mailboxFields opened.2)

/-- `libhoth_usb_mailbox_close` on the union. -/
def mailboxClose (cells : ℕ → UInt8) : ℕ → UInt8 :=
  store cells 0 (List.replicate mailboxSize 0)

/-- The part of `libhoth_usb_fifo_open` behind the endpoints: two transfers, two buffers, and the
state of the driver. -/
def fifoAllocate (cells : ℕ → UInt8) (prngSeed : UInt32) :
    UsbDeviceProgram (ℤ × (ℕ → UInt8)) := do
  let inTransfer ← request UsbDeviceCall.allocTransfer
  let outTransfer ← request UsbDeviceCall.allocTransfer
  let cells := storeWord (storeWord cells 0 8 inTransfer) 8 8 outTransfer
  if inTransfer = 0 ∨ outTransfer = 0 then return (libhothErrMallocFailed, cells)
  else do
    let inBuffer ← request UsbDeviceCall.malloc
    let outBuffer ← request UsbDeviceCall.malloc
    let cells := storeWord (storeWord cells 16 8 inBuffer) 24 8 outBuffer
    if inBuffer = 0 ∨ outBuffer = 0 then do
      if inBuffer ≠ 0 then request (UsbDeviceCall.free inBuffer)
      if outBuffer ≠ 0 then request (UsbDeviceCall.free outBuffer)
      request (UsbDeviceCall.freeTransfer inTransfer)
      request (UsbDeviceCall.freeTransfer outTransfer)
      return (libhothErrMallocFailed, cells)
    else
      let cells := storeWord cells 48 4 prngSeed.toNat
      let cells := store cells 44 [1, 1]
      return (libhothOk, storeWord cells 40 4 1)

/-- `libhoth_usb_fifo_open` on the union. The loop over the endpoints is that of the mailbox
driver. -/
def fifoOpen (type : LibhothUsbInterfaceType) (cells : ℕ → UInt8)
    (endpoints : List LibusbEndpointDescriptor) (prngSeed : UInt32) :
    UsbDeviceProgram (ℤ × (ℕ → UInt8)) :=
  if type ≠ .fifo ∨ prngSeed = 0 then return (libusbErrorInvalidParam, cells)
  else
    let (status, fields) := mailboxEndpoints (loadEndpoints cells fifoFields) endpoints
    let cells := storeEndpoints cells fifoFields fields
    if status ≠ libhothOk then return (status, cells)
    else if fields.epIn = 0 ∨ fields.epOut = 0 then return (libusbErrorInvalidParam, cells)
    else fifoAllocate cells prngSeed

/-- `libhoth_usb_fifo_close` on the union. -/
def fifoClose (cells : ℕ → UInt8) : UsbDeviceProgram (ℕ → UInt8) := do
  if loadWord cells 16 8 ≠ 0 then request (UsbDeviceCall.free (loadWord cells 16 8))
  if loadWord cells 24 8 ≠ 0 then request (UsbDeviceCall.free (loadWord cells 24 8))
  request (UsbDeviceCall.freeTransfer (loadWord cells 0 8))
  request (UsbDeviceCall.freeTransfer (loadWord cells 8 8))
  return store cells 0 (List.replicate fifoSize 0)

/-! ### Claiming -/

/-- `MAX_SINGLE_SLEEP_US`. -/
def maxSingleSleepUs : ℕ := 1000 * 1000 - 1

/-- `BACKOFF_FACTOR`. -/
def backoffFactor : ℕ := 2

/-- `INITIAL_WAIT_US`. -/
def initialWaitUs : ℕ := 10 * 1000

/-- The loop variables of `libhoth_claim_device`. -/
structure ClaimWait where
  waitUs : UInt32
  totalWaitingUs : UInt32

/-- What the loop of `libhoth_claim_device` does to its variables after a sleep. -/
def ClaimWait.slept (wait : ClaimWait) : ClaimWait where
  totalWaitingUs :=
    if wait.totalWaitingUs.toNat ≤ (2 ^ 32 - 1) - wait.waitUs.toNat then
      wait.totalWaitingUs + wait.waitUs
    else UInt32.ofNat (2 ^ 32 - 1)
  waitUs :=
    if wait.waitUs.toNat ≤ maxSingleSleepUs / backoffFactor then
      wait.waitUs * UInt32.ofNat backoffFactor
    else UInt32.ofNat maxSingleSleepUs

/-- One round of the loop of `libhoth_claim_device`, for the claim function of a transport. -/
def claimRound (claim : UsbDeviceProgram LibhothError) (timeoutUs : UInt32) (wait : ClaimWait) :
    UsbDeviceProgram (ClaimWait ⊕ LibhothError) := do
  let status ← claim
  if status = hothSuccess then return .inr hothSuccess
  else if libhothErrGetCode status ≠ BitVec.ofNat 32 LibhothStatus.interfaceBusy.value then
    return .inr status
  else if wait.totalWaitingUs ≥ timeoutUs then
    return .inr (libhothErrConstruct (BitVec.ofNat 64 HothContextId.init.value)
      (BitVec.ofNat 64 HothHostSpace.libhoth.value)
      (BitVec.ofNat 64 LibhothStatus.interfaceBusy.value))
  else do
    request (UsbDeviceCall.usleep wait.waitUs.toNat)
    return .inl wait.slept

/-- `libhoth_claim_device`. -/
def libhothClaimDevice (claim : UsbDeviceProgram LibhothError) (timeoutUs : UInt32)
    (rounds : ℕ) : UsbDeviceProgram (Option LibhothError) :=
  whileRounds (claimRound claim timeoutUs) rounds ⟨UInt32.ofNat initialWaitUs, 0⟩

/-- `libhoth_usb_claim`, for a device with a handle. -/
def libhothUsbClaim (handle : ℕ) (interfaceId : UInt8) : UsbDeviceProgram LibhothError := do
  let status ← request (UsbDeviceCall.claimInterface handle interfaceId)
  return if status = libusbErrorBusy then usbErrLibhoth LibhothStatus.interfaceBusy.value
    else usbErrLibusb status

/-! ### Opening and closing -/

/-- `libhoth_usb_close_internal`. Its status is not used when a device is reopened. -/
def libhothUsbCloseInternal (usbDev : LibhothUsbDevice) : UsbDeviceProgram LibhothUsbDevice :=
  match usbDev.handle with
  | none => return usbDev
  | some handle => do
    let cells ← match usbDev.info.type with
      | .mailbox => pure (mailboxClose usbDev.driverData)
      | .fifo => fifoClose usbDev.driverData
      | .unknown => pure usbDev.driverData
    let _ ← request (UsbDeviceCall.releaseInterface handle usbDev.info.interfaceId)
    request (UsbDeviceCall.libusbClose handle)
    return { usbDev with handle := none, driverData := cells }

/-- `struct libhoth_usb_device_init_options`. -/
structure LibhothUsbDeviceInitOptions where
  usbDevice : ℕ
  prngSeed : UInt32
  timeoutUs : UInt32

/-- What `libhoth_usb_device_open` leaves: its error and the device, if there is one. -/
abbrev OpenOutcome := LibhothError × Option LibhothUsbDevice

/-- The label `err_out` of `libhoth_usb_device_open`. -/
def errOut (status : LibhothError) (usbDev : LibhothUsbDevice) :
    UsbDeviceProgram OpenOutcome :=
  match usbDev.handle with
  | none => return (status, some usbDev)
  | some handle => do
    let _ ← request (UsbDeviceCall.releaseInterface handle usbDev.info.interfaceId)
    request (UsbDeviceCall.libusbClose handle)
    return (status, some { usbDev with handle := none })

/-- `libhoth_get_usb_loc`: the status and the location that it leaves. -/
def libhothGetUsbLoc (device : ℕ) (loc : LibhothUsbLoc) :
    UsbDeviceProgram (ℤ × LibhothUsbLoc) := do
  let bus ← request (UsbDeviceCall.getBusNumber device)
  match ← request (UsbDeviceCall.getPortNumbers device) with
  | .failed status _ => return (status, { loc with bus := bus })
  | .ok ports => return (0, ⟨bus, ports⟩)

/-- One round of the loop around `libusb_open`, with `wait_time_us`. -/
def openRound (options : LibhothUsbDeviceInitOptions) (waitTimeUs : UInt32) :
    UsbDeviceProgram (UInt32 ⊕ StatusOr ℕ) := do
  match ← request (UsbDeviceCall.libusbOpen options.usbDevice) with
  | .ok handle => return .inr (.ok handle)
  | .failed status nonzero =>
    if (libhothErrGetCode (usbErrLibusb status)).toInt ≠ libusbErrorAccess then
      return .inr (.failed status nonzero)
    else if waitTimeUs ≥ options.timeoutUs then return .inr (.failed status nonzero)
    else do
      request (UsbDeviceCall.usleep 1000)
      return .inl (waitTimeUs + 1000)

/-- The part of `libhoth_usb_device_open` that fills in the data of the driver. -/
def driverOpen (usbDev : LibhothUsbDevice) (endpoints : List LibusbEndpointDescriptor)
    (prngSeed : UInt32) : UsbDeviceProgram OpenOutcome := do
  let (status, cells) ← match usbDev.info.type with
    | .mailbox =>
      pure ((mailboxOpen usbDev.info.type usbDev.driverData endpoints).map wrapUsbErr id)
    | .fifo => do
      let opened ← fifoOpen usbDev.info.type usbDev.driverData endpoints prngSeed
      pure (opened.map wrapUsbErr id)
    | .unknown => pure (usbErrLibhoth libhothErrInterfaceNotFound, usbDev.driverData)
  if status ≠ hothSuccess then errOut status { usbDev with driverData := cells }
  else return (hothSuccess, some { usbDev with driverData := cells })

/-- The part of `libhoth_usb_device_open` from `libusb_open` on. -/
def connect (options : LibhothUsbDeviceInitOptions) (usbDev : LibhothUsbDevice)
    (endpoints : List LibusbEndpointDescriptor) (rounds : ℕ) :
    UsbDeviceProgram (Option OpenOutcome) := do
  match ← whileRounds (openRound options) rounds 0 with
  | none => return none
  | some (.failed status _) => return some (← errOut (usbErrLibusb status) usbDev)
  | some (.ok handle) => do
    let usbDev := { usbDev with handle := some handle }
    match ← libhothClaimDevice (libhothUsbClaim handle usbDev.info.interfaceId) options.timeoutUs
      rounds with
    | none => return none
    | some status =>
      if status ≠ hothSuccess then return some (← errOut status usbDev)
      else return some (← driverOpen usbDev endpoints options.prngSeed)

/-- The struct of a device after `calloc`. -/
def clearedDevice : LibhothUsbDevice where
  handle := none
  claimTimeoutUs := 0
  loc := ⟨0, []⟩
  info := ⟨.unknown, 0, 0⟩
  driverData := fun _ ↦ 0

/-- The part of `libhoth_usb_device_open` that finds or allocates the struct of the device. -/
def libhothUsbDeviceStruct (usbDev : Option LibhothUsbDevice) :
    UsbDeviceProgram (Option LibhothUsbDevice) :=
  match usbDev with
  | some usbDev => return some usbDev
  | none => do
    let allocated ← request UsbDeviceCall.calloc
    return if allocated then some clearedDevice else none

/-- `libhoth_usb_device_open`: the error and the device, which may be missing before and after. -/
def libhothUsbDeviceOpen (options : LibhothUsbDeviceInitOptions)
    (usbDev : Option LibhothUsbDevice) (rounds : ℕ) : UsbDeviceProgram (Option OpenOutcome) := do
  match ← request (UsbDeviceCall.getDeviceDescriptor options.usbDevice) with
  | .failed status _ => return some (usbErrLibusb status, usbDev)
  | .ok idVendor =>
    if idVendor ≠ 0x18D1 then
      return some (usbErrLibhoth LibhothStatus.unknownVendor.value, usbDev)
    else do
      match ← request (UsbDeviceCall.getActiveConfigDescriptor options.usbDevice) with
      | .failed status _ => return some (usbErrLibusb status, usbDev)
      | .ok configuration =>
        let info := libhothUsbFindInterface configuration
        if info.type = .unknown then
          match usbDev with
          | none => return some (usbErrLibhoth libhothErrInterfaceNotFound, none)
          | some usbDev => return some (← errOut (usbErrLibhoth libhothErrInterfaceNotFound) usbDev)
        else do
          match ← libhothUsbDeviceStruct usbDev with
          | none => return some (usbErrLibhoth libhothErrMallocFailed, none)
          | some usbDev => do
            let (ret, loc) ← libhothGetUsbLoc options.usbDevice usbDev.loc
            let usbDev :=
              { usbDev with info := info, claimTimeoutUs := options.timeoutUs, loc := loc }
            if ret ≠ 0 then return some (← errOut (usbErrLibusb libusbErrorOther) usbDev)
            else connect options usbDev (selectedEndpoints configuration info) rounds

/-- `libhoth_usb_open`: the error, and the device of a successful open. -/
def libhothUsbOpen (options : LibhothUsbDeviceInitOptions) (rounds : ℕ) :
    UsbDeviceProgram (Option OpenOutcome) := do
  let allocated ← request UsbDeviceCall.calloc
  if !allocated then return some (usbErrLibhoth libhothErrMallocFailed, none)
  else do
    match ← libhothUsbDeviceOpen options none rounds with
    | none => return none
    | some (status, usbDev) =>
      if status ≠ hothSuccess then return some (status, none) else return some (status, usbDev)

/-! ### Reconnecting -/

/-- One round of the loop of `libhoth_usb_reconnect`, which began at a time. -/
def reconnectRound (startTimeMs rounds : ℕ) (usbDev : LibhothUsbDevice) :
    UsbDeviceProgram (LibhothUsbDevice ⊕ Option OpenOutcome) := do
  match ← request (UsbDeviceCall.getDevice usbDev.loc) with
  | .ok device => do
    let seed ← request UsbDeviceCall.prngSeed
    let usbDev ← libhothUsbCloseInternal usbDev
    let outcome ← libhothUsbDeviceOpen ⟨device, seed, usbDev.claimTimeoutUs⟩ (some usbDev) rounds
    return .inr outcome
  | .failed ret _ => do
    let currentTimeMs ← request UsbDeviceCall.getMonotonicMs
    if (currentTimeMs + 2 ^ 64 - startTimeMs) % 2 ^ 64 ≥ 60 * 1000 then
      return .inr (some (usbErrLibusb ret, some usbDev))
    else do
      request (UsbDeviceCall.usleep (100 * 1000))
      return .inl usbDev

/-- `libhoth_usb_reconnect`. -/
def libhothUsbReconnect (usbDev : Option LibhothUsbDevice) (rounds : ℕ) :
    UsbDeviceProgram (Option OpenOutcome) :=
  match usbDev with
  | none => return some (usbErrLibusb libusbErrorInvalidParam, none)
  | some usbDev => do
    let startTimeMs ← request UsbDeviceCall.getMonotonicMs
    match ← whileRounds (reconnectRound startTimeMs rounds) rounds usbDev with
    | none => return none
    | some outcome => return outcome

/-! ### Sending and receiving -/

/-- The dispatch of `libhoth_usb_send_request` and `libhoth_usb_receive_response` to the functions
of a driver, which leave a status and a device. -/
def libhothUsbDispatch {Program : Type → Type} [Monad Program]
    (mailbox fifo : LibhothUsbDevice → Program (ℤ × LibhothUsbDevice))
    (usbDev : Option LibhothUsbDevice) : Program OpenOutcome :=
  match usbDev with
  | none => return (usbErrLibusb libusbErrorInvalidParam, none)
  | some usbDev =>
    if usbDev.handle = none then return (usbErrLibusb libusbErrorNoDevice, some usbDev)
    else
      match usbDev.info.type with
      | .mailbox => do
        let (status, usbDev) ← mailbox usbDev
        return (wrapUsbErr status, some usbDev)
      | .fifo => do
        let (status, usbDev) ← fifo usbDev
        return (wrapUsbErr status, some usbDev)
      | .unknown => return (usbErrLibhoth libhothErrInterfaceNotFound, some usbDev)

/-! ### Environments -/

section Environments

variable {σ : Type} {environment : Environment UsbDeviceReply σ}

/-- The calls that give something back. -/
def givesBack : UsbDeviceCall → Bool
  | .releaseInterface _ _ | .libusbClose _ | .freeTransfer _ | .free _ => true
  | _ => false

/-- Giving something back leaves the state of the environment. -/
def Quiet (environment : Environment UsbDeviceReply σ) : Prop :=
  ∀ state call reply next, givesBack call → environment state call reply next → next = state

/-- A program that gives something back first runs on from the same state. -/
theorem ensures_giveBack (hquiet : Quiet environment) {call : UsbDeviceCall}
    (hcall : givesBack call) {α : Type} {next : UsbDeviceReply call → UsbDeviceProgram α}
    {start : σ} {post : α → σ → Prop}
    (hnext : ∀ reply, Ensures environment (next reply) start post) :
    Ensures environment (request call >>= next) start post := by
  rw [ensures_bind, ensures_request]
  intro reply middle hstep
  obtain rfl := hquiet _ _ _ _ hcall hstep
  exact hnext reply

/-- The error exit of `libhoth_usb_device_open` leaves no handle. -/
theorem errOut_ensures (hquiet : Quiet environment) (status : LibhothError)
    (usbDev : LibhothUsbDevice) (start : σ) :
    Ensures environment (errOut status usbDev) start fun outcome final ↦
      final = start ∧ outcome = (status, some { usbDev with handle := none }) := by
  unfold errOut
  cases hhandle : usbDev.handle with
  | none =>
    refine (ensures_done _ _ _).mpr ⟨rfl, ?_⟩
    rw [← hhandle]
  | some handle =>
    exact ensures_giveBack hquiet rfl fun _ ↦ ensures_giveBack hquiet rfl fun _ ↦
      (ensures_done _ _ _).mpr ⟨rfl, rfl⟩

/-- A program that ends in the error exit. -/
theorem ensures_errOut (hquiet : Quiet environment) {status : LibhothError}
    {usbDev : LibhothUsbDevice} {start : σ} {post : Option OpenOutcome → σ → Prop}
    (hpost : post (some (status, some { usbDev with handle := none })) start) :
    Ensures environment (do return some (← errOut status usbDev)) start post := by
  rw [ensures_bind]
  refine (errOut_ensures hquiet status usbDev start).mono ?_
  rintro _ _ ⟨rfl, rfl⟩
  exact (ensures_done _ _ _).mpr hpost

/-- The descriptors and the location of a device can be read, and its configuration is valid. -/
structure Present (environment : Environment UsbDeviceReply σ)
    (valid : LibusbConfigDescriptor → Prop) : Prop where
  descriptor : ∀ state device reply next,
    environment state (.getDeviceDescriptor device) reply next → reply = .ok 0x18D1 ∧ next = state
  configuration : ∀ state device reply next,
    environment state (.getActiveConfigDescriptor device) reply next →
      ∃ configuration, reply = .ok configuration ∧ valid configuration ∧ next = state
  bus : ∀ state device reply next,
    environment state (.getBusNumber device) reply next → next = state
  ports : ∀ state device reply next,
    environment state (.getPortNumbers device) reply next →
      ∃ ports, reply = .ok ports ∧ next = state

/-- Opening a device that is present goes on to `libusb_open`. -/
theorem libhothUsbDeviceOpen_ensures {valid : LibusbConfigDescriptor → Prop}
    (hpresent : Present environment valid)
    (htype : ∀ configuration, valid configuration →
      (libhothUsbFindInterface configuration).type ≠ .unknown)
    {options : LibhothUsbDeviceInitOptions} {usbDev : Option LibhothUsbDevice}
    {device : LibhothUsbDevice} {rounds : ℕ} {start : σ} {post : Option OpenOutcome → σ → Prop}
    (hstruct : Ensures environment (libhothUsbDeviceStruct usbDev) start fun opened middle ↦
      opened = some device ∧ middle = start)
    (hconnect : ∀ configuration loc, valid configuration →
      Ensures environment (connect options { device with
        info := libhothUsbFindInterface configuration
        claimTimeoutUs := options.timeoutUs
        loc := loc } (selectedEndpoints configuration (libhothUsbFindInterface configuration))
          rounds) start post) :
    Ensures environment (libhothUsbDeviceOpen options usbDev rounds) start post := by
  unfold libhothUsbDeviceOpen libhothGetUsbLoc
  rw [ensures_bind, ensures_request]
  intro descriptor _ hdescriptor
  obtain ⟨rfl, rfl⟩ := hpresent.descriptor _ _ _ _ hdescriptor
  dsimp only
  rw [if_neg (not_not.mpr rfl), ensures_bind, ensures_request]
  intro reply _ hconfiguration
  obtain ⟨configuration, rfl, hvalid, rfl⟩ := hpresent.configuration _ _ _ _ hconfiguration
  dsimp only
  rw [if_neg (htype configuration hvalid), ensures_bind]
  refine hstruct.mono ?_
  rintro _ _ ⟨rfl, rfl⟩
  dsimp only
  rw [ensures_bind, ensures_bind, ensures_request]
  intro bus _ hbus
  obtain rfl := hpresent.bus _ _ _ _ hbus
  rw [ensures_bind, ensures_request]
  intro reply _ hports
  obtain ⟨ports, rfl, rfl⟩ := hpresent.ports _ _ _ _ hports
  dsimp only
  rw [pure_eq_done, ensures_done, if_neg (not_not.mpr rfl)]
  exact hconnect configuration ⟨bus, ports⟩ hvalid

end Environments

end Libhoth.Transports.UsbDevice
