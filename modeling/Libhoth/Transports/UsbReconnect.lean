import Libhoth.Transports.UsbDevice

/-!
# Reconnecting to a USB device

What a history of `libhoth_usb_reconnect` calls leaves of a device. A failed attempt closes the
handle, and the next attempt opens the driver on the union that the failed one left. The open
functions of the drivers take an endpoint that is already set for a second endpoint of the
interface, so they need cleared endpoints.

`Ready` is the invariant: a device without a handle has cleared endpoints, in the view of either
driver. An attempt keeps it unless it is `HalfOpened`: the driver stores an endpoint and then fails,
and nothing clears the endpoint again. `reconnectContract_of_reached` says what holds of the devices
that attempts of the other kinds reach: without a handle nothing is sent or received, and an attempt
in which every call succeeds reconnects. `not_reconnectContract_half_opened` is the history with a
half-opened attempt after which no attempt does.
-/

set_option autoImplicit false
set_option relaxedAutoImplicit false

namespace Libhoth.Transports.UsbReconnect

open Foundation.ByteString Foundation.CellMemory Foundation.InteractingProgram
open Protocol.Status Libusb UsbMailbox UsbDevice

/-! ### Attempts -/

/-- Packet sizes and endpoints that are not set. -/
def clearedFields : LibhothUsbMailbox := ⟨0, 0, 0, 0⟩

/-- The endpoints of the interface that is opened. -/
def openedEndpoints (configuration : LibusbConfigDescriptor) : List LibusbEndpointDescriptor :=
  selectedEndpoints configuration (libhothUsbFindInterface configuration)

/-- The endpoints are what the mailbox driver needs. -/
def MailboxAccepts (endpoints : List LibusbEndpointDescriptor) : Prop :=
  (libhothUsbMailboxOpen .mailbox clearedFields endpoints).1 = libhothOk

/-- The endpoints are what the FIFO driver needs. -/
def FifoAccepts (endpoints : List LibusbEndpointDescriptor) : Prop :=
  (mailboxEndpoints clearedFields endpoints).1 = libhothOk ∧
    (mailboxEndpoints clearedFields endpoints).2.epIn ≠ 0 ∧
      (mailboxEndpoints clearedFields endpoints).2.epOut ≠ 0

/-- The driver of an interface can open it. -/
def Accepts (type : LibhothUsbInterfaceType) (endpoints : List LibusbEndpointDescriptor) : Prop :=
  match type with
  | .mailbox => MailboxAccepts endpoints
  | .fifo => FifoAccepts endpoints
  | .unknown => False

/-- The loop of the drivers over the endpoints stores one. -/
def StoresEndpoint (endpoints : List LibusbEndpointDescriptor) : Prop :=
  (mailboxEndpoints clearedFields endpoints).2.epIn ≠ 0 ∨
    (mailboxEndpoints clearedFields endpoints).2.epOut ≠ 0

/-- What an attempt met: the seed, the configuration, whether the last claim succeeded, and whether
an allocation failed. -/
structure AttemptTrace where
  seed : UInt32
  configuration : LibusbConfigDescriptor
  claimed : Bool
  allocationFailed : Bool

/-- Before an attempt. -/
def AttemptTrace.initial : AttemptTrace := ⟨0, [], false, false⟩

/-- The environment that admits every reply and keeps what an attempt met. -/
def tracing : Environment UsbDeviceReply AttemptTrace := fun trace call reply next ↦
  match call, reply with
  | .prngSeed, seed => next = { trace with seed := seed }
  | .getActiveConfigDescriptor _, .ok configuration =>
    next = { trace with configuration := configuration }
  | .claimInterface _ _, status => next = { trace with claimed := decide (status = (0 : ℤ)) }
  | .allocTransfer, pointer => next =
      { trace with allocationFailed := trace.allocationFailed || decide (pointer = (0 : ℕ)) }
  | .malloc, pointer => next =
      { trace with allocationFailed := trace.allocationFailed || decide (pointer = (0 : ℕ)) }
  | _, _ => next = trace

/-- For the type of the interface, its endpoints, the seed and the allocations, the driver stores an
endpoint and then fails. -/
def LeavesEndpoint (type : LibhothUsbInterfaceType) (endpoints : List LibusbEndpointDescriptor)
    (seed : UInt32) (allocationFailed : Bool) : Prop :=
  StoresEndpoint endpoints ∧
    match type with
    | .mailbox => ¬MailboxAccepts endpoints
    | .fifo => seed ≠ 0 ∧ (¬FifoAccepts endpoints ∨ allocationFailed)
    | .unknown => False

/-- The attempt claimed the interface, and the driver stored an endpoint and then failed. -/
def HalfOpened (trace : AttemptTrace) : Prop :=
  trace.claimed ∧ LeavesEndpoint (libhothUsbFindInterface trace.configuration).type
    (openedEndpoints trace.configuration) trace.seed trace.allocationFailed

/-- The devices that a successful open and attempts of a kind reach. -/
inductive Reached (kind : AttemptTrace → Prop) : LibhothUsbDevice → Prop
  | opened {options : LibhothUsbDeviceInitOptions} {rounds : ℕ} {usbDev : LibhothUsbDevice}
    {trace : AttemptTrace} (hrun : Runs tracing (libhothUsbOpen options rounds) .initial
      (some (hothSuccess, some usbDev)) trace) : Reached kind usbDev
  | reconnected {usbDev next : LibhothUsbDevice} {rounds : ℕ} {err : LibhothError}
    {trace : AttemptTrace} (hreached : Reached kind usbDev)
    (hrun : Runs tracing (libhothUsbReconnect (some usbDev) rounds) .initial
      (some (err, some next)) trace) (hkind : kind trace) : Reached kind next

/-- A configuration whose interface its driver can open. -/
def ValidConfiguration (configuration : LibusbConfigDescriptor) : Prop :=
  Accepts (libhothUsbFindInterface configuration).type (openedEndpoints configuration)

/-- The environment of an attempt in which every call succeeds, with whether a device was found.
Before it is found the search for it may fail. -/
def succeeding : Environment UsbDeviceReply Bool := fun found call reply next ↦
  match call, reply with
  | .getDevice _, .failed _ _ => next = found
  | .getDevice _, .ok _ => next = true
  | .prngSeed, seed => seed ≠ (0 : UInt32) ∧ next = found
  | .calloc, allocated => allocated = true ∧ next = found
  | .getDeviceDescriptor _, .failed _ _ => False
  | .getDeviceDescriptor _, .ok idVendor => idVendor = 0x18D1 ∧ next = found
  | .getActiveConfigDescriptor _, .failed _ _ => False
  | .getActiveConfigDescriptor _, .ok configuration =>
    ValidConfiguration configuration ∧ next = found
  | .getPortNumbers _, .failed _ _ => False
  | .libusbOpen _, .failed _ _ => False
  | .claimInterface _ _, status => status = (0 : ℤ) ∧ next = found
  | .allocTransfer, pointer => pointer ≠ (0 : ℕ) ∧ next = found
  | .malloc, pointer => pointer ≠ (0 : ℕ) ∧ next = found
  | _, _ => next = found

/-- What should hold of a device after any history: without a handle nothing is sent or received and
no function of a driver is called, and an attempt that finds a device and in which every call
succeeds reconnects. -/
structure ReconnectContract (usbDev : LibhothUsbDevice) : Prop where
  noDevice : usbDev.handle = none → ∀ (Program : Type → Type) [Monad Program]
    (mailbox fifo : LibhothUsbDevice → Program (ℤ × LibhothUsbDevice)),
    libhothUsbDispatch mailbox fifo (some usbDev) =
      pure (usbErrLibusb libusbErrorNoDevice, some usbDev)
  recovers : ∀ rounds, Ensures succeeding (libhothUsbReconnect (some usbDev) rounds) false
    fun outcome found ↦ found = true → ∃ next, outcome = some (hothSuccess, some next)

/-! ### Endpoints in the union -/

/-- The endpoints at an offset of the union are not set. -/
def Cleared (cells : ℕ → UInt8) (offset : ℕ) : Prop :=
  cells (offset + 4) = 0 ∧ cells (offset + 5) = 0

/-- A store that is not at the endpoints leaves them cleared. -/
theorem Cleared.store {cells : ℕ → UInt8} {offset place : ℕ} {values : List UInt8}
    (hcleared : Cleared cells offset)
    (hapart : place + values.length ≤ offset + 4 ∨ offset + 5 < place) :
    Cleared (store cells place values) offset := by
  rcases hapart with habove | hbelow
  · exact ⟨(store_of_ge _ habove).trans hcleared.1,
      (store_of_ge _ (by omega)).trans hcleared.2⟩
  · exact ⟨(store_of_lt _ _ (by omega)).trans hcleared.1,
      (store_of_lt _ _ hbelow).trans hcleared.2⟩

/-- Zeros over the endpoints clear them. -/
theorem cleared_store_zeros (cells : ℕ → UInt8) {offset place count : ℕ}
    (hlower : place ≤ offset + 4) (hupper : offset + 5 < place + count) :
    Cleared (store cells place (List.replicate count 0)) offset := by
  have hinside (address : ℕ) (hfrom : place ≤ address) (hto : address < place + count) :
      store cells place (List.replicate count 0) address = 0 := by
    rw [store_of_mem _ hfrom (by rwa [List.length_replicate]), List.getElem_replicate]
  exact ⟨hinside _ hlower (by omega), hinside _ (by omega) hupper⟩

/-- Stored endpoints. -/
theorem storeEndpoints_apply (cells : ℕ → UInt8) (offset : ℕ) (fields : LibhothUsbMailbox) :
    storeEndpoints cells offset fields (offset + 4) = fields.epIn ∧
      storeEndpoints cells offset fields (offset + 5) = fields.epOut := by
  unfold storeEndpoints
  constructor
  · rw [store_of_mem _ (by omega) (by simp)]
    simp
  · rw [store_of_mem _ (by omega) (by simp)]
    simp

/-- Storing the endpoints of one driver leaves those of the other cleared. -/
theorem Cleared.storeEndpoints {cells : ℕ → UInt8} {offset place : ℕ} {fields : LibhothUsbMailbox}
    (hcleared : Cleared cells offset) (hapart : place + 6 ≤ offset + 4 ∨ offset + 5 < place) :
    Cleared (storeEndpoints cells place fields) offset := by
  refine hcleared.store ?_
  simpa using hapart

/-! ### Endpoints of an interface -/

/-- Two views agree on the endpoints that are set, and on their packet sizes. -/
structure Agrees (first second : LibhothUsbMailbox) : Prop where
  epIn : first.epIn = second.epIn
  epOut : first.epOut = second.epOut
  sizeIn : first.epIn ≠ 0 → first.maxPacketSizeIn = second.maxPacketSizeIn
  sizeOut : first.epOut ≠ 0 → first.maxPacketSizeOut = second.maxPacketSizeOut

/-- The loop over the endpoints keeps the agreement and gives one status. -/
theorem mailboxEndpoints_agrees {first second : LibhothUsbMailbox} (hagrees : Agrees first second)
    (endpoints : List LibusbEndpointDescriptor) :
    (mailboxEndpoints first endpoints).1 = (mailboxEndpoints second endpoints).1 ∧
      Agrees (mailboxEndpoints first endpoints).2 (mailboxEndpoints second endpoints).2 := by
  induction endpoints generalizing first second with
  | nil => exact ⟨rfl, hagrees⟩
  | cons endpoint rest ih =>
    unfold mailboxEndpoints
    rw [hagrees.epIn, hagrees.epOut]
    split_ifs with hin hset hout hset
    · exact ⟨rfl, hagrees⟩
    · exact ih ⟨rfl, rfl, fun _ ↦ rfl, hagrees.epOut ▸ hagrees.sizeOut⟩
    · exact ⟨rfl, hagrees⟩
    · exact ih ⟨rfl, rfl, hagrees.epIn ▸ hagrees.sizeIn, fun _ ↦ rfl⟩
    · exact ih hagrees

/-- Opening the mailbox driver leaves the endpoints that its loop leaves. -/
theorem libhothUsbMailboxOpen_snd (drvdata : LibhothUsbMailbox)
    (endpoints : List LibusbEndpointDescriptor) :
    (libhothUsbMailboxOpen .mailbox drvdata endpoints).2 =
      (mailboxEndpoints drvdata endpoints).2 := by
  unfold libhothUsbMailboxOpen
  rw [if_neg (by decide)]
  dsimp only
  split_ifs <;> rfl

/-- Opening the mailbox driver on views that agree gives one status. -/
theorem libhothUsbMailboxOpen_agrees {first second : LibhothUsbMailbox}
    (hagrees : Agrees first second) (endpoints : List LibusbEndpointDescriptor) :
    (libhothUsbMailboxOpen .mailbox first endpoints).1 =
      (libhothUsbMailboxOpen .mailbox second endpoints).1 := by
  obtain ⟨hstatus, hfields⟩ := mailboxEndpoints_agrees hagrees endpoints
  unfold libhothUsbMailboxOpen
  rw [if_neg (by decide), if_neg (by decide)]
  generalize mailboxEndpoints first endpoints = left at hstatus hfields ⊢
  generalize mailboxEndpoints second endpoints = right at hstatus hfields ⊢
  obtain ⟨status, left⟩ := left
  obtain ⟨other, right⟩ := right
  dsimp only at hstatus hfields ⊢
  subst hstatus
  rw [← hfields.epIn, ← hfields.epOut]
  by_cases hin : left.epIn = 0
  · simp only [hin, true_or, if_true]
    split_ifs <;> rfl
  · by_cases hout : left.epOut = 0
    · simp only [hout, true_or, or_true, if_true]
      split_ifs <;> rfl
    · rw [hfields.sizeIn hin, hfields.sizeOut hout]
      split_ifs <;> rfl

/-- Cleared endpoints in the union are as good as fields that were never set. -/
theorem Cleared.agrees {cells : ℕ → UInt8} {offset : ℕ} (hcleared : Cleared cells offset) :
    Agrees (loadEndpoints cells offset) clearedFields :=
  ⟨hcleared.1, hcleared.2, fun hset ↦ absurd hcleared.1 hset, fun hset ↦ absurd hcleared.2 hset⟩

/-! ### The invariant -/

/-- A union with cleared endpoints in the view of either driver. -/
structure ClearedUnion (cells : ℕ → UInt8) : Prop where
  mailbox : Cleared cells mailboxFields
  fifo : Cleared cells fifoFields

/-- What an attempt needs of a device: without a handle the endpoints are cleared, and with a handle
closing the driver clears them. -/
def Ready (usbDev : LibhothUsbDevice) : Prop :=
  match usbDev.handle, usbDev.info.type with
  | none, _ => ClearedUnion usbDev.driverData
  | some _, .mailbox => Cleared usbDev.driverData fifoFields
  | some _, .fifo => True
  | some _, .unknown => False

theorem ready_of_clearedUnion {usbDev : LibhothUsbDevice} (hhandle : usbDev.handle = none)
    (hcleared : ClearedUnion usbDev.driverData) : Ready usbDev := by
  unfold Ready
  rw [hhandle]
  exact hcleared

theorem clearedUnion_clearedDevice : ClearedUnion clearedDevice.driverData :=
  ⟨⟨rfl, rfl⟩, ⟨rfl, rfl⟩⟩

/-- Closing the mailbox driver clears its endpoints. -/
theorem clearedUnion_mailboxClose {cells : ℕ → UInt8} (hfifo : Cleared cells fifoFields) :
    ClearedUnion (mailboxClose cells) where
  mailbox := cleared_store_zeros cells (by decide) (by decide)
  fifo := hfifo.store (.inl (by simp [mailboxSize, fifoFields]))

/-- Opening the mailbox driver on a cleared union. -/
theorem mailboxOpen_of_cleared {cells : ℕ → UInt8} (hcleared : ClearedUnion cells)
    (endpoints : List LibusbEndpointDescriptor) :
    ((mailboxOpen .mailbox cells endpoints).1 = libhothOk ↔ MailboxAccepts endpoints) ∧
      Cleared (mailboxOpen .mailbox cells endpoints).2 fifoFields ∧
      (¬StoresEndpoint endpoints →
        Cleared (mailboxOpen .mailbox cells endpoints).2 mailboxFields) := by
  have hagrees := hcleared.mailbox.agrees
  refine ⟨?_, hcleared.fifo.storeEndpoints (.inl (by decide)), fun hnone ↦ ?_⟩
  · unfold mailboxOpen MailboxAccepts
    rw [libhothUsbMailboxOpen_agrees hagrees]
  · obtain ⟨hin, hout⟩ := not_or.mp hnone
    obtain ⟨hstoredIn, hstoredOut⟩ := storeEndpoints_apply cells mailboxFields
      (libhothUsbMailboxOpen .mailbox (loadEndpoints cells mailboxFields) endpoints).2
    have hfields := (mailboxEndpoints_agrees hagrees endpoints).2
    rw [libhothUsbMailboxOpen_snd] at hstoredIn hstoredOut
    unfold mailboxOpen
    dsimp only
    rw [libhothUsbMailboxOpen_snd]
    exact ⟨(hstoredIn.trans hfields.epIn).trans (not_not.mp hin),
      (hstoredOut.trans hfields.epOut).trans (not_not.mp hout)⟩

/-- The part of opening the FIFO driver before the allocations, on a cleared union. -/
theorem fifoEndpoints_of_cleared {cells : ℕ → UInt8} (hcleared : ClearedUnion cells)
    (endpoints : List LibusbEndpointDescriptor) :
    let opened := mailboxEndpoints (loadEndpoints cells fifoFields) endpoints
    (FifoAccepts endpoints ↔
        opened.1 = libhothOk ∧ opened.2.epIn ≠ 0 ∧ opened.2.epOut ≠ 0) ∧
      Cleared (storeEndpoints cells fifoFields opened.2) mailboxFields ∧
      (¬StoresEndpoint endpoints →
        Cleared (storeEndpoints cells fifoFields opened.2) fifoFields) := by
  intro opened
  obtain ⟨hstatus, hfields⟩ := mailboxEndpoints_agrees hcleared.fifo.agrees endpoints
  refine ⟨?_, hcleared.mailbox.storeEndpoints (.inr (by decide)), fun hnone ↦ ?_⟩
  · unfold FifoAccepts
    rw [← hstatus, ← hfields.epIn, ← hfields.epOut]
  · obtain ⟨hin, hout⟩ := not_or.mp hnone
    obtain ⟨hstoredIn, hstoredOut⟩ := storeEndpoints_apply cells fifoFields opened.2
    exact ⟨(hstoredIn.trans hfields.epIn).trans (not_not.mp hin),
      (hstoredOut.trans hfields.epOut).trans (not_not.mp hout)⟩

/-! ### Closing -/

section Closing

variable {σ : Type} {environment : Environment UsbDeviceReply σ}

/-- Freeing the buffers and the transfers of the FIFO driver. -/
theorem freeFifo_ensures (hquiet : Quiet environment) {α : Type} (value : α)
    (inTransfer outTransfer inBuffer outBuffer : ℕ) (start : σ) :
    Ensures environment (do
      if inBuffer ≠ 0 then request (UsbDeviceCall.free inBuffer)
      if outBuffer ≠ 0 then request (UsbDeviceCall.free outBuffer)
      request (UsbDeviceCall.freeTransfer inTransfer)
      request (UsbDeviceCall.freeTransfer outTransfer)
      return value) start fun result final ↦ final = start ∧ result = value := by
  have htransfers : Ensures environment (do
      request (UsbDeviceCall.freeTransfer inTransfer)
      request (UsbDeviceCall.freeTransfer outTransfer)
      return value) start fun result final ↦ final = start ∧ result = value :=
    ensures_giveBack hquiet rfl fun _ ↦ ensures_giveBack hquiet rfl fun _ ↦
      (ensures_done _ _ _).mpr ⟨rfl, rfl⟩
  dsimp only
  split_ifs
  · exact ensures_giveBack hquiet rfl fun _ ↦ ensures_giveBack hquiet rfl fun _ ↦ htransfers
  · exact ensures_giveBack hquiet rfl fun _ ↦ htransfers
  · exact ensures_giveBack hquiet rfl fun _ ↦ htransfers
  · exact htransfers

/-- Closing the FIFO driver clears the union. -/
theorem fifoClose_ensures (hquiet : Quiet environment) (cells : ℕ → UInt8) (start : σ) :
    Ensures environment (fifoClose cells) start fun closed final ↦
      final = start ∧ ClearedUnion closed := by
  refine (freeFifo_ensures hquiet (store cells 0 (List.replicate fifoSize 0))
    (loadWord cells 0 8) (loadWord cells 8 8) (loadWord cells 16 8) (loadWord cells 24 8)
    start).mono ?_
  rintro closed _ ⟨rfl, rfl⟩
  exact ⟨rfl, cleared_store_zeros cells (by decide) (by decide),
    cleared_store_zeros cells (by decide) (by decide)⟩

/-- Closing a ready device leaves no handle and a cleared union. -/
theorem libhothUsbCloseInternal_ensures (hquiet : Quiet environment) {usbDev : LibhothUsbDevice}
    (hready : Ready usbDev) (start : σ) :
    Ensures environment (libhothUsbCloseInternal usbDev) start fun closed final ↦
      final = start ∧ closed.handle = none ∧ ClearedUnion closed.driverData := by
  unfold libhothUsbCloseInternal
  cases hhandle : usbDev.handle with
  | none =>
    simp only [Ready, hhandle] at hready
    exact (ensures_done _ _ _).mpr ⟨rfl, hhandle, hready⟩
  | some handle =>
    have hrelease (cells : ℕ → UInt8) (hcleared : ClearedUnion cells) :
        Ensures environment (do
          let _ ← request (UsbDeviceCall.releaseInterface handle usbDev.info.interfaceId)
          request (UsbDeviceCall.libusbClose handle)
          pure { usbDev with handle := none, driverData := cells }) start fun closed final ↦
            final = start ∧ closed.handle = none ∧ ClearedUnion closed.driverData :=
      ensures_giveBack hquiet rfl fun _ ↦ ensures_giveBack hquiet rfl fun _ ↦
        (ensures_done _ _ _).mpr ⟨rfl, rfl, hcleared⟩
    cases htype : usbDev.info.type with
    | mailbox =>
      simp only [Ready, hhandle, htype] at hready
      exact hrelease _ (clearedUnion_mailboxClose hready)
    | fifo =>
      refine (ensures_bind _ _ _ _).mpr ((fifoClose_ensures hquiet _ _).mono ?_)
      rintro cells middle ⟨rfl, hcleared⟩
      exact hrelease cells hcleared
    | unknown => simp only [Ready, hhandle, htype] at hready

/-- A device that an attempt leaves is ready, unless the attempt failed in some way. -/
def LeavesReady (failure : Prop) (outcome : OpenOutcome) : Prop :=
  ∀ next, outcome.2 = some next → Ready next ∨ outcome.1 ≠ hothSuccess ∧ failure

theorem LeavesReady.mono {failure weaker : Prop} {outcome : OpenOutcome}
    (hleaves : LeavesReady failure outcome) (hweaker : failure → weaker) :
    LeavesReady weaker outcome :=
  fun next hnext ↦ (hleaves next hnext).imp_right (And.imp_right hweaker)

theorem leavesReady_some {failure : Prop} {status : LibhothError} {usbDev : LibhothUsbDevice}
    (hready : Ready usbDev ∨ status ≠ hothSuccess ∧ failure) :
    LeavesReady failure (status, some usbDev) := by
  intro next hnext
  obtain rfl := Option.some.inj hnext
  exact hready

/-- The error exit of `libhoth_usb_device_open` on a cleared union leaves a ready device. -/
theorem ClearedUnion.leavesReady {usbDev : LibhothUsbDevice}
    (hcleared : ClearedUnion usbDev.driverData) (status : LibhothError) (failure : Prop) :
    LeavesReady failure (status, some { usbDev with handle := none }) :=
  leavesReady_some (.inl (ready_of_clearedUnion rfl hcleared))

end Closing

/-! ### One attempt -/

theorem quiet_tracing : Quiet tracing := by
  intro trace call reply next hback hstep
  cases call <;> first | exact hstep | cases hback

/-- One round around `libusb_open` leaves the trace. -/
theorem openRound_tracing (options : LibhothUsbDeviceInitOptions) (waitTimeUs : UInt32)
    (start : AttemptTrace) :
    Ensures tracing (openRound options waitTimeUs) start fun _ final ↦ final = start := by
  unfold openRound
  rw [ensures_bind, ensures_request]
  rintro reply middle hstep
  obtain rfl : middle = start := hstep
  cases reply with
  | ok handle => exact (ensures_done _ _ _).mpr rfl
  | failed status nonzero =>
    dsimp only
    split_ifs
    · exact (ensures_done _ _ _).mpr rfl
    · exact (ensures_done _ _ _).mpr rfl
    · rw [ensures_bind, ensures_request]
      exact fun _ _ hslept ↦ (ensures_done _ _ _).mpr hslept

/-- The loop around `libusb_open` leaves the trace. -/
theorem openLoop_tracing (options : LibhothUsbDeviceInitOptions) (rounds : ℕ)
    (start : AttemptTrace) :
    Ensures tracing (whileRounds (openRound options) rounds 0) start fun outcome final ↦
      ∀ opened, outcome = some opened → final = start := by
  refine (whileRounds_ensures (fun _ final ↦ final = start) ?_ rounds 0 start rfl).mono
    fun _ _ hend ↦ hend.1
  rintro waitTimeUs middle rfl
  refine (openRound_tracing options waitTimeUs middle).mono fun outcome _ hfinal ↦ ?_
  cases outcome <;> exact hfinal

/-- One round of claiming only changes whether the last claim succeeded. -/
theorem claimRound_tracing (handle : ℕ) (interfaceId : UInt8) (timeoutUs : UInt32)
    (wait : ClaimWait) (start : AttemptTrace) :
    Ensures tracing (claimRound (libhothUsbClaim handle interfaceId) timeoutUs wait) start
      fun outcome final ↦ ∃ claimed, final = { start with claimed := claimed } ∧
        (outcome = .inr hothSuccess → claimed = true) := by
  unfold claimRound libhothUsbClaim
  rw [ensures_bind, ensures_bind, ensures_request]
  intro status middle hstep
  obtain rfl : middle = { start with claimed := decide (status = 0) } := hstep
  rw [pure_eq_done, ensures_done]
  have hclaim : (if status = libusbErrorBusy then usbErrLibhoth LibhothStatus.interfaceBusy.value
      else usbErrLibusb status) = hothSuccess → status = 0 := by
    split_ifs
    · simp [LibhothStatus.value, libhothOk]
    · exact (usbErrLibusb_eq_success_iff status).mp
  generalize (if status = libusbErrorBusy then usbErrLibhoth LibhothStatus.interfaceBusy.value
      else usbErrLibusb status) = err at hclaim ⊢
  split_ifs with hsuccess hother hover
  · exact (ensures_done _ _ _).mpr ⟨_, rfl, fun _ ↦ decide_eq_true (hclaim hsuccess)⟩
  · exact (ensures_done _ _ _).mpr ⟨_, rfl, fun herr ↦ absurd (Sum.inr.inj herr) hsuccess⟩
  · exact (ensures_done _ _ _).mpr ⟨_, rfl, fun herr ↦ absurd (Sum.inr.inj herr)
      (libhothErrConstruct_ne_success (by decide) _ _)⟩
  · rw [ensures_bind, ensures_request]
    rintro _ _ rfl
    exact (ensures_done _ _ _).mpr ⟨_, rfl, fun herr ↦ absurd herr Sum.inl_ne_inr⟩

/-- Claiming only changes whether the last claim succeeded, and a successful claim did. -/
theorem libhothClaimDevice_tracing (handle : ℕ) (interfaceId : UInt8) (timeoutUs : UInt32)
    (rounds : ℕ) (start : AttemptTrace) :
    Ensures tracing (libhothClaimDevice (libhothUsbClaim handle interfaceId) timeoutUs rounds) start
      fun outcome final ↦ ∀ status, outcome = some status →
        ∃ claimed, final = { start with claimed := claimed } ∧
          (status = hothSuccess → claimed = true) := by
  unfold libhothClaimDevice
  refine (whileRounds_ensures (fun _ final ↦ ∃ claimed, final = { start with claimed := claimed })
    ?_ rounds _ start ⟨start.claimed, rfl⟩).mono fun _ _ hend ↦ hend.1
  rintro wait _ ⟨before, rfl⟩
  refine (claimRound_tracing handle interfaceId timeoutUs wait _).mono ?_
  rintro outcome final ⟨claimed, hfinal, hsuccess⟩
  cases outcome with
  | inl next => exact ⟨claimed, hfinal⟩
  | inr status => exact ⟨claimed, hfinal, fun hstatus ↦ hsuccess (congrArg Sum.inr hstatus)⟩

/-- The allocations of the FIFO driver fail only when one of them does. -/
theorem fifoAllocate_tracing (cells : ℕ → UInt8) (prngSeed : UInt32) (start : AttemptTrace) :
    Ensures tracing (fifoAllocate cells prngSeed) start fun opened final ↦
      ∃ failed, final = { start with allocationFailed := failed } ∧
        (opened.1 = libhothOk ∨ opened.1 ≠ libhothOk ∧ failed = true) := by
  have hstatus : libhothErrMallocFailed ≠ libhothOk := by decide
  unfold fifoAllocate
  rw [ensures_bind, ensures_request]
  rintro inTransfer _ rfl
  rw [ensures_bind, ensures_request]
  rintro outTransfer _ rfl
  dsimp only
  split_ifs with htransfers
  · refine (ensures_done _ _ _).mpr ⟨_, rfl, .inr ⟨hstatus, ?_⟩⟩
    rcases htransfers with rfl | rfl <;> simp
  · rw [ensures_bind, ensures_request]
    rintro inBuffer _ rfl
    rw [ensures_bind, ensures_request]
    rintro outBuffer _ rfl
    by_cases hbuffers : inBuffer = 0 ∨ outBuffer = 0
    · rw [if_pos hbuffers]
      refine (freeFifo_ensures quiet_tracing _ _ _ _ _ _).mono ?_
      rintro opened _ ⟨rfl, rfl⟩
      refine ⟨_, rfl, .inr ⟨hstatus, ?_⟩⟩
      rcases hbuffers with rfl | rfl <;> simp
    · rw [if_neg hbuffers]
      exact (ensures_done _ _ _).mpr ⟨_, rfl, .inl rfl⟩

/-- The last part of filling in the data of the driver, after its open function. -/
theorem driverEnd_tracing {usbDev : LibhothUsbDevice} {type : LibhothUsbInterfaceType}
    {endpoints : List LibusbEndpointDescriptor} {prngSeed : UInt32} {cells : ℕ → UInt8}
    {status : ℤ} {start : AttemptTrace}
    (hopened : status = libhothOk → Ready { usbDev with driverData := cells })
    (hfailed : status ≠ libhothOk →
      ClearedUnion cells ∨ LeavesEndpoint type endpoints prngSeed start.allocationFailed) :
    Ensures tracing (if wrapUsbErr status ≠ hothSuccess then
        errOut (wrapUsbErr status) { usbDev with driverData := cells }
      else pure (hothSuccess, some { usbDev with driverData := cells })) start fun outcome final ↦
        ∃ failed, final = { start with allocationFailed := failed } ∧
          LeavesReady (LeavesEndpoint type endpoints prngSeed failed) outcome := by
  by_cases hstatus : status = libhothOk
  · rw [if_neg (not_not.mpr ((wrapUsbErr_eq_success_iff status).mpr hstatus))]
    exact (ensures_done _ _ _).mpr ⟨_, rfl, leavesReady_some (.inl (hopened hstatus))⟩
  · have herr : wrapUsbErr status ≠ hothSuccess :=
      fun hsuccess ↦ hstatus ((wrapUsbErr_eq_success_iff status).mp hsuccess)
    rw [if_pos herr]
    refine (errOut_ensures quiet_tracing _ _ start).mono ?_
    rintro outcome _ ⟨rfl, rfl⟩
    refine ⟨_, rfl, leavesReady_some ?_⟩
    rcases hfailed hstatus with hcleared | hleaves
    · exact .inl (ready_of_clearedUnion rfl hcleared)
    · exact .inr ⟨herr, hleaves⟩

/-- Opening the FIFO driver on a cleared union. -/
theorem fifoOpen_tracing {cells : ℕ → UInt8} (hcleared : ClearedUnion cells)
    (endpoints : List LibusbEndpointDescriptor) (prngSeed : UInt32) (start : AttemptTrace) :
    Ensures tracing (fifoOpen .fifo cells endpoints prngSeed) start fun opened final ↦
      ∃ failed, final = { start with allocationFailed := failed } ∧
        (opened.1 ≠ libhothOk →
          ClearedUnion opened.2 ∨ LeavesEndpoint .fifo endpoints prngSeed failed) := by
  unfold fifoOpen
  split_ifs with hseed
  · exact (ensures_done _ _ _).mpr ⟨start.allocationFailed, rfl, fun _ ↦ .inl hcleared⟩
  · have hnonzero : prngSeed ≠ 0 := fun hzero ↦ hseed (.inr hzero)
    obtain ⟨haccepts, hmailbox, hnone⟩ := fifoEndpoints_of_cleared hcleared endpoints
    dsimp only at haccepts hmailbox hnone ⊢
    have hrefused (hrefuses : ¬FifoAccepts endpoints) (status : ℤ) :
        Ensures tracing (pure (status, storeEndpoints cells fifoFields
          (mailboxEndpoints (loadEndpoints cells fifoFields) endpoints).2)) start
          fun opened final ↦ ∃ failed, final = { start with allocationFailed := failed } ∧
            (opened.1 ≠ libhothOk →
              ClearedUnion opened.2 ∨ LeavesEndpoint .fifo endpoints prngSeed failed) := by
      refine (ensures_done _ _ _).mpr ⟨start.allocationFailed, rfl, fun _ ↦ ?_⟩
      by_cases hstores : StoresEndpoint endpoints
      · exact .inr ⟨hstores, hnonzero, .inl hrefuses⟩
      · exact .inl ⟨hmailbox, hnone hstores⟩
    split_ifs with hstatus hmissing
    · exact hrefused (fun haccept ↦ hstatus (haccepts.mp haccept).1) _
    · refine hrefused (fun haccept ↦ ?_) _
      obtain ⟨-, hin, hout⟩ := haccepts.mp haccept
      exact hmissing.elim hin hout
    · refine (fifoAllocate_tracing _ prngSeed start).mono ?_
      rintro opened final ⟨failed, hfinal, hok | ⟨-, hfailed⟩⟩
      · exact ⟨failed, hfinal, fun hbad ↦ absurd hok hbad⟩
      · have haccept := haccepts.mpr ⟨not_not.mp hstatus, not_or.mp hmissing⟩
        exact ⟨failed, hfinal, fun _ ↦ .inr ⟨.inl haccept.2.1, hnonzero, .inr hfailed⟩⟩

/-- Filling in the data of the driver, on a device with a handle and a cleared union. -/
theorem driverOpen_tracing {usbDev : LibhothUsbDevice} {handle : ℕ}
    (hhandle : usbDev.handle = some handle) (hcleared : ClearedUnion usbDev.driverData)
    (endpoints : List LibusbEndpointDescriptor) (prngSeed : UInt32) (start : AttemptTrace) :
    Ensures tracing (driverOpen usbDev endpoints prngSeed) start fun outcome final ↦
      ∃ failed, final = { start with allocationFailed := failed } ∧
        LeavesReady (LeavesEndpoint usbDev.info.type endpoints prngSeed failed) outcome := by
  unfold driverOpen
  cases htype : usbDev.info.type with
  | mailbox =>
    obtain ⟨haccepts, hfifo, hnone⟩ := mailboxOpen_of_cleared hcleared endpoints
    refine driverEnd_tracing (fun _ ↦ ?_) fun hrefused ↦ ?_
    · simp only [Ready, hhandle, htype]
      exact hfifo
    · by_cases hstores : StoresEndpoint endpoints
      · exact .inr ⟨hstores, fun haccept ↦ hrefused (haccepts.mpr haccept)⟩
      · exact .inl ⟨hnone hstores, hfifo⟩
  | fifo =>
    dsimp only
    rw [ensures_bind]
    refine (fifoOpen_tracing hcleared endpoints prngSeed start).mono ?_
    rintro opened middle ⟨failed, rfl, hfailed⟩
    exact driverEnd_tracing (fun _ ↦ by simp only [Ready, hhandle, htype]) hfailed
  | unknown =>
    have hwrapped : usbErrLibhoth libhothErrInterfaceNotFound =
        wrapUsbErr libhothErrInterfaceNotFound := by decide
    rw [hwrapped]
    have hmissing : libhothErrInterfaceNotFound ≠ libhothOk := by decide
    dsimp only
    exact driverEnd_tracing (fun hok ↦ absurd hok hmissing) fun _ ↦ .inl hcleared

/-- Opening from `libusb_open` on, a device without a handle and with a cleared union. -/
theorem connect_tracing (options : LibhothUsbDeviceInitOptions) {usbDev : LibhothUsbDevice}
    (hcleared : ClearedUnion usbDev.driverData) (endpoints : List LibusbEndpointDescriptor)
    (rounds : ℕ) (start : AttemptTrace) :
    Ensures tracing (connect options usbDev endpoints rounds) start fun result final ↦
      ∀ outcome, result = some outcome → ∃ claimed failed,
        final = { start with claimed := claimed, allocationFailed := failed } ∧
          LeavesReady (claimed = true ∧
            LeavesEndpoint usbDev.info.type endpoints options.prngSeed failed) outcome := by
  have hrefused (status : LibhothError) (usbDev : LibhothUsbDevice)
      (hcleared : ClearedUnion usbDev.driverData) (claimed : Bool) (failure : Bool → Bool → Prop) :
      Ensures tracing (do return some (← errOut status usbDev)) { start with claimed := claimed }
        fun result final ↦ ∀ outcome, result = some outcome → ∃ claimed failed,
          final = { start with claimed := claimed, allocationFailed := failed } ∧
            LeavesReady (failure claimed failed) outcome := by
    refine ensures_errOut quiet_tracing fun outcome houtcome ↦
      ⟨claimed, start.allocationFailed, rfl, ?_⟩
    obtain rfl := Option.some.inj houtcome
    exact hcleared.leavesReady status _
  unfold connect
  rw [ensures_bind]
  refine (openLoop_tracing options rounds start).mono fun opened middle hopened ↦ ?_
  cases opened with
  | none => exact (ensures_done _ _ _).mpr (by simp)
  | some opened =>
    obtain rfl := hopened opened rfl
    cases opened with
    | failed status nonzero => exact hrefused _ _ hcleared middle.claimed _
    | ok handle =>
      dsimp only
      rw [ensures_bind]
      refine (libhothClaimDevice_tracing handle usbDev.info.interfaceId options.timeoutUs rounds
        middle).mono fun claimed last hclaimed ↦ ?_
      cases claimed with
      | none => exact (ensures_done _ _ _).mpr (by simp)
      | some status =>
        obtain ⟨claimed, rfl, hsuccess⟩ := hclaimed status rfl
        dsimp only
        split_ifs with hstatus
        · exact hrefused _ { usbDev with handle := some handle } hcleared claimed _
        · have hsucceeded := hsuccess (not_not.mp hstatus)
          have hhandle : ({ usbDev with handle := some handle } : LibhothUsbDevice).handle =
            some handle := rfl
          rw [ensures_bind]
          refine (driverOpen_tracing hhandle hcleared endpoints options.prngSeed _).mono ?_
          rintro outcome _ ⟨failed, rfl, hleaves⟩
          refine (ensures_done _ _ _).mpr fun other hother ↦ ⟨claimed, failed, rfl, ?_⟩
          obtain rfl := Option.some.inj hother
          exact hleaves.mono fun hfailure ↦ ⟨hsucceeded, hfailure⟩

/-- A device, if there is one, without a handle and with a cleared union. -/
def Closed (usbDev : Option LibhothUsbDevice) : Prop :=
  ∀ device, usbDev = some device → device.handle = none ∧ ClearedUnion device.driverData

theorem Closed.leavesReady {usbDev : Option LibhothUsbDevice} (hclosed : Closed usbDev)
    (status : LibhothError) (failure : Prop) : LeavesReady failure (status, usbDev) := by
  intro next hnext
  obtain ⟨hhandle, hcleared⟩ := hclosed next hnext
  exact .inl (ready_of_clearedUnion hhandle hcleared)

/-- The struct of a device is closed when it is new. -/
theorem libhothUsbDeviceStruct_tracing {usbDev : Option LibhothUsbDevice} (hclosed : Closed usbDev)
    (start : AttemptTrace) :
    Ensures tracing (libhothUsbDeviceStruct usbDev) start fun device final ↦
      final = start ∧ Closed device := by
  unfold libhothUsbDeviceStruct
  cases usbDev with
  | some device => exact (ensures_done _ _ _).mpr ⟨rfl, hclosed⟩
  | none =>
    rw [ensures_bind, ensures_request]
    rintro allocated _ rfl
    refine (ensures_done _ _ _).mpr ⟨rfl, fun device hdevice ↦ ?_⟩
    cases allocated with
    | false => simp at hdevice
    | true =>
      obtain rfl : clearedDevice = device := by simpa using hdevice
      exact ⟨rfl, clearedUnion_clearedDevice⟩

theorem libhothGetUsbLoc_tracing (device : ℕ) (loc : LibhothUsbLoc) (start : AttemptTrace) :
    Ensures tracing (libhothGetUsbLoc device loc) start fun _ final ↦ final = start := by
  unfold libhothGetUsbLoc
  rw [ensures_bind, ensures_request]
  rintro bus _ rfl
  rw [ensures_bind, ensures_request]
  rintro ports _ rfl
  cases ports <;> exact (ensures_done _ _ _).mpr rfl

/-- Opening a closed device leaves a ready one, or it was half-opened, when the trace has the seed
of the options. -/
theorem libhothUsbDeviceOpen_tracing (options : LibhothUsbDeviceInitOptions)
    {usbDev : Option LibhothUsbDevice} (hclosed : Closed usbDev) (rounds : ℕ)
    (start : AttemptTrace) :
    Ensures tracing (libhothUsbDeviceOpen options usbDev rounds) start fun result final ↦
      ∀ outcome, result = some outcome →
        LeavesReady (start.seed = options.prngSeed → HalfOpened final) outcome := by
  have hrefused {device : Option LibhothUsbDevice} (hdevice : Closed device)
      (status : LibhothError) (middle : AttemptTrace) :
      Ensures tracing (pure (some (status, device))) middle fun result final ↦
        ∀ outcome, result = some outcome →
        LeavesReady (start.seed = options.prngSeed → HalfOpened final) outcome := by
    refine (ensures_done _ _ _).mpr fun outcome houtcome ↦ ?_
    obtain rfl := Option.some.inj houtcome
    exact hdevice.leavesReady status _
  have hexit {device : LibhothUsbDevice} (hcleared : ClearedUnion device.driverData)
      (status : LibhothError) (middle : AttemptTrace) :
      Ensures tracing (do return some (← errOut status device)) middle fun result final ↦
        ∀ outcome, result = some outcome →
        LeavesReady (start.seed = options.prngSeed → HalfOpened final) outcome := by
    refine ensures_errOut quiet_tracing fun outcome houtcome ↦ ?_
    obtain rfl := Option.some.inj houtcome
    exact hcleared.leavesReady status _
  unfold libhothUsbDeviceOpen
  rw [ensures_bind, ensures_request]
  rintro descriptor _ hdescriptor
  cases descriptor with
  | failed status nonzero => exact hrefused hclosed _ _
  | ok idVendor =>
    obtain rfl := hdescriptor
    dsimp only
    split_ifs with hvendor
    · exact hrefused hclosed _ _
    · rw [ensures_bind, ensures_request]
      intro configuration middle hconfiguration
      cases configuration with
      | failed status nonzero => exact hrefused hclosed _ _
      | ok configuration =>
        obtain rfl := hconfiguration
        dsimp only
        split_ifs with htype
        · cases usbDev with
          | none => exact hrefused hclosed _ _
          | some device => exact hexit (hclosed device rfl).2 _ _
        · rw [ensures_bind]
          refine (libhothUsbDeviceStruct_tracing hclosed _).mono ?_
          rintro device _ ⟨rfl, hdevice⟩
          cases device with
          | none => exact hrefused hdevice _ _
          | some device =>
            dsimp only
            rw [ensures_bind]
            refine (libhothGetUsbLoc_tracing _ _ _).mono ?_
            rintro located _ rfl
            have hcleared : ClearedUnion ({ device with
                info := libhothUsbFindInterface configuration
                claimTimeoutUs := options.timeoutUs
                loc := located.2 } : LibhothUsbDevice).driverData := (hdevice device rfl).2
            split_ifs with hlocated
            · exact hexit hcleared _ _
            · refine (connect_tracing options hcleared _ rounds _).mono ?_
              intro result final hresult outcome houtcome
              obtain ⟨claimed, failed, rfl, hleaves⟩ := hresult outcome houtcome
              refine hleaves.mono fun hfailure hseed ↦ ⟨hfailure.1, ?_⟩
              rw [hseed]
              exact hfailure.2

/-- One round of reconnecting goes on with a ready device, or leaves one, or was half-opened. -/
theorem reconnectRound_tracing (startTimeMs rounds : ℕ) {usbDev : LibhothUsbDevice}
    (hready : Ready usbDev) (start : AttemptTrace) :
    Ensures tracing (reconnectRound startTimeMs rounds usbDev) start fun result final ↦
      match result with
      | .inl next => Ready next
      | .inr last => ∀ outcome, last = some outcome → LeavesReady (HalfOpened final) outcome := by
  unfold reconnectRound
  rw [ensures_bind, ensures_request]
  rintro found _ hfound
  cases found with
  | failed ret nonzero =>
    dsimp only
    rw [ensures_bind, ensures_request]
    intro currentTimeMs middle _
    split_ifs
    · refine (ensures_done _ _ _).mpr fun outcome houtcome ↦ ?_
      obtain rfl := Option.some.inj houtcome
      exact leavesReady_some (.inl hready)
    · rw [ensures_bind, ensures_request]
      exact fun _ _ _ ↦ (ensures_done _ _ _).mpr hready
  | ok device =>
    dsimp only
    rw [ensures_bind, ensures_request]
    rintro seed _ rfl
    rw [ensures_bind]
    refine (libhothUsbCloseInternal_ensures quiet_tracing hready _).mono ?_
    rintro closed _ ⟨rfl, hclosed⟩
    have hdevice : Closed (some closed) := by
      intro device hdevice
      obtain rfl := Option.some.inj hdevice
      exact hclosed
    rw [ensures_bind]
    refine (libhothUsbDeviceOpen_tracing ⟨device, seed, closed.claimTimeoutUs⟩ hdevice rounds
      _).mono fun result final hresult ↦ ?_
    refine (ensures_done _ _ _).mpr fun outcome houtcome ↦ ?_
    exact (hresult outcome houtcome).mono fun hfailure ↦ hfailure rfl

/-- An attempt on a ready device leaves a ready one, or it was half-opened. -/
theorem libhothUsbReconnect_tracing {usbDev : LibhothUsbDevice} (hready : Ready usbDev)
    (rounds : ℕ) (start : AttemptTrace) :
    Ensures tracing (libhothUsbReconnect (some usbDev) rounds) start fun result final ↦
      ∀ outcome, result = some outcome → LeavesReady (HalfOpened final) outcome := by
  unfold libhothUsbReconnect
  rw [ensures_bind, ensures_request]
  intro startTimeMs middle _
  rw [ensures_bind]
  refine (whileRounds_ensures (fun state _ ↦ Ready state)
    (fun state trace hstate ↦ (reconnectRound_tracing startTimeMs rounds hstate trace).mono
      fun result _ hresult ↦ by cases result <;> exact hresult) rounds usbDev middle hready).mono
      fun looped final hlooped ↦ ?_
  cases looped with
  | none => exact (ensures_done _ _ _).mpr (by simp)
  | some last => exact (ensures_done _ _ _).mpr (hlooped.1 last rfl)

/-- A successful open leaves a ready device. -/
theorem ready_of_libhothUsbOpen {options : LibhothUsbDeviceInitOptions} {rounds : ℕ}
    {usbDev : LibhothUsbDevice} {trace : AttemptTrace}
    (hrun : Runs tracing (libhothUsbOpen options rounds) .initial
      (some (hothSuccess, some usbDev)) trace) : Ready usbDev := by
  have hopen : Ensures tracing (libhothUsbOpen options rounds) .initial fun result _ ↦
      ∀ device, result = some (hothSuccess, some device) → Ready device := by
    unfold libhothUsbOpen
    rw [ensures_bind, ensures_request]
    rintro allocated _ rfl
    split_ifs with hallocated
    · exact (ensures_done _ _ _).mpr (by simp)
    · rw [ensures_bind]
      refine (libhothUsbDeviceOpen_tracing options (by simp [Closed]) rounds _).mono
        fun result final hresult ↦ ?_
      match result with
      | none => exact (ensures_done _ _ _).mpr (by simp)
      | some (status, opened) =>
        dsimp only
        split_ifs with hstatus
        · exact (ensures_done _ _ _).mpr (by simp)
        · refine (ensures_done _ _ _).mpr fun device hdevice ↦ ?_
          obtain ⟨-, hopened⟩ := Prod.mk.inj (Option.some.inj hdevice)
          exact (hresult _ rfl device hopened).resolve_right fun hfailed ↦ hstatus hfailed.1
  exact hopen _ _ hrun usbDev rfl

/-- The devices that attempts reach which are not half-opened are ready. -/
theorem ready_of_reached {usbDev : LibhothUsbDevice}
    (hreached : Reached (fun trace ↦ ¬HalfOpened trace) usbDev) : Ready usbDev := by
  induction hreached with
  | opened hrun => exact ready_of_libhothUsbOpen hrun
  | reconnected hreached hrun hkind ih =>
    have hleaves := libhothUsbReconnect_tracing ih _ _ _ _ hrun _ rfl _ rfl
    exact hleaves.resolve_right fun hfailed ↦ hkind hfailed.2

/-! ### An attempt in which every call succeeds -/

theorem quiet_succeeding : Quiet succeeding := by
  intro found call reply next hback hstep
  cases call <;> first | exact hstep | cases hback

/-- The allocations of the FIFO driver succeed. -/
theorem fifoAllocate_succeeding (cells : ℕ → UInt8) (prngSeed : UInt32) (found : Bool) :
    Ensures succeeding (fifoAllocate cells prngSeed) found fun opened final ↦
      final = found ∧ opened.1 = libhothOk := by
  unfold fifoAllocate
  rw [ensures_bind, ensures_request]
  rintro inTransfer _ ⟨hinTransfer, rfl⟩
  rw [ensures_bind, ensures_request]
  rintro outTransfer _ ⟨houtTransfer, rfl⟩
  rw [if_neg (not_or.mpr ⟨hinTransfer, houtTransfer⟩), ensures_bind, ensures_request]
  rintro inBuffer _ ⟨hinBuffer, rfl⟩
  rw [ensures_bind, ensures_request]
  rintro outBuffer _ ⟨houtBuffer, rfl⟩
  rw [if_neg (not_or.mpr ⟨hinBuffer, houtBuffer⟩)]
  exact (ensures_done _ _ _).mpr ⟨rfl, rfl⟩

/-- Opening the FIFO driver on a cleared union succeeds. -/
theorem fifoOpen_succeeding {cells : ℕ → UInt8} (hcleared : ClearedUnion cells)
    {endpoints : List LibusbEndpointDescriptor} (haccept : FifoAccepts endpoints)
    {prngSeed : UInt32} (hseed : prngSeed ≠ 0) (found : Bool) :
    Ensures succeeding (fifoOpen .fifo cells endpoints prngSeed) found fun opened final ↦
      final = found ∧ opened.1 = libhothOk := by
  obtain ⟨hstatus, hin, hout⟩ := (fifoEndpoints_of_cleared hcleared endpoints).1.mp haccept
  unfold fifoOpen
  rw [if_neg (not_or.mpr ⟨not_not.mpr rfl, hseed⟩)]
  dsimp only
  rw [if_neg (not_not.mpr hstatus), if_neg (not_or.mpr ⟨hin, hout⟩)]
  exact fifoAllocate_succeeding _ prngSeed found

/-- Filling in the data of the driver succeeds. -/
theorem driverOpen_succeeding {usbDev : LibhothUsbDevice}
    (hcleared : ClearedUnion usbDev.driverData) {endpoints : List LibusbEndpointDescriptor}
    (haccept : Accepts usbDev.info.type endpoints) {prngSeed : UInt32} (hseed : prngSeed ≠ 0)
    (found : Bool) :
    Ensures succeeding (driverOpen usbDev endpoints prngSeed) found fun outcome final ↦
      final = found ∧ ∃ next, outcome = (hothSuccess, some next) := by
  have hopened {status : ℤ} (hstatus : status = libhothOk) (cells : ℕ → UInt8) :
      Ensures succeeding (if wrapUsbErr status ≠ hothSuccess then
          errOut (wrapUsbErr status) { usbDev with driverData := cells }
        else pure (hothSuccess, some { usbDev with driverData := cells })) found
          fun outcome final ↦ final = found ∧ ∃ next, outcome = (hothSuccess, some next) := by
    rw [if_neg (not_not.mpr ((wrapUsbErr_eq_success_iff status).mpr hstatus))]
    exact (ensures_done _ _ _).mpr ⟨rfl, _, rfl⟩
  unfold driverOpen
  cases htype : usbDev.info.type with
  | mailbox =>
    rw [htype] at haccept
    exact hopened ((mailboxOpen_of_cleared hcleared endpoints).1.mpr haccept) _
  | fifo =>
    rw [htype] at haccept
    dsimp only
    rw [ensures_bind]
    refine (fifoOpen_succeeding hcleared haccept hseed found).mono ?_
    rintro opened _ ⟨rfl, hstatus⟩
    exact hopened hstatus _
  | unknown =>
    rw [htype] at haccept
    exact haccept.elim

/-- Opening from `libusb_open` on succeeds. -/
theorem connect_succeeding (options : LibhothUsbDeviceInitOptions) {usbDev : LibhothUsbDevice}
    (hcleared : ClearedUnion usbDev.driverData) {endpoints : List LibusbEndpointDescriptor}
    (haccept : Accepts usbDev.info.type endpoints) (hseed : options.prngSeed ≠ 0) (rounds : ℕ)
    (found : Bool) :
    Ensures succeeding (connect options usbDev endpoints (rounds + 1)) found fun result final ↦
      final = found ∧ ∃ next, result = some (hothSuccess, some next) := by
  have hopen : Ensures succeeding (openRound options 0) found fun outcome final ↦
      ∃ value, outcome = .inr value ∧ ∃ handle, value = .ok handle ∧ final = found := by
    unfold openRound
    rw [ensures_bind, ensures_request]
    rintro opened middle hopened
    cases opened with
    | failed status nonzero => exact hopened.elim
    | ok handle => exact (ensures_done _ _ _).mpr ⟨_, rfl, handle, rfl, hopened⟩
  have hclaim (handle : ℕ) : Ensures succeeding
      (claimRound (libhothUsbClaim handle usbDev.info.interfaceId) options.timeoutUs
        ⟨UInt32.ofNat initialWaitUs, 0⟩) found fun outcome final ↦
          ∃ status, outcome = .inr status ∧ status = hothSuccess ∧ final = found := by
    unfold claimRound libhothUsbClaim
    rw [ensures_bind, ensures_bind, ensures_request]
    rintro status _ ⟨rfl, rfl⟩
    exact (ensures_done _ _ _).mpr ((ensures_done _ _ _).mpr ⟨_, rfl, rfl, rfl⟩)
  unfold connect
  rw [ensures_bind]
  refine (whileRounds_ensures_first hopen rounds).mono ?_
  rintro _ _ ⟨_, rfl, handle, rfl, rfl⟩
  dsimp only
  rw [ensures_bind]
  refine (whileRounds_ensures_first (hclaim handle) rounds).mono ?_
  rintro _ _ ⟨_, rfl, rfl, rfl⟩
  have hopening : ClearedUnion ({ usbDev with handle := some handle } :
    LibhothUsbDevice).driverData := hcleared
  dsimp only
  rw [if_neg (not_not.mpr rfl), ensures_bind]
  refine (driverOpen_succeeding hopening haccept hseed _).mono ?_
  rintro outcome _ ⟨rfl, next, rfl⟩
  exact (ensures_done _ _ _).mpr ⟨rfl, next, rfl⟩

theorem present_succeeding : Present succeeding ValidConfiguration where
  descriptor := by
    intro found device reply next hstep
    cases reply with
    | failed status nonzero => exact hstep.elim
    | ok idVendor => exact ⟨congrArg StatusOr.ok hstep.1, hstep.2⟩
  configuration := by
    intro found device reply next hstep
    cases reply with
    | failed status nonzero => exact hstep.elim
    | ok configuration => exact ⟨configuration, rfl, hstep.1, hstep.2⟩
  bus := fun _ _ _ _ hstep ↦ hstep
  ports := by
    intro found device reply next hstep
    cases reply with
    | failed status nonzero => exact hstep.elim
    | ok ports => exact ⟨ports, rfl, hstep⟩

theorem ValidConfiguration.type_ne {configuration : LibusbConfigDescriptor}
    (hvalid : ValidConfiguration configuration) :
    (libhothUsbFindInterface configuration).type ≠ .unknown := by
  intro htype
  rw [ValidConfiguration, htype] at hvalid
  exact hvalid

/-- Opening a closed device succeeds. -/
theorem libhothUsbDeviceOpen_succeeding (options : LibhothUsbDeviceInitOptions)
    (hseed : options.prngSeed ≠ 0) {usbDev : LibhothUsbDevice}
    (hcleared : ClearedUnion usbDev.driverData) (rounds : ℕ) (found : Bool) :
    Ensures succeeding (libhothUsbDeviceOpen options (some usbDev) (rounds + 1)) found
      fun result _ ↦ ∃ next, result = some (hothSuccess, some next) := by
  refine libhothUsbDeviceOpen_ensures present_succeeding (fun _ ↦ ValidConfiguration.type_ne)
    ((ensures_done _ _ _).mpr ⟨rfl, rfl⟩) fun configuration loc hvalid ↦ ?_
  have hopening : ClearedUnion ({ usbDev with
    info := libhothUsbFindInterface configuration
    claimTimeoutUs := options.timeoutUs
    loc := loc } : LibhothUsbDevice).driverData := hcleared
  exact (connect_succeeding options hopening hvalid hseed rounds found).mono
    fun _ _ hresult ↦ hresult.2

/-- One round of reconnecting to a ready device: it is found and reconnects, or it is not found. -/
theorem reconnectRound_succeeding (startTimeMs rounds : ℕ) {usbDev : LibhothUsbDevice}
    (hready : Ready usbDev) :
    Ensures succeeding (reconnectRound startTimeMs (rounds + 1) usbDev) false fun result final ↦
      match result with
      | .inl next => Ready next ∧ final = false
      | .inr last => final = true → ∃ next, last = some (hothSuccess, some next) := by
  unfold reconnectRound
  rw [ensures_bind, ensures_request]
  intro found middle hfound
  cases found with
  | failed ret nonzero =>
    obtain rfl : middle = false := hfound
    dsimp only
    rw [ensures_bind, ensures_request]
    rintro currentTimeMs _ rfl
    split_ifs
    · exact (ensures_done _ _ _).mpr fun hfalse ↦ absurd hfalse Bool.false_ne_true
    · rw [ensures_bind, ensures_request]
      exact fun _ _ hslept ↦ (ensures_done _ _ _).mpr ⟨hready, hslept⟩
  | ok device =>
    dsimp only
    rw [ensures_bind, ensures_request]
    rintro seed _ ⟨hseed, rfl⟩
    rw [ensures_bind]
    refine (libhothUsbCloseInternal_ensures quiet_succeeding hready _).mono ?_
    rintro closed _ ⟨rfl, -, hcleared⟩
    rw [ensures_bind]
    refine (libhothUsbDeviceOpen_succeeding ⟨device, seed, closed.claimTimeoutUs⟩ hseed hcleared
      rounds _).mono fun outcome final houtcome ↦ ?_
    exact (ensures_done _ _ _).mpr fun _ ↦ houtcome

/-- An attempt on a ready device that finds it and in which every call succeeds reconnects. -/
theorem libhothUsbReconnect_succeeding {usbDev : LibhothUsbDevice} (hready : Ready usbDev)
    (rounds : ℕ) :
    Ensures succeeding (libhothUsbReconnect (some usbDev) rounds) false fun outcome found ↦
      found = true → ∃ next, outcome = some (hothSuccess, some next) := by
  unfold libhothUsbReconnect
  rw [ensures_bind, ensures_request]
  rintro startTimeMs _ rfl
  rw [ensures_bind]
  cases rounds with
  | zero =>
    refine (ensures_done _ _ _).mpr ((ensures_done _ _ _).mpr fun hfound ↦ ?_)
    exact absurd hfound Bool.false_ne_true
  | succ rounds =>
    refine (whileRounds_ensures (fun state found ↦ Ready state ∧ found = false)
      (fun state found hstate ↦ hstate.2 ▸
        (reconnectRound_succeeding startTimeMs rounds hstate.1).mono
          fun result _ hresult ↦ by cases result <;> exact hresult) (rounds + 1) usbDev false
      ⟨hready, rfl⟩).mono fun looped final hlooped ↦ ?_
    cases looped with
    | none =>
      obtain ⟨_, -, rfl⟩ := hlooped.2 rfl
      exact (ensures_done _ _ _).mpr fun hfound ↦ absurd hfound Bool.false_ne_true
    | some last => exact (ensures_done _ _ _).mpr (hlooped.1 last rfl)

/-- Without a handle nothing is sent or received. -/
theorem libhothUsbDispatch_of_no_handle {usbDev : LibhothUsbDevice}
    (hhandle : usbDev.handle = none) {Program : Type → Type} [Monad Program]
    (mailbox fifo : LibhothUsbDevice → Program (ℤ × LibhothUsbDevice)) :
    libhothUsbDispatch mailbox fifo (some usbDev) =
      pure (usbErrLibusb libusbErrorNoDevice, some usbDev) := by
  unfold libhothUsbDispatch
  dsimp only
  rw [if_pos hhandle]

/-! ### A bus with one device -/

/-- A configuration with one FIFO interface, which its driver accepts. -/
def fifoConfiguration : LibusbConfigDescriptor :=
  [[⟨0xFF, 0x58, 0x01, [⟨0x81, 0x02, 64⟩, ⟨0x01, 0x02, 64⟩]⟩]]

/-- A bus with one FIFO device, for the status of a claim and the pointer of an allocation. -/
def fifoReply (claim : ℤ) (pointer : ℕ) : (call : UsbDeviceCall) → UsbDeviceReply call
  | .getMonotonicMs => (0 : ℕ)
  | .getDevice _ => StatusOr.ok (0 : ℕ)
  | .prngSeed => (1 : UInt32)
  | .usleep _ => ()
  | .calloc => true
  | .getDeviceDescriptor _ => StatusOr.ok (0x18D1 : UInt16)
  | .getActiveConfigDescriptor _ => StatusOr.ok fifoConfiguration
  | .getBusNumber _ => (1 : UInt8)
  | .getPortNumbers _ => StatusOr.ok [(1 : UInt8)]
  | .libusbOpen _ => StatusOr.ok (1 : ℕ)
  | .claimInterface _ _ => claim
  | .releaseInterface _ _ => (0 : ℤ)
  | .libusbClose _ => ()
  | .allocTransfer => pointer
  | .malloc => pointer
  | .freeTransfer _ => ()
  | .free _ => ()

/-- The bus with the trace of an attempt. -/
def fifoTraced (claim : ℤ) (pointer : ℕ) (trace : AttemptTrace) (call : UsbDeviceCall) :
    UsbDeviceReply call × AttemptTrace :=
  (fifoReply claim pointer call,
    match call with
    | .prngSeed => { trace with seed := 1 }
    | .getActiveConfigDescriptor _ => { trace with configuration := fifoConfiguration }
    | .claimInterface _ _ => { trace with claimed := decide (claim = 0) }
    | .allocTransfer | .malloc =>
      { trace with allocationFailed := trace.allocationFailed || decide (pointer = 0) }
    | _ => trace)

theorem tracing_fifoTraced (claim : ℤ) (pointer : ℕ) (trace : AttemptTrace)
    (call : UsbDeviceCall) :
    tracing trace call (fifoTraced claim pointer trace call).1
      (fifoTraced claim pointer trace call).2 := by
  cases call <;> rfl

/-- The device that a successful open of the FIFO leaves. -/
def openedFifo : LibhothUsbDevice :=
  ((play (fifoTraced 0 16) (libhothUsbOpen ⟨0, 1, 0⟩ 1) .initial).1.bind Prod.snd).getD
    clearedDevice

theorem reached_openedFifo (kind : AttemptTrace → Prop) : Reached kind openedFifo :=
  .opened (runs_play (tracing_fifoTraced 0 16) (libhothUsbOpen ⟨0, 1, 0⟩ 1) .initial)

/-- The device that an attempt on the FIFO leaves. -/
def reconnectedFifo (claim : ℤ) (pointer : ℕ) : LibhothUsbDevice :=
  ((play (fifoTraced claim pointer) (libhothUsbReconnect (some openedFifo) 1) .initial).1.bind
    Prod.snd).getD clearedDevice

/-- The bus with whether the device was found, when every call succeeds. -/
def fifoSearched (found : Bool) (call : UsbDeviceCall) : UsbDeviceReply call × Bool :=
  (fifoReply 0 16 call,
    match call with
    | .getDevice _ => true
    | _ => found)

theorem validConfiguration_fifoConfiguration : ValidConfiguration fifoConfiguration := by
  have haccept : FifoAccepts (openedEndpoints fifoConfiguration) := by
    unfold FifoAccepts
    decide
  exact haccept

theorem succeeding_fifoSearched (found : Bool) (call : UsbDeviceCall) :
    succeeding found call (fifoSearched found call).1 (fifoSearched found call).2 := by
  cases call with
  | getActiveConfigDescriptor device => exact ⟨validConfiguration_fifoConfiguration, rfl⟩
  | prngSeed => exact ⟨(by decide : (1 : UInt32) ≠ 0), rfl⟩
  | allocTransfer => exact ⟨(by decide : 16 ≠ 0), rfl⟩
  | malloc => exact ⟨(by decide : 16 ≠ 0), rfl⟩
  | calloc => exact ⟨rfl, rfl⟩
  | getDeviceDescriptor device => exact ⟨rfl, rfl⟩
  | claimInterface handle interfaceId => exact ⟨rfl, rfl⟩
  | _ => rfl

/-! ### Histories of attempts -/

/-- After any history of attempts none of which is half-opened, a device without a handle sends and
receives nothing, and an attempt that finds it and in which every call succeeds reconnects. -/
theorem reconnectContract_of_reached {usbDev : LibhothUsbDevice}
    (hreached : Reached (fun trace ↦ ¬HalfOpened trace) usbDev) : ReconnectContract usbDev where
  noDevice := fun hhandle _ _ mailbox fifo ↦ libhothUsbDispatch_of_no_handle hhandle mailbox fifo
  recovers := libhothUsbReconnect_succeeding (ready_of_reached hreached)

/-- A history with an attempt whose claim fails. -/
theorem reconnectContract_of_reached_claim_failed :
    (reconnectedFifo libusbErrorNoDevice 16).handle = none ∧
      ReconnectContract (reconnectedFifo libusbErrorNoDevice 16) :=
  ⟨rfl, reconnectContract_of_reached (.reconnected (reached_openedFifo _)
    (runs_play (tracing_fifoTraced libusbErrorNoDevice 16)
      (libhothUsbReconnect (some openedFifo) 1) .initial) fun hhalf ↦ Bool.false_ne_true hhalf.1)⟩

/-- After an attempt whose allocations fail, an attempt in which every call succeeds is refused for
the endpoints that the failed one left. -/
theorem not_reconnectContract_half_opened :
    ¬∀ usbDev, Reached (fun _ ↦ True) usbDev → ReconnectContract usbDev := by
  intro hcontract
  have hreached : Reached (fun _ ↦ True) (reconnectedFifo 0 0) :=
    .reconnected (reached_openedFifo _) (runs_play (tracing_fifoTraced 0 0)
      (libhothUsbReconnect (some openedFifo) 1) .initial) trivial
  obtain ⟨next, hsuccess⟩ := (hcontract _ hreached).recovers 1 _ _
    (runs_play succeeding_fifoSearched _ false) rfl
  have hrefused : (play fifoSearched (libhothUsbReconnect (some (reconnectedFifo 0 0)) 1)
      false).1.map Prod.fst = some (usbErrLibusb libusbErrorInvalidParam) := rfl
  rw [hsuccess] at hrefused
  have herr : hothSuccess = usbErrLibusb libusbErrorInvalidParam := Option.some.inj hrefused
  exact absurd herr (by decide)

end Libhoth.Transports.UsbReconnect
