import Libhoth.Foundation.CheckedAccess
import Libhoth.Foundation.InteractingProgram
import Libhoth.Protocol.HostCommand
import Libhoth.Transports.Libusb

/-!
# The USB mailbox transport

`libhoth_usb_mailbox.c`. The device is a mailbox read and written through a pair of bulk endpoints.
`libhothUsbMailboxOpen` picks the endpoints out of an interface descriptor.
`libhothUsbMailboxSendRequest` writes the request in chunks: each round sends a write request with
an offset and the bytes at it and receives a status. `libhothUsbMailboxReceiveResponse` reads the
response in chunks: each round sends a read request for an offset and a length and receives a status
with the bytes at that offset.

Offsets are 32-bit words and the sizes of the caller's buffers are of type `size_t`, so neither loop
need end for a buffer of four gigabytes; both are cut off after a number of rounds. Stores and loads
are checked against the packet buffer and the caller's buffers.
-/

set_option autoImplicit false
set_option relaxedAutoImplicit false

namespace Libhoth.Transports.UsbMailbox

open Foundation.ByteString Foundation.CellMemory Foundation.CheckedAccess
open Foundation.InteractingProgram Protocol.Status Protocol.HostCommand Libusb

/-! ### Constants -/

/-- `LIBHOTH_USB_MAILBOX_MTU`: the size of the packet buffer. -/
def libhothUsbMailboxMtu : ℕ := 64

/-- `MAILBOX_REQ_READ`. -/
def mailboxReqRead : ℕ := 0

/-- `MAILBOX_REQ_WRITE`. -/
def mailboxReqWrite : ℕ := 2

/-- `MAILBOX_SUCCESS`. -/
def mailboxSuccess : UInt8 := 0

/-- The size of `struct mailbox_request`. -/
def mailboxRequestSize : ℕ := 6

/-- The size of `struct mailbox_response`. -/
def mailboxResponseSize : ℕ := 2

/-- `LIBHOTH_ERR_UNSUPPORTED_VERSION` as an `int`. -/
def libhothErrUnsupportedVersion : ℤ := LibhothStatus.unsupportedVersion.value

/-! ### Opening -/

/-- `struct libhoth_usb_mailbox`. -/
structure LibhothUsbMailbox where
  maxPacketSizeIn : UInt16
  maxPacketSizeOut : UInt16
  epIn : UInt8
  epOut : UInt8
  deriving DecidableEq

/-- The loop over the endpoints of `libhoth_usb_mailbox_open`. -/
def mailboxEndpoints (drvdata : LibhothUsbMailbox) :
    List LibusbEndpointDescriptor → ℤ × LibhothUsbMailbox
  | [] => (libhothOk, drvdata)
  | endpoint :: rest =>
    if endpoint.isIn ∧ endpoint.isBulk then
      if drvdata.epIn ≠ 0 then (libusbErrorInvalidParam, drvdata)
      else mailboxEndpoints { drvdata with
        epIn := endpoint.bEndpointAddress
        maxPacketSizeIn := endpoint.wMaxPacketSize } rest
    else if endpoint.isOut ∧ endpoint.isBulk then
      if drvdata.epOut ≠ 0 then (libusbErrorInvalidParam, drvdata)
      else mailboxEndpoints { drvdata with
        epOut := endpoint.bEndpointAddress
        maxPacketSizeOut := endpoint.wMaxPacketSize } rest
    else mailboxEndpoints drvdata rest

/-- `libhoth_usb_mailbox_open`: the status and the driver data it leaves. -/
def libhothUsbMailboxOpen (type : LibhothUsbInterfaceType) (drvdata : LibhothUsbMailbox)
    (endpoints : List LibusbEndpointDescriptor) : ℤ × LibhothUsbMailbox :=
  if type ≠ .mailbox then (libusbErrorInvalidParam, drvdata)
  else
    let (status, drvdata) := mailboxEndpoints drvdata endpoints
    if status ≠ libhothOk then (status, drvdata)
    else if drvdata.epIn = 0 ∨ drvdata.epOut = 0 ∨
        drvdata.maxPacketSizeOut.toNat < mailboxRequestSize + 1 ∨
        drvdata.maxPacketSizeIn.toNat < mailboxResponseSize + 1 ∨
        drvdata.maxPacketSizeOut.toNat > libhothUsbMailboxMtu ∨
        drvdata.maxPacketSizeIn.toNat > libhothUsbMailboxMtu then
      (libusbErrorInvalidParam, drvdata)
    else (libhothOk, drvdata)

/-- The packet sizes that an open transport has. -/
structure OpenMailbox (drvdata : LibhothUsbMailbox) : Prop where
  inAtLeast : 3 ≤ drvdata.maxPacketSizeIn.toNat
  inAtMost : drvdata.maxPacketSizeIn.toNat ≤ 64
  outAtLeast : 7 ≤ drvdata.maxPacketSizeOut.toNat
  outAtMost : drvdata.maxPacketSizeOut.toNat ≤ 64

/-- Opening succeeds on packet sizes between the smallest packet and the buffer only. -/
theorem openMailbox_of_open {type : LibhothUsbInterfaceType} {initial drvdata : LibhothUsbMailbox}
    {endpoints : List LibusbEndpointDescriptor}
    (hopen : libhothUsbMailboxOpen type initial endpoints = (libhothOk, drvdata)) :
    OpenMailbox drvdata := by
  have hinvalid : libusbErrorInvalidParam ≠ libhothOk := by decide
  unfold libhothUsbMailboxOpen at hopen
  split_ifs at hopen with htype
  · exact absurd (Prod.mk.inj hopen).1 hinvalid
  · dsimp only at hopen
    split_ifs at hopen with hstatus hsizes
    · exact absurd (Prod.mk.inj hopen).1 hstatus
    · exact absurd (Prod.mk.inj hopen).1 hinvalid
    · rw [(Prod.mk.inj hopen).2] at hsizes
      simp only [mailboxRequestSize, mailboxResponseSize, libhothUsbMailboxMtu, not_or, not_lt]
        at hsizes
      obtain ⟨-, -, houtLeast, hinLeast, houtMost, hinMost⟩ := hsizes
      exact ⟨hinLeast, hinMost, houtLeast, houtMost⟩

/-! ### Bulk transfers -/

/-- `libusb_bulk_transfer`, out of the host with the bytes sent or into it with a length. -/
inductive UsbCall
  | bulkOut (endpoint : UInt8) (data : List UInt8) (timeoutMs : ℕ)
  | bulkIn (endpoint : UInt8) (length timeoutMs : ℕ)

/-- A transfer out fails or sends a number of bytes. -/
inductive BulkOutReply (length : ℕ)
  | failed (status : ℤ) (nonzero : status ≠ libhothOk)
  | transferred (count : ℕ) (fits : count ≤ length)

/-- A transfer in fails or fills a number of bytes. -/
inductive BulkInReply (length : ℕ)
  | failed (status : ℤ) (nonzero : status ≠ libhothOk)
  | received (bytes : List UInt8) (fits : bytes.length ≤ length)

/-- The replies to a transfer. -/
abbrev UsbReply : UsbCall → Type
  | .bulkOut _ data _ => BulkOutReply data.length
  | .bulkIn _ length _ => BulkInReply length

/-- Programs over bulk transfers. -/
abbrev UsbProgram := Interaction UsbReply

/-- The history of a run over bulk transfers. -/
abbrev UsbHistory := List (Exchange UsbReply)

/-- `struct mailbox_request`. -/
def encodeMailboxRequest (type offset length : ℕ) : List UInt8 :=
  toLittleEndian 1 type ++ toLittleEndian 4 offset ++ toLittleEndian 1 length

@[simp] theorem length_encodeMailboxRequest (type offset length : ℕ) :
    (encodeMailboxRequest type offset length).length = mailboxRequestSize := by
  simp [encodeMailboxRequest, mailboxRequestSize]

/-- The words of a request are its offset and its length. -/
theorem wordAt_encodeMailboxRequest (type offset length : ℕ) :
    wordAt (encodeMailboxRequest type offset length) 1 4 = offset % 2 ^ 32 ∧
      wordAt (encodeMailboxRequest type offset length) 5 1 = length % 2 ^ 8 := by
  have hoffset : slice (encodeMailboxRequest type offset length) 1 4 = toLittleEndian 4 offset :=
    rfl
  have hlength : slice (encodeMailboxRequest type offset length) 5 1 = toLittleEndian 1 length :=
    rfl
  rw [wordAt, wordAt, hoffset, hlength]
  exact ⟨littleEndian_toLittleEndian 4 offset, littleEndian_toLittleEndian 1 length⟩

/-! ### Sending -/

/-- `max_payload_size` of `libhoth_usb_mailbox_send_request`, a difference of 64-bit words. It is
taken from the packet size of the endpoint that the function does not send on. -/
def maxSendPayloadSize (drvdata : LibhothUsbMailbox) : ℕ :=
  (drvdata.maxPacketSizeIn.toNat + 2 ^ 64 - mailboxRequestSize) % 2 ^ 64

/-- The variables of the loop, with the packet buffer. -/
structure SendState where
  offset : ℕ
  packet : ℕ → UInt8

/-- `length`: what is written to the mailbox in a round, as an eight-bit word. -/
def writeLength (drvdata : LibhothUsbMailbox) (requestSize offset : ℕ) : ℕ :=
  (if requestSize - offset < maxSendPayloadSize drvdata then requestSize - offset
    else maxSendPayloadSize drvdata) % 2 ^ 8

/-- The two copies into the packet buffer, and the part of it that is sent. -/
def fillPacket (requestData : List UInt8) (packet : ℕ → UInt8) (offset length : ℕ) :
    Except Fault ((ℕ → UInt8) × List UInt8) := do
  let packet ← storeWithin libhothUsbMailboxMtu packet 0
    (encodeMailboxRequest mailboxReqWrite offset length)
  let payload ← sliceWithin requestData offset length
  let packet ← storeWithin libhothUsbMailboxMtu packet mailboxRequestSize payload
  let data ← loadWithin libhothUsbMailboxMtu packet 0 (mailboxRequestSize + length)
  return (packet, data)

/-- One round of the loop of `libhoth_usb_mailbox_send_request`. -/
def sendRound (drvdata : LibhothUsbMailbox) (requestData : List UInt8) (state : SendState) :
    UsbProgram (SendState ⊕ Except Fault ℤ) :=
  if state.offset < requestData.length then
    let length := writeLength drvdata requestData.length state.offset
    match fillPacket requestData state.packet state.offset length with
    | .error fault => return .inr (.error fault)
    | .ok (packet, data) => do
      match ← request (UsbCall.bulkOut drvdata.epOut data 0) with
      | .failed status _ => return .inr (.ok status)
      | .transferred count _ =>
        if count ≠ mailboxRequestSize + length then return .inr (.ok libusbErrorIo)
        match ← request (UsbCall.bulkIn drvdata.epIn mailboxResponseSize 0) with
        | .failed status _ => return .inr (.ok status)
        | .received bytes _ =>
          if bytes.length ≠ mailboxResponseSize then return .inr (.ok libusbErrorIo)
          if bytes[0]? ≠ some mailboxSuccess then return .inr (.ok libusbErrorIo)
          return .inl ⟨(state.offset + length) % 2 ^ 32, packet⟩
  else return .inr (.ok libhothOk)

/-- `libhoth_usb_mailbox_send_request`, with the contents of the packet buffer that it does not
initialize, cut off after a number of rounds. -/
def libhothUsbMailboxSendRequest (drvdata : LibhothUsbMailbox) (requestData : List UInt8)
    (packet : ℕ → UInt8) (rounds : ℕ) : UsbProgram (Option (Except Fault ℤ)) :=
  whileRounds (sendRound drvdata requestData) rounds ⟨0, packet⟩

/-! ### Receiving -/

/-- `max_payload_size` of `libhoth_usb_mailbox_receive_response`, a difference of 64-bit words. -/
def maxPayloadSize (drvdata : LibhothUsbMailbox) : ℕ :=
  (drvdata.maxPacketSizeIn.toNat + 2 ^ 64 - mailboxResponseSize) % 2 ^ 64

/-- The variables of the loop, with the packet buffer and the caller's buffer. -/
structure ReceiveState where
  offset : ℕ
  expectedSize : ℕ
  packet : ℕ → UInt8
  response : ℕ → UInt8

/-- What the call leaves its caller: a status, `*actual_size` if it was written, and its buffer. -/
structure ReceiveResult where
  status : ℤ
  actualSize : Option ℕ
  response : ℕ → UInt8

/-- `length`: what is requested of the mailbox in a round, as an eight-bit word. -/
def readLength (drvdata : LibhothUsbMailbox) (responseSize offset : ℕ) : ℕ :=
  (if responseSize - offset < maxPayloadSize drvdata then responseSize - offset
    else maxPayloadSize drvdata) % 2 ^ 8

/-- The end of a round. -/
def finishRound (drvdata : LibhothUsbMailbox) (length transferred : ℕ) (state : ReceiveState) :
    ReceiveState ⊕ ReceiveResult :=
  if transferred < maxPayloadSize drvdata then
    .inr ⟨libhothOk, some state.expectedSize, state.response⟩
  else .inl { state with offset := (state.offset + length) % 2 ^ 32 }

/-- The packet carries the header of the response. -/
def CarriesHeader (state : ReceiveState) (length : ℕ) : Prop :=
  state.offset = 0 ∧ length ≥ headerSize

instance (state : ReceiveState) (length : ℕ) : Decidable (CarriesHeader state length) :=
  inferInstanceAs (Decidable (_ ∧ _))

/-- What a round does with the bytes of a packet: as many bytes as were requested are copied out of
the packet buffer, and at the start of the response its header cuts the expected size. -/
def receivePacket (drvdata : LibhothUsbMailbox) (responseSize length : ℕ) (state : ReceiveState)
    (bytes : List UInt8) : Except Fault (ReceiveState ⊕ ReceiveResult) := do
  let packet ← storeWithin libhothUsbMailboxMtu state.packet 0 bytes
  if bytes.length < mailboxResponseSize then
    return .inr ⟨libusbErrorIo, none, state.response⟩
  else if packet 0 ≠ mailboxSuccess then return .inr ⟨libusbErrorIo, none, state.response⟩
  else do
    let payload ← loadWithin libhothUsbMailboxMtu packet mailboxResponseSize length
    let response ← storeWithin responseSize state.response state.offset payload
    if CarriesHeader state length then do
      let start ← loadWithin responseSize response 0 headerSize
      let header := HothHostResponse.decode start
      if header.structVersion ≠ hothHostResponseVersion then
        return .inr ⟨libhothErrUnsupportedVersion, none, response⟩
      else
        let expectedSize := if state.expectedSize > headerSize + header.dataLen then
          headerSize + header.dataLen else state.expectedSize
        return finishRound drvdata length bytes.length
          ⟨state.offset, expectedSize, packet, response⟩
    else
      return finishRound drvdata length bytes.length
        ⟨state.offset, state.expectedSize, packet, response⟩

/-- One round of the loop of `libhoth_usb_mailbox_receive_response`. -/
def receiveRound (drvdata : LibhothUsbMailbox) (responseSize timeoutMs : ℕ) (state : ReceiveState) :
    UsbProgram (ReceiveState ⊕ Except Fault ReceiveResult) :=
  if state.offset < state.expectedSize then do
    let length := readLength drvdata responseSize state.offset
    match ← request (UsbCall.bulkOut drvdata.epOut
        (encodeMailboxRequest mailboxReqRead state.offset length) timeoutMs) with
    | .failed status _ => return .inr (.ok ⟨status, none, state.response⟩)
    | .transferred count _ =>
      if count ≠ mailboxRequestSize then
        return .inr (.ok ⟨libusbErrorIo, none, state.response⟩)
      match ← request (UsbCall.bulkIn drvdata.epIn (mailboxResponseSize + length) timeoutMs) with
      | .failed status _ => return .inr (.ok ⟨status, none, state.response⟩)
      | .received bytes _ =>
        match receivePacket drvdata responseSize length state bytes with
        | .error fault => return .inr (.error fault)
        | .ok (.inl next) => return .inl next
        | .ok (.inr result) => return .inr (.ok result)
  else return .inr (.ok ⟨libhothOk, some state.expectedSize, state.response⟩)

/-- `libhoth_usb_mailbox_receive_response` into a buffer, with the contents of the packet buffer
that it does not initialize, cut off after a number of rounds. -/
def libhothUsbMailboxReceiveResponse (drvdata : LibhothUsbMailbox) (responseSize timeoutMs : ℕ)
    (packet response : ℕ → UInt8) (rounds : ℕ) :
    UsbProgram (Option (Except Fault ReceiveResult)) :=
  if responseSize < headerSize then
    return some (.ok ⟨libusbErrorInvalidParam, none, response⟩)
  else
    whileRounds (receiveRound drvdata responseSize timeoutMs) rounds
      ⟨0, responseSize % 2 ^ 32, packet, response⟩

/-! ### What a packet does -/

section Packet

variable {drvdata : LibhothUsbMailbox}

theorem OpenMailbox.maxPayloadSize_eq (hopen : OpenMailbox drvdata) :
    maxPayloadSize drvdata = drvdata.maxPacketSizeIn.toNat - 2 := by
  have hleast := hopen.inAtLeast
  have hmost := hopen.inAtMost
  rw [maxPayloadSize, mailboxResponseSize]
  omega

theorem OpenMailbox.maxPayloadSize_bounds (hopen : OpenMailbox drvdata) :
    1 ≤ maxPayloadSize drvdata ∧ maxPayloadSize drvdata ≤ 62 := by
  have hleast := hopen.inAtLeast
  have hmost := hopen.inAtMost
  rw [hopen.maxPayloadSize_eq]
  omega

theorem OpenMailbox.readLength_eq (hopen : OpenMailbox drvdata) (responseSize offset : ℕ) :
    readLength drvdata responseSize offset =
      min (responseSize - offset) (maxPayloadSize drvdata) := by
  have hbounds := hopen.maxPayloadSize_bounds
  rw [readLength]
  split_ifs <;> omega

variable (state : ReceiveState) (length : ℕ) (bytes : List UInt8)

/-- The packet buffer with the received bytes in it. -/
def ReceiveState.filled : ℕ → UInt8 :=
  store state.packet 0 bytes

/-- The caller's buffer with the payload in it. -/
def ReceiveState.copied : ℕ → UInt8 :=
  store state.response state.offset (load (state.filled bytes) mailboxResponseSize length)

/-- The response header in a packet buffer. -/
def packetHeader (packet : ℕ → UInt8) : HothHostResponse :=
  HothHostResponse.decode (load packet mailboxResponseSize headerSize)

/-- A packet that ends the call in an error: it is too short, its status is not success, or it
carries the header of another version. -/
def PacketRefused : Prop :=
  bytes.length < mailboxResponseSize ∨ state.filled bytes 0 ≠ mailboxSuccess ∨
    CarriesHeader state length ∧
      (packetHeader (state.filled bytes)).structVersion ≠ hothHostResponseVersion

/-- The variables after an accepted packet, before the end of the round. -/
def ReceiveState.accept : ReceiveState where
  offset := state.offset
  expectedSize := if CarriesHeader state length then
      min state.expectedSize (headerSize + (packetHeader (state.filled bytes)).dataLen)
    else state.expectedSize
  packet := state.filled bytes
  response := state.copied length bytes

@[simp] theorem ReceiveState.accept_offset : (state.accept length bytes).offset = state.offset :=
  rfl

theorem ReceiveState.accept_expectedSize_le :
    (state.accept length bytes).expectedSize ≤ state.expectedSize := by
  rw [accept]
  split_ifs
  · exact min_le_left _ _
  · exact le_rfl

/-- The header at the start of the caller's buffer is the one in the packet that carries it. -/
theorem load_copied (hcarries : CarriesHeader state length) :
    load (state.copied length bytes) 0 headerSize =
      load (state.filled bytes) mailboxResponseSize headerSize := by
  obtain ⟨hoffset, hlong⟩ := hcarries
  refine load_eq_of_getElem? (length_load _ _ _) fun index hindex ↦ ?_
  have hcopied := getElem?_store state.response (Nat.zero_le index)
    (show index < 0 + (load (state.filled bytes) mailboxResponseSize length).length by
      rw [length_load]; omega)
  rw [Nat.sub_zero, getElem?_load _ (by omega)] at hcopied
  rw [getElem?_load _ hindex, hcopied, ReceiveState.copied, hoffset, Nat.zero_add]

/-- A packet that fits the buffers is refused, or the round ends with it accepted. -/
theorem receivePacket_cases (drvdata : LibhothUsbMailbox) {responseSize : ℕ}
    (hsize : headerSize ≤ responseSize) (hbytes : bytes.length ≤ libhothUsbMailboxMtu)
    (hlength : mailboxResponseSize + length ≤ libhothUsbMailboxMtu)
    (hinside : state.offset + length ≤ responseSize) :
    (∃ result, receivePacket drvdata responseSize length state bytes = .ok (.inr result) ∧
      result.status ≠ libhothOk ∧ PacketRefused state length bytes) ∨
      (¬PacketRefused state length bytes ∧
        receivePacket drvdata responseSize length state bytes =
          .ok (finishRound drvdata length bytes.length (state.accept length bytes))) := by
  have hio : libusbErrorIo ≠ libhothOk := by decide
  have hversion : libhothErrUnsupportedVersion ≠ libhothOk := by decide
  have hcopy : state.offset +
      (load (store state.packet 0 bytes) mailboxResponseSize length).length ≤ responseSize := by
    rw [length_load]
    exact hinside
  rw [receivePacket, storeWithin_of_le _ (by omega), ok_bind]
  by_cases hshort : bytes.length < mailboxResponseSize
  · exact .inl ⟨_, if_pos hshort, hio, .inl hshort⟩
  rw [if_neg hshort]
  by_cases hstatus : store state.packet 0 bytes 0 ≠ mailboxSuccess
  · exact .inl ⟨_, if_pos hstatus, hio, .inr (.inl hstatus)⟩
  rw [if_neg hstatus, loadWithin_of_le _ hlength, ok_bind, storeWithin_of_le _ hcopy, ok_bind]
  by_cases hcarries : CarriesHeader state length
  · rw [if_pos hcarries, loadWithin_of_le _ (by omega), ok_bind]
    have hheader : HothHostResponse.decode (load (store state.response state.offset
        (load (store state.packet 0 bytes) mailboxResponseSize length)) 0 headerSize) =
          packetHeader (state.filled bytes) :=
      congrArg HothHostResponse.decode (load_copied state length bytes hcarries)
    simp only [hheader]
    by_cases hversions : (packetHeader (state.filled bytes)).structVersion ≠ hothHostResponseVersion
    · exact .inl ⟨_, if_pos hversions, hversion, .inr (.inr ⟨hcarries, hversions⟩)⟩
    · refine .inr ⟨?_, ?_⟩
      · rintro (hrefused | hrefused | hrefused)
        · exact hshort hrefused
        · exact hstatus hrefused
        · exact hversions hrefused.2
      · have hmin : ∀ first second : ℕ, (if first > second then second else first) =
            min first second := by
          intro first second
          rcases Nat.lt_or_ge second first with hlarger | hsmaller
          · rw [if_pos hlarger, min_eq_right hlarger.le]
          · rw [if_neg (not_lt.mpr hsmaller), min_eq_left hsmaller]
        rw [if_neg hversions, ReceiveState.accept, if_pos hcarries, hmin]
        rfl
  · rw [if_neg hcarries]
    refine .inr ⟨?_, ?_⟩
    · rintro (hrefused | hrefused | hrefused)
      · exact hshort hrefused
      · exact hstatus hrefused
      · exact hcarries hrefused.1
    · rw [ReceiveState.accept, if_neg hcarries]
      rfl

end Packet

end Libhoth.Transports.UsbMailbox
