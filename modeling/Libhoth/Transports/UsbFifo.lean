import Libhoth.Foundation.CheckedAccess
import Libhoth.Foundation.InteractingProgram
import Libhoth.Protocol.Status
import Libhoth.Transports.Libusb

/-!
# The USB FIFO transport

`libhoth_usb_fifo.c`. A request is kept with a random request ID in the buffer of an OUT transfer
until a receive call runs it. The device answers with packets that start with the ID of the request
they answer, so a packet with another ID is someone else's and the next one is awaited.

`libhothUsbFifoSendRequest` prepares the OUT transfer, `libhothUsbFifoReceiveResponse` runs it with
an IN transfer. A pending request is one whose OUT transfer has a length other than zero. How
`libhoth_usb_fifo_run_transfers` waits for its transfers is the subject of another module; here it
is one request, which a reply of any status and any results of the transfers may meet.
-/

set_option autoImplicit false
set_option relaxedAutoImplicit false

namespace Libhoth.Transports.UsbFifo

open Foundation.CellMemory Foundation.CheckedAccess Foundation.InteractingProgram
open Protocol.Status Libusb

/-! ### Constants -/

/-- `LIBHOTH_USB_FIFO_REQUEST_ID_SIZE`. -/
def libhothUsbFifoRequestIdSize : ℕ := 16

/-- `LIBHOTH_USB_FIFO_MAX_REQUEST_SIZE`. -/
def libhothUsbFifoMaxRequestSize : ℕ := 1024

/-- `LIBHOTH_USB_FIFO_MTU`: the size of the buffers of the transfers. -/
def libhothUsbFifoMtu : ℕ := libhothUsbFifoRequestIdSize + libhothUsbFifoMaxRequestSize

/-- `LIBHOTH_ERR_OUT_UNDERFLOW` as an `int`. -/
def libhothErrOutUnderflow : ℤ := LibhothStatus.outUnderflow.value

/-- `LIBHOTH_ERR_IN_OVERFLOW` as an `int`. -/
def libhothErrInOverflow : ℤ := LibhothStatus.inOverflow.value

/-- How often a packet with another request ID is passed over. -/
def maxStaleResponses : ℕ := 10

/-! ### Driver data -/

/-- The fields of `struct libusb_transfer` that the transport sets and reads. -/
structure LibusbTransfer where
  endpoint : UInt8
  length : ℕ
  timeoutMs : ℕ
  addZeroPacket : Bool
  status : LibusbTransferStatus
  actualLength : ℕ

/-- `struct libhoth_usb_fifo`, without the fields of the completion callback. -/
structure LibhothUsbFifo where
  inTransfer : LibusbTransfer
  outTransfer : LibusbTransfer
  inBuffer : ℕ → UInt8
  outBuffer : ℕ → UInt8
  epIn : UInt8
  epOut : UInt8
  prngState : UInt32

/-- `libusb_fill_bulk_transfer`: the results of the transfer stay as they are. -/
def LibusbTransfer.fill (transfer : LibusbTransfer) (endpoint : UInt8) (length timeoutMs : ℕ) :
    LibusbTransfer :=
  { transfer with
    endpoint := endpoint
    length := length
    timeoutMs := timeoutMs }

/-! ### Sending -/

/-- `libhoth_generate_pseudorandom_u32`: the next state of the generator is what it returns. -/
def libhothGeneratePseudorandomU32 (seed : UInt32) : UInt32 :=
  let seed := seed ^^^ (seed <<< 13)
  let seed := seed ^^^ (seed >>> 17)
  seed ^^^ (seed <<< 5)

/-- A number of random bytes, with the state of the generator after them. -/
def randomBytes : ℕ → UInt32 → List UInt8 × UInt32
  | 0, seed => ([], seed)
  | count + 1, seed =>
    let seed := libhothGeneratePseudorandomU32 seed
    let (bytes, last) := randomBytes count seed
    (seed.toUInt8 :: bytes, last)

/-- `libhoth_usb_fifo_send_request`. -/
def libhothUsbFifoSendRequest (drvdata : LibhothUsbFifo) (requestData : List UInt8) :
    ℤ × LibhothUsbFifo :=
  if requestData.length > libhothUsbFifoMaxRequestSize then (libusbErrorInvalidParam, drvdata)
  else
    let (requestId, prngState) := randomBytes libhothUsbFifoRequestIdSize drvdata.prngState
    (libhothOk, { drvdata with
      prngState := prngState
      outBuffer :=
        store (store drvdata.outBuffer 0 requestId) libhothUsbFifoRequestIdSize requestData
      outTransfer := { drvdata.outTransfer.fill drvdata.epOut
          (libhothUsbFifoRequestIdSize + requestData.length) 0 with
        addZeroPacket := true } })

/-! ### Running transfers -/

/-- The OUT transfer as it is submitted. -/
structure OutSubmission where
  endpoint : UInt8
  data : List UInt8
  timeoutMs : ℕ
  addZeroPacket : Bool

/-- The IN transfer as it is submitted. -/
structure InSubmission where
  endpoint : UInt8
  length : ℕ
  timeoutMs : ℕ

/-- What the transport asks of the transfer layer: to run an IN transfer, with an OUT transfer or
without one, and to clear the halt of an endpoint. -/
inductive FifoCall
  | runTransfers (out : Option OutSubmission) (into : InSubmission)
  | clearHalt (endpoint : UInt8)

/-- How a run ends: its status, the results of the OUT transfer, if it was one of the transfers, and
of the IN transfer, with the bytes that it filled. -/
structure RunReply (inLength : ℕ) where
  status : ℤ
  outStatus : LibusbTransferStatus
  outActualLength : ℕ
  inStatus : LibusbTransferStatus
  inBytes : List UInt8
  inFits : inBytes.length ≤ inLength

/-- The replies of the transfer layer. -/
abbrev FifoReply : FifoCall → Type
  | .runTransfers _ into => RunReply into.length
  | .clearHalt _ => ℤ

/-- Programs over the transfer layer. -/
abbrev FifoProgram := Interaction FifoReply

/-- The history of a run over the transfer layer. -/
abbrev FifoHistory := List (Exchange FifoReply)

/-- What the driver data submits for an OUT transfer. -/
def LibhothUsbFifo.outSubmission (drvdata : LibhothUsbFifo) : OutSubmission where
  endpoint := drvdata.outTransfer.endpoint
  data := load drvdata.outBuffer 0 drvdata.outTransfer.length
  timeoutMs := drvdata.outTransfer.timeoutMs
  addZeroPacket := drvdata.outTransfer.addZeroPacket

/-- What the driver data submits for an IN transfer. -/
def LibhothUsbFifo.inSubmission (drvdata : LibhothUsbFifo) : InSubmission where
  endpoint := drvdata.inTransfer.endpoint
  length := drvdata.inTransfer.length
  timeoutMs := drvdata.inTransfer.timeoutMs

/-- The driver data with the results of its transfers. -/
def LibhothUsbFifo.settle (drvdata : LibhothUsbFifo) (out : Bool) {inLength : ℕ}
    (reply : RunReply inLength) : LibhothUsbFifo :=
  { drvdata with
    inTransfer := { drvdata.inTransfer with
      status := reply.inStatus
      actualLength := reply.inBytes.length }
    inBuffer := store drvdata.inBuffer 0 reply.inBytes
    outTransfer := if out then { drvdata.outTransfer with
        status := reply.outStatus
        actualLength := reply.outActualLength }
      else drvdata.outTransfer }

/-- `libhoth_usb_fifo_run_transfers` with an IN transfer, and with or without an OUT transfer. -/
def libhothUsbFifoRunTransfers (drvdata : LibhothUsbFifo) (out : Bool) :
    FifoProgram (ℤ × LibhothUsbFifo) := do
  let reply ← request (FifoCall.runTransfers (if out then some drvdata.outSubmission else none)
    drvdata.inSubmission)
  return (reply.status, drvdata.settle out reply)

/-! ### Receiving -/

/-- What the call leaves its caller: a status, `*actual_size` when it was written, the buffer, and
the driver data. -/
structure FifoReceiveResult where
  status : ℤ
  actualSize : Option ℕ
  response : ℕ → UInt8
  drvdata : LibhothUsbFifo

/-- The label `transfer_done`: no request is pending any more. -/
def transferDone (drvdata : LibhothUsbFifo) (status : ℤ) (actualSize : Option ℕ)
    (response : ℕ → UInt8) : FifoReceiveResult where
  status := status
  actualSize := actualSize
  response := response
  drvdata := { drvdata with outTransfer := { drvdata.outTransfer with length := 0 } }

/-- Clearing the halt of both endpoints and running the transfers again after a stall. -/
def recoverStall (drvdata : LibhothUsbFifo) : FifoProgram (ℤ × LibhothUsbFifo) :=
  if drvdata.inTransfer.status = .stall ∨ drvdata.outTransfer.status = .stall then do
    let status ← request (FifoCall.clearHalt drvdata.epIn)
    if status ≠ libhothOk then return (status, drvdata)
    let status ← request (FifoCall.clearHalt drvdata.epOut)
    if status ≠ libhothOk then return (status, drvdata)
    libhothUsbFifoRunTransfers drvdata true
  else return (libhothOk, drvdata)

/-- What the loop does with a packet before it looks at the number of attempts: `none` is a packet
with another request ID. -/
def examinePacket (drvdata : LibhothUsbFifo) (maxResponseSize : ℕ) (response : ℕ → UInt8) :
    Except Fault (Option FifoReceiveResult) := do
  if drvdata.inTransfer.status ≠ .completed then
    return some (transferDone drvdata (transferStatusToError drvdata.inTransfer.status) none
      response)
  if drvdata.inTransfer.actualLength > libhothUsbFifoRequestIdSize + maxResponseSize then
    return some (transferDone drvdata libhothErrInOverflow none response)
  if drvdata.inTransfer.actualLength < libhothUsbFifoRequestIdSize then
    return some (transferDone drvdata libusbErrorIo none response)
  let requestId ← loadWithin libhothUsbFifoMtu drvdata.outBuffer 0 libhothUsbFifoRequestIdSize
  let responseId ← loadWithin libhothUsbFifoMtu drvdata.inBuffer 0 libhothUsbFifoRequestIdSize
  if requestId = responseId then
    let actualSize := drvdata.inTransfer.actualLength - libhothUsbFifoRequestIdSize
    let payload ← loadWithin libhothUsbFifoMtu drvdata.inBuffer libhothUsbFifoRequestIdSize
      actualSize
    let response ← storeWithin maxResponseSize response 0 payload
    return some (transferDone drvdata libhothOk (some actualSize) response)
  else return none

/-- The variables of the loop. -/
structure ExamineState where
  attempt : ℕ
  drvdata : LibhothUsbFifo

/-- How many more packets may be passed over. -/
def ExamineState.remaining (state : ExamineState) : ℕ :=
  maxStaleResponses - state.attempt

/-- One round of the loop of `libhoth_usb_fifo_receive_response`. -/
def examineRound (maxResponseSize : ℕ) (response : ℕ → UInt8) (state : ExamineState) :
    FifoProgram ({next : ExamineState // next.remaining < state.remaining} ⊕
      Except Fault FifoReceiveResult) :=
  match examinePacket state.drvdata maxResponseSize response with
  | .error fault => return .inr (.error fault)
  | .ok (some result) => return .inr (.ok result)
  | .ok none =>
    if hattempt : state.attempt ≥ maxStaleResponses then
      return .inr (.ok (transferDone state.drvdata libusbErrorIo none response))
    else do
      let (status, drvdata) ← libhothUsbFifoRunTransfers state.drvdata false
      if status ≠ libhothOk then
        return .inr (.ok (transferDone drvdata status none response))
      return .inl ⟨⟨state.attempt + 1, drvdata⟩, by
        simp only [ExamineState.remaining, maxStaleResponses] at hattempt ⊢
        omega⟩

/-- `libhoth_usb_fifo_receive_response`. -/
def libhothUsbFifoReceiveResponse (drvdata : LibhothUsbFifo) (maxResponseSize timeoutMs : ℕ)
    (response : ℕ → UInt8) : FifoProgram (Except Fault FifoReceiveResult) :=
  if maxResponseSize > libhothUsbFifoMaxRequestSize then
    return .ok ⟨libusbErrorInvalidParam, none, response, drvdata⟩
  else if drvdata.outTransfer.length = 0 then
    return .ok ⟨libusbErrorIo, none, response, drvdata⟩
  else do
    let drvdata := { drvdata with
      inTransfer := drvdata.inTransfer.fill drvdata.epIn libhothUsbFifoMtu timeoutMs
      outTransfer := { drvdata.outTransfer with timeoutMs := timeoutMs } }
    let (status, drvdata) ← libhothUsbFifoRunTransfers drvdata true
    if status ≠ libhothOk then return .ok (transferDone drvdata status none response)
    let (status, drvdata) ← recoverStall drvdata
    if status ≠ libhothOk then return .ok (transferDone drvdata status none response)
    if drvdata.outTransfer.status ≠ .completed then
      return .ok (transferDone drvdata (transferStatusToError drvdata.outTransfer.status) none
        response)
    if drvdata.outTransfer.actualLength ≠ drvdata.outTransfer.length then
      return .ok ⟨libhothErrOutUnderflow, none, response, drvdata⟩
    whileDecreasing ExamineState.remaining (examineRound maxResponseSize response) ⟨0, drvdata⟩

end Libhoth.Transports.UsbFifo
