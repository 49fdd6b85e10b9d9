import Libhoth.Foundation.InteractingProgram
import Libhoth.Transports.LibhothEc

/-!
# The MTD transport

`libhoth_mtd.c` on an open device: the mailbox is a range of a file. `libhothMtdSendRequest` writes
the request in one call, and `libhothMtdReceiveResponse` reads the header and then the data that it
announces, each with as many calls as it takes (`mtdRead`).

Interrupted calls are made again, so the loops need not end; they are cut off after a number of
rounds.
-/

set_option autoImplicit false
set_option relaxedAutoImplicit false

namespace Libhoth.Transports.MtdDevice

open Foundation.CellMemory Foundation.InteractingProgram Protocol.Status LibhothEc

/-- `mtd_err_libhoth`. -/
def mtdErrLibhoth (libhothErr : ℤ) : LibhothError :=
  if libhothErr = libhothOk then hothSuccess
  else
    libhothErrConstruct (BitVec.ofNat 64 HothContextId.init.value)
      (BitVec.ofNat 64 HothHostSpace.libhoth.value) (BitVec.ofInt 64 libhothErr)

/-- An error word of the MTD transport is never success. -/
@[simp] theorem mtdErrLibhoth_eq_success_iff (libhothErr : ℤ) :
    mtdErrLibhoth libhothErr = hothSuccess ↔ libhothErr = libhothOk := by
  unfold mtdErrLibhoth
  split_ifs with hok
  · exact iff_of_true rfl hok
  · exact iff_of_false (libhothErrConstruct_ne_success (by decide) _ _) hok

/-! ### The file -/

/-- What the transport asks of the file. -/
inductive MtdCall
  | lseek (offset : ℕ)
  | read (count : ℕ)
  | write (data : List UInt8)

/-- A read fails, perhaps since it was interrupted, or returns at most as many bytes as it was asked
for. -/
inductive ReadReply (count : ℕ)
  | failed (interrupted : Bool)
  | bytes (data : List UInt8) (fits : data.length ≤ count)

/-- A write fails, perhaps since it was interrupted, or writes a number of bytes. -/
inductive WriteReply
  | failed (interrupted : Bool)
  | written (count : ℕ)

/-- The replies, where a seek succeeds or not. -/
abbrev MtdReply : MtdCall → Type
  | .lseek _ => Bool
  | .read count => ReadReply count
  | .write _ => WriteReply

/-- Programs of the MTD transport. -/
abbrev MtdProgram := Interaction MtdReply

/-- The loop variables of `mtd_read`, with the caller's buffer. -/
structure ReadState where
  buffer : ℕ → UInt8
  offset : ℕ
  dataLen : ℕ

/-- One round of the loop of `mtd_read`. -/
def readRound (state : ReadState) : MtdProgram (ReadState ⊕ (ℤ × (ℕ → UInt8))) := do
  if state.dataLen = 0 then return .inr (libhothOk, state.buffer)
  else do
    match ← request (MtdCall.read state.dataLen) with
    | .failed interrupted =>
      if interrupted then return .inl state else return .inr (statusInt .fail, state.buffer)
    | .bytes data _ =>
      if data = [] then return .inr (statusInt .inOverflow, state.buffer)
      else
        return .inl ⟨store state.buffer state.offset data, state.offset + data.length,
          state.dataLen - data.length⟩

/-- `mtd_read` into a buffer: the status and the buffer. -/
def mtdRead (address : UInt32) (buffer : ℕ → UInt8) (offset dataLen rounds : ℕ) :
    MtdProgram (Option (ℤ × (ℕ → UInt8))) := do
  if dataLen = 0 then return some (libhothOk, buffer)
  else do
    let found ← request (MtdCall.lseek address.toNat)
    if !found then return some (statusInt .fail, buffer)
    else whileRounds readRound rounds ⟨buffer, offset, dataLen⟩

/-- One round of the loop of `mtd_write`. -/
def writeRound (data : List UInt8) (_ : Unit) : MtdProgram (Unit ⊕ ℤ) := do
  match ← request (MtdCall.write data) with
  | .failed interrupted =>
    if interrupted then return .inl () else return .inr (statusInt .fail)
  | .written count =>
    if count ≠ data.length then return .inr (statusInt .outUnderflow) else return .inr libhothOk

/-- `mtd_write`. -/
def mtdWrite (address : UInt32) (data : List UInt8) (rounds : ℕ) : MtdProgram (Option ℤ) := do
  if data = [] then return some (statusInt .invalidParameter)
  else do
    let found ← request (MtdCall.lseek address.toNat)
    if !found then return some (statusInt .fail)
    else whileRounds (writeRound data) rounds ()

/-! ### Sending and receiving -/

/-- `libhoth_mtd_send_request`, for the mailbox address of the device. -/
def libhothMtdSendRequest (mailboxAddress : UInt32) (requestData : List UInt8) (rounds : ℕ) :
    MtdProgram (Option LibhothError) := do
  match ← mtdWrite mailboxAddress requestData rounds with
  | none => return none
  | some status => return some (mtdErrLibhoth status)

/-- `libhoth_mtd_receive_response`, for the mailbox address of the device. -/
def libhothMtdReceiveResponse (mailboxAddress : UInt32) (response : ℕ → UInt8)
    (maxResponseSize : ℕ) (actualSize : Option ℕ) (rounds : ℕ) :
    MtdProgram (Option Received) := do
  if maxResponseSize < hothHostResponseSize then
    return some ⟨mtdErrLibhoth (statusInt .invalidParameter), response, actualSize⟩
  else do
    match ← mtdRead mailboxAddress response 0 hothHostResponseSize rounds with
    | none => return none
    | some (status, response) =>
      if status ≠ libhothOk then return some ⟨mtdErrLibhoth status, response, actualSize⟩
      else do
        let hostDataLen := dataLen response
        let actualSize := actualSize.map fun _ ↦ hothHostResponseSize
        if maxResponseSize < hothHostResponseSize + hostDataLen then
          return some ⟨mtdErrLibhoth (statusInt .responseBufferOverflow), response, actualSize⟩
        else do
          match ← mtdRead (mailboxAddress + UInt32.ofNat hothHostResponseSize) response
            hothHostResponseSize hostDataLen rounds with
          | none => return none
          | some (status, response) =>
            if status ≠ libhothOk then return some ⟨mtdErrLibhoth status, response, actualSize⟩
            else return some ⟨hothSuccess, response, actualSize.map (· + hostDataLen)⟩

end Libhoth.Transports.MtdDevice
