import Libhoth.Foundation.ByteString
import Libhoth.Foundation.InteractingProgram
import Libhoth.Protocol.Status
import Mathlib.Tactic.SplitIfs

/-!
# Execution of one host command

`host_cmd.c`. A host command is a request frame sent over a transport and a response frame received
from it. `libhothHostcmdExecV2` builds the request (`populateEcRequestHeader`), sends it, receives
the response, checks it (`validateEcResponseHeader`) and hands the payload to the caller
(`deliverResponse`, the part of the function after the receive). `libhothHostcmdExec` is the wrapper
that flattens the 64-bit error into the legacy `int` (`legacyCode`).

A transport is a `TransportCall` signature: sending bytes meets an error word, and receiving meets
either a non-zero error or at most as many bytes as were offered.

`WellFormedResponse` says what a response frame must be, in numbers. `validateEcResponseHeader`
accepts exactly these frames (`validateEcResponseHeader_eq_ok_iff`). `ExecRun` lists what one
execution can do on the transport (`runs_libhothHostcmdExecV2_iff`), and the theorems about results
follow from it.
-/

set_option autoImplicit false
set_option relaxedAutoImplicit false

namespace Libhoth.Protocol.HostCommand

open Foundation.ByteString Foundation.InteractingProgram Status

/-! ### The transport -/

/-- What the library asks of a transport. -/
inductive TransportCall
  | send (request : List UInt8)
  | receive (maxResponseSize timeoutMs : ℕ)

/-- The outcome of a receive: an error, or bytes that fit what was offered. -/
inductive ReceiveReply (maxResponseSize : ℕ)
  | failed (err : LibhothError) (nonzero : err ≠ hothSuccess)
  | received (response : List UInt8) (fits : response.length ≤ maxResponseSize)

/-- The outcome of a transport call: a send returns an error word. -/
abbrev TransportReply : TransportCall → Type
  | .send _ => LibhothError
  | .receive maxResponseSize _ => ReceiveReply maxResponseSize

/-- Programs over a transport. -/
abbrev TransportProgram := Interaction TransportReply

/-- The history of a run over a transport. -/
abbrev TransportHistory := List (Exchange TransportReply)

/-- `libhoth_send_request`. -/
def libhothSendRequest (request : List UInt8) : TransportProgram LibhothError :=
  Foundation.InteractingProgram.request (TransportCall.send request)

/-- `libhoth_receive_response`. -/
def libhothReceiveResponse (maxResponseSize timeoutMs : ℕ) :
    TransportProgram (ReceiveReply maxResponseSize) :=
  Foundation.InteractingProgram.request (TransportCall.receive maxResponseSize timeoutMs)

/-- `LIBHOTH_MAILBOX_SIZE`. -/
def libhothMailboxSize : ℕ := 1024

/-- `HOTH_CMD_TIMEOUT_MS_DEFAULT`. -/
def hothCmdTimeoutMsDefault : ℕ := 180000

/-- `HOTH_HOST_REQUEST_VERSION`. -/
def hothHostRequestVersion : ℕ := 3

/-- `HOTH_HOST_RESPONSE_VERSION`. -/
def hothHostResponseVersion : ℕ := 3

/-- `HTOOL_ERROR_HOST_COMMAND_START`. -/
def htoolErrorHostCommandStart : ℕ := 537200

/-! ### Frames -/

/-- `struct hoth_host_request`, the eight bytes before a request payload. -/
structure HothHostRequest where
  structVersion : ℕ
  checksum : UInt8
  command : ℕ
  commandVersion : ℕ
  reserved : ℕ
  dataLen : ℕ

/-- The bytes of a request header. -/
def HothHostRequest.encode (header : HothHostRequest) : List UInt8 :=
  toLittleEndian 1 header.structVersion ++ [header.checksum] ++ toLittleEndian 2 header.command ++
    toLittleEndian 1 header.commandVersion ++ toLittleEndian 1 header.reserved ++
    toLittleEndian 2 header.dataLen

/-- `struct hoth_host_response`, the eight bytes before a response payload. -/
structure HothHostResponse where
  structVersion : ℕ
  checksum : ℕ
  result : ℕ
  dataLen : ℕ
  reserved : ℕ

/-- The response header at the start of a byte string. -/
def HothHostResponse.decode (response : List UInt8) : HothHostResponse where
  structVersion := wordAt response 0 1
  checksum := wordAt response 1 1
  result := wordAt response 2 2
  dataLen := wordAt response 4 2
  reserved := wordAt response 6 2

/-- The size of either header. -/
def headerSize : ℕ := 8

/-- The payload of a response: the bytes after its header. -/
def responsePayload (response : List UInt8) : List UInt8 :=
  response.drop headerSize

/-- `libhoth_calculate_checksum`: the byte that makes the sum of header and data zero. -/
def libhothCalculateChecksum (header data : List UInt8) : UInt8 :=
  let sum := data.foldl (· + ·) (header.foldl (· + ·) 0)
  UInt8.ofNat (0x100 - sum.toNat)

/-- `populate_ec_request_header`. Its tests for null pointers have no counterpart: the caller
passes the addresses of its own locals. -/
def populateEcRequestHeader (command commandVersion : ℕ) (request : List UInt8) :
    Except LibhothStatus HothHostRequest :=
  if request.length > 0xFFFF then .error .invalidParameter
  else
    let header : HothHostRequest :=
      { structVersion := hothHostRequestVersion
        checksum := 0
        command := command
        commandVersion := commandVersion
        reserved := 0
        dataLen := request.length }
    .ok { header with checksum := libhothCalculateChecksum header.encode request }

/-- `validate_ec_response_header`, on the received bytes. -/
def validateEcResponseHeader (response : List UInt8) : LibhothStatus :=
  let header := HothHostResponse.decode response
  if response.length < headerSize then .invalidParameter
  else if header.structVersion ≠ hothHostResponseVersion then .invalidParameter
  else if header.dataLen ≠ response.length - headerSize then .invalidParameter
  else if libhothCalculateChecksum (response.take headerSize)
      (slice response headerSize header.dataLen) ≠ 0 then .invalidParameter
  else .ok

/-! ### Execution -/

/-- What an execution leaves to its caller: the returned error, the response buffer (`none` for a
null pointer) and the size word (`none` for a null pointer). -/
structure ExecOutcome where
  error : LibhothError
  respBuf : Option (List UInt8)
  outRespSize : Option ℕ

/-- The part of `libhoth_hostcmd_exec_v2` after a response was received. -/
def deliverResponse (response : List UInt8) (respBuf : Option (List UInt8)) (respBufSize : ℕ)
    (outRespSize : Option ℕ) : ExecOutcome :=
  let header := HothHostResponse.decode response
  let status := validateEcResponseHeader response
  let payload := responsePayload response
  if status ≠ .ok then ⟨cmdExecStatus status, respBuf, outRespSize⟩
  else if header.result ≠ HothStatus.success.value then
    if header.dataLen ≥ 4 then
      ⟨cmdExecError .pierotErr (BitVec.ofNat 64 (wordAt payload 0 4)), respBuf, outRespSize⟩
    else ⟨cmdExecError .ec (BitVec.ofNat 64 header.result), respBuf, outRespSize⟩
  else if outRespSize.isSome then
    if payload.length > respBufSize then
      ⟨cmdExecStatus .responseBufferOverflow, respBuf, outRespSize⟩
    else
      ⟨hothSuccess, respBuf.map fun buffer ↦ payload ++ buffer.drop payload.length,
        outRespSize.map fun _ ↦ payload.length⟩
  else if payload.length ≠ respBufSize then ⟨cmdExecStatus .fail, respBuf, outRespSize⟩
  else
    ⟨hothSuccess, respBuf.map fun buffer ↦ payload ++ buffer.drop payload.length,
      outRespSize.map fun _ ↦ payload.length⟩

/-- `libhoth_hostcmd_exec_v2`. The request payload is the list of its bytes, and the prior contents
of the response buffer and of the size word are arguments. -/
def libhothHostcmdExecV2 (command version : ℕ) (reqPayload : List UInt8)
    (respBuf : Option (List UInt8)) (respBufSize : ℕ) (outRespSize : Option ℕ) :
    TransportProgram ExecOutcome :=
  if reqPayload.length > libhothMailboxSize - headerSize then
    return ⟨cmdExecStatus .outUnderflow, respBuf, outRespSize⟩
  else
    match populateEcRequestHeader command version reqPayload with
    | .error status => return ⟨cmdExecStatus status, respBuf, outRespSize⟩
    | .ok header => do
      let err ← libhothSendRequest (header.encode ++ reqPayload)
      if err ≠ hothSuccess then return ⟨err, respBuf, outRespSize⟩
      else do
        match ← libhothReceiveResponse libhothMailboxSize hothCmdTimeoutMsDefault with
        | .failed err _ => return ⟨err, respBuf, outRespSize⟩
        | .received response _ =>
          return deliverResponse response respBuf respBufSize outRespSize

/-- The legacy `int` for an error, as 32 bits. -/
def legacyCode (err : LibhothError) : BitVec 32 :=
  if err = hothSuccess then 0
  else
    let space := libhothErrGetSpace err
    let code := libhothErrGetCode err
    if space = BitVec.ofNat 16 HothHostSpace.ec.value then
      BitVec.ofNat 32 htoolErrorHostCommandStart + code
    else if space = BitVec.ofNat 16 HothHostSpace.pierotErr.value then code
    else -1

/-- `libhoth_hostcmd_exec`: the returned `int` and the effects on the buffer and the size word. -/
def libhothHostcmdExec (command version : ℕ) (reqPayload : List UInt8)
    (respBuf : Option (List UInt8)) (respBufSize : ℕ) (outRespSize : Option ℕ) :
    TransportProgram (BitVec 32 × Option (List UInt8) × Option ℕ) := do
  let outcome ← libhothHostcmdExecV2 command version reqPayload respBuf respBufSize outRespSize
  return (legacyCode outcome.error, outcome.respBuf, outcome.outRespSize)

/-! ### Well-formed responses -/

/-- The checksum byte is zero exactly when the bytes of header and data sum to zero modulo 256. -/
theorem libhothCalculateChecksum_eq_zero_iff (header data : List UInt8) :
    libhothCalculateChecksum header data = 0 ↔ byteSum (header ++ data) % 256 = 0 := by
  have hsum : (data.foldl (· + ·) (header.foldl (· + ·) (0 : UInt8))).toNat =
      byteSum (header ++ data) % 256 := by
    rw [toNat_foldl_add, toNat_foldl_add, byteSum_append]
    simp
  rw [libhothCalculateChecksum, hsum, ← UInt8.toNat_inj, UInt8.toNat_ofNat']
  simp only [UInt8.toNat_zero]
  omega

/-- The checksum of bytes with a zero in its own place, put in that place, makes the sum of all
bytes zero modulo 256. -/
theorem byteSum_libhothCalculateChecksum (first last data : List UInt8) :
    byteSum (first ++ [libhothCalculateChecksum (first ++ [0] ++ last) data] ++ last ++ data) %
      256 = 0 := by
  have hsum : (data.foldl (· + ·) ((first ++ [0] ++ last).foldl (· + ·) (0 : UInt8))).toNat =
      (byteSum first + byteSum last + byteSum data) % 256 := by
    rw [toNat_foldl_add, toNat_foldl_add]
    simp [byteSum]
  have hchecksum : (libhothCalculateChecksum (first ++ [0] ++ last) data).toNat =
      (256 - (byteSum first + byteSum last + byteSum data) % 256) % 256 := by
    rw [libhothCalculateChecksum, hsum, UInt8.toNat_ofNat']
  have hsplit : byteSum (first ++ [libhothCalculateChecksum (first ++ [0] ++ last) data] ++ last ++
      data) = byteSum first + (libhothCalculateChecksum (first ++ [0] ++ last) data).toNat +
        byteSum last + byteSum data := by
    simp only [byteSum_append]
    simp [byteSum]
  rw [hsplit, hchecksum]
  omega

/-- A response frame as the protocol defines it: a whole header of version 3 that announces the
bytes that follow it, all bytes summing to zero modulo 256. -/
structure WellFormedResponse (response : List UInt8) : Prop where
  size : headerSize ≤ response.length
  version : (HothHostResponse.decode response).structVersion = hothHostResponseVersion
  dataLen : (HothHostResponse.decode response).dataLen = response.length - headerSize
  checksum : byteSum response % 256 = 0

/-- The response check accepts exactly the well-formed responses. -/
theorem validateEcResponseHeader_eq_ok_iff (response : List UInt8) :
    validateEcResponseHeader response = .ok ↔ WellFormedResponse response := by
  have hsplit (hdataLen : (HothHostResponse.decode response).dataLen =
      response.length - headerSize) :
      response.take headerSize ++
        slice response headerSize (HothHostResponse.decode response).dataLen = response := by
    rw [hdataLen, slice, ← List.length_drop, List.take_length, List.take_append_drop]
  constructor
  · intro hok
    simp only [validateEcResponseHeader] at hok
    split_ifs at hok with hsize hversion hdataLen hchecksum
    refine ⟨by omega, not_not.mp hversion, not_not.mp hdataLen, ?_⟩
    have hzero := (libhothCalculateChecksum_eq_zero_iff _ _).mp (not_not.mp hchecksum)
    rwa [hsplit (not_not.mp hdataLen)] at hzero
  · intro hwellFormed
    have hzero := (libhothCalculateChecksum_eq_zero_iff (response.take headerSize)
      (slice response headerSize (HothHostResponse.decode response).dataLen)).mpr
      (by rw [hsplit hwellFormed.dataLen]; exact hwellFormed.checksum)
    simp only [validateEcResponseHeader]
    rw [if_neg (not_lt.mpr hwellFormed.size), if_neg (not_not.mpr hwellFormed.version),
      if_neg (not_not.mpr hwellFormed.dataLen), if_neg (not_not.mpr hzero)]

/-- A rejected response is rejected with `LIBHOTH_ERR_INVALID_PARAMETER`. -/
theorem validateEcResponseHeader_of_not_wellFormed {response : List UInt8}
    (hmalformed : ¬WellFormedResponse response) :
    validateEcResponseHeader response = .invalidParameter := by
  rw [← validateEcResponseHeader_eq_ok_iff] at hmalformed
  simp only [validateEcResponseHeader] at hmalformed ⊢
  split_ifs at hmalformed ⊢ <;> trivial

/-- The payload length of a well-formed response is the length its header announces. -/
theorem WellFormedResponse.length_payload {response : List UInt8}
    (hwellFormed : WellFormedResponse response) :
    (responsePayload response).length = (HothHostResponse.decode response).dataLen := by
  rw [responsePayload, List.length_drop, hwellFormed.dataLen]

/-! ### Delivery of a response -/

/-- The size rule for a payload: at most the buffer when the caller asks for the size, exactly the
buffer otherwise. -/
def PayloadFits (payload : List UInt8) (respBufSize : ℕ) (sized : Bool) : Prop :=
  if sized then payload.length ≤ respBufSize else payload.length = respBufSize

instance (payload : List UInt8) (respBufSize : ℕ) (sized : Bool) :
    Decidable (PayloadFits payload respBufSize sized) := by
  unfold PayloadFits
  infer_instance

section Delivery

variable {response : List UInt8} (respBuf : Option (List UInt8)) (respBufSize : ℕ)
  (outRespSize : Option ℕ)

/-- A malformed response leaves the caller's memory alone. -/
theorem deliverResponse_of_malformed (hmalformed : ¬WellFormedResponse response) :
    deliverResponse response respBuf respBufSize outRespSize =
      ⟨cmdExecStatus .invalidParameter, respBuf, outRespSize⟩ := by
  simp [deliverResponse, validateEcResponseHeader_of_not_wellFormed hmalformed]

/-- A device error with at least four payload bytes is the firmware error in the first word. -/
theorem deliverResponse_of_extended_error (hwellFormed : WellFormedResponse response)
    (hresult : (HothHostResponse.decode response).result ≠ 0)
    (hextended : 4 ≤ (responsePayload response).length) :
    deliverResponse response respBuf respBufSize outRespSize =
      ⟨cmdExecError .pierotErr (BitVec.ofNat 64 (wordAt (responsePayload response) 0 4)), respBuf,
        outRespSize⟩ := by
  rw [hwellFormed.length_payload] at hextended
  simp [deliverResponse, (validateEcResponseHeader_eq_ok_iff response).mpr hwellFormed,
    HothStatus.value, hresult, hextended]

/-- A device error with a shorter payload is the result code of the header. -/
theorem deliverResponse_of_plain_error (hwellFormed : WellFormedResponse response)
    (hresult : (HothHostResponse.decode response).result ≠ 0)
    (hplain : (responsePayload response).length < 4) :
    deliverResponse response respBuf respBufSize outRespSize =
      ⟨cmdExecError .ec (BitVec.ofNat 64 (HothHostResponse.decode response).result), respBuf,
        outRespSize⟩ := by
  rw [hwellFormed.length_payload] at hplain
  simp [deliverResponse, (validateEcResponseHeader_eq_ok_iff response).mpr hwellFormed,
    HothStatus.value, hresult, not_le.mpr hplain]

/-- A payload of the wrong size leaves the caller's memory alone. -/
theorem deliverResponse_of_misfit (hwellFormed : WellFormedResponse response)
    (hresult : (HothHostResponse.decode response).result = 0)
    (hmisfit : ¬PayloadFits (responsePayload response) respBufSize outRespSize.isSome) :
    deliverResponse response respBuf respBufSize outRespSize =
      ⟨if outRespSize.isSome then cmdExecStatus .responseBufferOverflow else cmdExecStatus .fail,
        respBuf, outRespSize⟩ := by
  have hok := (validateEcResponseHeader_eq_ok_iff response).mpr hwellFormed
  cases outRespSize with
  | none =>
    have hlength : (responsePayload response).length ≠ respBufSize := by
      simpa [PayloadFits] using hmisfit
    simp [deliverResponse, hok, HothStatus.value, hresult, hlength]
  | some size =>
    have hlength : respBufSize < (responsePayload response).length := by
      simpa [PayloadFits] using hmisfit
    simp [deliverResponse, hok, HothStatus.value, hresult, hlength]

/-- A payload that fits is copied to the start of the buffer and its length is reported. -/
theorem deliverResponse_of_fits (hwellFormed : WellFormedResponse response)
    (hresult : (HothHostResponse.decode response).result = 0)
    (hfits : PayloadFits (responsePayload response) respBufSize outRespSize.isSome) :
    deliverResponse response respBuf respBufSize outRespSize =
      ⟨hothSuccess,
        respBuf.map fun buffer ↦
          responsePayload response ++ buffer.drop (responsePayload response).length,
        outRespSize.map fun _ ↦ (responsePayload response).length⟩ := by
  have hok := (validateEcResponseHeader_eq_ok_iff response).mpr hwellFormed
  cases outRespSize with
  | none =>
    have hlength : (responsePayload response).length = respBufSize := by
      simpa [PayloadFits] using hfits
    simp [deliverResponse, hok, HothStatus.value, hresult, hlength]
  | some size =>
    have hlength : (responsePayload response).length ≤ respBufSize := by
      simpa [PayloadFits] using hfits
    simp [deliverResponse, hok, HothStatus.value, hresult, hlength]

/-- What a response must be for its delivery to succeed. -/
def Deliverable (response : List UInt8) (respBufSize : ℕ) (sized : Bool) : Prop :=
  WellFormedResponse response ∧ (HothHostResponse.decode response).result = 0 ∧
    PayloadFits (responsePayload response) respBufSize sized

/-- Any other response is an error that leaves the caller's memory alone. -/
theorem deliverResponse_of_not_deliverable
    (hnot : ¬Deliverable response respBufSize outRespSize.isSome) :
    ∃ error, error ≠ hothSuccess ∧
      deliverResponse response respBuf respBufSize outRespSize = ⟨error, respBuf, outRespSize⟩ := by
  by_cases hwellFormed : WellFormedResponse response
  · by_cases hresult : (HothHostResponse.decode response).result = 0
    · have hmisfit : ¬PayloadFits (responsePayload response) respBufSize outRespSize.isSome :=
        fun hfits ↦ hnot ⟨hwellFormed, hresult, hfits⟩
      refine ⟨_, ?_, deliverResponse_of_misfit _ _ _ hwellFormed hresult hmisfit⟩
      split_ifs
      · exact cmdExecStatus_ne_success _
      · exact cmdExecStatus_ne_success _
    · rcases Nat.lt_or_ge (responsePayload response).length 4 with hplain | hextended
      · exact ⟨_, cmdExecError_ne_success _ _,
          deliverResponse_of_plain_error _ _ _ hwellFormed hresult hplain⟩
      · exact ⟨_, cmdExecError_ne_success _ _,
          deliverResponse_of_extended_error _ _ _ hwellFormed hresult hextended⟩
  · exact ⟨_, cmdExecStatus_ne_success _, deliverResponse_of_malformed _ _ _ hwellFormed⟩

/-- Delivery succeeds exactly on the deliverable responses. -/
theorem deliverResponse_eq_success_iff :
    (deliverResponse response respBuf respBufSize outRespSize).error = hothSuccess ↔
      Deliverable response respBufSize outRespSize.isSome := by
  constructor
  · intro hsuccess
    by_contra hnot
    obtain ⟨error, hfailed, houtcome⟩ := deliverResponse_of_not_deliverable respBuf _ _ hnot
    rw [houtcome] at hsuccess
    exact hfailed hsuccess
  · rintro ⟨hwellFormed, hresult, hfits⟩
    rw [deliverResponse_of_fits _ _ _ hwellFormed hresult hfits]

/-- A failed delivery leaves the caller's memory alone. -/
theorem deliverResponse_untouched
    (hfailed : (deliverResponse response respBuf respBufSize outRespSize).error ≠ hothSuccess) :
    (deliverResponse response respBuf respBufSize outRespSize).respBuf = respBuf ∧
      (deliverResponse response respBuf respBufSize outRespSize).outRespSize = outRespSize := by
  rw [ne_eq, deliverResponse_eq_success_iff] at hfailed
  obtain ⟨error, -, houtcome⟩ := deliverResponse_of_not_deliverable respBuf _ _ hfailed
  rw [houtcome]
  exact ⟨rfl, rfl⟩

end Delivery

/-! ### Runs of an execution -/

section Runs

variable (command version : ℕ) (reqPayload : List UInt8) (respBuf : Option (List UInt8))
  (respBufSize : ℕ) (outRespSize : Option ℕ)

/-- What one execution can do on the transport, with what it leaves to the caller. -/
inductive ExecRun : ExecOutcome → TransportHistory → Prop
  | tooLarge (hlarge : libhothMailboxSize - headerSize < reqPayload.length) :
    ExecRun ⟨cmdExecStatus .outUnderflow, respBuf, outRespSize⟩ []
  | sendFailed (hsize : reqPayload.length ≤ libhothMailboxSize - headerSize)
    (header : HothHostRequest)
    (hheader : populateEcRequestHeader command version reqPayload = .ok header)
    (err : LibhothError) (nonzero : err ≠ hothSuccess) :
    ExecRun ⟨err, respBuf, outRespSize⟩ [⟨.send (header.encode ++ reqPayload), err⟩]
  | receiveFailed (hsize : reqPayload.length ≤ libhothMailboxSize - headerSize)
    (header : HothHostRequest)
    (hheader : populateEcRequestHeader command version reqPayload = .ok header)
    (err : LibhothError) (nonzero : err ≠ hothSuccess) :
    ExecRun ⟨err, respBuf, outRespSize⟩
      [⟨.send (header.encode ++ reqPayload), hothSuccess⟩,
        ⟨.receive libhothMailboxSize hothCmdTimeoutMsDefault, .failed err nonzero⟩]
  | received (hsize : reqPayload.length ≤ libhothMailboxSize - headerSize)
    (header : HothHostRequest)
    (hheader : populateEcRequestHeader command version reqPayload = .ok header)
    (response : List UInt8) (fits : response.length ≤ libhothMailboxSize) :
    ExecRun (deliverResponse response respBuf respBufSize outRespSize)
      [⟨.send (header.encode ++ reqPayload), hothSuccess⟩,
        ⟨.receive libhothMailboxSize hothCmdTimeoutMsDefault, .received response fits⟩]

/-- A payload that fits the request buffer has a request header. -/
theorem populateEcRequestHeader_of_le (command version : ℕ) {reqPayload : List UInt8}
    (hsize : reqPayload.length ≤ libhothMailboxSize - headerSize) :
    ∃ header, populateEcRequestHeader command version reqPayload = .ok header := by
  have hbound : ¬reqPayload.length > 0xFFFF := by
    simp only [libhothMailboxSize, headerSize] at hsize
    omega
  exact ⟨_, by rw [populateEcRequestHeader, if_neg hbound]⟩

/-- The runs of `libhoth_hostcmd_exec_v2` are the listed ones. -/
theorem runs_libhothHostcmdExecV2_iff {outcome : ExecOutcome} {history : TransportHistory} :
    Runs recording (libhothHostcmdExecV2 command version reqPayload respBuf respBufSize
        outRespSize) [] outcome history ↔
      ExecRun command version reqPayload respBuf respBufSize outRespSize outcome history := by
  constructor
  · intro hrun
    unfold libhothHostcmdExecV2 at hrun
    split_ifs at hrun with hlarge
    · obtain ⟨rfl, rfl⟩ := hrun
      exact .tooLarge hlarge
    · have hsize := not_lt.mp hlarge
      obtain ⟨header, hheader⟩ := populateEcRequestHeader_of_le command version hsize
      simp only [hheader, runs_bind, libhothSendRequest, libhothReceiveResponse, runs_request,
        recording_iff] at hrun
      obtain ⟨err, _, rfl, hrun⟩ := hrun
      split_ifs at hrun with herr
      · obtain ⟨rfl, rfl⟩ := hrun
        exact .sendFailed hsize header hheader err herr
      · simp only [runs_bind, runs_request, recording_iff] at hrun
        obtain ⟨reply, _, rfl, hrun⟩ := hrun
        obtain rfl := not_not.mp herr
        cases reply with
        | failed err nonzero =>
          obtain ⟨rfl, rfl⟩ := hrun
          exact .receiveFailed hsize header hheader err nonzero
        | received response fits =>
          obtain ⟨rfl, rfl⟩ := hrun
          exact .received hsize header hheader response fits
  · intro hrun
    unfold libhothHostcmdExecV2
    cases hrun with
    | tooLarge hlarge =>
      rw [if_pos hlarge]
      exact ⟨rfl, rfl⟩
    | sendFailed hsize header hheader err nonzero =>
      simp only [if_neg (not_lt.mpr hsize), hheader, runs_bind, libhothSendRequest, runs_request,
        recording_iff]
      exact ⟨err, _, rfl, by rw [if_pos nonzero]; exact ⟨rfl, rfl⟩⟩
    | receiveFailed hsize header hheader err nonzero =>
      simp only [if_neg (not_lt.mpr hsize), hheader, runs_bind, libhothSendRequest, runs_request,
        recording_iff]
      refine ⟨hothSuccess, _, rfl, ?_⟩
      rw [if_neg (not_not.mpr rfl)]
      exact ⟨.failed err nonzero, _, rfl, rfl, rfl⟩
    | received hsize header hheader response fits =>
      simp only [if_neg (not_lt.mpr hsize), hheader, runs_bind, libhothSendRequest, runs_request,
        recording_iff]
      refine ⟨hothSuccess, _, rfl, ?_⟩
      rw [if_neg (not_not.mpr rfl)]
      exact ⟨.received response fits, _, rfl, rfl, rfl⟩

end Runs

/-- The send of a history succeeded. -/
def SendSucceeded (history : TransportHistory) : Prop :=
  ∃ request, ⟨.send request, hothSuccess⟩ ∈ history

/-- The receive of a history succeeded with a response. -/
def ResponseReceived (history : TransportHistory) (response : List UInt8) : Prop :=
  ∃ maxResponseSize timeoutMs fits,
    ⟨.receive maxResponseSize timeoutMs, .received response fits⟩ ∈ history

section Contract

variable {command version : ℕ} {reqPayload : List UInt8} {respBuf : Option (List UInt8)}
  {respBufSize : ℕ} {outRespSize : Option ℕ} {outcome : ExecOutcome} {history : TransportHistory}

/-- An execution succeeds exactly when the send succeeded and a deliverable response came back. -/
theorem ExecRun.error_eq_success_iff
    (hrun : ExecRun command version reqPayload respBuf respBufSize outRespSize outcome history) :
    outcome.error = hothSuccess ↔ SendSucceeded history ∧
      ∃ response, ResponseReceived history response ∧
        Deliverable response respBufSize outRespSize.isSome := by
  cases hrun with
  | tooLarge hlarge => simp [SendSucceeded]
  | sendFailed hsize header hheader err nonzero => simp [ResponseReceived, nonzero]
  | receiveFailed hsize header hheader err nonzero => simp [ResponseReceived, nonzero]
  | received hsize header hheader response fits =>
    rw [deliverResponse_eq_success_iff]
    simpa [ResponseReceived, SendSucceeded] using fun _ ↦ fits

/-- A failed execution leaves the caller's memory alone. -/
theorem ExecRun.untouched
    (hrun : ExecRun command version reqPayload respBuf respBufSize outRespSize outcome history)
    (hfailed : outcome.error ≠ hothSuccess) :
    outcome.respBuf = respBuf ∧ outcome.outRespSize = outRespSize := by
  cases hrun with
  | tooLarge hlarge => exact ⟨rfl, rfl⟩
  | sendFailed hsize header hheader err nonzero => exact ⟨rfl, rfl⟩
  | receiveFailed hsize header hheader err nonzero => exact ⟨rfl, rfl⟩
  | received hsize header hheader response fits =>
    exact deliverResponse_untouched respBuf respBufSize outRespSize hfailed

/-- When a response came back, the outcome is its delivery. -/
theorem ExecRun.outcome_of_received
    (hrun : ExecRun command version reqPayload respBuf respBufSize outRespSize outcome history)
    {response : List UInt8} (hreceived : ResponseReceived history response) :
    outcome = deliverResponse response respBuf respBufSize outRespSize := by
  cases hrun with
  | tooLarge hlarge => simp [ResponseReceived] at hreceived
  | sendFailed hsize header hheader err nonzero => simp [ResponseReceived] at hreceived
  | receiveFailed hsize header hheader err nonzero => simp [ResponseReceived] at hreceived
  | received hsize header hheader other fits =>
    have hsame : response = other := by
      simp [ResponseReceived] at hreceived
      exact hreceived.2
    rw [hsame]

/-- The contract of `libhoth_hostcmd_exec_v2`. It succeeds exactly when send and receive succeeded
and the response is a well-formed frame with result zero and a payload that fits. On success the
buffer starts with the payload and the size word is its length, and otherwise both are untouched.
A well-formed frame with another result is the firmware error in its first payload word, or, when
the payload is shorter than a word, the result code. -/
theorem libhothHostcmdExecV2_contract
    (hrun : Runs recording (libhothHostcmdExecV2 command version reqPayload respBuf respBufSize
      outRespSize) [] outcome history) :
    (outcome.error = hothSuccess ↔ SendSucceeded history ∧
        ∃ response, ResponseReceived history response ∧ WellFormedResponse response ∧
          (HothHostResponse.decode response).result = 0 ∧
          PayloadFits (responsePayload response) respBufSize outRespSize.isSome) ∧
      (outcome.error = hothSuccess → ∃ response, ResponseReceived history response ∧
        outcome.respBuf = respBuf.map (fun buffer ↦
          responsePayload response ++ buffer.drop (responsePayload response).length) ∧
        outcome.outRespSize = outRespSize.map fun _ ↦ (responsePayload response).length) ∧
      (outcome.error ≠ hothSuccess →
        outcome.respBuf = respBuf ∧ outcome.outRespSize = outRespSize) ∧
      ∀ response, ResponseReceived history response → WellFormedResponse response →
        (HothHostResponse.decode response).result ≠ 0 →
          (4 ≤ (responsePayload response).length →
            libhothErrGetSpace outcome.error = BitVec.ofNat 16 HothHostSpace.pierotErr.value ∧
              libhothErrGetCode outcome.error =
                BitVec.ofNat 32 (wordAt (responsePayload response) 0 4)) ∧
          ((responsePayload response).length < 4 →
            libhothErrGetSpace outcome.error = BitVec.ofNat 16 HothHostSpace.ec.value ∧
              libhothErrGetCode outcome.error =
                BitVec.ofNat 32 (HothHostResponse.decode response).result) := by
  have hcases := (runs_libhothHostcmdExecV2_iff _ _ _ _ _ _).mp hrun
  refine ⟨hcases.error_eq_success_iff, fun hsuccess ↦ ?_, hcases.untouched,
    fun response hreceived hwellFormed hresult ↦ ⟨fun hextended ↦ ?_, fun hplain ↦ ?_⟩⟩
  · obtain ⟨-, response, hreceived, hwellFormed, hresult, hfits⟩ :=
      hcases.error_eq_success_iff.mp hsuccess
    refine ⟨response, hreceived, ?_⟩
    rw [hcases.outcome_of_received hreceived,
      deliverResponse_of_fits _ _ _ hwellFormed hresult hfits]
    exact ⟨rfl, rfl⟩
  · rw [hcases.outcome_of_received hreceived,
      deliverResponse_of_extended_error _ _ _ hwellFormed hresult hextended]
    simp
  · rw [hcases.outcome_of_received hreceived,
      deliverResponse_of_plain_error _ _ _ hwellFormed hresult hplain]
    simp

/-- A two-byte payload delivered into a four-byte buffer, with the size word. -/
theorem libhothHostcmdExecV2_contract_delivered :
    ∃ (outcome : ExecOutcome) (history : TransportHistory),
      Runs recording (libhothHostcmdExecV2 0 0 [] (some [9, 9, 7, 7]) 4 (some 0)) [] outcome
        history ∧
      ResponseReceived history [3, 0xCE, 0, 0, 2, 0, 0, 0, 0x11, 0x1C] ∧
      outcome.error = hothSuccess ∧ outcome.respBuf = some [0x11, 0x1C, 7, 7] ∧
      outcome.outRespSize = some 2 := by
  obtain ⟨header, hheader⟩ := @populateEcRequestHeader_of_le 0 0 [] (by decide)
  have hrun := (runs_libhothHostcmdExecV2_iff 0 0 [] (some [9, 9, 7, 7]) 4 (some 0)).mpr
    (.received (by decide) header hheader [3, 0xCE, 0, 0, 2, 0, 0, 0, 0x11, 0x1C] (by decide))
  obtain ⟨hiff, hbuffer, -, -⟩ := libhothHostcmdExecV2_contract hrun
  have hreceived : ResponseReceived
      [⟨.send (header.encode ++ []), hothSuccess⟩,
        ⟨.receive libhothMailboxSize hothCmdTimeoutMsDefault,
          .received [3, 0xCE, 0, 0, 2, 0, 0, 0, 0x11, 0x1C] (by decide)⟩]
      [3, 0xCE, 0, 0, 2, 0, 0, 0, 0x11, 0x1C] := by
    simp [ResponseReceived, libhothMailboxSize]
  have hsuccess := hiff.mpr ⟨⟨_, List.mem_cons_self⟩, _, hreceived,
    ⟨by decide, by decide, by decide, by decide⟩, by decide, by simp [PayloadFits]; decide⟩
  exact ⟨_, _, hrun, hreceived, hsuccess, by decide, by decide⟩

end Contract

/-! ### The legacy wrapper -/

/-- The errors whose legacy `int` is zero. -/
def LegacyBlind (err : LibhothError) : Prop :=
  (libhothErrGetSpace err = BitVec.ofNat 16 HothHostSpace.pierotErr.value ∧
      libhothErrGetCode err = 0) ∨
    (libhothErrGetSpace err = BitVec.ofNat 16 HothHostSpace.ec.value ∧
      libhothErrGetCode err = -BitVec.ofNat 32 htoolErrorHostCommandStart)

/-- The legacy `int` is zero for success and for the blind errors only. -/
theorem legacyCode_eq_zero_iff (err : LibhothError) :
    legacyCode err = 0 ↔ err = hothSuccess ∨ LegacyBlind err := by
  have hspaces : BitVec.ofNat 16 HothHostSpace.ec.value ≠
      BitVec.ofNat 16 HothHostSpace.pierotErr.value := by decide
  unfold legacyCode LegacyBlind
  dsimp only
  split_ifs with hsuccess hec hpierot
  · simp [hsuccess]
  · simp only [hsuccess, hec, hspaces, false_and, false_or, true_and]
    constructor <;> intro h <;> bv_omega
  · simp only [hsuccess, hpierot, hspaces.symm, false_and, false_or, or_false, true_and]
  · simp only [hsuccess, hec, hpierot, false_and, or_false, iff_false]
    decide

/-- A failure of the transport or of the device whose legacy `int` is zero: a failed send or
receive with a blind error, or a well-formed device error whose first payload word is zero. -/
def LegacyMasked (history : TransportHistory) : Prop :=
  (∃ request err, ⟨.send request, err⟩ ∈ history ∧ LegacyBlind err) ∨
    (∃ maxResponseSize timeoutMs err nonzero,
      ⟨.receive maxResponseSize timeoutMs, .failed err nonzero⟩ ∈ history ∧ LegacyBlind err) ∨
    ∃ response, ResponseReceived history response ∧ WellFormedResponse response ∧
      (HothHostResponse.decode response).result ≠ 0 ∧ 4 ≤ (responsePayload response).length ∧
      wordAt (responsePayload response) 0 4 = 0

theorem not_legacyBlind_success : ¬LegacyBlind hothSuccess := by
  unfold LegacyBlind
  decide

/-- The library's own errors have a non-zero legacy `int`. -/
theorem not_legacyBlind_cmdExecStatus (status : LibhothStatus) :
    ¬LegacyBlind (cmdExecStatus status) := by
  simp only [LegacyBlind, cmdExecStatus, libhothErrGetSpace_cmdExecError, HothHostSpace.value]
  rintro (⟨hspace, -⟩ | ⟨hspace, -⟩) <;> exact absurd hspace (by decide)

/-- A firmware error is blind exactly when its 32-bit code is zero. -/
theorem legacyBlind_pierotErr_iff {word : ℕ} (hword : word < 2 ^ 32) :
    LegacyBlind (cmdExecError .pierotErr (BitVec.ofNat 64 word)) ↔ word = 0 := by
  have hspaces : BitVec.ofNat 16 HothHostSpace.pierotErr.value ≠
      BitVec.ofNat 16 HothHostSpace.ec.value := by decide
  simp only [LegacyBlind, libhothErrGetSpace_cmdExecError, libhothErrGetCode_cmdExecError, hspaces,
    false_and, or_false, true_and]
  constructor
  · intro hzero
    have hvalue := congrArg BitVec.toNat hzero
    simp at hvalue
    omega
  · rintro rfl
    rfl

/-- A 16-bit result code has a non-zero legacy `int`. -/
theorem not_legacyBlind_ec {result : ℕ} (hresult : result < 2 ^ 16) :
    ¬LegacyBlind (cmdExecError .ec (BitVec.ofNat 64 result)) := by
  have hspaces : BitVec.ofNat 16 HothHostSpace.ec.value ≠
      BitVec.ofNat 16 HothHostSpace.pierotErr.value := by decide
  simp only [LegacyBlind, libhothErrGetSpace_cmdExecError, libhothErrGetCode_cmdExecError, hspaces,
    false_and, false_or, true_and]
  intro hblind
  have hvalue := congrArg BitVec.toNat hblind
  simp [htoolErrorHostCommandStart] at hvalue
  omega

/-- The error of a delivery is blind exactly for a well-formed device error whose first payload
word is zero. -/
theorem legacyBlind_deliverResponse_iff (response : List UInt8) (respBuf : Option (List UInt8))
    (respBufSize : ℕ) (outRespSize : Option ℕ) :
    LegacyBlind (deliverResponse response respBuf respBufSize outRespSize).error ↔
      WellFormedResponse response ∧ (HothHostResponse.decode response).result ≠ 0 ∧
        4 ≤ (responsePayload response).length ∧ wordAt (responsePayload response) 0 4 = 0 := by
  by_cases hwellFormed : WellFormedResponse response
  · by_cases hresult : (HothHostResponse.decode response).result = 0
    · by_cases hfits : PayloadFits (responsePayload response) respBufSize outRespSize.isSome
      · rw [deliverResponse_of_fits _ _ _ hwellFormed hresult hfits]
        simp [not_legacyBlind_success, hresult]
      · rw [deliverResponse_of_misfit _ _ _ hwellFormed hresult hfits]
        split_ifs <;> simp [not_legacyBlind_cmdExecStatus, hresult]
    · rcases Nat.lt_or_ge (responsePayload response).length 4 with hplain | hextended
      · rw [deliverResponse_of_plain_error _ _ _ hwellFormed hresult hplain]
        have hbound : (HothHostResponse.decode response).result < 2 ^ 16 := wordAt_lt response 2 2
        simp [not_legacyBlind_ec hbound, not_le.mpr hplain]
      · rw [deliverResponse_of_extended_error _ _ _ hwellFormed hresult hextended]
        simp [legacyBlind_pierotErr_iff (wordAt_lt (responsePayload response) 0 4), hwellFormed,
          hresult, hextended]
  · rw [deliverResponse_of_malformed _ _ _ hwellFormed]
    simp [not_legacyBlind_cmdExecStatus, hwellFormed]

section Legacy

variable {command version : ℕ} {reqPayload : List UInt8} {respBuf : Option (List UInt8)}
  {respBufSize : ℕ} {outRespSize : Option ℕ} {outcome : ExecOutcome} {history : TransportHistory}
  {legacy : BitVec 32 × Option (List UInt8) × Option ℕ}

/-- An execution ends in a blind error exactly when its history masks a failure. -/
theorem ExecRun.legacyBlind_iff
    (hrun : ExecRun command version reqPayload respBuf respBufSize outRespSize outcome history) :
    LegacyBlind outcome.error ↔ LegacyMasked history := by
  cases hrun with
  | tooLarge hlarge => simp [LegacyMasked, ResponseReceived, not_legacyBlind_cmdExecStatus]
  | sendFailed hsize header hheader err nonzero => simp [LegacyMasked, ResponseReceived]
  | receiveFailed hsize header hheader err nonzero =>
    simp [LegacyMasked, ResponseReceived, not_legacyBlind_success, nonzero]
  | received hsize header hheader response fits =>
    rw [legacyBlind_deliverResponse_iff]
    simp [LegacyMasked, ResponseReceived, not_legacyBlind_success, fits]

/-- The wrapper returns zero exactly when the execution succeeds, unless the history masks a
failure, and then it returns zero for a failed execution. -/
theorem libhothHostcmdExec_eq_zero_iff
    (hlegacy : Runs recording (libhothHostcmdExec command version reqPayload respBuf respBufSize
      outRespSize) [] legacy history)
    (hrun : Runs recording (libhothHostcmdExecV2 command version reqPayload respBuf respBufSize
      outRespSize) [] outcome history) :
    (legacy.1 = 0 ↔ outcome.error = hothSuccess) ↔ ¬LegacyMasked history := by
  have hcases := (runs_libhothHostcmdExecV2_iff _ _ _ _ _ _).mp hrun
  have hcode : legacy.1 = legacyCode outcome.error := by
    obtain ⟨inner, middle, hinner, rfl, rfl⟩ := (runs_bind _ _ _ _ _).mp hlegacy
    rw [hinner.recording_unique hrun]
  rw [hcode, legacyCode_eq_zero_iff, ← hcases.legacyBlind_iff]
  constructor
  · intro hiff hblind
    have hsuccess := hiff.mp (Or.inr hblind)
    exact not_legacyBlind_success (hsuccess ▸ hblind)
  · intro hnotBlind
    exact ⟨fun hzero ↦ hzero.resolve_right hnotBlind, Or.inl⟩

/-- The wrapper runs as the execution does and flattens its error. -/
theorem runs_libhothHostcmdExec
    (hrun : Runs recording (libhothHostcmdExecV2 command version reqPayload respBuf respBufSize
      outRespSize) [] outcome history) :
    Runs recording (libhothHostcmdExec command version reqPayload respBuf respBufSize
      outRespSize) [] (legacyCode outcome.error, outcome.respBuf, outcome.outRespSize) history :=
  (runs_bind _ _ _ _ _).mpr ⟨outcome, history, hrun, rfl, rfl⟩

/-- On a device error with an empty payload the wrapper and the execution agree. -/
theorem libhothHostcmdExec_eq_zero_iff_plain_error :
    ∃ (legacy : BitVec 32 × Option (List UInt8) × Option ℕ) (outcome : ExecOutcome)
      (history : TransportHistory),
      Runs recording (libhothHostcmdExecV2 0 0 [] none 0 none) [] outcome history ∧
        ResponseReceived history [3, 0xFB, 2, 0, 0, 0, 0, 0] ∧
        (legacy.1 = 0 ↔ outcome.error = hothSuccess) := by
  obtain ⟨header, hheader⟩ := @populateEcRequestHeader_of_le 0 0 [] (by decide)
  have hrun := (runs_libhothHostcmdExecV2_iff 0 0 [] none 0 none).mpr
    (.received (by decide) header hheader [3, 0xFB, 2, 0, 0, 0, 0, 0] (by decide))
  refine ⟨_, _, _, hrun, ?_,
    (libhothHostcmdExec_eq_zero_iff (runs_libhothHostcmdExec hrun) hrun).mpr ?_⟩
  · simp [ResponseReceived, libhothMailboxSize]
  · have hcases := (runs_libhothHostcmdExecV2_iff _ _ _ _ _ _).mp hrun
    have hplain : ¬4 ≤ (responsePayload [3, 0xFB, 2, 0, 0, 0, 0, 0]).length := by decide
    rw [← hcases.legacyBlind_iff, legacyBlind_deliverResponse_iff]
    exact fun hmasked ↦ hplain hmasked.2.2.1

/-- A well-formed device error whose first payload word is zero is success to the wrapper's caller
and an error to the caller of the execution. -/
theorem libhothHostcmdExec_zero_on_device_error :
    ∃ (legacy : BitVec 32 × Option (List UInt8) × Option ℕ) (outcome : ExecOutcome)
      (history : TransportHistory),
      Runs recording (libhothHostcmdExec 0 0 [] none 0 none) [] legacy history ∧
        Runs recording (libhothHostcmdExecV2 0 0 [] none 0 none) [] outcome history ∧
        ResponseReceived history [3, 0xF7, 2, 0, 4, 0, 0, 0, 0, 0, 0, 0] ∧
        legacy.1 = 0 ∧ outcome.error ≠ hothSuccess := by
  obtain ⟨header, hheader⟩ := @populateEcRequestHeader_of_le 0 0 [] (by decide)
  have hrun := (runs_libhothHostcmdExecV2_iff 0 0 [] none 0 none).mpr
    (.received (by decide) header hheader [3, 0xF7, 2, 0, 4, 0, 0, 0, 0, 0, 0, 0] (by decide))
  refine ⟨_, _, _, runs_libhothHostcmdExec hrun, hrun, ?_, by decide, by decide⟩
  simp [ResponseReceived, libhothMailboxSize]

end Legacy

end Libhoth.Protocol.HostCommand
