import Libhoth.Foundation.CheckedAccess
import Libhoth.Protocol.HostCommandProgram

/-!
# Reading the key rotation record

`key_rotation.c`. `libhothKeyRotationReadChunkType` reads a chunk of the record packet by packet
into the 2048 bytes of `struct hoth_response_key_rotation_record_read`. Each reply is a packet of
the chunk followed by the length of the chunk in four bytes, and the host-command layer stores it
in the array at the running offset. `readChunkPacket` is what the loop does with a stored reply, as
a function of the loop state and the reply: stores and loads are checked against the array.
-/

set_option autoImplicit false
set_option relaxedAutoImplicit false

namespace Libhoth.Protocol.KeyRotation

open Foundation.ByteString Foundation.CellMemory Foundation.CheckedAccess
open Foundation.InteractingProgram Status HostCommand HostCommandProgram

/-! ### Constants -/

/-- `HOTH_PRV_CMD_HAVEN_KEY_ROTATION_OP`. -/
def hothPrvCmdHavenKeyRotationOp : ℕ := 0x4d

/-- `KEY_ROTATION_FLASH_AREA_SIZE`: the size of `data` in a record read response. -/
def keyRotationFlashAreaSize : ℕ := 2048

/-- `KEY_ROTATION_MAX_RECORD_SIZE`. -/
def keyRotationMaxRecordSize : ℕ := keyRotationFlashAreaSize - 32

/-- `KEY_ROTATION_RECORD_WRITE_MAX_SIZE`. -/
def keyRotationRecordWriteMaxSize : ℕ := libhothMailboxSize - 8 - 8

/-- `KEY_ROTATION_RECORD_READ_CHUNK_TYPE_MAX_SIZE`. -/
def keyRotationRecordReadChunkTypeMaxSize : ℕ := libhothMailboxSize - 8 - 8 - 8 - 4

/-- `STRUCT_CHUNK_SIZE`. -/
def structChunkSize : ℕ := 8

/-- The operations of `enum key_rotation_record_op` that read the record. -/
inductive KeyRotationRecordOp
  | read
  | readChunkType
  deriving DecidableEq

/-- The numeric value of an operation. -/
def KeyRotationRecordOp.value : KeyRotationRecordOp → ℕ
  | read => 4
  | readChunkType => 6

/-! ### One request -/

/-- `struct hoth_request_key_rotation_record`. The helper that sends it leaves `reserved`
uninitialized. -/
structure HothRequestKeyRotationRecord where
  operation : KeyRotationRecordOp
  packetOffset : ℕ
  packetSize : ℕ
  reserved : ℕ

/-- The bytes of a request header, each field cut to sixteen bits. -/
def HothRequestKeyRotationRecord.encode (header : HothRequestKeyRotationRecord) : List UInt8 :=
  toLittleEndian 2 header.operation.value ++ toLittleEndian 2 header.packetOffset ++
    toLittleEndian 2 header.packetSize ++ toLittleEndian 2 header.reserved

/-- The host command that carries a request. -/
def keyRotationCall (header : HothRequestKeyRotationRecord) (requestPayload : List UInt8)
    (responseBufferSize : ℕ) : HostCommand where
  command := hothCmdBoardSpecificBase + hothPrvCmdHavenKeyRotationOp
  version := 0
  payload := header.encode ++ requestPayload
  respBufSize := responseBufferSize
  sized := true

/-- `send_key_rotation_read_helper`: the bytes of the response, or an error. -/
def sendKeyRotationReadHelper (header : HothRequestKeyRotationRecord) (requestPayload : List UInt8)
    (responseBufferSize : ℕ) : HostProgram (Except LibhothError (List UInt8)) :=
  if requestPayload.length > 0 ∧ (requestPayload.length > keyRotationRecordWriteMaxSize ∨
      header.operation = .read ∧ requestPayload.length ≠ 4 ∨
      header.operation = .readChunkType ∧ requestPayload.length ≠ 8) then
    return .error (cmdExecStatus .invalidParameter)
  else do
    match ← hostcmdExec (keyRotationCall header requestPayload responseBufferSize) with
    | .failed ret _ => return .error ret
    | .accepted response _ => return .ok response

/-! ### Reading a chunk -/

/-- The variables of `libhoth_key_rotation_read_chunk_type`: the running offset, the bytes still to
be read, and the caller's array. -/
structure ReadChunkState where
  readOffset : ℕ
  readSize : ℕ
  data : ℕ → UInt8

/-- What a call leaves its caller: an error word, `*response_size` when it was written, and the
array. -/
structure ReadChunkResult where
  error : LibhothError
  responseSize : Option ℕ
  data : ℕ → UInt8

/-- What is left to be read; a read size of zero stands for an unknown one. -/
def ReadChunkState.remaining (state : ReadChunkState) : ℕ :=
  if state.readSize = 0 then 2 ^ 16 else state.readSize

/-- How a round of the loop ends: with a next round that has less to read, or for good. -/
abbrev ReadChunkOutcome (state : ReadChunkState) :=
  {next : ReadChunkState // next.remaining < state.remaining} ⊕ Except Fault ReadChunkResult

/-- `packet_size` as it is requested. -/
def readChunkPacketSize (readSize : ℕ) : ℕ :=
  if readSize > keyRotationRecordReadChunkTypeMaxSize then keyRotationRecordReadChunkTypeMaxSize
  else readSize

theorem readChunkPacketSize_eq (readSize : ℕ) :
    readChunkPacketSize readSize = min 996 readSize := by
  have hmax : keyRotationRecordReadChunkTypeMaxSize = 996 := rfl
  rw [readChunkPacketSize, hmax]
  by_cases hlarge : readSize > 996
  · rw [if_pos hlarge, min_eq_left hlarge.le]
  · rw [if_neg hlarge, min_eq_right (not_lt.mp hlarge)]

/-- `read_size` once the length of the chunk is known. -/
def knownReadSize (chunkOffset chunkLength readSize : ℕ) : ℕ :=
  if readSize = 0 then (chunkLength + 2 ^ 16 - chunkOffset) % 2 ^ 16 else readSize

/-- The variables after a packet. -/
def ReadChunkState.advance (chunkOffset chunkLength : ℕ) (data : ℕ → UInt8)
    (state : ReadChunkState) : ReadChunkState :=
  let readSize := knownReadSize chunkOffset chunkLength state.readSize
  let packetSize := readChunkPacketSize readSize
  ⟨(state.readOffset + packetSize) % 2 ^ 16, readSize - packetSize, data⟩

theorem ReadChunkState.remaining_advance_lt {chunkOffset chunkLength : ℕ} {data : ℕ → UInt8}
    {state : ReadChunkState} (hmore : 0 < (state.advance chunkOffset chunkLength data).readSize) :
    (state.advance chunkOffset chunkLength data).remaining < state.remaining := by
  simp only [advance, readChunkPacketSize_eq, knownReadSize] at hmore
  simp only [remaining, advance, readChunkPacketSize_eq, knownReadSize, if_neg hmore.ne']
  split_ifs at hmore ⊢ <;> omega

/-- What the loop does with a reply: the reply is stored at the running offset, and the length of
the chunk is read at the length of the packet from the start of the array. -/
def readChunkPacket (chunkOffset : ℕ) (state : ReadChunkState) (response : List UInt8) :
    ReadChunkOutcome state :=
  match storeWithin keyRotationFlashAreaSize state.data state.readOffset response with
  | .error fault => .inr (.error fault)
  | .ok data =>
    if response.length < 4 then
      .inr (.ok ⟨cmdExecError .ec (BitVec.ofNat 64 HothStatus.invalidResponseSize.value), none,
        data⟩)
    else
      match loadWithin keyRotationFlashAreaSize data (response.length - 4) 2 with
      | .error fault => .inr (.error fault)
      | .ok chunkLength =>
        if littleEndian chunkLength < structChunkSize then
          .inr (.ok ⟨cmdExecStatus .fail, none, data⟩)
        else
          let next := state.advance chunkOffset (littleEndian chunkLength) data
          if hmore : 0 < next.readSize then .inl ⟨next, ReadChunkState.remaining_advance_lt hmore⟩
          else .inr (.ok ⟨hothSuccess, some next.readOffset, data⟩)

/-- The arguments of `libhoth_key_rotation_read_chunk_type`, the numbers as the C types hold
them. -/
structure ReadChunkRequest where
  chunkTypecode : ℕ
  chunkIndex : ℕ
  chunkOffset : ℕ
  readSize : ℕ
  reserved : ℕ

/-- `struct hoth_request_key_rotation_record_read_chunk_type`. -/
def ReadChunkRequest.encode (request : ReadChunkRequest) : List UInt8 :=
  toLittleEndian 4 request.chunkTypecode ++ toLittleEndian 4 request.chunkIndex

@[simp] theorem ReadChunkRequest.length_encode (request : ReadChunkRequest) :
    request.encode.length = 8 := by
  simp [ReadChunkRequest.encode]

/-- The header of the request for the next packet. -/
def ReadChunkRequest.header (request : ReadChunkRequest) (state : ReadChunkState) :
    HothRequestKeyRotationRecord where
  operation := .readChunkType
  packetOffset := state.readOffset + request.chunkOffset
  packetSize := readChunkPacketSize state.readSize
  reserved := request.reserved

/-- The size of the response buffer of each request. -/
def readChunkBufferSize : ℕ := keyRotationRecordReadChunkTypeMaxSize + 4

/-- One round of the loop of `libhoth_key_rotation_read_chunk_type`. -/
def readChunkRound (request : ReadChunkRequest) (state : ReadChunkState) :
    HostProgram (ReadChunkOutcome state) :=
  if state.readOffset + state.readSize > keyRotationFlashAreaSize then
    return .inr (.ok ⟨cmdExecStatus .invalidParameter, none, state.data⟩)
  else do
    match ← sendKeyRotationReadHelper (request.header state) request.encode readChunkBufferSize with
    | .error err => return .inr (.ok ⟨err, none, state.data⟩)
    | .ok response => return readChunkPacket request.chunkOffset state response

/-- `libhoth_key_rotation_read_chunk_type` into an array. -/
def libhothKeyRotationReadChunkType (request : ReadChunkRequest) (data : ℕ → UInt8) :
    HostProgram (Except Fault ReadChunkResult) :=
  if request.readSize > keyRotationMaxRecordSize ∨
      request.chunkOffset > keyRotationMaxRecordSize then
    return .ok ⟨cmdExecStatus .invalidParameter, none, data⟩
  else
    whileDecreasing ReadChunkState.remaining (readChunkRound request) ⟨0, request.readSize, data⟩

/-! ### What a packet does -/

section Packet

variable (chunkOffset : ℕ) (state : ReadChunkState) (response : List UInt8)

/-- The array with the reply in it. -/
def ReadChunkState.stored : ℕ → UInt8 :=
  store state.data state.readOffset response

/-- The word that is read as the length of the chunk. -/
def ReadChunkState.chunkLength : ℕ :=
  littleEndian (load (state.stored response) (response.length - 4) 2)

/-- In the first round the word is in the last four bytes of the reply. -/
theorem ReadChunkState.chunkLength_first {state : ReadChunkState} (hfirst : state.readOffset = 0)
    {response : List UInt8} (hlong : 4 ≤ response.length) :
    state.chunkLength response = wordAt response (response.length - 4) 2 := by
  have hslice : (slice response (response.length - 4) 2).length = 2 :=
    length_slice_of_le (by omega)
  rw [chunkLength, wordAt, load_eq_of_getElem? hslice]
  intro index hindex
  have hinside : response.length - 4 + index < 0 + response.length := by omega
  rw [getElem?_slice, if_pos hindex, stored, hfirst]
  exact getElem?_store state.data (Nat.zero_le _) hinside

/-- The variables after an accepted packet. -/
def ReadChunkState.next : ReadChunkState :=
  state.advance chunkOffset (state.chunkLength response) (state.stored response)

/-- The four ways in which the loop goes on from a reply. -/
inductive PacketCase : ReadChunkOutcome state → Prop
  | overflow (hover : keyRotationFlashAreaSize < state.readOffset + response.length) :
    PacketCase (.inr (.error .writeOutOfBounds))
  | rejected (err : LibhothError)
    (hfits : state.readOffset + response.length ≤ keyRotationFlashAreaSize)
    (herr : err ≠ hothSuccess)
    (hrejected : response.length < 4 ∨ state.chunkLength response < structChunkSize) :
    PacketCase (.inr (.ok ⟨err, none, state.stored response⟩))
  | more (hfits : state.readOffset + response.length ≤ keyRotationFlashAreaSize)
    (hlong : 4 ≤ response.length) (hlength : structChunkSize ≤ state.chunkLength response)
    (hmore : 0 < (state.next chunkOffset response).readSize)
    (hlt : (state.next chunkOffset response).remaining < state.remaining) :
    PacketCase (.inl ⟨state.next chunkOffset response, hlt⟩)
  | last (hfits : state.readOffset + response.length ≤ keyRotationFlashAreaSize)
    (hlong : 4 ≤ response.length) (hlength : structChunkSize ≤ state.chunkLength response)
    (hlast : (state.next chunkOffset response).readSize = 0) :
    PacketCase (.inr (.ok ⟨hothSuccess, some (state.next chunkOffset response).readOffset,
      state.stored response⟩))

/-- Every reply that fits its buffer is one of the four. -/
theorem readChunkPacket_cases (hbuffer : response.length ≤ readChunkBufferSize) :
    PacketCase chunkOffset state response (readChunkPacket chunkOffset state response) := by
  have hloaded : response.length - 4 + 2 ≤ keyRotationFlashAreaSize := by
    have hsize : readChunkBufferSize = 1000 := rfl
    have harea : keyRotationFlashAreaSize = 2048 := rfl
    omega
  unfold readChunkPacket
  by_cases hfits : state.readOffset + response.length ≤ keyRotationFlashAreaSize
  · rw [storeWithin_of_le _ hfits]
    simp only [loadWithin_of_le _ hloaded]
    split_ifs with hshort hsmall hmore
    · exact .rejected _ hfits (cmdExecError_ne_success _ _) (.inl hshort)
    · exact .rejected _ hfits (cmdExecStatus_ne_success _) (.inr hsmall)
    · exact .more hfits (not_lt.mp hshort) (not_lt.mp hsmall) hmore _
    · exact .last hfits (not_lt.mp hshort) (not_lt.mp hsmall) (Nat.eq_zero_of_not_pos hmore)
  · rw [storeWithin, if_neg hfits]
    exact .overflow (not_le.mp hfits)

end Packet

/-- The reply to the request for a packet, as the loop receives it. -/
def receivedPacket {header : HothRequestKeyRotationRecord} {payload : List UInt8} {size : ℕ} :
    HostReply (keyRotationCall header payload size) → Except LibhothError (List UInt8)
  | .failed ret _ => .error ret
  | .accepted response _ => .ok response

/-- A request whose payload has the size of its operation is one exchange. -/
theorem ensures_sendValidRequest {σ : Type} (environment : Environment HostReply σ) (start : σ)
    {header : HothRequestKeyRotationRecord} {requestPayload : List UInt8}
    (hvalid : header.operation = .read ∧ requestPayload.length = 4 ∨
      header.operation = .readChunkType ∧ requestPayload.length = 8) (responseBufferSize : ℕ)
    (post : Except LibhothError (List UInt8) → σ → Prop) :
    Ensures environment (sendKeyRotationReadHelper header requestPayload responseBufferSize) start
      post ↔
      ∀ reply final, environment start (keyRotationCall header requestPayload responseBufferSize)
        reply final → post (receivedPacket reply) final := by
  have hmax : keyRotationRecordWriteMaxSize = 1008 := rfl
  have haccepted : ¬(requestPayload.length > 0 ∧
      (requestPayload.length > keyRotationRecordWriteMaxSize ∨
        header.operation = .read ∧ requestPayload.length ≠ 4 ∨
        header.operation = .readChunkType ∧ requestPayload.length ≠ 8)) := by
    rcases hvalid with ⟨hoperation, hlength⟩ | ⟨hoperation, hlength⟩ <;>
      simp [hoperation, hlength, hmax]
  rw [sendKeyRotationReadHelper, if_neg haccepted]
  simp only [hostcmdExec, ensures_bind, ensures_request]
  refine forall_congr' fun reply ↦ forall_congr' fun final ↦ imp_congr_right fun _ ↦ ?_
  cases reply <;> exact ensures_done _ _ _

/-- Requesting a packet is one exchange. -/
theorem ensures_sendKeyRotationReadHelper {σ : Type} (environment : Environment HostReply σ)
    (start : σ) (request : ReadChunkRequest) (state : ReadChunkState)
    (post : Except LibhothError (List UInt8) → σ → Prop) :
    Ensures environment
      (sendKeyRotationReadHelper (request.header state) request.encode readChunkBufferSize) start
      post ↔
      ∀ reply final, environment start
        (keyRotationCall (request.header state) request.encode readChunkBufferSize) reply final →
          post (receivedPacket reply) final :=
  ensures_sendValidRequest environment start (.inr ⟨rfl, request.length_encode⟩) _ post

end Libhoth.Protocol.KeyRotation
