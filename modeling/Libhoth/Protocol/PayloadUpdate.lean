import Libhoth.Foundation.NorFlash
import Libhoth.Protocol.HostCommandProgram
import Libhoth.Protocol.PayloadInfo

/-!
# Payload update

`payload_update.c`: erasing the staging area, sending an image to it and finalizing it.
`libhothPayloadUpdateErase` partitions a range into 64K blocks and 4K sectors,
`sendPayload` sends the image in chunks that neither start nor end in `0xFF`, and
`libhothPayloadUpdate` puts the phases together.

The device side is read off the wire: `packetOf` decodes the packet of a host command
(`packetOf_call`), and `PayloadUpdatePacket.apply` is what a packet does to a staging area of NOR
flash.
-/

set_option autoImplicit false
set_option relaxedAutoImplicit false

namespace Libhoth.Protocol.PayloadUpdate

open Foundation.ByteString Foundation.CheckedAccess Foundation.InteractingProgram
open Foundation.NorFlash Status HostCommand HostCommandProgram PayloadInfo

/-! ### Packets -/

/-- `PAYLOAD_UPDATE_CONTINUE`. -/
def payloadUpdateContinue : UInt8 := 1

/-- `PAYLOAD_UPDATE_FINALIZE`. -/
def payloadUpdateFinalize : UInt8 := 2

/-- `PAYLOAD_UPDATE_ERASE`. -/
def payloadUpdateErase : UInt8 := 8

/-- `HOTH_CMD_BOARD_SPECIFIC_BASE + HOTH_PRV_CMD_HOTH_PAYLOAD_UPDATE`. -/
def payloadUpdateCommand : ℕ := hothCmdBoardSpecificBase + 0x0005

/-- `struct payload_update_packet` and the data that follows it. -/
structure PayloadUpdatePacket where
  offset : ℕ
  len : ℕ
  type : UInt8
  data : List UInt8
  deriving DecidableEq

/-- `sizeof(struct payload_update_packet)`. -/
def payloadUpdatePacketSize : ℕ := 9

namespace PayloadUpdatePacket

/-- The bytes of a packet. -/
def encode (packet : PayloadUpdatePacket) : List UInt8 :=
  toLittleEndian 4 packet.offset ++ toLittleEndian 4 packet.len ++ packet.type :: packet.data

/-- The host command that carries a packet and expects a response of a given size. -/
def call (packet : PayloadUpdatePacket) (version respBufSize : ℕ) : HostCommand where
  command := payloadUpdateCommand
  version := version
  payload := packet.encode
  respBufSize := respBufSize
  sized := false

/-- The effect of a packet on the staging area: an erase, a program, or none. -/
def apply (packet : PayloadUpdatePacket) (flash : ℕ → UInt8) : ℕ → UInt8 :=
  if packet.type = payloadUpdateErase then erase flash packet.offset packet.len
  else if packet.type = payloadUpdateContinue then program flash packet.offset packet.data
  else flash

end PayloadUpdatePacket

/-- The packet that a host command carries, if it carries one. -/
def packetOf (command : HostCommand) : Option PayloadUpdatePacket :=
  if command.command = payloadUpdateCommand ∧ payloadUpdatePacketSize ≤ command.payload.length then
    some
      { offset := wordAt command.payload 0 4
        len := wordAt command.payload 4 4
        type := command.payload.getD 8 0
        data := command.payload.drop payloadUpdatePacketSize }
  else none

/-- The packets that a run sent, in order. -/
def packetsOf (history : HostHistory) : List PayloadUpdatePacket :=
  history.filterMap fun exchange ↦ packetOf exchange.1

/-- The staging area after packets were applied to it in order. -/
def applyPackets (original : ℕ → UInt8) (packets : List PayloadUpdatePacket) : ℕ → UInt8 :=
  packets.foldl (fun flash packet ↦ packet.apply flash) original

/-- A host command built from a packet carries that packet. -/
theorem packetOf_call (packet : PayloadUpdatePacket) (version respBufSize : ℕ)
    (hoffset : packet.offset < 2 ^ 32) (hlen : packet.len < 2 ^ 32) :
    packetOf (packet.call version respBufSize) = some packet := by
  obtain ⟨offset, len, type, data⟩ := packet
  have hheader : (toLittleEndian 4 offset ++ toLittleEndian 4 len).length = 8 := by simp
  have hfirst : wordAt (PayloadUpdatePacket.encode ⟨offset, len, type, data⟩) 0 4 = offset := by
    rw [wordAt, slice, PayloadUpdatePacket.encode, List.drop_zero, List.append_assoc,
      List.take_left' (length_toLittleEndian 4 offset)]
    exact littleEndian_toLittleEndian_of_lt hoffset
  have hsecond : wordAt (PayloadUpdatePacket.encode ⟨offset, len, type, data⟩) 4 4 = len := by
    rw [wordAt, slice, PayloadUpdatePacket.encode, List.append_assoc,
      List.drop_left' (length_toLittleEndian 4 offset),
      List.take_left' (length_toLittleEndian 4 len)]
    exact littleEndian_toLittleEndian_of_lt hlen
  have htail : (PayloadUpdatePacket.encode ⟨offset, len, type, data⟩).drop 8 = type :: data := by
    rw [PayloadUpdatePacket.encode, List.drop_left' hheader]
  have htype : (PayloadUpdatePacket.encode ⟨offset, len, type, data⟩).getD 8 0 = type := by
    have hhead : (PayloadUpdatePacket.encode ⟨offset, len, type, data⟩)[8]? = some type := by
      rw [← List.head?_drop, htail, List.head?_cons]
    rw [List.getD_eq_getElem?_getD, hhead, Option.getD_some]
  have hdata : (PayloadUpdatePacket.encode ⟨offset, len, type, data⟩).drop 9 = data := by
    rw [show 9 = 8 + 1 from rfl, ← List.drop_drop, htail]
    rfl
  have hlong : payloadUpdatePacketSize ≤
      (PayloadUpdatePacket.encode ⟨offset, len, type, data⟩).length := by
    simp only [PayloadUpdatePacket.encode, payloadUpdatePacketSize, List.length_append, hheader,
      List.length_cons]
    omega
  rw [packetOf, if_pos ⟨rfl, hlong⟩]
  simp only [PayloadUpdatePacket.call, payloadUpdatePacketSize, hfirst, hsecond, htype, hdata]

/-- A host command of another number carries no packet. -/
theorem packetOf_eq_none {command : HostCommand}
    (hother : command.command ≠ payloadUpdateCommand) : packetOf command = none :=
  if_neg fun hcarries ↦ hother hcarries.1

/-! ### Erasing the staging area -/

/-- `kBlockErase`. -/
def kBlockErase : ℕ := 64 * 1024

/-- `kSectorErase`. -/
def kSectorErase : ℕ := 4 * 1024

/-- `UINT32_MAX`. -/
def uint32Max : ℕ := 2 ^ 32 - 1

/-- Send a packet of version 0 that expects no response payload. -/
def sendPacket (packet : PayloadUpdatePacket) : HostProgram LibhothError := do
  let reply ← hostcmdExec (packet.call 0 0)
  return reply.error

/-- `payload_update_erase_chunk`. -/
def payloadUpdateEraseChunk (offset len : ℕ) : HostProgram LibhothError :=
  sendPacket { offset, len, type := payloadUpdateErase, data := [] }

/-- The size of the next erase of `libhoth_payload_update_erase`. -/
def eraseChunkSize (currentOffset remaining : ℕ) : ℕ :=
  if currentOffset % kBlockErase = 0 ∧ remaining ≥ kBlockErase then kBlockErase else kSectorErase

theorem eraseChunkSize_pos (currentOffset remaining : ℕ) :
    0 < eraseChunkSize currentOffset remaining := by
  unfold eraseChunkSize kBlockErase kSectorErase
  split_ifs <;> omega

/-- One round of the loop of `libhoth_payload_update_erase`. The guards before the loop keep its
sums below `2 ^ 32`, see `eraseRange_ensures`. -/
def eraseRound (offset len erased : ℕ) :
    HostProgram ({next : ℕ // len - next < len - erased} ⊕ LibhothError) :=
  if h : erased < len then do
    let currentOffset := offset + erased
    let remaining := len - erased
    let chunkSize := eraseChunkSize currentOffset remaining
    let ret ← payloadUpdateEraseChunk currentOffset chunkSize
    if ret ≠ hothSuccess then return .inr ret
    return .inl ⟨erased + chunkSize, by
      have hpos : 0 < chunkSize := eraseChunkSize_pos _ _
      omega⟩
  else return .inr hothSuccess

/-- `libhoth_payload_update_erase`. -/
def libhothPayloadUpdateErase (offset len : ℕ) : HostProgram LibhothError :=
  if len = 0 ∨ len % kSectorErase ≠ 0 then
    return cmdExecStatus .imageNotSectorAligned
  else if offset % kSectorErase ≠ 0 then
    return cmdExecStatus .imageNotSectorAligned
  else if uint32Max - offset < len then
    return cmdExecStatus .invalidParameter
  else whileDecreasing (fun erased ↦ len - erased) (eraseRound offset len) 0

/-! ### Sending the image -/

/-- `max_chunk_size`: the mailbox less the request header and the packet header. -/
def maxChunkSize : ℕ := libhothMailboxSize - headerSize - payloadUpdatePacketSize

/-- The inner loop of `libhoth_payload_update`: shorten a chunk while it ends in `0xFF`. -/
def trimChunk (image : List UInt8) (offset : ℕ) :
    (chunkSize : ℕ) → offset + chunkSize ≤ image.length → ℕ
  | 0, _ => 0
  | chunkSize + 1, h =>
    if image[offset + (chunkSize + 1) - 1] = 0xFF then trimChunk image offset chunkSize (by omega)
    else chunkSize + 1

/-- One round of the loop of `libhoth_payload_update` that sends the image. -/
def sendPayloadRound (image : List UInt8) (offset : ℕ) :
    HostProgram ({next : ℕ // image.length - next < image.length - offset} ⊕ LibhothError) :=
  if h : offset < image.length then
    if image[offset] = 0xFF then return .inl ⟨offset + 1, by omega⟩
    else
      let chunkSize := trimChunk image offset (min maxChunkSize (image.length - offset)) (by omega)
      if chunkSize = 0 then return .inl ⟨offset + 1, by omega⟩
      else do
        let ret ← sendPacket
          { offset := offset
            len := chunkSize
            type := payloadUpdateContinue
            data := slice image offset chunkSize }
        if ret ≠ hothSuccess then return .inr ret
        return .inl ⟨offset + (chunkSize - 1) + 1, by omega⟩
  else return .inr hothSuccess

/-- The loop of `libhoth_payload_update` that sends the image. -/
def sendPayload (image : List UInt8) : HostProgram LibhothError :=
  whileDecreasing (fun offset ↦ image.length - offset) (sendPayloadRound image) 0

/-! ### Finalizing -/

/-- `HOTH_CMD_GET_CMD_VERSIONS`. -/
def hothCmdGetCmdVersions : ℕ := 0x0008

/-- The host command of `libhoth_get_command_versions`. -/
def commandVersionsCall (command : ℕ) : HostCommand where
  command := hothCmdGetCmdVersions
  version := 1
  payload := toLittleEndian 2 command
  respBufSize := 4
  sized := false

/-- `libhoth_get_command_versions` with a place for the mask. -/
def libhothGetCommandVersions (command : ℕ) : HostProgram (Except LibhothError ℕ) := do
  match ← hostcmdExec (commandVersionsCall command) with
  | .failed err _ => return .error err
  | .accepted payload _ => return .ok (littleEndian payload)

/-- `get_payload_update_version`. -/
def getPayloadUpdateVersion : HostProgram (Except LibhothError ℕ) := do
  match ← libhothGetCommandVersions payloadUpdateCommand with
  | .error err =>
    if err = cmdExecError .ec (BitVec.ofNat 64 HothStatus.invalidCommand.value) then return .ok 0
    else return .error err
  | .ok versionMask => if versionMask &&& 0x2 = 0 then return .ok 0 else return .ok 1

/-- `send_payload_update_request_with_command`. -/
def sendPayloadUpdateRequestWithCommand (command : UInt8) : HostProgram LibhothError :=
  sendPacket { offset := 0, len := 0, type := command, data := [] }

/-- `libhoth_payload_update_finalize`: on success, whether the programmable logic needs to be
initialized again. -/
def libhothPayloadUpdateFinalize : HostProgram (Except LibhothError UInt8) := do
  match ← getPayloadUpdateVersion with
  | .error status => return .error status
  | .ok 0 =>
    let status ← sendPayloadUpdateRequestWithCommand payloadUpdateFinalize
    if status ≠ hothSuccess then return .error status
    return .ok 0
  | .ok _ =>
    let packet : PayloadUpdatePacket :=
      { offset := 0, len := 0, type := payloadUpdateFinalize, data := [] }
    match ← hostcmdExec (packet.call 1 1) with
    | .failed status _ => return .error status
    | .accepted payload _ => return .ok (payload.getD 0 0)

/-! ### The update -/

/-- The number of bytes that `libhoth_payload_update` erases, or `none` when it does not fit 32
bits. -/
def payloadEraseSize (size : ℕ) (binaryFile : Bool) : Option ℕ :=
  if binaryFile = true ∧ size % kSectorErase ≠ 0 then
    let pad := kSectorErase - size % kSectorErase
    if size > uint32Max - pad then none
    else if size + pad > uint32Max then none
    else some (size + pad)
  else if size > uint32Max then none
  else some size

/-- The erase phase of `libhoth_payload_update`. -/
def erasePayloadArea (size : ℕ) (skipErase binaryFile : Bool) : HostProgram LibhothError :=
  if skipErase then return hothSuccess
  else
    match payloadEraseSize size binaryFile with
    | none => return cmdExecStatus .invalidParameter
    | some eraseSize => libhothPayloadUpdateErase 0 eraseSize

/-- The finalize phase of `libhoth_payload_update`. -/
def finalizePayload (binaryFile : Bool) : HostProgram LibhothError :=
  if binaryFile then return hothSuccess
  else do
    match ← libhothPayloadUpdateFinalize with
    | .error finalizeErr => return finalizeErr
    | .ok _ => return hothSuccess

/-- The phases of `libhoth_payload_update` after the image was accepted. -/
def stagePayload (image : List UInt8) (skipErase binaryFile : Bool) : HostProgram LibhothError := do
  let err ← erasePayloadArea image.length skipErase binaryFile
  if err ≠ hothSuccess then return err
  let ret ← sendPayload image
  if ret ≠ hothSuccess then return ret
  finalizePayload binaryFile

/-- The test of `libhoth_payload_update` that the image is one it can activate. -/
def payloadAccepted (image : List UInt8) (binaryFile : Bool) : Except Fault Bool :=
  if binaryFile then return true
  else do
    let descriptor ← libhothFindImageDescriptor image
    return descriptor.isSome

/-- `libhoth_payload_update`. -/
def libhothPayloadUpdate (image : List UInt8) (skipErase binaryFile : Bool) :
    HostProgram (Except Fault LibhothError) :=
  match payloadAccepted image binaryFile with
  | .error fault => return .error fault
  | .ok false => return .ok (cmdExecStatus .badImage)
  | .ok true => do
    let err ← stagePayload image skipErase binaryFile
    return .ok err

/-- `libhoth_payload_update` never reads outside the image while it looks for a descriptor. -/
theorem payloadAccepted_isOk (image : List UInt8) (binaryFile : Bool) :
    ∃ accepted, payloadAccepted image binaryFile = .ok accepted := by
  obtain ⟨descriptor, hdescriptor⟩ := libhothFindImageDescriptor_isOk image
  cases binaryFile with
  | true => exact ⟨true, rfl⟩
  | false => exact ⟨descriptor.isSome, by simp [payloadAccepted, hdescriptor]⟩

end Libhoth.Protocol.PayloadUpdate
