import Libhoth.Foundation.ConsecutiveChunks
import Libhoth.Protocol.KeyRotation

/-!
# Updating the key rotation record

`libhoth_key_rotation_update` erases the staging half of the record, writes an image to it packet by
packet and commits it. A commit after a lost or misplaced packet would replace the keys by garbage.

`updateCommands` is what the device should see: the initiation, the packets of the image in order
(`UpdatePackets`), the commit. `libhothKeyRotationUpdate_contract` says that whatever the device
answers it sees a beginning of that, that nothing follows a command that was not acknowledged, that
all of it is sent when every command is, and that the update succeeds exactly when the commit
does.
-/

set_option autoImplicit false
set_option relaxedAutoImplicit false

namespace Libhoth.Protocol.KeyRotationUpdate

open Foundation.ByteString Foundation.ConsecutiveChunks Foundation.InteractingProgram
open Status HostCommand HostCommandProgram KeyRotation

/-! ### Requests -/

/-- `KEY_ROTATION_RECORD_SIGNATURE_SIZE`. -/
def keyRotationRecordSignatureSize : ℕ := 96

/-- The operations of `enum key_rotation_record_op` that replace the record. -/
inductive KeyRotationUpdateOp
  | initiate
  | write
  | commit
  deriving DecidableEq

/-- The numeric value of an operation. -/
def KeyRotationUpdateOp.value : KeyRotationUpdateOp → ℕ
  | initiate => 0
  | write => 1
  | commit => 2

/-- `struct hoth_request_variable_length`: the fields of its header, and the bytes of its data that
are sent. -/
structure HothRequestVariableLength where
  operation : KeyRotationUpdateOp
  packetOffset : ℕ
  packetSize : ℕ
  reserved : ℕ
  data : List UInt8

namespace HothRequestVariableLength

/-- The bytes of a request, each field of the header cut to sixteen bits. -/
def encode (request : HothRequestVariableLength) : List UInt8 :=
  toLittleEndian 2 request.operation.value ++ toLittleEndian 2 request.packetOffset ++
    toLittleEndian 2 request.packetSize ++ toLittleEndian 2 request.reserved ++ request.data

/-- The host command that carries a request and expects an empty response. -/
def call (request : HothRequestVariableLength) : HostCommand where
  command := hothCmdBoardSpecificBase + hothPrvCmdHavenKeyRotationOp
  version := 0
  payload := request.encode
  respBufSize := 0
  sized := true

end HothRequestVariableLength

/-- Send a request and check that the response is empty. -/
def sendRequest (request : HothRequestVariableLength) : HostProgram LibhothError := do
  match ← hostcmdExec request.call with
  | .failed ret _ => return ret
  | .accepted response _ =>
    if response.length ≠ 0 then
      return cmdExecError .ec (BitVec.ofNat 64 HothStatus.invalidResponseSize.value)
    else return hothSuccess

/-- The request of `send_key_rotation_request`. -/
def operationRequest (command : KeyRotationUpdateOp) : HothRequestVariableLength where
  operation := command
  packetOffset := 0
  packetSize := 0
  reserved := 0
  data := []

/-- `send_key_rotation_request`. -/
def sendKeyRotationRequest (command : KeyRotationUpdateOp) : HostProgram LibhothError :=
  sendRequest (operationRequest command)

/-! ### The update -/

/-- The variables of the loop of `libhoth_key_rotation_update`: the offset for the device, the bytes
still to be sent, and where they begin in the image. -/
structure UpdateState where
  offset : ℕ
  size : ℕ
  packetData : ℕ

/-- `size_to_send`. -/
def sizeToSend (size : ℕ) : ℕ :=
  if size < keyRotationRecordWriteMaxSize then size % 2 ^ 16 else keyRotationRecordWriteMaxSize

theorem sizeToSend_eq (size : ℕ) : sizeToSend size = min size 1008 := by
  have hmax : keyRotationRecordWriteMaxSize = 1008 := rfl
  rw [sizeToSend, hmax]
  split_ifs <;> omega

/-- The request for the next packet. The field `reserved` is never set. -/
def UpdateState.request (image : List UInt8) (reserved : ℕ) (state : UpdateState) :
    HothRequestVariableLength where
  operation := .write
  packetOffset := state.offset
  packetSize := sizeToSend state.size
  reserved := reserved
  data := slice image state.packetData (sizeToSend state.size)

/-- The variables after a packet. -/
def UpdateState.advance (state : UpdateState) : UpdateState where
  offset := (state.offset + sizeToSend state.size) % 2 ^ 16
  size := state.size - sizeToSend state.size
  packetData := state.packetData + sizeToSend state.size

/-- One round of the loop of `libhoth_key_rotation_update`. -/
def updateRound (image : List UInt8) (reserved : ℕ) (state : UpdateState) :
    HostProgram ({next : UpdateState // next.size < state.size} ⊕ LibhothError) := do
  if hmore : state.size > 0 then
    let ret ← sendRequest (state.request image reserved)
    if ret ≠ hothSuccess then return .inr ret
    else
      return .inl ⟨state.advance, by
        simp only [UpdateState.advance, sizeToSend_eq]
        omega⟩
  else return .inr hothSuccess

/-- The end of `libhoth_key_rotation_update`. -/
def commitUpdate : HostProgram LibhothError := do
  let commitErr ← sendKeyRotationRequest .commit
  if commitErr ≠ hothSuccess then return cmdExecStatus .commitFail
  else return hothSuccess

/-- The part of `libhoth_key_rotation_update` after its checks. -/
def replaceRecord (image : List UInt8) (reserved : ℕ) : HostProgram LibhothError := do
  let initErr ← sendKeyRotationRequest .initiate
  if initErr ≠ hothSuccess then return cmdExecStatus .initiateFail
  else
    let ret ← whileDecreasing UpdateState.size (updateRound image reserved) ⟨0, image.length, 0⟩
    if ret ≠ hothSuccess then return ret
    else commitUpdate

/-- `libhoth_key_rotation_update`, with the value that `reserved` happens to have in its
requests. -/
def libhothKeyRotationUpdate (image : List UInt8) (reserved : ℕ) : HostProgram LibhothError :=
  if image.length ≤ keyRotationRecordSignatureSize ∨ image.length > keyRotationFlashAreaSize then
    return cmdExecStatus .invalidParameter
  else replaceRecord image reserved

/-! ### What the device sees -/

/-- The packets of an image: consecutive from its start, each of 1 to 1008 bytes and equal to the
image at its offset, and together the image. -/
structure UpdatePackets (image : List UInt8) (packets : List (ℕ × List UInt8)) : Prop where
  consecutive : Consecutive 0 packets
  sizes : ∀ packet ∈ packets, 1 ≤ packet.2.length ∧ packet.2.length ≤ 1008
  slices : ∀ packet ∈ packets, packet.2 = slice image packet.1 packet.2.length
  whole : joined packets = image

/-- The host command that writes a packet. -/
def writeCall (reserved : ℕ) (packet : ℕ × List UInt8) : HostCommand :=
  HothRequestVariableLength.call ⟨.write, packet.1, packet.2.length, reserved, packet.2⟩

/-- The host command that begins the update. -/
def initiateCall : HostCommand :=
  (operationRequest .initiate).call

/-- The host command that makes the staging half the active one. -/
def commitCall : HostCommand :=
  (operationRequest .commit).call

/-- The commands before the commit. -/
def stagingCommands (reserved : ℕ) (packets : List (ℕ × List UInt8)) : List HostCommand :=
  initiateCall :: packets.map (writeCall reserved)

/-- All commands of an update. -/
def updateCommands (reserved : ℕ) (packets : List (ℕ × List UInt8)) : List HostCommand :=
  stagingCommands reserved packets ++ [commitCall]

/-- The command succeeded with an empty response. -/
def Acknowledged (exchange : Exchange HostReply) : Prop :=
  ∃ fits, exchange.2 = .accepted [] fits

/-- What an update promises about the error word it returns and the commands it sent. -/
structure UpdateContract (image : List UInt8) (reserved : ℕ) (packets : List (ℕ × List UInt8))
    (err : LibhothError) (history : HostHistory) : Prop where
  packets_of_image : UpdatePackets image packets
  offsets_on_wire : ∀ packet ∈ packets, wordAt (writeCall reserved packet).payload 2 2 = packet.1
  order : history.map Sigma.fst <+: updateCommands reserved packets
  last_of_unacknowledged : ∀ exchange ∈ history.dropLast, Acknowledged exchange
  goes_on : (∀ exchange ∈ history, Acknowledged exchange) →
    history.map Sigma.fst = updateCommands reserved packets
  commit_iff : commitCall ∈ history.map Sigma.fst ↔
    ∃ staging, staging <+: history ∧ staging.map Sigma.fst = stagingCommands reserved packets ∧
      ∀ exchange ∈ staging, Acknowledged exchange
  success_iff : err = hothSuccess ↔
    ∃ exchange ∈ history, exchange.1 = commitCall ∧ exchange.2.error = hothSuccess

/-! ### Requests on the wire -/

/-- The first field of a request is its operation. -/
theorem wordAt_operation (request : HothRequestVariableLength) :
    wordAt request.call.payload 0 2 = request.operation.value := by
  have hvalue : request.operation.value < 256 ^ 2 := by
    cases request.operation <;> decide
  simp only [HothRequestVariableLength.call, HothRequestVariableLength.encode, List.append_assoc]
  exact wordAt_toLittleEndian hvalue _

/-- The second field of a request is its offset. -/
theorem wordAt_packetOffset (request : HothRequestVariableLength)
    (hoffset : request.packetOffset < 2 ^ 16) :
    wordAt request.call.payload 2 2 = request.packetOffset := by
  have hsecond := wordAt_append_right (toLittleEndian 2 request.operation.value)
    (toLittleEndian 2 request.packetOffset ++ (toLittleEndian 2 request.packetSize ++
      (toLittleEndian 2 request.reserved ++ request.data))) 0 2
  rw [length_toLittleEndian, Nat.add_zero, wordAt_toLittleEndian hoffset] at hsecond
  simpa only [HothRequestVariableLength.call, HothRequestVariableLength.encode,
    List.append_assoc] using hsecond

/-- The commit is none of the commands before it. -/
theorem commitCall_not_mem_stagingCommands (reserved : ℕ) (packets : List (ℕ × List UInt8)) :
    commitCall ∉ stagingCommands reserved packets := by
  have hdiffers {request : HothRequestVariableLength} (hother : request.operation ≠ .commit) :
      commitCall ≠ request.call := by
    intro hsame
    have hcommit := wordAt_operation (operationRequest .commit)
    rw [← commitCall, hsame, wordAt_operation] at hcommit
    cases hoperation : request.operation with
    | initiate => exact absurd (hoperation ▸ hcommit) (by decide)
    | write => exact absurd (hoperation ▸ hcommit) (by decide)
    | commit => exact hother hoperation
  rw [stagingCommands, List.mem_cons, List.mem_map]
  rintro (hinitiate | ⟨packet, -, hwrite⟩)
  · exact hdiffers (by decide) hinitiate
  · exact hdiffers (show KeyRotationUpdateOp.write ≠ .commit by decide) hwrite.symm

/-! ### One request -/

/-- A request is one exchange, and succeeds exactly when it is acknowledged. -/
theorem sendRequest_ensures (request : HothRequestVariableLength) (history : HostHistory) :
    Ensures recording (sendRequest request) history fun err now ↦
      ∃ reply : HostReply request.call, now = history ++ [⟨request.call, reply⟩] ∧
        err = reply.error ∧ (err = hothSuccess ↔ Acknowledged ⟨request.call, reply⟩) := by
  rw [sendRequest, hostcmdExec, ensures_bind, ensures_request]
  rintro reply now rfl
  cases reply with
  | failed err nonzero =>
    refine (ensures_done _ _ _).mpr ⟨_, rfl, rfl, iff_of_false nonzero ?_⟩
    rintro ⟨fits, haccepted⟩
    cases haccepted
  | accepted response fits =>
    have hfits : response.length ≤ 0 := by
      simpa [PayloadFits, HothRequestVariableLength.call] using fits
    obtain rfl := List.length_eq_zero_iff.mp (Nat.le_zero.mp hfits)
    exact (ensures_done _ _ _).mpr ⟨_, rfl, rfl, iff_of_true rfl ⟨fits, rfl⟩⟩

/-! ### The loop -/

section Loop

variable {image : List UInt8} {reserved : ℕ} {packets : List (ℕ × List UInt8)}
  {history : HostHistory}

/-- The initiation and some packets were sent and acknowledged, and the packets are the image up to
some place. -/
structure Staging (image : List UInt8) (reserved : ℕ) (packets : List (ℕ × List UInt8))
    (offset : ℕ) (history : HostHistory) : Prop where
  commands : history.map Sigma.fst = stagingCommands reserved packets
  acknowledged : ∀ exchange ∈ history, Acknowledged exchange
  consecutive : Consecutive 0 packets
  sizes : ∀ packet ∈ packets, 1 ≤ packet.2.length ∧ packet.2.length ≤ 1008
  beginning : joined packets = image.take offset
  inside : offset ≤ image.length

/-- The variables of the loop at some place of the image. -/
structure UpdateState.At (image : List UInt8) (state : UpdateState) : Prop where
  offset : state.offset = state.packetData
  size : state.size = image.length - state.packetData
  inside : state.packetData ≤ image.length

/-- Packets that join to an image, with what follows from being consecutive. -/
theorem updatePackets_of_consecutive (hconsecutive : Consecutive 0 packets)
    (hsizes : ∀ packet ∈ packets, 1 ≤ packet.2.length ∧ packet.2.length ≤ 1008)
    (hwhole : joined packets = image) : UpdatePackets image packets where
  consecutive := hconsecutive
  sizes := hsizes
  slices := by
    intro packet hpacket
    have hslice := (hconsecutive.eq_slice hpacket).2
    rwa [hwhole, Nat.sub_zero] at hslice
  whole := hwhole

/-- The packets so far are a beginning of packets of the whole image. -/
theorem exists_updatePackets {offset : ℕ} (hconsecutive : Consecutive 0 packets)
    (hsizes : ∀ packet ∈ packets, 1 ≤ packet.2.length ∧ packet.2.length ≤ 1008)
    (hbeginning : joined packets = image.take offset) (hinside : offset ≤ image.length) :
    ∃ rest, UpdatePackets image (packets ++ rest) := by
  obtain ⟨rest, hcomplete, hwhole, hrest⟩ :=
    hconsecutive.exists_complete (by decide : 0 < 1008) hinside hbeginning
  refine ⟨rest, updatePackets_of_consecutive hcomplete (fun packet hpacket ↦ ?_) hwhole⟩
  exact (List.mem_append.mp hpacket).elim (hsizes packet) (hrest packet)

/-- The update ended with a command before the commit that was not acknowledged. -/
structure StagingStopped (image : List UInt8) (reserved : ℕ) (packets : List (ℕ × List UInt8))
    (before : HostHistory) (last : Exchange HostReply) : Prop where
  packets_of_image : UpdatePackets image packets
  order : (before ++ [last]).map Sigma.fst <+: stagingCommands reserved packets
  acknowledged : ∀ exchange ∈ before, Acknowledged exchange
  unacknowledged : ¬Acknowledged last

/-- How the loop ends: all packets were acknowledged, or one was not. -/
inductive SendEnd (image : List UInt8) (reserved : ℕ) : LibhothError → HostHistory → Prop
  | sent {packets : List (ℕ × List UInt8)} {history : HostHistory}
    (hpackets : UpdatePackets image packets)
    (hstaging : Staging image reserved packets image.length history) :
    SendEnd image reserved hothSuccess history
  | stopped {packets : List (ℕ × List UInt8)} {before : HostHistory}
    {last : Exchange HostReply} {err : LibhothError} (herr : err ≠ hothSuccess)
    (hstopped : StagingStopped image reserved packets before last) :
    SendEnd image reserved err (before ++ [last])

/-- Packets of an image that is not larger than the area have offsets of sixteen bits. -/
theorem UpdatePackets.offsets_on_wire (hpackets : UpdatePackets image packets)
    (hsmall : image.length ≤ keyRotationFlashAreaSize) :
    ∀ packet ∈ packets, wordAt (writeCall reserved packet).payload 2 2 = packet.1 := by
  intro packet hpacket
  have hslice := congrArg List.length (hpackets.slices packet hpacket)
  have hsize := (hpackets.sizes packet hpacket).1
  have harea : keyRotationFlashAreaSize = 2048 := rfl
  rw [length_slice] at hslice
  exact wordAt_packetOffset _ (by dsimp only; omega)

/-- An update that was stopped never sent the commit. -/
theorem StagingStopped.contract {before : HostHistory} {last : Exchange HostReply}
    (hstopped : StagingStopped image reserved packets before last)
    (hsmall : image.length ≤ keyRotationFlashAreaSize) {err : LibhothError}
    (herr : err ≠ hothSuccess) :
    UpdateContract image reserved packets err (before ++ [last]) := by
  have hcommit : commitCall ∉ (before ++ [last]).map Sigma.fst := fun hmem ↦
    commitCall_not_mem_stagingCommands reserved packets (hstopped.order.subset hmem)
  refine ⟨hstopped.packets_of_image, hstopped.packets_of_image.offsets_on_wire hsmall,
    hstopped.order.trans (List.prefix_append _ _), ?_, ?_, iff_of_false hcommit ?_,
    iff_of_false herr ?_⟩
  · rw [List.dropLast_concat]
    exact hstopped.acknowledged
  · exact fun hall ↦ absurd (hall last (by simp)) hstopped.unacknowledged
  · rintro ⟨staging, hleading, hcommands, hacknowledged⟩
    have hsent := hstopped.order.length_le
    rw [← hcommands, List.length_map, List.length_map] at hsent
    have hall : staging = before ++ [last] := hleading.eq_of_length_le hsent
    exact hstopped.unacknowledged (hacknowledged last (hall ▸ by simp))
  · rintro ⟨exchange, hmem, hcall, -⟩
    exact hcommit (List.mem_map.mpr ⟨exchange, hmem, hcall⟩)

/-- An update that reached the commit sent everything. -/
theorem UpdateContract.of_commit {before : HostHistory} {reply : HostReply commitCall}
    (hpackets : UpdatePackets image packets)
    (hsmall : image.length ≤ keyRotationFlashAreaSize)
    (hcommands : before.map Sigma.fst = stagingCommands reserved packets)
    (hacknowledged : ∀ exchange ∈ before, Acknowledged exchange) {err : LibhothError}
    (herr : err = hothSuccess ↔ reply.error = hothSuccess) :
    UpdateContract image reserved packets err (before ++ [⟨commitCall, reply⟩]) := by
  have hsent : (before ++ [(⟨commitCall, reply⟩ : Exchange HostReply)]).map Sigma.fst =
      updateCommands reserved packets := by
    rw [List.map_append, hcommands]
    rfl
  refine ⟨hpackets, hpackets.offsets_on_wire hsmall, hsent ▸ List.prefix_rfl, ?_, fun _ ↦ hsent,
    iff_of_true ?_ ⟨before, List.prefix_append _ _, hcommands, hacknowledged⟩, ?_⟩
  · rw [List.dropLast_concat]
    exact hacknowledged
  · rw [hsent]
    exact List.mem_append_right _ (List.mem_singleton.mpr rfl)
  · rw [herr]
    constructor
    · exact fun hsuccess ↦ ⟨⟨commitCall, reply⟩, by simp, rfl, hsuccess⟩
    · rintro ⟨exchange, hmem, hcall, hsuccess⟩
      rcases List.mem_append.mp hmem with hbefore | hlast
      · have hearly : commitCall ∈ stagingCommands reserved packets := by
          rw [← hcommands, ← hcall]
          exact List.mem_map_of_mem hbefore
        exact absurd hearly (commitCall_not_mem_stagingCommands reserved packets)
      · obtain rfl := List.mem_singleton.mp hlast
        exact hsuccess

theorem stagingCommands_append (rest : List (ℕ × List UInt8)) :
    stagingCommands reserved (packets ++ rest) =
      stagingCommands reserved packets ++ rest.map (writeCall reserved) := by
  rw [stagingCommands, List.map_append]
  rfl

/-- A round sends the next packet, or ends the loop. -/
theorem updateRound_ensures {state : UpdateState} (hat : state.At image)
    (hsmall : image.length ≤ keyRotationFlashAreaSize)
    (hstaging : Staging image reserved packets state.packetData history) :
    Ensures recording (updateRound image reserved state) history fun outcome now ↦
      match outcome with
      | .inl next => next.val.At image ∧
        ∃ packets, Staging image reserved packets next.val.packetData now
      | .inr err => SendEnd image reserved err now := by
  have hsize := hat.size
  have hinside := hat.inside
  have hsend := sizeToSend_eq state.size
  have harea : keyRotationFlashAreaSize = 2048 := rfl
  rw [updateRound]
  by_cases hmore : state.size > 0
  swap
  · rw [dif_neg hmore]
    have hend : state.packetData = image.length := by omega
    rw [hend] at hstaging
    refine (ensures_done _ _ _).mpr (.sent (updatePackets_of_consecutive hstaging.consecutive
      hstaging.sizes ?_) hstaging)
    rw [hstaging.beginning, List.take_length]
  · rw [dif_pos hmore, ensures_bind]
    have hfits : state.packetData + sizeToSend state.size ≤ image.length := by omega
    have hlength : (slice image state.packetData (sizeToSend state.size)).length =
        sizeToSend state.size := length_slice_of_le hfits
    have hcall : (state.request image reserved).call = writeCall reserved
        (state.packetData, slice image state.packetData (sizeToSend state.size)) := by
      rw [UpdateState.request, writeCall, hlength, hat.offset]
    obtain ⟨hconsecutive, hbeginning⟩ := hstaging.consecutive.snoc_slice hstaging.beginning hfits
    have hsizes : ∀ packet ∈ packets ++
        [(state.packetData, slice image state.packetData (sizeToSend state.size))],
        1 ≤ packet.2.length ∧ packet.2.length ≤ 1008 :=
      forall_mem_snoc hstaging.sizes (by rw [hlength]; omega)
    refine (sendRequest_ensures _ history).mono ?_
    rintro err now ⟨reply, rfl, -, hacknowledged⟩
    have hcommands : (history ++ [(⟨(state.request image reserved).call, reply⟩ :
        Exchange HostReply)]).map Sigma.fst = stagingCommands reserved (packets ++
          [(state.packetData, slice image state.packetData (sizeToSend state.size))]) := by
      rw [List.map_append, hstaging.commands, stagingCommands_append]
      exact congrArg (stagingCommands reserved packets ++ [·]) hcall
    split_ifs with hfailed
    · obtain ⟨rest, hpackets⟩ :=
        exists_updatePackets hconsecutive hsizes hbeginning hfits
      refine (ensures_done _ _ _).mpr (.stopped hfailed
        ⟨hpackets, ?_, hstaging.acknowledged, fun hlast ↦ hfailed (hacknowledged.mpr hlast)⟩)
      rw [hcommands, stagingCommands_append rest]
      exact List.prefix_append _ _
    · have hnow := hacknowledged.mp (not_not.mp hfailed)
      refine (ensures_done _ _ _).mpr ⟨⟨?_, ?_, hfits⟩, _, hcommands,
        forall_mem_snoc hstaging.acknowledged hnow, hconsecutive, hsizes, hbeginning, hfits⟩
      · simp only [UpdateState.advance, hat.offset]
        omega
      · simp only [UpdateState.advance]
        omega

/-- The loop sends all packets, or stops at one that was not acknowledged. -/
theorem sendPackets_ensures (hsmall : image.length ≤ keyRotationFlashAreaSize)
    (hstaging : Staging image reserved [] 0 history) :
    Ensures recording (whileDecreasing UpdateState.size (updateRound image reserved)
      ⟨0, image.length, 0⟩) history fun err now ↦ SendEnd image reserved err now := by
  refine whileDecreasing_ensures (fun state now ↦ state.At image ∧
    ∃ packets, Staging image reserved packets state.packetData now) ?_ _ _
    ⟨⟨rfl, rfl, Nat.zero_le _⟩, [], hstaging⟩
  rintro state now ⟨hat, packets, hpackets⟩
  exact (updateRound_ensures hat hsmall hpackets).mono fun outcome _ h ↦ by
    cases outcome <;> exact h

/-- The commit ends the update. -/
theorem commitUpdate_ensures (hpackets : UpdatePackets image packets)
    (hsmall : image.length ≤ keyRotationFlashAreaSize)
    (hstaging : Staging image reserved packets image.length history) :
    Ensures recording commitUpdate history fun err now ↦
      UpdateContract image reserved packets err now := by
  rw [commitUpdate, sendKeyRotationRequest, ensures_bind]
  refine (sendRequest_ensures _ history).mono ?_
  rintro err now ⟨reply, rfl, rfl, -⟩
  split_ifs with hfailed
  · exact (ensures_done _ _ _).mpr (.of_commit hpackets hsmall hstaging.commands
      hstaging.acknowledged (iff_of_false (cmdExecStatus_ne_success _) hfailed))
  · exact (ensures_done _ _ _).mpr (.of_commit hpackets hsmall hstaging.commands
      hstaging.acknowledged (iff_of_true rfl (not_not.mp hfailed)))

/-- The whole update of an image that fits the area. -/
theorem replaceRecord_ensures (hsmall : image.length ≤ keyRotationFlashAreaSize) :
    Ensures recording (replaceRecord image reserved) [] fun err history ↦
      ∃ packets, UpdateContract image reserved packets err history := by
  rw [replaceRecord, sendKeyRotationRequest, ensures_bind]
  refine (sendRequest_ensures _ []).mono ?_
  rintro err now ⟨reply, rfl, -, hacknowledged⟩
  have hnone : Consecutive 0 ([] : List (ℕ × List UInt8)) := trivial
  have hbeginning : joined ([] : List (ℕ × List UInt8)) = image.take 0 := rfl
  have hsizes : ∀ packet ∈ ([] : List (ℕ × List UInt8)),
      1 ≤ packet.2.length ∧ packet.2.length ≤ 1008 := by simp
  split_ifs with hfailed
  · obtain ⟨packets, hpackets⟩ :=
      exists_updatePackets hnone hsizes hbeginning (Nat.zero_le image.length)
    have hstopped : StagingStopped image reserved packets [] ⟨initiateCall, reply⟩ :=
      ⟨hpackets, ⟨packets.map (writeCall reserved), rfl⟩, by simp,
        fun hlast ↦ hfailed (hacknowledged.mpr hlast)⟩
    exact (ensures_done _ _ _).mpr
      ⟨packets, hstopped.contract hsmall (cmdExecStatus_ne_success _)⟩
  · have hstaging : Staging image reserved [] 0 [⟨initiateCall, reply⟩] := by
      refine ⟨rfl, fun exchange hmem ↦ ?_, hnone, hsizes, hbeginning, Nat.zero_le _⟩
      rw [List.mem_singleton.mp hmem]
      exact hacknowledged.mp (not_not.mp hfailed)
    rw [ensures_bind]
    refine (sendPackets_ensures hsmall hstaging).mono fun ret now hend ↦ ?_
    cases hend with
    | sent hpackets hstaging =>
      rw [if_neg (not_not.mpr rfl)]
      exact (commitUpdate_ensures hpackets hsmall hstaging).mono fun _ _ hkept ↦ ⟨_, hkept⟩
    | stopped herr hstopped =>
      rw [if_pos herr]
      exact (ensures_done _ _ _).mpr ⟨_, hstopped.contract hsmall herr⟩

end Loop

/-! ### The contract -/

/-- Whatever the device answers, `libhoth_key_rotation_update` keeps its contract: nothing is sent
for an image that is too small or too large, and an image of the right size is staged packet by
packet and committed exactly when every packet was acknowledged. -/
theorem libhothKeyRotationUpdate_contract (image : List UInt8) (reserved : ℕ) :
    Ensures recording (libhothKeyRotationUpdate image reserved) [] fun err history ↦
      (image.length ≤ 96 ∨ image.length > 2048 → history = [] ∧ err ≠ hothSuccess) ∧
        (96 < image.length → image.length ≤ 2048 →
          ∃ packets, UpdateContract image reserved packets err history) := by
  rw [libhothKeyRotationUpdate]
  by_cases hsize : image.length ≤ keyRotationRecordSignatureSize ∨
      image.length > keyRotationFlashAreaSize
  · rw [if_pos hsize]
    refine (ensures_done _ _ _).mpr ⟨fun _ ↦ ⟨rfl, cmdExecStatus_ne_success _⟩, ?_⟩
    intro hlarge hsmall
    exact absurd hsize (not_or.mpr ⟨Nat.not_le_of_lt hlarge, Nat.not_lt_of_le hsmall⟩)
  rw [if_neg hsize]
  have hsmall : image.length ≤ keyRotationFlashAreaSize := Nat.le_of_not_lt (not_or.mp hsize).2
  exact (replaceRecord_ensures hsmall).mono fun err history hkept ↦
    ⟨fun hinvalid ↦ absurd hinvalid hsize, fun _ _ ↦ hkept⟩

end Libhoth.Protocol.KeyRotationUpdate
