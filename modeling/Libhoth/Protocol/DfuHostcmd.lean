import Libhoth.Protocol.OpentitanVersion

/-!
# Firmware update by host commands

`dfu_hostcmd.c`. A DFU session draws a nonce, sends the image in chunks, asks the device to restart
into it and reconnects (`libhothDfuUpdate`). `libhothDfuInstallFirmware` reads the versions of the
bundle and of the device and runs as many sessions as `dfuUpdateCount` asks for, with a check after
each.

`dfuUpdateCount_eq_zero_iff` and `dfuUpdateCount_agrees_iff` compare the decision that nothing is to
be done with `libhothUpdateComplete`: they differ on exactly one relation of one slot, a staged ROM
extension that is newer than the desired one.
-/

set_option autoImplicit false
set_option relaxedAutoImplicit false

namespace Libhoth.Protocol.DfuHostcmd

open Foundation.ByteString Foundation.CheckedAccess Foundation.InteractingProgram
open Status HostCommand HostCommandProgram OpentitanVersion

/-! ### The outside of a session -/

/-- `struct hoth_dfu_nonce`. -/
structure HothDfuNonce where
  low : UInt32
  high : UInt32

/-- What an update asks of its outside: a host command, random bytes, and a reconnect. -/
inductive DfuCall
  | host (call : HostCommand)
  | getRandom
  | reconnect

/-- What comes back: the reply to the command, a nonce unless there is none, and an error word. -/
abbrev DfuReply : DfuCall → Type
  | .host call => HostReply call
  | .getRandom => Option HothDfuNonce
  | .reconnect => LibhothError

/-- Programs over these calls. -/
abbrev DfuProgram := Interaction DfuReply

/-- The history of a run over these calls. -/
abbrev DfuHistory := List (Exchange DfuReply)

/-- A host command of an update. -/
def dfuHost (call : HostCommand) : DfuProgram (HostReply call) :=
  request (DfuCall.host call)

/-! ### A session -/

/-- `struct hoth_dfu_session_id`. -/
structure HothDfuSessionId where
  nonce : HothDfuNonce
  target : UInt32

/-- The bytes of a session id. -/
def HothDfuSessionId.encode (sessionId : HothDfuSessionId) : List UInt8 :=
  toLittleEndian 4 sessionId.nonce.low.toNat ++ toLittleEndian 4 sessionId.nonce.high.toNat ++
    toLittleEndian 4 sessionId.target.toNat

theorem HothDfuSessionId.length_encode (sessionId : HothDfuSessionId) :
    sessionId.encode.length = 12 := by
  simp [HothDfuSessionId.encode]

/-- `HOTH_DFU_TARGET_EARLGREY_FW_UPDATE`. -/
def hothDfuTargetEarlgreyFwUpdate : UInt32 := 0x77664745

/-- `HOTH_DFU_WRITE_FLAGS_NEW_SESSION`. -/
def hothDfuWriteFlagsNewSession : ℕ := 1

/-- `HOTH_CMD_DFU_WRITE`. -/
def hothCmdDfuWrite : ℕ := 0x3e4f

/-- `HOTH_CMD_DFU_COMPLETE`. -/
def hothCmdDfuComplete : ℕ := 0x3e50

/-- The host command that sends a chunk of the image. -/
def dfuWriteCall (sessionId : HothDfuSessionId) (flags : ℕ) (data : List UInt8) : HostCommand where
  command := hothCmdDfuWrite
  version := 0
  payload := sessionId.encode ++ toLittleEndian 4 flags ++ data
  respBufSize := 0
  sized := true

/-- The host command that completes a session. -/
def dfuCompleteCall (sessionId : HothDfuSessionId) (flags : UInt32) : HostCommand where
  command := hothCmdDfuComplete
  version := 0
  payload := sessionId.encode ++ toLittleEndian 4 flags.toNat
  respBufSize := 0
  sized := true

/-- The size of `request.data` in `libhoth_dfu_update`. -/
def dfuChunkSize : ℕ := 1000

/-- `request.hdr.flags` of a chunk. -/
def dfuWriteFlags (bytesSent : ℕ) : ℕ :=
  if bytesSent = 0 then hothDfuWriteFlagsNewSession else 0

/-- One round of the loop of `libhoth_dfu_update` that sends the image. -/
def dfuWriteRound (image : List UInt8) (sessionId : HothDfuSessionId) (bytesSent : ℕ) :
    DfuProgram ({next : ℕ // image.length - next < image.length - bytesSent} ⊕ LibhothError) :=
  if h : bytesSent < image.length then do
    let chunkLen := min dfuChunkSize (image.length - bytesSent)
    let chunk := slice image bytesSent chunkLen
    match ← dfuHost (dfuWriteCall sessionId (dfuWriteFlags bytesSent) chunk) with
    | .failed err _ => return .inr err
    | .accepted response _ =>
      if response.length ≠ 0 then return .inr (cmdExecStatus .fail)
      return .inl ⟨bytesSent + chunkLen, by
        have hchunk : chunkLen = min dfuChunkSize (image.length - bytesSent) := rfl
        simp only [dfuChunkSize] at hchunk
        omega⟩
  else return .inr hothSuccess

/-- The loop of `libhoth_dfu_update` that sends the image. -/
def dfuWrite (image : List UInt8) (sessionId : HothDfuSessionId) : DfuProgram LibhothError :=
  whileDecreasing (fun bytesSent ↦ image.length - bytesSent) (dfuWriteRound image sessionId) 0

/-- `libhoth_dfu_update` of an image that is not `NULL`. A failure to complete the session is
ignored. -/
def libhothDfuUpdate (image : List UInt8) (completeFlags : UInt32) : DfuProgram LibhothError := do
  match ← request DfuCall.getRandom with
  | none => return cmdExecStatus .fail
  | some nonce =>
    let sessionId : HothDfuSessionId := ⟨nonce, hothDfuTargetEarlgreyFwUpdate⟩
    let err ← dfuWrite image sessionId
    if err ≠ hothSuccess then return err
    let _ ← dfuHost (dfuCompleteCall sessionId completeFlags)
    request DfuCall.reconnect

/-! ### The installation -/

/-- `dfu_update_count`. -/
def dfuUpdateCount (desiredRomext desiredApp : OpentitanImageVersion)
    (resp : OpentitanGetVersionResp) : ℕ :=
  let romExtBootSlot := bootslotInt resp.romExt.bootedSlot
  let romExtStageSlot := stageSlot romExtBootSlot
  let appBootSlot := bootslotInt resp.app.bootedSlot
  let appStageSlot := stageSlot appBootSlot
  let bootedRomext := resp.romExt.slots romExtBootSlot
  let stagedRomext := resp.romExt.slots romExtStageSlot
  let bootedApp := resp.app.slots appBootSlot
  let stagedApp := resp.app.slots appStageSlot
  if libhothOtAppVersionCmpForUpdate bootedApp desiredApp ≠ 0 ∨
      libhothOtRomExtVersionCmpForUpdate bootedRomext desiredRomext < 0 then 2
  else if libhothOtAppVersionCmpForUpdate stagedApp desiredApp ≠ 0 ∨
      libhothOtRomExtVersionCmpForUpdate stagedRomext desiredRomext < 0 then 1
  else 0

/-- `libhoth_opentitan_version` among the calls of an update. -/
def queryVersion : DfuProgram (Except LibhothError OpentitanGetVersionResp) :=
  interpret dfuHost libhothOpentitanVersion

/-- The loop of `libhoth_dfu_install_firmware`: the last response, or the error that ended it. -/
def installSessions (image : List UInt8) (completeFlags : UInt32)
    (desiredRomExt desiredApp : OpentitanImageVersion) :
    ℕ → OpentitanGetVersionResp → DfuProgram (Except LibhothError OpentitanGetVersionResp)
  | 0, resp => return .ok resp
  | remaining + 1, _ => do
    let err ← libhothDfuUpdate image completeFlags
    if err ≠ hothSuccess then return .error err
    match ← queryVersion with
    | .error otErr => return .error otErr
    | .ok resp =>
      if !libhothOtCheckUpdateSuccessful resp desiredRomExt desiredApp then
        return .error (cmdExecStatus .fail)
      installSessions image completeFlags desiredRomExt desiredApp remaining resp

/-- `libhoth_dfu_install_firmware` after the bundle was read. -/
def installBundle (image : List UInt8) (completeFlags : UInt32)
    (desiredRomExt desiredApp : OpentitanImageVersion) : DfuProgram LibhothError := do
  match ← queryVersion with
  | .error otErr => return otErr
  | .ok resp =>
    if desiredApp.securityVersion < resp.bl0MinSecVer then
      return cmdExecStatus .invalidParameter
    let updateCnt := dfuUpdateCount desiredRomExt desiredApp resp
    match ← installSessions image completeFlags desiredRomExt desiredApp updateCnt resp with
    | .error err => return err
    | .ok resp => return libhothUpdateComplete resp desiredRomExt desiredApp

/-- `libhoth_dfu_install_firmware` of an image that is not `NULL`. -/
def libhothDfuInstallFirmware (image : List UInt8) (completeFlags : UInt32) :
    DfuProgram (Except Fault LibhothError) :=
  match libhothExtractOtBundle image with
  | .error fault => return .error fault
  | .ok none => return .ok (cmdExecError .libhoth (BitVec.ofInt 64 (-1)))
  | .ok (some (desiredRomExt, desiredApp)) => do
    let err ← installBundle image completeFlags desiredRomExt desiredApp
    return .ok err

/-! ### The decision that nothing is to be done -/

section Decision

variable (desiredRomext desiredApp : OpentitanImageVersion) (resp : OpentitanGetVersionResp)

/-- Another slot than the staged ROM extension needs an update. -/
def OtherSlotNeedsUpdate : Prop :=
  libhothOtAppVersionCmpForUpdate (libhothOtBootApp resp) desiredApp ≠ 0 ∨
    libhothOtAppVersionCmpForUpdate (libhothOtStagedApp resp) desiredApp ≠ 0 ∨
    libhothOtRomExtVersionCmpForUpdate (libhothOtBootRomext resp) desiredRomext < 0

/-- Nothing is to be done when no slot needs an update and the staged ROM extension is not older
than the desired one. -/
theorem dfuUpdateCount_eq_zero_iff :
    dfuUpdateCount desiredRomext desiredApp resp = 0 ↔
      ¬OtherSlotNeedsUpdate desiredRomext desiredApp resp ∧
        libhothOtRomExtVersionCmpForUpdate (libhothOtStagedRomext resp) desiredRomext ≥ 0 := by
  simp only [dfuUpdateCount, OtherSlotNeedsUpdate, libhothOtBootApp, libhothOtStagedApp,
    libhothOtBootRomext, libhothOtStagedRomext]
  split_ifs with hbooted hstaged
  · simp only [false_iff]
    tauto
  · simp only [false_iff]
    rintro ⟨hother, hnotOlder⟩
    rcases hstaged with happ | hromext
    · exact hother (.inr (.inl happ))
    · exact absurd hromext (not_lt.mpr hnotOlder)
  · simp only [true_iff]
    obtain ⟨happ, hromext⟩ := not_or.mp hbooted
    obtain ⟨hstagedApp, hstagedRomext⟩ := not_or.mp hstaged
    exact ⟨by tauto, not_lt.mp hstagedRomext⟩

/-- The decision that nothing is to be done agrees with the final check exactly when the staged ROM
extension is not newer than the desired one or another slot needs an update. -/
theorem dfuUpdateCount_agrees_iff :
    (dfuUpdateCount desiredRomext desiredApp resp = 0 ↔
      libhothUpdateComplete resp desiredRomext desiredApp = hothSuccess) ↔
      libhothOtRomExtVersionCmpForUpdate (libhothOtStagedRomext resp) desiredRomext ≤ 0 ∨
        OtherSlotNeedsUpdate desiredRomext desiredApp resp := by
  rw [dfuUpdateCount_eq_zero_iff, libhothUpdateComplete_eq_success_iff]
  by_cases hother : OtherSlotNeedsUpdate desiredRomext desiredApp resp
  · simp only [hother, not_true, false_and, or_true, iff_true, false_iff]
    rintro ⟨hbootApp, hstagedApp, hbootRomext, -⟩
    rcases hother with happ | happ | hromext
    · exact happ hbootApp
    · exact happ hstagedApp
    · exact absurd hromext (not_lt.mpr hbootRomext)
  · have hslots := hother
    simp only [OtherSlotNeedsUpdate, not_or, not_not, not_lt] at hslots
    obtain ⟨hbootApp, hstagedApp, hbootRomext⟩ := hslots
    simp only [hother, not_false_eq_true, true_and, or_false, hbootApp, hstagedApp, ge_iff_le,
      hbootRomext]
    omega

end Decision

/-- A device whose slots all hold version 0.1 at security version 1, but for a staged ROM extension
of security version 2. -/
def newerStagedRomext : OpentitanGetVersionResp where
  romExt := ⟨fun slot ↦ ⟨0, 1, if slot = 0 then 1 else 2⟩, kOpentitanBootSlotA⟩
  app := ⟨fun _ ↦ ⟨0, 1, 1⟩, kOpentitanBootSlotA⟩
  bl0MinSecVer := 0

/-- That device is left alone by an update to 0.1 at security version 1, and then reported as a
mismatch. -/
theorem dfuUpdateCount_newerStagedRomext :
    ¬(dfuUpdateCount ⟨0, 1, 1⟩ ⟨0, 1, 1⟩ newerStagedRomext = 0 ↔
      libhothUpdateComplete newerStagedRomext ⟨0, 1, 1⟩ ⟨0, 1, 1⟩ = hothSuccess) := by
  decide

end Libhoth.Protocol.DfuHostcmd
