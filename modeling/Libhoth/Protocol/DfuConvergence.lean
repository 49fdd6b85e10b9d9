import Libhoth.Foundation.SlotInstallation
import Libhoth.Protocol.DfuInstall

/-!
# Installing firmware on an ideal device

An ideal device keeps a ROM extension and an application in two slots each, reports them on a
version query, collects the image that a session sends and, when the session completes, installs
the versions of the image in the spare slots and boots them (`idealDevice`).

`libhothDfuInstallFirmware_converges` is the purpose of `libhoth_dfu_install_firmware`: on every
such device whose ROM extensions are not newer than the bundle's and whose anti-rollback gate the
bundle passes, it succeeds, all four slots then compare equal to the bundle, and no smaller number
of sessions would have done. The device is deterministic up to the bytes of a version reply that no
one reads, so a session is one equation on the device (`libhothDfuUpdate_ideal`) and the sessions of
an installation are its iterates (`installSessions_ideal`).
-/

set_option autoImplicit false
set_option relaxedAutoImplicit false

namespace Libhoth.Protocol.DfuConvergence

open Foundation.ByteString Foundation.InteractingProgram Foundation.SlotInstallation
open Status HostCommand HostCommandProgram OpentitanVersion DfuHostcmd DfuInstall

/-! ### The bytes of a version reply -/

/-- The bytes of a `struct opentitan_image_version`, with zeros in the fields that are not read. -/
def encodeImageVersion (version : OpentitanImageVersion) : List UInt8 :=
  toLittleEndian 4 version.major.toNat ++ (toLittleEndian 4 version.minor.toNat ++
    (toLittleEndian 4 version.securityVersion.toNat ++ List.replicate 52 0))

/-- The bytes of a `struct opentitan_image_boot_info`. -/
def encodeBootInfo (info : OpentitanImageBootInfo) : List UInt8 :=
  encodeImageVersion (info.slots 0) ++ (encodeImageVersion (info.slots 1) ++
    (toLittleEndian 4 info.bootedSlot.toNat ++ List.replicate 12 0))

/-- The bytes of a `struct opentitan_get_version_resp`. -/
def encodeGetVersionResp (resp : OpentitanGetVersionResp) : List UInt8 :=
  encodeBootInfo resp.romExt ++ (encodeBootInfo resp.app ++ (List.replicate 4 0 ++
    (toLittleEndian 4 resp.bl0MinSecVer.toNat ++ List.replicate 48 0)))

@[simp] theorem length_encodeImageVersion (version : OpentitanImageVersion) :
    (encodeImageVersion version).length = 64 := by
  simp [encodeImageVersion]

@[simp] theorem length_encodeBootInfo (info : OpentitanImageBootInfo) :
    (encodeBootInfo info).length = 144 := by
  simp [encodeBootInfo]

@[simp] theorem length_encodeGetVersionResp (resp : OpentitanGetVersionResp) :
    (encodeGetVersionResp resp).length = 344 := by
  simp [encodeGetVersionResp]

theorem word32_append_left {first : List UInt8} {offset : ℕ} (hinside : offset + 4 ≤ first.length)
    (second : List UInt8) : word32 (first ++ second) offset = word32 first offset := by
  rw [word32, word32, wordAt_append_left hinside]

theorem word32_append_right {first : List UInt8} {length : ℕ} (hlength : first.length = length)
    (second : List UInt8) (offset : ℕ) :
    word32 (first ++ second) (length + offset) = word32 second offset := by
  rw [word32, word32, ← hlength, wordAt_append_right]

theorem word32_toLittleEndian (value : UInt32) (rest : List UInt8) :
    word32 (toLittleEndian 4 value.toNat ++ rest) 0 = value := by
  rw [word32, wordAt_toLittleEndian value.toNat_lt, UInt32.ofNat_toNat]

theorem decodeImageVersion_encode (version : OpentitanImageVersion) :
    decodeImageVersion (encodeImageVersion version) 0 = version := by
  have hword : ∀ value : UInt32, (toLittleEndian 4 value.toNat).length = 4 :=
    fun value ↦ length_toLittleEndian 4 _
  have hminor := (word32_append_right (hword version.major) _ 0).trans
    (word32_toLittleEndian version.minor
      (toLittleEndian 4 version.securityVersion.toNat ++ List.replicate 52 0))
  have hsecurity := (word32_append_right (hword version.major) _ (4 + 0)).trans
    ((word32_append_right (hword version.minor) _ 0).trans
      (word32_toLittleEndian version.securityVersion (List.replicate 52 0)))
  exact OpentitanImageVersion.ext (word32_toLittleEndian _ _) hminor hsecurity

theorem decodeImageVersion_append_left {first : List UInt8} {offset : ℕ}
    (hinside : offset + 12 ≤ first.length) (second : List UInt8) :
    decodeImageVersion (first ++ second) offset = decodeImageVersion first offset := by
  rw [decodeImageVersion, word32_append_left (by omega), word32_append_left (by omega),
    word32_append_left (by omega), decodeImageVersion]

theorem decodeImageVersion_append_right {first : List UInt8} {length : ℕ}
    (hlength : first.length = length) (second : List UInt8) (offset : ℕ) :
    decodeImageVersion (first ++ second) (length + offset) = decodeImageVersion second offset := by
  simp only [decodeImageVersion, Nat.add_assoc, word32_append_right hlength]

theorem decodeBootInfo_encode (info : OpentitanImageBootInfo) :
    decodeBootInfo (encodeBootInfo info) 0 = info := by
  have hfirst : decodeImageVersion (encodeBootInfo info) 0 = info.slots 0 :=
    (decodeImageVersion_append_left (by simp) _).trans (decodeImageVersion_encode _)
  have hsecond : decodeImageVersion (encodeBootInfo info) (64 + 0) = info.slots 1 :=
    (decodeImageVersion_append_right (length_encodeImageVersion _) _ 0).trans
      ((decodeImageVersion_append_left (by simp) _).trans (decodeImageVersion_encode _))
  have hbooted : word32 (encodeBootInfo info) (64 + (64 + 0)) = info.bootedSlot :=
    (word32_append_right (length_encodeImageVersion _) _ _).trans
      ((word32_append_right (length_encodeImageVersion _) _ _).trans (word32_toLittleEndian _ _))
  refine OpentitanImageBootInfo.ext (funext fun slot ↦ ?_) hbooted
  match slot with
  | 0 => exact hfirst
  | 1 => exact hsecond

theorem decodeBootInfo_append_left {first : List UInt8} {offset : ℕ}
    (hinside : offset + 144 ≤ first.length) (second : List UInt8) :
    decodeBootInfo (first ++ second) offset = decodeBootInfo first offset := by
  have hslot : ∀ slot : Fin 2, decodeImageVersion (first ++ second) (offset + 64 * slot) =
      decodeImageVersion first (offset + 64 * slot) :=
    fun slot ↦ decodeImageVersion_append_left (by omega) second
  simp only [decodeBootInfo, hslot]
  rw [word32_append_left (by omega)]

theorem decodeBootInfo_append_right {first : List UInt8} {length : ℕ}
    (hlength : first.length = length) (second : List UInt8) (offset : ℕ) :
    decodeBootInfo (first ++ second) (length + offset) = decodeBootInfo second offset := by
  simp only [decodeBootInfo, Nat.add_assoc, word32_append_right hlength,
    decodeImageVersion_append_right hlength]

/-- Every report has a version reply. -/
theorem decodeGetVersionResp_encode (resp : OpentitanGetVersionResp) :
    decodeGetVersionResp (encodeGetVersionResp resp) = resp := by
  have hromExt : decodeBootInfo (encodeGetVersionResp resp) 0 = resp.romExt :=
    (decodeBootInfo_append_left (by simp) _).trans (decodeBootInfo_encode _)
  have happ : decodeBootInfo (encodeGetVersionResp resp) (144 + 0) = resp.app :=
    (decodeBootInfo_append_right (length_encodeBootInfo _) _ 0).trans
      ((decodeBootInfo_append_left (by simp) _).trans (decodeBootInfo_encode _))
  have hminimum : word32 (encodeGetVersionResp resp) (144 + (144 + (4 + 0))) = resp.bl0MinSecVer :=
    (word32_append_right (length_encodeBootInfo _) _ _).trans
      ((word32_append_right (length_encodeBootInfo _) _ _).trans
        ((word32_append_right List.length_replicate _ _).trans (word32_toLittleEndian _ _)))
  exact OpentitanGetVersionResp.ext hromExt happ hminimum

/-! ### The slots of a device -/

/-- The versions in the slots of a device. -/
structure FirmwareSlots where
  romExt : TwoSlots OpentitanImageVersion
  app : TwoSlots OpentitanImageVersion

namespace FirmwareSlots

variable (romExt app : OpentitanImageVersion) (slots : FirmwareSlots)

/-- A completed session installs both images. -/
def install : FirmwareSlots where
  romExt := slots.romExt.install romExt
  app := slots.app.install app

/-- All four slots compare equal to the desired versions. -/
def Current : Prop :=
  slots.romExt.Holds (libhothOtRomExtVersionCmpForUpdate · romExt = 0) ∧
    slots.app.Holds (libhothOtAppVersionCmpForUpdate · app = 0)

/-- The booted slots compare equal to the desired versions. -/
def RunningCurrent : Prop :=
  libhothOtRomExtVersionCmpForUpdate slots.romExt.running romExt = 0 ∧
    libhothOtAppVersionCmpForUpdate slots.app.running app = 0

/-- The word that names a slot. -/
def bootSlotWord (slot : Fin 2) : UInt32 :=
  if slot = 0 then kOpentitanBootSlotA else kOpentitanBootSlotB

/-- What a version query says of the slots. -/
def report (bl0MinSecVer : UInt32) : OpentitanGetVersionResp where
  romExt := ⟨slots.romExt.versions, bootSlotWord slots.romExt.booted⟩
  app := ⟨slots.app.versions, bootSlotWord slots.app.booted⟩
  bl0MinSecVer := bl0MinSecVer

theorem bootslotInt_bootSlotWord (slot : Fin 2) : bootslotInt (bootSlotWord slot) = slot := by
  revert slot
  decide

theorem stageSlot_eq_rev (slot : Fin 2) : stageSlot slot = slot.rev := by
  revert slot
  decide

section Report

variable (bl0MinSecVer : UInt32)

@[simp] theorem libhothOtBootApp_report :
    libhothOtBootApp (slots.report bl0MinSecVer) = slots.app.running := by
  simp only [libhothOtBootApp, report, bootslotInt_bootSlotWord, TwoSlots.running]

@[simp] theorem libhothOtBootRomext_report :
    libhothOtBootRomext (slots.report bl0MinSecVer) = slots.romExt.running := by
  simp only [libhothOtBootRomext, report, bootslotInt_bootSlotWord, TwoSlots.running]

@[simp] theorem libhothOtStagedApp_report :
    libhothOtStagedApp (slots.report bl0MinSecVer) = slots.app.spare := by
  simp only [libhothOtStagedApp, report, bootslotInt_bootSlotWord, stageSlot_eq_rev, TwoSlots.spare]

@[simp] theorem libhothOtStagedRomext_report :
    libhothOtStagedRomext (slots.report bl0MinSecVer) = slots.romExt.spare := by
  simp only [libhothOtStagedRomext, report, bootslotInt_bootSlotWord, stageSlot_eq_rev,
    TwoSlots.spare]

/-- The booted slots pass the check after a session. -/
theorem libhothOtCheckUpdateSuccessful_install :
    libhothOtCheckUpdateSuccessful ((slots.install romExt app).report bl0MinSecVer) romExt app =
      true := by
  simp [libhothOtCheckUpdateSuccessful, install]

/-- Slots that compare equal to the desired versions are a complete update. -/
theorem libhothUpdateComplete_of_current (hcurrent : slots.Current romExt app) :
    libhothUpdateComplete (slots.report bl0MinSecVer) romExt app = hothSuccess := by
  obtain ⟨hromExt, happ⟩ := hcurrent
  rw [TwoSlots.holds_iff] at hromExt happ
  rw [libhothUpdateComplete_eq_success_iff]
  simp [hromExt, happ]

end Report

/-! ### The number of sessions -/

/-- After a session the slots are current exactly when the booted ones were before it. -/
theorem current_install : (slots.install romExt app).Current romExt app ↔
    slots.RunningCurrent romExt app := by
  simp [Current, RunningCurrent, TwoSlots.holds_iff, install]

theorem runningCurrent_install : (slots.install romExt app).RunningCurrent romExt app := by
  simp [RunningCurrent, install]

variable {romExt app slots} in
theorem Current.running (hcurrent : slots.Current romExt app) :
    slots.RunningCurrent romExt app :=
  ⟨hcurrent.1 _, hcurrent.2 _⟩

open Classical in
/-- The update count on slots whose ROM extensions are not newer. -/
theorem dfuUpdateCount_report (bl0MinSecVer : UInt32)
    (hromExt : slots.romExt.Holds (libhothOtRomExtVersionCmpForUpdate · romExt ≤ 0)) :
    dfuUpdateCount romExt app (slots.report bl0MinSecVer) =
      if slots.RunningCurrent romExt app then if slots.Current romExt app then 0 else 1 else 2 := by
  obtain ⟨hrunning, hspare⟩ := (TwoSlots.holds_iff _ _).mp hromExt
  change (if libhothOtAppVersionCmpForUpdate (libhothOtBootApp (slots.report bl0MinSecVer)) app ≠ 0 ∨
      libhothOtRomExtVersionCmpForUpdate (libhothOtBootRomext (slots.report bl0MinSecVer)) romExt < 0
    then 2
    else if
      libhothOtAppVersionCmpForUpdate (libhothOtStagedApp (slots.report bl0MinSecVer)) app ≠ 0 ∨
      libhothOtRomExtVersionCmpForUpdate (libhothOtStagedRomext (slots.report bl0MinSecVer)) romExt <
        0
    then 1 else 0) = _
  simp only [libhothOtBootApp_report, libhothOtBootRomext_report, libhothOtStagedApp_report,
    libhothOtStagedRomext_report, RunningCurrent, Current, TwoSlots.holds_iff]
  split_ifs <;> omega

/-- On slots whose ROM extensions are not newer, the update count is the least number of sessions
after which all slots are current. -/
theorem isLeast_dfuUpdateCount (bl0MinSecVer : UInt32)
    (hromExt : slots.romExt.Holds (libhothOtRomExtVersionCmpForUpdate · romExt ≤ 0)) :
    IsLeast {count | ((install romExt app)^[count] slots).Current romExt app}
      (dfuUpdateCount romExt app (slots.report bl0MinSecVer)) := by
  classical
  rw [dfuUpdateCount_report romExt app slots bl0MinSecVer hromExt]
  exact isLeast_installations (runningCurrent_install romExt app) (current_install romExt app)
    (fun _ ↦ Current.running) slots

end FirmwareSlots

/-! ### The ideal device -/

/-- An ideal device: its slots, the anti-rollback minimum, the image received in the session under
way, and how many sessions were begun and completed. -/
structure IdealDevice where
  slots : FirmwareSlots
  bl0MinSecVer : UInt32
  received : List UInt8
  begun : ℕ
  completed : ℕ

namespace IdealDevice

/-- A chunk starts a session or continues the one under way. -/
def write (payload : List UInt8) (device : IdealDevice) : IdealDevice :=
  if wordAt payload 12 4 = hothDfuWriteFlagsNewSession then
    { device with received := payload.drop 16, begun := device.begun + 1 }
  else { device with received := device.received ++ payload.drop 16 }

/-- A session completes by installing the bundle that was received. -/
def complete (device : IdealDevice) : IdealDevice :=
  match libhothExtractOtBundle device.received with
  | .ok (some (romExt, app)) =>
    { device with
      slots := device.slots.install romExt app
      received := []
      completed := device.completed + 1 }
  | _ => device

/-- What a host command does to the device. -/
def perform (call : HostCommand) (device : IdealDevice) : IdealDevice :=
  if call.command = hothCmdDfuWrite then device.write call.payload
  else if call.command = hothCmdDfuComplete then device.complete
  else device

/-- What a version query says of the device. -/
def report (device : IdealDevice) : OpentitanGetVersionResp :=
  device.slots.report device.bl0MinSecVer

/-- The device after a number of bytes of an image were sent to it. -/
def sent (image : List UInt8) (bytesSent : ℕ) (device : IdealDevice) : IdealDevice :=
  if bytesSent = 0 then device
  else { device with received := image.take bytesSent, begun := device.begun + 1 }

/-- The device after a session with a bundle. -/
def session (romExt app : OpentitanImageVersion) (device : IdealDevice) : IdealDevice where
  slots := device.slots.install romExt app
  bl0MinSecVer := device.bl0MinSecVer
  received := []
  begun := device.begun + 1
  completed := device.completed + 1

end IdealDevice

/-- The ideal device as an environment: every command, nonce and reconnect succeeds, and a version
query reports the device. -/
def idealDevice : Environment DfuReply IdealDevice
  | device, .host call, reply, next =>
    (∃ payload fits, reply = .accepted payload fits ∧
      (call = getVersionCall → decodeGetVersionResp payload = device.report)) ∧
      next = device.perform call
  | device, .getRandom, nonce, next => nonce ≠ none ∧ next = device
  | device, .reconnect, err, next => err = hothSuccess ∧ next = device

/-- The ideal device answers every call. -/
theorem idealDevice_serial (device : IdealDevice) (call : DfuCall) :
    ∃ reply next, idealDevice device call reply next := by
  cases call with
  | host call =>
    by_cases hversion : call = getVersionCall
    · subst hversion
      exact ⟨.accepted (encodeGetVersionResp device.report) (length_encodeGetVersionResp _), _,
        ⟨_, _, rfl, fun _ ↦ decodeGetVersionResp_encode _⟩, rfl⟩
    · refine ⟨.accepted (List.replicate call.respBufSize 0) ?_, _,
        ⟨_, _, rfl, fun hcall ↦ absurd hcall hversion⟩, rfl⟩
      unfold PayloadFits
      split_ifs <;> simp
  | getRandom => exact ⟨some ⟨0, 0⟩, device, Option.some_ne_none _, rfl⟩
  | reconnect => exact ⟨hothSuccess, device, rfl, rfl⟩

/-! ### A session -/

section Session

variable {image : List UInt8} {romExt app : OpentitanImageVersion}

/-- A chunk of the image takes the device from one number of sent bytes to the next. -/
theorem perform_dfuWriteCall (device : IdealDevice) (sessionId : HothDfuSessionId)
    {bytesSent chunkLen : ℕ} (hchunk : 0 < chunkLen) :
    (device.sent image bytesSent).perform (dfuWriteCall sessionId (dfuWriteFlags bytesSent)
      (slice image bytesSent chunkLen)) = device.sent image (bytesSent + chunkLen) := by
  have hflags : dfuWriteFlags bytesSent < 2 ^ 32 := by
    unfold dfuWriteFlags
    split_ifs <;> decide
  have hdata : (dfuWriteCall sessionId (dfuWriteFlags bytesSent)
      (slice image bytesSent chunkLen)).payload.drop 16 = slice image bytesSent chunkLen :=
    List.drop_left' (by simp [HothDfuSessionId.length_encode])
  have hcommand : (dfuWriteCall sessionId (dfuWriteFlags bytesSent)
      (slice image bytesSent chunkLen)).command = hothCmdDfuWrite := rfl
  rw [IdealDevice.perform, if_pos hcommand, IdealDevice.write, wordAt_dfuWriteCall _ hflags, hdata]
  by_cases hfirst : bytesSent = 0
  · subst hfirst
    simp [dfuWriteFlags, IdealDevice.sent, hchunk.ne', slice]
  · have htotal : bytesSent + chunkLen ≠ 0 := by omega
    simp only [dfuWriteFlags, hothDfuWriteFlagsNewSession, IdealDevice.sent, if_neg hfirst,
      if_neg htotal, Nat.zero_ne_one, if_false, slice, List.take_add]

/-- The write loop sends the whole image. -/
theorem dfuWrite_ideal (device : IdealDevice) (sessionId : HothDfuSessionId) :
    Ensures idealDevice (dfuWrite image sessionId) device fun err final ↦
      err = hothSuccess ∧ final = device.sent image image.length := by
  refine whileDecreasing_ensures
    (fun bytesSent state ↦ bytesSent ≤ image.length ∧ state = device.sent image bytesSent)
    ?_ 0 _ ⟨Nat.zero_le _, rfl⟩
  rintro bytesSent _ ⟨hle, rfl⟩
  unfold dfuWriteRound
  by_cases hmore : bytesSent < image.length
  · rw [dif_pos hmore]
    simp only [dfuHost, ensures_bind, ensures_request]
    rintro _ _ ⟨⟨response, fits, rfl, -⟩, rfl⟩
    have hempty : response.length = 0 := Nat.le_zero.mp fits
    simp only [hempty, ne_eq, not_true, if_false, pure_eq_done, ensures_done]
    have hchunk : min dfuChunkSize (image.length - bytesSent) > 0 :=
      lt_min (by decide) (by omega)
    exact ⟨by omega, perform_dfuWriteCall device sessionId hchunk⟩
  · rw [dif_neg hmore, pure_eq_done, ensures_done]
    exact ⟨rfl, congrArg (device.sent image) (by omega)⟩

/-- A session with a bundle installs it. -/
theorem libhothDfuUpdate_ideal (completeFlags : UInt32) (device : IdealDevice)
    (hbundle : libhothExtractOtBundle image = .ok (some (romExt, app))) :
    Ensures idealDevice (libhothDfuUpdate image completeFlags) device fun err final ↦
      err = hothSuccess ∧ final = device.session romExt app := by
  have hnonempty : image.length ≠ 0 := by
    intro hlength
    rw [libhothExtractOtBundle, if_pos (by rw [hlength]; decide)] at hbundle
    simp at hbundle
  simp only [libhothDfuUpdate, ensures_bind, ensures_request]
  rintro nonce drawn ⟨hnonce, hdrawn⟩
  rw [hdrawn]
  cases nonce with
  | none => exact absurd rfl hnonce
  | some nonce =>
    simp only [ensures_bind]
    refine (dfuWrite_ideal device _).mono ?_
    rintro _ _ ⟨rfl, rfl⟩
    simp only [ne_eq, not_true, if_false, dfuHost, ensures_bind, ensures_request]
    rintro _ _ ⟨-, rfl⟩ err final ⟨herr, hfinal⟩
    refine ⟨herr, hfinal.trans ?_⟩
    have hcommand : (dfuCompleteCall ⟨nonce, hothDfuTargetEarlgreyFwUpdate⟩ completeFlags).command =
        hothCmdDfuComplete := rfl
    rw [IdealDevice.perform, if_neg (dfuCompleteCall_command_ne _ _).1, if_pos hcommand,
      IdealDevice.complete, IdealDevice.sent, if_neg hnonempty, List.take_length, hbundle]
    rfl

/-- The sessions of an installation are the iterates of one session. -/
theorem installSessions_ideal (completeFlags : UInt32) (device : IdealDevice)
    (hbundle : libhothExtractOtBundle image = .ok (some (romExt, app))) (sessions : ℕ) :
    Ensures idealDevice
      (installSessions image completeFlags romExt app sessions device.report) device
      fun outcome final ↦ outcome = .ok final.report ∧
        final = (IdealDevice.session romExt app)^[sessions] device := by
  induction sessions generalizing device with
  | zero => exact (ensures_done _ _ _).mpr ⟨rfl, rfl⟩
  | succ sessions ih =>
    simp only [installSessions, ensures_bind]
    refine (libhothDfuUpdate_ideal completeFlags device hbundle).mono ?_
    rintro _ _ ⟨rfl, rfl⟩
    simp only [ne_eq, not_true, if_false, ensures_bind, ensures_queryVersion]
    rintro _ _ ⟨⟨payload, fits, rfl, hreport⟩, rfl⟩
    have hcheck : libhothOtCheckUpdateSuccessful (device.session romExt app).report romExt app =
        true :=
      device.slots.libhothOtCheckUpdateSuccessful_install romExt app _
    simp only [queriedVersion, hreport rfl, hcheck, Bool.not_true, Bool.false_eq_true, if_false]
    exact ih (device.session romExt app)

end Session

/-! ### The installation -/

/-- The slots after a number of sessions. -/
theorem slots_iterate_session (romExt app : OpentitanImageVersion) (sessions : ℕ)
    (device : IdealDevice) :
    ((IdealDevice.session romExt app)^[sessions] device).slots =
      (FirmwareSlots.install romExt app)^[sessions] device.slots := by
  have hsemiconj : Function.Semiconj IdealDevice.slots (IdealDevice.session romExt app)
      (FirmwareSlots.install romExt app) := fun _ ↦ rfl
  exact hsemiconj.iterate_right sessions device

/-- The sessions begun and completed are counted. -/
theorem counts_iterate_session (romExt app : OpentitanImageVersion) (sessions : ℕ)
    (device : IdealDevice) :
    ((IdealDevice.session romExt app)^[sessions] device).begun = device.begun + sessions ∧
      ((IdealDevice.session romExt app)^[sessions] device).completed =
        device.completed + sessions := by
  induction sessions with
  | zero => exact ⟨rfl, rfl⟩
  | succ sessions ih =>
    rw [Function.iterate_succ_apply']
    exact ⟨congrArg (· + 1) ih.1, congrArg (· + 1) ih.2⟩

/-- How an installation on an ideal device ends: the device went through the least number of
sessions that brings its slots up to date, and they are. -/
structure Converged (romExt app : OpentitanImageVersion) (device final : IdealDevice) : Prop where
  current : final.slots.Current romExt app
  least : ∃ sessions ≤ 2,
    IsLeast {count | ((FirmwareSlots.install romExt app)^[count] device.slots).Current romExt app}
      sessions ∧
    final.slots = (FirmwareSlots.install romExt app)^[sessions] device.slots ∧
    final.begun = device.begun + sessions ∧ final.completed = device.completed + sessions

section Installation

variable {image : List UInt8} {romExt app : OpentitanImageVersion} {device : IdealDevice}

/-- The sessions that the update count asks for bring the slots up to date. -/
theorem Converged.of_sessions
    (hromExt : device.slots.romExt.Holds (libhothOtRomExtVersionCmpForUpdate · romExt ≤ 0)) :
    Converged romExt app device
      ((IdealDevice.session romExt app)^[dfuUpdateCount romExt app device.report] device) := by
  have hleast := device.slots.isLeast_dfuUpdateCount romExt app device.bl0MinSecVer hromExt
  obtain ⟨hbegun, hcompleted⟩ :=
    counts_iterate_session romExt app (dfuUpdateCount romExt app device.report) device
  have hslots := slots_iterate_session romExt app (dfuUpdateCount romExt app device.report) device
  refine ⟨?_, _, dfuUpdateCount_le romExt app device.report, hleast, hslots, hbegun, hcompleted⟩
  rw [hslots]
  exact hleast.1

/-- The installation of a bundle that passes the gate succeeds and converges. -/
theorem installBundle_ideal (completeFlags : UInt32)
    (hbundle : libhothExtractOtBundle image = .ok (some (romExt, app)))
    (hromExt : device.slots.romExt.Holds (libhothOtRomExtVersionCmpForUpdate · romExt ≤ 0))
    (hgate : device.bl0MinSecVer ≤ app.securityVersion) :
    Ensures idealDevice (installBundle image completeFlags romExt app) device fun err final ↦
      err = hothSuccess ∧ Converged romExt app device final := by
  simp only [installBundle, ensures_bind, ensures_queryVersion]
  rintro _ queried ⟨⟨payload, fits, rfl, hreport⟩, hqueried⟩
  have hunchanged : queried = device := hqueried
  rw [hunchanged]
  have hallowed : ¬app.securityVersion < device.report.bl0MinSecVer := UInt32.not_lt.mpr hgate
  simp only [queriedVersion, hreport rfl, if_neg hallowed, ensures_bind]
  refine (installSessions_ideal completeFlags device hbundle _).mono ?_
  rintro _ _ ⟨rfl, rfl⟩
  have hconverged : Converged romExt app device _ := .of_sessions hromExt
  exact (ensures_done _ _ _).mpr
    ⟨FirmwareSlots.libhothUpdateComplete_of_current _ _ _ _ hconverged.current, hconverged⟩

end Installation

/-- The installation of a bundle's image that passes the gate succeeds and converges. -/
theorem libhothDfuInstallFirmware_ideal {image : List UInt8} (completeFlags : UInt32)
    {romExt app : OpentitanImageVersion} {device : IdealDevice}
    (hbundle : libhothExtractOtBundle image = .ok (some (romExt, app)))
    (hromExt : device.slots.romExt.Holds (libhothOtRomExtVersionCmpForUpdate · romExt ≤ 0))
    (hgate : device.bl0MinSecVer ≤ app.securityVersion) :
    Ensures idealDevice (libhothDfuInstallFirmware image completeFlags) device
      fun result final ↦ result = .ok hothSuccess ∧ Converged romExt app device final := by
  unfold libhothDfuInstallFirmware
  rw [hbundle]
  refine (ensures_bind _ _ _ _).mpr ?_
  refine (installBundle_ideal completeFlags hbundle hromExt hgate).mono ?_
  rintro _ final ⟨rfl, hconverged⟩
  exact (ensures_done _ _ _).mpr ⟨rfl, hconverged⟩

/-- On an ideal device whose ROM extensions are not newer than the bundle's and whose gate the
bundle passes, the installation has a run, and every run of it succeeds and converges. -/
theorem libhothDfuInstallFirmware_converges (image : List UInt8) (completeFlags : UInt32)
    (romExt app : OpentitanImageVersion)
    (hbundle : libhothExtractOtBundle image = .ok (some (romExt, app))) (device : IdealDevice)
    (hromExt : device.slots.romExt.Holds (libhothOtRomExtVersionCmpForUpdate · romExt ≤ 0))
    (hgate : device.bl0MinSecVer ≤ app.securityVersion) :
    (∃ result final,
      Runs idealDevice (libhothDfuInstallFirmware image completeFlags) device result final) ∧
      ∀ result final,
        Runs idealDevice (libhothDfuInstallFirmware image completeFlags) device result final →
          result = .ok hothSuccess ∧ Converged romExt app device final :=
  ⟨Runs.exists_of_serial idealDevice_serial _ _,
    libhothDfuInstallFirmware_ideal completeFlags hbundle hromExt hgate⟩

/-- A device whose ROM extensions are all zero and whose applications are at major version 1, with
different slots booted. -/
def otherApplication : IdealDevice where
  slots := ⟨⟨fun _ ↦ ⟨0, 0, 0⟩, 0⟩, ⟨fun _ ↦ ⟨1, 0, 0⟩, 1⟩⟩
  bl0MinSecVer := 0
  received := []
  begun := 0
  completed := 0

theorem holds_otherApplication :
    otherApplication.slots.romExt.Holds (libhothOtRomExtVersionCmpForUpdate · ⟨0, 0, 0⟩ ≤ 0) :=
  fun _ ↦ (libhothOtRomExtVersionCmpForUpdate_self _).le

/-- The blank bundle is installed on that device. -/
theorem libhothDfuInstallFirmware_converges_otherApplication :
    ∃ final, Runs idealDevice (libhothDfuInstallFirmware blankBundle 0) otherApplication
        (.ok hothSuccess) final ∧
      final.slots.Current ⟨0, 0, 0⟩ ⟨0, 0, 0⟩ := by
  obtain ⟨⟨result, final, hrun⟩, hevery⟩ := libhothDfuInstallFirmware_converges blankBundle 0
    ⟨0, 0, 0⟩ ⟨0, 0, 0⟩ libhothExtractOtBundle_blankBundle otherApplication holds_otherApplication
    (by decide)
  obtain ⟨rfl, hconverged⟩ := hevery result final hrun
  exact ⟨final, hrun, hconverged.current⟩

/-! ### The sessions of a history -/

/-- A command starts a session on the device exactly when its exchange does. -/
theorem IdealDevice.begun_perform (call : HostCommand) (reply : DfuReply (.host call))
    (device : IdealDevice) :
    (device.perform call).begun = device.begun + sessionStarts [⟨.host call, reply⟩] := by
  by_cases hwrite : call.command = hothCmdDfuWrite
  · rw [IdealDevice.perform, if_pos hwrite, IdealDevice.write]
    by_cases hflag : wordAt call.payload 12 4 = hothDfuWriteFlagsNewSession
    · have hstarts : StartsSession ⟨.host call, reply⟩ := ⟨hwrite, hflag⟩
      rw [if_pos hflag, sessionStarts_singleton, if_pos hstarts]
    · have hgoesOn : ¬StartsSession ⟨.host call, reply⟩ := fun hstarts ↦ hflag hstarts.2
      rw [if_neg hflag, sessionStarts_singleton, if_neg hgoesOn, Nat.add_zero]
  · rw [IdealDevice.perform, if_neg hwrite, sessionStarts_of_ne reply hwrite, Nat.add_zero]
    split_ifs
    · rw [IdealDevice.complete]
      split <;> rfl
    · rfl

/-- The device counts the sessions of the history. -/
theorem begun_ensures {α : Type} (program : DfuProgram α) (device : IdealDevice) :
    Ensures (keeping idealDevice) program ([], device) fun _ final ↦
      final.2.begun = device.begun + sessionStarts final.1 := by
  refine ensures_of_step ?_ program rfl
  rintro ⟨past, before⟩ call reply ⟨history, after⟩ hbegun ⟨hhistory, hstep⟩
  dsimp only at hbegun hhistory hstep ⊢
  rw [hhistory, sessionStarts_append, ← Nat.add_assoc, ← hbegun]
  cases call with
  | host call =>
    obtain ⟨-, rfl⟩ := hstep
    exact IdealDevice.begun_perform call reply before
  | getRandom =>
    obtain ⟨-, rfl⟩ := hstep
    rfl
  | reconnect =>
    obtain ⟨-, rfl⟩ := hstep
    rfl

/-- Seen as any device, that device is updated in two sessions, and the last version reply shows
it. -/
theorem libhothDfuInstallFirmware_safe_otherApplication :
    ∃ history, Runs recording (libhothDfuInstallFirmware blankBundle 0) [] (.ok hothSuccess)
        history ∧ sessionStarts history = 2 ∧ ∃ romExt app resp,
      libhothExtractOtBundle blankBundle = .ok (some (romExt, app)) ∧
        (versionReplies history).getLast? = some (some resp) ∧
        libhothUpdateComplete resp romExt app = hothSuccess := by
  obtain ⟨result, ⟨history, final⟩, hrun⟩ := Runs.exists_of_serial
    (keeping_serial idealDevice_serial) (libhothDfuInstallFirmware blankBundle 0)
    ([], otherApplication)
  obtain ⟨hideal, hrecorded⟩ := hrun.of_keeping
  obtain ⟨rfl, hconverged⟩ := libhothDfuInstallFirmware_ideal 0 libhothExtractOtBundle_blankBundle
    holds_otherApplication (by decide) result final hideal
  obtain ⟨err, herr, hcontract⟩ := libhothDfuInstallFirmware_safe blankBundle 0 _ _ hrecorded
  obtain ⟨sessions, -, hleast, -, hbegun, -⟩ := hconverged.least
  have hcount := hleast.unique (otherApplication.slots.isLeast_dfuUpdateCount ⟨0, 0, 0⟩ ⟨0, 0, 0⟩
    otherApplication.bl0MinSecVer holds_otherApplication)
  have htwo : sessionStarts history = 2 := by
    have hstarts : final.begun = otherApplication.begun + sessionStarts history :=
      begun_ensures _ otherApplication _ _ hrun
    rw [hbegun, hcount] at hstarts
    exact (Nat.add_left_cancel hstarts).symm.trans (by decide)
  exact ⟨history, hrecorded, htwo, hcontract.complete (Except.ok.inj herr).symm⟩

end Libhoth.Protocol.DfuConvergence
