import Libhoth.Foundation.CheckedAccess
import Libhoth.Protocol.HostCommandProgram

/-!
# OpenTitan versions

`opentitan_version.c`. A device has two slots for its ROM extension and two for its application and
boots one of each. `libhothOpentitanVersion` asks for the versions in the slots,
`libhothExtractOtBundle` reads the versions out of an update bundle, and the predicates compare
them. `libhothUpdateComplete_eq_success_iff` is the condition under which an update counts as
complete. Every read of a bundle is checked, and `libhothExtractOtBundle_isOk` says that none
leaves it.
-/

set_option autoImplicit false
set_option relaxedAutoImplicit false

namespace Libhoth.Protocol.OpentitanVersion

open Foundation.ByteString Foundation.CheckedAccess Foundation.InteractingProgram
open Status HostCommand HostCommandProgram

/-! ### Versions and slots -/

/-- `kOpentitanBootSlotA`. -/
def kOpentitanBootSlotA : UInt32 := 0x5f5f4141

/-- `kOpentitanBootSlotB`. -/
def kOpentitanBootSlotB : UInt32 := 0x42425f5f

/-- The fields of `struct opentitan_image_version` that the update logic reads. -/
@[ext]
structure OpentitanImageVersion where
  major : UInt32
  minor : UInt32
  securityVersion : UInt32
  deriving DecidableEq

/-- `struct opentitan_image_boot_info`: the versions in the two slots and the word that names the
booted one. -/
@[ext]
structure OpentitanImageBootInfo where
  slots : Fin 2 → OpentitanImageVersion
  bootedSlot : UInt32

/-- The fields of `struct opentitan_get_version_resp` that the update logic reads. -/
@[ext]
structure OpentitanGetVersionResp where
  romExt : OpentitanImageBootInfo
  app : OpentitanImageBootInfo
  bl0MinSecVer : UInt32

/-- The little-endian 32-bit word at an offset. -/
def word32 (bytes : List UInt8) (offset : ℕ) : UInt32 :=
  UInt32.ofNat (wordAt bytes offset 4)

/-- A `struct opentitan_image_version` at an offset. -/
def decodeImageVersion (bytes : List UInt8) (offset : ℕ) : OpentitanImageVersion where
  major := word32 bytes offset
  minor := word32 bytes (offset + 4)
  securityVersion := word32 bytes (offset + 8)

/-- A `struct opentitan_image_boot_info` at an offset. -/
def decodeBootInfo (bytes : List UInt8) (offset : ℕ) : OpentitanImageBootInfo where
  slots := fun slot ↦ decodeImageVersion bytes (offset + 64 * slot)
  bootedSlot := word32 bytes (offset + 128)

/-- A `struct opentitan_get_version_resp`. -/
def decodeGetVersionResp (bytes : List UInt8) : OpentitanGetVersionResp where
  romExt := decodeBootInfo bytes 0
  app := decodeBootInfo bytes 144
  bl0MinSecVer := word32 bytes 292

/-- The host command of `libhoth_opentitan_version`. -/
def getVersionCall : HostCommand where
  command := 0x3300
  version := 0
  payload := toLittleEndian 4 0
  respBufSize := 344
  sized := false

/-- `libhoth_opentitan_version`. -/
def libhothOpentitanVersion : HostProgram (Except LibhothError OpentitanGetVersionResp) := do
  match ← hostcmdExec getVersionCall with
  | .failed rv _ => return .error rv
  | .accepted payload _ => return .ok (decodeGetVersionResp payload)

/-- The numerals of the slots. -/
scoped instance neZero_slotCount : NeZero 2 :=
  ⟨by decide⟩

/-- `bootslot_int`. -/
def bootslotInt (input : UInt32) : Fin 2 :=
  if input = kOpentitanBootSlotA then 0
  else if input = kOpentitanBootSlotB then 1
  else 0

/-- The index of the slot that is not booted. -/
def stageSlot (bootSlot : Fin 2) : Fin 2 :=
  if bootSlot = 0 then 1 else 0

/-- `libhoth_ot_boot_app`. -/
def libhothOtBootApp (resp : OpentitanGetVersionResp) : OpentitanImageVersion :=
  resp.app.slots (bootslotInt resp.app.bootedSlot)

/-- `libhoth_ot_boot_romext`. -/
def libhothOtBootRomext (resp : OpentitanGetVersionResp) : OpentitanImageVersion :=
  resp.romExt.slots (bootslotInt resp.romExt.bootedSlot)

/-- `libhoth_ot_staged_app`. -/
def libhothOtStagedApp (resp : OpentitanGetVersionResp) : OpentitanImageVersion :=
  resp.app.slots (stageSlot (bootslotInt resp.app.bootedSlot))

/-- `libhoth_ot_staged_romext`. -/
def libhothOtStagedRomext (resp : OpentitanGetVersionResp) : OpentitanImageVersion :=
  resp.romExt.slots (stageSlot (bootslotInt resp.romExt.bootedSlot))

/-! ### Comparing versions -/

/-- `libhoth_ot_app_version_cmp_for_update`. -/
def libhothOtAppVersionCmpForUpdate (a b : OpentitanImageVersion) : ℤ :=
  if a.major ≠ b.major then if a.major > b.major then 1 else -1
  else if a.minor ≠ b.minor then if a.minor > b.minor then 1 else -1
  else 0

/-- `libhoth_ot_rom_ext_version_cmp_for_update`. -/
def libhothOtRomExtVersionCmpForUpdate (a b : OpentitanImageVersion) : ℤ :=
  if a.securityVersion ≠ b.securityVersion then
    if a.securityVersion > b.securityVersion then 1 else -1
  else if a.major ≠ b.major then if a.major > b.major then 1 else -1
  else if a.minor ≠ b.minor then if a.minor > b.minor then 1 else -1
  else 0

@[simp] theorem libhothOtAppVersionCmpForUpdate_self (a : OpentitanImageVersion) :
    libhothOtAppVersionCmpForUpdate a a = 0 := by
  simp [libhothOtAppVersionCmpForUpdate]

@[simp] theorem libhothOtRomExtVersionCmpForUpdate_self (a : OpentitanImageVersion) :
    libhothOtRomExtVersionCmpForUpdate a a = 0 := by
  simp [libhothOtRomExtVersionCmpForUpdate]

/-- `libhoth_ot_check_update_successful`. -/
def libhothOtCheckUpdateSuccessful (resp : OpentitanGetVersionResp)
    (desiredRomext desiredApp : OpentitanImageVersion) : Bool :=
  libhothOtAppVersionCmpForUpdate (libhothOtBootApp resp) desiredApp = 0 ∧
    libhothOtRomExtVersionCmpForUpdate (libhothOtBootRomext resp) desiredRomext ≥ 0

/-- `libhoth_update_complete`. -/
def libhothUpdateComplete (resp : OpentitanGetVersionResp)
    (desiredRomext desiredApp : OpentitanImageVersion) : LibhothError :=
  if libhothOtAppVersionCmpForUpdate (libhothOtBootApp resp) desiredApp ≠ 0 ∨
      libhothOtAppVersionCmpForUpdate (libhothOtStagedApp resp) desiredApp ≠ 0 then
    cmdExecStatus .dfuAppMismatch
  else if libhothOtRomExtVersionCmpForUpdate (libhothOtBootRomext resp) desiredRomext < 0 ∨
      libhothOtRomExtVersionCmpForUpdate (libhothOtStagedRomext resp) desiredRomext ≠ 0 then
    cmdExecStatus .dfuRomextMismatch
  else hothSuccess

/-- An update is complete when both applications and the staged ROM extension are the desired ones
and the booted ROM extension is not older. -/
theorem libhothUpdateComplete_eq_success_iff (resp : OpentitanGetVersionResp)
    (desiredRomext desiredApp : OpentitanImageVersion) :
    libhothUpdateComplete resp desiredRomext desiredApp = hothSuccess ↔
      libhothOtAppVersionCmpForUpdate (libhothOtBootApp resp) desiredApp = 0 ∧
      libhothOtAppVersionCmpForUpdate (libhothOtStagedApp resp) desiredApp = 0 ∧
      libhothOtRomExtVersionCmpForUpdate (libhothOtBootRomext resp) desiredRomext ≥ 0 ∧
      libhothOtRomExtVersionCmpForUpdate (libhothOtStagedRomext resp) desiredRomext = 0 := by
  unfold libhothUpdateComplete
  split_ifs with happ hromext
  · have hmismatch := cmdExecStatus_ne_success .dfuAppMismatch
    simp only [hmismatch, false_iff]
    rintro ⟨hboot, hstaged, -⟩
    exact happ.elim (fun h ↦ h hboot) fun h ↦ h hstaged
  · have hmismatch := cmdExecStatus_ne_success .dfuRomextMismatch
    simp only [hmismatch, false_iff]
    rintro ⟨-, -, hboot, hstaged⟩
    exact hromext.elim (fun h ↦ not_le.mpr h hboot) fun h ↦ h hstaged
  · simp only [true_iff]
    obtain ⟨hboot, hstaged⟩ := not_or.mp happ
    obtain ⟨hbootRomext, hstagedRomext⟩ := not_or.mp hromext
    exact ⟨not_not.mp hboot, not_not.mp hstaged, not_lt.mp hbootRomext, not_not.mp hstagedRomext⟩

/-! ### Bundles -/

/-- The magic at the start of a bundle, `_OTFWUPDATE_`. -/
def bundleMagic : List UInt8 :=
  [0x5f, 0x4f, 0x54, 0x46, 0x57, 0x55, 0x50, 0x44, 0x41, 0x54, 0x45, 0x5f]

/-- `OPENTITAN_OFFSET_HEADER_DATA`. -/
def opentitanOffsetHeaderData : ℕ := 36

/-- `OPENTITAN_OFFSET_APP_FW`. -/
def opentitanOffsetAppFw : UInt32 := 65536

/-- `OPENTITAN_OFFSET_VERSION_MAJOR`. -/
def opentitanOffsetVersionMajor : UInt32 := 836

/-- `OPENTITAN_OFFSET_VERSION_MINOR`. -/
def opentitanOffsetVersionMinor : UInt32 := 840

/-- `OPENTITAN_OFFSET_VERSION_SECURITY`. -/
def opentitanOffsetVersionSecurity : UInt32 := 844

/-- `smallest_fw`: the smallest size of a bundle. -/
def smallestFw : ℕ := opentitanOffsetAppFw.toNat + 64

/-- The version at an offset of a bundle, where the sums of offsets are 32-bit words. -/
def readBundleVersion (image : List UInt8) (offset : UInt32) :
    Except Fault OpentitanImageVersion := do
  let major ← readWord image (offset + opentitanOffsetVersionMajor).toNat 4
  let minor ← readWord image (offset + opentitanOffsetVersionMinor).toNat 4
  let securityVersion ← readWord image (offset + opentitanOffsetVersionSecurity).toNat 4
  return {
    major := UInt32.ofNat major
    minor := UInt32.ofNat minor
    securityVersion := UInt32.ofNat securityVersion }

/-- `libhoth_extract_ot_bundle`: the versions of the ROM extension and the application, or `none`
for the return value -1. -/
def libhothExtractOtBundle (image : List UInt8) :
    Except Fault (Option (OpentitanImageVersion × OpentitanImageVersion)) :=
  if image.length < smallestFw then return none
  else if image.take bundleMagic.length ≠ bundleMagic then return none
  else do
    let header ← readWord image opentitanOffsetHeaderData 4
    let offset := UInt32.ofNat header
    let last := offset + opentitanOffsetAppFw + opentitanOffsetVersionSecurity + 4
    if last.toNat > image.length then return none
    else if last < offset then return none
    else do
      let romExt ← readBundleVersion image offset
      let app ← readBundleVersion image (offset + opentitanOffsetAppFw)
      return some (romExt, app)

/-- A version that ends inside the bundle is read without a fault. -/
theorem readBundleVersion_of_le {image : List UInt8} {offset : UInt32}
    (hinside : offset.toNat + 848 ≤ image.length) (hfits : offset.toNat + 848 < 2 ^ 32) :
    readBundleVersion image offset = .ok (decodeImageVersion image (offset.toNat + 836)) := by
  have hmajor : (offset + opentitanOffsetVersionMajor).toNat = offset.toNat + 836 := by
    simp only [opentitanOffsetVersionMajor, UInt32.toNat_add, UInt32.reduceToNat]
    omega
  have hminor : (offset + opentitanOffsetVersionMinor).toNat = offset.toNat + 836 + 4 := by
    simp only [opentitanOffsetVersionMinor, UInt32.toNat_add, UInt32.reduceToNat]
    omega
  have hsecurity : (offset + opentitanOffsetVersionSecurity).toNat = offset.toNat + 836 + 8 := by
    simp only [opentitanOffsetVersionSecurity, UInt32.toNat_add, UInt32.reduceToNat]
    omega
  rw [readBundleVersion, hmajor, hminor, hsecurity, readWord_of_le (by omega),
    readWord_of_le (by omega), readWord_of_le (by omega)]
  rfl

/-- The end of the checks of a bundle, in natural numbers. -/
theorem toNat_bundleEnd (offset : UInt32) :
    (offset + opentitanOffsetAppFw + opentitanOffsetVersionSecurity + 4).toNat =
      (offset.toNat + 66384) % 2 ^ 32 := by
  simp only [opentitanOffsetAppFw, opentitanOffsetVersionSecurity, UInt32.toNat_add,
    UInt32.reduceToNat]
  omega

/-- A bundle with the magic and an offset inside it yields the two versions at that offset. -/
theorem libhothExtractOtBundle_of_valid {image : List UInt8}
    (hmagic : image.take bundleMagic.length = bundleMagic)
    (hinside : (word32 image opentitanOffsetHeaderData).toNat + 66384 ≤ image.length)
    (hfits : (word32 image opentitanOffsetHeaderData).toNat + 66384 < 2 ^ 32) :
    libhothExtractOtBundle image = .ok (some
      (decodeImageVersion image ((word32 image opentitanOffsetHeaderData).toNat + 836),
        decodeImageVersion image ((word32 image opentitanOffsetHeaderData).toNat + 65536 + 836))) := by
  have hsmall : ¬image.length < smallestFw := by
    simp only [smallestFw, opentitanOffsetAppFw, UInt32.reduceToNat]
    omega
  have hheader : readWord image opentitanOffsetHeaderData 4 =
      .ok (wordAt image opentitanOffsetHeaderData 4) :=
    readWord_of_le (by simp only [opentitanOffsetHeaderData]; omega)
  unfold libhothExtractOtBundle
  rw [if_neg hsmall, if_neg (not_not.mpr hmagic), hheader, ok_bind,
    show UInt32.ofNat (wordAt image opentitanOffsetHeaderData 4) =
    word32 image opentitanOffsetHeaderData from rfl]
  generalize word32 image opentitanOffsetHeaderData = offset at hinside hfits ⊢
  have hend := toNat_bundleEnd offset
  rw [Nat.mod_eq_of_lt hfits] at hend
  have happ : (offset + opentitanOffsetAppFw).toNat = offset.toNat + 65536 := by
    simp only [opentitanOffsetAppFw, UInt32.toNat_add, UInt32.reduceToNat]
    omega
  rw [if_neg (by rw [hend]; omega), if_neg (by rw [UInt32.lt_iff_toNat_lt, hend]; omega),
    readBundleVersion_of_le (by omega) (by omega),
    readBundleVersion_of_le (by rw [happ]; omega) (by rw [happ]; omega), happ]
  rfl

/-- `libhoth_extract_ot_bundle` never reads outside the bundle. -/
theorem libhothExtractOtBundle_isOk (image : List UInt8) :
    ∃ versions, libhothExtractOtBundle image = .ok versions := by
  by_cases hvalid : image.take bundleMagic.length = bundleMagic ∧
      (word32 image opentitanOffsetHeaderData).toNat + 66384 ≤ image.length ∧
      (word32 image opentitanOffsetHeaderData).toNat + 66384 < 2 ^ 32
  · exact ⟨_, libhothExtractOtBundle_of_valid hvalid.1 hvalid.2.1 hvalid.2.2⟩
  · unfold libhothExtractOtBundle
    split_ifs with hsmall hmagic
    · exact ⟨none, rfl⟩
    · exact ⟨none, rfl⟩
    · simp only [smallestFw, opentitanOffsetAppFw, UInt32.reduceToNat, not_lt] at hsmall
      rw [readWord_of_le (by simp only [opentitanOffsetHeaderData]; omega), ok_bind,
        show UInt32.ofNat (wordAt image opentitanOffsetHeaderData 4) =
        word32 image opentitanOffsetHeaderData from rfl]
      generalize word32 image opentitanOffsetHeaderData = offset at hvalid ⊢
      have hend := toNat_bundleEnd offset
      have hoffset := offset.toNat_lt
      dsimp only
      split_ifs with hlarge hwrapped
      · exact ⟨none, rfl⟩
      · exact ⟨none, rfl⟩
      · rw [hend] at hlarge
        rw [UInt32.lt_iff_toNat_lt, hend] at hwrapped
        exact absurd ⟨not_not.mp hmagic, by omega, by omega⟩ hvalid

end Libhoth.Protocol.OpentitanVersion
