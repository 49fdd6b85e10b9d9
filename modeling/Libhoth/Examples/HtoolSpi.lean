import Libhoth.Protocol.ForceWrite
import Libhoth.Protocol.SpiProxyChip

/-!
# The SPI commands of the tool

`command_spi_update` of `htool.c` programs a file into the flash behind the SPI proxy, and
`command_spi_read` reads a range of it into a file, 64 KiB at a time. Both choose the address mode
by name and begin with `libhoth_spi_proxy_init`.

A `ToolWorld` is the chip, the files and the descriptors of the process. `htoolSpi_roundTrip` is
about an update and a later read, of ranges inside the address space (`RoundTripSpec`): when both
return zero, the file that was read into has the flash that the update was meant to leave, which is
the file that was programmed wherever the ranges overlap and the old contents outside the sectors
that were touched. On a device that rejects nothing both can return zero.
-/

set_option autoImplicit false
set_option relaxedAutoImplicit false

namespace Libhoth.Examples.HtoolSpi

open Foundation.ByteString Foundation.CellMemory Foundation.CheckedAccess
open Foundation.InteractingProgram Foundation.RecordedRuns Foundation.SpiNorFlash
open Protocol.Status Protocol.HostCommand Protocol.HostCommandProgram Protocol.Console
open Protocol.ForceWrite
open Protocol.SpiProxy Protocol.SpiProxyUpdate Protocol.SpiProxyRead Protocol.SpiProxyChip

/-! ### Calls -/

/-- What the commands ask of the world around them: files, the device behind the calls of the
console, and messages. -/
inductive SpiToolCall
  | libhothDevice
  | openFile (path : String) (writing : Bool)
  | fstat (fd : ℕ)
  | mmap (fd size : ℕ)
  | munmap (size : ℕ)
  | close (fd : ℕ)
  | console (call : ConsoleCall)
  | strerror
  | fprintf (text : String)
  | reportError (cmd : String) (err : LibhothError)
  | progress (completed total : ℕ)

/-- A descriptor, a size or a mapping is missing when its call fails. -/
abbrev SpiToolReply : SpiToolCall → Type
  | .libhothDevice => Bool
  | .openFile _ _ => Option ℕ
  | .fstat _ => Option ℕ
  | .mmap _ size => Option (Vector UInt8 size)
  | .munmap _ => Unit
  | .close _ => Unit
  | .console call => ConsoleReply call
  | .strerror => String
  | .fprintf _ => Unit
  | .reportError _ _ => Unit
  | .progress _ _ => Unit

/-- Programs of the commands. -/
abbrev SpiToolProgram := Interaction SpiToolReply

/-- A program of host commands as part of a command. -/
def onDevice {α : Type} (program : HostProgram α) : SpiToolProgram α :=
  interpret (fun call ↦ request (SpiToolCall.console (.hostcmdExec call))) program

/-- A program of the console as part of a command. -/
def onConsole {α : Type} (program : ConsoleProgram α) : SpiToolProgram α :=
  interpret (fun call ↦ request (SpiToolCall.console call)) program

/-! ### The address mode -/

/-- What `get_address_mode` sets. -/
structure AddressMode where
  is4Byte : Bool
  enter4Byte : Bool

/-- The modes of `get_address_mode`. -/
def addressModeOf (addressMode : String) : Option AddressMode :=
  if addressMode = "3B/4B" then some ⟨true, true⟩
  else if addressMode = "3B" then some ⟨false, false⟩
  else if addressMode = "4B" then some ⟨true, false⟩
  else none

/-- `get_address_mode`. -/
def getAddressMode (addressMode : String) : SpiToolProgram (Option AddressMode) := do
  match addressModeOf addressMode with
  | some mode => return some mode
  | none => do
    request (SpiToolCall.fprintf s!"Invalid address_mode value: {addressMode}\n")
    return none

/-- What `libhoth_spi_proxy_init` prints when the bus is in use. -/
def busErrorText : String :=
  "This is likely because the target device is not in reset, and thus it is not safe to use the " ++
    "SPI bus through a non-SPI transport. Try using 'htool target reset on' to put the target in " ++
    "reset first.\n"

/-- `libhoth_spi_proxy_init` with what it prints. -/
def initProxy (mode : AddressMode) : SpiToolProgram (Except Fault LibhothError) := do
  match ← onDevice (libhothSpiProxyInit mode.enter4Byte) with
  | .error fault => return .error fault
  | .ok status => do
    if libhothErrGetSpace status = BitVec.ofNat 16 HothHostSpace.ec.value ∧
        libhothErrGetCode status = BitVec.ofNat 32 HothStatus.busError.value then do
      request (SpiToolCall.fprintf busErrorText)
      return .ok status
    else return .ok status

/-! ### The update -/

/-- The parameters of `command_spi_update`. -/
structure SpiUpdateArgs where
  start : UInt32
  verify : Bool
  sourceFile : String
  addressMode : String

/-- The label `cleanup2` of `command_spi_update`. -/
def unmapAndClose (fd size : ℕ) (result : ℤ) : SpiToolProgram (Except Fault ℤ) := do
  request (SpiToolCall.munmap size)
  request (SpiToolCall.close fd)
  return .ok result

/-- The end of `command_spi_update` behind a call of the library. -/
def endAfter (fd size : ℕ) (cmd : String) (outcome : Except Fault LibhothError)
    (next : SpiToolProgram (Except Fault ℤ)) : SpiToolProgram (Except Fault ℤ) :=
  match outcome with
  | .error fault => return .error fault
  | .ok err =>
    if err ≠ hothSuccess then do
      request (SpiToolCall.reportError cmd err)
      unmapAndClose fd size (-1)
    else next

/-- The part of `command_spi_update` that verifies. -/
def verifyIfAsked (args : SpiUpdateArgs) (mode : AddressMode) (fd : ℕ) (data : List UInt8) :
    SpiToolProgram (Except Fault ℤ) := do
  if args.verify then do
    let verified ← onDevice (libhothSpiProxyVerify mode.is4Byte args.start data)
    endAfter fd data.length "spi_proxy verify" verified (unmapAndClose fd data.length 0)
  else unmapAndClose fd data.length 0

/-- The part of `command_spi_update` behind the initialization. -/
def updateData (args : SpiUpdateArgs) (mode : AddressMode) (fd : ℕ) (data : List UInt8) :
    SpiToolProgram (Except Fault ℤ) := do
  let updated ← onDevice (libhothSpiProxyUpdate mode.is4Byte args.start data)
  endAfter fd data.length "spi_proxy update" updated (verifyIfAsked args mode fd data)

/-- The bytes behind the mapping of a file. A mapping that failed has none. -/
def mappedBytes {size : ℕ} : Option (Vector UInt8 size) → Except Fault (List UInt8)
  | some bytes => .ok bytes.toList
  | none => if size = 0 then .ok [] else .error .readOutOfBounds

/-- The part of `command_spi_update` behind the mapping of the file. -/
def updateMapped (args : SpiUpdateArgs) (fd size : ℕ) (data : Except Fault (List UInt8)) :
    SpiToolProgram (Except Fault ℤ) := do
  match ← getAddressMode args.addressMode with
  | none => do
    request (SpiToolCall.close fd)
    return .ok (-1)
  | some mode => do
    let initialized ← initProxy mode
    endAfter fd size "spi_proxy init" initialized (match data with
      | .error fault => return .error fault
      | .ok data => updateData args mode fd data)

/-- `command_spi_update`, for its parameters. -/
def commandSpiUpdate (args : SpiUpdateArgs) : SpiToolProgram (Except Fault ℤ) := do
  if ← request SpiToolCall.libhothDevice then do
    match ← request (SpiToolCall.openFile args.sourceFile false) with
    | none => do
      let reason ← request SpiToolCall.strerror
      request (SpiToolCall.fprintf s!"Error opening file {args.sourceFile}: {reason}\n")
      return .ok (-1)
    | some fd => do
      match ← request (SpiToolCall.fstat fd) with
      | none => do
        let reason ← request SpiToolCall.strerror
        request (SpiToolCall.fprintf s!"fstat error: {reason}\n")
        request (SpiToolCall.close fd)
        return .ok (-1)
      | some size => do
        let mapped ← request (SpiToolCall.mmap fd size)
        updateMapped args fd size (mappedBytes mapped)
  else return .ok (-1)

/-! ### The read -/

/-- The parameters of `command_spi_read`. -/
structure SpiReadArgs where
  start : UInt32
  length : UInt32
  destFile : String
  addressMode : String

/-- The size of the buffer of `command_spi_read`. -/
def readBufferSize : ℕ := 65536

/-- The variables of its loop. -/
structure ReadLoop where
  addr : UInt32
  lenRemaining : ℕ

/-- One round of its loop. A buffer has what it had before. -/
def readRound (args : SpiReadArgs) (mode : AddressMode) (fd : ℕ) (state : ReadLoop) :
    SpiToolProgram ({next : ReadLoop // next.lenRemaining < state.lenRemaining} ⊕
      Except Fault ℤ) :=
  if hmore : state.lenRemaining > 0 then do
    let readSize := min state.lenRemaining readBufferSize
    let buf ← request (SpiToolCall.console (.unwritten readSize))
    match ← onDevice (libhothSpiProxyRead mode.is4Byte state.addr buf.toList) with
    | .error fault => return .inr (.error fault)
    | .ok (err, buf) =>
      if err ≠ hothSuccess then do
        request (SpiToolCall.reportError "spi_proxy read" err)
        return .inr (.ok (-1))
      else do
        let status ← onConsole (libhothForceWrite fd buf)
        if status ≠ 0 then return .inr (.ok (-1))
        else do
          let lenRemaining := state.lenRemaining - readSize
          request (SpiToolCall.progress (args.length.toNat - lenRemaining) args.length.toNat)
          return .inl ⟨⟨state.addr + UInt32.ofNat readSize, lenRemaining⟩,
            Nat.sub_lt hmore (Nat.lt_min.mpr ⟨hmore, Nat.zero_lt_succ _⟩)⟩
  else return .inr (.ok 0)

/-- The part of `command_spi_read` behind the opening of the file. -/
def readInto (args : SpiReadArgs) (fd : ℕ) : SpiToolProgram (Except Fault ℤ) := do
  match ← getAddressMode args.addressMode with
  | none => return .ok (-1)
  | some mode => do
    match ← initProxy mode with
    | .error fault => return .error fault
    | .ok err =>
      if err ≠ hothSuccess then do
        request (SpiToolCall.reportError "spi_proxy init" err)
        return .ok (-1)
      else
        whileDecreasing ReadLoop.lenRemaining (readRound args mode fd)
          ⟨args.start, args.length.toNat⟩

/-- `command_spi_read`, for its parameters. -/
def commandSpiRead (args : SpiReadArgs) : SpiToolProgram (Except Fault ℤ) := do
  if ← request SpiToolCall.libhothDevice then do
    match ← request (SpiToolCall.openFile args.destFile true) with
    | none => do
      let reason ← request SpiToolCall.strerror
      request (SpiToolCall.fprintf s!"Error opening file {args.destFile}: {reason}\n")
      return .ok (-1)
    | some fd => do
      match ← readInto args fd with
      | .error fault => return .error fault
      | .ok result => do
        request (SpiToolCall.close fd)
        return .ok result
  else return .ok (-1)

/-! ### The world -/

/-- The chip behind the device, the files, and the file under each descriptor. -/
structure ToolWorld where
  chip : Chip
  files : String → Option (List UInt8)
  opened : ℕ → Option String

/-- A file is open under a descriptor and has some contents. -/
def ToolWorld.Has (world : ToolWorld) (fd : ℕ) (path : String) (contents : List UInt8) : Prop :=
  world.opened fd = some path ∧ world.files path = some contents

/-- A file with other contents. -/
def ToolWorld.setFile (world : ToolWorld) (path : String) (contents : List UInt8) : ToolWorld :=
  { world with files := Function.update world.files path (some contents) }

/-- The world of the commands. Any call may fail, and any part of a buffer may be written. -/
def toolWorld : Environment SpiToolReply ToolWorld := fun before call reply after ↦
  match call, reply with
  | .openFile _ _, none => after = before
  | .openFile path true, some fd =>
    after = { before.setFile path [] with opened := Function.update before.opened fd (some path) }
  | .openFile path false, some fd =>
    (before.files path).isSome ∧
      after = { before with opened := Function.update before.opened fd (some path) }
  | .fstat fd, some size =>
    (∃ path contents, before.Has fd path contents ∧ size = contents.length) ∧ after = before
  | .mmap fd size, some bytes =>
    (∃ path contents, before.Has fd path contents ∧ bytes.toList = contents.take size) ∧
      after = before
  | .close fd, _ => after = { before with opened := Function.update before.opened fd none }
  | .console (.hostcmdExec call), reply =>
    ∃ chip, proxyDevice before.chip call reply chip ∧ after = { before with chip := chip }
  | .console (.write fd buf), .wrote bytesWritten _ _ =>
    ∃ path contents, before.Has fd path contents ∧
      after = before.setFile path (contents ++ buf.take bytesWritten)
  | _, _ => after = before

/-! ### Parts of the commands -/

section Parts

variable {world : ToolWorld}

/-- Host commands act on the chip alone. -/
theorem runs_onDevice_iff {α : Type} (program : HostProgram α) (result : α) (final : ToolWorld) :
    Runs toolWorld (onDevice program) world result final ↔
      ∃ chip, Runs proxyDevice program world.chip result chip ∧
        final = { world with chip := chip } :=
  runs_interpret_part (fun call ↦ SpiToolCall.console (.hostcmdExec call)) toolWorld proxyDevice
    ToolWorld.chip (fun world chip ↦ { world with chip := chip }) (fun _ ↦ rfl) (fun _ _ ↦ rfl)
    (fun _ _ _ ↦ rfl) (fun _ _ _ _ ↦ Iff.rfl) program world final result

theorem onDevice_ensures {α : Type} {program : HostProgram α} {post : α → Chip → Prop}
    (hensures : Ensures proxyDevice program world.chip post) :
    Ensures toolWorld (onDevice program) world fun result final ↦
      ∃ chip, final = { world with chip := chip } ∧ post result chip := by
  intro result final hrun
  obtain ⟨chip, hchip, rfl⟩ := (runs_onDevice_iff _ _ _).mp hrun
  exact ⟨chip, rfl, hensures result chip hchip⟩

theorem onDevice_admits {α : Type} {program : HostProgram α} {meant : α}
    (hadmits : Admits proxyDevice program world.chip fun result _ ↦ result = meant) :
    Admits toolWorld (onDevice program) world fun result _ ↦ result = meant := by
  obtain ⟨result, chip, hrun, hmeant⟩ := hadmits
  exact ⟨result, _, (runs_onDevice_iff _ _ _).mpr ⟨chip, hrun, rfl⟩, hmeant⟩

theorem getAddressMode_ensures (addressMode : String) :
    Ensures toolWorld (getAddressMode addressMode) world fun result final ↦
      result = addressModeOf addressMode ∧ final = world := by
  rw [getAddressMode]
  cases addressModeOf addressMode with
  | some mode => exact (ensures_done _ _ _).mpr ⟨rfl, rfl⟩
  | none =>
    refine (ensures_bind _ _ _ _).mpr ((ensures_request _ _ _).mpr ?_)
    rintro _ _ rfl
    exact (ensures_done _ _ _).mpr ⟨rfl, rfl⟩

/-- A successful initialization enters the four-byte mode when that is asked for. -/
theorem initProxy_ensures (mode : AddressMode) :
    Ensures toolWorld (initProxy mode) world fun result final ↦
      ∃ err chip, result = .ok err ∧ final = { world with chip := chip } ∧
        (err = hothSuccess →
          chip = { world.chip with fourByte := world.chip.fourByte || mode.enter4Byte }) := by
  rw [initProxy, ensures_bind]
  refine (onDevice_ensures (libhothSpiProxyInit_ensures mode.enter4Byte)).mono ?_
  rintro _ _ ⟨chip, rfl, err, rfl, hchip⟩
  dsimp only
  split_ifs
  · refine (ensures_bind _ _ _ _).mpr ((ensures_request _ _ _).mpr ?_)
    rintro _ _ rfl
    exact (ensures_done _ _ _).mpr ⟨err, chip, rfl, rfl, hchip⟩
  · exact (ensures_done _ _ _).mpr ⟨err, chip, rfl, rfl, hchip⟩

/-- The initialization can succeed. -/
theorem initProxy_admits (mode : AddressMode) :
    Admits toolWorld (initProxy mode) world fun result _ ↦ result = .ok hothSuccess := by
  have hspace : libhothErrGetSpace hothSuccess ≠ BitVec.ofNat 16 HothHostSpace.ec.value := by decide
  refine (admits_bind _ _ _ _).mpr
    ((onDevice_admits (libhothSpiProxyInit_admits mode.enter4Byte)).mono ?_)
  rintro _ final rfl
  dsimp only
  rw [if_neg fun hbus ↦ hspace hbus.1]
  exact admits_done rfl

theorem unmapAndClose_admits (fd size : ℕ) (value : ℤ) :
    Admits toolWorld (unmapAndClose fd size value) world fun result _ ↦ result = .ok value :=
  (admits_bind _ _ _ _).mpr (admits_request () (show world = world from rfl)
    ((admits_bind _ _ _ _).mpr (admits_request () rfl (admits_done rfl))))

theorem unmapAndClose_ensures (fd size : ℕ) (value : ℤ) :
    Ensures toolWorld (unmapAndClose fd size value) world fun result final ↦
      result = .ok value ∧ final.chip = world.chip ∧ final.files = world.files := by
  rw [unmapAndClose, ensures_bind, ensures_request]
  rintro _ _ rfl
  refine (ensures_bind _ _ _ _).mpr ((ensures_request _ _ _).mpr ?_)
  rintro _ _ rfl
  exact (ensures_done _ _ _).mpr ⟨rfl, rfl, rfl⟩

/-- A command goes on behind a call of the library that succeeded. -/
theorem endAfter_ensures {fd size : ℕ} {cmd : String} {err : LibhothError}
    {next : SpiToolProgram (Except Fault ℤ)} {meant : ToolWorld → Prop}
    (hnext : err = hothSuccess →
      Ensures toolWorld next world fun result final ↦ result = .ok 0 → meant final) :
    Ensures toolWorld (endAfter fd size cmd (.ok err) next) world fun result final ↦
      result = .ok 0 → meant final := by
  rw [endAfter]
  by_cases herr : err = hothSuccess
  · rw [if_neg (not_not.mpr herr)]
    exact hnext herr
  · rw [if_pos herr]
    refine (ensures_bind _ _ _ _).mpr ((ensures_request _ _ _).mpr ?_)
    rintro _ after -
    refine (unmapAndClose_ensures fd size (-1)).mono fun result final hend ↦ ?_
    rw [hend.1]
    exact fun hzero ↦ absurd (Except.ok.inj hzero) (by decide)

/-- A command goes on behind a call of the library that succeeded. -/
theorem endAfter_admits {fd size : ℕ} {cmd : String} {next : SpiToolProgram (Except Fault ℤ)}
    {post : Except Fault ℤ → ToolWorld → Prop} (hnext : Admits toolWorld next world post) :
    Admits toolWorld (endAfter fd size cmd (.ok hothSuccess) next) world post := by
  rw [endAfter, if_neg (not_not_intro rfl)]
  exact hnext

end Parts

/-! ### The update -/

/-- The chip has the mode of the command once it is initialized. -/
def Suits (mode : AddressMode) (chip : Chip) : Prop :=
  mode.is4Byte = (chip.fourByte || mode.enter4Byte)

/-- The flash below the last block of its address space. -/
def UpdateFits (is4Byte : Bool) (start length : ℕ) : Prop :=
  if is4Byte then start + length ≤ 2 ^ 32 - 65536 else start + length ≤ 2 ^ 24

/-- The data is what an update leaves in its range. -/
theorem load_updatedFlash (start : ℕ) (data : List UInt8) (original : ℕ → UInt8) :
    load (updatedFlash start data original) start data.length = data := by
  refine load_eq_of_getElem? rfl fun index hindex ↦ ?_
  rw [updatedFlash, dif_pos ⟨Nat.le_add_right _ _, by omega⟩, List.getElem?_eq_getElem hindex]
  exact congrArg some (getElem_congr_idx (by omega))

/-- The world behind an update. -/
structure Updated (world : ToolWorld) (is4Byte : Bool) (start : ℕ) (data : List UInt8)
    (final : ToolWorld) : Prop where
  files : final.files = world.files
  mode : final.chip.fourByte = is4Byte
  cells : final.chip.flash.cells = updatedFlash start data world.chip.flash.cells

section Update

variable {args : SpiUpdateArgs} {mode : AddressMode} {world now : ToolWorld} {data : List UInt8}

/-- Verifying leaves the flash. -/
theorem verifyIfAsked_ensures (fd : ℕ) (hmode : now.chip.fourByte = mode.is4Byte)
    (hwidth : args.start.toNat + data.length ≤ 256 ^ addressWidth mode.is4Byte) :
    Ensures toolWorld (verifyIfAsked args mode fd data) now fun result final ↦ result = .ok 0 →
      final.chip = now.chip ∧ final.files = now.files := by
  rw [verifyIfAsked]
  split_ifs
  · rw [← hmode] at hwidth ⊢
    rw [ensures_bind]
    refine (onDevice_ensures (libhothSpiProxyVerify_ensures_chip args.start data hwidth)).mono ?_
    rintro _ _ ⟨chip, rfl, err, rfl, hverified⟩
    refine endAfter_ensures fun herr ↦ ?_
    obtain ⟨rfl, -⟩ := hverified herr
    exact (unmapAndClose_ensures fd data.length 0).mono fun result final hend _ ↦ hend.2
  · exact (unmapAndClose_ensures fd data.length 0).mono fun result final hend _ ↦ hend.2

theorem updateData_ensures (fd : ℕ) (hmode : now.chip.fourByte = mode.is4Byte)
    (hfits : UpdateFits mode.is4Byte args.start.toNat data.length) :
    Ensures toolWorld (updateData args mode fd data) now fun result final ↦ result = .ok 0 →
      Updated now mode.is4Byte args.start.toNat data final := by
  have hwidth := (bounds_of_limit hfits).2
  have hlimit : if now.chip.fourByte then args.start.toNat + data.length ≤ 2 ^ 32 - 65536
      else args.start.toNat + data.length ≤ 2 ^ 24 := by
    rw [hmode]
    exact hfits
  rw [updateData, ensures_bind, ← hmode]
  refine (onDevice_ensures (libhothSpiProxyUpdate_ensures_chip args.start data hlimit)).mono ?_
  rintro _ _ ⟨chip, rfl, err, rfl, hupdated⟩
  refine endAfter_ensures fun herr ↦ ?_
  obtain ⟨hsame, hcells⟩ := hupdated herr
  refine (verifyIfAsked_ensures fd (hsame.trans hmode) hwidth).mono fun result final hend hzero ↦ ?_
  obtain ⟨hchip, hfiles⟩ := hend hzero
  exact ⟨hfiles, hchip ▸ hsame, hchip ▸ hcells⟩

theorem updateMapped_ensures (fd : ℕ) {size : ℕ} {mapped : Except Fault (List UInt8)}
    (hname : addressModeOf args.addressMode = some mode) (hsuits : Suits mode now.chip)
    (hmapped : ∀ bytes, mapped = .ok bytes → bytes = data)
    (hfits : UpdateFits mode.is4Byte args.start.toNat data.length) :
    Ensures toolWorld (updateMapped args fd size mapped) now fun result final ↦
      result = .ok 0 → Updated now mode.is4Byte args.start.toNat data final := by
  rw [updateMapped, ensures_bind]
  refine (getAddressMode_ensures args.addressMode).mono ?_
  rintro _ _ ⟨rfl, rfl⟩
  rw [hname]
  refine (ensures_bind _ _ _ _).mpr ((initProxy_ensures mode).mono ?_)
  rintro _ _ ⟨err, chip, rfl, rfl, hchip⟩
  refine endAfter_ensures fun herr ↦ ?_
  obtain rfl := hchip herr
  cases mapped with
  | error fault => exact (ensures_done _ _ _).mpr nofun
  | ok bytes =>
    obtain rfl := hmapped bytes rfl
    refine (updateData_ensures fd hsuits.symm hfits).mono fun result final hend hzero ↦ ?_
    obtain ⟨hfiles, hmode, hcells⟩ := hend hzero
    exact ⟨hfiles, hmode, hcells⟩

/-- A verification behind the data that was programmed can succeed. -/
theorem verifyIfAsked_admits (fd : ℕ) (hmode : now.chip.fourByte = mode.is4Byte)
    (hwidth : args.start.toNat + data.length ≤ 256 ^ addressWidth mode.is4Byte)
    (hequal : load now.chip.flash.cells args.start.toNat data.length = data) :
    Admits toolWorld (verifyIfAsked args mode fd data) now fun result _ ↦ result = .ok 0 := by
  rw [verifyIfAsked]
  split_ifs
  · rw [← hmode] at hwidth ⊢
    refine (admits_bind _ _ _ _).mpr ((onDevice_admits
      (libhothSpiProxyVerify_admits_chip args.start data hwidth hequal)).mono ?_)
    rintro _ final rfl
    exact endAfter_admits (unmapAndClose_admits fd data.length 0)
  · exact unmapAndClose_admits fd data.length 0

theorem UpdateFits.width {is4Byte : Bool} {start length : ℕ}
    (hfits : UpdateFits is4Byte start length) : start + length ≤ 256 ^ addressWidth is4Byte :=
  (bounds_of_limit hfits).2

theorem updateData_admits (fd : ℕ) (hmode : now.chip.fourByte = mode.is4Byte)
    (hfits : UpdateFits mode.is4Byte args.start.toNat data.length) :
    Admits toolWorld (updateData args mode fd data) now fun result _ ↦ result = .ok 0 := by
  have hlimit : if now.chip.fourByte then args.start.toNat + data.length ≤ 2 ^ 32 - 65536
      else args.start.toNat + data.length ≤ 2 ^ 24 := by
    rw [hmode]
    exact hfits
  rw [updateData, ← hmode]
  refine (admits_bind _ _ _ _).mpr (((onDevice_admits
    (libhothSpiProxyUpdate_admits_chip args.start data hlimit)).and_ensures (onDevice_ensures
      (libhothSpiProxyUpdate_ensures_chip args.start data hlimit))).mono ?_)
  rintro _ _ ⟨rfl, chip, rfl, err, herr, hupdated⟩
  obtain ⟨hsame, hcells⟩ := hupdated (Except.ok.inj herr).symm
  refine endAfter_admits (verifyIfAsked_admits fd (hsame.trans hmode) hfits.width ?_)
  dsimp only
  rw [hcells]
  exact load_updatedFlash args.start.toNat data _

theorem updateMapped_admits (fd : ℕ) {size : ℕ}
    (hname : addressModeOf args.addressMode = some mode) (hsuits : Suits mode now.chip)
    (hfits : UpdateFits mode.is4Byte args.start.toNat data.length) :
    Admits toolWorld (updateMapped args fd size (.ok data)) now fun result _ ↦
      result = .ok 0 := by
  have hmode : getAddressMode args.addressMode = .done (some mode) := by
    rw [getAddressMode, hname]
    rfl
  rw [updateMapped, hmode]
  refine (admits_bind _ _ _ _).mpr (admits_done ?_)
  refine (admits_bind _ _ _ _).mpr (((initProxy_admits mode).and_ensures
    (initProxy_ensures mode)).mono ?_)
  rintro _ _ ⟨rfl, err, chip, herr, rfl, hchip⟩
  obtain rfl := hchip (Except.ok.inj herr).symm
  exact endAfter_admits (updateData_admits fd hsuits.symm hfits)

/-- An update of a file that exists can return zero. -/
theorem commandSpiUpdate_admits (hname : addressModeOf args.addressMode = some mode)
    (hsuits : Suits mode world.chip) (hfile : world.files args.sourceFile = some data)
    (hfits : UpdateFits mode.is4Byte args.start.toNat data.length) :
    Admits toolWorld (commandSpiUpdate args) world fun result _ ↦ result = .ok 0 := by
  have hentry : Function.update world.opened 3 (some args.sourceFile) 3 = some args.sourceFile :=
    Function.update_self _ _ _
  have hopened : ({ world with
      opened := Function.update world.opened 3 (some args.sourceFile) } : ToolWorld).Has 3
        args.sourceFile data := ⟨hentry, hfile⟩
  refine (admits_bind _ _ _ _).mpr (admits_request true rfl ?_)
  rw [if_pos rfl]
  refine (admits_bind _ _ _ _).mpr (admits_request (some 3) ⟨hfile ▸ rfl, rfl⟩ ?_)
  refine (admits_bind _ _ _ _).mpr
    (admits_request (some data.length) ⟨⟨_, _, hopened, rfl⟩, rfl⟩ ?_)
  refine (admits_bind _ _ _ _).mpr (admits_request (some ⟨data.toArray, rfl⟩)
    ⟨⟨_, _, hopened, List.take_length.symm⟩, rfl⟩ ?_)
  exact updateMapped_admits 3 hname hsuits hfits

/-- An update that returns zero leaves the meant flash and all files. -/
theorem commandSpiUpdate_ensures (hname : addressModeOf args.addressMode = some mode)
    (hsuits : Suits mode world.chip) (hfile : world.files args.sourceFile = some data)
    (hfits : UpdateFits mode.is4Byte args.start.toNat data.length) :
    Ensures toolWorld (commandSpiUpdate args) world fun result final ↦ result = .ok 0 →
      Updated world mode.is4Byte args.start.toNat data final := by
  have hfailed : ∀ final : ToolWorld, Ensures toolWorld
      (pure (.ok (-1)) : SpiToolProgram (Except Fault ℤ)) final fun result final ↦
        result = .ok 0 → Updated world mode.is4Byte args.start.toNat data final := by
    intro final
    exact (ensures_done _ _ _).mpr fun hzero ↦ absurd (Except.ok.inj hzero) (by decide)
  rw [commandSpiUpdate, ensures_bind, ensures_request]
  rintro present after hafter
  obtain rfl : world = after := hafter.symm
  cases present with
  | false => exact hfailed _
  | true =>
    rw [if_pos rfl]
    refine (ensures_bind _ _ _ _).mpr ((ensures_request _ _ _).mpr ?_)
    rintro descriptor opened hopened
    cases descriptor with
    | none =>
      refine (ensures_bind _ _ _ _).mpr ((ensures_request _ _ _).mpr fun reason _ _ ↦ ?_)
      exact (ensures_bind _ _ _ _).mpr ((ensures_request _ _ _).mpr fun _ _ _ ↦ hfailed _)
    | some fd =>
      obtain ⟨-, rfl⟩ := hopened
      refine (ensures_bind _ _ _ _).mpr ((ensures_request _ _ _).mpr ?_)
      rintro status now hstatus
      cases status with
      | none =>
        refine (ensures_bind _ _ _ _).mpr ((ensures_request _ _ _).mpr fun reason _ _ ↦ ?_)
        refine (ensures_bind _ _ _ _).mpr ((ensures_request _ _ _).mpr fun _ _ _ ↦ ?_)
        exact (ensures_bind _ _ _ _).mpr ((ensures_request _ _ _).mpr fun _ _ _ ↦ hfailed _)
      | some size =>
        obtain ⟨⟨path, contents, ⟨hpath, hcontents⟩, rfl⟩, rfl⟩ := hstatus
        obtain rfl : args.sourceFile = path := by simpa using hpath
        obtain rfl := Option.some.inj (hfile.symm.trans hcontents)
        refine (ensures_bind _ _ _ _).mpr ((ensures_request _ _ _).mpr ?_)
        rintro mapped later hmapped
        have hbytes : ∀ bytes, mappedBytes mapped = .ok bytes → bytes = data := by
          intro bytes hbytes
          cases mapped with
          | none =>
            rw [mappedBytes] at hbytes
            split_ifs at hbytes with hempty
            rw [← Except.ok.inj hbytes, List.length_eq_zero_iff.mp hempty]
          | some mapping =>
            obtain ⟨⟨path, contents, ⟨hpath, hcontents⟩, hmapping⟩, -⟩ := hmapped
            obtain rfl : args.sourceFile = path := by simpa using hpath
            obtain rfl := Option.some.inj (hfile.symm.trans hcontents)
            rw [← Except.ok.inj hbytes, hmapping, List.take_length]
        have hlater : later.chip = world.chip ∧ later.files = world.files := by
          cases mapped with
          | none =>
            obtain rfl := hmapped
            exact ⟨rfl, rfl⟩
          | some mapping =>
            obtain ⟨-, rfl⟩ := hmapped
            exact ⟨rfl, rfl⟩
        obtain ⟨hchip, hfiles⟩ := hlater
        rw [← hchip] at hsuits
        refine (updateMapped_ensures fd hname hsuits hbytes hfits).mono ?_
        intro result final hend hzero
        obtain ⟨hkept, hmode, hcells⟩ := hend hzero
        exact ⟨hkept.trans hfiles, hmode, hchip ▸ hcells⟩

end Update

/-! ### The read -/

/-- The world of the calls of the console. -/
def consoleWorld : Environment ConsoleReply ToolWorld := fun before call reply after ↦
  toolWorld before (.console call) reply after

theorem ToolWorld.setFile_setFile (world : ToolWorld) (path : String)
    (contents later : List UInt8) :
    (world.setFile path contents).setFile path later = world.setFile path later := by
  rw [setFile, setFile, setFile]
  simp only [Function.update_idem]

theorem ToolWorld.Has.setFile {world : ToolWorld} {fd : ℕ} {path : String}
    {contents : List UInt8} (hhas : world.Has fd path contents) (later : List UInt8) :
    (world.setFile path later).Has fd path later :=
  ⟨hhas.1, Function.update_self _ _ _⟩

theorem ToolWorld.Has.unique {world : ToolWorld} {fd : ℕ} {path other : String}
    {contents found : List UInt8} (hhas : world.Has fd path contents)
    (hother : world.Has fd other found) : other = path ∧ found = contents := by
  obtain rfl := Option.some.inj (hhas.1.symm.trans hother.1)
  exact ⟨rfl, (Option.some.inj (hhas.2.symm.trans hother.2)).symm⟩

/-- Writing a buffer that is written whole appends it to the file. -/
theorem libhothForceWrite_ensures_file {world : ToolWorld} {fd : ℕ} {path : String}
    {contents : List UInt8} (hhas : world.Has fd path contents) (buf : List UInt8) :
    Ensures toolWorld (onConsole (libhothForceWrite fd buf)) world fun errno final ↦
      errno = 0 → final = world.setFile path (contents ++ buf) := by
  intro errno final hrun
  have hpart : Runs toolWorld (onConsole (libhothForceWrite fd buf)) world errno final ↔
      ∃ part, Runs consoleWorld (libhothForceWrite fd buf) world errno part ∧ final = part :=
    runs_interpret_part (fun call ↦ SpiToolCall.console call) toolWorld consoleWorld id
      (fun _ part ↦ part) (fun _ ↦ rfl) (fun _ _ ↦ rfl) (fun _ _ _ ↦ rfl)
      (fun _ _ _ after ↦ ⟨fun h ↦ ⟨after, h, rfl⟩, fun ⟨_, h, hafter⟩ ↦ hafter ▸ h⟩)
      (libhothForceWrite fd buf) world final errno
  obtain ⟨_, hwritten, rfl⟩ := hpart.mp hrun
  have hstart : world.setFile path (contents ++ []) = world := by
    have hsame : Function.update world.files path (some contents) = world.files := by
      rw [← hhas.2, Function.update_eq_self]
    rw [List.append_nil, ToolWorld.setFile, hsame]
  rw [← hstart] at hwritten
  have happends : Ensures consoleWorld (libhothForceWrite fd buf)
      (world.setFile path (contents ++ [])) fun errno final ↦ ∃ part, part <+: buf ∧
        final = world.setFile path (contents ++ part) ∧ (errno = 0 → part = buf) := by
    refine libhothForceWrite_appends (fun done ↦ world.setFile path (contents ++ done)) ?_ ?_
    · rintro done rest count progress fits _ - ⟨other, found, hfound, rfl⟩
      obtain ⟨rfl, rfl⟩ := (hhas.setFile _).unique hfound
      rw [ToolWorld.setFile_setFile, List.append_assoc]
    · rintro done rest errno nonzero _ - rfl
      rfl
  obtain ⟨part, -, rfl, hall⟩ := happends errno final hwritten
  exact fun hzero ↦ hall hzero ▸ rfl

/-- A buffer can be written whole to a file that is open. -/
theorem libhothForceWrite_admits_file {world : ToolWorld} {fd : ℕ} {path : String}
    {contents : List UInt8} (hhas : world.Has fd path contents) (buf : List UInt8) :
    Admits toolWorld (onConsole (libhothForceWrite fd buf)) world fun errno _ ↦ errno = 0 := by
  have hconsole : Admits consoleWorld (libhothForceWrite fd buf) world fun errno _ ↦
      errno = 0 := by
    refine whileDecreasing_admits (fun _ now ↦ ∃ found, now.Has fd path found)
      (fun rest now hnow ↦ ?_) buf world ⟨contents, hhas⟩
    obtain ⟨found, hfound⟩ := hnow
    rw [forceWriteRound]
    split_ifs with hmore
    · exact (admits_bind _ _ _ _).mpr (admits_request (.wrote rest.length hmore le_rfl)
        ⟨path, found, hfound, rfl⟩ (admits_done ⟨_, hfound.setFile _⟩))
    · exact admits_done rfl
  obtain ⟨errno, final, hrun, hzero⟩ := hconsole
  exact ⟨errno, final, (runs_interpret_rename _ _ _ _ _ _).mpr hrun, hzero⟩

section Read

variable {args : SpiReadArgs} {mode : AddressMode} {base now : ToolWorld} {fd : ℕ}
  {state : ReadLoop}

/-- A read part way through: the file has the cells that were read. -/
structure ReadSoFar (args : SpiReadArgs) (base : ToolWorld) (fd : ℕ) (state : ReadLoop)
    (now : ToolWorld) : Prop where
  chip : now.chip = base.chip
  left : state.lenRemaining ≤ args.length.toNat
  addr : state.addr = args.start + UInt32.ofNat (args.length.toNat - state.lenRemaining)
  file : now.Has fd args.destFile (load base.chip.flash.cells args.start.toNat
    (args.length.toNat - state.lenRemaining))

theorem ReadSoFar.toNat_addr (hsofar : ReadSoFar args base fd state now)
    (hmore : state.lenRemaining > 0)
    (hwidth : args.start.toNat + args.length.toNat ≤ 256 ^ addressWidth mode.is4Byte) :
    state.addr.toNat = args.start.toNat + (args.length.toNat - state.lenRemaining) := by
  have hleft := hsofar.left
  have hspace := pow_addressWidth_le mode.is4Byte
  rw [hsofar.addr, toNat_add_ofNat_of_lt (by omega)]

theorem readRound_ensures (hsofar : ReadSoFar args base fd state now)
    (hmode : base.chip.fourByte = mode.is4Byte)
    (hwidth : args.start.toNat + args.length.toNat ≤ 256 ^ addressWidth mode.is4Byte) :
    Ensures toolWorld (readRound args mode fd state) now fun outcome final ↦
      match outcome with
      | .inl next => ReadSoFar args base fd next.val final
      | .inr result => result = .ok 0 → final.chip = base.chip ∧
          final.files args.destFile =
            some (load base.chip.flash.cells args.start.toNat args.length.toNat) := by
  have hleft := hsofar.left
  rw [readRound]
  split_ifs with hmore
  · rw [ensures_bind, ensures_request]
    rintro buf after hafter
    obtain rfl : now = after := hafter.symm
    have haddr := hsofar.toNat_addr hmore hwidth
    have hrange : state.addr.toNat + buf.toList.length ≤ 256 ^ addressWidth now.chip.fourByte := by
      rw [hsofar.chip, hmode, haddr, Vector.length_toList]
      omega
    have hread := libhothSpiProxyRead_ensures_chip state.addr buf.toList hrange
    rw [hsofar.chip, hmode, ← hsofar.chip] at hread
    refine (ensures_bind _ _ _ _).mpr ((onDevice_ensures hread).mono ?_)
    rintro _ _ ⟨chip, rfl, err, read, rfl, hgot⟩
    dsimp only
    split_ifs with herr
    · refine (ensures_bind _ _ _ _).mpr ((ensures_request _ _ _).mpr fun _ _ _ ↦ ?_)
      exact (ensures_done _ _ _).mpr fun hzero ↦ absurd (Except.ok.inj hzero) (by decide)
    · obtain ⟨rfl, rfl⟩ := hgot (not_not.mp herr)
      refine (ensures_bind _ _ _ _).mpr ((libhothForceWrite_ensures_file hsofar.file _).mono ?_)
      intro status final hwritten
      split_ifs with hstatus
      · exact (ensures_done _ _ _).mpr fun hzero ↦ absurd (Except.ok.inj hzero) (by decide)
      · obtain rfl := hwritten (not_not.mp hstatus)
        refine (ensures_bind _ _ _ _).mpr ((ensures_request _ _ _).mpr fun _ after hafter ↦ ?_)
        obtain rfl := hafter
        refine (ensures_done _ _ _).mpr ⟨hsofar.chip, ?_, ?_, ?_⟩
        · exact (Nat.sub_le _ _).trans hleft
        · dsimp only
          rw [hsofar.addr, UInt32.add_assoc, ← UInt32.ofNat_add]
          congr 2
          omega
        · have hsize : args.length.toNat - state.lenRemaining + buf.toList.length =
              args.length.toNat - (state.lenRemaining - min state.lenRemaining readBufferSize) := by
            rw [Vector.length_toList]
            omega
          have hcells : load base.chip.flash.cells args.start.toNat
              (args.length.toNat - state.lenRemaining) ++
                load now.chip.flash.cells state.addr.toNat buf.toList.length =
              load base.chip.flash.cells args.start.toNat (args.length.toNat -
                (state.lenRemaining - min state.lenRemaining readBufferSize)) := by
            rw [hsofar.chip, haddr, ← load_add, hsize]
          rw [hcells]
          exact hsofar.file.setFile _
  · refine (ensures_done _ _ _).mpr fun _ ↦ ⟨hsofar.chip, ?_⟩
    have hfile := hsofar.file.2
    rwa [Nat.eq_zero_of_not_pos hmore, Nat.sub_zero] at hfile

/-- One round can read the next part of the range. -/
theorem readRound_admits (hsofar : ReadSoFar args base fd state now)
    (hmode : base.chip.fourByte = mode.is4Byte)
    (hwidth : args.start.toNat + args.length.toNat ≤ 256 ^ addressWidth mode.is4Byte) :
    Admits toolWorld (readRound args mode fd state) now fun outcome _ ↦
      ∀ result, outcome = .inr result → result = .ok 0 := by
  have hleft := hsofar.left
  rw [readRound]
  split_ifs with hmore
  · have hrange : state.addr.toNat +
        (Vector.replicate (min state.lenRemaining readBufferSize) (0 : UInt8)).toList.length ≤
          256 ^ addressWidth now.chip.fourByte := by
      rw [hsofar.chip, hmode, hsofar.toNat_addr hmore hwidth, Vector.length_toList]
      omega
    have hread := libhothSpiProxyRead_admits_chip state.addr _ hrange
    rw [hsofar.chip, hmode, ← hsofar.chip] at hread
    refine (admits_bind _ _ _ _).mpr
      (admits_request (Vector.replicate _ 0) (show now = now from rfl) ?_)
    have hkept : Ensures toolWorld (onDevice (libhothSpiProxyRead mode.is4Byte state.addr
        (Vector.replicate (min state.lenRemaining readBufferSize) 0).toList)) now
          fun _ final ↦ ∃ chip, final = { now with chip := chip } ∧ True :=
      onDevice_ensures fun _ _ _ ↦ trivial
    refine (admits_bind _ _ _ _).mpr (((onDevice_admits hread).and_ensures hkept).mono ?_)
    rintro _ _ ⟨rfl, chip, rfl, -⟩
    dsimp only
    rw [if_neg (not_not_intro rfl)]
    have hfile : ({ now with chip := chip } : ToolWorld).Has fd args.destFile _ := hsofar.file
    refine (admits_bind _ _ _ _).mpr ((libhothForceWrite_admits_file hfile _).mono ?_)
    rintro _ final rfl
    rw [if_neg (not_not_intro rfl)]
    refine (admits_bind _ _ _ _).mpr (admits_request () (show final = final from rfl) ?_)
    exact admits_done fun result hresult ↦ nomatch hresult
  · refine admits_done fun result hresult ↦ ?_
    exact (Sum.inr.inj hresult).symm

theorem ReadSoFar.initial (hempty : base.Has fd args.destFile []) :
    ReadSoFar args base fd ⟨args.start, args.length.toNat⟩ base where
  chip := rfl
  left := le_rfl
  addr := by
    rw [Nat.sub_self]
    exact (UInt32.add_zero _).symm
  file := by
    rw [Nat.sub_self]
    exact hempty

theorem readLoop_ensures (hmode : base.chip.fourByte = mode.is4Byte)
    (hwidth : args.start.toNat + args.length.toNat ≤ 256 ^ addressWidth mode.is4Byte)
    (hempty : base.Has fd args.destFile []) :
    Ensures toolWorld (whileDecreasing ReadLoop.lenRemaining (readRound args mode fd)
        ⟨args.start, args.length.toNat⟩) base fun result final ↦
      result = .ok 0 → final.chip = base.chip ∧ final.files args.destFile =
        some (load base.chip.flash.cells args.start.toNat args.length.toNat) := by
  refine whileDecreasing_ensures (ReadSoFar args base fd) (fun state later hsofar ↦ ?_) _ _
    (.initial hempty)
  refine (readRound_ensures hsofar hmode hwidth).mono fun outcome final houtcome ↦ ?_
  cases outcome <;> exact houtcome

theorem readLoop_admits (hmode : base.chip.fourByte = mode.is4Byte)
    (hwidth : args.start.toNat + args.length.toNat ≤ 256 ^ addressWidth mode.is4Byte)
    (hempty : base.Has fd args.destFile []) :
    Admits toolWorld (whileDecreasing ReadLoop.lenRemaining (readRound args mode fd)
        ⟨args.start, args.length.toNat⟩) base fun result _ ↦ result = .ok 0 := by
  refine whileDecreasing_admits (ReadSoFar args base fd) (fun state now hsofar ↦ ?_) _ _
    (.initial hempty)
  refine ((readRound_admits hsofar hmode hwidth).and_ensures
    (readRound_ensures hsofar hmode hwidth)).mono ?_
  rintro outcome final ⟨hzero, hround⟩
  cases outcome with
  | inl next => exact hround
  | inr result => exact hzero result rfl

theorem readInto_admits (hname : addressModeOf args.addressMode = some mode)
    (hsuits : Suits mode now.chip)
    (hwidth : args.start.toNat + args.length.toNat ≤ 256 ^ addressWidth mode.is4Byte)
    (hempty : now.Has fd args.destFile []) :
    Admits toolWorld (readInto args fd) now fun result _ ↦ result = .ok 0 := by
  have hmode : getAddressMode args.addressMode = .done (some mode) := by
    rw [getAddressMode, hname]
    rfl
  rw [readInto, hmode]
  refine (admits_bind _ _ _ _).mpr (admits_done ?_)
  refine (admits_bind _ _ _ _).mpr (((initProxy_admits mode).and_ensures
    (initProxy_ensures mode)).mono ?_)
  rintro _ _ ⟨rfl, err, chip, herr, rfl, hchip⟩
  obtain rfl := hchip (Except.ok.inj herr).symm
  dsimp only
  rw [if_neg (not_not_intro rfl)]
  exact readLoop_admits hsuits.symm hwidth hempty

/-- A read can return zero. -/
theorem commandSpiRead_admits {world : ToolWorld}
    (hname : addressModeOf args.addressMode = some mode) (hsuits : Suits mode world.chip)
    (hwidth : args.start.toNat + args.length.toNat ≤ 256 ^ addressWidth mode.is4Byte) :
    Admits toolWorld (commandSpiRead args) world fun result _ ↦ result = .ok 0 := by
  have hentry : Function.update world.opened 4 (some args.destFile) 4 = some args.destFile :=
    Function.update_self _ _ _
  have hempty : ({ world.setFile args.destFile [] with
      opened := Function.update world.opened 4 (some args.destFile) } : ToolWorld).Has 4
        args.destFile [] := ⟨hentry, Function.update_self _ _ _⟩
  refine (admits_bind _ _ _ _).mpr (admits_request true (show world = world from rfl) ?_)
  rw [if_pos rfl]
  refine (admits_bind _ _ _ _).mpr (admits_request (some 4) rfl ?_)
  refine (admits_bind _ _ _ _).mpr (Admits.mono (readInto_admits hname ?_ hwidth hempty) ?_)
  · exact hsuits
  · rintro _ final rfl
    exact (admits_bind _ _ _ _).mpr (admits_request () rfl (admits_done rfl))

theorem readInto_ensures (hname : addressModeOf args.addressMode = some mode)
    (hsuits : Suits mode now.chip)
    (hwidth : args.start.toNat + args.length.toNat ≤ 256 ^ addressWidth mode.is4Byte)
    (hempty : now.Has fd args.destFile []) :
    Ensures toolWorld (readInto args fd) now fun result final ↦ result = .ok 0 →
      final.chip.flash = now.chip.flash ∧ final.files args.destFile =
        some (load now.chip.flash.cells args.start.toNat args.length.toNat) := by
  rw [readInto, ensures_bind]
  refine (getAddressMode_ensures args.addressMode).mono ?_
  rintro _ after ⟨rfl, hafter⟩
  obtain rfl : now = after := hafter.symm
  rw [hname]
  refine (ensures_bind _ _ _ _).mpr ((initProxy_ensures mode).mono ?_)
  rintro _ _ ⟨err, chip, rfl, rfl, hchip⟩
  dsimp only
  split_ifs with herr
  · refine (ensures_bind _ _ _ _).mpr ((ensures_request _ _ _).mpr fun _ _ _ ↦ ?_)
    exact (ensures_done _ _ _).mpr fun hzero ↦ absurd (Except.ok.inj hzero) (by decide)
  · obtain rfl := hchip (not_not.mp herr)
    refine Ensures.mono (readLoop_ensures ?_ hwidth ?_) fun result final hend hzero ↦ ?_
    · exact hsuits.symm
    · exact hempty
    · obtain ⟨hflash, hfile⟩ := hend hzero
      exact ⟨hflash ▸ rfl, hfile⟩

/-- A read that returns zero leaves the flash, and the file has the cells of the range. -/
theorem commandSpiRead_ensures {world : ToolWorld}
    (hname : addressModeOf args.addressMode = some mode) (hsuits : Suits mode world.chip)
    (hwidth : args.start.toNat + args.length.toNat ≤ 256 ^ addressWidth mode.is4Byte) :
    Ensures toolWorld (commandSpiRead args) world fun result final ↦ result = .ok 0 →
      final.chip.flash = world.chip.flash ∧ final.files args.destFile =
        some (load world.chip.flash.cells args.start.toNat args.length.toNat) := by
  rw [commandSpiRead, ensures_bind, ensures_request]
  rintro present after hafter
  obtain rfl : world = after := hafter.symm
  cases present with
  | false => exact (ensures_done _ _ _).mpr fun hzero ↦ absurd (Except.ok.inj hzero) (by decide)
  | true =>
    rw [if_pos rfl]
    refine (ensures_bind _ _ _ _).mpr ((ensures_request _ _ _).mpr ?_)
    rintro descriptor opened hopened
    cases descriptor with
    | none =>
      refine (ensures_bind _ _ _ _).mpr ((ensures_request _ _ _).mpr fun reason _ _ ↦ ?_)
      refine (ensures_bind _ _ _ _).mpr ((ensures_request _ _ _).mpr fun _ _ _ ↦ ?_)
      exact (ensures_done _ _ _).mpr fun hzero ↦ absurd (Except.ok.inj hzero) (by decide)
    | some fd =>
      obtain rfl := hopened
      refine (ensures_bind _ _ _ _).mpr (Ensures.mono (readInto_ensures hname ?_ hwidth
        ⟨Function.update_self _ _ _, Function.update_self _ _ _⟩) fun result now hread ↦ ?_)
      · exact hsuits
      cases result with
      | error fault => exact (ensures_done _ _ _).mpr nofun
      | ok result =>
        refine (ensures_bind _ _ _ _).mpr ((ensures_request _ _ _).mpr fun _ after hafter ↦ ?_)
        obtain rfl := hafter
        exact (ensures_done _ _ _).mpr hread

end Read

/-! ### Both -/

/-- One command after the other. -/
def updateThenRead (update : SpiUpdateArgs) (read : SpiReadArgs) :
    SpiToolProgram (Except Fault ℤ × Except Fault ℤ) := do
  let updated ← commandSpiUpdate update
  let got ← commandSpiRead read
  return (updated, got)

/-- What an update and a read ask for: modes that suit the chip, a file to program, and ranges
inside the address space, below its last block for an update with four address bytes. -/
structure RoundTripSpec (update : SpiUpdateArgs) (read : SpiReadArgs) (world : ToolWorld)
    (updateMode readMode : AddressMode) (data : List UInt8) : Prop where
  updateName : addressModeOf update.addressMode = some updateMode
  readName : addressModeOf read.addressMode = some readMode
  suits : Suits updateMode world.chip
  suitsLater : Suits readMode { world.chip with fourByte := updateMode.is4Byte }
  file : world.files update.sourceFile = some data
  fits : UpdateFits updateMode.is4Byte update.start.toNat data.length
  inside : read.start.toNat + read.length.toNat ≤ 256 ^ addressWidth readMode.is4Byte

/-- What is read behind an update is the flash that it was meant to leave, when both return zero,
and both can. -/
theorem htoolSpi_roundTrip {update : SpiUpdateArgs} {read : SpiReadArgs} {world : ToolWorld}
    {updateMode readMode : AddressMode} {data : List UInt8}
    (hspec : RoundTripSpec update read world updateMode readMode data) :
    (Ensures toolWorld (updateThenRead update read) world fun results final ↦
      results = (.ok 0, .ok 0) → final.files read.destFile =
        some (load (updatedFlash update.start.toNat data world.chip.flash.cells)
          read.start.toNat read.length.toNat)) ∧
    Admits toolWorld (updateThenRead update read) world fun results _ ↦
      results = (.ok 0, .ok 0) := by
  obtain ⟨hupdate, hread, hsuits, hlater, hfile, hfits, hwidth⟩ := hspec
  have hready : ∀ now : ToolWorld, now.chip.fourByte = updateMode.is4Byte →
      Suits readMode now.chip := by
    intro now hmode
    unfold Suits at hlater ⊢
    rw [hmode]
    exact hlater
  have hupdated := commandSpiUpdate_ensures hupdate hsuits hfile hfits
  constructor
  · rw [updateThenRead, ensures_bind]
    refine hupdated.mono fun updated now hupdated ↦ (ensures_bind _ _ _ _).mpr ?_
    intro got final hgot
    refine (ensures_done _ _ _).mpr fun hresults ↦ ?_
    obtain ⟨hzero, hdone⟩ := Prod.mk.inj hresults
    obtain ⟨-, hmode, hcells⟩ := hupdated hzero
    rw [← hcells]
    exact (commandSpiRead_ensures hread (hready now hmode) hwidth got final hgot hdone).2
  · refine (admits_bind _ _ _ _).mpr
      (((commandSpiUpdate_admits hupdate hsuits hfile hfits).and_ensures hupdated).mono ?_)
    rintro _ now ⟨rfl, hupdated⟩
    refine (admits_bind _ _ _ _).mpr
      ((commandSpiRead_admits hread (hready now (hupdated rfl).mode) hwidth).mono ?_)
    rintro _ final rfl
    exact admits_done rfl

/-- A chip in its three-byte mode and a file of one byte. -/
def exampleWorld : ToolWorld :=
  ⟨⟨⟨fun _ ↦ 0, false⟩, false⟩, fun path ↦ if path = "image" then some [0xA5] else none,
    fun _ ↦ none⟩

/-- A byte programmed in the middle of a sector, verified, and read back with its neighbours. -/
theorem htoolSpi_roundTrip_byte :
    Admits toolWorld (updateThenRead ⟨0x1800, true, "image", "3B/4B"⟩
      ⟨0x17FF, 3, "copy", "4B"⟩) exampleWorld fun results final ↦
        results = (.ok 0, .ok 0) ∧ final.files "copy" = some [0xFF, 0xA5, 0xFF] := by
  have hcells : load (updatedFlash (0x1800 : UInt32).toNat [0xA5] fun _ ↦ 0)
      (0x17FF : UInt32).toNat (3 : UInt32).toNat = [0xFF, 0xA5, 0xFF] := by
    simp [load, updatedFlash, List.range_succ]
  have hspec : RoundTripSpec ⟨0x1800, true, "image", "3B/4B"⟩ ⟨0x17FF, 3, "copy", "4B"⟩
      exampleWorld ⟨true, true⟩ ⟨true, false⟩ [0xA5] :=
    ⟨rfl, rfl, rfl, rfl, rfl, (by decide : 0x1800 + 1 ≤ 2 ^ 32 - 65536),
      (by decide : 0x17FF + 3 ≤ 256 ^ 4)⟩
  obtain ⟨hensures, hadmits⟩ := htoolSpi_roundTrip hspec
  refine (hadmits.and_ensures hensures).mono fun results final hboth ↦ ⟨hboth.1, ?_⟩
  exact (hboth.2 hboth.1).trans (congrArg some hcells)

end Libhoth.Examples.HtoolSpi
