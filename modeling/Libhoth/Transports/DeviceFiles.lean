import Libhoth.Foundation.AdvisoryLock
import Libhoth.Foundation.InterleavedClients
import Libhoth.Foundation.OwnedBlocks
import Libhoth.Transports.ClaimDevice
import Libhoth.Transports.MtdDevice
import Libhoth.Transports.MtdListing
import Libhoth.Transports.SpiDevice

/-!
# The device file behind a SPI or MTD transport

`libhoth_spi.c` and `libhoth_mtd.c` open a device file, take an advisory lock on it and keep it open
under a descriptor. A `FileCall` is what they ask of the kernel and of the C library for that, and
`flockClaim`, `flockRelease` and `libhothDeviceClose` are the functions that both transports have.
`claimWithin` is `libhoth_claim_device` on such a device.

A device opened as atomic keeps a request in a block of its own: `Handle.bufferRequest` and
`Handle.sendAndReceive` are its two functions with that block. Nothing frees it but a receive.

`kernelFiles` is the environment of a process among others: its descriptors and locks are part of
one `LockTable`, and its blocks of memory are its own. `ownFiles` is what the process sees of it.
The processes keep apart (`keepsApart_kernelFiles`), and what one sees of the kernel is a step of
`ownFiles` (`ownFiles_of_kernelFiles`).
-/

set_option autoImplicit false
set_option relaxedAutoImplicit false

namespace Libhoth.Transports.DeviceFiles

open Foundation.AdvisoryLock Foundation.InteractingProgram Foundation.InterleavedClients
open Foundation.OwnedBlocks
open Protocol.Status LibhothEc ClaimDevice SpiDevice MtdDevice MtdListing

/-! ### Calls -/

/-- The blocks that opening a device allocates. -/
inductive Block
  | libhothDevice
  | userCtx

/-- What the ioctl requests of `libhoth_spi_open` set. -/
inductive SpiSetting
  | bitsPerWord
  | mode32
  | maxSpeedHz

/-- What `getline` leaves in its buffer: a line, or none, with a buffer or without. -/
inductive LineReply
  | read (buffer : ℕ)
  | ended (buffer : Option ℕ)

/-- The buffer behind a call of `getline`. -/
def LineReply.buffer : LineReply → Option ℕ
  | .read buffer => some buffer
  | .ended buffer => buffer

/-- What the transports ask of the kernel and of the C library, on a device that is open or to be
opened. The block of a request that a SPI device keeps is asked for by `malloc` here. -/
inductive FileCall
  | open (path : List UInt8)
  | fopen (path : List UInt8)
  | getline (buffer : Option ℕ)
  | close (fd : ℕ)
  | flockExclusive (fd : ℕ)
  | flockUnlock (fd : ℕ)
  | ioctl (fd : ℕ) (setting : SpiSetting) (value : UInt32)
  | calloc (block : Block)
  | malloc (size : ℕ)
  | free (address : ℕ)
  | usleep (us : ℕ)
  | fprintf (text : String)
  | spi (fd : ℕ) (call : SpiCall)
  | mtd (fd : ℕ) (call : MtdCall)

/-- A descriptor or a block is missing when the call fails, a stream comes with the lines that can
be read from it, and a lock or a setting is granted or not. -/
abbrev FileReply : FileCall → Type
  | .open _ => Option ℕ
  | .fopen _ => Option (ℕ × List (List UInt8))
  | .getline _ => LineReply
  | .close _ => Unit
  | .flockExclusive _ => Bool
  | .flockUnlock _ => Bool
  | .ioctl _ _ _ => Bool
  | .calloc _ => Option ℕ
  | .malloc _ => Option ℕ
  | .free _ => Unit
  | .usleep _ => Unit
  | .fprintf _ => Unit
  | .spi _ call => SpiReply call
  | .mtd _ call => MtdReply call

/-- Programs that open and use a device file. -/
abbrev FileProgram := Interaction FileReply

/-! ### The functions of both transports -/

/-- What a transport keeps behind `user_ctx`: the SPI device, which may send and receive in one
message, with the address of the request that it keeps, or the address of the MTD mailbox. -/
inductive Context
  | spi (device : LibhothSpiDevice) (atomic : Bool) (buffered : Option ℕ)
    (kept : buffered.isSome = device.bufferedRequest.isSome)
  | mtd (mailboxAddress : UInt32)

/-- The address of the request that a device keeps: `buffered_request`. -/
def Context.buffered : Context → Option ℕ
  | .spi _ _ buffered _ => buffered
  | .mtd _ => none

/-- The SPI device, if it is one. -/
def Context.spiDevice : Context → Option LibhothSpiDevice
  | .spi device _ _ _ => some device
  | .mtd _ => none

/-- An open device: the descriptor, the addresses of the device and of its context, and the
context. -/
structure Handle where
  fd : ℕ
  dev : ℕ
  userCtx : ℕ
  context : Context

/-- `libhoth_spi_claim` and `libhoth_mtd_claim`. -/
def flockClaim (errLibhoth : ℤ → LibhothError) (fd : ℕ) : FileProgram LibhothError := do
  let granted ← request (FileCall.flockExclusive fd)
  if !granted then return errLibhoth (statusInt .interfaceBusy)
  else return hothSuccess

/-- `libhoth_spi_release` and `libhoth_mtd_release`. -/
def flockRelease (errLibhoth : ℤ → LibhothError) (fd : ℕ) : FileProgram LibhothError := do
  let released ← request (FileCall.flockUnlock fd)
  if !released then return errLibhoth (statusInt .fail)
  else return hothSuccess

/-- `libhoth_spi_claim`. -/
def libhothSpiClaim : ℕ → FileProgram LibhothError :=
  flockClaim spiErrLibhoth

/-- `libhoth_mtd_claim`. -/
def libhothMtdClaim : ℕ → FileProgram LibhothError :=
  flockClaim mtdErrLibhoth

/-- `libhoth_spi_release`. -/
def libhothSpiRelease : ℕ → FileProgram LibhothError :=
  flockRelease spiErrLibhoth

/-- `libhoth_mtd_release`. -/
def libhothMtdRelease : ℕ → FileProgram LibhothError :=
  flockRelease mtdErrLibhoth

/-- The claim function of a device. -/
def Handle.claim (handle : Handle) : FileProgram LibhothError :=
  match handle.context with
  | .spi _ _ _ _ => libhothSpiClaim handle.fd
  | .mtd _ => libhothMtdClaim handle.fd

/-- The release function of a device, behind `libhoth_release_device`. -/
def Handle.release (handle : Handle) : FileProgram LibhothError :=
  match handle.context with
  | .spi _ _ _ _ => libhothSpiRelease handle.fd
  | .mtd _ => libhothMtdRelease handle.fd

/-- `libhoth_spi_buffer_request` on a device, which keeps the block of the request. It is no
function of an MTD device. -/
def Handle.bufferRequest (requestData : List UInt8) (handle : Handle) :
    FileProgram (LibhothError × Handle) :=
  match handle.context with
  | .mtd _ => return (initError .invalidParameter, handle)
  | .spi device atomic _ _ =>
    if device.bufferedRequest.isSome then
      return (spiErrLibhoth (statusInt .interfaceBusy), handle)
    else do
      match ← request (FileCall.malloc requestData.length) with
      | none => return (spiErrLibhoth (statusInt .mallocFailed), handle)
      | some address =>
        return (hothSuccess, { handle with
          context := .spi { device with bufferedRequest := some requestData } atomic (some address)
            rfl })

/-- A call of `libhoth_spi.c` on a device, with the block that it asks for. -/
def spiHandler (fd : ℕ) : (call : SpiCall) → FileProgram (SpiReply call)
  | .malloc size => do
    let block ← request (FileCall.malloc size)
    return block.isSome
  | call => request (FileCall.spi fd call)

/-- Without the block it is `libhoth_spi_buffer_request` of the SPI device. -/
theorem bufferRequest_eq (requestData : List UInt8) {handle : Handle} {device : LibhothSpiDevice}
    {atomic : Bool} {buffered : Option ℕ} {kept : buffered.isSome = device.bufferedRequest.isSome}
    (hcontext : handle.context = .spi device atomic buffered kept) :
    ((do
        let (status, changed) ← handle.bufferRequest requestData
        return (status, changed.context.spiDevice)) : FileProgram _) =
      (do
        let (status, left) ← interpret (spiHandler handle.fd)
          (libhothSpiBufferRequest device requestData)
        return (status, some left)) := by
  obtain ⟨fd, dev, userCtx, context⟩ := handle
  change context = _ at hcontext
  subst hcontext
  by_cases hbusy : device.bufferedRequest.isSome = true
  · simp only [Handle.bufferRequest, libhothSpiBufferRequest, if_pos hbusy]
    rfl
  · simp only [Handle.bufferRequest, libhothSpiBufferRequest, if_neg hbusy]
    exact congrArg (Interaction.ask (FileCall.malloc requestData.length))
      (funext fun block ↦ by cases block <;> rfl)

/-- `libhoth_spi_send_and_receive_response` on a device, which frees the block of the request when
it has been sent. It is no function of an MTD device. -/
def Handle.sendAndReceive (response : ℕ → UInt8) (maxResponseSize : ℕ) (actualSize : Option ℕ)
    (handle : Handle) : FileProgram (LibhothError × Handle) :=
  match handle.context with
  | .mtd _ => return (initError .invalidParameter, handle)
  | .spi device atomic buffered _ => do
    let (received, left) ← interpret (fun call ↦ request (FileCall.spi handle.fd call))
      (libhothSpiSendAndReceiveResponse device response maxResponseSize actualSize)
    match buffered with
    | none => return (received.error, handle)
    | some address =>
      if hkept : left.bufferedRequest.isSome then return (received.error, handle)
      else do
        request (FileCall.free address)
        return (received.error, { handle with
          context := .spi left atomic none (Bool.eq_false_iff.mpr hkept).symm })

/-- `libhoth_device_close`, with `libhoth_spi_close` or `libhoth_mtd_close`, which are alike: neither
frees a request that the device keeps. -/
def libhothDeviceClose (handle : Handle) : FileProgram LibhothError := do
  request (FileCall.close handle.fd)
  request (FileCall.free handle.userCtx)
  request (FileCall.free handle.dev)
  return hothSuccess

/-- What `libhoth_claim_device` asks for, with the claim function of a device. -/
def claimHandler (claim : FileProgram LibhothError) :
    (call : ClaimCall Unit) → FileProgram (ClaimReply Unit call)
  | .claim _ => claim
  | .usleep us => request (FileCall.usleep us)
  | .fprintf text => request (FileCall.fprintf text)

/-- `libhoth_claim_device` with a claim function, in as many rounds as it can take. Behind the loop
is the return that the source marks as unreachable. -/
def claimWithin (claim : FileProgram LibhothError) (timeoutUs : UInt32) :
    FileProgram LibhothError := do
  let status ← interpret (claimHandler claim)
    (ClaimDevice.libhothClaimDevice (some ()) timeoutUs (timeoutUs.toNat + 1))
  return status.getD (initError .fail)

/-- The part of the open functions behind `err_out`. -/
def errOut (fd : Option ℕ) (dev userCtx : Option ℕ) : FileProgram Unit := do
  match fd with
  | none => pure ()
  | some fd => request (FileCall.close fd)
  match dev with
  | none => pure ()
  | some dev => request (FileCall.free dev)
  match userCtx with
  | none => pure ()
  | some userCtx => request (FileCall.free userCtx)

/-! ### What a process sees -/

/-- What a process sees of its kernel and of its allocator: its files and its blocks. -/
@[ext] structure OwnFiles (Node : Type) where
  holding : Holding Node
  blocks : Blocks

namespace OwnFiles

variable {Node : Type} (own : OwnFiles Node)

/-- A file is opened under a descriptor. -/
def openAt (fd : ℕ) (node : Node) : OwnFiles Node :=
  { own with holding := own.holding.openAt fd node }

/-- A descriptor is closed. -/
def closeAt (fd : ℕ) : OwnFiles Node :=
  { own with holding := own.holding.closeAt fd }

/-- A descriptor gets the lock. -/
def lockAt (fd : ℕ) : OwnFiles Node :=
  { own with holding := own.holding.lockAt fd }

/-- A descriptor gives up the lock. -/
def unlockAt (fd : ℕ) : OwnFiles Node :=
  { own with holding := own.holding.unlockAt fd }

/-- A block is allocated. -/
def alloc (address : ℕ) : OwnFiles Node :=
  { own with blocks := own.blocks.alloc address }

/-- A block is freed. -/
def free (address : ℕ) : OwnFiles Node :=
  { own with blocks := own.blocks.free address }

/-- A block is there, if it is allocated. -/
def withBlock (block : Option ℕ) : OwnFiles Node :=
  { own with blocks := own.blocks.withBlock block }

/-- A file is closed and two blocks are freed, as far as they are there. -/
def cleanUp (fd dev userCtx : Option ℕ) : OwnFiles Node :=
  let closed := fd.elim own own.closeAt
  let freed := dev.elim closed closed.free
  userCtx.elim freed freed.free

variable {own}

/-- Allocating a block and freeing it changes nothing. -/
theorem free_alloc {address : ℕ} (hfree : address ∉ own.blocks.owned) :
    (own.alloc address).free address = own := by
  ext1
  · rfl
  · exact Blocks.free_alloc hfree

/-- Two blocks may be allocated in either order. -/
theorem alloc_comm (first second : ℕ) :
    (own.alloc first).alloc second = (own.alloc second).alloc first := by
  ext1
  · rfl
  · exact Blocks.alloc_comm first second

/-- Opening a file under a free descriptor and closing it changes nothing. -/
theorem closeAt_openAt (hclean : own.holding.Clean) {fd : ℕ}
    (hfree : own.holding.opened fd = none) (node : Node) :
    (own.openAt fd node).closeAt fd = own := by
  ext1
  · exact hclean.closeAt_openAt hfree node
  · rfl

/-- The lock goes with the descriptor. -/
theorem closeAt_lockAt (fd : ℕ) : (own.lockAt fd).closeAt fd = own.closeAt fd := by
  ext1
  · exact Holding.closeAt_lockAt fd
  · rfl

end OwnFiles

/-- What the paths of a system stand for, and the MTD devices that it lists. -/
structure DeviceTree (Node : Type) where
  inode : List UInt8 → Node
  devices : List MtdEntry

/-- What a call of a process may meet, as far as the process sees. A SPI function that is run alone
gets no block: the one that asks for a block is `Handle.bufferRequest`. -/
def ownFiles {Node : Type} (tree : DeviceTree Node) : Environment FileReply (OwnFiles Node) :=
    fun before call reply after ↦
  match call, reply with
  | .open path, some fd =>
    before.holding.opened fd = none ∧ after = before.openAt fd (tree.inode path)
  | .fopen path, some (fd, lines) =>
    lines = listing tree.devices ∧ before.holding.opened fd = none ∧
      after = before.openAt fd (tree.inode path)
  | .close fd, _ => after = before.closeAt fd
  | .flockExclusive fd, true => after = before.lockAt fd
  | .flockUnlock fd, true => after = before.unlockAt fd
  | .getline buffer, line =>
    ∃ blocks, before.blocks.Moved buffer line.buffer blocks ∧ after = { before with blocks }
  | .calloc _, some address => address ∉ before.blocks.owned ∧ after = before.alloc address
  | .malloc _, some address => address ∉ before.blocks.owned ∧ after = before.alloc address
  | .free address, _ => after = before.free address
  | .open _, none => after = before
  | .fopen _, none => after = before
  | .flockExclusive _, false => after = before
  | .flockUnlock _, false => after = before
  | .calloc _, none => after = before
  | .malloc _, none => after = before
  | .ioctl _ _ _, _ => after = before
  | .usleep _, _ => after = before
  | .fprintf _, _ => after = before
  | .spi _ (.malloc _), allocated => allocated = false ∧ after = before
  | .spi _ _, _ => after = before
  | .mtd _ _, _ => after = before

/-! ### Processes and their kernel -/

section Kernel

variable {Process Node : Type} [DecidableEq Process] [DecidableEq Node]

/-- The files and locks of all processes, and the blocks of each. -/
structure DeviceWorld (Process Node : Type) where
  table : LockTable Process Node
  blocks : Process → Blocks

/-- The blocks of a process change. -/
def DeviceWorld.setBlocks (world : DeviceWorld Process Node) (process : Process) (blocks : Blocks) :
    DeviceWorld Process Node :=
  { world with blocks := Function.update world.blocks process blocks }

/-- What a process sees of the world. -/
def ownView (process : Process) (world : DeviceWorld Process Node) : OwnFiles Node :=
  ⟨world.table.holding process, world.blocks process⟩

omit [DecidableEq Node] in
theorem ownView_setBlocks_self (process : Process) (world : DeviceWorld Process Node)
    (blocks : Blocks) :
    ownView process (world.setBlocks process blocks) = { ownView process world with blocks } :=
  OwnFiles.ext rfl (Function.update_self _ _ _)

omit [DecidableEq Node] in
theorem ownView_setBlocks_of_ne {process other : Process} (hother : process ≠ other)
    (world : DeviceWorld Process Node) (blocks : Blocks) :
    ownView process (world.setBlocks other blocks) = ownView process world :=
  OwnFiles.ext rfl (Function.update_of_ne hother _ _)

variable (tree : DeviceTree Node)

/-- What a call of a process may meet, and what it does to the world. Any call may fail, and a lock
is granted only when no other descriptor has it. -/
def kernelFiles (process : Process) : Environment FileReply (DeviceWorld Process Node) :=
    fun before call reply after ↦
  match call, reply with
  | .open path, some fd =>
    ∃ hfree : before.table.opened process fd = none,
      after = { before with table := before.table.openAt process fd (tree.inode path) hfree }
  | .fopen path, some (fd, lines) =>
    lines = listing tree.devices ∧ ∃ hfree : before.table.opened process fd = none,
      after = { before with table := before.table.openAt process fd (tree.inode path) hfree }
  | .close fd, _ => after = { before with table := before.table.closeAt process fd }
  | .flockExclusive fd, true =>
    ∃ (node : Node) (hopened : before.table.opened process fd = some node),
      (before.table.owner node = none ∨ before.table.owner node = some (process, fd)) ∧
        after = { before with table := before.table.lockAt process fd node hopened }
  | .flockUnlock fd, true => after = { before with table := before.table.unlockAt process fd }
  | .getline buffer, line =>
    ∃ blocks, (before.blocks process).Moved buffer line.buffer blocks ∧
      after = before.setBlocks process blocks
  | .calloc _, some address =>
    address ∉ (before.blocks process).owned ∧
      after = before.setBlocks process ((before.blocks process).alloc address)
  | .malloc _, some address =>
    address ∉ (before.blocks process).owned ∧
      after = before.setBlocks process ((before.blocks process).alloc address)
  | .free address, _ =>
    after = before.setBlocks process ((before.blocks process).free address)
  | .open _, none => after = before
  | .fopen _, none => after = before
  | .flockExclusive _, false => after = before
  | .flockUnlock _, false => after = before
  | .calloc _, none => after = before
  | .malloc _, none => after = before
  | .ioctl _ _ _, _ => after = before
  | .usleep _, _ => after = before
  | .fprintf _, _ => after = before
  | .spi _ (.malloc _), allocated => allocated = false ∧ after = before
  | .spi _ _, _ => after = before
  | .mtd _ _, _ => after = before

/-- What a process does leaves what the others see alone. -/
theorem keepsApart_kernelFiles :
    KeepsApart (kernelFiles tree : Process → Environment FileReply (DeviceWorld Process Node))
      ownView := by
  intro process other hother start call reply final hstep
  cases call with
  | «open» path =>
    cases reply with
    | none =>
      obtain rfl := hstep
      rfl
    | some fd =>
      obtain ⟨hfree, rfl⟩ := hstep
      simp only [ownView, LockTable.holding_openAt_of_ne hother]
  | fopen path =>
    cases reply with
    | none =>
      obtain rfl := hstep
      rfl
    | some stream =>
      obtain ⟨-, hfree, rfl⟩ := hstep
      simp only [ownView, LockTable.holding_openAt_of_ne hother]
  | close fd =>
    obtain rfl := hstep
    simp only [ownView, LockTable.holding_closeAt_of_ne hother]
  | flockExclusive fd =>
    cases reply with
    | false =>
      obtain rfl := hstep
      rfl
    | true =>
      obtain ⟨node, hopened, hfree, rfl⟩ := hstep
      simp only [ownView, LockTable.holding_lockAt_of_ne hother hopened hfree]
  | flockUnlock fd =>
    cases reply with
    | false =>
      obtain rfl := hstep
      rfl
    | true =>
      obtain rfl := hstep
      simp only [ownView, LockTable.holding_unlockAt_of_ne hother]
  | getline buffer =>
    obtain ⟨blocks, -, rfl⟩ := hstep
    exact ownView_setBlocks_of_ne hother start blocks
  | calloc _ | malloc _ =>
    cases reply with
    | none =>
      obtain rfl := hstep
      rfl
    | some address =>
      obtain ⟨-, rfl⟩ := hstep
      exact ownView_setBlocks_of_ne hother start _
  | free address =>
    obtain rfl := hstep
    exact ownView_setBlocks_of_ne hother start _
  | spi fd call =>
    cases call with
    | malloc size =>
      obtain ⟨-, rfl⟩ := hstep
      rfl
    | message _ | statusMessage _ | getMonotonicMs | usleep _ =>
      obtain rfl := hstep
      rfl
  | ioctl _ _ _ | usleep _ | fprintf _ | mtd _ _ =>
    obtain rfl := hstep
    rfl

/-- What a process does is a step of what it sees. -/
theorem ownFiles_of_kernelFiles (process : Process) (before after : OwnFiles Node)
    (call : FileCall) (reply : FileReply call)
    (hstep : localEnvironment (kernelFiles tree) ownView process before call reply after) :
    ownFiles tree before call reply after := by
  obtain ⟨start, final, rfl, rfl, hstep⟩ := hstep
  cases call with
  | «open» path =>
    cases reply with
    | none => exact congrArg (ownView process) hstep
    | some fd =>
      obtain ⟨hfree, rfl⟩ := hstep
      exact ⟨hfree, by simp only [ownView, LockTable.holding_openAt_self, OwnFiles.openAt]⟩
  | fopen path =>
    cases reply with
    | none => exact congrArg (ownView process) hstep
    | some stream =>
      obtain ⟨hlines, hfree, rfl⟩ := hstep
      exact ⟨hlines, hfree, by simp only [ownView, LockTable.holding_openAt_self, OwnFiles.openAt]⟩
  | close fd =>
    obtain rfl := hstep
    simp only [ownFiles, ownView, LockTable.holding_closeAt_self, OwnFiles.closeAt]
  | flockExclusive fd =>
    cases reply with
    | false => exact congrArg (ownView process) hstep
    | true =>
      obtain ⟨node, hopened, hfree, rfl⟩ := hstep
      simp only [ownFiles, ownView, LockTable.holding_lockAt_self hopened hfree, OwnFiles.lockAt]
  | flockUnlock fd =>
    cases reply with
    | false => exact congrArg (ownView process) hstep
    | true =>
      obtain rfl := hstep
      simp only [ownFiles, ownView, LockTable.holding_unlockAt_self, OwnFiles.unlockAt]
  | getline buffer =>
    obtain ⟨blocks, hmoved, rfl⟩ := hstep
    exact ⟨blocks, hmoved, ownView_setBlocks_self process start blocks⟩
  | calloc _ | malloc _ =>
    cases reply with
    | none => exact congrArg (ownView process) hstep
    | some address =>
      obtain ⟨hfree, rfl⟩ := hstep
      exact ⟨hfree, ownView_setBlocks_self process start _⟩
  | free address =>
    obtain rfl := hstep
    exact ownView_setBlocks_self process start _
  | spi fd call =>
    cases call with
    | malloc size => exact ⟨hstep.1, congrArg (ownView process) hstep.2⟩
    | message _ | statusMessage _ | getMonotonicMs | usleep _ =>
      exact congrArg (ownView process) hstep
  | ioctl _ _ _ | usleep _ | fprintf _ | mtd _ _ =>
    exact congrArg (ownView process) hstep

end Kernel

/-! ### What the functions of both transports do -/

section Contracts

variable {Node : Type} (tree : DeviceTree Node) (start : OwnFiles Node) (fd : ℕ)

/-- A claim takes the lock, or changes nothing and says that the interface is busy. -/
theorem flockClaim_ensures (errLibhoth : ℤ → LibhothError) :
    Ensures (ownFiles tree) (flockClaim errLibhoth fd) start fun status final ↦
      (status = hothSuccess ∧ final = start.lockAt fd) ∨
        (status = errLibhoth (statusInt .interfaceBusy) ∧ final = start) := by
  rw [flockClaim, ensures_bind, ensures_request]
  intro granted final hstep
  cases granted with
  | true => exact (ensures_done _ _ _).mpr (.inl ⟨rfl, hstep⟩)
  | false => exact (ensures_done _ _ _).mpr (.inr ⟨rfl, hstep⟩)

/-- A release gives up the lock, or fails and changes nothing. -/
theorem flockRelease_ensures (errLibhoth : ℤ → LibhothError) :
    Ensures (ownFiles tree) (flockRelease errLibhoth fd) start fun status final ↦
      (status = hothSuccess ∧ final = start.unlockAt fd) ∨
        (status = errLibhoth (statusInt .fail) ∧ final = start) := by
  rw [flockRelease, ensures_bind, ensures_request]
  intro released final hstep
  cases released with
  | true => exact (ensures_done _ _ _).mpr (.inl ⟨rfl, hstep⟩)
  | false => exact (ensures_done _ _ _).mpr (.inr ⟨rfl, hstep⟩)

/-- One round of `libhoth_claim_device` with a claim function that takes the lock or changes
nothing. -/
theorem claimDeviceRound_ensures {claim : FileProgram LibhothError} {start claimed : OwnFiles Node}
    (hclaim : Ensures (ownFiles tree) claim start fun status final ↦
      (status = hothSuccess ∧ final = claimed) ∨ (status ≠ hothSuccess ∧ final = start))
    (timeoutUs : UInt32) (wait : UsbDevice.ClaimWait) :
    Ensures (ownFiles tree)
      (interpret (claimHandler claim) (ClaimDevice.claimDeviceRound () timeoutUs wait)) start
      fun outcome final ↦
        match outcome with
        | .inl _ => final = start
        | .inr status => (status = hothSuccess ∧ final = claimed) ∨
            (status ≠ hothSuccess ∧ final = start) := by
  rw [ClaimDevice.claimDeviceRound, interpret_bind, interpret_request, ensures_bind]
  refine hclaim.mono fun status middle hmiddle ↦ ?_
  split_ifs with hsuccess hbusy htimeout
  · obtain ⟨-, rfl⟩ | ⟨hfailed, -⟩ := hmiddle
    · exact (ensures_done _ _ _).mpr (.inl ⟨rfl, rfl⟩)
    · exact absurd hsuccess hfailed
  · exact (ensures_done _ _ _).mpr hmiddle
  · obtain ⟨hsuccess', -⟩ | ⟨-, rfl⟩ := hmiddle
    · exact absurd hsuccess' hsuccess
    · rw [interpret_bind, interpret_request, ensures_bind]
      refine (ensures_request _ _ _).mpr ?_
      rintro _ _ rfl
      exact (ensures_done _ _ _).mpr
        (.inr ⟨libhothErrConstruct_ne_success (by decide) _ _, rfl⟩)
  · obtain ⟨hsuccess', -⟩ | ⟨-, rfl⟩ := hmiddle
    · exact absurd hsuccess' hsuccess
    · rw [interpret_bind, interpret_request, ensures_bind]
      refine (ensures_request _ _ _).mpr ?_
      rintro _ _ rfl
      exact (ensures_done _ _ _).mpr rfl

/-- `libhoth_claim_device` takes the lock or changes nothing, as the claim function does. -/
theorem claimWithin_ensures {claim : FileProgram LibhothError} {start claimed : OwnFiles Node}
    (hclaim : Ensures (ownFiles tree) claim start fun status final ↦
      (status = hothSuccess ∧ final = claimed) ∨ (status ≠ hothSuccess ∧ final = start))
    (timeoutUs : UInt32) :
    Ensures (ownFiles tree) (claimWithin claim timeoutUs) start fun status final ↦
      (status = hothSuccess ∧ final = claimed) ∨ (status ≠ hothSuccess ∧ final = start) := by
  have hloop : ∀ rounds, Ensures (ownFiles tree)
      (whileRounds (fun wait ↦ interpret (claimHandler claim)
        (ClaimDevice.claimDeviceRound () timeoutUs wait)) rounds ClaimDevice.initialWait) start
      fun outcome final ↦ (∀ status, outcome = some status →
          (status = hothSuccess ∧ final = claimed) ∨ (status ≠ hothSuccess ∧ final = start)) ∧
        (outcome = none → ∃ _ : UsbDevice.ClaimWait, final = start) := by
    intro rounds
    refine whileRounds_ensures (fun _ state ↦ state = start) ?_ rounds _ _ rfl
    rintro wait _ rfl
    refine (claimDeviceRound_ensures tree hclaim timeoutUs wait).mono fun outcome _ hround ↦ ?_
    cases outcome <;> exact hround
  rw [claimWithin, ensures_bind, ClaimDevice.libhothClaimDevice, interpret_whileRounds]
  refine (hloop _).mono fun outcome final houtcome ↦ (ensures_done _ _ _).mpr ?_
  cases outcome with
  | none =>
    obtain ⟨_, hfinal⟩ := houtcome.2 rfl
    exact .inr ⟨libhothErrConstruct_ne_success (by decide) _ _, hfinal⟩
  | some status => exact houtcome.1 status rfl

/-- Behind `err_out` the file is closed and the blocks are freed. -/
theorem errOut_ensures (fd dev userCtx : Option ℕ) :
    Ensures (ownFiles tree) (errOut fd dev userCtx) start fun _ final ↦
      final = start.cleanUp fd dev userCtx := by
  cases fd <;> cases dev <;> cases userCtx <;> simp [errOut, ownFiles, OwnFiles.cleanUp]

end Contracts

end Libhoth.Transports.DeviceFiles
