import Libhoth.Transports.DeviceOpen
import Mathlib.Data.Finset.Card

/-!
# Clients of one SPI or MTD device

Any number of processes open, claim, use, release and close devices, and the kernel interleaves what
they ask of it. A process keeps the handle of at most one device, and whether the last that it heard
of the lock is that it has it (`ClientMemory`). `deviceRoutine` is what a process can do between two
calls of the library. A transfer may ask anything of the device, and a SPI device may also keep a
request and send it later.

Between two calls the files, locks and blocks of a process are what its memory says (`Fits`), with
what the code never gives back beside them: the stream and the buffer of a listing behind an open by
name, and the request that a device kept when it was closed. From this follow the two results on
everything that the system can come to: no two processes that have been told that they hold the lock
are at work on one device (`guards_exclusive`), and a process has nothing else, and never freed a
block that it had not (`resources_exact`).
-/

set_option autoImplicit false
set_option relaxedAutoImplicit false

namespace Libhoth.Transports.DeviceLocking

open Foundation.AdvisoryLock Foundation.CheckedAccess Foundation.InteractingProgram
open Foundation.InterleavedClients Foundation.OwnedBlocks
open Protocol.Status ClaimDevice SpiDevice MtdDevice DeviceFiles DeviceOpen

/-! ### What a process does -/

/-- What a process does with its device. A transfer is whatever the functions of the transport ask
of the device, for the context that is in the handle. The last two are the functions of a SPI device
that keeps its requests. -/
inductive DeviceOperation
  | openSpi (options : LibhothSpiDeviceInitOptions)
  | openMtd (options : LibhothMtdDeviceInitOptions)
  | claimDevice (timeoutUs : UInt32)
  | claim
  | release
  | close
  | transfer (overSpi : LibhothSpiDevice → SpiProgram LibhothError)
    (overMtd : UInt32 → MtdProgram LibhothError)
  | bufferRequest (requestData : List UInt8)
  | sendAndReceive (response : ℕ → UInt8) (maxResponseSize : ℕ) (actualSize : Option ℕ)

/-- The operations that are at work on the device. -/
def DeviceOperation.isTransfer : DeviceOperation → Bool
  | .transfer _ _ | .bufferRequest _ | .sendAndReceive _ _ _ => true
  | _ => false

/-- What a process keeps between two calls: the handle of its device, whether it has heard that it
has the lock, how often it has opened a device by name, and how often it has closed a device that
kept a request. -/
structure ClientMemory where
  handle : Option Handle
  locked : Bool
  namedOpens : ℕ
  keptRequests : ℕ

/-- The result of a call: a status, and a device when one is opened. -/
abbrev DeviceResult := Except Fault (LibhothError × Option Handle)

/-- A function of a device, which is refused when the device is null. -/
def onDevice (memory : ClientMemory) (call : Handle → FileProgram LibhothError) :
    FileProgram DeviceResult := do
  match memory.handle with
  | none => return .ok (initError .invalidParameter, none)
  | some handle => do
    let status ← call handle
    return .ok (status, none)

/-- A function of a device that changes its context. -/
def onContext (memory : ClientMemory) (call : Handle → FileProgram (LibhothError × Handle)) :
    FileProgram DeviceResult := do
  match memory.handle with
  | none => return .ok (initError .invalidParameter, none)
  | some handle => do
    let (status, handle) ← call handle
    return .ok (status, some handle)

/-- A transfer over the transport of a device. -/
def transferOver (overSpi : LibhothSpiDevice → SpiProgram LibhothError)
    (overMtd : UInt32 → MtdProgram LibhothError) (handle : Handle) : FileProgram LibhothError :=
  match handle.context with
  | .spi device _ _ _ =>
    interpret (fun call ↦ request (FileCall.spi handle.fd call)) (overSpi device)
  | .mtd mailbox => interpret (fun call ↦ request (FileCall.mtd handle.fd call)) (overMtd mailbox)

/-- The program of an operation. -/
def operationProgram (memory : ClientMemory) : DeviceOperation → FileProgram DeviceResult
  | .openSpi options => do
    let opened ← libhothSpiOpen options
    return .ok opened
  | .openMtd options => libhothMtdOpen options
  | .claimDevice timeoutUs => onDevice memory fun handle ↦ claimWithin handle.claim timeoutUs
  | .claim => onDevice memory Handle.claim
  | .release => onDevice memory Handle.release
  | .close => onDevice memory libhothDeviceClose
  | .transfer overSpi overMtd => onDevice memory (transferOver overSpi overMtd)
  | .bufferRequest requestData => onContext memory (Handle.bufferRequest requestData)
  | .sendAndReceive response maxResponseSize actualSize =>
    onContext memory (Handle.sendAndReceive response maxResponseSize actualSize)

/-- The memory after an open, which fails without a device. -/
def ClientMemory.opened (memory : ClientMemory) : DeviceResult → ClientMemory
  | .ok (_, some handle) => { memory with handle := some handle, locked := true }
  | _ => memory

/-- The memory after a call that has the lock taken or given up when it succeeds. -/
def ClientMemory.heard (memory : ClientMemory) (locked : Bool) : DeviceResult → ClientMemory
  | .ok (status, _) => if status = hothSuccess then { memory with locked := locked } else memory
  | .error _ => memory

/-- The memory after a call that may have changed the context of the device. -/
def ClientMemory.changed (memory : ClientMemory) : DeviceResult → ClientMemory
  | .ok (_, some handle) => { memory with handle := some handle }
  | _ => memory

/-- The memory after a close, which leaves a request that the device kept. -/
def ClientMemory.closed (memory : ClientMemory) : ClientMemory where
  handle := none
  locked := false
  namedOpens := memory.namedOpens
  keptRequests := memory.keptRequests +
    if (memory.handle.bind (·.context.buffered)).isSome then 1 else 0

/-- What an operation leaves in the memory. -/
def memoryAfter (memory : ClientMemory) : DeviceOperation → DeviceResult → ClientMemory
  | .openSpi _, result => memory.opened result
  | .openMtd options, result =>
    { memory.opened result with
      namedOpens := memory.namedOpens + if options.path = [] then 1 else 0 }
  | .claimDevice _, result => memory.heard true result
  | .claim, result => memory.heard true result
  | .release, result => memory.heard false result
  | .close, _ => memory.closed
  | .transfer _ _, _ => memory
  | .bufferRequest _, result => memory.changed result
  | .sendAndReceive _ _ _, result => memory.changed result

/-- A device is opened when there is none yet, so that no handle is lost, and the functions of a SPI
device are for a SPI device. -/
def operationAdmitted (memory : ClientMemory) : DeviceOperation → Prop
  | .openSpi _ => memory.handle = none
  | .openMtd _ => memory.handle = none
  | .bufferRequest _ => ∀ handle ∈ memory.handle, handle.context.spiDevice.isSome
  | .sendAndReceive _ _ _ => ∀ handle ∈ memory.handle, handle.context.spiDevice.isSome
  | _ => True

/-- What every process runs. -/
def deviceRoutine : Routine FileReply ClientMemory DeviceOperation DeviceResult where
  admits := operationAdmitted
  program := operationProgram
  after := memoryAfter

/-! ### What a memory says of the files -/

section Files

variable {Node : Type} (tree : DeviceTree Node)

/-- A process with nothing but what the code never gives back: the streams of some listings, and
some blocks. -/
def leftOnly (streams left : Finset ℕ) : OwnFiles Node :=
  ⟨⟨fun fd ↦ if fd ∈ streams then some (tree.inode procMtd) else none, fun _ ↦ False⟩,
    ⟨left, false⟩⟩

/-- The blocks of a device beside others: its two structures, and the request that it keeps. -/
def deviceBlocks (blocks : Blocks) (handle : Handle) : Blocks :=
  ((blocks.alloc handle.dev).alloc handle.userCtx).withBlock handle.context.buffered

/-- A process with a device beside other things. -/
def withDevice (base : OwnFiles Node) (node : Node) (handle : Handle) (locked : Bool) :
    OwnFiles Node where
  holding := if locked then (base.holding.openAt handle.fd node).lockAt handle.fd
    else base.holding.openAt handle.fd node
  blocks := deviceBlocks base.blocks handle

/-- The blocks of a device are different from each other and from what is beside them. -/
structure Apart (left : Finset ℕ) (handle : Handle) : Prop where
  dev : handle.dev ∉ left
  userCtx : handle.userCtx ∉ insert handle.dev left
  buffered : ∀ address ∈ handle.context.buffered,
    address ∉ insert handle.userCtx (insert handle.dev left)

/-- What is never given back: at most a stream and a block for each open by name, and a block for
each close of a device that kept a request. -/
structure Counted (memory : ClientMemory) (streams left : Finset ℕ) : Prop where
  streams : streams.card ≤ memory.namedOpens
  left : left.card ≤ memory.namedOpens + memory.keptRequests

/-- The files, locks and blocks of a process are what its memory says. -/
inductive Fits (memory : ClientMemory) : OwnFiles Node → Prop
  | closed (streams left : Finset ℕ) (hcounted : Counted memory streams left)
    (hhandle : memory.handle = none) (hlocked : memory.locked = false) :
    Fits memory (leftOnly tree streams left)
  | opened (streams left : Finset ℕ) (hcounted : Counted memory streams left) (node : Node)
    (handle : Handle) (locked : Bool) (hhandle : memory.handle = some handle)
    (hlocked : memory.locked = locked) (hfd : handle.fd ∉ streams) (hapart : Apart left handle) :
    Fits memory (withDevice (leftOnly tree streams left) node handle locked)

variable {tree}

theorem clean_leftOnly (streams left : Finset ℕ) :
    (leftOnly tree streams left).holding.Clean :=
  fun _ _ hholds ↦ hholds

theorem opened_leftOnly {streams left : Finset ℕ} {fd : ℕ} :
    (leftOnly tree streams left).holding.opened fd = none ↔ fd ∉ streams := by
  simp [leftOnly]

/-- One more listing, with its buffer if it has one. -/
theorem leftOnly_listed (streams left : Finset ℕ) (stream : ℕ) (line : Option ℕ) :
    ((leftOnly tree streams left).openAt stream (tree.inode procMtd)).withBlock line =
      leftOnly tree (insert stream streams) (line.elim left (insert · left)) := by
  ext1
  · ext : 1
    · funext descriptor
      rcases eq_or_ne descriptor stream with rfl | hother
      · simp [leftOnly, OwnFiles.withBlock, OwnFiles.openAt, Holding.openAt]
      · simp [leftOnly, OwnFiles.withBlock, OwnFiles.openAt, Holding.openAt, hother]
    · rfl
  · cases line <;> rfl

theorem leftOnly_withBlock (streams left : Finset ℕ) (block : Option ℕ) :
    (leftOnly tree streams left).withBlock block =
      leftOnly tree streams (block.elim left (insert · left)) := by
  cases block <;> rfl

/-- A block that may be there is at most one more. -/
theorem card_elim_insert_le (left : Finset ℕ) (block : Option ℕ) :
    (block.elim left (insert · left)).card ≤ left.card + if block.isSome then 1 else 0 := by
  cases block with
  | none => exact le_rfl
  | some address => exact Finset.card_insert_le address left

section Device

variable {base : OwnFiles Node} {node : Node} {handle : Handle}

/-- Taking the lock, again or not. -/
theorem lockAt_withDevice (locked : Bool) :
    (withDevice base node handle locked).lockAt handle.fd = withDevice base node handle true := by
  cases locked with
  | false => rfl
  | true => simp [withDevice, OwnFiles.lockAt, Holding.lockAt, Function.update_idem]

/-- Giving up the lock, if it is there. -/
theorem unlockAt_withDevice (hholds : ¬base.holding.holds handle.fd) (locked : Bool) :
    (withDevice base node handle locked).unlockAt handle.fd =
      withDevice base node handle false := by
  have hfalse : Function.update base.holding.holds handle.fd False = base.holding.holds := by
    simp [← eq_false hholds]
  cases locked with
  | false => simp [withDevice, OwnFiles.unlockAt, Holding.unlockAt, Holding.openAt, hfalse]
  | true =>
    simp [withDevice, OwnFiles.unlockAt, Holding.unlockAt, Holding.lockAt, Holding.openAt,
      Function.update_idem, hfalse]

/-- Freeing the two structures of a device leaves the request that it keeps. -/
theorem free_deviceBlocks {left : Finset ℕ} (hapart : Apart left handle) :
    ((deviceBlocks ⟨left, false⟩ handle).free handle.userCtx).free handle.dev =
      (⟨left, false⟩ : Blocks).withBlock handle.context.buffered := by
  have huserCtx : ∀ address ∈ handle.context.buffered, address ≠ handle.userCtx := by
    rintro address haddress rfl
    exact hapart.buffered _ haddress (Finset.mem_insert_self _ _)
  have hdev : ∀ address ∈ handle.context.buffered, address ≠ handle.dev := by
    rintro address haddress rfl
    exact hapart.buffered _ haddress (Finset.mem_insert_of_mem (Finset.mem_insert_self _ _))
  rw [deviceBlocks, Blocks.free_withBlock_of_ne huserCtx, Blocks.free_alloc hapart.userCtx,
    Blocks.free_withBlock_of_ne hdev, Blocks.free_alloc hapart.dev]

/-- Closing the device leaves what is beside it, and a request that it kept. -/
theorem closed_withDevice {streams left : Finset ℕ} (hfd : handle.fd ∉ streams)
    (hapart : Apart left handle) (locked : Bool) :
    (((withDevice (leftOnly tree streams left) node handle locked).closeAt handle.fd).free
        handle.userCtx).free handle.dev =
      (leftOnly tree streams left).withBlock handle.context.buffered := by
  have hclosed : ((leftOnly tree streams left).holding.openAt handle.fd node).closeAt handle.fd =
      (leftOnly tree streams left).holding :=
    (clean_leftOnly streams left).closeAt_openAt (opened_leftOnly.mpr hfd) node
  ext1
  · cases locked with
    | false => exact hclosed
    | true => exact (Holding.closeAt_lockAt handle.fd).trans hclosed
  · exact free_deviceBlocks hapart

end Device

/-- What a process has, for the memory that it keeps: beside what the code never gives back, the
descriptor and the blocks of its device, and the lock when it has heard so. -/
structure Exact (memory : ClientMemory) (own : OwnFiles Node) (streams left : Finset ℕ) : Prop where
  counted : Counted memory streams left
  opened_iff : ∀ fd, own.holding.opened fd ≠ none ↔
    fd ∈ streams ∨ ∃ handle, memory.handle = some handle ∧ fd = handle.fd
  holds_iff : ∀ fd, own.holding.holds fd ↔
    memory.locked = true ∧ ∃ handle, memory.handle = some handle ∧ fd = handle.fd
  owned_iff : ∀ address, address ∈ own.blocks.owned ↔
    address ∈ left ∨ ∃ handle, memory.handle = some handle ∧
      (address = handle.dev ∨ address = handle.userCtx ∨ handle.context.buffered = some address)
  apart : ∀ handle, memory.handle = some handle → handle.fd ∉ streams ∧ Apart left handle

/-- What a device that is open is accounted for by. -/
theorem exact_withDevice {memory : ClientMemory} {streams left : Finset ℕ}
    (hcounted : Counted memory streams left) {node : Node} {handle : Handle}
    (hhandle : memory.handle = some handle) {locked : Bool} (hlocked : memory.locked = locked)
    (hfd : handle.fd ∉ streams) (hapart : Apart left handle) :
    Exact memory (withDevice (leftOnly tree streams left) node handle locked) streams left where
  counted := hcounted
  opened_iff fd := by
    have hopened : (withDevice (leftOnly tree streams left) node handle locked).holding.opened =
        Function.update (leftOnly tree streams left).holding.opened handle.fd (some node) := by
      cases locked <;> rfl
    rw [hopened, hhandle]
    rcases eq_or_ne fd handle.fd with rfl | hother
    · simp
    · simp [hother, leftOnly]
  holds_iff fd := by
    rw [hhandle, hlocked]
    cases locked with
    | false => simp [withDevice, leftOnly, Holding.openAt]
    | true =>
      have hholds : (withDevice (leftOnly tree streams left) node handle true).holding.holds =
          Function.update (fun _ ↦ False) handle.fd True := rfl
      rw [hholds]
      rcases eq_or_ne fd handle.fd with rfl | hother
      · simp
      · simp [hother]
  owned_iff address := by
    have howned : (deviceBlocks ⟨left, false⟩ handle).owned =
        handle.context.buffered.elim (insert handle.userCtx (insert handle.dev left))
          (insert · (insert handle.userCtx (insert handle.dev left))) := by
      unfold deviceBlocks Blocks.withBlock
      cases handle.context.buffered <;> rfl
    change address ∈ (deviceBlocks ⟨left, false⟩ handle).owned ↔ _
    rw [howned, hhandle]
    cases hbuffered : handle.context.buffered with
    | none =>
      simp [hbuffered]
      tauto
    | some kept =>
      simp [hbuffered]
      tauto
  apart other hother := by
    obtain rfl := Option.some.inj (hhandle.symm.trans hother)
    exact ⟨hfd, hapart⟩

theorem Fits.exact {memory : ClientMemory} {own : OwnFiles Node} (hfits : Fits tree memory own) :
    ∃ streams left, Exact memory own streams left := by
  cases hfits with
  | closed streams left hcounted hhandle hlocked =>
    refine ⟨streams, left, hcounted, fun fd ↦ ?_, fun fd ↦ ?_, fun address ↦ ?_, ?_⟩
    · simp [leftOnly, hhandle]
    · simp [leftOnly, hlocked]
    · simp [leftOnly, hhandle]
    · intro handle hsome
      exact absurd (hhandle.symm.trans hsome) (Option.some_ne_none handle).symm
  | opened streams left hcounted node handle locked hhandle hlocked hfd hapart =>
    exact ⟨streams, left, exact_withDevice hcounted hhandle hlocked hfd hapart⟩

/-! ### What an operation leaves -/

/-- An open beside what is never given back. -/
theorem fits_of_opensOrNot {memory : ClientMemory} {streams left : Finset ℕ}
    (hcounted : Counted memory streams left) (hhandle : memory.handle = none)
    (hlocked : memory.locked = false) {node : Node} {context : Context}
    (hcontext : context.buffered = none) {outcome : LibhothError × Option Handle}
    {final : OwnFiles Node}
    (hopens : OpensOrNot (leftOnly tree streams left) node context outcome final) :
    Fits tree (memory.opened (.ok outcome)) final := by
  rcases hopens with ⟨handle, rfl, rfl, hopened⟩ | ⟨-, hnone, rfl⟩
  · have hfinal : final = withDevice (leftOnly tree streams left) node handle true := by
      rw [hopened.final_eq]
      ext1
      · rfl
      · change _ = deviceBlocks _ handle
        rw [deviceBlocks, hcontext]
        rfl
    have hapart : Apart left handle :=
      ⟨hopened.dev_free, hopened.userCtx_free, by simp [hcontext]⟩
    rw [hfinal]
    exact @Fits.opened Node tree { memory with handle := some handle, locked := true } streams left
      ⟨hcounted.streams, hcounted.left⟩ node handle true rfl rfl
      (opened_leftOnly.mp hopened.fd_free) hapart
  · obtain ⟨status, _⟩ := outcome
    obtain rfl := hnone
    exact .closed streams left hcounted hhandle hlocked

section Opening

variable {memory : ClientMemory} {streams left : Finset ℕ}

theorem openSpi_ensures (options : LibhothSpiDeviceInitOptions)
    (hcounted : Counted memory streams left) (hhandle : memory.handle = none)
    (hlocked : memory.locked = false) :
    Ensures (ownFiles tree) (operationProgram memory (.openSpi options))
      (leftOnly tree streams left) fun result final ↦
        Fits tree (memoryAfter memory (.openSpi options) result) final := by
  rw [operationProgram, ensures_bind]
  refine (libhothSpiOpen_ensures options (clean_leftOnly streams left)).mono ?_
  intro outcome final hopens
  exact (ensures_done _ _ _).mpr (fits_of_opensOrNot hcounted hhandle hlocked rfl hopens)

theorem openMtd_ensures (options : LibhothMtdDeviceInitOptions)
    (hcounted : Counted memory streams left) (hhandle : memory.handle = none)
    (hlocked : memory.locked = false) :
    Ensures (ownFiles tree) (operationProgram memory (.openMtd options))
      (leftOnly tree streams left) fun result final ↦
        Fits tree (memoryAfter memory (.openMtd options) result) final := by
  rw [operationProgram]
  refine (libhothMtdOpen_ensures options (clean_leftOnly streams left)).mono ?_
  rintro _ final ⟨outcome, base, node, rfl, hbeside, hopens, -⟩
  have hmore : ∃ streams' left' : Finset ℕ,
      Counted { memory with
        namedOpens := memory.namedOpens + if options.path = [] then 1 else 0 } streams' left' ∧
        base = leftOnly tree streams' left' := by
    cases hbeside with
    | nothing =>
      refine ⟨streams, left, ⟨?_, ?_⟩, rfl⟩
      · exact hcounted.streams.trans (Nat.le_add_right _ _)
      · exact hcounted.left.trans (Nat.add_le_add_right (Nat.le_add_right _ _) _)
    | listed hpath _ hbase =>
      obtain ⟨stream, line, -, -, rfl⟩ := hbase
      refine ⟨_, _, ⟨?_, ?_⟩, leftOnly_listed streams left stream line⟩
      · rw [if_pos hpath]
        exact (Finset.card_insert_le stream streams).trans (Nat.add_le_add_right hcounted.streams 1)
      · have hone : (if line.isSome then 1 else 0) ≤ 1 := by split_ifs <;> decide
        have hcard := card_elim_insert_le left line
        have hleft := hcounted.left
        rw [if_pos hpath]
        dsimp only
        omega
  obtain ⟨streams', left', hcounted', rfl⟩ := hmore
  have hfits := fits_of_opensOrNot hcounted' hhandle hlocked rfl hopens
  obtain ⟨status, _ | handle⟩ := outcome
  · exact hfits
  · exact hfits

end Opening

/-- A process without a device is refused. -/
theorem onDevice_none {memory : ClientMemory} (hnone : memory.handle = none)
    (call : Handle → FileProgram LibhothError) :
    onDevice memory call = .done (.ok (initError .invalidParameter, none)) := by
  simp [onDevice, hnone]

theorem onDevice_some {memory : ClientMemory} {handle : Handle}
    (hsome : memory.handle = some handle) (call : Handle → FileProgram LibhothError) :
    onDevice memory call =
      call handle >>= fun status ↦ .done (.ok (status, none)) := by
  simp [onDevice, hsome]

theorem onContext_none {memory : ClientMemory} (hnone : memory.handle = none)
    (call : Handle → FileProgram (LibhothError × Handle)) :
    onContext memory call = .done (.ok (initError .invalidParameter, none)) := by
  simp [onContext, hnone]

theorem onContext_some {memory : ClientMemory} {handle : Handle}
    (hsome : memory.handle = some handle) (call : Handle → FileProgram (LibhothError × Handle)) :
    onContext memory call =
      call handle >>= fun outcome ↦ .done (.ok (outcome.1, some outcome.2)) := by
  simp [onContext, hsome]

/-- The claim function of a device takes the lock or changes nothing. -/
theorem claim_ensures (handle : Handle) (before : OwnFiles Node) :
    Ensures (ownFiles tree) handle.claim before fun status final ↦
      (status = hothSuccess ∧ final = before.lockAt handle.fd) ∨
        (status ≠ hothSuccess ∧ final = before) := by
  rw [Handle.claim]
  cases handle.context with
  | spi device atomic buffered kept =>
    refine (flockClaim_ensures tree before handle.fd _).mono ?_
    rintro status final (hclaimed | ⟨rfl, rfl⟩)
    · exact .inl hclaimed
    · exact .inr ⟨by simp, rfl⟩
  | mtd mailbox =>
    refine (flockClaim_ensures tree before handle.fd _).mono ?_
    rintro status final (hclaimed | ⟨rfl, rfl⟩)
    · exact .inl hclaimed
    · exact .inr ⟨by simp, rfl⟩

/-- The release function of a device gives up the lock or changes nothing. -/
theorem release_ensures (handle : Handle) (before : OwnFiles Node) :
    Ensures (ownFiles tree) handle.release before fun status final ↦
      (status = hothSuccess ∧ final = before.unlockAt handle.fd) ∨
        (status ≠ hothSuccess ∧ final = before) := by
  rw [Handle.release]
  cases handle.context with
  | spi device atomic buffered kept =>
    refine (flockRelease_ensures tree before handle.fd _).mono ?_
    rintro status final (hreleased | ⟨rfl, rfl⟩)
    · exact .inl hreleased
    · exact .inr ⟨by simp, rfl⟩
  | mtd mailbox =>
    refine (flockRelease_ensures tree before handle.fd _).mono ?_
    rintro status final (hreleased | ⟨rfl, rfl⟩)
    · exact .inl hreleased
    · exact .inr ⟨by simp, rfl⟩

section Device

variable {memory : ClientMemory} {streams left : Finset ℕ} {node : Node} {handle : Handle}

/-- A call that has the lock taken, on a device that is open. -/
theorem heard_claimed (hcounted : Counted memory streams left)
    (hhandle : memory.handle = some handle) (hfd : handle.fd ∉ streams)
    (hapart : Apart left handle) {claim : FileProgram LibhothError}
    (hclaim : ∀ before : OwnFiles Node, Ensures (ownFiles tree) claim before fun status final ↦
      (status = hothSuccess ∧ final = before.lockAt handle.fd) ∨
        (status ≠ hothSuccess ∧ final = before)) :
    Ensures (ownFiles tree) (claim >>= fun status ↦ .done (.ok (status, none)))
      (withDevice (leftOnly tree streams left) node handle memory.locked) fun result final ↦
        Fits tree (memory.heard true result) final := by
  rw [ensures_bind]
  refine (hclaim _).mono ?_
  rintro status final (⟨rfl, rfl⟩ | ⟨hfailed, rfl⟩)
  · rw [lockAt_withDevice, ensures_done, ClientMemory.heard, if_pos rfl]
    exact @Fits.opened Node tree { memory with locked := true } streams left
      ⟨hcounted.streams, hcounted.left⟩ node handle true hhandle rfl hfd hapart
  · rw [ensures_done, ClientMemory.heard, if_neg hfailed]
    exact .opened streams left hcounted node handle _ hhandle rfl hfd hapart

/-- A call that has the lock given up, on a device that is open. -/
theorem heard_released (hcounted : Counted memory streams left)
    (hhandle : memory.handle = some handle) (hfd : handle.fd ∉ streams)
    (hapart : Apart left handle) :
    Ensures (ownFiles tree) (handle.release >>= fun status ↦ .done (.ok (status, none)))
      (withDevice (leftOnly tree streams left) node handle memory.locked) fun result final ↦
        Fits tree (memory.heard false result) final := by
  rw [ensures_bind]
  refine (release_ensures handle _).mono ?_
  rintro status final (⟨rfl, rfl⟩ | ⟨hfailed, rfl⟩)
  · rw [unlockAt_withDevice (not_false), ensures_done, ClientMemory.heard, if_pos rfl]
    exact @Fits.opened Node tree { memory with locked := false } streams left
      ⟨hcounted.streams, hcounted.left⟩ node handle false hhandle rfl hfd hapart
  · rw [ensures_done, ClientMemory.heard, if_neg hfailed]
    exact .opened streams left hcounted node handle _ hhandle rfl hfd hapart

/-- Closing a device that is open leaves what is never given back, with a request that it kept. -/
theorem close_ensures (hcounted : Counted memory streams left)
    (hhandle : memory.handle = some handle) (hfd : handle.fd ∉ streams)
    (hapart : Apart left handle) :
    Ensures (ownFiles tree) (libhothDeviceClose handle)
      (withDevice (leftOnly tree streams left) node handle memory.locked) fun _ final ↦
        Fits tree memory.closed final := by
  have hcounted' : Counted memory.closed streams
      (handle.context.buffered.elim left (insert · left)) := by
    refine ⟨hcounted.streams, (card_elim_insert_le left _).trans ?_⟩
    rw [ClientMemory.closed, hhandle, Option.bind_some, ← Nat.add_assoc]
    exact Nat.add_le_add_right hcounted.left _
  simp only [libhothDeviceClose, ensures_bind, ensures_request]
  rintro _ _ rfl _ _ rfl _ _ rfl
  refine (ensures_done _ _ _).mpr ?_
  rw [closed_withDevice hfd hapart, leftOnly_withBlock]
  exact .closed streams _ hcounted' rfl rfl

/-! ### A request that is kept -/

/-- A call of a SPI function on the device leaves the files and the blocks. -/
theorem spi_still {before after : OwnFiles Node} {fd : ℕ} {call : SpiCall} {reply : SpiReply call}
    (hstep : ownFiles tree before (.spi fd call) reply after) : after = before := by
  cases call with
  | malloc size => exact hstep.2
  | message _ | statusMessage _ | getMonotonicMs | usleep _ => exact hstep

/-- A device whose context has changed, with what is there for it. -/
structure Changed (tree : DeviceTree Node) (streams left : Finset ℕ) (node : Node) (handle : Handle)
    (locked : Bool) (changed : Handle) (final : OwnFiles Node) : Prop where
  fd : changed.fd = handle.fd
  apart : Apart left changed
  final_eq : final = withDevice (leftOnly tree streams left) node changed locked

/-- No block was freed that was not there, and the files and locks are as given. -/
def FilesKept (holding : Holding Node) (own : OwnFiles Node) : Prop :=
  own.blocks.faulted = false ∧ own.holding = holding

theorem filesKept_withDevice (locked : Bool) :
    FilesKept (withDevice (leftOnly tree streams left) node handle locked).holding
      (withDevice (leftOnly tree streams left) node handle locked) := by
  refine ⟨?_, rfl⟩
  change (deviceBlocks ⟨left, false⟩ handle).faulted = false
  unfold deviceBlocks Blocks.withBlock
  cases handle.context.buffered <;> rfl

/-- Keeping a request allocates its block, or changes nothing. -/
theorem bufferRequest_maintains (requestData : List UInt8) (hapart : Apart left handle)
    (locked : Bool) :
    Maintains (ownFiles tree)
      (FilesKept (withDevice (leftOnly tree streams left) node handle locked).holding)
      (handle.bufferRequest requestData)
      (withDevice (leftOnly tree streams left) node handle locked) fun outcome final ↦
        Changed tree streams left node handle locked outcome.2 final := by
  have hkept := @filesKept_withDevice Node tree streams left node handle locked
  have hsame : Changed tree streams left node handle locked handle
      (withDevice (leftOnly tree streams left) node handle locked) := ⟨rfl, hapart, rfl⟩
  rw [Handle.bufferRequest]
  cases hcontext : handle.context with
  | mtd mailbox => exact ⟨hkept, hsame⟩
  | spi device atomic buffered kept =>
    dsimp only
    split_ifs with hbusy
    · exact ⟨hkept, hsame⟩
    · have hnone : handle.context.buffered = none := by
        rw [hcontext]
        exact Option.not_isSome_iff_eq_none.mp fun hsome ↦ hbusy (kept.symm.trans hsome)
      refine ⟨hkept, ?_⟩
      rintro (_ | address) _ hmalloc
      · obtain rfl := hmalloc
        exact ⟨hkept, hsame⟩
      · obtain ⟨hfree, rfl⟩ := hmalloc
        have hfree' : address ∉ insert handle.userCtx (insert handle.dev left) := by
          change address ∉ (deviceBlocks ⟨left, false⟩ handle).owned at hfree
          rwa [deviceBlocks, hnone] at hfree
        refine ⟨⟨hkept.1, rfl⟩, rfl, ⟨hapart.dev, hapart.userCtx, ?_⟩, ?_⟩
        · rintro _ ⟨⟩
          exact hfree'
        · ext1
          · rfl
          · change (deviceBlocks ⟨left, false⟩ handle).alloc address = _
            rw [deviceBlocks, hnone]
            rfl

/-- Sending the request frees its block, or changes nothing. -/
theorem sendAndReceive_maintains (response : ℕ → UInt8) (maxResponseSize : ℕ)
    (actualSize : Option ℕ) (hapart : Apart left handle) (locked : Bool) :
    Maintains (ownFiles tree)
      (FilesKept (withDevice (leftOnly tree streams left) node handle locked).holding)
      (handle.sendAndReceive response maxResponseSize actualSize)
      (withDevice (leftOnly tree streams left) node handle locked) fun outcome final ↦
        Changed tree streams left node handle locked outcome.2 final := by
  have hkept := @filesKept_withDevice Node tree streams left node handle locked
  have hsame : Changed tree streams left node handle locked handle
      (withDevice (leftOnly tree streams left) node handle locked) := ⟨rfl, hapart, rfl⟩
  rw [Handle.sendAndReceive]
  cases hcontext : handle.context with
  | mtd mailbox => exact ⟨hkept, hsame⟩
  | spi device atomic buffered kept =>
    refine Maintains.bind ((maintains_interpret_still (FileCall.spi handle.fd) _
      (fun call reply after hstep ↦ spi_still hstep) hkept).mono (fun _ ↦ id) ?_)
    rintro ⟨received, remaining⟩ _ rfl
    cases buffered with
    | none => exact ⟨hkept, hsame⟩
    | some address =>
      dsimp only
      split_ifs with hstill
      · exact ⟨hkept, hsame⟩
      · have hbuffered : handle.context.buffered = some address := by rw [hcontext]; rfl
        have hfreed : (deviceBlocks ⟨left, false⟩ handle).free address =
            ((⟨left, false⟩ : Blocks).alloc handle.dev).alloc handle.userCtx := by
          rw [deviceBlocks, hbuffered]
          exact Blocks.free_alloc (hapart.buffered address hbuffered)
        refine ⟨hkept, ?_⟩
        rintro _ _ rfl
        refine ⟨⟨congrArg Blocks.faulted hfreed, rfl⟩, rfl, ⟨hapart.dev, hapart.userCtx, ?_⟩, ?_⟩
        · rintro _ ⟨⟩
        · ext1
          · rfl
          · exact hfreed

end Device

/-! ### What an operation maintains -/

/-- What an operation leaves that is not at work on the device is what the memory says behind it. -/
theorem operationProgram_ensures {memory : ClientMemory} {operation : DeviceOperation}
    {before : OwnFiles Node} (hadmits : operationAdmitted memory operation)
    (hstill : operation.isTransfer = false) (hfits : Fits tree memory before) :
    Ensures (ownFiles tree) (operationProgram memory operation) before fun result final ↦
      Fits tree (memoryAfter memory operation result) final := by
  cases hfits with
  | closed streams left hcounted hhandle hlocked =>
    have hrefused : initError .invalidParameter ≠ hothSuccess := by decide
    have hclosed : Fits tree memory (leftOnly tree streams left) :=
      .closed streams left hcounted hhandle hlocked
    cases operation with
    | openSpi options => exact openSpi_ensures options hcounted hhandle hlocked
    | openMtd options => exact openMtd_ensures options hcounted hhandle hlocked
    | claimDevice _ | claim | release =>
      rw [operationProgram, onDevice_none hhandle, ensures_done, memoryAfter, ClientMemory.heard,
        if_neg hrefused]
      exact hclosed
    | close =>
      rw [operationProgram, onDevice_none hhandle, ensures_done, memoryAfter, ClientMemory.closed,
        hhandle]
      exact @Fits.closed Node tree ⟨none, false, memory.namedOpens, memory.keptRequests + 0⟩ streams
        left ⟨hcounted.streams, hcounted.left⟩ rfl rfl
    | transfer _ _ | bufferRequest _ | sendAndReceive _ _ _ =>
      exact absurd hstill (Bool.noConfusion ·)
  | opened streams left hcounted node handle locked hhandle hlocked hfd hapart =>
    obtain rfl := hlocked
    cases operation with
    | openSpi _ | openMtd _ =>
      exact absurd (hhandle.symm.trans hadmits) (Option.some_ne_none handle)
    | claimDevice timeoutUs =>
      rw [operationProgram, onDevice_some hhandle]
      exact heard_claimed hcounted hhandle hfd hapart fun start ↦
        claimWithin_ensures tree (claim_ensures handle start) timeoutUs
    | claim =>
      rw [operationProgram, onDevice_some hhandle]
      exact heard_claimed hcounted hhandle hfd hapart (claim_ensures handle)
    | release =>
      rw [operationProgram, onDevice_some hhandle]
      exact heard_released hcounted hhandle hfd hapart
    | close =>
      rw [operationProgram, onDevice_some hhandle, ensures_bind]
      refine (close_ensures hcounted hhandle hfd hapart).mono fun status final hfinal ↦ ?_
      exact (ensures_done _ _ _).mpr hfinal
    | transfer _ _ | bufferRequest _ | sendAndReceive _ _ _ =>
      exact absurd hstill (Bool.noConfusion ·)

/-- Whatever a process asks for may fail, so that it meets an answer. -/
theorem ownFiles_serial (before : OwnFiles Node) (call : FileCall) :
    ∃ reply after, ownFiles tree before call reply after := by
  cases call with
  | «open» path => exact ⟨none, before, rfl⟩
  | fopen path => exact ⟨none, before, rfl⟩
  | getline buffer =>
    cases buffer with
    | none => exact ⟨.ended none, before, before.blocks, rfl, rfl⟩
    | some address =>
      exact ⟨.ended (some address), _, _, ⟨Finset.notMem_erase _ _, rfl⟩, rfl⟩
  | close fd => exact ⟨(), _, rfl⟩
  | flockExclusive fd => exact ⟨false, before, rfl⟩
  | flockUnlock fd => exact ⟨false, before, rfl⟩
  | ioctl fd setting value => exact ⟨false, before, rfl⟩
  | calloc block => exact ⟨none, before, rfl⟩
  | malloc size => exact ⟨none, before, rfl⟩
  | free address => exact ⟨(), _, rfl⟩
  | usleep us => exact ⟨(), before, rfl⟩
  | fprintf text => exact ⟨(), before, rfl⟩
  | spi fd call =>
    cases call with
    | message transfers => exact ⟨.failed 0, before, rfl⟩
    | statusMessage transfer => exact ⟨.failed 0, before, rfl⟩
    | getMonotonicMs => exact ⟨none, before, rfl⟩
    | usleep us => exact ⟨(), before, rfl⟩
    | malloc size => exact ⟨false, before, rfl, rfl⟩
  | mtd fd call =>
    cases call with
    | lseek offset => exact ⟨false, before, rfl⟩
    | read count => exact ⟨.failed false, before, rfl⟩
    | write data => exact ⟨.failed false, before, rfl⟩

/-- A block that is moved was there, unless one had been freed that was not. -/
theorem faulted_of_moved {blocks later : Blocks} {before after : Option ℕ}
    (hmoved : blocks.Moved before after later) (hsafe : later.faulted = false) :
    blocks.faulted = false := by
  cases before with
  | none =>
    cases after with
    | none => exact hmoved ▸ hsafe
    | some address => exact (congrArg Blocks.faulted hmoved.2).symm.trans hsafe
  | some address =>
    cases after with
    | none => exact hmoved.elim
    | some moved =>
      have hfreed : (blocks.free address).faulted = false :=
        (congrArg Blocks.faulted hmoved.2).symm.trans hsafe
      exact (Bool.or_eq_false_iff.mp hfreed).1

/-- A process that has freed a block which it had not will always have done so. -/
theorem faulted_of_ownFiles {before after : OwnFiles Node} {call : FileCall}
    {reply : FileReply call} (hstep : ownFiles tree before call reply after)
    (hsafe : after.blocks.faulted = false) : before.blocks.faulted = false := by
  cases call with
  | «open» path =>
    cases reply with
    | none => exact hstep ▸ hsafe
    | some fd => exact (congrArg (·.blocks.faulted) hstep.2).symm.trans hsafe
  | fopen path =>
    cases reply with
    | none => exact hstep ▸ hsafe
    | some stream => exact (congrArg (·.blocks.faulted) hstep.2.2).symm.trans hsafe
  | getline buffer =>
    obtain ⟨blocks, hmoved, rfl⟩ := hstep
    exact faulted_of_moved hmoved hsafe
  | close fd => exact (congrArg (·.blocks.faulted) hstep).symm.trans hsafe
  | flockExclusive fd =>
    cases reply <;> exact (congrArg (·.blocks.faulted) hstep).symm.trans hsafe
  | flockUnlock fd => cases reply <;> exact (congrArg (·.blocks.faulted) hstep).symm.trans hsafe
  | calloc _ | malloc _ =>
    cases reply with
    | none => exact hstep ▸ hsafe
    | some address => exact (congrArg (·.blocks.faulted) hstep.2).symm.trans hsafe
  | free address =>
    exact (Bool.or_eq_false_iff.mp ((congrArg (·.blocks.faulted) hstep).symm.trans hsafe)).1
  | spi fd call => exact spi_still hstep ▸ hsafe
  | ioctl _ _ _ | usleep _ | fprintf _ | mtd _ _ => exact hstep ▸ hsafe

/-- What holds in the middle of an operation: no block was freed that was not there, and while the
operation is at work on the device the files and locks are what the memory says. -/
def DuringOperation (tree : DeviceTree Node) (memory : ClientMemory) (operation : DeviceOperation)
    (own : OwnFiles Node) : Prop :=
  own.blocks.faulted = false ∧ (operation.isTransfer = true →
    ∃ fit : OwnFiles Node, Fits tree memory fit ∧ own.holding = fit.holding)

theorem Fits.safe {memory : ClientMemory} {own : OwnFiles Node} (hfits : Fits tree memory own) :
    own.blocks.faulted = false := by
  cases hfits with
  | closed streams left hcounted hhandle hlocked => rfl
  | opened streams left hcounted node handle locked hhandle hlocked hfd hapart =>
    exact (filesKept_withDevice locked).1

theorem Fits.during {memory : ClientMemory} {own : OwnFiles Node} (hfits : Fits tree memory own)
    (operation : DeviceOperation) : DuringOperation tree memory operation own :=
  ⟨hfits.safe, fun _ ↦ ⟨own, hfits, rfl⟩⟩

/-- A transfer changes nothing of the files, locks and blocks. -/
theorem transferOver_maintains (overSpi : LibhothSpiDevice → SpiProgram LibhothError)
    (overMtd : UInt32 → MtdProgram LibhothError) (handle : Handle) {before : OwnFiles Node}
    {during : OwnFiles Node → Prop} (hduring : during before) :
    Maintains (ownFiles tree) during (transferOver overSpi overMtd handle) before
      fun _ final ↦ final = before := by
  rw [transferOver]
  cases handle.context with
  | spi device atomic buffered kept =>
    have hstill : ∀ call reply after,
        ownFiles tree before (.spi handle.fd call) reply after → after = before :=
      fun _ _ _ hstep ↦ spi_still hstep
    exact maintains_interpret_still (FileCall.spi handle.fd) (overSpi device) hstill hduring
  | mtd mailbox =>
    have hstill : ∀ call reply after,
        ownFiles tree before (.mtd handle.fd call) reply after → after = before :=
      fun _ _ _ hstep ↦ hstep
    exact maintains_interpret_still (FileCall.mtd handle.fd) (overMtd mailbox) hstill hduring

/-- A call that changes the context of a device. -/
theorem onContext_maintains {memory : ClientMemory} {operation : DeviceOperation}
    {call : Handle → FileProgram (LibhothError × Handle)} {before : OwnFiles Node}
    (hafter : ∀ result, memoryAfter memory operation result = memory.changed result)
    (hcall : ∀ streams left node handle locked, Apart left handle →
      Maintains (ownFiles tree)
        (FilesKept (withDevice (leftOnly tree streams left) node handle locked).holding)
        (call handle) (withDevice (leftOnly tree streams left) node handle locked)
        fun outcome final ↦ Changed tree streams left node handle locked outcome.2 final)
    (hfits : Fits tree memory before) :
    Maintains (ownFiles tree) (DuringOperation tree memory operation) (onContext memory call) before
      fun result final ↦ Fits tree (memoryAfter memory operation result) final := by
  have hbehind : ∀ result final, Fits tree (memory.changed result) final →
      Fits tree (memoryAfter memory operation result) final := by
    intro result final hfinal
    rwa [hafter]
  cases hfits with
  | closed streams left hcounted hhandle hlocked =>
    have hclosed : Fits tree memory (leftOnly tree streams left) :=
      .closed streams left hcounted hhandle hlocked
    rw [onContext_none hhandle]
    exact ⟨hclosed.during operation, hbehind _ _ hclosed⟩
  | opened streams left hcounted node handle locked hhandle hlocked hfd hapart =>
    have hopened : Fits tree memory (withDevice (leftOnly tree streams left) node handle locked) :=
      .opened streams left hcounted node handle locked hhandle hlocked hfd hapart
    rw [onContext_some hhandle]
    refine Maintains.bind ((hcall streams left node handle locked hapart).mono ?_ ?_)
    · exact fun own hkept ↦ ⟨hkept.1, fun _ ↦ ⟨_, hopened, hkept.2⟩⟩
    · rintro ⟨status, changed⟩ final ⟨hsame, hapart', rfl⟩
      have hlater : Fits tree { memory with handle := some changed }
          (withDevice (leftOnly tree streams left) node changed locked) :=
        @Fits.opened Node tree { memory with handle := some changed } streams left
          ⟨hcounted.streams, hcounted.left⟩ node changed locked rfl hlocked (hsame ▸ hfd) hapart'
      refine ⟨⟨hlater.safe, fun _ ↦ ⟨_, hopened, ?_⟩⟩, ?_⟩
      · unfold withDevice
        rw [hsame]
      · exact hbehind _ _ hlater

/-- What an operation maintains. -/
theorem operationProgram_maintains {memory : ClientMemory} {operation : DeviceOperation}
    {before : OwnFiles Node} (hadmits : operationAdmitted memory operation)
    (hfits : Fits tree memory before) :
    Maintains (ownFiles tree) (DuringOperation tree memory operation)
      (operationProgram memory operation) before fun result final ↦
        Fits tree (memoryAfter memory operation result) final := by
  cases operation with
  | transfer overSpi overMtd =>
    rcases hhandle : memory.handle with _ | handle
    · rw [operationProgram, onDevice_none hhandle]
      exact ⟨hfits.during _, hfits⟩
    · rw [operationProgram, onDevice_some hhandle]
      refine Maintains.bind ?_
      refine (transferOver_maintains overSpi overMtd handle (hfits.during _)).mono (fun _ ↦ id) ?_
      rintro status _ rfl
      exact ⟨hfits.during _, hfits⟩
  | bufferRequest requestData =>
    exact onContext_maintains (fun _ ↦ rfl) (fun _ _ _ _ locked hapart ↦
      bufferRequest_maintains requestData hapart locked) hfits
  | sendAndReceive response maxResponseSize actualSize =>
    exact onContext_maintains (fun _ ↦ rfl) (fun _ _ _ _ locked hapart ↦
      sendAndReceive_maintains response maxResponseSize actualSize hapart locked) hfits
  | openSpi _ | openMtd _ | claimDevice _ | claim | release | close =>
    refine (maintains_of_ensures ownFiles_serial (fun _ _ _ _ ↦ faulted_of_ownFiles)
      ((operationProgram_ensures hadmits rfl hfits).mono fun _ _ hfinal ↦
        ⟨hfinal.safe, hfinal⟩)).mono ?_ fun _ _ hfinal ↦ hfinal
    exact fun own hsafe ↦ ⟨hsafe, fun htransfer ↦ absurd htransfer Bool.false_ne_true⟩

end Files

/-! ### The system -/

section System

variable {Process Node : Type} [DecidableEq Process] [DecidableEq Node]

/-- Processes, what they are at, and the world that they share. -/
abbrev System (Process Node : Type) :=
  Configuration FileReply ClientMemory DeviceOperation DeviceResult Process
    (DeviceWorld Process Node)

/-- The system at the start: nothing is open, and no process has a device. -/
def System.initial (Process Node : Type) : System Process Node where
  activity _ := .idle ⟨none, false, 0, 0⟩
  world := initialWorld Process Node

/-- What the system can come to. -/
abbrev System.Reachable (tree : DeviceTree Node) (now : System Process Node) : Prop :=
  Reached deviceRoutine (kernelFiles tree) (System.initial Process Node) now

/-- A process that has been told that it has the lock on a node, and has not given it up since: it
is between two calls, or at work on the device. -/
def System.Guards (now : System Process Node) (process : Process) (node : Node) : Prop :=
  ∃ memory handle, memory.handle = some handle ∧ memory.locked = true ∧
    now.world.table.opened process handle.fd = some node ∧
      (now.activity process = .idle memory ∨ ∃ operation rest,
        operation.isTransfer = true ∧ now.activity process = .running memory operation rest)

variable {tree : DeviceTree Node} {now : System Process Node}

/-- The kernel, as a process sees it. -/
abbrev seenBy (tree : DeviceTree Node) (process : Process) :
    Environment FileReply (OwnFiles Node) :=
  localEnvironment (kernelFiles tree : Process → Environment FileReply (DeviceWorld Process Node))
    ownView process

/-- What every process may rely on in everything that the system comes to. -/
theorem System.Reachable.sound (hreachable : System.Reachable tree now) (process : Process) :
    (now.activity process).Sound deviceRoutine (seenBy tree process) (Fits tree)
      (DuringOperation tree) (ownView process now.world) := by
  have hroutine : ∀ (client : Process) memory operation before,
      deviceRoutine.admits memory operation → Fits tree memory before →
        Maintains (seenBy tree client) (DuringOperation tree memory operation)
          (deviceRoutine.program memory operation) before
          fun result after ↦ Fits tree (deviceRoutine.after memory operation result) after :=
    fun client memory operation before hadmits hfits ↦
      (operationProgram_maintains hadmits hfits).mono_environment
        fun before call reply after hstep ↦
          ownFiles_of_kernelFiles tree client before after call reply hstep
  have hinitial : ∀ client, ((System.initial Process Node).activity client).Sound deviceRoutine
      (seenBy tree client) (Fits tree) (DuringOperation tree)
        (ownView client (System.initial Process Node).world) := by
    intro client
    have hnothing : ownView client (System.initial Process Node).world = leftOnly tree ∅ ∅ := by
      ext1
      · ext descriptor
        · simp [ownView, System.initial, initialWorld, leftOnly, LockTable.holding]
        · simp [ownView, System.initial, initialWorld, leftOnly, LockTable.holding,
            LockTable.Holds]
      · rfl
    exact hnothing ▸ Fits.closed ∅ ∅ ⟨Nat.zero_le _, Nat.zero_le _⟩ rfl rfl
  exact Reached.sound (keepsApart_kernelFiles tree) hroutine hinitial hreachable process

/-- A process that guards a node has the lock on it. -/
theorem System.Guards.owner (hreachable : System.Reachable tree now) {process : Process}
    {node : Node} (hguards : now.Guards process node) :
    ∃ fd, now.world.table.owner node = some (process, fd) := by
  obtain ⟨memory, handle, hhandle, hlocked, hopened, hactivity⟩ := hguards
  obtain ⟨fit, hfits, hholding⟩ : ∃ fit : OwnFiles Node, Fits tree memory fit ∧
      (ownView process now.world).holding = fit.holding := by
    have hsound := hreachable.sound process
    rcases hactivity with hidle | ⟨operation, rest, htransfer, hrunning⟩
    · rw [hidle] at hsound
      exact ⟨_, hsound, rfl⟩
    · rw [hrunning] at hsound
      exact hsound.now.2 htransfer
  have hholds : fit.holding.holds handle.fd := by
    obtain ⟨streams, left, hexact⟩ := hfits.exact
    exact (hexact.holds_iff handle.fd).mpr ⟨hlocked, handle, hhandle, rfl⟩
  rw [← hholding] at hholds
  exact ⟨handle.fd, LockTable.owner_of_holds hholds hopened⟩

/-- Some path. -/
def exampleOptions : LibhothMtdDeviceInitOptions :=
  ⟨[0x2F], [], 0⟩

/-- The first of some processes opens a device and has the lock on it. -/
theorem exists_guards :
    ∃ now : System ℕ ℕ, System.Reachable exampleTree now ∧ now.Guards 0 1 ∧
      now.activity 0 = .idle ⟨some ⟨3, 1, 2, .mtd 0⟩, true, 0, 0⟩ := by
  obtain ⟨_, world, hrun, rfl, hopened⟩ : Admits (kernelFiles exampleTree 0)
      (deviceRoutine.program ⟨none, false, 0, 0⟩ (.openMtd exampleOptions))
      (System.initial ℕ ℕ).world fun result world ↦
        result = .ok (hothSuccess, some ⟨3, 1, 2, .mtd 0⟩) ∧ world.table.opened 0 3 = some 1 := by
    change Admits _ (libhothMtdOpen exampleOptions) _ _
    rw [libhothMtdOpen, admits_bind, mtdOpen, if_pos (by decide), admits_bind]
    refine admits_request (some 3) ⟨rfl, rfl⟩ (admits_done ?_)
    refine (admits_bind _ _ _ _).mpr ((admits_bind _ _ _ _).mpr ?_)
    refine admits_request true ⟨1, rfl, .inl rfl, rfl⟩ ?_
    refine (admits_bind _ _ _ _).mpr (admits_request (some 1) ⟨by decide, rfl⟩ ?_)
    refine (admits_bind _ _ _ _).mpr (admits_request (some 2) ⟨by decide, rfl⟩ ?_)
    exact admits_done (admits_done ⟨rfl, rfl⟩)
  have hadmits : deviceRoutine.admits ⟨none, false, 0, 0⟩ (.openMtd exampleOptions) := rfl
  have hreached : System.Reachable exampleTree
      ⟨Function.update (System.initial ℕ ℕ).activity 0
        (.idle ⟨some ⟨3, 1, 2, .mtd 0⟩, true, 0, 0⟩), world⟩ :=
    Reached.start.of_operation rfl hadmits hrun
  have hidle : Function.update (System.initial ℕ ℕ).activity 0
      (.idle ⟨some ⟨3, 1, 2, .mtd 0⟩, true, 0, 0⟩) 0 =
        .idle ⟨some ⟨3, 1, 2, .mtd 0⟩, true, 0, 0⟩ :=
    Function.update_self _ _ _
  exact ⟨_, hreached, ⟨_, _, rfl, rfl, hopened, .inl hidle⟩, hidle⟩

/-- No two processes guard one node: of those that have been told that they have the lock on it, and
have not given it up, one is between two calls or at work on the device, and the others are not. -/
theorem guards_exclusive (hreachable : System.Reachable tree now) (first second : Process)
    (node : Node) (hfirst : now.Guards first node) (hsecond : now.Guards second node) :
    first = second := by
  obtain ⟨fd, hfd⟩ := hfirst.owner hreachable
  obtain ⟨other, hother⟩ := hsecond.owner hreachable
  exact (Prod.mk.inj (Option.some.inj (hfd.symm.trans hother))).1

/-- The process that has opened the device is the only one that guards it. -/
theorem exists_only_guard :
    ∃ now : System ℕ ℕ, System.Reachable exampleTree now ∧ now.Guards 0 1 ∧
      ∀ other, now.Guards other 1 → other = 0 := by
  obtain ⟨now, hreachable, hguards, -⟩ := exists_guards
  exact ⟨now, hreachable, hguards, fun other hother ↦
    guards_exclusive hreachable other 0 1 hother hguards⟩

/-- No process ever frees a block that it has not, and between two calls it has what its memory says
and nothing else: no failed open and no close leaves a lock, a block or a descriptor, except for
what the listing leaves behind an open by name, and the request that a device kept. -/
theorem resources_exact (hreachable : System.Reachable tree now) (process : Process) :
    (now.world.blocks process).faulted = false ∧
      ∀ memory, now.activity process = .idle memory →
        ∃ streams left, Exact memory (ownView process now.world) streams left := by
  have hsound := hreachable.sound process
  constructor
  · cases hactivity : now.activity process with
    | idle memory =>
      rw [hactivity] at hsound
      exact hsound.safe
    | running memory operation rest =>
      rw [hactivity] at hsound
      exact hsound.now.1
  · intro memory hidle
    rw [hidle] at hsound
    exact hsound.exact

/-- The process that has opened the device has its resources. -/
theorem exists_exact_resources :
    ∃ now : System ℕ ℕ, System.Reachable exampleTree now ∧
      now.activity 0 = .idle ⟨some ⟨3, 1, 2, .mtd 0⟩, true, 0, 0⟩ ∧
        (now.world.blocks 0).faulted = false ∧
          ∃ streams left,
            Exact ⟨some ⟨3, 1, 2, .mtd 0⟩, true, 0, 0⟩ (ownView 0 now.world) streams left := by
  obtain ⟨now, hreachable, -, hidle⟩ := exists_guards
  have hexact := resources_exact hreachable 0
  exact ⟨now, hreachable, hidle, hexact.1, hexact.2 _ hidle⟩

end System

end Libhoth.Transports.DeviceLocking
