import Libhoth.Transports.DeviceFiles

/-!
# Opening a SPI or MTD device

`libhothSpiOpen` and `libhothMtdOpen` open a device file, take the lock on it and allocate the
device, and undo what they have done when a later step fails. `mtdOpen` opens the MTD device of a
path, or the one that the listing gives for a name.

`Opened` is what an open that succeeds leaves: a descriptor of the file that was free before, with
the lock, and two new blocks. A SPI open that fails leaves what it found (`libhothSpiOpen_ensures`).
So does an MTD open, except for the stream of the listing, which nothing closes, and the buffer of
its lines, which nothing frees (`libhothMtdOpen_ensures`). `libhothMtdOpen_locks` is the same for a
process among others, whose kernel then has the lock of the file down as its own.
-/

set_option autoImplicit false
set_option relaxedAutoImplicit false

namespace Libhoth.Transports.DeviceOpen

open Foundation.AdvisoryLock Foundation.CheckedAccess Foundation.InteractingProgram
open Foundation.InterleavedClients Foundation.OwnedBlocks
open Protocol.Status LibhothEc SpiDevice MtdDevice MtdListing DeviceFiles

/-! ### The SPI transport -/

/-- `struct libhoth_spi_device_init_options`. -/
structure LibhothSpiDeviceInitOptions where
  path : List UInt8
  mailbox : UInt32
  bits : Int32
  mode : Int32
  speed : Int32
  atomic : Int32
  deviceBusyWaitTimeout : UInt32
  deviceBusyWaitCheckInterval : UInt32
  timeoutUs : UInt32

/-- The bits of a word that `libhoth_spi_open` sets. -/
def bitsPerWord (bits : Int32) : UInt32 :=
  if bits ≠ 0 then bits.toUInt32.toUInt8.toUInt32 else 8

/-- The ioctl requests of `libhoth_spi_open`, the first of which that fails is the last. -/
def spiSettings (options : LibhothSpiDeviceInitOptions) (fd : ℕ) : FileProgram Bool := do
  let bitsSet ← request (FileCall.ioctl fd .bitsPerWord (bitsPerWord options.bits))
  if !bitsSet then return false
  else do
    let modeSet ← request (FileCall.ioctl fd .mode32 options.mode.toUInt32)
    if !modeSet then return false
    else if options.speed ≠ 0 then
      request (FileCall.ioctl fd .maxSpeedHz options.speed.toUInt32)
    else return true

/-- What `libhoth_spi_open` keeps of its options in the device. -/
def LibhothSpiDeviceInitOptions.context (options : LibhothSpiDeviceInitOptions) : Context :=
  .spi (libhothSpiOpened options.mailbox options.deviceBusyWaitTimeout
    options.deviceBusyWaitCheckInterval) (options.atomic ≠ 0) none rfl

/-- `libhoth_spi_open`. -/
def libhothSpiOpen (options : LibhothSpiDeviceInitOptions) :
    FileProgram (LibhothError × Option Handle) := do
  match ← request (FileCall.open options.path) with
  | none => do
    errOut none none none
    return (spiErrLibhoth (statusInt .interfaceNotFound), none)
  | some fd => do
    match ← request (FileCall.calloc .libhothDevice) with
    | none => do
      errOut (some fd) none none
      return (spiErrLibhoth (statusInt .mallocFailed), none)
    | some dev => do
      match ← request (FileCall.calloc .userCtx) with
      | none => do
        errOut (some fd) (some dev) none
        return (spiErrLibhoth (statusInt .mallocFailed), none)
      | some userCtx => do
        let status ← claimWithin (libhothSpiClaim fd) options.timeoutUs
        if status ≠ hothSuccess then do
          errOut (some fd) (some dev) (some userCtx)
          return (status, none)
        else do
          let isSet ← spiSettings options fd
          if !isSet then do
            errOut (some fd) (some dev) (some userCtx)
            return (spiErrLibhoth (statusInt .fail), none)
          else return (hothSuccess, some ⟨fd, dev, userCtx, options.context⟩)

/-! ### The MTD transport -/

/-- `struct libhoth_mtd_device_init_options`. -/
structure LibhothMtdDeviceInitOptions where
  path : List UInt8
  name : List UInt8
  mailbox : UInt32

/-- The path `/proc/mtd`. -/
def procMtd : List UInt8 :=
  [0x2F, 0x70, 0x72, 0x6F, 0x63, 0x2F, 0x6D, 0x74, 0x64]

/-- The loop of `mtd_open` over the lines of the listing, with the buffer that they are read into.
Behind the last line `getline` fails, whatever it does with its buffer. -/
def openListed (name : List UInt8) :
    List (List UInt8) → Option ℕ → FileProgram (Except Fault (Option ℕ))
  | [], buffer => do
    let _ ← request (FileCall.getline buffer)
    return .ok none
  | line :: rest, buffer => do
    match ← request (FileCall.getline buffer) with
    | .ended _ => return .ok none
    | .read buffer =>
      match matchMtdLine name line with
      | .error fault => return .error fault
      | .ok none => openListed name rest (some buffer)
      | .ok (some mtdId) => do
        let fd ← request (FileCall.open (mtdPath mtdId.toNat))
        return .ok fd

/-- `mtd_open`, which on no path closes the stream of the listing or frees the buffer. -/
def mtdOpen (path name : List UInt8) : FileProgram (Except Fault (Option ℕ)) := do
  if path ≠ [] then do
    let fd ← request (FileCall.open path)
    return .ok fd
  else do
    match ← request (FileCall.fopen procMtd) with
    | none => return .ok none
    | some (_, lines) => openListed name lines none

/-- `libhoth_mtd_open` behind `mtd_open`. -/
def mtdOpenAt (mailbox : UInt32) (fd : ℕ) : FileProgram (LibhothError × Option Handle) := do
  let granted ← request (FileCall.flockExclusive fd)
  if !granted then do
    errOut (some fd) none none
    return (mtdErrLibhoth (statusInt .interfaceBusy), none)
  else do
    match ← request (FileCall.calloc .libhothDevice) with
    | none => do
      errOut (some fd) none none
      return (mtdErrLibhoth (statusInt .mallocFailed), none)
    | some dev => do
      match ← request (FileCall.calloc .userCtx) with
      | none => do
        errOut (some fd) (some dev) none
        return (mtdErrLibhoth (statusInt .mallocFailed), none)
      | some userCtx => return (hothSuccess, some ⟨fd, dev, userCtx, .mtd mailbox⟩)

/-- `libhoth_mtd_open`. -/
def libhothMtdOpen (options : LibhothMtdDeviceInitOptions) :
    FileProgram (Except Fault (LibhothError × Option Handle)) := do
  match ← mtdOpen options.path options.name with
  | .error fault => return .error fault
  | .ok none => do
    errOut none none none
    return .ok (mtdErrLibhoth (statusInt .interfaceNotFound), none)
  | .ok (some fd) => do
    let opened ← mtdOpenAt options.mailbox fd
    return .ok opened

/-! ### What opening leaves -/

section Contracts

variable {Node : Type} (tree : DeviceTree Node) {start : OwnFiles Node}

/-- What an open that succeeds leaves, for the node that it opened. -/
structure Opened (start : OwnFiles Node) (node : Node) (handle : Handle) (final : OwnFiles Node) :
    Prop where
  fd_free : start.holding.opened handle.fd = none
  dev_free : handle.dev ∉ start.blocks.owned
  userCtx_free : handle.userCtx ∉ (start.blocks.alloc handle.dev).owned
  final_eq : final =
    (((start.openAt handle.fd node).alloc handle.dev).alloc handle.userCtx).lockAt handle.fd

/-- What an open does: it succeeds with a device of a node and a context, or it fails and leaves
what it found. -/
def OpensOrNot (start : OwnFiles Node) (node : Node) (context : Context)
    (result : LibhothError × Option Handle) (final : OwnFiles Node) : Prop :=
  (∃ handle, result = (hothSuccess, some handle) ∧ handle.context = context ∧
      Opened start node handle final) ∨
    (result.1 ≠ hothSuccess ∧ result.2 = none ∧ final = start)

variable {tree}

/-- The settings change nothing of the files. -/
theorem spiSettings_ensures (options : LibhothSpiDeviceInitOptions) (fd : ℕ)
    (before : OwnFiles Node) :
    Ensures (ownFiles tree) (spiSettings options fd) before fun _ final ↦ final = before := by
  rw [spiSettings, ensures_bind, ensures_request]
  rintro bitsSet _ rfl
  cases bitsSet with
  | false => exact (ensures_done _ _ _).mpr rfl
  | true =>
    refine (ensures_bind _ _ _ _).mpr ((ensures_request _ _ _).mpr ?_)
    rintro modeSet _ rfl
    cases modeSet with
    | false => exact (ensures_done _ _ _).mpr rfl
    | true =>
      rw [if_neg (by decide)]
      split_ifs
      · exact (ensures_request _ _ _).mpr fun _ _ hstep ↦ hstep
      · exact (ensures_done _ _ _).mpr rfl

/-- A failure behind `err_out`, where the clean-up leaves what was there at the start. -/
theorem errOut_fails {node : Node} {context : Context} {before : OwnFiles Node}
    {fd dev userCtx : Option ℕ} {status : LibhothError} (hstatus : status ≠ hothSuccess)
    (hclean : before.cleanUp fd dev userCtx = start) :
    Ensures (ownFiles tree) (do errOut fd dev userCtx; return (status, none)) before
      (OpensOrNot start node context) := by
  rw [ensures_bind]
  refine (errOut_ensures tree before fd dev userCtx).mono fun _ final hfinal ↦ ?_
  exact (ensures_done _ _ _).mpr (.inr ⟨hstatus, rfl, hfinal.trans hclean⟩)

theorem cleanUp_fd (hclean : start.holding.Clean) {fd : ℕ}
    (hfd : start.holding.opened fd = none) (node : Node) :
    (start.openAt fd node).cleanUp (some fd) none none = start :=
  OwnFiles.closeAt_openAt hclean hfd node

/-- Closing a file and freeing a block commute. -/
theorem cleanUp_dev (hclean : start.holding.Clean) {fd dev : ℕ}
    (hfd : start.holding.opened fd = none) (hdev : dev ∉ start.blocks.owned) (node : Node) :
    ((start.openAt fd node).alloc dev).cleanUp (some fd) (some dev) none = start := by
  have hclosed : ((start.openAt fd node).alloc dev).closeAt fd = start.alloc dev :=
    congrArg (OwnFiles.alloc · dev) (OwnFiles.closeAt_openAt hclean hfd node)
  exact (congrArg (OwnFiles.free · dev) hclosed).trans (OwnFiles.free_alloc hdev)

theorem cleanUp_all (hclean : start.holding.Clean) {fd dev userCtx : ℕ}
    (hfd : start.holding.opened fd = none) (hdev : dev ∉ start.blocks.owned)
    (huserCtx : userCtx ∉ (start.blocks.alloc dev).owned) (node : Node) :
    (((start.openAt fd node).alloc dev).alloc userCtx).cleanUp (some fd) (some dev)
      (some userCtx) = start := by
  obtain ⟨hdistinct, huserCtx⟩ := Blocks.notMem_alloc_iff.mp huserCtx
  have hclosed : (((start.openAt fd node).alloc dev).alloc userCtx).closeAt fd =
      (start.alloc userCtx).alloc dev :=
    (congrArg (fun own ↦ OwnFiles.alloc (OwnFiles.alloc own dev) userCtx)
      (OwnFiles.closeAt_openAt hclean hfd node)).trans (OwnFiles.alloc_comm dev userCtx)
  have hdev' : dev ∉ (start.alloc userCtx).blocks.owned :=
    Blocks.notMem_alloc_iff.mpr ⟨hdistinct.symm, hdev⟩
  calc OwnFiles.cleanUp _ (some fd) (some dev) (some userCtx)
      = (((start.alloc userCtx).alloc dev).free dev).free userCtx :=
        congrArg (fun own ↦ OwnFiles.free (OwnFiles.free own dev) userCtx) hclosed
    _ = (start.alloc userCtx).free userCtx :=
        congrArg (OwnFiles.free · userCtx) (OwnFiles.free_alloc hdev')
    _ = start := OwnFiles.free_alloc huserCtx

/-- A device that is opened with the lock taken after the blocks. -/
theorem opensOrNot_locked {node : Node} {context : Context} {fd dev userCtx : ℕ}
    (hfd : start.holding.opened fd = none) (hdev : dev ∉ start.blocks.owned)
    (huserCtx : userCtx ∉ (start.blocks.alloc dev).owned) :
    OpensOrNot start node context (hothSuccess, some ⟨fd, dev, userCtx, context⟩)
      ((((start.openAt fd node).alloc dev).alloc userCtx).lockAt fd) :=
  .inl ⟨_, rfl, rfl, hfd, hdev, huserCtx, rfl⟩

/-- A claim through `libhoth_claim_device` takes the lock or changes nothing. -/
theorem libhothSpiClaim_within (before : OwnFiles Node) (fd : ℕ) (timeoutUs : UInt32) :
    Ensures (ownFiles tree) (claimWithin (libhothSpiClaim fd) timeoutUs) before
      fun status final ↦ (status = hothSuccess ∧ final = before.lockAt fd) ∨
        (status ≠ hothSuccess ∧ final = before) := by
  refine claimWithin_ensures tree ((flockClaim_ensures tree before fd _).mono ?_) timeoutUs
  rintro status final (hclaimed | ⟨rfl, rfl⟩)
  · exact .inl hclaimed
  · exact .inr ⟨by simp, rfl⟩

theorem cleanUp_lockAt {before : OwnFiles Node} {fd : ℕ} {dev userCtx : Option ℕ} :
    (before.lockAt fd).cleanUp (some fd) dev userCtx = before.cleanUp (some fd) dev userCtx := by
  simp only [OwnFiles.cleanUp, Option.elim_some, OwnFiles.closeAt_lockAt]

/-- Opening a SPI device gives a device of the path, or leaves what it found. -/
theorem libhothSpiOpen_ensures (options : LibhothSpiDeviceInitOptions)
    (hclean : start.holding.Clean) :
    Ensures (ownFiles tree) (libhothSpiOpen options) start
      (OpensOrNot start (tree.inode options.path) options.context) := by
  rw [libhothSpiOpen, ensures_bind, ensures_request]
  rintro (_ | fd) opened hopened
  · obtain rfl := hopened
    exact errOut_fails (by simp) rfl
  obtain ⟨hfd, rfl⟩ := hopened
  refine (ensures_bind _ _ _ _).mpr ((ensures_request _ _ _).mpr ?_)
  rintro (_ | dev) _ hcalloc
  · obtain rfl := hcalloc
    exact errOut_fails (by simp) (cleanUp_fd hclean hfd _)
  obtain ⟨hdev, rfl⟩ := hcalloc
  refine (ensures_bind _ _ _ _).mpr ((ensures_request _ _ _).mpr ?_)
  rintro (_ | userCtx) _ hcalloc
  · obtain rfl := hcalloc
    exact errOut_fails (by simp) (cleanUp_dev hclean hfd hdev _)
  obtain ⟨huserCtx, rfl⟩ := hcalloc
  have hcleaned := cleanUp_all hclean hfd hdev huserCtx (tree.inode options.path)
  refine (ensures_bind _ _ _ _).mpr ((libhothSpiClaim_within _ fd _).mono ?_)
  rintro status claimed (⟨rfl, rfl⟩ | ⟨hfailed, rfl⟩)
  · rw [if_neg (not_not_intro rfl)]
    refine (ensures_bind _ _ _ _).mpr ((spiSettings_ensures options fd _).mono ?_)
    rintro isSet _ rfl
    cases isSet with
    | false => exact errOut_fails (by simp) (cleanUp_lockAt.trans hcleaned)
    | true => exact (ensures_done _ _ _).mpr (opensOrNot_locked hfd hdev huserCtx)
  · rw [if_pos hfailed]
    exact errOut_fails hfailed hcleaned

/-- Opening an MTD file that is open, as far as the lock and the blocks. -/
theorem mtdOpenAt_ensures (mailbox : UInt32) {fd : ℕ} {node : Node}
    (hclean : start.holding.Clean) (hfd : start.holding.opened fd = none) :
    Ensures (ownFiles tree) (mtdOpenAt mailbox fd) (start.openAt fd node)
      (OpensOrNot start node (.mtd mailbox)) := by
  rw [mtdOpenAt, ensures_bind, ensures_request]
  rintro (_ | _) _ hlock
  · obtain rfl := hlock
    exact errOut_fails (by simp) (cleanUp_fd hclean hfd _)
  obtain rfl := hlock
  rw [if_neg (by decide)]
  refine (ensures_bind _ _ _ _).mpr ((ensures_request _ _ _).mpr ?_)
  rintro (_ | dev) _ hcalloc
  · obtain rfl := hcalloc
    exact errOut_fails (by simp) (cleanUp_lockAt.trans (cleanUp_fd hclean hfd _))
  obtain ⟨hdev, rfl⟩ := hcalloc
  refine (ensures_bind _ _ _ _).mpr ((ensures_request _ _ _).mpr ?_)
  rintro (_ | userCtx) _ hcalloc
  · obtain rfl := hcalloc
    exact errOut_fails (by simp) (cleanUp_lockAt.trans (cleanUp_dev hclean hfd hdev _))
  obtain ⟨huserCtx, rfl⟩ := hcalloc
  exact (ensures_done _ _ _).mpr (opensOrNot_locked hfd hdev huserCtx)

/-- What the listing leaves: its stream, and the buffer of its lines if there is one. -/
def Listed (tree : DeviceTree Node) (start : OwnFiles Node) (base : OwnFiles Node) : Prop :=
  ∃ (stream : ℕ) (line : Option ℕ), start.holding.opened stream = none ∧
    (∀ address ∈ line, address ∉ start.blocks.owned) ∧
      base = (start.openAt stream (tree.inode procMtd)).withBlock line

/-- What `mtd_open` leaves: the file of the path, or the one that the listing gives for the name
beside what the listing leaves, or nothing but that. -/
inductive MtdOpened (tree : DeviceTree Node) (path name : List UInt8) (start : OwnFiles Node) :
    Option ℕ → OwnFiles Node → Prop
  | missing (hpath : path ≠ []) : MtdOpened tree path name start none start
  | opened (hpath : path ≠ []) (fd : ℕ) (hfd : start.holding.opened fd = none) :
    MtdOpened tree path name start (some fd) (start.openAt fd (tree.inode path))
  | unlisted (hpath : path = []) : MtdOpened tree path name start none start
  | unnamed (hpath : path = []) (base : OwnFiles Node) (hbase : Listed tree start base) :
    MtdOpened tree path name start none base
  | named (hpath : path = []) (base : OwnFiles Node) (hbase : Listed tree start base)
    (entry : MtdEntry) (hentry : tree.devices.find? (·.name = name) = some entry) (fd : ℕ)
    (hfd : base.holding.opened fd = none) :
    MtdOpened tree path name start (some fd) (base.openAt fd (tree.inode (mtdPath entry.mtdId)))

/-- What is left behind some lines of the listing: the buffer, and the file of the device if it was
found and opened. -/
def FoundIn (tree : DeviceTree Node) (name : List UInt8) (entries : List MtdEntry)
    (start : OwnFiles Node) (result : Except Fault (Option ℕ)) (final : OwnFiles Node) : Prop :=
  ∃ line : Option ℕ, (∀ address ∈ line, address ∉ start.blocks.owned) ∧
    ((result = .ok none ∧ final = start.withBlock line) ∨
      ∃ entry fd, entries.find? (·.name = name) = some entry ∧
        start.holding.opened fd = none ∧ result = .ok (some fd) ∧
          final = (start.withBlock line).openAt fd (tree.inode (mtdPath entry.mtdId)))

/-- A call of `getline` changes the buffer alone. -/
theorem getline_ensures {buffer : Option ℕ} (before : OwnFiles Node)
    (hbuffer : ∀ address ∈ buffer, address ∉ before.blocks.owned) :
    Ensures (ownFiles tree) (request (FileCall.getline buffer)) (before.withBlock buffer)
      fun line final ↦ (∀ address ∈ line.buffer, address ∉ before.blocks.owned) ∧
        final = before.withBlock line.buffer := by
  rw [ensures_request]
  rintro line final ⟨blocks, hmoved, rfl⟩
  obtain ⟨hfree, rfl⟩ := hmoved.withBlock hbuffer
  exact ⟨hfree, rfl⟩

/-- The loop over the lines of some devices finds the first one with the name, unless a line cannot
be read before. -/
theorem openListed_ensures (name : List UInt8) (entries : List MtdEntry) {buffer : Option ℕ}
    {before : OwnFiles Node} (hbuffer : ∀ address ∈ buffer, address ∉ before.blocks.owned) :
    Ensures (ownFiles tree) (openListed name (entries.map MtdEntry.line) buffer)
      (before.withBlock buffer) (FoundIn tree name entries before) := by
  induction entries generalizing buffer with
  | nil =>
    rw [List.map_nil, openListed, ensures_bind]
    refine (getline_ensures before hbuffer).mono ?_
    rintro line _ ⟨hline, rfl⟩
    exact (ensures_done _ _ _).mpr ⟨line.buffer, hline, .inl ⟨rfl, rfl⟩⟩
  | cons entry entries ih =>
    rw [List.map_cons, openListed, ensures_bind]
    refine (getline_ensures before hbuffer).mono ?_
    rintro line _ ⟨hline, rfl⟩
    cases line with
    | ended left => exact (ensures_done _ _ _).mpr ⟨left, hline, .inl ⟨rfl, rfl⟩⟩
    | read left =>
      simp only [matchMtdLine_line]
      by_cases hname : entry.name = name
      · have hfirst : (entry :: entries).find? (·.name = name) = some entry :=
          List.find?_cons_of_pos (by simpa using hname)
        rw [if_pos hname]
        refine (ensures_bind _ _ _ _).mpr ((ensures_request _ _ _).mpr ?_)
        rintro (_ | fd) _ hopened
        · obtain rfl := hopened
          exact (ensures_done _ _ _).mpr ⟨some left, hline, .inl ⟨rfl, rfl⟩⟩
        · obtain ⟨hfd, rfl⟩ := hopened
          exact (ensures_done _ _ _).mpr
            ⟨some left, hline, .inr ⟨entry, fd, hfirst, hfd, rfl, rfl⟩⟩
      · have hlater : (entry :: entries).find? (·.name = name) =
            entries.find? (·.name = name) :=
          List.find?_cons_of_neg (by simpa using hname)
        rw [if_neg hname]
        refine (ih hline).mono ?_
        rintro result final ⟨line, hfree, hend⟩
        exact ⟨line, hfree, hlater ▸ hend⟩

/-- `mtd_open` reads the listing without a fault and leaves what `MtdOpened` says. -/
theorem mtdOpen_ensures (path name : List UInt8) :
    Ensures (ownFiles tree) (mtdOpen path name) start fun result final ↦
      ∃ fd, result = .ok fd ∧ MtdOpened tree path name start fd final := by
  rw [mtdOpen]
  split_ifs with hpath
  · rw [ensures_bind, ensures_request]
    rintro (_ | fd) _ hopened
    · obtain rfl := hopened
      exact (ensures_done _ _ _).mpr ⟨none, rfl, .missing hpath⟩
    · obtain ⟨hfd, rfl⟩ := hopened
      exact (ensures_done _ _ _).mpr ⟨some fd, rfl, .opened hpath fd hfd⟩
  · have hempty : path = [] := not_not.mp hpath
    rw [ensures_bind, ensures_request]
    rintro (_ | ⟨stream, lines⟩) _ hstream
    · obtain rfl := hstream
      exact (ensures_done _ _ _).mpr ⟨none, rfl, .unlisted hempty⟩
    obtain ⟨rfl, hstream, rfl⟩ := hstream
    have hnone : ∀ address ∈ (none : Option ℕ), address ∉ start.blocks.owned :=
      fun _ hmem ↦ (Option.not_mem_none _ hmem).elim
    -- the heading is a line like the others, and gives no number
    rw [listing]
    dsimp only
    rw [openListed, ensures_bind]
    refine (getline_ensures (start.openAt stream (tree.inode procMtd)) hnone).mono ?_
    rintro line _ ⟨hline, rfl⟩
    cases line with
    | ended left =>
      exact (ensures_done _ _ _).mpr
        ⟨none, rfl, .unnamed hempty _ ⟨stream, left, hstream, hline, rfl⟩⟩
    | read left =>
      simp only [matchMtdLine_headingLine]
      refine (openListed_ensures name tree.devices hline).mono ?_
      rintro _ _ ⟨line, hfree, ⟨rfl, rfl⟩ | ⟨entry, fd, hentry, hfd, rfl, rfl⟩⟩
      · exact ⟨none, rfl, .unnamed hempty _ ⟨stream, line, hstream, hfree, rfl⟩⟩
      · have hlisted : Listed tree start _ := ⟨stream, line, hstream, hfree, rfl⟩
        exact ⟨some fd, rfl, .named hempty _ hlisted entry hentry fd hfd⟩

/-- The node that an MTD device is opened on: that of its path, or else that of the first device in
the listing that has the name. -/
def Resolves (tree : DeviceTree Node) (path name : List UInt8) (node : Node) : Prop :=
  if path ≠ [] then node = tree.inode path
  else ∃ entry, tree.devices.find? (·.name = name) = some entry ∧
    node = tree.inode (mtdPath entry.mtdId)

/-- What an MTD open leaves beside the device: nothing, or what the listing leaves when it went by
the name. -/
inductive Beside (tree : DeviceTree Node) (path : List UInt8) (start : OwnFiles Node) :
    OwnFiles Node → Prop
  | nothing : Beside tree path start start
  | listed (hpath : path = []) (base : OwnFiles Node) (hbase : Listed tree start base) :
    Beside tree path start base

/-- What `mtd_open` leaves is a file on the node that is meant, beside what it leaves on failure. -/
theorem MtdOpened.beside {path name : List UInt8} {final : OwnFiles Node} {fd : Option ℕ}
    (hopened : MtdOpened tree path name start fd final) :
    ∃ base, Beside tree path start base ∧
      ((fd = none ∧ final = base) ∨ ∃ descriptor node, fd = some descriptor ∧
        Resolves tree path name node ∧ base.holding.opened descriptor = none ∧
          final = base.openAt descriptor node) := by
  cases hopened with
  | missing hpath => exact ⟨_, .nothing, .inl ⟨rfl, rfl⟩⟩
  | opened hpath fd hfd =>
    exact ⟨_, .nothing, .inr ⟨fd, _, rfl, (if_pos hpath).mpr rfl, hfd, rfl⟩⟩
  | unlisted hpath => exact ⟨_, .nothing, .inl ⟨rfl, rfl⟩⟩
  | unnamed hpath _ hbase => exact ⟨_, .listed hpath _ hbase, .inl ⟨rfl, rfl⟩⟩
  | named hpath base hbase entry hentry fd hfd =>
    refine ⟨base, .listed hpath base hbase, .inr ⟨fd, _, rfl, ?_, hfd, rfl⟩⟩
    exact (if_neg (not_not_intro hpath)).mpr ⟨entry, hentry, rfl⟩

theorem Beside.clean {path : List UInt8} {base : OwnFiles Node}
    (hbeside : Beside tree path start base) (hclean : start.holding.Clean) :
    base.holding.Clean := by
  cases hbeside with
  | nothing => exact hclean
  | listed hpath _ hbase =>
    obtain ⟨stream, line, -, -, rfl⟩ := hbase
    exact hclean.openAt stream _

/-- Opening an MTD device reads the listing without a fault and gives a device on the node that is
meant, or fails; on both paths the stream of the listing and the buffer of its lines may stay beside
it. -/
theorem libhothMtdOpen_ensures (options : LibhothMtdDeviceInitOptions)
    (hclean : start.holding.Clean) :
    Ensures (ownFiles tree) (libhothMtdOpen options) start fun result final ↦
      ∃ outcome base node, result = .ok outcome ∧ Beside tree options.path start base ∧
        OpensOrNot base node (.mtd options.mailbox) outcome final ∧
          (outcome.1 = hothSuccess → Resolves tree options.path options.name node) := by
  rw [libhothMtdOpen, ensures_bind]
  refine (mtdOpen_ensures options.path options.name).mono ?_
  rintro _ opened ⟨fd, rfl, hopened⟩
  obtain ⟨base, hbeside, ⟨rfl, rfl⟩ | ⟨fd, node, rfl, hresolves, hfd, rfl⟩⟩ := hopened.beside
  · dsimp only
    rw [ensures_bind]
    refine (errOut_ensures tree _ none none none).mono ?_
    rintro _ _ rfl
    refine (ensures_done _ _ _).mpr ?_
    refine ⟨_, _, tree.inode procMtd, rfl, hbeside, .inr ⟨?_, rfl, rfl⟩, ?_⟩
    · simp
    · simp
  · dsimp only
    rw [ensures_bind]
    refine (mtdOpenAt_ensures options.mailbox (hbeside.clean hclean) hfd).mono ?_
    intro outcome final houtcome
    exact (ensures_done _ _ _).mpr
      ⟨outcome, base, node, rfl, hbeside, houtcome, fun _ ↦ hresolves⟩

end Contracts

/-! ### A process among others -/

section Kernel

variable {Process Node : Type} [DecidableEq Process] [DecidableEq Node]

/-- The system of the example at its start: nothing is open and nothing is allocated. -/
def initialWorld (Process Node : Type) : DeviceWorld Process Node :=
  ⟨⟨fun _ _ ↦ none, fun _ ↦ none, fun _ _ _ howner ↦ nomatch howner⟩, fun _ ↦ ⟨∅, false⟩⟩

omit [DecidableEq Process] [DecidableEq Node] in
theorem clean_ownView (process : Process) (world : DeviceWorld Process Node) :
    (ownView process world).holding.Clean := by
  rintro fd hclosed ⟨node, howner⟩
  exact LockTable.owner_ne_of_closed hclosed node howner

/-- For a process among others an MTD open that succeeds has the file that is meant open, its lock
down as that of the new descriptor, and the device allocated. One that fails leaves what was there.
On both paths the listing may have left its stream and its buffer, and no other process sees a
change. -/
theorem libhothMtdOpen_locks (tree : DeviceTree Node) (options : LibhothMtdDeviceInitOptions)
    (process : Process) (world : DeviceWorld Process Node) :
    Ensures (kernelFiles tree process) (libhothMtdOpen options) world fun result final ↦
      ∃ outcome base, result = .ok outcome ∧
        Beside tree options.path (ownView process world) base ∧
        (∀ other, other ≠ process → ownView other final = ownView other world) ∧
        ((outcome.1 ≠ hothSuccess ∧ outcome.2 = none ∧ ownView process final = base) ∨
          ∃ handle node, outcome = (hothSuccess, some handle) ∧
            handle.context = .mtd options.mailbox ∧
            Resolves tree options.path options.name node ∧
            Opened base node handle (ownView process final) ∧
            final.table.owner node = some (process, handle.fd)) := by
  have hlocal : Ensures (localEnvironment (kernelFiles tree) ownView process)
      (libhothMtdOpen options) (ownView process world) _ :=
    fun result final hrun ↦ libhothMtdOpen_ensures options (clean_ownView process world) result
      final (hrun.mono_environment fun before call reply after hstep ↦
        ownFiles_of_kernelFiles tree process before after call reply hstep)
  refine (ensures_of_local (keepsApart_kernelFiles tree) hlocal).mono ?_
  rintro result final ⟨⟨outcome, base, node, hresult, hbeside, hopens, hresolves⟩, hothers⟩
  refine ⟨outcome, base, hresult, hbeside, hothers, ?_⟩
  rcases hopens with ⟨handle, rfl, hcontext, hopened⟩ | hfailed
  · have hview : (ownView process final).holding =
        (base.holding.openAt handle.fd node).lockAt handle.fd :=
      congrArg OwnFiles.holding hopened.final_eq
    have hholds : final.table.Holds process handle.fd :=
      (congrFun (congrArg Holding.holds hview) handle.fd).mpr
        (of_eq_true (Function.update_self _ _ _))
    have hnode : final.table.opened process handle.fd = some node :=
      (congrFun (congrArg Holding.opened hview) handle.fd).trans (Function.update_self _ _ _)
    exact .inr ⟨handle, node, rfl, hcontext, hresolves rfl, hopened,
      LockTable.owner_of_holds hholds hnode⟩
  · exact .inl hfailed

theorem word_one : Word [0x31] :=
  word_of_all (List.cons_ne_nil _ _) rfl (by decide)

theorem word_hoth : Word (quote :: [0x68, 0x6F, 0x74, 0x68] ++ [quote]) :=
  word_of_all (List.cons_ne_nil _ _) rfl (by decide)

/-- An MTD device that is named `hoth`. -/
def exampleEntry : MtdEntry :=
  ⟨0, [0x31], [0x31], [0x68, 0x6F, 0x74, 0x68], by decide, word_one, word_one,
    List.cons_ne_nil _ _, word_hoth⟩

/-- A system with that device, and paths by their length. -/
def exampleTree : DeviceTree ℕ where
  inode := List.length
  devices := [exampleEntry]

/-- Opening it by name can succeed, and then its file is locked. -/
theorem libhothMtdOpen_locks_hoth :
    Admits (kernelFiles exampleTree 0) (libhothMtdOpen ⟨[], exampleEntry.name, 0⟩)
      (initialWorld ℕ ℕ) fun result final ↦
        result = .ok (hothSuccess, some ⟨4, 1, 2, .mtd 0⟩) ∧
          final.table.owner (mtdPath 0).length = some (0, 4) := by
  have hopens : Admits (kernelFiles exampleTree 0) (libhothMtdOpen ⟨[], exampleEntry.name, 0⟩)
      (initialWorld ℕ ℕ) fun result _ ↦
        result = .ok (hothSuccess, some ⟨4, 1, 2, .mtd 0⟩) := by
    rw [libhothMtdOpen, admits_bind, mtdOpen, if_neg (not_not_intro rfl), admits_bind]
    refine admits_request (some (3, listing [exampleEntry])) ⟨rfl, rfl, rfl⟩ ?_
    dsimp only [listing]
    rw [openListed, admits_bind]
    refine admits_request (.read 5) ⟨_, ⟨by decide, rfl⟩, rfl⟩ ?_
    simp only [matchMtdLine_headingLine]
    rw [List.map_cons, openListed, admits_bind]
    refine admits_request (.read 5) ⟨_, ⟨by decide, rfl⟩, rfl⟩ ?_
    simp only [matchMtdLine_line, if_pos]
    refine (admits_bind _ _ _ _).mpr (admits_request (some 4) ⟨rfl, rfl⟩ (admits_done ?_))
    refine (admits_bind _ _ _ _).mpr ((admits_bind _ _ _ _).mpr ?_)
    refine admits_request true ⟨_, rfl, .inl rfl, rfl⟩ ?_
    refine (admits_bind _ _ _ _).mpr (admits_request (some 1) ⟨by decide, rfl⟩ ?_)
    refine (admits_bind _ _ _ _).mpr (admits_request (some 2) ⟨by decide, rfl⟩ ?_)
    exact admits_done (admits_done rfl)
  refine (hopens.and_ensures (libhothMtdOpen_locks exampleTree _ 0 _)).mono ?_
  rintro _ final ⟨rfl, outcome, base, houtcome, -, -, ⟨hfailed, -⟩ | ⟨handle, node, rfl, -,
    hresolves, -, howner⟩⟩
  · obtain rfl := Except.ok.inj houtcome
    exact absurd rfl hfailed
  · obtain rfl := Option.some.inj (Prod.mk.inj (Except.ok.inj houtcome)).2
    obtain ⟨entry, hentry, rfl⟩ := (if_neg (not_not_intro rfl)).mp hresolves
    obtain rfl : exampleEntry = entry := Option.some.inj hentry
    exact ⟨rfl, howner⟩

end Kernel

end Libhoth.Transports.DeviceOpen
