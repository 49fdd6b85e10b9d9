import Libhoth.Protocol.SpiOperation

/-!
# The SPI proxy

`spi_proxy.c`: updating a SPI flash behind the device. `libhothSpiProxyUpdate` walks over the data
page by page, erases a 64K block or a 4K sector when it reaches one that is not yet erased, and
sends three pages in one operation. Addresses are 32-bit words and wrap as the code's do.
-/

set_option autoImplicit false
set_option relaxedAutoImplicit false

namespace Libhoth.Protocol.SpiProxy

open Foundation.ByteString Foundation.CheckedAccess Foundation.InteractingProgram
open Status HostCommand HostCommandProgram SpiOperation

/-- `SPI_OP_PAGE_PROGRAM`. -/
def spiOpPageProgram : UInt8 := 0x02

/-- `SPI_OP_ERASE_4K`. -/
def spiOpErase4K : UInt8 := 0x20

/-- `SPI_OP_ERASE_64K`. -/
def spiOpErase64K : UInt8 := 0xd8

/-- `SPI_OP_WRITE_ENABLE`. -/
def spiOpWriteEnable : UInt8 := 0x06

/-- The transaction that enables the next write. -/
def spiWriteEnable (op : Operation) : Except Fault Operation := do
  let op ← spiOperationBeginTransaction op
  let op ← spiOperationWriteMosi op [spiOpWriteEnable]
  spiOperationEndTransaction op

/-- `spi_write_page`. -/
def spiWritePage (op : Operation) (is4Byte : Bool) (addr : UInt32) (buf : List UInt8) :
    Except Fault Operation := do
  let op ← spiWriteEnable op
  let op ← spiOperationBeginTransaction op
  let op ← spiOperationWriteMosi op [spiOpPageProgram]
  let op ← spiOperationWriteMosiAddress op is4Byte addr
  let op ← spiOperationWriteMosi op buf
  spiOperationEndTransaction op

/-- `spi_erase_generic`. -/
def spiEraseGeneric (op : Operation) (is4Byte : Bool) (addr : UInt32) (opcode : UInt8) :
    Except Fault Operation := do
  let op ← spiWriteEnable op
  let op ← spiOperationBeginTransaction op
  let op ← spiOperationWriteMosi op [opcode]
  let op ← spiOperationWriteMosiAddress op is4Byte addr
  spiOperationEndTransaction op

/-! ### The update -/

/-- `SPI_PAGE_SIZE`. -/
def spiPageSize : UInt32 := 256

/-- `MAX_PAGES_PER_OP`. -/
def maxPagesPerOp : ℕ := 3

/-- The state of the loop of `libhoth_spi_proxy_update`, where `cbuf` is what remains of the
data. -/
structure UpdateState where
  addr : UInt32
  cbuf : List UInt8
  op : Operation
  pagesInOp : ℕ
  needEraseAddr : UInt32

/-- `page_end`. -/
def pageEnd (addr : UInt32) : UInt32 :=
  (addr + spiPageSize) / spiPageSize * spiPageSize

/-- The choice between a block erase and a sector erase: the first address, the opcode, and the
first address after it. -/
def eraseChoice (addr : UInt32) (lenRemaining : ℕ) : UInt32 × UInt8 × UInt32 :=
  let eraseStart64k := addr / 65536 * 65536
  let eraseStart4k := addr / 4096 * 4096
  let eraseEnd64k := eraseStart64k + 65536
  let eraseEnd4k := eraseStart4k + 4096
  if (eraseStart64k ≥ addr ∨ eraseStart64k = eraseStart4k) ∧
      (eraseEnd64k.toNat ≤ (addr.toNat + lenRemaining) % 2 ^ 64 ∨ eraseEnd64k = eraseEnd4k) then
    (eraseStart64k, spiOpErase64K, eraseEnd64k)
  else (eraseStart4k, spiOpErase4K, eraseEnd4k)

/-- The erase of a round of the loop, if it needs one. -/
def eraseIfNeeded (is4Byte : Bool) (state : UpdateState) : Except Fault UpdateState :=
  if pageEnd state.addr > state.needEraseAddr then do
    let (eraseStart, opcode, eraseEnd) := eraseChoice state.addr state.cbuf.length
    let op ← spiEraseGeneric state.op is4Byte eraseStart opcode
    return { state with op := op, needEraseAddr := eraseEnd }
  else return state

/-- `write_len`: the rest of the page in `size_t` arithmetic, or all that remains. -/
def writeLen (addr : UInt32) (lenRemaining : ℕ) : ℕ :=
  min (((pageEnd addr).toNat + 2 ^ 64 - addr.toNat) % 2 ^ 64) lenRemaining

/-- The part of a round of the loop that builds the operation. -/
def addPage (is4Byte : Bool) (state : UpdateState) : Except Fault UpdateState := do
  let state ← eraseIfNeeded is4Byte state
  let len := writeLen state.addr state.cbuf.length
  let op ← spiWritePage state.op is4Byte state.addr (state.cbuf.take len)
  return { state with
    op := op
    cbuf := state.cbuf.drop len
    addr := state.addr + UInt32.ofNat len
    pagesInOp := state.pagesInOp + 1 }

/-- A page end is never the address itself. -/
theorem pageEnd_ne (addr : UInt32) : (pageEnd addr).toNat ≠ addr.toNat := by
  have haddr := addr.toNat_lt
  simp only [pageEnd, spiPageSize, UInt32.toNat_mul, UInt32.toNat_div, UInt32.toNat_add,
    UInt32.reduceToNat]
  omega

/-- A page takes at least one byte of what remains. -/
theorem writeLen_pos (addr : UInt32) {lenRemaining : ℕ} (hremaining : 0 < lenRemaining) :
    0 < writeLen addr lenRemaining := by
  have haddr := addr.toNat_lt
  have hend := (pageEnd addr).toNat_lt
  have hne := pageEnd_ne addr
  unfold writeLen
  omega

/-- An erase leaves the data of the loop alone. -/
theorem eraseIfNeeded_cbuf {is4Byte : Bool} {state next : UpdateState}
    (hnext : eraseIfNeeded is4Byte state = .ok next) : next.cbuf = state.cbuf := by
  unfold eraseIfNeeded at hnext
  split_ifs at hnext
  · cases herase : spiEraseGeneric state.op is4Byte (eraseChoice state.addr state.cbuf.length).1
      (eraseChoice state.addr state.cbuf.length).2.1 with
    | error fault => simp [herase] at hnext
    | ok op =>
      simp only [herase, ok_bind, pure_eq_ok, Except.ok.injEq] at hnext
      rw [← hnext]
  · rw [← Except.ok.inj hnext]

/-- A page takes data from the loop. -/
theorem addPage_length {is4Byte : Bool} {state next : UpdateState}
    (hnext : addPage is4Byte state = .ok next) (hremaining : state.cbuf ≠ []) :
    next.cbuf.length < state.cbuf.length := by
  unfold addPage at hnext
  cases herase : eraseIfNeeded is4Byte state with
  | error fault => simp [herase] at hnext
  | ok erased =>
    have hcbuf := eraseIfNeeded_cbuf herase
    have hlength := List.length_pos_of_ne_nil hremaining
    have hpos := writeLen_pos erased.addr hlength
    rw [herase, ok_bind, hcbuf] at hnext
    cases hpage : spiWritePage erased.op is4Byte erased.addr
      (state.cbuf.take (writeLen erased.addr state.cbuf.length)) with
    | error fault => simp [hpage] at hnext
    | ok op =>
      simp only [hpage, ok_bind, pure_eq_ok, Except.ok.injEq] at hnext
      rw [← hnext, List.length_drop]
      omega

/-- One round of the loop of `libhoth_spi_proxy_update`. -/
def updateRound (is4Byte : Bool) (state : UpdateState) :
    HostProgram ({next : UpdateState // next.cbuf.length < state.cbuf.length} ⊕
      Except Fault LibhothError) :=
  if hremaining : state.cbuf ≠ [] then
    match hnext : addPage is4Byte state with
    | .error fault => return .inr (.error fault)
    | .ok next =>
      have hlength := addPage_length hnext hremaining
      if next.pagesInOp ≥ maxPagesPerOp ∨ next.cbuf = [] then do
        match ← spiOperationExecute next.op with
        | .error status => return .inr (.ok status)
        | .ok _ => return .inl ⟨{ next with op := spiOperationInit, pagesInOp := 0 }, hlength⟩
      else return .inl ⟨next, hlength⟩
  else return .inr (.ok hothSuccess)

/-- `libhoth_spi_proxy_update`, without the progress report. -/
def libhothSpiProxyUpdate (is4Byte : Bool) (addr : UInt32) (buf : List UInt8) :
    HostProgram (Except Fault LibhothError) :=
  whileDecreasing (fun state : UpdateState ↦ state.cbuf.length) (updateRound is4Byte)
    { addr := addr
      cbuf := buf
      op := spiOperationInit
      pagesInOp := 0
      needEraseAddr := addr }

end Libhoth.Protocol.SpiProxy
