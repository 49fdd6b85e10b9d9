import Libhoth.Foundation.SpiNorFlash
import Libhoth.Protocol.SpiProxy

/-!
# The SPI proxy: what reaches the flash

`libhothSpiProxyUpdate_programs` is the contract of `libhoth_spi_proxy_update` below the last 64K
block of the address space: no assertion fails, the commands it sends are disciplined
(`Disciplined`), and after success the flash holds the data, the rest of the touched sectors is
erased and nothing else has changed.

`UpdateProgress` is the invariant of the loop. The commands that count are those already sent and
those still in the operation being built; `EraseMark` ties `need_erase_addr` to the sectors those
commands have erased.
-/

set_option autoImplicit false
set_option relaxedAutoImplicit false

namespace Libhoth.Protocol.SpiProxyUpdate

open Foundation.ByteString Foundation.CheckedAccess Foundation.InteractingProgram
open Foundation.NorFlash Foundation.SpiNorFlash
open Status HostCommand HostCommandProgram SpiOperation SpiProxy

/-- The number of address bytes of a mode. -/
def addressWidth (is4Byte : Bool) : ℕ :=
  if is4Byte then 4 else 3

/-- The flash that an update is meant to leave: the data, the erased rest of the sectors it
touches, and the original contents elsewhere. -/
def updatedFlash (addr : ℕ) (data : List UInt8) (original : ℕ → UInt8) (address : ℕ) : UInt8 :=
  if h : addr ≤ address ∧ address < addr + data.length then data[address - addr]
  else if data ≠ [] ∧ addr / 4096 * 4096 ≤ address ∧
      address < (addr + data.length + 4095) / 4096 * 4096 then 0xFF
  else original address

/-! ### Transactions and commands -/

/-- The commands of a list of transactions. -/
def commandsOf (is4Byte : Bool) (transactions : List SpiTransaction) : List SpiCommand :=
  transactions.map fun transaction ↦ decodeCommand (addressWidth is4Byte) transaction.mosi

/-- The transactions that the device reads in a run, in order. -/
def sentTransactions (history : HostHistory) : List SpiTransaction :=
  history.flatMap fun exchange ↦ (decodeTransactions exchange.1.payload).getD []

/-- The bytes of an address. -/
def addressBytes (is4Byte : Bool) (addr : UInt32) : List UInt8 :=
  (toLittleEndian (addressWidth is4Byte) addr.toNat).reverse

@[simp] theorem length_addressBytes (is4Byte : Bool) (addr : UInt32) :
    (addressBytes is4Byte addr).length = addressWidth is4Byte := by
  simp [addressBytes]

theorem addressWidth_le (is4Byte : Bool) : addressWidth is4Byte ≤ 4 := by
  cases is4Byte <;> decide

theorem pow_addressWidth_le (is4Byte : Bool) : 256 ^ addressWidth is4Byte ≤ 2 ^ 32 := by
  cases is4Byte <;> decide

theorem littleEndian_addressBytes {is4Byte : Bool} {addr : UInt32}
    (hfits : addr.toNat < 256 ^ addressWidth is4Byte) (data : List UInt8) :
    littleEndian (((addressBytes is4Byte addr ++ data).take (addressWidth is4Byte)).reverse) =
      addr.toNat := by
  rw [List.take_left' (length_addressBytes _ _), addressBytes, List.reverse_reverse]
  exact littleEndian_toLittleEndian_of_lt hfits

theorem decodeCommand_pageProgram {is4Byte : Bool} {addr : UInt32}
    (hfits : addr.toNat < 256 ^ addressWidth is4Byte) (data : List UInt8) :
    decodeCommand (addressWidth is4Byte)
      (spiOpPageProgram :: (addressBytes is4Byte addr ++ data)) = .program addr.toNat data := by
  simp only [decodeCommand, littleEndian_addressBytes hfits,
    List.drop_left' (length_addressBytes is4Byte addr)]
  rfl

theorem decodeCommand_erase4K {is4Byte : Bool} {addr : UInt32}
    (hfits : addr.toNat < 256 ^ addressWidth is4Byte) (haligned : addr.toNat % 4096 = 0) :
    decodeCommand (addressWidth is4Byte) (spiOpErase4K :: addressBytes is4Byte addr) =
      .erase addr.toNat 4096 := by
  have haddress := littleEndian_addressBytes hfits []
  rw [List.append_nil] at haddress
  simp only [decodeCommand, haddress, Nat.div_mul_cancel (Nat.dvd_of_mod_eq_zero haligned)]
  rfl

theorem decodeCommand_erase64K {is4Byte : Bool} {addr : UInt32}
    (hfits : addr.toNat < 256 ^ addressWidth is4Byte) (haligned : addr.toNat % 65536 = 0) :
    decodeCommand (addressWidth is4Byte) (spiOpErase64K :: addressBytes is4Byte addr) =
      .erase addr.toNat 65536 := by
  have haddress := littleEndian_addressBytes hfits []
  rw [List.append_nil] at haddress
  simp only [decodeCommand, haddress, Nat.div_mul_cancel (Nat.dvd_of_mod_eq_zero haligned)]
  rfl

/-! ### Building the transactions of a page -/

theorem length_encodeTransactions_snoc (transactions : List SpiTransaction) (mosi : List UInt8) :
    (encodeTransactions (transactions ++ [⟨mosi, 0⟩])).length =
      (encodeTransactions transactions).length + spiOperationRequestSize + mosi.length := by
  simp [encodeTransactions, SpiTransaction.length_encode]
  omega

variable {op : Operation} {transactions : List SpiTransaction}

/-- A write enable goes into an operation with room for it. -/
theorem spiWriteEnable_ok (hbuilds : Builds op transactions)
    (hcount : transactions.length < maxTransactions)
    (hroom : (encodeTransactions transactions).length + 5 < maxSpiOpPayloadBytes) :
    ∃ next, spiWriteEnable op = .ok next ∧
      Builds next (transactions ++ [⟨[spiOpWriteEnable], 0⟩]) := by
  obtain ⟨first, hfirst, hopened⟩ := beginTransaction_ok hbuilds hcount
    (by simp only [spiOperationRequestSize]; omega)
  obtain ⟨second, hsecond, hopened⟩ := writeMosi_ok hopened [spiOpWriteEnable]
    (by simp only [spiOperationRequestSize, List.length_nil, List.length_singleton]; omega)
  obtain ⟨last, hlast, hended⟩ := endTransaction_ok hopened hcount
  exact ⟨last, by simp [spiWriteEnable, hfirst, hsecond, hlast], hended⟩

/-- A write enable and the opcode and address of a command go into an operation with room. -/
theorem commandHead_ok (hbuilds : Builds op transactions)
    (hcount : transactions.length + 1 < maxTransactions)
    (hroom : (encodeTransactions transactions).length + 14 < maxSpiOpPayloadBytes)
    (is4Byte : Bool) (addr : UInt32) (opcode : UInt8) :
    ∃ enabled first second third, spiWriteEnable op = .ok enabled ∧
      spiOperationBeginTransaction enabled = .ok first ∧
      spiOperationWriteMosi first [opcode] = .ok second ∧
      spiOperationWriteMosiAddress second is4Byte addr = .ok third ∧
      Opened third (transactions ++ [⟨[spiOpWriteEnable], 0⟩])
        (opcode :: addressBytes is4Byte addr) := by
  have hwidth := addressWidth_le is4Byte
  obtain ⟨enabled, henabled, hbuilds⟩ := spiWriteEnable_ok hbuilds (by omega) (by omega)
  have hlength := length_encodeTransactions_snoc transactions [spiOpWriteEnable]
  simp only [spiOperationRequestSize, List.length_singleton] at hlength
  obtain ⟨first, hfirst, hopened⟩ := beginTransaction_ok hbuilds
    (by simp only [List.length_append, List.length_singleton]; omega)
    (by rw [hlength]; simp only [spiOperationRequestSize]; omega)
  obtain ⟨second, hsecond, hopened⟩ := writeMosi_ok hopened [opcode]
    (by rw [hlength]; simp only [spiOperationRequestSize, List.length_nil, List.length_singleton]
        omega)
  obtain ⟨third, hthird, hopened⟩ := writeMosi_ok hopened (addressBytes is4Byte addr)
    (by rw [hlength]; simp only [spiOperationRequestSize, List.length_append, List.length_nil,
          List.length_singleton, length_addressBytes]
        omega)
  exact ⟨enabled, first, second, third, henabled, hfirst, hsecond, hthird, hopened⟩

/-- An erase goes into an operation with room for it. -/
theorem spiEraseGeneric_ok (hbuilds : Builds op transactions)
    (hcount : transactions.length + 1 < maxTransactions)
    (hroom : (encodeTransactions transactions).length + 14 < maxSpiOpPayloadBytes)
    (is4Byte : Bool) (addr : UInt32) (opcode : UInt8) :
    ∃ next, spiEraseGeneric op is4Byte addr opcode = .ok next ∧
      Builds next (transactions ++ [⟨[spiOpWriteEnable], 0⟩] ++
        [⟨opcode :: addressBytes is4Byte addr, 0⟩]) := by
  obtain ⟨enabled, first, second, third, henabled, hfirst, hsecond, hthird, hopened⟩ :=
    commandHead_ok hbuilds hcount hroom is4Byte addr opcode
  obtain ⟨last, hlast, hended⟩ := endTransaction_ok hopened
    (by simp only [List.length_append, List.length_singleton]; omega)
  refine ⟨last, ?_, hended⟩
  simp [spiEraseGeneric, henabled, hfirst, hsecond, hthird, hlast]

/-- A page goes into an operation with room for it. -/
theorem spiWritePage_ok (hbuilds : Builds op transactions)
    (hcount : transactions.length + 1 < maxTransactions) (data : List UInt8)
    (hroom : (encodeTransactions transactions).length + 14 + data.length < maxSpiOpPayloadBytes)
    (is4Byte : Bool) (addr : UInt32) :
    ∃ next, spiWritePage op is4Byte addr data = .ok next ∧
      Builds next (transactions ++ [⟨[spiOpWriteEnable], 0⟩] ++
        [⟨spiOpPageProgram :: (addressBytes is4Byte addr ++ data), 0⟩]) := by
  have hwidth := addressWidth_le is4Byte
  have hlength := length_encodeTransactions_snoc transactions [spiOpWriteEnable]
  simp only [spiOperationRequestSize, List.length_singleton] at hlength
  obtain ⟨enabled, first, second, third, henabled, hfirst, hsecond, hthird, hopened⟩ :=
    commandHead_ok hbuilds hcount (by omega) is4Byte addr spiOpPageProgram
  obtain ⟨fourth, hfourth, hopened⟩ := writeMosi_ok hopened data
    (by rw [hlength]; simp only [spiOperationRequestSize, List.length_cons, length_addressBytes]
        omega)
  obtain ⟨last, hlast, hended⟩ := endTransaction_ok hopened
    (by simp only [List.length_append, List.length_singleton]; omega)
  refine ⟨last, ?_, by simpa using hended⟩
  simp [spiWritePage, henabled, hfirst, hsecond, hthird, hfourth, hlast]

/-! ### Addresses below the last block -/

/-- The address of a loop that is not yet through. -/
theorem toNat_add_ofNat_of_lt {addr : UInt32} {offset : ℕ}
    (hbelow : addr.toNat + offset < 2 ^ 32) :
    (addr + UInt32.ofNat offset).toNat = addr.toNat + offset := by
  rw [UInt32.toNat_add, UInt32.toNat_ofNat']
  omega

theorem toNat_sectorStart (addr : UInt32) :
    (addr / 4096 * 4096).toNat = addr.toNat / 4096 * 4096 := by
  have haddr := addr.toNat_lt
  simp only [UInt32.toNat_mul, UInt32.toNat_div, UInt32.reduceToNat]
  omega

theorem toNat_blockStart (addr : UInt32) :
    (addr / 65536 * 65536).toNat = addr.toNat / 65536 * 65536 := by
  have haddr := addr.toNat_lt
  simp only [UInt32.toNat_mul, UInt32.toNat_div, UInt32.reduceToNat]
  omega

section Addresses

variable {addr : UInt32} (hbelow : addr.toNat + 65536 < 2 ^ 32)
include hbelow

theorem toNat_pageEnd : (pageEnd addr).toNat = (addr.toNat / 256 + 1) * 256 := by
  simp only [pageEnd, spiPageSize, UInt32.toNat_mul, UInt32.toNat_div, UInt32.toNat_add,
    UInt32.reduceToNat]
  omega

/-- A page is filled to its end or takes all that remains. -/
theorem writeLen_eq (lenRemaining : ℕ) :
    writeLen addr lenRemaining =
      min ((addr.toNat / 256 + 1) * 256 - addr.toNat) lenRemaining := by
  rw [writeLen, toNat_pageEnd hbelow]
  omega

/-- An erase starts at the sector of the address. Either it is a sector, or it is a block that is
aligned and lies within the data. -/
theorem eraseChoice_spec (lenRemaining : ℕ) (hfits : addr.toNat + lenRemaining < 2 ^ 32) :
    ∃ eraseStart opcode eraseEnd, eraseChoice addr lenRemaining = (eraseStart, opcode, eraseEnd) ∧
      eraseStart.toNat = addr.toNat / 4096 * 4096 ∧
      (opcode = spiOpErase4K ∧ eraseEnd.toNat = eraseStart.toNat + 4096 ∨
        opcode = spiOpErase64K ∧ eraseEnd.toNat = eraseStart.toNat + 65536 ∧
          eraseStart.toNat % 65536 = 0 ∧ eraseEnd.toNat ≤ addr.toNat + lenRemaining) := by
  have hstart64 := toNat_blockStart addr
  have hstart4 := toNat_sectorStart addr
  have hend64 : (addr / 65536 * 65536 + 65536).toNat = addr.toNat / 65536 * 65536 + 65536 := by
    simp only [UInt32.toNat_add, hstart64, UInt32.reduceToNat]
    omega
  have hend4 : (addr / 4096 * 4096 + 4096).toNat = addr.toNat / 4096 * 4096 + 4096 := by
    simp only [UInt32.toNat_add, hstart4, UInt32.reduceToNat]
    omega
  simp only [eraseChoice]
  split_ifs with hblock
  · have hsum : (addr.toNat + lenRemaining) % 2 ^ 64 = addr.toNat + lenRemaining :=
      Nat.mod_eq_of_lt (by omega)
    simp only [ge_iff_le, UInt32.le_iff_toNat_le, ← UInt32.toNat_inj, hstart64, hstart4, hend64,
      hend4, hsum] at hblock
    refine ⟨_, _, _, rfl, ?_, .inr ⟨rfl, ?_⟩⟩
    · rw [hstart64]
      omega
    · rw [hend64, hstart64]
      refine ⟨rfl, Nat.mul_mod_left _ _, ?_⟩
      rcases hblock with ⟨hstart, hend | hend⟩
      · exact hend
      · omega
  · exact ⟨_, _, _, rfl, hstart4, .inl ⟨rfl, by rw [hend4, hstart4]⟩⟩

end Addresses

/-! ### The invariant of the loop -/

/-- What `need_erase_addr` says about the sectors erased up to `stop`: nothing was erased or
written yet, or it is the end of the erased sectors, which hold all that was written. -/
def EraseMark (base total written needErase stop : ℕ) : Prop :=
  (written = 0 ∧ needErase = base ∧ stop = base / 4096 * 4096) ∨
    (0 < total ∧ needErase = stop ∧ stop % 4096 = 0 ∧ base + written ≤ stop ∧
      stop ≤ (base + total + 4095) / 4096 * 4096)

/-- An update part way through. Of the data, `written` bytes were programmed by the commands issued
so far, which are those sent and those in the operation being built. -/
structure UpdateProgress (is4Byte : Bool) (base : ℕ) (data : List UInt8) (device : SpiFlash)
    (used ended written stop : ℕ) (pending : List SpiTransaction) (state : UpdateState)
    (history : HostHistory) : Prop where
  builds : Builds state.op pending
  fits : ∀ transaction ∈ pending, transaction.mosi.length < 2 ^ 16 ∧ transaction.misoLen < 2 ^ 16
  room : (encodeTransactions pending).length ≤ 284 * state.pagesInOp + used
  count : pending.length ≤ 4 * state.pagesInOp + ended
  addr : state.addr.toNat = base + written
  cbuf : state.cbuf = data.drop written
  bound : written ≤ data.length
  mark : EraseMark base data.length written state.needEraseAddr.toNat stop
  wellFormed : ∀ exchange ∈ history, exchange.1.command = spiOperationCommand ∧
    (decodeTransactions exchange.1.payload).isSome
  disciplined : Disciplined (commandsOf is4Byte (sentTransactions history ++ pending))
  programs : ∀ start bytes,
    .program start bytes ∈ commandsOf is4Byte (sentTransactions history ++ pending) →
      base ≤ start ∧ start + bytes.length ≤ base + written
  staged : Staged device.cells (base / 4096 * 4096) stop base data written
    (device.run (commandsOf is4Byte (sentTransactions history ++ pending))).cells

@[simp] theorem commandsOf_append (is4Byte : Bool) (first second : List SpiTransaction) :
    commandsOf is4Byte (first ++ second) = commandsOf is4Byte first ++ commandsOf is4Byte second :=
  List.map_append

@[simp] theorem commandsOf_singleton (is4Byte : Bool) (transaction : SpiTransaction) :
    commandsOf is4Byte [transaction] =
      [decodeCommand (addressWidth is4Byte) transaction.mosi] :=
  rfl

theorem decodeCommand_writeEnable (width : ℕ) :
    decodeCommand width [spiOpWriteEnable] = .writeEnable :=
  rfl

/-- The pending transactions and one more command with its write enable. -/
def withCommand (pending : List SpiTransaction) (mosi : List UInt8) : List SpiTransaction :=
  pending ++ [⟨[spiOpWriteEnable], 0⟩] ++ [⟨mosi, 0⟩]

theorem commandsOf_withCommand (is4Byte : Bool) (sent pending : List SpiTransaction)
    (mosi : List UInt8) :
    commandsOf is4Byte (sent ++ withCommand pending mosi) =
      commandsOf is4Byte (sent ++ pending) ++ [SpiCommand.writeEnable] ++
        [decodeCommand (addressWidth is4Byte) mosi] := by
  simp only [withCommand, ← List.append_assoc, commandsOf_append, commandsOf_singleton,
    decodeCommand_writeEnable]

theorem length_encode_withCommand (pending : List SpiTransaction) (mosi : List UInt8) :
    (encodeTransactions (withCommand pending mosi)).length =
      (encodeTransactions pending).length + 9 + mosi.length := by
  rw [withCommand, length_encodeTransactions_snoc, length_encodeTransactions_snoc]
  simp only [spiOperationRequestSize, List.length_cons, List.length_nil]

theorem fits_withCommand {pending : List SpiTransaction} {mosi : List UInt8}
    (hfits : ∀ transaction ∈ pending,
      transaction.mosi.length < 2 ^ 16 ∧ transaction.misoLen < 2 ^ 16)
    (hmosi : mosi.length < 2 ^ 16) (transaction : SpiTransaction)
    (hmem : transaction ∈ withCommand pending mosi) :
    transaction.mosi.length < 2 ^ 16 ∧ transaction.misoLen < 2 ^ 16 := by
  simp only [withCommand, List.mem_append, List.mem_singleton] at hmem
  rcases hmem with (hold | rfl) | rfl
  · exact hfits transaction hold
  · exact ⟨by decide, by decide⟩
  · exact ⟨hmosi, Nat.two_pow_pos 16⟩

variable {is4Byte : Bool} {base : ℕ} {data : List UInt8} {device : SpiFlash}
  {used ended written stop : ℕ} {pending : List SpiTransaction} {state : UpdateState}
  {history : HostHistory}

namespace UpdateProgress

/-- A page programs nothing before the first byte is written. -/
theorem programs_end_le
    (hprogress : UpdateProgress is4Byte base data device used ended written stop pending state
      history) (hmark : base + written ≤ stop ∨ written = 0) (start : ℕ) (bytes : List UInt8)
    (hmem : .program start bytes ∈ commandsOf is4Byte (sentTransactions history ++ pending)) :
    start + bytes.length ≤ stop := by
  obtain ⟨hlower, hupper⟩ := hprogress.programs start bytes hmem
  have hnonempty := List.length_pos_of_ne_nil (hprogress.disciplined.paged start bytes hmem).1
  omega

/-- Adding the transactions of an erase to the operation. -/
theorem erase
    (hprogress : UpdateProgress is4Byte base data device 0 0 written stop pending state history)
    (hmark : base + written ≤ stop ∨ written = 0) (hstart : base / 4096 * 4096 ≤ stop)
    {eraseStart eraseEnd : UInt32} {opcode : UInt8} {count : ℕ} {op : Operation}
    (hdecode : decodeCommand (addressWidth is4Byte) (opcode :: addressBytes is4Byte eraseStart) =
      .erase stop count)
    (hend : EraseMark base data.length written eraseEnd.toNat (stop + count))
    (hbuilds : Builds op (withCommand pending (opcode :: addressBytes is4Byte eraseStart))) :
    UpdateProgress is4Byte base data device 14 2 written (stop + count)
      (withCommand pending (opcode :: addressBytes is4Byte eraseStart))
      { state with op := op, needEraseAddr := eraseEnd } history := by
  have hwidth := addressWidth_le is4Byte
  have hmosi : (opcode :: addressBytes is4Byte eraseStart).length = 1 + addressWidth is4Byte := by
    rw [List.length_cons, length_addressBytes]
    omega
  have hcommands := commandsOf_withCommand is4Byte (sentTransactions history) pending
    (opcode :: addressBytes is4Byte eraseStart)
  rw [hdecode] at hcommands
  refine ⟨hbuilds, fits_withCommand hprogress.fits (by omega), ?_, ?_, hprogress.addr,
    hprogress.cbuf, hprogress.bound, hend, hprogress.wellFormed, ?_, ?_, ?_⟩
  · have hroom := hprogress.room
    rw [length_encode_withCommand]
    simp only
    omega
  · have hcount := hprogress.count
    simp only [withCommand, List.length_append, List.length_singleton]
    omega
  · rw [hcommands]
    exact hprogress.disciplined.snoc_erase (hprogress.programs_end_le hmark)
  · intro start bytes hmem
    rw [hcommands] at hmem
    exact hprogress.programs start bytes (by simpa using hmem)
  · rw [hcommands, run_enabled_erase]
    exact hprogress.staged.erase hstart hmark

/-- Adding the transactions of a page to the operation. -/
theorem page
    (hprogress : UpdateProgress is4Byte base data device 14 2 written stop pending state history)
    (len : ℕ) (hpos : 0 < len) (hinside : written + len ≤ data.length) (hlen : len ≤ 256)
    (hpage : (base + written) / 256 = (base + written + len - 1) / 256)
    (hstop : base + written + len ≤ stop) (hneed : state.needEraseAddr.toNat = stop)
    (haligned : stop % 4096 = 0) (hlimit : stop ≤ (base + data.length + 4095) / 4096 * 4096)
    (haddr : base + written + len < 2 ^ 32)
    (hfits : state.addr.toNat < 256 ^ addressWidth is4Byte) {op : Operation}
    (hbuilds : Builds op (withCommand pending
      (spiOpPageProgram :: (addressBytes is4Byte state.addr ++ state.cbuf.take len)))) :
    UpdateProgress is4Byte base data device 0 0 (written + len) stop
      (withCommand pending
        (spiOpPageProgram :: (addressBytes is4Byte state.addr ++ state.cbuf.take len)))
      { state with
        op := op
        cbuf := state.cbuf.drop len
        addr := state.addr + UInt32.ofNat len
        pagesInOp := state.pagesInOp + 1 } history := by
  have hwidth := addressWidth_le is4Byte
  have hlength : (state.cbuf.take len).length = len := by
    rw [hprogress.cbuf, List.length_take, List.length_drop]
    omega
  have hmosi : (spiOpPageProgram :: (addressBytes is4Byte state.addr ++
      state.cbuf.take len)).length = 1 + addressWidth is4Byte + len := by
    rw [List.length_cons, List.length_append, length_addressBytes, hlength]
    omega
  have hcommands := commandsOf_withCommand is4Byte (sentTransactions history) pending
    (spiOpPageProgram :: (addressBytes is4Byte state.addr ++ state.cbuf.take len))
  rw [decodeCommand_pageProgram hfits, hprogress.addr] at hcommands
  refine ⟨hbuilds, fits_withCommand hprogress.fits (by omega), ?_, ?_, ?_, ?_, hinside, ?_,
    hprogress.wellFormed, ?_, ?_, ?_⟩
  · have hroom := hprogress.room
    rw [length_encode_withCommand]
    simp only
    omega
  · have hcount := hprogress.count
    simp only [withCommand, List.length_append, List.length_singleton]
    omega
  · rw [toNat_add_ofNat_of_lt (by rw [hprogress.addr]; exact haddr), hprogress.addr,
      Nat.add_assoc]
  · rw [hprogress.cbuf, List.drop_drop]
  · exact .inr ⟨by omega, hneed, haligned, by omega, hlimit⟩
  · rw [hcommands]
    refine hprogress.disciplined.snoc_program ?_ (by rw [hlength]; exact hpage)
    exact List.ne_nil_of_length_pos (by omega)
  · intro start bytes hmem
    rw [hcommands] at hmem
    simp only [List.mem_append, List.mem_singleton, reduceCtorEq, or_false] at hmem
    rcases hmem with hold | hnew
    · obtain ⟨hlower, hupper⟩ := hprogress.programs start bytes hold
      exact ⟨hlower, by omega⟩
    · obtain ⟨rfl, rfl⟩ := SpiCommand.program.inj hnew
      exact ⟨by omega, by omega⟩
  · rw [hcommands, run_enabled_program]
    have hprogram := hprogress.staged.program (state.cbuf.take len) (fun index hindex ↦ by
        rw [List.getElem_take, List.getElem_of_eq hprogress.cbuf, List.getElem_drop]
        exact List.getElem?_eq_getElem _) (by omega) (by omega)
    rwa [hlength] at hprogram

/-- Nothing needs to be erased: the allowance for an erase stays unused. -/
theorem mono
    (hprogress : UpdateProgress is4Byte base data device 0 0 written stop pending state history) :
    UpdateProgress is4Byte base data device 14 2 written stop pending state history :=
  { hprogress with
    room := hprogress.room.trans (Nat.le_add_right _ _)
    count := hprogress.count.trans (Nat.le_add_right _ _) }

end UpdateProgress

/-! ### One page -/

/-- The erase of a round never fails an assertion, and after it the page is erased. -/
theorem eraseIfNeeded_ok
    (hprogress : UpdateProgress is4Byte base data device 0 0 written stop pending state history)
    (hmore : written < data.length) (hpages : state.pagesInOp < maxPagesPerOp)
    (hlimit : base + data.length ≤ 2 ^ 32 - 65536)
    (hwidth : base + data.length ≤ 256 ^ addressWidth is4Byte) :
    ∃ next nextStop nextPending, eraseIfNeeded is4Byte state = .ok next ∧
      UpdateProgress is4Byte base data device 14 2 written nextStop nextPending next history ∧
      next.addr = state.addr ∧ next.cbuf = state.cbuf ∧ next.pagesInOp = state.pagesInOp ∧
      next.needEraseAddr.toNat = nextStop ∧ nextStop % 4096 = 0 ∧
      nextStop ≤ (base + data.length + 4095) / 4096 * 4096 ∧
      ((base + written) / 256 + 1) * 256 ≤ nextStop := by
  have haddr := hprogress.addr
  have hmark := hprogress.mark
  have hremaining : state.cbuf.length = data.length - written := by
    rw [hprogress.cbuf, List.length_drop]
  have hbelow : state.addr.toNat + 65536 < 2 ^ 32 := by omega
  have hend := toNat_pageEnd hbelow
  rw [haddr] at hend
  unfold eraseIfNeeded
  unfold EraseMark at hmark
  split_ifs with hneeded
  · rw [gt_iff_lt, UInt32.lt_iff_toNat_lt, hend] at hneeded
    obtain ⟨eraseStart, opcode, eraseEnd, hchoice, hstart, hkind⟩ :=
      eraseChoice_spec hbelow state.cbuf.length (by omega)
    rw [haddr] at hstart hkind
    rw [hremaining] at hkind
    have hroom := hprogress.room
    have hcount := hprogress.count
    simp only [maxPagesPerOp] at hpages
    obtain ⟨op, hop, hbuilds⟩ := spiEraseGeneric_ok hprogress.builds
      (by simp only [maxTransactions]; omega) (by simp only [maxSpiOpPayloadBytes]; omega) is4Byte
      eraseStart opcode
    have hfits : eraseStart.toNat < 256 ^ addressWidth is4Byte := by omega
    have hstop : stop = eraseStart.toNat := by omega
    simp only [hchoice, hop, ok_bind, pure_eq_ok]
    rcases hkind with ⟨rfl, heraseEnd⟩ | ⟨rfl, heraseEnd, hblock, hinside⟩
    · have hdecode := decodeCommand_erase4K hfits (by omega)
      rw [← hstop] at hdecode heraseEnd
      exact ⟨_, stop + 4096, _, rfl,
        hprogress.erase (by omega) (by omega) hdecode (.inr (by omega)) hbuilds,
        rfl, rfl, rfl, heraseEnd, by omega, by omega, by omega⟩
    · have hdecode := decodeCommand_erase64K hfits hblock
      rw [← hstop] at hdecode heraseEnd hblock
      exact ⟨_, stop + 65536, _, rfl,
        hprogress.erase (by omega) (by omega) hdecode (.inr (by omega)) hbuilds,
        rfl, rfl, rfl, heraseEnd, by omega, by omega, by omega⟩
  · rw [gt_iff_lt, UInt32.lt_iff_toNat_lt, hend] at hneeded
    exact ⟨state, stop, pending, rfl, hprogress.mono, rfl, rfl, rfl, by omega, by omega, by omega,
      by omega⟩

/-- A page never fails an assertion, and takes the update forward. -/
theorem addPage_ok
    (hprogress : UpdateProgress is4Byte base data device 0 0 written stop pending state history)
    (hmore : written < data.length) (hpages : state.pagesInOp < maxPagesPerOp)
    (hlimit : base + data.length ≤ 2 ^ 32 - 65536)
    (hwidth : base + data.length ≤ 256 ^ addressWidth is4Byte) :
    ∃ next nextWritten nextStop nextPending, addPage is4Byte state = .ok next ∧
      UpdateProgress is4Byte base data device 0 0 nextWritten nextStop nextPending next history ∧
      next.pagesInOp = state.pagesInOp + 1 := by
  obtain ⟨erased, nextStop, nextPending, herased, hprogress, haddr, hcbuf, hpagesInOp, hneed,
    haligned, hroundUp, hpageStop⟩ := eraseIfNeeded_ok hprogress hmore hpages hlimit hwidth
  have hbase := hprogress.addr
  have hremaining : erased.cbuf.length = data.length - written := by
    rw [hprogress.cbuf, List.length_drop]
  have hbelow : erased.addr.toNat + 65536 < 2 ^ 32 := by omega
  have hlen := writeLen_eq hbelow erased.cbuf.length
  rw [hremaining, hbase] at hlen
  have htake : (erased.cbuf.take (writeLen erased.addr (data.length - written))).length =
      writeLen erased.addr (data.length - written) := by
    rw [List.length_take, hremaining]
    exact Nat.min_eq_left (Nat.min_le_right _ _)
  have hroom := hprogress.room
  have hcount := hprogress.count
  simp only [maxPagesPerOp] at hpages
  obtain ⟨op, hop, hbuilds⟩ := spiWritePage_ok hprogress.builds
    (by simp only [maxTransactions]; omega)
    (erased.cbuf.take (writeLen erased.addr (data.length - written)))
    (by rw [htake]; simp only [maxSpiOpPayloadBytes]; omega) is4Byte erased.addr
  have hpage := hprogress.page (writeLen erased.addr (data.length - written))
    (by omega) (by omega) (by omega) (by omega) (by omega) hneed haligned hroundUp (by omega)
    (by omega) hbuilds
  refine ⟨_, _, _, _, ?_, hpage, by rw [← hpagesInOp]⟩
  unfold addPage
  simp only [herased, hremaining, hop, ok_bind, pure_eq_ok]

/-! ### The contract -/

/-- What an update owes its caller, whatever the device answers: the requests are well formed, the
commands in them are disciplined, and on success they leave the meant flash on a chip that executes
them in order. -/
structure SpiUpdateContract (is4Byte : Bool) (addr : ℕ) (data : List UInt8) (device : SpiFlash)
    (err : LibhothError) (history : HostHistory) : Prop where
  wellFormed : ∀ exchange ∈ history, exchange.1.command = spiOperationCommand ∧
    (decodeTransactions exchange.1.payload).isSome
  disciplined : Disciplined (commandsOf is4Byte (sentTransactions history))
  programmed : err = hothSuccess →
    (device.run (commandsOf is4Byte (sentTransactions history))).cells =
      updatedFlash addr data device.cells

/-- Before the first page. -/
theorem UpdateProgress.initial (is4Byte : Bool) (addr : UInt32) (data : List UInt8)
    (device : SpiFlash) :
    UpdateProgress is4Byte addr.toNat data device 0 0 0 (addr.toNat / 4096 * 4096) []
      { addr := addr, cbuf := data, op := spiOperationInit, pagesInOp := 0, needEraseAddr := addr }
      [] where
  builds := .init
  fits := by simp
  room := by simp [encodeTransactions]
  count := by simp
  addr := rfl
  cbuf := rfl
  bound := Nat.zero_le _
  mark := .inl ⟨rfl, rfl, rfl⟩
  wellFormed := by simp
  disciplined := .nil
  programs := by simp [commandsOf, sentTransactions]
  staged := Staged.initial device.cells _ _ data

/-- The device reads the pending transactions back from the operation. -/
theorem decodeTransactions_call {op : Operation} (hbuilds : Builds op pending)
    (hfits : ∀ transaction ∈ pending,
      transaction.mosi.length < 2 ^ 16 ∧ transaction.misoLen < 2 ^ 16) :
    decodeTransactions (spiOperationCall op).payload = some pending := by
  rw [spiOperationCall, hbuilds.buf]
  exact decodeTransactions_encode pending hfits

/-- Executing an operation sends its transactions. -/
theorem sentTransactions_snoc {op : Operation} (hbuilds : Builds op pending)
    (hfits : ∀ transaction ∈ pending,
      transaction.mosi.length < 2 ^ 16 ∧ transaction.misoLen < 2 ^ 16)
    (history : HostHistory) (reply : HostReply (spiOperationCall op)) :
    sentTransactions (history ++ [⟨spiOperationCall op, reply⟩]) =
      sentTransactions history ++ pending := by
  rw [sentTransactions, List.flatMap_append, List.flatMap_singleton,
    decodeTransactions_call hbuilds hfits]
  rfl

/-- Executing the operation turns its transactions into sent ones. -/
theorem UpdateProgress.execute
    (hprogress : UpdateProgress is4Byte base data device 0 0 written stop pending state history)
    (reply : HostReply (spiOperationCall state.op)) :
    UpdateProgress is4Byte base data device 0 0 written stop []
      { state with op := spiOperationInit, pagesInOp := 0 }
      (history ++ [⟨spiOperationCall state.op, reply⟩]) := by
  have hpayload := decodeTransactions_call hprogress.builds hprogress.fits
  have hsent := (List.append_nil _).trans
    (sentTransactions_snoc hprogress.builds hprogress.fits history reply)
  refine ⟨.init, by simp, by simp [encodeTransactions], by simp, hprogress.addr, hprogress.cbuf,
    hprogress.bound, hprogress.mark, ?_, ?_, ?_, ?_⟩
  · exact forall_mem_snoc hprogress.wellFormed ⟨rfl, by rw [hpayload]; rfl⟩
  · rw [hsent]
    exact hprogress.disciplined
  · rw [hsent]
    exact hprogress.programs
  · rw [hsent]
    exact hprogress.staged

/-- An update that ended early still kept the discipline. -/
theorem UpdateProgress.contract_of_failed
    (hprogress : UpdateProgress is4Byte base data device used ended written stop [] state history)
    {err : LibhothError} (herr : err ≠ hothSuccess) :
    SpiUpdateContract is4Byte base data device err history where
  wellFormed := hprogress.wellFormed
  disciplined := by simpa using hprogress.disciplined
  programmed := fun hsuccess ↦ absurd hsuccess herr

/-- An update that sent all of the data leaves the meant flash. -/
theorem UpdateProgress.contract_of_done
    (hprogress : UpdateProgress is4Byte base data device used ended data.length stop [] state
      history) (err : LibhothError) :
    SpiUpdateContract is4Byte base data device err history where
  wellFormed := hprogress.wellFormed
  disciplined := by simpa using hprogress.disciplined
  programmed := by
    intro _
    have hmark := hprogress.mark
    have hstaged := hprogress.staged
    rw [List.append_nil] at hstaged
    funext address
    obtain ⟨hdata, herased, hkept⟩ := hstaged address
    unfold EraseMark at hmark
    unfold updatedFlash
    split_ifs with hinside hsector
    · have hbyte := hdata hinside.1 hinside.2
      rw [List.getElem?_eq_getElem (by omega)] at hbyte
      exact (Option.some.inj hbyte).symm
    · have hpos := List.length_pos_of_ne_nil hsector.1
      exact herased hsector.2.1 (by omega) hinside
    · by_cases hempty : data = []
      · rw [hempty, List.length_nil] at hmark
        exact hkept (by omega) hinside
      · refine hkept (fun hrange ↦ hsector ⟨hempty, hrange.1, ?_⟩) hinside
        omega

/-- A round with data left: its page stays in the operation, or the operation is executed and the
update ends with its error or goes on. -/
theorem ensures_updateRound {next : UpdateState} (hadd : addPage is4Byte state = .ok next)
    (hremaining : state.cbuf ≠ [])
    {post : {next : UpdateState // next.cbuf.length < state.cbuf.length} ⊕
      Except Fault LibhothError → HostHistory → Prop}
    (hadded : next.pagesInOp < maxPagesPerOp → next.cbuf ≠ [] → ∀ hlength,
      post (.inl ⟨next, hlength⟩) history)
    (hfailed : ∀ (reply : HostReply (spiOperationCall next.op)) (status : LibhothError),
      status ≠ hothSuccess → (∀ response fits, reply = .accepted response fits →
        spiOperationCopyMiso response next.op.transactions 0 = none) →
      post (.inr (.ok status)) (history ++ [⟨spiOperationCall next.op, reply⟩]))
    (hexecuted : ∀ (reply : HostReply (spiOperationCall next.op)) hlength,
      post (.inl ⟨{ next with op := spiOperationInit, pagesInOp := 0 }, hlength⟩)
        (history ++ [⟨spiOperationCall next.op, reply⟩])) :
    Ensures recording (updateRound is4Byte state) history post := by
  rw [updateRound, dif_pos hremaining]
  split
  · rename_i hfault
    rw [hadd] at hfault
    cases hfault
  · rename_i other hother
    obtain rfl : next = other := Except.ok.inj (hadd.symm.trans hother)
    simp only
    split_ifs with hfull
    · simp only [spiOperationExecute, hostcmdExec, ensures_bind, ensures_request, recording_iff]
      rintro reply _ rfl
      cases reply with
      | failed status nonzero =>
        simp only [pure_eq_done, ensures_done]
        exact hfailed _ status nonzero fun _ _ h ↦ by cases h
      | accepted response fits =>
        cases hcopied : spiOperationCopyMiso response next.op.transactions 0 with
        | none =>
          simp only [hcopied, pure_eq_done, ensures_done]
          refine hfailed _ _ (cmdExecStatus_ne_success _) fun other _ h ↦ ?_
          obtain rfl := (HostReply.accepted.inj h).symm
          exact hcopied
        | some copied =>
          simp only [hcopied, pure_eq_done, ensures_done]
          exact hexecuted _ _
    · obtain ⟨hroom, hmore⟩ := not_or.mp hfull
      exact (ensures_done _ _ _).mpr (hadded (not_le.mp hroom) hmore _)

/-- One round keeps the invariant, or ends the update in its contract. -/
theorem updateRound_ensures
    (hprogress : UpdateProgress is4Byte base data device 0 0 written stop pending state history)
    (hpages : state.pagesInOp < maxPagesPerOp) (hflushed : state.cbuf = [] → pending = [])
    (hlimit : base + data.length ≤ 2 ^ 32 - 65536)
    (hwidth : base + data.length ≤ 256 ^ addressWidth is4Byte) :
    Ensures recording (updateRound is4Byte state) history fun outcome final ↦
      match outcome with
      | .inl next => ∃ written stop pending,
          UpdateProgress is4Byte base data device 0 0 written stop pending next.val final ∧
            next.val.pagesInOp < maxPagesPerOp ∧ (next.val.cbuf = [] → pending = [])
      | .inr result => ∃ err, result = .ok err ∧
          SpiUpdateContract is4Byte base data device err final := by
  have hcbuf := hprogress.cbuf
  have hbound := hprogress.bound
  by_cases hremaining : state.cbuf = []
  · rw [updateRound, dif_neg (not_not.mpr hremaining), pure_eq_done, ensures_done]
    rw [hflushed hremaining] at hprogress
    rw [hcbuf, List.drop_eq_nil_iff] at hremaining
    obtain rfl : written = data.length := by omega
    exact ⟨_, rfl, hprogress.contract_of_done _⟩
  · have hmore : written < data.length := by
      rw [hcbuf, List.drop_eq_nil_iff] at hremaining
      omega
    obtain ⟨next, nextWritten, nextStop, nextPending, hadd, hnext, hcount⟩ :=
      addPage_ok hprogress hmore hpages hlimit hwidth
    refine ensures_updateRound hadd hremaining (fun hroom hdata _ ↦ ?_)
      (fun reply status hstatus _ ↦ ?_) (fun reply _ ↦ ?_)
    · exact ⟨_, _, _, hnext, hroom, fun hempty ↦ absurd hempty hdata⟩
    · exact ⟨status, rfl, (hnext.execute reply).contract_of_failed hstatus⟩
    · exact ⟨_, _, _, hnext.execute reply, Nat.zero_lt_succ 2, fun _ ↦ rfl⟩

/-- A range below the last block of its address space. -/
theorem bounds_of_limit {is4Byte : Bool} {stop : ℕ}
    (hlimit : if is4Byte then stop ≤ 2 ^ 32 - 65536 else stop ≤ 2 ^ 24) :
    stop ≤ 2 ^ 32 - 65536 ∧ stop ≤ 256 ^ addressWidth is4Byte := by
  cases is4Byte <;>
    simp only [addressWidth, Bool.false_eq_true, if_false, if_true] at hlimit ⊢ <;> omega

/-- Every run of `libhoth_spi_proxy_update` below the last 64K block of the address space returns
an error word, so no assertion fails in it, and meets the contract: for every address and data,
every device, every flash and state of its latch. -/
theorem libhothSpiProxyUpdate_programs (is4Byte : Bool) (addr : UInt32) (data : List UInt8)
    (device : SpiFlash) (result : Except Fault LibhothError) (history : HostHistory)
    (hlimit : if is4Byte then addr.toNat + data.length ≤ 2 ^ 32 - 65536
      else addr.toNat + data.length ≤ 2 ^ 24)
    (hrun : Runs recording (libhothSpiProxyUpdate is4Byte addr data) [] result history) :
    ∃ err, result = .ok err ∧
      SpiUpdateContract is4Byte addr.toNat data device err history := by
  obtain ⟨hbelow, hwidth⟩ := bounds_of_limit hlimit
  suffices hensures : Ensures recording (libhothSpiProxyUpdate is4Byte addr data) []
      fun result history ↦ ∃ err, result = .ok err ∧
        SpiUpdateContract is4Byte addr.toNat data device err history from
    hensures result history hrun
  exact whileDecreasing_ensures
    (fun state history ↦ ∃ written stop pending,
      UpdateProgress is4Byte addr.toNat data device 0 0 written stop pending state history ∧
        state.pagesInOp < maxPagesPerOp ∧ (state.cbuf = [] → pending = []))
    (fun state history ⟨written, stop, pending, hprogress, hpages, hflushed⟩ ↦
      (updateRound_ensures hprogress hpages hflushed hbelow hwidth).mono fun outcome _ houtcome ↦ by
        cases outcome <;> exact houtcome)
    _ [] ⟨0, _, [], .initial is4Byte addr data device, Nat.zero_lt_succ 2, fun _ ↦ rfl⟩

/-- One byte at address zero on a device that accepts everything: the byte and an erased sector. -/
theorem libhothSpiProxyUpdate_programs_one_byte :
    ∃ history, Runs recording (libhothSpiProxyUpdate true 0 [0xA5]) [] (.ok hothSuccess) history ∧
      (SpiFlash.run ⟨fun _ ↦ 0x00, false⟩ (commandsOf true (sentTransactions history))).cells =
        updatedFlash 0 [0xA5] fun _ ↦ 0x00 := by
  have hround : Runs recording (updateRound true ⟨0, [0xA5], spiOperationInit, 0, 0⟩) []
      (.inl ⟨⟨1, [], spiOperationInit, 0, 4096⟩, by decide⟩)
      [⟨spiOperationCall ⟨[1, 0, 0, 0, 0x06, 5, 0, 0, 0, 0x20, 0, 0, 0, 0, 1, 0, 0, 0, 0x06,
          6, 0, 0, 0, 0x02, 0, 0, 0, 0, 0xA5], 19,
          [⟨1, false, 0⟩, ⟨5, false, 0⟩, ⟨1, false, 0⟩, ⟨6, false, 0⟩]⟩,
        .accepted [] (Nat.zero_le _)⟩] :=
    ⟨.accepted [] (Nat.zero_le _), _, rfl, rfl, rfl⟩
  have hrun : Runs recording (libhothSpiProxyUpdate true 0 [0xA5]) [] (.ok hothSuccess) _ :=
    (runs_whileDecreasing _ _ _ _).mpr ⟨_, _, hround,
      (runs_whileDecreasing _ _ _ _).mpr ⟨.inr (.ok hothSuccess), _, ⟨rfl, rfl⟩, rfl, rfl⟩⟩
  obtain ⟨err, herr, hcontract⟩ :=
    libhothSpiProxyUpdate_programs true 0 [0xA5] ⟨fun _ ↦ 0x00, false⟩ _ _ (by decide) hrun
  exact ⟨_, hrun, hcontract.programmed (Except.ok.inj herr).symm⟩

end Libhoth.Protocol.SpiProxyUpdate
