import Libhoth.Foundation.RecordedRuns
import Libhoth.Protocol.SpiProxyRead
import Libhoth.Protocol.SpiProxyTop

/-!
# The SPI proxy on a chip with two address modes

A large SPI NOR chip takes three address bytes or four, and `libhoth_spi_proxy_init` sends the
command that switches to four. `Chip` is a flash with its mode. `proxyDevice` is a device that
carries out the SPI operations of its host command on such a chip, or fails and leaves the chip in
any state.

The updates, reads and verifications of `spi_proxy.c` never send the command that switches
(`Harmless`), so that the mode stays and they are those of a flash with addresses of one width
(`runs_flashDevice_of_chip`, `runs_chip_of_flashDevice`). On a device that rejects nothing they
succeed (`libhothSpiProxyUpdate_admits_chip` and the theorems behind it).
-/

set_option autoImplicit false
set_option relaxedAutoImplicit false

namespace Libhoth.Protocol.SpiProxyChip

open Foundation.ByteString Foundation.CellMemory Foundation.CheckedAccess
open Foundation.InteractingProgram Foundation.RecordedRuns Foundation.SpiNorFlash
open Status HostCommand HostCommandProgram SpiOperation SpiProxy SpiProxyUpdate SpiProxyRead
open SpiProxyTop (Silent keepsSilent_eraseGeneric keepsSilent_writePage spiOperationCopyMiso_silent)

/-! ### The program -/

/-- `SPI_OP_ENTER_4B`. -/
def spiOpEnter4B : UInt8 := 0xb7

/-- `SPI_OP_READ_STATUS`. -/
def spiOpReadStatus : UInt8 := 0x05

/-- The operation that `libhoth_spi_proxy_init` builds. -/
def buildInit (enterExit4B : Bool) : Except Fault Operation := do
  let op ← spiOperationBeginTransaction spiOperationInit
  let op ← spiOperationWriteMosi op [if enterExit4B then spiOpEnter4B else spiOpReadStatus]
  spiOperationEndTransaction op

/-- `libhoth_spi_proxy_init`, without what it prints. -/
def libhothSpiProxyInit (enterExit4B : Bool) : HostProgram (Except Fault LibhothError) :=
  match buildInit enterExit4B with
  | .error fault => return .error fault
  | .ok op => do
    match ← spiOperationExecute op with
    | .error status => return .ok status
    | .ok _ => return .ok hothSuccess

/-! ### The chip -/

/-- A chip: its flash, and whether addresses have four bytes. -/
@[ext] structure Chip where
  flash : SpiFlash
  fourByte : Bool

/-- What a transaction does to a chip. -/
def Chip.execute (chip : Chip) (mosi : List UInt8) : Chip :=
  if mosi.head? = some spiOpEnter4B then { chip with fourByte := true }
  else { chip with
    flash := chip.flash.execute (decodeCommand (addressWidth chip.fourByte) mosi) }

/-- A chip goes through the transactions of a request. -/
def ChipTransacts : Chip → List SpiTransaction → List (List UInt8) → Chip → Prop
  | chip, [], [], final => final = chip
  | chip, transaction :: transactions, miso :: misos, final =>
    miso.length = transaction.misoLen ∧
      MaySend (addressWidth chip.fourByte) chip.flash.cells transaction.mosi miso ∧
      ChipTransacts (chip.execute transaction.mosi) transactions misos final
  | _, _, _, _ => False

/-- A device that carries out SPI operations on a chip and answers with the bytes of the
transactions one after the other, or fails. Nothing is known of the chip behind a failure. -/
def proxyDevice : Environment HostReply Chip :=
  fun chip call reply final ↦
    (∃ transactions misos fits, call.command = spiOperationCommand ∧
      decodeTransactions call.payload = some transactions ∧
      ChipTransacts chip transactions misos final ∧ reply = .accepted misos.flatten fits) ∨
    ∃ status nonzero, reply = .failed status nonzero

/-! ### Requests that leave the mode -/

/-- A transaction that does not switch the address mode. -/
def KeepsMode (transaction : SpiTransaction) : Prop :=
  transaction.mosi.head? ≠ some spiOpEnter4B

/-- A request that does not switch the address mode. -/
def Harmless (call : HostCommand) : Prop :=
  ∀ transactions, decodeTransactions call.payload = some transactions →
    ∀ transaction ∈ transactions, KeepsMode transaction

/-- A reply that is no error. -/
def Accepted (exchange : Exchange HostReply) : Prop :=
  ∃ response fits, exchange.2 = .accepted response fits

/-- Transactions that leave the mode act on the flash alone. -/
theorem chipTransacts_iff {chip final : Chip} {transactions : List SpiTransaction}
    {misos : List (List UInt8)} (hkeeps : ∀ transaction ∈ transactions, KeepsMode transaction) :
    ChipTransacts chip transactions misos final ↔
      Transacts (addressWidth chip.fourByte) chip.flash transactions misos final.flash ∧
        final.fourByte = chip.fourByte := by
  induction transactions generalizing chip misos with
  | nil =>
    cases misos with
    | nil => exact Chip.ext_iff
    | cons miso misos => exact iff_of_false id (fun hend ↦ hend.1)
  | cons transaction rest ih =>
    cases misos with
    | nil => exact iff_of_false id (fun hend ↦ hend.1)
    | cons miso misos =>
      have hfirst : KeepsMode transaction := hkeeps transaction List.mem_cons_self
      have hexecute : chip.execute transaction.mosi = { chip with
          flash := chip.flash.execute
            (decodeCommand (addressWidth chip.fourByte) transaction.mosi) } := if_neg hfirst
      rw [ChipTransacts, Transacts, hexecute,
        ih fun later hlater ↦ hkeeps later (List.mem_cons_of_mem _ hlater), and_assoc, and_assoc]

/-- A run whose requests are harmless and whose replies are no errors is a run on the flash. -/
theorem runs_flashDevice_of_chip {α : Type} {program : HostProgram α} {result : α}
    (hshows : Ensures recording program [] fun outcome history ↦ outcome = result →
      ∀ exchange ∈ history, Harmless exchange.1 ∧ Accepted exchange)
    {chip final : Chip} (hrun : Runs proxyDevice program chip result final) :
    Runs (flashDevice chip.fourByte) program chip.flash result final.flash ∧
      final.fourByte = chip.fourByte := by
  obtain ⟨history, hrecorded, hall, halong⟩ := exists_along_of_ensures hshows hrun
  have hstep : ∀ exchange ∈ history, ∀ before after : Chip, before.fourByte = chip.fourByte →
      proxyDevice before exchange.1 exchange.2 after →
        flashDevice chip.fourByte before.flash exchange.1 exchange.2 after.flash ∧
          after.fourByte = chip.fourByte := by
    intro exchange hexchange before after hmode hstep
    obtain ⟨hharmless, response, fits, haccepted⟩ := hall rfl exchange hexchange
    obtain ⟨transactions, misos, hfits, hcommand, hdecode, htransacts, hreply⟩ |
      ⟨status, nonzero, hfailed⟩ := hstep
    · obtain ⟨hflash, hsame⟩ := (chipTransacts_iff (hharmless _ hdecode)).mp htransacts
      rw [hmode] at hflash hsame
      exact ⟨⟨transactions, misos, hfits, hcommand, hdecode, hflash, hreply⟩, hsame⟩
    · exact absurd (haccepted.symm.trans hfailed) nofun
  obtain ⟨halong, hmode⟩ := halong.project hstep rfl
  exact ⟨(runs_iff_exists_along _ _ _ _).mpr ⟨history, hrecorded, halong⟩, hmode⟩

/-- A run on the flash whose requests are harmless is a run on a chip in that mode. -/
theorem runs_chip_of_flashDevice {α : Type} {program : HostProgram α} {result : α}
    (hshows : Ensures recording program [] fun outcome history ↦ outcome = result →
      ∀ exchange ∈ history, Harmless exchange.1)
    {mode : Bool} {flash final : SpiFlash}
    (hrun : Runs (flashDevice mode) program flash result final) :
    Runs proxyDevice program ⟨flash, mode⟩ result ⟨final, mode⟩ := by
  obtain ⟨history, hrecorded, hall, halong⟩ := exists_along_of_ensures hshows hrun
  have hstep : ∀ exchange ∈ history, ∀ before after : SpiFlash, True →
      flashDevice mode before exchange.1 exchange.2 after →
        proxyDevice ⟨before, mode⟩ exchange.1 exchange.2 ⟨after, mode⟩ ∧ True := by
    rintro exchange hexchange before after -
      ⟨transactions, misos, fits, hcommand, hdecode, htransacts, hreply⟩
    have hchip : ChipTransacts ⟨before, mode⟩ transactions misos ⟨after, mode⟩ :=
      (chipTransacts_iff (hall rfl exchange hexchange _ hdecode)).mpr ⟨htransacts, rfl⟩
    exact ⟨.inl ⟨transactions, misos, fits, hcommand, hdecode, hchip, hreply⟩, trivial⟩
  exact (runs_iff_exists_along _ _ _ _).mpr ⟨history, hrecorded, (halong.project hstep trivial).1⟩

/-! ### What an update sends -/

section Building

variable {op next : Operation} {pending : List SpiTransaction} {mosi : List UInt8}

theorem opened_of_begin (hbuilds : Builds op pending)
    (hnext : spiOperationBeginTransaction op = .ok next) : Opened next pending [] := by
  rw [spiOperationBeginTransaction] at hnext
  split_ifs at hnext
  obtain rfl := Except.ok.inj hnext
  exact ⟨by simp [hbuilds.buf], by simp [hbuilds.buf], hbuilds.ended⟩

theorem opened_of_writeMosi (hopened : Opened op pending mosi) {bytes : List UInt8}
    (hnext : spiOperationWriteMosi op bytes = .ok next) :
    Opened next pending (mosi ++ bytes) ∧ (mosi ++ bytes).length < maxSpiOpPayloadBytes := by
  rw [spiOperationWriteMosi] at hnext
  split_ifs at hnext with hroom
  obtain rfl := Except.ok.inj hnext
  rw [hopened.length] at hroom
  refine ⟨⟨by simp [hopened.buf], hopened.headerOffset, hopened.ended⟩, ?_⟩
  rw [List.length_append]
  omega

theorem builds_of_end (hopened : Opened op pending mosi)
    (hnext : spiOperationEndTransaction op = .ok next) :
    Builds next (pending ++ [⟨mosi, 0⟩]) := by
  have hcount : pending.length < maxTransactions := by
    rw [spiOperationEndTransaction, spiOperationReadMisoAndEndTransaction] at hnext
    split_ifs at hnext with hcount
    · exact absurd ‹0 > 0› (lt_irrefl 0)
    · exact hopened.ended ▸ hcount
  obtain ⟨other, hother, hbuilds⟩ := endTransaction_ok hopened hcount
  obtain rfl := Except.ok.inj (hother.symm.trans hnext)
  exact hbuilds

/-- An operation whose transactions leave the mode and read nothing back. -/
def Leaves (op : Operation) : Prop :=
  ∃ pending, Builds op pending ∧ ∀ transaction ∈ pending, KeepsMode transaction ∧
    transaction.mosi.length < 2 ^ 16 ∧ transaction.misoLen = 0

/-- A transaction that begins with another opcode. -/
theorem leaves_of_end (hpending : ∀ transaction ∈ pending, KeepsMode transaction ∧
      transaction.mosi.length < 2 ^ 16 ∧ transaction.misoLen = 0)
    {opcode : UInt8} (hopcode : opcode ≠ spiOpEnter4B)
    (hopened : Opened op pending (opcode :: mosi))
    (hlength : (opcode :: mosi).length < maxSpiOpPayloadBytes)
    (hnext : spiOperationEndTransaction op = .ok next) : Leaves next := by
  refine ⟨_, builds_of_end hopened hnext, forall_mem_snoc hpending ⟨?_, ?_, rfl⟩⟩
  · intro hsame
    exact hopcode (Option.some.inj hsame)
  · exact hlength.trans (by decide)

theorem leaves_writeEnable (hleaves : Leaves op) (hnext : spiWriteEnable op = .ok next) :
    Leaves next := by
  obtain ⟨pending, hbuilds, hpending⟩ := hleaves
  obtain ⟨begun, hbegun, hnext⟩ := exists_of_bind_eq_ok hnext
  obtain ⟨written, hwritten, hnext⟩ := exists_of_bind_eq_ok hnext
  obtain ⟨hopened, hlength⟩ := opened_of_writeMosi (opened_of_begin hbuilds hbegun) hwritten
  exact leaves_of_end hpending (by decide) hopened hlength hnext

theorem leaves_eraseGeneric (hleaves : Leaves op) {is4Byte : Bool} {addr : UInt32} {opcode : UInt8}
    (hopcode : opcode ≠ spiOpEnter4B) (hnext : spiEraseGeneric op is4Byte addr opcode = .ok next) :
    Leaves next := by
  obtain ⟨enabled, henabled, hnext⟩ := exists_of_bind_eq_ok hnext
  obtain ⟨pending, hbuilds, hpending⟩ := leaves_writeEnable hleaves henabled
  obtain ⟨begun, hbegun, hnext⟩ := exists_of_bind_eq_ok hnext
  obtain ⟨first, hfirst, hnext⟩ := exists_of_bind_eq_ok hnext
  obtain ⟨second, hsecond, hnext⟩ := exists_of_bind_eq_ok hnext
  have hopened := (opened_of_writeMosi (opened_of_begin hbuilds hbegun) hfirst).1
  obtain ⟨hopened, hlength⟩ := opened_of_writeMosi hopened hsecond
  exact leaves_of_end hpending hopcode hopened hlength hnext

theorem leaves_writePage (hleaves : Leaves op) {is4Byte : Bool} {addr : UInt32} {buf : List UInt8}
    (hnext : spiWritePage op is4Byte addr buf = .ok next) : Leaves next := by
  obtain ⟨enabled, henabled, hnext⟩ := exists_of_bind_eq_ok hnext
  obtain ⟨pending, hbuilds, hpending⟩ := leaves_writeEnable hleaves henabled
  obtain ⟨begun, hbegun, hnext⟩ := exists_of_bind_eq_ok hnext
  obtain ⟨first, hfirst, hnext⟩ := exists_of_bind_eq_ok hnext
  obtain ⟨second, hsecond, hnext⟩ := exists_of_bind_eq_ok hnext
  obtain ⟨third, hthird, hnext⟩ := exists_of_bind_eq_ok hnext
  have hopened := (opened_of_writeMosi (opened_of_begin hbuilds hbegun) hfirst).1
  have hopened := (opened_of_writeMosi hopened hsecond).1
  obtain ⟨hopened, hlength⟩ := opened_of_writeMosi hopened hthird
  exact leaves_of_end hpending (by decide) hopened hlength hnext

theorem eraseChoice_opcode (addr : UInt32) (lenRemaining : ℕ) :
    (eraseChoice addr lenRemaining).2.1 ≠ spiOpEnter4B := by
  have h64 : spiOpErase64K ≠ spiOpEnter4B := by decide
  have h4 : spiOpErase4K ≠ spiOpEnter4B := by decide
  unfold eraseChoice
  dsimp only
  split_ifs
  · exact h64
  · exact h4

/-- A page leaves the mode. -/
theorem leaves_addPage {is4Byte : Bool} {state last : UpdateState} (hleaves : Leaves state.op)
    (hlast : addPage is4Byte state = .ok last) : Leaves last.op := by
  obtain ⟨erased, herased, hlast⟩ := exists_of_bind_eq_ok hlast
  have hbetween : Leaves erased.op := by
    unfold eraseIfNeeded at herased
    split_ifs at herased
    · obtain ⟨op, hop, hresult⟩ := exists_of_bind_eq_ok herased
      obtain rfl := Except.ok.inj hresult
      exact leaves_eraseGeneric hleaves (eraseChoice_opcode _ _) hop
    · exact Except.ok.inj herased ▸ hleaves
  obtain ⟨op, hop, hresult⟩ := exists_of_bind_eq_ok hlast
  obtain rfl := Except.ok.inj hresult
  exact leaves_writePage hbetween hop

theorem leaves_init : Leaves spiOperationInit :=
  ⟨[], .init, by simp⟩

/-- The device reads the transactions of such an operation back. -/
theorem Leaves.decodeTransactions (hleaves : Leaves op) :
    ∃ transactions, decodeTransactions (spiOperationCall op).payload = some transactions ∧
      ∀ transaction ∈ transactions, KeepsMode transaction ∧ transaction.misoLen = 0 := by
  obtain ⟨pending, hbuilds, hpending⟩ := hleaves
  refine ⟨pending, decodeTransactions_call hbuilds fun other hother ↦ ?_, fun other hother ↦ ?_⟩
  · obtain ⟨-, hmosi, hmiso⟩ := hpending other hother
    exact ⟨hmosi, hmiso ▸ Nat.two_pow_pos 16⟩
  · obtain ⟨hkeeps, -, hmiso⟩ := hpending other hother
    exact ⟨hkeeps, hmiso⟩

theorem Leaves.harmless (hleaves : Leaves op) : Harmless (spiOperationCall op) := by
  obtain ⟨pending, hpending, hkeeps⟩ := hleaves.decodeTransactions
  intro transactions hdecode transaction htransaction
  obtain rfl := Option.some.inj (hpending.symm.trans hdecode)
  exact (hkeeps transaction htransaction).1

/-- A chip can go through transactions that read nothing back. -/
theorem exists_chipTransacts {transactions : List SpiTransaction}
    (hnone : ∀ transaction ∈ transactions, transaction.misoLen = 0) (chip : Chip) :
    ∃ final, ChipTransacts chip transactions (transactions.map fun _ ↦ []) final := by
  induction transactions generalizing chip with
  | nil => exact ⟨chip, rfl⟩
  | cons transaction rest ih =>
    obtain ⟨hfirst, hrest⟩ := List.forall_mem_cons.mp hnone
    obtain ⟨final, hfinal⟩ := ih hrest (chip.execute transaction.mosi)
    refine ⟨final, hfirst.symm, fun _ _ index hindex ↦ ?_, hfinal⟩
    exact absurd hindex (Nat.not_lt_zero _)

/-- The device can accept such an operation. -/
theorem Leaves.exists_proxyDevice (hleaves : Leaves op) (chip : Chip) :
    ∃ final, proxyDevice chip (spiOperationCall op) (.accepted [] (Nat.zero_le _)) final := by
  obtain ⟨transactions, hdecode, hnone⟩ := hleaves.decodeTransactions
  obtain ⟨final, hfinal⟩ := exists_chipTransacts (fun other hother ↦ (hnone other hother).2) chip
  have hflatten : (transactions.map fun _ ↦ ([] : List UInt8)).flatten = [] := by simp
  have hfits : PayloadFits (transactions.map fun _ ↦ ([] : List UInt8)).flatten
      maxSpiOpPayloadBytes true := by
    rw [hflatten]
    exact Nat.zero_le _
  refine ⟨final, .inl ⟨transactions, _, hfits, rfl, hdecode, hfinal, ?_⟩⟩
  simp only [hflatten]

/-- A page reads nothing back. -/
theorem silent_addPage {is4Byte : Bool} {state last : UpdateState} (hsilent : Silent state.op)
    (hlast : addPage is4Byte state = .ok last) : Silent last.op := by
  obtain ⟨erased, herased, hlast⟩ := exists_of_bind_eq_ok hlast
  have hbetween : Silent erased.op := by
    unfold eraseIfNeeded at herased
    split_ifs at herased
    · obtain ⟨op, hop, hresult⟩ := exists_of_bind_eq_ok herased
      obtain rfl := Except.ok.inj hresult
      exact keepsSilent_eraseGeneric _ _ _ _ _ hop hsilent
    · exact Except.ok.inj herased ▸ hsilent
  obtain ⟨op, hop, hresult⟩ := exists_of_bind_eq_ok hlast
  obtain rfl := Except.ok.inj hresult
  exact keepsSilent_writePage _ _ _ _ _ hop hbetween

end Building

/-- The requests of an update leave the mode, and it fails on a failure. -/
theorem libhothSpiProxyUpdate_harmless (is4Byte : Bool) (addr : UInt32) (data : List UInt8) :
    Ensures recording (libhothSpiProxyUpdate is4Byte addr data) [] fun result history ↦
      result = .ok hothSuccess → ∀ exchange ∈ history, Harmless exchange.1 ∧ Accepted exchange := by
  refine whileDecreasing_ensures
    (fun state history ↦ Leaves state.op ∧
      ∀ exchange ∈ history, Harmless exchange.1 ∧ Accepted exchange)
    ?_ _ [] ⟨leaves_init, by simp⟩
  rintro state history ⟨hleaves, hall⟩
  rw [updateRound]
  split_ifs with hremaining
  · split
    · refine (ensures_done _ _ _).mpr fun hsuccess ↦ ?_
      cases hsuccess
    · rename_i next hnext
      have hbuilt := leaves_addPage hleaves hnext
      dsimp only
      split_ifs
      · simp only [spiOperationExecute, hostcmdExec, ensures_bind, ensures_request, recording_iff]
        rintro reply _ rfl
        cases reply with
        | failed status nonzero =>
          simp only [pure_eq_done, ensures_done]
          exact fun hsuccess ↦ absurd (Except.ok.inj hsuccess) nonzero
        | accepted response fits =>
          have haccepted : Accepted ⟨spiOperationCall next.op, .accepted response fits⟩ :=
            ⟨response, fits, rfl⟩
          have hlater := forall_mem_snoc hall ⟨hbuilt.harmless, haccepted⟩
          cases hcopied : spiOperationCopyMiso response next.op.transactions 0 with
          | none =>
            simp only [hcopied, pure_eq_done, ensures_done]
            exact fun _ ↦ hlater
          | some copied =>
            simp only [hcopied, pure_eq_done, ensures_done]
            exact ⟨leaves_init, hlater⟩
      · exact (ensures_done _ _ _).mpr ⟨hbuilt, hall⟩
  · exact (ensures_done _ _ _).mpr fun _ ↦ hall

/-! ### What a read sends -/

theorem harmless_readCall (is4Byte : Bool) (addr : UInt32) {len : ℕ} (hlen : len ≤ readChunkSize) :
    Harmless (readCall is4Byte addr len) := by
  intro transactions hdecode transaction htransaction
  rw [decodeTransactions_readCall is4Byte addr hlen] at hdecode
  obtain rfl := Option.some.inj hdecode
  rw [List.mem_singleton.mp htransaction]
  intro hsame
  exact absurd (Option.some.inj hsame) (by decide)

/-- A read sends reads. -/
theorem harmless_of_stopsOnDeficient {is4Byte : Bool} {addr : UInt32} {total : ℕ}
    {err : LibhothError} {history : HostHistory}
    (hstops : StopsOnDeficient is4Byte addr total err history) :
    ∀ exchange ∈ history, Harmless exchange.1 := by
  intro exchange hexchange
  obtain ⟨before, after, hsplit⟩ := List.append_of_mem hexchange
  rw [(hstops before exchange after hsplit).1]
  exact harmless_readCall _ _ (Nat.min_le_right _ _)

/-- A read that succeeds has met no failure. -/
theorem accepted_of_stopsOnDeficient {is4Byte : Bool} {addr : UInt32} {total : ℕ}
    {history : HostHistory} (hstops : StopsOnDeficient is4Byte addr total hothSuccess history) :
    ∀ exchange ∈ history, Harmless exchange.1 ∧ Accepted exchange := by
  intro exchange hexchange
  refine ⟨harmless_of_stopsOnDeficient hstops exchange hexchange, ?_⟩
  obtain ⟨before, after, hsplit⟩ := List.append_of_mem hexchange
  obtain ⟨-, hend⟩ := hstops before exchange after hsplit
  obtain ⟨call, reply⟩ := exchange
  cases reply with
  | failed status nonzero => exact absurd rfl (hend trivial).2
  | accepted response fits => exact ⟨response, fits, rfl⟩

/-! ### On a chip -/

/-- The flash behind transactions has run their commands. -/
theorem run_of_transacts {width : ℕ} {device final : SpiFlash} {transactions : List SpiTransaction}
    {misos : List (List UInt8)} (htransacts : Transacts width device transactions misos final) :
    final = device.run (transactions.map fun transaction ↦
      decodeCommand width transaction.mosi) := by
  induction transactions generalizing device misos with
  | nil =>
    cases misos with
    | nil => exact htransacts
    | cons miso misos => exact htransacts.elim
  | cons transaction rest ih =>
    cases misos with
    | nil => exact htransacts.elim
    | cons miso misos => exact ih htransacts.2.2

/-- The flash behind a history has run the commands that were sent. -/
theorem run_of_along {is4Byte : Bool} {device final : SpiFlash} {history : HostHistory}
    (halong : Along (flashDevice is4Byte) device history final) :
    final = device.run (commandsOf is4Byte (sentTransactions history)) := by
  induction history generalizing device with
  | nil => exact halong
  | cons exchange rest ih =>
    obtain ⟨middle, ⟨transactions, misos, fits, -, hdecode, htransacts, -⟩, hrest⟩ := halong
    have hsent : sentTransactions (exchange :: rest) = transactions ++ sentTransactions rest := by
      rw [sentTransactions, List.flatMap_cons, hdecode]
      rfl
    rw [ih hrest, run_of_transacts htransacts, hsent, commandsOf_append, SpiFlash.run, SpiFlash.run,
      SpiFlash.run, List.foldl_append]
    rfl

section OnChip

variable {chip : Chip}

/-- The request of `libhoth_spi_proxy_init`. -/
theorem decodeTransactions_init (opcode : UInt8) :
    decodeTransactions (spiOperationCall ⟨[1, 0, 0, 0, opcode], 0, [⟨1, false, 0⟩]⟩).payload =
      some [⟨[opcode], 0⟩] := by
  have hencode : encodeTransactions [⟨[opcode], 0⟩] = [1, 0, 0, 0, opcode] := by
    simp [encodeTransactions, SpiTransaction.encode, toLittleEndian]
  rw [spiOperationCall, ← hencode]
  exact decodeTransactions_encode [⟨[opcode], 0⟩] (by simp)

/-- Entering the four-byte mode, or leaving the mode alone. -/
theorem libhothSpiProxyInit_ensures (enterExit4B : Bool) :
    Ensures proxyDevice (libhothSpiProxyInit enterExit4B) chip fun result final ↦
      ∃ err, result = .ok err ∧ (err = hothSuccess →
        final = { chip with fourByte := chip.fourByte || enterExit4B }) := by
  have hbuild : buildInit enterExit4B = .ok ⟨[1, 0, 0, 0,
      if enterExit4B then spiOpEnter4B else spiOpReadStatus], 0, [⟨1, false, 0⟩]⟩ := by
    cases enterExit4B <;> rfl
  rw [libhothSpiProxyInit, hbuild]
  simp only [spiOperationExecute, hostcmdExec, ensures_bind, ensures_request]
  intro reply final hreply
  obtain ⟨transactions, misos, fits, -, hdecode, htransacts, rfl⟩ | ⟨status, nonzero, rfl⟩ := hreply
  · rw [decodeTransactions_init] at hdecode
    obtain rfl := Option.some.inj hdecode
    match misos, htransacts with
    | [miso], ⟨_, _, hfinal⟩ =>
      obtain rfl : final = _ := hfinal
      have hcopied : spiOperationCopyMiso [miso].flatten [⟨1, false, 0⟩] 0 = some [] := rfl
      simp only [hcopied, pure_eq_done, ensures_done]
      refine ⟨_, rfl, fun _ ↦ ?_⟩
      cases enterExit4B with
      | false => rw [Bool.or_false]; rfl
      | true => rw [Bool.or_true]; rfl
  · simp only [pure_eq_done, ensures_done]
    exact ⟨status, rfl, fun hsuccess ↦ absurd hsuccess nonzero⟩

/-- The initialization can succeed. -/
theorem libhothSpiProxyInit_admits (enterExit4B : Bool) :
    Admits proxyDevice (libhothSpiProxyInit enterExit4B) chip fun result _ ↦
      result = .ok hothSuccess := by
  have hbuild : buildInit enterExit4B = .ok ⟨[1, 0, 0, 0,
      if enterExit4B then spiOpEnter4B else spiOpReadStatus], 0, [⟨1, false, 0⟩]⟩ := by
    cases enterExit4B <;> rfl
  have hstep : ∀ opcode, proxyDevice chip (spiOperationCall
      ⟨[1, 0, 0, 0, opcode], 0, [⟨1, false, 0⟩]⟩) (.accepted [] (Nat.zero_le _))
        (chip.execute [opcode]) := by
    intro opcode
    refine .inl ⟨_, [[]], Nat.zero_le _, rfl, decodeTransactions_init opcode, ⟨rfl, ?_, rfl⟩, rfl⟩
    exact fun _ _ index hindex ↦ absurd hindex (Nat.not_lt_zero _)
  rw [libhothSpiProxyInit, hbuild]
  refine (admits_bind _ _ _ _).mpr ((admits_bind _ _ _ _).mpr ?_)
  exact admits_request _ (hstep _) (admits_done (admits_done rfl))

/-- The rounds of an update, over what is sent. -/
theorem libhothSpiProxyUpdate_ensures_contract (addr : UInt32) (data : List UInt8)
    (hlimit : if chip.fourByte then addr.toNat + data.length ≤ 2 ^ 32 - 65536
      else addr.toNat + data.length ≤ 2 ^ 24) :
    Ensures recording (libhothSpiProxyUpdate chip.fourByte addr data) [] fun result history ↦
      ∃ err, result = .ok err ∧
        SpiUpdateContract chip.fourByte addr.toNat data chip.flash err history := by
  obtain ⟨hbelow, hwidth⟩ := bounds_of_limit hlimit
  refine whileDecreasing_ensures
    (fun state history ↦ ∃ written stop pending,
      UpdateProgress chip.fourByte addr.toNat data chip.flash 0 0 written stop pending state
          history ∧
        state.pagesInOp < maxPagesPerOp ∧ (state.cbuf = [] → pending = [])) ?_
    _ [] ⟨0, _, [], .initial chip.fourByte addr data chip.flash, Nat.zero_lt_succ 2, fun _ ↦ rfl⟩
  rintro state history ⟨written, stop, pending, hprogress, hpages, hflushed⟩
  refine (updateRound_ensures hprogress hpages hflushed hbelow hwidth).mono ?_
  intro outcome _ houtcome
  cases outcome <;> exact houtcome

/-- An update that succeeds leaves the meant flash, in the mode that was. -/
theorem libhothSpiProxyUpdate_ensures_chip (addr : UInt32) (data : List UInt8)
    (hlimit : if chip.fourByte then addr.toNat + data.length ≤ 2 ^ 32 - 65536
      else addr.toNat + data.length ≤ 2 ^ 24) :
    Ensures proxyDevice (libhothSpiProxyUpdate chip.fourByte addr data) chip fun result final ↦
      ∃ err, result = .ok err ∧ (err = hothSuccess → final.fourByte = chip.fourByte ∧
        final.flash.cells = updatedFlash addr.toNat data chip.flash.cells) := by
  intro result final hrun
  have hcontract := libhothSpiProxyUpdate_ensures_contract addr data hlimit
  obtain ⟨history, -, ⟨err, rfl, -⟩, -⟩ := exists_along_of_ensures hcontract hrun
  refine ⟨err, rfl, fun herr ↦ ?_⟩
  subst herr
  obtain ⟨hflash, hmode⟩ :=
    runs_flashDevice_of_chip (libhothSpiProxyUpdate_harmless chip.fourByte addr data) hrun
  obtain ⟨history, -, ⟨err, herr, hcontract⟩, halong⟩ := exists_along_of_ensures hcontract hflash
  exact ⟨hmode, run_of_along halong ▸ hcontract.programmed (Except.ok.inj herr).symm⟩

/-- A page is added, and the operation is executed if it is full. -/
theorem updateRound_admits {is4Byte : Bool} {state next : UpdateState}
    (hadd : addPage is4Byte state = .ok next) (hremaining : state.cbuf ≠ [])
    (hleaves : Leaves state.op) (hsilent : Silent state.op)
    {post : {next : UpdateState // next.cbuf.length < state.cbuf.length} ⊕
      Except Fault LibhothError → Chip → Prop}
    (hadded : next.pagesInOp < maxPagesPerOp → ∀ hlength, post (.inl ⟨next, hlength⟩) chip)
    (hexecuted : HostReply (spiOperationCall next.op) → ∀ hlength final,
      post (.inl ⟨{ next with op := spiOperationInit, pagesInOp := 0 }, hlength⟩) final) :
    Admits proxyDevice (updateRound is4Byte state) chip post := by
  rw [updateRound, dif_pos hremaining]
  split
  · rename_i hfault
    rw [hadd] at hfault
    cases hfault
  · rename_i other hother
    obtain rfl : next = other := Except.ok.inj (hadd.symm.trans hother)
    dsimp only
    split_ifs with hfull
    · obtain ⟨final, hstep⟩ := (leaves_addPage hleaves hadd).exists_proxyDevice chip
      have hcopied := spiOperationCopyMiso_silent [] (silent_addPage hsilent hadd) 0
      refine (admits_bind _ _ _ _).mpr ((admits_bind _ _ _ _).mpr (admits_request _ hstep ?_))
      simp only [hcopied]
      exact admits_done (admits_done (hexecuted (.accepted [] (Nat.zero_le _)) _ final))
    · exact admits_done (hadded (not_le.mp (not_or.mp hfull).1) _)

/-- An update can succeed. -/
theorem libhothSpiProxyUpdate_admits_chip (addr : UInt32) (data : List UInt8)
    (hlimit : if chip.fourByte then addr.toNat + data.length ≤ 2 ^ 32 - 65536
      else addr.toNat + data.length ≤ 2 ^ 24) :
    Admits proxyDevice (libhothSpiProxyUpdate chip.fourByte addr data) chip fun result _ ↦
      result = .ok hothSuccess := by
  obtain ⟨hbelow, hwidth⟩ := bounds_of_limit hlimit
  refine whileDecreasing_admits
    (fun state _ ↦ Leaves state.op ∧ Silent state.op ∧ state.pagesInOp < maxPagesPerOp ∧
      ∃ written stop pending history, UpdateProgress chip.fourByte addr.toNat data chip.flash 0 0
        written stop pending state history) ?_ _ chip
    ⟨leaves_init, fun _ hmem ↦ absurd hmem List.not_mem_nil, Nat.zero_lt_succ 2, _, _, _, _,
      .initial chip.fourByte addr data chip.flash⟩
  rintro state now ⟨hleaves, hsilent, hpages, written, stop, pending, history, hprogress⟩
  by_cases hremaining : state.cbuf = []
  · rw [updateRound, dif_neg (not_not.mpr hremaining)]
    exact admits_done rfl
  · have hmore : written < data.length := by
      have hbound := hprogress.bound
      rw [hprogress.cbuf, List.drop_eq_nil_iff] at hremaining
      omega
    obtain ⟨next, _, _, _, hadd, hnext, -⟩ := addPage_ok hprogress hmore hpages hbelow hwidth
    refine updateRound_admits hadd hremaining hleaves hsilent (fun hroom _ ↦ ?_)
      (fun reply _ final ↦ ?_)
    · exact ⟨leaves_addPage hleaves hadd, silent_addPage hsilent hadd, hroom, _, _, _, _, hnext⟩
    · exact ⟨leaves_init, fun _ hmem ↦ absurd hmem List.not_mem_nil, Nat.zero_lt_succ 2, _, _, _, _,
        hnext.execute reply⟩

/-- A read that succeeds returns the cells. -/
theorem libhothSpiProxyRead_ensures_chip (addr : UInt32) (buf : List UInt8)
    (hwidth : addr.toNat + buf.length ≤ 256 ^ addressWidth chip.fourByte) :
    Ensures proxyDevice (libhothSpiProxyRead chip.fourByte addr buf) chip fun result final ↦
      ∃ err read, result = .ok (err, read) ∧ (err = hothSuccess → final = chip ∧
        read = load chip.flash.cells addr.toNat buf.length) := by
  intro result final hrun
  have hstops := libhothSpiProxyRead_ensures_stops chip.fourByte addr buf
  obtain ⟨history, -, ⟨err, read, rfl, -⟩, -⟩ := exists_along_of_ensures hstops hrun
  refine ⟨err, read, rfl, fun herr ↦ ?_⟩
  subst herr
  obtain ⟨hflash, hmode⟩ := runs_flashDevice_of_chip (hstops.mono fun outcome history houtcome ↦ by
    rintro rfl
    obtain ⟨err, other, hother, hstops⟩ := houtcome
    obtain rfl := (Prod.mk.inj (Except.ok.inj hother)).1
    exact accepted_of_stopsOnDeficient hstops) hrun
  obtain ⟨hresult, hfinal⟩ := libhothSpiProxyRead_ensures_flash addr buf hwidth _ _ hflash
  exact ⟨Chip.ext hfinal hmode, (Prod.mk.inj (Except.ok.inj hresult)).2⟩

/-- A verification that succeeds has compared the cells. -/
theorem libhothSpiProxyVerify_ensures_chip (addr : UInt32) (buf : List UInt8)
    (hwidth : addr.toNat + buf.length ≤ 256 ^ addressWidth chip.fourByte) :
    Ensures proxyDevice (libhothSpiProxyVerify chip.fourByte addr buf) chip fun result final ↦
      ∃ err, result = .ok err ∧ (err = hothSuccess → final = chip ∧
        load chip.flash.cells addr.toNat buf.length = buf) := by
  intro result final hrun
  have hstops := libhothSpiProxyVerify_ensures_stops chip.fourByte addr buf
  obtain ⟨history, -, ⟨err, rfl, -⟩, -⟩ := exists_along_of_ensures hstops hrun
  refine ⟨err, rfl, fun herr ↦ ?_⟩
  subst herr
  obtain ⟨hflash, hmode⟩ := runs_flashDevice_of_chip (hstops.mono fun outcome history houtcome ↦ by
    rintro rfl
    obtain ⟨err, hother, hstops⟩ := houtcome
    obtain rfl := Except.ok.inj hother
    exact accepted_of_stopsOnDeficient hstops) hrun
  obtain ⟨err, herr, hiff, hfinal⟩ := libhothSpiProxyVerify_ensures_flash addr buf hwidth _ _ hflash
  exact ⟨Chip.ext hfinal hmode, hiff.mp (Except.ok.inj herr).symm⟩

/-- A read has a run that succeeds. -/
theorem libhothSpiProxyRead_admits_chip (addr : UInt32) (buf : List UInt8)
    (hwidth : addr.toNat + buf.length ≤ 256 ^ addressWidth chip.fourByte) :
    Admits proxyDevice (libhothSpiProxyRead chip.fourByte addr buf) chip fun result _ ↦
      result = .ok (hothSuccess, load chip.flash.cells addr.toNat buf.length) := by
  obtain ⟨result, final, hrun, rfl, rfl⟩ := libhothSpiProxyRead_admits_flash addr buf hwidth
  have hstops := libhothSpiProxyRead_ensures_stops chip.fourByte addr buf
  refine ⟨_, _, runs_chip_of_flashDevice (hstops.mono ?_) hrun, rfl⟩
  rintro _ history ⟨err, read, rfl, hstops⟩ -
  exact harmless_of_stopsOnDeficient hstops

/-- A verification has a run that succeeds when the cells are the data. -/
theorem libhothSpiProxyVerify_admits_chip (addr : UInt32) (buf : List UInt8)
    (hwidth : addr.toNat + buf.length ≤ 256 ^ addressWidth chip.fourByte)
    (hequal : load chip.flash.cells addr.toNat buf.length = buf) :
    Admits proxyDevice (libhothSpiProxyVerify chip.fourByte addr buf) chip fun result _ ↦
      result = .ok hothSuccess := by
  obtain ⟨result, final, hrun, err, rfl, hiff, rfl⟩ :=
    libhothSpiProxyVerify_admits_flash addr buf hwidth
  have hstops := libhothSpiProxyVerify_ensures_stops chip.fourByte addr buf
  refine ⟨_, _, runs_chip_of_flashDevice (hstops.mono ?_) hrun, congrArg _ (hiff.mpr hequal)⟩
  rintro _ history ⟨err, rfl, hstops⟩ -
  exact harmless_of_stopsOnDeficient hstops

end OnChip

end Libhoth.Protocol.SpiProxyChip
