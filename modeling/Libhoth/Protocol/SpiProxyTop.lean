import Libhoth.Protocol.SpiProxyUpdate

/-!
# The SPI proxy: the top of a 4 GiB flash

The last page, sector and block of a 32-bit address space end at `2 ^ 32`, which
`libhoth_spi_proxy_update` computes as zero. So the last page is never past `need_erase_addr`, and
after an erase up to `2 ^ 32` every page but the last is.

`libhothSpiProxyUpdate_eraseSafe_iff` says exactly which updates are harmed: all commands of all
runs are `EraseSafe` if and only if the range is `Spared`. `EraseStep` is what a page does to
`need_erase_addr` and to the commands, and `Climb` is the invariant over the pages, with the verdict
on the commands so far.
-/

set_option autoImplicit false
set_option relaxedAutoImplicit false

namespace Libhoth.Protocol.SpiProxyTop

open Foundation.ByteString Foundation.CheckedAccess Foundation.InteractingProgram
open Foundation.SpiNorFlash
open Status HostCommand HostCommandProgram SpiOperation SpiProxy SpiProxyUpdate

/-! ### The ranges that are spared -/

/-- What a range from `base` to `last` has between `first` and `stop` lies within one page. -/
def OnePage (base last first stop : ℕ) : Prop :=
  min last stop ≤ (max base first / 256 + 1) * 256

/-- The ranges that no wrapped address harms: the empty ones, and those that start before the last
page and have at most one page in the first sector of the last block and at most one page in the
last sector, the last page of it apart. -/
def Spared (base last : ℕ) : Prop :=
  last ≤ base ∨ base < 2 ^ 32 - 256 ∧
    OnePage base last (2 ^ 32 - 65536) (2 ^ 32 - 65536 + 4096) ∧
    OnePage base last (2 ^ 32 - 4096) (2 ^ 32 - 256)

instance (base last first stop : ℕ) : Decidable (OnePage base last first stop) :=
  inferInstanceAs (Decidable (_ ≤ _))

instance (base last : ℕ) : Decidable (Spared base last) :=
  inferInstanceAs (Decidable (_ ∨ _ ∧ _ ∧ _))

/-- A spared range stays so when it ends earlier. -/
theorem Spared.mono {base last later : ℕ} (hspared : Spared base later) (hle : last ≤ later) :
    Spared base last := by
  unfold Spared OnePage at *
  omega

/-! ### One page -/

/-- What the page at an address does to `need_erase_addr` and the commands before its own. -/
inductive EraseStep (address need : ℕ) (commands : List SpiCommand) : ℕ → List SpiCommand → Prop
  | kept (hpage : (address / 256 + 1) * 256 % 2 ^ 32 ≤ need) :
    EraseStep address need commands need commands
  | erased {count : ℕ} (hpage : need < (address / 256 + 1) * 256 % 2 ^ 32)
    (hcount : count = 4096 ∧ (address < 2 ^ 32 - 65536 ∨ 2 ^ 32 - 65536 + 4096 ≤ address) ∨
      count = 65536 ∧ address / 4096 * 4096 % 65536 = 0) :
    EraseStep address need commands ((address / 4096 * 4096 + count) % 2 ^ 32)
      (commands ++ [SpiCommand.writeEnable] ++ [SpiCommand.erase (address / 4096 * 4096) count])

/-- The last erase before an address, of which `need_erase_addr` is the wrapped end, and where it
can lie while nothing has gone wrong. -/
structure Covered (address need start count : ℕ) (commands : List SpiCommand) : Prop where
  issued : .erase start count ∈ commands
  above : start < address
  below : address ≤ start + count
  aligned : (start + count) % 4096 = 0
  need : need = (start + count) % 2 ^ 32
  place : start + count ≤ 2 ^ 32 - 65536 ∨
    2 ^ 32 - 65536 + 4096 ≤ start ∧ start + count ≤ 2 ^ 32 - 4096 ∨
    start + count = 2 ^ 32 ∧
      (start = 2 ^ 32 - 65536 ∧ address ≤ 2 ^ 32 - 65536 + 4096 ∨ start = 2 ^ 32 - 4096)

/-- An update from `base` to `last` whose commands have programmed the bytes up to an address. -/
structure Climb (base last address need : ℕ) (commands : List SpiCommand) : Prop where
  lower : base ≤ address
  upper : address ≤ last
  aligned : base < address → address < last → address % 256 = 0
  initial : address = base → need = base ∧ commands = []
  programs : ∀ start bytes, .program start bytes ∈ commands → start + bytes.length ≤ address
  recent : base < address → ∃ start bytes, .program start bytes ∈ commands ∧
    start < address ∧ start + bytes.length = address ∧ start / 256 = (address - 1) / 256
  verdict : EraseSafe commands ↔ Spared base address
  covered : base < address → Spared base address → ∃ start count,
    Covered address need start count commands

section Pages

variable {base last address need nextNeed : ℕ} {commands erased : List SpiCommand}

/-- An erase step only adds commands. -/
theorem EraseStep.exists_append (hstep : EraseStep address need commands nextNeed erased) :
    ∃ later, erased = commands ++ later := by
  cases hstep with
  | kept => exact ⟨[], (List.append_nil _).symm⟩
  | erased => exact ⟨_, List.append_assoc _ _ _⟩

/-- An erase step programs nothing. -/
theorem EraseStep.program_mem_iff (hstep : EraseStep address need commands nextNeed erased)
    (start : ℕ) (bytes : List UInt8) :
    .program start bytes ∈ erased ↔ .program start bytes ∈ commands := by
  cases hstep <;> simp

/-- Before the first page. -/
theorem Climb.start (hle : base ≤ last) : Climb base last base base [] where
  lower := le_rfl
  upper := hle
  aligned := fun h ↦ absurd h (lt_irrefl _)
  initial := fun _ ↦ ⟨rfl, rfl⟩
  programs := by simp
  recent := fun h ↦ absurd h (lt_irrefl _)
  verdict := iff_of_true .nil (.inl le_rfl)
  covered := fun h ↦ absurd h (lt_irrefl _)

/-- The erase of the sector of an address keeps clear of the data only before the first page and at
the start of a sector. -/
theorem Climb.eraseSafe_erase_iff (hclimb : Climb base last address need commands)
    (hmore : address < last) {count : ℕ} (hcount : 4096 ≤ count) :
    EraseSafe (commands ++ [SpiCommand.writeEnable] ++
        [SpiCommand.erase (address / 4096 * 4096) count]) ↔
      EraseSafe commands ∧ (address = base ∨ address % 4096 = 0) := by
  rw [EraseSafe.enabled_erase_iff]
  refine and_congr_right fun _ ↦ ⟨fun hclear ↦ ?_, fun hplace start bytes hmem ↦ ?_⟩
  · rcases hclimb.lower.eq_or_lt with hfirst | hlater
    · exact .inl hfirst.symm
    · obtain ⟨start, bytes, hmem, hstart, hend, hpage⟩ := hclimb.recent hlater
      have haligned := hclimb.aligned hlater hmore
      have hmiss := hclear start bytes hmem
      exact .inr (by omega)
  · rcases hplace with hfirst | haligned
    · rw [(hclimb.initial hfirst).2] at hmem
      cases hmem
    · have hend := hclimb.programs start bytes hmem
      exact .inl (by omega)

/-- Past the first page, a range with one page of a place keeps to one unless its next page lies
within the place, past the first. -/
theorem OnePage.next_iff {first stop : ℕ} (honePage : OnePage base address first stop)
    (hfirst : first % 256 = 0) (hlater : base < address) (hmore : address < last)
    (hpage : address % 256 = 0) :
    OnePage base (min ((address / 256 + 1) * 256) last) first stop ↔
      ¬(first < address ∧ address < stop) := by
  unfold OnePage at *
  omega

/-- Past the first page, a spared range stays so with its next page unless that page lies within the
first sector of the last block or within the last sector, past the first page there. -/
theorem Spared.next_iff (hspared : Spared base address) (hlater : base < address)
    (hmore : address < last) (hpage : address % 256 = 0) :
    Spared base (min ((address / 256 + 1) * 256) last) ↔
      ¬(2 ^ 32 - 65536 < address ∧ address < 2 ^ 32 - 65536 + 4096) ∧
        ¬(2 ^ 32 - 4096 < address ∧ address < 2 ^ 32 - 256) := by
  obtain hempty | ⟨hbase, hblock, hsector⟩ := hspared
  · omega
  · rw [← hblock.next_iff (by decide) hlater hmore hpage,
      ← hsector.next_iff (by decide) hlater hmore hpage, Spared, or_iff_right (by omega),
      and_iff_right hbase]

/-- Past the first page, the next page is spared unless it erases within a sector. -/
theorem Covered.spared_iff {start count : ℕ}
    (hcovered : Covered address need start count commands) (hlater : base < address)
    (hmore : address < last) (hlimit : last ≤ 2 ^ 32) (hpage : address % 256 = 0)
    (hspared : Spared base address) :
    Spared base (min ((address / 256 + 1) * 256) last) ↔
      ((address / 256 + 1) * 256 % 2 ^ 32 ≤ need ∨ address % 4096 = 0) := by
  obtain ⟨-, habove, hbelow, haligned, hneed, hplace⟩ := hcovered
  rw [hspared.next_iff hlater hmore hpage]
  rcases hplace with hlow | hhigh | ⟨hwrap, hblock | hsector⟩ <;> omega

/-- The first page is spared unless it is the last page of the flash. -/
theorem spared_first_iff (hmore : base < last) (hlimit : last ≤ 2 ^ 32) :
    Spared base (min ((base / 256 + 1) * 256) last) ↔ base < (base / 256 + 1) * 256 % 2 ^ 32 := by
  unfold Spared OnePage
  omega

/-- After the erase of its sector or block, a page is covered. -/
theorem covered_erase (hmore : address < last) (hlimit : last ≤ 2 ^ 32) {count : ℕ}
    (hcount : count = 4096 ∧ (address < 2 ^ 32 - 65536 ∨ 2 ^ 32 - 65536 + 4096 ≤ address) ∨
      count = 65536 ∧ address / 4096 * 4096 % 65536 = 0) :
    Covered (min ((address / 256 + 1) * 256) last) ((address / 4096 * 4096 + count) % 2 ^ 32)
      (address / 4096 * 4096) count
      (commands ++ [SpiCommand.writeEnable] ++
        [SpiCommand.erase (address / 4096 * 4096) count]) where
  issued := by simp
  above := by omega
  below := by omega
  aligned := by omega
  need := rfl
  place := by omega

/-- A page without an erase stays covered by the last one. -/
theorem Covered.kept {start count : ℕ} (hcovered : Covered address need start count commands)
    (hmore : address < last) (hlimit : last ≤ 2 ^ 32) (hpage : address % 256 = 0)
    (hkept : (address / 256 + 1) * 256 % 2 ^ 32 ≤ need) :
    Covered (min ((address / 256 + 1) * 256) last) need start count commands := by
  obtain ⟨hissued, habove, hbelow, haligned, hneed, hplace⟩ := hcovered
  refine ⟨hissued, by omega, by omega, haligned, hneed, by omega⟩

/-- Before a page of a spared range the commands are safe and an erase covers the page. -/
theorem Climb.erased_of_spared (hclimb : Climb base last address need commands)
    (hmore : address < last) (hlimit : last ≤ 2 ^ 32)
    (hstep : EraseStep address need commands nextNeed erased)
    (hspared : Spared base (min ((address / 256 + 1) * 256) last)) :
    EraseSafe erased ∧ ∃ start count, start ≤ address ∧
      Covered (min ((address / 256 + 1) * 256) last) nextNeed start count erased := by
  have hbefore : Spared base address := hspared.mono (by omega)
  have hsafe := hclimb.verdict.mpr hbefore
  rcases hclimb.lower.eq_or_lt with rfl | hlater
  · obtain ⟨hneed, -⟩ := hclimb.initial rfl
    rw [spared_first_iff hmore hlimit] at hspared
    cases hstep with
    | kept hpage => omega
    | erased hpage hcount =>
      exact ⟨(hclimb.eraseSafe_erase_iff hmore (by omega)).mpr ⟨hsafe, .inl rfl⟩, _, _,
        Nat.div_mul_le_self _ _, covered_erase hmore hlimit hcount⟩
  · obtain ⟨start, count, hcovered⟩ := hclimb.covered hlater hbefore
    have haligned := hclimb.aligned hlater hmore
    cases hstep with
    | kept hpage =>
      exact ⟨hsafe, start, count, hcovered.above.le, hcovered.kept hmore hlimit haligned hpage⟩
    | erased hpage hcount =>
      rcases (hcovered.spared_iff hlater hmore hlimit haligned hbefore).mp hspared with hkept | hnew
      · omega
      · exact ⟨(hclimb.eraseSafe_erase_iff hmore (by omega)).mpr ⟨hsafe, .inr hnew⟩, _, _,
          Nat.div_mul_le_self _ _, covered_erase hmore hlimit hcount⟩

/-- Before a page that is not spared, the commands are not safe or have no erase at all. -/
theorem Climb.not_erase_mem_of_not_spared (hclimb : Climb base last address need commands)
    (hmore : address < last) (hlimit : last ≤ 2 ^ 32)
    (hstep : EraseStep address need commands nextNeed erased)
    (hharmed : ¬Spared base (min ((address / 256 + 1) * 256) last)) (hsafe : EraseSafe erased)
    (start count : ℕ) : .erase start count ∉ erased := by
  rcases hclimb.lower.eq_or_lt with rfl | hlater
  · obtain ⟨hneed, hcommands⟩ := hclimb.initial rfl
    rw [spared_first_iff hmore hlimit] at hharmed
    cases hstep with
    | kept hpage =>
      rw [hcommands]
      exact List.not_mem_nil
    | erased hpage hcount => omega
  · obtain ⟨later, rfl⟩ := hstep.exists_append
    have hbefore := hclimb.verdict.mp hsafe.of_append
    obtain ⟨start, count, hcovered⟩ := hclimb.covered hlater hbefore
    have haligned := hclimb.aligned hlater hmore
    rw [hcovered.spared_iff hlater hmore hlimit haligned hbefore, not_or] at hharmed
    generalize herased : commands ++ later = erased at *
    cases hstep with
    | kept hpage => exact absurd hpage hharmed.1
    | erased hpage hcount =>
      rcases ((hclimb.eraseSafe_erase_iff hmore (by omega)).mp hsafe).2 with hfirst | hnew
      · omega
      · exact absurd hnew hharmed.2

/-- One page keeps the invariant. -/
theorem Climb.page (hclimb : Climb base last address need commands) (hmore : address < last)
    (hlimit : last ≤ 2 ^ 32) (hstep : EraseStep address need commands nextNeed erased)
    {bytes : List UInt8}
    (hlength : bytes.length = min ((address / 256 + 1) * 256 - address) (last - address)) :
    Climb base last (address + bytes.length) nextNeed
      (erased ++ [SpiCommand.writeEnable] ++ [SpiCommand.program address bytes]) := by
  have hlower := hclimb.lower
  have hstop : address + bytes.length = min ((address / 256 + 1) * 256) last := by omega
  refine ⟨by omega, by omega, by omega, by omega, ?_, fun _ ↦ ?_, ?_, fun _ hspared ↦ ?_⟩
  · intro start data hmem
    simp only [List.mem_append, List.mem_singleton, reduceCtorEq, or_false,
      hstep.program_mem_iff] at hmem
    rcases hmem with hold | hnew
    · have hend := hclimb.programs start data hold
      omega
    · obtain ⟨rfl, rfl⟩ := SpiCommand.program.inj hnew
      exact le_rfl
  · exact ⟨address, bytes, by simp, by omega, rfl, by omega⟩
  · rw [EraseSafe.enabled_program_iff, hstop]
    constructor
    · rintro ⟨hsafe, start, count, hmem, -⟩
      by_contra hharmed
      exact hclimb.not_erase_mem_of_not_spared hmore hlimit hstep hharmed hsafe start count hmem
    · intro hspared
      obtain ⟨hsafe, start, count, hstart, hcovered⟩ :=
        hclimb.erased_of_spared hmore hlimit hstep hspared
      exact ⟨hsafe, start, count, hcovered.issued, hstart, hcovered.below⟩
  · rw [hstop] at hspared ⊢
    obtain ⟨-, start, count, -, hcovered⟩ := hclimb.erased_of_spared hmore hlimit hstep hspared
    exact ⟨start, count, { hcovered with issued := by simp [hcovered.issued] }⟩

end Pages

/-! ### The code's words -/

section Words

variable (addr : UInt32)

/-- The end of the last page is zero. -/
theorem toNat_pageEnd_wrapped :
    (pageEnd addr).toNat = (addr.toNat / 256 + 1) * 256 % 2 ^ 32 := by
  have haddr := addr.toNat_lt
  simp only [pageEnd, spiPageSize, UInt32.toNat_mul, UInt32.toNat_div, UInt32.toNat_add,
    UInt32.reduceToNat]
  omega

variable {lenRemaining : ℕ} (hlimit : addr.toNat + lenRemaining ≤ 2 ^ 32)
include hlimit

/-- The length of a page is right, also when its end is zero. -/
theorem writeLen_wrapped : writeLen addr lenRemaining =
    min ((addr.toNat / 256 + 1) * 256 - addr.toNat) lenRemaining := by
  have haddr := addr.toNat_lt
  rw [writeLen, toNat_pageEnd_wrapped]
  omega

/-- An erase starts at the sector of the address. In the first sector of the last block, whose end
is zero, it is always an erase of the block. -/
theorem eraseChoice_wrapped : ∃ eraseStart opcode eraseEnd count,
    eraseChoice addr lenRemaining = (eraseStart, opcode, eraseEnd) ∧
      eraseStart.toNat = addr.toNat / 4096 * 4096 ∧
      eraseEnd.toNat = (addr.toNat / 4096 * 4096 + count) % 2 ^ 32 ∧
      (opcode = spiOpErase4K ∧ count = 4096 ∧
          (addr.toNat < 2 ^ 32 - 65536 ∨ 2 ^ 32 - 65536 + 4096 ≤ addr.toNat) ∨
        opcode = spiOpErase64K ∧ count = 65536 ∧ addr.toNat / 4096 * 4096 % 65536 = 0) := by
  have haddr := addr.toNat_lt
  have hstart64 := toNat_blockStart addr
  have hstart4 := toNat_sectorStart addr
  have hend64 : (addr / 65536 * 65536 + 65536).toNat =
      (addr.toNat / 65536 * 65536 + 65536) % 2 ^ 32 := by
    simp only [UInt32.toNat_add, hstart64, UInt32.reduceToNat]
  have hend4 : (addr / 4096 * 4096 + 4096).toNat =
      (addr.toNat / 4096 * 4096 + 4096) % 2 ^ 32 := by
    simp only [UInt32.toNat_add, hstart4, UInt32.reduceToNat]
  have hsum : (addr.toNat + lenRemaining) % 2 ^ 64 = addr.toNat + lenRemaining :=
    Nat.mod_eq_of_lt (by omega)
  simp only [eraseChoice]
  split_ifs with hblock <;>
    simp only [ge_iff_le, UInt32.le_iff_toNat_le, ← UInt32.toNat_inj, hstart64, hstart4, hend64,
      hend4, hsum] at hblock
  · have hsector : addr.toNat / 65536 * 65536 = addr.toNat / 4096 * 4096 := by omega
    refine ⟨_, _, _, 65536, rfl, by rw [hstart64, hsector], by rw [hend64, hsector],
      .inr ⟨rfl, rfl, by omega⟩⟩
  · exact ⟨_, _, _, 4096, rfl, hstart4, hend4, .inl ⟨rfl, rfl, by omega⟩⟩

end Words

/-! ### The operation -/

/-- An operation that reads nothing back. -/
def Silent (op : Operation) : Prop :=
  ∀ transaction ∈ op.transactions, transaction.misoDestBufLen = 0

/-- A step of the building of an operation that adds nothing to read back. -/
def KeepsSilent (build : Operation → Except Fault Operation) : Prop :=
  ∀ op next, build op = .ok next → Silent op → Silent next

theorem KeepsSilent.bind {first second : Operation → Except Fault Operation}
    (hfirst : KeepsSilent first) (hsecond : KeepsSilent second) :
    KeepsSilent fun op ↦ first op >>= second := by
  intro op next hnext hsilent
  cases hmiddle : first op with
  | error fault => simp [hmiddle] at hnext
  | ok middle =>
    simp only [hmiddle, ok_bind] at hnext
    exact hsecond middle next hnext (hfirst op middle hmiddle hsilent)

theorem keepsSilent_begin : KeepsSilent spiOperationBeginTransaction := by
  intro op next hnext hsilent
  rwa [Silent, beginTransaction_transactions hnext]

theorem keepsSilent_writeMosi (mosi : List UInt8) :
    KeepsSilent fun op ↦ spiOperationWriteMosi op mosi := by
  intro op next hnext hsilent
  rwa [Silent, writeMosi_transactions hnext]

theorem keepsSilent_end : KeepsSilent spiOperationEndTransaction := by
  intro op next hnext hsilent
  unfold spiOperationEndTransaction spiOperationReadMisoAndEndTransaction at hnext
  split_ifs at hnext
  · exact absurd ‹0 > 0› (lt_irrefl 0)
  · rw [← Except.ok.inj hnext]
    exact forall_mem_snoc hsilent rfl

theorem keepsSilent_writeEnable : KeepsSilent spiWriteEnable :=
  keepsSilent_begin.bind ((keepsSilent_writeMosi _).bind keepsSilent_end)

theorem keepsSilent_eraseGeneric (is4Byte : Bool) (addr : UInt32) (opcode : UInt8) :
    KeepsSilent fun op ↦ spiEraseGeneric op is4Byte addr opcode :=
  keepsSilent_writeEnable.bind (keepsSilent_begin.bind ((keepsSilent_writeMosi _).bind
    ((keepsSilent_writeMosi _).bind keepsSilent_end)))

theorem keepsSilent_writePage (is4Byte : Bool) (addr : UInt32) (buf : List UInt8) :
    KeepsSilent fun op ↦ spiWritePage op is4Byte addr buf :=
  keepsSilent_writeEnable.bind (keepsSilent_begin.bind ((keepsSilent_writeMosi _).bind
    ((keepsSilent_writeMosi _).bind ((keepsSilent_writeMosi _).bind keepsSilent_end))))

/-- Nothing is copied for an operation that reads nothing back. -/
theorem spiOperationCopyMiso_silent (response : List UInt8)
    {transactions : List SpiOperationTransaction}
    (hsilent : ∀ transaction ∈ transactions, transaction.misoDestBufLen = 0) (pos : ℕ) :
    spiOperationCopyMiso response transactions pos = some [] := by
  induction transactions generalizing pos with
  | nil => rfl
  | cons transaction rest ih =>
    have hzero := hsilent transaction List.mem_cons_self
    have hrest := ih fun other hmem ↦ hsilent other (List.mem_cons_of_mem _ hmem)
    simp [spiOperationCopyMiso, hzero, hrest]

/-- An operation that holds the pending transactions within an allowance of bytes and transactions,
none of which reads anything back. -/
structure Filled (room count : ℕ) (pending : List SpiTransaction) (op : Operation) : Prop where
  builds : Builds op pending
  fits : ∀ transaction ∈ pending, transaction.mosi.length < 2 ^ 16 ∧ transaction.misoLen < 2 ^ 16
  room : (encodeTransactions pending).length ≤ room
  count : pending.length ≤ count
  silent : Silent op

namespace Filled

variable {room count : ℕ} {pending : List SpiTransaction} {op : Operation}

theorem init : Filled 0 0 [] spiOperationInit where
  builds := .init
  fits := by simp
  room := by simp [encodeTransactions]
  count := le_rfl
  silent := by simp [Silent, spiOperationInit]

theorem mono (hfilled : Filled room count pending op) {moreRoom moreCount : ℕ}
    (hroom : room ≤ moreRoom) (hcount : count ≤ moreCount) :
    Filled moreRoom moreCount pending op :=
  { hfilled with
    room := hfilled.room.trans hroom
    count := hfilled.count.trans hcount }

/-- A command and its write enable use up 9 bytes and their own, and two transactions. -/
theorem withCommand (hfilled : Filled room count pending op) {mosi : List UInt8}
    (hmosi : mosi.length < 2 ^ 16) {next : Operation}
    (hbuilds : Builds next (SpiProxyUpdate.withCommand pending mosi)) (hsilent : Silent next) :
    Filled (room + 9 + mosi.length) (count + 2) (SpiProxyUpdate.withCommand pending mosi) next where
  builds := hbuilds
  fits := fits_withCommand hfilled.fits hmosi
  room := by
    have hroom := hfilled.room
    rw [length_encode_withCommand]
    omega
  count := by
    have hcount := hfilled.count
    simp only [SpiProxyUpdate.withCommand, List.length_append, List.length_singleton]
    omega
  silent := hsilent

/-- An erase goes into an operation with room for it. -/
theorem spiEraseGeneric (hfilled : Filled room count pending op) (hroom : room + 14 < 1016)
    (hcount : count + 1 < 12) (addr : UInt32) (opcode : UInt8) :
    ∃ next, SpiProxy.spiEraseGeneric op true addr opcode = .ok next ∧
      Filled (room + 14) (count + 2)
        (SpiProxyUpdate.withCommand pending (opcode :: addressBytes true addr)) next := by
  have hlength := length_addressBytes true addr
  obtain ⟨next, hnext, hbuilds⟩ := spiEraseGeneric_ok hfilled.builds
    (by have := hfilled.count; simp only [maxTransactions]; omega)
    (by have := hfilled.room; simp only [maxSpiOpPayloadBytes]; omega) true addr opcode
  have hfilled := hfilled.withCommand (by rw [List.length_cons, hlength]; decide) hbuilds
    (keepsSilent_eraseGeneric true addr opcode op next hnext hfilled.silent)
  rw [List.length_cons, hlength] at hfilled
  exact ⟨next, hnext, hfilled⟩

/-- A page goes into an operation with room for it. -/
theorem spiWritePage (hfilled : Filled room count pending op) (buf : List UInt8)
    (hroom : room + 14 + buf.length < 1016) (hcount : count + 1 < 12) (addr : UInt32) :
    ∃ next, SpiProxy.spiWritePage op true addr buf = .ok next ∧
      Filled (room + 14 + buf.length) (count + 2) (SpiProxyUpdate.withCommand pending
        (spiOpPageProgram :: (addressBytes true addr ++ buf))) next := by
  have hlength : (spiOpPageProgram :: (addressBytes true addr ++ buf)).length =
      5 + buf.length := by
    rw [List.length_cons, List.length_append, length_addressBytes]
    simp only [addressWidth, if_true]
    omega
  obtain ⟨next, hnext, hbuilds⟩ := spiWritePage_ok hfilled.builds
    (by have := hfilled.count; simp only [maxTransactions]; omega) buf
    (by have := hfilled.room; simp only [maxSpiOpPayloadBytes]; omega) true addr
  have hfilled := hfilled.withCommand (by omega) hbuilds
    (keepsSilent_writePage true addr buf op next hnext hfilled.silent)
  rw [hlength, ← Nat.add_assoc] at hfilled
  exact ⟨next, hnext, hfilled⟩

end Filled

/-! ### The loop -/

/-- An update part way up, of which `written` bytes are programmed by the commands sent and those in
the operation being built. -/
structure UpdateClimb (base : ℕ) (data : List UInt8) (written : ℕ) (pending : List SpiTransaction)
    (state : UpdateState) (history : HostHistory) : Prop where
  filled : Filled (284 * state.pagesInOp) (4 * state.pagesInOp) pending state.op
  addr : written < data.length → state.addr.toNat = base + written
  cbuf : state.cbuf = data.drop written
  bound : written ≤ data.length
  climb : Climb base (base + data.length) (base + written) state.needEraseAddr.toNat
    (commandsOf true (sentTransactions history ++ pending))

variable {base written : ℕ} {data : List UInt8} {pending : List SpiTransaction}
  {state : UpdateState} {history : HostHistory}

/-- The erase of a round is an erase step of its page. -/
theorem eraseIfNeeded_step
    (hfilled : Filled (284 * state.pagesInOp) (4 * state.pagesInOp) pending state.op)
    (hpages : state.pagesInOp < maxPagesPerOp)
    (hlimit : state.addr.toNat + state.cbuf.length ≤ 2 ^ 32) :
    ∃ op need nextPending,
      eraseIfNeeded true state = .ok { state with op := op, needEraseAddr := need } ∧
        Filled (284 * state.pagesInOp + 14) (4 * state.pagesInOp + 2) nextPending op ∧
        ∀ sent, EraseStep state.addr.toNat state.needEraseAddr.toNat
          (commandsOf true (sent ++ pending)) need.toNat
          (commandsOf true (sent ++ nextPending)) := by
  have hpage := toNat_pageEnd_wrapped state.addr
  simp only [maxPagesPerOp] at hpages
  unfold eraseIfNeeded
  split_ifs with hneeded <;> rw [gt_iff_lt, UInt32.lt_iff_toNat_lt, hpage] at hneeded
  · obtain ⟨eraseStart, opcode, eraseEnd, count, hchoice, hstart, hend, hkind⟩ :=
      eraseChoice_wrapped state.addr hlimit
    obtain ⟨op, hop, hnext⟩ := hfilled.spiEraseGeneric (by omega) (by omega) eraseStart opcode
    have hdecode : decodeCommand (addressWidth true) (opcode :: addressBytes true eraseStart) =
        .erase (state.addr.toNat / 4096 * 4096) count := by
      rw [← hstart]
      rcases hkind with ⟨rfl, rfl, -⟩ | ⟨rfl, rfl, hblock⟩
      · exact decodeCommand_erase4K eraseStart.toNat_lt (by omega)
      · exact decodeCommand_erase64K eraseStart.toNat_lt (by omega)
    refine ⟨op, eraseEnd, _, ?_, hnext, fun sent ↦ ?_⟩
    · rw [hchoice]
      simp [hop]
    · rw [commandsOf_withCommand, hdecode, hend]
      exact .erased hneeded (hkind.imp (fun h ↦ h.2) fun h ↦ h.2)
  · exact ⟨state.op, state.needEraseAddr, pending, rfl,
      hfilled.mono (Nat.le_add_right _ _) (Nat.le_add_right _ _),
      fun sent ↦ .kept (not_lt.mp hneeded)⟩

/-- A page never fails an assertion, and takes the update up. -/
theorem UpdateClimb.addPage_ok (hupdate : UpdateClimb base data written pending state history)
    (hmore : written < data.length) (hpages : state.pagesInOp < maxPagesPerOp)
    (hlimit : base + data.length ≤ 2 ^ 32) :
    ∃ next nextWritten nextPending, addPage true state = .ok next ∧
      UpdateClimb base data nextWritten nextPending next history ∧
      next.pagesInOp = state.pagesInOp + 1 := by
  have haddr := hupdate.addr hmore
  have hremaining : state.cbuf.length = data.length - written := by
    rw [hupdate.cbuf, List.length_drop]
  have hroom : state.addr.toNat + state.cbuf.length ≤ 2 ^ 32 := by omega
  obtain ⟨op, need, erasedPending, herased, hfilled, hstep⟩ :=
    eraseIfNeeded_step hupdate.filled hpages hroom
  have hlen := writeLen_wrapped state.addr hroom
  rw [hremaining, haddr] at hlen
  have htake : (state.cbuf.take (writeLen state.addr (data.length - written))).length =
      writeLen state.addr (data.length - written) := by
    rw [List.length_take, hremaining]
    exact Nat.min_eq_left (Nat.min_le_right _ _)
  simp only [maxPagesPerOp] at hpages
  obtain ⟨next, hnext, hpage⟩ := hfilled.spiWritePage
    (state.cbuf.take (writeLen state.addr (data.length - written))) (by omega) (by omega)
    state.addr
  have hclimb := hupdate.climb.page (by omega) hlimit (haddr ▸ hstep (sentTransactions history))
    (htake.trans (by omega))
  rw [htake] at hclimb
  refine ⟨_, written + writeLen state.addr (data.length - written),
    withCommand erasedPending (spiOpPageProgram :: (addressBytes true state.addr ++
      state.cbuf.take (writeLen state.addr (data.length - written)))),
    by simp only [addPage, herased, ok_bind, hremaining, hnext, pure_eq_ok]; rfl,
    ⟨?_, fun hmore ↦ ?_, ?_, ?_, ?_⟩, rfl⟩
  · refine hpage.mono ?_ ?_ <;> simp only <;> omega
  · rw [toNat_add_ofNat_of_lt (by omega), haddr, Nat.add_assoc]
  · rw [hupdate.cbuf, List.drop_drop]
  · omega
  · rw [commandsOf_withCommand, decodeCommand_pageProgram state.addr.toNat_lt, haddr,
      ← Nat.add_assoc]
    exact hclimb

/-- Executing the operation sends its commands. -/
theorem UpdateClimb.execute (hupdate : UpdateClimb base data written pending state history)
    (reply : HostReply (spiOperationCall state.op)) :
    UpdateClimb base data written [] { state with op := spiOperationInit, pagesInOp := 0 }
      (history ++ [⟨spiOperationCall state.op, reply⟩]) where
  filled := .init
  addr := hupdate.addr
  cbuf := hupdate.cbuf
  bound := hupdate.bound
  climb := by
    rw [sentTransactions_snoc hupdate.filled.builds hupdate.filled.fits, List.append_nil]
    exact hupdate.climb

/-- What an update to `last` shows of its range: the commands are safe on a spared range, and on
any other not if the device accepted every operation. -/
structure RangeVerdict (base last : ℕ) (history : HostHistory) : Prop where
  safe : Spared base last → EraseSafe (commandsOf true (sentTransactions history))
  harmed : (∀ exchange ∈ history, exchange.2 = acceptingReply exchange.1) →
    EraseSafe (commandsOf true (sentTransactions history)) → Spared base last

/-- A part of a safe update is safe. -/
theorem UpdateClimb.safe (hupdate : UpdateClimb base data written [] state history)
    (hspared : Spared base (base + data.length)) :
    EraseSafe (commandsOf true (sentTransactions history)) := by
  have hverdict := hupdate.climb.verdict
  rw [List.append_nil] at hverdict
  exact hverdict.mpr (hspared.mono hupdate.climb.upper)

/-- One round keeps the invariant, or ends the update with the verdict on its range. -/
theorem updateRound_climbs (hupdate : UpdateClimb base data written pending state history)
    (hpages : state.pagesInOp < maxPagesPerOp) (hflushed : state.cbuf = [] → pending = [])
    (hlimit : base + data.length ≤ 2 ^ 32) :
    Ensures recording (updateRound true state) history fun outcome final ↦
      match outcome with
      | .inl next => ∃ written pending, UpdateClimb base data written pending next.val final ∧
          next.val.pagesInOp < maxPagesPerOp ∧ (next.val.cbuf = [] → pending = [])
      | .inr _ => RangeVerdict base (base + data.length) final := by
  have hcbuf := hupdate.cbuf
  have hbound := hupdate.bound
  by_cases hremaining : state.cbuf = []
  · rw [updateRound, dif_neg (not_not.mpr hremaining), pure_eq_done, ensures_done]
    rw [hflushed hremaining] at hupdate
    rw [hcbuf, List.drop_eq_nil_iff] at hremaining
    obtain rfl : written = data.length := by omega
    have hverdict := hupdate.climb.verdict
    rw [List.append_nil] at hverdict
    exact ⟨hverdict.mpr, fun _ ↦ hverdict.mp⟩
  · have hmore : written < data.length := by
      rw [hcbuf, List.drop_eq_nil_iff] at hremaining
      omega
    obtain ⟨next, nextWritten, nextPending, hadd, hnext, hcount⟩ :=
      hupdate.addPage_ok hmore hpages hlimit
    refine ensures_updateRound hadd hremaining (fun hroom hdata _ ↦ ?_)
      (fun reply status hstatus hcopied ↦ ?_) (fun reply _ ↦ ?_)
    · exact ⟨_, _, hnext, hroom, fun hempty ↦ absurd hempty hdata⟩
    · refine ⟨(hnext.execute reply).safe, fun haccepted ↦ ?_⟩
      have hreply : reply = acceptingReply _ := haccepted ⟨_, reply⟩ (by simp)
      have hnone := hcopied _ _ hreply
      rw [spiOperationCopyMiso_silent _ hnext.filled.silent] at hnone
      cases hnone
    · exact ⟨_, _, hnext.execute reply, Nat.zero_lt_succ 2, fun _ ↦ rfl⟩

/-- Every run of an update gives the verdict on its range. -/
theorem libhothSpiProxyUpdate_verdict (addr : UInt32) (data : List UInt8)
    (hlimit : addr.toNat + data.length ≤ 2 ^ 32) :
    Ensures recording (libhothSpiProxyUpdate true addr data) [] fun _ history ↦
      RangeVerdict addr.toNat (addr.toNat + data.length) history :=
  whileDecreasing_ensures
    (fun state history ↦ ∃ written pending,
      UpdateClimb addr.toNat data written pending state history ∧
        state.pagesInOp < maxPagesPerOp ∧ (state.cbuf = [] → pending = []))
    (fun state history ⟨written, pending, hupdate, hpages, hflushed⟩ ↦
      (updateRound_climbs hupdate hpages hflushed hlimit).mono fun outcome _ houtcome ↦ by
        cases outcome <;> exact houtcome)
    _ [] ⟨0, [], ⟨.init, fun _ ↦ rfl, rfl, Nat.zero_le _, .start (Nat.le_add_right _ _)⟩,
      Nat.zero_lt_succ 2, fun _ ↦ rfl⟩

/-- On a range that is not spared, some run erases what it programmed or programs what it did not
erase. -/
theorem exists_not_eraseSafe (addr : UInt32) (data : List UInt8)
    (hlimit : addr.toNat + data.length ≤ 2 ^ 32)
    (hharmed : ¬Spared addr.toNat (addr.toNat + data.length)) :
    ∃ result history, Runs recording (libhothSpiProxyUpdate true addr data) [] result history ∧
      ¬EraseSafe (commandsOf true (sentTransactions history)) := by
  obtain ⟨result, history, hanswers⟩ :=
    exists_runs_recordingAnswers acceptingReply (libhothSpiProxyUpdate true addr data) []
  have hverdict := libhothSpiProxyUpdate_verdict addr data hlimit result history
    hanswers.recording_of_answers
  exact ⟨result, history, hanswers.recording_of_answers, fun hsafe ↦
    hharmed (hverdict.harmed (hanswers.eq_answer (by simp)) hsafe)⟩

/-- The commands of an update are safe in every run, whatever the device answers, if and only if
its range is spared: for every address and data that end within the 32-bit address space. -/
theorem libhothSpiProxyUpdate_eraseSafe_iff (addr : UInt32) (data : List UInt8)
    (hlimit : addr.toNat + data.length ≤ 2 ^ 32) :
    (∀ result history, Runs recording (libhothSpiProxyUpdate true addr data) [] result history →
        EraseSafe (commandsOf true (sentTransactions history))) ↔
      Spared addr.toNat (addr.toNat + data.length) := by
  constructor
  · intro hsafe
    by_contra hharmed
    obtain ⟨result, history, hrun, hunsafe⟩ := exists_not_eraseSafe addr data hlimit hharmed
    exact hunsafe (hsafe result history hrun)
  · intro hspared result history hrun
    exact (libhothSpiProxyUpdate_verdict addr data hlimit result history hrun).safe hspared

/-- Two pages in the middle of the last block, which are spared. -/
theorem libhothSpiProxyUpdate_eraseSafe_iff_middle :
    Spared 0xFFFF8000 (0xFFFF8000 + 512) ∧
      ∀ result history, Runs recording (libhothSpiProxyUpdate true 0xFFFF8000
          (List.replicate 512 0)) [] result history →
        EraseSafe (commandsOf true (sentTransactions history)) :=
  ⟨by decide, (libhothSpiProxyUpdate_eraseSafe_iff 0xFFFF8000 (List.replicate 512 0)
    (by rw [List.length_replicate]; decide)).mpr (by rw [List.length_replicate]; decide)⟩

/-- An update of the whole last sector erases it again after its first page. -/
theorem not_eraseSafe_last_sector :
    ¬∀ (addr : UInt32) (data : List UInt8), 2 ^ 32 - 65536 < addr.toNat + data.length →
      addr.toNat + data.length ≤ 2 ^ 32 → ∀ result history,
        Runs recording (libhothSpiProxyUpdate true addr data) [] result history →
          EraseSafe (commandsOf true (sentTransactions history)) := by
  intro hclaim
  have hlength : (List.replicate 4096 (0 : UInt8)).length = 4096 := List.length_replicate
  obtain ⟨result, history, hrun, hunsafe⟩ :=
    exists_not_eraseSafe 0xFFFFF000 (List.replicate 4096 0) (by rw [hlength]; decide)
      (by rw [hlength]; decide)
  exact hunsafe (hclaim 0xFFFFF000 _ (by rw [hlength]; decide) (by rw [hlength]; decide) result
    history hrun)

end Libhoth.Protocol.SpiProxyTop
