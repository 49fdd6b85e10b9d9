import Libhoth.Foundation.ByteString
import Libhoth.Foundation.InteractingProgram
import Libhoth.Foundation.NorFlash

/-!
# SPI NOR flash

A SPI NOR chip executes one command per transaction: a command byte, an address with its most
significant byte first, and data. `decodeCommand` reads the commands that change the cells and
`SpiFlash.execute` is their effect. An erase or a program needs the write-enable latch, which a
write enable sets and the erase or program clears.

`Disciplined` is what a driver owes the chip over a whole sequence of commands: every erase and
program directly follows a write enable, no erase touches a byte that was programmed before it, and
no program leaves its 256-byte page. `Disciplined.snoc` extends a sequence by one command, and
`run_enabled_erase` and `run_enabled_program` are the effect of an enabled command.

`EraseSafe` is what a driver that erases as it goes owes its own data: no erase of what it has
programmed, and no program of what it has not erased.
-/

set_option autoImplicit false
set_option relaxedAutoImplicit false

namespace Libhoth.Foundation.SpiNorFlash

open ByteString CellMemory InteractingProgram NorFlash

/-- The commands of a chip that matter to its cells. -/
inductive SpiCommand
  | writeEnable
  | erase (address count : ℕ)
  | program (address : ℕ) (data : List UInt8)
  | other
  deriving DecidableEq

/-- A command that changes the cells. -/
def SpiCommand.Modifies : SpiCommand → Prop
  | .erase _ _ | .program _ _ => True
  | .writeEnable | .other => False

/-- The command of a transaction, for addresses of `width` bytes. -/
def decodeCommand (width : ℕ) : List UInt8 → SpiCommand
  | [] => .other
  | opcode :: rest =>
    let address := littleEndian (rest.take width).reverse
    if opcode = 0x06 then .writeEnable
    else if opcode = 0x20 then .erase (address / 4096 * 4096) 4096
    else if opcode = 0xd8 then .erase (address / 65536 * 65536) 65536
    else if opcode = 0x02 then .program address (rest.drop width)
    else .other

/-- A chip: its cells and its write-enable latch. -/
structure SpiFlash where
  cells : ℕ → UInt8
  writeEnabled : Bool

/-- The effect of a command. -/
def SpiFlash.execute (device : SpiFlash) : SpiCommand → SpiFlash
  | .writeEnable => { device with writeEnabled := true }
  | .erase address count =>
    if device.writeEnabled then ⟨erase device.cells address count, false⟩ else device
  | .program address data =>
    if device.writeEnabled then ⟨program device.cells address data, false⟩ else device
  | .other => device

/-- The effect of a sequence of commands. -/
def SpiFlash.run (device : SpiFlash) (commands : List SpiCommand) : SpiFlash :=
  commands.foldl SpiFlash.execute device

/-- What a chip may send back during a transaction: behind a read command and its address the cells
from that address on, and anything elsewhere. -/
def MaySend (width : ℕ) (cells : ℕ → UInt8) (mosi miso : List UInt8) : Prop :=
  ∀ rest, mosi = 0x03 :: rest → ∀ index, 1 + width + index < miso.length →
    miso[1 + width + index]? = some (cells (littleEndian (rest.take width).reverse + index))

/-- Behind a read command and its address come the cells. -/
theorem MaySend.slice_eq_load {width : ℕ} {cells : ℕ → UInt8} {rest miso : List UInt8}
    (hsend : MaySend width cells (0x03 :: rest) miso) {count : ℕ}
    (hlength : miso.length = 1 + width + count) :
    slice miso (1 + width) count = load cells (littleEndian (rest.take width).reverse) count := by
  refine (load_eq_of_getElem? (length_slice_of_le hlength.ge) fun index hindex ↦ ?_).symm
  rw [getElem?_slice, if_pos hindex]
  exact hsend rest rfl index (by omega)

/-- A chip can send as many bytes as a transaction asks for. -/
theorem exists_maySend (width : ℕ) (cells : ℕ → UInt8) (mosi : List UInt8) (count : ℕ) :
    ∃ miso, miso.length = count ∧ MaySend width cells mosi miso := by
  refine ⟨(List.range count).map fun index ↦
    cells (littleEndian (mosi.tail.take width).reverse + (index - (1 + width))), by simp, ?_⟩
  rintro rest rfl index hindex
  rw [List.length_map, List.length_range] at hindex
  rw [List.getElem?_map, List.getElem?_range hindex, Option.map_some, List.tail_cons,
    Nat.add_sub_cancel_left]

/-- A write enable and an erase erase the cells. -/
theorem run_enabled_erase (device : SpiFlash) (commands : List SpiCommand) (address count : ℕ) :
    (device.run (commands ++ [SpiCommand.writeEnable] ++ [SpiCommand.erase address count])).cells =
      erase (device.run commands).cells address count := by
  simp [SpiFlash.run, SpiFlash.execute]

/-- A write enable and a program program the cells. -/
theorem run_enabled_program (device : SpiFlash) (commands : List SpiCommand) (address : ℕ)
    (data : List UInt8) :
    (device.run (commands ++ [SpiCommand.writeEnable] ++ [SpiCommand.program address data])).cells =
      program (device.run commands).cells address data := by
  simp [SpiFlash.run, SpiFlash.execute]

/-! ### Disciplined drivers -/

/-- What a driver owes a chip over a sequence of commands. -/
structure Disciplined (commands : List SpiCommand) : Prop where
  enabled : ∀ before command after, commands = before ++ command :: after → command.Modifies →
    ∃ earlier, before = earlier ++ [.writeEnable]
  unspoiled : ∀ before address count after, commands = before ++ .erase address count :: after →
    ∀ start data, .program start data ∈ before →
      start + data.length ≤ address ∨ address + count ≤ start
  paged : ∀ start data, .program start data ∈ commands →
    data ≠ [] ∧ start / 256 = (start + data.length - 1) / 256

namespace Disciplined

variable {commands : List SpiCommand}

theorem nil : Disciplined [] where
  enabled := by simp
  unspoiled := by simp
  paged := by simp

/-- One more command, fit to follow the commands before it. -/
theorem snoc (hdisciplined : Disciplined commands) {last : SpiCommand}
    (henabled : last.Modifies → ∃ earlier, commands = earlier ++ [SpiCommand.writeEnable])
    (hunspoiled : ∀ address count, last = .erase address count → ∀ start data,
      .program start data ∈ commands → start + data.length ≤ address ∨ address + count ≤ start)
    (hpaged : ∀ start data, last = .program start data →
      data ≠ [] ∧ start / 256 = (start + data.length - 1) / 256) :
    Disciplined (commands ++ [last]) where
  enabled := by
    intro before command after hsplit hmodifies
    rcases snoc_eq_append_cons hsplit with ⟨rfl, rfl, -⟩ | ⟨rest, hold⟩
    · exact henabled hmodifies
    · exact hdisciplined.enabled before command rest hold hmodifies
  unspoiled := by
    intro before address count after hsplit start data hmem
    rcases snoc_eq_append_cons hsplit with ⟨rfl, hlast, -⟩ | ⟨rest, hold⟩
    · exact hunspoiled address count hlast.symm start data hmem
    · exact hdisciplined.unspoiled before address count rest hold start data hmem
  paged := by
    intro start data hmem
    rcases List.mem_append.mp hmem with hold | hnew
    · exact hdisciplined.paged start data hold
    · exact hpaged start data (List.mem_singleton.mp hnew).symm

/-- A write enable can follow anything. -/
theorem snoc_writeEnable (hdisciplined : Disciplined commands) :
    Disciplined (commands ++ [SpiCommand.writeEnable]) :=
  hdisciplined.snoc False.elim (fun _ _ h ↦ by cases h) (fun _ _ h ↦ by cases h)

/-- An enabled erase above everything programmed. -/
theorem snoc_erase (hdisciplined : Disciplined commands) {address count : ℕ}
    (habove : ∀ start data, .program start data ∈ commands → start + data.length ≤ address) :
    Disciplined (commands ++ [SpiCommand.writeEnable] ++ [SpiCommand.erase address count]) := by
  refine hdisciplined.snoc_writeEnable.snoc (fun _ ↦ ⟨_, rfl⟩) ?_ (fun _ _ h ↦ by cases h)
  intro _ _ heq start data hmem
  obtain ⟨rfl, rfl⟩ := SpiCommand.erase.inj heq
  exact .inl (habove start data (by simpa using hmem))

/-- An enabled program within a page. -/
theorem snoc_program (hdisciplined : Disciplined commands) {address : ℕ} {data : List UInt8}
    (hdata : data ≠ []) (hpage : address / 256 = (address + data.length - 1) / 256) :
    Disciplined (commands ++ [SpiCommand.writeEnable] ++ [SpiCommand.program address data]) := by
  refine hdisciplined.snoc_writeEnable.snoc (fun _ ↦ ⟨_, rfl⟩) (fun _ _ h ↦ by cases h) ?_
  intro _ _ heq
  obtain ⟨rfl, rfl⟩ := SpiCommand.program.inj heq
  exact ⟨hdata, hpage⟩

end Disciplined

/-! ### Erasing as one goes -/

/-- A command that may not follow the commands before it: the erase of a byte that was programmed,
or the program of bytes that no erase covers. -/
def Spoils (before : List SpiCommand) : SpiCommand → Prop
  | .erase address count => ∃ start data, .program start data ∈ before ∧
      start < address + count ∧ address < start + data.length
  | .program start data => ¬∃ address count, .erase address count ∈ before ∧
      address ≤ start ∧ start + data.length ≤ address + count
  | .writeEnable | .other => False

/-- No command erases what was programmed, and none programs what was not erased. -/
def EraseSafe (commands : List SpiCommand) : Prop :=
  Unbroken Spoils commands

namespace EraseSafe

variable {commands : List SpiCommand}

theorem nil : EraseSafe [] :=
  Unbroken.nil Spoils

theorem of_append {later : List SpiCommand} (hsafe : EraseSafe (commands ++ later)) :
    EraseSafe commands :=
  Unbroken.of_append hsafe

/-- An enabled erase is safe when it misses everything programmed. -/
theorem enabled_erase_iff {address count : ℕ} :
    EraseSafe (commands ++ [SpiCommand.writeEnable] ++ [SpiCommand.erase address count]) ↔
      EraseSafe commands ∧ ∀ start data, .program start data ∈ commands →
        start + data.length ≤ address ∨ address + count ≤ start := by
  rw [EraseSafe, unbroken_snoc_iff, unbroken_snoc_iff]
  simp only [Spoils, not_false_eq_true, and_true, List.mem_append, List.mem_singleton,
    reduceCtorEq, or_false, not_exists, not_and, not_lt]
  refine and_congr_right fun _ ↦ forall_congr' fun start ↦ forall_congr' fun data ↦
    imp_congr_right fun _ ↦ ?_
  omega

/-- An enabled program is safe when an erase covers it. -/
theorem enabled_program_iff {start : ℕ} {data : List UInt8} :
    EraseSafe (commands ++ [SpiCommand.writeEnable] ++ [SpiCommand.program start data]) ↔
      EraseSafe commands ∧ ∃ address count, .erase address count ∈ commands ∧
        address ≤ start ∧ start + data.length ≤ address + count := by
  rw [EraseSafe, unbroken_snoc_iff, unbroken_snoc_iff]
  simp only [Spoils, not_false_eq_true, and_true, List.mem_append, List.mem_singleton,
    reduceCtorEq, or_false, not_not]
  exact Iff.rfl

end EraseSafe

end Libhoth.Foundation.SpiNorFlash
