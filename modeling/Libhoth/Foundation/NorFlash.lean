import Libhoth.Foundation.CellMemory

/-!
# NOR flash

A flash cell has an erased value and programming merges a value into it; programming an erased cell
stores the value (`NorCell`). Bytes with bitwise conjunction and erased value `0xFF` are the usual
instance. `erase` resets a range of cells and `program` merges values into one.

`Staged` describes a flash part way through an update: the cells of `[start, stop)` have been
erased, the first `written` cells of the data have been programmed from `base` on, and every other
cell is as it was. The update of a flash is a sequence of three kinds of step, and each keeps the
description: erasing the next cells (`Staged.erase`), programming the next cells into erased ones
(`Staged.program`), and passing over cells whose data is the erased value (`Staged.skip`).
-/

set_option autoImplicit false
set_option relaxedAutoImplicit false

namespace Libhoth.Foundation.NorFlash

open CellMemory

/-- A kind of flash cell: its erased value and the effect of programming. -/
class NorCell (α : Type*) where
  /-- The value of a cell after an erase. -/
  erased : α
  /-- The value of a cell after a program, from the value before and the programmed one. -/
  combine : α → α → α
  /-- Programming an erased cell stores the programmed value. -/
  combine_erased : ∀ value, combine erased value = value

export NorCell (erased combine combine_erased)

/-- Bytes: an erase sets every bit and a program can only clear bits. -/
instance : NorCell UInt8 where
  erased := 0xFF
  combine := (· &&& ·)
  combine_erased := fun value ↦ by
    apply UInt8.eq_of_toBitVec_eq
    exact BitVec.allOnes_and

variable {α : Type*} [NorCell α]

/-- Reset `count` cells from `offset` on. -/
def erase (flash : ℕ → α) (offset count : ℕ) (address : ℕ) : α :=
  if offset ≤ address ∧ address < offset + count then erased else flash address

/-- Merge data into the cells from `offset` on. -/
def program (flash : ℕ → α) (offset : ℕ) (data : List α) : ℕ → α :=
  writeWith combine flash offset data

@[simp] theorem erase_zero (flash : ℕ → α) (offset : ℕ) : erase flash offset 0 = flash :=
  funext fun _ ↦ if_neg (by omega)

/-- Two erases next to each other are one. -/
theorem erase_erase_append (flash : ℕ → α) (offset first second : ℕ) :
    erase (erase flash offset first) (offset + first) second =
      erase flash offset (first + second) := by
  funext address
  unfold erase
  split_ifs <;> first | rfl | omega

@[simp] theorem program_nil (flash : ℕ → α) (offset : ℕ) : program flash offset [] = flash :=
  funext fun _ ↦ dif_neg (by rw [List.length_nil]; omega)

/-- Two programs next to each other are one. -/
theorem program_program_append (flash : ℕ → α) (offset : ℕ) (first second : List α) :
    program (program flash offset first) (offset + first.length) second =
      program flash offset (first ++ second) :=
  writeWith_writeWith_append combine flash offset first second

/-- Programming the erased byte clears no bit. -/
theorem program_erased_byte (flash : ℕ → UInt8) (offset : ℕ) :
    program flash offset [0xFF] = flash := by
  have hkept : ∀ value : UInt8, value &&& 0xFF = value := fun value ↦
    UInt8.eq_of_toBitVec_eq BitVec.and_allOnes
  funext address
  unfold program writeWith
  split_ifs with hinside
  · obtain rfl : address = offset := by
      have hbelow := hinside.2
      rw [List.length_singleton] at hbelow
      omega
    simp only [Nat.sub_self, List.getElem_cons_zero]
    exact hkept (flash address)
  · rfl

/-- Cells in an erased range hold what is programmed into them. -/
theorem program_erase_of_mem (flash : ℕ → α) {start count offset address : ℕ} {data : List α}
    (herased : start ≤ address ∧ address < start + count) (hlower : offset ≤ address)
    (hupper : address < offset + data.length) :
    program (erase flash start count) offset data address = data[address - offset] := by
  rw [program, writeWith_of_mem _ _ hlower hupper, erase, if_pos herased, combine_erased]

/-- A flash part way through an update: `[start, stop)` has been erased, the first `written`
cells of the data have been programmed from `base` on, and nothing else has changed. -/
def Staged (original : ℕ → α) (start stop base : ℕ) (data : List α) (written : ℕ)
    (flash : ℕ → α) : Prop :=
  ∀ address, (base ≤ address → address < base + written →
      data[address - base]? = some (flash address)) ∧
    (start ≤ address → address < stop → ¬(base ≤ address ∧ address < base + written) →
      flash address = erased) ∧
    (¬(start ≤ address ∧ address < stop) → ¬(base ≤ address ∧ address < base + written) →
      flash address = original address)

namespace Staged

variable {original flash : ℕ → α} {start stop base written : ℕ} {data : List α}

/-- Before the first step nothing has been erased or written. -/
theorem initial (original : ℕ → α) (start base : ℕ) (data : List α) :
    Staged original start start base data 0 original := by
  intro address
  exact ⟨fun _ hupper ↦ absurd hupper (by omega), fun _ hupper ↦ absurd hupper (by omega),
    fun _ _ ↦ rfl⟩

/-- Erasing the cells from `stop` on extends the erased range, when nothing has been written
there. -/
theorem erase (hstaged : Staged original start stop base data written flash) {count : ℕ}
    (hstart : start ≤ stop) (hunwritten : base + written ≤ stop ∨ written = 0) :
    Staged original start (stop + count) base data written
      (NorFlash.erase flash stop count) := by
  intro address
  obtain ⟨hdata, herased, hkept⟩ := hstaged address
  unfold NorFlash.erase
  refine ⟨fun hlower hupper ↦ ?_, fun hlower hupper hout ↦ ?_, fun hrange hout ↦ ?_⟩
  · rw [if_neg (by omega)]
    exact hdata hlower hupper
  · split_ifs with hnew
    · rfl
    · exact herased hlower (by omega) hout
  · rw [if_neg (by omega)]
    exact hkept (by omega) hout

/-- Programming the next cells of the data into erased cells extends the written range. -/
theorem program (hstaged : Staged original start stop base data written flash) (chunk : List α)
    (hchunk : ∀ (index : ℕ) (hindex : index < chunk.length),
      data[written + index]? = some chunk[index])
    (hlower : start ≤ base + written) (hupper : base + written + chunk.length ≤ stop) :
    Staged original start stop base data (written + chunk.length)
      (NorFlash.program flash (base + written) chunk) := by
  intro address
  obtain ⟨hdata, herased, hkept⟩ := hstaged address
  unfold NorFlash.program
  rcases Nat.lt_or_ge address (base + written) with hbelow | hnotbelow
  · rw [writeWith_of_lt _ _ _ hbelow]
    exact ⟨fun hbase _ ↦ hdata hbase hbelow, fun h₁ h₂ hout ↦ herased h₁ h₂ (by omega),
      fun hrange hout ↦ hkept hrange (by omega)⟩
  · rcases Nat.lt_or_ge address (base + written + chunk.length) with hinside | habove
    · rw [writeWith_of_mem _ _ hnotbelow hinside,
        herased (by omega) (by omega) (by omega), combine_erased]
      refine ⟨fun _ _ ↦ ?_, fun _ _ hout ↦ absurd hout (by omega),
        fun _ hout ↦ absurd hout (by omega)⟩
      have hindex : written + (address - (base + written)) = address - base := by omega
      exact hindex ▸ hchunk (address - (base + written)) (by omega)
    · rw [writeWith_of_ge _ _ habove]
      exact ⟨fun _ hlt ↦ absurd hlt (by omega), fun h₁ h₂ hout ↦ herased h₁ h₂ (by omega),
        fun hrange hout ↦ hkept hrange (by omega)⟩

/-- Cells whose data is the erased value need no programming. -/
theorem skip (hstaged : Staged original start stop base data written flash) {count : ℕ}
    (hskip : ∀ index, index < count → data[written + index]? = some erased)
    (hlower : start ≤ base + written) (hupper : base + written + count ≤ stop) :
    Staged original start stop base data (written + count) flash := by
  intro address
  obtain ⟨hdata, herased, hkept⟩ := hstaged address
  refine ⟨fun hbase hlt ↦ ?_, fun h₁ h₂ hout ↦ herased h₁ h₂ (by omega),
    fun hrange hout ↦ hkept hrange (by omega)⟩
  rcases Nat.lt_or_ge address (base + written) with hbelow | hnotbelow
  · exact hdata hbase hbelow
  · have hindex : written + (address - (base + written)) = address - base := by omega
    rw [herased (by omega) (by omega) (by omega), ← hindex]
    exact hskip (address - (base + written)) (by omega)

end Staged

end Libhoth.Foundation.NorFlash
