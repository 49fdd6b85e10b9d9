import Mathlib.Data.Finset.Basic
import Mathlib.Tactic.Common

/-!
# The blocks that a program owns

`Blocks` is what an allocator has given a program and not got back, with whether the program ever
gave back what it did not have. `alloc` and `free` are what the two calls do to it, and `Moved` is
what a call does that may allocate a block, or exchange the one that it is given for another.

A block that was free is as if it had never been there once it is given back (`free_alloc`), and
blocks may be taken and given back in any order (`alloc_comm`, `free_alloc_of_ne`). `withBlock` is
for a block that may be there or not.
-/

set_option autoImplicit false
set_option relaxedAutoImplicit false

namespace Libhoth.Foundation.OwnedBlocks

/-- The addresses of the blocks, and whether one was freed that was not there. -/
@[ext] structure Blocks where
  owned : Finset ℕ
  faulted : Bool

namespace Blocks

variable (blocks : Blocks)

/-- A block is allocated. -/
def alloc (address : ℕ) : Blocks :=
  { blocks with owned := insert address blocks.owned }

/-- A block is freed. -/
def free (address : ℕ) : Blocks where
  owned := blocks.owned.erase address
  faulted := blocks.faulted || decide (address ∉ blocks.owned)

/-- A block is allocated, if it is there. -/
def withBlock (block : Option ℕ) : Blocks :=
  block.elim blocks blocks.alloc

/-- What a call does that is given a block or none: with none it may allocate one, and the one that
it is given it may move. -/
def Moved : Option ℕ → Option ℕ → Blocks → Prop
  | none, none, later => later = blocks
  | none, some address, later => address ∉ blocks.owned ∧ later = blocks.alloc address
  | some address, some moved, later =>
    moved ∉ (blocks.free address).owned ∧ later = (blocks.free address).alloc moved
  | some _, none, _ => False

variable {blocks}

/-- Allocating a block and freeing it changes nothing. -/
theorem free_alloc {address : ℕ} (hfree : address ∉ blocks.owned) :
    (blocks.alloc address).free address = blocks := by
  ext1
  · exact Finset.erase_insert hfree
  · simp [free, alloc]

/-- Two blocks may be allocated in either order. -/
theorem alloc_comm (first second : ℕ) :
    (blocks.alloc first).alloc second = (blocks.alloc second).alloc first := by
  ext1
  · exact Finset.insert_comm second first blocks.owned
  · rfl

/-- Another block may be allocated before one is freed. -/
theorem free_alloc_of_ne {address other : ℕ} (hother : address ≠ other) :
    (blocks.alloc address).free other = (blocks.free other).alloc address := by
  ext1
  · exact Finset.erase_insert_of_ne hother
  · simp [free, alloc, hother.symm]

theorem free_withBlock_of_ne {block : Option ℕ} {other : ℕ}
    (hother : ∀ address ∈ block, address ≠ other) :
    (blocks.withBlock block).free other = (blocks.free other).withBlock block := by
  cases block with
  | none => rfl
  | some address => exact free_alloc_of_ne (hother address rfl)

/-- A block that is free behind an allocation is another one, and was free before. -/
theorem notMem_alloc_iff {address other : ℕ} :
    other ∉ (blocks.alloc address).owned ↔ other ≠ address ∧ other ∉ blocks.owned := by
  simp [alloc]

/-- The block that such a call leaves is as good as the one that it was given. -/
theorem Moved.withBlock {before after : Option ℕ} {later : Blocks}
    (hmoved : (blocks.withBlock before).Moved before after later)
    (hbefore : ∀ address ∈ before, address ∉ blocks.owned) :
    (∀ address ∈ after, address ∉ blocks.owned) ∧ later = blocks.withBlock after := by
  cases before with
  | none =>
    cases after with
    | none => exact ⟨fun _ hnone ↦ (Option.not_mem_none _ hnone).elim, hmoved⟩
    | some address =>
      refine ⟨?_, hmoved.2⟩
      rintro _ ⟨⟩
      exact hmoved.1
  | some address =>
    cases after with
    | none => exact hmoved.elim
    | some moved =>
      have hback : (blocks.withBlock (some address)).free address = blocks :=
        free_alloc (hbefore address rfl)
      obtain ⟨hfree, hlater⟩ := hmoved
      rw [hback] at hfree hlater
      refine ⟨?_, hlater⟩
      rintro _ ⟨⟩
      exact hfree

end Blocks

end Libhoth.Foundation.OwnedBlocks
