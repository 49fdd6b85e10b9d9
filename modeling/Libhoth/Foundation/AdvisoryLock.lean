import Mathlib.Logic.Function.Basic
import Mathlib.Tactic.Common

/-!
# Advisory locks on open files

A `LockTable` is what a kernel keeps of the files that processes have open and of the exclusive
locks on them. A file is open under a descriptor of a process, and the lock on a file belongs to
one of the descriptors under which it is open, so that another descriptor cannot have it.

`openAt`, `lockAt`, `unlockAt` and `closeAt` are the operations. A `Holding` is the part of a table
that concerns one process. Each operation acts on the part of its own process as the operation of
the same name on `Holding` (`holding_openAt_self` and its like) and leaves the others alone
(`holding_openAt_of_ne` and its like). A lock on a file has one owner (`LockTable.owner_of_holds`).
-/

set_option autoImplicit false
set_option relaxedAutoImplicit false

namespace Libhoth.Foundation.AdvisoryLock

variable {Process Node : Type}

/-- The open files of all processes and the owner of the lock on each file. -/
structure LockTable (Process Node : Type) where
  opened : Process → ℕ → Option Node
  owner : Node → Option (Process × ℕ)
  owner_opened : ∀ node process fd, owner node = some (process, fd) →
    opened process fd = some node

/-- The open files of one process, and the descriptors of it that own a lock. -/
@[ext] structure Holding (Node : Type) where
  opened : ℕ → Option Node
  holds : ℕ → Prop

namespace Holding

variable (holding : Holding Node)

/-- A file is opened under a descriptor. -/
def openAt (fd : ℕ) (node : Node) : Holding Node :=
  ⟨Function.update holding.opened fd (some node), holding.holds⟩

/-- A descriptor gets the lock. -/
def lockAt (fd : ℕ) : Holding Node :=
  ⟨holding.opened, Function.update holding.holds fd True⟩

/-- A descriptor gives up the lock. -/
def unlockAt (fd : ℕ) : Holding Node :=
  ⟨holding.opened, Function.update holding.holds fd False⟩

/-- A descriptor is closed. -/
def closeAt (fd : ℕ) : Holding Node :=
  ⟨Function.update holding.opened fd none, Function.update holding.holds fd False⟩

/-- Only a descriptor under which a file is open owns a lock. -/
def Clean : Prop :=
  ∀ fd, holding.opened fd = none → ¬holding.holds fd

variable {holding}

@[simp] theorem closeAt_lockAt (fd : ℕ) : (holding.lockAt fd).closeAt fd = holding.closeAt fd := by
  simp [lockAt, closeAt]

/-- Opening a file under a free descriptor and closing it changes nothing. -/
theorem Clean.closeAt_openAt (hclean : holding.Clean) {fd : ℕ} (hfree : holding.opened fd = none)
    (node : Node) : (holding.openAt fd node).closeAt fd = holding := by
  have hholds : holding.holds fd = False := eq_false (hclean fd hfree)
  ext : 1
  · simp [openAt, closeAt, ← hfree]
  · simp [openAt, closeAt, ← hholds]

/-- Opening a file takes no lock. -/
theorem Clean.openAt (hclean : holding.Clean) (fd : ℕ) (node : Node) :
    (holding.openAt fd node).Clean := by
  intro descriptor hclosed
  rcases eq_or_ne descriptor fd with rfl | hother
  · exact absurd (hclosed.symm.trans (Function.update_self _ _ _)) (Option.some_ne_none node).symm
  · exact hclean descriptor ((Function.update_of_ne hother _ _).symm.trans hclosed)

end Holding

namespace LockTable

variable (table : LockTable Process Node)

/-- A descriptor owns the lock on the file that is open under it. -/
def Holds (process : Process) (fd : ℕ) : Prop :=
  ∃ node, table.owner node = some (process, fd)

/-- What concerns one process. -/
def holding (process : Process) : Holding Node :=
  ⟨table.opened process, table.Holds process⟩

variable {table}

/-- The owner of the lock on a file is not a descriptor under which nothing is open. -/
theorem owner_ne_of_closed {process : Process} {fd : ℕ} (hclosed : table.opened process fd = none)
    (node : Node) : table.owner node ≠ some (process, fd) := by
  intro howner
  rw [table.owner_opened node process fd howner] at hclosed
  exact Option.some_ne_none node hclosed

/-- A descriptor that holds a lock holds the lock on the file that is open under it. -/
theorem owner_of_holds {process : Process} {fd : ℕ} (hholds : table.Holds process fd) {node : Node}
    (hopened : table.opened process fd = some node) : table.owner node = some (process, fd) := by
  obtain ⟨other, howner⟩ := hholds
  have hsame := table.owner_opened other process fd howner
  rw [hopened] at hsame
  exact Option.some.inj hsame ▸ howner

variable (table) [DecidableEq Process]

/-- A file is opened under a descriptor that is free. -/
def openAt (process : Process) (fd : ℕ) (node : Node) (hfree : table.opened process fd = none) :
    LockTable Process Node where
  opened := Function.update table.opened process
    (Function.update (table.opened process) fd (some node))
  owner := table.owner
  owner_opened locked holder descriptor howner := by
    have hopened := table.owner_opened locked holder descriptor howner
    rcases eq_or_ne holder process with rfl | hother
    · have hne : descriptor ≠ fd := fun hsame ↦
        owner_ne_of_closed (hsame ▸ hfree) locked howner
      rwa [Function.update_self, Function.update_of_ne hne]
    · rwa [Function.update_of_ne hother]

/-- A descriptor gets the lock on its file, which no other descriptor has. -/
def lockAt [DecidableEq Node] (process : Process) (fd : ℕ) (node : Node)
    (hopened : table.opened process fd = some node) : LockTable Process Node where
  opened := table.opened
  owner := Function.update table.owner node (some (process, fd))
  owner_opened locked holder descriptor howner := by
    rcases eq_or_ne locked node with rfl | hother
    · rw [Function.update_self] at howner
      obtain ⟨rfl, rfl⟩ := Prod.mk.inj (Option.some.inj howner)
      exact hopened
    · rw [Function.update_of_ne hother] at howner
      exact table.owner_opened locked holder descriptor howner

/-- A descriptor gives up the lock, if it has it. -/
def unlockAt (process : Process) (fd : ℕ) : LockTable Process Node where
  opened := table.opened
  owner node := if table.owner node = some (process, fd) then none else table.owner node
  owner_opened locked holder descriptor howner := by
    split_ifs at howner
    exact table.owner_opened locked holder descriptor howner

/-- A descriptor is closed, and gives up the lock. -/
def closeAt (process : Process) (fd : ℕ) : LockTable Process Node where
  opened := Function.update table.opened process (Function.update (table.opened process) fd none)
  owner node := if table.owner node = some (process, fd) then none else table.owner node
  owner_opened locked holder descriptor howner := by
    split_ifs at howner with hsame
    have hopened := table.owner_opened locked holder descriptor howner
    rcases eq_or_ne holder process with rfl | hother
    · have hne : descriptor ≠ fd := fun heq ↦ hsame (heq ▸ howner)
      rwa [Function.update_self, Function.update_of_ne hne]
    · rwa [Function.update_of_ne hother]

/-! ### What an operation does to the part of a process -/

variable {table} {process : Process} {fd : ℕ}

@[simp] theorem holding_openAt_self {node : Node} (hfree : table.opened process fd = none) :
    (table.openAt process fd node hfree).holding process =
      (table.holding process).openAt fd node := by
  ext : 1
  · exact Function.update_self _ _ _
  · rfl

theorem holding_openAt_of_ne {other : Process} (hother : other ≠ process) {node : Node}
    (hfree : table.opened process fd = none) :
    (table.openAt process fd node hfree).holding other = table.holding other := by
  ext : 1
  · exact Function.update_of_ne hother _ _
  · rfl

omit [DecidableEq Process] in
/-- Who holds a lock after a descriptor got the lock on its file, which was free or its own. -/
theorem holds_lockAt_iff [DecidableEq Node] {node : Node}
    (hopened : table.opened process fd = some node)
    (hfree : table.owner node = none ∨ table.owner node = some (process, fd))
    (holder : Process) (descriptor : ℕ) :
    (table.lockAt process fd node hopened).Holds holder descriptor ↔
      (holder = process ∧ descriptor = fd) ∨ table.Holds holder descriptor := by
  constructor
  · rintro ⟨locked, howner⟩
    dsimp only [lockAt] at howner
    rcases eq_or_ne locked node with rfl | hother
    · rw [Function.update_self] at howner
      obtain ⟨rfl, rfl⟩ := Prod.mk.inj (Option.some.inj howner)
      exact .inl ⟨rfl, rfl⟩
    · rw [Function.update_of_ne hother] at howner
      exact .inr ⟨locked, howner⟩
  · rintro (⟨rfl, rfl⟩ | ⟨locked, howner⟩)
    · exact ⟨node, Function.update_self _ _ _⟩
    · rcases eq_or_ne locked node with rfl | hother
      · rcases hfree with hnone | hsome
        · exact absurd (howner.symm.trans hnone) (Option.some_ne_none _)
        · obtain ⟨rfl, rfl⟩ := Prod.mk.inj (Option.some.inj (howner.symm.trans hsome))
          exact ⟨locked, Function.update_self _ _ _⟩
      · exact ⟨locked, (Function.update_of_ne hother _ _).trans howner⟩

omit [DecidableEq Process] in
theorem holding_lockAt_self [DecidableEq Node] {node : Node}
    (hopened : table.opened process fd = some node)
    (hfree : table.owner node = none ∨ table.owner node = some (process, fd)) :
    (table.lockAt process fd node hopened).holding process = (table.holding process).lockAt fd := by
  ext descriptor
  · rfl
  · dsimp only [holding, Holding.lockAt]
    rw [holds_lockAt_iff hopened hfree]
    rcases eq_or_ne descriptor fd with rfl | hother
    · simp
    · simp [hother]

omit [DecidableEq Process] in
theorem holding_lockAt_of_ne [DecidableEq Node] {other : Process} (hother : other ≠ process)
    {node : Node} (hopened : table.opened process fd = some node)
    (hfree : table.owner node = none ∨ table.owner node = some (process, fd)) :
    (table.lockAt process fd node hopened).holding other = table.holding other := by
  ext descriptor
  · rfl
  · dsimp only [holding]
    rw [holds_lockAt_iff hopened hfree]
    simp [hother]

/-- Who holds a lock after a descriptor gave up its own. -/
theorem holds_unlockAt_iff (holder : Process) (descriptor : ℕ) :
    (table.unlockAt process fd).Holds holder descriptor ↔
      (holder, descriptor) ≠ (process, fd) ∧ table.Holds holder descriptor := by
  constructor
  · rintro ⟨locked, howner⟩
    rw [unlockAt] at howner
    dsimp only at howner
    split_ifs at howner with hsame
    exact ⟨fun heq ↦ hsame (heq ▸ howner), locked, howner⟩
  · rintro ⟨hne, locked, howner⟩
    refine ⟨locked, ?_⟩
    rw [unlockAt]
    dsimp only
    rw [if_neg fun hsame ↦ hne (Option.some.inj (howner.symm.trans hsame)), howner]

@[simp] theorem holding_unlockAt_self :
    (table.unlockAt process fd).holding process = (table.holding process).unlockAt fd := by
  ext descriptor
  · rfl
  · dsimp only [holding, Holding.unlockAt]
    rw [holds_unlockAt_iff]
    rcases eq_or_ne descriptor fd with rfl | hother
    · simp
    · simp [hother]

theorem holding_unlockAt_of_ne {other : Process} (hother : other ≠ process) :
    (table.unlockAt process fd).holding other = table.holding other := by
  ext descriptor
  · rfl
  · dsimp only [holding]
    rw [holds_unlockAt_iff]
    simp [hother]

@[simp] theorem holding_closeAt_self :
    (table.closeAt process fd).holding process = (table.holding process).closeAt fd := by
  have hunlock : (table.unlockAt process fd).Holds process =
      ((table.holding process).unlockAt fd).holds :=
    congrArg Holding.holds holding_unlockAt_self
  ext : 1
  · exact Function.update_self _ _ _
  · exact hunlock

theorem holding_closeAt_of_ne {other : Process} (hother : other ≠ process) :
    (table.closeAt process fd).holding other = table.holding other := by
  have hunlock : (table.unlockAt process fd).Holds other = table.Holds other :=
    congrArg Holding.holds (holding_unlockAt_of_ne hother)
  ext : 1
  · exact Function.update_of_ne hother _ _
  · exact hunlock

end LockTable

end Libhoth.Foundation.AdvisoryLock
