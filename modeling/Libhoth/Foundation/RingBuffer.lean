import Mathlib.Algebra.Group.Fin.Basic
import Mathlib.Algebra.Group.Units.Equiv
import Mathlib.Algebra.GroupWithZero.Nat
import Mathlib.Data.List.FinRange
import Mathlib.Tactic.Common

/-!
# Ring buffers

A ring buffer keeps the last values of a stream in a fixed number of cells: a value goes to the
next cell and the next cell moves on, back to the first one after the last. `around` is the order
in which one round from a cell meets the cells, each exactly once (`around_perm`), and `contents`
reads the cells in that order from the next one, so that the oldest value comes first.
`contents_write` is one write as an operation on lists and `contents_writes` the whole stream.
-/

set_option autoImplicit false
set_option relaxedAutoImplicit false

namespace Libhoth.Foundation.RingBuffer

variable {α : Type*} {size : ℕ}

/-- A fixed number of cells and the one that is written next. -/
structure Circular (α : Type*) (size : ℕ) where
  cells : Fin size → α
  next : Fin size

/-- One round through the cells, from a given one on. -/
def around (start : Fin size) : List (Fin size) :=
  (List.finRange size).map fun step ↦ start + step

/-- A round meets every cell exactly once. -/
theorem around_perm (start : Fin size) : (around start).Perm (List.finRange size) :=
  haveI : NeZero size := ⟨fun hsize ↦ (Fin.cast hsize start).elim0⟩
  (Equiv.addLeft start).map_finRange_perm

@[simp] theorem length_around (start : Fin size) : (around start).length = size := by
  rw [around, List.length_map, List.length_finRange]

theorem getElem?_around (start : Fin size) {step : ℕ} (hstep : step < size) :
    (around start)[step]? = some (start + ⟨step, hstep⟩) := by
  rw [around, List.getElem?_map, List.getElem?_eq_getElem (by simpa using hstep)]
  simp

namespace Circular

/-- The values in the order in which they were written. -/
def contents (buffer : Circular α size) : List α :=
  (around buffer.next).map buffer.cells

@[simp] theorem length_contents (buffer : Circular α size) : buffer.contents.length = size := by
  rw [contents, List.length_map, length_around]

variable [NeZero size]

/-- A buffer that nothing was written to. -/
def blank (value : α) : Circular α size where
  cells := fun _ ↦ value
  next := 0

/-- Write a value to the next cell. -/
def write (buffer : Circular α size) (value : α) : Circular α size where
  cells := Function.update buffer.cells buffer.next value
  next := buffer.next + 1

/-- Write the values of a list one after the other. -/
def writes (buffer : Circular α size) (values : List α) : Circular α size :=
  values.foldl write buffer

@[simp] theorem contents_blank (value : α) :
    (blank value : Circular α size).contents = List.replicate size value := by
  rw [contents, List.eq_replicate_iff, List.length_map, length_around]
  refine ⟨rfl, fun other hother ↦ ?_⟩
  obtain ⟨-, -, rfl⟩ := List.mem_map.mp hother
  rfl

/-- A write drops the oldest value and appends the new one. -/
theorem contents_write (buffer : Circular α size) (value : α) :
    (buffer.write value).contents = buffer.contents.tail ++ [value] := by
  cases size with
  | zero => exact buffer.next.elim0
  | succ last =>
    have hlater : ∀ step : Fin last, buffer.next + 1 + step.castSucc = buffer.next + step.succ := by
      intro step
      rw [add_assoc, add_comm 1 step.castSucc, Fin.coeSucc_eq_succ]
    have hwrapped : buffer.next + 1 + Fin.last last = buffer.next := by
      rw [add_assoc, add_comm 1 (Fin.last last), Fin.last_add_one, add_zero]
    simp only [contents, around, write, List.map_map]
    conv_lhs => rw [List.finRange_succ_last, List.map_append, List.map_map, List.map_singleton]
    conv_rhs => rw [List.finRange_succ, List.map_cons, List.tail_cons, List.map_map]
    refine congrArg₂ _ (List.map_congr_left fun step _ ↦ ?_) (congrArg (fun last ↦ [last]) ?_)
    · have hother : buffer.next + step.succ ≠ buffer.next :=
        fun hsame ↦ Fin.succ_ne_zero step (add_eq_left.mp hsame)
      simp only [Function.comp_apply, hlater, Function.update_of_ne hother]
    · simp only [Function.comp_apply, hwrapped, Function.update_self]

/-- Writes drop as many of the oldest values as they append new ones. -/
theorem contents_writes (buffer : Circular α size) (values : List α) :
    (buffer.writes values).contents = (buffer.contents ++ values).drop values.length := by
  induction values generalizing buffer with
  | nil => rw [List.append_nil, List.length_nil, List.drop_zero, writes, List.foldl_nil]
  | cons value rest ih =>
    have hpos : 0 < buffer.contents.length := by
      rw [length_contents]
      exact Nat.pos_of_neZero size
    obtain ⟨oldest, newer, hcontents⟩ := List.exists_cons_of_length_pos hpos
    have hrest : (buffer.writes (value :: rest)).contents =
        ((buffer.write value).writes rest).contents := rfl
    rw [hrest, ih, contents_write, hcontents, List.tail_cons, List.length_cons, List.cons_append,
      List.drop_succ_cons, List.append_assoc, List.singleton_append]

/-- The next cell counts the writes, modulo the number of cells. -/
theorem next_writes (buffer : Circular α size) (values : List α) :
    (buffer.writes values).next.val = (buffer.next.val + values.length) % size := by
  induction values generalizing buffer with
  | nil => exact (Nat.mod_eq_of_lt buffer.next.isLt).symm
  | cons value rest ih =>
    have hrest : (buffer.writes (value :: rest)).next = ((buffer.write value).writes rest).next :=
      rfl
    have hnext : (buffer.write value).next.val = (buffer.next.val + 1) % size := by
      rw [write, Fin.val_add, Fin.val_one', Nat.add_mod_mod]
    rw [hrest, ih, hnext, Nat.mod_add_mod, List.length_cons]
    congr 1
    omega

end Circular

end Libhoth.Foundation.RingBuffer
