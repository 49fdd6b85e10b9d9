import Libhoth.Foundation.ByteString
import Libhoth.Foundation.CellMemory

/-!
# Accesses that can fault

A C program that reads or writes outside an object, or whose assertion fails, has no defined
continuation. In the models such a step is the `Fault` outcome: `readWord` reads a little-endian
word of a byte string and faults outside it, `sliceWithin` and `overwriteWithin` read and replace a
range of a list, and `storeWithin` and `loadWithin` access a memory of a given capacity. A function
that never faults never leaves its objects.
-/

set_option autoImplicit false
set_option relaxedAutoImplicit false

namespace Libhoth.Foundation.CheckedAccess

open ByteString CellMemory

universe u

/-- The ways in which a C program can lose its meaning. -/
inductive Fault
  | readOutOfBounds
  | writeOutOfBounds
  | assertionFailed
  deriving DecidableEq, Repr

@[simp] theorem ok_bind {α β : Type u} (value : α) (next : α → Except Fault β) :
    (Except.ok value >>= next) = next value :=
  rfl

@[simp] theorem error_bind {α β : Type u} (fault : Fault) (next : α → Except Fault β) :
    ((Except.error fault : Except Fault α) >>= next) = .error fault :=
  rfl

/-- A composition that ends well had a first part that did. -/
theorem exists_of_bind_eq_ok {α β : Type u} {outcome : Except Fault α} {next : α → Except Fault β}
    {result : β} (hresult : outcome >>= next = .ok result) :
    ∃ value, outcome = .ok value ∧ next value = .ok result := by
  cases outcome with
  | error fault => exact absurd hresult (by simp)
  | ok value => exact ⟨value, rfl, hresult⟩

@[simp] theorem pure_eq_ok {α : Type u} (value : α) :
    (pure value : Except Fault α) = .ok value :=
  rfl

/-- The access does not fault, and what it returns satisfies a predicate. -/
def Succeeds {α : Type u} (outcome : Except Fault α) (post : α → Prop) : Prop :=
  ∃ value, outcome = .ok value ∧ post value

@[simp] theorem succeeds_ok {α : Type u} (value : α) (post : α → Prop) :
    Succeeds (.ok value) post ↔ post value := by
  constructor
  · rintro ⟨other, hother, hpost⟩
    obtain rfl := Except.ok.inj hother
    exact hpost
  · exact fun hpost ↦ ⟨value, rfl, hpost⟩

theorem Succeeds.bind {α β : Type u} {outcome : Except Fault α} {next : α → Except Fault β}
    {middle : α → Prop} {post : β → Prop} (hfirst : Succeeds outcome middle)
    (hnext : ∀ value, middle value → Succeeds (next value) post) :
    Succeeds (outcome >>= next) post := by
  obtain ⟨value, rfl, hvalue⟩ := hfirst
  exact hnext value hvalue

/-- The invariant rule of a loop that counts: every round of it succeeds and keeps the invariant. -/
theorem foldlM_range_succeeds {α : Type u} {step : α → ℕ → Except Fault α} {count : ℕ} {start : α}
    (invariant : ℕ → α → Prop) (hstart : invariant 0 start)
    (hstep : ∀ index < count, ∀ state, invariant index state →
      Succeeds (step state index) (invariant (index + 1))) :
    Succeeds ((List.range count).foldlM step start) (invariant count) := by
  induction count with
  | zero => exact (succeeds_ok start _).mpr hstart
  | succ count ih =>
    rw [List.range_succ, List.foldlM_append]
    refine (ih fun index hindex ↦ hstep index (by omega)).bind fun state hstate ↦ ?_
    rw [List.foldlM_cons]
    exact (hstep count (by omega) state hstate).bind fun last hlast ↦
      (succeeds_ok last _).mpr hlast

/-- The little-endian word of `width` bytes at an offset, or a fault when it is not all there. -/
def readWord (bytes : List UInt8) (offset width : ℕ) : Except Fault ℕ :=
  if offset + width ≤ bytes.length then .ok (wordAt bytes offset width)
  else .error .readOutOfBounds

theorem readWord_of_le {bytes : List UInt8} {offset width : ℕ}
    (hbound : offset + width ≤ bytes.length) :
    readWord bytes offset width = .ok (wordAt bytes offset width) :=
  if_pos hbound

/-- The elements of a list in a range, or a fault when they are not all there. -/
def sliceWithin {α : Type*} (elements : List α) (offset count : ℕ) : Except Fault (List α) :=
  if offset + count ≤ elements.length then .ok (slice elements offset count)
  else .error .readOutOfBounds

theorem sliceWithin_of_le {α : Type*} {elements : List α} {offset count : ℕ}
    (hbound : offset + count ≤ elements.length) :
    sliceWithin elements offset count = .ok (slice elements offset count) :=
  if_pos hbound

/-- Replace cells from an offset on, or fault when one of them is outside the capacity. -/
def storeWithin {α : Type*} (capacity : ℕ) (cells : ℕ → α) (offset : ℕ) (values : List α) :
    Except Fault (ℕ → α) :=
  if offset + values.length ≤ capacity then .ok (store cells offset values)
  else .error .writeOutOfBounds

theorem storeWithin_of_le {α : Type*} {capacity offset : ℕ} (cells : ℕ → α) {values : List α}
    (hbound : offset + values.length ≤ capacity) :
    storeWithin capacity cells offset values = .ok (store cells offset values) :=
  if_pos hbound

theorem storeWithin_of_lt {α : Type*} {capacity offset : ℕ} (cells : ℕ → α) {values : List α}
    (hbound : capacity < offset + values.length) :
    storeWithin capacity cells offset values = .error .writeOutOfBounds :=
  if_neg (Nat.not_le.mpr hbound)

/-- Two stores next to each other are one store. -/
theorem storeWithin_append {α : Type} (capacity : ℕ) (cells : ℕ → α) (offset : ℕ)
    (first second : List α) :
    (storeWithin capacity cells offset first >>= fun cells ↦
      storeWithin capacity cells (offset + first.length) second) =
        storeWithin capacity cells offset (first ++ second) := by
  simp only [storeWithin, List.length_append, ← Nat.add_assoc]
  by_cases hboth : offset + first.length + second.length ≤ capacity
  · rw [if_pos (by omega), if_pos hboth, ok_bind, if_pos hboth, store_store_append]
  · by_cases hfirst : offset + first.length ≤ capacity
    · rw [if_pos hfirst, if_neg hboth, ok_bind, if_neg hboth]
    · rw [if_neg hfirst, if_neg hboth, error_bind]

/-- Replace bytes of a list from an offset on, or fault when one of them is outside the list. -/
def overwriteWithin {α : Type*} (elements : List α) (offset : ℕ) (values : List α) :
    Except Fault (List α) :=
  if offset + values.length ≤ elements.length then
    .ok (elements.take offset ++ values ++ elements.drop (offset + values.length))
  else .error .writeOutOfBounds

theorem overwriteWithin_of_le {α : Type*} {elements values : List α} {offset : ℕ}
    (hbound : offset + values.length ≤ elements.length) :
    overwriteWithin elements offset values =
      .ok (elements.take offset ++ values ++ elements.drop (offset + values.length)) :=
  if_pos hbound

/-- Writing where a list still has its filler appends to what was written. -/
theorem overwriteWithin_replicate {α : Type*} (filler : α) (front values : List α) {left : ℕ}
    (hroom : values.length ≤ left) :
    overwriteWithin (front ++ List.replicate left filler) front.length values =
      .ok (front ++ values ++ List.replicate (left - values.length) filler) := by
  rw [overwriteWithin_of_le (by rw [List.length_append, List.length_replicate]; omega),
    List.take_left, List.drop_append, List.drop_replicate]
  simp

/-- The cells from an offset on, or a fault when one of them is outside the capacity. -/
def loadWithin {α : Type*} (capacity : ℕ) (cells : ℕ → α) (offset count : ℕ) :
    Except Fault (List α) :=
  if offset + count ≤ capacity then .ok (load cells offset count) else .error .readOutOfBounds

theorem loadWithin_of_le {α : Type*} {capacity offset count : ℕ} (cells : ℕ → α)
    (hbound : offset + count ≤ capacity) :
    loadWithin capacity cells offset count = .ok (load cells offset count) :=
  if_pos hbound

end Libhoth.Foundation.CheckedAccess
