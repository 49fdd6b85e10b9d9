import Mathlib.Order.Nat
import Mathlib.Tactic.Common

/-!
# Tilings of a range

A range of addresses that is worked through in pieces is a list of extents, each a start and a
length. `Tiles start stop` says that the extents are not empty, that each one starts where the one
before it ended, and that they run from `start` to `stop`. `tiles_snoc_iff` is the step of a loop,
and `Tiles.countP_contains` says that every address of the range lies in exactly one extent.
-/

set_option autoImplicit false
set_option relaxedAutoImplicit false

namespace Libhoth.Foundation.RangeTiling

/-- A start and a length. -/
abbrev Extent := ℕ × ℕ

/-- The address lies in the extent. -/
def Extent.Contains (extent : Extent) (address : ℕ) : Prop :=
  extent.1 ≤ address ∧ address < extent.1 + extent.2

instance (extent : Extent) (address : ℕ) : Decidable (extent.Contains address) :=
  inferInstanceAs (Decidable (_ ∧ _))

/-- The extents are not empty and run from `start` to `stop` without a gap or an overlap. -/
def Tiles (start stop : ℕ) : List Extent → Prop
  | [] => start = stop
  | extent :: rest => extent.1 = start ∧ 0 < extent.2 ∧ Tiles (start + extent.2) stop rest

variable {start stop : ℕ} {extents : List Extent}

@[simp] theorem tiles_nil : Tiles start stop [] ↔ start = stop :=
  Iff.rfl

@[simp] theorem tiles_cons {extent : Extent} :
    Tiles start stop (extent :: extents) ↔
      extent.1 = start ∧ 0 < extent.2 ∧ Tiles (start + extent.2) stop extents :=
  Iff.rfl

/-- One more extent starts where the others stop. -/
theorem tiles_snoc_iff {extent : Extent} :
    Tiles start stop (extents ++ [extent]) ↔
      Tiles start extent.1 extents ∧ 0 < extent.2 ∧ extent.1 + extent.2 = stop := by
  induction extents generalizing start with
  | nil =>
    simp only [List.nil_append, tiles_cons, tiles_nil]
    constructor
    · rintro ⟨rfl, hpos, hstop⟩
      exact ⟨rfl, hpos, hstop⟩
    · rintro ⟨rfl, hpos, hstop⟩
      exact ⟨rfl, hpos, hstop⟩
  | cons first rest ih => simp only [List.cons_append, tiles_cons, ih, and_assoc]

theorem Tiles.snoc (htiles : Tiles start stop extents) {length : ℕ} (hpos : 0 < length) :
    Tiles start (stop + length) (extents ++ [(stop, length)]) :=
  tiles_snoc_iff.mpr ⟨htiles, hpos, rfl⟩

theorem Tiles.le (htiles : Tiles start stop extents) : start ≤ stop := by
  induction extents generalizing start with
  | nil => exact le_of_eq htiles
  | cons first rest ih =>
    obtain ⟨-, -, hrest⟩ := htiles
    exact (Nat.le_add_right _ _).trans (ih hrest)

/-- Every extent is not empty and lies in the range. -/
theorem Tiles.mem_bounds (htiles : Tiles start stop extents) {extent : Extent}
    (hmem : extent ∈ extents) : start ≤ extent.1 ∧ 0 < extent.2 ∧ extent.1 + extent.2 ≤ stop := by
  induction extents generalizing start with
  | nil => exact absurd hmem List.not_mem_nil
  | cons first rest ih =>
    obtain ⟨rfl, hpos, hrest⟩ := htiles
    rcases List.mem_cons.mp hmem with rfl | hlater
    · exact ⟨le_rfl, hpos, hrest.le⟩
    · obtain ⟨hfrom, hbounds⟩ := ih hrest hlater
      exact ⟨(Nat.le_add_right _ _).trans hfrom, hbounds⟩

/-- Two tilings with one start and the same lengths are the same. -/
theorem Tiles.eq_of_lengths {other : List Extent} {last : ℕ} (htiles : Tiles start stop extents)
    (hother : Tiles start last other)
    (hlengths : extents.map Prod.snd = other.map Prod.snd) : extents = other := by
  induction extents generalizing start other with
  | nil => exact (List.map_eq_nil_iff.mp hlengths.symm).symm
  | cons first rest ih =>
    cases other with
    | nil => exact absurd hlengths (List.cons_ne_nil _ _)
    | cons second more =>
      obtain ⟨hlength, hrest⟩ := List.cons.inj hlengths
      obtain ⟨hfirst, -, hfront⟩ := htiles
      obtain ⟨hsecond, -, hmore⟩ := hother
      rw [← hlength] at hmore
      rw [ih hfront hmore hrest, Prod.ext (hfirst.trans hsecond.symm) hlength]

/-- Every address of the range lies in exactly one extent, and no other address in any. -/
theorem Tiles.countP_contains (htiles : Tiles start stop extents) (address : ℕ) :
    extents.countP (fun extent ↦ decide (extent.Contains address)) =
      if start ≤ address ∧ address < stop then 1 else 0 := by
  induction extents generalizing start with
  | nil =>
    obtain rfl := tiles_nil.mp htiles
    rw [List.countP_nil, if_neg (by omega)]
  | cons first rest ih =>
    obtain ⟨rfl, hpos, hrest⟩ := htiles
    have hle := hrest.le
    rw [List.countP_cons, ih hrest]
    by_cases hhere : Extent.Contains first address
    · obtain ⟨hfrom, hbelow⟩ := hhere
      rw [if_neg (by omega), if_pos (decide_eq_true ⟨hfrom, hbelow⟩), if_pos (by omega)]
    · have hother : ¬(first.1 ≤ address ∧ address < first.1 + first.2) := hhere
      rw [decide_eq_false hhere, if_neg Bool.false_ne_true, Nat.add_zero]
      exact if_congr (by omega) rfl rfl

/-- Some extent holds an address of the range. -/
theorem Tiles.exists_contains (htiles : Tiles start stop extents) {address : ℕ}
    (hfrom : start ≤ address) (hbelow : address < stop) :
    ∃ extent ∈ extents, extent.Contains address := by
  have hcount := htiles.countP_contains address
  rw [if_pos ⟨hfrom, hbelow⟩] at hcount
  obtain ⟨extent, hmem, hcontains⟩ := List.countP_pos_iff.mp (hcount ▸ Nat.one_pos)
  exact ⟨extent, hmem, of_decide_eq_true hcontains⟩

/-- A tiling moved up by an offset. -/
theorem Tiles.shift (htiles : Tiles start stop extents) (offset : ℕ) :
    Tiles (offset + start) (offset + stop)
      (extents.map fun extent ↦ (offset + extent.1, extent.2)) := by
  induction extents generalizing start with
  | nil => exact congrArg _ htiles
  | cons first rest ih =>
    obtain ⟨rfl, hpos, hrest⟩ := htiles
    exact ⟨rfl, hpos, Nat.add_assoc offset first.1 first.2 ▸ ih hrest⟩

end Libhoth.Foundation.RangeTiling
