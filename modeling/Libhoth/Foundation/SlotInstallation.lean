import Mathlib.Data.Fin.Rev
import Mathlib.Logic.Function.Iterate
import Mathlib.Order.Bounds.Basic
import Mathlib.Tactic.Common

/-!
# Two-slot installation

A component with two slots runs the version in its booted slot. An installation writes the spare
slot and boots it, so the version that was running becomes the spare one (`running_install`,
`spare_install`). Two installations therefore bring any state up to date, and
`isLeast_installations` says how many are needed from a state: none when both slots are up to date,
one when the booted slot is, two otherwise.
-/

set_option autoImplicit false
set_option relaxedAutoImplicit false

namespace Libhoth.Foundation.SlotInstallation

universe u

/-- The versions in two slots and the slot that is booted. -/
structure TwoSlots (Version : Type u) where
  versions : Fin 2 → Version
  booted : Fin 2

namespace TwoSlots

variable {Version : Type u}

/-- The version that runs. -/
def running (slots : TwoSlots Version) : Version :=
  slots.versions slots.booted

/-- The version in the slot that is not booted. -/
def spare (slots : TwoSlots Version) : Version :=
  slots.versions slots.booted.rev

/-- An installation writes the spare slot and boots it. -/
def install (version : Version) (slots : TwoSlots Version) : TwoSlots Version where
  versions := Function.update slots.versions slots.booted.rev version
  booted := slots.booted.rev

/-- Both slots satisfy a predicate. -/
def Holds (accepted : Version → Prop) (slots : TwoSlots Version) : Prop :=
  ∀ slot, accepted (slots.versions slot)

@[simp] theorem running_install (version : Version) (slots : TwoSlots Version) :
    (slots.install version).running = version :=
  Function.update_self _ _ _

@[simp] theorem spare_install (version : Version) (slots : TwoSlots Version) :
    (slots.install version).spare = slots.running := by
  have hne : ∀ slot : Fin 2, slot ≠ slot.rev := by decide
  rw [spare, install, Fin.rev_rev, running]
  exact Function.update_of_ne (hne _) _ _

/-- Both slots are the booted one and the other. -/
theorem holds_iff (accepted : Version → Prop) (slots : TwoSlots Version) :
    slots.Holds accepted ↔ accepted slots.running ∧ accepted slots.spare := by
  constructor
  · intro hholds
    exact ⟨hholds _, hholds _⟩
  · rintro ⟨hrunning, hspare⟩ slot
    have hcases : ∀ booted slot : Fin 2, slot = booted ∨ slot = booted.rev := by decide
    rcases hcases slots.booted slot with rfl | rfl
    · exact hrunning
    · exact hspare

end TwoSlots

/-- The least number of installations after which a state is up to date, where an installation makes
the state ready and brings a ready state up to date. -/
theorem isLeast_installations {σ : Type u} {install : σ → σ} {upToDate ready : σ → Prop}
    (hready : ∀ state, ready (install state))
    (hinstall : ∀ state, upToDate (install state) ↔ ready state)
    (himplies : ∀ state, upToDate state → ready state)
    (state : σ) [Decidable (ready state)] [Decidable (upToDate state)] :
    IsLeast {count | upToDate (install^[count] state)}
      (if ready state then if upToDate state then 0 else 1 else 2) := by
  split_ifs with hfirst hsecond
  · exact ⟨hsecond, fun count _ ↦ Nat.zero_le count⟩
  · refine ⟨(hinstall state).mpr hfirst, fun count hcount ↦ ?_⟩
    rcases count with _ | count
    · exact absurd hcount hsecond
    · exact Nat.le_add_left 1 count
  · refine ⟨(hinstall (install state)).mpr (hready state), fun count hcount ↦ ?_⟩
    rcases count with _ | _ | count
    · exact absurd (himplies state hcount) hfirst
    · exact absurd ((hinstall state).mp hcount) hfirst
    · exact Nat.le_add_left 2 count

end Libhoth.Foundation.SlotInstallation
