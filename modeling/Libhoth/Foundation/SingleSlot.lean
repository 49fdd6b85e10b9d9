import Mathlib.Data.List.Induction
import Mathlib.Tactic.Common

/-!
# Slots for one item

A component that keeps at most one item until it is used is a slot. `SlotEvent` is what one
operation did to it, and `occupant` what the slot holds after some events: the item that was put in
last, if nothing has happened to it since (`occupant_eq_some_iff`).

A history is `Faithful` when every item that was taken is the one the slot held. Then it was put in
last (`Faithful.last_put`), and between two takings there is a put of the second item
(`Faithful.no_replay`). `AtEach` says of each item of a list something about it and the items before
it.
-/

set_option autoImplicit false
set_option relaxedAutoImplicit false

namespace Libhoth.Foundation.SingleSlot

universe u

/-- What an operation did to a slot: it put an item in, in place of what was there; it left the slot
alone; it emptied the slot; or it took an item out. -/
inductive SlotEvent (α : Type u)
  | put (item : α)
  | kept
  | cleared
  | taken (item : α)

variable {α : Type u}

/-- What the slot holds after an event. -/
def slotStep (held : Option α) : SlotEvent α → Option α
  | .put item => some item
  | .kept => held
  | .cleared => none
  | .taken _ => none

/-- What a slot that was empty holds after some events. -/
def occupant (events : List (SlotEvent α)) : Option α :=
  events.foldl slotStep none

@[simp] theorem occupant_nil : occupant ([] : List (SlotEvent α)) = none :=
  rfl

@[simp] theorem occupant_snoc (events : List (SlotEvent α)) (event : SlotEvent α) :
    occupant (events ++ [event]) = slotStep (occupant events) event := by
  rw [occupant, List.foldl_append]
  rfl

/-- The slot holds the item that was put in last and left alone since. -/
theorem occupant_eq_some_iff (events : List (SlotEvent α)) (item : α) :
    occupant events = some item ↔
      ∃ earlier later, events = earlier ++ .put item :: later ∧ ∀ event ∈ later, event = .kept := by
  constructor
  · intro hheld
    induction events using List.reverseRecOn with
    | nil => cases hheld
    | append_singleton events last ih =>
      rw [occupant_snoc] at hheld
      cases last with
      | put newer =>
        obtain rfl := Option.some.inj hheld
        exact ⟨events, [], rfl, fun _ hnone ↦ absurd hnone List.not_mem_nil⟩
      | kept =>
        obtain ⟨earlier, later, rfl, hkept⟩ := ih hheld
        refine ⟨earlier, later ++ [.kept], List.append_assoc _ _ _, ?_⟩
        exact List.forall_mem_append.mpr ⟨hkept, List.forall_mem_singleton.mpr rfl⟩
      | cleared => cases hheld
      | taken older => cases hheld
  · rintro ⟨earlier, later, rfl, hkept⟩
    induction later using List.reverseRecOn with
    | nil => exact occupant_snoc earlier (.put item)
    | append_singleton later last ih =>
      obtain ⟨hlater, hlast⟩ := List.forall_mem_append.mp hkept
      obtain rfl := List.forall_mem_singleton.mp hlast
      rw [← List.cons_append, ← List.append_assoc, occupant_snoc]
      exact ih hlater

/-! ### Faithful histories -/

/-- Each item of a list, with the items before it. -/
def AtEach {β : Type u} (holds : List β → β → Prop) (items : List β) : Prop :=
  ∀ before item after, items = before ++ item :: after → holds before item

theorem atEach_nil {β : Type u} (holds : List β → β → Prop) : AtEach holds [] := by
  intro before item after hsplit
  exact absurd hsplit.symm (List.append_ne_nil_of_right_ne_nil _ (List.cons_ne_nil _ _))

/-- One item more. -/
theorem atEach_snoc_iff {β : Type u} (holds : List β → β → Prop) (items : List β) (last : β) :
    AtEach holds (items ++ [last]) ↔ AtEach holds items ∧ holds items last := by
  constructor
  · intro heach
    refine ⟨fun before item after hsplit ↦ ?_, heach items last [] rfl⟩
    refine heach before item (after ++ [last]) ?_
    rw [hsplit, List.append_assoc, List.cons_append]
  · rintro ⟨heach, hlast⟩ before item after hsplit
    rcases List.eq_nil_or_concat after with rfl | ⟨rest, tail, rfl⟩
    · obtain ⟨rfl, hitem⟩ := List.append_inj' hsplit rfl
      exact List.singleton_inj.mp hitem ▸ hlast
    · rw [List.concat_eq_append, ← List.cons_append, ← List.append_assoc] at hsplit
      exact heach before item rest (List.append_inj' hsplit rfl).1

/-- Every item that was taken is the one that the slot held. -/
def Faithful (events : List (SlotEvent α)) : Prop :=
  AtEach (fun before event ↦ ∀ item, event = .taken item → occupant before = some item) events

/-- An item that was taken is the one that was put in last. -/
theorem Faithful.last_put {before after : List (SlotEvent α)} {item : α}
    (hfaithful : Faithful (before ++ .taken item :: after)) :
    ∃ earlier later, before = earlier ++ .put item :: later ∧ ∀ event ∈ later, event = .kept :=
  (occupant_eq_some_iff before item).mp (hfaithful before _ after rfl item rfl)

/-- Between two takings the second item was put in. -/
theorem Faithful.no_replay {before between after : List (SlotEvent α)} {first second : α}
    (hfaithful : Faithful (before ++ .taken first :: between ++ .taken second :: after)) :
    .put second ∈ between := by
  obtain ⟨earlier, later, hsplit, hkept⟩ := hfaithful.last_put
  have hmem : SlotEvent.taken first ∉ later :=
    fun hlater ↦ by cases hkept _ hlater
  rcases List.append_eq_append_iff.mp hsplit with ⟨middle, hearlier, hbetween⟩ | ⟨middle, -, hput⟩
  · match middle, hbetween with
    | [], hbetween => cases hbetween
    | _ :: rest, hbetween =>
      obtain ⟨-, rfl⟩ := List.cons.inj hbetween
      exact List.mem_append_right _ List.mem_cons_self
  · match middle, hput with
    | [], hput => cases hput
    | _ :: rest, hput =>
      obtain ⟨-, rfl⟩ := List.cons.inj hput
      exact absurd (List.mem_append_right _ List.mem_cons_self) hmem

end Libhoth.Foundation.SingleSlot
