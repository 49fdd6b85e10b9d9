import Libhoth.Foundation.InteractingProgram

/-!
# Runs and the histories they leave

A run of a program in an environment is a recorded run of it and a way of the environment along the
exchanges that were recorded (`runs_iff_exists_along`). A statement about every behaviour of the
world, which is one about recorded runs, is read off a run in a world with a state of its own in
this way.

`Along.project` takes a way along a history to another environment, whose states are views of the
states of the first: it suffices that the steps for the exchanges of the history carry over while an
invariant holds. `runs_interpret_part` runs a program on a part of a larger state.
-/

set_option autoImplicit false
set_option relaxedAutoImplicit false

namespace Libhoth.Foundation.RecordedRuns

open InteractingProgram

universe u v w x y

variable {Request : Type u} {Reply : Request → Type v} {σ : Type x} {τ : Type y}
variable {environment : Environment Reply σ} {other : Environment Reply τ}

/-- The environment goes from one state to another along the exchanges of a history. -/
def Along (environment : Environment Reply σ) : σ → List (Exchange Reply) → σ → Prop
  | start, [], final => final = start
  | start, exchange :: rest, final => ∃ middle,
      environment start exchange.1 exchange.2 middle ∧ Along environment middle rest final

@[simp] theorem along_nil (start final : σ) : Along environment start [] final ↔ final = start :=
  Iff.rfl

@[simp] theorem along_cons (start final : σ) (exchange : Exchange Reply)
    (rest : List (Exchange Reply)) :
    Along environment start (exchange :: rest) final ↔ ∃ middle,
      environment start exchange.1 exchange.2 middle ∧ Along environment middle rest final :=
  Iff.rfl

/-- A run is a recorded run and a way along its history. -/
theorem runs_iff_exists_along {α : Type w} (program : Interaction Reply α) (start final : σ)
    (result : α) :
    Runs environment program start result final ↔
      ∃ history, Runs recording program [] result history ∧
        Along environment start history final := by
  induction program generalizing start with
  | done value =>
    constructor
    · rintro ⟨rfl, rfl⟩
      exact ⟨[], ⟨rfl, rfl⟩, rfl⟩
    · rintro ⟨history, ⟨rfl, rfl⟩, hfinal⟩
      exact ⟨rfl, hfinal⟩
  | ask call next ih =>
    constructor
    · rintro ⟨reply, middle, hstep, hrest⟩
      obtain ⟨history, hrecorded, halong⟩ := (ih reply middle).mp hrest
      refine ⟨⟨call, reply⟩ :: history, ⟨reply, _, rfl, ?_⟩, middle, hstep, halong⟩
      exact (runs_recording_append (next reply) [⟨call, reply⟩] [] _ result).mpr
        ⟨history, rfl, hrecorded⟩
    · rintro ⟨_, ⟨reply, _, rfl, hrecorded⟩, halong⟩
      obtain ⟨history, rfl, hrest⟩ :=
        (runs_recording_append (next reply) [⟨call, reply⟩] [] _ result).mp hrecorded
      obtain ⟨middle, hstep, halong⟩ := halong
      exact ⟨reply, middle, hstep, (ih reply middle).mpr ⟨history, hrest, halong⟩⟩

/-- What every recorded run shows holds of the history behind a run in an environment. -/
theorem exists_along_of_ensures {α : Type w} {program : Interaction Reply α}
    {post : α → List (Exchange Reply) → Prop} (hensures : Ensures recording program [] post)
    {start final : σ} {result : α} (hrun : Runs environment program start result final) :
    ∃ history, Runs recording program [] result history ∧ post result history ∧
      Along environment start history final := by
  obtain ⟨history, hrecorded, halong⟩ := (runs_iff_exists_along program start final result).mp hrun
  exact ⟨history, hrecorded, hensures result history hrecorded, halong⟩

/-- A way along a history is a way of another environment, when its steps carry over as long as an
invariant holds. -/
theorem Along.project {view : σ → τ} {invariant : σ → Prop} {history : List (Exchange Reply)}
    (hstep : ∀ exchange ∈ history, ∀ before after, invariant before →
      environment before exchange.1 exchange.2 after →
        other (view before) exchange.1 exchange.2 (view after) ∧ invariant after)
    {start final : σ} (hstart : invariant start) (halong : Along environment start history final) :
    Along other (view start) history (view final) ∧ invariant final := by
  induction history generalizing start with
  | nil =>
    obtain rfl := halong
    exact ⟨rfl, hstart⟩
  | cons exchange rest ih =>
    obtain ⟨middle, hfirst, hrest⟩ := halong
    obtain ⟨hother, hmiddle⟩ := hstep exchange List.mem_cons_self start middle hstart hfirst
    obtain ⟨halong, hfinal⟩ := ih (fun later hlater ↦ hstep later (List.mem_cons_of_mem _ hlater))
      hmiddle hrest
    exact ⟨⟨view middle, hother, halong⟩, hfinal⟩

/-- A program whose requests act on a part of a larger state runs there as on the part alone, and
leaves the rest. -/
theorem runs_interpret_part {Lower : Type u} {LowerReply : Lower → Type v} (embed : Request → Lower)
    (larger : Environment LowerReply τ)
    (environment : Environment (fun call ↦ LowerReply (embed call)) σ) (get : τ → σ)
    (put : τ → σ → τ)
    (hsame : ∀ state, put state (get state) = state)
    (hget : ∀ state part, get (put state part) = part)
    (hput : ∀ state part later, put (put state part) later = put state later)
    (hstep : ∀ before call reply after, larger before (embed call) reply after ↔
      ∃ part, environment (get before) call reply part ∧ after = put before part)
    {α : Type v} (program : Interaction (fun call ↦ LowerReply (embed call)) α)
    (start final : τ) (result : α) :
    Runs larger (interpret (fun call ↦ request (embed call)) program) start result final ↔
      ∃ part, Runs environment program (get start) result part ∧ final = put start part := by
  induction program generalizing start with
  | done value =>
    constructor
    · rintro ⟨hresult, hfinal⟩
      exact ⟨get start, ⟨hresult, rfl⟩, hfinal.trans (hsame start).symm⟩
    · rintro ⟨part, ⟨hresult, rfl⟩, hfinal⟩
      exact ⟨hresult, hfinal.trans (hsame start)⟩
  | ask call next ih =>
    simp only [interpret, runs_bind, runs_request, runs_ask, hstep, ih]
    constructor
    · rintro ⟨reply, _, ⟨middle, hfirst, rfl⟩, part, hrest, rfl⟩
      rw [hget] at hrest
      exact ⟨part, ⟨reply, middle, hfirst, hrest⟩, hput start middle part⟩
    · rintro ⟨part, ⟨reply, middle, hfirst, hrest⟩, rfl⟩
      refine ⟨reply, _, ⟨middle, hfirst, rfl⟩, part, ?_, (hput start middle part).symm⟩
      rwa [hget]

/-- A program whose requests are renamed runs as the program in the world seen through the new
names. -/
theorem runs_interpret_rename {Lower : Type u} {LowerReply : Lower → Type v}
    (embed : Request → Lower) (larger : Environment LowerReply τ) {α : Type v}
    (program : Interaction (fun call ↦ LowerReply (embed call)) α) (start final : τ) (result : α) :
    Runs larger (interpret (fun call ↦ request (embed call)) program) start result final ↔
      Runs (fun before call reply after ↦ larger before (embed call) reply after) program start
        result final := by
  refine (runs_interpret_part embed larger
    (fun before call reply after ↦ larger before (embed call) reply after) id (fun _ part ↦ part)
    (fun _ ↦ rfl) (fun _ _ ↦ rfl) (fun _ _ _ ↦ rfl) (fun _ _ _ _ ↦ ?_) program start final
    result).trans ?_
  · exact exists_eq_right'.symm
  · exact exists_eq_right'

end Libhoth.Foundation.RecordedRuns
