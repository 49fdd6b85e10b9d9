import Libhoth.Foundation.InteractingProgram
import Mathlib.Logic.Function.Basic

/-!
# Clients that share a world

Several clients run programs against one world, and any of them may be the next to move. A
`Routine` is what each of them runs: a memory that it keeps between its calls, the operations that
the memory admits, the program of each and what it leaves in the memory. `Move` is one move of the
system, `Reached` what it can come to.

The rule for such a system is about what a client can see. When the moves of the others leave the
view of a client alone, everything it does is a run of its own in the world cut down to its view
(`localEnvironment`), however its exchanges are interleaved with theirs. `Maintains` is partial
correctness that also says what holds in the middle of a program, and `Reached.sound` is the rule:
what every operation maintains in the view of its client holds in everything the system comes to.
-/

set_option autoImplicit false
set_option relaxedAutoImplicit false

namespace Libhoth.Foundation.InterleavedClients

open InteractingProgram

universe u v w x

/-! ### What holds in the middle of a program -/

section Maintenance

variable {Request : Type u} {Reply : Request → Type v} {σ : Type x}
variable {environment : Environment Reply σ}

/-- At every point of every run of the program the state is as the first predicate says, and the
run ends in a result and a state that the postcondition accepts. -/
def Maintains (environment : Environment Reply σ) (during : σ → Prop) {α : Type w} :
    Interaction Reply α → σ → (α → σ → Prop) → Prop
  | .done value, state, post => during state ∧ post value state
  | .ask call next, state, post =>
    during state ∧ ∀ reply later, environment state call reply later →
      Maintains environment during (next reply) later post

theorem Maintains.now {during : σ → Prop} {α : Type w} {program : Interaction Reply α} {state : σ}
    {post : α → σ → Prop} (hmaintains : Maintains environment during program state post) :
    during state := by
  cases program with
  | done value => exact hmaintains.1
  | ask call next => exact hmaintains.1

/-- Less is maintained as well. -/
theorem Maintains.mono {during weaker : σ → Prop} {α : Type w} {program : Interaction Reply α}
    {state : σ} {post after : α → σ → Prop}
    (hmaintains : Maintains environment during program state post)
    (hweaker : ∀ state, during state → weaker state)
    (hafter : ∀ value state, post value state → after value state) :
    Maintains environment weaker program state after := by
  induction program generalizing state with
  | done value => exact ⟨hweaker _ hmaintains.1, hafter _ _ hmaintains.2⟩
  | ask call next ih =>
    refine ⟨hweaker _ hmaintains.1, fun reply later hstep ↦ ?_⟩
    exact ih reply (hmaintains.2 reply later hstep)

/-- What is maintained in an environment is maintained in one that admits less. -/
theorem Maintains.mono_environment {less : Environment Reply σ} {during : σ → Prop} {α : Type w}
    {program : Interaction Reply α} {state : σ} {post : α → σ → Prop}
    (hmaintains : Maintains environment during program state post)
    (hless : ∀ state call reply later, less state call reply later →
      environment state call reply later) :
    Maintains less during program state post := by
  induction program generalizing state with
  | done value => exact hmaintains
  | ask call next ih =>
    exact ⟨hmaintains.1, fun reply later hstep ↦
      ih reply (hmaintains.2 reply later (hless _ _ _ _ hstep))⟩

/-- When no exchange mends what is broken and every request has an answer, a program whose runs end
with nothing broken never breaks it. -/
theorem maintains_of_ensures {during : σ → Prop} {α : Type w} {program : Interaction Reply α}
    {state : σ} {post : α → σ → Prop}
    (hserial : ∀ state call, ∃ reply later, environment state call reply later)
    (hbroken : ∀ state call reply later, environment state call reply later → during later →
      during state)
    (hensures : Ensures environment program state fun value final ↦
      during final ∧ post value final) :
    Maintains environment during program state post := by
  induction program generalizing state with
  | done value => exact hensures value state ⟨rfl, rfl⟩
  | ask call next ih =>
    have hnext := (ensures_ask _ _ _ _).mp hensures
    obtain ⟨reply, later, hstep⟩ := hserial state call
    have hlater := (ih reply (hnext reply later hstep)).now
    exact ⟨hbroken _ _ _ _ hstep hlater, fun reply later hstep ↦ ih reply (hnext reply later hstep)⟩

/-- What a composition maintains. -/
theorem Maintains.bind {during : σ → Prop} {α β : Type w} {program : Interaction Reply α}
    {continuation : α → Interaction Reply β} {state : σ} {post : β → σ → Prop}
    (hmaintains : Maintains environment during program state fun value middle ↦
      Maintains environment during (continuation value) middle post) :
    Maintains environment during (program >>= continuation) state post := by
  induction program generalizing state with
  | done value => exact hmaintains.2
  | ask call next ih =>
    exact ⟨hmaintains.1, fun reply later hstep ↦ ih reply (hmaintains.2 reply later hstep)⟩

/-- A program over requests that leave the state alone maintains what holds of it. -/
theorem maintains_interpret_still {Upper : Type u} (embed : Upper → Request) {during : σ → Prop}
    {α : Type v} (program : Interaction (fun call ↦ Reply (embed call)) α) {state : σ}
    (hstill : ∀ call reply later, environment state (embed call) reply later → later = state)
    (hduring : during state) :
    Maintains environment during (interpret (fun call ↦ request (embed call)) program) state
      fun _ final ↦ final = state := by
  induction program with
  | done value => exact ⟨hduring, rfl⟩
  | ask call next ih =>
    refine ⟨hduring, fun reply later hstep ↦ ?_⟩
    obtain rfl := hstill call reply later hstep
    exact ih reply

end Maintenance

/-! ### The system -/

/-- What every client runs: the operations that its memory admits, the program of each, and the
memory behind it. -/
structure Routine {Request : Type u} (Reply : Request → Type v) (Memory Operation : Type)
    (Result : Type w) where
  admits : Memory → Operation → Prop
  program : Memory → Operation → Interaction Reply Result
  after : Memory → Operation → Result → Memory

section System

variable {Request : Type u} {Reply : Request → Type v} {Memory Operation : Type} {Result : Type w}

/-- What a client is at: between its operations, or in the middle of one. -/
inductive Activity (Reply : Request → Type v) (Memory Operation : Type) (Result : Type w)
  | idle (memory : Memory)
  | running (memory : Memory) (operation : Operation) (rest : Interaction Reply Result)

/-- The clients and the world they share. -/
structure Configuration (Reply : Request → Type v) (Memory Operation : Type) (Result : Type w)
    (Client : Type) (σ : Type x) where
  activity : Client → Activity Reply Memory Operation Result
  world : σ

variable {Client : Type} [DecidableEq Client] {σ : Type x}

/-- One move: a client begins an operation, makes an exchange with the world, or returns. -/
inductive Move (routine : Routine Reply Memory Operation Result)
    (environment : Client → Environment Reply σ) :
    Configuration Reply Memory Operation Result Client σ →
      Configuration Reply Memory Operation Result Client σ → Prop
  | starts {before : Configuration Reply Memory Operation Result Client σ} (client : Client)
    (memory : Memory) (operation : Operation)
    (hidle : before.activity client = .idle memory) (hadmits : routine.admits memory operation) :
    Move routine environment before
      ⟨Function.update before.activity client
        (.running memory operation (routine.program memory operation)), before.world⟩
  | exchanges {before : Configuration Reply Memory Operation Result Client σ} (client : Client)
    (memory : Memory) (operation : Operation) (call : Request)
    (next : Reply call → Interaction Reply Result)
    (hrunning : before.activity client = .running memory operation (.ask call next))
    (reply : Reply call) (world : σ) (hstep : environment client before.world call reply world) :
    Move routine environment before
      ⟨Function.update before.activity client (.running memory operation (next reply)), world⟩
  | returns {before : Configuration Reply Memory Operation Result Client σ} (client : Client)
    (memory : Memory) (operation : Operation) (result : Result)
    (hrunning : before.activity client = .running memory operation (.done result)) :
    Move routine environment before
      ⟨Function.update before.activity client (.idle (routine.after memory operation result)),
        before.world⟩

/-- What the system comes to from a configuration. -/
inductive Reached (routine : Routine Reply Memory Operation Result)
    (environment : Client → Environment Reply σ)
    (first : Configuration Reply Memory Operation Result Client σ) :
    Configuration Reply Memory Operation Result Client σ → Prop
  | start : Reached routine environment first first
  | move {before now : Configuration Reply Memory Operation Result Client σ}
    (hreached : Reached routine environment first before)
    (hmove : Move routine environment before now) : Reached routine environment first now

/-- One client runs a program alone. -/
theorem Reached.of_runs {routine : Routine Reply Memory Operation Result}
    {environment : Client → Environment Reply σ}
    {first : Configuration Reply Memory Operation Result Client σ} {client : Client}
    {memory : Memory} {operation : Operation} (program : Interaction Reply Result)
    {activity : Client → Activity Reply Memory Operation Result} {start final : σ}
    {result : Result}
    (hreached : Reached routine environment first
      ⟨Function.update activity client (.running memory operation program), start⟩)
    (hrun : Runs (environment client) program start result final) :
    Reached routine environment first
      ⟨Function.update activity client (.running memory operation (.done result)), final⟩ := by
  induction program generalizing start with
  | done value =>
    obtain ⟨rfl, rfl⟩ := hrun
    exact hreached
  | ask call next ih =>
    obtain ⟨reply, middle, hstep, hrest⟩ := hrun
    have hmove : Move routine environment
        ⟨Function.update activity client (.running memory operation (.ask call next)), start⟩ _ :=
      .exchanges client memory operation call next (Function.update_self _ _ _) reply middle hstep
    rw [Function.update_idem] at hmove
    exact ih reply (hreached.move hmove) hrest

/-- One client carries out an operation alone. -/
theorem Reached.of_operation {routine : Routine Reply Memory Operation Result}
    {environment : Client → Environment Reply σ}
    {first before : Configuration Reply Memory Operation Result Client σ} {client : Client}
    {memory : Memory} {operation : Operation} {final : σ} {result : Result}
    (hreached : Reached routine environment first before)
    (hidle : before.activity client = .idle memory) (hadmits : routine.admits memory operation)
    (hrun : Runs (environment client) (routine.program memory operation) before.world result
      final) :
    Reached routine environment first
      ⟨Function.update before.activity client (.idle (routine.after memory operation result)),
        final⟩ := by
  have hstarted := hreached.move (.starts client memory operation hidle hadmits)
  have hdone := Reached.of_runs _ hstarted hrun
  have hmove : Move routine environment
      ⟨Function.update before.activity client (.running memory operation (.done result)), final⟩
        _ :=
    .returns client memory operation result (Function.update_self _ _ _)
  rw [Function.update_idem] at hmove
  exact hdone.move hmove

/-! ### Views -/

variable {View : Type x}

/-- The world as a client sees it: an exchange goes from a view to a view. -/
def localEnvironment (environment : Client → Environment Reply σ) (view : Client → σ → View)
    (client : Client) : Environment Reply View :=
  fun before call reply after ↦ ∃ start final, view client start = before ∧
    view client final = after ∧ environment client start call reply final

/-- No client changes what another one sees. -/
def KeepsApart (environment : Client → Environment Reply σ) (view : Client → σ → View) : Prop :=
  ∀ client other, client ≠ other → ∀ start call reply final,
    environment other start call reply final → view client final = view client start

omit [DecidableEq Client] in
/-- What a client ensures in its view it ensures in the world, where it leaves the others what they
see. -/
theorem ensures_of_local {environment : Client → Environment Reply σ} {view : Client → σ → View}
    (hapart : KeepsApart environment view) {client : Client} {α : Type w}
    {program : Interaction Reply α} {start : σ} {post : α → View → Prop}
    (hensures : Ensures (localEnvironment environment view client) program (view client start)
      post) :
    Ensures (environment client) program start fun value final ↦
      post value (view client final) ∧ ∀ other, other ≠ client →
        view other final = view other start := by
  induction program generalizing start with
  | done value =>
    exact (ensures_done _ _ _).mpr ⟨(ensures_done _ _ _).mp hensures, fun _ _ ↦ rfl⟩
  | ask call next ih =>
    refine (ensures_ask _ _ _ _).mpr fun reply middle hstep ↦ ?_
    have hnext := (ensures_ask _ _ _ _).mp hensures reply _ ⟨start, middle, rfl, rfl, hstep⟩
    refine (ih reply hnext).mono fun value final hfinal ↦ ⟨hfinal.1, fun other hother ↦ ?_⟩
    exact (hfinal.2 other hother).trans (hapart other client hother start call reply middle hstep)

/-- What a client may rely on: between operations its memory and its view fit, and during one the
rest of the program maintains what it should. -/
def Activity.Sound (routine : Routine Reply Memory Operation Result)
    (environment : Environment Reply View) (fits : Memory → View → Prop)
    (during : Memory → Operation → View → Prop) (view : View) :
    Activity Reply Memory Operation Result → Prop
  | .idle memory => fits memory view
  | .running memory operation rest =>
    Maintains environment (during memory operation) rest view fun result after ↦
      fits (routine.after memory operation result) after

/-- What every operation maintains in the view of a client holds for all clients in everything the
system comes to. -/
theorem Reached.sound {routine : Routine Reply Memory Operation Result}
    {environment : Client → Environment Reply σ} {view : Client → σ → View}
    {fits : Memory → View → Prop} {during : Memory → Operation → View → Prop}
    (hapart : KeepsApart environment view)
    (hroutine : ∀ client memory operation before, routine.admits memory operation →
      fits memory before →
        Maintains (localEnvironment environment view client) (during memory operation)
          (routine.program memory operation) before fun result after ↦
            fits (routine.after memory operation result) after)
    {first now : Configuration Reply Memory Operation Result Client σ}
    (hfirst : ∀ client, (first.activity client).Sound routine
      (localEnvironment environment view client) fits during (view client first.world))
    (hreached : Reached routine environment first now) (client : Client) :
    (now.activity client).Sound routine (localEnvironment environment view client) fits during
      (view client now.world) := by
  induction hreached with
  | start => exact hfirst client
  | move hreached hmove ih =>
    cases hmove with
    | starts mover memory operation hidle hadmits =>
      dsimp only
      rcases eq_or_ne client mover with rfl | hother
      · rw [hidle] at ih
        rw [Function.update_self]
        exact hroutine client memory operation _ hadmits ih
      · rwa [Function.update_of_ne hother]
    | exchanges mover memory operation call next hrunning reply world hstep =>
      dsimp only
      rcases eq_or_ne client mover with rfl | hother
      · rw [hrunning] at ih
        rw [Function.update_self]
        exact ih.2 reply _ ⟨_, _, rfl, rfl, hstep⟩
      · rw [Function.update_of_ne hother, hapart client mover hother _ _ _ _ hstep]
        exact ih
    | returns mover memory operation result hrunning =>
      dsimp only
      rcases eq_or_ne client mover with rfl | hother
      · rw [hrunning] at ih
        rw [Function.update_self]
        exact ih.2
      · rwa [Function.update_of_ne hother]

end System

end Libhoth.Foundation.InterleavedClients
