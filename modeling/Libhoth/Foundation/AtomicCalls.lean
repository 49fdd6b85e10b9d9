import Libhoth.Foundation.InteractingProgram
import Mathlib.Data.Finset.Insert
import Mathlib.Logic.Function.Basic
import Mathlib.Logic.Relation

/-!
# Programs whose calls take effect at once

Clients run programs against a world, and any of them may make the next exchange (`Exchanges`). In
a lower system each of them has a memory of its own besides the state that they share; in an upper
one there is the shared state only, and each exchange is a whole call.

`Tracks` relates a lower program to an upper one: every exchange of the lower program is some calls
of the upper one, most often none, at the state that it meets. `Reaches.tracked` is what follows for
the systems: however the exchanges of the lower clients are interleaved, the clients of the upper
system come to the same shared state in some order of their calls, and `Reaches.results` says that
those who are done have the same results. `Still` is for the parts of a program that keep to the
memory of their client.
-/

set_option autoImplicit false
set_option relaxedAutoImplicit false

namespace Libhoth.Foundation.AtomicCalls

open InteractingProgram

universe u v w x y z

/-! ### Systems of clients -/

section System

variable {Request : Type u} {Reply : Request → Type v} {α : Type w} {Client : Type y}
variable {ω : Type x}

/-- What is left of the program of each client, and the world. -/
structure System (Reply : Request → Type v) (α : Type w) (Client : Type y) (ω : Type x) where
  program : Client → Interaction Reply α
  world : ω

variable [DecidableEq Client]

/-- One client makes an exchange. -/
inductive Exchanges (environment : Client → Environment Reply ω)
    (before : System Reply α Client ω) : System Reply α Client ω → Prop
  | of (client : Client) (call : Request) (next : Reply call → Interaction Reply α)
    (hat : before.program client = .ask call next) (reply : Reply call) (world : ω)
    (hstep : environment client before.world call reply world) :
    Exchanges environment before ⟨Function.update before.program client (next reply), world⟩

/-- What a system comes to. -/
def Reaches (environment : Client → Environment Reply ω) :
    System Reply α Client ω → System Reply α Client ω → Prop :=
  Relation.ReflTransGen (Exchanges environment)

/-- Some calls of a program at a state. -/
inductive Advances (environment : Environment Reply ω) :
    Interaction Reply α → ω → Interaction Reply α → ω → Prop
  | none (program : Interaction Reply α) (state : ω) :
    Advances environment program state program state
  | call {call : Request} {next : Reply call → Interaction Reply α} {reply : Reply call}
    {further : Interaction Reply α} {state later final : ω}
    (hstep : environment state call reply later)
    (hrest : Advances environment (next reply) later further final) :
    Advances environment (.ask call next) state further final

/-- A run of a program is some calls of it. -/
theorem Advances.of_runs {environment : Environment Reply ω} {program : Interaction Reply α}
    {start final : ω} {result : α} (hrun : Runs environment program start result final) :
    Advances environment program start (.done result) final := by
  induction program generalizing start with
  | done value =>
    obtain ⟨rfl, rfl⟩ := hrun
    exact .none _ _
  | ask call next ih =>
    obtain ⟨reply, middle, hstep, hrest⟩ := hrun
    exact .call hstep (ih reply hrest)

/-- One client makes some calls alone. -/
theorem Reaches.of_advances {environment : Client → Environment Reply ω} {client : Client}
    {start further : Interaction Reply α} {state final : ω}
    (hadvances : Advances (environment client) start state further final)
    {first : System Reply α Client ω} {program : Client → Interaction Reply α}
    (hreaches : Reaches environment first ⟨program, state⟩) (hat : program client = start) :
    Reaches environment first ⟨Function.update program client further, final⟩ := by
  induction hadvances generalizing program with
  | none program' state =>
    rw [← hat, Function.update_eq_self]
    exact hreaches
  | call hstep hrest ih =>
    have hnext := hreaches.tail (Exchanges.of client _ _ hat _ _ hstep)
    have hfurther := ih hnext (Function.update_self _ _ _)
    rwa [Function.update_idem] at hfurther

end System

/-! ### Tracking -/

section Tracking

variable {Lower : Type u} {LowerReply : Lower → Type v} {Upper : Type y}
  {UpperReply : Upper → Type z} {α β γ : Type w} {μ σ : Type x}
variable {low : Environment LowerReply (μ × σ)} {high : Environment UpperReply σ}
variable {observe : α → β} {post : α → μ → Prop}

/-- Each exchange of the lower program is some calls of the upper one, and what the lower one ends
in is the result of the upper one. -/
def Tracks (low : Environment LowerReply (μ × σ)) (high : Environment UpperReply σ)
    (observe : α → β) (post : α → μ → Prop) :
    Interaction LowerReply α → μ → Interaction UpperReply β → Prop
  | .done value, memory, upper =>
    post value memory ∧ ∀ state, Advances high upper state (.done (observe value)) state
  | .ask call next, memory, upper => ∀ state reply after later,
    low (memory, state) call reply (after, later) → ∃ further,
      Advances high upper state further later ∧
        Tracks low high observe post (next reply) after further

/-- The upper program makes a call first that leaves every state. -/
theorem Tracks.call_silent {lower : Interaction LowerReply α} {memory : μ} {call : Upper}
    {next : UpperReply call → Interaction UpperReply β} {reply : UpperReply call}
    (htracks : Tracks low high observe post lower memory (next reply))
    (hsilent : ∀ state, high state call reply state) :
    Tracks low high observe post lower memory (.ask call next) := by
  cases lower with
  | done value => exact ⟨htracks.1, fun state ↦ .call (hsilent state) (htracks.2 state)⟩
  | ask request rest =>
    intro state answer after later hstep
    obtain ⟨further, hadvances, hrest⟩ := htracks state answer after later hstep
    exact ⟨further, .call (hsilent state) hadvances, hrest⟩

/-- The program leaves the shared state alone, and ends in a result and a memory that the
postcondition accepts. -/
def Still (low : Environment LowerReply (μ × σ)) :
    Interaction LowerReply γ → μ → (γ → μ → Prop) → Prop
  | .done value, memory, after => after value memory
  | .ask call next, memory, after => ∀ state reply final later,
    low (memory, state) call reply (final, later) →
      later = state ∧ Still low (next reply) final after

theorem Still.mono {program : Interaction LowerReply γ} {memory : μ} {first second : γ → μ → Prop}
    (hstill : Still low program memory first)
    (hmono : ∀ value memory, first value memory → second value memory) :
    Still low program memory second := by
  induction program generalizing memory with
  | done value => exact hmono value memory hstill
  | ask call next ih =>
    intro state reply final later hstep
    obtain ⟨rfl, hrest⟩ := hstill state reply final later hstep
    exact ⟨rfl, ih reply hrest⟩

theorem still_request {call : Lower} {memory : μ} {after : LowerReply call → μ → Prop}
    (hstep : ∀ state reply final later, low (memory, state) call reply (final, later) →
      later = state ∧ after reply final) :
    Still low (request call) memory after :=
  hstep

/-- A composition is still when its parts are. -/
theorem Still.bind {program : Interaction LowerReply γ}
    {continuation : γ → Interaction LowerReply α} {memory : μ} {after : α → μ → Prop}
    (hstill : Still low program memory fun value middle ↦
      Still low (continuation value) middle after) :
    Still low (program >>= continuation) memory after := by
  induction program generalizing memory with
  | done value => exact hstill
  | ask call next ih =>
    intro state reply final later hstep
    obtain ⟨rfl, hrest⟩ := hstill state reply final later hstep
    exact ⟨rfl, ih reply hrest⟩

/-- A call that leaves everything, at the start of a composition. -/
theorem Still.bind_unchanged {δ : Type v} {call : Lower} {memory : μ}
    {continuation : LowerReply call → Interaction LowerReply δ} {after : δ → μ → Prop}
    (hunchanged : ∀ before reply now, low before call reply now → now = before)
    (hrest : ∀ reply, Still low (continuation reply) memory after) :
    Still low (request call >>= continuation) memory after := by
  refine Still.bind (still_request fun state reply final later hstep ↦ ?_)
  obtain ⟨rfl, rfl⟩ := Prod.mk.inj (hunchanged _ _ _ hstep)
  exact ⟨rfl, hrest reply⟩

/-- The upper program waits while the lower one is still. -/
theorem Tracks.of_still {program : Interaction LowerReply γ}
    {continuation : γ → Interaction LowerReply α} {memory : μ} {upper : Interaction UpperReply β}
    (hstill : Still low program memory fun value middle ↦
      Tracks low high observe post (continuation value) middle upper) :
    Tracks low high observe post (program >>= continuation) memory upper := by
  induction program generalizing memory with
  | done value => exact hstill
  | ask call next ih =>
    intro state reply final later hstep
    obtain ⟨rfl, hrest⟩ := hstill state reply final later hstep
    exact ⟨upper, .none _ _, ih reply hrest⟩

end Tracking

/-! ### Interleaved clients -/

section Interleaved

variable {Lower : Type u} {LowerReply : Lower → Type v} {Upper : Type y}
  {UpperReply : Upper → Type z} {α β : Type w} {μ σ : Type x} {Client : Type y}
  [DecidableEq Client]
variable {low : Client → Environment LowerReply (μ × σ)} {high : Client → Environment UpperReply σ}
variable {observe : α → β} {post : Client → α → μ → Prop}

/-- A client changes its own memory and the shared state. -/
def joint (low : Client → Environment LowerReply (μ × σ)) (client : Client) :
    Environment LowerReply ((Client → μ) × σ) := fun before call reply after ↦
  low client (before.1 client, before.2) call reply (after.1 client, after.2) ∧
    ∀ other, other ≠ client → after.1 other = before.1 other

/-- A client that makes some calls alone changes its own memory and the shared state. -/
theorem Advances.jointly (low : Client → Environment LowerReply (μ × σ)) (client : Client)
    {start further : Interaction LowerReply α} {before after : μ × σ}
    (hadvances : Advances (low client) start before further after) (memory : Client → μ)
    (hmemory : memory client = before.1) :
    Advances (joint low client) start (memory, before.2) further
      (Function.update memory client after.1, after.2) := by
  induction hadvances generalizing memory with
  | none program state =>
    rw [← hmemory, Function.update_eq_self]
    exact .none _ _
  | @call call next reply further state later final hstep hrest ih =>
    have hjoint : joint low client (memory, state.2) call reply
        (Function.update memory client later.1, later.2) := by
      refine ⟨?_, fun other hother ↦ Function.update_of_ne hother _ _⟩
      dsimp only
      rw [hmemory, Function.update_self]
      exact hstep
    have hnext := ih (Function.update memory client later.1) (Function.update_self _ _ _)
    rw [Function.update_idem] at hnext
    exact .call hjoint hnext

/-- When each lower program tracks an upper one, the upper system comes to the shared state of the
lower one. -/
theorem Reaches.tracked {first now : System LowerReply α Client ((Client → μ) × σ)}
    {upper : Client → Interaction UpperReply β}
    (hfirst : ∀ client, Tracks (low client) (high client) observe (post client)
      (first.program client) (first.world.1 client) (upper client))
    (hreaches : Reaches (joint low) first now) :
    ∃ reached : Client → Interaction UpperReply β,
      Reaches high ⟨upper, first.world.2⟩ ⟨reached, now.world.2⟩ ∧
        ∀ client, Tracks (low client) (high client) observe (post client) (now.program client)
          (now.world.1 client) (reached client) := by
  induction hreaches with
  | refl => exact ⟨upper, .refl, hfirst⟩
  | tail _ hexchanges ih =>
    obtain ⟨reached, hreached, htracks⟩ := ih
    obtain ⟨mover, call, next, hat, reply, world, hstep, hothers⟩ := hexchanges
    have hmover := htracks mover
    rw [hat] at hmover
    obtain ⟨further, hadvances, hrest⟩ := hmover _ reply _ _ hstep
    refine ⟨Function.update reached mover further, hreached.of_advances hadvances rfl,
      fun client ↦ ?_⟩
    rcases eq_or_ne client mover with rfl | hother
    · dsimp only
      rw [Function.update_self, Function.update_self]
      exact hrest
    · dsimp only
      rw [Function.update_of_ne hother, Function.update_of_ne hother, hothers client hother]
      exact htracks client

/-- Clients that are done have the results that they have in the upper system, where the calls of
all clients were made in some order. -/
theorem Reaches.results {first now : System LowerReply α Client ((Client → μ) × σ)}
    {upper : Client → Interaction UpperReply β}
    (hfirst : ∀ client, Tracks (low client) (high client) observe (post client)
      (first.program client) (first.world.1 client) (upper client))
    (hreaches : Reaches (joint low) first now) (finished : Finset Client) {result : Client → α}
    (hfinished : ∀ client ∈ finished, now.program client = .done (result client)) :
    ∃ reached : Client → Interaction UpperReply β,
      Reaches high ⟨upper, first.world.2⟩ ⟨reached, now.world.2⟩ ∧
        ∀ client ∈ finished, reached client = .done (observe (result client)) ∧
          post client (result client) (now.world.1 client) := by
  obtain ⟨reached, hreached, htracks⟩ := hreaches.tracked hfirst
  have hdone : ∀ client ∈ finished, post client (result client) (now.world.1 client) ∧
      ∀ state, Advances (high client) (reached client) state
        (.done (observe (result client))) state := by
    intro client hclient
    have htrack := htracks client
    rw [hfinished client hclient] at htrack
    exact htrack
  have hall : Reaches high ⟨upper, first.world.2⟩ ⟨fun client ↦
      if client ∈ finished then .done (observe (result client)) else reached client,
      now.world.2⟩ := by
    clear hfinished
    induction finished using Finset.induction_on with
    | empty =>
      simp only [Finset.notMem_empty, if_false]
      exact hreached
    | insert mover others hnew ih =>
      have hbefore := ih fun other hother ↦ hdone other (Finset.mem_insert_of_mem hother)
      have hmoved := hbefore.of_advances ((hdone mover (Finset.mem_insert_self _ _)).2 _)
        (if_neg hnew)
      have hprogram : (fun client ↦ if client ∈ insert mover others then
          .done (observe (result client)) else reached client) =
          Function.update (fun client ↦ if client ∈ others then
            .done (observe (result client)) else reached client) mover
            (.done (observe (result mover))) := by
        funext client
        rcases eq_or_ne client mover with rfl | hother
        · rw [Function.update_self, if_pos (Finset.mem_insert_self _ _)]
        · rw [Function.update_of_ne hother]
          simp only [Finset.mem_insert, hother, false_or]
      rw [hprogram]
      exact hmoved
  exact ⟨_, hall, fun client hclient ↦ ⟨if_pos hclient, (hdone client hclient).1⟩⟩

end Interleaved

end Libhoth.Foundation.AtomicCalls
