import Mathlib.Tactic.Common

/-!
# Interacting programs and the environments they run in

A program that talks to the outside world issues one request at a time and continues on the reply.
`Interaction` is the type of such programs: a tree whose nodes are requests and whose branches are
the replies a request admits. The reply type depends on the request, so a reply that the request
cannot receive is not a branch.

An `Environment` says which replies a request may meet and how the state outside the program moves.
`Runs` is the big-step semantics of a program in an environment, and `Ensures` says that every run
ends in an accepted result and state. `ensures_bind` composes, `ensures_ask` is one exchange, and
`whileDecreasing_ensures` and `whileRounds_ensures` are the invariant rules of the two loop forms:
a loop whose states carry a measure that every round lowers, and a loop cut off after a number of
rounds, for loops that need not end; `whileRounds_total` is for those that do. `Admits` says that
some run ends in the postcondition, with rules of the same shapes (`admits_bind`,
`whileDecreasing_admits`).

`recording` is the environment that admits every reply and keeps the history of exchanges, so a
statement about every device behaviour is a statement about the runs in `recording`. A device with
a state of its own is another environment, and `Runs.exists_of_serial` gives a run in every
environment that answers each request. `interpret` replaces each request by a program over a lower
signature, and `runs_interpret_iff` reads the runs of the lower program as runs of the upper one in
the environment `induced` by the handler; `observing` also keeps the upper exchanges. For a handler
that only renames requests `runs_interpret_embed` gives the lower history itself.
-/

set_option autoImplicit false
set_option relaxedAutoImplicit false

namespace Libhoth.Foundation.InteractingProgram

universe u v w x

/-- A program that ends in a value or issues a request and continues on its reply. -/
inductive Interaction {Request : Type u} (Reply : Request → Type v) (α : Type w) :
    Type (max u v w)
  | done (value : α)
  | ask (request : Request) (next : Reply request → Interaction Reply α)

section Programs

variable {Request : Type u} {Reply : Request → Type v}

/-- Sequential composition: the second program continues from every leaf of the first. -/
protected def Interaction.bind {α β : Type w} :
    Interaction Reply α → (α → Interaction Reply β) → Interaction Reply β
  | .done value, continuation => continuation value
  | .ask request next, continuation =>
    .ask request fun reply ↦ (next reply).bind continuation

instance : Monad (Interaction Reply : Type w → Type (max u v w)) where
  pure := Interaction.done
  bind := Interaction.bind

/-- The program that issues one request and returns the reply. -/
def request (call : Request) : Interaction Reply (Reply call) :=
  .ask call .done

@[simp] theorem pure_eq_done {α : Type w} (value : α) :
    (pure value : Interaction Reply α) = .done value :=
  rfl

@[simp] theorem done_bind {α β : Type w} (value : α)
    (continuation : α → Interaction Reply β) :
    (Interaction.done value >>= continuation) = continuation value :=
  rfl

@[simp] theorem ask_bind {α β : Type w} (call : Request)
    (next : Reply call → Interaction Reply α) (continuation : α → Interaction Reply β) :
    (Interaction.ask call next >>= continuation) =
      .ask call fun reply ↦ next reply >>= continuation :=
  rfl

/-- Sequential composition is associative. -/
theorem bind_bind {α β γ : Type w} (program : Interaction Reply α)
    (first : α → Interaction Reply β) (second : β → Interaction Reply γ) :
    (program >>= first) >>= second = program >>= fun value ↦ first value >>= second := by
  induction program with
  | done value => rfl
  | ask call next ih =>
    simp only [ask_bind]
    exact congrArg (Interaction.ask call) (funext ih)

/-! ### Environments and runs -/

/-- How the world outside a program may answer: the state before a request, the request, a reply
it may meet, and a state after it. -/
def Environment (Reply : Request → Type v) (σ : Type x) :=
  σ → (call : Request) → Reply call → σ → Prop

variable {σ : Type x} {environment : Environment Reply σ}

/-- The big-step semantics of a program: from a state it may end with a result in a final
state. -/
def Runs (environment : Environment Reply σ) {α : Type w} :
    Interaction Reply α → σ → α → σ → Prop
  | .done value, start, result, final => result = value ∧ final = start
  | .ask call next, start, result, final =>
    ∃ reply middle, environment start call reply middle ∧
      Runs environment (next reply) middle result final

@[simp] theorem runs_done {α : Type w} (value result : α) (start final : σ) :
    Runs environment (.done value) start result final ↔ result = value ∧ final = start :=
  Iff.rfl

@[simp] theorem runs_ask {α : Type w} (call : Request) (next : Reply call → Interaction Reply α)
    (start final : σ) (result : α) :
    Runs environment (.ask call next) start result final ↔
      ∃ reply middle, environment start call reply middle ∧
        Runs environment (next reply) middle result final :=
  Iff.rfl

@[simp] theorem runs_request (call : Request) (start final : σ) (reply : Reply call) :
    Runs environment (request call) start reply final ↔
      environment start call reply final := by
  simp only [request, runs_ask, runs_done]
  constructor
  · rintro ⟨_, _, hstep, rfl, rfl⟩
    exact hstep
  · intro hstep
    exact ⟨reply, final, hstep, rfl, rfl⟩

/-- A run of a composition is a run of the first program followed by a run of the second. -/
theorem runs_bind {α β : Type w} (program : Interaction Reply α)
    (continuation : α → Interaction Reply β) (start final : σ) (result : β) :
    Runs environment (program >>= continuation) start result final ↔
      ∃ value middle, Runs environment program start value middle ∧
        Runs environment (continuation value) middle result final := by
  induction program generalizing start with
  | done value =>
    simp only [done_bind, runs_done]
    constructor
    · intro hrun
      exact ⟨value, start, ⟨rfl, rfl⟩, hrun⟩
    · rintro ⟨_, _, ⟨rfl, rfl⟩, hrun⟩
      exact hrun
  | ask call next ih =>
    simp only [ask_bind, runs_ask, ih]
    constructor
    · rintro ⟨reply, middle, hstep, value, last, hfirst, hsecond⟩
      exact ⟨value, last, ⟨reply, middle, hstep, hfirst⟩, hsecond⟩
    · rintro ⟨value, last, ⟨reply, middle, hstep, hfirst⟩, hsecond⟩
      exact ⟨reply, middle, hstep, value, last, hfirst, hsecond⟩

/-- A run of the first program that the second one can continue gives a run of the composition. -/
theorem exists_runs_bind {α β : Type w} {program : Interaction Reply α}
    {continuation : α → Interaction Reply β} {start middle : σ} {value : α} {result : β}
    (hfirst : Runs environment program start value middle)
    (hsecond : ∃ final, Runs environment (continuation value) middle result final) :
    ∃ final, Runs environment (program >>= continuation) start result final := by
  obtain ⟨final, hrest⟩ := hsecond
  exact ⟨final, (runs_bind _ _ _ _ _).mpr ⟨value, middle, hfirst, hrest⟩⟩

/-- An environment that always has an answer gives every program a run. -/
theorem Runs.exists_of_serial {α : Type w}
    (hserial : ∀ state call, ∃ reply next, environment state call reply next)
    (program : Interaction Reply α) (start : σ) :
    ∃ result final, Runs environment program start result final := by
  induction program generalizing start with
  | done value => exact ⟨value, start, rfl, rfl⟩
  | ask call next ih =>
    obtain ⟨reply, middle, hstep⟩ := hserial start call
    obtain ⟨result, final, hrun⟩ := ih reply middle
    exact ⟨result, final, reply, middle, hstep, hrun⟩

/-- A run stays a run in an environment that admits more. -/
theorem Runs.mono_environment {other : Environment Reply σ} {α : Type w}
    (hmore : ∀ state call reply next, environment state call reply next →
      other state call reply next)
    {program : Interaction Reply α} {start final : σ} {result : α}
    (hrun : Runs environment program start result final) :
    Runs other program start result final := by
  induction program generalizing start with
  | done value => exact hrun
  | ask call next ih =>
    obtain ⟨reply, middle, hstep, hrest⟩ := hrun
    exact ⟨reply, middle, hmore _ _ _ _ hstep, ih reply hrest⟩

/-- The environment without a state in which each request meets the reply of a function. -/
def answering (answer : (call : Request) → Reply call) : Environment Reply Unit :=
  fun _ call reply _ ↦ reply = answer call

/-- A program has a run against a function of replies. -/
theorem exists_runs_answering {α : Type w} (answer : (call : Request) → Reply call)
    (program : Interaction Reply α) : ∃ result, Runs (answering answer) program () result () := by
  have hserial : ∀ state call, ∃ reply next, answering answer state call reply next :=
    fun state call ↦ ⟨answer call, state, rfl⟩
  obtain ⟨result, _, hrun⟩ := Runs.exists_of_serial hserial program ()
  exact ⟨result, hrun⟩

/-- What a program computes against a device that answers each request and moves on. -/
def play {α : Type w} (device : σ → (call : Request) → Reply call × σ) :
    Interaction Reply α → σ → α × σ
  | .done value, state => (value, state)
  | .ask call next, state => play device (next (device state call).1) (device state call).2

/-- Playing a program against a device of an environment is a run. -/
theorem runs_play {α : Type w} {device : σ → (call : Request) → Reply call × σ}
    (hdevice : ∀ state call, environment state call (device state call).1 (device state call).2)
    (program : Interaction Reply α) (start : σ) :
    Runs environment program start (play device program start).1 (play device program start).2 := by
  induction program generalizing start with
  | done value => exact ⟨rfl, rfl⟩
  | ask call next ih => exact ⟨_, _, hdevice start call, ih _ _⟩

/-! ### Partial correctness -/

/-- Every run of the program from the state ends in a result and a state that the postcondition
accepts. -/
def Ensures (environment : Environment Reply σ) {α : Type w} (program : Interaction Reply α)
    (start : σ) (post : α → σ → Prop) : Prop :=
  ∀ result final, Runs environment program start result final → post result final

@[simp] theorem ensures_done {α : Type w} (value : α) (start : σ) (post : α → σ → Prop) :
    Ensures environment (.done value) start post ↔ post value start := by
  constructor
  · intro hensures
    exact hensures value start ⟨rfl, rfl⟩
  · rintro hpost _ _ ⟨rfl, rfl⟩
    exact hpost

@[simp] theorem ensures_ask {α : Type w} (call : Request)
    (next : Reply call → Interaction Reply α) (start : σ) (post : α → σ → Prop) :
    Ensures environment (.ask call next) start post ↔
      ∀ reply middle, environment start call reply middle →
        Ensures environment (next reply) middle post := by
  constructor
  · intro hensures reply middle hstep result final hrun
    exact hensures result final ⟨reply, middle, hstep, hrun⟩
  · rintro hensures result final ⟨reply, middle, hstep, hrun⟩
    exact hensures reply middle hstep result final hrun

@[simp] theorem ensures_request (call : Request) (start : σ) (post : Reply call → σ → Prop) :
    Ensures environment (request call) start post ↔
      ∀ reply final, environment start call reply final → post reply final := by
  simp [Ensures]

@[simp] theorem ensures_bind {α β : Type w} (program : Interaction Reply α)
    (continuation : α → Interaction Reply β) (start : σ) (post : β → σ → Prop) :
    Ensures environment (program >>= continuation) start post ↔
      Ensures environment program start fun value middle ↦
        Ensures environment (continuation value) middle post := by
  constructor
  · intro hensures value middle hfirst result final hsecond
    exact hensures result final
      ((runs_bind _ _ _ _ _).mpr ⟨value, middle, hfirst, hsecond⟩)
  · intro hensures result final hrun
    obtain ⟨value, middle, hfirst, hsecond⟩ := (runs_bind _ _ _ _ _).mp hrun
    exact hensures value middle hfirst result final hsecond

/-- A weaker postcondition follows from a stronger one. -/
theorem Ensures.mono {α : Type w} {program : Interaction Reply α} {start : σ}
    {post weaker : α → σ → Prop} (hensures : Ensures environment program start post)
    (hweaker : ∀ result final, post result final → weaker result final) :
    Ensures environment program start weaker :=
  fun result final hrun ↦ hweaker result final (hensures result final hrun)

/-! ### Loops -/

/-- The loop that repeats a round until it finishes, for rounds that lower a measure of the loop
state. The bound on the next state is part of the state, so the loop ends by construction. -/
def whileDecreasing {τ β : Type w} (measure : τ → ℕ)
    (round : (state : τ) → Interaction Reply ({next : τ // measure next < measure state} ⊕ β))
    (state : τ) : Interaction Reply β := do
  match ← round state with
  | .inl next =>
    have := next.property
    whileDecreasing measure round next.val
  | .inr value => pure value
termination_by measure state

/-- A run of the loop is a run of one round and, unless that finished, a run of the rest. -/
theorem runs_whileDecreasing {τ β : Type w} {measure : τ → ℕ}
    {round : (state : τ) → Interaction Reply ({next : τ // measure next < measure state} ⊕ β)}
    (state : τ) (start final : σ) (result : β) :
    Runs environment (whileDecreasing measure round state) start result final ↔
      ∃ outcome middle, Runs environment (round state) start outcome middle ∧
        match outcome with
        | .inl next => Runs environment (whileDecreasing measure round next.val) middle result final
        | .inr value => result = value ∧ final = middle := by
  rw [whileDecreasing, runs_bind]
  constructor
  · rintro ⟨outcome, middle, hround, hrest⟩
    refine ⟨outcome, middle, hround, ?_⟩
    cases outcome <;> exact hrest
  · rintro ⟨outcome, middle, hround, hrest⟩
    refine ⟨outcome, middle, hround, ?_⟩
    cases outcome <;> exact hrest

/-- The invariant rule of `whileDecreasing`: a round started under the invariant either keeps it
or finishes in the postcondition. -/
theorem whileDecreasing_ensures {τ β : Type w} {measure : τ → ℕ}
    {round : (state : τ) → Interaction Reply ({next : τ // measure next < measure state} ⊕ β)}
    {post : β → σ → Prop} (invariant : τ → σ → Prop)
    (hround : ∀ state start, invariant state start →
      Ensures environment (round state) start fun outcome final ↦
        match outcome with
        | .inl next => invariant next.val final
        | .inr value => post value final)
    (state : τ) (start : σ) (hstart : invariant state start) :
    Ensures environment (whileDecreasing measure round state) start post := by
  induction hmeasure : measure state using Nat.strongRecOn generalizing state start with
  | ind bound ih =>
    rw [whileDecreasing, ensures_bind]
    refine (hround state start hstart).mono fun outcome middle houtcome ↦ ?_
    match outcome, houtcome with
    | .inl next, hnext =>
      exact ih (measure next.val) (hmeasure ▸ next.property) next.val middle hnext rfl
    | .inr value, hvalue => exact (ensures_done _ _ _).mpr hvalue

/-- The loop that repeats a round until it finishes, cut off after a number of rounds: `none` says
that the rounds ran out. -/
def whileRounds {τ β : Type w} (round : τ → Interaction Reply (τ ⊕ β)) :
    ℕ → τ → Interaction Reply (Option β)
  | 0, _ => pure none
  | rounds + 1, state => do
    match ← round state with
    | .inl next => whileRounds round rounds next
    | .inr value => pure (some value)

/-- The invariant rule of `whileRounds`: however many rounds the loop was given, it finishes with a
value in the postcondition or is cut off under the invariant. -/
theorem whileRounds_ensures {τ β : Type w} {round : τ → Interaction Reply (τ ⊕ β)}
    {post : β → σ → Prop} (invariant : τ → σ → Prop)
    (hround : ∀ state start, invariant state start →
      Ensures environment (round state) start fun outcome final ↦
        match outcome with
        | .inl next => invariant next final
        | .inr value => post value final)
    (rounds : ℕ) (state : τ) (start : σ) (hstart : invariant state start) :
    Ensures environment (whileRounds round rounds state) start fun outcome final ↦
      (∀ value, outcome = some value → post value final) ∧
        (outcome = none → ∃ last, invariant last final) := by
  induction rounds generalizing state start with
  | zero =>
    rw [whileRounds, pure_eq_done, ensures_done]
    exact ⟨fun _ hvalue ↦ absurd hvalue.symm (Option.some_ne_none _), fun _ ↦ ⟨state, hstart⟩⟩
  | succ rounds ih =>
    rw [whileRounds, ensures_bind]
    refine (hround state start hstart).mono fun outcome middle houtcome ↦ ?_
    match outcome, houtcome with
    | .inl next, hnext => exact ih next middle hnext
    | .inr value, hvalue => simpa using hvalue

/-- A loop whose first round finishes needs one round. -/
theorem whileRounds_ensures_first {τ β : Type w} {round : τ → Interaction Reply (τ ⊕ β)}
    {post : β → σ → Prop} {state : τ} {start : σ}
    (hround : Ensures environment (round state) start fun outcome final ↦
      ∃ value, outcome = .inr value ∧ post value final) (rounds : ℕ) :
    Ensures environment (whileRounds round (rounds + 1) state) start fun outcome final ↦
      ∃ value, outcome = some value ∧ post value final := by
  rw [whileRounds, ensures_bind]
  refine hround.mono ?_
  rintro _ final ⟨value, rfl, hvalue⟩
  exact (ensures_done _ _ _).mpr ⟨value, rfl, hvalue⟩

/-- The termination rule of `whileRounds`: when every round either finishes or lowers a measure,
more rounds than the measure are enough. -/
theorem whileRounds_finishes {τ β : Type w} {round : τ → Interaction Reply (τ ⊕ β)}
    (measure : τ → ℕ) (invariant : τ → σ → Prop)
    (hround : ∀ state start, invariant state start →
      Ensures environment (round state) start fun outcome final ↦
        ∀ next, outcome = .inl next → invariant next final ∧ measure next < measure state)
    (rounds : ℕ) (state : τ) (start : σ) (hstart : invariant state start)
    (henough : measure state < rounds) :
    Ensures environment (whileRounds round rounds state) start fun outcome _ ↦
      outcome.isSome := by
  induction rounds generalizing state start with
  | zero => exact absurd henough (Nat.not_lt_zero _)
  | succ rounds ih =>
    rw [whileRounds, ensures_bind]
    refine (hround state start hstart).mono fun outcome middle houtcome ↦ ?_
    match outcome, houtcome with
    | .inl next, hnext =>
      obtain ⟨hinvariant, hlower⟩ := hnext next rfl
      exact ih next middle hinvariant (by omega)
    | .inr value, _ => simp

/-- The rule for total correctness of `whileRounds`: when every round either finishes in the
postcondition or keeps the invariant and lowers a measure, more rounds than the measure end in the
postcondition. -/
theorem whileRounds_total {τ β : Type w} {round : τ → Interaction Reply (τ ⊕ β)}
    {post : β → σ → Prop} (measure : τ → ℕ) (invariant : τ → σ → Prop)
    (hround : ∀ state start, invariant state start →
      Ensures environment (round state) start fun outcome final ↦
        match outcome with
        | .inl next => invariant next final ∧ measure next < measure state
        | .inr value => post value final)
    (rounds : ℕ) (state : τ) (start : σ) (hstart : invariant state start)
    (henough : measure state < rounds) :
    Ensures environment (whileRounds round rounds state) start fun outcome final ↦
      ∃ value, outcome = some value ∧ post value final := by
  have hkeeps : ∀ state start, invariant state start →
      Ensures environment (round state) start fun outcome final ↦
        match outcome with
        | .inl next => invariant next final
        | .inr value => post value final := by
    refine fun state start hstart ↦ (hround state start hstart).mono fun outcome _ hnext ↦ ?_
    cases outcome with
    | inl next => exact hnext.1
    | inr value => exact hnext
  have hlowers : ∀ state start, invariant state start →
      Ensures environment (round state) start fun outcome final ↦
        ∀ next, outcome = .inl next → invariant next final ∧ measure next < measure state := by
    refine fun state start hstart ↦ (hround state start hstart).mono ?_
    rintro _ final hnext next rfl
    exact hnext
  intro outcome final hrun
  have hpost := whileRounds_ensures invariant hkeeps rounds state start hstart outcome final hrun
  have hsome := whileRounds_finishes measure invariant hlowers rounds state start hstart henough
    outcome final hrun
  obtain ⟨value, rfl⟩ := Option.isSome_iff_exists.mp hsome
  exact ⟨value, rfl, hpost.1 value rfl⟩

/-! ### Runs that exist -/

/-- Some run of the program from the state ends in a result and a state that the postcondition
accepts. -/
def Admits (environment : Environment Reply σ) {α : Type w} (program : Interaction Reply α)
    (start : σ) (post : α → σ → Prop) : Prop :=
  ∃ result final, Runs environment program start result final ∧ post result final

theorem admits_done {α : Type w} {value : α} {start : σ} {post : α → σ → Prop}
    (hpost : post value start) : Admits environment (.done value) start post :=
  ⟨value, start, ⟨rfl, rfl⟩, hpost⟩

/-- One reply that the environment admits is enough. -/
theorem admits_request {call : Request} {start final : σ} {post : Reply call → σ → Prop}
    (reply : Reply call) (hstep : environment start call reply final)
    (hpost : post reply final) : Admits environment (request call) start post :=
  ⟨reply, final, (runs_request _ _ _ _).mpr hstep, hpost⟩

theorem admits_bind {α β : Type w} (program : Interaction Reply α)
    (continuation : α → Interaction Reply β) (start : σ) (post : β → σ → Prop) :
    Admits environment (program >>= continuation) start post ↔
      Admits environment program start fun value middle ↦
        Admits environment (continuation value) middle post := by
  constructor
  · rintro ⟨result, final, hrun, hpost⟩
    obtain ⟨value, middle, hfirst, hsecond⟩ := (runs_bind _ _ _ _ _).mp hrun
    exact ⟨value, middle, hfirst, result, final, hsecond, hpost⟩
  · rintro ⟨value, middle, hfirst, result, final, hsecond, hpost⟩
    exact ⟨result, final, (runs_bind _ _ _ _ _).mpr ⟨value, middle, hfirst, hsecond⟩, hpost⟩

theorem Admits.mono {α : Type w} {program : Interaction Reply α} {start : σ}
    {post weaker : α → σ → Prop} (hadmits : Admits environment program start post)
    (hweaker : ∀ result final, post result final → weaker result final) :
    Admits environment program start weaker := by
  obtain ⟨result, final, hrun, hpost⟩ := hadmits
  exact ⟨result, final, hrun, hweaker result final hpost⟩

/-- What every run ends in, the run that exists ends in too. -/
theorem Admits.and_ensures {α : Type w} {program : Interaction Reply α} {start : σ}
    {post other : α → σ → Prop} (hadmits : Admits environment program start post)
    (hensures : Ensures environment program start other) :
    Admits environment program start fun result final ↦ post result final ∧ other result final := by
  obtain ⟨result, final, hrun, hpost⟩ := hadmits
  exact ⟨result, final, hrun, hpost, hensures result final hrun⟩

/-- The rule of `whileDecreasing` for a run that exists: each round started under the invariant can
keep it or finish in the postcondition. -/
theorem whileDecreasing_admits {τ β : Type w} {measure : τ → ℕ}
    {round : (state : τ) → Interaction Reply ({next : τ // measure next < measure state} ⊕ β)}
    {post : β → σ → Prop} (invariant : τ → σ → Prop)
    (hround : ∀ state start, invariant state start →
      Admits environment (round state) start fun outcome final ↦
        match outcome with
        | .inl next => invariant next.val final
        | .inr value => post value final)
    (state : τ) (start : σ) (hstart : invariant state start) :
    Admits environment (whileDecreasing measure round state) start post := by
  induction hmeasure : measure state using Nat.strongRecOn generalizing state start with
  | ind bound ih =>
    rw [whileDecreasing, admits_bind]
    refine (hround state start hstart).mono fun outcome middle houtcome ↦ ?_
    match outcome, houtcome with
    | .inl next, hnext =>
      exact ih (measure next.val) (hmeasure ▸ next.property) next.val middle hnext rfl
    | .inr value, hvalue => exact admits_done hvalue

/-! ### The history of exchanges -/

/-- A request together with the reply it met. -/
abbrev Exchange (Reply : Request → Type v) :=
  Σ call : Request, Reply call

/-- The environment that admits every reply and appends each exchange to the history. -/
def recording : Environment Reply (List (Exchange Reply)) :=
  fun past call reply now ↦ now = past ++ [⟨call, reply⟩]

@[simp] theorem recording_iff (past now : List (Exchange Reply)) (call : Request)
    (reply : Reply call) :
    recording past call reply now ↔ now = past ++ [⟨call, reply⟩] :=
  Iff.rfl

/-- Every reply to a request gives a recorded run. -/
theorem runs_request_recording (call : Request) (reply : Reply call)
    (past : List (Exchange Reply)) :
    Runs recording (request call) past reply (past ++ [⟨call, reply⟩]) :=
  (runs_request _ _ _ _).mpr rfl

/-- What holds of the items of a list and of one more holds of all of them. -/
theorem forall_mem_snoc {α : Type*} {holds : α → Prop} {items : List α} {last : α}
    (hitems : ∀ item ∈ items, holds item) (hlast : holds last) :
    ∀ item ∈ items ++ [last], holds item :=
  List.forall_mem_append.mpr ⟨hitems, List.forall_mem_singleton.mpr hlast⟩

/-- The environment that keeps the history and in which each request meets the reply of a
function. -/
def recordingAnswers (answer : (call : Request) → Reply call) :
    Environment Reply (List (Exchange Reply)) :=
  fun past call reply now ↦ reply = answer call ∧ now = past ++ [⟨call, reply⟩]

/-- A program has a recorded run against a function of replies. -/
theorem exists_runs_recordingAnswers {α : Type w} (answer : (call : Request) → Reply call)
    (program : Interaction Reply α) (past : List (Exchange Reply)) :
    ∃ result now, Runs (recordingAnswers answer) program past result now :=
  Runs.exists_of_serial (fun past call ↦ ⟨answer call, past ++ [⟨call, answer call⟩], rfl, rfl⟩)
    program past

/-- A recorded run against a function of replies is a recorded run. -/
theorem Runs.recording_of_answers {answer : (call : Request) → Reply call} {α : Type w}
    {program : Interaction Reply α} {past now : List (Exchange Reply)} {result : α}
    (hrun : Runs (recordingAnswers answer) program past result now) :
    Runs recording program past result now :=
  hrun.mono_environment fun _ _ _ _ hstep ↦ hstep.2

/-- Every exchange of a recorded run against a function of replies is one of the function. -/
theorem Runs.eq_answer {answer : (call : Request) → Reply call} {α : Type w}
    {program : Interaction Reply α} {past now : List (Exchange Reply)} {result : α}
    (hrun : Runs (recordingAnswers answer) program past result now)
    (hpast : ∀ exchange ∈ past, exchange.2 = answer exchange.1) :
    ∀ exchange ∈ now, exchange.2 = answer exchange.1 := by
  induction program generalizing past with
  | done value => exact hrun.2 ▸ hpast
  | ask call next ih =>
    obtain ⟨reply, _, ⟨rfl, rfl⟩, hrest⟩ := hrun
    exact ih _ hrest (forall_mem_snoc hpast rfl)

/-- A place in a history with one more exchange is the new exchange or a place in the history. -/
theorem snoc_eq_append_cons {α : Type*} {items before after : List α} {last item : α}
    (hsplit : items ++ [last] = before ++ item :: after) :
    (before = items ∧ item = last ∧ after = []) ∨ ∃ rest, items = before ++ item :: rest := by
  rcases List.eq_nil_or_concat after with rfl | ⟨rest, tail, rfl⟩
  · obtain ⟨rfl, hlast⟩ := List.append_inj' hsplit rfl
    exact .inl ⟨rfl, (List.singleton_inj.mp hlast).symm, rfl⟩
  · have hinner : items ++ [last] = (before ++ item :: rest) ++ [tail] := by simpa using hsplit
    exact .inr ⟨rest, (List.append_inj' hinner rfl).1⟩

/-- No item is one that ends the list, where whether it does may depend on the items before. -/
def Unbroken {α : Type*} (ends : List α → α → Prop) (items : List α) : Prop :=
  ∀ before item after, items = before ++ item :: after → ¬ends before item

theorem Unbroken.nil {α : Type*} (ends : List α → α → Prop) : Unbroken ends [] := by
  intro before item after hsplit
  exact absurd hsplit.symm (List.append_ne_nil_of_right_ne_nil _ (List.cons_ne_nil _ _))

theorem Unbroken.snoc {α : Type*} {ends : List α → α → Prop} {items : List α} {last : α}
    (hunbroken : Unbroken ends items) (hlast : ¬ends items last) :
    Unbroken ends (items ++ [last]) := by
  intro before item after hsplit
  rcases snoc_eq_append_cons hsplit with ⟨rfl, rfl, -⟩ | ⟨rest, hitems⟩
  · exact hlast
  · exact hunbroken before item rest hitems

theorem Unbroken.of_append {α : Type*} {ends : List α → α → Prop} {items later : List α}
    (hunbroken : Unbroken ends (items ++ later)) : Unbroken ends items := by
  intro before item after hsplit
  exact hunbroken before item (after ++ later) (by rw [hsplit, List.append_assoc]; rfl)

theorem unbroken_snoc_iff {α : Type*} {ends : List α → α → Prop} {items : List α} {last : α} :
    Unbroken ends (items ++ [last]) ↔ Unbroken ends items ∧ ¬ends items last := by
  constructor
  · intro hunbroken
    exact ⟨hunbroken.of_append, hunbroken items last [] rfl⟩
  · rintro ⟨hunbroken, hlast⟩
    exact hunbroken.snoc hlast

/-- No item of an unbroken list ends it, by index. -/
theorem Unbroken.not_ends {α : Type*} {ends : List α → α → Prop} {items : List α}
    (hunbroken : Unbroken ends items) {index : ℕ} {item : α} (hitem : items[index]? = some item) :
    ¬ends (items.take index) item := by
  obtain ⟨hindex, rfl⟩ := List.getElem?_eq_some_iff.mp hitem
  exact hunbroken _ _ (items.drop (index + 1)) (by simp)

/-- After an unbroken list and one more item, only that item can end the list. -/
theorem Unbroken.eq_nil_of_ends {α : Type*} {ends : List α → α → Prop}
    {items before after : List α} {last item : α} (hunbroken : Unbroken ends items)
    (hsplit : items ++ [last] = before ++ item :: after) (hends : ends before item) :
    after = [] := by
  rcases snoc_eq_append_cons hsplit with ⟨-, -, hafter⟩ | ⟨rest, hitems⟩
  · exact hafter
  · exact absurd hends (hunbroken before item rest hitems)

/-- A program only appends to the history. -/
theorem runs_recording_append {α : Type w} (program : Interaction Reply α)
    (before past now : List (Exchange Reply)) (result : α) :
    Runs recording program (before ++ past) result now ↔
      ∃ rest, now = before ++ rest ∧ Runs recording program past result rest := by
  induction program generalizing past with
  | done value =>
    simp only [runs_done]
    constructor
    · rintro ⟨rfl, rfl⟩
      exact ⟨past, rfl, rfl, rfl⟩
    · rintro ⟨rest, rfl, rfl, rfl⟩
      exact ⟨rfl, rfl⟩
  | ask call next ih =>
    simp only [runs_ask, recording_iff, List.append_assoc]
    constructor
    · rintro ⟨reply, _, rfl, hrun⟩
      obtain ⟨rest, rfl, hrest⟩ := (ih reply (past ++ [⟨call, reply⟩])).mp hrun
      exact ⟨rest, rfl, reply, _, rfl, hrest⟩
    · rintro ⟨rest, rfl, reply, _, rfl, hrun⟩
      exact ⟨reply, _, rfl, (ih reply (past ++ [⟨call, reply⟩])).mpr ⟨rest, rfl, hrun⟩⟩

/-- The history at the end of a run starts with the history before it. -/
theorem Runs.recording_prefix {α : Type w} {program : Interaction Reply α}
    {past now : List (Exchange Reply)} {result : α}
    (hrun : Runs recording program past result now) : ∃ rest, now = past ++ rest := by
  rw [← List.append_nil past, runs_recording_append] at hrun
  obtain ⟨rest, hnow, -⟩ := hrun
  exact ⟨rest, hnow⟩

/-- The replies determine the result: two runs of a program with one history end alike. -/
theorem Runs.recording_unique {α : Type w} {program : Interaction Reply α}
    {past now : List (Exchange Reply)} {first second : α}
    (hfirst : Runs recording program past first now)
    (hsecond : Runs recording program past second now) : first = second := by
  induction program generalizing past with
  | done value => rw [hfirst.1, hsecond.1]
  | ask call next ih =>
    obtain ⟨reply, _, rfl, hfirst⟩ := hfirst
    obtain ⟨other, _, rfl, hsecond⟩ := hsecond
    obtain ⟨rest, hrest⟩ := hfirst.recording_prefix
    obtain ⟨tail, htail⟩ := hsecond.recording_prefix
    rw [hrest, List.append_assoc, List.append_assoc, List.append_cancel_left_eq,
      List.singleton_append, List.singleton_append, List.cons.injEq] at htail
    obtain rfl := eq_of_heq (Sigma.mk.inj htail.1).2
    exact ih reply hfirst hsecond

/-- An environment together with the history of the exchanges in it. -/
def keeping (environment : Environment Reply σ) : Environment Reply (List (Exchange Reply) × σ) :=
  fun start call reply final ↦
    final.1 = start.1 ++ [⟨call, reply⟩] ∧ environment start.2 call reply final.2

/-- A run with its history is a run and a recorded run. -/
theorem Runs.of_keeping {α : Type w} {program : Interaction Reply α}
    {start final : List (Exchange Reply) × σ} {result : α}
    (hrun : Runs (keeping environment) program start result final) :
    Runs environment program start.2 result final.2 ∧
      Runs recording program start.1 result final.1 := by
  induction program generalizing start with
  | done value =>
    obtain ⟨rfl, rfl⟩ := hrun
    exact ⟨⟨rfl, rfl⟩, rfl, rfl⟩
  | ask call next ih =>
    obtain ⟨reply, middle, ⟨hhistory, hstep⟩, hrest⟩ := hrun
    obtain ⟨hruns, hrecorded⟩ := ih reply hrest
    exact ⟨⟨reply, _, hstep, hruns⟩, reply, _, hhistory, hrecorded⟩

/-- What holds of the results and what holds of the recorded history. -/
theorem Ensures.keeping {α : Type w} {program : Interaction Reply α}
    {start : List (Exchange Reply) × σ} {post : α → σ → Prop}
    {recorded : α → List (Exchange Reply) → Prop}
    (hensures : Ensures environment program start.2 post)
    (hrecorded : Ensures recording program start.1 recorded) :
    Ensures (keeping environment) program start fun result final ↦
      post result final.2 ∧ recorded result final.1 := by
  intro result final hrun
  exact ⟨hensures result final.2 hrun.of_keeping.1, hrecorded result final.1 hrun.of_keeping.2⟩

/-- What every step of an environment keeps, every program keeps. -/
theorem ensures_of_step {kept : σ → Prop}
    (hstep : ∀ state call reply next, kept state → environment state call reply next → kept next)
    {α : Type w} (program : Interaction Reply α) {start : σ} (hstart : kept start) :
    Ensures environment program start fun _ final ↦ kept final := by
  induction program generalizing start with
  | done value => exact (ensures_done _ _ _).mpr hstart
  | ask call next ih =>
    refine (ensures_ask _ _ _ _).mpr fun reply middle hmiddle ↦ ?_
    exact ih reply (hstep _ _ _ _ hstart hmiddle)

/-- Keeping the history leaves an environment with an answer to every call. -/
theorem keeping_serial (hserial : ∀ state call, ∃ reply next, environment state call reply next)
    (state : List (Exchange Reply) × σ) (call : Request) :
    ∃ reply next, keeping environment state call reply next := by
  obtain ⟨reply, next, hstep⟩ := hserial state.2 call
  exact ⟨reply, (state.1 ++ [⟨call, reply⟩], next), rfl, hstep⟩

end Programs

/-! ### Programs over a lower signature -/

section Interpretation

variable {Request : Type u} {Reply : Request → Type v}
variable {Lower : Type u} {LowerReply : Lower → Type v} {σ : Type x}

/-- Replace each request of a program by a program over a lower signature that computes the
reply. -/
def interpret (handler : (call : Request) → Interaction LowerReply (Reply call)) {α : Type v} :
    Interaction Reply α → Interaction LowerReply α
  | .done value => .done value
  | .ask call next => handler call >>= fun reply ↦ interpret handler (next reply)

/-- A request is replaced by its program. -/
@[simp] theorem interpret_request
    (handler : (call : Request) → Interaction LowerReply (Reply call)) (call : Request) :
    interpret handler (request call) = handler call := by
  have hdone : ∀ program : Interaction LowerReply (Reply call),
      (program >>= fun reply ↦ .done reply) = program := by
    intro program
    induction program with
    | done value => rfl
    | ask call next ih => exact congrArg (Interaction.ask call) (funext ih)
  exact hdone (handler call)

/-- Requests are replaced in one part of a program after the other. -/
@[simp] theorem interpret_bind
    (handler : (call : Request) → Interaction LowerReply (Reply call)) {α β : Type v}
    (program : Interaction Reply α) (continuation : α → Interaction Reply β) :
    interpret handler (program >>= continuation) =
      interpret handler program >>= fun value ↦ interpret handler (continuation value) := by
  induction program with
  | done value => rfl
  | ask call next ih =>
    simp only [ask_bind, interpret, bind_bind, ih]

/-- Requests are replaced in each round of a loop. -/
theorem interpret_whileRounds
    (handler : (call : Request) → Interaction LowerReply (Reply call)) {τ β : Type v}
    (round : τ → Interaction Reply (τ ⊕ β)) (rounds : ℕ) (state : τ) :
    interpret handler (whileRounds round rounds state) =
      whileRounds (fun state ↦ interpret handler (round state)) rounds state := by
  induction rounds generalizing state with
  | zero => rfl
  | succ rounds ih =>
    rw [whileRounds, whileRounds, interpret_bind]
    refine congrArg _ (funext fun outcome ↦ ?_)
    cases outcome with
    | inl next => exact ih next
    | inr value => rfl

/-- The environment that a handler and a lower environment give the upper program: a request meets
the replies that the handler can compute. -/
def induced (handler : (call : Request) → Interaction LowerReply (Reply call))
    (environment : Environment LowerReply σ) : Environment Reply σ :=
  fun start call reply final ↦ Runs environment (handler call) start reply final

/-- The runs of an interpreted program are the runs of the program in the induced environment. -/
theorem runs_interpret_iff (handler : (call : Request) → Interaction LowerReply (Reply call))
    (environment : Environment LowerReply σ) {α : Type v} (program : Interaction Reply α)
    (start final : σ) (result : α) :
    Runs environment (interpret handler program) start result final ↔
      Runs (induced handler environment) program start result final := by
  induction program generalizing start with
  | done value => exact Iff.rfl
  | ask call next ih =>
    simp only [interpret, runs_bind, runs_ask, ih]
    exact Iff.rfl

/-- The induced environment together with the record of the upper exchanges. -/
def observing (handler : (call : Request) → Interaction LowerReply (Reply call))
    (environment : Environment LowerReply σ) :
    Environment Reply (List (Exchange Reply) × σ) :=
  fun start call reply final ↦
    final.1 = start.1 ++ [⟨call, reply⟩] ∧ Runs environment (handler call) start.2 reply final.2

/-- A recorded exchange of the upper signature as one of the lower. -/
def embedExchange (embed : Request → Lower)
    (exchange : Exchange fun call ↦ LowerReply (embed call)) : Exchange LowerReply :=
  ⟨embed exchange.1, exchange.2⟩

/-- A program whose requests are requests of a lower signature records there what it records on its
own. -/
theorem runs_interpret_embed (embed : Request → Lower) {α : Type v}
    (program : Interaction (fun call ↦ LowerReply (embed call)) α)
    (past now : List (Exchange LowerReply)) (result : α) :
    Runs recording (interpret (fun call ↦ request (embed call)) program) past result now ↔
      ∃ history, Runs recording program [] result history ∧
        now = past ++ history.map (embedExchange embed) := by
  induction program generalizing past with
  | done value =>
    constructor
    · rintro ⟨rfl, rfl⟩
      exact ⟨[], ⟨rfl, rfl⟩, (List.append_nil now).symm⟩
    · rintro ⟨history, ⟨rfl, rfl⟩, rfl⟩
      exact ⟨rfl, List.append_nil past⟩
  | ask call next ih =>
    simp only [interpret, runs_bind, runs_request, runs_ask, recording_iff, ih, List.nil_append]
    constructor
    · rintro ⟨reply, _, rfl, history, hrun, rfl⟩
      refine ⟨⟨call, reply⟩ :: history, ⟨reply, _, rfl, ?_⟩, by simp [embedExchange]⟩
      exact (runs_recording_append (next reply) [⟨call, reply⟩] [] _ result).mpr
        ⟨history, rfl, hrun⟩
    · rintro ⟨_, ⟨reply, _, rfl, hrun⟩, rfl⟩
      obtain ⟨history, rfl, hrest⟩ :=
        (runs_recording_append (next reply) [⟨call, reply⟩] [] _ result).mp hrun
      exact ⟨reply, _, rfl, history, hrest, by simp [embedExchange]⟩

end Interpretation

end Libhoth.Foundation.InteractingProgram
