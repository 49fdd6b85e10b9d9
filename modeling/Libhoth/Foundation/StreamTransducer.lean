import Mathlib.Data.List.Induction
import Mathlib.Tactic.Common

/-!
# Transducers over a stream

A `Transducer` reads a stream one symbol at a time: in a state, a symbol makes some events and leads
to the next state, or stops it. `feed` is what it makes of a list of symbols.

`chunked` is the same transducer with a piece of the stream for a symbol, and `feed_chunked` says
that the places at which a stream is cut do not matter. `feed_eq_iff` compares two transducers along
a stream: they are alike after every beginning of it exactly when they take each symbol alike in the
state that the beginning before it leads to.
-/

set_option autoImplicit false
set_option relaxedAutoImplicit false

namespace Libhoth.Foundation.StreamTransducer

variable {σ α ε : Type*}

/-- What a symbol does in a state: the events, and the next state unless it stops. -/
structure Transducer (σ α ε : Type*) where
  step : σ → α → List ε × Option σ

namespace Transducer

variable (machine : Transducer σ α ε)

/-- What a list of symbols does: its events, and the state behind it unless one of them stopped. -/
def feed : Option σ → List α → List ε × Option σ
  | none, _ => ([], none)
  | some state, [] => ([], some state)
  | some state, symbol :: rest =>
    ((machine.step state symbol).1 ++ (feed (machine.step state symbol).2 rest).1,
      (feed (machine.step state symbol).2 rest).2)

@[simp] theorem feed_none (symbols : List α) : machine.feed none symbols = ([], none) := by
  cases symbols <;> rfl

@[simp] theorem feed_nil (state : Option σ) : machine.feed state [] = ([], state) := by
  cases state <;> rfl

theorem feed_cons (state : σ) (symbol : α) (rest : List α) :
    machine.feed (some state) (symbol :: rest) =
      ((machine.step state symbol).1 ++ (machine.feed (machine.step state symbol).2 rest).1,
        (machine.feed (machine.step state symbol).2 rest).2) :=
  rfl

theorem feed_singleton (state : σ) (symbol : α) :
    machine.feed (some state) [symbol] = machine.step state symbol := by
  rw [feed_cons, feed_nil, List.append_nil]

/-- The state behind the first part carries over to the second. -/
theorem feed_append (state : Option σ) (first second : List α) :
    machine.feed state (first ++ second) =
      ((machine.feed state first).1 ++ (machine.feed (machine.feed state first).2 second).1,
        (machine.feed (machine.feed state first).2 second).2) := by
  induction first generalizing state with
  | nil => simp
  | cons symbol rest ih =>
    cases state with
    | none => simp
    | some state => rw [List.cons_append, feed_cons, feed_cons, ih, List.append_assoc]

/-- Once it stopped it makes nothing of the rest. -/
theorem feed_append_of_stopped {state : Option σ} {first : List α}
    (hstopped : (machine.feed state first).2 = none) (second : List α) :
    machine.feed state (first ++ second) = machine.feed state first := by
  rw [feed_append, hstopped, feed_none, List.append_nil, ← hstopped]

/-! ### Cutting a stream -/

/-- The transducer that takes a piece of the stream at a time. -/
def chunked {κ : Type*} (symbols : κ → List α) : Transducer σ κ ε where
  step state chunk := machine.feed (some state) (symbols chunk)

/-- Where the stream is cut does not matter. -/
theorem feed_chunked {κ : Type*} (symbols : κ → List α) (state : Option σ) (chunks : List κ) :
    (machine.chunked symbols).feed state chunks = machine.feed state (chunks.flatMap symbols) := by
  induction chunks generalizing state with
  | nil => simp
  | cons chunk rest ih =>
    cases state with
    | none => simp
    | some state =>
      rw [feed_cons, List.flatMap_cons, feed_append, ih]
      rfl

/-! ### Two transducers along one stream -/

/-- Two transducers that are alike after a list of symbols and take the next one alike. -/
theorem feed_snoc_eq {first second : Transducer σ α ε} {state : Option σ} {before : List α}
    {symbol : α} (hbefore : first.feed state before = second.feed state before)
    (hstep : ∀ middle, (second.feed state before).2 = some middle →
      first.step middle symbol = second.step middle symbol) :
    first.feed state (before ++ [symbol]) = second.feed state (before ++ [symbol]) := by
  rw [feed_append, feed_append, hbefore]
  cases hmiddle : (second.feed state before).2 with
  | none => simp
  | some middle => rw [feed_singleton, feed_singleton, hstep middle hmiddle]

/-- Two transducers are alike after every beginning of a stream exactly when they take each of its
symbols alike, in the state that the symbols before it lead to. -/
theorem feed_eq_iff (first second : Transducer σ α ε) (state : Option σ) (symbols : List α) :
    (∀ beginning, beginning <+: symbols →
        first.feed state beginning = second.feed state beginning) ↔
      ∀ before symbol, before ++ [symbol] <+: symbols →
        ∀ middle, (second.feed state before).2 = some middle →
          first.step middle symbol = second.step middle symbol := by
  constructor
  · intro halike before symbol hprefix middle hmiddle
    have hbefore := halike before ((List.prefix_append before [symbol]).trans hprefix)
    have hboth := halike (before ++ [symbol]) hprefix
    rw [feed_append, feed_append, hbefore, hmiddle, feed_singleton, feed_singleton,
      Prod.mk.injEq, List.append_cancel_left_eq] at hboth
    exact Prod.ext hboth.1 hboth.2
  · intro hsteps beginning
    induction beginning using List.reverseRecOn with
    | nil =>
      intro _
      rw [feed_nil, feed_nil]
    | append_singleton before symbol ih =>
      intro hprefix
      exact feed_snoc_eq (ih ((List.prefix_append before [symbol]).trans hprefix))
        (hsteps before symbol hprefix)

end Transducer

end Libhoth.Foundation.StreamTransducer
