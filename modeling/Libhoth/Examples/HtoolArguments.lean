import Mathlib.Data.List.Basic
import Mathlib.Tactic.Common
import Mathlib.Tactic.SplitIfs

/-!
# How the tool binds its arguments

`fill_cmd_invocation` of `htool_cmd.c` with the lookups `find_flag` and `find_positional_param` in
the parameter table of a command. A text is the list of its bytes in front of the terminator, and a
table the list of its entries in front of `HTOOL_PARAM_END`.

`Reads` says how a command line falls into flags with their values and positional arguments, and
`BoundAsRead` how these should be bound to the parameters. The index of the next positional
parameter never moves, so every positional argument goes to the first one. `fillsAsRead_iff` says
that the arguments are bound as they should be exactly when there is at most one positional
argument, or no positional parameter.
-/

set_option autoImplicit false
set_option relaxedAutoImplicit false

namespace Libhoth.Examples.HtoolArguments

/-! ### Parameters -/

/-- `enum htool_param_type`, without the end of a table. -/
inductive HtoolParamType
  | flagValue
  | flagBool
  | positional
  deriving DecidableEq

/-- `struct htool_param`, as far as arguments are bound by it. -/
structure HtoolParam where
  type : HtoolParamType
  ch : UInt8
  name : List UInt8

/-- A parameter of a table and its index. -/
structure ParamInfo where
  param : HtoolParam
  index : ℕ

/-- The text `true`. -/
def trueText : List UInt8 := [0x74, 0x72, 0x75, 0x65]

/-- The text `false`. -/
def falseText : List UInt8 := [0x66, 0x61, 0x6C, 0x73, 0x65]

/-- The text `--help`. -/
def helpText : List UInt8 := [0x2D, 0x2D, 0x68, 0x65, 0x6C, 0x70]

/-- The first entry of a table, from an index on, that is accepted with a value. -/
def firstParam {α : Type} (accept : HtoolParam → Option α) :
    List HtoolParam → ℕ → Option (ParamInfo × α)
  | [], _ => none
  | param :: params, index =>
    match accept param with
    | some value => some (⟨param, index⟩, value)
    | none => firstParam accept params (index + 1)

/-- The loop of `find_positional_param`, from an index on and with the positional parameters seen
before it. -/
def findPositionalFrom (wanted : ℕ) : List HtoolParam → ℕ → ℕ → Option ParamInfo
  | [], _, _ => none
  | param :: params, index, seen =>
    if param.type = .positional then
      if seen = wanted then some ⟨param, index⟩
      else findPositionalFrom wanted params (index + 1) (seen + 1)
    else findPositionalFrom wanted params (index + 1) seen

/-- `find_positional_param`. -/
def findPositionalParam (params : List HtoolParam) (index : ℕ) : Option ParamInfo :=
  findPositionalFrom index params 0 0

/-- `flag_name_equals`: the names are equal up to their ends or the first `=`. -/
def flagNameEquals : List UInt8 → List UInt8 → Bool
  | [], b => b.head?.all (· = 0x3D)
  | char :: a, b =>
    if char = 0x3D then b.head?.all (· = 0x3D)
    else
      match b with
      | [] => false
      | other :: b => if other = 0x3D then false else if char ≠ other then false
        else flagNameEquals a b

/-- The text behind the first `=`, if there is one. -/
def valueBehind (flagName : List UInt8) : Option (List UInt8) :=
  match flagName.dropWhile (· ≠ 0x3D) with
  | [] => none
  | _ :: value => some value

/-- What `find_flag` stores for a flag and a value that may be missing. -/
def flagDefault (type : HtoolParamType) (value : Option (List UInt8)) : Option (List UInt8) :=
  if value = none ∧ type = .flagBool then some trueText else value

/-- The entry that a short flag names, with the value behind its letter. -/
def acceptShortFlag (letter : UInt8) (value : List UInt8) (param : HtoolParam) :
    Option (Option (List UInt8)) :=
  if (param.type = .flagValue ∨ param.type = .flagBool) ∧ param.ch = letter then
    some (flagDefault param.type (if value = [] then none else some value))
  else none

/-- The entry that a long flag names, with its value. -/
def acceptLongFlag (flagName : List UInt8) (param : HtoolParam) : Option (Option (List UInt8)) :=
  if flagName.take 2 = [0x6E, 0x6F] ∧ param.type = .flagBool ∧ param.name = flagName.drop 2 then
    some (some falseText)
  else if (param.type = .flagValue ∨ param.type = .flagBool) ∧
      flagNameEquals param.name flagName then
    some (flagDefault param.type (valueBehind flagName))
  else none

/-- `find_flag`: the parameter of a flag and its value, `none` for a value that is missing. A text
with one dash that names no short flag is looked up as a long one, from its third character on. -/
def findFlag (params : List HtoolParam) :
    List UInt8 → Option (ParamInfo × Option (List UInt8))
  | [0x2D] => none
  | 0x2D :: letter :: flagName =>
    if letter ≠ 0x2D then
      match firstParam (acceptShortFlag letter flagName) params 0 with
      | some found => some found
      | none => firstParam (acceptLongFlag flagName) params 0
    else firstParam (acceptLongFlag flagName) params 0
  | _ => none

/-! ### Filling an invocation -/

/-- The arguments of an invocation, in the order of the parameters; `none` is a null pointer. -/
abbrev InvocationArgs := List (Option (List UInt8))

/-- The text is a flag. -/
def IsFlag (arg : List UInt8) : Prop :=
  arg.head? = some 0x2D

instance (arg : List UInt8) : Decidable (IsFlag arg) :=
  inferInstanceAs (Decidable (_ = _))

/-- The loop of `fill_cmd_invocation` over the arguments. -/
def fillLoop (params : List HtoolParam) (positionalParamIndex : ℕ) :
    List (List UInt8) → InvocationArgs → Option InvocationArgs
  | [], args => some args
  | arg :: argv, args =>
    if IsFlag arg then
      if arg = helpText then none
      else
        match findFlag params arg with
        | none => none
        | some (info, value) =>
          if info.param.type = .flagValue ∧ value = none then
            match argv with
            | [] => none
            | next :: argv =>
              if IsFlag next then none
              else fillLoop params positionalParamIndex argv (args.set info.index (some next))
          else fillLoop params positionalParamIndex argv (args.set info.index value)
    else
      match findPositionalParam params positionalParamIndex with
      | none => none
      | some info => fillLoop params positionalParamIndex argv (args.set info.index (some arg))

/-- `fill_cmd_invocation`: the arguments, or `none` for a failure. -/
def fillCmdInvocation (params : List HtoolParam) (argv : List (List UInt8)) :
    Option InvocationArgs :=
  fillLoop params 0 argv (List.replicate params.length none)

/-! ### What a command line says -/

/-- One piece of a command line: a flag of the table with its value, or a positional argument. -/
inductive CommandItem
  | flag (index : ℕ) (value : List UInt8)
  | positional (value : List UInt8)

/-- How a command line falls into pieces. A flag with a value that is missing takes the next word,
which is no flag. -/
inductive Reads (params : List HtoolParam) : List (List UInt8) → List CommandItem → Prop
  | nil : Reads params [] []
  | positional {arg : List UInt8} {argv : List (List UInt8)} {items : List CommandItem}
    (harg : ¬IsFlag arg) (hrest : Reads params argv items) :
    Reads params (arg :: argv) (.positional arg :: items)
  | flag {arg value : List UInt8} {argv : List (List UInt8)} {items : List CommandItem}
    {info : ParamInfo} (harg : IsFlag arg) (hhelp : arg ≠ helpText)
    (hfound : findFlag params arg = some (info, some value)) (hrest : Reads params argv items) :
    Reads params (arg :: argv) (.flag info.index value :: items)
  | flagValue {arg next : List UInt8} {argv : List (List UInt8)} {items : List CommandItem}
    {info : ParamInfo} (harg : IsFlag arg) (hhelp : arg ≠ helpText)
    (hfound : findFlag params arg = some (info, none)) (hnext : ¬IsFlag next)
    (hrest : Reads params argv items) :
    Reads params (arg :: next :: argv) (.flag info.index next :: items)

/-- The positional arguments, in order. -/
def positionals (items : List CommandItem) : List (List UInt8) :=
  items.filterMap fun item ↦
    match item with
    | .positional value => some value
    | .flag _ _ => none

/-- The values of the flag at an index of the table, in order. -/
def flagValues (index : ℕ) (items : List CommandItem) : List (List UInt8) :=
  items.filterMap fun item ↦
    match item with
    | .flag other value => if other = index then some value else none
    | .positional _ => none

/-- The positional parameters of a table. -/
def positionalParams (params : List HtoolParam) : List HtoolParam :=
  params.filter (·.type = .positional)

/-- The entry at an index is the positional parameter of a rank. -/
def IsPositionalParam (params : List HtoolParam) (rank index : ℕ) : Prop :=
  ∃ param, params[index]? = some param ∧ param.type = .positional ∧
    (positionalParams (params.take index)).length = rank

/-- The pieces of a command line are bound as they should be: each positional argument to the
positional parameter of its rank, each flag to its last value, and nothing else. -/
structure BoundAsRead (params : List HtoolParam) (items : List CommandItem)
    (args : InvocationArgs) : Prop where
  length : args.length = params.length
  positional : ∀ (rank : ℕ) (value : List UInt8), (positionals items)[rank]? = some value →
    ∃ index, IsPositionalParam params rank index ∧ args[index]? = some (some value)
  unbound : ∀ rank index, IsPositionalParam params rank index →
    (positionals items).length ≤ rank → args[index]? = some none
  flags : ∀ (index : ℕ) (param : HtoolParam), params[index]? = some param →
    param.type ≠ .positional → args[index]? = some (flagValues index items).getLast?

/-- A command line is filled as it reads: when it is filled, its pieces are bound as they should be,
and it is not filled when it has more positional arguments than the table has parameters. -/
def FillsAsRead (params : List HtoolParam) (argv : List (List UInt8)) : Prop :=
  (∀ args, fillCmdInvocation params argv = some args →
    ∃ items, Reads params argv items ∧ BoundAsRead params items args) ∧
  ∀ items, Reads params argv items → (positionalParams params).length < (positionals items).length →
    fillCmdInvocation params argv = none

/-! ### What the lookups find -/

/-- The entry that `firstParam` finds is in the table, and accepted. -/
theorem firstParam_spec {α : Type} {accept : HtoolParam → Option α} {params : List HtoolParam}
    {start : ℕ} {info : ParamInfo} {value : α}
    (hfound : firstParam accept params start = some (info, value)) :
    ∃ place, info.index = start + place ∧ params[place]? = some info.param ∧
      accept info.param = some value := by
  induction params generalizing start with
  | nil => exact absurd hfound.symm (Option.some_ne_none _)
  | cons param params ih =>
    unfold firstParam at hfound
    cases haccept : accept param with
    | some accepted =>
      rw [haccept] at hfound
      obtain ⟨rfl, rfl⟩ := Prod.mk.inj (Option.some.inj hfound)
      exact ⟨0, rfl, rfl, haccept⟩
    | none =>
      rw [haccept] at hfound
      obtain ⟨place, hindex, hplace, haccepted⟩ := ih hfound
      exact ⟨place + 1, by omega, hplace, haccepted⟩

/-- A short flag names no positional parameter, and lacks a value only when it needs one. -/
theorem acceptShortFlag_spec {letter : UInt8} {text : List UInt8} {param : HtoolParam}
    {value : Option (List UInt8)} (haccept : acceptShortFlag letter text param = some value) :
    param.type ≠ .positional ∧ (value = none → param.type = .flagValue) := by
  rw [acceptShortFlag] at haccept
  cases htype : param.type <;> simp [htype, flagDefault] at haccept ⊢
  rintro rfl
  split_ifs at haccept <;> simp_all

/-- A long flag names no positional parameter, and lacks a value only when it needs one. -/
theorem acceptLongFlag_spec {flagName : List UInt8} {param : HtoolParam}
    {value : Option (List UInt8)} (haccept : acceptLongFlag flagName param = some value) :
    param.type ≠ .positional ∧ (value = none → param.type = .flagValue) := by
  rw [acceptLongFlag] at haccept
  cases htype : param.type <;> simp [htype, flagDefault] at haccept ⊢
  rintro rfl
  split_ifs at haccept <;> simp_all

/-- A flag is an entry of the table that is not positional, and lacks a value only when it needs
one. -/
theorem findFlag_spec {params : List HtoolParam} {arg : List UInt8} {info : ParamInfo}
    {value : Option (List UInt8)} (hfound : findFlag params arg = some (info, value)) :
    params[info.index]? = some info.param ∧ info.param.type ≠ .positional ∧
      (value = none → info.param.type = .flagValue) := by
  have hentry {accept : HtoolParam → Option (Option (List UInt8))}
      (hflags : ∀ param value, accept param = some value →
        param.type ≠ .positional ∧ (value = none → param.type = .flagValue))
      (hfirst : firstParam accept params 0 = some (info, value)) :
      params[info.index]? = some info.param ∧ info.param.type ≠ .positional ∧
        (value = none → info.param.type = .flagValue) := by
    obtain ⟨place, hindex, hplace, haccepted⟩ := firstParam_spec hfirst
    rw [Nat.zero_add] at hindex
    exact ⟨hindex ▸ hplace, hflags _ _ haccepted⟩
  unfold findFlag at hfound
  split at hfound
  · exact absurd hfound.symm (Option.some_ne_none _)
  · rename_i letter flagName
    split_ifs at hfound with hletter
    · cases hfirst : firstParam (acceptShortFlag letter flagName) params 0 with
      | some found =>
        rw [hfirst] at hfound
        obtain rfl := Option.some.inj hfound
        exact hentry (fun _ _ ↦ acceptShortFlag_spec) hfirst
      | none =>
        rw [hfirst] at hfound
        exact hentry (fun _ _ ↦ acceptLongFlag_spec) hfound
    · exact hentry (fun _ _ ↦ acceptLongFlag_spec) hfound
  · exact absurd hfound.symm (Option.some_ne_none _)

/-- The entry that the loop of `find_positional_param` finds has the wanted rank. -/
theorem findPositionalFrom_some {wanted : ℕ} {params : List HtoolParam} {start seen : ℕ}
    {info : ParamInfo} (hfound : findPositionalFrom wanted params start seen = some info) :
    ∃ place, info.index = start + place ∧ params[place]? = some info.param ∧
      info.param.type = .positional ∧
        seen + (positionalParams (params.take place)).length = wanted := by
  induction params generalizing start seen with
  | nil => exact absurd hfound.symm (Option.some_ne_none _)
  | cons param params ih =>
    unfold findPositionalFrom at hfound
    split_ifs at hfound with htype hseen
    · obtain rfl := Option.some.inj hfound
      exact ⟨0, rfl, rfl, htype, hseen⟩
    · obtain ⟨place, hindex, hplace, hpositional, hrank⟩ := ih hfound
      refine ⟨place + 1, by omega, hplace, hpositional, ?_⟩
      rw [List.take_succ_cons, positionalParams, List.filter_cons_of_pos (by simpa using htype),
        List.length_cons]
      rw [positionalParams] at hrank
      omega
    · obtain ⟨place, hindex, hplace, hpositional, hrank⟩ := ih hfound
      refine ⟨place + 1, by omega, hplace, hpositional, ?_⟩
      rwa [List.take_succ_cons, positionalParams, List.filter_cons_of_neg (by simpa using htype)]

/-- The loop finds nothing only when the table has too few positional parameters. -/
theorem findPositionalFrom_none {wanted : ℕ} {params : List HtoolParam} {start seen : ℕ}
    (hseen : seen ≤ wanted) (hnone : findPositionalFrom wanted params start seen = none) :
    seen + (positionalParams params).length ≤ wanted := by
  induction params generalizing start seen with
  | nil => exact hseen
  | cons param params ih =>
    unfold findPositionalFrom at hnone
    split_ifs at hnone with htype hfound
    · have hrest := ih (by omega) hnone
      rw [positionalParams, List.filter_cons_of_pos (by simpa using htype), List.length_cons]
      rw [positionalParams] at hrest
      omega
    · have hrest := ih hseen hnone
      rwa [positionalParams, List.filter_cons_of_neg (by simpa using htype)]

/-- The parameter that every positional argument goes to is the first positional one. -/
theorem findPositionalParam_zero {params : List HtoolParam} {info : ParamInfo}
    (hfound : findPositionalParam params 0 = some info) :
    IsPositionalParam params 0 info.index := by
  obtain ⟨place, hindex, hplace, htype, hrank⟩ := findPositionalFrom_some hfound
  rw [Nat.zero_add] at hindex hrank
  subst hindex
  exact ⟨info.param, hplace, htype, hrank⟩

theorem findPositionalParam_zero_eq_none {params : List HtoolParam}
    (hnone : findPositionalParam params 0 = none) : positionalParams params = [] := by
  have hlength := findPositionalFrom_none (Nat.le_refl 0) hnone
  exact List.length_eq_zero_iff.mp (by omega)

/-! ### What the loop binds -/

/-- Bind the pieces of a command line, each positional argument to the first positional
parameter. -/
def bindItems (params : List HtoolParam) :
    List CommandItem → InvocationArgs → Option InvocationArgs
  | [], args => some args
  | .flag index value :: items, args => bindItems params items (args.set index (some value))
  | .positional value :: items, args =>
    match findPositionalParam params 0 with
    | none => none
    | some info => bindItems params items (args.set info.index (some value))

/-- The loop binds the pieces that the command line falls into. -/
theorem fillLoop_of_reads {params : List HtoolParam} {argv : List (List UInt8)}
    {items : List CommandItem} (hreads : Reads params argv items) (args : InvocationArgs) :
    fillLoop params 0 argv args = bindItems params items args := by
  induction hreads generalizing args with
  | nil => rfl
  | positional harg hrest ih =>
    rw [fillLoop.eq_def, bindItems]
    dsimp only
    rw [if_neg harg]
    cases findPositionalParam params 0 with
    | none => rfl
    | some info => exact ih _
  | flag harg hhelp hfound hrest ih =>
    rw [fillLoop.eq_def, bindItems]
    dsimp only
    rw [if_pos harg, if_neg hhelp, hfound]
    dsimp only
    rw [if_neg fun hmissing ↦ Option.some_ne_none _ hmissing.2]
    exact ih _
  | @flagValue arg next argv items info harg hhelp hfound hnext hrest ih =>
    rw [fillLoop.eq_def, bindItems]
    dsimp only
    rw [if_pos harg, if_neg hhelp, hfound]
    dsimp only
    rw [if_pos ⟨(findFlag_spec hfound).2.2 rfl, rfl⟩, if_neg hnext]
    exact ih _

/-- A command line that is filled falls into pieces. -/
theorem exists_reads_of_fillLoop {params : List HtoolParam} {argv : List (List UInt8)}
    {args result : InvocationArgs} (hfill : fillLoop params 0 argv args = some result) :
    ∃ items, Reads params argv items := by
  fun_induction fillLoop params 0 argv args with
  | case1 args => exact ⟨[], .nil⟩
  | case2 | case3 | case4 | case5 | case8 => exact absurd hfill.symm (Option.some_ne_none _)
  | case6 arg args harg hhelp info value hfound hmissing next argv hnext ih =>
    obtain ⟨items, hrest⟩ := ih hfill
    obtain ⟨-, rfl⟩ := hmissing
    exact ⟨_, .flagValue harg hhelp hfound hnext hrest⟩
  | case7 arg argv args harg hhelp info value hfound hpresent ih =>
    obtain ⟨items, hrest⟩ := ih hfill
    cases value with
    | none => exact absurd ⟨(findFlag_spec hfound).2.2 rfl, rfl⟩ hpresent
    | some value => exact ⟨_, .flag harg hhelp hfound hrest⟩
  | case9 arg argv args harg info hfound ih =>
    obtain ⟨items, hrest⟩ := ih hfill
    exact ⟨_, .positional harg hrest⟩

/-- A command line falls into pieces in one way. -/
theorem Reads.unique {params : List HtoolParam} {argv : List (List UInt8)}
    {first second : List CommandItem} (hfirst : Reads params argv first)
    (hsecond : Reads params argv second) : first = second := by
  induction hfirst generalizing second with
  | nil =>
    cases hsecond
    rfl
  | positional harg hrest ih =>
    cases hsecond with
    | positional _ hother => rw [ih hother]
    | flag hflag => exact absurd hflag harg
    | flagValue hflag => exact absurd hflag harg
  | flag harg hhelp hfound hrest ih =>
    cases hsecond with
    | positional hnone => exact absurd harg hnone
    | flag _ _ hother hmore =>
      rw [hfound] at hother
      obtain ⟨rfl, hvalue⟩ := Prod.mk.inj (Option.some.inj hother)
      rw [Option.some.inj hvalue, ih hmore]
    | flagValue _ _ hother =>
      rw [hfound] at hother
      exact absurd (Prod.mk.inj (Option.some.inj hother)).2 (Option.some_ne_none _)
  | flagValue harg hhelp hfound hnext hrest ih =>
    cases hsecond with
    | positional hnone => exact absurd harg hnone
    | flag _ _ hother =>
      rw [hfound] at hother
      exact absurd (Prod.mk.inj (Option.some.inj hother)).2.symm (Option.some_ne_none _)
    | flagValue _ _ hother _ hmore =>
      rw [hfound] at hother
      obtain ⟨rfl, -⟩ := Prod.mk.inj (Option.some.inj hother)
      rw [ih hmore]

/-- A flag of a command line is an entry of the table that is not positional. -/
theorem Reads.flag_param {params : List HtoolParam} {argv : List (List UInt8)}
    {items : List CommandItem} (hreads : Reads params argv items) {index : ℕ} {value : List UInt8}
    (hitem : .flag index value ∈ items) :
    ∃ param, params[index]? = some param ∧ param.type ≠ .positional := by
  induction hreads with
  | nil => exact absurd hitem List.not_mem_nil
  | positional harg hrest ih =>
    rcases List.mem_cons.mp hitem with hsame | hmore
    · cases hsame
    · exact ih hmore
  | flag harg hhelp hfound hrest ih =>
    rcases List.mem_cons.mp hitem with hsame | hmore
    · cases hsame
      exact ⟨_, (findFlag_spec hfound).1, (findFlag_spec hfound).2.1⟩
    · exact ih hmore
  | flagValue harg hhelp hfound hnext hrest ih =>
    rcases List.mem_cons.mp hitem with hsame | hmore
    · cases hsame
      exact ⟨_, (findFlag_spec hfound).1, (findFlag_spec hfound).2.1⟩
    · exact ih hmore

/-- The values that pieces give the parameter at an index, when positional arguments go to a given
one. -/
def boundValues (first index : ℕ) (items : List CommandItem) : List (List UInt8) :=
  items.filterMap fun item ↦
    match item with
    | .flag other value => if other = index then some value else none
    | .positional value => if first = index then some value else none

/-- A value that is stored before others is the last one when there are no others. -/
theorem map_set_or (args : InvocationArgs) (place index : ℕ) (value : List UInt8)
    (values : List (List UInt8)) :
    (args.set place (some value))[index]?.map (fun old ↦ values.getLast?.or old) =
      args[index]?.map fun old ↦
        (if place = index then value :: values else values).getLast?.or old := by
  rw [List.getElem?_set]
  split_ifs with hplace hinside
  · subst hplace
    rw [List.getElem?_eq_getElem hinside, List.getLast?_cons]
    cases values.getLast? <;> rfl
  · subst hplace
    rw [List.getElem?_eq_none (Nat.not_lt.mp hinside)]
    rfl
  · rfl

/-- Binding keeps the number of arguments, and leaves each with its last value. -/
theorem bindItems_getElem? {params : List HtoolParam} {first : ℕ}
    (hfirst : ∀ info, findPositionalParam params 0 = some info → info.index = first)
    {items : List CommandItem} {args result : InvocationArgs}
    (hbind : bindItems params items args = some result) :
    result.length = args.length ∧ ∀ index, result[index]? =
      args[index]?.map fun old ↦ (boundValues first index items).getLast?.or old := by
  induction items generalizing args with
  | nil =>
    obtain rfl := Option.some.inj hbind
    exact ⟨rfl, fun index ↦ by cases args[index]? <;> rfl⟩
  | cons item items ih =>
    have hstep {place : ℕ} {value : List UInt8}
        (hvalues : ∀ index, boundValues first index (item :: items) =
          if place = index then value :: boundValues first index items
          else boundValues first index items)
        (hrest : bindItems params items (args.set place (some value)) = some result) :
        result.length = args.length ∧ ∀ index, result[index]? =
          args[index]?.map fun old ↦ (boundValues first index (item :: items)).getLast?.or old := by
      obtain ⟨hlength, hvalue⟩ := ih hrest
      refine ⟨hlength.trans List.length_set, fun index ↦ ?_⟩
      rw [hvalue index, map_set_or, hvalues index]
    cases item with
    | flag place value =>
      refine hstep (fun index ↦ ?_) hbind
      by_cases hplace : place = index <;> simp [boundValues, hplace]
    | positional value =>
      unfold bindItems at hbind
      cases hfound : findPositionalParam params 0 with
      | none =>
        rw [hfound] at hbind
        exact absurd hbind.symm (Option.some_ne_none _)
      | some info =>
        rw [hfound] at hbind
        refine hstep (fun index ↦ ?_) hbind
        rw [hfirst info hfound]
        by_cases hplace : first = index <;> simp [boundValues, hplace]

/-- Without a positional parameter, only a line without positional arguments is bound. -/
theorem positionals_eq_nil_of_bindItems {params : List HtoolParam}
    (hnone : findPositionalParam params 0 = none) {items : List CommandItem}
    {args result : InvocationArgs} (hbind : bindItems params items args = some result) :
    positionals items = [] := by
  induction items generalizing args with
  | nil => rfl
  | cons item items ih =>
    cases item with
    | flag place value => exact ih hbind
    | positional value =>
      unfold bindItems at hbind
      rw [hnone] at hbind
      exact absurd hbind.symm (Option.some_ne_none _)

/-- With a positional parameter, every line is bound. -/
theorem exists_bindItems {params : List HtoolParam} {info : ParamInfo}
    (hfound : findPositionalParam params 0 = some info) (items : List CommandItem)
    (args : InvocationArgs) : ∃ result, bindItems params items args = some result := by
  induction items generalizing args with
  | nil => exact ⟨args, rfl⟩
  | cons item items ih =>
    cases item with
    | flag place value => exact ih _
    | positional value =>
      unfold bindItems
      rw [hfound]
      exact ih _

/-- At the index of a flag, the values are those of the flag. -/
theorem boundValues_flag {first index : ℕ} (hindex : first ≠ index) (items : List CommandItem) :
    boundValues first index items = flagValues index items := by
  unfold boundValues flagValues
  congr 1
  funext item
  cases item with
  | flag place value => rfl
  | positional value => exact if_neg hindex

/-- At the index of a positional parameter there are no values of flags. -/
theorem flagValues_positional {params : List HtoolParam} {argv : List (List UInt8)}
    {items : List CommandItem} (hreads : Reads params argv items) {rank index : ℕ}
    (hindex : IsPositionalParam params rank index) : flagValues index items = [] := by
  rw [flagValues, List.filterMap_eq_nil_iff]
  intro item hitem
  cases item with
  | positional value => rfl
  | flag place value =>
    obtain ⟨param, hparam, htype⟩ := hreads.flag_param hitem
    obtain ⟨other, hother, hpositional, -⟩ := hindex
    refine if_neg fun hplace ↦ htype ?_
    rw [hplace, hother] at hparam
    rwa [← Option.some.inj hparam]

/-- At the index of the first positional parameter, the values are the positional arguments. -/
theorem boundValues_first {params : List HtoolParam} {argv : List (List UInt8)}
    {items : List CommandItem} (hreads : Reads params argv items) {rank first : ℕ}
    (hfirst : IsPositionalParam params rank first) :
    boundValues first first items = positionals items := by
  unfold boundValues positionals
  refine List.filterMap_congr fun item hitem ↦ ?_
  cases item with
  | positional value => exact if_pos rfl
  | flag place value =>
    obtain ⟨param, hparam, htype⟩ := hreads.flag_param hitem
    obtain ⟨other, hother, hpositional, -⟩ := hfirst
    refine if_neg fun hplace ↦ htype ?_
    rw [hplace, hother] at hparam
    rwa [← Option.some.inj hparam]

/-! ### The lines that are filled as they read -/

/-- What a filled line leaves at each index of the table. -/
theorem fillCmdInvocation_getElem? {params : List HtoolParam} {argv : List (List UInt8)}
    {items : List CommandItem} (hreads : Reads params argv items) {args : InvocationArgs}
    (hfill : fillCmdInvocation params argv = some args) {first : ℕ}
    (hfirst : ∀ info, findPositionalParam params 0 = some info → info.index = first) :
    args.length = params.length ∧ ∀ index < params.length,
      args[index]? = some (boundValues first index items).getLast? := by
  rw [fillCmdInvocation, fillLoop_of_reads hreads] at hfill
  obtain ⟨hlength, hvalue⟩ := bindItems_getElem? hfirst hfill
  refine ⟨hlength.trans List.length_replicate, fun index hindex ↦ ?_⟩
  rw [hvalue index, List.getElem?_replicate, if_pos hindex]
  simp

theorem IsPositionalParam.lt {params : List HtoolParam} {rank index : ℕ}
    (hindex : IsPositionalParam params rank index) : index < params.length := by
  obtain ⟨param, hparam, -⟩ := hindex
  exact (List.getElem?_eq_some_iff.mp hparam).1

/-- Parameters of different ranks are different entries. -/
theorem IsPositionalParam.ne {params : List HtoolParam} {rank other index place : ℕ}
    (hindex : IsPositionalParam params rank index) (hplace : IsPositionalParam params other place)
    (hrank : rank ≠ other) : index ≠ place := by
  rintro rfl
  obtain ⟨_, -, -, hfirst⟩ := hindex
  obtain ⟨_, -, -, hsecond⟩ := hplace
  exact hrank (hfirst.symm.trans hsecond)

/-- A line with a second positional argument, for a table with a positional parameter, is filled,
and the second argument is bound to no parameter of its rank. -/
theorem not_fillsAsRead_of_two {params : List HtoolParam} {argv : List (List UInt8)}
    {items : List CommandItem} (hreads : Reads params argv items)
    (htwo : 1 < (positionals items).length) (hparams : positionalParams params ≠ []) :
    ¬FillsAsRead params argv := by
  rintro ⟨hbound, -⟩
  cases hfound : findPositionalParam params 0 with
  | none => exact hparams (findPositionalParam_zero_eq_none hfound)
  | some info =>
    have hinfo := findPositionalParam_zero hfound
    obtain ⟨args, hargs⟩ := exists_bindItems hfound items (List.replicate params.length none)
    have hfill : fillCmdInvocation params argv = some args := by
      rw [fillCmdInvocation, fillLoop_of_reads hreads, hargs]
    obtain ⟨other, hother, hitems⟩ := hbound args hfill
    obtain rfl := hreads.unique hother
    obtain ⟨index, hindex, hvalue⟩ := hitems.positional 1 _ (List.getElem?_eq_getElem htwo)
    have hvalues := (fillCmdInvocation_getElem? hreads hfill fun found hsame ↦
      congrArg ParamInfo.index (Option.some.inj (hsame.symm.trans hfound))).2 index hindex.lt
    rw [boundValues_flag (hinfo.ne hindex (by decide)), flagValues_positional hreads hindex,
      hvalue] at hvalues
    exact absurd (Option.some.inj hvalues) (Option.some_ne_none _)

/-- A table without positional parameters has none of any rank. -/
theorem not_isPositionalParam {params : List HtoolParam} (hnone : positionalParams params = [])
    {rank index : ℕ} : ¬IsPositionalParam params rank index := by
  rintro ⟨param, hparam, htype, -⟩
  have hmem : param ∈ positionalParams params :=
    List.mem_filter.mpr ⟨List.mem_of_getElem? hparam, by simpa using htype⟩
  rw [hnone] at hmem
  exact absurd hmem List.not_mem_nil

/-- A flag that is not at a given index is bound to its last value. -/
theorem bound_flag {params : List HtoolParam} {argv : List (List UInt8)}
    {items : List CommandItem} (hreads : Reads params argv items) {args : InvocationArgs}
    (hfill : fillCmdInvocation params argv = some args) {first : ℕ}
    (hfirst : ∀ info, findPositionalParam params 0 = some info → info.index = first) {index : ℕ}
    (hindex : index < params.length) (hother : first ≠ index) :
    args[index]? = some (flagValues index items).getLast? := by
  rw [(fillCmdInvocation_getElem? hreads hfill hfirst).2 index hindex, boundValues_flag hother]

/-- For a table without a positional parameter, a line that is filled is bound as it reads. -/
theorem boundAsRead_of_none {params : List HtoolParam} {argv : List (List UInt8)}
    {items : List CommandItem} (hreads : Reads params argv items)
    (hnone : findPositionalParam params 0 = none) {args : InvocationArgs}
    (hfill : fillCmdInvocation params argv = some args) : BoundAsRead params items args := by
  have hfirst : ∀ info, findPositionalParam params 0 = some info → info.index = params.length :=
    fun info hfound ↦ absurd (hnone.symm.trans hfound).symm (Option.some_ne_none _)
  have hpositionals : positionals items = [] := by
    rw [fillCmdInvocation, fillLoop_of_reads hreads] at hfill
    exact positionals_eq_nil_of_bindItems hnone hfill
  refine ⟨(fillCmdInvocation_getElem? hreads hfill hfirst).1, fun rank value hvalue ↦ ?_,
    fun rank index hindex ↦ absurd hindex
      (not_isPositionalParam (findPositionalParam_zero_eq_none hnone)),
    fun index param hparam _ ↦ ?_⟩
  · rw [hpositionals] at hvalue
    exact absurd hvalue.symm (Option.some_ne_none _)
  · have hindex : index < params.length := (List.getElem?_eq_some_iff.mp hparam).1
    exact bound_flag hreads hfill hfirst hindex (Nat.ne_of_gt hindex)

/-- For a table with a positional parameter, a line with at most one positional argument is bound as
it reads. -/
theorem boundAsRead_of_one {params : List HtoolParam} {argv : List (List UInt8)}
    {items : List CommandItem} (hreads : Reads params argv items) {info : ParamInfo}
    (hfound : findPositionalParam params 0 = some info) (hone : (positionals items).length ≤ 1)
    {args : InvocationArgs} (hfill : fillCmdInvocation params argv = some args) :
    BoundAsRead params items args := by
  have hfirst : ∀ other, findPositionalParam params 0 = some other → other.index = info.index :=
    fun other hother ↦ congrArg ParamInfo.index (Option.some.inj (hother.symm.trans hfound))
  have hinfo := findPositionalParam_zero hfound
  obtain ⟨hlength, hvalues⟩ := fillCmdInvocation_getElem? hreads hfill hfirst
  have hpositional : args[info.index]? = some (positionals items).getLast? := by
    rw [hvalues info.index hinfo.lt, boundValues_first hreads hinfo]
  refine ⟨hlength, fun rank value hvalue ↦ ?_, fun rank index hindex hrank ↦ ?_,
    fun index param hparam htype ↦ ?_⟩
  · obtain ⟨hlast, hgiven⟩ := List.getElem?_eq_some_iff.mp hvalue
    obtain rfl : rank = 0 := by omega
    refine ⟨info.index, hinfo, ?_⟩
    rw [hpositional, List.getLast?_eq_getElem?, show (positionals items).length - 1 = 0 by omega,
      hvalue]
  · by_cases hsame : info.index = index
    · have hzero : rank = 0 := by
        by_contra hother
        exact hinfo.ne hindex (Ne.symm hother) hsame
      have hnone : positionals items = [] := List.length_eq_zero_iff.mp (by omega)
      rw [← hsame, hpositional, hnone]
      rfl
    · rw [bound_flag hreads hfill hfirst hindex.lt hsame, flagValues_positional hreads hindex]
      rfl
  · refine bound_flag hreads hfill hfirst (List.getElem?_eq_some_iff.mp hparam).1 ?_
    rintro rfl
    obtain ⟨other, hother, hpositionalType, -⟩ := hinfo
    exact htype (Option.some.inj (hother.symm.trans hparam) ▸ hpositionalType)

/-- A line with more positional arguments than a table with none or one of them is not filled. -/
theorem fillCmdInvocation_eq_none {params : List HtoolParam} {argv : List (List UInt8)}
    {items : List CommandItem} (hreads : Reads params argv items)
    (hone : (positionals items).length ≤ 1 ∨ positionalParams params = [])
    (hmore : (positionalParams params).length < (positionals items).length) :
    fillCmdInvocation params argv = none := by
  have hparams : positionalParams params = [] := by
    rcases hone with hone | hparams
    · exact List.length_eq_zero_iff.mp (by omega)
    · exact hparams
  have hfound : findPositionalParam params 0 = none := by
    cases hfound : findPositionalParam params 0 with
    | none => rfl
    | some info => exact absurd (findPositionalParam_zero hfound) (not_isPositionalParam hparams)
  cases hfill : fillCmdInvocation params argv with
  | none => rfl
  | some args =>
    rw [fillCmdInvocation, fillLoop_of_reads hreads] at hfill
    rw [positionals_eq_nil_of_bindItems hfound hfill] at hmore
    exact absurd hmore (Nat.not_lt_zero _)

/-- A command line is filled as it reads exactly when it has at most one positional argument, the
table has no positional parameter, or it does not fall into pieces. -/
theorem fillsAsRead_iff (params : List HtoolParam) (argv : List (List UInt8)) :
    FillsAsRead params argv ↔ ∀ items, Reads params argv items →
      (positionals items).length ≤ 1 ∨ positionalParams params = [] := by
  constructor
  · intro hfills items hreads
    by_contra hcondition
    obtain ⟨htwo, hparams⟩ := not_or.mp hcondition
    exact not_fillsAsRead_of_two hreads (Nat.not_le.mp htwo) hparams hfills
  · intro hcondition
    refine ⟨fun args hfill ↦ ?_, fun items hreads hmore ↦
      fillCmdInvocation_eq_none hreads (hcondition items hreads) hmore⟩
    obtain ⟨items, hreads⟩ := exists_reads_of_fillLoop hfill
    refine ⟨items, hreads, ?_⟩
    cases hfound : findPositionalParam params 0 with
    | none => exact boundAsRead_of_none hreads hfound hfill
    | some info =>
      refine boundAsRead_of_one hreads hfound ?_ hfill
      refine (hcondition items hreads).resolve_right fun hparams ↦ ?_
      exact not_isPositionalParam hparams (findPositionalParam_zero hfound)

/-- A table with two positional parameters, and the line `a b`: both arguments go to the first
parameter. -/
theorem not_fillsAsRead_two_positionals :
    ¬FillsAsRead [⟨.positional, 0, [0x78]⟩, ⟨.positional, 0, [0x79]⟩] [[0x61], [0x62]] :=
  not_fillsAsRead_of_two (.positional (by decide) (.positional (by decide) .nil)) (by decide)
    (by decide)

end Libhoth.Examples.HtoolArguments
