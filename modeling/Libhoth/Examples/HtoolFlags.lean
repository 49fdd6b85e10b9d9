import Libhoth.Examples.HtoolArguments
import Mathlib.Data.List.TakeWhile

/-!
# What a flag of the tool names

`find_flag` of `htool_cmd.c`, as `Examples.HtoolArguments` models it, looks an argument up in the
parameter table of a command. `Names` says which parameter an argument names, and with which value:
a flag by its short character or by its whole name, or a boolean flag by its name behind `no`.

A parameter that is found need not be named. An argument with one dash whose letter is no short flag
is looked up as a long flag from its third character on, and a name in the table that holds an
equals sign is compared only up to it. `Misnamed` describes the arguments for which either happens,
and `findsByName_iff` says that these are all.
-/

set_option autoImplicit false
set_option relaxedAutoImplicit false

namespace Libhoth.Examples.HtoolFlags

open HtoolArguments

/-- The dash in front of a flag. -/
abbrev dash : UInt8 := 0x2D

/-- The equals sign in front of a value. -/
abbrev equals : UInt8 := 0x3D

/-- The text `no` in front of a boolean flag. -/
def noText : List UInt8 := [0x6E, 0x6F]

/-! ### Names -/

/-- An argument names a parameter, with a value. -/
inductive Names (param : HtoolParam) : List UInt8 → Option (List UInt8) → Prop
  | short (letter : UInt8) (rest : List UInt8) (hletter : letter ≠ dash)
    (hflag : param.type ≠ .positional) (hch : param.ch = letter) :
    Names param (dash :: letter :: rest)
      (flagDefault param.type (if rest = [] then none else some rest))
  | long (text : List UInt8) (htext : equals ∉ text) (hflag : param.type ≠ .positional)
    (hname : param.name = text) :
    Names param (dash :: dash :: text) (flagDefault param.type none)
  | longValue (text value : List UInt8) (htext : equals ∉ text)
    (hflag : param.type ≠ .positional) (hname : param.name = text) :
    Names param (dash :: dash :: (text ++ equals :: value)) (some value)
  | negated (text : List UInt8) (htext : equals ∉ text) (hflag : param.type = .flagBool)
    (hname : text = noText ++ param.name) :
    Names param (dash :: dash :: text) (some falseText)

/-- Only a parameter that the argument names is found, and only with the value that it gives. -/
def FindsByName (params : List HtoolParam) (arg : List UInt8) : Prop :=
  ∀ info value, findFlag params arg = some (info, value) →
    params[info.index]? = some info.param ∧ Names info.param arg value

/-- A parameter answers to the text of a long flag: a boolean flag behind `no`, or a flag whose name
is the same up to the first equals sign. -/
def AnswersTo (text : List UInt8) (param : HtoolParam) : Prop :=
  param.type = .flagBool ∧ text = noText ++ param.name ∨
    param.type ≠ .positional ∧ flagNameEquals param.name text

/-- The arguments that find a parameter which they do not name: with one dash, no flag has the
letter and one answers to the text behind it; with two, the first flag that answers to the text has
an equals sign in its name. -/
def Misnamed (params : List HtoolParam) : List UInt8 → Prop
  | first :: letter :: text =>
    first = dash ∧
      if letter ≠ dash then
        (∀ param ∈ params, param.type ≠ .positional → param.ch ≠ letter) ∧
          ∃ param ∈ params, AnswersTo text param
      else
        ∃ earlier param later, params = earlier ++ param :: later ∧
          (∀ other ∈ earlier, ¬AnswersTo text other) ∧ AnswersTo text param ∧
            equals ∈ param.name
  | _ => False

/-! ### The comparison of names -/

/-- A name without an equals sign is compared as a whole. -/
theorem flagNameEquals_iff {name : List UInt8} (hname : equals ∉ name) (text : List UInt8) :
    flagNameEquals name text ↔ text = name ∨ ∃ value, text = name ++ equals :: value := by
  induction name generalizing text with
  | nil =>
    cases text with
    | nil => simp [flagNameEquals]
    | cons char rest => simp [flagNameEquals]
  | cons char name ih =>
    obtain ⟨hchar, hrest⟩ := not_or.mp (mt List.mem_cons.mpr hname)
    cases text with
    | nil => simp [flagNameEquals, Ne.symm hchar]
    | cons other text =>
      by_cases hsame : char = other
      · subst hsame
        simp [flagNameEquals, Ne.symm hchar, ih hrest]
      · simp [flagNameEquals, Ne.symm hchar, hsame, Ne.symm hsame]

/-- A text without an equals sign has no value. -/
theorem valueBehind_of_not_mem {text : List UInt8} (htext : equals ∉ text) :
    valueBehind text = none := by
  have hnone : text.dropWhile (· ≠ equals) = [] := by
    refine List.dropWhile_eq_nil_iff.mpr fun char hchar ↦ decide_eq_true ?_
    rintro rfl
    exact htext hchar
  rw [valueBehind, hnone]

/-- The value stands behind the first equals sign. -/
theorem valueBehind_append {text : List UInt8} (htext : equals ∉ text) (value : List UInt8) :
    valueBehind (text ++ equals :: value) = some value := by
  have hrest : (text ++ equals :: value).dropWhile (· ≠ equals) = equals :: value := by
    rw [List.dropWhile_append_of_pos fun char hchar ↦ decide_eq_true ?_]
    · rfl
    · rintro rfl
      exact htext hchar
  rw [valueBehind, hrest]

/-! ### The two lookups -/

/-- What is found is the first entry that is accepted. -/
theorem firstParam_eq_some_iff {α : Type} (accept : HtoolParam → Option α)
    (params : List HtoolParam) (start : ℕ) (info : ParamInfo) (value : α) :
    firstParam accept params start = some (info, value) ↔
      ∃ earlier later, params = earlier ++ info.param :: later ∧
        info.index = start + earlier.length ∧ (∀ other ∈ earlier, accept other = none) ∧
          accept info.param = some value := by
  induction params generalizing start with
  | nil => simp [firstParam]
  | cons param params ih =>
    unfold firstParam
    cases haccept : accept param with
    | some accepted =>
      constructor
      · intro hfound
        obtain ⟨rfl, rfl⟩ := Prod.mk.inj (Option.some.inj hfound)
        exact ⟨[], params, rfl, rfl, fun _ hnone ↦ absurd hnone List.not_mem_nil, haccept⟩
      · rintro ⟨earlier, later, hsplit, hindex, hearlier, hvalue⟩
        cases earlier with
        | nil =>
          obtain ⟨rfl, rfl⟩ := List.cons.inj hsplit
          rw [haccept] at hvalue
          obtain rfl := Option.some.inj hvalue
          obtain ⟨_, index⟩ := info
          obtain rfl : index = start := hindex
          rfl
        | cons first earlier =>
          obtain ⟨rfl, -⟩ := List.cons.inj hsplit
          rw [hearlier param List.mem_cons_self] at haccept
          cases haccept
    | none =>
      rw [ih]
      constructor
      · rintro ⟨earlier, later, rfl, hindex, hearlier, hvalue⟩
        refine ⟨param :: earlier, later, rfl, ?_, ?_, hvalue⟩
        · rw [hindex, List.length_cons]
          omega
        · exact List.forall_mem_cons.mpr ⟨haccept, hearlier⟩
      · rintro ⟨earlier, later, hsplit, hindex, hearlier, hvalue⟩
        cases earlier with
        | nil =>
          obtain ⟨rfl, -⟩ := List.cons.inj hsplit
          rw [haccept] at hvalue
          cases hvalue
        | cons first earlier =>
          obtain ⟨rfl, rfl⟩ := List.cons.inj hsplit
          refine ⟨earlier, later, rfl, ?_, (List.forall_mem_cons.mp hearlier).2, hvalue⟩
          rw [hindex, List.length_cons]
          omega

/-- Nothing is found when no entry is accepted. -/
theorem firstParam_eq_none_iff {α : Type} (accept : HtoolParam → Option α)
    (params : List HtoolParam) (start : ℕ) :
    firstParam accept params start = none ↔ ∀ param ∈ params, accept param = none := by
  induction params generalizing start with
  | nil => simp [firstParam]
  | cons param params ih =>
    unfold firstParam
    cases haccept : accept param with
    | some accepted => simp [haccept]
    | none => simp [haccept, ih]

theorem not_positional_iff (type : HtoolParamType) :
    type ≠ .positional ↔ type = .flagValue ∨ type = .flagBool := by
  cases type <;> decide

/-- A short flag is accepted with the letter. -/
theorem acceptShortFlag_eq_none_iff (letter : UInt8) (rest : List UInt8) (param : HtoolParam) :
    acceptShortFlag letter rest param = none ↔
      (param.type ≠ .positional → param.ch ≠ letter) := by
  rw [acceptShortFlag, not_positional_iff]
  split_ifs with haccept
  · exact iff_of_false not_false fun hother ↦ hother haccept.1 haccept.2
  · exact iff_of_true rfl fun hflag hch ↦ haccept ⟨hflag, hch⟩

/-- A short flag that is accepted is named. -/
theorem names_of_acceptShortFlag {letter : UInt8} (hletter : letter ≠ dash) {rest : List UInt8}
    {param : HtoolParam} {value : Option (List UInt8)}
    (haccept : acceptShortFlag letter rest param = some value) :
    Names param (dash :: letter :: rest) value := by
  unfold acceptShortFlag at haccept
  by_cases hmatch : (param.type = .flagValue ∨ param.type = .flagBool) ∧ param.ch = letter
  · rw [if_pos hmatch] at haccept
    obtain rfl := Option.some.inj haccept
    exact .short letter rest hletter ((not_positional_iff _).mpr hmatch.1) hmatch.2
  · rw [if_neg hmatch] at haccept
    cases haccept

theorem take_two_eq_iff (text name : List UInt8) :
    (text.take 2 = noText ∧ name = text.drop 2) ↔ text = noText ++ name := by
  constructor
  · rintro ⟨htake, rfl⟩
    rw [← htake, List.take_append_drop]
  · rintro rfl
    exact ⟨rfl, rfl⟩

/-- A long flag is accepted when it answers to the text. -/
theorem acceptLongFlag_eq_none_iff (text : List UInt8) (param : HtoolParam) :
    acceptLongFlag text param = none ↔ ¬AnswersTo text param := by
  have hno := take_two_eq_iff text param.name
  rw [acceptLongFlag, AnswersTo, not_positional_iff, ← hno]
  split_ifs with hnegated hequal
  · exact iff_of_false not_false (not_not.mpr (.inl ⟨hnegated.2.1, hnegated.1, hnegated.2.2⟩))
  · exact iff_of_false not_false (not_not.mpr (.inr hequal))
  · refine iff_of_true rfl (not_or.mpr ⟨?_, hequal⟩)
    rintro ⟨hbool, htake, hname⟩
    exact hnegated ⟨htake, hbool, hname⟩

/-- A long flag that is accepted is named exactly when its name has no equals sign. -/
theorem names_iff_of_acceptLongFlag {text : List UInt8} {param : HtoolParam}
    {value : Option (List UInt8)} (haccept : acceptLongFlag text param = some value) :
    Names param (dash :: dash :: text) value ↔ equals ∉ param.name := by
  constructor
  · intro hnames
    generalize harg : dash :: dash :: text = arg at hnames
    cases hnames with
    | short letter rest hletter hflag hch =>
      exact absurd (List.cons.inj (List.cons.inj harg).2).1.symm hletter
    | long text htext hflag hname => exact hname ▸ htext
    | longValue text value htext hflag hname => exact hname ▸ htext
    | negated text htext hflag hname =>
      rw [hname] at htext
      exact fun hmem ↦ htext (List.mem_append_right _ hmem)
  · intro hname
    unfold acceptLongFlag at haccept
    split_ifs at haccept with hnegated hequal
    · obtain rfl := Option.some.inj haccept
      have htext := (take_two_eq_iff text param.name).mp ⟨hnegated.1, hnegated.2.2⟩
      refine .negated text ?_ hnegated.2.1 htext
      rw [htext]
      exact fun hmem ↦ (List.mem_append.mp hmem).elim (by decide) hname
    · obtain rfl := Option.some.inj haccept
      have hflag := (not_positional_iff _).mpr hequal.1
      rcases (flagNameEquals_iff hname text).mp hequal.2 with rfl | ⟨behind, rfl⟩
      · rw [valueBehind_of_not_mem hname]
        exact .long _ hname hflag rfl
      · rw [valueBehind_append hname]
        exact .longValue _ behind hname hflag rfl

/-! ### Both together -/

section Find

variable {params : List HtoolParam} {text : List UInt8}

/-- The lookup of a short flag. -/
theorem findFlag_short {letter : UInt8} (hletter : letter ≠ dash) :
    findFlag params (dash :: letter :: text) =
      match firstParam (acceptShortFlag letter text) params 0 with
      | some found => some found
      | none => firstParam (acceptLongFlag text) params 0 := by
  unfold findFlag
  exact if_pos hletter

/-- The lookup of a long flag. -/
theorem findFlag_long :
    findFlag params (dash :: dash :: text) = firstParam (acceptLongFlag text) params 0 := by
  rw [findFlag, if_neg (not_not.mpr rfl)]

/-- Behind two dashes, the first entry that answers to the text is found, and it has to be named. -/
theorem findsByName_long_iff :
    FindsByName params (dash :: dash :: text) ↔ ¬Misnamed params (dash :: dash :: text) := by
  have hmisnamed : Misnamed params (dash :: dash :: text) ↔
      ∃ earlier param later, params = earlier ++ param :: later ∧
        (∀ other ∈ earlier, ¬AnswersTo text other) ∧ AnswersTo text param ∧
          equals ∈ param.name := by
    rw [Misnamed, if_neg (not_not.mpr rfl), and_iff_right rfl]
  rw [hmisnamed, FindsByName, findFlag_long]
  constructor
  · rintro hfinds ⟨earlier, param, later, hsplit, hearlier, hanswers, hequals⟩
    have haccepted := mt (acceptLongFlag_eq_none_iff text param).mp (not_not.mpr hanswers)
    obtain ⟨value, hvalue⟩ := Option.ne_none_iff_exists'.mp haccepted
    have hfound : firstParam (acceptLongFlag text) params 0 =
        some (⟨param, earlier.length⟩, value) :=
      (firstParam_eq_some_iff _ _ _ _ _).mpr ⟨earlier, later, hsplit, (Nat.zero_add _).symm,
        fun other hother ↦ (acceptLongFlag_eq_none_iff text other).mpr (hearlier other hother),
        hvalue⟩
    exact (names_iff_of_acceptLongFlag hvalue).mp (hfinds _ _ hfound).2 hequals
  · intro hnone info value hfound
    obtain ⟨earlier, later, rfl, hindex, hearlier, hvalue⟩ :=
      (firstParam_eq_some_iff _ _ _ _ _).mp hfound
    refine ⟨?_, (names_iff_of_acceptLongFlag hvalue).mpr fun hequals ↦ hnone ?_⟩
    · rw [hindex, Nat.zero_add, List.getElem?_append_right le_rfl, Nat.sub_self]
      rfl
    · refine ⟨earlier, info.param, later, rfl, fun other hother ↦ ?_, ?_, hequals⟩
      · exact (acceptLongFlag_eq_none_iff text other).mp (hearlier other hother)
      · by_contra hanswers
        rw [(acceptLongFlag_eq_none_iff text info.param).mpr hanswers] at hvalue
        cases hvalue

/-- An argument with one dash names a flag by its letter. -/
theorem Names.letter_eq {param : HtoolParam} {letter : UInt8} (hletter : letter ≠ dash)
    {value : Option (List UInt8)} (hnames : Names param (dash :: letter :: text) value) :
    param.type ≠ .positional ∧ param.ch = letter := by
  generalize harg : dash :: letter :: text = arg at hnames
  have hsame {other : UInt8} {rest : List UInt8} (hrest : dash :: letter :: text =
      dash :: other :: rest) : letter = other :=
    (List.cons.inj (List.cons.inj hrest).2).1
  cases hnames with
  | short other rest hother hflag hch => exact ⟨hflag, hch.trans (hsame harg).symm⟩
  | long other htext hflag hname => exact absurd (hsame harg) hletter
  | longValue other behind htext hflag hname => exact absurd (hsame harg) hletter
  | negated other htext hflag hname => exact absurd (hsame harg) hletter

/-- Behind one dash, a short flag with the letter is found, or a long one that is not named. -/
theorem findsByName_short_iff {letter : UInt8} (hletter : letter ≠ dash) :
    FindsByName params (dash :: letter :: text) ↔ ¬Misnamed params (dash :: letter :: text) := by
  have hmisnamed : Misnamed params (dash :: letter :: text) ↔
      (∀ param ∈ params, param.type ≠ .positional → param.ch ≠ letter) ∧
        ∃ param ∈ params, AnswersTo text param := by
    rw [Misnamed, if_pos hletter, and_iff_right rfl]
  rw [hmisnamed, FindsByName, findFlag_short hletter]
  constructor
  · rintro hfinds ⟨hletters, answering, hmem, hanswers⟩
    have hnone : firstParam (acceptShortFlag letter text) params 0 = none :=
      (firstParam_eq_none_iff _ _ _).mpr fun param hparam ↦
        (acceptShortFlag_eq_none_iff letter text param).mpr (hletters param hparam)
    rw [hnone] at hfinds
    have hsome : firstParam (acceptLongFlag text) params 0 ≠ none := fun hempty ↦
      (acceptLongFlag_eq_none_iff text answering).mp
        ((firstParam_eq_none_iff _ _ _).mp hempty answering hmem) hanswers
    obtain ⟨⟨info, value⟩, hfound⟩ := Option.ne_none_iff_exists'.mp hsome
    obtain ⟨hplace, hnames⟩ := hfinds info value hfound
    obtain ⟨hflag, hch⟩ := hnames.letter_eq hletter
    exact hletters _ (List.mem_of_getElem? hplace) hflag hch
  · intro hnamed info value hfound
    cases hshort : firstParam (acceptShortFlag letter text) params 0 with
    | some found =>
      rw [hshort] at hfound
      obtain rfl := Option.some.inj hfound
      obtain ⟨place, hindex, hplace, haccept⟩ := firstParam_spec hshort
      rw [Nat.zero_add] at hindex
      exact ⟨hindex ▸ hplace, names_of_acceptShortFlag hletter haccept⟩
    | none =>
      rw [hshort] at hfound
      obtain ⟨place, -, hplace, haccept⟩ := firstParam_spec hfound
      refine absurd ⟨fun param hparam ↦ ?_, info.param, List.mem_of_getElem? hplace, ?_⟩ hnamed
      · exact (acceptShortFlag_eq_none_iff letter text param).mp
          ((firstParam_eq_none_iff _ _ _).mp hshort param hparam)
      · by_contra hanswers
        rw [(acceptLongFlag_eq_none_iff text info.param).mpr hanswers] at haccept
        cases haccept

end Find

/-- Only what an argument names is found, exactly when it is not misnamed. -/
theorem findsByName_iff (params : List HtoolParam) (arg : List UInt8) :
    FindsByName params arg ↔ ¬Misnamed params arg := by
  have hrefused (hrefuses : findFlag params arg = none) (hnamed : ¬Misnamed params arg) :
      FindsByName params arg ↔ ¬Misnamed params arg := by
    refine iff_of_true (fun info value hfound ↦ ?_) hnamed
    rw [hrefuses] at hfound
    cases hfound
  match arg with
  | [] => exact hrefused rfl not_false
  | [first] =>
    refine hrefused ?_ not_false
    unfold findFlag
    split <;> simp_all
  | first :: letter :: text =>
    by_cases hfirst : first = dash
    · subst hfirst
      by_cases hletter : letter = dash
      · subst hletter
        exact findsByName_long_iff
      · exact findsByName_short_iff hletter
    · refine hrefused ?_ fun hmisnamed ↦ hfirst hmisnamed.1
      unfold findFlag
      split <;> simp_all

/-- The table of a boolean flag `verify` with the letter `v`: `-xverify` finds it, though it has no
letter `x`. -/
theorem not_findsByName_fallthrough :
    ¬FindsByName [⟨.flagBool, 0x76, [0x76, 0x65, 0x72, 0x69, 0x66, 0x79]⟩]
      [0x2D, 0x78, 0x76, 0x65, 0x72, 0x69, 0x66, 0x79] := by
  have hanswers : AnswersTo [0x76, 0x65, 0x72, 0x69, 0x66, 0x79]
      ⟨.flagBool, 0x76, [0x76, 0x65, 0x72, 0x69, 0x66, 0x79]⟩ := .inr ⟨by decide, by decide⟩
  have hletter : (0x78 : UInt8) ≠ dash := by decide
  intro hfinds
  refine (findsByName_short_iff hletter).mp hfinds ⟨rfl, ?_⟩
  rw [if_pos hletter]
  refine ⟨List.forall_mem_singleton.mpr fun _ ↦ ?_, _, List.mem_singleton_self _, hanswers⟩
  decide

end Libhoth.Examples.HtoolFlags
