import Libhoth.Foundation.NumberText

/-!
# The 64-bit arguments of the tool

`parse_u64` of `htool_cmd.c`, the parser behind every 64-bit argument. It should take the decimal
numbers, and the hexadecimal numbers behind `0x` or `0X`, below 2^64 (`U64Text`); its comment says
that it rejects negative numbers, overflow and trailing characters.

Overflow and trailing characters are rejected. But the parser looks for a minus only at the first
character, and what it gives to `strtoull` may begin with blanks, a sign or a second `0x`:
`parseU64_eq_some_iff` is the exact language, in which a minus negates modulo 2^64. So
`parsesU64_iff` says that the parser does what it should exactly for the texts that are not
`Padded`.
-/

set_option autoImplicit false
set_option relaxedAutoImplicit false

namespace Libhoth.Examples.HtoolNumbers64

open Foundation.NumberText

/-- The character `-`. -/
abbrev dash : UInt8 := 0x2D

/-- The base in which `parse_u64` reads a text, and the part that it reads. -/
def u64Body : List UInt8 → ℕ × List UInt8
  | zero :: letter :: text =>
    if zero = 0x30 ∧ (letter = 0x78 ∨ letter = 0x58) then (16, text)
    else (10, zero :: letter :: text)
  | text => (10, text)

/-- `parse_u64`: the value, or `none` for a failure. The text is missing for a null pointer. -/
def parseU64 : Option (List UInt8) → Option UInt64
  | none => none
  | some s =>
    if s = [] ∨ s.head? = some dash then none
    else
      let body := u64Body s
      let (lval, erange) := strtoull body.1 body.2
      if erange ∨ lval.2 = body.2 ∨ lval.2 ≠ [] then none
      else some (UInt64.ofNat lval.1)

/-- A text of a number below 2^64: decimal digits, or `0x` or `0X` and hexadecimal digits. -/
def U64Text (s : List UInt8) (value : ℕ) : Prop :=
  (Run 10 s ∧ ofDigits 10 s = value ∨
    ∃ letter digits, s = 0x30 :: letter :: digits ∧ (letter = 0x78 ∨ letter = 0x58) ∧
      Run 16 digits ∧ ofDigits 16 digits = value) ∧
  value < 2 ^ 64

/-- `parse_u64` takes a text exactly when it is one of a number below 2^64, with that value. -/
def ParsesU64 (s : Option (List UInt8)) : Prop :=
  ∀ value, parseU64 s = some value ↔ ∃ text, s = some text ∧ U64Text text value.toNat

/-- The number behind a padding, read with its sign as an unsigned number of 64 bits. -/
def signedValue (negative : Bool) (value : ℕ) : ℕ :=
  if negative then (2 ^ 64 - value) % 2 ^ 64 else value

/-- A text that does not begin with a minus and that is read as a padding, with a blank, a sign or a
second `0x`, and a number below 2^64 behind it. -/
def Padded (s : Option (List UInt8)) : Prop :=
  ∃ text padding negative digits, s = some text ∧ text.head? ≠ some dash ∧
    Padding (u64Body text).1 padding negative ∧ padding ≠ [] ∧ Run (u64Body text).1 digits ∧
      ofDigits (u64Body text).1 digits < 2 ^ 64 ∧ (u64Body text).2 = padding ++ digits

/-! ### The two bases -/

/-- A text begins with `0x` or `0X` and is hexadecimal behind it, or it is decimal. -/
theorem u64Body_cases (s : List UInt8) :
    (∃ letter text, s = 0x30 :: letter :: text ∧ (letter = 0x78 ∨ letter = 0x58) ∧
      u64Body s = (16, text)) ∨
    (∀ letter text, s = 0x30 :: letter :: text → ¬(letter = 0x78 ∨ letter = 0x58)) ∧
      u64Body s = (10, s) := by
  unfold u64Body
  split
  · rename_i zero letter text
    split_ifs with hmarked
    · obtain ⟨rfl, hletter⟩ := hmarked
      exact .inl ⟨letter, text, rfl, hletter, rfl⟩
    · refine .inr ⟨fun other rest hother hletter ↦ hmarked ?_, rfl⟩
      obtain ⟨rfl, hrest⟩ := List.cons.inj hother
      obtain ⟨rfl, -⟩ := List.cons.inj hrest
      exact ⟨rfl, hletter⟩
  · rename_i hshort
    exact .inr ⟨fun letter text hs ↦ absurd hs (hshort 0x30 letter text), rfl⟩

theorem u64Body_base_le (s : List UInt8) : (u64Body s).1 ≤ 16 := by
  rcases u64Body_cases s with ⟨letter, text, -, -, hbody⟩ | ⟨-, hbody⟩
  · rw [hbody]
  · rw [hbody]
    exact show 10 ≤ 16 by decide

/-- A text with a marker is no run of decimal digits. -/
theorem not_run_of_marker {letter : UInt8} (hletter : letter = 0x78 ∨ letter = 0x58)
    (text : List UInt8) : ¬Run 10 (0x30 :: letter :: text) := by
  intro hrun
  have hdigit := hrun.digits letter (List.mem_cons_of_mem _ List.mem_cons_self)
  rcases hletter with rfl | rfl
  · exact absurd hdigit (by decide)
  · exact absurd hdigit (by decide)

/-- The texts of numbers are the runs of digits that `parse_u64` reads, below 2^64. -/
theorem u64Text_iff (s : List UInt8) (value : ℕ) :
    U64Text s value ↔ Run (u64Body s).1 (u64Body s).2 ∧
      ofDigits (u64Body s).1 (u64Body s).2 = value ∧ value < 2 ^ 64 := by
  unfold U64Text
  rcases u64Body_cases s with ⟨letter, text, rfl, hletter, hbody⟩ | ⟨hplain, hbody⟩
  · rw [hbody]
    constructor
    · rintro ⟨⟨hrun, -⟩ | ⟨other, digits, hdigits, -, hrun, hvalue⟩, hbound⟩
      · exact absurd hrun (not_run_of_marker hletter text)
      · obtain rfl := (List.cons.inj (List.cons.inj hdigits).2).2
        exact ⟨hrun, hvalue, hbound⟩
    · rintro ⟨hrun, hvalue, hbound⟩
      exact ⟨.inr ⟨letter, text, rfl, hletter, hrun, hvalue⟩, hbound⟩
  · rw [hbody]
    constructor
    · rintro ⟨⟨hrun, hvalue⟩ | ⟨letter, digits, hs, hletter, -⟩, hbound⟩
      · exact ⟨hrun, hvalue, hbound⟩
      · exact absurd hletter (hplain letter digits hs)
    · rintro ⟨hrun, hvalue, hbound⟩
      exact ⟨.inl ⟨hrun, hvalue⟩, hbound⟩

/-- A text that begins with a minus is no run of digits. -/
theorem head_ne_dash {s : List UInt8} (hrun : Run (u64Body s).1 (u64Body s).2) :
    s.head? ≠ some dash := by
  intro hhead
  obtain ⟨rest, rfl⟩ : ∃ rest, s = dash :: rest := by
    cases s with
    | nil => exact absurd hhead (by simp)
    | cons char rest => exact ⟨rest, by rw [Option.some.inj hhead]⟩
  rcases u64Body_cases (dash :: rest) with ⟨letter, text, hs, -⟩ | ⟨-, hbody⟩
  · exact absurd (List.cons.inj hs).1 (by decide)
  · rw [hbody] at hrun
    exact absurd (hrun.digits dash List.mem_cons_self) (show ¬isDigit 10 dash by decide)

/-! ### The language of the parser -/

/-- What `strtoull` makes of a run of digits behind a padding. -/
theorem strtoull_padding {base : ℕ} (hbase : base ≤ 16) {padding digits : List UInt8}
    {negative : Bool} (hpadding : Padding base padding negative) (hdigits : Run base digits)
    (hbound : ofDigits base digits < 2 ^ 64) :
    strtoull base (padding ++ digits) =
      ((signedValue negative (ofDigits base digits), []), false) := by
  rw [strtoull, strtoul, numeral_padding hbase hpadding hdigits]
  dsimp only
  rw [if_neg (not_le.mpr hbound), decide_eq_false (not_le.mpr hbound)]
  rfl

/-- What `strtoull` reads to the end, in range, is a run of digits behind a padding. -/
theorem exists_padding_of_strtoull {base : ℕ} (hbase : base ≤ 16) {text : List UInt8}
    (hrange : ¬(strtoull base text).2) (hmoved : (strtoull base text).1.2 ≠ text)
    (hrest : (strtoull base text).1.2 = []) :
    ∃ padding negative digits, Padding base padding negative ∧ Run base digits ∧
      ofDigits base digits < 2 ^ 64 ∧ text = padding ++ digits := by
  unfold strtoull strtoul at hrange hmoved hrest
  cases hfound : numeral base text with
  | none =>
    rw [hfound] at hmoved
    exact absurd rfl hmoved
  | some found =>
    rw [hfound] at hrange hrest
    obtain ⟨padding, digits, hpadding, hdigits, htext⟩ := exists_padding_of_numeral hfound
    rw [show found.rest = [] from hrest, List.append_nil] at htext
    rw [htext, numeral_padding hbase hpadding hdigits] at hfound
    have hvalue : ofDigits base digits = found.value := congrArg (·.value) (Option.some.inj hfound)
    have hbound : found.value < 2 ^ 64 := not_le.mp (mt decide_eq_true hrange)
    exact ⟨padding, _, digits, hpadding, hdigits, hvalue ▸ hbound, htext⟩

theorem signedValue_lt (negative : Bool) {value : ℕ} (hvalue : value < 2 ^ 64) :
    signedValue negative value < 2 ^ 64 := by
  unfold signedValue
  split_ifs <;> omega

/-- The texts that `parse_u64` takes, and the values that it gives: a padding and a run of digits of
a number below 2^64, which a minus in the padding negates. -/
theorem parseU64_eq_some_iff (s : List UInt8) (value : UInt64) :
    parseU64 (some s) = some value ↔ s.head? ≠ some dash ∧
      ∃ padding negative digits, Padding (u64Body s).1 padding negative ∧
        Run (u64Body s).1 digits ∧ ofDigits (u64Body s).1 digits < 2 ^ 64 ∧
          (u64Body s).2 = padding ++ digits ∧
            signedValue negative (ofDigits (u64Body s).1 digits) = value.toNat := by
  have hbase := u64Body_base_le s
  constructor
  · intro hparse
    unfold parseU64 at hparse
    dsimp only at hparse
    split_ifs at hparse with hstart hstop
    obtain ⟨-, hhead⟩ := not_or.mp hstart
    obtain ⟨hrange, hend⟩ := not_or.mp hstop
    obtain ⟨hmoved, hrest⟩ := not_or.mp hend
    obtain ⟨padding, negative, digits, hpadding, hdigits, hbound, hbody⟩ :=
      exists_padding_of_strtoull hbase hrange hmoved (not_not.mp hrest)
    rw [hbody, strtoull_padding hbase hpadding hdigits hbound, Option.some_inj] at hparse
    refine ⟨hhead, padding, negative, digits, hpadding, hdigits, hbound, hbody, ?_⟩
    rw [← hparse, UInt64.toNat_ofNat', Nat.mod_eq_of_lt (signedValue_lt negative hbound)]
  · rintro ⟨hhead, padding, negative, digits, hpadding, hdigits, hbound, hbody, hvalue⟩
    have hsome : (u64Body s).2 ≠ [] := by
      rw [hbody]
      exact List.append_ne_nil_of_right_ne_nil _ hdigits.nonempty
    have hs : s ≠ [] := by
      rintro rfl
      exact hsome rfl
    have hread := strtoull_padding hbase hpadding hdigits hbound
    rw [← hbody] at hread
    unfold parseU64
    dsimp only
    rw [if_neg (not_or.mpr ⟨hs, hhead⟩), hread, if_neg (by simp [hsome.symm]), hvalue,
      UInt64.ofNat_toNat]

/-! ### Where the parser does what it should -/

/-- The parser does what it should exactly for the texts that are not padded: what it should take it
takes, and what it takes beside that is padded. -/
theorem parsesU64_iff (s : Option (List UInt8)) : ParsesU64 s ↔ ¬Padded s := by
  constructor
  · rintro hparses ⟨text, padding, negative, digits, rfl, hhead, hpadding, hsome, hdigits, hbound,
      hbody⟩
    have hvalue : signedValue negative (ofDigits (u64Body text).1 digits) =
        (UInt64.ofNat (signedValue negative (ofDigits (u64Body text).1 digits))).toNat := by
      rw [UInt64.toNat_ofNat', Nat.mod_eq_of_lt (signedValue_lt negative hbound)]
    obtain ⟨other, hother, htext⟩ := (hparses _).mp ((parseU64_eq_some_iff text _).mpr
      ⟨hhead, padding, negative, digits, hpadding, hdigits, hbound, hbody, hvalue⟩)
    obtain rfl := Option.some.inj hother
    have hrun := ((u64Text_iff text _).mp htext).1
    rw [hbody] at hrun
    exact not_run_of_padding (u64Body_base_le text) hpadding hsome hrun
  · intro hplain value
    cases s with
    | none => exact ⟨fun hnull ↦ absurd hnull (by simp [parseU64]), by simp⟩
    | some text =>
      rw [parseU64_eq_some_iff]
      constructor
      · rintro ⟨hhead, padding, negative, digits, hpadding, hdigits, hbound, hbody, hvalue⟩
        have hnil : padding = [] := by
          by_contra hsome
          exact hplain ⟨text, padding, negative, digits, rfl, hhead, hpadding, hsome, hdigits,
            hbound, hbody⟩
        rw [hnil] at hpadding hbody
        rw [negative_of_padding_nil hpadding] at hvalue
        rw [List.nil_append] at hbody
        refine ⟨text, rfl, (u64Text_iff text _).mpr ?_⟩
        rw [hbody]
        exact ⟨hdigits, hvalue, value.toNat_lt⟩
      · rintro ⟨other, hother, htext⟩
        obtain rfl := Option.some.inj hother
        obtain ⟨hrun, hvalue, hbound⟩ := (u64Text_iff text _).mp htext
        exact ⟨head_ne_dash hrun, [], false, _, padding_nil _, hrun, by rwa [hvalue], rfl, hvalue⟩

/-- The text ` -1` of a negative number is taken, with the value 2^64 - 1. -/
theorem not_parsesU64_negative : ¬ParsesU64 (some [0x20, 0x2D, 0x31]) := by
  intro hparses
  have hpadding : Padding 10 [0x20, 0x2D] true :=
    ⟨[0x20], [0x2D], [], rfl, List.all_eq_true.mp (by decide), .minus, .missing⟩
  have hdigits : Run 10 [0x31] := ⟨by decide, List.all_eq_true.mp (by decide)⟩
  have hparse : parseU64 (some [0x20, 0x2D, 0x31]) = some 0xFFFFFFFFFFFFFFFF :=
    (parseU64_eq_some_iff _ _).mpr ⟨by decide, [0x20, 0x2D], true, [0x31], hpadding, hdigits,
      by decide, rfl, by decide⟩
  obtain ⟨text, htext, hnumber⟩ := (hparses _).mp hparse
  obtain rfl := Option.some.inj htext
  exact absurd (((u64Text_iff _ _).mp hnumber).1.digits 0x20 List.mem_cons_self) (by decide)

end Libhoth.Examples.HtoolNumbers64
