import Libhoth.Foundation.NumberText

/-!
# The 32-bit arguments of the tool

`parse_u32` of `htool_cmd.c`, the parser behind every 32-bit argument. It should take the decimal
numbers, and the hexadecimal numbers behind `0x`, below 2^32 (`U32Text`). It takes what `strtoul`
reads to the end and cuts it to 32 bits, so `parsesU32_iff` says that it does what it should exactly
for the texts that are neither `Padded` nor `Oversized`.
-/

set_option autoImplicit false
set_option relaxedAutoImplicit false

namespace Libhoth.Examples.HtoolNumbers

open Foundation.NumberText

/-- The base in which `parse_u32` reads a text, and the part that it reads. -/
def u32Body : List UInt8 → ℕ × List UInt8
  | 0x30 :: 0x78 :: char :: text => (16, char :: text)
  | text => (10, text)

/-- `parse_u32`: the value, or `none` for a failure. -/
def parseU32 (s : List UInt8) : Option UInt32 :=
  let body := u32Body s
  let lval := strtoul body.1 body.2
  if s ≠ [] ∧ lval.2 = [] then some (UInt32.ofNat lval.1) else none

/-- A text of a number below 2^32: decimal digits, or `0x` and hexadecimal digits. -/
def U32Text (s : List UInt8) (value : ℕ) : Prop :=
  (Run 10 s ∧ ofDigits 10 s = value ∨
    ∃ digits, s = 0x30 :: 0x78 :: digits ∧ Run 16 digits ∧ ofDigits 16 digits = value) ∧
  value < 2 ^ 32

/-- `parse_u32` takes a text exactly when it is one of a number below 2^32, with that value. -/
def ParsesU32 (s : List UInt8) : Prop :=
  ∀ value, parseU32 s = some value ↔ U32Text s value.toNat

/-- Blanks, a sign or a second `0x`, and a run of digits behind them. -/
def Padded (s : List UInt8) : Prop :=
  ∃ padding negative digits, Padding (u32Body s).1 padding negative ∧ padding ≠ [] ∧
    Run (u32Body s).1 digits ∧ (u32Body s).2 = padding ++ digits

/-- A run of digits of a value that needs more than 32 bits. -/
def Oversized (s : List UInt8) : Prop :=
  Run (u32Body s).1 (u32Body s).2 ∧ 2 ^ 32 ≤ ofDigits (u32Body s).1 (u32Body s).2

theorem u32Body_base (s : List UInt8) : (u32Body s).1 = 16 ∨ (u32Body s).1 = 10 := by
  unfold u32Body
  split
  · exact .inl rfl
  · exact .inr rfl

theorem u32Body_base_le (s : List UInt8) : (u32Body s).1 ≤ 16 := by
  rcases u32Body_base s with hbase | hbase <;> omega

theorem u32Body_eq_nil {s : List UInt8} (hbody : (u32Body s).2 = []) : s = [] := by
  unfold u32Body at hbody
  split at hbody
  · exact absurd hbody (List.cons_ne_nil _ _)
  · exact hbody

/-- The texts of numbers are the runs of digits that `parse_u32` reads, below 2^32. -/
theorem u32Text_iff (s : List UInt8) (value : ℕ) :
    U32Text s value ↔ Run (u32Body s).1 (u32Body s).2 ∧
      ofDigits (u32Body s).1 (u32Body s).2 = value ∧ value < 2 ^ 32 := by
  unfold U32Text u32Body
  split
  · rename_i char text
    have hdecimal : ¬Run 10 (0x30 :: 0x78 :: char :: text) := fun hrun ↦
      absurd (hrun.digits 0x78 (by simp)) (by decide)
    constructor
    · rintro ⟨⟨hrun, -⟩ | ⟨digits, hdigits, hrun, hvalue⟩, hbound⟩
      · exact absurd hrun hdecimal
      · obtain rfl := (List.cons.inj (List.cons.inj hdigits).2).2
        exact ⟨hrun, hvalue, hbound⟩
    · rintro ⟨hrun, hvalue, hbound⟩
      exact ⟨.inr ⟨_, rfl, hrun, hvalue⟩, hbound⟩
  · rename_i hshape
    constructor
    · rintro ⟨⟨hrun, hvalue⟩ | ⟨digits, rfl, hrun, -⟩, hbound⟩
      · exact ⟨hrun, hvalue, hbound⟩
      · obtain ⟨char, text, rfl⟩ := List.exists_cons_of_ne_nil hrun.nonempty
        exact absurd rfl (hshape char text)
    · rintro ⟨hrun, hvalue, hbound⟩
      exact ⟨.inl ⟨hrun, hvalue⟩, hbound⟩

/-- What `parse_u32` makes of a run of digits behind a padding. -/
theorem parseU32_of_padding {s padding digits : List UInt8} {negative : Bool}
    (hpadding : Padding (u32Body s).1 padding negative) (hdigits : Run (u32Body s).1 digits)
    (hbody : (u32Body s).2 = padding ++ digits) :
    parseU32 s = some (UInt32.ofNat (strtoul (u32Body s).1 (u32Body s).2).1) := by
  have hs : s ≠ [] := by
    rintro rfl
    have hnil : padding ++ digits = [] := hbody.symm
    exact hdigits.nonempty (List.append_eq_nil_iff.mp hnil).2
  have hrest : (strtoul (u32Body s).1 (u32Body s).2).2 = [] := by
    rw [strtoul, hbody, numeral_padding (u32Body_base_le s) hpadding hdigits]
  rw [parseU32]
  exact if_pos ⟨hs, hrest⟩

/-- What `parse_u32` takes is a run of digits behind a padding. -/
theorem exists_padding_of_parseU32 {s : List UInt8} {value : UInt32}
    (hparse : parseU32 s = some value) :
    ∃ padding negative digits, Padding (u32Body s).1 padding negative ∧
      Run (u32Body s).1 digits ∧ (u32Body s).2 = padding ++ digits := by
  unfold parseU32 at hparse
  dsimp only at hparse
  split_ifs at hparse with htaken
  obtain ⟨hs, hrest⟩ := htaken
  rw [← numeral_whole_iff (u32Body_base_le s)]
  unfold strtoul at hrest
  cases hnumeral : numeral (u32Body s).1 (u32Body s).2 with
  | none =>
    rw [hnumeral] at hrest
    exact absurd (u32Body_eq_nil hrest) hs
  | some found =>
    rw [hnumeral] at hrest
    obtain ⟨negative, number, rest⟩ := found
    dsimp only at hrest
    exact ⟨negative, number, by rw [hrest]⟩

/-- What `parse_u32` makes of a run of digits. -/
theorem parseU32_of_run {s : List UInt8} (hrun : Run (u32Body s).1 (u32Body s).2) :
    parseU32 s = some (UInt32.ofNat
      (min (ofDigits (u32Body s).1 (u32Body s).2) (2 ^ 64 - 1))) := by
  have hnumeral := numeral_padding (u32Body_base_le s) (padding_nil _) hrun
  rw [List.nil_append] at hnumeral
  rw [parseU32_of_padding (padding_nil _) hrun rfl, strtoul, hnumeral]
  simp only [Bool.false_eq_true, if_false]
  congr 2
  split_ifs <;> omega

/-- The parser does what it should exactly for the texts without padding whose digits fit into 32
bits, or that it does not take: a padded number is taken, and a number that is too large is taken
with its value modulo 2^32. -/
theorem parsesU32_iff (s : List UInt8) : ParsesU32 s ↔ ¬Padded s ∧ ¬Oversized s := by
  constructor
  · intro hparses
    refine ⟨?_, ?_⟩
    · rintro ⟨padding, negative, digits, hpadding, hsome, hdigits, hbody⟩
      have hrun := ((u32Text_iff s _).mp
        ((hparses _).mp (parseU32_of_padding hpadding hdigits hbody))).1
      rw [hbody] at hrun
      exact not_run_of_padding (u32Body_base_le s) hpadding hsome hrun
    · rintro ⟨hrun, hlarge⟩
      obtain ⟨-, hvalue, hbound⟩ := (u32Text_iff s _).mp
        ((hparses _).mp (parseU32_of_run hrun))
      omega
  · rintro ⟨hpadded, hoversized⟩ value
    rw [u32Text_iff]
    constructor
    · intro hparse
      obtain ⟨padding, negative, digits, hpadding, hdigits, hbody⟩ :=
        exists_padding_of_parseU32 hparse
      have hnone : padding = [] := by
        by_contra hsome
        exact hpadded ⟨padding, negative, digits, hpadding, hsome, hdigits, hbody⟩
      rw [hnone, List.nil_append] at hbody
      have hrun : Run (u32Body s).1 (u32Body s).2 := hbody ▸ hdigits
      have hsmall : ofDigits (u32Body s).1 (u32Body s).2 < 2 ^ 32 :=
        not_le.mp fun hlarge ↦ hoversized ⟨hrun, hlarge⟩
      rw [parseU32_of_run hrun, Option.some_inj] at hparse
      have hvalue : value.toNat = ofDigits (u32Body s).1 (u32Body s).2 := by
        rw [← hparse, UInt32.toNat_ofNat']
        omega
      exact ⟨hrun, hvalue.symm, value.toNat_lt⟩
    · rintro ⟨hrun, hvalue, hbound⟩
      rw [parseU32_of_run hrun, Option.some_inj, ← UInt32.toNat_inj, UInt32.toNat_ofNat']
      omega

/-- The text `4294967296` of the number 2^32 is taken with the value 0. -/
theorem not_parsesU32_two_pow_32 :
    ¬ParsesU32 [0x34, 0x32, 0x39, 0x34, 0x39, 0x36, 0x37, 0x32, 0x39, 0x36] := by
  intro hparses
  have hrun : Run 10 [0x34, 0x32, 0x39, 0x34, 0x39, 0x36, 0x37, 0x32, 0x39, 0x36] :=
    ⟨by decide, List.all_eq_true.mp (by decide)⟩
  obtain ⟨-, hvalue, -⟩ := (u32Text_iff _ _).mp ((hparses _).mp (parseU32_of_run hrun))
  exact absurd hvalue (by decide)

end Libhoth.Examples.HtoolNumbers
