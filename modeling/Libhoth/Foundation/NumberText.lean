import Mathlib.Algebra.Group.Int.Defs
import Mathlib.Algebra.Group.Nat.Defs
import Mathlib.Data.List.TakeWhile
import Mathlib.Tactic.Common

/-!
# Numbers in text, as the C library reads them

`strtoul` and `strtoll` skip blanks, take a sign, in base 16 a marker `0x`, and then the longest run
of digits. They return the value, saturated at the limits of a 64-bit integer, and the text behind
the digits; without a digit they return zero and the whole text. In base 0 the number itself says
which of the bases 8, 10 and 16 it has (`strtoulLiteral`). A text is the list of its bytes in front
of the terminator.

`numeral` is what they find. It reaches the end of a text exactly when the text is a run of digits
behind a `Padding` of blanks, sign and marker (`numeral_whole_iff`), and `numeral_run` is what it
makes of a run with other text behind it.
-/

set_option autoImplicit false
set_option relaxedAutoImplicit false

namespace Libhoth.Foundation.NumberText

/-- The blanks of `isspace`: the space and the characters 9 to 13. -/
def isSpace (char : UInt8) : Bool :=
  char = 0x20 ∨ 0x09 ≤ char ∧ char ≤ 0x0D

/-- `tolower`. -/
def toLower (char : UInt8) : UInt8 :=
  if 0x41 ≤ char ∧ char ≤ 0x5A then char + 0x20 else char

/-- The value of a digit, and 36 for a character that is a digit in no base. -/
def digitValue (char : UInt8) : ℕ :=
  if 0x30 ≤ char ∧ char ≤ 0x39 then char.toNat - 0x30
  else if 0x61 ≤ char ∧ char ≤ 0x7A then char.toNat - 0x61 + 10
  else if 0x41 ≤ char ∧ char ≤ 0x5A then char.toNat - 0x41 + 10
  else 36

/-- The digits of a base. -/
def isDigit (base : ℕ) (char : UInt8) : Bool :=
  digitValue char < base

/-- The value of a run of digits. -/
def ofDigits (base : ℕ) (digits : List UInt8) : ℕ :=
  digits.foldl (fun value char ↦ value * base + digitValue char) 0

/-! ### Reading a number -/

/-- What is found at the start of a text: the sign, the value of the digits, and the text behind. -/
structure Numeral where
  negative : Bool
  value : ℕ
  rest : List UInt8

/-- Take a sign. -/
def takeSign : List UInt8 → Bool × List UInt8
  | 0x2D :: text => (true, text)
  | 0x2B :: text => (false, text)
  | text => (false, text)

/-- Drop `0x` in front of a hexadecimal digit, in base 16. -/
def dropMarker (base : ℕ) : List UInt8 → List UInt8
  | zero :: letter :: digit :: text =>
    if base = 16 ∧ zero = 0x30 ∧ toLower letter = 0x78 ∧ isDigit 16 digit then digit :: text
    else zero :: letter :: digit :: text
  | text => text

/-- The number at the start of a text, if there is a digit. -/
def numeral (base : ℕ) (text : List UInt8) : Option Numeral :=
  let unsigned := takeSign (text.dropWhile isSpace)
  let digits := dropMarker base unsigned.2
  if digits.takeWhile (isDigit base) = [] then none
  else some ⟨unsigned.1, ofDigits base (digits.takeWhile (isDigit base)),
    digits.dropWhile (isDigit base)⟩

/-- `strtoul`, for 64 bits: the value and the text behind it. -/
def strtoul (base : ℕ) (text : List UInt8) : ℕ × List UInt8 :=
  match numeral base text with
  | none => (0, text)
  | some found =>
    (if 2 ^ 64 ≤ found.value then 2 ^ 64 - 1
      else if found.negative then (2 ^ 64 - found.value) % 2 ^ 64
      else found.value, found.rest)

/-- The base of an unsigned number that is written as in a program: 16 behind `0x`, 8 behind `0`,
and else 10. -/
def literalBase : List UInt8 → ℕ
  | 0x30 :: letter :: digit :: _ => if toLower letter = 0x78 ∧ isDigit 16 digit then 16 else 8
  | 0x30 :: _ => 8
  | _ => 10

/-- `strtoul` with the base 0, for 64 bits: the number has the base that it is written in. -/
def strtoulLiteral (text : List UInt8) : ℕ × List UInt8 :=
  strtoul (literalBase (takeSign (text.dropWhile isSpace)).2) text

/-- `strtoull`: the value and the text behind it, as for `strtoul`, and whether the error number is
`ERANGE`. -/
def strtoull (base : ℕ) (text : List UInt8) : (ℕ × List UInt8) × Bool :=
  (strtoul base text,
    match numeral base text with
    | none => false
    | some found => 2 ^ 64 ≤ found.value)

/-- `strtoll`: the value and the text behind it. -/
def strtoll (base : ℕ) (text : List UInt8) : ℤ × List UInt8 :=
  match numeral base text with
  | none => (0, text)
  | some found =>
    (if found.negative then max (-(found.value : ℤ)) (-2 ^ 63)
      else min (found.value : ℤ) (2 ^ 63 - 1), found.rest)

/-! ### Runs of digits and what may stand in front of them -/

/-- A non-empty run of digits. -/
structure Run (base : ℕ) (digits : List UInt8) : Prop where
  nonempty : digits ≠ []
  digits : ∀ char ∈ digits, isDigit base char

/-- An optional sign, and whether it is a minus. -/
inductive Sign : List UInt8 → Bool → Prop
  | missing : Sign [] false
  | plus : Sign [0x2B] false
  | minus : Sign [0x2D] true

/-- An optional `0x` or `0X`, in base 16. -/
inductive Marker (base : ℕ) : List UInt8 → Prop
  | missing : Marker base []
  | present (hbase : base = 16) (letter : UInt8) (hletter : toLower letter = 0x78) :
    Marker base [0x30, letter]

/-- Blanks, a sign and a marker, each of which may be missing. -/
def Padding (base : ℕ) (padding : List UInt8) (negative : Bool) : Prop :=
  ∃ blanks sign marker, padding = blanks ++ sign ++ marker ∧ (∀ char ∈ blanks, isSpace char) ∧
    Sign sign negative ∧ Marker base marker

/-- A digit is no blank, no sign and no letter of a marker. -/
theorem isDigit_ne {base : ℕ} (hbase : base ≤ 36) {char : UInt8} (hdigit : isDigit base char) :
    isSpace char = false ∧ char ≠ 0x2D ∧ char ≠ 0x2B := by
  have hvalue : digitValue char < 36 := (of_decide_eq_true hdigit).trans_le hbase
  unfold digitValue at hvalue
  simp only [isSpace, ← UInt8.toNat_inj, UInt8.le_iff_toNat_le, UInt8.toNat_ofNat, ne_eq,
    decide_eq_false_iff_not] at hvalue ⊢
  split_ifs at hvalue <;> omega

/-- A character with a given lower case is that character or its upper case. -/
theorem eq_or_eq_of_toLower {char lower : UInt8} (hlower : toLower char = lower) :
    char = lower ∨ char = lower - 0x20 := by
  unfold toLower at hlower
  split_ifs at hlower
  · exact .inr (by rw [← hlower, UInt8.add_sub_cancel])
  · exact .inl hlower

/-- The letter of a marker is no digit of base 10 or 16. -/
theorem not_isDigit_letter {base : ℕ} (hbase : base ≤ 16) {letter : UInt8}
    (hletter : toLower letter = 0x78) : isDigit base letter = false := by
  rcases eq_or_eq_of_toLower hletter with rfl | rfl
  · exact decide_eq_false (not_lt.mpr (hbase.trans (by decide)))
  · exact decide_eq_false (not_lt.mpr (hbase.trans (by decide)))

/-- A sign is taken off what follows it, unless that begins with one. -/
theorem takeSign_append {sign : List UInt8} {negative : Bool} (hsign : Sign sign negative)
    {rest : List UInt8} (hrest : ∀ char ∈ rest.head?, char ≠ 0x2D ∧ char ≠ 0x2B) :
    takeSign (sign ++ rest) = (negative, rest) := by
  cases hsign with
  | missing =>
    rw [List.nil_append]
    unfold takeSign
    split
    · exact absurd rfl (hrest 0x2D rfl).1
    · exact absurd rfl (hrest 0x2B rfl).2
    · rfl
  | plus => rfl
  | minus => rfl

/-- What is taken as the sign is one. -/
theorem exists_sign (text : List UInt8) :
    ∃ sign, text = sign ++ (takeSign text).2 ∧ Sign sign (takeSign text).1 := by
  unfold takeSign
  split
  · exact ⟨[0x2D], rfl, .minus⟩
  · exact ⟨[0x2B], rfl, .plus⟩
  · exact ⟨[], rfl, .missing⟩

/-- A marker is dropped in front of a run of digits. -/
theorem dropMarker_append {base : ℕ} (hbase : base ≤ 16) {marker digits : List UInt8}
    (hmarker : Marker base marker) (hdigits : Run base digits) :
    dropMarker base (marker ++ digits) = digits := by
  cases hmarker with
  | missing =>
    rw [List.nil_append]
    unfold dropMarker
    split
    · rename_i zero letter digit text
      rw [if_neg]
      rintro ⟨-, -, hletter, -⟩
      have hfalse := not_isDigit_letter hbase hletter
      rw [hdigits.digits letter (by simp)] at hfalse
      exact absurd hfalse (by decide)
    · rfl
  | present hsixteen letter hletter =>
    obtain ⟨hnonempty, hall⟩ := hdigits
    cases digits with
    | nil => exact absurd rfl hnonempty
    | cons digit text =>
      exact if_pos ⟨hsixteen, rfl, hletter, hsixteen ▸ hall digit List.mem_cons_self⟩

/-- Only base 16 has a marker. -/
theorem dropMarker_of_ne {base : ℕ} (hbase : base ≠ 16) (text : List UInt8) :
    dropMarker base text = text := by
  unfold dropMarker
  split
  · rw [if_neg fun hmarked ↦ hbase hmarked.1]
  · rfl

/-- What is dropped as the marker is one. -/
theorem exists_marker (base : ℕ) (text : List UInt8) :
    ∃ marker, text = marker ++ dropMarker base text ∧ Marker base marker := by
  unfold dropMarker
  split
  · rename_i zero letter digit rest
    split_ifs with hmarker
    · obtain ⟨hbase, rfl, hletter, -⟩ := hmarker
      exact ⟨[0x30, letter], rfl, .present hbase letter hletter⟩
    · exact ⟨[], rfl, .missing⟩
  · exact ⟨[], rfl, .missing⟩

/-! ### What is read of a text -/

/-- A text whose first character is not dropped stays. -/
theorem dropWhile_of_head {p : UInt8 → Bool} {text : List UInt8}
    (hhead : ∀ char ∈ text.head?, p char = false) : text.dropWhile p = text := by
  cases text with
  | nil => rfl
  | cons char rest => exact List.dropWhile_cons_of_neg (by rw [hhead char rfl]; decide)

/-- What a marker and a run of digits begin with is a digit. -/
theorem isDigit_head {base : ℕ} {marker digits : List UInt8} (hmarker : Marker base marker)
    (hdigits : Run base digits) : ∀ char ∈ (marker ++ digits).head?, isDigit base char := by
  intro char hchar
  cases hmarker with
  | missing => exact hdigits.digits char (List.mem_of_mem_head? hchar)
  | present hsixteen letter hletter =>
    obtain rfl := Option.some.inj hchar
    subst hsixteen
    decide

/-- A run of digits with other text behind it, in a base without a marker. -/
theorem takeWhile_run {base : ℕ} {digits rest : List UInt8} (hdigits : Run base digits)
    (hrest : ∀ char ∈ rest.head?, isDigit base char = false) :
    (digits ++ rest).takeWhile (isDigit base) = digits ∧
      (digits ++ rest).dropWhile (isDigit base) = rest := by
  have hstop : rest.takeWhile (isDigit base) = [] := by
    cases rest with
    | nil => rfl
    | cons char rest => exact List.takeWhile_cons_of_neg (by rw [hrest char rfl]; decide)
  rw [List.takeWhile_append_of_pos hdigits.digits, List.dropWhile_append_of_pos hdigits.digits,
    hstop, List.append_nil]
  exact ⟨rfl, dropWhile_of_head hrest⟩

/-- A run of digits behind a padding is read to the end. -/
theorem numeral_padding {base : ℕ} (hbase : base ≤ 16) {padding digits : List UInt8}
    {negative : Bool} (hpadding : Padding base padding negative) (hdigits : Run base digits) :
    numeral base (padding ++ digits) = some ⟨negative, ofDigits base digits, []⟩ := by
  obtain ⟨blanks, sign, marker, rfl, hblanks, hsign, hmarker⟩ := hpadding
  have hhead := isDigit_head hmarker hdigits
  have hunsigned : ∀ char ∈ (marker ++ digits).head?, char ≠ 0x2D ∧ char ≠ 0x2B :=
    fun char hchar ↦ (isDigit_ne (by omega) (hhead char hchar)).2
  have hsigned : ∀ char ∈ (sign ++ (marker ++ digits)).head?, isSpace char = false := by
    intro char hchar
    cases hsign with
    | missing => exact (isDigit_ne (by omega) (hhead char hchar)).1
    | plus =>
      obtain rfl := Option.some.inj hchar
      decide
    | minus =>
      obtain rfl := Option.some.inj hchar
      decide
  obtain ⟨htake, hdrop⟩ := takeWhile_run hdigits (show ∀ char ∈ ([] : List UInt8).head?,
    isDigit base char = false by simp)
  rw [List.append_nil] at htake hdrop
  unfold numeral
  dsimp only
  rw [List.append_assoc, List.append_assoc, List.dropWhile_append_of_pos hblanks,
    dropWhile_of_head hsigned, takeSign_append hsign hunsigned,
    dropMarker_append hbase hmarker hdigits, htake, hdrop, if_neg hdigits.nonempty]

/-- No padding is a padding. -/
theorem padding_nil (base : ℕ) : Padding base [] false :=
  ⟨[], [], [], rfl, fun _ hchar ↦ absurd hchar List.not_mem_nil, .missing, .missing⟩

/-- There is no minus without a padding. -/
theorem negative_of_padding_nil {base : ℕ} {negative : Bool}
    (hpadding : Padding base [] negative) : negative = false := by
  obtain ⟨blanks, sign, marker, hnil, -, hsign, -⟩ := hpadding
  cases hsign with
  | missing => rfl
  | plus => rfl
  | minus => simp at hnil

/-- A run of digits has no padding in front. -/
theorem not_run_of_padding {base : ℕ} (hbase : base ≤ 16) {padding digits : List UInt8}
    {negative : Bool} (hpadding : Padding base padding negative) (hsome : padding ≠ []) :
    ¬Run base (padding ++ digits) := by
  rintro ⟨-, hall⟩
  obtain ⟨blanks, sign, marker, rfl, hblanks, hsign, hmarker⟩ := hpadding
  have hpadded : ∀ char ∈ blanks ++ sign ++ marker, isDigit base char :=
    fun char hchar ↦ hall char (List.mem_append_left digits hchar)
  cases blanks with
  | cons blank blanks =>
    have hblank := (isDigit_ne (by omega) (hpadded blank List.mem_cons_self)).1
    rw [hblanks blank List.mem_cons_self] at hblank
    exact absurd hblank (by decide)
  | nil =>
    cases hsign with
    | plus => exact (isDigit_ne (by omega) (hpadded 0x2B List.mem_cons_self)).2.2 rfl
    | minus => exact (isDigit_ne (by omega) (hpadded 0x2D List.mem_cons_self)).2.1 rfl
    | missing =>
      cases hmarker with
      | missing => exact hsome rfl
      | present hsixteen letter hletter =>
        have hdigit := hpadded letter (List.mem_cons_of_mem _ List.mem_cons_self)
        rw [not_isDigit_letter hbase hletter] at hdigit
        exact absurd hdigit (by decide)

/-- What is found in a text is a run of digits behind a padding. -/
theorem exists_padding_of_numeral {base : ℕ} {text : List UInt8} {found : Numeral}
    (hfound : numeral base text = some found) :
    ∃ padding digits, Padding base padding found.negative ∧ Run base digits ∧
      text = padding ++ (digits ++ found.rest) := by
  obtain ⟨sign, hsign, hsigned⟩ := exists_sign (text.dropWhile isSpace)
  obtain ⟨marker, hmarker, hmarked⟩ := exists_marker base (takeSign (text.dropWhile isSpace)).2
  unfold numeral at hfound
  dsimp only at hfound
  split_ifs at hfound with hnone
  rw [← Option.some.inj hfound]
  refine ⟨text.takeWhile isSpace ++ sign ++ marker, _,
    ⟨text.takeWhile isSpace, sign, marker, rfl, fun char hchar ↦ List.mem_takeWhile_imp hchar,
      hsigned, hmarked⟩, ⟨hnone, fun char hchar ↦ List.mem_takeWhile_imp hchar⟩, ?_⟩
  rw [List.takeWhile_append_dropWhile, List.append_assoc, List.append_assoc, ← hmarker, ← hsign,
    List.takeWhile_append_dropWhile]

/-- A text is read to the end exactly when it is a run of digits behind a padding. -/
theorem numeral_whole_iff {base : ℕ} (hbase : base ≤ 16) (text : List UInt8) :
    (∃ negative value, numeral base text = some ⟨negative, value, []⟩) ↔
      ∃ padding negative digits, Padding base padding negative ∧ Run base digits ∧
        text = padding ++ digits := by
  constructor
  · rintro ⟨negative, value, hnumeral⟩
    obtain ⟨padding, digits, hpadding, hdigits, htext⟩ := exists_padding_of_numeral hnumeral
    rw [List.append_nil] at htext
    exact ⟨padding, negative, digits, hpadding, hdigits, htext⟩
  · rintro ⟨padding, negative, digits, hpadding, hdigits, rfl⟩
    exact ⟨negative, _, numeral_padding hbase hpadding hdigits⟩

/-- A run of digits at the start of a text, in a base without a marker. -/
theorem numeral_run {base : ℕ} (hbase : base < 16) {digits rest : List UInt8}
    (hdigits : Run base digits) (hrest : ∀ char ∈ rest.head?, isDigit base char = false) :
    numeral base (digits ++ rest) = some ⟨false, ofDigits base digits, rest⟩ := by
  have hhead : ∀ char ∈ (digits ++ rest).head?, isDigit base char := by
    intro char hchar
    obtain ⟨digit, more, rfl⟩ := List.exists_cons_of_ne_nil hdigits.nonempty
    obtain rfl := Option.some.inj hchar
    exact hdigits.digits digit List.mem_cons_self
  obtain ⟨htake, hdrop⟩ := takeWhile_run hdigits hrest
  have hsign := takeSign_append .missing fun char hchar ↦
    (isDigit_ne (by omega) (hhead char hchar)).2
  rw [List.nil_append] at hsign
  unfold numeral
  dsimp only
  rw [dropWhile_of_head fun char hchar ↦ (isDigit_ne (by omega) (hhead char hchar)).1, hsign,
    dropMarker_of_ne (by omega), htake, hdrop, if_neg hdigits.nonempty]

end Libhoth.Foundation.NumberText
