import Libhoth.Foundation.NumberText

/-!
# Numbers as decimal text

`decimalText` is the text that `printf` makes of a number with `%d`, for a number that is not
negative. It is a run of digits (`run_decimalText`) whose value is the number
(`ofDigits_decimalText`).

`ofDigitsFrom` is the value of digits that stand behind others of a known value. It only grows with
more digits (`le_ofDigitsFrom`), so a reader of small numbers may stop as soon as it is too large.
-/

set_option autoImplicit false
set_option relaxedAutoImplicit false

namespace Libhoth.Foundation.DecimalText

open NumberText

/-! ### Decimal digits -/

/-- The decimal digits are the characters `0` to `9`. -/
theorem isDigit_ten_iff (char : UInt8) : isDigit 10 char ↔ 0x30 ≤ char ∧ char ≤ 0x39 := by
  unfold isDigit digitValue
  simp only [decide_eq_true_eq, UInt8.le_iff_toNat_le, UInt8.reduceToNat]
  split_ifs <;> omega

theorem digitValue_of_isDigit {char : UInt8} (hdigit : isDigit 10 char) :
    digitValue char = char.toNat - 0x30 :=
  if_pos ((isDigit_ten_iff char).mp hdigit)

/-- The value of digits behind others of the value `start`. -/
def ofDigitsFrom (base start : ℕ) (digits : List UInt8) : ℕ :=
  digits.foldl (fun value char ↦ value * base + digitValue char) start

theorem ofDigitsFrom_nil (base start : ℕ) : ofDigitsFrom base start [] = start :=
  rfl

theorem ofDigitsFrom_cons (base start : ℕ) (char : UInt8) (digits : List UInt8) :
    ofDigitsFrom base start (char :: digits) =
      ofDigitsFrom base (start * base + digitValue char) digits :=
  rfl

theorem ofDigitsFrom_zero (base : ℕ) (digits : List UInt8) :
    ofDigitsFrom base 0 digits = ofDigits base digits :=
  rfl

/-- Digits behind others only add to the value. -/
theorem le_ofDigitsFrom {base : ℕ} (hbase : 0 < base) (start : ℕ) (digits : List UInt8) :
    start ≤ ofDigitsFrom base start digits := by
  induction digits generalizing start with
  | nil => exact le_rfl
  | cons char digits ih =>
    have hshift : start ≤ start * base := Nat.le_mul_of_pos_right start hbase
    exact (hshift.trans (Nat.le_add_right _ _)).trans (ih _)

theorem ofDigits_snoc (base : ℕ) (digits : List UInt8) (char : UInt8) :
    ofDigits base (digits ++ [char]) = ofDigits base digits * base + digitValue char := by
  rw [ofDigits, List.foldl_append]
  rfl

/-! ### Printing -/

/-- The digit that `%d` prints for a value below 10. -/
def decimalChar (value : ℕ) : UInt8 :=
  UInt8.ofNat (0x30 + value)

/-- A number printed with `%d`. -/
def decimalText (value : ℕ) : List UInt8 :=
  if value < 10 then [decimalChar value]
  else decimalText (value / 10) ++ [decimalChar (value % 10)]

theorem toNat_decimalChar {value : ℕ} (hvalue : value < 10) :
    (decimalChar value).toNat = 0x30 + value := by
  rw [decimalChar, UInt8.toNat_ofNat', Nat.mod_eq_of_lt (by omega)]

theorem isDigit_decimalChar {value : ℕ} (hvalue : value < 10) :
    isDigit 10 (decimalChar value) := by
  rw [isDigit_ten_iff]
  simp only [UInt8.le_iff_toNat_le, UInt8.reduceToNat, toNat_decimalChar hvalue]
  omega

theorem digitValue_decimalChar {value : ℕ} (hvalue : value < 10) :
    digitValue (decimalChar value) = value := by
  rw [digitValue_of_isDigit (isDigit_decimalChar hvalue), toNat_decimalChar hvalue]
  omega

/-- A printed number is a run of digits. -/
theorem run_decimalText (value : ℕ) : Run 10 (decimalText value) := by
  induction value using decimalText.induct with
  | case1 value hsmall =>
    rw [decimalText, if_pos hsmall]
    refine ⟨List.cons_ne_nil _ _, fun char hchar ↦ ?_⟩
    rw [List.mem_singleton.mp hchar]
    exact isDigit_decimalChar hsmall
  | case2 value hlarge ih =>
    rw [decimalText, if_neg hlarge]
    refine ⟨List.append_ne_nil_of_left_ne_nil ih.nonempty _, fun char hchar ↦ ?_⟩
    rcases List.mem_append.mp hchar with hfront | hlast
    · exact ih.digits char hfront
    · rw [List.mem_singleton.mp hlast]
      exact isDigit_decimalChar (Nat.mod_lt _ (by decide))

/-- The digits of a printed number have its value. -/
theorem ofDigits_decimalText (value : ℕ) : ofDigits 10 (decimalText value) = value := by
  induction value using decimalText.induct with
  | case1 value hsmall =>
    rw [decimalText, if_pos hsmall, ← List.nil_append [decimalChar value], ofDigits_snoc,
      digitValue_decimalChar hsmall]
    exact Nat.zero_add value
  | case2 value hlarge ih =>
    rw [decimalText, if_neg hlarge, ofDigits_snoc, ih,
      digitValue_decimalChar (Nat.mod_lt _ (by decide))]
    omega

end Libhoth.Foundation.DecimalText
