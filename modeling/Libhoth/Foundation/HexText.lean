import Libhoth.Foundation.NumberText

/-!
# Bytes as hexadecimal text

Two hexadecimal digits are a byte: `hexByteAt` is the byte at an index of a text of such pairs, and
`hexText` is the text that `printf` makes of bytes with `%02x`. `hexByteAt_hexText` is the round
trip.

`fillBytes` is the loop that the readers of such texts share: it stores one byte after another and
stops at the first that cannot be read. `scanHexDigit` is `sscanf` with the format `%01X`, which
skips blanks in front of the digit, and `strtoul_pair` is what `strtoul` makes of two characters.
-/

set_option autoImplicit false
set_option relaxedAutoImplicit false

namespace Libhoth.Foundation.HexText

open NumberText

/-! ### The byte of two digits -/

/-- The byte of two hexadecimal digits. -/
def hexByte (high low : UInt8) : UInt8 :=
  UInt8.ofNat (16 * digitValue high + digitValue low)

/-- The byte at an index of a text of pairs of digits. -/
def hexByteAt (text : List UInt8) (index : ℕ) : UInt8 :=
  hexByte (text.getD (2 * index) 0) (text.getD (2 * index + 1) 0)

/-- A text of hexadecimal digits. -/
def HexDigits (text : List UInt8) : Prop :=
  ∀ char ∈ text, isDigit 16 char

theorem digitValue_lt {char : UInt8} (hdigit : isDigit 16 char) : digitValue char < 16 :=
  of_decide_eq_true hdigit

/-- Only the character `0` has the value zero. -/
theorem digitValue_eq_zero_iff (char : UInt8) : digitValue char = 0 ↔ char = 0x30 := by
  unfold digitValue
  rw [← UInt8.toNat_inj]
  simp only [UInt8.le_iff_toNat_le, UInt8.reduceToNat]
  constructor
  · intro hzero
    split_ifs at hzero
    omega
  · intro hchar
    rw [if_pos (by omega)]
    omega

/-- The byte of two digits is zero only for two zeros. -/
theorem hexByte_eq_zero_iff {high low : UInt8} (hhigh : isDigit 16 high) (hlow : isDigit 16 low) :
    hexByte high low = 0 ↔ high = 0x30 ∧ low = 0x30 := by
  have h16 := digitValue_lt hhigh
  have l16 := digitValue_lt hlow
  rw [← digitValue_eq_zero_iff high, ← digitValue_eq_zero_iff low, hexByte, ← UInt8.toNat_inj,
    UInt8.toNat_ofNat', UInt8.toNat_zero, Nat.mod_eq_of_lt (by omega)]
  omega

/-! ### Bytes as text -/

/-- The digit that `%x` prints for a value below 16. -/
def hexChar (value : ℕ) : UInt8 :=
  if value < 10 then UInt8.ofNat (0x30 + value) else UInt8.ofNat (0x61 + (value - 10))

/-- Bytes printed with `%02x`. -/
def hexText (bytes : List UInt8) : List UInt8 :=
  bytes.flatMap fun byte ↦ [hexChar (byte.toNat / 16), hexChar (byte.toNat % 16)]

theorem digitValue_hexChar {value : ℕ} (hvalue : value < 16) :
    digitValue (hexChar value) = value := by
  unfold hexChar digitValue
  simp only [UInt8.le_iff_toNat_le, UInt8.toNat_ofNat]
  split_ifs <;> simp only [UInt8.toNat_ofNat'] at * <;> omega

theorem isDigit_hexChar {value : ℕ} (hvalue : value < 16) : isDigit 16 (hexChar value) := by
  rw [isDigit, digitValue_hexChar hvalue]
  exact decide_eq_true hvalue

@[simp] theorem hexText_cons (byte : UInt8) (bytes : List UInt8) :
    hexText (byte :: bytes) =
      hexChar (byte.toNat / 16) :: hexChar (byte.toNat % 16) :: hexText bytes :=
  rfl

theorem length_hexText (bytes : List UInt8) : (hexText bytes).length = 2 * bytes.length := by
  induction bytes with
  | nil => rfl
  | cons byte bytes ih =>
    rw [hexText_cons, List.length_cons, List.length_cons, List.length_cons, ih]
    omega

theorem hexDigits_hexText (bytes : List UInt8) : HexDigits (hexText bytes) := by
  intro char hchar
  obtain ⟨byte, -, hchar⟩ := List.mem_flatMap.mp hchar
  have hbyte := byte.toNat_lt
  rw [List.mem_cons, List.mem_singleton] at hchar
  rcases hchar with rfl | rfl
  · exact isDigit_hexChar (by omega)
  · exact isDigit_hexChar (by omega)

/-- A printed byte is read back. -/
theorem hexByte_hexChar (byte : UInt8) :
    hexByte (hexChar (byte.toNat / 16)) (hexChar (byte.toNat % 16)) = byte := by
  have hbyte := byte.toNat_lt
  rw [hexByte, digitValue_hexChar (by omega), digitValue_hexChar (by omega), Nat.div_add_mod,
    UInt8.ofNat_toNat]

/-- Printed bytes are read back. -/
theorem hexByteAt_hexText {bytes : List UInt8} {index : ℕ} (hindex : index < bytes.length) :
    hexByteAt (hexText bytes) index = bytes[index] := by
  induction bytes generalizing index with
  | nil => exact absurd hindex (Nat.not_lt_zero _)
  | cons byte bytes ih =>
    cases index with
    | zero => exact hexByte_hexChar byte
    | succ index =>
      rw [List.getElem_cons_succ, ← ih (Nat.lt_of_succ_lt_succ hindex)]
      rfl

/-! ### Storing bytes -/

/-- Store bytes from an index on: what is stored, and the error of the first byte that cannot be
read. A byte may be stored in its place before it is rejected. -/
def fillBytes {ε : Type*} {size : ℕ} (readByte : ℕ → Except ε UInt8) (rejected : Option UInt8) :
    ℕ → ℕ → Vector UInt8 size → Vector UInt8 size × Option ε
  | 0, _, out => (out, none)
  | count + 1, index, out =>
    match readByte index with
    | .error error => (rejected.elim out (out.setIfInBounds index), some error)
    | .ok byte => fillBytes readByte rejected count (index + 1) (out.setIfInBounds index byte)

section Fill

variable {ε : Type*} {size : ℕ} {readByte : ℕ → Except ε UInt8} {rejected : Option UInt8}

/-- The loop succeeds exactly when every byte can be read. -/
theorem fillBytes_eq_none_iff (count index : ℕ) (out : Vector UInt8 size) :
    (fillBytes readByte rejected count index out).2 = none ↔
      ∀ place, index ≤ place → place < index + count → ∃ byte, readByte place = .ok byte := by
  induction count generalizing index out with
  | zero =>
    refine iff_of_true rfl fun place hfrom hto ↦ ?_
    omega
  | succ count ih =>
    rw [fillBytes]
    cases hread : readByte index with
    | error error =>
      refine iff_of_false (Option.some_ne_none _) fun hall ↦ ?_
      obtain ⟨byte, hbyte⟩ := hall index le_rfl (by omega)
      rw [hread] at hbyte
      cases hbyte
    | ok byte =>
      dsimp only
      rw [ih]
      constructor
      · intro hall place hfrom hto
        rcases hfrom.eq_or_lt with rfl | hlater
        · exact ⟨byte, hread⟩
        · exact hall place hlater (by omega)
      · intro hall place hfrom hto
        exact hall place (by omega) (by omega)

/-- The error of the loop is that of a byte. -/
theorem exists_error_of_fillBytes {count index : ℕ} {out : Vector UInt8 size} {error : ε}
    (herror : (fillBytes readByte rejected count index out).2 = some error) :
    ∃ place, readByte place = .error error := by
  induction count generalizing index out with
  | zero => cases herror
  | succ count ih =>
    rw [fillBytes] at herror
    cases hread : readByte index with
    | error first =>
      rw [hread] at herror
      exact ⟨index, hread.trans (congrArg _ (Option.some.inj herror))⟩
    | ok byte =>
      rw [hread] at herror
      exact ih herror

/-- The loop leaves what lies outside. -/
theorem getElem_fillBytes_of_lt {count index : ℕ} {out : Vector UInt8 size} {place : ℕ}
    (hplace : place < size) (hbefore : place < index) :
    (fillBytes readByte rejected count index out).1[place] = out[place] := by
  induction count generalizing index out with
  | zero => rfl
  | succ count ih =>
    rw [fillBytes]
    cases hread : readByte index with
    | error error =>
      cases rejected with
      | none => rfl
      | some byte => exact Vector.getElem_setIfInBounds_ne hplace (by omega)
    | ok byte =>
      dsimp only
      rw [ih (by omega), Vector.getElem_setIfInBounds_ne hplace (by omega)]

/-- When the loop succeeds, each byte is stored at its index. -/
theorem getElem_fillBytes {count index : ℕ} {out : Vector UInt8 size}
    (hsuccess : (fillBytes readByte rejected count index out).2 = none) {place : ℕ} (hplace : place < size)
    (hfrom : index ≤ place) (hto : place < index + count) :
    readByte place = .ok (fillBytes readByte rejected count index out).1[place] := by
  induction count generalizing index out with
  | zero => omega
  | succ count ih =>
    rw [fillBytes] at hsuccess ⊢
    cases hread : readByte index with
    | error error =>
      rw [hread] at hsuccess
      cases hsuccess
    | ok byte =>
      rw [hread] at hsuccess
      dsimp only at hsuccess ⊢
      rcases hfrom.eq_or_lt with rfl | hlater
      · rw [getElem_fillBytes_of_lt hplace (by omega), Vector.getElem_setIfInBounds_self, hread]
      · exact ih hsuccess hlater (by omega)

end Fill

/-! ### Two characters read by strtoul -/

/-- A character that `strtoul` skips or takes for a sign in front of a digit. -/
def LeadsIn (char : UInt8) : Prop :=
  isSpace char ∨ char = 0x2B ∨ char = 0x2D

instance (char : UInt8) : Decidable (LeadsIn char) :=
  inferInstanceAs (Decidable (_ ∨ _))

/-- Two characters as a string: it ends in front of a zero. -/
def pairText (first second : UInt8) : List UInt8 :=
  [first, second].takeWhile (· ≠ 0)

theorem isDigit_ne_zero {char : UInt8} (hdigit : isDigit 16 char) : char ≠ 0 := by
  rintro rfl
  exact absurd hdigit (by decide)

theorem LeadsIn.ne_zero {char : UInt8} (hlead : LeadsIn char) : char ≠ 0 := by
  rintro rfl
  exact absurd hlead (by decide)

/-- The text of two characters of which the first is not the end. -/
theorem pairText_of_ne {first : UInt8} (hfirst : first ≠ 0) (second : UInt8) :
    pairText first second = first :: if second = 0 then [] else [second] := by
  by_cases hsecond : second = 0 <;> simp [pairText, hfirst, hsecond]

/-- The value that is found, when it is small. -/
theorem strtoul_of_numeral {base : ℕ} {text : List UInt8} {found : Numeral}
    (hfound : numeral base text = some found) (hsmall : found.value < 2 ^ 64) :
    (strtoul base text).1 =
      if found.negative then (2 ^ 64 - found.value) % 2 ^ 64 else found.value := by
  rw [strtoul, hfound]
  exact if_neg (not_le.mpr hsmall)

theorem run_singleton {char : UInt8} (hdigit : isDigit 16 char) : Run 16 [char] :=
  ⟨List.cons_ne_nil _ _, fun _ hchar ↦ List.mem_singleton.mp hchar ▸ hdigit⟩

/-- The value of two digits. -/
theorem strtoul_digits {first second : UInt8} (hfirst : isDigit 16 first)
    (hsecond : isDigit 16 second) :
    (strtoul 16 (pairText first second)).1 = 16 * digitValue first + digitValue second := by
  have hrun : Run 16 [first, second] := by
    refine ⟨List.cons_ne_nil _ _, fun char hchar ↦ ?_⟩
    rw [List.mem_cons, List.mem_singleton] at hchar
    rcases hchar with rfl | rfl
    · exact hfirst
    · exact hsecond
  have hvalue : ofDigits 16 [first, second] = 16 * digitValue first + digitValue second := by
    simp only [ofDigits, List.foldl_cons, List.foldl_nil]
    omega
  have hfirst16 := digitValue_lt hfirst
  have hsecond16 := digitValue_lt hsecond
  have hfound := numeral_padding (by decide) (padding_nil 16) hrun
  rw [List.nil_append, hvalue] at hfound
  rw [pairText_of_ne (isDigit_ne_zero hfirst), if_neg (isDigit_ne_zero hsecond),
    strtoul_of_numeral hfound (by show 16 * digitValue first + _ < _; omega)]
  rfl

/-- The value of a digit that something else follows. -/
theorem strtoul_digit_other {first second : UInt8} (hfirst : isDigit 16 first)
    (hsecond : isDigit 16 second = false) :
    (strtoul 16 (pairText first second)).1 = digitValue first := by
  have hvalue : ofDigits 16 [first] = digitValue first := by simp [ofDigits]
  have hfirst16 := digitValue_lt hfirst
  obtain ⟨hblank, hminus, hplus⟩ := isDigit_ne (by decide) hfirst
  have hfound (rest : List UInt8) (hshort : rest.length ≤ 1)
      (hrest : ∀ char ∈ rest.head?, isDigit 16 char = false) :
      numeral 16 (first :: rest) = some ⟨false, digitValue first, rest⟩ := by
    have hhead : ∀ char ∈ (first :: rest).head?, char = first :=
      fun char hchar ↦ (Option.some.inj hchar).symm
    have hsign := @takeSign_append [] false .missing (first :: rest)
      fun char hchar ↦ hhead char hchar ▸ ⟨hminus, hplus⟩
    have hmarker : dropMarker 16 (first :: rest) = first :: rest := by
      match rest, hshort with
      | [], _ => rfl
      | [_], _ => rfl
    obtain ⟨htake, hdrop⟩ := takeWhile_run (run_singleton hfirst) hrest
    rw [List.singleton_append] at htake hdrop
    rw [List.nil_append] at hsign
    rw [numeral, dropWhile_of_head fun char hchar ↦ hhead char hchar ▸ hblank, hsign, hmarker,
      htake, hdrop, hvalue, if_neg (List.cons_ne_nil _ _)]
  have hsmall : digitValue first < 2 ^ 64 := by omega
  rw [pairText_of_ne (isDigit_ne_zero hfirst)]
  by_cases hzero : second = 0
  · rw [if_pos hzero, strtoul_of_numeral (hfound [] (by decide) (by simp)) hsmall]
    rfl
  · rw [if_neg hzero, strtoul_of_numeral
      (hfound [second] (by simp) fun char hchar ↦ Option.some.inj hchar ▸ hsecond) hsmall]
    rfl

/-- What leads in to a digit is a padding. -/
theorem LeadsIn.padding {char : UInt8} (hlead : LeadsIn char) :
    Padding 16 [char] (char = 0x2D) := by
  rcases hlead with hspace | rfl | rfl
  · refine ⟨[char], [], [], rfl, fun _ hchar ↦ List.mem_singleton.mp hchar ▸ hspace, ?_, .missing⟩
    have hminus : char ≠ 0x2D := by
      rintro rfl
      exact absurd hspace (by decide)
    rw [decide_eq_false hminus]
    exact .missing
  · exact ⟨[], [0x2B], [], rfl, by simp, .plus, .missing⟩
  · exact ⟨[], [0x2D], [], rfl, by simp, .minus, .missing⟩

/-- The value of a digit behind a blank or a sign, where a minus negates it. -/
theorem strtoul_lead_digit {first second : UInt8} (hfirst : LeadsIn first)
    (hsecond : isDigit 16 second) :
    (strtoul 16 (pairText first second)).1 =
      if first = 0x2D then (2 ^ 64 - digitValue second) % 2 ^ 64 else digitValue second := by
  have hvalue : ofDigits 16 [second] = digitValue second := by simp [ofDigits]
  have hsecond16 := digitValue_lt hsecond
  have hfound := numeral_padding (by decide) hfirst.padding (run_singleton hsecond)
  rw [List.singleton_append, hvalue] at hfound
  rw [pairText_of_ne hfirst.ne_zero, if_neg (isDigit_ne_zero hsecond),
    strtoul_of_numeral hfound (by show digitValue second < _; omega)]
  simp only [decide_eq_true_eq]

/-- A padding of one character leads in. -/
theorem leadsIn_of_padding {char : UInt8} {negative : Bool}
    (hpadding : Padding 16 [char] negative) :
    LeadsIn char := by
  obtain ⟨blanks, sign, marker, hsplit, hblanks, hsign, hmarker⟩ := hpadding
  cases blanks with
  | cons blank blanks =>
    obtain rfl : char = blank := (List.cons.inj hsplit).1
    exact .inl (hblanks char List.mem_cons_self)
  | nil =>
    cases hsign with
    | plus => exact .inr (.inl (List.cons.inj hsplit).1)
    | minus => exact .inr (.inr (List.cons.inj hsplit).1)
    | missing =>
      cases hmarker with
      | missing => cases hsplit
      | present => cases hsplit

/-- Without a digit in its place there is no value. -/
theorem strtoul_other {first second : UInt8} (hfirst : isDigit 16 first = false)
    (hneither : ¬(LeadsIn first ∧ isDigit 16 second)) :
    (strtoul 16 (pairText first second)).1 = 0 := by
  have hnone : numeral 16 (pairText first second) = none := by
    by_contra hsome
    obtain ⟨found, hfound⟩ := Option.ne_none_iff_exists'.mp hsome
    obtain ⟨padding, digits, hpadding, ⟨hnonempty, hdigits⟩, htext⟩ :=
      exists_padding_of_numeral hfound
    obtain ⟨digit, digits, rfl⟩ := List.exists_cons_of_ne_nil hnonempty
    have hdigit := hdigits digit List.mem_cons_self
    have hzero : first ≠ 0 := by
      rintro rfl
      have hlength := congrArg List.length htext
      simp [pairText] at hlength
    rw [pairText_of_ne hzero] at htext
    cases padding with
    | nil =>
      rw [(List.cons.inj htext).1, hdigit] at hfirst
      cases hfirst
    | cons char padding =>
      obtain ⟨rfl, htail⟩ := List.cons.inj htext
      split_ifs at htail
      · simp at htail
      · cases padding with
        | nil =>
          obtain ⟨rfl, -⟩ := List.cons.inj htail
          exact hneither ⟨leadsIn_of_padding hpadding, hdigit⟩
        | cons => simp at htail
  rw [strtoul, hnone]

/-! ### One digit read by sscanf -/

/-- `sscanf` with the format `%01X`: the value of the digit behind the blanks. -/
def scanHexDigit (text : List UInt8) : Option ℕ :=
  match text.dropWhile isSpace with
  | [] => none
  | char :: _ => if isDigit 16 char then some (digitValue char) else none

theorem scanHexDigit_nil : scanHexDigit [] = none :=
  rfl

/-- A digit in its place is read. -/
theorem scanHexDigit_of_digit {char : UInt8} (hdigit : isDigit 16 char) (rest : List UInt8) :
    scanHexDigit (char :: rest) = some (digitValue char) := by
  have hspace := (isDigit_ne (by decide) hdigit).1
  rw [scanHexDigit, dropWhile_of_head fun other hother ↦ Option.some.inj hother ▸ hspace]
  exact if_pos hdigit

/-- A blank is skipped. -/
theorem scanHexDigit_of_space {char : UInt8} (hspace : isSpace char) (rest : List UInt8) :
    scanHexDigit (char :: rest) = scanHexDigit rest := by
  rw [scanHexDigit, List.dropWhile_cons_of_pos hspace]
  rfl

/-- What is neither a blank nor a digit is not read. -/
theorem scanHexDigit_of_other {char : UInt8} (hspace : ¬isSpace char) (hdigit : ¬isDigit 16 char)
    (rest : List UInt8) : scanHexDigit (char :: rest) = none := by
  rw [scanHexDigit, List.dropWhile_cons_of_neg hspace]
  exact if_neg hdigit

/-- With a digit behind it, a character can be read from exactly when it is a blank or a digit. -/
theorem isSome_scanHexDigit_cons_iff {char : UInt8} {rest : List UInt8}
    (hrest : (scanHexDigit rest).isSome) :
    (scanHexDigit (char :: rest)).isSome ↔ isSpace char ∨ isDigit 16 char := by
  by_cases hspace : isSpace char
  · rw [scanHexDigit_of_space hspace]
    exact iff_of_true hrest (.inl hspace)
  · by_cases hdigit : isDigit 16 char
    · rw [scanHexDigit_of_digit hdigit]
      exact iff_of_true rfl (.inr hdigit)
    · rw [scanHexDigit_of_other hspace hdigit]
      simp [hspace, hdigit]

/-- A digit can be read in every place of a text exactly when the text consists of blanks and digits
and ends in a digit. -/
theorem forall_scanHexDigit_iff (text : List UInt8) :
    (∀ index, index < text.length → (scanHexDigit (text.drop index)).isSome) ↔
      (∀ char ∈ text, isSpace char ∨ isDigit 16 char) ∧
        ∀ last ∈ text.getLast?, isDigit 16 last := by
  induction text with
  | nil => simp
  | cons char rest ih =>
    have hplaces : (∀ index, index < (char :: rest).length →
        (scanHexDigit ((char :: rest).drop index)).isSome) ↔
        (scanHexDigit (char :: rest)).isSome ∧
          ∀ index, index < rest.length → (scanHexDigit (rest.drop index)).isSome := by
      constructor
      · intro hall
        exact ⟨hall 0 (Nat.succ_pos _), fun index hindex ↦
          hall (index + 1) (Nat.succ_lt_succ hindex)⟩
      · rintro ⟨hfirst, hrest⟩ index hindex
        cases index with
        | zero => exact hfirst
        | succ index => exact hrest index (Nat.lt_of_succ_lt_succ hindex)
    rw [hplaces, List.forall_mem_cons]
    cases rest with
    | nil =>
      by_cases hspace : isSpace char
      · have hdigit : ¬isDigit 16 char := by
          intro hdigit
          rw [(isDigit_ne (by decide) hdigit).1] at hspace
          cases hspace
        simp [scanHexDigit_of_space hspace, scanHexDigit_nil, hdigit]
      · by_cases hdigit : isDigit 16 char
        · simp [scanHexDigit_of_digit hdigit, hdigit]
        · simp [scanHexDigit_of_other hspace hdigit, hdigit]
    | cons next rest =>
      rw [List.getLast?_cons_cons, ih, and_assoc]
      refine ⟨?_, ?_⟩
      · rintro ⟨hfirst, hrest⟩
        exact ⟨(isSome_scanHexDigit_cons_iff (ih.mpr hrest 0 (Nat.succ_pos _))).mp hfirst, hrest⟩
      · rintro ⟨hchar, hrest⟩
        exact ⟨(isSome_scanHexDigit_cons_iff (ih.mpr hrest 0 (Nat.succ_pos _))).mpr hchar, hrest⟩

end Libhoth.Foundation.HexText
