import Libhoth.Foundation.ByteString
import Libhoth.Foundation.HexText

/-!
# The three readers of hexadecimal text

Authorization records (`authz_record.c`), measurements (`htool_srtm.c`) and authorized commands
(`htool_authz_command.c`) are given to the tool as text with two digits for a byte. The commands go
through a table of digits, the records through `strtoul` two characters at a time, and the
measurements through `sscanf` one character at a time.

`Decodes` is what all three are for: a text is accepted exactly when it has an admitted length and
consists of digits, and then the bytes are those of the digits. The commands are read so.
`MisreadRecord` and `MisreadMeasurement` are the texts that the other two accept besides, and
`hexDecoders_iff` says that these are all.
-/

set_option autoImplicit false
set_option relaxedAutoImplicit false

namespace Libhoth.Examples.HexDecoders

open Foundation.ByteString Foundation.NumberText Foundation.HexText

/-- Why a text is rejected. -/
inductive HexError
  | badLength (actual expected : ℕ)
  | noMeasurement
  | oddLength (actual : ℕ)
  | tooLong (actual maximum : ℕ)
  | invalidByte (index : ℕ)
  | invalidDigit (char : UInt8)
  | payload (size : ℕ)

/-! ### Records -/

/-- `AUTHORIZATION_RECORD_SIZE`. -/
def authorizationRecordSize : ℕ := 464

/-- The bytes of `struct authorization_record`. -/
abbrev AuthorizationRecord := Vector UInt8 authorizationRecordSize

/-- What `libhoth_authorization_record_print_hex_string` prints. -/
def libhothAuthorizationRecordPrintHexString (record : AuthorizationRecord) : List UInt8 :=
  hexText record.toList ++ [0x0A]

/-- One byte of a record: zero says that `strtoul` found no number, unless it is written so. -/
def recordByte (buf : List UInt8) (index : ℕ) : Except HexError UInt8 :=
  let first := buf.getD (2 * index) 0
  let second := buf.getD (2 * index + 1) 0
  let byte := UInt8.ofNat (strtoul 16 (pairText first second)).1
  if byte = 0 ∧ (first ≠ 0x30 ∨ second ≠ 0x30) then .error (.invalidByte index) else .ok byte

/-- `libhoth_authorization_record_from_hex_string`. A byte that is rejected is zero, and stored. -/
def libhothAuthorizationRecordFromHexString (record : AuthorizationRecord) (buf : List UInt8) :
    AuthorizationRecord × Option HexError :=
  if buf.length ≠ 2 * authorizationRecordSize then
    (record, some (.badLength buf.length (2 * authorizationRecordSize)))
  else fillBytes (recordByte buf) (some 0) authorizationRecordSize 0 record

/-! ### Measurements -/

/-- `SRTM_DATA_MAX_SIZE_BYTES`. -/
def srtmDataMaxSizeBytes : ℕ := 64

/-- `struct hoth_srtm_request`. -/
structure HothSrtmRequest where
  dataSize : ℕ
  data : Vector UInt8 srtmDataMaxSizeBytes

/-- One byte of a measurement. -/
def measurementByte (measurement : List UInt8) (index : ℕ) : Except HexError UInt8 :=
  match scanHexDigit (measurement.drop (2 * index)) with
  | none => .error (.invalidDigit (measurement.getD (2 * index) 0))
  | some firstNibble =>
    match scanHexDigit (measurement.drop (2 * index + 1)) with
    | none => .error (.invalidDigit (measurement.getD (2 * index + 1) 0))
    | some secondNibble => .ok (UInt8.ofNat (firstNibble <<< 4 ||| secondNibble))

/-- `srtm_request_from_hex_measurement`. -/
def srtmRequestFromHexMeasurement (request : HothSrtmRequest) (measurement : List UInt8) :
    HothSrtmRequest × Option HexError :=
  let hexLength := measurement.length
  if hexLength = 0 then (request, some .noMeasurement)
  else if hexLength % 2 = 1 then (request, some (.oddLength hexLength))
  else if hexLength > srtmDataMaxSizeBytes * 2 then
    (request, some (.tooLong hexLength (srtmDataMaxSizeBytes * 2)))
  else
    match fillBytes (measurementByte measurement) none (hexLength / 2) 0 request.data with
    | (data, some error) => (⟨request.dataSize, data⟩, some error)
    | (data, none) => (⟨hexLength / 2, data⟩, none)

/-! ### Commands -/

/-- The size of `struct hoth_authorized_command_request`. -/
def authorizedCommandSize : ℕ := 120

/-- `parse_nibble`. -/
def parseNibble (char : UInt8) : UInt8 :=
  if char ≥ 0x30 ∧ char ≤ 0x39 then char - 0x30
  else if char ≥ 0x61 ∧ char ≤ 0x66 then char - 0x61 + 0xa
  else if char ≥ 0x41 ∧ char ≤ 0x46 then char - 0x41 + 0xa
  else 0xff

/-- One byte of a command. -/
def commandByte (hexstring : List UInt8) (index : ℕ) : Except HexError UInt8 :=
  let nibble0 := parseNibble (hexstring.getD (2 * index) 0)
  let nibble1 := parseNibble (hexstring.getD (2 * index + 1) 0)
  if nibble0 = 0xff ∨ nibble1 = 0xff then .error (.invalidByte index)
  else .ok (nibble0 <<< 4 ||| nibble1)

/-- `authz_command_hex_to_struct`. The size that the command declares stands at offset 68. -/
def authzCommandHexToStruct (hexstring : List UInt8)
    (request : Vector UInt8 authorizedCommandSize) :
    Vector UInt8 authorizedCommandSize × Option HexError :=
  if hexstring.length ≠ 2 * authorizedCommandSize then
    (request, some (.badLength hexstring.length (2 * authorizedCommandSize)))
  else
    match fillBytes (commandByte hexstring) none authorizedCommandSize 0 request with
    | (out, some error) => (out, some error)
    | (out, none) =>
      let size := wordAt out.toList 68 4
      if size > authorizedCommandSize then (out, some (.payload (size - authorizedCommandSize)))
      else (out, none)

/-! ### What they are for -/

/-- A reader accepts a text exactly when it has an admitted length and consists of digits, and then
it stores the bytes of the digits. -/
structure Decodes (Admitted : ℕ → Prop) (text : List UInt8) {size : ℕ} (out : Vector UInt8 size)
    (accepted : Prop) : Prop where
  accepted_iff : accepted ↔ Admitted text.length ∧ HexDigits text
  bytes : accepted → ∀ index, 2 * index < text.length →
    out.toList[index]? = some (UInt8.ofNat
      (16 * digitValue (text.getD (2 * index) 0) + digitValue (text.getD (2 * index + 1) 0)))

/-- What the reader of records is for. -/
def DecodesRecord (record : AuthorizationRecord) (text : List UInt8) : Prop :=
  Decodes (· = 928) text (libhothAuthorizationRecordFromHexString record text).1
    ((libhothAuthorizationRecordFromHexString record text).2 = none)

/-- The lengths of a measurement. -/
def MeasurementLength (length : ℕ) : Prop :=
  length ≠ 0 ∧ length % 2 = 0 ∧ length ≤ 128

/-- What the reader of measurements is for. -/
def DecodesMeasurement (request : HothSrtmRequest) (text : List UInt8) : Prop :=
  Decodes MeasurementLength text
    (srtmRequestFromHexMeasurement request text).1.data
    ((srtmRequestFromHexMeasurement request text).2 = none)

/-- What the reader of commands is for, when the size that a command declares is left aside. -/
def DecodesCommand (command : Vector UInt8 authorizedCommandSize) (text : List UInt8) : Prop :=
  Decodes (· = 240) text (authzCommandHexToStruct text command).1
    (∀ error ∈ (authzCommandHexToStruct text command).2, ∃ size, error = .payload size)

/-! ### Pairs of digits -/

section Pairs

variable {text : List UInt8} {count : ℕ}

/-- The two characters at an index are digits. -/
def DigitPair (text : List UInt8) (index : ℕ) : Prop :=
  isDigit 16 (text.getD (2 * index) 0) ∧ isDigit 16 (text.getD (2 * index + 1) 0)

/-- A text of whole pairs consists of digits exactly when each pair does. -/
theorem hexDigits_iff_pairs (hlength : text.length = 2 * count) :
    HexDigits text ↔ ∀ index, index < count → DigitPair text index := by
  have hgetD {place : ℕ} (hplace : place < text.length) : text.getD place 0 = text[place] :=
    (List.getElem_eq_getD 0).symm
  constructor
  · intro hdigits index hindex
    have hfirst : 2 * index < text.length := by omega
    have hsecond : 2 * index + 1 < text.length := by omega
    unfold DigitPair
    rw [hgetD hfirst, hgetD hsecond]
    exact ⟨hdigits _ (List.getElem_mem hfirst), hdigits _ (List.getElem_mem hsecond)⟩
  · intro hpairs char hchar
    obtain ⟨place, hplace, rfl⟩ := List.mem_iff_getElem.mp hchar
    obtain ⟨hfirst, hsecond⟩ := hpairs (place / 2) (by omega)
    rcases Nat.mod_two_eq_zero_or_one place with heven | hodd
    · rwa [show 2 * (place / 2) = place by omega, hgetD hplace] at hfirst
    · rwa [show 2 * (place / 2) + 1 = place by omega, hgetD hplace] at hsecond

/-- A loop that reads the byte of each pair of digits decodes a text exactly when it takes nothing
but digits. -/
theorem decodes_fillBytes_iff {Admitted : ℕ → Prop} {size : ℕ} {out : Vector UInt8 size}
    {readByte : ℕ → Except HexError UInt8} {rejected : Option UInt8}
    (hlength : text.length = 2 * count) (hcount : count ≤ size)
    (hadmitted : Admitted text.length)
    (hread : ∀ index, DigitPair text index → readByte index = .ok (hexByteAt text index)) :
    Decodes Admitted text (fillBytes readByte rejected count 0 out).1
        ((fillBytes readByte rejected count 0 out).2 = none) ↔
      ((fillBytes readByte rejected count 0 out).2 = none → HexDigits text) := by
  constructor
  · intro hdecodes haccepted
    exact (hdecodes.accepted_iff.mp haccepted).2
  · intro hdigits
    have hpairs := hexDigits_iff_pairs hlength
    refine ⟨⟨fun haccepted ↦ ⟨hadmitted, hdigits haccepted⟩, ?_⟩, ?_⟩
    · rintro ⟨-, htext⟩
      rw [fillBytes_eq_none_iff]
      exact fun place _ hplace ↦ ⟨_, hread place (hpairs.mp htext place (by omega))⟩
    · intro haccepted index hindex
      have hpair := hpairs.mp (hdigits haccepted) index (by omega)
      have hstored := getElem_fillBytes haccepted (by omega : index < size) (Nat.zero_le _)
        (by omega)
      rw [hread index hpair, Except.ok.injEq] at hstored
      rw [List.getElem?_eq_getElem (by rw [Vector.length_toList]; omega), Vector.getElem_toList,
        ← hstored]
      rfl

end Pairs

/-! ### What a record is read from -/

/-- Two characters that are not two digits and that `strtoul` still finds a number in: a digit
behind a blank or a sign, or one in front of something else. -/
def MisreadPair (text : List UInt8) (index : ℕ) : Prop :=
  LeadsIn (text.getD (2 * index) 0) ∧ isDigit 16 (text.getD (2 * index + 1) 0) ∧
      text.getD (2 * index + 1) 0 ≠ 0x30 ∨
    isDigit 16 (text.getD (2 * index) 0) ∧ text.getD (2 * index) 0 ≠ 0x30 ∧
      isDigit 16 (text.getD (2 * index + 1) 0) = false

/-- Two digits are read. -/
theorem recordByte_of_digitPair (text : List UInt8) (index : ℕ) (hpair : DigitPair text index) :
    recordByte text index = .ok (hexByteAt text index) := by
  obtain ⟨hfirst, hsecond⟩ := hpair
  have hbyte : UInt8.ofNat
      (strtoul 16 (pairText (text.getD (2 * index) 0) (text.getD (2 * index + 1) 0))).1 =
        hexByteAt text index := by
    rw [strtoul_digits hfirst hsecond]
    rfl
  unfold recordByte
  dsimp only
  rw [hbyte, if_neg]
  rintro ⟨hzero, hnot⟩
  obtain ⟨hhigh, hlow⟩ := (hexByte_eq_zero_iff hfirst hsecond).mp hzero
  exact hnot.elim (fun hne ↦ hne hhigh) fun hne ↦ hne hlow

/-- A small value is zero as a byte exactly when it is zero, also when it is negated. -/
theorem ofNat_eq_zero_iff {value : ℕ} (hvalue : value < 16) (negative : Bool) :
    UInt8.ofNat (if negative then (2 ^ 64 - value) % 2 ^ 64 else value) = 0 ↔ value = 0 := by
  rw [← UInt8.toNat_inj, UInt8.toNat_ofNat', UInt8.toNat_zero]
  cases negative <;> simp <;> omega

/-- Of other characters, those are read that have a number which is not zero. -/
theorem recordByte_eq_ok_iff {text : List UInt8} {index : ℕ} (hpair : ¬DigitPair text index) :
    (∃ byte, recordByte text index = .ok byte) ↔ MisreadPair text index := by
  unfold recordByte MisreadPair
  unfold DigitPair at hpair
  dsimp only
  generalize text.getD (2 * index) 0 = first at hpair ⊢
  generalize text.getD (2 * index + 1) 0 = second at hpair ⊢
  have hnot : first ≠ 0x30 ∨ second ≠ 0x30 := by
    by_contra hzeros
    rw [not_or, not_not, not_not] at hzeros
    rw [hzeros.1, hzeros.2] at hpair
    exact hpair (by decide)
  have hok (byte : UInt8) :
      (∃ read, (if byte = 0 ∧ (first ≠ 0x30 ∨ second ≠ 0x30) then
        Except.error (HexError.invalidByte index) else Except.ok byte) = .ok read) ↔ byte ≠ 0 := by
    by_cases hzero : byte = 0
    · simp [hzero, hnot]
    · simp [hzero]
  rw [hok]
  by_cases hfirst : isDigit 16 first
  · have hsecond : isDigit 16 second = false := by
      rw [← Bool.not_eq_true]
      exact fun hsecond ↦ hpair ⟨hfirst, hsecond⟩
    have hzero := ofNat_eq_zero_iff (digitValue_lt hfirst) false
    rw [if_neg Bool.false_ne_true] at hzero
    rw [strtoul_digit_other hfirst hsecond, ne_eq, hzero, digitValue_eq_zero_iff]
    simp [hfirst, hsecond]
  · rw [Bool.not_eq_true] at hfirst
    by_cases hlead : LeadsIn first ∧ isDigit 16 second
    · have hzero := ofNat_eq_zero_iff (digitValue_lt hlead.2) (first = 0x2D)
      rw [strtoul_lead_digit hlead.1 hlead.2, ne_eq]
      simp only [decide_eq_true_eq] at hzero
      rw [hzero, digitValue_eq_zero_iff]
      simp [hfirst, hlead]
    · rw [strtoul_other hfirst hlead]
      refine iff_of_false (not_not.mpr rfl) ?_
      rintro (⟨hleads, hsecond, -⟩ | ⟨hdigit, -⟩)
      · exact hlead ⟨hleads, hsecond⟩
      · rw [hdigit] at hfirst
        cases hfirst

/-- The texts that are read as a record without being one: some pair is no pair of digits, and
`strtoul` finds a number in each of these. -/
def MisreadRecord (text : List UInt8) : Prop :=
  text.length = 928 ∧
    (∀ index, index < 464 → DigitPair text index ∨ MisreadPair text index) ∧
      ∃ index, index < 464 ∧ MisreadPair text index

/-- A plus and a digit in front of digits are misread. -/
theorem misreadRecord_of_plus {digits : List UInt8} (hlength : digits.length = 926)
    (hdigits : HexDigits digits) : MisreadRecord (0x2B :: 0x31 :: digits) := by
  have hpairs := (hexDigits_iff_pairs (hlength.trans (by decide : 926 = 2 * 463))).mp hdigits
  have hplus : MisreadPair (0x2B :: 0x31 :: digits) 0 :=
    .inl ⟨.inr (.inl rfl), rfl, (by decide : (0x31 : UInt8) ≠ 0x30)⟩
  refine ⟨by rw [List.length_cons, List.length_cons, hlength], fun index hindex ↦ ?_, 0,
    by decide, hplus⟩
  cases index with
  | zero => exact .inr hplus
  | succ index => exact .inl (hpairs index (by omega))

/-- No two digits are misread. -/
theorem MisreadPair.not_digitPair {text : List UInt8} {index : ℕ}
    (hmisread : MisreadPair text index) : ¬DigitPair text index := by
  rintro ⟨hfirst, hsecond⟩
  rcases hmisread with ⟨hlead, -⟩ | ⟨-, -, hother⟩
  · obtain ⟨hspace, hminus, hplus⟩ := isDigit_ne (by decide) hfirst
    rcases hlead with hlead | hlead | hlead
    · rw [hspace] at hlead
      cases hlead
    · exact hplus hlead
    · exact hminus hlead
  · rw [hsecond] at hother
    cases hother

/-- A text of another length is rejected. -/
theorem Decodes.of_rejected {Admitted : ℕ → Prop} {text : List UInt8} {size : ℕ}
    {out : Vector UInt8 size} {accepted : Prop} (hrejected : ¬accepted)
    (hlength : ¬Admitted text.length) : Decodes Admitted text out accepted where
  accepted_iff := iff_of_false hrejected fun hadmitted ↦ hlength hadmitted.1
  bytes := fun haccepted ↦ absurd haccepted hrejected

theorem Decodes.of_iff {Admitted : ℕ → Prop} {text : List UInt8} {size : ℕ}
    {out : Vector UInt8 size} {accepted other : Prop}
    (hdecodes : Decodes Admitted text out accepted)
    (hiff : accepted ↔ other) : Decodes Admitted text out other where
  accepted_iff := hiff.symm.trans hdecodes.accepted_iff
  bytes := fun hother ↦ hdecodes.bytes (hiff.mpr hother)

/-- Records are read as they are for all texts but those. -/
theorem decodesRecord_iff (record : AuthorizationRecord) (text : List UInt8) :
    DecodesRecord record text ↔ ¬MisreadRecord text := by
  unfold DecodesRecord libhothAuthorizationRecordFromHexString
  by_cases hlength : text.length = 928
  · have htext : text.length = 2 * authorizationRecordSize := hlength
    have hbyte (index : ℕ) : (∃ byte, recordByte text index = .ok byte) ↔
        DigitPair text index ∨ MisreadPair text index := by
      by_cases hpair : DigitPair text index
      · exact iff_of_true ⟨_, recordByte_of_digitPair text index hpair⟩ (.inl hpair)
      · rw [recordByte_eq_ok_iff hpair, or_iff_right hpair]
    rw [if_neg (not_not.mpr htext), decodes_fillBytes_iff htext le_rfl hlength
      (recordByte_of_digitPair text), fillBytes_eq_none_iff, hexDigits_iff_pairs htext]
    simp only [hbyte, Nat.zero_le, Nat.zero_add, true_implies]
    constructor
    · rintro hdigits ⟨-, hall, index, hindex, hmisread⟩
      exact hmisread.not_digitPair (hdigits hall index hindex)
    · intro hnot hall index hindex
      by_contra hpair
      exact hnot ⟨hlength, hall, index, hindex, (hall index hindex).resolve_left hpair⟩
  · rw [if_pos (show text.length ≠ 2 * authorizationRecordSize from hlength)]
    exact iff_of_true (.of_rejected (Option.some_ne_none _) hlength)
      fun hmisread ↦ hlength hmisread.1

/-! ### What a measurement is read from -/

/-- The texts that are read as a measurement without being one: there are blanks among the digits,
and a digit behind them. -/
def MisreadMeasurement (text : List UInt8) : Prop :=
  MeasurementLength text.length ∧ (∀ char ∈ text, isSpace char ∨ isDigit 16 char) ∧
    (∀ last ∈ text.getLast?, isDigit 16 last) ∧ ∃ char ∈ text, isSpace char

/-- Two values below 16 as a byte. -/
theorem shiftLeft_or_eq {low : ℕ} (hlow : low < 16) (high : ℕ) :
    high <<< 4 ||| low = 16 * high + low := by
  rw [← Nat.shiftLeft_add_eq_or_of_lt (i := 4) hlow, Nat.shiftLeft_eq]
  omega

/-- A byte is read exactly when a digit is read in both places. -/
theorem measurementByte_eq_ok_iff (text : List UInt8) (index : ℕ) :
    (∃ byte, measurementByte text index = .ok byte) ↔
      (scanHexDigit (text.drop (2 * index))).isSome ∧
        (scanHexDigit (text.drop (2 * index + 1))).isSome := by
  unfold measurementByte
  cases scanHexDigit (text.drop (2 * index)) <;>
    cases scanHexDigit (text.drop (2 * index + 1)) <;> simp

/-- There is a digit only in a place of the text. -/
theorem lt_of_isDigit_getD {text : List UInt8} {place : ℕ}
    (hdigit : isDigit 16 (text.getD place 0)) :
    place < text.length := by
  by_contra hplace
  rw [List.getD_eq_getElem?_getD, List.getElem?_eq_none (not_lt.mp hplace)] at hdigit
  exact absurd hdigit (by decide)

/-- Two digits are read. -/
theorem measurementByte_of_digitPair (text : List UInt8) (index : ℕ)
    (hpair : DigitPair text index) :
    measurementByte text index = .ok (hexByteAt text index) := by
  obtain ⟨hfirst, hsecond⟩ := hpair
  have hscan {place : ℕ} (hdigit : isDigit 16 (text.getD place 0)) :
      scanHexDigit (text.drop place) = some (digitValue (text.getD place 0)) := by
    have hplace := lt_of_isDigit_getD hdigit
    rw [← List.getElem_eq_getD (h := hplace)] at hdigit ⊢
    rw [List.drop_eq_getElem_cons hplace, scanHexDigit_of_digit hdigit]
  unfold measurementByte
  rw [hscan hfirst, hscan hsecond]
  dsimp only
  rw [shiftLeft_or_eq (digitValue_lt hsecond)]
  rfl

/-- The loop over a measurement succeeds exactly when a digit is read in every place. -/
theorem measurement_accepted_iff {text : List UInt8} {count size : ℕ}
    (hlength : text.length = 2 * count) (out : Vector UInt8 size) :
    (fillBytes (measurementByte text) none count 0 out).2 = none ↔
      (∀ char ∈ text, isSpace char ∨ isDigit 16 char) ∧
        ∀ last ∈ text.getLast?, isDigit 16 last := by
  rw [fillBytes_eq_none_iff, ← forall_scanHexDigit_iff]
  simp only [measurementByte_eq_ok_iff]
  constructor
  · intro hpairs place hplace
    obtain ⟨hfirst, hsecond⟩ := hpairs (place / 2) (Nat.zero_le _) (by omega)
    rcases Nat.mod_two_eq_zero_or_one place with heven | hodd
    · rwa [show 2 * (place / 2) = place by omega] at hfirst
    · rwa [show 2 * (place / 2) + 1 = place by omega] at hsecond
  · intro hplaces index _ hindex
    exact ⟨hplaces (2 * index) (by omega), hplaces (2 * index + 1) (by omega)⟩

/-- Among blanks and digits, a text consists of digits exactly when it has no blank. -/
theorem hexDigits_iff_of_blanks {text : List UInt8}
    (hchars : ∀ char ∈ text, isSpace char ∨ isDigit 16 char) :
    HexDigits text ↔ ¬∃ char ∈ text, isSpace char := by
  constructor
  · rintro hdigits ⟨char, hchar, hspace⟩
    rw [(isDigit_ne (by decide) (hdigits char hchar)).1] at hspace
    cases hspace
  · intro hnone char hchar
    exact (hchars char hchar).resolve_left fun hspace ↦ hnone ⟨char, hchar, hspace⟩

/-- Measurements are read as they are for all texts but those. -/
theorem decodesMeasurement_iff (request : HothSrtmRequest) (text : List UInt8) :
    DecodesMeasurement request text ↔ ¬MisreadMeasurement text := by
  by_cases hadmitted : MeasurementLength text.length
  · have ⟨hsome, heven, hmaximum⟩ := hadmitted
    have hlength : text.length = 2 * (text.length / 2) := by omega
    have hcount : text.length / 2 ≤ srtmDataMaxSizeBytes := by
      unfold srtmDataMaxSizeBytes
      omega
    have hshort : ¬text.length > srtmDataMaxSizeBytes * 2 := not_lt.mpr hmaximum
    have hloop : ((srtmRequestFromHexMeasurement request text).1.data,
        (srtmRequestFromHexMeasurement request text).2) =
          fillBytes (measurementByte text) none (text.length / 2) 0 request.data := by
      unfold srtmRequestFromHexMeasurement
      dsimp only
      rw [if_neg hsome, if_neg (by omega), if_neg hshort]
      split <;> rename_i heq <;> rw [heq]
    obtain ⟨hdata, herror⟩ := Prod.mk.inj hloop
    unfold DecodesMeasurement
    rw [hdata, herror, decodes_fillBytes_iff hlength hcount hadmitted
      (measurementByte_of_digitPair text), measurement_accepted_iff hlength]
    constructor
    · rintro hdigits ⟨-, hchars, hlast, hspace⟩
      exact (hexDigits_iff_of_blanks hchars).mp (hdigits ⟨hchars, hlast⟩) hspace
    · rintro hnot ⟨hchars, hlast⟩
      exact (hexDigits_iff_of_blanks hchars).mpr fun hspace ↦
        hnot ⟨hadmitted, hchars, hlast, hspace⟩
  · have hrejected : (srtmRequestFromHexMeasurement request text).2 ≠ none := by
      unfold srtmRequestFromHexMeasurement
      dsimp only
      split_ifs with hzero hodd hlong
      · exact Option.some_ne_none _
      · exact Option.some_ne_none _
      · exact Option.some_ne_none _
      · exact absurd ⟨hzero, by omega, not_lt.mp hlong⟩ hadmitted
    exact iff_of_true (.of_rejected hrejected hadmitted) fun hmisread ↦ hadmitted hmisread.1

/-! ### What a command is read from -/

/-- `parse_nibble` is the table of the digits. -/
theorem toNat_parseNibble (char : UInt8) :
    (parseNibble char).toNat = if isDigit 16 char then digitValue char else 0xff := by
  have hchar := char.toNat_lt
  unfold parseNibble isDigit digitValue
  simp only [ge_iff_le, UInt8.le_iff_toNat_le, UInt8.reduceToNat, decide_eq_true_eq]
  split_ifs <;> simp only [UInt8.toNat_add, UInt8.toNat_sub, UInt8.reduceToNat] <;> omega

/-- It says which characters are no digits. -/
theorem parseNibble_eq_invalid_iff (char : UInt8) : parseNibble char = 0xff ↔ ¬isDigit 16 char := by
  rw [← UInt8.toNat_inj, toNat_parseNibble]
  split_ifs with hdigit
  · have hvalue := digitValue_lt hdigit
    refine iff_of_false (fun heq ↦ ?_) (not_not.mpr hdigit)
    rw [heq] at hvalue
    exact absurd hvalue (by decide)
  · exact iff_of_true rfl hdigit

/-- Anything but two digits is rejected. -/
theorem commandByte_of_not_digitPair {text : List UInt8} {index : ℕ}
    (hpair : ¬DigitPair text index) :
    commandByte text index = .error (.invalidByte index) := by
  unfold commandByte
  dsimp only
  rw [if_pos]
  rw [parseNibble_eq_invalid_iff, parseNibble_eq_invalid_iff, ← not_and_or]
  exact hpair

/-- Two digits are read. -/
theorem commandByte_of_digitPair (text : List UInt8) (index : ℕ) (hpair : DigitPair text index) :
    commandByte text index = .ok (hexByteAt text index) := by
  obtain ⟨hfirst, hsecond⟩ := hpair
  have hhigh := digitValue_lt hfirst
  have hlow := digitValue_lt hsecond
  have hbyte : parseNibble (text.getD (2 * index) 0) <<< 4 |||
      parseNibble (text.getD (2 * index + 1) 0) = hexByteAt text index := by
    rw [hexByteAt, hexByte, ← UInt8.toNat_inj, UInt8.toNat_or, UInt8.toNat_shiftLeft,
      toNat_parseNibble, toNat_parseNibble, if_pos hfirst, if_pos hsecond, UInt8.toNat_ofNat']
    have hshift : digitValue (text.getD (2 * index) 0) <<< 4 < 256 := by
      rw [Nat.shiftLeft_eq]
      omega
    show digitValue _ <<< 4 % 256 ||| digitValue _ = _ % 256
    rw [Nat.mod_eq_of_lt hshift, shiftLeft_or_eq hlow, Nat.mod_eq_of_lt (by omega)]
  unfold commandByte
  dsimp only
  rw [if_neg, hbyte]
  rw [parseNibble_eq_invalid_iff, parseNibble_eq_invalid_iff, not_or, not_not, not_not]
  exact ⟨hfirst, hsecond⟩

/-- The only error of a byte is that there are not two digits. -/
theorem eq_invalidByte_of_commandByte {text : List UInt8} {index : ℕ} {error : HexError}
    (herror : commandByte text index = .error error) : error = .invalidByte index := by
  by_cases hpair : DigitPair text index
  · rw [commandByte_of_digitPair text index hpair] at herror
    cases herror
  · rw [commandByte_of_not_digitPair hpair, Except.error.injEq] at herror
    exact herror.symm

/-- Commands are read as they are. -/
theorem decodesCommand (command : Vector UInt8 authorizedCommandSize) (text : List UInt8) :
    DecodesCommand command text := by
  unfold DecodesCommand authzCommandHexToStruct
  by_cases hlength : text.length = 240
  · have htext : text.length = 2 * authorizedCommandSize := hlength
    have hdigits : (fillBytes (commandByte text) none authorizedCommandSize 0 command).2 = none →
        HexDigits text := by
      rw [fillBytes_eq_none_iff, hexDigits_iff_pairs htext]
      intro hall index hindex
      by_contra hpair
      obtain ⟨byte, hbyte⟩ := hall index (Nat.zero_le _) (by omega)
      rw [commandByte_of_not_digitPair hpair] at hbyte
      cases hbyte
    have hloop : Decodes (· = 240) text
        (fillBytes (commandByte text) none authorizedCommandSize 0 command).1
        ((fillBytes (commandByte text) none authorizedCommandSize 0 command).2 = none) :=
      (decodes_fillBytes_iff htext le_rfl hlength (commandByte_of_digitPair text)).mpr hdigits
    rw [if_neg (not_not.mpr htext)]
    cases hfilled : fillBytes (commandByte text) none authorizedCommandSize 0 command with
    | mk out outcome =>
      rw [hfilled] at hloop
      cases outcome with
      | none =>
        dsimp only
        split_ifs
        · exact hloop.of_iff (iff_of_true rfl fun error herror ↦ ⟨_, (Option.some.inj herror).symm⟩)
        · exact hloop.of_iff (iff_of_true rfl fun error herror ↦ absurd herror (by simp))
      | some error =>
        have hbyte : (fillBytes (commandByte text) none authorizedCommandSize 0 command).2 =
            some error := by rw [hfilled]
        obtain ⟨place, hplace⟩ := exists_error_of_fillBytes hbyte
        obtain rfl := eq_invalidByte_of_commandByte hplace
        refine hloop.of_iff (iff_of_false (Option.some_ne_none _) fun hpayload ↦ ?_)
        obtain ⟨size, hsize⟩ := hpayload _ rfl
        cases hsize
  · have hrejected : ¬∀ error ∈ some (HexError.badLength text.length (2 * authorizedCommandSize)),
        ∃ size, error = .payload size := by
      intro hpayload
      obtain ⟨size, hsize⟩ := hpayload _ rfl
      cases hsize
    rw [if_pos (show text.length ≠ 2 * authorizedCommandSize from hlength)]
    exact .of_rejected hrejected hlength

/-! ### The three readers -/

/-- A printed record is read back, whatever the buffer held. -/
theorem fromHexString_printHexString (record written : AuthorizationRecord) :
    libhothAuthorizationRecordFromHexString written
      (libhothAuthorizationRecordPrintHexString record).dropLast = (record, none) := by
  have htext : (libhothAuthorizationRecordPrintHexString record).dropLast = hexText record.toList :=
    List.dropLast_concat
  have hlength : (hexText record.toList).length = 2 * authorizationRecordSize := by
    rw [length_hexText, Vector.length_toList]
  have hread (index : ℕ) (hindex : index < authorizationRecordSize) :
      recordByte (hexText record.toList) index = .ok record[index] := by
    have hpair := (hexDigits_iff_pairs hlength).mp (hexDigits_hexText _) index hindex
    rw [recordByte_of_digitPair _ _ hpair,
      hexByteAt_hexText (by rw [Vector.length_toList]; exact hindex), Vector.getElem_toList]
  have hsuccess : (fillBytes (recordByte (hexText record.toList)) (some 0) authorizationRecordSize 0
      written).2 = none :=
    (fillBytes_eq_none_iff _ _ _).mpr fun place _ hplace ↦ ⟨_, hread place (by omega)⟩
  rw [htext, libhothAuthorizationRecordFromHexString, if_neg (not_not.mpr hlength)]
  refine Prod.ext (Vector.ext fun index hindex ↦ ?_) hsuccess
  have hstored := getElem_fillBytes hsuccess hindex (Nat.zero_le _) (by omega)
  rw [hread index hindex, Except.ok.injEq] at hstored
  exact hstored.symm

/-- All three readers do what they are for, and a printed record is read back, exactly for the texts
that neither `strtoul` nor `sscanf` misreads. -/
theorem hexDecoders_iff (record : AuthorizationRecord) (request : HothSrtmRequest)
    (command : Vector UInt8 authorizedCommandSize) (text : List UInt8) :
    (DecodesRecord record text ∧ DecodesMeasurement request text ∧ DecodesCommand command text ∧
        ∀ printed, libhothAuthorizationRecordFromHexString record
          (libhothAuthorizationRecordPrintHexString printed).dropLast = (printed, none)) ↔
      ¬MisreadRecord text ∧ ¬MisreadMeasurement text := by
  rw [decodesRecord_iff, decodesMeasurement_iff]
  constructor
  · rintro ⟨hrecord, hmeasurement, -⟩
    exact ⟨hrecord, hmeasurement⟩
  · rintro ⟨hrecord, hmeasurement⟩
    exact ⟨hrecord, hmeasurement, decodesCommand command text,
      fun printed ↦ fromHexString_printHexString printed record⟩

/-- A plus in front of the digits of a record, and a blank in front of a digit of a measurement. -/
theorem hexDecoders_accept_sign_and_blank :
    ¬DecodesRecord (Vector.replicate _ 0) (0x2B :: 0x31 :: List.replicate 926 0x30) ∧
      ¬DecodesMeasurement ⟨0, Vector.replicate _ 0⟩ [0x20, 0x31] := by
  rw [decodesRecord_iff, decodesMeasurement_iff, not_not, not_not]
  have hzeros : HexDigits (List.replicate 926 0x30) := by
    intro char hchar
    rw [List.eq_of_mem_replicate hchar]
    rfl
  have hreadable : ∀ char ∈ [(0x20 : UInt8), 0x31], isSpace char ∨ isDigit 16 char :=
    List.forall_mem_cons.mpr ⟨.inl rfl, List.forall_mem_singleton.mpr (.inr rfl)⟩
  have hlast : ∀ last ∈ [(0x20 : UInt8), 0x31].getLast?, isDigit 16 last := by
    intro last hlast
    obtain rfl := Option.some.inj hlast
    rfl
  exact ⟨misreadRecord_of_plus List.length_replicate hzeros, ⟨by decide, by decide, by decide⟩,
    hreadable, hlast, 0x20, List.mem_cons_self, rfl⟩

end Libhoth.Examples.HexDecoders
