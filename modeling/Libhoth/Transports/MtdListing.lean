import Libhoth.Foundation.CheckedAccess
import Libhoth.Foundation.DecimalText
import Mathlib.Algebra.Group.Int.Defs
import Mathlib.Algebra.Group.Nat.Defs

/-!
# The listing of the MTD devices

`mtd_open` of `libhoth_mtd.c` finds a device by its name in `/proc/mtd`. `matchMtdLine` is what it
makes of a line: the line is read with `sscanf` into buffers of 20 bytes (`scanMtdLine`), the quotes
around the name are stripped in place (`stripQuotes`), and a line with the name gives the number.

`MtdEntry` is a device as the kernel lists it, in a line that `mtd_open` can read: its buffers hold
the words, so that the name has at most 17 bytes, and the name is not empty and has no blank. On the
line of such a device the number is given exactly when the name is that of the device
(`matchMtdLine_line`).
-/

set_option autoImplicit false
set_option relaxedAutoImplicit false

namespace Libhoth.Transports.MtdListing

open Foundation.CheckedAccess Foundation.DecimalText Foundation.NumberText

/-! ### Reading a line -/

/-- The size of the buffers that the words of a line are read into. -/
def mtdBufferSize : ℕ := 20

/-- `%d`: the number at the start of a text as an `int`, and the text behind it. -/
def scanInt (text : List UInt8) : Option (ℤ × List UInt8) :=
  match numeral 10 text with
  | none => none
  | some found => some ((BitVec.ofInt 32 (strtoll 10 text).1).toInt, found.rest)

/-- `%s`: the word at the start of a text, and the text behind it, or a fault when the word and its
end do not fit the buffer. -/
def scanWord (text : List UInt8) : Except Fault (Option (List UInt8 × List UInt8)) :=
  let trimmed := text.dropWhile isSpace
  let word := trimmed.takeWhile fun char ↦ !isSpace char
  if word = [] then .ok none
  else if word.length < mtdBufferSize then
    .ok (some (word, trimmed.dropWhile fun char ↦ !isSpace char))
  else .error .writeOutOfBounds

/-- The four variables of a line. -/
structure MtdLine where
  mtdId : ℤ
  mtdSize : List UInt8
  mtdErasesize : List UInt8
  mtdName : List UInt8

/-- `sscanf` with the format `mtd%d: %s %s %s`, which finds four values or not. -/
def scanMtdLine (text : List UInt8) : Except Fault (Option MtdLine) :=
  match List.isPrefixOf? [0x6D, 0x74, 0x64] text with
  | none => return none
  | some text =>
    match scanInt text with
    | none => return none
    | some (mtdId, text) =>
      match List.isPrefixOf? [0x3A] text with
      | none => return none
      | some text => do
        match ← scanWord text with
        | none => return none
        | some (mtdSize, text) => do
          match ← scanWord text with
          | none => return none
          | some (mtdErasesize, text) => do
            match ← scanWord text with
            | none => return none
            | some (mtdName, _) => return some ⟨mtdId, mtdSize, mtdErasesize, mtdName⟩

/-- The string at the start of a buffer. -/
def cString (buffer : List UInt8) : List UInt8 :=
  buffer.takeWhile (· != 0)

/-- The character `"`. -/
def quote : UInt8 := 0x22

/-- One round of the loop that strips the quotes: the next character moves here, and the string ends
behind it. -/
def stripStep (name : List UInt8) (index : ℕ) : List UInt8 :=
  (name.set index (name.getD (index + 1) 0)).set (index + 1) 0

/-- The name in its buffer behind the part that strips the quotes. -/
def stripQuotes (name : List UInt8) : List UInt8 :=
  if name.head? = some quote then
    (List.range (name.length - 2)).foldl stripStep (name ++ [0])
  else name ++ [0]

/-- What `mtd_open` makes of a line: the number of the device, if the line has the name. -/
def matchMtdLine (name line : List UInt8) : Except Fault (Option ℤ) := do
  match ← scanMtdLine (cString line) with
  | none => return none
  | some found =>
    if found.mtdId < 0 then return none
    else if cString (stripQuotes found.mtdName) = name then return some found.mtdId
    else return none

/-- The path that `mtd_open` prints for a number. -/
def mtdPath (mtdId : ℕ) : List UInt8 :=
  [0x2F, 0x64, 0x65, 0x76, 0x2F, 0x6D, 0x74, 0x64] ++ decimalText mtdId

/-! ### Stripping the quotes -/

/-- One round in the middle of the buffer. -/
theorem stripStep_append (front rest : List UInt8) (here next : UInt8) :
    stripStep (front ++ here :: next :: rest) front.length = front ++ next :: 0 :: rest := by
  simp [stripStep, List.getD_eq_getElem?_getD]

/-- Some rounds on a string with other bytes behind it. -/
theorem foldl_stripStep (first : UInt8) (middle rest : List UInt8) {count : ℕ}
    (hcount : count ≤ middle.length) :
    (List.range count).foldl stripStep (first :: middle ++ rest) =
      middle.take count ++ (if count = 0 then first else 0) :: middle.drop count ++ rest := by
  induction count with
  | zero => simp
  | succ count ih =>
    have hnext : middle.drop count = middle[count] :: middle.drop (count + 1) :=
      List.drop_eq_getElem_cons (by omega)
    have hfront : (middle.take count).length = count := List.length_take_of_le (by omega)
    have hstep := stripStep_append (middle.take count) (middle.drop (count + 1) ++ rest)
      (if count = 0 then first else 0) middle[count]
    rw [hfront] at hstep
    have htake : middle.take (count + 1) = middle.take count ++ [middle[count]] :=
      List.take_succ_eq_append_getElem (by omega)
    rw [List.range_succ, List.foldl_append, ih (by omega), List.foldl_cons, List.foldl_nil, hnext]
    rw [List.append_assoc, List.cons_append, List.cons_append, hstep, htake,
      if_neg (Nat.succ_ne_zero count)]
    simp only [List.append_assoc, List.cons_append, List.nil_append]

/-- A name between quotes is what is left of it, unless nothing is between them. -/
theorem cString_stripQuotes {name : List UInt8} (hsome : name ≠ [])
    (hname : ∀ char ∈ name, char ≠ 0) :
    cString (stripQuotes (quote :: name ++ [quote])) = name := by
  have hlength : (quote :: name ++ [quote]).length - 2 = name.length := by simp
  have hpositive : name.length ≠ 0 := List.length_eq_zero_iff.not.mpr hsome
  have hstripped : stripQuotes (quote :: name ++ [quote]) = name ++ 0 :: [quote, 0] := by
    have hrounds := foldl_stripStep quote name [quote, 0] (le_refl name.length)
    rw [if_neg hpositive, List.take_length, List.drop_length] at hrounds
    have hhead : (quote :: name ++ [quote]).head? = some quote := rfl
    rw [stripQuotes, if_pos hhead, hlength]
    simpa using hrounds
  rw [hstripped, cString, List.takeWhile_append_of_pos (by simpa using hname)]
  simp

/-! ### What the kernel lists -/

/-- A word that a buffer can hold. -/
structure Word (word : List UInt8) : Prop where
  nonempty : word ≠ []
  solid : ∀ char ∈ word, isSpace char = false
  string : ∀ char ∈ word, char ≠ 0
  short : word.length < mtdBufferSize

/-- The test that a word passes. -/
theorem word_of_all {word : List UInt8} (hnonempty : word ≠ [])
    (hall : (word.all fun char ↦ !isSpace char && char != 0) = true)
    (hshort : word.length < mtdBufferSize) : Word word := by
  rw [List.all_eq_true] at hall
  refine ⟨hnonempty, fun char hchar ↦ ?_, fun char hchar ↦ ?_, hshort⟩
  · simpa using (Bool.and_eq_true_iff.mp (hall char hchar)).1
  · simpa using (Bool.and_eq_true_iff.mp (hall char hchar)).2

/-- A device in the listing that `mtd_open` can read: its number, the two sizes as they are printed,
and its name, which is not empty, has no blanks and fits the buffer with its quotes. -/
structure MtdEntry where
  mtdId : ℕ
  size : List UInt8
  erasesize : List UInt8
  name : List UInt8
  mtdId_lt : mtdId < 2 ^ 31
  size_word : Word size
  erasesize_word : Word erasesize
  name_nonempty : name ≠ []
  name_word : Word (quote :: name ++ [quote])

theorem MtdEntry.name_string (entry : MtdEntry) (char : UInt8) (hchar : char ∈ entry.name) :
    char ≠ 0 :=
  entry.name_word.string char (List.mem_append_left _ (List.mem_cons_of_mem _ hchar))

/-- The line of a device. -/
def MtdEntry.line (entry : MtdEntry) : List UInt8 :=
  [0x6D, 0x74, 0x64] ++ decimalText entry.mtdId ++ [0x3A, 0x20] ++ entry.size ++ [0x20] ++
    entry.erasesize ++ [0x20] ++ (quote :: entry.name ++ [quote]) ++ [0x0A]

/-- The line above the devices: `dev:    size   erasesize  name`. -/
def headingLine : List UInt8 :=
  [0x64, 0x65, 0x76, 0x3A, 0x20, 0x20, 0x20, 0x20, 0x73, 0x69, 0x7A, 0x65, 0x20, 0x20, 0x20,
    0x65, 0x72, 0x61, 0x73, 0x65, 0x73, 0x69, 0x7A, 0x65, 0x20, 0x20, 0x6E, 0x61, 0x6D, 0x65, 0x0A]

/-- The listing of some devices. -/
def listing (entries : List MtdEntry) : List (List UInt8) :=
  headingLine :: entries.map MtdEntry.line

/-- A word with a blank in front of it and a blank behind it is read. -/
theorem scanWord_blank {word : List UInt8} (hword : Word word) {before after : UInt8}
    (hbefore : isSpace before) (hafter : isSpace after) (rest : List UInt8) :
    scanWord (before :: (word ++ after :: rest)) = .ok (some (word, after :: rest)) := by
  have hskip : (before :: (word ++ after :: rest)).dropWhile isSpace = word ++ after :: rest := by
    rw [List.dropWhile_cons_of_pos hbefore]
    refine dropWhile_of_head fun char hchar ↦ ?_
    obtain ⟨first, more, rfl⟩ := List.exists_cons_of_ne_nil hword.nonempty
    obtain rfl := Option.some.inj hchar
    exact hword.solid first List.mem_cons_self
  have hsolid : ∀ char ∈ word, (!isSpace char) = true :=
    fun char hchar ↦ by rw [hword.solid char hchar]; rfl
  have hnone : (after :: rest).takeWhile (fun char ↦ !isSpace char) = [] :=
    List.takeWhile_cons_of_neg (by rw [hafter]; decide)
  have hall : (after :: rest).dropWhile (fun char ↦ !isSpace char) = after :: rest :=
    List.dropWhile_cons_of_neg (by rw [hafter]; decide)
  have htake : (word ++ after :: rest).takeWhile (fun char ↦ !isSpace char) = word := by
    rw [List.takeWhile_append_of_pos hsolid, hnone, List.append_nil]
  have hdrop : (word ++ after :: rest).dropWhile (fun char ↦ !isSpace char) = after :: rest := by
    rw [List.dropWhile_append_of_pos hsolid, hall]
  rw [scanWord, hskip, htake, hdrop, if_neg hword.nonempty, if_pos hword.short]

/-- A number in front of a colon is read. -/
theorem scanInt_decimalText {value : ℕ} (hvalue : value < 2 ^ 31) (rest : List UInt8) :
    scanInt (decimalText value ++ 0x3A :: rest) = some ((value : ℤ), 0x3A :: rest) := by
  have hcolon : ∀ char ∈ (0x3A :: rest).head?, isDigit 10 char = false := by
    rintro char hchar
    obtain rfl := Option.some.inj hchar
    decide
  have hnumeral := numeral_run (by decide) (run_decimalText value) hcolon
  rw [ofDigits_decimalText] at hnumeral
  have hstrtoll : (strtoll 10 (decimalText value ++ 0x3A :: rest)).1 = value := by
    rw [strtoll, hnumeral]
    simp
    omega
  have hvalue : (BitVec.ofInt 32 (value : ℤ)).toInt = value := by
    rw [BitVec.toInt_ofInt, Int.bmod_eq_of_le (by omega) (by omega)]
  unfold scanInt
  rw [hnumeral, hstrtoll]
  simp only [hvalue]

/-- The line of a device is read. -/
theorem scanMtdLine_line (entry : MtdEntry) :
    scanMtdLine entry.line =
      .ok (some ⟨entry.mtdId, entry.size, entry.erasesize, quote :: entry.name ++ [quote]⟩) := by
  have hline : entry.line = 0x6D :: 0x74 :: 0x64 :: (decimalText entry.mtdId ++
      0x3A :: 0x20 :: (entry.size ++ 0x20 :: (entry.erasesize ++ 0x20 ::
        ((quote :: entry.name ++ [quote]) ++ [0x0A])))) := by
    simp [MtdEntry.line]
  have hblank : isSpace 0x20 = true := by decide
  have hnewline : isSpace 0x0A = true := by decide
  rw [hline]
  simp only [scanMtdLine, List.isPrefixOf?, beq_self_eq_true, if_true,
    scanInt_decimalText entry.mtdId_lt,
    scanWord_blank entry.size_word hblank hblank, scanWord_blank entry.erasesize_word hblank hblank,
    scanWord_blank entry.name_word hblank hnewline, ok_bind]
  rfl

theorem scanMtdLine_headingLine : scanMtdLine (cString headingLine) = .ok none := by
  rfl

/-- The line of a device is a string. -/
theorem cString_line (entry : MtdEntry) : cString entry.line = entry.line := by
  have hnumber : ∀ char ∈ decimalText entry.mtdId, char ≠ 0 := by
    rintro char hchar rfl
    exact absurd ((run_decimalText entry.mtdId).digits 0 hchar) (by decide)
  have hstring : ∀ char ∈ entry.line, char ≠ 0 := by
    simp only [MtdEntry.line, List.forall_mem_append]
    exact ⟨⟨⟨⟨⟨⟨⟨⟨by simp, hnumber⟩, by simp⟩, entry.size_word.string⟩, by simp⟩,
      entry.erasesize_word.string⟩, by simp⟩, List.forall_mem_append.mp entry.name_word.string⟩,
      by simp⟩
  exact List.takeWhile_eq_self_iff.mpr fun char hchar ↦ bne_iff_ne.mpr (hstring char hchar)

/-- The line of a device gives its number for its name, and for no other. -/
theorem matchMtdLine_line (name : List UInt8) (entry : MtdEntry) :
    matchMtdLine name entry.line =
      .ok (if entry.name = name then some (entry.mtdId : ℤ) else none) := by
  have hpositive : ¬(entry.mtdId : ℤ) < 0 := by omega
  rw [matchMtdLine, cString_line, scanMtdLine_line, ok_bind]
  dsimp only
  rw [if_neg hpositive, cString_stripQuotes entry.name_nonempty entry.name_string]
  split_ifs <;> rfl

theorem matchMtdLine_headingLine (name : List UInt8) :
    matchMtdLine name headingLine = .ok none := by
  rw [matchMtdLine, scanMtdLine_headingLine, ok_bind]
  rfl

end Libhoth.Transports.MtdListing
