import Libhoth.Examples.SecurityV2

/-!
# The security v2 format

A request is a header with a command code and a number of parameters, a response is a header with a
number of parameters, and a parameter is a size, two bytes of zeros, a value of that size, and zeros
up to a whole word. `encodeParam` and `encodeRequest` write this, `decodeParams` and `decodeRequest`
read it, and neither is code of the tool: they are what its encoder and its two parsers are compared
with.

`decodeParam_eq_some_iff` says that a parameter is read exactly where one was written, and
`decodeParams_eq_some_iff` is the same for a list of parameters.
-/

set_option autoImplicit false
set_option relaxedAutoImplicit false

namespace Libhoth.Examples.SecurityV2Format

open Foundation.ByteString SecurityV2

/-! ### Parameters -/

/-- The parameter at the start of a byte string, and the bytes behind it. -/
def decodeParam (bytes : List UInt8) : Option (List UInt8 × List UInt8) :=
  let size := wordAt bytes 0 2
  if bytes.length < securityV2HeaderSize + (size + paddingSize size) ∨ wordAt bytes 2 2 ≠ 0 ∨
      slice bytes (securityV2HeaderSize + size) (paddingSize size) ≠
        List.replicate (paddingSize size) 0 then none
  else some (slice bytes securityV2HeaderSize size,
    bytes.drop (securityV2HeaderSize + (size + paddingSize size)))

/-- The parameters at the start of a byte string, as many as are asked for. -/
def decodeParams : ℕ → List UInt8 → Option (List (List UInt8))
  | 0, _ => some []
  | count + 1, bytes =>
    match decodeParam bytes with
    | none => none
    | some (value, rest) => (decodeParams count rest).map (value :: ·)

section Param

variable {value bytes rest : List UInt8}

/-- The two words of the header of a parameter. -/
theorem wordAt_encodeParam (hvalue : value.length < 2 ^ 16) (rest : List UInt8) :
    wordAt (encodeParam value ++ rest) 0 2 = value.length ∧
      wordAt (encodeParam value ++ rest) 2 2 = 0 := by
  rw [encodeParam, List.append_assoc]
  constructor
  · rw [wordAt_toLittleEndian hvalue]
  · have hsecond := wordAt_append_right (toLittleEndian 2 value.length)
      (toLittleEndian 2 0 ++ (value ++ List.replicate (paddingSize value.length) 0) ++ rest) 0 2
    rw [length_toLittleEndian, Nat.add_zero] at hsecond
    rw [hsecond, List.append_assoc, wordAt_toLittleEndian (by decide)]

/-- The value of a parameter and its padding, behind the header. -/
theorem slice_encodeParam (value rest : List UInt8) :
    slice (encodeParam value ++ rest) securityV2HeaderSize value.length = value ∧
      slice (encodeParam value ++ rest) (securityV2HeaderSize + value.length)
        (paddingSize value.length) = List.replicate (paddingSize value.length) 0 := by
  have hheader : (toLittleEndian 2 value.length ++ toLittleEndian 2 0).length =
      securityV2HeaderSize := by
    rw [List.length_append, length_toLittleEndian, length_toLittleEndian, securityV2HeaderSize]
  have hsplit : encodeParam value ++ rest =
      (toLittleEndian 2 value.length ++ toLittleEndian 2 0) ++
        (value ++ (List.replicate (paddingSize value.length) 0 ++ rest)) := by
    simp [encodeParam]
  rw [hsplit, ← hheader]
  constructor
  · have hvalue := slice_append_right (toLittleEndian 2 value.length ++ toLittleEndian 2 0)
      (value ++ (List.replicate (paddingSize value.length) 0 ++ rest)) 0 value.length
    rw [Nat.add_zero] at hvalue
    rw [hvalue, slice, List.drop_zero, List.take_left]
  · rw [slice_append_right, slice, List.drop_left, List.take_left' List.length_replicate]

/-- A parameter is read back with what is behind it. -/
theorem decodeParam_encodeParam (hvalue : value.length < 2 ^ 16) (rest : List UInt8) :
    decodeParam (encodeParam value ++ rest) = some (value, rest) := by
  obtain ⟨hsize, hreserved⟩ := wordAt_encodeParam hvalue rest
  obtain ⟨hslice, hpadding⟩ := slice_encodeParam value rest
  have hlength : (encodeParam value).length =
      securityV2HeaderSize + (value.length + paddingSize value.length) := length_encodeParam value
  have hvalid : ¬((encodeParam value ++ rest).length <
      securityV2HeaderSize + (value.length + paddingSize value.length) ∨ (0 : ℕ) ≠ 0 ∨
        List.replicate (paddingSize value.length) (0 : UInt8) ≠
          List.replicate (paddingSize value.length) 0) := by
    rw [List.length_append, hlength]
    simp
  rw [decodeParam]
  simp only [hsize, hreserved]
  rw [hpadding, if_neg hvalid, hslice, ← hlength, List.drop_left]

/-- A parameter is read exactly where one was written. -/
theorem decodeParam_eq_some_iff :
    decodeParam bytes = some (value, rest) ↔
      value.length < 2 ^ 16 ∧ bytes = encodeParam value ++ rest := by
  constructor
  · intro hdecoded
    rw [decodeParam] at hdecoded
    split_ifs at hdecoded with hinvalid
    obtain ⟨hlong, hrefused⟩ := not_or.mp hinvalid
    obtain ⟨hreserved, hpadding⟩ := not_or.mp hrefused
    obtain ⟨rfl, rfl⟩ := Prod.mk.inj (Option.some.inj hdecoded)
    have hsize : wordAt bytes 0 2 < 2 ^ 16 := wordAt_lt _ _ _
    rw [securityV2HeaderSize] at hlong hpadding
    have hfirst : toLittleEndian 2 (wordAt bytes 0 2) = slice bytes 0 2 :=
      toLittleEndian_wordAt (by omega)
    have hsecond : toLittleEndian 2 0 = slice bytes 2 2 := by
      rw [← not_not.mp hreserved]
      exact toLittleEndian_wordAt (by omega)
    have hlength : (slice bytes 4 (wordAt bytes 0 2)).length = wordAt bytes 0 2 :=
      length_slice_of_le (by omega)
    refine ⟨by rw [securityV2HeaderSize, hlength]; exact hsize, ?_⟩
    rw [encodeParam, securityV2HeaderSize, hlength, hfirst, hsecond, ← not_not.mp hpadding]
    simp only [List.append_assoc, ← Nat.add_assoc]
    rw [slice_append_drop, slice_append_drop, slice_append_drop bytes 2 2,
      slice_append_drop bytes 0 2, List.drop_zero]
  · rintro ⟨hvalue, rfl⟩
    exact decodeParam_encodeParam hvalue rest

end Param

/-- Parameters are read exactly where they were written. -/
theorem decodeParams_eq_some_iff {count : ℕ} {bytes : List UInt8} {params : List (List UInt8)} :
    decodeParams count bytes = some params ↔
      params.length = count ∧ (∀ param ∈ params, param.length < 2 ^ 16) ∧
        params.flatMap encodeParam <+: bytes := by
  induction count generalizing bytes params with
  | zero =>
    rw [decodeParams, Option.some.injEq]
    constructor
    · rintro rfl
      exact ⟨rfl, fun _ hparam ↦ absurd hparam List.not_mem_nil, List.nil_prefix⟩
    · rintro ⟨hlength, -⟩
      exact (List.length_eq_zero_iff.mp hlength).symm
  | succ count ih =>
    rw [decodeParams]
    constructor
    · intro hdecoded
      cases hfirst : decodeParam bytes with
      | none => rw [hfirst] at hdecoded; cases hdecoded
      | some decoded =>
        obtain ⟨value, rest⟩ := decoded
        rw [hfirst] at hdecoded
        obtain ⟨hvalue, rfl⟩ := decodeParam_eq_some_iff.mp hfirst
        obtain ⟨later, hlater, rfl⟩ := Option.map_eq_some_iff.mp hdecoded
        obtain ⟨hlength, hsmall, hleading⟩ := ih.mp hlater
        refine ⟨by rw [List.length_cons, hlength], List.forall_mem_cons.mpr ⟨hvalue, hsmall⟩, ?_⟩
        rw [List.flatMap_cons]
        exact (List.prefix_append_right_inj _).mpr hleading
    · rintro ⟨hlength, hsmall, tail, rfl⟩
      cases params with
      | nil => exact absurd hlength (Nat.succ_ne_zero count).symm
      | cons param later =>
        obtain ⟨hparam, hlater⟩ := List.forall_mem_cons.mp hsmall
        rw [List.flatMap_cons, List.append_assoc, decodeParam_encodeParam hparam]
        dsimp only
        rw [ih.mpr ⟨Nat.succ.inj hlength, hlater, List.prefix_append _ _⟩]
        rfl

/-! ### Requests -/

/-- A request with its header. -/
def encodeRequest (major minor : ℕ) (params : List (List UInt8)) : List UInt8 :=
  toLittleEndian 1 major ++ (toLittleEndian 1 minor ++
    (toLittleEndian 2 params.length ++ params.flatMap encodeParam))

/-- The command code and the parameters at the start of a byte string. -/
def decodeRequest (bytes : List UInt8) : Option (ℕ × ℕ × List (List UInt8)) :=
  if bytes.length < securityV2HeaderSize then none
  else (decodeParams (wordAt bytes 2 2) (bytes.drop securityV2HeaderSize)).map fun params ↦
    (wordAt bytes 0 1, wordAt bytes 1 1, params)

/-- A request is read back, whatever follows it. -/
theorem decodeRequest_encodeRequest {major minor : ℕ} {params : List (List UInt8)}
    (hmajor : major < 2 ^ 8) (hminor : minor < 2 ^ 8) (hcount : params.length < 2 ^ 16)
    (hparams : ∀ param ∈ params, param.length < 2 ^ 16) (rest : List UInt8) :
    decodeRequest (encodeRequest major minor params ++ rest) = some (major, minor, params) := by
  have hheader : (toLittleEndian 1 major ++ toLittleEndian 1 minor ++
      toLittleEndian 2 params.length).length = securityV2HeaderSize := by
    simp only [List.length_append, length_toLittleEndian, securityV2HeaderSize]
  have hsplit : encodeRequest major minor params ++ rest =
      (toLittleEndian 1 major ++ toLittleEndian 1 minor ++ toLittleEndian 2 params.length) ++
        (params.flatMap encodeParam ++ rest) := by
    simp only [encodeRequest, List.append_assoc]
  have hfirst : wordAt (encodeRequest major minor params ++ rest) 0 1 = major := by
    rw [encodeRequest, List.append_assoc, wordAt_toLittleEndian hmajor]
  have hsecond : wordAt (encodeRequest major minor params ++ rest) 1 1 = minor := by
    have hword := wordAt_append_right (toLittleEndian 1 major) (toLittleEndian 1 minor ++
      (toLittleEndian 2 params.length ++ params.flatMap encodeParam) ++ rest) 0 1
    rw [length_toLittleEndian, Nat.add_zero] at hword
    rw [encodeRequest, List.append_assoc, hword, List.append_assoc, wordAt_toLittleEndian hminor]
  have hthird : wordAt (encodeRequest major minor params ++ rest) 2 2 = params.length := by
    have hword := wordAt_append_right (toLittleEndian 1 major ++ toLittleEndian 1 minor)
      (toLittleEndian 2 params.length ++ (params.flatMap encodeParam ++ rest)) 0 2
    rw [List.length_append, length_toLittleEndian, length_toLittleEndian, Nat.add_zero] at hword
    rw [hsplit, List.append_assoc, hword, wordAt_toLittleEndian hcount]
  have hlong : ¬(encodeRequest major minor params ++ rest).length < securityV2HeaderSize := by
    rw [hsplit, List.length_append, hheader]
    omega
  rw [decodeRequest, if_neg hlong, hfirst, hsecond, hthird, hsplit, ← hheader, List.drop_left,
    decodeParams_eq_some_iff.mpr ⟨rfl, hparams, List.prefix_append _ _⟩]
  rfl

end Libhoth.Examples.SecurityV2Format
