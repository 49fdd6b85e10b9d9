import Libhoth.Examples.SecurityV2Format
import Mathlib.Algebra.Order.BigOperators.Group.List

/-!
# The two parsers of security v2 responses

The parser of serialized responses finds parameters of any size, the copying parser is told the
sizes to expect. `ParsersAgree` is what they owe each other and the format: the first accepts
exactly the encoded responses, the second accepts with the sizes that the first one found and copies
the same values, and neither reads outside the received bytes.

On buffers that hold the received bytes and nothing else, an access outside the received bytes is a
fault. `readSerializedResponse_received` says that the parser of serialized responses is
`decodeParams` behind the header, so it has none. The copying parser adds the padding to the size in
sixteen bits: for a size from 65533 on the sum is zero, nothing is consumed, and the copy runs
beyond the buffer. `parsersAgree_iff` says that everything holds unless it gets to such a parameter
(`AsksOversized`).
-/

set_option autoImplicit false
set_option relaxedAutoImplicit false

namespace Libhoth.Examples.SecurityV2Parsers

open Foundation.ByteString Foundation.CheckedAccess SecurityV2 SecurityV2Format

/-- The bytes that a parameter of a size takes, with its header and its padding. -/
def paramSpan (size : ℕ) : ℕ :=
  securityV2HeaderSize + (size + paddingSize size)

/-! ### The contract -/

/-- A buffer that holds the received bytes and nothing else. -/
def received (response : List UInt8) : SecurityV2Buffer :=
  ⟨response, response.length, 0⟩

/-- What the two parsers do with a response: the parser of serialized responses for a number of
parameters, the copying parser for the sizes that the first one found and for any other sizes. -/
structure ParsersAgree (response : List UInt8) (count : ℕ) (sizes : List ℕ) : Prop where
  accepts : ∀ params, readSerializedResponse count (received response) = .ok (some params) ↔
    params.length = count ∧ encodeResponse params <+: response
  copies : ∀ params, readSerializedResponse count (received response) = .ok (some params) →
    readResponse (params.map List.length) (received response) = .ok (some params)
  serializedInside : ∃ outcome, readSerializedResponse count (received response) = .ok outcome
  copyingInside : ∃ outcome, readResponse sizes (received response) = .ok outcome

/-- At the place of each of the parameters, from a place on, the response has the header of a
parameter of the expected size. -/
def Announces (response : List UInt8) (start : ℕ) (sizes : List ℕ) : Prop :=
  ∀ before size after, sizes = before ++ size :: after →
    start + (before.map paramSpan).sum + securityV2HeaderSize ≤ response.length ∧
      wordAt response (start + (before.map paramSpan).sum) 2 = size

/-- From a place on, the response announces the expected parameters up to one that is too large to
be padded within sixteen bits. -/
def AsksFrom (response : List UInt8) (start : ℕ) (sizes : List ℕ) : Prop :=
  ∃ before size after, sizes = before ++ size :: after ∧
    (∀ earlier ∈ before, Paddable earlier) ∧ ¬Paddable size ∧
      Announces response start (before ++ [size])

/-- The response has as many parameters as expected and announces them up to one that is too large
to be padded within sixteen bits. -/
def AsksOversized (response : List UInt8) (sizes : List ℕ) : Prop :=
  securityV2HeaderSize ≤ response.length ∧ wordAt response 0 2 = sizes.length ∧
    AsksFrom response securityV2HeaderSize sizes

/-! ### Places in a response -/

theorem slice_drop {α : Type*} (elements : List α) (start offset count : ℕ) :
    slice (elements.drop start) offset count = slice elements (start + offset) count := by
  rw [slice, slice, List.drop_drop]

theorem wordAt_drop (bytes : List UInt8) (start offset width : ℕ) :
    wordAt (bytes.drop start) offset width = wordAt bytes (start + offset) width := by
  rw [wordAt, wordAt, slice_drop]

section Places

variable {response : List UInt8} {start : ℕ}

theorem announces_nil : Announces response start [] :=
  fun _ _ _ hsplit ↦ absurd hsplit.symm (by simp)

/-- The first parameter and the others, which are behind it. -/
theorem announces_cons {size : ℕ} {sizes : List ℕ} :
    Announces response start (size :: sizes) ↔
      (start + securityV2HeaderSize ≤ response.length ∧ wordAt response start 2 = size) ∧
        Announces response (start + paramSpan size) sizes := by
  constructor
  · refine fun hall ↦ ⟨hall [] size sizes rfl, fun before other after hsplit ↦ ?_⟩
    have hplace := hall (size :: before) other after (by rw [hsplit, List.cons_append])
    rwa [List.map_cons, List.sum_cons, ← Nat.add_assoc] at hplace
  · rintro ⟨hfirst, hothers⟩ before other after hsplit
    cases before with
    | nil =>
      obtain ⟨rfl, -⟩ := List.cons.inj hsplit
      exact hfirst
    | cons earlier before =>
      obtain ⟨rfl, hrest⟩ := List.cons.inj hsplit
      rw [List.map_cons, List.sum_cons, ← Nat.add_assoc]
      exact hothers before other after hrest

theorem not_asksFrom_nil : ¬AsksFrom response start [] := by
  rintro ⟨before, size, after, hsplit, -⟩
  exact absurd hsplit.symm (by simp)

/-- The first parameter is announced, and is too large itself or has one that is behind it. -/
theorem asksFrom_cons {size : ℕ} {sizes : List ℕ} :
    AsksFrom response start (size :: sizes) ↔
      (start + securityV2HeaderSize ≤ response.length ∧ wordAt response start 2 = size) ∧
        (¬Paddable size ∨ Paddable size ∧ AsksFrom response (start + paramSpan size) sizes) := by
  constructor
  · rintro ⟨before, oversized, after, hsplit, hbefore, hoversized, hannounced⟩
    cases before with
    | nil =>
      obtain ⟨rfl, -⟩ := List.cons.inj hsplit
      exact ⟨(announces_cons.mp hannounced).1, .inl hoversized⟩
    | cons earlier before =>
      obtain ⟨rfl, hrest⟩ := List.cons.inj hsplit
      obtain ⟨hearlier, hbefore⟩ := List.forall_mem_cons.mp hbefore
      obtain ⟨hfirst, hothers⟩ := announces_cons.mp hannounced
      exact ⟨hfirst, .inr ⟨hearlier, before, oversized, after, hrest, hbefore, hoversized, hothers⟩⟩
  · rintro ⟨hfirst, hoversized | ⟨hpaddable, before, oversized, after, rfl, hbefore, hoversized,
      hothers⟩⟩
    · exact ⟨[], size, sizes, rfl, fun _ hmem ↦ absurd hmem List.not_mem_nil, hoversized,
        announces_cons.mpr ⟨hfirst, announces_nil⟩⟩
    · exact ⟨size :: before, oversized, after, rfl, List.forall_mem_cons.mpr ⟨hpaddable, hbefore⟩,
        hoversized, announces_cons.mpr ⟨hfirst, hothers⟩⟩

end Places

/-! ### Consuming a received response -/

/-- A buffer whose storage begins with the received bytes, at a place of them. -/
def receivedAt (response storage : List UInt8) (consumed : ℕ) : SecurityV2Buffer :=
  ⟨response ++ storage, response.length, consumed⟩

theorem received_eq (response : List UInt8) : received response = receivedAt response [] 0 := by
  rw [received, receivedAt, List.append_nil]

section Received

variable {response storage : List UInt8} {consumed : ℕ}

theorem consumeBytes_receivedAt {bytes : ℕ} (hbytes : bytes < 2 ^ 16)
    (hroom : consumed + bytes ≤ response.length) :
    consumeBytes (receivedAt response storage consumed) bytes =
      some (consumed, receivedAt response storage (consumed + bytes)) :=
  consumeBytes_of_le hbytes hroom

theorem consumeBytes_receivedAt_none {bytes : ℕ} (hbytes : bytes < 2 ^ 16)
    (hshort : response.length < consumed + bytes) :
    consumeBytes (receivedAt response storage consumed) bytes = none := by
  rw [consumeBytes, receivedAt, Nat.mod_eq_of_lt hbytes, if_pos]
  dsimp only
  omega

theorem readWord_receivedAt {offset : ℕ} (hinside : offset + 2 ≤ response.length) :
    readWord (receivedAt response storage consumed).data offset 2 =
      .ok (wordAt response offset 2) := by
  rw [receivedAt, readWord_of_le (by rw [List.length_append]; omega), wordAt_append_left hinside]

theorem sliceWithin_receivedAt {offset count : ℕ} (hinside : offset + count ≤ response.length) :
    sliceWithin (receivedAt response storage consumed).data offset count =
      .ok (slice response offset count) := by
  rw [receivedAt, sliceWithin_of_le (by rw [List.length_append]; omega), slice_append_left hinside]

end Received

/-! ### Serialized responses -/

section Serialized

variable {response storage : List UInt8} {consumed : ℕ}

/-- The check of the padding passes exactly when the padding is there and zero. -/
theorem validateParamPadding_receivedAt (size : ℕ) (hconsumed : consumed ≤ response.length) :
    validateParamPadding (receivedAt response storage consumed) size =
      .ok (if response.length < consumed + paddingSize size ∨
          slice response consumed (paddingSize size) ≠ List.replicate (paddingSize size) 0 then none
        else some (receivedAt response storage (consumed + paddingSize size))) := by
  have hsmall := paddingSize_lt size
  rw [validateParamPadding]
  by_cases hnone : paddingSize size = 0
  · rw [if_pos hnone, hnone, if_neg (by simp [slice, hconsumed])]
    rfl
  rw [if_neg hnone]
  by_cases hshort : response.length < consumed + paddingSize size
  · rw [consumeBytes_receivedAt_none (by omega) hshort, if_pos (.inl hshort)]
    rfl
  have hinside := Nat.not_lt.mp hshort
  rw [consumeBytes_receivedAt (by omega) hinside]
  dsimp only
  rw [sliceWithin_receivedAt hinside, ok_bind]
  have hzero : (slice response consumed (paddingSize size)).any (· ≠ 0) = true ↔
      slice response consumed (paddingSize size) ≠ List.replicate (paddingSize size) 0 := by
    rw [List.any_eq_true, ne_eq, List.eq_replicate_iff]
    simp only [length_slice_of_le hinside, true_and, not_forall, ne_eq, decide_not,
      Bool.not_eq_true', decide_eq_false_iff_not, exists_prop]
  by_cases hpadding : slice response consumed (paddingSize size) =
      List.replicate (paddingSize size) 0
  · rw [if_neg (fun hany ↦ hzero.mp hany hpadding),
      if_neg (not_or.mpr ⟨hshort, not_not.mpr hpadding⟩)]
    rfl
  · rw [if_pos (hzero.mpr hpadding), if_pos (.inr hpadding)]
    rfl

/-- Reading a serialized parameter is decoding a parameter. -/
theorem readSecurityV2SerializedParam_receivedAt :
    readSecurityV2SerializedParam (receivedAt response storage consumed) =
      .ok ((decodeParam (response.drop consumed)).map fun read ↦
        (read.1, receivedAt response storage (consumed + paramSpan read.1.length))) := by
  have hheader : securityV2HeaderSize = 4 := rfl
  rw [readSecurityV2SerializedParam, decodeParam]
  simp only [wordAt_drop, slice_drop, List.length_drop, Nat.add_zero]
  by_cases hopened : consumed + securityV2HeaderSize ≤ response.length
  swap
  · rw [consumeBytes_receivedAt_none (by decide) (by omega), if_pos (.inl (by omega))]
    rfl
  rw [consumeBytes_receivedAt (by decide) hopened]
  dsimp only
  rw [readWord_receivedAt (by omega), readWord_receivedAt (by omega), ok_bind, ok_bind]
  have hsize : wordAt response consumed 2 < 2 ^ 16 := wordAt_lt _ _ _
  generalize wordAt response consumed 2 = size at hsize ⊢
  by_cases hreserved : wordAt response (consumed + 2) 2 = 0
  swap
  · rw [if_pos hreserved, if_pos (.inr (.inl hreserved))]
    rfl
  rw [if_neg (not_not.mpr hreserved)]
  by_cases hvalue : consumed + securityV2HeaderSize + size ≤ response.length
  swap
  · rw [consumeBytes_receivedAt_none hsize (by omega), if_pos (.inl (by omega))]
    rfl
  rw [consumeBytes_receivedAt hsize hvalue]
  dsimp only
  rw [validateParamPadding_receivedAt size hvalue, ok_bind]
  have hinvalid : (response.length - consumed < securityV2HeaderSize + (size + paddingSize size) ∨
      wordAt response (consumed + 2) 2 ≠ 0 ∨
        slice response (consumed + (securityV2HeaderSize + size)) (paddingSize size) ≠
          List.replicate (paddingSize size) 0) ↔
      response.length < consumed + securityV2HeaderSize + size + paddingSize size ∨
        slice response (consumed + securityV2HeaderSize + size) (paddingSize size) ≠
          List.replicate (paddingSize size) 0 := by
    rw [← Nat.add_assoc consumed, or_iff_right (not_not.mpr hreserved)]
    exact or_congr_left (by omega)
  rw [if_congr hinvalid rfl rfl]
  split_ifs with hpadding
  · rfl
  · dsimp only
    rw [sliceWithin_receivedAt hvalue, ok_bind, Option.map_some, length_slice_of_le hvalue,
      paramSpan]
    simp only [Nat.add_assoc, pure_eq_ok]

/-- The loop over the serialized parameters is the decoder of parameters. -/
theorem readSerializedParams_receivedAt (count : ℕ) :
    readSerializedParams count (receivedAt response storage consumed) =
      .ok (decodeParams count (response.drop consumed)) := by
  induction count generalizing consumed with
  | zero => rfl
  | succ count ih =>
    rw [readSerializedParams, readSecurityV2SerializedParam_receivedAt, ok_bind, decodeParams]
    cases hread : decodeParam (response.drop consumed) with
    | none => rfl
    | some read =>
      obtain ⟨value, rest⟩ := read
      obtain ⟨-, hsplit⟩ := decodeParam_eq_some_iff.mp hread
      have hrest : rest = response.drop (consumed + paramSpan value.length) := by
        rw [← List.drop_drop, hsplit]
        exact (List.drop_left' (length_encodeParam value)).symm
      dsimp only [Option.map_some]
      rw [ih, ok_bind, ← hrest]
      rfl

/-- An encoded response is a header and the encoded parameters behind it. -/
theorem encodeResponse_prefix_iff {params : List (List UInt8)} (hcount : params.length < 2 ^ 16) :
    encodeResponse params <+: response ↔ securityV2HeaderSize ≤ response.length ∧
      wordAt response 0 2 = params.length ∧ wordAt response 2 2 = 0 ∧
        params.flatMap encodeParam <+: response.drop securityV2HeaderSize := by
  have hsplit : encodeResponse params =
      (toLittleEndian 2 params.length ++ toLittleEndian 2 0) ++ params.flatMap encodeParam := by
    rw [encodeResponse, List.append_assoc]
  have hfront : (toLittleEndian 2 params.length ++ toLittleEndian 2 0).length =
      securityV2HeaderSize := by
    rw [List.length_append, length_toLittleEndian, length_toLittleEndian, securityV2HeaderSize]
  constructor
  · rintro ⟨tail, rfl⟩
    obtain ⟨hfirst, hsecond⟩ := readWord_encodeResponse params tail hcount
    have hlength : securityV2HeaderSize ≤ (encodeResponse params ++ tail).length := by
      rw [List.length_append, length_encodeResponse]
      omega
    have hheader : securityV2HeaderSize = 4 := rfl
    rw [readWord_of_le (by omega)] at hfirst hsecond
    refine ⟨hlength, Except.ok.inj hfirst, Except.ok.inj hsecond, ?_⟩
    rw [hsplit, List.append_assoc, ← hfront, List.drop_left]
    exact List.prefix_append _ _
  · rintro ⟨hlength, hfirst, hsecond, hparams⟩
    have hheader : securityV2HeaderSize = 4 := rfl
    have hcountWord : toLittleEndian 2 (wordAt response 0 2) = slice response 0 2 :=
      toLittleEndian_wordAt (by omega)
    have hreserved : toLittleEndian 2 (wordAt response 2 2) = slice response 2 2 :=
      toLittleEndian_wordAt (by omega)
    have htake : toLittleEndian 2 params.length ++ toLittleEndian 2 0 =
        response.take securityV2HeaderSize := by
      rw [hfirst] at hcountWord
      rw [hsecond] at hreserved
      rw [hcountWord, hreserved, hheader, show (4 : ℕ) = 2 + 2 from rfl, List.take_add, slice,
        slice, List.drop_zero]
    rw [hsplit, htake]
    conv_rhs => rw [← List.take_append_drop securityV2HeaderSize response]
    exact (List.prefix_append_right_inj _).mpr hparams

/-- The parser of serialized responses is the decoder of parameters behind a valid header. -/
theorem readSerializedResponse_receivedAt (count : ℕ) :
    readSerializedResponse count (receivedAt response storage 0) =
      .ok (if securityV2HeaderSize ≤ response.length ∧ wordAt response 2 2 = 0 ∧
          wordAt response 0 2 = count then
        decodeParams count (response.drop securityV2HeaderSize) else none) := by
  have hheader : securityV2HeaderSize = 4 := rfl
  rw [readSerializedResponse]
  by_cases hopened : securityV2HeaderSize ≤ response.length
  swap
  · rw [consumeBytes_receivedAt_none (by decide) (by omega), if_neg (fun hvalid ↦ hopened hvalid.1)]
    rfl
  rw [consumeBytes_receivedAt (by decide) (by omega)]
  dsimp only
  rw [readWord_receivedAt (by omega), readWord_receivedAt (by omega), ok_bind, Nat.zero_add,
    Nat.zero_add, ok_bind]
  by_cases hreserved : wordAt response 2 2 = 0
  swap
  · rw [if_pos hreserved, if_neg (fun hvalid ↦ hreserved hvalid.2.1)]
    rfl
  rw [if_neg (not_not.mpr hreserved)]
  by_cases hcount : wordAt response 0 2 = count
  · rw [if_neg (not_not.mpr hcount), if_pos ⟨hopened, hreserved, hcount⟩,
      readSerializedParams_receivedAt]
  · rw [if_pos hcount, if_neg (fun hvalid ↦ hcount hvalid.2.2)]
    rfl

/-- The parser of serialized responses accepts exactly the encoded responses. -/
theorem readSerializedResponse_eq_some_iff (hsmall : response.length < 2 ^ 16) (count : ℕ)
    (params : List (List UInt8)) :
    readSerializedResponse count (receivedAt response storage 0) = .ok (some params) ↔
      params.length = count ∧ encodeResponse params <+: response := by
  rw [readSerializedResponse_receivedAt, Except.ok.injEq]
  constructor
  · intro hread
    split_ifs at hread with hvalid
    obtain ⟨hopened, hreserved, hcount⟩ := hvalid
    obtain ⟨hlength, -, hleading⟩ := decodeParams_eq_some_iff.mp hread
    have hword : params.length < 2 ^ 16 := hlength ▸ hcount ▸ wordAt_lt response 0 2
    exact ⟨hlength, (encodeResponse_prefix_iff hword).mpr
      ⟨hopened, hcount.trans hlength.symm, hreserved, hleading⟩⟩
  · rintro ⟨hlength, hencoded⟩
    have hspan := hencoded.length_le
    rw [length_encodeResponse] at hspan
    have hcount : params.length ≤ (params.map paddedSize).sum := by
      have hleast := List.length_le_sum_of_one_le (params.map paddedSize) fun span hspan ↦ by
        obtain ⟨param, -, rfl⟩ := List.mem_map.mp hspan
        rw [paddedSize, securityV2HeaderSize]
        omega
      rwa [List.length_map] at hleast
    obtain ⟨hopened, hfirst, hreserved, hleading⟩ :=
      (encodeResponse_prefix_iff (by omega)).mp hencoded
    have hvalues : ∀ param ∈ params, param.length < 2 ^ 16 := by
      intro param hparam
      have hmember : paddedSize param ∈ params.map paddedSize := List.mem_map_of_mem hparam
      have hmember := List.le_sum_of_mem hmember
      rw [paddedSize] at hmember
      omega
    rw [if_pos ⟨hopened, hreserved, hfirst.trans hlength⟩,
      decodeParams_eq_some_iff.mpr ⟨hlength, hvalues, hleading⟩]

end Serialized

/-! ### Responses of expected sizes -/

/-- The values of the expected sizes at the start of a byte string, whatever the reserved bytes and
the padding are. -/
def copyParams : List ℕ → List UInt8 → Option (List (List UInt8))
  | [], _ => some []
  | size :: sizes, bytes =>
    if bytes.length < paramSpan size ∨ wordAt bytes 0 2 ≠ size then none
    else (copyParams sizes (bytes.drop (paramSpan size))).map
      (slice bytes securityV2HeaderSize size :: ·)

/-- Decoded parameters are copied. -/
theorem copyParams_of_decodeParams {count : ℕ} {bytes : List UInt8} {params : List (List UInt8)}
    (hdecoded : decodeParams count bytes = some params) :
    copyParams (params.map List.length) bytes = some params := by
  obtain ⟨-, hsmall, tail, rfl⟩ := decodeParams_eq_some_iff.mp hdecoded
  clear hdecoded
  induction params with
  | nil => rfl
  | cons param params ih =>
    obtain ⟨hparam, hothers⟩ := List.forall_mem_cons.mp hsmall
    have hspan : (encodeParam param).length = paramSpan param.length := length_encodeParam param
    have hvalid : ¬((encodeParam param ++ (params.flatMap encodeParam ++ tail)).length <
        paramSpan param.length ∨ param.length ≠ param.length) := by
      rw [List.length_append, hspan]
      simp
    rw [List.map_cons, copyParams, List.flatMap_cons, List.append_assoc,
      (wordAt_encodeParam hparam _).1, if_neg hvalid, (slice_encodeParam param _).1,
      List.drop_left' hspan, ih hothers]
    rfl

section Copying

variable {response storage : List UInt8} {consumed : ℕ}

/-- The sum of a size and its padding, in sixteen bits, for a size that is too large. -/
theorem span_mod_of_not_paddable {size : ℕ} (hsize : size < 2 ^ 16) (hlarge : ¬Paddable size) :
    65533 ≤ size ∧ (size + paddingSize size) % 2 ^ 16 = 0 := by
  rw [Paddable, paddingSize] at *
  split_ifs at * <;> omega

/-- Unless it gets to a parameter that is too large, the copying loop copies the values of the
expected sizes. -/
theorem readResponseParams_receivedAt (sizes : List ℕ)
    (hasks : ¬AsksFrom response consumed sizes) :
    readResponseParams sizes (receivedAt response storage consumed) =
      .ok (copyParams sizes (response.drop consumed)) := by
  induction sizes generalizing consumed with
  | nil => rfl
  | cons size sizes ih =>
    have hheader : securityV2HeaderSize = 4 := rfl
    have hspan : paramSpan size = securityV2HeaderSize + (size + paddingSize size) := rfl
    rw [asksFrom_cons] at hasks
    rw [readResponseParams, copyParams, wordAt_drop, slice_drop, List.length_drop, List.drop_drop,
      Nat.add_zero]
    by_cases hopened : consumed + securityV2HeaderSize ≤ response.length
    swap
    · rw [consumeBytes_receivedAt_none (by decide) (by omega), if_pos (.inl (by omega))]
      rfl
    rw [consumeBytes_receivedAt (by decide) hopened]
    dsimp only
    rw [readWord_receivedAt (by omega), ok_bind]
    by_cases hsize : wordAt response consumed 2 = size
    swap
    · rw [if_pos hsize, if_pos (.inr hsize)]
      rfl
    obtain ⟨hpaddable, hbehind⟩ := not_or.mp fun hlater ↦ hasks ⟨⟨hopened, hsize⟩, hlater⟩
    have hsum : size + paddingSize size < 2 ^ 16 := not_not.mp hpaddable
    rw [if_neg (not_not.mpr hsize)]
    by_cases hvalue : consumed + securityV2HeaderSize + (size + paddingSize size) ≤ response.length
    swap
    · rw [consumeBytes_receivedAt_none hsum (by omega), if_pos (.inl (by omega))]
      rfl
    have hvalid : ¬(response.length - consumed < paramSpan size ∨
        wordAt response consumed 2 ≠ size) :=
      not_or.mpr ⟨by omega, not_not.mpr hsize⟩
    rw [consumeBytes_receivedAt hsum hvalue, if_neg hvalid]
    dsimp only
    rw [sliceWithin_receivedAt (by omega), ok_bind, Nat.add_assoc, ← hspan,
      ih fun hlater ↦ hbehind ⟨not_not.mp hpaddable, hlater⟩]
    rfl

/-- When it gets to a parameter that is too large, the copying loop reads outside the response. -/
theorem readResponseParams_error (hsmall : response.length < 2 ^ 16) (sizes : List ℕ)
    (hasks : AsksFrom response consumed sizes) :
    readResponseParams sizes (receivedAt response [] consumed) = .error .readOutOfBounds := by
  induction sizes generalizing consumed with
  | nil => exact absurd hasks not_asksFrom_nil
  | cons size sizes ih =>
    have hheader : securityV2HeaderSize = 4 := rfl
    have hspan : paramSpan size = securityV2HeaderSize + (size + paddingSize size) := rfl
    obtain ⟨⟨hopened, hsize⟩, hlater⟩ := asksFrom_cons.mp hasks
    rw [readResponseParams, consumeBytes_receivedAt (by decide) hopened]
    dsimp only
    rw [readWord_receivedAt (by omega), ok_bind, if_neg (not_not.mpr hsize)]
    rcases hlater with hlarge | ⟨hpaddable, hbehind⟩
    · obtain ⟨hleast, hzero⟩ := span_mod_of_not_paddable (hsize ▸ wordAt_lt response consumed 2)
        hlarge
      have hconsumed : consumeBytes (receivedAt response [] (consumed + securityV2HeaderSize))
          (size + paddingSize size) = some (consumed + securityV2HeaderSize,
            receivedAt response [] (consumed + securityV2HeaderSize)) := by
        rw [consumeBytes, receivedAt, hzero, if_neg (by dsimp only; omega)]
        rfl
      have houtside : ¬consumed + securityV2HeaderSize + size ≤ (response ++ []).length := by
        rw [List.append_nil]
        omega
      rw [hconsumed]
      dsimp only
      rw [sliceWithin, receivedAt, if_neg houtside]
      rfl
    · have hsum : size + paddingSize size < 2 ^ 16 := hpaddable
      have hinside : consumed + paramSpan size ≤ response.length := by
        obtain ⟨before, oversized, after, -, -, -, hannounced⟩ := hbehind
        have hplace := (hannounced [] ((before ++ [oversized]).head (by simp))
          (before ++ [oversized]).tail (by simp)).1
        rw [List.map_nil, List.sum_nil] at hplace
        omega
      rw [consumeBytes_receivedAt hsum (by omega)]
      dsimp only
      rw [sliceWithin_receivedAt (by omega), ok_bind, Nat.add_assoc, ← hspan, ih hbehind]
      rfl

/-- Unless it gets to a parameter that is too large, the copying parser copies the values of the
expected sizes behind a header that announces as many parameters. -/
theorem readResponse_receivedAt (sizes : List ℕ) (hasks : ¬AsksOversized response sizes) :
    readResponse sizes (receivedAt response storage 0) =
      .ok (if securityV2HeaderSize ≤ response.length ∧ wordAt response 0 2 = sizes.length then
        copyParams sizes (response.drop securityV2HeaderSize) else none) := by
  have hheader : securityV2HeaderSize = 4 := rfl
  rw [readResponse]
  by_cases hopened : securityV2HeaderSize ≤ response.length
  swap
  · rw [consumeBytes_receivedAt_none (by decide) (by omega), if_neg (fun hvalid ↦ hopened hvalid.1)]
    rfl
  rw [consumeBytes_receivedAt (by decide) (by omega)]
  dsimp only
  rw [readWord_receivedAt (by omega), ok_bind, Nat.zero_add]
  by_cases hcount : wordAt response 0 2 = sizes.length
  · rw [if_neg (not_not.mpr hcount), if_pos ⟨hopened, hcount⟩,
      readResponseParams_receivedAt sizes fun hfrom ↦ hasks ⟨hopened, hcount, hfrom⟩]
  · rw [if_pos hcount, if_neg (fun hvalid ↦ hcount hvalid.2)]
    rfl

end Copying

/-! ### The parsers in the commands -/

section Commands

variable {call : Protocol.HostCommandProgram.HostCommand} {response data : List UInt8}
  (fits : Protocol.HostCommand.PayloadFits response call.respBufSize call.sized)

/-- After an accepted response, the command with serialized parameters returns what its parser makes
of the received bytes, whatever is behind them in the storage. -/
theorem serializedCmd_of_accepted (hsmall : response.length < 2 ^ 16) (size unwritten count : ℕ) :
    (finishSecurityV2Cmd ⟨data, size, 0⟩ [] (HtoolProgram.hostcmdResult
        (.accepted response fits : Protocol.HostCommandProgram.HostReply call) data unwritten) >>=
      finishSecurityV2SerializedCmd count) =
        (readSerializedResponse count (received response)).map fun outcome ↦
          match outcome with
          | none => ⟨-1, []⟩
          | some params => ⟨0, params⟩ := by
  have hstorage : readSerializedResponse count
      ⟨response ++ data.drop response.length, response.length, 0⟩ =
        readSerializedResponse count (received response) := by
    rw [received_eq, readSerializedResponse_receivedAt]
    exact readSerializedResponse_receivedAt count
  rw [finishSecurityV2Cmd, HtoolProgram.hostcmdResult]
  dsimp only
  rw [if_neg (not_not.mpr rfl), if_pos rfl, pure_eq_ok, ok_bind, finishSecurityV2SerializedCmd,
    if_neg (not_not.mpr rfl), Nat.mod_eq_of_lt hsmall, hstorage]
  cases readSerializedResponse count (received response) with
  | error fault => rfl
  | ok outcome => cases outcome <;> rfl

/-- After an accepted response, the command with copied parameters returns what its parser makes of
the received bytes, unless the parser gets to a parameter that is too large. -/
theorem copyingCmd_of_accepted (hsmall : response.length < 2 ^ 16) (size unwritten : ℕ)
    {sizes : List ℕ} (hsome : sizes ≠ []) (hasks : ¬AsksOversized response sizes) :
    finishSecurityV2Cmd ⟨data, size, 0⟩ sizes (HtoolProgram.hostcmdResult
        (.accepted response fits : Protocol.HostCommandProgram.HostReply call) data unwritten) =
      (readResponse sizes (received response)).map fun outcome ↦
        match outcome with
        | none => ⟨-1, receivedAt response (data.drop response.length) 0, []⟩
        | some params => ⟨0, receivedAt response (data.drop response.length) 0, params⟩ := by
  have hstorage : readResponse sizes (receivedAt response (data.drop response.length) 0) =
      readResponse sizes (received response) := by
    rw [received_eq, readResponse_receivedAt sizes hasks, readResponse_receivedAt sizes hasks]
  rw [finishSecurityV2Cmd, HtoolProgram.hostcmdResult]
  dsimp only
  rw [if_neg (not_not.mpr rfl), if_neg hsome, Nat.mod_eq_of_lt hsmall, ← hstorage]
  change (readResponse sizes (receivedAt response (data.drop response.length) 0) >>= _) = _
  cases readResponse sizes (receivedAt response (data.drop response.length) 0) with
  | error fault => rfl
  | ok outcome => cases outcome <;> rfl

end Commands

/-! ### The two parsers together -/

section Together

variable {response : List UInt8}

/-- The copying parser stays inside the response exactly when it does not get to a parameter that is
too large. -/
theorem readResponse_isOk_iff (hsmall : response.length < 2 ^ 16) (sizes : List ℕ) :
    (∃ outcome, readResponse sizes (received response) = .ok outcome) ↔
      ¬AsksOversized response sizes := by
  rw [received_eq]
  constructor
  · rintro ⟨outcome, hread⟩ ⟨hopened, hcount, hasks⟩
    have hheader : securityV2HeaderSize = 4 := rfl
    rw [readResponse, consumeBytes_receivedAt (by decide) (by omega)] at hread
    dsimp only at hread
    rw [readWord_receivedAt (by omega), ok_bind, if_neg (not_not.mpr hcount), Nat.zero_add,
      readResponseParams_error hsmall sizes hasks] at hread
    exact absurd hread (by simp)
  · exact fun hasks ↦ ⟨_, readResponse_receivedAt sizes hasks⟩

/-- The sizes that the parser of serialized responses found are small enough to be padded. -/
theorem not_asksOversized_of_encodeResponse {params : List (List UInt8)}
    (hsmall : response.length < 2 ^ 16) (hencoded : encodeResponse params <+: response) :
    ¬AsksOversized response (params.map List.length) := by
  rintro ⟨-, -, before, size, after, hsplit, -, hlarge, -⟩
  have hmember : size ∈ params.map List.length := by
    rw [hsplit]
    exact List.mem_append_right _ List.mem_cons_self
  obtain ⟨param, hparam, rfl⟩ := List.mem_map.mp hmember
  have hspan : paddedSize param ∈ params.map paddedSize := List.mem_map_of_mem hparam
  have hfits := List.le_sum_of_mem hspan
  have hlength := hencoded.length_le
  rw [length_encodeResponse] at hlength
  rw [paddedSize] at hfits
  exact hlarge (show param.length + paddingSize param.length < 2 ^ 16 by omega)

/-- What the parser of serialized responses found, the copying parser copies. -/
theorem readResponse_of_readSerializedResponse (hsmall : response.length < 2 ^ 16) {count : ℕ}
    {params : List (List UInt8)}
    (hread : readSerializedResponse count (received response) = .ok (some params)) :
    readResponse (params.map List.length) (received response) = .ok (some params) := by
  rw [received_eq] at hread ⊢
  obtain ⟨hlength, hencoded⟩ := (readSerializedResponse_eq_some_iff hsmall count params).mp hread
  rw [readSerializedResponse_receivedAt, Except.ok.injEq] at hread
  split_ifs at hread with hvalid
  obtain ⟨hopened, -, hcount⟩ := hvalid
  rw [readResponse_receivedAt _ (not_asksOversized_of_encodeResponse hsmall hencoded),
    if_pos ⟨hopened, by rw [List.length_map, hcount, hlength]⟩, copyParams_of_decodeParams hread]

/-- For every response that fits the sixteen-bit size of a buffer, every number of parameters and
all sizes given to the copying parser: the parsers agree with each other and with the format and
stay inside the response, if and only if the copying parser does not get to a parameter that is too
large to be padded within sixteen bits. -/
theorem parsersAgree_iff (hsmall : response.length < 2 ^ 16) (count : ℕ) (sizes : List ℕ) :
    ParsersAgree response count sizes ↔ ¬AsksOversized response sizes := by
  constructor
  · exact fun hagree ↦ (readResponse_isOk_iff hsmall sizes).mp hagree.copyingInside
  · refine fun hasks ↦
      { accepts := fun params ↦ ?_
        copies := fun params ↦ readResponse_of_readSerializedResponse hsmall
        serializedInside := ?_
        copyingInside := (readResponse_isOk_iff hsmall sizes).mpr hasks }
    · rw [received_eq]
      exact readSerializedResponse_eq_some_iff hsmall count params
    · rw [received_eq]
      exact ⟨_, readSerializedResponse_receivedAt count⟩

/-- One parameter of five bytes. -/
theorem parsersAgree_five_bytes :
    ParsersAgree [1, 0, 0, 0, 5, 0, 0, 0, 1, 2, 3, 4, 5, 0, 0, 0] 1 [5] := by
  refine (parsersAgree_iff (by decide) 1 [5]).mpr ?_
  rintro ⟨-, -, before, size, after, hsplit, -, hlarge, -⟩
  have hmember : size ∈ [5] := by
    rw [hsplit]
    exact List.mem_append_right _ List.mem_cons_self
  obtain rfl := List.mem_singleton.mp hmember
  exact hlarge (show 5 + paddingSize 5 < 2 ^ 16 by decide)

/-- A response of one parameter that claims 65533 bytes, for a caller who expects them: the copy
begins behind the header of the parameter, where the response ends. -/
theorem not_parsersAgree_oversized :
    ¬ParsersAgree [1, 0, 0, 0, 0xfd, 0xff, 0, 0] 1 [65533] := by
  intro hagree
  obtain ⟨outcome, hread⟩ := hagree.copyingInside
  have hfault : readResponse [65533] (received [1, 0, 0, 0, 0xfd, 0xff, 0, 0]) =
      .error .readOutOfBounds := by
    decide
  rw [hfault] at hread
  cases hread

end Together

end Libhoth.Examples.SecurityV2Parsers
