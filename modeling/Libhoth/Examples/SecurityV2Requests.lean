import Libhoth.Examples.SecurityV2Format

/-!
# What a security v2 command sends

`RequestContract` is what `htool_exec_security_v2_cmd` owes its request: it either gives up with -1
and sends nothing, or makes one host command whose payload decodes to the given command code and
parameters, and it never writes outside the request buffer.

The size of a parameter and its padding are added in sixteen bits. For a parameter of 65533 bytes or
more the sum is zero, so the check of the space passes and the value is copied over the end of the
buffer. `requestContract_iff` says that this is the only way to miss the contract: it is kept
exactly when no such parameter is reached (`ReachesPaddable`).
-/

set_option autoImplicit false
set_option relaxedAutoImplicit false

namespace Libhoth.Examples.SecurityV2Requests

open Foundation.ByteString Foundation.CheckedAccess Foundation.InteractingProgram
open Protocol.HostCommandProgram HtoolProgram SecurityV2 SecurityV2Format

/-! ### The contract -/

/-- The host command of an exchange. -/
def sentCommand : Exchange ToolReply → Option HostCommand
  | ⟨.hostcmdExec call, _⟩ => some call
  | _ => none

/-- The host commands of a history, in order. -/
def sentCommands (history : ToolHistory) : List HostCommand :=
  history.filterMap sentCommand

/-- What a command owes its request, for a buffer of zeros, whatever the device does and whatever is
expected of the response. -/
def RequestContract (major minor : ℕ) (params : List (List UInt8)) (size : ℕ) : Prop :=
  ∀ (baseCommand : ℕ) (responseBuffer : SecurityV2Buffer) (sizes : List ℕ)
    (result : Except Fault SecurityV2Result) (history : ToolHistory),
    Runs recording (htoolExecSecurityV2Cmd major minor baseCommand (securityV2BufferParam size)
      params responseBuffer sizes) [] result history →
    result ≠ .error .writeOutOfBounds ∧
      (result = .ok ⟨-1, responseBuffer, []⟩ ∧ sentCommands history = [] ∨
        ∃ call, sentCommands history = [call] ∧ call.command = baseCommand ∧
          decodeRequest call.payload = some (major, minor, params))

/-- From a place in a buffer on, every parameter whose header still fits the buffer behind the
parameters before it is small enough to be padded within sixteen bits. -/
def ReachesPaddableFrom (size start : ℕ) (params : List (List UInt8)) : Prop :=
  ∀ before param after, params = before ++ param :: after →
    (∀ other ∈ before, Paddable other.length) →
      start + (before.map paddedSize).sum + securityV2HeaderSize ≤ size → Paddable param.length

/-- Every parameter that a request of a size gets to is small enough to be padded. -/
def ReachesPaddable (size : ℕ) (params : List (List UInt8)) : Prop :=
  ReachesPaddableFrom size securityV2HeaderSize params

section Reaching

variable {size start : ℕ}

theorem reachesPaddableFrom_nil : ReachesPaddableFrom size start [] :=
  fun _ _ _ hsplit ↦ absurd hsplit.symm (by simp)

/-- The first parameter and, when it is small enough, those behind it. -/
theorem reachesPaddableFrom_cons {param : List UInt8} {params : List (List UInt8)} :
    ReachesPaddableFrom size start (param :: params) ↔
      (start + securityV2HeaderSize ≤ size → Paddable param.length) ∧
        (Paddable param.length → ReachesPaddableFrom size (start + paddedSize param) params) := by
  constructor
  · refine fun hall ↦ ⟨fun hroom ↦ ?_, fun hparam before other after hsplit hbefore hroom ↦ ?_⟩
    · exact hall [] param params rfl (fun _ hmem ↦ absurd hmem List.not_mem_nil) hroom
    · refine hall (param :: before) other after (by rw [hsplit, List.cons_append])
        (List.forall_mem_cons.mpr ⟨hparam, hbefore⟩) ?_
      rwa [List.map_cons, List.sum_cons, ← Nat.add_assoc]
  · rintro ⟨hfirst, hothers⟩ before other after hsplit hbefore hroom
    cases before with
    | nil =>
      obtain ⟨rfl, -⟩ := List.cons.inj hsplit
      exact hfirst hroom
    | cons earlier before =>
      obtain ⟨rfl, hrest⟩ := List.cons.inj hsplit
      obtain ⟨hearlier, hbefore⟩ := List.forall_mem_cons.mp hbefore
      rw [List.map_cons, List.sum_cons, ← Nat.add_assoc] at hroom
      exact hothers hearlier before other after hrest hbefore hroom

/-- Behind the end of the buffer nothing is reached. -/
theorem reachesPaddableFrom_of_lt {params : List (List UInt8)}
    (hfull : size < start + securityV2HeaderSize) : ReachesPaddableFrom size start params := by
  intro before param after _ _ hroom
  omega

end Reaching

/-! ### Filling the buffer -/

/-- A request buffer that is written up to a place and zero behind it. -/
def filling (front : List UInt8) (left : ℕ) : SecurityV2Buffer :=
  ⟨front ++ List.replicate left 0, front.length + left, front.length⟩

section Filling

variable (front : List UInt8) (left : ℕ)

/-- The header of a parameter, behind the header the two reserved bytes that stay zero. -/
theorem overwriteWithin_paramHeader (param : List UInt8) (hroom : securityV2HeaderSize ≤ left) :
    overwriteWithin (front ++ List.replicate left 0) front.length
        (toLittleEndian 2 param.length) =
      .ok ((front ++ (toLittleEndian 2 param.length ++ toLittleEndian 2 0)) ++
        List.replicate (left - securityV2HeaderSize) 0) := by
  have hheader : securityV2HeaderSize = 4 := rfl
  have hzeros : List.replicate (left - 2) (0 : UInt8) =
      toLittleEndian 2 0 ++ List.replicate (left - securityV2HeaderSize) 0 := by
    rw [show left - 2 = 2 + (left - securityV2HeaderSize) by omega, List.replicate_add]
    rfl
  rw [overwriteWithin_replicate 0 _ _ (by rw [length_toLittleEndian]; omega), length_toLittleEndian,
    hzeros]
  simp only [List.append_assoc]

/-- The value of a parameter, behind it the padding that stays zero. -/
theorem overwriteWithin_paramValue (param : List UInt8)
    (hroom : param.length + paddingSize param.length ≤ left) :
    overwriteWithin (front ++ List.replicate left 0) front.length param =
      .ok ((front ++ (param ++ List.replicate (paddingSize param.length) 0)) ++
        List.replicate (left - (param.length + paddingSize param.length)) 0) := by
  have hzeros : List.replicate (left - param.length) (0 : UInt8) =
      List.replicate (paddingSize param.length) 0 ++
        List.replicate (left - (param.length + paddingSize param.length)) 0 := by
    rw [← List.replicate_add]
    congr 1
    omega
  rw [overwriteWithin_replicate 0 _ _ (by omega), hzeros]
  simp only [List.append_assoc]

/-- A parameter that fits is written as the format has it. -/
theorem writeRequestParams_cons {param : List UInt8} (rest : List (List UInt8))
    (hparam : Paddable param.length) (hroom : paddedSize param ≤ left) :
    writeRequestParams (param :: rest) (filling front left) =
      writeRequestParams rest (filling (front ++ encodeParam param) (left - paddedSize param)) := by
  have hheader : securityV2HeaderSize = 4 := rfl
  have hsum : param.length + paddingSize param.length < 2 ^ 16 := hparam
  rw [paddedSize] at hroom
  have hopened : (front ++ (toLittleEndian 2 param.length ++ toLittleEndian 2 0)).length =
      front.length + securityV2HeaderSize := by
    simp only [List.length_append, length_toLittleEndian, hheader]
  have hwritten := overwriteWithin_paramValue
    (front ++ (toLittleEndian 2 param.length ++ toLittleEndian 2 0))
    (left - securityV2HeaderSize) param (by omega)
  rw [hopened] at hwritten
  rw [writeRequestParams, filling, consumeBytes_of_le (by decide) (by dsimp only; omega)]
  dsimp only
  rw [overwriteWithin_paramHeader front left param (by omega), ok_bind,
    consumeBytes_of_le hsum (by dsimp only; omega)]
  dsimp only
  rw [hwritten, ok_bind, filling]
  congr 2
  · rw [encodeParam, paddedSize, Nat.sub_sub]
    simp only [List.append_assoc]
  · rw [List.length_append, length_encodeParam, paddedSize]
    omega
  · rw [List.length_append, length_encodeParam, paddedSize]
    omega

/-- A parameter that does not fit, and whose padding does not wrap, ends the request. -/
theorem writeRequestParams_cons_none {param : List UInt8} (rest : List (List UInt8))
    (hparam : front.length + securityV2HeaderSize ≤ front.length + left → Paddable param.length)
    (hshort : left < paddedSize param) :
    writeRequestParams (param :: rest) (filling front left) = .ok none := by
  have hheader : securityV2HeaderSize = 4 := rfl
  rw [paddedSize] at hshort
  rw [writeRequestParams, filling]
  by_cases hopened : securityV2HeaderSize ≤ left
  · have hsum : param.length + paddingSize param.length < 2 ^ 16 := hparam (by omega)
    rw [consumeBytes_of_le (by decide) (by dsimp only; omega)]
    dsimp only
    rw [overwriteWithin_paramHeader front left param hopened, ok_bind, consumeBytes,
      Nat.mod_eq_of_lt hsum, if_pos (by dsimp only; omega)]
    rfl
  · rw [consumeBytes, if_pos (by rw [hheader] at hopened ⊢; dsimp only; omega)]
    rfl

/-- A parameter that is too large to be padded is copied over the end of the buffer. -/
theorem writeRequestParams_cons_error {param : List UInt8} (rest : List (List UInt8))
    (hsmall : front.length + left < 2 ^ 16) (hsize : param.length < 2 ^ 16)
    (hlarge : ¬Paddable param.length) (hopened : securityV2HeaderSize ≤ left) :
    writeRequestParams (param :: rest) (filling front left) = .error .writeOutOfBounds := by
  have hheader : securityV2HeaderSize = 4 := rfl
  have hwraps : 65533 ≤ param.length ∧
      (param.length + paddingSize param.length) % 2 ^ 16 = 0 := by
    rw [Paddable, paddingSize] at *
    split_ifs at * <;> omega
  rw [writeRequestParams, filling, consumeBytes_of_le (by decide) (by dsimp only; omega)]
  dsimp only
  rw [overwriteWithin_paramHeader front left param hopened, ok_bind, consumeBytes, hwraps.2,
    if_neg (by dsimp only; omega)]
  dsimp only
  have houtside : ¬front.length + securityV2HeaderSize + param.length ≤
      ((front ++ (toLittleEndian 2 param.length ++ toLittleEndian 2 0)) ++
        List.replicate (left - securityV2HeaderSize) 0).length := by
    simp only [List.length_append, length_toLittleEndian, List.length_replicate]
    omega
  rw [overwriteWithin, if_neg houtside]
  rfl

end Filling

/-- When it gets only to parameters that can be padded, the loop over the request parameters gives
up or writes them as the format has them. -/
theorem writeRequestParams_filling (params : List (List UInt8)) (front : List UInt8) (left : ℕ)
    (hreaches : ReachesPaddableFrom (front.length + left) front.length params) :
    ∃ outcome, writeRequestParams params (filling front left) = .ok outcome ∧
      ∀ filled, outcome = some filled → ∃ rest,
        filled = filling (front ++ params.flatMap encodeParam) rest ∧
          (front ++ params.flatMap encodeParam).length + rest = front.length + left := by
  induction params generalizing front left with
  | nil =>
    refine ⟨some (filling front left), rfl, fun filled hfilled ↦ ?_⟩
    obtain rfl := Option.some.inj hfilled
    exact ⟨left, by rw [List.flatMap_nil, List.append_nil], by
      rw [List.flatMap_nil, List.append_nil]⟩
  | cons param params ih =>
    obtain ⟨hparam, hothers⟩ := reachesPaddableFrom_cons.mp hreaches
    by_cases hroom : paddedSize param ≤ left
    · have hheader : securityV2HeaderSize ≤ left := by
        rw [paddedSize] at hroom
        omega
      have hpaddable := hparam (by omega)
      have hend : (front ++ encodeParam param).length = front.length + paddedSize param := by
        rw [List.length_append, length_encodeParam]
      have hlength : (front ++ encodeParam param).length + (left - paddedSize param) =
          front.length + left := by
        omega
      obtain ⟨outcome, houtcome, hfilled⟩ := ih (front ++ encodeParam param)
        (left - paddedSize param) (by rw [hlength, hend]; exact hothers hpaddable)
      refine ⟨outcome, (writeRequestParams_cons front left params hpaddable hroom).trans houtcome,
        fun filled hsome ↦ ?_⟩
      obtain ⟨rest, rfl, hrest⟩ := hfilled filled hsome
      rw [List.append_assoc, ← List.flatMap_cons] at hrest ⊢
      exact ⟨rest, rfl, hrest.trans hlength⟩
    · exact ⟨none, writeRequestParams_cons_none front left params hparam (Nat.not_le.mp hroom),
        fun _ hsome ↦ absurd hsome.symm (Option.some_ne_none _)⟩

/-- When it gets to a parameter that cannot be padded, the loop writes outside the buffer. -/
theorem writeRequestParams_error (params : List (List UInt8)) (front : List UInt8) (left : ℕ)
    (hsmall : front.length + left < 2 ^ 16) (hsizes : ∀ param ∈ params, param.length < 2 ^ 16)
    (hreaches : ¬ReachesPaddableFrom (front.length + left) front.length params) :
    writeRequestParams params (filling front left) = .error .writeOutOfBounds := by
  induction params generalizing front left with
  | nil => exact absurd reachesPaddableFrom_nil hreaches
  | cons param params ih =>
    obtain ⟨hsize, hothersSizes⟩ := List.forall_mem_cons.mp hsizes
    rw [reachesPaddableFrom_cons] at hreaches
    by_cases hpaddable : Paddable param.length
    · have hothers : ¬ReachesPaddableFrom (front.length + left)
          (front.length + paddedSize param) params :=
        fun hothers ↦ hreaches ⟨fun _ ↦ hpaddable, fun _ ↦ hothers⟩
      have hroom : paddedSize param ≤ left := by
        by_contra hshort
        exact hothers (reachesPaddableFrom_of_lt (by omega))
      have hend : (front ++ encodeParam param).length = front.length + paddedSize param := by
        rw [List.length_append, length_encodeParam]
      have hlength : (front ++ encodeParam param).length + (left - paddedSize param) =
          front.length + left := by
        omega
      rw [writeRequestParams_cons front left params hpaddable hroom]
      exact ih _ _ (hlength ▸ hsmall) hothersSizes (by rw [hlength, hend]; exact hothers)
    · have hopened : securityV2HeaderSize ≤ left := by
        by_contra hshort
        exact hreaches ⟨fun hroom ↦ absurd hroom (by omega), fun hother ↦ absurd hother hpaddable⟩
      exact writeRequestParams_cons_error front left params hsmall hsize hpaddable hopened

/-! ### The request -/

section Request

variable {major minor size : ℕ} {params : List (List UInt8)}

/-- The header of a request. -/
def requestHeader (major minor : ℕ) (params : List (List UInt8)) : List UInt8 :=
  toLittleEndian 1 major ++ toLittleEndian 1 minor ++ toLittleEndian 2 params.length

theorem length_requestHeader (major minor : ℕ) (params : List (List UInt8)) :
    (requestHeader major minor params).length = securityV2HeaderSize := by
  simp only [requestHeader, List.length_append, length_toLittleEndian, securityV2HeaderSize]

/-- A buffer with room for the header is filled from behind it. -/
theorem writeRequest_of_le (hsmall : size < 2 ^ 16) (hopened : securityV2HeaderSize ≤ size) :
    writeRequest major minor params (securityV2BufferParam size) =
      writeRequestParams params
        (filling (requestHeader major minor params) (size - securityV2HeaderSize)) := by
  have hbuffer : securityV2BufferParam size = filling [] size := by
    rw [securityV2BufferParam, filling, Nat.mod_eq_of_lt hsmall, List.length_nil, Nat.zero_add,
      List.nil_append]
  have hwritten := overwriteWithin_replicate 0 [] (requestHeader major minor params)
    (hopened.trans_eq' (length_requestHeader major minor params))
  rw [length_requestHeader, List.length_nil, List.nil_append, List.nil_append] at hwritten
  rw [writeRequest, hbuffer, filling, consumeBytes_of_le (by decide)
    (by dsimp only; rw [List.length_nil]; omega)]
  dsimp only
  rw [← requestHeader, List.nil_append, List.length_nil, hwritten, ok_bind, filling,
    length_requestHeader]
  congr 2
  omega

theorem writeRequest_of_lt (hsmall : size < 2 ^ 16) (hshort : size < securityV2HeaderSize) :
    writeRequest major minor params (securityV2BufferParam size) = .ok none := by
  have hheader : securityV2HeaderSize = 4 := rfl
  rw [writeRequest, consumeBytes, securityV2BufferParam, Nat.mod_eq_of_lt hsmall,
    if_pos (by rw [hheader] at hshort ⊢; dsimp only; omega)]
  rfl

/-- A request that gets only to parameters that can be padded is given up or decodes to what it was
made of. -/
theorem writeRequest_decodes (hmajor : major < 2 ^ 8) (hminor : minor < 2 ^ 8)
    (hcount : params.length < 2 ^ 16) (hsizes : ∀ param ∈ params, param.length < 2 ^ 16)
    (hsmall : size < 2 ^ 16) (hreaches : ReachesPaddable size params) :
    ∃ outcome, writeRequest major minor params (securityV2BufferParam size) = .ok outcome ∧
      ∀ filled, outcome = some filled →
        decodeRequest (filled.data.take filled.size) = some (major, minor, params) := by
  have hlength := length_requestHeader major minor params
  rcases Nat.lt_or_ge size securityV2HeaderSize with hshort | hopened
  · exact ⟨none, writeRequest_of_lt hsmall hshort,
      fun _ hsome ↦ absurd hsome.symm (Option.some_ne_none _)⟩
  · have hwhole : (requestHeader major minor params).length + (size - securityV2HeaderSize) =
        size := by
      omega
    obtain ⟨outcome, houtcome, hfilled⟩ := writeRequestParams_filling params
      (requestHeader major minor params) (size - securityV2HeaderSize)
      (by rw [hwhole, hlength]; exact hreaches)
    refine ⟨outcome, (writeRequest_of_le hsmall hopened).trans houtcome, fun filled hsome ↦ ?_⟩
    obtain ⟨rest, rfl, -⟩ := hfilled filled hsome
    have hencoded : requestHeader major minor params ++ params.flatMap encodeParam =
        encodeRequest major minor params := by
      simp only [requestHeader, encodeRequest, List.append_assoc]
    rw [filling, List.take_of_length_le (by rw [List.length_append, List.length_replicate]),
      hencoded]
    exact decodeRequest_encodeRequest hmajor hminor hcount hsizes _

theorem writeRequest_error (hsizes : ∀ param ∈ params, param.length < 2 ^ 16)
    (hsmall : size < 2 ^ 16) (hreaches : ¬ReachesPaddable size params) :
    writeRequest major minor params (securityV2BufferParam size) = .error .writeOutOfBounds := by
  have hlength := length_requestHeader major minor params
  have hopened : securityV2HeaderSize ≤ size := by
    by_contra hshort
    exact hreaches (reachesPaddableFrom_of_lt (by omega))
  have hwhole : (requestHeader major minor params).length + (size - securityV2HeaderSize) =
      size := by
    omega
  rw [writeRequest_of_le hsmall hopened]
  exact writeRequestParams_error params _ _ (by omega) hsizes
    (by rw [hwhole, hlength]; exact hreaches)

end Request

/-! ### The command -/

theorem bind_ne_error {α β : Type} {outcome : Except Fault α} {next : α → Except Fault β}
    {fault : Fault} (hfirst : outcome ≠ .error fault) (hnext : ∀ value, next value ≠ .error fault) :
    (outcome >>= next) ≠ .error fault := by
  cases outcome with
  | error other => exact fun hother ↦ hfirst (congrArg Except.error (Except.error.inj hother))
  | ok value => exact hnext value

theorem readWord_ne_writeOutOfBounds (bytes : List UInt8) (offset width : ℕ) :
    readWord bytes offset width ≠ .error .writeOutOfBounds := by
  rw [readWord]
  split_ifs <;> simp

theorem sliceWithin_ne_writeOutOfBounds (bytes : List UInt8) (offset count : ℕ) :
    sliceWithin bytes offset count ≠ .error .writeOutOfBounds := by
  rw [sliceWithin]
  split_ifs <;> simp

/-- The copying loop writes nothing. -/
theorem readResponseParams_ne_writeOutOfBounds (sizes : List ℕ) (buffer : SecurityV2Buffer) :
    readResponseParams sizes buffer ≠ .error .writeOutOfBounds := by
  induction sizes generalizing buffer with
  | nil => simp [readResponseParams]
  | cons size sizes ih =>
    rw [readResponseParams]
    split
    · simp
    · refine bind_ne_error (readWord_ne_writeOutOfBounds _ _ _) fun word ↦ ?_
      split_ifs
      · simp
      · split
        · simp
        · refine bind_ne_error (sliceWithin_ne_writeOutOfBounds _ _ _) fun copied ↦ ?_
          exact bind_ne_error (ih _) fun later ↦ by simp

/-- The part of the command behind the request writes nothing. -/
theorem finishSecurityV2Cmd_ne_writeOutOfBounds (responseBuffer : SecurityV2Buffer)
    (sizes : List ℕ) (result : HostcmdResult) :
    finishSecurityV2Cmd responseBuffer sizes result ≠ .error .writeOutOfBounds := by
  have hread (buffer : SecurityV2Buffer) :
      readResponse sizes buffer ≠ .error .writeOutOfBounds := by
    rw [readResponse]
    split
    · simp
    · refine bind_ne_error (readWord_ne_writeOutOfBounds _ _ _) fun word ↦ ?_
      split_ifs
      · simp
      · exact readResponseParams_ne_writeOutOfBounds sizes _
  rw [finishSecurityV2Cmd]
  split_ifs
  · simp
  · simp
  · refine bind_ne_error (hread _) fun outcome ↦ ?_
    cases outcome <;> simp

/-- A request that leaves its buffer misses the contract. -/
theorem not_requestContract_of_error {major minor size : ℕ} {params : List (List UInt8)}
    (herror : writeRequest major minor params (securityV2BufferParam size) =
      .error .writeOutOfBounds) : ¬RequestContract major minor params size := by
  intro hcontract
  have hrun : Runs recording (htoolExecSecurityV2Cmd major minor 0 (securityV2BufferParam size)
      params (securityV2BufferParam 0) []) [] (.error .writeOutOfBounds) [] := by
    rw [htoolExecSecurityV2Cmd, herror]
    exact ⟨rfl, rfl⟩
  exact (hcontract 0 _ [] _ [] hrun).1 rfl

/-- For every command code, all parameters and every size that the types admit: the command keeps
the contract of its request if and only if it gets only to parameters that can be padded. -/
theorem requestContract_iff {major minor size : ℕ} {params : List (List UInt8)}
    (hmajor : major < 2 ^ 8) (hminor : minor < 2 ^ 8) (hcount : params.length < 2 ^ 16)
    (hsizes : ∀ param ∈ params, param.length < 2 ^ 16) (hsmall : size < 2 ^ 16) :
    RequestContract major minor params size ↔ ReachesPaddable size params := by
  constructor
  · intro hcontract
    by_contra hreaches
    exact not_requestContract_of_error (writeRequest_error hsizes hsmall hreaches) hcontract
  · intro hreaches baseCommand responseBuffer sizes result history hrun
    obtain ⟨outcome, houtcome, hdecodes⟩ :=
      writeRequest_decodes hmajor hminor hcount hsizes hsmall hreaches
    rw [htoolExecSecurityV2Cmd, houtcome] at hrun
    cases outcome with
    | none =>
      obtain ⟨rfl, rfl⟩ := hrun
      exact ⟨by simp, .inl ⟨rfl, rfl⟩⟩
    | some filled =>
      obtain ⟨hostcmd, middle, hexec, rfl, rfl⟩ := (runs_bind _ _ _ _ _).mp hrun
      obtain ⟨unwritten, first, hunwritten, hexec⟩ := (runs_bind _ _ _ _ _).mp hexec
      obtain ⟨reply, second, hreply, rfl, rfl⟩ := (runs_bind _ _ _ _ _).mp hexec
      obtain rfl := (runs_request _ _ _ _).mp hunwritten
      obtain rfl := (runs_request _ _ _ _).mp hreply
      exact ⟨finishSecurityV2Cmd_ne_writeOutOfBounds _ _ _,
        .inr ⟨_, rfl, rfl, hdecodes filled rfl⟩⟩

/-- A parameter of 65533 bytes and the largest buffer: the buffer has no room for the value and its
padding, but the sum is zero in sixteen bits. -/
theorem not_requestContract_oversized :
    ¬RequestContract 0 0 [List.replicate 65533 0] 65535 := by
  have hlength : (List.replicate 65533 (0 : UInt8)).length = 65533 := List.length_replicate
  generalize List.replicate 65533 (0 : UInt8) = param at hlength ⊢
  refine not_requestContract_of_error (writeRequest_error (fun other hother ↦ ?_) (by decide)
    fun hreaches ↦ ?_)
  · rw [List.mem_singleton.mp hother, hlength]
    decide
  · have hpaddable := hreaches [] param [] rfl (fun _ hmem ↦ absurd hmem List.not_mem_nil)
      (by decide)
    rw [hlength] at hpaddable
    exact absurd hpaddable (show ¬65533 + paddingSize 65533 < 2 ^ 16 by decide)

/-- One parameter of three bytes in a buffer of sixteen. -/
theorem requestContract_three_bytes : RequestContract 2 5 [[1, 2, 3]] 16 := by
  refine (requestContract_iff (by decide) (by decide) (by decide) (by decide) (by decide)).mpr ?_
  intro before param after hsplit _ _
  have hmember : param ∈ [[1, 2, 3]] := by
    rw [hsplit]
    exact List.mem_append_right _ List.mem_cons_self
  obtain rfl := List.mem_singleton.mp hmember
  exact show 3 + paddingSize 3 < 2 ^ 16 by decide

end Libhoth.Examples.SecurityV2Requests
