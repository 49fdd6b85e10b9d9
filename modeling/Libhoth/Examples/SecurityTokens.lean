import Libhoth.Examples.SecurityV2

/-!
# The attestation file

`htool_fetch_single_attestation_file` of `htool_security_tokens.c`, with the three functions that it
calls to talk to the device, each for the case that the caller passes a buffer to fill.

`AttestationCall` is what the function asks for; `attestationHandler` answers a call by running the
function that it stands for. The function copies what its calls return into a buffer of 2048 bytes;
copying beyond it is a `Fault`. In C such a copy changes whatever lies behind the buffer and goes
on, so `fetchSingleAttestationFile` also takes the number of bytes for which it may do so.
`htoolGetTokenSetCount_ensures`, `htoolGetTokensInSet_ensures` and `htoolGetTokenSetInfo_ensures`
say that the three functions have no fault of their own, whatever the device does.
-/

set_option autoImplicit false
set_option relaxedAutoImplicit false

namespace Libhoth.Examples.SecurityTokens

open Foundation.ByteString Foundation.CheckedAccess Foundation.CellMemory
open Foundation.InteractingProgram HtoolProgram SecurityV2

/-! ### Sizes -/

/-- `MAX_TOKEN_RESPONSE_SIZE`. -/
def maxTokenResponseSize : ℕ := 1024

/-- `TOKEN_BYTE_SIZE`. -/
def tokenByteSize : ℕ := 16

/-- `MAX_ATTESTATION_SIZE`. -/
def maxAttestationSize : ℕ := 2048

/-- `MAX_STRING_BUFFER_SIZE`. -/
def maxStringBufferSize : ℕ := 2048

/-- `sizeof(struct nonce)` and `sizeof(struct boot_nonce)`. -/
def nonceSize : ℕ := 16

/-- `sizeof(struct detached_challenge_response_signature)`. -/
def signatureSize : ℕ := 128

/-- `sizeof(struct token_set_info)`. -/
def tokenSetInfoSize : ℕ := 8

/-- `sizeof(uint32_t)`. -/
def wordSize : ℕ := 4

/-- `HOTH_SECURITY_V2_REQUEST_SIZE`, and `HOTH_SECURITY_V2_RESPONSE_SIZE` alike. -/
def hothSecurityV2Size (paramCount : ℕ) : ℕ :=
  securityV2HeaderSize + paramCount * securityV2HeaderSize

/-! ### The calls to the device -/

/-- `get_zero_challenge_nonce`. -/
def getZeroChallengeNonce : List UInt8 :=
  List.replicate nonceSize 0

/-- `append_index_to_file_name`: the length of the name. -/
def appendIndexToFileName (baseString : List UInt8) (number : ℕ) : ℕ :=
  baseString.length + (Nat.toDigits 10 number).length

/-- What one of the functions returns: a non-zero status, or zero and what it copies. -/
inductive HelperReply (α : Type)
  | failed (status : BitVec 32) (nonzero : status ≠ 0)
  | accepted (value : α)

/-- The status -1. -/
def HelperReply.error {α : Type} : HelperReply α :=
  .failed (-1) minusOne_ne_zero

/-- What `htool_get_token_set_count` copies. -/
structure TokenSetCount where
  numIds : ℕ
  bootNonce : List UInt8
  signature : List UInt8

/-- What `htool_get_tokens_in_set` copies. -/
structure TokensInSet where
  tokens : List UInt8
  bootNonce : List UInt8
  signature : List UInt8

/-- The response parameters of `htool_get_token_set_count`. -/
def tokenSetCountSizes : List ℕ := [wordSize, nonceSize, signatureSize]

/-- The response parameters of `htool_get_token_set_info`. -/
def tokenSetInfoSizes : List ℕ := [tokenSetInfoSize, nonceSize, signatureSize]

/-- The command of `htool_get_token_set_count`. -/
def execGetTokenSetCount : ToolProgram (Except Fault SecurityV2Result) :=
  htoolExecSecurityV2Cmd 5 6 securityV2Command
    (securityV2BufferParam (hothSecurityV2Size 1 + nonceSize)) [getZeroChallengeNonce]
    (securityV2BufferParam (hothSecurityV2Size 3 + wordSize + nonceSize + signatureSize))
    tokenSetCountSizes

/-- `htool_get_token_set_count`. -/
def htoolGetTokenSetCount : ToolProgram (Except Fault (HelperReply TokenSetCount)) := do
  if ¬(← request ToolCall.libhothDevice) then return .ok .error
  else if (← htoolGetSecurityVersion) ≠ .v2 then return .ok .error
  else
    match ← execGetTokenSetCount with
    | .error fault => return .error fault
    | .ok result =>
      if hstatus : result.status ≠ 0 then return .ok (.failed result.status hstatus)
      else return .ok (.accepted ⟨littleEndian (result.params.getD 0 []),
        result.params.getD 1 [], result.params.getD 2 []⟩)

/-- The command of `htool_get_tokens_in_set`. -/
def execGetTokensInSet (setIdx : ℕ) : ToolProgram (Except Fault SecurityV2SerializedResult) :=
  htoolExecSecurityV2SerializedCmd 5 8 securityV2Command
    (securityV2BufferParam (hothSecurityV2Size 2 + wordSize + nonceSize))
    [toLittleEndian wordSize setIdx, getZeroChallengeNonce]
    (securityV2BufferParam maxTokenResponseSize) 3

/-- The checks of `htool_get_tokens_in_set` on what was parsed. -/
def checkTokensInSet (parsed : TokensInSet) : HelperReply TokensInSet :=
  if parsed.tokens.length > maxTokenResponseSize then .error
  else if parsed.tokens.length % tokenByteSize ≠ 0 then .error
  else .accepted parsed

/-- `htool_get_tokens_in_set`. -/
def htoolGetTokensInSet (setIdx : ℕ) : ToolProgram (Except Fault (HelperReply TokensInSet)) := do
  if ¬(← request ToolCall.libhothDevice) then return .ok .error
  else
    match ← request (ToolCall.getParamString "token_output") with
    | none => return .ok .error
    | some tokenOutputFileBase =>
      if appendIndexToFileName tokenOutputFileBase setIdx ≥ maxStringBufferSize then
        return .ok .error
      else if (← htoolGetSecurityVersion) ≠ .v2 then return .ok .error
      else
        match ← execGetTokensInSet setIdx with
        | .error fault => return .error fault
        | .ok result =>
          if hstatus : result.status ≠ 0 then return .ok (.failed result.status hstatus)
          else return .ok (checkTokensInSet
            ⟨result.params.getD 0 [], result.params.getD 1 [], result.params.getD 2 []⟩)

/-- The command of `htool_get_token_set_info`. -/
def execGetTokenSetInfo (setIdx : ℕ) : ToolProgram (Except Fault SecurityV2Result) :=
  htoolExecSecurityV2Cmd 5 7 securityV2Command
    (securityV2BufferParam (hothSecurityV2Size 2 + wordSize + nonceSize))
    [toLittleEndian wordSize setIdx, getZeroChallengeNonce]
    (securityV2BufferParam (hothSecurityV2Size 3 + tokenSetInfoSize + nonceSize + signatureSize))
    tokenSetInfoSizes

/-- `htool_get_token_set_info`: the bytes of the `struct token_set_info`. -/
def htoolGetTokenSetInfo (setIdx : ℕ) : ToolProgram (Except Fault (HelperReply (List UInt8))) := do
  if ¬(← request ToolCall.libhothDevice) then return .ok .error
  else if (← htoolGetSecurityVersion) ≠ .v2 then return .ok .error
  else
    match ← execGetTokenSetInfo setIdx with
    | .error fault => return .error fault
    | .ok result =>
      if hstatus : result.status ≠ 0 then return .ok (.failed result.status hstatus)
      else return .ok (.accepted (result.params.getD 0 []))

/-! ### Fetching the attestation -/

/-- What `htool_fetch_single_attestation_file` asks for. -/
inductive AttestationCall
  | libhothDevice
  | tokenSetCount
  | openFile (path : List UInt8)
  | securityVersion
  | tokensInSet (setIdx : ℕ)
  | tokenSetInfo (setIdx : ℕ)
  | writeFile (contents : List UInt8)

/-- The replies of its calls. -/
abbrev AttestationReply : AttestationCall → Type
  | .libhothDevice => Bool
  | .tokenSetCount => Except Fault (HelperReply TokenSetCount)
  | .openFile _ => Bool
  | .securityVersion => LibhothSecurityVersion
  | .tokensInSet _ => Except Fault (HelperReply TokensInSet)
  | .tokenSetInfo _ => Except Fault (HelperReply (List UInt8))
  | .writeFile _ => Unit

/-- Programs over the calls. -/
abbrev AttestationProgram := Interaction AttestationReply

/-- The exchanges of a run of the function. -/
abbrev AttestationHistory := List (Exchange AttestationReply)

/-- Each call runs the function that it stands for. -/
def attestationHandler : (call : AttestationCall) → ToolProgram (AttestationReply call)
  | .libhothDevice => request ToolCall.libhothDevice
  | .tokenSetCount => htoolGetTokenSetCount
  | .openFile path => request (ToolCall.openFile path)
  | .securityVersion => htoolGetSecurityVersion
  | .tokensInSet setIdx => htoolGetTokensInSet setIdx
  | .tokenSetInfo setIdx => htoolGetTokenSetInfo setIdx
  | .writeFile contents => request (ToolCall.writeFile contents)

/-- The copies of `htool_get_token_set_count` into the buffer. As for the other copies, `reach` is
the number of bytes from the start of the buffer on that a copy can change before the run has no
meaning any more: the size of the buffer, or more where the bytes behind it can be spared. -/
def copyTokenSetCount (reach : ℕ) (data : ℕ → UInt8) (dataIndex : ℕ) (count : TokenSetCount) :
    Except Fault (ℕ → UInt8) := do
  let data ← storeWithin reach data dataIndex (toLittleEndian wordSize count.numIds)
  let data ← storeWithin reach data (dataIndex + wordSize) count.bootNonce
  storeWithin reach data (dataIndex + wordSize + nonceSize) count.signature

/-- The copies of `htool_get_tokens_in_set` into the buffer, and `*bytes_written` after them. -/
def copyTokensInSet (reach : ℕ) (data : ℕ → UInt8) (dataIndex : ℕ) (set : TokensInSet) :
    Except Fault ((ℕ → UInt8) × ℕ) := do
  let data ← storeWithin reach data dataIndex set.tokens
  let bytesWritten := set.tokens.length
  let data ← storeWithin reach data (dataIndex + bytesWritten) set.bootNonce
  let bytesWritten := bytesWritten + set.bootNonce.length
  let data ← storeWithin reach data (dataIndex + bytesWritten) set.signature
  let bytesWritten := bytesWritten + set.signature.length
  return (data, bytesWritten)

/-- The variables of the loop over the sets. -/
structure FetchState where
  index : ℕ
  status : BitVec 32
  dataIndex : ℕ
  data : ℕ → UInt8

/-- The sets still to come. -/
def FetchState.remaining (numIds : ℕ) (state : FetchState) : ℕ :=
  numIds - state.index

/-- How a round ends: with the next set, or for good. -/
abbrev FetchOutcome (numIds : ℕ) (state : FetchState) :=
  {next : FetchState // next.remaining numIds < state.remaining numIds} ⊕
    Except Fault (BitVec 32)

/-- What follows the loop: the file is written. -/
def writeAttestation (reach : ℕ) (state : FetchState) :
    AttestationProgram (Except Fault (BitVec 32)) :=
  match loadWithin reach state.data 0 state.dataIndex with
  | .error fault => return .error fault
  | .ok contents => do
    let _ ← request (AttestationCall.writeFile contents)
    return .ok 0

/-- The second half of a round, after the tokens of the set. -/
def fetchTokenSetInfo (reach numIds : ℕ) (state : FetchState) (hmore : state.index < numIds)
    (dataIndex : ℕ) (data : ℕ → UInt8) : AttestationProgram (FetchOutcome numIds state) := do
  if dataIndex ≥ maxAttestationSize then return .inr (.ok 0)
  else
    match ← request (AttestationCall.tokenSetInfo state.index) with
    | .error fault => return .inr (.error fault)
    | .ok (.failed status _) => return .inr (.ok status)
    | .ok (.accepted info) =>
      match storeWithin reach data dataIndex info with
      | .error fault => return .inr (.error fault)
      | .ok data =>
        return .inl ⟨⟨state.index + 1, 0, dataIndex + tokenSetInfoSize, data⟩, by
          simp only [FetchState.remaining]
          omega⟩

/-- One round of the loop. The exits for a full buffer return the status of the call before. -/
def fetchRound (reach numIds : ℕ) (state : FetchState) :
    AttestationProgram (FetchOutcome numIds state) := do
  if hmore : state.index < numIds then
    if state.dataIndex ≥ maxAttestationSize then return .inr (.ok state.status)
    else
      match ← request (AttestationCall.tokensInSet state.index) with
      | .error fault => return .inr (.error fault)
      | .ok (.failed status _) => return .inr (.ok status)
      | .ok (.accepted set) =>
        match copyTokensInSet reach state.data state.dataIndex set with
        | .error fault => return .inr (.error fault)
        | .ok (data, bytesWritten) =>
          fetchTokenSetInfo reach numIds state hmore (state.dataIndex + bytesWritten) data
  else return .inr (← writeAttestation reach state)

/-- The part of `htool_fetch_single_attestation_file` after the number of sets was copied, when the
status is zero. -/
def fetchSets (reach : ℕ) (filename : Option (List UInt8)) (numIds : ℕ) (data : ℕ → UInt8) :
    AttestationProgram (Except Fault (BitVec 32)) := do
  let status : BitVec 32 := 0
  match filename with
  | none => return .ok status
  | some path =>
    if ¬(← request (AttestationCall.openFile path)) then return .ok status
    else if (← request AttestationCall.securityVersion) ≠ .v2 then return .ok status
    else
      whileDecreasing (FetchState.remaining numIds) (fetchRound reach numIds)
        ⟨0, status, wordSize + nonceSize + signatureSize, data⟩

/-- `htool_fetch_single_attestation_file`, with the contents of its buffer before and the number of
bytes from its start on that the copies can change. -/
def fetchSingleAttestationFile (reach : ℕ) (data : ℕ → UInt8) (filename : Option (List UInt8)) :
    AttestationProgram (Except Fault (BitVec 32)) := do
  if ¬(← request AttestationCall.libhothDevice) then return .ok (-1)
  else
    match ← request AttestationCall.tokenSetCount with
    | .error fault => return .error fault
    | .ok (.failed status _) => return .ok status
    | .ok (.accepted count) =>
      match copyTokenSetCount reach data 0 count with
      | .error fault => return .error fault
      | .ok data => fetchSets reach filename count.numIds data

/-- `htool_fetch_single_attestation_file`, which has no meaning any more when it leaves its
buffer. -/
def htoolFetchSingleAttestationFile (data : ℕ → UInt8) (filename : Option (List UInt8)) :
    AttestationProgram (Except Fault (BitVec 32)) :=
  fetchSingleAttestationFile maxAttestationSize data filename

/-! ### The calls do not fault -/

theorem paddable_of_lt {size : ℕ} (hsmall : size < 65000) : Paddable size := by
  have hpadding := paddingSize_lt size
  rw [Paddable]
  omega

/-- The request of `htool_get_token_set_count` fits its buffer. -/
theorem writeRequest_tokenSetCount :
    ∃ filled, writeRequest 5 6 [getZeroChallengeNonce]
      (securityV2BufferParam (hothSecurityV2Size 1 + nonceSize)) = .ok (some filled) := by
  refine writeRequest_ok 5 6 [getZeroChallengeNonce] (fun param hparam ↦ ?_) (by decide)
    (by decide)
  rw [List.mem_singleton.mp hparam]
  exact paddable_of_lt (by decide)

/-- The requests about one set fit their buffers. -/
theorem writeRequest_tokenSet (minor setIdx : ℕ) :
    ∃ filled, writeRequest 5 minor [toLittleEndian wordSize setIdx, getZeroChallengeNonce]
      (securityV2BufferParam (hothSecurityV2Size 2 + wordSize + nonceSize)) =
        .ok (some filled) := by
  have hword : (toLittleEndian wordSize setIdx).length = 4 := length_toLittleEndian _ _
  have hnonce : getZeroChallengeNonce.length = 16 := rfl
  refine writeRequest_ok 5 minor _ (fun param hparam ↦ paddable_of_lt ?_) (by decide) ?_
  · rcases List.mem_pair.mp hparam with rfl | rfl <;> omega
  · simp only [List.map_cons, List.map_nil, List.sum_cons, List.sum_nil, paddedSize, hword, hnonce]
    decide

/-- What a call copies, if anything, satisfies a predicate. -/
def IfAccepted {α : Type} (accepted : α → Prop) : HelperReply α → Prop
  | .failed _ _ => True
  | .accepted value => accepted value

/-- The parameters of `htool_get_token_set_count` have the sizes of their types. -/
structure TokenSetCount.Sized (count : TokenSetCount) : Prop where
  bootNonce : count.bootNonce.length = nonceSize
  signature : count.signature.length = signatureSize

/-- Three parameters of given sizes. -/
theorem exists_of_map_length {params : List (List UInt8)} {first second third : ℕ}
    (hsizes : params.map List.length = [first, second, third]) :
    ∃ x y z, params = [x, y, z] ∧ x.length = first ∧ y.length = second ∧ z.length = third := by
  have hthree : params.length = 3 := by rw [← List.length_map, hsizes]; rfl
  obtain ⟨x, y, z, rfl⟩ := List.length_eq_three.mp hthree
  have hlengths : x.length = first ∧ y.length = second ∧ z.length = third := by
    simpa using hsizes
  exact ⟨x, y, z, rfl, hlengths⟩

section Checks

variable {σ : Type} {environment : Environment ToolReply σ} {start : σ} {α : Type}
variable {post : HelperReply α → Prop} {body : ToolProgram (Except Fault (HelperReply α))}

/-- A program that ends without a fault. -/
theorem ensures_ok {reply : HelperReply α} (hpost : post reply) :
    Ensures environment (.done (.ok reply)) start fun outcome _ ↦ Succeeds outcome post :=
  (ensures_done _ _ _).mpr ((succeeds_ok _ _).mpr hpost)

/-- Without a device a command fails. -/
theorem withDevice_ensures (herror : post .error)
    (hbody : ∀ middle, Ensures environment body middle fun outcome _ ↦ Succeeds outcome post) :
    Ensures environment (do
      if ¬(← request ToolCall.libhothDevice) then return .ok .error else body) start
      fun outcome _ ↦ Succeeds outcome post := by
  rw [ensures_bind, ensures_request]
  intro present middle _
  split_ifs
  · exact hbody middle
  · exact ensures_ok herror

/-- With another version of the security commands a command fails. -/
theorem withVersion_ensures (herror : post .error)
    (hbody : ∀ middle, Ensures environment body middle fun outcome _ ↦ Succeeds outcome post) :
    Ensures environment (do
      if (← htoolGetSecurityVersion) ≠ .v2 then return .ok .error else body) start
      fun outcome _ ↦ Succeeds outcome post := by
  rw [ensures_bind]
  intro version middle _
  split_ifs
  · exact ensures_ok herror
  · exact hbody middle

/-- A run of a command with a device. -/
theorem exists_runs_withDevice {past : ToolHistory} {outcome : Except Fault (HelperReply α)}
    (hbody : ∃ now, Runs recording body (past ++ [⟨.libhothDevice, true⟩]) outcome now) :
    ∃ now, Runs recording (do
      if ¬(← request ToolCall.libhothDevice) then return .ok .error else body) past outcome
      now := by
  refine exists_runs_bind (runs_request_recording _ true _) ?_
  rw [if_neg (not_not.mpr rfl)]
  exact hbody

/-- A run of a command with the version that it needs. -/
theorem exists_runs_withVersion {past : ToolHistory} {outcome : Except Fault (HelperReply α)}
    (hbody : ∀ middle, ∃ now, Runs recording body middle outcome now) :
    ∃ now, Runs recording (do
      if (← htoolGetSecurityVersion) ≠ .v2 then return .ok .error else body) past outcome now := by
  obtain ⟨middle, hversion⟩ := exists_runs_htoolGetSecurityVersion past
  refine exists_runs_bind hversion ?_
  rw [if_neg (not_not.mpr rfl)]
  exact hbody middle

end Checks

section Calls

variable {σ : Type} (environment : Environment ToolReply σ) (start : σ)

/-- Whatever the device does, `htool_get_token_set_count` does not fault, and copies parameters of
the sizes of their types. -/
theorem htoolGetTokenSetCount_ensures :
    Ensures environment htoolGetTokenSetCount start fun outcome _ ↦
      Succeeds outcome (IfAccepted TokenSetCount.Sized) := by
  obtain ⟨filled, hrequest⟩ := writeRequest_tokenSetCount
  rw [htoolGetTokenSetCount]
  refine withDevice_ensures trivial fun _ ↦ withVersion_ensures trivial fun middle ↦ ?_
  rw [ensures_bind]
  refine (htoolExecSecurityV2Cmd_ensures hrequest (by decide) (by decide)
    (fun size hsize ↦ paddable_of_lt ?_) middle).mono fun outcome _ houtcome ↦ ?_
  · revert size
    decide
  obtain ⟨⟨status, responseBuffer, params⟩, rfl, hresult⟩ := houtcome
  dsimp only
  split_ifs with hstatus
  · exact ensures_ok trivial
  · obtain ⟨numIds, bootNonce, signature, rfl, -, hnonce, hsignature⟩ :=
      exists_of_map_length (hresult (not_not.mp hstatus))
    exact ensures_ok ⟨hnonce, hsignature⟩

/-- Whatever the device does, `htool_get_tokens_in_set` does not fault. -/
theorem htoolGetTokensInSet_ensures (setIdx : ℕ) :
    Ensures environment (htoolGetTokensInSet setIdx) start fun outcome _ ↦
      Succeeds outcome fun _ ↦ True := by
  obtain ⟨filled, hrequest⟩ := writeRequest_tokenSet 8 setIdx
  rw [htoolGetTokensInSet]
  refine withDevice_ensures trivial fun middle ↦ ?_
  rw [ensures_bind, ensures_request]
  intro param middle _
  cases param with
  | none => exact ensures_ok trivial
  | some tokenOutputFileBase =>
    dsimp only
    split_ifs
    · exact ensures_ok trivial
    refine withVersion_ensures trivial fun middle ↦ ?_
    rw [ensures_bind]
    refine (htoolExecSecurityV2SerializedCmd_ensures hrequest (by decide) (by decide) middle).mono
      fun outcome _ houtcome ↦ ?_
    obtain ⟨result, rfl, -⟩ := houtcome
    dsimp only
    split_ifs
    · exact ensures_ok trivial
    · exact ensures_ok trivial

/-- Whatever the device does, `htool_get_token_set_info` does not fault, and copies a whole
`struct token_set_info`. -/
theorem htoolGetTokenSetInfo_ensures (setIdx : ℕ) :
    Ensures environment (htoolGetTokenSetInfo setIdx) start fun outcome _ ↦
      Succeeds outcome (IfAccepted fun info ↦ info.length = tokenSetInfoSize) := by
  obtain ⟨filled, hrequest⟩ := writeRequest_tokenSet 7 setIdx
  rw [htoolGetTokenSetInfo]
  refine withDevice_ensures trivial fun _ ↦ withVersion_ensures trivial fun middle ↦ ?_
  rw [ensures_bind]
  refine (htoolExecSecurityV2Cmd_ensures hrequest (by decide) (by decide)
    (fun size hsize ↦ paddable_of_lt ?_) middle).mono fun outcome _ houtcome ↦ ?_
  · revert size
    decide
  obtain ⟨⟨status, responseBuffer, params⟩, rfl, hresult⟩ := houtcome
  dsimp only
  split_ifs with hstatus
  · exact ensures_ok trivial
  · obtain ⟨info, bootNonce, signature, rfl, hinfo, -⟩ :=
      exists_of_map_length (hresult (not_not.mp hstatus))
    exact ensures_ok hinfo

end Calls

/-! ### What a device can make the calls return -/

/-- The tokens of a set can be a response to `htool_get_tokens_in_set`. -/
structure TokensInSet.Sendable (set : TokensInSet) : Prop where
  paddable : ∀ param ∈ [set.tokens, set.bootNonce, set.signature], Paddable param.length
  fits : (encodeResponse [set.tokens, set.bootNonce, set.signature]).length ≤ maxTokenResponseSize
  whole : set.tokens.length % tokenByteSize = 0

/-- Parameters of the sizes of their types fill the response buffer of a command. -/
theorem length_encodeResponse_of_sizes {params : List (List UInt8)} {sizes : List ℕ}
    (hsizes : params.map List.length = sizes) :
    (encodeResponse params).length =
      securityV2HeaderSize + (sizes.map fun size ↦ 4 + (size + paddingSize size)).sum := by
  rw [length_encodeResponse, ← hsizes, List.map_map]
  rfl

theorem paddable_of_map_length {params : List (List UInt8)} {sizes : List ℕ}
    (hsizes : params.map List.length = sizes) (hsmall : ∀ size ∈ sizes, size < 65000) :
    ∀ param ∈ params, Paddable param.length := by
  intro param hparam
  exact paddable_of_lt (hsmall _ (hsizes ▸ List.mem_map_of_mem hparam))

/-- Every number of sets can be returned. -/
theorem exists_runs_htoolGetTokenSetCount {count : TokenSetCount} (hsized : count.Sized)
    (hnumIds : count.numIds < 2 ^ 32) (past : ToolHistory) :
    ∃ now, Runs recording htoolGetTokenSetCount past (.ok (.accepted count)) now := by
  obtain ⟨filled, hrequest⟩ := writeRequest_tokenSetCount
  refine exists_runs_withDevice (exists_runs_withVersion fun middle ↦ ?_)
  have hword : (toLittleEndian wordSize count.numIds).length = wordSize := length_toLittleEndian _ _
  have hsizes : [toLittleEndian wordSize count.numIds, count.bootNonce, count.signature].map
      List.length = tokenSetCountSizes := by
    simp only [List.map_cons, List.map_nil, hword, hsized.bootNonce, hsized.signature]
    rfl
  obtain ⟨responseBuffer, now, hcommand⟩ : ∃ responseBuffer now, Runs recording
      execGetTokenSetCount middle (.ok ⟨0, responseBuffer,
        [toLittleEndian wordSize count.numIds, count.bootNonce, count.signature]⟩) now := by
    rw [execGetTokenSetCount, ← hsizes]
    refine exists_runs_htoolExecSecurityV2Cmd hrequest (List.cons_ne_nil _ _)
      (paddable_of_map_length hsizes (by decide)) (by decide : 3 < 2 ^ 16)
      (by decide) ?_ middle
    rw [length_encodeResponse_of_sizes hsizes]
    decide
  refine ⟨now, (runs_bind _ _ _ _ _).mpr ⟨_, _, hcommand, ?_⟩⟩
  dsimp only
  rw [dif_neg (not_not.mpr rfl)]
  refine ⟨?_, rfl⟩
  have hvalue : littleEndian (toLittleEndian wordSize count.numIds) = count.numIds :=
    littleEndian_toLittleEndian_of_lt hnumIds
  rw [List.getD_cons_zero, hvalue]
  rfl

/-- Every set that fits the response can be returned. -/
theorem exists_runs_htoolGetTokensInSet {setIdx : ℕ} {set : TokensInSet} (hset : set.Sendable)
    (hname : appendIndexToFileName [] setIdx < maxStringBufferSize) (past : ToolHistory) :
    ∃ now, Runs recording (htoolGetTokensInSet setIdx) past (.ok (.accepted set)) now := by
  obtain ⟨filled, hrequest⟩ := writeRequest_tokenSet 8 setIdx
  have hcommand (middle : ToolHistory) : ∃ now, Runs recording (execGetTokensInSet setIdx) middle
      (.ok ⟨0, [set.tokens, set.bootNonce, set.signature]⟩) now :=
    exists_runs_htoolExecSecurityV2SerializedCmd hrequest hset.paddable (by decide : 3 < 2 ^ 16)
      (by decide) hset.fits middle
  have htokens : set.tokens.length ≤ maxTokenResponseSize := by
    have hfits := hset.fits
    simp only [length_encodeResponse, List.map_cons, List.sum_cons, paddedSize] at hfits
    omega
  have hparsed : checkTokensInSet set = .accepted set := by
    rw [checkTokensInSet, if_neg (Nat.not_lt_of_le htokens), if_neg (not_not.mpr hset.whole)]
  have hbase := runs_request_recording (ToolCall.getParamString "token_output") (some [])
    (past ++ [⟨.libhothDevice, true⟩])
  refine exists_runs_withDevice (exists_runs_bind hbase ?_)
  dsimp only
  rw [if_neg (Nat.not_le_of_lt hname)]
  refine exists_runs_withVersion fun middle ↦ ?_
  obtain ⟨now, hcommand⟩ := hcommand middle
  refine exists_runs_bind hcommand ⟨now, ?_⟩
  dsimp only
  rw [dif_neg (not_not.mpr rfl)]
  exact ⟨congrArg Except.ok hparsed.symm, rfl⟩

/-- Every info can be returned. -/
theorem exists_runs_htoolGetTokenSetInfo (setIdx : ℕ) {info : List UInt8}
    (hinfo : info.length = tokenSetInfoSize) (past : ToolHistory) :
    ∃ now, Runs recording (htoolGetTokenSetInfo setIdx) past (.ok (.accepted info)) now := by
  obtain ⟨filled, hrequest⟩ := writeRequest_tokenSet 7 setIdx
  refine exists_runs_withDevice (exists_runs_withVersion fun middle ↦ ?_)
  have hsizes : [info, List.replicate nonceSize 0, List.replicate signatureSize 0].map
      List.length = tokenSetInfoSizes := by
    simp only [List.map_cons, List.map_nil, hinfo, List.length_replicate]
    rfl
  obtain ⟨responseBuffer, now, hcommand⟩ : ∃ responseBuffer now, Runs recording
      (execGetTokenSetInfo setIdx) middle (.ok ⟨0, responseBuffer,
        [info, List.replicate nonceSize 0, List.replicate signatureSize 0]⟩) now := by
    rw [execGetTokenSetInfo, ← hsizes]
    refine exists_runs_htoolExecSecurityV2Cmd hrequest (List.cons_ne_nil _ _)
      (paddable_of_map_length hsizes (by decide)) (by decide : 3 < 2 ^ 16) (by decide) ?_
      middle
    rw [length_encodeResponse_of_sizes hsizes]
    decide
  refine ⟨now, (runs_bind _ _ _ _ _).mpr ⟨_, _, hcommand, ?_⟩⟩
  dsimp only
  rw [dif_neg (not_not.mpr rfl)]
  exact ⟨rfl, rfl⟩

end Libhoth.Examples.SecurityTokens
