import Libhoth.Examples.HtoolProgram
import Libhoth.Foundation.CheckedAccess

/-!
# Security v2 commands

`htool_security_v2.c`. A request is a header and parameters, each a size and a value padded to whole
words, written into a buffer of the caller; `consumeBytes` hands out the buffer piece by piece.
There are two parsers of responses: `htoolExecSecurityV2Cmd` copies parameters of known sizes, and
`htoolExecSecurityV2SerializedCmd` finds parameters of any size.

An access outside the storage of a buffer is a `Fault`. `readResponse_succeeds` and
`readSerializedResponse_succeeds` say that the parsers have none as long as the storage is as large
as the buffer claims; a response that was never written is refused. So the commands do not fault,
whatever the device does (`htoolExecSecurityV2Cmd_ensures`,
`htoolExecSecurityV2SerializedCmd_ensures`). `readResponse_encode` and
`readSerializedResponse_encode` say that both parsers accept an encoded response.
-/

set_option autoImplicit false
set_option relaxedAutoImplicit false

namespace Libhoth.Examples.SecurityV2

open Foundation.ByteString Foundation.CheckedAccess Foundation.InteractingProgram
open Protocol.HostCommandProgram HtoolProgram

/-! ### Buffers -/

/-- `struct security_v2_buffer`: the bytes at `data`, the size and the bytes consumed. -/
structure SecurityV2Buffer where
  data : List UInt8
  size : ℕ
  bytesConsumed : ℕ

/-- `SECURITY_V2_BUFFER_PARAM` of an array of zeros. -/
def securityV2BufferParam (size : ℕ) : SecurityV2Buffer where
  data := List.replicate size 0
  size := size % 2 ^ 16
  bytesConsumed := 0

/-- `consume_bytes`: the offset of the next bytes, whose number is cut to sixteen bits. -/
def consumeBytes (buffer : SecurityV2Buffer) (bytes : ℕ) : Option (ℕ × SecurityV2Buffer) :=
  if buffer.bytesConsumed > buffer.size ∨
      buffer.size - buffer.bytesConsumed < bytes % 2 ^ 16 then none
  else some (buffer.bytesConsumed,
    { buffer with bytesConsumed := buffer.bytesConsumed + bytes % 2 ^ 16 })

/-- `padding_size`. -/
def paddingSize (size : ℕ) : ℕ :=
  if size % 4 = 0 then 0 else 4 - size % 4

/-- The size of either header and of `struct hoth_security_v2_parameter`. -/
def securityV2HeaderSize : ℕ := 4

/-! ### Requests -/

/-- The loop of `htool_exec_security_v2_cmd` over the request parameters; `none` is a buffer with
insufficient bytes. -/
def writeRequestParams : List (List UInt8) → SecurityV2Buffer →
    Except Fault (Option SecurityV2Buffer)
  | [], buffer => return some buffer
  | param :: rest, buffer =>
    match consumeBytes buffer securityV2HeaderSize with
    | none => return none
    | some (header, buffer) => do
      let data ← overwriteWithin buffer.data header (toLittleEndian 2 param.length)
      match consumeBytes { buffer with data := data }
        (param.length + paddingSize param.length) with
      | none => return none
      | some (value, buffer) => do
        let data ← overwriteWithin buffer.data value param
        writeRequestParams rest { buffer with data := data }

/-- The part of `htool_exec_security_v2_cmd` that fills the request buffer. -/
def writeRequest (major minor : ℕ) (params : List (List UInt8)) (buffer : SecurityV2Buffer) :
    Except Fault (Option SecurityV2Buffer) :=
  match consumeBytes buffer securityV2HeaderSize with
  | none => return none
  | some (header, buffer) => do
    let data ← overwriteWithin buffer.data header
      (toLittleEndian 1 major ++ toLittleEndian 1 minor ++ toLittleEndian 2 params.length)
    writeRequestParams params { buffer with data := data }

/-! ### Responses of known sizes -/

/-- The loop of `htool_exec_security_v2_cmd` over the response parameters: the copied values, or
`none` after an error. -/
def readResponseParams : List ℕ → SecurityV2Buffer → Except Fault (Option (List (List UInt8)))
  | [], _ => return some []
  | size :: rest, buffer =>
    match consumeBytes buffer securityV2HeaderSize with
    | none => return none
    | some (header, buffer) => do
      let paramSize ← readWord buffer.data header 2
      if paramSize ≠ size then return none
      else
        match consumeBytes buffer (size + paddingSize size) with
        | none => return none
        | some (value, buffer) => do
          let copied ← sliceWithin buffer.data value size
          let later ← readResponseParams rest buffer
          return later.map (copied :: ·)

/-- The part of `htool_exec_security_v2_cmd` that reads the response. -/
def readResponse (sizes : List ℕ) (buffer : SecurityV2Buffer) :
    Except Fault (Option (List (List UInt8))) :=
  match consumeBytes buffer securityV2HeaderSize with
  | none => return none
  | some (header, buffer) => do
    let paramCount ← readWord buffer.data header 2
    if paramCount ≠ sizes.length then return none
    else readResponseParams sizes buffer

/-- What `htool_exec_security_v2_cmd` leaves to its caller: the `int`, the response buffer and the
copied parameters. -/
structure SecurityV2Result where
  status : BitVec 32
  responseBuffer : SecurityV2Buffer
  params : List (List UInt8)

/-- The host command of a request. -/
def securityV2Call (baseCommand : ℕ) (requestBuffer responseBuffer : SecurityV2Buffer) :
    HostCommand where
  command := baseCommand
  version := 0
  payload := requestBuffer.data.take requestBuffer.size
  respBufSize := responseBuffer.size
  sized := true

/-- The part of `htool_exec_security_v2_cmd` after the host command. -/
def finishSecurityV2Cmd (responseBuffer : SecurityV2Buffer) (sizes : List ℕ)
    (result : HostcmdResult) : Except Fault SecurityV2Result :=
  let responseBuffer := { responseBuffer with data := result.respBuf }
  if result.status ≠ 0 then return ⟨result.status, responseBuffer, []⟩
  else
    let responseBuffer := { responseBuffer with size := result.outRespSize % 2 ^ 16 }
    if sizes = [] then return ⟨0, responseBuffer, []⟩
    else do
      match ← readResponse sizes responseBuffer with
      | none => return ⟨-1, responseBuffer, []⟩
      | some params => return ⟨0, responseBuffer, params⟩

/-- `htool_exec_security_v2_cmd`, with the values of the request parameters and the sizes of the
response parameters. -/
def htoolExecSecurityV2Cmd (major minor baseCommand : ℕ) (requestBuffer : SecurityV2Buffer)
    (requestParams : List (List UInt8)) (responseBuffer : SecurityV2Buffer) (sizes : List ℕ) :
    ToolProgram (Except Fault SecurityV2Result) :=
  match writeRequest major minor requestParams requestBuffer with
  | .error fault => return .error fault
  | .ok none => return .ok ⟨-1, responseBuffer, []⟩
  | .ok (some requestBuffer) => do
    let result ← libhothHostcmdExec (securityV2Call baseCommand requestBuffer responseBuffer)
      responseBuffer.data
    return finishSecurityV2Cmd responseBuffer sizes result

/-! ### Serialized responses -/

/-- `validate_param_padding`, for a parameter of a size: the buffer after the padding, or `none`
after an error. -/
def validateParamPadding (buffer : SecurityV2Buffer) (size : ℕ) :
    Except Fault (Option SecurityV2Buffer) :=
  if paddingSize size = 0 then return some buffer
  else
    match consumeBytes buffer (paddingSize size) with
    | none => return none
    | some (offset, buffer) => do
      let padding ← sliceWithin buffer.data offset (paddingSize size)
      if padding.any (· ≠ 0) then return none else return some buffer

/-- `read_security_v2_serialized_params`: the value of a parameter, or `none` after an error. -/
def readSecurityV2SerializedParam (buffer : SecurityV2Buffer) :
    Except Fault (Option (List UInt8 × SecurityV2Buffer)) :=
  match consumeBytes buffer securityV2HeaderSize with
  | none => return none
  | some (header, buffer) => do
    let size ← readWord buffer.data header 2
    let reserved ← readWord buffer.data (header + 2) 2
    if reserved ≠ 0 then return none
    else
      match consumeBytes buffer size with
      | none => return none
      | some (offset, buffer) => do
        match ← validateParamPadding buffer size with
        | none => return none
        | some buffer => do
          let value ← sliceWithin buffer.data offset size
          return some (value, buffer)

/-- The loop of `htool_exec_security_v2_serialized_cmd`: the values of as many parameters as are
expected, or `none` after an error. -/
def readSerializedParams : ℕ → SecurityV2Buffer → Except Fault (Option (List (List UInt8)))
  | 0, _ => return some []
  | count + 1, buffer => do
    match ← readSecurityV2SerializedParam buffer with
    | none => return none
    | some (value, buffer) => do
      let later ← readSerializedParams count buffer
      return later.map (value :: ·)

/-- `read_security_v2_serialized_header` and the check of the number of parameters, followed by the
loop over them. -/
def readSerializedResponse (count : ℕ) (buffer : SecurityV2Buffer) :
    Except Fault (Option (List (List UInt8))) :=
  match consumeBytes buffer securityV2HeaderSize with
  | none => return none
  | some (header, buffer) => do
    let reserved ← readWord buffer.data (header + 2) 2
    if reserved ≠ 0 then return none
    else do
      let paramCount ← readWord buffer.data header 2
      if paramCount ≠ count then return none
      else readSerializedParams count buffer

/-- What `htool_exec_security_v2_serialized_cmd` leaves to its caller: the `int` and the values that
the parameters point to. -/
structure SecurityV2SerializedResult where
  status : BitVec 32
  params : List (List UInt8)

/-- The part of `htool_exec_security_v2_serialized_cmd` after the command. -/
def finishSecurityV2SerializedCmd (count : ℕ) (result : SecurityV2Result) :
    Except Fault SecurityV2SerializedResult :=
  if result.status ≠ 0 then return ⟨-1, []⟩
  else do
    match ← readSerializedResponse count result.responseBuffer with
    | none => return ⟨-1, []⟩
    | some params => return ⟨0, params⟩

/-- `htool_exec_security_v2_serialized_cmd`, with the number of response parameters. -/
def htoolExecSecurityV2SerializedCmd (major minor baseCommand : ℕ)
    (requestBuffer : SecurityV2Buffer) (requestParams : List (List UInt8))
    (responseBuffer : SecurityV2Buffer) (count : ℕ) :
    ToolProgram (Except Fault SecurityV2SerializedResult) := do
  match ← htoolExecSecurityV2Cmd major minor baseCommand requestBuffer requestParams
    responseBuffer [] with
  | .error fault => return .error fault
  | .ok result => return finishSecurityV2SerializedCmd count result

/-! ### Consuming a buffer -/

/-- The storage of the buffer is as large as the buffer claims. -/
def SecurityV2Buffer.Backed (buffer : SecurityV2Buffer) : Prop :=
  buffer.size ≤ buffer.data.length

/-- What was consumed is inside the buffer. -/
theorem consumeBytes_eq_some {buffer next : SecurityV2Buffer} {bytes offset : ℕ}
    (hconsumed : consumeBytes buffer bytes = some (offset, next)) :
    offset = buffer.bytesConsumed ∧
      next = { buffer with bytesConsumed := buffer.bytesConsumed + bytes % 2 ^ 16 } ∧
      buffer.bytesConsumed + bytes % 2 ^ 16 ≤ buffer.size := by
  rw [consumeBytes] at hconsumed
  split_ifs at hconsumed with hshort
  obtain ⟨rfl, rfl⟩ := Prod.mk.inj (Option.some.inj hconsumed)
  exact ⟨rfl, rfl, by omega⟩

theorem consumeBytes_of_le {buffer : SecurityV2Buffer} {bytes : ℕ} (hsmall : bytes < 2 ^ 16)
    (hroom : buffer.bytesConsumed + bytes ≤ buffer.size) :
    consumeBytes buffer bytes =
      some (buffer.bytesConsumed,
        { buffer with bytesConsumed := buffer.bytesConsumed + bytes }) := by
  rw [consumeBytes, Nat.mod_eq_of_lt hsmall, if_neg (by omega)]

theorem paddingSize_lt (size : ℕ) : paddingSize size < 4 := by
  rw [paddingSize]
  split_ifs <;> omega

/-! ### The parsers stay inside the storage -/

/-- A parameter that is small enough to be padded within sixteen bits. -/
def Paddable (size : ℕ) : Prop :=
  size + paddingSize size < 2 ^ 16

/-- What a parser returned, if anything, satisfies a predicate. -/
def IfRead (accepted : List (List UInt8) → Prop) (outcome : Option (List (List UInt8))) : Prop :=
  ∀ params, outcome = some params → accepted params

theorem ifRead_none (accepted : List (List UInt8) → Prop) : IfRead accepted none :=
  fun _ hparams ↦ absurd hparams.symm (Option.some_ne_none _)

theorem ifRead_some {accepted : List (List UInt8) → Prop} {params : List (List UInt8)}
    (haccepted : accepted params) : IfRead accepted (some params) := by
  intro other hother
  obtain rfl := Option.some.inj hother
  exact haccepted

theorem IfRead.map_cons {accepted more : List (List UInt8) → Prop} {value : List UInt8}
    (hmore : ∀ params, accepted params → more (value :: params))
    {outcome : Option (List (List UInt8))} (hread : IfRead accepted outcome) :
    IfRead more (outcome.map (value :: ·)) := by
  intro params hparams
  obtain ⟨later, hlater, rfl⟩ := Option.map_eq_some_iff.mp hparams
  exact hmore later (hread later hlater)

section Backed

variable {buffer : SecurityV2Buffer}

/-- The two words of a header that was consumed. -/
theorem SecurityV2Buffer.Backed.readHeader (hbacked : buffer.Backed) {header : ℕ}
    {next : SecurityV2Buffer}
    (hconsumed : consumeBytes buffer securityV2HeaderSize = some (header, next)) :
    readWord next.data header 2 = .ok (wordAt buffer.data header 2) ∧
      readWord next.data (header + 2) 2 = .ok (wordAt buffer.data (header + 2) 2) := by
  obtain ⟨rfl, rfl, hroom⟩ := consumeBytes_eq_some hconsumed
  have hbound : buffer.size ≤ buffer.data.length := hbacked
  have hsize : securityV2HeaderSize % 2 ^ 16 = 4 := rfl
  have hfirst : buffer.bytesConsumed + 2 ≤ buffer.data.length := by omega
  have hsecond : buffer.bytesConsumed + 2 + 2 ≤ buffer.data.length := by omega
  exact ⟨readWord_of_le hfirst, readWord_of_le hsecond⟩

/-- The bytes that were consumed. -/
theorem SecurityV2Buffer.Backed.sliceWithin_ok (hbacked : buffer.Backed) {bytes offset count : ℕ}
    {next : SecurityV2Buffer} (hconsumed : consumeBytes buffer bytes = some (offset, next))
    (hinside : count ≤ bytes % 2 ^ 16) :
    sliceWithin next.data offset count = .ok (slice buffer.data offset count) ∧
      (slice buffer.data offset count).length = count := by
  obtain ⟨rfl, rfl, hroom⟩ := consumeBytes_eq_some hconsumed
  have hbound : buffer.size ≤ buffer.data.length := hbacked
  have hslice : buffer.bytesConsumed + count ≤ buffer.data.length := by omega
  exact ⟨sliceWithin_of_le hslice, length_slice_of_le hslice⟩

theorem SecurityV2Buffer.Backed.consume (hbacked : buffer.Backed) {bytes offset : ℕ}
    {next : SecurityV2Buffer}
    (hconsumed : consumeBytes buffer bytes = some (offset, next)) : next.Backed := by
  obtain ⟨-, rfl, -⟩ := consumeBytes_eq_some hconsumed
  exact hbacked

end Backed

/-- The copying loop does not fault, and copies what it was asked for. -/
theorem readResponseParams_succeeds (sizes : List ℕ) (hsizes : ∀ size ∈ sizes, Paddable size)
    {buffer : SecurityV2Buffer} (hbacked : buffer.Backed) :
    Succeeds (readResponseParams sizes buffer)
      (IfRead fun params ↦ params.map List.length = sizes) := by
  induction sizes generalizing buffer with
  | nil => exact (succeeds_ok _ _).mpr (ifRead_some rfl)
  | cons size rest ih =>
    have hpaddable : size + paddingSize size < 2 ^ 16 := hsizes size List.mem_cons_self
    rw [readResponseParams]
    cases hheader : consumeBytes buffer securityV2HeaderSize with
    | none => exact (succeeds_ok _ _).mpr (ifRead_none _)
    | some consumed =>
      obtain ⟨header, opened⟩ := consumed
      have hopened := hbacked.consume hheader
      dsimp only
      rw [(hbacked.readHeader hheader).1, ok_bind]
      split_ifs
      · exact (succeeds_ok _ _).mpr (ifRead_none _)
      · cases hvalue : consumeBytes opened (size + paddingSize size) with
        | none => exact (succeeds_ok _ _).mpr (ifRead_none _)
        | some consumed =>
          obtain ⟨value, next⟩ := consumed
          obtain ⟨hslice, hlength⟩ := hopened.sliceWithin_ok hvalue
            (show size ≤ (size + paddingSize size) % 2 ^ 16 by
              rw [Nat.mod_eq_of_lt hpaddable]
              omega)
          dsimp only
          rw [hslice, ok_bind]
          refine (ih (fun other hother ↦ hsizes other (List.mem_cons_of_mem _ hother))
            (hopened.consume hvalue)).bind fun later hlater ↦ (succeeds_ok _ _).mpr ?_
          refine hlater.map_cons fun params hparams ↦ ?_
          rw [List.map_cons, hlength, hparams]

/-- The copying parser does not fault. -/
theorem readResponse_succeeds (sizes : List ℕ) (hsizes : ∀ size ∈ sizes, Paddable size)
    {buffer : SecurityV2Buffer} (hbacked : buffer.Backed) :
    Succeeds (readResponse sizes buffer) (IfRead fun params ↦ params.map List.length = sizes) := by
  rw [readResponse]
  cases hheader : consumeBytes buffer securityV2HeaderSize with
  | none => exact (succeeds_ok _ _).mpr (ifRead_none _)
  | some consumed =>
    obtain ⟨header, opened⟩ := consumed
    dsimp only
    rw [(hbacked.readHeader hheader).1, ok_bind]
    split_ifs
    · exact (succeeds_ok _ _).mpr (ifRead_none _)
    · exact readResponseParams_succeeds sizes hsizes (hbacked.consume hheader)

/-- The check of the padding does not fault and only consumes. -/
theorem validateParamPadding_succeeds {buffer : SecurityV2Buffer} (hbacked : buffer.Backed)
    (size : ℕ) :
    Succeeds (validateParamPadding buffer size) fun outcome ↦
      ∀ next, outcome = some next → next.Backed ∧ next.data = buffer.data := by
  have hrefused : Succeeds (.ok none) fun outcome : Option SecurityV2Buffer ↦
      ∀ next, outcome = some next → next.Backed ∧ next.data = buffer.data :=
    (succeeds_ok _ _).mpr fun _ hnext ↦ absurd hnext.symm (Option.some_ne_none _)
  rw [validateParamPadding]
  split_ifs
  · refine (succeeds_ok _ _).mpr fun next hnext ↦ ?_
    obtain rfl := Option.some.inj hnext
    exact ⟨hbacked, rfl⟩
  · cases hpadding : consumeBytes buffer (paddingSize size) with
    | none => exact hrefused
    | some consumed =>
      obtain ⟨offset, after⟩ := consumed
      have hsmall := paddingSize_lt size
      have hslice := (hbacked.sliceWithin_ok hpadding
        (show paddingSize size ≤ paddingSize size % 2 ^ 16 by omega)).1
      dsimp only
      rw [hslice, ok_bind]
      split_ifs
      · exact hrefused
      · refine (succeeds_ok _ _).mpr fun next hnext ↦ ?_
        obtain rfl := Option.some.inj hnext
        obtain ⟨-, rfl, -⟩ := consumeBytes_eq_some hpadding
        exact ⟨hbacked.consume hpadding, rfl⟩

/-- Reading a serialized parameter does not fault. -/
theorem readSecurityV2SerializedParam_succeeds {buffer : SecurityV2Buffer}
    (hbacked : buffer.Backed) :
    Succeeds (readSecurityV2SerializedParam buffer) fun outcome ↦
      ∀ value next, outcome = some (value, next) → next.Backed := by
  have hrefused : Succeeds (.ok none) fun outcome : Option (List UInt8 × SecurityV2Buffer) ↦
      ∀ value next, outcome = some (value, next) → next.Backed :=
    (succeeds_ok _ _).mpr fun _ _ hnext ↦ absurd hnext.symm (Option.some_ne_none _)
  rw [readSecurityV2SerializedParam]
  cases hheader : consumeBytes buffer securityV2HeaderSize with
  | none => exact hrefused
  | some consumed =>
    obtain ⟨header, opened⟩ := consumed
    have hopened := hbacked.consume hheader
    dsimp only
    rw [(hbacked.readHeader hheader).1, (hbacked.readHeader hheader).2, ok_bind, ok_bind]
    split_ifs
    · exact hrefused
    · cases hvalue : consumeBytes opened (wordAt buffer.data header 2) with
      | none => exact hrefused
      | some consumed =>
        obtain ⟨offset, reached⟩ := consumed
        have hword : wordAt buffer.data header 2 < 2 ^ 16 := wordAt_lt _ _ _
        have hslice := (hopened.sliceWithin_ok hvalue (Nat.mod_eq_of_lt hword).ge).1
        refine (validateParamPadding_succeeds (hopened.consume hvalue) _).bind
          fun outcome houtcome ↦ ?_
        cases outcome with
        | none => exact hrefused
        | some after =>
          obtain ⟨hafter, hdata⟩ := houtcome after rfl
          dsimp only
          rw [hdata, hslice, ok_bind]
          refine (succeeds_ok _ _).mpr fun value next hnext ↦ ?_
          obtain ⟨-, rfl⟩ := Prod.mk.inj (Option.some.inj hnext)
          exact hafter

/-- The loop over the serialized parameters does not fault, and finds as many as are expected. -/
theorem readSerializedParams_succeeds (count : ℕ) {buffer : SecurityV2Buffer}
    (hbacked : buffer.Backed) :
    Succeeds (readSerializedParams count buffer) (IfRead fun params ↦ params.length = count) := by
  induction count generalizing buffer with
  | zero => exact (succeeds_ok _ _).mpr (ifRead_some rfl)
  | succ count ih =>
    rw [readSerializedParams]
    refine (readSecurityV2SerializedParam_succeeds hbacked).bind fun outcome houtcome ↦ ?_
    cases outcome with
    | none => exact (succeeds_ok _ _).mpr (ifRead_none _)
    | some read =>
      obtain ⟨value, next⟩ := read
      refine (ih (houtcome value next rfl)).bind fun later hlater ↦ (succeeds_ok _ _).mpr ?_
      exact hlater.map_cons fun params hparams ↦ by rw [List.length_cons, hparams]

/-- The parser of serialized responses does not fault. -/
theorem readSerializedResponse_succeeds (count : ℕ) {buffer : SecurityV2Buffer}
    (hbacked : buffer.Backed) :
    Succeeds (readSerializedResponse count buffer)
      (IfRead fun params ↦ params.length = count) := by
  rw [readSerializedResponse]
  cases hheader : consumeBytes buffer securityV2HeaderSize with
  | none => exact (succeeds_ok _ _).mpr (ifRead_none _)
  | some consumed =>
    obtain ⟨header, opened⟩ := consumed
    dsimp only
    rw [(hbacked.readHeader hheader).2, ok_bind]
    split_ifs
    · exact (succeeds_ok _ _).mpr (ifRead_none _)
    · rw [(hbacked.readHeader hheader).1, ok_bind]
      split_ifs
      · exact (succeeds_ok _ _).mpr (ifRead_none _)
      · exact readSerializedParams_succeeds count (hbacked.consume hheader)

/-! ### A response that was never written -/

/-- A header of zeros announces no parameters. -/
theorem readHeader_zero {count size header : ℕ} {next : SecurityV2Buffer} (hcount : 4 ≤ count)
    (hconsumed : consumeBytes ⟨List.replicate count 0, size, 0⟩ securityV2HeaderSize =
      some (header, next)) :
    readWord next.data header 2 = .ok 0 ∧ readWord next.data (header + 2) 2 = .ok 0 := by
  obtain ⟨rfl, rfl, -⟩ := consumeBytes_eq_some hconsumed
  have hzero (offset : ℕ) (hoffset : offset + 2 ≤ count) :
      readWord (List.replicate count 0) offset 2 = .ok 0 := by
    rw [readWord_of_le (by rw [List.length_replicate]; exact hoffset), wordAt, slice,
      List.drop_replicate, List.take_replicate, littleEndian_replicate_zero]
  exact ⟨hzero 0 (by omega), hzero (0 + 2) (by omega)⟩

/-- Both parsers refuse a response that was never written, whatever size it claims. -/
theorem readResponse_zero {count : ℕ} (hcount : 4 ≤ count) (size : ℕ) {sizes : List ℕ}
    (hsizes : sizes ≠ []) :
    readResponse sizes ⟨List.replicate count 0, size, 0⟩ = .ok none := by
  rw [readResponse]
  cases hheader : consumeBytes ⟨List.replicate count 0, size, 0⟩ securityV2HeaderSize with
  | none => rfl
  | some consumed =>
    have hlength : 0 ≠ sizes.length := (List.length_pos_iff.mpr hsizes).ne
    dsimp only
    rw [(readHeader_zero hcount hheader).1, ok_bind, if_pos hlength]
    rfl

theorem readSerializedResponse_zero {count : ℕ} (hcount : 4 ≤ count) (size : ℕ) {params : ℕ}
    (hparams : 0 < params) :
    readSerializedResponse params ⟨List.replicate count 0, size, 0⟩ = .ok none := by
  rw [readSerializedResponse]
  cases hheader : consumeBytes ⟨List.replicate count 0, size, 0⟩ securityV2HeaderSize with
  | none => rfl
  | some consumed =>
    obtain ⟨hfirst, hsecond⟩ := readHeader_zero hcount hheader
    dsimp only
    rw [hsecond, ok_bind, if_neg (not_not.mpr rfl), hfirst, ok_bind, if_pos hparams.ne]
    rfl

/-! ### The commands do not fault -/

/-- The response buffer after a host command is backed or was never written. -/
theorem responseBuffer_cases {call : HostCommand} (reply : HostReply call) (storage unwritten : ℕ) :
    let result := hostcmdResult reply (List.replicate storage 0) unwritten
    (⟨result.respBuf, result.outRespSize % 2 ^ 16, 0⟩ : SecurityV2Buffer).Backed ∨
      result.respBuf = List.replicate storage 0 := by
  cases reply with
  | failed err nonzero => exact .inr rfl
  | accepted payload fits =>
    left
    simp only [hostcmdResult, SecurityV2Buffer.Backed, List.length_append]
    exact (Nat.mod_le _ _).trans (Nat.le_add_right _ _)

theorem minusOne_ne_zero : (-1 : BitVec 32) ≠ 0 := by
  decide

/-- After a host command, the copying parser does not fault, and a success copied what it was asked
for. -/
theorem finishSecurityV2Cmd_succeeds {call : HostCommand} (reply : HostReply call)
    {storage : ℕ} (hstorage : 4 ≤ storage) (unwritten : ℕ) {sizes : List ℕ} (hsome : sizes ≠ [])
    (hsizes : ∀ size ∈ sizes, Paddable size) :
    Succeeds (finishSecurityV2Cmd (securityV2BufferParam storage) sizes
        (hostcmdResult reply (List.replicate storage 0) unwritten))
      fun result ↦ result.status = 0 → result.params.map List.length = sizes := by
  rw [finishSecurityV2Cmd]
  split_ifs with hstatus
  · exact (succeeds_ok _ _).mpr fun hzero ↦ absurd hzero hstatus
  · have hread : Succeeds (readResponse sizes
        ⟨(hostcmdResult reply (List.replicate storage 0) unwritten).respBuf,
          (hostcmdResult reply (List.replicate storage 0) unwritten).outRespSize % 2 ^ 16, 0⟩)
        (IfRead fun params ↦ params.map List.length = sizes) := by
      rcases responseBuffer_cases reply storage unwritten with hbacked | hzero
      · exact readResponse_succeeds sizes hsizes hbacked
      · rw [hzero, readResponse_zero hstorage _ hsome]
        exact (succeeds_ok _ _).mpr (ifRead_none _)
    refine hread.bind fun outcome houtcome ↦ ?_
    cases outcome with
    | none => exact (succeeds_ok _ _).mpr fun hzero ↦ absurd hzero minusOne_ne_zero
    | some params => exact (succeeds_ok _ _).mpr fun _ ↦ houtcome params rfl

/-- After a host command, the parser of serialized responses does not fault, and a success found as
many parameters as were expected. -/
theorem finishSecurityV2SerializedCmd_succeeds {call : HostCommand} (reply : HostReply call)
    {storage : ℕ} (hstorage : 4 ≤ storage) (unwritten : ℕ) {count : ℕ} (hcount : 0 < count) :
    Succeeds (finishSecurityV2Cmd (securityV2BufferParam storage) []
        (hostcmdResult reply (securityV2BufferParam storage).data unwritten) >>=
        finishSecurityV2SerializedCmd count)
      fun result ↦ result.status = 0 → result.params.length = count := by
  have hdata : (securityV2BufferParam storage).data = List.replicate storage 0 := rfl
  rw [finishSecurityV2Cmd, hdata]
  split_ifs with hstatus hnone
  · rw [pure_eq_ok, ok_bind, finishSecurityV2SerializedCmd, if_pos hstatus]
    exact (succeeds_ok _ _).mpr fun hzero ↦ absurd hzero minusOne_ne_zero
  · rw [pure_eq_ok, ok_bind, finishSecurityV2SerializedCmd, if_neg (not_not.mpr rfl)]
    have hread : Succeeds (readSerializedResponse count
        ⟨(hostcmdResult reply (List.replicate storage 0) unwritten).respBuf,
          (hostcmdResult reply (List.replicate storage 0) unwritten).outRespSize % 2 ^ 16, 0⟩)
        (IfRead fun params ↦ params.length = count) := by
      rcases responseBuffer_cases reply storage unwritten with hbacked | hzero
      · exact readSerializedResponse_succeeds count hbacked
      · rw [hzero, readSerializedResponse_zero hstorage _ hcount]
        exact (succeeds_ok _ _).mpr (ifRead_none _)
    refine hread.bind fun outcome houtcome ↦ ?_
    cases outcome with
    | none => exact (succeeds_ok _ _).mpr fun hzero ↦ absurd hzero minusOne_ne_zero
    | some params => exact (succeeds_ok _ _).mpr fun _ ↦ houtcome params rfl
  · exact absurd rfl hnone

/-! ### Requests that fit -/

/-- The bytes of a padded parameter with its header. -/
def paddedSize (param : List UInt8) : ℕ :=
  securityV2HeaderSize + (param.length + paddingSize param.length)

/-- Parameters that fit the rest of the buffer are written without a fault. -/
theorem writeRequestParams_ok (params : List (List UInt8))
    (hparams : ∀ param ∈ params, Paddable param.length) {buffer : SecurityV2Buffer}
    (hbacked : buffer.Backed)
    (hroom : buffer.bytesConsumed + (params.map paddedSize).sum ≤ buffer.size) :
    ∃ filled, writeRequestParams params buffer = .ok (some filled) := by
  induction params generalizing buffer with
  | nil => exact ⟨buffer, rfl⟩
  | cons param rest ih =>
    have hbound : buffer.size ≤ buffer.data.length := hbacked
    have hpaddable : param.length + paddingSize param.length < 2 ^ 16 :=
      hparams param List.mem_cons_self
    have hheader : securityV2HeaderSize = 4 := rfl
    rw [List.map_cons, List.sum_cons, paddedSize, hheader] at hroom
    have hsize : buffer.bytesConsumed + (toLittleEndian 2 param.length).length ≤
        buffer.data.length := by
      rw [length_toLittleEndian]
      omega
    rw [writeRequestParams, consumeBytes_of_le (by decide) (by omega)]
    dsimp only
    rw [overwriteWithin_of_le hsize, ok_bind, consumeBytes_of_le hpaddable (by dsimp only; omega)]
    dsimp only
    have hvalue : buffer.bytesConsumed + securityV2HeaderSize + param.length ≤
        (buffer.data.take buffer.bytesConsumed ++ toLittleEndian 2 param.length ++
          buffer.data.drop (buffer.bytesConsumed +
            (toLittleEndian 2 param.length).length)).length := by
      simp only [List.length_append, List.length_take, List.length_drop, length_toLittleEndian]
      omega
    rw [overwriteWithin_of_le hvalue, ok_bind]
    refine ih (fun other hother ↦ hparams other (List.mem_cons_of_mem _ hother)) ?_ ?_
    · simp only [SecurityV2Buffer.Backed, List.length_append, List.length_take, List.length_drop,
        length_toLittleEndian]
      omega
    · dsimp only
      omega

/-- A request that fits its buffer is written without a fault. -/
theorem writeRequest_ok (major minor : ℕ) (params : List (List UInt8))
    (hparams : ∀ param ∈ params, Paddable param.length) {size : ℕ} (hsize : size < 2 ^ 16)
    (hroom : securityV2HeaderSize + (params.map paddedSize).sum ≤ size) :
    ∃ filled, writeRequest major minor params (securityV2BufferParam size) =
      .ok (some filled) := by
  have hheader : securityV2HeaderSize = 4 := rfl
  have hbuffer : securityV2BufferParam size = ⟨List.replicate size 0, size, 0⟩ := by
    rw [securityV2BufferParam, Nat.mod_eq_of_lt hsize]
  have hfits : 0 + (toLittleEndian 1 major ++ toLittleEndian 1 minor ++
      toLittleEndian 2 params.length).length ≤ (List.replicate size (0 : UInt8)).length := by
    simp only [List.length_append, length_toLittleEndian, List.length_replicate]
    omega
  rw [writeRequest, hbuffer, consumeBytes_of_le (by decide) (by dsimp only; omega)]
  dsimp only
  rw [overwriteWithin_of_le hfits, ok_bind]
  refine writeRequestParams_ok params hparams ?_ ?_
  · simp only [SecurityV2Buffer.Backed, List.length_append, List.length_take, List.length_drop,
      length_toLittleEndian, List.length_replicate]
    omega
  · dsimp only
    omega

section Commands

variable {σ : Type} {environment : Environment ToolReply σ} {major minor baseCommand : ℕ}
  {requestBuffer filled : SecurityV2Buffer} {requestParams : List (List UInt8)} {storage : ℕ}

/-- Whatever the device does, a command with copied parameters does not fault. -/
theorem htoolExecSecurityV2Cmd_ensures
    (hrequest : writeRequest major minor requestParams requestBuffer = .ok (some filled))
    (hstorage : 4 ≤ storage) {sizes : List ℕ} (hsome : sizes ≠ [])
    (hsizes : ∀ size ∈ sizes, Paddable size) (start : σ) :
    Ensures environment (htoolExecSecurityV2Cmd major minor baseCommand requestBuffer
        requestParams (securityV2BufferParam storage) sizes) start fun outcome _ ↦
      Succeeds outcome fun result ↦
        result.status = 0 → result.params.map List.length = sizes := by
  rw [htoolExecSecurityV2Cmd, hrequest]
  simp only [libhothHostcmdExec, ensures_bind, ensures_request, pure_eq_done, ensures_done]
  intro unwritten _ _ reply _ _
  exact finishSecurityV2Cmd_succeeds reply hstorage unwritten hsome hsizes

/-- Whatever the device does, a command with serialized parameters does not fault. -/
theorem htoolExecSecurityV2SerializedCmd_ensures
    (hrequest : writeRequest major minor requestParams requestBuffer = .ok (some filled))
    (hstorage : 4 ≤ storage) {count : ℕ} (hcount : 0 < count) (start : σ) :
    Ensures environment (htoolExecSecurityV2SerializedCmd major minor baseCommand requestBuffer
        requestParams (securityV2BufferParam storage) count) start fun outcome _ ↦
      Succeeds outcome fun result ↦ result.status = 0 → result.params.length = count := by
  rw [htoolExecSecurityV2SerializedCmd, htoolExecSecurityV2Cmd, hrequest]
  simp only [libhothHostcmdExec, ensures_bind, ensures_request, pure_eq_done, ensures_done]
  intro unwritten _ _ reply _ _
  have hfinish := finishSecurityV2SerializedCmd_succeeds reply hstorage unwritten hcount
  cases hresult : finishSecurityV2Cmd (securityV2BufferParam storage) []
      (hostcmdResult reply (securityV2BufferParam storage).data unwritten) with
  | error fault =>
    rw [hresult, error_bind] at hfinish
    obtain ⟨_, herror, -⟩ := hfinish
    cases herror
  | ok result =>
    rw [hresult, ok_bind] at hfinish
    exact (ensures_done _ _ _).mpr hfinish

end Commands

/-! ### Encoded responses -/

/-- A parameter with its header and its padding. -/
def encodeParam (value : List UInt8) : List UInt8 :=
  toLittleEndian 2 value.length ++ (toLittleEndian 2 0 ++
    (value ++ List.replicate (paddingSize value.length) 0))

/-- A response with its header. -/
def encodeResponse (params : List (List UInt8)) : List UInt8 :=
  toLittleEndian 2 params.length ++ (toLittleEndian 2 0 ++ params.flatMap encodeParam)

@[simp] theorem length_encodeParam (value : List UInt8) :
    (encodeParam value).length = paddedSize value := by
  simp only [encodeParam, paddedSize, securityV2HeaderSize, List.length_append,
    length_toLittleEndian, List.length_replicate]
  omega

theorem length_encodeResponse (params : List (List UInt8)) :
    (encodeResponse params).length = securityV2HeaderSize + (params.map paddedSize).sum := by
  simp only [encodeResponse, securityV2HeaderSize, List.length_append, length_toLittleEndian,
    List.length_flatMap, length_encodeParam, ← Nat.add_assoc]

section Encoded

variable {front tail value : List UInt8}

/-- The header of a parameter behind other bytes. -/
theorem readWord_encodeParam (hvalue : value.length < 2 ^ 16) :
    readWord (front ++ (encodeParam value ++ tail)) front.length 2 = .ok value.length ∧
      readWord (front ++ (encodeParam value ++ tail)) (front.length + 2) 2 = .ok 0 := by
  have hlength : front.length + 4 ≤ (front ++ (encodeParam value ++ tail)).length := by
    simp only [List.length_append, length_encodeParam, paddedSize, securityV2HeaderSize]
    omega
  rw [readWord_of_le (by omega), readWord_of_le (by omega), wordAt_append_right,
    ← Nat.add_zero front.length, wordAt_append_right]
  constructor
  · rw [encodeParam, List.append_assoc, wordAt_toLittleEndian hvalue]
  · have hsecond := wordAt_append_right (toLittleEndian 2 value.length)
      (toLittleEndian 2 0 ++ (value ++ List.replicate (paddingSize value.length) 0) ++ tail) 0 2
    rw [length_toLittleEndian, Nat.add_zero] at hsecond
    rw [encodeParam, List.append_assoc, hsecond, List.append_assoc,
      wordAt_toLittleEndian (by decide)]

/-- The value of a parameter behind other bytes. -/
theorem sliceWithin_encodeParam :
    sliceWithin (front ++ (encodeParam value ++ tail)) (front.length + securityV2HeaderSize)
      value.length = .ok value := by
  have hsplit : front ++ (encodeParam value ++ tail) =
      (front ++ (toLittleEndian 2 value.length ++ toLittleEndian 2 0)) ++
        (value ++ (List.replicate (paddingSize value.length) 0 ++ tail)) := by
    simp [encodeParam]
  have hfront : front.length + securityV2HeaderSize =
      (front ++ (toLittleEndian 2 value.length ++ toLittleEndian 2 0)).length := by
    simp [securityV2HeaderSize]
  rw [hsplit, hfront, sliceWithin_of_le (by simp; omega), slice, List.drop_left' rfl,
    List.take_left' rfl]

/-- The padding of a parameter behind other bytes. -/
theorem sliceWithin_padding :
    sliceWithin (front ++ (encodeParam value ++ tail))
      (front.length + securityV2HeaderSize + value.length) (paddingSize value.length) =
        .ok (List.replicate (paddingSize value.length) 0) := by
  have hsplit : front ++ (encodeParam value ++ tail) =
      (front ++ (toLittleEndian 2 value.length ++ (toLittleEndian 2 0 ++ value))) ++
        (List.replicate (paddingSize value.length) 0 ++ tail) := by
    simp [encodeParam]
  have hfront : front.length + securityV2HeaderSize + value.length =
      (front ++ (toLittleEndian 2 value.length ++ (toLittleEndian 2 0 ++ value))).length := by
    simp [securityV2HeaderSize]
    omega
  rw [hsplit, hfront, sliceWithin_of_le (by simp; omega), slice, List.drop_left' rfl,
    List.take_left' List.length_replicate]

/-- The copying loop accepts encoded parameters. -/
theorem readResponseParams_encode (params : List (List UInt8))
    (hparams : ∀ param ∈ params, Paddable param.length) (front : List UInt8) {size : ℕ}
    (hroom : front.length + (params.map paddedSize).sum ≤ size) :
    readResponseParams (params.map List.length)
        ⟨front ++ (params.flatMap encodeParam ++ tail), size, front.length⟩ =
      .ok (some params) := by
  induction params generalizing front with
  | nil => rfl
  | cons param rest ih =>
    have hpaddable : param.length + paddingSize param.length < 2 ^ 16 :=
      hparams param List.mem_cons_self
    rw [List.map_cons, List.sum_cons, paddedSize] at hroom
    rw [List.map_cons, readResponseParams, consumeBytes_of_le (by decide) (by dsimp only; omega)]
    dsimp only
    rw [List.flatMap_cons, List.append_assoc, (readWord_encodeParam (by omega)).1, ok_bind,
      if_neg (not_not.mpr rfl), consumeBytes_of_le hpaddable (by dsimp only; omega)]
    dsimp only
    rw [sliceWithin_encodeParam, ok_bind]
    have hfront : front.length + securityV2HeaderSize +
        (param.length + paddingSize param.length) = (front ++ encodeParam param).length := by
      rw [List.length_append, length_encodeParam, paddedSize, Nat.add_assoc]
    rw [← List.append_assoc front, hfront, ih
      (fun other hother ↦ hparams other (List.mem_cons_of_mem _ hother))
      (front ++ encodeParam param) (by rw [← hfront]; omega), ok_bind]
    rfl

/-- A serialized parameter is read with its padding. -/
theorem readSecurityV2SerializedParam_encode {param : List UInt8} (hparam : Paddable param.length)
    (front tail : List UInt8) {size : ℕ} (hroom : front.length + paddedSize param ≤ size) :
    readSecurityV2SerializedParam ⟨front ++ (encodeParam param ++ tail), size, front.length⟩ =
      .ok (some (param, ⟨front ++ (encodeParam param ++ tail), size,
        (front ++ encodeParam param).length⟩)) := by
  have hpaddable : param.length + paddingSize param.length < 2 ^ 16 := hparam
  have hend : (front ++ encodeParam param).length =
      front.length + securityV2HeaderSize + param.length + paddingSize param.length := by
    rw [List.length_append, length_encodeParam, paddedSize]
    omega
  rw [paddedSize] at hroom
  obtain ⟨hsize, hreserved⟩ := readWord_encodeParam (show param.length < 2 ^ 16 by omega)
  rw [readSecurityV2SerializedParam, consumeBytes_of_le (by decide) (by dsimp only; omega)]
  dsimp only
  rw [hsize, hreserved, ok_bind, ok_bind, if_neg (not_not.mpr rfl),
    consumeBytes_of_le (by omega) (by dsimp only; omega)]
  dsimp only
  rw [hend, validateParamPadding]
  by_cases hpadding : paddingSize param.length = 0
  · rw [if_pos hpadding, pure_eq_ok, ok_bind]
    dsimp only
    rw [sliceWithin_encodeParam, ok_bind, hpadding, Nat.add_zero]
    rfl
  · rw [if_neg hpadding, consumeBytes_of_le (by omega) (by dsimp only; omega)]
    dsimp only
    rw [sliceWithin_padding, ok_bind, if_neg (by simp), pure_eq_ok, ok_bind]
    dsimp only
    rw [sliceWithin_encodeParam, ok_bind]
    rfl

/-- The loop over serialized parameters accepts encoded parameters. -/
theorem readSerializedParams_encode (params : List (List UInt8))
    (hparams : ∀ param ∈ params, Paddable param.length) (front : List UInt8) {size : ℕ}
    (hroom : front.length + (params.map paddedSize).sum ≤ size) :
    readSerializedParams params.length
        ⟨front ++ (params.flatMap encodeParam ++ tail), size, front.length⟩ =
      .ok (some params) := by
  induction params generalizing front with
  | nil => rfl
  | cons param rest ih =>
    rw [List.map_cons, List.sum_cons] at hroom
    have hlater := ih (fun other hother ↦ hparams other (List.mem_cons_of_mem _ hother))
      (front ++ encodeParam param) (by rw [List.length_append, length_encodeParam]; omega)
    rw [List.append_assoc] at hlater
    rw [List.length_cons, readSerializedParams, List.flatMap_cons, List.append_assoc,
      readSecurityV2SerializedParam_encode (hparams param List.mem_cons_self) _ _ (by omega),
      ok_bind]
    dsimp only
    rw [hlater, ok_bind]
    rfl

end Encoded

section Responses

variable (params : List (List UInt8)) (tail : List UInt8)

theorem encodeResponse_append :
    encodeResponse params ++ tail =
      (toLittleEndian 2 params.length ++ toLittleEndian 2 0) ++
        (params.flatMap encodeParam ++ tail) := by
  simp [encodeResponse]

/-- The header of an encoded response. -/
theorem readWord_encodeResponse (hcount : params.length < 2 ^ 16) :
    readWord (encodeResponse params ++ tail) 0 2 = .ok params.length ∧
      readWord (encodeResponse params ++ tail) (0 + 2) 2 = .ok 0 := by
  have hlength : 4 ≤ (encodeResponse params ++ tail).length := by
    rw [List.length_append, length_encodeResponse, securityV2HeaderSize]
    omega
  rw [readWord_of_le (by omega), readWord_of_le (by omega), encodeResponse, List.append_assoc]
  constructor
  · rw [wordAt_toLittleEndian hcount]
  · have hsecond := wordAt_append_right (toLittleEndian 2 params.length)
      (toLittleEndian 2 0 ++ params.flatMap encodeParam ++ tail) 0 2
    rw [length_toLittleEndian, Nat.add_zero] at hsecond
    rw [Nat.zero_add, hsecond, List.append_assoc, wordAt_toLittleEndian (by decide)]

/-- The size of the header of a response. -/
theorem length_countWords (count : ℕ) :
    (toLittleEndian 2 count ++ toLittleEndian 2 0).length = 4 := by
  rw [List.length_append, length_toLittleEndian, length_toLittleEndian]

/-- The copying parser accepts an encoded response. -/
theorem readResponse_encode (hparams : ∀ param ∈ params, Paddable param.length)
    (hcount : params.length < 2 ^ 16) :
    readResponse (params.map List.length)
        ⟨encodeResponse params ++ tail, (encodeResponse params).length, 0⟩ =
      .ok (some params) := by
  have hsize := length_encodeResponse params
  have hheader : securityV2HeaderSize = 4 := rfl
  have hfront := length_countWords params.length
  rw [readResponse, consumeBytes_of_le (by decide) (by dsimp only; omega)]
  dsimp only
  rw [(readWord_encodeResponse params tail hcount).1, ok_bind,
    if_neg (by rw [List.length_map]; exact not_not.mpr rfl), encodeResponse_append]
  exact readResponseParams_encode params hparams
    (toLittleEndian 2 params.length ++ toLittleEndian 2 0) (by omega)

/-- The parser of serialized responses accepts an encoded response. -/
theorem readSerializedResponse_encode (hparams : ∀ param ∈ params, Paddable param.length)
    (hcount : params.length < 2 ^ 16) :
    readSerializedResponse params.length
        ⟨encodeResponse params ++ tail, (encodeResponse params).length, 0⟩ =
      .ok (some params) := by
  have hsize := length_encodeResponse params
  have hheader : securityV2HeaderSize = 4 := rfl
  have hfront := length_countWords params.length
  obtain ⟨hcountWord, hreserved⟩ := readWord_encodeResponse params tail hcount
  rw [readSerializedResponse, consumeBytes_of_le (by decide) (by dsimp only; omega)]
  dsimp only
  rw [hreserved, ok_bind, if_neg (not_not.mpr rfl), hcountWord, ok_bind, if_neg (not_not.mpr rfl),
    encodeResponse_append]
  exact readSerializedParams_encode params hparams
    (toLittleEndian 2 params.length ++ toLittleEndian 2 0) (by omega)

end Responses

/-! ### Runs of the commands on encoded responses -/

section Runs

variable {major minor baseCommand : ℕ} {requestBuffer filled : SecurityV2Buffer}
  {requestParams params : List (List UInt8)} {storage : ℕ}

/-- What a command leaves after an encoded response. -/
theorem finishSecurityV2Cmd_encode {call : HostCommand} (sizes : List ℕ)
    (hsmall : (encodeResponse params).length < 2 ^ 16)
    (fits : Protocol.HostCommand.PayloadFits (encodeResponse params) call.respBufSize call.sized)
    (hread : sizes ≠ [] → sizes = params.map List.length)
    (hparams : ∀ param ∈ params, Paddable param.length) (hcount : params.length < 2 ^ 16)
    (storage unwritten : ℕ) :
    finishSecurityV2Cmd (securityV2BufferParam storage) sizes
        (hostcmdResult (.accepted (encodeResponse params) fits : HostReply call)
          (securityV2BufferParam storage).data unwritten) =
      .ok ⟨0, ⟨encodeResponse params ++ (List.replicate storage 0).drop
          (encodeResponse params).length, (encodeResponse params).length, 0⟩,
        if sizes = [] then [] else params⟩ := by
  rw [finishSecurityV2Cmd, hostcmdResult]
  dsimp only
  rw [if_neg (not_not.mpr rfl), Nat.mod_eq_of_lt hsmall]
  split_ifs with hnone
  · rfl
  · have hresponse := readResponse_encode params
      ((List.replicate storage 0).drop (encodeResponse params).length) hparams hcount
    rw [hread hnone]
    dsimp only [securityV2BufferParam]
    rw [hresponse, ok_bind]
    rfl

/-- An encoded response that fits the storage is a reply of the device. -/
theorem payloadFits_encodeResponse (baseCommand : ℕ) (filled : SecurityV2Buffer)
    (hstorage : storage < 2 ^ 16) (hfits : (encodeResponse params).length ≤ storage) :
    Protocol.HostCommand.PayloadFits (encodeResponse params)
      (securityV2Call baseCommand filled (securityV2BufferParam storage)).respBufSize
      (securityV2Call baseCommand filled (securityV2BufferParam storage)).sized := by
  simp only [Protocol.HostCommand.PayloadFits, securityV2Call, if_true, securityV2BufferParam,
    Nat.mod_eq_of_lt hstorage]
  exact hfits

/-- Every reply to a command, and every value of the size word, gives a run. -/
theorem runs_htoolExecSecurityV2Cmd
    (hrequest : writeRequest major minor requestParams requestBuffer = .ok (some filled))
    (responseBuffer : SecurityV2Buffer) (sizes : List ℕ)
    (reply : HostReply (securityV2Call baseCommand filled responseBuffer)) (unwritten : ℕ)
    (past : ToolHistory) :
    Runs recording (htoolExecSecurityV2Cmd major minor baseCommand requestBuffer requestParams
        responseBuffer sizes) past
      (finishSecurityV2Cmd responseBuffer sizes
        (hostcmdResult reply responseBuffer.data unwritten))
      (past ++ [⟨.unwritten, unwritten⟩] ++ [⟨.hostcmdExec _, reply⟩]) := by
  rw [htoolExecSecurityV2Cmd, hrequest]
  exact (runs_bind _ _ _ _ _).mpr
    ⟨_, _, runs_libhothHostcmdExec _ _ reply unwritten past, rfl, rfl⟩

/-- A device can answer a command with copied parameters by encoding them. -/
theorem exists_runs_htoolExecSecurityV2Cmd
    (hrequest : writeRequest major minor requestParams requestBuffer = .ok (some filled))
    (hsome : params ≠ []) (hparams : ∀ param ∈ params, Paddable param.length)
    (hcount : params.length < 2 ^ 16) (hstorage : storage < 2 ^ 16)
    (hfits : (encodeResponse params).length ≤ storage) (past : ToolHistory) :
    ∃ responseBuffer now, Runs recording (htoolExecSecurityV2Cmd major minor baseCommand
      requestBuffer requestParams (securityV2BufferParam storage) (params.map List.length)) past
        (.ok ⟨0, responseBuffer, params⟩) now := by
  have hpayload := payloadFits_encodeResponse baseCommand filled hstorage hfits
  have hfinish := finishSecurityV2Cmd_encode (params.map List.length) (hfits.trans_lt hstorage)
    hpayload (fun _ ↦ rfl) hparams hcount storage 0
  have hrun := runs_htoolExecSecurityV2Cmd hrequest (securityV2BufferParam storage)
    (params.map List.length) (.accepted _ hpayload) 0 past
  rw [hfinish, if_neg (by simpa using hsome)] at hrun
  exact ⟨_, _, hrun⟩

/-- A device can answer a command with serialized parameters by encoding them. -/
theorem exists_runs_htoolExecSecurityV2SerializedCmd
    (hrequest : writeRequest major minor requestParams requestBuffer = .ok (some filled))
    (hparams : ∀ param ∈ params, Paddable param.length) (hcount : params.length < 2 ^ 16)
    (hstorage : storage < 2 ^ 16) (hfits : (encodeResponse params).length ≤ storage)
    (past : ToolHistory) :
    ∃ now, Runs recording (htoolExecSecurityV2SerializedCmd major minor baseCommand requestBuffer
      requestParams (securityV2BufferParam storage) params.length) past (.ok ⟨0, params⟩) now := by
  have hpayload := payloadFits_encodeResponse baseCommand filled hstorage hfits
  have hfinish := finishSecurityV2Cmd_encode [] (hfits.trans_lt hstorage) hpayload
    (fun hnone ↦ absurd rfl hnone) hparams hcount storage 0
  have hread := readSerializedResponse_encode params
    ((List.replicate storage 0).drop (encodeResponse params).length) hparams hcount
  have hrun := runs_htoolExecSecurityV2Cmd hrequest (securityV2BufferParam storage) []
    (.accepted _ hpayload) 0 past
  rw [hfinish] at hrun
  refine ⟨_, (runs_bind _ _ _ _ _).mpr ⟨_, _, hrun, ?_, rfl⟩⟩
  rw [finishSecurityV2SerializedCmd, if_neg (not_not.mpr rfl), hread, ok_bind]
  rfl

end Runs

end Libhoth.Examples.SecurityV2
