import Libhoth.Protocol.HostCommand

/-!
# The proxy for raw host commands

`command_raw_host_command` of `htool_raw_host_command.c`: host command frames come in on the
standard input, are executed on the device, and response frames go out on the standard output. A
read may bring fewer bytes than were asked for and a write may take fewer than were given, and
`fdReadExact` and `fdWriteExact` are the loops around them. `readRawRequest` is the part of the
loop body up to the check of a request, and `rawResponse` the header of a response.

`session` is the environment in which the calls of the operating system and of the transport
succeed. In it `readRawRequest` takes a well-formed request off the standard input
(`WellFormedRequest.acceptedAs`). `libhothHostcmdExecV2_request` joins the two ends: the frame that
`libhoth_hostcmd_exec_v2` hands to its transport is a request that the proxy accepts and takes apart
into the same command, version and payload.
-/

set_option autoImplicit false
set_option relaxedAutoImplicit false

namespace Libhoth.Examples.RawHostCommand

open Foundation.ByteString Foundation.InteractingProgram
open Protocol.Status Protocol.HostCommand

/-! ### The calls -/

/-- What the proxy asks of the world around it. -/
inductive ProxyCall
  | libhothDevice
  | read (count : ℕ)
  | write (data : List UInt8)
  | transport (call : TransportCall)

/-- The outcome of a `read`: an error, or some of the bytes, and none at the end of the file. -/
inductive ReadReply (count : ℕ)
  | failed
  | bytes (data : List UInt8) (fits : data.length ≤ count)

/-- The outcome of a `write`: an error, or how many bytes were written. -/
inductive WriteReply (data : List UInt8)
  | failed
  | written (count : ℕ) (fits : count ≤ data.length)

/-- The replies to the calls of the proxy. -/
abbrev ProxyReply : ProxyCall → Type
  | .libhothDevice => Bool
  | .read count => ReadReply count
  | .write data => WriteReply data
  | .transport call => TransportReply call

/-- Programs of the proxy. -/
abbrev ProxyProgram := Interaction ProxyReply

/-- A program over a transport as part of the proxy. -/
def onTransport {α : Type} (program : TransportProgram α) : ProxyProgram α :=
  interpret (fun call ↦ request (ProxyCall.transport call)) program

/-! ### The loops around `read` and `write` -/

/-- What `fd_read_exact` returns: -1, 1, or 0 with the bytes that were asked for. -/
inductive ReadExact
  | failed
  | endOfFile
  | complete (bytes : List UInt8)

/-- One round of `fd_read_exact`, with the bytes that are still missing and those that came. -/
def fdReadRound (state : ℕ × List UInt8) :
    ProxyProgram ({next : ℕ × List UInt8 // next.1 < state.1} ⊕ ReadExact) :=
  if hcount : state.1 = 0 then return .inr (.complete state.2)
  else do
    match ← request (ProxyCall.read state.1) with
    | .failed => return .inr .failed
    | .bytes data _ =>
      if hdata : data.length = 0 then return .inr .endOfFile
      else return .inl ⟨(state.1 - data.length, state.2 ++ data), by dsimp only; omega⟩

/-- `fd_read_exact`. -/
def fdReadExact (count : ℕ) : ProxyProgram ReadExact :=
  whileDecreasing Prod.fst fdReadRound (count, [])

/-- One round of `fd_write_exact`, with the bytes that are still to be written. -/
def fdWriteRound (data : List UInt8) :
    ProxyProgram ({next : List UInt8 // next.length < data.length} ⊕ ℤ) :=
  if hdata : data.length = 0 then return .inr 0
  else do
    match ← request (ProxyCall.write data) with
    | .failed => return .inr (-1)
    | .written count _ =>
      if hcount : count = 0 then return .inr (-1)
      else return .inl ⟨data.drop count, by rw [List.length_drop]; omega⟩

/-- `fd_write_exact`. -/
def fdWriteExact (data : List UInt8) : ProxyProgram ℤ :=
  whileDecreasing List.length fdWriteRound data

/-! ### Requests and responses -/

/-- The request header at the start of a byte string. -/
def HothHostRequest.decode (request : List UInt8) : HothHostRequest where
  structVersion := wordAt request 0 1
  checksum := UInt8.ofNat (wordAt request 1 1)
  command := wordAt request 2 2
  commandVersion := wordAt request 4 1
  reserved := wordAt request 5 1
  dataLen := wordAt request 6 2

/-- The bytes of a response header. -/
def HothHostResponse.encode (header : HothHostResponse) : List UInt8 :=
  toLittleEndian 1 header.structVersion ++ toLittleEndian 1 header.checksum ++
    toLittleEndian 2 header.result ++ toLittleEndian 2 header.dataLen ++
    toLittleEndian 2 header.reserved

/-- What the proxy forwards to the device. -/
structure RawRequest where
  command : ℕ
  commandVersion : ℕ
  payload : List UInt8

/-- The part of the loop body up to the check of the checksum: the request, or what the proxy
returns. -/
def readRawRequest : ProxyProgram (ℤ ⊕ RawRequest) := do
  match ← fdReadExact headerSize with
  | .failed => return .inl (-1)
  | .endOfFile => return .inl 0
  | .complete header =>
    let req := HothHostRequest.decode header
    if req.dataLen > libhothMailboxSize - headerSize then return .inl (-1)
    else do
      match ← fdReadExact req.dataLen with
      | .failed => return .inl (-1)
      | .endOfFile => return .inl 1
      | .complete payload =>
        if libhothCalculateChecksum header payload ≠ 0 then return .inl (-1)
        else return .inr ⟨req.command, req.commandVersion, payload⟩

/-- `RESP_BUF_LEN`. -/
def respBufLen : ℕ := 2048

/-- The header of the response for a legacy `int` and the payload that the device gave. -/
def rawResponse (rv : BitVec 32) (payload : List UInt8) : HothHostResponse :=
  let resp : HothHostResponse :=
    { structVersion := 3
      checksum := 0
      result := if rv.toInt > htoolErrorHostCommandStart then
          (rv.toNat - htoolErrorHostCommandStart) % 2 ^ 16
        else 0
      dataLen := payload.length
      reserved := 0 }
  { resp with
    checksum := (libhothCalculateChecksum (HothHostResponse.encode resp) payload).toNat }

/-- The rest of the loop body: the request is executed on the device and the response written. -/
def forwardRawRequest (req : RawRequest) : ProxyProgram (Unit ⊕ ℤ) := do
  let (rv, respPayload, actualRespSize) ← onTransport (libhothHostcmdExec req.command
    req.commandVersion req.payload (some (List.replicate respBufLen 0)) respBufLen (some 0))
  if rv ≠ 0 ∧ rv.toInt < htoolErrorHostCommandStart then return .inr rv.toInt
  else do
    let payload := (respPayload.getD []).take (actualRespSize.getD 0)
    let header ← fdWriteExact (HothHostResponse.encode (rawResponse rv payload))
    if header ≠ 0 then return .inr header
    else do
      let written ← fdWriteExact payload
      if written ≠ 0 then return .inr written else return .inl ()

/-- One round of the loop of `command_raw_host_command`. -/
def rawHostCommandRound (_ : Unit) : ProxyProgram (Unit ⊕ ℤ) := do
  match ← readRawRequest with
  | .inl ret => return .inr ret
  | .inr req => forwardRawRequest req

/-- `command_raw_host_command`, cut off after a number of rounds. -/
def commandRawHostCommand (rounds : ℕ) : ProxyProgram (Option ℤ) := do
  let found ← request ProxyCall.libhothDevice
  if found then whileRounds rawHostCommandRound rounds () else return some (-1)

/-! ### The session -/

/-- A frame that a device answers with. -/
structure DeviceReply where
  frame : List UInt8
  wellFormed : WellFormedResponse frame
  fits : frame.length ≤ libhothMailboxSize

/-- The world around the proxy: what is left on the standard input, what was written to the standard
output, and how the device will reply. -/
structure Session where
  stdin : List UInt8
  stdout : List UInt8
  replies : List DeviceReply

/-- The environment in which every call succeeds. A read brings some of the bytes, and none only at
the end of the file; a write takes some of the bytes. The device replies to each receive with its
next frame, and has none only when no frame is left that fits. -/
def session : Environment ProxyReply Session := fun state call reply next ↦
  match call, reply with
  | .libhothDevice, found => found = true ∧ next = state
  | .read _, .failed => False
  | .read count, .bytes data _ => (data = [] → count = 0 ∨ state.stdin = []) ∧
      state.stdin = data ++ next.stdin ∧ next.stdout = state.stdout ∧ next.replies = state.replies
  | .write _, .failed => False
  | .write data, .written count _ => (count = 0 → data = []) ∧
      next = { state with stdout := state.stdout ++ data.take count }
  | .transport (.send _), err => err = hothSuccess ∧ next = state
  | .transport (.receive maxResponseSize _), .failed _ _ => next = state ∧
      ∀ reply, state.replies.head? = some reply → maxResponseSize < reply.frame.length
  | .transport (.receive _ _), .received response _ => ∃ reply,
      state.replies = reply :: next.replies ∧ response = reply.frame ∧
        next.stdin = state.stdin ∧ next.stdout = state.stdout

/-- Every call can be answered. -/
theorem session_serial (state : Session) (call : ProxyCall) :
    ∃ reply next, session state call reply next := by
  match call with
  | .libhothDevice => exact ⟨true, state, rfl, rfl⟩
  | .read count =>
    refine ⟨.bytes (state.stdin.take count) (by simp),
      { state with stdin := state.stdin.drop count }, fun hnone ↦ ?_,
      (List.take_append_drop _ _).symm, rfl, rfl⟩
    exact List.take_eq_nil_iff.mp hnone
  | .write data =>
    exact ⟨.written data.length le_rfl, _, fun hnone ↦ List.length_eq_zero_iff.mp hnone, rfl⟩
  | .transport (.send frame) => exact ⟨hothSuccess, state, rfl, rfl⟩
  | .transport (.receive maxResponseSize timeoutMs) =>
    obtain ⟨stdin, stdout, replies⟩ := state
    cases replies with
    | nil =>
      exact ⟨.failed (cmdExecStatus .fail) (cmdExecStatus_ne_success _), _, rfl,
        fun reply hreply ↦ absurd hreply (by simp)⟩
    | cons reply replies =>
      by_cases hfits : reply.frame.length ≤ maxResponseSize
      · exact ⟨.received reply.frame hfits, ⟨stdin, stdout, replies⟩, reply, rfl, rfl, rfl, rfl⟩
      · refine ⟨.failed (cmdExecStatus .fail) (cmdExecStatus_ne_success _), _, rfl,
          fun other hother ↦ ?_⟩
        obtain rfl := Option.some.inj hother
        exact not_le.mp hfits

/-- Reading a number of bytes that are there takes them off the standard input. -/
theorem fdReadExact_ensures (data rest stdout : List UInt8) (replies : List DeviceReply) :
    Ensures session (fdReadExact data.length) ⟨data ++ rest, stdout, replies⟩ fun outcome final ↦
      outcome = .complete data ∧ final = ⟨rest, stdout, replies⟩ := by
  refine whileDecreasing_ensures
    (fun loop (state : Session) ↦ ∃ missing, loop.2 ++ missing = data ∧
      missing.length = loop.1 ∧ state = ⟨missing ++ rest, stdout, replies⟩) ?_ _ _
    ⟨data, rfl, rfl, rfl⟩
  rintro ⟨count, buf⟩ state ⟨missing, hdata, hmissing, rfl⟩
  unfold fdReadRound
  dsimp only at hmissing hdata ⊢
  split_ifs with hcount
  · have hnone : missing = [] := List.length_eq_zero_iff.mp (hmissing.trans hcount)
    subst hnone
    rw [List.append_nil] at hdata
    exact (ensures_done _ _ _).mpr ⟨by rw [hdata], rfl⟩
  · rw [ensures_bind, ensures_request]
    intro reply final hstep
    match reply, hstep with
    | .bytes part hfits, hstep =>
      obtain ⟨hprogress, hstdin, hstdout, hreplies⟩ := hstep
      dsimp only at hprogress hstdin hstdout hreplies ⊢
      have hpart : part.length ≠ 0 := by
        intro hnone
        rcases hprogress (List.length_eq_zero_iff.mp hnone) with hzero | hnil
        · exact hcount hzero
        · have hlength := congrArg List.length hnil
          simp only [List.length_append, List.length_nil] at hlength
          omega
      obtain ⟨more, rfl⟩ : part <+: missing :=
        List.prefix_of_prefix_length_le ⟨final.stdin, hstdin.symm⟩ ⟨rest, rfl⟩ (hmissing ▸ hfits)
      rw [List.append_assoc, List.append_cancel_left_eq] at hstdin
      rw [dif_neg hpart, pure_eq_done, ensures_done]
      refine ⟨more, by rw [← hdata, List.append_assoc], ?_, ?_⟩
      · rw [List.length_append] at hmissing
        dsimp only
        omega
      · obtain ⟨stdin, out, left⟩ := final
        dsimp only at hstdin hstdout hreplies
        rw [hstdin, hstdout, hreplies]

/-- Writing bytes puts all of them on the standard output. -/
theorem fdWriteExact_ensures (data stdin stdout : List UInt8) (replies : List DeviceReply) :
    Ensures session (fdWriteExact data) ⟨stdin, stdout, replies⟩ fun outcome final ↦
      outcome = 0 ∧ final = ⟨stdin, stdout ++ data, replies⟩ := by
  refine whileDecreasing_ensures
    (fun left (state : Session) ↦ ∃ written, written ++ left = data ∧
      state = ⟨stdin, stdout ++ written, replies⟩) ?_ _ _
    ⟨[], rfl, by rw [List.append_nil]⟩
  rintro left state ⟨written, hdata, rfl⟩
  unfold fdWriteRound
  split_ifs with hleft
  · obtain rfl := List.length_eq_zero_iff.mp hleft
    rw [List.append_nil] at hdata
    exact (ensures_done _ _ _).mpr ⟨rfl, by rw [hdata]⟩
  · rw [ensures_bind, ensures_request]
    intro reply final hstep
    match reply, hstep with
    | .written count hfits, hstep =>
      obtain ⟨hprogress, rfl⟩ := hstep
      have hcount : count ≠ 0 := fun hzero ↦
        hleft (List.length_eq_zero_iff.mpr (hprogress hzero))
      dsimp only
      rw [dif_neg hcount, pure_eq_done, ensures_done]
      refine ⟨written ++ left.take count, ?_, ?_⟩
      · rw [List.append_assoc, List.take_append_drop, hdata]
      · rw [List.append_assoc]

/-! ### Requests that the proxy accepts -/

/-- A frame that the proxy accepts: a whole header that announces the bytes that follow it, at most
a mailbox of them, all bytes summing to zero modulo 256. -/
structure WellFormedRequest (frame : List UInt8) : Prop where
  size : headerSize ≤ frame.length
  dataLen : (HothHostRequest.decode frame).dataLen = frame.length - headerSize
  fits : frame.length ≤ libhothMailboxSize
  checksum : byteSum frame % 256 = 0

/-- What the proxy forwards for a frame. -/
def RawRequest.ofFrame (frame : List UInt8) : RawRequest where
  command := (HothHostRequest.decode frame).command
  commandVersion := (HothHostRequest.decode frame).commandVersion
  payload := frame.drop headerSize

/-- The header of a frame is read from its first eight bytes. -/
theorem HothHostRequest.decode_take {frame : List UInt8} (hsize : headerSize ≤ frame.length) :
    HothHostRequest.decode (frame.take headerSize) = HothHostRequest.decode frame := by
  have hword (offset width : ℕ) (hinside : offset + width ≤ headerSize) :
      wordAt (frame.take headerSize) offset width = wordAt frame offset width := by
    conv_rhs => rw [← List.take_append_drop headerSize frame]
    rw [wordAt_append_left (by rw [List.length_take]; omega)]
  simp only [HothHostRequest.decode]
  rw [hword 0 1 (by decide), hword 1 1 (by decide), hword 2 2 (by decide), hword 4 1 (by decide),
    hword 5 1 (by decide), hword 6 2 (by decide)]

/-- At the start of the standard input, the bytes are taken off and accepted as a request. -/
def AcceptedAs (frame : List UInt8) (req : RawRequest) : Prop :=
  ∀ rest stdout replies, Ensures session readRawRequest ⟨frame ++ rest, stdout, replies⟩
    fun outcome final ↦ outcome = .inr req ∧ final = ⟨rest, stdout, replies⟩

/-- A round on bytes that are accepted as a request forwards that request. -/
theorem AcceptedAs.runs_round {frame : List UInt8} {req : RawRequest}
    (haccepted : AcceptedAs frame req) (rest stdout : List UInt8) (replies : List DeviceReply)
    (result : Unit ⊕ ℤ) (final : Session) :
    Runs session (rawHostCommandRound ()) ⟨frame ++ rest, stdout, replies⟩ result final ↔
      Runs session (forwardRawRequest req) ⟨rest, stdout, replies⟩ result final := by
  rw [rawHostCommandRound, runs_bind]
  constructor
  · rintro ⟨outcome, middle, hread, hforward⟩
    obtain ⟨rfl, rfl⟩ := haccepted rest stdout replies outcome middle hread
    exact hforward
  · intro hforward
    obtain ⟨outcome, middle, hread⟩ := Runs.exists_of_serial session_serial readRawRequest
      ⟨frame ++ rest, stdout, replies⟩
    obtain ⟨rfl, rfl⟩ := haccepted rest stdout replies outcome middle hread
    exact ⟨_, _, hread, hforward⟩

/-- A well-formed request is accepted as what it carries. -/
theorem WellFormedRequest.acceptedAs {frame : List UInt8} (hrequest : WellFormedRequest frame) :
    AcceptedAs frame (RawRequest.ofFrame frame) := by
  intro rest stdout replies
  obtain ⟨hsize, hdataLen, hfits, hchecksum⟩ := hrequest
  have hheader : (frame.take headerSize).length = headerSize := by
    rw [List.length_take, min_eq_left hsize]
  have hpayload : (frame.drop headerSize).length = (HothHostRequest.decode frame).dataLen := by
    rw [List.length_drop, hdataLen]
  have hstdin : frame ++ rest = frame.take headerSize ++ (frame.drop headerSize ++ rest) := by
    rw [← List.append_assoc, List.take_append_drop]
  have hzero : libhothCalculateChecksum (frame.take headerSize) (frame.drop headerSize) = 0 :=
    (libhothCalculateChecksum_eq_zero_iff _ _).mpr (by rwa [List.take_append_drop])
  have hreadHeader := fdReadExact_ensures (frame.take headerSize) (frame.drop headerSize ++ rest)
    stdout replies
  have hreadPayload := fdReadExact_ensures (frame.drop headerSize) rest stdout replies
  rw [hheader] at hreadHeader
  rw [hpayload] at hreadPayload
  rw [readRawRequest, ensures_bind, hstdin]
  refine hreadHeader.mono ?_
  rintro _ _ ⟨rfl, rfl⟩
  dsimp only
  rw [HothHostRequest.decode_take hsize, if_neg (by omega), ensures_bind]
  refine hreadPayload.mono ?_
  rintro _ _ ⟨rfl, rfl⟩
  dsimp only
  rw [if_neg (not_not.mpr hzero), pure_eq_done, ensures_done]
  exact ⟨rfl, rfl⟩

/-! ### The requests of the library -/

/-- A header whose fields fit is read back. -/
theorem HothHostRequest.decode_encode {header : HothHostRequest}
    (hversion : header.structVersion < 2 ^ 8) (hcommand : header.command < 2 ^ 16)
    (hcommandVersion : header.commandVersion < 2 ^ 8) (hreserved : header.reserved < 2 ^ 8)
    (hdataLen : header.dataLen < 2 ^ 16) (rest : List UInt8) :
    HothHostRequest.decode (header.encode ++ rest) = header := by
  obtain ⟨structVersion, checksum, command, commandVersion, reserved, dataLen⟩ := header
  dsimp only at hversion hcommand hcommandVersion hreserved hdataLen
  simp only [HothHostRequest.decode, HothHostRequest.encode, toLittleEndian, wordAt, slice,
    List.cons_append, List.nil_append, List.drop_zero, List.drop_succ_cons, List.take_succ_cons,
    List.take_zero, littleEndian, UInt8.toNat_ofNat', HothHostRequest.mk.injEq]
  refine ⟨by omega, by simp, by omega, by omega, by omega, by omega⟩

theorem HothHostRequest.length_encode (header : HothHostRequest) :
    header.encode.length = headerSize :=
  rfl

/-- A request frame that carries a command, its version and a payload. -/
structure CarriesRequest (frame : List UInt8) (command : UInt16) (version : UInt8)
    (payload : List UInt8) : Prop where
  length : frame.length = 8 + payload.length
  sum : byteSum frame % 256 = 0
  structVersion : (HothHostRequest.decode frame).structVersion = 3
  command : (HothHostRequest.decode frame).command = command.toNat
  commandVersion : (HothHostRequest.decode frame).commandVersion = version.toNat
  dataLen : (HothHostRequest.decode frame).dataLen = payload.length
  payload : frame.drop headerSize = payload

/-- The header that the library makes and the payload behind it carry the request. -/
theorem carriesRequest_of_populate {command : UInt16} {version : UInt8} {payload : List UInt8}
    {header : HothHostRequest} (hsize : payload.length ≤ libhothMailboxSize - headerSize)
    (hheader : populateEcRequestHeader command.toNat version.toNat payload = .ok header) :
    CarriesRequest (header.encode ++ payload) command version payload := by
  have hbound : payload.length ≤ 1016 := hsize
  rw [populateEcRequestHeader, if_neg (by omega)] at hheader
  have hmade := Except.ok.inj hheader
  have hsum : byteSum (header.encode ++ payload) % 256 = 0 := by
    rw [← hmade]
    exact byteSum_libhothCalculateChecksum (toLittleEndian 1 3)
      (toLittleEndian 2 command.toNat ++ toLittleEndian 1 version.toNat ++ toLittleEndian 1 0 ++
        toLittleEndian 2 payload.length) payload
  have hdecode : HothHostRequest.decode (header.encode ++ payload) = header := by
    refine HothHostRequest.decode_encode ?_ ?_ ?_ ?_ ?_ payload <;> rw [← hmade]
    · exact show 3 < 2 ^ 8 by decide
    · exact command.toNat_lt
    · exact version.toNat_lt
    · exact show 0 < 2 ^ 8 by decide
    · exact lt_of_le_of_lt hbound (by decide)
  refine ⟨?_, hsum, ?_, ?_, ?_, ?_, ?_⟩
  · rw [List.length_append, HothHostRequest.length_encode, headerSize]
  · rw [hdecode, ← hmade]
    rfl
  · rw [hdecode, ← hmade]
  · rw [hdecode, ← hmade]
  · rw [hdecode, ← hmade]
  · exact List.drop_left' (HothHostRequest.length_encode header)

/-- A frame that carries a request is well formed, and it is accepted as that request. -/
theorem CarriesRequest.acceptedAs {frame : List UInt8} {command : UInt16} {version : UInt8}
    {payload : List UInt8} (hcarries : CarriesRequest frame command version payload)
    (hsize : payload.length ≤ libhothMailboxSize - headerSize) :
    AcceptedAs frame ⟨command.toNat, version.toNat, payload⟩ := by
  have hlength := hcarries.length
  have hbound : payload.length ≤ 1016 := hsize
  have hrequest : WellFormedRequest frame := by
    refine ⟨by simp only [headerSize]; omega, ?_, by simp only [libhothMailboxSize]; omega,
      hcarries.sum⟩
    rw [hcarries.dataLen, hlength, headerSize, Nat.add_sub_cancel_left]
  have hframe : RawRequest.ofFrame frame = ⟨command.toNat, version.toNat, payload⟩ := by
    rw [RawRequest.ofFrame, hcarries.command, hcarries.commandVersion, hcarries.payload]
  exact hframe ▸ hrequest.acceptedAs

/-- The frames that a history handed to the transport. -/
def sentFrames (history : TransportHistory) : List (List UInt8) :=
  history.filterMap fun exchange ↦
    match exchange.1 with
    | .send frame => some frame
    | .receive _ _ => none

/-- For every command, version and payload. With at most 1016 bytes of payload, every execution
hands its transport one frame that carries the request, and the proxy accepts that frame and
forwards the same command, version and payload. With more, the execution fails and asks nothing of
the transport. -/
theorem libhothHostcmdExecV2_request {command : UInt16} {version : UInt8} {payload : List UInt8}
    {respBuf : Option (List UInt8)} {respBufSize : ℕ} {outRespSize : Option ℕ}
    {outcome : ExecOutcome} {history : TransportHistory}
    (hrun : Runs recording (libhothHostcmdExecV2 command.toNat version.toNat payload respBuf
      respBufSize outRespSize) [] outcome history) :
    (payload.length ≤ 1016 → ∃ frame, sentFrames history = [frame] ∧
        CarriesRequest frame command version payload ∧
        AcceptedAs frame ⟨command.toNat, version.toNat, payload⟩ ∧
        ∀ rest stdout replies result final,
          Runs session (rawHostCommandRound ()) ⟨frame ++ rest, stdout, replies⟩ result final ↔
            Runs session (forwardRawRequest ⟨command.toNat, version.toNat, payload⟩)
              ⟨rest, stdout, replies⟩ result final) ∧
      (1016 < payload.length → outcome.error ≠ hothSuccess ∧ history = []) := by
  have hsent {header : HothHostRequest} (hsize : payload.length ≤ libhothMailboxSize - headerSize)
      (hheader : populateEcRequestHeader command.toNat version.toNat payload = .ok header)
      (hone : sentFrames history = [header.encode ++ payload]) :
      ∃ frame, sentFrames history = [frame] ∧ CarriesRequest frame command version payload ∧
        AcceptedAs frame ⟨command.toNat, version.toNat, payload⟩ ∧
        ∀ rest stdout replies result final,
          Runs session (rawHostCommandRound ()) ⟨frame ++ rest, stdout, replies⟩ result final ↔
            Runs session (forwardRawRequest ⟨command.toNat, version.toNat, payload⟩)
              ⟨rest, stdout, replies⟩ result final := by
    have hcarries := carriesRequest_of_populate hsize hheader
    exact ⟨_, hone, hcarries, hcarries.acceptedAs hsize, (hcarries.acceptedAs hsize).runs_round⟩
  cases (runs_libhothHostcmdExecV2_iff _ _ _ _ _ _).mp hrun with
  | tooLarge hlarge =>
    exact ⟨fun hsize ↦ absurd hlarge (not_lt.mpr hsize),
      fun _ ↦ ⟨cmdExecStatus_ne_success _, rfl⟩⟩
  | sendFailed hsize header hheader err nonzero =>
    exact ⟨fun _ ↦ hsent hsize hheader rfl, fun hlarge ↦ absurd hsize (not_le.mpr hlarge)⟩
  | receiveFailed hsize header hheader err nonzero =>
    exact ⟨fun _ ↦ hsent hsize hheader rfl, fun hlarge ↦ absurd hsize (not_le.mpr hlarge)⟩
  | received hsize header hheader response fits =>
    exact ⟨fun _ ↦ hsent hsize hheader rfl, fun hlarge ↦ absurd hsize (not_le.mpr hlarge)⟩

/-- An execution with three bytes of payload that is answered: its frame is eleven bytes. -/
theorem libhothHostcmdExecV2_request_three_bytes :
    ∃ (outcome : ExecOutcome) (history : TransportHistory) (frame : List UInt8),
      Runs recording (libhothHostcmdExecV2 9 1 [4, 5, 6] none 0 none) [] outcome history ∧
        outcome.error = hothSuccess ∧ sentFrames history = [frame] ∧ frame.length = 11 ∧
        AcceptedAs frame ⟨9, 1, [4, 5, 6]⟩ := by
  obtain ⟨header, hheader⟩ := @populateEcRequestHeader_of_le 9 1 [4, 5, 6] (by decide)
  have hrun := (runs_libhothHostcmdExecV2_iff 9 1 [4, 5, 6] none 0 none).mpr
    (.received (by decide) header hheader [3, 0xFD, 0, 0, 0, 0, 0, 0] (by decide))
  obtain ⟨frame, hsent, hcarries, haccepted, -⟩ := (libhothHostcmdExecV2_request
    (show Runs recording (libhothHostcmdExecV2 (9 : UInt16).toNat (1 : UInt8).toNat [4, 5, 6] none
      0 none) [] _ _ from hrun)).1 (by decide)
  exact ⟨_, _, frame, hrun, by decide, hsent, hcarries.length, haccepted⟩

end Libhoth.Examples.RawHostCommand
