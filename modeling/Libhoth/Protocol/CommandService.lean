import Libhoth.Protocol.HostCommandProgram

/-!
# A service behind a transport

A root of trust that answers host commands is a `Service`: from a state, a command, its version and
its payload to an `Answer` and a state. `serviceEnvironment` is what a program over host commands
meets when nothing is between it and the service.

Between them are frames. `parseRequest` is what the root of trust reads of a request and
`Answer.frame` how it writes an answer; `serveFrame` is the service on frames. The header that
`populate_ec_request_header` makes is read back (`parseRequest_populate`), and the frame of an
answer is delivered as the reply of the service (`replyOfOutcome_frame`).

A transport `Carries` a service when what is sent reaches it as it is and what it answers is
received. Over such a transport `libhoth_hostcmd_exec_v2` is the service: every program over host
commands has the same results and leaves the service in the same states (`runs_service_iff`).
-/

set_option autoImplicit false
set_option relaxedAutoImplicit false

namespace Libhoth.Protocol.CommandService

open Foundation.ByteString Foundation.InteractingProgram Status HostCommand HostCommandProgram

/-! ### The service -/

/-- The answer to a command: its result, and a payload that a response has room for. -/
structure Answer where
  result : ℕ
  payload : List UInt8
  result_lt : result < 2 ^ 16
  payload_le : payload.length ≤ libhothMailboxSize - headerSize

/-- What a root of trust does with a command, its version and its payload. -/
abbrev Service (σ : Type) := σ → ℕ → ℕ → List UInt8 → Answer × σ

/-- The error for a payload of a size that the call does not admit. -/
def misfitError (sized : Bool) : LibhothError :=
  if sized then cmdExecStatus .responseBufferOverflow else cmdExecStatus .fail

theorem misfitError_ne_success (sized : Bool) : misfitError sized ≠ hothSuccess := by
  cases sized with
  | false => exact cmdExecStatus_ne_success _
  | true => exact cmdExecStatus_ne_success _

/-- The reply to a call that meets an answer. -/
def Answer.reply (answer : Answer) (call : HostCommand) : HostReply call :=
  if answer.result ≠ 0 then
    if 4 ≤ answer.payload.length then
      .failed (cmdExecError .pierotErr (BitVec.ofNat 64 (wordAt answer.payload 0 4)))
        (cmdExecError_ne_success _ _)
    else
      .failed (cmdExecError .ec (BitVec.ofNat 64 answer.result)) (cmdExecError_ne_success _ _)
  else if hfits : PayloadFits answer.payload call.respBufSize call.sized then
    .accepted answer.payload hfits
  else
    .failed (misfitError call.sized) (misfitError_ne_success call.sized)

variable {σ : Type}

/-- What a program over host commands meets at a service. A payload that a request has no room for
does not reach it, and the command and its version are cut to their fields. -/
def serviceEnvironment (service : Service σ) : Environment HostReply σ :=
    fun before call reply after ↦
  if libhothMailboxSize - headerSize < call.payload.length then
    reply = .failed (cmdExecStatus .outUnderflow) (cmdExecStatus_ne_success _) ∧ after = before
  else
    let served := service before (call.command % 256 ^ 2) (call.version % 256 ^ 1) call.payload
    reply = served.1.reply call ∧ after = served.2

/-! ### Frames -/

/-- What is read of a request frame: the command, its version and its payload, when the version of
the frame, its length and its checksum are right. -/
def parseRequest (bytes : List UInt8) : Option (ℕ × ℕ × List UInt8) :=
  let dataLen := wordAt bytes 6 2
  if wordAt bytes 0 1 = hothHostRequestVersion ∧ headerSize + dataLen ≤ bytes.length ∧
      byteSum (bytes.take (headerSize + dataLen)) % 256 = 0 then
    some (wordAt bytes 2 2, wordAt bytes 4 1, slice bytes headerSize dataLen)
  else none

/-- The bytes of a response header. -/
def responseHeader (checksum : UInt8) (answer : Answer) : List UInt8 :=
  toLittleEndian 1 hothHostResponseVersion ++ [checksum] ++
    (toLittleEndian 2 answer.result ++ toLittleEndian 2 answer.payload.length ++
      toLittleEndian 2 0)

/-- The response frame of an answer. -/
def Answer.bytes (answer : Answer) : List UInt8 :=
  responseHeader (libhothCalculateChecksum (responseHeader 0 answer) answer.payload) answer ++
    answer.payload

/-- A response frame that fits the mailbox. -/
structure ResponseFrame where
  bytes : List UInt8
  wellFormed : WellFormedResponse bytes
  short : bytes.length ≤ libhothMailboxSize

theorem length_responseHeader (checksum : UInt8) (answer : Answer) :
    (responseHeader checksum answer).length = headerSize := by
  simp [responseHeader, headerSize]

theorem responsePayload_bytes (answer : Answer) : responsePayload answer.bytes = answer.payload :=
  List.drop_left' (length_responseHeader _ _)

/-- The fields of a response header are read back. -/
theorem decode_bytes (answer : Answer) :
    (HothHostResponse.decode answer.bytes).structVersion = hothHostResponseVersion ∧
      (HothHostResponse.decode answer.bytes).result = answer.result ∧
        (HothHostResponse.decode answer.bytes).dataLen = answer.payload.length := by
  have hresult : answer.result < 256 ^ 2 := answer.result_lt
  have hdataLen : answer.payload.length < 256 ^ 2 :=
    answer.payload_le.trans_lt (by decide)
  let checksum := [libhothCalculateChecksum (responseHeader 0 answer) answer.payload]
  have hversionAt : answer.bytes = toLittleEndian 1 hothHostResponseVersion ++
      (checksum ++ (toLittleEndian 2 answer.result ++ (toLittleEndian 2 answer.payload.length ++
        (toLittleEndian 2 0 ++ answer.payload)))) := by
    simp [Answer.bytes, responseHeader, checksum]
  have hresultAt : answer.bytes = (toLittleEndian 1 hothHostResponseVersion ++ checksum) ++
      (toLittleEndian 2 answer.result ++ (toLittleEndian 2 answer.payload.length ++
        (toLittleEndian 2 0 ++ answer.payload))) := by
    simp [Answer.bytes, responseHeader, checksum]
  have hdataLenAt : answer.bytes = (toLittleEndian 1 hothHostResponseVersion ++ checksum ++
      toLittleEndian 2 answer.result) ++ (toLittleEndian 2 answer.payload.length ++
        (toLittleEndian 2 0 ++ answer.payload)) := by
    simp [Answer.bytes, responseHeader, checksum]
  refine ⟨?_, ?_, ?_⟩
  · dsimp only [HothHostResponse.decode]
    rw [hversionAt, wordAt_toLittleEndian (by decide)]
  · dsimp only [HothHostResponse.decode]
    rw [hresultAt, wordAt_between (by simp [checksum]) hresult]
  · dsimp only [HothHostResponse.decode]
    rw [hdataLenAt, wordAt_between (by simp [checksum]) hdataLen]

theorem length_bytes (answer : Answer) :
    answer.bytes.length = headerSize + answer.payload.length := by
  rw [Answer.bytes, List.length_append, length_responseHeader]

/-- The frame of an answer is well-formed. -/
theorem wellFormed_bytes (answer : Answer) : WellFormedResponse answer.bytes where
  size := by rw [length_bytes]; exact Nat.le_add_right _ _
  version := (decode_bytes answer).1
  dataLen := by rw [(decode_bytes answer).2.2, length_bytes, Nat.add_sub_cancel_left]
  checksum := byteSum_libhothCalculateChecksum _ _ _

theorem length_bytes_le (answer : Answer) : answer.bytes.length ≤ libhothMailboxSize := by
  have hpayload := answer.payload_le
  rw [length_bytes]
  simp only [libhothMailboxSize, headerSize] at hpayload ⊢
  omega

/-- The response frame of an answer. -/
def Answer.frame (answer : Answer) : ResponseFrame :=
  ⟨answer.bytes, wellFormed_bytes answer, length_bytes_le answer⟩

/-- The frame of an answer is delivered as its reply. -/
theorem replyOfOutcome_frame (answer : Answer) (call : HostCommand) :
    replyOfOutcome call (deliverResponse answer.bytes (some (List.replicate call.respBufSize 0))
        call.respBufSize (if call.sized then some 0 else none)) = answer.reply call := by
  have hwellFormed := wellFormed_bytes answer
  have hdecoded := (decode_bytes answer).2.1
  have hpayload := responsePayload_bytes answer
  have hsized : (if call.sized then some (0 : ℕ) else none).isSome = call.sized := by
    cases call.sized <;> rfl
  by_cases hresult : answer.result = 0
  · rw [Answer.reply, if_neg (not_not_intro hresult)]
    by_cases hfits : PayloadFits answer.payload call.respBufSize call.sized
    · have hdeliverable : Deliverable answer.bytes call.respBufSize call.sized :=
        ⟨hwellFormed, hdecoded.trans hresult, hpayload.symm ▸ hfits⟩
      rw [replyOfOutcome_deliverable call hdeliverable, dif_pos hfits]
      simp only [hpayload]
    · have hmisfit : ¬PayloadFits (responsePayload answer.bytes) call.respBufSize
          (if call.sized then some (0 : ℕ) else none).isSome := by
        rwa [hpayload, hsized]
      rw [deliverResponse_of_misfit _ _ _ hwellFormed (hdecoded.trans hresult) hmisfit, hsized,
        dif_neg hfits]
      exact dif_neg (misfitError_ne_success call.sized)
  · rw [Answer.reply, if_pos hresult]
    have hfailed : (HothHostResponse.decode answer.bytes).result ≠ 0 := hdecoded.trans_ne hresult
    by_cases hextended : 4 ≤ answer.payload.length
    · rw [deliverResponse_of_extended_error _ _ _ hwellFormed hfailed (hpayload.symm ▸ hextended),
        hpayload, if_pos hextended]
      exact dif_neg (cmdExecError_ne_success _ _)
    · rw [deliverResponse_of_plain_error _ _ _ hwellFormed hfailed
        (hpayload.symm ▸ Nat.lt_of_not_le hextended), hdecoded, if_neg hextended]
      exact dif_neg (cmdExecError_ne_success _ _)

/-- Bytes behind a request do not matter. -/
theorem parseRequest_append {bytes : List UInt8} {parsed : ℕ × ℕ × List UInt8}
    (hparsed : parseRequest bytes = some parsed) (rest : List UInt8) :
    parseRequest (bytes ++ rest) = some parsed := by
  unfold parseRequest at hparsed
  dsimp only at hparsed
  split_ifs at hparsed with hvalid
  obtain ⟨hversion, hlength, hsum⟩ := hvalid
  have hheader : headerSize ≤ bytes.length := (Nat.le_add_right _ _).trans hlength
  have hword : ∀ offset width, offset + width ≤ 8 →
      wordAt (bytes ++ rest) offset width = wordAt bytes offset width :=
    fun offset width hinside ↦ wordAt_append_left (hinside.trans hheader) rest
  unfold parseRequest
  dsimp only
  rw [hword 6 2 (by decide), hword 0 1 (by decide), hword 2 2 (by decide), hword 4 1 (by decide),
    slice_append_left hlength, List.take_append_of_le_length hlength, List.length_append]
  rw [if_pos ⟨hversion, hlength.trans (Nat.le_add_right _ _), hsum⟩, hparsed]

theorem length_encode (header : HothHostRequest) : header.encode.length = headerSize := by
  simp [HothHostRequest.encode, headerSize]

/-- The header that `populate_ec_request_header` makes, and the payload, are read back, with the
command and its version cut to their fields. -/
theorem parseRequest_populate {command version : ℕ} {payload : List UInt8}
    {header : HothHostRequest}
    (hheader : populateEcRequestHeader command version payload = .ok header) :
    parseRequest (header.encode ++ payload) =
      some (command % 256 ^ 2, version % 256 ^ 1, payload) := by
  rw [populateEcRequestHeader] at hheader
  split_ifs at hheader with hlarge
  obtain rfl := Except.ok.inj hheader
  have hdataLen : payload.length % 256 ^ 2 = payload.length := Nat.mod_eq_of_lt (by omega)
  let first := toLittleEndian 1 hothHostRequestVersion
  let last := toLittleEndian 2 command ++ (toLittleEndian 1 version ++ (toLittleEndian 1 0 ++
    toLittleEndian 2 payload.length))
  let checksum := libhothCalculateChecksum (first ++ [0] ++ last) payload
  have hencode : ∀ byte, HothHostRequest.encode
      ⟨hothHostRequestVersion, byte, command, version, 0, payload.length⟩ =
        first ++ [byte] ++ last := by
    intro byte
    simp [HothHostRequest.encode, first, last]
  dsimp only
  rw [hencode, hencode]
  have hlength : (first ++ [checksum] ++ last).length = headerSize := by
    simp [first, last, headerSize]
  have hsum : byteSum (first ++ [checksum] ++ last ++ payload) % 256 = 0 :=
    byteSum_libhothCalculateChecksum first last payload
  have hversionAt : wordAt (first ++ [checksum] ++ last ++ payload) 0 1 =
      hothHostRequestVersion := by
    rw [List.append_assoc, List.append_assoc, wordAt_toLittleEndian (by decide)]
  have hcommandSplit : first ++ [checksum] ++ last ++ payload = (first ++ [checksum]) ++
      (toLittleEndian 2 command ++ (toLittleEndian 1 version ++ (toLittleEndian 1 0 ++
        (toLittleEndian 2 payload.length ++ payload)))) := by
    simp [last]
  have hversionSplit : first ++ [checksum] ++ last ++ payload =
      (first ++ [checksum] ++ toLittleEndian 2 command) ++ (toLittleEndian 1 version ++
        (toLittleEndian 1 0 ++ (toLittleEndian 2 payload.length ++ payload))) := by
    simp [last]
  have hdataLenSplit : first ++ [checksum] ++ last ++ payload =
      (first ++ [checksum] ++ toLittleEndian 2 command ++ toLittleEndian 1 version ++
        toLittleEndian 1 0) ++ (toLittleEndian 2 payload.length ++ payload) := by
    simp [last]
  have hcommandAt : wordAt (first ++ [checksum] ++ last ++ payload) 2 2 = command % 256 ^ 2 := by
    rw [hcommandSplit, wordAt_between_mod (by simp [first])]
  have hcommandVersionAt : wordAt (first ++ [checksum] ++ last ++ payload) 4 1 =
      version % 256 ^ 1 := by
    rw [hversionSplit, wordAt_between_mod (by simp [first])]
  have hdataLenAt : wordAt (first ++ [checksum] ++ last ++ payload) 6 2 = payload.length := by
    rw [hdataLenSplit, wordAt_between_mod (by simp [first]), hdataLen]
  have hall : (first ++ [checksum] ++ last ++ payload).length = headerSize + payload.length := by
    rw [List.length_append, hlength]
  have hpayload : slice (first ++ [checksum] ++ last ++ payload) headerSize payload.length =
      payload := by
    rw [slice, List.drop_left' hlength, List.take_length]
  unfold parseRequest
  dsimp only
  rw [hversionAt, hdataLenAt, hcommandAt, hcommandVersionAt, hpayload, ← hall, List.take_length,
    if_pos ⟨rfl, le_rfl, hsum⟩]

/-! ### The service on frames -/

/-- The answer to a request that is not read, with the result `HOTH_RES_BUS_ERROR`. -/
def badRequest : Answer :=
  ⟨HothStatus.busError.value, [], by decide, by decide⟩

/-- The service on the frame of a request. -/
def serveFrame (service : Service σ) (before : σ) (request : List UInt8) : ResponseFrame × σ :=
  match parseRequest request with
  | none => (badRequest.frame, before)
  | some (command, version, payload) =>
    let served := service before command version payload
    (served.1.frame, served.2)

/-- The service on the frame of a command is the service on the command. -/
theorem serveFrame_populate (service : Service σ) (before : σ) {command version : ℕ}
    {payload : List UInt8} {header : HothHostRequest}
    (hheader : populateEcRequestHeader command version payload = .ok header) :
    serveFrame service before (header.encode ++ payload) =
      ((service before (command % 256 ^ 2) (version % 256 ^ 1) payload).1.frame,
        (service before (command % 256 ^ 2) (version % 256 ^ 1) payload).2) := by
  rw [serveFrame, parseRequest_populate hheader]

/-- The answer to the frame of a command is a step of its service. -/
theorem serveFrame_step {call : HostCommand}
    (hsize : call.payload.length ≤ libhothMailboxSize - headerSize) {header : HothHostRequest}
    (hheader : populateEcRequestHeader call.command call.version call.payload = .ok header)
    (service : Service σ) (before : σ) :
    ∃ answer : Answer,
      (serveFrame service before (header.encode ++ call.payload)).1 = answer.frame ∧
        serviceEnvironment service before call (answer.reply call)
          (serveFrame service before (header.encode ++ call.payload)).2 := by
  rw [serveFrame_populate _ _ hheader]
  refine ⟨_, rfl, ?_⟩
  rw [serviceEnvironment, if_neg hsize.not_gt]
  exact ⟨rfl, rfl⟩

/-- A transport carries a service when a send brings its request to the service, and a receive
behind it returns the frame that the service has answered. It may do so in some of its states only:
a send leads from a sound one to one that is ready, and a receive back. -/
structure Carries {β : Type} (transport : Environment TransportReply β) (service : Service σ)
    (state : β → σ) (frame : β → ResponseFrame) (sound ready : β → Prop) : Prop where
  serial : ∀ before call, ∃ reply after, transport before call reply after
  send : ∀ before request err after, sound before → (parseRequest request).isSome →
    request.length ≤ libhothMailboxSize → transport before (.send request) err after →
      err = hothSuccess ∧ (frame after, state after) = serveFrame service (state before) request ∧
        ready after
  receive : ∀ before timeoutMs reply after, ready before →
    transport before (.receive libhothMailboxSize timeoutMs) reply after →
      reply = .received (frame before).bytes (frame before).short ∧ state after = state before ∧
        sound after

section Carrying

variable {β : Type} {transport : Environment TransportReply β} {service : Service σ}
  {state : β → σ} {frame : β → ResponseFrame} {sound ready : β → Prop}

/-- A call over a transport that carries a service is a call of the service. -/
theorem execOnTransport_ensures (hcarries : Carries transport service state frame sound ready)
    (call : HostCommand) {before : β} (hsound : sound before) :
    Ensures transport (execOnTransport call) before fun reply after ↦
      serviceEnvironment service (state before) call reply (state after) ∧ sound after := by
  by_cases hlarge : libhothMailboxSize - headerSize < call.payload.length
  · rw [execOnTransport_of_large hlarge, ensures_done, serviceEnvironment, if_pos hlarge]
    exact ⟨⟨rfl, rfl⟩, hsound⟩
  · have hsize := Nat.le_of_not_lt hlarge
    obtain ⟨header, hheader⟩ := populateEcRequestHeader_of_le call.command call.version hsize
    obtain ⟨answer, hserved, hstep⟩ := serveFrame_step hsize hheader service (state before)
    have hparsed := parseRequest_populate hheader
    have hlength : (header.encode ++ call.payload).length ≤ libhothMailboxSize := by
      rw [List.length_append, length_encode]
      simp only [libhothMailboxSize, headerSize] at hsize ⊢
      omega
    rw [execOnTransport_of_header hsize hheader, ensures_ask]
    intro err middle hsend
    obtain ⟨rfl, hmiddle, hready⟩ :=
      hcarries.send before _ err middle hsound (by rw [hparsed]; rfl) hlength hsend
    have hframe : frame middle = answer.frame := (congrArg Prod.fst hmiddle).trans hserved
    have hstate := congrArg Prod.snd hmiddle
    dsimp only at hstate
    rw [behindSend, dif_neg (not_not_intro rfl), ensures_ask]
    intro reply after hreceive
    obtain ⟨rfl, hafter, hlater⟩ := hcarries.receive middle _ reply after hready hreceive
    have hreply : receivedHostReply call (.received (frame middle).bytes (frame middle).short) =
        answer.reply call := by
      rw [hframe]
      exact replyOfOutcome_frame answer call
    rw [ensures_done, hreply, hafter, hstate]
    exact ⟨hstep, hlater⟩

/-- A program over a transport that carries a service leaves it sound. -/
theorem interpret_execOnTransport_ensures
    (hcarries : Carries transport service state frame sound ready) {α : Type}
    (program : HostProgram α) {before : β} (hsound : sound before) :
    Ensures transport (interpret execOnTransport program) before fun _ after ↦ sound after := by
  induction program generalizing before with
  | done value => exact (ensures_done _ _ _).mpr hsound
  | ask call next ih =>
    refine (ensures_bind _ _ _ _).mpr ?_
    exact (execOnTransport_ensures hcarries call hsound).mono fun reply _ hexec ↦ ih reply hexec.2

/-- The service determines its reply and its next state. -/
theorem serviceEnvironment_unique {before after other : σ} {call : HostCommand}
    {reply another : HostReply call} (hfirst : serviceEnvironment service before call reply after)
    (hsecond : serviceEnvironment service before call another other) :
    reply = another ∧ after = other := by
  rw [serviceEnvironment] at hfirst hsecond
  split_ifs at hfirst hsecond
  · exact ⟨hfirst.1.trans hsecond.1.symm, hfirst.2.trans hsecond.2.symm⟩
  · exact ⟨hfirst.1.trans hsecond.1.symm, hfirst.2.trans hsecond.2.symm⟩

/-- Over a transport that carries a service, a program over host commands does what it does at the
service itself. -/
theorem runs_service_iff (hcarries : Carries transport service state frame sound ready) {α : Type}
    (program : HostProgram α) {before : β} (hsound : sound before) (result : α) (final : σ) :
    (∃ after, Runs transport (interpret execOnTransport program) before result after ∧
        state after = final) ↔
      Runs (serviceEnvironment service) program (state before) result final := by
  induction program generalizing before with
  | done value =>
    constructor
    · rintro ⟨_, ⟨rfl, rfl⟩, rfl⟩
      exact ⟨rfl, rfl⟩
    · rintro ⟨rfl, rfl⟩
      exact ⟨before, ⟨rfl, rfl⟩, rfl⟩
  | ask call next ih =>
    constructor
    · rintro ⟨after, hrun, hfinal⟩
      obtain ⟨reply, middle, hexec, hrest⟩ := (runs_bind _ _ _ _ _).mp hrun
      obtain ⟨hstep, hkept⟩ := execOnTransport_ensures hcarries call hsound reply middle hexec
      exact ⟨reply, state middle, hstep, (ih reply hkept).mp ⟨after, hrest, hfinal⟩⟩
    · rintro ⟨reply, middle, hstep, hrest⟩
      obtain ⟨other, now, hexec⟩ :=
        Runs.exists_of_serial hcarries.serial (execOnTransport call) before
      obtain ⟨hother, hkept⟩ := execOnTransport_ensures hcarries call hsound other now hexec
      obtain ⟨rfl, rfl⟩ := serviceEnvironment_unique hstep hother
      obtain ⟨after, hafter, hfinal⟩ := (ih reply hkept).mpr hrest
      exact ⟨after, (runs_bind _ _ _ _ _).mpr ⟨reply, now, hexec, hafter⟩, hfinal⟩

end Carrying

/-! ### A service that counts -/

/-- A service that counts its commands. -/
def countingService : Service ℕ := fun count _ _ _ ↦ (badRequest, count + 1)

/-- A command with a payload of four bytes. -/
def fourBytes : HostCommand := ⟨1, 0, [1, 2, 3, 4], 4, true⟩

theorem countingService_fourBytes :
    serviceEnvironment countingService 0 fourBytes (badRequest.reply fourBytes) 1 := by
  rw [serviceEnvironment, if_neg (by decide)]
  exact ⟨rfl, rfl⟩

end Libhoth.Protocol.CommandService
