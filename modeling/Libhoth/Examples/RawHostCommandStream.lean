import Libhoth.Examples.RawHostCommand

/-!
# A stream of raw host commands

What the proxy of `htool_raw_host_command.c` makes of a stream of requests and the replies of the
device. It learns of a reply through the legacy `int` of `libhoth_hostcmd_exec`, and
`proxied` is what it does with one: end with that `int`, or write a response frame.
`proxySession` is what a whole stream gives, and `commandRawHostCommand_ensures` says that every run
gives it.

A stream should be answered frame by frame (`StreamAnswered`). An error reply whose payload is at
least a word long comes as that word instead of its result code, so `streamAnswered_iff` says that a
stream is answered exactly when each of these words stands for the result code of its reply
(`ResultKept`).
-/

set_option autoImplicit false
set_option relaxedAutoImplicit false

namespace Libhoth.Examples.RawHostCommandStream

open Foundation.ByteString Foundation.InteractingProgram
open Protocol.Status Protocol.HostCommand RawHostCommand

/-! ### One reply -/

/-- The result code of a reply. -/
def DeviceReply.result (reply : DeviceReply) : ℕ :=
  (HothHostResponse.decode reply.frame).result

/-- The payload of a reply. -/
def DeviceReply.payload (reply : DeviceReply) : List UInt8 :=
  responsePayload reply.frame

/-- The first word of the payload of a reply. -/
def DeviceReply.word (reply : DeviceReply) : ℕ :=
  wordAt (DeviceReply.payload reply) 0 4

/-- What `libhoth_hostcmd_exec` returns to the proxy for a reply. -/
def legacyInt (reply : DeviceReply) : BitVec 32 :=
  if DeviceReply.result reply = 0 then 0
  else if (DeviceReply.payload reply).length < 4 then
    BitVec.ofNat 32 (htoolErrorHostCommandStart + DeviceReply.result reply)
  else BitVec.ofNat 32 (DeviceReply.word reply)

/-- The payload that `libhoth_hostcmd_exec` gives the proxy for a reply. -/
def deliveredPayload (reply : DeviceReply) : List UInt8 :=
  if DeviceReply.result reply = 0 then DeviceReply.payload reply else []

/-- What the proxy makes of a reply: the `int` with which it ends, or the frame that it writes. -/
def proxied (reply : DeviceReply) : ℤ ⊕ List UInt8 :=
  let rv := legacyInt reply
  if rv ≠ 0 ∧ rv.toInt < htoolErrorHostCommandStart then .inl rv.toInt
  else .inr (HothHostResponse.encode (rawResponse rv (deliveredPayload reply)) ++
    deliveredPayload reply)

theorem DeviceReply.result_lt (reply : DeviceReply) : DeviceReply.result reply < 2 ^ 16 :=
  wordAt_lt reply.frame 2 2

theorem DeviceReply.word_lt (reply : DeviceReply) : DeviceReply.word reply < 2 ^ 32 :=
  wordAt_lt _ 0 4

theorem DeviceReply.length_payload_le (reply : DeviceReply) :
    (DeviceReply.payload reply).length ≤ 1016 := by
  have hfits := reply.fits
  rw [DeviceReply.payload, responsePayload, List.length_drop, headerSize]
  rw [libhothMailboxSize] at hfits
  omega

theorem length_deliveredPayload_le (reply : DeviceReply) :
    (deliveredPayload reply).length ≤ 1016 := by
  unfold deliveredPayload
  split_ifs
  · exact DeviceReply.length_payload_le reply
  · exact Nat.zero_le _

/-- The legacy `int` of a result code. -/
theorem legacyCode_ec (code : ℕ) :
    legacyCode (cmdExecError .ec (BitVec.ofNat 64 code)) =
      BitVec.ofNat 32 (htoolErrorHostCommandStart + code) := by
  rw [legacyCode, if_neg (cmdExecError_ne_success _ _)]
  dsimp only
  rw [if_pos (libhothErrGetSpace_cmdExecError _ _), libhothErrGetCode_cmdExecError,
    BitVec.setWidth_ofNat_of_le (by decide), BitVec.ofNat_add]

/-- The legacy `int` of a firmware error. -/
theorem legacyCode_pierotErr (code : ℕ) :
    legacyCode (cmdExecError .pierotErr (BitVec.ofNat 64 code)) = BitVec.ofNat 32 code := by
  rw [legacyCode, if_neg (cmdExecError_ne_success _ _)]
  dsimp only
  rw [libhothErrGetSpace_cmdExecError, if_neg (by decide), if_pos rfl,
    libhothErrGetCode_cmdExecError, BitVec.setWidth_ofNat_of_le (by decide)]

/-- What an execution that meets a reply leaves to the proxy. -/
theorem deliverResponse_reply (reply : DeviceReply) :
    legacyCode (deliverResponse reply.frame (some (List.replicate respBufLen 0)) respBufLen
        (some 0)).error = legacyInt reply ∧
      ((deliverResponse reply.frame (some (List.replicate respBufLen 0)) respBufLen
        (some 0)).respBuf.getD []).take ((deliverResponse reply.frame
          (some (List.replicate respBufLen 0)) respBufLen (some 0)).outRespSize.getD 0) =
        deliveredPayload reply := by
  have hpayload := DeviceReply.length_payload_le reply
  unfold legacyInt deliveredPayload
  by_cases hresult : DeviceReply.result reply = 0
  · have hfits : PayloadFits (responsePayload reply.frame) respBufLen (some 0 : Option ℕ).isSome :=
      hpayload.trans (by decide)
    rw [deliverResponse_of_fits _ _ _ reply.wellFormed hresult hfits, if_pos hresult,
      if_pos hresult]
    exact ⟨if_pos rfl, List.take_left⟩
  · rw [if_neg hresult, if_neg hresult]
    by_cases hplain : (DeviceReply.payload reply).length < 4
    · rw [deliverResponse_of_plain_error _ _ _ reply.wellFormed hresult hplain, if_pos hplain]
      exact ⟨legacyCode_ec _, List.take_zero⟩
    · rw [deliverResponse_of_extended_error _ _ _ reply.wellFormed hresult (not_lt.mp hplain),
        if_neg hplain]
      exact ⟨legacyCode_pierotErr _, List.take_zero⟩

/-- A request that the device answers takes its reply off the session. -/
theorem onTransport_ensures {command version : ℕ} {payload : List UInt8}
    (hsize : payload.length ≤ libhothMailboxSize - headerSize) (stdin stdout : List UInt8)
    (reply : DeviceReply) (replies : List DeviceReply) :
    Ensures session (onTransport (libhothHostcmdExec command version payload
        (some (List.replicate respBufLen 0)) respBufLen (some 0)))
      ⟨stdin, stdout, reply :: replies⟩ fun outcome final ↦
        outcome.1 = legacyInt reply ∧
          (outcome.2.1.getD []).take (outcome.2.2.getD 0) = deliveredPayload reply ∧
          final = ⟨stdin, stdout, replies⟩ := by
  intro outcome final hrun
  rw [onTransport, runs_interpret_iff, libhothHostcmdExec, runs_bind] at hrun
  obtain ⟨exec, middle, hexec, rfl, rfl⟩ := hrun
  obtain ⟨header, hheader⟩ := populateEcRequestHeader_of_le command version hsize
  simp only [libhothHostcmdExecV2, if_neg (not_lt.mpr hsize), hheader, runs_bind,
    libhothSendRequest, libhothReceiveResponse, runs_request, induced] at hexec
  obtain ⟨err, sent, ⟨rfl, rfl⟩, hexec⟩ := hexec
  rw [if_neg (not_not.mpr rfl)] at hexec
  simp only [runs_bind, runs_request, induced] at hexec
  obtain ⟨received, after, hreceive, hexec⟩ := hexec
  cases received with
  | failed err nonzero =>
    obtain ⟨-, hnone⟩ := hreceive
    exact absurd (hnone reply rfl) (not_lt.mpr reply.fits)
  | received response fits =>
    obtain ⟨other, hreplies, rfl, hstdin, hstdout⟩ := hreceive
    obtain ⟨rfl, rfl⟩ := hexec
    obtain ⟨rfl, hmore⟩ := List.cons.inj hreplies
    obtain ⟨hcode, hpayload⟩ := deliverResponse_reply reply
    refine ⟨hcode, hpayload, ?_⟩
    obtain ⟨input, output, more⟩ := final
    dsimp only at hstdin hstdout hmore
    rw [hstdin, hstdout, hmore]

/-- Forwarding a request: the proxy ends or writes a frame, as the reply says. -/
theorem forwardRawRequest_ensures {req : RawRequest}
    (hsize : req.payload.length ≤ libhothMailboxSize - headerSize) (stdin stdout : List UInt8)
    (reply : DeviceReply) (replies : List DeviceReply) :
    Ensures session (forwardRawRequest req) ⟨stdin, stdout, reply :: replies⟩ fun outcome final ↦
      match proxied reply with
      | .inl ret => outcome = .inr ret ∧ final = ⟨stdin, stdout, replies⟩
      | .inr frame => outcome = .inl () ∧ final = ⟨stdin, stdout ++ frame, replies⟩ := by
  rw [forwardRawRequest, ensures_bind]
  refine (onTransport_ensures hsize stdin stdout reply replies).mono ?_
  rintro ⟨rv, respPayload, actualRespSize⟩ _ ⟨hrv, hpayload, rfl⟩
  dsimp only at hrv hpayload ⊢
  rw [hpayload, hrv]
  unfold proxied
  dsimp only
  split_ifs with hends
  · exact (ensures_done _ _ _).mpr ⟨rfl, rfl⟩
  · rw [ensures_bind]
    refine (fdWriteExact_ensures _ _ _ _).mono ?_
    rintro _ _ ⟨rfl, rfl⟩
    rw [if_neg (not_not.mpr rfl), ensures_bind]
    refine (fdWriteExact_ensures _ _ _ _).mono ?_
    rintro _ _ ⟨rfl, rfl⟩
    rw [if_neg (not_not.mpr rfl), pure_eq_done, ensures_done, List.append_assoc]
    exact ⟨rfl, rfl⟩

/-! ### A stream -/

/-- A request on the standard input and the reply of the device to it. -/
structure RawExchange where
  request : List UInt8
  wellFormed : WellFormedRequest request
  reply : DeviceReply

/-- The session before a stream. -/
def Session.start (exchanges : List RawExchange) : Session where
  stdin := (exchanges.map RawExchange.request).flatten
  stdout := []
  replies := exchanges.map RawExchange.reply

/-- What the proxy returns for a stream, and what it writes. -/
def proxySession : List RawExchange → ℤ × List UInt8
  | [] => (0, [])
  | exchange :: rest =>
    match proxied exchange.reply with
    | .inl ret => (ret, [])
    | .inr frame => ((proxySession rest).1, frame ++ (proxySession rest).2)

/-- Nothing is read at the end of the standard input. -/
theorem fdReadExact_ensures_nil {count : ℕ} (hcount : count ≠ 0) (stdout : List UInt8)
    (replies : List DeviceReply) :
    Ensures session (fdReadExact count) ⟨[], stdout, replies⟩ fun outcome final ↦
      outcome = .endOfFile ∧ final = ⟨[], stdout, replies⟩ := by
  refine whileDecreasing_ensures
    (fun loop (state : Session) ↦ loop.1 ≠ 0 ∧ state = ⟨[], stdout, replies⟩) ?_ _ _ ⟨hcount, rfl⟩
  rintro ⟨missing, buf⟩ state ⟨hmissing, rfl⟩
  unfold fdReadRound
  rw [dif_neg hmissing, ensures_bind, ensures_request]
  intro reply final hstep
  match reply, hstep with
  | .bytes part _, ⟨_, hstdin, hstdout, hreplies⟩ =>
    obtain ⟨rfl, hrest⟩ := List.append_eq_nil_iff.mp hstdin.symm
    obtain ⟨input, output, more⟩ := final
    dsimp only at hrest hstdout hreplies ⊢
    rw [dif_pos List.length_nil, pure_eq_done, ensures_done, hrest, hstdout, hreplies]
    exact ⟨rfl, rfl⟩

/-- A round at the end of the standard input ends the proxy. -/
theorem rawHostCommandRound_ensures_nil (stdout : List UInt8) (replies : List DeviceReply) :
    Ensures session (rawHostCommandRound ()) ⟨[], stdout, replies⟩ fun outcome final ↦
      outcome = .inr 0 ∧ final = ⟨[], stdout, replies⟩ := by
  rw [rawHostCommandRound, ensures_bind, readRawRequest, ensures_bind]
  refine (fdReadExact_ensures_nil (by decide) stdout replies).mono ?_
  rintro _ _ ⟨rfl, rfl⟩
  simp only [pure_eq_done, ensures_done, and_self]

/-- A round on a request and its reply does what the reply says. -/
theorem rawHostCommandRound_ensures (exchange : RawExchange) (stdin stdout : List UInt8)
    (replies : List DeviceReply) :
    Ensures session (rawHostCommandRound ())
      ⟨exchange.request ++ stdin, stdout, exchange.reply :: replies⟩ fun outcome final ↦
        match proxied exchange.reply with
        | .inl ret => outcome = .inr ret ∧ final = ⟨stdin, stdout, replies⟩
        | .inr frame => outcome = .inl () ∧ final = ⟨stdin, stdout ++ frame, replies⟩ := by
  intro outcome final hrun
  have hsize : (RawRequest.ofFrame exchange.request).payload.length ≤
      libhothMailboxSize - headerSize := by
    have hfits := exchange.wellFormed.fits
    rw [RawRequest.ofFrame, List.length_drop]
    omega
  exact forwardRawRequest_ensures hsize _ _ _ _ _ _
    ((exchange.wellFormed.acceptedAs.runs_round _ _ _ _ _).mp hrun)

/-- The loop on a stream gives what `proxySession` says, however the reads and writes are cut. -/
theorem whileRounds_rawHostCommandRound_ensures (exchanges : List RawExchange) (rounds : ℕ)
    (hrounds : exchanges.length < rounds) (stdout : List UInt8) :
    Ensures session (whileRounds rawHostCommandRound rounds ())
      { Session.start exchanges with stdout := stdout } fun outcome final ↦
        outcome = some (proxySession exchanges).1 ∧
          final.stdout = stdout ++ (proxySession exchanges).2 := by
  induction exchanges generalizing rounds stdout with
  | nil =>
    obtain ⟨rounds, rfl⟩ := Nat.exists_eq_succ_of_ne_zero (Nat.ne_zero_of_lt hrounds)
    rw [whileRounds, ensures_bind]
    refine (rawHostCommandRound_ensures_nil stdout []).mono ?_
    rintro _ _ ⟨rfl, rfl⟩
    exact (ensures_done _ _ _).mpr ⟨rfl, (List.append_nil _).symm⟩
  | cons exchange rest ih =>
    obtain ⟨rounds, rfl⟩ := Nat.exists_eq_succ_of_ne_zero (Nat.ne_zero_of_lt hrounds)
    rw [whileRounds, ensures_bind]
    refine (rawHostCommandRound_ensures exchange _ stdout _).mono fun outcome final hround ↦ ?_
    rw [proxySession]
    cases hproxied : proxied exchange.reply with
    | inl ret =>
      rw [hproxied] at hround
      obtain ⟨rfl, rfl⟩ := hround
      exact (ensures_done _ _ _).mpr ⟨rfl, (List.append_nil _).symm⟩
    | inr frame =>
      rw [hproxied] at hround
      obtain ⟨rfl, rfl⟩ := hround
      dsimp only
      rw [← List.append_assoc]
      exact ih rounds (by rw [List.length_cons] at hrounds; omega) (stdout ++ frame)

/-- Every run of the proxy on a stream returns and writes what `proxySession` says. -/
theorem commandRawHostCommand_ensures (exchanges : List RawExchange) {rounds : ℕ}
    (hrounds : exchanges.length < rounds) :
    Ensures session (commandRawHostCommand rounds) (Session.start exchanges) fun outcome final ↦
      outcome = some (proxySession exchanges).1 ∧ final.stdout = (proxySession exchanges).2 := by
  rw [commandRawHostCommand, ensures_bind, ensures_request]
  rintro _ _ ⟨rfl, rfl⟩
  rw [if_pos rfl]
  exact whileRounds_rawHostCommandRound_ensures exchanges rounds hrounds []

/-! ### Frames that answer replies -/

/-- The header of a response is read back in front of a payload. -/
theorem HothHostResponse.decode_encode {header : HothHostResponse}
    (hversion : header.structVersion < 2 ^ 8) (hchecksum : header.checksum < 2 ^ 8)
    (hresult : header.result < 2 ^ 16) (hdataLen : header.dataLen < 2 ^ 16)
    (hreserved : header.reserved < 2 ^ 16) (rest : List UInt8) :
    HothHostResponse.decode (HothHostResponse.encode header ++ rest) = header := by
  obtain ⟨structVersion, checksum, result, dataLen, reserved⟩ := header
  dsimp only at hversion hchecksum hresult hdataLen hreserved
  simp only [HothHostResponse.decode, HothHostResponse.encode, toLittleEndian, wordAt, slice,
    List.cons_append, List.nil_append, List.drop_zero, List.drop_succ_cons, List.take_succ_cons,
    List.take_zero, littleEndian, UInt8.toNat_ofNat', HothHostResponse.mk.injEq]
  refine ⟨by omega, by omega, by omega, by omega, by omega⟩

/-- The bytes of a response header around its checksum. -/
theorem HothHostResponse.encode_checksum (header : HothHostResponse) (checksum : UInt8) :
    HothHostResponse.encode { header with checksum := checksum.toNat } =
      toLittleEndian 1 header.structVersion ++ [checksum] ++ (toLittleEndian 2 header.result ++
        toLittleEndian 2 header.dataLen ++ toLittleEndian 2 header.reserved) := by
  have hchecksum : toLittleEndian 1 checksum.toNat = [checksum] := by
    rw [toLittleEndian, toLittleEndian, UInt8.ofNat_toNat]
  simp only [HothHostResponse.encode, hchecksum, List.append_assoc]

theorem HothHostResponse.length_encode (header : HothHostResponse) :
    (HothHostResponse.encode header).length = headerSize :=
  rfl

/-- The result code that a response of the proxy carries. -/
theorem rawResponse_result_lt (rv : BitVec 32) (payload : List UInt8) :
    (rawResponse rv payload).result < 2 ^ 16 := by
  unfold rawResponse
  dsimp only
  split_ifs
  · exact Nat.mod_lt _ (by decide)
  · decide

theorem decode_rawResponse (rv : BitVec 32) {payload : List UInt8} (hsize : payload.length ≤ 1016) :
    HothHostResponse.decode (HothHostResponse.encode (rawResponse rv payload) ++ payload) =
      rawResponse rv payload :=
  HothHostResponse.decode_encode (show 3 < 2 ^ 8 by decide) (UInt8.toNat_lt _)
    (rawResponse_result_lt rv payload) (lt_of_le_of_lt hsize (by decide))
    (show 0 < 2 ^ 16 by decide) payload

theorem responsePayload_rawResponse (rv : BitVec 32) (payload : List UInt8) :
    responsePayload (HothHostResponse.encode (rawResponse rv payload) ++ payload) = payload :=
  List.drop_left' (HothHostResponse.length_encode _)

/-- What the proxy writes is a well-formed response. -/
theorem wellFormedResponse_rawResponse (rv : BitVec 32) {payload : List UInt8}
    (hsize : payload.length ≤ 1016) :
    WellFormedResponse (HothHostResponse.encode (rawResponse rv payload) ++ payload) := by
  have hlength : (HothHostResponse.encode (rawResponse rv payload) ++ payload).length =
      headerSize + payload.length := by
    rw [List.length_append, HothHostResponse.length_encode]
  refine ⟨by omega, ?_, ?_, ?_⟩
  · rw [decode_rawResponse rv hsize]
    rfl
  · rw [decode_rawResponse rv hsize, hlength, Nat.add_sub_cancel_left]
    rfl
  · rw [rawResponse, HothHostResponse.encode_checksum]
    exact byteSum_libhothCalculateChecksum _ _ payload

/-- A frame that answers a reply: a response with the result code of the reply and, when that is
zero, its payload. -/
structure Answers (reply : DeviceReply) (frame : List UInt8) : Prop where
  wellFormed : WellFormedResponse frame
  result : (HothHostResponse.decode frame).result = DeviceReply.result reply
  payload : DeviceReply.result reply = 0 → responsePayload frame = DeviceReply.payload reply

/-- A reply whose result code reaches the proxy: a success, an error with less than a word of
payload, or an error whose first payload word is positive as an `int` and behind the start of the
host command errors by the result code, as far as 16 bits go. -/
def ResultKept (reply : DeviceReply) : Prop :=
  DeviceReply.result reply = 0 ∨ (DeviceReply.payload reply).length < 4 ∨
    htoolErrorHostCommandStart < DeviceReply.word reply ∧ DeviceReply.word reply < 2 ^ 31 ∧
      (DeviceReply.word reply - htoolErrorHostCommandStart) % 2 ^ 16 = DeviceReply.result reply

/-- A stream is answered: every run returns zero and writes, for each request in order, one frame
that answers the reply of the device. -/
def StreamAnswered (exchanges : List RawExchange) : Prop :=
  ∀ rounds, exchanges.length < rounds →
    Ensures session (commandRawHostCommand rounds) (Session.start exchanges) fun outcome final ↦
      outcome = some 0 ∧ ∃ frames, final.stdout = frames.flatten ∧
        List.Forall₂ Answers (exchanges.map RawExchange.reply) frames

/-- Two well-formed responses at the start of the same bytes are the same. -/
theorem wellFormedResponse_unique {first second : List UInt8} (hfirst : WellFormedResponse first)
    (hsecond : WellFormedResponse second) {rest tail : List UInt8}
    (hsame : first ++ rest = second ++ tail) : first = second ∧ rest = tail := by
  have hdataLen : (HothHostResponse.decode first).dataLen =
      (HothHostResponse.decode second).dataLen := by
    have hinside {frame : List UInt8} (hframe : WellFormedResponse frame) (rest : List UInt8) :
        wordAt (frame ++ rest) 4 2 = wordAt frame 4 2 :=
      wordAt_append_left (le_trans (by decide) hframe.size) rest
    calc (HothHostResponse.decode first).dataLen = wordAt (first ++ rest) 4 2 :=
          (hinside hfirst rest).symm
      _ = wordAt (second ++ tail) 4 2 := by rw [hsame]
      _ = (HothHostResponse.decode second).dataLen := hinside hsecond tail
  have hlength : first.length = second.length := by
    have hfirstLen := hfirst.dataLen
    have hsecondLen := hsecond.dataLen
    have hfirstSize := hfirst.size
    have hsecondSize := hsecond.size
    omega
  exact List.append_inj hsame hlength

/-- The `int` with which a reply ends the proxy is not zero. -/
theorem proxied_inl_ne_zero {reply : DeviceReply} {ret : ℤ} (hproxied : proxied reply = .inl ret) :
    ret ≠ 0 := by
  unfold proxied at hproxied
  dsimp only at hproxied
  split_ifs at hproxied with hends
  obtain rfl := Sum.inl.inj hproxied
  exact fun hzero ↦ hends.1 (BitVec.eq_of_toInt_eq hzero)

/-- What the proxy writes for a reply: a well-formed response with the delivered payload. -/
theorem proxied_inr {reply : DeviceReply} {frame : List UInt8}
    (hproxied : proxied reply = .inr frame) :
    WellFormedResponse frame ∧ responsePayload frame = deliveredPayload reply ∧
      (HothHostResponse.decode frame).result =
        (rawResponse (legacyInt reply) (deliveredPayload reply)).result := by
  unfold proxied at hproxied
  dsimp only at hproxied
  split_ifs at hproxied with hends
  obtain rfl := Sum.inr.inj hproxied
  have hsize := length_deliveredPayload_le reply
  exact ⟨wellFormedResponse_rawResponse _ hsize, responsePayload_rawResponse _ _,
    by rw [decode_rawResponse _ hsize]⟩

/-- The 32 bits of a number as an `int`. -/
theorem toInt_ofNat {value : ℕ} (hvalue : value < 2 ^ 32) :
    (BitVec.ofNat 32 value).toInt = if value < 2 ^ 31 then (value : ℤ) else value - 2 ^ 32 := by
  have htoNat : (BitVec.ofNat 32 value).toNat = value := by
    rw [BitVec.toNat_ofNat, Nat.mod_eq_of_lt hvalue]
  rw [BitVec.toInt_eq_toNat_cond, htoNat]
  split_ifs <;> omega

/-- The result code that the proxy writes for an `int` with given bits. -/
theorem rawResponse_ofNat_result {value : ℕ} (hvalue : value < 2 ^ 32) (payload : List UInt8) :
    (rawResponse (BitVec.ofNat 32 value) payload).result =
      if htoolErrorHostCommandStart < value ∧ value < 2 ^ 31 then
        (value - htoolErrorHostCommandStart) % 2 ^ 16
      else 0 := by
  have hstart : htoolErrorHostCommandStart = 537200 := rfl
  have hpositive : (BitVec.ofNat 32 value).toInt > htoolErrorHostCommandStart ↔
      htoolErrorHostCommandStart < value ∧ value < 2 ^ 31 := by
    rw [toInt_ofNat hvalue]
    split_ifs <;> omega
  unfold rawResponse
  dsimp only
  rw [BitVec.toNat_ofNat, Nat.mod_eq_of_lt hvalue]
  exact if_congr hpositive rfl rfl

/-- The result code that the proxy writes for a reply. -/
theorem rawResponse_result (reply : DeviceReply) (payload : List UInt8) :
    (rawResponse (legacyInt reply) payload).result =
      if DeviceReply.result reply = 0 then 0
      else if (DeviceReply.payload reply).length < 4 then DeviceReply.result reply
      else if htoolErrorHostCommandStart < DeviceReply.word reply ∧
          DeviceReply.word reply < 2 ^ 31 then
        (DeviceReply.word reply - htoolErrorHostCommandStart) % 2 ^ 16
      else 0 := by
  have hresult := DeviceReply.result_lt reply
  have hstart : htoolErrorHostCommandStart = 537200 := rfl
  unfold legacyInt
  by_cases hzero : DeviceReply.result reply = 0
  · rw [if_pos hzero, if_pos hzero]
    rfl
  · rw [if_neg hzero, if_neg hzero]
    by_cases hplain : (DeviceReply.payload reply).length < 4
    · rw [if_pos hplain, if_pos hplain, rawResponse_ofNat_result (by omega), if_pos (by omega),
        Nat.add_sub_cancel_left, Nat.mod_eq_of_lt hresult]
    · rw [if_neg hplain, if_neg hplain, rawResponse_ofNat_result (DeviceReply.word_lt reply)]

/-- A reply that ends the proxy is an error with at least a word of payload, and the word is not
the `int` of a host command error. -/
theorem of_proxied_inl {reply : DeviceReply} {ret : ℤ} (hproxied : proxied reply = .inl ret) :
    DeviceReply.result reply ≠ 0 ∧ 4 ≤ (DeviceReply.payload reply).length ∧
      (DeviceReply.word reply < htoolErrorHostCommandStart ∨ 2 ^ 31 ≤ DeviceReply.word reply) := by
  have hresult := DeviceReply.result_lt reply
  have hword := DeviceReply.word_lt reply
  have hstart : htoolErrorHostCommandStart = 537200 := rfl
  unfold proxied at hproxied
  dsimp only at hproxied
  split_ifs at hproxied with hends
  obtain ⟨hnonzero, hsmall⟩ := hends
  unfold legacyInt at hnonzero hsmall
  split_ifs at hnonzero hsmall with hzero hplain
  · exact absurd rfl hnonzero
  · rw [toInt_ofNat (by omega)] at hsmall
    split_ifs at hsmall <;> omega
  · rw [toInt_ofNat hword] at hsmall
    refine ⟨hzero, not_lt.mp hplain, ?_⟩
    split_ifs at hsmall <;> omega

/-- A frame answers a reply exactly when the reply keeps its result code. -/
theorem answers_iff_resultKept {reply : DeviceReply} {frame : List UInt8}
    (hproxied : proxied reply = .inr frame) : Answers reply frame ↔ ResultKept reply := by
  obtain ⟨hwellFormed, hpayload, hresult⟩ := proxied_inr hproxied
  rw [rawResponse_result] at hresult
  constructor
  · intro hanswers
    rw [hanswers.result] at hresult
    unfold ResultKept
    split_ifs at hresult with hzero hplain hkept
    · exact .inl hzero
    · exact .inr (.inl hplain)
    · exact .inr (.inr ⟨hkept.1, hkept.2, hresult.symm⟩)
    · exact absurd hresult hzero
  · intro hkept
    refine ⟨hwellFormed, ?_, fun hzero ↦ hpayload.trans (if_pos hzero)⟩
    rw [hresult]
    split_ifs with hzero hplain hword
    · exact hzero.symm
    · rfl
    · exact ((hkept.resolve_left hzero).resolve_left hplain).2.2
    · have hlong := (hkept.resolve_left hzero).resolve_left hplain
      exact absurd ⟨hlong.1, hlong.2.1⟩ hword

/-- A reply that ends the proxy does not keep its result code. -/
theorem not_resultKept_of_proxied_inl {reply : DeviceReply} {ret : ℤ}
    (hproxied : proxied reply = .inl ret) : ¬ResultKept reply := by
  obtain ⟨hzero, hlong, hword⟩ := of_proxied_inl hproxied
  rintro (hresult | hplain | ⟨hstart, hbound, -⟩)
  · exact hzero hresult
  · omega
  · omega

/-! ### The streams that are answered -/

/-- A stream is answered exactly when the output of the proxy is made of answers. -/
theorem streamAnswered_iff_proxySession (exchanges : List RawExchange) :
    StreamAnswered exchanges ↔ (proxySession exchanges).1 = 0 ∧
      ∃ frames, (proxySession exchanges).2 = frames.flatten ∧
        List.Forall₂ Answers (exchanges.map RawExchange.reply) frames := by
  constructor
  · intro hanswered
    obtain ⟨outcome, final, hrun⟩ := Runs.exists_of_serial session_serial
      (commandRawHostCommand (exchanges.length + 1)) (Session.start exchanges)
    obtain ⟨houtcome, houtput⟩ := commandRawHostCommand_ensures exchanges (Nat.lt_succ_self _) _ _
      hrun
    have hpost := hanswered _ (Nat.lt_succ_self _) _ _ hrun
    rwa [houtcome, houtput, Option.some_inj] at hpost
  · rintro ⟨hret, hframes⟩ rounds hrounds outcome final hrun
    obtain ⟨rfl, houtput⟩ := commandRawHostCommand_ensures exchanges hrounds _ _ hrun
    rw [hret, houtput]
    exact ⟨rfl, hframes⟩

/-- The output of the proxy is made of answers exactly when every reply keeps its result code. -/
theorem proxySession_answers_iff (exchanges : List RawExchange) :
    ((proxySession exchanges).1 = 0 ∧ ∃ frames, (proxySession exchanges).2 = frames.flatten ∧
        List.Forall₂ Answers (exchanges.map RawExchange.reply) frames) ↔
      ∀ exchange ∈ exchanges, ResultKept exchange.reply := by
  induction exchanges with
  | nil =>
    exact ⟨fun _ exchange hexchange ↦ absurd hexchange List.not_mem_nil,
      fun _ ↦ ⟨rfl, [], rfl, .nil⟩⟩
  | cons exchange rest ih =>
    rw [List.forall_mem_cons, ← ih, proxySession, List.map_cons]
    cases hproxied : proxied exchange.reply with
    | inl ret =>
      refine ⟨fun hanswers ↦ absurd hanswers.1 (proxied_inl_ne_zero hproxied), fun hkept ↦ ?_⟩
      exact absurd hkept.1 (not_resultKept_of_proxied_inl hproxied)
    | inr frame =>
      dsimp only
      rw [← answers_iff_resultKept hproxied]
      constructor
      · rintro ⟨hret, frames, houtput, hframes⟩
        cases hframes with
        | cons hanswers hrest =>
          obtain ⟨rfl, hflatten⟩ := wellFormedResponse_unique (proxied_inr hproxied).1
            hanswers.wellFormed houtput
          exact ⟨hanswers, hret, _, hflatten, hrest⟩
      · rintro ⟨hanswers, hret, frames, houtput, hframes⟩
        exact ⟨hret, frame :: frames, by rw [houtput, List.flatten_cons], .cons hanswers hframes⟩

/-- A stream is answered exactly when every reply keeps its result code: otherwise some error reply
ends the stream or is answered with another result. -/
theorem streamAnswered_iff (exchanges : List RawExchange) :
    StreamAnswered exchanges ↔ ∀ exchange ∈ exchanges, ResultKept exchange.reply :=
  (streamAnswered_iff_proxySession exchanges).trans (proxySession_answers_iff exchanges)

/-- An error reply whose payload is the word 5: result 2, payload `05 00 00 00`. -/
def extendedErrorReply : DeviceReply where
  frame := [3, 0xF2, 2, 0, 4, 0, 0, 0, 5, 0, 0, 0]
  wellFormed := ⟨by decide, by decide, by decide, by decide⟩
  fits := by decide

/-- An exchange whose reply is that error: the command 0 without a payload. -/
def extendedErrorExchange : RawExchange where
  request := [3, 0xFD, 0, 0, 0, 0, 0, 0]
  wellFormed := ⟨by decide, by decide, by decide, by decide⟩
  reply := extendedErrorReply

/-- A stream with such a reply is not answered: the proxy ends with 5 and writes nothing. -/
theorem not_streamAnswered_extended_error : ¬StreamAnswered [extendedErrorExchange] := by
  rw [streamAnswered_iff_proxySession]
  exact fun hanswered ↦ absurd hanswered.1 (by decide)

end Libhoth.Examples.RawHostCommandStream
