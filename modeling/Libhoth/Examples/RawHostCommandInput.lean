import Libhoth.Examples.RawHostCommandStream
import Libhoth.Foundation.FrameStream

/-!
# The input of the proxy for raw host commands

What `command_raw_host_command` makes of any bytes on its standard input, when the device and the
standard output do not fail. The input can be taken apart into requests and a rest without a request
at its front in one way only. The proxy forwards the requests, each once, and then ends on the rest.

It should return zero exactly when there is no rest. `fd_read_exact` says the same at the end of the
file whether some bytes have arrived or none, so a rest of one to seven bytes counts as none:
`proxiesInput_iff`.
-/

set_option autoImplicit false
set_option relaxedAutoImplicit false

namespace Libhoth.Examples.RawHostCommandInput

open Foundation.ByteString Foundation.InteractingProgram Foundation.FrameStream
open Protocol.Status Protocol.HostCommand RawHostCommand RawHostCommandStream

/-! ### Requests on the input -/

theorem length_of_wellFormedRequest {frame : List UInt8} (hframe : WellFormedRequest frame) :
    frame.length = headerSize + wordAt frame 6 2 := by
  have hsize := hframe.size
  have hdataLen : wordAt frame 6 2 = frame.length - headerSize := hframe.dataLen
  omega

/-- A request says how long it is. -/
theorem framing_wellFormedRequest : Framing WellFormedRequest where
  nonempty := by
    rintro _ hframe rfl
    exact absurd hframe.size (by decide)
  unique := by
    intro first second rest tail hfirst hsecond hsame
    have hword {frame : List UInt8} (hframe : WellFormedRequest frame) (rest : List UInt8) :
        wordAt (frame ++ rest) 6 2 = wordAt frame 6 2 :=
      wordAt_append_left hframe.size rest
    have hlength : first.length = second.length := by
      rw [length_of_wellFormedRequest hfirst, length_of_wellFormedRequest hsecond,
        ← hword hfirst rest, hsame, hword hsecond tail]
    exact (List.append_inj hsame hlength).1

/-- A reply that `libhoth_hostcmd_exec` hands on: a success or an error of the host command. -/
def Unfailing (reply : DeviceReply) : Prop :=
  legacyInt reply = 0 ∨ (htoolErrorHostCommandStart : ℤ) ≤ (legacyInt reply).toInt

/-- The proxy goes on after such a reply. -/
theorem Unfailing.exists_proxied {reply : DeviceReply} (hreply : Unfailing reply) :
    ∃ frame, proxied reply = .inr frame := by
  unfold proxied
  dsimp only
  rw [if_neg]
  · exact ⟨_, rfl⟩
  · rintro ⟨hnonzero, hsmall⟩
    rcases hreply with hzero | hlarge
    · exact hnonzero hzero
    · omega

/-! ### What is forwarded -/

/-- The history of a run of the proxy. -/
abbrev ProxyHistory := List (Exchange ProxyReply)

/-- The frame that an exchange hands to the device. -/
def sentFrame : Exchange ProxyReply → Option (List UInt8)
  | ⟨.transport (.send frame), _⟩ => some frame
  | _ => none

/-- The frames that a history hands to the device, in order. -/
def forwarded (history : ProxyHistory) : List (List UInt8) :=
  history.filterMap sentFrame

theorem forwarded_append (first second : ProxyHistory) :
    forwarded (first ++ second) = forwarded first ++ forwarded second :=
  List.filterMap_append

/-- A frame forwards a request: it is a request with the same command, version and payload. -/
structure Forwards (request frame : List UInt8) : Prop where
  wellFormed : WellFormedRequest frame
  carries : RawRequest.ofFrame frame = RawRequest.ofFrame request

/-- Reading forwards nothing. -/
theorem fdReadExact_forwarded (count : ℕ) (past : ProxyHistory) :
    Ensures recording (fdReadExact count) past fun _ now ↦ forwarded now = forwarded past := by
  refine whileDecreasing_ensures (fun _ now ↦ forwarded now = forwarded past) ?_ _ past rfl
  rintro ⟨missing, buf⟩ now hnow
  unfold fdReadRound
  dsimp only
  split_ifs
  · exact (ensures_done _ _ _).mpr hnow
  · rw [ensures_bind, ensures_request]
    rintro reply _ rfl
    have hsame : forwarded (now ++ [⟨.read missing, reply⟩]) = forwarded past := by
      rw [forwarded_append, hnow]
      exact List.append_nil _
    cases reply with
    | failed => exact (ensures_done _ _ _).mpr hsame
    | bytes data fits =>
      dsimp only
      split_ifs
      · exact (ensures_done _ _ _).mpr hsame
      · exact (ensures_done _ _ _).mpr hsame

/-- Writing forwards nothing. -/
theorem fdWriteExact_forwarded (data : List UInt8) (past : ProxyHistory) :
    Ensures recording (fdWriteExact data) past fun _ now ↦ forwarded now = forwarded past := by
  refine whileDecreasing_ensures (fun _ now ↦ forwarded now = forwarded past) ?_ _ past rfl
  intro left now hnow
  unfold fdWriteRound
  split_ifs
  · exact (ensures_done _ _ _).mpr hnow
  · rw [ensures_bind, ensures_request]
    rintro reply _ rfl
    have hsame : forwarded (now ++ [⟨.write left, reply⟩]) = forwarded past := by
      rw [forwarded_append, hnow]
      exact List.append_nil _
    cases reply with
    | failed => exact (ensures_done _ _ _).mpr hsame
    | written count fits =>
      dsimp only
      split_ifs
      · exact (ensures_done _ _ _).mpr hsame
      · exact (ensures_done _ _ _).mpr hsame

/-- The part of the loop body up to the check of a request forwards nothing. -/
theorem readRawRequest_forwarded (past : ProxyHistory) :
    Ensures recording readRawRequest past fun _ now ↦ forwarded now = forwarded past := by
  rw [readRawRequest, ensures_bind]
  refine (fdReadExact_forwarded headerSize past).mono fun outcome middle hmiddle ↦ ?_
  cases outcome with
  | failed => exact (ensures_done _ _ _).mpr hmiddle
  | endOfFile => exact (ensures_done _ _ _).mpr hmiddle
  | complete header =>
    dsimp only
    split_ifs
    · exact (ensures_done _ _ _).mpr hmiddle
    · rw [ensures_bind]
      refine (fdReadExact_forwarded _ middle).mono fun outcome last hlast ↦ ?_
      cases outcome with
      | failed => exact (ensures_done _ _ _).mpr (hlast.trans hmiddle)
      | endOfFile => exact (ensures_done _ _ _).mpr (hlast.trans hmiddle)
      | complete payload =>
        dsimp only
        split_ifs
        · exact (ensures_done _ _ _).mpr (hlast.trans hmiddle)
        · exact (ensures_done _ _ _).mpr (hlast.trans hmiddle)

/-- The transport sees the frames that an execution hands to it. -/
theorem forwarded_embed (history : TransportHistory) :
    forwarded (history.map (embedExchange ProxyCall.transport)) = sentFrames history := by
  unfold forwarded sentFrames
  rw [List.filterMap_map]
  refine List.filterMap_congr fun exchange _ ↦ ?_
  rcases exchange with ⟨call, reply⟩
  cases call <;> rfl

/-- An execution hands one frame to its transport, and the frame carries the request. -/
theorem sentFrames_of_execRun {command version : ℕ} (hcommand : command < 2 ^ 16)
    (hversion : version < 2 ^ 8) {payload : List UInt8}
    (hsize : payload.length ≤ libhothMailboxSize - headerSize) {respBuf : Option (List UInt8)}
    {respBufSize : ℕ} {outRespSize : Option ℕ} {outcome : ExecOutcome} {history : TransportHistory}
    (hexec : ExecRun command version payload respBuf respBufSize outRespSize outcome history) :
    ∃ frame, sentFrames history = [frame] ∧
      CarriesRequest frame (UInt16.ofNat command) (UInt8.ofNat version) payload := by
  have hcarries {header : HothHostRequest}
      (hheader : populateEcRequestHeader command version payload = .ok header) :
      CarriesRequest (header.encode ++ payload) (UInt16.ofNat command) (UInt8.ofNat version)
        payload := by
    refine carriesRequest_of_populate hsize ?_
    rwa [UInt16.toNat_ofNat_of_lt' hcommand, UInt8.toNat_ofNat_of_lt' hversion]
  cases hexec with
  | tooLarge hlarge => exact absurd hlarge (not_lt.mpr hsize)
  | sendFailed _ header hheader err nonzero => exact ⟨_, rfl, hcarries hheader⟩
  | receiveFailed _ header hheader err nonzero => exact ⟨_, rfl, hcarries hheader⟩
  | received _ header hheader response fits => exact ⟨_, rfl, hcarries hheader⟩

/-- A frame that carries the command, version and payload of a request forwards it. -/
theorem forwards_of_carriesRequest {request frame : List UInt8}
    (hrequest : WellFormedRequest request)
    (hcarries : CarriesRequest frame (UInt16.ofNat (RawRequest.ofFrame request).command)
      (UInt8.ofNat (RawRequest.ofFrame request).commandVersion)
      (RawRequest.ofFrame request).payload) : Forwards request frame := by
  have hcommand : (RawRequest.ofFrame request).command < 2 ^ 16 := wordAt_lt request 2 2
  have hversion : (RawRequest.ofFrame request).commandVersion < 2 ^ 8 := wordAt_lt request 4 1
  have hpayload : (RawRequest.ofFrame request).payload.length = request.length - headerSize :=
    List.length_drop
  have hlength := hcarries.length
  have hfits := hrequest.fits
  refine ⟨⟨?_, ?_, ?_, hcarries.sum⟩, ?_⟩
  · unfold headerSize
    omega
  · rw [hcarries.dataLen, hlength]
    unfold headerSize
    omega
  · unfold headerSize at hpayload
    unfold libhothMailboxSize at hfits ⊢
    omega
  · rw [RawRequest.ofFrame, hcarries.command, hcarries.commandVersion, hcarries.payload,
      UInt16.toNat_ofNat_of_lt' hcommand, UInt8.toNat_ofNat_of_lt' hversion]

/-- Executing a request hands one frame to the device. -/
theorem onTransport_forwarded {request : List UInt8} (hrequest : WellFormedRequest request)
    (respBuf : Option (List UInt8)) (respBufSize : ℕ) (outRespSize : Option ℕ)
    (past : ProxyHistory) :
    Ensures recording (onTransport (libhothHostcmdExec (RawRequest.ofFrame request).command
      (RawRequest.ofFrame request).commandVersion (RawRequest.ofFrame request).payload respBuf
      respBufSize outRespSize)) past fun _ now ↦
        ∃ frame, forwarded now = forwarded past ++ [frame] ∧ Forwards request frame := by
  intro result now hrun
  obtain ⟨history, hhistory, rfl⟩ := (runs_interpret_embed ProxyCall.transport _ _ _ _).mp hrun
  obtain ⟨outcome, middle, hexec, -, rfl⟩ := (runs_bind _ _ _ _ _).mp hhistory
  have hsize : (RawRequest.ofFrame request).payload.length ≤ libhothMailboxSize - headerSize := by
    have hfits := hrequest.fits
    rw [RawRequest.ofFrame, List.length_drop]
    omega
  obtain ⟨frame, hsent, hcarries⟩ := sentFrames_of_execRun (wordAt_lt request 2 2)
    (wordAt_lt request 4 1) hsize ((runs_libhothHostcmdExecV2_iff _ _ _ _ _ _).mp hexec)
  exact ⟨frame, by rw [forwarded_append, forwarded_embed, hsent],
    forwards_of_carriesRequest hrequest hcarries⟩

/-- The rest of the loop body forwards the request once. -/
theorem forwardRawRequest_forwarded {request : List UInt8} (hrequest : WellFormedRequest request)
    (past : ProxyHistory) :
    Ensures recording (forwardRawRequest (RawRequest.ofFrame request)) past fun _ now ↦
      ∃ frame, forwarded now = forwarded past ++ [frame] ∧ Forwards request frame := by
  rw [forwardRawRequest, ensures_bind]
  refine (onTransport_forwarded hrequest _ _ _ past).mono ?_
  rintro ⟨rv, respPayload, actualRespSize⟩ middle ⟨frame, hmiddle, hforwards⟩
  dsimp only
  split_ifs
  · exact (ensures_done _ _ _).mpr ⟨frame, hmiddle, hforwards⟩
  · rw [ensures_bind]
    refine (fdWriteExact_forwarded _ middle).mono fun header later hlater ↦ ?_
    split_ifs
    · exact (ensures_done _ _ _).mpr ⟨frame, hlater.trans hmiddle, hforwards⟩
    · rw [ensures_bind]
      refine (fdWriteExact_forwarded _ later).mono fun written last hlast ↦ ?_
      split_ifs
      · exact (ensures_done _ _ _).mpr ⟨frame, hlast.trans (hlater.trans hmiddle), hforwards⟩
      · exact (ensures_done _ _ _).mpr ⟨frame, hlast.trans (hlater.trans hmiddle), hforwards⟩

/-! ### The rest of the input -/

/-- Reading more bytes than there are comes to the end of the file. -/
theorem fdReadExact_ensures_short {count : ℕ} {stdin : List UInt8} (hshort : stdin.length < count)
    (stdout : List UInt8) (replies : List DeviceReply) :
    Ensures session (fdReadExact count) ⟨stdin, stdout, replies⟩ fun outcome _ ↦
      outcome = .endOfFile := by
  refine whileDecreasing_ensures
    (fun loop (state : Session) ↦ state.stdin.length < loop.1) ?_ _ _ hshort
  rintro ⟨missing, buf⟩ state hmissing
  unfold fdReadRound
  dsimp only at hmissing ⊢
  rw [dif_neg (Nat.ne_zero_of_lt hmissing), ensures_bind, ensures_request]
  intro reply final hstep
  match reply, hstep with
  | .bytes part _, ⟨_, hstdin, _, _⟩ =>
    dsimp only
    split_ifs with hpart
    · exact (ensures_done _ _ _).mpr rfl
    · refine (ensures_done _ _ _).mpr ?_
      rw [hstdin, List.length_append] at hmissing
      dsimp only
      omega

/-- A header, the bytes that it announces and their sum make a request. -/
theorem wellFormedRequest_of_parts {header payload : List UInt8}
    (hheader : header.length = headerSize)
    (hdataLen : (HothHostRequest.decode header).dataLen = payload.length)
    (hsize : payload.length ≤ libhothMailboxSize - headerSize)
    (hchecksum : libhothCalculateChecksum header payload = 0) :
    WellFormedRequest (header ++ payload) := by
  have hlength : (header ++ payload).length = headerSize + payload.length := by
    rw [List.length_append, hheader]
  have htake : (header ++ payload).take headerSize = header := List.take_left' hheader
  have hfront : headerSize ≤ (header ++ payload).length := by omega
  refine ⟨hfront, ?_, ?_, (libhothCalculateChecksum_eq_zero_iff _ _).mp hchecksum⟩
  · rw [← HothHostRequest.decode_take hfront, htake, hdataLen]
    omega
  · unfold libhothMailboxSize headerSize at *
    omega

/-- A read of bytes that are there takes them off the input. -/
theorem fdReadExact_ensures_take {count : ℕ} {stdin : List UInt8} (hthere : count ≤ stdin.length)
    (stdout : List UInt8) (replies : List DeviceReply) :
    Ensures session (fdReadExact count) ⟨stdin, stdout, replies⟩ fun outcome final ↦
      outcome = .complete (stdin.take count) ∧ final = ⟨stdin.drop count, stdout, replies⟩ := by
  have hread := fdReadExact_ensures (stdin.take count) (stdin.drop count) stdout replies
  rwa [List.length_take_of_le hthere, List.take_append_drop] at hread

/-- On a rest without a request the reading part ends the proxy, with zero exactly when the rest is
shorter than a header. -/
theorem readRawRequest_ensures_rest {rest : List UInt8} (hrest : ¬Begins WellFormedRequest rest)
    (stdout : List UInt8) (replies : List DeviceReply) :
    Ensures session readRawRequest ⟨rest, stdout, replies⟩ fun outcome _ ↦
      ∃ ret, outcome = .inl ret ∧ (ret = 0 ↔ rest.length < headerSize) := by
  rw [readRawRequest, ensures_bind]
  by_cases hheader : rest.length < headerSize
  · refine (fdReadExact_ensures_short hheader stdout replies).mono ?_
    rintro _ final rfl
    exact (ensures_done _ _ _).mpr ⟨0, rfl, iff_of_true rfl hheader⟩
  · refine (fdReadExact_ensures_take (not_lt.mp hheader) stdout replies).mono ?_
    rintro _ _ ⟨rfl, rfl⟩
    dsimp only
    rw [HothHostRequest.decode_take (not_lt.mp hheader)]
    split_ifs with hlarge
    · exact (ensures_done _ _ _).mpr ⟨-1, rfl, iff_of_false (by decide) hheader⟩
    · have hdataLen : (HothHostRequest.decode (rest.take headerSize)).dataLen =
          (HothHostRequest.decode rest).dataLen := by
        rw [HothHostRequest.decode_take (not_lt.mp hheader)]
      generalize (HothHostRequest.decode rest).dataLen = dataLen at hlarge hdataLen ⊢
      rw [ensures_bind]
      by_cases hpayload : (rest.drop headerSize).length < dataLen
      · refine (fdReadExact_ensures_short hpayload stdout replies).mono ?_
        rintro _ final rfl
        exact (ensures_done _ _ _).mpr ⟨1, rfl, iff_of_false (by decide) hheader⟩
      · refine (fdReadExact_ensures_take (not_lt.mp hpayload) stdout replies).mono ?_
        rintro _ _ ⟨rfl, rfl⟩
        dsimp only
        split_ifs with hchecksum
        · exact (ensures_done _ _ _).mpr ⟨-1, rfl, iff_of_false (by decide) hheader⟩
        · have hcount := List.length_take_of_le (not_lt.mp hpayload)
          have hrequest := wellFormedRequest_of_parts (List.length_take_of_le (not_lt.mp hheader))
            (hdataLen.trans hcount.symm) (hcount.le.trans (not_lt.mp hlarge))
              (not_not.mp hchecksum)
          refine absurd ⟨_, (rest.drop headerSize).drop dataLen, hrequest, ?_⟩ hrest
          rw [List.append_assoc, List.take_append_drop, List.take_append_drop]

/-! ### The whole input -/

/-- On a request at the front of the input, a round forwards it and goes on. -/
theorem rawHostCommandRound_request {request : List UInt8} (hrequest : WellFormedRequest request)
    (stdin stdout : List UInt8) {reply : DeviceReply} (hreply : Unfailing reply)
    (replies : List DeviceReply) (past : ProxyHistory) :
    Ensures (keeping session) (rawHostCommandRound ())
      (past, ⟨request ++ stdin, stdout, reply :: replies⟩) fun outcome final ↦
        (outcome = .inl () ∧ ∃ written, final.2 = ⟨stdin, written, replies⟩) ∧
          ∃ frame, forwarded final.1 = forwarded past ++ [frame] ∧ Forwards request frame := by
  have hsize : (RawRequest.ofFrame request).payload.length ≤ libhothMailboxSize - headerSize := by
    have hfits := hrequest.fits
    rw [RawRequest.ofFrame, List.length_drop]
    omega
  obtain ⟨written, hwritten⟩ := hreply.exists_proxied
  rw [rawHostCommandRound, ensures_bind]
  refine (Ensures.keeping (hrequest.acceptedAs stdin stdout (reply :: replies))
    (readRawRequest_forwarded past)).mono ?_
  rintro _ ⟨middle, _⟩ ⟨⟨rfl, rfl⟩, hmiddle⟩
  have hforward := forwardRawRequest_ensures hsize stdin stdout reply replies
  rw [hwritten] at hforward
  refine (Ensures.keeping hforward (forwardRawRequest_forwarded hrequest middle)).mono ?_
  rintro _ ⟨last, _⟩ ⟨⟨rfl, rfl⟩, frame, hlast, hforwards⟩
  exact ⟨⟨rfl, _, rfl⟩, frame, by rw [hlast, hmiddle], hforwards⟩

/-- On a rest without a request, a round ends the proxy. -/
theorem rawHostCommandRound_rest {rest : List UInt8} (hrest : ¬Begins WellFormedRequest rest)
    (stdout : List UInt8) (replies : List DeviceReply) (past : ProxyHistory) :
    Ensures (keeping session) (rawHostCommandRound ()) (past, ⟨rest, stdout, replies⟩)
      fun outcome final ↦
        (∃ ret, outcome = .inr ret ∧ (ret = 0 ↔ rest.length < headerSize)) ∧
          forwarded final.1 = forwarded past := by
  rw [rawHostCommandRound, ensures_bind]
  refine (Ensures.keeping (readRawRequest_ensures_rest hrest stdout replies)
    (readRawRequest_forwarded past)).mono ?_
  rintro _ middle ⟨⟨ret, rfl, hret⟩, hmiddle⟩
  exact (ensures_done _ _ _).mpr ⟨⟨ret, rfl, hret⟩, hmiddle⟩

/-- The loop forwards the requests, each once and in order, and then ends on the rest. -/
theorem whileRounds_requests {rest : List UInt8} (hrest : ¬Begins WellFormedRequest rest)
    {requests : List (List UInt8)} (hrequests : ∀ request ∈ requests, WellFormedRequest request)
    {rounds : ℕ} (hrounds : requests.length < rounds) {replies : List DeviceReply}
    (hreplies : requests.length ≤ replies.length) (hunfailing : ∀ reply ∈ replies, Unfailing reply)
    (stdout : List UInt8) (past : ProxyHistory) :
    Ensures (keeping session) (whileRounds rawHostCommandRound rounds ())
      (past, ⟨requests.flatten ++ rest, stdout, replies⟩) fun outcome final ↦
        (∃ ret, outcome = some ret ∧ (ret = 0 ↔ rest.length < headerSize)) ∧
          ∃ frames, forwarded final.1 = forwarded past ++ frames ∧
            List.Forall₂ Forwards requests frames := by
  induction requests generalizing rounds replies stdout past with
  | nil =>
    obtain ⟨rounds, rfl⟩ := Nat.exists_eq_succ_of_ne_zero (Nat.ne_zero_of_lt hrounds)
    rw [whileRounds, ensures_bind]
    refine (rawHostCommandRound_rest hrest stdout replies past).mono ?_
    rintro _ final ⟨⟨ret, rfl, hret⟩, hfinal⟩
    exact (ensures_done _ _ _).mpr
      ⟨⟨ret, rfl, hret⟩, [], hfinal.trans (List.append_nil _).symm, .nil⟩
  | cons request requests ih =>
    obtain ⟨rounds, rfl⟩ := Nat.exists_eq_succ_of_ne_zero (Nat.ne_zero_of_lt hrounds)
    rw [List.forall_mem_cons] at hrequests
    rw [List.length_cons] at hrounds hreplies
    cases replies with
    | nil => exact absurd hreplies (Nat.not_succ_le_zero _)
    | cons reply replies =>
      rw [List.forall_mem_cons] at hunfailing
      rw [List.length_cons] at hreplies
      rw [whileRounds, ensures_bind, List.flatten_cons, List.append_assoc]
      refine (rawHostCommandRound_request hrequests.1 _ stdout hunfailing.1 replies past).mono ?_
      rintro _ ⟨middle, _⟩ ⟨⟨rfl, written, rfl⟩, frame, hmiddle, hforwards⟩
      refine (ih hrequests.2 (by omega) (by omega) hunfailing.2 written middle).mono ?_
      rintro outcome final ⟨hret, frames, hframes, hall⟩
      refine ⟨hret, frame :: frames, ?_, .cons hforwards hall⟩
      rw [hframes, hmiddle, List.append_assoc, List.singleton_append]

/-- What the proxy should do with an input: it returns zero exactly when the input is made of whole
requests, and forwards those at its front, each once and in order. The device has a reply for every
request that the input may hold, and the loop enough rounds. -/
def ProxiesInput (input : List UInt8) : Prop :=
  ∀ (replies : List DeviceReply) (rounds : ℕ), (∀ reply ∈ replies, Unfailing reply) →
    input.length ≤ headerSize * replies.length → input.length < headerSize * rounds →
      Ensures (keeping session) (commandRawHostCommand rounds) ([], ⟨input, [], replies⟩)
        fun outcome final ↦ ∃ ret requests rest, outcome = some ret ∧
          (ret = 0 ↔ ∃ whole, Frames WellFormedRequest input whole []) ∧
            Frames WellFormedRequest input requests rest ∧ ¬Begins WellFormedRequest rest ∧
              List.Forall₂ Forwards requests (forwarded final.1)

/-- A rest that is shorter than a header has no request at its front. -/
theorem not_begins_of_short {rest : List UInt8} (hshort : rest.length < headerSize) :
    ¬Begins WellFormedRequest rest := by
  rintro ⟨frame, tail, hframe, rfl⟩
  rw [List.length_append] at hshort
  have hsize := hframe.size
  omega

/-- Each request takes a header at least. -/
theorem length_requests_le {requests : List (List UInt8)}
    (hrequests : ∀ request ∈ requests, WellFormedRequest request) :
    headerSize * requests.length ≤ requests.flatten.length := by
  induction requests with
  | nil => exact Nat.le_refl 0
  | cons request requests ih =>
    rw [List.forall_mem_cons] at hrequests
    have hfirst := hrequests.1.size
    have hrest := ih hrequests.2
    rw [List.length_cons, List.flatten_cons, List.length_append, Nat.mul_succ]
    omega

/-- The run of the proxy on an input that is taken apart. -/
theorem commandRawHostCommand_input {input rest : List UInt8} {requests : List (List UInt8)}
    (hframes : Frames WellFormedRequest input requests rest)
    (hrest : ¬Begins WellFormedRequest rest)
    {replies : List DeviceReply} {rounds : ℕ} (hunfailing : ∀ reply ∈ replies, Unfailing reply)
    (hreplies : input.length ≤ headerSize * replies.length)
    (hrounds : input.length < headerSize * rounds) :
    Ensures (keeping session) (commandRawHostCommand rounds) ([], ⟨input, [], replies⟩)
      fun outcome final ↦
        (∃ ret, outcome = some ret ∧ (ret = 0 ↔ rest.length < headerSize)) ∧
          List.Forall₂ Forwards requests (forwarded final.1) := by
  have hlength := length_requests_le hframes.all
  have hinput : input.length = requests.flatten.length + rest.length := by
    rw [hframes.split, List.length_append]
  unfold headerSize at hlength hreplies hrounds
  rw [commandRawHostCommand, ensures_bind, ensures_request]
  rintro _ ⟨history, _⟩ ⟨rfl, rfl, rfl⟩
  rw [if_pos rfl, hframes.split]
  refine (whileRounds_requests hrest hframes.all (by omega) (by omega) hunfailing [] _).mono ?_
  rintro outcome final ⟨hret, frames, hforwarded, hall⟩
  rw [hforwarded]
  exact ⟨hret, hall⟩

/-- A success without a payload. -/
def okReply : DeviceReply where
  frame := [3, 0xFD, 0, 0, 0, 0, 0, 0]
  wellFormed := ⟨by decide, by decide, by decide, by decide⟩
  fits := by decide

/-- The proxy does what it should with an input exactly when a rest shorter than a header is no rest
at all. -/
theorem proxiesInput_iff_of_frames {input rest : List UInt8} {requests : List (List UInt8)}
    (hframes : Frames WellFormedRequest input requests rest)
    (hrest : ¬Begins WellFormedRequest rest) :
    ProxiesInput input ↔ (rest.length < headerSize → rest = []) := by
  have hwhole : (∃ whole, Frames WellFormedRequest input whole []) ↔ rest = [] := by
    constructor
    · rintro ⟨whole, hwhole⟩
      exact (hframes.unique framing_wellFormedRequest hwhole hrest
        (not_begins_of_short (by decide))).2
    · rintro rfl
      exact ⟨requests, hframes⟩
  constructor
  · intro hproxies hshort
    have hunfailing : ∀ reply ∈ List.replicate input.length okReply, Unfailing reply := by
      intro reply hreply
      rw [List.eq_of_mem_replicate hreply]
      exact .inl rfl
    have hreplies : input.length ≤
        headerSize * (List.replicate input.length okReply).length := by
      rw [List.length_replicate, headerSize]
      omega
    have hrounds : input.length < headerSize * (input.length + 1) := by
      rw [headerSize]
      omega
    obtain ⟨outcome, final, hrun⟩ := Runs.exists_of_serial (keeping_serial session_serial)
      (commandRawHostCommand (input.length + 1))
      ([], ⟨input, [], List.replicate input.length okReply⟩)
    obtain ⟨⟨ret, rfl, hret⟩, -⟩ := commandRawHostCommand_input hframes hrest hunfailing hreplies
      hrounds outcome final hrun
    obtain ⟨other, -, -, hother, hzero, -⟩ := hproxies _ _ hunfailing hreplies hrounds _ _ hrun
    obtain rfl := Option.some.inj hother
    exact hwhole.mp (hzero.mp (hret.mpr hshort))
  · intro hshort replies rounds hunfailing hreplies hrounds
    refine (commandRawHostCommand_input hframes hrest hunfailing hreplies hrounds).mono ?_
    rintro outcome final ⟨⟨ret, rfl, hret⟩, hall⟩
    refine ⟨ret, requests, rest, rfl, ?_, hframes, hrest, hall⟩
    rw [hret, hwhole]
    refine ⟨hshort, ?_⟩
    rintro rfl
    decide

/-- The proxy does what it should with every input but those that end in one to seven bytes behind
whole requests. -/
theorem proxiesInput_iff (input : List UInt8) :
    ProxiesInput input ↔ ¬∃ requests rest, Frames WellFormedRequest input requests rest ∧
      0 < rest.length ∧ rest.length < headerSize := by
  obtain ⟨requests, rest, hframes, hrest⟩ := exists_frames framing_wellFormedRequest input
  rw [proxiesInput_iff_of_frames hframes hrest]
  constructor
  · rintro hshort ⟨others, tail, hothers, hpositive, htail⟩
    obtain ⟨rfl, rfl⟩ := hframes.unique framing_wellFormedRequest hothers hrest
      (not_begins_of_short htail)
    rw [hshort htail] at hpositive
    exact absurd hpositive (Nat.lt_irrefl 0)
  · intro hnone hshort
    by_contra hsome
    exact hnone ⟨requests, rest, hframes, List.length_pos_iff.mpr hsome, hshort⟩

/-- An input of one byte: the proxy returns zero. -/
theorem not_proxiesInput_one_byte : ¬ProxiesInput [3] := by
  have hframes : Frames WellFormedRequest [3] [] [3] :=
    ⟨fun _ hnone ↦ absurd hnone List.not_mem_nil, rfl⟩
  rw [proxiesInput_iff_of_frames hframes (not_begins_of_short (by decide))]
  exact fun hshort ↦ absurd (hshort (by decide)) (by decide)

end Libhoth.Examples.RawHostCommandInput
