import Libhoth.Transports.UsbFifo

/-!
# Receiving the response to one's own request

`libhothUsbFifoReceiveResponse_answers` says when `libhoth_usb_fifo_receive_response` takes a packet
for the response: the packets it looked at carry other request IDs, at most ten of them, and the
last one carries the ID of the request (`Answered`). Then its payload is what the caller gets, and
in every other case the caller gets an error and nothing else.

`examinedPackets` reads the packets off the history of a call. `Examining` is the invariant of the
loop over them. `ReceiveEnd` also says what a call that ran its transfers leaves pending.
-/

set_option autoImplicit false
set_option relaxedAutoImplicit false

namespace Libhoth.Transports.UsbFifoReceive

open Foundation.CellMemory Foundation.CheckedAccess Foundation.InteractingProgram
open Libusb UsbFifo

/-! ### The packets of a call -/

/-- A packet of an IN transfer: the status of the transfer and the bytes that it filled. -/
structure FifoPacket where
  status : LibusbTransferStatus
  bytes : List UInt8

/-- The packet of a run. -/
def packetOf {inLength : ℕ} (reply : RunReply inLength) : FifoPacket where
  status := reply.inStatus
  bytes := reply.inBytes

/-- A run that sent the whole request. -/
def SentWhole (submission : OutSubmission) {inLength : ℕ} (reply : RunReply inLength) : Prop :=
  reply.status = libhothOk ∧ reply.outStatus = .completed ∧
    reply.outActualLength = submission.data.length

instance (submission : OutSubmission) {inLength : ℕ} (reply : RunReply inLength) :
    Decidable (SentWhole submission reply) :=
  inferInstanceAs (Decidable (_ ∧ _ ∧ _))

/-- One more exchange of a history: a packet of a run that sends the request is looked at when the
request was sent whole, a packet of a later run when the run succeeded, and clearing a halt starts
over. -/
def examine (packets : List FifoPacket) : Exchange FifoReply → List FifoPacket
  | ⟨.runTransfers (some submission) _, reply⟩ =>
    if SentWhole submission reply then [packetOf reply] else []
  | ⟨.runTransfers none _, reply⟩ =>
    if reply.status = libhothOk then packets ++ [packetOf reply] else packets
  | ⟨.clearHalt _, _⟩ => []

/-- The packets that a call looked at. -/
def examinedPackets (history : FifoHistory) : List FifoPacket :=
  history.foldl examine []

@[simp] theorem examinedPackets_nil : examinedPackets [] = [] :=
  rfl

@[simp] theorem examinedPackets_snoc (history : FifoHistory) (exchange : Exchange FifoReply) :
    examinedPackets (history ++ [exchange]) = examine (examinedPackets history) exchange := by
  simp [examinedPackets]

/-- A whole packet of a size that fits the caller's buffer. -/
structure FifoPacket.Fits (packet : FifoPacket) (maxResponseSize : ℕ) : Prop where
  completed : packet.status = .completed
  atLeast : libhothUsbFifoRequestIdSize ≤ packet.bytes.length
  atMost : packet.bytes.length ≤ libhothUsbFifoRequestIdSize + maxResponseSize

/-- The request ID at the start of a packet. -/
def FifoPacket.requestId (packet : FifoPacket) : List UInt8 :=
  packet.bytes.take libhothUsbFifoRequestIdSize

/-- The rest of a packet. -/
def FifoPacket.payload (packet : FifoPacket) : List UInt8 :=
  packet.bytes.drop libhothUsbFifoRequestIdSize

/-- Packets of other requests, and last the packet of this one. -/
def Answered (requestId : List UInt8) (maxResponseSize : ℕ) (packets : List FifoPacket) : Prop :=
  ∃ earlier last, packets = earlier ++ [last] ∧
    (∀ packet ∈ earlier, packet.Fits maxResponseSize ∧ packet.requestId ≠ requestId) ∧
    last.Fits maxResponseSize ∧ last.requestId = requestId

/-- The request ID of the pending request. -/
def pendingId (drvdata : LibhothUsbFifo) : List UInt8 :=
  load drvdata.outBuffer 0 libhothUsbFifoRequestIdSize

/-- What a call owes its caller, given the packets that it looked at. -/
structure ReceiveContract (requestId : List UInt8) (maxResponseSize : ℕ) (response : ℕ → UInt8)
    (packets : List FifoPacket) (out : FifoReceiveResult) : Prop where
  attempts : packets.length ≤ 11
  ok_iff : out.status = libhothOk ↔ Answered requestId maxResponseSize packets
  answer : out.status = libhothOk → ∃ last, packets.getLast? = some last ∧
    last.payload.length ≤ maxResponseSize ∧ out.actualSize = some last.payload.length ∧
    out.response = store response 0 last.payload
  untouched : out.status ≠ libhothOk → out.actualSize = none ∧ out.response = response

/-- The last exchange is a run whose OUT transfer completed short. -/
def EndsShort (history : FifoHistory) : Prop :=
  ∃ before submission into reply,
    history = before ++ [⟨.runTransfers (some submission) into, reply⟩] ∧
      reply.status = libhothOk ∧ reply.outStatus = .completed ∧
      reply.outActualLength ≠ submission.data.length

/-- How a call ends that ran its transfers: the request is not pending any more, unless its OUT
transfer completed short. -/
structure ReceiveEnd (requestId : List UInt8) (maxResponseSize : ℕ) (response : ℕ → UInt8)
    (history : FifoHistory) (out : FifoReceiveResult) : Prop where
  contract : ReceiveContract requestId maxResponseSize response (examinedPackets history) out
  pending : out.drvdata.outTransfer.length = 0 ∨ EndsShort history

section Contract

variable {requestId : List UInt8} {maxResponseSize : ℕ} {response : ℕ → UInt8}
variable {packets : List FifoPacket} {out : FifoReceiveResult}

theorem not_answered_nil : ¬Answered requestId maxResponseSize [] := by
  rintro ⟨earlier, last, hpackets, -⟩
  exact absurd hpackets.symm (by simp)

/-- Whether packets are an answer is decided by the last one, when the others are stale. -/
theorem answered_snoc_iff {earlier : List FifoPacket} {last : FifoPacket}
    (hstale : ∀ packet ∈ earlier, packet.Fits maxResponseSize ∧ packet.requestId ≠ requestId) :
    Answered requestId maxResponseSize (earlier ++ [last]) ↔
      last.Fits maxResponseSize ∧ last.requestId = requestId := by
  constructor
  · rintro ⟨others, final, hpackets, -, hfinal⟩
    obtain ⟨-, hlast⟩ := List.append_inj' hpackets rfl
    rw [List.singleton_inj.mp hlast]
    exact hfinal
  · exact fun hlast ↦ ⟨earlier, last, rfl, hstale, hlast⟩

/-- An error with nothing written keeps the contract when the packets are no answer. -/
theorem ReceiveContract.failed (hattempts : packets.length ≤ 11) (hstatus : out.status ≠ libhothOk)
    (hunanswered : ¬Answered requestId maxResponseSize packets) (hactual : out.actualSize = none)
    (hresponse : out.response = response) :
    ReceiveContract requestId maxResponseSize response packets out where
  attempts := hattempts
  ok_iff := iff_of_false hstatus hunanswered
  answer := fun hok ↦ absurd hok hstatus
  untouched := fun _ ↦ ⟨hactual, hresponse⟩

end Contract

/-! ### One packet -/

/-- The driver data holds the results of an IN transfer with a packet. -/
structure Holding (drvdata : LibhothUsbFifo) (packet : FifoPacket) : Prop where
  status : drvdata.inTransfer.status = packet.status
  actualLength : drvdata.inTransfer.actualLength = packet.bytes.length
  buffer : ∃ cells, drvdata.inBuffer = store cells 0 packet.bytes
  fits : packet.bytes.length ≤ libhothUsbFifoMtu

/-- What examining a packet comes to: it is another request's, or it is the answer, or the call
fails. -/
inductive Examined (drvdata : LibhothUsbFifo) (maxResponseSize : ℕ) (response : ℕ → UInt8)
    (packet : FifoPacket) : Option FifoReceiveResult → Prop
  | stale (hfits : packet.Fits maxResponseSize) (hother : packet.requestId ≠ pendingId drvdata) :
    Examined drvdata maxResponseSize response packet none
  | answer (hfits : packet.Fits maxResponseSize) (hsame : packet.requestId = pendingId drvdata) :
    Examined drvdata maxResponseSize response packet (some (transferDone drvdata libhothOk
      (some packet.payload.length) (store response 0 packet.payload)))
  | failed (status : ℤ) (hstatus : status ≠ libhothOk) (hunfit : ¬packet.Fits maxResponseSize) :
    Examined drvdata maxResponseSize response packet
      (some (transferDone drvdata status none response))

theorem examinePacket_cases {drvdata : LibhothUsbFifo} {packet : FifoPacket}
    (hholding : Holding drvdata packet) (maxResponseSize : ℕ) (response : ℕ → UInt8) :
    ∃ outcome, examinePacket drvdata maxResponseSize response = .ok outcome ∧
      Examined drvdata maxResponseSize response packet outcome := by
  have hio : libusbErrorIo ≠ libhothOk := by decide
  have hoverflow : libhothErrInOverflow ≠ libhothOk := by decide
  obtain ⟨cells, hbuffer⟩ := hholding.buffer
  have hmtu : libhothUsbFifoRequestIdSize ≤ libhothUsbFifoMtu := by decide
  have hlength := hholding.fits
  rw [examinePacket, hholding.status, hholding.actualLength, hbuffer]
  by_cases hcompleted : packet.status ≠ .completed
  · have herror : transferStatusToError packet.status ≠ libhothOk :=
      (transferStatusToError_eq_libhothOk_iff _).not.mpr hcompleted
    exact ⟨_, if_pos hcompleted, .failed _ herror fun hfits ↦ hcompleted hfits.completed⟩
  rw [if_neg hcompleted]
  by_cases hlong : packet.bytes.length > libhothUsbFifoRequestIdSize + maxResponseSize
  · exact ⟨_, if_pos hlong, .failed _ hoverflow fun hfits ↦ absurd hfits.atMost hlong.not_ge⟩
  rw [if_neg hlong]
  by_cases hshort : packet.bytes.length < libhothUsbFifoRequestIdSize
  · exact ⟨_, if_pos hshort, .failed _ hio fun hfits ↦ absurd hfits.atLeast hshort.not_ge⟩
  have hfits : packet.Fits maxResponseSize :=
    ⟨not_not.mp hcompleted, not_lt.mp hshort, not_lt.mp hlong⟩
  have hid : load (store cells 0 packet.bytes) 0 libhothUsbFifoRequestIdSize =
      packet.requestId := by
    rw [load_store cells (by omega), List.drop_zero]
    rfl
  rw [if_neg hshort, loadWithin_of_le _ (by omega), ok_bind, loadWithin_of_le _ (by omega), ok_bind,
    hid, ← pendingId]
  by_cases hsame : packet.requestId = pendingId drvdata
  · have hpayload : load (store cells 0 packet.bytes) libhothUsbFifoRequestIdSize
        (packet.bytes.length - libhothUsbFifoRequestIdSize) = packet.payload := by
      rw [load_store cells (by omega), ← List.length_drop, List.take_length]
      rfl
    have hsize : packet.payload.length =
        packet.bytes.length - libhothUsbFifoRequestIdSize := List.length_drop
    refine ⟨_, ?_, .answer hfits hsame⟩
    rw [if_pos hsame.symm]
    dsimp only
    rw [loadWithin_of_le _ (by omega), ok_bind, hpayload, storeWithin_of_le _ (by omega), ok_bind,
      ← hsize]
    rfl
  · exact ⟨_, if_neg fun hequal ↦ hsame hequal.symm, .stale hfits hsame⟩

/-! ### Runs of the transfers -/

/-- A run records one exchange and leaves its results in the driver data. -/
theorem runTransfers_ensures (drvdata : LibhothUsbFifo) (out : Bool) (history : FifoHistory)
    (post : ℤ × LibhothUsbFifo → FifoHistory → Prop) :
    Ensures recording (libhothUsbFifoRunTransfers drvdata out) history post ↔
      ∀ reply, post (reply.status, drvdata.settle out reply) (history ++
        [⟨.runTransfers (if out then some drvdata.outSubmission else none) drvdata.inSubmission,
          reply⟩]) := by
  simp only [libhothUsbFifoRunTransfers, ensures_bind, ensures_request, recording_iff,
    pure_eq_done, ensures_done]
  constructor
  · exact fun hensures reply ↦ hensures reply _ rfl
  · rintro hall reply _ rfl
    exact hall reply

theorem holding_settle {drvdata : LibhothUsbFifo} (out : Bool)
    (hlength : drvdata.inTransfer.length = libhothUsbFifoMtu)
    (reply : RunReply drvdata.inSubmission.length) :
    Holding (drvdata.settle out reply) (packetOf reply) where
  status := rfl
  actualLength := rfl
  buffer := ⟨drvdata.inBuffer, rfl⟩
  fits := reply.inFits.trans hlength.le

/-! ### The loop -/

section Loop

variable (requestId : List UInt8) (maxResponseSize : ℕ) (response : ℕ → UInt8)

/-- The loop before a round: the packets before the one in the driver data are stale. -/
structure Examining (state : ExamineState) (history : FifoHistory) : Prop where
  attempt : state.attempt ≤ maxStaleResponses
  pending : pendingId state.drvdata = requestId
  inLength : state.drvdata.inTransfer.length = libhothUsbFifoMtu
  packets : ∃ earlier last, examinedPackets history = earlier ++ [last] ∧
    earlier.length = state.attempt ∧
    (∀ packet ∈ earlier, packet.Fits maxResponseSize ∧ packet.requestId ≠ requestId) ∧
    Holding state.drvdata last

/-- What a round leaves: the invariant for the next one, or the end of the call. -/
def ExamineRoundEnd {state : ExamineState} (history : FifoHistory) :
    {next : ExamineState // next.remaining < state.remaining} ⊕ Except Fault FifoReceiveResult →
      Prop
  | .inl next => Examining requestId maxResponseSize next.val history
  | .inr result => ∃ out, result = .ok out ∧
      ReceiveEnd requestId maxResponseSize response history out

variable {requestId maxResponseSize response}

theorem examineRound_ensures {state : ExamineState} {history : FifoHistory}
    (hexamining : Examining requestId maxResponseSize state history) :
    Ensures recording (examineRound maxResponseSize response state) history
      fun outcome final ↦ ExamineRoundEnd requestId maxResponseSize response final outcome := by
  have hio : libusbErrorIo ≠ libhothOk := by decide
  obtain ⟨hattempt, rfl, hinLength, earlier, last, hpackets, hcount, hstale, hholding⟩ := hexamining
  have hattempts : (examinedPackets history).length ≤ 11 := by
    rw [hpackets, List.length_append, List.length_singleton, hcount]
    exact Nat.succ_le_succ hattempt
  have hanswered : Answered (pendingId state.drvdata) maxResponseSize (examinedPackets history) ↔
      last.Fits maxResponseSize ∧ last.requestId = pendingId state.drvdata := by
    rw [hpackets, answered_snoc_iff hstale]
  obtain ⟨outcome, houtcome, hexamined⟩ :=
    examinePacket_cases hholding maxResponseSize response
  unfold examineRound
  simp only [houtcome]
  cases hexamined with
  | stale hfits hother =>
    have hunanswered := hanswered.not.mpr fun hmatches ↦ hother hmatches.2
    by_cases hlast : state.attempt ≥ maxStaleResponses
    · simp only [dif_pos hlast, pure_eq_done, ensures_done]
      exact ⟨_, rfl, .failed hattempts hio hunanswered rfl rfl, .inl rfl⟩
    · simp only [dif_neg hlast, ensures_bind, runTransfers_ensures]
      intro reply
      by_cases hstatus : reply.status = libhothOk
      · rw [if_neg (not_not.mpr hstatus), pure_eq_done, ensures_done]
        refine ⟨not_le.mp hlast, rfl, hinLength, earlier ++ [last], packetOf reply, ?_, ?_, ?_,
          holding_settle false hinLength reply⟩
        · rw [examinedPackets_snoc, hpackets]
          exact if_pos hstatus
        · rw [List.length_append, hcount, List.length_singleton]
        · exact forall_mem_snoc hstale ⟨hfits, hother⟩
      · have hsame : examinedPackets (history ++ [⟨.runTransfers none state.drvdata.inSubmission,
            reply⟩]) = examinedPackets history := by
          rw [examinedPackets_snoc]
          exact if_neg hstatus
        rw [if_pos hstatus, pure_eq_done, ensures_done]
        refine ⟨_, rfl, .failed ?_ hstatus ?_ rfl rfl, .inl rfl⟩
        · exact hsame.symm ▸ hattempts
        · exact hsame.symm ▸ hunanswered
  | answer hfits hsame =>
    simp only [pure_eq_done, ensures_done]
    have hpayload : last.payload.length ≤ maxResponseSize := by
      have hmost := hfits.atMost
      rw [FifoPacket.payload, List.length_drop]
      omega
    refine ⟨_, rfl, ⟨hattempts, iff_of_true rfl (hanswered.mpr ⟨hfits, hsame⟩), fun _ ↦ ?_,
      fun hfailed ↦ absurd rfl hfailed⟩, .inl rfl⟩
    exact ⟨last, by rw [hpackets, List.getLast?_concat], hpayload, rfl, rfl⟩
  | failed status hstatus hunfit =>
    simp only [pure_eq_done, ensures_done]
    exact ⟨_, rfl, .failed hattempts hstatus (hanswered.not.mpr fun hmatches ↦ hunfit hmatches.1)
      rfl rfl, .inl rfl⟩

end Loop

/-! ### Before the loop -/

section Call

variable {requestId : List UInt8} {maxResponseSize : ℕ} {response : ℕ → UInt8}

/-- The last exchange is a run of both transfers that succeeded, and the driver data holds what it
left. -/
structure Ran (requestId : List UInt8) (drvdata : LibhothUsbFifo) (history : FifoHistory) :
    Prop where
  pending : pendingId drvdata = requestId
  inLength : drvdata.inTransfer.length = libhothUsbFifoMtu
  last : ∃ before submission into reply,
    history = before ++ [⟨.runTransfers (some submission) into, reply⟩] ∧
      reply.status = libhothOk ∧ submission.data.length = drvdata.outTransfer.length ∧
      drvdata.outTransfer.status = reply.outStatus ∧
      drvdata.outTransfer.actualLength = reply.outActualLength ∧ Holding drvdata (packetOf reply)

/-- How a step before the loop ends: with an error and no packet, or with the transfers run. -/
def RunEnd (requestId : List UInt8) (outcome : ℤ × LibhothUsbFifo) (history : FifoHistory) : Prop :=
  (outcome.1 ≠ libhothOk ∧ examinedPackets history = []) ∨
    (outcome.1 = libhothOk ∧ Ran requestId outcome.2 history)

theorem runBoth_ensures {drvdata : LibhothUsbFifo} (hpending : pendingId drvdata = requestId)
    (hinLength : drvdata.inTransfer.length = libhothUsbFifoMtu) (history : FifoHistory) :
    Ensures recording (libhothUsbFifoRunTransfers drvdata true) history (RunEnd requestId) := by
  rw [runTransfers_ensures]
  intro reply
  by_cases hstatus : reply.status = libhothOk
  · exact .inr ⟨hstatus, hpending, hinLength, history, drvdata.outSubmission, _, reply, rfl,
      hstatus, length_load _ _ _, rfl, rfl, holding_settle true hinLength reply⟩
  · refine .inl ⟨hstatus, ?_⟩
    rw [examinedPackets_snoc]
    exact if_neg fun hwhole ↦ hstatus hwhole.1

theorem recoverStall_ensures {drvdata : LibhothUsbFifo} {history : FifoHistory}
    (hran : Ran requestId drvdata history) :
    Ensures recording (recoverStall drvdata) history (RunEnd requestId) := by
  unfold recoverStall
  split_ifs with hstall
  · simp only [ensures_bind, ensures_request, recording_iff]
    intro status middle hmiddle
    split_ifs with hfailed
    · rw [pure_eq_done, ensures_done]
      exact .inl ⟨hfailed, by rw [hmiddle, examinedPackets_snoc, examine]⟩
    · simp only [ensures_bind, ensures_request, recording_iff]
      intro status now hnow
      split_ifs with hfailed
      · rw [pure_eq_done, ensures_done]
        exact .inl ⟨hfailed, by rw [hnow, examinedPackets_snoc, examine]⟩
      · exact runBoth_ensures hran.pending hran.inLength now
  · rw [pure_eq_done, ensures_done]
    exact .inr ⟨rfl, hran⟩

/-- A run that sent the whole request leaves its packet to look at. -/
theorem Ran.examined_of_whole {drvdata : LibhothUsbFifo} {history : FifoHistory}
    (hran : Ran requestId drvdata history) (hcompleted : drvdata.outTransfer.status = .completed)
    (hwhole : drvdata.outTransfer.actualLength = drvdata.outTransfer.length) :
    ∃ packet, examinedPackets history = [packet] ∧ Holding drvdata packet := by
  obtain ⟨before, submission, into, reply, rfl, hstatus, hlength, hout, hactual, hholding⟩ :=
    hran.last
  rw [examinedPackets_snoc]
  exact ⟨packetOf reply, if_pos ⟨hstatus, hout.symm.trans hcompleted,
    hactual.symm.trans (hwhole.trans hlength.symm)⟩, hholding⟩

/-- Another run leaves none. -/
theorem Ran.examined_of_unsent {drvdata : LibhothUsbFifo} {history : FifoHistory}
    (hran : Ran requestId drvdata history)
    (hunsent : drvdata.outTransfer.status = .completed →
      drvdata.outTransfer.actualLength ≠ drvdata.outTransfer.length) :
    examinedPackets history = [] := by
  obtain ⟨before, submission, into, reply, rfl, hstatus, hlength, hout, hactual, hholding⟩ :=
    hran.last
  rw [examinedPackets_snoc]
  exact if_neg fun hwhole ↦ hunsent (hout.trans hwhole.2.1)
    (hactual.trans (hwhole.2.2.trans hlength))

/-- An error before the loop, where no packet was looked at. -/
theorem ReceiveEnd.unanswered {history : FifoHistory} {out : FifoReceiveResult}
    (hpackets : examinedPackets history = []) (hstatus : out.status ≠ libhothOk)
    (hactual : out.actualSize = none) (hresponse : out.response = response)
    (hpending : out.drvdata.outTransfer.length = 0 ∨ EndsShort history) :
    ReceiveEnd requestId maxResponseSize response history out :=
  ⟨.failed (by rw [hpackets]; exact Nat.zero_le _) hstatus (hpackets ▸ not_answered_nil) hactual
    hresponse, hpending⟩

/-- A call with too large a buffer is refused. -/
theorem receive_of_oversized {maxResponseSize : ℕ}
    (hsize : libhothUsbFifoMaxRequestSize < maxResponseSize) (drvdata : LibhothUsbFifo)
    (timeoutMs : ℕ) (response : ℕ → UInt8) :
    libhothUsbFifoReceiveResponse drvdata maxResponseSize timeoutMs response =
      .done (.ok ⟨libusbErrorInvalidParam, none, response, drvdata⟩) :=
  if_pos hsize

/-- A call without a pending request is refused. -/
theorem receive_of_idle {maxResponseSize : ℕ}
    (hsize : maxResponseSize ≤ libhothUsbFifoMaxRequestSize) {drvdata : LibhothUsbFifo}
    (hidle : drvdata.outTransfer.length = 0) (timeoutMs : ℕ) (response : ℕ → UInt8) :
    libhothUsbFifoReceiveResponse drvdata maxResponseSize timeoutMs response =
      .done (.ok ⟨libusbErrorIo, none, response, drvdata⟩) := by
  rw [libhothUsbFifoReceiveResponse, if_neg hsize.not_gt, if_pos hidle, pure_eq_done]

/-- Every other call runs its transfers and ends in the contract. -/
theorem receive_ensures_of_pending {maxResponseSize : ℕ}
    (hsize : maxResponseSize ≤ libhothUsbFifoMaxRequestSize) {pendingData : LibhothUsbFifo}
    (hpending : pendingData.outTransfer.length ≠ 0) (timeoutMs : ℕ) (response : ℕ → UInt8) :
    Ensures recording
      (libhothUsbFifoReceiveResponse pendingData maxResponseSize timeoutMs response) []
      fun result history ↦ ∃ out, result = .ok out ∧
        ReceiveEnd (pendingId pendingData) maxResponseSize response history out := by
  rw [libhothUsbFifoReceiveResponse, if_neg hsize.not_gt, if_neg hpending]
  simp only [ensures_bind]
  refine (runBoth_ensures rfl rfl []).mono fun first history hfirst ↦ ?_
  obtain ⟨status, ran⟩ := first
  rcases hfirst with ⟨hfailed, hpackets⟩ | ⟨hok, hran⟩
  · rw [if_pos hfailed, pure_eq_done, ensures_done]
    exact ⟨_, rfl, .unanswered hpackets hfailed rfl rfl (.inl rfl)⟩
  rw [if_neg (not_not.mpr hok), ensures_bind]
  refine (recoverStall_ensures hran).mono fun second history hsecond ↦ ?_
  obtain ⟨status, drvdata⟩ := second
  rcases hsecond with ⟨hfailed, hpackets⟩ | ⟨hok, hran⟩
  · rw [if_pos hfailed, pure_eq_done, ensures_done]
    exact ⟨_, rfl, .unanswered hpackets hfailed rfl rfl (.inl rfl)⟩
  rw [if_neg (not_not.mpr hok)]
  by_cases hcompleted : drvdata.outTransfer.status = .completed
  · rw [if_neg (not_not.mpr hcompleted)]
    by_cases hwhole : drvdata.outTransfer.actualLength = drvdata.outTransfer.length
    · obtain ⟨packet, hpacket, hholding⟩ := hran.examined_of_whole hcompleted hwhole
      rw [if_neg (not_not.mpr hwhole)]
      refine whileDecreasing_ensures (Examining (pendingId pendingData) maxResponseSize)
        (fun state start hexamining ↦ ?_) _ _ ⟨Nat.zero_le _, hran.pending, hran.inLength, [],
          packet, hpacket, rfl, fun _ hearlier ↦ absurd hearlier List.not_mem_nil, hholding⟩
      refine (examineRound_ensures hexamining).mono fun outcome final hend ↦ ?_
      cases outcome <;> exact hend
    · have hunderflow : libhothErrOutUnderflow ≠ libhothOk := by decide
      rw [if_pos hwhole, pure_eq_done, ensures_done]
      refine ⟨_, rfl, .unanswered (hran.examined_of_unsent fun _ ↦ hwhole) hunderflow rfl rfl
        (.inr ?_)⟩
      obtain ⟨before, submission, into, reply, hhistory, hstatus, hlength, hout, hactual, -⟩ :=
        hran.last
      exact ⟨before, submission, into, reply, hhistory, hstatus, hout.symm.trans hcompleted,
        fun hsame ↦ hwhole (hactual.trans (hsame.trans hlength))⟩
  · rw [if_pos hcompleted, pure_eq_done, ensures_done]
    have herror : transferStatusToError drvdata.outTransfer.status ≠ libhothOk :=
      (transferStatusToError_eq_libhothOk_iff _).not.mpr hcompleted
    exact ⟨_, rfl, .unanswered (hran.examined_of_unsent fun hother ↦ absurd hother hcompleted)
      herror rfl rfl (.inl rfl)⟩

end Call

/-! ### The theorem -/

/-- For every driver data, every size of the caller's buffer and every history of a call: the call
stays in its buffers and succeeds exactly when the packets that it looked at are an answer to the
pending request, which it then delivers; otherwise it delivers nothing. -/
theorem libhothUsbFifoReceiveResponse_answers (drvdata : LibhothUsbFifo)
    (maxResponseSize timeoutMs : ℕ) (response : ℕ → UInt8) :
    Ensures recording
      (libhothUsbFifoReceiveResponse drvdata maxResponseSize timeoutMs response) []
      fun result history ↦ ∃ out, result = .ok out ∧
        ReceiveContract (pendingId drvdata) maxResponseSize response (examinedPackets history)
          out := by
  have hinvalid : libusbErrorInvalidParam ≠ libhothOk := by decide
  have hio : libusbErrorIo ≠ libhothOk := by decide
  rcases Nat.lt_or_ge libhothUsbFifoMaxRequestSize maxResponseSize with hlarge | hsize
  · rw [receive_of_oversized hlarge, ensures_done]
    exact ⟨_, rfl, .failed (Nat.zero_le _) hinvalid not_answered_nil rfl rfl⟩
  by_cases hidle : drvdata.outTransfer.length = 0
  · rw [receive_of_idle hsize hidle, ensures_done]
    exact ⟨_, rfl, .failed (Nat.zero_le _) hio not_answered_nil rfl rfl⟩
  · refine (receive_ensures_of_pending hsize hidle timeoutMs response).mono
      fun result history hend ↦ ?_
    obtain ⟨out, hresult, hend⟩ := hend
    exact ⟨out, hresult, hend.contract⟩

end Libhoth.Transports.UsbFifoReceive
