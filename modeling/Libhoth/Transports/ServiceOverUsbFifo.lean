import Libhoth.Transports.ServiceOverMailbox
import Libhoth.Transports.UsbDevice
import Libhoth.Transports.UsbFifoPrng
import Libhoth.Transports.UsbFifoReceive
import Libhoth.Transports.UsbFifoSession

/-!
# A service behind a USB FIFO

The root of trust reads requests from one FIFO and writes its responses to another, each behind the
ID of its request. The second one may hold packets that nobody has read, as of a process that died
in the middle of a host command. An endpoint may be halted before a request is taken, which then
stalls or is cancelled (`fifoChip`). What is left out is a halt of the IN endpoint behind a request
that was taken: the function submits both transfers again whatever became of the OUT transfer, so
such a request would be taken a second time (`recoverStall_resubmits`).

`fifoTransport` is the transport of `libhoth_usb_fifo.c`, with its driver data. When at most ten
packets are in front of each response and each is for another request, it carries the service, so a
program over host commands cannot tell them from the service itself, and leaves no request pending
(`runs_over_usb_fifo_iff`).
-/

set_option autoImplicit false
set_option relaxedAutoImplicit false

namespace Libhoth.Transports.ServiceOverUsbFifo

open Foundation.CellMemory Foundation.CheckedAccess Foundation.InteractingProgram
open Protocol.Status Protocol.HostCommand Protocol.HostCommandProgram Protocol.CommandService
open LibhothEc (statusInt Received)
open Libusb ServiceOverMailbox UsbDevice UsbFifo UsbFifoPrng UsbFifoReceive

/-! ### The root of trust -/

/-- The packets that wait to be read, the state of the service, and the halts of the endpoints: one
may be halted when a request comes, once for each request. -/
structure FifoChip (σ : Type) where
  waiting : List (List UInt8)
  state : σ
  haltedIn : Bool
  haltedOut : Bool
  mayHalt : Bool

/-- A packet that answers another request. -/
structure Foreign (requestId packet : List UInt8) : Prop where
  atLeast : libhothUsbFifoRequestIdSize ≤ packet.length
  atMost : packet.length ≤ libhothUsbFifoMtu
  other : packet.take libhothUsbFifoRequestIdSize ≠ requestId

section Chip

variable {σ : Type}

/-- No endpoint is halted. -/
def FifoChip.Open (chip : FifoChip σ) : Prop :=
  chip.haltedIn = false ∧ chip.haltedOut = false

/-- The packet that answers what was sent, and the state behind it. -/
def FifoChip.answer (service : Service σ) (chip : FifoChip σ) (data : List UInt8) :
    List UInt8 × σ :=
  let served := serveFrame service chip.state (data.drop libhothUsbFifoRequestIdSize)
  (data.take libhothUsbFifoRequestIdSize ++ served.1.bytes, served.2)

/-- A transfer reads the first packet that waits, and leaves the rest. -/
def HandsOut {inLength : ℕ} (reply : RunReply inLength) (rest : List (List UInt8)) :
    List (List UInt8) → Prop
  | [] => reply.inStatus = .timedOut ∧ reply.inBytes = [] ∧ rest = []
  | packet :: others =>
    reply.inStatus = .completed ∧ reply.inBytes = packet.take inLength ∧ rest = others

/-- A request is taken. Its answer goes behind the packets that wait, and behind others that came
in the meantime. -/
def FifoChip.Takes (service : Service σ) (before : FifoChip σ) (data : List UInt8) {inLength : ℕ}
    (reply : RunReply inLength) (after : FifoChip σ) : Prop :=
  before.Open ∧ reply.outStatus = .completed ∧ reply.outActualLength = data.length ∧
    ∃ early rest, (∀ packet ∈ early, Foreign (data.take libhothUsbFifoRequestIdSize) packet) ∧
      early.length ≤ maxStaleResponses - before.waiting.length ∧
      HandsOut reply rest (before.waiting ++ early ++ [(before.answer service data).1]) ∧
      after = ⟨rest, (before.answer service data).2, false, false, true⟩

/-- The endpoints of a chip are halted as before, or it has halted one of them. -/
inductive FifoChip.HaltsFrom (before : FifoChip σ) : FifoChip σ → Prop
  | asBefore (waiting : List (List UInt8)) (hclosed : ¬before.Open) :
    before.HaltsFrom { before with waiting := waiting }
  | halts (waiting : List (List UInt8)) (haltedIn haltedOut : Bool) (hmay : before.mayHalt = true)
    (hclosed : haltedIn = true ∨ haltedOut = true) :
    before.HaltsFrom ⟨waiting, before.state, haltedIn, haltedOut, false⟩

/-- A request meets a halted endpoint, or halts one, and is not taken: its transfer does not
complete. The transfer of an endpoint that is halted stalls. The other one may still have read a
packet before it was cancelled. -/
structure FifoChip.Stalls (before : FifoChip σ) {inLength : ℕ} (reply : RunReply inLength)
    (after : FifoChip σ) : Prop where
  halts : before.HaltsFrom after
  inStalls : after.haltedIn = true → reply.inStatus = .stall
  outStalls : after.haltedOut = true → reply.outStatus = .stall
  untaken : reply.outStatus ≠ .completed
  packets : HandsOut reply after.waiting before.waiting ∨
    reply.inStatus ≠ .completed ∧ after.waiting = before.waiting

/-- What the transfers meet. -/
def fifoChip (service : Service σ) (epIn epOut : UInt8) : Environment FifoReply (FifoChip σ) :=
    fun before call reply after ↦
  match call, reply with
  | .runTransfers (some out) _, reply =>
    reply.status = libhothOk ∧
      (before.Takes service out.data reply after ∨ before.Stalls reply after)
  | .runTransfers none _, reply => reply.status = libhothOk ∧ ∃ rest,
    HandsOut reply rest before.waiting ∧ after = { before with waiting := rest }
  | .clearHalt endpoint, status => status = libhothOk ∧ after = { before with
    haltedIn := before.haltedIn && endpoint != epIn
    haltedOut := before.haltedOut && endpoint != epOut }

theorem exists_handsOut (inLength : ℕ) (outStatus : LibusbTransferStatus) (outActualLength : ℕ)
    (waiting : List (List UInt8)) :
    ∃ reply : RunReply inLength, reply.status = libhothOk ∧ reply.outStatus = outStatus ∧
      reply.outActualLength = outActualLength ∧ ∃ rest, HandsOut reply rest waiting := by
  cases waiting with
  | nil => exact ⟨⟨libhothOk, outStatus, outActualLength, .timedOut, [], Nat.zero_le _⟩, rfl, rfl,
      rfl, [], rfl, rfl, rfl⟩
  | cons packet others =>
    exact ⟨⟨libhothOk, outStatus, outActualLength, .completed, packet.take inLength,
      List.length_take_le _ _⟩, rfl, rfl, rfl, others, rfl, rfl, rfl⟩

/-- Every call is answered. -/
theorem fifoChip_serial (service : Service σ) (epIn epOut : UInt8) (chip : FifoChip σ)
    (call : FifoCall) : ∃ reply next, fifoChip service epIn epOut chip call reply next := by
  match call with
  | .runTransfers (some out) into =>
    by_cases hopen : chip.Open
    · obtain ⟨reply, hstatus, hout, hlength, rest, hhands⟩ := exists_handsOut into.length .completed
        out.data.length (chip.waiting ++ [] ++ [(chip.answer service out.data).1])
      exact ⟨reply, _, hstatus, .inl ⟨hopen, hout, hlength, [], rest,
        fun _ hmem ↦ absurd hmem List.not_mem_nil, Nat.zero_le _, hhands, rfl⟩⟩
    · have hstall : LibusbTransferStatus.stall ≠ .completed := by decide
      exact ⟨⟨libhothOk, .stall, 0, .stall, [], Nat.zero_le _⟩, chip, rfl,
        .inr ⟨.asBefore _ hopen, fun _ ↦ rfl, fun _ ↦ rfl, hstall, .inr ⟨hstall, rfl⟩⟩⟩
  | .runTransfers none into =>
    obtain ⟨reply, hstatus, -, -, rest, hhands⟩ :=
      exists_handsOut into.length .completed 0 chip.waiting
    exact ⟨reply, _, hstatus, rest, hhands, rfl⟩
  | .clearHalt endpoint => exact ⟨libhothOk, _, rfl, rfl⟩

end Chip

/-! ### The transport -/

/-- The driver data, and the root of trust. -/
structure FifoBoard (σ : Type) where
  drvdata : LibhothUsbFifo
  chip : FifoChip σ

/-- What a receive hands on. -/
def receivedResult : Except Fault FifoReceiveResult → Received
  | .error _ => ⟨usbErrLibhoth (statusInt .fail), fun _ ↦ 0, none⟩
  | .ok out => ⟨wrapUsbErr out.status, out.response, out.actualSize⟩

/-- The driver data that a receive leaves. -/
def receivedDrvdata (drvdata : LibhothUsbFifo) : Except Fault FifoReceiveResult → LibhothUsbFifo
  | .error _ => drvdata
  | .ok out => out.drvdata

/-- What a transport call meets at a board. -/
def fifoTransport {σ : Type} (service : Service σ) : Environment TransportReply (FifoBoard σ) :=
    fun before call reply after ↦
  match call, reply with
  | .send request, err =>
    err = wrapUsbErr (libhothUsbFifoSendRequest before.drvdata request).1 ∧
      after = ⟨(libhothUsbFifoSendRequest before.drvdata request).2, before.chip⟩
  | .receive maxResponseSize timeoutMs, reply => ∃ result chip,
    Runs (fifoChip service before.drvdata.epIn before.drvdata.epOut)
        (libhothUsbFifoReceiveResponse before.drvdata maxResponseSize timeoutMs fun _ ↦ 0)
        before.chip result chip ∧
      reply = receivedReply (receivedResult result) maxResponseSize ∧
        after = ⟨receivedDrvdata before.drvdata result, chip⟩

section Board

variable {σ : Type} {service : Service σ}

/-- What the pending transfer sends. -/
def pendingData (drvdata : LibhothUsbFifo) : List UInt8 :=
  load drvdata.outBuffer 0 drvdata.outTransfer.length

/-- What is seen of a board: a pending request counts as served. -/
def FifoBoard.served (service : Service σ) (board : FifoBoard σ) : ResponseFrame × σ :=
  if board.drvdata.outTransfer.length = 0 then (badRequest.frame, board.chip.state)
  else serveFrame service board.chip.state
    ((pendingData board.drvdata).drop libhothUsbFifoRequestIdSize)

theorem served_of_idle {board : FifoBoard σ} (hidle : board.drvdata.outTransfer.length = 0) :
    (board.served service).2 = board.chip.state := by
  rw [FifoBoard.served, if_pos hidle]

/-- At most ten packets wait, each for another request. -/
structure Waiting (requestId : List UInt8) (chip : FifoChip σ) : Prop where
  unhalted : chip.Open
  foreign : ∀ packet ∈ chip.waiting, Foreign requestId packet
  few : chip.waiting.length ≤ maxStaleResponses

/-- Nothing is pending, and what waits is not for the next request. -/
structure FifoBoard.Sound (board : FifoBoard σ) : Prop where
  idle : board.drvdata.outTransfer.length = 0
  waiting : Waiting (drawnId board.drvdata.prngState) board.chip

/-- A request is pending, and what waits is not for it. -/
structure FifoBoard.Ready (board : FifoBoard σ) : Prop where
  pending : libhothUsbFifoRequestIdSize ≤ board.drvdata.outTransfer.length
  fits : board.drvdata.outTransfer.length ≤ libhothUsbFifoMtu
  waiting : Waiting (pendingId board.drvdata) board.chip

/-- The request ID is what the pending transfer starts with. -/
theorem take_pendingData {drvdata : LibhothUsbFifo}
    (hpending : libhothUsbFifoRequestIdSize ≤ drvdata.outTransfer.length) :
    (pendingData drvdata).take libhothUsbFifoRequestIdSize = pendingId drvdata := by
  rw [pendingData, ← Nat.add_sub_cancel' hpending, load_add, List.take_left' (length_load _ _ _),
    pendingId]

theorem pending_ne_zero {length : ℕ} (hpending : libhothUsbFifoRequestIdSize ≤ length) :
    length ≠ 0 :=
  (Nat.lt_of_lt_of_le (by decide) hpending).ne'

/-- A request that fits is pending after it was sent, behind the next request ID. -/
theorem libhothUsbFifoSendRequest_pending (drvdata : LibhothUsbFifo) {requestData : List UInt8}
    (hshort : requestData.length ≤ libhothUsbFifoMaxRequestSize) :
    ∃ next, libhothUsbFifoSendRequest drvdata requestData = (libhothOk, next) ∧
      next.outTransfer.length = libhothUsbFifoRequestIdSize + requestData.length ∧
        pendingData next = drawnId drvdata.prngState ++ requestData := by
  have hid : (drawnId drvdata.prngState).length = libhothUsbFifoRequestIdSize :=
    length_randomBytes _ _
  have hbuffer := store_store_append drvdata.outBuffer 0 (drawnId drvdata.prngState) requestData
  have hdata := load_store_self drvdata.outBuffer 0 (drawnId drvdata.prngState ++ requestData)
  rw [Nat.zero_add, hid] at hbuffer
  rw [List.length_append, hid, ← hbuffer] at hdata
  exact ⟨_, if_neg hshort.not_gt, rfl, hdata⟩

/-- A send leads from a sound board to one that is ready. -/
theorem send_ready {before : FifoBoard σ} (hsound : before.Sound) {request : List UInt8}
    (hshort : request.length ≤ libhothMailboxSize) {err : LibhothError} {after : FifoBoard σ}
    (hsend : fifoTransport service before (.send request) err after) :
    err = hothSuccess ∧
      after.served service = serveFrame service (before.served service).2 request ∧
        after.Ready := by
  obtain ⟨rfl, rfl⟩ := hsend
  obtain ⟨next, hnext, hlength, hdata⟩ := libhothUsbFifoSendRequest_pending before.drvdata hshort
  have hid : (drawnId before.drvdata.prngState).length = libhothUsbFifoRequestIdSize :=
    length_randomBytes _ _
  have hpending : libhothUsbFifoRequestIdSize ≤ next.outTransfer.length :=
    hlength ▸ Nat.le_add_right _ _
  have hsent : pendingId next = drawnId before.drvdata.prngState := by
    rw [← take_pendingData hpending, hdata, List.take_left' hid]
  rw [hnext]
  refine ⟨(wrapUsbErr_eq_success_iff _).mpr rfl, ?_, hpending, ?_, hsent ▸ hsound.waiting⟩
  · rw [FifoBoard.served, if_neg (pending_ne_zero hpending), served_of_idle hsound.idle,
      hdata, List.drop_left' hid]
  · dsimp only
    rw [hlength]
    exact Nat.add_le_add_left hshort _

/-! ### Receiving -/

variable {epIn epOut : UInt8} {requestId answer : List UInt8} {served : σ} {response : ℕ → UInt8}

/-- A run of the transfers is one call. -/
theorem runTransfers_ensures_iff {τ : Type} {environment : Environment FifoReply τ}
    (drvdata : LibhothUsbFifo) (out : Bool) (before : τ)
    (post : ℤ × LibhothUsbFifo → τ → Prop) :
    Ensures environment (libhothUsbFifoRunTransfers drvdata out) before post ↔
      ∀ reply after, environment before (.runTransfers
          (if out then some drvdata.outSubmission else none) drvdata.inSubmission) reply after →
        post (reply.status, drvdata.settle out reply) after := by
  simp only [libhothUsbFifoRunTransfers, ensures_bind, ensures_request, pure_eq_done, ensures_done]

/-- The packet of a request. -/
structure Answers (requestId packet : List UInt8) : Prop where
  atLeast : libhothUsbFifoRequestIdSize ≤ packet.length
  atMost : packet.length ≤ libhothUsbFifoMtu
  same : packet.take libhothUsbFifoRequestIdSize = requestId

/-- A receive at a packet: it is followed by the others that wait, the last one is the answer, and
those before it are few enough. -/
structure Reading (requestId answer : List UInt8) (served : σ) (state : ExamineState)
    (chip : FifoChip σ) : Prop where
  unhalted : chip.Open
  served : chip.state = served
  pending : pendingId state.drvdata = requestId
  inLength : state.drvdata.inTransfer.length = libhothUsbFifoMtu
  packets : ∃ packet stale, packet :: chip.waiting = stale ++ [answer] ∧
    Holding state.drvdata ⟨.completed, packet⟩ ∧ (∀ other ∈ stale, Foreign requestId other) ∧
      state.attempt + stale.length ≤ maxStaleResponses

/-- A receive that returned the answer, and has read every packet. -/
structure Delivered (answer : List UInt8) (served : σ) (response : ℕ → UInt8)
    (chip : FifoChip σ) (out : FifoReceiveResult) : Prop where
  status : out.status = libhothOk
  actualSize : out.actualSize = some (answer.drop libhothUsbFifoRequestIdSize).length
  response : out.response = store response 0 (answer.drop libhothUsbFifoRequestIdSize)
  idle : out.drvdata.outTransfer.length = 0
  unhalted : chip.Open
  read : chip.waiting = []
  served : chip.state = served

/-- A transfer that reads a packet of the size of its buffer holds it whole. -/
theorem holding_of_handsOut {drvdata : LibhothUsbFifo} (out : Bool)
    (hlength : drvdata.inTransfer.length = libhothUsbFifoMtu)
    {reply : RunReply drvdata.inSubmission.length} {rest others : List (List UInt8)}
    {packet : List UInt8} (hfits : packet.length ≤ libhothUsbFifoMtu)
    (hhands : HandsOut reply rest (packet :: others)) :
    Holding (drvdata.settle out reply) ⟨.completed, packet⟩ ∧ rest = others := by
  obtain ⟨hstatus, hbytes, hrest⟩ := hhands
  have hholding := holding_settle out hlength reply
  have hwhole : packet.take drvdata.inSubmission.length = packet :=
    List.take_of_length_le (hfits.trans hlength.ge)
  rw [packetOf, hstatus, hbytes, hwhole] at hholding
  exact ⟨hholding, hrest⟩

/-- When packets of other requests and the answer are to be read, there is a next packet. -/
theorem Answers.exists_next (hanswers : Answers requestId answer)
    {others waiting : List (List UInt8)} (hothers : ∀ other ∈ others, Foreign requestId other)
    (hwaiting : waiting = others ++ [answer]) :
    ∃ next behind, waiting = next :: behind ∧ next.length ≤ libhothUsbFifoMtu := by
  cases others with
  | nil => exact ⟨answer, [], hwaiting, hanswers.atMost⟩
  | cons next others =>
    exact ⟨next, others ++ [answer], hwaiting, (hothers next List.mem_cons_self).atMost⟩

/-- One round takes the answer, or reads the next packet. -/
theorem examineRound_ensures_chip (hanswers : Answers requestId answer) {state : ExamineState}
    {chip : FifoChip σ} (hreading : Reading requestId answer served state chip) :
    Ensures (fifoChip service epIn epOut) (examineRound libhothMailboxSize response state) chip
      fun outcome final ↦ match outcome with
        | .inl next => Reading requestId answer served next.val final
        | .inr result => ∃ out, result = .ok out ∧
            Delivered answer served response final out := by
  obtain ⟨hopen, hserved, hpending, hinLength, packet, stale, hpackets, hholding, hforeign, hfew⟩ :=
    hreading
  obtain ⟨outcome, houtcome, hexamined⟩ :=
    examinePacket_cases hholding libhothMailboxSize response
  unfold examineRound
  simp only [houtcome]
  cases stale with
  | nil =>
    obtain ⟨rfl, hwaiting⟩ := List.cons.inj hpackets
    cases hexamined with
    | stale hfits hother => exact absurd (hanswers.same.trans hpending.symm) hother
    | failed status hstatus hunfit =>
      exact absurd ⟨rfl, hanswers.atLeast, hanswers.atMost⟩ hunfit
    | answer hfits hsame =>
      exact (ensures_done _ _ _).mpr ⟨_, rfl, rfl, rfl, rfl, rfl, hopen, hwaiting, hserved⟩
  | cons first others =>
    obtain ⟨rfl, hwaiting⟩ := List.cons.inj hpackets
    have hfirst := hforeign packet List.mem_cons_self
    cases hexamined with
    | failed status hstatus hunfit =>
      exact absurd ⟨rfl, hfirst.atLeast, hfirst.atMost⟩ hunfit
    | answer hfits hsame => exact absurd (hsame.trans hpending) hfirst.other
    | stale hfits hother =>
      rw [List.length_cons] at hfew
      have hattempt : ¬state.attempt ≥ maxStaleResponses := by omega
      simp only [dif_neg hattempt, ensures_bind, runTransfers_ensures_iff]
      rintro reply after ⟨hstatus, rest, hhands, rfl⟩
      rw [if_neg (not_not.mpr hstatus)]
      have hothers : ∀ other ∈ others, Foreign requestId other :=
        fun other hmem ↦ hforeign other (List.mem_cons_of_mem _ hmem)
      obtain ⟨next, behind, hnext, hfits⟩ := hanswers.exists_next hothers hwaiting
      rw [hnext] at hhands
      obtain ⟨hnextHolding, rfl⟩ := holding_of_handsOut false hinLength hfits hhands
      exact (ensures_done _ _ _).mpr ⟨hopen, hserved, hpending, hinLength, next, others,
        hnext.symm.trans hwaiting, hnextHolding, hothers, by dsimp only; omega⟩

/-- The transfers that a receive submits, for what is sent. -/
structure Submitting (epIn epOut : UInt8) (data : List UInt8) (drvdata : LibhothUsbFifo) :
    Prop where
  pending : libhothUsbFifoRequestIdSize ≤ drvdata.outTransfer.length
  data : pendingData drvdata = data
  inLength : drvdata.inTransfer.length = libhothUsbFifoMtu
  epIn : drvdata.epIn = epIn
  epOut : drvdata.epOut = epOut

theorem Submitting.settle {data : List UInt8} {drvdata : LibhothUsbFifo}
    (hsubmitting : Submitting epIn epOut data drvdata)
    (reply : RunReply drvdata.inSubmission.length) :
    Submitting epIn epOut data (drvdata.settle true reply) :=
  ⟨hsubmitting.pending, hsubmitting.data, hsubmitting.inLength, hsubmitting.epIn,
    hsubmitting.epOut⟩

/-- The request was taken, and the first packet was read. -/
structure Taken (service : Service σ) (chip : FifoChip σ) (data : List UInt8)
    (drvdata : LibhothUsbFifo) (final : FifoChip σ) : Prop where
  completed : drvdata.outTransfer.status = .completed
  whole : drvdata.outTransfer.actualLength = drvdata.outTransfer.length
  reading : Reading (data.take libhothUsbFifoRequestIdSize) (chip.answer service data).1
    (chip.answer service data).2 ⟨0, drvdata⟩ final

/-- An endpoint was halted, and the request was not taken. -/
structure Halted (chip : FifoChip σ) (drvdata : LibhothUsbFifo) (final : FifoChip σ) : Prop where
  stall : drvdata.inTransfer.status = .stall ∨ drvdata.outTransfer.status = .stall
  waiting : final.waiting <:+ chip.waiting
  state : final.state = chip.state
  spent : chip.mayHalt = true ∧ final.mayHalt = false

/-- What a transfer reads comes off the front of what waits. -/
theorem HandsOut.isSuffix {inLength : ℕ} {reply : RunReply inLength}
    {rest waiting : List (List UInt8)} (hhands : HandsOut reply rest waiting) :
    rest <:+ waiting := by
  cases waiting with
  | nil =>
    obtain ⟨-, -, rfl⟩ := hhands
    exact List.suffix_rfl
  | cons packet others =>
    obtain ⟨-, -, rfl⟩ := hhands
    exact List.suffix_cons packet rest

/-- A request that stalls at open endpoints has halted one of them. -/
theorem FifoChip.Stalls.halted {chip : FifoChip σ} (hopen : chip.Open) {drvdata : LibhothUsbFifo}
    {reply : RunReply drvdata.inSubmission.length} {after : FifoChip σ}
    (hstalls : chip.Stalls reply after) : Halted chip (drvdata.settle true reply) after := by
  have hwaiting : after.waiting <:+ chip.waiting := by
    rcases hstalls.packets with hhands | ⟨-, hkept⟩
    · exact hhands.isSuffix
    · exact hkept ▸ List.suffix_rfl
  have hin := hstalls.inStalls
  have hout := hstalls.outStalls
  cases hstalls.halts with
  | asBefore waiting hclosed => exact absurd hopen hclosed
  | halts waiting haltedIn haltedOut hmay hclosed =>
    exact ⟨hclosed.imp hin hout, hwaiting, rfl, hmay, rfl⟩

/-- Both transfers run: the request is taken and the first packet read, or an endpoint is halted. -/
theorem runBoth_ensures_chip {data : List UInt8} {drvdata : LibhothUsbFifo} {chip : FifoChip σ}
    (hsubmitting : Submitting epIn epOut data drvdata)
    (hanswers : Answers (data.take libhothUsbFifoRequestIdSize) (chip.answer service data).1)
    (hwaiting : Waiting (data.take libhothUsbFifoRequestIdSize) chip) :
    Ensures (fifoChip service epIn epOut) (libhothUsbFifoRunTransfers drvdata true) chip
      fun outcome final ↦ outcome.1 = libhothOk ∧ Submitting epIn epOut data outcome.2 ∧
        (Taken service chip data outcome.2 final ∨ Halted chip outcome.2 final) := by
  rw [runTransfers_ensures_iff]
  rintro reply after ⟨hstatus, htakes | hstalls⟩
  all_goals have hsettled := hsubmitting.settle reply
  · have hdata : drvdata.outSubmission.data = data := hsubmitting.data
    obtain ⟨-, houtStatus, houtLength, early, rest, hearly, hfew, hhands, rfl⟩ := htakes
    rw [hdata] at hearly hhands
    have hothers : ∀ other ∈ chip.waiting ++ early,
        Foreign (data.take libhothUsbFifoRequestIdSize) other := by
      intro other hmem
      rcases List.mem_append.mp hmem with hwaits | hcame
      · exact hwaiting.foreign other hwaits
      · exact hearly other hcame
    obtain ⟨next, behind, hnext, hfits⟩ := hanswers.exists_next hothers rfl
    rw [hnext] at hhands
    obtain ⟨hholding, rfl⟩ := holding_of_handsOut true hsubmitting.inLength hfits hhands
    refine ⟨hstatus, hsettled, .inl ⟨houtStatus, ?_, ⟨⟨rfl, rfl⟩, ?_, ?_, hsubmitting.inLength,
      next, chip.waiting ++ early, hnext.symm, hholding, hothers, ?_⟩⟩⟩
    · exact houtLength.trans (length_load _ _ _)
    · dsimp only
      rw [hdata]
    · exact (take_pendingData hsettled.pending).symm.trans (congrArg _ hsettled.data)
    · have hmost := hwaiting.few
      dsimp only
      rw [List.length_append]
      omega
  · exact ⟨hstatus, hsettled, .inr (hstalls.halted hwaiting.unhalted)⟩

/-- The root of trust after the halts were cleared, with the packets that still wait. -/
def FifoChip.reopened (chip : FifoChip σ) (waiting : List (List UInt8)) : FifoChip σ :=
  ⟨waiting, chip.state, false, false, false⟩

/-- What still waits is as good as what waited before. -/
theorem Waiting.reopened {chip : FifoChip σ} (hwaiting : Waiting requestId chip)
    {waiting : List (List UInt8)} (hsuffix : waiting <:+ chip.waiting) :
    Waiting requestId (chip.reopened waiting) where
  unhalted := ⟨rfl, rfl⟩
  foreign := fun packet hmem ↦ hwaiting.foreign packet (hsuffix.mem hmem)
  few := hsuffix.length_le.trans hwaiting.few

/-- After a stall of the IN transfer both transfers are submitted again, whatever became of the
request. -/
theorem recoverStall_resubmits (drvdata : LibhothUsbFifo)
    (hstall : drvdata.inTransfer.status = .stall) :
    Ensures recording (recoverStall drvdata) [] fun outcome history ↦ outcome.1 = libhothOk →
      ∃ reply, history = [⟨.clearHalt drvdata.epIn, libhothOk⟩,
        ⟨.clearHalt drvdata.epOut, libhothOk⟩,
        ⟨.runTransfers (some drvdata.outSubmission) drvdata.inSubmission, reply⟩] := by
  rw [recoverStall, if_pos (.inl hstall)]
  simp only [ensures_bind, ensures_request]
  rintro status first rfl
  split_ifs with hfailed
  · exact (ensures_done _ _ _).mpr fun hok ↦ absurd hok hfailed
  obtain rfl := not_not.mp hfailed
  simp only [ensures_bind, ensures_request]
  rintro status second rfl
  split_ifs with hfailed
  · exact (ensures_done _ _ _).mpr fun hok ↦ absurd hok hfailed
  obtain rfl := not_not.mp hfailed
  rw [runTransfers_ensures_iff]
  rintro reply third rfl -
  exact ⟨reply, rfl⟩

/-- After a halt the transfers run again, so the request is taken either way. -/
theorem recoverStall_ensures_chip {data : List UInt8} {drvdata : LibhothUsbFifo}
    {chip middle : FifoChip σ} (hsubmitting : Submitting epIn epOut data drvdata)
    (hanswers : Answers (data.take libhothUsbFifoRequestIdSize) (chip.answer service data).1)
    (hwaiting : Waiting (data.take libhothUsbFifoRequestIdSize) chip)
    (hran : Taken service chip data drvdata middle ∨ Halted chip drvdata middle) :
    Ensures (fifoChip service epIn epOut) (recoverStall drvdata) middle fun outcome final ↦
      outcome.1 = libhothOk ∧ Taken service chip data outcome.2 final := by
  rw [recoverStall]
  rcases hran with htaken | hhalted
  · obtain ⟨packet, stale, -, hholding, -⟩ := htaken.reading.packets
    have hstatus := hholding.status
    have hrunning :
        ¬(drvdata.inTransfer.status = .stall ∨ drvdata.outTransfer.status = .stall) := by
      rw [hstatus, htaken.completed]
      simp
    rw [if_neg hrunning]
    exact (ensures_done _ _ _).mpr ⟨rfl, htaken⟩
  · rw [if_pos hhalted.stall]
    simp only [ensures_bind, ensures_request]
    rintro _ halfCleared ⟨rfl, hhalf⟩
    rw [if_neg (not_not.mpr rfl)]
    simp only [ensures_bind, ensures_request]
    rintro _ cleared ⟨rfl, hcleared⟩
    rw [if_neg (not_not.mpr rfl)]
    obtain rfl : cleared = chip.reopened middle.waiting := by
      rw [hcleared, hhalf, hsubmitting.epIn, hsubmitting.epOut, FifoChip.reopened, ← hhalted.state]
      simp [hhalted.spent.2]
    have hreopened := hwaiting.reopened hhalted.waiting
    have hanswered : Answers (data.take libhothUsbFifoRequestIdSize)
        ((chip.reopened middle.waiting).answer service data).1 := hanswers
    refine (runBoth_ensures_chip hsubmitting hanswered hreopened).mono ?_
    rintro outcome final ⟨hstatus, -, htaken | hagain⟩
    · exact ⟨hstatus, htaken.completed, htaken.whole, htaken.reading⟩
    · exact absurd hagain.spent.1 Bool.false_ne_true

/-- The packet that answers what was sent. -/
theorem answers_answer (service : Service σ) (chip : FifoChip σ) {data : List UInt8}
    (hlength : libhothUsbFifoRequestIdSize ≤ data.length) :
    Answers (data.take libhothUsbFifoRequestIdSize) (chip.answer service data).1 := by
  have hid : (data.take libhothUsbFifoRequestIdSize).length = libhothUsbFifoRequestIdSize :=
    List.length_take_of_le hlength
  refine ⟨?_, ?_, List.take_left' hid⟩
  · rw [FifoChip.answer, List.length_append, hid]
    exact Nat.le_add_right _ _
  · rw [FifoChip.answer, List.length_append, hid]
    exact Nat.add_le_add_left (ResponseFrame.short _) _

/-- A receive for a pending request returns its answer. -/
theorem libhothUsbFifoReceiveResponse_ensures_chip {drvdata : LibhothUsbFifo} {chip : FifoChip σ}
    (hready : FifoBoard.Ready ⟨drvdata, chip⟩) (timeoutMs : ℕ) (response : ℕ → UInt8) :
    Ensures (fifoChip service drvdata.epIn drvdata.epOut)
      (libhothUsbFifoReceiveResponse drvdata libhothMailboxSize timeoutMs response) chip
      fun result final ↦ ∃ out, result = .ok out ∧
        Delivered (chip.answer service (pendingData drvdata)).1
          (chip.answer service (pendingData drvdata)).2 response final out := by
  have hlength : libhothUsbFifoRequestIdSize ≤ (pendingData drvdata).length :=
    hready.pending.trans (length_load _ _ _).ge
  have hanswers := answers_answer service chip hlength
  have hwaiting : Waiting ((pendingData drvdata).take libhothUsbFifoRequestIdSize) chip :=
    (take_pendingData hready.pending).symm ▸ hready.waiting
  have hsize : ¬libhothMailboxSize > libhothUsbFifoMaxRequestSize := by decide
  rw [libhothUsbFifoReceiveResponse, if_neg hsize, if_neg (pending_ne_zero hready.pending)]
  dsimp only
  have hsubmitting : Submitting drvdata.epIn drvdata.epOut (pendingData drvdata) { drvdata with
      inTransfer := drvdata.inTransfer.fill drvdata.epIn libhothUsbFifoMtu timeoutMs
      outTransfer := { drvdata.outTransfer with timeoutMs := timeoutMs } } :=
    ⟨hready.pending, rfl, rfl, rfl, rfl⟩
  refine (ensures_bind _ _ _ _).mpr ?_
  refine (runBoth_ensures_chip hsubmitting hanswers hwaiting).mono ?_
  rintro ⟨status, ran⟩ middle ⟨rfl, hran, htransfers⟩
  rw [if_neg (not_not.mpr rfl)]
  refine (ensures_bind _ _ _ _).mpr ?_
  refine (recoverStall_ensures_chip hran hanswers hwaiting htransfers).mono ?_
  rintro ⟨status, recovered⟩ taken ⟨rfl, htaken⟩
  rw [if_neg (not_not.mpr rfl)]
  dsimp only
  rw [if_neg (not_not.mpr htaken.completed), if_neg (not_not.mpr htaken.whole)]
  refine whileDecreasing_ensures (Reading _ _ _) ?_ _ _ htaken.reading
  intro state chip hreading
  refine (examineRound_ensures_chip hanswers hreading).mono fun outcome final hend ↦ ?_
  cases outcome <;> exact hend

/-- The frame of an answer is what a delivered receive hands on. -/
theorem receivedReply_of_delivered {frame : ResponseFrame} {chip : FifoChip σ}
    {out : FifoReceiveResult}
    (hanswer : answer.drop libhothUsbFifoRequestIdSize = frame.bytes)
    (hdelivered : Delivered answer served response chip out) :
    receivedReply (receivedResult (.ok out)) libhothMailboxSize =
      .received frame.bytes frame.short := by
  have hsuccess : wrapUsbErr out.status = hothSuccess :=
    (wrapUsbErr_eq_success_iff _).mpr hdelivered.status
  have hactualSize := hdelivered.actualSize
  have hresponse := hdelivered.response
  rw [hanswer] at hactualSize hresponse
  rw [receivedReply, receivedResult, dif_pos hsuccess]
  simp only [hactualSize, hresponse, Option.getD_some, load_store_self, frame.short, dite_true]

/-- A receive leads from a board that is ready to a sound one, with the answer. -/
theorem receive_sound {before : FifoBoard σ} (hready : before.Ready) {timeoutMs : ℕ}
    {reply : ReceiveReply libhothMailboxSize} {after : FifoBoard σ}
    (hreceive : fifoTransport service before (.receive libhothMailboxSize timeoutMs) reply after) :
    reply = .received (before.served service).1.bytes (before.served service).1.short ∧
      (after.served service).2 = (before.served service).2 ∧ after.Sound := by
  obtain ⟨result, chip, hrun, rfl, rfl⟩ := hreceive
  obtain ⟨out, rfl, hdelivered⟩ :=
    libhothUsbFifoReceiveResponse_ensures_chip hready timeoutMs _ _ _ hrun
  have hserved : before.served service = serveFrame service before.chip.state
      ((pendingData before.drvdata).drop libhothUsbFifoRequestIdSize) :=
    if_neg (pending_ne_zero hready.pending)
  have hid : ((pendingData before.drvdata).take libhothUsbFifoRequestIdSize).length =
      libhothUsbFifoRequestIdSize :=
    List.length_take_of_le (hready.pending.trans (length_load _ _ _).ge)
  have hanswer : ((before.chip.answer service (pendingData before.drvdata)).1).drop
      libhothUsbFifoRequestIdSize = (before.served service).1.bytes := by
    rw [hserved, FifoChip.answer, List.drop_left' hid]
  refine ⟨receivedReply_of_delivered hanswer hdelivered, ?_, hdelivered.idle,
    hdelivered.unhalted, ?_, ?_⟩
  · refine (served_of_idle hdelivered.idle).trans ?_
    rw [hserved]
    exact hdelivered.served
  · rw [hdelivered.read]
    exact fun _ hmem ↦ absurd hmem List.not_mem_nil
  · rw [hdelivered.read]
    exact Nat.zero_le _

/-- The USB FIFO transport carries the service. -/
theorem fifoTransport_carries (service : Service σ) :
    Carries (fifoTransport service) service (fun board ↦ (board.served service).2)
      (fun board ↦ (board.served service).1) FifoBoard.Sound FifoBoard.Ready where
  serial board call := by
    cases call with
    | send request => exact ⟨_, _, rfl, rfl⟩
    | receive maxResponseSize timeoutMs =>
      obtain ⟨result, chip, hrun⟩ := Runs.exists_of_serial
        (fifoChip_serial service board.drvdata.epIn board.drvdata.epOut)
        (libhothUsbFifoReceiveResponse board.drvdata maxResponseSize timeoutMs fun _ ↦ 0) board.chip
      exact ⟨_, _, result, chip, hrun, rfl, rfl⟩
  send _ _ _ _ hsound _ hshort hsend := send_ready hsound hshort hsend
  receive _ _ _ _ hready hreceive := receive_sound hready hreceive

end Board

/-- Over a USB FIFO a program over host commands does what it does at the service itself, whatever
packets for other requests are in front of the answers, up to ten, and with a halt before any
request: its results and the states in which it leaves the root of trust are the same, and no
request is pending behind it. -/
theorem runs_over_usb_fifo_iff {σ α : Type} (service : Service σ) (program : HostProgram α)
    (board : FifoBoard σ) (hsound : board.Sound) (result : α) (final : σ) :
    ((∃ after, Runs (fifoTransport service) (interpret execOnTransport program) board result
        after ∧ after.chip.state = final) ↔
      Runs (serviceEnvironment service) program board.chip.state result final) ∧
    ∀ after, Runs (fifoTransport service) (interpret execOnTransport program) board result after →
      after.Sound := by
  have hkeeps : ∀ after, Runs (fifoTransport service) (interpret execOnTransport program) board
      result after → after.Sound :=
    fun after hrun ↦ interpret_execOnTransport_ensures (fifoTransport_carries service) program
      hsound result after hrun
  refine ⟨?_, hkeeps⟩
  have hstate : (board.served service).2 = board.chip.state := served_of_idle hsound.idle
  rw [← hstate, ← runs_service_iff (fifoTransport_carries service) program hsound result final]
  refine exists_congr fun after ↦ and_congr_right fun hrun ↦ ?_
  rw [served_of_idle (hkeeps after hrun).idle]

/-- An opened device with a packet of zeros in front of the first answer. -/
def boardWithPacket : FifoBoard ℕ :=
  ⟨UsbFifoSession.openDevice,
    ⟨[List.replicate libhothUsbFifoRequestIdSize 0], 0, false, false, true⟩⟩

theorem sound_boardWithPacket : boardWithPacket.Sound where
  idle := rfl
  waiting := by
    refine ⟨⟨rfl, rfl⟩, ?_, by decide⟩
    intro packet hmem
    obtain rfl := List.mem_singleton.mp hmem
    exact ⟨by decide, by decide, by decide⟩

/-- One command behind a packet that nobody has read. -/
theorem runs_over_usb_fifo_fourBytes :
    ∃ after, Runs (fifoTransport countingService) (interpret execOnTransport (request fourBytes))
        boardWithPacket (badRequest.reply fourBytes) after ∧
      after.chip.state = 1 ∧ after.Sound := by
  have hover := runs_over_usb_fifo_iff countingService (request fourBytes) boardWithPacket
    sound_boardWithPacket (badRequest.reply fourBytes) 1
  obtain ⟨after, hrun, hstate⟩ := hover.1.mpr ((runs_request _ _ _ _).mpr countingService_fourBytes)
  exact ⟨after, hrun, hstate, hover.2 after hrun⟩

end Libhoth.Transports.ServiceOverUsbFifo
