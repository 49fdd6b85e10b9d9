import Libhoth.Transports.UsbFifoPrng
import Libhoth.Transports.UsbFifoSession
import Libhoth.Transports.UsbReconnect

/-!
# Request IDs over a session

A device that `libhoth_usb_fifo_open` opened has a generator whose state is not zero, and each
request takes its ID from the generator (`pendingId_of_requested`). Nothing else steps the
generator or changes the ID: `Kept` is what the calls between two requests leave, and what they
submit.

`requestIds_tellApart` says that the IDs of two requests in a row differ, and that an ID comes back
only with the state of the generator that it was drawn from.
-/

set_option autoImplicit false
set_option relaxedAutoImplicit false

namespace Libhoth.Transports.UsbFifoRequestIds

open Foundation.ByteString Foundation.CellMemory Foundation.CheckedAccess
open Foundation.InteractingProgram Libusb UsbDevice UsbFifo UsbFifoPrng UsbFifoReceive
open UsbFifoSession UsbReconnect

/-! ### Opening -/

/-- The offset of `prng_state` in the union. -/
def prngStateField : ℕ := 48

/-- An environment that admits every reply. -/
def anyReplies : Environment UsbDeviceReply Unit :=
  fun _ _ _ _ ↦ True

/-- Driver data after a call of `libhoth_usb_fifo_open` that succeeded: its endpoints and its
generator are those of the union. -/
def Opened (drvdata : LibhothUsbFifo) : Prop :=
  ∃ type cells endpoints prngSeed union,
    Runs anyReplies (fifoOpen type cells endpoints prngSeed) () (libhothOk, union) () ∧
      (loadEndpoints union fifoFields).epIn = drvdata.epIn ∧
      (loadEndpoints union fifoFields).epOut = drvdata.epOut ∧
      loadWord union prngStateField 4 = drvdata.prngState.toNat

theorem quiet_anyReplies : Quiet anyReplies :=
  fun _ _ _ _ _ _ ↦ rfl

/-- The seed is stored when the allocations succeed. -/
theorem fifoAllocate_ensures (cells : ℕ → UInt8) (prngSeed : UInt32) :
    Ensures anyReplies (fifoAllocate cells prngSeed) () fun opened _ ↦
      opened.1 = libhothOk → loadWord opened.2 prngStateField 4 = prngSeed.toNat := by
  have hstatus : libhothErrMallocFailed ≠ libhothOk := by decide
  unfold fifoAllocate
  rw [ensures_bind, ensures_request]
  rintro inTransfer _ -
  rw [ensures_bind, ensures_request]
  rintro outTransfer _ -
  dsimp only
  split_ifs with htransfers
  · exact (ensures_done _ _ _).mpr fun hok ↦ absurd hok hstatus
  · rw [ensures_bind, ensures_request]
    rintro inBuffer _ -
    rw [ensures_bind, ensures_request]
    rintro outBuffer _ -
    by_cases hbuffers : inBuffer = 0 ∨ outBuffer = 0
    · rw [if_pos hbuffers]
      refine (freeFifo_ensures quiet_anyReplies _ _ _ _ _ _).mono ?_
      rintro opened _ ⟨-, rfl⟩ hok
      exact absurd hok hstatus
    · rw [if_neg hbuffers]
      refine (ensures_done _ _ _).mpr fun _ ↦ ?_
      have hseed : prngSeed.toNat < 256 ^ 4 := prngSeed.toNat_lt
      rw [loadWord, storeWord, storeWord,
        load_store_of_disjoint _ (.inr (by rw [length_toLittleEndian]; decide)),
        load_store_of_disjoint _ (.inr (by decide))]
      have hself := load_store_self
        (storeWord (storeWord (storeWord (storeWord cells 0 8 inTransfer) 8 8 outTransfer) 16 8
          inBuffer) 24 8 outBuffer) prngStateField (toLittleEndian 4 prngSeed.toNat)
      rw [length_toLittleEndian] at hself
      exact (congrArg littleEndian hself).trans (littleEndian_toLittleEndian_of_lt hseed)

/-- The generator of an open device is not at zero. -/
theorem prngState_ne_zero_of_opened {drvdata : LibhothUsbFifo} (hopened : Opened drvdata) :
    drvdata.prngState ≠ 0 := by
  obtain ⟨type, cells, endpoints, prngSeed, union, hrun, -, -, hstate⟩ := hopened
  have hinvalid : libusbErrorInvalidParam ≠ libhothOk := by decide
  have hopen : Ensures anyReplies (fifoOpen type cells endpoints prngSeed) () fun opened _ ↦
      opened.1 = libhothOk →
        prngSeed ≠ 0 ∧ loadWord opened.2 prngStateField 4 = prngSeed.toNat := by
    unfold fifoOpen
    split_ifs with hrefused
    · exact (ensures_done _ _ _).mpr fun hok ↦ absurd hok hinvalid
    · have hseed : prngSeed ≠ 0 := fun hzero ↦ hrefused (.inr hzero)
      dsimp only
      split_ifs with hendpoints hmissing
      · exact (ensures_done _ _ _).mpr fun hok ↦ absurd hok hendpoints
      · exact (ensures_done _ _ _).mpr fun hok ↦ absurd hok hinvalid
      · exact (fifoAllocate_ensures _ prngSeed).mono fun opened _ hstored hok ↦
          ⟨hseed, hstored hok⟩
  obtain ⟨hseed, hstored⟩ := hopen _ _ hrun rfl
  have hsame : drvdata.prngState = prngSeed := UInt32.toNat_inj.mp (hstate.symm.trans hstored)
  exact hsame ▸ hseed

/-! ### One request -/

/-- A send call that succeeded, with the driver data before and after it. -/
def Requested (drvdata next : LibhothUsbFifo) : Prop :=
  ∃ record, Call drvdata record next ∧ record.Sent

/-- The OUT transfers that a history submitted. -/
def submissions (history : FifoHistory) : List OutSubmission :=
  history.filterMap fun exchange ↦
    match exchange.1 with
    | .runTransfers out _ => out
    | .clearHalt _ => none

/-- What a request leaves: its ID at the start of the buffer, a transfer with the whole of it, and
the generator sixteen steps further. -/
structure RequestLeft (drvdata next : LibhothUsbFifo) : Prop where
  requestId : pendingId next = drawnId drvdata.prngState
  outLength : libhothUsbFifoRequestIdSize ≤ next.outTransfer.length
  prngState : next.prngState =
    libhothGeneratePseudorandomU32^[libhothUsbFifoRequestIdSize] drvdata.prngState

theorem requested_leaves {drvdata next : LibhothUsbFifo} (hrequested : Requested drvdata next) :
    RequestLeft drvdata next := by
  obtain ⟨record, hcall, ⟨data, hop⟩, hstatus⟩ := hrequested
  cases hcall with
  | receive => exact absurd hop (by simp)
  | send requestData =>
    have hinvalid : libusbErrorInvalidParam ≠ libhothOk := by decide
    have hsize : ¬requestData.length > libhothUsbFifoMaxRequestSize := by
      intro hlarge
      refine hinvalid (Eq.trans ?_ hstatus)
      rw [libhothUsbFifoSendRequest, if_pos hlarge]
    have hlength := length_randomBytes libhothUsbFifoRequestIdSize drvdata.prngState
    rw [libhothUsbFifoSendRequest, if_neg hsize]
    refine ⟨?_, Nat.le_add_right _ _, randomBytes_snd _ _⟩
    have hself := load_store_self drvdata.outBuffer 0 (drawnId drvdata.prngState)
    rw [drawnId, hlength] at hself
    rw [pendingId, load_store_of_disjoint _ (.inl (Nat.zero_add _).le)]
    exact hself

/-! ### Between two requests -/

/-- Calls that submitted OUT transfers kept the generator and the buffer, and the transfers were
those of the pending request. -/
structure Kept (drvdata : LibhothUsbFifo) (submitted : List OutSubmission)
    (next : LibhothUsbFifo) : Prop where
  prngState : next.prngState = drvdata.prngState
  outBuffer : next.outBuffer = drvdata.outBuffer
  outLength : next.outTransfer.length = drvdata.outTransfer.length ∨ next.outTransfer.length = 0
  submitted : ∀ submission ∈ submitted, drvdata.outTransfer.length ≠ 0 ∧
    submission.data = load drvdata.outBuffer 0 drvdata.outTransfer.length

section Keeping

variable {start drvdata next : LibhothUsbFifo} {first second : List OutSubmission}

theorem Kept.refl (drvdata : LibhothUsbFifo) : Kept drvdata [] drvdata :=
  ⟨rfl, rfl, .inl rfl, fun _ hsubmission ↦ absurd hsubmission List.not_mem_nil⟩

theorem Kept.trans (hfirst : Kept start first drvdata) (hsecond : Kept drvdata second next) :
    Kept start (first ++ second) next where
  prngState := hsecond.prngState.trans hfirst.prngState
  outBuffer := hsecond.outBuffer.trans hfirst.outBuffer
  outLength := by
    rcases hsecond.outLength with hsame | hidle
    · rw [hsame]
      exact hfirst.outLength
    · exact .inr hidle
  submitted := by
    refine List.forall_mem_append.mpr ⟨hfirst.submitted, fun submission hsubmission ↦ ?_⟩
    obtain ⟨hpending, hdata⟩ := hsecond.submitted submission hsubmission
    have hlength := hfirst.outLength.resolve_right hpending
    rw [hlength] at hpending hdata
    rw [hfirst.outBuffer] at hdata
    exact ⟨hpending, hdata⟩

/-- The end of a receive call. -/
theorem Kept.transferDone (hkept : Kept start first drvdata) (status : ℤ) (actualSize : Option ℕ)
    (response : ℕ → UInt8) :
    Kept start first (transferDone drvdata status actualSize response).drvdata :=
  ⟨hkept.prngState, hkept.outBuffer, .inr rfl, hkept.submitted⟩

/-- The loop of a receive call, and the steps before it: the request is still pending. -/
structure Running (start : LibhothUsbFifo) (history : FifoHistory) (drvdata : LibhothUsbFifo) :
    Prop where
  kept : Kept start (submissions history) drvdata
  outLength : drvdata.outTransfer.length = start.outTransfer.length

/-- How a receive call may end. -/
def ReceiveKept (start : LibhothUsbFifo) (result : Except Fault FifoReceiveResult)
    (history : FifoHistory) : Prop :=
  ∀ out, result = .ok out → Kept start (submissions history) out.drvdata

theorem receiveKept_transferDone {history : FifoHistory}
    (hkept : Kept start (submissions history) drvdata) (status : ℤ) (actualSize : Option ℕ)
    (response : ℕ → UInt8) :
    ReceiveKept start (.ok (transferDone drvdata status actualSize response)) history := by
  rintro _ ⟨⟩
  exact hkept.transferDone status actualSize response

variable {history : FifoHistory}

theorem submissions_snoc (exchange : Exchange FifoReply) :
    submissions (history ++ [exchange]) = submissions history ++ submissions [exchange] :=
  List.filterMap_append

theorem Running.runTransfers (hrunning : Running start history drvdata)
    (hpending : start.outTransfer.length ≠ 0) (out : Bool) :
    Ensures recording (libhothUsbFifoRunTransfers drvdata out) history fun outcome final ↦
      Running start final outcome.2 := by
  rw [runTransfers_ensures]
  intro reply
  have hlength : (drvdata.settle out reply).outTransfer.length = drvdata.outTransfer.length := by
    cases out <;> rfl
  have hnow : Kept drvdata (submissions
      [⟨.runTransfers (if out then some drvdata.outSubmission else none) drvdata.inSubmission,
        reply⟩]) (drvdata.settle out reply) := by
    refine ⟨rfl, rfl, .inl hlength, fun submission hsubmission ↦ ?_⟩
    cases out with
    | false => exact absurd hsubmission List.not_mem_nil
    | true =>
      obtain rfl := List.mem_singleton.mp hsubmission
      exact ⟨hrunning.outLength ▸ hpending, rfl⟩
  refine ⟨?_, hlength.trans hrunning.outLength⟩
  rw [submissions_snoc]
  exact hrunning.kept.trans hnow

theorem Running.recoverStall (hrunning : Running start history drvdata)
    (hpending : start.outTransfer.length ≠ 0) :
    Ensures recording (recoverStall drvdata) history fun outcome final ↦
      Running start final outcome.2 := by
  have hcleared {past now : FifoHistory} {endpoint : UInt8} {status : ℤ}
      (hrunning : Running start past drvdata)
      (hnow : now = past ++ [⟨.clearHalt endpoint, status⟩]) : Running start now drvdata := by
    refine ⟨?_, hrunning.outLength⟩
    rw [hnow, submissions_snoc]
    exact hrunning.kept.trans (.refl drvdata)
  unfold UsbFifo.recoverStall
  split_ifs with hstall
  · simp only [ensures_bind, ensures_request, recording_iff]
    intro status middle hmiddle
    have hmiddle := hcleared hrunning hmiddle
    split_ifs with hfailed
    · exact (ensures_done _ _ _).mpr hmiddle
    · simp only [ensures_bind, ensures_request, recording_iff]
      intro status now hnow
      have hnow := hcleared hmiddle hnow
      split_ifs with hfailed
      · exact (ensures_done _ _ _).mpr hnow
      · exact hnow.runTransfers hpending true
  · exact (ensures_done _ _ _).mpr hrunning

/-- Examining a packet ends the call or goes on. -/
theorem exists_transferDone {maxResponseSize : ℕ} {response : ℕ → UInt8}
    {result : FifoReceiveResult}
    (hresult : examinePacket drvdata maxResponseSize response = .ok (some result)) :
    ∃ status actualSize buffer, result = transferDone drvdata status actualSize buffer := by
  unfold examinePacket at hresult
  split_ifs at hresult
  · exact ⟨_, _, _, (Option.some.inj (Except.ok.inj hresult)).symm⟩
  · exact ⟨_, _, _, (Option.some.inj (Except.ok.inj hresult)).symm⟩
  · exact ⟨_, _, _, (Option.some.inj (Except.ok.inj hresult)).symm⟩
  · obtain ⟨requestId, -, hresult⟩ := exists_of_bind_eq_ok hresult
    obtain ⟨responseId, -, hresult⟩ := exists_of_bind_eq_ok hresult
    split_ifs at hresult with hsame
    · obtain ⟨payload, -, hresult⟩ := exists_of_bind_eq_ok hresult
      obtain ⟨buffer, -, hresult⟩ := exists_of_bind_eq_ok hresult
      exact ⟨_, _, _, (Option.some.inj (Except.ok.inj hresult)).symm⟩
    · exact absurd (Except.ok.inj hresult) (by simp)

theorem Running.examineRound {state : ExamineState} (hrunning : Running start history state.drvdata)
    (hpending : start.outTransfer.length ≠ 0) (maxResponseSize : ℕ) (response : ℕ → UInt8) :
    Ensures recording (examineRound maxResponseSize response state) history fun outcome final ↦
      match outcome with
      | .inl next => Running start final next.val.drvdata
      | .inr result => ReceiveKept start result final := by
  unfold UsbFifo.examineRound
  cases hexamined : examinePacket state.drvdata maxResponseSize response with
  | error fault => exact (ensures_done _ _ _).mpr fun out hout ↦ absurd hout (by simp)
  | ok outcome =>
    cases outcome with
    | some result =>
      obtain ⟨status, actualSize, buffer, rfl⟩ := exists_transferDone hexamined
      exact (ensures_done _ _ _).mpr (receiveKept_transferDone hrunning.kept _ _ _)
    | none =>
      dsimp only
      split_ifs with hlast
      · exact (ensures_done _ _ _).mpr (receiveKept_transferDone hrunning.kept _ _ _)
      · rw [ensures_bind]
        refine (hrunning.runTransfers hpending false).mono fun outcome final hfinal ↦ ?_
        obtain ⟨status, drvdata⟩ := outcome
        dsimp only
        split_ifs with hfailed
        · exact (ensures_done _ _ _).mpr (receiveKept_transferDone hfinal.kept _ _ _)
        · exact (ensures_done _ _ _).mpr hfinal

/-- A receive call keeps the generator and the buffer. -/
theorem receive_kept (drvdata : LibhothUsbFifo) (maxResponseSize timeoutMs : ℕ)
    (response : ℕ → UInt8) :
    Ensures recording (libhothUsbFifoReceiveResponse drvdata maxResponseSize timeoutMs response) []
      (ReceiveKept drvdata) := by
  unfold libhothUsbFifoReceiveResponse
  split_ifs with hlarge hidle
  · refine (ensures_done _ _ _).mpr ?_
    rintro _ ⟨⟩
    exact .refl drvdata
  · refine (ensures_done _ _ _).mpr ?_
    rintro _ ⟨⟩
    exact .refl drvdata
  · dsimp only
    have hfilled : Running drvdata [] { drvdata with
        inTransfer := drvdata.inTransfer.fill drvdata.epIn libhothUsbFifoMtu timeoutMs
        outTransfer := { drvdata.outTransfer with timeoutMs := timeoutMs } } :=
      ⟨⟨rfl, rfl, .inl rfl, (Kept.refl drvdata).submitted⟩, rfl⟩
    rw [ensures_bind]
    refine (hfilled.runTransfers hidle true).mono fun first history hran ↦ ?_
    obtain ⟨status, ran⟩ := first
    dsimp only
    split_ifs with hfailed
    · exact (ensures_done _ _ _).mpr (receiveKept_transferDone hran.kept _ _ _)
    rw [ensures_bind]
    refine (hran.recoverStall hidle).mono fun second history hran ↦ ?_
    obtain ⟨status, ran⟩ := second
    dsimp only
    split_ifs with hfailed hincomplete hshort
    · exact (ensures_done _ _ _).mpr (receiveKept_transferDone hran.kept _ _ _)
    · exact (ensures_done _ _ _).mpr (receiveKept_transferDone hran.kept _ _ _)
    · refine (ensures_done _ _ _).mpr ?_
      rintro _ ⟨⟩
      exact hran.kept
    · refine whileDecreasing_ensures
        (fun state past ↦ Running drvdata past state.drvdata) (fun state past hrunning ↦ ?_) _ _
        hran
      refine (hrunning.examineRound hidle maxResponseSize response).mono
        fun outcome final hfinal ↦ ?_
      cases outcome <;> exact hfinal

end Keeping

/-! ### Sessions -/

/-- A call that is not a request keeps the pending one and its generator. -/
theorem call_kept {drvdata next : LibhothUsbFifo} {record : CallRecord}
    (hcall : Call drvdata record next) (hunsent : ¬record.Sent) :
    Kept drvdata (submissions record.history) next := by
  cases hcall with
  | send requestData =>
    rw [libhothUsbFifoSendRequest] at hunsent ⊢
    by_cases hlarge : requestData.length > libhothUsbFifoMaxRequestSize
    · rw [if_pos hlarge]
      exact .refl drvdata
    · rw [if_neg hlarge] at hunsent
      exact absurd ⟨⟨requestData, rfl⟩, rfl⟩ hunsent
  | receive hrun => exact receive_kept _ _ _ _ _ _ hrun _ rfl

/-- So does any number of them. -/
theorem session_kept {start drvdata : LibhothUsbFifo} {records : List CallRecord}
    (hsession : Session start records drvdata) (hunsent : ∀ record ∈ records, ¬record.Sent) :
    Kept start (records.flatMap fun record ↦ submissions record.history) drvdata := by
  induction hsession with
  | nil => exact .refl start
  | @snoc records _ _ last hsession hcall ih =>
    obtain ⟨hearlier, hlast⟩ := List.forall_mem_append.mp hunsent
    rw [List.flatMap_append, List.flatMap_singleton]
    exact (ih hearlier).trans (call_kept hcall (hlast last (List.mem_singleton_self _)))

/-- The generator of a session does not reach zero. -/
theorem session_prngState_ne_zero {start drvdata : LibhothUsbFifo} {records : List CallRecord}
    (hsession : Session start records drvdata) (hstart : start.prngState ≠ 0) :
    drvdata.prngState ≠ 0 := by
  induction hsession with
  | nil => exact hstart
  | @snoc _ _ _ record _ hcall ih =>
    by_cases hsent : record.Sent
    · rw [(requested_leaves ⟨record, hcall, hsent⟩).prngState]
      exact iterate_ne_zero ih _
    · rw [(call_kept hcall hsent).prngState]
      exact ih

/-- Two requests in a row, by the driver data after each: no call between them is a request. -/
def InRow (first second : LibhothUsbFifo) : Prop :=
  ∃ between last, Session first between last ∧ (∀ record ∈ between, ¬record.Sent) ∧
    Requested last second

/-- An OUT transfer that is submitted for a request, by a call before the next one. -/
def SubmittedFor (request : LibhothUsbFifo) (submission : OutSubmission) : Prop :=
  ∃ records drvdata, Session request records drvdata ∧ (∀ record ∈ records, ¬record.Sent) ∧
    ∃ record ∈ records, submission ∈ submissions record.history

/-- Two requests in a row have different IDs. -/
theorem pendingId_ne_of_inRow {drvdata first second : LibhothUsbFifo}
    (hstate : drvdata.prngState ≠ 0) (hfirst : Requested drvdata first)
    (hrow : InRow first second) : pendingId first ≠ pendingId second := by
  obtain ⟨between, last, hsession, hunsent, hsecond⟩ := hrow
  have hleft := requested_leaves hfirst
  rw [hleft.requestId, (requested_leaves hsecond).requestId,
    (session_kept hsession hunsent).prngState, hleft.prngState]
  exact drawnId_advanced_ne hstate

/-- What is submitted for a request starts with its ID. -/
theorem take_submission {drvdata request : LibhothUsbFifo} {submission : OutSubmission}
    (hrequested : Requested drvdata request) (hsubmitted : SubmittedFor request submission) :
    submission.data.take libhothUsbFifoRequestIdSize = pendingId request := by
  obtain ⟨records, last, hsession, hunsent, record, hrecord, hsubmission⟩ := hsubmitted
  obtain ⟨-, hdata⟩ := (session_kept hsession hunsent).submitted submission
    (List.mem_flatMap.mpr ⟨record, hrecord, hsubmission⟩)
  obtain ⟨rest, hlength⟩ := Nat.exists_eq_add_of_le (requested_leaves hrequested).outLength
  rw [hdata, hlength, load_add, List.take_left' (length_load _ _ _), pendingId]

/-- For every seed other than zero and every number of steps the generator is not at zero. Its step
is injective, and so is the request ID in the state that it is drawn from. So in every session of an
open device two requests in a row have different IDs, any two requests with one ID were drawn from
one state, and every OUT transfer starts with the ID of its request. -/
theorem requestIds_tellApart :
    (∀ seed : UInt32, seed ≠ 0 → ∀ steps, libhothGeneratePseudorandomU32^[steps] seed ≠ 0) ∧
      Function.Injective libhothGeneratePseudorandomU32 ∧
      Function.Injective drawnId ∧
      (∀ drvdata request, Requested drvdata request →
        pendingId request = drawnId drvdata.prngState ∧
          ∀ submission, SubmittedFor request submission →
            submission.data.take libhothUsbFifoRequestIdSize = pendingId request) ∧
      (∀ start, Opened start → ∀ records drvdata, Session start records drvdata →
        ∀ first second, Requested drvdata first → InRow first second →
          pendingId first ≠ pendingId second) ∧
      ∀ drvdata request other otherRequest, Requested drvdata request →
        Requested other otherRequest → pendingId request = pendingId otherRequest →
          drvdata.prngState = other.prngState := by
  refine ⟨fun seed hseed ↦ iterate_ne_zero hseed, libhothGeneratePseudorandomU32_injective,
    drawnId_injective, fun drvdata request hrequested ↦ ?_,
    fun start hopened records drvdata hsession first second hfirst hrow ↦ ?_,
    fun drvdata request other otherRequest hrequested hother hequal ↦ ?_⟩
  · exact ⟨(requested_leaves hrequested).requestId,
      fun submission hsubmitted ↦ take_submission hrequested hsubmitted⟩
  · exact pendingId_ne_of_inRow
      (session_prngState_ne_zero hsession (prngState_ne_zero_of_opened hopened)) hfirst hrow
  · rw [(requested_leaves hrequested).requestId, (requested_leaves hother).requestId] at hequal
    exact drawnId_injective hequal

/-! ### Two requests in a row -/

/-- What opening a FIFO interface with a seed of one comes to when every call succeeds. -/
def openedFifoUnion : ℤ × (ℕ → UInt8) :=
  (play (fun (_ : Unit) call ↦ (fifoReply libhothOk 16 call, ()))
    (fifoOpen .fifo (fun _ ↦ 0) (openedEndpoints fifoConfiguration) 1) ()).1

theorem opened_openDevice : Opened openDevice := by
  have hrun : Runs anyReplies
      (fifoOpen .fifo (fun _ ↦ 0) (openedEndpoints fifoConfiguration) 1) () openedFifoUnion () :=
    runs_play (fun _ _ ↦ trivial) _ ()
  exact ⟨_, _, _, _, openedFifoUnion.2, hrun, rfl, rfl, rfl⟩

/-- An empty request. -/
theorem requested_nil (drvdata : LibhothUsbFifo) :
    Requested drvdata (libhothUsbFifoSendRequest drvdata []).2 :=
  ⟨_, .send drvdata [], ⟨[], rfl⟩, rfl⟩

/-- The first two requests of an open device have different IDs. -/
theorem requestIds_tellApart_openDevice :
    pendingId (libhothUsbFifoSendRequest openDevice []).2 ≠
      pendingId (libhothUsbFifoSendRequest (libhothUsbFifoSendRequest openDevice []).2 []).2 :=
  requestIds_tellApart.2.2.2.2.1 openDevice opened_openDevice [] openDevice .nil _ _
    (requested_nil openDevice)
    ⟨[], _, .nil, fun _ hrecord ↦ absurd hrecord List.not_mem_nil, requested_nil _⟩

end Libhoth.Transports.UsbFifoRequestIds
