import Libhoth.Transports.UsbFifoReceive

/-!
# Sessions over a FIFO

A session is a sequence of send and receive calls on one device. `session_noReplay` says that a
receive call after another one that ran the transfers, with no successful send between them, submits
nothing (`NoReplay`), in every session whose OUT transfers all fail or send the whole request. After
an OUT transfer that completes short the request stays pending, and the next receive call sends it
again (`session_replays_after_short_transfer`).

`Exhausted` is what the history of a session says about the pending request, and `call_settles` what
one call does to it.
-/

set_option autoImplicit false
set_option relaxedAutoImplicit false

namespace Libhoth.Transports.UsbFifoSession

open Foundation.CheckedAccess Foundation.InteractingProgram Libusb UsbFifo UsbFifoReceive

/-! ### Sessions -/

/-- A call of the transport. -/
inductive FifoOp
  | send (requestData : List UInt8)
  | receive (maxResponseSize timeoutMs : ℕ) (response : ℕ → UInt8)

/-- A call that was made: its status, and what it asked of the transfer layer. -/
structure CallRecord where
  op : FifoOp
  status : ℤ
  history : FifoHistory

/-- One call takes the driver data from one state to the next. -/
inductive Call : LibhothUsbFifo → CallRecord → LibhothUsbFifo → Prop
  | send (drvdata : LibhothUsbFifo) (requestData : List UInt8) :
    Call drvdata ⟨.send requestData, (libhothUsbFifoSendRequest drvdata requestData).1, []⟩
      (libhothUsbFifoSendRequest drvdata requestData).2
  | receive {drvdata : LibhothUsbFifo} {maxResponseSize timeoutMs : ℕ} {response : ℕ → UInt8}
    {out : FifoReceiveResult} {history : FifoHistory}
    (hrun : Runs recording
      (libhothUsbFifoReceiveResponse drvdata maxResponseSize timeoutMs response) [] (.ok out)
      history) :
    Call drvdata ⟨.receive maxResponseSize timeoutMs response, out.status, history⟩ out.drvdata

/-- A session from a state, with the calls that were made so far. -/
inductive Session (start : LibhothUsbFifo) : List CallRecord → LibhothUsbFifo → Prop
  | nil : Session start [] start
  | snoc {records : List CallRecord} {drvdata next : LibhothUsbFifo} {record : CallRecord}
    (hsession : Session start records drvdata) (hcall : Call drvdata record next) :
    Session start (records ++ [record]) next

/-- A send call that succeeded. -/
def CallRecord.Sent (record : CallRecord) : Prop :=
  (∃ requestData, record.op = .send requestData) ∧ record.status = libhothOk

/-- A receive call. -/
def CallRecord.IsReceive (record : CallRecord) : Prop :=
  ∃ maxResponseSize timeoutMs response, record.op = .receive maxResponseSize timeoutMs response

/-- A receive call ran the transfers, and no send call succeeded since. -/
def Exhausted (records : List CallRecord) : Prop :=
  ∃ before first between, records = before ++ first :: between ∧ first.history ≠ [] ∧
    ∀ record ∈ between, ¬record.Sent

/-- A receive call after that returns `LIBUSB_ERROR_IO` and submits no transfer. -/
def NoReplay (records : List CallRecord) : Prop :=
  ∀ before record after, records = before ++ record :: after → Exhausted before →
    record.IsReceive → record.status = libusbErrorIo ∧ record.history = []

/-- A call with a buffer of a size that the transport takes, whose OUT transfer does not complete
short. -/
structure CallRecord.Regular (record : CallRecord) : Prop where
  size : ∀ maxResponseSize timeoutMs response,
    record.op = .receive maxResponseSize timeoutMs response →
      maxResponseSize ≤ libhothUsbFifoMaxRequestSize
  whole : ¬EndsShort record.history

theorem not_endsShort_nil : ¬EndsShort [] := by
  rintro ⟨before, _, _, _, hsplit, -⟩
  exact absurd hsplit.symm (by simp)

/-! ### One call -/

section Step

variable {drvdata next : LibhothUsbFifo} {record : CallRecord}

/-- A receive call without a pending request does nothing. -/
theorem call_of_idle (hcall : Call drvdata record next) (hregular : record.Regular)
    (hidle : drvdata.outTransfer.length = 0) (hreceive : record.IsReceive) :
    record.status = libusbErrorIo ∧ record.history = [] ∧ next = drvdata := by
  cases hcall with
  | send requestData =>
    obtain ⟨_, _, _, hop⟩ := hreceive
    exact absurd hop (by simp)
  | @receive maxResponseSize timeoutMs response out history hrun =>
    have hsize := hregular.size maxResponseSize timeoutMs response rfl
    rw [receive_of_idle hsize hidle, runs_done] at hrun
    obtain ⟨hout, hhistory⟩ := hrun
    obtain rfl := Except.ok.inj hout
    exact ⟨rfl, hhistory, rfl⟩

/-- After a call that ran its transfers no request is pending. -/
theorem call_settles (hcall : Call drvdata record next) (hregular : record.Regular)
    (hran : record.history ≠ []) : next.outTransfer.length = 0 := by
  cases hcall with
  | send requestData => exact absurd rfl hran
  | @receive maxResponseSize timeoutMs response out history hrun =>
    have hsize := hregular.size maxResponseSize timeoutMs response rfl
    by_cases hidle : drvdata.outTransfer.length = 0
    · rw [receive_of_idle hsize hidle, runs_done] at hrun
      exact absurd hrun.2 hran
    · obtain ⟨other, hother, hend⟩ :=
        receive_ensures_of_pending hsize hidle timeoutMs response _ _ hrun
      obtain rfl := Except.ok.inj hother
      exact hend.pending.resolve_right hregular.whole

/-- Only a successful send call makes a request pending. -/
theorem call_stays_idle (hcall : Call drvdata record next) (hregular : record.Regular)
    (hidle : drvdata.outTransfer.length = 0) (hunsent : ¬record.Sent) :
    next.outTransfer.length = 0 := by
  cases hcall with
  | send requestData =>
    rw [libhothUsbFifoSendRequest] at hunsent ⊢
    by_cases hlarge : requestData.length > libhothUsbFifoMaxRequestSize
    · rw [if_pos hlarge]
      exact hidle
    · rw [if_neg hlarge] at hunsent
      exact absurd ⟨⟨requestData, rfl⟩, rfl⟩ hunsent
  | receive hrun =>
    obtain ⟨-, -, hsame⟩ := call_of_idle (.receive hrun) hregular hidle ⟨_, _, _, rfl⟩
    rw [hsame]
    exact hidle

end Step

/-! ### All sessions -/

/-- An exhausted history after one more call was exhausted by that call or before it. -/
theorem exhausted_snoc {records : List CallRecord} {record : CallRecord}
    (hexhausted : Exhausted (records ++ [record])) :
    record.history ≠ [] ∨ Exhausted records ∧ ¬record.Sent := by
  obtain ⟨before, first, between, hsplit, hran, hunsent⟩ := hexhausted
  rcases List.eq_nil_or_concat between with rfl | ⟨earlier, last, rfl⟩
  · obtain ⟨-, hlast⟩ := List.append_inj' hsplit rfl
    rw [List.singleton_inj.mp hlast]
    exact .inl hran
  · have hinner : records ++ [record] = (before ++ first :: earlier) ++ [last] := by
      simpa using hsplit
    obtain ⟨hrecords, hlast⟩ := List.append_inj' hinner rfl
    rw [List.singleton_inj.mp hlast]
    exact .inr ⟨⟨before, first, earlier, hrecords, hran,
      fun other hother ↦ hunsent other (by simp [hother])⟩, hunsent last (by simp)⟩

/-- In a session of regular calls no request is pending once the history is exhausted. -/
theorem session_idle {start drvdata : LibhothUsbFifo} {records : List CallRecord}
    (hsession : Session start records drvdata) (hregular : ∀ record ∈ records, record.Regular)
    (hexhausted : Exhausted records) : drvdata.outTransfer.length = 0 := by
  induction hsession with
  | nil =>
    obtain ⟨before, first, between, hsplit, -⟩ := hexhausted
    exact absurd hsplit.symm (by simp)
  | @snoc records _ _ record _ hcall ih =>
    have hlast := hregular record (List.mem_append_right _ (List.mem_singleton_self _))
    rcases exhausted_snoc hexhausted with hran | ⟨hearlier, hunsent⟩
    · exact call_settles hcall hlast hran
    · exact call_stays_idle hcall hlast
        (ih (fun other hother ↦ hregular other (List.mem_append_left _ hother)) hearlier) hunsent

/-- For every session of regular calls on a device: once a receive call has run the transfers, a
receive call without a successful send call in between submits nothing. -/
theorem session_noReplay {start drvdata : LibhothUsbFifo} {records : List CallRecord}
    (hsession : Session start records drvdata) (hregular : ∀ record ∈ records, record.Regular) :
    NoReplay records := by
  induction hsession with
  | nil =>
    intro before record after hsplit
    exact absurd hsplit.symm (by simp)
  | @snoc records _ _ last hearlier hcall ih =>
    have hregularEarlier : ∀ record ∈ records, record.Regular :=
      fun other hother ↦ hregular other (List.mem_append_left _ hother)
    intro before record after hsplit hexhausted hreceive
    rcases snoc_eq_append_cons hsplit with ⟨rfl, rfl, -⟩ | ⟨rest, hrecords⟩
    · obtain ⟨hstatus, hhistory, -⟩ := call_of_idle hcall
        (hregular _ (List.mem_append_right _ (List.mem_singleton_self _)))
        (session_idle hearlier hregularEarlier hexhausted) hreceive
      exact ⟨hstatus, hhistory⟩
    · exact ih hregularEarlier before record rest hrecords hexhausted hreceive

/-! ### Two sessions -/

/-- The driver data of an open device. -/
def openDevice : LibhothUsbFifo where
  inTransfer := ⟨0, 0, 0, false, .completed, 0⟩
  outTransfer := ⟨0, 0, 0, false, .completed, 0⟩
  inBuffer := fun _ ↦ 0
  outBuffer := fun _ ↦ 0
  epIn := 0x81
  epOut := 0x01
  prngState := 1

/-- A transfer layer whose runs end with a status and with OUT transfers that complete without a
byte. -/
def emptyRuns (status : ℤ) : (call : FifoCall) → FifoReply call
  | .runTransfers _ _ => ⟨status, .completed, 0, .completed, [], Nat.zero_le _⟩
  | .clearHalt _ => libhothOk

/-- Against it a receive call ends on its first run. If the run succeeded, the request stays
pending. -/
theorem receive_emptyRuns {drvdata : LibhothUsbFifo} (hpending : drvdata.outTransfer.length ≠ 0)
    (status : ℤ) : Ensures (recordingAnswers (emptyRuns status))
      (libhothUsbFifoReceiveResponse drvdata 0 0 fun _ ↦ 0) [] fun result history ↦
        ∃ out submission into reply, result = .ok out ∧
          history = [⟨.runTransfers (some submission) into, reply⟩] ∧ reply.status = status ∧
          (status = libhothOk → out.drvdata.outTransfer.length ≠ 0) := by
  rw [libhothUsbFifoReceiveResponse, if_neg (by decide), if_neg hpending]
  simp only [ensures_bind, libhothUsbFifoRunTransfers, ensures_request, recordingAnswers]
  rintro reply middle ⟨rfl, rfl⟩
  simp only [pure_eq_done, ensures_done, emptyRuns]
  by_cases hok : status = libhothOk
  · have hshort : 0 ≠ drvdata.outTransfer.length := hpending.symm
    simp only [hok, ne_eq, not_true, if_false, recoverStall, LibhothUsbFifo.settle, reduceCtorEq,
      or_self, if_true, pure_eq_done, done_bind, hshort, not_false_eq_true, ensures_done]
    exact ⟨_, _, _, _, rfl, rfl, rfl, fun _ ↦ hpending⟩
  · rw [if_pos hok, ensures_done]
    exact ⟨_, _, _, _, rfl, rfl, rfl, fun hother ↦ absurd hother hok⟩

theorem isReceive_receive (maxResponseSize timeoutMs : ℕ) (response : ℕ → UInt8) (status : ℤ)
    (history : FifoHistory) :
    (⟨.receive maxResponseSize timeoutMs response, status, history⟩ : CallRecord).IsReceive :=
  ⟨maxResponseSize, timeoutMs, response, rfl⟩

/-- A call that ends on its first run, as one of a session. -/
theorem call_emptyRuns {drvdata : LibhothUsbFifo} (hpending : drvdata.outTransfer.length ≠ 0)
    (status : ℤ) : ∃ record next, Call drvdata record next ∧ record.IsReceive ∧
      record.history ≠ [] ∧ (status ≠ libhothOk → record.Regular) ∧
      (status = libhothOk → next.outTransfer.length ≠ 0) := by
  obtain ⟨result, history, hrun⟩ := exists_runs_recordingAnswers (emptyRuns status)
    (libhothUsbFifoReceiveResponse drvdata 0 0 fun _ ↦ 0) []
  obtain ⟨out, submission, into, reply, rfl, rfl, hstatus, hstays⟩ :=
    receive_emptyRuns hpending status _ _ hrun
  refine ⟨_, _, .receive hrun.recording_of_answers, isReceive_receive _ _ _ _ _,
    List.cons_ne_nil _ _, fun hfailed ↦ ⟨?_, ?_⟩, hstays⟩
  · rintro _ _ _ hop
    obtain ⟨rfl, -, -⟩ := FifoOp.receive.inj hop
    exact Nat.zero_le _
  · rintro ⟨before, _, _, other, hsplit, hok, -⟩
    obtain ⟨-, hlast⟩ := List.append_inj' (show [] ++ [_] = before ++ [_] from hsplit) rfl
    cases List.singleton_inj.mp hlast
    exact hfailed (hstatus.symm.trans hok)

/-- The session that sends an empty request. -/
theorem session_send : Session openDevice
    [⟨.send [], libhothOk, []⟩] (libhothUsbFifoSendRequest openDevice []).2 :=
  .snoc .nil (.send openDevice [])

/-- A request, a receive call whose run fails, and a receive call that submits nothing. -/
theorem session_noReplay_after_failed_run : ∃ first second drvdata,
    Session openDevice ([⟨.send [], libhothOk, []⟩] ++ [first] ++ [second]) drvdata ∧
      first.history ≠ [] ∧ second.IsReceive ∧
      NoReplay ([⟨.send [], libhothOk, []⟩] ++ [first] ++ [second]) := by
  obtain ⟨first, next, hfirst, -, hran, hregular, -⟩ := call_emptyRuns
    (show (libhothUsbFifoSendRequest openDevice []).2.outTransfer.length ≠ 0 by decide)
    libusbErrorIo
  have hregular := hregular (by decide)
  have hidle := call_settles hfirst hregular hran
  have hrun : Runs recording (libhothUsbFifoReceiveResponse next 0 0 fun _ ↦ 0) []
      (.ok ⟨libusbErrorIo, none, fun _ ↦ 0, next⟩) [] := by
    rw [receive_of_idle (Nat.zero_le _) hidle, runs_done]
    exact ⟨rfl, rfl⟩
  have hsecond : Call next ⟨.receive 0 0 fun _ ↦ 0, libusbErrorIo, []⟩ next := .receive hrun
  have hsession := (session_send.snoc hfirst).snoc hsecond
  refine ⟨_, _, _, hsession, hran, isReceive_receive _ _ _ _ _,
    session_noReplay hsession fun record hrecord ↦ ?_⟩
  rcases List.mem_append.mp hrecord with hearlier | hlast
  · rcases List.mem_append.mp hearlier with hsend | hreceive
    · rw [List.mem_singleton.mp hsend]
      exact ⟨fun _ _ _ hop ↦ by simp at hop, not_endsShort_nil⟩
    · rw [List.mem_singleton.mp hreceive]
      exact hregular
  · rw [List.mem_singleton.mp hlast]
    exact ⟨fun _ _ _ hop ↦ (FifoOp.receive.inj hop).1 ▸ Nat.zero_le _, not_endsShort_nil⟩

/-- A request, a receive call whose OUT transfer completes short, and a receive call that sends the
request again. -/
theorem session_replays_after_short_transfer : ∃ first second drvdata,
    Session openDevice ([⟨.send [], libhothOk, []⟩] ++ [first] ++ [second]) drvdata ∧
      ¬NoReplay ([⟨.send [], libhothOk, []⟩] ++ [first] ++ [second]) := by
  obtain ⟨first, next, hfirst, -, hran, -, hstays⟩ := call_emptyRuns
    (show (libhothUsbFifoSendRequest openDevice []).2.outTransfer.length ≠ 0 by decide) libhothOk
  obtain ⟨second, last, hsecond, hreceive, hagain, -, -⟩ := call_emptyRuns (hstays rfl) libhothOk
  refine ⟨first, second, last, (session_send.snoc hfirst).snoc hsecond, fun hnone ↦ ?_⟩
  exact hagain (hnone _ second [] rfl ⟨[_], first, [], rfl, hran, by simp⟩ hreceive).2

end Libhoth.Transports.UsbFifoSession
