import Libhoth.Protocol.HostCommand

/-!
# Programs over host commands

The protocol functions of the library talk to the device through `libhoth_hostcmd_exec_v2` alone.
A `HostCommand` is one call of it: the command, its version, the request payload, the size of the
response buffer, and whether the caller asks for the size of the response. A `HostReply` is what
comes back: a non-zero error, or a payload of a size the call admits.

`execOnTransport` answers a host command by running `libhoth_hostcmd_exec_v2` on a transport, so
`interpret execOnTransport` is a protocol function on a transport. `runs_on_transport` is the link
between the levels: every run on a transport is a run over host commands with the same result, whose
exchanges are the executions on the transport in order (`TransportOf`). A statement about all runs
over host commands is therefore a statement about all runs on a transport.
-/

set_option autoImplicit false
set_option relaxedAutoImplicit false

namespace Libhoth.Protocol.HostCommandProgram

open Foundation.ByteString Foundation.InteractingProgram Status HostCommand

/-- One call of `libhoth_hostcmd_exec_v2` as its caller sees it. -/
structure HostCommand where
  command : ℕ
  version : ℕ
  payload : List UInt8
  respBufSize : ℕ
  sized : Bool

/-- What a call returns: an error, or a payload that fits the response buffer. -/
inductive HostReply (call : HostCommand)
  | failed (err : LibhothError) (nonzero : err ≠ hothSuccess)
  | accepted (payload : List UInt8) (fits : PayloadFits payload call.respBufSize call.sized)

/-- The error word of a reply. -/
def HostReply.error {call : HostCommand} : HostReply call → LibhothError
  | .failed err _ => err
  | .accepted _ _ => hothSuccess

@[simp] theorem HostReply.error_failed {call : HostCommand} (err : LibhothError)
    (nonzero : err ≠ hothSuccess) : (HostReply.failed err nonzero : HostReply call).error = err :=
  rfl

@[simp] theorem HostReply.error_accepted {call : HostCommand} (payload : List UInt8)
    (fits : PayloadFits payload call.respBufSize call.sized) :
    (HostReply.accepted payload fits : HostReply call).error = hothSuccess :=
  rfl

/-- The reply of a device that accepts a command with a zeroed response. -/
def acceptingReply (call : HostCommand) : HostReply call :=
  .accepted (List.replicate call.respBufSize 0) (by
    unfold PayloadFits
    split_ifs <;> simp)

/-- Programs over host commands. -/
abbrev HostProgram := Interaction HostReply

/-- The history of a run over host commands. -/
abbrev HostHistory := List (Exchange HostReply)

/-- The caller's side of `libhoth_hostcmd_exec_v2`. -/
def hostcmdExec (call : HostCommand) : HostProgram (HostReply call) :=
  request call

/-- `HOTH_CMD_BOARD_SPECIFIC_BASE`. -/
def hothCmdBoardSpecificBase : ℕ := 0x3E00

/-! ### Host commands on a transport -/

/-- The reply that an execution leaves to its caller. -/
def replyOfOutcome (call : HostCommand) (outcome : ExecOutcome) : HostReply call :=
  if herror : outcome.error = hothSuccess then
    let payload := (outcome.respBuf.getD []).take (outcome.outRespSize.getD call.respBufSize)
    if hfits : call.sized = true ∧ payload.length ≤ call.respBufSize ∨
        call.sized = false ∧ payload.length = call.respBufSize then
      .accepted payload (by
        unfold PayloadFits
        rcases hfits with ⟨hsized, hlength⟩ | ⟨hsized, hlength⟩ <;> simp [hsized, hlength])
    else .failed (cmdExecStatus .fail) (cmdExecStatus_ne_success _)
  else .failed outcome.error herror

/-- A host command executed on a transport, into a zeroed buffer. -/
def execOnTransport (call : HostCommand) : TransportProgram (HostReply call) := do
  let outcome ← libhothHostcmdExecV2 call.command call.version call.payload
    (some (List.replicate call.respBufSize 0)) call.respBufSize
    (if call.sized then some 0 else none)
  return replyOfOutcome call outcome

/-- The reply to a command whose response a transport has returned, or not. -/
def receivedHostReply (call : HostCommand) : ReceiveReply libhothMailboxSize → HostReply call
  | .failed err nonzero => .failed err nonzero
  | .received response _ => replyOfOutcome call (deliverResponse response
      (some (List.replicate call.respBufSize 0)) call.respBufSize
      (if call.sized then some 0 else none))

/-- What is left of a command when its request was sent, or not. -/
def behindSend (call : HostCommand) (err : LibhothError) : TransportProgram (HostReply call) :=
  if hfailed : err ≠ hothSuccess then .done (.failed err hfailed)
  else .ask (.receive libhothMailboxSize hothCmdTimeoutMsDefault) fun reply ↦
    .done (receivedHostReply call reply)

theorem execOnTransport_of_large {call : HostCommand}
    (hlarge : libhothMailboxSize - headerSize < call.payload.length) :
    execOnTransport call =
      .done (.failed (cmdExecStatus .outUnderflow) (cmdExecStatus_ne_success _)) := by
  rw [execOnTransport, libhothHostcmdExecV2, if_pos hlarge]
  exact congrArg Interaction.done (dif_neg (cmdExecStatus_ne_success _))

theorem execOnTransport_of_header {call : HostCommand}
    (hsize : call.payload.length ≤ libhothMailboxSize - headerSize) {header : HothHostRequest}
    (hheader : populateEcRequestHeader call.command call.version call.payload = .ok header) :
    execOnTransport call = .ask (.send (header.encode ++ call.payload)) (behindSend call) := by
  rw [execOnTransport, libhothHostcmdExecV2, if_neg hsize.not_gt, hheader]
  refine congrArg (Interaction.ask _) (funext fun err ↦ ?_)
  dsimp only [behindSend]
  by_cases hsuccess : err = hothSuccess
  · subst hsuccess
    rw [dif_neg (not_not_intro rfl)]
    refine congrArg (Interaction.ask _) (funext fun reply ↦ ?_)
    cases reply with
    | failed err nonzero => exact congrArg Interaction.done (dif_neg nonzero)
    | received response fits => rfl
  · rw [dif_pos hsuccess]
    dsimp only [Interaction.bind]
    rw [if_pos hsuccess]
    exact congrArg Interaction.done (dif_neg hsuccess)

/-- The executions on a transport that make up a history of host commands, in order. -/
inductive TransportOf : HostHistory → TransportHistory → Prop
  | nil : TransportOf [] []
  | snoc {history : HostHistory} {transport : TransportHistory} (call : HostCommand)
    (outcome : ExecOutcome) (execution : TransportHistory)
    (hbeginning : TransportOf history transport)
    (hexec : ExecRun call.command call.version call.payload
      (some (List.replicate call.respBufSize 0)) call.respBufSize
      (if call.sized then some 0 else none) outcome execution) :
    TransportOf (history ++ [⟨call, replyOfOutcome call outcome⟩]) (transport ++ execution)

/-- The reply to an execution that received a deliverable response is its payload. -/
theorem replyOfOutcome_deliverable (call : HostCommand) {response : List UInt8}
    (hdeliverable : Deliverable response call.respBufSize call.sized) :
    replyOfOutcome call (deliverResponse response (some (List.replicate call.respBufSize 0))
        call.respBufSize (if call.sized then some 0 else none)) =
      .accepted (responsePayload response) hdeliverable.2.2 := by
  obtain ⟨hwellFormed, hresult, hfits⟩ := hdeliverable
  obtain ⟨command, version, payload, respBufSize, sized⟩ := call
  cases sized with
  | true =>
    have hlength : (responsePayload response).length ≤ respBufSize := by
      simpa [PayloadFits] using hfits
    rw [deliverResponse_of_fits _ _ _ hwellFormed hresult hfits]
    simp [replyOfOutcome, hlength]
  | false =>
    have hlength : (responsePayload response).length = respBufSize := by
      simpa [PayloadFits] using hfits
    rw [deliverResponse_of_fits _ _ _ hwellFormed hresult hfits]
    subst hlength
    simp [replyOfOutcome]

/-- The reply to an execution fails exactly when the execution does, with its error. -/
theorem replyOfOutcome_error {call : HostCommand} {outcome : ExecOutcome}
    {execution : TransportHistory}
    (hexec : ExecRun call.command call.version call.payload
      (some (List.replicate call.respBufSize 0)) call.respBufSize
      (if call.sized then some 0 else none) outcome execution) :
    (replyOfOutcome call outcome).error = outcome.error := by
  have hsized : (if call.sized then some (0 : ℕ) else none).isSome = call.sized := by
    cases call.sized <;> rfl
  by_cases hsuccess : outcome.error = hothSuccess
  · obtain ⟨-, response, hreceived, hdeliverable⟩ := hexec.error_eq_success_iff.mp hsuccess
    rw [hsized] at hdeliverable
    rw [hsuccess, hexec.outcome_of_received hreceived,
      replyOfOutcome_deliverable call hdeliverable, HostReply.error_accepted]
  · simp [replyOfOutcome, hsuccess]

/-- Every run of a protocol function on a transport is a run of it over host commands with the same
result, and the transport saw the executions of those commands in order. -/
theorem runs_on_transport {α : Type} (program : HostProgram α) (result : α)
    (transport : TransportHistory)
    (hrun : Runs recording (interpret execOnTransport program) [] result transport) :
    ∃ history, Runs recording program [] result history ∧ TransportOf history transport := by
  suffices hgeneral : ∀ (history : HostHistory) (before now : TransportHistory),
      TransportOf history before →
      Runs (induced execOnTransport recording) program before result now →
      ∃ final, Runs recording program history result final ∧ TransportOf final now from
    hgeneral [] [] transport .nil ((runs_interpret_iff _ _ _ _ _ _).mp hrun)
  clear hrun
  induction program with
  | done value =>
    rintro history before _ hbefore ⟨rfl, rfl⟩
    exact ⟨history, ⟨rfl, rfl⟩, hbefore⟩
  | ask call next ih =>
    rintro history before now hbefore ⟨reply, middle, hexec, hrest⟩
    obtain ⟨outcome, _, hinner, rfl, rfl⟩ := (runs_bind _ _ _ _ _).mp hexec
    rw [← List.append_nil before, runs_recording_append] at hinner
    obtain ⟨execution, rfl, hexecution⟩ := hinner
    have hstep := TransportOf.snoc call outcome execution hbefore
      ((runs_libhothHostcmdExecV2_iff _ _ _ _ _ _).mp hexecution)
    obtain ⟨final, hfinal, htransport⟩ := ih (replyOfOutcome call outcome) _ _ _ hstep hrest
    exact ⟨final, ⟨_, _, rfl, hfinal⟩, htransport⟩

end Libhoth.Protocol.HostCommandProgram
