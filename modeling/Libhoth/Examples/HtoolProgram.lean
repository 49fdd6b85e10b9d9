import Libhoth.Protocol.HostCommandProgram

/-!
# Programs of the tool

The commands of `htool` look up their parameters, talk to the device through `libhoth_hostcmd_exec`
and write files. `ToolCall` is what they ask of the world around them; one of the calls is the value
that an object holds before it is written.

`libhothHostcmdExec` is the wrapper with the legacy `int` as its callers see it. A reply leaves the
response buffer and the size word alone unless it is a success (`hostcmdResult`), and
`hostcmdResult_status` says that the `int` is the legacy code of what the execution on the transport
returned. The legacy code of an error can be zero, so a caller can find an unwritten buffer after a
success.
-/

set_option autoImplicit false
set_option relaxedAutoImplicit false

namespace Libhoth.Examples.HtoolProgram

open Foundation.InteractingProgram Protocol.Status Protocol.HostCommand
open Protocol.HostCommandProgram

/-! ### The calls -/

/-- What a command of the tool asks of the world around it. -/
inductive ToolCall
  | libhothDevice
  | getParamString (name : String)
  | hostcmdExec (call : HostCommand)
  | openFile (path : List UInt8)
  | writeFile (contents : List UInt8)
  | unwritten

/-- The replies: whether there is a device, the value of a parameter, the reply to a host command,
whether a file could be opened, and the value of an object that was not written yet. Writing to an
open file succeeds. -/
abbrev ToolReply : ToolCall → Type
  | .libhothDevice => Bool
  | .getParamString _ => Option (List UInt8)
  | .hostcmdExec call => HostReply call
  | .openFile _ => Bool
  | .writeFile _ => Unit
  | .unwritten => ℕ

/-- Programs of the tool. -/
abbrev ToolProgram := Interaction ToolReply

/-- The history of a run of the tool. -/
abbrev ToolHistory := List (Exchange ToolReply)

/-! ### Host commands with a legacy status -/

/-- What `libhoth_hostcmd_exec` leaves to its caller: the `int`, the response buffer and the size
word. -/
structure HostcmdResult where
  status : BitVec 32
  respBuf : List UInt8
  outRespSize : ℕ

/-- The result that a reply leaves, for a buffer and a size word with given contents. -/
def hostcmdResult {call : HostCommand} (reply : HostReply call) (respBuf : List UInt8)
    (outRespSize : ℕ) : HostcmdResult :=
  match reply with
  | .failed err _ => ⟨legacyCode err, respBuf, outRespSize⟩
  | .accepted payload _ => ⟨0, payload ++ respBuf.drop payload.length, payload.length⟩

/-- `libhoth_hostcmd_exec`, with a size word that was not written before. -/
def libhothHostcmdExec (call : HostCommand) (respBuf : List UInt8) :
    ToolProgram HostcmdResult := do
  let outRespSize ← request ToolCall.unwritten
  let reply ← request (ToolCall.hostcmdExec call)
  return hostcmdResult reply respBuf outRespSize

/-- Every reply, and every value of the size word, gives a run. -/
theorem runs_libhothHostcmdExec (call : HostCommand) (respBuf : List UInt8)
    (reply : HostReply call) (outRespSize : ℕ) (past : ToolHistory) :
    Runs recording (libhothHostcmdExec call respBuf) past
      (hostcmdResult reply respBuf outRespSize)
      (past ++ [⟨.unwritten, outRespSize⟩] ++ [⟨.hostcmdExec call, reply⟩]) := by
  rw [libhothHostcmdExec, runs_bind]
  refine ⟨outRespSize, _, (runs_request _ _ _ _).mpr rfl, ?_⟩
  rw [runs_bind]
  exact ⟨reply, _, (runs_request _ _ _ _).mpr rfl, rfl, rfl⟩

/-- The status is the legacy code of the error that the execution on the transport returned. -/
theorem hostcmdResult_status {call : HostCommand} {outcome : ExecOutcome}
    {execution : TransportHistory}
    (hexec : ExecRun call.command call.version call.payload
      (some (List.replicate call.respBufSize 0)) call.respBufSize
      (if call.sized then some 0 else none) outcome execution) (respBuf : List UInt8)
    (outRespSize : ℕ) :
    (hostcmdResult (replyOfOutcome call outcome) respBuf outRespSize).status =
      legacyCode outcome.error := by
  rw [← replyOfOutcome_error hexec]
  cases replyOfOutcome call outcome with
  | failed err nonzero => rfl
  | accepted payload fits => exact (if_pos rfl).symm

/-! ### The security version -/

/-- `libhoth_security_version`. -/
inductive LibhothSecurityVersion
  | unknown
  | none
  | v2
  | v3
  deriving DecidableEq

/-- `HOTH_BASE_CMD(HOTH_PRV_CMD_HOTH_SECURITY_V2)`. -/
def securityV2Command : ℕ := hothCmdBoardSpecificBase + 0x0003

/-- `HOTH_BASE_CMD(HOTH_PRV_CMD_HOTH_SECURITY_V3)`. -/
def securityV3Command : ℕ := hothCmdBoardSpecificBase + 0x0033

/-- The host command that asks whether a command is supported. -/
def isHostCommandSupportedCall (command : ℕ) : HostCommand where
  command := hothCmdBoardSpecificBase + 0x0011
  version := 0
  payload := Foundation.ByteString.toLittleEndian 2 command
  respBufSize := 1
  sized := false

/-- Asking whether a command is supported, into a byte with given contents: the byte afterwards, or
`none` after a failure. -/
def isHostCommandSupported (command : ℕ) (isSupported : UInt8) : ToolProgram (Option UInt8) := do
  let result ← libhothHostcmdExec (isHostCommandSupportedCall command) [isSupported]
  if result.status ≠ 0 then return none
  else return some (result.respBuf.headD 0)

/-- `htool_get_security_version`. The byte is not written before the first question. -/
def htoolGetSecurityVersion : ToolProgram LibhothSecurityVersion := do
  let unwritten ← request ToolCall.unwritten
  match ← isHostCommandSupported securityV2Command (UInt8.ofNat unwritten) with
  | none => return .unknown
  | some isSupported =>
    if isSupported ≠ 0 then return .v2
    else
      match ← isHostCommandSupported securityV3Command isSupported with
      | none => return .unknown
      | some isSupported => if isSupported ≠ 0 then return .v3 else return .none

/-- A device can say that it supports version 2. -/
theorem exists_runs_htoolGetSecurityVersion (past : ToolHistory) :
    ∃ now, Runs recording htoolGetSecurityVersion past .v2 now := by
  have hfits : PayloadFits [1] (isHostCommandSupportedCall securityV2Command).respBufSize
      (isHostCommandSupportedCall securityV2Command).sized := rfl
  have hsupported : Runs recording (isHostCommandSupported securityV2Command 0)
      (past ++ [⟨.unwritten, (0 : ℕ)⟩]) (some 1) _ :=
    (runs_bind _ _ _ _ _).mpr
      ⟨_, _, runs_libhothHostcmdExec _ _ (.accepted [1] hfits) 0 _, rfl, rfl⟩
  have hfirst : Runs recording (request ToolCall.unwritten) past (0 : ℕ)
      (past ++ [⟨.unwritten, (0 : ℕ)⟩]) :=
    (runs_request _ _ _ _).mpr rfl
  exact ⟨_, (runs_bind _ _ _ _ _).mpr
    ⟨0, _, hfirst, (runs_bind _ _ _ _ _).mpr ⟨some 1, _, hsupported, rfl, rfl⟩⟩⟩

end Libhoth.Examples.HtoolProgram
