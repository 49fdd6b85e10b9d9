import Libhoth.Protocol.HostCommandProgram

/-!
# Reading the console

`console.c`. A channel is a stream of bytes with a 32-bit offset that wraps around.
`libhothReadConsole` requests the data at an offset, prints it, and moves the offset behind it; a
reply may start later than requested, when the device no longer has the data.

`libhothPrintErotConsole` prints what the channel has until the offset at which it wrote when the
function began. It makes its calls through `SnapshotCall`, and `snapshotHandler` answers a call by
running the function that it stands for. `snapshotLoop` is the loop that it shares with the snapshot
of the tool; the device need not end it, so it is cut off after a number of rounds.
-/

set_option autoImplicit false
set_option relaxedAutoImplicit false

namespace Libhoth.Protocol.Console

open Foundation.ByteString Foundation.InteractingProgram Status HostCommand HostCommandProgram

/-! ### The calls -/

/-- What the console functions ask of the world around them. One of the calls is the bytes that an
object holds before it is written. -/
inductive ConsoleCall
  | hostcmdExec (call : HostCommand)
  | write (fd : ℕ) (buf : List UInt8)
  | printf (text : List UInt8)
  | unwritten (size : ℕ)

/-- The result of `write`: an error number, or a part of the buffer that was written. -/
inductive WriteReply (count : ℕ)
  | failed (errno : ℕ) (nonzero : errno ≠ 0)
  | wrote (bytesWritten : ℕ) (progress : 0 < bytesWritten) (fits : bytesWritten ≤ count)

/-- The replies of the calls. -/
abbrev ConsoleReply : ConsoleCall → Type
  | .hostcmdExec call => HostReply call
  | .write _ buf => WriteReply buf.length
  | .printf _ => Unit
  | .unwritten size => Vector UInt8 size

/-- Programs of the console. -/
abbrev ConsoleProgram := Interaction ConsoleReply

/-- The history of a run of a console program. -/
abbrev ConsoleHistory := List (Exchange ConsoleReply)

/-! ### Writing to the terminal -/

/-- `STDOUT_FILENO`. -/
def stdoutFileno : ℕ := 1

/-- One round of the loop of `libhoth_force_write`. -/
def forceWriteRound (fd : ℕ) (buf : List UInt8) :
    ConsoleProgram ({rest : List UInt8 // rest.length < buf.length} ⊕ ℕ) := do
  if hmore : buf.length > 0 then
    match ← request (ConsoleCall.write fd buf) with
    | .failed errno _ => return .inr errno
    | .wrote bytesWritten progress _ =>
      return .inl ⟨buf.drop bytesWritten, by
        rw [List.length_drop]
        omega⟩
  else return .inr 0

/-- `libhoth_force_write`: zero, or an error number. -/
def libhothForceWrite (fd : ℕ) (buf : List UInt8) : ConsoleProgram ℕ :=
  whileDecreasing List.length (forceWriteRound fd) buf

/-- What is printed for data in the format of a prototext. -/
def formatPrototext (data : List UInt8) : List UInt8 :=
  data.flatMap fun byte ↦ if byte = 10 then [34, 10, 34, 32] else if byte = 13 then [32] else [byte]

/-- Show data: formatted on the terminal, or as it is in a file. -/
def showData (fd : ℕ) (prototextFormatEnabled : Bool) (data : List UInt8) :
    ConsoleProgram LibhothError := do
  if prototextFormatEnabled then
    let _ ← request (ConsoleCall.printf (formatPrototext data))
    return hothSuccess
  else
    let errno ← libhothForceWrite fd data
    if errno ≠ 0 then return cmdExecError .posix (BitVec.ofNat 64 errno)
    else return hothSuccess

/-- The part of `libhoth_read_console` that shows the data of a response, if there is any. -/
def showResponse (fd : ℕ) (prototextFormatEnabled : Bool) (resp : List UInt8) (len : ℤ) :
    ConsoleProgram LibhothError :=
  if len > 0 then showData fd prototextFormatEnabled (slice resp 4 len.toNat)
  else return hothSuccess

/-! ### The host commands -/

/-- `EROT_CHANNEL_ID`. -/
def erotChannelId : ℕ := 0x45524F54

/-- The size of the data in a response: `HOTH_FIFO_MAX_REQUEST_SIZE` less two headers. -/
def channelReadSize : ℕ := 1024 - headerSize - 4

/-- The host command of `libhoth_get_channel_status`. -/
def channelStatusCall (channelId : ℕ) : HostCommand where
  command := hothCmdBoardSpecificBase + 0x0037
  version := 0
  payload := toLittleEndian 4 channelId
  respBufSize := 4
  sized := false

/-- `libhoth_get_channel_status`: an error, or the offset that it writes. -/
def libhothGetChannelStatus (channelId : ℕ) :
    ConsoleProgram (Except LibhothError (BitVec 32)) := do
  match ← request (ConsoleCall.hostcmdExec (channelStatusCall channelId)) with
  | .failed status _ => return .error status
  | .accepted resp _ => return .ok (BitVec.ofNat 32 (littleEndian resp))

/-- The host command of `libhoth_read_console`. -/
def channelReadCall (channelId : ℕ) (offset : BitVec 32) : HostCommand where
  command := hothCmdBoardSpecificBase + 0x0036
  version := 0
  payload := toLittleEndian 4 channelId ++ toLittleEndian 4 offset.toNat ++
    toLittleEndian 4 channelReadSize ++ toLittleEndian 4 10000
  respBufSize := 4 + channelReadSize
  sized := true

/-- What `libhoth_read_console` leaves to its caller: a status and the offset. -/
structure ReadConsoleResult where
  status : LibhothError
  offset : BitVec 32

/-- `libhoth_read_console`. The struct for the response is not written before. -/
def libhothReadConsole (fd : ℕ) (prototextFormatEnabled : Bool) (channelId : ℕ)
    (offset : BitVec 32) : ConsoleProgram ReadConsoleResult := do
  let unwritten ← request (ConsoleCall.unwritten (4 + channelReadSize))
  match ← request (ConsoleCall.hostcmdExec (channelReadCall channelId offset)) with
  | .failed status _ => return ⟨status, offset⟩
  | .accepted payload _ =>
    let resp := payload ++ unwritten.toList.drop payload.length
    let len : ℤ := payload.length - 4
    let status ← showResponse fd prototextFormatEnabled resp len
    if status ≠ hothSuccess then return ⟨status, offset⟩
    else return ⟨hothSuccess, BitVec.ofNat 32 (wordAt resp 0 4) + BitVec.ofInt 32 len⟩

/-! ### The snapshot -/

/-- What a snapshot asks for. -/
inductive SnapshotCall
  | getChannelStatus (channelId : ℕ)
  | readConsole (fd : ℕ) (prototextFormatEnabled : Bool) (channelId : ℕ) (offset : BitVec 32)

/-- The replies of its calls. -/
abbrev SnapshotReply : SnapshotCall → Type
  | .getChannelStatus _ => Except LibhothError (BitVec 32)
  | .readConsole _ _ _ _ => ReadConsoleResult

/-- Programs over the calls. -/
abbrev SnapshotProgram := Interaction SnapshotReply

/-- The exchanges of a snapshot. -/
abbrev SnapshotHistory := List (Exchange SnapshotReply)

/-- Each call runs the function that it stands for. -/
def snapshotHandler : (call : SnapshotCall) → ConsoleProgram (SnapshotReply call)
  | .getChannelStatus channelId => libhothGetChannelStatus channelId
  | .readConsole fd prototextFormatEnabled channelId offset =>
    libhothReadConsole fd prototextFormatEnabled channelId offset

/-- The condition under which a snapshot reads on. -/
def ReadsOn (currentOffset offset : BitVec 32) : Prop :=
  offset < currentOffset ∨ offset - currentOffset > 0x80000000#32

instance (currentOffset offset : BitVec 32) : Decidable (ReadsOn currentOffset offset) :=
  inferInstanceAs (Decidable (_ ∨ _))

/-- One round of the loop of a snapshot. -/
def snapshotRound (prototextFormatEnabled : Bool) (channelId : ℕ)
    (currentOffset offset : BitVec 32) : SnapshotProgram (BitVec 32 ⊕ LibhothError) := do
  let result ← request
    (SnapshotCall.readConsole stdoutFileno prototextFormatEnabled channelId offset)
  if result.status ≠ hothSuccess then return .inr result.status
  else if ¬ReadsOn currentOffset result.offset then return .inr result.status
  else return .inl result.offset

/-- The loop of a snapshot, from far behind the history that the device can have: the status at its
end, unless the rounds ran out. -/
def snapshotLoop (prototextFormatEnabled : Bool) (channelId : ℕ) (currentOffset : BitVec 32)
    (rounds : ℕ) : SnapshotProgram (Option LibhothError) :=
  whileRounds (snapshotRound prototextFormatEnabled channelId currentOffset) rounds
    (currentOffset - 0x80000000#32)

/-- `libhoth_print_erot_console`. -/
def libhothPrintErotConsole (rounds : ℕ) : SnapshotProgram (Option Unit) := do
  match ← request (SnapshotCall.getChannelStatus erotChannelId) with
  | .error _ => return some ()
  | .ok currentOffset =>
    let ended ← snapshotLoop true erotChannelId currentOffset rounds
    return ended.map fun _ ↦ ()

end Libhoth.Protocol.Console
