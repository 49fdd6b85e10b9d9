import Libhoth.Foundation.StreamTransducer
import Libhoth.Protocol.HostCommandProgram

/-!
# Writing to the console

`libhoth_write_console` reads what was typed, at most 64 bytes at a time, and sends it to a channel.
`unescape` removes the escapes from the bytes in place: a doubled escape character is the character,
`b` behind one asks for a break, `q` for the end, and anything else is dropped. A variable of the
function keeps an open escape between the calls.

`keystrokes` is what the escapes mean, a byte at a time. `unescape` gives up the whole read when it
comes to a break or to the end, so the calls send what was typed exactly when no read has a break
or the end together with anything else: `CleanRead` says so of one read, and `writeConsole_iff` of
every run.
-/

set_option autoImplicit false
set_option relaxedAutoImplicit false

namespace Libhoth.Protocol.ConsoleWrite

open Foundation.ByteString Foundation.InteractingProgram Foundation.StreamTransducer Status
open HostCommand HostCommandProgram

/-! ### Escapes -/

/-- `ESCAPE_CHAR`. -/
def escapeChar : UInt8 := 0o24

/-- `struct unescape_flags`. -/
structure UnescapeFlags where
  quit : Bool
  uartBreak : Bool
  deriving DecidableEq

/-- The variables of `unescape` and what it printed: the characters put out so far are at the front
of the buffer that it reads. -/
structure Unescaping where
  buf : List UInt8
  out : ℕ
  escaped : Bool
  flags : UnescapeFlags
  stderr : String

/-- `buf[out++] = char`. -/
def Unescaping.put (state : Unescaping) (char : UInt8) : Unescaping :=
  { state with buf := state.buf.set state.out char, out := state.out + 1 }

/-- One round of the loop of `unescape`: it goes on, or returns. -/
def unescapeChar (state : Unescaping) (char : UInt8) : Unescaping ⊕ Unescaping :=
  if ¬state.escaped then
    if char = escapeChar then .inl { state with escaped := true }
    else .inl (state.put char)
  else
    let state := { state with escaped := false }
    if char = escapeChar then .inl (state.put char)
    else if char = 0x51 ∨ char = 0x71 then
      .inr { state with flags := { state.flags with quit := true }, out := 0 }
    else if char = 0x42 ∨ char = 0x62 then
      .inr { state with flags := { state.flags with uartBreak := true }, out := 0 }
    else .inl { state with stderr := state.stderr ++ "unsupported escape key.\n" }

/-- The loop of `unescape` from an index. -/
def unescapeLoop : ℕ → ℕ → Unescaping → Unescaping
  | 0, _, state => state
  | remaining + 1, index, state =>
    match unescapeChar state (state.buf.getD index 0) with
    | .inl next => unescapeLoop remaining (index + 1) next
    | .inr returned => returned

/-- `unescape`: the value it returns is `out`. -/
def unescape (buf : List UInt8) (count : ℕ) (flags : UnescapeFlags) (escaped : Bool) : Unescaping :=
  unescapeLoop count 0 ⟨buf, 0, escaped, flags, ""⟩

/-! ### The calls -/

/-- What a read of the standard input may return, up to the size of the buffer. -/
structure StdinRead where
  bytes : List UInt8
  nonempty : 0 < bytes.length
  fits : bytes.length ≤ 64

/-- What `libhoth_write_console` asks of the world around it. -/
inductive WriteCall
  | fcntlGetfl
  | fcntlSetfl (flags : BitVec 32)
  | read
  | hostcmdExec (call : HostCommand)
  | fprintf (text : String)

/-- The replies of the calls. A read that fails or is at the end of the input returns no bytes. -/
abbrev WriteReply : WriteCall → Type
  | .fcntlGetfl => BitVec 32
  | .fcntlSetfl _ => Unit
  | .read => Option StdinRead
  | .hostcmdExec call => HostReply call
  | .fprintf _ => Unit

/-- Programs that write to the console. -/
abbrev WriteProgram := Interaction WriteReply

/-- The history of a run of such a program. -/
abbrev WriteHistory := List (Exchange WriteReply)

/-- `O_NONBLOCK`. -/
def oNonblock : BitVec 32 := 0x800#32

/-- `HOTH_CHANNEL_WRITE_REQUEST_FLAG_FORCE_DRIVE_TX`. -/
def forceDriveTxFlag : ℕ := 1 <<< 0

/-- `HOTH_CHANNEL_WRITE_REQUEST_FLAG_SEND_BREAK`. -/
def sendBreakFlag : ℕ := 1 <<< 1

/-- The host command that writes to a channel. -/
def channelWriteCall (channelId : ℕ) (forceDriveTx uartBreak : Bool) (data : List UInt8) :
    HostCommand where
  command := hothCmdBoardSpecificBase + 0x0038
  version := 1
  payload := toLittleEndian 4 channelId ++
    toLittleEndian 4 ((if forceDriveTx then forceDriveTxFlag else 0) |||
      (if uartBreak then sendBreakFlag else 0)) ++ data
  respBufSize := 0
  sized := false

/-- `HOTH_RES_UNAVAILABLE`. -/
def hothResUnavailable : BitVec 32 := 9

/-- What is printed when the device could not tell who drives the line. -/
def unavailableText : String :=
  "This is likely because the RoT was unable to confirm that no " ++
    "other device is driving the UART TX net. If you are certain " ++
    "that nothing else is driving, use the -f flag to override.\n"

/-- The status of a reply, with the advice that is printed for one of the errors. -/
def writeStatus {call : HostCommand} (reply : HostReply call) : WriteProgram LibhothError :=
  if libhothErrGetSpace reply.error = BitVec.ofNat 16 HothHostSpace.ec.value ∧
      libhothErrGetCode reply.error = hothResUnavailable then do
    let _ ← request (WriteCall.fprintf unavailableText)
    return reply.error
  else return reply.error

/-- What a call leaves: the status, `*quit`, and the open escape. -/
structure WriteConsoleResult where
  status : LibhothError
  quit : Bool
  escaped : Bool

/-- The part of `libhoth_write_console` behind `unescape`. -/
def writeUnescaped (channelId : ℕ) (forceDriveTx : Bool) (state : Unescaping) :
    WriteProgram WriteConsoleResult := do
  if state.flags.quit ∨ (state.out = 0 ∧ ¬state.flags.uartBreak) then
    return ⟨hothSuccess, state.flags.quit, state.escaped⟩
  else
    let reply ← request (WriteCall.hostcmdExec
      (channelWriteCall channelId forceDriveTx state.flags.uartBreak (state.buf.take state.out)))
    let status ← writeStatus reply
    return ⟨status, state.flags.quit, state.escaped⟩

/-- `libhoth_write_console`. -/
def libhothWriteConsole (channelId : ℕ) (forceDriveTx quit escaped : Bool) :
    WriteProgram WriteConsoleResult := do
  let flags ← request WriteCall.fcntlGetfl
  let _ ← request (WriteCall.fcntlSetfl (flags ||| oNonblock))
  let numRead ← request WriteCall.read
  let flags ← request WriteCall.fcntlGetfl
  let _ ← request (WriteCall.fcntlSetfl (flags &&& ~~~oNonblock))
  match numRead with
  | none => return ⟨hothSuccess, quit, escaped⟩
  | some typed =>
    let state := unescape typed.bytes typed.bytes.length ⟨false, false⟩ escaped
    let _ ← request (WriteCall.fprintf state.stderr)
    writeUnescaped channelId forceDriveTx state

/-- Calls one after another, until one sees the end. -/
def writeConsoleCalls (channelId : ℕ) (forceDriveTx : Bool) : ℕ → Bool → WriteProgram (Option Bool)
  | 0, escaped => return some escaped
  | calls + 1, escaped => do
    let result ← libhothWriteConsole channelId forceDriveTx false escaped
    if result.quit then return none
    else writeConsoleCalls channelId forceDriveTx calls result.escaped

/-! ### What is typed and what is sent -/

/-- What reaches the channel: a byte or a break. -/
inductive KeyEvent
  | byte (value : UInt8)
  | uartBreak
  deriving DecidableEq

/-- What a byte typed means, where an escape may be open. -/
def keystroke (escaped : Bool) (char : UInt8) : List KeyEvent × Option Bool :=
  if ¬escaped then
    if char = escapeChar then ([], some true) else ([.byte char], some false)
  else if char = escapeChar then ([.byte char], some false)
  else if char = 0x51 ∨ char = 0x71 then ([], none)
  else if char = 0x42 ∨ char = 0x62 then ([.uartBreak], some false)
  else ([], some false)

/-- What the bytes typed mean. The end stops it. -/
def keystrokes : Transducer Bool UInt8 KeyEvent where
  step := keystroke

/-- The bytes that an exchange read from the standard input. -/
def typedRead : Exchange WriteReply → Option StdinRead
  | ⟨.read, typed⟩ => typed
  | _ => none

/-- The reads of a history that returned bytes, in order. -/
def typedReads (history : WriteHistory) : List StdinRead :=
  history.filterMap typedRead

/-- What a request to write to a channel asks for. The break comes first. -/
def requestedEvents (call : HostCommand) : List KeyEvent :=
  (if (wordAt call.payload 4 4).testBit 1 then [.uartBreak] else []) ++
    (call.payload.drop 8).map .byte

/-- What an exchange sends to the channel. -/
def sentEvent : Exchange WriteReply → List KeyEvent
  | ⟨.hostcmdExec call, _⟩ => requestedEvents call
  | _ => []

/-- What a history sent to the channel, in order. -/
def sentEvents (history : WriteHistory) : List KeyEvent :=
  history.flatMap sentEvent

/-! ### The bytes left by unescape -/

/-- What the state of `unescape` at its return makes `libhoth_write_console` send. -/
def Unescaping.sent (state : Unescaping) : List KeyEvent :=
  if state.flags.quit then []
  else (if state.flags.uartBreak then [.uartBreak] else []) ++ (state.buf.take state.out).map .byte

/-- The open escape that it leaves to the next call, if there is to be one. -/
def Unescaping.next (state : Unescaping) : Option Bool :=
  if state.flags.quit then none else some state.escaped

/-- The three ways in which `unescape` returns, behind bytes that it has put out before: with all
the bytes, at the end, or at a break, whatever stands behind it. -/
inductive Returns (made : List UInt8) : List KeyEvent × Option Bool → Unescaping → Prop
  | all (bytes : List UInt8) (state : Unescaping) (hout : state.out = (made ++ bytes).length)
    (hbuf : state.buf.take state.out = made ++ bytes) (hflags : state.flags = ⟨false, false⟩) :
    Returns made (bytes.map .byte, some state.escaped) state
  | quit (bytes : List UInt8) (state : Unescaping) (hout : state.out = 0)
    (hflags : state.flags = ⟨true, false⟩) : Returns made (bytes.map .byte, none) state
  | uartBreak (bytes : List UInt8) (later : List KeyEvent × Option Bool) (state : Unescaping)
    (hout : state.out = 0) (hescaped : state.escaped = false)
    (hflags : state.flags = ⟨false, true⟩) :
    Returns made (bytes.map .byte ++ .uartBreak :: later.1, later.2) state

/-- A byte put out is one more byte of what the read means. -/
theorem Returns.cons {made : List UInt8} {byte : UInt8} {heard : List KeyEvent × Option Bool}
    {state : Unescaping} (hreturns : Returns (made ++ [byte]) heard state) :
    Returns made (.byte byte :: heard.1, heard.2) state := by
  cases hreturns with
  | all bytes _ hout hbuf hflags =>
    rw [List.append_assoc, List.singleton_append] at hout hbuf
    exact .all (byte :: bytes) state hout hbuf hflags
  | quit bytes _ hout hflags => exact .quit (byte :: bytes) state hout hflags
  | uartBreak bytes later _ hout hescaped hflags =>
    exact .uartBreak (byte :: bytes) later state hout hescaped hflags

/-- The loop of `unescape` has put out some bytes at the front of the buffer and has not yet seen
others at its end. What lies between is no longer needed. -/
structure Unescaped (made gap rest : List UInt8) (state : Unescaping) : Prop where
  buf : state.buf = made ++ gap ++ rest
  out : state.out = made.length
  flags : state.flags = ⟨false, false⟩

/-- A character that is not put out widens the gap. -/
theorem Unescaped.skip {made gap rest : List UInt8} {char : UInt8} {state next : Unescaping}
    (hstate : Unescaped made gap (char :: rest) state) (hbuf : next.buf = state.buf)
    (hout : next.out = state.out) (hflags : next.flags = state.flags) :
    Unescaped made (gap ++ [char]) rest next where
  buf := by rw [hbuf, hstate.buf]; simp
  out := by rw [hout, hstate.out]
  flags := by rw [hflags, hstate.flags]

/-- A character that is put out overwrites the first one of the gap, or itself. -/
theorem Unescaped.put {made gap rest : List UInt8} {char : UInt8} {state : Unescaping}
    (hstate : Unescaped made gap (char :: rest) state) :
    ∃ other, other.length = gap.length ∧
      Unescaped (made ++ [char]) other rest (state.put char) := by
  have hset : state.buf.set state.out char = made ++ (gap ++ char :: rest).set 0 char := by
    rw [hstate.buf, hstate.out, List.append_assoc, List.set_append_right _ _ le_rfl, Nat.sub_self]
  have hout : (state.put char).out = (made ++ [char]).length := by
    simp [Unescaping.put, hstate.out]
  cases gap with
  | nil => exact ⟨[], rfl, by simpa [Unescaping.put] using hset, hout, hstate.flags⟩
  | cons first later =>
    refine ⟨later ++ [char], by simp, ?_, hout, hstate.flags⟩
    simpa [Unescaping.put] using hset

theorem Unescaped.getD_buf {made gap rest : List UInt8} {char : UInt8} {state : Unescaping}
    (hstate : Unescaped made gap (char :: rest) state) :
    state.buf.getD (made.length + gap.length) 0 = char := by
  rw [hstate.buf, ← List.length_append]
  simp

/-- The loop of `unescape` makes of the characters what they mean, as far as it goes. -/
theorem returns_unescapeLoop (rest : List UInt8) {made gap : List UInt8} {state : Unescaping}
    (hstate : Unescaped made gap rest state) :
    Returns made (keystrokes.feed (some state.escaped) rest)
      (unescapeLoop rest.length (made.length + gap.length) state) := by
  induction rest generalizing made gap state with
  | nil =>
    refine .all [] state ?_ ?_ hstate.flags
    · rw [List.append_nil, hstate.out]
    · rw [hstate.buf, hstate.out]
      simp
  | cons char rest ih =>
    have hskip : ∀ next : Unescaping, next.buf = state.buf → next.out = state.out →
        next.flags = state.flags → Returns made (keystrokes.feed (some next.escaped) rest)
          (unescapeLoop rest.length (made.length + gap.length + 1) next) := by
      intro next hbuf hout hflags
      have hnext := ih (hstate.skip hbuf hout hflags)
      rwa [List.length_append, List.length_singleton, ← Nat.add_assoc] at hnext
    have hput : ∀ next : Unescaping, next.buf = state.buf → next.out = state.out →
        next.flags = state.flags → Returns made
          (.byte char :: (keystrokes.feed (some next.escaped) rest).1,
            (keystrokes.feed (some next.escaped) rest).2)
          (unescapeLoop rest.length (made.length + gap.length + 1) (next.put char)) := by
      intro next hbuf hout hflags
      have hsame : Unescaped made gap (char :: rest) next :=
        ⟨hbuf.trans hstate.buf, hout.trans hstate.out, hflags.trans hstate.flags⟩
      obtain ⟨other, hother, hnext⟩ := hsame.put
      have hreturns := (ih hnext).cons
      rwa [List.length_append, List.length_singleton, hother, Nat.add_right_comm] at hreturns
    rw [List.length_cons, unescapeLoop, hstate.getD_buf, Transducer.feed_cons,
      show keystrokes.step = keystroke from rfl]
    unfold unescapeChar keystroke
    cases hescaped : state.escaped with
    | false =>
      by_cases hescape : char = escapeChar
      · simpa [hescape] using hskip { state with escaped := true } rfl rfl rfl
      · simpa [hescape, hescaped] using hput state rfl rfl rfl
    | true =>
      by_cases hescape : char = escapeChar
      · simpa [hescape] using hput { state with escaped := false } rfl rfl rfl
      · by_cases hquit : char = 0x51 ∨ char = 0x71
        · simpa [hescape, hquit] using @Returns.quit made []
            { state with escaped := false, flags := { state.flags with quit := true }, out := 0 }
            rfl (by simp [hstate.flags])
        · by_cases hbreak : char = 0x42 ∨ char = 0x62
          · simpa [hescape, hquit, hbreak] using @Returns.uartBreak made []
              (keystrokes.feed (some false) rest)
              { state with
                escaped := false, flags := { state.flags with uartBreak := true }, out := 0 }
              rfl rfl (by simp [hstate.flags])
          · simpa [hescape, hquit, hbreak] using hskip
              { state with
                escaped := false, stderr := state.stderr ++ "unsupported escape key.\n" }
              rfl rfl rfl

/-- `unescape` on the bytes of a read. -/
theorem returns_unescape (bytes : List UInt8) (escaped : Bool) :
    Returns [] (keystrokes.feed (some escaped) bytes)
      (unescape bytes bytes.length ⟨false, false⟩ escaped) := by
  have hstart : Unescaped [] [] bytes ⟨bytes, 0, escaped, ⟨false, false⟩, ""⟩ :=
    ⟨rfl, rfl, rfl⟩
  exact returns_unescapeLoop bytes hstart

/-- What a read means without a break and without the end, or as a break alone, or as the end
without a byte in front. -/
def Plain (heard : List KeyEvent × Option Bool) : Prop :=
  (.uartBreak ∉ heard.1 ∧ heard.2.isSome) ∨ heard = ([.uartBreak], some false) ∨ heard = ([], none)

/-- A read whose escapes are taken for what they are. -/
def CleanRead (escaped : Bool) (read : StdinRead) : Prop :=
  Plain (keystrokes.feed (some escaped) read.bytes)

/-- What is sent of a read is what the read means exactly when it means one of these. -/
theorem Returns.sent_eq_iff {heard : List KeyEvent × Option Bool} {state : Unescaping}
    (hreturns : Returns [] heard state) : (state.sent, state.next) = heard ↔ Plain heard := by
  unfold Plain
  cases hreturns with
  | all bytes _ hout hbuf hflags =>
    rw [List.nil_append] at hbuf
    simp [Unescaping.sent, Unescaping.next, hflags, hbuf]
  | quit bytes _ hout hflags =>
    cases bytes <;> simp [Unescaping.sent, Unescaping.next, hflags]
  | uartBreak bytes later _ hout hescaped hflags =>
    have hsent : (state.sent, state.next) = ([.uartBreak], some false) := by
      simp [Unescaping.sent, Unescaping.next, hflags, hescaped, hout]
    have hbreak : KeyEvent.uartBreak ∈ bytes.map .byte ++ .uartBreak :: later.1 := by simp
    rw [hsent]
    constructor
    · intro heq
      exact .inr (.inl heq.symm)
    · rintro (⟨hnone, -⟩ | heq | heq)
      · exact absurd hbreak hnone
      · exact heq.symm
      · rw [Prod.mk.injEq] at heq
        rw [heq.1] at hbreak
        exact absurd hbreak List.not_mem_nil

/-! ### A call -/

/-- What the calls make of a read: what they send, and the open escape behind it. -/
def writer : Transducer Bool StdinRead KeyEvent where
  step escaped read :=
    let state := unescape read.bytes read.bytes.length ⟨false, false⟩ escaped
    (state.sent, state.next)

/-- What the reads mean. -/
def meaning : Transducer Bool StdinRead KeyEvent :=
  keystrokes.chunked StdinRead.bytes

/-- The calls take a read for what it means exactly when it is clean. -/
theorem writer_step_eq_iff (escaped : Bool) (read : StdinRead) :
    writer.step escaped read = meaning.step escaped read ↔ CleanRead escaped read :=
  (returns_unescape read.bytes escaped).sent_eq_iff

/-- The request to write to a channel asks for the break and the bytes that it was made of. -/
theorem requestedEvents_channelWriteCall (channelId : ℕ) (forceDriveTx uartBreak : Bool)
    (data : List UInt8) :
    requestedEvents (channelWriteCall channelId forceDriveTx uartBreak data) =
      (if uartBreak then [.uartBreak] else []) ++ data.map .byte := by
  have hflags : ((if forceDriveTx then forceDriveTxFlag else 0) |||
      (if uartBreak then sendBreakFlag else 0)) < 256 ^ 4 := by
    cases forceDriveTx <;> cases uartBreak <;> decide
  have hbit : ((if forceDriveTx then forceDriveTxFlag else 0) |||
      (if uartBreak then sendBreakFlag else 0)).testBit 1 = uartBreak := by
    cases forceDriveTx <;> cases uartBreak <;> decide
  have hword : wordAt (channelWriteCall channelId forceDriveTx uartBreak data).payload 4 4 =
      ((if forceDriveTx then forceDriveTxFlag else 0) |||
        (if uartBreak then sendBreakFlag else 0)) := by
    rw [channelWriteCall, List.append_assoc]
    exact wordAt_between (length_toLittleEndian _ _) hflags _
  have hdata : (channelWriteCall channelId forceDriveTx uartBreak data).payload.drop 8 = data :=
    List.drop_left' (by simp)
  rw [requestedEvents, hword, hbit, hdata]

theorem typedReads_append (first second : WriteHistory) :
    typedReads (first ++ second) = typedReads first ++ typedReads second :=
  List.filterMap_append

theorem sentEvents_append (first second : WriteHistory) :
    sentEvents (first ++ second) = sentEvents first ++ sentEvents second :=
  List.flatMap_append

/-- What a history made of the reads in it: what it sent, and the open escape behind it. -/
def Conveys (machine : Transducer Bool StdinRead KeyEvent) (escaped : Bool) (history : WriteHistory)
    (next : Option Bool) : Prop :=
  (sentEvents history, next) = machine.feed (some escaped) (typedReads history)

/-- The open escape that a call leaves to the next one, if there is to be one. -/
def WriteConsoleResult.next (result : WriteConsoleResult) : Option Bool :=
  if result.quit then none else some result.escaped

/-- Looking at the status neither reads nor sends. -/
theorem writeStatus_ensures {call : HostCommand} (reply : HostReply call) (past : WriteHistory) :
    Ensures recording (writeStatus reply) past fun _ now ↦
      sentEvents now = sentEvents past ∧ typedReads now = typedReads past := by
  unfold writeStatus
  split_ifs
  · rw [ensures_bind, ensures_request]
    rintro _ _ rfl
    exact (ensures_done _ _ _).mpr
      ⟨by simp [sentEvents, sentEvent], by simp [typedReads, typedRead]⟩
  · exact (ensures_done _ _ _).mpr ⟨rfl, rfl⟩

/-- What is sent behind `unescape` is what its state holds. -/
theorem writeUnescaped_ensures (channelId : ℕ) (forceDriveTx : Bool) (state : Unescaping)
    (past : WriteHistory) :
    Ensures recording (writeUnescaped channelId forceDriveTx state) past fun result now ↦
      sentEvents now = sentEvents past ++ state.sent ∧ typedReads now = typedReads past ∧
        result.next = state.next := by
  unfold writeUnescaped
  split_ifs with hnothing
  · refine (ensures_done _ _ _).mpr ⟨?_, rfl, rfl⟩
    rcases hnothing with hquit | ⟨hout, hbreak⟩ <;> simp [Unescaping.sent, *]
  · rw [not_or] at hnothing
    rw [ensures_bind, ensures_request]
    rintro reply _ rfl
    rw [ensures_bind]
    refine (writeStatus_ensures reply _).mono fun status now hnow ↦ ?_
    refine (ensures_done _ _ _).mpr ⟨?_, ?_, rfl⟩
    · rw [hnow.1, sentEvents_append]
      simp [sentEvents, sentEvent, requestedEvents_channelWriteCall, Unescaping.sent, hnothing.1]
    · rw [hnow.2, typedReads_append]
      simp [typedReads, typedRead]

/-- A call takes at most one read, and makes of it what `writer` does. -/
theorem libhothWriteConsole_ensures (channelId : ℕ) (forceDriveTx escaped : Bool) :
    Ensures recording (libhothWriteConsole channelId forceDriveTx false escaped) []
      fun result now ↦ Conveys writer escaped now result.next ∧
        ∃ typed : WriteReply .read, ⟨.read, typed⟩ ∈ now ∧ typedReads now = typed.toList := by
  unfold libhothWriteConsole
  rw [ensures_bind, ensures_request]
  rintro flags _ rfl
  rw [ensures_bind, ensures_request]
  rintro _ _ rfl
  rw [ensures_bind, ensures_request]
  rintro typed _ rfl
  rw [ensures_bind, ensures_request]
  rintro flags' _ rfl
  rw [ensures_bind, ensures_request]
  rintro _ _ rfl
  cases typed with
  | none => exact (ensures_done _ _ _).mpr ⟨rfl, none, by simp, rfl⟩
  | some typed =>
    rw [ensures_bind, ensures_request]
    rintro _ _ rfl
    intro result now hrun
    obtain ⟨hsent, htyped, hnext⟩ := writeUnescaped_ensures channelId forceDriveTx _ _ _ _ hrun
    obtain ⟨rest, hnow⟩ := hrun.recording_prefix
    refine ⟨?_, some typed, by simp [hnow], htyped⟩
    rw [Conveys, htyped, hsent, hnext]
    exact (writer.feed_singleton escaped typed).symm

/-- The calls make of all reads what `writer` does. -/
theorem writeConsoleCalls_ensures (channelId : ℕ) (forceDriveTx : Bool) (calls : ℕ)
    (escaped : Bool) :
    Ensures recording (writeConsoleCalls channelId forceDriveTx calls escaped) []
      fun next now ↦ Conveys writer escaped now next := by
  induction calls generalizing escaped with
  | zero => exact (ensures_done _ _ _).mpr rfl
  | succ calls ih =>
    rw [writeConsoleCalls, ensures_bind]
    refine (libhothWriteConsole_ensures channelId forceDriveTx escaped).mono ?_
    rintro result middle ⟨hcall, -⟩
    unfold WriteConsoleResult.next at hcall
    split_ifs at hcall ⊢ with hquit
    · exact (ensures_done _ _ _).mpr hcall
    · intro next now hrun
      rw [← List.append_nil middle, runs_recording_append] at hrun
      obtain ⟨rest, rfl, hrest⟩ := hrun
      have hlater := ih result.escaped next rest hrest
      unfold Conveys at hcall hlater ⊢
      rw [typedReads_append, sentEvents_append, Transducer.feed_append, ← hcall, ← hlater]

/-- Every read of a history is clean where an escape is open or not as the reads before it left
it. -/
def CleanReads (escaped : Bool) (history : WriteHistory) : Prop :=
  ∀ before read, before ++ [read] <+: typedReads history → ∀ middle,
    (keystrokes.feed (some escaped) (before.flatMap StdinRead.bytes)).2 = some middle →
      CleanRead middle read

/-- A call that makes a given read. -/
theorem exists_runs_read (channelId : ℕ) (forceDriveTx escaped : Bool) (read : StdinRead) :
    ∃ result now, Runs recording (libhothWriteConsole channelId forceDriveTx false escaped) []
      result now ∧ typedReads now = [read] := by
  let answer : (call : WriteCall) → WriteReply call
    | .fcntlGetfl => 0
    | .fcntlSetfl _ => ()
    | .read => some read
    | .hostcmdExec call => acceptingReply call
    | .fprintf _ => ()
  obtain ⟨result, now, hrun⟩ := exists_runs_recordingAnswers answer
    (libhothWriteConsole channelId forceDriveTx false escaped) []
  obtain ⟨-, typed, hmem, htyped⟩ := libhothWriteConsole_ensures channelId forceDriveTx escaped
    result now hrun.recording_of_answers
  have hread : typed = some read :=
    hrun.eq_answer (fun _ hnone ↦ absurd hnone List.not_mem_nil) _ hmem
  exact ⟨result, now, hrun.recording_of_answers, by rw [htyped, hread]; rfl⟩

/-- Calls that make given reads, unless one of the reads has the end. -/
theorem exists_runs_reads (channelId : ℕ) (forceDriveTx escaped : Bool) (reads : List StdinRead) :
    ∃ calls next history,
      Runs recording (writeConsoleCalls channelId forceDriveTx calls escaped) [] next history ∧
        typedReads history <+: reads ∧ (typedReads history = reads ∨ next = none) := by
  induction reads generalizing escaped with
  | nil => exact ⟨0, some escaped, [], ⟨rfl, rfl⟩, List.prefix_rfl, .inl rfl⟩
  | cons read rest ih =>
    obtain ⟨result, middle, hcall, htyped⟩ :=
      exists_runs_read channelId forceDriveTx escaped read
    by_cases hquit : result.quit = true
    · refine ⟨1, none, middle, (runs_bind _ _ _ _ _).mpr ⟨result, middle, hcall, ?_⟩, ?_, .inr rfl⟩
      · rw [if_pos hquit]
        exact ⟨rfl, rfl⟩
      · rw [htyped]
        exact List.prefix_append [read] rest
    · obtain ⟨calls, next, history, hrun, hprefix, hall⟩ := ih result.escaped
      refine ⟨calls + 1, next, middle ++ history,
        (runs_bind _ _ _ _ _).mpr ⟨result, middle, hcall, ?_⟩, ?_, ?_⟩
      · rw [if_neg hquit]
        have happend := (runs_recording_append _ middle [] (middle ++ history) next).mpr
          ⟨history, rfl, hrun⟩
        rwa [List.append_nil] at happend
      · rw [typedReads_append, htyped]
        exact (List.prefix_append_right_inj [read]).mpr hprefix
      · refine hall.imp_left fun hreads ↦ ?_
        rw [typedReads_append, htyped, hreads]
        rfl

/-- Along reads that the calls may make, what is sent after any of them is what was typed so far
means, and so is the open escape, exactly when each read is clean where an escape is open or not as
the reads before it left it. -/
theorem conveys_iff (channelId : ℕ) (forceDriveTx : Bool) (reads : List StdinRead) :
    (∀ calls next history,
        Runs recording (writeConsoleCalls channelId forceDriveTx calls false) [] next history →
          typedReads history <+: reads → Conveys meaning false history next) ↔
      ∀ before read, before ++ [read] <+: reads →
        ∀ escaped, (meaning.feed (some false) before).2 = some escaped →
          CleanRead escaped read := by
  have hsteps := writer.feed_eq_iff meaning (some false) reads
  simp only [writer_step_eq_iff] at hsteps
  rw [← hsteps]
  constructor
  · intro hruns beginning hprefix
    obtain ⟨calls, next, history, hrun, htyped, hall⟩ :=
      exists_runs_reads channelId forceDriveTx false beginning
    have hwriter := writeConsoleCalls_ensures channelId forceDriveTx calls false next history hrun
    have hmeaning := hruns calls next history hrun (htyped.trans hprefix)
    unfold Conveys at hwriter hmeaning
    rcases hall with hreads | rfl
    · rw [← hreads, ← hwriter, ← hmeaning]
    · obtain ⟨later, rfl⟩ := htyped
      rw [writer.feed_append_of_stopped (by rw [← hwriter]),
        meaning.feed_append_of_stopped (by rw [← hmeaning]), ← hwriter, ← hmeaning]
  · intro halike calls next history hrun hprefix
    have hwriter := writeConsoleCalls_ensures channelId forceDriveTx calls false next history hrun
    unfold Conveys at hwriter ⊢
    rw [hwriter, halike _ hprefix]

/-- The same with the meaning of the bytes typed, wherever they are cut into reads. -/
theorem writeConsole_iff (channelId : ℕ) (forceDriveTx : Bool) (reads : List StdinRead) :
    (∀ calls next history,
        Runs recording (writeConsoleCalls channelId forceDriveTx calls false) [] next history →
          typedReads history <+: reads →
            (sentEvents history, next) =
              keystrokes.feed (some false) ((typedReads history).flatMap StdinRead.bytes)) ↔
      ∀ before read, before ++ [read] <+: reads →
        ∀ escaped,
          (keystrokes.feed (some false) (before.flatMap StdinRead.bytes)).2 = some escaped →
            CleanRead escaped read := by
  have hiff := conveys_iff channelId forceDriveTx reads
  simp only [Conveys, meaning, Transducer.feed_chunked] at hiff
  exact hiff

/-- An `x`, the escape character and a `b` in one read: the break is sent, the `x` is not. -/
theorem writeConsole_loses_byte :
    ∃ result history, Runs recording (libhothWriteConsole 0 false false false) [] result history ∧
      typedReads history = [⟨[0x78, 0x14, 0x62], by decide, by decide⟩] ∧
        sentEvents history = [.uartBreak] ∧
          keystrokes.feed (some false) ((typedReads history).flatMap StdinRead.bytes) =
            ([.byte 0x78, .uartBreak], some false) := by
  obtain ⟨result, history, hrun, htyped⟩ := exists_runs_read 0 false false
    ⟨[0x78, 0x14, 0x62], by decide, by decide⟩
  obtain ⟨hconveys, -⟩ := libhothWriteConsole_ensures 0 false false result history hrun
  rw [Conveys, htyped, Transducer.feed_singleton] at hconveys
  refine ⟨result, history, hrun, htyped, congrArg Prod.fst hconveys, ?_⟩
  rw [htyped]
  decide

end Libhoth.Protocol.ConsoleWrite
