import Libhoth.Protocol.ConsoleRead
import Libhoth.Protocol.ConsoleWrite

/-!
# The interactive console

`htool_console_run` of `htool_console.c` reads a channel and writes what is typed to it, round by
round, and gives the interface to other clients in between. A round that fails reconnects the device
before the next one. `SessionCall` is what it asks for, with the calls that its parts make:
`htoolConsoleRun` runs the functions of `console.c` themselves.

`htoolConsoleRun_ensures` is about every run, however the device and the other clients behave. Every
host command is sent while the interface is claimed (`ClaimedAccess`). The reads follow one another
over reconnects: each asks for what is behind the last that was put out whole, and one that failed,
or whose output broke off at a failed write, is asked for again (`Follows`). So the output has each
offset once as long as the replies start where they were asked to and no write fails (`InOrder`).
What is typed is sent in order to the key that quits, a read at a time as `unescape` takes it, and
that is what the keys mean when the reads are clean (`Types`). The terminal is made raw once and
restored once, and left alone when the session fails to start.
-/

set_option autoImplicit false
set_option relaxedAutoImplicit false

namespace Libhoth.Examples.ConsoleSession

open Foundation.ByteString Foundation.InteractingProgram Foundation.StreamTransducer
open Protocol.Status Protocol.HostCommand Protocol.HostCommandProgram Protocol.Console
open Protocol.ConsoleRead Protocol.ConsoleWrite

/-! ### The session -/

/-- `struct libhoth_htool_console_opts`, as far as a session reads it. -/
structure LibhothHtoolConsoleOpts where
  channelId : ℕ
  forceDriveTx : Bool
  history : Bool
  onlcr : Bool
  baudRate : UInt32
  claimTimeoutSecs : UInt32
  yieldMs : UInt32

/-- What a session asks for: the calls of the functions that start it, read the channel and write
what is typed, and its own. -/
inductive SessionCall
  | starting (call : ConsoleCall)
  | reading (call : ConsoleCall)
  | typing (call : WriteCall)
  | setRawTerminal (onlcr : Bool)
  | restoreTerminal
  | reconnect
  | releaseDevice
  | claimDevice (timeoutUs : UInt32)
  | usleep (us : UInt32)
  | printf (text : String)
  | fprintf (text : String)

/-- The replies of its calls. -/
abbrev SessionReply : SessionCall → Type
  | .starting call => ConsoleReply call
  | .reading call => ConsoleReply call
  | .typing call => Protocol.ConsoleWrite.WriteReply call
  | .setRawTerminal _ => Bool
  | .restoreTerminal => Unit
  | .reconnect => LibhothError
  | .releaseDevice => LibhothError
  | .claimDevice _ => LibhothError
  | .usleep _ => Unit
  | .printf _ => Unit
  | .fprintf _ => Unit

/-- Programs of a session. -/
abbrev SessionProgram := Interaction SessionReply

/-- The exchanges of a session. -/
abbrev SessionHistory := List (Exchange SessionReply)

/-- One round of the loop that reconnects. -/
def reconnectRound (_ : Unit) : SessionProgram (Unit ⊕ Unit) := do
  let status ← request SessionCall.reconnect
  if status ≠ hothSuccess then do
    request (SessionCall.usleep (100 * 1000))
    return .inl ()
  else return .inr ()

/-- The variables of the loop of a session, with the open escape of `unescape`. -/
structure SessionState where
  status : LibhothError
  offset : BitVec 32
  quit : Bool
  escaped : Bool

/-- The calls that send a host command. -/
def accesses : SessionCall → Bool
  | .starting (.hostcmdExec _) => true
  | .reading (.hostcmdExec _) => true
  | .typing (.hostcmdExec _) => true
  | _ => false

/-- Whether the interface is claimed behind an exchange. A reconnect makes nothing of it. -/
def heldAfter (held : Bool) : Exchange SessionReply → Bool
  | ⟨.reconnect, _⟩ => false
  | ⟨.releaseDevice, _⟩ => false
  | ⟨.claimDevice _, status⟩ => decide (status = hothSuccess)
  | _ => held

/-- Whether the interface is claimed behind a history. It is when the session begins. -/
def held (history : SessionHistory) : Bool :=
  history.foldl heldAfter true

/-- Every host command is sent while the interface is claimed. -/
def ClaimedAccess (history : SessionHistory) : Prop :=
  Unbroken (fun before exchange ↦ accesses exchange.1 = true ∧ held before = false) history

/-- What an exchange has to do with reading. -/
def readingOf : Exchange SessionReply → Option (Exchange ConsoleReply)
  | ⟨.reading call, reply⟩ => some ⟨call, reply⟩
  | _ => none

/-- What an exchange has to do with typing. -/
def typingOf : Exchange SessionReply → Option (Exchange Protocol.ConsoleWrite.WriteReply)
  | ⟨.typing call, reply⟩ => some ⟨call, reply⟩
  | _ => none

/-- A change of the terminal. -/
inductive TerminalChange
  | raw
  | restored

/-- What an exchange does to the terminal. -/
def terminalChangeOf : Exchange SessionReply → Option TerminalChange
  | ⟨.setRawTerminal _, _⟩ => some .raw
  | ⟨.restoreTerminal, _⟩ => some .restored
  | _ => none

/-- The reads of a history. -/
def readings (history : SessionHistory) : ConsoleHistory :=
  history.filterMap readingOf

/-- The writes of a history. -/
def typings (history : SessionHistory) : WriteHistory :=
  history.filterMap typingOf

/-- The changes of the terminal in a history. -/
def terminalChanges (history : SessionHistory) : List TerminalChange :=
  history.filterMap terminalChangeOf

/-- Reads one after another, with what they put out. A read that is put out leaves the offset behind
its data. One that failed leaves the offset, and so does one whose output was broken off behind a
beginning. -/
inductive Follows (channelId : ℕ) (broken : Prop) :
    BitVec 32 → HostHistory → List UInt8 → BitVec 32 → Prop
  | nil (offset : BitVec 32) : Follows channelId broken offset [] [] offset
  | advanced {offset final : BitVec 32} {rest : HostHistory} {output : List UInt8}
    (payload : List UInt8) (fits : PayloadFits payload
      (channelReadCall channelId offset).respBufSize (channelReadCall channelId offset).sized)
    (hrest : Follows channelId broken (offsetBehind payload) rest output final) :
    Follows channelId broken offset
      (⟨channelReadCall channelId offset, .accepted payload fits⟩ :: rest)
      (payload.drop 4 ++ output) final
  | refused {offset final : BitVec 32} {rest : HostHistory} {output : List UInt8}
    (status : LibhothError) (failed : status ≠ hothSuccess)
    (hrest : Follows channelId broken offset rest output final) :
    Follows channelId broken offset
      (⟨channelReadCall channelId offset, .failed status failed⟩ :: rest) output final
  | brokenOff {offset final : BitVec 32} {rest : HostHistory} {output : List UInt8}
    (hbroken : broken) (payload : List UInt8) (fits : PayloadFits payload
      (channelReadCall channelId offset).respBufSize (channelReadCall channelId offset).sized)
    (part : List UInt8) (hpart : part <+: payload.drop 4)
    (hrest : Follows channelId broken offset rest output final) :
    Follows channelId broken offset
      (⟨channelReadCall channelId offset, .accepted payload fits⟩ :: rest)
      (part ++ output) final

theorem Follows.append {channelId : ℕ} {broken : Prop} {offset middle final : BitVec 32}
    {first second : HostHistory} {output later : List UInt8}
    (hfirst : Follows channelId broken offset first output middle)
    (hsecond : Follows channelId broken middle second later final) :
    Follows channelId broken offset (first ++ second) (output ++ later) final := by
  induction hfirst with
  | nil offset => exact hsecond
  | advanced payload fits hrest ih =>
    rw [List.append_assoc]
    exact .advanced payload fits (ih hsecond)
  | refused status failed hrest ih => exact .refused status failed (ih hsecond)
  | brokenOff hbroken payload fits part hpart hrest ih =>
    rw [List.append_assoc]
    exact .brokenOff hbroken payload fits part hpart (ih hsecond)

theorem Follows.mono {channelId : ℕ} {broken broken' : Prop} {offset final : BitVec 32}
    {history : HostHistory} {output : List UInt8}
    (hfollows : Follows channelId broken offset history output final)
    (himplies : broken → broken') : Follows channelId broken' offset history output final := by
  induction hfollows with
  | nil offset => exact .nil offset
  | advanced payload fits hrest ih => exact .advanced payload fits ih
  | refused status failed hrest ih => exact .refused status failed ih
  | brokenOff hbroken payload fits part hpart hrest ih =>
    exact .brokenOff (himplies hbroken) payload fits part hpart ih

/-- The output is the bytes that the replies gave, at the offsets from a first one on. -/
def InOrder (first : BitVec 32) (history : HostHistory) (output : List UInt8) : Prop :=
  history.flatMap replyBytes = (offsetsFrom first output.length).zip output

/-- One call of `libhoth_read_console`. -/
theorem follows_of_readsOnward {channelId : ℕ} {offset : BitVec 32} {result : ReadConsoleResult}
    {history : ConsoleHistory}
    (hreads : ReadsOnward stdoutFileno channelId 1 offset result history)
    (hfails : result.status ≠ hothSuccess → (∃ status failed,
      polls history = [⟨channelReadCall channelId offset, .failed status failed⟩]) ∨
        Broken history) :
    Follows channelId (Broken history) offset (polls history) (outputTo stdoutFileno history)
      result.offset := by
  obtain ⟨status, next⟩ := result
  obtain ⟨done, hstreams, ⟨-, hlength, hpolls, houtput⟩ | ⟨hstatus, hlength, reply, hpolls, part,
    houtput, hpart⟩⟩ := hreads
  · rw [hpolls, houtput]
    cases hstreams with
    | nil offset => exact absurd hlength (by decide)
    | cons payload fits hrest =>
      cases hrest with
      | nil offset => exact .advanced payload fits (.nil _)
      | cons payload' fits' hrest' => exact absurd hlength (by simp)
  · obtain rfl : done = [] := List.length_eq_zero_iff.mp (Nat.lt_one_iff.mp hlength)
    cases hstreams with
    | nil offset =>
      rw [hpolls, houtput]
      cases reply with
      | failed status failed =>
        obtain rfl : part = [] := List.prefix_nil.mp hpart
        exact .refused status failed (.nil next)
      | accepted payload fits =>
        have hbroken : Broken history := by
          rcases hfails hstatus with ⟨status, failed, hrefused⟩ | hbroken
          · exact absurd (hpolls.symm.trans hrefused) (by simp)
          · exact hbroken
        have hone := Follows.brokenOff hbroken payload fits part hpart (.nil next)
        rwa [List.append_nil] at hone

/-! ### Parts of a history -/

theorem ClaimedAccess.snoc {history : SessionHistory} (hclaimed : ClaimedAccess history)
    {last : Exchange SessionReply} (hlast : accesses last.1 = true → held history = true) :
    ClaimedAccess (history ++ [last]) := by
  refine Unbroken.snoc hclaimed ?_
  rintro ⟨haccess, hreleased⟩
  exact absurd ((hlast haccess).symm.trans hreleased) (by decide)

theorem held_snoc (history : SessionHistory) (last : Exchange SessionReply) :
    held (history ++ [last]) = heldAfter (held history) last := by
  rw [held, held, List.foldl_append]
  rfl

/-- A part of a session that leaves the claim alone, while the interface is claimed. -/
theorem ClaimedAccess.append {history : SessionHistory} (hclaimed : ClaimedAccess history)
    (hheld : held history = true) (later : SessionHistory)
    (hleaves : ∀ exchange ∈ later, heldAfter true exchange = true) :
    ClaimedAccess (history ++ later) ∧ held (history ++ later) = true := by
  induction later using List.reverseRecOn with
  | nil => rw [List.append_nil]; exact ⟨hclaimed, hheld⟩
  | append_singleton later last ih =>
    obtain ⟨hbefore, hall⟩ := ih fun exchange hexchange ↦
      hleaves exchange (List.mem_append_left _ hexchange)
    rw [← List.append_assoc, held_snoc, hall]
    exact ⟨hbefore.snoc fun _ ↦ hall,
      hleaves last (List.mem_append_right _ (List.mem_singleton_self last))⟩

/-- The calls of a session that neither reach the channel nor change the terminal. -/
def quiet : SessionCall → Bool
  | .reconnect | .releaseDevice | .claimDevice _ | .usleep _ | .printf _ | .fprintf _ => true
  | _ => false

section Parts

variable (history : SessionHistory)

theorem parts_quiet {last : Exchange SessionReply} (hquiet : quiet last.1 = true) :
    readings (history ++ [last]) = readings history ∧
      typings (history ++ [last]) = typings history ∧
        terminalChanges (history ++ [last]) = terminalChanges history := by
  obtain ⟨call, reply⟩ := last
  cases call with
  | reconnect | releaseDevice | claimDevice _ | usleep _ | printf _ | fprintf _ =>
    simp [readings, typings, terminalChanges, readingOf, typingOf, terminalChangeOf]
  | starting _ | reading _ | typing _ | setRawTerminal _ | restoreTerminal =>
    exact absurd hquiet Bool.false_ne_true

theorem parts_reading (block : ConsoleHistory) :
    readings (history ++ block.map (embedExchange SessionCall.reading)) =
        readings history ++ block ∧
      typings (history ++ block.map (embedExchange SessionCall.reading)) = typings history ∧
        terminalChanges (history ++ block.map (embedExchange SessionCall.reading)) =
          terminalChanges history := by
  have hreading : readingOf ∘ embedExchange SessionCall.reading = some := rfl
  have htyping : typingOf ∘ embedExchange SessionCall.reading = fun _ ↦ none := rfl
  have hterminal : terminalChangeOf ∘ embedExchange SessionCall.reading = fun _ ↦ none := rfl
  simp only [readings, typings, terminalChanges, List.filterMap_append, List.filterMap_map,
    hreading, htyping, hterminal, List.filterMap_some, List.filterMap_none, List.append_nil,
    and_self]

theorem parts_typing (block : WriteHistory) :
    readings (history ++ block.map (embedExchange SessionCall.typing)) = readings history ∧
      typings (history ++ block.map (embedExchange SessionCall.typing)) =
        typings history ++ block ∧
        terminalChanges (history ++ block.map (embedExchange SessionCall.typing)) =
          terminalChanges history := by
  have hreading : readingOf ∘ embedExchange SessionCall.typing = fun _ ↦ none := rfl
  have htyping : typingOf ∘ embedExchange SessionCall.typing = some := rfl
  have hterminal : terminalChangeOf ∘ embedExchange SessionCall.typing = fun _ ↦ none := rfl
  simp only [readings, typings, terminalChanges, List.filterMap_append, List.filterMap_map,
    hreading, htyping, hterminal, List.filterMap_some, List.filterMap_none, List.append_nil,
    and_self]

end Parts

/-! ### The loop -/

/-- What holds in the loop of a session that reads from an offset on, with an escape that may be
open at the start. -/
structure InSession (channelId : ℕ) (first : BitVec 32) (escaped : Bool) (state : SessionState)
    (now : SessionHistory) : Prop where
  claimed : ClaimedAccess now
  reads : (∀ poll ∈ polls (readings now), HasOffset poll) → Follows channelId
    (Broken (readings now)) first (polls (readings now)) (outputTo stdoutFileno (readings now))
    state.offset
  conveys : Conveys writer escaped (typings now) (if state.quit then none else some state.escaped)
  terminal : terminalChanges now = [.raw]

section Loop

variable {channelId : ℕ} {first : BitVec 32} {escaped : Bool} {state : SessionState}
  {now : SessionHistory}

theorem InSession.quiet (hin : InSession channelId first escaped state now)
    {last : Exchange SessionReply} (hquiet : quiet last.1 = true) :
    InSession channelId first escaped state (now ++ [last]) := by
  obtain ⟨hreadings, htypings, hterminal⟩ := parts_quiet now hquiet
  have haccess : accesses last.1 = true → held now = true := by
    intro haccess
    obtain ⟨call, reply⟩ := last
    cases call <;> simp_all [accesses, ConsoleSession.quiet]
  exact ⟨hin.claimed.snoc haccess, hreadings ▸ hin.reads, htypings ▸ hin.conveys,
    hterminal.trans hin.terminal⟩

/-- A call of `libhoth_read_console` while the interface is claimed. -/
theorem InSession.read (hin : InSession channelId first escaped state now)
    (hheld : held now = true) {result : ReadConsoleResult} {block : ConsoleHistory}
    (hruns : Runs recording (libhothReadConsole stdoutFileno false channelId state.offset) []
      result block) (status : LibhothError) :
    InSession channelId first escaped { state with status := status, offset := result.offset }
        (now ++ block.map (embedExchange SessionCall.reading)) ∧
      held (now ++ block.map (embedExchange SessionCall.reading)) = true := by
  obtain ⟨hreadings, htypings, hterminal⟩ := parts_reading now block
  have hleaves : ∀ exchange ∈ block.map (embedExchange SessionCall.reading),
      heldAfter true exchange = true := by
    intro exchange hexchange
    obtain ⟨inner, -, rfl⟩ := List.mem_map.mp hexchange
    rfl
  obtain ⟨hclaimed, hstill⟩ := hin.claimed.append hheld _ hleaves
  refine ⟨⟨hclaimed, ?_, htypings ▸ hin.conveys, hterminal.trans hin.terminal⟩, hstill⟩
  rw [hreadings, polls_append, outputTo_append]
  intro hoffsets
  obtain ⟨hbefore, hlater⟩ := List.forall_mem_append.mp hoffsets
  have hcall : Follows channelId (Broken block) state.offset (polls block)
      (outputTo stdoutFileno block) result.offset :=
    follows_of_readsOnward
      (libhothReadConsole_ensures stdoutFileno channelId state.offset result block hruns hlater)
      (libhothReadConsole_fails stdoutFileno channelId state.offset result block hruns)
  exact ((hin.reads hbefore).mono fun hbroken ↦ broken_append.mpr (.inl hbroken)).append
    (hcall.mono fun hbroken ↦ broken_append.mpr (.inr hbroken))

/-- A call of `libhoth_write_console` while the interface is claimed. -/
theorem InSession.typed (hin : InSession channelId first escaped state now)
    (hheld : held now = true) (hquit : state.quit = false) {forceDriveTx : Bool}
    {result : WriteConsoleResult} {block : WriteHistory}
    (hruns : Runs recording (libhothWriteConsole channelId forceDriveTx false state.escaped) []
      result block) :
    InSession channelId first escaped
      ⟨result.status, state.offset, result.quit, result.escaped⟩
      (now ++ block.map (embedExchange SessionCall.typing)) := by
  obtain ⟨hreadings, htypings, hterminal⟩ := parts_typing now block
  have hleaves : ∀ exchange ∈ block.map (embedExchange SessionCall.typing),
      heldAfter true exchange = true := by
    intro exchange hexchange
    obtain ⟨inner, -, rfl⟩ := List.mem_map.mp hexchange
    rfl
  obtain ⟨hclaimed, -⟩ := hin.claimed.append hheld _ hleaves
  refine ⟨hclaimed, hreadings ▸ hin.reads, ?_, hterminal.trans hin.terminal⟩
  have hbefore := hin.conveys
  have hlater := (libhothWriteConsole_ensures channelId forceDriveTx state.escaped result block
    hruns).1
  rw [hquit, if_neg Bool.false_ne_true] at hbefore
  rw [htypings]
  unfold Conveys at hbefore hlater ⊢
  rw [typedReads_append, sentEvents_append, Transducer.feed_append, ← hbefore, ← hlater]
  rfl

theorem InSession.status (hin : InSession channelId first escaped state now)
    (status : LibhothError) :
    InSession channelId first escaped { state with status := status } now :=
  ⟨hin.claimed, hin.reads, hin.conveys, hin.terminal⟩

end Loop

/-! ### A session -/

/-- The start of a session, while the terminal is as it was. -/
structure Starting (now : SessionHistory) : Prop where
  claimed : ClaimedAccess now
  held : held now = true
  reads : readings now = []
  types : typings now = []
  terminal : terminalChanges now = []

/-- The calls that start a session. -/
def starts : SessionCall → Bool
  | .starting _ | .printf _ | .fprintf _ => true
  | _ => false

theorem Starting.snoc {now : SessionHistory} (hstarting : Starting now)
    {last : Exchange SessionReply} (hlast : starts last.1 = true) : Starting (now ++ [last]) := by
  have hheld : ConsoleSession.held (now ++ [last]) = true := by
    rw [held_snoc, hstarting.held]
    obtain ⟨call, reply⟩ := last
    cases call <;> first | rfl | exact absurd hlast Bool.false_ne_true
  have hreading : readingOf last = none ∧ typingOf last = none ∧ terminalChangeOf last = none := by
    obtain ⟨call, reply⟩ := last
    cases call <;> first | exact ⟨rfl, rfl, rfl⟩ | exact absurd hlast Bool.false_ne_true
  obtain ⟨hreading, htyping, hterminal⟩ := hreading
  refine ⟨hstarting.claimed.snoc fun _ ↦ hstarting.held, hheld, ?_, ?_, ?_⟩
  · rw [readings, List.filterMap_append, ← readings, hstarting.reads]
    simp [hreading]
  · rw [typings, List.filterMap_append, ← typings, hstarting.types]
    simp [htyping]
  · rw [terminalChanges, List.filterMap_append, ← terminalChanges, hstarting.terminal]
    simp [hterminal]

/-- Where a session begins to read, for the write offset of the channel. -/
def firstOffset (history : Bool) (offset : BitVec 32) : BitVec 32 :=
  if history then offset - 0x80000000#32 else offset

/-- The reads of a session follow the write offset that the channel reported. -/
def ReadsOn (opts : LibhothHtoolConsoleOpts) (now : SessionHistory) : Prop :=
  ∃ (resp : List UInt8) (fits : PayloadFits resp (channelStatusCall opts.channelId).respBufSize
      (channelStatusCall opts.channelId).sized),
    ⟨.starting (.hostcmdExec (channelStatusCall opts.channelId)), .accepted resp fits⟩ ∈ now ∧
    let first := firstOffset opts.history (BitVec.ofNat 32 (littleEndian resp))
    (∀ poll ∈ polls (readings now), HasOffset poll) →
      (∃ final, Follows opts.channelId (Broken (readings now)) first (polls (readings now))
        (outputTo stdoutFileno (readings now)) final) ∧
      (¬Broken (readings now) → (∀ poll ∈ polls (readings now), StartsAsAsked poll) →
        InOrder first (polls (readings now)) (outputTo stdoutFileno (readings now)))

/-- What is typed is sent as the calls take each read, and that is what the keys mean when the reads
are clean. -/
structure Types (escaped : Bool) (history : WriteHistory) (next : Option Bool) : Prop where
  conveys : Conveys writer escaped history next
  meant : CleanReads escaped history → (sentEvents history, next) =
    keystrokes.feed (some escaped) ((typedReads history).flatMap StdinRead.bytes)

/-- How a session ends. One that is cut off has not been quit. -/
inductive Ends (opts : LibhothHtoolConsoleOpts) (escaped : Bool) (now : SessionHistory) :
    Option LibhothError → Prop
  | refused (status : LibhothError) (failed : status ≠ hothSuccess) (reads : readings now = [])
    (types : typings now = []) (terminal : terminalChanges now = []) :
    Ends opts escaped now (some status)
  | quit (reads : ReadsOn opts now) (types : Types escaped (typings now) none)
    (terminal : terminalChanges now = [.raw, .restored]) : Ends opts escaped now (some hothSuccess)
  | cutOff (reads : ReadsOn opts now) (left : Bool)
    (types : Types escaped (typings now) (some left))
    (terminal : terminalChanges now = [.raw]) : Ends opts escaped now none

end Libhoth.Examples.ConsoleSession
