import Libhoth.Protocol.Console

/-!
# When a snapshot of the console ends

`htool_console_snapshot` of `htool_console.c`, and what its loop and the one of
`libhoth_print_erot_console` make of the 32-bit offsets of a channel.

A snapshot should read on exactly while its offset is before the offset at which it began, in the
order that wraps around (`WrappingBefore`, `EndsInTime`). Its test compares the two words as numbers
first. `readsOn_iff_wrappingBefore_iff` says for which offsets that is the same (`Comparable`), and
`snapshots_end_in_time_iff` that a snapshot ends in time exactly when it meets no other offsets.
-/

set_option autoImplicit false
set_option relaxedAutoImplicit false

namespace Libhoth.Examples.ConsoleSnapshot

open Foundation.ByteString Foundation.InteractingProgram
open Protocol.Status Protocol.HostCommand Protocol.HostCommandProgram Protocol.Console

/-! ### The snapshot of the tool -/

/-- The host command `HOTH_CMD_CONSOLE_REQUEST`. -/
def consoleRequestCall : HostCommand where
  command := 0x0097
  version := 0
  payload := []
  respBufSize := 0
  sized := true

/-- The host command `HOTH_CMD_CONSOLE_READ` with the subcommand `CONSOLE_READ_NEXT`. -/
def consoleReadCall : HostCommand where
  command := 0x0098
  version := 0
  payload := [0]
  respBufSize := libhothMailboxSize - headerSize
  sized := true

/-- One round of the loop of `htool_console_snapshot_legacy`: the text up to the first zero of the
buffer is printed. -/
def consoleSnapshotLegacyRound (_ : Unit) : ConsoleProgram (Unit ⊕ LibhothError) := do
  let unwritten ← request (ConsoleCall.unwritten libhothMailboxSize)
  match ← request (ConsoleCall.hostcmdExec consoleReadCall) with
  | .failed status _ => return .inr status
  | .accepted payload _ =>
    let buf := payload ++ unwritten.toList.drop payload.length
    let _ ← request (ConsoleCall.printf (buf.takeWhile (· ≠ 0)))
    if payload.length < libhothMailboxSize - headerSize then
      let _ ← request (ConsoleCall.printf [10])
      return .inr hothSuccess
    else return .inl ()

/-- `htool_console_snapshot_legacy`. -/
def htoolConsoleSnapshotLegacy (rounds : ℕ) : ConsoleProgram (Option LibhothError) := do
  match ← request (ConsoleCall.hostcmdExec consoleRequestCall) with
  | .failed status _ => return some status
  | .accepted _ _ => whileRounds consoleSnapshotLegacyRound rounds ()

/-- The part of `htool_console_snapshot` for a channel. -/
def consoleSnapshotChannel (channelId rounds : ℕ) : SnapshotProgram (Option LibhothError) := do
  match ← request (SnapshotCall.getChannelStatus channelId) with
  | .error status => return some status
  | .ok currentOffset => snapshotLoop false channelId currentOffset rounds

/-- `htool_console_snapshot`. -/
def htoolConsoleSnapshot (channelId rounds : ℕ) : ConsoleProgram (Option LibhothError) :=
  if channelId = 0 then htoolConsoleSnapshotLegacy rounds
  else interpret snapshotHandler (consoleSnapshotChannel channelId rounds)

/-! ### Offsets that wrap around -/

/-- An offset is before another one, by at most half of all offsets. -/
def WrappingBefore (current offset : BitVec 32) : Prop :=
  0 < (current - offset).toNat ∧ (current - offset).toNat ≤ 2 ^ 31

instance (current offset : BitVec 32) : Decidable (WrappingBefore current offset) :=
  inferInstanceAs (Decidable (_ ∧ _))

/-- The offset that a successful read reached. -/
def reached : Exchange SnapshotReply → Option (BitVec 32)
  | ⟨.readConsole _ _ _ _, result⟩ =>
    if result.status = hothSuccess then some result.offset else none
  | _ => none

/-- After every successful read the snapshot goes on exactly when the offset is still before the
current one: another call follows, or the snapshot was cut off before it ended. -/
def EndsInTime (current : BitVec 32) (ended : Bool) (history : SnapshotHistory) : Prop :=
  ∀ before read after, history = before ++ read :: after → ∀ offset, reached read = some offset →
    (after ≠ [] ∨ ended = false ↔ WrappingBefore current offset)

/-- The numbers of two offsets are in the order of the offsets: an offset with a smaller number is
not far before, and none is exactly opposite above. -/
structure Comparable (current offset : BitVec 32) : Prop where
  near : offset.toNat < current.toNat → current.toNat ≤ offset.toNat + 2 ^ 31
  not_opposite : offset.toNat ≠ current.toNat + 2 ^ 31

/-- The test of the loop is the order of the offsets exactly for comparable offsets. -/
theorem readsOn_iff_wrappingBefore_iff (current offset : BitVec 32) :
    (ReadsOn current offset ↔ WrappingBefore current offset) ↔ Comparable current offset := by
  have hcurrent := current.isLt
  have hoffset := offset.isLt
  have hcomparable : Comparable current offset ↔
      (offset.toNat < current.toNat → current.toNat ≤ offset.toNat + 2 ^ 31) ∧
        offset.toNat ≠ current.toNat + 2 ^ 31 :=
    ⟨fun h ↦ ⟨h.near, h.not_opposite⟩, fun h ↦ ⟨h.1, h.2⟩⟩
  rw [hcomparable]
  simp only [ReadsOn, WrappingBefore, BitVec.lt_def, gt_iff_lt, BitVec.toNat_sub,
    BitVec.toNat_ofNat]
  omega

/-! ### The loop -/

/-- After every successful read the snapshot goes on exactly when its test says so. -/
def Decided (current : BitVec 32) (ended : Bool) (history : SnapshotHistory) : Prop :=
  ∀ before read after, history = before ++ read :: after → ∀ offset, reached read = some offset →
    (after ≠ [] ∨ ended = false ↔ ReadsOn current offset)

section Loop

variable {current : BitVec 32} {history : SnapshotHistory}

/-- All reads so far went on. -/
def WentOn (current : BitVec 32) (history : SnapshotHistory) : Prop :=
  ∀ read ∈ history, ∀ offset, reached read = some offset → ReadsOn current offset

theorem WentOn.decided (hwent : WentOn current history) : Decided current false history := by
  intro before read after hsplit offset hreached
  refine iff_of_true (.inr rfl) (hwent read ?_ offset hreached)
  rw [hsplit]
  exact List.mem_append_right _ List.mem_cons_self

theorem WentOn.snoc (hwent : WentOn current history) {last : Exchange SnapshotReply}
    (hlast : ∀ offset, reached last = some offset → ReadsOn current offset) :
    WentOn current (history ++ [last]) :=
  forall_mem_snoc hwent hlast

/-- A read that does not go on ends the snapshot. -/
theorem WentOn.decided_snoc (hwent : WentOn current history) {last : Exchange SnapshotReply}
    (hlast : ∀ offset, reached last = some offset → ¬ReadsOn current offset) :
    Decided current true (history ++ [last]) := by
  intro before read after hsplit offset hreached
  have hlengths := congrArg List.length hsplit
  simp only [List.length_append, List.length_cons, List.length_nil] at hlengths
  rcases snoc_eq_append_cons hsplit with ⟨-, rfl, rfl⟩ | ⟨rest, hitems⟩
  · exact iff_of_false (by simp) (hlast offset hreached)
  · have hinner := congrArg List.length hitems
    simp only [List.length_append, List.length_cons] at hinner
    refine iff_of_true (.inl (List.ne_nil_of_length_pos (by omega))) (hwent read ?_ offset hreached)
    rw [hitems]
    exact List.mem_append_right _ List.mem_cons_self

/-- A snapshot that follows its test ends in time exactly when it meets comparable offsets only. -/
theorem Decided.endsInTime_iff {ended : Bool} (hdecided : Decided current ended history) :
    EndsInTime current ended history ↔
      ∀ read ∈ history, ∀ offset, reached read = some offset → Comparable current offset := by
  constructor
  · intro htime read hmem offset hreached
    obtain ⟨before, after, hsplit⟩ := List.append_of_mem hmem
    rw [← readsOn_iff_wrappingBefore_iff]
    exact (hdecided before read after hsplit offset hreached).symm.trans
      (htime before read after hsplit offset hreached)
  · intro hcomparable before read after hsplit offset hreached
    have hmem : read ∈ history := by
      rw [hsplit]
      exact List.mem_append_right _ List.mem_cons_self
    exact (hdecided before read after hsplit offset hreached).trans
      ((readsOn_iff_wrappingBefore_iff _ _).mpr (hcomparable read hmem offset hreached))

variable {σ : Type} {environment : Environment ConsoleReply σ}

/-- A round reads, and goes on exactly when its test says so. -/
theorem snapshotRound_ensures (prototextFormatEnabled : Bool) (channelId : ℕ)
    (offset : BitVec 32) {world : SnapshotHistory × σ} (hwent : WentOn current world.1) :
    Ensures (observing snapshotHandler environment)
      (snapshotRound prototextFormatEnabled channelId current offset) world fun outcome final ↦
        world.1 <+: final.1 ∧
          match outcome with
          | .inl _ => WentOn current final.1
          | .inr _ => Decided current true final.1 := by
  rw [snapshotRound, ensures_bind, ensures_request]
  rintro ⟨status, next⟩ ⟨now, state⟩ ⟨hnow, -⟩
  dsimp only at hnow
  subst hnow
  dsimp only
  split_ifs with hfailed hgoes
  · refine (ensures_done _ _ _).mpr ⟨List.prefix_append _ _, ?_⟩
    refine hwent.decided_snoc fun reachedOffset hreached ↦ ?_
    simp [reached, hfailed] at hreached
  · refine (ensures_done _ _ _).mpr ⟨List.prefix_append _ _, ?_⟩
    refine hwent.snoc fun reachedOffset hreached ↦ ?_
    have hsame : next = reachedOffset := by simpa [reached, not_not.mp hfailed] using hreached
    exact hsame ▸ hgoes
  · refine (ensures_done _ _ _).mpr ⟨List.prefix_append _ _, ?_⟩
    refine hwent.decided_snoc fun reachedOffset hreached ↦ ?_
    have hsame : next = reachedOffset := by simpa [reached, not_not.mp hfailed] using hreached
    exact hsame ▸ hgoes

/-- The loop follows its test. -/
theorem snapshotLoop_ensures (prototextFormatEnabled : Bool) (channelId rounds : ℕ)
    {world : SnapshotHistory × σ} (hwent : WentOn current world.1) :
    Ensures (observing snapshotHandler environment)
      (snapshotLoop prototextFormatEnabled channelId current rounds) world fun ended final ↦
        world.1 <+: final.1 ∧ Decided current ended.isSome final.1 := by
  have hrounds : Ensures (observing snapshotHandler environment)
      (snapshotLoop prototextFormatEnabled channelId current rounds) world fun ended final ↦
        (∀ status, ended = some status → world.1 <+: final.1 ∧ Decided current true final.1) ∧
          (ended = none → ∃ _ : BitVec 32, world.1 <+: final.1 ∧ WentOn current final.1) := by
    refine whileRounds_ensures (fun _ now ↦ world.1 <+: now.1 ∧ WentOn current now.1) ?_ rounds _
      world ⟨List.prefix_rfl, hwent⟩
    rintro offset start ⟨hleading, hstart⟩
    refine (snapshotRound_ensures prototextFormatEnabled channelId offset hstart).mono
      fun outcome final hround ↦ ?_
    cases outcome with
    | inl next => exact ⟨hleading.trans hround.1, hround.2⟩
    | inr status => exact ⟨hleading.trans hround.1, hround.2⟩
  refine hrounds.mono fun ended final hend ↦ ?_
  cases ended with
  | none =>
    obtain ⟨-, hleading, hcut⟩ := hend.2 rfl
    exact ⟨hleading, hcut.decided⟩
  | some status => exact hend.1 status rfl

end Loop

/-! ### Runs on a device -/

section Runs

variable {channelId : ℕ} {current offset : BitVec 32}

/-- Every reply to the question for the offset gives a run. -/
theorem runs_libhothGetChannelStatus {payload : List UInt8}
    (fits : PayloadFits payload (channelStatusCall channelId).respBufSize
      (channelStatusCall channelId).sized) (past : ConsoleHistory) :
    Runs recording (libhothGetChannelStatus channelId) past
      (.ok (BitVec.ofNat 32 (littleEndian payload)))
      (past ++ [⟨.hostcmdExec (channelStatusCall channelId), .accepted payload fits⟩]) :=
  (runs_bind _ _ _ _ _).mpr ⟨.accepted payload fits, _, (runs_request _ _ _ _).mpr rfl, rfl, rfl⟩

theorem runs_unwritten (past : ConsoleHistory) :
    Runs recording (request (ConsoleCall.unwritten (4 + channelReadSize))) past
      (Vector.replicate (4 + channelReadSize) 0)
      (past ++ [⟨.unwritten (4 + channelReadSize), Vector.replicate (4 + channelReadSize) 0⟩]) :=
  runs_request_recording _ _ _

theorem runs_channelRead (reply : HostReply (channelReadCall channelId offset))
    (past : ConsoleHistory) :
    Runs recording (request (ConsoleCall.hostcmdExec (channelReadCall channelId offset))) past reply
      (past ++ [⟨.hostcmdExec (channelReadCall channelId offset), reply⟩]) :=
  runs_request_recording _ _ _

/-- Data is printed in the format of a prototext. -/
theorem runs_showResponse (resp : List UInt8) {len : ℤ} (hlen : len > 0) (past : ConsoleHistory) :
    Runs recording (showResponse stdoutFileno true resp len) past hothSuccess
      (past ++ [⟨.printf (formatPrototext (slice resp 4 len.toNat)), ()⟩]) := by
  rw [showResponse, if_pos hlen]
  exact (runs_bind _ _ _ _ _).mpr ⟨(), _, (runs_request _ _ _ _).mpr rfl, rfl, rfl⟩

/-- Every reply with data gives a run that prints it. -/
theorem exists_runs_libhothReadConsole {payload : List UInt8}
    (fits : PayloadFits payload (channelReadCall channelId offset).respBufSize
      (channelReadCall channelId offset).sized) (hdata : 4 < payload.length)
    (past : ConsoleHistory) :
    ∃ now, Runs recording (libhothReadConsole stdoutFileno true channelId offset) past
      ⟨hothSuccess, BitVec.ofNat 32 (wordAt payload 0 4) + BitVec.ofInt 32 (payload.length - 4)⟩
      now := by
  have hlen : (payload.length : ℤ) - 4 > 0 := by omega
  have hword (unwritten : List UInt8) :
      wordAt (payload ++ unwritten) 0 4 = wordAt payload 0 4 :=
    wordAt_append_left (by omega) _
  refine exists_runs_bind (runs_unwritten past) (exists_runs_bind
    (runs_channelRead (.accepted payload fits) _)
    (exists_runs_bind (runs_showResponse _ hlen _) ?_))
  rw [if_neg (not_not.mpr rfl), hword]
  exact ⟨_, rfl, rfl⟩

/-- A failed host command gives a run that leaves the offset alone. -/
theorem exists_runs_libhothReadConsole_failed (past : ConsoleHistory) :
    ∃ now, Runs recording (libhothReadConsole stdoutFileno true channelId offset) past
      ⟨cmdExecStatus .fail, offset⟩ now :=
  exists_runs_bind (runs_unwritten past) (exists_runs_bind
    (runs_channelRead (.failed (cmdExecStatus .fail) (cmdExecStatus_ne_success _)) _)
    ⟨_, rfl, rfl⟩)

section Rounds

variable {history : SnapshotHistory} {middle now : ConsoleHistory}

/-- A run of a read is a call of the snapshot. -/
theorem runs_readConsole {prototextFormatEnabled : Bool} {result : ReadConsoleResult}
    (hread : Runs recording
      (libhothReadConsole stdoutFileno prototextFormatEnabled channelId offset) middle result now) :
    Runs (observing snapshotHandler recording)
      (request (SnapshotCall.readConsole stdoutFileno prototextFormatEnabled channelId offset))
      (history, middle) result (history ++
        [⟨.readConsole stdoutFileno prototextFormatEnabled channelId offset, result⟩], now) :=
  (runs_request _ _ _ _).mpr ⟨rfl, hread⟩

/-- A read whose offset passes the test is followed by another round. -/
theorem runs_snapshotRound {prototextFormatEnabled : Bool} {next : BitVec 32}
    (hread : Runs recording
      (libhothReadConsole stdoutFileno prototextFormatEnabled channelId offset) middle
      ⟨hothSuccess, next⟩ now) (hgoes : ReadsOn current next) :
    Runs (observing snapshotHandler recording)
      (snapshotRound prototextFormatEnabled channelId current offset) (history, middle)
      (.inl next) (history ++ [⟨.readConsole stdoutFileno prototextFormatEnabled channelId offset,
        ⟨hothSuccess, next⟩⟩], now) := by
  refine (runs_bind _ _ _ _ _).mpr ⟨_, _, runs_readConsole hread, ?_⟩
  rw [if_neg (not_not.mpr rfl), if_neg (not_not.mpr hgoes)]
  exact ⟨rfl, rfl⟩

/-- A failed read ends the loop. -/
theorem runs_snapshotRound_failed {prototextFormatEnabled : Bool}
    {result : ReadConsoleResult} (hfailed : result.status ≠ hothSuccess)
    (hread : Runs recording
      (libhothReadConsole stdoutFileno prototextFormatEnabled channelId offset) middle result now) :
    Runs (observing snapshotHandler recording)
      (snapshotRound prototextFormatEnabled channelId current offset) (history, middle)
      (.inr result.status) (history ++
        [⟨.readConsole stdoutFileno prototextFormatEnabled channelId offset, result⟩], now) := by
  refine (runs_bind _ _ _ _ _).mpr ⟨_, _, runs_readConsole hread, ?_⟩
  rw [if_pos hfailed]
  exact ⟨rfl, rfl⟩

/-- A snapshot with two reads, of which the second one fails. -/
theorem runs_libhothPrintErotConsole {next : BitVec 32} {result : ReadConsoleResult}
    {asked : ConsoleHistory}
    (hstatus : Runs recording (libhothGetChannelStatus erotChannelId) [] (.ok current) asked)
    (hread : Runs recording (libhothReadConsole stdoutFileno true erotChannelId
      (current - 0x80000000#32)) asked ⟨hothSuccess, next⟩ middle)
    (hgoes : ReadsOn current next)
    (hlast : Runs recording (libhothReadConsole stdoutFileno true erotChannelId next) middle result
      now) (hfailed : result.status ≠ hothSuccess) :
    Runs (observing snapshotHandler recording) (libhothPrintErotConsole 2) ([], []) (some ())
      ([⟨.getChannelStatus erotChannelId, .ok current⟩,
        ⟨.readConsole stdoutFileno true erotChannelId (current - 0x80000000#32),
          ⟨hothSuccess, next⟩⟩,
        ⟨.readConsole stdoutFileno true erotChannelId next, result⟩], now) := by
  have hbegin : Runs (observing snapshotHandler recording)
      (request (SnapshotCall.getChannelStatus erotChannelId)) ([], []) (.ok current)
      ([⟨.getChannelStatus erotChannelId, .ok current⟩], asked) :=
    (runs_request _ _ _ _).mpr ⟨rfl, hstatus⟩
  refine (runs_bind _ _ _ _ _).mpr ⟨_, _, hbegin, (runs_bind _ _ _ _ _).mpr
    ⟨some result.status, _, ?_, rfl, rfl⟩⟩
  refine (runs_bind _ _ _ _ _).mpr ⟨_, _, runs_snapshotRound hread hgoes,
    (runs_bind _ _ _ _ _).mpr ⟨_, _, runs_snapshotRound_failed hfailed hlast, rfl, rfl⟩⟩

end Rounds

end Runs

/-- The first data that the device still has, and the 64 bytes behind it. -/
def wrappingReply : List UInt8 :=
  [0xE0, 0xFF, 0xFF, 0xFF] ++ List.replicate 64 97

/-! ### Both snapshots -/

/-- A snapshot that began at some offset ends in time exactly when it meets comparable offsets
only. -/
def EndsInTimeIffComparable (channelId : ℕ) (ended : Bool) (history : SnapshotHistory) : Prop :=
  ∀ current, history.head? = some ⟨.getChannelStatus channelId, .ok current⟩ →
    (EndsInTime current ended history ↔
      ∀ read ∈ history, ∀ offset, reached read = some offset → Comparable current offset)

section Snapshots

variable {σ : Type} (environment : Environment ConsoleReply σ) (start : σ)

/-- The loop after the offset at which the snapshot began. -/
theorem snapshotLoop_endsInTimeIffComparable (prototextFormatEnabled : Bool)
    (channelId rounds : ℕ) (current : BitVec 32) :
    Ensures (observing snapshotHandler environment)
      (snapshotLoop prototextFormatEnabled channelId current rounds)
      ([⟨.getChannelStatus channelId, .ok current⟩], start) fun ended final ↦
        EndsInTimeIffComparable channelId ended.isSome final.1 := by
  have hwent : WentOn current [⟨.getChannelStatus channelId, .ok current⟩] := by
    intro read hmem offset hreached
    rw [List.mem_singleton.mp hmem] at hreached
    exact absurd hreached nofun
  refine (snapshotLoop_ensures prototextFormatEnabled channelId rounds hwent).mono ?_
  rintro ended ⟨history, state⟩ ⟨⟨reads, hhistory⟩, hdecided⟩ other hhead
  dsimp only at hhistory hdecided hhead ⊢
  have hsame : current = other := by
    rw [← hhistory] at hhead
    simpa using hhead
  exact hsame ▸ hdecided.endsInTime_iff

/-- Whatever the device answers, the snapshots of `libhoth_print_erot_console` and
`htool_console_snapshot` end in time exactly when all offsets that they reach are comparable with
the one at which they began. -/
theorem snapshots_end_in_time_iff (channelId rounds : ℕ) :
    Ensures (observing snapshotHandler environment) (libhothPrintErotConsole rounds) ([], start)
        (fun ended final ↦ EndsInTimeIffComparable erotChannelId ended.isSome final.1) ∧
      Ensures (observing snapshotHandler environment) (consoleSnapshotChannel channelId rounds)
        ([], start) fun ended final ↦
          EndsInTimeIffComparable channelId ended.isSome final.1 := by
  constructor
  · rw [libhothPrintErotConsole, ensures_bind, ensures_request]
    rintro reply ⟨_, state⟩ ⟨rfl, -⟩
    cases reply with
    | error status => exact (ensures_done _ _ _).mpr fun current hhead ↦ by simp at hhead
    | ok current =>
      dsimp only
      rw [ensures_bind]
      refine (snapshotLoop_endsInTimeIffComparable environment state true erotChannelId rounds
        current).mono fun ended final hend ↦ (ensures_done _ _ _).mpr ?_
      rw [Option.isSome_map]
      exact hend
  · rw [consoleSnapshotChannel, ensures_bind, ensures_request]
    rintro reply ⟨_, state⟩ ⟨rfl, -⟩
    cases reply with
    | error status => exact (ensures_done _ _ _).mpr fun current hhead ↦ by simp at hhead
    | ok current =>
      exact snapshotLoop_endsInTimeIffComparable environment state false channelId rounds current

end Snapshots

/-- A snapshot that began at `0xFFFFFFF0` and has read past it, up to `0x20`, reads again. -/
theorem print_erot_console_reads_on :
    ∃ final, Runs (observing snapshotHandler recording) (libhothPrintErotConsole 2) ([], [])
        (some ()) final ∧
      final.1.head? = some ⟨.getChannelStatus erotChannelId, .ok 0xFFFFFFF0#32⟩ ∧
      ¬EndsInTime 0xFFFFFFF0#32 true final.1 := by
  have hstatusFits : PayloadFits [0xF0, 0xFF, 0xFF, 0xFF]
      (channelStatusCall erotChannelId).respBufSize (channelStatusCall erotChannelId).sized := rfl
  have hstatus : Runs recording (libhothGetChannelStatus erotChannelId) [] (.ok 0xFFFFFFF0#32) _ :=
    runs_libhothGetChannelStatus hstatusFits []
  have hreadFits : PayloadFits wrappingReply
      (channelReadCall erotChannelId 0x7FFFFFF0#32).respBufSize
      (channelReadCall erotChannelId 0x7FFFFFF0#32).sized :=
    (by decide : wrappingReply.length ≤ 1016)
  obtain ⟨middle, hread⟩ : ∃ now, Runs recording (libhothReadConsole stdoutFileno true erotChannelId
      0x7FFFFFF0#32) ([] ++ [⟨.hostcmdExec (channelStatusCall erotChannelId), .accepted _
        hstatusFits⟩]) ⟨hothSuccess, 0x20#32⟩ now :=
    exists_runs_libhothReadConsole hreadFits (by decide) _
  obtain ⟨now, hfailed⟩ : ∃ now, Runs recording
      (libhothReadConsole stdoutFileno true erotChannelId 0x20#32) middle
        ⟨cmdExecStatus .fail, 0x20#32⟩ now := exists_runs_libhothReadConsole_failed middle
  refine ⟨_, runs_libhothPrintErotConsole hstatus hread (by decide) hfailed
    (cmdExecStatus_ne_success _), rfl, fun htime ↦ ?_⟩
  have hgoes := htime [⟨.getChannelStatus erotChannelId, .ok 0xFFFFFFF0#32⟩] _ _ rfl 0x20#32
    (by simp [reached])
  exact absurd (hgoes.mp (.inl (List.cons_ne_nil _ _))) (by decide)

end Libhoth.Examples.ConsoleSnapshot
