import Libhoth.Protocol.Console

/-!
# The stream that reads of the console put out

`libhoth_read_console` in raw mode, called again and again while it succeeds. `Streams` says of the
host commands of such calls that each asks for the data behind the data of the one before. The law
of a run is `ReadsOnward`: the output is the data of the replies in order, and a call that fails
keeps the offset and has put out at most a beginning of its data, the part that was written before
a write failed. `readConsoleCalls_readsOnward` proves it for replies that have the offset which
stands before their data.
-/

set_option autoImplicit false
set_option relaxedAutoImplicit false

namespace Libhoth.Protocol.ConsoleRead

open Foundation.ByteString Foundation.InteractingProgram
open Status HostCommand HostCommandProgram Console

/-! ### What a history shows -/

/-- The host command of an exchange. -/
def pollOf : Exchange ConsoleReply → Option (Exchange HostReply)
  | ⟨.hostcmdExec call, reply⟩ => some ⟨call, reply⟩
  | _ => none

/-- The host commands of a history, in order. -/
def polls (history : ConsoleHistory) : HostHistory :=
  history.filterMap pollOf

/-- What an exchange puts out to a file. -/
def writtenTo (fd : ℕ) : Exchange ConsoleReply → List UInt8
  | ⟨.write file buf, .wrote count _ _⟩ => if file = fd then buf.take count else []
  | _ => []

/-- What a history puts out to a file, in order. -/
def outputTo (fd : ℕ) (history : ConsoleHistory) : List UInt8 :=
  history.flatMap (writtenTo fd)

theorem polls_append (first second : ConsoleHistory) :
    polls (first ++ second) = polls first ++ polls second :=
  List.filterMap_append

theorem outputTo_append (fd : ℕ) (first second : ConsoleHistory) :
    outputTo fd (first ++ second) = outputTo fd first ++ outputTo fd second :=
  List.flatMap_append

/-! ### The stream -/

/-- The data of a reply: what stands behind its offset. -/
def replyData : Exchange HostReply → List UInt8
  | ⟨_, .accepted payload _⟩ => payload.drop 4
  | ⟨_, .failed _ _⟩ => []

/-- A reply has the offset that stands before its data. -/
def HasOffset : Exchange HostReply → Prop
  | ⟨_, .accepted payload _⟩ => 4 ≤ payload.length
  | ⟨_, .failed _ _⟩ => True

/-- A reply starts at the offset that was asked for. One that has lost the data there starts
later. -/
def StartsAsAsked : Exchange HostReply → Prop
  | ⟨call, .accepted payload _⟩ =>
    BitVec.ofNat 32 (wordAt payload 0 4) = BitVec.ofNat 32 (wordAt call.payload 4 4)
  | ⟨_, .failed _ _⟩ => True

/-- The offsets from a first one on. -/
def offsetsFrom (first : BitVec 32) (count : ℕ) : List (BitVec 32) :=
  (List.range count).map fun index ↦ first + BitVec.ofNat 32 index

/-- The bytes that a reply gives, each with its offset. -/
def replyBytes : Exchange HostReply → List (BitVec 32 × UInt8)
  | ⟨_, .accepted payload _⟩ =>
    (offsetsFrom (BitVec.ofNat 32 (wordAt payload 0 4)) (payload.drop 4).length).zip
      (payload.drop 4)
  | ⟨_, .failed _ _⟩ => []

/-- A write that failed. -/
def BreaksOff : Exchange ConsoleReply → Prop
  | ⟨.write _ _, .failed _ _⟩ => True
  | _ => False

/-- A history in which a write failed. -/
def Broken (history : ConsoleHistory) : Prop :=
  ∃ exchange ∈ history, BreaksOff exchange

theorem broken_append {first second : ConsoleHistory} :
    Broken (first ++ second) ↔ Broken first ∨ Broken second := by
  simp only [Broken, List.mem_append, or_and_right, exists_or]

/-- The offset behind the data of a payload. -/
def offsetBehind (payload : List UInt8) : BitVec 32 :=
  BitVec.ofNat 32 (wordAt payload 0 4) + BitVec.ofNat 32 (payload.drop 4).length

/-- Each of the host commands asks for the data behind that of the one before, from an offset to
another. -/
inductive Streams (channelId : ℕ) : BitVec 32 → HostHistory → BitVec 32 → Prop
  | nil (offset : BitVec 32) : Streams channelId offset [] offset
  | cons {offset final : BitVec 32} {rest : HostHistory} (payload : List UInt8)
    (fits : PayloadFits payload (channelReadCall channelId offset).respBufSize
      (channelReadCall channelId offset).sized)
    (hrest : Streams channelId (offsetBehind payload) rest final) :
    Streams channelId offset (⟨channelReadCall channelId offset, .accepted payload fits⟩ :: rest)
      final

/-- The law of calls one after another. Those that succeeded read a stream and put out its data. If
the last one failed, it asked for the data at the offset that it leaves, and put out a beginning of
what it received. -/
def ReadsOnward (fd channelId calls : ℕ) (offset : BitVec 32) (result : ReadConsoleResult)
    (history : ConsoleHistory) : Prop :=
  ∃ done, Streams channelId offset done result.offset ∧
    ((result.status = hothSuccess ∧ done.length = calls ∧ polls history = done ∧
        outputTo fd history = done.flatMap replyData) ∨
      (result.status ≠ hothSuccess ∧ done.length < calls ∧
        ∃ reply : HostReply (channelReadCall channelId result.offset),
          polls history = done ++ [⟨_, reply⟩] ∧
            ∃ part, outputTo fd history = done.flatMap replyData ++ part ∧
              part <+: replyData ⟨_, reply⟩))

/-- Calls in raw mode one after another, until one fails. -/
def readConsoleCalls (fd channelId : ℕ) : ℕ → BitVec 32 → ConsoleProgram ReadConsoleResult
  | 0, offset => return ⟨hothSuccess, offset⟩
  | calls + 1, offset => do
    let result ← libhothReadConsole fd false channelId offset
    if result.status ≠ hothSuccess then return result
    else readConsoleCalls fd channelId calls result.offset

/-! ### Writing -/

/-- What a write that takes a part keeps, `libhoth_force_write` keeps until the buffer is written or
a write fails. -/
theorem libhothForceWrite_invariant {fd : ℕ} {buf : List UInt8} {past : ConsoleHistory}
    (invariant : List UInt8 → ConsoleHistory → Prop) (hstart : invariant buf past)
    (hwrote : ∀ rest now count progress fits, invariant rest now →
      invariant (rest.drop count) (now ++ [⟨.write fd rest, .wrote count progress fits⟩])) :
    Ensures recording (libhothForceWrite fd buf) past fun errno now ↦
      errno = 0 ∧ invariant [] now ∨
        ∃ rest before nonzero, invariant rest before ∧
          now = before ++ [⟨.write fd rest, .failed errno nonzero⟩] := by
  refine whileDecreasing_ensures invariant ?_ buf past hstart
  intro rest now hinvariant
  unfold forceWriteRound
  split_ifs with hmore
  · rw [ensures_bind, ensures_request]
    rintro reply _ rfl
    cases reply with
    | failed errno nonzero =>
      exact (ensures_done _ _ _).mpr (.inr ⟨rest, now, nonzero, hinvariant, rfl⟩)
    | wrote count progress fits =>
      exact (ensures_done _ _ _).mpr (hwrote rest now count progress fits hinvariant)
  · obtain rfl : rest = [] := List.length_eq_zero_iff.mp (by omega)
    exact (ensures_done _ _ _).mpr (.inl ⟨rfl, hinvariant⟩)

/-- The loop of `libhoth_force_write` has put out the part of the buffer that is not left. -/
structure Written (fd : ℕ) (past : ConsoleHistory) (buf rest : List UInt8) (now : ConsoleHistory) :
    Prop where
  split : ∃ part, buf = part ++ rest ∧ outputTo fd now = outputTo fd past ++ part
  polls : polls now = polls past

/-- One more write. -/
theorem Written.snoc {fd : ℕ} {past now : ConsoleHistory} {buf rest : List UInt8}
    (hwritten : Written fd past buf rest now) {count : ℕ} (progress : 0 < count)
    (fits : count ≤ rest.length) :
    Written fd past buf (rest.drop count)
      (now ++ [⟨.write fd rest, .wrote count progress fits⟩]) where
  split := by
    obtain ⟨part, hbuf, houtput⟩ := hwritten.split
    refine ⟨part ++ rest.take count, ?_, ?_⟩
    · rw [List.append_assoc, List.take_append_drop, hbuf]
    · rw [outputTo_append, houtput, List.append_assoc]
      simp [outputTo, writtenTo]
  polls := by rw [polls_append, hwritten.polls]; simp [ConsoleRead.polls, pollOf]

/-- A write that fails puts nothing out. -/
theorem Written.failed {fd : ℕ} {past now : ConsoleHistory} {buf rest : List UInt8}
    (hwritten : Written fd past buf rest now) {errno : ℕ} (nonzero : errno ≠ 0) :
    Written fd past buf rest (now ++ [⟨.write fd rest, .failed errno nonzero⟩]) where
  split := by
    obtain ⟨part, hbuf, houtput⟩ := hwritten.split
    refine ⟨part, hbuf, ?_⟩
    rw [outputTo_append, houtput]
    simp [outputTo, writtenTo]
  polls := by rw [polls_append, hwritten.polls]; simp [ConsoleRead.polls, pollOf]

/-- `libhoth_force_write` puts out the buffer, or fails behind a beginning of it. -/
theorem libhothForceWrite_ensures (fd : ℕ) (buf : List UInt8) (past : ConsoleHistory) :
    Ensures recording (libhothForceWrite fd buf) past fun errno now ↦
      ∃ rest, Written fd past buf rest now ∧ (errno = 0 → rest = []) := by
  refine (libhothForceWrite_invariant (Written fd past buf)
    ⟨⟨[], rfl, (List.append_nil _).symm⟩, rfl⟩ fun rest now count progress fits hwritten ↦
      hwritten.snoc progress fits).mono ?_
  rintro errno now (⟨-, hwritten⟩ | ⟨rest, before, nonzero, hwritten, rfl⟩)
  · exact ⟨[], hwritten, fun _ ↦ rfl⟩
  · exact ⟨rest, hwritten.failed nonzero, fun hzero ↦ absurd hzero nonzero⟩

/-- `libhoth_force_write` fails only with a write that failed. -/
theorem libhothForceWrite_broken (fd : ℕ) (buf : List UInt8) (past : ConsoleHistory) :
    Ensures recording (libhothForceWrite fd buf) past fun errno now ↦ errno ≠ 0 → Broken now := by
  refine (libhothForceWrite_invariant (fun _ _ ↦ True) trivial fun _ _ _ _ _ _ ↦ trivial).mono ?_
  rintro errno now (⟨hzero, -⟩ | ⟨rest, before, nonzero, -, rfl⟩) herrno
  · exact absurd hzero herrno
  · exact ⟨_, List.mem_append_right _ (List.mem_singleton_self _), trivial⟩

/-! ### One call -/

/-- Showing data in raw mode succeeds when all of it is put out, and fails behind a beginning of
it. -/
theorem showData_ensures (fd : ℕ) (data : List UInt8) (past : ConsoleHistory) :
    Ensures recording (showData fd false data) past fun status now ↦
      ∃ rest, Written fd past data rest now ∧ (status = hothSuccess → rest = []) := by
  rw [showData, if_neg Bool.false_ne_true, ensures_bind]
  refine (libhothForceWrite_ensures fd data past).mono ?_
  rintro errno now ⟨rest, hwritten, hall⟩
  split_ifs with herrno
  · exact (ensures_done _ _ _).mpr ⟨rest, hwritten, fun hsuccess ↦
      absurd hsuccess (cmdExecError_ne_success _ _)⟩
  · exact (ensures_done _ _ _).mpr ⟨rest, hwritten, fun _ ↦ hall (not_not.mp herrno)⟩

/-- The data in the response that `libhoth_read_console` has received. -/
theorem slice_response {payload : List UInt8} (hoffset : 4 ≤ payload.length)
    (unwritten : List UInt8) :
    slice (payload ++ unwritten) 4 ((payload.length : ℤ) - 4).toNat = payload.drop 4 := by
  rw [slice_append_left (by omega), slice, List.take_of_length_le]
  rw [List.length_drop]
  omega

/-- The response is shown as its data. -/
theorem showResponse_ensures (fd : ℕ) {payload : List UInt8} (hoffset : 4 ≤ payload.length)
    (unwritten : List UInt8) (past : ConsoleHistory) :
    Ensures recording (showResponse fd false (payload ++ unwritten) (payload.length - 4)) past
      fun status now ↦ ∃ rest, Written fd past (payload.drop 4) rest now ∧
        (status = hothSuccess → rest = []) := by
  unfold showResponse
  split_ifs with hlen
  · rw [slice_response hoffset]
    exact showData_ensures fd (payload.drop 4) past
  · have hnil : payload.drop 4 = [] := List.drop_eq_nil_of_le (by omega)
    exact (ensures_done _ _ _).mpr
      ⟨[], ⟨⟨[], by rw [hnil]; rfl, (List.append_nil _).symm⟩, rfl⟩, fun _ ↦ rfl⟩

/-- A reply that is accepted moves the stream behind its data. -/
theorem Streams.single {channelId : ℕ} {offset : BitVec 32} (payload : List UInt8)
    (fits : PayloadFits payload (channelReadCall channelId offset).respBufSize
      (channelReadCall channelId offset).sized) :
    Streams channelId offset [⟨channelReadCall channelId offset, .accepted payload fits⟩]
      (offsetBehind payload) :=
  .cons payload fits (.nil _)

/-- The offset that a call leaves is the one behind the data. -/
theorem offset_eq_offsetBehind {payload : List UInt8} (hoffset : 4 ≤ payload.length)
    (unwritten : List UInt8) :
    BitVec.ofNat 32 (wordAt (payload ++ unwritten) 0 4) +
        BitVec.ofInt 32 ((payload.length : ℤ) - 4) = offsetBehind payload := by
  have hlen : (payload.length : ℤ) - 4 = ((payload.drop 4).length : ℕ) := by
    rw [List.length_drop]
    omega
  rw [offsetBehind, wordAt_append_left (by omega), hlen, BitVec.ofInt_natCast]

/-- One call. -/
theorem libhothReadConsole_ensures (fd channelId : ℕ) (offset : BitVec 32) :
    Ensures recording (libhothReadConsole fd false channelId offset) [] fun result now ↦
      (∀ poll ∈ polls now, HasOffset poll) → ReadsOnward fd channelId 1 offset result now := by
  rw [libhothReadConsole, ensures_bind, ensures_request]
  rintro unwritten _ rfl
  rw [ensures_bind, ensures_request]
  rintro reply _ rfl
  cases reply with
  | failed status nonzero =>
    refine (ensures_done _ _ _).mpr fun _ ↦ ⟨[], .nil offset, .inr ⟨nonzero, by decide, ?_⟩⟩
    exact ⟨.failed status nonzero, rfl, [], rfl, List.nil_prefix⟩
  | accepted payload fits =>
    intro result now hrun hoffsets
    obtain ⟨later, hlater⟩ := hrun.recording_prefix
    have hoffset : HasOffset ⟨channelReadCall channelId offset, .accepted payload fits⟩ := by
      refine hoffsets _ ?_
      rw [hlater, polls_append]
      exact List.mem_append_left _ List.mem_cons_self
    obtain ⟨status, middle, hshow, hrest⟩ := (runs_bind _ _ _ _ _).mp hrun
    obtain ⟨rest, ⟨⟨part, hdata, houtput⟩, hpolls⟩, hall⟩ :=
      showResponse_ensures fd hoffset _ _ status middle hshow
    split_ifs at hrest with hstatus
    · obtain ⟨rfl, rfl⟩ := hrest
      refine ⟨[], .nil offset, .inr ⟨hstatus, by decide, .accepted payload fits, hpolls, ?_⟩⟩
      exact ⟨part, houtput, rest, hdata.symm⟩
    · obtain ⟨rfl, rfl⟩ := hrest
      have hrest : rest = [] := hall (not_not.mp hstatus)
      refine ⟨[⟨channelReadCall channelId offset, .accepted payload fits⟩], ?_,
        .inl ⟨rfl, rfl, hpolls, ?_⟩⟩
      · rw [offset_eq_offsetBehind hoffset]
        exact .single payload fits
      · rw [houtput, show part = payload.drop 4 by rw [hdata, hrest, List.append_nil]]
        exact (List.append_nil _).symm

/-- Showing a response in raw mode fails only with a write that failed. -/
theorem showResponse_broken (fd : ℕ) (resp : List UInt8) (len : ℤ) (past : ConsoleHistory) :
    Ensures recording (showResponse fd false resp len) past fun status now ↦
      status ≠ hothSuccess → Broken now := by
  unfold showResponse
  split_ifs with hlen
  · rw [showData, if_neg Bool.false_ne_true, ensures_bind]
    refine (libhothForceWrite_broken fd _ past).mono fun errno now hbroken ↦ ?_
    split_ifs with herrno
    · exact (ensures_done _ _ _).mpr fun _ ↦ hbroken herrno
    · exact (ensures_done _ _ _).mpr fun hstatus ↦ absurd rfl hstatus
  · exact (ensures_done _ _ _).mpr fun hstatus ↦ absurd rfl hstatus

/-- A call fails only with a host command or a write that failed. -/
theorem libhothReadConsole_fails (fd channelId : ℕ) (offset : BitVec 32) :
    Ensures recording (libhothReadConsole fd false channelId offset) [] fun result now ↦
      result.status ≠ hothSuccess → (∃ status failed,
        polls now = [⟨channelReadCall channelId offset, .failed status failed⟩]) ∨ Broken now := by
  rw [libhothReadConsole, ensures_bind, ensures_request]
  rintro unwritten _ rfl
  rw [ensures_bind, ensures_request]
  rintro reply _ rfl
  cases reply with
  | failed status nonzero => exact (ensures_done _ _ _).mpr fun _ ↦ .inl ⟨status, nonzero, rfl⟩
  | accepted payload fits =>
    rw [ensures_bind]
    refine (showResponse_broken fd _ _ _).mono fun status now hbroken ↦ ?_
    split_ifs with hstatus
    · exact (ensures_done _ _ _).mpr fun _ ↦ .inr (hbroken hstatus)
    · exact (ensures_done _ _ _).mpr fun hfailed ↦ absurd rfl hfailed

/-! ### Offsets -/

theorem Streams.append {channelId : ℕ} {offset middle final : BitVec 32}
    {first second : HostHistory}
    (hfirst : Streams channelId offset first middle)
    (hsecond : Streams channelId middle second final) :
    Streams channelId offset (first ++ second) final := by
  induction hfirst with
  | nil offset => exact hsecond
  | cons payload fits hrest ih => exact .cons payload fits (ih hsecond)

/-- The law of calls that succeeded and of more calls. -/
theorem ReadsOnward.append {fd channelId calls more : ℕ} {offset : BitVec 32}
    {middle result : ReadConsoleResult} {history later : ConsoleHistory}
    (hbefore : ReadsOnward fd channelId calls offset middle history)
    (hsuccess : middle.status = hothSuccess)
    (hafter : ReadsOnward fd channelId more middle.offset result later) :
    ReadsOnward fd channelId (calls + more) offset result (history ++ later) := by
  obtain ⟨done, hstreams, ⟨-, hcalls, hpolls, houtput⟩ | ⟨hfailed, -⟩⟩ := hbefore
  · obtain ⟨next, hnext, hend⟩ := hafter
    refine ⟨done ++ next, hstreams.append hnext, ?_⟩
    rw [List.length_append, hcalls, polls_append, hpolls, outputTo_append, houtput,
      List.flatMap_append]
    rcases hend with ⟨hstatus, hmore, hlater, hout⟩ | ⟨hstatus, hmore, reply, hlater, part, hout,
      hprefix⟩
    · exact .inl ⟨hstatus, by rw [hmore], by rw [hlater], by rw [hout]⟩
    · refine .inr ⟨hstatus, by omega, reply, ?_, part, ?_, hprefix⟩
      · rw [hlater, List.append_assoc]
      · rw [hout, List.append_assoc]
  · exact absurd hsuccess hfailed

/-! ### Runs -/

/-- A write that takes a part gives a run in front of one on the rest. -/
theorem runs_libhothForceWrite_wrote {fd errno count : ℕ} {buf : List UInt8}
    {past now : ConsoleHistory} (progress : 0 < count) (fits : count ≤ buf.length)
    (hrest : Runs recording (libhothForceWrite fd (buf.drop count))
      (past ++ [⟨.write fd buf, .wrote count progress fits⟩]) errno now) :
    Runs recording (libhothForceWrite fd buf) past errno now := by
  have hless : (buf.drop count).length < buf.length := by
    rw [List.length_drop]
    omega
  have hround : Runs recording (forceWriteRound fd buf) past (.inl ⟨buf.drop count, hless⟩)
      (past ++ [⟨.write fd buf, .wrote count progress fits⟩]) := by
    unfold forceWriteRound
    rw [dif_pos (show buf.length > 0 by omega)]
    exact ⟨.wrote count progress fits, _, rfl, rfl, rfl⟩
  exact (runs_whileDecreasing _ _ _ _).mpr ⟨_, _, hround, hrest⟩

/-- A write that fails ends the run. -/
theorem runs_libhothForceWrite_failed {fd errno : ℕ} {buf : List UInt8} (hmore : buf.length > 0)
    (nonzero : errno ≠ 0) (past : ConsoleHistory) :
    Runs recording (libhothForceWrite fd buf) past errno
      (past ++ [⟨.write fd buf, .failed errno nonzero⟩]) := by
  have hround : Runs recording (forceWriteRound fd buf) past (.inr errno)
      (past ++ [⟨.write fd buf, .failed errno nonzero⟩]) := by
    unfold forceWriteRound
    rw [dif_pos hmore]
    exact ⟨.failed errno nonzero, _, rfl, rfl, rfl⟩
  exact (runs_whileDecreasing _ _ _ _).mpr ⟨_, _, hround, rfl, rfl⟩

/-- With nothing to write the run is over. -/
theorem runs_libhothForceWrite_nil (fd : ℕ) (past : ConsoleHistory) :
    Runs recording (libhothForceWrite fd []) past 0 past := by
  have hround : Runs recording (forceWriteRound fd []) past (.inr 0) past := by
    unfold forceWriteRound
    rw [dif_neg (by decide)]
    exact ⟨rfl, rfl⟩
  exact (runs_whileDecreasing _ _ _ _).mpr ⟨_, _, hround, rfl, rfl⟩

/-- The exchanges of a call before it shows the reply. -/
def polled (channelId : ℕ) (offset : BitVec 32) {payload : List UInt8}
    (fits : PayloadFits payload (channelReadCall channelId offset).respBufSize
      (channelReadCall channelId offset).sized) : ConsoleHistory :=
  [⟨.unwritten (4 + channelReadSize), Vector.replicate _ 0⟩,
    ⟨.hostcmdExec (channelReadCall channelId offset), .accepted payload fits⟩]

/-- Writing the data of a reply gives a run of the call. -/
theorem runs_libhothReadConsole {fd channelId errno : ℕ} {offset : BitVec 32} {payload : List UInt8}
    {fits : PayloadFits payload (channelReadCall channelId offset).respBufSize
      (channelReadCall channelId offset).sized} {now : ConsoleHistory}
    (hdata : 4 < payload.length)
    (hwrite : Runs recording (libhothForceWrite fd (payload.drop 4)) (polled channelId offset fits)
      errno now) :
    Runs recording (libhothReadConsole fd false channelId offset) []
      (if errno ≠ 0 then ⟨cmdExecError .posix (BitVec.ofNat 64 errno), offset⟩
        else ⟨hothSuccess, offsetBehind payload⟩) now := by
  refine (runs_bind _ _ _ _ _).mpr
    ⟨Vector.replicate _ 0, _, runs_request_recording _ _ _, ?_⟩
  refine (runs_bind _ _ _ _ _).mpr
    ⟨.accepted payload fits, _, runs_request_recording _ _ _, ?_⟩
  refine (runs_bind _ _ _ _ _).mpr
    ⟨if errno ≠ 0 then cmdExecError .posix (BitVec.ofNat 64 errno) else hothSuccess, now, ?_, ?_⟩
  · rw [showResponse, if_pos (by omega), slice_response (by omega), showData,
      if_neg Bool.false_ne_true]
    refine (runs_bind _ _ _ _ _).mpr ⟨errno, now, hwrite, ?_⟩
    split_ifs <;> exact ⟨rfl, rfl⟩
  · by_cases herrno : errno ≠ 0
    · rw [if_pos herrno, if_pos herrno, if_pos (cmdExecError_ne_success _ _)]
      exact ⟨rfl, rfl⟩
    · rw [if_neg herrno, if_neg herrno, if_neg (not_not.mpr rfl),
        offset_eq_offsetBehind (by omega)]
      exact ⟨rfl, rfl⟩

/-- Calls in raw mode put out the stream that they read, whatever the device answers and however
much each write takes, as long as every reply has its offset. -/
theorem readConsoleCalls_readsOnward (fd channelId calls : ℕ) (offset : BitVec 32)
    (result : ReadConsoleResult) (history : ConsoleHistory)
    (hrun : Runs recording (readConsoleCalls fd channelId calls offset) [] result history)
    (hoffsets : ∀ poll ∈ polls history, HasOffset poll) :
    ReadsOnward fd channelId calls offset result history := by
  induction calls generalizing offset history with
  | zero =>
    obtain ⟨rfl, rfl⟩ := hrun
    exact ⟨[], .nil offset, .inl ⟨rfl, rfl, rfl, rfl⟩⟩
  | succ calls ih =>
    obtain ⟨first, middle, hfirst, hrest⟩ := (runs_bind _ _ _ _ _).mp hrun
    have hcall := libhothReadConsole_ensures fd channelId offset first middle hfirst
    split_ifs at hrest with hstatus
    · obtain ⟨rfl, rfl⟩ := hrest
      obtain ⟨done, hstreams, hend⟩ := hcall hoffsets
      rcases hend with ⟨hsuccess, -⟩ | ⟨hfailed, hdone, hlast⟩
      · exact absurd hsuccess hstatus
      · exact ⟨done, hstreams, .inr ⟨hfailed, by omega, hlast⟩⟩
    · rw [← List.append_nil middle, runs_recording_append] at hrest
      obtain ⟨later, rfl, hlater⟩ := hrest
      rw [polls_append, List.forall_mem_append] at hoffsets
      rw [Nat.add_comm calls 1]
      exact (hcall hoffsets.1).append (not_not.mp hstatus)
        (ih first.offset later hlater hoffsets.2)

/-- A call that succeeds and calls from the offset that it leaves are one call more. -/
theorem runs_readConsoleCalls_succ {fd channelId calls : ℕ} {offset : BitVec 32}
    {middle result : ReadConsoleResult} {first later : ConsoleHistory}
    (hcall : Runs recording (libhothReadConsole fd false channelId offset) [] middle first)
    (hsuccess : middle.status = hothSuccess)
    (hlater : Runs recording (readConsoleCalls fd channelId calls middle.offset) [] result later) :
    Runs recording (readConsoleCalls fd channelId (calls + 1) offset) [] result
      (first ++ later) := by
  refine (runs_bind _ _ _ _ _).mpr ⟨middle, first, hcall, ?_⟩
  rw [if_neg (not_not.mpr hsuccess)]
  have happend := (runs_recording_append _ first [] (first ++ later) result).mpr
    ⟨later, rfl, hlater⟩
  rwa [List.append_nil] at happend

/-- Two calls with a byte each: the second asks for what is behind the data of the first. -/
theorem readConsoleCalls_readsOnward_two_calls : ∃ result history,
    Runs recording (readConsoleCalls 1 0 2 0) [] result history ∧
      (polls history).map Sigma.fst = [channelReadCall 0 0, channelReadCall 0 1] ∧
        outputTo 1 history = [0x61, 0x62] ∧ ReadsOnward 1 0 2 0 result history := by
  have fits : PayloadFits [0, 0, 0, 0, 0x61] (channelReadCall 0 0).respBufSize
      (channelReadCall 0 0).sized := by decide
  have fits' : PayloadFits [1, 0, 0, 0, 0x62] (channelReadCall 0 1).respBufSize
      (channelReadCall 0 1).sized := by decide
  have hwrite : Runs recording (libhothForceWrite 1 [0x61]) (polled 0 0 fits) 0 _ :=
    runs_libhothForceWrite_wrote Nat.one_pos le_rfl (runs_libhothForceWrite_nil 1 _)
  have hwrite' : Runs recording (libhothForceWrite 1 [0x62]) (polled 0 1 fits') 0 _ :=
    runs_libhothForceWrite_wrote Nat.one_pos le_rfl (runs_libhothForceWrite_nil 1 _)
  have hcall := @runs_libhothReadConsole 1 0 0 0 _ fits _ (by decide) hwrite
  have hcall' := @runs_libhothReadConsole 1 0 0 1 _ fits' _ (by decide) hwrite'
  have hrun : Runs recording (readConsoleCalls 1 0 2 0) [] ⟨hothSuccess, _⟩ _ :=
    runs_readConsoleCalls_succ hcall rfl (runs_readConsoleCalls_succ hcall' rfl ⟨rfl, rfl⟩)
  refine ⟨_, _, hrun, rfl, rfl, readConsoleCalls_readsOnward 1 0 2 0 _ _ hrun ?_⟩
  intro poll hpoll
  rcases List.mem_cons.mp hpoll with rfl | hpoll
  · exact (by decide : 4 ≤ 5)
  · obtain rfl := List.mem_singleton.mp hpoll
    exact (by decide : 4 ≤ 5)

/-- A reply with two bytes of data, of which a write takes one before the next write fails: the call
fails and the byte is out. -/
theorem libhothReadConsole_fails_behind_output : ∃ result history,
    Runs recording (libhothReadConsole 1 false 0 0) [] result history ∧
      result.status ≠ hothSuccess ∧ outputTo 1 history = [0x61] := by
  have fits : PayloadFits [0, 0, 0, 0, 0x61, 0x62] (channelReadCall 0 0).respBufSize
      (channelReadCall 0 0).sized := by decide
  have hwrite : Runs recording (libhothForceWrite 1 [0x61, 0x62]) (polled 0 0 fits) 5 _ :=
    runs_libhothForceWrite_wrote Nat.one_pos (by decide : 1 ≤ 2)
      (runs_libhothForceWrite_failed (by decide) (by decide) _)
  have hcall := @runs_libhothReadConsole 1 0 5 0 _ fits _ (by decide) hwrite
  exact ⟨_, _, hcall, by rw [if_pos (by decide)]; exact cmdExecError_ne_success _ _, rfl⟩

end Libhoth.Protocol.ConsoleRead
