import Libhoth.Protocol.ConsoleRead
import Libhoth.Protocol.PayloadUpdateErase

/-!
# Payload update: reading the payload

`libhoth_payload_update_read_chunk` of `payload_update.c` reads a range of the payload into a file,
in chunks that fill a response of the mailbox. Its loop counts in 64 bits, and each packet has the
offset of its chunk in 32.

`ReadsRange` is what a run owes its caller: the packets tile the range, the file gets their replies,
and nothing is asked after a failure. `ReadEnd` says how a run ends in any case, and
`readsAlways_iff` for which ranges every run is as it should be: those whose last chunk begins below
2^32.
-/

set_option autoImplicit false
set_option relaxedAutoImplicit false

namespace Libhoth.Protocol.PayloadUpdateRead

open Foundation.InteractingProgram Foundation.RangeTiling Status HostCommand HostCommandProgram
open Console ConsoleRead PayloadUpdate PayloadUpdateErase

/-! ### The program -/

/-- What a read asks of the world around it: host commands and writes to the file, which are calls
of the console, and messages. -/
inductive ReadCall
  | console (call : ConsoleCall)
  | fprintf (text : String)

/-- The replies of the calls. -/
abbrev ReadReply : ReadCall → Type
  | .console call => ConsoleReply call
  | .fprintf _ => Unit

/-- Programs that read the payload. -/
abbrev ReadProgram := Interaction ReadReply

/-- The history of a run of such a program. -/
abbrev ReadHistory := List (Exchange ReadReply)

/-- A program of the console as part of a read. -/
def onConsole {α : Type} (program : ConsoleProgram α) : ReadProgram α :=
  interpret (fun call ↦ request (ReadCall.console call)) program

/-- `PAYLOAD_UPDATE_READ`. -/
def payloadUpdateRead : UInt8 := 6

/-- The size of a chunk: `LIBHOTH_MAILBOX_SIZE` less the header of a response. -/
def maxChunkSize : ℕ := 1024 - headerSize

/-- The size of the next chunk. -/
def chunkSizeOf (len : ℕ) : ℕ :=
  if len < maxChunkSize then len else maxChunkSize

theorem chunkSizeOf_eq (len : ℕ) : chunkSizeOf len = min len 1016 := by
  rw [chunkSizeOf, show maxChunkSize = 1016 from rfl]
  split_ifs <;> omega

/-- The packet that reads a chunk. Its offset has 32 bits. -/
def readPacket (offset chunkSize : ℕ) : PayloadUpdatePacket where
  offset := offset % 2 ^ 32
  len := chunkSize
  type := payloadUpdateRead
  data := []

/-- The variables of the loop, of 64 bits. -/
structure ReadState where
  offset : ℕ
  len : ℕ

/-- One round of the loop of `libhoth_payload_update_read_chunk`. -/
def readRound (fd : ℕ) (state : ReadState) :
    ReadProgram ({next : ReadState // next.len < state.len} ⊕ LibhothError) :=
  if hmore : state.len > 0 then do
    let chunkSize := chunkSizeOf state.len
    match ← request (ReadCall.console
      (.hostcmdExec ((readPacket state.offset chunkSize).call 0 chunkSize))) with
    | .failed err _ => return .inr err
    | .accepted buffer _ =>
      let writeErrno ← onConsole (libhothForceWrite fd buffer)
      if writeErrno ≠ 0 then
        let _ ← request (ReadCall.fprintf
          s!"Failed to write payload during payload read, err code: {writeErrno}\n")
        return .inr (cmdExecError .posix (BitVec.ofNat 64 writeErrno))
      else
        return .inl ⟨⟨state.offset + chunkSize, state.len - chunkSize⟩, by
          have hchunk : chunkSize = min state.len 1016 := chunkSizeOf_eq state.len
          dsimp only
          omega⟩
  else return .inr hothSuccess

/-- `libhoth_payload_update_read_chunk`. -/
def libhothPayloadUpdateReadChunk (fd len offset : ℕ) : ReadProgram LibhothError :=
  whileDecreasing ReadState.len (readRound fd) ⟨offset, len⟩

/-! ### What a read owes its caller -/

/-- The exchange with the device or the file that an exchange is. -/
def consoleExchange : Exchange ReadReply → Option (Exchange ConsoleReply)
  | ⟨.console call, reply⟩ => some ⟨call, reply⟩
  | ⟨.fprintf _, _⟩ => none

/-- The exchanges with the device and the file. -/
def consoleHistory (history : ReadHistory) : ConsoleHistory :=
  history.filterMap consoleExchange

/-- The bytes of a reply. -/
def replyBytes : Exchange HostReply → List UInt8
  | ⟨_, .accepted payload _⟩ => payload
  | ⟨_, .failed _ _⟩ => []

/-- A host command or a write that failed. -/
def Fails : Exchange ConsoleReply → Prop
  | ⟨.hostcmdExec _, reply⟩ => reply.error ≠ hothSuccess
  | ⟨.write _ _, .failed _ _⟩ => True
  | _ => False

/-- The packets of the device's commands tile the range, or the part of it in front of a failure;
after success the file has the replies one after another; and a failure is the last that is asked of
the device and the file. -/
structure ReadsRange (fd start length : ℕ) (err : LibhothError) (history : ReadHistory) : Prop where
  packets : ∃ (packets : List PayloadUpdatePacket) (reached : ℕ),
    (polls (consoleHistory history)).map (fun exchange ↦ packetOf exchange.1) =
      packets.map some ∧
    (∀ packet ∈ packets,
      packet.type = payloadUpdateRead ∧ 1 ≤ packet.len ∧ packet.len ≤ maxChunkSize) ∧
    Tiles start reached (packets.map extentOf) ∧ reached ≤ start + length ∧
    (err = hothSuccess → reached = start + length)
  output : err = hothSuccess →
    outputTo fd (consoleHistory history) =
      (polls (consoleHistory history)).flatMap replyBytes
  last : ∀ before exchange after, consoleHistory history = before ++ exchange :: after →
    Fails exchange → after = [] ∧ err ≠ hothSuccess

/-- The last chunk of the range begins below 2^32. -/
def LastChunkBelow (start length : ℕ) : Prop :=
  start + maxChunkSize * ((length - 1) / maxChunkSize) < 2 ^ 32

instance (start length : ℕ) : Decidable (LastChunkBelow start length) :=
  inferInstanceAs (Decidable (_ < _))

@[simp] theorem consoleHistory_append (first second : ReadHistory) :
    consoleHistory (first ++ second) = consoleHistory first ++ consoleHistory second :=
  List.filterMap_append

@[simp] theorem consoleHistory_embed (done : ConsoleHistory) :
    consoleHistory (done.map (embedExchange .console)) = done := by
  induction done with
  | nil => rfl
  | cons exchange rest ih =>
    rw [List.map_cons, consoleHistory, List.filterMap_cons, ← consoleHistory, ih]
    rfl

/-- Running a program of the console records what it records on its own. -/
theorem onConsole_ensures {α : Type} {program : ConsoleProgram α} {past : ReadHistory}
    {post : α → ReadHistory → Prop}
    (hpost : ∀ result done, Runs recording program [] result done →
      post result (past ++ done.map (embedExchange .console))) :
    Ensures recording (onConsole program) past post := by
  intro result final hrun
  obtain ⟨done, hdone, rfl⟩ := (runs_interpret_embed ReadCall.console _ _ _ _).mp hrun
  exact hpost result done hdone

/-! ### Failures -/

/-- Nothing failed. -/
def Clean (history : ConsoleHistory) : Prop :=
  ∀ exchange ∈ history, ¬Fails exchange

/-- The last exchange failed, and no other did. -/
def Stopped (history : ConsoleHistory) : Prop :=
  ∃ front last, history = front ++ [last] ∧ Clean front ∧ Fails last

theorem Clean.append {first second : ConsoleHistory} (hfirst : Clean first)
    (hsecond : Clean second) : Clean (first ++ second) :=
  List.forall_mem_append.mpr ⟨hfirst, hsecond⟩

theorem Stopped.append {first second : ConsoleHistory} (hfirst : Clean first)
    (hsecond : Stopped second) : Stopped (first ++ second) := by
  obtain ⟨front, last, rfl, hfront, hlast⟩ := hsecond
  exact ⟨first ++ front, last, (List.append_assoc _ _ _).symm, hfirst.append hfront, hlast⟩

/-- A failure on its own. -/
theorem stopped_singleton {last : Exchange ConsoleReply} (hlast : Fails last) : Stopped [last] :=
  ⟨[], last, rfl, fun _ hmem ↦ absurd hmem List.not_mem_nil, hlast⟩

/-- A failure at the end of a history is the only place of one. -/
theorem Stopped.eq_nil {history before after : ConsoleHistory} {exchange : Exchange ConsoleReply}
    (hstopped : Stopped history) (hsplit : history = before ++ exchange :: after)
    (hfails : Fails exchange) : after = [] := by
  obtain ⟨front, last, rfl, hfront, -⟩ := hstopped
  rcases snoc_eq_append_cons hsplit with ⟨-, -, hafter⟩ | ⟨rest, hitems⟩
  · exact hafter
  · exact absurd hfails (hfront exchange (hitems ▸ by simp))

/-- `libhoth_force_write` returns zero if no write failed, and ends with the one that failed
otherwise. -/
theorem libhothForceWrite_stops (fd : ℕ) (buf : List UInt8) :
    Ensures recording (libhothForceWrite fd buf) [] fun errno now ↦
      errno = 0 ∧ Clean now ∨ errno ≠ 0 ∧ Stopped now := by
  refine (libhothForceWrite_invariant (fun _ now ↦ Clean now)
    (fun _ hmem ↦ absurd hmem List.not_mem_nil) fun rest now count progress fits hclean ↦
      forall_mem_snoc hclean not_false).mono ?_
  rintro errno now (⟨hzero, hclean⟩ | ⟨rest, before, nonzero, hclean, rfl⟩)
  · exact .inl ⟨hzero, hclean⟩
  · exact .inr ⟨nonzero, before, _, rfl, hclean, trivial⟩

/-! ### How a read ends -/

/-- A chunk of the range. -/
structure IsChunk (start length : ℕ) (extent : Extent) : Prop where
  above : start ≤ extent.1
  aligned : (extent.1 - start) % maxChunkSize = 0
  inside : extent.1 < start + length
  size : extent.2 = chunkSizeOf (start + length - extent.1)

/-- The packets of chunks were sent, which tile the range so far. -/
def ReadSent (start length reached : ℕ) (history : ReadHistory) : Prop :=
  ∃ extents : List Extent,
    (polls (consoleHistory history)).map (fun exchange ↦ packetOf exchange.1) =
      extents.map (fun extent ↦ some (readPacket extent.1 extent.2)) ∧
    Tiles start reached extents ∧ ∀ extent ∈ extents, IsChunk start length extent

/-- The file has the replies one after another. -/
def ReadOutput (fd : ℕ) (history : ReadHistory) : Prop :=
  outputTo fd (consoleHistory history) = (polls (consoleHistory history)).flatMap replyBytes

/-- The loop part way through: the chunks so far were read and written. -/
structure ReadProgress (fd start length : ℕ) (state : ReadState) (history : ReadHistory) :
    Prop where
  above : start ≤ state.offset
  position : state.offset + state.len = start + length
  aligned : 0 < state.len → (state.offset - start) % maxChunkSize = 0
  sent : ReadSent start length state.offset history
  output : ReadOutput fd history
  clean : Clean (consoleHistory history)

/-- How a read ends: all chunks were read and written, or the last exchange failed. -/
structure ReadEnd (fd start length : ℕ) (err : LibhothError) (history : ReadHistory) : Prop where
  sent : ∃ reached ≤ start + length, ReadSent start length reached history ∧
    (err = hothSuccess → reached = start + length)
  output : err = hothSuccess → ReadOutput fd history
  ends : err = hothSuccess ∧ Clean (consoleHistory history) ∨
    err ≠ hothSuccess ∧ Stopped (consoleHistory history)

section Rounds

variable {fd start length : ℕ} {state : ReadState} {history : ReadHistory}

/-- The next chunk. -/
theorem ReadProgress.isChunk (hprogress : ReadProgress fd start length state history)
    (hmore : 0 < state.len) :
    IsChunk start length (state.offset, chunkSizeOf state.len) where
  above := hprogress.above
  aligned := hprogress.aligned hmore
  inside := by
    have hposition := hprogress.position
    dsimp only
    omega
  size := by
    have hposition := hprogress.position
    dsimp only
    rw [show start + length - state.offset = state.len by omega]

/-- One more packet. -/
theorem ReadSent.snoc {reached chunkSize : ℕ} (hsent : ReadSent start length reached history)
    (hchunk : IsChunk start length (reached, chunkSize)) (hpos : 0 < chunkSize)
    (hsmall : chunkSize < 2 ^ 32) {rest : ReadHistory}
    {reply : HostReply ((readPacket reached chunkSize).call 0 chunkSize)}
    (hrest : polls (consoleHistory rest) = [⟨_, reply⟩]) :
    ReadSent start length (reached + chunkSize) (history ++ rest) := by
  obtain ⟨extents, hwire, htiles, hchunks⟩ := hsent
  refine ⟨extents ++ [(reached, chunkSize)], ?_, htiles.snoc hpos, forall_mem_snoc hchunks hchunk⟩
  have hpacket : packetOf ((readPacket reached chunkSize).call 0 chunkSize) =
      some (readPacket reached chunkSize) :=
    packetOf_call _ _ _ (Nat.mod_lt _ (by decide)) hsmall
  rw [consoleHistory_append, polls_append, hrest, List.map_append, List.map_append, hwire]
  exact congrArg _ (congrArg (· :: []) hpacket)

/-- A chunk that was read, with the writes behind it. -/
def readExchanges (offset chunkSize : ℕ)
    (reply : HostReply ((readPacket offset chunkSize).call 0 chunkSize)) (done : ConsoleHistory) :
    ReadHistory :=
  ⟨.console (.hostcmdExec ((readPacket offset chunkSize).call 0 chunkSize)), reply⟩ ::
    done.map (embedExchange .console)

theorem consoleHistory_readExchanges (offset chunkSize : ℕ)
    (reply : HostReply ((readPacket offset chunkSize).call 0 chunkSize)) (done : ConsoleHistory) :
    consoleHistory (readExchanges offset chunkSize reply done) =
      [⟨.hostcmdExec ((readPacket offset chunkSize).call 0 chunkSize), reply⟩] ++ done := by
  rw [readExchanges, ← List.singleton_append, consoleHistory_append, consoleHistory_embed]
  rfl

/-- The packet of a chunk, whatever becomes of it. -/
theorem ReadProgress.sent_next (hprogress : ReadProgress fd start length state history)
    (hmore : 0 < state.len)
    (reply : HostReply ((readPacket state.offset (chunkSizeOf state.len)).call 0
      (chunkSizeOf state.len))) {done : ConsoleHistory} (hdone : polls done = []) :
    ReadSent start length (state.offset + chunkSizeOf state.len)
      (history ++ readExchanges state.offset _ reply done) := by
  have hsize := chunkSizeOf_eq state.len
  refine hprogress.sent.snoc (hprogress.isChunk hmore) (by omega) (by omega)
    (show polls (consoleHistory _) = [⟨_, reply⟩] from ?_)
  rw [consoleHistory_readExchanges, polls_append, hdone]
  rfl

/-- A chunk whose bytes were written. -/
theorem ReadProgress.snoc (hprogress : ReadProgress fd start length state history)
    (hmore : 0 < state.len) {buffer : List UInt8}
    {fits : PayloadFits buffer (chunkSizeOf state.len) false} {done : ConsoleHistory}
    (hdone : polls done = []) (hwritten : outputTo fd done = buffer) (hclean : Clean done) :
    ReadProgress fd start length
      ⟨state.offset + chunkSizeOf state.len, state.len - chunkSizeOf state.len⟩
      (history ++ readExchanges state.offset _ (.accepted buffer fits) done) where
  above := hprogress.above.trans (Nat.le_add_right _ _)
  position := by
    have hposition := hprogress.position
    have hsize := chunkSizeOf_eq state.len
    dsimp only
    omega
  aligned := by
    intro hlater
    have habove := hprogress.above
    have haligned := hprogress.aligned hmore
    have hsize := chunkSizeOf_eq state.len
    rw [show maxChunkSize = 1016 from rfl] at haligned ⊢
    dsimp only at hlater ⊢
    omega
  sent := hprogress.sent_next hmore _ hdone
  output := by
    have houtput := hprogress.output
    rw [ReadOutput] at houtput ⊢
    rw [consoleHistory_append, consoleHistory_readExchanges, outputTo_append, outputTo_append,
      polls_append, polls_append, hdone, hwritten, houtput, List.flatMap_append]
    exact congrArg _ (List.append_nil buffer).symm
  clean := by
    rw [consoleHistory_append, consoleHistory_readExchanges]
    refine hprogress.clean.append (Clean.append ?_ hclean)
    exact List.forall_mem_singleton.mpr fun hfails ↦ hfails rfl

/-- A chunk that was not read, or whose bytes were not written. -/
theorem ReadProgress.stop (hprogress : ReadProgress fd start length state history)
    (hmore : 0 < state.len)
    (reply : HostReply ((readPacket state.offset (chunkSizeOf state.len)).call 0
      (chunkSizeOf state.len))) {done : ConsoleHistory} (hdone : polls done = [])
    {after : ReadHistory} (hafter : consoleHistory after = [])
    (hstopped : Stopped ([⟨.hostcmdExec _, reply⟩] ++ done)) {err : LibhothError}
    (herr : err ≠ hothSuccess) :
    ReadEnd fd start length err (history ++ readExchanges state.offset _ reply done ++ after) where
  sent := by
    have hposition := hprogress.position
    have hsize := chunkSizeOf_eq state.len
    have hsent := hprogress.sent_next hmore reply hdone
    refine ⟨state.offset + chunkSizeOf state.len, by omega, ?_, fun hsuccess ↦ absurd hsuccess herr⟩
    rw [ReadSent, consoleHistory_append, hafter, List.append_nil]
    exact hsent
  output := fun hsuccess ↦ absurd hsuccess herr
  ends := by
    refine .inr ⟨herr, ?_⟩
    rw [consoleHistory_append, consoleHistory_append, hafter, consoleHistory_readExchanges,
      List.append_nil]
    exact hstopped.append hprogress.clean

/-- One round reads and writes the next chunk, or ends the read. -/
theorem readRound_ensures (hprogress : ReadProgress fd start length state history) :
    Ensures recording (readRound fd state) history fun outcome final ↦
      match outcome with
      | .inl next => ReadProgress fd start length next.val final
      | .inr err => ReadEnd fd start length err final := by
  unfold readRound
  by_cases hmore : state.len > 0
  · rw [dif_pos hmore]
    dsimp only
    rw [ensures_bind, ensures_request]
    rintro reply _ rfl
    cases reply with
    | failed err nonzero =>
      have hend := hprogress.stop hmore (.failed err nonzero) (show polls [] = [] from rfl)
        (show consoleHistory [] = [] from rfl) (stopped_singleton nonzero) nonzero
      rw [List.append_nil] at hend
      exact (ensures_done _ _ _).mpr hend
    | accepted buffer fits =>
      dsimp only
      rw [ensures_bind]
      refine onConsole_ensures fun errno done hrun ↦ ?_
      obtain ⟨rest, ⟨⟨part, hbuffer, houtput⟩, hpolls⟩, hall⟩ :=
        libhothForceWrite_ensures fd buffer [] errno done hrun
      rw [List.append_assoc]
      rcases libhothForceWrite_stops fd buffer errno done hrun with
        ⟨rfl, hclean⟩ | ⟨herrno, hstopped⟩
      · rw [hall rfl, List.append_nil] at hbuffer
        rw [if_neg (not_not.mpr rfl)]
        exact (ensures_done _ _ _).mpr (hprogress.snoc hmore hpolls (hbuffer ▸ houtput) hclean)
      · rw [if_pos herrno, ensures_bind, ensures_request]
        rintro _ _ rfl
        refine (ensures_done _ _ _).mpr (hprogress.stop hmore (.accepted buffer fits) hpolls rfl ?_
          (cmdExecError_ne_success _ _))
        exact hstopped.append (List.forall_mem_singleton.mpr fun hfails ↦ hfails rfl)
  · rw [dif_neg hmore]
    obtain ⟨-, hposition, -, hsent, houtput, hclean⟩ := hprogress
    exact (ensures_done _ _ _).mpr ⟨⟨state.offset, by omega, hsent, fun _ ↦ by omega⟩,
      fun _ ↦ houtput, .inl ⟨rfl, hclean⟩⟩

end Rounds

/-- Every run of a read ends so. -/
theorem libhothPayloadUpdateReadChunk_ensures (fd length start : ℕ) :
    Ensures recording (libhothPayloadUpdateReadChunk fd length start) []
      (ReadEnd fd start length) := by
  refine whileDecreasing_ensures (ReadProgress fd start length) (fun state history hprogress ↦ ?_)
    ⟨start, length⟩ [] ⟨le_rfl, rfl, fun _ ↦ ?_, ⟨[], rfl, rfl, ?_⟩, rfl, ?_⟩
  · refine (readRound_ensures hprogress).mono fun outcome final hround ↦ ?_
    cases outcome <;> exact hround
  · rw [Nat.sub_self, Nat.zero_mod]
  · exact fun _ hmem ↦ absurd hmem List.not_mem_nil
  · exact fun _ hmem ↦ absurd hmem List.not_mem_nil

/-! ### The range on the wire -/

section Range

variable {fd start length : ℕ} {err : LibhothError} {history : ReadHistory}

/-- No chunk begins behind the last one. -/
theorem IsChunk.le_last {extent : Extent} (hchunk : IsChunk start length extent) :
    extent.1 ≤ start + maxChunkSize * ((length - 1) / maxChunkSize) := by
  obtain ⟨habove, haligned, hinside, -⟩ := hchunk
  rw [show maxChunkSize = 1016 from rfl] at haligned ⊢
  omega

/-- The chunk with the last byte of the range is the last one. -/
theorem IsChunk.eq_last {extent : Extent} (hchunk : IsChunk start length extent)
    (hlast : extent.Contains (start + length - 1)) :
    extent.1 = start + maxChunkSize * ((length - 1) / maxChunkSize) := by
  obtain ⟨habove, haligned, hinside, hsize⟩ := hchunk
  obtain ⟨hfrom, hbelow⟩ := hlast
  rw [chunkSizeOf_eq] at hsize
  rw [show maxChunkSize = 1016 from rfl] at haligned ⊢
  omega

/-- Packets below 2^32 have the ranges of their chunks. -/
theorem ReadEnd.readsRange (hend : ReadEnd fd start length err history)
    (hbelow : LastChunkBelow start length) : ReadsRange fd start length err history where
  packets := by
    obtain ⟨reached, hreached, ⟨extents, hwire, htiles, hchunks⟩, hall⟩ := hend.sent
    have hsame :
        (extents.map fun extent ↦ readPacket extent.1 extent.2).map extentOf = extents := by
      rw [List.map_map]
      refine (List.map_congr_left fun extent hextent ↦ ?_).trans (List.map_id extents)
      have hfits : extent.1 < 2 ^ 32 := (hchunks extent hextent).le_last.trans_lt hbelow
      exact Prod.ext (Nat.mod_eq_of_lt hfits) rfl
    refine ⟨extents.map fun extent ↦ readPacket extent.1 extent.2, reached, ?_, ?_, ?_, hreached,
      hall⟩
    · rw [hwire, List.map_map]
      rfl
    · intro packet hpacket
      obtain ⟨extent, hextent, rfl⟩ := List.mem_map.mp hpacket
      have hsize := (hchunks extent hextent).size
      have hinside := (hchunks extent hextent).inside
      rw [chunkSizeOf_eq] at hsize
      refine ⟨rfl, ?_, ?_⟩
      · change 1 ≤ extent.2
        omega
      · change extent.2 ≤ 1016
        omega
    · rw [hsame]
      exact htiles
  output := hend.output
  last := by
    intro before exchange after hsplit hfails
    rcases hend.ends with ⟨-, hclean⟩ | ⟨herr, hstopped⟩
    · exact absurd hfails (hclean exchange (hsplit ▸ by simp))
    · exact ⟨hstopped.eq_nil hsplit hfails, herr⟩

/-- Packets that tile the range have no chunk at or behind 2^32. -/
theorem ReadsRange.lastChunkBelow (hreads : ReadsRange fd start length err history)
    (hend : ReadEnd fd start length err history) (hsuccess : err = hothSuccess)
    (hpos : 0 < length) : LastChunkBelow start length := by
  obtain ⟨reached, -, ⟨extents, hwire, htiles, hchunks⟩, hall⟩ := hend.sent
  obtain ⟨packets, _, hpackets, -, htiled, -, -⟩ := hreads.packets
  have hsame : packets = extents.map fun extent ↦ readPacket extent.1 extent.2 := by
    refine List.map_injective_iff.mpr (Option.some_injective _) ?_
    rw [← hpackets, hwire, List.map_map]
    rfl
  have hwrapped : packets.map extentOf = extents := by
    refine htiled.eq_of_lengths htiles ?_
    rw [hsame, List.map_map, List.map_map]
    rfl
  obtain ⟨extent, hextent, hlast⟩ := htiles.exists_contains
    (show start ≤ start + length - 1 by omega)
    (show start + length - 1 < reached by have := hall hsuccess; omega)
  rw [hsame, List.map_map] at hwrapped
  have hfits := List.map_inj_left.mp (hwrapped.trans (List.map_id extents).symm) extent hextent
  have hstart : extent.1 % 2 ^ 32 = extent.1 := congrArg Prod.fst hfits
  rw [LastChunkBelow, ← (hchunks extent hextent).eq_last hlast, ← hstart]
  exact Nat.mod_lt _ (by decide)

end Range

/-! ### A read in which nothing fails -/

/-- All of a buffer can be written at once. -/
theorem exists_runs_libhothForceWrite (fd : ℕ) (buf : List UInt8) :
    ∃ done, Runs recording (libhothForceWrite fd buf) [] 0 done := by
  rcases Nat.eq_zero_or_pos buf.length with hnone | hsome
  · rw [List.length_eq_zero_iff.mp hnone]
    exact ⟨[], runs_libhothForceWrite_nil fd []⟩
  · refine ⟨[] ++ [⟨.write fd buf, .wrote buf.length hsome le_rfl⟩],
      runs_libhothForceWrite_wrote hsome le_rfl ?_⟩
    rw [List.drop_length]
    exact runs_libhothForceWrite_nil fd _

/-- A chunk can be read and written. -/
theorem exists_runs_readRound (fd : ℕ) {state : ReadState} (hmore : state.len > 0)
    (past : ReadHistory) :
    ∃ next now, Runs recording (readRound fd state) past (.inl next) now := by
  have hfits : PayloadFits (List.replicate (chunkSizeOf state.len) 0) (chunkSizeOf state.len)
      false := List.length_replicate
  obtain ⟨done, hdone⟩ :=
    exists_runs_libhothForceWrite fd (List.replicate (chunkSizeOf state.len) 0)
  have hless : state.len - chunkSizeOf state.len < state.len := by
    have hsize := chunkSizeOf_eq state.len
    omega
  refine ⟨⟨⟨state.offset + chunkSizeOf state.len, _⟩, hless⟩,
    past ++ readExchanges state.offset _ (.accepted _ hfits) done, ?_⟩
  rw [readExchanges, List.append_cons]
  unfold readRound
  rw [dif_pos hmore]
  refine ⟨.accepted _ hfits, _, rfl, ?_⟩
  exact (runs_bind (onConsole (libhothForceWrite fd _)) _ _ _ _).mpr
    ⟨0, _, (runs_interpret_embed ReadCall.console _ _ _ _).mpr ⟨done, hdone, rfl⟩, rfl, rfl⟩

/-- Every range can be read. -/
theorem exists_runs_readLoop (fd : ℕ) (state : ReadState) (past : ReadHistory) :
    ∃ now, Runs recording (whileDecreasing ReadState.len (readRound fd) state) past hothSuccess
      now := by
  have hadmits : Admits recording (whileDecreasing ReadState.len (readRound fd) state) past
      fun err _ ↦ err = hothSuccess := by
    refine whileDecreasing_admits (fun _ _ ↦ True) (fun state past _ ↦ ?_) state past trivial
    by_cases hmore : state.len > 0
    · obtain ⟨next, middle, hround⟩ := exists_runs_readRound fd hmore past
      exact ⟨.inl next, middle, hround, trivial⟩
    · unfold readRound
      rw [dif_neg hmore]
      exact admits_done rfl
  obtain ⟨_, now, hrun, rfl⟩ := hadmits
  exact ⟨now, hrun⟩

/-- Every run of a read is as it should be. -/
def ReadsAlways (start length : UInt32) : Prop :=
  ∀ fd err history,
    Runs recording (libhothPayloadUpdateReadChunk fd length.toNat start.toNat) [] err history →
      ReadsRange fd start.toNat length.toNat err history

/-- A read that is as it should be in every run has no chunk at or behind 2^32. -/
theorem ReadsAlways.lastChunkBelow {start length : UInt32} (hreads : ReadsAlways start length) :
    LastChunkBelow start.toNat length.toNat := by
  rcases Nat.eq_zero_or_pos length.toNat with hzero | hpos
  · rw [hzero]
    exact start.toNat_lt
  · obtain ⟨history, hrun⟩ := exists_runs_readLoop 0 ⟨start.toNat, length.toNat⟩ []
    exact (hreads 0 _ _ hrun).lastChunkBelow
      (libhothPayloadUpdateReadChunk_ensures _ _ _ _ _ hrun) rfl hpos

/-- Every run reads the range as it should exactly when the last chunk of the range begins below
2^32. -/
theorem readsAlways_iff (start length : UInt32) :
    ReadsAlways start length ↔ LastChunkBelow start.toNat length.toNat := by
  constructor
  · exact ReadsAlways.lastChunkBelow
  · intro hbelow fd err history hrun
    exact (libhothPayloadUpdateReadChunk_ensures _ _ _ _ _ hrun).readsRange hbelow

/-- With 1017 bytes from 2^32 - 1016 on, the second packet asks for the byte at zero. -/
theorem not_readsAlways_wrapping : ¬ReadsAlways 0xFFFFFC08 1017 := by
  intro hreads
  exact absurd hreads.lastChunkBelow (by decide)

end Libhoth.Protocol.PayloadUpdateRead
