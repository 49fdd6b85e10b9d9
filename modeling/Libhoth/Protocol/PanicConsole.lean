import Libhoth.Foundation.CheckedAccess
import Libhoth.Foundation.InteractingProgram
import Libhoth.Foundation.RingBuffer

/-!
# The console log of a panic record

`libhoth_get_panic_console_log` of `panic.c`: the UART buffer of a record, read once round from the
head, without the bytes that were never written. The loads from the buffer are requests, so the
order in which the bytes are visited is part of a run; the result is a list whose bytes are only
replaced by checked stores.

`libhothGetPanicConsoleLog_ensures` says for every record what a run visits and returns.
`libhothGetPanicConsoleLog_of_written` composes it with the writer: when the buffer was filled by a
stream of characters, the log is the last 4096 of them.
-/

set_option autoImplicit false
set_option relaxedAutoImplicit false

namespace Libhoth.Protocol.PanicConsole

open Foundation.CheckedAccess Foundation.InteractingProgram Foundation.RingBuffer

/-! ### The program -/

/-- `sizeof(uart_buf)`. -/
def uartBufSize : ℕ := 4096

instance : NeZero uartBufSize := ⟨by decide⟩

/-- What the function asks of the world: memory, a line for the user, and a byte of `uart_buf`. -/
inductive PanicCall
  | calloc (size : ℕ)
  | fprintf (text : String)
  | uartBuf (i : Fin uartBufSize)
  deriving DecidableEq

/-- The reply to a call; memory may be refused. -/
abbrev PanicReply : PanicCall → Type
  | .calloc _ => Bool
  | .fprintf _ => Unit
  | .uartBuf _ => UInt8

/-- Programs that read a panic record. -/
abbrev PanicProgram := Interaction PanicReply

/-- The variables of the loop: the index, the result so far and the place of the next character. -/
structure ConsoleState where
  i : Fin uartBufSize
  console : List UInt8
  cursor : ℕ

/-- The index after `i`. -/
def nextIndex (i : Fin uartBufSize) : Fin uartBufSize :=
  ⟨(i.val + 1) % uartBufSize, Nat.mod_lt _ (by decide)⟩

/-- How many bytes are left when a round from `head` has come to an index. -/
def bytesLeft (head : Fin uartBufSize) (state : ConsoleState) : ℕ :=
  (head.val + uartBufSize - 1 - state.i.val) % uartBufSize

/-- The store of a character that is not zero. -/
def storeCharacter (state : ConsoleState) (ch : UInt8) : Except Fault (List UInt8 × ℕ) :=
  if ch ≠ 0 then do
    let console ← overwriteWithin state.console state.cursor [ch]
    return (console, state.cursor + 1)
  else return (state.console, state.cursor)

/-- One round of the loop of `libhoth_get_panic_console_log`. -/
def consoleRound (head : Fin uartBufSize) (state : ConsoleState) :
    PanicProgram ({next : ConsoleState // bytesLeft head next < bytesLeft head state} ⊕
      Except Fault (List UInt8)) := do
  let ch ← request (PanicCall.uartBuf state.i)
  match storeCharacter state ch with
  | .error fault => return .inr (.error fault)
  | .ok (console, cursor) =>
    if h : nextIndex state.i ≠ head then
      return .inl ⟨{ i := nextIndex state.i, console, cursor }, by
        have hindex := state.i.isLt
        have hhead := head.isLt
        have hother : (state.i.val + 1) % uartBufSize ≠ head.val := fun hsame ↦ h (Fin.ext hsame)
        simp only [bytesLeft, nextIndex, uartBufSize] at *
        omega⟩
    else return .inr (.ok console)

/-- `libhoth_get_panic_console_log`, where `none` is the null pointer. -/
def libhothGetPanicConsoleLog (uartHead : BitVec 32) :
    PanicProgram (Except Fault (Option (List UInt8))) := do
  match ← request (PanicCall.calloc (uartBufSize + 1)) with
  | false =>
    let _ ← request (PanicCall.fprintf "Failed to allocate memory for panic console log\n")
    return .ok none
  | true =>
    let console := List.replicate (uartBufSize + 1) 0
    if uartHead ≠ 0xFFFFFFFF then
      let head : Fin uartBufSize := ⟨uartHead.toNat % uartBufSize, Nat.mod_lt _ (by decide)⟩
      match ← whileDecreasing (bytesLeft head) (consoleRound head)
        { i := head, console, cursor := 0 } with
      | .error fault => return .error fault
      | .ok console => return .ok (some console)
    else return .ok (some console)

/-! ### One round through the buffer -/

/-- The replies of a record in memory, where memory for the result may be refused. -/
def recordReplies (allocated : Bool) (uartBuf : Fin uartBufSize → UInt8) :
    (call : PanicCall) → PanicReply call
  | .calloc _ => allocated
  | .fprintf _ => ()
  | .uartBuf i => uartBuf i

/-- The characters at some places of the buffer, without the zero bytes. -/
def charactersAt (uartBuf : Fin uartBufSize → UInt8) (places : List (Fin uartBufSize)) :
    List UInt8 :=
  (places.map uartBuf).filter (· ≠ 0)

/-- The result of the function while it holds a text: the rest of the memory is zero. -/
def terminated (text : List UInt8) : List UInt8 :=
  text ++ List.replicate (uartBufSize + 1 - text.length) 0

/-- The loads from some places, in order. -/
def loads (uartBuf : Fin uartBufSize → UInt8) (places : List (Fin uartBufSize)) :
    List (Exchange PanicReply) :=
  places.map fun i ↦ ⟨.uartBuf i, uartBuf i⟩

variable {uartBuf : Fin uartBufSize → UInt8}

theorem length_charactersAt_le (places : List (Fin uartBufSize)) :
    (charactersAt uartBuf places).length ≤ places.length :=
  (List.length_filter_le _ _).trans_eq (List.length_map _)

theorem charactersAt_snoc (places : List (Fin uartBufSize)) (i : Fin uartBufSize) :
    charactersAt uartBuf (places ++ [i]) =
      charactersAt uartBuf places ++ if uartBuf i ≠ 0 then [uartBuf i] else [] := by
  rw [charactersAt, charactersAt, List.map_append, List.filter_append, List.map_singleton]
  by_cases hzero : uartBuf i = 0
  · rw [if_neg (not_not.mpr hzero), hzero]
    rfl
  · rw [if_pos hzero, List.filter_cons_of_pos (by simpa using hzero), List.filter_nil]

/-- A text shorter than the memory is followed by a zero. -/
theorem length_terminated {text : List UInt8} (hroom : text.length ≤ uartBufSize) :
    (terminated text).length = uartBufSize + 1 := by
  rw [terminated, List.length_append, List.length_replicate]
  omega

/-- Storing a character appends it to the text, inside the memory. -/
theorem storeCharacter_terminated (i : Fin uartBufSize) {text : List UInt8}
    (hroom : text.length < uartBufSize) (ch : UInt8) :
    storeCharacter ⟨i, terminated text, text.length⟩ ch =
      .ok (terminated (text ++ if ch ≠ 0 then [ch] else []),
        (text ++ if ch ≠ 0 then [ch] else []).length) := by
  unfold storeCharacter
  split_ifs with hzero
  · rw [terminated, overwriteWithin_replicate 0 _ _ (by rw [List.length_singleton]; omega), ok_bind,
      pure_eq_ok, terminated, List.length_append, List.length_singleton, Nat.sub_sub]
  · rw [List.append_nil, pure_eq_ok]

/-- The loop after `step` bytes: it has visited the first places of the round from `head` and holds
their characters. -/
structure RoundProgress (uartBuf : Fin uartBufSize → UInt8) (past : List (Exchange PanicReply))
    (head : Fin uartBufSize) (step : ℕ) (state : ConsoleState)
    (history : List (Exchange PanicReply)) : Prop where
  more : step < uartBufSize
  index : state.i.val = (head.val + step) % uartBufSize
  console : state.console = terminated (charactersAt uartBuf ((around head).take step))
  cursor : state.cursor = (charactersAt uartBuf ((around head).take step)).length
  visited : history = past ++ loads uartBuf ((around head).take step)

/-- The places of a round up to and including an index. -/
theorem take_succ_around {head i : Fin uartBufSize} {step : ℕ} (hmore : step < uartBufSize)
    (hindex : i.val = (head.val + step) % uartBufSize) :
    (around head).take (step + 1) = (around head).take step ++ [i] := by
  have hplace : i = head + ⟨step, hmore⟩ := Fin.ext (by rw [Fin.val_add, hindex])
  rw [List.take_add_one, getElem?_around head hmore, ← hplace]
  rfl

/-- One round visits the next place and either goes on or has come back to the head. -/
theorem consoleRound_ensures {allocated : Bool} {past history : List (Exchange PanicReply)}
    {head : Fin uartBufSize} {step : ℕ} {state : ConsoleState}
    (hprogress : RoundProgress uartBuf past head step state history) :
    Ensures (recordingAnswers (recordReplies allocated uartBuf)) (consoleRound head state) history
      fun outcome final ↦
        match outcome with
        | .inl next => RoundProgress uartBuf past head (step + 1) next.val final
        | .inr result => result = .ok (terminated (charactersAt uartBuf (around head))) ∧
            final = past ++ loads uartBuf (around head) := by
  obtain ⟨i, console, cursor⟩ := state
  obtain ⟨hmore, hindex, rfl, rfl, rfl⟩ := hprogress
  dsimp only at hindex
  have htake := take_succ_around hmore hindex
  have hroom : (charactersAt uartBuf ((around head).take step)).length < uartBufSize := by
    refine (length_charactersAt_le _).trans_lt ?_
    rw [List.length_take, length_around]
    omega
  have hstore := storeCharacter_terminated i hroom (uartBuf i)
  rw [← charactersAt_snoc, ← htake] at hstore
  rw [consoleRound, ensures_bind, ensures_request]
  rintro reply final ⟨rfl, rfl⟩
  have hvisited : past ++ loads uartBuf ((around head).take step) ++ [⟨.uartBuf i, uartBuf i⟩] =
      past ++ loads uartBuf ((around head).take (step + 1)) := by
    rw [htake, loads, loads, List.map_append, List.append_assoc]
    rfl
  dsimp only [recordReplies]
  rw [hstore, hvisited]
  dsimp only
  by_cases hback : nextIndex i = head
  · have hall : step + 1 = (around head).length := by
      have hvalue : (i.val + 1) % uartBufSize = head.val := congrArg Fin.val hback
      have hhead := head.isLt
      rw [length_around]
      simp only [uartBufSize] at *
      omega
    rw [dif_neg (not_not.mpr hback), pure_eq_done, ensures_done, hall, List.take_length]
    exact ⟨rfl, rfl⟩
  · rw [dif_pos hback, pure_eq_done, ensures_done]
    have hvalue : (i.val + 1) % uartBufSize ≠ head.val := fun hsame ↦ hback (Fin.ext hsame)
    have hhead := head.isLt
    refine ⟨?_, ?_, rfl, by dsimp only, rfl⟩
    · simp only [uartBufSize] at *
      omega
    · dsimp only [nextIndex]
      simp only [uartBufSize] at *
      omega

/-- The loop visits the places of one round and leaves their characters, terminated. -/
theorem consoleLoop_ensures (allocated : Bool) (past : List (Exchange PanicReply))
    (head : Fin uartBufSize) :
    Ensures (recordingAnswers (recordReplies allocated uartBuf))
      (whileDecreasing (bytesLeft head) (consoleRound head)
        { i := head, console := List.replicate (uartBufSize + 1) 0, cursor := 0 }) past
      fun result final ↦
        result = .ok (terminated (charactersAt uartBuf (around head))) ∧
          final = past ++ loads uartBuf (around head) := by
  refine whileDecreasing_ensures
    (fun state history ↦ ∃ step, RoundProgress uartBuf past head step state history)
    (fun state history ⟨step, hprogress⟩ ↦ ?_) _ _
    ⟨0, by decide, (Nat.mod_eq_of_lt head.isLt).symm, rfl, rfl, (List.append_nil past).symm⟩
  refine (consoleRound_ensures hprogress).mono fun outcome final hround ↦ ?_
  cases outcome with
  | inl next => exact ⟨step + 1, hround⟩
  | inr result => exact hround

/-! ### The log of a record -/

/-- The index that a head names. -/
def headIndex (uartHead : BitVec 32) : Fin uartBufSize :=
  ⟨uartHead.toNat % uartBufSize, Nat.mod_lt _ (by decide)⟩

/-- What the function returns and visits when it gets its memory. -/
theorem libhothGetPanicConsoleLog_ensures {uartHead : BitVec 32} (hhead : uartHead ≠ 0xFFFFFFFF) :
    Ensures (recordingAnswers (recordReplies true uartBuf)) (libhothGetPanicConsoleLog uartHead) []
      fun result history ↦
        result = .ok (some (terminated (charactersAt uartBuf (around (headIndex uartHead))))) ∧
          history = ⟨.calloc (uartBufSize + 1), true⟩ ::
            loads uartBuf (around (headIndex uartHead)) := by
  rw [libhothGetPanicConsoleLog, ensures_bind, ensures_request]
  rintro allocated _ ⟨rfl, rfl⟩
  dsimp only [recordReplies]
  rw [if_pos hhead, ensures_bind]
  refine (consoleLoop_ensures true _ (headIndex uartHead)).mono ?_
  rintro _ final ⟨rfl, rfl⟩
  dsimp only
  rw [pure_eq_done, ensures_done, List.nil_append, List.singleton_append]
  exact ⟨rfl, rfl⟩

/-- The record as a device that keeps what it was asked for. -/
def recordDevice (allocated : Bool) (uartBuf : Fin uartBufSize → UInt8)
    (past : List (Exchange PanicReply)) (call : PanicCall) :
    PanicReply call × List (Exchange PanicReply) :=
  (recordReplies allocated uartBuf call, past ++ [⟨call, recordReplies allocated uartBuf call⟩])

/-- What the function returns for a record in memory, and all it asked for on the way. -/
def consoleLogOf (allocated : Bool) (uartBuf : Fin uartBufSize → UInt8) (uartHead : BitVec 32) :
    Except Fault (Option (List UInt8)) × List (Exchange PanicReply) :=
  play (recordDevice allocated uartBuf) (libhothGetPanicConsoleLog uartHead) []

theorem consoleLogOf_eq (uartBuf : Fin uartBufSize → UInt8) {uartHead : BitVec 32}
    (hhead : uartHead ≠ 0xFFFFFFFF) :
    consoleLogOf true uartBuf uartHead =
      (.ok (some (terminated (charactersAt uartBuf (around (headIndex uartHead))))),
        ⟨.calloc (uartBufSize + 1), true⟩ :: loads uartBuf (around (headIndex uartHead))) := by
  have hdevice : ∀ past call, recordingAnswers (recordReplies true uartBuf) past call
      (recordDevice true uartBuf past call).1 (recordDevice true uartBuf past call).2 :=
    fun past call ↦ ⟨rfl, rfl⟩
  obtain ⟨hresult, hhistory⟩ := libhothGetPanicConsoleLog_ensures hhead _ _
    (runs_play hdevice (libhothGetPanicConsoleLog uartHead) [])
  exact Prod.ext hresult hhistory

/-- A head that a writer keeps after a number of characters: modulo the size of the buffer, or as a
running count of 32 bits that is not the mark of an empty record. -/
def HeadAfter (written : ℕ) (uartHead : BitVec 32) : Prop :=
  uartHead ≠ 0xFFFFFFFF ∧
    (uartHead = BitVec.ofNat 32 (written % uartBufSize) ∨ uartHead = BitVec.ofNat 32 written)

theorem HeadAfter.toNat_mod {written : ℕ} {uartHead : BitVec 32}
    (hhead : HeadAfter written uartHead) :
    uartHead.toNat % uartBufSize = written % uartBufSize := by
  rcases hhead.2 with rfl | rfl <;> simp only [BitVec.toNat_ofNat, uartBufSize] <;> omega

/-- The record of a writer that started with zeros and wrote some characters. -/
def writtenBuf (characters : List UInt8) : Fin uartBufSize → UInt8 :=
  ((Circular.blank 0).writes characters).cells

/-- Read from the head, the characters of a written buffer are the last ones written. -/
theorem charactersAt_writtenBuf {characters : List UInt8} (hwritten : ∀ ch ∈ characters, ch ≠ 0)
    {uartHead : BitVec 32} (hhead : HeadAfter characters.length uartHead) :
    charactersAt (writtenBuf characters) (around (headIndex uartHead)) =
      characters.drop (characters.length - uartBufSize) := by
  have hnext : headIndex uartHead = ((Circular.blank 0).writes characters :
      Circular UInt8 uartBufSize).next := by
    refine Fin.ext (hhead.toNat_mod.trans ?_)
    rw [Circular.next_writes, Circular.blank, Fin.val_zero, Nat.zero_add]
  have hcontents : (around (headIndex uartHead)).map (writtenBuf characters) =
      List.replicate (uartBufSize - characters.length) 0 ++
        characters.drop (characters.length - uartBufSize) := by
    rw [hnext, writtenBuf, ← Circular.contents, Circular.contents_writes, Circular.contents_blank,
      List.drop_append, List.drop_replicate, List.length_replicate]
  rw [charactersAt, hcontents, List.filter_append,
    List.filter_replicate_of_neg (by decide), List.nil_append, List.filter_eq_self]
  exact fun ch hmem ↦ decide_eq_true (hwritten ch (List.mem_of_mem_drop hmem))

/-- The contract of `libhoth_get_panic_console_log`: the buffer of every record is read once round
from the head into memory that is large enough, and the log of a writer is the last characters it
wrote. -/
theorem libhothGetPanicConsoleLog_of_written :
    (∀ (uartBuf : Fin uartBufSize → UInt8) (uartHead : BitVec 32), uartHead ≠ 0xFFFFFFFF →
      ∃ places : List (Fin uartBufSize), places.Perm (List.finRange uartBufSize) ∧
        places = around (headIndex uartHead) ∧
        (terminated (charactersAt uartBuf places)).length = uartBufSize + 1 ∧
        consoleLogOf true uartBuf uartHead =
          (.ok (some (terminated (charactersAt uartBuf places))),
            ⟨.calloc (uartBufSize + 1), true⟩ :: loads uartBuf places)) ∧
    ∀ characters : List UInt8, (∀ ch ∈ characters, ch ≠ 0) →
      ∀ uartHead, HeadAfter characters.length uartHead →
        (consoleLogOf true (writtenBuf characters) uartHead).1 =
          .ok (some (terminated (characters.drop (characters.length - uartBufSize)))) := by
  refine ⟨fun uartBuf uartHead hhead ↦ ?_, fun characters hwritten uartHead hhead ↦ ?_⟩
  · refine ⟨around (headIndex uartHead), around_perm _, rfl, length_terminated ?_,
      consoleLogOf_eq uartBuf hhead⟩
    exact (length_charactersAt_le _).trans_eq (length_around _)
  · rw [consoleLogOf_eq _ hhead.1, charactersAt_writtenBuf hwritten hhead]

/-- A record with a running count, after three characters. -/
theorem libhothGetPanicConsoleLog_of_written_three :
    (∃ places : List (Fin uartBufSize), places.Perm (List.finRange uartBufSize) ∧
      (consoleLogOf true (fun _ ↦ 0x61) 4097).1 =
        .ok (some (terminated (charactersAt (fun _ ↦ 0x61) places)))) ∧
    (consoleLogOf true (writtenBuf [0x61, 0x62, 0x63]) 3).1 =
      .ok (some (terminated [0x61, 0x62, 0x63])) := by
  constructor
  · obtain ⟨places, hperm, -, -, hlog⟩ :=
      libhothGetPanicConsoleLog_of_written.1 (fun _ ↦ 0x61) 4097 (by decide)
    exact ⟨places, hperm, congrArg Prod.fst hlog⟩
  · exact libhothGetPanicConsoleLog_of_written.2 [0x61, 0x62, 0x63] (by simp) 3
      ⟨by decide, .inr (by decide)⟩

end Libhoth.Protocol.PanicConsole
