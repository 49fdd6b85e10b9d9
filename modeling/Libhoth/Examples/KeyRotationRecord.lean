import Libhoth.Protocol.KeyRotationRead

/-!
# Reading the key rotation record with the tool

`htool_key_rotation_read` of `htool_key_rotation.c`. The tool hands its 32-bit offset and size to
`libhoth_key_rotation_read`, which takes 16 bits of each, and writes or prints as many bytes of the
2048-byte response as the 32-bit size says.

`OutputsRead` is what the tool owes its user: it puts out nothing but bytes that were read in this
call, from the range that was asked for. `RecordReadEnd` lists the ways in which a run can end, and
`outputsRead_iff` says for which offsets and sizes every run is as it should be.
-/

set_option autoImplicit false
set_option relaxedAutoImplicit false

namespace Libhoth.Examples.KeyRotationRecord

open Foundation.ByteString Foundation.CellMemory Foundation.CheckedAccess
open Foundation.InteractingProgram Foundation.RangeTiling
open Protocol.Status Protocol.HostCommandProgram Protocol.KeyRotation Protocol.KeyRotationRead

/-! ### The program -/

/-- What the command asks of the world around it. One of the calls is the contents of the response
before it is written. -/
inductive RecordCall
  | libhothDevice
  | hostcmdExec (call : HostCommand)
  | fprintf (text : String)
  | strerror
  | reportError (cmd : String) (err : LibhothError)
  | access (path : String)
  | scanf
  | openFile (path : String)
  | unwritten
  | write (data : List UInt8)
  | close
  | printf (text : String)
  | printByte (value : UInt8)

/-- The replies: whether there is a device, the reply to a host command, the text of the last error,
whether a file exists, the character that was typed, whether a file could be opened, the contents of
the response, the number of bytes that were written, and whether the file could be closed. -/
abbrev RecordReply : RecordCall → Type
  | .libhothDevice => Bool
  | .hostcmdExec call => HostReply call
  | .fprintf _ => Unit
  | .strerror => String
  | .reportError _ _ => Unit
  | .access _ => Bool
  | .scanf => Option Char
  | .openFile _ => Bool
  | .unwritten => ℕ → UInt8
  | .write _ => Option ℕ
  | .close => Bool
  | .printf _ => Unit
  | .printByte _ => Unit

/-- Programs of the command. -/
abbrev RecordProgram := Interaction RecordReply

/-- The history of a run of the command. -/
abbrev RecordHistory := List (Exchange RecordReply)

/-- The parameters of the command, each as its lookup returns it. -/
structure RecordParams where
  offset : Option UInt32
  size : Option UInt32
  half : Option String
  outputFile : Option String

/-- `get_key_rotation_read_half`. -/
def getKeyRotationReadHalf : String → Option ℕ
  | "active" => some 0
  | "staging" => some 1
  | "a" => some 2
  | "b" => some 3
  | _ => none

/-- Opening a file that may be overwritten: whether it could be opened. -/
def openToOverwrite (path : String) : RecordProgram Bool := do
  if ← request (RecordCall.openFile path) then return true
  else
    let reason ← request RecordCall.strerror
    let _ ← request (RecordCall.fprintf s!"Error opening file {path}: {reason}\n")
    return false

/-- The part of the command that opens the output file, which may exist already: whether it could be
opened. -/
def openOutput (path : String) : RecordProgram Bool := do
  if ← request (RecordCall.access path) then
    let _ ← request (RecordCall.fprintf
      s!"Warning: File '{path}' exists and will be overwritten. Continue? (y/N) ")
    let confirmation ← request RecordCall.scanf
    if confirmation = some 'y' ∨ confirmation = some 'Y' then openToOverwrite path
    else
      let _ ← request (RecordCall.fprintf "Operation cancelled.\n")
      return false
  else openToOverwrite path

/-- One round of the loop that prints the bytes. -/
def printRound (data : ℕ → UInt8) (size i : ℕ) :
    RecordProgram ({next : ℕ // size - next < size - i} ⊕ Except Fault Unit) :=
  if hmore : i < size then
    match loadWithin keyRotationFlashAreaSize data i 1 with
    | .error fault => return .inr (.error fault)
    | .ok value => do
      let _ ← request (RecordCall.printByte (value.headD 0))
      if (i + 1) % 16 = 0 then
        let _ ← request (RecordCall.printf "\n")
      return .inl ⟨i + 1, Nat.sub_succ_lt_self _ _ hmore⟩
  else return .inr (.ok ())

/-- The part of the command that writes the data to the output file. -/
def writeData (path : String) (data : ℕ → UInt8) (size : ℕ) : RecordProgram (Except Fault ℤ) :=
  match loadWithin keyRotationFlashAreaSize data 0 size with
  | .error fault => return .error fault
  | .ok bytes => do
    let written ← request (RecordCall.write bytes)
    if written ≠ some size then
      let reason ← request RecordCall.strerror
      let _ ← request (RecordCall.fprintf s!"Error writing to file {path}: {reason}\n")
      let _ ← request RecordCall.close
      return .ok (-1)
    else if ← request RecordCall.close then return .ok 0
    else
      let reason ← request RecordCall.strerror
      let _ ← request (RecordCall.fprintf s!"close error: {reason}\n")
      return .ok (-1)

/-- The part of the command that prints the data. -/
def printData (data : ℕ → UInt8) (size : ℕ) : RecordProgram (Except Fault ℤ) := do
  let _ ← request (RecordCall.printf "Key rotation record data:\n")
  match ← whileDecreasing (fun i ↦ size - i) (printRound data size) 0 with
  | .error fault => return .error fault
  | .ok _ =>
    let _ ← request (RecordCall.printf "\n")
    return .ok 0

/-- A program over host commands as part of the command. -/
def onDevice {α : Type} (program : HostProgram α) : RecordProgram α :=
  interpret (fun call ↦ request (RecordCall.hostcmdExec call)) program

/-- The arguments of the library for a 32-bit offset and size: sixteen bits of each. -/
def libraryRequest (offset size : UInt32) (readHalf : ℕ) (reserved : ℕ → ℕ) : RecordReadRequest where
  recordOffset := offset.toNat % 2 ^ 16
  readSize := size.toNat % 2 ^ 16
  readHalf := readHalf
  reserved := reserved

/-- The part of the command behind a failure of the library. -/
def reportReadFailure (retRead : LibhothError) (outputFile : Option String) :
    RecordProgram (Except Fault ℤ) := do
  let _ ← request (RecordCall.reportError "key_rotation read" retRead)
  match outputFile with
  | some _ =>
    let _ ← request RecordCall.close
    return .ok (-1)
  | none => return .ok (-1)

/-- The part of the command that reads the record and puts it out, to an open file if there is
one. -/
def readAndOutput (offset size : UInt32) (readHalf : ℕ) (outputFile : Option String)
    (reserved : ℕ → ℕ) : RecordProgram (Except Fault ℤ) := do
  let readResponse ← request RecordCall.unwritten
  match ← onDevice (libhothKeyRotationRead (libraryRequest offset size readHalf reserved)
    readResponse) with
  | .error fault => return .error fault
  | .ok retRead =>
    if retRead.error ≠ hothSuccess then reportReadFailure retRead.error outputFile
    else
      match outputFile with
      | some path => writeData path retRead.data size.toNat
      | none => printData retRead.data size.toNat

/-- `htool_key_rotation_read`. The output goes to a file when its name is given and not empty. -/
def htoolKeyRotationRead (params : RecordParams) (reserved : ℕ → ℕ) :
    RecordProgram (Except Fault ℤ) := do
  if ← request RecordCall.libhothDevice then
    match params.offset, params.size, params.half with
    | some offset, some size, some half =>
      match getKeyRotationReadHalf half with
      | none =>
        let _ ← request (RecordCall.fprintf s!"Invalid read_half value: {half}\n")
        return .ok (-1)
      | some readHalf =>
        match params.outputFile.filter (· ≠ "") with
        | none => readAndOutput offset size readHalf none reserved
        | some path =>
          if ← openOutput path then readAndOutput offset size readHalf (some path) reserved
          else return .ok (-1)
    | _, _, _ => return .ok (-1)
  else return .ok (-1)

/-! ### What the command puts out -/

/-- The exchange with the device that an exchange of the command is. -/
def hostExchange : Exchange RecordReply → Option (Exchange HostReply)
  | ⟨.hostcmdExec call, reply⟩ => some ⟨call, reply⟩
  | _ => none

/-- The exchanges with the device. -/
def hostHistory (history : RecordHistory) : HostHistory :=
  history.filterMap hostExchange

/-- The bytes of the record that an exchange puts out. -/
def emittedBytes : Exchange RecordReply → List UInt8
  | ⟨.write data, _⟩ => data
  | ⟨.printByte value, _⟩ => [value]
  | _ => []

/-- All bytes that are written to the file or printed, in order. -/
def emitted (history : RecordHistory) : List UInt8 :=
  history.flatMap emittedBytes

/-- The command stays inside the response, and when it puts out data these are bytes that were read
in this call, at most 2048, from the range of the record that was asked for. -/
structure OutputsRead (offset size : UInt32) (result : Except Fault ℤ) (history : RecordHistory) :
    Prop where
  inside : ∃ status, result = .ok status
  read : emitted history ≠ [] → emitted history <+: deliveredBytes (hostHistory history)
  bounded : (emitted history).length ≤ 2048
  range : emitted history ≠ [] → ∃ packets : List RecordPacket,
    (hostHistory history).map (fun exchange ↦ packetOf exchange.1) = packets.map some ∧
      Tiles offset.toNat (offset.toNat + size.toNat) (packets.map extentOf)

/-- The exchange keeps the command from putting out data. -/
def Hinders : Exchange RecordReply → Prop
  | ⟨.libhothDevice, found⟩ => found = false
  | ⟨.hostcmdExec call, reply⟩ => ¬Delivered ⟨call, reply⟩
  | ⟨.access _, found⟩ => found = true
  | ⟨.openFile _, opened⟩ => opened = false
  | _ => False

/-- Why the command puts out no data: a parameter, an answer, or the size that the library sees. -/
def Withheld (params : RecordParams) (history : RecordHistory) : Prop :=
  params.offset = none ∨ params.size = none ∨ params.half.bind getKeyRotationReadHalf = none ∨
    (∃ exchange ∈ history, Hinders exchange) ∨
    ∃ size, params.size = some size ∧
      (size.toNat % 2 ^ 16 > keyRotationFlashAreaSize ∨ size.toNat % 2 ^ 16 = 0)

/-- What is put out of an array, and whether the command leaves it. -/
structure OutputEnd (data : ℕ → UInt8) (size : ℕ) (result : Except Fault ℤ)
    (history : RecordHistory) : Prop where
  host : hostHistory history = []
  inside : size ≤ keyRotationFlashAreaSize →
    (∃ status, result = .ok status) ∧ emitted history = load data 0 size
  beyond : keyRotationFlashAreaSize < size → ∃ fault, result = .error fault

/-- How a run of the command ends. -/
inductive RecordReadEnd (params : RecordParams) : Except Fault ℤ → RecordHistory → Prop
  | silent {status : ℤ} {history : RecordHistory} (hquiet : emitted history = [])
    (hwithheld : Withheld params history) : RecordReadEnd params (.ok status) history
  | output {offset size : UInt32} {readHalf : ℕ} {reserved : ℕ → ℕ} {initial : ℕ → UInt8}
    {value : RecordReadResult} {result : Except Fault ℤ} {before after : RecordHistory}
    {read : HostHistory} (hoffset : params.offset = some offset) (hsize : params.size = some size)
    (hhost : hostHistory before = []) (hquiet : emitted before = [])
    (hpos : 0 < size.toNat % 2 ^ 16) (harea : size.toNat % 2 ^ 16 ≤ keyRotationFlashAreaSize)
    (hread : ReadEnd (libraryRequest offset size readHalf reserved) initial read value)
    (hsuccess : value.error = hothSuccess)
    (houtput : OutputEnd value.data size.toNat result after) :
    RecordReadEnd params result (before ++ read.map (embedExchange .hostcmdExec) ++ after)

@[simp] theorem hostHistory_append (first second : RecordHistory) :
    hostHistory (first ++ second) = hostHistory first ++ hostHistory second :=
  List.filterMap_append

@[simp] theorem emitted_append (first second : RecordHistory) :
    emitted (first ++ second) = emitted first ++ emitted second :=
  List.flatMap_append

@[simp] theorem hostHistory_embed (read : HostHistory) :
    hostHistory (read.map (embedExchange .hostcmdExec)) = read := by
  induction read with
  | nil => rfl
  | cons exchange rest ih =>
    rw [List.map_cons, hostHistory, List.filterMap_cons, ← hostHistory, ih]
    rfl

/-- The host commands of a run whose other parts have none. -/
theorem hostHistory_around {before after : RecordHistory} (hbefore : hostHistory before = [])
    (hafter : hostHistory after = []) (read : HostHistory) :
    hostHistory (before ++ read.map (embedExchange .hostcmdExec) ++ after) = read := by
  rw [hostHistory_append, hostHistory_append, hbefore, hostHistory_embed, hafter, List.append_nil,
    List.nil_append]

@[simp] theorem emitted_embed (read : HostHistory) :
    emitted (read.map (embedExchange .hostcmdExec)) = [] := by
  rw [emitted, List.flatMap_eq_nil_iff]
  intro exchange hmem
  obtain ⟨call, -, rfl⟩ := List.mem_map.mp hmem
  rfl

/-! ### Putting out the data -/

/-- Writing the data to the file. -/
theorem writeData_ensures (path : String) (data : ℕ → UInt8) (size : ℕ) (past : RecordHistory) :
    Ensures recording (writeData path data size) past fun result final ↦
      ∃ after, final = past ++ after ∧ OutputEnd data size result after := by
  unfold writeData
  by_cases hfits : size ≤ keyRotationFlashAreaSize
  · rw [loadWithin_of_le data (show 0 + size ≤ keyRotationFlashAreaSize by omega)]
    have hend : ∀ status after, emitted after = [] → hostHistory after = [] → ∀ written,
        OutputEnd data size (.ok status)
          (⟨.write (load data 0 size), written⟩ :: after) := by
      intro status after hafter hhost written
      refine ⟨hhost, fun _ ↦ ⟨⟨status, rfl⟩, ?_⟩, fun hover ↦ absurd hfits (not_le.mpr hover)⟩
      exact (congrArg _ hafter).trans (List.append_nil _)
    simp only [ensures_bind, ensures_request, recording_iff]
    rintro written _ rfl
    split_ifs
    · simp only [ensures_bind, ensures_request, recording_iff, pure_eq_done, ensures_done]
      rintro reason _ rfl _ _ rfl closed _ rfl
      exact ⟨_, by simp only [List.append_assoc]; rfl, hend _ _ rfl rfl _⟩
    · simp only [ensures_bind, ensures_request, recording_iff, pure_eq_done]
      rintro closed _ rfl
      split_ifs
      · rw [ensures_done]
        exact ⟨_, by simp only [List.append_assoc]; rfl, hend _ _ rfl rfl _⟩
      · simp only [ensures_bind, ensures_request, recording_iff, ensures_done]
        rintro reason _ rfl _ _ rfl
        exact ⟨_, by simp only [List.append_assoc]; rfl, hend _ _ rfl rfl _⟩
  · rw [loadWithin, if_neg (by omega)]
    dsimp only
    rw [pure_eq_done, ensures_done]
    exact ⟨[], (List.append_nil _).symm, rfl, fun hinside ↦ absurd hinside hfits, fun _ ↦ ⟨_, rfl⟩⟩

/-- The loop that prints the bytes: some of them were printed. -/
structure PrintProgress (data : ℕ → UInt8) (size : ℕ) (past : RecordHistory) (i : ℕ)
    (history : RecordHistory) : Prop where
  bound : i ≤ size
  inside : i ≤ keyRotationFlashAreaSize
  printed : ∃ after, history = past ++ after ∧ hostHistory after = [] ∧ emitted after = load data 0 i

/-- How the loop ends: with all bytes, or at the end of the response. -/
def PrintEnd (data : ℕ → UInt8) (size : ℕ) (past : RecordHistory) (result : Except Fault Unit)
    (history : RecordHistory) : Prop :=
  ∃ after, history = past ++ after ∧ hostHistory after = [] ∧
    ((result = .ok () ∧ size ≤ keyRotationFlashAreaSize ∧ emitted after = load data 0 size) ∨
      ∃ fault, result = .error fault ∧ keyRotationFlashAreaSize < size)

/-- One more byte. -/
theorem PrintProgress.snoc {data : ℕ → UInt8} {size i : ℕ} {past history : RecordHistory}
    (hprogress : PrintProgress data size past i history) (hmore : i < size)
    (hroom : i < keyRotationFlashAreaSize) {rest : RecordHistory} (hhost : hostHistory rest = [])
    (hrest : emitted rest = [data i]) :
    PrintProgress data size past (i + 1) (history ++ rest) where
  bound := hmore
  inside := hroom
  printed := by
    obtain ⟨after, rfl, hafter, hemitted⟩ := hprogress.printed
    refine ⟨after ++ rest, List.append_assoc _ _ _, ?_, ?_⟩
    · rw [hostHistory_append, hafter, hhost, List.append_nil]
    · rw [emitted_append, hemitted, hrest, load_add, Nat.zero_add]
      rfl

theorem printRound_ensures {data : ℕ → UInt8} {size i : ℕ} {past history : RecordHistory}
    (hprogress : PrintProgress data size past i history) :
    Ensures recording (printRound data size i) history fun outcome final ↦
      match outcome with
      | .inl next => PrintProgress data size past next.val final
      | .inr result => PrintEnd data size past result final := by
  unfold printRound
  by_cases hmore : i < size
  · rw [dif_pos hmore]
    by_cases hroom : i < keyRotationFlashAreaSize
    · rw [loadWithin_of_le data hroom]
      simp only [ensures_bind, ensures_request, recording_iff]
      rintro _ _ rfl
      split_ifs
      · simp only [ensures_bind, ensures_request, recording_iff, pure_eq_done, ensures_done]
        rintro _ _ rfl
        rw [List.append_assoc]
        exact hprogress.snoc hmore hroom rfl rfl
      · rw [pure_eq_done, ensures_done]
        exact hprogress.snoc hmore hroom rfl rfl
    · rw [loadWithin, if_neg (by omega)]
      dsimp only
      rw [pure_eq_done, ensures_done]
      obtain ⟨after, hhistory, hhost, -⟩ := hprogress.printed
      exact ⟨after, hhistory, hhost, .inr ⟨_, rfl, by omega⟩⟩
  · rw [dif_neg hmore, pure_eq_done, ensures_done]
    obtain ⟨after, hhistory, hhost, hemitted⟩ := hprogress.printed
    obtain rfl : i = size := by
      have hbound := hprogress.bound
      omega
    exact ⟨after, hhistory, hhost, .inl ⟨rfl, hprogress.inside, hemitted⟩⟩

/-- Printing the data. -/
theorem printData_ensures (data : ℕ → UInt8) (size : ℕ) (past : RecordHistory) :
    Ensures recording (printData data size) past fun result final ↦
      ∃ after, final = past ++ after ∧ OutputEnd data size result after := by
  rw [printData, ensures_bind, ensures_request]
  rintro _ _ rfl
  rw [ensures_bind]
  have hloop : Ensures recording (whileDecreasing (fun i ↦ size - i) (printRound data size) 0)
      (past ++ [⟨.printf "Key rotation record data:\n", ()⟩])
      (PrintEnd data size (past ++ [⟨.printf "Key rotation record data:\n", ()⟩])) := by
    refine whileDecreasing_ensures (PrintProgress data size _) (fun i history hprogress ↦ ?_) _ _
      ⟨Nat.zero_le _, Nat.zero_le _, [], (List.append_nil _).symm, rfl, rfl⟩
    refine (printRound_ensures hprogress).mono fun outcome final hround ↦ ?_
    cases outcome <;> exact hround
  refine hloop.mono ?_
  rintro result final ⟨after, rfl, hhost, ⟨rfl, hinside, hemitted⟩ | ⟨fault, rfl, hbeyond⟩⟩
  · simp only [ensures_bind, ensures_request, recording_iff, pure_eq_done, ensures_done]
    rintro _ _ rfl
    refine ⟨_, by simp only [List.append_assoc]; rfl, ?_, fun _ ↦ ⟨⟨0, rfl⟩, ?_⟩,
      fun hover ↦ absurd hinside (not_le.mpr hover)⟩
    · rw [hostHistory_append, hostHistory_append, hhost]
      rfl
    · rw [emitted_append, emitted_append, hemitted]
      exact List.append_nil _
  · dsimp only
    rw [pure_eq_done, ensures_done]
    refine ⟨_, List.append_assoc _ _ _, ?_, fun hinside ↦ absurd hinside (not_le.mpr hbeyond),
      fun _ ↦ ⟨fault, rfl⟩⟩
    rw [hostHistory_append, hhost]
    rfl

/-! ### How a run ends -/

/-- Running a program over host commands records what it records on its own. -/
theorem onDevice_ensures {α : Type} {program : HostProgram α} {past : RecordHistory}
    {post : α → RecordHistory → Prop}
    (hpost : ∀ result read, Runs recording program [] result read →
      post result (past ++ read.map (embedExchange .hostcmdExec))) :
    Ensures recording (onDevice program) past post := by
  intro result final hrun
  obtain ⟨read, hread, rfl⟩ := (runs_interpret_embed RecordCall.hostcmdExec _ _ _ _).mp hrun
  exact hpost result read hread

section Ends

variable {params : RecordParams} {past : RecordHistory}

/-- A withheld run stays withheld. -/
theorem Withheld.append (hwithheld : Withheld params past) (rest : RecordHistory) :
    Withheld params (past ++ rest) := by
  rcases hwithheld with hoffset | hsize | hhalf | ⟨exchange, hmem, hhinders⟩ | hrefused
  · exact .inl hoffset
  · exact .inr (.inl hsize)
  · exact .inr (.inr (.inl hhalf))
  · exact .inr (.inr (.inr (.inl ⟨exchange, List.mem_append_left _ hmem, hhinders⟩)))
  · exact .inr (.inr (.inr (.inr hrefused)))

theorem withheld_of_hinders {exchange : Exchange RecordReply} (hmem : exchange ∈ past)
    (hhinders : Hinders exchange) : Withheld params past :=
  .inr (.inr (.inr (.inl ⟨exchange, hmem, hhinders⟩)))

/-- After a failure of the library the command reports it and puts out nothing. -/
theorem reportReadFailure_ensures (hquiet : emitted past = []) (hwithheld : Withheld params past)
    (retRead : LibhothError) (outputFile : Option String) :
    Ensures recording (reportReadFailure retRead outputFile) past (RecordReadEnd params) := by
  unfold reportReadFailure
  rw [ensures_bind, ensures_request]
  rintro _ _ rfl
  cases outputFile with
  | some path =>
    simp only [ensures_bind, ensures_request, recording_iff, pure_eq_done, ensures_done]
    rintro closed _ rfl
    rw [List.append_assoc]
    exact .silent (by rw [emitted_append, hquiet]; rfl) (hwithheld.append _)
  | none =>
    dsimp only
    rw [pure_eq_done, ensures_done]
    exact .silent (by rw [emitted_append, hquiet]; rfl) (hwithheld.append _)

variable {offset size : UInt32} (hoffset : params.offset = some offset)
  (hsize : params.size = some size)
include hoffset hsize

/-- From the call of the library on. -/
theorem readAndOutput_ensures (hhost : hostHistory past = []) (hquiet : emitted past = [])
    (readHalf : ℕ) (outputFile : Option String) (reserved : ℕ → ℕ) :
    Ensures recording (readAndOutput offset size readHalf outputFile reserved) past
      (RecordReadEnd params) := by
  rw [readAndOutput, ensures_bind, ensures_request]
  rintro initial _ rfl
  rw [ensures_bind]
  refine onDevice_ensures fun result read hread ↦ ?_
  have hstart : hostHistory (past ++ [⟨.unwritten, initial⟩]) = [] := by
    rw [hostHistory_append, hhost]
    rfl
  have hsilent : emitted (past ++ [⟨.unwritten, initial⟩]) = [] := by
    rw [emitted_append, hquiet]
    rfl
  by_cases hrefused : (libraryRequest offset size readHalf reserved).readSize >
      keyRotationFlashAreaSize ∨ (libraryRequest offset size readHalf reserved).readSize = 0
  · rw [libhothKeyRotationRead_of_refused hrefused] at hread
    obtain ⟨rfl, rfl⟩ := hread
    rw [List.map_nil, List.append_nil]
    exact reportReadFailure_ensures hsilent (.inr (.inr (.inr (.inr ⟨size, hsize, hrefused⟩)))) _ _
  · obtain ⟨hlimit, hpos⟩ := not_or.mp hrefused
    obtain ⟨value, rfl, hend⟩ := libhothKeyRotationRead_ensures _ initial
      (Nat.pos_of_ne_zero hpos) (not_lt.mp hlimit) result read hread
    have hquietRead : emitted (past ++ [⟨.unwritten, initial⟩] ++
        read.map (embedExchange .hostcmdExec)) = [] := by
      rw [emitted_append, hsilent, emitted_embed]
      rfl
    dsimp only
    by_cases hsuccess : value.error = hothSuccess
    · rw [if_neg (not_not.mpr hsuccess)]
      have houtput : ∀ result after, OutputEnd value.data size.toNat result after →
          RecordReadEnd params result (past ++ [⟨.unwritten, initial⟩] ++
            read.map (embedExchange .hostcmdExec) ++ after) := fun result after houtput ↦
        .output hoffset hsize hstart hsilent (Nat.pos_of_ne_zero hpos) (not_lt.mp hlimit) hend
          hsuccess houtput
      cases outputFile with
      | some path =>
        refine (writeData_ensures path value.data size.toNat _).mono ?_
        rintro result _ ⟨after, rfl, hafter⟩
        exact houtput result after hafter
      | none =>
        refine (printData_ensures value.data size.toNat _).mono ?_
        rintro result _ ⟨after, rfl, hafter⟩
        exact houtput result after hafter
    · rw [if_pos hsuccess]
      cases hend with
      | complete => exact absurd rfl hsuccess
      | stopped _ _ _ _ _ _ _ hundelivered =>
        obtain ⟨exchange, hmem, hnot⟩ := hundelivered
        exact reportReadFailure_ensures hquietRead (withheld_of_hinders
          (List.mem_append_right _ (List.mem_map_of_mem hmem)) hnot) _ _

end Ends

/-- Opening the output neither asks the device nor puts out data, and it fails for a reason. -/
structure Opened (past : RecordHistory) (opened : Bool) (history : RecordHistory) : Prop where
  rest : ∃ rest, history = past ++ rest ∧ hostHistory rest = [] ∧ emitted rest = [] ∧
    (opened = false → ∃ exchange ∈ rest, Hinders exchange)

theorem openToOverwrite_ensures (path : String) (past : RecordHistory) :
    Ensures recording (openToOverwrite path) past (Opened past) := by
  rw [openToOverwrite, ensures_bind, ensures_request]
  rintro opened _ rfl
  cases opened with
  | true =>
    rw [if_pos rfl, pure_eq_done, ensures_done]
    exact ⟨_, rfl, rfl, rfl, fun hfailed ↦ absurd hfailed (by decide)⟩
  | false =>
    rw [if_neg (by decide)]
    simp only [ensures_bind, ensures_request, recording_iff, pure_eq_done, ensures_done]
    rintro reason _ rfl _ _ rfl
    exact ⟨_, by simp only [List.append_assoc]; rfl, rfl, rfl,
      fun _ ↦ ⟨⟨.openFile path, false⟩, List.mem_cons_self, rfl⟩⟩

theorem openOutput_ensures (path : String) (past : RecordHistory) :
    Ensures recording (openOutput path) past (Opened past) := by
  rw [openOutput, ensures_bind, ensures_request]
  rintro found _ rfl
  have hmore : ∀ rest, hostHistory rest = [] → emitted rest = [] → ∀ opened final,
      Opened (past ++ rest) opened final → Opened past opened final := by
    rintro rest hhost hemitted opened _ ⟨later, rfl, hlater, hsilent, hreason⟩
    refine ⟨rest ++ later, List.append_assoc _ _ _, ?_, ?_, fun hfailed ↦ ?_⟩
    · rw [hostHistory_append, hhost, hlater, List.append_nil]
    · rw [emitted_append, hemitted, hsilent, List.append_nil]
    · obtain ⟨exchange, hmem, hhinders⟩ := hreason hfailed
      exact ⟨exchange, List.mem_append_right _ hmem, hhinders⟩
  cases found with
  | true =>
    rw [if_pos rfl]
    simp only [ensures_bind, ensures_request, recording_iff]
    rintro _ _ rfl confirmation _ rfl
    rw [List.append_assoc, List.append_assoc]
    split_ifs
    · exact (openToOverwrite_ensures path _).mono (hmore _ rfl rfl)
    · simp only [ensures_bind, ensures_request, recording_iff, pure_eq_done, ensures_done]
      rintro _ _ rfl
      rw [List.append_assoc]
      exact ⟨_, rfl, rfl, rfl, fun _ ↦ ⟨⟨.access path, true⟩, List.mem_cons_self, rfl⟩⟩
  | false =>
    rw [if_neg (by decide)]
    exact (openToOverwrite_ensures path _).mono (hmore _ rfl rfl)

/-- Every run of the command ends without output for a reason, or in the output of what the library
read. -/
theorem htoolKeyRotationRead_ensures (params : RecordParams) (reserved : ℕ → ℕ) :
    Ensures recording (htoolKeyRotationRead params reserved) [] (RecordReadEnd params) := by
  rw [htoolKeyRotationRead, ensures_bind, ensures_request]
  rintro found _ rfl
  cases found with
  | false =>
    rw [if_neg (by decide), pure_eq_done, ensures_done]
    exact .silent rfl (withheld_of_hinders List.mem_cons_self rfl)
  | true =>
    rw [if_pos rfl]
    obtain ⟨offset, size, half, outputFile⟩ := params
    cases offset with
    | none => exact (ensures_done _ _ _).mpr (.silent rfl (.inl rfl))
    | some offset =>
    cases size with
    | none => exact (ensures_done _ _ _).mpr (.silent rfl (.inr (.inl rfl)))
    | some size =>
    cases half with
    | none => exact (ensures_done _ _ _).mpr (.silent rfl (.inr (.inr (.inl rfl))))
    | some half =>
    dsimp only
    cases hhalf : getKeyRotationReadHalf half with
    | none =>
      simp only [ensures_bind, ensures_request, recording_iff, pure_eq_done, ensures_done]
      rintro _ _ rfl
      exact .silent rfl (.inr (.inr (.inl hhalf)))
    | some readHalf =>
    cases outputFile.filter (· ≠ "") with
    | none => exact readAndOutput_ensures rfl rfl rfl rfl readHalf none reserved
    | some path =>
      dsimp only
      rw [ensures_bind]
      refine (openOutput_ensures path _).mono ?_
      rintro opened _ ⟨rest, rfl, hhost, hemitted, hreason⟩
      cases opened with
      | true =>
        rw [if_pos rfl]
        exact readAndOutput_ensures rfl rfl (by rw [hostHistory_append, hhost]; rfl)
          (by rw [emitted_append, hemitted]; rfl) readHalf (some path) reserved
      | false =>
        rw [if_neg (by decide), pure_eq_done, ensures_done]
        obtain ⟨exchange, hmem, hhinders⟩ := hreason rfl
        exact .silent (by rw [emitted_append, hemitted]; rfl)
          (withheld_of_hinders (List.mem_append_right _ hmem) hhinders)

/-! ### The range that is read -/

section Range

variable {offset size : UInt32} {readHalf : ℕ} {reserved : ℕ → ℕ} {extents : List Extent}
  {read : HostHistory}

/-- The requests on the wire for the packets of a read. -/
theorem map_packetOf_read
    (hsent : ReadSent (libraryRequest offset size readHalf reserved) size.toNat extents read) :
    read.map (fun exchange ↦ packetOf exchange.1) =
      (extents.map fun extent ↦ (⟨(extent.1 + offset.toNat % 2 ^ 16) % 2 ^ 16, extent.2 % 2 ^ 16,
        readHalf % 2 ^ 32⟩ : RecordPacket)).map some := by
  have hwire : read.map (fun exchange ↦ packetOf exchange.1) =
      (read.map Sigma.fst).map packetOf := by
    rw [List.map_map]
    rfl
  rw [hwire, hsent.calls, List.map_map, List.map_map]
  exact List.map_congr_left fun extent _ ↦ packetOf_readCall _ extent

/-- The offset of the last packet in a range of some size. -/
def lastPacketOffset (size : ℕ) : ℕ :=
  1004 * ((size - 1) / 1004)

/-- The packets of a read are the range that was asked for exactly when the offset of the last one
fits sixteen bits. -/
theorem readsRange_iff (hsize : size.toNat < 2 ^ 16) (hpos : 0 < size.toNat)
    (hsent : ReadSent (libraryRequest offset size readHalf reserved) size.toNat extents read) :
    (∃ packets : List RecordPacket,
      read.map (fun exchange ↦ packetOf exchange.1) = packets.map some ∧
        Tiles offset.toNat (offset.toNat + size.toNat) (packets.map extentOf)) ↔
      offset.toNat + lastPacketOffset size.toNat < 2 ^ 16 := by
  have hmax : keyRotationRecordReadMaxSize = 1004 := rfl
  have hpackets : ∀ extent ∈ extents, extent.1 % 1004 = 0 ∧
      extent.2 = min 1004 (size.toNat - extent.1) := by
    intro extent hmem
    obtain ⟨haligned, hlength⟩ := hsent.packets extent hmem
    have hread : (libraryRequest offset size readHalf reserved).readSize = size.toNat :=
      Nat.mod_eq_of_lt hsize
    rw [recordPacketSize_eq, hread] at hlength
    exact ⟨haligned, hlength⟩
  rw [map_packetOf_read hsent, lastPacketOffset]
  constructor
  · rintro ⟨packets, hwire, htiles⟩
    obtain rfl := List.map_injective_iff.mpr (Option.some_injective _) hwire
    rw [List.map_map] at htiles
    rcases List.eq_nil_or_concat extents with rfl | ⟨earlier, last, hlast⟩
    · have hempty := tiles_nil.mp hsent.tiles
      omega
    · rw [List.concat_eq_append] at hlast
      subst hlast
      obtain ⟨haligned, hlength⟩ := hpackets last (by simp)
      obtain ⟨-, hnonempty, hend⟩ := tiles_snoc_iff.mp hsent.tiles
      rw [List.map_append, List.map_singleton] at htiles
      obtain ⟨-, -, hwireEnd⟩ := tiles_snoc_iff.mp htiles
      simp only [extentOf, Function.comp_apply] at hwireEnd
      omega
  · intro hfits
    refine ⟨_, rfl, ?_⟩
    have hshift := hsent.tiles.shift offset.toNat
    rw [Nat.add_zero] at hshift
    rw [List.map_map]
    convert hshift using 1
    refine List.map_congr_left fun extent hmem ↦ ?_
    obtain ⟨haligned, hlength⟩ := hpackets extent hmem
    obtain ⟨-, hnonempty, hbound⟩ := hsent.tiles.mem_bounds hmem
    simp only [extentOf, Function.comp_apply]
    refine Prod.ext ?_ ?_ <;> dsimp only <;> omega

end Range

/-! ### The contract -/

/-- The offset and the size are ones for which the command puts out what was asked for: the library
refuses the size it sees, or nothing is cut off from either of them. -/
def KeptWhole (offset size : UInt32) : Prop :=
  size.toNat % 2 ^ 16 = 0 ∨ keyRotationFlashAreaSize < size.toNat % 2 ^ 16 ∨
    size.toNat < 2 ^ 16 ∧ offset.toNat + lastPacketOffset size.toNat < 2 ^ 16

/-- Every run with these parameters puts out what was asked for, or nothing. -/
theorem RecordReadEnd.outputsRead {params : RecordParams} {offset size : UInt32}
    (hoffset : params.offset = some offset) (hsize : params.size = some size)
    (hkept : KeptWhole offset size) {result : Except Fault ℤ} {history : RecordHistory}
    (hend : RecordReadEnd params result history) : OutputsRead offset size result history := by
  have harea : keyRotationFlashAreaSize = 2048 := rfl
  cases hend with
  | silent hquiet =>
    exact ⟨⟨_, rfl⟩, fun hsome ↦ absurd hquiet hsome, by rw [hquiet]; exact Nat.zero_le _,
      fun hsome ↦ absurd hquiet hsome⟩
  | @output otherOffset otherSize readHalf reserved initial value _ before after read hsameOffset
      hsameSize hhost hquiet hpos hlimit hread hsuccess houtput =>
    obtain rfl := Option.some.inj (hoffset.symm.trans hsameOffset)
    obtain rfl := Option.some.inj (hsize.symm.trans hsameSize)
    unfold KeptWhole at hkept
    obtain ⟨hwhole, hfits⟩ : size.toNat < 2 ^ 16 ∧
        offset.toNat + lastPacketOffset size.toNat < 2 ^ 16 := by omega
    have hreadSize : (libraryRequest offset size readHalf reserved).readSize = size.toNat :=
      Nat.mod_eq_of_lt hwhole
    cases hread with
    | stopped _ _ _ _ _ _ hfailed => exact absurd hsuccess hfailed
    | complete extents hsent _ hlength =>
      rw [hreadSize] at hsent hlength
      obtain ⟨hstatus, hemitted⟩ := houtput.inside (by omega)
      have hall : load (store initial 0 (deliveredBytes read)) 0 size.toNat =
          deliveredBytes read := by
        rw [load_store initial (by omega), List.drop_zero, ← hlength, List.take_length]
      have hout : emitted (before ++ read.map (embedExchange .hostcmdExec) ++ after) =
          deliveredBytes read := by
        rw [emitted_append, emitted_append, hquiet, emitted_embed, hemitted]
        exact hall
      have hexchanges := hostHistory_around hhost houtput.host read
      refine ⟨hstatus, fun _ ↦ ?_, ?_, fun _ ↦ ?_⟩
      · simp only [hout, hexchanges, List.prefix_rfl]
      · rw [hout]
        omega
      · rw [hexchanges]
        exact (readsRange_iff hwhole (by omega) hsent).mpr hfits

/-! ### Runs that put out data -/

theorem delivered_acceptingReply (call : HostCommand) : Delivered ⟨call, acceptingReply call⟩ :=
  ⟨rfl, List.length_replicate⟩

/-- Answers that do not hinder the command. -/
def unhinderedAnswer : (call : RecordCall) → RecordReply call
  | .libhothDevice => true
  | .hostcmdExec call => acceptingReply call
  | .fprintf _ => ()
  | .strerror => ""
  | .reportError _ _ => ()
  | .access _ => false
  | .scanf => none
  | .openFile _ => true
  | .unwritten => fun _ ↦ 0
  | .write _ => none
  | .close => true
  | .printf _ => ()
  | .printByte _ => ()

theorem not_hinders_unhinderedAnswer (call : RecordCall) :
    ¬Hinders ⟨call, unhinderedAnswer call⟩ := by
  cases call with
  | hostcmdExec call => exact not_not.mpr (delivered_acceptingReply call)
  | libhothDevice => exact Bool.false_ne_true.symm
  | access path => exact Bool.false_ne_true
  | openFile path => exact Bool.false_ne_true.symm
  | _ => exact not_false

/-- For other offsets and sizes there is a run that puts out something else. -/
theorem exists_not_outputsRead {offset size : UInt32} (hcut : ¬KeptWhole offset size)
    (outputFile : Option String) :
    ∃ result history, Runs recording
        (htoolKeyRotationRead ⟨some offset, some size, some "active", outputFile⟩ fun _ ↦ 0) []
        result history ∧
      ¬OutputsRead offset size result history := by
  have harea : keyRotationFlashAreaSize = 2048 := rfl
  obtain ⟨result, history, hrun⟩ := exists_runs_recordingAnswers unhinderedAnswer
    (htoolKeyRotationRead ⟨some offset, some size, some "active", outputFile⟩ fun _ ↦ 0) []
  refine ⟨result, history, hrun.recording_of_answers, fun houtputs ↦ ?_⟩
  have hanswers := hrun.eq_answer (by simp)
  unfold KeptWhole at hcut
  have hend := htoolKeyRotationRead_ensures _ _ _ _ hrun.recording_of_answers
  generalize hparams : RecordParams.mk (some offset) (some size) (some "active") outputFile = params
    at hend
  cases hend with
  | silent hquiet hwithheld =>
    subst hparams
    rcases hwithheld with hnone | hnone | hnone | ⟨⟨call, reply⟩, hmem, hhinders⟩ |
      ⟨other, hother, hrefused⟩
    · exact absurd hnone (Option.some_ne_none _)
    · exact absurd hnone (Option.some_ne_none _)
    · exact absurd hnone (Option.some_ne_none _)
    · obtain rfl : reply = unhinderedAnswer call := hanswers _ hmem
      exact not_hinders_unhinderedAnswer call hhinders
    · obtain rfl := Option.some.inj hother
      omega
  | @output otherOffset otherSize readHalf reserved initial value _ before after read hoffset hsize
      hhost hquiet hpos hlimit hread hsuccess houtput =>
    subst hparams
    obtain rfl := Option.some.inj hoffset
    obtain rfl := Option.some.inj hsize
    obtain ⟨status, hstatus⟩ := houtputs.inside
    have hsmall : size.toNat ≤ keyRotationFlashAreaSize := by
      by_contra hlarge
      obtain ⟨fault, hfault⟩ := houtput.beyond (not_le.mp hlarge)
      rw [hstatus] at hfault
      exact absurd hfault (by simp)
    obtain ⟨-, hemitted⟩ := houtput.inside hsmall
    have hsome : emitted (before ++ read.map (embedExchange .hostcmdExec) ++ after) ≠ [] := by
      intro hnone
      have hlength := congrArg List.length hnone
      rw [emitted_append, hemitted, List.length_append, length_load, List.length_nil] at hlength
      omega
    have hrange := houtputs.range hsome
    rw [hostHistory_around hhost houtput.host] at hrange
    cases hread with
    | stopped _ _ _ _ _ _ hfailed => exact absurd hsuccess hfailed
    | complete extents hsent _ _ =>
      have hreadSize : (libraryRequest offset size readHalf reserved).readSize = size.toNat :=
        Nat.mod_eq_of_lt (by omega)
      rw [hreadSize] at hsent
      have hfits := (readsRange_iff (by omega) (by omega) hsent).mp hrange
      omega

/-- For every 32-bit offset and size: every run of the command puts out what was asked for, or
nothing, exactly when the library refuses the size it sees or nothing is cut off. -/
theorem outputsRead_iff (offset size : UInt32) :
    (∀ (params : RecordParams) (reserved : ℕ → ℕ) (result : Except Fault ℤ)
      (history : RecordHistory), params.offset = some offset → params.size = some size →
      Runs recording (htoolKeyRotationRead params reserved) [] result history →
      OutputsRead offset size result history) ↔ KeptWhole offset size := by
  constructor
  · intro houtputs
    by_contra hcut
    obtain ⟨result, history, hrun, hbroken⟩ := exists_not_outputsRead hcut none
    exact hbroken (houtputs _ _ result history rfl rfl hrun)
  · intro hkept params reserved result history hoffset hsize hrun
    exact (htoolKeyRotationRead_ensures params reserved result history hrun).outputsRead hoffset
      hsize hkept

/-- The library reads one byte of 65537, and the command writes 65537. -/
theorem not_outputsRead_large :
    ∃ result history, Runs recording
        (htoolKeyRotationRead ⟨some 0, some 65537, some "active", some "record"⟩ fun _ ↦ 0) []
        result history ∧
      ¬OutputsRead 0 65537 result history :=
  exists_not_outputsRead (by
    unfold KeptWhole
    decide) (some "record")

end Libhoth.Examples.KeyRotationRecord
