import Libhoth.Protocol.PayloadUpdateRead

/-!
# Reading the payload with the tool

`htool_payload_read` of `htool_payload_update.c` checks its parameters, opens the file, and hands
the 32-bit start and length to `libhoth_payload_update_read_chunk`. `htoolPayloadRead_ensures` says
that a run of the tool asks nothing of the device, or is one read of the library and succeeds
exactly when that does; `htoolPayloadRead_readsRange` is what the tool reads when its last chunk
begins below 2^32.
-/

set_option autoImplicit false
set_option relaxedAutoImplicit false

namespace Libhoth.Examples.HtoolPayloadRead

open Foundation.InteractingProgram Protocol.Status Protocol.PayloadUpdateRead

/-! ### The program -/

/-- What the command asks of the world around it; one of its calls is a call of the library. -/
inductive PayloadCall
  | libhothDevice
  | library (call : ReadCall)
  | fprintf (text : String)
  | openFile (path : String)
  | strerror
  | close
  | reportError (cmd : String) (err : LibhothError)

/-- The replies: whether there is a device, the reply to the library, the descriptor of the file
that was opened, and the text of the last error. -/
abbrev PayloadReply : PayloadCall → Type
  | .libhothDevice => Bool
  | .library call => ReadReply call
  | .fprintf _ => Unit
  | .openFile _ => Option ℕ
  | .strerror => String
  | .close => Unit
  | .reportError _ _ => Unit

/-- Programs of the command. -/
abbrev PayloadProgram := Interaction PayloadReply

/-- The history of a run of the command. -/
abbrev PayloadHistory := List (Exchange PayloadReply)

/-- A program of the library as part of the command. -/
def onLibrary {α : Type} (program : ReadProgram α) : PayloadProgram α :=
  interpret (fun call ↦ request (PayloadCall.library call)) program

/-- The parameters of the command, each as its lookup returns it. -/
structure PayloadReadParams where
  destFile : Option String
  start : Option UInt32
  length : Option UInt32

/-- The part of the command that reads into an open file. -/
def readInto (fd : ℕ) (start length : UInt32) : PayloadProgram ℤ := do
  let err ← onLibrary (libhothPayloadUpdateReadChunk fd length.toNat start.toNat)
  let _ ← request PayloadCall.close
  if err ≠ hothSuccess then
    let _ ← request (PayloadCall.reportError "payload_update read" err)
    return -1
  else return 0

/-- The part of the command behind the checks of its parameters. -/
def openAndRead (destFile : String) (start length : UInt32) : PayloadProgram ℤ := do
  match ← request (PayloadCall.openFile destFile) with
  | none =>
    let reason ← request PayloadCall.strerror
    let _ ← request (PayloadCall.fprintf s!"Error opening file {destFile}: {reason}\n")
    return -1
  | some fd => readInto fd start length

/-- `htool_payload_read`. -/
def htoolPayloadRead (params : PayloadReadParams) : PayloadProgram ℤ := do
  if ← request PayloadCall.libhothDevice then
    match params.destFile, params.start, params.length with
    | some destFile, some start, some length =>
      if destFile = "" then
        let _ ← request (PayloadCall.fprintf "dest-file cannot be empty\n")
        return -1
      else if length = 0 then
        let _ ← request
          (PayloadCall.fprintf "Must set --length (-n) to something non-zero\n")
        return -1
      else openAndRead destFile start length
    | _, _, _ => return -1
  else return -1

/-! ### The read of a run -/

/-- The exchange of the library that an exchange is. -/
def libraryExchange : Exchange PayloadReply → Option (Exchange ReadReply)
  | ⟨.library call, reply⟩ => some ⟨call, reply⟩
  | _ => none

/-- The exchanges of the library. -/
def libraryHistory (history : PayloadHistory) : ReadHistory :=
  history.filterMap libraryExchange

/-- How a run of the command ends: without a read, or with one of the start and the length that were
given. -/
inductive PayloadReadEnd (params : PayloadReadParams) : ℤ → PayloadHistory → Prop
  | unread {history : PayloadHistory} (hquiet : libraryHistory history = []) :
    PayloadReadEnd params (-1) history
  | read {result : ℤ} {history : PayloadHistory} {start length : UInt32} {fd : ℕ}
    {err : LibhothError} (hstart : params.start = some start)
    (hlength : params.length = some length)
    (hsome : length ≠ 0)
    (hrun : Runs recording (libhothPayloadUpdateReadChunk fd length.toNat start.toNat) [] err
      (libraryHistory history))
    (hresult : result = if err = hothSuccess then 0 else -1) :
    PayloadReadEnd params result history

@[simp] theorem libraryHistory_append (first second : PayloadHistory) :
    libraryHistory (first ++ second) = libraryHistory first ++ libraryHistory second :=
  List.filterMap_append

@[simp] theorem libraryHistory_embed (read : ReadHistory) :
    libraryHistory (read.map (embedExchange .library)) = read := by
  induction read with
  | nil => rfl
  | cons exchange rest ih =>
    rw [List.map_cons, libraryHistory, List.filterMap_cons, ← libraryHistory, ih]
    rfl

/-- Reading into an open file. -/
theorem readInto_ensures {params : PayloadReadParams} {start length : UInt32}
    (hstart : params.start = some start) (hlength : params.length = some length)
    (hsome : length ≠ 0) (fd : ℕ) {past : PayloadHistory} (hpast : libraryHistory past = []) :
    Ensures recording (readInto fd start length) past (PayloadReadEnd params) := by
  rw [readInto, ensures_bind]
  intro err middle hinner
  obtain ⟨read, hread, rfl⟩ := (runs_interpret_embed PayloadCall.library _ _ _ _).mp hinner
  rw [ensures_bind, ensures_request]
  rintro _ _ rfl
  have hlibrary : ∀ after, libraryHistory after = [] →
      libraryHistory (past ++ read.map (embedExchange .library) ++ [⟨.close, ()⟩] ++ after) =
        read := by
    intro after hafter
    rw [libraryHistory_append, libraryHistory_append, libraryHistory_append, hpast,
      libraryHistory_embed, hafter, List.append_nil, List.nil_append]
    exact List.append_nil read
  by_cases herr : err = hothSuccess
  · rw [if_neg (not_not.mpr herr)]
    have hfinal := hlibrary [] rfl
    rw [List.append_nil] at hfinal
    exact (ensures_done _ _ _).mpr
      (.read hstart hlength hsome (hfinal.symm ▸ hread) (if_pos herr).symm)
  · rw [if_pos herr, ensures_bind, ensures_request]
    rintro _ _ rfl
    exact (ensures_done _ _ _).mpr
      (.read hstart hlength hsome
        ((hlibrary [⟨.reportError "payload_update read" err, ()⟩] rfl).symm ▸ hread)
        (if_neg herr).symm)

/-- Every run of the command ends in one of these ways. -/
theorem htoolPayloadRead_ensures (params : PayloadReadParams) :
    Ensures recording (htoolPayloadRead params) [] (PayloadReadEnd params) := by
  rw [htoolPayloadRead, ensures_bind, ensures_request]
  rintro found _ rfl
  cases found with
  | false =>
    rw [if_neg (by decide)]
    exact (ensures_done _ _ _).mpr (.unread rfl)
  | true =>
    rw [if_pos rfl]
    obtain ⟨destFile, start, length⟩ := params
    cases destFile with
    | none => exact (ensures_done _ _ _).mpr (.unread rfl)
    | some destFile =>
    cases start with
    | none => exact (ensures_done _ _ _).mpr (.unread rfl)
    | some start =>
    cases length with
    | none => exact (ensures_done _ _ _).mpr (.unread rfl)
    | some length =>
    dsimp only
    split_ifs with hname hzero
    · rw [ensures_bind, ensures_request]
      rintro _ _ rfl
      exact (ensures_done _ _ _).mpr (.unread rfl)
    · rw [ensures_bind, ensures_request]
      rintro _ _ rfl
      exact (ensures_done _ _ _).mpr (.unread rfl)
    · rw [openAndRead, ensures_bind, ensures_request]
      rintro opened _ rfl
      cases opened with
      | none =>
        simp only [ensures_bind, ensures_request, recording_iff, pure_eq_done, ensures_done]
        rintro reason _ rfl _ _ rfl
        exact .unread rfl
      | some fd => exact readInto_ensures rfl rfl hzero fd rfl

/-- A run of the command reads the range that was given as it should, when the last chunk of the
range begins below 2^32. -/
theorem htoolPayloadRead_readsRange {params : PayloadReadParams} {start length : UInt32}
    (hstart : params.start = some start) (hlength : params.length = some length)
    (hbelow : LastChunkBelow start.toNat length.toNat) :
    Ensures recording (htoolPayloadRead params) [] fun result history ↦
      libraryHistory history = [] ∨ ∃ fd err,
        ReadsRange fd start.toNat length.toNat err (libraryHistory history) ∧
          (result = 0 ↔ err = hothSuccess) := by
  refine (htoolPayloadRead_ensures params).mono fun result history hend ↦ ?_
  cases hend with
  | unread hquiet => exact .inl hquiet
  | @read _ _ _ _ fd err hstart' hlength' hsome hrun hresult =>
    obtain rfl := Option.some.inj (hstart.symm.trans hstart')
    obtain rfl := Option.some.inj (hlength.symm.trans hlength')
    refine .inr ⟨fd, err,
      (libhothPayloadUpdateReadChunk_ensures _ _ _ _ _ hrun).readsRange hbelow, ?_⟩
    rw [hresult]
    split_ifs with herr
    · exact iff_of_true rfl herr
    · exact iff_of_false (by decide) herr

end Libhoth.Examples.HtoolPayloadRead
