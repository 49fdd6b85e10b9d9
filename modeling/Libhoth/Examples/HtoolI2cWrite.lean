import Libhoth.Examples.HtoolI2c
import Libhoth.Foundation.HexText
import Libhoth.Foundation.TokenText

/-!
# Writing to the I2C bus with the tool

`i2c_write` of `htool_i2c.c`. The bytes to write are the tokens of a text, which the tool stores one
after another in an array of 256 bytes, behind the offset if one was given. Its loop ends when there
is no token left or no room left, and the tool does not tell the two apart.

`SendsTokens` is what a run owes its user: it sends the bytes of all tokens, or it sends nothing and
fails. `collectTokens_eq` says what the loop stores, and `sendsAllTokens_iff` for which parameters
every run is as it should be: all but those whose text is `Truncated`.
-/

set_option autoImplicit false
set_option relaxedAutoImplicit false

namespace Libhoth.Examples.HtoolI2cWrite

open Foundation.CellMemory Foundation.CheckedAccess Foundation.InteractingProgram
open Foundation.HexText Foundation.NumberText Foundation.TokenText
open Protocol.Status Protocol.HostCommand Protocol.HostCommandProgram Protocol.I2c HtoolI2c

/-! ### The program -/

/-- `UINT32_MAX`, which stands for no offset. -/
def uint32Max : UInt32 := 0xFFFFFFFF

/-- The parameters of the command, each as its lookup returns it; the text may be missing. -/
structure I2cWriteParams where
  bus : Option UInt32
  frequency : Option UInt32
  address : Option UInt32
  offset : Option UInt32
  noStop : Option Bool
  byteStream : Option (Option (List UInt8))

/-- The separator of the tokens. -/
def isBlank (char : UInt8) : Bool :=
  char = 0x20

/-- The byte of a token: its whole text is a number as `strtoul` reads it, of at most 255. -/
def tokenByte (tk : List UInt8) : Option UInt8 :=
  let parsed := strtoulLiteral tk
  if parsed.2 = tk ∨ parsed.1 > 255 ∨ parsed.2 ≠ [] then none
  else some (UInt8.ofNat parsed.1)

/-- The loop over the tokens: the argument bytes and their number, or `none` for an invalid
token. -/
def collectTokens (argBytes : ℕ → UInt8) (idx : ℕ) (text : List UInt8) :
    Except Fault (Option ((ℕ → UInt8) × ℕ)) :=
  match _ : takeToken isBlank text with
  | none => .ok (some (argBytes, idx))
  | some (tk, rest) =>
    if idx < i2cTransferDataMaxSizeBytes then
      match tokenByte tk with
      | none => .ok none
      | some byte => do
        let argBytes ← storeWithin i2cTransferDataMaxSizeBytes argBytes idx [byte]
        collectTokens argBytes (idx + 1) rest
    else .ok (some (argBytes, idx))
termination_by text.length
decreasing_by exact length_of_takeToken ‹_›

/-- The argument bytes of a write, in an array with given contents. -/
def argumentBytes (offset : UInt32) (byteStream : List UInt8) (argBytes : ℕ → UInt8) :
    Except Fault (Option ((ℕ → UInt8) × ℕ)) :=
  if offset ≠ uint32Max then do
    let argBytes ← storeWithin i2cTransferDataMaxSizeBytes argBytes 0 [(offset &&& 0xFF).toUInt8]
    collectTokens argBytes 1 byteStream
  else collectTokens argBytes 0 byteStream

/-- The request of a write. -/
def writeRequest (bus frequency address : UInt32) (noStop : Bool) (argBytes : ℕ → UInt8)
    (idx : ℕ) : HothRequestI2cTransfer where
  busNumber := (bus &&& 0xFF).toUInt8
  speedKhz := (frequency &&& 0xFFFF).toUInt16
  devAddress := (address &&& 0x7F).toUInt8
  flags := (if noStop then i2cBitsNoStop else 0) ||| i2cBitsWrite
  sizeWrite := UInt16.ofNat idx
  sizeRead := 0
  argBytes := argBytes

/-- A byte printed with `%02x`. -/
def hexDigits (value : UInt8) : String :=
  String.ofList ((hexText [value]).map fun char ↦ Char.ofNat char.toNat)

/-- The line that reports a write, or a failed assertion. -/
def writeReport (offset : UInt32) (req : HothRequestI2cTransfer) : Except Fault String :=
  let device := hexDigits req.devAddress
  if offset ≠ uint32Max then
    if req.sizeWrite ≥ 1 then
      let size := req.sizeWrite.toNat - 1
      let place := hexDigits (offset &&& 0xFF).toUInt8
      .ok s!"Wrote {size} bytes to I2C device {req.busNumber}:0x{device} at offset: 0x{place}\n"
    else .error .assertionFailed
  else .ok s!"Wrote {req.sizeWrite} bytes to I2C device {req.busNumber}:0x{device}\n"

/-- The part of `i2c_write` behind the host command. -/
def reportWrite (offset : UInt32) (req : HothRequestI2cTransfer) :
    Except LibhothError HothResponseI2cTransfer → I2cProgram (Except Fault ℤ)
  | .error err => do
    let _ ← request (I2cCall.reportError "i2c_transfer" err)
    return .ok (-1)
  | .ok response =>
    match writeReport offset req with
    | .error fault => return .error fault
    | .ok line => do
      let _ ← request (I2cCall.printf line)
      if response.busResponse ≠ 0 then
        let _ ← request (I2cCall.fprintf
          s!"HOTH_I2C_TRANSFER [write] bus error: {response.busResponse}\n")
        return .ok 0
      else return .ok 0

/-- The part of `i2c_write` behind the loop over the tokens. -/
def sendTokens (offset : UInt32) (req : (ℕ → UInt8) → ℕ → HothRequestI2cTransfer) :
    Except Fault (Option ((ℕ → UInt8) × ℕ)) → I2cProgram (Except Fault ℤ)
  | .error fault => return .error fault
  | .ok none => do
    let _ ← request (I2cCall.fprintf "Invalid input data.\n")
    return .ok (-1)
  | .ok (some (argBytes, idx)) => do
    reportWrite offset (req argBytes idx) (← onDevice (libhothI2cTransfer (req argBytes idx)))

/-- `i2c_write`. -/
def i2cWrite (params : I2cWriteParams) : I2cProgram (Except Fault ℤ) :=
  match params.bus, params.frequency, params.address, params.offset, params.noStop,
    params.byteStream with
  | some bus, some frequency, some address, some offset, some noStop, some (some byteStream) => do
    let unwritten ← request I2cCall.unwritten
    sendTokens offset (writeRequest bus frequency address noStop)
      (argumentBytes offset byteStream unwritten)
  | _, _, _, _, _, _ => return .ok (-1)

/-! ### What the command owes its user -/

/-- The byte of the offset, if one was given. -/
def offsetBytes (offset : UInt32) : List UInt8 :=
  if offset ≠ uint32Max then [(offset &&& 0xFF).toUInt8] else []

/-- The command sends nothing and fails, or it sends one transfer, which writes the byte of the
offset and the bytes of all tokens in order. -/
structure SendsTokens (params : I2cWriteParams) (result : Except Fault ℤ) (history : I2cHistory) :
    Prop where
  inside : ∃ status, result = .ok status
  sent : (hostHistory history = [] ∧ result = .ok (-1)) ∨
    ∃ offset byteStream call reply bytes, params.offset = some offset ∧
      params.byteStream = some (some byteStream) ∧ hostHistory history = [⟨call, reply⟩] ∧
      call.command = hothCmdBoardSpecificBase + 0x0046 ∧
      (tokens isBlank byteStream).map tokenByte = bytes.map some ∧
      writtenBytes call.payload = offsetBytes offset ++ bytes

/-- Every run of the command is as it should be. -/
def SendsAllTokens (params : I2cWriteParams) : Prop :=
  ∀ result history, Runs recording (i2cWrite params) [] result history →
    SendsTokens params result history

/-- The tokens for which there is room behind the offset. -/
def reachedTokens (offset : UInt32) (byteStream : List UInt8) : List (List UInt8) :=
  (tokens isBlank byteStream).take (i2cTransferDataMaxSizeBytes - (offsetBytes offset).length)

/-- There are more tokens than there is room for, and none of those for which there is room is
invalid. -/
structure Truncated (offset : UInt32) (byteStream : List UInt8) : Prop where
  more : i2cTransferDataMaxSizeBytes <
    (offsetBytes offset).length + (tokens isBlank byteStream).length
  valid : ∀ tk ∈ reachedTokens offset byteStream, (tokenByte tk).isSome

/-- All parameters were found, with an offset and a text. -/
inductive I2cWriteParams.Gives : I2cWriteParams → UInt32 → List UInt8 → Prop
  | intro (bus frequency address offset : UInt32) (noStop : Bool) (byteStream : List UInt8) :
    Gives ⟨some bus, some frequency, some address, some offset, some noStop,
      some (some byteStream)⟩ offset byteStream

/-! ### The argument bytes -/

/-- All of some texts have a value exactly when the list of the values exists. -/
theorem mapM_eq_some_iff {α β : Type} {value : α → Option β} {items : List α} {values : List β} :
    items.mapM value = some values ↔ items.map value = values.map some := by
  induction items generalizing values with
  | nil =>
    rw [List.mapM_nil, List.map_nil, eq_comm (a := ([] : List (Option β))), List.map_eq_nil_iff]
    exact Option.some_inj.trans eq_comm
  | cons item items ih =>
    rw [List.mapM_cons, List.map_cons]
    cases hitem : value item with
    | none => cases values <;> simp
    | some first =>
      cases hitems : items.mapM value with
      | none => cases values <;> simp [← ih, hitems]
      | some found => cases values <;> simp [← ih, hitems]

/-- The list of the values exists exactly when every text has one. -/
theorem exists_mapM_iff {α β : Type} {value : α → Option β} {items : List α} :
    (∃ values, items.mapM value = some values) ↔ ∀ item ∈ items, (value item).isSome := by
  constructor
  · rintro ⟨values, hvalues⟩ item hitem
    have hmem := List.mem_map_of_mem (f := value) hitem
    rw [mapM_eq_some_iff.mp hvalues] at hmem
    obtain ⟨_, -, hsome⟩ := List.mem_map.mp hmem
    rw [← hsome]
    rfl
  · intro hall
    induction items with
    | nil => exact ⟨[], rfl⟩
    | cons item items ih =>
      obtain ⟨first, hfirst⟩ := Option.isSome_iff_exists.mp (hall item List.mem_cons_self)
      obtain ⟨rest, hrest⟩ := ih fun other hother ↦ hall other (List.mem_cons_of_mem _ hother)
      refine ⟨first :: rest, ?_⟩
      rw [List.mapM_cons, hfirst, hrest]
      rfl

/-- The loop stores the bytes of the tokens for which there is room, unless one of them is
invalid. -/
theorem collectTokens_eq {argBytes : ℕ → UInt8} {idx : ℕ} {text : List UInt8}
    (hidx : idx ≤ i2cTransferDataMaxSizeBytes) :
    collectTokens argBytes idx text =
      .ok ((((tokens isBlank text).take (i2cTransferDataMaxSizeBytes - idx)).mapM tokenByte).map
        fun bytes ↦ (store argBytes idx bytes, idx + bytes.length)) := by
  fun_induction collectTokens argBytes idx text with
  | case1 argBytes idx text hnone =>
    rw [tokens_of_takeToken_none hnone, List.take_nil, List.mapM_nil]
    exact congrArg _ (congrArg some (Prod.ext (store_nil _ _).symm rfl))
  | case2 argBytes idx text tk rest htake hroom hinvalid =>
    rw [tokens_of_takeToken htake, List.take_cons (Nat.sub_pos_of_lt hroom), List.mapM_cons,
      hinvalid]
    rfl
  | case3 argBytes idx text tk rest htake hroom byte hbyte ih =>
    have hfits : idx + [byte].length ≤ i2cTransferDataMaxSizeBytes := hroom
    rw [tokens_of_takeToken htake, List.take_cons (Nat.sub_pos_of_lt hroom), List.mapM_cons,
      hbyte, storeWithin_of_le _ hfits, ok_bind, ih _ hroom, Nat.sub_sub]
    cases ((tokens isBlank rest).take (i2cTransferDataMaxSizeBytes - (idx + 1))).mapM tokenByte with
    | none => rfl
    | some bytes =>
      have hstores := store_store_append argBytes idx [byte] bytes
      refine congrArg _ (congrArg some (Prod.ext hstores ?_))
      change idx + 1 + bytes.length = idx + (bytes.length + 1)
      omega
  | case4 argBytes idx text tk rest htake hfull =>
    rw [show i2cTransferDataMaxSizeBytes - idx = 0 by omega, List.take_zero, List.mapM_nil]
    exact congrArg _ (congrArg some (Prod.ext (store_nil _ _).symm rfl))

/-- What is stored: the byte of the offset and those of the tokens for which there is room. -/
theorem argumentBytes_eq (offset : UInt32) (byteStream : List UInt8) (argBytes : ℕ → UInt8) :
    argumentBytes offset byteStream argBytes =
      .ok (((reachedTokens offset byteStream).mapM tokenByte).map fun bytes ↦
        (store argBytes 0 (offsetBytes offset ++ bytes),
          (offsetBytes offset ++ bytes).length)) := by
  unfold argumentBytes reachedTokens offsetBytes
  split_ifs with hoffset
  · rw [storeWithin_of_le _ (show 0 + 1 ≤ i2cTransferDataMaxSizeBytes by decide), ok_bind,
      collectTokens_eq (by decide)]
    refine congrArg _ (congrArg (Option.map · _) (funext fun bytes ↦ Prod.ext ?_ ?_))
    · exact store_store_append argBytes 0 [(offset &&& 0xFF).toUInt8] bytes
    · exact Nat.add_comm _ _
  · rw [collectTokens_eq (Nat.zero_le _)]
    refine congrArg _ (congrArg (Option.map · _) (funext fun bytes ↦ Prod.ext rfl ?_))
    exact Nat.zero_add _

/-! ### The runs of the command -/

section Runs

variable {offset : UInt32} {byteStream bytes : List UInt8}

theorem length_offsetBytes_le (offset : UInt32) : (offsetBytes offset).length ≤ 1 := by
  unfold offsetBytes
  split_ifs <;> simp

/-- The bytes of the tokens that are reached fit into the array. -/
theorem length_written_le (hbytes : (reachedTokens offset byteStream).mapM tokenByte = some bytes) :
    (offsetBytes offset ++ bytes).length ≤ i2cTransferDataMaxSizeBytes := by
  have hoffset := length_offsetBytes_le offset
  have hlength := congrArg List.length (mapM_eq_some_iff.mp hbytes)
  rw [List.length_map, List.length_map, reachedTokens, List.length_take] at hlength
  rw [List.length_append]
  rw [i2cTransferDataMaxSizeBytes] at hlength ⊢
  omega

/-- The size of a write is the number of its bytes. -/
theorem toNat_sizeWrite (hbytes : (reachedTokens offset byteStream).mapM tokenByte = some bytes) :
    (UInt16.ofNat (offsetBytes offset ++ bytes).length).toNat =
      (offsetBytes offset ++ bytes).length := by
  have hlength := length_written_le hbytes
  rw [UInt16.toNat_ofNat']
  exact Nat.mod_eq_of_lt (hlength.trans_lt (by decide))

/-- The assertion about the size of a write holds. -/
theorem exists_writeReport
    (hbytes : (reachedTokens offset byteStream).mapM tokenByte = some bytes)
    {req : HothRequestI2cTransfer}
    (hsize : req.sizeWrite = UInt16.ofNat (offsetBytes offset ++ bytes).length) :
    ∃ line, writeReport offset req = .ok line := by
  unfold writeReport
  dsimp only
  split_ifs with hoffset hpos
  · exact ⟨_, rfl⟩
  · refine absurd ?_ hpos
    have htoNat := toNat_sizeWrite hbytes
    rw [← hsize, offsetBytes, if_pos hoffset, List.singleton_append, List.length_cons] at htoNat
    rw [ge_iff_le, UInt16.le_iff_toNat_le, htoNat, UInt16.toNat_one]
    omega
  · exact ⟨_, rfl⟩

/-- Reporting a write asks the device nothing. -/
theorem reportWrite_ensures {req : HothRequestI2cTransfer}
    (hreport : ∃ line, writeReport offset req = .ok line)
    (response : Except LibhothError HothResponseI2cTransfer) (past : I2cHistory) :
    Ensures recording (reportWrite offset req response) past fun result final ↦
      (∃ status, result = .ok status) ∧ hostHistory final = hostHistory past := by
  obtain ⟨line, hline⟩ := hreport
  cases response with
  | error err =>
    rw [reportWrite, ensures_bind, ensures_request]
    rintro _ _ rfl
    exact (ensures_done _ _ _).mpr ⟨⟨_, rfl⟩, by rw [hostHistory_append]; exact List.append_nil _⟩
  | ok response =>
    rw [reportWrite, hline]
    dsimp only
    rw [ensures_bind, ensures_request]
    rintro _ _ rfl
    split_ifs
    · rw [ensures_bind, ensures_request]
      rintro _ _ rfl
      refine (ensures_done _ _ _).mpr ⟨⟨_, rfl⟩, ?_⟩
      rw [hostHistory_append, hostHistory_append, List.append_assoc]
      exact List.append_nil _
    · exact (ensures_done _ _ _).mpr
        ⟨⟨_, rfl⟩, by rw [hostHistory_append]; exact List.append_nil _⟩

/-- How a run with all parameters ends: an invalid token was reached and nothing was sent, or the
tokens that were reached were sent. -/
inductive WriteEnd (offset : UInt32) (byteStream : List UInt8) :
    Except Fault ℤ → I2cHistory → Prop
  | rejected {history : I2cHistory}
    (hinvalid : (reachedTokens offset byteStream).mapM tokenByte = none)
    (hhost : hostHistory history = []) : WriteEnd offset byteStream (.ok (-1)) history
  | sent {status : ℤ} {history : I2cHistory} {bytes : List UInt8} {call : HostCommand}
    {reply : HostReply call}
    (hbytes : (reachedTokens offset byteStream).mapM tokenByte = some bytes)
    (hhost : hostHistory history = [⟨call, reply⟩])
    (hcommand : call.command = hothCmdBoardSpecificBase + 0x0046)
    (hwritten : writtenBytes call.payload = offsetBytes offset ++ bytes) :
    WriteEnd offset byteStream (.ok status) history

/-- A transfer asks the device once. -/
theorem onDevice_transfer (req : HothRequestI2cTransfer) :
    onDevice (libhothI2cTransfer req) =
      request (I2cCall.hostcmdExec req.call) >>= fun reply ↦
        .done ((wholeReply reply).map fun payload ↦ ⟨payload.getD 0 0⟩) :=
  rfl

/-- With all its parameters the command sends what the loop stored. -/
theorem i2cWrite_eq (bus frequency address offset : UInt32) (noStop : Bool)
    (byteStream : List UInt8) :
    i2cWrite ⟨some bus, some frequency, some address, some offset, some noStop,
      some (some byteStream)⟩ =
      request I2cCall.unwritten >>= fun unwritten ↦
        sendTokens offset (writeRequest bus frequency address noStop)
          (argumentBytes offset byteStream unwritten) :=
  rfl

/-- Every run with all parameters ends in one of these ways. -/
theorem i2cWrite_ensures {params : I2cWriteParams} (hgives : params.Gives offset byteStream) :
    Ensures recording (i2cWrite params) [] (WriteEnd offset byteStream) := by
  obtain ⟨bus, frequency, address, offset, noStop, byteStream⟩ := hgives
  rw [i2cWrite_eq, ensures_bind, ensures_request]
  rintro unwritten _ rfl
  rw [argumentBytes_eq]
  cases hbytes : (reachedTokens offset byteStream).mapM tokenByte with
  | none =>
    rw [Option.map_none, sendTokens, ensures_bind, ensures_request]
    rintro _ _ rfl
    exact (ensures_done _ _ _).mpr (.rejected hbytes rfl)
  | some bytes =>
    have hsize := toNat_sizeWrite hbytes
    rw [Option.map_some, sendTokens, onDevice_transfer, ensures_bind, ensures_bind, ensures_request]
    rintro reply _ rfl
    rw [ensures_done]
    refine (reportWrite_ensures (exists_writeReport hbytes rfl) _ _).mono ?_
    rintro _ history ⟨⟨status, rfl⟩, hhost⟩
    refine .sent hbytes (show hostHistory history = [⟨_, reply⟩] from hhost) rfl ?_
    rw [writtenBytes_call _ (hsize.le.trans (length_written_le hbytes))]
    change load (store unwritten 0 _) 0 (UInt16.ofNat _).toNat = _
    rw [hsize, load_store _ (Nat.zero_add _).le, List.drop_zero, List.take_length]

/-- Without all its parameters the command does nothing and fails. -/
theorem gives_or_fails (params : I2cWriteParams) :
    (∃ offset byteStream, params.Gives offset byteStream) ∨ i2cWrite params = return .ok (-1) := by
  rcases params with ⟨_ | bus, _ | frequency, _ | address, _ | offset, _ | noStop,
    _ | _ | byteStream⟩
  all_goals first
    | exact .inl ⟨offset, byteStream, .intro bus frequency address offset noStop byteStream⟩
    | exact .inr rfl

/-- A run of a text that is not truncated is as it should be. -/
theorem WriteEnd.sendsTokens {params : I2cWriteParams} {result : Except Fault ℤ}
    {history : I2cHistory} (hgives : params.Gives offset byteStream)
    (hend : WriteEnd offset byteStream result history) (hwhole : ¬Truncated offset byteStream) :
    SendsTokens params result history := by
  cases hend with
  | rejected hinvalid hhost => exact ⟨⟨_, rfl⟩, .inl ⟨hhost, rfl⟩⟩
  | @sent _ _ bytes call reply hbytes hhost hcommand hwritten =>
    have hroom : ¬i2cTransferDataMaxSizeBytes <
        (offsetBytes offset).length + (tokens isBlank byteStream).length :=
      fun hmore ↦ hwhole ⟨hmore, exists_mapM_iff.mp ⟨bytes, hbytes⟩⟩
    have hall : reachedTokens offset byteStream = tokens isBlank byteStream :=
      List.take_of_length_le (by omega)
    rw [hall, mapM_eq_some_iff] at hbytes
    cases hgives
    exact ⟨⟨_, rfl⟩, .inr ⟨_, _, call, reply, bytes, rfl, rfl, hhost, hcommand, hbytes, hwritten⟩⟩

/-- A run of a truncated text is not as it should be. -/
theorem Truncated.not_sendsTokens {params : I2cWriteParams} {result : Except Fault ℤ}
    {history : I2cHistory} (hgives : params.Gives offset byteStream)
    (htruncated : Truncated offset byteStream) (hend : WriteEnd offset byteStream result history) :
    ¬SendsTokens params result history := by
  rintro ⟨-, hsent⟩
  cases hend with
  | rejected hinvalid hhost =>
    obtain ⟨bytes, hbytes⟩ := exists_mapM_iff.mpr htruncated.valid
    exact absurd (hbytes.symm.trans hinvalid) (Option.some_ne_none _)
  | @sent _ _ bytes call reply hbytes hhost hcommand hwritten =>
    rcases hsent with ⟨hnone, -⟩ | ⟨offset', byteStream', call', reply', bytes', hoffset, hstream,
      hhost', -, hall, hwritten'⟩
    · exact absurd (hhost.symm.trans hnone) (List.cons_ne_nil _ _)
    · obtain rfl : call = call' :=
        congrArg Sigma.fst (List.cons.inj (hhost.symm.trans hhost')).1
      cases hgives
      obtain rfl := Option.some.inj hoffset
      obtain rfl := Option.some.inj (Option.some.inj hstream)
      obtain rfl := List.append_cancel_left (hwritten.symm.trans hwritten')
      have hsent := congrArg List.length (mapM_eq_some_iff.mp hbytes)
      have htokens := congrArg List.length hall
      have hmore := htruncated.more
      have hoffset := length_offsetBytes_le offset
      rw [reachedTokens] at hsent
      simp only [List.length_map, List.length_take] at hsent htokens
      rw [i2cTransferDataMaxSizeBytes] at hsent hmore
      omega

/-- The command has a run. -/
theorem exists_runs_i2cWrite (params : I2cWriteParams) :
    ∃ result history, Runs recording (i2cWrite params) [] result history := by
  obtain ⟨result, history, hrun⟩ :=
    exists_runs_recordingAnswers acceptingAnswer (i2cWrite params) []
  exact ⟨result, history, hrun.recording_of_answers⟩

end Runs

/-- Every run sends all tokens, or nothing, exactly for the parameters whose text is not
truncated. -/
theorem sendsAllTokens_iff (params : I2cWriteParams) :
    SendsAllTokens params ↔
      ∀ offset byteStream, params.Gives offset byteStream → ¬Truncated offset byteStream := by
  constructor
  · intro hsends offset byteStream hgives htruncated
    obtain ⟨result, history, hrun⟩ := exists_runs_i2cWrite params
    exact htruncated.not_sendsTokens hgives (i2cWrite_ensures hgives result history hrun)
      (hsends result history hrun)
  · intro hwhole result history hrun
    rcases gives_or_fails params with ⟨offset, byteStream, hgives⟩ | hfails
    · exact (i2cWrite_ensures hgives result history hrun).sendsTokens hgives
        (hwhole offset byteStream hgives)
    · rw [hfails] at hrun
      obtain ⟨rfl, rfl⟩ := hrun
      exact ⟨⟨_, rfl⟩, .inl ⟨rfl, rfl⟩⟩

/-- A text of a number of zeros, each with a blank behind it. -/
def zeros (count : ℕ) : List UInt8 :=
  (List.replicate count [0x30, 0x20]).flatten

/-- Without an offset the text of 257 zeros is truncated. -/
theorem truncated_zeros : Truncated uint32Max (zeros 257) := by
  have htokens : tokens isBlank (zeros 257) = List.replicate 257 [0x30] :=
    tokens_replicate (List.cons_ne_nil 0x30 [])
      (List.forall_mem_singleton.mpr (show isBlank 0x30 = false by decide)) rfl 257
  refine ⟨?_, fun tk htk ↦ ?_⟩
  · rw [htokens, List.length_replicate]
    decide
  · rw [reachedTokens, htokens] at htk
    rw [List.eq_of_mem_replicate (List.mem_of_mem_take htk)]
    decide

/-- Of the text of 257 zeros the last token is not sent. -/
theorem not_sendsAllTokens_zeros : ¬SendsAllTokens
    ⟨some 0, some 100, some 0x50, some uint32Max, some false, some (some (zeros 257))⟩ := by
  intro hsends
  obtain ⟨result, history, hrun⟩ := exists_runs_i2cWrite _
  exact truncated_zeros.not_sendsTokens (.intro _ _ _ _ _ _)
    (i2cWrite_ensures (.intro _ _ _ _ _ _) result history hrun) (hsends result history hrun)

end Libhoth.Examples.HtoolI2cWrite
