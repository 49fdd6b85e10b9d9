import Libhoth.Foundation.RangeTiling
import Libhoth.Protocol.HostCommandProgram
import Libhoth.Protocol.ProvisioningChecksum

/-!
# Writing the provisioning log

`libhoth_provisioning_log_write` and `libhoth_provisioning_log_commit` of `provisioning.c`. The log
goes out in chunks of up to 1004 bytes whose offset and size are 16-bit fields, and the commit names
the size and the checksum of the whole log.

The offset is also the loop counter, and the rest is cut to 16 bits, so a log of 65536 bytes or more
is never finished: the counter stops at the size modulo 65536 and the loop sends empty chunks from
there on (`libhothProvisioningLogWrite_diverges`). `logWriteContract_iff` says that this is the only
way in which the two functions fail their contract.
-/

set_option autoImplicit false
set_option relaxedAutoImplicit false

namespace Libhoth.Protocol.ProvisioningLog

open Foundation.ByteString Foundation.InteractingProgram Foundation.RangeTiling
open Status HostCommand HostCommandProgram ProvisioningChecksum

/-! ### Requests -/

/-- `struct hoth_provisioning_log_request`. -/
structure HothProvisioningLogRequest where
  version : UInt8
  operation : UInt8
  reserved : UInt16
  offset : UInt16
  size : UInt16
  checksum : UInt32

/-- The bytes of a request. -/
def HothProvisioningLogRequest.encode (request : HothProvisioningLogRequest) : List UInt8 :=
  [request.version, request.operation] ++ (toLittleEndian 2 request.reserved.toNat ++
    (toLittleEndian 2 request.offset.toNat ++ (toLittleEndian 2 request.size.toNat ++
      toLittleEndian 4 request.checksum.toNat)))

/-- The request at the start of a payload. -/
def HothProvisioningLogRequest.decode (payload : List UInt8) : HothProvisioningLogRequest where
  version := UInt8.ofNat (wordAt payload 0 1)
  operation := UInt8.ofNat (wordAt payload 1 1)
  reserved := UInt16.ofNat (wordAt payload 2 2)
  offset := UInt16.ofNat (wordAt payload 4 2)
  size := UInt16.ofNat (wordAt payload 6 2)
  checksum := UInt32.ofNat (wordAt payload 8 4)

theorem HothProvisioningLogRequest.length_encode (request : HothProvisioningLogRequest) :
    request.encode.length = 12 := by
  simp [encode]

/-- A request is read back from the start of its payload. -/
theorem HothProvisioningLogRequest.decode_encode (request : HothProvisioningLogRequest)
    (data : List UInt8) : decode (request.encode ++ data) = request := by
  obtain ⟨version, operation, reserved, offset, size, checksum⟩ := request
  have hreserved : reserved.toNat < 256 ^ 2 := reserved.toNat_lt
  have hoffset : offset.toNat < 256 ^ 2 := offset.toNat_lt
  have hsize : size.toNat < 256 ^ 2 := size.toNat_lt
  have hchecksum : checksum.toNat < 256 ^ 4 := checksum.toNat_lt
  have hfront : [version, operation].length = 2 := rfl
  simp only [decode, encode, List.append_assoc, mk.injEq]
  refine ⟨?_, ?_, ?_, ?_, ?_, ?_⟩
  · simp [wordAt, slice, littleEndian]
  · simp [wordAt, slice, littleEndian]
  · rw [wordAt_between hfront hreserved, UInt16.ofNat_toNat]
  · rw [← List.append_assoc, wordAt_between (by simp) hoffset, UInt16.ofNat_toNat]
  · rw [← List.append_assoc, ← List.append_assoc, wordAt_between (by simp) hsize,
      UInt16.ofNat_toNat]
  · rw [← List.append_assoc, ← List.append_assoc, ← List.append_assoc,
      wordAt_between (by simp) hchecksum, UInt32.ofNat_toNat]

/-- `PROVISIONING_LOG_READ`. -/
def provisioningLogRead : UInt8 := 0

/-- `PROVISIONING_LOG_WRITE`. -/
def provisioningLogWrite : UInt8 := 1

/-- `PROVISIONING_LOG_COMMIT`. -/
def provisioningLogCommit : UInt8 := 2

/-- `HOTH_PRV_CMD_HOTH_PROVISIONING_LOG`. -/
def hothPrvCmdHothProvisioningLog : ℕ := 0x0040

/-- The host command of `exec_provisioning_log_cmd`. -/
def provisioningLogCmd (request : HothProvisioningLogRequest) (data : List UInt8)
    (respBufSize : ℕ) : HostCommand where
  command := hothCmdBoardSpecificBase + hothPrvCmdHothProvisioningLog
  version := 0
  payload := request.encode ++ data
  respBufSize := respBufSize
  sized := true

/-! ### Writing and committing -/

/-- `PROVISIONING_LOG_WRITE_CHUNK_MAX_SIZE`. -/
def provisioningLogWriteChunkMaxSize : UInt16 := 1004

/-- `chunk_size` of `libhoth_provisioning_log_write`. -/
def writeChunkSize (size : ℕ) (bytesWritten : UInt16) : UInt16 :=
  let chunkSize := UInt16.ofNat (size - bytesWritten.toNat)
  if chunkSize > provisioningLogWriteChunkMaxSize then provisioningLogWriteChunkMaxSize
  else chunkSize

/-- `write_req.req`. -/
def writeRequest (bytesWritten chunkSize : UInt16) : HothProvisioningLogRequest where
  version := 1
  operation := provisioningLogWrite
  reserved := 0
  offset := bytesWritten
  size := chunkSize
  checksum := 0

/-- One round of the loop of `libhoth_provisioning_log_write`. -/
def writeRound (data : List UInt8) (bytesWritten : UInt16) :
    HostProgram (UInt16 ⊕ LibhothError) :=
  if bytesWritten.toNat < data.length then do
    let chunkSize := writeChunkSize data.length bytesWritten
    match ← hostcmdExec (provisioningLogCmd (writeRequest bytesWritten chunkSize)
        (slice data bytesWritten.toNat chunkSize.toNat) 0) with
    | .failed err _ => return .inr err
    | .accepted _ _ => return .inl (bytesWritten + chunkSize)
  else return .inr hothSuccess

/-- `libhoth_provisioning_log_write`, cut off after a number of chunks. -/
def libhothProvisioningLogWrite (rounds : ℕ) (data : List UInt8) :
    HostProgram (Option LibhothError) :=
  whileRounds (writeRound data) rounds 0

/-- `commit_req`. -/
def commitRequest (data : List UInt8) : HothProvisioningLogRequest where
  version := 1
  operation := provisioningLogCommit
  reserved := 0
  offset := 0
  size := UInt16.ofNat data.length
  checksum := libhothProvisioningCrc32 0 data

/-- `libhoth_provisioning_log_commit`. -/
def libhothProvisioningLogCommit (data : List UInt8) : HostProgram LibhothError := do
  let reply ← hostcmdExec (provisioningLogCmd (commitRequest data) [] 0)
  return reply.error

/-! ### The contract -/

/-- A request for the provisioning log with the bytes behind it. -/
structure SentLogRequest where
  request : HothProvisioningLogRequest
  data : List UInt8

/-- The request for the provisioning log in an exchange. -/
def sentLogRequest (exchange : Exchange HostReply) : Option SentLogRequest :=
  if exchange.1.command = hothCmdBoardSpecificBase + hothPrvCmdHothProvisioningLog then
    some ⟨.decode exchange.1.payload, exchange.1.payload.drop 12⟩
  else none

/-- The requests for the provisioning log, in order. -/
def sentLogRequests (history : HostHistory) : List SentLogRequest :=
  history.filterMap sentLogRequest

/-- The range of the log that a request names. -/
def SentLogRequest.extent (sent : SentLogRequest) : Extent :=
  (sent.request.offset.toNat, sent.request.size.toNat)

/-- The requests write the log up to an offset: they tile that much of it, in order, and each one
carries the bytes of the range it names. -/
structure WritesLog (data : List UInt8) (stop : ℕ) (sent : List SentLogRequest) : Prop where
  tiles : Tiles 0 stop (sent.map SentLogRequest.extent)
  slices : ∀ write ∈ sent, write.request.operation = provisioningLogWrite ∧
    write.data = slice data write.request.offset.toNat write.request.size.toNat

/-- What writing and committing a log owe the caller. -/
structure LogWriteContract (data : List UInt8) : Prop where
  terminates : ∀ {σ : Type} (device : σ → (call : HostCommand) → HostReply call × σ) (start : σ),
    ∃ rounds, (play device (libhothProvisioningLogWrite rounds data) start).1.isSome
  writes : ∀ rounds history,
    Runs recording (libhothProvisioningLogWrite rounds data) [] (some hothSuccess) history →
    WritesLog data data.length (sentLogRequests history)
  commits : ∀ err history, Runs recording (libhothProvisioningLogCommit data) [] err history →
    ∃ commit, sentLogRequests history = [commit] ∧
      commit.request.operation = provisioningLogCommit ∧
      commit.request.size.toNat = data.length ∧
      commit.request.checksum = libhothProvisioningCrc32 0 data

@[simp] theorem sentLogRequests_append (first second : HostHistory) :
    sentLogRequests (first ++ second) = sentLogRequests first ++ sentLogRequests second :=
  List.filterMap_append

theorem sentLogRequests_provisioningLogCmd (request : HothProvisioningLogRequest)
    (data : List UInt8) (respBufSize : ℕ)
    (reply : HostReply (provisioningLogCmd request data respBufSize)) :
    sentLogRequests [⟨_, reply⟩] = [⟨request, data⟩] := by
  have hdata : (request.encode ++ data).drop 12 = data := List.drop_left' request.length_encode
  simp [sentLogRequests, sentLogRequest, provisioningLogCmd, request.decode_encode, hdata]

/-! ### The loop counter -/

theorem toNat_writeChunkSize (size : ℕ) (bytesWritten : UInt16) :
    (writeChunkSize size bytesWritten).toNat = min ((size - bytesWritten.toNat) % 65536) 1004 := by
  have hrest : (UInt16.ofNat (size - bytesWritten.toNat)).toNat =
      (size - bytesWritten.toNat) % 65536 := UInt16.toNat_ofNat'
  have hmax : provisioningLogWriteChunkMaxSize.toNat = 1004 := rfl
  simp only [writeChunkSize, gt_iff_lt, UInt16.lt_iff_toNat_lt, hrest, hmax]
  split_ifs <;> omega

/-- Below 65536 bytes a chunk is not empty and the counter moves on by it. -/
theorem toNat_add_writeChunkSize {size : ℕ} {bytesWritten : UInt16} (hsize : size < 65536)
    (hmore : bytesWritten.toNat < size) :
    0 < (writeChunkSize size bytesWritten).toNat ∧
      (bytesWritten + writeChunkSize size bytesWritten).toNat =
        bytesWritten.toNat + (writeChunkSize size bytesWritten).toNat ∧
      bytesWritten.toNat + (writeChunkSize size bytesWritten).toNat ≤ size := by
  have hchunk := toNat_writeChunkSize size bytesWritten
  have hrest : (size - bytesWritten.toNat) % 65536 = size - bytesWritten.toNat :=
    Nat.mod_eq_of_lt (by omega)
  rw [hrest] at hchunk
  rw [UInt16.toNat_add]
  refine ⟨by omega, Nat.mod_eq_of_lt ?_, by omega⟩
  omega

/-- The counter does not pass the size modulo 65536. -/
theorem toNat_add_writeChunkSize_le {size : ℕ} {bytesWritten : UInt16}
    (hbehind : bytesWritten.toNat ≤ size % 65536) :
    (bytesWritten + writeChunkSize size bytesWritten).toNat ≤ size % 65536 := by
  have hchunk := toNat_writeChunkSize size bytesWritten
  rw [UInt16.toNat_add]
  omega

/-! ### Small logs -/

section SmallLogs

variable {data : List UInt8}

/-- One more chunk extends what was written by it. -/
theorem WritesLog.snoc {bytesWritten : UInt16} {sent : List SentLogRequest}
    (hwrites : WritesLog data bytesWritten.toNat sent) {chunkSize : UInt16}
    (hpos : 0 < chunkSize.toNat) :
    WritesLog data (bytesWritten.toNat + chunkSize.toNat)
      (sent ++ [⟨writeRequest bytesWritten chunkSize,
        slice data bytesWritten.toNat chunkSize.toNat⟩]) where
  tiles := by
    rw [List.map_append]
    exact hwrites.tiles.snoc hpos
  slices := forall_mem_snoc hwrites.slices ⟨rfl, rfl⟩

/-- The write loop between two chunks. -/
def Writing (data : List UInt8) (bytesWritten : UInt16) (history : HostHistory) : Prop :=
  bytesWritten.toNat ≤ data.length ∧
    WritesLog data bytesWritten.toNat (sentLogRequests history)

/-- How the write loop ends: a success means that the log was written. -/
def WriteEnds (data : List UInt8) (err : LibhothError) (history : HostHistory) : Prop :=
  err = hothSuccess → WritesLog data data.length (sentLogRequests history)

/-- A round below 65536 bytes writes the next chunk or ends the loop. -/
theorem writeRound_ensures (hsize : data.length < 65536) {bytesWritten : UInt16}
    {history : HostHistory} (hwriting : Writing data bytesWritten history) :
    Ensures recording (writeRound data bytesWritten) history fun outcome final ↦
      match outcome with
      | .inl next => Writing data next final
      | .inr err => WriteEnds data err final := by
  obtain ⟨hinside, hwrites⟩ := hwriting
  unfold writeRound
  split_ifs with hmore
  · obtain ⟨hpos, hnext, hbound⟩ := toNat_add_writeChunkSize hsize hmore
    dsimp only [hostcmdExec]
    rw [ensures_bind, ensures_request]
    rintro reply _ rfl
    cases reply with
    | failed err nonzero =>
      exact (ensures_done _ _ _).mpr fun hsuccess ↦ absurd hsuccess nonzero
    | accepted payload fits =>
      refine (ensures_done _ _ _).mpr ⟨hnext ▸ hbound, ?_⟩
      rw [hnext, sentLogRequests_append, sentLogRequests_provisioningLogCmd]
      exact hwrites.snoc hpos
  · rw [pure_eq_done, ensures_done]
    have hdone : bytesWritten.toNat = data.length := by omega
    exact fun _ ↦ hdone ▸ hwrites

/-- A success on a log below 65536 bytes means that the log was written. -/
theorem libhothProvisioningLogWrite_ensures (hsize : data.length < 65536) (rounds : ℕ) :
    Ensures recording (libhothProvisioningLogWrite rounds data) [] fun outcome history ↦
      ∀ err, outcome = some err → WriteEnds data err history := by
  have hstart : Writing data 0 [] := ⟨Nat.zero_le _, rfl, by simp [sentLogRequests]⟩
  have hloop : Ensures recording (whileRounds (writeRound data) rounds 0) []
      fun outcome history ↦ (∀ err, outcome = some err → WriteEnds data err history) ∧
        (outcome = none → ∃ last, Writing data last history) :=
    whileRounds_ensures (Writing data)
      (fun _ _ hwriting ↦ (writeRound_ensures hsize hwriting).mono fun outcome _ hround ↦ by
        cases outcome <;> exact hround)
      rounds 0 [] hstart
  exact hloop.mono fun _ _ hend ↦ hend.1

/-- The environment in which anything may happen. -/
def unconstrained {σ : Type} : Environment HostReply σ :=
  fun _ _ _ _ ↦ True

/-- A log below 65536 bytes takes fewer chunks than it has bytes, whatever the replies. -/
theorem libhothProvisioningLogWrite_finishes (hsize : data.length < 65536) {σ : Type} (start : σ) :
    Ensures unconstrained (libhothProvisioningLogWrite (data.length + 1) data) start
      fun outcome _ ↦ outcome.isSome := by
  refine whileRounds_finishes (fun bytesWritten : UInt16 ↦ data.length - bytesWritten.toNat)
    (fun _ _ ↦ True) ?_ (data.length + 1) 0 start trivial (by simp)
  intro bytesWritten state _
  unfold writeRound
  split_ifs with hmore
  · obtain ⟨hpos, hnext, hbound⟩ := toNat_add_writeChunkSize hsize hmore
    dsimp only [hostcmdExec]
    rw [ensures_bind, ensures_request]
    intro reply middle _
    cases reply with
    | failed err nonzero =>
      exact (ensures_done _ _ _).mpr fun _ hright ↦ absurd hright (by simp)
    | accepted payload fits =>
      refine (ensures_done _ _ _).mpr fun next hright ↦ ⟨trivial, ?_⟩
      rw [← Sum.inl.inj hright, hnext]
      omega
  · rw [pure_eq_done, ensures_done]
    exact fun _ hright ↦ absurd hright (by simp)

end SmallLogs

/-! ### Large logs -/

/-- A device that accepts every command and keeps no state. -/
def acceptingDevice (state : Unit) (call : HostCommand) : HostReply call × Unit :=
  (acceptingReply call, state)

theorem answering_acceptingDevice (state : Unit) (call : HostCommand) :
    answering acceptingReply state call (acceptingDevice state call).1
      (acceptingDevice state call).2 :=
  rfl

/-- On a device that accepts every command, a log of 65536 bytes or more is never finished. -/
theorem libhothProvisioningLogWrite_diverges {data : List UInt8} (hsize : 65536 ≤ data.length)
    (rounds : ℕ) :
    Ensures (answering acceptingReply) (libhothProvisioningLogWrite rounds data) ()
      fun outcome _ ↦ outcome = none := by
  have hloop : Ensures (answering acceptingReply) (whileRounds (writeRound data) rounds 0) ()
      fun outcome final ↦ (∀ err, outcome = some err → False) ∧
        (outcome = none → ∃ last : UInt16, last.toNat ≤ data.length % 65536) := by
    refine whileRounds_ensures
      (fun (bytesWritten : UInt16) _ ↦ bytesWritten.toNat ≤ data.length % 65536)
      ?_ rounds 0 () (Nat.zero_le _)
    intro bytesWritten _ hbehind
    unfold writeRound
    rw [if_pos (by omega)]
    dsimp only [hostcmdExec]
    rw [ensures_bind, ensures_request]
    rintro reply _ rfl
    exact (ensures_done _ _ _).mpr (toNat_add_writeChunkSize_le hbehind)
  refine hloop.mono fun outcome _ hend ↦ ?_
  cases outcome with
  | none => rfl
  | some err => exact (hend.1 err rfl).elim

/-- A log of 65536 bytes or more fails the contract. -/
theorem not_logWriteContract {data : List UInt8} (hsize : 65536 ≤ data.length) :
    ¬LogWriteContract data := by
  intro hcontract
  obtain ⟨rounds, hrounds⟩ := hcontract.terminates acceptingDevice ()
  have hrun := runs_play answering_acceptingDevice (libhothProvisioningLogWrite rounds data) ()
  rw [libhothProvisioningLogWrite_diverges hsize rounds _ _ hrun] at hrounds
  exact absurd hrounds (by decide)

/-- Writing and committing a log meet their contract exactly below 65536 bytes. -/
theorem logWriteContract_iff (data : List UInt8) :
    LogWriteContract data ↔ data.length < 65536 := by
  constructor
  · intro hcontract
    by_contra hlarge
    exact not_logWriteContract (not_lt.mp hlarge) hcontract
  · intro hsize
    refine ⟨fun device start ↦ ⟨data.length + 1, ?_⟩, fun rounds history hrun ↦ ?_, ?_⟩
    · exact libhothProvisioningLogWrite_finishes hsize start _ _
        (runs_play (fun _ _ ↦ trivial) _ start)
    · exact libhothProvisioningLogWrite_ensures hsize rounds _ _ hrun _ rfl rfl
    · intro err history hrun
      obtain ⟨reply, _, hcommit, -, rfl⟩ := (runs_bind _ _ _ _ _).mp hrun
      rw [hostcmdExec, runs_request, recording_iff] at hcommit
      subst hcommit
      refine ⟨⟨commitRequest data, []⟩, sentLogRequests_provisioningLogCmd _ _ _ reply, rfl, ?_,
        rfl⟩
      exact UInt16.toNat_ofNat_of_lt' hsize

/-- A log of 65536 bytes fails the contract. -/
theorem not_logWriteContract_large : ¬LogWriteContract (List.replicate 65536 0) :=
  not_logWriteContract (List.length_replicate.symm ▸ le_rfl)

end Libhoth.Protocol.ProvisioningLog
