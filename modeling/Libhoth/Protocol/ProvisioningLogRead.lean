import Libhoth.Foundation.CheckedAccess
import Libhoth.Protocol.ProvisioningLog

/-!
# Reading the provisioning log

`libhoth_provisioning_log_read` of `provisioning.c`: a header request, whose reply announces the
size of the log, and then requests for chunks of up to 1008 bytes, each of which is copied into the
caller's buffer after two checks.

`LogReadContract` is what a run owes its caller, and `libhothProvisioningLogRead_iff` says which
runs meet it. Every run ends and stays inside the buffer, but the size of the header reply is never
checked, a log that is larger than the buffer gives `-1`, and a failure of the header command whose
legacy code is zero reads as an empty log.
-/

set_option autoImplicit false
set_option relaxedAutoImplicit false

namespace Libhoth.Protocol.ProvisioningLogRead

open Foundation.ByteString Foundation.CheckedAccess Foundation.InteractingProgram
open Status HostCommand HostCommandProgram ProvisioningLog

/-! ### The program -/

/-- `PROVISIONING_LOG_CHUNK_MAX_SIZE`. -/
def provisioningLogChunkMaxSize : UInt16 := 1008

/-- `sizeof(struct hoth_provisioning_log_header)`. -/
def provisioningLogHeaderSize : ℕ := 8

/-- `sizeof(struct hoth_provisioning_log)`. -/
def provisioningLogSize : ℕ := provisioningLogHeaderSize + provisioningLogChunkMaxSize.toNat

/-- `min_u16`. -/
def minU16 (a b : UInt16) : UInt16 :=
  if a < b then a else b

/-- The `size` of a `struct hoth_provisioning_log_header`. -/
def headerSize (header : List UInt8) : UInt16 :=
  UInt16.ofNat (wordAt header 2 2)

/-- The request of `libhoth_provisioning_log_read`. -/
def readRequest (offset size : UInt16) : HothProvisioningLogRequest where
  version := 1
  operation := provisioningLogRead
  reserved := 0
  offset := offset
  size := size
  checksum := 0

/-- What `exec_provisioning_log_cmd_legacy` leaves: its status, the response buffer and the size
word. -/
structure LegacyResult where
  status : BitVec 32
  respBuf : List UInt8
  outRespSize : ℕ

/-- What a reply leaves in a response buffer of zeros and a size word of zero. -/
def legacyResult {call : HostCommand} (reply : HostReply call) : LegacyResult :=
  match reply with
  | .failed err _ => ⟨legacyCode err, List.replicate call.respBufSize 0, 0⟩
  | .accepted payload _ =>
    ⟨0, payload ++ List.replicate (call.respBufSize - payload.length) 0, payload.length⟩

section LegacyResults

variable {call : HostCommand}

@[simp] theorem status_legacyResult_failed (err : LibhothError) (nonzero : err ≠ hothSuccess) :
    (legacyResult (.failed err nonzero : HostReply call)).status = legacyCode err :=
  rfl

@[simp] theorem outRespSize_legacyResult_failed (err : LibhothError)
    (nonzero : err ≠ hothSuccess) :
    (legacyResult (.failed err nonzero : HostReply call)).outRespSize = 0 :=
  rfl

@[simp] theorem status_legacyResult_accepted (payload : List UInt8)
    (fits : PayloadFits payload call.respBufSize call.sized) :
    (legacyResult (.accepted payload fits : HostReply call)).status = 0 :=
  rfl

@[simp] theorem outRespSize_legacyResult_accepted (payload : List UInt8)
    (fits : PayloadFits payload call.respBufSize call.sized) :
    (legacyResult (.accepted payload fits : HostReply call)).outRespSize = payload.length :=
  rfl

end LegacyResults

/-- `exec_provisioning_log_cmd_legacy` into a response buffer of zeros and a size word of zero. -/
def execProvisioningLogCmdLegacy (request : HothProvisioningLogRequest) (respBufSize : ℕ) :
    HostProgram LegacyResult := do
  let reply ← hostcmdExec (provisioningLogCmd request [] respBufSize)
  return legacyResult reply

/-- The variables of the loop: the bytes read and the caller's buffer. -/
structure LogReadState where
  bytesRead : UInt16
  buf : List UInt8

/-- What a call leaves to its caller: the status, the buffer and the size word, if it has one. -/
structure LogReadEnd where
  status : BitVec 32
  buf : List UInt8
  outSize : Option ℕ

/-- The bytes of the log that are still to be read. -/
def logBytesLeft (size : UInt16) (state : LogReadState) : ℕ :=
  size.toNat - state.bytesRead.toNat

/-- `chunk_size` of `libhoth_provisioning_log_read`. -/
def readChunkSize (size bytesRead : UInt16) : UInt16 :=
  minU16 (size - bytesRead) provisioningLogChunkMaxSize

theorem toNat_readChunkSize {size bytesRead : UInt16} (hmore : bytesRead < size) :
    (readChunkSize size bytesRead).toNat = min (size.toNat - bytesRead.toNat) 1008 := by
  rw [UInt16.lt_iff_toNat_lt] at hmore
  have hbound := size.toNat_lt
  have hrest : (size - bytesRead).toNat = size.toNat - bytesRead.toNat :=
    UInt16.toNat_sub_of_le _ _ (UInt16.le_iff_toNat_le.mpr hmore.le)
  have hmax : provisioningLogChunkMaxSize.toNat = 1008 := rfl
  simp only [readChunkSize, minU16, UInt16.lt_iff_toNat_lt, hrest, hmax]
  split_ifs <;> omega

theorem toNat_add_readChunkSize {size bytesRead : UInt16} (hmore : bytesRead < size) :
    (bytesRead + readChunkSize size bytesRead).toNat =
      bytesRead.toNat + (readChunkSize size bytesRead).toNat := by
  have hchunk := toNat_readChunkSize hmore
  have hbound := size.toNat_lt
  rw [UInt16.lt_iff_toNat_lt] at hmore
  rw [UInt16.toNat_add]
  exact Nat.mod_eq_of_lt (by omega)

theorem logBytesLeft_decreases {size : UInt16} {state : LogReadState}
    (hmore : state.bytesRead < size) (buf : List UInt8) :
    logBytesLeft size ⟨state.bytesRead + readChunkSize size state.bytesRead, buf⟩ <
      logBytesLeft size state := by
  have hchunk := toNat_readChunkSize hmore
  have hnext := toNat_add_readChunkSize hmore
  rw [UInt16.lt_iff_toNat_lt] at hmore
  change size.toNat - (state.bytesRead + readChunkSize size state.bytesRead).toNat <
    size.toNat - state.bytesRead.toNat
  omega

/-- One round of the loop of `libhoth_provisioning_log_read`. -/
def readRound (size : UInt16) (bufSize : ℕ) (outSize : Option ℕ) (state : LogReadState) :
    HostProgram ({next : LogReadState // logBytesLeft size next < logBytesLeft size state} ⊕
      Except Fault LogReadEnd) :=
  if h : state.bytesRead < size then do
    let chunkSize := readChunkSize size state.bytesRead
    let result ← execProvisioningLogCmdLegacy (readRequest state.bytesRead chunkSize)
      provisioningLogSize
    if result.status ≠ 0 then return .inr (.ok ⟨result.status, state.buf, outSize⟩)
    else if result.outRespSize ≠ chunkSize.toNat + provisioningLogHeaderSize then
      return .inr (.ok ⟨1, state.buf, outSize⟩)
    else if state.bytesRead.toNat + chunkSize.toNat > bufSize then
      return .inr (.ok ⟨-1, state.buf, outSize⟩)
    else
      match overwriteWithin state.buf state.bytesRead.toNat
          (slice result.respBuf provisioningLogHeaderSize chunkSize.toNat) with
      | .error fault => return .inr (.error fault)
      | .ok buf => return .inl ⟨⟨state.bytesRead + chunkSize, buf⟩, logBytesLeft_decreases h buf⟩
  else return .inr (.ok ⟨0, state.buf, outSize.map fun _ ↦ state.bytesRead.toNat⟩)

/-- `libhoth_provisioning_log_read` into a buffer of `buf_size` bytes, with or without an
`out_size`. -/
def libhothProvisioningLogRead (buf : List UInt8) (outSize : Option ℕ) :
    HostProgram (Except Fault LogReadEnd) := do
  let result ← execProvisioningLogCmdLegacy (readRequest 0 0) provisioningLogHeaderSize
  if result.status ≠ 0 then return .ok ⟨result.status, buf, outSize⟩
  else
    let size := headerSize result.respBuf
    whileDecreasing (logBytesLeft size) (readRound size buf.length outSize) ⟨0, buf⟩

/-! ### The contract -/

/-- The payload of an accepted reply. -/
def replyPayload : Exchange HostReply → Option (List UInt8)
  | ⟨_, .failed _ _⟩ => none
  | ⟨_, .accepted payload _⟩ => some payload

/-- The command of the exchange succeeded. -/
def Accepted (exchange : Exchange HostReply) : Prop :=
  ∃ payload, replyPayload exchange = some payload

/-- The command succeeded with a reply of eight bytes and the bytes that it asked for. -/
def Exact (exchange : Exchange HostReply) : Prop :=
  ∃ payload, replyPayload exchange = some payload ∧
    payload.length =
      8 + (HothProvisioningLogRequest.decode exchange.1.payload).size.toNat

/-- The reply to the header request, for a command that succeeded. -/
def headerReply (history : HostHistory) : Option (List UInt8) :=
  history.head?.bind replyPayload

/-- The data of the chunk replies of a history, in order. -/
def chunkData (chunks : HostHistory) : List UInt8 :=
  ((chunks.filterMap replyPayload).map (·.drop 8)).flatten

/-- The replies of a log that can be read: every command succeeded, the header reply has eight bytes
and announces no more than the buffer holds, and every chunk reply has the bytes asked for. -/
structure Readable (bufSize : ℕ) (history : HostHistory) : Prop where
  accepted : ∀ exchange ∈ history, Accepted exchange
  header : ∃ header, headerReply history = some header ∧ header.length = 8 ∧
    (headerSize header).toNat ≤ bufSize
  chunks : ∀ exchange ∈ history.tail, Exact exchange

/-- What a call owes its caller. -/
structure LogReadContract (buf : List UInt8) (outSize : Option ℕ) (outcome : Except Fault LogReadEnd)
    (history : HostHistory) : Prop where
  inside : ∃ final, outcome = .ok final ∧ final.buf.length = buf.length
  success : ∀ final, outcome = .ok final → (final.status = 0 ↔ Readable buf.length history)
  contents : ∀ final, outcome = .ok final → final.status = 0 → ∀ header,
    headerReply history = some header →
      final.buf.take (headerSize header).toNat = chunkData history.tail ∧
        final.buf.drop (headerSize header).toNat = buf.drop (headerSize header).toNat ∧
        final.outSize = outSize.map fun _ ↦ (headerSize header).toNat
  unexpected : ∀ final, outcome = .ok final → (∀ exchange ∈ history, Accepted exchange) →
    ¬Readable buf.length history → final.status = 1
  untouched : ∀ final, outcome = .ok final → final.status ≠ 0 → final.outSize = outSize

/-- The runs that end wrongly: the header command fails with an error whose legacy code is zero, or
every command succeeds and every chunk reply has the bytes asked for, but the header reply does not
have eight bytes or announces more than the buffer holds. -/
def Misread (bufSize : ℕ) (history : HostHistory) : Prop :=
  (∃ call err nonzero, history.head? = some ⟨call, .failed err nonzero⟩ ∧ LegacyBlind err) ∨
    (∀ exchange ∈ history, Accepted exchange) ∧ (∀ exchange ∈ history.tail, Exact exchange) ∧
      ∀ header, headerReply history = some header →
        ¬(header.length = 8 ∧ (headerSize header).toNat ≤ bufSize)

theorem Exact.accepted {exchange : Exchange HostReply} (hexact : Exact exchange) :
    Accepted exchange := by
  obtain ⟨payload, hpayload, -⟩ := hexact
  exact ⟨payload, hpayload⟩

@[simp] theorem chunkData_append (first second : HostHistory) :
    chunkData (first ++ second) = chunkData first ++ chunkData second := by
  simp [chunkData]

/-! ### The loop -/

/-- What has been read between two chunks: the buffer holds the data of the chunks so far. -/
structure Reading (buf : List UInt8) (size : UInt16) (chunks : HostHistory)
    (state : LogReadState) : Prop where
  exact : ∀ exchange ∈ chunks, Exact exchange
  within : state.bytesRead ≤ size
  inside : state.bytesRead.toNat ≤ buf.length
  length : (chunkData chunks).length = state.bytesRead.toNat
  contents : state.buf = chunkData chunks ++ buf.drop state.bytesRead.toNat

/-- How the loop ends, one constructor for each of its exits. -/
inductive LoopEnds (buf : List UInt8) (size : UInt16) (outSize : Option ℕ) (chunks : HostHistory) :
    LogReadEnd → Prop
  | failed (final : LogReadEnd) (failure : ∃ exchange ∈ chunks, ¬Accepted exchange)
    (status : final.status ≠ 0) (untouched : final.outSize = outSize)
    (length : final.buf.length = buf.length) : LoopEnds buf size outSize chunks final
  | misfit (final : LogReadEnd) (accepted : ∀ exchange ∈ chunks, Accepted exchange)
    (inexact : ∃ exchange ∈ chunks, ¬Exact exchange)
    (status : final.status = 1) (untouched : final.outSize = outSize)
    (length : final.buf.length = buf.length) : LoopEnds buf size outSize chunks final
  | tooLong (final : LogReadEnd) (exact : ∀ exchange ∈ chunks, Exact exchange)
    (larger : buf.length < size.toNat) (status : final.status = -1)
    (untouched : final.outSize = outSize)
    (length : final.buf.length = buf.length) : LoopEnds buf size outSize chunks final
  | finished (state : LogReadState) (reading : Reading buf size chunks state)
    (all : state.bytesRead = size) :
    LoopEnds buf size outSize chunks
      ⟨0, state.buf, outSize.map fun _ ↦ state.bytesRead.toNat⟩

section Loop

variable {buf : List UInt8} {size : UInt16} {chunks : HostHistory} {state : LogReadState}

theorem Reading.length_buf (hreading : Reading buf size chunks state) :
    state.buf.length = buf.length := by
  have hinside := hreading.inside
  rw [hreading.contents, List.length_append, hreading.length, List.length_drop]
  omega

/-- The host command of a round. -/
def chunkCall (size bytesRead : UInt16) : HostCommand :=
  provisioningLogCmd (readRequest bytesRead (readChunkSize size bytesRead)) [] provisioningLogSize

theorem not_accepted_failed {call : HostCommand} {err : LibhothError}
    (nonzero : err ≠ hothSuccess) : ¬Accepted ⟨call, .failed err nonzero⟩ := by
  rintro ⟨payload, hpayload⟩
  exact absurd hpayload.symm (Option.some_ne_none payload)

theorem exact_chunkCall_iff {size bytesRead : UInt16} {payload : List UInt8}
    (fits : PayloadFits payload provisioningLogSize true) :
    Exact ⟨chunkCall size bytesRead, .accepted payload fits⟩ ↔
      payload.length = (readChunkSize size bytesRead).toNat + provisioningLogHeaderSize := by
  have hrequest := (readRequest bytesRead (readChunkSize size bytesRead)).decode_encode []
  have hsize : (HothProvisioningLogRequest.decode (chunkCall size bytesRead).payload).size =
      readChunkSize size bytesRead := congrArg HothProvisioningLogRequest.size hrequest
  rw [Nat.add_comm, provisioningLogHeaderSize]
  constructor
  · rintro ⟨_, ⟨rfl⟩, hlength⟩
    rwa [hsize] at hlength
  · intro hlength
    exact ⟨payload, rfl, by rwa [hsize]⟩

/-- One more chunk reply adds the bytes behind its header. -/
theorem chunkData_snoc (chunks : HostHistory) {call : HostCommand} {payload : List UInt8}
    (fits : PayloadFits payload call.respBufSize call.sized) :
    chunkData (chunks ++ [⟨call, .accepted payload fits⟩]) =
      chunkData chunks ++ payload.drop 8 := by
  rw [chunkData_append]
  exact congrArg (chunkData chunks ++ ·) (List.append_nil _)

/-- A chunk that has the bytes asked for and fits the buffer goes behind the chunks before it. -/
theorem Reading.snoc (hreading : Reading buf size chunks state) (hmore : state.bytesRead < size)
    {payload : List UInt8} (fits : PayloadFits payload provisioningLogSize true)
    (hlength : payload.length =
      (readChunkSize size state.bytesRead).toNat + provisioningLogHeaderSize)
    (hroom : state.bytesRead.toNat + (readChunkSize size state.bytesRead).toNat ≤ buf.length) :
    ∃ next, overwriteWithin state.buf state.bytesRead.toNat (payload.drop 8) = .ok next ∧
      Reading buf size (chunks ++ [⟨chunkCall size state.bytesRead, .accepted payload fits⟩])
        ⟨state.bytesRead + readChunkSize size state.bytesRead, next⟩ := by
  have hnext := toNat_add_readChunkSize hmore
  have hchunk := toNat_readChunkSize hmore
  rw [UInt16.lt_iff_toNat_lt] at hmore
  have hdata : (payload.drop 8).length = (readChunkSize size state.bytesRead).toNat := by
    rw [List.length_drop, hlength, provisioningLogHeaderSize, Nat.add_sub_cancel]
  have hjoined : chunkData (chunks ++ [⟨chunkCall size state.bytesRead, .accepted payload fits⟩]) =
      chunkData chunks ++ payload.drop 8 := chunkData_snoc chunks fits
  refine ⟨_, overwriteWithin_of_le (by rw [hreading.length_buf, hdata]; exact hroom), ?_⟩
  refine ⟨forall_mem_snoc hreading.exact ((exact_chunkCall_iff fits).mpr hlength), ?_, ?_, ?_, ?_⟩
  · rw [UInt16.le_iff_toNat_le, hnext]
    omega
  · rwa [hnext]
  · rw [hjoined, List.length_append, hreading.length, hdata, hnext]
  · rw [hjoined, hdata, hnext, hreading.contents, List.take_left' hreading.length,
      ← List.drop_drop, List.drop_left' hreading.length, List.drop_drop]

/-- The data of a chunk reply in the response buffer. -/
theorem slice_legacyResult {call : HostCommand} {payload : List UInt8}
    (fits : PayloadFits payload call.respBufSize call.sized) {count : ℕ}
    (hlength : payload.length = count + provisioningLogHeaderSize) :
    slice (legacyResult (.accepted payload fits)).respBuf provisioningLogHeaderSize count =
      payload.drop 8 := by
  have hdata : (payload.drop 8).length = count := by
    rw [List.length_drop, hlength, provisioningLogHeaderSize, Nat.add_sub_cancel]
  rw [legacyResult, slice_append_left (by omega), slice, provisioningLogHeaderSize, ← hdata,
    List.take_length]

/-- A round reads the next chunk or ends the loop. -/
theorem readRound_ensures (hreading : Reading buf size chunks state) (outSize : Option ℕ)
    (header : Exchange HostReply) :
    Ensures recording (readRound size buf.length outSize state) (header :: chunks)
      fun outcome final ↦
        match outcome with
        | .inl next => ∃ chunks, final = header :: chunks ∧ Reading buf size chunks next.val
        | .inr result => ∃ chunks last, final = header :: chunks ∧ result = .ok last ∧
            LoopEnds buf size outSize chunks last := by
  unfold readRound
  split_ifs with hmore
  · dsimp only [execProvisioningLogCmdLegacy, hostcmdExec]
    rw [ensures_bind, ensures_bind, ensures_request]
    rintro reply _ rfl
    rw [pure_eq_done, ensures_done, List.cons_append]
    cases reply with
    | failed err nonzero =>
      have hfailure : ∃ exchange ∈ chunks ++
          [⟨chunkCall size state.bytesRead, .failed err nonzero⟩], ¬Accepted exchange :=
        ⟨_, List.mem_append_right _ (List.mem_singleton_self _), not_accepted_failed nonzero⟩
      have hmisfit : 0 ≠ (readChunkSize size state.bytesRead).toNat + provisioningLogHeaderSize :=
        (Nat.succ_ne_zero _).symm
      rw [status_legacyResult_failed, outRespSize_legacyResult_failed, if_pos hmisfit]
      by_cases hblind : legacyCode err = 0
      · rw [if_neg (not_not.mpr hblind)]
        exact (ensures_done _ _ _).mpr
          ⟨_, _, rfl, rfl,
            .failed _ hfailure (show (1 : BitVec 32) ≠ 0 by decide) rfl hreading.length_buf⟩
      · rw [if_pos hblind]
        exact (ensures_done _ _ _).mpr
          ⟨_, _, rfl, rfl, .failed _ hfailure hblind rfl hreading.length_buf⟩
    | accepted payload fits =>
      have hexact : Exact ⟨chunkCall size state.bytesRead, .accepted payload fits⟩ ↔ _ :=
        exact_chunkCall_iff fits
      rw [status_legacyResult_accepted, outRespSize_legacyResult_accepted, if_neg (not_not.mpr rfl)]
      by_cases hlength : payload.length =
          (readChunkSize size state.bytesRead).toNat + provisioningLogHeaderSize
      · have hchunks : ∀ exchange ∈ chunks ++
            [⟨chunkCall size state.bytesRead, .accepted payload fits⟩], Exact exchange :=
          forall_mem_snoc hreading.exact (hexact.mpr hlength)
        rw [if_neg (not_not.mpr hlength), slice_legacyResult fits hlength]
        split_ifs with hroom
        · have hwithin := toNat_readChunkSize hmore
          have hless := UInt16.lt_iff_toNat_lt.mp hmore
          refine (ensures_done _ _ _).mpr
            ⟨_, _, rfl, rfl, .tooLong _ hchunks ?_ rfl rfl hreading.length_buf⟩
          omega
        · obtain ⟨next, hnext, hnextReading⟩ :=
            hreading.snoc hmore fits hlength (not_lt.mp hroom)
          rw [hnext]
          exact (ensures_done _ _ _).mpr ⟨_, rfl, hnextReading⟩
      · rw [if_pos hlength]
        have hchunks : ∀ exchange ∈ chunks ++
            [⟨chunkCall size state.bytesRead, .accepted payload fits⟩], Accepted exchange :=
          forall_mem_snoc (fun exchange hmem ↦ (hreading.exact exchange hmem).accepted)
            ⟨payload, rfl⟩
        have hinexact : ∃ exchange ∈ chunks ++
            [⟨chunkCall size state.bytesRead, .accepted payload fits⟩], ¬Exact exchange :=
          ⟨_, List.mem_append_right _ (List.mem_singleton_self _),
            fun hlast ↦ hlength (hexact.mp hlast)⟩
        exact (ensures_done _ _ _).mpr
          ⟨_, _, rfl, rfl, .misfit _ hchunks hinexact rfl rfl hreading.length_buf⟩
  · refine (ensures_done _ _ _).mpr ⟨_, _, rfl, rfl, .finished state hreading ?_⟩
    exact UInt16.le_antisymm hreading.within (UInt16.not_lt.mp hmore)

theorem Reading.start (buf : List UInt8) (size : UInt16) : Reading buf size [] ⟨0, buf⟩ :=
  ⟨fun _ hmem ↦ absurd hmem List.not_mem_nil, UInt16.le_iff_toNat_le.mpr (Nat.zero_le _),
    Nat.zero_le _, rfl, rfl⟩

/-- The loop after the header reply ends at one of its exits. -/
theorem readLoop_ensures (buf : List UInt8) (size : UInt16) (outSize : Option ℕ)
    (header : Exchange HostReply) :
    Ensures recording
      (whileDecreasing (logBytesLeft size) (readRound size buf.length outSize) ⟨0, buf⟩) [header]
      fun outcome history ↦ ∃ chunks last, history = header :: chunks ∧ outcome = .ok last ∧
        LoopEnds buf size outSize chunks last := by
  refine whileDecreasing_ensures
    (fun state history ↦ ∃ chunks, history = header :: chunks ∧ Reading buf size chunks state)
    ?_ ⟨0, buf⟩ [header] ⟨[], rfl, .start buf size⟩
  rintro state _ ⟨chunks, rfl, hreading⟩
  refine (readRound_ensures hreading outSize header).mono fun outcome final hround ↦ ?_
  cases outcome <;> exact hround

/-! ### A log that is read -/

/-- The reply to a chunk request of a device that holds a log. -/
def chunkReply (log : List UInt8) (size bytesRead : UInt16) : List UInt8 :=
  List.replicate provisioningLogHeaderSize 0 ++
    slice log bytesRead.toNat (readChunkSize size bytesRead).toNat

theorem length_chunkReply {log : List UInt8} {size bytesRead : UInt16}
    (hlog : log.length = size.toNat) (hmore : bytesRead < size) :
    (chunkReply log size bytesRead).length =
      (readChunkSize size bytesRead).toNat + provisioningLogHeaderSize := by
  have hchunk := toNat_readChunkSize hmore
  rw [UInt16.lt_iff_toNat_lt] at hmore
  rw [chunkReply, List.length_append, List.length_replicate,
    length_slice_of_le (by omega), Nat.add_comm]

/-- A chunk reply fits the response buffer. -/
theorem payloadFits_chunkReply {log : List UInt8} {size bytesRead : UInt16}
    (hlog : log.length = size.toNat) (hmore : bytesRead < size) :
    PayloadFits (chunkReply log size bytesRead)
      (provisioningLogCmd (readRequest bytesRead (readChunkSize size bytesRead)) []
        provisioningLogSize).respBufSize
      (provisioningLogCmd (readRequest bytesRead (readChunkSize size bytesRead)) []
        provisioningLogSize).sized := by
  have hchunk := toNat_readChunkSize hmore
  have hlength := length_chunkReply hlog hmore
  change (chunkReply log size bytesRead).length ≤ 8 + 1008
  rw [hlength, provisioningLogHeaderSize]
  omega

/-- What was read so far is the start of a log. -/
structure ReadingLog (log buf : List UInt8) (size : UInt16) (header : Exchange HostReply)
    (state : LogReadState) (history : HostHistory) : Prop where
  reading : ∃ chunks, history = header :: chunks ∧ Reading buf size chunks state ∧
    chunkData chunks = log.take state.bytesRead.toNat

/-- A round can read the next chunk of a log that fits the buffer, until it was read. -/
theorem readRound_admits {log : List UInt8} (hlog : log.length = size.toNat)
    (hroom : size.toNat ≤ buf.length) (outSize : Option ℕ) {header : Exchange HostReply}
    {history : HostHistory} (hreading : ReadingLog log buf size header state history) :
    Admits recording (readRound size buf.length outSize state) history fun outcome final ↦
      match outcome with
      | .inl next => ReadingLog log buf size header next.val final
      | .inr result => ReadingLog log buf size header state final ∧ state.bytesRead = size ∧
          result = .ok ⟨0, state.buf, outSize.map fun _ ↦ state.bytesRead.toNat⟩ := by
  obtain ⟨chunks, rfl, hreading, hdata⟩ := hreading
  unfold readRound
  split_ifs with hmore
  · have hlength := length_chunkReply hlog hmore
    have hfits := payloadFits_chunkReply hlog hmore
    have hwithin := toNat_readChunkSize hmore
    have hless := UInt16.lt_iff_toNat_lt.mp hmore
    have hnextSize := toNat_add_readChunkSize hmore
    have hchunkRoom :
        state.bytesRead.toNat + (readChunkSize size state.bytesRead).toNat ≤ buf.length := by
      omega
    obtain ⟨next, hnext, hnextReading⟩ := hreading.snoc hmore hfits hlength hchunkRoom
    dsimp only [execProvisioningLogCmdLegacy, hostcmdExec]
    rw [admits_bind, admits_bind]
    refine admits_request (.accepted (chunkReply log size state.bytesRead) hfits) rfl ?_
    refine admits_done ?_
    rw [status_legacyResult_accepted, outRespSize_legacyResult_accepted, if_neg (not_not.mpr rfl),
      if_neg (not_not.mpr hlength), slice_legacyResult hfits hlength, if_neg hchunkRoom.not_gt,
      hnext]
    refine admits_done ⟨_, rfl, hnextReading, (chunkData_snoc chunks hfits).trans ?_⟩
    rw [hdata, hnextSize, List.take_add]
    exact congrArg (_ ++ ·) (List.drop_left' List.length_replicate)
  · refine admits_done ⟨⟨chunks, rfl, hreading, hdata⟩, ?_, rfl⟩
    exact UInt16.le_antisymm hreading.within (UInt16.not_lt.mp hmore)

/-- A log that fits the buffer can be read. -/
theorem readLoop_admits {log : List UInt8} (hlog : log.length = size.toNat)
    (hroom : size.toNat ≤ buf.length) (outSize : Option ℕ) (header : Exchange HostReply) :
    Admits recording
      (whileDecreasing (logBytesLeft size) (readRound size buf.length outSize) ⟨0, buf⟩) [header]
      fun outcome history ↦
        outcome = .ok ⟨0, log ++ buf.drop log.length, outSize.map fun _ ↦ log.length⟩ ∧
          ∃ chunks, history = header :: chunks ∧ ∀ exchange ∈ chunks, Exact exchange := by
  refine whileDecreasing_admits (ReadingLog log buf size header) ?_ ⟨0, buf⟩ [header]
    ⟨[], rfl, .start buf size, rfl⟩
  intro state history hreading
  refine (readRound_admits hlog hroom outSize hreading).mono fun outcome final hround ↦ ?_
  match outcome, hround with
  | .inl next, hnext => exact hnext
  | .inr result, ⟨⟨chunks, hhistory, hread, hdata⟩, hall, hresult⟩ =>
    have hlength : state.bytesRead.toNat = log.length := by rw [hall, hlog]
    rw [hread.contents, hdata, hlength, List.take_length] at hresult
    exact ⟨hresult, chunks, hhistory, hread.exact⟩

end Loop

/-! ### The contract of a run -/

section Contract

variable {buf : List UInt8} {outSize : Option ℕ} {history : HostHistory} {final : LogReadEnd}

/-- A call that reports an error meets the contract when the log was not readable and the error is 1
unless a command failed. -/
theorem LogReadContract.of_error (hlength : final.buf.length = buf.length)
    (hstatus : final.status ≠ 0) (huntouched : final.outSize = outSize)
    (hreadable : ¬Readable buf.length history)
    (hunexpected : (∀ exchange ∈ history, Accepted exchange) → final.status = 1) :
    LogReadContract buf outSize (.ok final) history := by
  refine ⟨⟨final, rfl, hlength⟩, ?_, ?_, ?_, ?_⟩
  · rintro _ ⟨rfl⟩
    exact iff_of_false hstatus hreadable
  · rintro _ ⟨rfl⟩ hsuccess
    exact absurd hsuccess hstatus
  · rintro _ ⟨rfl⟩ haccepted _
    exact hunexpected haccepted
  · rintro _ ⟨rfl⟩ _
    exact huntouched

section AcceptedHeader

variable {call : HostCommand} {header : List UInt8}
  (fits : PayloadFits header call.respBufSize call.sized) {chunks : HostHistory}

/-- After an accepted header reply a log is readable when that reply is in order and every chunk
reply has the bytes asked for. -/
theorem readable_cons_iff (bufSize : ℕ) :
    Readable bufSize (⟨call, .accepted header fits⟩ :: chunks) ↔
      (header.length = 8 ∧ (headerSize header).toNat ≤ bufSize) ∧
        ∀ exchange ∈ chunks, Exact exchange := by
  constructor
  · rintro ⟨-, ⟨_, ⟨rfl⟩, hheader⟩, hchunks⟩
    exact ⟨hheader, hchunks⟩
  · rintro ⟨hheader, hchunks⟩
    refine ⟨?_, ⟨header, rfl, hheader⟩, hchunks⟩
    exact List.forall_mem_cons.mpr
      ⟨⟨header, rfl⟩, fun exchange hmem ↦ (hchunks exchange hmem).accepted⟩

/-- After an accepted header reply a log is misread when every chunk reply has the bytes asked for,
but the header reply is not in order. -/
theorem misread_cons_iff (bufSize : ℕ) :
    Misread bufSize (⟨call, .accepted header fits⟩ :: chunks) ↔
      ¬(header.length = 8 ∧ (headerSize header).toNat ≤ bufSize) ∧
        ∀ exchange ∈ chunks, Exact exchange := by
  constructor
  · rintro (⟨_, _, _, hhead, -⟩ | ⟨-, hchunks, hheader⟩)
    · exact absurd (Sigma.mk.inj (Option.some.inj hhead)) (by rintro ⟨rfl, hreply⟩; cases hreply)
    · exact ⟨hheader header rfl, hchunks⟩
  · rintro ⟨hheader, hchunks⟩
    refine .inr ⟨List.forall_mem_cons.mpr
      ⟨⟨header, rfl⟩, fun exchange hmem ↦ (hchunks exchange hmem).accepted⟩, hchunks, ?_⟩
    rintro _ ⟨rfl⟩
    exact hheader

/-- A call that reports an error because of a chunk meets the contract. -/
theorem logReadContract_iff_of_inexact (hlength : final.buf.length = buf.length)
    (hstatus : final.status ≠ 0) (huntouched : final.outSize = outSize)
    (hinexact : ¬∀ exchange ∈ chunks, Exact exchange)
    (hunexpected : (∀ exchange ∈ chunks, Accepted exchange) → final.status = 1) :
    LogReadContract buf outSize (.ok final) (⟨call, .accepted header fits⟩ :: chunks) ↔
      ¬Misread buf.length (⟨call, .accepted header fits⟩ :: chunks) := by
  refine iff_of_true (.of_error hlength hstatus huntouched ?_ ?_) ?_
  · rw [readable_cons_iff]
    exact fun hreadable ↦ hinexact hreadable.2
  · exact fun haccepted ↦ hunexpected (List.forall_mem_cons.mp haccepted).2
  · rw [misread_cons_iff]
    exact fun hmisread ↦ hinexact hmisread.2

/-- A log that is readable and was read to its end meets the contract. -/
theorem LogReadContract.of_readable {size : UInt16} {state : LogReadState}
    (hreadable : Readable buf.length (⟨call, .accepted header fits⟩ :: chunks))
    (hreading : Reading buf size chunks state) (hall : state.bytesRead = headerSize header) :
    LogReadContract buf outSize
      (.ok ⟨0, state.buf, outSize.map fun _ ↦ state.bytesRead.toNat⟩)
      (⟨call, .accepted header fits⟩ :: chunks) := by
  refine ⟨⟨_, rfl, hreading.length_buf⟩, ?_, ?_, ?_, ?_⟩
  · rintro _ ⟨rfl⟩
    exact iff_of_true rfl hreadable
  · rintro _ ⟨rfl⟩ _ _ ⟨rfl⟩
    rw [← hall, hreading.contents]
    exact ⟨List.take_left' hreading.length, List.drop_left' hreading.length, rfl⟩
  · rintro _ ⟨rfl⟩ _ hnot
    exact absurd hreadable hnot
  · rintro _ ⟨rfl⟩ hfailure
    exact absurd rfl hfailure

/-- The end of the loop after an accepted header reply: the contract is met unless the log was
misread. -/
theorem logReadContract_iff_of_loopEnds {size : UInt16}
    (hsize : header.length = 8 → size = headerSize header)
    (hends : LoopEnds buf size outSize chunks final) :
    LogReadContract buf outSize (.ok final) (⟨call, .accepted header fits⟩ :: chunks) ↔
      ¬Misread buf.length (⟨call, .accepted header fits⟩ :: chunks) := by
  cases hends with
  | failed _ failure status untouched length =>
    obtain ⟨exchange, hmem, hfailed⟩ := failure
    exact logReadContract_iff_of_inexact fits length status untouched
      (fun hexact ↦ hfailed (hexact exchange hmem).accepted)
      fun haccepted ↦ absurd (haccepted exchange hmem) hfailed
  | misfit _ accepted inexact status untouched length =>
    obtain ⟨exchange, hmem, hmisfit⟩ := inexact
    exact logReadContract_iff_of_inexact fits length (status ▸ by decide) untouched
      (fun hexact ↦ hmisfit (hexact exchange hmem)) fun _ ↦ status
  | tooLong _ exact larger status untouched length =>
    have hheader : ¬(header.length = 8 ∧ (headerSize header).toNat ≤ buf.length) := by
      rintro ⟨hlength, hroom⟩
      rw [← hsize hlength] at hroom
      exact absurd hroom (not_le.mpr larger)
    have hmisread := (misread_cons_iff fits buf.length).mpr ⟨hheader, exact⟩
    refine iff_of_false (fun hcontract ↦ ?_) (not_not.mpr hmisread)
    have hone := hcontract.unexpected final rfl (List.forall_mem_cons.mpr
      ⟨⟨header, rfl⟩, fun exchange hmem ↦ (exact exchange hmem).accepted⟩)
      (fun hreadable ↦ hheader ((readable_cons_iff fits _).mp hreadable).1)
    rw [status] at hone
    exact absurd hone (by decide)
  | finished state reading all =>
    by_cases hheader : header.length = 8 ∧ (headerSize header).toNat ≤ buf.length
    · have hreadable := (readable_cons_iff fits buf.length).mpr ⟨hheader, reading.exact⟩
      refine iff_of_true (.of_readable fits hreadable reading (all.trans (hsize hheader.1))) ?_
      rw [misread_cons_iff]
      exact fun hmisread ↦ hmisread.1 hheader
    · have hmisread := (misread_cons_iff fits buf.length).mpr ⟨hheader, reading.exact⟩
      refine iff_of_false (fun hcontract ↦ ?_) (not_not.mpr hmisread)
      have hreadable := (hcontract.success _ rfl).mp rfl
      exact hheader ((readable_cons_iff fits _).mp hreadable).1

end AcceptedHeader

/-- A header command that failed leaves nothing to read. -/
theorem readable_failed {call : HostCommand} {err : LibhothError} (nonzero : err ≠ hothSuccess)
    (bufSize : ℕ) : ¬Readable bufSize [⟨call, .failed err nonzero⟩] :=
  fun hreadable ↦ not_accepted_failed nonzero (hreadable.accepted _ List.mem_cons_self)

/-- After a header command that failed, a log is misread when the legacy code of the error is
zero. -/
theorem misread_failed_iff {call : HostCommand} {err : LibhothError} (nonzero : err ≠ hothSuccess)
    (bufSize : ℕ) : Misread bufSize [⟨call, .failed err nonzero⟩] ↔ LegacyBlind err := by
  constructor
  · rintro (⟨_, _, _, hhead, hblind⟩ | ⟨haccepted, -⟩)
    · obtain ⟨rfl, hreply⟩ := Sigma.mk.inj (Option.some.inj hhead)
      cases hreply
      exact hblind
    · exact absurd (haccepted _ List.mem_cons_self) (not_accepted_failed nonzero)
  · exact fun hblind ↦ .inl ⟨call, err, nonzero, rfl, hblind⟩

end Contract

/-- An empty log is read without a command. -/
theorem readLoop_zero (buf : List UInt8) (outSize : Option ℕ) :
    whileDecreasing (logBytesLeft 0) (readRound 0 buf.length outSize) ⟨0, buf⟩ =
      .done (.ok ⟨0, buf, outSize.map fun _ ↦ 0⟩) := by
  have hdone : ¬(0 : UInt16) < 0 := by decide
  rw [whileDecreasing, readRound, dif_neg hdone]
  rfl

/-- Every run of `libhoth_provisioning_log_read` either meets its contract or misread the log: for
every buffer and every device. -/
theorem libhothProvisioningLogRead_iff (buf : List UInt8) (outSize : Option ℕ)
    (outcome : Except Fault LogReadEnd) (history : HostHistory)
    (hrun : Runs recording (libhothProvisioningLogRead buf outSize) [] outcome history) :
    LogReadContract buf outSize outcome history ↔ ¬Misread buf.length history := by
  obtain ⟨result, middle, hheader, hrest⟩ := (runs_bind _ _ _ _ _).mp hrun
  obtain ⟨reply, _, hcall, rfl, rfl⟩ := (runs_bind _ _ _ _ _).mp hheader
  rw [hostcmdExec, runs_request, recording_iff, List.nil_append] at hcall
  subst hcall
  cases reply with
  | failed err nonzero =>
    rw [status_legacyResult_failed] at hrest
    have hlegacy : legacyCode err = 0 ↔ LegacyBlind err := by
      rw [legacyCode_eq_zero_iff, or_iff_right nonzero]
    by_cases hcode : legacyCode err = 0
    · have hzero : headerSize
          (legacyResult (.failed err nonzero : HostReply
            (provisioningLogCmd (readRequest 0 0) [] provisioningLogHeaderSize))).respBuf = 0 :=
        show headerSize (List.replicate 8 0) = 0 by decide
      rw [if_neg (not_not.mpr hcode)] at hrest
      dsimp only at hrest
      rw [hzero, readLoop_zero] at hrest
      obtain ⟨rfl, rfl⟩ := hrest
      rw [misread_failed_iff nonzero]
      refine iff_of_false (fun hcontract ↦ ?_) (not_not.mpr (hlegacy.mp hcode))
      exact readable_failed nonzero _ ((hcontract.success _ rfl).mp rfl)
    · rw [if_pos hcode] at hrest
      obtain ⟨rfl, rfl⟩ := hrest
      rw [misread_failed_iff nonzero]
      refine iff_of_true (.of_error rfl hcode rfl (readable_failed nonzero _) fun haccepted ↦ ?_)
        (mt hlegacy.mpr hcode)
      exact absurd (haccepted _ List.mem_cons_self) (not_accepted_failed nonzero)
  | accepted header fits =>
    rw [status_legacyResult_accepted, if_neg (not_not.mpr rfl)] at hrest
    obtain ⟨chunks, last, rfl, rfl, hends⟩ := readLoop_ensures _ _ _ _ _ _ hrest
    refine logReadContract_iff_of_loopEnds fits (fun hlength ↦ ?_) hends
    have hfull : provisioningLogHeaderSize - header.length = 0 := by rw [hlength]; rfl
    change headerSize (header ++ List.replicate (provisioningLogHeaderSize - header.length) 0) = _
    rw [hfull, List.replicate_zero, List.append_nil]

/-- A log that is readable was not misread. -/
theorem Readable.not_misread {bufSize : ℕ} {history : HostHistory}
    (hreadable : Readable bufSize history) : ¬Misread bufSize history := by
  rintro (⟨call, err, nonzero, hhead, -⟩ | ⟨-, -, hheader⟩)
  · exact not_accepted_failed nonzero (hreadable.accepted _ (List.mem_of_head? hhead))
  · obtain ⟨header, hreply, hfits⟩ := hreadable.header
    exact hheader header hreply hfits

/-- The header command. -/
def headerCall : HostCommand :=
  provisioningLogCmd (readRequest 0 0) [] provisioningLogHeaderSize

/-- The header of a log. -/
def logHeader (log : List UInt8) : List UInt8 :=
  [0, 0] ++ (toLittleEndian 2 log.length ++ [0, 0, 0, 0])

theorem toNat_headerSize_logHeader {log : List UInt8} (hlog : log.length < 2 ^ 16) :
    (headerSize (logHeader log)).toNat = log.length := by
  have hword : wordAt (logHeader log) 2 2 = log.length :=
    wordAt_between rfl (show log.length < 256 ^ 2 from hlog) [0, 0, 0, 0]
  rw [headerSize, hword, UInt16.toNat_ofNat_of_lt' hlog]

/-- A log that fits the buffer can be read: a run leaves it at the start of the buffer. -/
theorem libhothProvisioningLogRead_reads (buf log : List UInt8) (outSize : Option ℕ)
    (hlog : log.length < 2 ^ 16) (hroom : log.length ≤ buf.length) :
    ∃ history, Runs recording (libhothProvisioningLogRead buf outSize) []
        (.ok ⟨0, log ++ buf.drop log.length, outSize.map fun _ ↦ log.length⟩) history ∧
      Readable buf.length history := by
  have hsize := toNat_headerSize_logHeader hlog
  have hfits : PayloadFits (logHeader log) headerCall.respBufSize headerCall.sized := le_rfl
  obtain ⟨_, history, hrun, rfl, chunks, rfl, hexact⟩ := readLoop_admits hsize.symm
    (hsize.trans_le hroom) outSize ⟨headerCall, .accepted (logHeader log) hfits⟩
  have hrespBuf :
      (legacyResult (.accepted (logHeader log) hfits : HostReply headerCall)).respBuf =
        logHeader log := List.append_nil _
  refine ⟨_, (runs_bind _ _ _ _ _).mpr
    ⟨legacyResult (.accepted (logHeader log) hfits : HostReply headerCall),
      [⟨headerCall, .accepted (logHeader log) hfits⟩], ⟨_, _, rfl, rfl, rfl⟩, ?_⟩,
    (readable_cons_iff hfits _).mpr ⟨⟨rfl, hsize.trans_le hroom⟩, hexact⟩⟩
  rw [status_legacyResult_accepted, if_neg (not_not.mpr rfl)]
  dsimp only
  rw [hrespBuf]
  exact hrun

/-- A log of 1500 bytes is read in two chunks, and the contract is met. -/
theorem libhothProvisioningLogRead_iff_two_chunks :
    ∃ history, Runs recording (libhothProvisioningLogRead (List.replicate 2000 7) (some 9)) []
        (.ok ⟨0, List.replicate 1500 5 ++ List.replicate 500 7, some 1500⟩) history ∧
      LogReadContract (List.replicate 2000 7) (some 9)
        (.ok ⟨0, List.replicate 1500 5 ++ List.replicate 500 7, some 1500⟩) history := by
  obtain ⟨history, hrun, hreadable⟩ := libhothProvisioningLogRead_reads (List.replicate 2000 7)
    (List.replicate 1500 5) (some 9) (by rw [List.length_replicate]; decide)
    (by rw [List.length_replicate, List.length_replicate]; decide)
  simp only [List.length_replicate, List.drop_replicate, Option.map_some] at hrun
  exact ⟨history, hrun, (libhothProvisioningLogRead_iff _ _ _ _ hrun).mpr hreadable.not_misread⟩

/-- A header reply without any bytes, and the run of a call into four bytes that meets it. -/
theorem runs_emptyHeader :
    ∃ fits, Runs recording (libhothProvisioningLogRead [7, 7, 7, 7] (some 9)) []
      (.ok ⟨0, [7, 7, 7, 7], some 0⟩) [⟨headerCall, .accepted [] fits⟩] := by
  have hfits : PayloadFits [] headerCall.respBufSize headerCall.sized := by decide
  refine ⟨hfits, (runs_bind _ _ _ _ _).mpr ⟨legacyResult (.accepted [] hfits : HostReply headerCall),
    [⟨headerCall, .accepted [] hfits⟩], ⟨_, _, rfl, rfl, rfl⟩, ?_⟩⟩
  have hsize : headerSize (legacyResult (.accepted [] hfits : HostReply headerCall)).respBuf = 0 :=
    show headerSize (List.replicate 8 0) = 0 by decide
  rw [status_legacyResult_accepted, if_neg (not_not.mpr rfl)]
  dsimp only
  rw [hsize]
  have hloop := readLoop_zero [7, 7, 7, 7] (some 9)
  rw [hloop]
  exact ⟨rfl, rfl⟩

/-- That run breaks the contract: it succeeds although the header reply has no bytes. -/
theorem not_logReadContract_emptyHeader :
    ∃ outcome history,
      Runs recording (libhothProvisioningLogRead [7, 7, 7, 7] (some 9)) [] outcome history ∧
        ¬LogReadContract [7, 7, 7, 7] (some 9) outcome history := by
  obtain ⟨fits, hrun⟩ := runs_emptyHeader
  refine ⟨_, _, hrun, fun hcontract ↦ ?_⟩
  have hreadable := (hcontract.success _ rfl).mp rfl
  exact absurd ((readable_cons_iff fits _).mp hreadable).1.1 (by decide)

end Libhoth.Protocol.ProvisioningLogRead
