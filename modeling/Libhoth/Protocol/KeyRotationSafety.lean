import Libhoth.Protocol.KeyRotation

/-!
# Reading a chunk from an arbitrary device

`libhothKeyRotationReadChunkType_safe_iff` says on which sequences of replies
`libhoth_key_rotation_read_chunk_type` is safe: no reply may be longer than what is left of the
array from its packet on (`Overflows`), and in a sequence that the function accepts no reply may be
shorter than its packet and the length after it (`Short`). The function checks neither.

The proof describes the loop by the replies so far (`Reading`): the array holds them at the
multiples of the largest packet size, and what is still to be read is what they leave of the total.
Each round keeps the description or ends the call (`readChunkRound_ensures`).
-/

set_option autoImplicit false
set_option relaxedAutoImplicit false

namespace Libhoth.Protocol.KeyRotationSafety

open Foundation.ByteString Foundation.CellMemory Foundation.CheckedAccess
open Foundation.InteractingProgram Status HostCommand HostCommandProgram KeyRotation

/-! ### Sequences of replies -/

/-- The payload of a command that succeeded. -/
def acceptedReply : Exchange HostReply → Option (List UInt8)
  | ⟨_, .failed _ _⟩ => none
  | ⟨_, .accepted payload _⟩ => some payload

/-- The payloads that were received, in order. -/
def acceptedReplies (history : HostHistory) : List (List UInt8) :=
  history.filterMap acceptedReply

/-- The array after a sequence of replies. -/
def assembled (data : ℕ → UInt8) (replies : List (List UInt8)) : ℕ → UInt8 :=
  storePackets keyRotationRecordReadChunkTypeMaxSize data replies

/-- A reply leaves the array. -/
def Overflows (earlier : List (List UInt8)) (reply : List UInt8) : Prop :=
  keyRotationFlashAreaSize <
    keyRotationRecordReadChunkTypeMaxSize * earlier.length + reply.length

instance (earlier : List (List UInt8)) (reply : List UInt8) : Decidable (Overflows earlier reply) :=
  inferInstanceAs (Decidable (_ < _))

/-- The word that is taken for the length of the chunk after a reply. -/
def lengthWord (data : ℕ → UInt8) (earlier : List (List UInt8)) (reply : List UInt8) : ℕ :=
  littleEndian (load (assembled data (earlier ++ [reply])) (reply.length - 4) 2)

/-- A reply that the function refuses: it is shorter than the length of the chunk, or what is taken
for that length is too small. -/
def Rejected (data : ℕ → UInt8) (earlier : List (List UInt8)) (reply : List UInt8) : Prop :=
  reply.length < 4 ∨ lengthWord data earlier reply < structChunkSize

/-- The number of bytes to be read: the read size, or what the length in the first reply leaves of
the chunk. -/
def totalReadSize (request : ReadChunkRequest) (replies : List (List UInt8)) : ℕ :=
  knownReadSize request.chunkOffset
    (wordAt (replies.headD []) ((replies.headD []).length - 4) 2) request.readSize

/-- A reply is shorter than its packet and the length of the chunk together. -/
def Short (total : ℕ) (earlier : List (List UInt8)) (reply : List UInt8) : Prop :=
  reply.length < min keyRotationRecordReadChunkTypeMaxSize
    (total - keyRotationRecordReadChunkTypeMaxSize * earlier.length) + 4

instance (total : ℕ) (earlier : List (List UInt8)) (reply : List UInt8) :
    Decidable (Short total earlier reply) :=
  inferInstanceAs (Decidable (_ < _))

/-- A sequence of replies that the function accepts: no command failed, the total fits the array and
no reply was refused. -/
def Completes (request : ReadChunkRequest) (data : ℕ → UInt8) (history : HostHistory) : Prop :=
  (acceptedReplies history).length = history.length ∧
    totalReadSize request (acceptedReplies history) ≤ keyRotationFlashAreaSize ∧
    Unbroken (Rejected data) (acceptedReplies history)

theorem short_iff (total : ℕ) (earlier : List (List UInt8)) (reply : List UInt8) :
    Short total earlier reply ↔ reply.length < min 996 (total - 996 * earlier.length) + 4 :=
  Iff.rfl

theorem maxSize_eq : keyRotationRecordReadChunkTypeMaxSize = 996 := rfl

theorem areaSize_eq : keyRotationFlashAreaSize = 2048 := rfl

theorem acceptedReplies_failed (history : HostHistory) (call : HostCommand) (err : LibhothError)
    (nonzero : err ≠ hothSuccess) :
    acceptedReplies (history ++ [⟨call, .failed err nonzero⟩]) = acceptedReplies history := by
  simp [acceptedReplies, acceptedReply]

theorem acceptedReplies_accepted (history : HostHistory) (call : HostCommand)
    (payload : List UInt8) (fits : PayloadFits payload call.respBufSize call.sized) :
    acceptedReplies (history ++ [⟨call, .accepted payload fits⟩]) =
      acceptedReplies history ++ [payload] := by
  simp [acceptedReplies, acceptedReply]

/-- Later replies do not change the total. -/
theorem totalReadSize_snoc (request : ReadChunkRequest) {replies : List (List UInt8)}
    (hnonempty : replies ≠ []) (reply : List UInt8) :
    totalReadSize request (replies ++ [reply]) = totalReadSize request replies := by
  cases replies with
  | nil => exact absurd rfl hnonempty
  | cons first rest => rfl

/-! ### The loop -/

section Loop

variable {request : ReadChunkRequest} {data : ℕ → UInt8} {state : ReadChunkState}
  {history : HostHistory}

/-- The loop part way through: every reply was accepted and is in the array, and the rest of the
total is still to be read. -/
structure Reading (request : ReadChunkRequest) (data : ℕ → UInt8) (state : ReadChunkState)
    (history : HostHistory) : Prop where
  accepted : (acceptedReplies history).length = history.length
  bounded : history.length ≤ 3
  stored : state.data = assembled data (acceptedReplies history)
  offset : state.readOffset = keyRotationRecordReadChunkTypeMaxSize * history.length
  first : history = [] → state.readSize = request.readSize
  rest : history ≠ [] → 0 < state.readSize ∧
    state.readSize + state.readOffset = totalReadSize request (acceptedReplies history)
  fits : Unbroken Overflows (acceptedReplies history)
  passed : Unbroken (Rejected data) (acceptedReplies history)

/-- How a call ends: it left the array, it failed on replies that do not complete a read, or it
succeeded on replies that do and that cover the total. -/
inductive ReadEnd (request : ReadChunkRequest) (data : ℕ → UInt8) (history : HostHistory) :
    Except Fault ReadChunkResult → Prop
  | fault (hover : ¬Unbroken Overflows (acceptedReplies history)) :
    ReadEnd request data history (.error .writeOutOfBounds)
  | failed (result : ReadChunkResult) (hfits : Unbroken Overflows (acceptedReplies history))
    (herr : result.error ≠ hothSuccess) (hincomplete : ¬Completes request data history) :
    ReadEnd request data history (.ok result)
  | done (hfits : Unbroken Overflows (acceptedReplies history))
    (hcompletes : Completes request data history)
    (hcovers : totalReadSize request (acceptedReplies history) ≤
      keyRotationRecordReadChunkTypeMaxSize * (acceptedReplies history).length) :
    ReadEnd request data history (.ok ⟨hothSuccess,
      some (totalReadSize request (acceptedReplies history)),
      assembled data (acceptedReplies history)⟩)

/-- What a round leaves: the description for the next one, or the end of the call. -/
def RoundEnd (request : ReadChunkRequest) (data : ℕ → UInt8) :
    ReadChunkOutcome state → HostHistory → Prop
  | .inl next, history => Reading request data next.val history
  | .inr result, history => history.length ≤ 3 ∧ ReadEnd request data history result

namespace Reading

/-- Before the first request. -/
theorem initial (request : ReadChunkRequest) (data : ℕ → UInt8) :
    Reading request data ⟨0, request.readSize, data⟩ [] where
  accepted := rfl
  bounded := Nat.zero_le _
  stored := rfl
  offset := rfl
  first := fun _ ↦ rfl
  rest := fun hnonempty ↦ absurd rfl hnonempty
  fits := Unbroken.nil _
  passed := Unbroken.nil _

variable (hreading : Reading request data state history) (response : List UInt8)
include hreading

/-- The array with the next reply. -/
theorem stored_eq : state.stored response =
    assembled data (acceptedReplies history ++ [response]) := by
  rw [ReadChunkState.stored, assembled, storePackets_snoc, hreading.accepted, hreading.offset,
    hreading.stored, assembled]

/-- The word that is read as the length of the chunk. -/
theorem chunkLength_eq :
    state.chunkLength response = lengthWord data (acceptedReplies history) response := by
  rw [ReadChunkState.chunkLength, hreading.stored_eq, lengthWord]

/-- The next reply overflows when it does not fit at the running offset. -/
theorem overflows_iff : Overflows (acceptedReplies history) response ↔
    keyRotationFlashAreaSize < state.readOffset + response.length := by
  rw [Overflows, hreading.accepted, hreading.offset]

/-- What is to be read from the next reply on. -/
theorem known_add_offset (hlong : 4 ≤ response.length) :
    knownReadSize request.chunkOffset (state.chunkLength response) state.readSize +
      state.readOffset = totalReadSize request (acceptedReplies history ++ [response]) := by
  by_cases hempty : history = []
  · have hoffset := hreading.offset
    rw [hempty, List.length_nil, Nat.mul_zero] at hoffset
    rw [ReadChunkState.chunkLength_first hoffset hlong, hreading.first hempty, hoffset, hempty]
    rfl
  · obtain ⟨hmore, htotal⟩ := hreading.rest hempty
    have hnonempty : acceptedReplies history ≠ [] := by
      rw [← List.length_pos_iff, hreading.accepted]
      exact List.length_pos_of_ne_nil hempty
    rw [totalReadSize_snoc request hnonempty, knownReadSize, if_neg hmore.ne', htotal]

end Reading

namespace Reading

/-- At most three replies fit the array. -/
theorem bounded_now (hreading : Reading request data state history) {now : HostHistory}
    (hlength : now.length = history.length + 1)
    (hroom : state.readOffset + state.readSize ≤ keyRotationFlashAreaSize) : now.length ≤ 3 := by
  have harea := areaSize_eq
  have hoffset := hreading.offset
  rw [maxSize_eq] at hoffset
  omega

section Packet

variable (hreading : Reading request data state history) {response : List UInt8} {now : HostHistory}
  (hreplies : acceptedReplies now = acceptedReplies history ++ [response])
include hreading hreplies

/-- The replies still fit the array. -/
theorem fits_now (hfits : state.readOffset + response.length ≤ keyRotationFlashAreaSize) :
    Unbroken Overflows (acceptedReplies now) := by
  rw [hreplies]
  exact hreading.fits.snoc fun hover ↦ not_lt.mpr hfits ((hreading.overflows_iff response).mp hover)

/-- The replies still pass the checks. -/
theorem passed_now (hlong : 4 ≤ response.length)
    (hword : structChunkSize ≤ state.chunkLength response) :
    Unbroken (Rejected data) (acceptedReplies now) := by
  rw [hreplies]
  rw [hreading.chunkLength_eq] at hword
  exact hreading.passed.snoc fun hrejected ↦ hrejected.elim hlong.not_gt hword.not_gt

theorem stored_now : state.stored response = assembled data (acceptedReplies now) := by
  rw [hreplies, hreading.stored_eq]

variable (hlength : now.length = history.length + 1)
include hlength

theorem accepted_now : (acceptedReplies now).length = now.length := by
  rw [hreplies, List.length_append, hreading.accepted, hlength, List.length_singleton]

variable (hroom : state.readOffset + state.readSize ≤ keyRotationFlashAreaSize)
  (hfits : state.readOffset + response.length ≤ keyRotationFlashAreaSize)
  (hlong : 4 ≤ response.length) (hword : structChunkSize ≤ state.chunkLength response)
include hroom hfits hlong hword

/-- A reply with more to come keeps the description. -/
theorem packet_more (hmore : 0 < (state.next request.chunkOffset response).readSize) :
    Reading request data (state.next request.chunkOffset response) now := by
  have harea := areaSize_eq
  have hoffset := hreading.offset
  have htotal := hreading.known_add_offset response hlong
  rw [← hreplies] at htotal
  rw [maxSize_eq] at hoffset
  simp only [ReadChunkState.next, ReadChunkState.advance, readChunkPacketSize_eq] at hmore
  exact {
    accepted := hreading.accepted_now hreplies hlength
    bounded := hreading.bounded_now hlength hroom
    stored := hreading.stored_now hreplies
    offset := by
      simp only [ReadChunkState.next, ReadChunkState.advance, readChunkPacketSize_eq, maxSize_eq]
      omega
    first := fun hempty ↦ by simp [hempty] at hlength
    rest := fun _ ↦ by
      simp only [ReadChunkState.next, ReadChunkState.advance, readChunkPacketSize_eq]
      omega
    fits := hreading.fits_now hreplies hfits
    passed := hreading.passed_now hreplies hlong hword }

/-- The last reply completes the read. -/
theorem packet_last (hlast : (state.next request.chunkOffset response).readSize = 0) :
    ReadEnd request data now (.ok ⟨hothSuccess,
      some (state.next request.chunkOffset response).readOffset, state.stored response⟩) := by
  have harea := areaSize_eq
  have hoffset := hreading.offset
  have haccepted := hreading.accepted_now hreplies hlength
  have hbounded := hreading.bounded_now hlength hroom
  have htotal := hreading.known_add_offset response hlong
  rw [← hreplies] at htotal
  rw [maxSize_eq] at hoffset
  simp only [ReadChunkState.next, ReadChunkState.advance, readChunkPacketSize_eq] at hlast ⊢
  have hend : (state.readOffset + min 996 (knownReadSize request.chunkOffset
      (state.chunkLength response) state.readSize)) % 2 ^ 16 =
        totalReadSize request (acceptedReplies now) := by
    omega
  have hcovers : totalReadSize request (acceptedReplies now) ≤
      keyRotationRecordReadChunkTypeMaxSize * (acceptedReplies now).length := by
    rw [haccepted, hlength, maxSize_eq]
    omega
  have hinside : totalReadSize request (acceptedReplies now) ≤ keyRotationFlashAreaSize := by
    by_cases hunknown : state.readSize = 0
    · have hempty : history = [] := by
        by_contra hnonempty
        exact absurd hunknown (hreading.rest hnonempty).1.ne'
      rw [hempty, List.length_nil] at hoffset
      omega
    · rw [knownReadSize, if_neg hunknown] at htotal
      omega
  rw [hend, hreading.stored_now hreplies]
  exact .done (hreading.fits_now hreplies hfits)
    ⟨haccepted, hinside, hreading.passed_now hreplies hlong hword⟩ hcovers

end Packet

/-- A reply keeps the description or ends the call. -/
theorem packet (hreading : Reading request data state history) (response : List UInt8)
    {now : HostHistory} (hreplies : acceptedReplies now = acceptedReplies history ++ [response])
    (hlength : now.length = history.length + 1)
    (hroom : state.readOffset + state.readSize ≤ keyRotationFlashAreaSize)
    {outcome : ReadChunkOutcome state}
    (hcase : PacketCase request.chunkOffset state response outcome) :
    RoundEnd request data outcome now := by
  have hbounded := hreading.bounded_now hlength hroom
  cases hcase with
  | overflow hover =>
    refine ⟨hbounded, .fault fun hunbroken ↦ ?_⟩
    rw [hreplies, unbroken_snoc_iff] at hunbroken
    exact hunbroken.2 ((hreading.overflows_iff response).mpr hover)
  | rejected err hfits herr hrejected =>
    refine ⟨hbounded, .failed _ (hreading.fits_now hreplies hfits) herr fun hcompletes ↦ ?_⟩
    have hunbroken := hcompletes.2.2
    rw [hreplies, unbroken_snoc_iff] at hunbroken
    rw [hreading.chunkLength_eq] at hrejected
    exact hunbroken.2 hrejected
  | more hfits hlong hword hmore hlt =>
    exact hreading.packet_more hreplies hlength hroom hfits hlong hword hmore
  | last hfits hlong hword hlast =>
    exact ⟨hbounded, hreading.packet_last hreplies hlength hroom hfits hlong hword hlast⟩

end Reading

/-- One round keeps the description or ends the call. -/
theorem readChunkRound_ensures (hsize : request.readSize ≤ keyRotationMaxRecordSize)
    (hreading : Reading request data state history) :
    Ensures recording (readChunkRound request state) history (RoundEnd request data) := by
  have hrecord : keyRotationMaxRecordSize = 2016 := rfl
  have hoffset := hreading.offset
  have hbounded := hreading.bounded
  rw [maxSize_eq] at hoffset
  unfold readChunkRound
  split_ifs with htoolarge
  · rw [pure_eq_done, ensures_done]
    refine ⟨hbounded, .failed _ hreading.fits (cmdExecStatus_ne_success _) fun hcompletes ↦ ?_⟩
    have htotal := hcompletes.2.1
    rw [areaSize_eq] at htoolarge htotal
    by_cases hempty : history = []
    · have hfirst := hreading.first hempty
      rw [hempty, List.length_nil] at hoffset
      omega
    · obtain ⟨-, hrest⟩ := hreading.rest hempty
      omega
  · rw [ensures_bind, ensures_sendKeyRotationReadHelper]
    rintro reply _ rfl
    have hroom : history.length + 1 ≤ 3 := by
      rw [areaSize_eq] at htoolarge
      omega
    cases reply with
    | failed err nonzero =>
      simp only [receivedPacket, pure_eq_done, ensures_done]
      refine ⟨(List.length_append ..).trans_le hroom, .failed _ ?_ nonzero fun hcompletes ↦ ?_⟩
      · rw [acceptedReplies_failed]
        exact hreading.fits
      · have hlength := hcompletes.1
        rw [acceptedReplies_failed, hreading.accepted, List.length_append] at hlength
        simp at hlength
    | accepted response fits =>
      simp only [receivedPacket, pure_eq_done, ensures_done]
      exact hreading.packet response (acceptedReplies_accepted history _ response fits)
        (List.length_append ..) (not_lt.mp htoolarge) (readChunkPacket_cases _ _ _ fits)

/-- Every call with accepted arguments ends after at most three commands, and in one of the three
ways. -/
theorem libhothKeyRotationReadChunkType_ensures
    (hsize : request.readSize ≤ keyRotationMaxRecordSize)
    (hchunk : request.chunkOffset ≤ keyRotationMaxRecordSize) :
    Ensures recording (libhothKeyRotationReadChunkType request data) [] fun result final ↦
      final.length ≤ 3 ∧ ReadEnd request data final result := by
  unfold libhothKeyRotationReadChunkType
  rw [if_neg (not_or.mpr ⟨not_lt.mpr hsize, not_lt.mpr hchunk⟩)]
  refine whileDecreasing_ensures (Reading request data)
    (fun state start hreading ↦ ?_) _ _ (Reading.initial request data)
  exact (readChunkRound_ensures hsize hreading).mono fun outcome _ hend ↦ by
    cases outcome <;> exact hend

end Loop

/-! ### Safety -/

/-- A byte of the array is a byte of its packet, and not of the length after the packet. -/
def DataByte (history : HostHistory) (array : ℕ → UInt8) (index : ℕ) : Prop :=
  ∃ reply, (acceptedReplies history)[index / keyRotationRecordReadChunkTypeMaxSize]? = some reply ∧
    index % keyRotationRecordReadChunkTypeMaxSize < reply.length - 4 ∧
    reply[index % keyRotationRecordReadChunkTypeMaxSize]? = some (array index)

/-- What a call owes its caller whatever the device replies: it ends, it stores inside the array,
and on success it reports data bytes only. -/
structure ReadSafe (result : Except Fault ReadChunkResult) (history : HostHistory) : Prop where
  ends : history.length ≤ 3
  inside : ∀ fault, result ≠ .error fault
  dataBytes : ∀ out, result = .ok out → out.error = hothSuccess →
    ∃ size, out.responseSize = some size ∧ ∀ index < size, DataByte history out.data index

/-- The replies of a completed read give data bytes exactly when none of them is short. -/
theorem dataBytes_iff {request : ReadChunkRequest} {data : ℕ → UInt8} {history : HostHistory}
    (hcompletes : Completes request data history)
    (hcovers : totalReadSize request (acceptedReplies history) ≤
      keyRotationRecordReadChunkTypeMaxSize * (acceptedReplies history).length) :
    (∀ index < totalReadSize request (acceptedReplies history),
        DataByte history (assembled data (acceptedReplies history)) index) ↔
      Unbroken (Short (totalReadSize request (acceptedReplies history)))
        (acceptedReplies history) := by
  simp only [DataByte, assembled, maxSize_eq] at hcovers ⊢
  constructor
  · intro hdata before reply after hsplit hshort
    rw [short_iff] at hshort
    have hlong : 4 ≤ reply.length := by
      by_contra hnotLong
      exact hcompletes.2.2 before reply after hsplit (.inl (not_le.mp hnotLong))
    obtain ⟨found, hfound, hindex, -⟩ :=
      hdata (996 * before.length + (reply.length - 4)) (by omega)
    have hdiv : (996 * before.length + (reply.length - 4)) / 996 = before.length := by omega
    have hmod : (996 * before.length + (reply.length - 4)) % 996 = reply.length - 4 := by omega
    rw [hdiv, hsplit, List.getElem?_append_right le_rfl, Nat.sub_self,
      List.getElem?_cons_zero, Option.some.injEq] at hfound
    rw [hmod, hfound] at hindex
    exact absurd hindex (lt_irrefl _)
  · intro hunbroken index hindex
    have hpacket : index / 996 < (acceptedReplies history).length := by omega
    have hfound := List.getElem?_eq_getElem hpacket
    have hlength := hunbroken.not_ends hfound
    rw [short_iff, List.length_take, min_eq_left hpacket.le] at hlength
    have hinside : index % 996 < (acceptedReplies history)[index / 996].length := by omega
    refine ⟨_, hfound, by omega, ?_⟩
    rw [storePackets_apply data hfound hinside (by norm_num)]
    exact List.getElem?_eq_getElem hinside

/-- For all accepted arguments, every device and every run: the call is safe exactly when no reply
leaves the array and, if the replies complete a read, none of them is short. -/
theorem libhothKeyRotationReadChunkType_safe_iff (request : ReadChunkRequest) (data : ℕ → UInt8)
    (hsize : request.readSize ≤ keyRotationMaxRecordSize)
    (hchunk : request.chunkOffset ≤ keyRotationMaxRecordSize)
    (result : Except Fault ReadChunkResult) (history : HostHistory)
    (hrun : Runs recording (libhothKeyRotationReadChunkType request data) [] result history) :
    ReadSafe result history ↔ Unbroken Overflows (acceptedReplies history) ∧
      (Completes request data history →
        Unbroken (Short (totalReadSize request (acceptedReplies history)))
          (acceptedReplies history)) := by
  obtain ⟨hends, hend⟩ := libhothKeyRotationReadChunkType_ensures hsize hchunk result history hrun
  cases hend with
  | fault hover =>
    exact iff_of_false (fun hsafe ↦ hsafe.inside _ rfl) fun hcondition ↦ hover hcondition.1
  | failed out hfits herr hincomplete =>
    refine iff_of_true ⟨hends, fun _ hfault ↦ by simp at hfault, fun other hother hsuccess ↦ ?_⟩
      ⟨hfits, fun hcompletes ↦ absurd hcompletes hincomplete⟩
    exact absurd hsuccess (Except.ok.inj hother ▸ herr)
  | done hfits hcompletes hcovers =>
    have hbytes := dataBytes_iff hcompletes hcovers
    constructor
    · intro hsafe
      obtain ⟨size, hreported, hdata⟩ := hsafe.dataBytes _ rfl rfl
      rw [Option.some.injEq] at hreported
      exact ⟨hfits, fun _ ↦ hbytes.mp (hreported ▸ hdata)⟩
    · rintro ⟨-, hlong⟩
      refine ⟨hends, fun _ hfault ↦ by simp at hfault, fun out hout _ ↦ ?_⟩
      rw [← Except.ok.inj hout]
      exact ⟨_, rfl, hbytes.mpr (hlong hcompletes)⟩

/-! ### Reads of one packet -/

/-- The request for the first packet. -/
def firstPacketCall (request : ReadChunkRequest) (data : ℕ → UInt8) : HostCommand :=
  keyRotationCall (request.header ⟨0, request.readSize, data⟩) request.encode readChunkBufferSize

/-- A reply that ends the call in its first round makes a run. -/
theorem runs_onePacket {request : ReadChunkRequest} {data : ℕ → UInt8}
    (hsize : request.readSize ≤ keyRotationMaxRecordSize)
    (hchunk : request.chunkOffset ≤ keyRotationMaxRecordSize) {response : List UInt8}
    (hbuffer : response.length ≤ readChunkBufferSize) {result : Except Fault ReadChunkResult}
    (hpacket : readChunkPacket request.chunkOffset ⟨0, request.readSize, data⟩ response =
      .inr result) :
    Runs recording (libhothKeyRotationReadChunkType request data) [] result
      [⟨firstPacketCall request data, .accepted response hbuffer⟩] := by
  have hinside : ¬0 + request.readSize > keyRotationFlashAreaSize := by
    have hrecord : keyRotationMaxRecordSize = 2016 := rfl
    rw [areaSize_eq]
    omega
  have hround : Runs recording (readChunkRound request ⟨0, request.readSize, data⟩) []
      (.inr result) ([] ++ [⟨firstPacketCall request data, .accepted response hbuffer⟩]) := by
    unfold readChunkRound
    rw [if_neg hinside, runs_bind]
    refine ⟨.ok response, _, ?_, hpacket.symm, rfl⟩
    exact ⟨.accepted response hbuffer, _, rfl, rfl, rfl⟩
  unfold libhothKeyRotationReadChunkType
  rw [if_neg (not_or.mpr ⟨not_lt.mpr hsize, not_lt.mpr hchunk⟩)]
  exact (runs_whileDecreasing _ _ _ _).mpr ⟨_, _, hround, rfl, rfl⟩

/-- A reply of two bytes and the length of the chunk is a safe answer to a read of two bytes. -/
theorem libhothKeyRotationReadChunkType_safe_iff_two_bytes :
    ∃ result history, Runs recording
      (libhothKeyRotationReadChunkType ⟨0x59454B50, 0, 0, 2, 0⟩ fun _ ↦ 0) [] result history ∧
        acceptedReplies history = [[1, 2, 8, 0, 0, 0]] ∧ ReadSafe result history := by
  have hrun := @runs_onePacket ⟨0x59454B50, 0, 0, 2, 0⟩ (fun _ ↦ 0) (by decide) (by decide)
    [1, 2, 8, 0, 0, 0] (by decide) _ rfl
  refine ⟨_, _, hrun, rfl, (libhothKeyRotationReadChunkType_safe_iff _ _ (by decide) (by decide) _ _
    hrun).mpr ⟨?_, fun _ ↦ ?_⟩⟩
  · exact (Unbroken.nil Overflows).snoc (by decide)
  · exact (Unbroken.nil _).snoc (by decide)

/-- A reply that holds the length of the chunk only is accepted for a read of two bytes, and the
first two bytes of the length are returned as data. -/
theorem libhothKeyRotationReadChunkType_short_reply :
    ∃ result history, Runs recording
      (libhothKeyRotationReadChunkType ⟨0x59454B50, 0, 0, 2, 0⟩ fun _ ↦ 0) [] result history ∧
        acceptedReplies history = [[8, 0, 0, 0]] ∧ ¬ReadSafe result history := by
  have hrun := @runs_onePacket ⟨0x59454B50, 0, 0, 2, 0⟩ (fun _ ↦ 0) (by decide) (by decide)
    [8, 0, 0, 0] (by decide) _ rfl
  refine ⟨_, _, hrun, rfl, fun hsafe ↦ ?_⟩
  obtain ⟨size, hreported, hdata⟩ := hsafe.dataBytes _ rfl rfl
  obtain rfl := Option.some.inj hreported
  obtain ⟨reply, hreply, hindex, -⟩ := hdata 0 (by decide)
  obtain rfl := Option.some.inj hreply
  exact absurd hindex (by decide)

end Libhoth.Protocol.KeyRotationSafety
