import Libhoth.Protocol.KeyRotation

/-!
# Reading a chunk from a device that holds it

`chunkReply` is a device that holds a chunk of the key rotation record and answers each request with
the bytes asked for and the length of the chunk. `libhothKeyRotationReadChunkType_reads_iff` says on
which chunks `libhoth_key_rotation_read_chunk_type` returns those bytes: from the second packet on
the function looks for the length of the chunk among the bytes of the chunk, and it goes on only
when it finds a large enough number there (`LengthWordsPass`).

`ChunkProgress` is the invariant of the loop: the bytes before the running offset are in the array,
the rest of the total is still to be read, and every number found so far was large enough.
-/

set_option autoImplicit false
set_option relaxedAutoImplicit false

namespace Libhoth.Protocol.KeyRotationChunk

open Foundation.ByteString Foundation.CellMemory Foundation.CheckedAccess
open Foundation.InteractingProgram Status HostCommand HostCommandProgram KeyRotation

/-! ### The device -/

/-- The answer to a request for a packet: the bytes of the chunk, as many as fit for a packet size
of zero, and the length of the chunk. -/
def chunkBytes (chunk : List UInt8) (packetOffset packetSize : ℕ) : List UInt8 :=
  slice chunk packetOffset
      (if packetSize = 0 then min (chunk.length - packetOffset) 996 else packetSize) ++
    toLittleEndian 4 chunk.length

/-- The reply of a device that holds a chunk. -/
def chunkReply (chunk : List UInt8) (call : HostCommand) : HostReply call :=
  if hfits : PayloadFits (chunkBytes chunk (wordAt call.payload 2 2) (wordAt call.payload 4 2))
      call.respBufSize call.sized then .accepted _ hfits
  else .failed (cmdExecStatus .responseBufferOverflow) (cmdExecStatus_ne_success _)

theorem chunkReply_of_bytes {chunk bytes : List UInt8} {call : HostCommand}
    (hbytes : chunkBytes chunk (wordAt call.payload 2 2) (wordAt call.payload 4 2) = bytes)
    (fits : PayloadFits bytes call.respBufSize call.sized) :
    chunkReply chunk call = .accepted bytes fits := by
  subst hbytes
  exact dif_pos fits

/-- The fields of a request are read back, cut to sixteen bits. -/
theorem wordAt_keyRotationCall (header : HothRequestKeyRotationRecord) (payload : List UInt8)
    (size : ℕ) :
    wordAt (keyRotationCall header payload size).payload 2 2 = header.packetOffset % 256 ^ 2 ∧
      wordAt (keyRotationCall header payload size).payload 4 2 = header.packetSize % 256 ^ 2 := by
  have hoffset : slice (keyRotationCall header payload size).payload 2 2 =
      toLittleEndian 2 header.packetOffset := rfl
  have hsize : slice (keyRotationCall header payload size).payload 4 2 =
      toLittleEndian 2 header.packetSize := rfl
  rw [wordAt, wordAt, hoffset, hsize, littleEndian_toLittleEndian, littleEndian_toLittleEndian]
  exact ⟨rfl, rfl⟩

/-! ### What is to be read -/

/-- The read that is asked for lies inside a chunk of a valid length. -/
structure ValidRead (chunk : List UInt8) (request : ReadChunkRequest) : Prop where
  smallest : structChunkSize ≤ chunk.length
  largest : chunk.length ≤ keyRotationMaxRecordSize
  offset : request.chunkOffset ≤ chunk.length
  inside : request.chunkOffset + request.readSize ≤ chunk.length

/-- The number of bytes that are asked for. -/
def requestedSize (chunk : List UInt8) (request : ReadChunkRequest) : ℕ :=
  if request.readSize = 0 then chunk.length - request.chunkOffset else request.readSize

/-- The call succeeded with the bytes that were asked for. -/
def ReadsChunk (chunk : List UInt8) (request : ReadChunkRequest)
    (result : Except Fault ReadChunkResult) : Prop :=
  ∃ data, result = .ok ⟨hothSuccess, some (requestedSize chunk request), data⟩ ∧
    ∀ index < requestedSize chunk request, chunk[request.chunkOffset + index]? = some (data index)

/-- In every packet after the first, the two bytes of the chunk at the length of the packet from the
start of the read make a number of at least eight. -/
def LengthWordsPass (chunk : List UInt8) (request : ReadChunkRequest) : Prop :=
  ∀ packet, 0 < packet → 996 * packet < requestedSize chunk request →
    structChunkSize ≤ wordAt chunk
      (request.chunkOffset + min 996 (requestedSize chunk request - 996 * packet)) 2

/-! ### The loop -/

section Loop

variable {chunk : List UInt8} {request : ReadChunkRequest} {state : ReadChunkState} {packet : ℕ}

/-- The loop before a packet. -/
structure ChunkProgress (chunk : List UInt8) (request : ReadChunkRequest) (state : ReadChunkState)
    (packet : ℕ) : Prop where
  offset : state.readOffset = 996 * packet
  first : packet = 0 → state.readSize = request.readSize
  rest : 0 < packet → 0 < state.readSize ∧
    state.readSize + state.readOffset = requestedSize chunk request
  data : ∀ index < state.readOffset,
    chunk[request.chunkOffset + index]? = some (state.data index)
  passed : ∀ earlier, 0 < earlier → earlier < packet → structChunkSize ≤ wordAt chunk
    (request.chunkOffset + min 996 (requestedSize chunk request - 996 * earlier)) 2

/-- The bytes of the chunk in the next packet. -/
def packetBytes (chunk : List UInt8) (request : ReadChunkRequest) (state : ReadChunkState) :
    List UInt8 :=
  slice chunk (request.chunkOffset + state.readOffset)
    (min 996 (requestedSize chunk request - state.readOffset))

/-- The reply to the next request. -/
def packetReply (chunk : List UInt8) (request : ReadChunkRequest) (state : ReadChunkState) :
    List UInt8 :=
  packetBytes chunk request state ++ toLittleEndian 4 chunk.length

theorem requestedSize_le (hvalid : ValidRead chunk request) :
    request.chunkOffset + requestedSize chunk request ≤ chunk.length := by
  obtain ⟨-, -, hoffset, hinside⟩ := hvalid
  unfold requestedSize
  split_ifs <;> omega

theorem chunk_length_le (hvalid : ValidRead chunk request) : chunk.length ≤ 2016 :=
  hvalid.largest

namespace ChunkProgress

/-- Before the first packet. -/
theorem initial (chunk : List UInt8) (request : ReadChunkRequest) (data : ℕ → UInt8) :
    ChunkProgress chunk request ⟨0, request.readSize, data⟩ 0 where
  offset := rfl
  first := fun _ ↦ rfl
  rest := fun hpositive ↦ absurd hpositive (lt_irrefl _)
  data := fun _ hindex ↦ absurd hindex (Nat.not_lt_zero _)
  passed := fun _ _ hearlier ↦ absurd hearlier (Nat.not_lt_zero _)

variable (hprogress : ChunkProgress chunk request state packet)
include hprogress

/-- The running offset and what is to be read are inside the requested range. -/
theorem readSize_add_readOffset_le :
    state.readSize + state.readOffset ≤ requestedSize chunk request := by
  rcases Nat.eq_zero_or_pos packet with hfirst | hlater
  · rw [hprogress.offset, hprogress.first hfirst, hfirst, requestedSize]
    split_ifs <;> omega
  · exact (hprogress.rest hlater).2.le

/-- The size of the next request is the size of the next packet, or zero when it is unknown. -/
theorem readSize_cases :
    state.readSize = requestedSize chunk request - state.readOffset ∧ 0 < state.readSize ∨
      state.readSize = 0 ∧ packet = 0 ∧
        requestedSize chunk request = chunk.length - request.chunkOffset := by
  rcases Nat.eq_zero_or_pos packet with hfirst | hlater
  · have hoffset := hprogress.offset
    rw [hprogress.first hfirst, requestedSize]
    rw [hfirst] at hoffset
    split_ifs with hunknown
    · exact .inr ⟨hunknown, hfirst, rfl⟩
    · exact .inl ⟨by omega, Nat.pos_of_ne_zero hunknown⟩
  · obtain ⟨hpositive, htotal⟩ := hprogress.rest hlater
    exact .inl ⟨by omega, hpositive⟩

variable (hvalid : ValidRead chunk request)
include hvalid

theorem length_packetBytes : (packetBytes chunk request state).length =
    min 996 (requestedSize chunk request - state.readOffset) := by
  have hsize := requestedSize_le hvalid
  have hle := hprogress.readSize_add_readOffset_le
  exact length_slice_of_le (by omega)

theorem length_packetReply : (packetReply chunk request state).length =
    min 996 (requestedSize chunk request - state.readOffset) + 4 := by
  rw [packetReply, List.length_append, hprogress.length_packetBytes hvalid, length_toLittleEndian]

/-- The device answers the next request with the next packet. -/
theorem chunkReply_eq : ∃ fits, chunkReply chunk
    (keyRotationCall (request.header state) request.encode readChunkBufferSize) =
      .accepted (packetReply chunk request state) fits := by
  have hsize := requestedSize_le hvalid
  have hle := hprogress.readSize_add_readOffset_le
  have hchunk := chunk_length_le hvalid
  have hbytes : chunkBytes chunk (state.readOffset + request.chunkOffset)
      (min 996 state.readSize) = packetReply chunk request state := by
    rw [chunkBytes, packetReply, packetBytes, Nat.add_comm state.readOffset]
    congr 2
    rcases hprogress.readSize_cases with ⟨hrest, hpositive⟩ | ⟨hunknown, hfirst, htotal⟩
    · rw [if_neg (by omega), hrest]
    · have hoffset := hprogress.offset
      rw [hfirst] at hoffset
      rw [hunknown, hoffset, htotal, Nat.min_zero, if_pos rfl, Nat.mul_zero, Nat.add_zero,
        Nat.sub_zero, Nat.min_comm]
  have hfits : (packetReply chunk request state).length ≤ readChunkBufferSize := by
    have hbuffer : readChunkBufferSize = 1000 := rfl
    rw [hprogress.length_packetReply hvalid]
    omega
  obtain ⟨hoffset, hpacket⟩ :=
    wordAt_keyRotationCall (request.header state) request.encode readChunkBufferSize
  have hpacketOffset : (request.header state).packetOffset =
      state.readOffset + request.chunkOffset := rfl
  have hpacketSize : (request.header state).packetSize = min 996 state.readSize :=
    readChunkPacketSize_eq _
  have hanswer : chunkBytes chunk
      (wordAt (keyRotationCall (request.header state) request.encode readChunkBufferSize).payload 2 2)
      (wordAt (keyRotationCall (request.header state) request.encode readChunkBufferSize).payload 4 2) =
        packetReply chunk request state := by
    rw [hoffset, hpacket, hpacketOffset, hpacketSize, Nat.mod_eq_of_lt (by omega),
      Nat.mod_eq_of_lt (by omega), hbytes]
  exact ⟨hfits, chunkReply_of_bytes hanswer hfits⟩

/-- The array with the next reply holds the chunk up to the end of the packet. -/
theorem stored_packetReply {index : ℕ} (hindex : index < state.readOffset +
    min 996 (requestedSize chunk request - state.readOffset)) :
    chunk[request.chunkOffset + index]? =
      some (state.stored (packetReply chunk request state) index) := by
  have hlength := hprogress.length_packetBytes hvalid
  have hreply := hprogress.length_packetReply hvalid
  rcases Nat.lt_or_ge index state.readOffset with hbelow | hinside
  · rw [ReadChunkState.stored, store_of_lt _ _ hbelow]
    exact hprogress.data index hbelow
  · have hplace : request.chunkOffset + state.readOffset + (index - state.readOffset) =
        request.chunkOffset + index := by omega
    have hfound := getElem?_store state.data hinside
      (hindex.trans_le (Nat.add_le_add_left (hreply ▸ Nat.le_add_right _ 4) _))
    rw [packetReply, List.getElem?_append_left (by omega), packetBytes, getElem?_slice,
      if_pos (by omega), hplace] at hfound
    exact hfound

/-- In the first round the number that is found is the length of the chunk. -/
theorem chunkLength_first (hfirst : packet = 0) :
    state.chunkLength (packetReply chunk request state) = chunk.length := by
  have hoffset := hprogress.offset
  rw [hfirst, Nat.mul_zero] at hoffset
  have hchunk := chunk_length_le hvalid
  have hreply := hprogress.length_packetReply hvalid
  have hlength := hprogress.length_packetBytes hvalid
  have hplace : (packetReply chunk request state).length - 4 =
      (packetBytes chunk request state).length + 0 := by omega
  have htrailer : slice (toLittleEndian 4 chunk.length) 0 2 = toLittleEndian 2 chunk.length := rfl
  rw [ReadChunkState.chunkLength_first hoffset (by omega), hplace, packetReply,
    wordAt_append_right, wordAt, htrailer, littleEndian_toLittleEndian]
  exact Nat.mod_eq_of_lt (by omega)

/-- In a later round it is made of bytes of the chunk. -/
theorem chunkLength_later (hlater : 0 < packet) :
    state.chunkLength (packetReply chunk request state) =
      wordAt chunk (request.chunkOffset +
        min 996 (requestedSize chunk request - 996 * packet)) 2 := by
  have hoffset := hprogress.offset
  obtain ⟨hpositive, htotal⟩ := hprogress.rest hlater
  have hsize := requestedSize_le hvalid
  have hreply := hprogress.length_packetReply hvalid
  have hplace : (packetReply chunk request state).length - 4 =
      min 996 (requestedSize chunk request - 996 * packet) := by omega
  have hslice : (slice chunk (request.chunkOffset +
      min 996 (requestedSize chunk request - 996 * packet)) 2).length = 2 :=
    length_slice_of_le (by omega)
  rw [ReadChunkState.chunkLength, hplace, wordAt, load_eq_of_getElem? hslice]
  intro index hindex
  rw [getElem?_slice, if_pos hindex, Nat.add_assoc]
  exact hprogress.stored_packetReply hvalid (by omega)

/-- What is to be read from the next packet on, once the first reply has been looked at. -/
theorem knownReadSize_eq : knownReadSize request.chunkOffset
    (state.chunkLength (packetReply chunk request state)) state.readSize =
      requestedSize chunk request - state.readOffset := by
  rcases hprogress.readSize_cases with ⟨hrest, hpositive⟩ | ⟨hunknown, hfirst, htotal⟩
  · rw [knownReadSize, if_neg hpositive.ne', hrest]
  · have hoffset := hprogress.offset
    have hchunk := chunk_length_le hvalid
    have hinside := hvalid.offset
    rw [hprogress.chunkLength_first hvalid hfirst, knownReadSize, if_pos hunknown, htotal]
    omega

/-- The number found in a round is large enough when the read has the numbers it needs. -/
theorem le_chunkLength (hpass : LengthWordsPass chunk request) :
    structChunkSize ≤ state.chunkLength (packetReply chunk request state) := by
  rcases Nat.eq_zero_or_pos packet with hfirst | hlater
  · rw [hprogress.chunkLength_first hvalid hfirst]
    exact hvalid.smallest
  · have hoffset := hprogress.offset
    obtain ⟨hpositive, htotal⟩ := hprogress.rest hlater
    rw [hprogress.chunkLength_later hvalid hlater]
    exact hpass packet hlater (by omega)

/-- A round in which the number was large enough extends the list of those that were. -/
theorem passed_succ (hword : structChunkSize ≤
    state.chunkLength (packetReply chunk request state)) :
    ∀ earlier, 0 < earlier → earlier < packet + 1 → structChunkSize ≤ wordAt chunk
      (request.chunkOffset + min 996 (requestedSize chunk request - 996 * earlier)) 2 := by
  intro earlier hpositive hearlier
  rcases Nat.lt_succ_iff_lt_or_eq.mp hearlier with hbefore | rfl
  · exact hprogress.passed earlier hpositive hbefore
  · rw [← hprogress.chunkLength_later hvalid hpositive]
    exact hword

end ChunkProgress

/-- What a round leaves: progress to another packet, or a result that is the chunk exactly when the
read has the numbers it needs. -/
def ChunkEnd (chunk : List UInt8) (request : ReadChunkRequest) : ReadChunkOutcome state → Prop
  | .inl next => ∃ packet, ChunkProgress chunk request next.val packet
  | .inr result => ReadsChunk chunk request result ↔ LengthWordsPass chunk request

/-- The next packet makes progress or ends the call. -/
theorem ChunkProgress.packetEnd (hprogress : ChunkProgress chunk request state packet)
    (hvalid : ValidRead chunk request) {outcome : ReadChunkOutcome state}
    (hcase : PacketCase request.chunkOffset state (packetReply chunk request state) outcome) :
    ChunkEnd chunk request outcome := by
  have harea : keyRotationFlashAreaSize = 2048 := rfl
  have hoffset := hprogress.offset
  have hsize := requestedSize_le hvalid
  have hle := hprogress.readSize_add_readOffset_le
  have hchunk := chunk_length_le hvalid
  have hreply := hprogress.length_packetReply hvalid
  have hknown := hprogress.knownReadSize_eq hvalid
  cases hcase with
  | overflow hover => omega
  | rejected err hfits herr hrejected =>
    refine iff_of_false ?_ fun hpass ↦ ?_
    · rintro ⟨data, hresult, -⟩
      exact herr (congrArg ReadChunkResult.error (Except.ok.inj hresult))
    · rcases hrejected with hshort | hsmall
      · omega
      · exact absurd (hprogress.le_chunkLength hvalid hpass) (not_le.mpr hsmall)
  | more hfits hlong hword hmore hlt =>
    simp only [ReadChunkState.next, ReadChunkState.advance, hknown, readChunkPacketSize_eq] at hmore
    refine ⟨packet + 1, ?_⟩
    simp only [ReadChunkState.next, ReadChunkState.advance, hknown, readChunkPacketSize_eq]
    exact {
      offset := by simp only; omega
      first := fun hzero ↦ absurd hzero (Nat.succ_ne_zero packet)
      rest := fun _ ↦ by simp only; omega
      data := fun index hindex ↦ hprogress.stored_packetReply hvalid (by simp only at hindex; omega)
      passed := hprogress.passed_succ hvalid hword }
  | last hfits hlong hword hlast =>
    simp only [ReadChunkState.next, ReadChunkState.advance, hknown, readChunkPacketSize_eq]
      at hlast ⊢
    have hend : (state.readOffset + min 996 (requestedSize chunk request - state.readOffset)) %
        2 ^ 16 = requestedSize chunk request := by omega
    rw [hend]
    refine iff_of_true ⟨_, rfl, fun index hindex ↦ ?_⟩ fun later hlater hinside ↦ ?_
    · exact hprogress.stored_packetReply hvalid (by omega)
    · exact hprogress.passed_succ hvalid hword later hlater (by omega)

/-- One round against the device makes progress or ends the call. -/
theorem readChunkRound_ensures (hprogress : ChunkProgress chunk request state packet)
    (hvalid : ValidRead chunk request) :
    Ensures (answering (chunkReply chunk)) (readChunkRound request state) () fun outcome _ ↦
      ChunkEnd chunk request outcome := by
  have hroom : ¬state.readOffset + state.readSize > keyRotationFlashAreaSize := by
    have harea : keyRotationFlashAreaSize = 2048 := rfl
    have hsize := requestedSize_le hvalid
    have hle := hprogress.readSize_add_readOffset_le
    have hchunk := chunk_length_le hvalid
    omega
  obtain ⟨fits, hanswer⟩ := hprogress.chunkReply_eq hvalid
  unfold readChunkRound
  rw [if_neg hroom, ensures_bind, ensures_sendKeyRotationReadHelper]
  intro reply _ hreply
  have hreceived : reply = .accepted (packetReply chunk request state) fits := hreply.trans hanswer
  rw [hreceived]
  simp only [receivedPacket, pure_eq_done, ensures_done]
  exact hprogress.packetEnd hvalid (readChunkPacket_cases _ _ _ fits)

/-- A call against the device ends in a result that is the chunk exactly when the read has the
numbers it needs. -/
theorem libhothKeyRotationReadChunkType_ensures (hvalid : ValidRead chunk request)
    (data : ℕ → UInt8) :
    Ensures (answering (chunkReply chunk)) (libhothKeyRotationReadChunkType request data) ()
      fun result _ ↦ ReadsChunk chunk request result ↔ LengthWordsPass chunk request := by
  have hrecord : keyRotationMaxRecordSize = 2016 := rfl
  have hchunk := chunk_length_le hvalid
  have hoffset := hvalid.offset
  have hinside := hvalid.inside
  have hvalidArguments : ¬(request.readSize > keyRotationMaxRecordSize ∨
      request.chunkOffset > keyRotationMaxRecordSize) := by omega
  unfold libhothKeyRotationReadChunkType
  rw [if_neg hvalidArguments]
  refine whileDecreasing_ensures (fun state _ ↦ ∃ packet, ChunkProgress chunk request state packet)
    (fun state _ hprogress ↦ ?_) _ _ ⟨0, .initial chunk request data⟩
  obtain ⟨packet, hprogress⟩ := hprogress
  exact (readChunkRound_ensures hprogress hvalid).mono fun outcome _ hend ↦ by
    cases outcome <;> exact hend

end Loop

/-- For every chunk, every valid read of it and every initial array: the call has a run, and it
returns the bytes that were asked for exactly when the read has the numbers it needs among the bytes
of the chunk. -/
theorem libhothKeyRotationReadChunkType_reads_iff (chunk : List UInt8) (request : ReadChunkRequest)
    (hvalid : ValidRead chunk request) (data : ℕ → UInt8) :
    (∃ result, Runs (answering (chunkReply chunk)) (libhothKeyRotationReadChunkType request data) ()
      result ()) ∧
      ∀ result, Runs (answering (chunkReply chunk)) (libhothKeyRotationReadChunkType request data) ()
        result () → (ReadsChunk chunk request result ↔ LengthWordsPass chunk request) :=
  ⟨exists_runs_answering _ _, fun result hrun ↦
    libhothKeyRotationReadChunkType_ensures hvalid data result () hrun⟩

/-- A chunk of a thousand equal bytes. -/
@[irreducible] def uniformChunk (byte : UInt8) : List UInt8 := List.replicate 1000 byte

/-- The read of a whole chunk from its start. -/
def wholeChunk : ReadChunkRequest where
  chunkTypecode := 0x59454B50
  chunkIndex := 0
  chunkOffset := 0
  readSize := 0
  reserved := 0

theorem length_uniformChunk (byte : UInt8) : (uniformChunk byte).length = 1000 := by
  rw [uniformChunk, List.length_replicate]

theorem validRead_uniformChunk (byte : UInt8) : ValidRead (uniformChunk byte) wholeChunk where
  smallest := by rw [length_uniformChunk]; decide
  largest := by rw [length_uniformChunk]; decide
  offset := Nat.zero_le _
  inside := Nat.zero_le _

/-- Its only packet after the first finds two of the bytes. -/
theorem lengthWordsPass_uniformChunk_iff (byte : UInt8) :
    LengthWordsPass (uniformChunk byte) wholeChunk ↔
      structChunkSize ≤ littleEndian [byte, byte] := by
  have hrequested : requestedSize (uniformChunk byte) wholeChunk = 1000 := by
    rw [requestedSize, length_uniformChunk]
    rfl
  have hword : wordAt (uniformChunk byte) 4 2 = littleEndian [byte, byte] := by
    rw [wordAt, slice, uniformChunk, List.drop_replicate, List.take_replicate]
    rfl
  rw [LengthWordsPass, hrequested]
  constructor
  · intro hpass
    exact hword ▸ hpass 1 Nat.one_pos (by decide)
  · intro hlarge packet hpositive hinside
    obtain rfl : packet = 1 := by omega
    exact hword.symm ▸ hlarge

/-- A chunk of ones is read in two packets. -/
theorem libhothKeyRotationReadChunkType_reads_iff_ones :
    ∃ result, Runs (answering (chunkReply (uniformChunk 1)))
        (libhothKeyRotationReadChunkType wholeChunk fun _ ↦ 0) () result () ∧
      ReadsChunk (uniformChunk 1) wholeChunk result := by
  obtain ⟨⟨result, hrun⟩, hreads⟩ := libhothKeyRotationReadChunkType_reads_iff (uniformChunk 1)
    wholeChunk (validRead_uniformChunk 1) fun _ ↦ 0
  have hpass := (lengthWordsPass_uniformChunk_iff 1).mpr (by decide)
  exact ⟨result, hrun, (hreads result hrun).mpr hpass⟩

/-- A chunk of zeros is not returned: the second packet is refused for a length of zero. -/
theorem libhothKeyRotationReadChunkType_zeros :
    ValidRead (uniformChunk 0) wholeChunk ∧
      ∃ result, Runs (answering (chunkReply (uniformChunk 0)))
          (libhothKeyRotationReadChunkType wholeChunk fun _ ↦ 0) () result () ∧
        ¬ReadsChunk (uniformChunk 0) wholeChunk result := by
  obtain ⟨result, hrun⟩ := exists_runs_answering (chunkReply (uniformChunk 0))
    (libhothKeyRotationReadChunkType wholeChunk fun _ ↦ 0)
  have hreads := libhothKeyRotationReadChunkType_ensures (validRead_uniformChunk 0) _
    result () hrun
  have hrefused : ¬LengthWordsPass (uniformChunk 0) wholeChunk := by
    rw [lengthWordsPass_uniformChunk_iff]
    decide
  exact ⟨validRead_uniformChunk 0, result, hrun, fun hread ↦ hrefused (hreads.mp hread)⟩

end Libhoth.Protocol.KeyRotationChunk
