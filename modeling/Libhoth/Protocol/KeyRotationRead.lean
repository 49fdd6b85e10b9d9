import Libhoth.Foundation.RangeTiling
import Libhoth.Protocol.KeyRotation

/-!
# Reading a range of the key rotation record

`libhoth_key_rotation_read` of `key_rotation.c`. `libhothKeyRotationRead_ensures` says what a call
does against every device: it sends the packets of a tiling of the requested range, stores each
reply behind the ones before it, and succeeds exactly when every reply had the requested size.

The offset of a packet on the wire is the sum of the running offset and the offset into the record,
cut to sixteen bits, and the check in the loop is about another sum. `readContract_iff` says for
which arguments the packets stay inside the record area against every device that answers for that
area (`AnswersInside`): those that are refused and those that end inside it.
-/

set_option autoImplicit false
set_option relaxedAutoImplicit false

namespace Libhoth.Protocol.KeyRotationRead

open Foundation.ByteString Foundation.CellMemory Foundation.CheckedAccess
open Foundation.InteractingProgram Foundation.RangeTiling
open Status HostCommand HostCommandProgram KeyRotation

/-! ### The program -/

/-- `KEY_ROTATION_RECORD_READ_MAX_SIZE`. -/
def keyRotationRecordReadMaxSize : ℕ := libhothMailboxSize - 8 - 8 - 4

/-- The arguments of `libhoth_key_rotation_read`, the numbers as the C types hold them, and the
`reserved` field that the helper leaves uninitialized in the request at each running offset. -/
structure RecordReadRequest where
  recordOffset : ℕ
  readSize : ℕ
  readHalf : ℕ
  reserved : ℕ → ℕ

/-- `struct hoth_request_key_rotation_record_read`. -/
def RecordReadRequest.encode (request : RecordReadRequest) : List UInt8 :=
  toLittleEndian 4 request.readHalf

/-- The variables of `libhoth_key_rotation_read`: the running offset, the bytes still to be read,
and the caller's array. -/
structure RecordReadState where
  readOffset : ℕ
  readSize : ℕ
  data : ℕ → UInt8

/-- What a call leaves its caller: an error word and the array. -/
structure RecordReadResult where
  error : LibhothError
  data : ℕ → UInt8

/-- How a round of the loop ends. -/
abbrev RecordReadOutcome (state : RecordReadState) :=
  {next : RecordReadState // next.readSize < state.readSize} ⊕ Except Fault RecordReadResult

/-- `packet_size`. -/
def recordPacketSize (readSize : ℕ) : ℕ :=
  if readSize > keyRotationRecordReadMaxSize then keyRotationRecordReadMaxSize else readSize

theorem recordPacketSize_eq (readSize : ℕ) : recordPacketSize readSize = min 1004 readSize := by
  have hmax : keyRotationRecordReadMaxSize = 1004 := rfl
  rw [recordPacketSize, hmax]
  split_ifs <;> omega

theorem RecordReadState.readSize_decreases (state : RecordReadState) (hmore : 0 < state.readSize) :
    state.readSize - recordPacketSize state.readSize < state.readSize := by
  have hsize := recordPacketSize_eq state.readSize
  omega

/-- What the loop does with a reply: it is stored at the running offset and has to be of the
requested size. -/
def recordPacket (state : RecordReadState) (hmore : 0 < state.readSize) (response : List UInt8) :
    RecordReadOutcome state :=
  match storeWithin keyRotationFlashAreaSize state.data state.readOffset response with
  | .error fault => .inr (.error fault)
  | .ok data =>
    let packetSize := recordPacketSize state.readSize
    if response.length ≠ packetSize then
      .inr (.ok ⟨cmdExecError .ec (BitVec.ofNat 64 HothStatus.invalidResponseSize.value), data⟩)
    else
      .inl ⟨⟨(state.readOffset + packetSize) % 2 ^ 16, state.readSize - packetSize, data⟩,
        state.readSize_decreases hmore⟩

/-- The header of the request for the next packet. -/
def RecordReadRequest.header (request : RecordReadRequest) (readOffset packetSize : ℕ) :
    HothRequestKeyRotationRecord where
  operation := .read
  packetOffset := readOffset + request.recordOffset
  packetSize := packetSize
  reserved := request.reserved readOffset

/-- One round of the loop of `libhoth_key_rotation_read`. -/
def recordReadRound (request : RecordReadRequest) (state : RecordReadState) :
    HostProgram (RecordReadOutcome state) :=
  if hmore : 0 < state.readSize then
    if state.readOffset + state.readSize > keyRotationFlashAreaSize then
      return .inr (.ok ⟨cmdExecStatus .invalidParameter, state.data⟩)
    else do
      let packetSize := recordPacketSize state.readSize
      match ← sendKeyRotationReadHelper (request.header state.readOffset packetSize) request.encode
        packetSize with
      | .error err => return .inr (.ok ⟨err, state.data⟩)
      | .ok response => return recordPacket state hmore response
  else return .inr (.ok ⟨hothSuccess, state.data⟩)

/-- `libhoth_key_rotation_read` into an array. -/
def libhothKeyRotationRead (request : RecordReadRequest) (data : ℕ → UInt8) :
    HostProgram (Except Fault RecordReadResult) :=
  if request.readSize > keyRotationFlashAreaSize ∨ request.readSize = 0 then
    return .ok ⟨cmdExecStatus .invalidParameter, data⟩
  else
    whileDecreasing RecordReadState.readSize (recordReadRound request) ⟨0, request.readSize, data⟩

/-! ### What is sent and received -/

/-- The host command that requests a packet, given as an extent of the range that is read. -/
def readCall (request : RecordReadRequest) (extent : Extent) : HostCommand :=
  keyRotationCall (request.header extent.1 extent.2) request.encode extent.2

/-- The bytes of an accepted reply. -/
def receivedBytes : Exchange HostReply → List UInt8
  | ⟨_, .failed _ _⟩ => []
  | ⟨_, .accepted payload _⟩ => payload

/-- The bytes of all replies, in order. -/
def deliveredBytes (history : HostHistory) : List UInt8 :=
  (history.map receivedBytes).flatten

/-- The reply was accepted and has as many bytes as there was room for. -/
def Delivered (exchange : Exchange HostReply) : Prop :=
  exchange.2.error = hothSuccess ∧ (receivedBytes exchange).length = exchange.1.respBufSize

/-- What was sent on the way: the requests for packets that tile the range up to `reached`. -/
structure ReadSent (request : RecordReadRequest) (reached : ℕ) (extents : List Extent)
    (history : HostHistory) : Prop where
  calls : history.map Sigma.fst = extents.map (readCall request)
  tiles : Tiles 0 reached extents
  packets : ∀ extent ∈ extents, extent.1 % keyRotationRecordReadMaxSize = 0 ∧
    extent.2 = recordPacketSize (request.readSize - extent.1)

/-- The loop part way through. -/
structure ReadProgress (request : RecordReadRequest) (initial : ℕ → UInt8)
    (state : RecordReadState) (history : HostHistory) : Prop where
  total : state.readOffset + state.readSize = request.readSize
  aligned : state.readOffset % keyRotationRecordReadMaxSize = 0 ∨ state.readSize = 0
  sent : ∃ extents, ReadSent request state.readOffset extents history
  delivered : ∀ exchange ∈ history, Delivered exchange
  length : (deliveredBytes history).length = state.readOffset
  data : state.data = store initial 0 (deliveredBytes history)

/-- How a call that sends requests ends: with the whole range, or on a reply that was not the one
asked for. -/
inductive ReadEnd (request : RecordReadRequest) (initial : ℕ → UInt8) (history : HostHistory) :
    RecordReadResult → Prop
  | complete (extents : List Extent)
    (sent : ReadSent request request.readSize extents history)
    (delivered : ∀ exchange ∈ history, Delivered exchange)
    (length : (deliveredBytes history).length = request.readSize) :
    ReadEnd request initial history ⟨hothSuccess, store initial 0 (deliveredBytes history)⟩
  | stopped (err : LibhothError) (data : ℕ → UInt8) (reached : ℕ) (extents : List Extent)
    (bound : reached ≤ request.readSize)
    (sent : ReadSent request reached extents history)
    (failed : err ≠ hothSuccess)
    (undelivered : ∃ exchange ∈ history, ¬Delivered exchange) :
    ReadEnd request initial history ⟨err, data⟩

@[simp] theorem deliveredBytes_snoc (history : HostHistory) (exchange : Exchange HostReply) :
    deliveredBytes (history ++ [exchange]) = deliveredBytes history ++ receivedBytes exchange := by
  simp [deliveredBytes]

variable {request : RecordReadRequest} {initial : ℕ → UInt8} {history : HostHistory}

/-- One more request, for the packet at the running offset. -/
theorem ReadSent.snoc {reached size : ℕ} {extents : List Extent}
    (hsent : ReadSent request reached extents history) (hpos : 0 < size)
    (haligned : reached % keyRotationRecordReadMaxSize = 0)
    (hsize : size = recordPacketSize (request.readSize - reached))
    (reply : HostReply (readCall request (reached, size))) :
    ReadSent request (reached + size) (extents ++ [(reached, size)])
      (history ++ [⟨_, reply⟩]) where
  calls := by
    rw [List.map_append, List.map_append, hsent.calls]
    rfl
  tiles := hsent.tiles.snoc hpos
  packets := forall_mem_snoc hsent.packets ⟨haligned, hsize⟩

/-- A reply with all the bytes that were asked for takes the loop forward. -/
theorem ReadProgress.snoc {readOffset readSize : ℕ}
    (hprogress : ReadProgress request initial
      ⟨readOffset, readSize, store initial 0 (deliveredBytes history)⟩ history)
    (harea : request.readSize ≤ keyRotationFlashAreaSize) {packetSize : ℕ}
    (hpacketSize : packetSize = recordPacketSize readSize) {extents : List Extent}
    {exchange : Exchange HostReply}
    (hnext : ReadSent request (readOffset + packetSize) extents (history ++ [exchange]))
    (hdelivered : Delivered exchange) (hfull : (receivedBytes exchange).length = packetSize) :
    ReadProgress request initial
      ⟨(readOffset + packetSize) % 2 ^ 16, readSize - packetSize,
        store (store initial 0 (deliveredBytes history)) readOffset (receivedBytes exchange)⟩
      (history ++ [exchange]) := by
  obtain ⟨htotal, haligned, -, hearlier, hlength, -⟩ := hprogress
  simp only at htotal haligned hlength
  have hsize := recordPacketSize_eq readSize
  have hareaSize : keyRotationFlashAreaSize = 2048 := rfl
  have hmaxSize : keyRotationRecordReadMaxSize = 1004 := rfl
  have hwrap : (readOffset + packetSize) % 2 ^ 16 = readOffset + packetSize :=
    Nat.mod_eq_of_lt (by omega)
  rw [hwrap]
  rw [hmaxSize] at haligned
  refine ⟨?_, ?_, ⟨extents, hnext⟩, forall_mem_snoc hearlier hdelivered, ?_, ?_⟩
  · dsimp only
    omega
  · dsimp only
    rw [hmaxSize]
    omega
  · rw [deliveredBytes_snoc, List.length_append, hlength, hfull]
  · dsimp only
    rw [deliveredBytes_snoc, ← store_store_append, hlength, Nat.zero_add]

/-- A round makes progress or ends the call. -/
theorem recordReadRound_ensures (harea : request.readSize ≤ keyRotationFlashAreaSize)
    {state : RecordReadState} (hprogress : ReadProgress request initial state history) :
    Ensures recording (recordReadRound request state) history fun outcome final ↦
      match outcome with
      | .inl next => ReadProgress request initial next.val final
      | .inr result => ∃ value, result = .ok value ∧ ReadEnd request initial final value := by
  obtain ⟨readOffset, readSize, data⟩ := state
  obtain rfl : data = store initial 0 (deliveredBytes history) := hprogress.data
  obtain ⟨extents, hsent⟩ := hprogress.sent
  have htotal := hprogress.total
  have haligned := hprogress.aligned
  have hlength := hprogress.length
  simp only at htotal haligned hsent hlength
  have hsize := recordPacketSize_eq readSize
  have hmaxSize : keyRotationRecordReadMaxSize = 1004 := rfl
  have hareaSize : keyRotationFlashAreaSize = 2048 := rfl
  unfold recordReadRound
  dsimp only
  split_ifs with hmore hroom
  · omega
  · rw [ensures_bind, ensures_sendValidRequest recording history (.inl ⟨rfl, rfl⟩)]
    rintro reply _ rfl
    have hrest : request.readSize - readOffset = readSize := by omega
    have hnext := hsent.snoc (show 0 < recordPacketSize readSize by omega) (by omega)
      (by rw [hrest]) reply
    cases reply with
    | failed err nonzero =>
      dsimp only [receivedPacket]
      rw [pure_eq_done, ensures_done]
      exact ⟨_, rfl, .stopped err _ _ _ (by omega) hnext nonzero
        ⟨_, List.mem_append_right _ (List.mem_singleton_self _), fun hdone ↦ nonzero hdone.1⟩⟩
    | accepted response fits =>
      have hbuffer : response.length ≤ recordPacketSize readSize := fits
      have hstored := storeWithin_of_le (store initial 0 (deliveredBytes history))
        (show readOffset + response.length ≤ keyRotationFlashAreaSize by omega)
      dsimp only [receivedPacket]
      rw [pure_eq_done, ensures_done]
      unfold recordPacket
      dsimp only
      rw [hstored]
      dsimp only
      split_ifs with hexact
      · refine ⟨_, rfl, .stopped _ _ _ _ (by omega) hnext (cmdExecError_ne_success _ _)
          ⟨_, List.mem_append_right _ (List.mem_singleton_self _), fun hdone ↦ hexact hdone.2⟩⟩
      · have hfull : response.length = recordPacketSize readSize := not_not.mp hexact
        exact hprogress.snoc harea rfl hnext ⟨rfl, hfull⟩ hfull
  · rw [pure_eq_done, ensures_done]
    obtain rfl : readSize = 0 := by omega
    rw [Nat.add_zero] at htotal
    subst htotal
    exact ⟨_, rfl, .complete extents hsent hprogress.delivered hlength⟩

/-- What a call does against every device, for a size that is not refused. -/
theorem libhothKeyRotationRead_ensures (request : RecordReadRequest) (initial : ℕ → UInt8)
    (hpos : 0 < request.readSize) (harea : request.readSize ≤ keyRotationFlashAreaSize) :
    Ensures recording (libhothKeyRotationRead request initial) [] fun result history ↦
      ∃ value, result = .ok value ∧ ReadEnd request initial history value := by
  rw [libhothKeyRotationRead, if_neg (by omega)]
  refine whileDecreasing_ensures (ReadProgress request initial)
    (fun state history hprogress ↦ ?_) _ _
    ⟨Nat.zero_add _, .inl rfl, ⟨[], rfl, rfl, by simp⟩, by simp, rfl, (store_nil initial 0).symm⟩
  refine (recordReadRound_ensures harea hprogress).mono fun outcome final hround ↦ ?_
  cases outcome <;> exact hround

/-- A call with a size that is refused sends nothing. -/
theorem libhothKeyRotationRead_of_refused {request : RecordReadRequest}
    (hrefused : request.readSize > keyRotationFlashAreaSize ∨ request.readSize = 0)
    (initial : ℕ → UInt8) :
    libhothKeyRotationRead request initial =
      pure (.ok ⟨cmdExecStatus .invalidParameter, initial⟩) :=
  if_pos hrefused

/-! ### Devices that hold the record -/

/-- A READ request as the device receives it. -/
structure RecordPacket where
  offset : ℕ
  size : ℕ
  half : ℕ
  deriving DecidableEq

/-- The READ request that a host command carries, if it carries one. -/
def packetOf (call : HostCommand) : Option RecordPacket :=
  if call.command = hothCmdBoardSpecificBase + hothPrvCmdHavenKeyRotationOp ∧ call.version = 0 ∧
      call.payload.length = 12 ∧ wordAt call.payload 0 2 = KeyRotationRecordOp.read.value then
    some ⟨wordAt call.payload 2 2, wordAt call.payload 4 2, wordAt call.payload 8 4⟩
  else none

/-- The range of a packet. -/
def extentOf (packet : RecordPacket) : Extent :=
  (packet.offset, packet.size)

/-- A request on the wire has its fields cut to their widths. -/
theorem packetOf_readCall (request : RecordReadRequest) (extent : Extent) :
    packetOf (readCall request extent) =
      some ⟨(extent.1 + request.recordOffset) % 2 ^ 16, extent.2 % 2 ^ 16,
        request.readHalf % 2 ^ 32⟩ := by
  have hoffset : slice (readCall request extent).payload 2 2 =
      toLittleEndian 2 (extent.1 + request.recordOffset) := rfl
  have hsize : slice (readCall request extent).payload 4 2 = toLittleEndian 2 extent.2 := rfl
  have hhalf :
      slice (readCall request extent).payload 8 4 = toLittleEndian 4 request.readHalf := rfl
  have hread : slice (readCall request extent).payload 0 2 =
      toLittleEndian 2 KeyRotationRecordOp.read.value := rfl
  have hoperation : wordAt (readCall request extent).payload 0 2 =
      KeyRotationRecordOp.read.value := by
    rw [wordAt, hread, littleEndian_toLittleEndian]
    rfl
  rw [packetOf, if_pos ⟨rfl, rfl, rfl, hoperation⟩, wordAt, wordAt, wordAt, hoffset, hsize, hhalf,
    littleEndian_toLittleEndian, littleEndian_toLittleEndian, littleEndian_toLittleEndian]
  rfl

/-- A READ request inside the record area is answered with exactly the bytes it asks for, when they
fit the buffer of the call. -/
def AnswersInside (halves : ℕ → ℕ → UInt8) (exchange : Exchange HostReply) : Prop :=
  ∀ packet, packetOf exchange.1 = some packet →
    packet.offset + packet.size ≤ keyRotationFlashAreaSize →
    PayloadFits (load (halves packet.half) packet.offset packet.size) exchange.1.respBufSize
      exchange.1.sized →
    exchange.2.error = hothSuccess ∧
      receivedBytes exchange = load (halves packet.half) packet.offset packet.size

/-- The bytes that answer a READ request inside the record area. -/
def recordBytes (halves : ℕ → ℕ → UInt8) (call : HostCommand) : Option (List UInt8) :=
  (packetOf call).bind fun packet ↦
    if packet.offset + packet.size ≤ keyRotationFlashAreaSize then
      some (load (halves packet.half) packet.offset packet.size)
    else none

/-- The reply of a device that refuses every other command. -/
def recordReply (halves : ℕ → ℕ → UInt8) (call : HostCommand) : HostReply call :=
  match recordBytes halves call with
  | some bytes =>
    if hfits : PayloadFits bytes call.respBufSize call.sized then .accepted bytes hfits
    else .failed (cmdExecStatus .responseBufferOverflow) (cmdExecStatus_ne_success _)
  | none => .failed (cmdExecStatus .fail) (cmdExecStatus_ne_success _)

theorem answersInside_recordReply (halves : ℕ → ℕ → UInt8) (call : HostCommand) :
    AnswersInside halves ⟨call, recordReply halves call⟩ := by
  intro packet hpacket hinside hfits
  have hbytes : recordBytes halves call =
      some (load (halves packet.half) packet.offset packet.size) := by
    rw [recordBytes, hpacket, Option.bind_some, if_pos hinside]
  have hreply : recordReply halves call =
      .accepted (load (halves packet.half) packet.offset packet.size) hfits := by
    unfold recordReply
    rw [hbytes]
    exact dif_pos hfits
  rw [hreply]
  exact ⟨rfl, rfl⟩

/-! ### The contract -/

/-- The packets of a call that sent some: they are inside the record area, of 1 to 1004 bytes, and
tile the range that was asked for; after success the array holds that range of the record. -/
structure ReadsInside (halves : ℕ → ℕ → UInt8) (request : RecordReadRequest)
    (value : RecordReadResult) (history : HostHistory) : Prop where
  packets : ∃ packets : List RecordPacket,
    history.map (fun exchange ↦ packetOf exchange.1) = packets.map some ∧
      (∀ packet ∈ packets, 1 ≤ packet.size ∧ packet.size ≤ 1004 ∧
        packet.offset + packet.size ≤ keyRotationFlashAreaSize) ∧
      Tiles request.recordOffset (request.recordOffset + request.readSize) (packets.map extentOf)
  slice : value.error = hothSuccess → ∀ index < request.readSize,
    value.data index = halves request.readHalf (request.recordOffset + index)

/-- A call refuses its arguments and sends nothing, or reads what was asked for. -/
def ReadContract (halves : ℕ → ℕ → UInt8) (request : RecordReadRequest)
    (result : Except Fault RecordReadResult) (history : HostHistory) : Prop :=
  ∃ value, result = .ok value ∧
    (value.error = cmdExecStatus .invalidParameter ∧ history = [] ∨
      ReadsInside halves request value history)

section Inside

variable {halves : ℕ → ℕ → UInt8} {reached : ℕ} {extents : List Extent}

/-- Inside the record area every request is answered with the bytes of the record. -/
theorem receivedBytes_eq {exchange : Exchange HostReply} (hanswers : AnswersInside halves exchange)
    {extent : Extent} (hcall : exchange.1 = readCall request extent)
    (hinside : request.recordOffset + (extent.1 + extent.2) ≤ keyRotationFlashAreaSize)
    (hhalf : request.readHalf < 2 ^ 32) :
    Delivered exchange ∧ receivedBytes exchange =
      load (halves request.readHalf) (request.recordOffset + extent.1) extent.2 := by
  obtain ⟨call, reply⟩ := exchange
  dsimp only at hcall
  subst hcall
  have harea : keyRotationFlashAreaSize = 2048 := rfl
  have hpacket := packetOf_readCall request extent
  rw [Nat.mod_eq_of_lt (by omega), Nat.mod_eq_of_lt (by omega), Nat.mod_eq_of_lt hhalf,
    Nat.add_comm extent.1] at hpacket
  have hfits : PayloadFits
      (load (halves request.readHalf) (request.recordOffset + extent.1) extent.2) extent.2 true :=
    (length_load _ _ _).le
  obtain ⟨hsuccess, hbytes⟩ := hanswers _ hpacket (by dsimp only; omega) hfits
  refine ⟨⟨hsuccess, ?_⟩, hbytes⟩
  rw [hbytes]
  exact length_load _ _ _

/-- Inside the record area every reply is the one that was asked for. -/
theorem ReadSent.delivered (hsent : ReadSent request reached extents history)
    (hanswers : ∀ exchange ∈ history, AnswersInside halves exchange)
    (hinside : request.recordOffset + reached ≤ keyRotationFlashAreaSize)
    (hhalf : request.readHalf < 2 ^ 32) {exchange : Exchange HostReply}
    (hmem : exchange ∈ history) : Delivered exchange := by
  have hcall : exchange.1 ∈ extents.map (readCall request) :=
    hsent.calls ▸ List.mem_map_of_mem hmem
  obtain ⟨extent, hextent, hcall⟩ := List.mem_map.mp hcall
  have hbounds := hsent.tiles.mem_bounds hextent
  exact (receivedBytes_eq (hanswers exchange hmem) hcall.symm (by omega) hhalf).1

/-- The bytes of the replies to the packets of a tiling are the bytes of the record. -/
theorem deliveredBytes_eq {start : ℕ} (htiles : Tiles start reached extents)
    (hcalls : history.map Sigma.fst = extents.map (readCall request))
    (hanswers : ∀ exchange ∈ history, AnswersInside halves exchange)
    (hinside : request.recordOffset + reached ≤ keyRotationFlashAreaSize)
    (hhalf : request.readHalf < 2 ^ 32) :
    deliveredBytes history =
      load (halves request.readHalf) (request.recordOffset + start) (reached - start) := by
  induction extents generalizing start history with
  | nil =>
    obtain rfl := List.map_eq_nil_iff.mp hcalls
    obtain rfl := tiles_nil.mp htiles
    rw [Nat.sub_self, load_zero]
    rfl
  | cons extent rest ih =>
    obtain ⟨first, later, rfl, hfirst, hlater⟩ := List.map_eq_cons_iff.mp hcalls
    obtain ⟨rfl, -, hrest⟩ := htiles
    have hle := hrest.le
    have hbytes := (receivedBytes_eq (hanswers first List.mem_cons_self) hfirst (by omega) hhalf).2
    have htail := ih hrest hlater fun exchange hmem ↦
      hanswers exchange (List.mem_cons_of_mem _ hmem)
    have hsplit : reached - extent.1 = extent.2 + (reached - (extent.1 + extent.2)) := by omega
    rw [hsplit, load_add, Nat.add_assoc, ← htail, ← hbytes]
    rfl

/-- A range that ends inside the record area is read. -/
theorem ReadEnd.readsInside {initial : ℕ → UInt8} {value : RecordReadResult}
    (hend : ReadEnd request initial history value)
    (hanswers : ∀ exchange ∈ history, AnswersInside halves exchange)
    (hinside : request.recordOffset + request.readSize ≤ keyRotationFlashAreaSize)
    (hhalf : request.readHalf < 2 ^ 32) : ReadsInside halves request value history := by
  have harea : keyRotationFlashAreaSize = 2048 := rfl
  have hmax : keyRotationRecordReadMaxSize = 1004 := rfl
  cases hend with
  | complete extents hsent _ hlength =>
    refine ⟨⟨extents.map fun extent ↦
      ⟨request.recordOffset + extent.1, extent.2, request.readHalf⟩, ?_, ?_, ?_⟩, ?_⟩
    · have hwire : history.map (fun exchange ↦ packetOf exchange.1) =
          (history.map Sigma.fst).map packetOf := by
        rw [List.map_map]
        rfl
      rw [hwire, hsent.calls, List.map_map, List.map_map]
      refine List.map_congr_left fun extent hmem ↦ ?_
      have hbounds := hsent.tiles.mem_bounds hmem
      rw [Function.comp_apply, packetOf_readCall, Nat.mod_eq_of_lt (by omega),
        Nat.mod_eq_of_lt (by omega), Nat.mod_eq_of_lt hhalf, Nat.add_comm extent.1]
      rfl
    · rintro _ hmem
      obtain ⟨extent, hextent, rfl⟩ := List.mem_map.mp hmem
      have hbounds := hsent.tiles.mem_bounds hextent
      have hsize := (hsent.packets extent hextent).2
      rw [recordPacketSize_eq] at hsize
      exact ⟨hbounds.2.1, by dsimp only; omega, by dsimp only; omega⟩
    · rw [List.map_map]
      exact hsent.tiles.shift request.recordOffset
    · rintro - index hindex
      have hbytes := deliveredBytes_eq hsent.tiles hsent.calls hanswers hinside hhalf
      have hstored := getElem?_store initial (Nat.zero_le index)
        (show index < 0 + (deliveredBytes history).length by omega)
      rw [Nat.add_zero, Nat.sub_zero] at hbytes
      rw [Nat.sub_zero] at hstored
      rw [hbytes, getElem?_load _ hindex, ← hbytes] at hstored
      exact (Option.some.inj hstored).symm
  | stopped err data reached extents hbound hsent _ hundelivered =>
    obtain ⟨exchange, hmem, hnot⟩ := hundelivered
    exact absurd (hsent.delivered hanswers (by omega) hhalf hmem) hnot

/-- A range that ends behind the record area is asked for all the same. -/
theorem ReadEnd.not_readsInside {initial : ℕ → UInt8} {value : RecordReadResult}
    (hend : ReadEnd request initial history value) (hpos : 0 < request.readSize)
    (hbeyond : keyRotationFlashAreaSize < request.recordOffset + request.readSize) :
    ¬ReadContract halves request (.ok value) history := by
  rintro ⟨_, hsame, hvalue⟩
  obtain rfl := Except.ok.inj hsame
  rcases hvalue with ⟨-, rfl⟩ | hreads
  · cases hend with
    | complete _ _ _ hlength =>
      rw [← hlength] at hpos
      exact absurd hpos (lt_irrefl 0)
    | stopped _ _ _ _ _ _ _ hundelivered => simp at hundelivered
  · obtain ⟨packets, -, hinside, htiles⟩ := hreads.packets
    obtain ⟨extent, hmem, -, hcontains⟩ := htiles.exists_contains
      (show request.recordOffset ≤ request.recordOffset + request.readSize - 1 by omega) (by omega)
    obtain ⟨packet, hpacket, rfl⟩ := List.mem_map.mp hmem
    have hbound := (hinside packet hpacket).2.2
    simp only [extentOf] at hcontains
    omega

end Inside

/-- Against a device that answers for the record area, a range that ends behind the area breaks the
contract. -/
theorem exists_not_readContract {request : RecordReadRequest} (hpos : 0 < request.readSize)
    (harea : request.readSize ≤ keyRotationFlashAreaSize)
    (hbeyond : keyRotationFlashAreaSize < request.recordOffset + request.readSize) :
    ∃ halves initial result history,
      Runs recording (libhothKeyRotationRead request initial) [] result history ∧
        (∀ exchange ∈ history, AnswersInside halves exchange) ∧
        ¬ReadContract halves request result history := by
  obtain ⟨result, history, hrun⟩ := exists_runs_recordingAnswers (recordReply fun _ _ ↦ 0)
    (libhothKeyRotationRead request fun _ ↦ 0) []
  obtain ⟨value, rfl, hend⟩ := libhothKeyRotationRead_ensures request (fun _ ↦ 0) hpos harea
    _ history hrun.recording_of_answers
  refine ⟨fun _ _ ↦ 0, fun _ ↦ 0, .ok value, history, hrun.recording_of_answers,
    fun exchange hmem ↦ ?_,
    hend.not_readsInside hpos hbeyond⟩
  obtain ⟨call, reply⟩ := exchange
  obtain rfl : reply = recordReply (fun _ _ ↦ 0) call := hrun.eq_answer (by simp) _ hmem
  exact answersInside_recordReply _ call

/-- For all arguments: a call keeps its contract against every device that answers for the record
area exactly when the size is refused or the range ends inside the area. -/
theorem readContract_iff (recordOffset readSize : UInt16) (readHalf : UInt32)
    (reserved : ℕ → ℕ) :
    (∀ halves initial result history,
      Runs recording (libhothKeyRotationRead
        ⟨recordOffset.toNat, readSize.toNat, readHalf.toNat, reserved⟩ initial) [] result history →
      (∀ exchange ∈ history, AnswersInside halves exchange) →
      ReadContract halves ⟨recordOffset.toNat, readSize.toNat, readHalf.toNat, reserved⟩ result
        history) ↔
      readSize.toNat = 0 ∨ keyRotationFlashAreaSize < readSize.toNat ∨
        recordOffset.toNat + readSize.toNat ≤ keyRotationFlashAreaSize := by
  generalize hrequest : RecordReadRequest.mk recordOffset.toNat readSize.toNat readHalf.toNat
    reserved = request
  have hoffset : recordOffset.toNat = request.recordOffset := hrequest ▸ rfl
  have hsize : readSize.toNat = request.readSize := hrequest ▸ rfl
  have hhalf : request.readHalf < 2 ^ 32 := hrequest ▸ readHalf.toNat_lt
  rw [hoffset, hsize]
  constructor
  · intro hcontract
    by_contra hbeyond
    obtain ⟨halves, initial, result, history, hrun, hanswers, hbroken⟩ :=
      exists_not_readContract (show 0 < request.readSize by omega) (by omega) (by omega)
    exact hbroken (hcontract halves initial result history hrun hanswers)
  · intro hcondition halves initial result history hrun hanswers
    by_cases hrefused : request.readSize > keyRotationFlashAreaSize ∨ request.readSize = 0
    · rw [libhothKeyRotationRead_of_refused hrefused] at hrun
      obtain ⟨rfl, rfl⟩ := hrun
      exact ⟨_, rfl, .inl ⟨rfl, rfl⟩⟩
    · obtain ⟨value, rfl, hend⟩ := libhothKeyRotationRead_ensures request initial (by omega)
        (by omega) result history hrun
      exact ⟨value, rfl, .inr (hend.readsInside hanswers (by omega) hhalf)⟩

/-- A read of one byte behind the record area is sent. -/
theorem not_readContract_behind :
    ∃ halves initial result history,
      Runs recording (libhothKeyRotationRead ⟨2048, 1, 0, fun _ ↦ 0⟩ initial) [] result history ∧
        (∀ exchange ∈ history, AnswersInside halves exchange) ∧
        ¬ReadContract halves ⟨2048, 1, 0, fun _ ↦ 0⟩ result history :=
  exists_not_readContract Nat.one_pos (by decide) (by decide)

end Libhoth.Protocol.KeyRotationRead
