import Libhoth.Transports.MailboxOverMtd
import Libhoth.Transports.MailboxOverSpi

/-!
# The three ways to the mailbox

An `Exchange` sends a request and receives its response, over a SPI bus or through a file.
`Delivered` says what that should leave: the request in the mailbox, and the response with its size
in the caller's buffer exactly when it fits. The paged SPI path and the MTD path always deliver
(`spiExchange_ensures`, `mtdExchange_ensures`). The atomic SPI path cuts the size of the caller's
buffer to the 32 bits of a transfer, so `interchangeable_iff` says when the three can stand in for
each other.
-/

set_option autoImplicit false
set_option relaxedAutoImplicit false

namespace Libhoth.Transports.MailboxTransports

open Foundation.CellMemory Foundation.InteractingProgram Protocol.Status
open LibhothEc SpiDevice MailboxOverSpi MtdDevice MailboxOverMtd

/-! ### Exchanges -/

/-- A request of at most 1024 bytes, the mailbox and the root of trust behind it, and the buffer,
its size and the size variable that the caller receives the response into. -/
structure Exchange where
  mailboxAddress : UInt32
  fits : mailboxAddress.toNat + 65543 ≤ 2 ^ 32
  requestData : List UInt8
  nonempty : requestData ≠ []
  short : requestData.length ≤ 1024
  mailbox : ℕ → UInt8
  rot : (ℕ → UInt8) → ℕ → UInt8
  response : ℕ → UInt8
  maxResponseSize : ℕ
  header : hothHostResponseSize ≤ maxResponseSize
  actualSize : ℕ
  busyWaitTimeout : UInt32
  busyWaitCheckInterval : UInt32

namespace Exchange

/-- The mailbox with the request. -/
def requested (exchange : Exchange) : ℕ → UInt8 :=
  store exchange.mailbox exchange.mailboxAddress.toNat exchange.requestData

/-- The response in the mailbox. -/
def answer (exchange : Exchange) (index : ℕ) : UInt8 :=
  exchange.rot exchange.requested (exchange.mailboxAddress.toNat + index)

/-- The size of the response in the mailbox. -/
def answerSize (exchange : Exchange) : ℕ :=
  hothHostResponseSize + dataLen exchange.answer

/-- The device of the SPI transport. -/
def spiDev (exchange : Exchange) : LibhothSpiDevice :=
  libhothSpiOpened exchange.mailboxAddress exchange.busyWaitTimeout
    exchange.busyWaitCheckInterval

/-- The exchange over SPI, in two steps. -/
def spiExchange (exchange : Exchange) (rounds : ℕ) :
    SpiProgram (Option (LibhothError × Received)) := do
  match ← libhothSpiSendRequest exchange.spiDev exchange.requestData rounds with
  | none => return none
  | some sent => do
    let received ← libhothSpiReceiveResponse exchange.spiDev exchange.response
      exchange.maxResponseSize (some exchange.actualSize)
    return some (sent, received)

/-- The exchange over SPI, in one message. -/
def atomicExchange (exchange : Exchange) : SpiProgram (LibhothError × Received) := do
  let (sent, spiDev) ← libhothSpiBufferRequest exchange.spiDev exchange.requestData
  let (received, _) ← libhothSpiSendAndReceiveResponse spiDev exchange.response
    exchange.maxResponseSize (some exchange.actualSize)
  return (sent, received)

/-- The exchange over MTD. -/
def mtdExchange (exchange : Exchange) (rounds : ℕ) :
    MtdProgram (Option (LibhothError × Received)) := do
  match ← libhothMtdSendRequest exchange.mailboxAddress exchange.requestData rounds with
  | none => return none
  | some sent => do
    match ← libhothMtdReceiveResponse exchange.mailboxAddress exchange.response
      exchange.maxResponseSize (some exchange.actualSize) rounds with
    | none => return none
    | some received => return some (sent, received)

/-- What a receive function should leave: it succeeds exactly when the response fits, and then with
the response and its size. -/
structure Answered (exchange : Exchange) (received : Received) : Prop where
  succeeds : received.error = hothSuccess ↔ exchange.answerSize ≤ exchange.maxResponseSize
  reported : received.error = hothSuccess → received.actualSize = some exchange.answerSize
  response : received.error = hothSuccess →
    ∀ index < exchange.answerSize, received.response index = exchange.answer index

/-- What an exchange should leave: the send succeeds, the request is in the mailbox, and the
response is received. -/
structure Delivered (exchange : Exchange) (outcome : LibhothError × Received)
    (cells : ℕ → UInt8) : Prop where
  sent : outcome.1 = hothSuccess
  stored : cells = exchange.requested
  answered : exchange.Answered outcome.2

/-- The three ways deliver, however the latch and the position in the file were left, when their
loops are given enough rounds. -/
structure Interchangeable (exchange : Exchange) : Prop where
  spi : ∃ enough, ∀ rounds, enough ≤ rounds → ∀ writeEnabled,
    Ensures (spiMailbox exchange.rot) (exchange.spiExchange rounds) ⟨exchange.mailbox, writeEnabled⟩
      fun outcome final ↦ ∃ value, outcome = some value ∧ exchange.Delivered value final.cells
  atomic : ∀ writeEnabled,
    Ensures (spiMailbox exchange.rot) exchange.atomicExchange ⟨exchange.mailbox, writeEnabled⟩
      fun outcome final ↦ exchange.Delivered outcome final.cells
  mtd : ∃ enough, ∀ rounds, enough ≤ rounds → ∀ position,
    Ensures (mtdMailbox exchange.rot) (exchange.mtdExchange rounds) ⟨exchange.mailbox, position⟩
      fun outcome final ↦ ∃ value, outcome = some value ∧ exchange.Delivered value final.cells

end Exchange

/-! ### What the caller receives -/

/-- The announced length is two bytes of the header. -/
theorem dataLen_congr {first second : ℕ → UInt8}
    (hheader : ∀ index < hothHostResponseSize, first index = second index) :
    dataLen first = dataLen second := by
  have hload : load first 4 2 = load second 4 2 :=
    List.map_congr_left fun index hindex ↦
      hheader _ (by rw [hothHostResponseSize]; have := List.mem_range.mp hindex; omega)
  rw [dataLen, hload, dataLen]

/-- A copy of the header announces the same length. -/
theorem dataLen_store_load (response answer : ℕ → UInt8) {count : ℕ}
    (hheader : hothHostResponseSize ≤ count) :
    dataLen (store response 0 (load answer 0 count)) = dataLen answer :=
  dataLen_congr fun _ hindex ↦ store_load_of_lt response answer (hindex.trans_le hheader)

namespace Exchange

variable (exchange : Exchange)

/-- A receive that fails where the response does not fit. -/
theorem answered_of_overflow {received : Received} (herror : received.error ≠ hothSuccess)
    (hoverflow : exchange.maxResponseSize < exchange.answerSize) : exchange.Answered received where
  succeeds := ⟨fun hsuccess ↦ absurd hsuccess herror, fun hfits ↦ absurd hfits (by omega)⟩
  reported hsuccess := absurd hsuccess herror
  response hsuccess := absurd hsuccess herror

/-- A receive that leaves the response where it fits. -/
theorem answered_of_fits {response : ℕ → UInt8}
    (hresponse : ∀ index < exchange.answerSize, response index = exchange.answer index)
    (hfits : exchange.answerSize ≤ exchange.maxResponseSize) :
    exchange.Answered ⟨hothSuccess, response, some exchange.answerSize⟩ where
  succeeds := ⟨fun _ ↦ hfits, fun _ ↦ rfl⟩
  reported _ := rfl
  response _ := hresponse

/-- A receive that copies the response where it fits. -/
theorem answered_of_copy (hfits : exchange.answerSize ≤ exchange.maxResponseSize) :
    exchange.Answered ⟨hothSuccess,
      store exchange.response 0 (load exchange.answer 0 exchange.answerSize),
      some exchange.answerSize⟩ :=
  exchange.answered_of_fits
    (fun _ hindex ↦ store_load_of_lt exchange.response exchange.answer hindex) hfits

/-- The header and the data behind it are the response. -/
theorem store_header_data :
    store (store exchange.response 0 (load exchange.answer 0 hothHostResponseSize))
        hothHostResponseSize (load exchange.answer hothHostResponseSize (dataLen exchange.answer)) =
      store exchange.response 0 (load exchange.answer 0 exchange.answerSize) := by
  have happend := store_store_append exchange.response 0
    (load exchange.answer 0 hothHostResponseSize)
    (load exchange.answer hothHostResponseSize (dataLen exchange.answer))
  rw [length_load, Nat.zero_add] at happend
  rw [happend, answerSize, load_add, Nat.zero_add]

/-- What is shown at the mailbox is the answer. -/
theorem load_shown (offset count : ℕ) :
    load (exchange.rot exchange.requested) (exchange.mailboxAddress.toNat + offset) count =
      load exchange.answer offset count :=
  load_offset _ _ _ _

/-- The address of the data behind the header. -/
theorem toNat_dataAddress :
    (exchange.mailboxAddress + UInt32.ofNat hothHostResponseSize).toNat =
      exchange.mailboxAddress.toNat + hothHostResponseSize := by
  have hfits := exchange.fits
  exact toNat_add_ofNat (by rw [hothHostResponseSize]; omega)

theorem load_shown_start (count : ℕ) :
    load (exchange.rot exchange.requested) exchange.mailboxAddress.toNat count =
      load exchange.answer 0 count :=
  exchange.load_shown 0 count

theorem load_shown_data (count : ℕ) :
    load (exchange.rot exchange.requested)
        (exchange.mailboxAddress + UInt32.ofNat hothHostResponseSize).toNat count =
      load exchange.answer hothHostResponseSize count := by
  rw [toNat_dataAddress, load_shown]

/-- The paged path stores the request. -/
theorem libhothSpiSendRequest_ensures (rounds : ℕ) (writeEnabled : Bool) :
    Ensures (spiMailbox exchange.rot)
      (libhothSpiSendRequest exchange.spiDev exchange.requestData (rounds + 1))
      ⟨exchange.mailbox, writeEnabled⟩
      fun outcome final ↦ outcome = some hothSuccess ∧ final.cells = exchange.requested := by
  have hfits := exchange.fits
  have hshort := exchange.short
  have haddress : exchange.spiDev.mailboxAddress.toNat = exchange.mailboxAddress.toNat := rfl
  rw [libhothSpiSendRequest, ensures_bind]
  refine (spiNorWrite_ensures exchange.rot rfl exchange.nonempty (by omega) rounds _).mono ?_
  rintro _ final ⟨rfl, hcells⟩
  exact (ensures_done _ _ _).mpr ⟨rfl, hcells⟩

/-- The paged path receives the response. -/
theorem libhothSpiReceiveResponse_ensures {mailbox : SpiMailbox}
    (hcells : mailbox.cells = exchange.requested) :
    Ensures (spiMailbox exchange.rot)
      (libhothSpiReceiveResponse exchange.spiDev exchange.response exchange.maxResponseSize
        (some exchange.actualSize)) mailbox
      fun received final ↦ final = mailbox ∧ exchange.Answered received := by
  have hlt := dataLen_lt exchange.answer
  have hheader : load (exchange.rot mailbox.cells) exchange.spiDev.mailboxAddress.toNat
      hothHostResponseSize = load exchange.answer 0 hothHostResponseSize := by
    rw [hcells]
    exact exchange.load_shown_start hothHostResponseSize
  have hbehind : load (exchange.rot mailbox.cells)
      (exchange.spiDev.mailboxAddress + UInt32.ofNat hothHostResponseSize).toNat
      (dataLen exchange.answer) =
        load exchange.answer hothHostResponseSize (dataLen exchange.answer) := by
    rw [hcells]
    exact exchange.load_shown_data (dataLen exchange.answer)
  rw [libhothSpiReceiveResponse, if_neg (Nat.not_lt.mpr exchange.header), ensures_bind]
  refine (spiNorRead_ensures exchange.rot rfl _ _ _ (by decide) (by decide) mailbox).mono ?_
  rintro _ middle ⟨rfl, rfl⟩
  dsimp only
  rw [hheader, if_neg (not_not_intro rfl), dataLen_store_load _ _ le_rfl]
  split_ifs with hoverflow hdata
  · exact (ensures_done _ _ _).mpr ⟨rfl, exchange.answered_of_overflow (by simp) hoverflow⟩
  · rw [ensures_bind]
    refine (spiNorRead_ensures exchange.rot rfl _ _ _ hdata (by omega) middle).mono ?_
    rintro _ final ⟨rfl, rfl⟩
    dsimp only
    rw [hbehind, if_neg (not_not_intro rfl), exchange.store_header_data]
    exact (ensures_done _ _ _).mpr ⟨rfl, exchange.answered_of_copy (Nat.le_of_not_lt hoverflow)⟩
  · have hempty : dataLen exchange.answer = 0 := Nat.eq_zero_of_not_pos hdata
    have hsize : exchange.answerSize = hothHostResponseSize := by
      rw [answerSize, hempty, Nat.add_zero]
    have hanswered := exchange.answered_of_copy (Nat.le_of_not_lt hoverflow)
    rw [hsize] at hanswered
    rw [hempty]
    exact (ensures_done _ _ _).mpr ⟨rfl, hanswered⟩

/-! ### The atomic path -/

/-- The caller's buffer after a message that reads the response. -/
def atomicResponse (exchange : Exchange) : ℕ → UInt8 :=
  store exchange.response 0 (load exchange.answer 0 (exchange.maxResponseSize % 2 ^ 32))

/-- What the atomic path leaves. -/
def atomicReceived (exchange : Exchange) : Received :=
  if dataLen exchange.atomicResponse > exchange.maxResponseSize - hothHostResponseSize then
    ⟨spiErrLibhoth (statusInt .responseBufferOverflow), exchange.atomicResponse,
      some exchange.actualSize⟩
  else
    ⟨hothSuccess, exchange.atomicResponse,
      some (dataLen exchange.atomicResponse + hothHostResponseSize)⟩

/-- The device with the request. -/
def buffered (exchange : Exchange) : LibhothSpiDevice :=
  { exchange.spiDev with bufferedRequest := some exchange.requestData }

/-- The request is kept. -/
theorem libhothSpiBufferRequest_ensures (mailbox : SpiMailbox) :
    Ensures (spiMailbox exchange.rot)
      (libhothSpiBufferRequest exchange.spiDev exchange.requestData) mailbox
      fun outcome final ↦ outcome = (hothSuccess, exchange.buffered) ∧ final = mailbox := by
  have hunbuffered : ¬exchange.spiDev.bufferedRequest.isSome := Bool.false_ne_true
  rw [libhothSpiBufferRequest, if_neg hunbuffered, ensures_bind, ensures_request]
  rintro _ final ⟨rfl, rfl⟩
  exact (ensures_done _ _ _).mpr ⟨rfl, rfl⟩

/-- The message stores the request and reads the response. -/
theorem transferAll_buffered (writeEnabled : Bool) :
    transferAll exchange.rot ⟨exchange.mailbox, writeEnabled⟩ []
        (atomicTransfers exchange.buffered exchange.requestData exchange.maxResponseSize) =
      (load exchange.answer 0 (exchange.maxResponseSize % 2 ^ 32),
        ⟨exchange.requested, false⟩) := by
  have hshort := exchange.short
  rw [transferAll_atomicTransfers exchange.rot _ rfl _ _ _ (by omega), ← exchange.load_shown_start]
  rfl

/-- The atomic path stores the request and reads the response. -/
theorem atomicExchange_ensures (writeEnabled : Bool) :
    Ensures (spiMailbox exchange.rot) exchange.atomicExchange ⟨exchange.mailbox, writeEnabled⟩
      fun outcome final ↦ outcome = (hothSuccess, exchange.atomicReceived) ∧
        final.cells = exchange.requested := by
  rw [atomicExchange, ensures_bind]
  refine (exchange.libhothSpiBufferRequest_ensures _).mono ?_
  rintro _ _ ⟨rfl, rfl⟩
  dsimp only
  have hbuffered : exchange.buffered.bufferedRequest = some exchange.requestData := rfl
  rw [ensures_bind, libhothSpiSendAndReceiveResponse, if_neg (Nat.not_lt.mpr exchange.header),
    hbuffered]
  dsimp only
  rw [ensures_bind]
  refine (message_ensures exchange.rot _ _).mono ?_
  rintro _ final ⟨bytes, filled, rfl, hstep⟩
  rw [exchange.transferAll_buffered] at hstep
  obtain ⟨hbytes, rfl⟩ := Prod.mk.inj hstep
  have hresponse : store exchange.response 0 bytes = exchange.atomicResponse := by
    rw [hbytes, atomicResponse]
  dsimp only
  rw [hresponse, atomicReceived]
  split_ifs
  · exact (ensures_done _ _ _).mpr ((ensures_done _ _ _).mpr ⟨rfl, rfl⟩)
  · exact (ensures_done _ _ _).mpr ((ensures_done _ _ _).mpr ⟨rfl, rfl⟩)

@[simp] theorem response_atomicReceived :
    exchange.atomicReceived.response = exchange.atomicResponse := by
  unfold atomicReceived
  split_ifs <;> rfl

/-- The atomic path leaves what it should exactly when the response does not fit, or the bytes of it
behind the length of the transfer are in the caller's buffer already. -/
theorem answered_atomicReceived_iff :
    exchange.Answered exchange.atomicReceived ↔
      exchange.maxResponseSize < exchange.answerSize ∨
        ∀ index < exchange.answerSize, exchange.maxResponseSize % 2 ^ 32 ≤ index →
          exchange.response index = exchange.answer index := by
  have hlt := dataLen_lt exchange.answer
  have hheader := exchange.header
  have hsize : exchange.answerSize = hothHostResponseSize + dataLen exchange.answer := rfl
  have hconstant : hothHostResponseSize = 8 := rfl
  rcases Nat.lt_or_ge exchange.maxResponseSize exchange.answerSize with hoverflow | hfits
  · refine iff_of_true ?_ (.inl hoverflow)
    have hread : exchange.maxResponseSize % 2 ^ 32 = exchange.maxResponseSize :=
      Nat.mod_eq_of_lt (by omega)
    have hannounced : dataLen exchange.atomicResponse = dataLen exchange.answer :=
      dataLen_store_load _ _ (by omega)
    rw [atomicReceived, if_pos (by omega)]
    exact exchange.answered_of_overflow (by simp) hoverflow
  · rw [or_iff_right (Nat.not_lt.mpr hfits)]
    constructor
    · intro hanswered index hindex hbehind
      have hcopied := hanswered.response (hanswered.succeeds.mpr hfits) index hindex
      rwa [response_atomicReceived, atomicResponse, store_load_of_ge _ _ hbehind] at hcopied
    · intro hstale
      have hresponse : ∀ index < exchange.answerSize,
          exchange.atomicResponse index = exchange.answer index := by
        intro index hindex
        rcases Nat.lt_or_ge index (exchange.maxResponseSize % 2 ^ 32) with hinside | hbehind
        · exact store_load_of_lt _ exchange.answer hinside
        · rw [atomicResponse, store_load_of_ge _ _ hbehind, hstale index hindex hbehind]
      have hannounced : dataLen exchange.atomicResponse = dataLen exchange.answer :=
        dataLen_congr fun index hindex ↦ hresponse index (by omega)
      have hanswered := exchange.answered_of_fits hresponse hfits
      rw [hsize, Nat.add_comm] at hanswered
      rw [atomicReceived, hannounced, if_neg (by omega)]
      exact hanswered

/-- The atomic path delivers exactly when what it leaves is what it should leave. -/
theorem atomicExchange_delivers_iff :
    (∀ writeEnabled, Ensures (spiMailbox exchange.rot) exchange.atomicExchange
        ⟨exchange.mailbox, writeEnabled⟩ fun outcome final ↦
          exchange.Delivered outcome final.cells) ↔
      exchange.Answered exchange.atomicReceived := by
  constructor
  · intro hdelivers
    obtain ⟨outcome, final, hrun⟩ := Runs.exists_of_serial (spiMailbox_serial exchange.rot)
      exchange.atomicExchange ⟨exchange.mailbox, false⟩
    obtain ⟨rfl, -⟩ := exchange.atomicExchange_ensures false outcome final hrun
    exact (hdelivers false _ final hrun).answered
  · intro hanswered writeEnabled
    refine (exchange.atomicExchange_ensures writeEnabled).mono ?_
    rintro _ final ⟨rfl, hcells⟩
    exact ⟨rfl, hcells, hanswered⟩

/-! ### The MTD path -/

/-- The MTD path stores the request. -/
theorem libhothMtdSendRequest_ensures (rounds position : ℕ) :
    Ensures (mtdMailbox exchange.rot)
      (libhothMtdSendRequest exchange.mailboxAddress exchange.requestData (rounds + 1))
      ⟨exchange.mailbox, position⟩
      fun outcome final ↦ outcome = some hothSuccess ∧ final.cells = exchange.requested := by
  rw [libhothMtdSendRequest, ensures_bind]
  refine (mtdWrite_ensures exchange.rot _ exchange.nonempty rounds _).mono ?_
  rintro _ final ⟨rfl, hcells⟩
  exact (ensures_done _ _ _).mpr ⟨rfl, hcells⟩

/-- The MTD path receives the response. -/
theorem libhothMtdReceiveResponse_ensures {mailbox : MtdMailbox}
    (hcells : mailbox.cells = exchange.requested) {rounds : ℕ} (henough : 2 ^ 16 ≤ rounds) :
    Ensures (mtdMailbox exchange.rot)
      (libhothMtdReceiveResponse exchange.mailboxAddress exchange.response
        exchange.maxResponseSize (some exchange.actualSize) rounds) mailbox
      fun outcome final ↦ ∃ received, outcome = some received ∧
        (final.cells = exchange.requested ∧ exchange.Answered received) := by
  have hlt := dataLen_lt exchange.answer
  have hconstant : hothHostResponseSize = 8 := rfl
  rw [libhothMtdReceiveResponse, if_neg (Nat.not_lt.mpr exchange.header), ensures_bind]
  refine (mtdRead_ensures exchange.rot _ _ _ (by omega) mailbox).mono ?_
  rintro _ middle ⟨rfl, hmiddle⟩
  dsimp only
  rw [hcells, exchange.load_shown_start, if_neg (not_not_intro rfl),
    dataLen_store_load _ _ le_rfl]
  split_ifs with hoverflow
  · exact (ensures_done _ _ _).mpr ⟨_, rfl, hmiddle.trans hcells,
      exchange.answered_of_overflow (by simp) hoverflow⟩
  · rw [ensures_bind]
    refine (mtdRead_ensures exchange.rot _ _ _ (by omega) middle).mono ?_
    rintro _ final ⟨rfl, hfinal⟩
    dsimp only
    rw [hmiddle, hcells, exchange.load_shown_data, if_neg (not_not_intro rfl),
      exchange.store_header_data]
    exact (ensures_done _ _ _).mpr ⟨_, rfl, hfinal.trans (hmiddle.trans hcells),
      exchange.answered_of_copy (Nat.le_of_not_lt hoverflow)⟩

/-! ### Interchangeability -/

/-- The paged path delivers. -/
theorem spiExchange_ensures (rounds : ℕ) (writeEnabled : Bool) :
    Ensures (spiMailbox exchange.rot) (exchange.spiExchange (rounds + 1))
      ⟨exchange.mailbox, writeEnabled⟩
      fun outcome final ↦ ∃ value, outcome = some value ∧ exchange.Delivered value final.cells := by
  rw [spiExchange, ensures_bind]
  refine (exchange.libhothSpiSendRequest_ensures rounds writeEnabled).mono ?_
  rintro _ middle ⟨rfl, hcells⟩
  dsimp only
  rw [ensures_bind]
  refine (exchange.libhothSpiReceiveResponse_ensures hcells).mono ?_
  rintro received _ ⟨rfl, hanswered⟩
  exact (ensures_done _ _ _).mpr ⟨_, rfl, rfl, hcells, hanswered⟩

/-- The MTD path delivers. -/
theorem mtdExchange_ensures {rounds : ℕ} (henough : 2 ^ 16 ≤ rounds) (position : ℕ) :
    Ensures (mtdMailbox exchange.rot) (exchange.mtdExchange rounds) ⟨exchange.mailbox, position⟩
      fun outcome final ↦ ∃ value, outcome = some value ∧ exchange.Delivered value final.cells := by
  have hsend := exchange.libhothMtdSendRequest_ensures (rounds - 1) position
  rw [Nat.sub_add_cancel (by omega)] at hsend
  rw [mtdExchange, ensures_bind]
  refine hsend.mono ?_
  rintro _ middle ⟨rfl, hcells⟩
  dsimp only
  rw [ensures_bind]
  refine (exchange.libhothMtdReceiveResponse_ensures hcells henough).mono ?_
  rintro _ final ⟨received, rfl, hfinal, hanswered⟩
  exact (ensures_done _ _ _).mpr ⟨_, rfl, rfl, hfinal, hanswered⟩

/-- The three ways are interchangeable exactly when the response does not fit, or the caller's
buffer already holds the bytes of it that a 32-bit length of the buffer leaves out. -/
theorem interchangeable_iff :
    exchange.Interchangeable ↔
      exchange.maxResponseSize < exchange.answerSize ∨
        ∀ index < exchange.answerSize, exchange.maxResponseSize % 2 ^ 32 ≤ index →
          exchange.response index = exchange.answer index := by
  rw [← answered_atomicReceived_iff, ← atomicExchange_delivers_iff]
  constructor
  · exact fun hinterchangeable ↦ hinterchangeable.atomic
  · intro hatomic
    refine ⟨⟨1, fun rounds henough writeEnabled ↦ ?_⟩, hatomic,
      ⟨2 ^ 16, fun _ henough position ↦ exchange.mtdExchange_ensures henough position⟩⟩
    have hspi := exchange.spiExchange_ensures (rounds - 1) writeEnabled
    rwa [Nat.sub_add_cancel henough] at hspi

end Exchange

/-- An exchange into a cleared buffer of 4 GiB, behind a root of trust that answers with ones. -/
def clearedExchange : Exchange where
  mailboxAddress := 0
  fits := by decide
  requestData := [3]
  nonempty := by decide
  short := by decide
  mailbox := fun _ ↦ 0
  rot := fun _ _ ↦ 1
  response := fun _ ↦ 0
  maxResponseSize := 4294967296
  header := by decide
  actualSize := 0
  busyWaitTimeout := 1000000
  busyWaitCheckInterval := 100

/-- The atomic path reads nothing into a buffer of 4 GiB. -/
theorem not_interchangeable_clearedExchange : ¬clearedExchange.Interchangeable := by
  intro hinterchangeable
  have hanswered :=
    clearedExchange.atomicExchange_delivers_iff.mp hinterchangeable.atomic
  rcases clearedExchange.answered_atomicReceived_iff.mp hanswered with hoverflow | hstale
  · have hlt := dataLen_lt clearedExchange.answer
    have hsize : clearedExchange.answerSize = 8 + dataLen clearedExchange.answer := rfl
    have hmax : clearedExchange.maxResponseSize = 4294967296 := rfl
    omega
  · have hcleared : (0 : UInt8) = 1 := hstale 0 (by decide) (by decide)
    exact absurd hcleared (by decide)

end Libhoth.Transports.MailboxTransports
