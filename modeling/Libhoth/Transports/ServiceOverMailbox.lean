import Libhoth.Protocol.CommandService
import Libhoth.Transports.MailboxTransports

/-!
# A service behind a mailbox

The root of trust of a board reads the request that was sent to its mailbox, answers it and shows
the answer there (`Board`). A `Driver` is the send and receive function of a transport that reaches
the mailbox, with the environment that they run in; `spiDriver` pages through a SPI bus and
`mtdDriver` goes through a file.

A driver `Delivers` when it leaves a request in the mailbox and receives the answer that is shown.
Then the board with the driver carries the service (`Driver.Delivers.carries`). Both transports do,
so that a program over host commands cannot tell them from the service itself
(`runs_over_mailbox_iff`).
-/

set_option autoImplicit false
set_option relaxedAutoImplicit false

namespace Libhoth.Transports.ServiceOverMailbox

open Foundation.ByteString Foundation.CellMemory Foundation.InteractingProgram
open Protocol.Status Protocol.HostCommand Protocol.HostCommandProgram Protocol.CommandService
open LibhothEc SpiDevice MtdDevice MailboxOverSpi MailboxOverMtd MailboxTransports

/-! ### Boards and drivers -/

/-- Where the mailbox is, with the two times of a SPI device. -/
structure Place where
  address : UInt32
  fits : address.toNat + 65543 ≤ 2 ^ 32
  busyWaitTimeout : UInt32
  busyWaitCheckInterval : UInt32

/-- What the root of trust shows: its answer at the mailbox. -/
def shows (place : Place) (frame : ResponseFrame) (cells : ℕ → UInt8) : ℕ → UInt8 :=
  store cells place.address.toNat frame.bytes

/-- The send and receive function of a transport, and the environment that they run in, for what
the root of trust shows. -/
structure Driver {Request : Type} (Reply : Request → Type) (Chip : Type) where
  environment : ((ℕ → UInt8) → ℕ → UInt8) → Environment Reply Chip
  cells : Chip → ℕ → UInt8
  send : List UInt8 → Interaction Reply LibhothError
  receive : (maxResponseSize : ℕ) → Interaction Reply (ReceiveReply maxResponseSize)

/-- A mailbox, the state of the service behind it, and the answer that it shows. -/
structure Board (σ Chip : Type) where
  chip : Chip
  state : σ
  frame : ResponseFrame

/-- The board after a request was sent: the service has read the mailbox and shows its answer. -/
def Board.served {σ Chip : Type} (service : Service σ) (place : Place) (cells : Chip → ℕ → UInt8)
    (board : Board σ Chip) (chip : Chip) : Board σ Chip :=
  let answered := serveFrame service board.state
    (load (cells chip) place.address.toNat libhothMailboxSize)
  ⟨chip, answered.2, answered.1⟩

section Drivers

variable {Request : Type} {Reply : Request → Type} {σ Chip : Type}

/-- What a transport call meets at a board with a driver. -/
def boardEnvironment (driver : Driver Reply Chip) (service : Service σ) (place : Place) :
    Environment TransportReply (Board σ Chip) := fun board call reply after ↦
  match call, reply with
  | .send request, err => ∃ chip,
    Runs (driver.environment (shows place board.frame)) (driver.send request) board.chip err chip ∧
      after = board.served service place driver.cells chip
  | .receive maxResponseSize _, reply => ∃ chip,
    Runs (driver.environment (shows place board.frame)) (driver.receive maxResponseSize) board.chip
      reply chip ∧ after = { board with chip := chip }

/-- A driver leaves a request in the mailbox, and receives the answer that is shown. -/
structure Driver.Delivers (driver : Driver Reply Chip) (place : Place) : Prop where
  serial : ∀ rot chip call, ∃ reply after, driver.environment rot chip call reply after
  send : ∀ rot chip request, request ≠ [] → request.length ≤ libhothMailboxSize →
    Ensures (driver.environment rot) (driver.send request) chip fun err after ↦
      err = hothSuccess ∧
        driver.cells after = store (driver.cells chip) place.address.toNat request
  receive : ∀ (frame : ResponseFrame) chip,
    Ensures (driver.environment (shows place frame)) (driver.receive libhothMailboxSize) chip
      fun reply _ ↦ reply = .received frame.bytes frame.short

/-- What is read of a request that was sent. -/
theorem parseRequest_load {request : List UInt8} {parsed : ℕ × ℕ × List UInt8}
    (hparsed : parseRequest request = some parsed) (hlength : request.length ≤ libhothMailboxSize)
    (cells : ℕ → UInt8) (address : ℕ) :
    parseRequest (load (store cells address request) address libhothMailboxSize) = some parsed := by
  have hsplit : libhothMailboxSize = request.length + (libhothMailboxSize - request.length) := by
    omega
  rw [hsplit, load_add, load_store_self]
  exact parseRequest_append hparsed _

theorem ne_nil_of_parseRequest {request : List UInt8} (hparsed : (parseRequest request).isSome) :
    request ≠ [] := by
  rintro rfl
  exact absurd hparsed (by decide)

/-- A board with a driver that delivers carries the service. -/
theorem Driver.Delivers.carries {driver : Driver Reply Chip} {place : Place}
    (hdelivers : driver.Delivers place) (service : Service σ) :
    Carries (boardEnvironment driver service place) service Board.state Board.frame
      (fun _ ↦ True) (fun _ ↦ True) where
  serial board call := by
    cases call with
    | send request =>
      obtain ⟨err, chip, hrun⟩ := Runs.exists_of_serial (hdelivers.serial _) (driver.send request)
        board.chip
      exact ⟨err, _, chip, hrun, rfl⟩
    | receive maxResponseSize timeoutMs =>
      obtain ⟨reply, chip, hrun⟩ := Runs.exists_of_serial (hdelivers.serial _)
        (driver.receive maxResponseSize) board.chip
      exact ⟨reply, _, chip, hrun, rfl⟩
  send board request err after _ hparsed hlength := by
    rintro ⟨chip, hrun, rfl⟩
    obtain ⟨rfl, hcells⟩ := hdelivers.send _ _ _ (ne_nil_of_parseRequest hparsed) hlength _ _ hrun
    obtain ⟨parsed, hparsed⟩ := Option.isSome_iff_exists.mp hparsed
    refine ⟨rfl, ?_, trivial⟩
    rw [Board.served, hcells, serveFrame, serveFrame, parseRequest_load hparsed hlength, hparsed]
  receive board timeoutMs reply after _ := by
    rintro ⟨chip, hrun, rfl⟩
    exact ⟨hdelivers.receive _ _ _ _ hrun, rfl, trivial⟩

end Drivers

/-! ### What is received -/

/-- What a receive function hands on: its error, or the bytes in the buffer. -/
def receivedReply (received : Received) (maxResponseSize : ℕ) : ReceiveReply maxResponseSize :=
  if herror : received.error = hothSuccess then
    let bytes := load received.response 0 (received.actualSize.getD 0)
    if hfits : bytes.length ≤ maxResponseSize then .received bytes hfits
    else .failed (cmdExecStatus .fail) (cmdExecStatus_ne_success _)
  else .failed received.error herror

/-- The exchange whose answer a board shows. -/
def shownExchange (place : Place) (frame : ResponseFrame) (cells : ℕ → UInt8) :
    MailboxTransports.Exchange where
  mailboxAddress := place.address
  fits := place.fits
  requestData := [cells place.address.toNat]
  nonempty := List.cons_ne_nil _ _
  short := Nat.le_of_ble_eq_true rfl
  mailbox := cells
  rot := shows place frame
  response := fun _ ↦ 0
  maxResponseSize := libhothMailboxSize
  header := Nat.le_of_ble_eq_true rfl
  actualSize := 0
  busyWaitTimeout := place.busyWaitTimeout
  busyWaitCheckInterval := place.busyWaitCheckInterval

theorem requested_shownExchange (place : Place) (frame : ResponseFrame) (cells : ℕ → UInt8) :
    (shownExchange place frame cells).requested = cells := by
  funext address
  dsimp only [MailboxTransports.Exchange.requested, shownExchange]
  rcases lt_trichotomy address place.address.toNat with hbelow | rfl | habove
  · exact store_of_lt _ _ hbelow
  · have hhere := getElem?_store cells (le_refl place.address.toNat)
      (show place.address.toNat <
        place.address.toNat + [cells place.address.toNat].length from Nat.lt_succ_self _)
    rw [Nat.sub_self] at hhere
    exact (Option.some.inj hhere).symm
  · exact store_of_ge _ habove

/-- The answer that a board shows is the frame. -/
theorem load_answer_shownExchange (place : Place) (frame : ResponseFrame) (cells : ℕ → UInt8) :
    load (shownExchange place frame cells).answer 0 frame.bytes.length = frame.bytes := by
  have hload := load_store_self (shownExchange place frame cells).requested place.address.toNat
    frame.bytes
  have hoffset := load_offset (shows place frame (shownExchange place frame cells).requested)
    place.address.toNat 0 frame.bytes.length
  rw [Nat.add_zero] at hoffset
  exact hoffset.symm.trans hload

theorem answerSize_shownExchange (place : Place) (frame : ResponseFrame) (cells : ℕ → UInt8) :
    (shownExchange place frame cells).answerSize = frame.bytes.length := by
  have hsize := frame.wellFormed.size
  have hdataLen := frame.wellFormed.dataLen
  have hload := load_answer_shownExchange place frame cells
  have hsplit : frame.bytes.length = 4 + (2 + (frame.bytes.length - 6)) := by
    rw [headerSize] at hsize
    omega
  have hfield : slice frame.bytes 4 2 = load (shownExchange place frame cells).answer 4 2 := by
    conv_lhs => rw [← hload, hsplit, load_add, load_add]
    have hright := slice_append_right (load (shownExchange place frame cells).answer 0 4)
      (load (shownExchange place frame cells).answer 4 2 ++
        load (shownExchange place frame cells).answer 6 (frame.bytes.length - 6)) 0 2
    rw [length_load] at hright
    rw [hright, slice, List.drop_zero, List.take_left' (length_load _ _ _)]
  have hannounced : dataLen (shownExchange place frame cells).answer =
      frame.bytes.length - headerSize := by
    rw [dataLen, ← hfield]
    exact hdataLen
  rw [MailboxTransports.Exchange.answerSize, hannounced]
  exact Nat.add_sub_of_le hsize

/-- What is received of a board is the frame that it shows. -/
theorem receivedReply_of_answered {place : Place} {frame : ResponseFrame} {cells : ℕ → UInt8}
    {received : Received} (hanswered : (shownExchange place frame cells).Answered received) :
    receivedReply received libhothMailboxSize = .received frame.bytes frame.short := by
  have hsize := answerSize_shownExchange place frame cells
  have hsuccess : received.error = hothSuccess :=
    hanswered.succeeds.mpr (hsize.trans_le frame.short)
  have hbytes : load received.response 0 (received.actualSize.getD 0) = frame.bytes := by
    have hcopy : load received.response 0 frame.bytes.length =
        load (shownExchange place frame cells).answer 0 frame.bytes.length := by
      refine List.map_congr_left fun index hindex ↦ ?_
      rw [Nat.zero_add]
      exact hanswered.response hsuccess index (hsize.symm ▸ List.mem_range.mp hindex)
    rw [hanswered.reported hsuccess, Option.getD_some, hsize, hcopy, load_answer_shownExchange]
  rw [receivedReply, dif_pos hsuccess]
  simp only [hbytes, frame.short, dite_true]

/-! ### The two transports -/

/-- The paged SPI transport, with its loops cut off after a number of rounds. -/
def spiDriver (place : Place) (rounds : ℕ) : Driver SpiReply SpiMailbox where
  environment := spiMailbox
  cells := SpiMailbox.cells
  send request := do
    let sent ← libhothSpiSendRequest
      (libhothSpiOpened place.address place.busyWaitTimeout place.busyWaitCheckInterval) request
      rounds
    return sent.getD (spiErrLibhoth (statusInt .fail))
  receive maxResponseSize := do
    let received ← libhothSpiReceiveResponse
      (libhothSpiOpened place.address place.busyWaitTimeout place.busyWaitCheckInterval)
      (fun _ ↦ 0) maxResponseSize (some 0)
    return receivedReply received maxResponseSize

/-- The MTD transport, with its loops cut off after a number of rounds. -/
def mtdDriver (place : Place) (rounds : ℕ) : Driver MtdReply MtdMailbox where
  environment := mtdMailbox
  cells := MtdMailbox.cells
  send request := do
    let sent ← libhothMtdSendRequest place.address request rounds
    return sent.getD (mtdErrLibhoth (statusInt .fail))
  receive maxResponseSize := do
    let received ← libhothMtdReceiveResponse place.address (fun _ ↦ 0) maxResponseSize (some 0)
      rounds
    return (received.map (receivedReply · maxResponseSize)).getD
      (.failed (cmdExecStatus .fail) (cmdExecStatus_ne_success _))

/-- The exchange of a request. -/
def sentExchange (place : Place) {request : List UInt8} (hnonempty : request ≠ [])
    (hlength : request.length ≤ libhothMailboxSize) (rot : (ℕ → UInt8) → ℕ → UInt8)
    (cells : ℕ → UInt8) : MailboxTransports.Exchange where
  mailboxAddress := place.address
  fits := place.fits
  requestData := request
  nonempty := hnonempty
  short := hlength
  mailbox := cells
  rot := rot
  response := fun _ ↦ 0
  maxResponseSize := libhothMailboxSize
  header := Nat.le_of_ble_eq_true rfl
  actualSize := 0
  busyWaitTimeout := place.busyWaitTimeout
  busyWaitCheckInterval := place.busyWaitCheckInterval

/-- The paged SPI transport delivers. -/
theorem spiDriver_delivers (place : Place) (rounds : ℕ) :
    (spiDriver place (rounds + 1)).Delivers place where
  serial := spiMailbox_serial
  send rot chip request hnonempty hlength := by
    refine (ensures_bind _ _ _ _).mpr ?_
    refine ((sentExchange place hnonempty hlength rot chip.cells).libhothSpiSendRequest_ensures
      rounds chip.writeEnabled).mono ?_
    rintro _ after ⟨rfl, hcells⟩
    exact (ensures_done _ _ _).mpr ⟨rfl, hcells⟩
  receive frame chip := by
    refine (ensures_bind _ _ _ _).mpr ?_
    refine ((shownExchange place frame chip.cells).libhothSpiReceiveResponse_ensures
      (requested_shownExchange place frame chip.cells).symm).mono ?_
    rintro received after ⟨-, hanswered⟩
    exact (ensures_done _ _ _).mpr (receivedReply_of_answered hanswered)

/-- Every call of the MTD transport is answered. -/
theorem mtdMailbox_serial (rot : (ℕ → UInt8) → ℕ → UInt8) (mailbox : MtdMailbox) (call : MtdCall) :
    ∃ reply next, mtdMailbox rot mailbox call reply next := by
  cases call with
  | lseek offset => exact ⟨true, _, rfl, rfl⟩
  | read count =>
    refine ⟨.bytes (load (rot mailbox.cells) mailbox.position count) (length_load _ _ _).le, _,
      fun hcount ↦ ?_, ?_, rfl⟩
    · exact List.ne_nil_of_length_pos ((length_load _ _ _).symm ▸ hcount)
    · rw [length_load]
  | write data => exact ⟨.written data.length, _, rfl, rfl⟩

/-- The MTD transport delivers. -/
theorem mtdDriver_delivers (place : Place) (rounds : ℕ) :
    (mtdDriver place (rounds + 2 ^ 16)).Delivers place where
  serial := mtdMailbox_serial
  send rot chip request hnonempty hlength := by
    refine (ensures_bind _ _ _ _).mpr ?_
    refine ((sentExchange place hnonempty hlength rot chip.cells).libhothMtdSendRequest_ensures
      (rounds + (2 ^ 16 - 1)) chip.position).mono ?_
    rintro _ after ⟨rfl, hcells⟩
    exact (ensures_done _ _ _).mpr ⟨rfl, hcells⟩
  receive frame chip := by
    refine (ensures_bind _ _ _ _).mpr ?_
    refine ((shownExchange place frame chip.cells).libhothMtdReceiveResponse_ensures
      (requested_shownExchange place frame chip.cells).symm (Nat.le_add_left _ _)).mono ?_
    rintro _ after ⟨received, rfl, -, hanswered⟩
    exact (ensures_done _ _ _).mpr (receivedReply_of_answered hanswered)

/-- Behind either transport a program over host commands does what it does at the service itself:
the results that it can have, and the states in which it leaves the service, are the same. -/
theorem runs_over_mailbox_iff {σ α : Type} (place : Place) (service : Service σ) (rounds : ℕ)
    (program : HostProgram α) (spi : SpiMailbox) (mtd : MtdMailbox) (frame : ResponseFrame)
    (before : σ) (result : α) (final : σ) :
    ((∃ after, Runs (boardEnvironment (spiDriver place (rounds + 1)) service place)
        (interpret execOnTransport program) ⟨spi, before, frame⟩ result after ∧
          after.state = final) ↔
      Runs (serviceEnvironment service) program before result final) ∧
    ((∃ after, Runs (boardEnvironment (mtdDriver place (rounds + 2 ^ 16)) service place)
        (interpret execOnTransport program) ⟨mtd, before, frame⟩ result after ∧
          after.state = final) ↔
      Runs (serviceEnvironment service) program before result final) := by
  constructor
  · exact runs_service_iff ((spiDriver_delivers place rounds).carries service) program trivial
      result final
  · exact runs_service_iff ((mtdDriver_delivers place rounds).carries service) program trivial
      result final

end Libhoth.Transports.ServiceOverMailbox
