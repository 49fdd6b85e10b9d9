import Libhoth.Foundation.SpiNorFlash
import Libhoth.Transports.SpiDevice

/-!
# The mailbox behind a SPI bus

`spiMailbox` is the environment of the SPI transport with a mailbox behind the bus: page programs
store into an array of bytes, and reads return the bytes that the root of trust shows in answer to
it, whatever they are. No call fails, and the device is never busy.

`transferAll` is a message on the bus, transfer by transfer, and the lemmas about it say what the
messages of the transport come to. `spiNorWrite_ensures` and `spiNorRead_ensures` are the two
functions that the paged path is made of.
-/

set_option autoImplicit false
set_option relaxedAutoImplicit false

namespace Libhoth.Transports.MailboxOverSpi

open Foundation.ByteString Foundation.CellMemory Foundation.InteractingProgram
open Foundation.SpiNorFlash LibhothEc SpiDevice

/-! ### The environment -/

/-- A mailbox behind a SPI bus, with its write-enable latch. -/
structure SpiMailbox where
  cells : ℕ → UInt8
  writeEnabled : Bool

/-- The effect of a command. -/
def SpiMailbox.execute (mailbox : SpiMailbox) : SpiCommand → SpiMailbox
  | .writeEnable => { mailbox with writeEnabled := true }
  | .program address data =>
    if mailbox.writeEnabled then ⟨store mailbox.cells address data, false⟩ else mailbox
  | .erase _ _ | .other => mailbox

/-- What the chip sends after a command, for the bytes that it shows. -/
def reading (shown : ℕ → UInt8) (command : List UInt8) (count : ℕ) : List UInt8 :=
  match command with
  | [] => List.replicate count 0
  | opcode :: rest =>
    if opcode = spiNorOpcodeSlowRead then load shown (littleEndian (rest.take 4).reverse) count
    else List.replicate count 0

/-- The bytes that a transfer sends. -/
def sent (transfer : SpiIocTransfer) : List UInt8 :=
  (transfer.txBuf.getD []).take transfer.len.toNat

/-- A message on the bus, after the bytes that were sent since the chip was selected: the bytes
received and the mailbox. The root of trust shows its answer to what is stored in the mailbox. -/
def transferAll (rot : (ℕ → UInt8) → ℕ → UInt8) :
    SpiMailbox → List UInt8 → List SpiIocTransfer → List UInt8 × SpiMailbox
  | mailbox, command, [] => ([], mailbox.execute (decodeCommand 4 command))
  | mailbox, command, transfer :: rest =>
    let command := command ++ sent transfer
    let received :=
      if transfer.rxBuf then reading (rot mailbox.cells) command transfer.len.toNat else []
    let later :=
      if transfer.csChange then
        transferAll rot (mailbox.execute (decodeCommand 4 command)) [] rest
      else transferAll rot mailbox command rest
    (received ++ later.1, later.2)

/-- The environment of the SPI transport: a mailbox that is never busy, and no call fails. -/
def spiMailbox (rot : (ℕ → UInt8) → ℕ → UInt8) : Environment SpiReply SpiMailbox :=
    fun mailbox call reply next ↦
  match call, reply with
  | .message _, .failed _ => False
  | .message transfers, .received bytes _ => (bytes, next) = transferAll rot mailbox [] transfers
  | .statusMessage _, .failed _ => False
  | .statusMessage _, .received bytes _ =>
    bytes.getD 1 0 &&& spiNorDeviceStatusWipBit = 0 ∧ next = mailbox
  | .getMonotonicMs, time => time ≠ none ∧ next = mailbox
  | .usleep _, _ => next = mailbox
  | .malloc _, allocated => allocated = true ∧ next = mailbox

/-! ### Messages on the bus -/

theorem length_spiNorAddress (address : UInt32) : (spiNorAddress address true).length = 4 := by
  simp [spiNorAddress]

/-- The address of a command is read back. -/
theorem littleEndian_spiNorAddress (address : UInt32) (data : List UInt8) :
    littleEndian (((spiNorAddress address true ++ data).take 4).reverse) = address.toNat := by
  rw [List.take_left' (length_spiNorAddress address), spiNorAddress, List.reverse_reverse]
  exact littleEndian_toLittleEndian_of_lt address.toNat_lt

/-- A page program is decoded. -/
theorem decodeCommand_pageProgram (address : UInt32) (data : List UInt8) :
    decodeCommand 4 (spiNorOpcodePageProgram :: (spiNorAddress address true ++ data)) =
      .program address.toNat data := by
  simp only [decodeCommand, littleEndian_spiNorAddress,
    List.drop_left' (length_spiNorAddress address)]
  rfl

@[simp] theorem sent_commandTransfer (opcode : UInt8) (address : UInt32) :
    sent (commandTransfer opcode address true) = opcode :: spiNorAddress address true := by
  have hlength : (UInt32.ofNat (opcode :: spiNorAddress address true).length).toNat = 5 := by
    rw [List.length_cons, length_spiNorAddress]
    rfl
  unfold sent commandTransfer sending
  dsimp only [Option.getD_some]
  rw [hlength]
  exact List.take_of_length_le (by rw [List.length_cons, length_spiNorAddress])

@[simp] theorem sent_sending (bytes : List UInt8) (len : UInt32) (csChange : Bool) :
    sent (sending bytes len csChange) = bytes.take len.toNat :=
  rfl

variable (rot : (ℕ → UInt8) → ℕ → UInt8)

/-- A message that has ended leaves the mailbox. -/
theorem transferAll_nil (mailbox : SpiMailbox) : transferAll rot mailbox [] [] = ([], mailbox) :=
  rfl

/-- The last bytes of a command, where the chip is deselected or the message ends. -/
theorem transferAll_sending (mailbox : SpiMailbox) (command bytes : List UInt8) (len : UInt32)
    {csChange : Bool} {rest : List SpiIocTransfer} (hlast : csChange = true ∨ rest = []) :
    transferAll rot mailbox command (sending bytes len csChange :: rest) =
      transferAll rot (mailbox.execute (decodeCommand 4 (command ++ bytes.take len.toNat))) []
        rest := by
  rcases hlast with rfl | rfl
  · rfl
  · cases csChange <;> rfl

/-- The address of a command goes before what follows it. -/
theorem transferAll_commandTransfer (mailbox : SpiMailbox) (opcode : UInt8) (address : UInt32)
    (rest : List SpiIocTransfer) :
    transferAll rot mailbox [] (commandTransfer opcode address true :: rest) =
      transferAll rot mailbox (opcode :: spiNorAddress address true) rest := by
  have hsent := sent_commandTransfer opcode address
  rw [transferAll, hsent]
  rfl

/-- A page program stores what it sends. -/
theorem transferAll_pageProgram (cells : ℕ → UInt8) (address : UInt32) (data : List UInt8)
    (len : UInt32) {csChange : Bool} {rest : List SpiIocTransfer}
    (hlast : csChange = true ∨ rest = []) :
    transferAll rot ⟨cells, true⟩ [] (commandTransfer spiNorOpcodePageProgram address true ::
        sending data len csChange :: rest) =
      transferAll rot ⟨store cells address.toNat (data.take len.toNat), false⟩ [] rest := by
  rw [transferAll_commandTransfer, transferAll_sending rot _ _ _ _ hlast, List.cons_append,
    decodeCommand_pageProgram]
  rfl

/-- A read shows the answer. -/
theorem transferAll_read (mailbox : SpiMailbox) (address len : UInt32) :
    transferAll rot mailbox [] [commandTransfer spiNorOpcodeSlowRead address true, receiving len] =
      (load (rot mailbox.cells) address.toNat len.toNat, mailbox) := by
  have hreading : reading (rot mailbox.cells) (spiNorOpcodeSlowRead :: spiNorAddress address true)
      len.toNat = load (rot mailbox.cells) address.toNat len.toNat := by
    have haddress := littleEndian_spiNorAddress address []
    rw [List.append_nil] at haddress
    exact congrArg (fun start ↦ load (rot mailbox.cells) start len.toNat) haddress
  rw [transferAll_commandTransfer]
  have hreceived : transferAll rot mailbox (spiNorOpcodeSlowRead :: spiNorAddress address true)
      [receiving len] = (reading (rot mailbox.cells)
        (spiNorOpcodeSlowRead :: spiNorAddress address true ++ []) len.toNat ++ [],
        mailbox.execute (decodeCommand 4
          (spiNorOpcodeSlowRead :: spiNorAddress address true ++ []))) := rfl
  rw [hreceived, List.append_nil, List.append_nil, hreading]
  rfl

/-- The message of the atomic path stores the request and reads the answer. -/
theorem transferAll_atomicTransfers (spiDev : LibhothSpiDevice) (hmode : spiDev.addressMode4b)
    (mailbox : SpiMailbox) (requestData : List UInt8) (maxResponseSize : ℕ)
    (hshort : requestData.length < 2 ^ 32) :
    transferAll rot mailbox [] (atomicTransfers spiDev requestData maxResponseSize) =
      (load (rot (store mailbox.cells spiDev.mailboxAddress.toNat requestData))
          spiDev.mailboxAddress.toNat (maxResponseSize % 2 ^ 32),
        ⟨store mailbox.cells spiDev.mailboxAddress.toNat requestData, false⟩) := by
  have hwhole : requestData.take (UInt32.ofNat requestData.length).toNat = requestData := by
    rw [UInt32.toNat_ofNat', Nat.mod_eq_of_lt hshort, List.take_length]
  have hlength : (UInt32.ofNat maxResponseSize).toNat = maxResponseSize % 2 ^ 32 :=
    UInt32.toNat_ofNat'
  have henabled : mailbox.execute (decodeCommand 4
      ([] ++ [spiNorOpcodeWriteEnable].take (1 : UInt32).toNat)) = ⟨mailbox.cells, true⟩ := rfl
  unfold atomicTransfers
  rw [hmode, transferAll_sending rot _ _ _ _ (.inl rfl), henabled,
    transferAll_pageProgram rot _ _ _ _ (.inl rfl), transferAll_read, hwhole, hlength]

@[simp] theorem length_reading (shown : ℕ → UInt8) (command : List UInt8) (count : ℕ) :
    (reading shown command count).length = count := by
  unfold reading
  split
  · exact List.length_replicate
  · split_ifs
    · exact length_load _ _ _
    · exact List.length_replicate

/-- A message receives the bytes that it asks for. -/
theorem length_transferAll (mailbox : SpiMailbox) (command : List UInt8)
    (transfers : List SpiIocTransfer) :
    (transferAll rot mailbox command transfers).1.length = receivedLength transfers := by
  induction transfers generalizing mailbox command with
  | nil => rfl
  | cons transfer rest ih =>
    rw [transferAll, receivedLength]
    dsimp only
    rw [List.length_append]
    congr 1
    · split_ifs
      · exact length_reading _ _ _
      · rfl
    · split_ifs
      · exact ih _ _
      · exact ih _ _

/-- Every call of the SPI transport is answered. -/
theorem spiMailbox_serial (mailbox : SpiMailbox) (call : SpiCall) :
    ∃ reply next, spiMailbox rot mailbox call reply next := by
  cases call with
  | message transfers =>
    exact ⟨.received _ (length_transferAll rot mailbox [] transfers), _, rfl⟩
  | statusMessage transfer =>
    have hidle : (List.replicate transfer.len.toNat (0 : UInt8)).getD 1 0 = 0 := by
      rw [List.getD_eq_getElem?_getD, List.getElem?_replicate]
      split_ifs <;> rfl
    refine ⟨.received (List.replicate transfer.len.toNat 0) List.length_replicate, mailbox, ?_, rfl⟩
    rw [hidle]
    rfl
  | getMonotonicMs => exact ⟨some 0, mailbox, Option.some_ne_none _, rfl⟩
  | usleep us => exact ⟨(), mailbox, rfl⟩
  | malloc size => exact ⟨true, mailbox, rfl, rfl⟩

/-! ### Writing and reading -/

/-- An address further on, where the addresses do not wrap around. -/
theorem toNat_add_ofNat {address : UInt32} {count : ℕ} (hfits : address.toNat + count < 2 ^ 32) :
    (address + UInt32.ofNat count).toNat = address.toNat + count := by
  rw [UInt32.toNat_add, UInt32.toNat_ofNat', Nat.add_mod_mod, Nat.mod_eq_of_lt hfits]

/-- A message is answered. -/
theorem message_ensures (transfers : List SpiIocTransfer) (mailbox : SpiMailbox) :
    Ensures (spiMailbox rot) (request (SpiCall.message transfers)) mailbox fun reply final ↦
      ∃ bytes filled, reply = .received bytes filled ∧
        (bytes, final) = transferAll rot mailbox [] transfers := by
  rw [ensures_request]
  intro reply final hstep
  cases reply with
  | failed errno => exact hstep.elim
  | received bytes filled => exact ⟨bytes, filled, rfl, hstep⟩

/-- The device is never busy. -/
theorem spiNorBusyWait_ensures (timeoutUs checkIntervalUs : UInt32) (rounds : ℕ)
    (mailbox : SpiMailbox) :
    Ensures (spiMailbox rot) (spiNorBusyWait timeoutUs checkIntervalUs (rounds + 1)) mailbox
      fun outcome final ↦ outcome = some libhothOk ∧ final = mailbox := by
  rw [spiNorBusyWait, ensures_bind, ensures_request]
  rintro reply middle ⟨hreply, hmiddle⟩
  subst hmiddle
  cases reply with
  | none => exact absurd rfl hreply
  | some startTimeMs =>
    have hround : Ensures (spiMailbox rot)
        (busyWaitRound timeoutUs checkIntervalUs startTimeMs ()) middle fun outcome final ↦
          ∃ value, outcome = .inr value ∧ (value = libhothOk ∧ final = middle) := by
      rw [busyWaitRound, ensures_bind, ensures_request]
      intro reply final hstep
      cases reply with
      | failed errno => exact hstep.elim
      | received rxBuf filled =>
        dsimp only
        rw [if_pos hstep.1]
        exact (ensures_done _ _ _).mpr ⟨libhothOk, rfl, rfl, hstep.2⟩
    refine (whileRounds_ensures_first hround rounds).mono ?_
    rintro _ final ⟨_, rfl, rfl, rfl⟩
    exact ⟨rfl, rfl⟩

/-- A write enable sets the latch. -/
theorem spiNorWriteEnable_ensures (mailbox : SpiMailbox) :
    Ensures (spiMailbox rot) spiNorWriteEnable mailbox fun status final ↦
      status = libhothOk ∧ final = ⟨mailbox.cells, true⟩ := by
  rw [spiNorWriteEnable, ensures_bind]
  refine (message_ensures rot _ mailbox).mono ?_
  rintro _ final ⟨bytes, filled, rfl, hstep⟩
  refine (ensures_done _ _ _).mpr ⟨rfl, ?_⟩
  rw [transferAll_sending rot _ _ _ _ (.inr rfl)] at hstep
  exact congrArg Prod.snd hstep

/-- What the write loop keeps: the bytes that were sent are stored from the address on. -/
structure Written (cells : ℕ → UInt8) (address : UInt32) (data : List UInt8)
    (state : SpiDevice.WriteState) (mailbox : SpiMailbox) : Prop where
  bounded : state.bytesSent ≤ data.length
  placed : state.address.toNat = address.toNat + state.bytesSent
  stored : mailbox.cells = store cells address.toNat (data.take state.bytesSent)

/-- Storing the next bytes of the data. -/
theorem Written.next {cells : ℕ → UInt8} {address : UInt32} {data : List UInt8}
    {state : SpiDevice.WriteState} {mailbox : SpiMailbox}
    (hwritten : Written cells address data state mailbox)
    (hfits : address.toNat + data.length < 2 ^ 32) {chunk : ℕ}
    (hchunk : chunk ≤ data.length - state.bytesSent) (writeEnabled : Bool) :
    Written cells address data ⟨state.address + UInt32.ofNat chunk, state.bytesSent + chunk⟩
      ⟨store mailbox.cells state.address.toNat
        ((data.drop state.bytesSent).take (UInt32.ofNat chunk).toNat), writeEnabled⟩ := by
  have hbounded := hwritten.bounded
  have hplaced := hwritten.placed
  have hlen : (UInt32.ofNat chunk).toNat = chunk := by
    rw [UInt32.toNat_ofNat', Nat.mod_eq_of_lt (by omega)]
  have hsent : (data.take state.bytesSent).length = state.bytesSent :=
    List.length_take_of_le hbounded
  refine ⟨?_, ?_, ?_⟩
  · dsimp only
    omega
  · dsimp only
    rw [toNat_add_ofNat (by omega), hplaced, Nat.add_assoc]
  · dsimp only
    rw [hwritten.stored, hplaced, hlen, List.take_add, ← store_store_append, hsent]

/-- One page. -/
theorem writeRound_ensures {spiDev : LibhothSpiDevice} (hmode : spiDev.addressMode4b)
    {cells : ℕ → UInt8} {address : UInt32} {data : List UInt8}
    (hfits : address.toNat + data.length < 2 ^ 32) (rounds : ℕ) (state : SpiDevice.WriteState)
    (mailbox : SpiMailbox) (hwritten : Written cells address data state mailbox) :
    Ensures (spiMailbox rot) (SpiDevice.writeRound spiDev data (rounds + 1) state) mailbox
      fun outcome final ↦
        match outcome with
        | .inl next => Written cells address data next.val final
        | .inr value =>
          value = some libhothOk ∧ final.cells = store cells address.toNat data := by
  rw [SpiDevice.writeRound]
  split
  case isFalse hdone =>
    have hall : state.bytesSent = data.length :=
      Nat.le_antisymm hwritten.bounded (Nat.le_of_not_lt hdone)
    refine (ensures_done _ _ _).mpr ⟨rfl, ?_⟩
    rw [hwritten.stored, hall, List.take_length]
  case isTrue hmore =>
    rw [ensures_bind]
    refine (spiNorWriteEnable_ensures rot mailbox).mono ?_
    rintro _ _ ⟨rfl, rfl⟩
    rw [if_neg (not_not_intro rfl), ensures_bind]
    refine (message_ensures rot _ _).mono ?_
    rintro _ programmed ⟨bytes, filled, rfl, hstep⟩
    rw [hmode, transferAll_pageProgram rot _ _ _ _ (.inr rfl), transferAll_nil] at hstep
    dsimp only
    rw [ensures_bind]
    refine (spiNorBusyWait_ensures rot _ _ rounds programmed).mono ?_
    rintro _ final ⟨rfl, rfl⟩
    dsimp only
    rw [if_neg (not_not_intro rfl)]
    obtain rfl := congrArg Prod.snd hstep
    exact (ensures_done _ _ _).mpr (hwritten.next hfits (Nat.min_le_right _ _) false)

/-- A write stores its bytes. -/
theorem spiNorWrite_ensures {spiDev : LibhothSpiDevice} (hmode : spiDev.addressMode4b)
    {address : UInt32} {data : List UInt8} (hnonempty : data ≠ [])
    (hfits : address.toNat + data.length < 2 ^ 32) (rounds : ℕ) (mailbox : SpiMailbox) :
    Ensures (spiMailbox rot) (spiNorWrite spiDev address data (rounds + 1)) mailbox
      fun outcome final ↦
        outcome = some libhothOk ∧ final.cells = store mailbox.cells address.toNat data := by
  rw [spiNorWrite, if_neg hnonempty]
  refine whileDecreasing_ensures (Written mailbox.cells address data) (fun state start hstart ↦
    (writeRound_ensures rot hmode hfits rounds state start hstart).mono fun outcome final hround ↦
      ?_) _ _ ⟨Nat.zero_le _, rfl, ?_⟩
  · cases outcome <;> exact hround
  · exact (store_nil _ _).symm

/-- A read copies the shown bytes into the buffer. -/
theorem spiNorRead_ensures {spiDev : LibhothSpiDevice} (hmode : spiDev.addressMode4b)
    (address : UInt32) (buffer : ℕ → UInt8) (offset : ℕ) {len : ℕ} (hsome : 0 < len)
    (hlen : len < 2 ^ 32) (mailbox : SpiMailbox) :
    Ensures (spiMailbox rot) (spiNorRead spiDev address buffer offset len) mailbox
      fun outcome final ↦
        outcome = (libhothOk, store buffer offset (load (rot mailbox.cells) address.toNat len)) ∧
          final = mailbox := by
  rw [spiNorRead, if_neg (Nat.ne_of_gt hsome), ensures_bind]
  refine (message_ensures rot _ mailbox).mono ?_
  rintro _ final ⟨bytes, filled, rfl, hstep⟩
  rw [hmode, transferAll_read, UInt32.toNat_ofNat', Nat.mod_eq_of_lt hlen] at hstep
  obtain ⟨rfl, rfl⟩ := Prod.mk.inj hstep
  exact (ensures_done _ _ _).mpr ⟨rfl, rfl⟩

end Libhoth.Transports.MailboxOverSpi
