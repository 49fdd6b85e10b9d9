import Libhoth.Transports.ServiceOverMailbox
import Libhoth.Transports.UsbDevice
import Libhoth.Transports.UsbMailboxReceive
import Libhoth.Transports.UsbMailboxSend

/-!
# A service behind a USB mailbox

The mailbox of a board, reached through a pair of bulk endpoints. The root of trust answers each
packet in turn: it stores the bytes of a write, and hands out the bytes that a read asks for
(`usbMailbox`). `usbMailboxDriver` is the driver of `libhoth_usb_mailbox.c` behind the dispatch of
`libhoth_usb.c`.

It delivers when an IN packet has room for the header of a response and is not longer than an OUT
packet (`Suitable`), so that a program over host commands cannot tell the USB mailbox from the
service itself (`runs_over_usb_mailbox_iff`).
-/

set_option autoImplicit false
set_option relaxedAutoImplicit false

namespace Libhoth.Transports.ServiceOverUsbMailbox

open Foundation.ByteString Foundation.CellMemory Foundation.CheckedAccess
open Foundation.InteractingProgram
open Protocol.Status Protocol.HostCommand Protocol.HostCommandProgram Protocol.CommandService
open LibhothEc Libusb UsbDevice UsbMailbox UsbMailboxSend ServiceOverMailbox

/-! ### The mailbox -/

/-- The mailbox behind the endpoints, and what the next IN packet is. -/
structure UsbMailboxChip where
  cells : ℕ → UInt8
  reply : List UInt8

/-- What the root of trust does with a packet, for what it shows. -/
def UsbMailboxChip.take (rot : (ℕ → UInt8) → ℕ → UInt8) (chip : UsbMailboxChip)
    (packet : List UInt8) : UsbMailboxChip :=
  let offset := wordAt packet 1 4
  let length := wordAt packet 5 1
  if wordAt packet 0 1 = mailboxReqWrite then
    ⟨store chip.cells offset (slice packet mailboxRequestSize length), [mailboxSuccess, 0]⟩
  else if wordAt packet 0 1 = mailboxReqRead then
    ⟨chip.cells, [mailboxSuccess, 0] ++ load (rot chip.cells) offset length⟩
  else ⟨chip.cells, [1, 0]⟩

/-- What the packets meet, for what the root of trust shows. -/
def usbMailbox (rot : (ℕ → UInt8) → ℕ → UInt8) : Environment UsbReply UsbMailboxChip :=
    fun before call reply after ↦
  match call, reply with
  | .bulkOut _ data _, .transferred count _ => count = data.length ∧ after = before.take rot data
  | .bulkIn _ length _, .received bytes _ => bytes = before.reply.take length ∧ after = before
  | _, _ => False

/-- Every packet is answered. -/
theorem usbMailbox_serial (rot : (ℕ → UInt8) → ℕ → UInt8) (chip : UsbMailboxChip) (call : UsbCall) :
    ∃ reply next, usbMailbox rot chip call reply next := by
  cases call with
  | bulkOut endpoint data timeoutMs => exact ⟨.transferred data.length le_rfl, _, rfl, rfl⟩
  | bulkIn endpoint length timeoutMs =>
    exact ⟨.received (chip.reply.take length) (List.length_take_le _ _), _, rfl, rfl⟩

section Packets

variable {rot : (ℕ → UInt8) → ℕ → UInt8} {chip : UsbMailboxChip} {offset length : ℕ}

theorem wordAt_type {type : ℕ} (htype : type < 2 ^ 8) :
    wordAt (encodeMailboxRequest type offset length) 0 1 = type :=
  (littleEndian_toLittleEndian 1 type).trans (Nat.mod_eq_of_lt htype)

/-- A write stores its bytes. -/
theorem take_write {bytes : List UInt8} (hoffset : offset < 2 ^ 32) (hlength : length < 2 ^ 8)
    (hbytes : bytes.length = length) :
    chip.take rot (encodeMailboxRequest mailboxReqWrite offset length ++ bytes) =
      ⟨store chip.cells offset bytes, [mailboxSuccess, 0]⟩ := by
  have hheader := length_encodeMailboxRequest mailboxReqWrite offset length
  obtain ⟨hoffsetWord, hlengthWord⟩ := wordAt_encodeMailboxRequest mailboxReqWrite offset length
  have hslice : slice (encodeMailboxRequest mailboxReqWrite offset length ++ bytes)
      mailboxRequestSize length = bytes := by
    rw [slice, List.drop_left' hheader, List.take_of_length_le hbytes.le]
  rw [UsbMailboxChip.take, wordAt_append_left (by rw [hheader]; decide),
    wordAt_append_left (by rw [hheader]; decide), wordAt_append_left (by rw [hheader]; decide),
    hoffsetWord, hlengthWord, Nat.mod_eq_of_lt hoffset, Nat.mod_eq_of_lt hlength, hslice,
    wordAt_type (by decide), if_pos rfl]

/-- A read hands out the bytes that it asks for. -/
theorem take_read (hoffset : offset < 2 ^ 32) (hlength : length < 2 ^ 8) :
    chip.take rot (encodeMailboxRequest mailboxReqRead offset length) =
      ⟨chip.cells, [mailboxSuccess, 0] ++ load (rot chip.cells) offset length⟩ := by
  obtain ⟨hoffsetWord, hlengthWord⟩ := wordAt_encodeMailboxRequest mailboxReqRead offset length
  have hother : mailboxReqRead ≠ mailboxReqWrite := by decide
  rw [UsbMailboxChip.take, hoffsetWord, hlengthWord, Nat.mod_eq_of_lt hoffset,
    Nat.mod_eq_of_lt hlength, wordAt_type (by decide), if_neg hother, if_pos rfl]

end Packets

/-- Packet sizes with which the mailbox is read and written whole. -/
structure Suitable (drvdata : LibhothUsbMailbox) : Prop where
  opened : OpenMailbox drvdata
  header : mailboxResponseSize + headerSize ≤ drvdata.maxPacketSizeIn.toNat
  noLonger : drvdata.maxPacketSizeIn.toNat ≤ drvdata.maxPacketSizeOut.toNat

/-! ### Sending -/

section Sending

variable {drvdata : LibhothUsbMailbox} {rot : (ℕ → UInt8) → ℕ → UInt8} {chip now : UsbMailboxChip}
  {requestData : List UInt8} {state : SendState}

theorem Suitable.sendFits (hsuitable : Suitable drvdata) {requestSize : ℕ}
    (hshort : requestSize ≤ libhothMailboxSize) : SendFits drvdata requestSize := by
  have hheader := hsuitable.header
  have hnoLonger := hsuitable.noLonger
  unfold SendFits
  simp only [mailboxResponseSize, headerSize, mailboxRequestSize, libhothMailboxSize] at *
  omega

/-- Storing the next bytes of a request behind the ones before. -/
theorem store_take_slice (cells : ℕ → UInt8) {offset : ℕ} (hinside : offset ≤ requestData.length)
    (length : ℕ) :
    store (store cells 0 (requestData.take offset)) offset (slice requestData offset length) =
      store cells 0 (requestData.take (offset + length)) := by
  have happend := store_store_append cells 0 (requestData.take offset)
    (slice requestData offset length)
  rwa [Nat.zero_add, List.length_take_of_le hinside, slice, ← List.take_add] at happend

/-- One round stores the next bytes of the request. -/
theorem sendRound_ensures_chip (hsuitable : Suitable drvdata)
    (hshort : requestData.length ≤ libhothMailboxSize) (hinside : state.offset ≤ requestData.length)
    (hnow : now.cells = store chip.cells 0 (requestData.take state.offset)) :
    Ensures (usbMailbox rot) (sendRound drvdata requestData state) now fun outcome final ↦
      match outcome with
      | .inl next => (next.offset ≤ requestData.length ∧
          final.cells = store chip.cells 0 (requestData.take next.offset)) ∧
            requestData.length - next.offset < requestData.length - state.offset
      | .inr result => result = .ok Libusb.libhothOk ∧
          final.cells = store chip.cells 0 requestData := by
  rw [sendRound]
  split_ifs with hmore
  · obtain ⟨hpositive, hout⟩ :=
      (hsuitable.sendFits hshort).writeLength_bounds hsuitable.opened hmore
    have hlength := writeLength_le drvdata requestData.length state.offset
    have houtMost := hsuitable.opened.outAtMost
    have hbytes : (slice requestData state.offset
        (writeLength drvdata requestData.length state.offset)).length =
          writeLength drvdata requestData.length state.offset :=
      length_slice_of_le (by omega)
    obtain ⟨filled, hfilled⟩ := fillPacket_of_le state.packet
      (show state.offset + writeLength drvdata requestData.length state.offset ≤
        requestData.length by omega) (hout.trans houtMost)
    simp only [libhothMailboxSize, mailboxRequestSize] at hshort hout
    simp only [hfilled]
    refine (ensures_bind _ _ _ _).mpr ((ensures_request _ _ _).mpr ?_)
    intro sent after hsent
    cases sent with
    | failed status nonzero => exact absurd hsent not_false
    | transferred count fits =>
      obtain ⟨hcount, rfl⟩ := hsent
      rw [length_packet (by omega)] at hcount
      rw [take_write (by omega) (by omega) hbytes]
      simp only [hcount, mailboxRequestSize, ne_eq, not_true, if_false, ensures_bind,
        ensures_request]
      intro reply after hreply
      cases reply with
      | failed status nonzero => exact absurd hreply not_false
      | received bytes fits =>
        obtain ⟨rfl, rfl⟩ := hreply
        refine (ensures_done _ _ _).mpr ?_
        have hnext : (state.offset + writeLength drvdata requestData.length state.offset) % 2 ^ 32 =
            state.offset + writeLength drvdata requestData.length state.offset :=
          Nat.mod_eq_of_lt (by omega)
        refine ⟨⟨?_, ?_⟩, ?_⟩
        · dsimp only
          omega
        · dsimp only
          rw [hnext, hnow, store_take_slice chip.cells hinside]
        · dsimp only
          omega
  · have hall : requestData.take state.offset = requestData :=
      List.take_of_length_le (not_lt.mp hmore)
    exact (ensures_done _ _ _).mpr ⟨rfl, hall ▸ hnow⟩

/-- A request is stored in the mailbox. -/
theorem libhothUsbMailboxSendRequest_ensures_chip (hsuitable : Suitable drvdata)
    (hshort : requestData.length ≤ libhothMailboxSize) (packet : ℕ → UInt8) {rounds : ℕ}
    (henough : libhothMailboxSize < rounds) :
    Ensures (usbMailbox rot) (libhothUsbMailboxSendRequest drvdata requestData packet rounds) chip
      fun outcome final ↦ outcome = some (.ok Libusb.libhothOk) ∧
        final.cells = store chip.cells 0 requestData := by
  have hloop : Ensures (usbMailbox rot)
      (libhothUsbMailboxSendRequest drvdata requestData packet rounds) chip fun outcome final ↦
        ∃ result, outcome = some result ∧
          result = .ok Libusb.libhothOk ∧ final.cells = store chip.cells 0 requestData := by
    refine whileRounds_total (fun state : SendState ↦ requestData.length - state.offset)
      (fun state now ↦ state.offset ≤ requestData.length ∧
        now.cells = store chip.cells 0 (requestData.take state.offset))
      ?_ rounds ⟨0, packet⟩ chip ⟨Nat.zero_le _, ?_⟩ ?_
    · intro state now ⟨hinside, hnow⟩
      refine (sendRound_ensures_chip hsuitable hshort hinside hnow).mono fun outcome _ hend ↦ ?_
      cases outcome <;> exact hend
    · rw [List.take_zero, store_nil]
    · exact (Nat.sub_le _ _).trans_lt (hshort.trans_lt henough)
  refine hloop.mono ?_
  rintro _ final ⟨_, rfl, rfl, hfinal⟩
  exact ⟨rfl, hfinal⟩

end Sending

/-! ### Receiving -/

section Receiving

variable {drvdata : LibhothUsbMailbox} {rot : (ℕ → UInt8) → ℕ → UInt8} {chip now : UsbMailboxChip}
  {frame : List UInt8} {image : ℕ → UInt8} {state : ReceiveState} {maxResponseSize : ℕ}

/-- A receive part way through: the bytes so far are those that the mailbox shows, and the size is
known once the header was read. -/
structure ReadingFrame (rot : (ℕ → UInt8) → ℕ → UInt8) (image : ℕ → UInt8) (frame : List UInt8)
    (state : ReceiveState) (now : UsbMailboxChip) : Prop where
  shown : rot now.cells = image
  inside : state.offset ≤ libhothMailboxSize
  bytes : load state.response 0 state.offset = load image 0 state.offset
  expected : state.expectedSize = if state.offset = 0 then libhothMailboxSize else frame.length

/-- A receive that returned the frame. -/
def ReadFrame (frame : List UInt8) (result : Except Fault ReceiveResult) : Prop :=
  ∃ out, result = .ok out ∧ out.status = Libusb.libhothOk ∧ out.actualSize = some frame.length ∧
    load out.response 0 frame.length = frame

/-- The header of a frame is in its first bytes. -/
theorem decode_take (hframe : headerSize ≤ frame.length) :
    HothHostResponse.decode (frame.take headerSize) = HothHostResponse.decode frame := by
  have hlength : (frame.take headerSize).length = 8 := List.length_take_of_le hframe
  have hword : ∀ offset width, offset + width ≤ 8 →
      wordAt (frame.take headerSize) offset width = wordAt frame offset width := by
    intro offset width hinside
    conv_rhs => rw [← List.take_append_drop headerSize frame]
    exact (wordAt_append_left (hlength.symm ▸ hinside) _).symm
  simp only [HothHostResponse.decode]
  rw [hword 0 1 (by decide), hword 1 1 (by decide), hword 2 2 (by decide), hword 4 2 (by decide),
    hword 6 2 (by decide)]

theorem take_load (image : ℕ → UInt8) (offset : ℕ) {length count : ℕ} (hcount : count ≤ length) :
    (load image offset length).take count = load image offset count := by
  rw [← Nat.add_sub_cancel' hcount, load_add, List.take_left' (length_load _ _ _)]

/-- The cells behind the status of a packet. -/
theorem load_store_status (packet image : ℕ → UInt8) (offset : ℕ) {length count : ℕ}
    (hcount : count ≤ length) :
    load (store packet 0 ([mailboxSuccess, 0] ++ load image offset length)) mailboxResponseSize
      count = load image offset count := by
  have hinside : mailboxResponseSize + count ≤
      ([mailboxSuccess, 0] ++ load image offset length).length := by
    simp only [mailboxResponseSize, List.length_append, List.length_cons, List.length_nil,
      length_load]
    omega
  rw [load_store packet hinside]
  exact take_load image offset hcount

/-- The header of the frame, as the first packet has it. -/
theorem packetHeader_of_image (hframe : headerSize ≤ frame.length)
    (himage : load image 0 frame.length = frame) {length : ℕ} (hlength : headerSize ≤ length)
    (packet : ℕ → UInt8) :
    packetHeader (store packet 0 ([mailboxSuccess, 0] ++ load image 0 length)) =
      HothHostResponse.decode frame := by
  have hfirst : load image 0 headerSize = frame.take headerSize := by
    rw [← take_load image 0 hframe, himage]
  rw [packetHeader, load_store_status packet image 0 hlength, hfirst, decode_take hframe]

theorem load_of_prefix {response : ℕ → UInt8} {count : ℕ}
    (hbytes : load response 0 count = load image 0 count) (hcount : frame.length ≤ count)
    (himage : load image 0 frame.length = frame) : load response 0 frame.length = frame := by
  rw [← take_load response 0 hcount, hbytes, take_load image 0 hcount, himage]

/-- What is asked for in a round: some bytes, inside the mailbox, that fit a packet with its status.
The first packet has room for the header, and a short one ends the mailbox. -/
theorem Suitable.readLength_bounds (hsuitable : Suitable drvdata) {offset : ℕ}
    (hbelow : offset < libhothMailboxSize) :
    0 < readLength drvdata libhothMailboxSize offset ∧
      offset + readLength drvdata libhothMailboxSize offset ≤ libhothMailboxSize ∧
      mailboxResponseSize + readLength drvdata libhothMailboxSize offset ≤ libhothUsbMailboxMtu ∧
      (offset = 0 → headerSize ≤ readLength drvdata libhothMailboxSize offset) ∧
      (mailboxResponseSize + readLength drvdata libhothMailboxSize offset <
          maxPayloadSize drvdata →
        offset + readLength drvdata libhothMailboxSize offset = libhothMailboxSize) := by
  have hbounds := hsuitable.opened.maxPayloadSize_bounds
  have hpayload := hsuitable.opened.maxPayloadSize_eq
  have hheader := hsuitable.header
  rw [hsuitable.opened.readLength_eq]
  simp only [mailboxResponseSize, headerSize, libhothMailboxSize, libhothUsbMailboxMtu] at *
  omega

theorem libhothMailboxSize_lt : libhothMailboxSize < 2 ^ 32 := by
  rw [libhothMailboxSize]
  omega

theorem readable_byte {length : ℕ} (hmtu : mailboxResponseSize + length ≤ libhothUsbMailboxMtu) :
    length < 2 ^ 8 := by
  simp only [mailboxResponseSize, libhothUsbMailboxMtu] at hmtu
  omega

/-- A reply fits the packet that asked for its bytes. -/
theorem take_reply (image : ℕ → UInt8) (offset length : ℕ) :
    ([mailboxSuccess, 0] ++ load image offset length).take (mailboxResponseSize + length) =
      [mailboxSuccess, 0] ++ load image offset length := by
  refine List.take_of_length_le ?_
  simp only [mailboxResponseSize, List.length_append, List.length_cons, List.length_nil,
    length_load]
  omega

/-- A packet of the cells that are shown is accepted, with the size of the frame from the first one
on. -/
theorem receivePacket_of_shown (drvdata : LibhothUsbMailbox) (hframe : WellFormedResponse frame)
    (hshort : frame.length ≤ libhothMailboxSize) (himage : load image 0 frame.length = frame)
    (hreading : ReadingFrame rot image frame state now) {length : ℕ}
    (hinside : state.offset + length ≤ libhothMailboxSize)
    (hmtu : mailboxResponseSize + length ≤ libhothUsbMailboxMtu)
    (hfirst : state.offset = 0 → headerSize ≤ length) :
    ∃ next, receivePacket drvdata libhothMailboxSize length state
        ([mailboxSuccess, 0] ++ load image state.offset length) =
          .ok (finishRound drvdata length (mailboxResponseSize + length) next) ∧
      next.offset = state.offset ∧ next.expectedSize = frame.length ∧
        load next.response 0 (state.offset + length) = load image 0 (state.offset + length) := by
  have hlength : ([mailboxSuccess, 0] ++ load image state.offset length).length =
      mailboxResponseSize + length := by
    simp only [mailboxResponseSize, List.length_append, List.length_cons, List.length_nil,
      length_load]
  have hheader : CarriesHeader state length →
      packetHeader (state.filled ([mailboxSuccess, 0] ++ load image state.offset length)) =
        HothHostResponse.decode frame := by
    intro hcarries
    rw [ReceiveState.filled, hcarries.1]
    exact packetHeader_of_image hframe.size himage hcarries.2 state.packet
  rcases receivePacket_cases state length _ drvdata
    (show headerSize ≤ libhothMailboxSize by decide) (hlength.trans_le hmtu) hmtu hinside
    with ⟨-, -, -, hrefused⟩ | ⟨-, haccepted⟩
  · rcases hrefused with hcut | hstatus | ⟨hcarries, hversion⟩
    · rw [hlength] at hcut
      omega
    · refine absurd ?_ hstatus
      exact store_of_mem state.packet le_rfl (by rw [hlength, mailboxResponseSize]; omega)
    · rw [hheader hcarries] at hversion
      exact absurd hframe.version hversion
  · rw [hlength] at haccepted
    refine ⟨_, haccepted, rfl, ?_, ?_⟩
    · have hexpected := hreading.expected
      rw [ReceiveState.accept]
      by_cases hzero : state.offset = 0
      · rw [if_pos hzero] at hexpected
        rw [if_pos ⟨hzero, hfirst hzero⟩, hheader ⟨hzero, hfirst hzero⟩, hframe.dataLen,
          Nat.add_sub_cancel' hframe.size, hexpected, min_eq_right hshort]
      · rw [if_neg hzero] at hexpected
        exact (if_neg fun hcarries ↦ hzero hcarries.1).trans hexpected
    · have happend := load_store_append state.response 0 state.offset
        (load image state.offset length)
      rw [length_load, Nat.zero_add, hreading.bytes] at happend
      rw [ReceiveState.accept, ReceiveState.copied, ReceiveState.filled,
        load_store_status state.packet image state.offset le_rfl, happend, load_add, Nat.zero_add]

theorem ReadingFrame.below (hreading : ReadingFrame rot image frame state now)
    (hshort : frame.length ≤ libhothMailboxSize) (hmore : state.offset < state.expectedSize) :
    state.offset < libhothMailboxSize := by
  refine hmore.trans_le ?_
  rw [hreading.expected]
  split_ifs
  · exact le_rfl
  · exact hshort

/-- A read that is over has the frame. -/
theorem ReadingFrame.over (hreading : ReadingFrame rot image frame state now)
    (himage : load image 0 frame.length = frame) (hover : ¬state.offset < state.expectedSize) :
    state.expectedSize = frame.length ∧ load state.response 0 frame.length = frame := by
  have hexpected := hreading.expected
  split_ifs at hexpected with hzero
  · rw [hexpected, hzero] at hover
    exact absurd (by decide) hover
  · rw [hexpected, not_lt] at hover
    exact ⟨hexpected, load_of_prefix hreading.bytes hover himage⟩

/-- The end of a round goes on behind the bytes that were read, or has the frame. -/
theorem finishRound_reads (drvdata : LibhothUsbMailbox) (now : UsbMailboxChip)
    {next : ReceiveState} {length : ℕ} (hshown : rot now.cells = image)
    (himage : load image 0 frame.length = frame) (hpositive : 0 < length)
    (hinside : state.offset + length ≤ libhothMailboxSize) (hoffset : next.offset = state.offset)
    (hexpected : next.expectedSize = frame.length)
    (hbytes : load next.response 0 (state.offset + length) = load image 0 (state.offset + length))
    (hlast : mailboxResponseSize + length < maxPayloadSize drvdata →
      frame.length ≤ state.offset + length) :
    (∃ following,
      finishRound drvdata length (mailboxResponseSize + length) next = .inl following ∧
        ReadingFrame rot image frame following now ∧
          libhothMailboxSize - following.offset < libhothMailboxSize - state.offset) ∨
      ∃ out, finishRound drvdata length (mailboxResponseSize + length) next = .inr out ∧
        ReadFrame frame (.ok out) := by
  have hsmall : (state.offset + length) % 2 ^ 32 = state.offset + length :=
    Nat.mod_eq_of_lt (hinside.trans_lt libhothMailboxSize_lt)
  by_cases hend : mailboxResponseSize + length < maxPayloadSize drvdata
  · exact .inr ⟨_, if_pos hend, _, rfl, rfl, congrArg some hexpected,
      load_of_prefix hbytes (hlast hend) himage⟩
  · refine .inl ⟨{ next with offset := state.offset + length }, ?_, ⟨hshown, hinside, hbytes, ?_⟩,
      ?_⟩
    · rw [finishRound, if_neg hend, hoffset, hsmall]
    · exact hexpected.trans (if_neg (by dsimp only; omega)).symm
    · dsimp only
      omega

/-- One round reads the next bytes, or has the frame. -/
theorem receiveRound_ensures_chip (hsuitable : Suitable drvdata)
    (hframe : WellFormedResponse frame) (hshort : frame.length ≤ libhothMailboxSize)
    (himage : load image 0 frame.length = frame) (timeoutMs : ℕ)
    (hreading : ReadingFrame rot image frame state now) :
    Ensures (usbMailbox rot) (receiveRound drvdata libhothMailboxSize timeoutMs state) now
      fun outcome final ↦ match outcome with
        | .inl next => ReadingFrame rot image frame next final ∧
            libhothMailboxSize - next.offset < libhothMailboxSize - state.offset
        | .inr result => ReadFrame frame result := by
  rw [receiveRound]
  split_ifs with hmore
  · have hbelow := hreading.below hshort hmore
    obtain ⟨hpositive, hinside, hmtu, hfirst, hlast⟩ := hsuitable.readLength_bounds hbelow
    generalize readLength drvdata libhothMailboxSize state.offset = length at *
    obtain ⟨next, haccepted, hoffset, hframeSize, hbytes⟩ :=
      receivePacket_of_shown drvdata hframe hshort himage hreading hinside hmtu hfirst
    have hfinish := finishRound_reads drvdata
      ⟨now.cells, [mailboxSuccess, 0] ++ load image state.offset length⟩ hreading.shown himage
      hpositive hinside hoffset hframeSize hbytes fun hend ↦ hshort.trans (hlast hend).ge
    refine (ensures_bind _ _ _ _).mpr ((ensures_request _ _ _).mpr ?_)
    intro sent after hsent
    cases sent with
    | failed status nonzero => exact absurd hsent not_false
    | transferred count fits =>
      obtain ⟨hcount, rfl⟩ := hsent
      rw [length_encodeMailboxRequest] at hcount
      rw [take_read (hbelow.trans libhothMailboxSize_lt) (readable_byte hmtu), hreading.shown]
      simp only [hcount, ne_eq, not_true, if_false, ensures_bind, ensures_request]
      intro reply after hreply
      cases reply with
      | failed status nonzero => exact absurd hreply not_false
      | received bytes fits =>
        obtain ⟨htaken, rfl⟩ := hreply
        -- The bytes stay a variable: the packet is not to be computed.
        rw [← htaken.trans (take_reply image state.offset length)] at haccepted
        rcases hfinish with ⟨following, hround, hfollowing⟩ | ⟨out, hround, hout⟩
        · rw [hround] at haccepted
          simp only [haccepted]
          exact (ensures_done _ _ _).mpr hfollowing
        · rw [hround] at haccepted
          simp only [haccepted]
          exact (ensures_done _ _ _).mpr hout
  · obtain ⟨hexpected, hbytes⟩ := hreading.over himage hmore
    exact (ensures_done _ _ _).mpr ⟨_, rfl, rfl, congrArg some hexpected, hbytes⟩

/-- The answer that the mailbox shows is received. -/
theorem libhothUsbMailboxReceiveResponse_ensures_chip (hsuitable : Suitable drvdata)
    (hframe : WellFormedResponse frame) (hshort : frame.length ≤ libhothMailboxSize)
    (hshown : load (rot chip.cells) 0 frame.length = frame) (timeoutMs : ℕ)
    (packet response : ℕ → UInt8) {rounds : ℕ} (henough : libhothMailboxSize < rounds) :
    Ensures (usbMailbox rot)
      (libhothUsbMailboxReceiveResponse drvdata libhothMailboxSize timeoutMs packet response rounds)
      chip fun outcome _ ↦ ∃ result, outcome = some result ∧ ReadFrame frame result := by
  have hsize : ¬libhothMailboxSize < headerSize := by decide
  have hword : libhothMailboxSize % 2 ^ 32 = libhothMailboxSize :=
    Nat.mod_eq_of_lt libhothMailboxSize_lt
  rw [libhothUsbMailboxReceiveResponse, if_neg hsize, hword]
  refine whileRounds_total (fun state : ReceiveState ↦ libhothMailboxSize - state.offset)
    (ReadingFrame rot (rot chip.cells) frame) ?_ rounds _ chip ?_ ?_
  · intro state now hreading
    refine (receiveRound_ensures_chip hsuitable hframe hshort hshown timeoutMs hreading).mono
      fun outcome _ hend ↦ ?_
    cases outcome <;> exact hend
  · exact ⟨rfl, Nat.zero_le _, rfl, rfl⟩
  · exact henough

end Receiving

/-! ### The driver -/

/-- The status that a send ends with. -/
def sentStatus : Option (Except Fault ℤ) → ℤ
  | some (.ok status) => status
  | _ => statusInt .fail

/-- What a receive hands on. -/
def receivedResult : Option (Except Fault ReceiveResult) → Received
  | some (.ok out) => ⟨wrapUsbErr out.status, out.response, out.actualSize⟩
  | _ => ⟨usbErrLibhoth (statusInt .fail), fun _ ↦ 0, none⟩

/-- The USB mailbox transport, with its loops cut off after a number of rounds and the packet
buffers that they start with. -/
def usbMailboxDriver (drvdata : LibhothUsbMailbox) (packet : ℕ → UInt8) (timeoutMs rounds : ℕ) :
    Driver UsbReply UsbMailboxChip where
  environment := usbMailbox
  cells := UsbMailboxChip.cells
  send request := do
    let sent ← libhothUsbMailboxSendRequest drvdata request packet rounds
    return wrapUsbErr (sentStatus sent)
  receive maxResponseSize := do
    let received ← libhothUsbMailboxReceiveResponse drvdata maxResponseSize timeoutMs packet
      (fun _ ↦ 0) rounds
    return receivedReply (receivedResult received) maxResponseSize

/-- The mailbox of a USB device is at its start. -/
def usbPlace : Place where
  address := 0
  fits := Nat.le_of_ble_eq_true rfl
  busyWaitTimeout := 0
  busyWaitCheckInterval := 0

/-- A frame that was read is the reply. -/
theorem receivedReply_of_readFrame {frame : ResponseFrame} {result : Except Fault ReceiveResult}
    (hresult : ReadFrame frame.bytes result) :
    receivedReply (receivedResult (some result)) libhothMailboxSize =
      .received frame.bytes frame.short := by
  obtain ⟨out, rfl, hstatus, hactualSize, hbytes⟩ := hresult
  have hsuccess : wrapUsbErr out.status = hothSuccess := (wrapUsbErr_eq_success_iff _).mpr hstatus
  rw [receivedReply, receivedResult, dif_pos hsuccess]
  simp only [hactualSize, Option.getD_some, hbytes, frame.short, dite_true]

/-- The USB mailbox transport delivers. -/
theorem usbMailboxDriver_delivers {drvdata : LibhothUsbMailbox} (hsuitable : Suitable drvdata)
    (packet : ℕ → UInt8) (timeoutMs : ℕ) {rounds : ℕ} (henough : libhothMailboxSize < rounds) :
    (usbMailboxDriver drvdata packet timeoutMs rounds).Delivers usbPlace where
  serial := usbMailbox_serial
  send rot chip request _ hlength := by
    refine (ensures_bind _ _ _ _).mpr ?_
    refine (libhothUsbMailboxSendRequest_ensures_chip hsuitable hlength packet henough).mono ?_
    rintro _ after ⟨rfl, hcells⟩
    exact (ensures_done _ _ _).mpr ⟨(wrapUsbErr_eq_success_iff _).mpr rfl, hcells⟩
  receive frame chip := by
    refine (ensures_bind _ _ _ _).mpr ?_
    refine (libhothUsbMailboxReceiveResponse_ensures_chip hsuitable frame.wellFormed frame.short
      (load_store_self chip.cells 0 frame.bytes) timeoutMs packet (fun _ ↦ 0) henough).mono ?_
    rintro _ after ⟨result, rfl, hresult⟩
    exact (ensures_done _ _ _).mpr (receivedReply_of_readFrame hresult)

/-- Behind a USB mailbox whose packets suit, a program over host commands does what it does at the
service itself. -/
theorem runs_over_usb_mailbox_iff {σ α : Type} {drvdata : LibhothUsbMailbox}
    (hsuitable : Suitable drvdata) (packet : ℕ → UInt8) (timeoutMs rounds : ℕ)
    (service : Service σ) (program : HostProgram α) (chip : UsbMailboxChip) (frame : ResponseFrame)
    (before : σ) (result : α) (final : σ) :
    (∃ after, Runs (boardEnvironment
          (usbMailboxDriver drvdata packet timeoutMs (rounds + 1 + libhothMailboxSize)) service
          usbPlace)
        (interpret execOnTransport program) ⟨chip, before, frame⟩ result after ∧
          after.state = final) ↔
      Runs (serviceEnvironment service) program before result final :=
  runs_service_iff ((usbMailboxDriver_delivers hsuitable packet timeoutMs
    (Nat.lt_add_of_pos_left (Nat.succ_pos rounds))).carries service) program trivial result final

theorem suitable_largestPackets : Suitable UsbMailboxReceive.largestPackets where
  opened := openMailbox_of_open UsbMailboxReceive.open_largestPackets
  header := by decide
  noLonger := le_rfl

/-- One command over the largest packets. -/
theorem runs_over_usb_mailbox_fourBytes :
    ∃ after, Runs (boardEnvironment
        (usbMailboxDriver UsbMailboxReceive.largestPackets (fun _ ↦ 0) 0
          (0 + 1 + libhothMailboxSize)) countingService usbPlace)
      (interpret execOnTransport (request fourBytes))
      ⟨⟨fun _ ↦ 0, []⟩, 0, badRequest.frame⟩ (badRequest.reply fourBytes) after ∧
        after.state = 1 :=
  (runs_over_usb_mailbox_iff suitable_largestPackets (fun _ ↦ 0) 0 0 countingService
    (request fourBytes) ⟨fun _ ↦ 0, []⟩ badRequest.frame 0 (badRequest.reply fourBytes) 1).mpr
    ((runs_request _ _ _ _).mpr countingService_fourBytes)

end Libhoth.Transports.ServiceOverUsbMailbox
