import Libhoth.Foundation.ConsecutiveChunks
import Libhoth.Transports.UsbMailbox

/-!
# Sending a request through a mailbox

`libhothUsbMailboxSendRequest_contract_iff` says for which packet sizes and request sizes
`libhoth_usb_mailbox_send_request` ends, stays inside its packet buffer, sends no packet that the
OUT endpoint cannot take and writes the whole request (`SendContract`). The payload of a packet is
what the IN endpoint has room for after a header, so the sizes have to be compared
(`SendFits`): a larger IN endpoint overfills the OUT packets, an IN endpoint of six bytes leaves no
payload, and the difference of a smaller one wraps, so that the whole request goes into one packet.

`Sending` is the invariant of the loop where the sizes fit. Where they do not, a device that accepts
every packet shows it: in the first packet, or in a loop that never ends (`never_finishes`).
-/

set_option autoImplicit false
set_option relaxedAutoImplicit false

namespace Libhoth.Transports.UsbMailboxSend

open Foundation.ByteString Foundation.CellMemory Foundation.CheckedAccess
open Foundation.ConsecutiveChunks Foundation.InteractingProgram Libusb UsbMailbox

/-! ### What was sent -/

/-- The OUT packet of an exchange. -/
def outPacket : Exchange UsbReply → Option (List UInt8)
  | ⟨.bulkOut _ data _, _⟩ => some data
  | ⟨.bulkIn _ _ _, _⟩ => none

/-- The OUT packets of a history. -/
def outPackets (history : UsbHistory) : List (List UInt8) :=
  history.filterMap outPacket

@[simp] theorem outPackets_append (first second : UsbHistory) :
    outPackets (first ++ second) = outPackets first ++ outPackets second := by
  simp [outPackets]

/-- The offset and the payload of a packet. -/
def packetChunk (data : List UInt8) : ℕ × List UInt8 :=
  (wordAt data 1 4, data.drop mailboxRequestSize)

/-- A `WRITE` packet, whose header names the length of its payload. -/
def IsWrite (data : List UInt8) : Prop :=
  data[0]? = some (UInt8.ofNat mailboxReqWrite) ∧
    data.length = mailboxRequestSize + wordAt data 5 1

/-- The packets of a history write a request from its start to its end. -/
structure WritesRequest (requestData : List UInt8) (history : UsbHistory) : Prop where
  writes : ∀ data ∈ outPackets history, IsWrite data
  consecutive : Consecutive 0 ((outPackets history).map packetChunk)
  joined : joined ((outPackets history).map packetChunk) = requestData

/-- What a request can expect of every call, whatever the packet buffer held, however long the loop
is let run and whatever the device answers. -/
structure SendContract (drvdata : LibhothUsbMailbox) (requestData : List UInt8) : Prop where
  terminates : ∀ packet, ∃ rounds, ∀ outcome history,
    Runs recording (libhothUsbMailboxSendRequest drvdata requestData packet rounds) [] outcome
      history → outcome ≠ none
  inBuffer : ∀ packet rounds result history,
    Runs recording (libhothUsbMailboxSendRequest drvdata requestData packet rounds) []
      (some result) history → ∃ status, result = .ok status
  packets : ∀ packet rounds outcome history,
    Runs recording (libhothUsbMailboxSendRequest drvdata requestData packet rounds) [] outcome
      history → ∀ data ∈ outPackets history, data.length ≤ drvdata.maxPacketSizeOut.toNat
  writes : ∀ packet rounds history,
    Runs recording (libhothUsbMailboxSendRequest drvdata requestData packet rounds) []
      (some (.ok libhothOk)) history → WritesRequest requestData history

/-- The sizes that the function can send: with a header, what goes into the first packet is no
longer than an OUT packet. -/
def SendFits (drvdata : LibhothUsbMailbox) (requestSize : ℕ) : Prop :=
  requestSize = 0 ∨ requestSize < 2 ^ 32 ∧
    drvdata.maxPacketSizeIn.toNat ≠ mailboxRequestSize ∧
    (drvdata.maxPacketSizeIn.toNat < mailboxRequestSize →
      mailboxRequestSize + requestSize ≤ drvdata.maxPacketSizeOut.toNat) ∧
    (mailboxRequestSize < drvdata.maxPacketSizeIn.toNat →
      min (mailboxRequestSize + requestSize) drvdata.maxPacketSizeIn.toNat ≤
        drvdata.maxPacketSizeOut.toNat)

/-! ### One packet -/

section Packet

variable {drvdata : LibhothUsbMailbox} {requestData : List UInt8}

theorem maxSendPayloadSize_of_ge (hlarge : mailboxRequestSize ≤ drvdata.maxPacketSizeIn.toNat) :
    maxSendPayloadSize drvdata = drvdata.maxPacketSizeIn.toNat - mailboxRequestSize := by
  have hbound := drvdata.maxPacketSizeIn.toNat_lt
  rw [maxSendPayloadSize]
  rw [mailboxRequestSize] at *
  omega

theorem maxSendPayloadSize_of_lt (hsmall : drvdata.maxPacketSizeIn.toNat < mailboxRequestSize) :
    maxSendPayloadSize drvdata =
      2 ^ 64 - (mailboxRequestSize - drvdata.maxPacketSizeIn.toNat) := by
  rw [maxSendPayloadSize]
  rw [mailboxRequestSize] at *
  omega

theorem writeLength_le (drvdata : LibhothUsbMailbox) (requestSize offset : ℕ) :
    writeLength drvdata requestSize offset ≤ requestSize - offset := by
  rw [writeLength]
  split_ifs with hlast
  · exact Nat.mod_le _ _
  · exact (Nat.mod_le _ _).trans (not_lt.mp hlast)

/-- A request that fits and is not empty is below four gigabytes. -/
theorem SendFits.size_lt (hfits : SendFits drvdata requestData.length) {offset : ℕ}
    (hmore : offset < requestData.length) : requestData.length < 2 ^ 32 := by
  rcases hfits with hempty | ⟨hsize, -⟩
  · exact absurd hmore (hempty ▸ Nat.not_lt_zero offset)
  · exact hsize

/-- Where the sizes fit, a packet is not empty and not too long. -/
theorem SendFits.writeLength_bounds (hfits : SendFits drvdata requestData.length)
    (hopen : OpenMailbox drvdata) {offset : ℕ} (hmore : offset < requestData.length) :
    1 ≤ writeLength drvdata requestData.length offset ∧
      mailboxRequestSize + writeLength drvdata requestData.length offset ≤
        drvdata.maxPacketSizeOut.toNat := by
  have hin := hopen.inAtMost
  have hout := hopen.outAtMost
  rcases hfits with hempty | ⟨hsize, hdifferent, hsmall, hlarge⟩
  · omega
  clear hsize
  rcases Nat.lt_or_gt_of_ne hdifferent with hbelow | habove
  · have hwhole := hsmall hbelow
    rw [writeLength, maxSendPayloadSize_of_lt hbelow]
    rw [mailboxRequestSize] at *
    rw [if_pos (by omega)]
    omega
  · have hpart := hlarge habove
    rw [writeLength, maxSendPayloadSize_of_ge habove.le]
    rw [mailboxRequestSize] at *
    split_ifs <;> omega

/-- A packet that fits the packet buffer is the header with the bytes of the request. -/
theorem fillPacket_of_le {offset length : ℕ} (packet : ℕ → UInt8)
    (hinside : offset + length ≤ requestData.length)
    (hmtu : mailboxRequestSize + length ≤ libhothUsbMailboxMtu) :
    ∃ filled, fillPacket requestData packet offset length = .ok (filled,
      encodeMailboxRequest mailboxReqWrite offset length ++ slice requestData offset length) := by
  have hslice : (slice requestData offset length).length = length := length_slice_of_le hinside
  have hheader := length_encodeMailboxRequest mailboxReqWrite offset length
  rw [fillPacket, storeWithin_of_le _ (by omega), ok_bind, sliceWithin_of_le hinside, ok_bind,
    storeWithin_of_le _ (by omega), ok_bind, loadWithin_of_le _ (by omega), ok_bind]
  refine ⟨_, congrArg _ (congrArg _ (load_eq_of_getElem? ?_ fun index hindex ↦ ?_))⟩
  · rw [List.length_append, hheader, hslice]
  · rw [Nat.zero_add]
    rcases Nat.lt_or_ge index mailboxRequestSize with hbelow | habove
    · rw [store_of_lt _ _ hbelow, List.getElem?_append_left (hheader.symm ▸ hbelow)]
      exact getElem?_store packet (Nat.zero_le _) (by omega)
    · rw [List.getElem?_append_right (hheader.symm ▸ habove), hheader]
      exact getElem?_store _ habove (by omega)

theorem length_packet {offset length : ℕ} (hinside : offset + length ≤ requestData.length) :
    (encodeMailboxRequest mailboxReqWrite offset length ++
      slice requestData offset length).length = mailboxRequestSize + length := by
  rw [List.length_append, length_encodeMailboxRequest, length_slice_of_le hinside]

/-- A packet of the loop is a `WRITE` of its bytes. -/
theorem isWrite_packet {offset length : ℕ} (hinside : offset + length ≤ requestData.length)
    (hlength : length < 2 ^ 8) : IsWrite
      (encodeMailboxRequest mailboxReqWrite offset length ++ slice requestData offset length) := by
  have hword := (wordAt_encodeMailboxRequest mailboxReqWrite offset length).2
  refine ⟨rfl, ?_⟩
  rw [length_packet hinside, wordAt_append_left (by rw [length_encodeMailboxRequest]; decide),
    hword, Nat.mod_eq_of_lt hlength]

/-- Its chunk is the slice of the request at its offset. -/
theorem packetChunk_packet {offset length : ℕ} (hoffset : offset < 2 ^ 32) :
    packetChunk
        (encodeMailboxRequest mailboxReqWrite offset length ++ slice requestData offset length) =
      (offset, slice requestData offset length) := by
  have hword := (wordAt_encodeMailboxRequest mailboxReqWrite offset length).1
  rw [packetChunk, wordAt_append_left (by rw [length_encodeMailboxRequest]; decide), hword,
    Nat.mod_eq_of_lt hoffset, List.drop_left' (length_encodeMailboxRequest _ _ _)]

end Packet

/-! ### The loop where the sizes fit -/

section Loop

variable (drvdata : LibhothUsbMailbox) (requestData : List UInt8)

/-- The loop before a round: the packets so far write the request up to the offset. -/
structure Sending (state : SendState) (history : UsbHistory) : Prop where
  inside : state.offset ≤ requestData.length
  packets : ∀ data ∈ outPackets history, data.length ≤ drvdata.maxPacketSizeOut.toNat
  writes : WritesRequest (requestData.take state.offset) history

/-- How a call ends: with packets that are not too long, and on success with the request written. -/
structure SendEnd (history : UsbHistory) (result : Except Fault ℤ) : Prop where
  inBuffer : ∃ status, result = .ok status
  packets : ∀ data ∈ outPackets history, data.length ≤ drvdata.maxPacketSizeOut.toNat
  writes : result = .ok libhothOk → WritesRequest requestData history

/-- What a round leaves: the invariant at a larger offset, or the end of the call. -/
def SendRoundEnd (state : SendState) (history : UsbHistory) :
    SendState ⊕ Except Fault ℤ → Prop
  | .inl next => Sending drvdata requestData next history ∧ state.offset < next.offset
  | .inr result => SendEnd drvdata requestData history result

variable {drvdata requestData}

theorem Sending.initial (packet : ℕ → UInt8) : Sending drvdata requestData ⟨0, packet⟩ [] where
  inside := Nat.zero_le _
  packets := fun _ hdata ↦ absurd hdata List.not_mem_nil
  writes := ⟨fun _ hdata ↦ absurd hdata List.not_mem_nil, trivial, rfl⟩

theorem SendEnd.failed {history : UsbHistory} {status : ℤ} (hstatus : status ≠ libhothOk)
    (hpackets : ∀ data ∈ outPackets history, data.length ≤ drvdata.maxPacketSizeOut.toNat) :
    SendEnd drvdata requestData history (.ok status) :=
  ⟨⟨status, rfl⟩, hpackets, fun hok ↦ absurd (Except.ok.inj hok) hstatus⟩

/-- One more packet at the offset writes its bytes too. -/
theorem WritesRequest.packet {offset length : ℕ} {history now : UsbHistory}
    (hwrites : WritesRequest (requestData.take offset) history)
    (hinside : offset + length ≤ requestData.length) (hlength : length < 2 ^ 8)
    (hoffset : offset < 2 ^ 32) (hnow : outPackets now = outPackets history ++
      [encodeMailboxRequest mailboxReqWrite offset length ++ slice requestData offset length]) :
    WritesRequest (requestData.take (offset + length)) now := by
  obtain ⟨hconsecutive, hjoined⟩ := hwrites.consecutive.snoc_slice hwrites.joined hinside
  rw [← packetChunk_packet hoffset, ← List.map_singleton, ← List.map_append, ← hnow]
    at hconsecutive hjoined
  refine ⟨?_, hconsecutive, hjoined⟩
  rw [hnow]
  exact forall_mem_snoc hwrites.writes (isWrite_packet hinside hlength)

/-- One round keeps the invariant at a larger offset or ends the call. -/
theorem sendRound_ensures {state : SendState} {history : UsbHistory}
    (hsending : Sending drvdata requestData state history) (hopen : OpenMailbox drvdata)
    (hfits : SendFits drvdata requestData.length) :
    Ensures recording (sendRound drvdata requestData state) history
      fun outcome final ↦ SendRoundEnd drvdata requestData state final outcome := by
  have hio : libusbErrorIo ≠ libhothOk := by decide
  unfold sendRound
  by_cases hmore : state.offset < requestData.length
  · obtain ⟨hpositive, hout⟩ := hfits.writeLength_bounds hopen hmore
    have hmtu := hout.trans hopen.outAtMost
    have hlength := writeLength_le drvdata requestData.length state.offset
    have hinside : state.offset + writeLength drvdata requestData.length state.offset ≤
        requestData.length := by omega
    have hoffset : state.offset < 2 ^ 32 := hmore.trans (hfits.size_lt hmore)
    have hnext : (state.offset + writeLength drvdata requestData.length state.offset) % 2 ^ 32 =
        state.offset + writeLength drvdata requestData.length state.offset :=
      Nat.mod_eq_of_lt (hinside.trans_lt (hfits.size_lt hmore))
    obtain ⟨filled, hfilled⟩ := fillPacket_of_le state.packet hinside hmtu
    rw [if_pos hmore]
    simp only [hfilled, ensures_bind, ensures_request, recording_iff]
    intro sent middle hmiddle
    have hpackets : outPackets middle = outPackets history ++
        [encodeMailboxRequest mailboxReqWrite state.offset
          (writeLength drvdata requestData.length state.offset) ++ slice requestData state.offset
            (writeLength drvdata requestData.length state.offset)] := by
      rw [hmiddle, outPackets_append]
      rfl
    have hbounded : ∀ data ∈ outPackets middle,
        data.length ≤ drvdata.maxPacketSizeOut.toNat := by
      rw [hpackets]
      exact forall_mem_snoc hsending.packets ((length_packet hinside).trans_le hout)
    cases sent with
    | failed status nonzero =>
      simp only [pure_eq_done, ensures_done]
      exact .failed nonzero hbounded
    | transferred count fits =>
      dsimp only
      split_ifs with hcount
      · simp only [pure_eq_done, ensures_done]
        exact .failed hio hbounded
      · simp only [ensures_bind, ensures_request, recording_iff]
        intro reply now hnow
        have hsame : outPackets now = outPackets middle := by
          rw [hnow, outPackets_append]
          exact List.append_nil _
        rw [← hsame] at hbounded hpackets
        cases reply with
        | failed status nonzero =>
          simp only [pure_eq_done, ensures_done]
          exact .failed nonzero hbounded
        | received bytes _ =>
          dsimp only
          split_ifs with hshort hstatus
          · simp only [pure_eq_done, ensures_done]
            exact .failed hio hbounded
          · simp only [pure_eq_done, ensures_done]
            exact .failed hio hbounded
          · simp only [pure_eq_done, ensures_done, hnext]
            refine ⟨⟨hinside, hbounded, ?_⟩, Nat.lt_add_of_pos_right hpositive⟩
            exact hsending.writes.packet hinside (by omega) hoffset hpackets
  · rw [if_neg hmore, pure_eq_done, ensures_done]
    have hall : requestData.take state.offset = requestData :=
      List.take_of_length_le (not_lt.mp hmore)
    exact ⟨⟨_, rfl⟩, hsending.packets, fun _ ↦ hall ▸ hsending.writes⟩

/-- Where the sizes fit every call keeps the contract. -/
theorem SendFits.contract (hfits : SendFits drvdata requestData.length)
    (hopen : OpenMailbox drvdata) : SendContract drvdata requestData := by
  have hcall : ∀ packet rounds, Ensures recording
      (libhothUsbMailboxSendRequest drvdata requestData packet rounds) [] fun outcome final ↦
        (∀ value, outcome = some value → SendEnd drvdata requestData final value) ∧
          (outcome = none → ∃ last, Sending drvdata requestData last final) := by
    intro packet rounds
    refine whileRounds_ensures (Sending drvdata requestData) (fun state start hsending ↦ ?_) rounds
      _ _ (.initial packet)
    refine (sendRound_ensures hsending hopen hfits).mono fun outcome final hend ↦ ?_
    cases outcome with
    | inl next => exact hend.1
    | inr value => exact hend
  refine ⟨fun packet ↦ ⟨requestData.length + 1, fun outcome history hrun ↦ ?_⟩,
    fun packet rounds result history hrun ↦ ?_, fun packet rounds outcome history hrun ↦ ?_,
    fun packet rounds history hrun ↦ ?_⟩
  · have hfinishes := whileRounds_finishes (fun state ↦ requestData.length - state.offset)
      (Sending drvdata requestData) (fun state start hsending ↦
        (sendRound_ensures hsending hopen hfits).mono fun outcome final hend next houtcome ↦ ?_)
      (requestData.length + 1) _ _ (.initial packet) (Nat.lt_succ_self _) outcome history hrun
    · exact Option.isSome_iff_ne_none.mp hfinishes
    · subst houtcome
      have hlater := hend.2
      have hinside := hend.1.inside
      exact ⟨hend.1, by omega⟩
  · exact ((hcall packet rounds _ _ hrun).1 result rfl).inBuffer
  · cases outcome with
    | none =>
      obtain ⟨last, hsending⟩ := (hcall packet rounds _ _ hrun).2 rfl
      exact hsending.packets
    | some result => exact ((hcall packet rounds _ _ hrun).1 result rfl).packets
  · exact ((hcall packet rounds _ _ hrun).1 _ rfl).writes rfl

/-! ### A device that accepts every packet -/

/-- The replies of a mailbox that takes every packet whole and answers with success. -/
def acceptingMailbox : (call : UsbCall) → UsbReply call
  | .bulkOut _ data _ => .transferred data.length le_rfl
  | .bulkIn _ length _ => .received (List.replicate length mailboxSuccess) List.length_replicate.le

/-- Against it a round with a packet that fits the packet buffer goes on at the next offset. -/
theorem sendRound_accepting (state : SendState) (history : UsbHistory)
    (hmore : state.offset < requestData.length)
    (hmtu : mailboxRequestSize + writeLength drvdata requestData.length state.offset ≤
      libhothUsbMailboxMtu) :
    Ensures (recordingAnswers acceptingMailbox) (sendRound drvdata requestData state) history
      fun outcome final ↦ (∃ packet, outcome = .inl ⟨(state.offset +
          writeLength drvdata requestData.length state.offset) % 2 ^ 32, packet⟩) ∧
        ∃ data ∈ outPackets final, data.length =
          mailboxRequestSize + writeLength drvdata requestData.length state.offset := by
  have hlength := writeLength_le drvdata requestData.length state.offset
  have hinside : state.offset + writeLength drvdata requestData.length state.offset ≤
      requestData.length := by omega
  obtain ⟨filled, hfilled⟩ := fillPacket_of_le state.packet hinside hmtu
  have hdata := length_packet hinside
  rw [sendRound, if_pos hmore]
  simp only [hfilled, ensures_bind, ensures_request, recordingAnswers]
  rintro sent middle ⟨rfl, hmiddle⟩
  simp only [acceptingMailbox]
  rw [if_neg (not_not.mpr hdata)]
  simp only [ensures_bind, ensures_request]
  rintro reply now ⟨rfl, hnow⟩
  simp only [acceptingMailbox, List.length_replicate]
  rw [if_neg (not_not.mpr rfl), if_neg (by decide), pure_eq_done, ensures_done]
  refine ⟨⟨filled, rfl⟩, _, ?_, hdata⟩
  rw [hnow, hmiddle, outPackets_append, outPackets_append]
  exact List.mem_append_left _ (List.mem_append_right _ (List.mem_singleton_self _))

/-- A packet that faults ends the call. -/
theorem sendRound_fault (state : SendState) {fault : Fault}
    (hmore : state.offset < requestData.length)
    (hfault : fillPacket requestData state.packet state.offset
      (writeLength drvdata requestData.length state.offset) = .error fault) :
    sendRound drvdata requestData state = .done (.inr (.error fault)) := by
  rw [sendRound, if_pos hmore]
  simp only [hfault, pure_eq_done]

/-- The contract bounds the first packet. -/
theorem SendContract.first_packet (hcontract : SendContract drvdata requestData)
    (hmore : 0 < requestData.length) :
    mailboxRequestSize + writeLength drvdata requestData.length 0 ≤
      drvdata.maxPacketSizeOut.toNat := by
  have hlength := writeLength_le drvdata requestData.length 0
  by_cases hmtu : mailboxRequestSize + writeLength drvdata requestData.length 0 ≤
      libhothUsbMailboxMtu
  · obtain ⟨outcome, history, hrun⟩ := exists_runs_recordingAnswers acceptingMailbox
      (libhothUsbMailboxSendRequest drvdata requestData (fun _ ↦ 0) 1) []
    have hsent : Ensures (recordingAnswers acceptingMailbox)
        (libhothUsbMailboxSendRequest drvdata requestData (fun _ ↦ 0) 1) [] fun _ final ↦
          ∃ data ∈ outPackets final, data.length =
            mailboxRequestSize + writeLength drvdata requestData.length 0 := by
      rw [libhothUsbMailboxSendRequest, whileRounds, ensures_bind]
      refine (sendRound_accepting ⟨0, fun _ ↦ 0⟩ [] hmore hmtu).mono fun result final hround ↦ ?_
      obtain ⟨⟨packet, rfl⟩, hsent⟩ := hround
      simp only [whileRounds, pure_eq_done, ensures_done]
      exact hsent
    obtain ⟨data, hdata, hlength⟩ := hsent outcome history hrun
    exact hlength ▸ hcontract.packets _ _ _ _ hrun.recording_of_answers data hdata
  · have hfault : fillPacket requestData (fun _ ↦ 0) 0
        (writeLength drvdata requestData.length 0) = .error .writeOutOfBounds := by
      have hheader := length_encodeMailboxRequest mailboxReqWrite 0
        (writeLength drvdata requestData.length 0)
      rw [fillPacket, storeWithin_of_le _ (by rw [hheader]; decide), ok_bind,
        sliceWithin_of_le (by omega), ok_bind, storeWithin, if_neg, error_bind]
      rw [length_slice_of_le (by omega)]
      exact hmtu
    have hrun : Runs recording (libhothUsbMailboxSendRequest drvdata requestData (fun _ ↦ 0) 1) []
        (some (.error .writeOutOfBounds)) [] := by
      rw [libhothUsbMailboxSendRequest, whileRounds, sendRound_fault ⟨0, fun _ ↦ 0⟩ hmore hfault,
        done_bind]
      exact ⟨rfl, rfl⟩
    obtain ⟨status, hstatus⟩ := hcontract.inBuffer _ _ _ _ hrun
    exact absurd hstatus.symm (by simp)

/-- Offsets that every accepted packet stays among, all before the end of the request, make a loop
that never ends. -/
theorem never_finishes (stays : ℕ → Prop) (hstart : stays 0)
    (hstep : ∀ offset, stays offset → offset < requestData.length ∧
      mailboxRequestSize + writeLength drvdata requestData.length offset ≤ libhothUsbMailboxMtu ∧
      stays ((offset + writeLength drvdata requestData.length offset) % 2 ^ 32)) :
    ¬SendContract drvdata requestData := by
  intro hcontract
  obtain ⟨rounds, hfinishes⟩ := hcontract.terminates fun _ ↦ 0
  obtain ⟨outcome, history, hrun⟩ := exists_runs_recordingAnswers acceptingMailbox
    (libhothUsbMailboxSendRequest drvdata requestData (fun _ ↦ 0) rounds) []
  have hnever : Ensures (recordingAnswers acceptingMailbox)
      (libhothUsbMailboxSendRequest drvdata requestData (fun _ ↦ 0) rounds) [] fun outcome _ ↦
        (∀ value, outcome = some value → False) ∧
          (outcome = none → ∃ last : SendState, stays last.offset) := by
    refine whileRounds_ensures (fun (state : SendState) _ ↦ stays state.offset)
      (fun state start hstays ↦ ?_)
      rounds _ _ hstart
    obtain ⟨hmore, hmtu, hnext⟩ := hstep state.offset hstays
    refine (sendRound_accepting state start hmore hmtu).mono fun result final hround ↦ ?_
    obtain ⟨⟨packet, rfl⟩, -⟩ := hround
    exact hnext
  cases outcome with
  | none => exact hfinishes _ _ hrun.recording_of_answers rfl
  | some value => exact (hnever _ _ hrun).1 value rfl

/-- An IN endpoint of a header leaves no payload. -/
theorem not_contract_of_eq (hmore : 0 < requestData.length)
    (hsame : drvdata.maxPacketSizeIn.toNat = mailboxRequestSize) :
    ¬SendContract drvdata requestData := by
  have hpayload : maxSendPayloadSize drvdata = 0 := by
    rw [maxSendPayloadSize_of_ge hsame.ge, hsame, Nat.sub_self]
  have hlength : ∀ offset, writeLength drvdata requestData.length offset = 0 := fun offset ↦ by
    rw [writeLength, hpayload, if_neg (Nat.not_lt_zero _), Nat.zero_mod]
  refine never_finishes (fun offset ↦ offset = 0) rfl fun offset hoffset ↦ ?_
  rw [hoffset, hlength]
  exact ⟨hmore, by decide, rfl⟩

/-- The offset of a request of four gigabytes wraps before its end. -/
theorem not_contract_of_large (hopen : OpenMailbox drvdata)
    (habove : mailboxRequestSize < drvdata.maxPacketSizeIn.toNat)
    (hsize : 2 ^ 32 ≤ requestData.length) : ¬SendContract drvdata requestData := by
  have hlength : ∀ offset, mailboxRequestSize + writeLength drvdata requestData.length offset ≤
      libhothUsbMailboxMtu := by
    intro offset
    have hin := hopen.inAtMost
    have hpayload := maxSendPayloadSize_of_ge habove.le
    have hmod : writeLength drvdata requestData.length offset ≤ maxSendPayloadSize drvdata := by
      rw [writeLength]
      split_ifs with hlast
      · exact (Nat.mod_le _ _).trans hlast.le
      · exact Nat.mod_le _ _
    rw [mailboxRequestSize] at *
    rw [libhothUsbMailboxMtu]
    omega
  refine never_finishes (fun offset ↦ offset < 2 ^ 32) (by norm_num) fun offset hoffset ↦ ?_
  exact ⟨hoffset.trans_le hsize, hlength offset, Nat.mod_lt _ (by norm_num)⟩

/-- Where the difference of the sizes wraps, what is left after a first packet is a multiple of 256,
and packets of no bytes follow. -/
theorem not_contract_of_wrapped (hopen : OpenMailbox drvdata)
    (hbelow : drvdata.maxPacketSizeIn.toNat < mailboxRequestSize)
    (hsize : 2 ^ 8 ≤ requestData.length) : ¬SendContract drvdata requestData := by
  intro hcontract
  have hfirst := (hcontract.first_packet (by omega)).trans hopen.outAtMost
  have hpayload := maxSendPayloadSize_of_lt hbelow
  have hleast := hopen.inAtLeast
  have hunwrapped : requestData.length < maxSendPayloadSize drvdata := by
    by_contra hlong
    rw [writeLength, if_neg (by omega), hpayload] at hfirst
    rw [mailboxRequestSize] at *
    omega
  have hlength : ∀ offset, writeLength drvdata requestData.length offset =
      (requestData.length - offset) % 2 ^ 8 := fun offset ↦ by
    rw [writeLength, if_pos (by omega)]
  have hmod := Nat.mod_lt requestData.length (show 0 < 2 ^ 8 by decide)
  have hsmall : requestData.length % 2 ^ 8 % 2 ^ 32 = requestData.length % 2 ^ 8 :=
    Nat.mod_eq_of_lt (hmod.trans (by decide))
  refine never_finishes (fun offset ↦ offset = 0 ∨ offset = requestData.length % 2 ^ 8) (.inl rfl)
    (fun offset hoffset ↦ ?_) hcontract
  rcases hoffset with rfl | rfl
  · refine ⟨by omega, hfirst, .inr ?_⟩
    rw [hlength, Nat.sub_zero, Nat.zero_add, hsmall]
  · have hnone : (requestData.length - requestData.length % 2 ^ 8) % 2 ^ 8 = 0 :=
      Nat.sub_mod_eq_zero_of_mod_eq (Nat.mod_mod _ _).symm
    rw [hlength, hnone]
    simp only [Nat.add_zero, hsmall]
    exact ⟨hmod.trans_le hsize, by decide, .inr trivial⟩

/-- Only where the sizes fit does every call keep the contract. -/
theorem SendContract.fits (hcontract : SendContract drvdata requestData)
    (hopen : OpenMailbox drvdata) : SendFits drvdata requestData.length := by
  rcases Nat.eq_zero_or_pos requestData.length with hempty | hmore
  · exact .inl hempty
  have hfirst := hcontract.first_packet hmore
  have hdifferent : drvdata.maxPacketSizeIn.toNat ≠ mailboxRequestSize :=
    fun hsame ↦ not_contract_of_eq hmore hsame hcontract
  rcases Nat.lt_or_gt_of_ne hdifferent with hbelow | habove
  · have hsize : requestData.length < 2 ^ 8 :=
      not_le.mp fun hsize ↦ not_contract_of_wrapped hopen hbelow hsize hcontract
    have hunwrapped : requestData.length - 0 < maxSendPayloadSize drvdata := by
      rw [maxSendPayloadSize_of_lt hbelow, mailboxRequestSize]
      omega
    refine .inr ⟨hsize.trans (by decide), hdifferent, fun _ ↦ ?_, fun habove ↦ ?_⟩
    · rw [writeLength, if_pos hunwrapped, Nat.sub_zero, Nat.mod_eq_of_lt hsize] at hfirst
      exact hfirst
    · exact absurd habove hbelow.asymm
  · have hsize : requestData.length < 2 ^ 32 :=
      not_le.mp fun hsize ↦ not_contract_of_large hopen habove hsize hcontract
    refine .inr ⟨hsize, hdifferent, fun hbelow ↦ absurd hbelow habove.asymm, fun _ ↦ ?_⟩
    clear hsize
    have hin := hopen.inAtMost
    rw [writeLength, maxSendPayloadSize_of_ge habove.le, Nat.sub_zero] at hfirst
    rw [mailboxRequestSize] at *
    split_ifs at hfirst <;> omega

end Loop

/-! ### The theorem -/

/-- For every pair of packet sizes that the transport accepts and every request: every call ends,
stays in its packet buffer, sends no packet longer than the OUT endpoint takes and writes the whole
request on success, exactly when the sizes fit. -/
theorem libhothUsbMailboxSendRequest_contract_iff {type : LibhothUsbInterfaceType}
    {initial drvdata : LibhothUsbMailbox} {endpoints : List LibusbEndpointDescriptor}
    (hopen : libhothUsbMailboxOpen type initial endpoints = (libhothOk, drvdata))
    (requestData : List UInt8) :
    SendContract drvdata requestData ↔ SendFits drvdata requestData.length :=
  ⟨fun hcontract ↦ hcontract.fits (openMailbox_of_open hopen),
    fun hfits ↦ hfits.contract (openMailbox_of_open hopen)⟩

/-- With equal packet sizes a request of a hundred bytes is sent. -/
theorem libhothUsbMailboxSendRequest_contract_iff_equal_sizes :
    SendContract ⟨64, 64, 0x81, 0x01⟩ (List.replicate 100 0) := by
  have hopen : libhothUsbMailboxOpen .mailbox ⟨0, 0, 0, 0⟩ [⟨0x81, 2, 64⟩, ⟨0x01, 2, 64⟩] =
      (libhothOk, ⟨64, 64, 0x81, 0x01⟩) := by decide
  refine (libhothUsbMailboxSendRequest_contract_iff hopen _).mpr ?_
  rw [List.length_replicate]
  exact .inr ⟨by decide, by decide, by decide, by decide⟩

/-- With a larger IN endpoint a request of 64 bytes makes a packet that the OUT endpoint cannot
take. -/
theorem libhothUsbMailboxSendRequest_larger_in_endpoint :
    libhothUsbMailboxOpen .mailbox ⟨0, 0, 0, 0⟩ [⟨0x81, 2, 64⟩, ⟨0x01, 2, 32⟩] =
        (libhothOk, ⟨64, 32, 0x81, 0x01⟩) ∧
      ¬SendContract ⟨64, 32, 0x81, 0x01⟩ (List.replicate 64 0) := by
  refine ⟨by decide, fun hcontract ↦ ?_⟩
  have hfirst := hcontract.first_packet (by decide)
  rw [List.length_replicate] at hfirst
  exact absurd hfirst (by decide)

end Libhoth.Transports.UsbMailboxSend
