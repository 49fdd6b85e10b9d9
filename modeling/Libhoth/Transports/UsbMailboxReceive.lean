import Mathlib.Data.List.Pairwise
import Libhoth.Transports.UsbMailbox

/-!
# Receiving a response from an arbitrary mailbox

`libhothUsbMailboxReceiveResponse_reports_iff` says when the bytes that
`libhoth_usb_mailbox_receive_response` reports were received: every packet must have brought the
bytes of its range that lie below the reported size (`FullReads`). A shorter packet is copied, or
ends the response, all the same.

`Receiving` is the invariant of the loop. While the packets are full, every byte before the offset
was delivered; offsets are counted without the wrap of the 32-bit word, so the invariant also holds
of a buffer of four gigabytes. Where the offset cannot wrap the ranges of the packets lie apart, and
a byte that a packet left out is a byte that no packet delivered.
-/

set_option autoImplicit false
set_option relaxedAutoImplicit false

namespace Libhoth.Transports.UsbMailboxReceive

open Foundation.ByteString Foundation.CellMemory Foundation.CheckedAccess
open Foundation.InteractingProgram Protocol.HostCommand Libusb UsbMailbox

/-! ### The packets of a history -/

/-- A packet: the offset and length that were requested and the bytes that were received, two status
bytes first. -/
structure MailboxRead where
  offset : ℕ
  length : ℕ
  bytes : List UInt8

/-- What a history says so far: the last range that was requested and the packets. -/
structure MailboxTrace where
  asked : ℕ × ℕ
  reads : List MailboxRead

/-- One more exchange of a history. -/
def MailboxTrace.extend (trace : MailboxTrace) : Exchange UsbReply → MailboxTrace
  | ⟨.bulkOut _ data _, .transferred _ _⟩ =>
    { trace with asked := (wordAt data 1 4, wordAt data 5 1) }
  | ⟨.bulkIn _ _ _, .received bytes _⟩ =>
    { trace with reads := trace.reads ++ [⟨trace.asked.1, trace.asked.2, bytes⟩] }
  | _ => trace

/-- The packets of a history. -/
def mailboxTrace (history : UsbHistory) : MailboxTrace :=
  history.foldl MailboxTrace.extend ⟨(0, 0), []⟩

@[simp] theorem mailboxTrace_snoc (history : UsbHistory) (exchange : Exchange UsbReply) :
    mailboxTrace (history ++ [exchange]) = (mailboxTrace history).extend exchange := by
  simp [mailboxTrace]

/-- A packet delivered a byte of the mailbox. -/
def MailboxRead.Delivers (read : MailboxRead) (address : ℕ) (byte : UInt8) : Prop :=
  read.offset ≤ address ∧ address < read.offset + read.length ∧
    read.bytes[mailboxResponseSize + (address - read.offset)]? = some byte

/-- The size that is reported: the size of the buffer in 32 bits, cut to the response that the
header in the packet buffer announces when the first packet is long enough to carry one. -/
def reportedSize (responseSize : ℕ) (packet : ℕ → UInt8) : List MailboxRead → ℕ
  | [] => responseSize % 2 ^ 32
  | first :: _ =>
    if first.length ≥ headerSize then
      min (responseSize % 2 ^ 32)
        (headerSize + (packetHeader (store packet 0 first.bytes)).dataLen)
    else responseSize % 2 ^ 32

/-- Every packet brought the bytes of its range below a size. -/
def FullReads (size : ℕ) (reads : List MailboxRead) : Prop :=
  ∀ read ∈ reads,
    mailboxResponseSize + min read.length (size - read.offset) ≤ read.bytes.length

/-- An exchange that the function answers with an error: a transfer that failed or was cut in its
request or its status, a status other than success, or a header of another version. -/
def Refuses (packet : ℕ → UInt8) (before : UsbHistory) : Exchange UsbReply → Prop
  | ⟨.bulkOut _ _ _, .failed _ _⟩ => True
  | ⟨.bulkOut _ _ _, .transferred count _⟩ => count ≠ mailboxRequestSize
  | ⟨.bulkIn _ _ _, .failed _ _⟩ => True
  | ⟨.bulkIn _ _ _, .received bytes _⟩ =>
    bytes.length < mailboxResponseSize ∨ bytes[0]? ≠ some mailboxSuccess ∨
      ((mailboxTrace before).asked.1 = 0 ∧ (mailboxTrace before).asked.2 ≥ headerSize) ∧
        (packetHeader (store packet 0 bytes)).structVersion ≠ hothHostResponseVersion

/-- On success every reported byte was received in this call as the byte of its offset. -/
def ReportsReceived (result : Except Fault ReceiveResult) (history : UsbHistory) : Prop :=
  ∀ out, result = .ok out → out.status = libhothOk →
    ∃ size, out.actualSize = some size ∧ ∀ address < size,
      ∃ read ∈ (mailboxTrace history).reads, read.Delivers address (out.response address)

/-- The 32-bit offset cannot wrap: the buffer is below four gigabytes, or the first packet carries
the header and so cuts the expected size. -/
def NoWrap (drvdata : LibhothUsbMailbox) (responseSize : ℕ) : Prop :=
  responseSize < 2 ^ 32 ∨ headerSize ≤ maxPayloadSize drvdata

/-! ### The loop -/

/-- Two packets with disjoint ranges. -/
def Apart (first second : MailboxRead) : Prop :=
  first.offset + first.length ≤ second.offset ∨ second.offset + second.length ≤ first.offset

instance : Std.Symm Apart :=
  ⟨fun _ _ hapart ↦ hapart.symm⟩

section Loop

variable (drvdata : LibhothUsbMailbox) (responseSize : ℕ) (packet : ℕ → UInt8)

/-- The loop before a round. -/
structure Receiving (state : ReceiveState) (history : UsbHistory) : Prop where
  accepted : Unbroken (Refuses packet) history
  statuses : ∀ read ∈ (mailboxTrace history).reads, mailboxResponseSize ≤ read.bytes.length
  expected : state.expectedSize = reportedSize responseSize packet (mailboxTrace history).reads
  first : (mailboxTrace history).reads = [] → state.offset = 0 ∧ state.packet = packet
  later : (mailboxTrace history).reads ≠ [] → headerSize ≤ maxPayloadSize drvdata →
    0 < state.offset ∧ state.expectedSize ≤ headerSize + 0xFFFF
  delivered : FullReads state.expectedSize (mailboxTrace history).reads →
    ∃ covered, covered % 2 ^ 32 = state.offset ∧ ∀ address < min covered state.expectedSize,
      ∃ read ∈ (mailboxTrace history).reads, read.Delivers address (state.response address)
  apart : NoWrap drvdata responseSize → (mailboxTrace history).reads.Pairwise Apart ∧
    ∀ read ∈ (mailboxTrace history).reads, read.offset + read.length ≤ state.offset

/-- How a call ends: it failed on an exchange that is refused, or it reported a size that was
received if every packet was full and only then. -/
inductive ReceiveEnd (history : UsbHistory) : Except Fault ReceiveResult → Prop
  | failed (result : ReceiveResult) (hstatus : result.status ≠ libhothOk)
    (hrefused : ¬Unbroken (Refuses packet) history) : ReceiveEnd history (.ok result)
  | done (response : ℕ → UInt8) (haccepted : Unbroken (Refuses packet) history)
    (hstatuses : ∀ read ∈ (mailboxTrace history).reads, mailboxResponseSize ≤ read.bytes.length)
    (hdelivered : FullReads (reportedSize responseSize packet (mailboxTrace history).reads)
        (mailboxTrace history).reads →
      ∀ address < reportedSize responseSize packet (mailboxTrace history).reads,
        ∃ read ∈ (mailboxTrace history).reads, read.Delivers address (response address))
    (hapart : NoWrap drvdata responseSize → (mailboxTrace history).reads.Pairwise Apart) :
    ReceiveEnd history (.ok ⟨libhothOk,
      some (reportedSize responseSize packet (mailboxTrace history).reads), response⟩)

/-- What a round leaves: the invariant for the next one, or the end of the call. -/
def ReceiveRoundEnd (history : UsbHistory) : ReceiveState ⊕ Except Fault ReceiveResult → Prop
  | .inl next => Receiving drvdata responseSize packet next history
  | .inr result => ReceiveEnd drvdata responseSize packet history result

variable {drvdata responseSize packet}
variable {state : ReceiveState} {history : UsbHistory}

theorem reportedSize_le (reads : List MailboxRead) :
    reportedSize responseSize packet reads ≤ responseSize % 2 ^ 32 := by
  unfold reportedSize
  split
  · exact le_rfl
  · split_ifs
    · exact min_le_left _ _
    · exact le_rfl

namespace Receiving

/-- Before the first request. -/
theorem initial (response : ℕ → UInt8) :
    Receiving drvdata responseSize packet ⟨0, responseSize % 2 ^ 32, packet, response⟩ [] where
  accepted := Unbroken.nil _
  statuses := fun _ hread ↦ absurd hread List.not_mem_nil
  expected := rfl
  first := fun _ ↦ ⟨rfl, rfl⟩
  later := fun hreads ↦ absurd rfl hreads
  delivered := fun _ ↦ ⟨0, rfl, fun _ haddress ↦ by omega⟩
  apart := fun _ ↦ ⟨.nil, fun _ hread ↦ absurd hread List.not_mem_nil⟩

/-- A packet that carries the header is the first. -/
theorem reads_eq_nil (hreceiving : Receiving drvdata responseSize packet state history)
    {length : ℕ} (hlength : length ≤ maxPayloadSize drvdata)
    (hcarries : CarriesHeader state length) : (mailboxTrace history).reads = [] := by
  by_contra hreads
  obtain ⟨hoffset, -⟩ := hreceiving.later hreads (hcarries.2.trans hlength)
  exact absurd hcarries.1 hoffset.ne'

/-- The packet that is requested next lies inside the buffer and the packet buffer. -/
theorem range (hreceiving : Receiving drvdata responseSize packet state history)
    (hopen : OpenMailbox drvdata) (hmore : state.offset < state.expectedSize) :
    let length := readLength drvdata responseSize state.offset
    1 ≤ length ∧ length ≤ maxPayloadSize drvdata ∧ length ≤ 62 ∧
      state.offset + length ≤ responseSize ∧ state.offset < responseSize % 2 ^ 32 ∧
      (length < maxPayloadSize drvdata → state.offset + length = responseSize) := by
  have hbounds := hopen.maxPayloadSize_bounds
  have hexpected : state.expectedSize ≤ responseSize % 2 ^ 32 :=
    hreceiving.expected.trans_le (reportedSize_le _)
  have hmod := Nat.mod_le responseSize (2 ^ 32)
  simp only [hopen.readLength_eq]
  omega

section Accept

variable (hreceiving : Receiving drvdata responseSize packet state history) {length : ℕ}
  (hlength : length ≤ maxPayloadSize drvdata) (bytes : List UInt8)
include hreceiving hlength

/-- A packet after the first leaves the expected size as it was. -/
theorem accept_expectedSize_of_later (hreads : (mailboxTrace history).reads ≠ []) :
    (state.accept length bytes).expectedSize = state.expectedSize :=
  if_neg fun hcarries ↦ hreads (hreceiving.reads_eq_nil hlength hcarries)

/-- The expected size after a packet is the size that the packets report. -/
theorem accept_expectedSize :
    (state.accept length bytes).expectedSize = reportedSize responseSize packet
      ((mailboxTrace history).reads ++ [⟨state.offset, length, bytes⟩]) := by
  by_cases hreads : (mailboxTrace history).reads = []
  · obtain ⟨hoffset, hpacket⟩ := hreceiving.first hreads
    have hexpected := hreceiving.expected
    rw [hreads] at hexpected
    have hcarries : CarriesHeader state length ↔ length ≥ headerSize :=
      ⟨fun hcarries ↦ hcarries.2, fun hlong ↦ ⟨hoffset, hlong⟩⟩
    rw [hreads, List.nil_append, reportedSize, ReceiveState.accept, ReceiveState.filled, hpacket,
      hexpected, reportedSize]
    simp only [hcarries]
  · rw [hreceiving.accept_expectedSize_of_later hlength bytes hreads, hreceiving.expected]
    cases hlist : (mailboxTrace history).reads with
    | nil => exact absurd hlist hreads
    | cons first rest => rfl

/-- While the packets are full, the bytes below the offset are delivered with the packet's. -/
theorem accept_delivered (hfull : FullReads (state.accept length bytes).expectedSize
    ((mailboxTrace history).reads ++ [⟨state.offset, length, bytes⟩])) :
    ∃ covered, covered % 2 ^ 32 = state.offset ∧
      ∀ address < min (covered + length) (state.accept length bytes).expectedSize,
        ∃ read ∈ (mailboxTrace history).reads ++ [⟨state.offset, length, bytes⟩],
          read.Delivers address ((state.accept length bytes).response address) := by
  have hearlier : FullReads state.expectedSize (mailboxTrace history).reads := by
    intro read hread
    rw [← hreceiving.accept_expectedSize_of_later hlength bytes (List.ne_nil_of_mem hread)]
    exact hfull read (List.mem_append_left _ hread)
  obtain ⟨covered, hoffset, hdelivered⟩ := hreceiving.delivered hearlier
  have hle := state.accept_expectedSize_le length bytes
  have hexpected : state.expectedSize ≤ responseSize % 2 ^ 32 :=
    hreceiving.expected.trans_le (reportedSize_le _)
  have hnew := hfull _ (List.mem_append_right _ (List.mem_singleton_self _))
  have hlast : (⟨state.offset, length, bytes⟩ : MailboxRead) ∈
      (mailboxTrace history).reads ++ [⟨state.offset, length, bytes⟩] :=
    List.mem_append_right _ (List.mem_singleton_self _)
  simp only at hnew
  refine ⟨covered, hoffset, fun address haddress ↦ ?_⟩
  have hpayload : (load (state.filled bytes) mailboxResponseSize length).length = length :=
    length_load _ _ _
  change ∃ read ∈ (mailboxTrace history).reads ++ [⟨state.offset, length, bytes⟩],
    read.Delivers address (state.copied length bytes address)
  by_cases hinside : state.offset ≤ address ∧ address < state.offset + length
  · refine ⟨_, hlast, hinside.1, hinside.2, ?_⟩
    have hcopied := getElem?_store state.response hinside.1 (hpayload.symm ▸ hinside.2)
    rw [getElem?_load _ (by omega)] at hcopied
    have hfilled := getElem?_store state.packet (Nat.zero_le _)
      (show mailboxResponseSize + (address - state.offset) < 0 + bytes.length by omega)
    rw [Nat.sub_zero] at hfilled
    exact hfilled.trans hcopied
  · obtain ⟨read, hread, hdelivers⟩ := hdelivered address (by omega)
    have hkept : state.copied length bytes address = state.response address := by
      rw [ReceiveState.copied]
      rcases Nat.lt_or_ge address state.offset with hbelow | habove
      · exact store_of_lt _ _ hbelow
      · exact store_of_ge _ (by rw [hpayload]; omega)
    rw [hkept]
    exact ⟨read, List.mem_append_left _ hread, hdelivers⟩

/-- When packets can carry the header the first one does, and bounds the expected size. -/
theorem accept_expectedSize_le_of_carries
    (hcarries : (mailboxTrace history).reads = [] → length ≥ headerSize)
    (hlong : headerSize ≤ maxPayloadSize drvdata) :
    (state.accept length bytes).expectedSize ≤ headerSize + 0xFFFF := by
  by_cases hreads : (mailboxTrace history).reads = []
  · have hdata : (packetHeader (state.filled bytes)).dataLen < 256 ^ 2 := wordAt_lt _ _ _
    have hfirst : CarriesHeader state length :=
      ⟨(hreceiving.first hreads).1, hcarries hreads⟩
    rw [ReceiveState.accept, if_pos hfirst]
    exact (min_le_right _ _).trans (by omega)
  · rw [hreceiving.accept_expectedSize_of_later hlength bytes hreads]
    exact (hreceiving.later hreads hlong).2

end Accept

/-- Where the offset cannot wrap the next one is the sum. -/
theorem offset_add_length_lt (hreceiving : Receiving drvdata responseSize packet state history)
    (hopen : OpenMailbox drvdata) (hmore : state.offset < state.expectedSize)
    (hnoWrap : NoWrap drvdata responseSize) :
    state.offset + readLength drvdata responseSize state.offset < 2 ^ 32 := by
  obtain ⟨-, -, hlength, hinside, -⟩ := hreceiving.range hopen hmore
  rcases hnoWrap with hsmall | hlong
  · omega
  · by_cases hfirst : (mailboxTrace history).reads = []
    · have hoffset := (hreceiving.first hfirst).1
      omega
    · have hexpected := (hreceiving.later hfirst hlong).2
      rw [headerSize] at hexpected
      omega

section Packet

variable (hreceiving : Receiving drvdata responseSize packet state history)
  {bytes : List UInt8} {now : UsbHistory}
  (hreads : (mailboxTrace now).reads = (mailboxTrace history).reads ++
    [⟨state.offset, readLength drvdata responseSize state.offset, bytes⟩])
include hreceiving hreads

/-- The ranges of the packets lie apart. -/
theorem apart_now (hnoWrap : NoWrap drvdata responseSize) :
    (mailboxTrace now).reads.Pairwise Apart ∧ ∀ read ∈ (mailboxTrace now).reads,
      read.offset + read.length ≤
        state.offset + readLength drvdata responseSize state.offset := by
  obtain ⟨hpairwise, hbelow⟩ := hreceiving.apart hnoWrap
  rw [hreads]
  refine ⟨List.pairwise_append.mpr ⟨hpairwise, List.pairwise_singleton _ _, ?_⟩, ?_⟩
  · intro read hread new hnew
    rw [List.mem_singleton.mp hnew]
    exact .inl (hbelow read hread)
  · exact forall_mem_snoc (fun read hread ↦ (hbelow read hread).trans (Nat.le_add_right _ _)) le_rfl

variable (hstatus : mailboxResponseSize ≤ bytes.length)
include hstatus

theorem statuses_now : ∀ read ∈ (mailboxTrace now).reads,
    mailboxResponseSize ≤ read.bytes.length := by
  rw [hreads]
  exact forall_mem_snoc hreceiving.statuses hstatus

variable (hopen : OpenMailbox drvdata) (hmore : state.offset < state.expectedSize)
  (haccepted : Unbroken (Refuses packet) now)
include hopen hmore haccepted

/-- A packet shorter than the payload of a full one ends the call. -/
theorem packet_done (hshort : bytes.length < maxPayloadSize drvdata) :
    ReceiveEnd drvdata responseSize packet now (.ok ⟨libhothOk,
      some (state.accept (readLength drvdata responseSize state.offset) bytes).expectedSize,
      (state.accept (readLength drvdata responseSize state.offset) bytes).response⟩) := by
  obtain ⟨-, hlength, -, hinside, hoffset, hlast⟩ := hreceiving.range hopen hmore
  have hexpected := hreceiving.accept_expectedSize hlength bytes
  rw [← hreads] at hexpected
  have hle := (hexpected.trans_le (reportedSize_le _)).trans (Nat.mod_le _ _)
  rw [hexpected]
  refine .done _ haccepted
    (hreceiving.statuses_now hreads hstatus) (fun hfull ↦ ?_)
    fun hnoWrap ↦ (hreceiving.apart_now hreads hnoWrap).1
  rw [← hexpected, hreads] at hfull
  obtain ⟨covered, hcovered, hdelivered⟩ :=
    hreceiving.accept_delivered hlength bytes hfull
  have hnew := hfull _ (List.mem_append_right _ (List.mem_singleton_self _))
  have hbelow : state.offset ≤ covered := hcovered ▸ Nat.mod_le covered _
  clear hcovered hoffset
  simp only [mailboxResponseSize] at hnew
  rw [← hexpected, hreads]
  exact fun address haddress ↦ hdelivered address (lt_min (by omega) haddress)

/-- A longer packet keeps the invariant. -/
theorem packet_next (hsize : headerSize ≤ responseSize) : Receiving drvdata responseSize packet
    { state.accept (readLength drvdata responseSize state.offset) bytes with
      offset := (state.offset + readLength drvdata responseSize state.offset) % 2 ^ 32 } now := by
  obtain ⟨hpositive, hlength, hsmall, hinside, hoffset, hlast⟩ := hreceiving.range hopen hmore
  have hexpected := hreceiving.accept_expectedSize hlength bytes
  rw [← hreads] at hexpected
  exact {
    accepted := haccepted
    statuses := hreceiving.statuses_now hreads hstatus
    expected := hexpected
    first := fun hempty ↦ by simp [hreads] at hempty
    later := fun _ hlong ↦ by
      have hlt := hreceiving.offset_add_length_lt hopen hmore (.inr hlong)
      refine ⟨?_, ?_⟩
      · simp only
        omega
      · refine hreceiving.accept_expectedSize_le_of_carries hlength bytes (fun hfirst ↦ ?_) hlong
        rw [hopen.readLength_eq, (hreceiving.first hfirst).1]
        exact le_min hsize hlong
    delivered := fun hfull ↦ by
      rw [hreads] at hfull ⊢
      obtain ⟨covered, hcovered, hdelivered⟩ :=
        hreceiving.accept_delivered hlength bytes hfull
      exact ⟨covered + readLength drvdata responseSize state.offset,
        by simp only; omega, hdelivered⟩
    apart := fun hnoWrap ↦ by
      have hlt := hreceiving.offset_add_length_lt hopen hmore hnoWrap
      simp only [Nat.mod_eq_of_lt hlt]
      exact hreceiving.apart_now hreads hnoWrap }

end Packet

end Receiving

theorem not_unbroken_of_refuses {before : UsbHistory} {exchange : Exchange UsbReply}
    (hrefuses : Refuses packet before exchange) :
    ¬Unbroken (Refuses packet) (before ++ [exchange]) :=
  fun hunbroken ↦ (unbroken_snoc_iff.mp hunbroken).2 hrefuses

/-- A packet is refused when the function answers its exchange with an error. -/
theorem refuses_received_iff (hreceiving : Receiving drvdata responseSize packet state history)
    {length : ℕ} (hlength : length ≤ maxPayloadSize drvdata) {before : UsbHistory}
    (hasked : (mailboxTrace before).asked = (state.offset, length)) (endpoint : UInt8)
    (size timeoutMs : ℕ) (bytes : List UInt8) (fits : bytes.length ≤ size) :
    Refuses packet before ⟨.bulkIn endpoint size timeoutMs, .received bytes fits⟩ ↔
      PacketRefused state length bytes := by
  have hcarries : CarriesHeader state length → state.packet = packet := fun hcarries ↦
    (hreceiving.first (hreceiving.reads_eq_nil hlength hcarries)).2
  simp only [Refuses, PacketRefused, hasked]
  by_cases hshort : bytes.length < mailboxResponseSize
  · simp only [hshort, true_or]
  · have hfirst := getElem?_store state.packet (Nat.zero_le 0)
      (show 0 < 0 + bytes.length by rw [mailboxResponseSize] at hshort; omega)
    rw [Nat.sub_zero] at hfirst
    rw [hfirst, ne_eq, Option.some.injEq]
    refine or_congr_right (or_congr_right (and_congr_right fun hfirst ↦ ?_))
    rw [ReceiveState.filled, hcarries hfirst]

namespace Receiving

/-- What is asked for by the request of a round. -/
theorem mailboxTrace_asked (hreceiving : Receiving drvdata responseSize packet state history)
    (hopen : OpenMailbox drvdata) (hmore : state.offset < state.expectedSize)
    (endpoint : UInt8) (timeoutMs count : ℕ) (fits) :
    mailboxTrace (history ++ [⟨.bulkOut endpoint (encodeMailboxRequest mailboxReqRead state.offset
      (readLength drvdata responseSize state.offset)) timeoutMs, .transferred count fits⟩]) =
        { mailboxTrace history with
          asked := (state.offset, readLength drvdata responseSize state.offset) } := by
  obtain ⟨-, -, hsmall, -, hoffset, -⟩ := hreceiving.range hopen hmore
  have hoffsetWord : state.offset < 2 ^ 32 := hoffset.trans (Nat.mod_lt _ (by norm_num))
  have hlengthWord : readLength drvdata responseSize state.offset < 2 ^ 8 :=
    hsmall.trans_lt (by decide)
  rw [mailboxTrace_snoc, MailboxTrace.extend, (wordAt_encodeMailboxRequest _ _ _).1,
    (wordAt_encodeMailboxRequest _ _ _).2, Nat.mod_eq_of_lt hoffsetWord,
    Nat.mod_eq_of_lt hlengthWord]

/-- A packet keeps the invariant or ends the call. -/
theorem received_cases (hreceiving : Receiving drvdata responseSize packet state history)
    (hopen : OpenMailbox drvdata) (hsize : headerSize ≤ responseSize)
    (hmore : state.offset < state.expectedSize) {middle : UsbHistory}
    (hsent : Unbroken (Refuses packet) middle)
    (htrace : mailboxTrace middle = { mailboxTrace history with
      asked := (state.offset, readLength drvdata responseSize state.offset) })
    (timeoutMs : ℕ) (bytes : List UInt8)
    (fits : bytes.length ≤
      mailboxResponseSize + readLength drvdata responseSize state.offset) :
    ∃ outcome, receivePacket drvdata responseSize (readLength drvdata responseSize state.offset)
        state bytes = .ok outcome ∧
      ReceiveRoundEnd drvdata responseSize packet
        (middle ++ [⟨.bulkIn drvdata.epIn
          (mailboxResponseSize + readLength drvdata responseSize state.offset) timeoutMs,
          .received bytes fits⟩])
        (outcome.map id .ok) := by
  obtain ⟨-, hlength, hsmall, hinside, -, -⟩ := hreceiving.range hopen hmore
  have hmtu : mailboxResponseSize + readLength drvdata responseSize state.offset ≤
      libhothUsbMailboxMtu := Nat.add_le_add_left hsmall 2
  have hrefuses := refuses_received_iff hreceiving hlength
    (show (mailboxTrace middle).asked = _ by rw [htrace]) drvdata.epIn
    (mailboxResponseSize + readLength drvdata responseSize state.offset) timeoutMs bytes fits
  rcases receivePacket_cases state _ bytes drvdata hsize (fits.trans hmtu) hmtu hinside with
    ⟨result, hpacket, hstatus, hrefused⟩ | ⟨haccepted, hpacket⟩
  · exact ⟨_, hpacket, .failed _ hstatus (not_unbroken_of_refuses (hrefuses.mpr hrefused))⟩
  · have hreads : (mailboxTrace (middle ++ [⟨.bulkIn drvdata.epIn
        (mailboxResponseSize + readLength drvdata responseSize state.offset) timeoutMs,
        .received bytes fits⟩])).reads = (mailboxTrace history).reads ++
          [⟨state.offset, readLength drvdata responseSize state.offset, bytes⟩] := by
      rw [mailboxTrace_snoc, htrace]
      rfl
    have hunbroken := hsent.snoc fun hrefused ↦ haccepted (hrefuses.mp hrefused)
    have hstatus : mailboxResponseSize ≤ bytes.length :=
      not_lt.mp fun hshort ↦ haccepted (.inl hshort)
    rw [finishRound, ReceiveState.accept_offset] at hpacket
    split_ifs at hpacket with hshort
    · exact ⟨_, hpacket, hreceiving.packet_done hreads hstatus hopen hmore hunbroken hshort⟩
    · exact ⟨_, hpacket, hreceiving.packet_next hreads hstatus hopen hmore hunbroken hsize⟩

/-- When the offset has reached the expected size, that size is reported. -/
theorem finished (hreceiving : Receiving drvdata responseSize packet state history)
    (hall : ¬state.offset < state.expectedSize) :
    ReceiveEnd drvdata responseSize packet history
      (.ok ⟨libhothOk, some state.expectedSize, state.response⟩) := by
  have hexpected := hreceiving.expected
  rw [hexpected]
  refine .done _ hreceiving.accepted hreceiving.statuses (fun hfull ↦ ?_)
    fun hnoWrap ↦ (hreceiving.apart hnoWrap).1
  rw [← hexpected] at hfull
  obtain ⟨covered, hcovered, hdelivered⟩ := hreceiving.delivered hfull
  have hbelow : state.offset ≤ covered := hcovered ▸ Nat.mod_le covered _
  clear hcovered
  rw [← hexpected]
  exact fun address haddress ↦ hdelivered address (lt_min (by omega) haddress)

end Receiving

/-- One round keeps the invariant or ends the call. -/
theorem receiveRound_ensures (hreceiving : Receiving drvdata responseSize packet state history)
    (hopen : OpenMailbox drvdata) (hsize : headerSize ≤ responseSize) (timeoutMs : ℕ) :
    Ensures recording (receiveRound drvdata responseSize timeoutMs state) history
      fun outcome final ↦ ReceiveRoundEnd drvdata responseSize packet final outcome := by
  have hio : libusbErrorIo ≠ libhothOk := by decide
  unfold receiveRound
  by_cases hmore : state.offset < state.expectedSize
  · rw [if_pos hmore]
    simp only [ensures_bind, ensures_request, recording_iff]
    intro sent middle hmiddle
    cases sent with
    | failed status nonzero =>
      simp only [pure_eq_done, ensures_done]
      exact .failed _ nonzero (hmiddle ▸ not_unbroken_of_refuses trivial)
    | transferred count fits =>
      dsimp only
      split_ifs with hcount
      · simp only [pure_eq_done, ensures_done]
        exact .failed _ hio (hmiddle ▸ not_unbroken_of_refuses hcount)
      · have hsent : Unbroken (Refuses packet) middle := by
          rw [hmiddle]
          exact hreceiving.accepted.snoc hcount
        have htrace := hreceiving.mailboxTrace_asked hopen hmore drvdata.epOut timeoutMs count fits
        rw [← hmiddle] at htrace
        simp only [ensures_bind, ensures_request, recording_iff]
        rintro reply _ rfl
        cases reply with
        | failed status nonzero =>
          simp only [pure_eq_done, ensures_done]
          exact .failed _ nonzero (not_unbroken_of_refuses trivial)
        | received bytes fits =>
          obtain ⟨outcome, hpacket, hend⟩ :=
            hreceiving.received_cases hopen hsize hmore hsent htrace timeoutMs bytes fits
          simp only [hpacket]
          cases outcome <;> exact (ensures_done _ _ _).mpr hend
  · rw [if_neg hmore, pure_eq_done, ensures_done]
    exact hreceiving.finished hmore

/-- Every call that returns ends in one of the two ways. -/
theorem libhothUsbMailboxReceiveResponse_ensures (hopen : OpenMailbox drvdata)
    (hsize : headerSize ≤ responseSize) (timeoutMs : ℕ) (response : ℕ → UInt8) (rounds : ℕ) :
    Ensures recording
      (libhothUsbMailboxReceiveResponse drvdata responseSize timeoutMs packet response rounds) []
      fun outcome final ↦ ∀ result, outcome = some result →
        ReceiveEnd drvdata responseSize packet final result := by
  rw [libhothUsbMailboxReceiveResponse, if_neg (not_lt.mpr hsize)]
  refine (whileRounds_ensures (Receiving drvdata responseSize packet) ?_ rounds _ _
    (Receiving.initial response)).mono fun _ _ hend ↦ hend.1
  intro state start hreceiving
  refine (receiveRound_ensures hreceiving hopen hsize timeoutMs).mono fun outcome final hend ↦ ?_
  cases outcome <;> exact hend

/-- Packets whose ranges lie apart and whose bytes are all delivered are full. -/
theorem fullReads_of_delivered {size : ℕ} {reads : List MailboxRead} {response : ℕ → UInt8}
    (hstatuses : ∀ read ∈ reads, mailboxResponseSize ≤ read.bytes.length)
    (hapart : reads.Pairwise Apart)
    (hdelivered : ∀ address < size, ∃ read ∈ reads, read.Delivers address (response address)) :
    FullReads size reads := by
  intro read hread
  by_contra hmissing
  have hstatus := hstatuses read hread
  obtain ⟨other, hother, hbelow, habove, hbyte⟩ :=
    hdelivered (read.offset + (read.bytes.length - mailboxResponseSize)) (by omega)
  by_cases hsame : read = other
  · subst hsame
    have hbound := (List.getElem?_eq_some_iff.mp hbyte).1
    omega
  · rcases hapart.forall hread hother hsame with hdisjoint | hdisjoint <;> omega

end Loop

/-! ### The theorem -/

/-- A call whose exchanges are all accepted brought the bytes of every requested range that lie
below the size it reports. -/
def PacketsFull (responseSize : ℕ) (packet : ℕ → UInt8) (history : UsbHistory) : Prop :=
  Unbroken (Refuses packet) history →
    FullReads (reportedSize responseSize packet (mailboxTrace history).reads)
      (mailboxTrace history).reads

/-- No call of an open transport leaves its buffers. The reported bytes were received when the
packets are full, and, where the offset cannot wrap, only then. -/
theorem libhothUsbMailboxReceiveResponse_reports_iff {type : LibhothUsbInterfaceType}
    {initial drvdata : LibhothUsbMailbox} {endpoints : List LibusbEndpointDescriptor}
    {responseSize timeoutMs rounds : ℕ} {packet response : ℕ → UInt8}
    {result : Except Fault ReceiveResult} {history : UsbHistory}
    (hopen : libhothUsbMailboxOpen type initial endpoints = (libhothOk, drvdata))
    (hsize : headerSize ≤ responseSize)
    (hrun : Runs recording (libhothUsbMailboxReceiveResponse drvdata responseSize timeoutMs packet
      response rounds) [] (some result) history) :
    (∃ out, result = .ok out) ∧
      (PacketsFull responseSize packet history → ReportsReceived result history) ∧
      (NoWrap drvdata responseSize →
        (ReportsReceived result history ↔ PacketsFull responseSize packet history)) := by
  have hend := libhothUsbMailboxReceiveResponse_ensures (openMailbox_of_open hopen) hsize timeoutMs
    response rounds _ _ hrun result rfl
  cases hend with
  | failed out hstatus hrefused =>
    have hreports : ReportsReceived (.ok out) history := by
      intro other hother hok
      obtain rfl := Except.ok.inj hother
      exact absurd hok hstatus
    exact ⟨⟨out, rfl⟩, fun _ ↦ hreports, fun _ ↦
      ⟨fun _ haccepted ↦ absurd haccepted hrefused, fun _ ↦ hreports⟩⟩
  | done final haccepted hstatuses hdelivered hapart =>
    have hreports : PacketsFull responseSize packet history → ReportsReceived (.ok ⟨libhothOk,
        some (reportedSize responseSize packet (mailboxTrace history).reads), final⟩) history := by
      intro hfull other hother _
      obtain rfl := Except.ok.inj hother
      exact ⟨_, rfl, hdelivered (hfull haccepted)⟩
    refine ⟨⟨_, rfl⟩, hreports, fun hnoWrap ↦ ⟨fun hreported _ ↦ ?_, hreports⟩⟩
    obtain ⟨size, hactual, hbytes⟩ := hreported _ rfl rfl
    obtain rfl := Option.some.inj hactual
    exact fullReads_of_delivered hstatuses (hapart hnoWrap) hbytes

/-- A transport with the largest packets. -/
def largestPackets : LibhothUsbMailbox where
  maxPacketSizeIn := 64
  maxPacketSizeOut := 64
  epIn := 0x81
  epOut := 0x01

theorem open_largestPackets : libhothUsbMailboxOpen .mailbox ⟨0, 0, 0, 0⟩
    [⟨0x81, 2, 64⟩, ⟨0x01, 2, 64⟩] = (libhothOk, largestPackets) := by
  decide

/-- The history of a call that reads a header in one packet. -/
def headerHistory (bytes : List UInt8) (fits : bytes.length ≤ 10) : UsbHistory :=
  [⟨.bulkOut 0x01 (encodeMailboxRequest mailboxReqRead 0 8) 0, .transferred 6 (by decide)⟩,
    ⟨.bulkIn 0x81 10 0, .received bytes fits⟩]

/-- The loop before the first packet, in cleared buffers. -/
def clearedState : ReceiveState where
  offset := 0
  expectedSize := 8
  packet := fun _ ↦ 0
  response := fun _ ↦ 0

theorem runs_headerHistory (bytes : List UInt8) (fits : bytes.length ≤ 10)
    (haccepted : ¬PacketRefused clearedState 8 bytes) :
    Runs recording (libhothUsbMailboxReceiveResponse largestPackets 8 0 (fun _ ↦ 0) (fun _ ↦ 0) 1)
      [] (some (.ok ⟨libhothOk, some (clearedState.accept 8 bytes).expectedSize,
        (clearedState.accept 8 bytes).response⟩)) (headerHistory bytes fits) := by
  have hpacket : receivePacket largestPackets 8 (readLength largestPackets 8 0)
      ⟨0, 8 % 2 ^ 32, fun _ ↦ 0, fun _ ↦ 0⟩ bytes = .ok (.inr ⟨libhothOk,
        some (clearedState.accept 8 bytes).expectedSize,
        (clearedState.accept 8 bytes).response⟩) := by
    rcases receivePacket_cases clearedState 8 bytes largestPackets
      (show headerSize ≤ 8 by decide) (fits.trans (by decide)) (by decide) (by decide) with
      ⟨_, -, -, hrefused⟩ | ⟨-, hpacket⟩
    · exact absurd hrefused haccepted
    · rw [finishRound, if_pos (fits.trans_lt (by decide))] at hpacket
      exact hpacket
  rw [libhothUsbMailboxReceiveResponse, if_neg (by decide), whileRounds, receiveRound,
    if_pos (by decide)]
  simp only [runs_bind, runs_request, recording_iff]
  refine ⟨.inr (.ok ⟨libhothOk, some (clearedState.accept 8 bytes).expectedSize,
    (clearedState.accept 8 bytes).response⟩), headerHistory bytes fits,
    ⟨.transferred 6 (by decide), _, rfl, ?_⟩, rfl, rfl⟩
  dsimp only
  rw [if_neg (by decide)]
  simp only [runs_bind, runs_request, recording_iff]
  refine ⟨.received bytes fits, _, rfl, ?_⟩
  simp only [hpacket]
  exact ⟨rfl, rfl⟩

/-- A packet that brings the whole header is reported as it was received. -/
theorem libhothUsbMailboxReceiveResponse_reports_iff_full :
    ∃ result history, Runs recording
        (libhothUsbMailboxReceiveResponse largestPackets 8 0 (fun _ ↦ 0) (fun _ ↦ 0) 1) []
        (some result) history ∧ ReportsReceived result history := by
  have hrun := runs_headerHistory [0, 0, 3, 0, 0, 0, 0, 0, 0, 0] (by decide)
    (by unfold PacketRefused; decide)
  refine ⟨_, _, hrun, (libhothUsbMailboxReceiveResponse_reports_iff open_largestPackets
    (by decide) hrun).2.1 fun _ read hread ↦ ?_⟩
  rw [List.mem_singleton.mp (show read ∈ [_] from hread)]
  decide

/-- A packet that brings one byte of the header is reported as a header of eight bytes. -/
theorem libhothUsbMailboxReceiveResponse_reports_short :
    libhothUsbMailboxOpen .mailbox ⟨0, 0, 0, 0⟩ [⟨0x81, 2, 64⟩, ⟨0x01, 2, 64⟩] =
        (libhothOk, largestPackets) ∧
      ∃ result history, Runs recording
          (libhothUsbMailboxReceiveResponse largestPackets 8 0 (fun _ ↦ 0) (fun _ ↦ 0) 1) []
          (some result) history ∧ ¬ReportsReceived result history := by
  refine ⟨open_largestPackets, _, _, runs_headerHistory [0, 0, 3] (by decide)
    (by unfold PacketRefused; decide), fun hreports ↦ ?_⟩
  obtain ⟨size, hsize, hdelivered⟩ := hreports _ rfl rfl
  have height : size = 8 := (Option.some.inj hsize).symm.trans (by decide)
  obtain ⟨read, hread, -, -, hbyte⟩ := hdelivered 1 (by omega)
  obtain rfl := List.mem_singleton.mp
    (show read ∈ [⟨0, 8, [0, 0, 3]⟩] from hread)
  exact Option.some_ne_none _ hbyte.symm

end Libhoth.Transports.UsbMailboxReceive
