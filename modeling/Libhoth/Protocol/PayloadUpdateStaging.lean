import Libhoth.Protocol.PayloadUpdate

/-!
# Payload update: what reaches the staging area

`libhothPayloadUpdate_stages` is the contract of `libhoth_payload_update` against every device:
after success the packets it sent have put the image into the staging area, the rest of the last
sector is erased and nothing else has changed; the data packets are ascending, disjoint and of 1 to
1007 bytes; and a rejected packet is the last thing sent.

The proof carries one predicate through the phases. `UpdateProgress` says that every packet so far
was accepted, that the packets are disciplined (`PacketDiscipline`), and how far the staging area
is (`Staged`). A phase either keeps it or ends in `UpdateRejected`, and `sendPacket_outcome` is the
step both loops are built from.
-/

set_option autoImplicit false
set_option relaxedAutoImplicit false

namespace Libhoth.Protocol.PayloadUpdateStaging

open Foundation.ByteString Foundation.CheckedAccess Foundation.InteractingProgram
open Foundation.NorFlash Status HostCommand HostCommandProgram PayloadInfo PayloadUpdate

/-- The staging area that an update is meant to leave: the image, the erased rest of its last
sector, and the original contents elsewhere. -/
def stagedImage (image : List UInt8) (original : ℕ → UInt8) (address : ℕ) : UInt8 :=
  if h : address < image.length then image[address]
  else if address < (image.length + 4095) / 4096 * 4096 then 0xFF
  else original address

/-! ### Disciplined packets -/

/-- Erase and data packets, where each data packet carries what its header says, at most a
mailbox of it, from beyond the data packets before it and below `written`. -/
structure PacketDiscipline (packets : List PayloadUpdatePacket) (written : ℕ) : Prop where
  kinds : ∀ packet ∈ packets,
    packet.type = payloadUpdateErase ∨ packet.type = payloadUpdateContinue
  chunks : ∀ packet ∈ packets, packet.type = payloadUpdateContinue →
    packet.data.length = packet.len ∧ 1 ≤ packet.len ∧ packet.len ≤ maxChunkSize ∧
      packet.offset + packet.len ≤ written
  ascending : (packets.filter (·.type = payloadUpdateContinue)).Pairwise fun first second ↦
    first.offset + first.len ≤ second.offset

namespace PacketDiscipline

variable {packets : List PayloadUpdatePacket} {written : ℕ}

theorem nil : PacketDiscipline [] written where
  kinds := by simp
  chunks := by simp
  ascending := by simp

/-- The bound of the discipline can be raised. -/
theorem mono (hdiscipline : PacketDiscipline packets written) {bound : ℕ}
    (hbound : written ≤ bound) : PacketDiscipline packets bound where
  kinds := hdiscipline.kinds
  chunks := fun packet hmem htype ↦ by
    obtain ⟨hdata, hpos, hmax, hwritten⟩ := hdiscipline.chunks packet hmem htype
    exact ⟨hdata, hpos, hmax, by omega⟩
  ascending := hdiscipline.ascending

/-- One more erase packet. -/
theorem snoc_erase (hdiscipline : PacketDiscipline packets written) {packet : PayloadUpdatePacket}
    (htype : packet.type = payloadUpdateErase) :
    PacketDiscipline (packets ++ [packet]) written where
  kinds := forall_mem_snoc hdiscipline.kinds (.inl htype)
  chunks := forall_mem_snoc hdiscipline.chunks fun hcontinue ↦ by
    rw [htype] at hcontinue
    exact absurd hcontinue (by decide)
  ascending := by
    have hother : packet.type ≠ payloadUpdateContinue := by
      rw [htype]
      decide
    simpa [List.filter_append, hother] using hdiscipline.ascending

/-- One more data packet, at or after the end of the data packets so far. -/
theorem snoc_continue (hdiscipline : PacketDiscipline packets written)
    {packet : PayloadUpdatePacket} (htype : packet.type = payloadUpdateContinue)
    (hdata : packet.data.length = packet.len) (hpos : 1 ≤ packet.len)
    (hmax : packet.len ≤ maxChunkSize) (hoffset : written ≤ packet.offset) :
    PacketDiscipline (packets ++ [packet]) (packet.offset + packet.len) where
  kinds := forall_mem_snoc hdiscipline.kinds (.inr htype)
  chunks := forall_mem_snoc (hdiscipline.mono (by omega)).chunks fun _ ↦
    ⟨hdata, hpos, hmax, le_rfl⟩
  ascending := by
    rw [List.filter_append, List.filter_cons_of_pos (by simpa using htype), List.filter_nil,
      List.pairwise_append]
    refine ⟨hdiscipline.ascending, by simp, fun first hfirst second hsecond ↦ ?_⟩
    obtain ⟨hmem, hcontinue⟩ := List.mem_filter.mp hfirst
    obtain ⟨-, -, -, hwritten⟩ := hdiscipline.chunks first hmem (by simpa using hcontinue)
    obtain rfl : second = packet := by simpa using hsecond
    omega

end PacketDiscipline

/-! ### Progress and rejection -/

@[simp] theorem packetsOf_append (first second : HostHistory) :
    packetsOf (first ++ second) = packetsOf first ++ packetsOf second := by
  simp [packetsOf]

@[simp] theorem applyPackets_append (original : ℕ → UInt8)
    (first second : List PayloadUpdatePacket) :
    applyPackets original (first ++ second) = applyPackets (applyPackets original first) second :=
  List.foldl_append

/-- An update part way through: every exchange succeeded, the packets are disciplined, and the
staging area has been erased up to `stop` and written up to `written`. -/
structure UpdateProgress (original : ℕ → UInt8) (image : List UInt8) (stop written : ℕ)
    (history : HostHistory) : Prop where
  accepted : ∀ exchange ∈ history, exchange.2.error = hothSuccess
  discipline : PacketDiscipline (packetsOf history) written
  staged : Staged original 0 stop 0 image written (applyPackets original (packetsOf history))

/-- An update that ended on a rejected packet: the last exchange failed with `err` and every other
one succeeded. -/
def UpdateRejected (err : LibhothError) (history : HostHistory) : Prop :=
  err ≠ hothSuccess ∧ (∃ written, PacketDiscipline (packetsOf history) written) ∧
    ∃ before exchange, history = before ++ [exchange] ∧
      (∀ earlier ∈ before, earlier.2.error = hothSuccess) ∧ exchange.2.error = err

/-- How a phase of the update ends. -/
def PhaseOutcome (original : ℕ → UInt8) (image : List UInt8) (stop written : ℕ)
    (err : LibhothError) (history : HostHistory) : Prop :=
  err = hothSuccess ∧ UpdateProgress original image stop written history ∨
    UpdateRejected err history

variable {original : ℕ → UInt8} {image : List UInt8} {stop written : ℕ} {history : HostHistory}

theorem UpdateProgress.initial (original : ℕ → UInt8) (image : List UInt8) :
    UpdateProgress original image 0 0 [] where
  accepted := by simp
  discipline := .nil
  staged := Staged.initial original 0 0 image

/-- Sending a packet either makes the progress that the packet stands for or ends the update. -/
theorem sendPacket_outcome (hprogress : UpdateProgress original image stop written history)
    (packet : PayloadUpdatePacket) (nextStop nextWritten : ℕ) (hoffset : packet.offset < 2 ^ 32)
    (hlen : packet.len < 2 ^ 32)
    (hdiscipline : PacketDiscipline (packetsOf history ++ [packet]) nextWritten)
    (hstaged : Staged original 0 nextStop 0 image nextWritten
      (packet.apply (applyPackets original (packetsOf history)))) :
    Ensures recording (sendPacket packet) history
      (PhaseOutcome original image nextStop nextWritten) := by
  simp only [sendPacket, hostcmdExec, ensures_bind, ensures_request, recording_iff, pure_eq_done,
    ensures_done]
  rintro reply _ rfl
  have hpackets : packetsOf (history ++ [⟨packet.call 0 0, reply⟩]) =
      packetsOf history ++ [packet] := by
    rw [packetsOf_append]
    simp [packetsOf, packetOf_call packet 0 0 hoffset hlen]
  by_cases herror : reply.error = hothSuccess
  · refine .inl ⟨herror, forall_mem_snoc hprogress.accepted herror, hpackets ▸ hdiscipline, ?_⟩
    · rw [hpackets, applyPackets_append]
      exact hstaged
  · exact .inr ⟨herror, ⟨nextWritten, hpackets ▸ hdiscipline⟩, history, _, rfl,
      hprogress.accepted, rfl⟩

/-! ### The erase phase -/

/-- An erase chunk is a positive number of sectors and no more than what remains of a
sector-aligned range. -/
theorem eraseChunkSize_spec (currentOffset : ℕ) {remaining : ℕ} (hremaining : 0 < remaining)
    (haligned : remaining % kSectorErase = 0) :
    eraseChunkSize currentOffset remaining % kSectorErase = 0 ∧
      eraseChunkSize currentOffset remaining ≤ remaining := by
  unfold eraseChunkSize
  by_cases hblock : currentOffset % kBlockErase = 0 ∧ remaining ≥ kBlockErase
  · rw [if_pos hblock]
    exact ⟨rfl, hblock.2⟩
  · rw [if_neg hblock]
    exact ⟨Nat.mod_self _, Nat.le_of_dvd hremaining (Nat.dvd_of_mod_eq_zero haligned)⟩

/-- The erase loop over a sector-aligned range erases all of it or ends on a rejected packet. -/
theorem eraseRange_ensures {len : ℕ} (haligned : len % kSectorErase = 0) (hfits : len < 2 ^ 32)
    (hprogress : UpdateProgress original image 0 0 history) :
    Ensures recording (whileDecreasing (fun erased ↦ len - erased) (eraseRound 0 len) 0) history
      (PhaseOutcome original image len 0) := by
  refine whileDecreasing_ensures
    (fun erased history ↦ erased ≤ len ∧ erased % kSectorErase = 0 ∧
      UpdateProgress original image erased 0 history)
    (fun erased history ⟨hle, herased, hprogress⟩ ↦ ?_) 0 history ⟨Nat.zero_le _, rfl, hprogress⟩
  unfold eraseRound
  split_ifs with hmore
  · have hremaining : (len - erased) % kSectorErase = 0 := by
      simp only [kSectorErase] at haligned herased ⊢
      omega
    obtain ⟨hchunk, hbound⟩ :=
      eraseChunkSize_spec (0 + erased) (by omega) hremaining
    have hsend := sendPacket_outcome hprogress
      ⟨0 + erased, eraseChunkSize (0 + erased) (len - erased), payloadUpdateErase, []⟩
      (erased + eraseChunkSize (0 + erased) (len - erased)) 0
      (by simp only; omega) (by simp only; omega) (hprogress.discipline.snoc_erase rfl)
      (by simpa [PayloadUpdatePacket.apply] using
        hprogress.staged.erase (Nat.zero_le _) (.inr rfl))
    simp only [payloadUpdateEraseChunk, ensures_bind]
    refine hsend.mono fun ret final hret ↦ ?_
    rcases hret with ⟨rfl, hnext⟩ | hrejected
    · simp only [ne_eq, not_true, if_false, pure_eq_done, ensures_done]
      refine ⟨by omega, ?_, hnext⟩
      simp only [kSectorErase] at herased hchunk ⊢
      omega
    · rw [if_pos hrejected.1, pure_eq_done, ensures_done]
      exact .inr hrejected
  · rw [pure_eq_done, ensures_done]
    obtain rfl : erased = len := by omega
    exact .inl ⟨rfl, hprogress⟩

/-! ### The program phase -/

/-- Trimming a chunk leaves a prefix of it, passes over erased bytes only, and keeps a byte that is
not erased. -/
theorem trimChunk_spec (image : List UInt8) (offset chunkSize : ℕ)
    (h : offset + chunkSize ≤ image.length) :
    trimChunk image offset chunkSize h ≤ chunkSize ∧
      (∀ index, trimChunk image offset chunkSize h ≤ index → index < chunkSize →
        image[offset + index]? = some 0xFF) ∧
      ∀ index, index < chunkSize → image[offset + index]? ≠ some 0xFF →
        index < trimChunk image offset chunkSize h := by
  induction chunkSize with
  | zero => simp [trimChunk]
  | succ chunkSize ih =>
    obtain ⟨hle, htrimmed, hkept⟩ := ih (by omega)
    rw [trimChunk]
    split_ifs with hlast
    · have herased : image[offset + chunkSize]? = some 0xFF := by
        rw [← hlast]
        exact List.getElem?_eq_getElem _
      refine ⟨by omega, fun index hlower hupper ↦ ?_, fun index hupper hbyte ↦ ?_⟩
      · rcases Nat.lt_succ_iff_lt_or_eq.mp hupper with hinside | rfl
        · exact htrimmed index hlower hinside
        · exact herased
      · rcases Nat.lt_succ_iff_lt_or_eq.mp hupper with hinside | rfl
        · exact hkept index hinside hbyte
        · exact absurd herased hbyte
    · exact ⟨le_rfl, fun index hlower hupper ↦ absurd hlower (by omega),
        fun index hupper _ ↦ hupper⟩

/-- Passing over a byte of the image that is `0xFF`. -/
theorem UpdateProgress.skip (hprogress : UpdateProgress original image stop written history)
    (hbyte : image[written]? = some 0xFF) (hstop : written < stop) :
    UpdateProgress original image stop (written + 1) history where
  accepted := hprogress.accepted
  discipline := hprogress.discipline.mono (Nat.le_succ _)
  staged := by
    refine hprogress.staged.skip (fun index hindex ↦ ?_) (Nat.zero_le _) (by omega)
    obtain rfl : index = 0 := by omega
    exact hbyte

/-- Sending the next bytes of the image programs them or ends the update. -/
theorem sendChunk_ensures (hprogress : UpdateProgress original image stop written history)
    {chunkSize : ℕ} (hpos : 1 ≤ chunkSize) (hmax : chunkSize ≤ maxChunkSize)
    (hinside : written + chunkSize ≤ image.length) (hstop : image.length ≤ stop)
    (hfits : image.length < 2 ^ 32) :
    Ensures recording
      (sendPacket ⟨written, chunkSize, payloadUpdateContinue, slice image written chunkSize⟩)
      history
      (PhaseOutcome original image stop (written + chunkSize)) := by
  have hlength : (slice image written chunkSize).length = chunkSize := length_slice_of_le hinside
  refine sendPacket_outcome hprogress _ _ _ (by simp only; omega) (by simp only; omega)
    (hprogress.discipline.snoc_continue rfl hlength hpos hmax le_rfl) ?_
  have hprogram := hprogress.staged.program (slice image written chunkSize)
    (fun index hindex ↦ by
      have hshifted : written + index < image.length := by omega
      rw [getElem_slice image hindex hshifted]
      exact List.getElem?_eq_getElem hshifted)
    (Nat.zero_le _) (by omega)
  rw [hlength, Nat.zero_add] at hprogram
  simpa [PayloadUpdatePacket.apply, payloadUpdateContinue, payloadUpdateErase] using hprogram

/-- The program loop sends the whole image or ends on a rejected packet. -/
theorem sendPayload_ensures (hprogress : UpdateProgress original image stop 0 history)
    (hstop : image.length ≤ stop) (hfits : image.length < 2 ^ 32) :
    Ensures recording (sendPayload image) history
      (PhaseOutcome original image stop image.length) := by
  refine whileDecreasing_ensures
    (fun offset history ↦ offset ≤ image.length ∧
      UpdateProgress original image stop offset history)
    (fun offset history ⟨hle, hprogress⟩ ↦ ?_) 0 history ⟨Nat.zero_le _, hprogress⟩
  unfold sendPayloadRound
  split_ifs with hmore hskip
  · have hbyte : image[offset]? = some 0xFF := by
      rw [← hskip]
      exact List.getElem?_eq_getElem _
    rw [pure_eq_done, ensures_done]
    exact ⟨hmore, hprogress.skip hbyte (by omega)⟩
  · obtain ⟨htrim, -, hkept⟩ := trimChunk_spec image offset
      (min maxChunkSize (image.length - offset)) (by omega)
    have hpos : 0 < trimChunk image offset (min maxChunkSize (image.length - offset)) (by omega) :=
      hkept 0 (by simp only [maxChunkSize, libhothMailboxSize, headerSize,
        payloadUpdatePacketSize]; omega) (by
          rw [Nat.add_zero, List.getElem?_eq_getElem hmore]
          simpa using hskip)
    have hsend := sendChunk_ensures hprogress hpos (by omega) (by omega) hstop hfits
    simp only [Nat.pos_iff_ne_zero.mp hpos, if_false, ensures_bind]
    refine hsend.mono fun ret final hret ↦ ?_
    rcases hret with ⟨rfl, hnext⟩ | hrejected
    · simp only [ne_eq, not_true, if_false, pure_eq_done, ensures_done]
      have hoffset : ∀ chunkSize, 0 < chunkSize →
          offset + (chunkSize - 1) + 1 = offset + chunkSize :=
        fun chunkSize hpositive ↦ by omega
      rw [hoffset _ hpos]
      exact ⟨by omega, hnext⟩
    · rw [if_pos hrejected.1, pure_eq_done, ensures_done]
      exact .inr hrejected
  · rw [pure_eq_done, ensures_done]
    obtain rfl : offset = image.length := by omega
    exact .inl ⟨rfl, hprogress⟩

/-! ### The finalize phase -/

/-- A run that only adds exchanges whose packets, if any, are finalize packets, and that on success
adds one of them exactly for an image that is not a plain file. -/
def FinalizeOutcome (binaryFile : Bool) (history : HostHistory) (err : LibhothError)
    (final : HostHistory) : Prop :=
  ∃ tail, final = history ++ tail ∧
    (∀ packet ∈ packetsOf tail, packet.type = payloadUpdateFinalize) ∧
    (err = hothSuccess → (packetsOf tail ≠ [] ↔ binaryFile = false))

/-- Sending a finalize packet after an exchange without a packet. -/
theorem finalizeOutcome_sent {exchange : Exchange HostReply} (hexchange : packetsOf [exchange] = [])
    (version respBufSize : ℕ)
    (reply : HostReply (PayloadUpdatePacket.call ⟨0, 0, payloadUpdateFinalize, []⟩ version
      respBufSize)) (history : HostHistory) (err : LibhothError) :
    FinalizeOutcome false history err (history ++ [exchange] ++ [⟨_, reply⟩]) := by
  have htail : packetsOf ([exchange] ++ [⟨_, reply⟩]) = [⟨0, 0, payloadUpdateFinalize, []⟩] := by
    rw [packetsOf_append, hexchange, List.nil_append]
    simp [packetsOf, packetOf_call _ version respBufSize]
  refine ⟨[exchange] ++ [⟨_, reply⟩], List.append_assoc _ _ _, ?_, fun _ ↦ ?_⟩
  · rw [htail]
    simp
  · rw [htail]
    simp

/-- Asking for the versions of the command sends no packet. -/
theorem getPayloadUpdateVersion_ensures (history : HostHistory) :
    Ensures recording getPayloadUpdateVersion history fun outcome final ↦
      (∃ exchange, final = history ++ [exchange] ∧ packetsOf [exchange] = []) ∧
        outcome ≠ .error hothSuccess := by
  have hnone : ∀ reply : HostReply (commandVersionsCall payloadUpdateCommand),
      packetsOf [⟨_, reply⟩] = [] := fun reply ↦ by
    have hother : packetOf (commandVersionsCall payloadUpdateCommand) = none :=
      packetOf_eq_none (by decide)
    rw [packetsOf, List.filterMap_cons, hother, List.filterMap_nil]
  simp only [getPayloadUpdateVersion, libhothGetCommandVersions, hostcmdExec, ensures_bind,
    ensures_request, recording_iff]
  rintro reply _ rfl
  cases reply with
  | failed err nonzero =>
    simp only [pure_eq_done, ensures_done]
    split_ifs
    · exact (ensures_done _ _ _).mpr ⟨⟨_, rfl, hnone _⟩, by simp⟩
    · exact (ensures_done _ _ _).mpr ⟨⟨_, rfl, hnone _⟩, by simpa using nonzero⟩
  | accepted payload fits =>
    simp only [pure_eq_done, ensures_done]
    split_ifs
    · exact (ensures_done _ _ _).mpr ⟨⟨_, rfl, hnone _⟩, by simp⟩
    · exact (ensures_done _ _ _).mpr ⟨⟨_, rfl, hnone _⟩, by simp⟩

/-- The finalize phase sends at most one packet, a finalize packet. -/
theorem finalizePayload_ensures (binaryFile : Bool) (history : HostHistory) :
    Ensures recording (finalizePayload binaryFile) history
      (FinalizeOutcome binaryFile history) := by
  cases binaryFile with
  | true =>
    rw [finalizePayload, if_pos rfl, pure_eq_done, ensures_done]
    exact ⟨[], by simp, by simp [packetsOf], fun _ ↦ by simp [packetsOf]⟩
  | false =>
    simp only [finalizePayload, libhothPayloadUpdateFinalize, Bool.false_eq_true, if_false,
      ensures_bind]
    refine (getPayloadUpdateVersion_ensures history).mono ?_
    rintro outcome _ ⟨⟨exchange, rfl, hexchange⟩, hsuccess⟩
    cases outcome with
    | error status =>
      simp only [pure_eq_done, ensures_done]
      exact ⟨[exchange], rfl, by simp [hexchange], fun herr ↦ absurd (herr ▸ rfl) hsuccess⟩
    | ok version =>
      cases version with
      | zero =>
        simp only [sendPayloadUpdateRequestWithCommand, sendPacket, hostcmdExec, ensures_bind,
          ensures_request, recording_iff]
        rintro reply _ rfl
        simp only [pure_eq_done, ensures_done]
        split_ifs
        · simp only [ensures_done]
          exact finalizeOutcome_sent hexchange 0 0 reply history _
        · simp only [ensures_done]
          exact finalizeOutcome_sent hexchange 0 0 reply history _
      | succ version =>
        simp only [hostcmdExec, ensures_bind, ensures_request, recording_iff]
        rintro reply _ rfl
        cases reply with
        | failed status nonzero =>
          simp only [pure_eq_done, ensures_done]
          exact finalizeOutcome_sent hexchange 1 1 _ history _
        | accepted payload fits =>
          simp only [pure_eq_done, ensures_done]
          exact finalizeOutcome_sent hexchange 1 1 _ history _

/-! ### The contract -/

/-- The order of the packets of an update: data packets carry 1 to 1007 bytes to ascending disjoint
ranges, and a finalize packet comes after the last of them. -/
structure PacketOrder (packets : List PayloadUpdatePacket) : Prop where
  sizes : ∀ packet ∈ packets, packet.type = payloadUpdateContinue →
    packet.data.length = packet.len ∧ 1 ≤ packet.len ∧ packet.len ≤ 1007
  ascending : (packets.filter (·.type = payloadUpdateContinue)).Pairwise fun first second ↦
    first.offset + first.len ≤ second.offset
  finalizeLast : ∀ before finalize after, packets = before ++ finalize :: after →
    finalize.type = payloadUpdateFinalize → ∀ later ∈ after, later.type ≠ payloadUpdateContinue

/-- What an update owes its caller, whatever the device answers. -/
structure UpdateContract (image : List UInt8) (binaryFile : Bool) (original : ℕ → UInt8)
    (err : LibhothError) (history : HostHistory) : Prop where
  staged : err = hothSuccess →
    applyPackets original (packetsOf history) = stagedImage image original
  order : PacketOrder (packetsOf history)
  finalized : err = hothSuccess →
    ((∃ packet ∈ packetsOf history, packet.type = payloadUpdateFinalize) ↔ binaryFile = false)
  rejected : ∀ before exchange after packet, history = before ++ exchange :: after →
    packetOf exchange.1 = some packet →
    packet.type = payloadUpdateErase ∨ packet.type = payloadUpdateContinue →
    exchange.2.error ≠ hothSuccess → after = [] ∧ err = exchange.2.error

/-- Disciplined packets followed by finalize packets are in order. -/
theorem PacketDiscipline.order {packets finalizes : List PayloadUpdatePacket} {bound : ℕ}
    (hdiscipline : PacketDiscipline packets bound)
    (hfinalizes : ∀ packet ∈ finalizes, packet.type = payloadUpdateFinalize) :
    PacketOrder (packets ++ finalizes) where
  sizes := by
    intro packet hmem htype
    rcases List.mem_append.mp hmem with hdata | hfinalize
    · obtain ⟨hlength, hpos, hmax, -⟩ := hdiscipline.chunks packet hdata htype
      exact ⟨hlength, hpos, hmax⟩
    · rw [hfinalizes packet hfinalize] at htype
      exact absurd htype (by decide)
  ascending := by
    have hnone : finalizes.filter (·.type = payloadUpdateContinue) = [] := by
      refine List.filter_eq_nil_iff.mpr fun packet hmem ↦ ?_
      rw [hfinalizes packet hmem]
      decide
    rw [List.filter_append, hnone, List.append_nil]
    exact hdiscipline.ascending
  finalizeLast := by
    intro before finalize after hsplit htype later hlater hcontinue
    rcases List.append_eq_append_iff.mp hsplit with ⟨rest, -, hrest⟩ | ⟨rest, hpackets, hrest⟩
    · have hmem : later ∈ finalizes := by
        rw [hrest]
        exact List.mem_append_right _ (List.mem_cons_of_mem _ hlater)
      rw [hfinalizes later hmem] at hcontinue
      exact absurd hcontinue (by decide)
    · cases rest with
      | nil =>
        have hmem : later ∈ finalizes := by
          rw [List.nil_append] at hrest
          exact hrest ▸ List.mem_cons_of_mem _ hlater
        rw [hfinalizes later hmem] at hcontinue
        exact absurd hcontinue (by decide)
      | cons head rest =>
        obtain ⟨rfl, -⟩ := List.cons.inj hrest
        have hmem : finalize ∈ packets := by
          rw [hpackets]
          exact List.mem_append_right _ List.mem_cons_self
        rcases hdiscipline.kinds finalize hmem with hkind | hkind <;> rw [htype] at hkind <;>
          exact absurd hkind (by decide)

/-- Finalize packets do not touch the staging area. -/
theorem applyPackets_of_finalize (flash : ℕ → UInt8) {finalizes : List PayloadUpdatePacket}
    (hfinalizes : ∀ packet ∈ finalizes, packet.type = payloadUpdateFinalize) :
    applyPackets flash finalizes = flash := by
  induction finalizes with
  | nil => rfl
  | cons packet rest ih =>
    have hpacket : packet.apply flash = flash := by
      rw [PayloadUpdatePacket.apply, hfinalizes packet List.mem_cons_self]
      rfl
    rw [applyPackets, List.foldl_cons, hpacket]
    exact ih fun other hmem ↦ hfinalizes other (List.mem_cons_of_mem _ hmem)

/-- A staging area erased over the sectors of the image and written to its end is the meant one. -/
theorem stagedImage_of_staged {flash : ℕ → UInt8}
    (hstaged : Staged original 0 ((image.length + 4095) / 4096 * 4096) 0 image image.length flash) :
    flash = stagedImage image original := by
  funext address
  obtain ⟨hdata, herased, hkept⟩ := hstaged address
  unfold stagedImage
  split_ifs with himage hsector
  · have hbyte := hdata (Nat.zero_le _) (by omega)
    rw [Nat.sub_zero, List.getElem?_eq_getElem himage] at hbyte
    exact (Option.some.inj hbyte).symm
  · exact herased (Nat.zero_le _) hsector (by omega)
  · exact hkept (by omega) (by omega)

namespace UpdateContract

variable {binaryFile : Bool} {err : LibhothError} {final : HostHistory}

/-- An update that failed before it sent anything. -/
theorem of_unsent (herr : err ≠ hothSuccess) : UpdateContract image binaryFile original err [] where
  staged := fun hsuccess ↦ absurd hsuccess herr
  order := (PacketDiscipline.nil : PacketDiscipline [] 0).order (by simp)
  finalized := fun hsuccess ↦ absurd hsuccess herr
  rejected := by simp

/-- An update that ended on a rejected packet. -/
theorem of_rejected (hrejected : UpdateRejected err history) :
    UpdateContract image binaryFile original err history := by
  obtain ⟨herr, ⟨bound, hdiscipline⟩, accepted, last, rfl, haccepted, hlast⟩ := hrejected
  refine ⟨fun hsuccess ↦ absurd hsuccess herr, ?_, fun hsuccess ↦ absurd hsuccess herr, ?_⟩
  · rw [← List.append_nil (packetsOf _)]
    exact hdiscipline.order (by simp)
  · intro before exchange after packet hsplit _ _ hfailed
    rcases snoc_eq_append_cons hsplit with ⟨rfl, rfl, rfl⟩ | ⟨rest, rfl⟩
    · exact ⟨rfl, hlast.symm⟩
    · exact absurd (haccepted exchange (by simp)) hfailed

/-- An update that sent the whole image and went on to finalize it. -/
theorem of_finalized
    (hprogress : UpdateProgress original image ((image.length + 4095) / 4096 * 4096) image.length
      history)
    (houtcome : FinalizeOutcome binaryFile history err final) :
    UpdateContract image binaryFile original err final := by
  obtain ⟨tail, rfl, htail, hfinalized⟩ := houtcome
  refine ⟨fun _ ↦ ?_, ?_, fun hsuccess ↦ ?_, ?_⟩
  · rw [packetsOf_append, applyPackets_append, applyPackets_of_finalize _ htail]
    exact stagedImage_of_staged hprogress.staged
  · rw [packetsOf_append]
    exact hprogress.discipline.order htail
  · rw [← hfinalized hsuccess, packetsOf_append]
    constructor
    · rintro ⟨packet, hmem, htype⟩ hnil
      rw [hnil, List.append_nil] at hmem
      rcases hprogress.discipline.kinds packet hmem with hkind | hkind <;> rw [htype] at hkind <;>
        exact absurd hkind (by decide)
    · intro hsome
      obtain ⟨packet, hmem⟩ := List.exists_mem_of_ne_nil _ hsome
      exact ⟨packet, List.mem_append_right _ hmem, htail packet hmem⟩
  · intro before exchange after packet hsplit hpacket hkind hfailed
    have hmem : exchange ∈ history ++ tail := by
      rw [hsplit]
      simp
    rcases List.mem_append.mp hmem with hold | hnew
    · exact absurd (hprogress.accepted exchange hold) hfailed
    · have htype := htail packet (List.mem_filterMap.mpr ⟨exchange, hnew, hpacket⟩)
      rw [htype] at hkind
      exact absurd hkind (by decide)

end UpdateContract

/-- A size that the erase phase accepts is rounded up to its last sector. -/
theorem payloadEraseSize_eq {size eraseSize : ℕ} {binaryFile : Bool}
    (hsize : payloadEraseSize size binaryFile = some eraseSize)
    (haligned : eraseSize % kSectorErase = 0) :
    eraseSize = (size + 4095) / 4096 * 4096 ∧ eraseSize < 2 ^ 32 := by
  unfold payloadEraseSize at hsize
  simp only [kSectorErase, uint32Max, gt_iff_lt] at hsize haligned
  split_ifs at hsize <;> obtain rfl := Option.some.inj hsize <;> omega

/-- The erase phase refuses before it sends anything, or erases the sectors of the image, or ends
on a rejected packet. -/
theorem erasePayloadArea_ensures (image : List UInt8) (binaryFile : Bool)
    (original : ℕ → UInt8) :
    Ensures recording (erasePayloadArea image.length false binaryFile) [] fun err history ↦
      err ≠ hothSuccess ∧ history = [] ∨
        (image.length < 2 ^ 32 ∧
          PhaseOutcome original image ((image.length + 4095) / 4096 * 4096) 0 err history) := by
  unfold erasePayloadArea
  rw [if_neg Bool.false_ne_true]
  cases hsize : payloadEraseSize image.length binaryFile with
  | none => exact (ensures_done _ _ _).mpr (.inl ⟨cmdExecStatus_ne_success _, rfl⟩)
  | some eraseSize =>
    simp only [libhothPayloadUpdateErase]
    split_ifs with hempty hoffset hlarge
    · exact (ensures_done _ _ _).mpr (.inl ⟨cmdExecStatus_ne_success _, rfl⟩)
    · exact absurd rfl hoffset
    · exact (ensures_done _ _ _).mpr (.inl ⟨cmdExecStatus_ne_success _, rfl⟩)
    · obtain ⟨-, haligned⟩ := not_or.mp hempty
      obtain ⟨rfl, hfits⟩ := payloadEraseSize_eq hsize (not_not.mp haligned)
      refine (eraseRange_ensures (not_not.mp haligned) hfits (.initial original image)).mono
        fun err history houtcome ↦ .inr ⟨by omega, houtcome⟩

/-- Every run of the phases of `libhoth_payload_update` meets the contract. -/
theorem stagePayload_ensures (image : List UInt8) (binaryFile : Bool) (original : ℕ → UInt8) :
    Ensures recording (stagePayload image false binaryFile) []
      (UpdateContract image binaryFile original) := by
  unfold stagePayload
  rw [ensures_bind]
  refine (erasePayloadArea_ensures image binaryFile original).mono fun err history herase ↦ ?_
  rcases herase with ⟨herr, rfl⟩ | ⟨hfits, ⟨rfl, hprogress⟩ | hrejected⟩
  · rw [if_pos herr, pure_eq_done, ensures_done]
    exact .of_unsent herr
  · simp only [ne_eq, not_true, if_false, ensures_bind]
    refine (sendPayload_ensures hprogress (by omega) hfits).mono fun ret middle hsend ↦ ?_
    rcases hsend with ⟨rfl, hwritten⟩ | hrejected
    · simp only [not_true, if_false]
      exact (finalizePayload_ensures binaryFile middle).mono fun finalErr final houtcome ↦
        .of_finalized hwritten houtcome
    · rw [if_pos hrejected.1, pure_eq_done, ensures_done]
      exact .of_rejected hrejected
  · rw [if_pos hrejected.1, pure_eq_done, ensures_done]
    exact .of_rejected hrejected

/-- Every run of `libhoth_payload_update` that erases first returns an error word and meets the
contract: for every image, both kinds of file, every device and every earlier contents of the
staging area. -/
theorem libhothPayloadUpdate_stages (image : List UInt8) (binaryFile : Bool)
    (original : ℕ → UInt8) (result : Except Fault LibhothError) (history : HostHistory)
    (hrun : Runs recording (libhothPayloadUpdate image false binaryFile) [] result history) :
    ∃ err, result = .ok err ∧ UpdateContract image binaryFile original err history := by
  suffices hensures : Ensures recording (libhothPayloadUpdate image false binaryFile) []
      fun result history ↦
        ∃ err, result = .ok err ∧ UpdateContract image binaryFile original err history from
    hensures result history hrun
  obtain ⟨accepted, haccepted⟩ := payloadAccepted_isOk image binaryFile
  unfold libhothPayloadUpdate
  rw [haccepted]
  cases accepted with
  | false =>
    simp only [pure_eq_done, ensures_done]
    exact ⟨_, rfl, .of_unsent (cmdExecStatus_ne_success _)⟩
  | true =>
    simp only [pure_eq_done, ensures_bind, ensures_done]
    exact (stagePayload_ensures image binaryFile original).mono fun err final hcontract ↦
      ⟨err, rfl, hcontract⟩

/-- A one-byte file on a device that accepts everything: an erase, a chunk, and the staged byte. -/
theorem libhothPayloadUpdate_stages_one_byte :
    ∃ history,
      Runs recording (libhothPayloadUpdate [0x00] false true) [] (.ok hothSuccess) history ∧
      history.length = 2 ∧
      applyPackets (fun _ ↦ 0x55) (packetsOf history) = stagedImage [0x00] fun _ ↦ 0x55 := by
  have hsend : ∀ (packet : PayloadUpdatePacket) (history : HostHistory),
      Runs recording (sendPacket packet) history hothSuccess
        (history ++ [⟨packet.call 0 0, .accepted [] rfl⟩]) := fun packet history ↦
    (runs_bind _ _ _ _ _).mpr ⟨.accepted [] rfl, _, (runs_request _ _ _ _).mpr rfl, rfl, rfl⟩
  have herase : Runs recording (erasePayloadArea 1 false true) [] hothSuccess
      ([] ++ [⟨PayloadUpdatePacket.call ⟨0, 4096, payloadUpdateErase, []⟩ 0 0,
        .accepted [] rfl⟩]) := by
    change Runs recording (whileDecreasing (fun erased ↦ 4096 - erased) (eraseRound 0 4096) 0) _ _ _
    refine (runs_whileDecreasing _ _ _ _).mpr ⟨.inl ⟨4096, by omega⟩, _,
      (runs_bind _ _ _ _ _).mpr ⟨hothSuccess, _, hsend _ _, rfl, rfl⟩,
      (runs_whileDecreasing _ _ _ _).mpr ⟨.inr hothSuccess, _, ⟨rfl, rfl⟩, rfl, rfl⟩⟩
  have hpayload : ∀ history : HostHistory, Runs recording (sendPayload [0x00]) history hothSuccess
      (history ++ [⟨PayloadUpdatePacket.call ⟨0, 1, payloadUpdateContinue, [0x00]⟩ 0 0,
        .accepted [] rfl⟩]) := by
    intro history
    refine (runs_whileDecreasing _ _ _ _).mpr ⟨.inl ⟨1, by decide⟩, _,
      (runs_bind _ _ _ _ _).mpr ⟨hothSuccess, _, hsend _ _, rfl, rfl⟩,
      (runs_whileDecreasing _ _ _ _).mpr ⟨.inr hothSuccess, _, ⟨rfl, rfl⟩, rfl, rfl⟩⟩
  have hstage : Runs recording (stagePayload [0x00] false true) [] hothSuccess _ :=
    (runs_bind _ _ _ _ _).mpr ⟨hothSuccess, _, herase,
      (runs_bind _ _ _ _ _).mpr ⟨hothSuccess, _, hpayload _, rfl, rfl⟩⟩
  have hrun : Runs recording (libhothPayloadUpdate [0x00] false true) [] (.ok hothSuccess) _ :=
    (runs_bind _ _ _ _ _).mpr ⟨hothSuccess, _, hstage, rfl, rfl⟩
  refine ⟨_, hrun, rfl, ?_⟩
  obtain ⟨err, herr, hcontract⟩ := libhothPayloadUpdate_stages [0x00] true (fun _ ↦ 0x55) _ _ hrun
  exact hcontract.staged (Except.ok.inj herr).symm

end Libhoth.Protocol.PayloadUpdateStaging
