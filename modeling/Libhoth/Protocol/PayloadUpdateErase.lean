import Libhoth.Foundation.RangeTiling
import Libhoth.Protocol.PayloadUpdateStaging

/-!
# Payload update: the erased range

`libhothPayloadUpdateErase_partitions` is the contract of `libhoth_payload_update_erase` for every
32-bit offset and length against every device. The guards reject exactly the ranges that are empty,
not made of sectors, or not below `2 ^ 32`; everything else is worked through by erase packets that
tile the range in ascending order. `EraseTiling` is the invariant of the loop: what was sent tiles
the range so far, in sectors and aligned blocks, and no aligned block inside the range was erased
by sectors.
-/

set_option autoImplicit false
set_option relaxedAutoImplicit false

namespace Libhoth.Protocol.PayloadUpdateErase

open Foundation.InteractingProgram Foundation.RangeTiling Status HostCommandProgram
open PayloadUpdate PayloadUpdateStaging

/-- The range that a packet is about. -/
def extentOf (packet : PayloadUpdatePacket) : Extent :=
  (packet.offset, packet.len)

/-- The packet that erases a range. -/
def erasePacket (offset len : ℕ) : PayloadUpdatePacket :=
  { offset, len, type := payloadUpdateErase, data := [] }

/-- The range of an erase that `libhoth_payload_update_erase` refuses. -/
def EraseRefused (offset len : ℕ) : Prop :=
  len = 0 ∨ len % kSectorErase ≠ 0 ∨ offset % kSectorErase ≠ 0 ∨ 2 ^ 32 ≤ offset + len

instance (offset len : ℕ) : Decidable (EraseRefused offset len) :=
  inferInstanceAs (Decidable (_ ∨ _))

/-- Erase packets that partition `[offset, reached)` into sectors and aligned blocks, with a block
wherever one fits into `[offset, offset + len)`. -/
structure EraseTiling (offset len reached : ℕ) (packets : List PayloadUpdatePacket) : Prop where
  erases : ∀ packet ∈ packets, packet = erasePacket packet.offset packet.len
  sizes : ∀ packet ∈ packets,
    packet.len = kSectorErase ∨ packet.len = kBlockErase ∧ packet.offset % kBlockErase = 0
  tiles : Tiles offset reached (packets.map extentOf)
  blocks : ∀ block, block % kBlockErase = 0 → offset ≤ block → block < reached →
    block + kBlockErase ≤ offset + len → erasePacket block kBlockErase ∈ packets

/-- What was sent on the way: nothing but a partition of the range up to `reached`. -/
def EraseSent (offset len reached : ℕ) (history : HostHistory) : Prop :=
  ∃ packets, history.map Sigma.fst = packets.map (·.call 0 0) ∧
    EraseTiling offset len reached packets

namespace EraseTiling

variable {offset len reached : ℕ} {packets : List PayloadUpdatePacket}

theorem initial (offset len : ℕ) : EraseTiling offset len offset [] where
  erases := by simp
  sizes := by simp
  tiles := rfl
  blocks := fun block _ hfrom hbelow _ ↦ absurd hfrom (by omega)

/-- The next chunk continues the partition. -/
theorem snoc {erased : ℕ} (hpackets : EraseTiling offset len (offset + erased) packets)
    (hoffset : offset % kSectorErase = 0) (herased : erased % kSectorErase = 0)
    (hmore : erased < len) :
    EraseTiling offset len (offset + (erased + eraseChunkSize (offset + erased) (len - erased)))
      (packets ++
        [erasePacket (offset + erased) (eraseChunkSize (offset + erased) (len - erased))]) where
  erases := forall_mem_snoc hpackets.erases rfl
  sizes := by
    refine forall_mem_snoc hpackets.sizes ?_
    rw [erasePacket, eraseChunkSize]
    split_ifs with hblock
    · exact .inr ⟨rfl, hblock.1⟩
    · exact .inl rfl
  tiles := by
    rw [List.map_append, ← Nat.add_assoc]
    exact hpackets.tiles.snoc (eraseChunkSize_pos _ _)
  blocks := by
    intro block haligned hfrom hbelow hinside
    rw [List.mem_append, List.mem_singleton]
    by_cases hold : block < offset + erased
    · exact .inl (hpackets.blocks block haligned hfrom hold hinside)
    · by_cases hblock : (offset + erased) % kBlockErase = 0 ∧ len - erased ≥ kBlockErase
      · have hsize : eraseChunkSize (offset + erased) (len - erased) = kBlockErase := if_pos hblock
        rw [hsize] at hbelow ⊢
        simp only [kBlockErase] at hblock haligned hbelow
        obtain rfl : block = offset + erased := by omega
        exact .inr rfl
      · have hsize : eraseChunkSize (offset + erased) (len - erased) = kSectorErase := if_neg hblock
        rw [hsize] at hbelow
        simp only [kBlockErase, kSectorErase] at hoffset herased hblock haligned hbelow hinside
        omega

end EraseTiling

variable {offset len : ℕ}

/-- One more exchange that carries the next chunk. -/
theorem EraseSent.snoc {erased : ℕ} {history : HostHistory}
    (hsent : EraseSent offset len (offset + erased) history) (hoffset : offset % kSectorErase = 0)
    (herased : erased % kSectorErase = 0) (hmore : erased < len)
    {chunk : ℕ} (hchunk : chunk = eraseChunkSize (offset + erased) (len - erased))
    (reply : HostReply ((erasePacket (offset + erased) chunk).call 0 0)) :
    EraseSent offset len (offset + (erased + chunk)) (history ++ [⟨_, reply⟩]) := by
  obtain ⟨packets, hcalls, hpackets⟩ := hsent
  subst hchunk
  refine ⟨_, ?_, hpackets.snoc hoffset herased hmore⟩
  rw [List.map_append, List.map_append, hcalls]
  rfl

/-- The guards of `libhoth_payload_update_erase` in exact numbers. -/
theorem libhothPayloadUpdateErase_of_refused (hoffset : offset < 2 ^ 32)
    (hrefused : EraseRefused offset len) :
    ∃ err, libhothPayloadUpdateErase offset len = pure err ∧ err ≠ hothSuccess := by
  unfold libhothPayloadUpdateErase
  split_ifs with hlength hstart hend
  · exact ⟨_, rfl, cmdExecStatus_ne_success _⟩
  · exact ⟨_, rfl, cmdExecStatus_ne_success _⟩
  · exact ⟨_, rfl, cmdExecStatus_ne_success _⟩
  · unfold EraseRefused at hrefused
    unfold uint32Max at hend
    omega

theorem libhothPayloadUpdateErase_of_accepted (haccepted : ¬EraseRefused offset len) :
    libhothPayloadUpdateErase offset len =
      whileDecreasing (fun erased ↦ len - erased) (eraseRound offset len) 0 := by
  unfold EraseRefused at haccepted
  unfold libhothPayloadUpdateErase uint32Max
  rw [if_neg (by omega), if_neg (by omega), if_neg (by omega)]

/-- How the erase of a range ends: every packet was accepted and the whole range partitioned, or
the last packet was rejected with the error that is returned. -/
structure EraseOutcome (offset len : ℕ) (err : LibhothError) (history : HostHistory) : Prop where
  sent : ∃ reached ≤ offset + len, EraseSent offset len reached history
  complete : (∀ exchange ∈ history, exchange.2.error = hothSuccess) →
    err = hothSuccess ∧ EraseSent offset len (offset + len) history
  rejected : ∀ before exchange after, history = before ++ exchange :: after →
    exchange.2.error ≠ hothSuccess → after = [] ∧ err = exchange.2.error

/-- The loop part way through: every packet was accepted and partitions the range so far. -/
structure EraseProgress (offset len erased : ℕ) (history : HostHistory) : Prop where
  bound : erased ≤ len
  aligned : erased % kSectorErase = 0
  accepted : ∀ exchange ∈ history, exchange.2.error = hothSuccess
  sent : EraseSent offset len (offset + erased) history

/-- An exchange after accepted ones is the only one that can be rejected. -/
theorem eq_nil_of_rejected {history before after : HostHistory} {last exchange : Exchange HostReply}
    (haccepted : ∀ earlier ∈ history, earlier.2.error = hothSuccess)
    (hsplit : history ++ [last] = before ++ exchange :: after)
    (hrejected : exchange.2.error ≠ hothSuccess) : after = [] ∧ exchange = last := by
  rcases snoc_eq_append_cons hsplit with ⟨-, hlast, hafter⟩ | ⟨rest, hitems⟩
  · exact ⟨hafter, hlast⟩
  · exact absurd (haccepted exchange (hitems ▸ by simp)) hrejected

/-- One round sends the next chunk, which keeps the progress or ends the call. -/
theorem eraseRound_ensures (hoffset : offset % kSectorErase = 0) (hlen : len % kSectorErase = 0)
    {erased : ℕ} {history : HostHistory} (hprogress : EraseProgress offset len erased history) :
    Ensures recording (eraseRound offset len erased) history fun outcome final ↦
      match outcome with
      | .inl next => EraseProgress offset len next.val final
      | .inr err => EraseOutcome offset len err final := by
  obtain ⟨hbound, haligned, haccepted, hsent⟩ := hprogress
  unfold eraseRound
  split_ifs with hmore
  · have hremaining : (len - erased) % kSectorErase = 0 := by
      simp only [kSectorErase] at haligned hlen ⊢
      omega
    obtain ⟨hchunk, hfits⟩ := eraseChunkSize_spec (offset + erased) (by omega) hremaining
    have hreached : erased + eraseChunkSize (offset + erased) (len - erased) ≤ len := by omega
    have hmultiple :
        (erased + eraseChunkSize (offset + erased) (len - erased)) % kSectorErase = 0 := by
      simp only [kSectorErase] at haligned hchunk ⊢
      omega
    simp only [payloadUpdateEraseChunk, sendPacket, hostcmdExec, ensures_bind, ensures_request,
      recording_iff, pure_eq_done, ensures_done]
    rintro reply final rfl
    have hnext := hsent.snoc hoffset haligned hmore rfl reply
    by_cases herror : reply.error = hothSuccess
    · rw [if_neg (not_not.mpr herror), ensures_done]
      exact ⟨hreached, hmultiple, forall_mem_snoc haccepted herror, hnext⟩
    · rw [if_pos herror, ensures_done]
      refine ⟨⟨_, Nat.add_le_add_left hreached offset, hnext⟩,
        fun hall ↦ absurd (hall _ (List.mem_append_right _ (List.mem_singleton_self _))) herror,
        fun before exchange after hsplit hrejected ↦ ?_⟩
      obtain ⟨hafter, hlast⟩ := eq_nil_of_rejected haccepted hsplit hrejected
      exact ⟨hafter, by rw [hlast]⟩
  · rw [pure_eq_done, ensures_done]
    obtain rfl : erased = len := by omega
    refine ⟨⟨_, le_rfl, hsent⟩, fun _ ↦ ⟨rfl, hsent⟩,
      fun before exchange after hsplit hrejected ↦ ?_⟩
    exact absurd (haccepted exchange (hsplit ▸ by simp)) hrejected

/-- The contract of `libhoth_payload_update_erase`. -/
theorem libhothPayloadUpdateErase_partitions (offset len : UInt32) :
    Ensures recording (libhothPayloadUpdateErase offset.toNat len.toNat) [] fun err history ↦
      (history = [] ∧ err ≠ hothSuccess ↔ EraseRefused offset.toNat len.toNat) ∧
      (¬EraseRefused offset.toNat len.toNat →
        EraseOutcome offset.toNat len.toNat err history) := by
  by_cases hrefused : EraseRefused offset.toNat len.toNat
  · obtain ⟨err, hprogram, herr⟩ :=
      libhothPayloadUpdateErase_of_refused offset.toNat_lt hrefused
    rw [hprogram, pure_eq_done, ensures_done]
    exact ⟨iff_of_true ⟨rfl, herr⟩ hrefused, fun haccepted ↦ absurd hrefused haccepted⟩
  · rw [libhothPayloadUpdateErase_of_accepted hrefused]
    have haligned : offset.toNat % kSectorErase = 0 ∧ len.toNat % kSectorErase = 0 := by
      unfold EraseRefused at hrefused
      omega
    have hloop : Ensures recording (whileDecreasing (fun erased ↦ len.toNat - erased)
        (eraseRound offset.toNat len.toNat) 0) [] (EraseOutcome offset.toNat len.toNat) := by
      refine whileDecreasing_ensures (EraseProgress offset.toNat len.toNat)
        (fun erased history hprogress ↦ ?_) 0 []
        ⟨Nat.zero_le _, rfl, by simp, [], rfl, .initial _ _⟩
      refine (eraseRound_ensures haligned.1 haligned.2 hprogress).mono fun outcome final hround ↦ ?_
      cases outcome <;> exact hround
    refine hloop.mono fun err history houtcome ↦ ⟨?_, fun _ ↦ houtcome⟩
    refine iff_of_false ?_ hrefused
    rintro ⟨rfl, herr⟩
    exact herr (houtcome.complete (by simp)).1

end Libhoth.Protocol.PayloadUpdateErase
