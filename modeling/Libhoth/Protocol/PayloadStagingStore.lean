import Libhoth.Foundation.RecordedRuns
import Libhoth.Protocol.ForceWrite
import Libhoth.Protocol.PayloadUpdateRead

/-!
# The staging area as a store

A device with a staging area of NOR flash, against any sequence of erases, updates and reads of
`payload_update.c`. `stagingDevice` carries out what it accepts. What it rejects may be half done:
the range of a rejected erase or program is left in any state, and the rest is not touched.

`stagingSession_correct` says that the operations are those of a store of bytes: one that succeeds
has its abstract effect (`StagingOp.apply`), one that fails changes nothing outside its range
(`StagingOp.Fails`), and those that the library does not refuse (`StagingOp.Accepted`) can succeed.
`stagingSession_retried` is about an update that comes after any operations on the sectors of its
image, whatever became of them: they leave no trace, and what is read behind the update is the
image.
-/

set_option autoImplicit false
set_option relaxedAutoImplicit false

namespace Libhoth.Protocol.PayloadStagingStore

open Foundation.ByteString Foundation.CellMemory Foundation.CheckedAccess
open Foundation.InteractingProgram Foundation.NorFlash Foundation.RecordedRuns
open Status HostCommand HostCommandProgram Console ForceWrite
open PayloadUpdate PayloadUpdateErase PayloadUpdateStaging PayloadUpdateRead

/-! ### The device -/

/-- Two staging areas that agree outside a range. -/
def SameOutside (start stop : ℕ) (before after : ℕ → UInt8) : Prop :=
  ∀ address, ¬(start ≤ address ∧ address < stop) → after address = before address

/-- A packet that changes the staging area. -/
def Modifies (packet : PayloadUpdatePacket) : Prop :=
  packet.type = payloadUpdateErase ∨ packet.type = payloadUpdateContinue

/-- What a packet that was accepted does, and the cells that a read is answered with. -/
def Accepted (packet : PayloadUpdatePacket) (before after : ℕ → UInt8) (payload : List UInt8) :
    Prop :=
  after = packet.apply before ∧
    (packet.type = payloadUpdateRead → payload = load before packet.offset packet.len)

/-- What a packet that was rejected may leave. -/
def Rejected (packet : PayloadUpdatePacket) (before after : ℕ → UInt8) : Prop :=
  SameOutside packet.offset (packet.offset + packet.len) before after ∧
    (¬Modifies packet → after = before)

/-- A device with a staging area. -/
def stagingDevice : Environment HostReply (ℕ → UInt8) := fun before call reply after ↦
  match packetOf call, reply with
  | some packet, .accepted payload _ => Accepted packet before after payload
  | some packet, .failed _ _ => Rejected packet before after
  | none, _ => after = before

/-- A read changes nothing. -/
theorem not_modifies_read (offset len : ℕ) (data : List UInt8) :
    ¬Modifies ⟨offset, len, payloadUpdateRead, data⟩ := by
  have herase : payloadUpdateRead ≠ payloadUpdateErase := by decide
  have hcontinue : payloadUpdateRead ≠ payloadUpdateContinue := by decide
  exact not_or.mpr ⟨herase, hcontinue⟩

theorem apply_read {offset len : ℕ} {data : List UInt8} (flash : ℕ → UInt8) :
    PayloadUpdatePacket.apply ⟨offset, len, payloadUpdateRead, data⟩ flash = flash := by
  obtain ⟨herase, hcontinue⟩ := not_or.mp (not_modifies_read offset len data)
  rw [PayloadUpdatePacket.apply, if_neg herase, if_neg hcontinue]

namespace SameOutside

variable {start stop : ℕ} {before middle after : ℕ → UInt8}

theorem rfl : SameOutside start stop before before :=
  fun _ _ ↦ Eq.refl _

theorem trans (hfirst : SameOutside start stop before middle)
    (hsecond : SameOutside start stop middle after) : SameOutside start stop before after :=
  fun address houtside ↦ (hsecond address houtside).trans (hfirst address houtside)

theorem mono {lower upper : ℕ} (hsame : SameOutside start stop before after)
    (hlower : lower ≤ start)
    (hupper : stop ≤ upper) : SameOutside lower upper before after :=
  fun address houtside ↦ hsame address fun hinside ↦ houtside (by omega)

theorem of_erase (flash : ℕ → UInt8) (offset count : ℕ) :
    SameOutside offset (offset + count) flash (erase flash offset count) :=
  fun _ houtside ↦ if_neg houtside

theorem of_program (flash : ℕ → UInt8) (offset : ℕ) (data : List UInt8) :
    SameOutside offset (offset + data.length) flash (program flash offset data) :=
  fun _ houtside ↦ dif_neg houtside

end SameOutside

section Device

variable {flash : ℕ → UInt8}

/-- A packet is applied, or its range is left in some state. -/
theorem sendPacket_ensures_device {packet : PayloadUpdatePacket} (hoffset : packet.offset < 2 ^ 32)
    (hlen : packet.len < 2 ^ 32) :
    Ensures stagingDevice (sendPacket packet) flash fun err after ↦
      err = hothSuccess ∧ after = packet.apply flash ∨
        err ≠ hothSuccess ∧ Rejected packet flash after := by
  rw [sendPacket, hostcmdExec, ensures_bind, ensures_request]
  intro reply after hreply
  unfold stagingDevice at hreply
  rw [packetOf_call packet 0 0 hoffset hlen] at hreply
  cases reply with
  | failed err nonzero => exact (ensures_done _ _ _).mpr (.inr ⟨nonzero, hreply⟩)
  | accepted payload fits => exact (ensures_done _ _ _).mpr (.inl ⟨rfl, hreply.1⟩)

/-- The device may accept any packet that is not a read. -/
theorem sendPacket_admits {packet : PayloadUpdatePacket} (hoffset : packet.offset < 2 ^ 32)
    (hlen : packet.len < 2 ^ 32) (hother : packet.type ≠ payloadUpdateRead) :
    Admits stagingDevice (sendPacket packet) flash fun err _ ↦ err = hothSuccess := by
  have hstep : stagingDevice flash (packet.call 0 0) (.accepted [] rfl) (packet.apply flash) := by
    unfold stagingDevice
    rw [packetOf_call packet 0 0 hoffset hlen]
    exact ⟨rfl, fun hread ↦ absurd hread hother⟩
  exact (admits_bind _ _ _ _).mpr (admits_request _ hstep (admits_done rfl))

/-- Exchanges without an erase or a program leave the staging area. -/
theorem eq_of_along_unmodified {history : HostHistory} {after : ℕ → UInt8}
    (hunmodified : ∀ packet ∈ packetsOf history, ¬Modifies packet)
    (halong : Along stagingDevice flash history after) : after = flash := by
  induction history generalizing flash with
  | nil => exact halong
  | cons exchange rest ih =>
    obtain ⟨middle, hstep, hrest⟩ := halong
    have hsplit : packetsOf (exchange :: rest) = packetsOf [exchange] ++ packetsOf rest :=
      packetsOf_append [exchange] rest
    rw [hsplit, List.forall_mem_append] at hunmodified
    rw [ih hunmodified.2 hrest]
    obtain ⟨call, reply⟩ := exchange
    have hfirst := hunmodified.1
    unfold stagingDevice at hstep
    cases hpacket : packetOf call with
    | none => simpa only [hpacket] using hstep
    | some packet =>
      have hkept : ¬Modifies packet := hfirst packet (by simp [packetsOf, hpacket])
      simp only [hpacket] at hstep
      cases reply with
      | failed err nonzero => exact hstep.2 hkept
      | accepted payload fits =>
        obtain ⟨herase, hcontinue⟩ := not_or.mp hkept
        rw [hstep.1, PayloadUpdatePacket.apply, if_neg herase, if_neg hcontinue]

end Device

/-! ### Erasing -/

/-- The erase loop erases its range, or stops somewhere in it. -/
theorem eraseLoop_ensures_device (flash : ℕ → UInt8) {offset len : ℕ}
    (haligned : len % kSectorErase = 0) (hfits : offset + len < 2 ^ 32) :
    Ensures stagingDevice (whileDecreasing (fun erased ↦ len - erased) (eraseRound offset len) 0)
      flash fun err after ↦ SameOutside offset (offset + len) flash after ∧
        (err = hothSuccess → after = erase flash offset len) := by
  refine whileDecreasing_ensures
    (fun erased now ↦ erased ≤ len ∧ erased % kSectorErase = 0 ∧ now = erase flash offset erased)
    ?_ 0 flash ⟨Nat.zero_le _, rfl, (erase_zero flash offset).symm⟩
  rintro erased _ ⟨hle, herased, rfl⟩
  rw [eraseRound]
  split_ifs with hmore
  · have hremaining : (len - erased) % kSectorErase = 0 := by
      simp only [kSectorErase] at haligned herased ⊢
      omega
    obtain ⟨hchunk, hbound⟩ := eraseChunkSize_spec (offset + erased) (by omega) hremaining
    have hreached : erased + eraseChunkSize (offset + erased) (len - erased) ≤ len := by omega
    simp only [payloadUpdateEraseChunk, ensures_bind]
    refine (sendPacket_ensures_device ?_ ?_).mono ?_
    · dsimp only
      omega
    · dsimp only
      omega
    · rintro err after (⟨rfl, rfl⟩ | ⟨herr, hsame, -⟩)
      · rw [if_neg (not_not_intro rfl)]
        refine (ensures_done _ _ _).mpr ⟨hreached, ?_, erase_erase_append flash offset _ _⟩
        simp only [kSectorErase] at herased hchunk ⊢
        omega
      · rw [if_pos herr]
        refine (ensures_done _ _ _).mpr ⟨?_, fun hsuccess ↦ absurd hsuccess herr⟩
        refine SameOutside.trans ?_ (hsame.mono ?_ ?_)
        · exact (SameOutside.of_erase flash offset erased).mono le_rfl (by omega)
        · dsimp only
          omega
        · dsimp only
          omega
  · obtain rfl : erased = len := by omega
    exact (ensures_done _ _ _).mpr ⟨.of_erase flash offset erased, fun _ ↦ rfl⟩

/-- An erase that succeeds resets its range, which is one that is not refused, and one that fails
leaves everything else. -/
theorem libhothPayloadUpdateErase_ensures_device (flash : ℕ → UInt8) (offset len : ℕ) :
    Ensures stagingDevice (libhothPayloadUpdateErase offset len) flash fun err after ↦
      SameOutside offset (offset + len) flash after ∧
        (err = hothSuccess → ¬EraseRefused offset len ∧ after = erase flash offset len) := by
  rw [libhothPayloadUpdateErase]
  split_ifs with hempty hoffset hlarge
  · exact (ensures_done _ _ _).mpr ⟨.rfl, fun herr ↦ absurd herr (cmdExecStatus_ne_success _)⟩
  · exact (ensures_done _ _ _).mpr ⟨.rfl, fun herr ↦ absurd herr (cmdExecStatus_ne_success _)⟩
  · exact (ensures_done _ _ _).mpr ⟨.rfl, fun herr ↦ absurd herr (cmdExecStatus_ne_success _)⟩
  · have haccepted : ¬EraseRefused offset len := by
      unfold uint32Max at hlarge
      unfold EraseRefused
      omega
    have hfits : offset + len < 2 ^ 32 := by
      unfold EraseRefused at haccepted
      omega
    obtain ⟨-, haligned⟩ := not_or.mp hempty
    exact (eraseLoop_ensures_device flash (not_not.mp haligned) hfits).mono
      fun err after hloop ↦ ⟨hloop.1, fun herr ↦ ⟨haccepted, hloop.2 herr⟩⟩

/-- An erase that is not refused can succeed. -/
theorem libhothPayloadUpdateErase_admits {offset len : ℕ} (haccepted : ¬EraseRefused offset len)
    (flash : ℕ → UInt8) :
    Admits stagingDevice (libhothPayloadUpdateErase offset len) flash fun err _ ↦
      err = hothSuccess := by
  rw [libhothPayloadUpdateErase_of_accepted haccepted]
  refine whileDecreasing_admits (fun _ _ ↦ True) (fun erased now _ ↦ ?_) 0 flash trivial
  rw [eraseRound]
  split_ifs with hmore
  · have hoffset : offset + erased < 2 ^ 32 := by
      unfold EraseRefused at haccepted
      omega
    have hchunk : eraseChunkSize (offset + erased) (len - erased) < 2 ^ 32 := by
      unfold eraseChunkSize kBlockErase kSectorErase
      split_ifs <;> omega
    refine (admits_bind _ _ _ _).mpr ((sendPacket_admits hoffset hchunk ?_).mono ?_)
    · exact show payloadUpdateErase ≠ payloadUpdateRead by decide
    · rintro _ after rfl
      exact admits_done trivial
  · exact admits_done rfl

/-! ### Updating -/

/-- The size of the sectors of an image. -/
def stagedSize (image : List UInt8) : ℕ :=
  (image.length + 4095) / 4096 * 4096

/-- The staging area that an image is sent to: its sectors are erased, unless that is skipped. -/
def readied (image : List UInt8) (skipErase : Bool) (original : ℕ → UInt8) : ℕ → UInt8 :=
  if skipErase then original else erase original 0 (stagedSize image)

/-- What an update is to leave. -/
def updated (image : List UInt8) (skipErase : Bool) (original : ℕ → UInt8) : ℕ → UInt8 :=
  program (readied image skipErase original) 0 image

/-- Where the range of an update stops. -/
def updateStop (image : List UInt8) (skipErase : Bool) : ℕ :=
  if skipErase then image.length else stagedSize image

/-- The images that the erase phase accepts: not empty, below 4 GiB with the rest of the last
sector, and made of sectors unless they are binary files. -/
def SizeAccepted (image : List UInt8) (binaryFile : Bool) : Prop :=
  0 < image.length ∧ stagedSize image < 2 ^ 32 ∧
    (binaryFile = true ∨ image.length % kSectorErase = 0)

section Staging

variable {image : List UInt8} {binaryFile : Bool}

theorem length_le_stagedSize (image : List UInt8) : image.length ≤ stagedSize image := by
  unfold stagedSize
  omega

theorem length_le_updateStop (image : List UInt8) (skipErase : Bool) :
    image.length ≤ updateStop image skipErase := by
  have hsectors := length_le_stagedSize image
  unfold updateStop
  split_ifs <;> omega

/-- An update that erases leaves the image, erased bytes behind it in its last sector, and the old
contents behind that. -/
theorem updated_of_erase (image : List UInt8) (original : ℕ → UInt8) :
    updated image false original = stagedImage image original := by
  have hsectors := length_le_stagedSize image
  funext address
  rw [updated, readied, if_neg Bool.false_ne_true, stagedImage]
  split_ifs with himage hsector
  · exact program_erase_of_mem original (by omega) (Nat.zero_le _) (by omega)
  · refine (SameOutside.of_program _ 0 image address (by omega)).trans (if_pos ?_)
    unfold stagedSize
    omega
  · refine (SameOutside.of_program _ 0 image address (by omega)).trans (if_neg ?_)
    unfold stagedSize
    omega

theorem sameOutside_readied (image : List UInt8) (skipErase : Bool) (original : ℕ → UInt8) :
    SameOutside 0 (updateStop image skipErase) original (readied image skipErase original) := by
  cases skipErase with
  | true => exact .rfl
  | false => exact (SameOutside.of_erase original 0 _).mono le_rfl (Nat.zero_add _).le

theorem sameOutside_updated (image : List UInt8) (skipErase : Bool) (original : ℕ → UInt8) :
    SameOutside 0 (updateStop image skipErase) original (updated image skipErase original) := by
  have hstop := length_le_updateStop image skipErase
  refine (sameOutside_readied image skipErase original).trans ?_
  exact (SameOutside.of_program _ 0 image).mono le_rfl (by omega)

/-- The size that an accepted image is erased with is that of its sectors. -/
theorem payloadEraseSize_of_accepted (haccepted : SizeAccepted image binaryFile) :
    payloadEraseSize image.length binaryFile = some (stagedSize image) := by
  obtain ⟨hsome, hfits, hsectors⟩ := haccepted
  unfold stagedSize at hfits ⊢
  unfold payloadEraseSize uint32Max
  by_cases hmade : image.length % kSectorErase = 0
  · rw [if_neg fun hpad ↦ hpad.2 hmade]
    unfold kSectorErase at hmade
    rw [if_neg (by omega)]
    exact congrArg some (by omega)
  · rw [if_pos ⟨hsectors.resolve_right hmade, hmade⟩]
    unfold kSectorErase at hmade ⊢
    rw [if_neg (by omega), if_neg (by omega)]
    exact congrArg some (by omega)

theorem erasePayloadArea_of_accepted (haccepted : SizeAccepted image binaryFile) :
    erasePayloadArea image.length false binaryFile =
      libhothPayloadUpdateErase 0 (stagedSize image) := by
  rw [erasePayloadArea, if_neg Bool.false_ne_true, payloadEraseSize_of_accepted haccepted]

theorem erasePayloadArea_of_refused (hrefused : ¬SizeAccepted image binaryFile) :
    ∃ err, erasePayloadArea image.length false binaryFile = pure err ∧ err ≠ hothSuccess := by
  rw [erasePayloadArea, if_neg Bool.false_ne_true]
  cases hsize : payloadEraseSize image.length binaryFile with
  | none => exact ⟨_, rfl, cmdExecStatus_ne_success _⟩
  | some size =>
    refine libhothPayloadUpdateErase_of_refused (by decide) (not_not.mp fun haccepted ↦ hrefused ?_)
    unfold EraseRefused at haccepted
    obtain ⟨hsectors, hfits⟩ := payloadEraseSize_eq hsize (by omega)
    have hstaged : stagedSize image < 2 ^ 32 := hsectors.symm.trans_lt hfits
    refine ⟨by omega, hstaged, or_iff_not_imp_left.mpr fun hother ↦ ?_⟩
    rw [payloadEraseSize, if_neg fun hpad ↦ hother hpad.1] at hsize
    split_ifs at hsize with hlarge
    obtain rfl := Option.some.inj hsize
    omega

theorem not_eraseRefused_stagedSize (haccepted : SizeAccepted image binaryFile) :
    ¬EraseRefused 0 (stagedSize image) := by
  obtain ⟨hsome, hfits, -⟩ := haccepted
  unfold EraseRefused kSectorErase
  unfold stagedSize at hfits ⊢
  omega

end Staging

section Update

variable {original now : ℕ → UInt8} {image : List UInt8}

/-- The erase phase readies the sectors of the image. -/
theorem erasePayloadArea_ensures_device (image : List UInt8) (skipErase binaryFile : Bool)
    (original : ℕ → UInt8) :
    Ensures stagingDevice (erasePayloadArea image.length skipErase binaryFile) original
      fun err after ↦ SameOutside 0 (updateStop image skipErase) original after ∧
        (err = hothSuccess → (skipErase = false → SizeAccepted image binaryFile) ∧
          after = readied image skipErase original) := by
  cases skipErase with
  | true =>
    exact (ensures_done _ _ _).mpr
      ⟨.rfl, fun _ ↦ ⟨fun hskip ↦ absurd hskip.symm Bool.false_ne_true, rfl⟩⟩
  | false =>
    by_cases haccepted : SizeAccepted image binaryFile
    · rw [erasePayloadArea_of_accepted haccepted]
      refine (libhothPayloadUpdateErase_ensures_device original 0 _).mono ?_
      rintro err after ⟨hsame, herased⟩
      rw [Nat.zero_add] at hsame
      exact ⟨hsame, fun herr ↦ ⟨fun _ ↦ haccepted, (herased herr).2⟩⟩
    · obtain ⟨err, hprogram, herr⟩ := erasePayloadArea_of_refused haccepted
      rw [hprogram]
      exact (ensures_done _ _ _).mpr ⟨.rfl, fun hsuccess ↦ absurd hsuccess herr⟩

/-- The bytes up to an offset and those of a chunk behind it. -/
theorem program_take_slice (flash : ℕ → UInt8) {offset : ℕ} (count : ℕ)
    (hinside : offset ≤ image.length) :
    program (program flash 0 (image.take offset)) offset (slice image offset count) =
      program flash 0 (image.take (offset + count)) := by
  have hlength : (image.take offset).length = offset := List.length_take_of_le hinside
  have happend := program_program_append flash 0 (image.take offset) (slice image offset count)
  rw [Nat.zero_add, hlength] at happend
  rw [happend, slice, List.take_add]

/-- The loop that sends the image programs it from the start of the staging area on, or stops inside
it. -/
theorem sendPayload_ensures_device (flash : ℕ → UInt8) (hfits : image.length < 2 ^ 32) :
    Ensures stagingDevice (sendPayload image) flash fun err after ↦
      SameOutside 0 image.length flash after ∧
        (err = hothSuccess → after = program flash 0 image) := by
  refine whileDecreasing_ensures (fun offset later ↦ offset ≤ image.length ∧
    later = program flash 0 (image.take offset)) ?_ 0 flash
    ⟨Nat.zero_le _, (program_nil flash 0).symm⟩
  rintro offset _ ⟨hle, rfl⟩
  have hsofar : SameOutside 0 image.length flash (program flash 0 (image.take offset)) :=
    (SameOutside.of_program flash 0 _).mono le_rfl (by rw [List.length_take]; omega)
  rw [sendPayloadRound]
  split_ifs with hmore hskip
  · -- the byte is erased flash already
    have hone : slice image offset 1 = [0xFF] := by
      rw [slice, List.drop_eq_getElem_cons hmore, hskip]
      rfl
    refine (ensures_done _ _ _).mpr ⟨hmore, ?_⟩
    rw [← program_take_slice flash 1 hle, hone, program_erased_byte]
  · obtain ⟨htrim, -, hkept⟩ := trimChunk_spec image offset
      (min PayloadUpdate.maxChunkSize (image.length - offset)) (by omega)
    have hroom : 0 < PayloadUpdate.maxChunkSize := by decide
    have hpos : 0 < trimChunk image offset
        (min PayloadUpdate.maxChunkSize (image.length - offset)) (by omega) := by
      refine hkept 0 (by omega) ?_
      rw [Nat.add_zero, List.getElem?_eq_getElem hmore]
      exact fun hbyte ↦ hskip (Option.some.inj hbyte)
    simp only [Nat.pos_iff_ne_zero.mp hpos, if_false, ensures_bind]
    refine (sendPacket_ensures_device ?_ ?_).mono ?_
    · dsimp only
      omega
    · dsimp only
      omega
    · rintro err after (⟨rfl, rfl⟩ | ⟨herr, hsame, -⟩)
      · have hnumber : ∀ chunkSize, 0 < chunkSize →
            offset + (chunkSize - 1) + 1 = offset + chunkSize :=
          fun chunkSize hpositive ↦ by omega
        rw [if_neg (not_not_intro rfl)]
        refine (ensures_done _ _ _).mpr ?_
        simp only [hnumber _ hpos]
        exact ⟨by omega, program_take_slice flash _ hle⟩
      · rw [if_pos herr]
        refine (ensures_done _ _ _).mpr ⟨hsofar.trans (hsame.mono (Nat.zero_le _) ?_),
          fun hsuccess ↦ absurd hsuccess herr⟩
        dsimp only
        omega
  · obtain rfl : offset = image.length := by omega
    rw [List.take_length] at hsofar ⊢
    exact (ensures_done _ _ _).mpr ⟨hsofar, fun _ ↦ rfl⟩

/-- The loop that sends the image can succeed. -/
theorem sendPayload_admits (flash : ℕ → UInt8) (hfits : image.length < 2 ^ 32) :
    Admits stagingDevice (sendPayload image) flash fun err _ ↦ err = hothSuccess := by
  refine whileDecreasing_admits (fun _ _ ↦ True) (fun offset now _ ↦ ?_) 0 flash trivial
  rw [sendPayloadRound]
  split_ifs with hmore hskip
  · exact admits_done trivial
  · obtain ⟨htrim, -, -⟩ := trimChunk_spec image offset
      (min PayloadUpdate.maxChunkSize (image.length - offset)) (by omega)
    dsimp only
    split_ifs with hnone
    · exact admits_done trivial
    · refine (admits_bind _ _ _ _).mpr ((sendPacket_admits ?_ ?_ ?_).mono ?_)
      · exact hmore.trans hfits
      · dsimp only
        omega
      · exact show payloadUpdateContinue ≠ payloadUpdateRead by decide
      · rintro _ after rfl
        exact admits_done trivial
  · exact admits_done rfl

/-- The finalize phase leaves the staging area. -/
theorem finalizePayload_ensures_device (binaryFile : Bool) :
    Ensures stagingDevice (finalizePayload binaryFile) now fun _ after ↦ after = now := by
  intro err after hrun
  obtain ⟨history, -, ⟨tail, rfl, htail, -⟩, halong⟩ :=
    exists_along_of_ensures (finalizePayload_ensures binaryFile []) hrun
  refine eq_of_along_unmodified (fun packet hmem hmodifies ↦ ?_) halong
  have htype := htail packet hmem
  unfold Modifies at hmodifies
  rw [htype] at hmodifies
  exact absurd hmodifies (by decide)

/-- The finalize phase can succeed. -/
theorem finalizePayload_admits (binaryFile : Bool) :
    Admits stagingDevice (finalizePayload binaryFile) now fun err _ ↦ err = hothSuccess := by
  cases binaryFile with
  | true => exact admits_done rfl
  | false =>
    have hother : packetOf (commandVersionsCall payloadUpdateCommand) = none :=
      packetOf_eq_none (by decide)
    have hversions : stagingDevice now (commandVersionsCall payloadUpdateCommand)
        (.accepted [0, 0, 0, 0] rfl) now := by
      unfold stagingDevice
      rw [hother]
    have hsend : Admits stagingDevice (sendPayloadUpdateRequestWithCommand payloadUpdateFinalize)
        now fun err _ ↦ err = hothSuccess :=
      sendPacket_admits (by decide) (by decide) (by decide)
    refine (admits_bind _ _ _ _).mpr ((admits_bind _ _ _ _).mpr ?_)
    refine (admits_bind _ _ _ _).mpr ((admits_bind _ _ _ _).mpr ?_)
    refine admits_request _ hversions (admits_done (admits_done ?_))
    refine (admits_bind _ _ _ _).mpr (hsend.mono ?_)
    rintro _ after rfl
    exact admits_done (admits_done rfl)

/-- The updates that the library begins: a binary file or an image with a descriptor, and of a size
that the erase phase accepts. -/
def UpdateAccepted (image : List UInt8) (skipErase binaryFile : Bool) : Prop :=
  payloadAccepted image binaryFile = .ok true ∧
    (skipErase = false → SizeAccepted image binaryFile)

/-- An update that succeeds leaves the image, and one that fails changes nothing outside its
range. -/
theorem libhothPayloadUpdate_ensures_device (image : List UInt8) (skipErase binaryFile : Bool)
    (hskipped : skipErase = true → image.length < 2 ^ 32) (original : ℕ → UInt8) :
    Ensures stagingDevice (libhothPayloadUpdate image skipErase binaryFile) original
      fun result after ↦ ∃ err, result = .ok err ∧
        SameOutside 0 (updateStop image skipErase) original after ∧
          (err = hothSuccess → UpdateAccepted image skipErase binaryFile ∧
            after = updated image skipErase original) := by
  obtain ⟨accepted, haccepted⟩ := payloadAccepted_isOk image binaryFile
  rw [libhothPayloadUpdate, haccepted]
  cases accepted with
  | false =>
    exact (ensures_done _ _ _).mpr
      ⟨_, rfl, .rfl, fun herr ↦ absurd herr (cmdExecStatus_ne_success _)⟩
  | true =>
    refine (ensures_bind _ _ _ _).mpr (Ensures.mono ?_ fun err after hafter ↦
      (ensures_done _ _ _).mpr ⟨err, rfl, hafter⟩)
    rw [stagePayload, ensures_bind]
    refine (erasePayloadArea_ensures_device image skipErase binaryFile original).mono ?_
    rintro err erased ⟨hsame, hready⟩
    split_ifs with herr
    · exact (ensures_done _ _ _).mpr ⟨hsame, fun hsuccess ↦ absurd hsuccess herr⟩
    obtain ⟨hsize, rfl⟩ := hready (not_not.mp herr)
    have hfits : image.length < 2 ^ 32 := by
      cases skipErase with
      | true => exact hskipped rfl
      | false => exact (length_le_stagedSize image).trans_lt (hsize rfl).2.1
    have hstop := length_le_updateStop image skipErase
    refine (ensures_bind _ _ _ _).mpr ((sendPayload_ensures_device _ hfits).mono ?_)
    rintro ret sent ⟨hsent, hwhole⟩
    have hsent := hsame.trans (hsent.mono le_rfl hstop)
    split_ifs with hret
    · exact (ensures_done _ _ _).mpr ⟨hsent, fun hsuccess ↦ absurd hsuccess hret⟩
    · refine (finalizePayload_ensures_device binaryFile).mono ?_
      rintro _ _ rfl
      exact ⟨hsent, fun _ ↦ ⟨⟨haccepted, hsize⟩, hwhole (not_not.mp hret)⟩⟩

/-- An update that the library begins can succeed. -/
theorem libhothPayloadUpdate_admits {skipErase binaryFile : Bool}
    (haccepted : UpdateAccepted image skipErase binaryFile)
    (hskipped : skipErase = true → image.length < 2 ^ 32) (original : ℕ → UInt8) :
    Admits stagingDevice (libhothPayloadUpdate image skipErase binaryFile) original
      fun result _ ↦ result = .ok hothSuccess := by
  obtain ⟨hbegun, hsize⟩ := haccepted
  have herase : Admits stagingDevice (erasePayloadArea image.length skipErase binaryFile) original
      fun err _ ↦ err = hothSuccess := by
    cases skipErase with
    | true => exact admits_done rfl
    | false =>
      rw [erasePayloadArea_of_accepted (hsize rfl)]
      exact libhothPayloadUpdateErase_admits (not_eraseRefused_stagedSize (hsize rfl)) original
  have hfits : image.length < 2 ^ 32 := by
    cases skipErase with
    | true => exact hskipped rfl
    | false => exact (length_le_stagedSize image).trans_lt (hsize rfl).2.1
  rw [libhothPayloadUpdate, hbegun]
  refine (admits_bind _ _ _ _).mpr ((admits_bind _ _ _ _).mpr (herase.mono ?_))
  rintro _ erased rfl
  refine (admits_bind _ _ _ _).mpr ((sendPayload_admits erased hfits).mono ?_)
  rintro _ sent rfl
  refine (finalizePayload_admits binaryFile).mono ?_
  rintro _ final rfl
  exact admits_done rfl

end Update

/-! ### The store -/

/-- The staging area behind the device and the files of the process. -/
structure StagingWorld where
  staging : ℕ → UInt8
  files : ℕ → List UInt8

/-- Bytes at the end of a file. -/
def StagingWorld.append (world : StagingWorld) (fd : ℕ) (bytes : List UInt8) : StagingWorld :=
  { world with files := Function.update world.files fd (world.files fd ++ bytes) }

/-- The world of the reads. Any part of a buffer may be written. -/
def stagingWorld : Environment ReadReply StagingWorld := fun before call reply after ↦
  match call, reply with
  | .console (.hostcmdExec call), reply =>
    ∃ staging, stagingDevice before.staging call reply staging ∧
      after = { before with staging := staging }
  | .console (.write fd buf), .wrote bytesWritten _ _ =>
    after = before.append fd (buf.take bytesWritten)
  | _, _ => after = before

/-- The cells of a range as a read gets them: chunk by chunk, each from its offset in 32 bits on. -/
def readCells (staging : ℕ → UInt8) (start length : ℕ) : List UInt8 :=
  (List.range length).map fun index ↦
    staging ((start + PayloadUpdateRead.maxChunkSize * (index / PayloadUpdateRead.maxChunkSize)) %
      2 ^ 32 + index % PayloadUpdateRead.maxChunkSize)

@[simp] theorem readCells_zero (staging : ℕ → UInt8) (start : ℕ) : readCells staging start 0 = [] :=
  rfl

/-- One more chunk behind whole ones. -/
theorem readCells_add (staging : ℕ → UInt8) (start : ℕ) {done count : ℕ}
    (hdone : done % PayloadUpdateRead.maxChunkSize = 0)
    (hcount : count ≤ PayloadUpdateRead.maxChunkSize) :
    readCells staging start (done + count) =
      readCells staging start done ++ load staging ((start + done) % 2 ^ 32) count := by
  rw [readCells, readCells, load, List.range_add, List.map_append, List.map_map]
  refine congrArg _ (List.map_congr_left fun index hindex ↦ ?_)
  have hinside := List.mem_range.mp hindex
  rw [show PayloadUpdateRead.maxChunkSize = 1016 from rfl] at hdone hcount
  simp only [Function.comp_apply, show PayloadUpdateRead.maxChunkSize = 1016 from rfl]
  rw [show 1016 * ((done + index) / 1016) = done by omega,
    show (done + index) % 1016 = index by omega]

/-- A range whose last chunk begins below 2^32 is read as it is. -/
theorem readCells_of_below (staging : ℕ → UInt8) {start length : ℕ}
    (hbelow : LastChunkBelow start length) :
    readCells staging start length = load staging start length := by
  refine List.map_congr_left fun index hindex ↦ congrArg staging ?_
  have hinside := List.mem_range.mp hindex
  rw [LastChunkBelow] at hbelow
  rw [show PayloadUpdateRead.maxChunkSize = 1016 from rfl] at hbelow ⊢
  omega

/-- An operation on the staging area. An image that is sent without an erase is below 4 GiB. -/
inductive StagingOp
  | erase (offset len : UInt32)
  | update (image : List UInt8) (skipErase binaryFile : Bool)
    (fits : skipErase = true → image.length < 2 ^ 32)
  | read (fd : ℕ) (start length : UInt64)

/-- A program of host commands in the world of the reads. -/
def onDevice {α : Type} (program : HostProgram α) : ReadProgram α :=
  interpret (fun call ↦ request (ReadCall.console (.hostcmdExec call))) program

namespace StagingOp

/-- The call of the library that an operation is. -/
def program : StagingOp → ReadProgram (Except Fault LibhothError)
  | .erase offset len => do
    let err ← onDevice (libhothPayloadUpdateErase offset.toNat len.toNat)
    return .ok err
  | .update image skipErase binaryFile _ =>
    onDevice (libhothPayloadUpdate image skipErase binaryFile)
  | .read fd start length => do
    let err ← libhothPayloadUpdateReadChunk fd length.toNat start.toNat
    return .ok err

/-- The operations that the library does not refuse at once. -/
def Accepted : StagingOp → Prop
  | .erase offset len => ¬EraseRefused offset.toNat len.toNat
  | .update image skipErase binaryFile _ => UpdateAccepted image skipErase binaryFile
  | .read _ _ _ => True

/-- What an operation is for. -/
def apply : StagingOp → StagingWorld → StagingWorld
  | .erase offset len, world =>
    { world with staging := Foundation.NorFlash.erase world.staging offset.toNat len.toNat }
  | .update image skipErase _ _, world =>
    { world with staging := updated image skipErase world.staging }
  | .read fd start length, world =>
    world.append fd (readCells world.staging start.toNat length.toNat)

/-- The range that an operation may change. -/
def start : StagingOp → ℕ
  | .erase offset _ => offset.toNat
  | _ => 0

/-- Where that range stops. -/
def stop : StagingOp → ℕ
  | .erase offset len => offset.toNat + len.toNat
  | .update image skipErase _ _ => updateStop image skipErase
  | .read _ _ _ => 0

/-- The file that an operation appends to. -/
def file : StagingOp → Option ℕ
  | .read fd _ _ => some fd
  | _ => none

/-- What an operation may leave when it fails: its range in any state, and a part of what was to be
read. -/
def Fails : StagingOp → StagingWorld → StagingWorld → Prop
  | .read fd start length, before, after =>
    ∃ part, part <+: readCells before.staging start.toNat length.toNat ∧
      after = before.append fd part
  | op, before, after =>
    after.files = before.files ∧ SameOutside op.start op.stop before.staging after.staging

/-- How an operation may end. -/
def Ends (op : StagingOp) (result : Except Fault LibhothError) (before after : StagingWorld) :
    Prop :=
  ∃ err, result = .ok err ∧ if err = hothSuccess then op.Accepted ∧ after = op.apply before
    else op.Fails before after

end StagingOp

@[simp] theorem StagingWorld.append_nil (world : StagingWorld) (fd : ℕ) :
    world.append fd [] = world := by
  rw [append, List.append_nil, Function.update_eq_self]

@[simp] theorem StagingWorld.append_append (world : StagingWorld) (fd : ℕ)
    (first second : List UInt8) :
    (world.append fd first).append fd second = world.append fd (first ++ second) := by
  simp [append]

theorem StagingWorld.files_prefix_append (world : StagingWorld) (fd other : ℕ)
    (bytes : List UInt8) : world.files other <+: (world.append fd bytes).files other := by
  change _ <+: Function.update world.files fd (world.files fd ++ bytes) other
  by_cases hfd : other = fd
  · subst hfd
    rw [Function.update_self]
    exact List.prefix_append _ _
  · exact ⟨[], (List.append_nil _).trans (Function.update_of_ne hfd _ _).symm⟩

section World

variable {world : StagingWorld}

/-- Host commands act on the staging area alone. -/
theorem runs_onDevice_iff {α : Type} (program : HostProgram α) (result : α) (final : StagingWorld) :
    Runs stagingWorld (onDevice program) world result final ↔
      ∃ staging, Runs stagingDevice program world.staging result staging ∧
        final = { world with staging := staging } :=
  runs_interpret_part (fun call ↦ ReadCall.console (.hostcmdExec call)) stagingWorld stagingDevice
    StagingWorld.staging (fun world staging ↦ { world with staging := staging }) (fun _ ↦ rfl)
    (fun _ _ ↦ rfl) (fun _ _ _ ↦ rfl) (fun _ _ _ _ ↦ Iff.rfl) program world final result

theorem onDevice_ensures {α : Type} {program : HostProgram α} {post : α → (ℕ → UInt8) → Prop}
    (hensures : Ensures stagingDevice program world.staging post) :
    Ensures stagingWorld (onDevice program) world fun result final ↦
      ∃ staging, final = { world with staging := staging } ∧ post result staging := by
  intro result final hrun
  obtain ⟨staging, hstaging, rfl⟩ := (runs_onDevice_iff _ _ _).mp hrun
  exact ⟨staging, rfl, hensures result staging hstaging⟩

theorem onDevice_admits {α : Type} {program : HostProgram α} {post : α → Prop}
    (hadmits : Admits stagingDevice program world.staging fun result _ ↦ post result) :
    Admits stagingWorld (onDevice program) world fun result _ ↦ post result := by
  obtain ⟨result, staging, hrun, hpost⟩ := hadmits
  exact ⟨result, _, (runs_onDevice_iff _ _ _).mpr ⟨staging, hrun, rfl⟩, hpost⟩

/-- A buffer is written to a file, whole if that succeeds. -/
theorem libhothForceWrite_ensures_world (fd : ℕ) (buf : List UInt8) :
    Ensures stagingWorld (PayloadUpdateRead.onConsole (libhothForceWrite fd buf)) world
      fun errno final ↦ ∃ part, part <+: buf ∧ final = world.append fd part ∧
        (errno = 0 → part = buf) := by
  intro errno final hrun
  have hconsole := (runs_interpret_rename ReadCall.console stagingWorld _ world final errno).mp hrun
  rw [← world.append_nil fd] at hconsole
  refine libhothForceWrite_appends (world.append fd) ?_ ?_ errno final hconsole
  · rintro done rest count progress fits _ - rfl
    exact world.append_append fd done _
  · rintro done rest errno nonzero _ - rfl
    rfl

/-- A buffer can be written whole. -/
theorem libhothForceWrite_admits_world (fd : ℕ) (buf : List UInt8) :
    Admits stagingWorld (PayloadUpdateRead.onConsole (libhothForceWrite fd buf)) world
      fun errno _ ↦ errno = 0 := by
  have hconsole : Admits (fun before call reply after ↦
      stagingWorld before (ReadCall.console call) reply after) (libhothForceWrite fd buf) world
        fun errno _ ↦ errno = 0 := by
    refine whileDecreasing_admits (fun _ _ ↦ True) (fun rest now _ ↦ ?_) buf world trivial
    rw [forceWriteRound]
    split_ifs with hmore
    · exact (admits_bind _ _ _ _).mpr
        (admits_request (.wrote rest.length hmore le_rfl) rfl (admits_done trivial))
    · exact admits_done rfl
  obtain ⟨errno, final, hrun, hzero⟩ := hconsole
  exact ⟨errno, final, (runs_interpret_rename _ _ _ _ _ _).mpr hrun, hzero⟩

/-- The packet of a chunk has its offset in 32 bits. -/
theorem packetOf_readPacket (offset len : ℕ) :
    packetOf ((readPacket offset (chunkSizeOf len)).call 0 (chunkSizeOf len)) =
      some ⟨offset % 2 ^ 32, chunkSizeOf len, payloadUpdateRead, []⟩ := by
  have hsize := chunkSizeOf_eq len
  exact packetOf_call _ _ _ (Nat.mod_lt _ (by decide)) (by dsimp only [readPacket]; omega)

/-- A read part way through: the cells so far are at the end of the file. -/
structure ReadSoFar (world : StagingWorld) (fd start length : ℕ) (state : ReadState)
    (now : StagingWorld) : Prop where
  above : start ≤ state.offset
  position : state.offset + state.len = start + length
  aligned : 0 < state.len → (state.offset - start) % PayloadUpdateRead.maxChunkSize = 0
  world : now = world.append fd (readCells world.staging start (state.offset - start))

/-- A read that ended: a part of the cells is at the end of the file, all of them after success. -/
def ReadEnded (world : StagingWorld) (fd start length : ℕ) (err : LibhothError)
    (final : StagingWorld) : Prop :=
  ∃ part, part <+: readCells world.staging start length ∧ final = world.append fd part ∧
    (err = hothSuccess → part = readCells world.staging start length)

variable {fd start length : ℕ} {state : ReadState} {now : StagingWorld}

/-- Cells of the beginning of a range begin its cells. -/
theorem readCells_prefix (staging : ℕ → UInt8) (start : ℕ) {first whole : ℕ}
    (hle : first ≤ whole) : readCells staging start first <+: readCells staging start whole := by
  have hrange : List.range first <+: List.range whole := by
    rw [← Nat.add_sub_cancel' hle, List.range_add]
    exact List.prefix_append _ _
  exact hrange.map _

/-- What was read with the next chunk, and a part of that. -/
theorem ReadSoFar.readCells_next (hsofar : ReadSoFar world fd start length state now)
    (hmore : state.len > 0) (staging : ℕ → UInt8) :
    readCells staging start (state.offset + chunkSizeOf state.len - start) =
      readCells staging start (state.offset - start) ++
        load staging (state.offset % 2 ^ 32) (chunkSizeOf state.len) := by
  have habove := hsofar.above
  have hsize := chunkSizeOf_eq state.len
  rw [show state.offset + chunkSizeOf state.len - start =
    state.offset - start + chunkSizeOf state.len by omega,
    readCells_add staging start (hsofar.aligned hmore)
      (hsize.trans_le (Nat.min_le_right _ _)), Nat.add_sub_cancel' habove]

/-- One round appends the next chunk of the range, or a part of it at the end. -/
theorem readRound_ensures_world (hsofar : ReadSoFar world fd start length state now) :
    Ensures stagingWorld (readRound fd state) now fun outcome final ↦
      match outcome with
      | .inl next => ReadSoFar world fd start length next.val final
      | .inr err => ReadEnded world fd start length err final := by
  have hnext := hsofar.readCells_next
  obtain ⟨above, position, aligned, rfl⟩ := hsofar
  rw [readRound]
  split_ifs with hmore
  · have hsize := chunkSizeOf_eq state.len
    have hnext := hnext hmore world.staging
    have hwhole : readCells world.staging start (state.offset + chunkSizeOf state.len - start) <+:
        readCells world.staging start length := readCells_prefix _ _ (by omega)
    refine (ensures_bind _ _ _ _).mpr ((ensures_request _ _ _).mpr ?_)
    rintro reply _ ⟨staging, hreply, rfl⟩
    unfold stagingDevice at hreply
    simp only [packetOf_readPacket] at hreply
    cases reply with
    | failed err nonzero =>
      obtain rfl := hreply.2 (not_modifies_read _ _ _)
      refine (ensures_done _ _ _).mpr ⟨_, ?_, rfl, fun hsuccess ↦ absurd hsuccess nonzero⟩
      exact readCells_prefix _ _ (by omega)
    | accepted buffer fits =>
      obtain ⟨hkept, hbuffer⟩ := hreply
      obtain rfl : staging = world.staging := hkept.trans (apply_read _)
      obtain rfl : buffer = load world.staging (state.offset % 2 ^ 32) (chunkSizeOf state.len) :=
        hbuffer rfl
      refine (ensures_bind _ _ _ _).mpr ((libhothForceWrite_ensures_world fd _).mono ?_)
      rintro errno after ⟨part, hpart, hafter, hall⟩
      obtain rfl : after = world.append fd
          (readCells world.staging start (state.offset - start) ++ part) :=
        hafter.trans (world.append_append fd _ part)
      split_ifs with herrno
      · refine (ensures_bind _ _ _ _).mpr ((ensures_request _ _ _).mpr ?_)
        rintro _ _ rfl
        refine (ensures_done _ _ _).mpr ⟨_, ?_, rfl, fun hsuccess ↦ ?_⟩
        · refine List.IsPrefix.trans ?_ hwhole
          rw [hnext]
          exact List.prefix_append_right_inj _ |>.mpr hpart
        · exact absurd hsuccess (cmdExecError_ne_success _ _)
      · obtain rfl := hall (not_not.mp herrno)
        refine (ensures_done _ _ _).mpr ⟨?_, ?_, fun hlater ↦ ?_, ?_⟩
        · exact above.trans (Nat.le_add_right _ _)
        · dsimp only
          omega
        · have hchunk := aligned hmore
          rw [show PayloadUpdateRead.maxChunkSize = 1016 from rfl] at hchunk ⊢
          dsimp only at hlater ⊢
          omega
        · exact congrArg _ hnext.symm
  · have hlength : state.offset - start = length := by omega
    rw [hlength]
    exact (ensures_done _ _ _).mpr ⟨_, List.prefix_rfl, rfl, fun _ ↦ rfl⟩

/-- A read appends the cells of its range, or a part of them. -/
theorem libhothPayloadUpdateReadChunk_ensures_world (fd start length : ℕ) :
    Ensures stagingWorld (libhothPayloadUpdateReadChunk fd length start) world
      (ReadEnded world fd start length) := by
  refine whileDecreasing_ensures (ReadSoFar world fd start length) (fun state now hsofar ↦ ?_) _ _
    ⟨le_rfl, rfl, fun _ ↦ ?_, ?_⟩
  · refine (readRound_ensures_world hsofar).mono fun outcome final houtcome ↦ ?_
    cases outcome <;> exact houtcome
  · rw [Nat.sub_self, Nat.zero_mod]
  · rw [Nat.sub_self, readCells_zero, StagingWorld.append_nil]

/-- Every range can be read. -/
theorem libhothPayloadUpdateReadChunk_admits_world (fd start length : ℕ) :
    Admits stagingWorld (libhothPayloadUpdateReadChunk fd length start) world
      fun err _ ↦ err = hothSuccess := by
  refine whileDecreasing_admits (fun _ _ ↦ True) (fun state now _ ↦ ?_) _ world trivial
  rw [readRound]
  split_ifs with hmore
  · have hdevice : stagingDevice now.staging
        ((readPacket state.offset (chunkSizeOf state.len)).call 0 (chunkSizeOf state.len))
        (.accepted (load now.staging (state.offset % 2 ^ 32) (chunkSizeOf state.len))
          (length_load _ _ _)) now.staging := by
      unfold stagingDevice
      simp only [packetOf_readPacket]
      exact ⟨(apply_read _).symm, fun _ ↦ rfl⟩
    refine (admits_bind _ _ _ _).mpr (admits_request _ ⟨_, hdevice, rfl⟩ ?_)
    refine (admits_bind _ _ _ _).mpr ((libhothForceWrite_admits_world fd _).mono ?_)
    rintro _ after rfl
    exact admits_done trivial
  · exact admits_done rfl

end World

/-- Each operation ends in its effect, or leaves what a failure of it may leave. -/
theorem StagingOp.program_ensures (op : StagingOp) (world : StagingWorld) :
    Ensures stagingWorld op.program world fun result final ↦ op.Ends result world final := by
  cases op with
  | erase offset len =>
    rw [StagingOp.program, ensures_bind]
    refine (onDevice_ensures (libhothPayloadUpdateErase_ensures_device world.staging _ _)).mono ?_
    rintro err _ ⟨staging, rfl, hsame, herased⟩
    refine (ensures_done _ _ _).mpr ⟨err, rfl, ?_⟩
    split_ifs with herr
    · obtain ⟨haccepted, rfl⟩ := herased herr
      exact ⟨haccepted, rfl⟩
    · exact ⟨rfl, hsame⟩
  | update image skipErase binaryFile fits =>
    refine (onDevice_ensures
      (libhothPayloadUpdate_ensures_device image skipErase binaryFile fits world.staging)).mono ?_
    rintro _ _ ⟨staging, rfl, err, rfl, hsame, hstaged⟩
    refine ⟨err, rfl, ?_⟩
    split_ifs with herr
    · obtain ⟨haccepted, rfl⟩ := hstaged herr
      exact ⟨haccepted, rfl⟩
    · exact ⟨rfl, hsame⟩
  | read fd start length =>
    rw [StagingOp.program, ensures_bind]
    refine (libhothPayloadUpdateReadChunk_ensures_world fd _ _).mono ?_
    rintro err _ ⟨part, hpart, rfl, hall⟩
    refine (ensures_done _ _ _).mpr ⟨err, rfl, ?_⟩
    split_ifs with herr
    · rw [hall herr]
      exact ⟨trivial, rfl⟩
    · exact ⟨part, hpart, rfl⟩

/-- An operation that is accepted can succeed. -/
theorem StagingOp.program_admits {op : StagingOp} (haccepted : op.Accepted) (world : StagingWorld) :
    Admits stagingWorld op.program world fun result _ ↦ result = .ok hothSuccess := by
  cases op with
  | erase offset len =>
    have herased : Admits stagingWorld
        (onDevice (libhothPayloadUpdateErase offset.toNat len.toNat)) world
          fun err _ ↦ err = hothSuccess :=
      onDevice_admits (libhothPayloadUpdateErase_admits haccepted world.staging)
    refine (admits_bind _ _ _ _).mpr (herased.mono ?_)
    rintro _ final rfl
    exact admits_done rfl
  | update image skipErase binaryFile fits =>
    exact onDevice_admits (libhothPayloadUpdate_admits haccepted fits world.staging)
  | read fd start length =>
    refine (admits_bind _ _ _ _).mpr
      ((libhothPayloadUpdateReadChunk_admits_world fd _ _).mono ?_)
    rintro _ final rfl
    exact admits_done rfl

/-! ### Sessions -/

/-- A sequence of operations, whatever each of them returns. -/
def stagingSession : List StagingOp → ReadProgram (List (Except Fault LibhothError))
  | [] => return []
  | op :: rest => do
    let result ← op.program
    let results ← stagingSession rest
    return result :: results

/-- The operations end one after another with the given results. -/
def Follows : List StagingOp → List (Except Fault LibhothError) → StagingWorld → StagingWorld → Prop
  | [], results, before, after => results = [] ∧ after = before
  | op :: rest, results, before, after => ∃ result later middle, results = result :: later ∧
      op.Ends result before middle ∧ Follows rest later middle after

/-- The run of a session is a run of its operations, by their specifications. -/
theorem stagingSession_follows (ops : List StagingOp) (world : StagingWorld) :
    Ensures stagingWorld (stagingSession ops) world fun results final ↦
      Follows ops results world final := by
  induction ops generalizing world with
  | nil => exact (ensures_done _ _ _).mpr ⟨rfl, rfl⟩
  | cons op rest ih =>
    rw [stagingSession, ensures_bind]
    refine (op.program_ensures world).mono fun result middle hends ↦ ?_
    refine (ensures_bind _ _ _ _).mpr ((ih middle).mono fun later final hrest ↦ ?_)
    exact (ensures_done _ _ _).mpr ⟨result, later, middle, rfl, hends, hrest⟩

/-- Operations that are accepted can succeed one after another. -/
theorem stagingSession_admits {ops : List StagingOp} (haccepted : ∀ op ∈ ops, op.Accepted)
    (world : StagingWorld) :
    Admits stagingWorld (stagingSession ops) world fun results _ ↦
      results = ops.map fun _ ↦ .ok hothSuccess := by
  induction ops generalizing world with
  | nil => exact admits_done rfl
  | cons op rest ih =>
    obtain ⟨hop, hothers⟩ := List.forall_mem_cons.mp haccepted
    refine (admits_bind _ _ _ _).mpr ((op.program_admits hop world).mono ?_)
    rintro _ middle rfl
    refine (admits_bind _ _ _ _).mpr ((ih hothers middle).mono ?_)
    rintro _ final rfl
    exact admits_done rfl

/-- Files are only appended to. -/
theorem StagingOp.Ends.files_prefix {op : StagingOp} {result : Except Fault LibhothError}
    {before after : StagingWorld} (hends : op.Ends result before after) (fd : ℕ) :
    before.files fd <+: after.files fd := by
  obtain ⟨err, -, hends⟩ := hends
  split_ifs at hends with herr
  · obtain ⟨-, rfl⟩ := hends
    cases op with
    | read other start length => exact before.files_prefix_append other _ _
    | _ => exact List.prefix_rfl
  · cases op with
    | read other start length =>
      obtain ⟨part, -, rfl⟩ := hends
      exact before.files_prefix_append other _ _
    | _ => exact hends.1 ▸ List.prefix_rfl

theorem Follows.files_prefix {ops : List StagingOp} {results : List (Except Fault LibhothError)}
    {before after : StagingWorld} (hfollows : Follows ops results before after) (fd : ℕ) :
    before.files fd <+: after.files fd := by
  induction ops generalizing results before with
  | nil => exact hfollows.2 ▸ List.prefix_rfl
  | cons op rest ih =>
    obtain ⟨result, later, middle, -, hends, hrest⟩ := hfollows
    exact (hends.files_prefix fd).trans (ih hrest)

/-- A file that is not read into is left alone. -/
theorem StagingOp.Ends.files_of_ne {op : StagingOp} {result : Except Fault LibhothError}
    {before after : StagingWorld} (hends : op.Ends result before after) {fd : ℕ}
    (hother : op.file ≠ some fd) : after.files fd = before.files fd := by
  obtain ⟨err, -, hends⟩ := hends
  split_ifs at hends with herr
  · obtain ⟨-, rfl⟩ := hends
    cases op with
    | read other start length =>
      exact Function.update_of_ne (fun heq ↦ hother (congrArg some heq.symm)) _ _
    | _ => rfl
  · cases op with
    | read other start length =>
      obtain ⟨part, -, rfl⟩ := hends
      exact Function.update_of_ne (fun heq ↦ hother (congrArg some heq.symm)) _ _
    | _ => exact congrFun hends.1 fd

theorem Follows.files_of_ne {ops : List StagingOp} {results : List (Except Fault LibhothError)}
    {before after : StagingWorld} (hfollows : Follows ops results before after) {fd : ℕ}
    (hothers : ∀ op ∈ ops, op.file ≠ some fd) : after.files fd = before.files fd := by
  induction ops generalizing results before with
  | nil => exact hfollows.2 ▸ rfl
  | cons op rest ih =>
    obtain ⟨result, later, middle, -, hends, hrest⟩ := hfollows
    obtain ⟨hop, hothers⟩ := List.forall_mem_cons.mp hothers
    exact (ih hrest hothers).trans (hends.files_of_ne hop)

/-- Any sequence of operations is one of operations on a store, some of which failed, and what was
in a file before stays at its beginning. Operations that are accepted can all succeed. -/
theorem stagingSession_correct (ops : List StagingOp) (world : StagingWorld) :
    (Ensures stagingWorld (stagingSession ops) world fun results final ↦
      Follows ops results world final ∧ ∀ fd, world.files fd <+: final.files fd) ∧
    ((∀ op ∈ ops, op.Accepted) → Admits stagingWorld (stagingSession ops) world fun results _ ↦
      results = ops.map fun _ ↦ .ok hothSuccess) := by
  refine ⟨?_, fun haccepted ↦ stagingSession_admits haccepted world⟩
  exact (stagingSession_follows ops world).mono fun _ _ hfollows ↦ ⟨hfollows, hfollows.files_prefix⟩

theorem follows_append {first second : List StagingOp} {results : List (Except Fault LibhothError)}
    {before after : StagingWorld} (hfollows : Follows (first ++ second) results before after) :
    ∃ earlier later middle, results = earlier ++ later ∧ Follows first earlier before middle ∧
      Follows second later middle after := by
  induction first generalizing results before with
  | nil => exact ⟨[], results, before, rfl, ⟨rfl, rfl⟩, hfollows⟩
  | cons op rest ih =>
    obtain ⟨result, others, next, rfl, hends, hrest⟩ := hfollows
    obtain ⟨earlier, later, middle, rfl, hearlier, hlater⟩ := ih hrest
    exact ⟨result :: earlier, later, middle, rfl, ⟨result, earlier, next, rfl, hends, hearlier⟩,
      hlater⟩

/-! ### Trying again -/

section Retry

variable {image : List UInt8} {before after : StagingWorld}

/-- The staged image depends on the earlier contents behind its sectors alone. -/
theorem stagedImage_eq_of_sameOutside {first second : ℕ → UInt8}
    (hsame : SameOutside 0 (stagedSize image) first second) :
    stagedImage image second = stagedImage image first := by
  funext address
  unfold stagedImage
  split_ifs with himage hsector
  · rfl
  · rfl
  · exact hsame address fun hinside ↦ hsector hinside.2

theorem load_stagedImage (image : List UInt8) (flash : ℕ → UInt8) :
    load (stagedImage image flash) 0 image.length = image := by
  refine load_eq_of_getElem? rfl fun index hindex ↦ ?_
  rw [Nat.zero_add, stagedImage, dif_pos hindex, List.getElem?_eq_getElem hindex]

/-- An image that was accepted is what is read from the start of the staging area. -/
theorem readCells_stagedImage (hfits : image.length < 2 ^ 32) (flash : ℕ → UInt8) :
    readCells (stagedImage image flash) 0 image.length = image := by
  have hbelow : LastChunkBelow 0 image.length := by
    rw [LastChunkBelow, show PayloadUpdateRead.maxChunkSize = 1016 from rfl]
    omega
  rw [readCells_of_below _ hbelow, load_stagedImage]

/-- No operation changes anything behind its range, however it ends. -/
theorem StagingOp.Ends.sameOutside {op : StagingOp} {result : Except Fault LibhothError}
    (hends : op.Ends result before after) :
    SameOutside 0 op.stop before.staging after.staging := by
  obtain ⟨err, -, hends⟩ := hends
  split_ifs at hends with herr
  · obtain ⟨-, rfl⟩ := hends
    cases op with
    | erase offset len => exact (SameOutside.of_erase _ _ _).mono (Nat.zero_le _) le_rfl
    | update image skipErase binaryFile fits => exact sameOutside_updated image skipErase _
    | read fd start length => exact .rfl
  · cases op with
    | erase offset len => exact hends.2.mono (Nat.zero_le _) le_rfl
    | update image skipErase binaryFile fits => exact hends.2
    | read fd start length =>
      obtain ⟨part, -, rfl⟩ := hends
      exact .rfl

theorem Follows.sameOutside {ops : List StagingOp} {results : List (Except Fault LibhothError)}
    {limit : ℕ} (hinside : ∀ op ∈ ops, op.stop ≤ limit)
    (hfollows : Follows ops results before after) :
    SameOutside 0 limit before.staging after.staging := by
  induction ops generalizing results before with
  | nil =>
    obtain ⟨-, rfl⟩ := hfollows
    exact .rfl
  | cons op rest ih =>
    obtain ⟨result, later, middle, -, hends, hrest⟩ := hfollows
    obtain ⟨hop, hothers⟩ := List.forall_mem_cons.mp hinside
    exact (hends.sameOutside.mono le_rfl hop).trans (ih hothers hrest)

/-- An update that erases first. -/
def retryUpdate (image : List UInt8) (binaryFile : Bool) : StagingOp :=
  .update image false binaryFile fun hskip ↦ absurd hskip Bool.false_ne_true

/-- A read of as many bytes as an image has, from the start of the staging area on. -/
def readBack (fd : ℕ) (image : List UInt8) : StagingOp :=
  .read fd 0 (.ofNat image.length)

/-- Whatever was done to the sectors of an image before, an update that succeeds leaves the image
and everything else as it was at first, and a read that succeeds appends exactly the image to its
file, and nothing to another. -/
theorem stagingSession_retried {attempts : List StagingOp} {image : List UInt8}
    (hinside : ∀ op ∈ attempts, op.stop ≤ stagedSize image) (binaryFile : Bool) (fd : ℕ)
    (world : StagingWorld) :
    Ensures stagingWorld
      (stagingSession (attempts ++ [retryUpdate image binaryFile, readBack fd image])) world
      fun results final ↦ ∃ earlier staged read ready, results = earlier ++ [staged, read] ∧
        Follows attempts earlier world ready ∧
        (staged = .ok hothSuccess → final.staging = stagedImage image world.staging ∧
          (read = .ok hothSuccess →
            final.files = Function.update ready.files fd (ready.files fd ++ image))) := by
  refine (stagingSession_follows _ world).mono fun results final hfollows ↦ ?_
  obtain ⟨earlier, last, ready, rfl, hattempts, staged, _, middle, rfl, hupdate, read, _, _, rfl,
    hread, rfl, rfl⟩ := follows_append hfollows
  refine ⟨earlier, staged, read, ready, rfl, hattempts, fun hsuccess ↦ ?_⟩
  obtain ⟨err, herr, hupdate⟩ := hupdate
  obtain rfl := Except.ok.inj (herr.symm.trans hsuccess)
  obtain ⟨⟨-, hsize⟩, rfl⟩ := hupdate
  have hfits : image.length < 2 ^ 32 :=
    (length_le_stagedSize image).trans_lt (hsize rfl).2.1
  have hstaged : updated image false ready.staging = stagedImage image world.staging :=
    (updated_of_erase image _).trans (stagedImage_eq_of_sameOutside (hattempts.sameOutside hinside))
  obtain ⟨status, hstatus, hread⟩ := hread
  split_ifs at hread with hdone
  · obtain ⟨-, rfl⟩ := hread
    have hcells : readCells (updated image false ready.staging) (0 : UInt64).toNat
        (UInt64.ofNat image.length).toNat = image := by
      rw [UInt64.toNat_ofNat_of_lt' (hfits.trans (by decide)), hstaged]
      exact readCells_stagedImage hfits _
    exact ⟨hstaged, fun _ ↦ congrArg (fun cells ↦ Function.update ready.files fd
      (ready.files fd ++ cells)) hcells⟩
  · obtain ⟨part, -, rfl⟩ := hread
    refine ⟨hstaged, fun hsuccess ↦ absurd ?_ hdone⟩
    exact Except.ok.inj (hstatus.symm.trans hsuccess)

/-- One byte behind an update with two others and an erase, on a device that accepts all of it: the
update and the read succeed, and leave the byte in the staging area and at the end of the file. -/
theorem stagingSession_retried_one_byte :
    Admits stagingWorld (stagingSession ([retryUpdate [0x01, 0x02] true, .erase 0 4096] ++
        [retryUpdate [0xA5] true, readBack 3 [0xA5]])) ⟨fun _ ↦ 0x55, fun _ ↦ [0x0A]⟩
      fun results final ↦ results = List.replicate 4 (.ok hothSuccess) ∧
        final.staging = stagedImage [0xA5] (fun _ ↦ 0x55) ∧ final.files 3 = [0x0A, 0xA5] := by
  have hinside : ∀ op ∈ [retryUpdate [0x01, 0x02] true, .erase 0 4096],
      op.stop ≤ stagedSize [0xA5] :=
    List.forall_mem_cons.mpr ⟨le_rfl, List.forall_mem_singleton.mpr le_rfl⟩
  have hupdate : ∀ image : List UInt8, SizeAccepted image true →
      (retryUpdate image true).Accepted :=
    fun image hsize ↦ ⟨rfl, fun _ ↦ hsize⟩
  have haccepted : ∀ op ∈ [retryUpdate [0x01, 0x02] true, .erase 0 4096] ++
      [retryUpdate [0xA5] true, readBack 3 [0xA5]], op.Accepted := by
    refine List.forall_mem_cons.mpr ⟨hupdate _ ⟨by decide, by decide, .inl rfl⟩, ?_⟩
    refine List.forall_mem_cons.mpr ⟨show ¬EraseRefused 0 4096 by decide, ?_⟩
    refine List.forall_mem_cons.mpr ⟨hupdate _ ⟨by decide, by decide, .inl rfl⟩, ?_⟩
    exact List.forall_mem_singleton.mpr trivial
  refine ((stagingSession_admits haccepted _).and_ensures
    (stagingSession_retried hinside true 3 _)).mono ?_
  rintro results final ⟨rfl, earlier, staged, read, ready, hresults, hready, hstaged⟩
  have hlast : earlier = List.replicate 2 (.ok hothSuccess) ∧ staged = .ok hothSuccess ∧
      read = .ok hothSuccess := by
    have hlength := List.append_inj' (show List.replicate 2 (.ok hothSuccess) ++
      [.ok hothSuccess, .ok hothSuccess] = earlier ++ [staged, read] from hresults) rfl
    obtain ⟨hearlier, hpair⟩ := hlength
    simp only [List.cons.injEq] at hpair
    exact ⟨hearlier.symm, hpair.1.symm, hpair.2.1.symm⟩
  obtain ⟨-, rfl, rfl⟩ := hlast
  obtain ⟨hstaging, hfiles⟩ := hstaged rfl
  refine ⟨rfl, hstaging, ?_⟩
  have hothers : ∀ op ∈ [retryUpdate [0x01, 0x02] true, .erase 0 4096], op.file ≠ some 3 :=
    List.forall_mem_cons.mpr ⟨(Option.some_ne_none 3).symm,
      List.forall_mem_singleton.mpr (Option.some_ne_none 3).symm⟩
  rw [hfiles rfl, Function.update_self, hready.files_of_ne hothers]
  rfl

end Retry

end Libhoth.Protocol.PayloadStagingStore
