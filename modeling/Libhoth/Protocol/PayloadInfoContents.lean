import Libhoth.Protocol.PayloadInfo

/-!
# The contents of the image descriptor

`libhoth_payload_info` and `libhoth_payload_info_all` report what the descriptor of an image says:
its name, its version, its hash, its regions. The fields are read where the structs of
`payload_info.h` have them, through the pointer that `libhoth_find_image_descriptor` returned, and
the hash is behind a table of regions whose length the image claims.

`FoundDescriptor` says which descriptor is found (`libhothFindImageDescriptor_spec`), and
`reportedInfo` and `reportedRegion` what is reported, both in the documented offsets.
`payloadInfo_reads_descriptor` says that the functions read nothing else and accept exactly the
images that are long enough.
-/

set_option autoImplicit false
set_option relaxedAutoImplicit false

namespace Libhoth.Protocol.PayloadInfoContents

open Foundation.ByteString Foundation.CellMemory Foundation.CheckedAccess PayloadInfo

/-! ### The structs -/

/-- `HASH_SHA2_256`. -/
def hashSha2_256 : ℕ := 2

/-- `HASH_SHA256_BYTES`. -/
def hashSha256Bytes : ℕ := 32

/-- `sizeof(struct hash_sha256)`: the magic of the hash and the hash. -/
def hashSha256Size : ℕ := 4 + hashSha256Bytes

/-- `sizeof(struct image_region)`. -/
def imageRegionSize : ℕ := 44

/-- `PAYLOAD_INFO_ALL_MAX_REGIONS`. -/
def payloadInfoAllMaxRegions : ℕ := 32

/-- The size of a name. -/
def nameSize : ℕ := 32

/-- The place of `image_name` in `struct image_descriptor`. -/
def imageNameOffset : ℕ := 20

/-- The numbers in `struct image_descriptor` that are read. -/
inductive ImageDescriptorField
  | descriptorMajor
  | descriptorMinor
  | descriptorAreaSize
  | imageFamily
  | imageMajor
  | imageMinor
  | imagePoint
  | imageSubpoint
  | buildTimestamp
  | imageType
  | hashType
  | regionCount
  | imageSize
  | blobSize

/-- The place of a field in `struct image_descriptor`. -/
def ImageDescriptorField.place : ImageDescriptorField → ℕ
  | descriptorMajor => 8
  | descriptorMinor => 9
  | descriptorAreaSize => descriptorAreaSizeOffset
  | imageFamily => 52
  | imageMajor => 56
  | imageMinor => 60
  | imagePoint => 64
  | imageSubpoint => 68
  | buildTimestamp => 72
  | imageType => 80
  | hashType => 82
  | regionCount => 84
  | imageSize => 88
  | blobSize => 92

/-- The size of a field in `struct image_descriptor`. -/
def ImageDescriptorField.width : ImageDescriptorField → ℕ
  | descriptorMajor | descriptorMinor | imageType | hashType | regionCount => 1
  | buildTimestamp => 8
  | _ => 4

/-- The numbers in `struct image_region`. -/
inductive ImageRegionField
  | regionOffset
  | regionSize
  | regionVersion
  | regionAttributes

/-- The place of a field in `struct image_region`. -/
def ImageRegionField.place : ImageRegionField → ℕ
  | regionOffset => 32
  | regionSize => 36
  | regionVersion => 40
  | regionAttributes => 42

/-- The size of a field in `struct image_region`. -/
def ImageRegionField.width : ImageRegionField → ℕ
  | regionOffset | regionSize => 4
  | regionVersion | regionAttributes => 2

/-- `struct payload_version`. -/
structure PayloadVersion where
  major : ℕ
  minor : ℕ
  point : ℕ
  subpoint : ℕ

/-- `struct payload_info`. -/
structure PayloadInfo where
  imageName : List UInt8
  imageFamily : ℕ
  imageVersion : PayloadVersion
  imageType : ℕ
  imageHash : List UInt8

/-- `struct payload_region_info`. -/
structure PayloadRegionInfo where
  regionName : List UInt8
  regionOffset : ℕ
  regionSize : ℕ
  regionVersion : ℕ
  regionAttributes : ℕ

/-- `struct payload_info_all`. -/
structure PayloadInfoAll where
  info : PayloadInfo
  descriptorMajor : ℕ
  descriptorMinor : ℕ
  buildTimestamp : ℕ
  hashType : ℕ
  regionCount : ℕ
  imageSize : ℕ
  blobSize : ℕ
  regions : ℕ → PayloadRegionInfo

/-! ### The functions -/

/-- Read a field of the descriptor at an offset. -/
def readDescriptor (image : List UInt8) (descr : ℕ) (field : ImageDescriptorField) :
    Except Fault ℕ :=
  readWord image (descr + field.place) field.width

/-- Read a field of the region at an offset. -/
def readRegion (image : List UInt8) (region : ℕ) (field : ImageRegionField) : Except Fault ℕ :=
  readWord image (region + field.place) field.width

/-- Copy the 32 bytes of a name and overwrite the last one by zero. -/
def copyName (image : List UInt8) (offset : ℕ) : Except Fault (List UInt8) := do
  let name ← sliceWithin image offset nameSize
  return name.set (nameSize - 1) 0

/-- The part of `libhoth_payload_info` that cannot fail: the fields before the hash. -/
def copyDescriptor (image : List UInt8) (descr : ℕ) (payloadInfo : PayloadInfo) :
    Except Fault PayloadInfo := do
  let imageName ← copyName image (descr + imageNameOffset)
  let imageFamily ← readDescriptor image descr .imageFamily
  let major ← readDescriptor image descr .imageMajor
  let minor ← readDescriptor image descr .imageMinor
  let point ← readDescriptor image descr .imagePoint
  let subpoint ← readDescriptor image descr .imageSubpoint
  let imageType ← readDescriptor image descr .imageType
  return { payloadInfo with
    imageName, imageFamily, imageVersion := ⟨major, minor, point, subpoint⟩, imageType }

/-- The part of `libhoth_payload_info` after the checks of the descriptor: the hash, when the
regions before it leave room for it. -/
def copyHash (image : List UInt8) (descr descriptorAreaSize regionCount : ℕ)
    (payloadInfo : PayloadInfo) : Except Fault (Bool × PayloadInfo) := do
  let regionSize := regionCount * imageRegionSize % 2 ^ 32
  if regionSize > descriptorAreaSize - imageDescriptorSize - hashSha256Size then
    return (false, payloadInfo)
  else
    let imageHash ← sliceWithin image (descr + imageDescriptorSize + regionSize + 4) hashSha256Bytes
    return (true, { payloadInfo with imageHash })

/-- `libhoth_payload_info`, with what the struct of its caller contains before and after. -/
def libhothPayloadInfo (image : List UInt8) (payloadInfo : PayloadInfo) :
    Except Fault (Bool × PayloadInfo) := do
  match ← libhothFindImageDescriptor image with
  | none => return (false, payloadInfo)
  | some descr =>
    let payloadInfo ← copyDescriptor image descr payloadInfo
    let hashType ← readDescriptor image descr .hashType
    if hashType ≠ hashSha2_256 then
      return (false, { payloadInfo with imageHash := List.replicate hashSha256Bytes 0 })
    else
      let descriptorAreaSize ← readDescriptor image descr .descriptorAreaSize
      if descriptorAreaSize ≤ imageDescriptorSize + hashSha256Size then return (false, payloadInfo)
      else
        let regionCount ← readDescriptor image descr .regionCount
        copyHash image descr descriptorAreaSize regionCount payloadInfo

/-- Read a region into a `struct payload_region_info`. -/
def copyRegion (image : List UInt8) (region : ℕ) : Except Fault PayloadRegionInfo := do
  let regionName ← copyName image region
  let regionOffset ← readRegion image region .regionOffset
  let regionSize ← readRegion image region .regionSize
  let regionVersion ← readRegion image region .regionVersion
  let regionAttributes ← readRegion image region .regionAttributes
  return ⟨regionName, regionOffset, regionSize, regionVersion, regionAttributes⟩

/-- The loop of `libhoth_payload_info_all` over the regions. -/
def copyRegions (image : List UInt8) (descr count : ℕ) (regions : ℕ → PayloadRegionInfo) :
    Except Fault (ℕ → PayloadRegionInfo) :=
  (List.range count).foldlM (fun regions i ↦ do
    let region ← copyRegion image (descr + imageDescriptorSize + i * imageRegionSize)
    storeWithin payloadInfoAllMaxRegions regions i [region]) regions

/-- The part of `libhoth_payload_info_all` after its checks. -/
def copyAll (image : List UInt8) (descr count : ℕ) (infoAll : PayloadInfoAll) :
    Except Fault PayloadInfoAll := do
  let descriptorMajor ← readDescriptor image descr .descriptorMajor
  let descriptorMinor ← readDescriptor image descr .descriptorMinor
  let buildTimestamp ← readDescriptor image descr .buildTimestamp
  let hashType ← readDescriptor image descr .hashType
  let regionCount ← readDescriptor image descr .regionCount
  let imageSize ← readDescriptor image descr .imageSize
  let blobSize ← readDescriptor image descr .blobSize
  let regions ← copyRegions image descr count infoAll.regions
  return { infoAll with
    descriptorMajor, descriptorMinor, buildTimestamp, hashType, regionCount, imageSize, blobSize,
    regions }

/-- `libhoth_payload_info_all`, with what the struct of its caller contains before and after. -/
def libhothPayloadInfoAll (image : List UInt8) (infoAll : PayloadInfoAll) :
    Except Fault (Bool × PayloadInfoAll) := do
  let (accepted, info) ← libhothPayloadInfo image infoAll.info
  let infoAll := { infoAll with info }
  if ¬accepted then return (false, infoAll)
  else
    match ← libhothFindImageDescriptor image with
    | none => return (false, infoAll)
    | some descr =>
      let count ← readDescriptor image descr .regionCount
      if count > payloadInfoAllMaxRegions then return (false, infoAll)
      else
        let regionsEnd := imageDescriptorSize + count * imageRegionSize
        let descriptorAreaSize ← readDescriptor image descr .descriptorAreaSize
        if regionsEnd > descriptorAreaSize then return (false, infoAll)
        else return (true, ← copyAll image descr count infoAll)

/-! ### What is found -/

/-- There is room for a descriptor at an aligned offset, and it carries the magic. -/
structure DescriptorAt (image : List UInt8) (off : ℕ) : Prop where
  aligned : off % 2 ^ 16 = 0
  inside : off + 96 ≤ image.length
  magic : wordAt image off 8 = titanImageDescriptorMagic

/-- The first descriptor of an image, when its area is inside the image. -/
structure FoundDescriptor (image : List UInt8) (off : ℕ) : Prop where
  descriptor : DescriptorAt image off
  first : ∀ earlier, earlier < off → ¬DescriptorAt image earlier
  unclipped : off + wordAt image (off + 16) 4 ≤ image.length

section Find

variable {image : List UInt8} {off place : ℕ}

/-- The first descriptor is the only one that can be found. -/
theorem FoundDescriptor.eq_of_first (hfound : FoundDescriptor image place)
    (hdescriptor : DescriptorAt image off)
    (hfirst : ∀ earlier, earlier < off → ¬DescriptorAt image earlier) : place = off := by
  rcases lt_trichotomy place off with hbefore | hsame | hafter
  · exact absurd hfound.descriptor (hfirst place hbefore)
  · exact hsame
  · exact absurd hdescriptor (hfound.first off hafter)

/-- The search from an aligned offset, when there is no descriptor before it. -/
theorem findImageDescriptorFrom_eq_some_iff (haligned : off % 2 ^ 16 = 0)
    (hearlier : ∀ earlier, earlier < off → ¬DescriptorAt image earlier) {found : Option ℕ}
    (hsearch : findImageDescriptorFrom image off = .ok found) :
    found = some place ↔ FoundDescriptor image place := by
  induction off using findImageDescriptorFrom.induct image with
  | case1 off h ih =>
    have hinside : off + 96 ≤ image.length := by
      simp only [imageDescriptorSize] at h
      omega
    have hmagic : off + 8 ≤ image.length := by omega
    have harea : off + descriptorAreaSizeOffset + 4 ≤ image.length := by
      simp only [descriptorAreaSizeOffset]
      omega
    rw [findImageDescriptorFrom, dif_pos h, readWord_of_le hmagic, readWord_of_le harea] at hsearch
    simp only [ok_bind] at hsearch
    split_ifs at hsearch with hcandidate hclipped
    · obtain rfl := Except.ok.inj hsearch
      refine iff_of_false (Option.some_ne_none place).symm fun hfound ↦ ?_
      obtain rfl := hfound.eq_of_first ⟨haligned, hinside, hcandidate⟩ hearlier
      have hunclipped := hfound.unclipped
      simp only [descriptorAreaSizeOffset] at hclipped
      omega
    · obtain rfl := Except.ok.inj hsearch
      constructor
      · intro hplace
        obtain rfl := Option.some.inj hplace
        refine ⟨⟨haligned, hinside, hcandidate⟩, hearlier, ?_⟩
        simp only [descriptorAreaSizeOffset] at hclipped
        omega
      · intro hfound
        rw [hfound.eq_of_first ⟨haligned, hinside, hcandidate⟩ hearlier]
    · have hnext : (off + titanImageDescriptorAlignment) % 2 ^ 16 = 0 := by
        simp only [titanImageDescriptorAlignment]
        omega
      refine ih hnext (fun earlier hlt hdescriptor ↦ ?_) hsearch
      have hplace := hdescriptor.aligned
      simp only [titanImageDescriptorAlignment] at hlt
      rcases lt_trichotomy earlier off with hbefore | hsame | hafter
      · exact hearlier earlier hbefore hdescriptor
      · exact hcandidate (hsame ▸ hdescriptor.magic)
      · omega
  | case2 off h =>
    rw [findImageDescriptorFrom, dif_neg h] at hsearch
    obtain rfl := Except.ok.inj hsearch
    refine iff_of_false (Option.some_ne_none place).symm fun hfound ↦ ?_
    have hinside := hfound.descriptor.inside
    simp only [imageDescriptorSize] at h
    exact hearlier place (by omega) hfound.descriptor

/-- `libhoth_find_image_descriptor` returns the first descriptor whose area is inside the image. -/
theorem libhothFindImageDescriptor_spec (image : List UInt8) :
    ∃ found, libhothFindImageDescriptor image = .ok found ∧
      ∀ place, found = some place ↔ FoundDescriptor image place := by
  obtain ⟨found, hsearch⟩ := libhothFindImageDescriptor_isOk image
  exact ⟨found, hsearch, fun place ↦
    findImageDescriptorFrom_eq_some_iff rfl (fun _ hlt ↦ absurd hlt (Nat.not_lt_zero _)) hsearch⟩

end Find

/-! ### What is reported -/

/-- A name of at most 31 characters, terminated by zero. -/
def reportedName (image : List UInt8) (offset : ℕ) : List UInt8 :=
  slice image offset 31 ++ [0]

/-- The number of regions that a descriptor claims. -/
def claimedRegions (image : List UInt8) (off : ℕ) : ℕ :=
  wordAt image (off + 84) 1

/-- What `struct payload_info` says about a descriptor. -/
def reportedInfo (image : List UInt8) (off : ℕ) : PayloadInfo where
  imageName := reportedName image (off + 20)
  imageFamily := wordAt image (off + 52) 4
  imageVersion :=
    { major := wordAt image (off + 56) 4
      minor := wordAt image (off + 60) 4
      point := wordAt image (off + 64) 4
      subpoint := wordAt image (off + 68) 4 }
  imageType := wordAt image (off + 80) 1
  imageHash := slice image (off + 96 + 44 * claimedRegions image off + 4) 32

/-- What `struct payload_region_info` says about a region. -/
def reportedRegion (image : List UInt8) (region : ℕ) : PayloadRegionInfo where
  regionName := reportedName image region
  regionOffset := wordAt image (region + 32) 4
  regionSize := wordAt image (region + 36) 4
  regionVersion := wordAt image (region + 40) 2
  regionAttributes := wordAt image (region + 42) 2

/-- What `struct payload_info_all` says about a descriptor. -/
structure ReportsAll (image : List UInt8) (off : ℕ) (infoAll : PayloadInfoAll) : Prop where
  info : infoAll.info = reportedInfo image off
  descriptorMajor : infoAll.descriptorMajor = wordAt image (off + 8) 1
  descriptorMinor : infoAll.descriptorMinor = wordAt image (off + 9) 1
  buildTimestamp : infoAll.buildTimestamp = wordAt image (off + 72) 8
  hashType : infoAll.hashType = wordAt image (off + 82) 1
  regionCount : infoAll.regionCount = claimedRegions image off
  imageSize : infoAll.imageSize = wordAt image (off + 88) 4
  blobSize : infoAll.blobSize = wordAt image (off + 92) 4
  regions : ∀ index, index < claimedRegions image off →
    infoAll.regions index = reportedRegion image (off + 96 + 44 * index)

/-- The descriptor has a hash of the right type behind its regions. -/
structure HasHash (image : List UInt8) (off : ℕ) : Prop where
  hashType : wordAt image (off + 82) 1 = 2
  area : 132 < wordAt image (off + 16) 4
  regions : 44 * claimedRegions image off ≤ wordAt image (off + 16) 4 - 132

section Reads

variable {image : List UInt8} {descr : ℕ}

theorem readDescriptor_ok (hinside : descr + 96 ≤ image.length) (field : ImageDescriptorField) :
    readDescriptor image descr field = .ok (wordAt image (descr + field.place) field.width) := by
  have hfield : field.place + field.width ≤ 96 := by
    cases field <;> decide
  exact readWord_of_le (by omega)

theorem readRegion_ok {region : ℕ} (hinside : region + 44 ≤ image.length)
    (field : ImageRegionField) :
    readRegion image region field = .ok (wordAt image (region + field.place) field.width) := by
  have hfield : field.place + field.width ≤ 44 := by
    cases field <;> decide
  exact readWord_of_le (by omega)

/-- Overwriting the last element of a slice. -/
theorem set_last_slice {offset count : ℕ} (hinside : offset + (count + 1) ≤ image.length)
    (value : UInt8) :
    (slice image offset (count + 1)).set count value = slice image offset count ++ [value] := by
  have hlength : (slice image offset (count + 1)).length = count + 1 := length_slice_of_le hinside
  rw [List.set_eq_take_append_cons_drop, if_pos (by omega), List.drop_of_length_le hlength.le,
    slice, List.take_take, Nat.min_eq_left (Nat.le_succ count)]
  rfl

theorem copyName_ok {offset : ℕ} (hinside : offset + 32 ≤ image.length) :
    copyName image offset = .ok (reportedName image offset) := by
  have hread : sliceWithin image offset nameSize = .ok (slice image offset nameSize) :=
    sliceWithin_of_le hinside
  rw [copyName, hread, ok_bind, pure_eq_ok]
  exact congrArg Except.ok (set_last_slice hinside 0)

/-- The fields before the hash are read from the descriptor. -/
theorem copyDescriptor_ok (hinside : descr + 96 ≤ image.length) (payloadInfo : PayloadInfo) :
    copyDescriptor image descr payloadInfo =
      .ok { reportedInfo image descr with imageHash := payloadInfo.imageHash } := by
  have hname : copyName image (descr + imageNameOffset) =
      .ok (reportedName image (descr + imageNameOffset)) :=
    copyName_ok (by simp only [imageNameOffset]; omega)
  simp only [copyDescriptor, hname, readDescriptor_ok hinside, ok_bind]
  rfl

theorem claimedRegions_lt (image : List UInt8) (descr : ℕ) : claimedRegions image descr < 256 :=
  wordAt_lt image (descr + 84) 1

/-- The hash is copied when the regions leave room for it in the area of the descriptor. -/
theorem copyHash_eq {descriptorAreaSize : ℕ} (harea : 132 < descriptorAreaSize)
    (hunclipped : descr + descriptorAreaSize ≤ image.length) (payloadInfo : PayloadInfo) :
    copyHash image descr descriptorAreaSize (claimedRegions image descr) payloadInfo =
      if 44 * claimedRegions image descr ≤ descriptorAreaSize - 132 then
        .ok (true, { payloadInfo with
          imageHash := slice image (descr + 96 + 44 * claimedRegions image descr + 4) 32 })
      else .ok (false, payloadInfo) := by
  have hcount := claimedRegions_lt image descr
  have hsize : claimedRegions image descr * imageRegionSize % 2 ^ 32 =
      44 * claimedRegions image descr := by
    rw [imageRegionSize, Nat.mul_comm, Nat.mod_eq_of_lt (by omega)]
  have hroom : descriptorAreaSize - imageDescriptorSize - hashSha256Size =
      descriptorAreaSize - 132 := by
    rw [imageDescriptorSize, Nat.sub_sub]
    rfl
  rw [copyHash, hsize, hroom]
  by_cases hregions : 44 * claimedRegions image descr ≤ descriptorAreaSize - 132
  · have hread : sliceWithin image (descr + imageDescriptorSize +
        44 * claimedRegions image descr + 4) hashSha256Bytes = .ok _ :=
      sliceWithin_of_le (by simp only [imageDescriptorSize, hashSha256Bytes]; omega)
    rw [if_neg (Nat.not_lt_of_le hregions), if_pos hregions, hread]
    rfl
  · rw [if_pos (Nat.lt_of_not_le hregions), if_neg hregions]
    rfl

/-- What `libhoth_payload_info` does with the descriptor that was found. -/
theorem libhothPayloadInfo_of_found (hfound : FoundDescriptor image descr)
    (payloadInfo : PayloadInfo) :
    ∃ accepted info, libhothPayloadInfo image payloadInfo = .ok (accepted, info) ∧
      (accepted = true ↔ HasHash image descr) ∧
      (accepted = true → info = reportedInfo image descr) := by
  obtain ⟨found, hsearch, hspec⟩ := libhothFindImageDescriptor_spec image
  obtain rfl := (hspec descr).mpr hfound
  have hinside := hfound.descriptor.inside
  rw [libhothPayloadInfo, hsearch]
  simp only [ok_bind, copyDescriptor_ok hinside, readDescriptor_ok hinside]
  split_ifs with htype harea
  · exact ⟨false, _, rfl, by simpa using fun hhash ↦ htype hhash.hashType, by simp⟩
  · exact ⟨false, _, rfl, by simpa using fun hhash ↦ harea.not_gt hhash.area, by simp⟩
  · have hlarge : 132 < wordAt image (descr + 16) 4 := Nat.lt_of_not_le harea
    have hcopy := copyHash_eq hlarge hfound.unclipped
    by_cases hregions : 44 * claimedRegions image descr ≤ wordAt image (descr + 16) 4 - 132
    · simp only [if_pos hregions] at hcopy
      exact ⟨true, _, hcopy _, by simpa using ⟨not_not.mp htype, hlarge, hregions⟩, fun _ ↦ rfl⟩
    · simp only [if_neg hregions] at hcopy
      exact ⟨false, _, hcopy _, by simpa using fun hhash ↦ hregions hhash.regions, by simp⟩

theorem copyRegion_ok {region : ℕ} (hinside : region + 44 ≤ image.length) :
    copyRegion image region = .ok (reportedRegion image region) := by
  have hname : copyName image region = .ok (reportedName image region) := copyName_ok (by omega)
  simp only [copyRegion, hname, readRegion_ok hinside, ok_bind]
  rfl

/-- The loop over the regions reports every region in its place. -/
theorem copyRegions_ok (regions : ℕ → PayloadRegionInfo) {count : ℕ}
    (hcount : count ≤ payloadInfoAllMaxRegions)
    (hinside : descr + 96 + 44 * count ≤ image.length) :
    ∃ copied, copyRegions image descr count regions = .ok copied ∧
      ∀ index, index < count → copied index = reportedRegion image (descr + 96 + 44 * index) := by
  induction count with
  | zero => exact ⟨regions, rfl, fun index hlt ↦ absurd hlt (Nat.not_lt_zero index)⟩
  | succ count ih =>
    obtain ⟨copied, hcopy, hcopied⟩ := ih (by omega) (by omega)
    have hplace : descr + imageDescriptorSize + count * imageRegionSize =
        descr + 96 + 44 * count := by
      rw [imageDescriptorSize, imageRegionSize, Nat.mul_comm]
    have hregion : copyRegion image (descr + 96 + 44 * count) = .ok _ :=
      copyRegion_ok (by omega)
    have hstore : storeWithin payloadInfoAllMaxRegions copied count
        [reportedRegion image (descr + 96 + 44 * count)] = .ok _ :=
      storeWithin_of_le copied hcount
    refine ⟨store copied count [reportedRegion image (descr + 96 + 44 * count)], ?_,
      fun index hlt ↦ ?_⟩
    · rw [copyRegions] at hcopy ⊢
      rw [List.range_succ, List.foldlM_append, hcopy, ok_bind, List.foldlM_cons, hplace, hregion,
        ok_bind, hstore]
      rfl
    · rcases Nat.lt_succ_iff_lt_or_eq.mp hlt with hearlier | rfl
      · rw [store_of_lt copied _ hearlier, hcopied index hearlier]
      · rw [store_of_mem copied le_rfl (by simp)]
        simp

/-- The rest of the descriptor and its regions are reported. -/
theorem copyAll_reports (hinside : descr + 96 ≤ image.length)
    (hcount : claimedRegions image descr ≤ 32)
    (hregions : descr + 96 + 44 * claimedRegions image descr ≤ image.length)
    (infoAll : PayloadInfoAll) (hinfo : infoAll.info = reportedInfo image descr) :
    ∃ reported, copyAll image descr (claimedRegions image descr) infoAll = .ok reported ∧
      ReportsAll image descr reported := by
  obtain ⟨copied, hcopy, hcopied⟩ := copyRegions_ok infoAll.regions hcount hregions
  simp only [copyAll, readDescriptor_ok hinside, hcopy, ok_bind, pure_eq_ok]
  exact ⟨_, rfl, hinfo, rfl, rfl, rfl, rfl, rfl, rfl, rfl, hcopied⟩

/-- What `libhoth_payload_info_all` does with the descriptor that was found. -/
theorem libhothPayloadInfoAll_of_found (hfound : FoundDescriptor image descr)
    (infoAll : PayloadInfoAll) :
    ∃ accepted reported, libhothPayloadInfoAll image infoAll = .ok (accepted, reported) ∧
      (accepted = true ↔ HasHash image descr ∧ claimedRegions image descr ≤ 32) ∧
      (accepted = true → ReportsAll image descr reported) := by
  obtain ⟨found, hsearch, hspec⟩ := libhothFindImageDescriptor_spec image
  obtain rfl := (hspec descr).mpr hfound
  obtain ⟨accepted, info, hinfo, haccepted, hreported⟩ :=
    libhothPayloadInfo_of_found hfound infoAll.info
  have hinside := hfound.descriptor.inside
  rw [libhothPayloadInfoAll, hinfo]
  simp only [ok_bind, hsearch, readDescriptor_ok hinside]
  cases accepted with
  | false =>
    refine ⟨false, _, rfl, iff_of_false Bool.false_ne_true fun hall ↦ ?_,
      fun haccepts ↦ absurd haccepts Bool.false_ne_true⟩
    exact Bool.false_ne_true (haccepted.mpr hall.1)
  | true =>
    have hhash := haccepted.mp rfl
    have hregions := hhash.regions
    have harea := hhash.area
    have hunclipped := hfound.unclipped
    rw [if_neg (not_not.mpr rfl)]
    by_cases hcount : claimedRegions image descr > 32
    · refine ⟨false, _, if_pos hcount, iff_of_false Bool.false_ne_true fun hall ↦ ?_,
        fun haccepts ↦ absurd haccepts Bool.false_ne_true⟩
      exact absurd hall.2 (Nat.not_le_of_lt hcount)
    · have hend : ¬imageDescriptorSize + claimedRegions image descr * imageRegionSize >
          wordAt image (descr + 16) 4 := by
        rw [imageDescriptorSize, imageRegionSize]
        omega
      have hsmall : claimedRegions image descr ≤ 32 := Nat.le_of_not_lt hcount
      obtain ⟨reported, hcopy, hreports⟩ :=
        copyAll_reports hinside hsmall (by omega) { infoAll with info } (hreported rfl)
      refine ⟨true, reported, (if_neg hcount).trans ((if_neg hend).trans ?_),
        iff_of_true rfl ⟨hhash, hsmall⟩, fun _ ↦ hreports⟩
      change (copyAll image descr (claimedRegions image descr) _ >>= _) = _
      rw [hcopy]
      rfl

end Reads

/-! ### The contract -/

/-- No image makes one of the three functions read outside it. They find the first descriptor,
accept it when its area leaves room for the regions and the hash, and report what it says. -/
theorem payloadInfo_reads_descriptor (image : List UInt8) :
    (∃ found, libhothFindImageDescriptor image = .ok found ∧
        ∀ place, found = some place ↔ FoundDescriptor image place) ∧
      (∀ payloadInfo, ∃ accepted info,
        libhothPayloadInfo image payloadInfo = .ok (accepted, info) ∧
          (accepted = true ↔ ∃ off, FoundDescriptor image off ∧ HasHash image off) ∧
          (accepted = true → ∀ off, FoundDescriptor image off → info = reportedInfo image off)) ∧
      ∀ infoAll, ∃ accepted reported,
        libhothPayloadInfoAll image infoAll = .ok (accepted, reported) ∧
          (accepted = true ↔ ∃ off, FoundDescriptor image off ∧ HasHash image off ∧
            claimedRegions image off ≤ 32) ∧
          (accepted = true → ∀ off, FoundDescriptor image off → ReportsAll image off reported) := by
  obtain ⟨found, hsearch, hspec⟩ := libhothFindImageDescriptor_spec image
  refine ⟨⟨found, hsearch, hspec⟩, ?_⟩
  cases found with
  | none =>
    have hnone (off : ℕ) (hfound : FoundDescriptor image off) : False :=
      Option.some_ne_none off ((hspec off).mpr hfound).symm
    have hinfo (payloadInfo : PayloadInfo) :
        libhothPayloadInfo image payloadInfo = .ok (false, payloadInfo) := by
      rw [libhothPayloadInfo, hsearch]
      rfl
    constructor
    · intro payloadInfo
      exact ⟨false, payloadInfo, hinfo payloadInfo,
        iff_of_false Bool.false_ne_true fun ⟨off, hfound, _⟩ ↦ hnone off hfound,
        fun _ off hfound ↦ (hnone off hfound).elim⟩
    · intro infoAll
      refine ⟨false, infoAll, ?_,
        iff_of_false Bool.false_ne_true fun ⟨off, hfound, _⟩ ↦ hnone off hfound,
        fun _ off hfound ↦ (hnone off hfound).elim⟩
      rw [libhothPayloadInfoAll, hinfo]
      rfl
  | some descr =>
    have hfound := (hspec descr).mp rfl
    have honly (off : ℕ) (hother : FoundDescriptor image off) : off = descr :=
      (Option.some.inj ((hspec off).mpr hother)).symm
    constructor
    · intro payloadInfo
      obtain ⟨accepted, info, hrun, haccepted, hreported⟩ :=
        libhothPayloadInfo_of_found hfound payloadInfo
      refine ⟨accepted, info, hrun, haccepted.trans ⟨fun hhash ↦ ⟨descr, hfound, hhash⟩, ?_⟩, ?_⟩
      · rintro ⟨off, hother, hhash⟩
        exact honly off hother ▸ hhash
      · intro haccepts off hother
        exact honly off hother ▸ hreported haccepts
    · intro infoAll
      obtain ⟨accepted, reported, hrun, haccepted, hreports⟩ :=
        libhothPayloadInfoAll_of_found hfound infoAll
      refine ⟨accepted, reported, hrun, haccepted.trans ⟨fun hall ↦ ⟨descr, hfound, hall⟩, ?_⟩, ?_⟩
      · rintro ⟨off, hother, hall⟩
        exact honly off hother ▸ hall
      · intro haccepts off hother
        exact honly off hother ▸ hreports haccepts

end Libhoth.Protocol.PayloadInfoContents
