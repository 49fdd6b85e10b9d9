import Libhoth.Foundation.CheckedAccess

/-!
# Finding the image descriptor

`payload_info.c`. A payload image carries a descriptor of at least 96 bytes at a 64K-aligned offset,
recognised by its magic. `libhothFindImageDescriptor` returns the offset of the first one
(`none` for the null pointer), and every read of the image is checked.
`libhothFindImageDescriptor_isOk` says that no read leaves the image.
-/

set_option autoImplicit false
set_option relaxedAutoImplicit false

namespace Libhoth.Protocol.PayloadInfo

open Foundation.ByteString Foundation.CheckedAccess

/-- `TITAN_IMAGE_DESCRIPTOR_MAGIC`, the bytes `_IMGDSC_`. -/
def titanImageDescriptorMagic : ℕ := 0x5f435344474d495f

/-- `TITAN_IMAGE_DESCRIPTOR_ALIGNMENT`. -/
def titanImageDescriptorAlignment : ℕ := 2 ^ 16

/-- `sizeof(struct image_descriptor)`, without its flexible array of regions. -/
def imageDescriptorSize : ℕ := 96

/-- The place of `descriptor_area_size` in `struct image_descriptor`. -/
def descriptorAreaSizeOffset : ℕ := 16

/-- The search of `libhoth_find_image_descriptor` from an offset on. -/
def findImageDescriptorFrom (image : List UInt8) (off : ℕ) : Except Fault (Option ℕ) :=
  if _ : off + imageDescriptorSize - 1 < image.length then do
    let magicCandidate ← readWord image off 8
    if magicCandidate = titanImageDescriptorMagic then do
      let descriptorAreaSize ← readWord image (off + descriptorAreaSizeOffset) 4
      if descriptorAreaSize + off > image.length then return none
      else return some off
    else findImageDescriptorFrom image (off + titanImageDescriptorAlignment)
  else return none
termination_by image.length - off
decreasing_by
  simp only [imageDescriptorSize, titanImageDescriptorAlignment] at *
  omega

/-- `libhoth_find_image_descriptor`: the offset of the descriptor, or `none` for `NULL`. -/
def libhothFindImageDescriptor (image : List UInt8) : Except Fault (Option ℕ) :=
  findImageDescriptorFrom image 0

/-- The search never reads outside the image. -/
theorem findImageDescriptorFrom_isOk (image : List UInt8) (off : ℕ) :
    ∃ found, findImageDescriptorFrom image off = .ok found := by
  induction off using findImageDescriptorFrom.induct image with
  | case1 off h ih =>
    have hmagic : off + 8 ≤ image.length := by
      simp only [imageDescriptorSize] at h
      omega
    have harea : off + descriptorAreaSizeOffset + 4 ≤ image.length := by
      simp only [imageDescriptorSize, descriptorAreaSizeOffset] at h ⊢
      omega
    rw [findImageDescriptorFrom, dif_pos h, readWord_of_le hmagic, readWord_of_le harea]
    by_cases hfound : wordAt image off 8 = titanImageDescriptorMagic
    · by_cases hclipped : wordAt image (off + descriptorAreaSizeOffset) 4 + off > image.length
      · exact ⟨none, by simp [hfound, hclipped]⟩
      · exact ⟨some off, by simp [hfound, hclipped]⟩
    · obtain ⟨found, hrest⟩ := ih
      exact ⟨found, by simp [hfound, hrest]⟩
  | case2 off h => exact ⟨none, by rw [findImageDescriptorFrom, dif_neg h]; rfl⟩

/-- `libhoth_find_image_descriptor` never reads outside the image. -/
theorem libhothFindImageDescriptor_isOk (image : List UInt8) :
    ∃ found, libhothFindImageDescriptor image = .ok found :=
  findImageDescriptorFrom_isOk image 0

end Libhoth.Protocol.PayloadInfo
