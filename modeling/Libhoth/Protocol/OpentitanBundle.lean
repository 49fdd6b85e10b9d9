import Libhoth.Protocol.OpentitanVersion

/-!
# The versions in a firmware bundle

`libhoth_extract_ot_bundle` with its two output structs. `BundleImage` is what an image must be,
with the end of the versions as a number that does not wrap around.
`libhothExtractOtBundleInto_spec` says that the function accepts exactly these images and what it
stores, and that it stores nothing otherwise: the 32-bit sums that it compares exclude every offset
for which they wrap. `encodeBundle` builds such an image from an offset and two versions.
-/

set_option autoImplicit false
set_option relaxedAutoImplicit false

namespace Libhoth.Protocol.OpentitanBundle

open Foundation.ByteString Foundation.CheckedAccess OpentitanVersion

/-- `libhoth_extract_ot_bundle`: the returned `int` and the two output structs, which hold the given
versions before the call. -/
def libhothExtractOtBundleInto (image : List UInt8) (romExt app : OpentitanImageVersion) :
    Except Fault (ℤ × OpentitanImageVersion × OpentitanImageVersion) :=
  if image.length < smallestFw then return (-1, romExt, app)
  else if image.take bundleMagic.length ≠ bundleMagic then return (-1, romExt, app)
  else do
    let header ← readWord image opentitanOffsetHeaderData 4
    let offset := UInt32.ofNat header
    let last := offset + opentitanOffsetAppFw + opentitanOffsetVersionSecurity + 4
    if last.toNat > image.length then return (-1, romExt, app)
    else if last < offset then return (-1, romExt, app)
    else do
      let romExt ← readBundleVersion image offset
      let app ← readBundleVersion image (offset + opentitanOffsetAppFw)
      return (0, romExt, app)

/-- The magic is the text `_OTFWUPDATE_`. -/
example : bundleMagic = "_OTFWUPDATE_".toList.map fun letter ↦ UInt8.ofNat letter.toNat := by
  decide

/-- The offset that the header of an image has at byte 36. -/
def bundleOffset (image : List UInt8) : ℕ :=
  wordAt image 36 4

/-- An image that carries the versions of a bundle. -/
structure BundleImage (image : List UInt8) : Prop where
  size : 65600 ≤ image.length
  magic : image.take bundleMagic.length = bundleMagic
  versions : bundleOffset image + 66384 ≤ image.length

/-- The version whose three words are at offsets 836, 840 and 844 behind a place. -/
def versionBehind (image : List UInt8) (place : ℕ) : OpentitanImageVersion where
  major := word32 image (place + 836)
  minor := word32 image (place + 840)
  securityVersion := word32 image (place + 844)

/-- The function with output structs is the function that returns the versions. -/
theorem libhothExtractOtBundleInto_eq (image : List UInt8) (romExt app : OpentitanImageVersion) :
    libhothExtractOtBundleInto image romExt app =
      (libhothExtractOtBundle image).map fun versions ↦
        match versions with
        | none => (-1, romExt, app)
        | some (romExt, app) => (0, romExt, app) := by
  unfold libhothExtractOtBundleInto libhothExtractOtBundle
  split_ifs
  · rfl
  · rfl
  · cases readWord image opentitanOffsetHeaderData 4 with
    | error fault => rfl
    | ok header =>
      rw [ok_bind, ok_bind]
      dsimp only
      split_ifs
      · rfl
      · rfl
      · cases readBundleVersion image (UInt32.ofNat header) with
        | error fault => rfl
        | ok first =>
          cases readBundleVersion image (UInt32.ofNat header + opentitanOffsetAppFw) <;> rfl

theorem toNat_word32 (image : List UInt8) (offset : ℕ) :
    (word32 image offset).toNat = wordAt image offset 4 := by
  have hword : wordAt image offset 4 < 2 ^ 32 := wordAt_lt _ _ _
  rw [word32, UInt32.toNat_ofNat', Nat.mod_eq_of_lt hword]

/-- An image that carries the versions of a bundle is accepted. -/
theorem libhothExtractOtBundle_of_bundleImage {image : List UInt8} (hsize : image.length < 2 ^ 32)
    (hbundle : BundleImage image) :
    libhothExtractOtBundle image = .ok (some (versionBehind image (bundleOffset image),
      versionBehind image (bundleOffset image + 65536))) := by
  have hoffset : (word32 image opentitanOffsetHeaderData).toNat = bundleOffset image :=
    toNat_word32 image 36
  have hversions := hbundle.versions
  rw [libhothExtractOtBundle_of_valid hbundle.magic (by omega) (by omega), hoffset]
  rfl

/-- An image that does not is refused. -/
theorem libhothExtractOtBundle_of_not_bundleImage {image : List UInt8}
    (hbundle : ¬BundleImage image) : libhothExtractOtBundle image = .ok none := by
  have hoffset : (word32 image opentitanOffsetHeaderData).toNat = bundleOffset image :=
    toNat_word32 image 36
  unfold libhothExtractOtBundle
  split_ifs with hsmall hmagic
  · rfl
  · rfl
  · have hsize : 65600 ≤ image.length := Nat.not_lt.mp hsmall
    have hheader : readWord image opentitanOffsetHeaderData 4 =
        .ok (wordAt image opentitanOffsetHeaderData 4) :=
      readWord_of_le (by simp only [opentitanOffsetHeaderData]; omega)
    rw [hheader, ok_bind, show UInt32.ofNat (wordAt image opentitanOffsetHeaderData 4) =
      word32 image opentitanOffsetHeaderData from rfl]
    have hversions : ¬(word32 image opentitanOffsetHeaderData).toNat + 66384 ≤ image.length := by
      rw [hoffset]
      exact fun hversions ↦ hbundle ⟨hsize, not_not.mp hmagic, hversions⟩
    generalize word32 image opentitanOffsetHeaderData = offset at hversions ⊢
    have hend := toNat_bundleEnd offset
    have hword := offset.toNat_lt
    dsimp only
    split_ifs with hlarge hwrapped
    · rfl
    · rfl
    · rw [hend] at hlarge
      rw [UInt32.lt_iff_toNat_lt, hend] at hwrapped
      omega

/-- For every image below 2^32 bytes and whatever the output structs hold: the function reads
nothing outside the image, returns zero exactly for the images that carry the versions of a bundle,
stores those versions, and leaves both structs alone in every other case. -/
theorem libhothExtractOtBundleInto_spec {image : List UInt8} (hsize : image.length < 2 ^ 32)
    (romExt app : OpentitanImageVersion) :
    ∃ ret newRomExt newApp,
      libhothExtractOtBundleInto image romExt app = .ok (ret, newRomExt, newApp) ∧
      (ret = 0 ↔ BundleImage image) ∧
      (BundleImage image → newRomExt = versionBehind image (bundleOffset image) ∧
        newApp = versionBehind image (bundleOffset image + 65536)) ∧
      (¬BundleImage image → newRomExt = romExt ∧ newApp = app) := by
  rw [libhothExtractOtBundleInto_eq]
  by_cases hbundle : BundleImage image
  · rw [libhothExtractOtBundle_of_bundleImage hsize hbundle]
    exact ⟨0, _, _, rfl, ⟨fun _ ↦ hbundle, fun _ ↦ rfl⟩, fun _ ↦ ⟨rfl, rfl⟩,
      fun hother ↦ absurd hbundle hother⟩
  · rw [libhothExtractOtBundle_of_not_bundleImage hbundle]
    exact ⟨-1, _, _, rfl, ⟨fun hret ↦ absurd hret (by decide), fun hother ↦ absurd hother hbundle⟩,
      fun hother ↦ absurd hother hbundle, fun _ ↦ ⟨rfl, rfl⟩⟩

/-! ### A bundle -/

/-- The three words of a version. -/
def encodeVersion (version : OpentitanImageVersion) : List UInt8 :=
  toLittleEndian 4 version.major.toNat ++ (toLittleEndian 4 version.minor.toNat ++
    toLittleEndian 4 version.securityVersion.toNat)

/-- A bundle with zeros around its header and its versions. -/
def encodeBundle (offset : ℕ) (romExt app : OpentitanImageVersion) : List UInt8 :=
  bundleMagic ++ List.replicate 24 0 ++ (toLittleEndian 4 offset ++
    (List.replicate (offset + 796) 0 ++ (encodeVersion romExt ++
      (List.replicate 65524 0 ++ encodeVersion app))))

theorem length_encodeVersion (version : OpentitanImageVersion) :
    (encodeVersion version).length = 12 := by
  simp [encodeVersion]

theorem length_encodeBundle (offset : ℕ) (romExt app : OpentitanImageVersion) :
    (encodeBundle offset romExt app).length = offset + 66384 := by
  simp only [encodeBundle, bundleMagic, List.length_append, List.length_replicate,
    length_toLittleEndian, length_encodeVersion, List.length_cons, List.length_nil]
  omega

/-- A version is read back from where it was put. -/
theorem versionBehind_encodeVersion {front : List UInt8} {place : ℕ}
    (hplace : front.length = place + 836) (version : OpentitanImageVersion) (back : List UInt8) :
    versionBehind (front ++ (encodeVersion version ++ back)) place = version := by
  have hword (value : UInt32) : value.toNat < 256 ^ 4 := value.toNat_lt
  have hmajor : wordAt (front ++ (encodeVersion version ++ back)) (place + 836) 4 =
      version.major.toNat := by
    rw [encodeVersion, List.append_assoc, wordAt_between hplace (hword _)]
  have hminor : wordAt (front ++ (encodeVersion version ++ back)) (place + 840) 4 =
      version.minor.toNat := by
    have hfront : (front ++ toLittleEndian 4 version.major.toNat).length = place + 840 := by
      rw [List.length_append, hplace, length_toLittleEndian]
    rw [encodeVersion, List.append_assoc, List.append_assoc, ← List.append_assoc front,
      wordAt_between hfront (hword _)]
  have hsecurity : wordAt (front ++ (encodeVersion version ++ back)) (place + 844) 4 =
      version.securityVersion.toNat := by
    have hfront : (front ++ (toLittleEndian 4 version.major.toNat ++
        toLittleEndian 4 version.minor.toNat)).length = place + 844 := by
      rw [List.length_append, List.length_append, hplace, length_toLittleEndian,
        length_toLittleEndian]
    have hsplit : front ++ (encodeVersion version ++ back) =
        front ++ (toLittleEndian 4 version.major.toNat ++
          toLittleEndian 4 version.minor.toNat) ++
            (toLittleEndian 4 version.securityVersion.toNat ++ back) := by
      simp only [encodeVersion, List.append_assoc]
    rw [hsplit, wordAt_between hfront (hword _)]
  simp only [versionBehind, word32, hmajor, hminor, hsecurity, UInt32.ofNat_toNat]

/-- The header, and the versions that it leads to. -/
theorem encodeBundle_reads {offset : ℕ} (hoffset : offset < 2 ^ 32)
    (romExt app : OpentitanImageVersion) :
    bundleOffset (encodeBundle offset romExt app) = offset ∧
      versionBehind (encodeBundle offset romExt app) offset = romExt ∧
      versionBehind (encodeBundle offset romExt app) (offset + 65536) = app := by
  have hromExt : encodeBundle offset romExt app =
      bundleMagic ++ List.replicate 24 0 ++ toLittleEndian 4 offset ++
        List.replicate (offset + 796) 0 ++ (encodeVersion romExt ++
          (List.replicate 65524 0 ++ encodeVersion app)) := by
    simp only [encodeBundle, List.append_assoc]
  have happ : encodeBundle offset romExt app =
      bundleMagic ++ List.replicate 24 0 ++ toLittleEndian 4 offset ++
        List.replicate (offset + 796) 0 ++ encodeVersion romExt ++ List.replicate 65524 0 ++
          (encodeVersion app ++ []) := by
    simp only [encodeBundle, List.append_assoc, List.append_nil]
  refine ⟨wordAt_between (by simp [bundleMagic]) hoffset _, ?_, ?_⟩
  · rw [hromExt]
    refine versionBehind_encodeVersion ?_ romExt _
    simp only [bundleMagic, List.length_append, List.length_replicate, length_toLittleEndian,
      List.length_cons, List.length_nil]
    omega
  · rw [happ]
    refine versionBehind_encodeVersion ?_ app _
    simp only [bundleMagic, List.length_append, List.length_replicate, length_toLittleEndian,
      length_encodeVersion, List.length_cons, List.length_nil]
    omega

theorem bundleImage_encodeBundle {offset : ℕ} (hoffset : offset < 2 ^ 32)
    (romExt app : OpentitanImageVersion) : BundleImage (encodeBundle offset romExt app) where
  size := by
    rw [length_encodeBundle]
    omega
  magic := by
    rw [encodeBundle, List.append_assoc, List.take_left]
  versions := by
    rw [length_encodeBundle, (encodeBundle_reads hoffset romExt app).1]

/-- The six words of a bundle whose versions are not at its start. -/
theorem libhothExtractOtBundleInto_spec_bundle :
    libhothExtractOtBundleInto (encodeBundle 100 ⟨1, 2, 3⟩ ⟨4, 5, 6⟩) ⟨0, 0, 0⟩ ⟨0, 0, 0⟩ =
      .ok (0, ⟨1, 2, 3⟩, ⟨4, 5, 6⟩) := by
  have hoffset : 100 < 2 ^ 32 := by decide
  have hsize : (encodeBundle 100 ⟨1, 2, 3⟩ ⟨4, 5, 6⟩).length < 2 ^ 32 := by
    rw [length_encodeBundle]
    decide
  have hbundle := bundleImage_encodeBundle hoffset ⟨1, 2, 3⟩ ⟨4, 5, 6⟩
  obtain ⟨hheader, hromExt, happ⟩ := encodeBundle_reads hoffset ⟨1, 2, 3⟩ ⟨4, 5, 6⟩
  obtain ⟨ret, newRomExt, newApp, hextracted, hret, hversions, -⟩ :=
    libhothExtractOtBundleInto_spec hsize ⟨0, 0, 0⟩ ⟨0, 0, 0⟩
  obtain ⟨hnewRomExt, hnewApp⟩ := hversions hbundle
  rw [hheader, hromExt] at hnewRomExt
  rw [hheader, happ] at hnewApp
  rw [hextracted, hret.mpr hbundle, hnewRomExt, hnewApp]

end Libhoth.Protocol.OpentitanBundle
