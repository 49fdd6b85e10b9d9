import Libhoth.Foundation.CyclicRedundancy

/-!
# The checksum of the provisioning log

`libhoth_provisioning_crc32` of `provisioning.c`, with which a commit lets the device check the log
that was written to it. `libhothProvisioningCrc32_detects` states its two laws: a checksum continues
over a concatenation, and messages of one length that differ only within 32 consecutive bits, or
within four consecutive bytes, have different checksums.

`toBitVec_crcBytes` is the link to the general theory: the loop over the bytes feeds their bits, the
lowest bit of each byte first, to a register of 32 bits.
-/

set_option autoImplicit false
set_option relaxedAutoImplicit false

namespace Libhoth.Protocol.ProvisioningChecksum

open Foundation.CyclicRedundancy

/-- `polynomial` of `libhoth_provisioning_crc32`. -/
def crcPolynomial : UInt32 := 0xEDB88320

/-- The inner loop body of `libhoth_provisioning_crc32`. -/
def crcBit (crc : UInt32) : UInt32 :=
  (crc >>> 1) ^^^ (if crc &&& 1 ≠ 0 then crcPolynomial else 0)

/-- The outer loop body of `libhoth_provisioning_crc32`. -/
def crcByte (crc : UInt32) (byte : UInt8) : UInt32 :=
  crcBit^[8] (crc ^^^ byte.toUInt32)

/-- The loop of `libhoth_provisioning_crc32` over its buffer. -/
def crcBytes (crc : UInt32) (buf : List UInt8) : UInt32 :=
  buf.foldl crcByte crc

/-- `libhoth_provisioning_crc32`. -/
def libhothProvisioningCrc32 (initialValue : UInt32) (buf : List UInt8) : UInt32 :=
  ~~~crcBytes (~~~initialValue) buf

/-! ### The bits of a message -/

/-- The bits of a byte, the lowest first. -/
def byteBits (byte : UInt8) : List Bool :=
  (List.range 8).map byte.toBitVec.getLsbD

/-- The bits of a message in the order in which they enter the checksum. -/
def messageBits (message : List UInt8) : List Bool :=
  message.flatMap byteBits

@[simp] theorem length_byteBits (byte : UInt8) : (byteBits byte).length = 8 := by
  simp [byteBits]

theorem getElem?_byteBits (byte : UInt8) {index : ℕ} (hindex : index < 8) :
    (byteBits byte)[index]? = some (byte.toBitVec.getLsbD index) := by
  simp [byteBits, hindex]

@[simp] theorem messageBits_cons (byte : UInt8) (rest : List UInt8) :
    messageBits (byte :: rest) = byteBits byte ++ messageBits rest :=
  rfl

theorem length_messageBits (message : List UInt8) :
    (messageBits message).length = 8 * message.length := by
  induction message with
  | nil => rfl
  | cons byte rest ih =>
    rw [messageBits_cons, List.length_append, length_byteBits, ih, List.length_cons]
    omega

/-- A bit of a message is a bit of the byte it is in. -/
theorem getElem?_messageBits (message : List UInt8) (index : ℕ) :
    (messageBits message)[index]? =
      message[index / 8]?.map fun byte ↦ byte.toBitVec.getLsbD (index % 8) := by
  induction message generalizing index with
  | nil => rfl
  | cons byte rest ih =>
    rw [messageBits_cons]
    by_cases hfirst : index < 8
    · rw [List.getElem?_append_left (by rw [length_byteBits]; exact hfirst),
        getElem?_byteBits byte hfirst, Nat.div_eq_of_lt hfirst, Nat.mod_eq_of_lt hfirst]
      rfl
    · rw [List.getElem?_append_right (by rw [length_byteBits]; omega), length_byteBits, ih,
        show index / 8 = (index - 8) / 8 + 1 by omega, show (index - 8) % 8 = index % 8 by omega,
        List.getElem?_cons_succ]

/-- Messages with the same bits are the same. -/
theorem messageBits_injective : Function.Injective messageBits := by
  intro first second hequal
  have hlength : first.length = second.length := by
    have hlengths := congrArg List.length hequal
    rw [length_messageBits, length_messageBits] at hlengths
    omega
  refine List.ext_getElem hlength fun index hfirst hsecond ↦ ?_
  refine UInt8.toBitVec_inj.mp (BitVec.eq_of_getLsbD_eq fun bit hbit ↦ ?_)
  have hplace := congrArg (fun bits : List Bool ↦ bits[8 * index + bit]?) hequal
  simp only [getElem?_messageBits, show (8 * index + bit) / 8 = index by omega,
    show (8 * index + bit) % 8 = bit by omega, List.getElem?_eq_getElem hfirst,
    List.getElem?_eq_getElem hsecond, Option.map_some, Option.some.injEq] at hplace
  exact hplace

/-! ### The loop as a register -/

theorem and_one_eq_zero_iff (crc : UInt32) : crc &&& 1 = 0 ↔ crc.toBitVec.getLsbD 0 = false := by
  rw [← UInt32.toBitVec_inj, UInt32.toBitVec_and]
  have hlow : crc.toBitVec &&& 1#32 = BitVec.setWidth 32 (BitVec.ofBool (crc.toBitVec.getLsbD 0)) :=
    BitVec.and_one_eq_setWidth_ofBool_getLsbD
  rw [show (1 : UInt32).toBitVec = 1#32 from rfl, hlow]
  cases crc.toBitVec.getLsbD 0 <;> decide

theorem toBitVec_crcBit (crc : UInt32) :
    (crcBit crc).toBitVec = shift crcPolynomial.toBitVec crc.toBitVec := by
  have hlow := and_one_eq_zero_iff crc
  rw [crcBit, shift]
  cases hbit : crc.toBitVec.getLsbD 0
  · rw [if_neg (not_not.mpr (hlow.mpr hbit))]
    simp
  · rw [if_pos fun hzero ↦ absurd (hlow.mp hzero) (by rw [hbit]; decide)]
    simp

theorem toBitVec_crcByte (crc : UInt32) (byte : UInt8) :
    (crcByte crc byte).toBitVec = feed crcPolynomial.toBitVec crc.toBitVec (byteBits byte) := by
  have hpacked : (packed (byteBits byte) : BitVec 32) = byte.toUInt32.toBitVec := by
    refine BitVec.eq_of_getLsbD_eq fun index hindex ↦ ?_
    rw [getLsbD_packed _ hindex, UInt8.toBitVec_toUInt32, BitVec.getLsbD_setWidth,
      List.getD_eq_getElem?_getD, decide_eq_true hindex, Bool.true_and]
    by_cases hinside : index < 8
    · rw [getElem?_byteBits byte hinside, Option.getD_some]
    · rw [List.getElem?_eq_none (by rw [length_byteBits]; omega), Option.getD_none,
        BitVec.getLsbD_of_ge _ _ (by omega)]
  have hiterate : ∀ (steps : ℕ) (crc : UInt32),
      (crcBit^[steps] crc).toBitVec = (shift crcPolynomial.toBitVec)^[steps] crc.toBitVec := by
    intro steps crc
    induction steps generalizing crc with
    | zero => rfl
    | succ steps ih =>
      rw [Function.iterate_succ_apply, Function.iterate_succ_apply, ih, toBitVec_crcBit]
  rw [crcByte, hiterate, UInt32.toBitVec_xor, feed_eq_iterate _ _ (by simp), hpacked,
    length_byteBits]

/-- The loop over the bytes feeds their bits. -/
theorem toBitVec_crcBytes (crc : UInt32) (buf : List UInt8) :
    (crcBytes crc buf).toBitVec = feed crcPolynomial.toBitVec crc.toBitVec (messageBits buf) := by
  induction buf generalizing crc with
  | nil => rfl
  | cons byte rest ih =>
    have hnext : crcBytes crc (byte :: rest) = crcBytes (crcByte crc byte) rest := rfl
    rw [hnext, ih, toBitVec_crcByte, messageBits_cons, feed_append]

/-! ### The laws of the checksum -/

/-- A checksum that is continued is the checksum of the concatenation. -/
theorem libhothProvisioningCrc32_append (initialValue : UInt32) (first second : List UInt8) :
    libhothProvisioningCrc32 (libhothProvisioningCrc32 initialValue first) second =
      libhothProvisioningCrc32 initialValue (first ++ second) := by
  simp only [libhothProvisioningCrc32, UInt32.not_not, crcBytes, List.foldl_append]

/-- A burst of up to 32 bits changes the checksum. -/
theorem libhothProvisioningCrc32_ne_of_bits (initialValue : UInt32) {first second : List UInt8}
    (hlength : first.length = second.length) (hne : first ≠ second) (start : ℕ)
    (hburst : ∀ index, (messageBits first)[index]? ≠ (messageBits second)[index]? →
      start ≤ index ∧ index < start + 32) :
    libhothProvisioningCrc32 initialValue first ≠ libhothProvisioningCrc32 initialValue second := by
  have hbits : (messageBits first).length = (messageBits second).length := by
    rw [length_messageBits, length_messageBits, hlength]
  have hfeed := feed_ne_of_burst (show crcPolynomial.toBitVec.msb = true by decide)
    (~~~initialValue).toBitVec hbits (messageBits_injective.ne hne) start hburst
  rw [← toBitVec_crcBytes, ← toBitVec_crcBytes] at hfeed
  exact fun hequal ↦ hfeed (congrArg UInt32.toBitVec (UInt32.not_inj.mp hequal))

/-- Bytes that differ lie where bits differ. -/
theorem byte_ne_of_bit_ne {first second : List UInt8} {index : ℕ}
    (hbits : (messageBits first)[index]? ≠ (messageBits second)[index]?) :
    first[index / 8]? ≠ second[index / 8]? := by
  intro hsame
  rw [getElem?_messageBits, getElem?_messageBits, hsame] at hbits
  exact hbits rfl

/-- The checksum of a concatenation is the continued checksum, and messages of one length that
differ, but only within four consecutive bytes or within 32 consecutive bits, have different
checksums. -/
theorem libhothProvisioningCrc32_detects :
    (∀ initialValue first second,
      libhothProvisioningCrc32 (libhothProvisioningCrc32 initialValue first) second =
        libhothProvisioningCrc32 initialValue (first ++ second)) ∧
    ∀ initialValue (first second : List UInt8), first.length = second.length → first ≠ second →
      ((∃ start, ∀ index, first[index]? ≠ second[index]? → start ≤ index ∧ index < start + 4) ∨
        ∃ start, ∀ index, (messageBits first)[index]? ≠ (messageBits second)[index]? →
          start ≤ index ∧ index < start + 32) →
      libhothProvisioningCrc32 initialValue first ≠
        libhothProvisioningCrc32 initialValue second := by
  refine ⟨libhothProvisioningCrc32_append, ?_⟩
  rintro initialValue first second hlength hne (⟨start, hbytes⟩ | ⟨start, hbits⟩)
  · refine libhothProvisioningCrc32_ne_of_bits initialValue hlength hne (8 * start)
      fun index hindex ↦ ?_
    obtain ⟨hstart, hend⟩ := hbytes (index / 8) (byte_ne_of_bit_ne hindex)
    omega
  · exact libhothProvisioningCrc32_ne_of_bits initialValue hlength hne start hbits

/-- A log of three bytes with one byte changed. -/
theorem libhothProvisioningCrc32_detects_three :
    libhothProvisioningCrc32 0 [10, 20, 30] ≠ libhothProvisioningCrc32 0 [10, 21, 30] := by
  refine libhothProvisioningCrc32_detects.2 0 _ _ rfl (by decide) (.inl ⟨0, fun index hindex ↦ ?_⟩)
  refine ⟨Nat.zero_le index, ?_⟩
  by_contra hbeyond
  exact hindex (by
    rw [List.getElem?_eq_none (by simp; omega), List.getElem?_eq_none (by simp; omega)])

/-- The checksum of the usual test message. -/
example : libhothProvisioningCrc32 0 [0x31, 0x32, 0x33, 0x34, 0x35, 0x36, 0x37, 0x38, 0x39] =
    0xCBF43926 := by
  decide +kernel

end Libhoth.Protocol.ProvisioningChecksum
