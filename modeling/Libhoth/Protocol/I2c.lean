import Libhoth.Foundation.CheckedAccess
import Libhoth.Protocol.HostCommandProgram
import Mathlib.Data.Nat.Bitwise

/-!
# I2C

`i2c.c`: the host commands that scan the I2C bus of the device and that run a transfer on it, and
the list of the addresses that a scan found. The structs that go over the wire are packed and padded
to a multiple of four bytes.

The device counts what it found and marks it in a mask, and nothing makes the two agree.
`libhothI2cDeviceList_eq` says what the list is in any case: the first addresses of the mask, in
ascending order, as many as the count says or as there are.
-/

set_option autoImplicit false
set_option relaxedAutoImplicit false

namespace Libhoth.Protocol.I2c

open Foundation.ByteString Foundation.CellMemory Foundation.CheckedAccess
open Foundation.InteractingProgram Status HostCommand HostCommandProgram

/-- `I2C_DETECT_DATA_MAX_SIZE_BYTES`. -/
def i2cDetectDataMaxSizeBytes : ℕ := 16

/-- `I2C_DETECT_MAX_DEVICES`. -/
def i2cDetectMaxDevices : ℕ := 128

/-- `I2C_TRANSFER_DATA_MAX_SIZE_BYTES`. -/
def i2cTransferDataMaxSizeBytes : ℕ := 256

/-- `I2C_BITS_WRITE`. -/
def i2cBitsWrite : UInt32 := (1 : UInt32) <<< 0

/-- `I2C_BITS_NO_STOP`. -/
def i2cBitsNoStop : UInt32 := (1 : UInt32) <<< 1

/-! ### Host commands -/

/-- A host command of the bus that is answered with a struct of a given size. -/
def i2cCall (command : ℕ) (payload : List UInt8) (respBufSize : ℕ) : HostCommand where
  command := hothCmdBoardSpecificBase + command
  version := 0
  payload := payload
  respBufSize := respBufSize
  sized := true

/-- What a reply leaves when it has to fill its struct: the error, or the struct. -/
def wholeReply {call : HostCommand} : HostReply call → Except LibhothError (List UInt8)
  | .failed err _ => .error err
  | .accepted payload _ =>
    if payload.length ≠ call.respBufSize then .error (cmdExecStatus .fail) else .ok payload

/-- `struct hoth_request_i2c_detect`, with the byte that pads it. -/
structure HothRequestI2cDetect where
  busNumber : UInt8
  startAddress : UInt8
  endAddress : UInt8
  padding : UInt8

/-- `struct hoth_response_i2c_detect`. -/
structure HothResponseI2cDetect where
  busResponse : UInt8
  devicesCount : UInt8
  devicesMask : List UInt8
  maskSize : devicesMask.length = i2cDetectDataMaxSizeBytes

/-- `sizeof(struct hoth_response_i2c_detect)`. -/
def hothResponseI2cDetectSize : ℕ := 20

/-- The scan that a request asks for. -/
def HothRequestI2cDetect.call (req : HothRequestI2cDetect) : HostCommand :=
  i2cCall 0x0045 [req.busNumber, req.startAddress, req.endAddress, req.padding]
    hothResponseI2cDetectSize

/-- The response in a struct of its size. -/
def HothResponseI2cDetect.decode (payload : List UInt8) : HothResponseI2cDetect where
  busResponse := payload.getD 0 0
  devicesCount := payload.getD 1 0
  devicesMask := (slice payload 2 i2cDetectDataMaxSizeBytes).rightpad i2cDetectDataMaxSizeBytes 0
  maskSize := by
    rw [List.length_rightpad, length_slice]
    omega

/-- `libhoth_i2c_detect`. -/
def libhothI2cDetect (req : HothRequestI2cDetect) :
    HostProgram (Except LibhothError HothResponseI2cDetect) := do
  return (wholeReply (← hostcmdExec req.call)).map HothResponseI2cDetect.decode

/-- `struct hoth_request_i2c_transfer`. -/
structure HothRequestI2cTransfer where
  busNumber : UInt8
  speedKhz : UInt16
  devAddress : UInt8
  flags : UInt32
  sizeWrite : UInt16
  sizeRead : UInt16
  argBytes : ℕ → UInt8

/-- The fields of `struct hoth_response_i2c_transfer` that a write looks at. -/
structure HothResponseI2cTransfer where
  busResponse : UInt8

/-- `sizeof(struct hoth_response_i2c_transfer)`. -/
def hothResponseI2cTransferSize : ℕ := 260

/-- The bytes of a request in front of its argument bytes. -/
def HothRequestI2cTransfer.header (req : HothRequestI2cTransfer) : List UInt8 :=
  req.busNumber :: toLittleEndian 2 req.speedKhz.toNat ++
    req.devAddress :: toLittleEndian 4 req.flags.toNat ++ toLittleEndian 2 req.sizeWrite.toNat ++
    toLittleEndian 2 req.sizeRead.toNat

/-- The transfer that a request asks for. -/
def HothRequestI2cTransfer.call (req : HothRequestI2cTransfer) : HostCommand :=
  i2cCall 0x0046 (req.header ++ load req.argBytes 0 i2cTransferDataMaxSizeBytes)
    hothResponseI2cTransferSize

/-- `libhoth_i2c_transfer`. -/
def libhothI2cTransfer (req : HothRequestI2cTransfer) :
    HostProgram (Except LibhothError HothResponseI2cTransfer) := do
  return (wholeReply (← hostcmdExec req.call)).map fun payload ↦ ⟨payload.getD 0 0⟩

/-- The argument bytes that a transfer writes, read off its payload: as many as its write size. -/
def writtenBytes (payload : List UInt8) : List UInt8 :=
  slice payload 12 (wordAt payload 8 2)

/-- A transfer writes the first argument bytes of its request. -/
theorem writtenBytes_call (req : HothRequestI2cTransfer)
    (hsize : req.sizeWrite.toNat ≤ i2cTransferDataMaxSizeBytes) :
    writtenBytes req.call.payload = load req.argBytes 0 req.sizeWrite.toNat := by
  have hlength : req.header.length = 12 := by simp [HothRequestI2cTransfer.header]
  have hword : wordAt req.header 8 2 = req.sizeWrite.toNat := by
    have hsplit : req.header = (req.busNumber :: toLittleEndian 2 req.speedKhz.toNat ++
        req.devAddress :: toLittleEndian 4 req.flags.toNat) ++
        (toLittleEndian 2 req.sizeWrite.toNat ++ toLittleEndian 2 req.sizeRead.toNat) := by
      simp [HothRequestI2cTransfer.header]
    have hfront : (req.busNumber :: toLittleEndian 2 req.speedKhz.toNat ++
        req.devAddress :: toLittleEndian 4 req.flags.toNat).length = 8 := by simp
    rw [hsplit, show 8 = (req.busNumber :: toLittleEndian 2 req.speedKhz.toNat ++
      req.devAddress :: toLittleEndian 4 req.flags.toNat).length + 0 from hfront.symm,
      wordAt_append_right, wordAt_append_left (by simp), wordAt, slice, List.drop_zero,
      List.take_of_length_le (by simp), littleEndian_toLittleEndian_of_lt req.sizeWrite.toNat_lt]
  rw [writtenBytes, HothRequestI2cTransfer.call, i2cCall]
  dsimp only
  rw [wordAt_append_left (by omega), hword, show 12 = req.header.length + 0 by omega,
    slice_append_right, slice, List.drop_zero]
  have hsplit : i2cTransferDataMaxSizeBytes =
      req.sizeWrite.toNat + (i2cTransferDataMaxSizeBytes - req.sizeWrite.toNat) := by omega
  rw [hsplit, load_add, List.take_left' (length_load _ _ _)]

/-! ### The list of addresses -/

/-- The variables of the loops over the mask: the list, the number of its entries, and whether the
function has returned. -/
structure DeviceListState where
  deviceList : ℕ → UInt8
  foundDevs : UInt32
  returned : Bool

/-- What the loops do with bit `b` of byte `i`. -/
def visitBit (devicesMask : List UInt8) (devicesCount : UInt32) (capacity i b : ℕ)
    (state : DeviceListState) : Except Fault DeviceListState :=
  if state.returned then .ok state
  else
    match devicesMask[i]? with
    | none => .error .readOutOfBounds
    | some byte =>
      if byte.toNat &&& 1 <<< b ≠ 0 then do
        let deviceList ← storeWithin capacity state.deviceList state.foundDevs.toNat
          [UInt8.ofNat (i * 8 + b)]
        let foundDevs := state.foundDevs + 1
        return ⟨deviceList, foundDevs, devicesCount = foundDevs⟩
      else .ok state

/-- `libhoth_i2c_device_list`, into a list of a given capacity. -/
def libhothI2cDeviceList (devicesMask : List UInt8) (devicesCount : UInt32) (capacity : ℕ)
    (deviceList : ℕ → UInt8) : Except Fault (ℕ → UInt8) :=
  if devicesCount = 0 then .ok deviceList
  else do
    let last ← (List.range i2cDetectDataMaxSizeBytes).foldlM
      (fun state i ↦ (List.range 8).foldlM
        (fun state b ↦ visitBit devicesMask devicesCount capacity i b state) state)
      ⟨deviceList, 0, false⟩
    return last.deviceList

/-- The mask marks an address. -/
def marks (devicesMask : List UInt8) (address : ℕ) : Bool :=
  (devicesMask.getD (address / 8) 0).toNat.testBit (address % 8)

/-- The marked addresses below a bound, in ascending order. -/
def markedBelow (devicesMask : List UInt8) (bound : ℕ) : List ℕ :=
  (List.range bound).filter (marks devicesMask)

/-- The addresses that a mask marks, in ascending order. -/
def markedAddresses (devicesMask : List UInt8) : List ℕ :=
  markedBelow devicesMask i2cDetectMaxDevices

/-- The entries for some addresses. -/
def entriesOf (addresses : List ℕ) : List UInt8 :=
  addresses.map UInt8.ofNat

theorem mem_markedAddresses_iff (devicesMask : List UInt8) (address : ℕ) :
    address ∈ markedAddresses devicesMask ↔
      address < i2cDetectMaxDevices ∧ marks devicesMask address := by
  rw [markedAddresses, markedBelow, List.mem_filter, List.mem_range]

/-- The addresses are listed from the lowest to the highest. -/
theorem pairwise_markedAddresses (devicesMask : List UInt8) :
    (markedAddresses devicesMask).Pairwise (· < ·) :=
  List.pairwise_lt_range.filter _

theorem length_markedAddresses_le (devicesMask : List UInt8) :
    (markedAddresses devicesMask).length ≤ i2cDetectMaxDevices :=
  (List.length_filter_le _ _).trans (List.length_range).le

theorem markedBelow_succ (devicesMask : List UInt8) (bound : ℕ) :
    markedBelow devicesMask (bound + 1) =
      markedBelow devicesMask bound ++ if marks devicesMask bound then [bound] else [] := by
  rw [markedBelow, List.range_succ, List.filter_append, List.filter_singleton, cond_eq_ite]
  rfl

theorem isPrefix_markedBelow (devicesMask : List UInt8) {bound : ℕ}
    (hbound : bound ≤ i2cDetectMaxDevices) :
    markedBelow devicesMask bound <+: markedAddresses devicesMask := by
  obtain ⟨rest, hrest⟩ := Nat.exists_eq_add_of_le hbound
  rw [markedAddresses, hrest, markedBelow, markedBelow, List.range_add, List.filter_append]
  exact List.prefix_append _ _

/-- The bit that a loop tests is the mark of its address. -/
theorem and_shiftLeft_ne_zero_iff (value b : ℕ) : value &&& 1 <<< b ≠ 0 ↔ value.testBit b := by
  rw [Nat.one_shiftLeft, Nat.and_two_pow]
  cases value.testBit b <;> simp

/-- The loops stand in front of an address: the list has the first marked addresses below it, and
the function has returned if these are all that were wanted. -/
structure Listed (devicesMask : List UInt8) (devicesCount : UInt32) (deviceList : ℕ → UInt8)
    (bound : ℕ) (state : DeviceListState) : Prop where
  stored : state.deviceList =
    store deviceList 0 (entriesOf ((markedBelow devicesMask bound).take devicesCount.toNat))
  found : state.foundDevs.toNat = min devicesCount.toNat (markedBelow devicesMask bound).length
  returned : state.returned = decide (devicesCount.toNat ≤ (markedBelow devicesMask bound).length)

variable {devicesMask : List UInt8} {devicesCount : UInt32} {deviceList : ℕ → UInt8}
variable {capacity bound : ℕ} {state : DeviceListState}

/-- An address that the mask does not mark changes nothing. -/
theorem Listed.skip (hlisted : Listed devicesMask devicesCount deviceList bound state)
    (hmark : marks devicesMask bound = false) :
    Listed devicesMask devicesCount deviceList (bound + 1) state := by
  have hsame : markedBelow devicesMask (bound + 1) = markedBelow devicesMask bound := by
    rw [markedBelow_succ, hmark]
    exact List.append_nil _
  exact ⟨hsame ▸ hlisted.stored, hsame ▸ hlisted.found, hsame ▸ hlisted.returned⟩

/-- After the function has returned nothing changes. -/
theorem Listed.stay (hlisted : Listed devicesMask devicesCount deviceList bound state)
    (hreturned : state.returned = true) :
    Listed devicesMask devicesCount deviceList (bound + 1) state := by
  have hfull : devicesCount.toNat ≤ (markedBelow devicesMask bound).length := by
    simpa [hreturned] using hlisted.returned
  have hlonger : (markedBelow devicesMask bound).length ≤
      (markedBelow devicesMask (bound + 1)).length := by
    rw [markedBelow_succ, List.length_append]
    omega
  refine ⟨?_, ?_, ?_⟩
  · rw [hlisted.stored, markedBelow_succ, List.take_append_of_le_length hfull]
  · rw [hlisted.found]
    omega
  · rw [hreturned]
    exact (decide_eq_true (hfull.trans hlonger)).symm

/-- One more marked address, with room for its entry. -/
theorem Listed.snoc (hlisted : Listed devicesMask devicesCount deviceList bound state)
    (hmark : marks devicesMask bound) (hmore : state.returned = false) :
    Listed devicesMask devicesCount deviceList (bound + 1)
      ⟨store state.deviceList state.foundDevs.toNat [UInt8.ofNat bound], state.foundDevs + 1,
        devicesCount = state.foundDevs + 1⟩ := by
  have hbelow : (markedBelow devicesMask bound).length < devicesCount.toNat := by
    simpa [hmore] using hlisted.returned
  have hcount := devicesCount.toNat_lt
  have hfound : state.foundDevs.toNat = (markedBelow devicesMask bound).length := by
    rw [hlisted.found]
    omega
  have hnext : (state.foundDevs + 1).toNat = (markedBelow devicesMask bound).length + 1 := by
    rw [UInt32.toNat_add, hfound, UInt32.toNat_one]
    exact Nat.mod_eq_of_lt (by omega)
  have hmarked : markedBelow devicesMask (bound + 1) =
      markedBelow devicesMask bound ++ [bound] := by
    rw [markedBelow_succ, hmark]
    rfl
  refine ⟨?_, ?_, ?_⟩
  · have hstart :
        state.foundDevs.toNat = 0 + (entriesOf (markedBelow devicesMask bound)).length := by
      rw [hfound, entriesOf, List.length_map, Nat.zero_add]
    rw [hlisted.stored, hmarked, List.take_of_length_le hbelow.le, hstart, store_store_append,
      List.take_of_length_le (by rw [List.length_append]; exact hbelow), entriesOf, entriesOf,
      List.map_append]
    rfl
  · rw [hnext, hmarked, List.length_append]
    exact (Nat.min_eq_right hbelow).symm
  · rw [decide_eq_decide, ← UInt32.toNat_inj, hnext, hmarked, List.length_append,
      List.length_singleton]
    omega

/-- One bit. -/
theorem visitBit_succeeds {i b : ℕ} (hi : i < devicesMask.length) (hb : b < 8)
    (hroom : min devicesCount.toNat (markedBelow devicesMask (i * 8 + b + 1)).length ≤ capacity)
    (hlisted : Listed devicesMask devicesCount deviceList (i * 8 + b) state) :
    Succeeds (visitBit devicesMask devicesCount capacity i b state)
      (Listed devicesMask devicesCount deviceList (i * 8 + b + 1)) := by
  have hmark : devicesMask[i].toNat &&& 1 <<< b ≠ 0 ↔ marks devicesMask (i * 8 + b) := by
    rw [and_shiftLeft_ne_zero_iff, marks, show (i * 8 + b) / 8 = i by omega,
      show (i * 8 + b) % 8 = b by omega, List.getD_eq_getElem _ _ hi]
  unfold visitBit
  rw [List.getElem?_eq_getElem hi]
  by_cases hreturned : state.returned
  · rw [if_pos hreturned, succeeds_ok]
    exact hlisted.stay hreturned
  · rw [if_neg hreturned]
    dsimp only
    rw [Bool.not_eq_true] at hreturned
    by_cases hset : devicesMask[i].toNat &&& 1 <<< b ≠ 0
    · have hfits : state.foundDevs.toNat + [UInt8.ofNat (i * 8 + b)].length ≤ capacity := by
        have hbelow : (markedBelow devicesMask (i * 8 + b)).length < devicesCount.toNat := by
          simpa [hreturned] using hlisted.returned
        rw [markedBelow_succ, hmark.mp hset, List.length_append] at hroom
        rw [hlisted.found, List.length_singleton]
        simp only [if_true, List.length_singleton] at hroom
        omega
      rw [if_pos hset, storeWithin_of_le _ hfits, ok_bind, pure_eq_ok, succeeds_ok]
      exact hlisted.snoc (hmark.mp hset) hreturned
    · rw [if_neg hset, succeeds_ok]
      exact hlisted.skip (Bool.not_eq_true _ ▸ mt hmark.mpr hset)

/-- The list has the first marked addresses in ascending order, as many as are counted or marked,
when there is room for these. -/
theorem libhothI2cDeviceList_eq (hmask : devicesMask.length = i2cDetectDataMaxSizeBytes)
    (hroom : min devicesCount.toNat (markedAddresses devicesMask).length ≤ capacity) :
    libhothI2cDeviceList devicesMask devicesCount capacity deviceList =
      .ok (store deviceList 0
        (entriesOf ((markedAddresses devicesMask).take devicesCount.toNat))) := by
  unfold libhothI2cDeviceList
  by_cases hzero : devicesCount = 0
  · rw [if_pos hzero, hzero, UInt32.toNat_zero, List.take_zero]
    exact congrArg _ (store_nil deviceList 0).symm
  · have hstart : Listed devicesMask devicesCount deviceList 0 ⟨deviceList, 0, false⟩ := by
      have hpos : ¬devicesCount.toNat ≤ 0 := fun hle ↦
        hzero (UInt32.toNat_inj.mp (Nat.le_zero.mp hle))
      refine ⟨?_, (Nat.min_zero _).symm, (decide_eq_false hpos).symm⟩
      rw [show markedBelow devicesMask 0 = [] from rfl, List.take_nil]
      exact (store_nil deviceList 0).symm
    have hbits : ∀ i < i2cDetectDataMaxSizeBytes, ∀ state,
        Listed devicesMask devicesCount deviceList (i * 8) state →
          Succeeds ((List.range 8).foldlM
            (fun state b ↦ visitBit devicesMask devicesCount capacity i b state) state)
            (Listed devicesMask devicesCount deviceList ((i + 1) * 8)) := by
      intro i hi state hlisted
      rw [show (i + 1) * 8 = i * 8 + 8 by omega]
      refine foldlM_range_succeeds (fun b ↦ Listed devicesMask devicesCount deviceList (i * 8 + b))
        hlisted fun b hb next hnext ↦ visitBit_succeeds (by omega) hb ?_ hnext
      have hbelow := (isPrefix_markedBelow devicesMask (show i * 8 + b + 1 ≤ i2cDetectMaxDevices by
        rw [i2cDetectDataMaxSizeBytes] at hi
        rw [i2cDetectMaxDevices]
        omega)).length_le
      omega
    obtain ⟨last, hlast, hlisted⟩ := foldlM_range_succeeds
      (fun i ↦ Listed devicesMask devicesCount deviceList (i * 8)) hstart hbits
    rw [if_neg hzero, hlast, ok_bind, pure_eq_ok, hlisted.stored]
    rfl

end Libhoth.Protocol.I2c
