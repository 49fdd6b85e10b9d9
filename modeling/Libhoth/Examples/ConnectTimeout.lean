import Libhoth.Foundation.NumberText
import Libhoth.Transports.UsbDevice

/-!
# The connect timeout of the tool

`--connect_timeout` is a text of digits, blanks and a unit. `parseTimeStringUs` turns it into
microseconds, `htoolLibhothUsbDevice` cuts them to 32 bits and opens a device with them, and while
the device is not available two loops wait: that around `libusb_open` counts in steps of a
millisecond without regard to overflow, and that of `libhoth_claim_device` backs off and saturates.

A timeout `Connects` when it is rejected, or is parsed exactly and both loops give up after that
time and less than a second more. `connects_iff` says for which timeouts that is so: up to
4294967000 microseconds, and those too large for 64 bits unless they are in microseconds.
-/

set_option autoImplicit false
set_option relaxedAutoImplicit false

namespace Libhoth.Examples.ConnectTimeout

open Foundation.InteractingProgram Foundation.NumberText
open Protocol.Status Transports.Libusb Transports.UsbDevice

/-! ### Parsing -/

/-- The multiplier of what stands behind the digits and the blanks. -/
def unitMultiplier : List UInt8 → Option ℕ
  | [] => some 1000000
  | [first] => if toLower first = 0x73 then some 1000000 else none
  | [first, second] =>
    if toLower first = 0x6D ∧ toLower second = 0x73 then some 1000
    else if toLower first = 0x75 ∧ toLower second = 0x73 then some 1
    else none
  | _ => none

/-- `INT64_MAX`. -/
def int64Max : ℕ := 2 ^ 63 - 1

/-- `parse_time_string_us`. -/
def parseTimeStringUs (timeStr : List UInt8) : ℤ :=
  if timeStr = [] then -1
  else
    let (val, endptr) := strtoll 10 timeStr
    if endptr = timeStr ∨ val < 0 then -1
    else
      match unitMultiplier (endptr.dropWhile isSpace) with
      | none => -1
      | some multiplier => if val > (int64Max / multiplier : ℕ) then -1 else val * multiplier

/-- The units of a timeout. -/
inductive TimeUnit
  | unnamed
  | seconds
  | milliseconds
  | microseconds
  deriving DecidableEq

/-- The name of a unit in lower case. -/
def TimeUnit.name : TimeUnit → List UInt8
  | unnamed => []
  | seconds => [0x73]
  | milliseconds => [0x6D, 0x73]
  | microseconds => [0x75, 0x73]

/-- The microseconds of a unit. -/
def TimeUnit.us : TimeUnit → ℕ
  | unnamed => 1000000
  | seconds => 1000000
  | milliseconds => 1000
  | microseconds => 1

theorem TimeUnit.us_pos (unit : TimeUnit) : 0 < unit.us := by
  cases unit <;> decide

/-- A timeout as it is written: decimal digits, blanks, and a unit in any case. -/
structure TimeString where
  digits : List UInt8
  blanks : List UInt8
  spelling : List UInt8
  unit : TimeUnit
  run : Run 10 digits
  allBlank : ∀ char ∈ blanks, isSpace char
  spelled : spelling.map toLower = unit.name

/-- The text of a timeout. -/
def TimeString.text (time : TimeString) : List UInt8 :=
  time.digits ++ (time.blanks ++ time.spelling)

/-- The microseconds of a timeout. -/
def TimeString.us (time : TimeString) : ℕ :=
  ofDigits 10 time.digits * time.unit.us

/-- A spelled unit has its multiplier. -/
theorem unitMultiplier_of_spelled {spelling : List UInt8} {unit : TimeUnit}
    (hspelled : spelling.map toLower = unit.name) : unitMultiplier spelling = some unit.us := by
  cases unit with
  | unnamed =>
    obtain rfl := List.map_eq_nil_iff.mp hspelled
    rfl
  | seconds =>
    obtain ⟨first, rfl, hfirst⟩ := List.map_eq_singleton_iff.mp hspelled
    exact if_pos hfirst
  | milliseconds =>
    obtain ⟨first, rest, rfl, hfirst, hrest⟩ := List.map_eq_cons_iff.mp hspelled
    obtain ⟨second, rfl, hsecond⟩ := List.map_eq_singleton_iff.mp hrest
    exact if_pos ⟨hfirst, hsecond⟩
  | microseconds =>
    obtain ⟨first, rest, rfl, hfirst, hrest⟩ := List.map_eq_cons_iff.mp hspelled
    obtain ⟨second, rfl, hsecond⟩ := List.map_eq_singleton_iff.mp hrest
    have hother : ¬(toLower first = 0x6D ∧ toLower second = 0x73) := by
      rw [hfirst]
      exact fun hms ↦ absurd hms.1 (by decide)
    exact (if_neg hother).trans (if_pos ⟨hfirst, hsecond⟩)

/-- The first letter of a unit is no blank and no digit. -/
theorem letter_of_spelled {spelling : List UInt8} {unit : TimeUnit}
    (hspelled : spelling.map toLower = unit.name) :
    ∀ char ∈ spelling.head?, isSpace char = false ∧ isDigit 10 char = false := by
  intro char hchar
  have hname : toLower char ∈ unit.name.head? := by
    rw [← hspelled, List.head?_map]
    exact Option.mem_map_of_mem toLower hchar
  cases unit with
  | unnamed => simp [TimeUnit.name] at hname
  | seconds =>
    rcases eq_or_eq_of_toLower (Option.some.inj hname).symm with rfl | rfl <;> decide
  | milliseconds =>
    rcases eq_or_eq_of_toLower (Option.some.inj hname).symm with rfl | rfl <;> decide
  | microseconds =>
    rcases eq_or_eq_of_toLower (Option.some.inj hname).symm with rfl | rfl <;> decide

/-- What stands behind the digits does not begin with one. -/
theorem TimeString.rest_head (time : TimeString) :
    ∀ char ∈ (time.blanks ++ time.spelling).head?, isDigit 10 char = false := by
  intro char hchar
  cases hblanks : time.blanks with
  | nil =>
    rw [hblanks, List.nil_append] at hchar
    exact (letter_of_spelled time.spelled char hchar).2
  | cons blank rest =>
    rw [hblanks] at hchar
    obtain rfl := Option.some.inj hchar
    have hblank := time.allBlank blank (hblanks ▸ List.mem_cons_self)
    refine Bool.eq_false_iff.mpr fun hdigit ↦ ?_
    rw [(isDigit_ne (by decide) hdigit).1] at hblank
    exact Bool.false_ne_true hblank

/-- `strtoll` takes the digits of a timeout, saturated at the largest 64-bit integer. -/
theorem strtoll_text (time : TimeString) :
    strtoll 10 time.text =
      (((min (ofDigits 10 time.digits) int64Max : ℕ) : ℤ), time.blanks ++ time.spelling) := by
  have hvalue : min (ofDigits 10 time.digits : ℤ) (2 ^ 63 - 1) =
      ((min (ofDigits 10 time.digits) int64Max : ℕ) : ℤ) := by
    unfold int64Max
    omega
  unfold strtoll TimeString.text
  rw [numeral_run (by decide) time.run time.rest_head]
  exact Prod.ext hvalue rfl

/-- What is parsed of a timeout: the saturated digits times the unit, unless that is too large. -/
theorem parseTimeStringUs_text (time : TimeString) :
    parseTimeStringUs time.text =
      if int64Max / time.unit.us < min (ofDigits 10 time.digits) int64Max then (-1 : ℤ)
      else (min (ofDigits 10 time.digits) int64Max * time.unit.us : ℕ) := by
  have hne : time.digits ≠ [] := time.run.nonempty
  have hbehind : time.blanks ++ time.spelling ≠ time.text := by
    intro heq
    have hlength := congrArg List.length heq
    have hpositive := List.length_pos_iff.mpr hne
    simp only [TimeString.text, List.length_append] at hlength
    omega
  have htext : time.text ≠ [] := List.append_ne_nil_of_left_ne_nil hne _
  have hunit : unitMultiplier ((time.blanks ++ time.spelling).dropWhile isSpace) =
      some time.unit.us := by
    rw [List.dropWhile_append_of_pos time.allBlank,
      dropWhile_of_head fun char hchar ↦ (letter_of_spelled time.spelled char hchar).1]
    exact unitMultiplier_of_spelled time.spelled
  unfold parseTimeStringUs
  rw [if_neg htext, strtoll_text]
  dsimp only
  rw [if_neg (by simp [hbehind]), hunit]
  simp only [gt_iff_lt, Nat.cast_lt, Nat.cast_mul]

/-- Timeouts of less than 2^63 microseconds are parsed exactly. -/
theorem parseTimeStringUs_of_lt {time : TimeString} (hus : time.us < 2 ^ 63) :
    parseTimeStringUs time.text = time.us := by
  have hdigits : ofDigits 10 time.digits ≤ int64Max / time.unit.us :=
    (Nat.le_div_iff_mul_le time.unit.us_pos).mpr (Nat.le_sub_one_of_lt hus)
  have hsmall : ofDigits 10 time.digits ≤ int64Max := hdigits.trans (Nat.div_le_self _ _)
  rw [parseTimeStringUs_text, min_eq_left hsmall, if_neg (not_lt.mpr hdigits)]
  rfl

/-- Larger ones are rejected, unless they are in microseconds. -/
theorem parseTimeStringUs_of_le {time : TimeString} (hus : 2 ^ 63 ≤ time.us) :
    parseTimeStringUs time.text = if time.unit = .microseconds then (int64Max : ℤ) else -1 := by
  have hdigits : int64Max < ofDigits 10 time.digits * time.unit.us :=
    lt_of_lt_of_le (by decide) hus
  rw [parseTimeStringUs_text]
  by_cases hunit : time.unit = .microseconds
  · rw [hunit, TimeUnit.us, mul_one] at hdigits
    rw [if_pos hunit, hunit, min_eq_right hdigits.le]
    rfl
  · have hmax : int64Max / time.unit.us < int64Max := by
      cases hcase : time.unit with
      | microseconds => exact absurd hcase hunit
      | _ => decide
    have hlarge := (Nat.div_lt_iff_lt_mul time.unit.us_pos).mpr hdigits
    rw [if_neg hunit, if_pos (lt_min hlarge hmax)]

/-! ### Opening a device that is not available -/

/-- `htool_libhoth_usb_device` from the timeout on: the device, or none for a null pointer. -/
def htoolLibhothUsbDevice (timeoutStr : List UInt8) (usbDevice rounds : ℕ) :
    UsbDeviceProgram (Option (Option LibhothUsbDevice)) :=
  let timeoutUs := parseTimeStringUs timeoutStr
  if timeoutUs < 0 then return some none
  else do
    let prngSeed ← request UsbDeviceCall.prngSeed
    match ← libhothUsbOpen ⟨usbDevice, prngSeed, UInt32.ofNat timeoutUs.toNat⟩ rounds with
    | none => return none
    | some (rv, result) => if rv ≠ hothSuccess then return some none else return some result

/-- Why a device is not available. -/
inductive Unavailability
  | access
  | busy
  deriving DecidableEq

/-- The environment of a device that stays unavailable, with the microseconds slept. -/
def unavailable (reason : Unavailability) : Environment UsbDeviceReply ℕ :=
    fun slept call reply next ↦
  match call, reply with
  | .usleep us, _ => next = slept + us
  | .calloc, allocated => allocated = true ∧ next = slept
  | .getDeviceDescriptor _, .failed _ _ => False
  | .getDeviceDescriptor _, .ok idVendor => idVendor = 0x18D1 ∧ next = slept
  | .getActiveConfigDescriptor _, .failed _ _ => False
  | .getActiveConfigDescriptor _, .ok configuration =>
    (libhothUsbFindInterface configuration).type ≠ .unknown ∧ next = slept
  | .getPortNumbers _, .failed _ _ => False
  | .libusbOpen _, .failed status _ =>
    reason = .access ∧ status = libusbErrorAccess ∧ next = slept
  | .libusbOpen _, .ok _ => reason = .busy ∧ next = slept
  | .claimInterface _ _, status => status = libusbErrorBusy ∧ next = slept
  | _, _ => next = slept

/-- Opening ends without a device, after at least the timeout and less than a second more. -/
def GivesUp (time : TimeString) (reason : Unavailability) : Prop :=
  ∀ usbDevice, ∃ enough, ∀ rounds, enough ≤ rounds →
    Ensures (unavailable reason) (htoolLibhothUsbDevice time.text usbDevice rounds) 0
      fun result slept ↦ result = some none ∧ time.us ≤ slept ∧ slept < time.us + 1000000

/-- A timeout is rejected, or it is parsed exactly and opening gives up after it. -/
def Connects (time : TimeString) : Prop :=
  parseTimeStringUs time.text < 0 ∨
    parseTimeStringUs time.text = time.us ∧ ∀ reason, GivesUp time reason

/-! ### The loop around `libusb_open` -/

/-- Between two rounds: the counter is the time slept, cut to 32 bits. -/
structure AccessWait (timeoutUs waitTimeUs : UInt32) (slept : ℕ) : Prop where
  counted : waitTimeUs.toNat = slept % 2 ^ 32
  milliseconds : 1000 ∣ slept
  bounded : timeoutUs.toNat ≤ 4294967000 → slept < timeoutUs.toNat + 1000

theorem AccessWait.initial (timeoutUs : UInt32) : AccessWait timeoutUs 0 0 :=
  ⟨rfl, dvd_zero _, fun _ ↦ by omega⟩

/-- Up to 4294967000 microseconds the counter has not overflowed. -/
theorem AccessWait.counted_of_le {timeoutUs waitTimeUs : UInt32} {slept : ℕ}
    (hwait : AccessWait timeoutUs waitTimeUs slept) (htimeout : timeoutUs.toNat ≤ 4294967000) :
    waitTimeUs.toNat = slept := by
  obtain ⟨hcounted, hmilliseconds, hbounded⟩ := hwait
  have hslept := hbounded htimeout
  omega

/-- A sleep of a millisecond before the timeout. -/
theorem AccessWait.slept {timeoutUs waitTimeUs : UInt32} {slept : ℕ}
    (hwait : AccessWait timeoutUs waitTimeUs slept)
    (hbefore : waitTimeUs.toNat < timeoutUs.toNat) :
    AccessWait timeoutUs (waitTimeUs + 1000) (slept + 1000) where
  counted := by
    have hmillisecond : (1000 : UInt32).toNat = 1000 := rfl
    rw [UInt32.toNat_add, hwait.counted, hmillisecond]
    omega
  milliseconds := Nat.dvd_add hwait.milliseconds (dvd_refl 1000)
  bounded := fun htimeout ↦ by
    rw [hwait.counted_of_le htimeout] at hbefore
    omega

/-- One round: the timeout has been reached, or a millisecond is slept. -/
theorem openRound_unavailable (options : LibhothUsbDeviceInitOptions) (waitTimeUs : UInt32)
    (slept : ℕ) :
    Ensures (unavailable .access) (openRound options waitTimeUs) slept fun outcome final ↦
      match outcome with
      | .inl next => waitTimeUs.toNat < options.timeoutUs.toNat ∧ next = waitTimeUs + 1000 ∧
          final = slept + 1000
      | .inr opened => options.timeoutUs.toNat ≤ waitTimeUs.toNat ∧ final = slept ∧
          ∃ status nonzero, opened = .failed status nonzero := by
  unfold openRound
  rw [ensures_bind, ensures_request]
  intro opened middle hstep
  cases opened with
  | ok handle => exact absurd hstep.1 (by decide)
  | failed status nonzero =>
    obtain ⟨-, rfl, rfl⟩ := hstep
    have haccess : (libhothErrGetCode (usbErrLibusb libusbErrorAccess)).toInt =
        libusbErrorAccess := by decide
    dsimp only
    rw [if_neg (not_not.mpr haccess)]
    split_ifs with hreached
    · exact (ensures_done _ _ _).mpr
        ⟨UInt32.le_iff_toNat_le.mp hreached, rfl, _, nonzero, rfl⟩
    · rw [ensures_bind, ensures_request]
      rintro _ _ rfl
      have hbefore := Nat.lt_of_not_le fun hle ↦ hreached (UInt32.le_iff_toNat_le.mpr hle)
      exact (ensures_done _ _ _).mpr ⟨hbefore, rfl, rfl⟩

/-- The loop fails, at a time slept that the counter reads as the timeout. -/
theorem openLoop_unavailable (options : LibhothUsbDeviceInitOptions) (rounds : ℕ) :
    Ensures (unavailable .access) (whileRounds (openRound options) rounds 0) 0
      fun outcome slept ↦ ∀ opened, outcome = some opened →
        (∃ status nonzero, opened = .failed status nonzero) ∧
          options.timeoutUs.toNat ≤ slept % 2 ^ 32 ∧ 1000 ∣ slept ∧
            (options.timeoutUs.toNat ≤ 4294967000 → slept < options.timeoutUs.toNat + 1000) := by
  refine (whileRounds_ensures (fun waitTimeUs slept ↦ AccessWait options.timeoutUs waitTimeUs slept)
    ?_ rounds 0 0 (.initial _)).mono fun _ _ hend ↦ hend.1
  intro waitTimeUs slept hwait
  refine (openRound_unavailable options waitTimeUs slept).mono fun outcome final hround ↦ ?_
  cases outcome with
  | inl next =>
    obtain ⟨hbefore, rfl, rfl⟩ := hround
    exact hwait.slept hbefore
  | inr opened =>
    obtain ⟨hreached, rfl, hfailed⟩ := hround
    exact ⟨hfailed, hwait.counted ▸ hreached, hwait.milliseconds, hwait.bounded⟩

/-- Up to 4294967000 microseconds the loop ends. -/
theorem openLoop_finishes {options : LibhothUsbDeviceInitOptions}
    (htimeout : options.timeoutUs.toNat ≤ 4294967000) {rounds : ℕ}
    (henough : options.timeoutUs.toNat < rounds) :
    Ensures (unavailable .access) (whileRounds (openRound options) rounds 0) 0
      fun outcome _ ↦ outcome.isSome := by
  refine whileRounds_finishes (fun waitTimeUs ↦ options.timeoutUs.toNat - waitTimeUs.toNat)
    (fun waitTimeUs slept ↦ AccessWait options.timeoutUs waitTimeUs slept) ?_ rounds 0 0
    (.initial _) henough
  intro waitTimeUs slept hwait
  refine (openRound_unavailable options waitTimeUs slept).mono fun outcome final hround ↦ ?_
  rintro next rfl
  obtain ⟨hbefore, rfl, rfl⟩ := hround
  have hnext := (hwait.slept hbefore).counted_of_le htimeout
  have hnow := hwait.counted_of_le htimeout
  exact ⟨hwait.slept hbefore, by omega⟩

/-! ### The loop of `libhoth_claim_device` -/

/-- Between two rounds: the counter is the time slept, saturated at 32 bits, and a sleep takes less
than a second. -/
structure BusyWait (timeoutUs : UInt32) (wait : ClaimWait) (slept : ℕ) : Prop where
  counted : wait.totalWaitingUs.toNat = min slept (2 ^ 32 - 1)
  positive : 0 < wait.waitUs.toNat
  short : wait.waitUs.toNat ≤ maxSingleSleepUs
  bounded : slept < timeoutUs.toNat + 1000000

theorem BusyWait.initial (timeoutUs : UInt32) :
    BusyWait timeoutUs ⟨UInt32.ofNat initialWaitUs, 0⟩ 0 :=
  ⟨rfl, by decide, by decide, by omega⟩

/-- The counter after a sleep of less than a second. -/
theorem totalWaitingUs_slept {wait : ClaimWait} (hshort : wait.waitUs.toNat ≤ maxSingleSleepUs) :
    wait.slept.totalWaitingUs.toNat =
      min (wait.totalWaitingUs.toNat + wait.waitUs.toNat) (2 ^ 32 - 1) := by
  rw [maxSingleSleepUs] at hshort
  dsimp only [ClaimWait.slept]
  split_ifs with hroom
  · rw [UInt32.toNat_add]
    omega
  · rw [UInt32.toNat_ofNat']
    omega

/-- The next sleep. -/
theorem waitUs_slept {wait : ClaimWait} (hpositive : 0 < wait.waitUs.toNat) :
    0 < wait.slept.waitUs.toNat ∧ wait.slept.waitUs.toNat ≤ maxSingleSleepUs := by
  have hlongest : maxSingleSleepUs = 999999 := rfl
  have hfactor : backoffFactor = 2 := rfl
  dsimp only [ClaimWait.slept]
  split_ifs with hhalf
  · rw [UInt32.toNat_mul, UInt32.toNat_ofNat', hfactor]
    rw [hlongest, hfactor] at hhalf
    omega
  · rw [UInt32.toNat_ofNat', hlongest]
    omega

/-- A sleep before the timeout. -/
theorem BusyWait.slept {timeoutUs : UInt32} {wait : ClaimWait} {slept : ℕ}
    (hwait : BusyWait timeoutUs wait slept)
    (hbefore : wait.totalWaitingUs.toNat < timeoutUs.toNat) :
    BusyWait timeoutUs wait.slept (slept + wait.waitUs.toNat) := by
  obtain ⟨hcounted, hpositive, hshort, hbounded⟩ := hwait
  have hlimit := timeoutUs.toNat_lt
  have htotal := totalWaitingUs_slept hshort
  rw [maxSingleSleepUs] at hshort
  exact ⟨by omega, (waitUs_slept hpositive).1, (waitUs_slept hpositive).2, by omega⟩

/-- One round: the timeout has been reached, or the claim is tried again after a sleep. -/
theorem claimRound_unavailable (handle : ℕ) (interfaceId : UInt8) (timeoutUs : UInt32)
    (wait : ClaimWait) (slept : ℕ) :
    Ensures (unavailable .busy) (claimRound (libhothUsbClaim handle interfaceId) timeoutUs wait)
      slept fun outcome final ↦
        match outcome with
        | .inl next => wait.totalWaitingUs.toNat < timeoutUs.toNat ∧ next = wait.slept ∧
            final = slept + wait.waitUs.toNat
        | .inr status => timeoutUs.toNat ≤ wait.totalWaitingUs.toNat ∧ final = slept ∧
            status ≠ hothSuccess := by
  unfold claimRound libhothUsbClaim
  rw [ensures_bind, ensures_bind, ensures_request]
  rintro _ _ ⟨rfl, rfl⟩
  have hfailed : usbErrLibhoth LibhothStatus.interfaceBusy.value ≠ hothSuccess := by decide
  have hbusy : libhothErrGetCode (usbErrLibhoth LibhothStatus.interfaceBusy.value) =
      BitVec.ofNat 32 LibhothStatus.interfaceBusy.value := by decide
  rw [pure_eq_done, ensures_done, if_pos rfl, if_neg hfailed, if_neg (not_not.mpr hbusy)]
  split_ifs with hreached
  · exact (ensures_done _ _ _).mpr ⟨UInt32.le_iff_toNat_le.mp hreached, rfl,
      libhothErrConstruct_ne_success (by decide) _ _⟩
  · rw [ensures_bind, ensures_request]
    rintro _ _ rfl
    have hbefore := Nat.lt_of_not_le fun hle ↦ hreached (UInt32.le_iff_toNat_le.mpr hle)
    exact (ensures_done _ _ _).mpr ⟨hbefore, rfl, rfl⟩

/-- The loop fails after the timeout and less than a second more. -/
theorem libhothClaimDevice_unavailable (handle : ℕ) (interfaceId : UInt8) (timeoutUs : UInt32)
    (rounds : ℕ) :
    Ensures (unavailable .busy)
      (libhothClaimDevice (libhothUsbClaim handle interfaceId) timeoutUs rounds) 0
        fun outcome slept ↦ ∀ status, outcome = some status → status ≠ hothSuccess ∧
          timeoutUs.toNat ≤ slept ∧ slept < timeoutUs.toNat + 1000000 := by
  refine (whileRounds_ensures (BusyWait timeoutUs) ?_ rounds _ 0 (.initial _)).mono
    fun _ _ hend ↦ hend.1
  intro wait slept hwait
  refine (claimRound_unavailable handle interfaceId timeoutUs wait slept).mono
    fun outcome final hround ↦ ?_
  cases outcome with
  | inl next =>
    obtain ⟨hbefore, rfl, rfl⟩ := hround
    exact hwait.slept hbefore
  | inr status =>
    obtain ⟨hreached, rfl, hfailed⟩ := hround
    have hcounted := hwait.counted
    exact ⟨hfailed, by omega, hwait.bounded⟩

/-- The loop ends. -/
theorem libhothClaimDevice_finishes (handle : ℕ) (interfaceId : UInt8) (timeoutUs : UInt32)
    {rounds : ℕ} (henough : timeoutUs.toNat < rounds) :
    Ensures (unavailable .busy)
      (libhothClaimDevice (libhothUsbClaim handle interfaceId) timeoutUs rounds) 0
        fun outcome _ ↦ outcome.isSome := by
  refine whileRounds_finishes (fun wait ↦ timeoutUs.toNat - wait.totalWaitingUs.toNat)
    (BusyWait timeoutUs) ?_ rounds _ 0 (.initial _) henough
  intro wait slept hwait
  refine (claimRound_unavailable handle interfaceId timeoutUs wait slept).mono
    fun outcome final hround ↦ ?_
  rintro next rfl
  obtain ⟨hbefore, rfl, rfl⟩ := hround
  have htotal := totalWaitingUs_slept hwait.short
  have hpositive := hwait.positive
  have hlimit := timeoutUs.toNat_lt
  exact ⟨hwait.slept hbefore, by omega⟩

/-! ### From the loops to the tool -/

theorem quiet_unavailable (reason : Unavailability) : Quiet (unavailable reason) := by
  intro slept call reply next hback hstep
  cases call <;> first | exact hstep | cases hback

theorem present_unavailable (reason : Unavailability) :
    Present (unavailable reason)
      fun configuration ↦ (libhothUsbFindInterface configuration).type ≠ .unknown where
  descriptor := by
    intro slept device reply next hstep
    cases reply with
    | failed status nonzero => exact hstep.elim
    | ok idVendor => exact ⟨congrArg StatusOr.ok hstep.1, hstep.2⟩
  configuration := by
    intro slept device reply next hstep
    cases reply with
    | failed status nonzero => exact hstep.elim
    | ok configuration => exact ⟨configuration, rfl, hstep.1, hstep.2⟩
  bus := fun _ _ _ _ hstep ↦ hstep
  ports := by
    intro slept device reply next hstep
    cases reply with
    | failed status nonzero => exact hstep.elim
    | ok ports => exact ⟨ports, rfl, hstep⟩

/-- The loop in which opening is stuck ends or is cut off as a postcondition says. -/
def Waits (reason : Unavailability) (timeoutUs : UInt32) (rounds : ℕ) (post : Bool → ℕ → Prop) :
    Prop :=
  match reason with
  | .access => ∀ options : LibhothUsbDeviceInitOptions, options.timeoutUs = timeoutUs →
      Ensures (unavailable .access) (whileRounds (openRound options) rounds 0) 0
        fun outcome slept ↦ post outcome.isSome slept
  | .busy => ∀ handle interfaceId, Ensures (unavailable .busy)
      (libhothClaimDevice (libhothUsbClaim handle interfaceId) timeoutUs rounds) 0
        fun outcome slept ↦ post outcome.isSome slept

/-- Opening from `libusb_open` on fails as its loop does. -/
theorem connect_unavailable {reason : Unavailability} {options : LibhothUsbDeviceInitOptions}
    {rounds : ℕ} {post : Bool → ℕ → Prop} (hwaits : Waits reason options.timeoutUs rounds post)
    (usbDev : LibhothUsbDevice) (endpoints : List LibusbEndpointDescriptor) :
    Ensures (unavailable reason) (connect options usbDev endpoints rounds) 0 fun result slept ↦
      post result.isSome slept ∧ ∀ outcome, result = some outcome → outcome.1 ≠ hothSuccess := by
  have hexit {status : LibhothError} (hstatus : status ≠ hothSuccess) (device : LibhothUsbDevice)
      {slept : ℕ} (hpost : post true slept) :
      Ensures (unavailable reason) (do return some (← errOut status device)) slept
        fun result final ↦ post result.isSome final ∧
          ∀ outcome, result = some outcome → outcome.1 ≠ hothSuccess := by
    refine ensures_errOut (quiet_unavailable reason) ⟨hpost, fun outcome houtcome ↦ ?_⟩
    obtain rfl := Option.some.inj houtcome
    exact hstatus
  have hcut {slept : ℕ} (hpost : post false slept) :
      Ensures (unavailable reason) (pure (none : Option OpenOutcome)) slept
        fun result final ↦ post result.isSome final ∧
          ∀ outcome, result = some outcome → outcome.1 ≠ hothSuccess :=
    (ensures_done _ _ _).mpr ⟨hpost, fun _ hnone ↦ absurd hnone.symm (Option.some_ne_none _)⟩
  unfold connect
  rw [ensures_bind]
  cases reason with
  | access =>
    intro outcome slept hrun
    have hpost := hwaits options rfl outcome slept hrun
    have hfailed := openLoop_unavailable options rounds outcome slept hrun
    cases outcome with
    | none => exact hcut hpost
    | some opened =>
      obtain ⟨⟨status, nonzero, rfl⟩, -⟩ := hfailed opened rfl
      exact hexit (fun hsuccess ↦ nonzero ((usbErrLibusb_eq_success_iff status).mp hsuccess))
        usbDev hpost
  | busy =>
    cases rounds with
    | zero =>
      have hpost : post false 0 := hwaits 0 0 none 0 ⟨rfl, rfl⟩
      exact (ensures_done _ _ _).mpr (hcut hpost)
    | succ rounds =>
      have hopen : Ensures (unavailable .busy) (openRound options 0) 0 fun outcome slept ↦
          ∃ value, outcome = .inr value ∧ ∃ handle, value = .ok handle ∧ slept = 0 := by
        unfold openRound
        rw [ensures_bind, ensures_request]
        rintro opened middle hopened
        cases opened with
        | failed status nonzero => exact absurd hopened.1 (by decide)
        | ok handle => exact (ensures_done _ _ _).mpr ⟨_, rfl, handle, rfl, hopened.2⟩
      refine (whileRounds_ensures_first hopen rounds).mono ?_
      rintro _ _ ⟨_, rfl, handle, rfl, rfl⟩
      dsimp only
      rw [ensures_bind]
      intro claimed slept hrun
      have hpost := hwaits handle usbDev.info.interfaceId claimed slept hrun
      have hfailed := libhothClaimDevice_unavailable _ _ _ _ claimed slept hrun
      cases claimed with
      | none => exact hcut hpost
      | some status =>
        obtain ⟨hstatus, -⟩ := hfailed status rfl
        dsimp only
        rw [if_pos hstatus]
        exact hexit hstatus _ hpost

/-- The tool opens no device, and its open fails as its loop does. -/
theorem htoolLibhothUsbDevice_unavailable {reason : Unavailability} {timeoutStr : List UInt8}
    (haccepted : ¬parseTimeStringUs timeoutStr < 0) {rounds : ℕ} {post : Bool → ℕ → Prop}
    (hwaits : Waits reason (UInt32.ofNat (parseTimeStringUs timeoutStr).toNat) rounds post)
    (usbDevice : ℕ) :
    Ensures (unavailable reason) (htoolLibhothUsbDevice timeoutStr usbDevice rounds) 0
      fun result slept ↦ post result.isSome slept ∧ (result = none ∨ result = some none) := by
  unfold htoolLibhothUsbDevice
  dsimp only
  rw [if_neg haccepted, ensures_bind, ensures_request]
  rintro prngSeed _ rfl
  have hstruct : Ensures (unavailable reason) (libhothUsbDeviceStruct none) 0
      fun opened slept ↦ opened = some clearedDevice ∧ slept = 0 := by
    unfold libhothUsbDeviceStruct
    rw [ensures_bind, ensures_request]
    rintro _ _ ⟨rfl, rfl⟩
    exact (ensures_done _ _ _).mpr ⟨rfl, rfl⟩
  have hopen : Ensures (unavailable reason) (libhothUsbDeviceOpen
      ⟨usbDevice, prngSeed, UInt32.ofNat (parseTimeStringUs timeoutStr).toNat⟩ none rounds) 0
        fun result slept ↦ post result.isSome slept ∧
          ∀ outcome, result = some outcome → outcome.1 ≠ hothSuccess :=
    libhothUsbDeviceOpen_ensures (present_unavailable reason) (fun _ htype ↦ htype) hstruct
      fun configuration loc _ ↦ connect_unavailable hwaits _ _
  unfold libhothUsbOpen
  rw [ensures_bind, ensures_bind, ensures_request]
  rintro _ _ ⟨rfl, rfl⟩
  rw [if_neg (by decide), ensures_bind]
  refine hopen.mono ?_
  rintro (_ | ⟨status, device⟩) slept ⟨hpost, hfailed⟩
  · exact (ensures_done _ _ _).mpr ((ensures_done _ _ _).mpr ⟨hpost, .inl rfl⟩)
  · have hstatus := hfailed _ rfl
    dsimp only at hstatus ⊢
    rw [if_pos hstatus, pure_eq_done, ensures_done]
    dsimp only
    rw [if_pos hstatus]
    exact (ensures_done _ _ _).mpr ⟨hpost, .inr rfl⟩

/-- A request of an open meets a reply. -/
theorem serial_unavailable (reason : Unavailability) (slept : ℕ) (call : UsbDeviceCall) :
    ∃ reply next, unavailable reason slept call reply next := by
  cases call with
  | getMonotonicMs => exact ⟨(0 : ℕ), slept, rfl⟩
  | getDevice loc => exact ⟨.ok (0 : ℕ), slept, rfl⟩
  | prngSeed => exact ⟨(0 : UInt32), slept, rfl⟩
  | usleep us => exact ⟨(), slept + us, rfl⟩
  | calloc => exact ⟨true, slept, rfl, rfl⟩
  | getDeviceDescriptor device => exact ⟨.ok (0x18D1 : UInt16), slept, rfl, rfl⟩
  | getActiveConfigDescriptor device =>
    exact ⟨.ok [[⟨0xFF, 0x71, 0x01, []⟩]], slept, by decide, rfl⟩
  | getBusNumber device => exact ⟨(0 : UInt8), slept, rfl⟩
  | getPortNumbers device => exact ⟨.ok ([] : List UInt8), slept, rfl⟩
  | libusbOpen device =>
    cases reason with
    | access => exact ⟨.failed libusbErrorAccess (by decide), slept, rfl, rfl, rfl⟩
    | busy => exact ⟨.ok (0 : ℕ), slept, rfl, rfl⟩
  | claimInterface handle interfaceId => exact ⟨libusbErrorBusy, slept, rfl, rfl⟩
  | releaseInterface handle interfaceId => exact ⟨(0 : ℤ), slept, rfl⟩
  | libusbClose handle => exact ⟨(), slept, rfl⟩
  | allocTransfer => exact ⟨(0 : ℕ), slept, rfl⟩
  | malloc => exact ⟨(0 : ℕ), slept, rfl⟩
  | freeTransfer pointer => exact ⟨(), slept, rfl⟩
  | free pointer => exact ⟨(), slept, rfl⟩

/-- Timeouts of up to 4294967000 microseconds: opening gives up. -/
theorem givesUp_of_le {time : TimeString} (hus : time.us ≤ 4294967000)
    (reason : Unavailability) : GivesUp time reason := by
  have hparsed : parseTimeStringUs time.text = time.us := parseTimeStringUs_of_lt (by omega)
  have htimeout : (UInt32.ofNat (parseTimeStringUs time.text).toNat).toNat = time.us := by
    rw [hparsed, Int.toNat_natCast, UInt32.toNat_ofNat']
    omega
  refine fun usbDevice ↦ ⟨2 ^ 32, fun rounds hrounds ↦ ?_⟩
  have hwaits : Waits reason (UInt32.ofNat (parseTimeStringUs time.text).toNat) rounds
      fun ended slept ↦ ended = true ∧ time.us ≤ slept ∧ slept < time.us + 1000000 := by
    cases reason with
    | access =>
      intro options hoptions outcome slept hrun
      rw [← hoptions] at htimeout
      have henough : options.timeoutUs.toNat < rounds := by omega
      have hended := openLoop_finishes (htimeout ▸ hus) henough _ _ hrun
      obtain ⟨opened, rfl⟩ := Option.isSome_iff_exists.mp hended
      obtain ⟨-, hreached, -, hbounded⟩ := openLoop_unavailable options rounds _ _ hrun opened rfl
      have hslept := hbounded (htimeout ▸ hus)
      exact ⟨rfl, by omega, by omega⟩
    | busy =>
      intro handle interfaceId outcome slept hrun
      have hended := libhothClaimDevice_finishes _ _ _ (by omega) _ _ hrun
      obtain ⟨status, rfl⟩ := Option.isSome_iff_exists.mp hended
      obtain ⟨-, hslept⟩ := libhothClaimDevice_unavailable _ _ _ _ _ _ hrun status rfl
      exact ⟨rfl, by omega, by omega⟩
  refine (htoolLibhothUsbDevice_unavailable (by omega) hwaits usbDevice).mono ?_
  rintro result slept ⟨⟨hended, hslept⟩, rfl | rfl⟩
  · exact absurd hended Bool.false_ne_true
  · exact ⟨rfl, hslept⟩

/-- From 4294967001 microseconds on, a timeout that is parsed exactly fails: a device without access
is waited for after the counter has overflowed, and the 32 bits of a timeout that needs more end the
wait for a busy device before it. -/
theorem not_connects_of_lt {time : TimeString} (hlower : 4294967000 < time.us)
    (hupper : time.us < 2 ^ 63) : ¬Connects time := by
  have hparsed : parseTimeStringUs time.text = time.us := parseTimeStringUs_of_lt hupper
  have htimeout : (UInt32.ofNat (parseTimeStringUs time.text).toNat).toNat =
      time.us % 2 ^ 32 := by
    rw [hparsed, Int.toNat_natCast, UInt32.toNat_ofNat']
  have hmisses : ∃ reason, ∀ rounds, Waits reason
      (UInt32.ofNat (parseTimeStringUs time.text).toNat) rounds fun ended slept ↦
        ended = true → time.us ≤ slept → ¬slept < time.us + 1000000 := by
    rcases Nat.lt_or_ge time.us (2 ^ 32) with hsmall | hlarge
    · refine ⟨.access, fun rounds options hoptions outcome slept hrun hended ↦ ?_⟩
      obtain ⟨opened, rfl⟩ := Option.isSome_iff_exists.mp hended
      obtain ⟨-, hreached, hmilliseconds, -⟩ :=
        openLoop_unavailable options rounds _ _ hrun opened rfl
      rw [hoptions, htimeout] at hreached
      omega
    · refine ⟨.busy, fun rounds handle interfaceId outcome slept hrun hended ↦ ?_⟩
      obtain ⟨status, rfl⟩ := Option.isSome_iff_exists.mp hended
      obtain ⟨-, -, hslept⟩ := libhothClaimDevice_unavailable _ _ _ _ _ _ hrun status rfl
      rw [htimeout] at hslept
      omega
  rintro (hrejected | ⟨-, hgivesUp⟩)
  · omega
  · obtain ⟨reason, hmisses⟩ := hmisses
    obtain ⟨enough, henough⟩ := hgivesUp reason 0
    obtain ⟨result, slept, hrun⟩ := Runs.exists_of_serial (serial_unavailable reason)
      (htoolLibhothUsbDevice time.text 0 enough) 0
    obtain ⟨rfl, hafter, hbefore⟩ := henough enough le_rfl result slept hrun
    exact (htoolLibhothUsbDevice_unavailable (by omega) (hmisses enough) 0 _ _ hrun).1 rfl hafter
      hbefore

/-- A timeout is rejected or opening gives up after it exactly when it is at most 4294967000
microseconds, or too large for 64 bits and not in microseconds. -/
theorem connects_iff (time : TimeString) :
    Connects time ↔
      time.us ≤ 4294967000 ∨ time.unit ≠ .microseconds ∧ 2 ^ 63 ≤ time.us := by
  rcases Nat.lt_or_ge time.us (2 ^ 63) with hupper | hlarge
  · constructor
    · intro hconnects
      exact .inl (Nat.le_of_not_lt fun hlower ↦ not_connects_of_lt hlower hupper hconnects)
    · rintro (hus | ⟨-, hlarge⟩)
      · exact .inr ⟨parseTimeStringUs_of_lt hupper, givesUp_of_le hus⟩
      · exact absurd hupper (not_lt.mpr hlarge)
  · have hparsed := parseTimeStringUs_of_le hlarge
    by_cases hunit : time.unit = .microseconds
    · rw [if_pos hunit, int64Max] at hparsed
      constructor
      · rintro (hrejected | ⟨hexact, -⟩)
        · omega
        · omega
      · rintro (hus | ⟨hother, -⟩)
        · omega
        · exact absurd hunit hother
    · rw [if_neg hunit] at hparsed
      exact ⟨fun _ ↦ .inr ⟨hunit, hlarge⟩, fun _ ↦ .inl (by omega)⟩

/-- `4295s`. -/
def seconds4295 : TimeString where
  digits := [0x34, 0x32, 0x39, 0x35]
  blanks := []
  spelling := [0x73]
  unit := .seconds
  run := ⟨by decide, List.all_eq_true.mp (by decide)⟩
  allBlank := List.forall_mem_nil _
  spelled := by decide

/-- `4295s` is accepted, but a busy device is waited for less than that. -/
theorem not_connects_seconds4295 : ¬Connects seconds4295 :=
  not_connects_of_lt (by decide) (by decide)

end Libhoth.Examples.ConnectTimeout
