import Libhoth.Foundation.DecimalText
import Libhoth.Transports.UsbDevice

/-!
# USB locations on the command line

`parse_usb_loc`, `print_device` and `filter_by_usb_loc` of `htool_usb.c`, over
`libhoth_get_usb_loc`. A location is a bus and the ports on the way to a device, which the program
keeps in an array of sixteen bytes. What libusb says of a device is a `LibusbDevice`.

A `UsbPlace` is a location with one to sixteen ports, and `UsbLocText` its grammar: a bus, a dash,
and the ports with dots between them, each number in decimal and below 256. `parseUsbLoc_parses`
says that the parser accepts this grammar and nothing else, and never leaves the array.
`printDevice_round_trips` says that it takes what is printed for a device, and that the filter made
of the result matches the devices at that place.
-/

set_option autoImplicit false
set_option relaxedAutoImplicit false

namespace Libhoth.Examples.UsbLocation

open Foundation.CellMemory Foundation.CheckedAccess Foundation.NumberText Foundation.DecimalText
open Foundation.InteractingProgram
open Transports.UsbDevice (StatusOr UsbDeviceReply)

/-- `LIBHOTH_NUM_PORTS`. -/
def libhothNumPorts : ℕ := 16

/-- `struct libhoth_usb_loc`, with its array. The number of ports is never negative. -/
structure LibhothUsbLoc where
  bus : UInt8
  ports : ℕ → UInt8
  numPorts : ℕ

/-- The location that the struct holds. -/
def LibhothUsbLoc.held (loc : LibhothUsbLoc) : Transports.UsbDevice.LibhothUsbLoc :=
  ⟨loc.bus, load loc.ports 0 loc.numPorts⟩

/-- The bytes of a text. -/
def ascii (text : String) : List UInt8 :=
  text.toList.map fun char ↦ UInt8.ofNat char.toNat

/-- The character `-`. -/
abbrev dash : UInt8 := 0x2D

/-- The character `.`. -/
abbrev dot : UInt8 := 0x2E

/-- The character ` `. -/
abbrev blank : UInt8 := 0x20

/-! ### Parsing -/

/-- The loop of `expect_u8`: the number and the text behind it. -/
def expectU8Loop (sum : UInt32) : List UInt8 → Option (UInt8 × List UInt8)
  | [] => some (sum.toUInt8, [])
  | char :: s =>
    if 0x30 ≤ char ∧ char ≤ 0x39 then
      if 255 < sum * 10 + (char - 0x30).toUInt32 then none
      else expectU8Loop (sum * 10 + (char - 0x30).toUInt32) s
    else some (sum.toUInt8, char :: s)

/-- `expect_u8`. -/
def expectU8 : List UInt8 → Option (UInt8 × List UInt8)
  | [] => none
  | char :: s =>
    if char < 0x30 ∨ 0x39 < char then none else expectU8Loop 0 (char :: s)

/-- The ways in which `parse_usb_loc` fails. -/
inductive UsbLocError
  | noBus
  | endOfString
  | notDash (char : UInt8)
  | tooManyPorts
  | noPort
  | notDot (char : UInt8)

/-- What `parse_usb_loc` writes to the standard error. -/
def UsbLocError.text : UsbLocError → List UInt8
  | .noBus => ascii "unable to parse usb_loc: Expected 8-bit bus number\n"
  | .endOfString => ascii "unable to parse usb_loc: Expected '-' was end-of-string"
  | .notDash char => ascii "unable to parse usb_loc: Expected '-' was '" ++ char :: ascii "'\n"
  | .tooManyPorts => ascii "unable to parse usb_loc: too many ports\n"
  | .noPort => ascii "unable to parse usb_loc: Expected 8-bit port number\n"
  | .notDot char => ascii "unable to parse usb_loc: Expected '.' was '" ++ char :: ascii "'\n"

/-- The loop of `parse_usb_loc`: the error, or `none`, and the location that it leaves. -/
def parsePorts (s : List UInt8) (loc : LibhothUsbLoc) :
    Except Fault (Option UsbLocError × LibhothUsbLoc) :=
  if libhothNumPorts ≤ loc.numPorts then return (some .tooManyPorts, loc)
  else
    match expectU8 s with
    | none => return (some .noPort, loc)
    | some (port, rest) => do
      let ports ← storeWithin libhothNumPorts loc.ports loc.numPorts [port]
      match rest with
      | [] => return (none, ⟨loc.bus, ports, loc.numPorts + 1⟩)
      | char :: rest =>
        if char ≠ dot then
          return (some (.notDot char), ⟨loc.bus, ports, loc.numPorts + 1⟩)
        else parsePorts rest ⟨loc.bus, ports, loc.numPorts + 1⟩
termination_by libhothNumPorts - loc.numPorts

/-- `parse_usb_loc`. It returns -1 for an error, and 0 otherwise. -/
def parseUsbLoc (s : List UInt8) (loc : LibhothUsbLoc) :
    Except Fault (Option UsbLocError × LibhothUsbLoc) :=
  match expectU8 s with
  | none => return (some .noBus, loc)
  | some (bus, []) => return (some .endOfString, { loc with bus := bus })
  | some (bus, char :: s) =>
    if char ≠ dash then return (some (.notDash char), { loc with bus := bus })
    else parsePorts s { loc with bus := bus, numPorts := 0 }

/-! ### Devices -/

/-- What libusb says of a device: its bus number, the ports on the way to it, the outcome of opening
it, and its product. It gives no more ports than it has room for. -/
structure LibusbDevice where
  busNumber : UInt8
  portNumbers : StatusOr (List UInt8)
  opened : StatusOr Unit
  product : StatusOr (List UInt8)
  room : ∀ ports, portNumbers = .ok ports → ports.length ≤ libhothNumPorts

/-- `libhoth_get_usb_loc`: the status and the location that it leaves. -/
def libhothGetUsbLoc (dev : LibusbDevice) (result : LibhothUsbLoc) : ℤ × LibhothUsbLoc :=
  match dev.portNumbers with
  | .failed status _ => (status, { result with bus := dev.busNumber })
  | .ok ports => (0, ⟨dev.busNumber, store result.ports 0 ports, ports.length⟩)

/-- What `print_device` writes for one port. -/
def portText (index : ℕ) (port : UInt8) : List UInt8 :=
  (if index = 0 then [] else [dot]) ++ decimalText port.toNat

/-- What `print_device` writes for the location. -/
def locationText (strerror : ℤ → List UInt8) (located : ℤ × LibhothUsbLoc) :
    Except Fault (List UInt8) :=
  if located.1 ≠ 0 then
    return ascii " (unable to get usb_loc: " ++ strerror located.1 ++ ascii ")"
  else do
    let ports ← loadWithin libhothNumPorts located.2.ports 0 located.2.numPorts
    return ascii "--usb_loc " ++
      (decimalText located.2.bus.toNat ++ dash :: (ports.mapIdx portText).flatten)

/-- What `print_device` writes for the product. -/
def productText (strerror : ℤ → List UInt8) (dev : LibusbDevice) : List UInt8 :=
  match dev.opened with
  | .failed status _ => ascii " (unable to open device: " ++ strerror status ++ ascii ")"
  | .ok _ =>
    match dev.product with
    | .failed status _ =>
      ascii " (unable to get product string: " ++ strerror status ++ ascii ")"
    | .ok product => ascii " - " ++ product.takeWhile (· ≠ 0)

/-- `print_device`: what it writes to the standard error, where `loc` is its variable before. -/
def printDevice (strerror : ℤ → List UInt8) (loc : LibhothUsbLoc) (dev : LibusbDevice) :
    Except Fault (List UInt8) := do
  let location ← locationText strerror (libhothGetUsbLoc dev loc)
  return ascii "  " ++ location ++ productText strerror dev ++ ascii "\n"

/-- `filter_by_usb_loc`, where `deviceLoc` is its variable before. -/
def filterByUsbLoc (desiredLoc deviceLoc : LibhothUsbLoc) (dev : LibusbDevice) :
    Except Fault Bool := do
  let (rv, deviceLoc) := libhothGetUsbLoc dev deviceLoc
  if rv ≠ 0 then return false
  else if deviceLoc.bus ≠ desiredLoc.bus ∨ deviceLoc.numPorts ≠ desiredLoc.numPorts ∨
      libhothNumPorts < deviceLoc.numPorts then return false
  else do
    let first ← loadWithin libhothNumPorts deviceLoc.ports 0 deviceLoc.numPorts
    let second ← loadWithin libhothNumPorts desiredLoc.ports 0 deviceLoc.numPorts
    return decide (first = second)

/-! ### The grammar -/

/-- A run of decimal digits of a byte. -/
def SpellsByte (digits : List UInt8) (value : UInt8) : Prop :=
  Run 10 digits ∧ ofDigits 10 digits = value.toNat

/-- Ports in decimal, with dots between them. -/
inductive PortsText : List UInt8 → List UInt8 → Prop
  | last {digits : List UInt8} {port : UInt8} (hport : SpellsByte digits port) :
    PortsText digits [port]
  | more {digits rest : List UInt8} {port : UInt8} {ports : List UInt8}
    (hport : SpellsByte digits port) (hrest : PortsText rest ports) :
    PortsText (digits ++ dot :: rest) (port :: ports)

/-- A location with one to sixteen ports. -/
structure UsbPlace extends Transports.UsbDevice.LibhothUsbLoc where
  nonempty : ports ≠ []
  room : ports.length ≤ libhothNumPorts

/-- The texts of a place: the bus, a dash, and the ports. -/
def UsbLocText (text : List UInt8) (place : UsbPlace) : Prop :=
  ∃ bus ports, text = bus ++ dash :: ports ∧ SpellsByte bus place.bus ∧
    PortsText ports place.ports

/-! ### A number at the start of a text -/

theorem toUInt8_eq_ofNat (sum : UInt32) : sum.toUInt8 = UInt8.ofNat sum.toNat := by
  rw [← UInt8.toNat_inj, UInt32.toNat_toUInt8, UInt8.toNat_ofNat']

/-- One digit more does not wrap around. -/
theorem toNat_addDigit {sum : UInt32} (hsum : sum.toNat ≤ 255) {char : UInt8}
    (hdigit : isDigit 10 char) :
    (sum * 10 + (char - 0x30).toUInt32).toNat = sum.toNat * 10 + digitValue char := by
  obtain ⟨hlower, hupper⟩ := (isDigit_ten_iff char).mp hdigit
  rw [UInt8.le_iff_toNat_le] at hlower hupper
  rw [digitValue_of_isDigit hdigit, UInt32.toNat_add, UInt32.toNat_mul, UInt8.toNat_toUInt32,
    UInt8.toNat_sub_of_le _ _ (UInt8.le_iff_toNat_le.mpr hlower)]
  simp only [UInt8.reduceToNat, UInt32.reduceToNat] at *
  omega

/-- The loop reads the digits and gives up when their value is too large. -/
theorem expectU8Loop_eq (s : List UInt8) {sum : UInt32} (hsum : sum.toNat ≤ 255) :
    expectU8Loop sum s =
      if ofDigitsFrom 10 sum.toNat (s.takeWhile (isDigit 10)) ≤ 255 then
        some (UInt8.ofNat (ofDigitsFrom 10 sum.toNat (s.takeWhile (isDigit 10))),
          s.dropWhile (isDigit 10))
      else none := by
  induction s generalizing sum with
  | nil =>
    rw [expectU8Loop, toUInt8_eq_ofNat, List.takeWhile_nil, List.dropWhile_nil, ofDigitsFrom_nil,
      if_pos hsum]
  | cons char s ih =>
    by_cases hdigit : isDigit 10 char
    · have hnext := toNat_addDigit hsum hdigit
      rw [expectU8Loop, if_pos ((isDigit_ten_iff char).mp hdigit),
        List.takeWhile_cons_of_pos hdigit, List.dropWhile_cons_of_pos hdigit, ofDigitsFrom_cons,
        ← hnext]
      by_cases hsmall : (sum * 10 + (char - 0x30).toUInt32).toNat ≤ 255
      · rw [if_neg (by rw [UInt32.lt_iff_toNat_lt]; exact not_lt.mpr hsmall), ih hsmall]
      · have hgrow := le_ofDigitsFrom (by decide : 0 < 10)
          (sum * 10 + (char - 0x30).toUInt32).toNat (s.takeWhile (isDigit 10))
        rw [if_pos (by rw [UInt32.lt_iff_toNat_lt]; exact not_le.mp hsmall),
          if_neg (fun hle ↦ hsmall (hgrow.trans hle))]
    · rw [expectU8Loop, if_neg (mt (isDigit_ten_iff char).mpr hdigit),
        List.takeWhile_cons_of_neg hdigit, List.dropWhile_cons_of_neg hdigit, toUInt8_eq_ofNat,
        ofDigitsFrom_nil, if_pos hsum]

theorem lt_or_lt_iff_not_isDigit (char : UInt8) :
    char < 0x30 ∨ 0x39 < char ↔ ¬isDigit 10 char := by
  rw [isDigit_ten_iff, not_and_or, UInt8.not_le, UInt8.not_le]

/-- `expect_u8` reads the digits at the start of a text, which must be there and below 256. -/
theorem expectU8_eq (s : List UInt8) :
    expectU8 s =
      if s.takeWhile (isDigit 10) ≠ [] ∧ ofDigits 10 (s.takeWhile (isDigit 10)) ≤ 255 then
        some (UInt8.ofNat (ofDigits 10 (s.takeWhile (isDigit 10))), s.dropWhile (isDigit 10))
      else none := by
  cases s with
  | nil => rw [expectU8, List.takeWhile_nil, if_neg (fun hsome ↦ hsome.1 rfl)]
  | cons char s =>
    rw [expectU8]
    by_cases hdigit : isDigit 10 char
    · have hsome : (char :: s).takeWhile (isDigit 10) ≠ [] := by
        rw [List.takeWhile_cons_of_pos hdigit]
        exact List.cons_ne_nil _ _
      have hloop := expectU8Loop_eq (char :: s) (show (0 : UInt32).toNat ≤ 255 by decide)
      rw [UInt32.toNat_zero, ofDigitsFrom_zero] at hloop
      rw [if_neg (fun hrange ↦ (lt_or_lt_iff_not_isDigit char).mp hrange hdigit), hloop]
      simp only [ne_eq, hsome, not_false_eq_true, true_and]
    · rw [if_pos ((lt_or_lt_iff_not_isDigit char).mpr hdigit),
        if_neg (fun hsome ↦ hsome.1 (List.takeWhile_cons_of_neg hdigit))]

/-- What `expect_u8` takes spells the number that it returns. -/
theorem spellsByte_of_expectU8 {s rest : List UInt8} {value : UInt8}
    (hexpect : expectU8 s = some (value, rest)) :
    ∃ digits, SpellsByte digits value ∧ s = digits ++ rest := by
  rw [expectU8_eq] at hexpect
  split_ifs at hexpect with htaken
  obtain ⟨hsome, hsmall⟩ := htaken
  obtain ⟨rfl, rfl⟩ := Prod.mk.inj (Option.some.inj hexpect)
  refine ⟨s.takeWhile (isDigit 10), ⟨⟨hsome, fun char hchar ↦ List.mem_takeWhile_imp hchar⟩, ?_⟩,
    List.takeWhile_append_dropWhile.symm⟩
  rw [UInt8.toNat_ofNat', Nat.mod_eq_of_lt (by omega)]

/-- Digits end in front of a character that is none. -/
theorem head_of_not_isDigit {char : UInt8} (hchar : isDigit 10 char = false) (rest : List UInt8) :
    ∀ other ∈ (char :: rest).head?, isDigit 10 other = false := by
  intro other hother
  rw [← Option.some.inj hother]
  exact hchar

/-- A spelled number is taken, up to a character that is no digit. -/
theorem expectU8_of_spellsByte {digits rest : List UInt8} {value : UInt8}
    (hdigits : SpellsByte digits value)
    (hrest : ∀ char ∈ rest.head?, isDigit 10 char = false) :
    expectU8 (digits ++ rest) = some (value, rest) := by
  obtain ⟨hrun, hvalue⟩ := hdigits
  obtain ⟨htake, hdrop⟩ := takeWhile_run hrun hrest
  have hsmall := value.toNat_lt
  rw [expectU8_eq, htake, hdrop, if_pos ⟨hrun.nonempty, by omega⟩, hvalue, UInt8.ofNat_toNat]

/-! ### The parser -/

/-- The struct after more ports were read into it. -/
def LibhothUsbLoc.append (loc : LibhothUsbLoc) (ports : List UInt8) : LibhothUsbLoc :=
  ⟨loc.bus, store loc.ports loc.numPorts ports, loc.numPorts + ports.length⟩

@[simp] theorem append_numPorts (loc : LibhothUsbLoc) (ports : List UInt8) :
    (loc.append ports).numPorts = loc.numPorts + ports.length :=
  rfl

theorem append_append (loc : LibhothUsbLoc) (first second : List UInt8) :
    (loc.append first).append second = loc.append (first ++ second) := by
  simp only [LibhothUsbLoc.append, store_store_append, List.length_append, Nat.add_assoc]

theorem load_append (bus : UInt8) (cells : ℕ → UInt8) (ports : List UInt8) :
    load (LibhothUsbLoc.append ⟨bus, cells, 0⟩ ports).ports 0 ports.length = ports := by
  have hload := load_store cells (show 0 + ports.length ≤ ports.length by omega)
  rwa [List.drop_zero, List.take_length] at hload

/-- A struct without ports holds those that were read into it. -/
theorem held_append (bus : UInt8) (cells : ℕ → UInt8) (ports : List UInt8) :
    (LibhothUsbLoc.append ⟨bus, cells, 0⟩ ports).held = ⟨bus, ports⟩ := by
  rw [LibhothUsbLoc.held, append_numPorts, Nat.zero_add, load_append]
  rfl

/-- The array is read back. -/
theorem loadWithin_append (bus : UInt8) (cells : ℕ → UInt8) {ports : List UInt8}
    (hroom : ports.length ≤ libhothNumPorts) :
    loadWithin libhothNumPorts (LibhothUsbLoc.append ⟨bus, cells, 0⟩ ports).ports 0 ports.length =
      .ok ports := by
  rw [loadWithin_of_le _ (by rw [Nat.zero_add]; exact hroom), load_append]

/-- What the loop does behind a port. -/
def behindPort (rest : List UInt8) (loc : LibhothUsbLoc) :
    Except Fault (Option UsbLocError × LibhothUsbLoc) :=
  match rest with
  | [] => .ok (none, loc)
  | char :: rest => if char ≠ dot then .ok (some (.notDot char), loc) else parsePorts rest loc

/-- One round of the loop, with a port for which there is room. -/
theorem parsePorts_of_port {s rest : List UInt8} {port : UInt8} {loc : LibhothUsbLoc}
    (hroom : loc.numPorts < libhothNumPorts) (hport : expectU8 s = some (port, rest)) :
    parsePorts s loc = behindPort rest (loc.append [port]) := by
  rw [parsePorts, if_neg (by omega), hport]
  dsimp only
  rw [storeWithin_of_le loc.ports (show loc.numPorts + [port].length ≤ libhothNumPorts from hroom),
    ok_bind]
  rfl

/-- The loop never leaves the array, and what it takes are the ports that it reads. -/
theorem parsePorts_ok (s : List UInt8) (loc : LibhothUsbLoc) :
    ∃ error final, parsePorts s loc = .ok (error, final) ∧ (error = none →
      ∃ ports, PortsText s ports ∧ loc.numPorts + ports.length ≤ libhothNumPorts ∧
        final = loc.append ports) := by
  induction hleft : libhothNumPorts - loc.numPorts generalizing s loc with
  | zero =>
    rw [parsePorts, if_pos (by omega)]
    exact ⟨_, _, rfl, fun herror ↦ absurd herror (Option.some_ne_none _)⟩
  | succ left ih =>
    have hroom : loc.numPorts < libhothNumPorts := by omega
    cases hport : expectU8 s with
    | none =>
      rw [parsePorts, if_neg (by omega), hport]
      exact ⟨_, _, rfl, fun herror ↦ absurd herror (Option.some_ne_none _)⟩
    | some taken =>
      obtain ⟨port, rest⟩ := taken
      obtain ⟨digits, hdigits, rfl⟩ := spellsByte_of_expectU8 hport
      rw [parsePorts_of_port hroom hport]
      cases rest with
      | nil =>
        rw [List.append_nil]
        exact ⟨_, _, rfl, fun _ ↦ ⟨[port], .last hdigits, hroom, rfl⟩⟩
      | cons char rest =>
        unfold behindPort
        dsimp only
        split_ifs with hdot
        · exact ⟨_, _, rfl, fun herror ↦ absurd herror (Option.some_ne_none _)⟩
        · obtain rfl := not_not.mp hdot
          have hfewer : libhothNumPorts - (loc.append [port]).numPorts = left := by
            rw [append_numPorts, List.length_singleton]
            omega
          obtain ⟨error, final, hparse, htaken⟩ := ih rest (loc.append [port]) hfewer
          refine ⟨error, final, hparse, fun herror ↦ ?_⟩
          obtain ⟨ports, hports, hcount, hfinal⟩ := htaken herror
          rw [append_numPorts, List.length_singleton] at hcount
          refine ⟨port :: ports, .more hdigits hports, ?_, ?_⟩
          · rw [List.length_cons]
            omega
          · rw [hfinal, append_append, List.singleton_append]

/-- The loop takes ports for which there is room. -/
theorem parsePorts_of_portsText {s ports : List UInt8} (hports : PortsText s ports)
    (loc : LibhothUsbLoc) (hroom : loc.numPorts + ports.length ≤ libhothNumPorts) :
    parsePorts s loc = .ok (none, loc.append ports) := by
  induction hports generalizing loc with
  | last hport =>
    rw [List.length_singleton] at hroom
    have hexpect := expectU8_of_spellsByte hport
      (show ∀ char ∈ ([] : List UInt8).head?, isDigit 10 char = false by simp)
    rw [List.append_nil] at hexpect
    exact parsePorts_of_port (by omega) hexpect
  | @more digits rest port ports hport _ ih =>
    rw [List.length_cons] at hroom
    have hexpect := expectU8_of_spellsByte hport
      (head_of_not_isDigit (show isDigit 10 dot = false by decide) rest)
    have hrest : (loc.append [port]).numPorts + ports.length ≤ libhothNumPorts := by
      rw [append_numPorts, List.length_singleton]
      omega
    rw [parsePorts_of_port (by omega) hexpect, behindPort, if_neg (not_not.mpr rfl), ih _ hrest,
      append_append, List.singleton_append]

/-- There is always a port. -/
theorem PortsText.ne_nil {s ports : List UInt8} (hports : PortsText s ports) : ports ≠ [] := by
  cases hports with
  | last hport => exact List.cons_ne_nil _ _
  | more hport hrest => exact List.cons_ne_nil _ _

/-- The parser never leaves the array, and it takes only texts of places. -/
theorem parseUsbLoc_ok (text : List UInt8) (loc : LibhothUsbLoc) :
    ∃ error final, parseUsbLoc text loc = .ok (error, final) ∧
      (error = none → ∃ place, UsbLocText text place) := by
  unfold parseUsbLoc
  cases hbus : expectU8 text with
  | none => exact ⟨_, _, rfl, fun herror ↦ absurd herror (Option.some_ne_none _)⟩
  | some taken =>
    obtain ⟨bus, rest⟩ := taken
    obtain ⟨digits, hdigits, rfl⟩ := spellsByte_of_expectU8 hbus
    cases rest with
    | nil => exact ⟨_, _, rfl, fun herror ↦ absurd herror (Option.some_ne_none _)⟩
    | cons char rest =>
      dsimp only
      split_ifs with hdash
      · exact ⟨_, _, rfl, fun herror ↦ absurd herror (Option.some_ne_none _)⟩
      · obtain rfl := not_not.mp hdash
        obtain ⟨error, final, hparse, htaken⟩ := parsePorts_ok rest ⟨bus, loc.ports, 0⟩
        refine ⟨error, final, hparse, fun herror ↦ ?_⟩
        obtain ⟨ports, hports, hcount, -⟩ := htaken herror
        rw [Nat.zero_add] at hcount
        exact ⟨⟨⟨bus, ports⟩, hports.ne_nil, hcount⟩, digits, rest, rfl, hdigits, hports⟩

/-- The text of a place is taken, and the struct then holds the place. -/
theorem parseUsbLoc_of_text {text : List UInt8} {place : UsbPlace}
    (htext : UsbLocText text place) (loc : LibhothUsbLoc) :
    ∃ final, parseUsbLoc text loc = .ok (none, final) ∧ final.held = place.toLibhothUsbLoc := by
  obtain ⟨bus, ports, rfl, hbus, hports⟩ := htext
  have hexpect := expectU8_of_spellsByte hbus
    (head_of_not_isDigit (show isDigit 10 dash = false by decide) ports)
  have hparse := parsePorts_of_portsText hports ⟨place.bus, loc.ports, 0⟩
    (by rw [Nat.zero_add]; exact place.room)
  refine ⟨_, ?_, held_append place.bus loc.ports place.ports⟩
  unfold parseUsbLoc
  rw [hexpect]
  dsimp only
  rw [if_neg (not_not.mpr rfl), hparse]

/-- The parser takes a text exactly when it is the text of a place, which the struct then holds, and
it never writes outside the array. -/
def Parses (text : List UInt8) (loc : LibhothUsbLoc) : Prop :=
  ∃ error final, parseUsbLoc text loc = .ok (error, final) ∧
    (error = none ↔ ∃ place, UsbLocText text place) ∧
    ∀ place, UsbLocText text place → final.held = place.toLibhothUsbLoc

theorem parseUsbLoc_parses (text : List UInt8) (loc : LibhothUsbLoc) : Parses text loc := by
  obtain ⟨error, final, hparse, htaken⟩ := parseUsbLoc_ok text loc
  have hheld (place : UsbPlace) (htext : UsbLocText text place) :
      error = none ∧ final.held = place.toLibhothUsbLoc := by
    obtain ⟨other, hother, hplace⟩ := parseUsbLoc_of_text htext loc
    obtain ⟨rfl, rfl⟩ := Prod.mk.inj (Except.ok.inj (hparse.symm.trans hother))
    exact ⟨rfl, hplace⟩
  exact ⟨error, final, hparse, ⟨htaken, fun ⟨place, htext⟩ ↦ (hheld place htext).1⟩,
    fun place htext ↦ (hheld place htext).2⟩

/-! ### What is printed for a device -/

/-- The device is at a place. -/
def LibusbDevice.IsAt (dev : LibusbDevice) (place : UsbPlace) : Prop :=
  dev.busNumber = place.bus ∧ dev.portNumbers = .ok place.ports

/-- How a device answers the requests of the transport for its location. -/
def answering (dev : LibusbDevice) : Environment UsbDeviceReply Unit :=
  fun _ call reply _ ↦
    match call, reply with
    | .getBusNumber _, bus => bus = dev.busNumber
    | .getPortNumbers _, ports => ports = dev.portNumbers
    | _, _ => True

/-- The ports on the way to a device are stored as the parser stores those that it reads. -/
theorem libhothGetUsbLoc_of_ok {dev : LibusbDevice} {ports : List UInt8}
    (hports : dev.portNumbers = .ok ports) (result : LibhothUsbLoc) :
    libhothGetUsbLoc dev result =
      (0, LibhothUsbLoc.append ⟨dev.busNumber, result.ports, 0⟩ ports) := by
  rw [libhothGetUsbLoc, hports]
  dsimp only
  rw [LibhothUsbLoc.append, Nat.zero_add]

/-- The transport's own `libhoth_get_usb_loc` gives the location that the struct holds. -/
theorem libhothGetUsbLoc_refines (dev : LibusbDevice) (device : ℕ) (result : LibhothUsbLoc) :
    Ensures (answering dev) (Transports.UsbDevice.libhothGetUsbLoc device result.held) ()
      fun outcome _ ↦ outcome.1 = (libhothGetUsbLoc dev result).1 ∧
        outcome.2 = (libhothGetUsbLoc dev result).2.held := by
  unfold Transports.UsbDevice.libhothGetUsbLoc
  rw [ensures_bind, ensures_request]
  rintro bus _ rfl
  rw [ensures_bind, ensures_request]
  rintro ports _ hports
  cases ports with
  | failed status hstatus =>
    rw [libhothGetUsbLoc, ← hports]
    exact (ensures_done _ _ _).mpr ⟨rfl, rfl⟩
  | ok ports =>
    rw [libhothGetUsbLoc_of_ok hports.symm, held_append]
    exact (ensures_done _ _ _).mpr ⟨rfl, rfl⟩

/-- A printed byte is spelled. -/
theorem spellsByte_decimalText (value : UInt8) : SpellsByte (decimalText value.toNat) value :=
  ⟨run_decimalText _, ofDigits_decimalText _⟩

/-- Every port but the first has a dot in front. -/
theorem flatten_mapIdx_succ {ports : List UInt8} (hports : ports ≠ []) :
    (ports.mapIdx fun index ↦ portText (index + 1)).flatten =
      dot :: (ports.mapIdx portText).flatten := by
  obtain ⟨port, rest, rfl⟩ := List.exists_cons_of_ne_nil hports
  rw [List.mapIdx_cons, List.mapIdx_cons, List.flatten_cons, List.flatten_cons]
  rfl

/-- The printed ports are their text. -/
theorem portsText_flatten {ports : List UInt8} (hports : ports ≠ []) :
    PortsText (ports.mapIdx portText).flatten ports := by
  induction ports with
  | nil => exact absurd rfl hports
  | cons port ports ih =>
    rw [List.mapIdx_cons, List.flatten_cons, portText, if_pos rfl, List.nil_append]
    cases ports with
    | nil =>
      rw [List.mapIdx_nil, List.flatten_nil, List.append_nil]
      exact .last (spellsByte_decimalText port)
    | cons next rest =>
      rw [flatten_mapIdx_succ (List.cons_ne_nil next rest)]
      exact .more (spellsByte_decimalText port) (ih (List.cons_ne_nil next rest))

theorem blank_not_mem_of_spellsByte {digits : List UInt8} {value : UInt8}
    (hdigits : SpellsByte digits value) : blank ∉ digits :=
  fun hblank ↦ absurd (hdigits.1.digits blank hblank) (by decide)

/-- There is no blank in the text of ports. -/
theorem PortsText.blank_not_mem {text ports : List UInt8} (hports : PortsText text ports) :
    blank ∉ text := by
  induction hports with
  | last hport => exact blank_not_mem_of_spellsByte hport
  | more hport _ ih =>
    rintro hblank
    rcases List.mem_append.mp hblank with hfront | hrest
    · exact blank_not_mem_of_spellsByte hport hfront
    · exact ih ((List.mem_cons.mp hrest).resolve_left (by decide))

/-- There is no blank in the text of a place. -/
theorem blank_not_mem_of_usbLocText {text : List UInt8} {place : UsbPlace}
    (htext : UsbLocText text place) : blank ∉ text := by
  obtain ⟨bus, ports, rfl, hbus, hports⟩ := htext
  intro hblank
  rcases List.mem_append.mp hblank with hfront | hrest
  · exact blank_not_mem_of_spellsByte hbus hfront
  · exact hports.blank_not_mem ((List.mem_cons.mp hrest).resolve_left (by decide))

/-- What follows the location begins with a blank. -/
theorem exists_productText (strerror : ℤ → List UInt8) (dev : LibusbDevice) :
    ∃ rest, productText strerror dev = blank :: rest := by
  unfold productText
  split
  · exact ⟨_, rfl⟩
  · split
    · exact ⟨_, rfl⟩
    · exact ⟨_, rfl⟩

theorem locationText_append (strerror : ℤ → List UInt8) (bus : UInt8) (cells : ℕ → UInt8)
    {ports : List UInt8} (hroom : ports.length ≤ libhothNumPorts) :
    locationText strerror (0, LibhothUsbLoc.append ⟨bus, cells, 0⟩ ports) =
      .ok (ascii "--usb_loc " ++
        (decimalText bus.toNat ++ dash :: (ports.mapIdx portText).flatten)) := by
  rw [locationText, if_neg (not_not.mpr rfl), append_numPorts, Nat.zero_add,
    loadWithin_append bus cells hroom, ok_bind]
  rfl

/-- What is printed for a device at a place is a text of the place, up to the next blank. -/
theorem printDevice_of_isAt {dev : LibusbDevice} {place : UsbPlace} (hat : dev.IsAt place)
    (strerror : ℤ → List UInt8) (loc : LibhothUsbLoc) :
    ∃ shown rest, printDevice strerror loc dev =
        .ok (ascii "  " ++ (ascii "--usb_loc " ++ shown) ++ blank :: rest) ∧
      UsbLocText shown place := by
  obtain ⟨hbus, hports⟩ := hat
  obtain ⟨rest, hrest⟩ := exists_productText strerror dev
  refine ⟨decimalText place.bus.toNat ++ dash :: (place.ports.mapIdx portText).flatten,
    rest ++ ascii "\n", ?_, _, _, rfl, spellsByte_decimalText _,
    portsText_flatten place.nonempty⟩
  rw [printDevice, libhothGetUsbLoc_of_ok hports, locationText_append strerror _ _ place.room,
    ok_bind, hrest, hbus, pure_eq_ok, List.append_assoc _ (blank :: rest), List.cons_append]

/-! ### The filter -/

/-- A device without a location is not matched. -/
theorem filterByUsbLoc_of_failed (desired scratch : LibhothUsbLoc) {dev : LibusbDevice} {status : ℤ}
    {nonzero : status ≠ 0} (hports : dev.portNumbers = .failed status nonzero) :
    filterByUsbLoc desired scratch dev = .ok false := by
  rw [filterByUsbLoc, libhothGetUsbLoc, hports]
  exact if_pos nonzero

/-- A device with a location is matched when the struct holds the same. -/
theorem filterByUsbLoc_of_ok (desired scratch : LibhothUsbLoc) {dev : LibusbDevice}
    {ports : List UInt8} (hports : dev.portNumbers = .ok ports) :
    ∃ found, filterByUsbLoc desired scratch dev = .ok found ∧
      (found ↔ desired.held = ⟨dev.busNumber, ports⟩) := by
  have hroom := dev.room ports hports
  have hheld : desired.held = ⟨dev.busNumber, ports⟩ ↔
      desired.bus = dev.busNumber ∧ load desired.ports 0 desired.numPorts = ports := by
    rw [LibhothUsbLoc.held, Transports.UsbDevice.LibhothUsbLoc.mk.injEq]
  rw [hheld, filterByUsbLoc, libhothGetUsbLoc_of_ok hports]
  dsimp only
  rw [if_neg (not_not.mpr rfl), append_numPorts, Nat.zero_add]
  split_ifs with hother
  · refine ⟨false, rfl, iff_of_false Bool.false_ne_true ?_⟩
    rintro ⟨hbus, hload⟩
    have hcount : desired.numPorts = ports.length := by rw [← hload, length_load]
    rcases hother with hother | hother | hother
    · exact hother hbus.symm
    · exact hother hcount.symm
    · omega
  · obtain ⟨hother, hrest⟩ := not_or.mp hother
    have hbus : desired.bus = dev.busNumber := (not_not.mp hother).symm
    have hcount : ports.length = desired.numPorts := not_not.mp (not_or.mp hrest).1
    have hsecond : loadWithin libhothNumPorts desired.ports 0 ports.length =
        .ok (load desired.ports 0 desired.numPorts) := by
      rw [loadWithin_of_le _ (by rw [Nat.zero_add]; exact hroom), hcount]
    rw [loadWithin_append _ _ hroom, hsecond, ok_bind, ok_bind]
    refine ⟨_, rfl, ?_⟩
    rw [decide_eq_true_iff, and_iff_right hbus, eq_comm]

/-- The filter matches the devices at the place that the struct holds. -/
theorem filterByUsbLoc_of_held {desired : LibhothUsbLoc} {place : UsbPlace}
    (hheld : desired.held = place.toLibhothUsbLoc) (scratch : LibhothUsbLoc) (dev : LibusbDevice) :
    ∃ found, filterByUsbLoc desired scratch dev = .ok found ∧ (found ↔ dev.IsAt place) := by
  cases hports : dev.portNumbers with
  | failed status nonzero =>
    refine ⟨false, filterByUsbLoc_of_failed _ _ hports, iff_of_false Bool.false_ne_true ?_⟩
    rintro ⟨-, hplace⟩
    rw [hports] at hplace
    cases hplace
  | ok ports =>
    obtain ⟨found, hfilter, hfound⟩ := filterByUsbLoc_of_ok desired scratch hports
    refine ⟨found, hfilter, hfound.trans ?_⟩
    have hplace : place.toLibhothUsbLoc = ⟨dev.busNumber, ports⟩ ↔
        place.bus = dev.busNumber ∧ place.ports = ports :=
      iff_of_eq (Transports.UsbDevice.LibhothUsbLoc.mk.injEq _ _ _ _)
    rw [hheld, hplace, LibusbDevice.IsAt, hports, StatusOr.ok.injEq]
    exact and_congr eq_comm eq_comm

/-! ### The round trip -/

/-- What is printed for a device at a place, up to the next blank, is taken by the parser, and the
filter made of it matches exactly the devices at that place. -/
def RoundTrips (place : UsbPlace) : Prop :=
  ∀ strerror printing dev, dev.IsAt place →
    ∃ shown rest, printDevice strerror printing dev =
        .ok (ascii "  " ++ (ascii "--usb_loc " ++ shown) ++ blank :: rest) ∧ blank ∉ shown ∧
      ∀ loc, ∃ final, parseUsbLoc shown loc = .ok (none, final) ∧
        ∀ scratch other, ∃ found, filterByUsbLoc final scratch other = .ok found ∧
          (found ↔ other.IsAt place)

theorem printDevice_round_trips (place : UsbPlace) : RoundTrips place := by
  intro strerror printing dev hat
  obtain ⟨shown, rest, hprint, htext⟩ := printDevice_of_isAt hat strerror printing
  refine ⟨shown, rest, hprint, blank_not_mem_of_usbLocText htext, fun loc ↦ ?_⟩
  obtain ⟨final, hparse, hheld⟩ := parseUsbLoc_of_text htext loc
  exact ⟨final, hparse, fun scratch other ↦ filterByUsbLoc_of_held hheld scratch other⟩

/-- The parser takes exactly the texts of places, and it inverts the printer for every place. -/
theorem usbLocation_exact :
    (∀ text loc, Parses text loc) ∧ ∀ place, RoundTrips place :=
  ⟨parseUsbLoc_parses, printDevice_round_trips⟩

/-- A port behind two hubs on the twelfth bus. -/
def behindTwoHubs : UsbPlace :=
  ⟨⟨12, [3, 4, 255]⟩, List.cons_ne_nil _ _, by decide⟩

/-- A device there. -/
def deviceBehindTwoHubs : LibusbDevice where
  busNumber := 12
  portNumbers := .ok [3, 4, 255]
  opened := .ok ()
  product := .ok []
  room := by
    rintro _ ⟨rfl⟩
    decide

/-- The location of the device is printed and read back. -/
theorem usbLocation_exact_behind_hubs :
    ∃ shown rest, printDevice (fun _ ↦ []) ⟨0, fun _ ↦ 0, 0⟩ deviceBehindTwoHubs =
        .ok (ascii "  " ++ (ascii "--usb_loc " ++ shown) ++ blank :: rest) ∧ blank ∉ shown ∧
      ∀ loc, ∃ final, parseUsbLoc shown loc = .ok (none, final) ∧
        ∀ scratch other, ∃ found, filterByUsbLoc final scratch other = .ok found ∧
          (found ↔ other.IsAt behindTwoHubs) :=
  usbLocation_exact.2 behindTwoHubs _ _ deviceBehindTwoHubs ⟨rfl, rfl⟩

end Libhoth.Examples.UsbLocation
