import Libhoth.Protocol.I2c

/-!
# Scanning the I2C bus with the tool

`i2c_detect` of `htool_i2c.c`. The tool has a list of 128 entries on its stack, lets the library
fill it from the mask of the reply, and prints as many entries as the reply counts.

`ShowsStored` is what it owes its user: the list has the marked addresses, and nothing is printed
but entries that were stored in this call. `showsStored_iff` says in which runs that is so: those in
which the reply does not count more devices than it marks.
-/

set_option autoImplicit false
set_option relaxedAutoImplicit false

namespace Libhoth.Examples.HtoolI2c

open Foundation.CellMemory Foundation.CheckedAccess Foundation.InteractingProgram
open Protocol.Status Protocol.HostCommand Protocol.HostCommandProgram Protocol.I2c

/-! ### The program -/

/-- What the I2C commands of the tool ask of the world around them. One of the calls is the contents
of an object before it is written. -/
inductive I2cCall
  | hostcmdExec (call : HostCommand)
  | unwritten
  | reportError (cmd : String) (err : LibhothError)
  | printf (text : String)
  | fprintf (text : String)
  | printEntry (value : UInt8)

/-- The replies: the reply to a host command, and the contents of an object. -/
abbrev I2cReply : I2cCall → Type
  | .hostcmdExec call => HostReply call
  | .unwritten => ℕ → UInt8
  | .reportError _ _ => Unit
  | .printf _ => Unit
  | .fprintf _ => Unit
  | .printEntry _ => Unit

/-- Programs of the I2C commands. -/
abbrev I2cProgram := Interaction I2cReply

/-- The history of a run of such a command. -/
abbrev I2cHistory := List (Exchange I2cReply)

/-- A program over host commands as part of a command. -/
def onDevice {α : Type} (program : HostProgram α) : I2cProgram α :=
  interpret (fun call ↦ request (I2cCall.hostcmdExec call)) program

/-- The parameters of the command, each as its lookup returns it. -/
structure I2cDetectParams where
  bus : Option UInt32
  startAddr : Option UInt32
  endAddr : Option UInt32

/-- One round of the loop that prints the entries. -/
def printRound (deviceList : ℕ → UInt8) (devicesCount i : ℕ) :
    I2cProgram ({next : ℕ // devicesCount - next < devicesCount - i} ⊕ Except Fault Unit) :=
  if hmore : i < devicesCount then
    match loadWithin i2cDetectMaxDevices deviceList i 1 with
    | .error fault => return .inr (.error fault)
    | .ok value => do
      let _ ← request (I2cCall.printEntry (value.headD 0))
      return .inl ⟨i + 1, Nat.sub_succ_lt_self _ _ hmore⟩
  else return .inr (.ok ())

/-- The part of `i2c_detect` that lists the devices. -/
def listDevices (response : HothResponseI2cDetect) : I2cProgram (Except Fault ℤ) := do
  let unwritten ← request I2cCall.unwritten
  match libhothI2cDeviceList response.devicesMask response.devicesCount.toUInt32
    i2cDetectMaxDevices unwritten with
  | .error fault => return .error fault
  | .ok deviceList =>
    match ← whileDecreasing (fun i ↦ response.devicesCount.toNat - i)
      (printRound deviceList response.devicesCount.toNat) 0 with
    | .error fault => return .error fault
    | .ok _ =>
      let _ ← request (I2cCall.printf "\n")
      return .ok 0

/-- The part of `i2c_detect` behind a successful host command. -/
def showDevices (response : HothResponseI2cDetect) : I2cProgram (Except Fault ℤ) := do
  let _ ← request (I2cCall.printf s!"Detected {response.devicesCount} devices on bus.\n")
  if response.devicesCount ≠ 0 then listDevices response else return .ok 0

/-- The part of `i2c_detect` behind the host command. -/
def showScan : Except LibhothError HothResponseI2cDetect → I2cProgram (Except Fault ℤ)
  | .error err => do
    let _ ← request (I2cCall.reportError "i2c_detect" err)
    return .ok (-1)
  | .ok response => showDevices response

/-- The request of `i2c_detect`. -/
def detectRequest (bus startAddr endAddr : UInt32) (padding : UInt8) : HothRequestI2cDetect where
  busNumber := (bus &&& 0xFF).toUInt8
  startAddress := (startAddr &&& 0x7F).toUInt8
  endAddress := (endAddr &&& 0x7F).toUInt8
  padding := padding

/-- `i2c_detect`. -/
def i2cDetect (params : I2cDetectParams) : I2cProgram (Except Fault ℤ) :=
  match params.bus, params.startAddr, params.endAddr with
  | some bus, some startAddr, some endAddr => do
    let unwritten ← request I2cCall.unwritten
    showScan (← onDevice (libhothI2cDetect
      (detectRequest bus startAddr endAddr (unwritten 0))))
  | _, _, _ => return .ok (-1)

/-! ### What the command shows -/

/-- The exchange with the device that an exchange of a command is. -/
def hostExchange : Exchange I2cReply → Option (Exchange HostReply)
  | ⟨.hostcmdExec call, reply⟩ => some ⟨call, reply⟩
  | _ => none

/-- The exchanges with the device. -/
def hostHistory (history : I2cHistory) : HostHistory :=
  history.filterMap hostExchange

/-- The scan that an exchange with the device delivers. -/
def deliveredScan (exchange : Exchange HostReply) : Option HothResponseI2cDetect :=
  (wholeReply exchange.2).toOption.map HothResponseI2cDetect.decode

/-- The scans that the device delivers. -/
def scans (history : I2cHistory) : List HothResponseI2cDetect :=
  (hostHistory history).filterMap deliveredScan

/-- The entry that an exchange prints. -/
def printedEntry : Exchange I2cReply → Option UInt8
  | ⟨.printEntry value, _⟩ => some value
  | _ => none

/-- The entries that are printed, in order. -/
def printedEntries (history : I2cHistory) : List UInt8 :=
  history.filterMap printedEntry

/-- The entries of the list for a mask and a count: the first marked addresses. -/
def listedEntries (devicesMask : List UInt8) (devicesCount : ℕ) : List UInt8 :=
  entriesOf ((markedAddresses devicesMask).take devicesCount)

/-- The entries that are stored for a scan. -/
def storedEntries (response : HothResponseI2cDetect) : List UInt8 :=
  listedEntries response.devicesMask response.devicesCount.toNat

/-- For every scan of the run the library lists the first marked addresses, however many are wanted,
and the command stays inside its list and prints only entries that were stored in this call. -/
structure ShowsStored (result : Except Fault ℤ) (history : I2cHistory) : Prop where
  listed : ∀ response ∈ scans history, ∀ (devicesCount : UInt32) (deviceList : ℕ → UInt8),
    libhothI2cDeviceList response.devicesMask devicesCount i2cDetectMaxDevices deviceList =
      .ok (store deviceList 0 (listedEntries response.devicesMask devicesCount.toNat))
  inside : ∃ status, result = .ok status
  stored : printedEntries history <+: (scans history).flatMap storedEntries

/-- The scan counts no more devices than it marks. -/
def CountsMarked (response : HothResponseI2cDetect) : Prop :=
  response.devicesCount.toNat ≤ (markedAddresses response.devicesMask).length

@[simp] theorem hostHistory_append (first second : I2cHistory) :
    hostHistory (first ++ second) = hostHistory first ++ hostHistory second :=
  List.filterMap_append

@[simp] theorem scans_append (first second : I2cHistory) :
    scans (first ++ second) = scans first ++ scans second := by
  rw [scans, hostHistory_append, List.filterMap_append]
  rfl

@[simp] theorem printedEntries_append (first second : I2cHistory) :
    printedEntries (first ++ second) = printedEntries first ++ printedEntries second :=
  List.filterMap_append

/-- With all its parameters the command asks the device once. -/
theorem i2cDetect_eq (bus startAddr endAddr : UInt32) :
    i2cDetect ⟨some bus, some startAddr, some endAddr⟩ =
      request I2cCall.unwritten >>= fun unwritten ↦
        request (I2cCall.hostcmdExec (detectRequest bus startAddr endAddr (unwritten 0)).call) >>=
          fun reply ↦ showScan ((wholeReply reply).map HothResponseI2cDetect.decode) :=
  rfl

/-! ### Printing the entries -/

/-- Some entries were printed, and the device was not asked. -/
def Printed (past : I2cHistory) (entries : List UInt8) (history : I2cHistory) : Prop :=
  ∃ after, history = past ++ after ∧ hostHistory after = [] ∧ printedEntries after = entries

theorem Printed.nil (past : I2cHistory) : Printed past [] past :=
  ⟨[], (List.append_nil _).symm, rfl, rfl⟩

theorem Printed.snoc {past history : I2cHistory} {entries : List UInt8}
    (hprinted : Printed past entries history) {rest : I2cHistory} (hhost : hostHistory rest = []) :
    Printed past (entries ++ printedEntries rest) (history ++ rest) := by
  obtain ⟨after, rfl, hafter, rfl⟩ := hprinted
  exact ⟨after ++ rest, List.append_assoc _ _ _, by rw [hostHistory_append, hafter, hhost]; rfl,
    printedEntries_append _ _⟩

/-- The loop that prints the entries: some of them were printed. -/
structure PrintProgress (deviceList : ℕ → UInt8) (devicesCount : ℕ) (past : I2cHistory) (i : ℕ)
    (history : I2cHistory) : Prop where
  bound : i ≤ devicesCount
  inside : i ≤ i2cDetectMaxDevices
  printed : Printed past (load deviceList 0 i) history

/-- How the loop ends: with all entries, or at the end of the list. -/
structure PrintEnd (deviceList : ℕ → UInt8) (devicesCount : ℕ) (past : I2cHistory)
    (result : Except Fault Unit) (history : I2cHistory) : Prop where
  quiet : ∃ entries, Printed past entries history
  inside : devicesCount ≤ i2cDetectMaxDevices →
    result = .ok () ∧ Printed past (load deviceList 0 devicesCount) history
  beyond : i2cDetectMaxDevices < devicesCount → ∃ fault, result = .error fault

theorem printRound_ensures {deviceList : ℕ → UInt8} {devicesCount i : ℕ}
    {past history : I2cHistory} (hprogress : PrintProgress deviceList devicesCount past i history) :
    Ensures recording (printRound deviceList devicesCount i) history fun outcome final ↦
      match outcome with
      | .inl next => PrintProgress deviceList devicesCount past next.val final
      | .inr result => PrintEnd deviceList devicesCount past result final := by
  obtain ⟨hbound, hinside, hprinted⟩ := hprogress
  unfold printRound
  by_cases hmore : i < devicesCount
  · rw [dif_pos hmore]
    by_cases hroom : i < i2cDetectMaxDevices
    · rw [loadWithin_of_le deviceList (show i + 1 ≤ i2cDetectMaxDevices from hroom)]
      dsimp only
      rw [ensures_bind, ensures_request]
      rintro _ _ rfl
      refine (ensures_done _ _ _).mpr ⟨hmore, hroom, ?_⟩
      rw [load_add, Nat.zero_add]
      exact hprinted.snoc rfl
    · rw [loadWithin, if_neg (by omega)]
      exact (ensures_done _ _ _).mpr ⟨⟨_, hprinted⟩, fun hall ↦ absurd hall (by omega),
        fun _ ↦ ⟨_, rfl⟩⟩
  · rw [dif_neg hmore]
    obtain rfl : i = devicesCount := by omega
    exact (ensures_done _ _ _).mpr ⟨⟨_, hprinted⟩, fun _ ↦ ⟨rfl, hprinted⟩,
      fun hbeyond ↦ absurd hbeyond (by omega)⟩

/-- The loop over the entries. -/
theorem printEntries_ensures (deviceList : ℕ → UInt8) (devicesCount : ℕ) (past : I2cHistory) :
    Ensures recording
      (whileDecreasing (fun i ↦ devicesCount - i) (printRound deviceList devicesCount) 0) past
      (PrintEnd deviceList devicesCount past) := by
  refine whileDecreasing_ensures (PrintProgress deviceList devicesCount past)
    (fun i history hprogress ↦ ?_) 0 past ⟨Nat.zero_le _, Nat.zero_le _, Printed.nil past⟩
  refine (printRound_ensures hprogress).mono fun outcome final hround ↦ ?_
  cases outcome <;> exact hround

/-! ### The runs of the command -/

/-- The library lists the first marked addresses, however many are wanted. -/
theorem libhothI2cDeviceList_listed (response : HothResponseI2cDetect) (devicesCount : UInt32)
    (deviceList : ℕ → UInt8) :
    libhothI2cDeviceList response.devicesMask devicesCount i2cDetectMaxDevices deviceList =
      .ok (store deviceList 0 (listedEntries response.devicesMask devicesCount.toNat)) :=
  libhothI2cDeviceList_eq response.maskSize
    ((Nat.min_le_right _ _).trans (length_markedAddresses_le _))

/-- What is printed behind something that asks the device nothing and prints no entry. -/
theorem Printed.of_append {past rest history : I2cHistory} {entries : List UInt8}
    (hprinted : Printed (past ++ rest) entries history) (hhost : hostHistory rest = [])
    (hentries : printedEntries rest = []) : Printed past entries history := by
  obtain ⟨after, rfl, hafter, rfl⟩ := hprinted
  exact ⟨rest ++ after, List.append_assoc _ _ _, by rw [hostHistory_append, hhost, hafter]; rfl,
    by rw [printedEntries_append, hentries]; rfl⟩

/-- What the command prints of a list with the entries of a scan. -/
structure ShowEnd (response : HothResponseI2cDetect) (past : I2cHistory) (result : Except Fault ℤ)
    (history : I2cHistory) : Prop where
  quiet : ∃ entries, Printed past entries history
  inside : response.devicesCount.toNat ≤ i2cDetectMaxDevices → (∃ status, result = .ok status) ∧
    ∃ deviceList, Printed past (load (store deviceList 0 (storedEntries response)) 0
      response.devicesCount.toNat) history
  beyond : i2cDetectMaxDevices < response.devicesCount.toNat → ∃ fault, result = .error fault

/-- Listing the devices. -/
theorem listDevices_ensures (response : HothResponseI2cDetect) (past : I2cHistory) :
    Ensures recording (listDevices response) past (ShowEnd response past) := by
  unfold listDevices
  rw [ensures_bind, ensures_request]
  rintro unwritten _ rfl
  rw [libhothI2cDeviceList_listed, UInt8.toNat_toUInt32]
  dsimp only
  rw [ensures_bind]
  refine (printEntries_ensures _ _ _).mono ?_
  rintro result history ⟨⟨entries, hquiet⟩, hinside, hbeyond⟩
  cases result with
  | error fault =>
    refine (ensures_done _ _ _).mpr ⟨⟨entries, hquiet.of_append rfl rfl⟩, fun hcount ↦ ?_,
      fun _ ↦ ⟨fault, rfl⟩⟩
    exact absurd (hinside hcount).1 (by simp)
  | ok value =>
    dsimp only
    rw [ensures_bind, ensures_request]
    rintro _ _ rfl
    refine (ensures_done _ _ _).mpr ⟨⟨_, (hquiet.snoc rfl).of_append rfl rfl⟩,
      fun hcount ↦ ⟨⟨0, rfl⟩, unwritten, ?_⟩, fun hover ↦ ?_⟩
    · have hentries := ((hinside hcount).2.snoc
        (show hostHistory [⟨.printf "\n", ()⟩] = [] from rfl)).of_append rfl rfl
      rwa [show printedEntries [⟨.printf "\n", ()⟩] = [] from rfl, List.append_nil] at hentries
    · obtain ⟨fault, hfault⟩ := hbeyond hover
      exact absurd hfault (by simp)

/-- Showing a scan. -/
theorem showDevices_ensures (response : HothResponseI2cDetect) (past : I2cHistory) :
    Ensures recording (showDevices response) past (ShowEnd response past) := by
  unfold showDevices
  rw [ensures_bind, ensures_request]
  rintro _ _ rfl
  by_cases hsome : response.devicesCount ≠ 0
  · rw [if_pos hsome]
    refine (listDevices_ensures response _).mono ?_
    rintro result history ⟨⟨entries, hquiet⟩, hinside, hbeyond⟩
    refine ⟨⟨entries, hquiet.of_append rfl rfl⟩, fun hcount ↦ ?_, hbeyond⟩
    obtain ⟨hstatus, deviceList, hprinted⟩ := hinside hcount
    exact ⟨hstatus, deviceList, hprinted.of_append rfl rfl⟩
  · rw [if_neg hsome]
    have hzero : response.devicesCount.toNat = 0 := by
      rw [not_not.mp hsome, UInt8.toNat_zero]
    have hquiet : ∀ text, Printed past [] (past ++ [⟨.printf text, ()⟩]) :=
      fun text ↦ (Printed.nil past).snoc rfl
    refine (ensures_done _ _ _).mpr ⟨⟨[], hquiet _⟩, fun _ ↦ ⟨⟨0, rfl⟩, fun _ ↦ 0, ?_⟩,
      fun hover ↦ ?_⟩
    · rw [hzero, load_zero]
      exact hquiet _
    · rw [hzero] at hover
      exact absurd hover (Nat.not_lt_zero _)

/-- How a run of the command ends: without a scan, or in showing one. -/
inductive DetectEnd : Except Fault ℤ → I2cHistory → Prop
  | silent {status : ℤ} {history : I2cHistory} (hscans : scans history = [])
    (hquiet : printedEntries history = []) : DetectEnd (.ok status) history
  | shown {response : HothResponseI2cDetect} {result : Except Fault ℤ} {past history : I2cHistory}
    (hscans : scans past = [response]) (hquiet : printedEntries past = [])
    (hshow : ShowEnd response past result history) : DetectEnd result history

/-- The scan that the reply to a host command delivers. -/
theorem scans_of_reply {first : I2cHistory} (hfirst : hostHistory first = []) (call : HostCommand)
    (reply : HostReply call) : scans (first ++ [⟨.hostcmdExec call, reply⟩]) =
      ((wholeReply reply).toOption.map HothResponseI2cDetect.decode).toList := by
  rw [scans_append, scans, hfirst]
  change List.filterMap deliveredScan [⟨call, reply⟩] = _
  rw [List.filterMap_cons, deliveredScan]
  cases wholeReply reply with
  | error err => rfl
  | ok payload => rfl

/-- Every run of the command ends in one of these ways. -/
theorem i2cDetect_ensures (params : I2cDetectParams) :
    Ensures recording (i2cDetect params) [] DetectEnd := by
  obtain ⟨bus, startAddr, endAddr⟩ := params
  cases bus with
  | none => exact (ensures_done _ _ _).mpr (.silent rfl rfl)
  | some bus =>
  cases startAddr with
  | none => exact (ensures_done _ _ _).mpr (.silent rfl rfl)
  | some startAddr =>
  cases endAddr with
  | none => exact (ensures_done _ _ _).mpr (.silent rfl rfl)
  | some endAddr =>
  rw [i2cDetect_eq, ensures_bind, ensures_request]
  rintro unwritten _ rfl
  rw [ensures_bind, ensures_request]
  rintro reply _ rfl
  cases hreply : wholeReply reply with
  | error err =>
    change Ensures recording (showScan (.error err)) _ _
    rw [showScan, ensures_bind, ensures_request]
    rintro _ _ rfl
    refine (ensures_done _ _ _).mpr (.silent ?_ rfl)
    rw [scans_append, scans_of_reply rfl, hreply]
    rfl
  | ok payload =>
    refine (showDevices_ensures (.decode payload) _).mono fun result history hshow ↦
      .shown ?_ rfl hshow
    rw [scans_of_reply rfl, hreply]
    rfl

/-! ### What the command owes its user -/

theorem length_storedEntries (response : HothResponseI2cDetect) :
    (storedEntries response).length =
      min response.devicesCount.toNat (markedAddresses response.devicesMask).length := by
  rw [storedEntries, listedEntries, entriesOf, List.length_map, List.length_take]

/-- A scan that is shown, seen from the end of the run. -/
theorem scans_of_show {response : HothResponseI2cDetect} {result : Except Fault ℤ}
    {past history : I2cHistory} (hscans : scans past = [response])
    (hshow : ShowEnd response past result history) : scans history = [response] := by
  obtain ⟨entries, after, rfl, hafter, -⟩ := hshow.quiet
  rw [scans_append, hscans, scans, hafter]
  rfl

/-- Printing stored entries alone needs a scan that counts no more than it marks. -/
theorem ShowsStored.countsMarked {result : Except Fault ℤ} {history : I2cHistory}
    (hend : DetectEnd result history) (hshows : ShowsStored result history) :
    ∀ response ∈ scans history, CountsMarked response := by
  obtain ⟨-, ⟨status, hstatus⟩, hprefix⟩ := hshows
  cases hend with
  | silent hscans hquiet =>
    rw [hscans]
    exact fun _ hmem ↦ absurd hmem List.not_mem_nil
  | @shown response _ past _ hpast hquiet hshow =>
    have hscans := scans_of_show hpast hshow
    rw [hscans, List.forall_mem_singleton]
    rcases Nat.lt_or_ge i2cDetectMaxDevices response.devicesCount.toNat with hover | hroom
    · obtain ⟨fault, hfault⟩ := hshow.beyond hover
      exact absurd (hstatus.symm.trans hfault) (by simp)
    · obtain ⟨-, deviceList, after, rfl, -, hprinted⟩ := hshow.inside hroom
      rw [printedEntries_append, hquiet, hprinted, List.nil_append, hscans,
        List.flatMap_singleton, load_store_prefix_iff, length_storedEntries] at hprefix
      exact hprefix.trans (Nat.min_le_right _ _)

/-- A scan that counts no more than it marks is shown as it was stored. -/
theorem DetectEnd.showsStored {result : Except Fault ℤ} {history : I2cHistory}
    (hend : DetectEnd result history)
    (hcounts : ∀ response ∈ scans history, CountsMarked response) :
    ShowsStored result history := by
  cases hend with
  | silent hscans hquiet =>
    refine ⟨fun other _ ↦ libhothI2cDeviceList_listed other, ⟨_, rfl⟩, ?_⟩
    rw [hquiet]
    exact List.nil_prefix
  | @shown response _ past _ hpast hquiet hshow =>
    have hscans := scans_of_show hpast hshow
    rw [hscans, List.forall_mem_singleton] at hcounts
    have hroom := hcounts.trans (length_markedAddresses_le response.devicesMask)
    obtain ⟨hstatus, deviceList, after, rfl, -, hprinted⟩ := hshow.inside hroom
    refine ⟨fun other _ ↦ libhothI2cDeviceList_listed other, hstatus, ?_⟩
    rw [printedEntries_append, hquiet, hprinted, List.nil_append, hscans, List.flatMap_singleton,
      load_store_prefix_iff, length_storedEntries]
    exact le_min le_rfl hcounts

/-- The answers of a device that accepts every command. -/
def acceptingAnswer : (call : I2cCall) → I2cReply call
  | .hostcmdExec call => acceptingReply call
  | .unwritten => fun _ ↦ 0
  | .reportError _ _ => ()
  | .printf _ => ()
  | .fprintf _ => ()
  | .printEntry _ => ()

/-- A device can answer the scan with any struct. -/
theorem exists_runs_i2cDetect {payload : List UInt8}
    (hlength : payload.length = hothResponseI2cDetectSize) : ∃ result history,
      Runs recording (i2cDetect ⟨some 0, some 0, some 0x7F⟩) [] result history ∧
        scans history = [.decode payload] := by
  have hfits : PayloadFits payload hothResponseI2cDetectSize true := hlength.le
  have hwhole : wholeReply (.accepted payload hfits :
      HostReply (detectRequest 0 0 0x7F 0).call) = .ok payload := if_neg (not_not.mpr hlength)
  have hscans : scans [⟨.unwritten, fun _ ↦ 0⟩, ⟨.hostcmdExec (detectRequest 0 0 0x7F 0).call,
      .accepted payload hfits⟩] = [.decode payload] := by
    refine (scans_of_reply (show hostHistory [⟨.unwritten, fun _ ↦ 0⟩] = [] from rfl) _ _).trans ?_
    rw [hwhole]
    rfl
  obtain ⟨result, history, hrest⟩ := exists_runs_recordingAnswers acceptingAnswer
    (showDevices (.decode payload)) [⟨.unwritten, fun _ ↦ 0⟩,
      ⟨.hostcmdExec (detectRequest 0 0 0x7F 0).call, .accepted payload hfits⟩]
  have hshown := hrest.recording_of_answers
  refine ⟨result, history, ?_, scans_of_show hscans (showDevices_ensures _ _ _ _ hshown)⟩
  rw [i2cDetect_eq, runs_bind]
  refine ⟨fun _ ↦ 0, _, runs_request_recording _ _ _, ?_⟩
  rw [runs_bind]
  refine ⟨.accepted payload hfits, _, runs_request_recording _ _ _, ?_⟩
  rw [hwhole]
  exact hshown

/-- The command lists the marked addresses and shows stored entries alone in exactly the runs whose
scan counts no more devices than it marks. -/
theorem showsStored_iff {params : I2cDetectParams} {result : Except Fault ℤ} {history : I2cHistory}
    (hrun : Runs recording (i2cDetect params) [] result history) :
    ShowsStored result history ↔ ∀ response ∈ scans history, CountsMarked response := by
  have hend := i2cDetect_ensures params result history hrun
  constructor
  · exact ShowsStored.countsMarked hend
  · exact hend.showsStored

/-- A struct of a scan that counts some devices and marks the address 8 or none. -/
def scanPayload (devicesCount mask : UInt8) : List UInt8 :=
  [0, devicesCount, 0, mask] ++ List.replicate 16 0

/-- A scan of one device at the address 8 is shown as it was stored. -/
theorem showsStored_one_device : ∃ result history,
    Runs recording (i2cDetect ⟨some 0, some 0, some 0x7F⟩) [] result history ∧
      scans history = [.decode (scanPayload 1 1)] ∧ ShowsStored result history := by
  obtain ⟨result, history, hrun, hscans⟩ :=
    exists_runs_i2cDetect (show (scanPayload 1 1).length = _ from rfl)
  refine ⟨result, history, hrun, hscans, (showsStored_iff hrun).mpr ?_⟩
  rw [hscans, List.forall_mem_singleton]
  unfold CountsMarked
  decide +kernel

/-- Of a scan that counts one device and marks none, an entry is printed that was not stored. -/
theorem not_showsStored_unmarked : ∃ result history,
    Runs recording (i2cDetect ⟨some 0, some 0, some 0x7F⟩) [] result history ∧
      scans history = [.decode (scanPayload 1 0)] ∧ ¬ShowsStored result history := by
  obtain ⟨result, history, hrun, hscans⟩ :=
    exists_runs_i2cDetect (show (scanPayload 1 0).length = _ from rfl)
  refine ⟨result, history, hrun, hscans, fun hshows ↦ ?_⟩
  have hcounts := hshows.countsMarked (i2cDetect_ensures _ _ _ hrun)
  rw [hscans, List.forall_mem_singleton, CountsMarked] at hcounts
  exact absurd hcounts (by decide +kernel)

end Libhoth.Examples.HtoolI2c
