import Libhoth.Foundation.CheckedAccess
import Libhoth.Protocol.Mauv

/-!
# Showing a minimum acceptable update version

`htool_get_compiled_payload_mauv` of `htool_payload.c` fetches the MAUV that is compiled into a
payload and prints it with its denylist; `htool_mauv_compiled` and `htool_mauv_effective` of
`htool_mauv.c` do the same for the firmware. The three differ in what they ask for and in what they
print, and share `htoolFetchMauv`. Reads of the union are checked.

`printDenylist_ensures` says what the loop over a denylist prints and when it leaves the union. The
firmware's loop is bounded by the size of its array and stays inside (`printFirmwareMauv_ensures`);
the payload's is bounded by the reply alone. `ServesImageMauv` is what the payload's command is for,
reply by reply, and `servesImageMauv_iff` when it does that.
-/

set_option autoImplicit false
set_option relaxedAutoImplicit false

namespace Libhoth.Examples.PayloadMauv

open Foundation.ByteString Foundation.CellMemory Foundation.CheckedAccess
open Foundation.InteractingProgram
open Protocol.Status Protocol.HostCommand Protocol.HostCommandProgram Protocol.Mauv

/-! ### The commands -/

/-- What the commands ask of the world around them. -/
inductive MauvCall
  | libhothDevice
  | hostcmdExec (call : HostCommand)
  | reportError (cmd : String) (err : LibhothError)
  | printf (text : String)

/-- The replies: whether there is a device, and the reply to a host command. -/
abbrev MauvReply : MauvCall → Type
  | .libhothDevice => Bool
  | .hostcmdExec call => HostReply call
  | .reportError _ _ => Unit
  | .printf _ => Unit

/-- Programs that show a MAUV. -/
abbrev MauvProgram := Interaction MauvReply

/-- Print one text after the other. -/
def printLines : List String → MauvProgram Unit
  | [] => return ()
  | line :: rest => do
    request (MauvCall.printf line)
    printLines rest

/-- One round of a loop that prints a denylist: the number of its entries, its place in the union,
the size of an entry, and how an entry is printed. -/
def denylistRound (entries offset width : ℕ) (line : ℕ → List UInt8 → String)
    (mauv : ℕ → UInt8) (i : ℕ) :
    MauvProgram ({next : ℕ // entries - next < entries - i} ⊕ Except Fault Unit) :=
  if hmore : i < entries then
    match loadWithin hothResponseMauvSize mauv (offset + width * i) width with
    | .error fault => return .inr (.error fault)
    | .ok entry => do
      request (MauvCall.printf (line i entry))
      return .inl ⟨i + 1, Nat.sub_succ_lt_self _ _ hmore⟩
  else return .inr (.ok ())

/-- A loop that prints a denylist. -/
def printDenylist (entries offset width : ℕ) (line : ℕ → List UInt8 → String)
    (mauv : ℕ → UInt8) : MauvProgram (Except Fault Unit) :=
  whileDecreasing (fun i ↦ entries - i) (denylistRound entries offset width line mauv) 0

/-- A word of the union. -/
def field (mauv : ℕ → UInt8) (offset width : ℕ) : ℕ :=
  littleEndian (load mauv offset width)

/-- A command that fetches a MAUV and prints it. -/
def htoolFetchMauv (state category : UInt8)
    (print : (ℕ → UInt8) → MauvProgram (Except Fault Unit)) : MauvProgram (Except Fault ℤ) := do
  if ← request MauvCall.libhothDevice then do
    let (err, mauv) ← interpret (fun call ↦ request (MauvCall.hostcmdExec call))
      (libhothFetchMauv state category fun _ ↦ 0)
    if err ≠ hothSuccess then do
      request (MauvCall.reportError "fetch_mauv" err)
      return .ok (-1)
    else
      match ← print mauv with
      | .error fault => return .error fault
      | .ok _ => return .ok 0
  else return .ok (-1)

/-! ### The MAUV of a payload -/

/-- What is printed of a payload's MAUV in front of its denylist. -/
def imageMauvLines (mauv : ℕ → UInt8) : List String :=
  let structVersion := field mauv 0 4
  let securityVersion := field mauv 8 8
  let updateTimestamp := field mauv 16 8
  let minimumAcceptable := field mauv 24 8
  let numEntries := field mauv imageNumEntriesOffset 4
  ["Payload MAUV (Compiled):\n", s!"  Struct Version: {structVersion}\n",
    s!"  Security Version: {securityVersion}\n", s!"  Update Timestamp: {updateTimestamp}\n",
    s!"  Min Acceptable Version: {minimumAcceptable}\n", s!"  Denylist Entries: {numEntries}\n"]

/-- The line of an entry of that denylist. -/
def imageEntryLine (i : ℕ) (entry : List UInt8) : String :=
  let version := littleEndian entry
  s!"    [{i}]: {version}\n"

/-- The part of `htool_get_compiled_payload_mauv` that prints. -/
def printImageMauv (mauv : ℕ → UInt8) : MauvProgram (Except Fault Unit) := do
  printLines (imageMauvLines mauv)
  printDenylist (field mauv imageNumEntriesOffset 4) imageMauvSize imageDenylistEntrySize
    imageEntryLine mauv

/-- `htool_get_compiled_payload_mauv`. -/
def htoolGetCompiledPayloadMauv : MauvProgram (Except Fault ℤ) :=
  htoolFetchMauv mauvStateCompiled imageMauv printImageMauv

/-! ### The MAUV of the firmware -/

/-- What is printed of the firmware's MAUV in front of its denylist. -/
def firmwareMauvLines (mauv : ℕ → UInt8) : List String :=
  let structVersion := field mauv 0 4
  let mauvVersion := field mauv 4 4
  let epoch := field mauv 8 4
  let major := field mauv 12 4
  let minor := field mauv 16 8
  let numEntries := field mauv 24 4
  ["Firmware MAUV:\n", s!"  Struct Version: {structVersion}\n",
    s!"  MAUV Version:   {mauvVersion}\n", s!"  Minimum Version: {epoch}.{major}.{minor}\n",
    s!"  Denylist ({numEntries} entries):\n"]

/-- The line of an entry of that denylist, a `struct haven_image_version`. -/
def firmwareEntryLine (i : ℕ) (entry : List UInt8) : String :=
  let epoch := wordAt entry 0 4
  let major := wordAt entry 4 4
  let minor := wordAt entry 8 8
  s!"    [{i}]: {epoch}.{major}.{minor}\n"

/-- `print_firmware_mauv`. -/
def printFirmwareMauv (mauv : ℕ → UInt8) : MauvProgram (Except Fault Unit) := do
  printLines (firmwareMauvLines mauv)
  printDenylist (min (field mauv 24 4) havenMauvMaxDenylistSize) havenDenylistOffset
    havenImageVersionSize firmwareEntryLine mauv

/-- `htool_mauv_compiled`. -/
def htoolMauvCompiled : MauvProgram (Except Fault ℤ) :=
  htoolFetchMauv mauvStateCompiled havenMauv printFirmwareMauv

/-- `htool_mauv_effective`. -/
def htoolMauvEffective : MauvProgram (Except Fault ℤ) :=
  htoolFetchMauv mauvStateEffective havenMauv printFirmwareMauv

/-! ### What is printed -/

/-- A tool with a device that answers host commands with one payload, and the texts that it has
printed. -/
def deviceAnswering (payload : List UInt8) : Environment MauvReply (List String) :=
  fun printed call reply next ↦
    match call, reply with
    | .libhothDevice, reply => reply = true ∧ next = printed
    | .hostcmdExec _, reply => (∀ fits, reply = .accepted payload fits) ∧ next = printed
    | .reportError _ _, _ => next = printed
    | .printf text, _ => next = printed ++ [text]

/-- The lines of the first entries of a denylist. -/
def entryLines (offset width : ℕ) (line : ℕ → List UInt8 → String) (mauv : ℕ → UInt8)
    (count : ℕ) : List String :=
  (List.range count).map fun i ↦ line i (load mauv (offset + width * i) width)

section Printing

variable {payload : List UInt8} {offset width : ℕ} {line : ℕ → List UInt8 → String}
  {mauv : ℕ → UInt8}

theorem printLines_ensures (lines printed : List String) :
    Ensures (deviceAnswering payload) (printLines lines) printed fun _ now ↦
      now = printed ++ lines := by
  induction lines generalizing printed with
  | nil => exact (ensures_done _ _ _).mpr (List.append_nil _).symm
  | cons line rest ih =>
    rw [printLines, ensures_bind, ensures_request]
    rintro _ _ rfl
    refine (ih _).mono ?_
    rintro _ _ rfl
    exact List.append_assoc _ _ _

theorem entryLines_succ (count : ℕ) :
    entryLines offset width line mauv (count + 1) =
      entryLines offset width line mauv count ++
        [line count (load mauv (offset + width * count) width)] := by
  rw [entryLines, List.range_succ, List.map_append]
  rfl

/-- Some entries have been printed, all of them inside the union. -/
structure PrintedEntries (entries offset width : ℕ) (line : ℕ → List UInt8 → String)
    (mauv : ℕ → UInt8) (before : List String) (i : ℕ) (now : List String) : Prop where
  bound : i ≤ entries
  inside : offset + width * i ≤ hothResponseMauvSize
  printed : now = before ++ entryLines offset width line mauv i

/-- How a loop over a denylist ends: with all its entries, or at the end of the union. -/
def DenylistEnd (entries offset width : ℕ) (line : ℕ → List UInt8 → String)
    (mauv : ℕ → UInt8) (before : List String) (result : Except Fault Unit)
    (now : List String) : Prop :=
  if offset + width * entries ≤ hothResponseMauvSize then
    result = .ok () ∧ now = before ++ entryLines offset width line mauv entries
  else ∃ fault, result = .error fault

theorem denylistRound_ensures {entries : ℕ} {before now : List String} {i : ℕ}
    (hprinted : PrintedEntries entries offset width line mauv before i now) :
    Ensures (deviceAnswering payload) (denylistRound entries offset width line mauv i) now
      fun outcome final ↦
        match outcome with
        | .inl next => PrintedEntries entries offset width line mauv before next.val final
        | .inr result => DenylistEnd entries offset width line mauv before result final := by
  obtain ⟨hbound, hinside, rfl⟩ := hprinted
  have hnext : offset + width * (i + 1) = offset + width * i + width := by ring
  unfold denylistRound
  by_cases hmore : i < entries
  · rw [dif_pos hmore]
    by_cases hroom : offset + width * i + width ≤ hothResponseMauvSize
    · rw [loadWithin_of_le mauv hroom]
      dsimp only
      rw [ensures_bind, ensures_request]
      rintro _ _ rfl
      refine (ensures_done _ _ _).mpr ⟨hmore, hnext ▸ hroom, ?_⟩
      rw [entryLines_succ, List.append_assoc]
    · have hlonger : offset + width * (i + 1) ≤ offset + width * entries :=
        Nat.add_le_add_left (Nat.mul_le_mul_left _ hmore) _
      have hbeyond : ¬offset + width * entries ≤ hothResponseMauvSize := by omega
      rw [loadWithin, if_neg hroom]
      refine (ensures_done _ _ _).mpr ?_
      dsimp only [DenylistEnd]
      rw [if_neg hbeyond]
      exact ⟨_, rfl⟩
  · obtain rfl : i = entries := by omega
    rw [dif_neg hmore]
    refine (ensures_done _ _ _).mpr ?_
    dsimp only [DenylistEnd]
    rw [if_pos hinside]
    exact ⟨rfl, rfl⟩

/-- A loop over a denylist prints all its entries when they are inside the union, and leaves it
otherwise. -/
theorem printDenylist_ensures (hoffset : offset ≤ hothResponseMauvSize) (entries : ℕ)
    (before : List String) :
    Ensures (deviceAnswering payload) (printDenylist entries offset width line mauv) before
      (DenylistEnd entries offset width line mauv before) := by
  refine whileDecreasing_ensures (PrintedEntries entries offset width line mauv before)
    (fun i now hprinted ↦ ?_) _ _ ⟨Nat.zero_le _, hoffset, (List.append_nil _).symm⟩
  refine (denylistRound_ensures hprinted).mono fun outcome final hround ↦ ?_
  cases outcome with
  | inl next => exact hround
  | inr result => exact hround

/-- The firmware's MAUV is printed with at most as many entries as its array has. -/
theorem printFirmwareMauv_ensures (mauv : ℕ → UInt8) (before : List String) :
    Ensures (deviceAnswering payload) (printFirmwareMauv mauv) before fun result now ↦
      result = .ok () ∧ now = before ++ firmwareMauvLines mauv ++
        entryLines havenDenylistOffset havenImageVersionSize firmwareEntryLine mauv
          (min (field mauv 24 4) havenMauvMaxDenylistSize) := by
  have hinside : havenDenylistOffset +
      havenImageVersionSize * min (field mauv 24 4) havenMauvMaxDenylistSize ≤
        hothResponseMauvSize :=
    (Nat.add_le_add_left (Nat.mul_le_mul_left _ (min_le_right _ _)) _).trans (by decide)
  unfold printFirmwareMauv
  rw [ensures_bind]
  refine (printLines_ensures _ _).mono ?_
  rintro _ _ rfl
  refine (printDenylist_ensures (by decide) _ _).mono fun result now hend ↦ ?_
  rwa [DenylistEnd, if_pos hinside] at hend

/-- The payload's MAUV is printed with as many entries as it announces, or its denylist leaves the
union. -/
theorem printImageMauv_ensures (mauv : ℕ → UInt8) (before : List String) :
    Ensures (deviceAnswering payload) (printImageMauv mauv) before
      (DenylistEnd (field mauv imageNumEntriesOffset 4) imageMauvSize imageDenylistEntrySize
        imageEntryLine mauv (before ++ imageMauvLines mauv)) := by
  unfold printImageMauv
  rw [ensures_bind]
  refine (printLines_ensures _ _).mono ?_
  rintro _ _ rfl
  exact printDenylist_ensures (by decide) _ _

end Printing

/-! ### A device that answers with one payload -/

/-- A reply that fits the union. -/
abbrev MauvPayload := {payload : List UInt8 // PayloadFits payload hothResponseMauvSize true}

/-- The union after a reply. -/
def receivedMauv (payload : List UInt8) : ℕ → UInt8 :=
  store (fun _ ↦ 0) 0 payload

section Tool

variable {payload : List UInt8}

/-- A command fails with the reply, or prints the union that the reply leaves. -/
theorem htoolFetchMauv_ensures (hfits : PayloadFits payload hothResponseMauvSize true)
    {state category : UInt8} {print : (ℕ → UInt8) → MauvProgram (Except Fault Unit)}
    {post : Except Fault ℤ → List String → Prop}
    (hrejected : ¬AcceptedLength payload.length → post (.ok (-1)) [])
    (haccepted : AcceptedLength payload.length →
      Ensures (deviceAnswering payload) (print (receivedMauv payload)) [] fun result now ↦
        post (result.map fun _ ↦ 0) now) :
    Ensures (deviceAnswering payload) (htoolFetchMauv state category print) [] post := by
  have hfetch : Ensures (deviceAnswering payload)
      (interpret (fun call ↦ request (MauvCall.hostcmdExec call))
        (libhothFetchMauv state category fun _ ↦ 0)) [] fun result now ↦ now = [] ∧
          result = (if AcceptedLength payload.length then hothSuccess else cmdExecStatus .fail,
            receivedMauv payload) := by
    intro result now hrun
    have hlower := (runs_interpret_iff _ _ _ _ _ _).mp hrun
    exact libhothFetchMauv_ensures hfits state category _ _ _ _
      (hlower.mono_environment fun _ _ _ _ hstep ↦ (runs_request _ _ _ _).mp hstep)
  unfold htoolFetchMauv
  rw [ensures_bind, ensures_request]
  rintro _ _ ⟨rfl, rfl⟩
  rw [if_pos rfl, ensures_bind]
  refine hfetch.mono ?_
  rintro _ _ ⟨rfl, rfl⟩
  dsimp only
  by_cases hlength : AcceptedLength payload.length
  · rw [if_pos hlength, if_neg (not_not.mpr rfl), ensures_bind]
    refine (haccepted hlength).mono fun result now hresult ↦ ?_
    cases result with
    | error fault => exact (ensures_done _ _ _).mpr hresult
    | ok value => exact (ensures_done _ _ _).mpr hresult
  · rw [if_neg hlength, if_pos (cmdExecStatus_ne_success _), ensures_bind, ensures_request]
    rintro _ _ rfl
    exact (ensures_done _ _ _).mpr (hrejected hlength)

/-- Every request meets a reply. -/
theorem deviceAnswering_serial (payload : List UInt8) (printed : List String) (call : MauvCall) :
    ∃ reply next, deviceAnswering payload printed call reply next := by
  cases call with
  | libhothDevice => exact ⟨true, printed, rfl, rfl⟩
  | hostcmdExec call =>
    by_cases hfits : PayloadFits payload call.respBufSize call.sized
    · exact ⟨.accepted payload hfits, printed, fun _ ↦ rfl, rfl⟩
    · exact ⟨acceptingReply call, printed, fun hother ↦ absurd hother hfits, rfl⟩
  | reportError cmd err => exact ⟨(), printed, rfl⟩
  | printf text => exact ⟨(), printed ++ [text], rfl⟩

/-- What was received can be read from the union. -/
theorem load_receivedMauv {offset count : ℕ} (hinside : offset + count ≤ payload.length) :
    load (receivedMauv payload) offset count = slice payload offset count :=
  load_store _ hinside

/-- Behind a reply the union is zero. -/
theorem field_receivedMauv_of_le {offset : ℕ} (hbehind : payload.length ≤ offset) (width : ℕ) :
    field (receivedMauv payload) offset width = 0 := by
  have hzero : load (receivedMauv payload) offset width = List.replicate width 0 := by
    refine load_eq_of_getElem? List.length_replicate fun index hindex ↦ ?_
    rw [List.getElem?_replicate, if_pos hindex, receivedMauv, store_of_ge _ (by omega)]
  rw [field, hzero, littleEndian_replicate_zero]

end Tool

/-! ### What the payload's command is for -/

/-- A `struct image_mauv` with a number of denylist entries, as its bytes. -/
def IsImageMauv (count : ℕ) (payload : List UInt8) : Prop :=
  payload.length = imageMauvSize + imageDenylistEntrySize * count ∧
    wordAt payload imageNumEntriesOffset 4 = count

/-- The lines of the first denylist entries of a reply. -/
def imageEntryLines (payload : List UInt8) (count : ℕ) : List String :=
  (List.range count).map fun i ↦
    imageEntryLine i (slice payload (imageMauvSize + imageDenylistEntrySize * i)
      imageDenylistEntrySize)

/-- The command prints a reply with its first denylist entries. -/
def Prints (payload : List UInt8) (count : ℕ) (outcome : Except Fault ℤ)
    (printed : List String) : Prop :=
  outcome = .ok 0 ∧
    printed = imageMauvLines (receivedMauv payload) ++ imageEntryLines payload count

/-- What the command is for, for a reply: a `struct image_mauv` with at most 14 entries is fetched
with exactly its bytes and printed with its entries; and of a reply that is accepted, no entry is
printed that is not among the bytes received. -/
structure ServesImageMauv (payload : List UInt8) : Prop where
  shows : ∀ count ≤ 14, IsImageMauv count payload →
    (∀ state mauv, Ensures (answeringWith Unit payload) (libhothFetchMauv state imageMauv mauv) ()
      fun result _ ↦ result.1 = hothSuccess ∧ load result.2 0 payload.length = payload) ∧
    Ensures (deviceAnswering payload) htoolGetCompiledPayloadMauv [] (Prints payload count)
  inside : (Ensures (answeringWith Unit payload)
      (libhothFetchMauv mauvStateCompiled imageMauv fun _ ↦ 0) () fun result _ ↦
        result.1 = hothSuccess) →
    Ensures (deviceAnswering payload) htoolGetCompiledPayloadMauv [] fun outcome printed ↦
      ∃ count, (∀ i < count, imageMauvSize + imageDenylistEntrySize * (i + 1) ≤ payload.length) ∧
        Prints payload count outcome printed

/-- A fetch against the payload has a run. -/
theorem exists_runs_fetch (payload : List UInt8) (state : UInt8) (mauv : ℕ → UInt8) :
    ∃ result final, Runs (answeringWith Unit payload) (libhothFetchMauv state imageMauv mauv) ()
      result final := by
  refine Runs.exists_of_serial (fun start call ↦ ?_) _ _
  by_cases hfits : PayloadFits payload call.respBufSize call.sized
  · exact ⟨.accepted payload hfits, start, fun _ ↦ rfl, rfl⟩
  · exact ⟨acceptingReply call, start, fun hother ↦ absurd hother hfits, rfl⟩

/-- A fetch succeeds exactly when the length is accepted. -/
theorem fetch_succeeds_iff (payload : MauvPayload) (state : UInt8) (mauv : ℕ → UInt8) :
    (Ensures (answeringWith Unit payload.1) (libhothFetchMauv state imageMauv mauv) ()
      fun result _ ↦ result.1 = hothSuccess) ↔ AcceptedLength payload.1.length := by
  have hfetch := libhothFetchMauv_ensures payload.2 state imageMauv mauv ()
  constructor
  · intro hsuccess
    obtain ⟨result, final, hrun⟩ := exists_runs_fetch payload.1 state mauv
    by_contra hlength
    obtain ⟨-, hresult⟩ := hfetch _ _ hrun
    have hfailed := hsuccess _ _ hrun
    rw [hresult, if_neg hlength] at hfailed
    exact cmdExecStatus_ne_success _ hfailed
  · intro hlength
    refine hfetch.mono ?_
    rintro _ _ ⟨-, rfl⟩
    exact if_pos hlength

/-- The union has room for 14 entries. -/
theorem entries_inside_iff (count : ℕ) :
    imageMauvSize + imageDenylistEntrySize * count ≤ hothResponseMauvSize ↔ count ≤ 14 := by
  have hsize : hothResponseMauvSize = 156 := by decide
  rw [hsize, imageMauvSize, imageDenylistEntrySize]
  omega

/-- The length of a `struct image_mauv` is not accepted, however many entries it has. -/
theorem IsImageMauv.not_acceptedLength {count : ℕ} {payload : List UInt8}
    (himage : IsImageMauv count payload) : ¬AcceptedLength payload.length := by
  have hlength : payload.length = 40 + 8 * count := himage.1
  rintro (hversion | hunion)
  · omega
  · rw [hlength, (by decide : hothResponseMauvSize = 156)] at hunion
    omega

/-- The lines of entries that were received. -/
theorem entryLines_receivedMauv {payload : List UInt8} {count : ℕ}
    (hinside : ∀ i < count, imageMauvSize + imageDenylistEntrySize * (i + 1) ≤ payload.length) :
    entryLines imageMauvSize imageDenylistEntrySize imageEntryLine (receivedMauv payload) count =
      imageEntryLines payload count := by
  refine List.map_congr_left fun i hi ↦ congrArg (imageEntryLine i) (load_receivedMauv ?_)
  have hentry := hinside i (List.mem_range.mp hi)
  rwa [Nat.mul_succ, ← Nat.add_assoc] at hentry

/-- The number of entries that a reply of the length of the union announces. -/
theorem field_numEntries {payload : List UInt8} (hlength : payload.length = hothResponseMauvSize) :
    field (receivedMauv payload) imageNumEntriesOffset 4 =
      wordAt payload imageNumEntriesOffset 4 := by
  have hinside : imageNumEntriesOffset + 4 ≤ payload.length := by
    rw [hlength]
    decide
  rw [field, load_receivedMauv hinside]
  rfl

section Serves

variable {payload : MauvPayload}

/-- No `struct image_mauv` is fetched. -/
theorem ServesImageMauv.not_image (hserves : ServesImageMauv payload.1) {count : ℕ}
    (hcount : count ≤ 14) : ¬IsImageMauv count payload.1 := by
  intro himage
  have hfetched := (hserves.shows count hcount himage).1 0 fun _ ↦ 0
  exact himage.not_acceptedLength ((fetch_succeeds_iff payload 0 fun _ ↦ 0).mp
    (hfetched.mono fun _ _ hresult ↦ hresult.1))

/-- An accepted reply of the length of the union announces no entry outside it. -/
theorem ServesImageMauv.few (hserves : ServesImageMauv payload.1)
    (hlength : payload.1.length = hothResponseMauvSize) :
    wordAt payload.1 imageNumEntriesOffset 4 ≤ 14 := by
  by_contra hmany
  have haccepted : AcceptedLength payload.1.length := .inr hlength
  have hbeyond : ¬imageMauvSize + imageDenylistEntrySize *
      field (receivedMauv payload.1) imageNumEntriesOffset 4 ≤ hothResponseMauvSize := by
    rwa [field_numEntries hlength, entries_inside_iff]
  have hfaults : Ensures (deviceAnswering payload.1) htoolGetCompiledPayloadMauv []
      fun outcome _ ↦ ∃ fault, outcome = .error fault := by
    refine htoolFetchMauv_ensures payload.2 (fun hrejected ↦ absurd haccepted hrejected)
      fun _ ↦ (printImageMauv_ensures _ _).mono fun result now hend ↦ ?_
    rw [DenylistEnd, if_neg hbeyond] at hend
    obtain ⟨fault, rfl⟩ := hend
    exact ⟨fault, rfl⟩
  obtain ⟨outcome, printed, hrun⟩ := Runs.exists_of_serial
    (deviceAnswering_serial payload.1) htoolGetCompiledPayloadMauv []
  obtain ⟨fault, rfl⟩ := hfaults _ _ hrun
  obtain ⟨count, -, hvalue, -⟩ :=
    hserves.inside ((fetch_succeeds_iff payload _ _).mpr haccepted) _ _ hrun
  cases hvalue

/-- A reply with few entries is printed as far as it was received. -/
theorem printsReceived (haccepted : AcceptedLength payload.1.length)
    (hfew : payload.1.length = hothResponseMauvSize →
      wordAt payload.1 imageNumEntriesOffset 4 ≤ 14) :
    Ensures (deviceAnswering payload.1) htoolGetCompiledPayloadMauv [] fun outcome printed ↦
      ∃ count,
        (∀ i < count, imageMauvSize + imageDenylistEntrySize * (i + 1) ≤ payload.1.length) ∧
          Prints payload.1 count outcome printed := by
  refine htoolFetchMauv_ensures payload.2 (fun hrejected ↦ absurd haccepted hrejected)
    fun _ ↦ (printImageMauv_ensures _ _).mono fun result now hend ↦ ?_
  obtain ⟨hunion, hreceived⟩ : imageMauvSize + imageDenylistEntrySize *
      field (receivedMauv payload.1) imageNumEntriesOffset 4 ≤ hothResponseMauvSize ∧
      ∀ i < field (receivedMauv payload.1) imageNumEntriesOffset 4,
        imageMauvSize + imageDenylistEntrySize * (i + 1) ≤ payload.1.length := by
    rcases haccepted with hversion | hlength
    · rw [field_receivedMauv_of_le (by rw [hversion]; decide)]
      exact ⟨by decide, fun i hi ↦ absurd hi (Nat.not_lt_zero i)⟩
    · have hcount := hfew hlength
      rw [field_numEntries hlength, hlength]
      exact ⟨(entries_inside_iff _).mpr hcount,
        fun i hi ↦ (entries_inside_iff (i + 1)).mpr (hi.trans_le hcount)⟩
  rw [DenylistEnd, if_pos hunion] at hend
  obtain ⟨rfl, rfl⟩ := hend
  exact ⟨_, hreceived, rfl, by rw [entryLines_receivedMauv hreceived, List.nil_append]⟩

end Serves

/-- The command does what it is for exactly when the reply is no `struct image_mauv` with at most 14
entries, and announces at most 14 entries if it has the length of the union. -/
theorem servesImageMauv_iff (payload : MauvPayload) :
    ServesImageMauv payload.1 ↔
      (¬∃ count ≤ 14, IsImageMauv count payload.1) ∧
        (payload.1.length = hothResponseMauvSize →
          wordAt payload.1 imageNumEntriesOffset 4 ≤ 14) := by
  constructor
  · intro hserves
    refine ⟨?_, hserves.few⟩
    rintro ⟨count, hcount, himage⟩
    exact hserves.not_image hcount himage
  · rintro ⟨hnone, hfew⟩
    refine ⟨fun count hcount himage ↦ absurd ⟨count, hcount, himage⟩ hnone, fun hsuccess ↦ ?_⟩
    exact printsReceived ((fetch_succeeds_iff payload _ _).mp hsuccess) hfew

/-- A `struct image_mauv` without entries, and a reply of the length of the union that announces 15
entries. -/
theorem not_servesImageMauv :
    ¬ServesImageMauv (List.replicate 40 0) ∧
      ¬ServesImageMauv (List.replicate 36 0 ++ [15] ++ List.replicate 119 0) := by
  constructor
  · have himage : IsImageMauv 0 (List.replicate 40 0) := ⟨by decide, by decide⟩
    intro hserves
    exact @ServesImageMauv.not_image ⟨List.replicate 40 0, by decide⟩ hserves 0 (by decide) himage
  · intro hserves
    have hfew := @ServesImageMauv.few
      ⟨List.replicate 36 0 ++ [15] ++ List.replicate 119 0, by decide⟩ hserves (by decide)
    exact absurd hfew (by decide)

end Libhoth.Examples.PayloadMauv
