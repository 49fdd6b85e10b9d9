import Libhoth.Foundation.SaturatingBackoff
import Libhoth.Transports.UsbDevice

/-!
# Claiming a device that others use

`libhoth_claim_device` of `libhoth_device.c` for any transport: what it asks of the transport and of
the C library is a `ClaimCall`. The loop variables and their updates are those of `ClaimWait`, and
for the claim function of a transport the loop is the one that opening a USB device runs, which says
nothing on the standard error stream (`interpret_libhothClaimDevice`).

`sleepUs` is the wait behind a busy claim and `sleptUs` the time of the waits together.
`ClaimEnd` is what a call does: claims that find the interface busy, with the waits between them,
and then a claim with another result, or a busy one once the timeout is over. Every call ends so,
and the loop variables stay the wait and the time, saturated at 32 bits
(`libhothClaimDevice_backsOff`).
-/

set_option autoImplicit false
set_option relaxedAutoImplicit false

namespace Libhoth.Transports.ClaimDevice

open Foundation.InteractingProgram Foundation.SaturatingBackoff
open Protocol.Status UsbDevice

/-! ### The function -/

/-- What claiming a device asks of the transport and of the C library. -/
inductive ClaimCall (Device : Type)
  | claim (dev : Device)
  | usleep (us : ℕ)
  | fprintf (text : String)

/-- A claim meets any result. -/
abbrev ClaimReply (Device : Type) : ClaimCall Device → Type
  | .claim _ => LibhothError
  | .usleep _ => Unit
  | .fprintf _ => Unit

/-- Programs that claim a device. -/
abbrev ClaimProgram (Device : Type) := Interaction (ClaimReply Device)

/-- What such a program exchanges. -/
abbrev ClaimHistory (Device : Type) := List (Exchange (ClaimReply Device))

/-- An error word of `libhoth_device.c`. -/
def initError (status : LibhothStatus) : LibhothError :=
  libhothErrConstruct (BitVec.ofNat 64 HothContextId.init.value)
    (BitVec.ofNat 64 HothHostSpace.libhoth.value) (BitVec.ofNat 64 status.value)

/-- The message after the timeout, which is printed as an `int`. -/
def timedOutText (timeoutUs : UInt32) : String :=
  let us := timeoutUs.toInt32
  s!"libhoth: timed out claiming transport after {us}us\n"

variable {Device : Type}

/-- One round of the loop of `libhoth_claim_device`. -/
def claimDeviceRound (dev : Device) (timeoutUs : UInt32) (wait : ClaimWait) :
    ClaimProgram Device (ClaimWait ⊕ LibhothError) := do
  let status ← request (ClaimCall.claim dev)
  if status = hothSuccess then return .inr hothSuccess
  else if libhothErrGetCode status ≠ BitVec.ofNat 32 LibhothStatus.interfaceBusy.value then
    return .inr status
  else if wait.totalWaitingUs ≥ timeoutUs then do
    request (ClaimCall.fprintf (timedOutText timeoutUs))
    return .inr (initError .interfaceBusy)
  else do
    request (ClaimCall.usleep wait.waitUs.toNat)
    return .inl wait.slept

/-- The loop variables at the start. -/
def initialWait : ClaimWait :=
  ⟨UInt32.ofNat initialWaitUs, 0⟩

/-- `libhoth_claim_device`, cut off after a number of rounds. The device is missing when the pointer
is null. -/
def libhothClaimDevice (dev : Option Device) (timeoutUs : UInt32) (rounds : ℕ) :
    ClaimProgram Device (Option LibhothError) :=
  match dev with
  | none => return some (initError .invalidParameter)
  | some dev => whileRounds (claimDeviceRound dev timeoutUs) rounds initialWait

/-! ### The claim function of a transport -/

/-- The claim function of a transport in place of the request, and no message. -/
def withClaim (claim : UsbDeviceProgram LibhothError) :
    (call : ClaimCall Unit) → UsbDeviceProgram (ClaimReply Unit call)
  | .claim _ => claim
  | .usleep us => request (UsbDeviceCall.usleep us)
  | .fprintf _ => pure ()

theorem interpret_claimDeviceRound (claim : UsbDeviceProgram LibhothError) (timeoutUs : UInt32)
    (wait : ClaimWait) :
    interpret (withClaim claim) (claimDeviceRound () timeoutUs wait) =
      claimRound claim timeoutUs wait := by
  unfold claimDeviceRound claimRound
  rw [interpret_bind, interpret_request]
  refine congrArg (claim >>= ·) (funext fun status ↦ ?_)
  split_ifs <;> rfl

/-- The loop of a transport. -/
theorem interpret_libhothClaimDevice (claim : UsbDeviceProgram LibhothError) (timeoutUs : UInt32)
    (rounds : ℕ) :
    interpret (withClaim claim) (libhothClaimDevice (some ()) timeoutUs rounds) =
      UsbDevice.libhothClaimDevice claim timeoutUs rounds := by
  unfold libhothClaimDevice UsbDevice.libhothClaimDevice
  rw [interpret_whileRounds]
  exact congrArg (whileRounds · rounds initialWait)
    (funext (interpret_claimDeviceRound claim timeoutUs))

/-! ### The loop variables -/

/-- The sleep behind a busy claim, in microseconds. -/
def sleepUs (attempt : ℕ) : ℕ :=
  min (10000 * 2 ^ attempt) 999999

/-- The time of the first sleeps together. -/
def sleptUs (attempts : ℕ) : ℕ :=
  ∑ attempt ∈ Finset.range attempts, sleepUs attempt

theorem sleepUs_eq_waitFor (attempt : ℕ) :
    sleepUs attempt = waitFor initialWaitUs backoffFactor maxSingleSleepUs attempt :=
  rfl

theorem sleptUs_succ (attempts : ℕ) :
    sleptUs (attempts + 1) = sleptUs attempts + sleepUs attempts :=
  waitedFor_succ initialWaitUs backoffFactor maxSingleSleepUs attempts

theorem sleepUs_pos (attempt : ℕ) : 0 < sleepUs attempt :=
  waitFor_pos (by decide) (by decide) (by decide) attempt

/-- No sleep takes a second. -/
theorem sleepUs_lt (attempt : ℕ) : sleepUs attempt < 1000000 :=
  (waitFor_le _ _ _ _).trans_lt (Nat.lt_add_one 999999)

/-- The loop variables after some sleeps: the next wait, and the time slept up to 32 bits. -/
structure Counts (wait : ClaimWait) (attempts : ℕ) : Prop where
  current : wait.waitUs.toNat = sleepUs attempts
  elapsed : wait.totalWaitingUs.toNat = min (sleptUs attempts) (2 ^ 32 - 1)

/-- The updates of the loop variables do not wrap. -/
theorem slept_toNat {wait : ClaimWait} (hshort : wait.waitUs.toNat ≤ maxSingleSleepUs) :
    wait.slept.totalWaitingUs.toNat =
        addSaturating (2 ^ 32 - 1) wait.totalWaitingUs.toNat wait.waitUs.toNat ∧
      wait.slept.waitUs.toNat = mulSaturating maxSingleSleepUs backoffFactor wait.waitUs.toNat := by
  have hlongest : maxSingleSleepUs = 999999 := rfl
  have hfactor : backoffFactor = 2 := rfl
  rw [hlongest] at hshort
  dsimp only [ClaimWait.slept, addSaturating, mulSaturating]
  constructor
  · split_ifs with hroom
    · rw [UInt32.toNat_add]
      omega
    · rfl
  · split_ifs with hhalf
    · rw [UInt32.toNat_mul, UInt32.toNat_ofNat', hfactor]
      omega
    · rfl

theorem counts_initial : Counts initialWait 0 :=
  ⟨rfl, rfl⟩

/-- One sleep more. -/
theorem Counts.slept {wait : ClaimWait} {attempts : ℕ} (hcounts : Counts wait attempts) :
    Counts wait.slept (attempts + 1) := by
  have hshort : wait.waitUs.toNat ≤ maxSingleSleepUs := hcounts.current ▸ waitFor_le _ _ _ _
  have hfits : sleepUs attempts ≤ 2 ^ 32 - 1 :=
    Nat.le_of_lt_succ ((sleepUs_lt attempts).trans (by decide))
  obtain ⟨htotal, hwait⟩ := slept_toNat hshort
  constructor
  · rw [hwait, hcounts.current, sleepUs_eq_waitFor, mulSaturating_waitFor (by decide)]
    rfl
  · rw [htotal, hcounts.current, hcounts.elapsed, addSaturating_min hfits]
    rw [sleptUs_succ]

/-- The loop variables after any number of sleeps. -/
theorem counts_iterate (attempts : ℕ) :
    Counts (ClaimWait.slept^[attempts] initialWait) attempts := by
  induction attempts with
  | zero => exact counts_initial
  | succ attempts ih =>
    rw [Function.iterate_succ_apply']
    exact ih.slept

/-! ### The loop -/

/-- The code of a result says that another process has the interface. -/
def InterfaceBusy (status : LibhothError) : Prop :=
  libhothErrGetCode status = BitVec.ofNat 32 LibhothStatus.interfaceBusy.value

theorem not_interfaceBusy_success : ¬InterfaceBusy hothSuccess :=
  (by decide : ¬libhothErrGetCode hothSuccess = BitVec.ofNat 32 LibhothStatus.interfaceBusy.value)

/-- Claims that find the interface busy, with the sleep behind each of them. -/
def busyClaims (dev : Device) (busy : List LibhothError) : ClaimHistory Device :=
  busy.zipIdx.flatMap fun attempt ↦
    [⟨.claim dev, attempt.1⟩, ⟨.usleep (sleepUs attempt.2), ()⟩]

theorem busyClaims_snoc (dev : Device) (busy : List LibhothError) (status : LibhothError) :
    busyClaims dev (busy ++ [status]) =
      busyClaims dev busy ++ [⟨.claim dev, status⟩, ⟨.usleep (sleepUs busy.length), ()⟩] := by
  simp [busyClaims, List.zipIdx_append]

/-- Behind some busy claims and their sleeps: the loop variables count them, and the last sleep
began before the timeout. -/
structure StillBusy (dev : Device) (timeoutUs : UInt32) (busy : List LibhothError)
    (wait : ClaimWait) (history : ClaimHistory Device) : Prop where
  claimed : ∀ status ∈ busy, InterfaceBusy status
  counted : Counts wait busy.length
  exchanged : history = busyClaims dev busy
  bounded : sleptUs busy.length < timeoutUs.toNat + 1000000

/-- What a call returns and what it has exchanged: the interface was busy some times, and then a
claim had another result or the timeout was over. -/
inductive ClaimEnd (dev : Device) (timeoutUs : UInt32) :
    LibhothError → ClaimHistory Device → Prop
  | answered (busy : List LibhothError) (status : LibhothError)
    (hbusy : ∀ earlier ∈ busy, InterfaceBusy earlier) (hanswered : ¬InterfaceBusy status)
    (hbounded : sleptUs busy.length < timeoutUs.toNat + 1000000) :
    ClaimEnd dev timeoutUs status (busyClaims dev busy ++ [⟨.claim dev, status⟩])
  | timedOut (busy : List LibhothError) (last : LibhothError)
    (hbusy : ∀ earlier ∈ busy, InterfaceBusy earlier) (hlast : InterfaceBusy last)
    (hreached : timeoutUs.toNat ≤ sleptUs busy.length)
    (hbounded : sleptUs busy.length < timeoutUs.toNat + 1000000) :
    ClaimEnd dev timeoutUs (initError .interfaceBusy) (busyClaims dev busy ++
      [⟨.claim dev, last⟩, ⟨.fprintf (timedOutText timeoutUs), ()⟩])

theorem stillBusy_nil (dev : Device) (timeoutUs : UInt32) :
    StillBusy dev timeoutUs [] initialWait [] where
  claimed := fun _ hstatus ↦ absurd hstatus List.not_mem_nil
  counted := counts_initial
  exchanged := rfl
  bounded := Nat.lt_of_lt_of_le (by decide) (Nat.le_add_left 1000000 _)

/-- One claim more that finds the interface busy before the timeout. -/
theorem StillBusy.snoc {dev : Device} {timeoutUs : UInt32} {busy : List LibhothError}
    {wait : ClaimWait} {history : ClaimHistory Device}
    (hwaiting : StillBusy dev timeoutUs busy wait history) {status : LibhothError}
    (hstatus : InterfaceBusy status) (hbefore : wait.totalWaitingUs.toNat < timeoutUs.toNat) :
    StillBusy dev timeoutUs (busy ++ [status]) wait.slept
        (history ++ [⟨.claim dev, status⟩, ⟨.usleep wait.waitUs.toNat, ()⟩]) ∧
      wait.totalWaitingUs.toNat < wait.slept.totalWaitingUs.toNat := by
  have helapsed := hwaiting.counted.elapsed
  have hnext := hwaiting.counted.slept
  have hlater := hnext.elapsed
  have hpositive := sleepUs_pos busy.length
  have hshort := sleepUs_lt busy.length
  have hlimit := timeoutUs.toNat_lt
  rw [sleptUs_succ] at hlater
  refine ⟨⟨forall_mem_snoc hwaiting.claimed hstatus, ?_, ?_, ?_⟩, by omega⟩
  · rw [List.length_append]
    exact hnext
  · rw [busyClaims_snoc, hwaiting.exchanged, hwaiting.counted.current]
  · rw [List.length_append, List.length_singleton, sleptUs_succ]
    omega

/-- One round. -/
theorem claimDeviceRound_ensures {dev : Device} {timeoutUs : UInt32} {busy : List LibhothError}
    {wait : ClaimWait} {history : ClaimHistory Device}
    (hwaiting : StillBusy dev timeoutUs busy wait history) :
    Ensures recording (claimDeviceRound dev timeoutUs wait) history fun outcome now ↦
      match outcome with
      | .inl next => (∃ busy, StillBusy dev timeoutUs busy next now) ∧
          timeoutUs.toNat - next.totalWaitingUs.toNat <
            timeoutUs.toNat - wait.totalWaitingUs.toNat
      | .inr status => ClaimEnd dev timeoutUs status now := by
  unfold claimDeviceRound
  rw [ensures_bind, ensures_request]
  rintro status _ rfl
  obtain rfl := hwaiting.exchanged
  split_ifs with hsuccess hbusy htimeout
  · subst hsuccess
    exact (ensures_done _ _ _).mpr
      (.answered busy _ hwaiting.claimed not_interfaceBusy_success hwaiting.bounded)
  · exact (ensures_done _ _ _).mpr (.answered busy status hwaiting.claimed hbusy hwaiting.bounded)
  · rw [ensures_bind, ensures_request]
    rintro _ _ rfl
    have hreached := UInt32.le_iff_toNat_le.mp htimeout
    have hend := @ClaimEnd.timedOut _ dev timeoutUs busy status hwaiting.claimed (not_not.mp hbusy)
      (by rw [hwaiting.counted.elapsed] at hreached; omega) hwaiting.bounded
    rw [List.append_assoc]
    exact (ensures_done _ _ _).mpr hend
  · rw [ensures_bind, ensures_request]
    rintro _ _ rfl
    have hbefore := Nat.lt_of_not_le fun hle ↦ htimeout (UInt32.le_iff_toNat_le.mpr hle)
    obtain ⟨hnext, hless⟩ := hwaiting.snoc (not_not.mp hbusy) hbefore
    rw [List.append_assoc]
    exact (ensures_done _ _ _).mpr ⟨⟨_, hnext⟩, by omega⟩

/-- Every call ends: at once with the first result that is not busy, or busy after the timeout and
less than a second more; and the loop variables never wrap. -/
theorem libhothClaimDevice_backsOff (dev : Device) (timeoutUs : UInt32) (more : ℕ) :
    (Ensures recording (libhothClaimDevice (some dev) timeoutUs (timeoutUs.toNat + 1 + more)) []
        fun outcome history ↦
          ∃ status, outcome = some status ∧ ClaimEnd dev timeoutUs status history) ∧
      ∀ attempts, sleepUs attempts < 1000000 ∧
        Counts (ClaimWait.slept^[attempts] initialWait) attempts := by
  refine ⟨?_, fun attempts ↦ ⟨sleepUs_lt attempts, counts_iterate attempts⟩⟩
  refine whileRounds_total (fun wait ↦ timeoutUs.toNat - wait.totalWaitingUs.toNat)
    (fun wait history ↦ ∃ busy, StillBusy dev timeoutUs busy wait history) ?_ _ _ _
    ⟨[], stillBusy_nil dev timeoutUs⟩ (by omega)
  rintro wait history ⟨busy, hwaiting⟩
  refine (claimDeviceRound_ensures hwaiting).mono fun outcome now hround ↦ ?_
  cases outcome with
  | inl next => exact hround
  | inr status => exact hround

end Libhoth.Transports.ClaimDevice
