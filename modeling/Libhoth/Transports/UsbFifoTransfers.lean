import Libhoth.Foundation.InteractingProgram
import Libhoth.Transports.Libusb

/-!
# Running the transfers of a FIFO

`libhoth_usb_fifo_run_transfers` submits an IN transfer, and an OUT transfer with it or not, and
handles events until both are completed; `fifo_transfer_callback` runs while it does. The function
and the callback share three flags, so every call of the function into the library carries the flags
at that moment, and handling events returns the flags that the callbacks left.

The library runs the callback of a transfer that is in flight, once, and only while events are
handled (`libusb`). `libhothUsbFifoRunTransfers_drains` says that the function never returns with a
transfer in flight, whatever the library answers and in whatever order the callbacks run, and that
the flags agree at every moment. `libhothUsbFifoRunTransfers_finishes` says that it succeeds only
when every transfer has its result.
-/

set_option autoImplicit false
set_option relaxedAutoImplicit false

namespace Libhoth.Transports.UsbFifoTransfers

open Foundation.InteractingProgram Libusb

/-! ### The flags -/

/-- The transfers of the driver data: `in_transfer` and `out_transfer`. -/
inductive FifoTransfer
  | inTransfer
  | outTransfer
  deriving DecidableEq

/-- The other transfer. -/
def FifoTransfer.sibling : FifoTransfer → FifoTransfer
  | .inTransfer => .outTransfer
  | .outTransfer => .inTransfer

/-- The completion flags of `struct libhoth_usb_fifo`. -/
structure TransferFlags where
  allTransfersCompleted : ℤ
  inTransferCompleted : Bool
  outTransferCompleted : Bool

namespace TransferFlags

/-- The flag of a transfer. -/
def completed (flags : TransferFlags) : FifoTransfer → Bool
  | .inTransfer => flags.inTransferCompleted
  | .outTransfer => flags.outTransferCompleted

/-- The flags with the one of a transfer set. -/
def withCompleted (flags : TransferFlags) (value : Bool) : FifoTransfer → TransferFlags
  | .inTransfer => { flags with inTransferCompleted := value }
  | .outTransfer => { flags with outTransferCompleted := value }

/-- The flags with `all_transfers_completed` set when both transfers are completed. -/
def settled (flags : TransferFlags) : TransferFlags :=
  if flags.inTransferCompleted ∧ flags.outTransferCompleted then
    { flags with allTransfersCompleted := 1 }
  else flags

/-- The flags before a transfer is submitted. -/
def initial : TransferFlags where
  allTransfersCompleted := 1
  inTransferCompleted := true
  outTransferCompleted := true

/-- The flags after a transfer was submitted. -/
def submitted (flags : TransferFlags) (transfer : FifoTransfer) : TransferFlags :=
  { flags with allTransfersCompleted := 0 }.withCompleted false transfer

end TransferFlags

/-! ### The function and the callback -/

/-- The calls into the library, each with the flags that it finds. -/
inductive LibusbCall
  | submit (transfer : FifoTransfer) (flags : TransferFlags)
  | cancel (transfer : FifoTransfer) (flags : TransferFlags)
  | handleEvents (flags : TransferFlags)

/-- A call returns a status, and handling events also the flags that the callbacks left. -/
abbrev LibusbReply : LibusbCall → Type
  | .submit _ _ => ℤ
  | .cancel _ _ => ℤ
  | .handleEvents _ => ℤ × TransferFlags

/-- Programs over the library. -/
abbrev LibusbProgram := Interaction LibusbReply

/-- Cancelling a transfer that is pending. -/
def cancelTransfer (transfer : FifoTransfer) (flags : TransferFlags) : LibusbProgram Unit :=
  if ¬flags.completed transfer then do
    let _ ← request (LibusbCall.cancel transfer flags)
  else return

/-- `fifo_transfer_callback`, for a transfer with a status. -/
def fifoTransferCallback (transfer : FifoTransfer) (status : LibusbTransferStatus)
    (flags : TransferFlags) : LibusbProgram TransferFlags := do
  let flags := flags.withCompleted true transfer
  if status ≠ .completed ∧ status ≠ .cancelled then cancelTransfer transfer.sibling flags
  return flags.settled

/-- Submitting a transfer that is wanted, and marking it as pending. -/
def submitTransfer (wanted : Bool) (transfer : FifoTransfer) (flags : TransferFlags) :
    LibusbProgram (ℤ × TransferFlags) :=
  if wanted then do
    let status ← request (LibusbCall.submit transfer flags)
    if status ≠ libhothOk then return (status, flags)
    else return (libhothOk, flags.submitted transfer)
  else return (libhothOk, flags)

/-- One round of the loop that waits for the transfers. -/
def waitRound (flags : TransferFlags) :
    LibusbProgram (TransferFlags ⊕ ℤ × TransferFlags) :=
  if flags.allTransfersCompleted = 0 then do
    let (status, flags) ← request (LibusbCall.handleEvents flags)
    if status ≠ libhothOk ∧ status ≠ libusbErrorInterrupted then return .inr (status, flags)
    else return .inl flags
  else return .inr (libhothOk,
    { flags with inTransferCompleted := true, outTransferCompleted := true })

/-- One round of the loop that waits for the cancelled transfers. -/
def drainRound (flags : TransferFlags) : LibusbProgram (TransferFlags ⊕ TransferFlags) :=
  if flags.allTransfersCompleted = 0 then do
    let (_, flags) ← request (LibusbCall.handleEvents flags)
    return .inl flags
  else return .inr flags

/-- The label `out`: pending transfers are cancelled and waited for. The loop is cut off after a
number of rounds. -/
def cancelAndDrain (status : ℤ) (flags : TransferFlags) (rounds : ℕ) :
    LibusbProgram (Option (ℤ × TransferFlags)) := do
  cancelTransfer .inTransfer flags
  cancelTransfer .outTransfer flags
  let drained ← whileRounds drainRound rounds flags
  return drained.map fun flags ↦ (status, flags)

/-- `libhoth_usb_fifo_run_transfers`, with its loops cut off after a number of rounds. -/
def libhothUsbFifoRunTransfers (out into : Bool) (rounds : ℕ) :
    LibusbProgram (Option (ℤ × TransferFlags)) := do
  let (status, flags) ← submitTransfer into .inTransfer .initial
  if status ≠ libhothOk then cancelAndDrain status flags rounds
  else do
    let (status, flags) ← submitTransfer out .outTransfer flags
    if status ≠ libhothOk then cancelAndDrain status flags rounds
    else
      match ← whileRounds waitRound rounds flags with
      | none => return none
      | some (status, flags) => cancelAndDrain status flags rounds

/-! ### The library -/

/-- The library's side: which transfers are in flight, the status that the last callback of a
transfer ran with since it was submitted, and the flags at every moment so far at which the library
or a callback was entered or left. -/
structure UsbWorld where
  inFlight : FifoTransfer → Bool
  finished : FifoTransfer → Option LibusbTransferStatus
  moments : List TransferFlags

namespace UsbWorld

/-- One more moment. -/
def observe (world : UsbWorld) (flags : TransferFlags) : UsbWorld :=
  { world with moments := world.moments ++ [flags] }

/-- A transfer was submitted. -/
def launch (world : UsbWorld) (transfer : FifoTransfer) : UsbWorld :=
  { world with
    inFlight := Function.update world.inFlight transfer true
    finished := Function.update world.finished transfer none }

/-- A transfer ended with a status, and its callback is to run. -/
def land (world : UsbWorld) (transfer : FifoTransfer) (status : LibusbTransferStatus) : UsbWorld :=
  { world with
    inFlight := Function.update world.inFlight transfer false
    finished := Function.update world.finished transfer (some status) }

/-- Nothing is in flight and nothing was observed. -/
def idle : UsbWorld where
  inFlight := fun _ ↦ false
  finished := fun _ ↦ none
  moments := []

end UsbWorld

/-- The calls that do not handle events. A transfer that was cancelled stays in flight until its
callback has run. -/
def libusbDirect : Environment LibusbReply UsbWorld
  | world, .submit transfer flags, status, next =>
    next = if status = libhothOk then (world.observe flags).launch transfer
      else world.observe flags
  | world, .cancel _ flags, _, next => next = world.observe flags
  | _, .handleEvents _, _, _ => False

/-- Some callbacks run, one after the other, each for a transfer in flight with any status. -/
inductive Callbacks : UsbWorld → TransferFlags → UsbWorld → TransferFlags → Prop
  | none (world : UsbWorld) (flags : TransferFlags) : Callbacks world flags world flags
  | step {world called next : UsbWorld} {flags left last : TransferFlags}
    (transfer : FifoTransfer) (status : LibusbTransferStatus)
    (hflight : world.inFlight transfer = true)
    (hcallback : Runs libusbDirect (fifoTransferCallback transfer status flags)
      (world.land transfer status) left called)
    (hrest : Callbacks (called.observe left) left next last) : Callbacks world flags next last

/-- The library: handling events runs some callbacks and returns any status. -/
def libusb : Environment LibusbReply UsbWorld
  | world, .handleEvents flags, reply, next =>
    Callbacks (world.observe flags) flags next reply.2
  | world, .submit transfer flags, status, next =>
    libusbDirect world (.submit transfer flags) status next
  | world, .cancel transfer flags, status, next =>
    libusbDirect world (.cancel transfer flags) status next

/-! ### What every step keeps -/

/-- `all_transfers_completed` is set when both transfers are completed, and is clear otherwise. -/
def TransferFlags.Consistent (flags : TransferFlags) : Prop :=
  flags.allTransfersCompleted =
    if flags.inTransferCompleted = true ∧ flags.outTransferCompleted = true then 1 else 0

/-- The flags follow the library: a transfer is in flight exactly as long as it is not marked as
completed, and one that was submitted is in flight or has its result. -/
structure Tracking (wanted : FifoTransfer → Prop) (flags : TransferFlags) (world : UsbWorld) :
    Prop where
  consistent : flags.Consistent
  pending : ∀ transfer, world.inFlight transfer = !flags.completed transfer
  result : ∀ transfer, wanted transfer →
    world.inFlight transfer = true ∨ (world.finished transfer).isSome
  moments : ∀ moment ∈ world.moments, moment.Consistent

section Flags

variable (flags : TransferFlags)

theorem TransferFlags.Consistent.eq_one_iff {flags : TransferFlags} (hflags : flags.Consistent) :
    flags.allTransfersCompleted = 1 ↔
      flags.inTransferCompleted = true ∧ flags.outTransferCompleted = true := by
  rw [hflags]
  split_ifs with hboth <;> simp [hboth]

theorem TransferFlags.Consistent.eq_zero {flags : TransferFlags} (hflags : flags.Consistent)
    {transfer : FifoTransfer} (hpending : flags.completed transfer = false) :
    flags.allTransfersCompleted = 0 := by
  rw [hflags, if_neg]
  rintro ⟨hin, hout⟩
  cases transfer
  · exact Bool.false_ne_true (hpending.symm.trans hin)
  · exact Bool.false_ne_true (hpending.symm.trans hout)

theorem TransferFlags.Consistent.completed {flags : TransferFlags} (hflags : flags.Consistent)
    (hall : flags.allTransfersCompleted ≠ 0) (transfer : FifoTransfer) :
    flags.completed transfer = true := by
  by_contra hpending
  exact hall (hflags.eq_zero (Bool.not_eq_true _ ▸ hpending))

@[simp] theorem TransferFlags.withCompleted_allTransfersCompleted (value : Bool)
    (transfer : FifoTransfer) :
    (flags.withCompleted value transfer).allTransfersCompleted = flags.allTransfersCompleted := by
  cases transfer <;> rfl

@[simp] theorem TransferFlags.completed_of_allTransfersCompleted (value : ℤ) :
    { flags with allTransfersCompleted := value }.completed = flags.completed := by
  funext transfer
  cases transfer <;> rfl

theorem TransferFlags.withCompleted_completed (value : Bool) (transfer other : FifoTransfer) :
    (flags.withCompleted value transfer).completed other =
      Function.update flags.completed transfer value other := by
  cases transfer <;> cases other <;> rfl

end Flags

section Steps

variable {wanted : FifoTransfer → Prop} {flags : TransferFlags} {world : UsbWorld}

theorem Tracking.moments_snoc (htracking : Tracking wanted flags world) {now : TransferFlags}
    (hnow : now.Consistent) : ∀ moment ∈ (world.observe now).moments, moment.Consistent :=
  forall_mem_snoc htracking.moments hnow

theorem Tracking.observe (htracking : Tracking wanted flags world) :
    Tracking wanted flags (world.observe flags) :=
  { htracking with moments := htracking.moments_snoc htracking.consistent }

/-- A transfer that lands leaves the library with the flags of its callback after the first
line. -/
theorem Tracking.land_pending (htracking : Tracking wanted flags world) (transfer : FifoTransfer)
    (status : LibusbTransferStatus) (other : FifoTransfer) :
    (world.land transfer status).inFlight other =
      !(flags.withCompleted true transfer).completed other := by
  rw [TransferFlags.withCompleted_completed]
  by_cases hsame : other = transfer
  · subst hsame
    simp [UsbWorld.land]
  · simp [UsbWorld.land, Function.update_of_ne hsame, htracking.pending]

theorem Tracking.land_result (htracking : Tracking wanted flags world) (transfer : FifoTransfer)
    (status : LibusbTransferStatus) (other : FifoTransfer) (hwanted : wanted other) :
    (world.land transfer status).inFlight other = true ∨
      ((world.land transfer status).finished other).isSome := by
  by_cases hsame : other = transfer
  · subst hsame
    simp [UsbWorld.land]
  · simpa [UsbWorld.land, Function.update_of_ne hsame] using htracking.result other hwanted

/-- The last line of the callback leaves flags that agree, as one transfer was pending. -/
theorem TransferFlags.settled_consistent (hzero : flags.allTransfersCompleted = 0) :
    flags.settled.Consistent := by
  rw [TransferFlags.settled]
  split_ifs with hboth
  · exact (if_pos hboth).symm
  · exact hzero.trans (if_neg hboth).symm

@[simp] theorem TransferFlags.settled_completed (transfer : FifoTransfer) :
    flags.settled.completed transfer = flags.completed transfer := by
  rw [TransferFlags.settled]
  split_ifs <;> cases transfer <;> rfl

/-- A transfer that is still pending agrees with a clear flag. -/
theorem TransferFlags.consistent_of_pending (hzero : flags.allTransfersCompleted = 0)
    (transfer : FifoTransfer) (hpending : flags.completed transfer = false) :
    flags.Consistent := by
  rw [TransferFlags.Consistent, hzero, if_neg]
  rintro ⟨hin, hout⟩
  cases transfer
  · exact Bool.false_ne_true (hpending.symm.trans hin)
  · exact Bool.false_ne_true (hpending.symm.trans hout)

/-- Cancelling only enters the library, with flags in which a transfer is pending. -/
theorem cancelTransfer_ensures {environment : Environment LibusbReply UsbWorld}
    (hcancel : ∀ world transfer flags status next,
      environment world (.cancel transfer flags) status next → next = world.observe flags)
    (transfer : FifoTransfer) (flags : TransferFlags) (world : UsbWorld) :
    Ensures environment (cancelTransfer transfer flags) world fun _ next ↦
      next = world ∨ (flags.completed transfer = false ∧ next = world.observe flags) := by
  rw [cancelTransfer]
  split_ifs with hcompleted
  · exact (ensures_done _ _ _).mpr (.inl rfl)
  · rw [ensures_bind, ensures_request]
    intro status next hstep
    exact (ensures_done _ _ _).mpr (.inr ⟨Bool.not_eq_true _ ▸ hcompleted, hcancel _ _ _ _ _ hstep⟩)

/-- The callback of a transfer in flight leaves flags that follow the library again. -/
theorem fifoTransferCallback_ensures (htracking : Tracking wanted flags world)
    (transfer : FifoTransfer) (status : LibusbTransferStatus)
    (hflight : world.inFlight transfer = true) :
    Ensures libusbDirect (fifoTransferCallback transfer status flags) (world.land transfer status)
      (Tracking wanted) := by
  have hpending : flags.completed transfer = false := by
    simpa [hflight] using htracking.pending transfer
  have hzero : (flags.withCompleted true transfer).allTransfersCompleted = 0 := by
    rw [TransferFlags.withCompleted_allTransfersCompleted, htracking.consistent.eq_zero hpending]
  have hlanded : Tracking wanted (flags.withCompleted true transfer).settled
      (world.land transfer status) :=
    { consistent := TransferFlags.settled_consistent hzero
      pending := fun other ↦ by
        rw [TransferFlags.settled_completed, htracking.land_pending]
      result := htracking.land_result transfer status
      moments := htracking.moments }
  rw [fifoTransferCallback]
  split_ifs with hfailed
  · rw [ensures_bind]
    refine (cancelTransfer_ensures (fun _ _ _ _ _ hstep ↦ hstep) _ _ _).mono
      fun _ next hnext ↦ (ensures_done _ _ _).mpr ?_
    rcases hnext with rfl | ⟨hsibling, rfl⟩
    · exact hlanded
    · exact { hlanded with
        moments := hlanded.moments_snoc (TransferFlags.consistent_of_pending hzero _ hsibling) }
  · exact (ensures_done _ _ _).mpr hlanded

/-- However many callbacks run in a row, the flags follow the library after each. -/
theorem Callbacks.tracking {next : UsbWorld} {last : TransferFlags}
    (hcallbacks : Callbacks world flags next last) (htracking : Tracking wanted flags world) :
    Tracking wanted last next := by
  induction hcallbacks with
  | none => exact htracking
  | step transfer status hflight hcallback _ ih =>
    exact ih (fifoTransferCallback_ensures htracking transfer status hflight _ _
      hcallback).observe

/-- Handling events keeps the flags and the library together. -/
theorem handleEvents_tracking (htracking : Tracking wanted flags world)
    (reply : ℤ × TransferFlags) (next : UsbWorld)
    (hstep : libusb world (.handleEvents flags) reply next) : Tracking wanted reply.2 next :=
  Callbacks.tracking hstep htracking.observe

/-- A transfer that the library accepted is in flight and marked as pending. -/
theorem Tracking.launch (htracking : Tracking wanted flags world) (transfer : FifoTransfer) :
    Tracking (fun other ↦ wanted other ∨ other = transfer) (flags.submitted transfer)
      (world.launch transfer) where
  consistent := by
    refine TransferFlags.consistent_of_pending ?_ transfer ?_
    · rw [TransferFlags.submitted, TransferFlags.withCompleted_allTransfersCompleted]
    · rw [TransferFlags.submitted, TransferFlags.withCompleted_completed, Function.update_self]
  pending := by
    intro other
    rw [TransferFlags.submitted, TransferFlags.withCompleted_completed,
      TransferFlags.completed_of_allTransfersCompleted]
    by_cases hsame : other = transfer
    · subst hsame
      simp [UsbWorld.launch]
    · simpa [UsbWorld.launch, Function.update_of_ne hsame] using htracking.pending other
  result := by
    intro other hwanted
    by_cases hsame : other = transfer
    · subst hsame
      exact .inl (Function.update_self _ _ _)
    · have hbefore := htracking.result other (hwanted.resolve_right hsame)
      simpa [UsbWorld.launch, Function.update_of_ne hsame] using hbefore
  moments := htracking.moments

theorem Tracking.weaken {fewer : FifoTransfer → Prop} (htracking : Tracking wanted flags world)
    (hfewer : ∀ transfer, fewer transfer → wanted transfer) : Tracking fewer flags world :=
  { htracking with
    result := fun transfer htransfer ↦ htracking.result transfer (hfewer _ htransfer) }

theorem submitTransfer_ensures (submitted : Bool) (transfer : FifoTransfer)
    (htracking : Tracking wanted flags world) :
    Ensures libusb (submitTransfer submitted transfer flags) world fun outcome next ↦
      Tracking wanted outcome.2 next ∧ (outcome.1 = libhothOk →
        Tracking (fun other ↦ wanted other ∨ (submitted = true ∧ other = transfer))
          outcome.2 next) := by
  rw [submitTransfer]
  split_ifs with hsubmitted
  · rw [ensures_bind, ensures_request]
    intro status next hstep
    obtain rfl : next = if status = libhothOk then (world.observe flags).launch transfer
      else world.observe flags := hstep
    by_cases hstatus : status = libhothOk
    · have hlaunched := htracking.observe.launch transfer
      rw [if_neg (not_not.mpr hstatus), if_pos hstatus, pure_eq_done, ensures_done]
      refine ⟨hlaunched.weaken fun _ hwanted ↦ .inl hwanted, fun _ ↦ hlaunched.weaken ?_⟩
      exact fun _ hwanted ↦ hwanted.imp_right And.right
    · rw [if_pos hstatus, if_neg hstatus, pure_eq_done, ensures_done]
      exact ⟨htracking.observe, fun hok ↦ absurd hok hstatus⟩
  · rw [pure_eq_done, ensures_done]
    exact ⟨htracking, fun _ ↦ htracking.weaken fun _ hwanted ↦
      hwanted.resolve_right fun hother ↦ hsubmitted hother.1⟩

/-! ### The loops -/

/-- What a run of the function leaves behind: the flags agreed at every moment, and when it returns,
no transfer is pending and the ones that its status promises have their result. -/
structure RunEnd (promised : ℤ → FifoTransfer → Prop) (outcome : Option (ℤ × TransferFlags))
    (world : UsbWorld) : Prop where
  moments : ∀ moment ∈ world.moments, moment.Consistent
  tracking : ∀ status flags, outcome = some (status, flags) →
    Tracking (promised status) flags world
  completed : ∀ status flags, outcome = some (status, flags) → flags.allTransfersCompleted ≠ 0

theorem Tracking.runEnd_none (htracking : Tracking wanted flags world)
    (promised : ℤ → FifoTransfer → Prop) : RunEnd promised none world where
  moments := htracking.moments
  tracking := fun _ _ hresult ↦ absurd hresult.symm (Option.some_ne_none _)
  completed := fun _ _ hresult ↦ absurd hresult.symm (Option.some_ne_none _)

theorem drainRound_ensures (htracking : Tracking wanted flags world) :
    Ensures libusb (drainRound flags) world fun outcome next ↦
      match outcome with
      | .inl flags => Tracking wanted flags next
      | .inr flags => Tracking wanted flags next ∧ flags.allTransfersCompleted ≠ 0 := by
  rw [drainRound]
  split_ifs with hpending
  · rw [ensures_bind, ensures_request]
    intro reply next hstep
    exact (ensures_done _ _ _).mpr (handleEvents_tracking htracking reply next hstep)
  · exact (ensures_done _ _ _).mpr ⟨htracking, hpending⟩

theorem waitRound_ensures (htracking : Tracking wanted flags world) :
    Ensures libusb (waitRound flags) world fun outcome next ↦
      match outcome with
      | .inl flags => Tracking wanted flags next
      | .inr (_, flags) => Tracking wanted flags next := by
  rw [waitRound]
  split_ifs with hpending
  · rw [ensures_bind, ensures_request]
    intro reply next hstep
    have hnext := handleEvents_tracking htracking reply next hstep
    dsimp only
    split_ifs
    · exact (ensures_done _ _ _).mpr hnext
    · exact (ensures_done _ _ _).mpr hnext
  · have hsame :
        { flags with inTransferCompleted := true, outTransferCompleted := true } = flags := by
      have hin := htracking.consistent.completed hpending .inTransfer
      have hout := htracking.consistent.completed hpending .outTransfer
      cases flags
      cases hin
      cases hout
      rfl
    rw [hsame]
    exact (ensures_done _ _ _).mpr htracking

/-- Whatever the status, the label `out` waits until no transfer is pending. -/
theorem cancelAndDrain_ensures {promised : ℤ → FifoTransfer → Prop} (status : ℤ)
    (htracking : Tracking (promised status) flags world) (rounds : ℕ) :
    Ensures libusb (cancelAndDrain status flags rounds) world (RunEnd promised) := by
  have hcancel (transfer : FifoTransfer) {start : UsbWorld}
      (hstart : Tracking (promised status) flags start) :
      Ensures libusb (cancelTransfer transfer flags) start fun _ next ↦
        Tracking (promised status) flags next := by
    refine (cancelTransfer_ensures (fun _ _ _ _ _ hstep ↦ hstep) _ _ _).mono fun _ next hnext ↦ ?_
    rcases hnext with rfl | ⟨-, rfl⟩
    · exact hstart
    · exact hstart.observe
  rw [cancelAndDrain, ensures_bind]
  refine (hcancel .inTransfer htracking).mono fun _ world hin ↦ ?_
  rw [ensures_bind]
  refine (hcancel .outTransfer hin).mono fun _ world hout ↦ ?_
  rw [ensures_bind]
  refine (whileRounds_ensures (fun flags world ↦ Tracking (promised status) flags world)
    (fun flags world hflags ↦ (drainRound_ensures hflags).mono
      fun outcome _ h ↦ by cases outcome <;> exact h) rounds flags world hout).mono
    fun drained final hdrained ↦ (ensures_done _ _ _).mpr ?_
  cases drained with
  | none =>
    obtain ⟨last, hlast⟩ := hdrained.2 rfl
    exact hlast.runEnd_none promised
  | some last =>
    obtain ⟨hlast, hcompleted⟩ := hdrained.1 last rfl
    refine ⟨hlast.moments, fun _ _ hresult ↦ ?_, fun _ _ hresult ↦ ?_⟩
    · obtain ⟨rfl, rfl⟩ := Prod.mk.inj (Option.some.inj hresult)
      exact hlast
    · obtain ⟨-, rfl⟩ := Prod.mk.inj (Option.some.inj hresult)
      exact hcompleted

end Steps

/-! ### The function -/

/-- The transfers that the arguments ask for. -/
def Requested (out into : Bool) : FifoTransfer → Prop
  | .inTransfer => into = true
  | .outTransfer => out = true

/-- Success promises the result of every transfer that was asked for. -/
def Promised (out into : Bool) (status : ℤ) (transfer : FifoTransfer) : Prop :=
  status = libhothOk ∧ Requested out into transfer

/-- The library between two calls of the function: no transfer is in flight, and the flags are as
they are before a transfer is submitted. -/
def Settled (world : UsbWorld) : Prop :=
  Tracking (fun _ ↦ False) .initial world

theorem settled_idle : Settled UsbWorld.idle where
  consistent := rfl
  pending := fun transfer ↦ by cases transfer <;> rfl
  result := fun _ hwanted ↦ hwanted.elim
  moments := fun _ hmoment ↦ absurd hmoment List.not_mem_nil

/-- Nothing is promised after a failure. -/
theorem Tracking.promised_of_ne {wanted : FifoTransfer → Prop} {flags : TransferFlags}
    {world : UsbWorld} (htracking : Tracking wanted flags world) {status : ℤ}
    (hstatus : status ≠ libhothOk) (out into : Bool) :
    Tracking (Promised out into status) flags world :=
  htracking.weaken fun _ hpromised ↦ absurd hpromised.1 hstatus

theorem libhothUsbFifoRunTransfers_ensures (out into : Bool) (rounds : ℕ) {start : UsbWorld}
    (hsettled : Settled start) :
    Ensures libusb (libhothUsbFifoRunTransfers out into rounds) start
      (RunEnd (Promised out into)) := by
  rw [libhothUsbFifoRunTransfers, ensures_bind]
  refine (submitTransfer_ensures into .inTransfer hsettled).mono ?_
  rintro ⟨status, flags⟩ world ⟨hin, hsubmitted⟩
  dsimp only
  split_ifs with hstatus
  · exact cancelAndDrain_ensures status (hin.promised_of_ne hstatus out into) rounds
  rw [ensures_bind]
  refine (submitTransfer_ensures out .outTransfer (hsubmitted (not_not.mp hstatus))).mono ?_
  rintro ⟨status, flags⟩ world ⟨hout, hsubmitted⟩
  dsimp only
  split_ifs with hstatus
  · exact cancelAndDrain_ensures status (hout.promised_of_ne hstatus out into) rounds
  have hrequested : Tracking (Requested out into) flags world := by
    refine (hsubmitted (not_not.mp hstatus)).weaken fun transfer htransfer ↦ ?_
    cases transfer with
    | inTransfer => exact .inl (.inr ⟨htransfer, rfl⟩)
    | outTransfer => exact .inr ⟨htransfer, rfl⟩
  have hloop : Ensures libusb (whileRounds waitRound rounds flags) world fun outcome final ↦
      (∀ result, outcome = some result → Tracking (Requested out into) result.2 final) ∧
        (outcome = none → ∃ last, Tracking (Requested out into) last final) :=
    whileRounds_ensures (fun flags world ↦ Tracking (Requested out into) flags world)
      (fun flags world hflags ↦ (waitRound_ensures hflags).mono
        fun outcome _ h ↦ by cases outcome <;> exact h) rounds flags world hrequested
  rw [ensures_bind]
  refine hloop.mono ?_
  rintro (_ | ⟨status, flags⟩) final ⟨hwaited, hcut⟩
  · obtain ⟨last, hlast⟩ := hcut rfl
    exact (ensures_done _ _ _).mpr (hlast.runEnd_none _)
  · exact cancelAndDrain_ensures status ((hwaited _ rfl).weaken fun _ hpromised ↦ hpromised.2)
      rounds

section Returned

variable {out into : Bool} {status : ℤ} {flags : TransferFlags} {world : UsbWorld}

/-- When the function returns, no transfer is in flight. -/
theorem RunEnd.settled (hend : RunEnd (Promised out into) (some (status, flags)) world) :
    Settled world := by
  have htracking := hend.tracking status flags rfl
  have hcompleted := htracking.consistent.completed (hend.completed status flags rfl)
  refine ⟨rfl, fun transfer ↦ ?_, fun _ hwanted ↦ hwanted.elim, hend.moments⟩
  rw [htracking.pending, hcompleted]
  cases transfer <;> rfl

/-- When the function succeeds, the callback of every transfer that was asked for has run. -/
theorem RunEnd.finished (hend : RunEnd (Promised out into) (some (libhothOk, flags)) world)
    (transfer : FifoTransfer) (hrequested : Requested out into transfer) :
    (world.finished transfer).isSome := by
  have htracking := hend.tracking libhothOk flags rfl
  have hcompleted := htracking.consistent.completed (hend.completed libhothOk flags rfl)
  rcases htracking.result transfer ⟨rfl, hrequested⟩ with hflight | hresult
  · rw [htracking.pending, hcompleted] at hflight
    exact absurd hflight Bool.false_ne_true
  · exact hresult

end Returned

/-- Whichever transfers are run, and whatever the library answers: the flags agree at every moment,
and when the function returns, no transfer is in flight. -/
theorem libhothUsbFifoRunTransfers_drains (out into : Bool) (rounds : ℕ) :
    Ensures libusb (libhothUsbFifoRunTransfers out into rounds) UsbWorld.idle fun outcome final ↦
      (∀ moment ∈ final.moments, moment.allTransfersCompleted = 1 ↔
        moment.inTransferCompleted = true ∧ moment.outTransferCompleted = true) ∧
      ∀ status flags, outcome = some (status, flags) →
        (∀ transfer, final.inFlight transfer = false) ∧ flags.allTransfersCompleted = 1 ∧
          flags.inTransferCompleted = true ∧ flags.outTransferCompleted = true := by
  refine (libhothUsbFifoRunTransfers_ensures out into rounds settled_idle).mono
    fun outcome final hend ↦ ?_
  refine ⟨fun moment hmoment ↦ (hend.moments moment hmoment).eq_one_iff, ?_⟩
  intro status flags houtcome
  have htracking := hend.tracking status flags houtcome
  have hcompleted := htracking.consistent.completed (hend.completed status flags houtcome)
  have hboth : flags.inTransferCompleted = true ∧ flags.outTransferCompleted = true :=
    ⟨hcompleted .inTransfer, hcompleted .outTransfer⟩
  refine ⟨fun transfer ↦ ?_, htracking.consistent.eq_one_iff.mpr hboth, hboth⟩
  rw [htracking.pending, hcompleted, Bool.not_true]

/-- When the function succeeds, the callback of every transfer that was asked for has run. -/
theorem libhothUsbFifoRunTransfers_finishes (out into : Bool) (rounds : ℕ) :
    Ensures libusb (libhothUsbFifoRunTransfers out into rounds) UsbWorld.idle fun outcome final ↦
      ∀ flags transfer, outcome = some (libhothOk, flags) → Requested out into transfer →
        (final.finished transfer).isSome := by
  refine (libhothUsbFifoRunTransfers_ensures out into rounds settled_idle).mono
    fun outcome final hend ↦ ?_
  rintro flags transfer rfl hrequested
  exact hend.finished transfer hrequested

end Libhoth.Transports.UsbFifoTransfers
