import Libhoth.Transports.UsbFifoReceive
import Libhoth.Transports.UsbFifoTransfers

/-!
# The FIFO transport on its transfers

`libhoth_usb_fifo_receive_response` asks for a run of the transfers as one request, which a reply of
any status may meet. Here that request is `libhoth_usb_fifo_run_transfers` itself, on the library
(`libusbTransfers`): the status of the reply is what the function returns, and when it succeeds, the
statuses of the transfers are those that their callbacks ran with.

Whatever the function returns is such a reply (`exists_reply_of_run`), so nothing that it can do is
missing from the requests. No program over them leaves a transfer in flight, and a receive call
keeps its contract (`libhothUsbFifoReceiveResponse_over_libusb`).
-/

set_option autoImplicit false
set_option relaxedAutoImplicit false

namespace Libhoth.Transports.UsbFifoOverLibusb

open Foundation.InteractingProgram
open Libusb UsbFifo UsbFifoReceive
open UsbFifoTransfers (FifoTransfer TransferFlags UsbWorld libusb Settled settled_idle)

/-- The requests of the transport on the library, with the loops cut off after a number of rounds.
Clearing a halt leaves the transfers alone. -/
def libusbTransfers (rounds : ℕ) : Environment FifoReply UsbWorld := fun before call reply after ↦
  match call, reply with
  | .runTransfers out _, reply =>
    ∃ flags, Runs libusb (UsbFifoTransfers.libhothUsbFifoRunTransfers out.isSome true rounds) before
        (some (reply.status, flags)) after ∧
      (reply.status = libhothOk → after.finished .inTransfer = some reply.inStatus ∧
        (out.isSome → after.finished .outTransfer = some reply.outStatus))
  | .clearHalt _, _ => after = before

section Replies

variable {rounds : ℕ} {before after : UsbWorld}

/-- Whatever the function returns is a reply to the request. -/
theorem exists_reply_of_run (hsettled : Settled before) (out : Option OutSubmission)
    (into : InSubmission) {status : ℤ} {flags : TransferFlags}
    (hrun : Runs libusb (UsbFifoTransfers.libhothUsbFifoRunTransfers out.isSome true rounds) before
      (some (status, flags)) after) :
    ∃ reply : RunReply into.length, reply.status = status ∧
      libusbTransfers rounds before (.runTransfers out into) reply after := by
  have hend := UsbFifoTransfers.libhothUsbFifoRunTransfers_ensures out.isSome true rounds hsettled
    _ _ hrun
  have hresult {ended : Option LibusbTransferStatus} (hended : ended.isSome) :
      ended = some (ended.getD .error) := by
    obtain ⟨last, rfl⟩ := Option.isSome_iff_exists.mp hended
    rfl
  refine ⟨⟨status, (after.finished .outTransfer).getD .error, 0,
    (after.finished .inTransfer).getD .error, [], Nat.zero_le _⟩, rfl, flags, hrun, ?_⟩
  rintro rfl
  exact ⟨hresult (hend.finished .inTransfer rfl), fun hout ↦
    hresult (hend.finished .outTransfer hout)⟩

/-- Every request leaves no transfer in flight. -/
theorem settled_of_step {call : FifoCall} {reply : FifoReply call} (hsettled : Settled before)
    (hstep : libusbTransfers rounds before call reply after) : Settled after := by
  cases call with
  | runTransfers out into =>
    obtain ⟨flags, hrun, -⟩ := hstep
    exact (UsbFifoTransfers.libhothUsbFifoRunTransfers_ensures out.isSome true rounds hsettled _ _
      hrun).settled
  | clearHalt endpoint =>
    obtain rfl := hstep
    exact hsettled

end Replies

/-- Nor does any program over the requests. -/
theorem settled_ensures {α : Type} (rounds : ℕ) (program : FifoProgram α) {world : UsbWorld}
    (hsettled : Settled world) :
    Ensures (libusbTransfers rounds) program world fun _ final ↦ Settled final :=
  ensures_of_step (fun _ _ _ _ hbefore hstep ↦ settled_of_step hbefore hstep) program hsettled

/-- A receive call for a pending request, on the library: no transfer is in flight behind it, and
it ends in its contract for what the transfers have brought. -/
theorem libhothUsbFifoReceiveResponse_over_libusb {maxResponseSize : ℕ}
    (hsize : maxResponseSize ≤ libhothUsbFifoMaxRequestSize) {drvdata : LibhothUsbFifo}
    (hpending : drvdata.outTransfer.length ≠ 0) (timeoutMs : ℕ) (response : ℕ → UInt8)
    (rounds : ℕ) :
    Ensures (keeping (libusbTransfers rounds))
      (libhothUsbFifoReceiveResponse drvdata maxResponseSize timeoutMs response)
      ([], UsbWorld.idle) fun result final ↦
        (∀ transfer, final.2.inFlight transfer = false) ∧
          ∃ out, result = .ok out ∧
            ReceiveEnd (pendingId drvdata) maxResponseSize response final.1 out := by
  have hsettles : Ensures (libusbTransfers rounds)
      (libhothUsbFifoReceiveResponse drvdata maxResponseSize timeoutMs response) UsbWorld.idle
      fun _ final ↦ ∀ transfer, final.inFlight transfer = false := by
    refine (settled_ensures rounds _ settled_idle).mono fun _ final hsettled transfer ↦ ?_
    rw [hsettled.pending]
    cases transfer <;> rfl
  intro result final hrun
  obtain ⟨hlibrary, hrecorded⟩ := hrun.of_keeping
  exact ⟨hsettles result final.2 hlibrary,
    receive_ensures_of_pending hsize hpending timeoutMs response result final.1 hrecorded⟩

end Libhoth.Transports.UsbFifoOverLibusb
