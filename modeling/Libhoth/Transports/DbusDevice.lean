import Libhoth.Foundation.InteractingProgram
import Libhoth.Transports.LibhothEc

/-!
# The D-Bus transport

`send` and `receive` of `libhoth_dbus.c` on an open device. A request is kept as a message of the
system bus, a call of the method `SendHostCommand`, and goes out when the response is received. What
the two functions ask of the system bus and of the C library is a `DbusCall`.

A message is what its pointer points to: the object and the method that it calls, and the bytes of
the request. The reply to a call is known by a number.
-/

set_option autoImplicit false
set_option relaxedAutoImplicit false

namespace Libhoth.Transports.DbusDevice

open Foundation.CellMemory Foundation.InteractingProgram Protocol.Status LibhothEc

/-! ### Constants and error words -/

/-- `HOTHD_SERVICE`. -/
def hothdService : String := "xyz.openbmc_project.Control.Hoth"

/-- `HOTHD_OBJECT`. -/
def hothdObject : String := "/xyz/openbmc_project/Control/Hoth"

/-- `HOTHD_INTERFACE`. -/
def hothdInterface : String := "xyz.openbmc_project.Control.Hoth"

/-- `SEND_HOST_CMD_METHOD`. -/
def sendHostCmdMethod : String := "SendHostCommand"

/-- An error word of the D-Bus transport. -/
def dbusError (space : HothHostSpace) (code : ℤ) : LibhothError :=
  libhothErrConstruct (BitVec.ofNat 64 HothContextId.init.value) (BitVec.ofNat 64 space.value)
    (BitVec.ofInt 64 code)

/-- `dbus_err_posix`. -/
def dbusErrPosix (errnum : ℤ) : LibhothError :=
  if errnum = 0 then hothSuccess else dbusError .posix errnum

/-- `dbus_err_libhoth`. -/
def dbusErrLibhoth (libhothErr : ℤ) : LibhothError :=
  if libhothErr = libhothOk then hothSuccess else dbusError .libhoth libhothErr

/-- An error word of the D-Bus transport is never success. -/
@[simp] theorem dbusError_ne_success (space : HothHostSpace) (code : ℤ) :
    dbusError space code ≠ hothSuccess :=
  libhothErrConstruct_ne_success (by decide) _ _

@[simp] theorem dbusErrPosix_eq_success_iff (errnum : ℤ) :
    dbusErrPosix errnum = hothSuccess ↔ errnum = 0 := by
  unfold dbusErrPosix
  split_ifs with hzero <;> simp [hzero]

@[simp] theorem dbusErrLibhoth_eq_success_iff (libhothErr : ℤ) :
    dbusErrLibhoth libhothErr = hothSuccess ↔ libhothErr = libhothOk := by
  unfold dbusErrLibhoth
  split_ifs with hok <;> simp [hok]

/-! ### The system bus -/

/-- An `sd_bus_message` that calls a method with an array of bytes. -/
structure SdBusMessage where
  destination : String
  path : String
  interface : String
  member : String
  body : List UInt8

/-- What the transport asks of the system bus and of the C library. -/
inductive DbusCall
  | messageNewMethodCall (bus : ℕ) (message : SdBusMessage)
  | messageAppendArray (message : SdBusMessage) (bytes : List UInt8)
  | call (bus : ℕ) (message : SdBusMessage) (timeoutUsec : UInt64)
  | messageReadArray (reply : ℕ)
  | messageUnref (message : Option SdBusMessage)
  | replyUnref (reply : Option ℕ)
  | errorFree
  | strerror (errnum : ℤ)
  | fprintf (text : String)

/-- A negative error number, or a value. -/
inductive ErrnoOr (α : Type)
  | failed (rv : ℤ) (negative : rv < 0)
  | ok (value : α)

/-- The replies: errors, the text of an error, and the bytes in a reply. A call that fails also
leaves a message. -/
abbrev DbusReply : DbusCall → Type
  | .messageNewMethodCall _ _ => ErrnoOr Unit
  | .messageAppendArray _ _ => ErrnoOr Unit
  | .call _ _ _ => ErrnoOr ℕ × String
  | .messageReadArray _ => ErrnoOr (List UInt8)
  | .messageUnref _ => Unit
  | .replyUnref _ => Unit
  | .errorFree => Unit
  | .strerror _ => String
  | .fprintf _ => Unit

/-- Programs of the D-Bus transport. -/
abbrev DbusProgram := Interaction DbusReply

/-! ### The device -/

/-- `struct libhoth_dbus_device`. The request is missing when the pointer is null. -/
structure LibhothDbusDevice where
  bus : ℕ
  request : Option SdBusMessage
  service : String
  object : String

/-- `with_hoth_id`, where there is memory for the text. -/
def withHothId (base : String) (delimiter : Char) (hothId : String) : String :=
  if hothId.length = 0 then base else base.push delimiter ++ hothId

/-- The device that `libhoth_dbus_open` leaves. -/
def libhothDbusOpened (bus : ℕ) (hothId : String) : LibhothDbusDevice where
  bus := bus
  request := none
  service := withHothId hothdService '.' hothId
  object := withHothId hothdObject '/' hothId

/-! ### Sending -/

/-- The part of `send` that drops the pending request. -/
def dropPending (ctx : LibhothDbusDevice) : DbusProgram LibhothDbusDevice := do
  if ctx.request.isSome then do
    request (DbusCall.messageUnref ctx.request)
    return { ctx with request := none }
  else return ctx

/-- The label `cleanup` of `send`, with the message that is printed before. -/
def sendCleanup (ctx : LibhothDbusDevice) (failure : String) (rv : ℤ)
    (message : Option SdBusMessage) : DbusProgram (LibhothError × LibhothDbusDevice) := do
  let reason ← request (DbusCall.strerror (-rv))
  request (DbusCall.fprintf s!"{failure}: {reason}\n")
  request (DbusCall.messageUnref message)
  return (dbusErrPosix (-rv), ctx)

/-- The message of a request before its bytes are copied. -/
def hostCommandMessage (ctx : LibhothDbusDevice) : SdBusMessage where
  destination := ctx.service
  path := ctx.object
  interface := hothdInterface
  member := sendHostCmdMethod
  body := []

/-- `send`: the error and the device. -/
def send (ctx : LibhothDbusDevice) (requestData : List UInt8) :
    DbusProgram (LibhothError × LibhothDbusDevice) := do
  let ctx ← dropPending ctx
  let message := hostCommandMessage ctx
  match ← request (DbusCall.messageNewMethodCall ctx.bus message) with
  | .failed rv _ => sendCleanup ctx "Failed to create D-Bus message" rv none
  | .ok _ => do
    match ← request (DbusCall.messageAppendArray message requestData) with
    | .failed rv _ =>
      sendCleanup ctx "Failed to copy request bytes into D-Bus message" rv (some message)
    | .ok _ =>
      return (hothSuccess, { ctx with request := some { message with body := requestData } })

/-! ### Receiving -/

/-- `timeout_usec`: the product is an `int`. -/
def timeoutUsec (timeoutMs : Int32) : UInt64 :=
  (timeoutMs * 1000).toInt64.toUInt64

/-- The label `cleanup` of `receive`. -/
def receiveCleanup (ctx : LibhothDbusDevice) (reply : Option ℕ) (received : Received) :
    DbusProgram (Received × LibhothDbusDevice) := do
  request (DbusCall.replyUnref reply)
  request DbusCall.errorFree
  request (DbusCall.messageUnref ctx.request)
  return (received, { ctx with request := none })

/-- The part of `receive` that takes the bytes out of a reply. -/
def receiveReply (ctx : LibhothDbusDevice) (reply : ℕ) (response : ℕ → UInt8)
    (maxResponseSize : ℕ) (actualSize : Option ℕ) :
    DbusProgram (Received × LibhothDbusDevice) := do
  match ← request (DbusCall.messageReadArray reply) with
  | .failed rv _ => do
    let reason ← request (DbusCall.strerror (-rv))
    request (DbusCall.fprintf s!"Failed to read response array: {reason}\n")
    receiveCleanup ctx (some reply) ⟨dbusErrPosix (-rv), response, actualSize⟩
  | .ok buf => do
    let size := buf.length
    if size > maxResponseSize then do
      request (DbusCall.fprintf
        s!"response size ({size}) greater than max allowed size ({maxResponseSize})\n")
      receiveCleanup ctx (some reply)
        ⟨dbusErrLibhoth (statusInt .responseBufferOverflow), response, actualSize⟩
    else
      receiveCleanup ctx (some reply)
        ⟨hothSuccess, store response 0 buf, actualSize.map fun _ ↦ size⟩

/-- `receive`: what it leaves, and the device. -/
def receive (ctx : LibhothDbusDevice) (response : ℕ → UInt8) (maxResponseSize : ℕ)
    (actualSize : Option ℕ) (timeoutMs : Int32) :
    DbusProgram (Received × LibhothDbusDevice) :=
  match ctx.request with
  | none => do
    request (DbusCall.fprintf
      "Can't receive a response because there's no pending request.\n")
    receiveCleanup ctx none ⟨dbusErrLibhoth (statusInt .fail), response, actualSize⟩
  | some message => do
    match ← request (DbusCall.call ctx.bus message (timeoutUsec timeoutMs)) with
    | (.failed rv _, text) => do
      request (DbusCall.fprintf s!"D-Bus call failed: {text}\n")
      receiveCleanup ctx none ⟨dbusErrPosix (-rv), response, actualSize⟩
    | (.ok reply, _) => receiveReply ctx reply response maxResponseSize actualSize

end Libhoth.Transports.DbusDevice
