import Libhoth.Foundation.SingleSlot
import Libhoth.Transports.DbusDevice
import Libhoth.Transports.MailboxOverSpi

/-!
# Transports that keep their request

The atomic SPI transport and the D-Bus transport keep the request of a send call and put it on the
wire when the response is received. A session is a sequence of calls on one open device, against any
behaviour of the kernel, of the system bus and of the allocator.

For either transport the device is a slot for one request: `slotEvent` reads off a call, from its
error and from what it put on the wire, what it did to the slot. `Buffers` is what the transports
are for. A call law of each transport (`spi_callLaw`, `dbus_callLaw`) gives it for whole sessions
(`Session.buffers_iff`), for SPI except that the length of a transfer has 32 bits
(`requestBuffers_iff`).
-/

set_option autoImplicit false
set_option relaxedAutoImplicit false

namespace Libhoth.Transports.RequestBuffers

open Foundation.InteractingProgram Foundation.SingleSlot
open Protocol.Status LibhothEc SpiDevice MailboxOverSpi DbusDevice

/-! ### Sessions -/

/-- A call on a transport. -/
inductive TransportCall
  | send (requestData : List UInt8)
  | receive (response : ℕ → UInt8) (maxResponseSize : ℕ) (actualSize : Option ℕ)
    (timeoutMs : Int32)

theorem receive_ne_send (response : ℕ → UInt8) (maxResponseSize : ℕ) (actualSize : Option ℕ)
    (timeoutMs : Int32) (requestData : List UInt8) :
    TransportCall.receive response maxResponseSize actualSize timeoutMs ≠ .send requestData :=
  TransportCall.noConfusion

/-- The calls of a transport: how they run on a device, the request that a device keeps, the bytes
of a request that an exchange puts on the wire, and whether a send call that fails drops the request
that is kept. -/
structure BufferingTransport (Request : Type) (Reply : Request → Type) (Device : Type) where
  perform : TransportCall → Device → Interaction Reply (LibhothError × Device)
  pending : Device → Option (List UInt8)
  wire : Exchange Reply → Option (List UInt8)
  clears : Bool

/-- A call that was made: its error, and what it exchanged. -/
structure ServedCall {Request : Type} (Reply : Request → Type) where
  call : TransportCall
  error : LibhothError
  exchanges : List (Exchange Reply)

variable {Request : Type} {Reply : Request → Type} {Device : Type}

/-- A session from a state, with the calls that were made so far. -/
inductive Session (transport : BufferingTransport Request Reply Device) (start : Device) :
    List (ServedCall Reply) → Device → Prop
  | opened : Session transport start [] start
  | snoc {served : List (ServedCall Reply)} {device next : Device} {last : ServedCall Reply}
    (hsession : Session transport start served device)
    (hrun : Runs recording (transport.perform last.call device) [] (last.error, next)
      last.exchanges) : Session transport start (served ++ [last]) next

/-- The requests that a call put on the wire. -/
def onWire (transport : BufferingTransport Request Reply Device) (served : ServedCall Reply) :
    List (List UInt8) :=
  served.exchanges.filterMap transport.wire

/-- What a call did to the request that the device keeps. -/
def slotEvent (transport : BufferingTransport Request Reply Device) (served : ServedCall Reply) :
    SlotEvent (List UInt8) :=
  match served.call with
  | .send requestData =>
    if served.error = hothSuccess then .put requestData
    else if transport.clears then .cleared
    else .kept
  | .receive _ _ _ _ =>
    match onWire transport served with
    | [] => .kept
    | requestData :: _ => .taken requestData

/-- The request that is pending after some calls. -/
def pendingAfter (transport : BufferingTransport Request Reply Device)
    (served : List (ServedCall Reply)) : Option (List UInt8) :=
  occupant (served.map (slotEvent transport))

/-- What a transport that keeps its request is for: a send call puts nothing on the wire and another
call at most one request, the one that was accepted last; a receive call without a pending request
fails and puts nothing on the wire; and the device keeps the request that is pending. -/
structure Buffers (transport : BufferingTransport Request Reply Device)
    (served : List (ServedCall Reply)) (last : Device) : Prop where
  silent : ∀ one ∈ served, ∀ requestData, one.call = .send requestData → onWire transport one = []
  once : ∀ one ∈ served, (onWire transport one).length ≤ 1
  faithful : Faithful (served.map (slotEvent transport))
  idle : AtEach (fun before one ↦ (∀ requestData, one.call ≠ .send requestData) →
    pendingAfter transport before = none → one.error ≠ hothSuccess ∧ onWire transport one = [])
      served
  kept : transport.pending last = pendingAfter transport served

/-! ### The law of one call -/

section Step

variable {transport : BufferingTransport Request Reply Device}

/-- What one call does, for the calls that reach the wire when a request is pending and what then
becomes of its bytes. -/
inductive CallLaw (transport : BufferingTransport Request Reply Device)
    (reaches : TransportCall → Prop) (cut : List UInt8 → List UInt8) (device : Device)
    (one : ServedCall Reply) (next : Device) : Prop
  | sent (requestData : List UInt8) (hcall : one.call = .send requestData)
    (hwire : onWire transport one = [])
    (hnext : transport.pending next = if one.error = hothSuccess then some requestData
      else if transport.clears then none else transport.pending device)
  | received (item : List UInt8) (hcall : ∀ requestData, one.call ≠ .send requestData)
    (hreaches : reaches one.call) (hpending : transport.pending device = some item)
    (hwire : onWire transport one = [cut item]) (hnext : transport.pending next = none)
  | idle (hcall : ∀ requestData, one.call ≠ .send requestData)
    (hidle : transport.pending device = none ∨ ¬reaches one.call)
    (hwire : onWire transport one = [])
    (hnext : transport.pending next = transport.pending device)
    (herror : one.error ≠ hothSuccess)

theorem pendingAfter_snoc (served : List (ServedCall Reply)) (last : ServedCall Reply) :
    pendingAfter transport (served ++ [last]) =
      slotStep (pendingAfter transport served) (slotEvent transport last) := by
  rw [pendingAfter, List.map_append]
  exact occupant_snoc _ _

theorem slotEvent_send {one : ServedCall Reply} {requestData : List UInt8}
    (hcall : one.call = .send requestData) :
    slotEvent transport one = if one.error = hothSuccess then .put requestData
      else if transport.clears then .cleared else .kept := by
  rw [slotEvent, hcall]

theorem slotEvent_receive {one : ServedCall Reply}
    (hcall : ∀ requestData, one.call ≠ .send requestData) :
    slotEvent transport one =
      match onWire transport one with
      | [] => .kept
      | requestData :: _ => .taken requestData := by
  rw [slotEvent]
  match hone : one.call with
  | .send requestData => exact absurd hone (hcall requestData)
  | .receive _ _ _ _ => rfl

variable {reaches : TransportCall → Prop} {cut : List UInt8 → List UInt8} {device next : Device}
  {one : ServedCall Reply}

/-- A call moves the device as it moves the slot. -/
theorem CallLaw.pending_eq (hlaw : CallLaw transport reaches cut device one next) :
    transport.pending next = slotStep (transport.pending device) (slotEvent transport one) := by
  cases hlaw with
  | sent requestData hcall hwire hnext =>
    rw [hnext, slotEvent_send hcall]
    split_ifs <;> rfl
  | received item hcall hreaches hpending hwire hnext =>
    rw [hnext, slotEvent_receive hcall, hwire]
    rfl
  | idle hcall hidle hwire hnext herror =>
    rw [hnext, slotEvent_receive hcall, hwire]
    rfl

theorem CallLaw.silent (hlaw : CallLaw transport reaches cut device one next)
    {requestData : List UInt8} (hsend : one.call = .send requestData) :
    onWire transport one = [] := by
  cases hlaw with
  | sent _ hcall hwire hnext => exact hwire
  | received item hcall hreaches hpending hwire hnext => exact absurd hsend (hcall requestData)
  | idle hcall hidle hwire hnext herror => exact hwire

theorem CallLaw.once (hlaw : CallLaw transport reaches cut device one next) :
    (onWire transport one).length ≤ 1 := by
  cases hlaw with
  | sent requestData hcall hwire hnext => rw [hwire]; exact Nat.zero_le 1
  | received item hcall hreaches hpending hwire hnext => rw [hwire]; exact le_rfl
  | idle hcall hidle hwire hnext herror => rw [hwire]; exact Nat.zero_le 1

theorem CallLaw.fails (hlaw : CallLaw transport reaches cut device one next)
    (hreceive : ∀ requestData, one.call ≠ .send requestData)
    (hnone : transport.pending device = none) :
    one.error ≠ hothSuccess ∧ onWire transport one = [] := by
  cases hlaw with
  | sent requestData hcall hwire hnext => exact absurd hcall (hreceive requestData)
  | received item hcall hreaches hpending hwire hnext => rw [hnone] at hpending; cases hpending
  | idle hcall hidle hwire hnext herror => exact ⟨herror, hwire⟩

/-- A call takes only what is pending, when nothing is cut off. -/
theorem CallLaw.taken_iff (hlaw : CallLaw transport reaches cut device one next) :
    (∀ item, slotEvent transport one = .taken item → transport.pending device = some item) ↔
      ∀ item, (∀ requestData, one.call ≠ .send requestData) → reaches one.call →
        transport.pending device = some item → cut item = item := by
  cases hlaw with
  | sent requestData hcall hwire hnext =>
    refine iff_of_true (fun item htaken ↦ ?_) fun item hother ↦ absurd hcall (hother requestData)
    rw [slotEvent_send hcall] at htaken
    split_ifs at htaken
  | received item hcall hreaches hpending hwire hnext =>
    rw [slotEvent_receive hcall, hwire, hpending]
    constructor
    · intro htaken other _ _ hother
      obtain rfl := Option.some.inj hother
      exact (Option.some.inj (htaken _ rfl)).symm
    · intro hcut other htaken
      obtain rfl := SlotEvent.taken.inj htaken
      rw [hcut item hcall hreaches rfl]
  | idle hcall hidle hwire hnext herror =>
    refine iff_of_true (fun item htaken ↦ ?_) fun item _ hreached hpending ↦ ?_
    · rw [slotEvent_receive hcall, hwire] at htaken
      cases htaken
    · rcases hidle with hnone | hnot
      · rw [hnone] at hpending
        cases hpending
      · exact absurd hreached hnot

end Step

/-! ### From calls to sessions -/

/-- What a transport may cut off stays whole: at each call that reaches the wire, the request that
is pending. -/
def Whole (transport : BufferingTransport Request Reply Device) (reaches : TransportCall → Prop)
    (cut : List UInt8 → List UInt8) (served : List (ServedCall Reply)) : Prop :=
  AtEach (fun before one ↦ ∀ item, (∀ requestData, one.call ≠ .send requestData) →
    reaches one.call → pendingAfter transport before = some item → cut item = item) served

/-- A transport whose calls follow the law buffers its requests, exactly when none is cut. -/
theorem Session.buffers_iff {transport : BufferingTransport Request Reply Device}
    {reaches : TransportCall → Prop} {cut : List UInt8 → List UInt8}
    (hlaw : ∀ {device one next}, Runs recording (transport.perform one.call device) []
      (one.error, next) one.exchanges → CallLaw transport reaches cut device one next)
    {start last : Device} (hstart : transport.pending start = none)
    {served : List (ServedCall Reply)} (hsession : Session transport start served last) :
    transport.pending last = pendingAfter transport served ∧
      (Buffers transport served last ↔ Whole transport reaches cut served) := by
  induction hsession with
  | opened =>
    refine ⟨hstart, iff_of_true ⟨?_, ?_, ?_, ?_, hstart⟩ (atEach_nil _)⟩
    · exact fun _ hone ↦ absurd hone List.not_mem_nil
    · exact fun _ hone ↦ absurd hone List.not_mem_nil
    · exact atEach_nil _
    · exact atEach_nil _
  | @snoc served device next one _ hrun ih =>
    obtain ⟨hkept, hiff⟩ := ih
    have hone := hlaw hrun
    have hnext : transport.pending next = pendingAfter transport (served ++ [one]) := by
      rw [hone.pending_eq, hkept, pendingAfter_snoc]
    have htaken := hone.taken_iff
    rw [hkept] at htaken
    refine ⟨hnext, ?_⟩
    rw [Whole, atEach_snoc_iff, ← Whole, ← hiff, ← htaken]
    constructor
    · rintro ⟨hsilent, honce, hfaithful, hidle, -⟩
      rw [List.map_append, List.map_singleton, Faithful, atEach_snoc_iff] at hfaithful
      rw [atEach_snoc_iff] at hidle
      exact ⟨⟨(List.forall_mem_append.mp hsilent).1, (List.forall_mem_append.mp honce).1,
        hfaithful.1, hidle.1, hkept⟩, hfaithful.2⟩
    · rintro ⟨⟨hsilent, honce, hfaithful, hidle, -⟩, hlast⟩
      refine ⟨?_, ?_, ?_, ?_, hnext⟩
      · exact forall_mem_snoc hsilent fun _ ↦ hone.silent
      · exact forall_mem_snoc honce hone.once
      · rw [List.map_append, List.map_singleton, Faithful, atEach_snoc_iff]
        exact ⟨hfaithful, hlast⟩
      · rw [atEach_snoc_iff]
        exact ⟨hidle, fun hreceive hnone ↦ hone.fails hreceive (hkept.trans hnone)⟩

/-- Between two requests on the wire there is the send call that the second was accepted from. -/
theorem Buffers.no_replay {transport : BufferingTransport Request Reply Device}
    {before between after : List (ServedCall Reply)}
    {one two : ServedCall Reply} {first second : List UInt8} {last : Device}
    (hbuffers : Buffers transport (before ++ one :: between ++ two :: after) last)
    (hfirst : slotEvent transport one = .taken first)
    (hsecond : slotEvent transport two = .taken second) :
    ∃ accepted ∈ between, slotEvent transport accepted = .put second := by
  have hfaithful := hbuffers.faithful
  rw [List.map_append, List.map_append, List.map_cons, List.map_cons, hfirst, hsecond] at hfaithful
  exact List.mem_map.mp hfaithful.no_replay

/-! ### The atomic SPI transport -/

/-- The calls of a SPI device that was opened as atomic. -/
def spiPerform : TransportCall → LibhothSpiDevice → SpiProgram (LibhothError × LibhothSpiDevice)
  | .send requestData, spiDev => libhothSpiBufferRequest spiDev requestData
  | .receive response maxResponseSize actualSize _, spiDev => do
    let (received, spiDev) ←
      libhothSpiSendAndReceiveResponse spiDev response maxResponseSize actualSize
    return (received.error, spiDev)

/-- What a SPI message sends as the request: the bytes of its third transfer. -/
def spiWire : Exchange SpiReply → Option (List UInt8)
  | ⟨.message transfers, _⟩ => some ((transfers[2]?.map sent).getD [])
  | ⟨.statusMessage transfer, _⟩ => some (sent transfer)
  | ⟨.getMonotonicMs, _⟩ => none
  | ⟨.usleep _, _⟩ => none
  | ⟨.malloc _, _⟩ => none

/-- The atomic SPI transport, which refuses a request while another is pending. -/
def atomicSpi : BufferingTransport SpiCall SpiReply LibhothSpiDevice where
  perform := spiPerform
  pending := LibhothSpiDevice.bufferedRequest
  wire := spiWire
  clears := false

/-- The calls that look for a pending request. -/
def reachesSpi : TransportCall → Prop
  | .send _ => False
  | .receive _ maxResponseSize _ _ => hothHostResponseSize ≤ maxResponseSize

/-- The bytes of a request that fit the length of a transfer. -/
def cutLength (requestData : List UInt8) : List UInt8 :=
  requestData.take (UInt32.ofNat requestData.length).toNat

theorem cutLength_eq_iff (requestData : List UInt8) :
    cutLength requestData = requestData ↔ requestData.length < 2 ^ 32 := by
  rw [cutLength, List.take_eq_self_iff, UInt32.toNat_ofNat']
  omega

/-- A receive call on the SPI transport fails without a message, or it sends the pending request and
drops it. -/
theorem libhothSpiSendAndReceiveResponse_ensures (spiDev : LibhothSpiDevice)
    (response : ℕ → UInt8) (maxResponseSize : ℕ) (actualSize : Option ℕ) :
    Ensures recording
      (libhothSpiSendAndReceiveResponse spiDev response maxResponseSize actualSize) []
      fun outcome history ↦
        (history = [] ∧ outcome.2 = spiDev ∧ outcome.1.error ≠ hothSuccess ∧
          (spiDev.bufferedRequest = none ∨ maxResponseSize < hothHostResponseSize)) ∨
        ∃ requestData reply, spiDev.bufferedRequest = some requestData ∧
          hothHostResponseSize ≤ maxResponseSize ∧
          history = [⟨.message (atomicTransfers spiDev requestData maxResponseSize), reply⟩] ∧
          outcome.2.bufferedRequest = none := by
  have hfailed (status : LibhothStatus) (hstatus : status ≠ .ok) :
      spiErrLibhoth (statusInt status) ≠ hothSuccess := by
    rwa [ne_eq, spiErrLibhoth_eq_success_iff, statusInt_eq_libhothOk_iff]
  unfold libhothSpiSendAndReceiveResponse
  split_ifs with hsize
  · exact (ensures_done _ _ _).mpr
      (.inl ⟨rfl, rfl, hfailed .invalidParameter (by decide), .inr hsize⟩)
  · cases hpending : spiDev.bufferedRequest with
    | none =>
      exact (ensures_done _ _ _).mpr
        (.inl ⟨rfl, rfl, hfailed .interfaceBusy (by decide), .inl rfl⟩)
    | some requestData =>
      dsimp only
      rw [ensures_bind, ensures_request]
      rintro reply _ rfl
      have hreached : hothHostResponseSize ≤ maxResponseSize := Nat.le_of_not_lt hsize
      cases reply with
      | failed errno =>
        exact (ensures_done _ _ _).mpr (.inr ⟨requestData, _, rfl, hreached, rfl, rfl⟩)
      | received bytes filled =>
        dsimp only
        split_ifs
        · exact (ensures_done _ _ _).mpr (.inr ⟨requestData, _, rfl, hreached, rfl, rfl⟩)
        · exact (ensures_done _ _ _).mpr (.inr ⟨requestData, _, rfl, hreached, rfl, rfl⟩)

/-- One call of the atomic SPI transport. -/
theorem spi_callLaw {spiDev next : LibhothSpiDevice} {one : ServedCall SpiReply}
    (hrun : Runs recording (atomicSpi.perform one.call spiDev) [] (one.error, next)
      one.exchanges) : CallLaw atomicSpi reachesSpi cutLength spiDev one next := by
  obtain ⟨call, error, exchanges⟩ := one
  dsimp only at hrun
  cases call with
  | send requestData =>
    change Runs recording (libhothSpiBufferRequest spiDev requestData) [] _ _ at hrun
    unfold libhothSpiBufferRequest at hrun
    by_cases hbusy : spiDev.bufferedRequest.isSome
    · rw [if_pos hbusy] at hrun
      obtain ⟨hresult, rfl⟩ := hrun
      obtain ⟨rfl, rfl⟩ := Prod.mk.inj hresult
      exact .sent requestData rfl rfl rfl
    · rw [if_neg hbusy] at hrun
      obtain ⟨allocated, _, rfl, hrun⟩ := hrun
      cases allocated with
      | false =>
        obtain ⟨hresult, rfl⟩ := hrun
        obtain ⟨rfl, rfl⟩ := Prod.mk.inj hresult
        exact .sent requestData rfl rfl rfl
      | true =>
        obtain ⟨hresult, rfl⟩ := hrun
        obtain ⟨rfl, rfl⟩ := Prod.mk.inj hresult
        exact .sent requestData rfl rfl rfl
  | receive response maxResponseSize actualSize timeoutMs =>
    have hcall := receive_ne_send response maxResponseSize actualSize timeoutMs
    obtain ⟨⟨received, device⟩, middle, hreceive, hresult, rfl⟩ := (runs_bind _ _ _ _ _).mp hrun
    obtain ⟨rfl, rfl⟩ := Prod.mk.inj hresult
    rcases libhothSpiSendAndReceiveResponse_ensures spiDev response maxResponseSize actualSize _ _
      hreceive with ⟨rfl, rfl, hfailed, hidle⟩ | ⟨requestData, reply, hpending, hsize, rfl, hnext⟩
    · exact .idle hcall (hidle.imp_right Nat.not_le_of_lt) rfl rfl hfailed
    · exact .received requestData hcall hsize hpending rfl hnext

/-! ### The D-Bus transport -/

/-- The calls of a D-Bus device. -/
def dbusPerform :
    TransportCall → LibhothDbusDevice → DbusProgram (LibhothError × LibhothDbusDevice)
  | .send requestData, ctx => DbusDevice.send ctx requestData
  | .receive response maxResponseSize actualSize timeoutMs, ctx => do
    let (received, ctx) ← receive ctx response maxResponseSize actualSize timeoutMs
    return (received.error, ctx)

/-- What a call on the system bus sends as the request: the body of the message, once. -/
def dbusWire (exchange : Exchange DbusReply) : Option (List UInt8) :=
  match exchange.1 with
  | .call _ message _ => some message.body
  | _ => none

/-- The D-Bus transport, which drops the pending request for another. -/
def dbus : BufferingTransport DbusCall DbusReply LibhothDbusDevice where
  perform := dbusPerform
  pending := fun ctx ↦ ctx.request.map SdBusMessage.body
  wire := dbusWire
  clears := true

theorem dbusErrPosix_ne_success {rv : ℤ} (hnegative : rv < 0) :
    dbusErrPosix (-rv) ≠ hothSuccess := by
  rw [ne_eq, dbusErrPosix_eq_success_iff]
  omega

/-- The error exit of a send call puts nothing on the wire. -/
theorem sendCleanup_ensures (ctx : LibhothDbusDevice) (failure : String) {rv : ℤ}
    (hnegative : rv < 0) (message : Option SdBusMessage) (past : List (Exchange DbusReply)) :
    Ensures recording (sendCleanup ctx failure rv message) past fun outcome now ↦
      now.filterMap dbusWire = past.filterMap dbusWire ∧ outcome.1 ≠ hothSuccess ∧
        outcome.2 = ctx := by
  unfold sendCleanup
  rw [ensures_bind, ensures_request]
  rintro reason _ rfl
  rw [ensures_bind, ensures_request]
  rintro _ _ rfl
  rw [ensures_bind, ensures_request]
  rintro _ _ rfl
  refine (ensures_done _ _ _).mpr ⟨?_, dbusErrPosix_ne_success hnegative, rfl⟩
  simp [List.filterMap_append, dbusWire]

/-- A send call keeps its request in place of any other, or it fails and keeps none. -/
theorem send_ensures (ctx : LibhothDbusDevice) (requestData : List UInt8) :
    Ensures recording (DbusDevice.send ctx requestData) [] fun outcome now ↦
      now.filterMap dbusWire = [] ∧ outcome.2.request.map SdBusMessage.body =
        if outcome.1 = hothSuccess then some requestData else none := by
  have hdropped : Ensures recording (dropPending ctx) [] fun dropped now ↦
      now.filterMap dbusWire = [] ∧ dropped.request = none := by
    unfold dropPending
    split_ifs with hpending
    · rw [ensures_bind, ensures_request]
      rintro _ _ rfl
      exact (ensures_done _ _ _).mpr ⟨rfl, rfl⟩
    · exact (ensures_done _ _ _).mpr ⟨rfl, Option.not_isSome_iff_eq_none.mp hpending⟩
  unfold DbusDevice.send
  rw [ensures_bind]
  refine hdropped.mono ?_
  rintro dropped past ⟨hpast, hnone⟩
  rw [ensures_bind, ensures_request]
  rintro created _ rfl
  cases created with
  | failed rv negative =>
    refine (sendCleanup_ensures _ _ negative _ _).mono ?_
    rintro ⟨error, _⟩ now ⟨hnow, herror, rfl⟩
    rw [hnow, List.filterMap_append, hpast, hnone, if_neg herror]
    exact ⟨rfl, rfl⟩
  | ok created =>
    dsimp only
    rw [ensures_bind, ensures_request]
    rintro appended _ rfl
    cases appended with
    | failed rv negative =>
      refine (sendCleanup_ensures _ _ negative _ _).mono ?_
      rintro ⟨error, _⟩ now ⟨hnow, herror, rfl⟩
      rw [hnow, List.filterMap_append, List.filterMap_append, hpast, hnone, if_neg herror]
      exact ⟨rfl, rfl⟩
    | ok appended =>
      refine (ensures_done _ _ _).mpr ⟨?_, (if_pos rfl).symm⟩
      rw [List.filterMap_append, List.filterMap_append, hpast]
      rfl

/-- The exit of a receive call drops the pending request and puts nothing on the wire. -/
theorem receiveCleanup_ensures (ctx : LibhothDbusDevice) (reply : Option ℕ) (received : Received)
    (past : List (Exchange DbusReply)) :
    Ensures recording (receiveCleanup ctx reply received) past fun outcome now ↦
      now.filterMap dbusWire = past.filterMap dbusWire ∧ outcome.1 = received ∧
        outcome.2.request = none := by
  unfold receiveCleanup
  rw [ensures_bind, ensures_request]
  rintro _ _ rfl
  rw [ensures_bind, ensures_request]
  rintro _ _ rfl
  rw [ensures_bind, ensures_request]
  rintro _ _ rfl
  refine (ensures_done _ _ _).mpr ⟨?_, rfl, rfl⟩
  simp [List.filterMap_append, dbusWire]

/-- Taking the bytes out of a reply puts nothing on the wire and ends in the exit. -/
theorem receiveReply_ensures (ctx : LibhothDbusDevice) (reply : ℕ) (response : ℕ → UInt8)
    (maxResponseSize : ℕ) (actualSize : Option ℕ) (past : List (Exchange DbusReply)) :
    Ensures recording (receiveReply ctx reply response maxResponseSize actualSize) past
      fun outcome now ↦
        now.filterMap dbusWire = past.filterMap dbusWire ∧ outcome.2.request = none := by
  have hcleanup (received : Received) (quiet : List (Exchange DbusReply))
      (hquiet : quiet.filterMap dbusWire = []) :
      Ensures recording (receiveCleanup ctx (some reply) received) (past ++ quiet)
        fun outcome now ↦
          now.filterMap dbusWire = past.filterMap dbusWire ∧ outcome.2.request = none := by
    refine (receiveCleanup_ensures ctx (some reply) received _).mono ?_
    rintro outcome now ⟨hnow, -, hlast⟩
    rw [List.filterMap_append, hquiet, List.append_nil] at hnow
    exact ⟨hnow, hlast⟩
  unfold receiveReply
  rw [ensures_bind, ensures_request]
  rintro bytes _ rfl
  cases bytes with
  | failed rv negative =>
    dsimp only
    rw [ensures_bind, ensures_request]
    rintro reason _ rfl
    rw [ensures_bind, ensures_request]
    rintro _ _ rfl
    rw [List.append_assoc, List.append_assoc]
    exact hcleanup _ _ rfl
  | ok buf =>
    dsimp only
    split_ifs with hlarge
    · rw [ensures_bind, ensures_request]
      rintro _ _ rfl
      rw [List.append_assoc]
      exact hcleanup _ _ rfl
    · exact hcleanup _ _ rfl

/-- A receive call fails without a call on the bus, or it sends the pending request; no request is
pending behind it. -/
theorem receive_ensures (ctx : LibhothDbusDevice) (response : ℕ → UInt8) (maxResponseSize : ℕ)
    (actualSize : Option ℕ) (timeoutMs : Int32) :
    Ensures recording (receive ctx response maxResponseSize actualSize timeoutMs) []
      fun outcome now ↦ outcome.2.request = none ∧
        match ctx.request with
        | none => now.filterMap dbusWire = [] ∧ outcome.1.error ≠ hothSuccess
        | some message => now.filterMap dbusWire = [message.body] := by
  unfold receive
  cases hpending : ctx.request with
  | none =>
    dsimp only
    rw [ensures_bind, ensures_request]
    rintro _ _ rfl
    refine (receiveCleanup_ensures _ _ _ _).mono ?_
    rintro ⟨_, last⟩ now ⟨hnow, rfl, hlast⟩
    refine ⟨hlast, hnow, ?_⟩
    rw [ne_eq, dbusErrLibhoth_eq_success_iff, statusInt_eq_libhothOk_iff]
    decide
  | some message =>
    dsimp only
    rw [ensures_bind, ensures_request]
    rintro ⟨called, text⟩ _ rfl
    cases called with
    | failed rv negative =>
      dsimp only
      rw [ensures_bind, ensures_request]
      rintro _ _ rfl
      refine (receiveCleanup_ensures _ _ _ _).mono ?_
      rintro outcome now ⟨hnow, -, hlast⟩
      exact ⟨hlast, hnow⟩
    | ok reply =>
      refine (receiveReply_ensures _ _ _ _ _ _).mono ?_
      rintro outcome now ⟨hnow, hlast⟩
      exact ⟨hlast, hnow⟩

/-- One call of the D-Bus transport. -/
theorem dbus_callLaw {ctx next : LibhothDbusDevice} {one : ServedCall DbusReply}
    (hrun : Runs recording (dbus.perform one.call ctx) [] (one.error, next) one.exchanges) :
    CallLaw dbus (fun _ ↦ True) id ctx one next := by
  obtain ⟨call, error, exchanges⟩ := one
  dsimp only at hrun
  cases call with
  | send requestData =>
    obtain ⟨hwire, hnext⟩ := send_ensures ctx requestData _ _ hrun
    exact .sent requestData rfl hwire hnext
  | receive response maxResponseSize actualSize timeoutMs =>
    have hcall := receive_ne_send response maxResponseSize actualSize timeoutMs
    obtain ⟨⟨received, device⟩, middle, hreceive, hresult, rfl⟩ := (runs_bind _ _ _ _ _).mp hrun
    obtain ⟨rfl, rfl⟩ := Prod.mk.inj hresult
    obtain ⟨hnext, hwire⟩ :=
      receive_ensures ctx response maxResponseSize actualSize timeoutMs _ _ hreceive
    have hempty : dbus.pending next = none := congrArg (Option.map SdBusMessage.body) hnext
    cases hpending : ctx.request with
    | none =>
      have hnone : dbus.pending ctx = none := congrArg (Option.map SdBusMessage.body) hpending
      rw [hpending] at hwire
      exact .idle hcall (.inl hnone) hwire.1 (hempty.trans hnone.symm) hwire.2
    | some message =>
      rw [hpending] at hwire
      exact .received message.body hcall trivial
        (congrArg (Option.map SdBusMessage.body) hpending) hwire hempty

/-! ### Both transports -/

/-- No receive call with a buffer of the size of the response header finds a request of 2^32 bytes
or more pending. -/
def RequestsFit (served : List (ServedCall SpiReply)) : Prop :=
  AtEach (fun before one ↦ ∀ response maxResponseSize actualSize timeoutMs,
    one.call = .receive response maxResponseSize actualSize timeoutMs →
      hothHostResponseSize ≤ maxResponseSize →
        ∀ item, pendingAfter atomicSpi before = some item → item.length < 2 ^ 32) served

theorem whole_iff_requestsFit (served : List (ServedCall SpiReply)) :
    Whole atomicSpi reachesSpi cutLength served ↔ RequestsFit served := by
  have hone (before : List (ServedCall SpiReply)) (one : ServedCall SpiReply) :
      (∀ item, (∀ requestData, one.call ≠ .send requestData) → reachesSpi one.call →
        pendingAfter atomicSpi before = some item → cutLength item = item) ↔
      ∀ response maxResponseSize actualSize timeoutMs,
        one.call = .receive response maxResponseSize actualSize timeoutMs →
          hothHostResponseSize ≤ maxResponseSize →
            ∀ item, pendingAfter atomicSpi before = some item → item.length < 2 ^ 32 := by
    constructor
    · intro hwhole response maxResponseSize actualSize timeoutMs hcall hsize item hpending
      refine (cutLength_eq_iff item).mp (hwhole item (fun requestData hsend ↦ ?_) ?_ hpending)
      · rw [hcall] at hsend
        cases hsend
      · rw [hcall]
        exact hsize
    · intro hfit item hreceive hreaches hpending
      match hcall : one.call with
      | .send requestData => exact absurd hcall (hreceive requestData)
      | .receive response maxResponseSize actualSize timeoutMs =>
        rw [hcall] at hreaches
        exact (cutLength_eq_iff item).mpr (hfit _ _ _ _ hcall hreaches item hpending)
  unfold Whole RequestsFit
  simp only [hone]

/-- The atomic SPI transport buffers its requests exactly when none is too long for a transfer. -/
theorem spi_buffers_iff {mailbox timeout checkInterval : UInt32}
    {served : List (ServedCall SpiReply)} {spiDev : LibhothSpiDevice}
    (hsession : Session atomicSpi (libhothSpiOpened mailbox timeout checkInterval) served spiDev) :
    Buffers atomicSpi served spiDev ↔ RequestsFit served := by
  rw [(hsession.buffers_iff spi_callLaw rfl).2, whole_iff_requestsFit]

/-- A send call on the SPI transport that is accepted. -/
def spiSent (requestData : List UInt8) : ServedCall SpiReply where
  call := .send requestData
  error := hothSuccess
  exchanges := [⟨.malloc requestData.length, true⟩]

/-- A receive call behind it whose message fails with `EIO`. -/
def spiReceived (requestData : List UInt8) : ServedCall SpiReply where
  call := .receive (fun _ ↦ 0) hothHostResponseSize none 0
  error := spiErrPosix 5
  exchanges := [⟨.message (atomicTransfers
    { libhothSpiOpened 0 0 0 with bufferedRequest := some requestData } requestData
      hothHostResponseSize), .failed 5⟩]

/-- The two calls are a session. -/
theorem session_spi (requestData : List UInt8) :
    Session atomicSpi (libhothSpiOpened 0 0 0) [spiSent requestData, spiReceived requestData]
      (libhothSpiOpened 0 0 0) := by
  have hsent : Runs recording (atomicSpi.perform (spiSent requestData).call
      (libhothSpiOpened 0 0 0)) [] ((spiSent requestData).error,
        { libhothSpiOpened 0 0 0 with bufferedRequest := some requestData })
      (spiSent requestData).exchanges :=
    ⟨true, _, rfl, rfl, rfl⟩
  have hreceived : Runs recording (atomicSpi.perform (spiReceived requestData).call
      { libhothSpiOpened 0 0 0 with bufferedRequest := some requestData }) []
      ((spiReceived requestData).error, libhothSpiOpened 0 0 0)
      (spiReceived requestData).exchanges :=
    ⟨.failed 5, _, rfl, rfl, rfl⟩
  exact .snoc (.snoc .opened hsent) hreceived

theorem requestsFit_session_spi {requestData : List UInt8} (hshort : requestData.length < 2 ^ 32) :
    RequestsFit [spiSent requestData, spiReceived requestData] := by
  refine (atEach_snoc_iff _ [spiSent requestData] _).mpr
    ⟨(atEach_snoc_iff _ [] _).mpr ⟨atEach_nil _, ?_⟩, ?_⟩
  · intro _ _ _ _ hcall
    cases hcall
  · intro _ _ _ _ _ _ item hpending
    obtain rfl : requestData = item := Option.some.inj hpending
    exact hshort

/-- A D-Bus device that was opened without a name, with a request. -/
def dbusPending (requestData : List UInt8) : LibhothDbusDevice :=
  let ctx := libhothDbusOpened 0 ""
  { ctx with request := some { hostCommandMessage ctx with body := requestData } }

/-- A send call on the D-Bus transport that is accepted. -/
def dbusSent (requestData : List UInt8) : ServedCall DbusReply :=
  let message := hostCommandMessage (libhothDbusOpened 0 "")
  { call := .send requestData
    error := hothSuccess
    exchanges := [⟨.messageNewMethodCall 0 message, .ok ()⟩,
      ⟨.messageAppendArray message requestData, .ok ()⟩] }

/-- A receive call behind it whose call on the bus fails with `EIO`. -/
def dbusReceived (requestData : List UInt8) : ServedCall DbusReply :=
  let message := { hostCommandMessage (libhothDbusOpened 0 "") with body := requestData }
  { call := .receive (fun _ ↦ 0) 0 none 0
    error := dbusErrPosix 5
    exchanges := [⟨.call 0 message 0, (.failed (-5) (by decide), "")⟩,
      ⟨.fprintf "D-Bus call failed: \n", ()⟩, ⟨.replyUnref none, ()⟩, ⟨.errorFree, ()⟩,
      ⟨.messageUnref (some message), ()⟩] }

theorem session_dbus (requestData : List UInt8) :
    Session dbus (libhothDbusOpened 0 "") [dbusSent requestData, dbusReceived requestData]
      (libhothDbusOpened 0 "") := by
  have hsent : Runs recording (dbus.perform (dbusSent requestData).call
      (libhothDbusOpened 0 "")) [] ((dbusSent requestData).error, dbusPending requestData)
      (dbusSent requestData).exchanges :=
    ⟨.ok (), _, rfl, .ok (), _, rfl, rfl, rfl⟩
  have hreceived : Runs recording (dbus.perform (dbusReceived requestData).call
      (dbusPending requestData)) [] ((dbusReceived requestData).error, libhothDbusOpened 0 "")
      (dbusReceived requestData).exchanges :=
    ⟨(.failed (-5) (by decide), ""), _, rfl, (), _, rfl, (), _, rfl, (), _, rfl, (), _, rfl, rfl,
      rfl⟩
  exact .snoc (.snoc .opened hsent) hreceived

/-- In every session of either transport requests are buffered, on SPI exactly when no transfer is
too short for its request. -/
theorem requestBuffers_iff {mailbox timeout checkInterval : UInt32}
    {served : List (ServedCall SpiReply)} {spiDev : LibhothSpiDevice}
    (hspi : Session atomicSpi (libhothSpiOpened mailbox timeout checkInterval) served spiDev)
    {bus : ℕ} {hothId : String} {called : List (ServedCall DbusReply)} {ctx : LibhothDbusDevice}
    (hdbus : Session dbus (libhothDbusOpened bus hothId) called ctx) :
    (Buffers atomicSpi served spiDev ↔ RequestsFit served) ∧ Buffers dbus called ctx := by
  refine ⟨spi_buffers_iff hspi, (hdbus.buffers_iff dbus_callLaw rfl).2.mpr ?_⟩
  exact fun _ _ _ _ _ _ _ _ ↦ rfl

theorem requestBuffers_iff_one_byte :
    Buffers atomicSpi [spiSent [3], spiReceived [3]] (libhothSpiOpened 0 0 0) ∧
      Buffers dbus [dbusSent [3], dbusReceived [3]] (libhothDbusOpened 0 "") := by
  obtain ⟨hspi, hdbus⟩ := requestBuffers_iff (session_spi [3]) (session_dbus [3])
  exact ⟨hspi.mpr (requestsFit_session_spi (by decide)), hdbus⟩

/-- A request of 2^32 bytes is accepted, and the message of the receive call behind it sends none of
them. -/
theorem atomicSpi_cuts_request : ∃ served spiDev,
    Session atomicSpi (libhothSpiOpened 0 0 0) served spiDev ∧
      ¬Buffers atomicSpi served spiDev := by
  refine ⟨_, _, session_spi (List.replicate (2 ^ 32) 0), fun hbuffers ↦ ?_⟩
  have hfit := (spi_buffers_iff (session_spi _)).mp hbuffers
  have hpending (requestData : List UInt8) :
      pendingAfter atomicSpi [spiSent requestData] = some requestData := rfl
  have hshort := hfit [spiSent _] _ [] rfl _ _ _ _ rfl le_rfl _ (hpending _)
  rw [List.length_replicate] at hshort
  exact Nat.lt_irrefl _ hshort

end Libhoth.Transports.RequestBuffers
