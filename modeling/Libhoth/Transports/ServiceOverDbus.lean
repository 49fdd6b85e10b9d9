import Libhoth.Foundation.AtomicCalls
import Libhoth.Transports.DbusDevice
import Libhoth.Transports.ServiceOverMailbox

/-!
# Services behind a system bus

Any number of processes may talk over one system bus, each on a device that was opened for a Hoth
ID, and nothing claims it for one of them. The bus brings a message to the service at its address
and may fail: a message may not be created or filled, a call may be lost before the service or
behind it, and a reply may hold something else (`systemBus`).

Still each host command takes effect at once, at the call of its message. However the calls of the
processes are interleaved, they come to the states and results of processes that run their commands
at the services themselves, where a command may fail without an effect or with one
(`hothEnvironment`), and none leaves a message or a reply behind (`dbus_clients_atomic`).
-/

set_option autoImplicit false
set_option relaxedAutoImplicit false

namespace Libhoth.Transports.ServiceOverDbus

open Foundation.AtomicCalls Foundation.ByteString Foundation.CellMemory
open Foundation.InteractingProgram
open Protocol.Status Protocol.HostCommand Protocol.HostCommandProgram Protocol.CommandService
open LibhothEc (statusInt Received)
open DbusDevice ServiceOverMailbox

/-! ### The bus -/

/-- What a reply holds: an array of bytes, or something for which reading one fails. -/
inductive ReplyBody
  | bytes (array : List UInt8)
  | unreadable (rv : ℤ) (negative : rv < 0)

/-- What the bus library holds for a process: how many references to messages and replies the
process has, and the replies by their numbers. -/
structure BusMemory where
  references : ℤ
  replies : ℕ → Option ReplyBody

/-- The message calls the service of a Hoth ID. -/
structure Addresses (hothId : String) (message : SdBusMessage) : Prop where
  destination : message.destination = withHothId hothdService '.' hothId
  path : message.path = withHothId hothdObject '/' hothId
  interface : message.interface = hothdInterface
  member : message.member = sendHostCmdMethod

section Bus

variable {σ : Type}

/-- The states behind a request to the service of a Hoth ID. -/
def servedStates (services : String → Service σ) (hothId : String) (request : List UInt8)
    (states : String → σ) : String → σ :=
  Function.update states hothId (serveFrame (services hothId) (states hothId) request).2

/-- What a call of a message leaves: a reply of the service that it is for, or an error, which may
hide that the service was called. -/
def Called (services : String → Service σ) (message : SdBusMessage)
    (before after : BusMemory × (String → σ)) : ErrnoOr ℕ → Prop
  | .ok reply => before.1.replies reply = none ∧ ∃ hothId body, Addresses hothId message ∧
    (body = .bytes (serveFrame (services hothId) (before.2 hothId) message.body).1.bytes ∨
      ∃ rv negative, body = .unreadable rv negative) ∧
    after = (⟨before.1.references + 1, Function.update before.1.replies reply (some body)⟩,
      servedStates services hothId message.body before.2)
  | .failed _ _ => after.1 = before.1 ∧ (after.2 = before.2 ∨ ∃ hothId,
    Addresses hothId message ∧ after.2 = servedStates services hothId message.body before.2)

/-- What a process meets at the bus library, and at the services behind the bus. -/
def systemBus (services : String → Service σ) :
    Environment DbusReply (BusMemory × (String → σ)) := fun before call reply after ↦
  match call, reply with
  | .messageNewMethodCall _ _, .ok _ =>
    after = (⟨before.1.references + 1, before.1.replies⟩, before.2)
  | .messageNewMethodCall _ _, .failed _ _ => after = before
  | .messageAppendArray _ _, _ => after = before
  | .call _ message _, reply => Called services message before after reply.1
  | .messageReadArray number, .ok array =>
    before.1.replies number = some (.bytes array) ∧ after = before
  | .messageReadArray number, .failed rv _ =>
    (∀ array, before.1.replies number ≠ some (.bytes array)) ∧
      (∀ other negative, before.1.replies number = some (.unreadable other negative) →
        rv = other) ∧ after = before
  | .messageUnref (some _), _ => after = (⟨before.1.references - 1, before.1.replies⟩, before.2)
  | .replyUnref (some number), _ =>
    after = (⟨before.1.references - 1, Function.update before.1.replies number none⟩, before.2)
  | .messageUnref none, _ | .replyUnref none, _ | .errorFree, _ | .strerror _, _
  | .fprintf _, _ => after = before

/-- A command at a service that may fail: without an effect, or with one. -/
def unreliable (service : Service σ) : Environment HostReply σ := fun before call reply after ↦
  serviceEnvironment service before call reply after ∨
    ∃ err nonzero, reply = .failed err nonzero ∧
      (after = before ∨ ∃ answer, serviceEnvironment service before call answer after)

/-- What a process meets at the service of its Hoth ID. The other services stay as they are. -/
def hothEnvironment (services : String → Service σ) (hothId : String) :
    Environment HostReply (String → σ) := fun before call reply after ↦
  ∃ state, unreliable (services hothId) (before hothId) call reply state ∧
    after = Function.update before hothId state

end Bus

/-! ### Addresses -/

theorem toList_withHothId (base : String) (delimiter : Char) (hothId : String) :
    (withHothId base delimiter hothId).toList =
      base.toList ++ (if hothId.toList = [] then [] else delimiter :: hothId.toList) := by
  rw [withHothId]
  by_cases hempty : hothId.toList = []
  · rw [if_pos (by rw [← String.length_toList, hempty]; rfl), if_pos hempty, List.append_nil]
  · rw [if_neg (by rw [← String.length_toList]; exact List.length_eq_zero_iff.not.mpr hempty),
      if_neg hempty, String.toList_append, String.toList_push, List.append_assoc,
      List.singleton_append]

/-- Different Hoth IDs have different names. -/
theorem withHothId_injective (base : String) (delimiter : Char) :
    Function.Injective (withHothId base delimiter) := by
  intro first second hsame
  have hlists := congrArg String.toList hsame
  rw [toList_withHothId, toList_withHothId] at hlists
  have hrest := List.append_cancel_left hlists
  apply String.toList_injective
  by_cases hfirst : first.toList = [] <;> by_cases hsecond : second.toList = []
  · rw [hfirst, hsecond]
  · rw [if_pos hfirst, if_neg hsecond] at hrest
    exact absurd hrest.symm (List.cons_ne_nil _ _)
  · rw [if_neg hfirst, if_pos hsecond] at hrest
    exact absurd hrest (List.cons_ne_nil _ _)
  · rw [if_neg hfirst, if_neg hsecond] at hrest
    exact (List.cons.inj hrest).2

/-- A message is for one service. -/
theorem Addresses.unique {first second : String} {message : SdBusMessage}
    (hfirst : Addresses first message) (hsecond : Addresses second message) : first = second :=
  withHothId_injective hothdService '.' (hfirst.destination.symm.trans hsecond.destination)

/-! ### A process -/

/-- The message of a request, with its bytes. -/
def requestMessage (ctx : LibhothDbusDevice) (requestData : List UInt8) : SdBusMessage :=
  { hostCommandMessage ctx with body := requestData }

@[simp] theorem requestMessage_body (ctx : LibhothDbusDevice) (requestData : List UInt8) :
    (requestMessage ctx requestData).body = requestData :=
  rfl

/-- The device behind the send of a request. -/
def pendingDevice (ctx : LibhothDbusDevice) (requestData : List UInt8) : LibhothDbusDevice :=
  { ctx with request := some (requestMessage ctx requestData) }

/-- A program over a transport, run over the bus: the device goes from call to call. -/
def onDbus {α : Type} : TransportProgram α → LibhothDbusDevice → DbusProgram (α × LibhothDbusDevice)
  | .done value, ctx => return (value, ctx)
  | .ask (.send requestData) next, ctx => do
    let (err, ctx) ← send ctx requestData
    onDbus (next err) ctx
  | .ask (.receive maxResponseSize timeoutMs) next, ctx => do
    let (received, ctx) ← receive ctx (fun _ ↦ 0) maxResponseSize (some 0) (Int32.ofNat timeoutMs)
    onDbus (next (receivedReply received maxResponseSize)) ctx

/-! ### What keeps to a process -/

section Process

variable {σ : Type} {services : String → Service σ} {ctx : LibhothDbusDevice}
  {memory : BusMemory}

/-- A send that failed and left nothing, or one whose message is pending. -/
def SentOver (ctx : LibhothDbusDevice) (requestData : List UInt8) (memory : BusMemory)
    (out : LibhothError × LibhothDbusDevice) (final : BusMemory) : Prop :=
  (out.1 ≠ hothSuccess ∧ out.2 = ctx ∧ final = memory) ∨
    (out = (hothSuccess, pendingDevice ctx requestData) ∧
      final = ⟨memory.references + 1, memory.replies⟩)

/-- A negative error number is an error. -/
theorem dbusErrPosix_neg_ne_success {rv : ℤ} (hrv : rv < 0) : dbusErrPosix (-rv) ≠ hothSuccess :=
  (dbusErrPosix_eq_success_iff _).not.mpr (by omega)

theorem sendCleanup_still (failure : String) {rv : ℤ} (hrv : rv < 0)
    (message : Option SdBusMessage) (memory : BusMemory) :
    Still (systemBus services) (sendCleanup ctx failure rv message) memory fun out final ↦
      out.1 ≠ hothSuccess ∧ out.2 = ctx ∧
        final = ⟨memory.references - if message.isSome then 1 else 0, memory.replies⟩ := by
  have herror := dbusErrPosix_neg_ne_success hrv
  refine Still.bind_unchanged (fun _ _ _ hsame ↦ hsame) fun reason ↦ ?_
  refine Still.bind_unchanged (fun _ _ _ hsame ↦ hsame) fun _ ↦ ?_
  refine Still.bind (still_request fun _ _ _ _ hunref ↦ ?_)
  cases message with
  | none =>
    obtain ⟨rfl, rfl⟩ := Prod.mk.inj hunref
    exact ⟨rfl, herror, rfl, by simp⟩
  | some message =>
    obtain ⟨rfl, rfl⟩ := Prod.mk.inj hunref
    exact ⟨rfl, herror, rfl, rfl⟩

/-- A send stays with its process. -/
theorem send_still (hidle : ctx.request = none) (requestData : List UInt8) :
    Still (systemBus services) (send ctx requestData) memory
      (SentOver ctx requestData memory) := by
  have hdrop : dropPending ctx = .done ctx := by
    rw [dropPending, hidle]
    rfl
  rw [send, hdrop]
  refine Still.bind (still_request fun _ created _ _ hcreated ↦ ?_)
  cases created with
  | failed rv negative =>
    obtain ⟨rfl, rfl⟩ := Prod.mk.inj hcreated
    refine ⟨rfl, (sendCleanup_still _ negative none _).mono ?_⟩
    rintro out final ⟨herror, hctx, rfl⟩
    exact .inl ⟨herror, hctx, by simp⟩
  | ok _ =>
    obtain ⟨rfl, rfl⟩ := Prod.mk.inj hcreated
    refine ⟨rfl, Still.bind (still_request fun _ filled _ _ hfilled ↦ ?_)⟩
    cases filled with
    | failed rv negative =>
      obtain ⟨rfl, rfl⟩ := Prod.mk.inj hfilled
      refine ⟨rfl, (sendCleanup_still _ negative (some _) _).mono ?_⟩
      rintro out final ⟨herror, hctx, rfl⟩
      exact .inl ⟨herror, hctx, by simp⟩
    | ok _ =>
      obtain ⟨rfl, rfl⟩ := Prod.mk.inj hfilled
      exact ⟨rfl, .inr ⟨rfl, rfl⟩⟩

/-- What a receive gives back: its message, and the reply if it has one. -/
def released (memory : BusMemory) : Option ℕ → BusMemory
  | none => ⟨memory.references - 1, memory.replies⟩
  | some number => ⟨memory.references - 1 - 1, Function.update memory.replies number none⟩

theorem receiveCleanup_still {message : SdBusMessage} (hpending : ctx.request = some message)
    (reply : Option ℕ) (received : Received) (memory : BusMemory) :
    Still (systemBus services) (receiveCleanup ctx reply received) memory fun out final ↦
      out = (received, { ctx with request := none }) ∧ final = released memory reply := by
  rw [receiveCleanup, hpending]
  refine Still.bind (still_request fun _ _ _ _ hreply ↦ ?_)
  cases reply with
  | none =>
    obtain ⟨rfl, rfl⟩ := Prod.mk.inj hreply
    refine ⟨rfl, Still.bind_unchanged (fun _ _ _ hsame ↦ hsame) fun _ ↦ ?_⟩
    refine Still.bind (still_request fun _ _ _ _ hmessage ↦ ?_)
    obtain ⟨rfl, rfl⟩ := Prod.mk.inj hmessage
    exact ⟨rfl, rfl, rfl⟩
  | some number =>
    obtain ⟨rfl, rfl⟩ := Prod.mk.inj hreply
    refine ⟨rfl, Still.bind_unchanged (fun _ _ _ hsame ↦ hsame) fun _ ↦ ?_⟩
    refine Still.bind (still_request fun _ _ _ _ hmessage ↦ ?_)
    obtain ⟨rfl, rfl⟩ := Prod.mk.inj hmessage
    exact ⟨rfl, rfl, rfl⟩

/-- A reply with an array that fits is received whole. -/
theorem receiveReply_still_bytes {message : SdBusMessage} (hpending : ctx.request = some message)
    {number : ℕ} {array : List UInt8} (hreply : memory.replies number = some (.bytes array))
    {maxResponseSize : ℕ} (hfits : array.length ≤ maxResponseSize) (response : ℕ → UInt8)
    (actualSize : Option ℕ) :
    Still (systemBus services) (receiveReply ctx number response maxResponseSize actualSize)
      memory fun out final ↦
        out = (⟨hothSuccess, store response 0 array, actualSize.map fun _ ↦ array.length⟩,
          { ctx with request := none }) ∧ final = released memory (some number) := by
  refine Still.bind (still_request fun _ answer _ _ hanswer ↦ ?_)
  cases answer with
  | failed rv negative => exact absurd hreply (hanswer.1 array)
  | ok buf =>
    obtain ⟨hsame, hafter⟩ := hanswer
    obtain ⟨rfl, rfl⟩ := Prod.mk.inj hafter
    obtain rfl : array = buf := by
      rw [hreply] at hsame
      exact ReplyBody.bytes.inj (Option.some.inj hsame)
    dsimp only
    rw [if_neg hfits.not_gt]
    exact ⟨rfl, receiveCleanup_still hpending (some number) _ _⟩

/-- A reply that holds something else is an error. -/
theorem receiveReply_still_unreadable {message : SdBusMessage}
    (hpending : ctx.request = some message) {number : ℕ} {rv : ℤ} {hnegative : rv < 0}
    (hreply : memory.replies number = some (.unreadable rv hnegative)) (response : ℕ → UInt8)
    (maxResponseSize : ℕ) (actualSize : Option ℕ) :
    Still (systemBus services) (receiveReply ctx number response maxResponseSize actualSize)
      memory fun out final ↦ out = (⟨dbusErrPosix (-rv), response, actualSize⟩,
        { ctx with request := none }) ∧ final = released memory (some number) := by
  refine Still.bind (still_request fun _ answer _ _ hanswer ↦ ?_)
  cases answer with
  | ok buf =>
    have hsame := hanswer.1
    rw [hreply] at hsame
    exact nomatch Option.some.inj hsame
  | failed other negative =>
    obtain ⟨-, hother, hafter⟩ := hanswer
    obtain ⟨rfl, rfl⟩ := Prod.mk.inj hafter
    obtain rfl := hother rv hnegative hreply
    refine ⟨rfl, Still.bind_unchanged (fun _ _ _ hsame ↦ hsame) fun reason ↦ ?_⟩
    refine Still.bind_unchanged (fun _ _ _ hsame ↦ hsame) fun _ ↦ ?_
    exact receiveCleanup_still hpending (some number) _ _

end Process

/-! ### A command -/

theorem receivedReply_whole {array : List UInt8} {maxResponseSize : ℕ}
    (hfits : array.length ≤ maxResponseSize) :
    receivedReply ⟨hothSuccess, store (fun _ ↦ 0) 0 array, some array.length⟩ maxResponseSize =
      .received array hfits := by
  rw [receivedReply, dif_pos rfl]
  simp only [Option.getD_some, load_store_self, hfits, dite_true]

section Command

variable {σ : Type} {services : String → Service σ} {hothId : String} {call : HostCommand}

/-- An error that is received is the error of the command. -/
theorem receivedHostReply_failed {err : LibhothError} (nonzero : err ≠ hothSuccess)
    (response : ℕ → UInt8) (actualSize : Option ℕ) :
    receivedHostReply call (receivedReply ⟨err, response, actualSize⟩ libhothMailboxSize) =
      .failed err nonzero := by
  rw [receivedReply, dif_neg nonzero]
  rfl

/-- A command may fail without an effect. -/
theorem hothEnvironment_failed (err : LibhothError) (nonzero : err ≠ hothSuccess)
    (states : String → σ) :
    hothEnvironment services hothId states call (.failed err nonzero) states :=
  ⟨states hothId, .inr ⟨err, nonzero, rfl, .inl rfl⟩, (Function.update_eq_self _ _).symm⟩

/-- A command may fail with an effect. -/
theorem hothEnvironment_hidden
    (hsize : call.payload.length ≤ libhothMailboxSize - headerSize) {header : HothHostRequest}
    (hheader : populateEcRequestHeader call.command call.version call.payload = .ok header)
    (err : LibhothError) (nonzero : err ≠ hothSuccess) (states : String → σ) :
    hothEnvironment services hothId states call (.failed err nonzero)
      (servedStates services hothId (header.encode ++ call.payload) states) := by
  obtain ⟨answer, -, hstep⟩ := serveFrame_step hsize hheader (services hothId) (states hothId)
  exact ⟨_, .inr ⟨err, nonzero, rfl, .inr ⟨_, hstep⟩⟩, rfl⟩

/-- What a process receives is its reply, and leaves its memory as it was. -/
theorem tracks_received {α : Type} {ctx : LibhothDbusDevice} {before : BusMemory}
    {post : α × LibhothDbusDevice → BusMemory → Prop} (received : Received) (memory : BusMemory)
    {reply : HostReply call}
    (hreply : receivedHostReply call (receivedReply received libhothMailboxSize) = reply)
    {receiving : DbusProgram (Received × LibhothDbusDevice)}
    (hstill : Still (systemBus services) receiving before fun out final ↦
      out = (received, ctx) ∧ final = memory)
    {rest : HostReply call → TransportProgram α} {upper : HostProgram α}
    (hrest : Tracks (systemBus services) (hothEnvironment services hothId) Prod.fst post
      (onDbus (rest reply) ctx) memory upper) :
    Tracks (systemBus services) (hothEnvironment services hothId) Prod.fst post
      (receiving >>= fun out ↦
        onDbus (rest (receivedHostReply call (receivedReply out.1 libhothMailboxSize))) out.2)
      before upper := by
  refine Tracks.of_still (hstill.mono ?_)
  rintro _ _ ⟨rfl, rfl⟩
  rw [hreply]
  exact hrest

/-- A process that has given back its message and the reply holds what it held before. -/
theorem released_called {memory : BusMemory} {number : ℕ} (hfree : memory.replies number = none)
    (body : ReplyBody) :
    released ⟨memory.references + 1 + 1, Function.update memory.replies number (some body)⟩
      (some number) = memory := by
  rw [released]
  dsimp only
  rw [Function.update_idem, ← hfree, Function.update_eq_self, add_sub_cancel_right,
    add_sub_cancel_right]

section Answered

variable {α : Type} {bus : ℕ} {memory : BusMemory}
  (hsize : call.payload.length ≤ libhothMailboxSize - headerSize) {header : HothHostRequest}
  (hheader : populateEcRequestHeader call.command call.version call.payload = .ok header)
  {next : HostReply call → HostProgram α} {rest : HostReply call → TransportProgram α}
  (hnext : ∀ reply, Tracks (systemBus services) (hothEnvironment services hothId) Prod.fst
    (fun out final ↦ out.2 = libhothDbusOpened bus hothId ∧ final = memory)
    (onDbus (rest reply) (libhothDbusOpened bus hothId)) memory (next reply))
include hsize hheader hnext

/-- A call that was answered is a step of the service, whether the reply can be read or not. -/
theorem tracks_answered {number : ℕ} (hfree : memory.replies number = none) {body : ReplyBody}
    (states : String → σ)
    (hbody : body = .bytes (serveFrame (services hothId) (states hothId)
      (header.encode ++ call.payload)).1.bytes ∨ ∃ rv negative, body = .unreadable rv negative) :
    ∃ reply, hothEnvironment services hothId states call reply
        (servedStates services hothId (header.encode ++ call.payload) states) ∧
      Tracks (systemBus services) (hothEnvironment services hothId) Prod.fst
        (fun out final ↦ out.2 = libhothDbusOpened bus hothId ∧ final = memory)
        (receiveReply (pendingDevice (libhothDbusOpened bus hothId)
            (header.encode ++ call.payload)) number (fun _ ↦ 0) libhothMailboxSize (some 0) >>=
          fun out ↦ onDbus
            (rest (receivedHostReply call (receivedReply out.1 libhothMailboxSize))) out.2)
        ⟨memory.references + 1 + 1, Function.update memory.replies number (some body)⟩
        (next reply) := by
  have hreleased := released_called hfree body
  rcases hbody with rfl | ⟨rv, negative, rfl⟩
  · obtain ⟨answer, hframe, hstep⟩ :=
      serveFrame_step hsize hheader (services hothId) (states hothId)
    have hbytes : (serveFrame (services hothId) (states hothId)
        (header.encode ++ call.payload)).1.bytes = answer.bytes :=
      congrArg ResponseFrame.bytes hframe
    have hreply : Function.update memory.replies number (some (ReplyBody.bytes
        (serveFrame (services hothId) (states hothId)
          (header.encode ++ call.payload)).1.bytes)) number = some (.bytes answer.bytes) := by
      rw [Function.update_self, hbytes]
    refine ⟨answer.reply call, ⟨_, .inl hstep, rfl⟩, ?_⟩
    refine tracks_received ⟨hothSuccess, store (fun _ ↦ 0) 0 answer.bytes,
      some answer.bytes.length⟩ memory ?_ ?_ (hnext _)
    · rw [receivedReply_whole (length_bytes_le answer)]
      exact replyOfOutcome_frame answer call
    · refine Still.mono (receiveReply_still_bytes rfl hreply (length_bytes_le answer) _ _) ?_
      rintro out final ⟨rfl, rfl⟩
      exact ⟨rfl, hreleased⟩
  · have herror := dbusErrPosix_neg_ne_success negative
    refine ⟨.failed _ herror, hothEnvironment_hidden hsize hheader _ _ _, ?_⟩
    refine tracks_received ⟨dbusErrPosix (-rv), fun _ ↦ 0, some 0⟩ memory
      (receivedHostReply_failed herror _ _) ?_ (hnext _)
    refine Still.mono (receiveReply_still_unreadable rfl (Function.update_self _ _ _) _ _ _) ?_
    rintro out final ⟨rfl, rfl⟩
    exact ⟨rfl, hreleased⟩

/-- What a process does behind the send of a command is the command, whatever the bus does. -/
theorem tracks_behindSend :
    Tracks (systemBus services) (hothEnvironment services hothId) Prod.fst
      (fun out final ↦ out.2 = libhothDbusOpened bus hothId ∧ final = memory)
      (onDbus (behindSend call hothSuccess >>= rest)
        (pendingDevice (libhothDbusOpened bus hothId) (header.encode ++ call.payload)))
      ⟨memory.references + 1, memory.replies⟩ (.ask call next) := by
  have hmessage : Addresses hothId (requestMessage (libhothDbusOpened bus hothId)
      (header.encode ++ call.payload)) := ⟨rfl, rfl, rfl, rfl⟩
  have hback : (⟨memory.references + 1 - 1, memory.replies⟩ : BusMemory) = memory := by
    rw [add_sub_cancel_right]
  rw [behindSend, dif_neg (not_not_intro rfl)]
  rintro states ⟨outcome, text⟩ after later hcalled
  cases outcome with
  | failed rv negative =>
    obtain ⟨hsame, hlater⟩ := hcalled
    dsimp only at hsame hlater
    subst hsame
    have herror := dbusErrPosix_neg_ne_success negative
    refine ⟨next (.failed _ herror), .call ?_ (.none _ _), ?_⟩
    · rcases hlater with rfl | ⟨other, hother, rfl⟩
      · exact hothEnvironment_failed _ _ _
      · obtain rfl := hother.unique hmessage
        exact hothEnvironment_hidden hsize hheader _ _ _
    · refine tracks_received ⟨dbusErrPosix (-rv), fun _ ↦ 0, some 0⟩ memory
        (receivedHostReply_failed herror _ _) ?_ (hnext _)
      refine Still.bind_unchanged (fun _ _ _ hsame ↦ hsame) fun _ ↦ ?_
      refine Still.mono (receiveCleanup_still rfl none _ _) ?_
      rintro out final ⟨rfl, rfl⟩
      exact ⟨rfl, hback⟩
  | ok number =>
    obtain ⟨hfree, other, body, hother, hbody, hafter⟩ := hcalled
    obtain rfl := hother.unique hmessage
    obtain ⟨rfl, rfl⟩ := Prod.mk.inj hafter
    obtain ⟨reply, hstep, hrest⟩ := tracks_answered hsize hheader hnext hfree states hbody
    exact ⟨next reply, .call hstep (.none _ _), hrest⟩

end Answered

/-- A program over the bus does what it does at the service of its Hoth ID, each command at once. -/
theorem tracks_onDbus {α : Type} (services : String → Service σ) (hothId : String) (bus : ℕ)
    (program : HostProgram α) (memory : BusMemory) :
    Tracks (systemBus services) (hothEnvironment services hothId) Prod.fst
      (fun out final ↦ out.2 = libhothDbusOpened bus hothId ∧ final = memory)
      (onDbus (interpret execOnTransport program) (libhothDbusOpened bus hothId)) memory
      program := by
  induction program with
  | done value => exact ⟨⟨rfl, rfl⟩, fun _ ↦ .none _ _⟩
  | ask call next ih =>
    rw [interpret]
    by_cases hlarge : libhothMailboxSize - headerSize < call.payload.length
    · rw [execOnTransport_of_large hlarge]
      exact (ih _).call_silent (hothEnvironment_failed _ _)
    · have hsize := Nat.le_of_not_lt hlarge
      obtain ⟨header, hheader⟩ := populateEcRequestHeader_of_le call.command call.version hsize
      rw [execOnTransport_of_header hsize hheader]
      refine Tracks.of_still (Still.mono (send_still rfl _) ?_)
      rintro ⟨err, device⟩ final (⟨hfailed, rfl, rfl⟩ | ⟨hsent, rfl⟩)
      · dsimp only
        rw [behindSend, dif_pos hfailed]
        exact (ih _).call_silent (hothEnvironment_failed _ _)
      · obtain ⟨rfl, rfl⟩ := Prod.mk.inj hsent
        exact tracks_behindSend hsize hheader ih

end Command

/-! ### Processes -/

section Processes

variable {σ : Type} {Client : Type} [DecidableEq Client] {α : Type}

/-- Processes on the bus, any of which may make the next call, come to states that processes at the
services come to, each of whose commands takes effect at once. Those that are done have the same
results, their devices are as they were opened, and they hold what they held. -/
theorem dbus_clients_atomic (services : String → Service σ) (hothId : Client → String)
    (bus : Client → ℕ) (program : Client → HostProgram α) (memory : Client → BusMemory)
    (states : String → σ)
    {now : System DbusReply (α × LibhothDbusDevice) Client ((Client → BusMemory) × (String → σ))}
    (hreaches : Reaches (joint fun _ ↦ systemBus services)
      ⟨fun client ↦ onDbus (interpret execOnTransport (program client))
        (libhothDbusOpened (bus client) (hothId client)), (memory, states)⟩ now)
    (finished : Finset Client) (result : Client → α × LibhothDbusDevice)
    (hfinished : ∀ client ∈ finished, now.program client = .done (result client)) :
    ∃ reached : Client → HostProgram α,
      Reaches (fun client ↦ hothEnvironment services (hothId client)) ⟨program, states⟩
          ⟨reached, now.world.2⟩ ∧
        ∀ client ∈ finished, reached client = .done (result client).1 ∧
          (result client).2 = libhothDbusOpened (bus client) (hothId client) ∧
            now.world.1 client = memory client :=
  hreaches.results (fun client ↦ tracks_onDbus services (hothId client) (bus client)
    (program client) (memory client)) finished hfinished

end Processes

/-! ### Two processes -/

/-- A command over the bus that is answered. -/
theorem runs_onDbus_fourBytes :
    Runs (systemBus fun _ ↦ countingService)
      (onDbus (interpret execOnTransport (request fourBytes)) (libhothDbusOpened 0 ""))
      (⟨0, fun _ ↦ none⟩, fun _ ↦ 0) (badRequest.reply fourBytes, libhothDbusOpened 0 "")
      (⟨0, fun _ ↦ none⟩, Function.update (fun _ ↦ 0) "" 1) := by
  have hsize : fourBytes.payload.length ≤ libhothMailboxSize - headerSize := by decide
  obtain ⟨header, hheader⟩ :=
    populateEcRequestHeader_of_le fourBytes.command fourBytes.version hsize
  have hserved : serveFrame countingService 0 (header.encode ++ fourBytes.payload) =
      (badRequest.frame, 1) :=
    serveFrame_populate countingService 0 hheader
  rw [interpret_request, execOnTransport_of_header hsize hheader]
  refine (runs_bind _ _ _ _ _).mpr ⟨(hothSuccess, pendingDevice (libhothDbusOpened 0 "")
    (header.encode ++ fourBytes.payload)), (⟨1, fun _ ↦ none⟩, fun _ ↦ 0),
    ⟨.ok (), _, rfl, .ok (), _, rfl, rfl, rfl⟩, ?_⟩
  dsimp only
  rw [behindSend, dif_neg (not_not_intro rfl)]
  have hread : Runs (systemBus fun _ ↦ countingService)
      (receiveReply (pendingDevice (libhothDbusOpened 0 "") (header.encode ++ fourBytes.payload)) 0
        (fun _ ↦ 0) libhothMailboxSize (some 0))
      (⟨2, Function.update (fun _ ↦ none) 0 (some (.bytes badRequest.bytes))⟩,
        Function.update (fun _ ↦ 0) "" 1)
      (⟨hothSuccess, store (fun _ ↦ 0) 0 badRequest.bytes, some badRequest.bytes.length⟩,
        libhothDbusOpened 0 "")
      (⟨0, fun _ ↦ none⟩, Function.update (fun _ ↦ 0) "" 1) := by
    have hshown : Function.update (fun _ : ℕ ↦ (none : Option ReplyBody)) 0
        (some (.bytes badRequest.bytes)) 0 = some (.bytes badRequest.bytes) :=
      Function.update_self _ _ _
    rw [receiveReply, runs_bind]
    refine ⟨.ok badRequest.bytes, _, (runs_request _ _ _ _).mpr ⟨hshown, rfl⟩, ?_⟩
    dsimp only
    rw [if_neg (length_bytes_le badRequest).not_gt]
    refine ⟨(), (⟨1, Function.update (Function.update (fun _ ↦ none) 0
      (some (.bytes badRequest.bytes))) 0 none⟩, _), rfl, (), _, rfl, (), _, rfl, rfl, ?_⟩
    rw [Function.update_idem, Function.update_eq_self]
    rfl
  have hcalled : systemBus (fun _ ↦ countingService) (⟨1, fun _ ↦ none⟩, fun _ ↦ 0)
      (.call 0 (requestMessage (libhothDbusOpened 0 "") (header.encode ++ fourBytes.payload))
        (timeoutUsec (Int32.ofNat hothCmdTimeoutMsDefault))) (.ok 0, "")
      (⟨2, Function.update (fun _ ↦ none) 0 (some (.bytes badRequest.bytes))⟩,
        Function.update (fun _ ↦ 0) "" 1) := by
    refine ⟨rfl, "", _, ⟨rfl, rfl, rfl, rfl⟩, .inl rfl, ?_⟩
    rw [servedStates]
    dsimp only [requestMessage_body]
    rw [hserved]
    rfl
  refine (runs_bind _ _ _ _ _).mpr ⟨_, _, ⟨_, _, hcalled, hread⟩, ?_⟩
  dsimp only
  rw [receivedReply_whole (length_bytes_le badRequest)]
  exact ⟨congrArg (·, libhothDbusOpened 0 "") (replyOfOutcome_frame badRequest fourBytes).symm,
    rfl⟩

/-- One of two processes has its answer, and the other has begun. -/
theorem dbus_clients_atomic_fourBytes :
    ∃ reached : Bool → HostProgram (HostReply fourBytes),
      Reaches (fun _ ↦ hothEnvironment (fun _ ↦ countingService) "")
          ⟨fun _ ↦ request fourBytes, fun _ ↦ 0⟩ ⟨reached, Function.update (fun _ ↦ 0) "" 1⟩ ∧
        reached true = .done (badRequest.reply fourBytes) := by
  have hcreated : systemBus (fun _ ↦ countingService) (⟨0, fun _ ↦ none⟩, fun _ ↦ 0)
      (.messageNewMethodCall 0 (hostCommandMessage (libhothDbusOpened 0 ""))) (.ok ())
      (⟨1, fun _ ↦ none⟩, fun _ ↦ 0) := rfl
  have hbegins : Advances (systemBus fun _ ↦ countingService)
      (onDbus (interpret execOnTransport (request fourBytes)) (libhothDbusOpened 0 ""))
      (⟨0, fun _ ↦ none⟩, fun _ ↦ 0) _ _ := .call hcreated (.none _ _)
  have hstart : Reaches (joint fun _ : Bool ↦ systemBus fun _ ↦ countingService)
      ⟨fun _ ↦ onDbus (interpret execOnTransport (request fourBytes)) (libhothDbusOpened 0 ""),
        (fun _ ↦ ⟨0, fun _ ↦ none⟩, fun _ ↦ 0)⟩ _ := .refl
  have hbegun := hstart.of_advances
    (hbegins.jointly (fun _ : Bool ↦ systemBus fun _ ↦ countingService) false _ rfl) rfl
  have hanswered := hbegun.of_advances ((Advances.of_runs runs_onDbus_fourBytes).jointly
    (fun _ : Bool ↦ systemBus fun _ ↦ countingService) true _ rfl) rfl
  obtain ⟨reached, hreached, hdone⟩ := dbus_clients_atomic (fun _ ↦ countingService) (fun _ ↦ "")
    (fun _ ↦ 0) (fun _ ↦ request fourBytes) (fun _ ↦ ⟨0, fun _ ↦ none⟩) (fun _ ↦ 0) hanswered {true}
    (fun _ ↦ (badRequest.reply fourBytes, libhothDbusOpened 0 "")) fun client hclient ↦ by
      obtain rfl := Finset.mem_singleton.mp hclient
      dsimp only
      rw [Function.update_self]
  exact ⟨reached, hreached, (hdone true (Finset.mem_singleton_self _)).1⟩

end Libhoth.Transports.ServiceOverDbus
