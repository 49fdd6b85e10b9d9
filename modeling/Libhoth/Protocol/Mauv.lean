import Libhoth.Foundation.CellMemory
import Libhoth.Protocol.HostCommandProgram

/-!
# Minimum acceptable update versions

`mauv.c`. The device answers a request for its MAUV with one of three structs, which share a union:
the version alone, the `haven_mauv` of the firmware, or the `image_mauv` of a payload, which ends in
a denylist of any length. `libhothFetchMauv` receives the reply into the union, which is a memory of
bytes, and tells the structs apart by the length of the reply alone (`libhothFetchMauv_ensures`).
-/

set_option autoImplicit false
set_option relaxedAutoImplicit false

namespace Libhoth.Protocol.Mauv

open Foundation.CellMemory Foundation.InteractingProgram
open Status HostCommand HostCommandProgram

/-- `HAVEN_MAUV`. -/
def havenMauv : UInt8 := 1

/-- `IMAGE_MAUV`. -/
def imageMauv : UInt8 := 2

/-- `MAUV_STATE_EFFECTIVE`. -/
def mauvStateEffective : UInt8 := 1

/-- `MAUV_STATE_COMPILED`. -/
def mauvStateCompiled : UInt8 := 2

/-- `MAUV_MAX_RECORD_SIZE`. -/
def mauvMaxRecordSize : ℕ := 1016

/-- `HAVEN_MAUV_MAX_DENYLIST_SIZE`. -/
def havenMauvMaxDenylistSize : ℕ := 8

/-- The size of `struct haven_image_version`. -/
def havenImageVersionSize : ℕ := 16

/-- The place of the denylist in `struct haven_mauv`. -/
def havenDenylistOffset : ℕ := 28

/-- The size of `struct haven_mauv`. -/
def havenMauvSize : ℕ :=
  havenDenylistOffset + havenImageVersionSize * havenMauvMaxDenylistSize

/-- The size of `struct image_mauv` without its flexible denylist, and the place of the denylist. -/
def imageMauvSize : ℕ := 40

/-- The size of an entry of that denylist. -/
def imageDenylistEntrySize : ℕ := 8

/-- The place of the number of its entries. -/
def imageNumEntriesOffset : ℕ := 36

/-- The size of `struct hoth_response_mauv`, a union. -/
def hothResponseMauvSize : ℕ := max 4 (max havenMauvSize imageMauvSize)

/-- The host command that asks for a MAUV. -/
def fetchMauvCall (state category : UInt8) : HostCommand where
  command := hothCmdBoardSpecificBase + 0x000B
  version := 0
  payload := [category, state, 0, 0]
  respBufSize := hothResponseMauvSize
  sized := true

/-- `libhoth_fetch_mauv`: the error and the union. -/
def libhothFetchMauv (state category : UInt8) (mauv : ℕ → UInt8) :
    HostProgram (LibhothError × (ℕ → UInt8)) := do
  match ← hostcmdExec (fetchMauvCall state category) with
  | .failed err _ => return (err, mauv)
  | .accepted payload _ =>
    if payload.length = 4 then return (hothSuccess, store mauv 0 payload)
    else if payload.length ≠ hothResponseMauvSize then
      return (cmdExecStatus .fail, store mauv 0 payload)
    else return (hothSuccess, store mauv 0 payload)

/-- `libhoth_update_mauv`. -/
def libhothUpdateMauv (record : List UInt8) : HostProgram LibhothError := do
  if record.length > mauvMaxRecordSize then return cmdExecStatus .invalidParameter
  else do
    let reply ← hostcmdExec ⟨hothCmdBoardSpecificBase + 0x0057, 0, record, 0, true⟩
    return reply.error

/-! ### Which replies are accepted -/

/-- The lengths of the replies that are accepted: that of a version and that of the union. -/
def AcceptedLength (length : ℕ) : Prop :=
  length = 4 ∨ length = hothResponseMauvSize

instance (length : ℕ) : Decidable (AcceptedLength length) :=
  inferInstanceAs (Decidable (_ ∨ _))

/-- The device that answers every host command with one payload, where the payload fits. -/
def answeringWith (σ : Type) (payload : List UInt8) : Environment HostReply σ :=
  fun start _ reply final ↦ (∀ fits, reply = .accepted payload fits) ∧ final = start

/-- A reply that fits the union fills its first bytes, and is accepted for its length. -/
theorem libhothFetchMauv_ensures {σ : Type} {payload : List UInt8}
    (hfits : PayloadFits payload hothResponseMauvSize true) (state category : UInt8)
    (mauv : ℕ → UInt8) (start : σ) :
    Ensures (answeringWith σ payload) (libhothFetchMauv state category mauv) start
      fun result final ↦ final = start ∧
        result = (if AcceptedLength payload.length then hothSuccess else cmdExecStatus .fail,
          store mauv 0 payload) := by
  unfold libhothFetchMauv
  rw [ensures_bind, hostcmdExec, ensures_request]
  rintro reply _ ⟨hreply, rfl⟩
  obtain rfl := hreply hfits
  by_cases hversion : payload.length = 4
  · have haccepted : AcceptedLength payload.length := .inl hversion
    dsimp only
    rw [if_pos hversion, if_pos haccepted]
    exact (ensures_done _ _ _).mpr ⟨rfl, rfl⟩
  · dsimp only
    rw [if_neg hversion]
    by_cases hunion : payload.length = hothResponseMauvSize
    · have haccepted : AcceptedLength payload.length := .inr hunion
      rw [if_neg (not_not.mpr hunion), if_pos haccepted]
      exact (ensures_done _ _ _).mpr ⟨rfl, rfl⟩
    · have hrejected : ¬AcceptedLength payload.length := not_or.mpr ⟨hversion, hunion⟩
      rw [if_pos hunion, if_neg hrejected]
      exact (ensures_done _ _ _).mpr ⟨rfl, rfl⟩

end Libhoth.Protocol.Mauv
