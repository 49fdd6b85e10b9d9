import Libhoth.Transports.MtdDevice

/-!
# The mailbox in a file

`mtdMailbox` is the environment of the MTD transport with a mailbox in the file: writes store into
an array of bytes, and reads return the bytes that the root of trust shows in answer to it, as many
as they like. `mtdWrite_ensures` and `mtdRead_ensures` are the two functions that the MTD path is
made of.
-/

set_option autoImplicit false
set_option relaxedAutoImplicit false

namespace Libhoth.Transports.MailboxOverMtd

open Foundation.CellMemory Foundation.InteractingProgram LibhothEc MtdDevice

/-! ### The environment -/

/-- A mailbox in a file, with the position in the file. -/
structure MtdMailbox where
  cells : ℕ → UInt8
  position : ℕ

/-- The environment of the MTD transport: no call fails, and a read that asks for bytes returns at
least one. -/
def mtdMailbox (rot : (ℕ → UInt8) → ℕ → UInt8) : Environment MtdReply MtdMailbox :=
    fun mailbox call reply next ↦
  match call, reply with
  | .lseek offset, found => found = true ∧ next = { mailbox with position := offset }
  | .read _, .failed _ => False
  | .read count, .bytes data _ =>
    (0 < count → data ≠ []) ∧ data = load (rot mailbox.cells) mailbox.position data.length ∧
      next = { mailbox with position := mailbox.position + data.length }
  | .write _, .failed _ => False
  | .write data, .written count =>
    count = data.length ∧
      next = ⟨store mailbox.cells mailbox.position data, mailbox.position + data.length⟩

/-! ### Writing and reading -/

variable (rot : (ℕ → UInt8) → ℕ → UInt8)

/-- What the read loop keeps: the bytes that were read are in the buffer. -/
structure Filled (cells : ℕ → UInt8) (address : ℕ) (buffer : ℕ → UInt8) (offset len : ℕ)
    (state : MtdDevice.ReadState) (mailbox : MtdMailbox) : Prop where
  bounded : state.dataLen ≤ len
  placed : state.offset = offset + (len - state.dataLen)
  stored : state.buffer = store buffer offset (load (rot cells) address (len - state.dataLen))
  kept : mailbox.cells = cells
  reached : mailbox.position = address + (len - state.dataLen)

/-- Reading some more of the bytes. -/
theorem Filled.next {cells : ℕ → UInt8} {address : ℕ} {buffer : ℕ → UInt8} {offset len : ℕ}
    {state : MtdDevice.ReadState} {mailbox : MtdMailbox}
    (hfilled : Filled rot cells address buffer offset len state mailbox) {data : List UInt8}
    (hlength : data.length ≤ state.dataLen)
    (hdata : data = load (rot mailbox.cells) mailbox.position data.length) :
    Filled rot cells address buffer offset len
      ⟨store state.buffer state.offset data, state.offset + data.length,
        state.dataLen - data.length⟩
      { mailbox with position := mailbox.position + data.length } := by
  obtain ⟨hbounded, hplaced, hstored, hkept, hreached⟩ := hfilled
  have hmore : len - (state.dataLen - data.length) = len - state.dataLen + data.length := by
    omega
  refine ⟨?_, ?_, ?_, hkept, ?_⟩
  · dsimp only
    omega
  · dsimp only
    rw [hmore, hplaced, Nat.add_assoc]
  · dsimp only
    have hshown : data = load (rot cells) (address + (len - state.dataLen)) data.length := by
      rw [← hkept, ← hreached]
      exact hdata
    have happend := store_store_append buffer offset
      (load (rot cells) address (len - state.dataLen)) data
    rw [length_load] at happend
    rw [hstored, hplaced, happend, hmore, load_add, ← hshown]
  · dsimp only
    rw [hmore, hreached, Nat.add_assoc]

/-- One read. -/
theorem readRound_ensures {cells : ℕ → UInt8} {address : ℕ} {buffer : ℕ → UInt8}
    {offset len : ℕ} (state : MtdDevice.ReadState) (mailbox : MtdMailbox)
    (hfilled : Filled rot cells address buffer offset len state mailbox) :
    Ensures (mtdMailbox rot) (MtdDevice.readRound state) mailbox fun outcome final ↦
      match outcome with
      | .inl next =>
        Filled rot cells address buffer offset len next final ∧ next.dataLen < state.dataLen
      | .inr value => value = (libhothOk, store buffer offset (load (rot cells) address len)) ∧
          final.cells = cells := by
  rw [MtdDevice.readRound]
  split_ifs with hdone
  · have hstored := hfilled.stored
    rw [hdone, Nat.sub_zero] at hstored
    exact (ensures_done _ _ _).mpr ⟨by rw [hstored], hfilled.kept⟩
  · rw [ensures_bind, ensures_request]
    intro reply final hstep
    cases reply with
    | failed interrupted => exact hstep.elim
    | bytes data fits =>
      obtain ⟨hsome, hdata, rfl⟩ := hstep
      have hdata' : data ≠ [] := hsome (Nat.pos_of_ne_zero hdone)
      have hpositive := List.length_pos_of_ne_nil hdata'
      dsimp only
      rw [if_neg hdata']
      refine (ensures_done _ _ _).mpr ⟨hfilled.next rot fits hdata, ?_⟩
      dsimp only
      omega

/-- A read copies the shown bytes into the buffer. -/
theorem mtdRead_ensures (address : UInt32) (buffer : ℕ → UInt8) (offset : ℕ) {len rounds : ℕ}
    (henough : len < rounds) (mailbox : MtdMailbox) :
    Ensures (mtdMailbox rot) (mtdRead address buffer offset len rounds) mailbox
      fun outcome final ↦
        outcome =
            some (libhothOk, store buffer offset (load (rot mailbox.cells) address.toNat len)) ∧
          final.cells = mailbox.cells := by
  rw [mtdRead]
  split_ifs with hempty
  · refine (ensures_done _ _ _).mpr ⟨?_, rfl⟩
    rw [hempty, load_zero, store_nil]
  · rw [ensures_bind, ensures_request]
    rintro _ sought ⟨rfl, rfl⟩
    have hstart : Filled rot mailbox.cells address.toNat buffer offset len ⟨buffer, offset, len⟩
        { mailbox with position := address.toNat } := by
      constructor <;> simp
    have hread : Ensures (mtdMailbox rot)
        (whileRounds MtdDevice.readRound rounds ⟨buffer, offset, len⟩)
        { mailbox with position := address.toNat } fun outcome final ↦
          ∃ value, outcome = some value ∧
            (value = (libhothOk, store buffer offset (load (rot mailbox.cells) address.toNat len)) ∧
              final.cells = mailbox.cells) := by
      refine whileRounds_total MtdDevice.ReadState.dataLen
        (Filled rot mailbox.cells address.toNat buffer offset len) (fun state start hfilled ↦
          (readRound_ensures rot state start hfilled).mono fun outcome final hround ↦ ?_)
        rounds _ _ hstart henough
      cases outcome <;> exact hround
    refine hread.mono ?_
    rintro _ final ⟨_, rfl, rfl, hcells⟩
    exact ⟨rfl, hcells⟩

/-- A write stores its bytes. -/
theorem mtdWrite_ensures (address : UInt32) {data : List UInt8} (hnonempty : data ≠ [])
    (rounds : ℕ) (mailbox : MtdMailbox) :
    Ensures (mtdMailbox rot) (mtdWrite address data (rounds + 1)) mailbox fun outcome final ↦
      outcome = some libhothOk ∧ final.cells = store mailbox.cells address.toNat data := by
  rw [mtdWrite, if_neg hnonempty, ensures_bind, ensures_request]
  rintro _ sought ⟨rfl, rfl⟩
  have hround : Ensures (mtdMailbox rot) (MtdDevice.writeRound data ())
      { mailbox with position := address.toNat } fun outcome final ↦
        ∃ value, outcome = .inr value ∧
          (value = libhothOk ∧ final.cells = store mailbox.cells address.toNat data) := by
    rw [MtdDevice.writeRound, ensures_bind, ensures_request]
    intro reply final hstep
    cases reply with
    | failed interrupted => exact hstep.elim
    | written count =>
      obtain ⟨rfl, rfl⟩ := hstep
      dsimp only
      rw [if_neg (not_not_intro rfl)]
      exact (ensures_done _ _ _).mpr ⟨libhothOk, rfl, rfl, rfl⟩
  refine (whileRounds_ensures_first hround rounds).mono ?_
  rintro _ final ⟨_, rfl, rfl, hcells⟩
  exact ⟨rfl, hcells⟩

end Libhoth.Transports.MailboxOverMtd
