import Libhoth.Protocol.Console

/-!
# Writing a buffer whole

`libhoth_force_write` of `util.c` in any world in which a write that takes a part of its buffer
appends that part to a file, and one that fails leaves the file. It appends a beginning of the
buffer, and the whole of it when it returns zero (`libhothForceWrite_appends`).
-/

set_option autoImplicit false
set_option relaxedAutoImplicit false

namespace Libhoth.Protocol.ForceWrite

open Foundation.InteractingProgram Console

universe x

variable {σ : Type x} {environment : Environment ConsoleReply σ}

/-- A buffer is appended, by as many writes as it takes, until one fails. -/
theorem libhothForceWrite_appends {fd : ℕ} {buf : List UInt8} (appended : List UInt8 → σ)
    (hwrote : ∀ done rest count progress fits after, done ++ rest = buf →
      environment (appended done) (.write fd rest) (.wrote count progress fits) after →
        after = appended (done ++ rest.take count))
    (hfailed : ∀ done rest errno nonzero after, done ++ rest = buf →
      environment (appended done) (.write fd rest) (.failed errno nonzero) after →
        after = appended done) :
    Ensures environment (libhothForceWrite fd buf) (appended []) fun errno final ↦
      ∃ part, part <+: buf ∧ final = appended part ∧ (errno = 0 → part = buf) := by
  refine whileDecreasing_ensures
    (fun rest now ↦ ∃ done, done ++ rest = buf ∧ now = appended done) ?_ buf _ ⟨[], rfl, rfl⟩
  rintro rest _ ⟨done, hdone, rfl⟩
  rw [forceWriteRound]
  split_ifs with hmore
  · rw [ensures_bind, ensures_request]
    intro reply after hreply
    cases reply with
    | failed errno nonzero =>
      refine (ensures_done _ _ _).mpr ⟨done, ⟨rest, hdone⟩, ?_, fun hzero ↦ absurd hzero nonzero⟩
      exact hfailed done rest errno nonzero after hdone hreply
    | wrote count progress fits =>
      refine (ensures_done _ _ _).mpr ⟨done ++ rest.take count, ?_, ?_⟩
      · rw [List.append_assoc, List.take_append_drop, hdone]
      · exact hwrote done rest count progress fits after hdone hreply
  · obtain rfl : rest = [] := List.length_eq_zero_iff.mp (Nat.eq_zero_of_not_pos hmore)
    rw [List.append_nil] at hdone
    exact (ensures_done _ _ _).mpr ⟨done, hdone ▸ List.prefix_rfl, rfl, fun _ ↦ hdone⟩

end Libhoth.Protocol.ForceWrite
