import Libhoth.Foundation.ByteString

/-!
# Consecutive chunks

A list that is sent in pieces is a list of chunks, each with the offset it is for. `Consecutive`
says that every chunk starts where the one before it ended, and `joined` puts the payloads back
together. `Consecutive.snoc_slice` is the step of a sending loop, `Consecutive.eq_slice` reads each
chunk as the slice of the whole at its offset, and `Consecutive.exists_complete` says that a loop
that was stopped could have gone on.
-/

set_option autoImplicit false
set_option relaxedAutoImplicit false

namespace Libhoth.Foundation.ConsecutiveChunks

open ByteString

variable {α : Type*}

/-- The first chunk is at an offset and every other one where the chunk before it ended. -/
def Consecutive (start : ℕ) : List (ℕ × List α) → Prop
  | [] => True
  | chunk :: rest => chunk.1 = start ∧ Consecutive (start + chunk.2.length) rest

/-- The payloads one after the other. -/
def joined (chunks : List (ℕ × List α)) : List α :=
  (chunks.map Prod.snd).flatten

@[simp] theorem joined_nil : joined ([] : List (ℕ × List α)) = [] :=
  rfl

@[simp] theorem joined_cons (chunk : ℕ × List α) (rest : List (ℕ × List α)) :
    joined (chunk :: rest) = chunk.2 ++ joined rest :=
  rfl

@[simp] theorem joined_snoc (chunks : List (ℕ × List α)) (chunk : ℕ × List α) :
    joined (chunks ++ [chunk]) = joined chunks ++ chunk.2 := by
  simp [joined]

/-- One more chunk goes where the joined ones end. -/
theorem consecutive_snoc_iff (start : ℕ) (chunks : List (ℕ × List α)) (chunk : ℕ × List α) :
    Consecutive start (chunks ++ [chunk]) ↔
      Consecutive start chunks ∧ chunk.1 = start + (joined chunks).length := by
  induction chunks generalizing start with
  | nil => simp [Consecutive]
  | cons first rest ih =>
    rw [List.cons_append, Consecutive, Consecutive, ih, joined_cons, List.length_append, and_assoc,
      Nat.add_assoc]

/-- Chunks that join to a beginning of a list, extended by the slice that comes next. -/
theorem Consecutive.snoc_slice {chunks : List (ℕ × List α)} {whole : List α} {offset count : ℕ}
    (hchunks : Consecutive 0 chunks) (hjoined : joined chunks = whole.take offset)
    (hinside : offset + count ≤ whole.length) :
    Consecutive 0 (chunks ++ [(offset, slice whole offset count)]) ∧
      joined (chunks ++ [(offset, slice whole offset count)]) = whole.take (offset + count) := by
  have hlength : (joined chunks).length = offset := by
    rw [hjoined, List.length_take]
    omega
  refine ⟨(consecutive_snoc_iff _ _ _).mpr ⟨hchunks, by rw [hlength, Nat.zero_add]⟩, ?_⟩
  rw [joined_snoc, hjoined, List.take_add]
  rfl

/-- Every chunk is the slice of the joined payloads at its offset. -/
theorem Consecutive.eq_slice {start : ℕ} {chunks : List (ℕ × List α)}
    (hchunks : Consecutive start chunks) {chunk : ℕ × List α} (hchunk : chunk ∈ chunks) :
    start ≤ chunk.1 ∧ chunk.2 = slice (joined chunks) (chunk.1 - start) chunk.2.length := by
  induction chunks generalizing start with
  | nil => exact absurd hchunk List.not_mem_nil
  | cons first rest ih =>
    obtain ⟨hfirst, hrest⟩ := hchunks
    rw [joined_cons]
    rcases List.mem_cons.mp hchunk with hhead | htail
    · rw [hhead, hfirst, Nat.sub_self, slice, List.drop_zero, List.take_left]
      exact ⟨le_rfl, rfl⟩
    · obtain ⟨hlater, hslice⟩ := ih hrest htail
      refine ⟨(Nat.le_add_right _ _).trans hlater, ?_⟩
      rw [show chunk.1 - start = first.2.length + (chunk.1 - (start + first.2.length)) by omega,
        slice_append_right]
      exact hslice

/-- Chunks that join to a beginning of a list can be completed by chunks of a limited size. -/
theorem Consecutive.exists_complete {limit : ℕ} (hlimit : 0 < limit) {whole : List α} {offset : ℕ}
    (hoffset : offset ≤ whole.length) {chunks : List (ℕ × List α)} (hchunks : Consecutive 0 chunks)
    (hjoined : joined chunks = whole.take offset) :
    ∃ rest, Consecutive 0 (chunks ++ rest) ∧ joined (chunks ++ rest) = whole ∧
      ∀ chunk ∈ rest, 1 ≤ chunk.2.length ∧ chunk.2.length ≤ limit := by
  induction hleft : whole.length - offset using Nat.strongRecOn generalizing offset chunks with
  | ind left ih =>
    by_cases hdone : offset = whole.length
    · refine ⟨[], ?_, ?_, fun chunk hmem ↦ absurd hmem List.not_mem_nil⟩
      · rwa [List.append_nil]
      · rw [List.append_nil, hjoined, hdone, List.take_length]
    · have hcount : offset + min limit (whole.length - offset) ≤ whole.length := by omega
      have hlength : (slice whole offset (min limit (whole.length - offset))).length =
          min limit (whole.length - offset) := length_slice_of_le hcount
      obtain ⟨hnext, hnextJoined⟩ := hchunks.snoc_slice hjoined hcount
      obtain ⟨rest, hrest, hwhole, hsizes⟩ := ih _ (by omega) hcount hnext hnextJoined rfl
      rw [List.append_assoc, List.singleton_append] at hrest hwhole
      refine ⟨_, hrest, hwhole, fun chunk hmem ↦ ?_⟩
      rcases List.mem_cons.mp hmem with rfl | hlater
      · rw [hlength]
        omega
      · exact hsizes chunk hlater

end Libhoth.Foundation.ConsecutiveChunks
