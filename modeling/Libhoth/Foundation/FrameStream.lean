import Mathlib.Tactic.Common

/-!
# Streams of frames

Frames that follow one another without a separator. When a frame is never the beginning of another
one (`Framing`), a stream can be taken apart in one way only: `exists_frames` takes frames off as
long as there is one, and `Frames.unique` says that the frames and the rest behind them are
determined by the stream.
-/

set_option autoImplicit false
set_option relaxedAutoImplicit false

namespace Libhoth.Foundation.FrameStream

variable {α : Type*}

/-- Frames that are not empty and of which none begins another one. -/
structure Framing (Frame : List α → Prop) : Prop where
  nonempty : ∀ {frame}, Frame frame → frame ≠ []
  unique : ∀ {first second rest tail}, Frame first → Frame second →
    first ++ rest = second ++ tail → first = second

/-- There is a frame at the front of a stream. -/
def Begins (Frame : List α → Prop) (stream : List α) : Prop :=
  ∃ frame rest, Frame frame ∧ stream = frame ++ rest

/-- A stream is made of frames and a rest. -/
structure Frames (Frame : List α → Prop) (stream : List α) (frames : List (List α))
    (rest : List α) : Prop where
  all : ∀ frame ∈ frames, Frame frame
  split : stream = frames.flatten ++ rest

variable {Frame : List α → Prop}

theorem Frames.cons {frame stream rest : List α} {frames : List (List α)} (hframe : Frame frame)
    (hframes : Frames Frame stream frames rest) :
    Frames Frame (frame ++ stream) (frame :: frames) rest where
  all := List.forall_mem_cons.mpr ⟨hframe, hframes.all⟩
  split := by rw [hframes.split, List.flatten_cons, List.append_assoc]

/-- A stream can be taken apart until there is no frame at its front. -/
theorem exists_frames (hframing : Framing Frame) (stream : List α) :
    ∃ frames rest, Frames Frame stream frames rest ∧ ¬Begins Frame rest := by
  induction hlength : stream.length using Nat.strongRecOn generalizing stream with
  | ind length ih =>
    by_cases hbegins : Begins Frame stream
    · obtain ⟨frame, rest, hframe, rfl⟩ := hbegins
      have hshorter : rest.length < length := by
        rw [← hlength, List.length_append]
        exact Nat.lt_add_of_pos_left (List.length_pos_iff.mpr (hframing.nonempty hframe))
      obtain ⟨frames, last, hframes, hlast⟩ := ih rest.length hshorter rest rfl
      exact ⟨frame :: frames, last, hframes.cons hframe, hlast⟩
    · exact ⟨[], stream, ⟨fun _ hnone ↦ absurd hnone List.not_mem_nil, rfl⟩, hbegins⟩

/-- There is one way to take a stream apart. -/
theorem Frames.unique (hframing : Framing Frame) {stream rest tail : List α}
    {first second : List (List α)} (hfirst : Frames Frame stream first rest)
    (hsecond : Frames Frame stream second tail) (hrest : ¬Begins Frame rest)
    (htail : ¬Begins Frame tail) : first = second ∧ rest = tail := by
  induction first generalizing stream second with
  | nil =>
    cases second with
    | nil => exact ⟨rfl, hfirst.split.symm.trans hsecond.split⟩
    | cons frame second =>
      have hstream := hfirst.split.symm.trans hsecond.split
      rw [List.flatten_nil, List.nil_append, List.flatten_cons, List.append_assoc] at hstream
      exact absurd ⟨frame, _, hsecond.all frame List.mem_cons_self, hstream⟩ hrest
  | cons frame first ih =>
    cases second with
    | nil =>
      have hstream := hsecond.split.symm.trans hfirst.split
      rw [List.flatten_nil, List.nil_append, List.flatten_cons, List.append_assoc] at hstream
      exact absurd ⟨frame, _, hfirst.all frame List.mem_cons_self, hstream⟩ htail
    | cons other second =>
      have hstream := hfirst.split.symm.trans hsecond.split
      rw [List.flatten_cons, List.flatten_cons, List.append_assoc, List.append_assoc] at hstream
      obtain rfl := hframing.unique (hfirst.all frame List.mem_cons_self)
        (hsecond.all other List.mem_cons_self) hstream
      rw [List.append_cancel_left_eq] at hstream
      obtain ⟨rfl, rfl⟩ := ih ⟨(List.forall_mem_cons.mp hfirst.all).2, rfl⟩
        ⟨(List.forall_mem_cons.mp hsecond.all).2, hstream⟩
      exact ⟨rfl, rfl⟩

end Libhoth.Foundation.FrameStream
