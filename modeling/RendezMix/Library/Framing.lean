import Mathlib.Data.List.Infix

/-!
# Framing

A stream of units that is cut into frames: a function takes the frame at the beginning of a buffer
off it, or none if the frame is not complete. What follows a complete frame makes no difference to
it, so the frames that are taken do not depend on how the stream arrives.
-/
namespace RendezMix.Library.Framing

variable {α β : Type}

/-- Take a frame off a buffer, which then is shorter. -/
structure Framer (α β : Type) where
  next : List β → Option (α × List β)
  shorter : ∀ {buf frame rest}, next buf = some (frame, rest) → rest.length < buf.length
  stable : ∀ {buf frame rest} more, next buf = some (frame, rest) →
    next (buf ++ more) = some (frame, rest ++ more)

namespace Framer

variable (f : Framer α β)

/-- Take frames off a buffer until none is complete. -/
def drain (buf : List β) : List α × List β :=
  match _taken : f.next buf with
  | none => ([], buf)
  | some (frame, rest) => (frame :: (drain rest).1, (drain rest).2)
termination_by buf.length
decreasing_by all_goals exact f.shorter _taken

theorem drain_of_none {buf : List β} (waits : f.next buf = none) : f.drain buf = ([], buf) := by
  rw [drain]
  split
  · rfl
  · next taken =>
    rw [waits] at taken
    cases taken

theorem drain_of_some {buf rest : List β} {frame : α} (takes : f.next buf = some (frame, rest)) :
    f.drain buf = (frame :: (f.drain rest).1, (f.drain rest).2) := by
  rw [drain]
  split
  · next none =>
    rw [takes] at none
    cases none
  · next taken =>
    rw [takes] at taken
    cases taken
    rfl

theorem next_nil : f.next [] = none := by
  cases taken : f.next [] with
  | none => rfl
  | some result => exact absurd (f.shorter taken) (Nat.not_lt_zero _)

/-! ## Arrivals -/

/-- More that comes later may as well have been there before. -/
theorem drain_append (buf more : List β) :
    f.drain (buf ++ more) =
      ((f.drain buf).1 ++ (f.drain ((f.drain buf).2 ++ more)).1,
        (f.drain ((f.drain buf).2 ++ more)).2) := by
  induction length : buf.length using Nat.strong_induction_on generalizing buf with
  | _ n ih =>
    cases taken : f.next buf with
    | none => rw [f.drain_of_none taken, List.nil_append]
    | some result =>
      obtain ⟨frame, rest⟩ := result
      have later := ih rest.length (length ▸ f.shorter taken) rest rfl
      rw [f.drain_of_some taken, f.drain_of_some (f.stable more taken), later]
      rfl

/-- No frame is left in the buffer. -/
theorem drain_drained (buf : List β) : f.drain (f.drain buf).2 = ([], (f.drain buf).2) := by
  induction length : buf.length using Nat.strong_induction_on generalizing buf with
  | _ n ih =>
    cases taken : f.next buf with
    | none =>
      rw [f.drain_of_none taken]
      exact f.drain_of_none taken
    | some result =>
      obtain ⟨frame, rest⟩ := result
      rw [f.drain_of_some taken]
      exact ih rest.length (length ▸ f.shorter taken) rest rfl

/-- What arrives is put behind what is in the buffer, and the frames that are complete are taken. -/
def arrive (state : List α × List β) (arrival : List β) : List α × List β :=
  (state.1 ++ (f.drain (state.2 ++ arrival)).1, (f.drain (state.2 ++ arrival)).2)

/-- The frames that have been taken and the buffer, after some arrivals. -/
def receive (arrivals : List (List β)) : List α × List β := arrivals.foldl f.arrive ([], [])

theorem foldl_arrive (arrivals : List (List β)) (frames : List α) (buf : List β)
    (drained : f.drain buf = ([], buf)) :
    arrivals.foldl f.arrive (frames, buf) =
      (frames ++ (f.drain (buf ++ arrivals.flatten)).1,
        (f.drain (buf ++ arrivals.flatten)).2) := by
  induction arrivals generalizing frames buf with
  | nil => rw [List.foldl_nil, List.flatten_nil, List.append_nil, drained, List.append_nil]
  | cons arrival arrivals ih =>
    rw [List.foldl_cons, arrive, ih _ _ (f.drain_drained _), List.flatten_cons,
      ← List.append_assoc buf, f.drain_append (buf ++ arrival), List.append_assoc]

/-- The stream may be cut anywhere. -/
theorem receive_eq_drain (arrivals : List (List β)) : f.receive arrivals = f.drain arrivals.flatten := by
  unfold receive
  rw [f.foldl_arrive arrivals [] [] (f.drain_of_none f.next_nil)]
  rfl

/-! ## Frames that are read as they were written -/

/-- A frame is taken when it has been written, and not while there is only a part of it. -/
structure Reads (frame : α) (written : List β) : Prop where
  takes : f.next written = some (frame, [])
  waits : ∀ part, part <+: written → part ≠ written → f.next part = none

/-- All frames before the one with the number `n` have been taken, and of that one there is a part
in the buffer. -/
structure Holds (encode : α → List β) (frames : List α) (state : List α × List β) (n : Nat) :
    Prop where
  taken : state.1 = frames.take n
  part : (n = frames.length ∧ state.2 = []) ∨
    ∃ frame, frames[n]? = some frame ∧ state.2 <+: encode frame ∧ state.2 ≠ encode frame

variable {f} {encode : α → List β}

theorem drain_prefix {frames : List α} (reads : ∀ frame ∈ frames, f.Reads frame (encode frame))
    {buf : List β} (begun : buf <+: frames.flatMap encode) :
    ∃ n, Holds encode frames (f.drain buf) n ∧
      buf = (frames.take n).flatMap encode ++ (f.drain buf).2 := by
  induction frames generalizing buf with
  | nil =>
    rw [List.prefix_nil.mp begun, f.drain_of_none f.next_nil]
    exact ⟨0, ⟨rfl, Or.inl ⟨rfl, rfl⟩⟩, rfl⟩
  | cons frame frames ih =>
    have first := reads frame List.mem_cons_self
    by_cases complete : encode frame <+: buf
    · obtain ⟨rest, rfl⟩ := complete
      rw [List.flatMap_cons, List.prefix_append_right_inj] at begun
      obtain ⟨n, holds, bytes⟩ :=
        ih (fun other member => reads other (List.mem_cons_of_mem frame member)) begun
      have takes : f.next (encode frame ++ rest) = some (frame, rest) :=
        f.stable rest first.takes
      rw [f.drain_of_some takes]
      refine ⟨n + 1, ⟨congrArg (List.cons frame) holds.taken, ?_⟩, ?_⟩
      · rcases holds.part with ⟨all, empty⟩ | inside
        · exact Or.inl ⟨congrArg Nat.succ all, empty⟩
        · exact Or.inr inside
      · rw [List.take_succ_cons, List.flatMap_cons, List.append_assoc]
        exact congrArg (encode frame ++ ·) bytes
    · have part : buf <+: encode frame := by
        rw [List.flatMap_cons] at begun
        exact (List.prefix_or_prefix_of_prefix begun (List.prefix_append _ _)).resolve_right complete
      have other : buf ≠ encode frame := fun same => complete (same ▸ List.prefix_rfl)
      rw [f.drain_of_none (first.waits buf part other)]
      exact ⟨0, ⟨rfl, Or.inr ⟨frame, rfl, part, other⟩⟩, rfl⟩

/-- Of the frames that were written, those are taken that have arrived, and of the next one the
buffer holds the part that has. -/
theorem receive_prefix {frames : List α} (reads : ∀ frame ∈ frames, f.Reads frame (encode frame))
    {arrivals : List (List β)} (begun : arrivals.flatten <+: frames.flatMap encode) :
    ∃ n, Holds encode frames (f.receive arrivals) n ∧
      arrivals.flatten = (frames.take n).flatMap encode ++ (f.receive arrivals).2 := by
  rw [f.receive_eq_drain]
  exact drain_prefix reads begun

/-- When all that was written has arrived, all frames have been taken. -/
theorem receive_all {frames : List α} (reads : ∀ frame ∈ frames, f.Reads frame (encode frame))
    {arrivals : List (List β)} (whole : arrivals.flatten = frames.flatMap encode) :
    f.receive arrivals = (frames, []) := by
  rw [f.receive_eq_drain, whole]
  induction frames generalizing arrivals with
  | nil => exact f.drain_of_none f.next_nil
  | cons frame frames ih =>
    have first := reads frame List.mem_cons_self
    have rest := @ih (fun other member => reads other (List.mem_cons_of_mem frame member))
      [frames.flatMap encode] (List.append_nil _)
    rw [List.flatMap_cons, f.drain_of_some (f.stable _ first.takes), List.nil_append, rest]

end Framer

end RendezMix.Library.Framing
