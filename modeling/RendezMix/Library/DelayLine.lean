import Mathlib.Data.List.Basic

/-!
# Two-stage delay lines

Items enter a line and leave it at the other end. In between some are held back
and some are out, ready to leave. An item may skip the holding stage, but only
when nobody is held: then, whatever the order of the steps, the line is first
in, first out.
-/
namespace RendezMix.Library.DelayLine

variable {α : Type*}

/-- A line with the record of what entered and left it. -/
structure Line (α : Type*) where
  entered : List α
  left : List α
  out : List α
  held : List α

inductive Step : Line α → Line α → Prop
  | enterHeld (line : Line α) (x : α) :
      Step line { line with entered := line.entered ++ [x], held := line.held ++ [x] }
  | enterOut (line : Line α) (x : α) (empty : line.held = []) :
      Step line { line with entered := line.entered ++ [x], out := line.out ++ [x] }
  | release (line : Line α) (moved rest : List α) (split : line.held = moved ++ rest) :
      Step line { line with out := line.out ++ moved, held := rest }
  | leave (line : Line α) (x : α) (rest : List α) (head : line.out = x :: rest) :
      Step line { line with left := line.left ++ [x], out := rest }
  | dropOut (line : Line α) :
      Step line { line with left := line.left ++ line.out, out := [] }

/-- Nothing is lost, doubled or reordered. -/
def Conserved (line : Line α) : Prop := line.left ++ line.out ++ line.held = line.entered

theorem Step.conserved {line after : Line α} (step : Step line after)
    (before : Conserved line) : Conserved after := by
  unfold Conserved at *
  cases step with
  | enterHeld x | dropOut =>
    rw [← before]
    simp
  | enterOut x empty =>
    rw [← before]
    simp [empty]
  | release moved rest split =>
    rw [← before, split]
    simp
  | leave x rest head =>
    rw [← before, head]
    simp

/-- A step or none keeps the law. -/
theorem conserved_of_step_or_eq {line after : Line α} (step : Step line after ∨ after = line)
    (before : Conserved line) : Conserved after := by
  rcases step with taken | same
  · exact taken.conserved before
  · exact same ▸ before

end RendezMix.Library.DelayLine
