import Mathlib.Data.List.Basic

/-!
# Filling a buffer

A buffer of a fixed size that is written by index. A write outside of it leaves its bytes as they
are and is not forgotten. A buffer that is filled from the front holds what was written and zeros
behind it.
-/
namespace RendezMix.Library.Destinations

/-- The bytes of a buffer, and whether something was written outside of it. -/
structure Destination where
  bytes : List UInt8
  outside : Bool
  deriving DecidableEq

namespace Destination

def put (dest : Destination) (i : Nat) (byte : UInt8) : Destination :=
  if i < dest.bytes.length then { dest with bytes := dest.bytes.set i byte }
  else { dest with outside := true }

/-- A buffer of `size` bytes with `text` at its front and zeros behind it. -/
def filled (size : Nat) (text : List UInt8) : Destination :=
  ⟨text ++ List.replicate (size - text.length) 0, false⟩

theorem filled_length {size : Nat} {text : List UInt8} (room : text.length ≤ size) :
    (filled size text).bytes.length = size := by
  change (text ++ List.replicate (size - text.length) 0).length = size
  rw [List.length_append, List.length_replicate]
  omega

section

variable (size : Nat) (text : List UInt8) (room : text.length < size)

include room

/-- The next byte of a buffer that is filled from the front. -/
theorem put_filled (byte : UInt8) :
    (filled size text).put text.length byte = filled size (text ++ [byte]) := by
  have inside : text.length < (filled size text).bytes.length := by
    rw [filled_length (Nat.le_of_lt room)]
    exact room
  have zeros : size - text.length = size - (text.length + 1) + 1 := by omega
  rw [put, if_pos inside]
  unfold filled
  rw [List.set_append_right _ _ (Nat.le_refl _), Nat.sub_self, zeros, List.replicate_succ,
    List.set_cons_zero, List.length_append, List.length_singleton, List.append_assoc]
  rfl

/-- The NUL behind a text is there already. -/
theorem put_zero_filled : (filled size text).put text.length 0 = filled size text := by
  have zeros : size - text.length = size - (text ++ [0]).length + 1 := by
    rw [List.length_append, List.length_singleton]
    omega
  rw [put_filled size text room]
  unfold filled
  rw [zeros, List.replicate_succ, List.append_assoc]
  rfl

end

/-- A loop that writes the bytes `f 0`, `f 1`, … in their order. -/
theorem foldl_put_filled (size : Nat) (f : Nat → UInt8) (n : Nat) (room : n ≤ size) :
    (List.range n).foldl (fun dest i => dest.put i (f i)) (filled size []) =
      filled size ((List.range n).map f) := by
  induction n with
  | zero => rfl
  | succ n ih =>
    have length : ((List.range n).map f).length = n := by rw [List.length_map, List.length_range]
    have next := put_filled size ((List.range n).map f) (by omega) (f n)
    rw [length] at next
    rw [List.range_succ, List.foldl_append, ih (by omega), List.map_append]
    exact next

end Destination

end RendezMix.Library.Destinations
