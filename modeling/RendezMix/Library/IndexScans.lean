import Mathlib.Data.Nat.Find

/-!
# Scans over indexes

A scan walks up or down from an index and stops at the first one that passes a test.
What it returns is given by the test alone: the nearest index that passes.
-/
namespace RendezMix.Library.IndexScans

/-- The first of the `count` indexes from `start` on that passes. -/
def scanUp (test : Nat → Bool) : Nat → Nat → Option Nat
  | 0, _ => none
  | count + 1, start => if test start then some start else scanUp test count (start + 1)

/-- The last index at or below `start` that passes. -/
def scanDown (test : Nat → Bool) : Nat → Option Nat
  | 0 => if test 0 then some 0 else none
  | start + 1 => if test (start + 1) then some (start + 1) else scanDown test start

variable {test : Nat → Bool}

section

variable {found count start : Nat}

theorem scanUp_eq : scanUp test count start = (List.range' start count).find? test := by
  induction count generalizing start with
  | zero => rfl
  | succ count ih =>
    rw [scanUp, List.range'_succ, List.find?_cons, ih]
    cases test start <;> rfl

theorem scanUp_none :
    scanUp test count start = none ↔ ∀ i, start ≤ i → i < start + count → test i = false := by
  rw [scanUp_eq, List.find?_eq_none]
  simp

theorem scanUp_some :
    scanUp test count start = some found ↔
      start ≤ found ∧ found < start + count ∧ test found = true
        ∧ ∀ i, start ≤ i → i < found → test i = false := by
  rw [scanUp_eq, List.find?_range'_eq_some, List.mem_range'_1]
  simp only [Bool.not_eq_true']
  constructor
  · intro ⟨passes, ⟨after, within⟩, before⟩
    exact ⟨after, within, passes, before⟩
  · intro ⟨after, within, passes, before⟩
    exact ⟨passes, ⟨after, within⟩, before⟩

theorem scanDown_eq :
    scanDown test start = if test (Nat.findGreatest (test ·) start)
      then some (Nat.findGreatest (test ·) start) else none := by
  induction start with
  | zero => rfl
  | succ start ih =>
    rw [scanDown, Nat.findGreatest_succ, ih]
    by_cases passes : test (start + 1) = true
    · simp [passes]
    · simp [passes]

theorem scanDown_none : scanDown test start = none ↔ ∀ i, i ≤ start → test i = false := by
  rw [scanDown_eq, ite_eq_right_iff]
  constructor
  · intro greatest i below
    by_contra passes
    cases greatest (Nat.findGreatest_spec (P := (test ·)) below (by simpa using passes))
  · intro all passes
    rw [all _ (Nat.findGreatest_le start)] at passes
    cases passes

theorem scanDown_some :
    scanDown test start = some found ↔
      found ≤ start ∧ test found = true ∧ ∀ i, found < i → i ≤ start → test i = false := by
  rw [scanDown_eq, Option.ite_none_right_eq_some, Option.some.injEq]
  constructor
  · rintro ⟨passes, rfl⟩
    exact ⟨Nat.findGreatest_le start, passes, fun i above within =>
      Bool.eq_false_iff.mpr (Nat.findGreatest_is_greatest above within)⟩
  · intro ⟨below, passes, after⟩
    have greatest : Nat.findGreatest (test ·) start = found :=
      Nat.findGreatest_eq_iff.mpr ⟨below, fun _ => passes, fun i above within => by
        simp [after i above within]⟩
    rw [greatest]
    exact ⟨passes, rfl⟩

end

end RendezMix.Library.IndexScans
