import Mathlib.Data.List.Basic

/-!
# Runs of numbers

A set of natural numbers as the list of its maximal runs, lowest first, and a scan
that finds them from below.
-/
namespace RendezMix.Library.NumberRuns

variable {p : Nat → Prop}

/-- The numbers from `low` to `high` are in the set, and neither neighbour is. -/
structure MaximalRun (p : Nat → Prop) (low high : Nat) : Prop where
  ordered : low ≤ high
  inside : ∀ n, low ≤ n → n ≤ high → p n
  below : ∀ n, n + 1 = low → ¬ p n
  above : ¬ p (high + 1)

/-- The maximal runs of a set, in ascending order. -/
structure MaximalRuns (p : Nat → Prop) (runs : List (Nat × Nat)) : Prop where
  maximal : ∀ run ∈ runs, MaximalRun p run.1 run.2
  ascending : runs.Pairwise fun run later => run.2 < later.1
  covers : ∀ n, p n → ∃ run ∈ runs, run.1 ≤ n ∧ n ≤ run.2

/-- What a scan from `k` upwards finds: it skips to the next member of the set, then to
the next number that is not one. -/
inductive Scan (p : Nat → Prop) : Nat → List (Nat × Nat) → Prop where
  | nil (k : Nat) (rest : ∀ n, k ≤ n → ¬ p n) : Scan p k []
  | cons (k low high : Nat) (runs : List (Nat × Nat)) (start : k ≤ low) (ordered : low ≤ high)
      (skipped : ∀ n, k ≤ n → n < low → ¬ p n) (inside : ∀ n, low ≤ n → n ≤ high → p n)
      (stop : ¬ p (high + 1)) (later : Scan p (high + 1) runs) : Scan p k ((low, high) :: runs)

variable {k : Nat} {runs : List (Nat × Nat)}

section

variable (scan : Scan p k runs)

include scan

theorem Scan.start_le : ∀ run ∈ runs, k ≤ run.1 := by
  induction scan with
  | nil => simp
  | cons k low high runs start ordered skipped inside stop later ih =>
    intro run member
    cases member with
    | head => exact start
    | tail _ member =>
      have after := ih run member
      omega

theorem Scan.maximal (edge : k = 0 ∨ ¬ p k) : ∀ run ∈ runs, MaximalRun p run.1 run.2 := by
  induction scan with
  | nil => simp
  | cons k low high runs start ordered skipped inside stop later ih =>
    intro run member
    cases member with
    | head =>
      apply MaximalRun.mk ordered inside _ stop
      intro n next
      have far : k ≤ n := by
        rcases edge with zero | out
        · omega
        · have : k ≠ low := fun same => out (same ▸ inside low (Nat.le_refl low) ordered)
          omega
      exact skipped n far (by omega)
    | tail _ member => exact ih (Or.inr stop) run member

theorem Scan.ascending : runs.Pairwise fun run later => run.2 < later.1 := by
  induction scan with
  | nil => exact List.Pairwise.nil
  | cons k low high runs start ordered skipped inside stop later ih =>
    apply List.Pairwise.cons _ ih
    intro run member
    have after := later.start_le run member
    omega

theorem Scan.covers : ∀ n, k ≤ n → p n → ∃ run ∈ runs, run.1 ≤ n ∧ n ≤ run.2 := by
  induction scan with
  | nil k rest => exact fun n far holds => absurd holds (rest n far)
  | cons k low high runs start ordered skipped inside stop later ih =>
    intro n far holds
    by_cases before : n < low
    · exact absurd holds (skipped n far before)
    by_cases within : n ≤ high
    · exact ⟨(low, high), List.mem_cons_self, by omega, within⟩
    · obtain ⟨run, member, range⟩ := ih n (by omega) holds
      exact ⟨run, List.mem_cons_of_mem _ member, range⟩

end

/-- A scan from zero finds the maximal runs. -/
theorem Scan.maximalRuns (scan : Scan p 0 runs) : MaximalRuns p runs where
  maximal := scan.maximal (Or.inl rfl)
  ascending := scan.ascending
  covers n := scan.covers n (Nat.zero_le n)

theorem MaximalRuns.iff (found : MaximalRuns p runs) (n : Nat) :
    p n ↔ ∃ run ∈ runs, run.1 ≤ n ∧ n ≤ run.2 := by
  constructor
  · exact found.covers n
  · rintro ⟨run, member, low, high⟩
    exact (found.maximal run member).inside n low high

end RendezMix.Library.NumberRuns
