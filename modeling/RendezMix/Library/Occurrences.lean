import Mathlib.Data.List.Basic

/-!
# Where a string occurs in a text

The first occurrence of a string, and searches that try one start after the other. Such a
search compares the string with the text from a start on until they differ; it stumbles at a
gap if it goes on comparing where the text has one.
-/
namespace RendezMix.Library.Occurrences

variable {α : Type*}

/-- The first place where a string occurs in a text; `none` if it does not occur. -/
def FirstOccurrence (needle text : List α) : Option Nat → Prop
  | some p => needle <+: text.drop p ∧ ∀ q < p, ¬ needle <+: text.drop q
  | none => ∀ q, ¬ needle <+: text.drop q

/-- Some of the string has matched up to a gap, and there is more to compare. -/
def StumblesAt (gap : Nat → Prop) (needle text : List α) : Prop :=
  ∃ k, 0 < k ∧ k < needle.length ∧ needle.take k <+: text ∧ gap k

/-- A search stumbles at a start that is not after the first occurrence. -/
def Stumbles (gap : Nat → Prop) (needle text : List α) : Prop :=
  ∃ p, (∀ q < p, ¬ needle <+: text.drop q) ∧
    StumblesAt (fun k => gap (p + k)) needle (text.drop p)

variable {gap : Nat → Prop} {needle text : List α}

section

variable {n : Nat} {c : α} {gap' : Nat → Prop} {rest : List α}

section

variable (same : ∀ k, 0 < k → (gap k ↔ gap' k))

include same

/-- Only gaps after the start of the text matter. -/
theorem stumblesAt_congr : StumblesAt gap needle text ↔ StumblesAt gap' needle text := by
  constructor
  · intro ⟨k, positive, less, matched, atGap⟩
    exact ⟨k, positive, less, matched, (same k positive).mp atGap⟩
  · intro ⟨k, positive, less, matched, atGap⟩
    exact ⟨k, positive, less, matched, (same k positive).mpr atGap⟩

theorem stumbles_congr : Stumbles gap needle text ↔ Stumbles gap' needle text := by
  constructor
  · intro ⟨p, before, stumbles⟩
    exact ⟨p, before, (stumblesAt_congr fun k positive => same (p + k) (by omega)).mp stumbles⟩
  · intro ⟨p, before, stumbles⟩
    exact ⟨p, before, (stumblesAt_congr fun k positive => same (p + k) (by omega)).mpr stumbles⟩

end

/-- Starts at which the string does not occur may be skipped. -/
theorem FirstOccurrence.skip (missed : ∀ q < n, ¬ needle <+: text.drop q) {r : Option Nat}
    (first : FirstOccurrence needle (text.drop n) r) :
    FirstOccurrence needle text (r.map (n + ·)) := by
  cases r with
  | none =>
    intro q occurs
    by_cases before : q < n
    · exact missed q before occurs
    · apply first (q - n)
      rwa [List.drop_drop, show n + (q - n) = q by omega]
  | some p =>
    obtain ⟨occurs, least⟩ := first
    rw [List.drop_drop] at occurs
    refine ⟨occurs, ?_⟩
    intro q less occurs'
    dsimp only at less
    by_cases before : q < n
    · exact missed q before occurs'
    · apply least (q - n) (by omega)
      rwa [List.drop_drop, show n + (q - n) = q by omega]

/-- A search that skips starts at which it does not stumble. -/
theorem stumbles_skip (missed : ∀ q < n, ¬ needle <+: text.drop q ∧
      ¬ StumblesAt (fun k => gap (q + k)) needle (text.drop q)) :
    Stumbles gap needle text ↔ Stumbles (fun k => gap (n + k)) needle (text.drop n) := by
  constructor
  · intro ⟨p, before, stumbles⟩
    have after : n ≤ p := by
      by_contra less
      exact (missed p (by omega)).2 stumbles
    refine ⟨p - n, ?_, ?_⟩
    · intro q less occurs
      rw [List.drop_drop] at occurs
      exact before (n + q) (by omega) occurs
    · simp only [List.drop_drop, ← Nat.add_assoc, show n + (p - n) = p by omega]
      exact stumbles
  · intro ⟨p, before, stumbles⟩
    simp only [List.drop_drop, ← Nat.add_assoc] at before stumbles
    refine ⟨n + p, ?_, stumbles⟩
    intro q less occurs
    by_cases skipped : q < n
    · exact (missed q skipped).1 occurs
    · apply before (q - n) (by omega)
      rwa [show n + (q - n) = q by omega]

/-- No search goes on after an occurrence. -/
theorem stumbles_at_occurrence (occurs : needle <+: text) :
    Stumbles gap needle text ↔ StumblesAt gap needle text := by
  constructor
  · intro ⟨p, before, stumbles⟩
    have start : p = 0 := by
      by_contra later
      exact before 0 (by omega) occurs
    subst start
    simpa using stumbles
  · intro stumbles
    exact ⟨0, fun q less => absurd less (Nat.not_lt_zero q), by simpa using stumbles⟩

section

variable (differs : text.head? ≠ some c)

include differs

theorem not_prefix_of_head : ¬ (c :: rest) <+: text := by
  cases text with
  | nil => simp
  | cons d text =>
    intro occurs
    apply differs
    rw [(List.cons_prefix_cons.mp occurs).1, List.head?_cons]

/-- Where the first characters differ there is nothing more to compare. -/
theorem head_differs : ¬ (c :: rest) <+: text ∧ ¬ StumblesAt gap (c :: rest) text := by
  refine ⟨not_prefix_of_head differs, ?_⟩
  intro ⟨k, positive, _, matched, _⟩
  obtain ⟨j, rfl⟩ := Nat.exists_eq_succ_of_ne_zero (Nat.pos_iff_ne_zero.mp positive)
  rw [List.take_succ_cons] at matched
  exact not_prefix_of_head differs matched

end

/-- Matching one more character. -/
theorem stumblesAt_cons (more : rest ≠ []) :
    StumblesAt gap (c :: rest) (c :: text) ↔
      gap 1 ∨ StumblesAt (fun k => gap (1 + k)) rest text := by
  have length := List.length_pos_iff.mpr more
  constructor
  · intro ⟨k, positive, less, matched, atGap⟩
    obtain ⟨j, rfl⟩ := Nat.exists_eq_succ_of_ne_zero (Nat.pos_iff_ne_zero.mp positive)
    rw [List.take_succ_cons] at matched
    by_cases zero : j = 0
    · rw [zero] at atGap
      exact Or.inl atGap
    · refine Or.inr ⟨j, by omega, by simpa using less, (List.cons_prefix_cons.mp matched).2, ?_⟩
      dsimp only
      rwa [Nat.add_comm]
  · intro stumbles
    cases stumbles with
    | inl atGap => exact ⟨1, by omega, by simpa using length, by simp, atGap⟩
    | inr stumbles =>
      obtain ⟨k, positive, less, matched, atGap⟩ := stumbles
      refine ⟨k + 1, by omega, by simpa using less, ?_, by rwa [Nat.add_comm]⟩
      rw [List.take_succ_cons, List.cons_prefix_cons]
      exact ⟨rfl, matched⟩

/-- Nothing is compared after one character. -/
theorem not_stumblesAt_singleton (c : α) : ¬ StumblesAt gap [c] text := by
  intro ⟨k, positive, less, _⟩
  simp only [List.length_singleton] at less
  omega

end

end RendezMix.Library.Occurrences
