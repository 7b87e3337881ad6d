import Mathlib.Order.WellFounded

/-!
# While loops

A loop each round of which takes the next input of a stream and may fail. It ends
if each round makes the state shorter in a well-founded order, and what its rounds
keep holds where it ends.
-/
namespace RendezMix.Library.WhileLoops

variable {σ ι : Type*} {goOn : σ → Bool} {body : ι → σ → Option σ}

/-- `while (goOn s) body`, at most `fuel` rounds of it. -/
def whileLoop (goOn : σ → Bool) (body : ι → σ → Option σ) : Nat → (Nat → ι) → σ → Option σ
  | 0, _, _ => none
  | fuel + 1, inputs, s =>
      if goOn s then
        match body (inputs 0) s with
        | none => none
        | some s' => whileLoop goOn body fuel (fun n => inputs (n + 1)) s'
      else some s

section

variable {shorter : σ → σ → Prop} {inv : σ → Prop}

theorem whileLoop_ends (wf : WellFounded shorter)
    (round : ∀ i s, inv s → goOn s = true → ∃ s', body i s = some s' ∧ inv s' ∧ shorter s' s)
    (inputs : Nat → ι) (s : σ) (start : inv s) :
    ∃ fuel s', whileLoop goOn body fuel inputs s = some s' := by
  induction s using wf.induction generalizing inputs with
  | _ s ih =>
    by_cases more : goOn s = true
    · obtain ⟨s', ran, kept, less⟩ := round (inputs 0) s start more
      obtain ⟨fuel, t, ended⟩ := ih s' less (fun n => inputs (n + 1)) kept
      refine ⟨fuel + 1, t, ?_⟩
      rw [whileLoop, if_pos more, ran]
      exact ended
    · refine ⟨1, s, ?_⟩
      rw [whileLoop, if_neg more]

theorem whileLoop_keeps (round : ∀ i s s', inv s → goOn s = true → body i s = some s' → inv s')
    {fuel : Nat} {inputs : Nat → ι} {s t : σ} (start : inv s)
    (ended : whileLoop goOn body fuel inputs s = some t) : inv t ∧ goOn t = false := by
  induction fuel generalizing inputs s with
  | zero => cases ended
  | succ fuel ih =>
    rw [whileLoop] at ended
    split at ended
    · next more =>
      split at ended
      · cases ended
      · next s' ran => exact ih (round _ s s' start more ran) ended
    · next done =>
      cases ended
      exact ⟨start, Bool.eq_false_iff.mpr done⟩

/-- A loop whose rounds keep an invariant and make the state shorter ends, and the
invariant holds wherever it ends. -/
theorem whileLoop_total (wf : WellFounded shorter)
    (round : ∀ i s, inv s → goOn s = true → ∃ s', body i s = some s' ∧ inv s' ∧ shorter s' s)
    (inputs : Nat → ι) (s : σ) (start : inv s) :
    (∃ fuel t, whileLoop goOn body fuel inputs s = some t)
      ∧ ∀ fuel t, whileLoop goOn body fuel inputs s = some t → inv t ∧ goOn t = false := by
  constructor
  · exact whileLoop_ends wf round inputs s start
  · intro fuel t ended
    apply whileLoop_keeps _ start ended
    intro i s s' kept more ran
    obtain ⟨s'', ran', kept', -⟩ := round i s kept more
    rw [ran] at ran'
    cases ran'
    exact kept'

end

end RendezMix.Library.WhileLoops

/-!
# Drawing until a value is accepted

The loop runs over a stream of draws, with a bound on its rounds; it has no result while the bound
is too small.
-/
namespace RendezMix.Library.Retry

variable {α : Type}

/-- The first draw from the `i`th on that is accepted, if one of the next `fuel` is. -/
def retry (accepted : α → Prop) [DecidablePred accepted] (draws : Nat → α) :
    Nat → Nat → Option α
  | 0, _ => none
  | fuel + 1, i => if accepted (draws i) then some (draws i) else retry accepted draws fuel (i + 1)

variable (accepted : α → Prop) [DecidablePred accepted] (draws : Nat → α)

/-- What the loop returns has been drawn and accepted. -/
theorem retry_eq_some {fuel i : Nat} {x : α} (returned : retry accepted draws fuel i = some x) :
    accepted x ∧ ∃ k, draws k = x := by
  induction fuel generalizing i with
  | zero => cases returned
  | succ fuel ih =>
    rw [retry] at returned
    split at returned
    · next accept =>
      cases returned
      exact ⟨accept, i, rfl⟩
    · exact ih returned

/-- The loop ends as soon as a draw is accepted. -/
theorem retry_ends {k i : Nat} (later : i ≤ k) (accept : accepted (draws k)) :
    ∃ x, retry accepted draws (k - i + 1) i = some x := by
  induction rounds : k - i generalizing i with
  | zero =>
    have here : i = k := by omega
    subst here
    exact ⟨draws i, if_pos accept⟩
  | succ n ih =>
    rw [retry]
    split
    · exact ⟨draws i, rfl⟩
    · exact ih (by omega) (by omega)

/-- The loop can end, with one stream of draws or another, exactly if some value is accepted. -/
theorem exists_retry_iff :
    (∃ draws fuel x, retry accepted draws fuel 0 = some x) ↔ ∃ x, accepted x := by
  constructor
  · rintro ⟨draws, fuel, x, returned⟩
    exact ⟨x, (retry_eq_some accepted draws returned).1⟩
  · rintro ⟨x, accept⟩
    obtain ⟨y, returned⟩ := retry_ends accepted (fun _ => x) (Nat.zero_le 0) accept
    exact ⟨fun _ => x, _, y, returned⟩

end RendezMix.Library.Retry
