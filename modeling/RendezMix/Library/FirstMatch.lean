import Mathlib.Data.List.Basic

/-!
# Lists of rules, of which the first that matches decides

`firstMatch` reads a list of rules in order. A rule can be taken out of the list
without changing a decision when every key that reaches it is matched before it, or
when the keys that it decides are decided the same way after it.
-/
namespace RendezMix.Library.FirstMatch

variable {ρ κ δ : Type*}

/-- The decision of the first rule that matches the key. -/
def firstMatch (hits : ρ → κ → Bool) (action : ρ → δ) (otherwise : δ) (rules : List ρ) (key : κ) :
    δ :=
  match rules with
  | [] => otherwise
  | rule :: rest => if hits rule key then action rule else firstMatch hits action otherwise rest key

variable {hits : ρ → κ → Bool} {action : ρ → δ} {otherwise : δ} {key : κ}

section

variable {rule : ρ} (rules front rest : List ρ)

theorem firstMatch_append_hit (member : rule ∈ front) (hit : hits rule key = true) :
    firstMatch hits action otherwise (front ++ rest) key
      = firstMatch hits action otherwise front key := by
  induction front with
  | nil => cases member
  | cons head front ih =>
    rw [List.cons_append, firstMatch, firstMatch]
    split
    next => rfl
    next missed =>
      apply ih
      cases member with
      | head => exact absurd hit missed
      | tail _ member => exact member

theorem firstMatch_append_congr {rest rest' : List ρ}
    (same : firstMatch hits action otherwise rest key
      = firstMatch hits action otherwise rest' key) :
    firstMatch hits action otherwise (front ++ rest) key
      = firstMatch hits action otherwise (front ++ rest') key := by
  induction front with
  | nil => exact same
  | cons head front ih => rw [List.cons_append, List.cons_append, firstMatch, firstMatch, ih]

/-- A rule whose keys are all matched by an earlier rule is never read. -/
theorem firstMatch_drop_shadowed
    (shadowed : hits rule key = true → ∃ earlier ∈ front, hits earlier key = true) :
    firstMatch hits action otherwise (front ++ rest) key
      = firstMatch hits action otherwise (front ++ rule :: rest) key := by
  by_cases hit : hits rule key = true
  · obtain ⟨earlier, member, earlierHit⟩ := shadowed hit
    rw [firstMatch_append_hit front rest member earlierHit,
      firstMatch_append_hit front (rule :: rest) member earlierHit]
  · apply firstMatch_append_congr
    rw [firstMatch, if_neg hit]

/-- Rules that all decide one way, of which one matches, decide this way. -/
theorem firstMatch_of_agree {decision : δ}
    (agree : ∀ rule ∈ front, hits rule key = true → action rule = decision)
    (matched : ∃ rule ∈ front, hits rule key = true) :
    firstMatch hits action otherwise (front ++ rest) key = decision := by
  induction front with
  | nil =>
    obtain ⟨rule, member, _⟩ := matched
    cases member
  | cons head front ih =>
    rw [List.cons_append, firstMatch]
    split
    next hit => exact agree head List.mem_cons_self hit
    next missed =>
      apply ih
      · exact fun rule member => agree rule (List.mem_cons_of_mem _ member)
      · obtain ⟨rule, member, hit⟩ := matched
        cases member with
        | head => exact absurd hit missed
        | tail _ member => exact ⟨rule, member, hit⟩

/-- A rule that a later one subsumes can be left out when no rule of the other kind is
hit by its keys in between. -/
theorem firstMatch_drop_subsumed (middle rest : List ρ) {rule wider : ρ}
    (subsumed : hits rule key = true → hits wider key = true) (agree : action wider = action rule)
    (between : ∀ other ∈ middle, hits rule key = true → hits other key = true →
      action other = action rule) :
    firstMatch hits action otherwise (front ++ (middle ++ wider :: rest)) key
      = firstMatch hits action otherwise (front ++ rule :: (middle ++ wider :: rest)) key := by
  apply firstMatch_append_congr
  rw [firstMatch]
  split
  next hit =>
    have split : middle ++ wider :: rest = (middle ++ [wider]) ++ rest := by simp
    rw [split]
    apply firstMatch_of_agree
    · intro other member otherHit
      rw [List.mem_append, List.mem_singleton] at member
      cases member with
      | inl member => exact between other member hit otherHit
      | inr same => rw [same, agree]
    · exact ⟨wider, by simp, subsumed hit⟩
  next => rfl

/-- The decision is `decision` exactly if each matching rule that decides otherwise stands
behind a matching one that does not, and a rule matches if the default is another. -/
theorem firstMatch_eq_iff (decision : δ) :
    firstMatch hits action otherwise rules key = decision
      ↔ (otherwise = decision ∨ ∃ rule ∈ rules, hits rule key = true)
        ∧ ∀ front rule rest, rules = front ++ rule :: rest → hits rule key = true →
          action rule ≠ decision → ∃ earlier ∈ front, hits earlier key = true
            ∧ action earlier = decision := by
  induction rules with
  | nil =>
    rw [firstMatch]
    constructor
    · intro same
      refine ⟨Or.inl same, ?_⟩
      intro front rule rest split
      simp at split
    · rintro ⟨same | ⟨rule, member, -⟩, -⟩
      · exact same
      · cases member
  | cons head rules ih =>
    rw [firstMatch]
    split
    next hit =>
      constructor
      · intro same
        refine ⟨Or.inr ⟨head, List.mem_cons_self, hit⟩, ?_⟩
        intro front rule rest split _ differs
        cases front with
        | nil =>
          cases split
          exact absurd same differs
        | cons first front =>
          cases split
          exact ⟨head, List.mem_cons_self, hit, same⟩
      · rintro ⟨-, behind⟩
        by_contra differs
        obtain ⟨earlier, member, -⟩ := behind [] head rules rfl hit differs
        cases member
    next missed =>
      rw [ih]
      apply and_congr
      · apply or_congr_right
        rw [List.exists_mem_cons_iff]
        exact (or_iff_right missed).symm
      · constructor
        · intro behind front rule rest split ruleHit differs
          cases front with
          | nil =>
            cases split
            exact absurd ruleHit missed
          | cons first front =>
            cases split
            obtain ⟨earlier, member, found⟩ := behind front rule rest rfl ruleHit differs
            exact ⟨earlier, List.mem_cons_of_mem _ member, found⟩
        · intro behind front rule rest split ruleHit differs
          obtain ⟨earlier, member, earlierHit, same⟩ :=
            behind (head :: front) rule rest (by rw [split]; rfl) ruleHit differs
          cases member with
          | head => exact absurd earlierHit missed
          | tail _ member => exact ⟨earlier, member, earlierHit, same⟩

theorem firstMatch_of_all_agree
    (agree : ∀ rule ∈ rules, hits rule key = true → action rule = otherwise) :
    firstMatch hits action otherwise rules key = otherwise := by
  rw [firstMatch_eq_iff]
  refine ⟨Or.inl rfl, ?_⟩
  intro front rule rest split hit differs
  exact absurd (agree rule (by rw [split]; simp) hit) differs

end

end RendezMix.Library.FirstMatch
