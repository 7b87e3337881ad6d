import Mathlib.Data.List.Pairwise
import RendezMix.Library.Sorting

/-!
# Choosing on a ring

Points with keys lie on a ring in the order of their keys. Seen from a position, the points
with this key or a greater one come first and then the smaller ones; this order is a list of
all points sorted by key that is turned to the place of the position. Of the points met in
some order, the first ones that are not chosen yet are taken; whoever takes more of them, and
has chosen more before, has chosen all that the others have.
-/
namespace RendezMix.Library.RingChoice
open Sorting
open Std (TransCmp)

variable {α κ : Type*}

/-! ## Taking what is not chosen yet -/

section Choice

variable [DecidableEq α]

/-- Add the first `n` members of a list that are not chosen yet. -/
def chooseFirst (n : Nat) (chosen met : List α) : List α :=
  chosen ++ (met.filter fun a => a ∉ chosen).take n

section

variable {chosen' met chosen : List α} {a : α} {m : Nat} {mets : List (List α)} {n : Nat}

theorem chooseFirst_zero (chosen met : List α) : chooseFirst 0 chosen met = chosen := by
  rw [chooseFirst, List.take_zero, List.append_nil]

theorem chooseFirst_nil (n : Nat) (chosen : List α) : chooseFirst n chosen [] = chosen := by
  rw [chooseFirst, List.filter_nil, List.take_nil, List.append_nil]

theorem chooseFirst_skip (already : a ∈ chosen) :
    chooseFirst n chosen (a :: met) = chooseFirst n chosen met := by
  rw [chooseFirst, chooseFirst, List.filter_cons_of_neg (by simpa using already)]

theorem chooseFirst_take (new : a ∉ chosen) (once : a ∉ met) :
    chooseFirst (n + 1) chosen (a :: met) = chooseFirst n (chosen ++ [a]) met := by
  have same : met.filter (fun b => b ∉ chosen ++ [a]) = met.filter fun b => b ∉ chosen := by
    apply List.filter_congr
    intro b member
    have other : b ≠ a := fun equal => once (equal ▸ member)
    simp [other]
  rw [chooseFirst, chooseFirst, List.filter_cons_of_pos (by simpa using new), List.take_succ_cons,
    same, List.append_assoc, List.singleton_append]

/-- Nothing is chosen twice. -/
theorem chooseFirst_nodup (distinct : chosen.Nodup) (once : met.Nodup) :
    (chooseFirst n chosen met).Nodup := by
  apply List.Nodup.append distinct
  · exact (once.filter _).sublist (List.take_sublist _ _)
  · intro a already taken
    have new := (List.mem_filter.mp (List.mem_of_mem_take taken)).2
    exact absurd already (by simpa using new)

/-- Who takes as many or more, and has chosen all of the others' before, has all of theirs. -/
theorem chooseFirst_subset (le : n ≤ m) (sub : chosen ⊆ chosen') (met : List α) :
    chooseFirst n chosen met ⊆ chooseFirst m chosen' met := by
  have taken : (met.filter fun a => a ∉ chosen).take n
      ⊆ chosen' ++ (met.filter fun a => a ∉ chosen').take m := by
    induction met generalizing n m with
    | nil => simp
    | cons a met ih =>
      by_cases first : a ∈ chosen
      · rw [List.filter_cons_of_neg (by simpa using first),
          List.filter_cons_of_neg (by simpa using sub first)]
        exact ih le
      · rw [List.filter_cons_of_pos (by simpa using first)]
        cases n with
        | zero => simp
        | succ n =>
          rw [List.take_succ_cons]
          by_cases second : a ∈ chosen'
          · rw [List.filter_cons_of_neg (by simpa using second)]
            apply List.cons_subset.mpr
            exact ⟨List.mem_append_left _ second, ih (by omega)⟩
          · obtain ⟨m, rfl⟩ : ∃ m', m = m' + 1 := ⟨m - 1, by omega⟩
            rw [List.filter_cons_of_pos (by simpa using second), List.take_succ_cons]
            apply List.cons_subset.mpr
            refine ⟨List.mem_append_right _ List.mem_cons_self, ?_⟩
            intro b member
            rcases List.mem_append.mp (ih (Nat.le_of_succ_le_succ le) member) with old | new
            · exact List.mem_append_left _ old
            · exact List.mem_append_right _ (List.mem_cons_of_mem _ new)
  apply List.append_subset.mpr
  exact ⟨fun a member => List.mem_append_left _ (sub member), taken⟩

/-- Choosing at one position after the other. -/
def chooseEach (n : Nat) (mets : List (List α)) (chosen : List α) : List α :=
  mets.foldl (chooseFirst n) chosen

theorem chooseEach_none (none : ∀ met ∈ mets, met = []) (chosen : List α) :
    chooseEach n mets chosen = chosen := by
  induction mets with
  | nil => rfl
  | cons met mets ih =>
    rw [chooseEach, List.foldl_cons, none met List.mem_cons_self, chooseFirst_nil]
    exact ih fun other member => none other (List.mem_cons_of_mem _ member)

theorem chooseEach_nodup (once : ∀ met ∈ mets, met.Nodup) (distinct : chosen.Nodup) :
    (chooseEach n mets chosen).Nodup := by
  induction mets generalizing chosen with
  | nil => exact distinct
  | cons met mets ih =>
    apply ih fun other member => once other (List.mem_cons_of_mem _ member)
    exact chooseFirst_nodup distinct (once met List.mem_cons_self)

theorem chooseEach_subset (le : n ≤ m) (mets : List (List α)) (sub : chosen ⊆ chosen') :
    chooseEach n mets chosen ⊆ chooseEach m mets chosen' := by
  induction mets generalizing chosen chosen' with
  | nil => exact sub
  | cons met mets ih => exact ih (chooseFirst_subset le sub met)

end

end Choice

/-! ## The order from a position on -/

section Order

variable {cmp : κ → κ → Ordering} {position : κ}

/-- Seen from a position: the keys before it come last. -/
def clockwise (cmp : κ → κ → Ordering) (position : κ) : κ → κ → Ordering :=
  compareLex (compareOn fun k => cmp k position == .lt) cmp

instance [TransCmp cmp] (position : κ) : TransCmp (clockwise cmp position) :=
  inferInstanceAs (TransCmp (compareLex _ _))

theorem clockwise_same {a b : κ} (same : (cmp a position == .lt) = (cmp b position == .lt)) :
    clockwise cmp position a b = cmp a b := by
  have equal : compareOn (fun k => cmp k position == .lt) a b = .eq := by
    rw [compareOn, same]
    exact Std.ReflCmp.compare_self
  rw [clockwise, compareLex, equal]
  rfl

theorem clockwise_across {a b : κ} (here : cmp a position ≠ .lt) (before : cmp b position = .lt) :
    clockwise cmp position a b = .lt := by
  have first : (cmp a position == .lt) = false := beq_false_of_ne here
  have second : (cmp b position == .lt) = true := by rw [before]; rfl
  rw [clockwise, compareLex, compareOn, first, second]
  rfl

variable [TransCmp cmp]

/-- The order from a position on, of what has keys. -/
def clockwiseBy (cmp : κ → κ → Ordering) (key : α → κ) (position : κ) (a b : α) : Ordering :=
  clockwise cmp position (key a) (key b)

instance (key : α → κ) (position : κ) : TransCmp (clockwiseBy cmp key position) := by
  have onKeys : TransCmp (clockwise cmp position) := inferInstance
  exact { eq_swap := onKeys.eq_swap, isLE_trans := onKeys.isLE_trans }

/-- A list sorted by key, turned to the place of a position, is the list in the order seen from
there. -/
theorem sort_clockwise_eq {key : α → κ} {l sorted : List α} {i : Nat} (perm : l.Perm sorted)
    (ordered : sorted.Pairwise fun a b => cmp (key a) (key b) = .lt)
    (before : ∀ a ∈ sorted.take i, cmp (key a) position = .lt)
    (after : ∀ a ∈ sorted.drop i, cmp (key a) position ≠ .lt)
    (s : Sorter (clockwiseBy cmp key position)) : s.sort l = sorted.drop i ++ sorted.take i := by
  have turned : (sorted.drop i ++ sorted.take i).Perm sorted := by
    have swapped : (sorted.drop i ++ sorted.take i).Perm (sorted.take i ++ sorted.drop i) :=
      List.perm_append_comm
    rwa [List.take_append_drop] at swapped
  have strict : (sorted.drop i ++ sorted.take i).Pairwise fun a b =>
      clockwiseBy cmp key position a b = .lt := by
    rw [List.pairwise_append]
    refine ⟨?_, ?_, fun a here b earlier => clockwise_across (after a here) (before b earlier)⟩
    · apply (ordered.sublist (List.drop_sublist i sorted)).imp_of_mem
      intro a b first second lt
      rwa [clockwiseBy, clockwise_same (by rw [beq_false_of_ne (after a first), beq_false_of_ne (after b second)])]
    · apply (ordered.sublist (List.take_sublist i sorted)).imp_of_mem
      intro a b first second lt
      rwa [clockwiseBy, clockwise_same (by rw [before a first, before b second])]
  have le : (sorted.drop i ++ sorted.take i).Pairwise fun a b =>
      (clockwiseBy cmp key position a b).isLE = true := by
    apply strict.imp
    intro a b lt
    rw [lt]
    rfl
  apply List.Perm.eq_of_pairwise _ (s.ordered l) le (((s.perm l).trans perm).trans turned.symm)
  intro a b first second lower upper
  have inside : a ∈ sorted.drop i ++ sorted.take i :=
    turned.mem_iff.mpr (perm.mem_iff.mp ((s.perm l).mem_iff.mp first))
  have equal : clockwiseBy cmp key position a b = .eq :=
    Std.OrientedCmp.isLE_antisymm lower upper
  have apart : (sorted.drop i ++ sorted.take i).Pairwise fun a b =>
      clockwiseBy cmp key position a b ≠ .eq := by
    apply strict.imp
    intro a b lt
    rw [lt]
    exact Ordering.noConfusion
  have symmetric : Std.Symm fun a b => clockwiseBy cmp key position a b ≠ .eq :=
    ⟨fun a b different same => different (Std.OrientedCmp.eq_symm same)⟩
  by_contra different
  exact apart.forall inside second different equal

end Order

end RendezMix.Library.RingChoice
