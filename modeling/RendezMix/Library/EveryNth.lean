import Mathlib.Data.List.Induction
import Mathlib.Data.Nat.ModEq
import Mathlib.Tactic.Ring
import Mathlib.Data.List.Basic

/-!
# Every n-th element

The elements of a growing list at the positions, counted from one, that a
number divides. What was chosen stays chosen as the list grows.
-/
namespace RendezMix.Library.EveryNth

variable {α : Type*} {n : Nat}

def everyNth (n : Nat) (xs : List α) : List α :=
  (xs.zipIdx.filter fun p => (p.2 + 1) % n = 0).map Prod.fst

@[simp] theorem everyNth_nil : everyNth n ([] : List α) = [] := rfl

theorem everyNth_snoc (xs : List α) (x : α) :
    everyNth n (xs ++ [x])
      = if (xs.length + 1) % n = 0 then everyNth n xs ++ [x] else everyNth n xs := by
  rw [everyNth, List.zipIdx_append, List.filter_append, List.map_append]
  simp only [List.zipIdx_singleton, Nat.zero_add, List.filter_cons, List.filter_nil,
    decide_eq_true_eq]
  split
  · rfl
  · rw [List.map_nil, List.append_nil]
    rfl

theorem everyNth_append_prefix (xs ys : List α) : everyNth n xs <+: everyNth n (xs ++ ys) := by
  induction ys using List.reverseRecOn with
  | nil => simp
  | append_singleton ys y ih =>
    rw [← List.append_assoc, everyNth_snoc]
    split
    · exact ih.trans (List.prefix_append _ _)
    · exact ih

theorem length_everyNth (n : Nat) (xs : List α) : (everyNth n xs).length = xs.length / n := by
  induction xs using List.reverseRecOn with
  | nil => simp
  | append_singleton xs x ih =>
    rw [everyNth_snoc, List.length_append, List.length_singleton, Nat.succ_div]
    simp only [Nat.dvd_iff_mod_eq_zero]
    split
    · rw [List.length_append, ih, List.length_singleton]
    · rw [ih, Nat.add_zero]

theorem getElem?_everyNth (positive : 0 < n) (xs : List α) (k : Nat) :
    (everyNth n xs)[k]? = xs[(k + 1) * n - 1]? := by
  induction xs using List.reverseRecOn with
  | nil => simp
  | append_singleton xs x ih =>
    have count := length_everyNth n xs
    have count' := length_everyNth n (xs ++ [x])
    have start : 0 < (k + 1) * n := Nat.mul_pos (Nat.succ_pos k) positive
    rw [List.length_append, List.length_singleton] at count'
    obtain before | here | after := Nat.lt_trichotomy ((k + 1) * n - 1) xs.length
    · have old : k < (everyNth n xs).length := by
        rw [count, Nat.lt_iff_add_one_le, Nat.le_div_iff_mul_le positive]
        omega
      rw [List.getElem?_append_left before, ← ih, everyNth_snoc]
      split
      · exact List.getElem?_append_left old
      · rfl
    · have whole : xs.length + 1 = (k + 1) * n := by omega
      have new : (everyNth n xs).length = k := by
        rw [count, Nat.div_eq_iff positive]
        rw [Nat.add_mul] at whole
        omega
      rw [everyNth_snoc, if_pos (by rw [whole, Nat.mul_mod_left]), here, ← new]
      simp
    · have none_ : (everyNth n (xs ++ [x])).length ≤ k := by
        rw [count', ← Nat.lt_succ_iff, Nat.div_lt_iff_lt_mul positive]
        exact (by omega : xs.length + 1 < (k + 1) * n)
      rw [List.getElem?_eq_none none_, List.getElem?_eq_none (by simp; omega)]

end RendezMix.Library.EveryNth

/-!
# Gaps between chosen elements

How many elements of a list may pass in a row without one that is chosen. If the gaps are bounded,
a window longer than the bound contains a chosen element.
-/
namespace RendezMix.Library.Gaps

variable {α : Type*} {chosen : α → Bool} {most since : Nat}

/-- After `since` elements without a chosen one, no more than `most` ever follow each other. -/
def GapsAtMost (chosen : α → Bool) (most : Nat) : Nat → List α → Prop
  | since, [] => since ≤ most
  | since, x :: rest =>
      since ≤ most ∧ GapsAtMost chosen most (if chosen x then 0 else since + 1) rest

theorem GapsAtMost.drop {front rest : List α}
    (bounded : GapsAtMost chosen most since (front ++ rest)) :
    ∃ later, GapsAtMost chosen most later rest := by
  induction front generalizing since with
  | nil => exact ⟨since, bounded⟩
  | cons x front ih => exact ih bounded.2

theorem GapsAtMost.le_of_none {window back : List α}
    (bounded : GapsAtMost chosen most since (window ++ back))
    (none : ∀ x ∈ window, chosen x = false) : since + window.length ≤ most := by
  induction window generalizing since with
  | nil =>
    cases back with
    | nil => exact bounded
    | cons x back => exact bounded.1
  | cons x window ih =>
    have rest := bounded.2
    rw [none x List.mem_cons_self, if_neg Bool.false_ne_true] at rest
    have := ih rest fun y member => none y (List.mem_cons_of_mem x member)
    rw [List.length_cons]
    omega

/-- A window longer than the bound contains a chosen element, wherever it starts. -/
theorem GapsAtMost.window {front window back : List α}
    (bounded : GapsAtMost chosen most since (front ++ window ++ back))
    (long : most < window.length) : ∃ x ∈ window, chosen x = true := by
  rw [List.append_assoc] at bounded
  obtain ⟨later, bounded⟩ := bounded.drop
  by_contra none
  have := bounded.le_of_none fun x member =>
    Bool.eq_false_iff.mpr fun hit => none ⟨x, member, hit⟩
  omega

end RendezMix.Library.Gaps
