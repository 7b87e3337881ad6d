import Mathlib.Data.List.Sort
import Mathlib.Order.Antisymmetrization

/-!
# Sorting by a comparison

What a sorting function promises when the order of equal elements is its own
affair: the elements are the same and the comparison orders them. Two such
functions agree wherever the comparison tells the elements apart, and a stable
one keeps the elements that it does not tell apart in their order.
-/
namespace RendezMix.Library.Sorting
open Std (TransCmp OrientedCmp)

variable {α κ : Type*}

/-- A function that sorts by a comparison. -/
structure Sorter (cmp : α → α → Ordering) where
  sort : List α → List α
  perm : ∀ l, (sort l).Perm l
  ordered : ∀ l, (sort l).Pairwise fun a b => (cmp a b).isLE = true

variable {cmp : α → α → Ordering}

/-- Sort by inserting the elements one after the other. -/
def insertionSorter (cmp : α → α → Ordering) [TransCmp cmp] : Sorter cmp where
  sort := List.insertionSort fun a b => (cmp a b).isLE = true
  perm := List.perm_insertionSort _
  ordered l := by
    have total : Std.Total fun a b => (cmp a b).isLE = true := by
      constructor
      intro a b
      by_cases le : (cmp a b).isLE = true
      · exact Or.inl le
      · have lt : cmp b a = .lt := OrientedCmp.lt_of_not_isLE le
        rw [lt]
        exact Or.inr rfl
    have trans : IsTrans α fun a b => (cmp a b).isLE = true :=
      ⟨fun _ _ _ first second => TransCmp.isLE_trans first second⟩
    exact List.pairwise_insertionSort _ l

variable [TransCmp cmp]

section

variable (s : Sorter cmp) {l' l : List α} {cmp' : α → α → Ordering}

/-- Two comparisons that agree on the elements sort them alike, where equal elements are the
same. -/
theorem Sorter.eq_of_agree (s' : Sorter cmp') (perm : l.Perm l')
    (agree : ∀ a ∈ l, ∀ b ∈ l, cmp a b = cmp' a b)
    (apart : ∀ a ∈ l, ∀ b ∈ l, cmp a b = .eq → a = b) : s.sort l = s'.sort l' := by
  have same : (s.sort l).Perm (s'.sort l') :=
    ((s.perm l).trans perm).trans (s'.perm l').symm
  have inside : ∀ a ∈ s.sort l, a ∈ l := fun a member => (s.perm l).mem_iff.mp member
  have other : ∀ b ∈ s'.sort l', b ∈ l := fun b member => inside b (same.mem_iff.mpr member)
  have ordered : (s'.sort l').Pairwise fun a b => (cmp a b).isLE = true := by
    apply (s'.ordered l').imp_of_mem
    intro a b first second le
    rwa [agree a (other a first) b (other b second)]
  apply List.Perm.eq_of_pairwise _ (s.ordered l) ordered same
  intro a b first second le ge
  exact apart a (inside a first) b (other b second) (OrientedCmp.isLE_antisymm le ge)

/-- Where equal elements are the same, the result is a function of the elements alone. -/
theorem Sorter.eq_of_perm (s' : Sorter cmp) (perm : l.Perm l')
    (apart : ∀ a ∈ l, ∀ b ∈ l, cmp a b = .eq → a = b) : s.sort l = s'.sort l' :=
  s.eq_of_agree s' perm (fun _ _ _ _ => rfl) apart

/-- Sorting is stable for a class of equal elements: they stay in their order. -/
theorem insertionSorter_filter (p : α → Bool) (l : List α)
    (equal : ∀ a ∈ l, ∀ b ∈ l, p a = true → p b = true → cmp a b = .eq) :
    ((insertionSorter cmp).sort l).filter p = l.filter p := by
  have ordered : (l.filter p).Pairwise fun a b => (cmp a b).isLE = true := by
    apply List.pairwise_of_forall_mem_list
    intro a first b second
    rw [List.mem_filter] at first second
    rw [equal a first.1 b second.1 first.2 second.2]
    rfl
  have kept : (l.filter p).Sublist ((insertionSorter cmp).sort l) :=
    List.sublist_insertionSort ordered List.filter_sublist
  have inside : (l.filter p).Sublist (((insertionSorter cmp).sort l).filter p) := by
    have again := kept.filter p
    simp only [List.filter_filter, Bool.and_self] at again
    exact again
  have length := (((insertionSorter cmp).perm l).filter p).length_eq
  exact (inside.eq_of_length length.symm).symm

/-! ## Comparisons that are lawful on a list -/

/-- The comparison orders the members of a list. -/
structure OrderedOn (cmp : α → α → Ordering) (l : List α) : Prop where
  swap : ∀ a ∈ l, ∀ b ∈ l, cmp a b = (cmp b a).swap
  trans : ∀ a ∈ l, ∀ b ∈ l, ∀ c ∈ l,
    (cmp a b).isLE = true → (cmp b c).isLE = true → (cmp a c).isLE = true

/-- A function that sorts the lists on which the comparison is lawful, as `qsort` does. -/
def SortsBy (cmp : α → α → Ordering) (sort : List α → List α) : Prop :=
  ∀ l, OrderedOn cmp l → (sort l).Perm l ∧ (sort l).Pairwise fun a b => (cmp a b).isLE = true

theorem OrderedOn.of_agree (agree : ∀ a ∈ l, ∀ b ∈ l, cmp' a b = cmp a b) : OrderedOn cmp' l := by
  constructor
  · intro a first b second
    rw [agree a first b second, agree b second a first]
    exact OrientedCmp.eq_swap
  · intro a first b second c third le le'
    rw [agree a first b second] at le
    rw [agree b second c third] at le'
    rw [agree a first c third]
    exact TransCmp.isLE_trans le le'

omit [TransCmp cmp] in
theorem orderedInsert_pairwise (a : α) (l : List α) (lawful : OrderedOn cmp (a :: l))
    (sorted : l.Pairwise fun a b => (cmp a b).isLE = true) :
    (l.orderedInsert (fun a b => (cmp a b).isLE = true) a).Pairwise
      fun a b => (cmp a b).isLE = true := by
  have first : a ∈ a :: l := List.mem_cons_self
  induction l with
  | nil => exact List.pairwise_singleton _ _
  | cons b l ih =>
    have second : b ∈ a :: b :: l := List.mem_cons_of_mem _ List.mem_cons_self
    have other (c : α) (member : c ∈ l) : c ∈ a :: b :: l :=
      List.mem_cons_of_mem _ (List.mem_cons_of_mem _ member)
    have split := List.pairwise_cons.mp sorted
    rw [List.orderedInsert_cons]
    by_cases le : (cmp a b).isLE = true
    · rw [if_pos le]
      apply List.Pairwise.cons _ sorted
      intro c member
      rcases List.mem_cons.mp member with rfl | later
      · exact le
      · exact lawful.trans a first b second c (other c later) le (split.1 c later)
    · rw [if_neg le]
      have inside : ∀ c ∈ a :: l, c ∈ a :: b :: l := by
        intro c member
        rcases List.mem_cons.mp member with rfl | later
        · exact first
        · exact other c later
      have rest : OrderedOn cmp (a :: l) :=
        ⟨fun c hc d hd => lawful.swap c (inside c hc) d (inside d hd),
          fun c hc d hd e he => lawful.trans c (inside c hc) d (inside d hd) e (inside e he)⟩
      apply List.Pairwise.cons _ (ih rest split.2 List.mem_cons_self)
      intro c member
      rcases List.mem_cons.mp ((List.perm_orderedInsert _ a l).mem_iff.mp member) with rfl | later
      · rw [lawful.swap b second c first]
        revert le
        cases cmp c b <;> decide
      · exact split.1 c later

omit [TransCmp cmp] in
/-- Insertion is such a function. -/
theorem insertionSort_sortsBy :
    SortsBy cmp (List.insertionSort fun a b => (cmp a b).isLE = true) := by
  intro l lawful
  refine ⟨List.perm_insertionSort _ l, ?_⟩
  induction l with
  | nil => exact List.Pairwise.nil
  | cons a l ih =>
    have inside (c : α) (member : c ∈ l) : c ∈ a :: l := List.mem_cons_of_mem _ member
    have perm := (List.perm_insertionSort (fun a b => (cmp a b).isLE = true) l).cons a
    have rest : OrderedOn cmp l :=
      ⟨fun c hc d hd => lawful.swap c (inside c hc) d (inside d hd),
        fun c hc d hd e he => lawful.trans c (inside c hc) d (inside d hd) e (inside e he)⟩
    rw [List.insertionSort_cons]
    apply orderedInsert_pairwise a _ _ (ih rest)
    exact ⟨fun c hc d hd => lawful.swap c (perm.mem_iff.mp hc) d (perm.mem_iff.mp hd),
      fun c hc d hd e he => lawful.trans c (perm.mem_iff.mp hc) d (perm.mem_iff.mp hd) e
        (perm.mem_iff.mp he)⟩

omit [TransCmp cmp] in
theorem OrderedOn.lt_of_lt_of_isLE (lawful : OrderedOn cmp l) {a b c : α} (ha : a ∈ l)
    (hb : b ∈ l) (hc : c ∈ l) (less : cmp a b = .lt) (le : (cmp b c).isLE = true) :
    cmp a c = .lt := by
  have both := lawful.trans a ha b hb c hc (by rw [less]; rfl) le
  cases order : cmp a c with
  | lt => rfl
  | gt =>
    rw [order] at both
    cases both
  | eq =>
    have swapped := lawful.swap c hc a ha
    rw [order] at swapped
    have back := lawful.trans b hb c hc a ha le (by rw [swapped]; rfl)
    rw [lawful.swap b hb a ha, less] at back
    cases back

omit [TransCmp cmp] in
/-- A comparison that is lawful on a list agrees there with one that is lawful everywhere. -/
theorem OrderedOn.exists_transCmp (lawful : OrderedOn cmp l) :
    ∃ order : α → α → Ordering, TransCmp order ∧ ∀ a ∈ l, ∀ b ∈ l, order a b = cmp a b := by
  -- The place of an element is how many are less.
  have below (a b : α) (ha : a ∈ l) (hb : b ∈ l) (less : cmp a b = .lt) :
      (l.countP fun c => cmp c a = .lt) < l.countP fun c => cmp c b = .lt := by
    have self : ¬ cmp a a = .lt := by
      intro same
      have swapped := lawful.swap a ha a ha
      rw [same] at swapped
      cases swapped
    have rest : 0 < (l.filter fun c => !decide (cmp c a = .lt)).countP fun c => cmp c b = .lt := by
      rw [List.countP_pos_iff]
      exact ⟨a, List.mem_filter.mpr ⟨ha, by simpa using self⟩, by simpa using less⟩
    have all : (l.filter fun c => cmp c a = .lt).countP (fun c => cmp c b = .lt) =
        l.countP fun c => cmp c a = .lt := by
      rw [List.countP_eq_length_filter, List.filter_eq_self.mpr, ← List.countP_eq_length_filter]
      intro c member
      rw [List.mem_filter, decide_eq_true_eq] at member
      rw [decide_eq_true_eq]
      exact lawful.lt_of_lt_of_isLE member.1 ha hb member.2 (by rw [less]; rfl)
    have split := List.countP_eq_countP_filter_add l (fun c => cmp c b = .lt)
      fun c => cmp c a = .lt
    omega
  refine ⟨compareOn fun a => l.countP fun c => cmp c a = .lt,
    inferInstanceAs (TransCmp (compareOn _)), ?_⟩
  intro a ha b hb
  unfold compareOn
  cases order : cmp a b with
  | lt => exact compare_lt_iff_lt.mpr (below a b ha hb order)
  | gt =>
    have less : cmp b a = .lt := by
      rw [lawful.swap b hb a ha, order]
      rfl
    exact compare_gt_iff_gt.mpr (below b a hb ha less)
  | eq =>
    have back : cmp b a = .eq := by
      rw [lawful.swap b hb a ha, order]
      rfl
    rw [Std.compare_eq_iff_eq]
    apply List.countP_congr
    intro c hc
    rw [decide_eq_true_eq, decide_eq_true_eq]
    constructor
    · exact fun less => lawful.lt_of_lt_of_isLE hc ha hb less (by rw [order]; rfl)
    · exact fun less => lawful.lt_of_lt_of_isLE hc hb ha less (by rw [back]; rfl)

end

end RendezMix.Library.Sorting

/-!
# Comparison functions

A function that compares two items by the sign of a number, as the ones that sorting functions are
given. If it is a total preorder it compares the keys of the items in some linear order, namely
their classes of items that compare equal.
-/
namespace RendezMix.Library.Comparisons

/-- The function orders items, of which several may be equal. -/
structure TotalPreorder {α : Type} (compare : α → α → Int) : Prop where
  oriented : ∀ x y, compare x y < 0 ↔ 0 < compare y x
  trans : ∀ x y z, compare x y ≤ 0 → compare y z ≤ 0 → compare x z ≤ 0

variable {α : Type} {compare : α → α → Int}

section

variable (total : TotalPreorder compare) (x y : α)

include total

theorem TotalPreorder.self : compare x x = 0 := by
  have oriented := total.oriented x x
  omega

theorem TotalPreorder.lt_iff_not_le : compare x y < 0 ↔ ¬ compare y x ≤ 0 := by
  rw [total.oriented x y]
  omega

theorem TotalPreorder.le_total : compare x y ≤ 0 ∨ compare y x ≤ 0 := by
  have oriented := total.oriented y x
  omega

/-- The function compares the keys of the items in a linear order. -/
theorem TotalPreorder.exists_key :
    ∃ (β : Type) (_ : LinearOrder β) (key : α → β), ∀ x y, compare x y < 0 ↔ key x < key y := by
  classical
  let _ : Preorder α := {
    le := fun x y => compare x y ≤ 0
    lt := fun x y => compare x y < 0
    le_refl := fun x => (total.le_total x x).elim id id
    le_trans := total.trans
    lt_iff_le_not_ge := fun x y => by
      rw [total.lt_iff_not_le]
      exact ⟨fun less => ⟨(total.le_total x y).resolve_right less, less⟩, And.right⟩ }
  let _ : Std.Total (α := α) (· ≤ ·) := ⟨total.le_total⟩
  refine ⟨Antisymmetrization α (· ≤ ·), inferInstance, toAntisymmetrization (· ≤ ·), ?_⟩
  intro x y
  exact toAntisymmetrization_lt_toAntisymmetrization_iff.symm

end

end RendezMix.Library.Comparisons

/-!
# The element at a place of a sorted list

The element at a place is at most a bound exactly when the list has more elements up
to this bound than there are places before it.
-/
namespace RendezMix.Library.OrderStatistics

variable {α : Type*} [LinearOrder α]

theorem getElem_le_iff {s : List α} (sorted : s.Pairwise (· ≤ ·)) {k : Nat} {x : α}
    (place : s[k]? = some x) (t : α) : x ≤ t ↔ k < s.countP (· ≤ t) := by
  induction s generalizing k with
  | nil => cases place
  | cons a s ih =>
    rw [List.pairwise_cons] at sorted
    rw [List.countP_cons]
    by_cases below : a ≤ t
    · rw [if_pos (decide_eq_true below)]
      cases k with
      | zero =>
        rw [List.getElem?_cons_zero, Option.some.injEq] at place
        rw [← place]
        exact iff_of_true below (Nat.succ_pos _)
      | succ k =>
        rw [List.getElem?_cons_succ] at place
        rw [ih sorted.2 place]
        omega
    · have none : s.countP (· ≤ t) = 0 := by
        rw [List.countP_eq_zero]
        intro b member
        rw [decide_eq_true_eq]
        exact fun le => below (le_trans (sorted.1 b member) le)
      rw [if_neg (by simpa using below), none]
      apply iff_of_false _ (Nat.not_lt_zero k)
      cases k with
      | zero =>
        rw [List.getElem?_cons_zero, Option.some.injEq] at place
        rwa [← place]
      | succ k =>
        rw [List.getElem?_cons_succ] at place
        exact fun le => below (le_trans (sorted.1 x (List.mem_of_getElem? place)) le)

end RendezMix.Library.OrderStatistics
