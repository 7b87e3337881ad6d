import Mathlib

/-!
# Binary heaps

The keys of a heap by their positions. A heap with one item out of place is put
in order by exchanging this item with its parent, or with its least child, until
it is in place.
-/
namespace RendezMix.Library.BinaryHeap

variable {β : Type} [LinearOrder β]

def parent (i : Nat) : Nat := (i - 1) / 2

theorem parent_lt {i : Nat} (inner : 0 < i) : parent i < i := by
  unfold parent
  omega

/-- No item is below its parent. -/
def Ordered (key : Nat → β) (n : Nat) : Prop :=
  ∀ i, 0 < i → i < n → key (parent i) ≤ key i

/-- Only the item at `hole` may be above its children, and these are not below
its parent. -/
structure OrderedAbove (key : Nat → β) (n hole : Nat) : Prop where
  others : ∀ i, 0 < i → i < n → parent i ≠ hole → key (parent i) ≤ key i
  across : ∀ i, 0 < i → i < n → parent i = hole → 0 < hole → key (parent hole) ≤ key i

/-- Only the item at `hole` may be below its parent, which is not above the
item's children. -/
structure OrderedBelow (key : Nat → β) (n hole : Nat) : Prop where
  others : ∀ i, 0 < i → i < n → i ≠ hole → key (parent i) ≤ key i
  across : ∀ i, 0 < i → i < n → parent i = hole → 0 < hole → key (parent hole) ≤ key i

variable {key key' : Nat → β} {n hole : Nat}

/-- The root is least. -/
theorem Ordered.root_le (ordered : Ordered key n) (i : Nat) (inside : i < n) : key 0 ≤ key i := by
  induction i using Nat.strongRecOn with
  | ind i ih =>
    rcases Nat.eq_zero_or_pos i with rfl | inner
    · exact le_refl _
    · have up := parent_lt inner
      exact (ih (parent i) up (by omega)).trans (ordered i inner inside)

theorem Ordered.congr (ordered : Ordered key n) (same : ∀ i, i < n → key' i = key i) :
    Ordered key' n := by
  intro i inner inside
  have up := parent_lt inner
  rw [same i inside, same (parent i) (by omega)]
  exact ordered i inner inside

theorem Ordered.shrink {n m : Nat} (ordered : Ordered key n) (fewer : m ≤ n) : Ordered key m :=
  fun i inner inside => ordered i inner (by omega)

/-! ## Upwards -/

/-- An item put at the end of a heap may be below its parent. -/
theorem Ordered.append (ordered : Ordered key n) (same : ∀ i, i < n → key' i = key i) :
    OrderedBelow key' (n + 1) n := by
  constructor
  · intro i inner inside other
    exact ordered.congr same i inner (by omega)
  · intro i inner inside child
    have up := parent_lt inner
    omega

section

variable (below : OrderedBelow key n hole)

include below

theorem OrderedBelow.step (inner : 0 < hole) (inside : hole < n)
    (less : key hole < key (parent hole)) :
    OrderedBelow (key ∘ Equiv.swap hole (parent hole)) n (parent hole) := by
  have up := parent_lt inner
  constructor
  · intro i innerI insideI other
    have upI := parent_lt innerI
    simp only [Function.comp]
    by_cases atHole : i = hole
    · subst atHole
      rw [Equiv.swap_apply_left, Equiv.swap_apply_right]
      exact less.le
    · rw [Equiv.swap_apply_of_ne_of_ne atHole other]
      by_cases child : parent i = hole
      · rw [child, Equiv.swap_apply_left]
        exact below.across i innerI insideI child inner
      · have held := below.others i innerI insideI atHole
        by_cases sibling : parent i = parent hole
        · rw [sibling, Equiv.swap_apply_right]
          rw [sibling] at held
          exact less.le.trans held
        · rw [Equiv.swap_apply_of_ne_of_ne child sibling]
          exact held
  · intro i innerI insideI child inner'
    have upI := parent_lt innerI
    have up' := parent_lt inner'
    have grand := below.others (parent hole) inner' (by omega) (by omega)
    simp only [Function.comp]
    rw [Equiv.swap_apply_of_ne_of_ne (by omega : parent (parent hole) ≠ hole) (by omega)]
    by_cases atHole : i = hole
    · rw [atHole, Equiv.swap_apply_left]
      exact grand
    · have held := below.others i innerI insideI atHole
      rw [child] at held
      rw [Equiv.swap_apply_of_ne_of_ne atHole (by omega)]
      exact grand.trans held

theorem OrderedBelow.done (inPlace : 0 < hole → key (parent hole) ≤ key hole) :
    Ordered key n := by
  intro i inner inside
  by_cases atHole : i = hole
  · rw [atHole] at inner ⊢
    exact inPlace inner
  · exact below.others i inner inside atHole

end

/-! ## Downwards -/

theorem OrderedAbove.step {n hole child : Nat} (above : OrderedAbove key n hole)
    (inner : 0 < child) (inside : child < n) (isChild : parent child = hole)
    (less : key child ≤ key hole)
    (least : ∀ i, 0 < i → i < n → parent i = hole → key child ≤ key i) :
    OrderedAbove (key ∘ Equiv.swap hole child) n child := by
  have up := parent_lt inner
  constructor
  · intro i innerI insideI other
    have upI := parent_lt innerI
    simp only [Function.comp]
    by_cases atHole : i = hole
    · rw [atHole] at innerI upI ⊢
      rw [Equiv.swap_apply_left,
        Equiv.swap_apply_of_ne_of_ne (by omega : parent hole ≠ hole) (by omega)]
      exact above.across child inner inside isChild innerI
    · by_cases atChild : i = child
      · rw [atChild, isChild, Equiv.swap_apply_left, Equiv.swap_apply_right]
        exact less
      · rw [Equiv.swap_apply_of_ne_of_ne atHole atChild]
        by_cases sibling : parent i = hole
        · rw [sibling, Equiv.swap_apply_left]
          exact least i innerI insideI sibling
        · rw [Equiv.swap_apply_of_ne_of_ne sibling other]
          exact above.others i innerI insideI sibling
  · intro i innerI insideI grandchild inner'
    have upI := parent_lt innerI
    have held := above.others i innerI insideI (by omega)
    rw [grandchild] at held
    simp only [Function.comp]
    rw [isChild, Equiv.swap_apply_left,
      Equiv.swap_apply_of_ne_of_ne (by omega : i ≠ hole) (by omega)]
    exact held

theorem OrderedAbove.done (above : OrderedAbove key n hole)
    (inPlace : ∀ i, 0 < i → i < n → parent i = hole → key hole ≤ key i) : Ordered key n := by
  intro i inner inside
  by_cases child : parent i = hole
  · rw [child]
    exact inPlace i inner inside child
  · exact above.others i inner inside child

/-- Another item may be put at a position of a heap if it is not below the parent
of this position. -/
theorem Ordered.replace (ordered : Ordered key n) (same : ∀ i, i < n → i ≠ hole → key' i = key i)
    (fits : 0 < hole → key (parent hole) ≤ key' hole) : OrderedAbove key' n hole := by
  constructor
  · intro i inner inside other
    have up := parent_lt inner
    by_cases atHole : i = hole
    · rw [atHole] at inner up inside ⊢
      rw [same (parent hole) (by omega) (by omega)]
      exact fits inner
    · rw [same i inside atHole, same (parent i) (by omega) other]
      exact ordered i inner inside
  · intro i inner inside child inner'
    have up := parent_lt inner
    have up' := parent_lt inner'
    have held := ordered i inner inside
    have grand := ordered hole inner' (by omega)
    rw [child] at held
    rw [same i inside (by omega), same (parent hole) (by omega) (by omega)]
    exact grand.trans held

end RendezMix.Library.BinaryHeap
