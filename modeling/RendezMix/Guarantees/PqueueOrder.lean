import RendezMix.Library.BinaryHeap
import RendezMix.Source.Smartlist

/-!
# The priority queue of a smartlist

What each operation of the queue does to its items, to their stored positions
and to their order. Adding and popping keep the queue a heap. So does removing,
unless the item that is moved into the hole is below the parent of the hole: it
is moved down only.
-/
namespace RendezMix.Guarantees.PqueueOrder

open Library Source.SmartlistPqueue BinaryHeap

variable {α : Type} [Inhabited α]

/-! ## Items and positions -/

/-- Each item is in the list once, and stores its position. -/
structure Indexed (sl : Pqueue α) : Prop where
  nodup : sl.list.Nodup
  idx_get : ∀ i, i < sl.list.length → sl.idx (sl.get i) = i

variable (compare : α → α → Int) (sl : Pqueue α)

theorem get_eq {i : Nat} (inside : i < sl.list.length) : sl.get i = sl.list[i] :=
  List.getD_eq_getElem _ _ inside

theorem get_mem {i : Nat} (inside : i < sl.list.length) : sl.get i ∈ sl.list := by
  rw [get_eq sl inside]
  exact List.getElem_mem inside

theorem exists_get {sl : Pqueue α} {x : α} (mem : x ∈ sl.list) :
    ∃ i, i < sl.list.length ∧ sl.get i = x := by
  obtain ⟨i, inside, same⟩ := List.getElem_of_mem mem
  exact ⟨i, inside, (get_eq sl inside).trans same⟩

theorem Indexed.idx_eq {sl : Pqueue α} (indexed : Indexed sl) {x : α} (mem : x ∈ sl.list) :
    ∃ i : Nat, sl.idx x = i ∧ i < sl.list.length ∧ sl.get i = x := by
  obtain ⟨i, inside, rfl⟩ := exists_get mem
  exact ⟨i, indexed.idx_get i inside, inside, rfl⟩

theorem Indexed.get_inj {sl : Pqueue α} (indexed : Indexed sl) {i j : Nat}
    (insideI : i < sl.list.length) (insideJ : j < sl.list.length) (same : sl.get i = sl.get j) :
    i = j := by
  have left := indexed.idx_get i insideI
  have right := indexed.idx_get j insideJ
  rw [same, right] at left
  exact Int.ofNat.inj left.symm

/-- Going from `sl` to `sl'` permutes the list, and touches the positions of the
items in it only. -/
structure Shuffled (sl sl' : Pqueue α) : Prop where
  perm : sl'.list.Perm sl.list
  frame : ∀ y, y ∉ sl.list → sl'.idx y = sl.idx y
  indexed : Indexed sl → Indexed sl'

theorem Shuffled.refl : Shuffled sl sl :=
  ⟨List.Perm.refl _, fun _ _ => rfl, id⟩

theorem Shuffled.trans {sl mid sl' : Pqueue α} (first : Shuffled sl mid)
    (second : Shuffled mid sl') : Shuffled sl sl' := by
  constructor
  · exact second.perm.trans first.perm
  · intro y absent
    rw [second.frame y fun mem => absent (first.perm.mem_iff.mp mem), first.frame y absent]
  · exact fun indexed => second.indexed (first.indexed indexed)

theorem bestIdx_lt (idx : Nat) (inside : leftChild idx < sl.list.length) : bestIdx compare sl idx < sl.list.length := by
  have left : idx < leftChild idx := by
    unfold leftChild
    omega
  by_cases first : compare (sl.get idx) (sl.get (leftChild idx)) < 0
  · simp only [bestIdx, if_pos first]
    split <;> omega
  · simp only [bestIdx, if_neg first]
    split <;> omega

variable [DecidableEq α]

section

variable (sl : Pqueue α) {idx i j : Nat}

section

variable (insideI : i < sl.list.length) (insideJ : j < sl.list.length)

include insideI insideJ

theorem exchange_get (k : Nat) : (sl.exchange i j).get k = sl.get (Equiv.swap i j k) := by
  simp only [Pqueue.exchange, Pqueue.updateIdx, Pqueue.get, List.getD_eq_getElem?_getD,
    List.getElem?_set, List.length_set]
  by_cases atJ : j = k
  · subst atJ
    rw [if_pos rfl, if_pos insideJ, Equiv.swap_apply_right]
    rfl
  · rw [if_neg atJ]
    by_cases atI : i = k
    · subst atI
      rw [if_pos rfl, if_pos insideI, Equiv.swap_apply_left]
      rfl
    · rw [if_neg atI, Equiv.swap_apply_of_ne_of_ne (Ne.symm atI) (Ne.symm atJ)]

theorem exchange_perm : (sl.exchange i j).list.Perm sl.list := by
  simp only [Pqueue.exchange, Pqueue.updateIdx]
  rw [get_eq sl insideI, get_eq sl insideJ]
  exact List.set_set_perm insideI insideJ

theorem exchange_idx :
    (sl.exchange i j).idx
      = Function.update (Function.update sl.idx (sl.get j) i) (sl.get i) j := by
  have atI : (sl.exchange i j).get i = sl.get j := by
    rw [exchange_get sl insideI insideJ, Equiv.swap_apply_left]
  have atJ : (sl.exchange i j).get j = sl.get i := by
    rw [exchange_get sl insideI insideJ, Equiv.swap_apply_right]
  rw [← atI, ← atJ]
  rfl

theorem exchange_shuffled : Shuffled sl (sl.exchange i j) := by
  constructor
  · exact exchange_perm sl insideI insideJ
  · intro y absent
    rw [exchange_idx sl insideI insideJ, Function.update_of_ne, Function.update_of_ne]
    · rintro rfl
      exact absent (get_mem sl insideJ)
    · rintro rfl
      exact absent (get_mem sl insideI)
  · intro indexed
    constructor
    · exact (exchange_perm sl insideI insideJ).nodup_iff.mpr indexed.nodup
    · intro k insideK
      rw [exchange_length] at insideK
      rw [exchange_get sl insideI insideJ, exchange_idx sl insideI insideJ]
      by_cases atJ : k = j
      · rw [atJ, Equiv.swap_apply_right, Function.update_self]
      · by_cases atI : k = i
        · rw [atI, Equiv.swap_apply_left, Function.update_of_ne, Function.update_self]
          intro same
          exact atJ (atI.trans (indexed.get_inj insideJ insideI same).symm)
        · rw [Equiv.swap_apply_of_ne_of_ne atI atJ, Function.update_of_ne, Function.update_of_ne,
            indexed.idx_get k insideK]
          · exact fun same => atJ (indexed.get_inj insideK insideJ same)
          · exact fun same => atI (indexed.get_inj insideK insideI same)

end

theorem smartlistHeapify_shuffled (compare : α → α → Int) (sl : Pqueue α) (idx : Nat) :
    Shuffled sl (smartlistHeapify compare sl idx) := by
  rw [smartlistHeapify]
  split
  · exact Shuffled.refl sl
  · split
    · exact Shuffled.refl sl
    · next inside other =>
      have best := bestIdx_lt compare sl idx (by omega)
      have down := bestIdx_eq compare sl idx
      have left : idx < leftChild idx := by
        unfold leftChild
        omega
      exact (exchange_shuffled sl (by omega) best).trans (smartlistHeapify_shuffled compare _ _)
termination_by sl.list.length - idx
decreasing_by
  rw [exchange_length]
  omega

theorem raise_shuffled (compare : α → α → Int) (sl : Pqueue α) (idx : Nat)
    (inside : idx < sl.list.length) : Shuffled sl (raise compare sl idx) := by
  rw [raise]
  split
  · exact Shuffled.refl sl
  · split
    · have up : parentIdx idx < idx := by
        unfold parentIdx
        omega
      have first := exchange_shuffled sl (by omega : parentIdx idx < sl.list.length) inside
      exact first.trans (raise_shuffled compare _ _ (by rw [exchange_length]; omega))
    · exact Shuffled.refl sl
termination_by idx

/-- `sl'` is `sl` with `x` put in. -/
structure Added (sl : Pqueue α) (x : α) (sl' : Pqueue α) : Prop where
  perm : sl'.list.Perm (x :: sl.list)
  frame : ∀ y, y ∉ x :: sl.list → sl'.idx y = sl.idx y
  indexed : x ∉ sl.list → Indexed sl → Indexed sl'

/-- `sl'` is `sl` with `x` taken out, whose position is no longer one. -/
structure Removed (sl : Pqueue α) (x : α) (sl' : Pqueue α) : Prop where
  perm : sl.list.Perm (x :: sl'.list)
  frame : ∀ y, y ∉ sl.list → sl'.idx y = sl.idx y
  out : sl'.idx x = -1
  indexed : Indexed sl'

omit [DecidableEq α] in
theorem Removed.not_mem {sl sl' : Pqueue α} {x : α} (removed : Removed sl x sl')
    (indexed : Indexed sl) : x ∉ sl'.list :=
  (List.nodup_cons.mp (removed.perm.nodup_iff.mp indexed.nodup)).1

omit [DecidableEq α] in
theorem Removed.shuffle {sl mid sl' : Pqueue α} {x : α} (removed : Removed sl x mid)
    (indexed : Indexed sl) (shuffled : Shuffled mid sl') : Removed sl x sl' := by
  have absent := removed.not_mem indexed
  constructor
  · exact removed.perm.trans (List.Perm.cons x shuffled.perm.symm)
  · intro y outside
    rw [shuffled.frame y, removed.frame y outside]
    exact fun mem => outside (removed.perm.mem_iff.mpr (List.mem_cons_of_mem x mem))
  · rw [shuffled.frame x absent, removed.out]
  · exact shuffled.indexed removed.indexed

theorem smartlistPqueueAdd_added (item : α) :
    Added sl item (smartlistPqueueAdd compare sl item) := by
  have last : (sl.list ++ [item]).length - 1 = sl.list.length := by simp
  have atEnd : ∀ idx : α → Int, (Pqueue.mk (sl.list ++ [item]) idx).get sl.list.length = item := by
    intro idx
    rw [get_eq _ (by simp)]
    simp
  have atFront : ∀ (idx : α → Int) (i : Nat), i < sl.list.length →
      (Pqueue.mk (sl.list ++ [item]) idx).get i = sl.get i := by
    intro idx i inside
    rw [get_eq _ (by simp; omega), get_eq sl inside]
    exact List.getElem_append_left inside
  let start : Pqueue α := ⟨sl.list ++ [item], Function.update sl.idx item sl.list.length⟩
  have started : smartlistPqueueAdd compare sl item = raise compare start sl.list.length := by
    simp only [smartlistPqueueAdd, last, Pqueue.updateIdx, atEnd]
    rfl
  have others : ∀ y, y ≠ item → start.idx y = sl.idx y :=
    fun y other => Function.update_of_ne other _ _
  have shuffled := raise_shuffled compare start sl.list.length (by simp [start])
  rw [started]
  constructor
  · exact shuffled.perm.trans (List.perm_append_singleton item sl.list)
  · intro y outside
    rw [List.mem_cons, not_or] at outside
    rw [shuffled.frame y (by simpa [start] using ⟨outside.2, outside.1⟩), others y outside.1]
  · intro absent indexed
    apply shuffled.indexed
    constructor
    · exact (List.perm_append_singleton item sl.list).nodup_iff.mpr
        (List.nodup_cons.mpr ⟨absent, indexed.nodup⟩)
    · intro i inside
      have room : i < sl.list.length + 1 := by simpa [start] using inside
      by_cases isLast : i = sl.list.length
      · rw [isLast, atEnd]
        exact Function.update_self _ _ _
      · have front : i < sl.list.length := by omega
        rw [atFront _ i front, others _ _, indexed.idx_get i front]
        rintro rfl
        exact absent (get_mem sl front)

/-- The last item is moved to the position `idx`. -/
def fill (sl : Pqueue α) (idx : Nat) : Pqueue α :=
  (Pqueue.mk ((sl.list.set idx (sl.get (sl.list.length - 1))).take (sl.list.length - 1))
    (Function.update sl.idx (sl.get idx) (-1))).updateIdx idx

theorem fill_length (idx : Nat) : (fill sl idx).list.length = sl.list.length - 1 := by
  simp [fill, Pqueue.updateIdx]

section

variable (inside : idx < sl.list.length - 1)

include inside

theorem fill_get (insideI : i < sl.list.length - 1) :
    (fill sl idx).get i = if i = idx then sl.get (sl.list.length - 1) else sl.get i := by
  simp only [fill, Pqueue.updateIdx, Pqueue.get, List.getD_eq_getElem?_getD]
  rw [List.getElem?_take_of_lt insideI, List.getElem?_set]
  by_cases same : i = idx
  · subst same
    rw [if_pos rfl, if_pos (by omega), if_pos rfl]
    rfl
  · rw [if_neg (Ne.symm same), if_neg same]

theorem fill_perm : sl.list.Perm (sl.get idx :: (fill sl idx).list) := by
  have bound : (sl.exchange idx (sl.list.length - 1)).list.length = sl.list.length :=
    exchange_length sl idx _
  have front : (sl.exchange idx (sl.list.length - 1)).list.take (sl.list.length - 1)
      = (fill sl idx).list := List.take_set_of_le (Nat.le_refl _)
  have back : (sl.exchange idx (sl.list.length - 1)).list.drop (sl.list.length - 1)
      = [sl.get idx] := by
    have last := exchange_get sl (by omega : idx < sl.list.length)
      (by omega : sl.list.length - 1 < sl.list.length) (sl.list.length - 1)
    rw [Equiv.swap_apply_right, get_eq _ (by omega)] at last
    rw [List.drop_eq_getElem_cons (by omega), last, List.drop_eq_nil_of_le (by omega)]
  have swapped := exchange_perm sl (by omega : idx < sl.list.length)
    (by omega : sl.list.length - 1 < sl.list.length)
  rw [← List.take_append_drop (sl.list.length - 1) (sl.exchange idx _).list, front, back]
    at swapped
  exact swapped.symm.trans (List.perm_append_singleton _ _)

end

theorem fill_removed {sl : Pqueue α} (indexed : Indexed sl) (inside : idx < sl.list.length - 1) :
    Removed sl (sl.get idx) (fill sl idx) := by
  have perm := fill_perm sl inside
  have fields : (fill sl idx).idx = Function.update (Function.update sl.idx (sl.get idx) (-1))
      (sl.get (sl.list.length - 1)) idx := by
    have atHole := fill_get sl inside inside
    rw [if_pos rfl] at atHole
    rw [← atHole]
    rfl
  have apart : sl.get idx ≠ sl.get (sl.list.length - 1) := by
    intro same
    have := indexed.get_inj (by omega) (by omega) same
    omega
  constructor
  · exact perm
  · intro y outside
    rw [fields, Function.update_of_ne, Function.update_of_ne]
    · rintro rfl
      exact outside (get_mem sl (by omega))
    · rintro rfl
      exact outside (get_mem sl (by omega))
  · rw [fields, Function.update_of_ne apart, Function.update_self]
  · constructor
    · exact (List.nodup_cons.mp (perm.nodup_iff.mp indexed.nodup)).2
    · intro i insideI
      rw [fill_length] at insideI
      rw [fill_get sl inside insideI, fields]
      by_cases atHole : i = idx
      · rw [if_pos atHole, Function.update_self, atHole]
      · rw [if_neg atHole, Function.update_of_ne, Function.update_of_ne,
          indexed.idx_get i (by omega)]
        · exact fun same => atHole (indexed.get_inj (by omega) (by omega) same)
        · intro same
          have := indexed.get_inj (by omega) (by omega) same
          omega

theorem dropLast_removed {sl : Pqueue α} (indexed : Indexed sl) (some_ : 0 < sl.list.length) :
    Removed sl (sl.get (sl.list.length - 1)) ⟨sl.list.take (sl.list.length - 1),
      Function.update sl.idx (sl.get (sl.list.length - 1)) (-1)⟩ := by
  have back : sl.list.drop (sl.list.length - 1) = [sl.get (sl.list.length - 1)] := by
    rw [List.drop_eq_getElem_cons (by omega), get_eq sl (by omega),
      List.drop_eq_nil_of_le (by omega)]
  have perm : sl.list.Perm
      (sl.get (sl.list.length - 1) :: sl.list.take (sl.list.length - 1)) := by
    conv_lhs => rw [← List.take_append_drop (sl.list.length - 1) sl.list, back]
    exact List.perm_append_singleton _ _
  constructor
  · exact perm
  · intro y outside
    apply Function.update_of_ne
    rintro rfl
    exact outside (get_mem sl (by omega))
  · exact Function.update_self _ _ _
  · constructor
    · exact (List.nodup_cons.mp (perm.nodup_iff.mp indexed.nodup)).2
    · intro i inside
      rw [List.length_take] at inside
      have same : (Pqueue.mk (sl.list.take (sl.list.length - 1))
          (Function.update sl.idx (sl.get (sl.list.length - 1)) (-1))).get i = sl.get i := by
        rw [get_eq _ (by rw [List.length_take]; exact inside),
          get_eq sl (by omega : i < sl.list.length), List.getElem_take]
      rw [same]
      change Function.update _ _ _ _ = _
      rw [Function.update_of_ne, indexed.idx_get i (by omega)]
      intro same
      have := indexed.get_inj (by omega) (by omega) same
      omega

theorem smartlistPqueuePop_removed {sl : Pqueue α} (indexed : Indexed sl) (some_ : sl.list ≠ []) :
    ∃ sl', smartlistPqueuePop compare sl = some (sl.get 0, sl') ∧ Removed sl (sl.get 0) sl' := by
  have positive : 0 < sl.list.length := List.length_pos_iff.mpr some_
  rw [smartlistPqueuePop, if_neg some_]
  simp only
  split
  · next single =>
    refine ⟨_, rfl, ?_⟩
    have dropped := dropLast_removed indexed positive
    rw [single] at dropped
    exact dropped
  · next more =>
    refine ⟨_, rfl, ?_⟩
    have inside : 0 < sl.list.length - 1 := by omega
    exact (fill_removed indexed inside).shuffle indexed (smartlistHeapify_shuffled compare _ 0)

theorem smartlistPqueueRemove_eq (inside : i < sl.list.length) (position : sl.idx (sl.get i) = i) :
    smartlistPqueueRemove compare sl (sl.get i)
      = some (if i = sl.list.length - 1 then
          ⟨sl.list.take (sl.list.length - 1), Function.update sl.idx (sl.get i) (-1)⟩
        else smartlistHeapify compare (fill sl i) i) := by
  have found : ¬ (sl.idx (sl.get i) < 0
      ∨ sl.list[(sl.idx (sl.get i)).toNat]? ≠ some (sl.get i)) := by
    rw [position, Int.toNat_natCast, List.getElem?_eq_getElem inside, get_eq sl inside]
    simp
  rw [smartlistPqueueRemove]
  simp only
  rw [if_neg found, position, Int.toNat_natCast]
  split <;> rfl

end

theorem smartlistPqueueRemove_removed {sl : Pqueue α} (indexed : Indexed sl) {item : α} (mem : item ∈ sl.list) :
    ∃ sl', smartlistPqueueRemove compare sl item = some sl' ∧ Removed sl item sl' := by
  obtain ⟨i, position, inside, rfl⟩ := indexed.idx_eq mem
  rw [smartlistPqueueRemove_eq compare sl inside position]
  refine ⟨_, rfl, ?_⟩
  split
  · next isLast =>
    subst isLast
    exact dropLast_removed indexed (by omega)
  · next inner =>
    have inside' : i < sl.list.length - 1 := by omega
    exact (fill_removed indexed inside').shuffle indexed (smartlistHeapify_shuffled compare _ i)

/-! ## Order -/

section Order

variable {β : Type} [LinearOrder β] (key : α → β)

/-- The keys of the items by their positions. -/
def keys (sl : Pqueue α) (i : Nat) : β := key (sl.get i)

/-- The queue is a heap. -/
def Heap (sl : Pqueue α) : Prop := BinaryHeap.Ordered (keys key sl) sl.list.length

variable {key} {compare : α → α → Int}
  (compares : ∀ x y, compare x y < 0 ↔ key x < key y)

omit [DecidableEq α] in
include compares in
/-- The best position is the item's own one if no child is below the item, and
that of its least child otherwise. -/
theorem bestIdx_spec (sl : Pqueue α) (idx : Nat) :
    (bestIdx compare sl idx = idx →
      ∀ i, 0 < i → i < sl.list.length → parent i = idx →
        keys key sl idx ≤ keys key sl i)
    ∧ (bestIdx compare sl idx ≠ idx →
      0 < bestIdx compare sl idx ∧ parent (bestIdx compare sl idx) = idx
        ∧ keys key sl (bestIdx compare sl idx) ≤ keys key sl idx
        ∧ ∀ i, 0 < i → i < sl.list.length → parent i = idx →
          keys key sl (bestIdx compare sl idx) ≤ keys key sl i) := by
  have children : ∀ i, 0 < i → parent i = idx →
      i = leftChild idx ∨ i = leftChild idx + 1 := by
    intro i inner child
    unfold parent at child
    unfold leftChild
    omega
  have isParent : parent (leftChild idx) = idx
      ∧ parent (leftChild idx + 1) = idx := by
    unfold parent leftChild
    omega
  have below : idx < leftChild idx := by
    unfold leftChild
    omega
  by_cases first : compare (sl.get idx) (sl.get (leftChild idx)) < 0
  · have less := (compares _ _).mp first
    by_cases second : leftChild idx + 1 < sl.list.length
        ∧ compare (sl.get (leftChild idx + 1)) (sl.get idx) < 0
    · have least := (compares _ _).mp second.2
      simp only [bestIdx, if_pos first, if_pos second]
      constructor
      · intro same
        omega
      · intro _
        refine ⟨by omega, isParent.2, least.le, ?_⟩
        intro i inner insideI child
        rcases children i inner child with rfl | rfl
        · exact (least.trans less).le
        · exact le_refl _
    · simp only [bestIdx, if_pos first, if_neg second]
      constructor
      · intro _ i inner insideI child
        rcases children i inner child with rfl | rfl
        · exact less.le
        · exact le_of_not_gt fun more => second ⟨insideI, (compares _ _).mpr more⟩
      · intro other
        exact absurd rfl other
  · have more := le_of_not_gt fun less => first ((compares _ _).mpr less)
    by_cases second : leftChild idx + 1 < sl.list.length
        ∧ compare (sl.get (leftChild idx + 1)) (sl.get (leftChild idx)) < 0
    · have least := (compares _ _).mp second.2
      simp only [bestIdx, if_neg first, if_pos second]
      constructor
      · intro same
        omega
      · intro _
        refine ⟨by omega, isParent.2, least.le.trans more, ?_⟩
        intro i inner insideI child
        rcases children i inner child with rfl | rfl
        · exact least.le
        · exact le_refl _
    · simp only [bestIdx, if_neg first, if_neg second]
      constructor
      · intro same
        omega
      · intro _
        refine ⟨by omega, isParent.1, more, ?_⟩
        intro i inner insideI child
        rcases children i inner child with rfl | rfl
        · exact le_refl _
        · exact le_of_not_gt fun less => second ⟨insideI, (compares _ _).mpr less⟩

omit [LinearOrder β] in
theorem keys_exchange (sl : Pqueue α) {i j : Nat} (insideI : i < sl.list.length)
    (insideJ : j < sl.list.length) : keys key (sl.exchange i j) = keys key sl ∘ Equiv.swap i j := by
  funext k
  exact congrArg key (exchange_get sl insideI insideJ k)

include compares in
theorem smartlistHeapify_heap (sl : Pqueue α) (idx : Nat)
    (above : BinaryHeap.OrderedAbove (keys key sl) sl.list.length idx) :
    Heap key (smartlistHeapify compare sl idx) := by
  rw [smartlistHeapify]
  split
  · next leaf =>
    apply above.done
    intro i inner inside child
    unfold parent at child
    unfold leftChild at leaf
    omega
  · next inside =>
    have spec := bestIdx_spec compares sl idx
    split
    · next inPlace => exact above.done (spec.1 inPlace)
    · next other =>
      have best := bestIdx_lt compare sl idx (by omega)
      have down := bestIdx_eq compare sl idx
      have left : idx < leftChild idx := by
        unfold leftChild
        omega
      obtain ⟨inner, child, less, least⟩ := spec.2 other
      have moved := above.step inner best child less least
      rw [← keys_exchange sl (by omega) best] at moved
      apply smartlistHeapify_heap
      rw [exchange_length]
      exact moved
termination_by sl.list.length - idx
decreasing_by
  rw [exchange_length]
  omega

include compares in
theorem raise_heap (sl : Pqueue α) (idx : Nat) (inside : idx < sl.list.length)
    (below : BinaryHeap.OrderedBelow (keys key sl) sl.list.length idx) :
    Heap key (raise compare sl idx) := by
  rw [raise]
  split
  · next root => exact below.done fun inner => absurd root (by omega)
  · next inner =>
    have up : parentIdx idx < idx := by
      unfold parentIdx
      omega
    split
    · next less =>
      have moved := below.step (by omega) inside ((compares _ _).mp less)
      rw [Equiv.swap_comm] at moved
      change BinaryHeap.OrderedBelow (keys key sl ∘ Equiv.swap (parentIdx idx) idx) _
        (parentIdx idx) at moved
      rw [← keys_exchange sl (by omega) inside] at moved
      apply raise_heap
      · rw [exchange_length]
        omega
      · rw [exchange_length]
        exact moved
    · next more => exact below.done fun _ => le_of_not_gt fun less => more ((compares _ _).mpr less)
termination_by idx

include compares in
theorem smartlistPqueueAdd_heap (sl : Pqueue α) (item : α) (heap : Heap key sl) :
    Heap key (smartlistPqueueAdd compare sl item) := by
  have last : (sl.list ++ [item]).length - 1 = sl.list.length := by simp
  apply raise_heap compares
  · simp [Pqueue.updateIdx]
  · have appended : BinaryHeap.OrderedBelow (keys key ((Pqueue.mk (sl.list ++ [item])
        sl.idx).updateIdx sl.list.length)) (sl.list.length + 1) sl.list.length := by
      apply BinaryHeap.Ordered.append heap
      intro i inside
      apply congrArg key
      rw [get_eq sl inside, get_eq _ (by simp [Pqueue.updateIdx]; omega)]
      exact List.getElem_append_left inside
    simpa [Pqueue.updateIdx] using appended

include compares in
theorem smartlistPqueuePop_heap {sl sl' : Pqueue α} {top : α}
    (below : ∀ i, i < sl.list.length → 0 < parent i →
      keys key sl (parent i) ≤ keys key sl i)
    (popped : smartlistPqueuePop compare sl = some (top, sl')) : Heap key sl' := by
  rw [smartlistPqueuePop] at popped
  split at popped
  · contradiction
  · simp only at popped
    split at popped
    · cases popped
      intro i inner inside
      simp at inside
    · next more =>
      cases popped
      apply smartlistHeapify_heap compares
      change BinaryHeap.OrderedAbove (keys key (fill sl 0)) (fill sl 0).list.length 0
      rw [fill_length]
      have others : ∀ i, 0 < i → i < sl.list.length - 1 → keys key (fill sl 0) i = keys key sl i := by
        intro i inner inside
        apply congrArg key
        rw [fill_get sl (by omega) inside, if_neg (by omega)]
      constructor
      · intro i inner inside other
        have up := parent_lt inner
        rw [others i inner inside, others _ (by omega) (by omega)]
        exact below i (by omega) (by omega)
      · intro i _ _ _ root
        omega

variable (key) in
/-- Removing the item moves the last one to a position whose parent is above it. -/
def Misplaces (sl : Pqueue α) (item : α) : Prop :=
  0 < sl.idx item ∧ (sl.idx item).toNat < sl.list.length - 1
    ∧ keys key sl (sl.list.length - 1) < keys key sl (parent (sl.idx item).toNat)

omit [DecidableEq α] in
instance (sl : Pqueue α) (item : α) : Decidable (Misplaces key sl item) := by
  unfold Misplaces
  infer_instance

include compares in
theorem smartlistPqueueRemove_heap {sl sl' : Pqueue α} {item : α} (indexed : Indexed sl)
    (mem : item ∈ sl.list) (heap : Heap key sl) (fits : ¬ Misplaces key sl item)
    (removed : smartlistPqueueRemove compare sl item = some sl') : Heap key sl' := by
  obtain ⟨i, position, inside, rfl⟩ := indexed.idx_eq mem
  rw [smartlistPqueueRemove_eq compare sl inside position] at removed
  cases removed
  split
  · -- the item was the last one
    have fewer : (sl.list.take (sl.list.length - 1)).length = sl.list.length - 1 := by
      rw [List.length_take]
      omega
    unfold Heap
    rw [fewer]
    apply (BinaryHeap.Ordered.shrink heap (Nat.sub_le _ 1)).congr
    intro k insideK
    apply congrArg key
    rw [get_eq _ (by rw [fewer]; exact insideK), get_eq sl (by omega : k < sl.list.length),
      List.getElem_take]
  · next inner =>
    have inside' : i < sl.list.length - 1 := by omega
    apply smartlistHeapify_heap compares
    rw [fill_length]
    apply (BinaryHeap.Ordered.shrink heap (Nat.sub_le _ 1)).replace
    · intro k insideK other
      apply congrArg key
      rw [fill_get sl inside' insideK, if_neg other]
    · intro innerI
      have filled : keys key (fill sl i) i = keys key sl (sl.list.length - 1) := by
        apply congrArg key
        rw [fill_get sl inside' inside', if_pos rfl]
      rw [filled]
      apply le_of_not_gt
      intro less
      apply fits
      rw [Misplaces, position, Int.toNat_natCast]
      exact ⟨by omega, inside', less⟩

end Order

end RendezMix.Guarantees.PqueueOrder
