import RendezMix.Guarantees.PqueueOrder
import RendezMix.Library.Runs

/-!
# Runs of a priority queue

The items that have been added to a queue and those that have been taken out of it, and what they
say about the queue. An item that is removed leaves its position to the last one, which is moved
down only, so that the queue stays in order if and only if that one is not below the parent.
-/
namespace RendezMix.Guarantees.PqueueIntegrity
open Library Comparisons Runs Source.SmartlistPqueue PqueueOrder

variable {α : Type} [Inhabited α] [DecidableEq α]

/-! ## Histories -/

/-- A queue, and the items that have been added and those that have been taken out. -/
structure Tracked (α : Type) where
  queue : Pqueue α
  added : List α
  taken : List α

/-- An empty queue; the items store any positions. -/
def newTracked (idx : α → Int) : Tracked α := ⟨⟨[], idx⟩, [], []⟩

inductive PqueueCall (α : Type)
  | add (item : α)
  | pop
  | remove (item : α)

/-- One call; where an assertion fails nothing is changed. -/
def pqueueExec (compare : α → α → Int) (call : PqueueCall α) (s : Tracked α) : Tracked α :=
  match call with
  | .add item => ⟨smartlistPqueueAdd compare s.queue item, item :: s.added, s.taken⟩
  | .pop =>
    match smartlistPqueuePop compare s.queue with
    | none => s
    | some (top, queue) => ⟨queue, s.added, top :: s.taken⟩
  | .remove item =>
    match smartlistPqueueRemove compare s.queue item with
    | none => s
    | some queue => ⟨queue, s.added, item :: s.taken⟩

/-- An item is popped off a queue that has one, and removed from a queue that it is in. -/
def Enabled (s : Tracked α) : PqueueCall α → Prop
  | .add _ => True
  | .pop => s.queue.list ≠ []
  | .remove item => item ∈ s.queue.list

instance (s : Tracked α) (call : PqueueCall α) : Decidable (Enabled s call) := by
  cases call <;> unfold Enabled <;> infer_instance

def PqueueStep (compare : α → α → Int) (s : Tracked α) (call : PqueueCall α) (s' : Tracked α) :
    Prop :=
  Enabled s call ∧ s' = pqueueExec compare call s

/-- What holds of a queue after each call: no item is below its parent, the items store their
positions, those that are out store -1, and the queue has what was added and not taken out. -/
structure Integrity (compare : α → α → Int) (s : Tracked α) : Prop where
  order : ∀ i, 0 < i → i < s.queue.list.length →
    ¬ compare (s.queue.get i) (s.queue.get (parentIdx i)) < 0
  positions : ∀ i, i < s.queue.list.length → s.queue.idx (s.queue.get i) = i
  out : ∀ x ∈ s.taken, x ∉ s.queue.list → s.queue.idx x = -1
  contents : (s.taken ++ s.queue.list).Perm s.added

/-- What is promised of a call: integrity, and an item that is popped has no other below it. -/
structure Intact (compare : α → α → Int) (x : Transition (Tracked α) (PqueueCall α)) : Prop where
  integrity : Integrity compare x.post
  least : x.input = .pop → ∃ top queue, smartlistPqueuePop compare x.pre.queue = some (top, queue) ∧
    ∀ y ∈ x.pre.queue.list, ¬ compare y top < 0
  found : ∀ item, x.input = .remove item → smartlistPqueueRemove compare x.pre.queue item ≠ none

/-- The last item is below the parent of the position of an item. -/
def Misfits (compare : α → α → Int) (sl : Pqueue α) (item : α) : Prop :=
  0 < sl.idx item ∧ (sl.idx item).toNat < sl.list.length - 1
    ∧ compare (sl.get (sl.list.length - 1)) (sl.get (parentIdx (sl.idx item).toNat)) < 0

/-- The condition of a call: an item that is added is not in the queue yet, and the last item may
take the place of one that is removed. -/
def Fits (compare : α → α → Int) (x : Transition (Tracked α) (PqueueCall α)) : Prop :=
  match x.input with
  | .add item => item ∉ x.pre.queue.list
  | .pop => True
  | .remove item => ¬ Misfits compare x.pre.queue item

/-! ## One call -/

section Calls

variable {compare : α → α → Int} {s : Tracked α}

omit [DecidableEq α] in
theorem newTracked_integrity (idx : α → Int) : Integrity compare (newTracked idx) where
  order i _ inside := absurd inside (Nat.not_lt_zero i)
  positions i inside := absurd inside (Nat.not_lt_zero i)
  out x member := by cases member
  contents := List.Perm.refl _

omit [DecidableEq α] in
theorem nodup_of_positions {sl : Pqueue α}
    (positions : ∀ i, i < sl.list.length → sl.idx (sl.get i) = i) : sl.list.Nodup := by
  rw [List.nodup_iff_injective_getElem]
  intro i j same
  have first := positions i i.isLt
  have second := positions j j.isLt
  rw [get_eq sl i.isLt] at first
  rw [get_eq sl j.isLt] at second
  simp only at same
  rw [same, second] at first
  exact Fin.ext (Int.ofNat.inj first.symm)

omit [DecidableEq α] in
theorem Integrity.indexed (integrity : Integrity compare s) : Indexed s.queue :=
  ⟨nodup_of_positions integrity.positions, integrity.positions⟩

section Keys

variable {β : Type} [LinearOrder β] {key : α → β}
  (compares : ∀ x y, compare x y < 0 ↔ key x < key y)

omit [DecidableEq α] in
include compares in
theorem heap_iff (sl : Pqueue α) : Heap key sl
    ↔ ∀ i, 0 < i → i < sl.list.length → ¬ compare (sl.get i) (sl.get (parentIdx i)) < 0 := by
  constructor
  · intro heap i inner inside less
    exact absurd ((compares _ _).mp less) (not_lt_of_ge (heap i inner inside))
  · intro order i inner inside
    exact le_of_not_gt fun less => order i inner inside ((compares _ _).mpr less)

omit [DecidableEq α] in
include compares in
theorem misfits_iff (sl : Pqueue α) (item : α) :
    Misfits compare sl item ↔ Misplaces key sl item := by
  unfold Misfits Misplaces keys
  rw [compares]
  rfl

include compares in
/-- Where the last item does not fit, the queue is no heap afterwards. -/
theorem smartlistPqueueRemove_not_heap {sl sl' : Pqueue α} {item : α} (indexed : Indexed sl)
    (mem : item ∈ sl.list) (heap : Heap key sl) (misplaces : Misplaces key sl item)
    (removed : smartlistPqueueRemove compare sl item = some sl') : ¬ Heap key sl' := by
  obtain ⟨i, position, inside, rfl⟩ := indexed.idx_eq mem
  obtain ⟨inner, inside', less⟩ := misplaces
  rw [position] at inner less inside'
  simp only [Int.toNat_natCast] at inside' less
  have innerI : 0 < i := by omega
  have up := BinaryHeap.parent_lt innerI
  rw [smartlistPqueueRemove_eq compare sl inside position, if_neg (by omega)] at removed
  cases removed
  have filled : keys key (fill sl i) i = keys key sl (sl.list.length - 1) := by
    apply congrArg key
    rw [fill_get sl inside' inside', if_pos rfl]
  have others : ∀ k, k < sl.list.length - 1 → k ≠ i → keys key (fill sl i) k = keys key sl k := by
    intro k insideK other
    apply congrArg key
    rw [fill_get sl inside' insideK, if_neg other]
  -- The item that was moved is below the old children of the position, so that it stays there.
  have stays : smartlistHeapify compare (fill sl i) i = fill sl i := by
    rw [smartlistHeapify]
    split
    next => rfl
    next branch =>
      rw [fill_length] at branch
      obtain ⟨_, moved⟩ := bestIdx_spec compares (fill sl i) i
      rw [if_pos]
      by_contra other
      obtain ⟨innerB, child, below, _⟩ := moved other
      have best := bestIdx_lt compare (fill sl i) i (by rw [fill_length]; omega)
      rw [fill_length] at best
      have upB := BinaryHeap.parent_lt innerB
      have held := heap _ innerB (by omega)
      have held' := heap i innerI inside
      rw [child] at held upB
      rw [filled, others _ best (by omega)] at below
      exact absurd (((held'.trans held).trans below).trans_lt less) (lt_irrefl _)
  rw [stays]
  intro after
  have order := after i innerI (by rw [fill_length]; exact inside')
  rw [filled, others _ (by omega) (by omega)] at order
  exact absurd less (not_lt_of_ge order)

end Keys

omit [DecidableEq α] in
section

variable {item : α} (integrity : Integrity compare s) {queue : Pqueue α}

include integrity

theorem Integrity.added (added : PqueueOrder.Added s.queue item queue)
    (fresh : item ∉ s.queue.list) (order : ∀ i, 0 < i → i < queue.list.length →
      ¬ compare (queue.get i) (queue.get (parentIdx i)) < 0) :
    Integrity compare ⟨queue, item :: s.added, s.taken⟩ := by
  refine ⟨order, (added.indexed fresh integrity.indexed).idx_get, ?_, ?_⟩
  · intro x member absent
    have outside : x ∉ item :: s.queue.list := fun inside => absent (added.perm.mem_iff.mpr inside)
    simp only
    rw [added.frame x outside]
    exact integrity.out x member fun inside => outside (List.mem_cons_of_mem item inside)
  · calc s.taken ++ queue.list
        _ |>.Perm (s.taken ++ item :: s.queue.list) := added.perm.append_left s.taken
        _ |>.Perm (item :: (s.taken ++ s.queue.list)) := List.perm_middle
        _ |>.Perm (item :: s.added) := integrity.contents.cons item

theorem Integrity.removed (removed : Removed s.queue item queue)
    (order : ∀ i, 0 < i → i < queue.list.length →
      ¬ compare (queue.get i) (queue.get (parentIdx i)) < 0) :
    Integrity compare ⟨queue, s.added, item :: s.taken⟩ := by
  refine ⟨order, removed.indexed.idx_get, ?_, ?_⟩
  · intro x member absent
    by_cases same : x = item
    · rw [same]
      exact removed.out
    · have taken : x ∈ s.taken := (List.mem_cons.mp member).resolve_left same
      have outside : x ∉ s.queue.list := by
        intro inside
        exact absent ((List.mem_cons.mp (removed.perm.mem_iff.mp inside)).resolve_left same)
      simp only
      rw [removed.frame x outside]
      exact integrity.out x taken outside
  · calc item :: s.taken ++ queue.list
        _ |>.Perm (s.taken ++ item :: queue.list) := List.perm_middle.symm
        _ |>.Perm (s.taken ++ s.queue.list) := removed.perm.symm.append_left s.taken
        _ |>.Perm s.added := integrity.contents

end

/-- One call on a queue with integrity: what is promised holds where the condition does, and only
there. -/
theorem pqueueStep_intact (total : TotalPreorder compare) (integrity : Integrity compare s)
    (call : PqueueCall α) (enabled : Enabled s call) :
    Intact compare ⟨s, call, pqueueExec compare call s⟩
      ↔ Fits compare ⟨s, call, pqueueExec compare call s⟩ := by
  obtain ⟨β, order, key, compares⟩ := total.exists_key
  have indexed := integrity.indexed
  have heap : Heap key s.queue := (heap_iff compares s.queue).mpr integrity.order
  cases call with
  | add item =>
    have added := smartlistPqueueAdd_added compare s.queue item
    constructor
    · intro intact inside
      have twice := nodup_of_positions intact.integrity.positions
      have both := added.perm.nodup_iff.mp twice
      exact (List.nodup_cons.mp both).1 inside
    · intro fresh
      have heap' := smartlistPqueueAdd_heap compares s.queue item heap
      exact ⟨integrity.added added fresh ((heap_iff compares _).mp heap'), nofun, nofun⟩
  | pop =>
    obtain ⟨queue, popped, removed⟩ := smartlistPqueuePop_removed compare indexed enabled
    have heap' : Heap key queue := by
      apply smartlistPqueuePop_heap compares _ popped
      intro i inside inner
      apply heap i _ inside
      unfold BinaryHeap.parent at inner
      omega
    refine ⟨fun _ => trivial, fun _ => ⟨?_, fun _ => ⟨_, _, popped, ?_⟩, nofun⟩⟩
    · have after := integrity.removed removed ((heap_iff compares _).mp heap')
      simp only [pqueueExec, popped]
      exact after
    · intro y member less
      obtain ⟨i, inside, rfl⟩ := exists_get member
      exact absurd ((compares _ _).mp less) (not_lt_of_ge (heap.root_le i inside))
  | remove item =>
    obtain ⟨queue, done, removed⟩ := smartlistPqueueRemove_removed compare indexed enabled
    have post : pqueueExec compare (.remove item) s = ⟨queue, s.added, item :: s.taken⟩ := by
      simp only [pqueueExec, done]
    rw [post]
    simp only [Fits, misfits_iff compares]
    constructor
    · intro intact misplaces
      apply smartlistPqueueRemove_not_heap compares indexed enabled heap misplaces done
      exact (heap_iff compares queue).mpr intact.integrity.order
    · intro fits
      have heap' := smartlistPqueueRemove_heap compares indexed enabled heap fits done
      refine ⟨integrity.removed removed ((heap_iff compares _).mp heap'), nofun, ?_⟩
      intro other same
      cases same
      rw [done]
      exact Option.some_ne_none queue

end Calls

/-! ## Runs -/

/-- In every run what is promised holds at each call if and only if each call meets the
condition. -/
theorem pqueueRun_intact_iff (compare : α → α → Int) (total : TotalPreorder compare) (idx : α → Int)
    (ts : List (Transition (Tracked α) (PqueueCall α))) (s : Tracked α)
    (run : Run (PqueueStep compare) (newTracked idx) ts s) :
    (∀ x ∈ ts, Intact compare x) ↔ ∀ x ∈ ts, Fits compare x := by
  apply run.sound_iff_good (newTracked_integrity idx)
  · rintro s call s' integrity ⟨enabled, rfl⟩
    exact pqueueStep_intact total integrity call enabled
  · rintro s call s' integrity ⟨enabled, rfl⟩ fits
    exact ((pqueueStep_intact total integrity call enabled).mpr fits).integrity

/-! ## An item that is moved to another subtree -/

def byValue (x y : Nat) : Int := x - y

theorem byValue_total : TotalPreorder byValue := by
  constructor
  · intro x y
    unfold byValue
    omega
  · intro x y z
    unfold byValue
    omega

/-- The last item is below the parent of the one that is removed. -/
def subtreeCalls : List (PqueueCall Nat) :=
  [.add 0, .add 10, .add 1, .add 11, .add 12, .add 2, .add 3, .remove 11]

theorem subtreeRun : Run (PqueueStep byValue) (newTracked fun _ => -1)
    (trace (pqueueExec byValue) (newTracked fun _ => -1) subtreeCalls)
    (final (pqueueExec byValue) (newTracked fun _ => -1) subtreeCalls) :=
  run_of_admissible (pqueueExec byValue) Enabled _ _ (by decide +kernel)

theorem pqueueRun_intact_iff_subtree :
    (∀ x ∈ trace (pqueueExec byValue) (newTracked fun _ => -1) subtreeCalls, Intact byValue x)
      ↔ ∀ x ∈ trace (pqueueExec byValue) (newTracked fun _ => -1) subtreeCalls, Fits byValue x :=
  pqueueRun_intact_iff byValue byValue_total _ _ _ subtreeRun

/-- The item is left below its parent. -/
theorem pqueueRun_intact_misfit :
    ¬ ∀ (compare : Nat → Nat → Int), TotalPreorder compare → ∀ idx ts s,
      Run (PqueueStep compare) (newTracked idx) ts s → ∀ x ∈ ts, Intact compare x := by
  intro always
  have intact := always byValue byValue_total _ _ _ subtreeRun
  have last : ∃ x ∈ trace (pqueueExec byValue) (newTracked fun _ => -1) subtreeCalls,
      x.post.queue.list = [0, 10, 1, 3, 12, 2] := by
    decide +kernel
  obtain ⟨x, member, list⟩ := last
  have order := (intact x member).integrity.order 3 (by decide) (by rw [list]; decide)
  simp only [Pqueue.get, list] at order
  exact order (by decide)

end RendezMix.Guarantees.PqueueIntegrity
