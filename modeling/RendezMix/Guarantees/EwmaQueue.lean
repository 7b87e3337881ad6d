import RendezMix.Source.Circuitmux
import RendezMix.Guarantees.PqueueOrder

/-!
# The queue of active circuits

What the EWMA policy does to its queue, for each of its methods: the circuits in
it, their positions, and the tick that their counts are scaled to. `Served` says
that the queue is a heap for the counts; only taking out a circuit may break it.
-/
namespace RendezMix.Guarantees.EwmaQueue

open Library Source.SmartlistPqueue Source.CircuitmuxEwma PqueueOrder

/-- The queue holds the circuit data `refs`, each once and at the position it
stores, with counts of the policy's tick. -/
structure Queued (pol : EwmaPolicyData) (mem : EwmaMemory) (refs : List EwmaRef) : Prop where
  indexed : Indexed (pqueueOf pol mem)
  perm : pol.activeCircuitPqueue.Perm refs
  ticks : ∀ r ∈ refs, mem.lastAdjustedTick r = pol.lastRecalibrated

/-- The data of no circuit but `refs` are written, apart from their counts. -/
structure Framed (refs : List EwmaRef) (mem mem' : EwmaMemory) : Prop where
  circ : mem'.circ = mem.circ
  next : mem'.next = mem.next
  heapIndex : ∀ r, r ∉ refs → mem'.heapIndex r = mem.heapIndex r

/-- No circuit in the queue has a smaller count than the one above it. -/
def Served (pol : EwmaPolicyData) (mem : EwmaMemory) : Prop :=
  Heap mem.cellCount (pqueueOf pol mem)

theorem compareCellEwmaCounts_lt (mem : EwmaMemory) (x y : EwmaRef) :
    compareCellEwmaCounts mem x y < 0 ↔ mem.cellCount x < mem.cellCount y := by
  unfold compareCellEwmaCounts
  split
  · next less => simp [less]
  · next notLess =>
    split
    · simp [notLess]
    · simp [notLess]

section

variable {pol : EwmaPolicyData} {mem : EwmaMemory}

theorem Queued.of_perm {refs refs' : List EwmaRef} (queued : Queued pol mem refs)
    (perm : refs.Perm refs') : Queued pol mem refs' :=
  ⟨queued.indexed, queued.perm.trans perm, fun r inside =>
    queued.ticks r (perm.mem_iff.mpr inside)⟩

theorem Served.congr {mem mem' : EwmaMemory} (served : Served pol mem)
    (same : ∀ r ∈ pol.activeCircuitPqueue, mem'.cellCount r = mem.cellCount r) :
    Served pol mem' := by
  apply BinaryHeap.Ordered.congr served
  intro i inside
  exact same _ (get_mem (pqueueOf pol mem) inside)

theorem Served.head_le (served : Served pol mem) {first r : EwmaRef}
    (head : pol.activeCircuitPqueue.head? = some first) (inside : r ∈ pol.activeCircuitPqueue) :
    mem.cellCount first ≤ mem.cellCount r := by
  have member : r ∈ (pqueueOf pol mem).list := inside
  obtain ⟨i, bound, rfl⟩ := exists_get member
  have atHead : (pqueueOf pol mem).get 0 = first := by
    simp only [Pqueue.get, pqueueOf, List.getD_eq_getElem?_getD, ← List.head?_eq_getElem?, head,
      Option.getD_some]
  rw [← atHead]
  exact BinaryHeap.Ordered.root_le served i bound

end

/-! ## Into the queue and out of it -/

variable (pow : Rat → Rat → Rat)

section

variable (g : EwmaGlobals) {pol : EwmaPolicyData} {mem : EwmaMemory} {refs : List EwmaRef}
  {r : EwmaRef}

theorem addCellEwma_queued (queued : Queued pol mem refs) (fresh : r ∉ refs)
    (out : mem.heapIndex r = -1) :
    ∃ pol' mem', addCellEwma pow g pol mem r = some (pol', mem') ∧ Queued pol' mem' (r :: refs)
      ∧ Framed (r :: refs) mem mem' ∧ (Served pol mem → Served pol' mem') := by
  have absent : r ∉ pol.activeCircuitPqueue := fun inside => fresh (queued.perm.mem_iff.mp inside)
  have added := smartlistPqueueAdd_added
    (compareCellEwmaCounts (scaleSingleCellEwma pow g mem r pol.lastRecalibrated))
    (pqueueOf pol (scaleSingleCellEwma pow g mem r pol.lastRecalibrated)) r
  refine ⟨_, _, if_pos out, ?_, ?_, ?_⟩
  · constructor
    · exact added.indexed absent queued.indexed
    · exact added.perm.trans (queued.perm.cons r)
    · intro y inside
      rcases List.mem_cons.mp inside with rfl | earlier
      · exact Function.update_self ..
      · have other : y ≠ r := fun same => fresh (same ▸ earlier)
        exact (Function.update_of_ne other ..).trans (queued.ticks y earlier)
  · constructor
    · rfl
    · rfl
    · intro y outside
      apply added.frame y
      intro inside
      exact outside ((queued.perm.cons r).mem_iff.mp inside)
  · intro served
    apply smartlistPqueueAdd_heap (compareCellEwmaCounts_lt _)
    apply served.congr
    intro y inside
    have other : y ≠ r := fun same => absent (same ▸ inside)
    exact Function.update_of_ne other ..

theorem removeCellEwma_queued {refs rest : List EwmaRef} (queued : Queued pol mem refs)
    (perm : refs.Perm (r :: rest)) :
    ∃ pol' mem', removeCellEwma pol mem r = some (pol', mem') ∧ Queued pol' mem' rest
      ∧ Framed refs mem mem' ∧ mem'.heapIndex r = -1
      ∧ (Served pol mem → ¬ Misplaces mem.cellCount (pqueueOf pol mem) r →
          Served pol' mem') := by
  have inside : r ∈ (pqueueOf pol mem).list :=
    (queued.perm.trans perm).mem_iff.mpr (List.mem_cons_self ..)
  obtain ⟨sl, result, removed⟩ :=
    smartlistPqueueRemove_removed (compareCellEwmaCounts mem) queued.indexed inside
  have positioned : mem.heapIndex r ≠ -1 := by
    obtain ⟨i, position, -⟩ := queued.indexed.idx_eq inside
    have same : mem.heapIndex r = i := position
    omega
  refine ⟨(withPqueue pol mem sl).1, (withPqueue pol mem sl).2, ?_, ?_, ?_, removed.out, ?_⟩
  · rw [removeCellEwma, if_pos positioned, result]
    rfl
  · constructor
    · exact removed.indexed
    · exact (removed.perm.symm.trans (queued.perm.trans perm)).cons_inv
    · intro y left
      exact queued.ticks y (perm.mem_iff.mpr (List.mem_cons_of_mem r left))
  · constructor
    · rfl
    · rfl
    · intro y outside
      apply removed.frame y
      intro member
      exact outside (queued.perm.mem_iff.mp member)
  · intro served fits
    exact smartlistPqueueRemove_heap (compareCellEwmaCounts_lt mem) queued.indexed inside served
      fits result

/-! ## Transmission -/

/-- The counts of `refs` were multiplied by `factor` and belong to the tick `curTick`. -/
structure Rescaled (refs : List EwmaRef) (factor : Rat) (curTick : UInt32)
    (mem mem' : EwmaMemory) : Prop where
  circ : mem'.circ = mem.circ
  next : mem'.next = mem.next
  heapIndex : mem'.heapIndex = mem.heapIndex
  scaled : ∀ r ∈ refs, mem'.cellCount r = mem.cellCount r * factor
    ∧ mem'.lastAdjustedTick r = curTick
  others : ∀ r, r ∉ refs → mem'.cellCount r = mem.cellCount r
    ∧ mem'.lastAdjustedTick r = mem.lastAdjustedTick r

theorem scaleEach_rescaled (recalibrated curTick : UInt32) (factor : Rat) (refs : List EwmaRef)
    (mem : EwmaMemory) (nodup : refs.Nodup)
    (ticks : ∀ r ∈ refs, mem.lastAdjustedTick r = recalibrated) :
    ∃ mem', scaleEach recalibrated curTick factor refs mem = some mem'
      ∧ Rescaled refs factor curTick mem mem' := by
  induction refs generalizing mem with
  | nil => exact ⟨mem, rfl, rfl, rfl, rfl, by simp, fun _ _ => ⟨rfl, rfl⟩⟩
  | cons r rest ih =>
    obtain ⟨fresh, restNodup⟩ := List.nodup_cons.mp nodup
    have unscaled : ∀ y ∈ rest,
        (rescale mem r factor curTick).lastAdjustedTick y = recalibrated := by
      intro y inside
      have other : y ≠ r := fun same => fresh (same ▸ inside)
      exact (Function.update_of_ne other ..).trans (ticks y (List.mem_cons_of_mem r inside))
    obtain ⟨mem', result, tail⟩ := ih (rescale mem r factor curTick) restNodup unscaled
    refine ⟨mem', ?_, tail.circ, tail.next, tail.heapIndex, ?_, ?_⟩
    · rw [scaleEach, if_pos (ticks r (List.mem_cons_self ..)), result]
    · intro y inside
      by_cases same : y = r
      · subst same
        obtain ⟨count, tick⟩ := tail.others y fresh
        rw [count, tick]
        exact ⟨Function.update_self .., Function.update_self ..⟩
      · obtain ⟨count, tick⟩ := tail.scaled y ((List.mem_cons.mp inside).resolve_left same)
        rw [count, tick]
        exact ⟨congrArg (· * factor) (Function.update_of_ne same ..), rfl⟩
    · intro y outside
      obtain ⟨other, left⟩ := List.ne_and_not_mem_of_not_mem_cons outside
      obtain ⟨count, tick⟩ := tail.others y left
      rw [count, tick]
      exact ⟨Function.update_of_ne other .., Function.update_of_ne other ..⟩

/-- A power of a positive number is positive. -/
def Positive : Prop := ∀ b e, 0 < b → 0 < pow b e

theorem rescaleIfNeeded_queued (tick : UInt32) (queued : Queued pol mem refs) :
    ∃ pol' mem', rescaleIfNeeded pow g pol mem tick = some (pol', mem')
      ∧ Queued pol' mem' refs ∧ Framed refs mem mem'
      ∧ pol'.activeCircuitPqueue = pol.activeCircuitPqueue
      ∧ (Positive pow → 0 < g.ewmaScaleFactor → Served pol mem → Served pol' mem') := by
  by_cases needed : tick ≠ pol.lastRecalibrated
  · have ticks : ∀ r ∈ pol.activeCircuitPqueue, mem.lastAdjustedTick r = pol.lastRecalibrated :=
      fun r inside => queued.ticks r (queued.perm.mem_iff.mp inside)
    obtain ⟨mem', result, rescaled⟩ := scaleEach_rescaled pol.lastRecalibrated tick
      (getScaleFactor pow g pol.lastRecalibrated tick) pol.activeCircuitPqueue mem
      queued.indexed.nodup ticks
    have sameQueue : pqueueOf { pol with lastRecalibrated := tick } mem' = pqueueOf pol mem := by
      simp only [pqueueOf, rescaled.heapIndex]
    refine ⟨{ pol with lastRecalibrated := tick }, mem', ?_, ?_, ?_, rfl, ?_⟩
    · simp only [rescaleIfNeeded, if_pos needed, scaleActiveCircuits, result, Option.map_some]
    · constructor
      · rw [sameQueue]
        exact queued.indexed
      · exact queued.perm
      · intro r inside
        exact (rescaled.scaled r (queued.perm.mem_iff.mpr inside)).2
    · exact ⟨rescaled.circ, rescaled.next, fun r _ => congrFun rescaled.heapIndex r⟩
    · intro positive scale served
      have factor := positive g.ewmaScaleFactor
        ((tick - pol.lastRecalibrated).toInt32.toInt : Int) scale
      intro i inner inside
      have below := served i inner inside
      have up := BinaryHeap.parent_lt inner
      simp only [keys, sameQueue] at inside ⊢
      rw [(rescaled.scaled _ (get_mem (pqueueOf pol mem) inside)).1,
        (rescaled.scaled _ (get_mem (pqueueOf pol mem) (by omega))).1]
      exact mul_le_mul_of_nonneg_right below factor.le
  · refine ⟨pol, mem, if_neg needed, queued, ⟨rfl, rfl, fun _ _ => rfl⟩, rfl, ?_⟩
    exact fun _ _ served => served

/-- The first circuit is popped and added again with a new count. -/
theorem requeue_queued (increment : Rat) (queued : Queued pol mem refs)
    (head : pol.activeCircuitPqueue.head? = some r) :
    ∃ mid midMem pol' mem',
      popFirstCellEwma pol (addToCount mem r increment) = some (r, mid, midMem)
      ∧ addCellEwma pow g mid midMem r = some (pol', mem')
      ∧ Queued pol' mem' refs ∧ Framed refs mem mem' ∧ (Served pol mem → Served pol' mem') := by
  have filled : (pqueueOf pol mem).list ≠ [] := by
    intro empty
    simp only [pqueueOf] at empty
    simp [empty] at head
  have atHead : (pqueueOf pol mem).get 0 = r := by
    simp only [Pqueue.get, pqueueOf, List.getD_eq_getElem?_getD, ← List.head?_eq_getElem?, head,
      Option.getD_some]
  have positive : 0 < (pqueueOf pol mem).list.length := List.length_pos_iff.mpr filled
  obtain ⟨sl, popped, removed⟩ := smartlistPqueuePop_removed
    (compareCellEwmaCounts (addToCount mem r increment)) queued.indexed filled
  rw [atHead] at popped removed
  have gone : r ∉ sl.list := removed.not_mem queued.indexed
  have midQueued : Queued (withPqueue pol (addToCount mem r increment) sl).1
      (withPqueue pol (addToCount mem r increment) sl).2 sl.list := by
    constructor
    · exact removed.indexed
    · exact List.Perm.refl _
    · intro y left
      have kept := removed.perm.mem_iff.mpr (List.mem_cons_of_mem r left)
      exact queued.ticks y (queued.perm.mem_iff.mp kept)
  obtain ⟨pol', mem', added, queued', framed, heap⟩ :=
    addCellEwma_queued pow g midQueued gone removed.out
  have whole : (r :: sl.list).Perm refs := removed.perm.symm.trans queued.perm
  refine ⟨_, _, pol', mem', ?_, added, queued'.of_perm whole, ?_, ?_⟩
  · simp only [popFirstCellEwma]
    rw [show pqueueOf pol (addToCount mem r increment) = pqueueOf pol mem from rfl, popped]
    rfl
  · constructor
    · exact framed.circ
    · exact framed.next
    · intro y outside
      rw [framed.heapIndex y fun member => outside (whole.mem_iff.mp member)]
      exact removed.frame y fun member => outside (queued.perm.mem_iff.mp member)
  · intro served
    apply heap
    apply smartlistPqueuePop_heap (compareCellEwmaCounts_lt (addToCount mem r increment)) _ popped
    intro i bound inner
    have nonzero : 0 < i := by
      unfold BinaryHeap.parent at inner
      omega
    have up := BinaryHeap.parent_lt nonzero
    have kept : ∀ j, 0 < j → j < (pqueueOf pol mem).list.length →
        (addToCount mem r increment).cellCount ((pqueueOf pol mem).get j)
          = mem.cellCount ((pqueueOf pol mem).get j) := by
      intro j above boundJ
      apply Function.update_of_ne
      intro same
      exact absurd (queued.indexed.get_inj boundJ positive (same.trans atHead.symm)) (by omega)
    simp only [keys]
    rw [kept i nonzero bound, kept _ inner (by omega)]
    exact served i nonzero bound

theorem currentTick_settings :
    (cellEwmaGetCurrentTickAndFraction g).2.2.ewmaScaleFactor = g.ewmaScaleFactor
      ∧ (cellEwmaGetCurrentTickAndFraction g).2.2.ewmaTickLen = g.ewmaTickLen := by
  simp only [cellEwmaGetCurrentTickAndFraction]
  split
  · exact ⟨rfl, rfl⟩
  · exact ⟨rfl, rfl⟩

theorem ewmaNotifyXmitCells_queued {nCells : UInt32} (queued : Queued pol mem refs)
    (head : pol.activeCircuitPqueue.head? = some r) (some_ : nCells > 0) :
    ∃ g' pol' mem', ewmaNotifyXmitCells pow g pol mem r nCells = some (g', pol', mem')
      ∧ Queued pol' mem' refs ∧ Framed refs mem mem'
      ∧ g'.ewmaScaleFactor = g.ewmaScaleFactor ∧ g'.ewmaTickLen = g.ewmaTickLen
      ∧ (Positive pow → 0 < g.ewmaScaleFactor → Served pol mem → Served pol' mem') := by
  obtain ⟨tick, fraction, g', current⟩ :
      ∃ tick fraction g', cellEwmaGetCurrentTickAndFraction g = (tick, fraction, g') :=
    ⟨_, _, _, rfl⟩
  have settings := currentTick_settings g
  rw [current] at settings
  obtain ⟨polR, memR, rescaled, queuedR, framedR, sameQueue, servedR⟩ :=
    rescaleIfNeeded_queued pow g' tick queued
  rw [← sameQueue] at head
  obtain ⟨mid, midMem, pol', mem', popped, added, queued', framed, served'⟩ :=
    requeue_queued pow g' ((nCells.toNat : Rat) * pow g'.ewmaScaleFactor (-fraction)) queuedR head
  refine ⟨g', pol', mem', ?_, queued', ?_, settings.1, settings.2, ?_⟩
  · simp [ewmaNotifyXmitCells, current, torAssert, some_, rescaled, popped, added]
  · constructor
    · exact framed.circ.trans framedR.circ
    · exact framed.next.trans framedR.next
    · intro y outside
      exact (framed.heapIndex y outside).trans (framedR.heapIndex y outside)
  · intro positive scale served
    exact served' (servedR positive (settings.1 ▸ scale) served)

end

end RendezMix.Guarantees.EwmaQueue
