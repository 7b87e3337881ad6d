import RendezMix.Library.CommonSubsequences
import RendezMix.Source.ConsDiff

/-!
# The marks of a consensus diff

However two slices are split, the lines that `calc_changes` leaves unmarked are
the same ones in both, and no line outside of the slices is marked. The walk over
the router entries covers both consensuses with such slices.
-/
namespace RendezMix.Guarantees.DiffMarks

open Library.MarkedLists Source.ConsDiff

abbrev Marks := Bitarray × Bitarray

def Slice.Covers (slice : Slice) (i : Nat) : Prop :=
  slice.offset ≤ i ∧ i < slice.offset + slice.len

/-- The lines of a slice that are not marked. -/
def keptLines (slice : Slice) (changed : Bitarray) : List Line :=
  kept (smartlistGet slice.list) changed slice.offset slice.len

/-- Going from `marks` to `marks'` only marks lines of the two slices, and leaves
the same lines unmarked in both if none was marked before. -/
structure Settles (slice1 slice2 : Slice) (marks marks' : Marks) : Prop where
  outside1 : ∀ i, ¬ Slice.Covers slice1 i → marks'.1 i = marks.1 i
  outside2 : ∀ i, ¬ Slice.Covers slice2 i → marks'.2 i = marks.2 i
  same : (∀ i, Slice.Covers slice1 i → marks.1 i = false) →
    (∀ i, Slice.Covers slice2 i → marks.2 i = false) →
    keptLines slice1 marks'.1 = keptLines slice2 marks'.2

theorem Settles.symm {slice1 slice2 : Slice} {marks marks' : Marks}
    (settles : Settles slice1 slice2 marks marks') : Settles slice2 slice1 marks.swap marks'.swap :=
  ⟨settles.outside2, settles.outside1, fun clear2 clear1 => (settles.same clear1 clear2).symm⟩

/-! ## Slices of at most one line -/

theorem set_apply (bits : Bitarray) (i k : Nat) : bits.set i k = if k = i then true else bits k :=
  Function.update_apply bits i true k

theorem setUnlessSkipped_apply (toskip : Option Nat) (n offset : Nat) (changed : Bitarray)
    (k : Nat) :
    (List.range' offset n).foldl
        (fun changed i => if some i ≠ toskip then changed.set i else changed) changed k
      = if offset ≤ k ∧ k < offset + n ∧ some k ≠ toskip then true else changed k := by
  induction n generalizing offset changed with
  | zero =>
    rw [if_neg (by omega)]
    rfl
  | succ n ih =>
    rw [List.range'_succ, List.foldl_cons, ih]
    by_cases later : offset + 1 ≤ k ∧ k < offset + 1 + n ∧ some k ≠ toskip
    · rw [if_pos later, if_pos ⟨by omega, by omega, later.2.2⟩]
    · rw [if_neg later]
      by_cases first : k = offset
      · subst first
        by_cases skip : some k = toskip
        · rw [if_neg (not_not.mpr skip), if_neg fun all => all.2.2 skip]
        · rw [if_pos skip, set_apply, if_pos rfl, if_pos ⟨by omega, by omega, skip⟩]
      · have rest : ¬ (offset ≤ k ∧ k < offset + (n + 1) ∧ some k ≠ toskip) := by
          intro all
          exact later ⟨by omega, by omega, all.2.2⟩
        rw [if_neg rest]
        split
        · rw [set_apply, if_neg first]
        · rfl

theorem smartlistSliceStringPos_some {slice : Slice} {string : Line} {i : Nat}
    (found : smartlistSliceStringPos slice string = some i) :
    Slice.Covers slice i ∧ smartlistGet slice.list i = string := by
  have mem := List.mem_of_find?_eq_some found
  have eq := List.find?_some found
  rw [List.mem_range'_1] at mem
  exact ⟨mem, beq_iff_eq.mp eq⟩

section

variable (rounds : Nat) (slice1 slice2 : Slice) {list : List Line}

theorem setChanged_settles (marks : Marks) (short : slice1.len ≤ 1) :
    Settles slice1 slice2 marks (setChanged marks.1 marks.2 slice1 slice2) := by
  constructor
  · intro i outside
    simp only [setChanged]
    generalize (if slice1.len = 1 then _ else none : Option Nat) = toskip
    split
    · next only =>
      have other : i ≠ slice1.offset := by
        intro same
        exact outside ⟨by omega, by omega⟩
      rw [set_apply, if_neg other]
    · rfl
  · intro i outside
    simp only [setChanged]
    rw [setUnlessSkipped_apply, if_neg fun all => outside ⟨all.1, all.2.1⟩]
  · intro clear1 clear2
    simp only [setChanged, keptLines]
    by_cases one : slice1.len = 1
    · rw [if_pos one]
      cases found : smartlistSliceStringPos slice2 (smartlistGet slice1.list slice1.offset) with
      | none =>
        -- the only line of the first slice is gone and all of the second one are new
        rw [if_pos ⟨one, rfl⟩, kept_of_marked, kept_of_marked]
        · intro i low high
          rw [setUnlessSkipped_apply, if_pos ⟨low, high, by simp⟩]
        · intro i low high
          rw [set_apply, if_pos (by omega)]
      | some at_ =>
        obtain ⟨covered, eq⟩ := smartlistSliceStringPos_some found
        have clear : ¬ (slice1.len = 1 ∧ some at_ = none) := by simp
        rw [if_neg clear, one, kept_of_one_unmarked (Nat.le_refl _) (Nat.lt_succ_self _)
          (clear1 _ ⟨by omega, by omega⟩) fun i low high differ => by omega]
        rw [kept_of_one_unmarked covered.1 covered.2, eq]
        · rw [setUnlessSkipped_apply, if_neg fun all => all.2.2 rfl]
          exact clear2 at_ covered
        · intro i low high differ
          rw [setUnlessSkipped_apply, if_pos ⟨low, high, by simpa using differ⟩]
    · have none : slice1.len = 0 := by omega
      rw [if_neg one, if_neg fun all => one all.1, none, kept_zero, kept_of_marked]
      intro i low high
      rw [setUnlessSkipped_apply, if_pos ⟨low, high, by simp⟩]

/-! ## Trimming -/

/-- Two slices without the same number of equal lines at the front and at the end. -/
structure Trimmed (slice1 slice2 inner1 inner2 : Slice) : Prop where
  list1 : inner1.list = slice1.list
  list2 : inner2.list = slice2.list
  edges : ∃ front back, inner1.offset = slice1.offset + front
    ∧ inner2.offset = slice2.offset + front
    ∧ slice1.len = front + inner1.len + back ∧ slice2.len = front + inner2.len + back
    ∧ segment (smartlistGet slice1.list) slice1.offset front
      = segment (smartlistGet slice2.list) slice2.offset front
    ∧ segment (smartlistGet slice1.list) (inner1.offset + inner1.len) back
      = segment (smartlistGet slice2.list) (inner2.offset + inner2.len) back

theorem trimFront_trimmed :
    ∃ front, (trimFront rounds slice1 slice2).1
        = { slice1 with offset := slice1.offset + front, len := slice1.len - front }
      ∧ (trimFront rounds slice1 slice2).2
        = { slice2 with offset := slice2.offset + front, len := slice2.len - front }
      ∧ front ≤ slice1.len ∧ front ≤ slice2.len
      ∧ segment (smartlistGet slice1.list) slice1.offset front
        = segment (smartlistGet slice2.list) slice2.offset front := by
  induction rounds generalizing slice1 slice2 with
  | zero => exact ⟨0, rfl, rfl, by omega, by omega, rfl⟩
  | succ rounds ih =>
    rw [trimFront]
    split
    · next equal =>
      obtain ⟨some1, some2, equal⟩ := equal
      obtain ⟨front, first, second, in1, in2, edge⟩ :=
        ih { slice1 with offset := slice1.offset + 1, len := slice1.len - 1 }
          { slice2 with offset := slice2.offset + 1, len := slice2.len - 1 }
      simp only at first second in1 in2 edge
      refine ⟨front + 1, ?_, ?_, by omega, by omega, ?_⟩
      · rw [first]
        simp only [Slice.mk.injEq, true_and]
        omega
      · rw [second]
        simp only [Slice.mk.injEq, true_and]
        omega
      · rw [segment_succ, segment_succ, edge]
        simp only [Slice.line, Nat.add_zero] at equal
        rw [equal]
    · exact ⟨0, rfl, rfl, by omega, by omega, rfl⟩

theorem trimBack_trimmed :
    ∃ back, (trimBack rounds slice1 slice2).1 = { slice1 with len := slice1.len - back }
      ∧ (trimBack rounds slice1 slice2).2 = { slice2 with len := slice2.len - back }
      ∧ back ≤ slice1.len ∧ back ≤ slice2.len
      ∧ segment (smartlistGet slice1.list) (slice1.offset + (slice1.len - back)) back
        = segment (smartlistGet slice2.list) (slice2.offset + (slice2.len - back)) back := by
  induction rounds generalizing slice1 slice2 with
  | zero => exact ⟨0, rfl, rfl, by omega, by omega, rfl⟩
  | succ rounds ih =>
    rw [trimBack]
    split
    · next equal =>
      obtain ⟨some1, some2, equal⟩ := equal
      obtain ⟨back, first, second, in1, in2, edge⟩ :=
        ih { slice1 with len := slice1.len - 1 } { slice2 with len := slice2.len - 1 }
      simp only at first second in1 in2 edge
      have len1 : slice1.len - (back + 1) = slice1.len - 1 - back := by omega
      have len2 : slice2.len - (back + 1) = slice2.len - 1 - back := by omega
      refine ⟨back + 1, ?_, ?_, by omega, by omega, ?_⟩
      · rw [first, len1]
      · rw [second, len2]
      · have last1 : slice1.offset + (slice1.len - 1 - back) + back
            = slice1.offset + (slice1.len - 1) := by omega
        have last2 : slice2.offset + (slice2.len - 1 - back) + back
            = slice2.offset + (slice2.len - 1) := by omega
        rw [segment_snoc, segment_snoc, len1, len2, edge, last1, last2]
        simp only [Slice.line] at equal
        rw [equal]
    · exact ⟨0, rfl, rfl, by omega, by omega, rfl⟩

theorem trimSlices_trimmed :
    Trimmed slice1 slice2 (trimSlices slice1 slice2).1 (trimSlices slice1 slice2).2 := by
  obtain ⟨front, first, second, in1, in2, edge⟩ := trimFront_trimmed slice1.len slice1 slice2
  simp only [trimSlices]
  rw [first, second]
  obtain ⟨back, first, second, in3, in4, edge'⟩ := trimBack_trimmed (slice1.len - front)
    { slice1 with offset := slice1.offset + front, len := slice1.len - front }
    { slice2 with offset := slice2.offset + front, len := slice2.len - front }
  simp only at first second in3 in4 edge'
  rw [first, second]
  exact ⟨rfl, rfl, front, back, rfl, rfl, by simp only; omega, by simp only; omega, edge, edge'⟩

/-- Around the lines an inner slice keeps, all lines of a slice are kept that had
no marks before. -/
theorem keptLines_around {slice inner : Slice} {changed changed' : Bitarray} {front back : Nat}
    (list : inner.list = slice.list) (off : inner.offset = slice.offset + front)
    (len : slice.len = front + inner.len + back)
    (outside : ∀ i, ¬ Slice.Covers inner i → changed' i = changed i)
    (clear : ∀ i, Slice.Covers slice i → changed i = false) :
    keptLines slice changed' = segment (smartlistGet slice.list) slice.offset front
      ++ keptLines inner changed'
      ++ segment (smartlistGet slice.list) (inner.offset + inner.len) back := by
  have clearOut : ∀ i, slice.offset ≤ i → i < slice.offset + slice.len →
      (i < inner.offset ∨ inner.offset + inner.len ≤ i) → changed' i = false := by
    intro i low high other
    exact (outside i fun c => by have := c.1; have := c.2; omega).trans (clear i ⟨low, high⟩)
  have front' : kept (smartlistGet slice.list) changed' slice.offset front
      = segment (smartlistGet slice.list) slice.offset front :=
    kept_of_unmarked fun i low high => clearOut i (by omega) (by omega) (by omega)
  have back' : kept (smartlistGet slice.list) changed' (inner.offset + inner.len) back
      = segment (smartlistGet slice.list) (inner.offset + inner.len) back :=
    kept_of_unmarked fun i low high => clearOut i (by omega) (by omega) (by omega)
  have end_ : slice.offset + (front + inner.len) = inner.offset + inner.len := by omega
  rw [keptLines, keptLines, list, len, kept_append, kept_append, ← off, end_, front', back']

/-- The trimmed slices have no marks if the slices have none. -/
theorem Trimmed.clear {slice1 slice2 inner1 inner2 : Slice} {marks : Marks}
    (trimmed : Trimmed slice1 slice2 inner1 inner2)
    (clear1 : ∀ i, Slice.Covers slice1 i → marks.1 i = false)
    (clear2 : ∀ i, Slice.Covers slice2 i → marks.2 i = false) :
    (∀ i, Slice.Covers inner1 i → marks.1 i = false)
      ∧ ∀ i, Slice.Covers inner2 i → marks.2 i = false := by
  obtain ⟨list1, list2, front, back, off1, off2, len1, len2, edge, edge'⟩ := trimmed
  constructor
  · intro i covered
    exact clear1 i ⟨by have := covered.1; omega, by have := covered.2; omega⟩
  · intro i covered
    exact clear2 i ⟨by have := covered.1; omega, by have := covered.2; omega⟩

theorem Trimmed.settles {slice1 slice2 inner1 inner2 : Slice} {marks marks' : Marks}
    (trimmed : Trimmed slice1 slice2 inner1 inner2)
    (settles : Settles inner1 inner2 marks marks') : Settles slice1 slice2 marks marks' := by
  have clear := @Trimmed.clear _ _ _ _ marks trimmed
  obtain ⟨list1, list2, front, back, off1, off2, len1, len2, edge, edge'⟩ := trimmed
  constructor
  · intro i outside
    apply settles.outside1
    intro covered
    exact outside ⟨by have := covered.1; omega, by have := covered.2; omega⟩
  · intro i outside
    apply settles.outside2
    intro covered
    exact outside ⟨by have := covered.1; omega, by have := covered.2; omega⟩
  · intro clear1 clear2
    obtain ⟨inner1, inner2⟩ := clear clear1 clear2
    rw [keptLines_around list1 off1 len1 settles.outside1 clear1,
      keptLines_around list2 off2 len2 settles.outside2 clear2, settles.same inner1 inner2,
      edge, edge']

/-! ## Splitting -/

theorem optimalColumnToSplit_le (top bot slice2 : Slice) :
    optimalColumnToSplit top bot slice2 ≤ slice2.len := by
  have inside : ∀ (columns : List Nat) (best : Nat × Int), (∀ i ∈ columns, i ≤ slice2.len) →
      best.1 ≤ slice2.len →
      (columns.foldl (betterColumn (lcsLengths top slice2 1) (lcsLengths bot slice2 (-1))
        slice2.len) best).1 ≤ slice2.len := by
    intro columns
    induction columns with
    | nil => exact fun best _ start => start
    | cons i columns ih =>
      intro best all start
      rw [List.foldl_cons]
      apply ih _ fun k mem => all k (List.mem_cons_of_mem _ mem)
      simp only [betterColumn]
      split
      · exact all i List.mem_cons_self
      · exact start
  apply inside _ _ _ (Nat.zero_le _)
  intro i mem
  rw [List.mem_range] at mem
  omega

theorem covers_add (list : List Line) (off n m i : Nat) :
    Slice.Covers ⟨list, off, n + m⟩ i ↔
      Slice.Covers ⟨list, off, n⟩ i ∨ Slice.Covers ⟨list, off + n, m⟩ i := by
  simp only [Slice.Covers]
  omega

theorem covers_apart {off n m i : Nat} (first : Slice.Covers ⟨list, off, n⟩ i) :
    ¬ Slice.Covers ⟨list, off + n, m⟩ i := by
  simp only [Slice.Covers] at first ⊢
  omega

theorem keptLines_append {off n m : Nat} {mid changed' : Bitarray}
    (outside : ∀ i, ¬ Slice.Covers ⟨list, off + n, m⟩ i → changed' i = mid i) :
    keptLines ⟨list, off, n + m⟩ changed'
      = keptLines ⟨list, off, n⟩ mid ++ keptLines ⟨list, off + n, m⟩ changed' := by
  have unmoved : kept (smartlistGet list) changed' off n = kept (smartlistGet list) mid off n := by
    apply kept_congr
    · exact fun _ _ _ => rfl
    · intro i low high
      exact outside i (covers_apart ⟨low, high⟩)
  simp only [keptLines]
  rw [kept_append, unmoved]

theorem clear_second {off n m : Nat} {changed mid : Bitarray}
    (outside : ∀ i, ¬ Slice.Covers ⟨list, off, n⟩ i → mid i = changed i)
    (clear : ∀ i, Slice.Covers ⟨list, off, n + m⟩ i → changed i = false) (i : Nat)
    (covered : Slice.Covers ⟨list, off + n, m⟩ i) : mid i = false := by
  rw [outside i fun first => covers_apart first covered]
  exact clear i ((covers_add _ _ _ _ i).mpr (.inr covered))

end

/-- Settling the two halves of two slices one after the other settles the slices. -/
theorem Settles.append {list1 list2 : List Line} {off1 off2 n1 n2 m1 m2 : Nat}
    {marks mid marks' : Marks} (first : Settles ⟨list1, off1, n1⟩ ⟨list2, off2, n2⟩ marks mid)
    (second : Settles ⟨list1, off1 + n1, m1⟩ ⟨list2, off2 + n2, m2⟩ mid marks') :
    Settles ⟨list1, off1, n1 + m1⟩ ⟨list2, off2, n2 + m2⟩ marks marks' := by
  constructor
  · intro i outside
    rw [covers_add, not_or] at outside
    exact (second.outside1 i outside.2).trans (first.outside1 i outside.1)
  · intro i outside
    rw [covers_add, not_or] at outside
    exact (second.outside2 i outside.2).trans (first.outside2 i outside.1)
  · intro clear1 clear2
    have front := first.same (fun i c => clear1 i ((covers_add _ _ _ _ i).mpr (.inl c)))
      fun i c => clear2 i ((covers_add _ _ _ _ i).mpr (.inl c))
    have back := second.same (clear_second first.outside1 clear1)
      (clear_second first.outside2 clear2)
    rw [keptLines_append second.outside1, keptLines_append second.outside2, front, back]

theorem calcChanges_settles (slice1 slice2 : Slice) (marks : Marks) :
    Settles slice1 slice2 marks (calcChanges slice1 slice2 marks) := by
  apply (trimSlices_trimmed slice1 slice2).settles
  have shorter := trimSlices_len slice1 slice2
  rw [calcChanges]
  simp only
  generalize trimSlices slice1 slice2 = trimmed at shorter ⊢
  split
  · next short => exact setChanged_settles _ _ _ short
  · split
    · next short => exact (setChanged_settles trimmed.2 trimmed.1 marks.swap short).symm
    · next long1 long2 =>
      have column := optimalColumnToSplit_le
        (smartlistSlice trimmed.1.list trimmed.1.offset (trimmed.1.offset + trimmed.1.len / 2))
        (smartlistSlice trimmed.1.list (trimmed.1.offset + trimmed.1.len / 2)
          (trimmed.1.offset + trimmed.1.len)) trimmed.2
      generalize optimalColumnToSplit _ _ _ = mid2 at column ⊢
      simp only [smartlistSlice, Nat.add_sub_cancel_left, Nat.add_sub_add_left]
      have first := calcChanges_settles
        ⟨trimmed.1.list, trimmed.1.offset, trimmed.1.len / 2⟩
        ⟨trimmed.2.list, trimmed.2.offset, mid2⟩ marks
      have second := calcChanges_settles
        ⟨trimmed.1.list, trimmed.1.offset + trimmed.1.len / 2, trimmed.1.len - trimmed.1.len / 2⟩
        ⟨trimmed.2.list, trimmed.2.offset + mid2, trimmed.2.len - mid2⟩
        (calcChanges ⟨trimmed.1.list, trimmed.1.offset, trimmed.1.len / 2⟩
          ⟨trimmed.2.list, trimmed.2.offset, mid2⟩ marks)
      have both := first.append second
      rw [Nat.add_sub_of_le (Nat.div_le_self _ 2), Nat.add_sub_of_le column] at both
      exact both
termination_by slice1.len
decreasing_by all_goals omega

/-! ## The walk -/

/-- The walk settles the two consensuses if it settled what it has passed. -/
theorem changesBetween_settles {cons1 cons2 : List Line} (nav : Navigation) (start1 start2 : Int)
    {blank marks marks' : Marks} (in1 : nav.i1 ≤ cons1.length) (in2 : nav.i2 ≤ cons2.length)
    (at1 : start1.toNat = nav.i1.toNat) (at2 : start2.toNat = nav.i2.toNat)
    (passed : Settles ⟨cons1, 0, start1.toNat⟩ ⟨cons2, 0, start2.toNat⟩ blank marks)
    (ok : changesBetween cons1 cons2 nav start1 start2 marks = some marks') :
    Settles ⟨cons1, 0, cons1.length⟩ ⟨cons2, 0, cons2.length⟩ blank marks' := by
  rw [changesBetween] at ok
  split at ok
  · next inside =>
    split at ok
    · contradiction
    · next nav' walked =>
      obtain ⟨onward, shorter⟩ := nextMatch_onward walked
      have fewer := shorter inside
      have step1 := onward.first in1
      have step2 := onward.second in2
      split at ok
      · contradiction
      · have chunk := calcChanges_settles
          (smartlistSlice cons1 start1.toNat nav'.i1.toNat)
          (smartlistSlice cons2 start2.toNat nav'.i2.toNat) marks
        have further : Settles ⟨cons1, 0, nav'.i1.toNat⟩ ⟨cons2, 0, nav'.i2.toNat⟩ blank
            (calcChanges (smartlistSlice cons1 start1.toNat nav'.i1.toNat)
              (smartlistSlice cons2 start2.toNat nav'.i2.toNat) marks) := by
          have total1 : start1.toNat + (nav'.i1.toNat - start1.toNat) = nav'.i1.toNat := by omega
          have total2 : start2.toNat + (nav'.i2.toNat - start2.toNat) = nav'.i2.toNat := by omega
          rw [← total1, ← total2]
          apply passed.append
          rw [total1, total2, Nat.zero_add, Nat.zero_add]
          exact chunk
        exact changesBetween_settles nav' nav'.i1 nav'.i2 step1.2 step2.2 rfl rfl further ok
  · cases ok
    have end1 : start1.toNat = cons1.length := by omega
    have end2 : start2.toNat = cons2.length := by omega
    rw [← end1, ← end2]
    exact passed
termination_by nav.left cons1.length cons2.length
decreasing_by exact fewer

theorem changesBetween_kept {cons1 cons2 : List Line} {changed1 changed2 : Bitarray}
    (ok : changesBetween cons1 cons2
      { i1 := -1, i2 := -1, iter1 := routerIdIteratorInit, iter2 := routerIdIteratorInit } 0 0
      (fun _ => false, fun _ => false) = some (changed1, changed2)) :
    kept (smartlistGet cons1) changed1 0 cons1.length
      = kept (smartlistGet cons2) changed2 0 cons2.length := by
  have nothing : Settles ⟨cons1, 0, 0⟩ ⟨cons2, 0, 0⟩ (fun _ => false, fun _ => false)
      (fun _ => false, fun _ => false) :=
    ⟨fun _ _ => rfl, fun _ _ => rfl, fun _ _ => rfl⟩
  have settled := changesBetween_settles _ 0 0 (by simp only; omega) (by simp only; omega) rfl rfl
    nothing ok
  exact settled.same (fun _ _ => rfl) fun _ _ => rfl

end RendezMix.Guarantees.DiffMarks
