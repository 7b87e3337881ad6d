import RendezMix.Guarantees.DiffMarks

/-!
# Diffs are as short as possible

The lines that `calc_changes` leaves unmarked are a longest common subsequence of
the two slices: the rows of `lcs_lengths` are the lengths for all prefixes, or
for all suffixes if the slices are navigated backwards, the column of
`optimal_column_to_split` has the largest sum of both, and trimming takes only
lines that are common.
-/
namespace RendezMix.Guarantees.DiffMinimality

open Library.CommonSubsequences Library.MarkedLists Source.ConsDiff DiffMarks

/-- The lines of a slice, in order. -/
def Slice.lines (slice : Slice) : List Line :=
  segment (smartlistGet slice.list) slice.offset slice.len

/-! ## Lengths -/

theorem lcsRow_lengths {line1 : Line} {xs done rest : List Line} {prev : List Nat} {result : Nat}
    (lengths : LengthRow xs done rest prev) (start : LongestCommon result (xs ++ [line1]) done) :
    LengthRow (xs ++ [line1]) done rest (result :: lcsRow line1 rest prev result) := by
  induction lengths generalizing result with
  | last _ => exact .last start
  | @next done rest line2 diagonal row entry more ih =>
    obtain ⟨above, prev, rfl, upper⟩ := more.first
    rw [lcsRow]
    apply LengthRow.next start
    apply ih
    by_cases same : line1 = line2
    · subst same
      rw [if_pos rfl]
      exact entry.snoc_same line1
    · rw [if_neg same, Nat.max_comm]
      exact LongestCommon.snoc_other same upper start

theorem foldl_lcsRow_lengths (lines2 lines1 xs : List Line) (prev : List Nat)
    (lengths : LengthRow xs [] lines2 prev) :
    LengthRow (xs ++ lines1) [] lines2
      (lines1.foldl (fun prev line1 => 0 :: lcsRow line1 lines2 prev 0) prev) := by
  induction lines1 generalizing xs prev with
  | nil =>
    rw [List.append_nil]
    exact lengths
  | cons line1 lines1 ih =>
    rw [List.append_cons]
    exact ih _ _ (lcsRow_lengths lengths (.nil_right _))

theorem map_line_range (slice : Slice) :
    (List.range slice.len).map slice.line = Slice.lines slice :=
  (segment_eq_map_range _ _ _).symm

theorem lines_length (slice : Slice) : (Slice.lines slice).length = slice.len :=
  segment_length _ _ _

variable (list : List Line) (off : Nat) (slice1 : Slice) (n : Nat) (slice2 : Slice) (m : Nat)

theorem lines_append :
    Slice.lines ⟨list, off, n + m⟩
      = Slice.lines ⟨list, off, n⟩ ++ Slice.lines ⟨list, off + n, m⟩ :=
  segment_append _ _ _ _

theorem lines_take : (Slice.lines ⟨list, off, n + m⟩).take n = Slice.lines ⟨list, off, n⟩ := by
  rw [lines_append]
  exact List.take_left' (lines_length ⟨list, off, n⟩)

theorem lines_drop : (Slice.lines ⟨list, off, n + m⟩).drop n = Slice.lines ⟨list, off + n, m⟩ := by
  rw [lines_append]
  exact List.drop_left' (lines_length ⟨list, off, n⟩)

section

variable (i : Nat) (inside : i ≤ slice2.len)

include inside

theorem lcsLengths_forwards :
    LongestCommon ((lcsLengths slice1 slice2 1).getD i 0) (Slice.lines slice1)
      ((Slice.lines slice2).take i) := by
  have lengths := foldl_lcsRow_lengths (Slice.lines slice2) (Slice.lines slice1) [] _
    (.zeros [] (Slice.lines slice2))
  rw [lines_length] at lengths
  have entry := lengths.getD i (by rw [lines_length]; exact inside)
  rw [lcsLengths, navigated, navigated, map_line_range, map_line_range]
  exact entry

theorem lcsLengths_backwards :
    LongestCommon ((lcsLengths slice1 slice2 (-1)).getD (slice2.len - i) 0) (Slice.lines slice1)
      ((Slice.lines slice2).drop i) := by
  have lengths := foldl_lcsRow_lengths (Slice.lines slice2).reverse (Slice.lines slice1).reverse
    [] _ (.zeros [] (Slice.lines slice2).reverse)
  rw [List.length_reverse, lines_length] at lengths
  have entry := (lengths.getD (slice2.len - i)
    (by rw [List.length_reverse, lines_length]; omega)).reverse
  rw [List.nil_append, List.nil_append, List.reverse_reverse, List.take_reverse, lines_length,
    List.reverse_reverse, Nat.sub_sub_self inside] at entry
  rw [lcsLengths, navigated, navigated, map_line_range, map_line_range]
  exact entry

end

/-! ## The column of the split -/

theorem foldl_betterColumn (lensTop lensBot : List Nat) (len2 n : Nat) :
    let best := (List.range (n + 1)).foldl (betterColumn lensTop lensBot len2) (0, -1)
    best.1 ≤ n ∧ best.2 = lensTop.getD best.1 0 + lensBot.getD (len2 - best.1) 0
      ∧ ∀ i ≤ n, ((lensTop.getD i 0 + lensBot.getD (len2 - i) 0 : Nat) : Int) ≤ best.2 := by
  induction n with
  | zero =>
    simp only [List.range_succ, List.range_zero, List.nil_append, List.foldl_cons, List.foldl_nil,
      betterColumn]
    rw [if_pos (by omega)]
    refine ⟨Nat.le_refl _, rfl, ?_⟩
    intro i inside
    obtain rfl : i = 0 := Nat.le_zero.mp inside
    omega
  | succ n ih =>
    rw [List.range_succ, List.foldl_append, List.foldl_cons, List.foldl_nil]
    generalize (List.range (n + 1)).foldl (betterColumn lensTop lensBot len2) (0, -1) = best at ih ⊢
    obtain ⟨inside, sum, largest⟩ := ih
    simp only [betterColumn]
    split
    · next better =>
      refine ⟨Nat.le_refl _, rfl, ?_⟩
      intro i upTo
      rcases Nat.lt_or_eq_of_le upTo with before | rfl
      · have earlier := largest i (by omega)
        dsimp only
        omega
      · dsimp only
        omega
    · next worse =>
      refine ⟨by omega, sum, ?_⟩
      intro i upTo
      rcases Nat.lt_or_eq_of_le upTo with before | rfl
      · exact largest i (by omega)
      · omega

/-- What is common to the parts on both sides of the chosen column is as long as
what is common to the whole. -/
theorem optimalColumnToSplit_longest (top bot slice2 : Slice) {m n : Nat}
    (longest1 : LongestCommon m (Slice.lines top)
      ((Slice.lines slice2).take (optimalColumnToSplit top bot slice2)))
    (longest2 : LongestCommon n (Slice.lines bot)
      ((Slice.lines slice2).drop (optimalColumnToSplit top bot slice2))) :
    LongestCommon (m + n) (Slice.lines top ++ Slice.lines bot) (Slice.lines slice2) := by
  obtain ⟨inside, sum, largest⟩ := foldl_betterColumn (lcsLengths top slice2 1)
    (lcsLengths bot slice2 (-1)) slice2.len slice2.len
  have column : ((List.range (slice2.len + 1)).foldl (betterColumn (lcsLengths top slice2 1)
      (lcsLengths bot slice2 (-1)) slice2.len) (0, -1)).1 = optimalColumnToSplit top bot slice2 :=
    rfl
  rw [column] at inside sum
  have top' := lcsLengths_forwards top slice2 _ inside
  have bot' := lcsLengths_backwards bot slice2 _ inside
  rw [longest1.unique top', longest2.unique bot']
  apply LongestCommon.split (fun i => (lcsLengths top slice2 1).getD i 0)
    fun i => (lcsLengths bot slice2 (-1)).getD (slice2.len - i) 0
  · intro i upTo
    exact lcsLengths_forwards top slice2 i (upTo.trans_eq (lines_length slice2))
  · intro i upTo
    exact lcsLengths_backwards bot slice2 i (upTo.trans_eq (lines_length slice2))
  · rw [lines_length]
    exact inside
  · intro i upTo
    rw [lines_length] at upTo
    have atMost := largest i upTo
    omega

/-! ## The marks -/

theorem setChanged_longest (marks : Marks) (short : slice1.len ≤ 1)
    (clear1 : ∀ i, Slice.Covers slice1 i → marks.1 i = false) :
    LongestCommon (keptLines slice1 (setChanged marks.1 marks.2 slice1 slice2).1).length
      (Slice.lines slice1) (Slice.lines slice2) := by
  simp only [setChanged, keptLines, Slice.lines]
  by_cases one : slice1.len = 1
  · rw [if_pos one, one, segment_succ, segment_zero]
    cases found : smartlistSliceStringPos slice2 (smartlistGet slice1.list slice1.offset) with
    | none =>
      rw [if_pos ⟨rfl, rfl⟩, kept_of_marked]
      · apply LongestCommon.singleton_not_mem
        intro mem
        obtain ⟨i, inside, same⟩ := List.mem_map.mp mem
        have differ := List.find?_eq_none.mp found i inside
        rw [beq_iff_eq] at differ
        exact differ same
      · intro i low high
        rw [set_apply, if_pos (by omega)]
    | some at_ =>
      obtain ⟨covered, eq⟩ := smartlistSliceStringPos_some found
      rw [if_neg (by simp), kept_of_one_unmarked (Nat.le_refl _) (Nat.lt_succ_self _)
        (clear1 _ ⟨by omega, by omega⟩) fun i low high differ => by omega]
      apply LongestCommon.singleton
      rw [← eq]
      exact List.mem_map_of_mem (List.mem_range'_1.mpr covered)
  · have none : slice1.len = 0 := by omega
    rw [none, kept_zero, segment_zero]
    exact .nil_left _

/-- What an inner slice has most in common with another one grows by the trimmed
lines. -/
theorem Trimmed.longest {slice1 slice2 inner1 inner2 : Slice} {marks marks' : Marks}
    (trimmed : Trimmed slice1 slice2 inner1 inner2)
    (outside1 : ∀ i, ¬ Slice.Covers inner1 i → marks'.1 i = marks.1 i)
    (clear1 : ∀ i, Slice.Covers slice1 i → marks.1 i = false)
    (longest : LongestCommon (keptLines inner1 marks'.1).length (Slice.lines inner1)
      (Slice.lines inner2)) :
    LongestCommon (keptLines slice1 marks'.1).length (Slice.lines slice1)
      (Slice.lines slice2) := by
  obtain ⟨list1, list2, front, back, off1, off2, len1, len2, edge, edge'⟩ := trimmed
  have end1 : slice1.offset + (front + inner1.len) = inner1.offset + inner1.len := by omega
  have end2 : slice2.offset + (front + inner2.len) = inner2.offset + inner2.len := by omega
  have wider := (longest.append_left (segment (smartlistGet slice1.list) slice1.offset front))
    |>.append_right (segment (smartlistGet slice1.list) (inner1.offset + inner1.len) back)
  have lines1 : Slice.lines slice1 = segment (smartlistGet slice1.list) slice1.offset front
      ++ Slice.lines inner1
      ++ segment (smartlistGet slice1.list) (inner1.offset + inner1.len) back := by
    rw [Slice.lines, Slice.lines, list1, len1, segment_append, segment_append, ← off1, end1]
  have lines2 : Slice.lines slice2 = segment (smartlistGet slice1.list) slice1.offset front
      ++ Slice.lines inner2
      ++ segment (smartlistGet slice1.list) (inner1.offset + inner1.len) back := by
    rw [Slice.lines, Slice.lines, list2, len2, segment_append, segment_append, ← off2, end2, edge,
      edge']
  rw [keptLines_around list1 off1 len1 outside1 clear1, lines1, lines2, List.length_append,
    List.length_append]
  exact wider

/-- `calc_changes` leaves as many lines unmarked as the slices have in common. -/
theorem calcChanges_longest (slice1 slice2 : Slice) (marks : Marks)
    (clear1 : ∀ i, Slice.Covers slice1 i → marks.1 i = false)
    (clear2 : ∀ i, Slice.Covers slice2 i → marks.2 i = false) :
    LongestCommon (keptLines slice1 (calcChanges slice1 slice2 marks).1).length
      (Slice.lines slice1) (Slice.lines slice2) := by
  have trimmed := trimSlices_trimmed slice1 slice2
  have shorter := trimSlices_len slice1 slice2
  have settled := calcChanges_settles slice1 slice2 marks
  obtain ⟨clearIn1, clearIn2⟩ := trimmed.clear clear1 clear2
  rw [calcChanges] at settled ⊢
  simp only at settled ⊢
  generalize trimSlices slice1 slice2 = inner at *
  split
  · next short =>
    have inside := setChanged_settles inner.1 inner.2 marks short
    exact Trimmed.longest trimmed inside.outside1 clear1
      (setChanged_longest _ _ marks short clearIn1)
  · split
    · next short =>
      have inside := (setChanged_settles inner.2 inner.1 marks.swap short).symm
      apply Trimmed.longest trimmed inside.outside1 clear1
      rw [inside.same clearIn1 clearIn2]
      exact (setChanged_longest inner.2 inner.1 marks.swap short clearIn2).symm
    · next long1 long2 =>
      obtain ⟨⟨list1, off1, n1⟩, ⟨list2, off2, n2⟩⟩ := inner
      have least : 0 < n1 / 2 ∧ n1 / 2 < n1 := by
        simp only at long1
        omega
      simp only at shorter
      simp only [smartlistSlice, Nat.add_sub_cancel_left]
      generalize n1 / 2 = half at least ⊢
      obtain ⟨rest1, rfl⟩ := Nat.exists_eq_add_of_le least.2.le
      simp only [Nat.add_sub_add_left, Nat.add_sub_cancel_left]
      have column := optimalColumnToSplit_le ⟨list1, off1, half⟩ ⟨list1, off1 + half, rest1⟩
        ⟨list2, off2, n2⟩
      have common := @optimalColumnToSplit_longest ⟨list1, off1, half⟩
        ⟨list1, off1 + half, rest1⟩ ⟨list2, off2, n2⟩
      generalize optimalColumnToSplit _ _ _ = mid2 at column common ⊢
      simp only at column
      obtain ⟨rest2, rfl⟩ := Nat.exists_eq_add_of_le column
      simp only [Nat.add_sub_cancel_left]
      have first := calcChanges_settles ⟨list1, off1, half⟩ ⟨list2, off2, mid2⟩ marks
      have second := calcChanges_settles ⟨list1, off1 + half, rest1⟩ ⟨list2, off2 + mid2, rest2⟩
        (calcChanges ⟨list1, off1, half⟩ ⟨list2, off2, mid2⟩ marks)
      apply Trimmed.longest trimmed (first.append second).outside1 clear1
      rw [keptLines_append second.outside1, List.length_append, lines_append]
      apply common
      · rw [lines_take]
        apply calcChanges_longest
        · exact fun i c => clearIn1 i ((covers_add _ _ _ _ i).mpr (.inl c))
        · exact fun i c => clearIn2 i ((covers_add _ _ _ _ i).mpr (.inl c))
      · rw [lines_drop]
        apply calcChanges_longest
        · exact clear_second first.outside1 clearIn1
        · exact clear_second first.outside2 clearIn2
termination_by slice1.len
decreasing_by all_goals simp only at *; omega

/-- The lines that `calc_changes` leaves unmarked are the same ones in both slices
and as many as a longest common subsequence has, and no bit outside is touched. -/
theorem calcChanges_minimal (slice1 slice2 : Slice) (changed1 changed2 : Bitarray)
    (clear1 : ∀ i, Slice.Covers slice1 i → changed1 i = false)
    (clear2 : ∀ i, Slice.Covers slice2 i → changed2 i = false) :
    let changed := calcChanges slice1 slice2 (changed1, changed2)
    keptLines slice1 changed.1 = keptLines slice2 changed.2
      ∧ LongestCommon (keptLines slice1 changed.1).length (Slice.lines slice1)
        (Slice.lines slice2)
      ∧ (∀ i, ¬ Slice.Covers slice1 i → changed.1 i = changed1 i)
      ∧ ∀ i, ¬ Slice.Covers slice2 i → changed.2 i = changed2 i := by
  have settled := calcChanges_settles slice1 slice2 (changed1, changed2)
  exact ⟨settled.same clear1 clear2,
    calcChanges_longest slice1 slice2 (changed1, changed2) clear1 clear2,
    settled.outside1, settled.outside2⟩

/-- The last two of three lines against a changed copy of them. -/
theorem calcChanges_minimal_twoLines :
    LongestCommon
      (keptLines ⟨[ascii ['a'], ascii ['b'], ascii ['c']], 1, 2⟩
        (calcChanges ⟨[ascii ['a'], ascii ['b'], ascii ['c']], 1, 2⟩
          ⟨[ascii ['c'], ascii ['d']], 0, 2⟩ (fun i => i == 0, fun _ => false)).1).length
      [ascii ['b'], ascii ['c']] [ascii ['c'], ascii ['d']] :=
  (calcChanges_minimal ⟨[ascii ['a'], ascii ['b'], ascii ['c']], 1, 2⟩
    ⟨[ascii ['c'], ascii ['d']], 0, 2⟩ (fun i => i == 0) (fun _ => false)
    (fun i covered => by simp only [Slice.Covers] at covered; simp only [beq_eq_false_iff_ne]; omega)
    fun _ _ => rfl).2.1

end RendezMix.Guarantees.DiffMinimality
