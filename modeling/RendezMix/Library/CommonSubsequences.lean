import Mathlib.Data.List.Basic

/-!
# Longest common subsequences

The length of a longest common subsequence of two lists: how it changes when
elements are added in front or at the end, the table of it over all prefixes of
the second list, and the column at which the second list is best split when the
first one is.
-/
namespace RendezMix.Library.CommonSubsequences

variable {α : Type}

/-- `n` is the length of a longest common subsequence. -/
structure LongestCommon (n : Nat) (xs ys : List α) : Prop where
  reached : ∃ common : List α, common.Sublist xs ∧ common.Sublist ys ∧ common.length = n
  bound : ∀ common : List α, common.Sublist xs → common.Sublist ys → common.length ≤ n

section

variable {m n : Nat} {xs ys : List α}

theorem LongestCommon.unique (first : LongestCommon m xs ys) (second : LongestCommon n xs ys) :
    m = n := by
  obtain ⟨common, sub1, sub2, rfl⟩ := first.reached
  obtain ⟨common', sub1', sub2', rfl⟩ := second.reached
  exact Nat.le_antisymm (second.bound common sub1 sub2) (first.bound common' sub1' sub2')

section

variable (longest : LongestCommon n xs ys)

include longest

theorem LongestCommon.symm : LongestCommon n ys xs := by
  obtain ⟨common, sub1, sub2, length⟩ := longest.reached
  exact ⟨⟨common, sub2, sub1, length⟩, fun c sub2 sub1 => longest.bound c sub1 sub2⟩

theorem LongestCommon.reverse : LongestCommon n xs.reverse ys.reverse := by
  obtain ⟨common, sub1, sub2, length⟩ := longest.reached
  constructor
  · exact ⟨common.reverse, sub1.reverse, sub2.reverse, by rw [List.length_reverse, length]⟩
  · intro c sub1 sub2
    rw [← List.length_reverse]
    apply longest.bound
    · rw [← List.reverse_reverse xs]
      exact sub1.reverse
    · rw [← List.reverse_reverse ys]
      exact sub2.reverse

end

section

variable {y x : α}

theorem LongestCommon.nil_left (ys : List α) : LongestCommon 0 [] ys := by
  constructor
  · exact ⟨[], List.nil_sublist _, List.nil_sublist _, rfl⟩
  · intro common sub1 _
    rw [List.sublist_nil.mp sub1]
    exact Nat.le_refl _

theorem LongestCommon.nil_right (xs : List α) : LongestCommon 0 xs [] :=
  (LongestCommon.nil_left xs).symm

/-! ## Adding elements -/

theorem LongestCommon.cons_same (x : α) (longest : LongestCommon n xs ys) :
    LongestCommon (n + 1) (x :: xs) (x :: ys) := by
  obtain ⟨common, sub1, sub2, length⟩ := longest.reached
  constructor
  · exact ⟨x :: common, sub1.cons_cons x, sub2.cons_cons x, by rw [List.length_cons, length]⟩
  · intro c sub1 sub2
    have shorter := longest.bound c.tail sub1.tail sub2.tail
    rw [List.length_tail] at shorter
    omega

theorem LongestCommon.cons_other (other : x ≠ y) (without1 : LongestCommon m xs (y :: ys))
    (without2 : LongestCommon n (x :: xs) ys) : LongestCommon (max m n) (x :: xs) (y :: ys) := by
  constructor
  · rcases Nat.le_total n m with le | le
    · obtain ⟨common, sub1, sub2, length⟩ := without1.reached
      exact ⟨common, sub1.cons x, sub2, by omega⟩
    · obtain ⟨common, sub1, sub2, length⟩ := without2.reached
      exact ⟨common, sub1, sub2.cons y, by omega⟩
  · intro c sub1 sub2
    rcases List.sublist_cons_iff.mp sub1 with inner1 | ⟨rest, rfl, _⟩
    · exact Nat.le_trans (without1.bound c inner1 sub2) (Nat.le_max_left _ _)
    · rcases List.sublist_cons_iff.mp sub2 with inner2 | ⟨rest', same, _⟩
      · exact Nat.le_trans (without2.bound _ sub1 inner2) (Nat.le_max_right _ _)
      · exact absurd (List.cons.inj same).1 other

theorem LongestCommon.snoc_same (x : α) (longest : LongestCommon n xs ys) :
    LongestCommon (n + 1) (xs ++ [x]) (ys ++ [x]) := by
  have reversed := (longest.reverse.cons_same x).reverse
  rw [List.reverse_cons, List.reverse_cons, List.reverse_reverse, List.reverse_reverse] at reversed
  exact reversed

theorem LongestCommon.snoc_other (other : x ≠ y) (without1 : LongestCommon m xs (ys ++ [y]))
    (without2 : LongestCommon n (xs ++ [x]) ys) :
    LongestCommon (max m n) (xs ++ [x]) (ys ++ [y]) := by
  have front1 := without1.reverse
  have front2 := without2.reverse
  rw [List.reverse_append, List.reverse_singleton, List.singleton_append] at front1 front2
  have reversed := (LongestCommon.cons_other other front1 front2).reverse
  rw [List.reverse_cons, List.reverse_cons, List.reverse_reverse, List.reverse_reverse] at reversed
  exact reversed

/-- Equal fronts are common. -/
theorem LongestCommon.append_left (front : List α) (longest : LongestCommon n xs ys) :
    LongestCommon (front.length + n) (front ++ xs) (front ++ ys) := by
  induction front with
  | nil =>
    rw [List.length_nil, Nat.zero_add]
    exact longest
  | cons x front ih =>
    rw [List.length_cons, Nat.add_right_comm]
    exact ih.cons_same x

/-- Equal ends are common. -/
theorem LongestCommon.append_right (back : List α) (longest : LongestCommon n xs ys) :
    LongestCommon (n + back.length) (xs ++ back) (ys ++ back) := by
  have reversed := (longest.reverse.append_left back.reverse).reverse
  rw [← List.reverse_append, ← List.reverse_append, List.reverse_reverse, List.reverse_reverse,
    List.length_reverse, Nat.add_comm] at reversed
  exact reversed

theorem LongestCommon.singleton (mem : x ∈ ys) : LongestCommon 1 [x] ys := by
  constructor
  · exact ⟨[x], List.Sublist.refl _, List.singleton_sublist.mpr mem, rfl⟩
  · exact fun common sub1 _ => sub1.length_le

theorem LongestCommon.singleton_not_mem (absent : x ∉ ys) : LongestCommon 0 [x] ys := by
  constructor
  · exact ⟨[], List.nil_sublist _, List.nil_sublist _, rfl⟩
  · intro common sub1 sub2
    rcases List.sublist_singleton.mp sub1 with rfl | rfl
    · exact Nat.le_refl _
    · exact absurd (List.singleton_sublist.mp sub2) absent

end

end

/-! ## Splitting -/

section

variable {row : List Nat}

/-- If the first list is split and the lengths for both parts are known for every
column of the second list, then the column with the largest sum gives the length
for the whole. -/
theorem LongestCommon.split {top bot ys : List α} (tops bots : Nat → Nat) {column : Nat}
    (inTop : ∀ i ≤ ys.length, LongestCommon (tops i) top (ys.take i))
    (inBot : ∀ i ≤ ys.length, LongestCommon (bots i) bot (ys.drop i)) (inside : column ≤ ys.length)
    (best : ∀ i ≤ ys.length, tops i + bots i ≤ tops column + bots column) :
    LongestCommon (tops column + bots column) (top ++ bot) ys := by
  constructor
  · obtain ⟨front, front1, front2, frontLength⟩ := (inTop column inside).reached
    obtain ⟨back, back1, back2, backLength⟩ := (inBot column inside).reached
    refine ⟨front ++ back, front1.append back1, ?_, ?_⟩
    · conv => arg 2; rw [← List.take_append_drop column ys]
      exact front2.append back2
    · rw [List.length_append, frontLength, backLength]
  · intro common sub1 sub2
    obtain ⟨front, back, rfl, front1, back1⟩ := List.sublist_append_iff.mp sub1
    obtain ⟨left, right, rfl, front2, back2⟩ := List.append_sublist_iff.mp sub2
    have within : left.length ≤ (left ++ right).length := by
      rw [List.length_append]
      omega
    have top' := inTop left.length within
    have bot' := inBot left.length within
    rw [List.take_left] at top'
    rw [List.drop_left] at bot'
    calc (front ++ back).length = front.length + back.length := List.length_append
      _ ≤ tops left.length + bots left.length :=
        Nat.add_le_add (top'.bound front front1 front2) (bot'.bound back back1 back2)
      _ ≤ tops column + bots column := best left.length within

/-! ## Tables -/

/-- A row of the table of lengths: the ones for `xs` and all prefixes of the
second list, of which `done` lies before the row and `rest` under it. -/
inductive LengthRow (xs : List α) : List α → List α → List Nat → Prop where
  | last {done : List α} {n : Nat} (entry : LongestCommon n xs done) : LengthRow xs done [] [n]
  | next {done rest : List α} {y : α} {n : Nat} {row : List Nat} (entry : LongestCommon n xs done)
      (more : LengthRow xs (done ++ [y]) rest row) : LengthRow xs done (y :: rest) (n :: row)

/-- No subsequence is common with the empty list. -/
theorem LengthRow.zeros (done rest : List α) :
    LengthRow [] done rest (List.replicate (rest.length + 1) 0) := by
  induction rest generalizing done with
  | nil => exact .last (.nil_left done)
  | cons y rest ih => exact .next (.nil_left done) (ih _)

theorem LengthRow.first {xs done rest : List α} (lengths : LengthRow xs done rest row) :
    ∃ n row', row = n :: row' ∧ LongestCommon n xs done := by
  cases lengths with
  | last entry | next entry _ => exact ⟨_, _, rfl, entry⟩

theorem LengthRow.getD {xs done rest : List α} (lengths : LengthRow xs done rest row) (i : Nat)
    (inside : i ≤ rest.length) : LongestCommon (row.getD i 0) xs (done ++ rest.take i) := by
  induction lengths generalizing i with
  | last entry =>
    obtain rfl : i = 0 := Nat.le_zero.mp inside
    rw [List.take_nil, List.append_nil]
    exact entry
  | next entry more ih =>
    cases i with
    | zero =>
      rw [List.take_zero, List.append_nil]
      exact entry
    | succ i =>
      have later := ih i (Nat.le_of_succ_le_succ inside)
      rw [List.append_assoc] at later
      exact later

end

end RendezMix.Library.CommonSubsequences

/-!
# Edits by line number

The commands of a line editor and what they make of a document. Lines are
numbered from one, and line zero is the position before the first line. An edit
whose lines all lie in the front part of a document leaves the rest as it is.
-/
namespace RendezMix.Library.LineEdits

variable {Line : Type}

/-- One command with its addresses, and the text it brings. -/
inductive Edit (Line : Type) where
  | append (line : Nat) (text : List Line)
  | change (start end_ : Nat) (text : List Line)
  | delete (start end_ : Nat)
  deriving DecidableEq

/-- A document with its lines from `start` to `end_` replaced by a text. There is
nothing to remove at line zero. -/
def replaceLines (start end_ : Nat) (text document : List Line) : List Line :=
  document.take (start - 1) ++ text ++ document.drop end_

/-- What an edit makes of a document. An address behind its last line, or a range
that ends before it starts, is an error. -/
def Edit.run : Edit Line → List Line → Option (List Line)
  | .append line text, document =>
      if line ≤ document.length then some (document.take line ++ text ++ document.drop line)
      else none
  | .change start end_ text, document =>
      if start ≤ end_ ∧ end_ ≤ document.length then some (replaceLines start end_ text document)
      else none
  | .delete start end_, document =>
      if start ≤ end_ ∧ end_ ≤ document.length then some (replaceLines start end_ [] document)
      else none

/-- The edits of a script, one after another. -/
def runScript : List (Edit Line) → List Line → Option (List Line)
  | [], document => some document
  | edit :: script, document =>
      match edit.run document with
      | none => none
      | some document => runScript script document

theorem runScript_cons {edit : Edit Line} {document document' : List Line}
    (script : List (Edit Line)) (ran : edit.run document = some document') :
    runScript (edit :: script) document = runScript script document' := by
  rw [runScript, ran]

section

variable {start end_ : Nat} (text : List Line) {front : List Line} (rest : List Line)

theorem replaceLines_front (range : start ≤ end_) (inside : end_ ≤ front.length) :
    replaceLines start end_ text (front ++ rest)
      = front.take (start - 1) ++ text ++ front.drop end_ ++ rest := by
  rw [replaceLines, List.take_append_of_le_length (by omega), List.drop_append_of_le_length inside,
    List.append_assoc _ _ rest]

theorem Edit.run_append_front {line : Nat} (inside : line ≤ front.length) :
    (Edit.append line text).run (front ++ rest)
      = some (front.take line ++ text ++ front.drop line ++ rest) := by
  rw [Edit.run, if_pos (by rw [List.length_append]; omega), List.take_append_of_le_length inside,
    List.drop_append_of_le_length inside, List.append_assoc _ _ rest]

section

variable (range : start ≤ end_) (inside : end_ ≤ front.length)

include range inside

theorem Edit.run_change_front :
    (Edit.change start end_ text).run (front ++ rest)
      = some (front.take (start - 1) ++ text ++ front.drop end_ ++ rest) := by
  rw [Edit.run, if_pos ⟨range, by rw [List.length_append]; omega⟩,
    replaceLines_front text rest range inside]

theorem Edit.run_delete_front :
    (Edit.delete start end_).run (front ++ rest)
      = some (front.take (start - 1) ++ front.drop end_ ++ rest) := by
  rw [Edit.run, if_pos ⟨range, by rw [List.length_append]; omega⟩,
    replaceLines_front [] rest range inside, List.append_nil]

end

end

end RendezMix.Library.LineEdits

/-!
# Marked sequences

A sequence with some positions marked: the elements of a range, and those of
them that are not marked.
-/
namespace RendezMix.Library.MarkedLists

variable {α : Type}

/-- The elements at the `n` positions from `offset` on. -/
def segment (f : Nat → α) (offset n : Nat) : List α := (List.range' offset n).map f

/-- The unmarked elements at the `n` positions from `offset` on. -/
def kept (f : Nat → α) (marked : Nat → Bool) (offset n : Nat) : List α :=
  ((List.range' offset n).filter fun i => !marked i).map f

section

variable (f : Nat → α) (marked : Nat → Bool) (offset n : Nat)

@[simp] theorem segment_length : (segment f offset n).length = n := by
  rw [segment, List.length_map, List.length_range']

@[simp] theorem segment_zero : segment f offset 0 = [] := rfl

theorem segment_succ : segment f offset (n + 1) = f offset :: segment f (offset + 1) n := by
  rw [segment, List.range'_succ, List.map_cons, segment]

theorem segment_append (m n : Nat) :
    segment f offset (m + n) = segment f offset m ++ segment f (offset + m) n := by
  rw [segment, segment, segment, ← List.map_append, List.range'_append_1]

theorem segment_snoc : segment f offset (n + 1) = segment f offset n ++ [f (offset + n)] :=
  segment_append f offset n 1

theorem segment_eq_map_range : segment f offset n = (List.range n).map fun i => f (offset + i) := by
  rw [segment, List.range'_eq_map_range, List.map_map]
  rfl

theorem getElem_segment (i : Nat) (inside : i < (segment f offset n).length) :
    (segment f offset n)[i] = f (offset + i) := by
  simp [segment]

/-- A list is the segment of all its positions. -/
theorem segment_getD (xs : List α) (fill : α) :
    segment (fun i => xs.getD i fill) 0 xs.length = xs := by
  apply List.ext_getElem
  · rw [segment_length]
  · intro i _ inside
    simp [segment, inside]

@[simp] theorem kept_zero : kept f marked offset 0 = [] := rfl

theorem kept_append (m n : Nat) :
    kept f marked offset (m + n) = kept f marked offset m ++ kept f marked (offset + m) n := by
  rw [kept, kept, kept, ← List.map_append, ← List.filter_append, List.range'_append_1]

theorem kept_snoc :
    kept f marked offset (n + 1)
      = kept f marked offset n ++ if marked (offset + n) then [] else [f (offset + n)] := by
  rw [kept_append]
  cases mark : marked (offset + n) <;> simp [kept, mark]

end

section

variable {f : Nat → α} {marked : Nat → Bool} {offset n : Nat}

/-- What is kept depends on the elements and the marks of the range only. -/
theorem kept_congr {f g : Nat → α} {marked marked' : Nat → Bool}
    (elements : ∀ i, offset ≤ i → i < offset + n → f i = g i)
    (marks : ∀ i, offset ≤ i → i < offset + n → marked i = marked' i) :
    kept f marked offset n = kept g marked' offset n := by
  induction n with
  | zero => rfl
  | succ n ih =>
    rw [kept_snoc, kept_snoc, elements (offset + n) (by omega) (by omega),
      marks (offset + n) (by omega) (by omega)]
    rw [ih (fun i low high => elements i low (by omega)) fun i low high =>
      marks i low (by omega)]

theorem kept_of_unmarked (unmarked : ∀ i, offset ≤ i → i < offset + n → marked i = false) :
    kept f marked offset n = segment f offset n := by
  rw [kept, segment, List.filter_eq_self.mpr]
  intro i mem
  rw [List.mem_range'_1] at mem
  rw [unmarked i mem.1 mem.2]
  rfl

theorem kept_of_marked (all : ∀ i, offset ≤ i → i < offset + n → marked i = true) :
    kept f marked offset n = [] := by
  rw [kept, List.filter_eq_nil_iff.mpr, List.map_nil]
  intro i mem
  rw [List.mem_range'_1] at mem
  rw [all i mem.1 mem.2]
  exact Bool.false_ne_true

/-- Where one position of a range is unmarked, its element is all that is kept. -/
theorem kept_of_one_unmarked {offset n at_ : Nat} (low : offset ≤ at_) (high : at_ < offset + n)
    (one : marked at_ = false)
    (others : ∀ i, offset ≤ i → i < offset + n → i ≠ at_ → marked i = true) :
    kept f marked offset n = [f at_] := by
  obtain ⟨before, rfl⟩ := Nat.exists_eq_add_of_le low
  obtain ⟨after, rfl⟩ : ∃ after, n = before + 1 + after := ⟨n - before - 1, by omega⟩
  rw [kept_append, kept_snoc, one]
  rw [kept_of_marked fun i l h => others i l (by omega) (by omega)]
  rw [kept_of_marked fun i l h => others i (by omega) (by omega) (by omega)]
  rfl

end

end RendezMix.Library.MarkedLists
