import Mathlib.Data.List.TakeWhile
import RendezMix.Guarantees.DiffMarks

/-!
# Generated diffs lead to their targets

A generated ed diff, applied to the base consensus, gives the target consensus,
unless the signatures of the base are one single line: the range of the command
that deletes them then ends where it starts, and such ranges are not accepted.
-/
namespace RendezMix.Guarantees.DiffRoundTrip

open Library.Decimals Library.MarkedLists Source.ConsDiff Source.EdApply DiffMarks

/-! ## Commands -/

variable (len1 start : Nat) (cons1 cons : List Line) (n end_ : Nat) (byte : UInt8)
  {action : Action}

theorem getLinenum_decimal (rest : Line) (bound : n ≤ int32Max)
    (ends : ∀ byte, rest.head? = some byte → isDigit byte = false) :
    getLinenum (decimal n ++ rest) = some (n, rest) := by
  rw [getLinenum, readDecimal_decimal n rest ends]
  exact if_pos bound

/-- The characters commands consist of besides digits. -/
def Letter (byte : UInt8) : Prop := byte = 36 ∨ byte = 44 ∨ byte = 97 ∨ byte = 99 ∨ byte = 100

theorem Letter.notDigit {byte : UInt8} (letter : Letter byte) : isDigit byte = false := by
  rcases letter with rfl | rfl | rfl | rfl | rfl <;> rfl

theorem letter_of_readAction {byte : UInt8} (read : readAction byte = some action) :
    Letter byte := by
  unfold readAction at read
  split at read
  · exact .inr (.inr (.inl rfl))
  · exact .inr (.inr (.inr (.inl rfl)))
  · exact .inr (.inr (.inr (.inr rfl)))
  · contradiction

theorem decimal_cons : ∃ d ds, decimal n = d :: ds ∧ isDigit d = true := by
  cases digits : decimal n with
  | nil => exact absurd digits (decimal_ne_nil n)
  | cons d ds => exact ⟨d, ds, rfl, decimal_isDigit n d (digits ▸ List.mem_cons_self)⟩

theorem readRange_single (bound : n ≤ int32Max) (read : readAction byte = some action) :
    readRange len1 (decimal n ++ [byte])
      = some ({ start := n, end_ := n, hadRange := false, endWasEof := false }, [byte]) := by
  have letter := letter_of_readAction read
  have notComma : byte ≠ 44 := by
    rintro rfl
    cases read
  rw [readRange, getLinenum_decimal n [byte] bound]
  · simp only
    split
    · next same => exact absurd (List.cons.inj same).1 notComma
    · next same => exact absurd (List.cons.inj same).1 notComma
    · rfl
  · intro b same
    cases same
    exact letter.notDigit

theorem readRange_pair (range : start < end_) (bound : end_ ≤ int32Max)
    (read : readAction byte = some action) :
    readRange len1 (decimal start ++ 44 :: (decimal end_ ++ [byte]))
      = some ({ start, end_, hadRange := true, endWasEof := false }, [byte]) := by
  have letter := letter_of_readAction read
  have second : getLinenum (decimal end_ ++ [byte]) = some (end_, [byte]) := by
    apply getLinenum_decimal end_ [byte] bound
    intro b same
    cases same
    exact letter.notDigit
  rw [readRange, getLinenum_decimal start _ (by omega)]
  · simp only
    split
    · next same =>
      obtain ⟨d, ds, digits, digit⟩ := decimal_cons end_
      rw [digits] at same
      cases same
      cases digit
    · next same =>
      cases same
      rw [second]
      exact if_neg (by omega)
    · next same => exact absurd rfl (same _)
  · intro b same
    cases same
    rfl

theorem readRange_eof (bound : start ≤ int32Max) :
    readRange len1 (decimal start ++ [44, 36, 100])
      = if len1 ≤ start then none
        else some ({ start, end_ := len1, hadRange := true, endWasEof := true }, [100]) := by
  have read : getLinenum (decimal start ++ [44, 36, 100]) = some (start, [44, 36, 100]) := by
    apply getLinenum_decimal start _ bound
    intro b same
    cases same
    rfl
  rw [readRange, read]
  rfl

theorem takeWhile_command {line : Line} (all : ∀ b ∈ line, isDigit b = true ∨ Letter b) :
    line.takeWhile (· != 0) = line := by
  rw [List.takeWhile_eq_self_iff]
  intro b mem
  rw [bne_iff_ne]
  rintro rfl
  rcases all 0 mem with digit | zero | zero | zero | zero | zero
  · cases digit
  all_goals cases zero

theorem command_chars (letter : Letter byte) :
    ∀ b ∈ decimal start ++ 44 :: (decimal end_ ++ [byte]), isDigit b = true ∨ Letter b := by
  intro b mem
  rw [List.mem_append, List.mem_cons, List.mem_append, List.mem_singleton] at mem
  rcases mem with digit | rfl | digit | rfl
  · exact .inl (decimal_isDigit start b digit)
  · exact .inr (.inr (.inl rfl))
  · exact .inl (decimal_isDigit end_ b digit)
  · exact .inr letter

theorem decimal_short {n : Nat} (bound : n ≤ int32Max) : (decimal n).length ≤ 10 := by
  apply decimal_length_le n 10 (by omega)
  have small : int32Max < 10 ^ 10 := by decide
  omega

theorem readCommand_single (j : Int) (byte : UInt8) (bound : n ≤ int32Max)
    (sorted : (n : Int) ≤ j) (read : readAction byte = some action) :
    readCommand len1 j (decimal n ++ [byte])
      = some ({ start := n, end_ := n, hadRange := false, endWasEof := false }, action) := by
  have short := decimal_short bound
  have chars : ∀ b ∈ decimal n ++ [byte], isDigit b = true ∨ Letter b := by
    intro b mem
    rcases List.mem_append.mp mem with digit | last
    · exact .inl (decimal_isDigit n b digit)
    · cases List.mem_singleton.mp last
      exact .inr (letter_of_readAction read)
  rw [readCommand, if_neg (by rw [List.length_append, List.length_singleton]; omega),
    takeWhile_command chars, readRange_single len1 n byte bound read]
  simp only
  rw [if_neg (by omega), read]
  simp

theorem readCommand_pair (j : Int) (byte : UInt8) (range : start < end_) (bound : end_ ≤ int32Max)
    (sorted : (end_ : Int) ≤ j) (read : readAction byte = some action) (notAdd : action ≠ .add) :
    readCommand len1 j (decimal start ++ 44 :: (decimal end_ ++ [byte]))
      = some ({ start, end_, hadRange := true, endWasEof := false }, action) := by
  have short1 := decimal_short (Nat.le_trans range.le bound)
  have short2 := decimal_short bound
  have short : ¬ (decimal start ++ 44 :: (decimal end_ ++ [byte])).length > 127 := by
    rw [List.length_append, List.length_cons, List.length_append, List.length_singleton]
    omega
  rw [readCommand, if_neg short,
    takeWhile_command (command_chars start end_ byte (letter_of_readAction read)),
    readRange_pair len1 start end_ byte range bound read]
  simp only
  rw [if_neg (by omega), read]
  simp [notAdd]

theorem readCommand_eof (bound : start ≤ int32Max) :
    readCommand len1 len1 (decimal start ++ ascii [',', '$', 'd'])
      = if len1 ≤ start then none
        else some ({ start, end_ := len1, hadRange := true, endWasEof := true }, .delete) := by
  have short := decimal_short bound
  have chars : ∀ b ∈ decimal start ++ [44, 36, 100], isDigit b = true ∨ Letter b := by
    intro b mem
    rcases List.mem_append.mp mem with digit | last
    · exact .inl (decimal_isDigit start b digit)
    · right
      simp only [List.mem_cons, List.not_mem_nil, or_false] at last
      rcases last with rfl | rfl | rfl
      · exact .inr (.inl rfl)
      · exact .inl rfl
      · exact .inr (.inr (.inr (.inr rfl)))
  have text : ascii [',', '$', 'd'] = [44, 36, 100] := rfl
  have short : ¬ (decimal start ++ [44, 36, 100]).length > 127 := by
    rw [List.length_append, List.length_cons, List.length_cons, List.length_singleton]
    omega
  rw [text, readCommand, if_neg short, takeWhile_command chars, readRange_eof len1 start bound]
  by_cases short : len1 ≤ start
  · rw [if_pos short, if_pos short]
  · rw [if_neg short, if_neg short]
    simp only
    rw [if_neg (by omega)]
    rfl

section

variable (j : Nat)

/-- A chunk's command is read as the lines it replaces and the way it does. -/
theorem readCommand_edCommand (left deleted added : Nat) (j : Int)
    (change : deleted ≠ 0 ∨ added ≠ 0) (bound : left + deleted ≤ int32Max)
    (sorted : ((left + deleted : Nat) : Int) ≤ j) :
    ∃ range action, readCommand len1 j (edCommand left deleted added) = some (range, action)
      ∧ range.end_ = left + deleted ∧ (deleted ≠ 0 → range.start = left + 1)
      ∧ (action = .add ↔ deleted = 0) ∧ (action = .delete ↔ added = 0) := by
  have pair : ∀ byte : UInt8, decimal (left + 1) ++ ascii [','] ++ decimal (left + deleted) ++ [byte]
      = decimal (left + 1) ++ 44 :: (decimal (left + deleted) ++ [byte]) := by
    intro byte
    rw [List.append_assoc, List.append_assoc]
    rfl
  unfold edCommand
  by_cases noneAdded : added = 0
  · rw [if_pos noneAdded]
    by_cases one : deleted = 1
    · subst one
      rw [if_pos rfl]
      exact ⟨_, .delete, readCommand_single len1 (left + 1) j 100 bound sorted rfl,
        rfl, fun _ => rfl, by simp, by simp [noneAdded]⟩
    · rw [if_neg one]
      refine ⟨_, .delete, (congrArg _ (pair 100)).trans (readCommand_pair len1 (left + 1)
        (left + deleted) j 100 (by omega) bound sorted rfl (by simp)), rfl, fun _ => rfl, ?_, ?_⟩
      · simp only [reduceCtorEq, false_iff]
        omega
      · simp [noneAdded]
  · rw [if_neg noneAdded]
    by_cases zero : deleted = 0
    · subst zero
      rw [if_pos rfl]
      exact ⟨_, .add, readCommand_single len1 left j 97 bound sorted rfl,
        rfl, fun some_ => absurd rfl some_, by simp, by simp [noneAdded]⟩
    · rw [if_neg zero]
      by_cases one : deleted = 1
      · subst one
        rw [if_pos rfl]
        exact ⟨_, .change, readCommand_single len1 (left + 1) j 99 bound sorted rfl,
          rfl, fun _ => rfl, by simp, by simp [noneAdded]⟩
      · rw [if_neg one]
        exact ⟨_, .change, (congrArg _ (pair 99)).trans (readCommand_pair len1 (left + 1)
          (left + deleted) j 99 (by omega) bound sorted rfl (by simp)), rfl, fun _ => rfl,
          by simp [zero], by simp [noneAdded]⟩

/-! ## Application -/

theorem addUnchanged_spec (cons2 : List Line) (above : end_ ≤ j) :
    addUnchanged cons1 end_ j cons2
      = (end_, cons2 ++ (segment (smartlistGet cons1) end_ (j - end_)).reverse) := by
  induction j generalizing cons2 with
  | zero =>
    obtain rfl : end_ = 0 := by omega
    simp [addUnchanged]
  | succ j ih =>
    rw [addUnchanged]
    split
    · next more =>
      have length : j + 1 - end_ = (j - end_) + 1 := by omega
      have last : end_ + (j - end_) = j := by omega
      rw [ih _ (by omega), length, segment_snoc, last, List.reverse_append, List.reverse_singleton,
        List.append_assoc]
    · obtain rfl : end_ = j + 1 := by omega
      simp

theorem ignoreRemoved_spec (above : start ≤ j) : ignoreRemoved (start + 1) (j + 1) = start := by
  induction j with
  | zero =>
    obtain rfl : start = 0 := by omega
    rfl
  | succ j ih =>
    rw [ignoreRemoved]
    split
    · exact ih (by omega)
    · obtain rfl : start = j + 1 := by omega
      rfl

theorem readInserted_append (lines rest : List Line) (noDot : ascii ['.'] ∉ lines) :
    readInserted (lines ++ ascii ['.'] :: rest) = some (lines, rest) := by
  induction lines with
  | nil => exact if_pos rfl
  | cons line lines ih =>
    rw [List.mem_cons, not_or] at noDot
    rw [List.cons_append, readInserted, if_neg fun same => noDot.1 same.symm, ih noDot.2]
    rfl

/-- Applying one chunk of a diff: the lines down to the chunk are kept, and those
of the chunk are replaced. -/
theorem applyCommands_chunk {cons2 chunk : List Line} {left deleted left2 added j : Nat}
    (commands collected : List Line) (emitted : edChunk cons2 left deleted left2 added = some chunk)
    (change : deleted ≠ 0 ∨ added ≠ 0) (bound : j ≤ int32Max) (sorted : left + deleted ≤ j) :
    applyCommands cons1 (chunk ++ commands) j collected
      = applyCommands cons1 commands left (collected
          ++ (segment (smartlistGet cons1) (left + deleted) (j - (left + deleted))).reverse
          ++ (segment (smartlistGet cons2) left2 added).reverse) := by
  obtain ⟨range, action, read, last, first, isAdd, isDelete⟩ :=
    readCommand_edCommand cons1.length left deleted added j change (by omega) (by omega)
  have down : (if action = .add then ((left + deleted : Nat) : Int)
      else ignoreRemoved range.start (left + deleted)) = left := by
    by_cases zero : deleted = 0
    · rw [if_pos (isAdd.mpr zero), zero]
      rfl
    · obtain ⟨n, rfl⟩ := Nat.exists_eq_succ_of_ne_zero zero
      rw [if_neg fun add => zero (isAdd.mp add), first zero]
      exact ignoreRemoved_spec left (left + n) (by omega)
  have unchanged := addUnchanged_spec cons1 (left + deleted) j collected sorted
  simp only [edChunk] at emitted
  split at emitted
  · next noneAdded =>
    cases emitted
    rw [List.singleton_append, applyCommands, read]
    simp only [last, Int.toNat_natCast, unchanged, down]
    rw [if_pos (isDelete.mpr noneAdded), noneAdded, segment_zero, List.reverse_nil,
      List.append_nil]
  · next someAdded =>
    split at emitted
    · contradiction
    · next noDot =>
      cases emitted
      have notNil : (List.range' left2 added).map (smartlistGet cons2) ≠ [] := by
        rw [Ne, List.map_eq_nil_iff, List.range'_eq_nil_iff]
        exact someAdded
      have inserted := readInserted_append _ commands noDot
      rw [List.append_assoc, List.cons_append, List.singleton_append, applyCommands, read]
      simp only [last, Int.toNat_natCast, unchanged, down]
      rw [if_neg fun delete => someAdded (isDelete.mp delete)]
      split
      · next fails => rw [inserted] at fails; contradiction
      · next lines rest found =>
        rw [inserted] at found
        cases found
        rw [if_neg notNil]
        rfl

theorem grabChanged_marked (changed : Bitarray) (n i : Nat) (above : grabChanged changed n ≤ i)
    (below : i < n) : changed i = true := by
  induction n with
  | zero => omega
  | succ n ih =>
    rw [grabChanged] at above
    split at above
    · next mark =>
      by_cases last : i = n
      · rw [last, mark]
      · exact ih above (by omega)
    · omega

theorem kept_grabChanged (f : Nat → Line) (changed : Bitarray) (n : Nat) :
    kept f changed 0 (grabChanged changed n) = kept f changed 0 n := by
  have le := grabChanged_le changed n
  have total : grabChanged changed n + (n - grabChanged changed n) = n := by omega
  have none : kept f changed (0 + grabChanged changed n) (n - grabChanged changed n) = [] :=
    kept_of_marked fun i low high => grabChanged_marked changed n i (by omega) (by omega)
  conv_rhs => rw [← total, kept_append, none, List.append_nil]

/-- Applying the commands for the first `n1` and `n2` lines, the base consensus
being used up down to `j`, gives the first `n2` lines of the target, what lies
between `n1` and `j`, and what was collected before. -/
theorem applyCommands_edCommands (cons1 : List Line) {cons2 : List Line}
    {changed1 changed2 : Bitarray} (n1 n2 : Nat) {j : Nat} {commands : List Line}
    (collected : List Line) (emitted : edCommands cons2 changed1 changed2 n1 n2 = some commands)
    (bound : j ≤ int32Max) (sorted : n1 ≤ j)
    (same : kept (smartlistGet cons1) changed1 0 n1 = kept (smartlistGet cons2) changed2 0 n2) :
    applyCommands cons1 commands j collected
      = some (segment (smartlistGet cons2) 0 n2 ++ segment (smartlistGet cons1) n1 (j - n1)
        ++ collected.reverse) := by
  rw [edCommands] at emitted
  split at emitted
  · next done =>
    obtain ⟨rfl, rfl⟩ := done
    cases emitted
    rw [applyCommands, Int.toNat_natCast, addUnchanged_spec cons1 0 j collected (Nat.zero_le j)]
    simp
  · next more =>
    split at emitted
    · -- the last lines of both are unmarked, and so they are the same line
      next unmarked =>
      cases n1 with
      | zero =>
        obtain ⟨m2, rfl⟩ := Nat.exists_eq_succ_of_ne_zero (by omega : n2 ≠ 0)
        have clear2 : changed2 (0 + m2) = false := by
          rw [Nat.zero_add]
          simpa using unmarked.2
        rw [Nat.succ_eq_add_one, kept_snoc, kept_zero, clear2] at same
        simp at same
      | succ m1 =>
        have clear1 : changed1 (0 + m1) = false := by
          rw [Nat.zero_add]
          simpa using unmarked.1
        cases n2 with
        | zero =>
          rw [kept_snoc, kept_zero, clear1] at same
          simp at same
        | succ m2 =>
          have clear2 : changed2 (0 + m2) = false := by
            rw [Nat.zero_add]
            simpa using unmarked.2
          rw [kept_snoc, kept_snoc, clear1, clear2] at same
          obtain ⟨front, last⟩ := List.append_inj' same rfl
          simp only [Bool.false_eq_true, if_false, List.cons.injEq, and_true, Nat.zero_add] at last
          have rest := applyCommands_edCommands cons1 m1 m2 collected emitted bound
            (by omega : m1 ≤ j) front
          have length : j - m1 = (j - (m1 + 1)) + 1 := by omega
          rw [rest, length, segment_succ, last, segment_snoc, Nat.zero_add]
          simp
    · next marked =>
      have le1 := grabChanged_le changed1 n1
      have le2 := grabChanged_le changed2 n2
      simp only at emitted
      split at emitted
      · contradiction
      · next chunk emittedChunk =>
        obtain ⟨rest, emittedRest, rfl⟩ := Option.map_eq_some_iff.mp emitted
        have change : n1 - grabChanged changed1 n1 ≠ 0 ∨ n2 - grabChanged changed2 n2 ≠ 0 := by
          by_cases mark1 : 0 < n1 ∧ changed1 (n1 - 1)
          · have := grabChanged_lt changed1 n1 mark1
            omega
          · have mark2 := not_not.mp fun unmarked => marked ⟨mark1, unmarked⟩
            have := grabChanged_lt changed2 n2 mark2
            omega
        have fewer : grabChanged changed1 n1 + grabChanged changed2 n2 < n1 + n2 := by omega
        have total1 : grabChanged changed1 n1 + (n1 - grabChanged changed1 n1) = n1 := by omega
        have total2 : 0 + grabChanged changed2 n2 + (n2 - grabChanged changed2 n2) = n2 := by omega
        have chunkApplied := applyCommands_chunk cons1 rest collected
          emittedChunk change bound (by omega)
        rw [total1] at chunkApplied
        have restApplied := applyCommands_edCommands cons1 _ _ (collected
            ++ (segment (smartlistGet cons1) n1 (j - n1)).reverse
            ++ (segment (smartlistGet cons2) (grabChanged changed2 n2)
              (n2 - grabChanged changed2 n2)).reverse) emittedRest (by omega) (Nat.le_refl _) ((kept_grabChanged _ _ _).trans
            (same.trans (kept_grabChanged _ _ _).symm))
        rw [chunkApplied, restApplied]
        conv_rhs => rw [← total2, Nat.zero_add, segment_append, Nat.zero_add]
        simp
termination_by n1 + n2

/-! ## Whole diffs -/

/-- The last line is the first one of the signatures. -/
def OneLineTail (cons : List Line) : Prop :=
  ∃ front line, cons = front ++ [line] ∧ lineStartsWithStr line startOfSignaturesSection = true
    ∧ ∀ other ∈ front, lineStartsWithStr other startOfSignaturesSection = false

theorem oneLineTail_iff : OneLineTail cons ↔ dirsigIdx cons + 1 = cons.length := by
  constructor
  · rintro ⟨front, line, rfl, starts, others⟩
    have first : dirsigIdx (front ++ [line]) = front.length := by
      rw [dirsigIdx, List.findIdx_append, if_neg, List.findIdx_singleton, if_pos starts,
        Nat.zero_add]
      · rw [List.findIdx_lt_length]
        rintro ⟨other, mem, found⟩
        rw [others other mem] at found
        contradiction
    rw [first, List.length_append, List.length_singleton]
  · intro last
    have inside : dirsigIdx cons < cons.length := by omega
    refine ⟨cons.take (dirsigIdx cons), cons[dirsigIdx cons], ?_, ?_, ?_⟩
    · conv_lhs => rw [← List.take_append_drop (dirsigIdx cons) cons,
        List.drop_eq_getElem_cons inside, List.drop_eq_nil_of_le (by omega)]
    · exact List.findIdx_getElem
    · intro other mem
      obtain ⟨i, below, rfl⟩ := List.mem_take_iff_getElem.mp mem
      have early : i < dirsigIdx cons := by omega
      exact List.not_of_lt_findIdx early

theorem smartlistGet_take (i : Nat) (below : i < n) :
    smartlistGet (cons.take n) i = smartlistGet cons i := by
  rw [smartlistGet, smartlistGet, List.getD_eq_getElem?_getD, List.getD_eq_getElem?_getD,
    List.getElem?_take_of_lt below]

theorem segment_smartlistGet : segment (smartlistGet cons) 0 cons.length = cons :=
  segment_getD cons []

theorem applyCommands_changes {cons1 cons2 commands : List Line} {changed1 changed2 : Bitarray}
    (inside : n ≤ cons1.length) (fits : cons1.length ≤ int32Max)
    (walked : changesBetween (cons1.take n) cons2
      { i1 := -1, i2 := -1, iter1 := routerIdIteratorInit, iter2 := routerIdIteratorInit } 0 0
      (fun _ => false, fun _ => false) = some (changed1, changed2))
    (emitted : edCommands cons2 changed1 changed2 n cons2.length = some commands) :
    applyCommands cons1 commands n [] = some cons2 := by
  have same := changesBetween_kept walked
  rw [List.length_take_of_le inside] at same
  rw [kept_congr (fun i _ below => smartlistGet_take cons1 n i (by omega)) fun _ _ _ => rfl] at same
  have applied := applyCommands_edCommands cons1 n cons2.length [] emitted (by omega)
    (Nat.le_refl n) same
  rw [applied, segment_smartlistGet]
  simp

end

/-- Applying a generated diff fails or gives the target, as the signatures of the
base are one single line or not. -/
theorem applyEdDiff_generated {cons1 cons2 diff : List Line} (fits : cons1.length ≤ int32Max)
    (generated : genEdDiff cons1 cons2 = some diff) :
    applyEdDiff cons1 diff 0
      = if dirsigIdx cons1 + 1 = cons1.length then none else some cons2 := by
  rw [applyEdDiff, List.drop_zero]
  simp only [genEdDiff, preprocessConsensus] at generated
  by_cases signed : dirsigIdx cons1 < cons1.length
  · rw [if_pos signed] at generated
    simp only at generated
    split at generated
    · contradiction
    · next changed1 changed2 walked =>
      obtain ⟨commands, emitted, rfl⟩ := Option.map_eq_some_iff.mp generated
      rw [List.length_take_of_le signed.le] at emitted
      have rest := applyCommands_changes _ signed.le fits walked emitted
      have read := readCommand_eof cons1.length (dirsigIdx cons1 + 1) (by omega)
      rw [Option.toList_some, List.singleton_append, applyCommands, read]
      by_cases oneLine : cons1.length ≤ dirsigIdx cons1 + 1
      · rw [if_pos oneLine, if_pos (by omega)]
      · obtain ⟨more, length⟩ : ∃ more, cons1.length = more + 1 := ⟨cons1.length - 1, by omega⟩
        have unchanged : addUnchanged cons1 cons1.length cons1.length [] = (cons1.length, []) := by
          rw [addUnchanged_spec cons1 _ _ _ (Nat.le_refl _), Nat.sub_self]
          rfl
        have removed : ignoreRemoved (dirsigIdx cons1 + 1) cons1.length = dirsigIdx cons1 := by
          rw [length]
          exact ignoreRemoved_spec _ _ (by omega)
        rw [if_neg oneLine, if_neg (by omega)]
        simp only [Int.toNat_natCast, unchanged, removed, reduceCtorEq, if_false, if_true]
        exact rest
  · rw [if_neg signed] at generated
    simp only at generated
    split at generated
    · contradiction
    · next changed1 changed2 walked =>
      obtain ⟨commands, emitted, rfl⟩ := Option.map_eq_some_iff.mp generated
      rw [← List.take_length (l := cons1)] at walked
      rw [if_neg (by omega), Option.toList_none, List.nil_append]
      exact applyCommands_changes _ (Nat.le_refl _) fits walked emitted

/-- A generated diff leads from the base consensus to the target exactly if the
signatures of the base are not one single line. Lists have at most `INT32_MAX`
elements. -/
theorem genEdDiff_applies_iff (cons1 cons2 diff : List Line) (fits : cons1.length ≤ int32Max)
    (generated : genEdDiff cons1 cons2 = some diff) :
    applyEdDiff cons1 diff 0 = some cons2 ↔ ¬ OneLineTail cons1 := by
  rw [oneLineTail_iff, applyEdDiff_generated fits generated]
  split
  · next oneLine => simp [oneLine]
  · next long => simp [long]

/-- The base is one line of signatures, and the target is empty. -/
theorem genEdDiff_oneLineTail :
    genEdDiff [startOfSignaturesSection] [] = some [ascii ['1', ',', '$', 'd']]
      ∧ applyEdDiff [startOfSignaturesSection] [ascii ['1', ',', '$', 'd']] 0 ≠ some [] := by
  decide +kernel

theorem genEdDiff_applies_twoLines :
    applyEdDiff [ascii ['a'], ascii ['b']]
        [ascii ['2', 'c'], ascii ['c'], ascii ['.']] 0 = some [ascii ['a'], ascii ['c']]
      ↔ ¬ OneLineTail [ascii ['a'], ascii ['b']] :=
  genEdDiff_applies_iff _ _ _ (by decide) (by decide +kernel)

end RendezMix.Guarantees.DiffRoundTrip
