import Mathlib.Data.List.GetD
import RendezMix.Guarantees.DiffRoundTrip

/-!
# Diffs as ed scripts

The one backward pass of `apply_ed_diff` gives what the commands of the diff do
one after another, in the order of the file, to the whole document. The commands
are read here as an editor reads them: a line number or a range, of which `$` is
the last line of the original document, and a letter.
-/
namespace RendezMix.Guarantees.EdScripts

open Library.Decimals Library.LineEdits Library.MarkedLists Source.ConsDiff Source.EdApply
open DiffRoundTrip

/-! ## Scripts -/

/-- The addresses of a command and what follows them. `$` stands for `last`. -/
def edAddresses (last : Nat) (command : Line) : Option (Nat × Nat × Line) :=
  match readDecimal command with
  | none => none
  | some (start, rest) =>
      match rest with
      | 44 :: 36 :: rest => some (start, last, rest)
      | 44 :: rest => (readDecimal rest).map fun (end_, rest) => (start, end_, rest)
      | rest => some (start, start, rest)

/-- The edits of a script. A command ends at its first zero byte, and the text of
`a` and `c` ends at a line with a single dot. -/
def edScript (last : Nat) : List Line → Option (List (Edit Line))
  | [] => some []
  | command :: rest =>
      match edAddresses last (command.takeWhile (· != 0)) with
      | some (start, end_, [letter]) =>
          if letter = 100 then (edScript last rest).map (.delete start end_ :: ·)
          else
            match _ok : readInserted rest with
            | none => none
            | some (text, rest) =>
                if letter = 97 then (edScript last rest).map (.append end_ text :: ·)
                else if letter = 99 then (edScript last rest).map (.change start end_ text :: ·)
                else none
      | _ => none
termination_by script => script.length
decreasing_by
  · exact Nat.lt_succ_self _
  · exact (readInserted_length _ok).trans (Nat.lt_succ_self _)
  · exact (readInserted_length _ok).trans (Nat.lt_succ_self _)

/-- A document edited by a script, `$` being its last line. -/
def runEdScript (script document : List Line) : Option (List Line) :=
  match edScript document.length script with
  | none => none
  | some edits => runScript edits document

/-! ## Commands -/

section

variable {len1 : Nat} {range : EdRange}

theorem readDecimal_of_getLinenum {s next : Line} {num : Nat}
    (read : getLinenum s = some (num, next)) : readDecimal s = some (num, next) := by
  rw [getLinenum] at read
  split at read
  · contradiction
  · next found =>
    split at read
    · cases read
      exact found
    · contradiction

theorem readRange_edAddresses {ptr rest : Line} (read : readRange len1 ptr = some (range, rest)) :
    edAddresses len1 ptr = some (range.start, range.end_, rest) ∧ range.start ≤ range.end_ := by
  unfold readRange at read
  split at read
  · contradiction
  · next start ptr first =>
    rw [edAddresses, readDecimal_of_getLinenum first]
    dsimp only
    split at read
    · split at read
      · contradiction
      · cases read
        exact ⟨rfl, by dsimp only; omega⟩
    · next notEof =>
      split at read
      · contradiction
      · next end_ ptr second =>
        split at read
        · contradiction
        · cases read
          split
          · next same =>
            cases same
            exact absurd rfl (notEof _)
          · next same =>
            cases same
            rw [readDecimal_of_getLinenum second]
            exact ⟨rfl, by dsimp only; omega⟩
          · next notRange => exact absurd rfl (notRange _)
    · next notEof notRange =>
      cases read
      split
      · exact absurd rfl (notEof _)
      · exact absurd rfl (notRange _)
      · exact ⟨rfl, Nat.le_refl _⟩

/-- What an accepted command is to an editor. -/
theorem readCommand_edAddresses {j : Int} {diffLine : Line} {action : Action}
    (read : readCommand len1 j diffLine = some (range, action)) :
    ∃ letter, edAddresses len1 (diffLine.takeWhile (· != 0))
        = some (range.start, range.end_, [letter])
      ∧ readAction letter = some action ∧ range.start ≤ range.end_ ∧ (range.end_ : Int) ≤ j := by
  unfold readCommand at read
  split at read
  · contradiction
  · split at read
    · contradiction
    · next first =>
      obtain ⟨addresses, ordered⟩ := readRange_edAddresses first
      split at read
      · contradiction
      · next sorted =>
        split at read
        · next letter =>
          split at read
          · contradiction
          · next found =>
            split at read
            · contradiction
            · split at read
              · contradiction
              · cases read
                exact ⟨letter, addresses, found, ordered, by omega⟩
        · contradiction

end

variable {last start end_ : Nat} {command : Line} {letter : UInt8} {edits : List (Edit Line)}

section

variable {rest : List Line}
  (addresses : edAddresses last (command.takeWhile (· != 0)) = some (start, end_, [letter]))
  {lines text : List Line}

include addresses

theorem edScript_delete (found : readAction letter = some .delete)
    (later : edScript last rest = some edits) :
    edScript last (command :: rest) = some (.delete start end_ :: edits) := by
  have same : letter = 100 := by
    unfold readAction at found
    split at found
    · cases found
    · cases found
    · rfl
    · cases found
  rw [edScript, addresses]
  dsimp only
  rw [if_pos same, later]
  rfl

theorem edScript_append (found : readAction letter = some .add)
    (inserted : readInserted lines = some (text, rest)) (later : edScript last rest = some edits) :
    edScript last (command :: lines) = some (.append end_ text :: edits) := by
  have same : letter = 97 := by
    unfold readAction at found
    split at found
    · rfl
    · cases found
    · cases found
    · cases found
  rw [edScript, addresses]
  dsimp only
  rw [if_neg (by rw [same]; decide)]
  split
  · next failed =>
    rw [inserted] at failed
    contradiction
  · next text' rest' again =>
    rw [inserted] at again
    cases again
    rw [if_pos same, later]
    rfl

theorem edScript_change (found : readAction letter = some .change)
    (inserted : readInserted lines = some (text, rest)) (later : edScript last rest = some edits) :
    edScript last (command :: lines) = some (.change start end_ text :: edits) := by
  have same : letter = 99 := by
    unfold readAction at found
    split at found
    · cases found
    · rfl
    · cases found
    · cases found
  rw [edScript, addresses]
  dsimp only
  rw [if_neg (by rw [same]; decide)]
  split
  · next failed =>
    rw [inserted] at failed
    contradiction
  · next text' rest' again =>
    rw [inserted] at again
    cases again
    rw [if_neg (by rw [same]; decide), if_pos same, later]
    rfl

end

/-! ## The backward pass -/

section

variable (cons1 : List Line)

theorem segment_smartlistGet_take {end_ j : Nat} (inside : j ≤ cons1.length) (below : end_ ≤ j) :
    segment (smartlistGet cons1) end_ (j - end_) = (cons1.take j).drop end_ := by
  apply List.ext_getElem
  · rw [segment_length, List.length_drop, List.length_take, Nat.min_eq_left inside]
  · intro i low high
    rw [segment_length] at low
    rw [getElem_segment, List.getElem_drop, List.getElem_take]
    exact List.getD_eq_getElem _ _ (by omega)

theorem addUnchanged_take {end_ j : Nat} (cons2 : List Line) (inside : j ≤ cons1.length)
    (below : end_ ≤ j) :
    addUnchanged cons1 end_ j cons2
      = (end_, cons2 ++ ((cons1.take j).drop end_).reverse) := by
  rw [addUnchanged_spec cons1 end_ j cons2 below, segment_smartlistGet_take cons1 inside below]

theorem ignoreRemoved_toNat (start end_ : Nat) (range : start ≤ end_) :
    (ignoreRemoved start end_).toNat = start - 1 ∧ ignoreRemoved start end_ ≤ end_ := by
  induction end_ with
  | zero =>
    obtain rfl : start = 0 := by omega
    exact ⟨rfl, by decide⟩
  | succ end_ ih =>
    rw [ignoreRemoved]
    split
    · next more =>
      obtain ⟨front, le⟩ := ih more
      exact ⟨front, by omega⟩
    · obtain rfl : start = end_ + 1 := by omega
      exact ⟨by omega, by omega⟩

/-- From every point of the pass on, the rest of the script leads from the lines
not yet used and those collected to the result. -/
theorem applyCommands_runScript (cons1 : List Line) (diff : List Line) (j : Int)
    (cons2 : List Line) {result : List Line} (inside : j ≤ cons1.length)
    (applied : applyCommands cons1 diff j cons2 = some result) :
    ∃ edits, edScript cons1.length diff = some edits
      ∧ runScript edits (cons1.take j.toNat ++ cons2.reverse) = some result := by
  have inside' : j.toNat ≤ cons1.length := by omega
  cases diff with
  | nil =>
    rw [applyCommands, addUnchanged_take cons1 cons2 inside' (Nat.zero_le _)] at applied
    cases applied
    exact ⟨[], by rw [edScript], by simp [runScript]⟩
  | cons diffLine diff =>
    rw [applyCommands] at applied
    split at applied
    · contradiction
    · next range action read =>
      obtain ⟨letter, addresses, found, ordered, sorted⟩ := readCommand_edAddresses read
      have below : range.end_ ≤ j.toNat := by omega
      have front : (cons1.take j.toNat).length = j.toNat := by
        rw [List.length_take, Nat.min_eq_left inside']
      obtain ⟨down, le⟩ := ignoreRemoved_toNat range.start range.end_ ordered
      rw [addUnchanged_take cons1 cons2 inside' below] at applied
      dsimp only at applied
      have kept : ∀ n, n ≤ j.toNat → (cons1.take j.toNat).take n = cons1.take n := by
        intro n le
        rw [List.take_take, Nat.min_eq_left le]
      split at applied
      · next isDelete =>
        subst isDelete
        rw [if_neg (by decide)] at applied
        obtain ⟨edits, script, ran⟩ := applyCommands_runScript cons1 diff _ _ (by omega) applied
        have step := Edit.run_delete_front cons2.reverse ordered (front.symm ▸ below)
        refine ⟨_, edScript_delete addresses found script, ?_⟩
        rw [runScript_cons _ step, kept _ (by omega), ← ran, down, List.reverse_append,
          List.reverse_reverse, List.append_assoc]
      · next notDelete =>
        split at applied
        · contradiction
        · next lines rest inserted =>
          have shorter := (readInserted_length inserted).trans (Nat.lt_succ_self diff.length)
          split at applied
          · contradiction
          · obtain ⟨edits, script, ran⟩ := applyCommands_runScript cons1 rest _ _
              (by split <;> omega) applied
            cases action with
            | delete => exact absurd rfl notDelete
            | add =>
              have step := Edit.run_append_front lines cons2.reverse (front.symm ▸ below)
              refine ⟨_, edScript_append addresses found inserted script, ?_⟩
              rw [if_pos rfl, Int.toNat_natCast] at ran
              rw [runScript_cons _ step, kept _ below, ← ran]
              simp
            | change =>
              have step := Edit.run_change_front lines cons2.reverse ordered (front.symm ▸ below)
              refine ⟨_, edScript_change addresses found inserted script, ?_⟩
              rw [if_neg (by decide), down] at ran
              rw [runScript_cons _ step, kept _ (by omega), ← ran]
              simp
termination_by diff.length

/-- A diff that is accepted gives what its commands do to the document one after
another. -/
theorem applyEdDiff_runEdScript (cons1 diff : List Line) (diffStartingLine : Nat)
    (result : List Line) (accepted : applyEdDiff cons1 diff diffStartingLine = some result) :
    runEdScript (diff.drop diffStartingLine) cons1 = some result := by
  obtain ⟨edits, script, ran⟩ := applyCommands_runScript cons1 _ _ [] (Int.le_refl _) accepted
  rw [runEdScript, script]
  rw [Int.toNat_natCast, List.take_length, List.reverse_nil, List.append_nil] at ran
  exact ran

/-- The end of the document is deleted, a line changed and one put in front. -/
theorem applyEdDiff_runEdScript_threeCommands :
    runEdScript ([ascii ['h'], ascii ['3', ',', '$', 'd'], ascii ['2', 'c'], ascii ['x'],
        ascii ['y'], ascii ['.'], ascii ['0', 'a'], ascii ['z'], ascii ['.']].drop 1)
      [ascii ['a'], ascii ['b'], ascii ['c'], ascii ['d']]
        = some [ascii ['z'], ascii ['a'], ascii ['x'], ascii ['y']] :=
  applyEdDiff_runEdScript _ _ 1 _ (by decide +kernel)

end

end RendezMix.Guarantees.EdScripts
