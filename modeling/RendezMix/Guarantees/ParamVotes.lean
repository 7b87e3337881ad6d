import Mathlib.Data.List.TakeWhile
import RendezMix.Source.VoteDocument

/-!
# Every vote has one value for a parameter

The parser takes the parameters of a vote in order and looks for repeated keywords among
neighbours only. Parameters with one keyword are neighbours in this order, so that a vote
has each keyword once, and the array of values in `dirvote_compute_params` has room for
those of all votes.
-/
namespace RendezMix.Guarantees
open Source Library.Sorting
open Std (TransCmp OrientedCmp ReflCmp)

/-! ## Keywords -/

theorem strcmp_cons (x y : UInt8) (a b : CString) :
    strcmp (x :: a) (y :: b) = (compare x y).then (strcmp a b) := List.compareLex_cons_cons

theorem prefix_between (start a b c : CString) (first : start <+: a) (last : start <+: c)
    (below : (strcmp a b).isLE = true) (above : (strcmp b c).isLE = true) : start <+: b := by
  induction start generalizing a b c with
  | nil => exact List.nil_prefix
  | cons x start ih =>
    obtain ⟨a', rfl, firstTail⟩ := List.cons_prefix_iff.mp first
    obtain ⟨c', rfl, lastTail⟩ := List.cons_prefix_iff.mp last
    cases b with
    | nil => cases below
    | cons y b =>
      rw [strcmp_cons, Ordering.isLE_then_iff_and] at below above
      have same : x = y := Std.compare_eq_iff_eq.mp (OrientedCmp.isLE_antisymm below.1 above.1)
      have equal : compare x x = .eq := ReflCmp.compare_self
      subst same
      rw [equal] at below above
      rw [List.cons_prefix_cons]
      exact ⟨rfl, ih a' b c' firstTail lastTail (below.2.resolve_left (by decide))
        (above.2.resolve_left (by decide))⟩

section

variable (param : CString)

theorem paramText_isSome : (paramText param).isSome ↔ equalsSign ∈ param := by
  unfold paramText
  split <;> simp_all

theorem paramValue_equalsSign {param : CString} (valid : (paramValue param).isSome) :
    equalsSign ∈ param := by
  rw [← paramText_isSome]
  unfold paramValue at valid
  cases text : paramText param with
  | none => rw [text] at valid; cases valid
  | some => rfl

theorem paramKeyword_starts {param : CString} (valid : equalsSign ∈ param) :
    paramKeyword param ++ [equalsSign] <+: param := by
  unfold paramKeyword
  induction param with
  | nil => cases valid
  | cons c param ih =>
    by_cases sign : c = equalsSign
    · subst sign
      simp
    · rw [List.takeWhile_cons_of_pos (by simpa using sign), List.cons_append, List.cons_prefix_cons]
      exact ⟨rfl, ih ((List.mem_cons.mp valid).resolve_left (Ne.symm sign))⟩

theorem paramKeyword_noSign : equalsSign ∉ paramKeyword param := by
  intro member
  have differs := List.mem_takeWhile_imp member
  simp at differs

theorem paramKeyword_of_starts {keyword param : CString} (noSign : equalsSign ∉ keyword)
    (start : keyword ++ [equalsSign] <+: param) : paramKeyword param = keyword := by
  unfold paramKeyword
  obtain ⟨rest, rfl⟩ := start
  rw [List.append_assoc, List.takeWhile_append_of_pos]
  · simp
  · intro c member
    rw [decide_eq_true_eq]
    rintro rfl
    exact noSign member

/-! ## The parameters of a vote -/

theorem inOrder_pairwise (sl : List CString) (ordered : inOrder sl = true) :
    sl.Pairwise fun fst snd => strcmp fst snd = .lt := by
  induction sl with
  | nil => exact List.Pairwise.nil
  | cons fst sl ih =>
    cases sl with
    | nil => exact List.pairwise_singleton _ fst
    | cons snd rest =>
      rw [inOrder] at ordered
      split at ordered
      · cases ordered
      · next less =>
        have here := not_not.mp less
        have later := ih ordered
        rw [List.pairwise_cons]
        refine ⟨?_, later⟩
        intro third member
        rw [List.mem_cons] at member
        cases member with
        | inl same => rwa [same]
        | inr member => exact TransCmp.lt_trans here ((List.pairwise_cons.mp later).1 third member)

def hasKeyword (keyword param : CString) : Bool := paramKeyword param = keyword

theorem params_one_keyword (params : List CString)
    (valid : ∀ param ∈ params, (paramValue param).isSome) (ordered : inOrder params = true)
    (distinct : anyDups params = false) (keyword : CString) :
    params.countP (hasKeyword keyword) ≤ 1 := by
  induction params with
  | nil => exact Nat.zero_le 1
  | cons a rest ih =>
    cases rest with
    | nil => exact List.countP_le_length
    | cons b rest =>
      have pairwise := inOrder_pairwise _ ordered
      have restOrdered : inOrder (b :: rest) = true := by
        rw [inOrder] at ordered
        split at ordered
        · cases ordered
        · exact ordered
      have dups : paramKeyword a ≠ paramKeyword b ∧ anyDups (b :: rest) = false := by
        rw [anyDups] at distinct
        split at distinct
        · cases distinct
        · next differ => exact ⟨differ, distinct⟩
      have later := ih (fun param member => valid param (List.mem_cons_of_mem a member))
        restOrdered dups.2
      rw [List.countP_cons]
      by_cases here : hasKeyword keyword a = true
      · have none : (b :: rest).countP (hasKeyword keyword) = 0 := by
          rw [List.countP_eq_zero]
          intro c member has
          rw [hasKeyword, decide_eq_true_eq] at here has
          apply dups.1
          rw [here]
          symm
          rw [List.mem_cons] at member
          cases member with
          | inl same => rwa [← same]
          | inr member =>
            apply paramKeyword_of_starts (here ▸ paramKeyword_noSign a)
            apply prefix_between _ a b c
            · rw [← here]
              exact paramKeyword_starts (paramValue_equalsSign (valid a List.mem_cons_self))
            · rw [← has]
              exact paramKeyword_starts (paramValue_equalsSign
                (valid c (List.mem_cons_of_mem a (List.mem_cons_of_mem b member))))
            · rw [(List.pairwise_cons.mp pairwise).1 b List.mem_cons_self]
              rfl
            · rw [(List.pairwise_cons.mp (List.pairwise_cons.mp pairwise).2).1 c member]
              rfl
        rw [none, if_pos here]
      · rw [if_neg here]
        omega

/-! ## The loop -/

theorem paramSeries_isSome (totalAuthorities : Nat) (param : CString) (curParamLen : Nat)
    (vals : List Int) (value : Int) :
    (paramSeries totalAuthorities param curParamLen (vals ++ [value])).isSome := by
  unfold paramSeries
  split
  · rw [Option.isSome_map]
    exact median_isSome (by simp)
  · rfl

theorem paramKeyword_of_sameStart {param nextParam : CString} (valid : equalsSign ∈ param)
    (same : strncmpDiffers nextParam param ((paramKeyword param).length + 1) = false) :
    paramKeyword nextParam = paramKeyword param := by
  rw [strncmpDiffers, decide_eq_false_iff_not, not_not] at same
  apply paramKeyword_of_starts (paramKeyword_noSign param)
  have start := paramKeyword_starts valid
  rw [List.prefix_iff_eq_take, List.length_append, List.length_singleton] at start
  rw [start, ← same]
  exact List.take_prefix _ nextParam

/-- The array has room for the values of every series. -/
theorem paramLoop_isSome (nVotes totalAuthorities : Nat) (vals : List Int) (param : CString)
    (rest : List CString) (valid : ∀ other ∈ param :: rest, (paramValue other).isSome)
    (series : vals.length + (param :: rest).countP (hasKeyword (paramKeyword param)) ≤ nVotes)
    (room : ∀ keyword, (param :: rest).countP (hasKeyword keyword) ≤ nVotes) :
    (paramLoop nVotes totalAuthorities vals ((paramKeyword param).length + 1)
      (param :: rest)).isSome := by
  induction rest generalizing param vals with
  | nil =>
    rw [List.countP_cons, if_pos (by simp [hasKeyword])] at series
    obtain ⟨value, found⟩ := Option.isSome_iff_exists.mp (valid param List.mem_cons_self)
    unfold paramLoop
    rw [if_pos (by omega), found]
    exact paramSeries_isSome totalAuthorities param _ vals value
  | cons nextParam later ih =>
    have here := valid param List.mem_cons_self
    have validLater : ∀ other ∈ nextParam :: later, (paramValue other).isSome :=
      fun other member => valid other (List.mem_cons_of_mem param member)
    have roomLater : ∀ keyword, (nextParam :: later).countP (hasKeyword keyword) ≤ nVotes := by
      intro keyword
      have whole := room keyword
      rw [List.countP_cons] at whole
      omega
    rw [List.countP_cons, if_pos (by simp [hasKeyword])] at series
    obtain ⟨value, found⟩ := Option.isSome_iff_exists.mp here
    unfold paramLoop
    rw [if_pos (by omega), found]
    simp only
    split
    next =>
      obtain ⟨out, ended⟩ := Option.isSome_iff_exists.mp (paramSeries_isSome totalAuthorities param
        ((paramKeyword param).length + 1) vals value)
      obtain ⟨text, sign⟩ := Option.isSome_iff_exists.mp ((paramText_isSome nextParam).mpr
        (paramValue_equalsSign (validLater nextParam List.mem_cons_self)))
      rw [ended, sign]
      simp only [Option.isSome_map]
      apply ih [] nextParam validLater _ roomLater
      rw [List.length_nil, Nat.zero_add]
      exact roomLater (paramKeyword nextParam)
    next same =>
      have keyword := paramKeyword_of_sameStart (paramValue_equalsSign here)
        (Bool.eq_false_iff.mpr same)
      rw [← keyword]
      apply ih (vals ++ [value]) nextParam validLater _ roomLater
      rw [List.length_append, List.length_singleton, keyword]
      omega

theorem countP_flatMap_le {α β : Type*} (l : List α) (f : α → List β) (p : β → Bool)
    (one : ∀ a ∈ l, (f a).countP p ≤ 1) : (l.flatMap f).countP p ≤ l.length := by
  induction l with
  | nil => exact le_refl 0
  | cons a l ih =>
    have here := one a List.mem_cons_self
    have rest := ih fun b member => one b (List.mem_cons_of_mem a member)
    rw [List.flatMap_cons, List.countP_append, List.length_cons]
    omega

/-- No assertion of `dirvote_compute_params` fails on votes that the parser accepts. -/
theorem dirvoteComputeParams_isSome (votes : List NetworkVote) (totalAuthorities : Nat)
    (accepted : ∀ v ∈ votes, paramsAccepted (v.netParams.getD []) = true) :
    (dirvoteComputeParams votes totalAuthorities).isSome := by
  have checks : ∀ v ∈ votes, (∀ param ∈ v.netParams.getD [], (paramValue param).isSome)
      ∧ inOrder (v.netParams.getD []) = true ∧ anyDups (v.netParams.getD []) = false := by
    intro v member
    have check := accepted v member
    rw [paramsAccepted, Bool.and_eq_true, Bool.and_eq_true, List.all_eq_true] at check
    exact ⟨check.1.1, check.1.2, by simpa using check.2⟩
  have perm : (smartlistSortStrings (votes.flatMap fun v => v.netParams.getD [])).Perm
      (votes.flatMap fun v => v.netParams.getD []) := (insertionSorter strcmp).perm _
  have valid : ∀ param ∈ smartlistSortStrings (votes.flatMap fun v => v.netParams.getD []),
      (paramValue param).isSome := by
    intro param member
    obtain ⟨v, inside, mem⟩ := List.mem_flatMap.mp (perm.mem_iff.mp member)
    exact (checks v inside).1 param mem
  have room : ∀ keyword, (smartlistSortStrings (votes.flatMap fun v => v.netParams.getD [])).countP
      (hasKeyword keyword) ≤ votes.length := by
    intro keyword
    rw [perm.countP_eq]
    apply countP_flatMap_le
    intro v member
    obtain ⟨values, ordered, distinct⟩ := checks v member
    exact params_one_keyword _ values ordered distinct keyword
  unfold dirvoteComputeParams
  simp only
  split
  next => rfl
  next curParam rest sorted =>
    rw [sorted] at valid room
    obtain ⟨text, sign⟩ := Option.isSome_iff_exists.mp ((paramText_isSome curParam).mpr
      (paramValue_equalsSign (valid curParam List.mem_cons_self)))
    rw [sign]
    simp only
    rw [sorted]
    apply paramLoop_isSome votes.length totalAuthorities [] curParam rest valid _ room
    rw [List.length_nil, Nat.zero_add]
    exact room (paramKeyword curParam)

end

end RendezMix.Guarantees
