import Mathlib.Data.Int.LeastGreatest
import RendezMix.Source.ConsensusTallies
import RendezMix.Guarantees.VersionOrder

/-!
# What the votes agree on

The tallies of consensus methods and of recommended versions sort what the votes list by its
meaning, but count runs of one string. They are exact, for every order of the votes and however
equal elements are put, unless strings that compare equal, but differ, are listed by more than the
share of the votes that is asked for.
-/
namespace RendezMix.Guarantees.VoteTallies
open Library.Sorting Library.LongRuns Source Versions ConsensusTallies VersionOrder ListedByVote
open Std (TransCmp OrientedCmp ReflCmp)

variable {α : Type*} [DecidableEq α]

/-! ## Picks of a ballot -/

/-- What is tallied of some ballots, with the calls of `qsort`. -/
def gathered (cmp : α → α → Ordering) (qsort : Nat → List α → List α)
    (ballots : List (List α)) : List α :=
  gather (fun k ballot => smartlistUniq cmp (qsort k ballot)) 0 ballots

def tallied (cmp : α → α → Ordering) (qsort : Nat → List α → List α) (min : Nat)
    (ballots : List (List α)) : List α :=
  longRuns min (qsort ballots.length (gathered cmp qsort ballots))

/-- A lawful comparison agrees with the one of the code on what the ballots list. -/
def Agree (cmp order : α → α → Ordering) (ballots : List (List α)) : Prop :=
  ∀ a ∈ ballots.flatten, ∀ b ∈ ballots.flatten, order a b = cmp a b

variable {cmp order : α → α → Ordering} [TransCmp order] {qsort : Nat → List α → List α}
  {min : Nat} {ballots : List (List α)}

omit [DecidableEq α] in
theorem picks_of_sorts {sort : List α → List α} (sorts : SortsBy cmp sort) {ballot : List α}
    (agree : ∀ a ∈ ballot, ∀ b ∈ ballot, order a b = cmp a b) :
    Picks order ballot (smartlistUniq cmp (sort ballot)) := by
  obtain ⟨perm, sorted⟩ := sorts ballot (OrderedOn.of_agree fun a ha b hb => (agree a ha b hb).symm)
  have inside : ∀ a ∈ sort ballot, a ∈ ballot := fun a member => perm.mem_iff.mp member
  have same : smartlistUniq cmp (sort ballot) = smartlistUniq order (sort ballot) :=
    smartlistUniq_congr _ fun a ha b hb => (agree a (inside a ha) b (inside b hb)).symm
  have sorted' : (sort ballot).Pairwise fun a b => (order a b).isLE = true := by
    apply sorted.imp_of_mem
    intro a b ha hb le
    rwa [agree a (inside a ha) b (inside b hb)]
  rw [same]
  exact {
    inside := fun a member => inside a (smartlistUniq_subset _ _ a member)
    covers := fun a member => smartlistUniq_covers _ a (perm.mem_iff.mpr member)
    increasing := smartlistUniq_increasing _ sorted' }

omit [DecidableEq α] [TransCmp order] in
theorem Agree.ballot (agree : Agree cmp order ballots) {ballot : List α}
    (member : ballot ∈ ballots) : ∀ a ∈ ballot, ∀ b ∈ ballot, order a b = cmp a b :=
  fun a ha b hb => agree a (List.mem_flatten.mpr ⟨ballot, member, ha⟩) b
    (List.mem_flatten.mpr ⟨ballot, member, hb⟩)

omit [DecidableEq α] in
theorem Agree.picks (agree : Agree cmp order ballots) (sorts : ∀ k, SortsBy cmp (qsort k)) :
    ∀ k, ∀ ballot ∈ ballots, Picks order ballot (smartlistUniq cmp (qsort k ballot)) :=
  fun k _ member => picks_of_sorts (sorts k) (agree.ballot member)

omit [DecidableEq α] in
theorem Agree.inside (agree : Agree cmp order ballots) (sorts : ∀ k, SortsBy cmp (qsort k)) :
    ∀ a ∈ gathered cmp qsort ballots, a ∈ ballots.flatten := by
  intro a member
  obtain ⟨i, ballot, found, here⟩ := mem_gather.mp member
  have listed := List.mem_of_getElem? found
  exact List.mem_flatten.mpr ⟨ballot, listed, (agree.picks sorts _ ballot listed).inside a here⟩

omit [DecidableEq α] in
theorem Agree.sorted (agree : Agree cmp order ballots) (sorts : ∀ k, SortsBy cmp (qsort k))
    (k : Nat) : (qsort k (gathered cmp qsort ballots)).Perm (gathered cmp qsort ballots)
      ∧ (qsort k (gathered cmp qsort ballots)).Pairwise fun a b => (order a b).isLE = true := by
  have inside := agree.inside sorts
  obtain ⟨perm, sorted⟩ := sorts k (gathered cmp qsort ballots)
    (OrderedOn.of_agree fun a ha b hb => (agree a (inside a ha) b (inside b hb)).symm)
  refine ⟨perm, sorted.imp_of_mem ?_⟩
  intro a b ha hb le
  rwa [agree a (inside a (perm.mem_iff.mp ha)) b (inside b (perm.mem_iff.mp hb))]

/-! ## What is tallied -/

section

variable {x : α} (agree : Agree cmp order ballots) (sorts : ∀ k, SortsBy cmp (qsort k))

include agree sorts

theorem tallied_listing (member : x ∈ tallied cmp qsort min ballots) : min < listing ballots x := by
  have long := lt_count_of_mem_longRuns min member
  rw [(agree.sorted sorts _).1.count_eq] at long
  exact lt_of_lt_of_le long (gather_count_le (agree.picks sorts) x)

theorem tallied_nodup (few : ballots.length ≤ 2 * min + 1) :
    (tallied cmp qsort min ballots).Nodup := by
  rw [List.nodup_iff_count_le_one]
  intro x
  have runs := longRuns_count min (qsort ballots.length (gathered cmp qsort ballots)) x
  rw [(agree.sorted sorts _).1.count_eq] at runs
  have all : (gathered cmp qsort ballots).count x ≤ listing ballots x :=
    gather_count_le (agree.picks sorts) x
  have some_ : listing ballots x ≤ ballots.length := List.countP_le_length
  change (longRuns min (qsort ballots.length (gathered cmp qsort ballots))).count x ≤ 1
  by_contra many
  have twice := Nat.mul_le_mul_right (min + 1) (Nat.lt_of_not_le many)
  omega

theorem tallied_sorted :
    (tallied cmp qsort min ballots).Pairwise fun a b => (order a b).isLE = true :=
  (agree.sorted sorts _).2.sublist (longRuns_sublist min _)

theorem mem_tallied_of_uniform
    (uniform : ∀ a ∈ gathered cmp qsort ballots, order a x = .eq → a = x) :
    x ∈ tallied cmp qsort min ballots ↔ min < listingEqual order ballots x := by
  obtain ⟨perm, sorted⟩ := agree.sorted sorts ballots.length
  have lengths := (perm.filter fun a => order a x = .eq).length_eq
  change (equals order x _).length = (equals order x _).length at lengths
  rw [← gather_equals (k := 0) (agree.picks sorts) x]
  change _ ↔ min < (equals order x (gathered cmp qsort ballots)).length
  rw [← lengths]
  exact mem_longRuns_of_uniform sorted fun a member => uniform a (perm.mem_iff.mp member)

theorem mem_tallied_iff (uniform : ∀ ballot ∈ ballots, ∀ a ∈ ballot, order a x = .eq → a = x) :
    x ∈ tallied cmp qsort min ballots ↔ min < listing ballots x := by
  rw [← listingEqual_of_uniform uniform]
  apply mem_tallied_of_uniform agree sorts
  intro a member
  obtain ⟨ballot, listed, inside⟩ := List.mem_flatten.mp (agree.inside sorts a member)
  exact uniform ballot listed a inside

end

/-! ## Calls that put equal elements as one likes -/

/-- Calls that all sort by insertion. -/
def byInsertion (cmp : α → α → Ordering) (_ : Nat) : List α → List α :=
  List.insertionSort fun a b => (cmp a b).isLE = true

/-- A call that puts some elements in a given order. -/
def arrange (cmp : α → α → Ordering) (arranged l : List α) : List α :=
  if l.Perm arranged then arranged else l.insertionSort fun a b => (cmp a b).isLE = true

omit [TransCmp order] in
theorem arrange_sortsBy {arranged : List α}
    (sorted : arranged.Pairwise fun a b => (cmp a b).isLE = true) :
    SortsBy cmp (arrange cmp arranged) := by
  intro l lawful
  unfold arrange
  split
  · next perm => exact ⟨perm.symm, sorted⟩
  · exact insertionSort_sortsBy l lawful

omit [DecidableEq α] [TransCmp order] in
theorem gather_congr {pick pick' : Nat → List α → List α} {k : Nat}
    (same : ∀ i, i < ballots.length → pick (k + i) = pick' (k + i)) :
    gather pick k ballots = gather pick' k ballots := by
  induction ballots generalizing k with
  | nil => rfl
  | cons ballot ballots ih =>
    have here := same 0 (Nat.zero_lt_succ _)
    rw [Nat.add_zero] at here
    rw [gather, gather, here, ih]
    intro i less
    rw [Nat.add_right_comm, Nat.add_assoc]
    exact same (i + 1) (Nat.succ_lt_succ less)

/-- Different elements that are equal can be gathered so that none of them is tallied. -/
theorem exists_untallied (agree : Agree cmp order ballots) (sorts : ∀ k, SortsBy cmp (qsort k))
    {s t : α} (first : s ∈ gathered cmp qsort ballots) (second : t ∈ gathered cmp qsort ballots)
    (differ : s ≠ t) (equal : order s t = .eq) (few : ballots.length ≤ 2 * min + 1) :
    ∃ qsort', (∀ k, SortsBy cmp (qsort' k))
      ∧ ∀ x, order x t = .eq → x ∉ tallied cmp qsort' min ballots := by
  have lengths : (equals order t (gathered cmp qsort ballots)).length ≤ 2 * min + 1 := by
    rw [gathered, gather_equals (agree.picks sorts)]
    exact le_trans List.countP_le_length few
  obtain ⟨arranged, perm, sorted, none_⟩ :=
    exists_broken (insertionSorter order) first second differ equal lengths
  have inside := agree.inside sorts
  have sorted' : arranged.Pairwise fun a b => (cmp a b).isLE = true := by
    apply sorted.imp_of_mem
    intro a b ha hb le
    rwa [← agree a (inside a (perm.mem_iff.mp ha)) b (inside b (perm.mem_iff.mp hb))]
  refine ⟨Function.update qsort ballots.length (arrange cmp arranged), ?_, ?_⟩
  · intro k
    by_cases last : k = ballots.length
    · rw [last, Function.update_self]
      exact arrange_sortsBy sorted'
    · rw [Function.update_of_ne last]
      exact sorts k
  · intro x same
    have kept : gathered cmp (Function.update qsort ballots.length (arrange cmp arranged)) ballots =
        gathered cmp qsort ballots := by
      apply gather_congr
      intro i less
      funext ballot
      rw [Nat.zero_add, Function.update_of_ne (Nat.ne_of_lt less)]
    unfold tallied
    rw [kept, Function.update_self, arrange, if_pos perm.symm]
    exact none_ x same

omit [DecidableEq α] [TransCmp order] in
theorem head_mem_smartlistUniq (a : α) (l : List α) : a ∈ smartlistUniq cmp (a :: l) := by
  induction l with
  | nil => simp [smartlistUniq]
  | cons b l ih =>
    rw [smartlistUniq]
    split
    · exact ih
    · exact List.mem_cons_self

omit [DecidableEq α] [TransCmp order] in
theorem mem_smartlistUniq_of_first {a : α} (lo rest : List α) (first : ∀ b ∈ lo, cmp b a ≠ .eq) :
    a ∈ smartlistUniq cmp (lo ++ a :: rest) := by
  cases lo with
  | nil => exact head_mem_smartlistUniq a rest
  | cons f lo =>
    induction lo generalizing f with
    | nil =>
      rw [List.cons_append, List.nil_append, smartlistUniq, if_neg (first f List.mem_cons_self)]
      exact List.mem_cons_of_mem _ (head_mem_smartlistUniq a rest)
    | cons g lo ih =>
      rw [List.cons_append, List.cons_append, smartlistUniq]
      split
      · apply ih f
        intro b member
        obtain rfl | later := List.mem_cons.mp member
        · exact first b List.mem_cons_self
        · exact first b (List.mem_cons_of_mem _ (List.mem_cons_of_mem _ later))
      · apply List.mem_cons_of_mem
        exact ih g fun b member => first b (List.mem_cons_of_mem _ member)

omit [DecidableEq α] [TransCmp order] in
theorem mem_gathered {i : Nat} (less : i < ballots.length) {a : α}
    (picked : a ∈ smartlistUniq cmp (qsort i ballots[i])) : a ∈ gathered cmp qsort ballots := by
  apply mem_gather.mpr
  refine ⟨i, ballots[i], List.getElem?_eq_getElem less, ?_⟩
  rw [Nat.zero_add]
  exact picked

theorem exists_picking {ballot : List α} (agree : ∀ a ∈ ballot, ∀ b ∈ ballot, order a b = cmp a b)
    {a : α} (listed : a ∈ ballot) :
    ∃ sort, SortsBy cmp sort ∧ a ∈ smartlistUniq cmp (sort ballot) := by
  let finer : α → α → Ordering := compareLex order (compareOn fun b => if b = a then 0 else 1)
  have lawful : TransCmp finer := inferInstanceAs (TransCmp (compareLex _ _))
  have perm := (insertionSorter finer).perm ballot
  have sorted := (insertionSorter finer).ordered ballot
  obtain ⟨lo, rest, split, fresh⟩ := List.eq_append_cons_of_mem (perm.mem_iff.mpr listed)
  have inside : ∀ b ∈ (insertionSorter finer).sort ballot, b ∈ ballot :=
    fun b member => perm.mem_iff.mp member
  have sorted' : ((insertionSorter finer).sort ballot).Pairwise fun a b =>
      (cmp a b).isLE = true := by
    apply sorted.imp_of_mem
    intro b c hb hc le
    rw [← agree b (inside b hb) c (inside c hc)]
    exact (Ordering.isLE_then_iff_and.mp le).1
  refine ⟨arrange cmp ((insertionSorter finer).sort ballot), arrange_sortsBy sorted', ?_⟩
  rw [arrange, if_pos perm.symm, split]
  apply mem_smartlistUniq_of_first
  intro b member equal
  rw [split, List.pairwise_append] at sorted
  have hb : b ∈ ballot := inside b (by rw [split]; exact List.mem_append_left _ member)
  rw [← agree b hb a listed] at equal
  have le := sorted.2.2 b member a List.mem_cons_self
  have other : b ≠ a := fun same => fresh (same ▸ member)
  change ((order b a).then (compare (if b = a then 0 else 1) (if a = a then 0 else 1))).isLE = true
    at le
  rw [equal, if_neg other, if_pos rfl] at le
  cases le

/-! ## Consensus methods -/

/-- A vote lists a method in some spelling. -/
def Supports (methods : List CString) (m : Int) : Prop :=
  ∃ s ∈ methods, torParseLong s 1 intMax = some m

instance (methods : List CString) (m : Int) : Decidable (Supports methods m) :=
  inferInstanceAs (Decidable (∃ s ∈ methods, torParseLong s 1 intMax = some m))

/-- More than two thirds of the votes, rounded down, support a method. -/
def Accepted (votes : List (List CString)) (m : Int) : Prop :=
  votes.length * 2 / 3 < votes.countP fun methods => Supports methods m

/-- The highest method that is accepted, or 1 if there is none. -/
def IsHighest (votes : List (List CString)) (m : Int) : Prop :=
  (Accepted votes m ∧ ∀ m', Accepted votes m' → m' ≤ m) ∨ (m = 1 ∧ ∀ m', ¬ Accepted votes m')

/-- No two votes write a method in different ways. -/
def SpeltAlike (votes : List (List CString)) (m : Int) : Prop :=
  votes.Pairwise fun methods methods' => ∀ s ∈ methods, ∀ s' ∈ methods',
    methodNumber s = m → methodNumber s' = m → s = s'

/-- What the votes are to be like: the highest method that is accepted is written in one way, or it
is 1 at most and no string that is not a number is listed by as many votes. -/
def MethodsSettled (votes : List (List CString)) : Prop :=
  (∃ m, Accepted votes m ∧ (∀ m', Accepted votes m' → m' ≤ m) ∧ SpeltAlike votes m)
    ∨ ((∀ m, Accepted votes m → m = 1)
      ∧ ∀ s, methodNumber s = 0 → listing votes s ≤ votes.length * 2 / 3)

theorem torParseLong_range {s : CString} {m : Int} (read : torParseLong s 1 intMax = some m) :
    1 ≤ m ∧ m ≤ intMax := by
  unfold torParseLong at read
  split at read
  · cases read
  · cases read
  · split at read
    · cases read
    · cases read
      omega

theorem methodNumber_eq_iff {s : CString} {m : Int} (positive : 1 ≤ m) :
    methodNumber s = m ↔ torParseLong s 1 intMax = some m := by
  unfold methodNumber
  cases torParseLong s 1 intMax with
  | none =>
    rw [Option.getD_none]
    constructor
    · intro zero
      omega
    · exact fun none_ => by cases none_
  | some v => rw [Option.getD_some, Option.some_inj]

theorem methodNumber_zero_or (s : CString) :
    methodNumber s = 0 ∨ torParseLong s 1 intMax = some (methodNumber s) := by
  unfold methodNumber
  cases torParseLong s 1 intMax with
  | none => exact Or.inl rfl
  | some v => exact Or.inr rfl

theorem Accepted.range {votes : List (List CString)} {m : Int} (accepted : Accepted votes m) :
    1 ≤ m ∧ m ≤ intMax := by
  have some_ : 0 < votes.countP fun methods => Supports methods m :=
    lt_of_le_of_lt (Nat.zero_le _) accepted
  obtain ⟨methods, -, supports⟩ := List.countP_pos_iff.mp some_
  obtain ⟨s, -, read⟩ := of_decide_eq_true supports
  exact torParseLong_range read

theorem cmpIntStrings_eq_iff (s t : CString) :
    cmpIntStrings s t = .eq ↔
      methodNumber s = methodNumber t ∧ (methodNumber t = 0 → s = t) := by
  unfold cmpIntStrings
  by_cases less : methodNumber s < methodNumber t
  · rw [if_pos less]
    constructor
    · exact fun bad => by cases bad
    · intro both
      omega
  · rw [if_neg less]
    by_cases equal : methodNumber s = methodNumber t
    · rw [if_pos equal]
      by_cases zero : methodNumber s = 0
      · rw [if_pos zero]
        constructor
        · exact fun same => ⟨equal, fun _ => Std.compare_eq_iff_eq.mp same⟩
        · intro both
          rw [both.2 (by omega)]
          exact ReflCmp.compare_self
      · rw [if_neg zero]
        constructor
        · exact fun _ => ⟨equal, fun bad => by omega⟩
        · exact fun _ => rfl
    · rw [if_neg equal]
      constructor
      · exact fun bad => by cases bad
      · intro both
        omega

theorem number_le_of_isLE {s t : CString} (le : (cmpIntStrings s t).isLE = true) :
    methodNumber s ≤ methodNumber t := by
  unfold cmpIntStrings at le
  by_contra more
  rw [if_neg (by omega), if_neg (by omega)] at le
  cases le

theorem agree_methods (votes : List (List CString)) : Agree cmpIntStrings cmpIntStrings votes :=
  fun _ _ _ _ => rfl

theorem computeConsensusMethod_eq (qsort : Nat → List CString → List CString)
    (votes : List (List CString)) :
    computeConsensusMethod qsort votes =
      match (tallied cmpIntStrings qsort (votes.length * 2 / 3) votes).getLast? with
      | some best => methodNumber best
      | none => 1 := by
  unfold computeConsensusMethod
  dsimp only
  rw [getFrequentMembers_eq]
  rfl

section Methods

variable {sorts_ : Nat → List CString → List CString} {votes : List (List CString)}

section

variable {s : CString} {m : Int}

theorem listing_le_supports (votes : List (List CString))
    (read : torParseLong s 1 intMax = some m) :
    listing votes s ≤ votes.countP fun methods => Supports methods m := by
  apply List.countP_mono_left
  intro methods _ listed
  exact decide_eq_true ⟨s, by simpa using listed, read⟩

theorem tallied_number (sorts : ∀ k, SortsBy cmpIntStrings (sorts_ k))
    (member : s ∈ tallied cmpIntStrings sorts_ (votes.length * 2 / 3) votes) :
    (methodNumber s = 0 ∧ votes.length * 2 / 3 < listing votes s)
      ∨ Accepted votes (methodNumber s) := by
  have listed := tallied_listing (agree_methods votes) sorts member
  obtain zero | read := methodNumber_zero_or s
  · exact Or.inl ⟨zero, listed⟩
  · exact Or.inr (lt_of_lt_of_le listed (listing_le_supports votes read))

theorem mem_tallied_of_zero (sorts : ∀ k, SortsBy cmpIntStrings (sorts_ k))
    (zero : methodNumber s = 0) (listed : votes.length * 2 / 3 < listing votes s) :
    s ∈ tallied cmpIntStrings sorts_ (votes.length * 2 / 3) votes := by
  have alone (a : CString) (equal : cmpIntStrings a s = .eq) : a = s :=
    ((cmpIntStrings_eq_iff a s).mp equal).2 zero
  exact (mem_tallied_iff (agree_methods votes) sorts fun _ _ a _ => alone a).mpr listed

/-- A number that is written in one way has one string among what is gathered. -/
theorem gathered_uniform (sorts : ∀ k, SortsBy cmpIntStrings (sorts_ k)) (positive : 1 ≤ m)
    (alike : SpeltAlike votes m) (k : Nat) :
    ∀ s ∈ gather (fun k ballot => smartlistUniq cmpIntStrings (sorts_ k ballot)) k votes,
      ∀ t ∈ gather (fun k ballot => smartlistUniq cmpIntStrings (sorts_ k ballot)) k votes,
        methodNumber s = m → methodNumber t = m → s = t := by
  induction votes generalizing k with
  | nil => exact fun s member => absurd member List.not_mem_nil
  | cons methods votes ih =>
    obtain ⟨first, later⟩ := List.pairwise_cons.mp alike
    have picks : Picks cmpIntStrings methods
        (smartlistUniq cmpIntStrings (sorts_ k methods)) :=
      picks_of_sorts (sorts k) fun _ _ _ _ => rfl
    have across : ∀ s ∈ smartlistUniq cmpIntStrings (sorts_ k methods),
        ∀ t ∈ gather (fun k ballot => smartlistUniq cmpIntStrings (sorts_ k ballot)) (k + 1) votes,
          methodNumber s = m → methodNumber t = m → s = t := by
      intro s here t there
      obtain ⟨i, other, found, inside⟩ := mem_gather.mp there
      have picks' : Picks cmpIntStrings other
          (smartlistUniq cmpIntStrings (sorts_ (k + 1 + i) other)) :=
        picks_of_sorts (sorts _) fun _ _ _ _ => rfl
      exact first other (List.mem_of_getElem? found) s (picks.inside s here) t
        (picks'.inside t inside)
    intro s sMember t tMember sNumber tNumber
    rw [gather, List.mem_append] at sMember tMember
    cases sMember with
    | inl sHere =>
      cases tMember with
      | inl tHere =>
        exact picks.eq_of_equal sHere tHere
          ((cmpIntStrings_eq_iff s t).mpr ⟨sNumber.trans tNumber.symm, fun zero => by omega⟩)
      | inr tThere => exact across s sHere t tThere sNumber tNumber
    | inr sThere =>
      cases tMember with
      | inl tHere => exact (across t tHere s sThere tNumber sNumber).symm
      | inr tThere => exact ih later (k + 1) s sThere t tThere sNumber tNumber

theorem listingEqual_number (votes : List (List CString)) (number : methodNumber s = m)
    (positive : 1 ≤ m) :
    listingEqual cmpIntStrings votes s = votes.countP fun methods => Supports methods m := by
  apply List.countP_congr
  intro methods _
  rw [List.any_eq_true, decide_eq_true_eq]
  constructor
  · intro ⟨t, listed, equal⟩
    rw [decide_eq_true_eq, cmpIntStrings_eq_iff] at equal
    exact ⟨t, listed, (methodNumber_eq_iff positive).mp (equal.1.trans number)⟩
  · intro ⟨t, listed, read⟩
    refine ⟨t, listed, ?_⟩
    rw [decide_eq_true_eq, cmpIntStrings_eq_iff, (methodNumber_eq_iff positive).mpr read]
    exact ⟨number.symm, fun zero => by omega⟩

theorem exists_tallied (sorts : ∀ k, SortsBy cmpIntStrings (sorts_ k))
    (accepted : Accepted votes m) (alike : SpeltAlike votes m) :
    ∃ s ∈ tallied cmpIntStrings sorts_ (votes.length * 2 / 3) votes, methodNumber s = m := by
  have positive := accepted.range.1
  have picks := (agree_methods votes).picks sorts
  have some_ : 0 < votes.countP fun methods => Supports methods m :=
    lt_of_le_of_lt (Nat.zero_le _) accepted
  obtain ⟨methods, member, supports⟩ := List.countP_pos_iff.mp some_
  obtain ⟨t, listed, read⟩ := of_decide_eq_true supports
  have tNumber := (methodNumber_eq_iff positive).mpr read
  have count := gather_equals (k := 0) picks t
  rw [listingEqual_number votes tNumber positive] at count
  change (equals cmpIntStrings t (gathered cmpIntStrings sorts_ votes)).length = _ at count
  obtain ⟨s, inside⟩ : ∃ s, s ∈ equals cmpIntStrings t (gathered cmpIntStrings sorts_ votes) :=
    List.exists_mem_of_length_pos (by omega)
  have sGathered := List.mem_of_mem_filter inside
  have sNumber : methodNumber s = m :=
    ((cmpIntStrings_eq_iff s t).mp (equals_all s inside)).1.trans tNumber
  have uniform : ∀ a ∈ gathered cmpIntStrings sorts_ votes, cmpIntStrings a s = .eq → a = s := by
    intro a aGathered equal
    exact gathered_uniform sorts positive alike 0 a aGathered s sGathered
      (((cmpIntStrings_eq_iff a s).mp equal).1.trans sNumber) sNumber
  refine ⟨s, (mem_tallied_of_uniform (agree_methods votes) sorts uniform).mpr ?_, sNumber⟩
  rw [listingEqual_number votes sNumber positive]
  exact accepted

theorem number_le_last (sorts : ∀ k, SortsBy cmpIntStrings (sorts_ k)) {s best : CString}
    (member : s ∈ tallied cmpIntStrings sorts_ (votes.length * 2 / 3) votes)
    (last : (tallied cmpIntStrings sorts_ (votes.length * 2 / 3) votes).getLast? = some best) :
    methodNumber s ≤ methodNumber best := by
  have sorted : (tallied cmpIntStrings sorts_ (votes.length * 2 / 3) votes).Pairwise
      fun a b => (cmpIntStrings a b).isLE = true := tallied_sorted (agree_methods votes) sorts
  obtain ⟨front, split⟩ := List.getLast?_eq_some_iff.mp last
  rw [split, List.pairwise_append] at sorted
  rw [split, List.mem_append, List.mem_singleton] at member
  cases member with
  | inl before => exact number_le_of_isLE (sorted.2.2 s before best (List.mem_singleton_self best))
  | inr same => rw [same]

theorem computeConsensusMethod_highest (settled : MethodsSettled votes)
    (sorts : ∀ k, SortsBy cmpIntStrings (sorts_ k)) :
    IsHighest votes (computeConsensusMethod sorts_ votes) := by
  rw [computeConsensusMethod_eq]
  obtain ⟨m, accepted, highest, alike⟩ | ⟨one, strings⟩ := settled
  · obtain ⟨s, member, sNumber⟩ := exists_tallied sorts accepted alike
    cases last : (tallied cmpIntStrings sorts_ (votes.length * 2 / 3) votes).getLast? with
    | none =>
      rw [List.getLast?_eq_none_iff.mp last] at member
      cases member
    | some best =>
      have above := number_le_last sorts member last
      have positive := accepted.range.1
      obtain ⟨zero, -⟩ | other := tallied_number sorts (List.mem_of_getLast? last)
      · omega
      · have below := highest _ other
        have same : methodNumber best = m := by
          omega
        dsimp only
        rw [same]
        exact Or.inl ⟨accepted, highest⟩
  · have result : IsHighest votes 1 := by
      by_cases some_ : Accepted votes 1
      · exact Or.inl ⟨some_, fun m' other => le_of_eq (one m' other)⟩
      · refine Or.inr ⟨rfl, fun m' other => ?_⟩
        rw [one m' other] at other
        exact some_ other
    cases last : (tallied cmpIntStrings sorts_ (votes.length * 2 / 3) votes).getLast? with
    | none => exact result
    | some best =>
      obtain ⟨zero, listed⟩ | other := tallied_number sorts (List.mem_of_getLast? last)
      · exact absurd (strings best zero) (not_le.mpr listed)
      · dsimp only
        rw [one _ other]
        exact result

theorem exists_highest (accepted : Accepted votes m) :
    ∃ m', Accepted votes m' ∧ ∀ other, Accepted votes other → other ≤ m' :=
  Int.exists_greatest_of_bdd ⟨intMax, fun _ other => other.range.2⟩ ⟨m, accepted⟩

theorem exists_picking_method {methods : List CString} (listed : s ∈ methods) :
    ∃ sort, SortsBy cmpIntStrings sort ∧ s ∈ smartlistUniq cmpIntStrings (sort methods) := by
  have agree : ∀ a ∈ methods, ∀ b ∈ methods, cmpIntStrings a b = cmpIntStrings a b :=
    fun _ _ _ _ => rfl
  exact exists_picking agree listed

/-- A number that two votes write differently need not be tallied. -/
theorem exists_untallied_number (positive : 1 ≤ m) (differ : ¬ SpeltAlike votes m) :
    ∃ qsort, (∀ k, SortsBy cmpIntStrings (qsort k))
      ∧ ∀ s ∈ tallied cmpIntStrings qsort (votes.length * 2 / 3) votes, methodNumber s ≠ m := by
  unfold SpeltAlike at differ
  rw [List.pairwise_iff_getElem] at differ
  push Not at differ
  obtain ⟨i, j, iLt, jLt, less, s, sListed, t, tListed, sNumber, tNumber, other⟩ := differ
  obtain ⟨sSort, sSorts, sPicked⟩ := exists_picking_method sListed
  obtain ⟨tSort, tSorts, tPicked⟩ := exists_picking_method tListed
  let qsort : Nat → List CString → List CString := fun k =>
    if k = i then sSort else if k = j then tSort else byInsertion cmpIntStrings k
  have sorts : ∀ k, SortsBy cmpIntStrings (qsort k) := by
    intro k
    change SortsBy cmpIntStrings (if k = i then _ else if k = j then _ else _)
    split
    · exact sSorts
    · split
      · exact tSorts
      · exact insertionSort_sortsBy
  have first : s ∈ gathered cmpIntStrings qsort votes := by
    apply mem_gathered iLt
    change s ∈ smartlistUniq _ ((if i = i then sSort else _) votes[i])
    rw [if_pos rfl]
    exact sPicked
  have second : t ∈ gathered cmpIntStrings qsort votes := by
    apply mem_gathered jLt
    change t ∈ smartlistUniq _ ((if j = i then sSort else if j = j then tSort else _) votes[j])
    rw [if_neg (by omega), if_pos rfl]
    exact tPicked
  have equal : cmpIntStrings s t = .eq :=
    (cmpIntStrings_eq_iff s t).mpr ⟨sNumber.trans tNumber.symm, fun zero => by omega⟩
  obtain ⟨qsort', sorts', none_⟩ : ∃ qsort', (∀ k, SortsBy cmpIntStrings (qsort' k))
      ∧ ∀ x, cmpIntStrings x t = .eq →
        x ∉ tallied cmpIntStrings qsort' (votes.length * 2 / 3) votes :=
    exists_untallied (agree_methods votes) sorts first second other equal (by omega)
  refine ⟨qsort', sorts', ?_⟩
  intro x member number
  exact none_ x ((cmpIntStrings_eq_iff x t).mpr ⟨number.trans tNumber.symm, fun zero => by omega⟩)
    member

end

/-- Where the function always finds the highest method, the votes are settled. -/
theorem methodsSettled_of_highest
    (exact_ : ∀ qsort, (∀ k, SortsBy cmpIntStrings (qsort k)) →
      IsHighest votes (computeConsensusMethod qsort votes)) : MethodsSettled votes := by
  have last (qsort : Nat → List CString → List CString)
      (sorts : ∀ k, SortsBy cmpIntStrings (qsort k)) {s : CString} (zero : methodNumber s = 0)
      (listed : votes.length * 2 / 3 < listing votes s) :
      ∃ best, computeConsensusMethod qsort votes = methodNumber best
        ∧ best ∈ tallied cmpIntStrings qsort (votes.length * 2 / 3) votes := by
    rw [computeConsensusMethod_eq]
    cases found : (tallied cmpIntStrings qsort (votes.length * 2 / 3) votes).getLast? with
    | none =>
      have member := mem_tallied_of_zero sorts zero listed
      rw [List.getLast?_eq_none_iff.mp found] at member
      cases member
    | some best => exact ⟨best, rfl, List.mem_of_getLast? found⟩
  by_cases some_ : ∃ m, Accepted votes m
  · obtain ⟨m, accepted, highest⟩ := exists_highest some_.choose_spec
    by_cases alike : SpeltAlike votes m
    · exact Or.inl ⟨m, accepted, highest, alike⟩
    · have positive := accepted.range.1
      obtain ⟨qsort, sorts, untallied⟩ := exists_untallied_number positive alike
      have result := exact_ qsort sorts
      have isM : computeConsensusMethod qsort votes = m := by
        obtain ⟨other, greatest⟩ | ⟨-, none_⟩ := result
        · exact le_antisymm (highest _ other) (greatest m accepted)
        · exact absurd accepted (none_ m)
      have isOne : m = 1 := by
        rw [computeConsensusMethod_eq] at isM
        cases found : (tallied cmpIntStrings qsort (votes.length * 2 / 3) votes).getLast? with
        | none =>
          rw [found] at isM
          exact isM.symm
        | some best =>
          rw [found] at isM
          exact absurd isM (untallied best (List.mem_of_getLast? found))
      refine Or.inr ⟨fun m' other => ?_, fun s zero => ?_⟩
      · exact le_antisymm (isOne ▸ highest m' other) other.range.1
      · by_contra listed
        obtain ⟨best, same, member⟩ := last qsort sorts zero (not_le.mp listed)
        exact untallied best member (same.symm.trans isM)
  · refine Or.inr ⟨fun m accepted => absurd ⟨m, accepted⟩ some_, fun s zero => ?_⟩
    by_contra listed
    have sorts : ∀ k, SortsBy cmpIntStrings (byInsertion cmpIntStrings k) :=
      fun _ => insertionSort_sortsBy
    obtain ⟨best, same, member⟩ := last _ sorts zero (not_le.mp listed)
    have result := exact_ _ sorts
    rw [same] at result
    obtain ⟨accepted, -⟩ | ⟨one, -⟩ := result
    · exact some_ ⟨_, accepted⟩
    · obtain ⟨bestZero, -⟩ | accepted := tallied_number sorts member
      · omega
      · exact some_ ⟨_, accepted⟩

end Methods

/-! ### The order of the votes -/

theorem Accepted.perm {votes votes' : List (List CString)} (perm : votes'.Perm votes) {m : Int} :
    Accepted votes' m ↔ Accepted votes m := by
  rw [Accepted, Accepted, perm.length_eq, perm.countP_eq]

theorem IsHighest.perm {votes votes' : List (List CString)} (perm : votes'.Perm votes) {m : Int} :
    IsHighest votes' m ↔ IsHighest votes m := by
  unfold IsHighest
  simp only [Accepted.perm perm]

theorem MethodsSettled.perm {votes votes' : List (List CString)} (perm : votes'.Perm votes)
    (settled : MethodsSettled votes) : MethodsSettled votes' := by
  have alike (m : Int) : SpeltAlike votes m → SpeltAlike votes' m := by
    apply (perm.symm.pairwise_iff _).mp
    intro methods methods' first s sListed s' listed' sNumber number'
    exact (first s' listed' s sListed number' sNumber).symm
  obtain ⟨m, accepted, highest, spelt⟩ | ⟨one, strings⟩ := settled
  · refine Or.inl ⟨m, (Accepted.perm perm).mpr accepted, fun m' other => ?_, alike m spelt⟩
    exact highest m' ((Accepted.perm perm).mp other)
  · refine Or.inr ⟨fun m accepted => one m ((Accepted.perm perm).mp accepted), fun s zero => ?_⟩
    rw [listing, perm.countP_eq, perm.length_eq]
    exact strings s zero

/-! ## Recommended versions -/

/-- The lists of the votes that have one. -/
def versionBallots (versions : List (Option CString)) : List (List CString) :=
  versions.reduceOption.map splitRecommended

/-- There is one list of the versions that more than half of the versioning votes list, and every
order of the votes and of equal versions gives it. -/
def VersionsExact (versions : List (Option CString)) : Prop :=
  ∃ good : List CString, good.Nodup
    ∧ (∀ s, s ∈ good ↔ versions.reduceOption.length / 2 < listing (versionBallots versions) s)
    ∧ ∀ qsort, (∀ k, SortsBy compareTorVersionStrPtr (qsort k)) →
      ∀ versions', versions'.Perm versions →
        consensusVersions qsort versions' = List.intercalate [44] good

/-- What the lists are to be like: the comparison orders their versions, and no vote lists another
string for a version that more than half of the votes list. -/
def VersionsSettled (versions : List (Option CString)) : Prop :=
  OrderedOn compareTorVersionStrPtr (versionBallots versions).flatten
    ∧ ∀ s, versions.reduceOption.length / 2 < listing (versionBallots versions) s →
      ∀ ballot ∈ versionBallots versions, ∀ t ∈ ballot,
        compareTorVersionStrPtr t s = .eq → t = s

theorem consensusVersions_eq (qsort : Nat → List CString → List CString)
    (versions : List (Option CString)) :
    consensusVersions qsort versions = List.intercalate [44]
      (tallied compareTorVersionStrPtr qsort (versions.reduceOption.length / 2)
        (versionBallots versions)) := by
  have length : (versionBallots versions).length = versions.reduceOption.length :=
    List.length_map _
  unfold consensusVersions computeConsensusVersionsList tallied
  dsimp only
  rw [getFrequentMembers_eq, length]
  rfl

theorem versionBallots_perm {versions versions' : List (Option CString)}
    (perm : versions'.Perm versions) :
    (versionBallots versions').Perm (versionBallots versions) := by
  exact (perm.filterMap id).map splitRecommended

theorem not_mem_of_mem_splitOn {s part : CString} {c : UInt8} (inside : part ∈ s.splitOn c) :
    c ∉ part := by
  induction s generalizing part with
  | nil =>
    rw [List.splitOn_nil, List.mem_singleton] at inside
    rw [inside]
    exact List.not_mem_nil
  | cons x s ih =>
    rw [List.splitOn_cons_eq_if_modifyHead] at inside
    by_cases here : (x == c) = true
    · rw [if_pos here, List.mem_cons] at inside
      obtain rfl | later := inside
      · exact List.not_mem_nil
      · exact ih later
    · rw [if_neg here] at inside
      obtain ⟨head, tail, parts⟩ := List.exists_cons_of_ne_nil (List.splitOn_ne_nil c s)
      rw [parts] at inside ih
      rw [List.modifyHead_cons, List.mem_cons] at inside
      obtain rfl | later := inside
      · rw [List.mem_cons, not_or]
        exact ⟨fun same => here (by rw [same]; exact beq_self_eq_true x), ih List.mem_cons_self⟩
      · exact ih (List.mem_cons_of_mem _ later)

theorem splitRecommended_plain {versions s : CString} (listed : s ∈ splitRecommended versions) :
    s ≠ [] ∧ (44 : UInt8) ∉ s := by
  rw [splitRecommended, List.mem_filter, decide_eq_true_eq] at listed
  refine ⟨listed.2, ?_⟩
  obtain ⟨part, inside, rfl⟩ := List.mem_map.mp listed.1
  intro member
  rw [skipSpace, List.mem_reverse] at member
  have kept := (List.dropWhile_sublist _).subset member
  rw [List.mem_reverse] at kept
  exact not_mem_of_mem_splitOn inside ((List.dropWhile_sublist _).subset kept)

theorem eq_of_cmpVersionField {aval bval : Int} (aLow : -2 ^ 31 ≤ aval) (aHigh : aval < 2 ^ 31)
    (bLow : -2 ^ 31 ≤ bval) (bHigh : bval < 2 ^ 31) (equal : cmpVersionField aval bval = .eq) :
    aval = bval := by
  unfold cmpVersionField at equal
  dsimp only at equal
  split at equal
  · cases equal
  · split at equal
    · cases equal
    · rw [Int.bmod_def] at *
      omega

theorem eq_of_torVersionCompare {v w : TorVersion} (first : Parsed v) (second : Parsed w)
    (equal : torVersionCompare v w = .eq) : v = w := by
  have fields := equal
  unfold torVersionCompare at fields
  simp only [Ordering.then_eq_eq] at fields
  obtain ⟨-, -, -, -, -, -, revisions, -⟩ := fields
  have same : v.svnRevision = w.svnRevision :=
    eq_of_cmpVersionField first.svnRevision.1 first.svnRevision.2 second.svnRevision.1
      second.svnRevision.2 revisions
  have close : CloseRevisions v w := by
    unfold CloseRevisions FitsInt
    omega
  rw [torVersionCompare_eq first second close] at equal
  exact (versionOrder_eq_iff first second).mp equal

theorem parse_of_compare {s t : CString} (equal : compareTorVersionStrPtr s t = .eq) :
    s = t ∨ ∃ v, torVersionParse s = some v ∧ torVersionParse t = some v := by
  unfold compareTorVersionStrPtr at equal
  cases first : torVersionParse s with
  | none =>
    rw [first] at equal
    cases second : torVersionParse t with
    | none =>
      rw [second] at equal
      exact Or.inl (Std.compare_eq_iff_eq.mp equal)
    | some w =>
      rw [second] at equal
      cases equal
  | some v =>
    rw [first] at equal
    cases second : torVersionParse t with
    | none =>
      rw [second] at equal
      cases equal
    | some w =>
      rw [second] at equal
      have same := eq_of_torVersionCompare (torVersionParse_parsed first)
        (torVersionParse_parsed second) equal
      exact Or.inr ⟨w, by rw [same], rfl⟩

/-- Strings that no comparison tells apart. -/
def Interchangeable (s t : CString) : Prop :=
  ∀ u, compareTorVersionStrPtr s u = compareTorVersionStrPtr t u
    ∧ compareTorVersionStrPtr u s = compareTorVersionStrPtr u t

theorem interchangeable_of_compare {s t : CString} (equal : compareTorVersionStrPtr s t = .eq) :
    Interchangeable s t := by
  intro u
  obtain rfl | ⟨v, first, second⟩ := parse_of_compare equal
  · exact ⟨rfl, rfl⟩
  · unfold compareTorVersionStrPtr
    rw [first, second]
    constructor
    · cases torVersionParse u <;> rfl
    · cases torVersionParse u <;> rfl

theorem smartlistUniq_represents (l : List CString) :
    ∀ s ∈ l, ∃ t ∈ smartlistUniq compareTorVersionStrPtr l, Interchangeable s t := by
  have self (s : CString) : Interchangeable s s := fun _ => ⟨rfl, rfl⟩
  cases l with
  | nil => exact fun s member => absurd member List.not_mem_nil
  | cons f l =>
    induction l generalizing f with
    | nil =>
      intro s member
      exact ⟨f, head_mem_smartlistUniq f [], List.mem_singleton.mp member ▸ self s⟩
    | cons g l ih =>
      intro s member
      rw [smartlistUniq]
      by_cases equal : compareTorVersionStrPtr f g = .eq
      · rw [if_pos equal]
        obtain rfl | later := List.mem_cons.mp member
        · exact ih s s List.mem_cons_self
        · obtain rfl | last := List.mem_cons.mp later
          · obtain ⟨t, stays, same⟩ := ih f f List.mem_cons_self
            refine ⟨t, stays, fun u => ?_⟩
            have step := interchangeable_of_compare equal u
            exact ⟨step.1.symm.trans (same u).1, step.2.symm.trans (same u).2⟩
          · exact ih f s (List.mem_cons_of_mem _ last)
      · rw [if_neg equal]
        obtain rfl | later := List.mem_cons.mp member
        · exact ⟨s, List.mem_cons_self, self s⟩
        · obtain ⟨t, stays, same⟩ := ih g s later
          exact ⟨t, List.mem_cons_of_mem _ stays, same⟩

theorem orderedOn_of_gathered {ballots : List (List CString)}
    (lawful : OrderedOn compareTorVersionStrPtr
      (gathered compareTorVersionStrPtr (byInsertion compareTorVersionStrPtr) ballots)) :
    OrderedOn compareTorVersionStrPtr ballots.flatten := by
  have represents : ∀ s ∈ ballots.flatten,
      ∃ t ∈ gathered compareTorVersionStrPtr (byInsertion compareTorVersionStrPtr) ballots,
        Interchangeable s t := by
    intro s member
    obtain ⟨ballot, listed, inside⟩ := List.mem_flatten.mp member
    obtain ⟨i, less, rfl⟩ := List.getElem_of_mem listed
    have sorted := (List.perm_insertionSort
      (fun a b => (compareTorVersionStrPtr a b).isLE = true) ballots[i]).mem_iff.mpr inside
    obtain ⟨t, stays, same⟩ := smartlistUniq_represents _ s sorted
    exact ⟨t, mem_gathered less stays, same⟩
  have move {s t s' t' : CString} (first : Interchangeable s s') (second : Interchangeable t t') :
      compareTorVersionStrPtr s t = compareTorVersionStrPtr s' t' :=
    (first t).1.trans (second s').2
  constructor
  · intro a ha b hb
    obtain ⟨a', ha', aSame⟩ := represents a ha
    obtain ⟨b', hb', bSame⟩ := represents b hb
    rw [move aSame bSame, move bSame aSame]
    exact lawful.swap a' ha' b' hb'
  · intro a ha b hb c hc
    obtain ⟨a', ha', aSame⟩ := represents a ha
    obtain ⟨b', hb', bSame⟩ := represents b hb
    obtain ⟨c', hc', cSame⟩ := represents c hc
    rw [move aSame bSame, move bSame cSame, move aSame cSame]
    exact lawful.trans a' ha' b' hb' c' hc'

theorem exists_anything {ballots : List (List CString)} (min : Nat)
    (unlawful : ¬ OrderedOn compareTorVersionStrPtr ballots.flatten) (result : List CString) :
    ∃ qsort, (∀ k, SortsBy compareTorVersionStrPtr (qsort k))
      ∧ tallied compareTorVersionStrPtr qsort min ballots = longRuns min result := by
  classical
  let last : List CString → List CString := fun l =>
    if OrderedOn compareTorVersionStrPtr l then byInsertion compareTorVersionStrPtr 0 l else result
  have lastSorts : SortsBy compareTorVersionStrPtr last := by
    intro l lawful
    have here : last l = byInsertion compareTorVersionStrPtr 0 l := if_pos lawful
    rw [here]
    exact insertionSort_sortsBy l lawful
  refine ⟨Function.update (byInsertion compareTorVersionStrPtr) ballots.length last, ?_, ?_⟩
  · intro k
    by_cases here : k = ballots.length
    · rw [here, Function.update_self]
      exact lastSorts
    · rw [Function.update_of_ne here]
      exact insertionSort_sortsBy
  · have kept : gathered compareTorVersionStrPtr
        (Function.update (byInsertion compareTorVersionStrPtr) ballots.length last) ballots =
        gathered compareTorVersionStrPtr (byInsertion compareTorVersionStrPtr) ballots := by
      apply gather_congr
      intro i less
      funext ballot
      rw [Nat.zero_add, Function.update_of_ne (Nat.ne_of_lt less)]
    have given : last (gathered compareTorVersionStrPtr (byInsertion compareTorVersionStrPtr)
        ballots) = result :=
      if_neg fun lawful => unlawful (orderedOn_of_gathered lawful)
    rw [tallied, kept, Function.update_self, given]

theorem intercalate_inj {good good' : List CString} (plain : ∀ s ∈ good, s ≠ [] ∧ (44 : UInt8) ∉ s)
    (plain' : ∀ s ∈ good', s ≠ [] ∧ (44 : UInt8) ∉ s)
    (same : List.intercalate [44] good = List.intercalate [44] good') : good = good' := by
  have empty {l : List CString} (plainL : ∀ s ∈ l, s ≠ [] ∧ (44 : UInt8) ∉ s)
      (none_ : List.intercalate [44] l = []) : l = [] := by
    cases l with
    | nil => rfl
    | cons s l =>
      have parts : (List.intercalate [44] (s :: l)).splitOn (44 : UInt8) = s :: l :=
        List.splitOn_intercalate (44 : UInt8) (fun t member => (plainL t member).2)
          (List.cons_ne_nil s l)
      rw [none_, List.splitOn_nil, List.cons.injEq] at parts
      exact absurd parts.1.symm (plainL s List.mem_cons_self).1
  by_cases first : good = []
  · rw [first] at same ⊢
    exact (empty plain' same.symm).symm
  · by_cases second : good' = []
    · rw [second] at same
      exact absurd (empty plain same) first
    · rw [← List.splitOn_intercalate (44 : UInt8) (fun t member => (plain t member).2) first, same,
        List.splitOn_intercalate (44 : UInt8) (fun t member => (plain' t member).2) second]

theorem tallied_plain {versions : List (Option CString)} {order : CString → CString → Ordering}
    [TransCmp order] {qsort : Nat → List CString → List CString} {min : Nat}
    (agree : Agree compareTorVersionStrPtr order (versionBallots versions))
    (sorts : ∀ k, SortsBy compareTorVersionStrPtr (qsort k)) :
    ∀ s ∈ tallied compareTorVersionStrPtr qsort min (versionBallots versions),
      s ≠ [] ∧ (44 : UInt8) ∉ s := by
  intro s member
  have inside := (agree.sorted sorts _).1.mem_iff.mp ((longRuns_sublist min _).subset member)
  obtain ⟨ballot, listed, here⟩ := List.mem_flatten.mp (agree.inside sorts s inside)
  obtain ⟨line, -, rfl⟩ := List.mem_map.mp listed
  exact splitRecommended_plain here

/-- A version for which a vote lists another string can be missed. -/
theorem exists_missed {versions : List (Option CString)} {order : CString → CString → Ordering}
    [TransCmp order] (agree : Agree compareTorVersionStrPtr order (versionBallots versions))
    {s t : CString} {ballot : List CString} (listed : ballot ∈ versionBallots versions)
    (tListed : t ∈ ballot) (equal : compareTorVersionStrPtr t s = .eq) (differ : t ≠ s) :
    ∃ qsort, (∀ k, SortsBy compareTorVersionStrPtr (qsort k))
      ∧ s ∉ tallied compareTorVersionStrPtr qsort (versions.reduceOption.length / 2)
        (versionBallots versions) := by
  have length : (versionBallots versions).length = versions.reduceOption.length :=
    List.length_map _
  obtain ⟨i, less, rfl⟩ := List.getElem_of_mem listed
  obtain ⟨tSort, tSorts, tPicked⟩ := exists_picking (agree.ballot listed) tListed
  let qsort : Nat → List CString → List CString := fun k =>
    if k = i then tSort else byInsertion compareTorVersionStrPtr k
  have sorts : ∀ k, SortsBy compareTorVersionStrPtr (qsort k) := by
    intro k
    change SortsBy compareTorVersionStrPtr (if k = i then _ else _)
    split
    · exact tSorts
    · exact insertionSort_sortsBy
  have tGathered : t ∈ gathered compareTorVersionStrPtr qsort (versionBallots versions) := by
    apply mem_gathered less
    change t ∈ smartlistUniq _ ((if i = i then tSort else _) (versionBallots versions)[i])
    rw [if_pos rfl]
    exact tPicked
  by_cases sGathered : s ∈ gathered compareTorVersionStrPtr qsort (versionBallots versions)
  · have same : order t s = .eq := by
      rw [agree t (agree.inside sorts t tGathered) s (agree.inside sorts s sGathered)]
      exact equal
    have self : order s s = .eq := ReflCmp.compare_self
    obtain ⟨qsort', sorts', none_⟩ : ∃ qsort', (∀ k, SortsBy compareTorVersionStrPtr (qsort' k))
        ∧ ∀ x, order x s = .eq → x ∉ tallied compareTorVersionStrPtr qsort'
          (versions.reduceOption.length / 2) (versionBallots versions) :=
      exists_untallied agree sorts tGathered sGathered differ same (by omega)
    exact ⟨qsort', sorts', none_ s self⟩
  · refine ⟨qsort, sorts, fun member => sGathered ?_⟩
    exact (agree.sorted sorts _).1.mem_iff.mp ((longRuns_sublist _ _).subset member)

/-- A list of the versions that enough votes list, in order. -/
structure GoodVersions (versions : List (Option CString)) (order : CString → CString → Ordering)
    (good : List CString) : Prop where
  distinct : good.Nodup
  members : ∀ s, s ∈ good ↔
    versions.reduceOption.length / 2 < listing (versionBallots versions) s
  sorted : good.Pairwise fun a b => (order a b).isLE = true

section Settled

variable {versions : List (Option CString)} {order : CString → CString → Ordering} [TransCmp order]

theorem GoodVersions.unique {good good' : List CString} (first : GoodVersions versions order good)
    (apart : ∀ s, versions.reduceOption.length / 2 < listing (versionBallots versions) s →
      ∀ ballot ∈ versionBallots versions, ∀ t ∈ ballot, order t s = .eq → t = s)
    (second : GoodVersions versions order good') : good = good' := by
  have perm : good.Perm good' := by
    rw [List.perm_ext_iff_of_nodup first.distinct second.distinct]
    intro s
    rw [first.members, second.members]
  apply List.Perm.eq_of_pairwise _ first.sorted second.sorted perm
  intro a b aIn bIn le ge
  have some_ := lt_of_le_of_lt (Nat.zero_le _) ((first.members a).mp aIn)
  obtain ⟨ballot, listed, inside⟩ := List.countP_pos_iff.mp some_
  exact apart b ((second.members b).mp bIn) ballot listed a (by simpa using inside)
    (OrientedCmp.isLE_antisymm le ge)

theorem tallied_versions (agree : Agree compareTorVersionStrPtr order (versionBallots versions))
    (apart : ∀ s, versions.reduceOption.length / 2 < listing (versionBallots versions) s →
      ∀ ballot ∈ versionBallots versions, ∀ t ∈ ballot, order t s = .eq → t = s)
    {qsort : Nat → List CString → List CString}
    (sorts : ∀ k, SortsBy compareTorVersionStrPtr (qsort k)) {versions' : List (Option CString)}
    (perm : versions'.Perm versions) :
    GoodVersions versions order (tallied compareTorVersionStrPtr qsort
      (versions.reduceOption.length / 2) (versionBallots versions')) := by
  have ballots := versionBallots_perm perm
  have length : (versionBallots versions').length = versions.reduceOption.length :=
    ballots.length_eq.trans (List.length_map _)
  have agree' : Agree compareTorVersionStrPtr order (versionBallots versions') := by
    intro a ha b hb
    exact agree a (ballots.flatten.mem_iff.mp ha) b (ballots.flatten.mem_iff.mp hb)
  have same (s : CString) :
      listing (versionBallots versions') s = listing (versionBallots versions) s :=
    ballots.countP_eq _
  constructor
  · exact tallied_nodup agree' sorts (by omega)
  · intro s
    rw [← same s]
    constructor
    · exact tallied_listing agree' sorts
    · intro many
      apply (mem_tallied_iff agree' sorts ?_).mpr many
      intro ballot listed
      exact apart s (same s ▸ many) ballot (ballots.mem_iff.mp listed)
  · exact tallied_sorted agree' sorts

end Settled

/-- The lists are exact just when they are settled. -/
theorem versionsExact_iff (versions : List (Option CString)) :
    VersionsExact versions ↔ VersionsSettled versions := by
  constructor
  · intro ⟨good, _, members, always⟩
    have result (qsort : Nat → List CString → List CString)
        (sorts : ∀ k, SortsBy compareTorVersionStrPtr (qsort k)) :
        List.intercalate [44] (tallied compareTorVersionStrPtr qsort
          (versions.reduceOption.length / 2) (versionBallots versions)) =
          List.intercalate [44] good := by
      rw [← consensusVersions_eq]
      exact always qsort sorts versions (List.Perm.refl _)
    have lawful : OrderedOn compareTorVersionStrPtr (versionBallots versions).flatten := by
      by_contra unlawful
      obtain ⟨qsort, sorts, nothing⟩ :=
        exists_anything (versions.reduceOption.length / 2) unlawful []
      obtain ⟨qsort', sorts', something⟩ :=
        exists_anything (versions.reduceOption.length / 2) unlawful
          (List.replicate (versions.reduceOption.length / 2 + 1) [97])
      have both := (result qsort sorts).trans (result qsort' sorts').symm
      rw [nothing, something, longRuns_replicate, if_pos (Nat.lt_succ_self _)] at both
      cases both
    obtain ⟨order, _, agree⟩ := lawful.exists_transCmp
    refine ⟨lawful, ?_⟩
    intro s many ballot listed t tListed equal
    by_contra differ
    obtain ⟨qsort, sorts, untallied⟩ := exists_missed agree listed tListed equal differ
    have goodPlain : ∀ u ∈ good, u ≠ [] ∧ (44 : UInt8) ∉ u := by
      intro u member
      have some_ := lt_of_le_of_lt (Nat.zero_le _) ((members u).mp member)
      obtain ⟨ballot, listed, inside⟩ := List.countP_pos_iff.mp some_
      obtain ⟨line, -, rfl⟩ := List.mem_map.mp listed
      exact splitRecommended_plain (by simpa using inside)
    have same := intercalate_inj (tallied_plain agree sorts) goodPlain (result qsort sorts)
    rw [same, members] at untallied
    exact untallied many
  · intro ⟨lawful, alone⟩
    obtain ⟨order, _, agree⟩ := lawful.exists_transCmp
    have apart : ∀ s, versions.reduceOption.length / 2 < listing (versionBallots versions) s →
        ∀ ballot ∈ versionBallots versions, ∀ t ∈ ballot, order t s = .eq → t = s := by
      intro s many ballot listed t tListed equal
      have some_ := lt_of_le_of_lt (Nat.zero_le _) many
      obtain ⟨other, otherListed, inside⟩ := List.countP_pos_iff.mp some_
      have sListed : s ∈ other := by simpa using inside
      rw [agree t (List.mem_flatten.mpr ⟨ballot, listed, tListed⟩) s
        (List.mem_flatten.mpr ⟨other, otherListed, sListed⟩)] at equal
      exact alone s many ballot listed t tListed equal
    have tally {qsort : Nat → List CString → List CString}
        (sorts : ∀ k, SortsBy compareTorVersionStrPtr (qsort k))
        {versions' : List (Option CString)} (perm : versions'.Perm versions) :=
      tallied_versions agree apart sorts perm
    have insertion : ∀ k, SortsBy compareTorVersionStrPtr (byInsertion compareTorVersionStrPtr k) :=
      fun _ => insertionSort_sortsBy
    have good := tally insertion (List.Perm.refl versions)
    refine ⟨_, good.distinct, good.members, ?_⟩
    intro qsort sorts versions' perm
    have other := tally sorts perm
    have lengths : versions'.reduceOption.length = versions.reduceOption.length :=
      (perm.filterMap id).length_eq
    rw [consensusVersions_eq, lengths, other.unique apart good]

/-! ## All tallies -/

/-- For every order of the votes, and however the calls of `qsort` put equal elements, the method
is the highest that is accepted and the lists have the versions that more than half list. -/
def TalliesExact (votes : List ListedByVote) : Prop :=
  (∀ qsort, (∀ k, SortsBy cmpIntStrings (qsort k)) →
      ∀ votes' : List ListedByVote, votes'.Perm votes →
      IsHighest (votes.map supportedMethods)
        (computeConsensusMethod qsort (votes'.map supportedMethods)))
    ∧ VersionsExact (votes.map clientVersions)
    ∧ VersionsExact (votes.map serverVersions)

/-- The tallies are exact just when the votes are settled. -/
theorem talliesExact_iff (votes : List ListedByVote) :
    TalliesExact votes ↔ MethodsSettled (votes.map supportedMethods)
      ∧ VersionsSettled (votes.map clientVersions)
      ∧ VersionsSettled (votes.map serverVersions) := by
  unfold TalliesExact
  rw [versionsExact_iff, versionsExact_iff]
  constructor
  · intro ⟨methods, versions⟩
    refine ⟨methodsSettled_of_highest fun qsort sorts => ?_, versions⟩
    exact methods qsort sorts votes (List.Perm.refl votes)
  · intro ⟨settled, versions⟩
    refine ⟨fun qsort sorts votes' perm => ?_, versions⟩
    have methods := perm.map supportedMethods
    rw [← IsHighest.perm methods]
    exact computeConsensusMethod_highest (settled.perm methods) sorts

/-- Three votes for one method, of which one writes it with a zero before. -/
def zeroVotes : List ListedByVote :=
  [⟨[textBytes "28"], none, none⟩, ⟨[textBytes "028"], none, none⟩, ⟨[textBytes "28"], none, none⟩]

/-- All three support the method, but no string is listed more than twice. -/
theorem talliesExact_zero :
    Accepted (zeroVotes.map supportedMethods) 28
      ∧ computeConsensusMethod (byInsertion cmpIntStrings)
        (zeroVotes.map supportedMethods) = 1
      ∧ ¬ TalliesExact zeroVotes := by
  have accepted : Accepted (zeroVotes.map supportedMethods) 28 := by
    unfold Accepted
    decide
  have ran : computeConsensusMethod (byInsertion cmpIntStrings)
      (zeroVotes.map supportedMethods) = 1 := by
    have none_ : tallied cmpIntStrings (byInsertion cmpIntStrings) 2
        (zeroVotes.map supportedMethods) = [] := by
      rw [List.eq_nil_iff_forall_not_mem]
      intro s member
      have many := tallied_listing (agree_methods _) (fun _ => insertionSort_sortsBy) member
      by_cases first : s = textBytes "28"
      · rw [first] at many
        revert many
        decide
      · have few : listing (zeroVotes.map supportedMethods) s ≤ 1 := by
          have counts : listing (zeroVotes.map supportedMethods) s =
              if s = textBytes "028" then 1 else 0 := by
            simp [listing, zeroVotes, first, List.countP_cons]
          rw [counts]
          split
          · exact Nat.le_refl 1
          · exact Nat.zero_le 1
        omega
    rw [computeConsensusMethod_eq, show (zeroVotes.map supportedMethods).length * 2 / 3
      = 2 from rfl, none_]
    rfl
  refine ⟨accepted, ran, ?_⟩
  intro ⟨methods, _⟩
  have highest := methods (byInsertion cmpIntStrings) (fun _ => insertionSort_sortsBy) zeroVotes
    (List.Perm.refl zeroVotes)
  rw [ran] at highest
  obtain ⟨-, greatest⟩ | ⟨-, none_⟩ := highest
  · exact absurd (greatest 28 accepted) (by decide)
  · exact none_ 28 accepted

end RendezMix.Guarantees.VoteTallies
