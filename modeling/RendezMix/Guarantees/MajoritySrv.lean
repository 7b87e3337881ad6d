import RendezMix.Source.SharedRandom

/-!
# The shared random values of a consensus

The value is chosen by its count among the votes, and its line is that of the
first vote for it after sorting, with the number of reveals of that vote. Which
vote comes first depends on the order of the votes.
-/
namespace RendezMix.Guarantees.MajoritySrv
open Library.ByteStrings Library.Decimals Library.Sorting Source

variable {rules : SrvRules} {votes votes' : List SrInfo} {current : Bool} {value other : Bytes 32}

/-! ## The choice -/

/-- The votes for a value among those that participate. -/
def votesFor (votes : List SrInfo) (current : Bool) (value : Bytes 32) : Nat :=
  (srvList votes current).countP fun srv => srv.value = value

/-- More than half of the authorities vote for a value, and as many as agreed for a fresh one. -/
def Wins (rules : SrvRules) (votes : List SrInfo) (current : Bool) (value : Bytes 32) : Prop :=
  rules.nVoters < 2 * votesFor votes current value
    ∧ (rules.srvIsFresh = true → rules.numSrvAgreements ≤ votesFor votes current value)

theorem shouldKeepSrv_iff (rules : SrvRules) (n : Nat) : shouldKeepSrv rules n = true ↔
    rules.nVoters < 2 * n ∧ (rules.srvIsFresh = true → rules.numSrvAgreements ≤ n) := by
  rw [shouldKeepSrv]
  constructor
  · intro kept
    split at kept
    · cases kept
    · split at kept
      · cases kept
      · next majority agreed =>
        refine ⟨by omega, fun fresh => ?_⟩
        rw [not_and, not_lt] at agreed
        exact agreed fresh
  · rintro ⟨majority, agreed⟩
    rw [if_neg (by omega), if_neg]
    rintro ⟨fresh, few⟩
    have enough := agreed fresh
    omega

theorem shouldKeepSrv_mono {m n : Nat} (kept : shouldKeepSrv rules m = true) (le : m ≤ n) :
    shouldKeepSrv rules n = true := by
  rw [shouldKeepSrv_iff] at kept ⊢
  refine ⟨by omega, fun fresh => ?_⟩
  have enough := kept.2 fresh
  omega

theorem compareSrv_eq (srv srv' : SrSrv) : compareSrv srv srv' = .eq ↔ srv.value = srv'.value := by
  rw [compareSrv, compareOn, Std.compare_eq_iff_eq, Subtype.val_inj]

section

variable (perm : votes'.Perm votes)

include perm

theorem srvList_perm (current : Bool) : (srvList votes' current).Perm (srvList votes current) :=
  (perm.filter _).filterMap _

theorem votesFor_perm (current : Bool) (value : Bytes 32) :
    votesFor votes' current value = votesFor votes current value :=
  (srvList_perm perm current).countP_eq _

theorem wins_perm : Wins rules votes' current value ↔ Wins rules votes current value := by
  rw [Wins, Wins, votesFor_perm perm]

end

theorem tally_sort (qsort : Sorter compareSrv) (srv : SrSrv) :
    tally compareSrv (qsort.sort (srvList votes current)) srv
      = votesFor votes current srv.value := by
  rw [tally, (qsort.perm _).countP_eq, votesFor]
  simp only [compareSrv_eq]
  simp only [eq_comm]

section

variable {srv' srv : SrSrv} {qsort : Sorter compareSrv}

theorem Wins.mem (wins : Wins rules votes current value) :
    ∃ srv ∈ srvList votes current, srv.value = value := by
  have pos : 0 < votesFor votes current value := by
    have majority := wins.1
    omega
  obtain ⟨srv, member, same⟩ := List.countP_pos_iff.mp pos
  exact ⟨srv, member, by simpa using same⟩

theorem getMajoritySrvFromVotes_some
    (chosen : getMajoritySrvFromVotes qsort rules votes current = some srv) :
    Wins rules votes current srv.value
      ∧ (qsort.sort (srvList votes current)).find? (fun s => s.value = srv.value) = some srv := by
  rw [getMajoritySrvFromVotes] at chosen
  by_cases none : qsort.sort (srvList votes current) = []
  · rw [none] at chosen
    cases chosen
  obtain ⟨top, n, result, spec⟩ := smartlistGetMostFrequent_spec _ none (qsort.ordered _)
  rw [result] at chosen
  simp only at chosen
  split at chosen
  · next kept =>
    cases chosen
    have count := spec.count
    rw [tally_sort] at count
    rw [count, shouldKeepSrv_iff] at kept
    have first := spec.first
    simp only [compareSrv_eq] at first
    simp only [eq_comm (b := srv.value)]
    exact ⟨kept, first⟩
  · cases chosen

theorem Wins.chosen (wins : Wins rules votes current value) (qsort : Sorter compareSrv) :
    ∃ srv, getMajoritySrvFromVotes qsort rules votes current = some srv := by
  obtain ⟨srv, member, same⟩ := wins.mem
  have inside : srv ∈ qsort.sort (srvList votes current) := (qsort.perm _).mem_iff.mpr member
  obtain ⟨top, n, result, spec⟩ := smartlistGetMostFrequent_spec _
    (List.ne_nil_of_mem inside) (qsort.ordered _)
  have most := spec.most srv inside trivial
  rw [tally_sort, same] at most
  have kept : shouldKeepSrv rules n = true := shouldKeepSrv_mono ((shouldKeepSrv_iff _ _).mpr wins) most
  refine ⟨top, ?_⟩
  rw [getMajoritySrvFromVotes, result]
  simp only [kept, if_true]

theorem Wins.chosen_mem (chosen : getMajoritySrvFromVotes qsort rules votes current = some srv) :
    srv ∈ srvList votes current :=
  (qsort.perm _).mem_iff.mp (List.mem_of_find?_eq_some (getMajoritySrvFromVotes_some chosen).2)

/-! ## The lines -/

theorem dropWhile_base64Encode (src rest : List UInt8) :
    (base64Encode src ++ newline :: rest).dropWhile (fun byte => byte ≠ newline)
      = newline :: rest := by
  have inside : ∀ byte ∈ base64Encode src, decide (byte ≠ newline) = true := by
    intro byte member
    rw [decide_eq_true_iff]
    rintro rfl
    exact base64Encode_ne_newline src member
  rw [List.dropWhile_append_of_pos inside, List.dropWhile_cons_of_neg (by simp)]

theorem srvToNsString_inj {key rest rest' : List UInt8}
    (same : srvToNsString srv key ++ rest = srvToNsString srv' key ++ rest') :
    srv.numReveals = srv'.numReveals ∧ rest = rest' := by
  simp only [srvToNsString, List.append_assoc, List.cons_append, List.append_cancel_left_eq,
    List.cons.injEq, true_and, List.nil_append] at same
  have ends (rest : List UInt8) (byte : UInt8) (head : (space :: rest).head? = some byte) :
      isDigit byte = false := by
    cases head
    decide
  have number := congrArg readDecimal same
  rw [readDecimal_decimal _ _ (ends _), readDecimal_decimal _ _ (ends _), Option.some.injEq,
    Prod.mk.injEq, List.cons.injEq] at number
  obtain ⟨reveals, _, rest⟩ := number
  have line := congrArg (List.dropWhile fun byte => byte ≠ newline) rest
  rw [dropWhile_base64Encode, dropWhile_base64Encode, List.cons.injEq] at line
  exact ⟨UInt64.toNat_inj.mp reveals, line.2⟩

/-! ## The condition -/

/-- A value is chosen exactly when it wins. -/
def FollowsMajority (rules : SrvRules) (votes : List SrInfo) : Prop :=
  ∀ (qsort : Sorter compareSrv) (current : Bool) (value : Bytes 32),
    (∃ srv, getMajoritySrvFromVotes qsort rules votes current = some srv ∧ srv.value = value)
      ↔ Wins rules votes current value

/-- The lines are the same for the votes in another order. -/
def OrderIndependent (rules : SrvRules) (votes : List SrInfo) : Prop :=
  ∀ (qsort qsort' : Sorter compareSrv) (votes' : List SrInfo), votes'.Perm votes →
    srGetStringForConsensus qsort' rules votes' = srGetStringForConsensus qsort rules votes

/-- No two values win, and the votes for the winner have the same number of reveals. -/
structure Agreeing (rules : SrvRules) (votes : List SrInfo) : Prop where
  single : ∀ current value other, Wins rules votes current value → Wins rules votes current other →
    value = other
  reveals : rules.authDirSharedRandomness = true → ∀ current,
    ∀ srv ∈ srvList votes current, ∀ srv' ∈ srvList votes current,
      Wins rules votes current srv.value → srv.value = srv'.value →
        srv.numReveals = srv'.numReveals

section

variable (agreeing : Agreeing rules votes)

include agreeing

theorem Agreeing.followsMajority : FollowsMajority rules votes := by
  intro qsort current value
  constructor
  · rintro ⟨srv, chosen, rfl⟩
    exact (getMajoritySrvFromVotes_some chosen).1
  · intro wins
    obtain ⟨srv, chosen⟩ := wins.chosen qsort
    have winner := (getMajoritySrvFromVotes_some chosen).1
    exact ⟨srv, chosen, agreeing.single current _ _ winner wins⟩

theorem Agreeing.choice (enabled : rules.authDirSharedRandomness = true)
    (perm : votes'.Perm votes) (qsort qsort' : Sorter compareSrv) (current : Bool) :
    getMajoritySrvFromVotes qsort' rules votes' current
      = getMajoritySrvFromVotes qsort rules votes current := by
  cases second : getMajoritySrvFromVotes qsort rules votes current with
  | none =>
    cases first : getMajoritySrvFromVotes qsort' rules votes' current with
    | none => rfl
    | some srv =>
      have wins := (wins_perm perm).mp (getMajoritySrvFromVotes_some first).1
      obtain ⟨srv', chosen⟩ := wins.chosen qsort
      rw [second] at chosen
      cases chosen
  | some srv =>
    have wins := (getMajoritySrvFromVotes_some second).1
    obtain ⟨srv', first⟩ := ((wins_perm perm).mpr wins).chosen qsort'
    have wins' := (wins_perm perm).mp (getMajoritySrvFromVotes_some first).1
    have same := agreeing.single current _ _ wins' wins
    have member := (srvList_perm perm current).mem_iff.mp (Wins.chosen_mem first)
    have reveals := agreeing.reveals enabled current _ member _ (Wins.chosen_mem second) wins' same
    rw [first]
    obtain ⟨n, v⟩ := srv
    obtain ⟨n', v'⟩ := srv'
    simp only at same reveals
    rw [same, reveals]

theorem Agreeing.orderIndependent : OrderIndependent rules votes := by
  intro qsort qsort' votes' perm
  rw [srGetStringForConsensus, srGetStringForConsensus]
  split
  · next enabled =>
    rw [agreeing.choice enabled perm qsort qsort', agreeing.choice enabled perm qsort qsort']
  · rfl

end

/-- The vote that comes first is the one whose value is chosen, if it votes for the winner. -/
theorem getMajoritySrvFromVotes_head (single : ∀ value other, Wins rules votes current value →
      Wins rules votes current other → value = other) {vote : SrInfo} (member : vote ∈ votes)
    (participates : vote.participate = true) (voted : vote.srv current = some srv)
    (wins : Wins rules votes current srv.value) :
    getMajoritySrvFromVotes (insertionSorter compareSrv) rules (vote :: votes.erase vote) current
      = some srv := by
  have perm : (vote :: votes.erase vote).Perm votes := (List.perm_cons_erase member).symm
  obtain ⟨top, chosen⟩ := ((wins_perm perm).mpr wins).chosen (insertionSorter compareSrv)
  obtain ⟨winner, first⟩ := getMajoritySrvFromVotes_some chosen
  have same := single _ _ ((wins_perm perm).mp winner) wins
  have list : srvList (vote :: votes.erase vote) current
      = srv :: srvList (votes.erase vote) current := by
    simp only [srvList, List.filter_cons_of_pos participates, List.filterMap_cons, voted]
  have equal (a : SrSrv) (_ : a ∈ srvList (vote :: votes.erase vote) current) (b : SrSrv)
      (_ : b ∈ srvList (vote :: votes.erase vote) current) (left : decide (a.value = top.value) = true)
      (right : decide (b.value = top.value) = true) : compareSrv a b = .eq := by
    rw [compareSrv_eq, of_decide_eq_true left, of_decide_eq_true right]
  have stable := insertionSorter_filter (fun s => s.value = top.value)
    (srvList (vote :: votes.erase vote) current)
    equal
  rw [← List.head?_filter, stable, list, List.filter_cons_of_pos (by simp [same])] at first
  rw [chosen]
  exact first.symm

theorem OrderIndependent.reveals (independent : OrderIndependent rules votes)
    (single : ∀ current value other, Wins rules votes current value →
      Wins rules votes current other → value = other)
    (enabled : rules.authDirSharedRandomness = true) (member : srv ∈ srvList votes current)
    (member' : srv' ∈ srvList votes current) (wins : Wins rules votes current srv.value)
    (same : srv.value = srv'.value) : srv.numReveals = srv'.numReveals := by
  obtain ⟨vote, inside, voted⟩ := List.mem_filterMap.mp member
  obtain ⟨vote', inside', voted'⟩ := List.mem_filterMap.mp member'
  rw [List.mem_filter] at inside inside'
  have head := getMajoritySrvFromVotes_head (single current) inside.1 inside.2 voted wins
  have head' := getMajoritySrvFromVotes_head (single current) inside'.1 inside'.2 voted'
    (same ▸ wins)
  have perm : (vote :: votes.erase vote).Perm votes := (List.perm_cons_erase inside.1).symm
  have perm' : (vote' :: votes.erase vote').Perm votes := (List.perm_cons_erase inside'.1).symm
  have lines := (independent (insertionSorter _) (insertionSorter _) _ perm).trans
    (independent (insertionSorter _) (insertionSorter _) _ perm').symm
  simp only [srGetStringForConsensus, if_pos enabled] at lines
  cases current with
  | false =>
    rw [head, head', getNsStrFromSrValues, getNsStrFromSrValues, if_neg (by simp),
      if_neg (by simp), Option.some.injEq] at lines
    exact (srvToNsString_inj lines).1
  | true =>
    rw [head, head', getNsStrFromSrValues, getNsStrFromSrValues, if_neg (by simp),
      if_neg (by simp), Option.some.injEq] at lines
    -- Whether there is a line for the previous value does not depend on the order.
    cases first : getMajoritySrvFromVotes (insertionSorter compareSrv) rules
        (vote :: votes.erase vote) false with
    | none =>
      cases second : getMajoritySrvFromVotes (insertionSorter compareSrv) rules
          (vote' :: votes.erase vote') false with
      | none =>
        rw [first, second] at lines
        have line : srvToNsString srv currentSrvStr ++ [] = srvToNsString srv' currentSrvStr ++ [] := by
          simpa using lines
        exact (srvToNsString_inj line).1
      | some previous =>
        have winner := (wins_perm perm').mp (getMajoritySrvFromVotes_some second).1
        obtain ⟨other, chosen⟩ := ((wins_perm perm).mpr winner).chosen (insertionSorter compareSrv)
        rw [first] at chosen
        cases chosen
    | some previous =>
      have winner := (wins_perm perm).mp (getMajoritySrvFromVotes_some first).1
      obtain ⟨other, second⟩ := ((wins_perm perm').mpr winner).chosen (insertionSorter compareSrv)
      rw [first, second] at lines
      have rest := (srvToNsString_inj lines).2
      have line : srvToNsString srv currentSrvStr ++ [] = srvToNsString srv' currentSrvStr ++ [] := by
        simpa using rest
      exact (srvToNsString_inj line).1

end

/-- The values follow the majority, in lines that do not depend on the order of the votes, exactly
when only one value wins and its votes have the same number of reveals. -/
theorem consensus_srv_iff (rules : SrvRules) (votes : List SrInfo) :
    (FollowsMajority rules votes ∧ OrderIndependent rules votes) ↔ Agreeing rules votes := by
  constructor
  · rintro ⟨follows, independent⟩
    have single (current : Bool) (value other : Bytes 32)
        (first : Wins rules votes current value) (second : Wins rules votes current other) :
        value = other := by
      obtain ⟨srv, chosen, rfl⟩ := (follows (insertionSorter compareSrv) current value).mpr first
      obtain ⟨srv', again, rfl⟩ := (follows (insertionSorter compareSrv) current other).mpr second
      rw [chosen, Option.some.injEq] at again
      rw [again]
    exact ⟨single, fun enabled _ _ member _ member' wins same =>
      independent.reveals single enabled member member' wins same⟩
  · intro agreeing
    exact ⟨agreeing.followsMajority, agreeing.orderIndependent⟩

/-- Two of three authorities vote for one value and count its reveals differently: the line
depends on which vote comes first. -/
theorem consensus_srv_order_dependent :
    ¬∀ (rules : SrvRules) (votes : List SrInfo), votes.length ≤ rules.nVoters →
      FollowsMajority rules votes ∧ OrderIndependent rules votes := by
  intro claim
  let value : Bytes 32 := ⟨List.replicate 32 7, by decide⟩
  let three : SrInfo := ⟨true, none, some ⟨3, value⟩⟩
  let four : SrInfo := ⟨true, none, some ⟨4, value⟩⟩
  have independent := (claim ⟨3, false, 0, true⟩ [three, four] (by decide)).2
  have same := independent (insertionSorter _) (insertionSorter _) [four, three]
    (List.Perm.swap _ _ _)
  exact absurd same (by decide +kernel)

end RendezMix.Guarantees.MajoritySrv
