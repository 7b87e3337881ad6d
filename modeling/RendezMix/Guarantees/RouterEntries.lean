import RendezMix.Guarantees.EntryOrder

/-!
# What an entry of the consensus says

An entry in the consensus is for a router that more than half of the authorities list. It
has the flags that more than half of the votes that know them give, and it is described as
in the description that most of the entries share.
-/
namespace RendezMix.Guarantees
open Source Library ByteStrings Sorting
open Std (TransCmp OrientedCmp ReflCmp)

/-! ## What the votes say -/

/-- More than half of the votes that know the flag give it to the router. -/
def FlagWins (votes : List NetworkVote) (col : NetworkVote → Option VoteRs) (fl : CString) : Prop :=
  votes.countP (fun v => fl ∈ v.knownFlags) < 2 * votes.countP fun v => (col v).any (voteAssigns v fl)

/-- The flags that are computed in ways of their own. -/
def specialFlags : List CString := [flagNamed, flagUnnamed, flagNoEdConsensus]

/-- The flags that a router with the flag `MiddleOnly` loses. -/
def middleOnlyLoses : List CString := [flagExit, flagV2Dir, flagGuard, flagHsDir]

/-- The rule for a flag: it wins; where `MiddleOnly` wins too, some flags are lost and
`BadExit` is given if any vote knows it. -/
def FlagAssigned (env : ConsensusEnv) (votes : List NetworkVote) (col : NetworkVote → Option VoteRs)
    (fl : CString) : Prop :=
  (FlagWins votes col flagMiddleOnly ∧ env.consensusMethod ≥ minMethodForMiddleonly
    ∧ ((FlagWins votes col fl ∧ fl ∉ middleOnlyLoses)
      ∨ fl = flagBadExit ∧ ∃ v ∈ votes, flagBadExit ∈ v.knownFlags))
  ∨ ¬ (FlagWins votes col flagMiddleOnly ∧ env.consensusMethod ≥ minMethodForMiddleonly)
    ∧ FlagWins votes col fl

instance (a b : VoteRs) : Decidable (SameDescription a b) :=
  inferInstanceAs (Decidable (_ ∧ _))

/-- How many entries have one description. -/
def nDescribed (entries : List VoteRs) (rs : VoteRs) : Nat :=
  entries.countP fun other => SameDescription rs other

/-- A description is listed more often than another one, or as often and published later, or
its digest is not larger. -/
def Preferred (entries : List VoteRs) (most other : VoteRs) : Prop :=
  nDescribed entries other < nDescribed entries most
    ∨ nDescribed entries other = nDescribed entries most
      ∧ (published other < published most
        ∨ published other = published most
          ∧ (compareDigests most.claim.descriptorDigest other.claim.descriptorDigest).isLE = true)

/-- A member than which no other one is more frequent, or nothing of no members. -/
def MostFrequent {α : Type*} [DecidableEq α] (l : List α) : Option α → Prop
  | none => l = []
  | some a => a ∈ l ∧ ∀ b ∈ l, l.count b ≤ l.count a

/-- The entry of the consensus has the values of the description `most`, and what its entries
say most frequently. -/
structure Describes (env : ConsensusEnv) (entries : List VoteRs) (most : VoteRs) (e : RouterEntry) :
    Prop where
  descriptorDigest : e.descriptorDigest = most.claim.descriptorDigest
  ipv4Addr : e.ipv4Addr = most.claim.ipv4Addr
  ipv4Orport : e.ipv4Orport = most.claim.ipv4Orport
  ipv4Dirport : e.ipv4Dirport = most.claim.ipv4Dirport
  microdescDigest : ∃ digest, MostFrequent ((entries.filter fun rs => SameDescription most rs).filterMap
      fun rs => voteRouterstatusFindMicrodescHash rs env.consensusMethod) digest
    ∧ e.microdescDigest = digest.getD (fit 32 [])
  altOrport : ∃ orport, MostFrequent ((entries.filter fun rs => SameDescription most rs).filterMap
      ipv6OrportOf) orport
    ∧ e.altOrport = orport.elim ⟨.unspec, 0⟩ fun p => ⟨.inet6 p.1, p.2⟩

/-- The entry for the router `id`, of which a vote has the entry that `col` gives. -/
structure FollowsVotes (env : ConsensusEnv) (votes : List NetworkVote) (id : Bytes 20)
    (col : NetworkVote → Option VoteRs) (e : RouterEntry) : Prop where
  identity : e.identityDigest = id
  listed : env.totalAuthorities < 2 * votes.countP fun v => (col v).isSome
  running : FlagWins votes col flagRunning
  valid : FlagWins votes col flagValid
  flags : ∀ fl, fl ∉ specialFlags → (fl ∈ e.flags ↔ FlagAssigned env votes col fl)
  description : ∃ most ∈ votes.filterMap col,
    (∀ other ∈ votes.filterMap col, Preferred (votes.filterMap col) most other)
      ∧ Describes env (votes.filterMap col) most e

/-! ## The flags -/

theorem smartlistUniqStrings_increasing (sl : List CString)
    (sorted : sl.Pairwise fun a b => (strcmp a b).isLE = true) :
    (smartlistUniqStrings sl).Pairwise fun a b => strcmp a b = .lt := by
  fun_induction smartlistUniqStrings sl with
  | case1 fst snd rest equal ih =>
    apply ih
    rw [List.pairwise_cons] at sorted ⊢
    exact ⟨fun b member => sorted.1 b (List.mem_cons_of_mem _ member),
      (List.pairwise_cons.mp sorted.2).2⟩
  | case2 fst snd rest differ ih =>
    rw [List.pairwise_cons] at sorted
    rw [List.pairwise_cons]
    refine ⟨?_, ih sorted.2⟩
    intro b member
    rw [mem_smartlistUniqStrings] at member
    have first := sorted.1 snd List.mem_cons_self
    have less : strcmp fst snd = .lt :=
      (Ordering.isLE_iff_eq_lt_or_eq_eq.mp first).resolve_right differ
    rcases List.mem_cons.mp member with rfl | later
    · exact less
    · exact TransCmp.lt_of_lt_of_isLE less ((List.pairwise_cons.mp sorted.2).1 b later)
  | case3 sl short =>
    cases sl with
    | nil => exact List.Pairwise.nil
    | cons a sl =>
      cases sl with
      | nil => exact List.pairwise_singleton _ _
      | cons b sl => exact absurd rfl (short a b sl)

section

variable {flags : List CString} {entries : List VoteRs}

theorem strcmp_irrefl (a : CString) : strcmp a a ≠ .lt := by
  have self : strcmp a a = .eq := ReflCmp.compare_self
  rw [self]
  decide

theorem nodup_of_increasing {sl : List CString} (increasing : sl.Pairwise fun a b => strcmp a b = .lt) :
    sl.Nodup := by
  apply increasing.imp
  rintro a b less rfl
  exact strcmp_irrefl a less

theorem consensusFlags_nodup (votes : List NetworkVote) : (consensusFlags votes).Nodup :=
  nodup_of_increasing (smartlistUniqStrings_increasing _ ((insertionSorter strcmp).ordered _))

theorem knownFlags_nodup {v : NetworkVote} (accepted : knownFlagsAccepted v.knownFlags = true) :
    v.knownFlags.Nodup := by
  rw [knownFlagsAccepted, Bool.and_eq_true] at accepted
  exact nodup_of_increasing (inOrder_pairwise _ accepted.1)

theorem mem_chooseFlags {fl : CString} (ordinary : fl ∉ specialFlags)
    (flagCounts nFlagVoters : List Nat) (isNamed isUnnamed : Bool) (edConsensus total : Nat) :
    fl ∈ chooseFlags flags flagCounts nFlagVoters isNamed isUnnamed edConsensus total
      ↔ ∃ q, flags[q]? = some fl ∧ flagCounts.getD q 0 > nFlagVoters.getD q 0 / 2 := by
  simp only [specialFlags, List.mem_cons, List.not_mem_nil, or_false, not_or] at ordinary
  rw [chooseFlags, List.mem_map]
  constructor
  · rintro ⟨⟨fl', q⟩, member, rfl⟩
    rw [List.mem_filter, List.mem_zipIdx_iff_getElem?] at member
    have wins := member.2
    simp only [ordinary, if_false, flagWins, decide_eq_true_eq] at wins
    exact ⟨q, member.1, wins⟩
  · rintro ⟨q, place, wins⟩
    refine ⟨(fl, q), ?_, rfl⟩
    rw [List.mem_filter, List.mem_zipIdx_iff_getElem?]
    simp only [ordinary, if_false, flagWins, decide_eq_true_eq]
    exact ⟨place, wins⟩

theorem chooseFlags_nodup (distinct : flags.Nodup) (flagCounts nFlagVoters : List Nat)
    (isNamed isUnnamed : Bool) (edConsensus total : Nat) :
    (chooseFlags flags flagCounts nFlagVoters isNamed isUnnamed edConsensus total).Nodup := by
  have sub := (List.filter_sublist (p := fun fl : CString × Nat =>
    if fl.1 = flagNamed then isNamed
    else if fl.1 = flagUnnamed then isUnnamed
    else if fl.1 = flagNoEdConsensus then edConsensus ≤ total / 2
    else flagWins flagCounts nFlagVoters fl.2) (l := flags.zipIdx)).map Prod.fst
  rw [List.zipIdx_map_fst] at sub
  exact distinct.sublist sub

/-- What a router with the flag `MiddleOnly` has, and what others have. -/
theorem mem_adjustMiddleOnly (consensusMethod : Nat) (badexitFlagIsListed : Bool)
    {chosen : List CString} (distinct : chosen.Nodup) (fl : CString) :
    fl ∈ adjustMiddleOnly consensusMethod badexitFlagIsListed chosen
      ↔ (flagMiddleOnly ∈ chosen ∧ consensusMethod ≥ minMethodForMiddleonly
          ∧ ((fl ∈ chosen ∧ fl ∉ middleOnlyLoses) ∨ fl = flagBadExit ∧ badexitFlagIsListed = true))
        ∨ ¬ (flagMiddleOnly ∈ chosen ∧ consensusMethod ≥ minMethodForMiddleonly) ∧ fl ∈ chosen := by
  have kept : fl ∈ removeFlag (removeFlag (removeFlag (removeFlag chosen flagExit) flagV2Dir)
      flagGuard) flagHsDir ↔ fl ∈ chosen ∧ fl ∉ middleOnlyLoses := by
    unfold removeFlag
    have d1 := distinct.erase flagExit
    have d2 := d1.erase flagV2Dir
    have d3 := d2.erase flagGuard
    rw [d3.mem_erase_iff, d2.mem_erase_iff, d1.mem_erase_iff, distinct.mem_erase_iff]
    simp only [middleOnlyLoses, List.mem_cons, List.not_mem_nil, or_false, not_or]
    constructor
    · rintro ⟨noHsDir, noGuard, noV2Dir, noExit, inside⟩
      exact ⟨inside, noExit, noV2Dir, noGuard, noHsDir⟩
    · rintro ⟨inside, noExit, noV2Dir, noGuard, noHsDir⟩
      exact ⟨noHsDir, noGuard, noV2Dir, noExit, inside⟩
  have stays : flagBadExit ∉ middleOnlyLoses := by decide
  unfold adjustMiddleOnly
  by_cases middle : flagMiddleOnly ∈ chosen ∧ consensusMethod ≥ minMethodForMiddleonly
  · rw [if_pos middle]
    simp only
    split
    next given =>
      have sorted := ((insertionSorter strcmp).perm (removeFlag (removeFlag (removeFlag
        (removeFlag chosen flagExit) flagV2Dir) flagGuard) flagHsDir ++ [flagBadExit])).mem_iff
        (a := fl)
      rw [smartlistSortStrings, sorted, List.mem_append, kept, List.mem_singleton]
      constructor
      · rintro (inside | same)
        · exact .inl ⟨middle.1, middle.2, .inl inside⟩
        · exact .inl ⟨middle.1, middle.2, .inr ⟨same, given.2⟩⟩
      · rintro (⟨_, _, inside | ⟨same, _⟩⟩ | ⟨other, _⟩)
        · exact .inl inside
        · exact .inr same
        · exact absurd middle other
    next given =>
      rw [kept]
      constructor
      · exact fun inside => .inl ⟨middle.1, middle.2, .inl inside⟩
      · rintro (⟨_, _, inside | ⟨rfl, listed⟩⟩ | ⟨other, _⟩)
        · exact inside
        · exact ⟨not_not.mp fun absent => given ⟨absent, listed⟩, stays⟩
        · exact absurd middle other
  · rw [if_neg middle]
    constructor
    · exact fun inside => .inr ⟨middle, inside⟩
    · rintro (⟨won, method, _⟩ | ⟨_, inside⟩)
      · exact absurd ⟨won, method⟩ middle
      · exact inside

/-! ## The most frequent values -/

theorem smartlistGetMostFrequent_mostFrequent {α : Type*} [DecidableEq α] {cmp : α → α → Ordering}
    [TransCmp cmp] (apart : ∀ a b, cmp a b = .eq ↔ a = b) (sorter : Sorter cmp) {l l' : List α}
    (perm : l.Perm l') : MostFrequent l' (smartlistGetMostFrequent cmp (sorter.sort l)).1 := by
  have sorted : (sorter.sort l).Perm l' := (sorter.perm l).trans perm
  have counts : ∀ a, tally cmp (sorter.sort l) a = l'.count a := by
    intro a
    rw [tally, List.count, sorted.countP_eq]
    apply List.countP_congr
    intro b _
    rw [decide_eq_true_eq, apart, beq_iff_eq]
    exact eq_comm
  by_cases empty : sorter.sort l = []
  · rw [empty] at sorted ⊢
    exact sorted.symm.eq_nil
  · obtain ⟨a, n, found, top⟩ := smartlistGetMostFrequent_spec _ empty (sorter.ordered l)
    rw [found]
    refine ⟨sorted.mem_iff.mp (List.mem_of_find?_eq_some top.first), ?_⟩
    intro b member
    rw [← counts, ← counts, ← top.count]
    exact top.most b (sorted.mem_iff.mpr member) trivial

theorem nDescribed_eq_tally (entries : List VoteRs) (rs : VoteRs) :
    nDescribed entries rs = tally compareVoteRs entries rs := by
  rw [nDescribed, tally]
  apply List.countP_congr
  intro other _
  rw [decide_eq_true_eq, decide_eq_true_eq, compareVoteRs_eq]

theorem AtLeast.preferred {most other : VoteRs} (atLeast : AtLeast entries most other)
    (identity : most.identityDigest = other.identityDigest) : Preferred entries most other := by
  unfold Preferred
  rw [nDescribed_eq_tally, nDescribed_eq_tally]
  exact atLeast.imp_right fun tie => ⟨tie.1, tie.2.imp_right fun last =>
    ⟨last.1, compareVoteRs_digest last.2 identity⟩⟩

/-! ## One entry -/

/-- What `compute_routerstatus_consensus` finds for entries of one router. -/
theorem computeRouterstatusConsensus_spec (sortVoteRs : Sorter compareVoteRs)
    (sortOrports : Sorter compareOrports) {id : Bytes 20}
    (one : ∀ rs ∈ entries, rs.identityDigest = id) {consensusMethod : Nat}
    {winner : RouterstatusConsensus}
    (found : computeRouterstatusConsensus sortVoteRs sortOrports entries consensusMethod = some winner) :
    winner.most ∈ entries
      ∧ (∀ other ∈ entries, Preferred entries winner.most other)
      ∧ (∃ digest, MostFrequent ((entries.filter fun rs => SameDescription winner.most rs).filterMap
          fun rs => voteRouterstatusFindMicrodescHash rs consensusMethod) digest
        ∧ winner.microdescDigest256 = digest.getD (fit 32 []))
      ∧ ∃ orport, MostFrequent ((entries.filter fun rs => SameDescription winner.most rs).filterMap
          ipv6OrportOf) orport
        ∧ winner.bestAltOrport = orport.elim ⟨.unspec, 0⟩ fun p => ⟨.inet6 p.1, p.2⟩ := by
  have nonempty : entries ≠ [] := by
    rintro rfl
    have empty : sortVoteRs.sort [] = [] := (sortVoteRs.perm []).eq_nil
    unfold computeRouterstatusConsensus at found
    simp only [empty, List.foldl_nil, MostScan.settle] at found
    cases found
  obtain ⟨most, scan, member, best⟩ := mostScan_best sortVoteRs nonempty
  unfold computeRouterstatusConsensus at found
  simp only [scan, Option.some.injEq] at found
  rw [← found]
  simp only
  have perm := sortVoteRs.perm entries
  have lawful : ∀ a b, compareDigests256 a b = .eq ↔ a = b := by
    intro a b
    rw [compareDigests256, compareOn, Std.compare_eq_iff_eq, Subtype.val_inj]
  have digests : (((sortVoteRs.sort entries).filter fun rs => compareVoteRs rs most = .eq).filterMap
      fun rs => voteRouterstatusFindMicrodescHash rs consensusMethod).Perm
      ((entries.filter fun rs => SameDescription most rs).filterMap
        fun rs => voteRouterstatusFindMicrodescHash rs consensusMethod) := by
    have flipped : ∀ rs, compareVoteRs rs most = .eq ↔ SameDescription most rs := by
      intro rs
      rw [OrientedCmp.eq_comm, compareVoteRs_eq]
    simp only [flipped]
    exact (perm.filter _).filterMap _
  have orports : (((sortVoteRs.sort entries).filter fun rs => compareVoteRs most rs = .eq).filterMap
      ipv6OrportOf).Perm
      ((entries.filter fun rs => SameDescription most rs).filterMap ipv6OrportOf) := by
    simp only [compareVoteRs_eq]
    exact (perm.filter _).filterMap _
  refine ⟨member, ?_, ⟨_, smartlistGetMostFrequent_mostFrequent lawful
    (insertionSorter compareDigests256) digests, rfl⟩, _, smartlistGetMostFrequent_mostFrequent
    compareOrports_eq sortOrports orports, ?_⟩
  · intro other inside
    apply (best other inside).preferred
    rw [one most member, one other inside]
  · cases (smartlistGetMostFrequent compareOrports _).1 <;> rfl

/-- What an entry is made from: the winning description and the flags that are chosen. -/
structure MadeFrom (env : ConsensusEnv) (ctx : RouterContext) (t : RouterTally)
    (winner : RouterstatusConsensus) (chosen : List CString) (e : RouterEntry) : Prop where
  listed : env.totalAuthorities / 2 < t.nListing
  identity : t.currentRsaId = some e.identityDigest
  running : flagRunning ∈ chosen
  valid : flagValid ∈ chosen
  flags : e.flags = adjustMiddleOnly env.consensusMethod (flagBadExit ∈ ctx.flags) chosen
  descriptorDigest : e.descriptorDigest = winner.most.claim.descriptorDigest
  ipv4Addr : e.ipv4Addr = winner.most.claim.ipv4Addr
  ipv4Orport : e.ipv4Orport = winner.most.claim.ipv4Orport
  ipv4Dirport : e.ipv4Dirport = winner.most.claim.ipv4Dirport
  microdescDigest : e.microdescDigest = winner.microdescDigest256
  altOrport : e.altOrport = winner.bestAltOrport

theorem routerEntry_madeFrom {env : ConsensusEnv} {ctx : RouterContext}
    {listings : List RouterListing} {t : RouterTally} {e : RouterEntry}
    (run : listings.foldlM RouterTally.entry (RouterTally.start ctx.flags.length) = some t)
    (made : routerEntry env ctx listings = some (some e)) :
    ∃ winner isNamed isUnnamed,
      computeRouterstatusConsensus env.sortVoteRs env.sortOrports t.matchingDescs env.consensusMethod
          = some winner
        ∧ MadeFrom env ctx t winner
          (chooseFlags ctx.flags t.flagCounts ctx.nFlagVoters isNamed isUnnamed t.edConsensus
            env.totalAuthorities) e := by
  unfold routerEntry at made
  rw [run] at made
  simp only at made
  by_cases few : t.nListing ≤ env.totalAuthorities / 2
  · rw [if_pos few] at made
    cases made
  rw [if_neg few] at made
  cases current : t.currentRsaId with
  | none =>
    rw [current] at made
    cases made
  | some currentRsaId =>
    cases found : computeRouterstatusConsensus env.sortVoteRs env.sortOrports t.matchingDescs
        env.consensusMethod with
    | none =>
      rw [current, found] at made
      cases made
    | some winner =>
      rw [current, found] at made
      simp only at made
      by_cases other : winner.most.identityDigest ≠ currentRsaId
      · rw [if_pos other] at made
        cases made
      rw [if_neg other] at made
      generalize strmapGetLc _ _ = owner at made
      refine ⟨winner, owner.any fun d => d.digest = currentRsaId,
        owner.any fun d => d.digest ≠ currentRsaId, rfl, ?_⟩
      generalize chooseFlags _ _ _ _ _ _ _ = chosen at made ⊢
      by_cases out : flagRunning ∉ chosen ∨ flagValid ∉ chosen
      · rw [if_pos out] at made
        cases made
      rw [if_neg out] at made
      rw [not_or, not_not, not_not] at out
      split at made
      next guardfraction bandwidthKb bwIsUnmeasured guard band =>
        by_cases unknown : env.flavor = .microdesc ∧ winner.microdescDigest256 = fit 32 []
        · rw [if_pos unknown] at made
          cases made
        rw [if_neg unknown, Option.some.injEq, Option.some.injEq] at made
        rw [← made]
        exact ⟨by omega, current, out.1, out.2, rfl, rfl, rfl, rfl, rfl, rfl, rfl⟩
      next => cases made

end

section Follows

variable {env : ConsensusEnv} {votes : List NetworkVote} {voterOf : NetworkVote → VoterFlags}
  {dc : Dircollator RouterClaim} {id : Bytes 20} {col : NetworkVote → Option VoteRs}

variable (env) in
/-- A flag is chosen where it wins. -/
theorem mem_chosen_iff (known : ∀ v ∈ votes, v.knownFlags.Nodup)
    (mapped : ∀ v ∈ votes, voterFlags (consensusFlags votes) v = some (voterOf v)) {t : RouterTally}
    (counted : Tallied id (consensusFlags votes).length
      (routerListings (votes.map voterOf) dc (votes.map col)) t)
    (isNamed isUnnamed : Bool) {fl : CString} (ordinary : fl ∉ specialFlags) :
    fl ∈ chooseFlags (consensusFlags votes) t.flagCounts
        (nFlagVoters (consensusFlags votes) (votes.map voterOf)) isNamed isUnnamed t.edConsensus
        env.totalAuthorities
      ↔ FlagWins votes col fl := by
  have distinct := consensusFlags_nodup votes
  have wins : ∀ q, (consensusFlags votes)[q]? = some fl →
      (t.flagCounts.getD q 0 > (nFlagVoters (consensusFlags votes) (votes.map voterOf)).getD q 0 / 2
        ↔ FlagWins votes col fl) := by
    intro q place
    rw [counted.flagCounts, flagCounts_getD distinct place known mapped,
      nFlagVoters_getD distinct place known mapped, FlagWins]
    omega
  rw [mem_chooseFlags ordinary]
  constructor
  · rintro ⟨q, place, more⟩
    exact (wins q place).mp more
  · intro more
    have listed : fl ∈ consensusFlags votes := by
      have positive : 0 < votes.countP fun v => (col v).any (voteAssigns v fl) := by
        rw [FlagWins] at more
        omega
      obtain ⟨v, member, assigns⟩ := List.countP_pos_iff.mp positive
      obtain ⟨rs, _, assigned⟩ := (Option.any_eq_true _ _).mp assigns
      obtain ⟨⟨fl', i⟩, place, same⟩ := List.any_eq_true.mp assigned
      rw [decide_eq_true_eq] at same
      rw [List.mem_zipIdx_iff_getElem?] at place
      rw [mem_consensusFlags, ← same.1]
      exact .inr ⟨v, member, List.mem_of_getElem? place⟩
    obtain ⟨q, place⟩ := List.getElem?_of_mem listed
    exact ⟨q, place, (wins q place).mpr more⟩

theorem badExit_listed (votes : List NetworkVote) :
    decide (flagBadExit ∈ consensusFlags votes) = true
      ↔ ∃ v ∈ votes, flagBadExit ∈ v.knownFlags := by
  have apart : flagBadExit ≠ flagNoEdConsensus := by decide
  rw [decide_eq_true_eq, mem_consensusFlags, or_iff_right apart]

/-- An entry that is made from the votes for a router follows them. -/
theorem routerEntry_follows (known : ∀ v ∈ votes, v.knownFlags.Nodup)
    (mapped : ∀ v ∈ votes, voterFlags (consensusFlags votes) v = some (voterOf v))
    (identity : ∀ v rs, col v = some rs → rs.identityDigest = id) {ed : Bytes 32}
    (one : OneRouter id ed (routerListings (votes.map voterOf) dc (votes.map col)))
    {ctx : RouterContext} (flags : ctx.flags = consensusFlags votes)
    (voters : ctx.nFlagVoters = nFlagVoters (consensusFlags votes) (votes.map voterOf))
    {e : RouterEntry}
    (made : routerEntry env ctx (routerListings (votes.map voterOf) dc (votes.map col))
      = some (some e)) : FollowsVotes env votes id col e := by
  obtain ⟨t, run, counted, _⟩ := tally_tallied id ed ctx.flags.length _ one
  obtain ⟨winner, isNamed, isUnnamed, found, from_⟩ := routerEntry_madeFrom run made
  rw [flags] at counted
  rw [flags, voters] at from_
  have entries : t.matchingDescs = votes.filterMap col := by
    rw [counted.matchingDescs, routerListings_rs]
  have count : t.nListing = votes.countP fun v => (col v).isSome := by
    rw [counted.nListing, ← List.length_map RouterListing.rs, routerListings_rs,
      List.length_filterMap_eq_countP]
  have chosen : ∀ fl, fl ∉ specialFlags → _ := fun fl ordinary =>
    mem_chosen_iff env known mapped counted isNamed isUnnamed ordinary
  have ofRouter : ∀ rs ∈ votes.filterMap col, rs.identityDigest = id := by
    intro rs member
    obtain ⟨v, _, entry⟩ := List.mem_filterMap.mp member
    exact identity v rs entry
  rw [entries] at found
  obtain ⟨member, best, digest, orport⟩ :=
    computeRouterstatusConsensus_spec env.sortVoteRs env.sortOrports ofRouter found
  constructor
  · have nonempty : routerListings (votes.map voterOf) dc (votes.map col) ≠ [] := by
      intro empty
      have listed := from_.listed
      rw [counted.nListing, empty, List.length_nil] at listed
      omega
    have current := counted.currentRsaId nonempty
    rw [from_.identity, Option.some.injEq] at current
    exact current
  · have listed := from_.listed
    rw [count] at listed
    omega
  · exact (chosen flagRunning (by decide)).mp from_.running
  · exact (chosen flagValid (by decide)).mp from_.valid
  · intro fl ordinary
    rw [from_.flags, mem_adjustMiddleOnly _ _
      (chooseFlags_nodup (consensusFlags_nodup votes) _ _ _ _ _ _), flags, badExit_listed,
      chosen fl ordinary, chosen flagMiddleOnly (by decide)]
    exact Iff.rfl
  · refine ⟨winner.most, member, best, from_.descriptorDigest, from_.ipv4Addr, from_.ipv4Orport,
      from_.ipv4Dirport, ?_, ?_⟩
    · rw [from_.microdescDigest]
      exact digest
    · rw [from_.altOrport]
      exact orport

end Follows

/-! ## The votes in any order -/

section

variable {e : RouterEntry}

theorem flagWins_perm {votes votes' : List NetworkVote} (perm : votes'.Perm votes)
    (col : NetworkVote → Option VoteRs) (fl : CString) :
    FlagWins votes' col fl ↔ FlagWins votes col fl := by
  rw [FlagWins, FlagWins, perm.countP_eq, perm.countP_eq]

theorem MostFrequent.perm {α : Type*} [DecidableEq α] {l l' : List α} (perm : l'.Perm l)
    {x : Option α} (frequent : MostFrequent l' x) : MostFrequent l x := by
  cases x with
  | none =>
    rw [MostFrequent] at frequent
    rw [frequent] at perm
    exact perm.symm.eq_nil
  | some a =>
    refine ⟨perm.mem_iff.mp frequent.1, ?_⟩
    intro b member
    rw [← perm.count_eq, ← perm.count_eq]
    exact frequent.2 b (perm.mem_iff.mpr member)

theorem Describes.perm {env : ConsensusEnv} {entries entries' : List VoteRs}
    (perm : entries'.Perm entries) {most : VoteRs} (describes : Describes env entries' most e) :
    Describes env entries most e := by
  obtain ⟨digest, frequentDigest, digestOf⟩ := describes.microdescDigest
  obtain ⟨orport, frequentOrport, orportOf⟩ := describes.altOrport
  exact ⟨describes.descriptorDigest, describes.ipv4Addr, describes.ipv4Orport,
    describes.ipv4Dirport,
    ⟨digest, frequentDigest.perm ((perm.filter _).filterMap _), digestOf⟩,
    ⟨orport, frequentOrport.perm ((perm.filter _).filterMap _), orportOf⟩⟩

theorem FollowsVotes.perm {env : ConsensusEnv} {votes votes' : List NetworkVote}
    (perm : votes'.Perm votes) {id : Bytes 20} {col : NetworkVote → Option VoteRs}
    (follows : FollowsVotes env votes' id col e) : FollowsVotes env votes id col e := by
  have entries := perm.filterMap col
  obtain ⟨most, member, best, describes⟩ := follows.description
  constructor
  · exact follows.identity
  · rw [← perm.countP_eq]
    exact follows.listed
  · exact (flagWins_perm perm col _).mp follows.running
  · exact (flagWins_perm perm col _).mp follows.valid
  · intro fl ordinary
    rw [follows.flags fl ordinary, FlagAssigned, FlagAssigned, flagWins_perm perm,
      flagWins_perm perm]
    simp only [perm.mem_iff]
  · refine ⟨most, entries.mem_iff.mp member, ?_, describes.perm entries⟩
    intro other inside
    have preferred := best other (entries.mem_iff.mpr inside)
    unfold Preferred nDescribed at preferred ⊢
    rwa [entries.countP_eq, entries.countP_eq] at preferred

/-- The router entries follow the votes, and they are the same for the votes in any order. -/
theorem consensusRouters_follow {env env' : ConsensusEnv} (same : SameSettings env env')
    {votes votes' : List NetworkVote} (perm : votes'.Perm votes)
    (distinct : (votes.map NetworkVote.voterIdentity).Nodup)
    (room : votes.length ≤ env.totalAuthorities)
    (accepted : ∀ v ∈ votes, voteAccepted env.testingTorNetwork v = true) :
    ∃ dc routers,
      collateVotes env.orders env.sortDigests env.totalAuthorities
          ((env.sortVotes.sort votes).map NetworkVote.routers) = some dc
        ∧ consensusRouters env (consensusFlags votes) (env.sortVotes.sort votes) = some routers
        ∧ consensusRouters env' (consensusFlags votes') (env'.sortVotes.sort votes') = some routers
        ∧ routers.length = dc.allRsaSha1Lst.length
        ∧ ∀ idx id, dc.allRsaSha1Lst[idx]? = some id → ∃ col : NetworkVote → Option VoteRs,
          dircollatorGetVotesForRouter dc idx = some ((env.sortVotes.sort votes).map col)
            ∧ ∀ e, routers[idx]? = some (some e) → FollowsVotes env votes id col e := by
  rw [consensusFlags_perm perm, sortVotes_perm env.sortVotes env'.sortVotes perm distinct]
  have order := env.sortVotes.perm votes
  rw [← consensusFlags_perm order]
  have checks : ∀ v ∈ env.sortVotes.sort votes, knownFlagsAccepted v.knownFlags = true
      ∧ ∀ rs ∈ v.routers.routerstatusList, guardfractionAccepted rs = true := by
    intro v member
    have all := accepted v (order.mem_iff.mp member)
    simp only [voteAccepted, Bool.and_eq_true, List.all_eq_true] at all
    exact ⟨all.1.1.2, all.2⟩
  have follows : ∀ id col e, FollowsVotes env (env.sortVotes.sort votes) id col e →
      FollowsVotes env votes id col e := fun id col e => FollowsVotes.perm order
  rw [← order.length_eq] at room
  generalize env.sortVotes.sort votes = sorted at room checks follows ⊢
  have roomRouters : (sorted.map NetworkVote.routers).length ≤ env.totalAuthorities := by
    rwa [List.length_map]
  obtain ⟨dc, run, collated⟩ := collateVotes_collated roomRouters env.orders env.sortDigests
  obtain ⟨routers, result⟩ := Option.isSome_iff_exists.mp
    (consensusRouters_isSome env (consensusFlags sorted) room
      (fun v member flag known => (mem_consensusFlags sorted flag).mpr (.inr ⟨v, member, known⟩))
      fun v member => (checks v member).2)
  refine ⟨dc, routers, run, result, ?_, ?_⟩
  · rw [consensusRouters_settings same (consensusFlags sorted) room, result]
  unfold consensusRouters at result
  rw [run] at result
  cases mapped : sorted.mapM (voterFlags (consensusFlags sorted)) with
  | none =>
    rw [mapped] at result
    cases result
  | some voters =>
    obtain ⟨voterOf, rfl, voterOf_eq⟩ := Pointwise.map_of_mapM ⟨[], none, none⟩ mapped
    rw [mapped] at result
    simp only [dircollatorNRouters, collated.collated, if_true, Option.bind_some] at result
    obtain ⟨entryOf, rfl, entryOf_eq⟩ := Pointwise.map_of_mapM none result
    refine ⟨by rw [List.length_map, List.length_range], ?_⟩
    intro idx id listed
    obtain ⟨inside, _⟩ := List.getElem?_eq_some_iff.mp listed
    obtain ⟨column, array, columnOf⟩ := collated.columnOf roomRouters listed
    rw [List.map_map] at array
    refine ⟨column ∘ NetworkVote.routers, array, ?_⟩
    intro e at_idx
    rw [List.getElem?_map, List.getElem?_range inside, Option.map_some, Option.some.injEq] at at_idx
    have made := entryOf_eq idx (List.mem_range.mpr inside)
    rw [at_idx, routerEntryAt, array, Option.bind_some] at made
    obtain ⟨ed, one⟩ := oneRouter_of_column (sorted.map voterOf) columnOf
    rw [List.map_map] at one
    exact follows id _ e (routerEntry_follows
      (fun v member => knownFlags_nodup (checks v member).1) voterOf_eq
      (fun v rs entry => columnOf.identity v.routers rs entry) one rfl rfl made)

/-- A vote of the authority `voter` that lists one router with the flags `Running` and `Valid`. -/
def listingVote (voter : UInt8) : NetworkVote :=
  { voteOfTimes 3600 10800 with
    voterIdentity := fit 20 [voter]
    routers :=
      { routerstatusList := [⟨fit 20 [1], true, fit 32 [7],
          { publishedOn := ⟨1000, by decide⟩
            nickname := textBytes "relay"
            descriptorDigest := fit 20 [voter]
            ipv4Addr := 1
            ipv4Orport := 9001
            ipv4Dirport := 0
            ipv6Addr := none
            ipv6Orport := 0
            flags := 3
            version := none
            protocols := none
            measuredBwKb := none
            bandwidthKb := none
            guardfractionPercentage := none
            exitsummary := none
            microdesc := [] }⟩]
        sorted := List.pairwise_singleton _ _ } }

/-- The same computation, where the hash tables are visited backwards. -/
def threeAuthoritiesBackwards : ConsensusEnv :=
  { threeAuthorities with
    orders := ⟨⟨List.reverse, List.reverse_perm⟩, ⟨List.reverse, List.reverse_perm⟩⟩ }

theorem consensusRouters_follow_two :
    ∃ dc routers,
      collateVotes threeAuthorities.orders threeAuthorities.sortDigests 3
          ((threeAuthorities.sortVotes.sort [listingVote 1, listingVote 2]).map NetworkVote.routers)
          = some dc
        ∧ consensusRouters threeAuthorities (consensusFlags [listingVote 1, listingVote 2])
          (threeAuthorities.sortVotes.sort [listingVote 1, listingVote 2]) = some routers
        ∧ consensusRouters threeAuthoritiesBackwards (consensusFlags [listingVote 2, listingVote 1])
          (threeAuthoritiesBackwards.sortVotes.sort [listingVote 2, listingVote 1]) = some routers
        ∧ routers.length = dc.allRsaSha1Lst.length
        ∧ ∀ idx id, dc.allRsaSha1Lst[idx]? = some id → ∃ col : NetworkVote → Option VoteRs,
          dircollatorGetVotesForRouter dc idx
              = some ((threeAuthorities.sortVotes.sort [listingVote 1, listingVote 2]).map col)
            ∧ ∀ e, routers[idx]? = some (some e) →
              FollowsVotes threeAuthorities [listingVote 1, listingVote 2] id col e :=
  consensusRouters_follow ⟨rfl, rfl, rfl, rfl, rfl⟩ (List.Perm.swap _ _ _) (by decide) (by decide)
    (by decide)

end

end RendezMix.Guarantees
