import RendezMix.Guarantees.DescriptionChoice
import RendezMix.Guarantees.ParamVotes
import RendezMix.Guarantees.FlagCounts

/-!
# The assertions of a consensus computation

On votes that the parser accepts every assertion of `networkstatus_compute_consensus` holds
but one. The parser checks that `valid_until` is two intervals after `valid_after`, and not
that it is one interval after `fresh_until`; the assertion about the medians of the two
last times holds only when it holds of the votes, counted by halves.
-/
namespace RendezMix.Guarantees
open Source Library ByteStrings Sorting NetworkVote
open Std (TransCmp OrientedCmp ReflCmp)

/-! ## One router -/

theorem chooseGuardfraction_isSome (isGuard : Bool) (measured : List UInt32)
    (percent : ∀ value ∈ measured, value ≤ 100) : (chooseGuardfraction isGuard measured).isSome := by
  unfold chooseGuardfraction
  split
  next enough =>
    have nonempty : measured ≠ [] := by
      rintro rfl
      simp at enough
    obtain ⟨value, found⟩ := Option.isSome_iff_exists.mp (median_isSome nonempty)
    rw [found]
    simp only
    rw [if_pos (percent value (median_mem found))]
    rfl
  next => rfl

theorem chooseBandwidth_isSome (maxUnmeasuredBwKb : UInt32) (nMeasuring : Nat)
    (mbws bandwidths : List UInt32) :
    (chooseBandwidth maxUnmeasuredBwKb nMeasuring mbws bandwidths).isSome := by
  unfold chooseBandwidth
  split
  next enough =>
    rw [Option.isSome_map]
    exact median_isSome (List.length_pos_iff.mp (by omega))
  next =>
    split
    next some =>
      rw [Option.isSome_map]
      exact median_isSome (List.length_pos_iff.mp some)
    next => rfl

section

variable {v : NetworkVote} {testingTorNetwork : Bool} (env : ConsensusEnv)
  (votes : List NetworkVote)

theorem computeRouterstatusConsensus_most (sortVoteRs : Sorter compareVoteRs)
    (sortOrports : Sorter compareOrports) {votes : List VoteRs} (nonempty : votes ≠ [])
    (consensusMethod : Nat) :
    ∃ winner, computeRouterstatusConsensus sortVoteRs sortOrports votes consensusMethod = some winner
      ∧ winner.most ∈ votes := by
  obtain ⟨most, found, member, _⟩ := mostScan_best sortVoteRs nonempty
  unfold computeRouterstatusConsensus
  simp only [found]
  exact ⟨_, rfl, member⟩

/-- No assertion fails in the turn of the loop for one router. -/
theorem routerEntry_isSome (ctx : RouterContext) {id : Bytes 20} {ed : Bytes 32}
    {listings : List RouterListing} (one : OneRouter id ed listings)
    (percent : ∀ listing ∈ listings,
      listing.rs.claim.guardfractionPercentage.all (· ≤ 100) = true) :
    (routerEntry env ctx listings).isSome := by
  obtain ⟨t, run, tallied, _⟩ := tally_tallied id ed ctx.flags.length listings one
  unfold routerEntry
  rw [run]
  simp only
  split
  next => rfl
  next enough =>
    have nonempty : listings ≠ [] := by
      rintro rfl
      rw [tallied.nListing] at enough
      simp at enough
    have descs : t.matchingDescs ≠ [] := by
      rw [tallied.matchingDescs]
      simpa using nonempty
    obtain ⟨winner, found, member⟩ := computeRouterstatusConsensus_most env.sortVoteRs
      env.sortOrports descs env.consensusMethod
    have identity : winner.most.identityDigest = id := by
      rw [tallied.matchingDescs] at member
      obtain ⟨listing, inside, same⟩ := List.mem_map.mp member
      rw [← same]
      exact (one listing inside).1
    have measured : ∀ value ∈ t.measuredGuardfraction, value ≤ 100 := by
      intro value inside
      rw [tallied.measuredGuardfraction] at inside
      obtain ⟨listing, member, given⟩ := List.mem_filterMap.mp inside
      have check := percent listing member
      rw [given] at check
      simpa using check
    rw [tallied.currentRsaId nonempty, found]
    simp only
    rw [if_neg (not_not.mpr identity)]
    generalize chooseFlags _ _ _ _ _ _ _ = chosen
    by_cases out : flagRunning ∉ chosen ∨ flagValid ∉ chosen
    · rw [if_pos out]
      rfl
    rw [if_neg out]
    obtain ⟨guardfraction, guard⟩ := Option.isSome_iff_exists.mp
      (chooseGuardfraction_isSome (isGuardAfter env.consensusMethod chosen) t.measuredGuardfraction
        measured)
    obtain ⟨bandwidth, band⟩ := Option.isSome_iff_exists.mp
      (chooseBandwidth_isSome env.maxUnmeasuredBwKb ctx.nMeasuring t.measuredBwsKb t.bandwidthsKb)
    rw [guard, band]
    simp only
    by_cases unknown : env.flavor = .microdesc ∧ winner.microdescDigest256 = fit 32 []
    · rw [if_pos unknown]
      rfl
    · rw [if_neg unknown]
      rfl

/-! ## The flag maps -/

theorem mem_smartlistUniqStrings (sl : List CString) (element : CString) :
    element ∈ smartlistUniqStrings sl ↔ element ∈ sl := by
  fun_induction smartlistUniqStrings sl with
  | case1 fst snd rest equal ih =>
    have same : fst = snd := Std.compare_eq_iff_eq.mp equal
    rw [ih, same]
    simp
  | case2 fst snd rest differ ih =>
    simp only [List.mem_cons] at ih ⊢
    rw [ih]
  | case3 => exact Iff.rfl

theorem mem_consensusFlags (flag : CString) :
    flag ∈ consensusFlags votes ↔ flag = flagNoEdConsensus ∨ ∃ v ∈ votes, flag ∈ v.knownFlags := by
  have perm : (smartlistSortStrings (votes.flatMap knownFlags ++ [flagNoEdConsensus])).Perm
      (votes.flatMap knownFlags ++ [flagNoEdConsensus]) := (insertionSorter strcmp).perm _
  rw [consensusFlags, mem_smartlistUniqStrings, perm.mem_iff, List.mem_append, List.mem_flatMap,
    List.mem_singleton]
  exact or_comm

theorem voterFlags_isSome {flags : List CString} (known : ∀ flag ∈ v.knownFlags, flag ∈ flags) :
    (voterFlags flags v).isSome := by
  rw [voterFlags, Option.isSome_map]
  cases found : v.knownFlags.mapM (smartlistStringPos flags) with
  | some => rfl
  | none =>
    obtain ⟨flag, member, missing⟩ := Pointwise.mapM_eq_none found
    rw [smartlistStringPos, List.findIdx?_eq_none_iff] at missing
    have absent := missing flag (known flag member)
    simp at absent

/-- Every assertion in the loop over the routers holds. -/
theorem consensusRouters_isSome (flags : List CString) {votes : List NetworkVote}
    (room : votes.length ≤ env.totalAuthorities)
    (known : ∀ v ∈ votes, ∀ flag ∈ v.knownFlags, flag ∈ flags)
    (percent : ∀ v ∈ votes, ∀ rs ∈ v.routers.routerstatusList, guardfractionAccepted rs = true) :
    (consensusRouters env flags votes).isSome := by
  have roomRouters : (votes.map routers).length ≤ env.totalAuthorities := by
    rwa [List.length_map]
  obtain ⟨dc, run, collated⟩ := collateVotes_collated roomRouters env.orders env.sortDigests
  unfold consensusRouters
  cases mapped : votes.mapM (voterFlags flags) with
  | none =>
    obtain ⟨v, member, missing⟩ := Pointwise.mapM_eq_none mapped
    have found := voterFlags_isSome (known v member)
    rw [missing] at found
    cases found
  | some voters =>
    rw [run]
    simp only
    rw [dircollatorNRouters, if_pos collated.collated, Option.bind_some]
    generalize (RouterContext.mk flags _ _ _) = ctx
    cases entries : (List.range dc.allRsaSha1Lst.length).mapM (routerEntryAt env ctx voters dc) with
    | some => rfl
    | none =>
      obtain ⟨idx, inside, missing⟩ := Pointwise.mapM_eq_none entries
      rw [List.mem_range] at inside
      obtain ⟨column, array, columnOf⟩ := collated.columnOf roomRouters
        (List.getElem?_eq_getElem inside)
      obtain ⟨ed, one⟩ := oneRouter_of_column voters columnOf
      rw [routerEntryAt, array, Option.bind_some] at missing
      have found := routerEntry_isSome env ctx one (by
        intro listing member
        obtain ⟨i, v, at_i, _, entry, _⟩ := mem_routerListings member
        obtain ⟨vote, inVotes, same⟩ := List.mem_map.mp (List.mem_of_getElem? at_i)
        rw [← same] at entry
        exact percent vote inVotes listing.rs (columnOf.listed _ _ entry))
      rw [missing] at found
      cases found

/-! ## The medians -/

theorem voteAccepted_times (accepted : voteAccepted testingTorNetwork v = true) :
    v.validAfter + minVoteInterval testingTorNetwork ≤ v.freshUntil
      ∧ minVoteSeconds ≤ v.voteSeconds ∧ minDistSeconds ≤ v.distSeconds := by
  simp only [voteAccepted, Bool.and_eq_true] at accepted
  have times := accepted.1.1.1
  unfold voteTimesAccepted at times
  split_ifs at times
  omega

/-- The votes are apart in halves: where half of them are no longer valid, half of them have
been stale for an interval. -/
def ApartInHalves (interval : Int) (votes : List NetworkVote) : Prop :=
  ∀ t : Int, votes.length ≤ 2 * votes.countP (fun v => v.validUntil ≤ t) →
    votes.length ≤ 2 * votes.countP (fun v => v.freshUntil + interval ≤ t)

theorem computeTimes_isSome {votes : List NetworkVote} (nonempty : votes ≠ [])
    (accepted : ∀ v ∈ votes, voteAccepted testingTorNetwork v = true) :
    (computeTimes testingTorNetwork votes).isSome
      ↔ ApartInHalves (minVoteInterval testingTorNetwork) votes := by
  have column : ∀ f : NetworkVote → Int, ∃ x, median (votes.map f) = some x := by
    intro f
    apply Option.isSome_iff_exists.mp
    apply median_isSome
    simpa using nonempty
  obtain ⟨validAfter, va⟩ := column validAfter
  obtain ⟨freshUntil, fu⟩ := column freshUntil
  obtain ⟨validUntil, vu⟩ := column validUntil
  obtain ⟨voteSeconds, vs⟩ := column voteSeconds
  obtain ⟨distSeconds, ds⟩ := column distSeconds
  have fresh := medians_apart _ _ va fu (minVoteInterval testingTorNetwork)
    fun v member => (voteAccepted_times (accepted v member)).1
  have voting : voteSeconds ≥ minVoteSeconds := by
    obtain ⟨v, member, value⟩ := List.mem_map.mp (median_mem vs)
    rw [← value]
    exact (voteAccepted_times (accepted v member)).2.1
  have distributing : distSeconds ≥ minDistSeconds := by
    obtain ⟨v, member, value⟩ := List.mem_map.mp (median_mem ds)
    rw [← value]
    exact (voteAccepted_times (accepted v member)).2.2
  have valid := medians_apart_iff _ _ fu vu (minVoteInterval testingTorNetwork)
  simp only [computeTimes, va, fu, vu, vs, ds, Option.bind_eq_bind, Option.bind_some, fresh, voting,
    distributing, guard, if_true]
  rw [ApartInHalves, ← valid]
  by_cases apart : freshUntil + minVoteInterval testingTorNetwork ≤ validUntil
  · simp [apart]
  · simp [apart]

/-! ## The consensus -/

theorem mem_sortVotes (v : NetworkVote) :
    v ∈ env.sortVotes.sort votes ↔ v ∈ votes := (env.sortVotes.perm votes).mem_iff

/-- On accepted votes the computation of a consensus meets a failed assertion exactly when the
votes are not apart in halves. -/
theorem networkstatusComputeConsensus_isSome_iff (env : ConsensusEnv) {votes : List NetworkVote}
    (nonempty : votes ≠ []) (room : votes.length ≤ env.totalAuthorities)
    (accepted : ∀ v ∈ votes, voteAccepted env.testingTorNetwork v = true) :
    (networkstatusComputeConsensus env votes).isSome
      ↔ ∀ t : Int, votes.length ≤ 2 * votes.countP (fun v => v.validUntil ≤ t) →
        votes.length ≤ 2 * votes.countP
          fun v => v.freshUntil + minVoteInterval env.testingTorNetwork ≤ t := by
  have positive : 0 < votes.length := List.length_pos_iff.mpr nonempty
  have sorted : (env.sortVotes.sort votes).length ≤ env.totalAuthorities := by
    rwa [(env.sortVotes.perm votes).length_eq]
  obtain ⟨params, paramsRun⟩ := Option.isSome_iff_exists.mp
    (dirvoteComputeParams_isSome votes env.totalAuthorities (by
      intro v member
      have all := accepted v member
      simp only [voteAccepted, Bool.and_eq_true] at all
      exact all.1.2))
  obtain ⟨routers, routersRun⟩ := Option.isSome_iff_exists.mp
    (consensusRouters_isSome env (consensusFlags votes) sorted (by
      intro v member flag known
      rw [mem_sortVotes] at member
      rw [mem_consensusFlags]
      exact .inr ⟨v, member, known⟩) (by
      intro v member rs listed
      rw [mem_sortVotes] at member
      have all := accepted v member
      simp only [voteAccepted, Bool.and_eq_true, List.all_eq_true] at all
      exact all.2 rs listed))
  have times := computeTimes_isSome nonempty accepted
  rw [ApartInHalves] at times
  rw [← times]
  unfold networkstatusComputeConsensus
  rw [if_neg (by omega), if_neg (by simpa using nonempty), paramsRun, routersRun]
  cases computeTimes env.testingTorNetwork votes with
  | none => simp
  | some => simp

/-- A computation for the ordinary network by three authorities. -/
def threeAuthorities : ConsensusEnv where
  testingTorNetwork := false
  totalAuthorities := 3
  consensusMethod := 32
  flavor := .ns
  maxUnmeasuredBwKb := 20
  sortVersionList := smartlistSortStrings
  sortVotes := insertionSorter compareVotesByAuthorityId
  sortDigests := insertionSorter compareDigests
  sortVoteRs := insertionSorter compareVoteRs
  sortOrports := insertionSorter compareOrports
  orders := ⟨⟨fun l => l, fun l => List.Perm.refl l⟩, ⟨fun l => l, fun l => List.Perm.refl l⟩⟩

theorem noRouters_sorted : ([] : List (VoteRouterstatus RouterClaim)).Pairwise fun rs1 rs2 =>
    compareDigests rs1.identityDigest rs2.identityDigest = .lt := .nil

/-- A vote without routers, with these times. -/
def voteOfTimes (freshUntil validUntil : Int) : NetworkVote where
  voterIdentity := fit 20 []
  validAfter := 0
  freshUntil := freshUntil
  validUntil := validUntil
  voteSeconds := 20
  distSeconds := 20
  knownFlags := [flagRunning, flagValid]
  netParams := none
  hasMeasuredBws := false
  routers := ⟨[], noRouters_sorted⟩

theorem networkstatusComputeConsensus_isSome_three :
    (networkstatusComputeConsensus threeAuthorities [voteOfTimes 3600 10800]).isSome
      ↔ ∀ t : Int, 1 ≤ 2 * [voteOfTimes 3600 10800].countP (fun v => v.validUntil ≤ t) →
        1 ≤ 2 * [voteOfTimes 3600 10800].countP fun v => v.freshUntil + minVoteInterval false ≤ t :=
  networkstatusComputeConsensus_isSome_iff threeAuthorities (by simp) (by decide) (by decide)

/-- An accepted vote that is valid no longer than it is fresh. -/
theorem networkstatusComputeConsensus_asserts :
    voteAccepted false (voteOfTimes 700 600) = true
      ∧ computeTimes false [voteOfTimes 700 600] = none
      ∧ networkstatusComputeConsensus threeAuthorities [voteOfTimes 700 600] = none := by
  refine ⟨by decide, by decide, ?_⟩
  have fails : computeTimes threeAuthorities.testingTorNetwork [voteOfTimes 700 600] = none := by
    decide
  unfold networkstatusComputeConsensus
  rw [if_neg (by decide), if_neg (by decide), fails]

end

end RendezMix.Guarantees
