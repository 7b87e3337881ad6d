import RendezMix.Guarantees.ConsensusAsserts

/-!
# The order of the votes does not matter

The votes are sorted by their authorities before the routers are looked at, and the flags
are sorted as well. What is left to chance, the order of a hash table and the places of equal
elements after a `qsort`, does not change an entry.
-/
namespace RendezMix.Guarantees
open Source Library ByteStrings Sorting NetworkVote
open Std (TransCmp OrientedCmp)

/-! ## Flags and votes in order -/

section

variable {votes' votes : List NetworkVote} {env env' : ConsensusEnv}

theorem consensusFlags_perm (perm : votes'.Perm votes) :
    consensusFlags votes' = consensusFlags votes := by
  rw [consensusFlags, consensusFlags,
    smartlistSortStrings_perm ((perm.flatMap_right knownFlags).append_right _)]

theorem sortVotes_perm (sorter sorter' : Sorter compareVotesByAuthorityId)
    (perm : votes'.Perm votes) (distinct : (votes.map voterIdentity).Nodup) :
    sorter'.sort votes' = sorter.sort votes := by
  apply sorter'.eq_of_perm sorter perm
  intro a first b second equal
  exact List.inj_on_of_nodup_map distinct (perm.mem_iff.mp first) (perm.mem_iff.mp second)
    (compareDigests_eq equal)

/-! ## The description -/

theorem smartlistSortDigests256_perm {l l' : List (Bytes 32)} (perm : l'.Perm l) :
    smartlistSortDigests256 l' = smartlistSortDigests256 l := by
  apply (insertionSorter compareDigests256).eq_of_perm (insertionSorter compareDigests256) perm
  intro a _ b _ equal
  exact Subtype.ext (Std.compare_eq_iff_eq.mp equal)

theorem sortOrports_perm (sorter sorter' : Sorter compareOrports) {l l' : List Ipv6Orport}
    (perm : l'.Perm l) : sorter'.sort l' = sorter.sort l :=
  sorter'.eq_of_perm sorter perm fun a _ b _ equal => (compareOrports_eq a b).mp equal

theorem AtLeast.antisymm {sl : List VoteRs} {m b : VoteRs} (first : AtLeast sl m b)
    (second : AtLeast sl b m) : compareVoteRs m b = .eq := by
  unfold AtLeast at first second
  rcases first with fewer | ⟨count, earlier | ⟨time, le⟩⟩
  · omega
  · omega
  · rcases second with fewer | ⟨_, later | ⟨_, ge⟩⟩
    · omega
    · omega
    · exact OrientedCmp.isLE_antisymm le ge

/-- The sorting functions do not change the description, up to what it is compared by. -/
theorem computeRouterstatusConsensus_sorters (sortVoteRs sortVoteRs' : Sorter compareVoteRs)
    (sortOrports sortOrports' : Sorter compareOrports) {votes : List VoteRs} (nonempty : votes ≠ [])
    (consensusMethod : Nat) :
    ∃ winner winner',
      computeRouterstatusConsensus sortVoteRs sortOrports votes consensusMethod = some winner
        ∧ computeRouterstatusConsensus sortVoteRs' sortOrports' votes consensusMethod = some winner'
        ∧ SameDescription winner'.most winner.most
        ∧ winner'.microdescDigest256 = winner.microdescDigest256
        ∧ winner'.bestAltOrport = winner.bestAltOrport := by
  obtain ⟨most, found, member, best⟩ := mostScan_best sortVoteRs nonempty
  obtain ⟨most', found', member', best'⟩ := mostScan_best sortVoteRs' nonempty
  have equal : compareVoteRs most' most = .eq :=
    AtLeast.antisymm (best' most member) (best most' member')
  have perm : (sortVoteRs'.sort votes).Perm (sortVoteRs.sort votes) :=
    (sortVoteRs'.perm votes).trans (sortVoteRs.perm votes).symm
  have orports := sortOrports_perm sortOrports sortOrports' ((perm.filter fun rs =>
    compareVoteRs most rs = .eq).filterMap ipv6OrportOf)
  have digests := smartlistSortDigests256_perm ((perm.filter fun rs =>
    compareVoteRs rs most = .eq).filterMap fun rs => voteRouterstatusFindMicrodescHash rs consensusMethod)
  unfold computeRouterstatusConsensus
  simp only [found, found', TransCmp.congr_left equal, TransCmp.congr_right equal, orports, digests]
  exact ⟨_, _, rfl, rfl, (compareVoteRs_eq most' most).mp equal, rfl, rfl⟩

/-! ## The entry of a router -/

theorem any_ne_iff (first : CString) (rest : List CString) :
    rest.any (· ≠ first) = true ↔ ¬ ∀ a ∈ first :: rest, ∀ b ∈ first :: rest, a = b := by
  rw [← Bool.not_eq_false, not_iff_not, List.any_eq_false]
  constructor
  · intro equal
    have all : ∀ a ∈ first :: rest, a = first := by
      intro a member
      cases List.mem_cons.mp member with
      | inl same => exact same
      | inr later => simpa using equal a later
    intro a inside b member
    rw [all a inside, all b member]
  · intro equal a member
    simpa using equal a (List.mem_cons_of_mem _ member) first List.mem_cons_self

theorem chooseExitsummary_perm (descriptorDigest : Bytes 20) {descs descs' : List VoteRs}
    (perm : descs'.Perm descs) :
    chooseExitsummary descriptorDigest descs' = chooseExitsummary descriptorDigest descs := by
  have same := (perm.filter fun vsr => vsr.claim.descriptorDigest = descriptorDigest).filterMap
    fun vsr => vsr.claim.exitsummary
  have all := smartlistSortStrings_perm (perm.filterMap fun vsr => vsr.claim.exitsummary)
  have sorted := smartlistSortStrings_perm same
  unfold chooseExitsummary
  simp only [all, sorted]
  generalize (descs'.filter _).filterMap _ = l' at same ⊢
  generalize (descs.filter _).filterMap _ = l at same ⊢
  cases l' with
  | nil =>
    rw [same.nil_eq]
  | cons first' rest' =>
    cases l with
    | nil => exact absurd same.symm.nil_eq (by simp)
    | cons first rest =>
      have alike : (rest'.any (· ≠ first') = true) = (rest.any (· ≠ first) = true) := by
        rw [propext (any_ne_iff first' rest'), propext (any_ne_iff first rest)]
        simp only [same.mem_iff]
      simp only [alike]
      by_cases disagree : rest.any (· ≠ first) = true
      · rw [if_pos disagree, if_pos disagree]
      · rw [if_neg disagree, if_neg disagree]
        rw [any_ne_iff, not_not] at disagree
        have member : first' ∈ first :: rest := same.mem_iff.mp List.mem_cons_self
        rw [disagree first' member first List.mem_cons_self]

/-- Two computations with the same settings. -/
structure SameSettings (env env' : ConsensusEnv) : Prop where
  totalAuthorities : env'.totalAuthorities = env.totalAuthorities
  consensusMethod : env'.consensusMethod = env.consensusMethod
  flavor : env'.flavor = env.flavor
  maxUnmeasuredBwKb : env'.maxUnmeasuredBwKb = env.maxUnmeasuredBwKb
  sortVersionList : env'.sortVersionList = env.sortVersionList

theorem routerEntry_settings (same : SameSettings env env') (ctx : RouterContext)
    (listings : List RouterListing) (id : Bytes 20) (ed : Bytes 32)
    (one : OneRouter id ed listings) :
    routerEntry env' ctx listings = routerEntry env ctx listings := by
  obtain ⟨t, run, tallied, _⟩ := tally_tallied id ed ctx.flags.length listings one
  unfold routerEntry
  rw [run]
  simp only [same.totalAuthorities]
  by_cases few : t.nListing ≤ env.totalAuthorities / 2
  · rw [if_pos few, if_pos few]
  rw [if_neg few, if_neg few]
  have nonempty : listings ≠ [] := by
    rintro rfl
    rw [tallied.nListing, List.length_nil] at few
    omega
  have descs : t.matchingDescs ≠ [] := by
    rw [tallied.matchingDescs]
    simpa using nonempty
  obtain ⟨winner, winner', found, found', description, microdesc, orport⟩ :=
    computeRouterstatusConsensus_sorters env.sortVoteRs env'.sortVoteRs env.sortOrports
      env'.sortOrports descs env.consensusMethod
  obtain ⟨identity, descriptor, publishedOn, nickname, addr, orPort, dirPort⟩ := description
  have summary := chooseExitsummary_perm winner.most.claim.descriptorDigest
    ((env'.sortVoteRs.perm t.matchingDescs).trans (env.sortVoteRs.perm t.matchingDescs).symm)
  rw [same.consensusMethod, tallied.currentRsaId nonempty, found, found', same.flavor,
    same.maxUnmeasuredBwKb, same.sortVersionList]
  simp only [identity, descriptor, publishedOn, nickname, addr, orPort, dirPort, microdesc, orport,
    summary]

/-! ## All routers -/

theorem routerListings_flags (voters : List VoterFlags) {dc dc' : Dircollator RouterClaim}
    (column : Vote RouterClaim → Option VoteRs)
    (flags : ∀ (i : Nat) v rs, votes[i]? = some v → column v.routers = some rs →
      dc'.ed25519ReflectsConsensus i rs.identityDigest
        = dc.ed25519ReflectsConsensus i rs.identityDigest) :
    routerListings voters dc' ((votes.map routers).map column)
      = routerListings voters dc ((votes.map routers).map column) := by
  unfold routerListings
  apply List.filterMap_congr
  rintro ⟨⟨voter, cell⟩, i⟩ member
  rw [List.mem_zipIdx_iff_getElem?, List.getElem?_zip_eq_some, List.getElem?_map,
    List.getElem?_map] at member
  obtain ⟨vote, atVote, entry⟩ := Option.map_eq_some_iff.mp member.2
  obtain ⟨v, at_i, rfl⟩ := Option.map_eq_some_iff.mp atVote
  simp only at entry ⊢
  cases cell with
  | none => rfl
  | some rs => rw [Option.map_some, Option.map_some, flags i v rs at_i entry]

theorem consensusRouters_settings (same : SameSettings env env') (flags : List CString)
    (room : votes.length ≤ env.totalAuthorities) :
    consensusRouters env' flags votes = consensusRouters env flags votes := by
  have roomRouters : (votes.map routers).length ≤ env.totalAuthorities := by
    rwa [List.length_map]
  obtain ⟨dc, run, collated⟩ := collateVotes_collated roomRouters env.orders env.sortDigests
  obtain ⟨dc', run', collated'⟩ := collateVotes_collated roomRouters env'.orders env'.sortDigests
  obtain ⟨sameList, byVote⟩ := sameByVote_of_collated roomRouters (List.Perm.refl _) collated collated'
  unfold consensusRouters
  rw [same.totalAuthorities, run, run']
  cases votes.mapM (voterFlags flags) with
  | none => rfl
  | some voters =>
    simp only [dircollatorNRouters, collated.collated, collated'.collated, if_true, sameList,
      Option.bind_some]
    generalize (RouterContext.mk flags _ _ _) = ctx
    apply Pointwise.mapM_congr
    intro idx inside
    rw [List.mem_range] at inside
    obtain ⟨column, array, columnOf⟩ := collated.columnOf roomRouters
      (List.getElem?_eq_getElem inside)
    obtain ⟨column', flag, array', array'', flags, flags'⟩ := byVote idx _
      (List.getElem?_eq_getElem inside)
    rw [array, Option.some.injEq] at array'
    rw [← array'] at array''
    obtain ⟨ed, one⟩ := oneRouter_of_column voters columnOf
    rw [routerEntryAt, routerEntryAt, array, array'', Option.bind_some, Option.bind_some,
      routerListings_flags voters column, routerEntry_settings same ctx _ _ ed one]
    intro i v rs at_i entry
    have at_vote : (votes.map routers)[i]? = some v.routers := by
      rw [List.getElem?_map, at_i, Option.map_some]
    rw [columnOf.identity v.routers rs entry, flags i v.routers at_vote, flags' i v.routers at_vote]

end

end RendezMix.Guarantees
