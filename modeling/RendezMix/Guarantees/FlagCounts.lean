import RendezMix.Guarantees.VoteCollation
import RendezMix.Library.Pointwise
import RendezMix.Source.Dirvote

/-!
# What is counted for one router

The collator has an array for every router that it lists. The loop over the entries in it
runs to its end, since the entries are all for one RSA identity and those that carry the
consensus on the Ed25519 identity agree on it.
-/
namespace RendezMix.Guarantees
open Source Library ByteStrings

/-! ## The entries in an array -/

section

variable {σ : Type*} {rs : VoteRouterstatus σ} {id : Bytes 20} {dc : Dircollator RouterClaim}
  {column : Vote RouterClaim → Option VoteRs}

theorem rsaEntry_identity {v : Vote σ} (found : rsaEntry id v = some rs) :
    rs.identityDigest = id := by
  have key := List.find?_some found
  rwa [decide_eq_true_eq] at key

theorem pairColumn_identity {pair : Bytes 20 × Bytes 32} {v : Vote σ}
    (found : pairColumn pair v = some rs) : rs.identityDigest = pair.1 := by
  rw [pairColumn, Option.or_eq_some_iff] at found
  cases found with
  | inl found => exact (pairEntry_eq_some found).2.1
  | inr found => exact rsaEntry_identity (Option.filter_eq_some_iff.mp found.2).1

/-- What is known of a column of the array of a router. -/
structure ColumnOf {σ : Type*} (votes : List (Vote σ)) (dc : Dircollator σ) (id : Bytes 20)
    (column : Vote σ → Option (VoteRouterstatus σ)) : Prop where
  identity : ∀ v rs, column v = some rs → rs.identityDigest = id
  listed : ∀ v rs, column v = some rs → rs ∈ v.routerstatusList
  /-- The entries with the flag have one Ed25519 identity. -/
  agree : ∃ ed, ∀ (i : Nat) v rs, votes[i]? = some v → column v = some rs →
    dc.ed25519ReflectsConsensus i id = true → rs.ed25519Id = ed

theorem Collated.columnOf {votes : List (Vote σ)} {nAuthorities : Nat} {dc : Dircollator σ}
    (collated : Collated votes nAuthorities dc) (room : votes.length ≤ nAuthorities) {idx : Nat}
    (listed : dc.allRsaSha1Lst[idx]? = some id) :
    ∃ column, dircollatorGetVotesForRouter dc idx = some (votes.map column)
      ∧ ColumnOf votes dc id column := by
  rw [getVotes_of_get collated.collated listed]
  cases collated.column (List.mem_of_getElem? listed) with
  | inl pair =>
    obtain ⟨ed, majority⟩ := pair
    refine ⟨pairColumn (id, ed), collated.byPair id ed majority,
      fun v rs => pairColumn_identity, ?_, ed, ?_⟩
    · intro v rs found
      rw [pairColumn, Option.or_eq_some_iff] at found
      cases found with
      | inl found => exact (pairEntry_eq_some found).1
      | inr found => exact List.mem_of_find?_eq_some (Option.filter_eq_some_iff.mp found.2).1
    · intro i v rs at_i found flag
      rw [collated.flag room majority at_i] at flag
      obtain ⟨rs', entry⟩ := Option.isSome_iff_exists.mp flag
      rw [pairColumn, entry, Option.some_or, Option.some.injEq] at found
      rw [← found]
      exact (pairEntry_eq_some entry).2.2.2
  | inr alone =>
    obtain ⟨noPair, majority⟩ := alone
    refine ⟨rsaEntry id, collated.byRsa id noPair majority,
      fun v rs => rsaEntry_identity, fun v rs => List.mem_of_find?_eq_some, fit 32 [], ?_⟩
    intro i v rs _ _ flag
    rw [collated.noFlag noPair i] at flag
    cases flag

/-- A listing comes from an entry of the array. -/
theorem mem_routerListings {voters : List VoterFlags} {votes : List (Vote RouterClaim)}
    {listing : RouterListing} (member : listing ∈ routerListings voters dc (votes.map column)) :
    ∃ (i : Nat) (v : Vote RouterClaim), votes[i]? = some v ∧ voters[i]? = some listing.voter
      ∧ column v = some listing.rs
      ∧ listing.ed25519ReflectsConsensus
        = dc.ed25519ReflectsConsensus i listing.rs.identityDigest := by
  obtain ⟨⟨⟨voter, vrs⟩, i⟩, inside, made⟩ := List.mem_filterMap.mp member
  rw [List.mem_zipIdx_iff_getElem?, List.getElem?_zip_eq_some] at inside
  obtain ⟨rs, entry, rfl⟩ := Option.map_eq_some_iff.mp made
  have cell := inside.2
  simp only [List.getElem?_map] at cell
  obtain ⟨v, at_i, col⟩ := Option.map_eq_some_iff.mp cell
  simp only at entry
  rw [entry] at col
  exact ⟨i, v, at_i, inside.1, col, rfl⟩

/-! ## The loop over the entries -/

/-- Entries of one router: one RSA identity, and one Ed25519 identity for those with the flag. -/
def OneRouter (id : Bytes 20) (ed : Bytes 32) (listings : List RouterListing) : Prop :=
  ∀ listing ∈ listings, listing.rs.identityDigest = id
    ∧ (listing.ed25519ReflectsConsensus = true → listing.rs.ed25519Id = ed)

theorem oneRouter_of_column (voters : List VoterFlags) {votes : List (Vote RouterClaim)}
    (columnOf : ColumnOf votes dc id column) :
    ∃ ed, OneRouter id ed (routerListings voters dc (votes.map column)) := by
  obtain ⟨ed, agree⟩ := columnOf.agree
  refine ⟨ed, ?_⟩
  intro listing member
  obtain ⟨i, v, at_i, _, entry, flag⟩ := mem_routerListings member
  have identity := columnOf.identity v listing.rs entry
  refine ⟨identity, ?_⟩
  intro reflects
  rw [flag, identity] at reflects
  exact agree i v listing.rs at_i entry reflects

/-- What the loop has counted after these entries. -/
structure Tallied (id : Bytes 20) (nFlags : Nat) (listings : List RouterListing) (t : RouterTally) :
    Prop where
  nListing : t.nListing = listings.length
  matchingDescs : t.matchingDescs = listings.map RouterListing.rs
  currentRsaId : listings ≠ [] → t.currentRsaId = some id
  flagCounts : t.flagCounts = listings.foldl
    (fun counts listing => countFlags listing.voter listing.rs counts) (List.replicate nFlags 0)
  measuredGuardfraction : t.measuredGuardfraction
    = listings.filterMap fun listing => listing.rs.claim.guardfractionPercentage

theorem tally_tallied (id : Bytes 20) (ed : Bytes 32) (nFlags : Nat) (listings : List RouterListing)
    (one : OneRouter id ed listings) :
    ∃ t, listings.foldlM RouterTally.entry (RouterTally.start nFlags) = some t
      ∧ Tallied id nFlags listings t ∧ t.edConsensusVal.all (· = ed) = true := by
  induction listings using List.reverseRecOn with
  | nil =>
    refine ⟨RouterTally.start nFlags, rfl, ⟨rfl, rfl, ?_, rfl, rfl⟩, rfl⟩
    exact fun nonempty => absurd rfl nonempty
  | append_singleton front listing ih =>
    obtain ⟨t, run, tallied, value⟩ := ih fun other member =>
      one other (List.mem_append_left _ member)
    obtain ⟨identity, reflects⟩ := one listing (by simp)
    have agrees : (listing.ed25519ReflectsConsensus
        && !(t.edConsensusVal.all fun value => value = listing.rs.ed25519Id)) = false := by
      cases flag : listing.ed25519ReflectsConsensus with
      | false => rfl
      | true =>
        rw [reflects flag, value]
        rfl
    rw [List.foldlM_append, run, Option.bind_eq_bind, Option.bind_some, List.foldlM_cons]
    unfold RouterTally.entry
    simp only [agrees, Bool.false_eq_true, if_false]
    refine ⟨_, rfl, ⟨?_, ?_, ?_, ?_, ?_⟩, ?_⟩
    · simp [tallied.nListing]
    · simp [tallied.matchingDescs]
    · exact fun _ => congrArg some identity
    · simp [tallied.flagCounts, List.foldl_append]
    · simp only
      rw [tallied.measuredGuardfraction, List.filterMap_append]
      cases given : listing.rs.claim.guardfractionPercentage <;> simp [given]
    · simp only
      split
      next flag =>
        cases known : t.edConsensusVal with
        | none => simp [reflects flag]
        | some value' =>
          rw [known] at value
          exact value
      next => exact value

end

end RendezMix.Guarantees

/-!
# Counting the flags of a router

Every vote has flag indexes of its own, which the flag maps take to the places in the list
of all flags. The counters of a place are then the number of votes that know the flag and
the number of votes whose entry for the router has it.
-/
namespace RendezMix.Guarantees
open Source Library ByteStrings

/-! ## Counters -/

section

variable {α : Type*} (counts : List Nat) (p : Nat)

theorem length_increment : (increment counts p).length = counts.length :=
  List.length_modify _ _ _

theorem getD_increment {q : Nat} (inside : q < counts.length) :
    (increment counts p).getD q 0 = counts.getD q 0 + if p = q then 1 else 0 := by
  rw [List.getD_eq_getElem?_getD, List.getD_eq_getElem?_getD, increment, List.getElem?_modify,
    List.getElem?_eq_getElem inside]
  split <;> rfl

theorem getD_foldl_increment (ps counts : List Nat) {q : Nat} (inside : q < counts.length) :
    (ps.foldl increment counts).getD q 0 = counts.getD q 0 + ps.count q := by
  induction ps generalizing counts with
  | nil => simp
  | cons p ps ih =>
    rw [List.foldl_cons, ih (increment counts p) (by rwa [length_increment]),
      getD_increment counts p inside, List.count_cons]
    simp only [beq_iff_eq]
    omega

theorem getD_replicate_zero (n q : Nat) : (List.replicate n 0).getD q 0 = 0 := by
  rw [List.getD_eq_getElem?_getD, List.getElem?_replicate]
  split <;> rfl

theorem count_flatMap_eq_countP (l : List α) (f : α → List Nat) (p : α → Bool) (q : Nat)
    (once : ∀ a ∈ l, (f a).count q = if p a then 1 else 0) :
    (l.flatMap f).count q = l.countP p := by
  induction l with
  | nil => rfl
  | cons a l ih =>
    rw [List.flatMap_cons, List.count_append, List.countP_cons,
      ih fun b member => once b (List.mem_cons_of_mem _ member), once a List.mem_cons_self]
    omega

theorem countP_eq_indicator {l : List α} {p : α → Bool} (once : l.countP p ≤ 1) :
    l.countP p = if l.any p then 1 else 0 := by
  split
  next found =>
    rw [List.any_eq_true] at found
    have positive : 0 < l.countP p := List.countP_pos_iff.mpr found
    omega
  next missing =>
    rw [List.any_eq_true] at missing
    rw [List.countP_eq_zero]
    intro a member holds
    exact missing ⟨a, member, holds⟩

/-! ## The flag maps -/

theorem voterFlags_flagMap {flags : List CString} {v : NetworkVote} {voter : VoterFlags}
    (mapped : voterFlags flags v = some voter) :
    List.Forall₂ (fun fl p => flags[p]? = some fl) v.knownFlags voter.flagMap := by
  obtain ⟨flagMap, found, rfl⟩ := Option.map_eq_some_iff.mp mapped
  apply (Pointwise.forall₂_of_mapM found).imp
  intro fl p position
  obtain ⟨inside, same, _⟩ := List.findIdx?_eq_some_iff_getElem.mp position
  rw [List.getElem?_eq_getElem inside]
  simpa using same

theorem place_iff {flags : List CString} (distinct : flags.Nodup) {p q : Nat} {fl fl' : CString}
    (first : flags[p]? = some fl') (second : flags[q]? = some fl) : fl' = fl ↔ p = q := by
  constructor
  · rintro rfl
    have inside := (List.getElem?_eq_some_iff.mp first).1
    exact (List.getElem?_inj inside distinct).mp (first.trans second.symm)
  · rintro rfl
    exact Option.some.inj (first.symm.trans second)

/-- Whether a vote gives a flag to an entry. -/
def voteAssigns (v : NetworkVote) (fl : CString) (rs : VoteRs) : Bool :=
  v.knownFlags.zipIdx.any fun known => known.1 = fl ∧ hasFlag rs.claim.flags known.2

/-- The indexes at which an entry is counted. -/
def countedAt (voter : VoterFlags) (rs : VoteRs) : List Nat :=
  (voter.flagMap.zipIdx.filter fun flag => hasFlag rs.claim.flags flag.2).map Prod.fst

theorem countFlags_eq (voter : VoterFlags) (rs : VoteRs) (counts : List Nat) :
    countFlags voter rs counts = (countedAt voter rs).foldl increment counts := by
  rw [countedAt, List.foldl_map, List.foldl_filter]
  rfl

theorem foldl_countFlags (listings : List RouterListing) (counts : List Nat) :
    listings.foldl (fun counts listing => countFlags listing.voter listing.rs counts) counts
      = (listings.flatMap fun listing => countedAt listing.voter listing.rs).foldl increment counts := by
  induction listings generalizing counts with
  | nil => rfl
  | cons listing listings ih =>
    rw [List.foldl_cons, ih, List.flatMap_cons, List.foldl_append, countFlags_eq]

end

section Place

variable {flags : List CString} {fl : CString} {q : Nat} {v : NetworkVote} {voter : VoterFlags}

section

variable (distinct : flags.Nodup) (place : flags[q]? = some fl) (known : v.knownFlags.Nodup)
  (mapped : voterFlags flags v = some voter)

include distinct place known mapped

theorem count_flagMap : voter.flagMap.count q = if fl ∈ v.knownFlags then 1 else 0 := by
  have same : v.knownFlags.countP (· == fl) = voter.flagMap.countP (· == q) := by
    apply Pointwise.countP_of_forall₂ (voterFlags_flagMap mapped)
    intro fl' p position
    rw [Bool.eq_iff_iff, beq_iff_eq, beq_iff_eq]
    exact place_iff distinct position place
  rw [List.count, ← same, ← List.count, known.count]

theorem count_countedAt (rs : VoteRs) :
    (countedAt voter rs).count q = if voteAssigns v fl rs then 1 else 0 := by
  have same : (v.knownFlags.zipIdx).countP (fun known => known.1 = fl ∧ hasFlag rs.claim.flags known.2)
      = voter.flagMap.zipIdx.countP fun flag => flag.1 = q ∧ hasFlag rs.claim.flags flag.2 := by
    apply Pointwise.countP_of_forall₂ (Pointwise.zipIdx (voterFlags_flagMap mapped) 0)
    rintro ⟨fl', i⟩ ⟨p, j⟩ ⟨position, rfl⟩
    rw [Bool.eq_iff_iff, decide_eq_true_eq, decide_eq_true_eq]
    exact and_congr_left' (place_iff distinct position place)
  have once : (v.knownFlags.zipIdx).countP
      (fun known => known.1 = fl ∧ hasFlag rs.claim.flags known.2) ≤ 1 := by
    have fewer : (v.knownFlags.zipIdx).countP
        (fun known => known.1 = fl ∧ hasFlag rs.claim.flags known.2)
        ≤ (v.knownFlags.zipIdx).countP fun known => known.1 == fl := by
      apply List.countP_mono_left
      intro known _ both
      rw [decide_eq_true_eq] at both
      rw [beq_iff_eq]
      exact both.1
    have all : (v.knownFlags.zipIdx).countP (fun known => known.1 == fl) = v.knownFlags.count fl := by
      have fsts := List.countP_map (p := (· == fl)) (f := Prod.fst) (l := v.knownFlags.zipIdx)
      rw [List.zipIdx_map_fst] at fsts
      exact fsts.symm
    have single := List.nodup_iff_count_le_one.mp known fl
    omega
  rw [voteAssigns, ← countP_eq_indicator once, same, countedAt, List.count, List.countP_map,
    List.countP_filter]
  congr
  funext flag
  simp [beq_eq_decide]

end

end Place

/-! ## The votes that are counted -/

theorem filterMap_zipIdx {α β : Type*} (l : List α) (f : α → Option β) :
    l.zipIdx.filterMap (fun cell => f cell.1) = l.filterMap f := by
  have firsts := List.filterMap_map (f := Prod.fst) (g := f) (l := l.zipIdx)
  rw [List.zipIdx_map_fst] at firsts
  exact firsts.symm

variable (dc : Dircollator RouterClaim) (votes : List NetworkVote)
  (voterOf : NetworkVote → VoterFlags) (col : NetworkVote → Option VoteRs)

theorem routerListings_pairs :
    (routerListings (votes.map voterOf) dc (votes.map col)).map
        (fun listing => (listing.voter, listing.rs))
      = votes.filterMap fun v => (col v).map fun rs => (voterOf v, rs) := by
  rw [routerListings, List.map_filterMap, List.zip_map', List.zipIdx_map, List.filterMap_map]
  refine Eq.trans ?_ (filterMap_zipIdx votes fun v => (col v).map fun rs => (voterOf v, rs))
  congr
  funext cell
  simp only [Function.comp_apply, Option.map_map, Prod.map_fst]
  rfl

section Counts

variable {flags : List CString} {votes : List NetworkVote} {voterOf : NetworkVote → VoterFlags}
  {fl : CString} {q : Nat}

section

variable (distinct : flags.Nodup) (place : flags[q]? = some fl)
  (known : ∀ v ∈ votes, v.knownFlags.Nodup)
  (mapped : ∀ v ∈ votes, voterFlags flags v = some (voterOf v))

include distinct place known mapped

theorem nFlagVoters_getD :
    (nFlagVoters flags (votes.map voterOf)).getD q 0 = votes.countP fun v => fl ∈ v.knownFlags := by
  have inside : q < (List.replicate flags.length 0).length := by
    rw [List.length_replicate]
    exact (List.getElem?_eq_some_iff.mp place).1
  rw [nFlagVoters, getD_foldl_increment _ _ inside, List.flatMap_map,
    count_flatMap_eq_countP votes _ (fun v => fl ∈ v.knownFlags)]
  · rw [getD_replicate_zero, Nat.zero_add]
  · intro v member
    rw [count_flagMap distinct place (known v member) (mapped v member)]
    simp

/-- The number of votes that give a flag to the router. -/
theorem flagCounts_getD (dc : Dircollator RouterClaim) (col : NetworkVote → Option VoteRs) :
    ((routerListings (votes.map voterOf) dc (votes.map col)).foldl
        (fun counts listing => countFlags listing.voter listing.rs counts)
        (List.replicate flags.length 0)).getD q 0
      = votes.countP fun v => (col v).any (voteAssigns v fl) := by
  have inside : q < (List.replicate flags.length 0).length := by
    rw [List.length_replicate]
    exact (List.getElem?_eq_some_iff.mp place).1
  have pairs : ((routerListings (votes.map voterOf) dc (votes.map col)).flatMap
      fun listing => countedAt listing.voter listing.rs)
      = votes.flatMap fun v => ((col v).map (countedAt (voterOf v))).getD [] := by
    have paired := congrArg (List.flatMap fun pair : VoterFlags × VoteRs => countedAt pair.1 pair.2)
      (routerListings_pairs dc votes voterOf col)
    rw [List.flatMap_map] at paired
    rw [paired]
    clear paired inside known mapped
    induction votes with
    | nil => rfl
    | cons v votes ih =>
      rw [List.flatMap_cons, ← ih]
      cases entry : col v with
      | none => rw [List.filterMap_cons_none (by rw [entry]; rfl)]; rfl
      | some rs =>
        rw [List.filterMap_cons_some (by rw [entry]; rfl)]
        rfl
  rw [foldl_countFlags, getD_foldl_increment _ _ inside, pairs,
    count_flatMap_eq_countP votes _ fun v => (col v).any (voteAssigns v fl)]
  · rw [getD_replicate_zero, Nat.zero_add]
  · intro v member
    cases entry : col v with
    | none => rfl
    | some rs => exact count_countedAt distinct place (known v member) (mapped v member) rs

end

end Counts

theorem routerListings_rs :
    (routerListings (votes.map voterOf) dc (votes.map col)).map RouterListing.rs
      = votes.filterMap col := by
  have paired := congrArg (List.map Prod.snd) (routerListings_pairs dc votes voterOf col)
  rw [List.map_map, List.map_filterMap] at paired
  simp only [Option.map_map] at paired
  have same : ∀ v : NetworkVote, (col v).map (Prod.snd ∘ fun rs => (voterOf v, rs)) = col v := by
    intro v
    cases col v <;> rfl
  simp only [same] at paired
  exact paired

end RendezMix.Guarantees
