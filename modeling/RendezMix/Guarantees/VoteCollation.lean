import RendezMix.Source.Dircollate

/-!
# The identities that the votes agree on

A collator that has been given the votes lists every RSA identity at most once, in
increasing order. It lists the ones that occur with one Ed25519 identity, or at all, in
the votes of more than half of the authorities. What it holds for an identity depends on
the votes alone, column by column, and not on their order or on that of the hash tables.
-/
namespace RendezMix.Guarantees
open Source Library ByteStrings Sorting KeyedMap
open Std (TransCmp OrientedCmp ReflCmp)

variable {σ : Type*}

theorem compareDigests_eq {id1 id2 : Bytes 20} (equal : compareDigests id1 id2 = .eq) :
    id1 = id2 := by
  rwa [compareDigests, compareOn, Std.compare_eq_iff_eq, Subtype.val_inj] at equal

theorem compareDigests_irrefl (id : Bytes 20) : compareDigests id id ≠ .lt := by
  have equal : compareDigests id id = .eq := ReflCmp.compare_self
  rw [equal]
  decide

/-! ## What the votes say -/

def listsPair (pair : Bytes 20 × Bytes 32) (rs : VoteRouterstatus σ) : Bool :=
  rs.identityDigest = pair.1 ∧ rs.hasEd25519Listing = true ∧ rs.ed25519Id = pair.2

/-- The entry of a vote for an RSA identity. -/
def rsaEntry (id : Bytes 20) (v : Vote σ) : Option (VoteRouterstatus σ) :=
  v.routerstatusList.find? fun rs => rs.identityDigest = id

/-- The entry of a vote for an RSA identity with an Ed25519 identity. -/
def pairEntry (pair : Bytes 20 × Bytes 32) (v : Vote σ) : Option (VoteRouterstatus σ) :=
  v.routerstatusList.find? (listsPair pair)

/-- The entry that is used for a pair: one that lists it, or else one that lists the RSA
identity and says nothing about an Ed25519 identity. -/
def pairColumn (pair : Bytes 20 × Bytes 32) (v : Vote σ) : Option (VoteRouterstatus σ) :=
  (pairEntry pair v).or ((rsaEntry pair.1 v).filter fun rs => !rs.hasEd25519Listing)

/-- More than half of the authorities list the pair. -/
def MajorityPair (votes : List (Vote σ)) (nAuthorities : Nat) (pair : Bytes 20 × Bytes 32) : Prop :=
  nAuthorities < 2 * votes.countP fun v => (pairEntry pair v).isSome

/-- More than half of the authorities list the RSA identity. -/
def MajorityRsa (votes : List (Vote σ)) (nAuthorities : Nat) (id : Bytes 20) : Prop :=
  nAuthorities < 2 * votes.countP fun v => (rsaEntry id v).isSome

theorem sorted_distinct (v : Vote σ) :
    v.routerstatusList.Pairwise fun rs1 rs2 => rs1.identityDigest ≠ rs2.identityDigest := by
  apply v.sorted.imp
  intro rs1 rs2 less same
  rw [same] at less
  exact compareDigests_irrefl _ less

theorem entry_unique (v : Vote σ) {rs1 rs2 : VoteRouterstatus σ}
    (first : rs1 ∈ v.routerstatusList) (second : rs2 ∈ v.routerstatusList)
    (same : rs1.identityDigest = rs2.identityDigest) : rs1 = rs2 := by
  have distinct : (v.routerstatusList.map VoteRouterstatus.identityDigest).Nodup :=
    List.pairwise_map.mpr (sorted_distinct v)
  exact List.inj_on_of_nodup_map distinct first second same

variable {votes : List (Vote σ)} {nVotes : Nat} {votes' : List (Vote σ)} {nAuthorities : Nat}
  {dc : Dircollator σ} {v : Vote σ} {nextVoteNum : Nat} {id : Bytes 20}

section

variable {voteNum : Nat} {pair : Bytes 20 × Bytes 32} {content : Nat → List (VoteRouterstatus σ)}
  {ed1 ed2 : Bytes 32}

theorem pairEntry_eq_some {rs : VoteRouterstatus σ} (found : pairEntry pair v = some rs) :
    rs ∈ v.routerstatusList
      ∧ rs.identityDigest = pair.1 ∧ rs.hasEd25519Listing = true ∧ rs.ed25519Id = pair.2 := by
  refine ⟨List.mem_of_find?_eq_some found, ?_⟩
  have lists := List.find?_some found
  rwa [listsPair, decide_eq_true_eq] at lists

theorem pairEntry_rsaEntry (listed : (pairEntry pair v).isSome) : (rsaEntry pair.1 v).isSome := by
  obtain ⟨rs, found⟩ := Option.isSome_iff_exists.mp listed
  obtain ⟨member, id, _⟩ := pairEntry_eq_some found
  rw [rsaEntry, List.find?_isSome]
  exact ⟨rs, member, by simp [id]⟩

theorem pairEntry_unique (first : (pairEntry (id, ed1) v).isSome)
    (second : (pairEntry (id, ed2) v).isSome) : ed1 = ed2 := by
  obtain ⟨rs1, found1⟩ := Option.isSome_iff_exists.mp first
  obtain ⟨rs2, found2⟩ := Option.isSome_iff_exists.mp second
  obtain ⟨member1, id1, _, key1⟩ := pairEntry_eq_some found1
  obtain ⟨member2, id2, _, key2⟩ := pairEntry_eq_some found2
  have same := entry_unique v member1 member2 (id1.trans id2.symm)
  rw [same] at key1
  exact key1.symm.trans key2

theorem countP_disjoint {α : Type*} (p q : α → Bool) (l : List α)
    (disjoint : ∀ a ∈ l, p a = true → q a = true → False) : l.countP p + l.countP q ≤ l.length := by
  induction l with
  | nil => exact le_refl 0
  | cons a l ih =>
    have rest := ih fun b member => disjoint b (List.mem_cons_of_mem a member)
    have here := disjoint a List.mem_cons_self
    rw [List.countP_cons, List.countP_cons, List.length_cons]
    by_cases first : p a = true
    · rw [if_pos first, if_neg fun second => here first second]
      omega
    · rw [if_neg first]
      split <;> omega

theorem majorityPair_unique (room : votes.length ≤ nAuthorities)
    (first : MajorityPair votes nAuthorities (id, ed1))
    (second : MajorityPair votes nAuthorities (id, ed2)) : ed1 = ed2 := by
  by_contra differ
  have disjoint := countP_disjoint (fun v => (pairEntry (id, ed1) v).isSome)
    (fun v => (pairEntry (id, ed2) v).isSome) votes
    fun v _ lists1 lists2 => differ (pairEntry_unique lists1 lists2)
  unfold MajorityPair at first second
  omega

/-! ## Adding the votes -/

/-- What a collator holds of the entries that it was given. -/
structure Added (dc : Dircollator σ) (nVotes nAuthorities nextVoteNum : Nat)
    (content : Nat → List (VoteRouterstatus σ)) : Prop where
  columns : dc.nVotes = nVotes
  authorities : dc.nAuthorities = nAuthorities
  next : dc.nextVoteNum = nextVoteNum
  running : dc.isCollated = false
  unset : ∀ i id, dc.ed25519ReflectsConsensus i id = false
  rsaFilled : KeyedMap.Filled nVotes dc.byRsaSha1
  bothFilled : KeyedMap.Filled nVotes dc.byBothIds
  rsaCells : ∀ id i, cell dc.byRsaSha1 id i
    = (content i).find? fun rs => rs.identityDigest = id
  bothCells : ∀ pair i, cell dc.byBothIds pair i = (content i).find? (listsPair pair)

theorem find?_update_append {vrs : VoteRouterstatus σ} (p : VoteRouterstatus σ → Bool) (i : Nat) :
    (Function.update content voteNum (content voteNum ++ [vrs]) i).find? p
      = if i = voteNum then ((content i).find? p).or (if p vrs then some vrs else none)
        else (content i).find? p := by
  by_cases same : i = voteNum
  · subst same
    rw [Function.update_self, List.find?_append, if_pos rfl, List.find?_cons]
    cases p vrs <;> rfl
  · rw [Function.update_of_ne same, if_neg same]

theorem dircollatorAddRouterstatus_added
    (added : Added dc nVotes nAuthorities nextVoteNum content) (inside : voteNum < nVotes)
    (vrs : VoteRouterstatus σ)
    (fresh : ∀ rs ∈ content voteNum, rs.identityDigest ≠ vrs.identityDigest) :
    ∃ dc', dircollatorAddRouterstatus voteNum dc vrs = some dc'
      ∧ Added dc' nVotes nAuthorities nextVoteNum
        (Function.update content voteNum (content voteNum ++ [vrs])) := by
  obtain rfl := added.columns
  have rsaEmpty : cell dc.byRsaSha1 vrs.identityDigest voteNum = none := by
    rw [added.rsaCells, List.find?_eq_none]
    intro rs member
    simpa using fresh rs member
  have noPair : ∀ ed, (content voteNum).find? (listsPair (vrs.identityDigest, ed)) = none := by
    intro ed
    rw [List.find?_eq_none]
    intro rs member lists
    rw [listsPair, decide_eq_true_eq] at lists
    exact fresh rs member lists.1
  have unset : ∀ i id, setReflects dc.ed25519ReflectsConsensus voteNum vrs.identityDigest false i id
      = false := by
    intro i id
    rw [setReflects, added.unset]
    split <;> rfl
  obtain ⟨byRsaSha1, put, rsaFilled, rsaCells⟩ :=
    put_spec added.rsaFilled vrs.identityDigest vrs inside rsaEmpty
  have rsaAfter : ∀ id i, cell byRsaSha1 id i
      = (Function.update content voteNum (content voteNum ++ [vrs]) i).find?
        fun rs => rs.identityDigest = id := by
    intro id i
    rw [rsaCells, added.rsaCells, find?_update_append]
    by_cases column : i = voteNum
    · subst column
      rw [if_pos rfl]
      by_cases key : id = vrs.identityDigest
      · subst key
        rw [if_pos ⟨rfl, rfl⟩, ← added.rsaCells, rsaEmpty]
        simp
      · rw [if_neg fun both => key both.1]
        simp [Ne.symm key]
    · rw [if_neg fun both => column both.2, if_neg column]
  unfold dircollatorAddRouterstatus
  simp only [put]
  cases listing : vrs.hasEd25519Listing with
  | false =>
    refine ⟨_, rfl, added.columns, added.authorities, added.next, added.running, unset,
      rsaFilled, added.bothFilled, rsaAfter, ?_⟩
    intro pair i
    rw [find?_update_append]
    have notListed : listsPair pair vrs = false := by simp [listsPair, listing]
    rw [notListed]
    simp [added.bothCells]
  | true =>
    have bothEmpty : cell dc.byBothIds (vrs.identityDigest, vrs.ed25519Id) voteNum = none := by
      rw [added.bothCells]
      exact noPair vrs.ed25519Id
    obtain ⟨byBothIds, putBoth, bothFilled, bothCells⟩ := put_spec added.bothFilled
      (vrs.identityDigest, vrs.ed25519Id) vrs inside bothEmpty
    simp only [Bool.not_true, Bool.false_eq_true, if_false, putBoth]
    refine ⟨_, rfl, added.columns, added.authorities, added.next, added.running, unset,
      rsaFilled, bothFilled, rsaAfter, ?_⟩
    intro pair i
    rw [bothCells, added.bothCells, find?_update_append]
    by_cases column : i = voteNum
    · subst column
      rw [if_pos rfl]
      by_cases key : pair = (vrs.identityDigest, vrs.ed25519Id)
      · subst key
        rw [if_pos ⟨rfl, rfl⟩, noPair]
        simp [listsPair, listing]
      · have notListed : listsPair pair vrs = false := by
          rw [listsPair, decide_eq_false_iff_not]
          intro lists
          exact key (Prod.ext lists.1.symm lists.2.2.symm)
        rw [if_neg fun both => key both.1, notListed]
        simp
    · rw [if_neg fun both => column both.2, if_neg column]

end

section

variable {ids : List (Bytes 20)} {ent : (Bytes 20 × Bytes 32) × VrsLst σ}

theorem addEntries_added (voteNum : Nat) (inside : voteNum < nVotes)
    (rss : List (VoteRouterstatus σ)) (dc : Dircollator σ)
    (content : Nat → List (VoteRouterstatus σ))
    (added : Added dc nVotes nAuthorities nextVoteNum content)
    (distinct : (content voteNum ++ rss).Pairwise fun rs1 rs2 =>
      rs1.identityDigest ≠ rs2.identityDigest) :
    ∃ dc', rss.foldlM (dircollatorAddRouterstatus voteNum) dc = some dc'
      ∧ Added dc' nVotes nAuthorities nextVoteNum
        (Function.update content voteNum (content voteNum ++ rss)) := by
  induction rss generalizing dc content with
  | nil =>
    refine ⟨dc, rfl, ?_⟩
    rw [List.append_nil, Function.update_eq_self]
    exact added
  | cons vrs rss ih =>
    have fresh : ∀ rs ∈ content voteNum, rs.identityDigest ≠ vrs.identityDigest := by
      intro rs member
      exact (List.pairwise_append.mp distinct).2.2 rs member vrs List.mem_cons_self
    obtain ⟨dc1, first, added1⟩ := dircollatorAddRouterstatus_added added inside vrs fresh
    obtain ⟨dc2, rest, added2⟩ := ih dc1 _ added1 (by
      rwa [Function.update_self, List.append_assoc, List.singleton_append])
    refine ⟨dc2, ?_, ?_⟩
    · rw [List.foldlM_cons, first]
      exact rest
    · rw [Function.update_self, Function.update_idem, List.append_assoc,
        List.singleton_append] at added2
      exact added2

/-- The entries of the votes that were added, by their numbers. -/
def contentOf (votes : List (Vote σ)) (i : Nat) : List (VoteRouterstatus σ) :=
  (votes[i]?.map Vote.routerstatusList).getD []

theorem contentOf_concat (votes : List (Vote σ)) (v : Vote σ) :
    contentOf (votes ++ [v])
      = Function.update (contentOf votes) votes.length
        (contentOf votes votes.length ++ v.routerstatusList) := by
  funext i
  unfold contentOf
  by_cases last : i = votes.length
  · subst last
    simp
  · rw [Function.update_of_ne last]
    by_cases before : i < votes.length
    · rw [List.getElem?_append_left before]
    · rw [List.getElem?_eq_none (by simp; omega), List.getElem?_eq_none (by omega)]

theorem addVotes_added (rest front : List (Vote σ)) (dc : Dircollator σ)
    (room : (front ++ rest).length ≤ nVotes)
    (added : Added dc nVotes nAuthorities front.length (contentOf front)) :
    ∃ dc', rest.foldlM dircollatorAddVote dc = some dc'
      ∧ Added dc' nVotes nAuthorities (front ++ rest).length (contentOf (front ++ rest)) := by
  induction rest generalizing dc front with
  | nil =>
    rw [List.append_nil]
    exact ⟨dc, rfl, added⟩
  | cons v rest ih =>
    have inside : front.length < nVotes := by
      rw [List.length_append, List.length_cons] at room
      omega
    have counted : Added { dc with nextVoteNum := dc.nextVoteNum + 1 } nVotes nAuthorities
        (front ++ [v]).length (contentOf front) :=
      { added with next := by rw [added.next, List.length_append, List.length_singleton] }
    have none : contentOf front front.length = [] := by simp [contentOf]
    obtain ⟨dc1, first, added1⟩ := addEntries_added front.length inside v.routerstatusList _ _ counted
      (by rw [none]; exact sorted_distinct v)
    rw [← contentOf_concat] at added1
    have one : dircollatorAddVote dc v = some dc1 := by
      rw [dircollatorAddVote, if_pos ⟨by rw [added.next, added.columns]; exact inside, added.running⟩,
        added.next]
      rw [added.next] at first
      exact first
    have split : front ++ v :: rest = (front ++ [v]) ++ rest := by simp
    obtain ⟨dc2, others, added2⟩ := ih (front ++ [v]) dc1 (by rwa [← split]) added1
    refine ⟨dc2, ?_, ?_⟩
    · rw [List.foldlM_cons, one]
      exact others
    · rw [split]
      exact added2

/-- The tables of a collator that holds these votes. -/
theorem added_tables (added : Added dc votes.length nAuthorities nextVoteNum (contentOf votes)) :
    (∀ id, get dc.byRsaSha1 id
      = if ∃ v ∈ votes, (rsaEntry id v).isSome then some (votes.map (rsaEntry id)) else none)
    ∧ ∀ pair, get dc.byBothIds pair
      = if ∃ v ∈ votes, (pairEntry pair v).isSome then some (votes.map (pairEntry pair)) else none := by
  have found : ∀ (p : VoteRouterstatus σ → Bool) i, (contentOf votes i).find? p
      = votes[i]?.bind fun v => v.routerstatusList.find? p := by
    intro p i
    rw [contentOf]
    cases votes[i]? <;> rfl
  constructor
  · apply get_of_cells added.rsaFilled
    intro id i
    rw [added.rsaCells, found]
    rfl
  · apply get_of_cells added.bothFilled
    intro pair i
    rw [added.bothCells, found]
    rfl

/-! ## The pairs of identities that are taken -/

instance (votes : List (Vote σ)) (nAuthorities : Nat) (pair : Bytes 20 × Bytes 32) :
    Decidable (MajorityPair votes nAuthorities pair) := inferInstanceAs (Decidable (_ < _))

instance (votes : List (Vote σ)) (nAuthorities : Nat) (id : Bytes 20) :
    Decidable (MajorityRsa votes nAuthorities id) := inferInstanceAs (Decidable (_ < _))

theorem countVotes_map (votes : List (Vote σ)) (f : Vote σ → Option (VoteRouterstatus σ)) :
    countVotes (votes.map f) = votes.countP fun v => (f v).isSome := by
  rw [countVotes, List.countP_map]
  rfl

theorem includeRsaOnly_map (votes : List (Vote σ)) (pair : Bytes 20 × Bytes 32) :
    includeRsaOnly (votes.map (pairEntry pair)) (votes.map (rsaEntry pair.1))
      = votes.map (pairColumn pair) := by
  rw [includeRsaOnly, List.zipWith_map, List.zipWith_self]
  rfl

/-- What the loop over the pairs has done after it took these pairs. -/
structure PairsTaken (votes : List (Vote σ)) (s : Collation σ) (pairs : List (Bytes 20 × Bytes 32)) :
    Prop where
  listed : s.allRsaSha1Lst = pairs.map Prod.fst
  columns : ∀ pair ∈ pairs, get s.rsaDigests pair.1 = some (votes.map (pairColumn pair))
  others : ∀ id, id ∉ pairs.map Prod.fst → get s.rsaDigests id = none
  reflects : ∀ i id, s.reflects i id = true ↔ ∃ pair ∈ pairs, pair.1 = id
    ∧ ∃ v, votes[i]? = some v ∧ (pairEntry pair v).isSome

/-- The collator holds the entries that these votes have for an RSA identity. -/
def HoldsRsa (votes : List (Vote σ)) (dc : Dircollator σ) : Prop :=
  ∀ id, get dc.byRsaSha1 id
    = if ∃ v ∈ votes, (rsaEntry id v).isSome then some (votes.map (rsaEntry id)) else none

/-- An entry of the table of pairs. -/
def PairOf (votes : List (Vote σ)) (ent : (Bytes 20 × Bytes 32) × VrsLst σ) : Prop :=
  ent.2 = votes.map (pairEntry ent.1)

theorem collatePair_minority (s : Collation σ) (entry : PairOf votes ent)
    (minority : ¬ MajorityPair votes dc.nAuthorities ent.1) : collatePair dc s ent = some s := by
  have few : countVotes ent.2 ≤ dc.nAuthorities / 2 := by
    rw [entry, countVotes_map]
    unfold MajorityPair at minority
    omega
  exact if_pos few

section

variable (holds : HoldsRsa votes dc)

include holds

theorem collatePair_majority {s : Collation σ} {pairs : List (Bytes 20 × Bytes 32)}
    (taken : PairsTaken votes s pairs) (entry : PairOf votes ent)
    (majority : MajorityPair votes dc.nAuthorities ent.1) (fresh : ent.1.1 ∉ pairs.map Prod.fst) :
    ∃ s', collatePair dc s ent = some s' ∧ PairsTaken votes s' (pairs ++ [ent.1]) := by
  have many : ¬ countVotes ent.2 ≤ dc.nAuthorities / 2 := by
    rw [entry, countVotes_map]
    unfold MajorityPair at majority
    omega
  have occurs : ∃ v ∈ votes, (rsaEntry ent.1.1 v).isSome := by
    have positive : 0 < votes.countP fun v => (pairEntry ent.1 v).isSome := by
      unfold MajorityPair at majority
      omega
    obtain ⟨v, member, listed⟩ := List.countP_pos_iff.mp positive
    exact ⟨v, member, pairEntry_rsaEntry listed⟩
  have array : get dc.byRsaSha1 ent.1.1 = some (votes.map (rsaEntry ent.1.1)) := by
    rw [holds, if_pos occurs]
  unfold collatePair
  simp only [if_neg many, array]
  refine ⟨_, rfl, ?_, ?_, ?_, ?_⟩
  · simp [taken.listed]
  · intro pair member
    simp only [get_set]
    rw [List.mem_append, List.mem_singleton] at member
    cases member with
    | inl old =>
      rw [if_neg, taken.columns pair old]
      intro same
      exact fresh (List.mem_map.mpr ⟨pair, old, same⟩)
    | inr new =>
      rw [new, if_pos rfl, entry, includeRsaOnly_map]
  · intro id absent
    rw [List.map_append, List.mem_append, not_or] at absent
    simp only [get_set]
    rw [if_neg (by simpa using absent.2), taken.others id absent.1]
  · intro i id
    have cell : (ent.2[i]?.join).isSome = true
        ↔ ∃ v, votes[i]? = some v ∧ (pairEntry ent.1 v).isSome := by
      rw [entry, List.getElem?_map]
      cases votes[i]? <;> simp
    simp only
    split
    next here =>
      refine iff_of_true rfl ⟨ent.1, by simp, here.1.symm, cell.mp here.2⟩
    next elsewhere =>
      rw [taken.reflects]
      constructor
      · rintro ⟨pair, member, rest⟩
        exact ⟨pair, List.mem_append_left _ member, rest⟩
      · rintro ⟨pair, member, key, rest⟩
        rw [List.mem_append, List.mem_singleton] at member
        cases member with
        | inl old => exact ⟨pair, old, key, rest⟩
        | inr new =>
          rw [new] at key rest
          exact absurd ⟨key.symm, cell.mpr rest⟩ elsewhere

theorem collatePairs_taken (room : votes.length ≤ dc.nAuthorities)
    (ents : List ((Bytes 20 × Bytes 32) × VrsLst σ)) (entries : ∀ ent ∈ ents, PairOf votes ent)
    (s : Collation σ) (pairs : List (Bytes 20 × Bytes 32)) (taken : PairsTaken votes s pairs)
    (majority : ∀ pair ∈ pairs, MajorityPair votes dc.nAuthorities pair)
    (distinct : (pairs ++ ents.map Prod.fst).Nodup) :
    ∃ s', ents.foldlM (collatePair dc) s = some s'
      ∧ PairsTaken votes s'
        (pairs ++ (ents.map Prod.fst).filter (MajorityPair votes dc.nAuthorities ·)) := by
  induction ents generalizing s pairs with
  | nil =>
    refine ⟨s, rfl, ?_⟩
    simpa using taken
  | cons ent ents ih =>
    have entry := entries ent List.mem_cons_self
    have later : ∀ ent ∈ ents, PairOf votes ent :=
      fun other member => entries other (List.mem_cons_of_mem ent member)
    rw [List.map_cons] at distinct
    rw [List.foldlM_cons, List.map_cons, List.filter_cons]
    by_cases wins : MajorityPair votes dc.nAuthorities ent.1
    · have fresh : ent.1.1 ∉ pairs.map Prod.fst := by
        intro member
        obtain ⟨pair, inside, same⟩ := List.mem_map.mp member
        have key : pair = ent.1 := by
          apply Prod.ext same
          apply majorityPair_unique room (majority pair inside)
          rw [same]
          exact wins
        rw [key] at inside
        exact (List.nodup_append.mp distinct).2.2 _ inside _ List.mem_cons_self rfl
      obtain ⟨s1, first, taken1⟩ := collatePair_majority holds taken entry wins fresh
      obtain ⟨s2, rest, taken2⟩ := ih later s1 (pairs ++ [ent.1]) taken1
        (by
          intro pair member
          rw [List.mem_append, List.mem_singleton] at member
          cases member with
          | inl old => exact majority pair old
          | inr new => rwa [new])
        (by simpa using distinct)
      refine ⟨s2, ?_, ?_⟩
      · rw [first]
        exact rest
      · rw [if_pos (decide_eq_true wins)]
        rwa [List.append_assoc, List.singleton_append] at taken2
    · obtain ⟨s2, rest, taken2⟩ := ih later s pairs taken majority
        (distinct.sublist (List.Sublist.append_left (List.sublist_cons_self _ _) _))
      refine ⟨s2, ?_, ?_⟩
      · rw [collatePair_minority s entry wins]
        exact rest
      · rwa [if_neg (by simpa using wins)]

end

/-! ## The RSA identities that are taken -/

/-- What the loop over the RSA identities has done after it took these. -/
structure RsaTaken (votes : List (Vote σ)) (s1 s : Collation σ) (ids : List (Bytes 20)) : Prop where
  listed : s.allRsaSha1Lst = s1.allRsaSha1Lst ++ ids
  columns : ∀ id ∈ ids, get s.rsaDigests id = some (votes.map (rsaEntry id))
  others : ∀ id, id ∉ ids → get s.rsaDigests id = get s1.rsaDigests id
  reflects : s.reflects = s1.reflects

/-- An RSA identity that the second loop takes. -/
def TakenAlone (votes : List (Vote σ)) (nAuthorities : Nat) (s1 : Collation σ) (id : Bytes 20) :
    Prop :=
  MajorityRsa votes nAuthorities id ∧ get s1.rsaDigests id = none

theorem collateRsa_step (dc : Dircollator σ) {s1 s : Collation σ}
    (taken : RsaTaken votes s1 s ids) {ent : Bytes 20 × VrsLst σ}
    (entry : ent.2 = votes.map (rsaEntry ent.1)) (fresh : ent.1 ∉ ids) :
    (TakenAlone votes dc.nAuthorities s1 ent.1 →
        RsaTaken votes s1 (collateRsa dc s ent) (ids ++ [ent.1]))
      ∧ (¬ TakenAlone votes dc.nAuthorities s1 ent.1 → collateRsa dc s ent = s) := by
  have count : countVotes ent.2 ≤ dc.nAuthorities / 2
      ↔ ¬ MajorityRsa votes dc.nAuthorities ent.1 := by
    rw [entry, countVotes_map, MajorityRsa]
    omega
  have before : (get s.rsaDigests ent.1).isSome
      ↔ ¬ get s1.rsaDigests ent.1 = none := by
    rw [taken.others ent.1 fresh, Option.isSome_iff_ne_none]
  unfold collateRsa TakenAlone
  constructor
  · rintro ⟨majority, absent⟩
    rw [if_neg fun some => before.mp some absent, if_neg fun few => count.mp few majority]
    refine ⟨?_, ?_, ?_, taken.reflects⟩
    · simp [taken.listed]
    · intro id member
      simp only [get_set]
      rw [List.mem_append, List.mem_singleton] at member
      cases member with
      | inl old =>
        rw [if_neg, taken.columns id old]
        intro same
        rw [same] at old
        exact fresh old
      | inr new => rw [new, if_pos rfl, entry]
    · intro id outside
      rw [List.mem_append, List.mem_singleton, not_or] at outside
      simp only [get_set]
      rw [if_neg outside.2, taken.others id outside.1]
  · intro notAlone
    by_cases absent : get s1.rsaDigests ent.1 = none
    · rw [if_neg fun some => before.mp some absent,
        if_pos (count.mpr fun majority => notAlone ⟨majority, absent⟩)]
    · rw [if_pos (before.mpr absent)]

instance (votes : List (Vote σ)) (nAuthorities : Nat) (s1 : Collation σ) (id : Bytes 20) :
    Decidable (TakenAlone votes nAuthorities s1 id) :=
  decidable_of_iff (MajorityRsa votes nAuthorities id ∧ (get s1.rsaDigests id).isNone)
    (by rw [TakenAlone, Option.isNone_iff_eq_none])

theorem collateRsas_taken (dc : Dircollator σ) (s1 : Collation σ)
    (ents : List (Bytes 20 × VrsLst σ))
    (entries : ∀ ent ∈ ents, ent.2 = votes.map (rsaEntry ent.1)) (s : Collation σ)
    (ids : List (Bytes 20)) (taken : RsaTaken votes s1 s ids)
    (distinct : (ids ++ ents.map Prod.fst).Nodup) :
    RsaTaken votes s1 (ents.foldl (collateRsa dc) s)
      (ids ++ (ents.map Prod.fst).filter (TakenAlone votes dc.nAuthorities s1 ·)) := by
  induction ents generalizing s ids with
  | nil => simpa using taken
  | cons ent ents ih =>
    have later : ∀ other ∈ ents, other.2 = votes.map (rsaEntry other.1) :=
      fun other member => entries other (List.mem_cons_of_mem ent member)
    rw [List.map_cons] at distinct
    have fresh : ent.1 ∉ ids :=
      fun inside => (List.nodup_append.mp distinct).2.2 _ inside _ List.mem_cons_self rfl
    have step := collateRsa_step dc taken (entries ent List.mem_cons_self) fresh
    rw [List.foldl_cons, List.map_cons, List.filter_cons]
    by_cases alone : TakenAlone votes dc.nAuthorities s1 ent.1
    · rw [if_pos (decide_eq_true alone)]
      have rest := ih later _ _ (step.1 alone) (by simpa using distinct)
      rwa [List.append_assoc, List.singleton_append] at rest
    · rw [if_neg (by simpa using alone), step.2 alone]
      exact ih later s ids taken
        (distinct.sublist (List.Sublist.append_left (List.sublist_cons_self _ _) _))

/-! ## The result -/

/-- The identities that the votes agree on, in order, and what the collator holds for them. -/
structure Collated (votes : List (Vote σ)) (nAuthorities : Nat) (dc : Dircollator σ) : Prop where
  collated : dc.isCollated = true
  increasing : dc.allRsaSha1Lst.Pairwise fun id1 id2 => compareDigests id1 id2 = .lt
  listed : ∀ id, id ∈ dc.allRsaSha1Lst
    ↔ (∃ ed, MajorityPair votes nAuthorities (id, ed)) ∨ MajorityRsa votes nAuthorities id
  byPair : ∀ id ed, MajorityPair votes nAuthorities (id, ed) →
    get dc.byCollatedRsaSha1 id = some (votes.map (pairColumn (id, ed)))
  byRsa : ∀ id, (∀ ed, ¬ MajorityPair votes nAuthorities (id, ed)) →
    MajorityRsa votes nAuthorities id →
      get dc.byCollatedRsaSha1 id = some (votes.map (rsaEntry id))
  /-- The flag is on the entries that list a pair with a majority. -/
  reflects : ∀ i id, dc.ed25519ReflectsConsensus i id = true
    ↔ ∃ ed, MajorityPair votes nAuthorities (id, ed)
      ∧ ∃ v, votes[i]? = some v ∧ (pairEntry (id, ed) v).isSome

theorem sorted_increasing (qsort : Sorter compareDigests) (distinct : ids.Nodup) :
    (qsort.sort ids).Pairwise fun id1 id2 => compareDigests id1 id2 = .lt := by
  have different : (qsort.sort ids).Nodup := (qsort.perm ids).nodup_iff.mpr distinct
  apply (different.and (qsort.ordered ids)).imp
  rintro id1 id2 ⟨differ, le⟩
  cases order : compareDigests id1 id2 with
  | lt => rfl
  | eq => exact absurd (compareDigests_eq order) differ
  | gt =>
    rw [order] at le
    cases le

end

/-- The pairs that the first loop takes, in the order in which it takes them. -/
theorem collatePairs_spec (dc : Dircollator σ) (room : votes.length ≤ dc.nAuthorities)
    (added : Added dc votes.length dc.nAuthorities nextVoteNum (contentOf votes))
    (order : HashOrder ((Bytes 20 × Bytes 32) × VrsLst σ)) :
    ∃ s pairs, (order.visit dc.byBothIds).foldlM (collatePair dc)
        ⟨[], [], dc.ed25519ReflectsConsensus⟩ = some s
      ∧ PairsTaken votes s pairs ∧ pairs.Nodup
      ∧ ∀ pair, pair ∈ pairs ↔ MajorityPair votes dc.nAuthorities pair := by
  obtain ⟨holds, pairTable⟩ := added_tables added
  have members := mem_of_get_eq added.bothFilled.distinct pairTable
  have perm := order.perm dc.byBothIds
  have entries : ∀ ent ∈ order.visit dc.byBothIds, PairOf votes ent :=
    fun ent member => ((members ent.1 ent.2).mp (perm.mem_iff.mp member)).2
  have distinct : ((order.visit dc.byBothIds).map Prod.fst).Nodup :=
    (perm.map Prod.fst).nodup_iff.mpr added.bothFilled.distinct
  have start : PairsTaken votes ⟨[], [], dc.ed25519ReflectsConsensus⟩ [] := by
    refine ⟨rfl, ?_, fun _ _ => rfl, ?_⟩
    · intro pair member
      cases member
    · intro i id
      simp [added.unset]
  obtain ⟨s, run, taken⟩ := collatePairs_taken holds room _ entries _ [] start
    (fun pair member => by cases member) distinct
  refine ⟨s, _, run, taken, ?_, ?_⟩
  · rw [List.nil_append]
    exact distinct.filter _
  · intro pair
    rw [List.nil_append, List.mem_filter, decide_eq_true_eq]
    constructor
    · exact And.right
    · intro majority
      refine ⟨?_, majority⟩
      have positive : 0 < votes.countP fun v => (pairEntry pair v).isSome := by
        unfold MajorityPair at majority
        omega
      have occurs := List.countP_pos_iff.mp positive
      exact List.mem_map.mpr
        ⟨(pair, votes.map (pairEntry pair)), perm.mem_iff.mpr ((members _ _).mpr ⟨occurs, rfl⟩), rfl⟩

/-- The RSA identities that the second loop takes. -/
theorem collateRsas_spec (dc : Dircollator σ)
    (added : Added dc votes.length dc.nAuthorities nextVoteNum (contentOf votes))
    (order : HashOrder (Bytes 20 × VrsLst σ)) (s : Collation σ) :
    ∃ ids, RsaTaken votes s ((order.visit dc.byRsaSha1).foldl (collateRsa dc) s) ids ∧ ids.Nodup
      ∧ ∀ id, id ∈ ids ↔ TakenAlone votes dc.nAuthorities s id := by
  have members := mem_of_get_eq added.rsaFilled.distinct (added_tables added).1
  have perm := order.perm dc.byRsaSha1
  have entries : ∀ ent ∈ order.visit dc.byRsaSha1, ent.2 = votes.map (rsaEntry ent.1) :=
    fun ent member => ((members ent.1 ent.2).mp (perm.mem_iff.mp member)).2
  have distinct : ((order.visit dc.byRsaSha1).map Prod.fst).Nodup :=
    (perm.map Prod.fst).nodup_iff.mpr added.rsaFilled.distinct
  have start : RsaTaken votes s s [] :=
    ⟨(List.append_nil _).symm, fun id member => (List.not_mem_nil member).elim, fun _ _ => rfl, rfl⟩
  refine ⟨_, collateRsas_taken dc s _ entries s [] start distinct, ?_, ?_⟩
  · rw [List.nil_append]
    exact distinct.filter _
  · intro id
    rw [List.nil_append, List.mem_filter, decide_eq_true_eq]
    constructor
    · exact And.right
    · intro alone
      refine ⟨?_, alone⟩
      have positive : 0 < votes.countP fun v => (rsaEntry id v).isSome := by
        have majority := alone.1
        unfold MajorityRsa at majority
        omega
      have occurs := List.countP_pos_iff.mp positive
      exact List.mem_map.mpr
        ⟨(id, votes.map (rsaEntry id)), perm.mem_iff.mpr ((members _ _).mpr ⟨occurs, rfl⟩), rfl⟩

theorem dircollatorCollate_collated (room : votes.length ≤ dc.nAuthorities)
    (added : Added dc votes.length dc.nAuthorities nextVoteNum (contentOf votes))
    (orders : HashOrders σ) (qsort : Sorter compareDigests) :
    ∃ dc', dircollatorCollate orders qsort dc = some dc' ∧ Collated votes dc.nAuthorities dc' := by
  have emptied : Added { dc with allRsaSha1Lst := [] } votes.length dc.nAuthorities nextVoteNum
      (contentOf votes) := { added with }
  obtain ⟨s, pairs, run, taken, distinctPairs, isPair⟩ :=
    collatePairs_spec { dc with allRsaSha1Lst := [] } room emptied orders.both
  obtain ⟨ids, alone, distinctIds, isAlone⟩ := collateRsas_spec { dc with allRsaSha1Lst := [] } emptied orders.rsa s
  have pairId : ∀ id, id ∈ pairs.map Prod.fst
      ↔ ∃ ed, MajorityPair votes dc.nAuthorities (id, ed) := by
    intro id
    simp [← isPair]
  have aloneId : ∀ id, id ∈ ids ↔ MajorityRsa votes dc.nAuthorities id ∧ id ∉ pairs.map Prod.fst := by
    intro id
    rw [isAlone, TakenAlone]
    constructor
    · rintro ⟨majority, absent⟩
      refine ⟨majority, fun inside => ?_⟩
      obtain ⟨pair, member, same⟩ := List.mem_map.mp inside
      rw [← same, taken.columns pair member] at absent
      cases absent
    · exact fun both => ⟨both.1, taken.others id both.2⟩
  generalize final : (orders.rsa.visit dc.byRsaSha1).foldl
    (collateRsa { dc with allRsaSha1Lst := [] }) s = after at alone
  have all : after.allRsaSha1Lst = pairs.map Prod.fst ++ ids := by
    rw [alone.listed, taken.listed]
  have distinct : (pairs.map Prod.fst ++ ids).Nodup := by
    rw [List.nodup_append]
    refine ⟨?_, distinctIds, ?_⟩
    · apply List.Nodup.map_on _ distinctPairs
      intro pair first other second same
      apply Prod.ext same
      apply majorityPair_unique room ((isPair pair).mp first)
      rw [same]
      exact (isPair other).mp second
    · intro id first other second same
      rw [same] at first
      exact ((aloneId other).mp second).2 first
  have collated : dircollatorCollate orders qsort dc = some
      { dc with
        byCollatedRsaSha1 := after.rsaDigests
        allRsaSha1Lst := qsort.sort after.allRsaSha1Lst
        ed25519ReflectsConsensus := after.reflects
        isCollated := true } := by
    unfold dircollatorCollate dircollatorCollateByEd25519
    rw [if_neg (by rw [added.running]; exact Bool.false_ne_true), run, Option.map_some,
      Option.map_some, final]
  refine ⟨_, collated, rfl, ?_, ?_, ?_, ?_, ?_⟩
  · simp only [all]
    exact sorted_increasing qsort distinct
  · intro id
    simp only [all]
    rw [(qsort.perm _).mem_iff, List.mem_append, pairId, aloneId, pairId]
    tauto
  · intro id ed majority
    have notAlone : id ∉ ids := fun inside => ((aloneId id).mp inside).2 ((pairId id).mpr ⟨ed, majority⟩)
    simp only
    rw [alone.others id notAlone]
    exact taken.columns (id, ed) ((isPair _).mpr majority)
  · intro id noPair majority
    apply alone.columns
    rw [aloneId, pairId]
    exact ⟨majority, fun pair => noPair pair.choose pair.choose_spec⟩
  · intro i id
    simp only [alone.reflects]
    rw [taken.reflects]
    constructor
    · rintro ⟨⟨id', ed⟩, member, same, listed⟩
      cases same
      exact ⟨ed, (isPair _).mp member, listed⟩
    · rintro ⟨ed, majority, listed⟩
      exact ⟨(id, ed), (isPair _).mpr majority, rfl, listed⟩

theorem collateVotes_collated (room : votes.length ≤ nAuthorities) (orders : HashOrders σ)
    (qsort : Sorter compareDigests) :
    ∃ dc, collateVotes orders qsort nAuthorities votes = some dc ∧ Collated votes nAuthorities dc := by
  have fresh : Added
      (⟨false, votes.length, nAuthorities, 0, [], [], [], [], fun _ _ => false⟩ : Dircollator σ)
      votes.length nAuthorities ([] : List (Vote σ)).length (contentOf []) :=
    ⟨rfl, rfl, rfl, rfl, fun _ _ => rfl, filled_nil _, filled_nil _,
      fun _ _ => rfl, fun _ _ => rfl⟩
  obtain ⟨dc, run, added⟩ := addVotes_added votes [] _ (le_of_eq rfl) fresh
  obtain rfl := added.authorities
  obtain ⟨dc', collate, collated⟩ := dircollatorCollate_collated room added orders qsort
  refine ⟨dc', ?_, collated⟩
  rw [collateVotes, dircollatorNew, if_pos room, Option.bind_some, run, Option.bind_some, collate]

section

variable (perm : votes'.Perm votes)

include perm

theorem majorityPair_perm (nAuthorities : Nat) (pair : Bytes 20 × Bytes 32) :
    MajorityPair votes' nAuthorities pair ↔ MajorityPair votes nAuthorities pair := by
  rw [MajorityPair, MajorityPair, perm.countP_eq]

theorem majorityRsa_perm (nAuthorities : Nat) (id : Bytes 20) :
    MajorityRsa votes' nAuthorities id ↔ MajorityRsa votes nAuthorities id := by
  rw [MajorityRsa, MajorityRsa, perm.countP_eq]

end

/-- Two runs of the collator list the same identities, and for each of them the same entries
and flags, vote by vote. -/
def SameByVote (votes votes' : List (Vote σ)) (dc dc' : Dircollator σ) : Prop :=
  dc'.allRsaSha1Lst = dc.allRsaSha1Lst
    ∧ ∀ idx id, dc.allRsaSha1Lst[idx]? = some id →
      ∃ column : Vote σ → Option (VoteRouterstatus σ), ∃ flag : Vote σ → Bool,
        dircollatorGetVotesForRouter dc idx = some (votes.map column)
          ∧ dircollatorGetVotesForRouter dc' idx = some (votes'.map column)
          ∧ (∀ i v, votes[i]? = some v → dc.ed25519ReflectsConsensus i id = flag v)
          ∧ ∀ i v, votes'[i]? = some v → dc'.ed25519ReflectsConsensus i id = flag v

/-- For an identity taken with an Ed25519 identity, the cell of a vote that lists another one
is empty. -/
def OnePairUsed (votes : List (Vote σ)) (nAuthorities : Nat) (dc : Dircollator σ) : Prop :=
  ∀ idx id ed, dc.allRsaSha1Lst[idx]? = some id → MajorityPair votes nAuthorities (id, ed) →
    ∃ vrsLst, dircollatorGetVotesForRouter dc idx = some vrsLst ∧ vrsLst.length = votes.length
      ∧ ∀ (i : Nat) v rs, votes[i]? = some v → rsaEntry id v = some rs → rs.hasEd25519Listing = true →
        rs.ed25519Id ≠ ed → vrsLst[i]? = some none

theorem getVotes_of_get (collated : dc.isCollated = true) {idx : Nat}
    (listed : dc.allRsaSha1Lst[idx]? = some id) :
    dircollatorGetVotesForRouter dc idx = get dc.byCollatedRsaSha1 id := by
  rw [dircollatorGetVotesForRouter, if_pos collated, listed, Option.bind_some]

section

variable (collated : Collated votes nAuthorities dc)

include collated

theorem Collated.onePairUsed : OnePairUsed votes nAuthorities dc := by
  intro idx id ed listed majority
  refine ⟨votes.map (pairColumn (id, ed)), ?_, List.length_map _, ?_⟩
  · rw [getVotes_of_get collated.collated listed, collated.byPair id ed majority]
  · intro i v rs at_i entry listing other
    have noPair : pairEntry (id, ed) v = none := by
      cases found : pairEntry (id, ed) v with
      | none => rfl
      | some rs' =>
        obtain ⟨member, key, _, sameEd⟩ := pairEntry_eq_some found
        have entryKey := List.find?_some entry
        rw [decide_eq_true_eq] at entryKey
        have same := entry_unique v member (List.mem_of_find?_eq_some entry)
          (key.trans entryKey.symm)
        rw [same] at sameEd
        exact absurd sameEd other
    rw [List.getElem?_map, at_i, Option.map_some, pairColumn, noPair, entry]
    simp [listing]

theorem Collated.column (member : id ∈ dc.allRsaSha1Lst) :
    (∃ ed, MajorityPair votes nAuthorities (id, ed))
      ∨ (∀ ed, ¬ MajorityPair votes nAuthorities (id, ed)) ∧ MajorityRsa votes nAuthorities id := by
  have rule := (collated.listed id).mp member
  by_cases pair : ∃ ed, MajorityPair votes nAuthorities (id, ed)
  · exact Or.inl pair
  · have alone := rule.resolve_left pair
    rw [not_exists] at pair
    exact Or.inr ⟨pair, alone⟩

theorem Collated.flag (room : votes.length ≤ nAuthorities) {ed : Bytes 32}
    (majority : MajorityPair votes nAuthorities (id, ed)) {i : Nat} (at_i : votes[i]? = some v) :
    dc.ed25519ReflectsConsensus i id = (pairEntry (id, ed) v).isSome := by
  rw [Bool.eq_iff_iff, collated.reflects]
  constructor
  · rintro ⟨ed', majority', v', same, listed⟩
    rw [majorityPair_unique room majority majority']
    rw [at_i, Option.some.injEq] at same
    rwa [same]
  · exact fun listed => ⟨ed, majority, v, at_i, listed⟩

theorem Collated.noFlag (noPair : ∀ ed, ¬ MajorityPair votes nAuthorities (id, ed)) (i : Nat) :
    dc.ed25519ReflectsConsensus i id = false := by
  rw [Bool.eq_false_iff, Ne, collated.reflects]
  rintro ⟨ed, majority, _⟩
  exact noPair ed majority

end

theorem sameByVote_of_collated (room : votes.length ≤ nAuthorities) (perm : votes'.Perm votes)
    {dc dc' : Dircollator σ} (collated : Collated votes nAuthorities dc)
    (collated' : Collated votes' nAuthorities dc') : SameByVote votes votes' dc dc' := by
  have room' : votes'.length ≤ nAuthorities := perm.length_eq ▸ room
  have sameList : dc'.allRsaSha1Lst = dc.allRsaSha1Lst := by
    have different : ∀ {dc : Dircollator σ} {votes : List (Vote σ)},
        Collated votes nAuthorities dc → dc.allRsaSha1Lst.Nodup := by
      intro dc votes collated
      apply collated.increasing.imp
      rintro id1 id2 less rfl
      exact compareDigests_irrefl id1 less
    have members : dc'.allRsaSha1Lst.Perm dc.allRsaSha1Lst := by
      apply (List.perm_ext_iff_of_nodup (different collated') (different collated)).mpr
      intro id
      rw [collated'.listed, collated.listed]
      simp only [majorityPair_perm perm, majorityRsa_perm perm]
    apply members.eq_of_pairwise _ collated'.increasing collated.increasing
    intro id1 id2 _ _ less greater
    exact absurd (TransCmp.lt_trans less greater) (compareDigests_irrefl id1)
  refine ⟨sameList, ?_⟩
  intro idx id listed
  have listed' : dc'.allRsaSha1Lst[idx]? = some id := by rwa [sameList]
  rw [getVotes_of_get collated.collated listed, getVotes_of_get collated'.collated listed']
  cases collated.column (List.mem_of_getElem? listed) with
  | inl pair =>
    obtain ⟨ed, majority⟩ := pair
    have majority' := (majorityPair_perm perm nAuthorities (id, ed)).mpr majority
    exact ⟨pairColumn (id, ed), fun v => (pairEntry (id, ed) v).isSome,
      collated.byPair id ed majority, collated'.byPair id ed majority',
      fun i v => collated.flag room majority, fun i v => collated'.flag room' majority'⟩
  | inr alone =>
    obtain ⟨noPair, majority⟩ := alone
    have noPair' : ∀ ed, ¬ MajorityPair votes' nAuthorities (id, ed) :=
      fun ed => (majorityPair_perm perm nAuthorities (id, ed)).not.mpr (noPair ed)
    exact ⟨rsaEntry id, fun _ => false, collated.byRsa id noPair majority,
      collated'.byRsa id noPair' ((majorityRsa_perm perm nAuthorities id).mpr majority),
      fun i _ _ => collated.noFlag noPair i, fun i _ _ => collated'.noFlag noPair' i⟩

/-- The identities that a collator lists are unique, in order and those that the rule names;
what it holds for them is known from the votes alone. -/
theorem collateVotes_identities {votes votes' : List (Vote σ)} {nAuthorities : Nat}
    (room : votes.length ≤ nAuthorities) (perm : votes'.Perm votes)
    (orders orders' : HashOrders σ) (qsort qsort' : Sorter compareDigests) :
    ∃ dc dc', collateVotes orders qsort nAuthorities votes = some dc
      ∧ collateVotes orders' qsort' nAuthorities votes' = some dc'
      ∧ Collated votes nAuthorities dc ∧ OnePairUsed votes nAuthorities dc
      ∧ SameByVote votes votes' dc dc' := by
  obtain ⟨dc, run, collated⟩ := collateVotes_collated room orders qsort
  have room' : votes'.length ≤ nAuthorities := perm.length_eq ▸ room
  obtain ⟨dc', run', collated'⟩ := collateVotes_collated room' orders' qsort'
  exact ⟨dc, dc', run, run', collated, collated.onePairUsed,
    sameByVote_of_collated room perm collated collated'⟩

/-- An entry for the RSA identity that starts with `id`, with the Ed25519 identity that starts
with `ed`. -/
def namedEntry (id ed : UInt8) : VoteRouterstatus Unit := ⟨fit 20 [id], true, fit 32 [ed], ()⟩

/-- Two votes list identity 1 with the key 7, and one of these lists identity 2. -/
def agreeingVote : Vote Unit := ⟨[namedEntry 1 7, namedEntry 2 8], by decide⟩

/-- One vote lists identity 1 with the key 9. -/
def conflictingVote : Vote Unit := ⟨[namedEntry 1 9], by decide⟩

def visitInOrder : HashOrders Unit :=
  ⟨⟨fun l => l, fun l => List.Perm.refl l⟩, ⟨fun l => l, fun l => List.Perm.refl l⟩⟩

def visitBackwards : HashOrders Unit :=
  ⟨⟨List.reverse, List.reverse_perm⟩, ⟨List.reverse, List.reverse_perm⟩⟩

theorem collateVotes_identities_three :
    ∃ dc dc', collateVotes visitInOrder (insertionSorter compareDigests) 3
        [agreeingVote, conflictingVote, agreeingVote] = some dc
      ∧ collateVotes visitBackwards (insertionSorter compareDigests) 3
        [conflictingVote, agreeingVote, agreeingVote] = some dc'
      ∧ Collated [agreeingVote, conflictingVote, agreeingVote] 3 dc
      ∧ OnePairUsed [agreeingVote, conflictingVote, agreeingVote] 3 dc
      ∧ SameByVote [agreeingVote, conflictingVote, agreeingVote]
        [conflictingVote, agreeingVote, agreeingVote] dc dc' :=
  collateVotes_identities (by decide) (List.Perm.swap _ _ _) visitInOrder visitBackwards _ _

end RendezMix.Guarantees
