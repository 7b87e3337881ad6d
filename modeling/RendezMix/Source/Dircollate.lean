import RendezMix.Library.ByteStrings
import RendezMix.Library.KeyedLists
import RendezMix.Library.Sorting

/-!
# Collating the votes by identity

`feature/dirauth/dircollate.c`: the entries of the votes are put into one table by RSA
identity and one by RSA and Ed25519 identity, of which the identities with a majority
are taken. A function whose `tor_assert` fails is `none`. In what order a hash table is
visited is not known.
-/
namespace RendezMix.Source
open Library.ByteStrings Library.Sorting
open Library (KeyedMap.get KeyedMap.set KeyedMap.put)
open Std (TransCmp)

def compareDigests : Bytes 20 → Bytes 20 → Ordering := compareOn fun digest => digest.val

instance : TransCmp compareDigests :=
  inferInstanceAs (TransCmp (compareOn fun digest : Bytes 20 => digest.val))

/-- `vote_routerstatus_t`; what the collator does not read is the `claim`. -/
structure VoteRouterstatus (σ : Type*) where
  identityDigest : Bytes 20
  hasEd25519Listing : Bool
  ed25519Id : Bytes 32
  claim : σ

/-- The entries of a vote, which the parser takes only in the order of their identities. -/
structure Vote (σ : Type*) where
  routerstatusList : List (VoteRouterstatus σ)
  sorted : routerstatusList.Pairwise fun rs1 rs2 =>
    compareDigests rs1.identityDigest rs2.identityDigest = .lt

/-- An array with one cell for each vote. -/
abbrev VrsLst (σ : Type*) := List (Option (VoteRouterstatus σ))

structure Dircollator (σ : Type*) where
  isCollated : Bool
  nVotes : Nat
  nAuthorities : Nat
  nextVoteNum : Nat
  byRsaSha1 : List (Bytes 20 × VrsLst σ)
  byBothIds : List ((Bytes 20 × Bytes 32) × VrsLst σ)
  byCollatedRsaSha1 : List (Bytes 20 × VrsLst σ)
  allRsaSha1Lst : List (Bytes 20)
  /-- The flag of this name of the entry for an identity in a vote. -/
  ed25519ReflectsConsensus : Nat → Bytes 20 → Bool

variable {σ : Type*}

def dircollatorNew (nVotes nAuthorities : Nat) : Option (Dircollator σ) :=
  if nVotes ≤ nAuthorities then some ⟨false, nVotes, nAuthorities, 0, [], [], [], [], fun _ _ => false⟩
  else none

/-- Set the flag `ed25519_reflects_consensus` of one entry. -/
def setReflects (reflects : Nat → Bytes 20 → Bool) (voteNum : Nat) (id : Bytes 20) (flag : Bool) :
    Nat → Bytes 20 → Bool :=
  fun i k => if i = voteNum ∧ k = id then flag else reflects i k

def dircollatorAddRouterstatus (voteNum : Nat) (dc : Dircollator σ) (vrs : VoteRouterstatus σ) :
    Option (Dircollator σ) :=
  let id := vrs.identityDigest
  let reflects := setReflects dc.ed25519ReflectsConsensus voteNum id false
  match KeyedMap.put dc.nVotes dc.byRsaSha1 id voteNum vrs with
  | none => none
  | some byRsaSha1 =>
    let dc := { dc with ed25519ReflectsConsensus := reflects, byRsaSha1 := byRsaSha1 }
    if !vrs.hasEd25519Listing then some dc
    else
      match KeyedMap.put dc.nVotes dc.byBothIds (id, vrs.ed25519Id) voteNum vrs with
      | none => none
      | some byBothIds => some { dc with byBothIds := byBothIds }

def dircollatorAddVote (dc : Dircollator σ) (v : Vote σ) : Option (Dircollator σ) :=
  if dc.nextVoteNum < dc.nVotes ∧ dc.isCollated = false then
    v.routerstatusList.foldlM (dircollatorAddRouterstatus dc.nextVoteNum)
      { dc with nextVoteNum := dc.nextVoteNum + 1 }
  else none

/-- The order in which a hash table is visited. -/
structure HashOrder (α : Type*) where
  visit : List α → List α
  perm : ∀ l, (visit l).Perm l

/-- How many votes an array holds an entry of. -/
def countVotes (vrsLst : VrsLst σ) : Nat := vrsLst.countP Option.isSome

/-- The entries for a pair of identities, with those of the other votes that list the RSA
identity without saying anything about an Ed25519 one. -/
def includeRsaOnly (vrsLst vrsLst2 : VrsLst σ) : VrsLst σ :=
  List.zipWith (fun vrs vrs2 => vrs.or (vrs2.filter fun vrs2 => !vrs2.hasEd25519Listing))
    vrsLst vrsLst2

/-- The variables of `dircollator_collate_by_ed25519`. -/
structure Collation (σ : Type*) where
  rsaDigests : List (Bytes 20 × VrsLst σ)
  allRsaSha1Lst : List (Bytes 20)
  reflects : Nat → Bytes 20 → Bool

/-- One turn of the loop over the pairs of identities. -/
def collatePair (dc : Dircollator σ) (s : Collation σ) (ent : (Bytes 20 × Bytes 32) × VrsLst σ) :
    Option (Collation σ) :=
  let id := ent.1.1
  if countVotes ent.2 ≤ dc.nAuthorities / 2 then some s
  else
    match KeyedMap.get dc.byRsaSha1 id with
    | none => none
    | some vrsLst2 =>
      some
        { rsaDigests := KeyedMap.set s.rsaDigests id (includeRsaOnly ent.2 vrsLst2)
          allRsaSha1Lst := s.allRsaSha1Lst ++ [id]
          reflects := fun i k =>
            if k = id ∧ (ent.2[i]?.join).isSome = true then true else s.reflects i k }

/-- One turn of the loop over the RSA identities. -/
def collateRsa (dc : Dircollator σ) (s : Collation σ) (ent : Bytes 20 × VrsLst σ) : Collation σ :=
  if (KeyedMap.get s.rsaDigests ent.1).isSome then s
  else if countVotes ent.2 ≤ dc.nAuthorities / 2 then s
  else
    { s with
      rsaDigests := KeyedMap.set s.rsaDigests ent.1 ent.2
      allRsaSha1Lst := s.allRsaSha1Lst ++ [ent.1] }

/-- The orders in which the two tables are visited. -/
structure HashOrders (σ : Type*) where
  both : HashOrder ((Bytes 20 × Bytes 32) × VrsLst σ)
  rsa : HashOrder (Bytes 20 × VrsLst σ)

def dircollatorCollateByEd25519 (orders : HashOrders σ) (dc : Dircollator σ) :
    Option (Dircollator σ) :=
  ((orders.both.visit dc.byBothIds).foldlM (collatePair dc)
    ⟨[], dc.allRsaSha1Lst, dc.ed25519ReflectsConsensus⟩).map fun s =>
      let s := (orders.rsa.visit dc.byRsaSha1).foldl (collateRsa dc) s
      { dc with
        byCollatedRsaSha1 := s.rsaDigests
        allRsaSha1Lst := s.allRsaSha1Lst
        ed25519ReflectsConsensus := s.reflects }

def dircollatorCollate (orders : HashOrders σ) (qsort : Sorter compareDigests)
    (dc : Dircollator σ) : Option (Dircollator σ) :=
  if dc.isCollated then none
  else
    (dircollatorCollateByEd25519 orders { dc with allRsaSha1Lst := [] }).map fun dc =>
      { dc with allRsaSha1Lst := qsort.sort dc.allRsaSha1Lst, isCollated := true }

def dircollatorNRouters (dc : Dircollator σ) : Option Nat :=
  if dc.isCollated then some dc.allRsaSha1Lst.length else none

/-- `dircollator_get_votes_for_router`; an identity without an array is `none` as well. -/
def dircollatorGetVotesForRouter (dc : Dircollator σ) (idx : Nat) : Option (VrsLst σ) :=
  if dc.isCollated then dc.allRsaSha1Lst[idx]?.bind (KeyedMap.get dc.byCollatedRsaSha1) else none

/-- The use of a collator in `networkstatus_compute_consensus`. -/
def collateVotes (orders : HashOrders σ) (qsort : Sorter compareDigests) (totalAuthorities : Nat)
    (votes : List (Vote σ)) : Option (Dircollator σ) :=
  (dircollatorNew votes.length totalAuthorities).bind fun dc =>
    (votes.foldlM dircollatorAddVote dc).bind (dircollatorCollate orders qsort)

end RendezMix.Source
