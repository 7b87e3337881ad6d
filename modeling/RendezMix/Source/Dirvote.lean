import Mathlib
import RendezMix.Source.RouterStatus

/-!
# Computing a consensus

The medians, the parameters, the flag maps and the router entries of
`networkstatus_compute_consensus` in `feature/dirauth/dirvote.c`. A failed assertion is
`none`. The consensus method, the flavor and the cap on unmeasured bandwidths are given;
the text of the document is not part of the model.
-/
namespace RendezMix.Source
open Library.ByteStrings Library.Sorting
open Library (KeyedMap.get KeyedMap.set)
open Std (TransCmp)

inductive ConsensusFlavor
  | ns
  | microdesc
  deriving DecidableEq, Repr

def compareVotesByAuthorityId : NetworkVote → NetworkVote → Ordering :=
  fun a b => compareDigests a.voterIdentity b.voterIdentity

instance : TransCmp compareVotesByAuthorityId :=
  inferInstanceAs (TransCmp (compareOn fun v : NetworkVote => v.voterIdentity.val))

/-- What a consensus is computed with, besides the votes: the settings, the sorting functions
and the orders in which hash tables are visited. -/
structure ConsensusEnv where
  testingTorNetwork : Bool
  totalAuthorities : Nat
  consensusMethod : Nat
  flavor : ConsensusFlavor
  maxUnmeasuredBwKb : UInt32
  sortVersionList : List CString → List CString
  sortVotes : Sorter compareVotesByAuthorityId
  sortDigests : Sorter compareDigests
  sortVoteRs : Sorter compareVoteRs
  sortOrports : Sorter compareOrports
  orders : HashOrders RouterClaim

/-! ## Times -/

/-- The medians of the times and delays. -/
structure ConsensusTimes where
  validAfter : Int
  freshUntil : Int
  validUntil : Int
  voteSeconds : Int
  distSeconds : Int
  deriving DecidableEq

/-- The medians of the times and delays, with the assertions about them. -/
def computeTimes (testingTorNetwork : Bool) (votes : List NetworkVote) : Option ConsensusTimes := do
  let validAfter ← median (votes.map NetworkVote.validAfter)
  let freshUntil ← median (votes.map NetworkVote.freshUntil)
  let validUntil ← median (votes.map NetworkVote.validUntil)
  let voteSeconds ← median (votes.map NetworkVote.voteSeconds)
  let distSeconds ← median (votes.map NetworkVote.distSeconds)
  guard (validAfter + minVoteInterval testingTorNetwork ≤ freshUntil)
  guard (freshUntil + minVoteInterval testingTorNetwork ≤ validUntil)
  guard (voteSeconds ≥ minVoteSeconds)
  guard (distSeconds ≥ minDistSeconds)
  return ⟨validAfter, freshUntil, validUntil, voteSeconds, distSeconds⟩

/-! ## Flags -/

def flagNamed : CString := textBytes "Named"
def flagUnnamed : CString := textBytes "Unnamed"
def flagNoEdConsensus : CString := textBytes "NoEdConsensus"
def flagExit : CString := textBytes "Exit"
def flagGuard : CString := textBytes "Guard"
def flagRunning : CString := textBytes "Running"
def flagValid : CString := textBytes "Valid"
def flagBadExit : CString := textBytes "BadExit"
def flagMiddleOnly : CString := textBytes "MiddleOnly"
def flagV2Dir : CString := textBytes "V2Dir"
def flagHsDir : CString := textBytes "HSDir"

def smartlistUniqStrings : List CString → List CString
  | fst :: snd :: rest =>
    if strcmp fst snd = .eq then smartlistUniqStrings (fst :: rest)
    else fst :: smartlistUniqStrings (snd :: rest)
  | sl => sl

/-- The flags that any vote knows. -/
def consensusFlags (votes : List NetworkVote) : List CString :=
  smartlistUniqStrings
    (smartlistSortStrings (votes.flatMap NetworkVote.knownFlags ++ [flagNoEdConsensus]))

def smartlistStringPos (sl : List CString) (element : CString) : Option Nat :=
  sl.findIdx? fun other => other = element

/-- The entries of `flag_map`, `named_flag` and `unnamed_flag` for one vote. -/
structure VoterFlags where
  flagMap : List Nat
  namedFlag : Option Nat
  unnamedFlag : Option Nat

/-- The index that a flag has in the list; of several, the last one. -/
def lastIndex (knownFlags : List CString) (flag : CString) : Option Nat :=
  knownFlags.zipIdx.foldl (fun found fl => if fl.1 = flag then some fl.2 else found) none

/-- The flag indexes of one vote. -/
def voterFlags (flags : List CString) (v : NetworkVote) : Option VoterFlags :=
  (v.knownFlags.mapM (smartlistStringPos flags)).map fun flagMap =>
    ⟨flagMap, lastIndex v.knownFlags flagNamed, lastIndex v.knownFlags flagUnnamed⟩

/-- Count one more at an index. -/
def increment (counts : List Nat) (p : Nat) : List Nat := counts.modify p (· + 1)

def nFlagVoters (flags : List CString) (voters : List VoterFlags) : List Nat :=
  (voters.flatMap VoterFlags.flagMap).foldl increment (List.replicate flags.length 0)

/-- `(flags & (UINT64_C(1) << index)) != 0` -/
def hasFlag (flags : UInt64) (index : Nat) : Bool := flags.toNat.testBit index

/-! ## Names -/

/-- What a nickname is mapped to; `conflict` and `unknown` are arrays of their own. -/
inductive NameOwner
  | id (digest : Bytes 20)
  | conflict
  | unknown
  deriving DecidableEq

/-- The bytes that the map's pointer leads to. -/
def NameOwner.digest : NameOwner → Bytes 20
  | .id digest => digest
  | .conflict => fit 20 []
  | .unknown => fit 20 (List.replicate 20 255)

abbrev NameMap := List (CString × NameOwner)

def strmapGetLc (map : NameMap) (key : CString) : Option NameOwner :=
  KeyedMap.get map (torStrlower key)

def strmapSetLc (map : NameMap) (key : CString) (owner : NameOwner) : NameMap :=
  KeyedMap.set map (torStrlower key) owner

/-- An entry with the flag `Named`. -/
def nameNamed (map : NameMap) (rs : VoteRs) : NameMap :=
  match strmapGetLc map rs.claim.nickname with
  | none => strmapSetLc map rs.claim.nickname (.id rs.identityDigest)
  | some d =>
    if d ≠ .conflict ∧ d.digest ≠ rs.identityDigest then
      strmapSetLc map rs.claim.nickname .conflict
    else map

/-- An entry with the flag `Unnamed`. -/
def nameUnnamed (map : NameMap) (rs : VoteRs) : NameMap :=
  match strmapGetLc map rs.claim.nickname with
  | none => strmapSetLc map rs.claim.nickname .unknown
  | some d =>
    if d = .conflict ∨ d = .unknown then map
    else if d.digest = rs.identityDigest then strmapSetLc map rs.claim.nickname .conflict
    else map

/-- The entries of the votes that have the flag at the index the vote gives it. -/
def flaggedEntries (votes : List (NetworkVote × VoterFlags)) (index : VoterFlags → Option Nat) :
    List VoteRs :=
  votes.flatMap fun v =>
    match index v.2 with
    | none => []
    | some flag => v.1.routers.routerstatusList.filter fun rs => hasFlag rs.claim.flags flag

def nameToIdMap (votes : List (NetworkVote × VoterFlags)) : NameMap :=
  (flaggedEntries votes VoterFlags.unnamedFlag).foldl nameUnnamed
    ((flaggedEntries votes VoterFlags.namedFlag).foldl nameNamed [])

/-! ## The entries for one router -/

/-- The variables that are filled from the entries for a router. -/
structure RouterTally where
  nListing : Nat
  currentRsaId : Option (Bytes 20)
  matchingDescs : List VoteRs
  versions : List CString
  protocols : List CString
  flagCounts : List Nat
  chosenName : Option CString
  namingConflict : Bool
  measuredGuardfraction : List UInt32
  measuredBwsKb : List UInt32
  bandwidthsKb : List UInt32
  edConsensus : Nat
  edConsensusVal : Option (Bytes 32)

/-- An entry for a router: the flag indexes of its vote, its flag `ed25519_reflects_consensus`
and the entry itself. -/
structure RouterListing where
  voter : VoterFlags
  ed25519ReflectsConsensus : Bool
  rs : VoteRs

/-- Count the flags of an entry. -/
def countFlags (voter : VoterFlags) (rs : VoteRs) (flagCounts : List Nat) : List Nat :=
  voter.flagMap.zipIdx.foldl (fun counts flag =>
    if hasFlag rs.claim.flags flag.2 then increment counts flag.1 else counts) flagCounts

/-- Whether the vote gives the entry the flag `Named`. -/
def RouterListing.isNamed (listing : RouterListing) : Bool :=
  match listing.voter.namedFlag with
  | none => false
  | some flag => hasFlag listing.rs.claim.flags flag

/-- One turn of the loop over the entries for a router. -/
def RouterTally.entry (t : RouterTally) (listing : RouterListing) : Option RouterTally :=
  let rs := listing.rs
  let agrees := t.edConsensusVal.all fun value => value = rs.ed25519Id
  if listing.ed25519ReflectsConsensus && !agrees then none
  else some
    { nListing := t.nListing + 1
      currentRsaId := some rs.identityDigest
      matchingDescs := t.matchingDescs ++ [rs]
      versions := t.versions ++ (rs.claim.version.filter (· ≠ [])).toList
      protocols := t.protocols ++ rs.claim.protocols.toList
      flagCounts := countFlags listing.voter rs t.flagCounts
      chosenName := if listing.isNamed then some rs.claim.nickname else t.chosenName
      namingConflict := t.namingConflict
        || (listing.isNamed && t.chosenName.any fun name => name ≠ rs.claim.nickname)
      measuredGuardfraction :=
        t.measuredGuardfraction ++ rs.claim.guardfractionPercentage.toList
      measuredBwsKb := t.measuredBwsKb ++ rs.claim.measuredBwKb.toList
      bandwidthsKb := t.bandwidthsKb ++ rs.claim.bandwidthKb.toList
      edConsensus := if listing.ed25519ReflectsConsensus then t.edConsensus + 1 else t.edConsensus
      edConsensusVal :=
        if listing.ed25519ReflectsConsensus then some (t.edConsensusVal.getD rs.ed25519Id)
        else t.edConsensusVal }

/-- The variables before the loop. -/
def RouterTally.start (nFlags : Nat) : RouterTally :=
  ⟨0, none, [], [], [], List.replicate nFlags 0, none, false, [], [], [], 0, none⟩

/-! ## The flags of an entry -/

/-- Whether a flag that is not computed in a way of its own has enough votes. -/
def flagWins (flagCounts nFlagVoters : List Nat) (index : Nat) : Bool :=
  flagCounts.getD index 0 > nFlagVoters.getD index 0 / 2

/-- The flags that are chosen, in the order of the list. -/
def chooseFlags (flags : List CString) (flagCounts nFlagVoters : List Nat)
    (isNamed isUnnamed : Bool) (edConsensus totalAuthorities : Nat) : List CString :=
  (flags.zipIdx.filter fun fl =>
    if fl.1 = flagNamed then isNamed
    else if fl.1 = flagUnnamed then isUnnamed
    else if fl.1 = flagNoEdConsensus then edConsensus ≤ totalAuthorities / 2
    else flagWins flagCounts nFlagVoters fl.2).map Prod.fst

def removeFlag (sl : List CString) (flag : CString) : List CString := sl.erase flag

def minMethodForMiddleonly : Nat := 32
def minMethodToSuppressMdPublished : Nat := 33

/-- What a router with the flag `MiddleOnly` keeps of its flags. -/
def adjustMiddleOnly (consensusMethod : Nat) (badexitFlagIsListed : Bool) (chosen : List CString) :
    List CString :=
  if flagMiddleOnly ∈ chosen ∧ consensusMethod ≥ minMethodForMiddleonly then
    let kept := removeFlag (removeFlag (removeFlag (removeFlag chosen flagExit) flagV2Dir) flagGuard)
      flagHsDir
    if flagBadExit ∉ chosen ∧ badexitFlagIsListed then smartlistSortStrings (kept ++ [flagBadExit])
    else kept
  else chosen

/-- The flag `Guard` that the later steps use. -/
def isGuardAfter (consensusMethod : Nat) (chosen : List CString) : Bool :=
  flagGuard ∈ chosen ∧ ¬ (flagMiddleOnly ∈ chosen ∧ consensusMethod ≥ minMethodForMiddleonly)

/-! ## The entry of the consensus -/

/-- What the consensus says about a router. -/
structure RouterEntry where
  identityDigest : Bytes 20
  descriptorDigest : Bytes 20
  publishedOn : Int
  nickname : CString
  ipv4Addr : UInt32
  ipv4Orport : UInt16
  ipv4Dirport : UInt16
  altOrport : TorAddrPort
  microdescDigest : Bytes 32
  flags : List CString
  version : Option CString
  protocols : Option CString
  guardfractionPercentage : Option UInt32
  bandwidthKb : Option UInt32
  bwIsUnmeasured : Bool
  exitsummary : Option CString
  deriving DecidableEq

def getMostFrequentMember (lst : List CString) : Option CString := (smartlistGetMostFrequent strcmp lst).1

/-- `MAX_NICKNAME_LEN`, to which `strlcpy` cuts a nickname. -/
def maxNicknameLen : Nat := 19

/-- The exit policy summary: the one of the winning description, or else of all entries. -/
def chooseExitsummary (descriptorDigest : Bytes 20) (matchingDescs : List VoteRs) : Option CString :=
  let same := (matchingDescs.filter fun vsr =>
    vsr.claim.descriptorDigest = descriptorDigest).filterMap fun vsr => vsr.claim.exitsummary
  match same with
  | first :: rest =>
    if rest.any (· ≠ first) then getMostFrequentMember (smartlistSortStrings same) else some first
  | [] =>
    getMostFrequentMember
      (smartlistSortStrings (matchingDescs.filterMap fun vsr => vsr.claim.exitsummary))

/-- The guardfraction value of a guard that enough votes have one for. -/
def chooseGuardfraction (isGuard : Bool) (measured : List UInt32) : Option (Option UInt32) :=
  if isGuard ∧ measured.length > 2 then
    match median measured with
    | none => none
    | some percentage => if percentage ≤ 100 then some (some percentage) else none
  else some none

/-- The bandwidth, and whether it is not measured. -/
def chooseBandwidth (maxUnmeasuredBwKb : UInt32) (nMeasuring : Nat) (mbws bandwidths : List UInt32) :
    Option (Option UInt32 × Bool) :=
  if mbws.length > 2 then (median mbws).map fun bandwidth => (some bandwidth, false)
  else if bandwidths.length > 0 then
    (median bandwidths).map fun bandwidth =>
      (some (if nMeasuring > 2 ∧ bandwidth > maxUnmeasuredBwKb then maxUnmeasuredBwKb else bandwidth),
        true)
  else some (none, false)

/-- What the loop over the routers uses of all votes. -/
structure RouterContext where
  flags : List CString
  nFlagVoters : List Nat
  nameMap : NameMap
  nMeasuring : Nat

/-- The entry of a router with these listings: nothing where the consensus leaves it out. -/
def routerEntry (env : ConsensusEnv) (ctx : RouterContext) (listings : List RouterListing) :
    Option (Option RouterEntry) :=
  match listings.foldlM RouterTally.entry (RouterTally.start ctx.flags.length) with
  | none => none
  | some t =>
    if t.nListing ≤ env.totalAuthorities / 2 then some none
    else
      match t.currentRsaId, computeRouterstatusConsensus env.sortVoteRs env.sortOrports
          t.matchingDescs env.consensusMethod with
      | some currentRsaId, some winner =>
        let rs := winner.most
        if rs.identityDigest ≠ currentRsaId then none
        else
          let nickname :=
            (if t.namingConflict then rs.claim.nickname
              else t.chosenName.getD rs.claim.nickname).take maxNicknameLen
          let owner := strmapGetLc ctx.nameMap nickname
          let isNamed := owner.any fun d => d.digest = currentRsaId
          let isUnnamed := owner.any fun d => d.digest ≠ currentRsaId
          let chosen := chooseFlags ctx.flags t.flagCounts ctx.nFlagVoters isNamed isUnnamed
            t.edConsensus env.totalAuthorities
          if flagRunning ∉ chosen ∨ flagValid ∉ chosen then some none
          else
            match chooseGuardfraction (isGuardAfter env.consensusMethod chosen)
                t.measuredGuardfraction,
              chooseBandwidth env.maxUnmeasuredBwKb ctx.nMeasuring t.measuredBwsKb t.bandwidthsKb with
            | some guardfraction, some (bandwidthKb, bwIsUnmeasured) =>
              if env.flavor = .microdesc ∧ winner.microdescDigest256 = fit 32 [] then some none
              else some (some
                { identityDigest := currentRsaId
                  descriptorDigest := rs.claim.descriptorDigest
                  publishedOn :=
                    if env.consensusMethod ≥ minMethodToSuppressMdPublished
                        ∧ env.flavor = .microdesc then -1
                    else rs.claim.publishedOn.val
                  nickname := nickname
                  ipv4Addr := rs.claim.ipv4Addr
                  ipv4Orport := rs.claim.ipv4Orport
                  ipv4Dirport := rs.claim.ipv4Dirport
                  altOrport := winner.bestAltOrport
                  microdescDigest := winner.microdescDigest256
                  flags := adjustMiddleOnly env.consensusMethod (flagBadExit ∈ ctx.flags) chosen
                  version :=
                    if t.versions = [] then none
                    else getMostFrequentMember (env.sortVersionList t.versions)
                  protocols := getMostFrequentMember (smartlistSortStrings t.protocols)
                  guardfractionPercentage := guardfraction
                  bandwidthKb := bandwidthKb
                  bwIsUnmeasured := bwIsUnmeasured
                  exitsummary :=
                    chooseExitsummary rs.claim.descriptorDigest
                      (env.sortVoteRs.sort t.matchingDescs) })
            | _, _ => none
      | _, _ => none

/-! ## The consensus -/

/-- The listings of a router in the array that the collator has for it. -/
def routerListings (voters : List VoterFlags) (dc : Dircollator RouterClaim)
    (vrsLst : VrsLst RouterClaim) : List RouterListing :=
  (voters.zip vrsLst).zipIdx.filterMap fun listing =>
    listing.1.2.map fun rs =>
      ⟨listing.1.1, dc.ed25519ReflectsConsensus listing.2 rs.identityDigest, rs⟩

/-- The entry of the router at an index of the collator. -/
def routerEntryAt (env : ConsensusEnv) (ctx : RouterContext) (voters : List VoterFlags)
    (dc : Dircollator RouterClaim) (idx : Nat) : Option (Option RouterEntry) :=
  (dircollatorGetVotesForRouter dc idx).bind fun vrsLst =>
    routerEntry env ctx (routerListings voters dc vrsLst)

/-- The router entries, from the votes in the order of their authorities. -/
def consensusRouters (env : ConsensusEnv) (flags : List CString) (votes : List NetworkVote) :
    Option (List (Option RouterEntry)) :=
  match votes.mapM (voterFlags flags),
      collateVotes env.orders env.sortDigests env.totalAuthorities (votes.map NetworkVote.routers) with
  | some voters, some dc =>
    let ctx : RouterContext :=
      { flags := flags
        nFlagVoters := nFlagVoters flags voters
        nameMap := nameToIdMap (votes.zip voters)
        nMeasuring := votes.countP NetworkVote.hasMeasuredBws }
    (dircollatorNRouters dc).bind fun numRouters =>
      (List.range numRouters).mapM (routerEntryAt env ctx voters dc)
  | _, _ => none

/-- The parts of a consensus. -/
structure ConsensusParts where
  times : ConsensusTimes
  params : List CString
  routers : List RouterEntry
  deriving DecidableEq

/-- `networkstatus_compute_consensus`; from no votes it computes nothing. -/
def networkstatusComputeConsensus (env : ConsensusEnv) (votes : List NetworkVote) :
    Option (Option ConsensusParts) :=
  if env.totalAuthorities < votes.length ∨ env.totalAuthorities = 0 then none
  else if votes.isEmpty then some none
  else
    match computeTimes env.testingTorNetwork votes, dirvoteComputeParams votes env.totalAuthorities,
        consensusRouters env (consensusFlags votes) (env.sortVotes.sort votes) with
    | some times, some params, some routers => some (some ⟨times, params, routers.reduceOption⟩)
    | _, _, _ => none

end RendezMix.Source
