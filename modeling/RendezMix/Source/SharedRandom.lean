import RendezMix.Source.Binascii
import RendezMix.Source.Smartlist
import RendezMix.Source.Strings

/-!
# The shared random value

`feature/dirauth/shared_random.c`: the value that the votes agree on and its
lines in the consensus, and the value computed from the reveals. The hash is a
parameter; `qsort` is any function that sorts by the comparison it is given.
-/
namespace RendezMix.Source
open Library.ByteStrings Library.Decimals Library.Sorting
open Std (TransCmp)

/-! ## Values in votes -/

structure SrSrv where
  numReveals : UInt64
  value : Bytes 32
  deriving DecidableEq

/-- What a vote says about shared random values. -/
structure SrInfo where
  participate : Bool
  previousSrv : Option SrSrv
  currentSrv : Option SrSrv
  deriving DecidableEq

/-- `compare_srv_` and `compare_srvs_`. -/
def compareSrv : SrSrv → SrSrv → Ordering := compareOn fun srv => srv.value.val

instance : TransCmp compareSrv :=
  inferInstanceAs (TransCmp (compareOn fun srv : SrSrv => srv.value.val))

/-- What the choice of a value depends on besides the votes: the number of
authorities, whether the value was just computed, the agreement that the votes
ask for, and the option `AuthDirSharedRandomness`. -/
structure SrvRules where
  nVoters : Nat
  srvIsFresh : Bool
  numSrvAgreements : Int
  authDirSharedRandomness : Bool

def shouldKeepSrv (rules : SrvRules) (nAgreements : Nat) : Bool :=
  if nAgreements < rules.nVoters / 2 + 1 then false
  else if rules.srvIsFresh ∧ (nAgreements : Int) < rules.numSrvAgreements then false
  else true

/-- The current or the previous value of a vote. -/
def SrInfo.srv (v : SrInfo) (current : Bool) : Option SrSrv :=
  if current then v.currentSrv else v.previousSrv

/-- The values of the votes that participate. -/
def srvList (votes : List SrInfo) (current : Bool) : List SrSrv :=
  (votes.filter (·.participate)).filterMap (·.srv current)

def getMajoritySrvFromVotes (qsort : Sorter compareSrv) (rules : SrvRules) (votes : List SrInfo)
    (current : Bool) : Option SrSrv :=
  match smartlistGetMostFrequent compareSrv (qsort.sort (srvList votes current)) with
  | (none, _) => none
  | (some mostFrequentSrv, count) =>
    if shouldKeepSrv rules count then some mostFrequentSrv else none

def previousSrvStr : List UInt8 := textBytes "shared-rand-previous-value"
def currentSrvStr : List UInt8 := textBytes "shared-rand-current-value"

def space : UInt8 := 32
def newline : UInt8 := 10

def srvToNsString (srv : SrSrv) (key : List UInt8) : List UInt8 :=
  key ++ space :: (decimal srv.numReveals.toNat ++ space :: (base64Encode srv.value.val ++ [newline]))

def getNsStrFromSrValues (prevSrv curSrv : Option SrSrv) : Option (List UInt8) :=
  if prevSrv = none ∧ curSrv = none then none
  else some ((prevSrv.elim [] fun srv => srvToNsString srv previousSrvStr)
    ++ curSrv.elim [] fun srv => srvToNsString srv currentSrvStr)

def srGetStringForConsensus (qsort : Sorter compareSrv) (rules : SrvRules)
    (votes : List SrInfo) : Option (List UInt8) :=
  if rules.authDirSharedRandomness then
    getNsStrFromSrValues (getMajoritySrvFromVotes qsort rules votes false)
      (getMajoritySrvFromVotes qsort rules votes true)
  else none

/-! ## Commits -/

inductive DigestAlgorithm where
  | sha1
  | sha256
  | sha512
  | sha3_256
  | sha3_512
  deriving DecidableEq

def srDigestAlg : DigestAlgorithm := .sha3_256

/-- `sr_commit_t`. The encoded commit and reveal are strings without the NULs that fill their
arrays. -/
structure SrCommit where
  alg : DigestAlgorithm
  valid : Bool
  rsaIdentity : Bytes 20
  revealTs : UInt64
  hashedReveal : Bytes 32
  encodedCommit : List UInt8
  randomNumber : Bytes 32
  commitTs : UInt64
  encodedReveal : List UInt8
  deriving DecidableEq

/-- `rsa_identity_hex`, which `commit_new` derives from the identity. -/
def SrCommit.rsaIdentityHex (commit : SrCommit) : List UInt8 := base16Encode commit.rsaIdentity.val

def commitHasRevealValue (commit : SrCommit) : Bool := commit.encodedReveal ≠ []

/-- `verify_commit_and_reveal`: whether it returns 0. -/
def verifyCommitAndReveal (digest256 : List UInt8 → Bytes 32) (commit : SrCommit) : Bool :=
  commit.commitTs = commit.revealTs ∧ commit.alg = srDigestAlg
    ∧ digest256 (fit 56 commit.encodedReveal).val = commit.hashedReveal

/-! ## The value of a protocol run -/

def getSrvElementFromCommit (commit : SrCommit) : Option (List UInt8) :=
  if commitHasRevealValue commit then some (commit.rsaIdentityHex ++ commit.encodedReveal) else none

def srSrvToken : List UInt8 := textBytes "shared-random"

def srProtoVersion : Nat := 1

def generateSrv (digest256 : List UInt8 → Bytes 32) (hashedReveals : Bytes 32) (revealNum : UInt64)
    (previousSrv : Option SrSrv) : SrSrv :=
  let previous := previousSrv.elim (List.replicate 32 0) fun srv => srv.value.val
  let msg := srSrvToken ++ (bigEndian 8 revealNum.toNat ++ (bigEndian 4 srProtoVersion
    ++ (hashedReveals.val ++ previous)))
  ⟨revealNum, digest256 msg⟩

def compareReveal : SrCommit → SrCommit → Ordering :=
  compareOn fun commit => commit.hashedReveal.val

instance : TransCmp compareReveal :=
  inferInstanceAs (TransCmp (compareOn fun commit : SrCommit => commit.hashedReveal.val))

/-- The commits that `sr_compute_srv` takes from the state: those of known authorities. -/
def recognizedCommits (known : Bytes 20 → Bool) (commits : List SrCommit) : List SrCommit :=
  commits.filter fun commit => known commit.rsaIdentity

/-- The value that `sr_compute_srv` sets, from the commits in the order in which the map lists
them. The assertion that a commit is valid may fail. -/
def srComputeSrv (qsort : Sorter compareReveal) (digest256 : List UInt8 → Bytes 32)
    (known : Bytes 20 → Bool) (commits : List SrCommit) (previousSrv : Option SrSrv) :
    Option SrSrv :=
  if commits.all (·.valid) then
    let chunks := (qsort.sort (recognizedCommits known commits)).filterMap getSrvElementFromCommit
    some (generateSrv digest256 (digest256 chunks.flatten) (UInt64.ofNat chunks.length)
      previousSrv)
  else none

end RendezMix.Source

/-!
# Commits and reveals

The commits of `feature/dirauth/shared_random.c`, as they are parsed from a
vote, made by the authority itself, and kept or ignored, and the state of
`feature/dirauth/shared_random_state.c` with its rounds. The state on disk is
left out.
-/
namespace RendezMix.Source
open Library.ByteStrings Library.Sorting

/-! ## Commits of votes -/

def commitNew (rsaIdentity : Bytes 20) : SrCommit where
  alg := srDigestAlg
  valid := false
  rsaIdentity := rsaIdentity
  revealTs := 0
  hashedReveal := fit 32 []
  encodedCommit := []
  randomNumber := fit 32 []
  commitTs := 0
  encodedReveal := []

/-- The 8 bytes of a time and the 32 that follow them, of a base64 string of at most 56
characters. -/
def decodeStamped (encoded : List UInt8) : Option (UInt64 × Bytes 32) :=
  if 56 < encoded.length then none
  else match base64Decode 40 encoded with
    | none => none
    | some decoded =>
      if decoded.length ≠ 40 then none
      else some (UInt64.ofNat (ofBigEndian (decoded.take 8)), fit 32 (decoded.drop 8))

def commitDecode (encoded : List UInt8) (commit : SrCommit) : Option SrCommit :=
  (decodeStamped encoded).map fun (ts, hash) =>
    { commit with commitTs := ts, hashedReveal := hash, encodedCommit := encoded }

def revealDecode (encoded : List UInt8) (commit : SrCommit) : Option SrCommit :=
  (decodeStamped encoded).map fun (ts, random) =>
    { commit with revealTs := ts, randomNumber := random, encodedReveal := encoded }

def cryptoDigestAlgorithmParseName (name : List UInt8) : Option DigestAlgorithm :=
  if name = textBytes "sha1" then some .sha1
  else if name = textBytes "sha256" then some .sha256
  else if name = textBytes "sha512" then some .sha512
  else if name = textBytes "sha3-256" then some .sha3_256
  else if name = textBytes "sha3-512" then some .sha3_512
  else none

def srParseCommit (args : List (List UInt8)) : Option SrCommit :=
  match args with
  | version :: name :: fpr :: value :: rest =>
    if srProtoVersion < (torParseUlong version 1 (2 ^ 32 - 1)).getD 0 then none
    else if cryptoDigestAlgorithmParseName name ≠ some srDigestAlg then none
    else match base16Decode (fit 40 fpr).val with
      | none => none
      | some digest =>
        match commitDecode value (commitNew (fit 20 digest)), rest with
        | none, _ => none
        | some commit, [] => some commit
        | some commit, reveal :: _ => revealDecode reveal commit
  | _ => none

/-! ## The authority's own commit -/

/-- The base64 string of a time and 32 bytes. -/
def encodeStamped (ts : UInt64) (bytes : Bytes 32) : List UInt8 :=
  base64Encode (bigEndian 8 ts.toNat ++ bytes.val)

def revealEncode (commit : SrCommit) : List UInt8 :=
  encodeStamped commit.revealTs commit.randomNumber

def commitEncode (commit : SrCommit) : List UInt8 :=
  encodeStamped commit.commitTs commit.hashedReveal

/-- `sr_generate_our_commit`, with the identity of the certificate and the random number. -/
def srGenerateOurCommit (digest256 : List UInt8 → Bytes 32) (timestamp : Int)
    (identity : Bytes 20) (randomNumber : Bytes 32) : SrCommit :=
  let commit := { commitNew identity with
    randomNumber := randomNumber
    commitTs := UInt64.ofInt timestamp
    revealTs := UInt64.ofInt timestamp }
  let revealed := { commit with encodedReveal := revealEncode commit }
  let hashed := { revealed with
    hashedReveal := digest256 (fit 56 revealed.encodedReveal).val }
  { hashed with encodedCommit := commitEncode hashed, valid := true }

/-! ## The state -/

inductive SrPhase where
  | commit
  | reveal
  deriving DecidableEq

/-- `sr_state_t`. The map from identities to commits is the list of its commits. -/
structure SrState where
  validAfter : Int
  phase : SrPhase
  nProtocolRuns : UInt64
  nCommitRounds : UInt32
  nRevealRounds : UInt32
  commits : List SrCommit
  previousSrv : Option SrSrv
  currentSrv : Option SrSrv
  isSrvFresh : Bool

/-- What the functions use besides the state. -/
structure SrEnv where
  digest256 : List UInt8 → Bytes 32
  qsort : Sorter compareReveal
  /-- The authority's own identity. -/
  identity : Bytes 20

def srStateGetCommit (s : SrState) (rsaIdentity : Bytes 20) : Option SrCommit :=
  s.commits.find? fun c => c.rsaIdentity = rsaIdentity

/-- `sr_state_add_commit`, by `commit_add_to_state`. -/
def srStateAddCommit (commit : SrCommit) (s : SrState) : SrState :=
  { s with commits := commit :: s.commits.filter fun c => c.rsaIdentity ≠ commit.rsaIdentity }

/-- `sr_state_copy_reveal_info`, to the commit of this identity in the state. -/
def srStateCopyRevealInfo (commit : SrCommit) (s : SrState) : SrState :=
  { s with commits := s.commits.map fun saved =>
      if saved.rsaIdentity = commit.rsaIdentity then
        { saved with
          revealTs := commit.revealTs
          randomNumber := commit.randomNumber
          encodedReveal := commit.encodedReveal }
      else saved }

def commitmentsAreTheSame (one two : SrCommit) : Bool := one.encodedCommit = two.encodedCommit

def commitIsAuthoritative (commit : SrCommit) (voterKey : Bytes 20) : Bool :=
  commit.rsaIdentity = voterKey

def shouldKeepCommit (env : SrEnv) (known : Bytes 20 → Bool) (s : SrState) (commit : SrCommit)
    (voterKey : Bytes 20) (phase : SrPhase) : Bool :=
  if !commitIsAuthoritative commit voterKey then false
  else if !known commit.rsaIdentity then false
  else
    let savedCommit := srStateGetCommit s commit.rsaIdentity
    match phase with
    | .commit =>
      if savedCommit.isSome then false
      else !commitHasRevealValue commit
    | .reveal =>
      match savedCommit with
      | none => false
      | some saved =>
        if !commitmentsAreTheSame commit saved then false
        else if commitHasRevealValue saved then false
        else if !commitHasRevealValue commit then false
        else verifyCommitAndReveal env.digest256 commit

/-- `save_commit_during_reveal_phase`, whose assertions may fail. -/
def saveCommitDuringRevealPhase (commit : SrCommit) (s : SrState) : Option SrState :=
  match srStateGetCommit s commit.rsaIdentity with
  | none => none
  | some saved =>
    if commitmentsAreTheSame commit saved then some (srStateCopyRevealInfo commit s) else none

def saveCommitToState (commit : SrCommit) (s : SrState) : Option SrState :=
  if commit.valid then
    match s.phase with
    | .commit => some (srStateAddCommit commit s)
    | .reveal => saveCommitDuringRevealPhase commit s
  else none

/-- One commit of `sr_handle_received_commits`. -/
def srHandleReceivedCommit (env : SrEnv) (known : Bytes 20 → Bool) (voterKey : Bytes 20)
    (s : SrState) (commit : SrCommit) : Option SrState :=
  if shouldKeepCommit env known s commit voterKey s.phase then
    saveCommitToState { commit with valid := true } s
  else some s

def srHandleReceivedCommits (env : SrEnv) (known : Bytes 20 → Bool) (voterKey : Bytes 20)
    (commits : List SrCommit) (s : SrState) : Option SrState :=
  commits.foldlM (srHandleReceivedCommit env known voterKey) s

/-! ## Rounds -/

/-- `SHARED_RANDOM_N_ROUNDS` and `SHARED_RANDOM_N_PHASES`. -/
def sharedRandomNRounds : Int := 12
def sharedRandomNPhases : Int := 2

def getSrProtocolPhase (votingInterval validAfter : Int) : SrPhase :=
  let currentSlot :=
    (validAfter.tdiv votingInterval).tmod (sharedRandomNRounds * sharedRandomNPhases)
  if currentSlot < sharedRandomNRounds then .commit else .reveal

def stateRotateSrv (s : SrState) : SrState :=
  { s with previousSrv := s.currentSrv, currentSrv := none }

/-- What `sr_compute_srv` does to the state. -/
def srStateComputeSrv (env : SrEnv) (known : Bytes 20 → Bool) (s : SrState) : Option SrState :=
  if s.phase ≠ .reveal then some s
  else (srComputeSrv env.qsort env.digest256 known s.commits s.previousSrv).map fun srv =>
    { s with currentSrv := some srv, isSrvFresh := true }

def resetStateForNewProtocolRun (validAfter : Int) (s : SrState) : SrState :=
  { s with
    nRevealRounds := 0
    nCommitRounds := 0
    nProtocolRuns := s.nProtocolRuns + 1
    validAfter := validAfter
    commits := [] }

/-- Add the authority's own commit, unless it could not be made: there is no random number. -/
def addOurCommit (env : SrEnv) (validAfter : Int) (randomNumber : Option (Bytes 32))
    (s : SrState) : SrState :=
  match randomNumber with
  | none => s
  | some random =>
    srStateAddCommit (srGenerateOurCommit env.digest256 validAfter env.identity random) s

def newProtocolRun (env : SrEnv) (known : Bytes 20 → Bool) (validAfter : Int)
    (randomNumber : Option (Bytes 32)) (s : SrState) : Option SrState :=
  (if s.phase = .reveal then srStateComputeSrv env known (stateRotateSrv s) else some s).map
    fun computed =>
      addOurCommit env validAfter randomNumber (resetStateForNewProtocolRun validAfter computed)

/-- Count the round that was prepared. -/
def countRound (s : SrState) : SrState :=
  match s.phase with
  | .commit => if s.nRevealRounds ≠ 0 then s else { s with nCommitRounds := s.nCommitRounds + 1 }
  | .reveal => { s with nRevealRounds := s.nRevealRounds + 1 }

/-- The phase and the commits for the round at `validAfter`. -/
def prepareRound (env : SrEnv) (known : Bytes 20 → Bool) (votingInterval validAfter : Int)
    (randomNumber : Option (Bytes 32)) (s : SrState) : Option SrState :=
  let nextPhase := getSrProtocolPhase votingInterval validAfter
  if s.phase ≠ nextPhase then
    (if nextPhase = .commit then newProtocolRun env known validAfter randomNumber s
      else some s).map fun started => { started with phase := nextPhase }
  else if s.phase = .commit ∧ s.commits = [] then
    some (addOurCommit env validAfter randomNumber s)
  else some s

def srStateUpdate (env : SrEnv) (known : Bytes 20 → Bool) (votingInterval validAfter : Int)
    (randomNumber : Option (Bytes 32)) (s : SrState) : Option SrState :=
  if validAfter ≤ s.validAfter then some s
  else (prepareRound env known votingInterval validAfter randomNumber s).map fun prepared =>
    countRound { prepared with validAfter := validAfter }

/-- A state without commits, as `state_new` makes it. -/
def stateNew (votingInterval now : Int) : SrState where
  validAfter := 0
  phase := getSrProtocolPhase votingInterval now
  nProtocolRuns := 0
  nCommitRounds := 0
  nRevealRounds := 0
  commits := []
  previousSrv := none
  currentSrv := none
  isSrvFresh := false

/-- The calls of a run: the commits of a vote, or the next voting round. The known
authorities, the voting interval and the random numbers may be others at each call. -/
inductive SrEvent where
  | received (known : Bytes 20 → Bool) (voterKey : Bytes 20) (commits : List SrCommit)
  | update (known : Bytes 20 → Bool) (votingInterval validAfter : Int)
      (randomNumber : Option (Bytes 32))

/-- The commits of a vote were parsed from it. -/
def SrEvent.Parsed : SrEvent → Prop
  | .received _ _ commits => ∀ c ∈ commits, ∃ args, srParseCommit args = some c
  | .update .. => True

/-- One call; the assertions of the source may fail. -/
def srCall (env : SrEnv) (s : SrState) : SrEvent → Option SrState
  | .received known voterKey commits => srHandleReceivedCommits env known voterKey commits s
  | .update known votingInterval validAfter randomNumber =>
    srStateUpdate env known votingInterval validAfter randomNumber s

/-- A call that returns. -/
def SrStep (env : SrEnv) (s : SrState) (e : SrEvent) (s' : SrState) : Prop :=
  e.Parsed ∧ srCall env s e = some s'

end RendezMix.Source
