import RendezMix.Source.SharedRandom

/-!
# The signatures of a consensus

The part of `networkstatus_parse_vote_from_string` (`feature/dirparse/ns_parse.c`)
that reads the signatures of a consensus, and
`networkstatus_check_consensus_signature` (`feature/nodelist/networkstatus.c`).
What only the log shows is left out. The RSA operations are parameters.
-/
namespace RendezMix.Source
open Library.ByteStrings

/-! ## Documents -/

structure DocumentSignature where
  identityDigest : Bytes 20
  signingKeyDigest : Bytes 20
  alg : DigestAlgorithm
  signature : Option (List UInt8)
  badSignature : Bool
  goodSignature : Bool
  deriving DecidableEq

/-- `networkstatus_voter_info_t`: the identity of a dir-source entry and its signatures. -/
structure VoterInfo where
  identityDigest : Bytes 20
  sigs : List DocumentSignature
  deriving DecidableEq

structure CommonDigests where
  sha1 : Bytes 32
  sha256 : Bytes 32

/-- The element of the array `d`; there is none for the other algorithms. -/
def CommonDigests.d (digests : CommonDigests) : DigestAlgorithm → Option (Bytes 32)
  | .sha1 => some digests.sha1
  | .sha256 => some digests.sha256
  | _ => none

structure Consensus where
  digests : CommonDigests
  voters : List VoterInfo

/-- A `directory-signature` token: its arguments, and its object. -/
structure SignatureToken where
  args : List (List UInt8)
  objectType : Option (List UInt8)
  objectBody : List UInt8

/-! ## Reading the signatures -/

/-- The digest that 40 hexadecimal characters stand for. -/
def decodeHexDigest (hex : List UInt8) : Option (Bytes 20) :=
  if hex.length = 40 then (base16Decode hex).map (fit 20) else none

def networkstatusGetVoterById (voters : List VoterInfo) (identity : Bytes 20) : Option VoterInfo :=
  voters.find? fun voter => voter.identityDigest = identity

def networkstatusGetVoterSigByAlg (voter : VoterInfo) (alg : DigestAlgorithm) :
    Option DocumentSignature :=
  voter.sigs.find? fun sig => sig.alg = alg

/-- Add a signature to the voter that `networkstatus_get_voter_by_id` finds. -/
def addSignature (sig : DocumentSignature) : List VoterInfo → List VoterInfo
  | [] => []
  | voter :: voters =>
    if voter.identityDigest = sig.identityDigest then
      { voter with sigs := voter.sigs ++ [sig] } :: voters
    else voter :: addSignature sig voters

/-- The algorithm, the identity and the signing key of a token. `none` for an algorithm that is
not known. -/
def signatureArgs (args : List (List UInt8)) :
    Option (Option DigestAlgorithm × List UInt8 × List UInt8) :=
  match args with
  | [idHexdigest, skHexdigest] => some (some .sha1, idHexdigest, skHexdigest)
  | name :: idHexdigest :: skHexdigest :: _ =>
    some (cryptoDigestAlgorithmParseName name, idHexdigest, skHexdigest)
  | _ => none

/-- One `directory-signature` of a consensus: the voters, and how many signatures were kept. -/
def parseSignature (state : List VoterInfo × Nat) (tok : SignatureToken) :
    Option (List VoterInfo × Nat) :=
  match signatureArgs tok.args with
  | none => none
  | some (none, _, _) => some state
  | some (some alg, idHexdigest, skHexdigest) =>
    if tok.objectType ≠ some (textBytes "SIGNATURE") ∨ tok.objectBody.length < 128
        ∨ 512 < tok.objectBody.length then none
    else match decodeHexDigest idHexdigest with
      | none => none
      | some declaredIdentity =>
        match networkstatusGetVoterById state.1 declaredIdentity with
        | none => none
        | some v =>
          match decodeHexDigest skHexdigest with
          | none => none
          | some signingKeyDigest =>
            if (networkstatusGetVoterSigByAlg v alg).isSome then some state
            else some (addSignature ⟨v.identityDigest, signingKeyDigest, alg, some tok.objectBody,
              false, false⟩ state.1, state.2 + 1)

/-- The voters of a consensus with these dir-source entries and signatures. -/
def parseSignatures (dirSources : List (Bytes 20)) (tokens : List SignatureToken) :
    Option (List VoterInfo) :=
  match tokens.foldlM parseSignature (dirSources.map fun identity => ⟨identity, []⟩, 0) with
  | none => none
  | some (voters, nSignatures) => if nSignatures = 0 then none else some voters

/-! ## Checking the signatures -/

structure DirServer where
  v3IdentityDigest : Bytes 20
  /-- The bit `V3_DIRINFO` of its type. -/
  v3Dirinfo : Bool

structure AuthorityCert where
  identityDigest : Bytes 20
  signingKeyDigest : Bytes 20
  signingKey : List UInt8
  expires : Int

/-- The trusted directories and certificates, the time, and the operations on keys:
`crypto_pk_get_digest`, and what `crypto_pk_public_checksig` recovers from a signature. -/
structure SignatureEnv where
  trustedDirServers : List DirServer
  trustedDirCerts : List (Bytes 20 × List AuthorityCert)
  now : Int
  pkDigest : List UInt8 → Option (Bytes 20)
  publicChecksig : List UInt8 → List UInt8 → Option (List UInt8)

/-- `get_n_authorities(V3_DIRINFO)`. -/
def getNAuthorities (env : SignatureEnv) : Nat :=
  (env.trustedDirServers.filter (·.v3Dirinfo)).length

def trusteddirserverGetByV3AuthDigest (env : SignatureEnv) (digest : Bytes 20) :
    Option DirServer :=
  env.trustedDirServers.find? fun ds => ds.v3IdentityDigest = digest ∧ ds.v3Dirinfo = true

def authorityCertGetByDigests (env : SignatureEnv) (idDigest skDigest : Bytes 20) :
    Option AuthorityCert :=
  match env.trustedDirCerts.find? fun cl => cl.1 = idDigest with
  | none => none
  | some cl => cl.2.find? fun cert => cert.signingKeyDigest = skDigest

def badSigningKeys : List (List UInt8) :=
  [textBytes "09CD84F751FD6E955E0F8ADB497D5401470D697E",
    textBytes "0E7E9C07F0969D0468AD741E172A6109DC289F3C",
    textBytes "57B85409891D3FB32137F642FDEDF8B7F8CDFDCD",
    textBytes "87326329007AF781F587AF5B594E540B2B6C7630",
    textBytes "98CC82342DE8D298CF99D3F1A396475901E0D38E",
    textBytes "9904B52336713A5ADCB13E4FB14DC919E0D45571",
    textBytes "9DCD8E3F1DD1597E2AD476BBA28A1A89F3095227",
    textBytes "A61682F34B9BB9694AC98491FE1ABBFE61923941",
    textBytes "B59F6E99C575113650C99F1C425BA7B20A8C071D",
    textBytes "D27178388FA75B96D37FA36E0B015227DDDBDA51"]

/-- `authority_cert_is_denylisted`. The keys of the list and `base16_encode` are in upper case. -/
def authorityCertIsDenylisted (cert : AuthorityCert) : Bool :=
  badSigningKeys.contains (base16Encode cert.signingKeyDigest.val)

/-- How many bytes of a digest are compared. -/
def signedDigestLen (alg : DigestAlgorithm) : Nat := if alg = .sha1 then 20 else 32

/-- What `networkstatus_check_document_signature` does to the signature; it returns -1 and leaves
the signature alone where this is `some none`. The outer `none` stands for a digest that is read
outside its array. -/
def networkstatusCheckDocumentSignature (env : SignatureEnv) (digests : CommonDigests)
    (sig : DocumentSignature) (cert : AuthorityCert) : Option (Option DocumentSignature) :=
  let dlen := signedDigestLen sig.alg
  match env.pkDigest cert.signingKey with
  | none => some none
  | some keyDigest =>
    if sig.signingKeyDigest ≠ keyDigest ∨ sig.identityDigest ≠ cert.identityDigest then some none
    else if authorityCertIsDenylisted cert then some (some { sig with badSignature := true })
    else match env.publicChecksig cert.signingKey (sig.signature.getD []) with
      | none => some (some { sig with badSignature := true })
      | some signedDigest =>
        if signedDigest.length < dlen then some (some { sig with badSignature := true })
        else match digests.d sig.alg with
          | none => none
          | some digest =>
            if signedDigest.take dlen ≠ digest.val.take dlen then
              some (some { sig with badSignature := true })
            else some (some { sig with goodSignature := true })

/-- What a signature adds to the counts of its voter. -/
inductive SignatureCount where
  | good
  | bad
  | missingKey
  | unknown
  | nothing
  deriving DecidableEq

/-- The count of a signature that was checked. -/
def DocumentSignature.count (sig : DocumentSignature) : SignatureCount :=
  if sig.goodSignature then .good else if sig.badSignature then .bad else .nothing

/-- One signature of the inner loop of `networkstatus_check_consensus_signature`. -/
def checkSignature (env : SignatureEnv) (digests : CommonDigests) (sig : DocumentSignature) :
    Option (DocumentSignature × SignatureCount) :=
  if sig.goodSignature = false ∧ sig.badSignature = false ∧ sig.signature.isSome then
    if (trusteddirserverGetByV3AuthDigest env sig.identityDigest).isNone then some (sig, .unknown)
    else match authorityCertGetByDigests env sig.identityDigest sig.signingKeyDigest with
      | none => some (sig, .missingKey)
      | some cert =>
        if cert.expires < env.now then some (sig, .missingKey)
        else (networkstatusCheckDocumentSignature env digests sig cert).map fun checked =>
          match checked with
          | none => (sig, .missingKey)
          | some sig => (sig, sig.count)
  else some (sig, sig.count)

/-- The class of a voter by the counts of its signatures. -/
def voterClass (counts : List SignatureCount) : SignatureCount :=
  if .good ∈ counts then .good
  else if .bad ∈ counts then .bad
  else if .missingKey ∈ counts then .missingKey
  else if .unknown ∈ counts then .unknown
  else .nothing

/-- One voter of the outer loop. -/
def checkVoter (env : SignatureEnv) (digests : CommonDigests) (voter : VoterInfo) :
    Option (VoterInfo × SignatureCount) :=
  (voter.sigs.mapM (checkSignature env digests)).map fun checked =>
    ({ voter with sigs := checked.map Prod.fst }, voterClass (checked.map Prod.snd))

/-- `networkstatus_check_consensus_signature`: what it returns, and the voters with the flags of
their signatures. -/
def networkstatusCheckConsensusSignature (env : SignatureEnv) (consensus : Consensus) :
    Option (Int × List VoterInfo) :=
  let nV3Authorities := getNAuthorities env
  let nRequired := nV3Authorities / 2 + 1
  (consensus.voters.mapM (checkVoter env consensus.digests)).map fun checked =>
    let nGood := checked.countP fun c => c.2 = .good
    let nMissingKey := checked.countP fun c => c.2 = .missingKey
    (if nGood = nV3Authorities then 1
      else if nRequired ≤ nGood then 0
      else if nRequired ≤ nGood + nMissingKey then -1
      else -2,
      checked.map Prod.fst)

end RendezMix.Source
