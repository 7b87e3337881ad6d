import RendezMix.Library.Pointwise
import RendezMix.Source.ConsensusSignatures

/-!
# A consensus with a majority of signatures

Every signature is kept with the first dir-source entry of its identity, so that
the entries that count as good have different identities. The check accepts
without any signature only where there are no authorities.
-/
namespace RendezMix.Guarantees.ConsensusMajority
open Library.ByteStrings Library.Pointwise Source

variable {env : SignatureEnv} {digests : CommonDigests} {voters : List VoterInfo}
  {sig sig' : DocumentSignature}

/-! ## One entry for each identity -/

/-- An entry with signatures is the first of its identity. -/
def SigsFirst (voters : List VoterInfo) : Prop :=
  voters.Pairwise fun a b => b.sigs ≠ [] → a.identityDigest ≠ b.identityDigest

/-- The signatures of an entry are of its identity, and were not checked. -/
def SigsFresh (voters : List VoterInfo) : Prop :=
  ∀ voter ∈ voters, ∀ sig ∈ voter.sigs, sig.identityDigest = voter.identityDigest
    ∧ sig.goodSignature = false ∧ sig.badSignature = false

variable {voter : VoterInfo} {cert : AuthorityCert}

section

variable {tokens : List SignatureToken} {state state' : List VoterInfo × Nat}

theorem mem_addSignature (member : voter ∈ addSignature sig voters) :
    voter ∈ voters ∨ ∃ before ∈ voters, before.identityDigest = sig.identityDigest
      ∧ voter = { before with sigs := before.sigs ++ [sig] } := by
  induction voters with
  | nil => cases member
  | cons first voters ih =>
    rw [addSignature] at member
    split at member
    · next same =>
      rcases List.mem_cons.mp member with rfl | later
      · exact Or.inr ⟨first, List.mem_cons_self, same, rfl⟩
      · exact Or.inl (List.mem_cons_of_mem _ later)
    · rcases List.mem_cons.mp member with rfl | later
      · exact Or.inl List.mem_cons_self
      · rcases ih later with inside | ⟨before, inside, found⟩
        · exact Or.inl (List.mem_cons_of_mem _ inside)
        · exact Or.inr ⟨before, List.mem_cons_of_mem _ inside, found⟩

theorem SigsFirst.add (sigsFirst : SigsFirst voters) : SigsFirst (addSignature sig voters) := by
  induction voters with
  | nil => exact sigsFirst
  | cons voter voters ih =>
    rw [SigsFirst, List.pairwise_cons] at sigsFirst
    rw [addSignature]
    split
    · rw [SigsFirst, List.pairwise_cons]
      exact sigsFirst
    · next other =>
      rw [SigsFirst, List.pairwise_cons]
      refine ⟨?_, ih sigsFirst.2⟩
      intro b member signed
      rcases mem_addSignature member with inside | ⟨before, _, same, rfl⟩
      · exact sigsFirst.1 b inside signed
      · rw [same]
        exact other

theorem SigsFresh.add (sigsFresh : SigsFresh voters)
    (fresh : sig.goodSignature = false ∧ sig.badSignature = false) :
    SigsFresh (addSignature sig voters) := by
  intro voter member s inside
  rcases mem_addSignature member with old | ⟨before, old, same, rfl⟩
  · exact sigsFresh voter old s inside
  · rcases List.mem_append.mp inside with earlier | new
    · exact sigsFresh before old s earlier
    · rw [List.mem_singleton.mp new]
      exact ⟨same.symm, fresh⟩

theorem parseSignature_voters {tok : SignatureToken}
    (parsed : parseSignature state tok = some state') :
    state'.1 = state.1
      ∨ ∃ sig, sig.goodSignature = false ∧ sig.badSignature = false
        ∧ state'.1 = addSignature sig state.1 := by
  unfold parseSignature at parsed
  split at parsed
  · cases parsed
  · cases parsed
    exact Or.inl rfl
  · split at parsed
    · cases parsed
    split at parsed
    · cases parsed
    split at parsed
    · cases parsed
    split at parsed
    · cases parsed
    split at parsed
    · cases parsed
      exact Or.inl rfl
    · cases parsed
      exact Or.inr ⟨_, rfl, rfl, rfl⟩

theorem foldlM_parseSignature (parsed : tokens.foldlM parseSignature state = some state')
    (sigsFirst : SigsFirst state.1) (sigsFresh : SigsFresh state.1) :
    SigsFirst state'.1 ∧ SigsFresh state'.1 := by
  induction tokens generalizing state with
  | nil =>
    cases parsed
    exact ⟨sigsFirst, sigsFresh⟩
  | cons tok tokens ih =>
    rw [List.foldlM_cons] at parsed
    obtain ⟨mid, first, rest⟩ := Option.bind_eq_some_iff.mp parsed
    rcases parseSignature_voters first with same | ⟨sig, good, bad, added⟩
    · apply ih rest
      · rw [same]
        exact sigsFirst
      · rw [same]
        exact sigsFresh
    · apply ih rest
      · rw [added]
        exact sigsFirst.add
      · rw [added]
        exact sigsFresh.add ⟨good, bad⟩

theorem parseSignatures_fresh {dirSources : List (Bytes 20)}
    (parsed : parseSignatures dirSources tokens = some voters) :
    SigsFirst voters ∧ SigsFresh voters := by
  rw [parseSignatures] at parsed
  split at parsed
  · cases parsed
  · next result =>
    split at parsed
    · cases parsed
    · cases parsed
      apply foldlM_parseSignature result
      · rw [SigsFirst, List.pairwise_map]
        exact List.pairwise_of_forall fun _ _ signed => absurd rfl signed
      · intro voter member sig inside
        obtain ⟨identity, _, rfl⟩ := List.mem_map.mp member
        cases inside

/-! ## Checking one signature -/

/-- A certificate of a recognised authority by which the signature can be checked. -/
structure Checkable (env : SignatureEnv) (sig : DocumentSignature) (cert : AuthorityCert) :
    Prop where
  recognised : ∃ ds ∈ env.trustedDirServers, ds.v3Dirinfo = true
    ∧ ds.v3IdentityDigest = sig.identityDigest
  found : authorityCertGetByDigests env sig.identityDigest sig.signingKeyDigest = some cert
  unexpired : env.now ≤ cert.expires
  key : env.pkDigest cert.signingKey = some sig.signingKeyDigest
  identity : cert.identityDigest = sig.identityDigest
  allowed : authorityCertIsDenylisted cert = false

/-- The key of the certificate recovers this string from the signature. -/
def Opens (env : SignatureEnv) (sig : DocumentSignature) (cert : AuthorityCert)
    (bytes : List UInt8) : Prop :=
  env.publicChecksig cert.signingKey (sig.signature.getD []) = some bytes
    ∧ signedDigestLen sig.alg ≤ bytes.length

/-- The signature was verified: it is over the document's own digest. -/
def Verified (env : SignatureEnv) (digests : CommonDigests) (sig : DocumentSignature) : Prop :=
  ∃ cert bytes digest, Checkable env sig cert ∧ Opens env sig cert bytes
    ∧ digests.d sig.alg = some digest
    ∧ bytes.take (signedDigestLen sig.alg) = digest.val.take (signedDigestLen sig.alg)

/-- No signature that can be checked names an algorithm without a digest in the array. -/
def InRange (env : SignatureEnv) (digests : CommonDigests) (voters : List VoterInfo) : Prop :=
  ∀ voter ∈ voters, ∀ sig ∈ voter.sigs, sig.signature.isSome = true → ∀ cert bytes,
    Checkable env sig cert → Opens env sig cert bytes → (digests.d sig.alg).isSome = true

theorem networkstatusCheckDocumentSignature_good (fresh : sig.goodSignature = false)
    (checked : networkstatusCheckDocumentSignature env digests sig cert = some (some sig'))
    (good : sig'.goodSignature = true) :
    env.pkDigest cert.signingKey = some sig.signingKeyDigest
      ∧ cert.identityDigest = sig.identityDigest ∧ authorityCertIsDenylisted cert = false
      ∧ ∃ bytes digest, Opens env sig cert bytes ∧ digests.d sig.alg = some digest
        ∧ bytes.take (signedDigestLen sig.alg) = digest.val.take (signedDigestLen sig.alg) := by
  have bad (s : DocumentSignature) (same : s.goodSignature = false)
      (equal : some (some s) = some (some sig')) : False := by
    rw [Option.some.injEq, Option.some.injEq] at equal
    rw [← equal, same] at good
    cases good
  simp only [networkstatusCheckDocumentSignature] at checked
  split at checked
  · cases checked
  next keyDigest digestOf =>
  split at checked
  · cases checked
  next match_ =>
  rw [not_or, not_not, not_not] at match_
  split at checked
  · exact (bad { sig with badSignature := true } fresh checked).elim
  next allowed =>
  split at checked
  · exact (bad { sig with badSignature := true } fresh checked).elim
  next bytes opened =>
  split at checked
  · exact (bad { sig with badSignature := true } fresh checked).elim
  next long =>
  split at checked
  · cases checked
  next digest inside =>
  split at checked
  · exact (bad { sig with badSignature := true } fresh checked).elim
  next same =>
  rw [Bool.not_eq_true] at allowed
  rw [not_not] at same
  exact ⟨by rw [digestOf, match_.1], match_.2.symm, allowed, bytes, digest, ⟨opened, by omega⟩,
    inside, same⟩

/-- A digest is read outside the array only for a signature that opens. -/
theorem networkstatusCheckDocumentSignature_none
    (outside : networkstatusCheckDocumentSignature env digests sig cert = none) :
    env.pkDigest cert.signingKey = some sig.signingKeyDigest
      ∧ cert.identityDigest = sig.identityDigest ∧ authorityCertIsDenylisted cert = false
      ∧ (∃ bytes, Opens env sig cert bytes) ∧ digests.d sig.alg = none := by
  simp only [networkstatusCheckDocumentSignature] at outside
  split at outside
  · cases outside
  next keyDigest digestOf =>
  split at outside
  · cases outside
  next matching =>
  rw [not_or, not_not, not_not] at matching
  split at outside
  · cases outside
  next allowed =>
  split at outside
  · cases outside
  next bytes opened =>
  split at outside
  · cases outside
  next long =>
  split at outside
  · next none =>
    rw [Bool.not_eq_true] at allowed
    exact ⟨by rw [digestOf, matching.1], matching.2.symm, allowed, ⟨bytes, opened, by omega⟩, none⟩
  · split at outside
    · cases outside
    · cases outside

end

section

variable (fresh : sig.goodSignature = false ∧ sig.badSignature = false)

include fresh

section

variable (present : sig.signature.isSome = true)

include present

theorem checkSignature_fresh (recognised : ∃ ds ∈ env.trustedDirServers, ds.v3Dirinfo = true
      ∧ ds.v3IdentityDigest = sig.identityDigest)
    (found : authorityCertGetByDigests env sig.identityDigest sig.signingKeyDigest = some cert)
    (unexpired : env.now ≤ cert.expires) :
    checkSignature env digests sig
      = (networkstatusCheckDocumentSignature env digests sig cert).map fun checked =>
        match checked with
        | none => (sig, .missingKey)
        | some sig => (sig, sig.count) := by
  have known : (trusteddirserverGetByV3AuthDigest env sig.identityDigest).isNone = false := by
    rw [Option.isNone_eq_false_iff, trusteddirserverGetByV3AuthDigest, List.find?_isSome]
    obtain ⟨ds, member, v3, same⟩ := recognised
    exact ⟨ds, member, by simp [v3, same]⟩
  rw [checkSignature, if_pos ⟨fresh.1, fresh.2, present⟩, known, if_neg (by decide), found]
  exact if_neg (by omega)

theorem checkSignature_inRange {bytes : List UInt8} {result : DocumentSignature × SignatureCount}
    (checkable : Checkable env sig cert) (opens : Opens env sig cert bytes)
    (checked : checkSignature env digests sig = some result) :
    (digests.d sig.alg).isSome = true := by
  rw [checkSignature_fresh fresh present checkable.recognised checkable.found
    checkable.unexpired] at checked
  by_contra outside
  rw [Bool.not_eq_true, Option.isSome_eq_false_iff, Option.isNone_iff_eq_none] at outside
  have none : networkstatusCheckDocumentSignature env digests sig cert = none := by
    have long := opens.2
    rw [networkstatusCheckDocumentSignature, checkable.key]
    simp only
    rw [if_neg (by rw [checkable.identity]; simp), checkable.allowed, if_neg (by decide), opens.1]
    simp only
    rw [if_neg (by omega), outside]
  rw [none] at checked
  cases checked

end

/-- What a signature that was not checked yet needs to count as good, or to be read against a
digest outside the array. -/
theorem checkSignature_cases :
    (checkSignature env digests sig = none →
      sig.signature.isSome = true ∧ digests.d sig.alg = none
        ∧ ∃ cert bytes, Checkable env sig cert ∧ Opens env sig cert bytes)
      ∧ ((checkSignature env digests sig).map Prod.snd = some .good → Verified env digests sig) := by
  by_cases present : sig.signature.isSome = true
  swap
  · rw [checkSignature, if_neg (fun all => present all.2.2), DocumentSignature.count, fresh.1,
      fresh.2]
    exact ⟨fun none => (by cases none), fun good => (by cases good)⟩
  by_cases known : (trusteddirserverGetByV3AuthDigest env sig.identityDigest).isNone = true
  · rw [checkSignature, if_pos ⟨fresh.1, fresh.2, present⟩, if_pos known]
    exact ⟨fun none => (by cases none), fun good => (by cases good)⟩
  have recognised : ∃ ds ∈ env.trustedDirServers, ds.v3Dirinfo = true
      ∧ ds.v3IdentityDigest = sig.identityDigest := by
    rw [Bool.not_eq_true, Option.isNone_eq_false_iff, trusteddirserverGetByV3AuthDigest,
      List.find?_isSome] at known
    obtain ⟨ds, member, both⟩ := known
    rw [decide_eq_true_eq] at both
    exact ⟨ds, member, both.2, both.1⟩
  cases found : authorityCertGetByDigests env sig.identityDigest sig.signingKeyDigest with
  | none =>
    rw [checkSignature, if_pos ⟨fresh.1, fresh.2, present⟩, if_neg known, found]
    exact ⟨fun none => (by cases none), fun good => (by cases good)⟩
  | some cert =>
    by_cases expired : cert.expires < env.now
    · rw [checkSignature, if_pos ⟨fresh.1, fresh.2, present⟩, if_neg known, found]
      simp only
      rw [if_pos expired]
      exact ⟨fun none => (by cases none), fun good => (by cases good)⟩
    · rw [not_lt] at expired
      rw [checkSignature_fresh fresh present recognised found expired]
      constructor
      · intro none
        rw [Option.map_eq_none_iff] at none
        obtain ⟨key, identity, allowed, ⟨bytes, opens⟩, outside⟩ :=
          networkstatusCheckDocumentSignature_none none
        exact ⟨present, outside, cert, bytes,
          ⟨recognised, found, expired, key, identity, allowed⟩, opens⟩
      · intro good
        rw [Option.map_map, Option.map_eq_some_iff] at good
        obtain ⟨checked, result, counted⟩ := good
        cases checked with
        | none => cases counted
        | some sig' =>
          have flag : sig'.goodSignature = true := by
            by_contra other
            simp only [Function.comp, DocumentSignature.count, if_neg other] at counted
            split at counted <;> cases counted
          obtain ⟨key, identity, allowed, bytes, digest, opens, inside, same⟩ :=
            networkstatusCheckDocumentSignature_good fresh.1 result flag
          exact ⟨cert, bytes, digest, ⟨recognised, found, expired, key, identity, allowed⟩, opens,
            inside, same⟩

end

/-! ## Counting the voters -/

/-- The voter counts as good. -/
def isGood (env : SignatureEnv) (digests : CommonDigests) (voter : VoterInfo) : Bool :=
  (checkVoter env digests voter).map Prod.snd = some .good

section

variable {consensus : Consensus}

theorem isGood_verified
    (fresh : ∀ sig ∈ voter.sigs, sig.goodSignature = false ∧ sig.badSignature = false)
    (good : isGood env digests voter = true) : ∃ sig ∈ voter.sigs, Verified env digests sig := by
  rw [isGood, decide_eq_true_eq, checkVoter, Option.map_map, Option.map_eq_some_iff] at good
  obtain ⟨checked, all, best⟩ := good
  simp only [Function.comp, voterClass] at best
  split at best
  · next counted =>
    obtain ⟨result, member, count⟩ := List.mem_map.mp counted
    obtain ⟨sig, inside, one⟩ := before (forall₂_of_mapM all) member
    refine ⟨sig, inside, (checkSignature_cases (fresh sig inside)).2 ?_⟩
    rw [one, Option.map_some, count]
  · split at best
    · cases best
    split at best
    · cases best
    split at best <;> cases best

theorem isGood_sigs (good : isGood env digests voter = true) : voter.sigs ≠ [] := by
  intro none
  rw [isGood, checkVoter, none] at good
  cases good

theorem countP_isGood {classes : List (VoterInfo × SignatureCount)}
    (all : voters.mapM (checkVoter env digests) = some classes) :
    voters.countP (isGood env digests) = classes.countP fun c => c.2 = SignatureCount.good := by
  apply countP_of_forall₂ (forall₂_of_mapM all)
  intro voter c one
  rw [isGood, one]
  exact decide_eq_decide.mpr (by rw [Option.map_some, Option.some.injEq])

/-- The entry's identity is that of a recognised authority, whose signature over the document's
own digest was verified. -/
def SignedBy (env : SignatureEnv) (consensus : Consensus) (identity : Bytes 20) : Prop :=
  ∃ voter ∈ consensus.voters, voter.identityDigest = identity
    ∧ ∃ sig ∈ voter.sigs, sig.identityDigest = identity ∧ Verified env consensus.digests sig

/-- So many different authorities signed the document. -/
def SignedByMany (env : SignatureEnv) (consensus : Consensus) (n : Nat) : Prop :=
  ∃ identities : List (Bytes 20), identities.Nodup ∧ n ≤ identities.length
    ∧ ∀ identity ∈ identities, SignedBy env consensus identity

theorem signedByMany_good (env : SignatureEnv) (digests : CommonDigests) (sigsFirst : SigsFirst voters) (sigsFresh : SigsFresh voters) :
    SignedByMany env ⟨digests, voters⟩ (voters.countP (isGood env digests)) := by
  refine ⟨(voters.filter (isGood env digests)).map (·.identityDigest), ?_, ?_, ?_⟩
  · rw [List.Nodup, List.pairwise_map]
    have apart := sigsFirst.filter (isGood env digests)
    apply apart.imp_of_mem
    intro a b _ member different
    exact different (isGood_sigs (List.mem_filter.mp member).2)
  · rw [List.length_map, List.countP_eq_length_filter]
  · intro identity member
    obtain ⟨voter, inside, rfl⟩ := List.mem_map.mp member
    rw [List.mem_filter] at inside
    have fresh (sig : DocumentSignature) (member : sig ∈ voter.sigs) :=
      (sigsFresh voter inside.1 sig member).2
    obtain ⟨sig, signed, verified⟩ := isGood_verified fresh inside.2
    exact ⟨voter, inside.1, rfl, sig, signed, (sigsFresh voter inside.1 sig signed).1, verified⟩

theorem SignedByMany.mono {m n : Nat} (many : SignedByMany env consensus n) (le : m ≤ n) :
    SignedByMany env consensus m := by
  obtain ⟨identities, distinct, length, signed⟩ := many
  exact ⟨identities, distinct, by omega, signed⟩

/-! ## The condition -/

/-- The check returns, without reading outside the digests, and accepts only with a majority of
signatures, and as complete only with one for each authority. -/
def AcceptsMajority (env : SignatureEnv) (consensus : Consensus) : Prop :=
  ∃ result voters, networkstatusCheckConsensusSignature env consensus = some (result, voters)
    ∧ (result = 0 ∨ result = 1 → SignedByMany env consensus (getNAuthorities env / 2 + 1))
    ∧ (result = 1 → SignedByMany env consensus (getNAuthorities env))

theorem checkVoter_none
    (fresh : ∀ sig ∈ voter.sigs, sig.goodSignature = false ∧ sig.badSignature = false)
    (failed : checkVoter env digests voter = none) :
    ∃ sig ∈ voter.sigs, sig.signature.isSome = true ∧ digests.d sig.alg = none
      ∧ ∃ cert bytes, Checkable env sig cert ∧ Opens env sig cert bytes := by
  rw [checkVoter, Option.map_eq_none_iff] at failed
  obtain ⟨sig, member, none⟩ := mapM_eq_none failed
  exact ⟨sig, member, (checkSignature_cases (fresh sig member)).1 none⟩

theorem AcceptsMajority.inRange (accepts : AcceptsMajority env ⟨digests, voters⟩)
    (sigsFresh : SigsFresh voters) : InRange env digests voters := by
  obtain ⟨result, _, checked, _⟩ := accepts
  obtain ⟨classes, all, _⟩ := Option.map_eq_some_iff.mp checked
  intro voter member sig inside present cert bytes checkable opens
  obtain ⟨_, _, one⟩ := after (forall₂_of_mapM all) member
  obtain ⟨counts, each, _⟩ := Option.map_eq_some_iff.mp one
  obtain ⟨_, _, checkedSig⟩ := after (forall₂_of_mapM each) inside
  exact checkSignature_inRange (sigsFresh voter member sig inside).2 present checkable opens
    checkedSig

theorem getNAuthorities_pos_of_signed {identity : Bytes 20}
    (signed : SignedBy env consensus identity) : 0 < getNAuthorities env := by
  obtain ⟨_, _, _, sig, _, _, _, _, _, checkable, _⟩ := signed
  obtain ⟨ds, member, v3, _⟩ := checkable.recognised
  exact List.length_pos_of_mem (List.mem_filter.mpr ⟨member, v3⟩)

theorem AcceptsMajority.authorities (accepts : AcceptsMajority env ⟨digests, voters⟩)
    (sigsFirst : SigsFirst voters) (sigsFresh : SigsFresh voters) : 0 < getNAuthorities env := by
  by_contra nobody
  have zero : getNAuthorities env = 0 := by omega
  obtain ⟨result, _, checked, majority, _⟩ := accepts
  obtain ⟨classes, all, outcome⟩ := Option.map_eq_some_iff.mp checked
  -- Nobody is recognised, so that all of no authorities have signed.
  have none : classes.countP (fun c => c.2 = SignatureCount.good) = 0 := by
    have same : voters.countP (isGood env digests)
        = classes.countP fun c => c.2 = SignatureCount.good := countP_isGood all
    rw [← same]
    obtain ⟨identities, _, length, signed⟩ := signedByMany_good env digests sigsFirst
      sigsFresh
    by_contra some
    obtain ⟨identity, member⟩ := List.exists_mem_of_length_pos (by omega : 0 < identities.length)
    exact nobody (getNAuthorities_pos_of_signed (signed identity member))
  rw [Prod.mk.injEq, none, zero, if_pos rfl] at outcome
  obtain ⟨identities, _, length, signed⟩ := majority (Or.inr outcome.1.symm)
  obtain ⟨identity, member⟩ := List.exists_mem_of_length_pos (by omega : 0 < identities.length)
  exact nobody (getNAuthorities_pos_of_signed (signed identity member))

/-- The check accepts exactly what a majority of the authorities signed, exactly when there are
authorities and no signature that opens names an algorithm without a digest. -/
theorem consensus_signature_iff (env : SignatureEnv) (digests : CommonDigests)
    {dirSources : List (Bytes 20)} {tokens : List SignatureToken}
    (parsed : parseSignatures dirSources tokens = some voters) :
    AcceptsMajority env ⟨digests, voters⟩
      ↔ 0 < getNAuthorities env ∧ InRange env digests voters := by
  obtain ⟨sigsFirst, sigsFresh⟩ := parseSignatures_fresh parsed
  constructor
  · intro accepts
    exact ⟨accepts.authorities sigsFirst sigsFresh, accepts.inRange sigsFresh⟩
  · rintro ⟨authorities, inRange⟩
    cases all : voters.mapM (checkVoter env digests) with
    | none =>
      obtain ⟨voter, member, failed⟩ := mapM_eq_none all
      obtain ⟨sig, inside, present, outside, cert, bytes, checkable, opens⟩ :=
        checkVoter_none (fun sig inside => (sigsFresh voter member sig inside).2) failed
      have some := inRange voter member sig inside present cert bytes checkable opens
      rw [outside] at some
      cases some
    | some classes =>
      have many := signedByMany_good env digests sigsFirst sigsFresh
      rw [countP_isGood all] at many
      refine ⟨_, _, by rw [networkstatusCheckConsensusSignature, all]; rfl, ?_, ?_⟩
      · intro accepted
        apply many.mono
        by_contra few
        rw [if_neg (by omega), if_neg few] at accepted
        split at accepted
        · rcases accepted with zero | one
          · cases zero
          · cases one
        · rcases accepted with zero | one
          · cases zero
          · cases one
      · intro complete
        apply many.mono
        by_contra few
        rw [if_neg (by omega)] at complete
        split at complete
        · cases complete
        split at complete <;> cases complete

/-! ## Documents -/

/-- The hexadecimal digest of a byte and zeros. -/
def hexDigest (byte : UInt8) : List UInt8 := base16Encode (fit 20 [byte]).val

/-- A signature by the authority 1 with the signing key 2. -/
def signatureToken : SignatureToken where
  args := [hexDigest 1, hexDigest 2]
  objectType := some (textBytes "SIGNATURE")
  objectBody := List.replicate 128 9

def noDigests : CommonDigests := ⟨fit 32 [], fit 32 []⟩

/-- One authority, whose key recovers the digests above from every signature. -/
def oneAuthority : SignatureEnv where
  trustedDirServers := [⟨fit 20 [1], true⟩]
  trustedDirCerts := [(fit 20 [1], [⟨fit 20 [1], fit 20 [2], [], 100⟩])]
  now := 0
  pkDigest := fun _ => some (fit 20 [2])
  publicChecksig := fun _ _ => some (fit 32 []).val

/-- No authority is known. -/
def noAuthorities : SignatureEnv := { oneAuthority with trustedDirServers := [] }

def signedVoters : List VoterInfo :=
  [⟨fit 20 [1], [⟨fit 20 [1], fit 20 [2], .sha1, some (List.replicate 128 9), false, false⟩]⟩]

theorem consensus_signature_iff_one :
    networkstatusCheckConsensusSignature oneAuthority ⟨noDigests, signedVoters⟩
        = some (1, signedVoters.map fun voter => { voter with
          sigs := voter.sigs.map fun sig => { sig with goodSignature := true } })
      ∧ AcceptsMajority oneAuthority ⟨noDigests, signedVoters⟩ := by
  refine ⟨by decide +kernel, ?_⟩
  have parsed : parseSignatures [fit 20 [1]] [signatureToken] = some signedVoters := by
    decide +kernel
  apply (consensus_signature_iff oneAuthority noDigests parsed).mpr
  refine ⟨by decide, ?_⟩
  intro voter member sig inside _ _ _ _ _
  rw [signedVoters, List.mem_singleton] at member
  rw [member, List.mem_singleton] at inside
  rw [inside]
  rfl

/-- Without authorities the check accepts a document that nobody signed. -/
theorem consensus_signature_accepted_unsigned :
    ¬∀ (env : SignatureEnv) (digests : CommonDigests) (dirSources : List (Bytes 20))
      (tokens : List SignatureToken) (voters : List VoterInfo),
      parseSignatures dirSources tokens = some voters →
      ∀ result checked, networkstatusCheckConsensusSignature env ⟨digests, voters⟩
          = some (result, checked) → result = 0 ∨ result = 1 →
        SignedByMany env ⟨digests, voters⟩ (getNAuthorities env / 2 + 1) := by
  intro claim
  have accepted : networkstatusCheckConsensusSignature noAuthorities ⟨noDigests, signedVoters⟩
      = some (1, signedVoters) := by decide +kernel
  obtain ⟨identities, _, length, signed⟩ := claim noAuthorities noDigests [fit 20 [1]]
    [signatureToken] signedVoters (by decide +kernel) 1 signedVoters accepted (Or.inr rfl)
  have nobody : getNAuthorities noAuthorities = 0 := by decide
  obtain ⟨identity, member⟩ := List.exists_mem_of_length_pos (by omega : 0 < identities.length)
  have somebody := getNAuthorities_pos_of_signed (signed identity member)
  omega

end

end RendezMix.Guarantees.ConsensusMajority
