import RendezMix.Source.VoteDocument
import RendezMix.Source.Smartlist

/-!
# The description of a router that most votes list

`compare_vote_rs` and `compute_routerstatus_consensus` of `feature/dirauth/dirvote.c`. A
`qsort` is any function that sorts by the comparison it is given; a failed assertion is
`none`.
-/
namespace RendezMix.Source
open Library.ByteStrings Library.Decimals Library.Sorting
open Std (TransCmp)

abbrev VoteRs := VoteRouterstatus RouterClaim

/-- `CMP_FIELD` with types of `bits` bits. -/
def cmpField (bits : Nat) (aval bval : Int) : Ordering :=
  let r2 := Int.bmod (bval - aval) (2 ^ bits)
  if r2 < 0 then .lt else if r2 > 0 then .gt else .eq

/-- The sign of a result. -/
def orderingOf (r : Int) : Ordering := compare r 0

def torAddrCompare (addr1 addr2 : TorAddr) (how : TorAddrComparison) : Int :=
  torAddrCompareMasked addr1 addr2 128 how

def compareVoteRs (a b : VoteRs) : Ordering :=
  (compareDigests a.identityDigest b.identityDigest).then <|
  (compareDigests a.claim.descriptorDigest b.claim.descriptorDigest).then <|
  (cmpField 64 a.claim.publishedOn.val b.claim.publishedOn.val).then <|
  (strcmp b.claim.nickname a.claim.nickname).then <|
  (orderingOf (torAddrCompare (.inet a.claim.ipv4Addr) (.inet b.claim.ipv4Addr) .exact)).then <|
  (cmpField 32 a.claim.ipv4Orport.toNat b.claim.ipv4Orport.toNat).then <|
  cmpField 32 a.claim.ipv4Dirport.toNat b.claim.ipv4Dirport.toNat

/-- The address and port of an IPv6 OR port. -/
abbrev Ipv6Orport := Bytes 16 × UInt16

def compareOrports (a b : Ipv6Orport) : Ordering :=
  (orderingOf (torAddrCompare (.inet6 a.1) (.inet6 b.1) .exact)).then <|
  orderingOf ((b.2.toNat : Int) - a.2.toNat)

def compareDigests256 : Bytes 32 → Bytes 32 → Ordering := compareOn fun digest => digest.val

instance : TransCmp compareDigests256 :=
  inferInstanceAs (TransCmp (compareOn fun digest : Bytes 32 => digest.val))

def smartlistSortDigests256 (sl : List (Bytes 32)) : List (Bytes 32) :=
  (insertionSorter compareDigests256).sort sl

/-! ## The microdescriptor digest of an entry -/

/-- `strstr`: the text from the first occurrence of the pattern on. -/
def strstr (pattern : CString) : CString → Option CString
  | [] => if pattern = [] then some [] else none
  | c :: text => if pattern.isPrefixOf (c :: text) then some (c :: text) else strstr pattern text

def digest256FromBase64 (d64 : CString) : Option (Bytes 32) :=
  match base64Decode 32 d64 with
  | some digest => if digest.length = 32 then some (fit 32 digest) else none
  | none => none

def base64Digest256Len : Nat := 43

/-- What one line of the microdescriptor hashes has for the method: nothing, or the result. -/
def microdescHashLine (mstr : CString) (cp : CString) : Option (Option (Bytes 32)) :=
  let number := cp.takeWhile isDigit
  if number.length = mstr.length ∧ number = mstr then
    some ((strstr (textBytes " sha256=") cp).bind fun cp =>
      digest256FromBase64 ((cp.drop (textBytes " sha256=").length).take base64Digest256Len))
  else if number = [] then none
  else
    match _rest : cp.drop number.length with
    | 44 :: later => microdescHashLine mstr later
    | _ => none
termination_by cp.length
decreasing_by
  have shorter := congrArg List.length _rest
  rw [List.length_drop, List.length_cons] at shorter
  omega

/-- `vote_routerstatus_find_microdesc_hash` for `DIGEST_SHA256` -/
def voteRouterstatusFindMicrodescHash (vrs : VoteRs) (method : Nat) : Option (Bytes 32) :=
  (vrs.claim.microdesc.findSome? (microdescHashLine (decimal method))).join

/-! ## The winning description -/

/-- The variables of the loop of `compute_routerstatus_consensus`. -/
structure MostScan where
  most : Option VoteRs
  mostN : Nat
  mostPublished : Int
  cur : Option VoteRs
  curN : Nat

/-- Compare the run that ends with the best one. -/
def MostScan.settle (s : MostScan) : MostScan :=
  match s.cur with
  | none => s
  | some cur =>
    if s.curN > s.mostN ∨ (s.curN = s.mostN ∧ cur.claim.publishedOn.val > s.mostPublished) then
      { s with most := some cur, mostN := s.curN, mostPublished := cur.claim.publishedOn.val }
    else s

def MostScan.item (s : MostScan) (rs : VoteRs) : MostScan :=
  match s.cur with
  | some cur =>
    if compareVoteRs cur rs = .eq then { s with curN := s.curN + 1 }
    else { s.settle with cur := some rs, curN := 1 }
  | none => { s with cur := some rs, curN := 1 }

/-- The IPv6 OR port of an entry that has one. -/
def ipv6OrportOf (rs : VoteRs) : Option Ipv6Orport :=
  match rs.claim.ipv6Addr with
  | none => none
  | some addr =>
    if !torAddrIsNull (.inet6 addr) ∧ rs.claim.ipv6Orport ≠ 0 then some (addr, rs.claim.ipv6Orport)
    else none

/-- What the votes for a router agree on. -/
structure RouterstatusConsensus where
  most : VoteRs
  microdescDigest256 : Bytes 32
  bestAltOrport : TorAddrPort

/-- `compute_routerstatus_consensus`; without a winner the output variables keep their values. -/
def computeRouterstatusConsensus (sortVoteRs : Sorter compareVoteRs)
    (sortOrports : Sorter compareOrports) (votes : List VoteRs) (consensusMethod : Nat) :
    Option RouterstatusConsensus :=
  let votes := sortVoteRs.sort votes
  match (votes.foldl MostScan.item ⟨none, 0, 0, none, 0⟩).settle.most with
  | none => none
  | some most =>
    let altOrports := (votes.filter fun rs => compareVoteRs most rs = .eq).filterMap ipv6OrportOf
    let digests := (votes.filter fun rs => compareVoteRs rs most = .eq).filterMap fun rs =>
      voteRouterstatusFindMicrodescHash rs consensusMethod
    some
      { most := most
        microdescDigest256 :=
          ((smartlistGetMostFrequent compareDigests256 (smartlistSortDigests256 digests)).1).getD
            (fit 32 [])
        bestAltOrport :=
          match (smartlistGetMostFrequent compareOrports (sortOrports.sort altOrports)).1 with
          | some altOrport => ⟨.inet6 altOrport.1, altOrport.2⟩
          | none => ⟨.unspec, 0⟩ }

end RendezMix.Source
