import RendezMix.Source.Addressmap

/-!
# Rewriting addresses

`addressmap_match_superdomains` and `addressmap_rewrite` of `feature/client/addressmap.c`. The
address is a string in a buffer, which both write to.
-/
namespace RendezMix.Source.AddressRewrite
open Library ByteStrings Addressmap

/-! ## Strings in a buffer -/

def strlcpy (src : CString) (siz : Nat) : CString := src.take (siz - 1)

def strlcat (dst src : CString) (siz : Nat) : CString := dst ++ src.take (siz - dst.length - 1)

/-! ## Matching -/

def dot : UInt8 := 46

/-- `addressmap_match_superdomains` from a `cp` on, before which `before_` stands. It gives the
entry and the address as it leaves it. -/
def matchSuperdomainsFrom (addressmap : List (CString × AddressmapEntry)) (before_ : CString) :
    CString → Option AddressmapEntry × CString
  | [] => (none, before_)
  | c :: cp =>
    if c = dot then
      match KeyedMap.get addressmap (torStrlower cp) with
      | some val =>
        if val.srcWildcard then
          if val.dstWildcard then (some val, before_) else (some val, before_ ++ c :: cp)
        else matchSuperdomainsFrom addressmap (before_ ++ [c]) cp
      | none => matchSuperdomainsFrom addressmap (before_ ++ [c]) cp
    else matchSuperdomainsFrom addressmap (before_ ++ [c]) cp

def addressmapMatchSuperdomains (addressmap : List (CString × AddressmapEntry))
    (address : CString) : Option AddressmapEntry × CString :=
  matchSuperdomainsFrom addressmap [] address

/-! ## Rewriting -/

def amrFlagUseIpv4Dns : UInt32 := 1
def amrFlagUseIpv6Dns : UInt32 := 2
def amrFlagUseMapaddress : UInt32 := 4
def amrFlagUseAutomap : UInt32 := 8
def amrFlagUseTrackexit : UInt32 := 16

variable (text : AddressText) (addressmap : List (CString × AddressmapEntry)) (flags : UInt32)

/-- The switch over the source of an entry: whether the flags let its mapping be used. -/
def mappingUsable (source : AddressmapEntrySource) (newAddress : CString) : Bool :=
  match source with
  | .dns =>
    match (text.torAddrParse newAddress).map torAddrFamily with
    | some .inet => flags &&& amrFlagUseIpv4Dns ≠ 0
    | some .inet6 => flags &&& amrFlagUseIpv6Dns ≠ 0
    | _ => true
  | .controller | .torrc => flags &&& amrFlagUseMapaddress ≠ 0
  | .automap => flags &&& amrFlagUseAutomap ≠ 0
  | .trackexit => flags &&& amrFlagUseTrackexit ≠ 0

/-- How one iteration of the loop ends. -/
inductive Iteration
  | done (address : CString)
  | rewritten (ent : AddressmapEntry) (address : CString)

/-- What is done with an entry that has been found, and the address as the search left it. -/
def rewriteWith (maxlen : Nat) (exactMatch : Bool) (ent : AddressmapEntry) (newAddress : CString)
    (address : CString) : Iteration :=
  if mappingUsable text flags ent.source newAddress then
    if ent.dstWildcard ∧ exactMatch = false then
      .rewritten ent (strlcat (strlcat address [dot] maxlen) newAddress maxlen)
    else .rewritten ent (strlcpy newAddress maxlen)
  else .done address

/-- The part of an iteration that has no exact match to use. -/
def rewriteSuperdomain (maxlen : Nat) (address : CString) : Iteration :=
  match addressmapMatchSuperdomains addressmap address with
  | (none, address) => .done address
  | (some ent, address) =>
    match ent.newAddress with
    | none => .done address
    | some newAddress => rewriteWith text flags maxlen false ent newAddress address

/-- A rule like `*.example.com example.com` that has been used. -/
def RuleComplete (ent : AddressmapEntry) (address newAddress : CString) : Prop :=
  ent.srcWildcard = true ∧ ent.dstWildcard = false ∧ SameCase address newAddress

instance (ent : AddressmapEntry) (address newAddress : CString) :
    Decidable (RuleComplete ent address newAddress) :=
  inferInstanceAs (Decidable (_ ∧ _))

/-- One iteration of the loop of `addressmap_rewrite`. -/
def rewriteOnce (maxlen : Nat) (address : CString) : Iteration :=
  match KeyedMap.get addressmap address with
  | none => rewriteSuperdomain text addressmap flags maxlen address
  | some ent =>
    match ent.newAddress with
    | none => rewriteSuperdomain text addressmap flags maxlen address
    | some newAddress =>
      if RuleComplete ent address newAddress then .done address
      else rewriteWith text flags maxlen true ent newAddress address

def dotExit : CString := textBytes ".exit"

/-- The variables of the loop. -/
structure Rewriting where
  address : CString
  rewrites : Nat
  expires : Int
  exitSource : Option AddressmapEntrySource
  deriving DecidableEq

/-- What an iteration that rewrites does to the variables. -/
def Rewriting.next (addrOrig : CString) (r : Rewriting) (ent : AddressmapEntry)
    (address : CString) : Rewriting where
  address := address
  rewrites := r.rewrites + 1
  expires := if ent.expires > 1 ∧ ent.expires < r.expires then ent.expires else r.expires
  exitSource :=
    if strEndsWith address dotExit = true ∧ strEndsWith addrOrig dotExit = false
        ∧ r.exitSource = none then
      some ent.source
    else r.exitSource

/-- The loop of `addressmap_rewrite` with the iterations that are left. -/
def rewriteLoop (maxlen : Nat) (addrOrig : CString) : Nat → Rewriting → Rewriting
  | 0, r => r
  | left + 1, r =>
    match rewriteOnce text addressmap flags maxlen r.address with
    | .done address => { r with address := address }
    | .rewritten ent address => rewriteLoop maxlen addrOrig left (r.next addrOrig ent address)

/-- `addressmap_rewrite`; besides the variables it gives whether there were any rewrites. -/
def addressmapRewrite (address : CString) (maxlen : Nat) : Rewriting × Bool :=
  let r := rewriteLoop text addressmap flags maxlen address 16 ⟨address, 0, timeMax, none⟩
  (r, decide (r.rewrites > 0))

end RendezMix.Source.AddressRewrite
