import RendezMix.Source.Address

/-!
# Address policies

The decision of an exit policy on an address and a port, and the removal of the
entries that can be left out (`policies.c`). A port or an address that is not known
is 0 or missing.
-/
namespace RendezMix.Source

inductive AddrPolicyAction
  | accept
  | reject
  deriving DecidableEq, Repr

structure AddrPolicy where
  policyType : AddrPolicyAction
  isPrivate : Bool
  maskbits : UInt8
  addr : TorAddr
  prtMin : UInt16
  prtMax : UInt16
  deriving DecidableEq

inductive AddrPolicyResult
  | accepted
  | rejected
  | probablyAccepted
  | probablyRejected
  deriving DecidableEq, Repr

def AddrPolicyAction.result : AddrPolicyAction → AddrPolicyResult
  | .accept => .accepted
  | .reject => .rejected

/-- Whether an entry matches an address that is known. -/
def AddrPolicy.matchesAddr (ap : AddrPolicy) (addr : TorAddr) : Bool :=
  torAddrCompareMasked addr ap.addr ap.maskbits .exact = 0

def compareKnownTorAddrToAddrPolicy (addr : TorAddr) (port : UInt16) :
    List AddrPolicy → AddrPolicyResult
  | [] => .accepted
  | tmpe :: policy =>
    if tmpe.matchesAddr addr ∧ port ≥ tmpe.prtMin ∧ port ≤ tmpe.prtMax then tmpe.policyType.result
    else compareKnownTorAddrToAddrPolicy addr port policy

/-- The answer of an entry that matches for certain, after those that may have matched. -/
def certainMatch (policyType : AddrPolicyAction) (maybeAccept maybeReject : Bool) :
    AddrPolicyResult :=
  match policyType with
  | .accept => if maybeReject then .probablyAccepted else .accepted
  | .reject => if maybeAccept then .probablyRejected else .rejected

/-- The loop of the two comparisons in which the address or the port is not known: an
entry may match, and some entries do so for certain. -/
def compareUncertain (mayMatch certain : AddrPolicy → Bool) (maybeAccept maybeReject : Bool) :
    List AddrPolicy → AddrPolicyResult
  | [] => if maybeReject then .probablyAccepted else .accepted
  | tmpe :: policy =>
    if mayMatch tmpe then
      if certain tmpe then certainMatch tmpe.policyType maybeAccept maybeReject
      else if tmpe.policyType = .reject then
        compareUncertain mayMatch certain maybeAccept true policy
      else compareUncertain mayMatch certain true maybeReject policy
    else compareUncertain mayMatch certain maybeAccept maybeReject policy

def compareKnownTorAddrToAddrPolicyNoport (addr : TorAddr) (policy : List AddrPolicy) :
    AddrPolicyResult :=
  compareUncertain (fun tmpe => tmpe.matchesAddr addr)
    (fun tmpe => tmpe.prtMin ≤ 1 ∧ tmpe.prtMax ≥ 65535) false false policy

def compareUnknownTorAddrToAddrPolicy (port : UInt16) (policy : List AddrPolicy) :
    AddrPolicyResult :=
  compareUncertain (fun tmpe => tmpe.prtMin ≤ port ∧ port ≤ tmpe.prtMax)
    (fun tmpe => tmpe.maskbits = 0) false false policy

def compareTorAddrToAddrPolicy (addr : Option TorAddr) (port : UInt16)
    (policy : Option (List AddrPolicy)) : AddrPolicyResult :=
  match policy with
  | none => .accepted
  | some policy =>
    match addr.filter fun addr => !torAddrIsNull addr with
    | none => if port = 0 then .rejected else compareUnknownTorAddrToAddrPolicy port policy
    | some addr =>
      if port = 0 then compareKnownTorAddrToAddrPolicyNoport addr policy
      else compareKnownTorAddrToAddrPolicy addr port policy

/-! ## Redundant entries -/

def addrPolicyCovers (a b : AddrPolicy) : Bool :=
  if torAddrFamily a.addr ≠ torAddrFamily b.addr then false
  else if a.maskbits > b.maskbits then false
  else if torAddrCompareMasked a.addr b.addr a.maskbits .exact ≠ 0 then false
  else a.prtMin ≤ b.prtMin ∧ a.prtMax ≥ b.prtMax

def addrPolicyIntersects (a b : AddrPolicy) : Bool :=
  let minbits := if a.maskbits < b.maskbits then a.maskbits else b.maskbits
  if torAddrCompareMasked a.addr b.addr minbits .exact ≠ 0 then false
  else if a.prtMax < b.prtMin ∨ b.prtMax < a.prtMin then false
  else true

/-- Step one of `exit_policy_remove_redundancies`, from index `i` on: everything of a
family after an entry for all its addresses and ports goes. -/
def removeAfterCatchAll (dest : List AddrPolicy) (i : Nat) (killV4 killV6 : Bool) :
    List AddrPolicy :=
  if _inside : i < dest.length then
    let ap := dest[i]
    let family := torAddrFamily ap.addr
    if (family = .inet ∧ killV4 = true) ∨ (family = .inet6 ∧ killV6 = true) then
      removeAfterCatchAll (dest.eraseIdx i) i killV4 killV6
    else if ap.maskbits = 0 ∧ ap.prtMin ≤ 1 ∧ ap.prtMax ≥ 65535 then
      if family = .inet then removeAfterCatchAll dest (i + 1) true killV6
      else if family = .inet6 then removeAfterCatchAll dest (i + 1) killV4 true
      else removeAfterCatchAll dest (i + 1) killV4 killV6
    else removeAfterCatchAll dest (i + 1) killV4 killV6
  else dest
termination_by dest.length - i
decreasing_by all_goals grind

/-- The inner loop of step two, from index `j` on. -/
def removeCoveredBy (ap : AddrPolicy) (dest : List AddrPolicy) (j : Nat) : List AddrPolicy :=
  if _inside : j < dest.length then
    if addrPolicyCovers ap dest[j] then removeCoveredBy ap (dest.eraseIdx j) j
    else removeCoveredBy ap dest (j + 1)
  else dest
termination_by dest.length - j
decreasing_by all_goals grind

theorem removeCoveredBy_length (ap : AddrPolicy) (dest : List AddrPolicy) (j : Nat) :
    (removeCoveredBy ap dest j).length ≤ dest.length := by
  fun_induction removeCoveredBy ap dest j with
  | case1 dest j inside covered ih => exact le_trans ih (List.length_eraseIdx_le dest j)
  | case2 dest j inside uncovered ih => exact ih
  | case3 => exact le_refl _

/-- Step two, from index `i` on: what an entry covers goes from behind it. -/
def removeCovered (dest : List AddrPolicy) (i : Nat) : List AddrPolicy :=
  if _inside : i + 1 < dest.length then
    removeCovered (removeCoveredBy dest[i] dest (i + 1)) (i + 1)
  else dest
termination_by dest.length - i
decreasing_by
  have := removeCoveredBy_length dest[i] dest (i + 1)
  omega

/-- The inner loop of step three, from index `j` on: whether an entry of the type of `ap`
covers it before one of the other type intersects with it. -/
def coveredLater (ap : AddrPolicy) (dest : List AddrPolicy) (j : Nat) : Bool :=
  if _inside : j < dest.length then
    let tmp := dest[j]
    if ap.policyType ≠ tmp.policyType then
      if addrPolicyIntersects ap tmp then false else coveredLater ap dest (j + 1)
    else if addrPolicyCovers tmp ap then true
    else coveredLater ap dest (j + 1)
  else false
termination_by dest.length - j

/-- Step three, from index `i` on. -/
def removeCoveredLater (dest : List AddrPolicy) (i : Nat) : List AddrPolicy :=
  if _inside : i + 1 < dest.length then
    if coveredLater dest[i] dest (i + 1) then removeCoveredLater (dest.eraseIdx i) i
    else removeCoveredLater dest (i + 1)
  else dest
termination_by dest.length - i
decreasing_by all_goals grind

def exitPolicyRemoveRedundancies (dest : List AddrPolicy) : List AddrPolicy :=
  removeCoveredLater (removeCovered (removeAfterCatchAll dest 0 false false) 0) 0

end RendezMix.Source
