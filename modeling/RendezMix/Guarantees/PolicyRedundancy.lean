import Mathlib.Data.List.InsertIdx
import RendezMix.Library.FirstMatch
import RendezMix.Source.Policies

/-!
# Removing redundant policy entries

`exit_policy_remove_redundancies` keeps the decision of a policy on every address and
port that is known. Its three steps take an entry out when an earlier entry matches
whatever this one matches, or when a later entry of its type does and no entry of the
other type that intersects with it stands in between. Each turn of a loop takes an entry
out or goes on to the next one, so that all of them end.
-/
namespace RendezMix.Guarantees
open Source Library.FirstMatch

/-- Whether an entry matches a known address and port. -/
def policyHits (ap : AddrPolicy) (query : TorAddr × UInt16) : Bool :=
  ap.matchesAddr query.1 ∧ query.2 ≥ ap.prtMin ∧ query.2 ≤ ap.prtMax

/-- The policy as a list of rules of which the first match decides. -/
def decision (policy : List AddrPolicy) (query : TorAddr × UInt16) : AddrPolicyResult :=
  firstMatch policyHits (fun ap => ap.policyType.result) .accepted policy query

section

variable {query : TorAddr × UInt16} {a b : AddrPolicy}

theorem compareKnown_eq_decision (addr : TorAddr) (port : UInt16) (policy : List AddrPolicy) :
    compareKnownTorAddrToAddrPolicy addr port policy = decision policy (addr, port) := by
  induction policy with
  | nil => rfl
  | cons tmpe policy ih =>
    unfold compareKnownTorAddrToAddrPolicy
    rw [ih, decision, decision, firstMatch]
    simp only [policyHits, decide_eq_true_eq]

theorem hits_iff (ap : AddrPolicy) (query : TorAddr × UInt16) :
    policyHits ap query = true ↔ SamePrefix ap.maskbits query.1 ap.addr
      ∧ ap.prtMin ≤ query.2 ∧ query.2 ≤ ap.prtMax := by
  unfold policyHits AddrPolicy.matchesAddr SamePrefix
  simp only [decide_eq_true_eq]

/-! ## Cover and intersection -/

theorem addrPolicyCovers_iff (a b : AddrPolicy) :
    addrPolicyCovers a b = true ↔ a.maskbits ≤ b.maskbits ∧ SamePrefix a.maskbits a.addr b.addr
      ∧ a.prtMin ≤ b.prtMin ∧ b.prtMax ≤ a.prtMax := by
  unfold addrPolicyCovers
  split
  next apart =>
    apply iff_of_false Bool.false_ne_true
    exact fun covers => apart covers.2.1.family
  next =>
    split
    next longer =>
      apply iff_of_false Bool.false_ne_true
      exact fun covers => absurd covers.1 (UInt8.not_le.mpr longer)
    next shorter =>
      split
      next differ =>
        apply iff_of_false Bool.false_ne_true
        exact fun covers => differ covers.2.1
      next same =>
        have prefixes : SamePrefix a.maskbits a.addr b.addr := not_not.mp same
        rw [decide_eq_true_eq, and_iff_right (UInt8.not_lt.mp shorter), and_iff_right prefixes]

theorem addrPolicyCovers_hits (covers : addrPolicyCovers a b = true)
    (hit : policyHits b query = true) : policyHits a query = true := by
  rw [addrPolicyCovers_iff] at covers
  rw [hits_iff] at hit ⊢
  obtain ⟨shorter, same, low, high⟩ := covers
  obtain ⟨matched, above, below⟩ := hit
  exact ⟨(matched.mono shorter).trans same.symm, UInt16.le_trans low above,
    UInt16.le_trans below high⟩

theorem addrPolicyIntersects_of_hits (first : policyHits a query = true)
    (second : policyHits b query = true) : addrPolicyIntersects a b = true := by
  rw [hits_iff] at first second
  obtain ⟨firstAddr, firstLow, firstHigh⟩ := first
  obtain ⟨secondAddr, secondLow, secondHigh⟩ := second
  have minbits : SamePrefix (if a.maskbits < b.maskbits then a.maskbits else b.maskbits)
      a.addr b.addr := by
    split
    next less => exact firstAddr.symm.trans (secondAddr.mono (UInt8.le_of_lt less))
    next more => exact (firstAddr.mono (UInt8.not_lt.mp more)).symm.trans secondAddr
  have same : ¬ torAddrCompareMasked a.addr b.addr
      (if a.maskbits < b.maskbits then a.maskbits else b.maskbits) .exact ≠ 0 := not_not.mpr minbits
  unfold addrPolicyIntersects
  simp only
  rw [if_neg same, if_neg]
  rw [not_or, UInt16.not_lt, UInt16.not_lt]
  exact ⟨UInt16.le_trans secondLow firstHigh, UInt16.le_trans firstLow secondHigh⟩

end

/-! ## Taking one entry out -/

variable (dest : List AddrPolicy) {ap : AddrPolicy} (i : Nat)

section

variable {family : SaFamily} {query : TorAddr × UInt16}

section

variable (inside : i < dest.length)

include inside

theorem eraseIdx_split :
    dest = dest.take i ++ dest[i] :: dest.drop (i + 1)
      ∧ dest.eraseIdx i = dest.take i ++ dest.drop (i + 1) := by
  constructor
  · rw [← List.drop_eq_getElem_cons inside, List.take_append_drop]
  · exact List.eraseIdx_eq_take_drop_succ dest i

theorem decision_eraseIdx_shadowed (shadowed : policyHits dest[i] query = true →
      ∃ earlier ∈ dest.take i, policyHits earlier query = true) :
    decision (dest.eraseIdx i) query = decision dest query := by
  obtain ⟨whole, erased⟩ := eraseIdx_split dest i inside
  rw [erased]
  conv_rhs => rw [whole]
  exact firstMatch_drop_shadowed _ _ shadowed

end

/-- What the inner loop of step three has found when it says that an entry goes. -/
theorem coveredLater_found {dest : List AddrPolicy} {j : Nat}
    (covered : coveredLater ap dest j = true) :
    ∃ between wider rest, dest.drop j = between ++ wider :: rest
      ∧ wider.policyType = ap.policyType ∧ addrPolicyCovers wider ap = true
      ∧ ∀ other ∈ between, other.policyType = ap.policyType
        ∨ addrPolicyIntersects ap other = false := by
  fun_induction coveredLater ap dest j with
  | case1 => cases covered
  | case2 j inside tmp differ apart ih =>
    obtain ⟨between, wider, rest, split, sameType, covers, clear⟩ := ih covered
    refine ⟨tmp :: between, wider, rest, ?_, sameType, covers, ?_⟩
    · rw [List.drop_eq_getElem_cons inside, split]
      rfl
    · intro other member
      cases member with
      | head => exact Or.inr (Bool.eq_false_iff.mpr apart)
      | tail _ member => exact clear other member
  | case3 j inside tmp same covers =>
    refine ⟨[], tmp, dest.drop (j + 1), ?_, (not_not.mp same).symm, covers, ?_⟩
    · rw [List.drop_eq_getElem_cons inside]
      rfl
    · intro other member
      cases member
  | case4 j inside tmp same uncovered ih =>
    obtain ⟨between, wider, rest, split, sameType, covers, clear⟩ := ih covered
    refine ⟨tmp :: between, wider, rest, ?_, sameType, covers, ?_⟩
    · rw [List.drop_eq_getElem_cons inside, split]
      rfl
    · intro other member
      cases member with
      | head => exact Or.inl (not_not.mp same).symm
      | tail _ member => exact clear other member
  | case5 => cases covered

theorem decision_eraseIdx_coveredLater (inside : i < dest.length)
    (covered : coveredLater dest[i] dest (i + 1) = true) (query : TorAddr × UInt16) :
    decision (dest.eraseIdx i) query = decision dest query := by
  obtain ⟨between, wider, rest, later, sameType, covers, clear⟩ := coveredLater_found covered
  obtain ⟨whole, erased⟩ := eraseIdx_split dest i inside
  rw [erased]
  conv_rhs => rw [whole]
  rw [later]
  apply firstMatch_drop_subsumed
  · exact addrPolicyCovers_hits covers
  · exact congrArg AddrPolicyAction.result sameType
  · intro other member hit otherHit
    cases clear other member with
    | inl same => exact congrArg AddrPolicyAction.result same
    | inr apart =>
      rw [addrPolicyIntersects_of_hits hit otherHit] at apart
      cases apart

/-! ## The three steps -/

/-- An entry for every address of the family and every port. -/
def CatchAll (family : SaFamily) (ap : AddrPolicy) : Prop :=
  torAddrFamily ap.addr = family ∧ ap.maskbits = 0 ∧ ap.prtMin ≤ 1 ∧ ap.prtMax ≥ 65535

theorem port_mem_all (low : ap.prtMin ≤ 1) (high : ap.prtMax ≥ 65535) {port : UInt16}
    (known : port ≠ 0) : ap.prtMin ≤ port ∧ port ≤ ap.prtMax := by
  constructor
  · rw [UInt16.le_iff_toNat_le] at low ⊢
    have positive : port.toNat ≠ 0 := fun zero => known (UInt16.toNat_inj.mp zero)
    exact le_trans low (Nat.one_le_iff_ne_zero.mpr positive)
  · apply UInt16.le_trans _ high
    rw [UInt16.le_iff_toNat_le]
    exact Nat.le_of_lt_succ port.toNat_lt

theorem CatchAll.hits (all : CatchAll family ap) (notUnix : family ≠ .unix)
    (sameFamily : torAddrFamily query.1 = family) (known : query.2 ≠ 0) :
    policyHits ap query = true := by
  obtain ⟨apFamily, noMask, low, high⟩ := all
  rw [hits_iff, noMask]
  refine ⟨samePrefix_zero (sameFamily.trans apFamily.symm) ?_, port_mem_all low high known⟩
  rwa [sameFamily]

theorem mem_take_succ {dest : List AddrPolicy} {i : Nat} (member : ap ∈ dest.take i) :
    ap ∈ dest.take (i + 1) :=
  (List.take_prefix_take_left (Nat.le_succ i)).subset member

theorem getElem_mem_take_succ (inside : i < dest.length) : dest[i] ∈ dest.take (i + 1) := by
  rw [← List.take_append_getElem inside]
  exact List.mem_append_right _ List.mem_cons_self

theorem take_eraseIdx : (dest.eraseIdx i).take i = dest.take i :=
  List.take_eraseIdx_eq_take_of_le dest i i (le_refl i)

/-- What step one has seen when it kills the later entries of a family. -/
def Killed (family : SaFamily) (kill : Bool) (seen : List AddrPolicy) : Prop :=
  kill = true → ∃ ap ∈ seen, CatchAll family ap

theorem Killed.next {kill : Bool} {dest : List AddrPolicy} {i : Nat}
    (killed : Killed family kill (dest.take i)) : Killed family kill (dest.take (i + 1)) := by
  intro set
  obtain ⟨ap, member, all⟩ := killed set
  exact ⟨ap, mem_take_succ member, all⟩

end

section

variable (query : TorAddr × UInt16)

theorem removeAfterCatchAll_decision (killV4 killV6 : Bool)
    (v4 : Killed .inet killV4 (dest.take i)) (v6 : Killed .inet6 killV6 (dest.take i))
    (query : TorAddr × UInt16) (known : query.2 ≠ 0) :
    decision (removeAfterCatchAll dest i killV4 killV6) query = decision dest query := by
  fun_induction removeAfterCatchAll dest i killV4 killV6 with
  | case1 dest i killV4 killV6 inside ap family dead ih =>
    rw [take_eraseIdx] at ih
    rw [ih v4 v6]
    apply decision_eraseIdx_shadowed dest i inside
    intro hit
    have sameFamily : torAddrFamily query.1 = family := ((hits_iff ap query).mp hit).1.family
    cases dead with
    | inl dead =>
      obtain ⟨all, member, catchAll⟩ := v4 dead.2
      exact ⟨all, member, catchAll.hits (by decide) (sameFamily.trans dead.1) known⟩
    | inr dead =>
      obtain ⟨all, member, catchAll⟩ := v6 dead.2
      exact ⟨all, member, catchAll.hits (by decide) (sameFamily.trans dead.1) known⟩
  | case2 dest i killV4 killV6 inside ap family alive all isV4 ih =>
    apply ih _ v6.next
    exact fun _ => ⟨ap, getElem_mem_take_succ dest i inside, isV4, all⟩
  | case3 dest i killV4 killV6 inside ap family alive all notV4 isV6 ih =>
    apply ih v4.next
    exact fun _ => ⟨ap, getElem_mem_take_succ dest i inside, isV6, all⟩
  | case4 dest i killV4 killV6 inside ap family alive all notV4 notV6 ih => exact ih v4.next v6.next
  | case5 dest i killV4 killV6 inside ap family alive notAll ih => exact ih v4.next v6.next
  | case6 => rfl

theorem removeCoveredBy_decision (ap : AddrPolicy) (dest : List AddrPolicy) (j : Nat)
    (earlier : ap ∈ dest.take j) (query : TorAddr × UInt16) :
    decision (removeCoveredBy ap dest j) query = decision dest query := by
  fun_induction removeCoveredBy ap dest j with
  | case1 dest j inside covers ih =>
    rw [take_eraseIdx] at ih
    rw [ih earlier]
    apply decision_eraseIdx_shadowed dest j inside
    exact fun hit => ⟨ap, earlier, addrPolicyCovers_hits covers hit⟩
  | case2 dest j inside uncovered ih => exact ih (mem_take_succ earlier)
  | case3 => rfl

theorem removeCovered_decision : decision (removeCovered dest i) query = decision dest query := by
  fun_induction removeCovered dest i with
  | case1 dest i inside ih =>
    rw [ih]
    apply removeCoveredBy_decision
    exact getElem_mem_take_succ dest i (by omega)
  | case2 => rfl

theorem removeCoveredLater_decision :
    decision (removeCoveredLater dest i) query = decision dest query := by
  fun_induction removeCoveredLater dest i with
  | case1 dest i inside covered ih =>
    rw [ih]
    exact decision_eraseIdx_coveredLater dest i (by omega) covered query
  | case2 dest i inside uncovered ih => exact ih
  | case3 => rfl

/-- Without its redundant entries a policy decides every known address and port as before. -/
theorem exitPolicyRemoveRedundancies_decision (policy : List AddrPolicy) (addr : TorAddr)
    (port : UInt16) (knownAddr : torAddrIsNull addr = false) (knownPort : port ≠ 0) :
    compareTorAddrToAddrPolicy (some addr) port (some (exitPolicyRemoveRedundancies policy))
      = compareTorAddrToAddrPolicy (some addr) port (some policy) := by
  have known : ∀ policy, compareTorAddrToAddrPolicy (some addr) port (some policy)
      = decision policy (addr, port) := by
    intro policy
    rw [compareTorAddrToAddrPolicy]
    simp only [Option.filter_some, knownAddr, Bool.not_false, if_true]
    rw [if_neg knownPort, compareKnown_eq_decision]
  rw [known, known, exitPolicyRemoveRedundancies, removeCoveredLater_decision,
    removeCovered_decision]
  apply removeAfterCatchAll_decision
  · intro unset
    cases unset
  · intro unset
    cases unset
  · exact knownPort

/-- Accept port 80 of 10.0.0.0/8, reject 10.1.0.0/16, accept all of 10.0.0.0/8, reject all. -/
def mixedPolicy : List AddrPolicy :=
  [⟨.accept, false, 8, .inet 0x0A000000, 80, 80⟩, ⟨.reject, false, 16, .inet 0x0A010000, 1, 65535⟩,
    ⟨.accept, false, 8, .inet 0x0A000000, 1, 65535⟩, ⟨.reject, false, 0, .inet 0, 1, 65535⟩]

theorem exitPolicyRemoveRedundancies_decision_mixed :
    compareTorAddrToAddrPolicy (some (.inet 0x0A010203)) 80
        (some (exitPolicyRemoveRedundancies mixedPolicy))
      = compareTorAddrToAddrPolicy (some (.inet 0x0A010203)) 80 (some mixedPolicy) :=
  exitPolicyRemoveRedundancies_decision mixedPolicy (.inet 0x0A010203) 80 (by decide) (by decide)

end

end RendezMix.Guarantees
