import RendezMix.Guarantees.PolicyRedundancy

/-!
# Policy answers with partial knowledge

The comparisons that do not know the port or the address answer for certain when an
entry matches whatever is not known and the entries before it that may match agree with
it. An entry for all ports does so. An entry without a mask is taken to match all
addresses, but it matches those of its own family, so that an answer for an unknown
address is right only where the addresses of the other family are decided the same way.
-/
namespace RendezMix.Guarantees
open Source Library.FirstMatch

variable {mayMatch certain : AddrPolicy → Bool}

/-- `e` matches for certain, and what may match before it is of its type. -/
structure DecidesFor (mayMatch certain : AddrPolicy → Bool) (before : List AddrPolicy)
    (e : AddrPolicy) : Prop where
  may : mayMatch e = true
  sure : certain e = true
  agree : ∀ ap ∈ before, mayMatch ap = true →
    certain ap = false ∧ ap.policyType = e.policyType

/-- Whether an entry of the other type may have matched already. -/
def opposed (policyType : AddrPolicyAction) (maybeAccept maybeReject : Bool) : Bool :=
  match policyType with
  | .accept => maybeReject
  | .reject => maybeAccept

theorem certainMatch_eq_result (policyType answer : AddrPolicyAction)
    (maybeAccept maybeReject : Bool) :
    certainMatch policyType maybeAccept maybeReject = answer.result
      ↔ policyType = answer ∧ opposed answer maybeAccept maybeReject = false := by
  cases policyType <;> cases answer <;> cases maybeAccept <;> cases maybeReject <;> decide

variable {before : List AddrPolicy} (policy : List AddrPolicy) {e : AddrPolicy}

theorem DecidesFor.cons (decides : DecidesFor mayMatch certain before e) (ap : AddrPolicy)
    (agrees : mayMatch ap = true → certain ap = false ∧ ap.policyType = e.policyType) :
    DecidesFor mayMatch certain (ap :: before) e := by
  refine ⟨decides.may, decides.sure, ?_⟩
  rw [List.forall_mem_cons]
  exact ⟨agrees, decides.agree⟩

/-- An answer for certain comes from an entry that decides, or is the default. -/
theorem compareUncertain_eq_result (answer : AddrPolicyAction) (maybeAccept maybeReject : Bool)
    (answered : compareUncertain mayMatch certain maybeAccept maybeReject policy
      = answer.result) :
    opposed answer maybeAccept maybeReject = false
      ∧ ((answer = .accept ∧ ∀ ap ∈ policy, mayMatch ap = true → ap.policyType = .accept)
        ∨ ∃ before e after, policy = before ++ e :: after
          ∧ DecidesFor mayMatch certain before e ∧ e.policyType = answer) := by
  induction policy generalizing maybeAccept maybeReject with
  | nil =>
    rw [compareUncertain] at answered
    cases answer <;> cases maybeReject <;> simp_all [AddrPolicyAction.result, opposed]
  | cons tmpe policy ih =>
    -- an entry that decides nothing is put before the one that does
    have push : (mayMatch tmpe = true → certain tmpe = false ∧ tmpe.policyType = answer) →
        ((answer = .accept ∧ ∀ ap ∈ policy, mayMatch ap = true → ap.policyType = .accept)
          ∨ ∃ before e after, policy = before ++ e :: after
            ∧ DecidesFor mayMatch certain before e ∧ e.policyType = answer) →
        ((answer = .accept ∧ ∀ ap ∈ tmpe :: policy, mayMatch ap = true →
            ap.policyType = .accept)
          ∨ ∃ before e after, tmpe :: policy = before ++ e :: after
            ∧ DecidesFor mayMatch certain before e ∧ e.policyType = answer) := by
      intro agrees found
      rcases found with ⟨rfl, accepts⟩ | ⟨before, e, after, rfl, decides, rfl⟩
      · left
        rw [List.forall_mem_cons]
        exact ⟨rfl, fun may => (agrees may).2, accepts⟩
      · right
        exact ⟨tmpe :: before, e, after, rfl, decides.cons tmpe agrees, rfl⟩
    rw [compareUncertain] at answered
    split at answered
    next may =>
      split at answered
      next sure =>
        obtain ⟨same, unopposed⟩ := (certainMatch_eq_result _ _ _ _).mp answered
        refine ⟨unopposed, Or.inr ⟨[], tmpe, policy, rfl, ⟨may, sure, ?_⟩, same⟩⟩
        intro ap member
        cases member
      next unsure =>
        rw [Bool.not_eq_true] at unsure
        split at answered
        next rejects =>
          obtain ⟨unopposed, found⟩ := ih _ _ answered
          cases answer with
          | accept => cases unopposed
          | reject => exact ⟨unopposed, push (fun _ => ⟨unsure, rejects⟩) found⟩
        next accepts =>
          obtain ⟨unopposed, found⟩ := ih _ _ answered
          have accepts : tmpe.policyType = .accept := by
            cases type : tmpe.policyType with
            | accept => rfl
            | reject => exact absurd type accepts
          cases answer with
          | accept => exact ⟨unopposed, push (fun _ => ⟨unsure, accepts⟩) found⟩
          | reject => cases unopposed
    next cannot =>
      obtain ⟨unopposed, found⟩ := ih _ _ answered
      exact ⟨unopposed, push (fun may => absurd may cannot) found⟩

section

variable (decides : DecidesFor mayMatch certain before e) (after : List AddrPolicy)

include decides

theorem DecidesFor.answers (maybeAccept maybeReject : Bool)
    (unopposed : opposed e.policyType maybeAccept maybeReject = false) :
    compareUncertain mayMatch certain maybeAccept maybeReject (before ++ e :: after)
      = e.policyType.result := by
  induction before generalizing maybeAccept maybeReject with
  | nil =>
    rw [List.nil_append, compareUncertain, if_pos decides.may, if_pos decides.sure,
      certainMatch_eq_result]
    exact ⟨rfl, unopposed⟩
  | cons ap before ih =>
    have rest : DecidesFor mayMatch certain before e :=
      ⟨decides.may, decides.sure, fun ap member =>
        decides.agree ap (List.mem_cons_of_mem _ member)⟩
    rw [List.cons_append, compareUncertain]
    split
    next may =>
      obtain ⟨unsure, same⟩ := decides.agree ap List.mem_cons_self may
      rw [if_neg (by rw [unsure]; exact Bool.false_ne_true)]
      split
      next rejects =>
        apply ih rest
        rw [← same, rejects] at unopposed ⊢
        exact unopposed
      next accepts =>
        apply ih rest
        rw [← same] at unopposed ⊢
        cases type : ap.policyType with
        | accept =>
          rw [type] at unopposed
          exact unopposed
        | reject => exact absurd type accepts
    next => exact ih rest _ _ unopposed

theorem DecidesFor.known (query : TorAddr × UInt16) (hit : policyHits e query = true)
    (may : ∀ ap, policyHits ap query = true → mayMatch ap = true) :
    decision (before ++ e :: after) query = e.policyType.result := by
  have split : before ++ e :: after = (before ++ [e]) ++ after := by simp
  rw [decision, split]
  apply firstMatch_of_agree
  · intro ap member apHit
    rw [List.mem_append, List.mem_singleton] at member
    rcases member with member | rfl
    · rw [(decides.agree ap member (may ap apHit)).2]
    · rfl
  · exact ⟨e, by simp, hit⟩

end

section

variable (query : TorAddr × UInt16)

theorem decision_of_accepts
    (accepts : ∀ ap ∈ policy, policyHits ap query = true → ap.policyType = .accept) :
    decision policy query = .accepted := by
  apply firstMatch_of_all_agree
  intro ap member hit
  rw [accepts ap member hit]
  rfl

/-! ## A port that is not known -/

theorem compareKnownNoport_sound (addr : TorAddr) (answer : AddrPolicyAction)
    (answered : compareKnownTorAddrToAddrPolicyNoport addr policy = answer.result) (port : UInt16)
    (knownPort : port ≠ 0) : compareKnownTorAddrToAddrPolicy addr port policy = answer.result := by
  have may : ∀ ap, policyHits ap (addr, port) = true → ap.matchesAddr addr = true := by
    intro ap hit
    exact ((hits_iff ap (addr, port)).mp hit).1 |> decide_eq_true
  rw [compareKnown_eq_decision]
  obtain ⟨-, ⟨rfl, accepts⟩ | ⟨before, e, after, rfl, decides, rfl⟩⟩ :=
    compareUncertain_eq_result _ _ _ _ answered
  · apply decision_of_accepts
    exact fun ap member hit => accepts ap member (may ap hit)
  · apply decides.known after _ _ may
    rw [hits_iff]
    have wide := of_decide_eq_true decides.sure
    exact ⟨of_decide_eq_true decides.may, port_mem_all wide.1 wide.2 knownPort⟩

/-! ## An address that is not known -/

def coversPort (port : UInt16) (ap : AddrPolicy) : Bool := ap.prtMin ≤ port ∧ port ≤ ap.prtMax

def withoutMask (ap : AddrPolicy) : Bool := ap.maskbits = 0

/-- `e` is the first entry for the port that has no mask, and the entries for the port
before it are of its type. -/
abbrev DecidesPort (port : UInt16) (before : List AddrPolicy) (e : AddrPolicy) : Prop :=
  DecidesFor (coversPort port) withoutMask before e

/-- An IPv4 or IPv6 address. -/
def IsIp (addr : TorAddr) : Prop :=
  torAddrFamily addr = .inet ∨ torAddrFamily addr = .inet6

/-- Where an entry without a mask decides the port, the addresses of the other family are
decided its way: an entry of the other type that matches stands behind one of its type
that matches, and if it rejects then some entry does match. -/
def OtherFamilyAgrees (policy : List AddrPolicy) (port : UInt16) : Prop :=
  ∀ before e after, policy = before ++ e :: after → DecidesPort port before e →
    ∀ addr, IsIp addr → torAddrFamily addr ≠ torAddrFamily e.addr →
      (e.policyType = .accept ∨ ∃ ap ∈ policy, policyHits ap (addr, port) = true)
        ∧ ∀ front ap rest, policy = front ++ ap :: rest → policyHits ap (addr, port) = true →
          ap.policyType ≠ e.policyType →
          ∃ earlier ∈ front, policyHits earlier (addr, port) = true
            ∧ earlier.policyType = e.policyType

theorem result_inj {a b : AddrPolicyAction} : a.result = b.result ↔ a = b := by
  cases a <;> cases b <;> decide

/-- What it takes for the policy to decide an address as an entry of this type does. -/
theorem decision_eq_result (answer : AddrPolicyAction) :
    decision policy query = answer.result
      ↔ (answer = .accept ∨ ∃ ap ∈ policy, policyHits ap query = true)
        ∧ ∀ front ap rest, policy = front ++ ap :: rest → policyHits ap query = true →
          ap.policyType ≠ answer → ∃ earlier ∈ front, policyHits earlier query = true
            ∧ earlier.policyType = answer := by
  have default : AddrPolicyResult.accepted = answer.result ↔ answer = .accept := by
    cases answer <;> decide
  rw [decision, firstMatch_eq_iff, default]
  simp only [ne_eq, result_inj]

theorem compareUnknown_sound_iff (port : UInt16) :
    (∀ answer : AddrPolicyAction,
        compareUnknownTorAddrToAddrPolicy port policy = answer.result →
        ∀ addr, IsIp addr → compareKnownTorAddrToAddrPolicy addr port policy = answer.result)
      ↔ OtherFamilyAgrees policy port := by
  have may : ∀ addr ap, policyHits ap (addr, port) = true → coversPort port ap = true := by
    intro addr ap hit
    exact decide_eq_true ((hits_iff ap (addr, port)).mp hit).2
  constructor
  · intro sound before e after split decides addr ip _
    have answered := decides.answers after false false (by cases e.policyType <;> rfl)
    have known := sound e.policyType (by rw [split]; exact answered) addr ip
    rw [compareKnown_eq_decision, decision_eq_result] at known
    exact known
  · intro agrees answer answered addr ip
    rw [compareKnown_eq_decision]
    obtain ⟨-, ⟨rfl, accepts⟩ | ⟨before, e, after, split, decides, rfl⟩⟩ :=
      compareUncertain_eq_result _ _ _ _ answered
    · apply decision_of_accepts
      exact fun ap member hit => accepts ap member (may addr ap hit)
    · by_cases family : torAddrFamily addr = torAddrFamily e.addr
      · rw [split]
        apply decides.known after _ _ (may addr)
        rw [hits_iff, of_decide_eq_true decides.sure]
        refine ⟨samePrefix_zero family ?_, of_decide_eq_true decides.may⟩
        intro isUnix
        rw [IsIp, isUnix] at ip
        rcases ip with absurd | absurd <;> cases absurd
      · rw [decision_eq_result]
        exact agrees before e after split decides addr ip family

/-! ## Both -/

/-- An answer without the port is right for every port, and one without the address is right
for every address exactly if the other family agrees. -/
theorem partialAnswers_sound_iff (policy : List AddrPolicy) (port : UInt16)
    (knownPort : port ≠ 0) :
    ((∀ addr, torAddrIsNull addr = false → ∀ answer : AddrPolicyAction,
          compareTorAddrToAddrPolicy (some addr) 0 (some policy) = answer.result →
          ∀ anyPort, anyPort ≠ 0 →
            compareTorAddrToAddrPolicy (some addr) anyPort (some policy) = answer.result)
        ∧ ∀ unknown : Option TorAddr, (∀ addr ∈ unknown, torAddrIsNull addr = true) →
          ∀ answer : AddrPolicyAction,
            compareTorAddrToAddrPolicy unknown port (some policy) = answer.result →
            ∀ addr, IsIp addr →
              compareKnownTorAddrToAddrPolicy addr port policy = answer.result)
      ↔ OtherFamilyAgrees policy port := by
  have noport : ∀ addr, torAddrIsNull addr = false → ∀ anyPort,
      compareTorAddrToAddrPolicy (some addr) anyPort (some policy)
        = if anyPort = 0 then compareKnownTorAddrToAddrPolicyNoport addr policy
          else compareKnownTorAddrToAddrPolicy addr anyPort policy := by
    intro addr known anyPort
    have kept : (some addr).filter (fun addr => !torAddrIsNull addr) = some addr := by
      rw [Option.filter_some, if_pos (by rw [known]; rfl)]
    rw [compareTorAddrToAddrPolicy, kept]
  have noaddr : ∀ unknown : Option TorAddr, (∀ addr ∈ unknown, torAddrIsNull addr = true) →
      compareTorAddrToAddrPolicy unknown port (some policy)
        = compareUnknownTorAddrToAddrPolicy port policy := by
    intro unknown null
    have dropped : unknown.filter (fun addr => !torAddrIsNull addr) = none := by
      rw [Option.filter_eq_none_iff]
      intro addr member
      rw [null addr member]
      exact Bool.false_ne_true
    rw [compareTorAddrToAddrPolicy, dropped, if_neg knownPort]
  rw [← compareUnknown_sound_iff]
  constructor
  · rintro ⟨-, sound⟩ answer answered
    apply sound none (by simp) answer
    rw [noaddr none (by simp)]
    exact answered
  · intro sound
    constructor
    · intro addr known answer answered anyPort anyKnown
      rw [noport addr known, if_pos rfl] at answered
      rw [noport addr known, if_neg anyKnown]
      exact compareKnownNoport_sound policy addr answer answered anyPort anyKnown
    · intro unknown null answer answered
      rw [noaddr unknown null] at answered
      exact sound answer answered

/-- Reject port 25 of every IPv4 address, accept the rest. -/
def rejectIpv4Mail : List AddrPolicy :=
  [⟨.reject, false, 0, .inet 0, 25, 25⟩, ⟨.accept, false, 0, .inet 0, 1, 65535⟩,
    ⟨.accept, false, 0, .inet6 (Library.ByteStrings.fit 16 []), 1, 65535⟩]

/-- Port 25 of an unknown address is rejected for certain, that of `2001::` is accepted. -/
theorem compareUnknown_rejects_accepted :
    compareTorAddrToAddrPolicy none 25 (some rejectIpv4Mail) = .rejected
      ∧ compareTorAddrToAddrPolicy (some (.inet6 (Library.ByteStrings.fit 16 [32, 1]))) 25
        (some rejectIpv4Mail) = .accepted := by
  decide

theorem partialAnswers_sound_iff_mail :
    ((∀ addr, torAddrIsNull addr = false → ∀ answer : AddrPolicyAction,
          compareTorAddrToAddrPolicy (some addr) 0 (some rejectIpv4Mail) = answer.result →
          ∀ anyPort, anyPort ≠ 0 →
            compareTorAddrToAddrPolicy (some addr) anyPort (some rejectIpv4Mail)
              = answer.result)
        ∧ ∀ unknown : Option TorAddr, (∀ addr ∈ unknown, torAddrIsNull addr = true) →
          ∀ answer : AddrPolicyAction,
            compareTorAddrToAddrPolicy unknown 25 (some rejectIpv4Mail) = answer.result →
            ∀ addr, IsIp addr →
              compareKnownTorAddrToAddrPolicy addr 25 rejectIpv4Mail = answer.result)
      ↔ OtherFamilyAgrees rejectIpv4Mail 25 :=
  partialAnswers_sound_iff rejectIpv4Mail 25 (by decide)

end

end RendezMix.Guarantees
