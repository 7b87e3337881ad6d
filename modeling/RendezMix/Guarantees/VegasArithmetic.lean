import RendezMix.Guarantees.VegasWindow

/-!
# Divisions and differences of a Vegas SENDME

A circuit whose clock stood still has no round trip time. The estimates of its bandwidth-delay
product do without one, but the log message of Vegas divides by the greater of two times that are
still zero. And the cells in flight are taken to include those in the queue of the channel, which
also holds cells that are not counted.
-/
namespace RendezMix.Guarantees.VegasArithmetic
open Library.ByteStrings Library.Runs Library.Words Source SendmeCalls CongestionAccounting
open VegasWindow

variable {env : CcEnv} {cc cc' : CongestionControl} {p : VegasParams}

def AllSafe (operations : List CcOperation) : Prop := ∀ op ∈ operations, op.Safe

instance (operations : List CcOperation) : Decidable (AllSafe operations) :=
  inferInstanceAs (Decidable (∀ op ∈ operations, op.Safe))

theorem allSafe_nil : AllSafe [] := fun _ member => absurd member List.not_mem_nil

theorem allSafe_cons (op : CcOperation) (operations : List CcOperation) :
    AllSafe (op :: operations) ↔ op.Safe ∧ AllSafe operations := List.forall_mem_cons

theorem allSafe_append (first second : List CcOperation) :
    AllSafe (first ++ second) ↔ AllSafe first ∧ AllSafe second := List.forall_mem_append

/-! ## Divisors that are never zero -/

theorem nEwmaCount_lt (env : CcEnv) (cc : CongestionControl) : (nEwmaCount env cc).toNat < 256 := by
  have slow := env.nEwmaSs.toNat_lt
  have most := env.nEwmaMax.toNat_lt
  simp only [nEwmaCount]
  rw [uint64_toNat_max]
  have two : (2 : UInt64).toNat = 2 := rfl
  split
  · rw [UInt8.toNat_toUInt64]
    omega
  · rw [uint64_toNat_min, UInt8.toNat_toUInt64]
    omega

theorem nEwmaCount_succ (env : CcEnv) (cc : CongestionControl) :
    (nEwmaCount env cc + 1).toNat = (nEwmaCount env cc).toNat + 1 := by
  have small := nEwmaCount_lt env cc
  have one : (1 : UInt64).toNat = 1 := rfl
  rw [uint64_toNat_add (by omega), one]

theorem nEwmaCount_succ_ne (env : CcEnv) (cc : CongestionControl) : nEwmaCount env cc + 1 ≠ 0 := by
  intro zero
  have succ := nEwmaCount_succ env cc
  have none_ : (0 : UInt64).toNat = 0 := rfl
  rw [zero] at succ
  omega

theorem nCountEwmaOperations_safe (prev : UInt64) {n : UInt64} (nonzero : n + 1 ≠ 0) :
    AllSafe (nCountEwmaOperations prev n) := by
  rw [nCountEwmaOperations]
  split
  · exact allSafe_nil
  · exact (allSafe_cons _ _).mpr ⟨nonzero, allSafe_nil⟩

theorem sendmeInc_toUInt64_ne (cc : CongestionControl) : cc.sendmeInc.toUInt64 ≠ 0 := by
  intro zero
  apply cc.sendmeInc_ne_zero
  rw [← UInt8.toNat_inj, ← UInt8.toNat_toUInt64, zero]
  rfl

section

variable (rate : cc.cwndIncRate ≠ 0)

include rate

theorem cwndUpdateRateDivisor_ne : cwndUpdateRateDivisor cc ≠ 0 := by
  rw [cwndUpdateRateDivisor]
  split
  · exact sendmeInc_toUInt64_ne cc
  · intro zero
    have product := congrArg UInt64.toNat zero
    have rateLess := cc.cwndIncRate.toNat_lt
    have incLess := cc.sendmeInc.toNat_lt
    have bounded : cc.cwndIncRate.toNat * cc.sendmeInc.toNat < 2 ^ 8 * 2 ^ 8 :=
      Nat.mul_lt_mul'' rateLess incLess
    rw [UInt64.toNat_mul, UInt8.toNat_toUInt64, UInt8.toNat_toUInt64,
      Nat.mod_eq_of_lt (by omega)] at product
    rcases Nat.mul_eq_zero.mp product with none_ | none_
    · exact rate (UInt8.toNat_inj.mp none_)
    · exact cc.sendmeInc_ne_zero (UInt8.toNat_inj.mp none_)

theorem nEwmaCountOperations_safe : AllSafe (nEwmaCountOperations cc) := by
  rw [nEwmaCountOperations]
  split
  · exact allSafe_nil
  · exact (allSafe_cons _ _).mpr ⟨cwndUpdateRateDivisor_ne rate, allSafe_nil⟩

end

theorem updateCircuitRttOperations_safe (env : CcEnv) (rate : cc.cwndIncRate ≠ 0) :
    AllSafe (updateCircuitRttOperations env cc) := by
  rw [updateCircuitRttOperations]
  split
  · exact allSafe_nil
  · dsimp only
    split
    · exact allSafe_nil
    · rw [allSafe_append]
      constructor
      · exact nEwmaCountOperations_safe rate
      · exact nCountEwmaOperations_safe _ (nEwmaCount_succ_ne _ _)

theorem trimArrivalsOperations_safe (bweSendmeMin : UInt8) (ewmaCnt : UInt64)
    (rate : cc.cwndIncRate ≠ 0) (timestamps : List UInt64) :
    AllSafe (trimArrivalsOperations bweSendmeMin ewmaCnt cc timestamps) := by
  induction timestamps with
  | nil => exact allSafe_nil
  | cons timestamp rest ih =>
    rw [trimArrivalsOperations]
    split
    · rw [allSafe_append]
      refine ⟨nEwmaCountOperations_safe rate, ?_⟩
      split
      · exact ih
      · exact allSafe_nil
    · exact allSafe_nil

theorem updateSendmeRateOperations_safe (env : CcEnv) (rate : cc.cwndIncRate ≠ 0) :
    AllSafe (updateSendmeRateOperations env cc) := by
  rw [updateSendmeRateOperations]
  split
  · rw [allSafe_append]
    refine ⟨trimArrivalsOperations_safe _ _ rate _, ?_⟩
    split
    · exact allSafe_nil
    split
    · exact allSafe_nil
    dsimp only
    split
    · next positive =>
      rw [allSafe_append, allSafe_append, allSafe_cons]
      refine ⟨⟨⟨?_, allSafe_nil⟩, nEwmaCountOperations_safe rate⟩,
        nCountEwmaOperations_safe _ (nEwmaCount_succ_ne _ _)⟩
      exact UInt64.pos_iff_ne_zero.mp positive
    · exact allSafe_nil
  · exact allSafe_nil

/-! ## The difference between flight and queue -/

theorem uint64_max_eq_zero (a b : UInt64) : max a b = 0 ↔ a = 0 ∧ b = 0 := by
  rw [← UInt64.toNat_inj, ← UInt64.toNat_inj, ← UInt64.toNat_inj, uint64_toNat_max]
  have zero : (0 : UInt64).toNat = 0 := rfl
  omega

/-- The queue is not longer than the flight, if there are data for an estimate. -/
def QueueInFlight (env : CcEnv) (cc : CongestionControl) : Prop :=
  env.blockedOnChan = true ∨ env.activeStreams = true → env.chanQ.toInt ≤ cc.inflight.toNat

theorem updateBdpEstimatesOperations_safe_iff (env : CcEnv) (currRttUsec : UInt64) (broken : Bool)
    (rate : cc.cwndIncRate ≠ 0) (known : cc.ewmaRttUsec ≠ 0) :
    AllSafe (updateBdpEstimatesOperations env currRttUsec broken cc) ↔ QueueInFlight env cc := by
  rw [updateBdpEstimatesOperations, QueueInFlight]
  split
  next idle =>
    rw [Bool.and_eq_true, Bool.not_eq_true', Bool.not_eq_true'] at idle
    rw [idle.1, idle.2]
    simp [allSafe_nil]
  next busy =>
    have needed : env.blockedOnChan = true ∨ env.activeStreams = true := by
      by_contra neither
      rw [not_or, Bool.not_eq_true, Bool.not_eq_true] at neither
      apply busy
      rw [neither.1, neither.2]
      rfl
    rw [forall_prop_of_true needed]
    split
    · dsimp only
      obtain ⟨cc', rated, same⟩ := updateSendmeRate_ok env
        { cc with sendmeArrivalTimestamps := cc.sendmeArrivalTimestamps ++ [env.nowUsec] } (by simp)
      obtain ⟨arrivals, bdp, rfl⟩ := updateSendmeRate_estimated rated
      have rates : AllSafe (updateSendmeRateOperations env
          { cc with sendmeArrivalTimestamps := cc.sendmeArrivalTimestamps ++ [env.nowUsec] }) :=
        updateSendmeRateOperations_safe env rate
      rw [rated, allSafe_append, and_iff_right rates, allSafe_cons, allSafe_cons]
      constructor
      · exact fun safe => safe.1
      · intro enough
        refine ⟨enough, ?_, allSafe_nil⟩
        intro zero
        exact known ((uint64_max_eq_zero _ _).mp zero).1
    · rw [allSafe_cons, allSafe_cons]
      constructor
      · exact fun safe => safe.1
      · exact fun enough => ⟨enough, known, allSafe_nil⟩

theorem updateCircuitBdpOperations_safe_iff (env : CcEnv) (currRttUsec : UInt64) (broken : Bool)
    (rate : cc.cwndIncRate ≠ 0) :
    AllSafe (updateCircuitBdpOperations env currRttUsec broken cc)
      ↔ (cc.ewmaRttUsec ≠ 0 → QueueInFlight env cc) := by
  rw [updateCircuitBdpOperations]
  split
  next unknown => exact ⟨fun _ known => absurd unknown known, fun _ => allSafe_nil⟩
  next known =>
    rw [allSafe_append, allSafe_cons, forall_prop_of_true known,
      updateBdpEstimatesOperations_safe_iff env currRttUsec broken (by exact rate) (by exact known)]
    constructor
    · exact fun safe => safe.2
    · exact fun enough => ⟨⟨known, allSafe_nil⟩, enough⟩

/-- After the product is estimated. -/
def OnlyProduct (cc cc' : CongestionControl) : Prop :=
  ∃ arrivals bdp nextCcEvent blockedChan, cc' = { cc with
    sendmeArrivalTimestamps := arrivals
    bdp := bdp
    nextCcEvent := nextCcEvent
    blockedChan := blockedChan }

theorem congestionControlUpdateCircuitBdp_product {currRttUsec : UInt64} {broken updated : Bool}
    (result : congestionControlUpdateCircuitBdp env currRttUsec broken cc = .ok (updated, cc')) :
    OnlyProduct cc cc' := by
  rw [congestionControlUpdateCircuitBdp] at result
  split at result
  · cases result
    exact ⟨_, _, _, _, rfl⟩
  simp only at result
  split at result
  · cases result
  · next estimates =>
    obtain ⟨arrivals, bdp, rfl⟩ := updateBdpEstimates_estimated estimates
    cases result
    exact ⟨_, _, _, _, rfl⟩

/-! ## The divisor of the log message -/

theorem vegasExitSlowStartOperations_safe_iff (rate : cc.cwndIncRate ≠ 0) :
    AllSafe (vegasExitSlowStartOperations cc) ↔ vegasLogDivisor cc ≠ 0 := by
  rw [vegasExitSlowStartOperations]
  rw [allSafe_cons, allSafe_cons, allSafe_cons]
  constructor
  · exact fun safe => safe.1
  · intro known
    refine ⟨known, ?_, known, allSafe_nil⟩
    exact cwndUpdateRateDivisor_ne rate

/-- Only the window and what schedules it differ. -/
def OnlyMoved (cc cc' : CongestionControl) : Prop :=
  ∃ cwnd nextCcEvent inSlowStart, cc' = { cc with
    cwnd := cwnd
    nextCcEvent := nextCcEvent
    inSlowStart := inSlowStart }

theorem vegasSlowStartCwnd_moved (p : VegasParams) (queueUse : UInt64) (cc : CongestionControl) :
    OnlyMoved cc (vegasSlowStartCwnd p queueUse cc) := by
  rw [vegasSlowStartCwnd]
  split
  · dsimp only
    split
    · exact ⟨_, _, _, rfl⟩
    · exact ⟨_, _, _, rfl⟩
  · exact ⟨_, _, _, rfl⟩

theorem rfc3742SsIncOperations_safe (p : VegasParams) (low : cc.cwnd.toNat < 2 ^ 32) :
    AllSafe (rfc3742SsIncOperations p cc) := by
  rw [rfc3742SsIncOperations]
  split
  · exact allSafe_nil
  · next above =>
    rw [allSafe_cons]
    refine ⟨?_, allSafe_nil⟩
    intro zero
    have double := congrArg UInt64.toNat zero
    have two : (2 : UInt64).toNat = 2 := rfl
    have none_ : (0 : UInt64).toNat = 0 := rfl
    rw [UInt64.toNat_mul, two, none_, Nat.mod_eq_of_lt (by omega)] at double
    rw [UInt64.le_iff_toNat_le] at above
    omega

theorem vegasMoveOperations_safe (p : VegasParams) (rate : cc.cwndIncRate ≠ 0)
    (low : cc.cwnd.toNat < 2 ^ 32) (known : vegasLogDivisor cc ≠ 0) :
    AllSafe (vegasMoveOperations p cc) := by
  rw [vegasMoveOperations]
  generalize (if vegasBdp cc > cc.cwnd then 0 else cc.cwnd - vegasBdp cc) = queueUse
  split
  · rw [vegasSlowStartOperations, allSafe_append]
    constructor
    · rw [vegasSlowStartCwndOperations]
      split
      · rw [allSafe_append, allSafe_append, allSafe_cons]
        refine ⟨⟨rfc3742SsIncOperations_safe p low, sendmeInc_toUInt64_ne cc, allSafe_nil⟩, ?_⟩
        split
        · exact (vegasExitSlowStartOperations_safe_iff (by exact rate)).mpr known
        · exact allSafe_nil
      · exact (vegasExitSlowStartOperations_safe_iff (by exact rate)).mpr known
    · obtain ⟨cwnd, nextCcEvent, inSlowStart, moved⟩ := vegasSlowStartCwnd_moved p queueUse cc
      rw [moved]
      split
      · exact (vegasExitSlowStartOperations_safe_iff (by exact rate)).mpr known
      · exact allSafe_nil
  split
  · rw [vegasSteadyStateOperations, allSafe_cons, allSafe_cons]
    refine ⟨?_, known, allSafe_nil⟩
    exact cwndUpdateRateDivisor_ne rate
  · exact allSafe_nil

theorem vegasMoveOperations_unknown (p : VegasParams) (unknown : vegasLogDivisor cc = 0)
    (blocked : cc.blockedChan = true) :
    AllSafe (vegasMoveOperations p cc) ↔ ¬(cc.inSlowStart = true ∨ cc.nextCcEvent = 0) := by
  rw [vegasMoveOperations]
  generalize (if vegasBdp cc > cc.cwnd then 0 else cc.cwnd - vegasBdp cc) = queueUse
  split
  next slow =>
    rw [slow]
    simp only [true_or, not_true_eq_false, iff_false]
    intro safe
    rw [vegasSlowStartOperations, allSafe_append, vegasSlowStartCwndOperations, blocked] at safe
    rw [if_neg (by simp), vegasExitSlowStartOperations, allSafe_cons] at safe
    exact safe.1.1 unknown
  next steady =>
    split
    next due =>
      simp only [due, or_true, not_true_eq_false, iff_false]
      intro safe
      rw [vegasSteadyStateOperations, allSafe_cons, allSafe_cons] at safe
      exact safe.2.1 unknown
    next early =>
      constructor
      · intro _ either
        exact either.elim steady early
      · exact fun _ => allSafe_nil

/-! ## The condition of a SENDME -/

/-- The clock stood still or jumped since the cell was sent. -/
def rttStalled (env : CcEnv) (cc : CongestionControl) (sentAt : UInt64) : Prop :=
  (timeDeltaStalledOrJumped cc env.clockBroken cc.ewmaRttUsec (env.nowUsec - sentAt)).1 = true

instance (env : CcEnv) (cc : CongestionControl) (sentAt : UInt64) :
    Decidable (rttStalled env cc sentAt) := instDecidableEqBool _ _

/-- The sum that is averaged wraps to less than its divisor. -/
def ewmaWraps (env : CcEnv) (cc : CongestionControl) (sentAt : UInt64) : Prop :=
  cc.ewmaRttUsec ≠ 0
    ∧ 2 * (env.nowUsec - sentAt) + (nEwmaCount env cc - 1) * cc.ewmaRttUsec < nEwmaCount env cc + 1

/-- There is no average of the round trip times after the measurement. -/
def NoEwma (env : CcEnv) (cc : CongestionControl) (sentAt : UInt64) : Prop :=
  if rttStalled env cc sentAt then cc.ewmaRttUsec = 0 else ewmaWraps env cc sentAt

/-- There is neither an average nor a minimum of them. -/
def NoRtt (env : CcEnv) (cc : CongestionControl) (sentAt : UInt64) : Prop :=
  if rttStalled env cc sentAt then cc.ewmaRttUsec = 0 ∧ cc.minRttUsec = 0
  else ewmaWraps env cc sentAt
    ∧ (cc.cwnd ≠ cc.cwndMin.toUInt64 ∨ percentMaxMix 0 cc.minRttUsec env.rttResetPct = 0)

/-- A SENDME that comes on a blocked channel, in slow start or when the window is due, finds a round
trip time; and one for which the product is estimated finds a queue that is not longer than what is
in flight. -/
def ArithmeticGuard (env : CcEnv) (cc : CongestionControl) : Prop :=
  match cc.sendmePendingTimestamps with
  | [] => True
  | sentAt :: _ =>
      (env.blockedOnChan = true ∧ (cc.inSlowStart = true ∨ cc.nextCcEvent ≤ 1) →
        ¬NoRtt env cc sentAt)
      ∧ (¬NoEwma env cc sentAt → QueueInFlight env cc)

theorem percentMaxMix_zero (pctMax : UInt8) : percentMaxMix 0 0 pctMax = 0 := by
  have same : max (0 : UInt64) 0 = 0 := rfl
  have same' : min (0 : UInt64) 0 = 0 := rfl
  rw [percentMaxMix, same, same']
  split
  · rfl
  · rw [UInt64.mul_zero, UInt64.mul_zero]
    rfl

theorem nCountEwma_eq_zero (env : CcEnv) (cc : CongestionControl) {rtt : UInt64}
    (sample : rtt ≠ 0) (prev : UInt64) :
    nCountEwma rtt prev (nEwmaCount env cc) = 0
      ↔ prev ≠ 0 ∧ 2 * rtt + (nEwmaCount env cc - 1) * prev < nEwmaCount env cc + 1 := by
  have positive : 0 < (nEwmaCount env cc + 1).toNat := by
    rw [nEwmaCount_succ]
    exact Nat.succ_pos _
  have zero : (0 : UInt64).toNat = 0 := rfl
  rw [nCountEwma]
  split
  next first => simp [first, sample]
  next later =>
    rw [and_iff_right later, ← UInt64.toNat_inj, UInt64.toNat_div, zero, UInt64.lt_iff_toNat_lt,
      Nat.div_eq_zero_iff_lt positive]

theorem updateRttEstimates_minRtt {rtt : UInt64}
    (vanished : nCountEwma rtt cc.ewmaRttUsec (nEwmaCount env cc) = 0) :
    (updateRttEstimates env rtt cc).minRttUsec = 0
      ↔ cc.cwnd ≠ cc.cwndMin.toUInt64 ∨ percentMaxMix 0 cc.minRttUsec env.rttResetPct = 0 := by
  simp only [updateRttEstimates, vanished]
  split
  next none_ =>
    rw [none_, percentMaxMix_zero]
    simp
  next some_ =>
    split
    next least => simp [least]
    next above =>
      have positive : (0 : UInt64) < cc.minRttUsec := UInt64.pos_iff_ne_zero.mpr some_
      simp [above, positive]

/-- What the measurement leaves: the object but for its times, which are known or not. -/
theorem congestionControlUpdateCircuitRtt_times (env : CcEnv) {sentAt : UInt64}
    {pending : List UInt64} (waiting : cc.sendmePendingTimestamps = sentAt :: pending) :
    ∃ rtt broken ewma least most, congestionControlUpdateCircuitRtt env cc
        = .ok (rtt, broken, { cc with
          sendmePendingTimestamps := pending
          ewmaRttUsec := ewma
          minRttUsec := least
          maxRttUsec := most })
      ∧ (ewma = 0 ↔ NoEwma env cc sentAt) ∧ (max least ewma = 0 ↔ NoRtt env cc sentAt) := by
  rw [congestionControlUpdateCircuitRtt, waiting, NoEwma, NoRtt]
  simp only [dequeueTimestamp]
  have sameQuestion : timeDeltaStalledOrJumped { cc with sendmePendingTimestamps := pending }
      env.clockBroken cc.ewmaRttUsec (env.nowUsec - sentAt)
      = timeDeltaStalledOrJumped cc env.clockBroken cc.ewmaRttUsec (env.nowUsec - sentAt) := rfl
  rw [sameQuestion]
  cases measured : timeDeltaStalledOrJumped cc env.clockBroken cc.ewmaRttUsec
    (env.nowUsec - sentAt) with
  | mk fishy broken =>
    cases fishy with
    | true =>
      have stalled : rttStalled env cc sentAt := by rw [rttStalled, measured]
      refine ⟨0, broken, cc.ewmaRttUsec, cc.minRttUsec, cc.maxRttUsec, rfl, ?_, ?_⟩
      · rw [if_pos stalled]
      · rw [if_pos stalled, uint64_max_eq_zero, and_comm]
    | false =>
      have moving : ¬rttStalled env cc sentAt := by
        rw [rttStalled, measured]
        exact Bool.false_ne_true
      have sample : env.nowUsec - sentAt ≠ 0 := by
        intro still
        rw [timeDeltaStalledOrJumped, if_pos still] at measured
        cases measured
      have vanishes := nCountEwma_eq_zero env cc sample cc.ewmaRttUsec
      refine ⟨env.nowUsec - sentAt, broken,
        nCountEwma (env.nowUsec - sentAt) cc.ewmaRttUsec (nEwmaCount env cc),
        (updateRttEstimates env (env.nowUsec - sentAt) cc).minRttUsec, _, rfl, ?_, ?_⟩
      · rw [if_neg moving, vanishes, ewmaWraps]
      · rw [if_neg moving, uint64_max_eq_zero, and_comm, ewmaWraps, ← vanishes]
        apply and_congr_right
        exact updateRttEstimates_minRtt

theorem tickCcEvent_due (cc : CongestionControl) :
    (tickCcEvent cc).nextCcEvent = 0 ↔ cc.nextCcEvent ≤ 1 := by
  have one : (1 : UInt64).toNat = 1 := rfl
  have zero : (0 : UInt64).toNat = 0 := rfl
  simp only [tickCcEvent]
  rw [UInt64.le_iff_toNat_le, one, ← UInt64.toNat_inj, zero]
  split
  next later =>
    have positive : cc.nextCcEvent.toNat ≠ 0 := fun none_ => later (UInt64.toNat_inj.mp none_)
    rw [uint64_toNat_sub (by omega), one]
    omega
  next due =>
    rw [not_not] at due
    rw [due, zero]
    omega

/-- After a measurement without an average, what is left depends on the channel being blocked. -/
theorem afterRtt_unknown (p : VegasParams) (currRttUsec : UInt64) (broken : Bool)
    (rate : cc.cwndIncRate ≠ 0) (low : cc.cwnd.toNat < 2 ^ 32) (unknown : cc.ewmaRttUsec = 0) :
    AllSafe (afterBdpOperations p (congestionControlUpdateCircuitBdp env currRttUsec broken cc))
      ↔ (env.blockedOnChan = true ∧ (cc.inSlowStart = true ∨ cc.nextCcEvent = 0) →
        vegasLogDivisor cc ≠ 0) := by
  rw [congestionControlUpdateCircuitBdp, if_pos unknown]
  cases blocked : env.blockedOnChan with
  | false => exact iff_of_true allSafe_nil fun here => absurd here.1 Bool.false_ne_true
  | true =>
    have blockedChan : (updateBdpWithoutRtt env cc).blockedChan = true := by
      rw [updateBdpWithoutRtt, blocked]
    by_cases known : vegasLogDivisor cc = 0
    · have same : vegasLogDivisor (updateBdpWithoutRtt env cc) = 0 := known
      apply (vegasMoveOperations_unknown p same blockedChan).trans
      constructor
      · exact fun not_ here => absurd here.2 not_
      · exact fun rule here => rule ⟨rfl, here⟩ known
    · have same : vegasLogDivisor (updateBdpWithoutRtt env cc) ≠ 0 := known
      have safe := vegasMoveOperations_safe p (by exact rate) (by exact low) same
      exact ⟨fun _ _ => known, fun _ => safe⟩

theorem afterRtt_known (env : CcEnv) (p : VegasParams) (currRttUsec : UInt64) (broken : Bool)
    (rate : cc.cwndIncRate ≠ 0) (low : cc.cwnd.toNat < 2 ^ 32) (known : cc.ewmaRttUsec ≠ 0) :
    AllSafe
      (afterBdpOperations p (congestionControlUpdateCircuitBdp env currRttUsec broken cc)) := by
  obtain ⟨updated, cc', result, -⟩ :=
    congestionControlUpdateCircuitBdp_ok env currRttUsec broken cc
  obtain ⟨arrivals, bdp, nextCcEvent, blockedChan, rfl⟩ :=
    congestionControlUpdateCircuitBdp_product result
  rw [result]
  cases updated with
  | false => exact allSafe_nil
  | true =>
    apply vegasMoveOperations_safe p
    · exact rate
    · exact low
    · intro zero
      exact known ((uint64_max_eq_zero _ _).mp zero).2

theorem afterRtt_safe_iff (env : CcEnv) (p : VegasParams) (currRttUsec : UInt64) (broken : Bool)
    (rate : cc.cwndIncRate ≠ 0) (low : cc.cwnd.toNat < 2 ^ 32) :
    AllSafe (afterRttOperations env p (.ok (currRttUsec, broken, cc)))
      ↔ (env.blockedOnChan = true ∧ (cc.inSlowStart = true ∨ cc.nextCcEvent = 0) →
          vegasLogDivisor cc ≠ 0)
        ∧ (cc.ewmaRttUsec ≠ 0 → QueueInFlight env cc) := by
  rw [afterRttOperations, allSafe_append,
    updateCircuitBdpOperations_safe_iff env currRttUsec broken rate, and_comm]
  by_cases unknown : cc.ewmaRttUsec = 0
  · rw [afterRtt_unknown p currRttUsec broken rate low unknown]
  · rw [and_iff_right (afterRtt_known env p currRttUsec broken rate low unknown)]
    constructor
    · intro enough
      refine ⟨fun _ zero => ?_, enough⟩
      exact unknown ((uint64_max_eq_zero _ _).mp zero).2
    · exact fun guard => guard.2

theorem vegasProcessSendmeOperations_safe_iff (env : CcEnv) (p : VegasParams)
    (rate : cc.cwndIncRate ≠ 0) (low : cc.cwnd.toNat < 2 ^ 32) :
    AllSafe (vegasProcessSendmeOperations env p cc) ↔ ArithmeticGuard env cc := by
  have measuring : AllSafe (updateCircuitRttOperations env (tickCcEvent cc)) :=
    updateCircuitRttOperations_safe env rate
  rw [vegasProcessSendmeOperations, allSafe_append, and_iff_right measuring, ArithmeticGuard]
  cases waiting : cc.sendmePendingTimestamps with
  | nil =>
    have failed : congestionControlUpdateCircuitRtt env (tickCcEvent cc)
        = .error .emptyTimestamps := by
      simp [congestionControlUpdateCircuitRtt, tickCcEvent, waiting, dequeueTimestamp]
    rw [failed]
    exact iff_of_true allSafe_nil trivial
  | cons sentAt pending =>
    have waiting' : (tickCcEvent cc).sendmePendingTimestamps = sentAt :: pending := waiting
    obtain ⟨rtt, broken, ewma, least, most, measured, noEwma, noRtt⟩ :=
      congestionControlUpdateCircuitRtt_times env waiting'
    rw [measured, afterRtt_safe_iff env p rtt broken (by exact rate) (by exact low)]
    apply and_congr
    · rw [tickCcEvent_due]
      exact imp_congr_right fun _ => not_congr noRtt
    · exact imp_congr_left (not_congr noEwma)

/-! ## Runs -/

/-- The rate of updates is that of the consensus, and the window has no more than 32 bits. -/
structure Bounded (cc : CongestionControl) : Prop where
  rate : cc.cwndIncRate ≠ 0
  low : cc.cwnd.toNat < 2 ^ 32

theorem OnlyCounted.bounded (same : OnlyCounted cc cc') (bounded : Bounded cc) : Bounded cc' := by
  obtain ⟨inflight, pending, rfl⟩ := same
  exact ⟨bounded.rate, bounded.low⟩

theorem vegasMove_cwndIncRate (p : VegasParams) (cc : CongestionControl) :
    (vegasMove p cc).cwndIncRate = cc.cwndIncRate := by
  rw [vegasMove]
  split
  · obtain ⟨cwnd, nextCcEvent, inSlowStart, moved⟩ := vegasSlowStartCwnd_moved p (queueUse cc) cc
    rw [vegasSlowStart, moved]
    split <;> rfl
  · split <;> rfl

theorem congestionControlUpdateCircuitEstimates_cwndIncRate {updated : Bool}
    (result : congestionControlUpdateCircuitEstimates env cc = .ok (updated, cc')) :
    cc'.cwndIncRate = cc.cwndIncRate := by
  rw [congestionControlUpdateCircuitEstimates] at result
  cases waiting : cc.sendmePendingTimestamps with
  | nil =>
    rw [congestionControlUpdateCircuitRtt, waiting] at result
    cases result
  | cons sentAt pending =>
    obtain ⟨rtt, broken, ewma, least, most, measured, -⟩ :=
      congestionControlUpdateCircuitRtt_times env waiting
    rw [measured] at result
    obtain ⟨arrivals, bdp, nextCcEvent, blockedChan, rfl⟩ :=
      congestionControlUpdateCircuitBdp_product result
    rfl

theorem congestionControlDispatchCcAlg_bounded (alg : cc.ccAlg = .vegas p) (bounded : Bounded cc)
    (result : congestionControlDispatchCcAlg env cc = .ok cc') : Bounded cc' := by
  obtain ⟨updated, cc₁, estimates, rfl⟩ := congestionControlDispatchCcAlg_vegas alg result
  have rate : cc₁.cwndIncRate = (tickCcEvent cc).cwndIncRate :=
    congestionControlUpdateCircuitEstimates_cwndIncRate estimates
  constructor
  · have moved : (if updated then vegasMove p cc₁ else cc₁).cwndIncRate = cc₁.cwndIncRate := by
      split
      · exact vegasMove_cwndIncRate p cc₁
      · rfl
    have clamped : ∀ cc, (clampCwnd env cc).cwndIncRate = cc.cwndIncRate := by
      intro cc
      rw [clampCwnd]
      split <;> rfl
    rw [clamped, ackInflight]
    rw [moved, rate]
    exact bounded.rate
  · have limit := env.cwndMax.toNat_lt
    rw [clampCwnd_toNat]
    omega

theorem congestionControlNew_bounded (ns : NetParams) (alwaysCongestionControl : Bool)
    (path : CcPath) {inc : UInt8} (negotiated : inc ≠ 0) :
    Bounded (congestionControlNew (congestionControlInitParams ns alwaysCongestionControl path) inc
      negotiated) := by
  have rate := networkstatusGetParam_range (ns "cc_cwnd_inc_rate") 1
    (show (1 : Int) ≤ 250 by decide)
  have init := networkstatusGetParam_range (ns "cc_cwnd_init") circwindowInit
    (show sendmeIncDflt ≤ 10000 by decide)
  have least : sendmeIncDflt = 31 := rfl
  constructor
  · intro zero
    have none_ := congrArg UInt8.toNat zero
    simp only [congestionControlNew, congestionControlInitParams, UInt8.ofInt,
      UInt8.toNat_ofNat'] at none_
    have zero_ : (0 : UInt8).toNat = 0 := rfl
    omega
  · simp only [congestionControlNew, congestionControlInitParams, UInt64.ofInt,
      UInt64.toNat_ofNat']
    omega

variable {H : Type} (rd : RunningDigest H) {globals : CcGlobals} {w w' : LoneEnd H} {ev : HopEvent}

/-- Processing the SENDME, if there was one, was safe. -/
def ArithmeticSound (x : Transition (LoneEnd H) HopEvent) : Prop :=
  ∀ env cc p, dispatched x.input = some env → x.pre.hop.ccontrol = some cc →
    cc.ccAlg = .vegas p → AllSafe (vegasProcessSendmeOperations env p cc)

/-- The SENDME, if there was one, met the condition. -/
def ArithmeticStep (x : Transition (LoneEnd H) HopEvent) : Prop :=
  ∀ env cc p, dispatched x.input = some env → x.pre.hop.ccontrol = some cc →
    cc.ccAlg = .vegas p → ArithmeticGuard env cc

def BoundedEnd (p : VegasParams) (w : LoneEnd H) : Prop :=
  ∃ cc, w.hop.ccontrol = some cc ∧ cc.ccAlg = .vegas p ∧ Bounded cc

theorem arithmeticSound_iff (ends : BoundedEnd p w) :
    ArithmeticSound ⟨w, ev, w'⟩ ↔ ArithmeticStep ⟨w, ev, w'⟩ := by
  obtain ⟨cc, ccontrol, alg, bounded⟩ := ends
  apply forall_congr'
  intro env
  apply forall_congr'
  intro cc₁
  apply forall_congr'
  intro p₁
  apply imp_congr_right
  intro _
  apply imp_congr_right
  intro found
  apply imp_congr_right
  intro _
  rw [ccontrol] at found
  cases found
  exact vegasProcessSendmeOperations_safe_iff env p₁ bounded.rate bounded.low

theorem vegasStep_bounded (ends : BoundedEnd p w) (taken : VegasStep rd globals w ev w') :
    BoundedEnd p w' := by
  obtain ⟨cc, ccontrol, alg, bounded⟩ := ends
  obtain ⟨-, taken⟩ := taken
  obtain ⟨e', sent, step, rfl⟩ := loneStep_cases rd taken
  obtain ⟨cc', ccontrol', moved⟩ := hopStep_counted rd ccontrol step
  refine ⟨cc', ccontrol', ?_⟩
  split at moved
  · next env processed =>
    have kept := congestionControlDispatchCcAlg_kept alg moved
    exact ⟨kept.2.trans alg, congestionControlDispatchCcAlg_bounded alg bounded moved⟩
  · refine ⟨?_, OnlyCounted.bounded moved bounded⟩
    obtain ⟨inflight, pending, rfl⟩ := moved
    exact alg

/-- In every run from a new circuit that runs Vegas, whatever the clock, the queues and the blocked
flags are: no SENDME divides by zero, and no difference of flight and queue wraps, if and only if
each SENDME meets its condition. -/
theorem vegas_arithmetic_iff (ns : NetParams) (alwaysCongestionControl : Bool) (path : CcPath)
    (alg : (congestionControlInitParams ns alwaysCongestionControl path).ccAlg = .vegas p)
    {inc : UInt8} (negotiated : inc ≠ 0) (circwindow : Option Int) (digest : Bytes 20)
    (send receive : H) (openStreams : UInt16 → Bool) {ts : List (Transition (LoneEnd H) HopEvent)}
    (run : Run (VegasStep rd (congestionControlNewConsensusParams ns)) (newLoneEnd
      (newHopEnd circwindow (some (congestionControlNew
        (congestionControlInitParams ns alwaysCongestionControl path) inc negotiated)) digest send
        receive openStreams)) ts w) :
    (∀ x ∈ ts, ArithmeticSound x) ↔ ∀ x ∈ ts, ArithmeticStep x := by
  have init : BoundedEnd p (newLoneEnd (newHopEnd circwindow (some (congestionControlNew
      (congestionControlInitParams ns alwaysCongestionControl path) inc negotiated)) digest send
        receive openStreams)) :=
    ⟨_, rfl, alg, congestionControlNew_bounded ns alwaysCongestionControl path negotiated⟩
  apply run.sound_iff_good init
  · intro w ev w' ends _
    exact arithmeticSound_iff ends
  · intro w ev w' ends taken _
    exact vegasStep_bounded rd ends taken

theorem vegas_arithmetic_iff_default :
    ∃ w ts, Run (VegasStep countingDigest (congestionControlNewConsensusParams fun _ => none))
        defaultEnd ts w
      ∧ w.accepted = 1
      ∧ ((∀ x ∈ ts, ArithmeticSound x) ↔ ∀ x ∈ ts, ArithmeticStep x) := by
  have ends : (runVegas countingDigest (congestionControlNewConsensusParams fun _ => none)
      defaultEnd [firstIncrement, firstSendme false]).any fun w => decide (w.accepted = 1) := by
    decide +kernel
  obtain ⟨w, result, accepted⟩ := (Option.any_eq_true _ _).mp ends
  obtain ⟨ts, run⟩ := run_of_runVegas countingDigest result
  refine ⟨w, ts, run, of_decide_eq_true accepted, ?_⟩
  exact vegas_arithmetic_iff countingDigest (fun _ => none) true .exit rfl (by decide) none
    (fit 20 []) 0 0 (fun _ => true) run

/-- The SENDME for the first cells is read while the clock stands still and the channel is
blocked. -/
def stalledEnv : CcEnv := { steadyReading.env with nowUsec := 1000, blockedOnChan := true }

def stalledSendme : HopEvent := .receive ⟨.sendme, 0, []⟩ { steadyReading with env := stalledEnv }

/-- With the default parameters, the log message at the end of slow start divides by zero. -/
theorem vegas_arithmetic_stalled :
    ¬∀ (w : LoneEnd Nat) (ts : List (Transition (LoneEnd Nat) HopEvent)),
      Run (VegasStep countingDigest (congestionControlNewConsensusParams fun _ => none))
        defaultEnd ts w → ∀ x ∈ ts, ArithmeticSound x := by
  intro always
  have divides : (runVegas countingDigest (congestionControlNewConsensusParams fun _ => none)
      defaultEnd [firstIncrement]).any fun w =>
        (loneStep countingDigest w stalledSendme).toOption.any fun _ =>
          w.hop.ccontrol.any fun cc =>
            decide (cc.ccAlg = .vegas (congestionControlVegasSetParams (fun _ => none) .exit)
              ∧ .divideBy 0 ∈ vegasProcessSendmeOperations stalledEnv
                (congestionControlVegasSetParams (fun _ => none) .exit) cc) := by
    decide +kernel
  obtain ⟨w, packaged, divides⟩ := (Option.any_eq_true _ _).mp divides
  obtain ⟨w', processed, divides⟩ := (Option.any_eq_true _ _).mp divides
  obtain ⟨cc, found, facts⟩ := (Option.any_eq_true _ _).mp divides
  obtain ⟨alg, byZero⟩ := of_decide_eq_true facts
  obtain ⟨ts, run⟩ := run_of_runVegas countingDigest packaged
  have step : VegasStep countingDigest (congestionControlNewConsensusParams fun _ => none) w
      stalledSendme w' := by
    refine ⟨fun env sent => ?_, toOption_eq_some processed⟩
    cases sent
    decide
  have sound := always w' _ (Run.snoc run step) ⟨w, stalledSendme, w'⟩ (by simp)
  exact sound stalledEnv cc _ rfl found alg _ byZero rfl

end RendezMix.Guarantees.VegasArithmetic
