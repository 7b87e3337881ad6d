import RendezMix.Guarantees.CongestionAccounting
import RendezMix.Source.CongestionParams

/-!
# The congestion window of Vegas

After slow start the window is kept above its minimum and below its maximum,
but the differences it is set from are unsigned and wrap, and the end of slow
start sets it without its minimum. What a SENDME does to the window is right
exactly where neither happens.
-/
namespace RendezMix.Guarantees.VegasWindow
open Library.ByteStrings Library.Runs Library.Words Source SendmeCalls CongestionAccounting

/-! ## Estimates leave the window alone -/

/-- The window, what it is changed by and the state of slow start are the same. -/
structure SameWindow (cc cc' : CongestionControl) : Prop where
  cwnd : cc'.cwnd = cc.cwnd
  cwndMin : cc'.cwndMin = cc.cwndMin
  ccAlg : cc'.ccAlg = cc.ccAlg

theorem SameWindow.trans {cc₁ cc₂ cc₃ : CongestionControl} (first : SameWindow cc₁ cc₂)
    (second : SameWindow cc₂ cc₃) : SameWindow cc₁ cc₃ :=
  ⟨second.cwnd.trans first.cwnd, second.cwndMin.trans first.cwndMin,
    second.ccAlg.trans first.ccAlg⟩

variable {env : CcEnv} {cc cc' : CongestionControl} {p : VegasParams}

/-- Only the arrivals and the estimates of the product differ. -/
def OnlyEstimated (cc cc' : CongestionControl) : Prop :=
  ∃ arrivals bdp, cc' = { cc with sendmeArrivalTimestamps := arrivals, bdp := bdp }

theorem OnlyEstimated.refl (cc : CongestionControl) : OnlyEstimated cc cc :=
  ⟨cc.sendmeArrivalTimestamps, cc.bdp, rfl⟩

theorem updateSendmeRate_estimated (result : updateSendmeRate env cc = .ok cc') :
    OnlyEstimated cc cc' := by
  rw [updateSendmeRate] at result
  split at result
  · split at result
    · cases result
    split at result
    · cases result
    simp only at result
    split at result
    · cases result
      exact ⟨_, _, rfl⟩
    · cases result
      exact ⟨_, _, rfl⟩
  · cases result
    exact OnlyEstimated.refl cc

theorem updateBdpEstimates_estimated {currRttUsec : UInt64} {broken : Bool}
    (result : updateBdpEstimates env currRttUsec broken cc = .ok cc') : OnlyEstimated cc cc' := by
  rw [updateBdpEstimates] at result
  split at result
  · cases result
    exact ⟨_, _, rfl⟩
  split at result
  · simp only at result
    split at result
    · cases result
    · next rated rates =>
      obtain ⟨arrivals, bdp, rfl⟩ := updateSendmeRate_estimated rates
      cases result
      exact ⟨_, _, rfl⟩
  · cases result
    exact ⟨_, _, rfl⟩

theorem congestionControlUpdateCircuitEstimates_window {updated : Bool}
    (result : congestionControlUpdateCircuitEstimates env cc = .ok (updated, cc')) :
    SameWindow cc cc' := by
  rw [congestionControlUpdateCircuitEstimates] at result
  split at result
  · cases result
  next rtt broken cc₁ measured =>
  have first : SameWindow cc cc₁ := by
    rw [congestionControlUpdateCircuitRtt] at measured
    split at measured
    · cases measured
    simp only at measured
    split at measured
    · cases measured
      exact ⟨rfl, rfl, rfl⟩
    · cases measured
      exact ⟨rfl, rfl, rfl⟩
  apply first.trans
  rw [congestionControlUpdateCircuitBdp] at result
  split at result
  · cases result
    exact ⟨rfl, rfl, rfl⟩
  simp only at result
  split at result
  · cases result
  · next estimates =>
    obtain ⟨arrivals, bdp, rfl⟩ := updateBdpEstimates_estimated estimates
    cases result
    exact ⟨rfl, rfl, rfl⟩

/-! ## What a SENDME does to the window -/

/-- The window is between its minimum and its maximum. -/
def InRange (cwndMax : UInt32) (cc : CongestionControl) : Prop :=
  cc.cwndMin.toUInt64 ≤ cc.cwnd ∧ cc.cwnd ≤ cwndMax.toUInt64

instance (cwndMax : UInt32) (cc : CongestionControl) : Decidable (InRange cwndMax cc) :=
  instDecidableAnd

/-- The cells of the window that are queued, by the estimate. -/
def queueUse (cc : CongestionControl) : UInt64 :=
  if vegasBdp cc > cc.cwnd then 0 else cc.cwnd - vegasBdp cc

/-- The queue is above delta or beta, or the channel is blocked, and the window is set for it. -/
def TakesCongestionBranch (p : VegasParams) (cc : CongestionControl) : Prop :=
  (if cc.inSlowStart then ¬(queueUse cc < p.gamma.toUInt64 ∧ cc.blockedChan = false)
    else cc.nextCcEvent = 0)
  ∧ (queueUse cc > p.delta.toUInt64 ∨ queueUse cc > p.beta.toUInt64 ∨ cc.blockedChan = true)

instance (p : VegasParams) (cc : CongestionControl) : Decidable (TakesCongestionBranch p cc) :=
  instDecidableAnd

/-- Where slow start ends for congestion. -/
def slowStartThreshold (p : VegasParams) (cc : CongestionControl) : UInt64 :=
  min (vegasBdp cc + p.gamma.toUInt64) p.ssCwndMax.toUInt64

/-- Growth in slow start does not fall to a maximum below the minimum; slow start ends for
congestion above the minimum, and for a blocked channel not above the window; and after slow
start no decrement is greater than what it is taken from. A window at its maximum cannot
increase. -/
def WindowSafe (cwndMax : UInt32) (p : VegasParams) (cc : CongestionControl) : Prop :=
  if cc.inSlowStart then
    if queueUse cc < p.gamma.toUInt64 ∧ cc.blockedChan = false then
      p.ssCwndMax.toUInt64 ≤ cc.cwnd + rfc3742SsInc p cc →
        cc.cwndMin.toUInt64 ≤ p.ssCwndMax.toUInt64
    else
      cc.cwndMin.toUInt64 ≤ slowStartThreshold p cc
        ∧ (cc.blockedChan = true →
          slowStartThreshold p cc ≤ cc.cwnd ∨ cc.cwnd = cwndMax.toUInt64)
  else if cc.nextCcEvent = 0 then
    if queueUse cc > p.delta.toUInt64 then
      cc.cwndInc.toUInt64 ≤ vegasBdp cc + p.delta.toUInt64 ∨ cc.cwnd = cwndMax.toUInt64
    else if queueUse cc > p.beta.toUInt64 ∨ cc.blockedChan = true then
      cc.cwndInc.toUInt64 ≤ cc.cwnd ∨ cc.cwnd = cwndMax.toUInt64
    else True
  else True

/-- The window after a SENDME for which the estimates were updated. -/
def vegasMove (p : VegasParams) (cc : CongestionControl) : CongestionControl :=
  if cc.inSlowStart then vegasSlowStart p (queueUse cc) cc
  else if cc.nextCcEvent = 0 then vegasSteadyState p (queueUse cc) cc
  else cc

variable {cwndMax : UInt32}

theorem inRange_iff : InRange cwndMax cc
    ↔ cc.cwndMin.toNat ≤ cc.cwnd.toNat ∧ cc.cwnd.toNat ≤ cwndMax.toNat := by
  rw [InRange, UInt64.le_iff_toNat_le, UInt64.le_iff_toNat_le, UInt16.toNat_toUInt64,
    UInt32.toNat_toUInt64]

theorem atMax_iff (cc : CongestionControl) (cwndMax : UInt32) :
    cc.cwnd = cwndMax.toUInt64 ↔ cc.cwnd.toNat = cwndMax.toNat := by
  rw [← UInt64.toNat_inj, UInt32.toNat_toUInt64]

theorem clampCwnd_toNat (env : CcEnv) (cc : CongestionControl) :
    (clampCwnd env cc).cwnd.toNat = min cc.cwnd.toNat env.cwndMax.toNat := by
  rw [clampCwnd]
  split
  · next above =>
    rw [gt_iff_lt, UInt64.lt_iff_toNat_lt, UInt32.toNat_toUInt64] at above
    simp only [UInt32.toNat_toUInt64]
    omega
  · next below =>
    rw [gt_iff_lt, UInt64.lt_iff_toNat_lt, UInt32.toNat_toUInt64] at below
    omega

theorem rfc3742SsInc_lt (low : cc.cwnd.toNat ≤ cwndMax.toNat) :
    (rfc3742SsInc p cc).toNat < 2 ^ 42 := by
  have pct := cc.cwndIncPctSs.toNat_lt
  have inc := cc.sendmeInc.toNat_lt
  have cap := p.ssCwndCap.toNat_lt
  have limit := cwndMax.toNat_lt
  have small : cc.cwndIncPctSs.toNat * cc.sendmeInc.toNat ≤ 2 ^ 16 * 2 ^ 8 :=
    Nat.mul_le_mul (by omega) (by omega)
  have large : cc.sendmeInc.toNat * p.ssCwndCap.toNat ≤ 2 ^ 8 * 2 ^ 32 :=
    Nat.mul_le_mul (by omega) (by omega)
  rw [rfc3742SsInc]
  split
  · rw [UInt64.toNat_div]
    apply Nat.lt_of_le_of_lt (Nat.div_le_self _ _)
    simp only [UInt64.toNat_add, UInt64.toNat_mul, UInt16.toNat_toUInt64, UInt8.toNat_toUInt64,
      UInt64.toNat_ofNat]
    omega
  · rw [UInt64.toNat_div]
    apply Nat.lt_of_le_of_lt (Nat.div_le_self _ _)
    simp only [UInt64.toNat_add, UInt64.toNat_mul, UInt8.toNat_toUInt64, UInt32.toNat_toUInt64]
    omega

/-- The window in slow start, before its maximum. -/
def slowStartTarget (p : VegasParams) (cc : CongestionControl) : UInt64 :=
  if queueUse cc < p.gamma.toUInt64 ∧ cc.blockedChan = false then cc.cwnd + rfc3742SsInc p cc
  else vegasBdp cc + p.gamma.toUInt64

theorem vegasSlowStart_toNat (p : VegasParams) (cc : CongestionControl) :
    (vegasSlowStart p (queueUse cc) cc).cwnd.toNat
      = min (slowStartTarget p cc).toNat p.ssCwndMax.toNat := by
  have target : (vegasSlowStartCwnd p (queueUse cc) cc).cwnd = slowStartTarget p cc := by
    simp only [vegasSlowStartCwnd, slowStartTarget]
    split
    · split <;> rfl
    · rfl
  simp only [vegasSlowStart, target]
  split
  · next above =>
    rw [ge_iff_le, UInt64.le_iff_toNat_le, UInt32.toNat_toUInt64] at above
    simp only [congestionControlVegasExitSlowStart, UInt32.toNat_toUInt64]
    omega
  · next below =>
    rw [ge_iff_le, UInt64.le_iff_toNat_le, UInt32.toNat_toUInt64] at below
    rw [target]
    omega

/-- The window after slow start, before its minimum. -/
def steadyTarget (p : VegasParams) (cc : CongestionControl) : UInt64 :=
  if queueUse cc > p.delta.toUInt64 then vegasBdp cc + p.delta.toUInt64 - cc.cwndInc.toUInt64
  else if queueUse cc > p.beta.toUInt64 ∨ cc.blockedChan = true then cc.cwnd - cc.cwndInc.toUInt64
  else if queueUse cc < p.alpha.toUInt64 then cc.cwnd + cc.cwndInc.toUInt64
  else cc.cwnd

theorem vegasSteadyState_toNat (p : VegasParams) (cc : CongestionControl) :
    (vegasSteadyState p (queueUse cc) cc).cwnd.toNat
      = max (steadyTarget p cc).toNat cc.cwndMin.toNat := by
  simp only [vegasSteadyState]
  rw [uint64_toNat_max, UInt16.toNat_toUInt64]
  rfl

section

variable {n : UInt64} (queued : queueUse cc > n)

include queued

theorem bdp_lt_of_queueUse : (vegasBdp cc).toNat + n.toNat < cc.cwnd.toNat := by
  rw [queueUse, gt_iff_lt] at queued
  split at queued
  · rw [UInt64.lt_iff_toNat_lt] at queued
    simp at queued
  · next below =>
    rw [gt_iff_lt, UInt64.lt_iff_toNat_lt] at below
    rw [UInt64.lt_iff_toNat_lt, uint64_toNat_sub (by omega)] at queued
    omega

theorem slowStartThreshold_le (full : ¬queueUse cc < p.gamma.toUInt64) :
    (slowStartThreshold p cc).toNat ≤ cc.cwnd.toNat := by
  have low := bdp_lt_of_queueUse queued
  have limit := cc.cwnd.toNat_lt
  have below : ¬vegasBdp cc > cc.cwnd := by
    rw [gt_iff_lt, UInt64.lt_iff_toNat_lt]
    omega
  rw [queueUse, if_neg below, UInt64.lt_iff_toNat_lt, uint64_toNat_sub (by omega)] at full
  rw [slowStartThreshold, uint64_toNat_min, uint64_toNat_add (by omega)]
  omega

end

theorem vegasMove_kept (p : VegasParams) (cc : CongestionControl) :
    (vegasMove p cc).cwndMin = cc.cwndMin ∧ (vegasMove p cc).ccAlg = cc.ccAlg := by
  rw [vegasMove]
  split
  · simp only [vegasSlowStart]
    split
    · simp only [vegasSlowStartCwnd, congestionControlVegasExitSlowStart]
      split
      · split <;> exact ⟨rfl, rfl⟩
      · exact ⟨rfl, rfl⟩
    · simp only [vegasSlowStartCwnd, congestionControlVegasExitSlowStart]
      split
      · split <;> exact ⟨rfl, rfl⟩
      · exact ⟨rfl, rfl⟩
  · split <;> exact ⟨rfl, rfl⟩

/-- What a SENDME may do to the window. -/
def MoveSound (p : VegasParams) (cwndMax : UInt32) (cc cc' : CongestionControl) : Prop :=
  InRange cwndMax cc' ∧ (TakesCongestionBranch p cc → cc'.cwnd ≤ cc.cwnd)

/-- The new window, from the target of its branch. -/
structure Moved (cwndMax : UInt32) (cc cc' : CongestionControl) (moved : Nat) : Prop where
  cwnd : cc'.cwnd.toNat = min moved cwndMax.toNat
  cwndMin : cc'.cwndMin = cc.cwndMin

section

variable (range : InRange cwndMax cc)

include range

theorem moveSound_iff_nat {moved : Nat} (move : Moved cwndMax cc cc' moved) :
    MoveSound p cwndMax cc cc'
      ↔ cc.cwndMin.toNat ≤ moved
        ∧ (TakesCongestionBranch p cc → moved ≤ cc.cwnd.toNat ∨ cc.cwnd.toNat = cwndMax.toNat) := by
  rw [inRange_iff] at range
  rw [MoveSound, inRange_iff, UInt64.le_iff_toNat_le, move.cwnd, move.cwndMin]
  constructor
  · rintro ⟨inside, congested⟩
    refine ⟨by omega, fun branch => ?_⟩
    have low := congested branch
    omega
  · rintro ⟨low, congested⟩
    refine ⟨by omega, fun branch => ?_⟩
    have high := congested branch
    omega

section

variable (slow : cc.inSlowStart = true)

include slow

theorem growth_sound_iff (calm : queueUse cc < p.gamma.toUInt64 ∧ cc.blockedChan = false)
    (move : Moved cwndMax cc cc' (min (slowStartTarget p cc).toNat p.ssCwndMax.toNat)) :
    MoveSound p cwndMax cc cc' ↔ WindowSafe cwndMax p cc := by
  have nobranch : ¬TakesCongestionBranch p cc := by
    rw [TakesCongestionBranch, if_pos slow]
    exact fun branch => branch.1 calm
  rw [moveSound_iff_nat range move]
  rw [inRange_iff] at range
  have limit := cwndMax.toNat_lt
  have inc := rfc3742SsInc_lt (p := p) range.2
  have grown : (cc.cwnd + rfc3742SsInc p cc).toNat = cc.cwnd.toNat + (rfc3742SsInc p cc).toNat :=
    uint64_toNat_add (by omega)
  rw [WindowSafe, if_pos slow, if_pos calm, slowStartTarget, if_pos calm, grown,
    UInt64.le_iff_toNat_le, UInt64.le_iff_toNat_le, grown, UInt16.toNat_toUInt64,
    UInt32.toNat_toUInt64]
  constructor
  · rintro ⟨low, -⟩ reached
    omega
  · intro low
    refine ⟨?_, fun branch => absurd branch nobranch⟩
    omega

theorem exit_sound_iff (congested : ¬(queueUse cc < p.gamma.toUInt64 ∧ cc.blockedChan = false))
    (move : Moved cwndMax cc cc' (min (slowStartTarget p cc).toNat p.ssCwndMax.toNat)) :
    MoveSound p cwndMax cc cc' ↔ WindowSafe cwndMax p cc := by
  have threshold : (slowStartThreshold p cc).toNat
      = min (slowStartTarget p cc).toNat p.ssCwndMax.toNat := by
    rw [slowStartThreshold, uint64_toNat_min, slowStartTarget, if_neg congested,
      UInt32.toNat_toUInt64]
  rw [moveSound_iff_nat range move, ← threshold, WindowSafe, if_pos slow, if_neg congested,
    UInt64.le_iff_toNat_le, UInt64.le_iff_toNat_le, UInt16.toNat_toUInt64, atMax_iff]
  apply and_congr_right
  intro low
  rw [TakesCongestionBranch, if_pos slow]
  constructor
  · exact fun bound blocked => bound ⟨congested, .inr (.inr blocked)⟩
  · rintro bound ⟨-, signal⟩
    by_cases blocked : cc.blockedChan = true
    · exact bound blocked
    · have full : ¬queueUse cc < p.gamma.toUInt64 := by
        intro calm
        exact congested ⟨calm, Bool.eq_false_iff.mpr blocked⟩
      left
      obtain above | above | blocked' := signal
      · exact slowStartThreshold_le above full
      · exact slowStartThreshold_le above full
      · exact absurd blocked' blocked

end

theorem steady_sound_iff (steady : ¬cc.inSlowStart = true) (due : cc.nextCcEvent = 0)
    (move : Moved cwndMax cc cc' (max (steadyTarget p cc).toNat cc.cwndMin.toNat)) :
    MoveSound p cwndMax cc cc' ↔ WindowSafe cwndMax p cc := by
  rw [moveSound_iff_nat range move, WindowSafe, if_neg steady, if_pos due, TakesCongestionBranch,
    if_neg steady]
  rw [inRange_iff] at range
  have limit := cwndMax.toNat_lt
  have inc := cc.cwndInc.toNat_lt
  rw [steadyTarget]
  split
  · next above =>
    have queued := bdp_lt_of_queueUse above
    rw [UInt16.toNat_toUInt64] at queued
    have sum : (vegasBdp cc + p.delta.toUInt64).toNat
        = (vegasBdp cc).toNat + p.delta.toNat := by
      rw [uint64_toNat_add (by simp; omega), UInt16.toNat_toUInt64]
    have signal : cc.nextCcEvent = 0 ∧ (queueUse cc > p.delta.toUInt64
        ∨ queueUse cc > p.beta.toUInt64 ∨ cc.blockedChan = true) := ⟨due, .inl above⟩
    rw [UInt64.le_iff_toNat_le, atMax_iff, sum, UInt16.toNat_toUInt64, UInt64.toNat_sub, sum,
      UInt16.toNat_toUInt64]
    constructor
    · rintro ⟨-, bound⟩
      have low := bound signal
      omega
    · intro safe
      refine ⟨by omega, fun _ => ?_⟩
      omega
  split
  · next above signal =>
    rw [UInt64.le_iff_toNat_le, atMax_iff, UInt16.toNat_toUInt64, UInt64.toNat_sub,
      UInt16.toNat_toUInt64]
    constructor
    · rintro ⟨-, bound⟩
      have low := bound ⟨due, .inr signal⟩
      omega
    · intro safe
      refine ⟨by omega, fun _ => ?_⟩
      omega
  · next above signal =>
    have nobranch : ¬(cc.nextCcEvent = 0 ∧ (queueUse cc > p.delta.toUInt64
        ∨ queueUse cc > p.beta.toUInt64 ∨ cc.blockedChan = true)) := by
      rintro ⟨-, high | rest⟩
      · exact above high
      · exact signal rest
    simp only [iff_true]
    refine ⟨by omega, fun branch => absurd branch nobranch⟩

theorem vegasMove_sound_iff (move : Moved cwndMax cc cc' (vegasMove p cc).cwnd.toNat) :
    MoveSound p cwndMax cc cc' ↔ WindowSafe cwndMax p cc := by
  rw [vegasMove] at move
  split at move
  · next slow =>
    rw [vegasSlowStart_toNat] at move
    by_cases calm : queueUse cc < p.gamma.toUInt64 ∧ cc.blockedChan = false
    · exact growth_sound_iff range slow calm move
    · exact exit_sound_iff range slow calm move
  · next steady =>
    split at move
    · next due =>
      rw [vegasSteadyState_toNat] at move
      exact steady_sound_iff range steady due move
    · next early =>
      rw [moveSound_iff_nat range move, WindowSafe, if_neg steady, if_neg early,
        TakesCongestionBranch, if_neg steady]
      rw [inRange_iff] at range
      simp only [iff_true]
      exact ⟨range.1, fun branch => absurd branch.1 early⟩

end

/-! ## Dispatching a SENDME -/

/-- The step updates the estimates and takes a congestion branch. -/
def CongestionStep (env : CcEnv) (p : VegasParams) (cc : CongestionControl) : Prop :=
  ∃ cc₁, congestionControlUpdateCircuitEstimates env (tickCcEvent cc) = .ok (true, cc₁)
    ∧ TakesCongestionBranch p cc₁

/-- The window ends in its range, and does not grow in a congestion branch. -/
def StepSound (env : CcEnv) (p : VegasParams) (cc cc' : CongestionControl) : Prop :=
  InRange env.cwndMax cc' ∧ (CongestionStep env p cc → cc'.cwnd ≤ cc.cwnd)

/-- With the estimates of the step, the window is safe to move. -/
def StepSafe (env : CcEnv) (p : VegasParams) (cc : CongestionControl) : Prop :=
  ∀ cc₁, congestionControlUpdateCircuitEstimates env (tickCcEvent cc) = .ok (true, cc₁) →
    WindowSafe env.cwndMax p cc₁

theorem congestionControlDispatchCcAlg_vegas (alg : cc.ccAlg = .vegas p)
    (result : congestionControlDispatchCcAlg env cc = .ok cc') :
    ∃ updated cc₁, congestionControlUpdateCircuitEstimates env (tickCcEvent cc)
        = .ok (updated, cc₁)
      ∧ cc' = clampCwnd env (ackInflight (if updated then vegasMove p cc₁ else cc₁)) := by
  rw [congestionControlDispatchCcAlg] at result
  simp only [alg] at result
  obtain ⟨acked, processed, rfl⟩ := except_map_eq_ok.mp result
  rw [congestionControlVegasProcessSendme] at processed
  split at processed
  · cases processed
  · next cc₁ estimates =>
    cases processed
    exact ⟨false, cc₁, estimates, rfl⟩
  · next cc₁ estimates =>
    cases processed
    exact ⟨true, cc₁, estimates, rfl⟩

theorem clampCwnd_kept (env : CcEnv) (cc : CongestionControl) :
    (clampCwnd env cc).cwndMin = cc.cwndMin ∧ (clampCwnd env cc).ccAlg = cc.ccAlg := by
  rw [clampCwnd]
  split <;> exact ⟨rfl, rfl⟩

section

variable (alg : cc.ccAlg = .vegas p)

include alg

theorem congestionControlDispatchCcAlg_kept
    (result : congestionControlDispatchCcAlg env cc = .ok cc') :
    cc'.cwndMin = cc.cwndMin ∧ cc'.ccAlg = cc.ccAlg := by
  obtain ⟨updated, cc₁, estimates, rfl⟩ := congestionControlDispatchCcAlg_vegas alg result
  have same := congestionControlUpdateCircuitEstimates_window estimates
  have moved : (if updated then vegasMove p cc₁ else cc₁).cwndMin = cc₁.cwndMin
      ∧ (if updated then vegasMove p cc₁ else cc₁).ccAlg = cc₁.ccAlg := by
    split
    · exact vegasMove_kept p cc₁
    · exact ⟨rfl, rfl⟩
  rw [(clampCwnd_kept _ _).1, (clampCwnd_kept _ _).2]
  exact ⟨moved.1.trans same.cwndMin, moved.2.trans same.ccAlg⟩

/-- A SENDME moves the window soundly exactly if it is safe to move. -/
theorem stepSound_iff (range : InRange env.cwndMax cc)
    (result : congestionControlDispatchCcAlg env cc = .ok cc') :
    StepSound env p cc cc' ↔ StepSafe env p cc := by
  obtain ⟨updated, cc₁, estimates, rfl⟩ := congestionControlDispatchCcAlg_vegas alg result
  have same := congestionControlUpdateCircuitEstimates_window estimates
  have range₁ : InRange env.cwndMax cc₁ := by
    rw [InRange, same.cwnd, same.cwndMin]
    exact range
  have cwnd : cc₁.cwnd = cc.cwnd := same.cwnd
  cases updated with
  | false =>
    have still : (clampCwnd env (ackInflight cc₁)).cwnd = cc₁.cwnd := by
      rw [← UInt64.toNat_inj, clampCwnd_toNat]
      have bounds := inRange_iff.mp range₁
      simp only [ackInflight]
      omega
    have none_ : ¬CongestionStep env p cc := by
      rintro ⟨cc₂, other, -⟩
      rw [estimates] at other
      cases other
    constructor
    · intro _ cc₂ other
      rw [estimates] at other
      cases other
    · intro _
      refine ⟨?_, fun step => absurd step none_⟩
      simp only [Bool.false_eq_true, if_false]
      rw [InRange, still, (clampCwnd_kept _ _).1]
      exact range₁
  | true =>
    have move : Moved env.cwndMax cc₁ (clampCwnd env (ackInflight (vegasMove p cc₁)))
        (vegasMove p cc₁).cwnd.toNat := by
      constructor
      · rw [clampCwnd_toNat]
        rfl
      · rw [(clampCwnd_kept _ _).1]
        exact (vegasMove_kept p cc₁).1
    have safe : StepSafe env p cc ↔ WindowSafe env.cwndMax p cc₁ := by
      constructor
      · exact fun all => all cc₁ estimates
      · intro here cc₂ other
        rw [estimates] at other
        cases other
        exact here
    have branch : CongestionStep env p cc ↔ TakesCongestionBranch p cc₁ := by
      constructor
      · rintro ⟨cc₂, other, taken⟩
        rw [estimates] at other
        cases other
        exact taken
      · exact fun taken => ⟨cc₁, estimates, taken⟩
    rw [safe, ← vegasMove_sound_iff range₁ move, StepSound, MoveSound, branch, cwnd]
    rfl

end

/-! ## Runs -/

variable {H : Type} (rd : RunningDigest H)

/-- What a circuit-level SENDME is processed with. -/
def dispatched : HopEvent → Option CcEnv
  | .receive cell reading =>
    if cell.command = .sendme ∧ cell.streamId = 0 then some reading.env else none
  | _ => none

/-- Only the cells in flight and the timestamps for them differ. -/
def OnlyCounted (cc cc' : CongestionControl) : Prop :=
  ∃ inflight pending, cc' = { cc with inflight := inflight, sendmePendingTimestamps := pending }

theorem OnlyCounted.refl (cc : CongestionControl) : OnlyCounted cc cc :=
  ⟨cc.inflight, cc.sendmePendingTimestamps, rfl⟩

theorem OnlyCounted.trans {cc₁ cc₂ cc₃ : CongestionControl} (first : OnlyCounted cc₁ cc₂)
    (second : OnlyCounted cc₂ cc₃) : OnlyCounted cc₁ cc₃ := by
  obtain ⟨inflight₁, pending₁, rfl⟩ := first
  obtain ⟨inflight₂, pending₂, rfl⟩ := second
  exact ⟨inflight₂, pending₂, rfl⟩

section

variable {e e' : HopEnd H} {sent : List HopCell}

section

variable (ccontrol : e.ccontrol = some cc)

include ccontrol

theorem sendmeNoteCircuitDataPackaged_counted (nowUsec : UInt64) :
    ∃ cc', (sendmeNoteCircuitDataPackaged nowUsec e).1.ccontrol = some cc' ∧ OnlyCounted cc cc' := by
  refine ⟨congestionControlNoteCellSent e cc nowUsec, ?_, ?_⟩
  · simp only [sendmeNoteCircuitDataPackaged, ccontrol]
  · rw [congestionControlNoteCellSent]
    split <;> exact ⟨_, _, rfl⟩

theorem connectionEdgePackageRawInbuf_counted {streamId : UInt16} {xoffReceived : Bool}
    {inbuf : List InbufCell} {maxCells : Option Int}
    (result : connectionEdgePackageRawInbuf rd streamId xoffReceived inbuf maxCells e
      = .ok (e', sent)) : ∃ cc', e'.ccontrol = some cc' ∧ OnlyCounted cc cc' := by
  induction inbuf generalizing e cc maxCells sent with
  | nil =>
    cases result
    exact ⟨cc, ccontrol, OnlyCounted.refl cc⟩
  | cons next inbuf ih =>
    have idle : ∃ cc', e.ccontrol = some cc' ∧ OnlyCounted cc cc' :=
      ⟨cc, ccontrol, OnlyCounted.refl cc⟩
    rw [connectionEdgePackageRawInbuf] at result
    split at result
    · cases result
      exact idle
    split at result
    · cases result
      exact idle
    split at result
    · cases result
      exact idle
    next conn _ =>
    split at result
    · cases result
      exact idle
    simp only at result
    obtain ⟨cc₁, noted, same⟩ := sendmeNoteCircuitDataPackaged_counted
      ((relaySendCommandFromEdge_ccontrol rd ⟨.data, streamId, next.payload⟩ e).trans ccontrol)
      next.nowUsec
    have streamed := (sendmeNoteStreamDataPackaged_sender streamId conn xoffReceived _).ccontrol.trans
      noted
    split at result
    · cases result
    split at result
    · cases result
      exact ⟨cc₁, streamed, same⟩
    · obtain ⟨rest, more, last⟩ := except_map_eq_ok.mp result
      cases last
      obtain ⟨cc', after, same'⟩ := ih streamed more
      exact ⟨cc', after, same.trans same'⟩

theorem onlyCounted_of_sender (same : SameSender e e') :
    ∃ cc', e'.ccontrol = some cc' ∧ OnlyCounted cc cc' :=
  ⟨cc, same.ccontrol.trans ccontrol, OnlyCounted.refl cc⟩

/-- Only a circuit-level SENDME does more to the object than count cells. -/
theorem hopStep_counted {ev : HopEvent} (result : hopStep rd e ev = .ok (e', sent)) :
    ∃ cc', e'.ccontrol = some cc' ∧
      match dispatched ev with
      | some env => congestionControlDispatchCcAlg env cc = .ok cc'
      | none => OnlyCounted cc cc' := by
  cases ev with
  | package streamId xoffReceived inbuf maxCells =>
    exact connectionEdgePackageRawInbuf_counted rd ccontrol result
  | flushed streamId outbufTooFull =>
    have same := sendmeConnectionEdgeConsiderSending_sender rd streamId outbufTooFull e
    rw [Except.ok.inj result] at same
    exact onlyCounted_of_sender ccontrol same
  | send streamId payload =>
    cases result
    exact onlyCounted_of_sender ccontrol (relaySendCommandFromEdge_sender rd (by simp) e)
  | receive cell reading =>
    simp only [hopStep, circuitReceiveRelayCell] at result
    split at result
    · cases result
    next e₁ recorded =>
    have absorbed : SameSender e { e with receiveDigest := rd.add e.receiveDigest cell } :=
      ⟨rfl, rfl, rfl⟩
    have recognized := absorbed.trans (sendmeRecordReceivedCellDigest_sender rd recorded)
    split at result
    · next data =>
      simp only [dispatched, data]
      exact onlyCounted_of_sender ccontrol (recognized.trans (handleRelayData_sender rd result))
    · next sendme =>
      obtain ⟨e₂, processed, last⟩ := except_map_eq_ok.mp result
      cases last
      by_cases circuit : cell.streamId = 0
      · rw [processSendmeCell, if_pos circuit, sendmeProcessCircuitLevel] at processed
        split at processed
        · cases processed
        · simp only [recognized.ccontrol, ccontrol] at processed
          obtain ⟨cc', after, rfl⟩ := except_map_eq_ok.mp processed
          simp only [dispatched, sendme, circuit]
          exact ⟨cc', rfl, after⟩
      · simp only [dispatched, circuit, and_false, if_false]
        exact onlyCounted_of_sender ccontrol
          (recognized.trans (processSendmeCell_stream circuit processed))
    · next other =>
      cases result
      simp only [dispatched, other]
      exact onlyCounted_of_sender ccontrol recognized

theorem hopStep_window {ev : HopEvent} (result : hopStep rd e ev = .ok (e', sent)) :
    ∃ cc', e'.ccontrol = some cc' ∧
      match dispatched ev with
      | some env => congestionControlDispatchCcAlg env cc = .ok cc'
      | none => SameWindow cc cc' := by
  obtain ⟨cc', ccontrol', moved⟩ := hopStep_counted rd ccontrol result
  refine ⟨cc', ccontrol', ?_⟩
  split at moved
  · exact moved
  · obtain ⟨inflight, pending, rfl⟩ := moved
    exact ⟨rfl, rfl, rfl⟩

end

end

/-- The parameters that a SENDME is processed with come from the consensus. -/
def readsFrom (globals : CcGlobals) (ev : HopEvent) : Prop :=
  ∀ env ∈ dispatched ev, env.ReadsFrom globals

/-- A call that returned, under one consensus. -/
def VegasStep (globals : CcGlobals) (w : LoneEnd H) (ev : HopEvent) (w' : LoneEnd H) : Prop :=
  readsFrom globals ev ∧ LoneStep rd w ev w'

/-- A SENDME that was processed moved the window soundly. -/
def WindowSound (x : Transition (LoneEnd H) HopEvent) : Prop :=
  ∀ env cc cc' p, dispatched x.input = some env → x.pre.hop.ccontrol = some cc →
    cc.ccAlg = .vegas p → x.post.hop.ccontrol = some cc' → StepSound env p cc cc'

/-- The window was safe to move at a SENDME. -/
def WindowStepSafe (x : Transition (LoneEnd H) HopEvent) : Prop :=
  ∀ env cc p, dispatched x.input = some env → x.pre.hop.ccontrol = some cc →
    cc.ccAlg = .vegas p → StepSafe env p cc

/-- An end that runs Vegas, with its window in range. -/
def VegasEnd (cwndMax : UInt32) (cwndMin : UInt16) (p : VegasParams) (w : LoneEnd H) : Prop :=
  ∃ cc, w.hop.ccontrol = some cc ∧ cc.ccAlg = .vegas p ∧ cc.cwndMin = cwndMin
    ∧ InRange cwndMax cc

variable {globals : CcGlobals} {cwndMin : UInt16} {w w' : LoneEnd H} {ev : HopEvent}

section

variable (vegas : VegasEnd globals.cwndMax cwndMin p w) (taken : VegasStep rd globals w ev w')

include vegas taken

theorem vegasStep_sound_iff : WindowSound ⟨w, ev, w'⟩ ↔ WindowStepSafe ⟨w, ev, w'⟩ := by
  obtain ⟨cc, ccontrol, alg, -, range⟩ := vegas
  obtain ⟨reads, taken⟩ := taken
  obtain ⟨e', sent, step, rfl⟩ := loneStep_cases rd taken
  obtain ⟨cc', ccontrol', moved⟩ := hopStep_window rd ccontrol step
  have agree (env : CcEnv) (processed : dispatched ev = some env) :
      StepSound env p cc cc' ↔ StepSafe env p cc := by
    rw [processed] at moved
    have limit := (reads env processed).1
    apply stepSound_iff alg _ moved
    rw [limit]
    exact range
  constructor
  · intro sound env cc₁ p₁ processed found alg₁
    rw [ccontrol] at found
    cases found
    rw [alg] at alg₁
    cases alg₁
    exact (agree env processed).mp (sound env cc cc' p processed ccontrol alg ccontrol')
  · intro safe env cc₁ cc₂ p₁ processed found alg₁ found'
    rw [ccontrol] at found
    cases found
    rw [alg] at alg₁
    cases alg₁
    have last : e'.ccontrol = some cc₂ := found'
    rw [ccontrol'] at last
    cases last
    exact (agree env processed).mpr (safe env cc p processed ccontrol alg)

theorem vegasStep_keeps (sound : WindowSound ⟨w, ev, w'⟩) :
    VegasEnd globals.cwndMax cwndMin p w' := by
  obtain ⟨cc, ccontrol, alg, minimum, range⟩ := vegas
  obtain ⟨reads, taken⟩ := taken
  obtain ⟨e', sent, step, rfl⟩ := loneStep_cases rd taken
  obtain ⟨cc', ccontrol', moved⟩ := hopStep_window rd ccontrol step
  refine ⟨cc', ccontrol', ?_⟩
  split at moved
  · next env processed =>
    have kept := congestionControlDispatchCcAlg_kept alg moved
    have inside := (sound env cc cc' p processed ccontrol alg ccontrol').1
    rw [(reads env processed).1] at inside
    exact ⟨kept.2.trans alg, kept.1.trans minimum, inside⟩
  · refine ⟨moved.ccAlg.trans alg, moved.cwndMin.trans minimum, ?_⟩
    rw [InRange, moved.cwnd, moved.cwndMin]
    exact range

end

/-- In every run from a new circuit, the window stays in its range and no congestion branch
raises it if and only if it is safe to move at each SENDME. -/
theorem vegas_window_iff (ns : NetParams) (alwaysCongestionControl : Bool) (path : CcPath)
    (alg : (congestionControlInitParams ns alwaysCongestionControl path).ccAlg = .vegas p)
    {inc : UInt8} (negotiated : inc ≠ 0)
    (range : InRange (congestionControlNewConsensusParams ns).cwndMax (congestionControlNew
      (congestionControlInitParams ns alwaysCongestionControl path) inc negotiated))
    (circwindow : Option Int) (digest : Bytes 20) (send receive : H)
    (openStreams : UInt16 → Bool) {ts : List (Transition (LoneEnd H) HopEvent)}
    (run : Run (VegasStep rd (congestionControlNewConsensusParams ns)) (newLoneEnd
      (newHopEnd circwindow (some (congestionControlNew
        (congestionControlInitParams ns alwaysCongestionControl path) inc negotiated)) digest send
        receive openStreams)) ts w) : (∀ x ∈ ts, WindowSound x) ↔ ∀ x ∈ ts, WindowStepSafe x := by
  have init : VegasEnd (congestionControlNewConsensusParams ns).cwndMax
      (congestionControlInitParams ns alwaysCongestionControl path).cwndMin p (newLoneEnd
        (newHopEnd circwindow (some (congestionControlNew
          (congestionControlInitParams ns alwaysCongestionControl path) inc negotiated)) digest
          send receive openStreams)) :=
    ⟨_, rfl, alg, rfl, range⟩
  apply run.sound_iff_good init
  · intro w ev w' vegas taken
    exact vegasStep_sound_iff rd vegas taken
  · intro w ev w' vegas taken safe
    exact vegasStep_keeps rd vegas taken ((vegasStep_sound_iff rd vegas taken).mpr safe)

/-- Take events one after the other that read their parameters from the consensus. -/
def runVegas (globals : CcGlobals) (w : LoneEnd H) (events : List HopEvent) :
    Option (LoneEnd H) :=
  execAll (fun w ev => (loneStep rd w ev).toOption)
    (fun _ ev => (dispatched ev).all fun env => decide (env.ReadsFrom globals)) w events

theorem run_of_runVegas {events : List HopEvent}
    (result : runVegas rd globals w events = some w') :
    ∃ ts, Run (VegasStep rd globals) w ts w' := by
  have sound : ∀ (s : LoneEnd H) (ev : HopEvent) (t : LoneEnd H),
      ((dispatched ev).all fun env => decide (env.ReadsFrom globals)) = true →
      (loneStep rd s ev).toOption = some t → VegasStep rd globals s ev t := by
    intro s ev t reads taken
    refine ⟨fun env processed => ?_, toOption_eq_some taken⟩
    exact of_decide_eq_true (Option.all_eq_true _ _ |>.mp reads env processed)
  obtain ⟨ts, run, -⟩ := run_of_execAll sound result
  exact ⟨ts, run⟩

/-- A new circuit to an exit, with the default parameters and the option
`AlwaysCongestionControl`. -/
def defaultEnd : LoneEnd Nat :=
  newLoneEnd (newHopEnd none (some (congestionControlNew
    (congestionControlInitParams (fun _ => none) true .exit) 31 (by decide))) (fit 20 []) 0 0
    fun _ => true)

/-- 31 cells are packaged. -/
def firstIncrement : HopEvent := .package 1 false (List.replicate 31 ⟨[], 1000⟩) none

/-- What the SENDME for them is processed with. -/
def firstEnv (blocked : Bool) : CcEnv := { steadyReading.env with blockedOnChan := blocked }

def firstSendme (blocked : Bool) : HopEvent :=
  .receive ⟨.sendme, 0, []⟩ { steadyReading with env := firstEnv blocked }

theorem vegas_window_iff_default :
    ∃ w ts, Run (VegasStep countingDigest (congestionControlNewConsensusParams fun _ => none))
        defaultEnd ts w
      ∧ w.accepted = 1 ∧ ((∀ x ∈ ts, WindowSound x) ↔ ∀ x ∈ ts, WindowStepSafe x) := by
  have ends : (runVegas countingDigest (congestionControlNewConsensusParams fun _ => none)
      defaultEnd [firstIncrement, firstSendme false]).any fun w => decide (w.accepted = 1) := by
    decide +kernel
  obtain ⟨w, result, accepted⟩ := (Option.any_eq_true _ _).mp ends
  obtain ⟨ts, run⟩ := run_of_runVegas countingDigest result
  refine ⟨w, ts, run, of_decide_eq_true accepted, ?_⟩
  exact vegas_window_iff countingDigest (fun _ => none) true .exit rfl (by decide)
    (by decide) none (fit 20 []) 0 0 (fun _ => true) run

/-- With the default parameters, a blocked channel in slow start raises the window. -/
theorem vegas_window_blocked :
    ¬∀ (w : LoneEnd Nat) (ts : List (Transition (LoneEnd Nat) HopEvent)),
      Run (VegasStep countingDigest (congestionControlNewConsensusParams fun _ => none))
        defaultEnd ts w → ∀ x ∈ ts, WindowSound x := by
  intro always
  have grows : (runVegas countingDigest (congestionControlNewConsensusParams fun _ => none)
      defaultEnd [firstIncrement]).any fun w =>
        (loneStep countingDigest w (firstSendme true)).toOption.any fun w' =>
          w.hop.ccontrol.any fun cc => w'.hop.ccontrol.any fun cc' =>
            (congestionControlUpdateCircuitEstimates (firstEnv true) (tickCcEvent cc)).toOption.any
              fun result => decide (result.1 = true
                ∧ TakesCongestionBranch (congestionControlVegasSetParams (fun _ => none) .exit)
                  result.2
                ∧ cc.ccAlg = .vegas (congestionControlVegasSetParams (fun _ => none) .exit)
                ∧ cc.cwnd = 124 ∧ cc'.cwnd = 310) := by
    decide +kernel
  obtain ⟨w, packaged, grows⟩ := (Option.any_eq_true _ _).mp grows
  obtain ⟨w', processed, grows⟩ := (Option.any_eq_true _ _).mp grows
  obtain ⟨cc, found, grows⟩ := (Option.any_eq_true _ _).mp grows
  obtain ⟨cc', found', grows⟩ := (Option.any_eq_true _ _).mp grows
  obtain ⟨⟨updated, cc₁⟩, estimates, facts⟩ := (Option.any_eq_true _ _).mp grows
  obtain ⟨rfl, branch, alg, before, after⟩ := of_decide_eq_true facts
  obtain ⟨ts, run⟩ := run_of_runVegas countingDigest packaged
  have step : VegasStep countingDigest (congestionControlNewConsensusParams fun _ => none) w
      (firstSendme true) w' := by
    refine ⟨fun env sent => ?_, toOption_eq_some processed⟩
    cases sent
    decide
  have sound := always w' _ (Run.snoc run step) ⟨w, firstSendme true, w'⟩ (by simp)
  have bound := (sound (firstEnv true) cc cc' _ rfl found alg found').2
    ⟨cc₁, toOption_eq_some estimates, branch⟩
  rw [before, after] at bound
  exact absurd bound (by decide)

end RendezMix.Guarantees.VegasWindow
