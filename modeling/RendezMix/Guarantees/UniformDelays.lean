import RendezMix.Guarantees.ReadyTimes

/-!
# Uniform delays

A sample is drawn again while it is above the maximum of the policy. The policy comes from the
network as it is, so that its interval may lie above its maximum, and then no sample ends the loop.
-/
namespace RendezMix.Guarantees
open Source Library.Retry

/-! ## The interval of the samples -/

section

variable (low high : ℚ)

theorem getDelayMicrosecondsUniform_eq (uniform : UniformDraw) :
    ∃ top, min low high ≤ top ∧ getDelayMicrosecondsUniform low high uniform =
      min low high * 1000 + (top * 1000 - min low high * 1000) * uniform.val := by
  unfold getDelayMicrosecondsUniform genUniformValue
  by_cases swap : low > high
  · rw [min_eq_right swap.le]
    simp only [if_pos swap]
    refine ⟨_, ?_, rfl⟩
    split
    · next zero => linarith
    · exact swap.le
  · rw [min_eq_left (not_lt.mp swap)]
    simp only [if_neg swap]
    refine ⟨_, ?_, rfl⟩
    split
    · next zero => linarith
    · exact not_lt.mp swap

theorem getDelayMicrosecondsUniform_ge (uniform : UniformDraw) :
    min low high * 1000 ≤ getDelayMicrosecondsUniform low high uniform := by
  obtain ⟨top, order, same⟩ := getDelayMicrosecondsUniform_eq low high uniform
  have part : 0 ≤ (top * 1000 - min low high * 1000) * uniform.val :=
    mul_nonneg (by linarith) uniform.property.1
  linarith

theorem getDelayMicrosecondsUniform_zero :
    getDelayMicrosecondsUniform low high ⟨0, le_rfl, zero_le_one⟩ = min low high * 1000 := by
  obtain ⟨top, _, same⟩ := getDelayMicrosecondsUniform_eq low high ⟨0, le_rfl, zero_le_one⟩
  rw [same, mul_zero, add_zero]

/-! ## The loop -/

theorem delayMicrosec_uniform {policy : DelayPolicy} (uniform : policy.mode = delayModeUniform)
    (sample : ℚ) : delayMicrosec policy sample = sample :=
  if_pos (Or.inr (Or.inl uniform))

theorem exists_delayAccepted_iff (policy : DelayPolicy) (uniform : policy.mode = delayModeUniform) :
    (∃ draw, delayAccepted policy (policy.sample draw)) ↔
      (0 < delayMax policy → min policy.param1 policy.param2 ≤ delayMax policy) := by
  unfold delayAccepted
  constructor
  · rintro ⟨draw, accepted⟩ positive
    rw [delayMicrosec_uniform uniform] at accepted
    have low := getDelayMicrosecondsUniform_ge policy.param1 policy.param2 draw
    have high : policy.sample draw ≤ delayMax policy * 1000 := by
      by_contra above
      exact accepted ⟨positive, not_le.mp above⟩
    unfold DelayPolicy.sample at high
    linarith
  · intro reaches
    refine ⟨⟨0, le_rfl, zero_le_one⟩, ?_⟩
    rintro ⟨positive, above⟩
    rw [delayMicrosec_uniform uniform, DelayPolicy.sample, getDelayMicrosecondsUniform_zero] at above
    have low := reaches positive
    linarith

theorem micros_getDelayTimeval_le (cfg : Config) (circ : Circuit) (sample : ℚ) :
    ((getDelayTimeval cfg circ sample).micros : ℚ) ≤
      max 0 (delayMicrosec (effectivePolicy cfg circ) sample) := by
  have clipped : (if delayMicrosec (effectivePolicy cfg circ) sample < 0 then 0
      else delayMicrosec (effectivePolicy cfg circ) sample) =
        max 0 (delayMicrosec (effectivePolicy cfg circ) sample) := by
    split
    · next negative => rw [max_eq_left negative.le]
    · next positive => rw [max_eq_right (not_lt.mp positive)]
  unfold getDelayTimeval
  dsimp only
  rw [clipped, Timeval.micros_eq]
  generalize max 0 (delayMicrosec (effectivePolicy cfg circ) sample) = microsec
  have usec : ((microsec - (microsec / 1000000).floor * 1000000).floor : ℚ) ≤
      microsec - (microsec / 1000000).floor * 1000000 := Int.floor_le _
  push_cast
  linarith

theorem getDelayTimeval_tvSec_nonneg (cfg : Config) (circ : Circuit) (sample : ℚ) :
    0 ≤ (getDelayTimeval cfg circ sample).tvSec := by
  have micros := micros_getDelayTimeval_nonneg cfg circ sample
  have usec := (Timeval.normal_iff _).mp (normal_getDelayTimeval cfg circ sample)
  rw [Timeval.micros_eq] at micros
  omega

end

/-! ## The policy of a circuit -/

/-- Some draws end the loop, and what it returns is a normalised delay up to the maximum. -/
def SamplesDelays (cfg : Config) (circ : Circuit) : Prop :=
  (∃ draws rounds tv, getDelayTimevalUniform cfg circ draws rounds = some tv) ∧
    ∀ draws rounds tv, getDelayTimevalUniform cfg circ draws rounds = some tv →
      0 ≤ tv.tvSec ∧ tv.Normal ∧
        (0 < circ.delayPolicy.max → (tv.micros : ℚ) ≤ circ.delayPolicy.max * 1000)

section Uniform

variable {cfg : Config} {circ : Circuit} (uniform : circ.delayPolicy.mode = delayModeUniform)

include uniform

theorem effectivePolicy_uniform : effectivePolicy cfg circ = circ.delayPolicy := by
  apply if_neg
  rw [uniform]
  decide

theorem exists_getDelayTimevalUniform_iff :
    (∃ draws rounds tv, getDelayTimevalUniform cfg circ draws rounds = some tv) ↔
      (0 < delayMax circ.delayPolicy →
        min circ.delayPolicy.param1 circ.delayPolicy.param2 ≤ delayMax circ.delayPolicy) := by
  rw [← exists_delayAccepted_iff circ.delayPolicy uniform, ← exists_retry_iff fun draw =>
    delayAccepted circ.delayPolicy (circ.delayPolicy.sample draw)]
  unfold getDelayTimevalUniform
  rw [effectivePolicy_uniform uniform]
  constructor
  · rintro ⟨draws, rounds, tv, returned⟩
    obtain ⟨draw, ended, _⟩ := Option.map_eq_some_iff.mp returned
    exact ⟨draws, rounds, draw, ended⟩
  · rintro ⟨draws, rounds, draw, ended⟩
    exact ⟨draws, rounds, _, Option.map_eq_some_iff.mpr ⟨draw, ended, rfl⟩⟩

theorem getDelayTimevalUniform_le (draws : Nat → UniformDraw) (rounds : Nat) (tv : Timeval)
    (returned : getDelayTimevalUniform cfg circ draws rounds = some tv)
    (positive : 0 < circ.delayPolicy.max) : (tv.micros : ℚ) ≤ circ.delayPolicy.max * 1000 := by
  unfold getDelayTimevalUniform at returned
  rw [effectivePolicy_uniform uniform] at returned
  obtain ⟨draw, ended, rfl⟩ := Option.map_eq_some_iff.mp returned
  have accepted := (retry_eq_some _ _ ended).1
  have bound : delayMax circ.delayPolicy = circ.delayPolicy.max := if_neg positive.ne'
  unfold delayAccepted at accepted
  rw [bound] at accepted
  have low := micros_getDelayTimeval_le cfg circ (circ.delayPolicy.sample draw)
  rw [effectivePolicy_uniform uniform] at low
  apply low.trans
  apply max_le
  · linarith
  · by_contra above
    exact accepted ⟨positive, not_le.mp above⟩

end Uniform

/-- Delays from 200 to 300 milliseconds, of which none is above 100. -/
def unreachablePolicy : DelayPolicy := ⟨delayModeUniform, 200, 300, 100⟩

end RendezMix.Guarantees
