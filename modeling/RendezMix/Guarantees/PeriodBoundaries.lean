import Mathlib
import RendezMix.Library.Runs
import RendezMix.Source.TimePeriods

/-!
# Where time periods begin

The number of the time period drops the seconds of the rotation offset, the start of the next
period keeps them, so that a start that is not on a full minute comes late. The cache of disaster
values does not know under which period length a value was computed, nor that its slots were
empty.
-/
namespace RendezMix.Guarantees.PeriodBoundaries
open Library.ByteStrings Library.Runs Source Source.TimePeriods

/-- The next time period starts later, with the next number, and no time in between is in a later
period. -/
def NextStartRight (env : PeriodEnv) (now : Int64) : Prop :=
  ∃ n start, hsGetTimePeriodNum env now = some n
    ∧ hsGetStartTimeOfNextTimePeriod env now = some start ∧ timeOf env now < start
    ∧ (∃ next, hsGetTimePeriodNum env start = some next ∧ next.toNat = n.toNat + 1)
    ∧ ∀ t, timeOf env now < t → t < start → ∀ m, hsGetTimePeriodNum env t = some m → m ≤ n

/-- In minutes. -/
abbrev periodLength (env : PeriodEnv) : Nat := getTimePeriodLength env.toHsdirEnv

/-- In seconds. -/
abbrev phase (env : PeriodEnv) : Nat := (srStateGetPhaseDuration env).toNat

/-- Minutes behind the rotation offset. -/
def rotated (env : PeriodEnv) (seconds : Nat) : Nat :=
  seconds / 60 - phase env / 60

/-- The phase of the shared random protocol takes full minutes, the time is later than the first
one, and a later period begins before the last time there is. -/
structure OnMinutes (env : PeriodEnv) (now : Int64) : Prop where
  length : 0 < periodLength env
  full : phase env % 60 = 0
  late : phase env / 60 < (timeOf env now).toInt.toNat / 60
  ends : rotated env (timeOf env now).toInt.toNat / periodLength env
    < rotated env (2 ^ 63 - 1) / periodLength env

/-! ## Machine integers -/

theorem toInt_toInt64 (x : UInt64) :
    x.toInt64.toInt = if x.toNat < 2 ^ 63 then (x.toNat : Int) else x.toNat - 2 ^ 64 := by
  rw [Int64.toInt, UInt64.toBitVec_toInt64, BitVec.toInt_eq_toNat_cond, UInt64.toNat_toBitVec]
  split <;> split <;> omega

/-- The minutes that a time stands for once they are without a sign. -/
def minutesOf (t : Int64) : Nat := (t / 60).toUInt64.toNat

theorem minutesOf_eq (t : Int64) : (minutesOf t : Int) =
    if t.toInt.tdiv 60 < 0 then t.toInt.tdiv 60 + 2 ^ 64 else t.toInt.tdiv 60 := by
  have quotient : (t / 60).toInt = t.toInt.tdiv 60 :=
    Int64.toInt_div_of_ne_right _ _ (by decide)
  rw [← quotient, minutesOf, ← UInt64.toNat_toBitVec, Int64.toBitVec_toUInt64, Int64.toInt,
    BitVec.toInt_eq_toNat_cond]
  have := (t / 60).toBitVec.isLt
  split <;> split <;> omega

theorem minutesOf_nonneg {t : Int64} (since : 0 ≤ t.toInt) : minutesOf t = t.toInt.toNat / 60 := by
  have minutes := minutesOf_eq t
  rw [Int.tdiv_eq_ediv_of_nonneg since] at minutes
  split at minutes <;> omega

theorem minutesOf_negative {t : Int64} (before : t.toInt < 0) :
    minutesOf t = if -60 < t.toInt then 0 else 2 ^ 64 - (-t.toInt).toNat / 60 := by
  have minutes := minutesOf_eq t
  have bound := t.le_toInt
  rw [← Int.neg_neg t.toInt, Int.neg_tdiv, Int.tdiv_eq_ediv_of_nonneg (by omega)] at minutes
  split at minutes <;> split <;> omega

variable (env : PeriodEnv)

theorem periodLength_lt : periodLength env < 2 ^ 32 := by
  unfold periodLength getTimePeriodLength
  split
  · have bound := (24 * env.votingInterval).toUInt32.toNat_lt
    rw [← env.runDuration] at bound
    omega
  · simp only [networkstatusGetParam]
    omega

theorem timePeriodLength_toNat :
    (timePeriodLength env).toNat = periodLength env :=
  Nat.mod_eq_of_lt ((periodLength_lt env).trans (by decide))

theorem phase_mod : phase env % 4 = 0 := by
  have word : (12 * env.votingInterval).toUInt32 = 12 * env.votingInterval.toUInt32 :=
    Int32.toUInt32_mul _ _
  rw [phase, srStateGetPhaseDuration, word, UInt32.toNat_mul]
  simp only [UInt32.reduceToNat]
  omega

/-- The period of a time, in unbounded arithmetic. -/
theorem hsGetTimePeriodNum_eq_some {now : Int64} {n : UInt64} :
    hsGetTimePeriodNum env now = some n ↔
      phase env / 60 < minutesOf (timeOf env now)
        ∧ 0 < periodLength env
        ∧ n.toNat = (minutesOf (timeOf env now) - phase env / 60)
          / periodLength env := by
  have offset : (srStateGetPhaseDuration env / 60).toUInt64.toNat
      = phase env / 60 := by
    rw [UInt32.toNat_toUInt64, UInt32.toNat_div]
    rfl
  have length : timePeriodLength env ≠ 0 ↔ 0 < periodLength env := by
    rw [← timePeriodLength_toNat, Nat.pos_iff_ne_zero, ne_eq, ne_eq, ← UInt64.toNat_inj]
    rfl
  unfold hsGetTimePeriodNum minutesOf
  simp only [Option.ite_none_right_eq_some, Option.some.injEq, length, UInt64.lt_iff_toNat_lt,
    offset, and_assoc]
  refine and_congr_right fun late => and_congr_right fun _ => ?_
  rw [← UInt64.toNat_inj, UInt64.toNat_div, timePeriodLength_toNat,
    UInt64.toNat_sub_of_le _ _ (UInt64.le_iff_toNat_le.mpr (by omega)), offset]
  exact eq_comm

theorem hsGetStartTimeOfNextTimePeriod_toInt {now start : Int64} {n : UInt64}
    (num : hsGetTimePeriodNum env now = some n)
    (started : hsGetStartTimeOfNextTimePeriod env now = some start) {x : Nat}
    (exact_ : ((n.toNat + 1) * periodLength env * 60
      + phase env) % 2 ^ 64 = x) :
    start.toInt = if x < 2 ^ 63 then (x : Int) else x - 2 ^ 64 := by
  simp only [hsGetStartTimeOfNextTimePeriod, hsGetNextTimePeriodNum, num, Option.bind_eq_bind,
    Option.bind_some, Option.pure_def, Option.some.injEq] at started
  rw [← started, toInt_toInt64]
  have same : ((n + 1) * timePeriodLength env * 60
      + (srStateGetPhaseDuration env).toUInt64).toNat = x := by
    rw [← exact_]
    simp only [UInt64.toNat_add, UInt64.toNat_mul, timePeriodLength_toNat, UInt64.reduceToNat,
      UInt32.toNat_toUInt64, Nat.mod_mul_mod, Nat.mod_add_mod]
  rw [same]

variable {env} {now : Int64}

theorem timeOf_of_ne {t : Int64} (set : t.toInt ≠ 0) : timeOf env t = t :=
  if_pos fun unset => set (by rw [unset]; rfl)

theorem succ_mul_bounds {n m len : Nat} (positive : 0 < len) (number : n = m / len) :
    m < (n + 1) * len ∧ (n + 1) * len ≤ m + len := by
  have below := Nat.div_mul_le_self m len
  have above := Nat.lt_div_mul_add positive (a := m)
  rw [← number] at below above
  rw [Nat.succ_mul]
  omega

/-- Before the epoch the minutes end where the next one begins, which is no time that the
function returns: its results are multiples of four seconds. -/
theorem not_nextStartRight (negative : (timeOf env now).toInt < 0) : ¬NextStartRight env now := by
  rintro ⟨n, start, num, started, later, ⟨next, nextNum, succ⟩, between⟩
  have four := phase_mod env
  have exact_ := hsGetStartTimeOfNextTimePeriod_toInt env num started rfl
  obtain ⟨late, positive, number⟩ := (hsGetTimePeriodNum_eq_some env).mp num
  obtain ⟨nextLate, _, nextNumber⟩ := (hsGetTimePeriodNum_eq_some env).mp nextNum
  have bounds := succ_mul_bounds positive number
  have reached := Nat.div_mul_le_self (minutesOf (timeOf env start)
    - phase env / 60) (periodLength env)
  rw [← nextNumber, succ] at reached
  have fits : minutesOf (timeOf env start) < 2 ^ 64 := UInt64.toNat_lt _
  have low := (timeOf env now).le_toInt
  have minutes := minutesOf_negative negative
  rw [Int64.lt_iff_toInt_lt] at later
  split at minutes
  · omega
  generalize (n.toNat + 1) * periodLength env = boundary at exact_ bounds reached
  have high : 59 * 2 ^ 64 + 2 ^ 63 ≤ boundary * 60 + phase env ∧
      boundary * 60 + phase env < 60 * 2 ^ 64 := by
    omega
  have value : start.toInt =
      (boundary * 60 + phase env : Nat) - 60 * 2 ^ 64 := by
    rw [exact_]
    split <;> omega
  have before : start.toInt < 0 := by omega
  have aligned : start.toInt % 4 = 0 := by omega
  rw [timeOf_of_ne (by omega)] at nextLate nextNumber
  have startMinutes := minutesOf_negative before
  split at startMinutes
  · omega
  have earlier : (start - 1).toInt = start.toInt - 1 := by
    rw [Int64.toInt_sub]
    exact Int.bmod_eq_of_le (by simp; omega) (by simp; omega)
  have sameMinutes := minutesOf_negative (t := start - 1) (by omega)
  rw [earlier, if_neg (by omega), show (-(start.toInt - 1)).toNat / 60 = (-start.toInt).toNat / 60 by
    omega, ← startMinutes] at sameMinutes
  have sameNum : hsGetTimePeriodNum env (start - 1) = some next := by
    rw [hsGetTimePeriodNum_eq_some, timeOf_of_ne (by omega), sameMinutes]
    exact ⟨nextLate, positive, nextNumber⟩
  by_cases inside : timeOf env now < start - 1
  · have most := between (start - 1) inside (by rw [Int64.lt_iff_toInt_lt]; omega) next sameNum
    rw [UInt64.le_iff_toNat_le] at most
    omega
  · rw [Int64.lt_iff_toInt_lt] at inside
    have here : timeOf env now = start - 1 := Int64.toInt.inj (by omega)
    rw [here, sameMinutes, ← nextNumber] at number
    omega

/-- From the epoch on the next period starts on time if its phase takes full minutes. -/
theorem nextStartRight_iff (since : 0 ≤ (timeOf env now).toInt) :
    NextStartRight env now ↔ OnMinutes env now := by
  have minutes := minutesOf_nonneg since
  have word := (timeOf env now).toInt_lt
  have few := periodLength_lt env
  have phaseWord := (srStateGetPhaseDuration env).toNat_lt
  constructor
  · rintro ⟨n, start, num, started, later, ⟨next, nextNum, succ⟩, between⟩
    have exact_ := hsGetStartTimeOfNextTimePeriod_toInt env num started rfl
    obtain ⟨late, positive, number⟩ := (hsGetTimePeriodNum_eq_some env).mp num
    have bounds := succ_mul_bounds positive number
    rw [Int64.lt_iff_toInt_lt] at later
    have product : (n.toNat + 1) * periodLength env
        / periodLength env = n.toNat + 1 := Nat.mul_div_cancel _ positive
    have within := Nat.le_div_iff_mul_le (x := n.toNat + 1) (y := rotated env (2 ^ 63 - 1)) positive
    generalize (n.toNat + 1) * periodLength env = boundary at *
    rw [Nat.mod_eq_of_lt (by omega)] at exact_
    have value : start.toInt = (boundary * 60 + phase env : Nat) := by
      split at exact_ <;> omega
    refine ⟨positive, ?_, minutes ▸ late, ?_⟩
    · by_contra seconds
      have full : 60 * (boundary + phase env / 60) < 2 ^ 63 := by
        have := start.toInt_lt
        omega
      have time : (Int64.ofNat (60 * (boundary + phase env / 60))).toInt
          = (60 * (boundary + phase env / 60) : Nat) :=
        Int64.toInt_ofNat_of_lt full
      generalize Int64.ofNat _ = t at time
      have fullMinutes := minutesOf_nonneg (t := t) (by omega)
      have sameNum : hsGetTimePeriodNum env t = some next := by
        rw [hsGetTimePeriodNum_eq_some, timeOf_of_ne (by omega), fullMinutes, succ]
        refine ⟨by omega, positive, ?_⟩
        rw [← product]
        congr 1
        omega
      have most := between t (by rw [Int64.lt_iff_toInt_lt]; omega)
        (by rw [Int64.lt_iff_toInt_lt]; omega) next sameNum
      rw [UInt64.le_iff_toNat_le] at most
      omega
    · rw [rotated, ← minutes, ← number]
      apply within.mpr
      have := start.toInt_lt
      rw [rotated]
      omega
  · intro ⟨positive, full, late, ends⟩
    obtain ⟨n, num⟩ : ∃ n, hsGetTimePeriodNum env now = some n := by
      have fits := Nat.div_le_self (rotated env (timeOf env now).toInt.toNat)
        (periodLength env)
      unfold rotated at fits
      refine ⟨UInt64.ofNat _, (hsGetTimePeriodNum_eq_some env).mpr
        ⟨by rw [minutes]; exact late, positive, UInt64.toNat_ofNat_of_lt' ?_⟩⟩
      rw [minutes]
      exact lt_of_le_of_lt fits (by simp only [UInt64.size]; omega)
    obtain ⟨start, started⟩ : ∃ start, hsGetStartTimeOfNextTimePeriod env now = some start := by
      simp [hsGetStartTimeOfNextTimePeriod, hsGetNextTimePeriodNum, num]
    refine ⟨n, start, num, started, ?_⟩
    have exact_ := hsGetStartTimeOfNextTimePeriod_toInt env num started rfl
    have number := ((hsGetTimePeriodNum_eq_some env).mp num).2.2
    have bounds := succ_mul_bounds positive number
    rw [rotated, ← minutes, ← number, ← Nat.succ_le_iff, Nat.le_div_iff_mul_le positive,
      rotated] at ends
    have below : ∀ m, m < (n.toNat + 1) * periodLength env →
        m / periodLength env < n.toNat + 1 := fun m =>
      (Nat.div_lt_iff_lt_mul positive).mpr
    have product : (n.toNat + 1) * periodLength env
        / periodLength env = n.toNat + 1 := Nat.mul_div_cancel _ positive
    have fits := Nat.le_mul_of_pos_right (n.toNat + 1) positive
    generalize (n.toNat + 1) * periodLength env = boundary at *
    have value : start.toInt = (boundary * 60 + phase env : Nat) := by
      rw [exact_, Nat.mod_eq_of_lt (by omega), if_pos (by omega)]
    have startMinutes := minutesOf_nonneg (t := start) (by omega)
    refine ⟨by rw [Int64.lt_iff_toInt_lt]; omega, ⟨n + 1, ?_⟩, ?_⟩
    · have succ : (n + 1).toNat = n.toNat + 1 := by
        rw [UInt64.toNat_add]
        exact Nat.mod_eq_of_lt (by simp only [UInt64.reduceToNat]; omega)
      refine ⟨?_, succ⟩
      rw [hsGetTimePeriodNum_eq_some, timeOf_of_ne (by omega), startMinutes, succ]
      refine ⟨by omega, positive, ?_⟩
      rw [← product]
      congr 1
      omega
    · intro t after before m mNum
      rw [Int64.lt_iff_toInt_lt] at after before
      obtain ⟨_, _, mNumber⟩ := (hsGetTimePeriodNum_eq_some env).mp mNum
      rw [timeOf_of_ne (by omega), minutesOf_nonneg (by omega)] at mNumber
      rw [UInt64.le_iff_toNat_le, mNumber]
      exact Nat.lt_succ_iff.mp (below _ (by omega))

/-! ## Disaster values -/

/-- The cache, and the period length under which each slot was last replaced. -/
structure Filled where
  cache : DisasterCache
  lengths : Fin 2 → Option Nat

/-- One call, with a hash that is the same for all of them. -/
def DisasterStep (sha3 : List UInt8 → Bytes 32) (s : Filled) (call : HsdirEnv × UInt64)
    (s' : Filled) : Prop :=
  call.1.sha3 = sha3 ∧ s'.cache = (getDisasterSrv call.1 call.2 s.cache).2
    ∧ s'.lengths = if call.2 = s.cache.nums 0 ∨ call.2 = s.cache.nums 1 then s.lengths
      else Function.update s.lengths (replaceIdx s.cache) (some (getTimePeriodLength call.1))

/-- The slots with the number of the call were replaced under the present period length. -/
def UpToDate (x : Transition Filled (HsdirEnv × UInt64)) : Prop :=
  ∀ i, x.input.2 = x.pre.cache.nums i → x.pre.lengths i = some (getTimePeriodLength x.input.1)

/-- A slot holds what its number had under its length. -/
def Holds (sha3 : List UInt8 → Bytes 32) (s : Filled) : Prop :=
  ∀ i length, s.lengths i = some length → ∀ env : HsdirEnv, env.sha3 = sha3 →
    getTimePeriodLength env = length → s.cache.srvs i = computeDisasterSrv env (s.cache.nums i)

theorem computeDisasterSrv_congr {env env' : HsdirEnv} (hash : env.sha3 = env'.sha3)
    (length : getTimePeriodLength env = getTimePeriodLength env') (num : UInt64) :
    computeDisasterSrv env num = computeDisasterSrv env' num := by
  rw [computeDisasterSrv, computeDisasterSrv, hash, length]

theorem Holds.step {sha3 : List UInt8 → Bytes 32} {s s' : Filled} {call : HsdirEnv × UInt64}
    (holds : Holds sha3 s) (step : DisasterStep sha3 s call s') : Holds sha3 s' := by
  obtain ⟨hash, cache, lengths⟩ := step
  intro i length filled env sameHash sameLength
  unfold getDisasterSrv at cache
  by_cases first : call.2 = s.cache.nums 0
  · rw [if_pos first] at cache
    rw [if_pos (Or.inl first)] at lengths
    rw [cache]
    exact holds i length (lengths ▸ filled) env sameHash sameLength
  · by_cases second : call.2 = s.cache.nums 1
    · rw [if_neg first, if_pos second] at cache
      rw [if_pos (Or.inr second)] at lengths
      rw [cache]
      exact holds i length (lengths ▸ filled) env sameHash sameLength
    · rw [if_neg first, if_neg second] at cache
      rw [if_neg (not_or.mpr ⟨first, second⟩)] at lengths
      rw [lengths] at filled
      rw [cache]
      by_cases replaced : i = replaceIdx s.cache
      · subst replaced
        simp only [Function.update_self, Option.some.injEq] at filled ⊢
        exact computeDisasterSrv_congr (hash.trans sameHash.symm) (filled.trans sameLength.symm) _
      · simp only [Function.update_of_ne replaced] at filled ⊢
        exact holds i length filled env sameHash sameLength

theorem getDisasterSrv_upToDate {sha3 : List UInt8 → Bytes 32}
    {x : Transition Filled (HsdirEnv × UInt64)} (holds : Holds sha3 x.pre)
    (hash : x.input.1.sha3 = sha3) (current : UpToDate x) :
    (getDisasterSrv x.input.1 x.input.2 x.pre.cache).1
      = computeDisasterSrv x.input.1 x.input.2 := by
  have here : ∀ i, x.input.2 = x.pre.cache.nums i →
      x.pre.cache.srvs i = computeDisasterSrv x.input.1 x.input.2 := by
    intro i same
    rw [same]
    exact holds i _ (current i same) x.input.1 hash rfl
  unfold getDisasterSrv
  split
  · next first => exact here 0 first
  · split
    · next second => exact here 1 second
    · rfl

/-- When the next time period starts on time, and when disaster values are not stale. -/
theorem timePeriods_exact (env : PeriodEnv) (now : Int64) (sha3 : List UInt8 → Bytes 32)
    (calls : List (Transition Filled (HsdirEnv × UInt64))) (final : Filled) :
    (NextStartRight env now ↔ OnMinutes env now)
      ∧ (Run (DisasterStep sha3) ⟨initialCache, fun _ => none⟩ calls final →
        ∀ x ∈ calls, UpToDate x →
          (getDisasterSrv x.input.1 x.input.2 x.pre.cache).1
            = computeDisasterSrv x.input.1 x.input.2) := by
  constructor
  · by_cases since : 0 ≤ (timeOf env now).toInt
    · exact nextStartRight_iff since
    · constructor
      · exact fun right => absurd right (not_nextStartRight (not_le.mp since))
      · intro minutes
        have late := minutes.late
        omega
  · intro run x member current
    obtain ⟨earlier, later, -, reached⟩ := run.prefix_of_mem x member
    have holds : Holds sha3 x.pre := reached.invariant (fun _ _ filled => by cases filled)
      fun _ _ _ holds step => holds.step step
    exact getDisasterSrv_upToDate holds (run.step_of_mem x member).1 current

/-- A network that votes every so many seconds. -/
def votingEvery (seconds : Int32) : PeriodEnv where
  sha3 := fun _ => ⟨List.replicate 32 1, rfl⟩
  smartlistSort := fun index => Library.Sorting.insertionSorter (compareNodeHsdirIndex index)
  ns := fun _ => none
  testingTorNetwork := false
  protocolRunDuration := (24 * seconds).toUInt32.toNat
  liveConsensus := none
  votingInterval := seconds
  currentTime := 1700000000
  runDuration := rfl

theorem timePeriods_exact_hourly :
    NextStartRight (votingEvery 3600) 1700000000
      ∧ (getDisasterSrv (votingEvery 3600).toHsdirEnv 7 initialCache).1
        = computeDisasterSrv (votingEvery 3600).toHsdirEnv 7 :=
  have exact_ := timePeriods_exact (votingEvery 3600) 1700000000 (votingEvery 3600).sha3 _ ⟨_, _⟩
  ⟨exact_.1.mpr ⟨by decide, by decide, by decide, by decide⟩,
    exact_.2 (Run.single ⟨rfl, rfl, rfl⟩) ⟨_, (_, 7), _⟩ (List.mem_singleton_self _) fun _ same =>
      absurd same (show ¬(7 : UInt64) = 0 by decide)⟩

/-- With votes every 432 seconds the phase is 24 seconds longer than its minutes, and the first
call for period 0 gives the bytes of an empty slot. -/
theorem timePeriods_late :
    ¬NextStartRight (votingEvery 432) 1700000000
      ∧ (getDisasterSrv (votingEvery 432).toHsdirEnv 0 initialCache).1
        ≠ computeDisasterSrv (votingEvery 432).toHsdirEnv 0 := by
  constructor
  · intro right
    exact absurd ((nextStartRight_iff (by decide)).mp right).full (by decide)
  · decide

end RendezMix.Guarantees.PeriodBoundaries
