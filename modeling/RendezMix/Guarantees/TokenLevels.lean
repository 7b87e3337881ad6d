import RendezMix.Library.TokenMeters
import RendezMix.Source.TokenBuckets

/-!
# Token buckets do not grant too much

As long as no decrement takes a level below the least `int32_t`, a token bucket is a meter in
unbounded arithmetic: its level stays within the burst, a refill adds what the steps grant, and
what is taken is within the burst and what the clock has granted. A decrement past the least
`int32_t` wraps around to a level above the burst.
-/
namespace RendezMix.Guarantees.TokenLevels
open Library.Runs Library.TokenMeters Source.TokenBuckets

/-! ## Raw buckets -/

/-- A configuration is usable and a level respects it. -/
structure Sound (cfg : TokenBucketCfg) (level : Int) : Prop where
  rate : 0 < cfg.rate.toNat
  positive : 0 < cfg.burst
  small : cfg.burst < 2 ^ 31
  low : -2 ^ 31 ≤ level
  high : level ≤ cfg.burst

variable {cfg : TokenBucketCfg} {level : Int}

theorem int32_eq {x : Int} (low : -2 ^ 31 ≤ x) (high : x < 2 ^ 31) : int32 x = x :=
  Int.bmod_eq_of_le (by omega) (by omega)

section

variable (sound : Sound cfg level)

include sound

theorem tokenBucketRawRefillSteps_eq (elapsed : UInt32) :
    tokenBucketRawRefillSteps level cfg elapsed
      = (refilled cfg.rate.toNat cfg.burst level elapsed.toNat,
        decide (level ≤ 0 ∧ 0 < refilled cfg.rate.toNat cfg.burst level elapsed.toNat)) := by
  obtain ⟨rate, positive, small, low, high⟩ := sound
  have gap : (((cfg.burst - level) % 2 ^ 64).toNat : Int) = cfg.burst - level := by omega
  have exact_ : (if elapsed.toNat > ((cfg.burst - level) % 2 ^ 64).toNat / cfg.rate.toNat
      then cfg.burst else int32 (level + (cfg.rate * elapsed).toNat))
        = refilled cfg.rate.toNat cfg.burst level elapsed.toNat := by
    have product : ((elapsed.toNat * cfg.rate.toNat : Nat) : Int)
        = (elapsed.toNat : Int) * cfg.rate.toNat := by push_cast; rfl
    unfold refilled
    split
    next beyond =>
      have more := (Nat.div_lt_iff_lt_mul rate).mp beyond
      rw [min_eq_left (by omega)]
    next within =>
      have fewer := (Nat.le_div_iff_mul_le rate).mp (Nat.le_of_not_lt within)
      have fits : (cfg.rate * elapsed).toNat = elapsed.toNat * cfg.rate.toNat := by
        rw [UInt32.toNat_mul, Nat.mul_comm, Nat.mod_eq_of_lt (by omega)]
      rw [fits, int32_eq (by omega) (by omega), min_eq_right (by omega), product]
  unfold tokenBucketRawRefillSteps
  simp only
  rw [exact_]
  simp

theorem tokenBucketRawDec_eq {n : Int} (fits : -2 ^ 31 ≤ level - n.toNat) :
    tokenBucketRawDec level n
      = (level - n.toNat, decide (0 < level ∧ level - n.toNat ≤ 0)) := by
  obtain ⟨-, -, small, low, high⟩ := sound
  unfold tokenBucketRawDec
  split
  next negative =>
    have none : n.toNat = 0 := by omega
    have same : ¬ (0 < level ∧ level - (0 : Nat) ≤ 0) := by omega
    rw [none, decide_eq_false same]
    simp
  next natural =>
    have whole : (n.toNat : Int) = n := by omega
    have empties : (0 < level ∧ level ≤ n) ↔ 0 < level ∧ level - n ≤ 0 := by omega
    rw [whole, int32_eq (by omega) (by omega)]
    simp [empties]

theorem refilled_sound (steps : Nat) :
    Sound cfg (refilled cfg.rate.toNat cfg.burst level steps) := by
  obtain ⟨rate, positive, small, low, high⟩ := sound
  have granted : 0 ≤ (steps : Int) * cfg.rate.toNat :=
    Int.mul_nonneg (Int.natCast_nonneg steps) (Int.natCast_nonneg _)
  exact ⟨rate, positive, small, le_min (by omega) (by omega), refilled_le_burst _ _ _ steps⟩

theorem dec_sound {n : Nat} (fits : -2 ^ 31 ≤ level - n) : Sound cfg (level - n) := by
  obtain ⟨rate, positive, small, low, high⟩ := sound
  exact ⟨rate, positive, small, fits, by omega⟩

theorem refilled_zero : refilled cfg.rate.toNat cfg.burst level 0 = level := by
  have high := sound.high
  unfold refilled
  simp [high]

end

theorem tokenBucketCfgInit_burst (rate : UInt32) {burst : UInt32} (positive : 0 < burst) :
    0 < (tokenBucketCfgInit rate burst).burst ∧ (tokenBucketCfgInit rate burst).burst < 2 ^ 31 := by
  have natural : 0 < burst.toNat := UInt32.lt_iff_toNat_lt.mp positive
  unfold tokenBucketCfgInit
  simp only
  split
  next => decide
  next below =>
    have most : burst.toNat ≤ tokenBucketMaxBurst.toNat :=
      Nat.le_of_not_lt fun more => below (UInt32.lt_iff_toNat_lt.mpr more)
    have limit : tokenBucketMaxBurst.toNat = 2 ^ 31 - 1 := rfl
    omega

theorem tokenBucketRawAdjust_eq (level : Int) (cfg : TokenBucketCfg) :
    tokenBucketRawAdjust level cfg = min level cfg.burst := by
  unfold tokenBucketRawAdjust
  split <;> omega

theorem adjust_sound (sound : Sound cfg level) {rate burst : UInt32} (rated : 0 < rate.toNat)
    (positive : 0 < burst) :
    Sound (tokenBucketCfgInit rate burst) (min level (tokenBucketCfgInit rate burst).burst) := by
  have low := sound.low
  obtain ⟨some_, small⟩ := tokenBucketCfgInit_burst rate positive
  exact ⟨rated, some_, small, by omega, min_le_right _ _⟩

/-! ## The clock -/

/-- The steps between two stamps, each of some ticks, modulo `2 ^ 32`. Nothing is granted for a
jump of the clock or for less than one step. -/
def stepsBetween (ticks a b : Nat) : Option Nat :=
  let passed := (((b : Int) - a) % 2 ^ 32).toNat
  if passed > mostTicks.toNat ∨ passed / ticks = 0 then none else some (passed / ticks)

/-- The steps since a start. -/
def stepsSince (ticks start now : Nat) : Nat := (now - start) / ticks

theorem stepsBetween_within {start : Nat} (ticks a b n : Nat) (started : start ≤ a)
    (forward : a ≤ b) (passed : stepsBetween ticks a b = some n) :
    stepsSince ticks start a + n ≤ stepsSince ticks start b := by
  unfold stepsBetween at passed
  simp only at passed
  split at passed
  next => cases passed
  next =>
    rw [← Option.some.inj passed]
    have wrap : (((b : Int) - a) % 2 ^ 32).toNat ≤ b - a := by omega
    calc
      stepsSince ticks start a + (((b : Int) - a) % 2 ^ 32).toNat / ticks
        ≤ (a - start) / ticks + (b - a) / ticks := Nat.add_le_add_left (Nat.div_le_div_right wrap) _
      _ ≤ (a - start + (b - a)) / ticks := Nat.div_add_div_le_add_div
      _ = stepsSince ticks start b := by
        congr 1
        omega

theorem stepsSince_mono (ticks start a b : Nat) (le : a ≤ b) :
    stepsSince ticks start a ≤ stepsSince ticks start b :=
  Nat.div_le_div_right (Nat.sub_le_sub_right le start)

theorem elapsed_toNat (now last : UInt32) :
    (now - last).toNat = (((now.toNat : Int) - last.toNat) % 2 ^ 32).toNat := by
  have second := last.toNat_lt
  rw [UInt32.toNat_sub]
  omega

/-! ## Meters -/

/-- A level with its configuration and the stamp of its last refill. -/
def meterOf (cfg : TokenBucketCfg) (level : Int) (last : UInt32) : Meter :=
  ⟨cfg.rate.toNat, cfg.burst, level, last.toNat⟩

/-- A refill that is not put off. -/
theorem meterOf_refill (cfg : TokenBucketCfg) (ticks : Nat) {now last : UInt32}
    (inTime : ¬ now - last > mostTicks) (later : (now - last).toNat / ticks ≠ 0) (level : Int) :
    (meterOf cfg level last).after (stepsBetween ticks) (.refill now.toNat)
      = meterOf cfg (refilled cfg.rate.toNat cfg.burst level ((now - last).toNat / ticks)) now := by
  have most : ¬ (now - last).toNat > mostTicks.toNat := fun more =>
    inTime (UInt32.lt_iff_toNat_lt.mpr more)
  have steps : stepsBetween ticks last.toNat now.toNat = some ((now - last).toNat / ticks) := by
    unfold stepsBetween
    simp only
    rw [← elapsed_toNat, if_neg fun off => off.elim most later]
  unfold Meter.after meterOf
  simp only [steps]

theorem meterOf_refill_off (cfg : TokenBucketCfg) (ticks : Nat) {now last : UInt32}
    (off : now - last > mostTicks ∨ (now - last).toNat / ticks = 0) (level : Int) :
    (meterOf cfg level last).after (stepsBetween ticks) (.refill now.toNat)
      = meterOf cfg level last := by
  have steps : stepsBetween ticks last.toNat now.toNat = none := by
    unfold stepsBetween
    simp only
    rw [← elapsed_toNat, if_pos (off.imp_left UInt32.lt_iff_toNat_lt.mp)]
  unfold Meter.after meterOf
  simp only [steps]

/-! ## Buckets for reading and writing -/

section
variable {toApproxMsec : UInt64 → UInt64}

/-- A call with the arguments that the functions are for. -/
def RwCall (toApproxMsec : UInt64 → UInt64) (bucket : TokenBucketRw) (call : RwOp × Nat)
    (bucket' : TokenBucketRw) : Prop :=
  (∀ rate burst, call.1 = .adjust rate burst → 0 < rate ∧ 0 < burst)
    ∧ rwStep toApproxMsec bucket call.1 = (bucket', call.2)

/-- What a call takes from the bucket for reading, and from the one for writing. -/
def rwTakes : RwOp → Nat × Nat
  | .decRead n => (n.toNat, 0)
  | .decWrite n => (0, n.toNat)
  | .dec nRead nWritten => (nRead.toNat, nWritten.toNat)
  | _ => (0, 0)

/-- No level is taken below the least `int32_t`. -/
def RwFits (x : Transition TokenBucketRw (RwOp × Nat)) : Prop :=
  -2 ^ 31 ≤ x.pre.readBucket - (rwTakes x.input.1).1
    ∧ -2 ^ 31 ≤ x.pre.writeBucket - (rwTakes x.input.1).2

def becomesNonempty (level level' : Int) : Bool := level ≤ 0 ∧ 0 < level'

def becomesEmpty (level level' : Int) : Bool := 0 < level ∧ level' ≤ 0

/-- What each call does to the levels, in unbounded arithmetic, and what it returns. -/
def RwRight (x : Transition TokenBucketRw (RwOp × Nat)) : Prop :=
  match x.input with
  | (.refill nowTs, flags) =>
    let passed := (nowTs - x.pre.lastRefilledAtTimestamp).toNat
    x.post.cfg = x.pre.cfg
      ∧ flags = tbFlags (becomesNonempty x.pre.readBucket x.post.readBucket)
        (becomesNonempty x.pre.writeBucket x.post.writeBucket)
      ∧ if passed ≤ mostTicks.toNat then
          x.post.readBucket = min x.pre.cfg.burst
            (x.pre.readBucket + ((passed / 16 : Nat) : Int) * x.pre.cfg.rate.toNat)
          ∧ x.post.writeBucket = min x.pre.cfg.burst
            (x.pre.writeBucket + ((passed / 16 : Nat) : Int) * x.pre.cfg.rate.toNat)
        else x.post = x.pre
  | (.adjust _ _, _) =>
    x.post.readBucket = min x.pre.readBucket x.post.cfg.burst
      ∧ x.post.writeBucket = min x.pre.writeBucket x.post.cfg.burst
  | (op, flags) =>
    x.post.cfg = x.pre.cfg
      ∧ x.post.readBucket = x.pre.readBucket - (rwTakes op).1
      ∧ x.post.writeBucket = x.pre.writeBucket - (rwTakes op).2
      ∧ flags = match op with
        | .dec _ _ => tbFlags (becomesEmpty x.pre.readBucket x.post.readBucket)
          (becomesEmpty x.pre.writeBucket x.post.writeBucket)
        | .decRead _ => (becomesEmpty x.pre.readBucket x.post.readBucket).toNat
        | _ => (becomesEmpty x.pre.writeBucket x.post.writeBucket).toNat

/-- A call as an event of the two meters. -/
def rwEvents (toApproxMsec : UInt64 → UInt64) :
    RwOp → MeterEvent × MeterEvent
  | .refill nowTs => (.refill nowTs.toNat, .refill nowTs.toNat)
  | .adjust rate burst =>
    let cfg := tokenBucketCfgInit (ratePerSecToRatePerStep toApproxMsec rate) burst
    (.adjust cfg.rate.toNat cfg.burst, .adjust cfg.rate.toNat cfg.burst)
  | op => (.take (rwTakes op).1, .take (rwTakes op).2)

def RwSound (bucket : TokenBucketRw) : Prop :=
  Sound bucket.cfg bucket.readBucket ∧ Sound bucket.cfg bucket.writeBucket

def readMeter (bucket : TokenBucketRw) : Meter :=
  meterOf bucket.cfg bucket.readBucket bucket.lastRefilledAtTimestamp

def writeMeter (bucket : TokenBucketRw) : Meter :=
  meterOf bucket.cfg bucket.writeBucket bucket.lastRefilledAtTimestamp

/-- A call does what it should, and both buckets stay meters. -/
structure RwStep (toApproxMsec : UInt64 → UInt64) (x : Transition TokenBucketRw (RwOp × Nat)) :
    Prop where
  sound : RwSound x.post
  right : RwRight x
  read : readMeter x.post
    = (readMeter x.pre).after (stepsBetween 16) (rwEvents toApproxMsec x.input.1).1
  write : writeMeter x.post
    = (writeMeter x.pre).after (stepsBetween 16) (rwEvents toApproxMsec x.input.1).2

theorem ratePerSecToRatePerStep_pos (toApproxMsec : UInt64 → UInt64) (rate : UInt32) :
    0 < (ratePerSecToRatePerStep toApproxMsec rate).toNat := by
  unfold ratePerSecToRatePerStep
  simp only
  split
  next some_ => exact Nat.pos_of_ne_zero fun zero => some_ (UInt32.toNat_inj.mp zero)
  next => decide

theorem becomesNonempty_self (level : Int) : becomesNonempty level level = false := by
  simp [becomesNonempty]

theorem rwRefill_step (toApproxMsec : UInt64 → UInt64) {bucket : TokenBucketRw}
    (sound : RwSound bucket) (nowTs : UInt32) :
    RwStep toApproxMsec ⟨bucket, (.refill nowTs, (tokenBucketRwRefill bucket nowTs).2),
      (tokenBucketRwRefill bucket nowTs).1⟩ := by
  have steps : ((nowTs - bucket.lastRefilledAtTimestamp) / ticksPerStep).toNat
      = (nowTs - bucket.lastRefilledAtTimestamp).toNat / 16 := UInt32.toNat_div _ _
  unfold tokenBucketRwRefill
  simp only
  split
  next jumped =>
    have off := meterOf_refill_off bucket.cfg 16 (Or.inl jumped)
    have most := UInt32.lt_iff_toNat_lt.mp jumped
    refine ⟨sound, ?_, (off bucket.readBucket).symm,
      (off bucket.writeBucket).symm⟩
    simp only [RwRight, becomesNonempty_self]
    rw [if_neg (by omega)]
    exact ⟨trivial, rfl, trivial⟩
  next inTime =>
    have most : (nowTs - bucket.lastRefilledAtTimestamp).toNat ≤ mostTicks.toNat :=
      Nat.le_of_not_lt fun more => inTime (UInt32.lt_iff_toNat_lt.mpr more)
    split
    next none =>
      have zero : (nowTs - bucket.lastRefilledAtTimestamp).toNat / 16 = 0 := by
        rw [← steps, none]
        rfl
      have off := meterOf_refill_off bucket.cfg 16 (Or.inr zero)
      refine ⟨sound, ?_, (off bucket.readBucket).symm,
        (off bucket.writeBucket).symm⟩
      simp only [RwRight, becomesNonempty_self]
      rw [if_pos most, zero]
      exact ⟨trivial, rfl, (refilled_zero sound.1).symm, (refilled_zero sound.2).symm⟩
    next later =>
      have some_ : (nowTs - bucket.lastRefilledAtTimestamp).toNat / 16 ≠ 0 := by
        rw [← steps]
        exact fun zero => later (UInt32.toNat_inj.mp zero)
      have on := meterOf_refill bucket.cfg 16 inTime some_
      rw [tokenBucketRawRefillSteps_eq sound.1, tokenBucketRawRefillSteps_eq sound.2, steps]
      refine ⟨⟨refilled_sound sound.1 _, refilled_sound sound.2 _⟩, ?_,
        (on bucket.readBucket).symm, (on bucket.writeBucket).symm⟩
      simp only [RwRight]
      rw [if_pos most]
      exact ⟨trivial, rfl, rfl, rfl⟩

theorem rwStep_right {bucket bucket' : TokenBucketRw} {call : RwOp × Nat} (sound : RwSound bucket)
    (taken : RwCall toApproxMsec bucket call bucket') (fits : RwFits ⟨bucket, call, bucket'⟩) :
    RwStep toApproxMsec ⟨bucket, call, bucket'⟩ := by
  obtain ⟨op, flags⟩ := call
  obtain ⟨positive, result⟩ := taken
  obtain ⟨readFits, writeFits⟩ := fits
  obtain ⟨readSound, writeSound⟩ := sound
  cases op with
  | refill nowTs =>
    have step := rwRefill_step toApproxMsec ⟨readSound, writeSound⟩ nowTs
    rw [rwStep] at result
    rw [result] at step
    exact step
  | decRead n =>
    simp only [rwStep, tokenBucketRwDecRead, tokenBucketRawDec_eq readSound readFits,
      Prod.mk.injEq] at result
    obtain ⟨rfl, rfl⟩ := result
    refine ⟨⟨dec_sound readSound readFits, writeSound⟩, ⟨rfl, rfl, ?_, rfl⟩, rfl, ?_⟩
    · simp [rwTakes]
    · simp [rwEvents, rwTakes, writeMeter, Meter.after, meterOf]
  | decWrite n =>
    simp only [rwStep, tokenBucketRwDecWrite, tokenBucketRawDec_eq writeSound writeFits,
      Prod.mk.injEq] at result
    obtain ⟨rfl, rfl⟩ := result
    refine ⟨⟨readSound, dec_sound writeSound writeFits⟩, ⟨rfl, ?_, rfl, rfl⟩, ?_, rfl⟩
    · simp [rwTakes]
    · simp [rwEvents, rwTakes, readMeter, Meter.after, meterOf]
  | dec nRead nWritten =>
    simp only [rwStep, tokenBucketRwDec, tokenBucketRwDecRead, tokenBucketRwDecWrite,
      tokenBucketRawDec_eq readSound readFits, tokenBucketRawDec_eq writeSound writeFits,
      Prod.mk.injEq] at result
    obtain ⟨rfl, rfl⟩ := result
    exact ⟨⟨dec_sound readSound readFits, dec_sound writeSound writeFits⟩, ⟨rfl, rfl, rfl, rfl⟩,
      rfl, rfl⟩
  | adjust rate burst =>
    have given := (positive rate burst rfl).2
    have rated := ratePerSecToRatePerStep_pos toApproxMsec rate
    simp only [rwStep, tokenBucketRwAdjust, tokenBucketRawAdjust_eq, Prod.mk.injEq] at result
    obtain ⟨rfl, rfl⟩ := result
    exact ⟨⟨adjust_sound readSound rated given, adjust_sound writeSound rated given⟩, ⟨rfl, rfl⟩,
      rfl, rfl⟩

theorem tokenBucketRwInit_sound {rate burst nowTs : UInt32} (positive : 0 < burst) :
    RwSound (tokenBucketRwInit toApproxMsec rate burst nowTs) := by
  obtain ⟨some_, small⟩ := tokenBucketCfgInit_burst
    (ratePerSecToRatePerStep toApproxMsec rate) positive
  have full : Sound (tokenBucketCfgInit (ratePerSecToRatePerStep toApproxMsec rate) burst)
      (tokenBucketCfgInit (ratePerSecToRatePerStep toApproxMsec rate) burst).burst :=
    ⟨ratePerSecToRatePerStep_pos toApproxMsec rate, some_, small, by omega, le_rfl⟩
  exact ⟨full, full⟩

def readEvents (toApproxMsec : UInt64 → UInt64)
    (ts : List (Transition TokenBucketRw (RwOp × Nat))) : List MeterEvent :=
  ts.map fun x => (rwEvents toApproxMsec x.input.1).1

def writeEvents (toApproxMsec : UInt64 → UInt64)
    (ts : List (Transition TokenBucketRw (RwOp × Nat))) : List MeterEvent :=
  ts.map fun x => (rwEvents toApproxMsec x.input.1).2

/-- A run of calls is a run of the two meters. -/
theorem rwRun_meters {bucket s : TokenBucketRw} {ts : List (Transition TokenBucketRw (RwOp × Nat))}
    (sound : RwSound bucket) (run : Run (RwCall toApproxMsec) bucket ts s)
    (fits : ∀ x ∈ ts, RwFits x) :
    RwSound s ∧ (∀ x ∈ ts, RwRight x)
      ∧ readMeter s = (readEvents toApproxMsec ts).foldl
        (Meter.after (stepsBetween 16)) (readMeter bucket)
      ∧ writeMeter s = (writeEvents toApproxMsec ts).foldl
        (Meter.after (stepsBetween 16)) (writeMeter bucket) := by
  induction run with
  | nil => exact ⟨sound, by simp, rfl, rfl⟩
  | snoc _ last ih =>
    obtain ⟨soundAt, right, read, write⟩ := ih fun x member =>
      fits x (List.mem_append_left _ member)
    have step := rwStep_right soundAt last
      (fits _ (List.mem_append_right _ (List.mem_singleton_self _)))
    have before := step.read
    have before' := step.write
    rw [read] at before
    rw [write] at before'
    refine ⟨step.sound, ?_, ?_, ?_⟩
    · intro x member
      rcases List.mem_append.mp member with earlier | final
      · exact right x earlier
      · rw [List.mem_singleton.mp final]
        exact step.right
    · rw [readEvents, List.map_append, List.foldl_append]
      exact before
    · rw [writeEvents, List.map_append, List.foldl_append]
      exact before'

theorem steady_write {start : Nat} (ts : List (Transition TokenBucketRw (RwOp × Nat)))
    (steady : Steady start (readEvents toApproxMsec ts)) :
    Steady start (writeEvents toApproxMsec ts)
      ∧ lastStamp start (writeEvents toApproxMsec ts)
        = lastStamp start (readEvents toApproxMsec ts) := by
  induction ts generalizing start with
  | nil => exact ⟨trivial, rfl⟩
  | cons x ts ih =>
    obtain ⟨pre, ⟨op, flags⟩, post⟩ := x
    cases op with
    | refill nowTs => exact ⟨⟨steady.1, (ih steady.2).1⟩, (ih steady.2).2⟩
    | adjust => exact steady.elim
    | decRead n | decWrite n | dec nRead nWritten => exact ih steady

/-- What a run takes from the two buckets. -/
def rwTaken (ts : List (Transition TokenBucketRw (RwOp × Nat))) : Nat × Nat :=
  ((ts.map fun x => (rwTakes x.input.1).1).sum, (ts.map fun x => (rwTakes x.input.1).2).sum)

theorem rwTaken_eq (toApproxMsec : UInt64 → UInt64)
    (ts : List (Transition TokenBucketRw (RwOp × Nat))) :
    rwTaken ts = (((readEvents toApproxMsec ts).map MeterEvent.taken).sum,
      ((writeEvents toApproxMsec ts).map MeterEvent.taken).sum) := by
  have same : ∀ op, (rwEvents toApproxMsec op).1.taken = (rwTakes op).1
      ∧ (rwEvents toApproxMsec op).2.taken = (rwTakes op).2 := by
    intro op
    cases op <;> exact ⟨rfl, rfl⟩
  unfold rwTaken readEvents writeEvents
  rw [List.map_map, List.map_map]
  simp only [Function.comp_def, same]

end

/-! ## Buckets with a single counter -/

/-- A call with the arguments that the functions are for. -/
def CtrCall (bucket : TokenBucketCtr) (call : CtrOp × Bool) (bucket' : TokenBucketCtr) : Prop :=
  (∀ rate burst, call.1 = .adjust rate burst → 0 < rate ∧ 0 < burst)
    ∧ ctrStep bucket call.1 = (bucket', call.2)

/-- What a call takes from the bucket. -/
def ctrTakes : CtrOp → Nat
  | .dec n => n.toNat
  | _ => 0

/-- The level is not taken below the least `int32_t`. -/
def CtrFits (x : Transition TokenBucketCtr (CtrOp × Bool)) : Prop :=
  -2 ^ 31 ≤ x.pre.counter - ctrTakes x.input.1

/-- What each call does to the level, in unbounded arithmetic, and what it returns. -/
def CtrRight (x : Transition TokenBucketCtr (CtrOp × Bool)) : Prop :=
  match x.input with
  | (.refill nowTs, _) =>
    let passed := (nowTs - x.pre.lastRefilledAtTimestamp).toNat
    x.post.cfg = x.pre.cfg
      ∧ if passed ≤ mostTicks.toNat then
          x.post.counter = min x.pre.cfg.burst
            (x.pre.counter + (passed : Int) * x.pre.cfg.rate.toNat)
        else x.post = x.pre
  | (.adjust _ _, _) => x.post.counter = min x.pre.counter x.post.cfg.burst
  | (.dec n, result) =>
    x.post.cfg = x.pre.cfg ∧ x.post.counter = x.pre.counter - n.toNat
      ∧ result = becomesEmpty x.pre.counter x.post.counter

/-- A call as an event of the meter. -/
def ctrEvent : CtrOp → MeterEvent
  | .refill nowTs => .refill nowTs.toNat
  | .dec n => .take n.toNat
  | .adjust rate burst =>
    .adjust (tokenBucketCfgInit rate burst).rate.toNat (tokenBucketCfgInit rate burst).burst

def ctrMeter (bucket : TokenBucketCtr) : Meter :=
  meterOf bucket.cfg bucket.counter bucket.lastRefilledAtTimestamp

/-- A call does what it should, and the bucket stays a meter. -/
structure CtrStep (x : Transition TokenBucketCtr (CtrOp × Bool)) : Prop where
  sound : Sound x.post.cfg x.post.counter
  right : CtrRight x
  meter : ctrMeter x.post = (ctrMeter x.pre).after (stepsBetween 1) (ctrEvent x.input.1)

theorem ctrRefill_step {bucket : TokenBucketCtr} (sound : Sound bucket.cfg bucket.counter)
    (nowTs : UInt32) (result : Bool) :
    CtrStep ⟨bucket, (.refill nowTs, result), tokenBucketCtrRefill bucket nowTs⟩ := by
  unfold tokenBucketCtrRefill
  simp only
  split
  next jumped =>
    have off := meterOf_refill_off bucket.cfg 1 (Or.inl jumped)
    have most := UInt32.lt_iff_toNat_lt.mp jumped
    refine ⟨sound, ?_, (off bucket.counter).symm⟩
    simp only [CtrRight]
    rw [if_neg (by omega)]
    exact ⟨trivial, trivial⟩
  next inTime =>
    have most : (nowTs - bucket.lastRefilledAtTimestamp).toNat ≤ mostTicks.toNat :=
      Nat.le_of_not_lt fun more => inTime (UInt32.lt_iff_toNat_lt.mpr more)
    rw [tokenBucketRawRefillSteps_eq sound]
    refine ⟨refilled_sound sound _, ?_, ?_⟩
    · simp only [CtrRight]
      rw [if_pos most]
      exact ⟨trivial, rfl⟩
    · by_cases same : (nowTs - bucket.lastRefilledAtTimestamp).toNat = 0
      · have stamp : nowTs = bucket.lastRefilledAtTimestamp := by
          have first := nowTs.toNat_lt
          have second := bucket.lastRefilledAtTimestamp.toNat_lt
          rw [elapsed_toNat] at same
          exact UInt32.toNat_inj.mp (by omega)
        have off := meterOf_refill_off bucket.cfg 1
          (Or.inr ((Nat.div_one _).trans same)) bucket.counter
        rw [same, refilled_zero sound, stamp]
        rw [stamp] at off
        exact off.symm
      · have on := meterOf_refill bucket.cfg 1 inTime
          (by rwa [Nat.div_one]) bucket.counter
        rw [Nat.div_one] at on
        exact on.symm

theorem ctrStep_right {bucket bucket' : TokenBucketCtr} {call : CtrOp × Bool}
    (sound : Sound bucket.cfg bucket.counter) (taken : CtrCall bucket call bucket')
    (fits : CtrFits ⟨bucket, call, bucket'⟩) : CtrStep ⟨bucket, call, bucket'⟩ := by
  obtain ⟨op, result⟩ := call
  obtain ⟨positive, step⟩ := taken
  cases op with
  | refill nowTs =>
    simp only [ctrStep, Prod.mk.injEq] at step
    rw [← step.1]
    exact ctrRefill_step sound nowTs result
  | dec n =>
    have fits : -2 ^ 31 ≤ bucket.counter - n.toNat := fits
    simp only [ctrStep, tokenBucketCtrDec, tokenBucketRawDec_eq sound fits, Prod.mk.injEq] at step
    obtain ⟨rfl, rfl⟩ := step
    exact ⟨dec_sound sound fits, ⟨rfl, rfl, rfl⟩, rfl⟩
  | adjust rate burst =>
    obtain ⟨rated, given⟩ := positive rate burst rfl
    simp only [ctrStep, tokenBucketCtrAdjust, tokenBucketRawAdjust_eq, Prod.mk.injEq] at step
    obtain ⟨rfl, rfl⟩ := step
    exact ⟨adjust_sound sound (UInt32.lt_iff_toNat_lt.mp rated) given, rfl, rfl⟩

theorem tokenBucketCtrInit_sound {rate burst nowTs : UInt32} (rated : 0 < rate)
    (positive : 0 < burst) :
    Sound (tokenBucketCtrInit rate burst nowTs).cfg
      (tokenBucketCtrInit rate burst nowTs).counter := by
  obtain ⟨some_, small⟩ := tokenBucketCfgInit_burst rate positive
  have low : -2 ^ 31 ≤ (tokenBucketCfgInit rate burst).burst := by omega
  exact ⟨UInt32.lt_iff_toNat_lt.mp rated, some_, small, low, le_rfl⟩

def ctrEvents (ts : List (Transition TokenBucketCtr (CtrOp × Bool))) : List MeterEvent :=
  ts.map fun x => ctrEvent x.input.1

/-- A run of calls is a run of the meter. -/
theorem ctrRun_meter {bucket s : TokenBucketCtr}
    {ts : List (Transition TokenBucketCtr (CtrOp × Bool))}
    (sound : Sound bucket.cfg bucket.counter) (run : Run CtrCall bucket ts s)
    (fits : ∀ x ∈ ts, CtrFits x) :
    Sound s.cfg s.counter ∧ (∀ x ∈ ts, CtrRight x)
      ∧ ctrMeter s = (ctrEvents ts).foldl (Meter.after (stepsBetween 1)) (ctrMeter bucket) := by
  induction run with
  | nil => exact ⟨sound, by simp, rfl⟩
  | snoc _ last ih =>
    obtain ⟨soundAt, right, meter⟩ := ih fun x member => fits x (List.mem_append_left _ member)
    have step := ctrStep_right soundAt last
      (fits _ (List.mem_append_right _ (List.mem_singleton_self _)))
    have before := step.meter
    rw [meter] at before
    refine ⟨step.sound, ?_, ?_⟩
    · intro x member
      rcases List.mem_append.mp member with earlier | final
      · exact right x earlier
      · rw [List.mem_singleton.mp final]
        exact step.right
    · rw [ctrEvents, List.map_append, List.foldl_append]
      exact before

/-- What a run takes from the bucket. -/
def ctrTaken (ts : List (Transition TokenBucketCtr (CtrOp × Bool))) : Nat :=
  (ts.map fun x => ctrTakes x.input.1).sum

theorem ctrTaken_eq (ts : List (Transition TokenBucketCtr (CtrOp × Bool))) :
    ctrTaken ts = ((ctrEvents ts).map MeterEvent.taken).sum := by
  have same : ∀ op, (ctrEvent op).taken = ctrTakes op := by
    intro op
    cases op <;> rfl
  unfold ctrTaken ctrEvents
  rw [List.map_map]
  simp only [Function.comp_def, same]

/-! ## All runs -/

/-- What a meter has given is within its burst and what the steps since the start have granted. -/
theorem taken_within (ticks start : Nat) (meter : Meter) (fresh : meter.stamp = start)
    (full : meter.level = meter.burst) (events : List MeterEvent) (steady : Steady start events) :
    ((events.map MeterEvent.taken).sum : Int)
      ≤ meter.burst + meter.rate * (stepsSince ticks start (lastStamp start events) : Int)
        - (events.foldl (Meter.after (stepsBetween ticks)) meter).level := by
  have taken := Meter.taken_le (stepsBetween_within ticks) (stepsSince_mono ticks start) events
    meter fresh.ge fresh.le steady
  have none : stepsSince ticks start meter.stamp = 0 := by
    rw [fresh, stepsSince, Nat.sub_self, Nat.zero_div]
  rw [none, full] at taken
  simp only [Nat.cast_zero, sub_zero] at taken
  omega

/-- In a run in which no decrement takes a level below the least `int32_t`, no bucket is ever
above its burst, each call does what it should, and under one configuration and a clock that
does not go back no more is taken than the burst and what the steps have granted. -/
theorem tokenBuckets_within (toApproxMsec : UInt64 → UInt64) :
    (∀ (rate burst nowTs : UInt32) ts s, 0 < rate → 0 < burst →
      Run (RwCall toApproxMsec) (tokenBucketRwInit toApproxMsec rate burst nowTs) ts s →
      (∀ x ∈ ts, RwFits x) →
      let cfg := (tokenBucketRwInit toApproxMsec rate burst nowTs).cfg
      (s.readBucket ≤ s.cfg.burst ∧ s.writeBucket ≤ s.cfg.burst) ∧ (∀ x ∈ ts, RwRight x)
        ∧ (Steady nowTs.toNat (readEvents toApproxMsec ts) →
          let steps := (lastStamp nowTs.toNat (readEvents toApproxMsec ts) - nowTs.toNat) / 16
          ((rwTaken ts).1 : Int) ≤ cfg.burst + cfg.rate.toNat * (steps : Nat) - s.readBucket
            ∧ ((rwTaken ts).2 : Int) ≤ cfg.burst + cfg.rate.toNat * (steps : Nat) - s.writeBucket))
      ∧ ∀ (rate burst nowTs : UInt32) ts s, 0 < rate → 0 < burst →
        Run CtrCall (tokenBucketCtrInit rate burst nowTs) ts s → (∀ x ∈ ts, CtrFits x) →
        let cfg := (tokenBucketCtrInit rate burst nowTs).cfg
        s.counter ≤ s.cfg.burst ∧ (∀ x ∈ ts, CtrRight x)
          ∧ (Steady nowTs.toNat (ctrEvents ts) →
            let steps := lastStamp nowTs.toNat (ctrEvents ts) - nowTs.toNat
            (ctrTaken ts : Int) ≤ cfg.burst + cfg.rate.toNat * (steps : Nat) - s.counter) := by
  constructor
  · intro rate burst nowTs ts s _ positive run fits
    obtain ⟨sound, right, read, write⟩ := rwRun_meters (tokenBucketRwInit_sound positive) run fits
    refine ⟨⟨sound.1.high, sound.2.high⟩, right, ?_⟩
    intro steady
    obtain ⟨steady', last⟩ := steady_write ts steady
    have reads := taken_within 16 nowTs.toNat
      (readMeter (tokenBucketRwInit toApproxMsec rate burst nowTs)) rfl rfl _ steady
    have writes := taken_within 16 nowTs.toNat
      (writeMeter (tokenBucketRwInit toApproxMsec rate burst nowTs)) rfl rfl _ steady'
    rw [← read] at reads
    rw [← write, last] at writes
    rw [rwTaken_eq toApproxMsec]
    exact ⟨reads, writes⟩
  · intro rate burst nowTs ts s rated positive run fits
    obtain ⟨sound, right, meter⟩ := ctrRun_meter (tokenBucketCtrInit_sound rated positive) run fits
    refine ⟨sound.high, right, ?_⟩
    intro steady
    have takes := taken_within 1 nowTs.toNat (ctrMeter (tokenBucketCtrInit rate burst nowTs)) rfl
      rfl _ steady
    rw [← meter, stepsSince, Nat.div_one] at takes
    rw [ctrTaken_eq]
    exact takes

/-- A bucket of ten tokens that twelve are taken from has three after five steps. -/
theorem tokenBuckets_within_refill :
    ∃ ts s, Run CtrCall (tokenBucketCtrInit 1 10 0) ts s ∧ s.counter = 3 ∧ ctrTaken ts = 12
      ∧ (ctrTaken ts : Int) ≤ 10 + 1 * ((5 : Nat) : Int) - s.counter := by
  have run : Run CtrCall (tokenBucketCtrInit 1 10 0)
      ([⟨⟨⟨1, 10⟩, 10, 0⟩, (.dec 12, true), ⟨⟨1, 10⟩, -2, 0⟩⟩]
        ++ [⟨⟨⟨1, 10⟩, -2, 0⟩, (.refill 5, false), ⟨⟨1, 10⟩, 3, 5⟩⟩]) ⟨⟨1, 10⟩, 3, 5⟩ :=
    Run.snoc (Run.single ⟨fun _ _ other => (nomatch other), by decide⟩)
      ⟨fun _ _ other => (nomatch other), by decide⟩
  have fits : ∀ x ∈ ([⟨⟨⟨1, 10⟩, 10, 0⟩, (.dec 12, true), ⟨⟨1, 10⟩, -2, 0⟩⟩]
      ++ [⟨⟨⟨1, 10⟩, -2, 0⟩, (.refill 5, false), ⟨⟨1, 10⟩, 3, 5⟩⟩] :
        List (Transition TokenBucketCtr (CtrOp × Bool))), CtrFits x := by
    simp [CtrFits, ctrTakes]
  have within := ((tokenBuckets_within id).2 1 10 0 _ _ (by decide) (by decide) run fits).2.2
    (by simp [Steady, ctrEvents, ctrEvent])
  exact ⟨_, _, run, rfl, rfl, within⟩

/-- Two decrements of `INT_MAX - 1` leave more in a bucket than its burst. -/
theorem tokenBuckets_wrap :
    ¬ ∀ (rate burst nowTs : UInt32) ts s, 0 < rate → 0 < burst →
      Run CtrCall (tokenBucketCtrInit rate burst nowTs) ts s → s.counter ≤ s.cfg.burst := by
  intro within
  have one : ∀ level level' : Int, ∀ result,
      ctrStep ⟨⟨1, 1⟩, level, 0⟩ (.dec (2 ^ 31 - 2)) = (⟨⟨1, 1⟩, level', 0⟩, result) →
      CtrCall ⟨⟨1, 1⟩, level, 0⟩ (.dec (2 ^ 31 - 2), result) ⟨⟨1, 1⟩, level', 0⟩ :=
    fun _ _ _ step => ⟨fun _ _ other => (nomatch other), step⟩
  have run : Run CtrCall (tokenBucketCtrInit 1 1 0) _ ⟨⟨1, 1⟩, 5, 0⟩ :=
    Run.snoc (Run.single (one 1 (3 - 2 ^ 31) true (by decide)))
      (one (3 - 2 ^ 31) 5 false (by decide))
  exact absurd (within 1 1 0 _ _ (by decide) (by decide) run) (by decide)

end RendezMix.Guarantees.TokenLevels
