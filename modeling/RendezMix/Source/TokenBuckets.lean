import Mathlib

/-!
# Token buckets

`lib/evloop/token_bucket.c`. An `int32_t` is an integer that wraps where it is assigned to, a
`uint32_t` is a `UInt32`; differences of type `size_t` have 64 bits. What a platform makes of
stamp units in milliseconds is a parameter.
-/
namespace RendezMix.Source.TokenBuckets

/-- An assignment to an `int32_t`. -/
def int32 (x : Int) : Int := Int.bmod x (2 ^ 32)

def tokenBucketMaxBurst : UInt32 := 0x7fffffff

def ticksPerStep : UInt32 := 16

/-- `UINT32_MAX-(300*1000)` -/
def mostTicks : UInt32 := 0xffffffff - 300 * 1000

structure TokenBucketCfg where
  rate : UInt32
  burst : Int
  deriving DecidableEq

def tokenBucketCfgInit (rate burst : UInt32) : TokenBucketCfg :=
  ⟨rate, (if burst > tokenBucketMaxBurst then tokenBucketMaxBurst else burst).toNat⟩

/-! ## Raw buckets, which are their level -/

def tokenBucketRawReset (cfg : TokenBucketCfg) : Int := cfg.burst

def tokenBucketRawAdjust (bucket : Int) (cfg : TokenBucketCfg) : Int :=
  if bucket < cfg.burst then bucket else cfg.burst

/-- `token_bucket_raw_refill_steps`: the level, and whether it was not positive and is now. -/
def tokenBucketRawRefillSteps (bucket : Int) (cfg : TokenBucketCfg) (elapsed : UInt32) :
    Int × Bool :=
  let wasEmpty : Bool := bucket ≤ 0
  let gap := ((cfg.burst - bucket) % 2 ^ 64).toNat
  let bucket :=
    if elapsed.toNat > gap / cfg.rate.toNat then cfg.burst
    else int32 (bucket + (cfg.rate * elapsed).toNat)
  (bucket, wasEmpty && decide (0 < bucket))

/-- `token_bucket_raw_dec`: the level, and whether it was positive and is not now. -/
def tokenBucketRawDec (bucket n : Int) : Int × Bool :=
  if n < 0 then (bucket, false)
  else
    let becomesEmpty : Bool := bucket > 0 ∧ n ≥ bucket
    (int32 (bucket - n), becomesEmpty)

/-! ## Buckets for reading and writing -/

structure TokenBucketRw where
  cfg : TokenBucketCfg
  readBucket : Int
  writeBucket : Int
  lastRefilledAtTimestamp : UInt32
  deriving DecidableEq

/-- `TB_READ` and `TB_WRITE` -/
def tbFlags (read write : Bool) : Nat := (if read then 1 else 0) ||| (if write then 2 else 0)

section
-- `monotime_coarse_stamp_units_to_approx_msec`, of which there is one for each platform
variable (toApproxMsec : UInt64 → UInt64)

def ratePerSecToRatePerStep (rate : UInt32) : UInt32 :=
  let units := rate.toUInt64 * ticksPerStep.toUInt64
  let val := (toApproxMsec units / 1000).toUInt32
  if val ≠ 0 then val else 1

def tokenBucketRwAdjust (bucket : TokenBucketRw) (rate burst : UInt32) : TokenBucketRw :=
  let cfg := tokenBucketCfgInit (ratePerSecToRatePerStep toApproxMsec rate) burst
  { bucket with
    cfg := cfg
    readBucket := tokenBucketRawAdjust bucket.readBucket cfg
    writeBucket := tokenBucketRawAdjust bucket.writeBucket cfg }

def tokenBucketRwReset (bucket : TokenBucketRw) (nowTs : UInt32) : TokenBucketRw :=
  { bucket with
    readBucket := tokenBucketRawReset bucket.cfg
    writeBucket := tokenBucketRawReset bucket.cfg
    lastRefilledAtTimestamp := nowTs }

def tokenBucketRwInit (rate burst nowTs : UInt32) : TokenBucketRw :=
  tokenBucketRwReset (tokenBucketRwAdjust toApproxMsec ⟨⟨0, 0⟩, 0, 0, 0⟩ rate burst) nowTs

def tokenBucketRwRefill (bucket : TokenBucketRw) (nowTs : UInt32) : TokenBucketRw × Nat :=
  let elapsedTicks := nowTs - bucket.lastRefilledAtTimestamp
  if elapsedTicks > mostTicks then (bucket, 0)
  else
    let elapsedSteps := elapsedTicks / ticksPerStep
    if elapsedSteps = 0 then (bucket, 0)
    else
      let read := tokenBucketRawRefillSteps bucket.readBucket bucket.cfg elapsedSteps
      let write := tokenBucketRawRefillSteps bucket.writeBucket bucket.cfg elapsedSteps
      ({ bucket with
          readBucket := read.1
          writeBucket := write.1
          lastRefilledAtTimestamp := nowTs }, tbFlags read.2 write.2)

def tokenBucketRwDecRead (bucket : TokenBucketRw) (n : Int) : TokenBucketRw × Bool :=
  let read := tokenBucketRawDec bucket.readBucket n
  ({ bucket with readBucket := read.1 }, read.2)

def tokenBucketRwDecWrite (bucket : TokenBucketRw) (n : Int) : TokenBucketRw × Bool :=
  let write := tokenBucketRawDec bucket.writeBucket n
  ({ bucket with writeBucket := write.1 }, write.2)

def tokenBucketRwDec (bucket : TokenBucketRw) (nRead nWritten : Int) : TokenBucketRw × Nat :=
  let read := tokenBucketRwDecRead bucket nRead
  let write := tokenBucketRwDecWrite read.1 nWritten
  (write.1, tbFlags read.2 write.2)

/-- A call on a bucket for reading and writing. -/
inductive RwOp
  | refill (nowTs : UInt32)
  | decRead (n : Int)
  | decWrite (n : Int)
  | dec (nRead nWritten : Int)
  | adjust (rate burst : UInt32)

/-- The bucket after a call, and what the call returns. -/
def rwStep (bucket : TokenBucketRw) : RwOp → TokenBucketRw × Nat
  | .refill nowTs => tokenBucketRwRefill bucket nowTs
  | .decRead n =>
    let read := tokenBucketRwDecRead bucket n
    (read.1, read.2.toNat)
  | .decWrite n =>
    let write := tokenBucketRwDecWrite bucket n
    (write.1, write.2.toNat)
  | .dec nRead nWritten => tokenBucketRwDec bucket nRead nWritten
  | .adjust rate burst => (tokenBucketRwAdjust toApproxMsec bucket rate burst, 0)

end

/-! ## Buckets with a single counter -/

structure TokenBucketCtr where
  cfg : TokenBucketCfg
  counter : Int
  lastRefilledAtTimestamp : UInt32
  deriving DecidableEq

def tokenBucketCtrAdjust (bucket : TokenBucketCtr) (rate burst : UInt32) : TokenBucketCtr :=
  let cfg := tokenBucketCfgInit rate burst
  { bucket with cfg := cfg, counter := tokenBucketRawAdjust bucket.counter cfg }

def tokenBucketCtrReset (bucket : TokenBucketCtr) (nowTs : UInt32) : TokenBucketCtr :=
  { bucket with counter := tokenBucketRawReset bucket.cfg, lastRefilledAtTimestamp := nowTs }

def tokenBucketCtrInit (rate burst nowTs : UInt32) : TokenBucketCtr :=
  tokenBucketCtrReset (tokenBucketCtrAdjust ⟨⟨0, 0⟩, 0, 0⟩ rate burst) nowTs

def tokenBucketCtrRefill (bucket : TokenBucketCtr) (nowTs : UInt32) : TokenBucketCtr :=
  let elapsedTicks := nowTs - bucket.lastRefilledAtTimestamp
  if elapsedTicks > mostTicks then bucket
  else
    { bucket with
      counter := (tokenBucketRawRefillSteps bucket.counter bucket.cfg elapsedTicks).1
      lastRefilledAtTimestamp := nowTs }

def tokenBucketCtrDec (bucket : TokenBucketCtr) (n : Int) : TokenBucketCtr × Bool :=
  let counter := tokenBucketRawDec bucket.counter n
  ({ bucket with counter := counter.1 }, counter.2)

/-- A call on a bucket with a single counter. -/
inductive CtrOp
  | refill (nowTs : UInt32)
  | dec (n : Int)
  | adjust (rate burst : UInt32)

/-- The bucket after a call, and what the call returns. -/
def ctrStep (bucket : TokenBucketCtr) : CtrOp → TokenBucketCtr × Bool
  | .refill nowTs => (tokenBucketCtrRefill bucket nowTs, false)
  | .dec n => tokenBucketCtrDec bucket n
  | .adjust rate burst => (tokenBucketCtrAdjust bucket rate burst, false)

end RendezMix.Source.TokenBuckets
