import RendezMix.Source.Binascii
import RendezMix.Source.HsCommon

/-!
# Time periods and disaster values

The time period functions of `feature/hs/hs_common.c`, and the cache of the shared random values
that stand in when the authorities give none. A failed assertion and a division by zero are
`none`.
-/
namespace RendezMix.Source.TimePeriods
open Library.ByteStrings

/-- What the functions read: `get_voting_interval`, in seconds, and the time that is taken when
none is set. -/
structure PeriodEnv extends HsdirEnv where
  votingInterval : Int32
  currentTime : Int64
  runDuration : protocolRunDuration = (24 * votingInterval).toUInt32.toNat

/-- `SHARED_RANDOM_N_ROUNDS` voting intervals. -/
def srStateGetPhaseDuration (env : PeriodEnv) : UInt32 := (12 * env.votingInterval).toUInt32

/-- The length that `get_time_period_length` returns. -/
def timePeriodLength (env : PeriodEnv) : UInt64 := UInt64.ofNat (getTimePeriodLength env.toHsdirEnv)

/-- The time a function is asked for. -/
def timeOf (env : PeriodEnv) (now : Int64) : Int64 := if now ≠ 0 then now else env.currentTime

def hsGetTimePeriodNum (env : PeriodEnv) (now : Int64) : Option UInt64 :=
  let minutesSinceEpoch := (timeOf env now / 60).toUInt64
  let timePeriodRotationOffset := (srStateGetPhaseDuration env / 60).toUInt64
  if timePeriodRotationOffset < minutesSinceEpoch ∧ timePeriodLength env ≠ 0 then
    some ((minutesSinceEpoch - timePeriodRotationOffset) / timePeriodLength env)
  else none

def hsGetNextTimePeriodNum (env : PeriodEnv) (now : Int64) : Option UInt64 := do
  return (← hsGetTimePeriodNum env now) + 1

def hsGetStartTimeOfNextTimePeriod (env : PeriodEnv) (now : Int64) : Option Int64 := do
  let nextTimePeriodNum ← hsGetNextTimePeriodNum env now
  let startOfNextTpInMins := nextTimePeriodNum * timePeriodLength env
  return (startOfNextTpInMins * 60 + (srStateGetPhaseDuration env).toUInt64).toInt64

/-! ## Disaster values -/

def hsSrvDisasterPrefix : List UInt8 := textBytes "shared-random-disaster"

def computeDisasterSrv (env : HsdirEnv) (timePeriodNum : UInt64) : Bytes 32 :=
  env.sha3 (hsSrvDisasterPrefix ++ bigEndian 8 (getTimePeriodLength env)
    ++ bigEndian 8 timePeriodNum.toNat)

/-- `cached_time_period_nums` and `cached_disaster_srv`. -/
structure DisasterCache where
  nums : Fin 2 → UInt64
  srvs : Fin 2 → Bytes 32

/-- Both slots are zero when the program starts. -/
def initialCache : DisasterCache := ⟨fun _ => 0, fun _ => ⟨List.replicate 32 0, rfl⟩⟩

instance neZeroTwo : NeZero 2 := ⟨by decide⟩

/-- The slot with the lower number is replaced. -/
def replaceIdx (cache : DisasterCache) : Fin 2 := if cache.nums 0 ≤ cache.nums 1 then 0 else 1

def getDisasterSrv (env : HsdirEnv) (timePeriodNum : UInt64) (cache : DisasterCache) :
    Bytes 32 × DisasterCache :=
  if timePeriodNum = cache.nums 0 then (cache.srvs 0, cache)
  else if timePeriodNum = cache.nums 1 then (cache.srvs 1, cache)
  else
    let srv := computeDisasterSrv env timePeriodNum
    (srv, ⟨Function.update cache.nums (replaceIdx cache) timePeriodNum,
      Function.update cache.srvs (replaceIdx cache) srv⟩)

end RendezMix.Source.TimePeriods
