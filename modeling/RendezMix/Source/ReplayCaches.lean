import Mathlib.Logic.Function.Basic
import RendezMix.Library.ByteStrings

/-!
# The replay cache

A cache keeps for each digest the time of its last test. All times are positive and the horizon is
not negative, so that no difference of two `time_t` overflows.
-/
namespace RendezMix.Source.ReplayCaches
open Library.ByteStrings

structure ReplayCache where
  scrubInterval : Int
  scrubbed : Int
  horizon : Int
  digestsSeen : Bytes 32 → Option Int

def replaycacheNew (horizon interval : Int) : Option ReplayCache :=
  if horizon < 0 then none
  else some ⟨if interval < 0 then 0 else interval, 0, horizon, fun _ => none⟩

def replaycacheScrubIfNeededInternal (present : Int) (r : ReplayCache) : ReplayCache :=
  if present - r.scrubbed < r.scrubInterval ∧ r.scrubbed > 0 then r
  else if r.horizon = 0 then r
  else
    { r with
      digestsSeen := fun digest => (r.digestsSeen digest).filter fun accessTime =>
        ¬ accessTime < present - r.horizon
      scrubbed := if present > r.scrubbed then present else r.scrubbed }

/-- What is tested, and when. -/
structure CacheCall where
  present : Int
  data : List UInt8

/-- The return value, and what is put into `elapsed`. -/
structure CacheAnswer where
  rv : Bool
  elapsed : Option Int

/-- The time of a test is recorded. -/
def ReplayCache.record (r : ReplayCache) (digest : Bytes 32) (present : Int) : ReplayCache :=
  { r with digestsSeen := Function.update r.digestsSeen digest (some present) }

def replaycacheAddAndTestInternal (digest256 : List UInt8 → Bytes 32) (call : CacheCall)
    (r : ReplayCache) : CacheAnswer × ReplayCache :=
  if call.present ≤ 0 ∨ call.data = [] then (⟨false, none⟩, r)
  else
    let digest := digest256 call.data
    match r.digestsSeen digest with
    | some accessTime =>
      let answer : CacheAnswer :=
        if accessTime ≥ call.present - r.horizon ∨ r.horizon = 0 then
          ⟨true, some (if call.present ≥ accessTime then call.present - accessTime else 0)⟩
        else ⟨false, none⟩
      let r := if accessTime < call.present then r.record digest call.present else r
      (answer, replaycacheScrubIfNeededInternal call.present r)
    | none =>
      (⟨false, none⟩,
        replaycacheScrubIfNeededInternal call.present (r.record digest call.present))

end RendezMix.Source.ReplayCaches
