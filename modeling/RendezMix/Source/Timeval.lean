import RendezMix.Library.Words

/-!
# `struct timeval`

The two macros `timeradd` and `timersub`, and the comparison that the delay
code writes out by hand. Both fields are unbounded here: `time_t` and
`suseconds_t` are 64-bit and the code never comes near their limits.
-/
namespace RendezMix.Source
open Library

structure Timeval where
  tvSec : Int
  tvUsec : Int
  deriving DecidableEq, Repr

namespace Timeval

def usecPerSec : Int := 1000000

def toPair (tv : Timeval) : CarryPair.Pair := ⟨tv.tvSec, tv.tvUsec⟩

/-- The instant in microseconds. -/
def micros (tv : Timeval) : Int := CarryPair.value usecPerSec tv.toPair

/-- `0 <= tv_usec < 10^6`, as `gettimeofday` returns it. -/
def Normal (tv : Timeval) : Prop := CarryPair.Normal usecPerSec tv.toPair

instance (tv : Timeval) : Decidable tv.Normal :=
  inferInstanceAs (Decidable (CarryPair.Normal usecPerSec tv.toPair))

/-- `a.tv_sec < b.tv_sec || (a.tv_sec == b.tv_sec && a.tv_usec < b.tv_usec)`. -/
def before (a b : Timeval) : Prop :=
  a.tvSec < b.tvSec ∨ (a.tvSec = b.tvSec ∧ a.tvUsec < b.tvUsec)

instance (a b : Timeval) : Decidable (before a b) := inferInstanceAs (Decidable (_ ∨ _))

end Timeval

def timeradd (a b : Timeval) : Timeval :=
  if a.tvUsec + b.tvUsec ≥ 1000000 then
    ⟨a.tvSec + b.tvSec + 1, a.tvUsec + b.tvUsec - 1000000⟩
  else ⟨a.tvSec + b.tvSec, a.tvUsec + b.tvUsec⟩

def timersub (a b : Timeval) : Timeval :=
  if a.tvUsec - b.tvUsec < 0 then
    ⟨a.tvSec - b.tvSec - 1, a.tvUsec - b.tvUsec + 1000000⟩
  else ⟨a.tvSec - b.tvSec, a.tvUsec - b.tvUsec⟩

/-- A reading of `gettimeofday`. -/
abbrev ClockReading := { tv : Timeval // tv.Normal }

namespace Timeval

variable (a b : Timeval)

theorem timeradd_toPair : (timeradd a b).toPair = CarryPair.add usecPerSec a.toPair b.toPair := by
  unfold timeradd CarryPair.add toPair usecPerSec
  split
  · rfl
  · rfl

theorem timersub_toPair : (timersub a b).toPair = CarryPair.sub usecPerSec a.toPair b.toPair := by
  unfold timersub CarryPair.sub toPair
  split
  · rfl
  · rfl

theorem micros_timeradd : (timeradd a b).micros = a.micros + b.micros := by
  unfold micros
  rw [timeradd_toPair]
  exact CarryPair.value_add usecPerSec a.toPair b.toPair

theorem micros_timersub : (timersub a b).micros = a.micros - b.micros := by
  unfold micros
  rw [timersub_toPair]
  exact CarryPair.value_sub usecPerSec a.toPair b.toPair

section

variable (ha : a.Normal) (hb : b.Normal)

include ha hb

theorem normal_timeradd : (timeradd a b).Normal := by
  unfold Normal
  rw [timeradd_toPair]
  exact CarryPair.normal_add usecPerSec a.toPair b.toPair ha hb

theorem normal_timersub : (timersub a b).Normal := by
  unfold Normal
  rw [timersub_toPair]
  exact CarryPair.normal_sub usecPerSec a.toPair b.toPair ha hb

theorem before_iff_micros : before a b ↔ a.micros < b.micros :=
  CarryPair.before_iff_value usecPerSec a.toPair b.toPair ha hb

theorem not_before_iff_micros : ¬ before a b ↔ b.micros ≤ a.micros := by
  rw [before_iff_micros a b ha hb, not_lt]

theorem timersub_sec_neg_iff : (timersub a b).tvSec < 0 ↔ a.micros < b.micros := by
  have high : (timersub a b).tvSec = (CarryPair.sub usecPerSec a.toPair b.toPair).high := by
    rw [← timersub_toPair]
    rfl
  rw [high]
  exact CarryPair.sub_high_neg_iff usecPerSec a.toPair b.toPair ha hb

end

theorem normal_iff (tv : Timeval) : tv.Normal ↔ 0 ≤ tv.tvUsec ∧ tv.tvUsec < 1000000 := Iff.rfl

theorem micros_eq (tv : Timeval) : tv.micros = tv.tvSec * 1000000 + tv.tvUsec := rfl

end Timeval
end RendezMix.Source
