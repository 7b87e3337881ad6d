import RendezMix.Source.Timers

/-!
# When timers fire

A delay is rounded down to ticks and the time is rounded up to them, so that a timer may fire up to
198 microseconds early, which is less than two ticks. That is counted up to the last reading of the
clock: a callback that schedules a timer reads the clock again, and other timers that have expired by
then fire in the same `timers_run_pending`.
-/
namespace RendezMix.Guarantees
open Source Library.Runs TimerState

/-! ## Ticks -/

theorem curTick_le (now : Nat) : usecPerTick * curTick now ≤ now + 99 := by
  unfold curTick usecPerTick
  omega

theorem le_curTick (now : Nat) : now ≤ usecPerTick * curTick now := by
  unfold curTick usecPerTick
  omega

theorem micros_le_tvToTimeout {tv : Timeval} (delay : Delay tv) :
    tv.micros ≤ usecPerTick * tvToTimeout tv + 99 := by
  obtain ⟨normal, seconds, fits⟩ := delay
  rw [Timeval.normal_iff] at normal
  unfold tvToTimeout usecPerTick
  rw [Timeval.micros_eq] at fits ⊢
  rw [Int.emod_eq_of_lt (by omega) (by omega)]
  omega

/-! ## The requests of the timers -/

/-- The wheel is at the tick of the clock, and each timer on it expires after the tick and the delay
of its request. -/
structure Ticking (s : TimerState) : Prop where
  tick : s.wheel.curtime = curTick s.clock
  expires : ∀ t tick, s.wheel.expires t = some tick →
    ∃ request, s.requests t = some request ∧ Delay request.delay ∧
      tick = curTick request.madeAt + tvToTimeout request.delay
  fired : ∀ f ∈ s.firings, f.request.delay.micros ≤ (f.now : Int) - f.request.madeAt + 198

theorem Ticking.initial : Ticking initial where
  tick := rfl
  expires t tick on := by cases on
  fired f member := by cases member

section Calls

variable {s : TimerState} (ticking : Ticking s)

include ticking

theorem Ticking.advance (now : Nat) : Ticking (timerAdvanceToCurTime now s) :=
  ⟨rfl, ticking.expires, ticking.fired⟩

theorem Ticking.schedule (t : TimerPtr) {tv : Timeval} (delay : Delay tv) (now : Nat)
    (later : Option Nat) : Ticking (timerSchedule t tv now later s) := by
  have added : Ticking (timerSchedule t tv now none s) := by
    refine ⟨rfl, ?_, ticking.fired⟩
    intro other tick on
    by_cases same : other = t
    · subst same
      change Function.update s.wheel.expires other (some (curTick now + tvToTimeout tv)) other =
        some tick at on
      rw [Function.update_self, Option.some.injEq] at on
      exact ⟨⟨now, tv⟩, Function.update_self .., delay, on.symm⟩
    · obtain ⟨request, made, rest⟩ := ticking.expires other tick
        ((Function.update_of_ne same ..).symm.trans on)
      exact ⟨request, (Function.update_of_ne same ..).trans made, rest⟩
  cases later with
  | none => exact added
  | some later => exact added.advance later

theorem Ticking.del (t : TimerPtr) :
    Ticking { s with wheel := s.wheel.del t, requests := Function.update s.requests t none } := by
  refine ⟨ticking.tick, ?_, ticking.fired⟩
  intro other tick on
  by_cases same : other = t
  · subst same
    cases (Function.update_self ..).symm.trans on
  · obtain ⟨request, made, rest⟩ := ticking.expires other tick
      ((Function.update_of_ne same ..).symm.trans on)
    exact ⟨request, (Function.update_of_ne same ..).trans made, rest⟩

section

variable {t : TimerPtr} (expired : s.wheel.Expired t)

include expired

theorem Ticking.elapsed {request : TimerRequest} (made : s.requests t = some request) :
    request.delay.micros ≤ (s.clock : Int) - request.madeAt + 198 := by
  obtain ⟨tick, on, reached⟩ := expired
  obtain ⟨other, same, delay, rfl⟩ := ticking.expires t tick on
  rw [made, Option.some.injEq] at same
  subst same
  rw [ticking.tick] at reached
  have up := curTick_le s.clock
  have down := le_curTick request.madeAt
  have lost := micros_le_tvToTimeout delay
  simp only [usecPerTick] at up down lost
  omega

theorem Ticking.fire : Ticking (timerFire t s) := by
  unfold timerFire
  split
  · next request began made running =>
    have off := ticking.del t
    refine ⟨off.tick, off.expires, ?_⟩
    intro f member
    rcases List.mem_cons.mp member with rfl | before
    · exact ticking.elapsed expired made
    · exact ticking.fired f before
  · exact ticking

end

end Calls

theorem timerStep_ticking (s : TimerState) (call : TimerCall) (s' : TimerState)
    (ticking : Ticking s) (step : TimerStep s call s') : Ticking s' := by
  obtain ⟨enabled, rfl⟩ := step
  cases call with
  | schedule t tv now later | scheduleDelay t readyTv wall now later =>
    exact ticking.schedule t enabled.1 now later
  | disable t => exact ticking.del t
  | reschedule now => exact ticking.advance now
  | runPending now => exact ⟨rfl, ticking.expires, ticking.fired⟩
  | fire t => exact ticking.fire enabled.1
  | done => exact ⟨ticking.tick, ticking.expires, ticking.fired⟩

/-- In every run, a callback is run when its delay has elapsed since its request, up to 198
microseconds. -/
theorem timerRun_elapsed (ts : List (Transition TimerState TimerCall)) (s : TimerState)
    (run : Run TimerStep initial ts s) :
    ∀ f ∈ s.firings, f.request.delay.micros ≤ (f.now : Int) - f.request.madeAt + 198 :=
  (run.invariant Ticking.initial timerStep_ticking).fired

/-- A timer of 199 microseconds, and a clock that is read one microsecond later. -/
def earlyCalls : List TimerCall := [.schedule 7 ⟨0, 199⟩ 0 none, .runPending 1, .fire 7]

theorem earlyCalls_run :
    Run TimerStep initial (trace timerExec initial earlyCalls)
      (final timerExec initial earlyCalls) := by
  apply run_of_admissible timerExec TimerEnabled
  refine ⟨⟨by decide, by decide, by decide⟩, ⟨by decide, rfl⟩, ⟨by decide, rfl⟩, trivial⟩

theorem timerRun_elapsed_early :
    (final timerExec initial earlyCalls).firings = [⟨7, ⟨0, ⟨0, 199⟩⟩, 1, 1⟩] ∧
      ∀ f ∈ (final timerExec initial earlyCalls).firings,
        f.request.delay.micros ≤ (f.now : Int) - f.request.madeAt + 198 :=
  ⟨by decide, timerRun_elapsed _ _ earlyCalls_run⟩

/-- A timer of a millisecond fires in a `timers_run_pending` that begins when it is requested, after
a callback that reads the clock a millisecond later. -/
def slowCallback : List TimerCall :=
  [.schedule 7 ⟨0, 0⟩ 0 none, .schedule 8 ⟨0, 1000⟩ 0 none, .runPending 0, .fire 7,
    .schedule 9 ⟨1, 0⟩ 1000 none, .fire 8]

/-- There are runs in which a callback is run before its delay has elapsed. -/
theorem timerRun_not_elapsed :
    (∃ ts s, Run TimerStep initial ts s ∧
      ∃ f ∈ s.firings, (f.began : Int) - f.request.madeAt < f.request.delay.micros ∧
        f.now = f.began) ∧
    ∃ ts s, Run TimerStep initial ts s ∧
      ∃ f ∈ s.firings, f.began = f.request.madeAt ∧ f.request.delay.micros = 1000 := by
  constructor
  · exact ⟨_, _, earlyCalls_run, ⟨7, ⟨0, ⟨0, 199⟩⟩, 1, 1⟩, by decide, by decide, rfl⟩
  · refine ⟨_, _, run_of_admissible timerExec TimerEnabled initial slowCallback ?_,
      ⟨8, ⟨0, ⟨0, 1000⟩⟩, 0, 1000⟩, by decide, rfl, by decide⟩
    exact ⟨⟨by decide, by decide, by decide⟩, ⟨by decide, by decide, by decide⟩, ⟨by decide, rfl⟩,
      ⟨by decide, rfl⟩, ⟨by decide, by decide, by decide⟩, ⟨by decide, rfl⟩, trivial⟩

end RendezMix.Guarantees
