import RendezMix.Library.Runs
import RendezMix.Source.DelayTimers

/-!
# Timers and ticks

`lib/evloop/timers.c`: the conversions between microseconds and ticks, `timer_schedule`,
`timers_run_pending` and `libevent_timer_reschedule`, with `schedule_delay_timer` of
`core/or/relay.c` as a caller. Readings of the monotonic clock are microseconds since
`start_of_time`.

The timing wheel is what these functions rely on: it yields a timer from the tick on at which the
timer expires. Whether its estimate makes `timer_schedule` read the clock once more is free.
-/
namespace RendezMix.Source
open Library.Runs

def usecPerTick : Nat := 100

/-- `tv_to_timeout`, with its `uint64_t`. -/
def tvToTimeout (tv : Timeval) : Nat :=
  ((tv.tvUsec + 1000000 * tv.tvSec) % 2 ^ 64).toNat / usecPerTick

/-- The tick that `timer_advance_to_cur_time` passes on: `CEIL_DIV` of the reading. -/
def curTick (now : Nat) : Nat := (now + (usecPerTick - 1)) / usecPerTick

/-- `struct timeouts`: the last tick, and when the timers expire that are on it. -/
structure Timeouts where
  curtime : Nat
  expires : TimerPtr → Option Nat

namespace Timeouts

def update (wheel : Timeouts) (curtime : Nat) : Timeouts := { wheel with curtime := curtime }

def add (wheel : Timeouts) (t : TimerPtr) (timeout : Nat) : Timeouts :=
  { wheel with expires := Function.update wheel.expires t (some (wheel.curtime + timeout)) }

def del (wheel : Timeouts) (t : TimerPtr) : Timeouts :=
  { wheel with expires := Function.update wheel.expires t none }

/-- `timeouts_get` can yield this timer. -/
def Expired (wheel : Timeouts) (t : TimerPtr) : Prop :=
  ∃ tick ∈ wheel.expires t, tick ≤ wheel.curtime

instance (wheel : Timeouts) (t : TimerPtr) : Decidable (wheel.Expired t) :=
  inferInstanceAs (Decidable (∃ _ ∈ _, _))

end Timeouts

/-- The reading and the delay of a `timer_schedule`. -/
structure TimerRequest where
  madeAt : Nat
  delay : Timeval
  deriving DecidableEq

/-- A callback that was run: the reading of its `timers_run_pending`, and the last reading. -/
structure Firing where
  timer : TimerPtr
  request : TimerRequest
  began : Nat
  now : Nat
  deriving DecidableEq

/-- The wheel and the clock; the requests of the timers on the wheel, the `timers_run_pending` that
is in progress and the record of what has fired. -/
structure TimerState where
  wheel : Timeouts
  clock : Nat
  requests : TimerPtr → Option TimerRequest
  running : Option Nat
  firings : List Firing

def TimerState.initial : TimerState := ⟨⟨0, fun _ => none⟩, 0, fun _ => none, none, []⟩

/-- `timer_advance_to_cur_time` at a reading. -/
def timerAdvanceToCurTime (now : Nat) (s : TimerState) : TimerState :=
  { s with wheel := s.wheel.update (curTick now), clock := now }

/-- `timer_schedule`; `later` is the reading of `libevent_timer_reschedule`, if it is called. -/
def timerSchedule (t : TimerPtr) (tv : Timeval) (now : Nat) (later : Option Nat)
    (s : TimerState) : TimerState :=
  let s := timerAdvanceToCurTime now s
  let s := { s with
    wheel := s.wheel.add t (tvToTimeout tv)
    requests := Function.update s.requests t (some ⟨now, tv⟩) }
  match later with
  | none => s
  | some later => timerAdvanceToCurTime later s

/-- `timeouts_get` and the callback of the timer, which may make calls of its own. -/
def timerFire (t : TimerPtr) (s : TimerState) : TimerState :=
  match s.requests t, s.running with
  | some request, some began =>
    { s with
      wheel := s.wheel.del t
      requests := Function.update s.requests t none
      firings := ⟨t, request, began, s.clock⟩ :: s.firings }
  | _, _ => s

/-- The calls, at the readings of the clock that they make. `schedule_delay_timer` is given the ready
time of a cell and the time of day. -/
inductive TimerCall
  | schedule (t : TimerPtr) (tv : Timeval) (now : Nat) (later : Option Nat)
  | scheduleDelay (t : TimerPtr) (readyTv : Timeval) (wall : ClockReading) (now : Nat)
    (later : Option Nat)
  | disable (t : TimerPtr)
  | reschedule (now : Nat)
  | runPending (now : Nat)
  | fire (t : TimerPtr)
  | done

def timerExec : TimerCall → TimerState → TimerState
  | .schedule t tv now later, s => timerSchedule t tv now later s
  | .scheduleDelay t readyTv wall now later, s =>
    timerSchedule t (timerDelay readyTv wall.val) now later s
  | .disable t, s =>
    { s with wheel := s.wheel.del t, requests := Function.update s.requests t none }
  | .reschedule now, s => timerAdvanceToCurTime now s
  | .runPending now, s => { timerAdvanceToCurTime now s with running := some now }
  | .fire t, s => timerFire t s
  | .done, s => { s with running := none }

/-- A delay that a `uint64_t` holds in microseconds. -/
def Delay (tv : Timeval) : Prop := tv.Normal ∧ 0 ≤ tv.tvSec ∧ tv.micros < 2 ^ 64

instance (tv : Timeval) : Decidable (Delay tv) := inferInstanceAs (Decidable (_ ∧ _ ∧ _))

/-- Readings do not decrease, delays are normalised and not negative, and the loop of
`timers_run_pending` runs the callbacks of timers that have expired, until there are none. -/
def TimerEnabled (s : TimerState) : TimerCall → Prop
  | .schedule _ tv now later => Delay tv ∧ s.clock ≤ now ∧ ∀ again ∈ later, now ≤ again
  | .scheduleDelay _ readyTv wall now later =>
    Delay (timerDelay readyTv wall.val) ∧ s.clock ≤ now ∧ ∀ again ∈ later, now ≤ again
  | .disable _ => True
  | .reschedule now => s.clock ≤ now
  | .runPending now => s.clock ≤ now ∧ s.running = none
  | .fire t => s.wheel.Expired t ∧ s.running.isSome = true
  | .done => ∀ t, ¬ s.wheel.Expired t

def TimerStep (s : TimerState) (call : TimerCall) (s' : TimerState) : Prop :=
  TimerEnabled s call ∧ s' = timerExec call s

end RendezMix.Source
