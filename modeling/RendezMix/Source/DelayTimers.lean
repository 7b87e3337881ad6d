import Mathlib.Data.Rat.Floor
import RendezMix.Library.WhileLoops
import RendezMix.Source.Relay

/-!
# Delayed cells and their timers

`core/or/relay.c`, the functions from `get_delay_timeval` to
`cell_ready_callback`, over the timer interface of `lib/evloop/timers.c`. The
two queue insertions of an append, direct and delayed, are here; the checks
around them are in `RelayQueues`.

The samplers are not modelled: an append takes the number its sampler drew.
Double arithmetic is exact.
-/
namespace RendezMix.Source

/-- `timer_free_`: the timer is unscheduled if it is still pending. Its
argument block is not touched. -/
def timerFree (t : Option TimerPtr) (r : Relay) : Relay :=
  match t with
  | none => r
  | some t =>
    match r.timers t with
    | none => r.fault (.doubleFree t)
    | some timer =>
      let r := r.setTimer t none
      match timer.pending with
      | none => r
      | some _ => r.emit (.unscheduled timer.arg)

/-- The policy in force: that of the circuit, or for `DELAY_MODE_AUTO` the
`AutoDelay*` options. -/
def effectivePolicy (cfg : Config) (circ : Circuit) : DelayPolicy :=
  if circ.delayPolicy.mode = delayModeAuto then cfg.autoDelayPolicy else circ.delayPolicy

/-- The upper bound of the redrawing loop, in milliseconds. -/
def delayMax (policy : DelayPolicy) : ℚ := if policy.max = 0 then 100 else policy.max

/-- One pass of the redrawing loop: `sample` is what the sampler of the mode
returned, which `DELAY_MODE_NONE` and unknown modes do not have. -/
def delayMicrosec (policy : DelayPolicy) (sample : ℚ) : ℚ :=
  if policy.mode = delayModeNormal ∨ policy.mode = delayModeUniform ∨
      policy.mode = delayModeLognormal ∨ policy.mode = delayModeExponential ∨
      policy.mode = delayModePoisson ∨ policy.mode = delayModeMarkov then sample
  else 0

/-- The redrawing loop ends with this sample. -/
def delayAccepted (policy : DelayPolicy) (sample : ℚ) : Prop :=
  ¬ (0 < delayMax policy ∧ delayMax policy * 1000 < delayMicrosec policy sample)

instance (policy : DelayPolicy) (sample : ℚ) : Decidable (delayAccepted policy sample) :=
  inferInstanceAs (Decidable (¬ _))

/-- `get_delay_timeval`, from the sample that ended its loop. -/
def getDelayTimeval (cfg : Config) (circ : Circuit) (sample : ℚ) : Timeval :=
  let microsec := delayMicrosec (effectivePolicy cfg circ) sample
  let microsec := if microsec < 0 then 0 else microsec
  let tvSec := (microsec / 1000000).floor
  ⟨tvSec, (microsec - tvSec * 1000000).floor⟩

/-- `get_ready_timeval`: the ready time, which also becomes `last_ready_tv`. -/
def getReadyTimeval (cfg : Config) (circ : Circuit) (d : CellDirection) (now : ClockReading)
    (sample : ℚ) : Timeval :=
  let previous := (circ.hop d).lastReadyTv
  let previous := if previous.before now.val then now.val else previous
  timeradd previous (getDelayTimeval cfg circ sample)

/-- The delay a timer is armed with: a difference in the past counts as zero. -/
def timerDelay (readyTv now : Timeval) : Timeval :=
  let delay := timersub readyTv now
  if delay.tvSec < 0 ∨ delay.tvUsec < 0 then ⟨0, 0⟩ else delay

/-- `schedule_delay_timer`. The argument block and the timer are allocated, and
the circuit's timer pointer is overwritten without a look at its old value. -/
def scheduleDelayTimer (c : CircPtr) (d : CellDirection) (now : ClockReading) (r : Relay) :
    Relay :=
  r.withCircuit c fun circ =>
    match (circ.hop d).delayQueue with
    | [] => r.fault .nullDereference
    | cell :: _ =>
      let info := r.brk
      let timer := r.brk + 1
      let armed := Armed.mk now.val (timerDelay cell.readyTv now.val)
      let r := { r with brk := r.brk + 2 }
      let r := r.emit (.armed c d armed)
      let r := r.setDelayInfo info (some ⟨c, d⟩)
      let r := r.setTimer timer (some ⟨info, some armed⟩)
      r.setCircuit c (circ.setHop d { circ.hop d with delayTimer := some timer })

/-- The readings and the sample one append takes from its environment. -/
structure AppendEnv where
  stamp : UInt32
  readyNow : ClockReading
  sample : ℚ
  scheduleNow : ClockReading
  /-- The circuits killed by the memory handler, if the append runs it. -/
  oomKills : Option (List CircPtr)

/-- The test of `delay_or_append_cell`. -/
def Circuit.delays (circ : Circuit) : Prop :=
  circ.magic = .orCircuit ∧ circ.delayPolicyIsSet = true ∧ circ.delayPolicy.mode ≠ delayModeNone

instance (circ : Circuit) : Decidable circ.delays := inferInstanceAs (Decidable (_ ∧ _))

def delayOrAppendCell (cfg : Config) (copy : PackedCell) (c : CircPtr) (chan : ChanPtr)
    (d : CellDirection) (env : AppendEnv) (r : Relay) : Relay :=
  r.withCircuit c fun circ =>
    let hop := circ.hop d
    if circ.delays then
      let readyTv := getReadyTimeval cfg circ d env.readyNow env.sample
      let copy := { copy with readyTv := readyTv }
      let r := r.emit (.accepted c d chan hop.circId copy)
      let r := r.setCircuit c (circ.setHop d
        { hop with lastReadyTv := readyTv, delayQueue := hop.delayQueue ++ [copy] })
      -- if no timer is already set to update the delayed cells, set one up
      if hop.delayTimer = none then scheduleDelayTimer c d env.scheduleNow r else r
    else
      let r := r.emit (.accepted c d chan hop.circId copy)
      r.setCircuit c (circ.setHop d { hop with chanCells := hop.chanCells ++ [copy] })

/-- The loop of `cell_ready_callback`, from iteration `i`: the cells it moves to
the channel queue and those it leaves. The bound `delay_queue->n` shrinks with
every move, and only the first cell is moved without a look at its ready time. -/
def releaseLoop (now : Timeval) : Nat → CellQueue → CellQueue × CellQueue
  | _, [] => ([], [])
  | i, cell :: rest =>
    if i < (cell :: rest).length ∧ ¬ (i ≠ 0 ∧ now.before cell.readyTv) then
      let next := releaseLoop now (i + 1) rest
      (cell :: next.1, next.2)
    else ([], cell :: rest)

/-- The cells of `delay_queue` that one callback moves. -/
def Hop.readyCells (now : Timeval) (hop : Hop) : CellQueue := (releaseLoop now 0 hop.delayQueue).1

/-- Both queues after the loop. -/
def Hop.releaseReady (now : Timeval) (hop : Hop) : Hop :=
  { hop with
    chanCells := hop.chanCells ++ hop.readyCells now
    delayQueue := (releaseLoop now 0 hop.delayQueue).2 }

/-- The loop as a change to the relay. `hop` is the direction as the callback
has left it so far. -/
def moveReadyCells (c : CircPtr) (d : CellDirection) (chan : ChanPtr) (circ : Circuit)
    (hop : Hop) (now : Timeval) (r : Relay) : Relay :=
  let r := r.emitAll ((hop.readyCells now).map (.released c d chan hop.circId now))
  r.setCircuit c (circ.setHop d (hop.releaseReady now))

/-- `cell_ready_callback`, called with the argument block `arg`. -/
def cellReadyCallback (arg : InfoPtr) (now scheduleNow : ClockReading) (r : Relay) : Relay :=
  match r.delayInfos arg with
  | none => r.fault (.useAfterFree arg)
  | some info =>
    let r := r.setDelayInfo arg none
    r.withCircuit info.circ fun circ =>
      if circ.markedForClose then r
      else if circ.magic ≠ .orCircuit then r
      else
        let c := info.circ
        let d := info.direction
        let hop := { circ.hop d with delayTimer := none }
        let r := timerFree (circ.hop d).delayTimer r
        let r := r.setCircuit c (circ.setHop d hop)
        match hop.chan with
        | none => r
        | some chan =>
          let r := moveReadyCells c d chan circ hop now.val r
          -- reschedule the timer if there are still cells in the queue
          if (hop.releaseReady now.val).delayQueue.length > 0 then
            scheduleDelayTimer c d scheduleNow r
          else r

/-- The timer backend lets `t` fire: it is no longer pending when its callback
runs. -/
def fireTimer (t : TimerPtr) (now scheduleNow : ClockReading) (r : Relay) : Relay :=
  match r.timers t with
  | none => r
  | some timer =>
    match timer.pending with
    | none => r
    | some _ =>
      cellReadyCallback timer.arg now scheduleNow
        (r.setTimer t (some { timer with pending := none }))

end RendezMix.Source

/-!
# Sampling a uniform delay

`core/or/relay.c`: `gen_uniform_value`, `get_delay_microseconds_uniform` and the loop of
`get_delay_timeval` for `DELAY_MODE_UNIFORM`. What `gen_random_uniform_01` returns is free between
zero and one; double arithmetic is exact.
-/
namespace RendezMix.Source
open Library.Retry

/-- What `gen_random_uniform_01` returns. -/
abbrev UniformDraw := { uniform : ℚ // 0 ≤ uniform ∧ uniform ≤ 1 }

def genUniformValue (low high : ℚ) (uniform : UniformDraw) : ℚ :=
  low + (high - low) * uniform.val

def getDelayMicrosecondsUniform (low high : ℚ) (uniform : UniformDraw) : ℚ :=
  let (low, high) := if low > high then (high, low) else (low, high)
  let high := if high = 0 then 100 else high
  genUniformValue (low * 1000) (high * 1000) uniform

/-- The sample of a policy. -/
def DelayPolicy.sample (policy : DelayPolicy) (uniform : UniformDraw) : ℚ :=
  getDelayMicrosecondsUniform policy.param1 policy.param2 uniform

/-- `get_delay_timeval` with a uniform delay, with a bound on the rounds of its loop. -/
def getDelayTimevalUniform (cfg : Config) (circ : Circuit) (draws : Nat → UniformDraw)
    (rounds : Nat) : Option Timeval :=
  let policy := effectivePolicy cfg circ
  (retry (fun uniform => delayAccepted policy (policy.sample uniform)) draws rounds 0).map
    fun uniform => getDelayTimeval cfg circ (policy.sample uniform)

end RendezMix.Source
