import RendezMix.Guarantees.NextHop

/-!
# What a step does to the delayed cells of a direction

The laws about delayed cells look at one direction of one circuit, and there at
the delay queue, its timer and its last ready time, with the timers armed and the
cells released so far. `DelayStep` lists what a change of the circuit can do to these.
-/
namespace RendezMix.Guarantees
open Source Library.Runs Life

/-- The delay that an event arms for one direction of one circuit. -/
def armedBy (c : CircPtr) (d : CellDirection) : Event → Option Armed
  | .armed c' d' armed => if c' = c ∧ d' = d then some armed else none
  | _ => none

/-- What a direction's timer was last armed with. -/
def lastArmed (c : CircPtr) (d : CellDirection) (events : List Event) : Option Armed :=
  (events.filterMap (armedBy c d)).getLast?

/-- The cell that an event releases from the delay queue, and when. -/
def releasedBy (c : CircPtr) (d : CellDirection) : Event → Option (Timeval × PackedCell)
  | .released c' d' _ _ now cell => if c' = c ∧ d' = d then some (now, cell) else none
  | _ => none

def releasedOf (c : CircPtr) (d : CellDirection) (events : List Event) :
    List (Timeval × PackedCell) :=
  events.filterMap (releasedBy c d)

/-- One direction of a life, as far as delaying is concerned. -/
structure DelaySide where
  queue : CellQueue
  timer : Option TimerPtr
  last : Timeval
  armed : Option Armed
  released : List (Timeval × PackedCell)

def sideOf (c : CircPtr) (d : CellDirection) (life : Life) : DelaySide where
  queue := (life.circ.hop d).delayQueue
  timer := (life.circ.hop d).delayTimer
  last := (life.circ.hop d).lastReadyTv
  armed := lastArmed c d life.history
  released := releasedOf c d life.history

namespace DelaySide

def enqueue (side : DelaySide) (copy : PackedCell) : DelaySide :=
  { side with queue := side.queue ++ [copy], last := copy.readyTv }

/-- `schedule_delay_timer`, seen from the direction. -/
def schedule (side : DelaySide) (now : ClockReading) (t : TimerPtr) : DelaySide :=
  match side.queue with
  | [] => side
  | cell :: _ =>
    { side with timer := some t, armed := some ⟨now.val, timerDelay cell.readyTv now.val⟩ }

/-- The loop of `cell_ready_callback`, seen from the direction. -/
def release (side : DelaySide) (now : Timeval) : DelaySide :=
  { side with
    queue := (releaseLoop now 0 side.queue).2
    timer := none
    released := side.released ++ (releaseLoop now 0 side.queue).1.map (fun cell => (now, cell)) }

end DelaySide

/-- What one change of circuit `c` can make of the delay side of direction `d`. -/
inductive DelayStep (cfg : Config) (r : Relay) (op : Op) (c : CircPtr) (d : CellDirection)
    (life : Life) : DelaySide → Prop
  | same : DelayStep cfg r op c d life (sideOf c d life)
  | enqueue (chan : ChanPtr) (cell : Cell) (fromstream : UInt16) (env : AppendEnv)
      (copy : PackedCell) (t : TimerPtr) (isOp : op = .append c chan cell d fromstream env)
      (first : lifeOf r c = some life) (isOpen : life.circ.markedForClose = false)
      (delayed : life.circ.delays)
      (ready : copy.readyTv = getReadyTimeval cfg life.circ d env.readyNow env.sample) :
      DelayStep cfg r op c d life
        (if (life.circ.hop d).delayTimer = none then
          ((sideOf c d life).enqueue copy).schedule env.scheduleNow t
        else (sideOf c d life).enqueue copy)
  | gone (t : TimerPtr) (now scheduleNow : ClockReading) (armed : Armed)
      (isOp : op = .fire t now scheduleNow) (fires : Fires r c d t armed)
      (first : lifeOf r c = some life) (isOpen : life.circ.markedForClose = false)
      (isOr : life.circ.magic = .orCircuit) (noChan : (life.circ.hop d).chan = none) :
      DelayStep cfg r op c d life { sideOf c d life with timer := none }
  | release (t next : TimerPtr) (now scheduleNow : ClockReading) (armed : Armed)
      (isOp : op = .fire t now scheduleNow) (fires : Fires r c d t armed)
      (first : lifeOf r c = some life) (isOpen : life.circ.markedForClose = false)
      (isOr : life.circ.magic = .orCircuit) :
      DelayStep cfg r op c d life
        (((sideOf c d life).release now.val).schedule scheduleNow next)
  | clear (marked : life.circ.markedForClose = true) :
      DelayStep cfg r op c d life { sideOf c d life with queue := [], timer := none }

/-- Events that arm nothing and release nothing in direction `d` of circuit `c`. -/
def Idle (c : CircPtr) (d : CellDirection) (events : List Event) : Prop :=
  ∀ event ∈ events, armedBy c d event = none ∧ releasedBy c d event = none

variable (cfg : Config) (c : CircPtr) (d e : CellDirection) (life : Life) (chan : ChanPtr)
  (log : List Event) (circId : UInt32) (now : Timeval) (events : List Event)

theorem lastArmed_idle (idle : ∀ event ∈ events, armedBy c d event = none) :
    lastArmed c d (log ++ events) = lastArmed c d log := by
  rw [lastArmed, List.filterMap_append, List.filterMap_eq_nil_iff.mpr idle, List.append_nil,
    lastArmed]

theorem lastArmed_armed (armed : Armed) :
    lastArmed c d (log ++ [.armed c d armed]) = some armed := by
  simp [lastArmed, armedBy]

theorem releasedOf_append :
    releasedOf c d (log ++ events) = releasedOf c d log ++ releasedOf c d events :=
  List.filterMap_append

theorem idle_nil : Idle c d [] := by simp [Idle]

theorem idle_append (first second : List Event) (idle : Idle c d first) (also : Idle c d second) :
    Idle c d (first ++ second) := by
  intro event member
  exact (List.mem_append.mp member).elim (idle event) (also event)

section

variable (hop : Hop) (circ : Circuit) (cells : List PackedCell)

theorem idle_sync (d e : CellDirection) :
    Idle c d (circuitSynchronizeWrittenOrBandwidth cfg c circ e) := by
  unfold circuitSynchronizeWrittenOrBandwidth Idle
  split
  · simp
  · simp [armedBy, releasedBy]

section

variable (idle : Idle c d events)

include idle

theorem sideOf_record (fields : (circ.hop d).delayQueue = (life.circ.hop d).delayQueue ∧
      (circ.hop d).delayTimer = (life.circ.hop d).delayTimer ∧
      (circ.hop d).lastReadyTv = (life.circ.hop d).lastReadyTv) :
    sideOf c d (life.record events circ) = sideOf c d life := by
  have nothing : releasedOf c d events = [] :=
    List.filterMap_eq_nil_iff.mpr (fun event member => (idle event member).2)
  simp only [sideOf, record, fields, releasedOf_append, nothing, List.append_nil,
    lastArmed_idle c d life.history events (fun event member => (idle event member).1)]

theorem sideOf_setHop (fields : hop.delayQueue = (life.circ.hop e).delayQueue ∧
      hop.delayTimer = (life.circ.hop e).delayTimer ∧
      hop.lastReadyTv = (life.circ.hop e).lastReadyTv) :
    sideOf c d (life.setHop events e hop) = sideOf c d life := by
  refine sideOf_record c d life events _ idle ?_
  by_cases same : d = e
  · subst same
    rw [Circuit.hop_setHop]
    exact fields
  · rw [Circuit.hop_setHop_of_ne _ _ _ _ same]
    exact ⟨rfl, rfl, rfl⟩

end

theorem sideOf_setHop_other (ne : d ≠ e) (idle : Idle c d events) :
    sideOf c d (life.setHop events e hop) = sideOf c d life := by
  refine sideOf_record c d life events _ idle ?_
  rw [Circuit.hop_setHop_of_ne _ _ _ _ ne]
  exact ⟨rfl, rfl, rfl⟩

theorem sideOf_schedule_self (now : ClockReading) (t : TimerPtr) (life : Life) :
    sideOf c d (life.schedule c d now t) = (sideOf c d life).schedule now t := by
  cases queue : (life.circ.hop d).delayQueue with
  | nil =>
    have empty : (sideOf c d life).queue = [] := queue
    simp only [schedule, DelaySide.schedule, queue, empty]
  | cons cell rest =>
    have head : (sideOf c d life).queue = cell :: rest := queue
    simp only [schedule, DelaySide.schedule, queue, head]
    simp only [sideOf, setHop, record, Circuit.hop_setHop, lastArmed_armed,
      releasedOf_append, queue]
    simp [releasedOf, releasedBy]

theorem sideOf_schedule_other (now : ClockReading) (t : TimerPtr) (life : Life) (ne : d ≠ e) :
    sideOf c d (life.schedule c e now t) = sideOf c d life := by
  unfold schedule
  split
  · rfl
  · exact sideOf_setHop_other c d e life _ _ ne (by simp [Idle, armedBy, releasedBy, ne.symm])

theorem sideOf_markForClose : sideOf c d (life.markForClose cfg c) = sideOf c d life := by
  unfold markForClose
  split
  · rfl
  · have idle := idle_append c d _ _ (idle_append c d _ _ (idle_sync cfg c life.circ d .outbound)
      (idle_sync cfg c life.circ d .inbound))
      (by simp [Idle, armedBy, releasedBy] : Idle c d [.markForClose c life.circ])
    exact sideOf_record c d life _ _ idle (by cases d <;> exact ⟨rfl, rfl, rfl⟩)

theorem sideOf_setStreamsBlocked (block : Bool) (streamId : UInt16) :
    sideOf c d (life.record [] (life.circ.setStreamsBlocked chan block streamId)) =
      sideOf c d life := by
  obtain ⟨flag, hop⟩ := setStreamsBlocked_hop life.circ chan block streamId d
  exact sideOf_record c d life [] _ (idle_nil c d) (by rw [hop]; exact ⟨rfl, rfl, rfl⟩)

theorem idle_released (ne : d ≠ e) : Idle c d (cells.map (.released c e chan circId now)) := by
  intro event member
  obtain ⟨cell, _, rfl⟩ := List.mem_map.mp member
  simp [armedBy, releasedBy, ne.symm]

theorem releasedOf_released :
    releasedOf c d (cells.map (.released c d chan circId now)) =
      cells.map (fun cell => (now, cell)) := by
  induction cells with
  | nil => rfl
  | cons cell rest ih =>
    simp only [releasedOf, List.map_cons, List.filterMap_cons] at ih ⊢
    rw [ih]
    simp [releasedBy]

theorem sideOf_released (life : Life) :
    sideOf c d (life.setHop
        (((life.circ.hop d).readyCells now).map (.released c d chan circId now)) d
        { (life.circ.hop d).releaseReady now with delayTimer := none }) =
      (sideOf c d life).release now := by
  have noneArmed : ∀ event ∈ ((life.circ.hop d).readyCells now).map
      (Event.released c d chan circId now), armedBy c d event = none := by
    intro event member
    obtain ⟨cell, _, rfl⟩ := List.mem_map.mp member
    rfl
  simp only [sideOf, setHop, record, Circuit.hop_setHop, releasedOf_append,
    releasedOf_released, lastArmed_idle c d life.history _ noneArmed]
  rfl

/-- Every change of a circuit does one of the listed things to each direction. -/
theorem lifeStep_delay (r : Relay) (op : Op) (c : CircPtr) (life final : Life)
    (step : LifeStep cfg r op c life final) (d : CellDirection) :
    DelayStep cfg r op c d life (sideOf c d final) := by
  have unchanged : sideOf c d final = sideOf c d life →
      DelayStep cfg r op c d life (sideOf c d final) := by
    intro same
    rw [same]
    exact DelayStep.same
  cases step with
  | attach edge =>
    exact unchanged (sideOf_record c d life _ _ (idle_nil c d)
      (by cases d <;> exact ⟨rfl, rfl, rfl⟩))
  | acceptDelayed queued copy chan cell e fromstream env t isOp first isOpen room delayed copyEq
      queuedEq =>
    by_cases same : d = e
    · subst same
      have side : sideOf c d queued = (sideOf c d life).enqueue copy := by
        have idle : Idle c d [.accepted c d chan (life.circ.hop d).circId copy] := by
          simp [Idle, armedBy, releasedBy]
        rw [queuedEq]
        simp only [sideOf, setHop, record, Circuit.hop_setHop, releasedOf_append,
          lastArmed_idle c d life.history _ (fun event member => (idle event member).1)]
        simp [DelaySide.enqueue, releasedOf, releasedBy]
      have taken : DelayStep cfg r op c d life _ :=
        DelayStep.enqueue chan cell fromstream env copy t isOp first isOpen delayed
          (by rw [copyEq])
      split at taken
      · next noTimer => rwa [if_pos noTimer, sideOf_schedule_self, side]
      · next hasTimer => rwa [if_neg hasTimer, side]
    · refine unchanged ?_
      have other : sideOf c d queued = sideOf c d life := by
        rw [queuedEq]
        exact sideOf_setHop_other c d e life _ _ same (by simp [Idle, armedBy, releasedBy])
      split
      · rw [sideOf_schedule_other c d e _ _ _ same, other]
      · exact other
  | fireGone e t now scheduleNow armed isOp fires first isOpen isOr gone =>
    by_cases same : d = e
    · subst same
      have taken : DelayStep cfg r op c d life _ :=
        DelayStep.gone t now scheduleNow armed isOp fires first isOpen isOr gone
      simpa [sideOf, setHop, record] using taken
    · exact unchanged (sideOf_setHop_other c d e life _ _ same (idle_nil c d))
  | release moved e t next chan now scheduleNow armed isOp fires first isOpen isOr hasChan
      movedEq =>
    by_cases same : d = e
    · subst same
      rw [sideOf_schedule_self, movedEq, sideOf_released]
      exact DelayStep.release t next now scheduleNow armed isOp fires first isOpen isOr
    · refine unchanged ?_
      rw [sideOf_schedule_other c d e _ _ _ same, movedEq]
      exact sideOf_setHop_other c d e life _ _ same (idle_released c d e _ _ _ _ same)
  | unblock e chan isOp dir blocked low | block e chan cell fromstream env streamId isOp =>
    exact unchanged (sideOf_setStreamsBlocked ..)
  | mark => exact unchanged (sideOf_markForClose cfg c d life)
  | clearDelay marked isOr =>
    have idle : Idle c d [.cleared c .inbound life.circ.p.delayQueue,
        .cleared c .outbound life.circ.n.delayQueue] := by
      simp [Idle, armedBy, releasedBy]
    have side : DelayStep cfg r op c d life _ := DelayStep.clear marked
    rw [← sideOf_record c d life _ life.circ idle ⟨rfl, rfl, rfl⟩] at side
    cases d with
    | outbound => exact side
    | inbound => exact side
  | truncate chan isOp first isOpen isOr hasChan =>
    exact unchanged (sideOf_setHop c d .outbound life _ _
      (idle_append c d _ _ (idle_sync cfg c life.circ d .outbound)
        (by simp [Idle, armedBy, releasedBy])) ⟨rfl, rfl, rfl⟩)
  | connect chan circId isOp first isOpen noChan allowed =>
    exact unchanged (sideOf_setHop c d .outbound life _ _ (idle_nil c d) ⟨rfl, rfl, rfl⟩)
  | unlink e isOp first hasChan =>
    refine unchanged ?_
    rw [sideOf_markForClose]
    exact sideOf_setHop c d e life _ _ (idle_nil c d) ⟨rfl, rfl, rfl⟩
  | acceptDirect | popFailed | popWritten | clearChan =>
    exact unchanged (sideOf_setHop c d _ life _ _ (by simp [Idle, armedBy, releasedBy])
      ⟨rfl, rfl, rfl⟩)

end

end RendezMix.Guarantees
