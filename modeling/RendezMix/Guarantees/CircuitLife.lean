import RendezMix.Source.System

/-!
# The life of one circuit

The relay's functions work on a heap of circuits; a law about queues is about
one circuit at a time. `LifeStep` lists the changes that one step of the relay
can make to one circuit, each with what the code has checked by then and the
events it records. The theorem `step_life` says that the list is complete.
-/
namespace RendezMix.Guarantees
open Source Library.Runs

/-- The circuit an event is about; memory events are about none. -/
def eventCircuit : Event → Option CircPtr
  | .accepted c .. => some c
  | .released c .. => some c
  | .written c .. => some c
  | .writeFailed c .. => some c
  | .cleared c .. => some c
  | .bytesWritten c .. => some c
  | .markForClose c .. => some c
  | .armed c .. => some c
  | .unscheduled _ => none
  | .fault _ => none

/-- The events about one circuit, oldest first. -/
def history (c : CircPtr) (log : List Event) : List Event :=
  log.filter (fun event => eventCircuit event = some c)

theorem history_append (c : CircPtr) (log events : List Event) :
    history c (log ++ events) = history c log ++ history c events :=
  List.filter_append ..

/-- A live circuit with what happened to it. -/
structure Life where
  history : List Event
  circ : Circuit

def lifeOf (r : Relay) (c : CircPtr) : Option Life :=
  (r.circuits c).map (fun circ => ⟨history c r.log, circ⟩)

theorem lifeOf_eq_some (r : Relay) (c : CircPtr) (life : Life) :
    lifeOf r c = some life ↔ r.circuits c = some life.circ ∧ life.history = history c r.log := by
  unfold lifeOf
  cases live : r.circuits c with
  | none => simp
  | some circ =>
    simp only [Option.map_some, Option.some.injEq]
    constructor
    · rintro rfl
      exact ⟨rfl, rfl⟩
    · rintro ⟨rfl, same⟩
      rw [← same]

namespace Life

def record (life : Life) (events : List Event) (circ : Circuit) : Life :=
  ⟨life.history ++ events, circ⟩

def setHop (life : Life) (events : List Event) (d : CellDirection) (hop : Hop) : Life :=
  life.record events (life.circ.setHop d hop)

/-- `schedule_delay_timer`, seen from the circuit. -/
def schedule (c : CircPtr) (d : CellDirection) (now : ClockReading) (t : TimerPtr)
    (life : Life) : Life :=
  match (life.circ.hop d).delayQueue with
  | [] => life
  | cell :: _ =>
    life.setHop [.armed c d ⟨now.val, timerDelay cell.readyTv now.val⟩] d
      { life.circ.hop d with delayTimer := some t }

/-- `circuit_mark_for_close_`, seen from the circuit. -/
def markForClose (cfg : Config) (c : CircPtr) (life : Life) : Life :=
  if life.circ.markedForClose = true ∨
      (life.circ.magic = .originCircuit ∧ life.circ.closeHeld = true) then life
  else
    life.record
      (circuitSynchronizeWrittenOrBandwidth cfg c life.circ .outbound ++
        circuitSynchronizeWrittenOrBandwidth cfg c life.circ .inbound ++
        [.markForClose c life.circ])
      { life.circ with markedForClose := true }

section

variable (cfg : Config) (c : CircPtr) (life : Life)

theorem markForClose_hop (d : CellDirection) :
    (life.markForClose cfg c).circ.hop d = life.circ.hop d := by
  unfold markForClose
  split
  · rfl
  · cases d <;> rfl

theorem markForClose_marks (isOr : life.circ.magic = .orCircuit) :
    (life.markForClose cfg c).circ.markedForClose = true := by
  unfold markForClose
  split
  · next stays =>
    refine stays.elim id (fun held => ?_)
    rw [isOr] at held
    cases held.1
  · rfl

end

end Life

/-- The copy that an append makes. -/
def appendCopy (cfg : Config) (r : Relay) (chan : ChanPtr) (cell : Cell) (env : AppendEnv) :
    PackedCell :=
  packedCellCopy r.brk cell (cfg.channel chan).wideCircIds env.stamp

/-- Timer `t` is the one that fires, for direction `d` of circuit `c`. -/
structure Fires (r : Relay) (c : CircPtr) (d : CellDirection) (t : TimerPtr) (armed : Armed) :
    Prop where
  timer : ∃ arg, r.timers t = some ⟨arg, some armed⟩ ∧ r.delayInfos arg = some ⟨c, d⟩

/-- What one step `op` of the relay, taken from `r`, can do to circuit `c`. The
changes that an operation makes first are tied to the circuit as it is in `r`. -/
inductive LifeStep (cfg : Config) (r : Relay) (op : Op) (c : CircPtr) : Life → Life → Prop
  | attach (life : Life) (edge : Edge) (isOp : op = .attachStream c edge)
      (first : lifeOf r c = some life) :
      LifeStep cfg r op c life
        (life.record [] { life.circ with streams := edge :: life.circ.streams })
  | acceptDirect (life : Life) (chan : ChanPtr) (cell : Cell) (d : CellDirection)
      (fromstream : UInt16) (env : AppendEnv)
      (isOp : op = .append c chan cell d fromstream env) (first : lifeOf r c = some life)
      (isOpen : life.circ.markedForClose = false)
      (room : (life.circ.hop d).chanCells.length < cfg.maxQueueSize d)
      (direct : ¬ life.circ.delays) :
      LifeStep cfg r op c life
        (life.setHop [.accepted c d chan (life.circ.hop d).circId (appendCopy cfg r chan cell env)]
          d { life.circ.hop d with
            chanCells := (life.circ.hop d).chanCells ++ [appendCopy cfg r chan cell env] })
  | acceptDelayed (life queued : Life) (copy : PackedCell) (chan : ChanPtr) (cell : Cell)
      (d : CellDirection) (fromstream : UInt16) (env : AppendEnv) (t : TimerPtr)
      (isOp : op = .append c chan cell d fromstream env) (first : lifeOf r c = some life)
      (isOpen : life.circ.markedForClose = false)
      (room : (life.circ.hop d).chanCells.length < cfg.maxQueueSize d)
      (delayed : life.circ.delays)
      (copyEq : copy = { appendCopy cfg r chan cell env with
        readyTv := getReadyTimeval cfg life.circ d env.readyNow env.sample })
      (queuedEq : queued = life.setHop [.accepted c d chan (life.circ.hop d).circId copy] d
        { life.circ.hop d with
          lastReadyTv := copy.readyTv
          delayQueue := (life.circ.hop d).delayQueue ++ [copy] }) :
      LifeStep cfg r op c life
        (if (life.circ.hop d).delayTimer = none then queued.schedule c d env.scheduleNow t
          else queued)
  | fireGone (life : Life) (d : CellDirection) (t : TimerPtr) (now scheduleNow : ClockReading)
      (armed : Armed) (isOp : op = .fire t now scheduleNow) (fires : Fires r c d t armed)
      (first : lifeOf r c = some life) (isOpen : life.circ.markedForClose = false)
      (isOr : life.circ.magic = .orCircuit) (gone : (life.circ.hop d).chan = none) :
      LifeStep cfg r op c life
        (life.setHop [] d { life.circ.hop d with delayTimer := none })
  | release (life moved : Life) (d : CellDirection) (t next : TimerPtr) (chan : ChanPtr)
      (now scheduleNow : ClockReading) (armed : Armed) (isOp : op = .fire t now scheduleNow)
      (fires : Fires r c d t armed) (first : lifeOf r c = some life)
      (isOpen : life.circ.markedForClose = false) (isOr : life.circ.magic = .orCircuit)
      (hasChan : (life.circ.hop d).chan = some chan)
      (movedEq : moved = life.setHop
        (((life.circ.hop d).readyCells now.val).map
          (.released c d chan (life.circ.hop d).circId now.val)) d
        { (life.circ.hop d).releaseReady now.val with delayTimer := none }) :
      LifeStep cfg r op c life (moved.schedule c d scheduleNow next)
  | popFailed (life : Life) (d : CellDirection) (chan : ChanPtr) (cell : PackedCell)
      (rest : CellQueue) (isOp : op = .flush c chan false) (first : lifeOf r c = some life)
      (dir : life.circ.directionOf chan = d) (head : (life.circ.hop d).chanCells = cell :: rest) :
      LifeStep cfg r op c life
        (life.setHop [.writeFailed c d cell] d { life.circ.hop d with chanCells := rest })
  | popWritten (life : Life) (d : CellDirection) (chan : ChanPtr) (cell : PackedCell)
      (rest : CellQueue) (isOp : op = .flush c chan true) (first : lifeOf r c = some life)
      (dir : life.circ.directionOf chan = d) (head : (life.circ.hop d).chanCells = cell :: rest) :
      LifeStep cfg r op c life
        (life.setHop [.written c d chan (life.circ.hop d).circId cell] d
          { life.circ.hop d with chanCells := rest })
  | unblock (life : Life) (d : CellDirection) (chan : ChanPtr) (isOp : op = .flush c chan true)
      (dir : life.circ.directionOf chan = d) (blocked : (life.circ.hop d).streamsBlocked = true)
      (low : (life.circ.hop d).chanCells.length ≤ cfg.cellQueueLowwatermark)
      (popped : ∃ first cell rest, lifeOf r c = some first ∧ first.circ.directionOf chan = d ∧
        (first.circ.hop d).chanCells = cell :: rest ∧
        life.circ = first.circ.setHop d { first.circ.hop d with chanCells := rest }) :
      LifeStep cfg r op c life (life.record [] (life.circ.setStreamsBlocked chan false 0))
  | block (life : Life) (d : CellDirection) (chan : ChanPtr) (cell : Cell) (fromstream : UInt16)
      (env : AppendEnv) (streamId : UInt16)
      (isOp : op = .append c chan cell d fromstream env) :
      LifeStep cfg r op c life (life.record [] (life.circ.setStreamsBlocked chan true streamId))
  | mark (life : Life) : LifeStep cfg r op c life (life.markForClose cfg c)
  | clearChan (life : Life) (d : CellDirection) (marked : life.circ.markedForClose = true) :
      LifeStep cfg r op c life
        (life.setHop [.cleared c d (life.circ.hop d).chanCells] d
          { life.circ.hop d with chanCells := [] })
  | clearDelay (life : Life) (marked : life.circ.markedForClose = true)
      (isOr : life.circ.magic = .orCircuit) :
      LifeStep cfg r op c life
        (life.record [.cleared c .inbound life.circ.p.delayQueue,
            .cleared c .outbound life.circ.n.delayQueue]
          { life.circ with
            p := { life.circ.p with delayQueue := [], delayTimer := none }
            n := { life.circ.n with delayQueue := [], delayTimer := none } })
  | truncate (life : Life) (chan : ChanPtr) (isOp : op = .truncate c)
      (first : lifeOf r c = some life) (isOpen : life.circ.markedForClose = false)
      (isOr : life.circ.magic = .orCircuit) (hasChan : life.circ.n.chan = some chan) :
      LifeStep cfg r op c life
        (life.setHop (circuitSynchronizeWrittenOrBandwidth cfg c life.circ .outbound ++
            [.cleared c .outbound life.circ.n.chanCells]) .outbound
          { life.circ.n with chanCells := [], chan := none, circId := 0 })
  | connect (life : Life) (chan : ChanPtr) (circId : UInt32) (isOp : op = .connect c chan circId)
      (first : lifeOf r c = some life) (isOpen : life.circ.markedForClose = false)
      (noChan : life.circ.n.chan = none) (allowed : extendAllowed cfg life.circ chan) :
      LifeStep cfg r op c life
        (life.setHop [] .outbound { life.circ.n with chan := some chan, circId := circId })
  | unlink (life : Life) (d : CellDirection) (isOp : op = .unlink c d)
      (first : lifeOf r c = some life) (hasChan : (life.circ.hop d).chan ≠ none) :
      LifeStep cfg r op c life
        ((life.setHop [] d { life.circ.hop d with chan := none, circId := 0 }).markForClose cfg c)

end RendezMix.Guarantees
