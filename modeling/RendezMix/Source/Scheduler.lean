import RendezMix.Library.WhileLoops
import RendezMix.Source.Smartlist

/-!
# The channel scheduler

`core/or/scheduler.c`, `core/or/scheduler_kist.c` and `core/or/scheduler_vanilla.c`:
the scheduler state of the channels, the queue of those that are pending, and the
two schedulers that work it off. `none` is a failed assertion, of which only
`smartlist_pqueue_remove` has some here. The calls that plan the next run of a
scheduler are left out.

What the rest of the program does is an input: the order of the channels at each
call, what becomes of each cell that is sent, how much a socket may write, and the
channels that are closed or told to be writable while cells are flushed or buffers
written.
-/
namespace RendezMix.Source.Scheduler

open Library.WhileLoops SmartlistPqueue

/-- The values of `scheduler_state`. -/
inductive SchedState where
  | idle
  | waitingForCells
  | waitingToWrite
  | pending
  deriving DecidableEq

structure Channel where
  schedulerState : SchedState
  /-- `CHANNEL_IS_OPEN` -/
  isOpen : Bool
  /-- `circuitmux_num_cells` of the mux. -/
  numCells : Nat

/-- `socket_table_ent_t`, by the fields that limit writing. -/
structure SocketInfo where
  written : UInt64
  limit : UInt64

/-- The fields `sched_heap_idx` are those of `channelsPending`. -/
structure Sched (Chan : Type) where
  channelsPending : Pqueue Chan
  channel : Chan → Channel
  socketTable : Chan → Option SocketInfo

variable {Chan : Type} [DecidableEq Chan]

def Sched.setChannel (w : Sched Chan) (chan : Chan) (c : Channel) : Sched Chan :=
  { w with channel := Function.update w.channel chan c }

def schedulerSetChannelState (w : Sched Chan) (chan : Chan) (newState : SchedState) :
    Sched Chan :=
  w.setChannel chan { w.channel chan with schedulerState := newState }

section

variable (w : Sched Chan) (chan : Chan) (c : Channel)

@[simp] theorem setChannel_same : (w.setChannel chan c).channel chan = c :=
  Function.update_self _ _ _

theorem setChannel_other {chan other : Chan} (ne : other ≠ chan) :
    (w.setChannel chan c).channel other = w.channel other :=
  Function.update_of_ne ne _ _

@[simp] theorem schedulerSetChannelState_channelsPending (newState : SchedState) :
    (schedulerSetChannelState w chan newState).channelsPending = w.channelsPending := rfl

end

section Calls

variable [Inhabited Chan] (compare : Chan → Chan → Int)

/-! ## Calls -/

def removePending (w : Sched Chan) (chan : Chan) : Option (Sched Chan) :=
  match smartlistPqueueRemove compare w.channelsPending chan with
  | none => none
  | some cp => some { w with channelsPending := cp }

def addPending (w : Sched Chan) (chan : Chan) : Sched Chan :=
  { w with channelsPending := smartlistPqueueAdd compare w.channelsPending chan }

/-- Add a channel `if (!SCHED_BUG(chan->sched_heap_idx != -1, chan))`. -/
def addPendingChecked (w : Sched Chan) (chan : Chan) : Sched Chan :=
  if w.channelsPending.idx chan ≠ -1 then w else addPending compare w chan

def schedulerChannelDoesntWantWrites (w : Sched Chan) (chan : Chan) : Option (Sched Chan) :=
  match (w.channel chan).schedulerState with
  | .pending =>
      match removePending compare w chan with
      | none => none
      | some w => some (schedulerSetChannelState w chan .waitingToWrite)
  | .waitingForCells => some (schedulerSetChannelState w chan .idle)
  | _ => some w

def schedulerChannelHasWaitingCells (w : Sched Chan) (chan : Chan) : Sched Chan :=
  match (w.channel chan).schedulerState with
  | .waitingForCells => addPendingChecked compare (schedulerSetChannelState w chan .pending) chan
  | .idle => schedulerSetChannelState w chan .waitingToWrite
  | _ => w

/-- The socket entry is freed by `kist_on_channel_free_fn`. The vanilla scheduler
has no such function, and no entries. -/
def schedulerReleaseChannel (w : Sched Chan) (chan : Chan) : Option (Sched Chan) :=
  match (if w.channelsPending.idx chan ≠ -1 then removePending compare w chan else some w) with
  | none => none
  | some w =>
      some (schedulerSetChannelState
        { w with socketTable := Function.update w.socketTable chan none } chan .idle)

def schedulerChannelWantsWrites (w : Sched Chan) (chan : Chan) : Sched Chan :=
  match (w.channel chan).schedulerState with
  | .waitingToWrite => addPendingChecked compare (schedulerSetChannelState w chan .pending) chan
  | .idle => schedulerSetChannelState w chan .waitingForCells
  | _ => w

/-- A channel goes to one of the states closing, closed and error, or is freed. -/
def closeChannel (w : Sched Chan) (chan : Chan) : Option (Sched Chan) :=
  schedulerReleaseChannel compare (w.setChannel chan { w.channel chan with isOpen := false }) chan

def channelMarkForClose (w : Sched Chan) (chan : Chan) : Option (Sched Chan) :=
  if (w.channel chan).isOpen then closeChannel compare w chan else some w

/-! ## Flushing -/

/-- What else happens while cells are flushed or a buffer is written. -/
inductive Aside (Chan : Type) where
  | closes (chan : Chan)
  /-- By `connection_or_flushed_some`. -/
  | wantsWrites (chan : Chan)

def asides : List (Aside Chan) → Sched Chan → Option (Sched Chan)
  | [], w => some w
  | .closes chan :: rest, w =>
      match closeChannel compare w chan with
      | none => none
      | some w => asides rest w
  | .wantsWrites chan :: rest, w => asides rest (schedulerChannelWantsWrites compare w chan)

end Calls

/-- What becomes of a pass of `channel_flush_from_first_active_circuit`. -/
inductive PassOutcome where
  | sent
  /-- `channel_write_packed_cell` failed, and the cell is gone. The mux goes on to
  count it until it meets the circuit again, but the channel is closed by then. -/
  | notSent
  /-- The queue of the circuit was empty although the mux counted cells for it. -/
  | noCells (more : Nat)
  deriving DecidableEq

def PassOutcome.flushed : PassOutcome → Nat
  | .sent => 1
  | _ => 0

/-- The cells that are no longer counted after a pass. -/
def PassOutcome.gone : PassOutcome → Nat
  | .noCells more => more + 1
  | _ => 1

structure FlushPass (Chan : Type) where
  compare : Chan → Chan → Int
  outcome : PassOutcome
  asides : List (Aside Chan)

section Flushing

variable [Inhabited Chan]

def flushPass (chan : Chan) (pass : FlushPass Chan) (w : Sched Chan) : Option (Sched Chan) :=
  let c := w.channel chan
  let w := w.setChannel chan { c with numCells := c.numCells - pass.outcome.gone }
  match (if pass.outcome = .notSent then channelMarkForClose pass.compare w chan else some w) with
  | none => none
  | some w => asides pass.compare pass.asides w

/-- `channel_flush_from_first_active_circuit`: passes while fewer than `max` cells
are flushed and the mux has some. There are no more passes than cells. -/
def flushPasses (chan : Chan) (max : Nat) :
    Nat → (Nat → FlushPass Chan) → Nat → Sched Chan → Option (Nat × Sched Chan)
  | 0, _, nFlushed, w => some (nFlushed, w)
  | fuel + 1, passes, nFlushed, w =>
      if nFlushed < max ∧ (w.channel chan).numCells ≠ 0 then
        match flushPass chan (passes 0) w with
        | none => none
        | some w =>
            flushPasses chan max fuel (fun n => passes (n + 1))
              (nFlushed + (passes 0).outcome.flushed) w
      else some (nFlushed, w)

def maxCellsToGetFromCircuitsForUnlimited : Nat := 256

def channelFlushSomeCells (chan : Chan) (numCells : Nat) (passes : Nat → FlushPass Chan)
    (w : Sched Chan) : Option (Nat × Sched Chan) :=
  if numCells = 0 then some (0, w)
  else if (w.channel chan).isOpen ∧ (w.channel chan).numCells > 0 then
    flushPasses chan (min numCells maxCellsToGetFromCircuitsForUnlimited)
      (w.channel chan).numCells passes 0 w
  else some (0, w)

end Flushing

/-! ## KIST -/

/-- `CELL_MAX_NETWORK_SIZE + TLS_PER_CELL_OVERHEAD` -/
def cellWireSize : UInt64 := 514 + 29

/-- A socket without an entry is not limited. -/
def socketCanWrite (w : Sched Chan) (chan : Chan) : Bool :=
  match w.socketTable chan with
  | none => true
  | some ent => decide (0 < (ent.limit - ent.written).toInt64 / cellWireSize.toInt64)

def updateSocketWritten (w : Sched Chan) (chan : Chan) (bytes : UInt64) : Sched Chan :=
  match w.socketTable chan with
  | none => w
  | some ent =>
      { w with
        socketTable :=
          Function.update w.socketTable chan (some { ent with written := ent.written + bytes }) }

/-- `init_socket_info` and `update_socket_info` for a list of channels. -/
def initSocketInfo (limit : Chan → UInt64) : List Chan → Sched Chan → Sched Chan
  | [], w => w
  | chan :: rest, w =>
      initSocketInfo limit rest
        { w with
          socketTable :=
            Function.update w.socketTable chan (some { written := 0, limit := limit chan }) }

/-- What happens while a channel's outbuf is written to the kernel. -/
structure KernelWrite (Chan : Type) where
  compare : Chan → Chan → Int
  asides : List (Aside Chan)

/-- The inputs of one pass through the main loop of `kist_scheduler_run`. -/
structure KistTurn (Chan : Type) where
  /-- The order of the channels when one is popped. -/
  compare : Chan → Chan → Int
  /-- The outbuf of the channel before is long enough to write it. -/
  shouldWrite : Bool
  write : KernelWrite Chan
  passes : Nat → FlushPass Chan
  /-- The order of the channels after flushing. -/
  compareAfter : Chan → Chan → Int

structure KistState (Chan : Type) where
  sched : Sched Chan
  prevChan : Option Chan
  toReadd : List Chan
  outbufTable : List Chan

def outbufTableAdd (table : List Chan) (chan : Chan) : List Chan :=
  if chan ∈ table then table else table ++ [chan]

section Kist

variable [Inhabited Chan]

def channelWriteToKernel (write : KernelWrite Chan) (w : Sched Chan) : Option (Sched Chan) :=
  asides write.compare write.asides w

/-- Consider writing the outbuf of the channel before when there is a new one. -/
def leavePrevChan (turn : KistTurn Chan) (chan : Chan) (s : KistState Chan) :
    Option (KistState Chan) :=
  let prev := s.prevChan.getD chan
  let s := { s with prevChan := some chan }
  if prev = chan then some s
  else
    let s := { s with outbufTable := outbufTableAdd s.outbufTable prev }
    if turn.shouldWrite then
      match channelWriteToKernel turn.write s.sched with
      | none => none
      | some w => some { s with sched := w, outbufTable := s.outbufTable.erase prev }
    else some s

/-- Decide what to do with the channel now. -/
def kistDecide (compare : Chan → Chan → Int) (chan : Chan) (s : KistState Chan) :
    KistState Chan :=
  let more := decide ((s.sched.channel chan).numCells > 0)
  if ¬ more ∧ ¬ socketCanWrite s.sched chan then
    { s with sched := schedulerSetChannelState s.sched chan .waitingForCells }
  else if ¬ more then
    { s with sched := schedulerSetChannelState s.sched chan .waitingForCells }
  else if ¬ socketCanWrite s.sched chan then { s with toReadd := s.toReadd ++ [chan] }
  else
    { s with
      sched := addPendingChecked compare (schedulerSetChannelState s.sched chan .pending) chan }

/-- Flush one cell of a channel, and decide. -/
def kistServe (turn : KistTurn Chan) (chan : Chan) (s : KistState Chan) :
    Option (KistState Chan) :=
  if socketCanWrite s.sched chan then
    match channelFlushSomeCells chan 1 turn.passes s.sched with
    | none => none
    | some (flushResult, w) =>
        if ¬ (w.channel chan).isOpen then
          some { s with sched := schedulerSetChannelState w chan .idle }
        else if flushResult > 0 then
          some (kistDecide turn.compareAfter chan
            { s with sched := updateSocketWritten w chan (UInt64.ofNat flushResult * cellWireSize) })
        else some { s with sched := schedulerSetChannelState w chan .waitingForCells }
  else some (kistDecide turn.compareAfter chan s)

/-- One pass through the main scheduling loop. -/
def kistPass (turn : KistTurn Chan) (s : KistState Chan) : Option (KistState Chan) :=
  match smartlistPqueuePop turn.compare s.sched.channelsPending with
  | none => none
  | some (chan, cp) =>
      let s := { s with
        sched := { s.sched with channelsPending := cp },
        outbufTable := outbufTableAdd s.outbufTable chan }
      match leavePrevChan turn chan s with
      | none => none
      | some s => kistServe turn chan s

/-- The inputs of a run. -/
structure KistRun (Chan : Type) where
  limit : Chan → UInt64
  turns : Nat → KistTurn Chan
  /-- The order in which `HT_FOREACH_FN` meets the entries of the outbuf table. -/
  tableOrder : List Chan → List Chan
  writes : Chan → KernelWrite Chan
  compare : Chan → Chan → Int

def eachChannelWriteToKernel (writes : Chan → KernelWrite Chan) :
    List Chan → Sched Chan → Option (Sched Chan)
  | [], w => some w
  | chan :: rest, w =>
      match channelWriteToKernel (writes chan) w with
      | none => none
      | some w => eachChannelWriteToKernel writes rest w

def kistReadd (compare : Chan → Chan → Int) : List Chan → Sched Chan → Sched Chan
  | [], w => w
  | chan :: rest, w =>
      let w := schedulerSetChannelState w chan .pending
      kistReadd compare rest
        (if chan ∈ w.channelsPending.list then w else addPendingChecked compare w chan)

/-- `smartlist_len(cp) > 0` -/
def kistMore (s : KistState Chan) : Bool := decide (s.sched.channelsPending.list ≠ [])

/-- The state before the main loop. -/
def kistStart (run : KistRun Chan) (w : Sched Chan) : KistState Chan where
  sched := initSocketInfo run.limit w.channelsPending.list w
  prevChan := none
  toReadd := []
  outbufTable := []

/-- What follows the main loop. -/
def kistFinish (run : KistRun Chan) (s : KistState Chan) : Option (Sched Chan) :=
  match eachChannelWriteToKernel run.writes (run.tableOrder s.outbufTable) s.sched with
  | none => none
  | some w => some (kistReadd run.compare s.toReadd w)

/-- At most `fuel` passes through the main loop. -/
def kistSchedulerRun (fuel : Nat) (run : KistRun Chan) (w : Sched Chan) : Option (Sched Chan) :=
  match whileLoop kistMore kistPass fuel run.turns (kistStart run w) with
  | none => none
  | some s => kistFinish run s

/-! ## Vanilla -/

def maxFlushCells : Nat := 1000

/-- The inputs of one pass through the loop of `vanilla_scheduler_run`. -/
structure VanillaTurn (Chan : Type) where
  compare : Chan → Chan → Int
  /-- `channel_num_cells_writeable` before and after flushing. -/
  nCells : Int
  writeableAfter : Int
  /-- The passes of each call of `channel_flush_some_cells`. -/
  flushes : Nat → Nat → FlushPass Chan

/-- `while (flushed < n_cells)`: each round but the last one flushes some cells, so
there are at most `nCells` of them. -/
def vanillaFlush (chan : Chan) (nCells : Nat) :
    Nat → (Nat → Nat → FlushPass Chan) → Nat → Sched Chan → Option (Nat × Sched Chan)
  | 0, _, flushed, w => some (flushed, w)
  | fuel + 1, flushes, flushed, w =>
      if flushed < nCells then
        match channelFlushSomeCells chan (min maxFlushCells (nCells - flushed)) (flushes 0) w with
        | none => none
        | some (flushedThisTime, w) =>
            if flushedThisTime = 0 then some (flushed, w)
            else vanillaFlush chan nCells fuel (fun n => flushes (n + 1)) (flushed + flushedThisTime) w
      else some (flushed, w)

structure VanillaState (Chan : Type) where
  sched : Sched Chan
  toReadd : List Chan

/-- What becomes of a channel that has flushed cells. -/
def vanillaDecide (turn : VanillaTurn Chan) (chan : Chan) (flushed : Nat) (s : VanillaState Chan) :
    VanillaState Chan :=
  if (flushed : Int) < turn.nCells then
    { s with sched := schedulerSetChannelState s.sched chan .waitingForCells }
  else if (s.sched.channel chan).numCells > 0 then
    if turn.writeableAfter > 0 then { s with toReadd := s.toReadd ++ [chan] }
    else { s with sched := schedulerSetChannelState s.sched chan .waitingToWrite }
  else if turn.writeableAfter > 0 then
    { s with sched := schedulerSetChannelState s.sched chan .waitingForCells }
  else { s with sched := schedulerSetChannelState s.sched chan .idle }

def vanillaPass (turn : VanillaTurn Chan) (s : VanillaState Chan) : Option (VanillaState Chan) :=
  match smartlistPqueuePop turn.compare s.sched.channelsPending with
  | none => none
  | some (chan, cp) =>
      let w := { s.sched with channelsPending := cp }
      if turn.nCells > 0 then
        match vanillaFlush chan turn.nCells.toNat turn.nCells.toNat turn.flushes 0 w with
        | none => none
        | some (flushed, w) => some (vanillaDecide turn chan flushed { s with sched := w })
      else some { s with sched := schedulerSetChannelState w chan .waitingToWrite }

structure VanillaRun (Chan : Type) where
  turns : Nat → VanillaTurn Chan
  compare : Chan → Chan → Int

def vanillaReadd (compare : Chan → Chan → Int) : List Chan → Sched Chan → Sched Chan
  | [], w => w
  | chan :: rest, w =>
      vanillaReadd compare rest (addPending compare (schedulerSetChannelState w chan .pending) chan)

def vanillaMore (s : VanillaState Chan) : Bool := decide (s.sched.channelsPending.list ≠ [])

/-- At most `fuel` passes through the loop. -/
def vanillaSchedulerRun (fuel : Nat) (run : VanillaRun Chan) (w : Sched Chan) :
    Option (Sched Chan) :=
  match whileLoop vanillaMore vanillaPass fuel run.turns { sched := w, toReadd := [] } with
  | none => none
  | some s => some (vanillaReadd run.compare s.toReadd s.sched)

end Kist

/-! ## Events -/

/-- Channels that have never been scheduled. -/
def newSched (isOpen : Chan → Bool) : Sched Chan where
  channelsPending := ⟨[], fun _ => -1⟩
  channel chan := { schedulerState := .idle, isOpen := isOpen chan, numCells := 0 }
  socketTable _ := none

inductive SchedEvent (Chan : Type) where
  | wantsWrites (compare : Chan → Chan → Int) (chan : Chan)
  | doesntWantWrites (compare : Chan → Chan → Int) (chan : Chan)
  /-- So many more cells are queued, and the scheduler is told. -/
  | hasWaitingCells (compare : Chan → Chan → Int) (chan : Chan) (n : Nat)
  /-- The channel goes away. -/
  | release (compare : Chan → Chan → Int) (chan : Chan)
  | kistRun (run : KistRun Chan)
  | vanillaRun (run : VanillaRun Chan)

/-- One of the two schedulers is run. -/
def SchedEvent.isRun : SchedEvent Chan → Bool
  | .kistRun _ => true
  | .vanillaRun _ => true
  | _ => false

def queueCells (w : Sched Chan) (chan : Chan) (n : Nat) : Sched Chan :=
  let c := w.channel chan
  w.setChannel chan { c with numCells := c.numCells + n }

/-- An event that returns. A scheduler run returns if its main loop ends. -/
def SchedStep [Inhabited Chan] (w : Sched Chan) (ev : SchedEvent Chan) (w' : Sched Chan) : Prop :=
  match ev with
  | .wantsWrites compare chan => w' = schedulerChannelWantsWrites compare w chan
  | .doesntWantWrites compare chan => schedulerChannelDoesntWantWrites compare w chan = some w'
  | .hasWaitingCells compare chan n =>
      w' = schedulerChannelHasWaitingCells compare (queueCells w chan n) chan
  | .release compare chan => closeChannel compare w chan = some w'
  | .kistRun run => ∃ fuel, kistSchedulerRun fuel run w = some w'
  | .vanillaRun run => ∃ fuel, vanillaSchedulerRun fuel run w = some w'

end RendezMix.Source.Scheduler
