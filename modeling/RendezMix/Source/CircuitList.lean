import RendezMix.Source.DelayTimers

/-!
# Closing and freeing circuits

`core/or/circuitlist.c`: the bandwidth report, marking for close, the recovery
of a marked circuit's cells, freeing, and the loss of a channel. What closing a
circuit does to other subsystems (DESTROY cells, streams, statistics, padding,
onion services) is left out.
-/
namespace RendezMix.Source

def tlsPerCellOverhead : Nat := 29

/-- `circuit_synchronize_written_or_bandwidth`, as the record it leaves in the
bandwidth history. -/
def circuitSynchronizeWrittenOrBandwidth (cfg : Config) (c : CircPtr) (circ : Circuit)
    (d : CellDirection) : List Event :=
  if circ.magic ≠ .orCircuit then []
  else
    let chan := (circ.hop d).chan
    let cells := (circ.hop d).chanCells.length
    let cellSize :=
      match chan with
      | some chan => getCellNetworkSize (cfg.channel chan).wideCircIds
      | none => cellMaxNetworkSize
    let isIpv6 :=
      match chan with
      | some chan => (cfg.channel chan).isIpv6
      | none => false
    [.bytesWritten c d cells (cells * (cellSize + tlsPerCellOverhead)) isIpv6]

def circuitMarkForClose (cfg : Config) (c : CircPtr) (r : Relay) : Relay :=
  r.withCircuit c fun circ =>
    if circ.markedForClose then r
    else if circ.magic = .originCircuit ∧ circ.closeHeld = true then r
    else
      let r := r.emitAll (circuitSynchronizeWrittenOrBandwidth cfg c circ .outbound)
      let r := r.emitAll (circuitSynchronizeWrittenOrBandwidth cfg c circ .inbound)
      let r := r.emit (.markForClose c circ)
      r.setCircuit c { circ with markedForClose := true }

/-- The block that `marked_circuit_free_cells` and `circuit_free_` share: both
delay queues are cleared and both delay timers freed, but not the argument
blocks of the timers. -/
def freeDelayData (c : CircPtr) (r : Relay) : Relay :=
  r.withCircuit c fun circ =>
    let r := r.emit (.cleared c .inbound circ.p.delayQueue)
    let r := r.emit (.cleared c .outbound circ.n.delayQueue)
    let r := timerFree circ.p.delayTimer r
    let r := timerFree circ.n.delayTimer r
    r.setCircuit c { circ with
      p := { circ.p with delayQueue := [], delayTimer := none }
      n := { circ.n with delayQueue := [], delayTimer := none } }

/-- Remove and free every cell of one channel queue. -/
def clearChanCells (c : CircPtr) (d : CellDirection) (r : Relay) : Relay :=
  r.withCircuit c fun circ =>
    let r := r.emit (.cleared c d (circ.hop d).chanCells)
    r.setCircuit c (circ.setHop d { circ.hop d with chanCells := [] })

def markedCircuitFreeCells (c : CircPtr) (r : Relay) : Relay :=
  r.withCircuit c fun circ =>
    if circ.markedForClose = false then r
    else
      let r := clearChanCells c .outbound r
      if circ.magic = .orCircuit then freeDelayData c (clearChanCells c .inbound r) else r

/-- `circuit_set_n_circid_chan` and `circuit_set_p_circid_chan`. -/
def circuitSetCircidChan (c : CircPtr) (d : CellDirection) (circId : UInt32)
    (chan : Option ChanPtr) (r : Relay) : Relay :=
  r.withCircuit c fun circ =>
    r.setCircuit c (circ.setHop d { circ.hop d with chan := chan, circId := circId })

/-- `circuit_clear_cell_queue`: the channel queue for `chan`, and no other. -/
def circuitClearCellQueue (c : CircPtr) (chan : ChanPtr) (r : Relay) : Relay :=
  r.withCircuit c fun circ =>
    if circ.n.chan = some chan then clearChanCells c .outbound r
    else clearChanCells c .inbound r

/-- Give up one direction's channel, as far as the circuit still has it. -/
def detachChannel (c : CircPtr) (d : CellDirection) (r : Relay) : Relay :=
  r.withCircuit c fun circ =>
    match (circ.hop d).chan with
    | none => r
    | some chan => circuitSetCircidChan c d 0 none (circuitClearCellQueue c chan r)

/-- `circuit_about_to_free`; an or_circuit gives up both channels. -/
def circuitAboutToFree (c : CircPtr) (r : Relay) : Relay :=
  r.withCircuit c fun circ =>
    let r := detachChannel c .outbound r
    if circ.magic = .orCircuit then detachChannel c .inbound r else r

def circuitFree (c : CircPtr) (r : Relay) : Relay :=
  r.withCircuit c fun circ =>
    let r := if circ.magic = .orCircuit then freeDelayData c (clearChanCells c .inbound r) else r
    let r := clearChanCells c .outbound r
    { r with circuits := Function.update r.circuits c none }

/-- The end of a circuit in `circuit_close_all_marked` and `circuit_free_all`. -/
def closeCircuit (c : CircPtr) (r : Relay) : Relay := circuitFree c (circuitAboutToFree c r)

/-- What `circuit_unlink_all_from_channel` does to a circuit that loses the
channel of one direction, and `command_process_destroy_cell` to the circuit a
DESTROY cell names. -/
def circuitUnlinkFromChannel (cfg : Config) (c : CircPtr) (d : CellDirection) (r : Relay) :
    Relay :=
  circuitMarkForClose cfg c (circuitSetCircidChan c d 0 none r)

/-- One circuit killed by `circuits_handle_oom`. -/
def killCircuit (cfg : Config) (c : CircPtr) (r : Relay) : Relay :=
  markedCircuitFreeCells c (circuitMarkForClose cfg c r)

end RendezMix.Source

/-!
# Appending and flushing

`core/or/relay.c`: `append_cell_to_circuit_queue` with the blocking of edge
streams, one round of the loop of `channel_flush_from_first_active_circuit`,
and the part of a RELAY_COMMAND_TRUNCATE that gives up the next hop. Which
circuit a flush picks is the circuitmux's business and is free here.
-/
namespace RendezMix.Source

/-- `max_circuit_cell_queue_size` inbound, `max_circuit_cell_queue_size_out`
outbound. -/
def Config.maxQueueSize (cfg : Config) : CellDirection → Nat
  | .outbound => cfg.maxCircuitCellQueueSizeOut
  | .inbound => cfg.maxCircuitCellQueueSize

/-- The loop body of `set_streams_blocked_on_circ`. -/
def Edge.setBlocked (block : Bool) (streamId : UInt16) (edge : Edge) : Edge :=
  if streamId ≠ 0 ∧ edge.streamId ≠ streamId then edge
  else { edge with
    edgeBlockedOnCirc := block
    reading := if edge.readEvent then !block else edge.reading }

/-- `set_streams_blocked_on_circ`. Towards `n_chan` an or_circuit has no edges;
towards `p_chan` an origin circuit has none, and the source asserts so. -/
def Circuit.setStreamsBlocked (circ : Circuit) (chan : ChanPtr) (block : Bool)
    (streamId : UInt16) : Circuit :=
  if circ.n.chan = some chan then
    { circ with
      n := { circ.n with streamsBlocked := block }
      streams :=
        if circ.magic = .originCircuit then circ.streams.map (Edge.setBlocked block streamId)
        else circ.streams }
  else
    { circ with
      p := { circ.p with streamsBlocked := block }
      streams := circ.streams.map (Edge.setBlocked block streamId) }

def setStreamsBlockedOnCirc (c : CircPtr) (chan : ChanPtr) (block : Bool) (streamId : UInt16)
    (r : Relay) : Relay :=
  r.withCircuit c fun circ => r.setCircuit c (circ.setStreamsBlocked chan block streamId)

def cellQueueAppendPackedCopy (cfg : Config) (c : CircPtr) (chan : ChanPtr) (cell : Cell)
    (d : CellDirection) (env : AppendEnv) (r : Relay) : Relay :=
  let copy := packedCellCopy r.brk cell (cfg.channel chan).wideCircIds env.stamp
  delayOrAppendCell cfg copy c chan d env { r with brk := r.brk + 1 }

/-- What `cell_queues_check_size` does to circuits, if it runs the memory
handler at all. -/
def cellQueuesCheckSize (cfg : Config) (oomKills : Option (List CircPtr)) (r : Relay) : Relay :=
  match oomKills with
  | none => r
  | some kills => kills.foldl (fun r c => killCircuit cfg c r) r

/-- The end of `append_cell_to_circuit_queue`. `streamsBlocked` is the flag as
it was before the cell was queued. -/
def blockStreams (cfg : Config) (c : CircPtr) (chan : ChanPtr) (d : CellDirection)
    (streamsBlocked : Bool) (fromstream : UInt16) (r : Relay) : Relay :=
  r.withCircuit c fun circ =>
    let queued := (circ.hop d).chanCells.length
    let delayed := if circ.magic = .orCircuit then (circ.hop d).delayQueue.length else 0
    if streamsBlocked = false ∧ cfg.cellQueueHighwatermark ≤ queued + delayed then
      setStreamsBlockedOnCirc c chan true 0 r
    else if streamsBlocked = true ∧ fromstream ≠ 0 then
      setStreamsBlockedOnCirc c chan true fromstream r
    else r

def appendCellToCircuitQueue (cfg : Config) (c : CircPtr) (chan : ChanPtr) (cell : Cell)
    (d : CellDirection) (fromstream : UInt16) (env : AppendEnv) (r : Relay) : Relay :=
  r.withCircuit c fun circ =>
    if circ.markedForClose then r
    else if cfg.maxQueueSize d ≤ (circ.hop d).chanCells.length then
      circuitMarkForClose cfg c r
    else
      let r := cellQueueAppendPackedCopy cfg c chan cell d env r
      let r := cellQueuesCheckSize cfg env.oomKills r
      r.withCircuit c fun closed =>
        if env.oomKills.isSome ∧ closed.markedForClose = true then r
        else blockStreams cfg c chan d (circ.hop d).streamsBlocked fromstream r

/-- The direction in which `circ` sends on `chan`. -/
def Circuit.directionOf (circ : Circuit) (chan : ChanPtr) : CellDirection :=
  if circ.n.chan = some chan then .outbound else .inbound

/-- One round of `channel_flush_from_first_active_circuit` for the circuit its
circuitmux picked. A failed write frees the cell and closes the channel. -/
def channelFlushCircuit (cfg : Config) (c : CircPtr) (chan : ChanPtr) (writeOk : Bool)
    (r : Relay) : Relay :=
  r.withCircuit c fun circ =>
    let d := circ.directionOf chan
    match (circ.hop d).chanCells with
    | [] => if circ.markedForClose then r else circuitMarkForClose cfg c r
    | cell :: rest =>
      let r := r.setCircuit c (circ.setHop d { circ.hop d with chanCells := rest })
      if writeOk = false then r.emit (.writeFailed c d cell)
      else
        let r := r.emit (.written c d chan (circ.hop d).circId cell)
        if (circ.hop d).streamsBlocked = true ∧ rest.length ≤ cfg.cellQueueLowwatermark then
          setStreamsBlockedOnCirc c chan false 0 r
        else r

/-- The branch of RELAY_COMMAND_TRUNCATE taken when there is a next hop. The
TRUNCATED reply is an append of its own. -/
def truncateNextHop (cfg : Config) (c : CircPtr) (r : Relay) : Relay :=
  r.withCircuit c fun circ =>
    match circ.n.chan with
    | none => r
    | some chan =>
      let r := r.emitAll (circuitSynchronizeWrittenOrBandwidth cfg c circ .outbound)
      let r := circuitClearCellQueue c chan r
      circuitSetCircidChan c .outbound 0 none r

end RendezMix.Source
