import Mathlib
import RendezMix.Source.FlowControl

/-!
# Packaging data from the streams of a circuit

`connection_edge_package_raw_inbuf` and what makes it run: reading from a
stream, a circuit SENDME, and blocking and unblocking the streams of a circuit
(`relay.c`, with the reading of `connection.c` and `mainloop.c`). A buffer is
known by its length. What a SENDME does to the congestion window, the random
intervals, whether a cell is delayed and whether the memory handler closes the
circuit come from outside; the circuit keeps its channel.
-/
namespace RendezMix.Source

/-- An `edge_connection_t` on the list of a circuit. -/
structure AttachedStream where
  conn : Nat
  streamId : UInt16
  /-- What flow control uses; its `reading` is whether the connection is read from. -/
  flow : EdgeStream
  linked : Bool
  readEvent : Bool
  markedForClose : Bool
  /-- The state is open, not waiting for a connection. -/
  isOpen : Bool
  /-- `connection_ap_supports_optimistic_data`. -/
  supportsOptimisticData : Bool
  packageWindow : Int
  /-- The length of the inbuf. -/
  inbuf : Nat
  /-- The length of `sending_optimistic_data`. -/
  sendingOptimisticData : Option Nat
  edgeBlockedOnCirc : Bool
  deriving DecidableEq

/-- `cwnd` and `inflight` of a `congestion_control_t`. -/
structure CcWindow where
  cwnd : UInt64
  inflight : UInt64
  deriving DecidableEq

/-- A RELAY_DATA cell: the stream it was packaged from, and the length. -/
structure DataCell where
  conn : Nat
  length : Nat
  deriving DecidableEq

/-- A circuit at the end where its streams are. -/
structure StreamCircuit where
  streams : List AttachedStream
  /-- The window towards a hop, or of an exit's circuit. -/
  ccontrol : Option StreamHop → CcWindow
  /-- The cells on the queue towards the streams' other end, and in its delay queue. -/
  queueLen : Nat
  delayLen : Nat
  streamsBlocked : Bool
  markedForClose : Bool
  haveSentSufficientlyRandomCell : Bool
  sendRandomnessAfterNCells : UInt16
  /-- Every data cell packaged so far. -/
  sent : List DataCell

/-- The limits of the queue, and what comes from outside. -/
structure PackagingEnv where
  maxQueueSize : Nat
  highwatermark : Nat
  lowwatermark : Nat
  randomUint : StreamCircuit → UInt16
  delays : StreamCircuit → Bool
  oomCloses : StreamCircuit → Bool

/-! ## Reading from a stream -/

def connectionStopReading (edge : AttachedStream) : AttachedStream :=
  if edge.readEvent = false then edge
  else { edge with flow := { edge.flow with reading := false } }

/-- `connection_start_reading`. Only a connection that is not linked waits for an XON. -/
def connectionStartReading (edge : AttachedStream) : AttachedStream :=
  if edge.readEvent = false then edge
  else if edge.linked then { edge with flow := { edge.flow with reading := true } }
  else if edge.flow.xoffReceived then edge
  else { edge with flow := { edge.flow with reading := true } }

/-- The loop body of `set_streams_blocked_on_circ`. -/
def setEdgeBlocked (block : Bool) (streamId : UInt16) (edge : AttachedStream) : AttachedStream :=
  if streamId ≠ 0 ∧ edge.streamId ≠ streamId then edge
  else
    let edge := { edge with edgeBlockedOnCirc := block }
    if edge.readEvent = false then edge
    else if block then connectionStopReading edge
    else if edge.flow.reading = false then connectionStartReading edge
    else edge

namespace StreamCircuit

def edge (circ : StreamCircuit) (conn : Nat) : Option AttachedStream :=
  circ.streams.find? fun edge => edge.conn = conn

/-- Change one stream. -/
def updateEdge (circ : StreamCircuit) (conn : Nat) (f : AttachedStream → AttachedStream) :
    StreamCircuit :=
  { circ with streams := circ.streams.map fun edge => if edge.conn = conn then f edge else edge }

/-- `set_streams_blocked_on_circ`, for the channel towards the streams' other end. -/
def setBlocked (block : Bool) (streamId : UInt16) (circ : StreamCircuit) : StreamCircuit :=
  { circ with
    streamsBlocked := block
    streams := circ.streams.map (setEdgeBlocked block streamId) }

/-! ## Packaging -/

/-- `congestion_control_get_package_window`, with congestion control. -/
def packageWindow (circ : StreamCircuit) (cpath : Option StreamHop) : Int :=
  let cc := circ.ccontrol cpath
  if cc.inflight > cc.cwnd then 0
  else if cc.cwnd - cc.inflight > int32MaxWord.toUInt64 then int32Max
  else (cc.cwnd - cc.inflight).toNat

/-- The streams towards a hop stop reading. -/
def stopEdgeReading (layerHint : Option StreamHop) (circ : StreamCircuit) : StreamCircuit :=
  { circ with
    streams := circ.streams.map fun edge =>
      if layerHint = none ∨ edge.flow.cpathLayer = layerHint then connectionStopReading edge
      else edge }

/-- `circuit_consider_stop_edge_reading`. -/
def considerStopEdgeReading (layerHint : Option StreamHop) (circ : StreamCircuit) :
    Bool × StreamCircuit :=
  if circ.packageWindow layerHint ≤ 0 then (true, circ.stopEdgeReading layerHint) else (false, circ)

/-- `RELAY_PAYLOAD_LENGTH_FOR_RANDOM_SENDMES`. -/
def randomSendmesLength : Nat := relayPayloadSize - 4 - 16

/-- `circuit_reset_sendme_randomness`. -/
def resetSendmeRandomness (env : PackagingEnv) (circ : StreamCircuit) : StreamCircuit :=
  { circ with
    haveSentSufficientlyRandomCell := false
    sendRandomnessAfterNCells := 50 + env.randomUint circ % 50 }

/-- The interval of `connection_edge_get_inbuf_bytes_to_package`. -/
def countRandomness (env : PackagingEnv) (packageLength : Nat) (circ : StreamCircuit) :
    StreamCircuit :=
  let noted :=
    { circ with
      haveSentSufficientlyRandomCell :=
        circ.haveSentSufficientlyRandomCell || packageLength ≤ randomSendmesLength }
  let reset :=
    if noted.sendRandomnessAfterNCells = 0 then noted.resetSendmeRandomness env else noted
  { reset with sendRandomnessAfterNCells := reset.sendRandomnessAfterNCells - 1 }

/-- `connection_edge_get_inbuf_bytes_to_package`: the length, before the interval is counted. -/
def inbufBytesToPackage (nAvailable : Nat) (packagePartial : Bool) (circ : StreamCircuit) : Nat :=
  let forceRandomBytes :=
    circ.sendRandomnessAfterNCells = 0 ∧ circ.haveSentSufficientlyRandomCell = false
  let targetLength := if forceRandomBytes then randomSendmesLength else relayPayloadSize
  if nAvailable ≥ targetLength then targetLength
  else if packagePartial then nAvailable
  else 0

/-- `connection_edge_get_inbuf_bytes_to_package`, with what it makes of the interval. -/
def getInbufBytesToPackage (env : PackagingEnv) (nAvailable : Nat) (packagePartial : Bool)
    (circ : StreamCircuit) : Nat × StreamCircuit :=
  let packageLength := circ.inbufBytesToPackage nAvailable packagePartial
  if packageLength = 0 then (0, circ) else (packageLength, circ.countRandomness env packageLength)

/-- `append_cell_to_circuit_queue`, for a cell of the stream `streamId`. -/
def appendCell (env : PackagingEnv) (streamId : UInt16) (circ : StreamCircuit) : StreamCircuit :=
  if circ.markedForClose then circ
  else if env.maxQueueSize ≤ circ.queueLen then { circ with markedForClose := true }
  else
    let queued :=
      if env.delays circ then { circ with delayLen := circ.delayLen + 1 }
      else { circ with queueLen := circ.queueLen + 1 }
    if env.oomCloses queued then { queued with markedForClose := true }
    else if circ.streamsBlocked = false ∧ env.highwatermark ≤ queued.queueLen + queued.delayLen then
      queued.setBlocked true 0
    else if circ.streamsBlocked = true ∧ streamId ≠ 0 then queued.setBlocked true streamId
    else queued

/-- `connection_edge_send_command`, for RELAY_DATA. The stream is not marked. -/
def sendDataCommand (env : PackagingEnv) (edge : AttachedStream) (length : Nat)
    (circ : StreamCircuit) : Option StreamCircuit :=
  if circ.markedForClose then none
  else
    some (appendCell env edge.streamId { circ with sent := circ.sent ++ [⟨edge.conn, length⟩] })

def setWindow (circ : StreamCircuit) (cpath : Option StreamHop) (window : CcWindow) :
    StreamCircuit :=
  { circ with ccontrol := fun hop => if hop = cpath then window else circ.ccontrol hop }

/-- `congestion_control_note_cell_sent`, for the window. -/
def noteCellSent (cpath : Option StreamHop) (circ : StreamCircuit) : StreamCircuit :=
  circ.setWindow cpath
    { circ.ccontrol cpath with inflight := (circ.ccontrol cpath).inflight + 1 }

/-- `sendme_note_stream_data_packaged`. -/
def noteStreamDataPackaged (length : Nat) (edge : AttachedStream) : Int × AttachedStream :=
  if edge.flow.usesFlowControl then
    (if edge.flow.xoffReceived then -1 else 1,
      { edge with flow := flowControlNoteSentData (UInt64.ofNat length) edge.flow })
  else (edge.packageWindow - 1, { edge with packageWindow := edge.packageWindow - 1 })

/-- The bytes that a stream has to package. -/
def bytesToProcess (edge : AttachedStream) : Nat :=
  match edge.sendingOptimisticData with
  | some (n + 1) => n + 1
  | _ => edge.inbuf

/-- Take the bytes of a cell. -/
def takeBytesToPackage (length : Nat) (edge : AttachedStream) : AttachedStream :=
  match edge.sendingOptimisticData with
  | some (n + 1) =>
    { edge with
      sendingOptimisticData := if n + 1 - length = 0 then none else some (n + 1 - length) }
  | _ => { edge with inbuf := edge.inbuf - length }

/-- What a round of packaging ends with. -/
inductive Packaged
  /-- The return value. -/
  | done (ret : Int) (circ : StreamCircuit)
  /-- A cell was packaged, and there may be more. -/
  | again (circ : StreamCircuit)

/-- Package `length` bytes of a stream into a cell. -/
def packageCell (env : PackagingEnv) (edge : AttachedStream) (length : Nat)
    (circ : StreamCircuit) : Packaged :=
  let cpathLayer := edge.flow.cpathLayer
  let taken :=
    (circ.countRandomness env length).updateEdge edge.conn (takeBytesToPackage length)
  match sendDataCommand env edge length taken with
  | none => .done 0 taken
  | some appended =>
    let noted := (appended.noteCellSent cpathLayer).updateEdge edge.conn
      fun edge => (noteStreamDataPackaged length edge).2
    if (noteStreamDataPackaged length edge).1 < 0 then
      .done 0 ((noted.updateEdge edge.conn connectionStopReading).considerStopEdgeReading
        cpathLayer).2
    else .again noted

/-- One round of `connection_edge_package_raw_inbuf`. -/
def packageRound (env : PackagingEnv) (conn : Nat) (packagePartial : Bool) (circ : StreamCircuit) :
    Packaged :=
  match circ.edge conn with
  | none => .done (-1) circ
  | some edge =>
    if (circ.considerStopEdgeReading edge.flow.cpathLayer).1 then
      .done 0 (circ.considerStopEdgeReading edge.flow.cpathLayer).2
    else if edge.packageWindow ≤ 0 then .done 0 (circ.updateEdge conn connectionStopReading)
    else
      let length := circ.inbufBytesToPackage (bytesToProcess edge) packagePartial
      if length = 0 then .done 0 circ else circ.packageCell env edge length

/-- The rounds, of which each takes at least a byte. -/
def packageRounds (env : PackagingEnv) (conn : Nat) (packagePartial : Bool) :
    Nat → Option Int → StreamCircuit → Int × Option Int × StreamCircuit
  | 0, maxCells, circ => (0, maxCells, circ)
  | rounds + 1, maxCells, circ =>
    match packageRound env conn packagePartial circ with
    | .done ret circ => (ret, maxCells, circ)
    | .again circ =>
      let maxCells := maxCells.map (· - 1)
      if ∃ n ∈ maxCells, n ≤ 0 then (0, maxCells, circ)
      else packageRounds env conn packagePartial rounds maxCells circ

/-- All the bytes that a stream holds. -/
def leftover (edge : AttachedStream) : Nat := edge.inbuf + edge.sendingOptimisticData.getD 0

/-- `connection_edge_package_raw_inbuf`. -/
def packageRawInbuf (env : PackagingEnv) (conn : Nat) (packagePartial : Bool)
    (maxCells : Option Int) (circ : StreamCircuit) : Int × Option Int × StreamCircuit :=
  match circ.edge conn with
  | none => (0, maxCells, circ)
  | some edge =>
    if edge.markedForClose then (0, maxCells, circ)
    else if ∃ n ∈ maxCells, n ≤ 0 then (0, maxCells, circ)
    else packageRounds env conn packagePartial (leftover edge + 1) maxCells circ

/-- `connection_mark_for_close`. -/
def markEdge (edge : AttachedStream) : AttachedStream := { edge with markedForClose := true }

/-- Package, and close the connection if that fails. -/
def packageOrClose (env : PackagingEnv) (conn : Nat) (packagePartial : Bool)
    (circ : StreamCircuit) : Int × StreamCircuit :=
  let (ret, _, circ) := circ.packageRawInbuf env conn packagePartial none
  if ret < 0 then (-1, circ.updateEdge conn markEdge) else (0, circ)

/-! ## A circuit SENDME -/

/-- The stream may be read from again after a SENDME. -/
def resumable (layerHint : Option StreamHop) (edge : AttachedStream) : Bool :=
  !(edge.markedForClose || decide (edge.packageWindow ≤ 0) || edge.flow.xoffReceived)
    && decide (layerHint = none ∨ edge.flow.cpathLayer = layerHint)

/-- Start reading from the streams that may be resumed. The first is a random one, and the order
does not show. -/
def startResumable (layerHint : Option StreamHop) (circ : StreamCircuit) : StreamCircuit :=
  { circ with
    streams := circ.streams.map fun edge =>
      if resumable layerHint edge then connectionStartReading edge else edge }

/-- One round over the streams: the circuit, the cells packaged, the streams that have more, and
whether the circuit takes no more. -/
def resumeRound (env : PackagingEnv) (layerHint : Option StreamHop) (cellsPerConn : Int) :
    List Nat → StreamCircuit → Int → Int → StreamCircuit × Int × Int × Bool
  | [], circ, packaged, left => (circ, packaged, left, false)
  | conn :: rest, circ, packaged, left =>
    match circ.edge conn with
    | none => resumeRound env layerHint cellsPerConn rest circ packaged left
    | some edge =>
      if edge.markedForClose = true ∨ edge.packageWindow ≤ 0 then
        resumeRound env layerHint cellsPerConn rest circ packaged left
      else if layerHint = none ∨ edge.flow.cpathLayer = layerHint then
        let (ret, n, circ) := circ.packageRawInbuf env conn true (some cellsPerConn)
        let packaged := packaged + (cellsPerConn - n.getD 0)
        if ret < 0 then
          resumeRound env layerHint cellsPerConn rest (circ.updateEdge conn markEdge) packaged left
        else
          let left := if ∃ e ∈ circ.edge conn, 0 < e.inbuf then left + 1 else left
          let (stopped, circ) := circ.considerStopEdgeReading layerHint
          if stopped then (circ, packaged, left, true)
          else resumeRound env layerHint cellsPerConn rest circ packaged left
      else resumeRound env layerHint cellsPerConn rest circ packaged left

def ceilDiv (a b : Int) : Int := (a + (b - 1)).tdiv b

/-- The rounds, as long as cells are packaged and more may be. -/
def resumeRounds (env : PackagingEnv) (layerHint : Option StreamHop) :
    Nat → Int → Int → StreamCircuit → StreamCircuit
  | 0, _, _, circ => circ
  | rounds + 1, maxToPackage, nPackagingStreams, circ =>
    let (circ, packaged, left, stopped) :=
      resumeRound env layerHint (ceilDiv maxToPackage nPackagingStreams)
        (circ.streams.map AttachedStream.conn) circ 0 0
    if stopped then circ
    else if packaged ≠ 0 ∧ packaged < maxToPackage ∧ left ≠ 0 then
      resumeRounds env layerHint rounds (maxToPackage - packaged) left circ
    else circ

/-- The most cells that a SENDME lets be packaged. -/
def maxToPackage (env : PackagingEnv) (layerHint : Option StreamHop) (circ : StreamCircuit) : Int :=
  min (circ.packageWindow layerHint) (env.highwatermark - circ.queueLen)

/-- `circuit_resume_edge_reading_helper`. -/
def resumeEdgeReadingHelper (env : PackagingEnv) (layerHint : Option StreamHop)
    (circ : StreamCircuit) : StreamCircuit :=
  let started := circ.startResumable layerHint
  let nPackagingStreams :=
    circ.streams.countP fun edge => resumable layerHint edge && decide (0 < edge.inbuf)
  if nPackagingStreams = 0 then started
  else
    let most := circ.maxToPackage env layerHint
    resumeRounds env layerHint (most.toNat + 1) most nPackagingStreams started

/-- `circuit_resume_edge_reading`. -/
def resumeEdgeReading (env : PackagingEnv) (layerHint : Option StreamHop) (circ : StreamCircuit) :
    StreamCircuit :=
  if circ.streamsBlocked then circ else circ.resumeEdgeReadingHelper env layerHint

/-! ## Reading from the socket -/

/-- `connection_edge_process_inbuf`. A stream that waits leaves the data on its buffer. -/
def processInbuf (env : PackagingEnv) (conn : Nat) (packagePartial : Bool)
    (circ : StreamCircuit) : Int × StreamCircuit :=
  if ∃ edge ∈ circ.edge conn, edge.isOpen = true ∨ edge.supportsOptimisticData = true then
    circ.packageOrClose env conn packagePartial
  else (0, circ)

/-- The loop of `connection_handle_read_impl`, for the bytes that each turn reads. -/
def handleRead (env : PackagingEnv) (conn : Nat) : List Nat → StreamCircuit → StreamCircuit
  | [], circ => (circ.processInbuf env conn true).2
  | n :: rest, circ =>
    let circ := circ.updateEdge conn fun edge => { edge with inbuf := edge.inbuf + n }
    let (ret, circ) := circ.processInbuf env conn false
    if ret < 0 then circ
    else if ∃ e ∈ circ.edge conn, e.markedForClose = false ∧ e.flow.reading = true then
      handleRead env conn rest circ
    else (circ.processInbuf env conn true).2

end StreamCircuit

/-! ## The events -/

inductive PackagingEvent
  /-- A stream is attached; at a client, its data may be sent at once. -/
  | attach (edge : AttachedStream)
  | detach (conn : Nat)
  /-- The stream is connected: RELAY_CONNECTED at a client, the connection at an exit. -/
  | connected (conn : Nat)
  /-- The stream's socket, or the connection it is linked to, is read from. -/
  | read (conn : Nat) (sizes : List Nat)
  /-- The bandwidth allows reading again. -/
  | reenable (conn : Nat)
  | xoff (conn : Nat) (layerHint : Option StreamHop)
  | xon (conn : Nat) (layerHint : Option StreamHop) (payload : List UInt8)
  /-- A circuit SENDME, with the window that congestion control makes of it. -/
  | sendme (layerHint : Option StreamHop) (window : CcWindow)
  /-- A cell of the queue goes out on the channel. -/
  | flush
  /-- A delayed cell enters the queue. -/
  | release
  | block
  | unblock

/-- The events that can come. XOFF and XON are handled for an open stream only. -/
def PackagingEvent.Enabled (circ : StreamCircuit) : PackagingEvent → Prop
  | .attach edge =>
    edge.conn ∉ circ.streams.map AttachedStream.conn ∧ edge.flow.xoffReceived = false
      ∧ edge.isOpen = false
  | .detach _ => True
  | .connected conn => ∃ edge ∈ circ.edge conn, edge.isOpen = false
  | .read conn sizes =>
    sizes ≠ [] ∧ ∃ edge ∈ circ.edge conn,
      edge.flow.reading = true ∧ edge.markedForClose = false
  | .reenable _ => True
  | .xoff conn _ => ∃ edge ∈ circ.edge conn, edge.isOpen = true
  | .xon conn _ _ => ∃ edge ∈ circ.edge conn, edge.isOpen = true
  | .sendme _ _ => True
  | .flush => 0 < circ.queueLen
  | .release => 0 < circ.delayLen
  | .block => True
  | .unblock => True

instance (circ : StreamCircuit) (e : PackagingEvent) : Decidable (e.Enabled circ) := by
  cases e <;> unfold PackagingEvent.Enabled <;> infer_instance

namespace StreamCircuit

/-- What an event does. -/
def handle (env : PackagingEnv) (p : FlowParams) (circ : StreamCircuit) :
    PackagingEvent → StreamCircuit
  | .attach edge =>
    let attached := { circ with streams := edge :: circ.streams }
    if edge.flow.isAp = true ∧ edge.supportsOptimisticData = true ∧ 0 < leftover edge then
      (attached.packageOrClose env edge.conn true).2
    else attached
  | .detach conn => { circ with streams := circ.streams.filter fun edge => edge.conn ≠ conn }
  | .connected conn =>
    let opened := circ.updateEdge conn fun edge => { edge with isOpen := true }
    if ∃ edge ∈ circ.edge conn, edge.flow.isAp = true then
      (opened.packageOrClose env conn true).2
    else opened.updateEdge conn connectionStartReading
  | .read conn sizes => circ.handleRead env conn sizes
  | .reenable conn => circ.updateEdge conn connectionStartReading
  | .xoff conn layerHint =>
    circ.updateEdge conn fun edge =>
      { edge with flow := (circuitProcessStreamXoff p layerHint edge.flow).2 }
  | .xon conn layerHint payload =>
    circ.updateEdge conn fun edge =>
      { edge with flow := (circuitProcessStreamXon p layerHint payload edge.flow).2 }
  | .sendme layerHint window => (circ.setWindow layerHint window).resumeEdgeReading env layerHint
  | .flush =>
    let flushed := { circ with queueLen := circ.queueLen - 1 }
    if flushed.streamsBlocked = true ∧ flushed.queueLen ≤ env.lowwatermark then
      flushed.setBlocked false 0
    else flushed
  | .release => { circ with delayLen := circ.delayLen - 1, queueLen := circ.queueLen + 1 }
  | .block => circ.setBlocked true 0
  | .unblock => circ.setBlocked false 0

end StreamCircuit

/-- A step of the circuit. What comes from outside may differ from step to step. -/
def PackagingStep (p : FlowParams) (circ : StreamCircuit) (e : PackagingEnv × PackagingEvent)
    (circ' : StreamCircuit) : Prop :=
  e.2.Enabled circ ∧ circ' = circ.handle e.1 p e.2

end RendezMix.Source
