import RendezMix.Library.Runs
import RendezMix.Source.CongestionParams
import RendezMix.Source.Onion

/-!
# XON and XOFF of a stream

`congestion_control_flow.c`, with the cells of `flow_control_cells.trunnel`.
A stream keeps its part as the end that sends data (the bytes it packaged and
the messages it received) and as the end that receives data (what it drained
and the rate it announced). Its outbuf is known by its length. A flow control
cell goes out on a circuit that is open and whose stream is attached to it:
otherwise the stream is being closed.
-/
namespace RendezMix.Source
open Library.ByteStrings Library.Runs

def xonCountScaleAt : UInt8 := 200
def xoffCountScaleAt : UInt8 := 200
def totalXmitScaleAt : UInt64 := 10 * 1048576
def maxExpectedCellBurst : Nat := 32
def int32MaxWord : UInt32 := 2147483647
def uint32Max : UInt64 := 4294967295

/-- The consensus parameters that the file caches. -/
structure FlowParams where
  xoffClient : UInt32
  xoffExit : UInt32
  xonChangePct : UInt32
  xonEwmaCnt : UInt32
  xonRateBytes : UInt32
  deriving DecidableEq

def flowControlNewConsensusParams (ns : NetParams) : FlowParams where
  xoffClient := UInt32.ofInt
    (networkstatusGetParam (ns "cc_xoff_client") 500 1 10000 * relayPayloadSize)
  xoffExit := UInt32.ofInt
    (networkstatusGetParam (ns "cc_xoff_exit") 500 1 10000 * relayPayloadSize)
  xonChangePct := UInt32.ofInt (networkstatusGetParam (ns "cc_xon_change_pct") 25 1 99)
  xonRateBytes := UInt32.ofInt
    (networkstatusGetParam (ns "cc_xon_rate") 500 1 5000 * relayPayloadSize)
  xonEwmaCnt := UInt32.ofInt (networkstatusGetParam (ns "cc_xon_ewma_cnt") 2 2 100)

/-- The hop of a stream: which one it is, and whether it has a `ccontrol`. -/
structure StreamHop where
  hop : Nat
  ccontrol : Bool
  deriving DecidableEq

/-- What flow control reads and writes of an `edge_connection_t`. -/
structure EdgeStream where
  /-- The type is `CONN_TYPE_AP`. -/
  isAp : Bool
  /-- `hs_ident` is set. -/
  hsIdent : Bool
  /-- `on_circuit` has a `ccontrol`. -/
  circuitCcontrol : Bool
  cpathLayer : Option StreamHop
  /-- The length of the outbuf. -/
  outbufLen : Nat
  reading : Bool
  /-- The rate and burst of `bucket`. -/
  bucketRate : UInt32
  drainStartUsec : UInt64
  drainedBytes : UInt32
  prevDrainedBytes : UInt32
  ewmaDrainRate : UInt32
  ewmaRateLastSent : UInt32
  totalBytesXmit : UInt32
  numXoffRecv : UInt8
  numXonRecv : UInt8
  xoffSent : Bool
  xoffReceived : Bool
  deriving DecidableEq

/-- `edge_get_ccontrol` is not `NULL`; also `edge_uses_flow_control`. -/
def EdgeStream.usesFlowControl (s : EdgeStream) : Bool :=
  s.circuitCcontrol || (s.cpathLayer.map StreamHop.ccontrol).getD false

/-- A client or an onion service. -/
def EdgeStream.localEdge (s : EdgeStream) : Bool := s.isAp || s.hsIdent

/-! ## Cells -/

inductive FlowCell
  | xoff (payload : List UInt8)
  | xon (payload : List UInt8)
  deriving DecidableEq

/-- `xoff_cell_encode`, for version 0. -/
def xoffCellEncode : List UInt8 := [0]

/-- `xon_cell_encode`, for version 0. -/
def xonCellEncode (kbpsEwma : UInt32) : List UInt8 := 0 :: be32 kbpsEwma

/-- `xon_cell_parse`: the rate. -/
def xonCellParse (input : List UInt8) : Option UInt32 := do
  let (version, input) ← takeBytes 1 input
  if version.val ≠ [0] then none
  let (kbpsEwma, _) ← takeBytes 4 input
  return getUint32 kbpsEwma.val

/-! ## Receiving -/

/-- Halve the counts of what was sent and received. -/
def scaleDown (conn : EdgeStream) : EdgeStream :=
  { conn with
    totalBytesXmit := conn.totalBytesXmit / 2
    numXoffRecv := conn.numXoffRecv / 2
    numXonRecv := conn.numXonRecv / 2 }

/-- Near the maximum, scale everything down. -/
def scaleDownIf (nearMax : Bool) (conn : EdgeStream) : EdgeStream :=
  if nearMax then scaleDown conn else conn

def circuitProcessStreamXoff (p : FlowParams) (layerHint : Option StreamHop) (conn : EdgeStream) :
    Bool × EdgeStream :=
  if layerHint.isSome ∧ layerHint ≠ conn.cpathLayer then (false, conn)
  else if conn.usesFlowControl = false then (false, conn)
  else if conn.xoffReceived then (false, conn)
  else
    let scaled := scaleDownIf (conn.numXoffRecv = xoffCountScaleAt) conn
    let counted := { scaled with numXoffRecv := scaled.numXoffRecv + 1 }
    let limit := if conn.hsIdent then p.xoffClient else p.xoffExit
    (!(conn.localEdge && counted.totalBytesXmit < limit * counted.numXoffRecv.toUInt32),
      { counted with reading := false, xoffReceived := true })

/-- The rate in bytes of an XON. -/
def xonRate (kbpsEwma : UInt32) : UInt32 :=
  let rate := kbpsEwma.toUInt64 * 1000
  if rate = 0 ∨ int32MaxWord.toUInt64 < rate then int32MaxWord else rate.toUInt32

def circuitProcessStreamXon (p : FlowParams) (layerHint : Option StreamHop) (payload : List UInt8)
    (conn : EdgeStream) : Bool × EdgeStream :=
  if layerHint.isSome ∧ layerHint ≠ conn.cpathLayer then (false, conn)
  else if conn.usesFlowControl = false then (false, conn)
  else match xonCellParse payload with
    | none => (false, conn)
    | some kbpsEwma =>
      let scaled := scaleDownIf (conn.numXonRecv = xonCountScaleAt) conn
      let counted := { scaled with numXonRecv := scaled.numXonRecv + 1 }
      let limit := min (if conn.hsIdent then p.xoffClient else p.xoffExit) p.xonRateBytes
      (!(conn.localEdge && counted.totalBytesXmit < limit * counted.numXonRecv.toUInt32),
        { counted with
          bucketRate := xonRate kbpsEwma
          reading := counted.reading || counted.xoffReceived
          xoffReceived := false })

def flowControlNoteSentData (len : UInt64) (stream : EdgeStream) : EdgeStream :=
  let scaled := scaleDownIf (stream.totalBytesXmit.toUInt64 ≥ totalXmitScaleAt - len) stream
  { scaled with totalBytesXmit := (scaled.totalBytesXmit.toUInt64 + len).toUInt32 }

/-! ## Sending -/

/-- The monotonic clock, as one call reads it. -/
structure Monotime where
  usec : UInt64
  reliable : Bool
  deriving DecidableEq

def circuitSendStreamXoff (stream : EdgeStream) : EdgeStream × List FlowCell :=
  ({ stream with xoffSent := true }, [.xoff xoffCellEncode])

def circuitSendStreamXon (stream : EdgeStream) : EdgeStream × List FlowCell :=
  ({ stream with ewmaRateLastSent := stream.ewmaDrainRate, xoffSent := false },
    [.xon (xonCellEncode stream.ewmaDrainRate)])

def computeDrainRate (clock : Monotime) (stream : EdgeStream) : UInt32 :=
  if clock.reliable = false then 0
  else
    let delta := clock.usec - stream.drainStartUsec
    if delta = 0 then 0
    else if stream.prevDrainedBytes > int32MaxWord / 1000
        ∨ stream.prevDrainedBytes.toUInt64 / delta > int32MaxWord.toUInt64 / 1000 then int32MaxWord
    else (max 1 ((stream.prevDrainedBytes * 1000).toUInt64 / delta)).toUInt32

def streamDrainRateChanged (p : FlowParams) (clock : Monotime) (stream : EdgeStream) : Bool :=
  if clock.reliable = false then false
  else if stream.ewmaRateLastSent = 0 then false
  else
    let ewma := stream.ewmaDrainRate.toUInt64
    let lastSent := stream.ewmaRateLastSent.toUInt64
    let pct := p.xonChangePct.toUInt64
    if ewma > (100 + pct) * lastSent / 100 then true
    else if ewma < (100 - pct) * lastSent / 100 then true
    else false

/-- The bytes drained are halved before they wrap, and the start moved halfway to now. -/
def halveDrained (clock : Monotime) (nWritten : UInt64) (stream : EdgeStream) : EdgeStream :=
  if stream.drainedBytes.toUInt64 ≥ uint32Max - nWritten then
    { stream with
      drainedBytes := stream.drainedBytes / 2
      drainStartUsec :=
        if stream.drainStartUsec ≠ 0 then clock.usec - (clock.usec - stream.drainStartUsec) / 2
        else stream.drainStartUsec }
  else stream

/-- The bytes drained since the last rate, with `n_written` more. -/
def boundDrained (clock : Monotime) (nWritten : UInt64) (stream : EdgeStream) : EdgeStream :=
  let scaled := halveDrained clock nWritten stream
  { scaled with drainedBytes := (scaled.drainedBytes.toUInt64 + nWritten).toUInt32 }

/-- Forget the start with a bad clock; start the buffering counter otherwise. -/
def startDrain (clock : Monotime) (stream : EdgeStream) : EdgeStream :=
  if clock.reliable = false then { stream with drainStartUsec := 0, drainedBytes := 0 }
  else if stream.drainStartUsec = 0 ∧ stream.outbufLen > 0 then
    { stream with drainStartUsec := clock.usec, drainedBytes := 0 }
  else stream

/-- The first rate is computed from what was just drained. -/
def basePrevDrained (stream : EdgeStream) : EdgeStream :=
  { stream with
    prevDrainedBytes :=
      if stream.prevDrainedBytes = 0 then stream.drainedBytes else stream.prevDrainedBytes }

/-- The new drain rate, after enough time in a queued state. -/
def updateDrainRate (p : FlowParams) (clock : Monotime) (stream : EdgeStream) : EdgeStream :=
  if stream.drainStartUsec ≠ 0 ∧ stream.drainedBytes > p.xonRateBytes then
    let drainRate := computeDrainRate clock (basePrevDrained stream)
    let noted := { stream with prevDrainedBytes := stream.drainedBytes }
    if drainRate ≠ 0 then
      { noted with
        ewmaDrainRate := (nCountEwma drainRate.toUInt64 noted.ewmaDrainRate.toUInt64
          p.xonEwmaCnt.toUInt64).toUInt32
        drainedBytes := 0
        drainStartUsec := 0 }
    else noted
  else stream

/-- The XON for a rate that changed, or for an outbuf that is empty again. -/
def sendXon (p : FlowParams) (clock : Monotime) (stream : EdgeStream) :
    EdgeStream × List FlowCell :=
  if stream.xoffSent = false then
    if streamDrainRateChanged p clock stream then circuitSendStreamXon stream else (stream, [])
  else if stream.outbufLen = 0 then circuitSendStreamXon stream
  else (stream, [])

/-- Clear the start of an outbuf that is empty, and double a rate that was sent. -/
def clearDrain (p : FlowParams) (stream : EdgeStream) : EdgeStream :=
  if stream.outbufLen = 0 then
    let cleared := { stream with drainStartUsec := 0 }
    if cleared.drainedBytes ≥ p.xonRateBytes ∧ cleared.ewmaRateLastSent ≠ 0 then
      { cleared with
        ewmaDrainRate := min int32MaxWord (2 * cleared.ewmaDrainRate)
        prevDrainedBytes := cleared.drainedBytes
        drainedBytes := 0 }
    else cleared
  else stream

def flowControlDecideXon (p : FlowParams) (clock : Monotime) (nWritten : UInt64)
    (stream : EdgeStream) : EdgeStream × List FlowCell :=
  let drained := updateDrainRate p clock (startDrain clock (boundDrained clock nWritten stream))
  let (sent, cells) := sendXon p clock drained
  (clearDrain p sent, cells)

/-- The XOFF of `flow_control_decide_xoff`. -/
def sendXoff (p : FlowParams) (stream : EdgeStream) : EdgeStream × List FlowCell :=
  let bufferLimitXoff := if stream.localEdge then p.xoffClient else p.xoffExit
  if stream.outbufLen > bufferLimitXoff.toNat ∧ stream.xoffSent = false then
    let (sent, cells) := circuitSendStreamXoff stream
    ({ sent with ewmaDrainRate := 0 }, cells)
  else (stream, [])

def flowControlDecideXoff (p : FlowParams) (clock : Monotime) (stream : EdgeStream) :
    Int × EdgeStream × List FlowCell :=
  if stream.usesFlowControl = false then (-1, stream, [])
  else
    let (sent, cells) := sendXoff p stream
    if stream.outbufLen > maxExpectedCellBurst * relayPayloadSize then
      let (decided, more) := flowControlDecideXon p clock 0 sent
      (0, decided, cells ++ more)
    else (0, sent, cells)

/-! ## A stream with its peer -/

/-- The client's end of a stream, the other end, the data cells on their way to
the other end (by length), and the flow control cells on their way back. -/
structure FlowNet where
  client : EdgeStream
  peer : EdgeStream
  data : List UInt64
  cells : List FlowCell
  deriving DecidableEq

inductive FlowEvent
  /-- The client packages data. -/
  | package (len : UInt64)
  /-- The oldest data cell reaches the peer's outbuf. -/
  | deliver (clock : Monotime)
  /-- The peer writes some of its outbuf to its socket. -/
  | flush (clock : Monotime) (nWritten : UInt64)
  /-- The oldest flow control cell reaches the client. -/
  | receive
  deriving DecidableEq

/-- The client's `circuit_process_stream_xoff` or `circuit_process_stream_xon`. -/
def processFlowCell (p : FlowParams) (client : EdgeStream) : FlowCell → Bool × EdgeStream
  | .xoff _ => circuitProcessStreamXoff p client.cpathLayer client
  | .xon payload => circuitProcessStreamXon p client.cpathLayer payload client

def flowStep (p : FlowParams) (n : FlowNet) : FlowEvent → Option FlowNet
  | .package len =>
    if 0 < len.toNat ∧ len.toNat ≤ relayPayloadSize then
      some { n with client := flowControlNoteSentData len n.client, data := n.data ++ [len] }
    else none
  | .deliver clock =>
    match n.data with
    | [] => none
    | len :: rest =>
      let (_, decided, cells) := flowControlDecideXoff p clock n.peer
      some { n with
        peer := { decided with outbufLen := decided.outbufLen + len.toNat }
        data := rest
        cells := n.cells ++ cells }
  | .flush clock nWritten =>
    if nWritten.toNat ≤ n.peer.outbufLen then
      let (decided, cells) := flowControlDecideXon p clock nWritten
        { n.peer with outbufLen := n.peer.outbufLen - nWritten.toNat }
      some { n with peer := decided, cells := n.cells ++ cells }
    else none
  | .receive =>
    match n.cells with
    | [] => none
    | cell :: rest =>
      some { n with client := (processFlowCell p n.client cell).2, cells := rest }

/-- A step of the stream. -/
def FlowStep (p : FlowParams) (n : FlowNet) (e : FlowEvent) (n' : FlowNet) : Prop :=
  flowStep p n e = some n'

/-- The counters of a stream that was just made. -/
def EdgeStream.Unused (s : EdgeStream) : Prop :=
  s.outbufLen = 0 ∧ s.drainStartUsec = 0 ∧ s.drainedBytes = 0 ∧ s.prevDrainedBytes = 0
    ∧ s.ewmaDrainRate = 0 ∧ s.ewmaRateLastSent = 0 ∧ s.totalBytesXmit = 0
    ∧ s.numXoffRecv = 0 ∧ s.numXonRecv = 0 ∧ s.xoffSent = false ∧ s.xoffReceived = false

instance (s : EdgeStream) : Decidable s.Unused := instDecidableAnd

/-- A stream with congestion control that was just opened: at the client's end
it is a client's or an onion service's, and the other end is one of these
exactly when the stream is to or of an onion service. -/
def FlowNet.Fresh (n : FlowNet) : Prop :=
  n.client.Unused ∧ n.peer.Unused ∧ n.data = [] ∧ n.cells = []
    ∧ n.client.usesFlowControl = true ∧ n.peer.usesFlowControl = true
    ∧ n.client.localEdge = true ∧ n.client.hsIdent = n.peer.localEdge

instance (n : FlowNet) : Decidable n.Fresh := instDecidableAnd

end RendezMix.Source
