import RendezMix.Source.Sendme
import RendezMix.Source.Smartlist

/-!
# Half-closed streams

The half edges of `core/or/connection_edge.c`: what a client remembers of a stream that it has
closed and the other end may still think is open, and the checks of the cells that arrive for
it, as `handle_relay_cell_command` of `core/or/relay.c` makes them. A failed assertion is
`none`.
-/
namespace RendezMix.Source

/-! ## Streams and half edges -/

/-- The states of an edge connection that is on an origin circuit. -/
inductive EdgeState
  | apConnectWait
  | apResolveWait
  | apOpen
  | exitConnecting
  | exitOpen
  deriving DecidableEq

/-- `edge_connection_t`, as it is closed. -/
structure ClosingEdge where
  streamId : UInt16
  state : EdgeState
  packageWindow : Int
  deliverWindow : Int
  /-- `edge_uses_flow_control` -/
  usesFlowControl : Bool
  hsIdent : Bool
  /-- `edge_get_max_rtt` -/
  maxRtt : UInt64
  deriving DecidableEq

structure HalfEdge where
  streamId : UInt16
  sendmesPending : Int
  dataPending : Int
  endAckExpectedUsec : UInt64
  usedCcontrol : Bool
  connectedPending : Bool
  deriving DecidableEq

/-- `circ->half_streams`, which may be `NULL`. -/
abbrev HalfStreams := Option (List HalfEdge)

/-- What a call reads of the clock, and the timeout for building circuits. -/
structure HalfClock where
  nowUsec : UInt64
  buildTimeoutUsec : UInt64

def connectionHalfEdgeCompareBsearch (key : UInt16) (member : HalfEdge) : Ordering :=
  compare key.toNat member.streamId.toNat

/-- `connection_half_edge_find_stream_id`, with the place of the half edge, to which the callers
write. -/
def connectionHalfEdgeFindStreamId (halfConns : HalfStreams) (streamId : UInt16) :
    Option (Option (Nat × HalfEdge)) :=
  match halfConns with
  | none => some none
  | some halfConns =>
    (smartlistBsearchIdx (connectionHalfEdgeCompareBsearch streamId) halfConns).map
      fun (idx, found) => if found then halfConns[idx]?.map fun half => (idx, half) else none

/-- What is noted of a stream that is closed. -/
def newHalfEdge (clock : HalfClock) (conn : ClosingEdge) : HalfEdge :=
  let connectedPending := conn.state = .apConnectWait
  if conn.usesFlowControl then
    let timeoutUsec := clock.buildTimeoutUsec
    let timeoutUsec := if conn.hsIdent then timeoutUsec * 2 else timeoutUsec
    { streamId := conn.streamId
      sendmesPending := 0
      dataPending := 0
      endAckExpectedUsec := max timeoutUsec conn.maxRtt + clock.nowUsec
      usedCcontrol := true
      connectedPending := connectedPending }
  else
    { streamId := conn.streamId
      sendmesPending := (streamwindowStart - conn.packageWindow).tdiv streamwindowIncrement
      dataPending := if conn.state ≠ .apResolveWait then conn.deliverWindow else 0
      endAckExpectedUsec := 0
      usedCcontrol := false
      connectedPending := connectedPending }

def connectionHalfEdgeAdd (clock : HalfClock) (conn : ClosingEdge) (halfStreams : HalfStreams) :
    Option HalfStreams := do
  let found ← connectionHalfEdgeFindStreamId halfStreams conn.streamId
  if found.isSome then return halfStreams
  let list := halfStreams.getD []
  let halfConn := newHalfEdge clock conn
  let (insertAt, _) ← smartlistBsearchIdx (connectionHalfEdgeCompareBsearch halfConn.streamId) list
  return some (list.insertIdx insertAt halfConn)

/-! ## The checks -/

/-- A check looks up the half edge and may write to it. -/
def checkHalfEdge (halfConns : HalfStreams) (streamId : UInt16) (check : HalfEdge → HalfEdge × Bool) :
    Option (HalfStreams × Bool) := do
  match ← connectionHalfEdgeFindStreamId halfConns streamId with
  | none => return (halfConns, false)
  | some (idx, half) =>
    let (half, valid) := check half
    return (halfConns.map fun list => list.set idx half, valid)

def isValidData (nowUsec : UInt64) (half : HalfEdge) : HalfEdge × Bool :=
  if half.usedCcontrol then (half, !decide (nowUsec > half.endAckExpectedUsec))
  else if half.dataPending > 0 then ({ half with dataPending := half.dataPending - 1 }, true)
  else (half, false)

def connectionHalfEdgeIsValidData (nowUsec : UInt64) (halfConns : HalfStreams) (streamId : UInt16) :
    Option (HalfStreams × Bool) :=
  checkHalfEdge halfConns streamId (isValidData nowUsec)

def isValidConnected (half : HalfEdge) : HalfEdge × Bool :=
  if half.connectedPending then ({ half with connectedPending := false }, true) else (half, false)

def connectionHalfEdgeIsValidConnected (halfConns : HalfStreams) (streamId : UInt16) :
    Option (HalfStreams × Bool) :=
  checkHalfEdge halfConns streamId isValidConnected

def isValidSendme (half : HalfEdge) : HalfEdge × Bool :=
  if half.usedCcontrol then (half, false)
  else if half.sendmesPending > 0 then
    ({ half with sendmesPending := half.sendmesPending - 1 }, true)
  else (half, false)

def connectionHalfEdgeIsValidSendme (halfConns : HalfStreams) (streamId : UInt16) :
    Option (HalfStreams × Bool) :=
  checkHalfEdge halfConns streamId isValidSendme

def connectionHalfEdgeIsValidEnd (halfConns : HalfStreams) (streamId : UInt16) :
    Option (HalfStreams × Bool) :=
  match halfConns with
  | none => some (none, false)
  | some list => do
    let (removeIdx, found) ←
      smartlistBsearchIdx (connectionHalfEdgeCompareBsearch streamId) list
    if !found then return (some list, false)
    return (some (list.eraseIdx removeIdx), true)

def connectionHalfEdgeIsValidResolved (halfConns : HalfStreams) (streamId : UInt16) :
    Option (HalfStreams × Bool) :=
  connectionHalfEdgeIsValidEnd halfConns streamId

/-! ## Cells that arrive -/

/-- The relay commands for which a half edge is looked up. -/
inductive HalfCommand
  | data
  | sendme
  | connected
  | xoff
  | xon
  | end_
  | resolved
  deriving DecidableEq

/-- A relay cell for which no stream is open. -/
structure HalfCell where
  command : HalfCommand
  streamId : UInt16
  /-- `relay_crypt_from_last_hop` -/
  fromLastHop : Bool
  deriving DecidableEq

/-- The branches of `handle_relay_cell_command` and `process_sendme_cell` for an origin circuit
and no connection: the half edges after the cell, and whether it counts as valid. -/
def handleHalfCell (nowUsec : UInt64) (halfStreams : HalfStreams) (cell : HalfCell) :
    Option (HalfStreams × Bool) :=
  match cell.command with
  | .data =>
    if cell.streamId = 0 then some (halfStreams, false)
    else connectionHalfEdgeIsValidData nowUsec halfStreams cell.streamId
  | .sendme =>
    -- a cell for the circuit
    if cell.streamId = 0 then some (halfStreams, false)
    else connectionHalfEdgeIsValidSendme halfStreams cell.streamId
  | .connected => connectionHalfEdgeIsValidConnected halfStreams cell.streamId
  | .xoff | .xon =>
    if cell.fromLastHop then connectionHalfEdgeIsValidData nowUsec halfStreams cell.streamId
    else some (halfStreams, false)
  | .end_ =>
    if cell.fromLastHop then connectionHalfEdgeIsValidEnd halfStreams cell.streamId
    else some (halfStreams, false)
  | .resolved =>
    if cell.fromLastHop then connectionHalfEdgeIsValidResolved halfStreams cell.streamId
    else some (halfStreams, false)

/-- A stream is closed, or a cell arrives. -/
inductive HalfEvent
  | close (clock : HalfClock) (conn : ClosingEdge)
  | arrive (nowUsec : UInt64) (cell : HalfCell)

/-- One event, with whether a cell was accepted. -/
def halfStep (halfStreams : HalfStreams) : HalfEvent → Option (HalfStreams × Bool)
  | .close clock conn => (connectionHalfEdgeAdd clock conn halfStreams).map fun after => (after, false)
  | .arrive nowUsec cell => handleHalfCell nowUsec halfStreams cell

/-- The events one after the other. -/
def halfRun : HalfStreams → List HalfEvent → Option (HalfStreams × List Bool)
  | halfStreams, [] => some (halfStreams, [])
  | halfStreams, ev :: evs => do
    let (halfStreams, valid) ← halfStep halfStreams ev
    let (halfStreams, valids) ← halfRun halfStreams evs
    return (halfStreams, valid :: valids)

end RendezMix.Source
