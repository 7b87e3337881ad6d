import RendezMix.Library.Runs
import RendezMix.Source.HalfEdges

/-!
# A stream between two ends

A stream of an origin circuit and the end that it leads to, with the cells in flight between
them, which arrive in order. Both ends do what the stream parts of `core/or/sendme.c` and the
handling of cells in `core/or/connection_edge.c` do with the windows of the stream; congestion
control has no windows for streams. A call that closes the circuit is `none`.
-/
namespace RendezMix.Source
open Library.Runs

/-- `sendme_note_stream_data_packaged` -/
def streamDataPackaged (usesFlowControl : Bool) (conn : EdgeConnection) : EdgeConnection :=
  if usesFlowControl then conn else { conn with packageWindow := conn.packageWindow - 1 }

/-- `sendme_stream_data_received`; below zero the circuit is closed. -/
def streamDataReceived (usesFlowControl : Bool) (conn : EdgeConnection) : Option EdgeConnection :=
  if usesFlowControl then some conn
  else if conn.deliverWindow - 1 < 0 then none
  else some { conn with deliverWindow := conn.deliverWindow - 1 }

/-- `sendme_process_stream_level` -/
def streamSendmeReceived (usesFlowControl : Bool) (conn : EdgeConnection) : Option EdgeConnection :=
  if usesFlowControl then none
  else if conn.packageWindow + streamwindowIncrement > streamwindowStartMax then none
  else some { conn with packageWindow := conn.packageWindow + streamwindowIncrement }

/-- The loop of `sendme_connection_edge_consider_sending`, with the SENDMEs it sends. -/
def streamConsiderLoop : Nat → EdgeConnection → EdgeConnection × List HalfCommand
  | 0, conn => (conn, [])
  | fuel + 1, conn =>
    if conn.deliverWindow ≤ streamwindowStart - streamwindowIncrement then
      let rest := streamConsiderLoop fuel
        { conn with deliverWindow := conn.deliverWindow + streamwindowIncrement }
      (rest.1, .sendme :: rest.2)
    else (conn, [])

/-- `sendme_connection_edge_consider_sending`, where the outbuf has room. -/
def streamConsiderSending (usesFlowControl : Bool) (conn : EdgeConnection) :
    EdgeConnection × List HalfCommand :=
  if usesFlowControl then (conn, [])
  else streamConsiderLoop (streamwindowStart - conn.deliverWindow).toNat conn

structure StreamNet where
  usesFlowControl : Bool
  state : EdgeState
  /-- The windows of the stream of the origin circuit. -/
  conn : EdgeConnection
  peer : EdgeConnection
  /-- The peer has sent CONNECTED, or is a client, which sends none. -/
  peerConnected : Bool
  peerEnded : Bool
  toPeer : List HalfCommand
  toConn : List HalfCommand

/-- The stream has sent its BEGIN or RESOLVE, or has just got a BEGIN. -/
def newStreamNet (usesFlowControl : Bool) (state : EdgeState) : StreamNet where
  usesFlowControl := usesFlowControl
  state := state
  conn := ⟨streamwindowStart, streamwindowStart⟩
  peer := ⟨streamwindowStart, streamwindowStart⟩
  peerConnected := state = .exitConnecting ∨ state = .exitOpen
  peerEnded := false
  toPeer := []
  toConn := []

inductive StreamEvent
  /-- A DATA cell is packaged; before the stream is connected it is optimistic. -/
  | connPackages
  | connReceives
  | connConsidersSending
  /-- The service has reached its local port. -/
  | connConnects
  | peerConnects
  | peerPackages
  | peerReceives
  | peerConsidersSending
  /-- The peer sends XOFF or XON. -/
  | peerFlow (command : HalfCommand)
  | peerEnds (command : HalfCommand)
  deriving DecidableEq

/-- The stream may package cells. -/
def mayPackage (usesFlowControl : Bool) (conn : EdgeConnection) : Bool :=
  usesFlowControl || decide (conn.packageWindow > 0)

/-- A cell for the stream that is open. -/
def connReceives (net : StreamNet) (command : HalfCommand) : Option StreamNet :=
  match command with
  | .connected => if net.state = .apConnectWait then some { net with state := .apOpen } else none
  | .data =>
    if net.state = .apOpen ∨ net.state = .exitConnecting ∨ net.state = .exitOpen then
      (streamDataReceived net.usesFlowControl net.conn).map fun conn => { net with conn := conn }
    else none
  | .sendme =>
    if net.state = .apOpen ∨ net.state = .exitOpen then
      (streamSendmeReceived net.usesFlowControl net.conn).map fun conn => { net with conn := conn }
    else none
  | .xoff | .xon => if net.usesFlowControl then some net else none
  -- the stream is over, without being closed here
  | .end_ | .resolved => none

/-- A cell for the peer; after its END it drops them. -/
def peerReceives (net : StreamNet) (command : HalfCommand) : Option StreamNet :=
  if net.peerEnded then some net
  else
    match command with
    | .data => (streamDataReceived net.usesFlowControl net.peer).map fun peer => { net with peer := peer }
    | .sendme =>
      (streamSendmeReceived net.usesFlowControl net.peer).map fun peer => { net with peer := peer }
    | _ => some net

/-- What two honest ends may do next. -/
def streamNetStep (net : StreamNet) : StreamEvent → Option StreamNet
  | .connPackages =>
    if net.state ≠ .apResolveWait ∧ net.state ≠ .exitConnecting
        ∧ mayPackage net.usesFlowControl net.conn = true then
      some { net with
        conn := streamDataPackaged net.usesFlowControl net.conn
        toPeer := net.toPeer ++ [.data] }
    else none
  | .connReceives =>
    match net.toConn with
    | [] => none
    | command :: rest => connReceives { net with toConn := rest } command
  | .connConsidersSending =>
    if net.state = .apOpen ∨ net.state = .exitOpen then
      let considered := streamConsiderSending net.usesFlowControl net.conn
      some { net with conn := considered.1, toPeer := net.toPeer ++ considered.2 }
    else none
  | .connConnects =>
    if net.state = .exitConnecting then
      some { net with state := .exitOpen, toPeer := net.toPeer ++ [.connected] }
    else none
  | .peerConnects =>
    if net.state ≠ .apResolveWait ∧ net.peerConnected = false ∧ net.peerEnded = false then
      some { net with peerConnected := true, toConn := net.toConn ++ [.connected] }
    else none
  | .peerPackages =>
    if net.peerConnected = true ∧ net.peerEnded = false
        ∧ mayPackage net.usesFlowControl net.peer = true then
      some { net with
        peer := streamDataPackaged net.usesFlowControl net.peer
        toConn := net.toConn ++ [.data] }
    else none
  | .peerReceives =>
    match net.toPeer with
    | [] => none
    | command :: rest => peerReceives { net with toPeer := rest } command
  | .peerConsidersSending =>
    if net.peerConnected = true ∧ net.peerEnded = false then
      let considered := streamConsiderSending net.usesFlowControl net.peer
      some { net with peer := considered.1, toConn := net.toConn ++ considered.2 }
    else none
  | .peerFlow command =>
    if net.peerConnected = true ∧ net.peerEnded = false ∧ net.usesFlowControl = true
        ∧ (command = .xoff ∨ command = .xon) then
      some { net with toConn := net.toConn ++ [command] }
    else none
  | .peerEnds command =>
    if net.peerEnded = false
        ∧ (command = .end_ ∨ command = .resolved ∧ net.state = .apResolveWait) then
      some { net with peerEnded := true, toConn := net.toConn ++ [command] }
    else none

def StreamNetStep (net : StreamNet) (ev : StreamEvent) (net' : StreamNet) : Prop :=
  streamNetStep net ev = some net'

/-- The stream as it is closed. -/
def StreamNet.closing (net : StreamNet) (streamId : UInt16) (hsIdent : Bool) (maxRtt : UInt64) :
    ClosingEdge where
  streamId := streamId
  state := net.state
  packageWindow := net.conn.packageWindow
  deliverWindow := net.conn.deliverWindow
  usesFlowControl := net.usesFlowControl
  hsIdent := hsIdent
  maxRtt := maxRtt

end RendezMix.Source
