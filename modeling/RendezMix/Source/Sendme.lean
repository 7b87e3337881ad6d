import RendezMix.Library.ByteStrings
import RendezMix.Source.CongestionControl

/-!
# SENDME cells and windows at one end of a hop

`sendme.c`, with its callers in `relay.c` and the trunnel codec
`sendme_cell.c`. `HopEnd` is what one end keeps of the hop that carries data:
the client keeps it in the `crypt_path_t` that is the layer hint, the relay in
the `circuit_t` itself, and each function below uses the one or the other in
the same way. The digests of `sendme_last_digests` are in the circuit at both.
Sending a relay cell does not fail here: if it did, the circuit would be closed.
-/
namespace RendezMix.Source
open Library.ByteStrings

def circwindowStart : Int := 1000
def circwindowStartMin : Int := 100
def circwindowStartMax : Int := 1000
def circwindowIncrement : Int := 100
def streamwindowStart : Int := 500
def streamwindowStartMax : Int := 500
def streamwindowIncrement : Int := 50

/-- `networkstatus_get_param`, for the value the consensus has, if any. -/
def networkstatusGetParam (value : Option Int) (defaultVal minVal maxVal : Int) : Int :=
  let res := value.getD defaultVal
  if res < minVal then minVal else if res > maxVal then maxVal else res

theorem networkstatusGetParam_range (value : Option Int) (defaultVal : Int) {minVal maxVal : Int}
    (ordered : minVal ≤ maxVal) :
    minVal ≤ networkstatusGetParam value defaultVal minVal maxVal
      ∧ networkstatusGetParam value defaultVal minVal maxVal ≤ maxVal := by
  simp only [networkstatusGetParam]
  split
  · exact ⟨le_refl _, ordered⟩
  · split
    · exact ⟨ordered, le_refl _⟩
    · omega

def circuitInitialPackageWindow (circwindow : Option Int) : Int :=
  let num := networkstatusGetParam circwindow circwindowStart circwindowStartMin circwindowStartMax
  if num < 0 then circwindowStart else num

theorem circuitInitialPackageWindow_range (circwindow : Option Int) :
    circwindowStartMin ≤ circuitInitialPackageWindow circwindow
      ∧ circuitInitialPackageWindow circwindow ≤ circwindowStart := by
  have range := networkstatusGetParam_range circwindow circwindowStart
    (show circwindowStartMin ≤ circwindowStartMax by decide)
  have low : 0 ≤ circwindowStartMin := by decide
  rw [circuitInitialPackageWindow]
  rw [if_neg (by omega)]
  exact range

/-! ## The cell -/

/-- `sendme_cell_t`: the union, by its version. -/
inductive SendmeCell
  | v0
  | v1 (digest : Bytes 20)
  deriving DecidableEq

def SendmeCell.version : SendmeCell → Int
  | .v0 => 0
  | .v1 _ => 1

/-- `sendme_cell_parse`. Input after the cell is ignored. -/
def sendmeCellParse (input : List UInt8) : Option SendmeCell := do
  let (version, input) ← takeBytes 1 input
  let (dataLen, input) ← takeBytes 2 input
  let (data, _) ← takeBytes (getUint16 dataLen.val).toNat input
  if version.val = [0] then return .v0
  else if version.val = [1] then
    if fits : data.val.length = 20 then return .v1 ⟨data.val, fits⟩ else none
  else none

def buildCellPayloadV1 (digest : Bytes 20) : List UInt8 := 1 :: (be16 20 ++ digest.val)

/-! ## One end of a hop -/

/-- The relay commands that matter here. -/
inductive HopCommand
  | data
  | sendme
  /-- A command whose handling leaves the windows alone. -/
  | other
  deriving DecidableEq

/-- A relay cell that one end of the hop sends to the other. -/
structure HopCell where
  command : HopCommand
  streamId : UInt16
  payload : List UInt8
  deriving DecidableEq

/-- The running digest of the relay cells of one direction: adding a cell, and
reading the digest off. -/
structure RunningDigest (H : Type) where
  add : H → HopCell → H
  get : H → Bytes 20

structure EdgeConnection where
  packageWindow : Int
  deliverWindow : Int
  deriving DecidableEq

structure HopEnd (H : Type) where
  packageWindow : Int
  deliverWindow : Int
  ccontrol : Option CongestionControl
  sendmeLastDigests : List (Bytes 20)
  /-- `sendme_digest` of the crypto state. -/
  sendmeDigest : Bytes 20
  /-- The running digest of the cells this end sends. -/
  sendDigest : H
  /-- The running digest of the cells this end receives. -/
  receiveDigest : H
  /-- The open streams. -/
  streams : UInt16 → Option EdgeConnection

/-- What the consensus says about SENDME versions. -/
structure SendmeConsensus where
  emitMinVersion : Option Int
  acceptMinVersion : Option Int
  deriving DecidableEq

def getEmitMinVersion (consensus : SendmeConsensus) : Int :=
  networkstatusGetParam consensus.emitMinVersion 1 0 255

def getAcceptMinVersion (consensus : SendmeConsensus) : Int :=
  networkstatusGetParam consensus.acceptMinVersion 0 0 255

variable {H : Type} (rd : RunningDigest H)

/-- Set the windows of a stream. -/
def HopEnd.setStream (e : HopEnd H) (streamId : UInt16) (conn : EdgeConnection) : HopEnd H :=
  { e with streams := Function.update e.streams streamId (some conn) }

def sendmeGetIncCount (e : HopEnd H) : Int :=
  match e.ccontrol with
  | some cc => cc.sendmeInc.toNat
  | none => circwindowIncrement

def int32Limit : UInt64 := 2147483647

def congestionControlGetPackageWindow (e : HopEnd H) : Int :=
  match e.ccontrol with
  | none => e.packageWindow
  | some cc =>
    if cc.inflight > cc.cwnd then 0
    else if cc.cwnd - cc.inflight > int32Limit then int32Limit.toNat
    else (cc.cwnd - cc.inflight).toNat

/-! ## Digests -/

def circuitSentCellForSendme (e : HopEnd H) : Bool :=
  match e.ccontrol with
  | some cc =>
    if cc.inflight = 0 then false
    else if (cc.inflight + 1) % cc.sendmeInc.toUInt64 ≠ 0 then false
    else true
  | none =>
    if e.packageWindow = circwindowStart then false
    else if (e.packageWindow - 1).tmod circwindowIncrement ≠ 0 then false
    else true

def circuitSendmeCellIsNext (deliverWindow sendmeInc : Int) : Except SendmeError Bool :=
  if deliverWindow ≤ circwindowStart then
    .ok ((circwindowStart - (deliverWindow - 1)).tmod sendmeInc = 0)
  else .error .assertFailed

def sendmeRecordSendingCellDigest (e : HopEnd H) : HopEnd H :=
  if circuitSentCellForSendme e then { e with sendmeDigest := rd.get e.sendDigest } else e

def sendmeRecordCellDigestOnCirc (e : HopEnd H) : HopEnd H :=
  if circuitSentCellForSendme e then
    { e with sendmeLastDigests := e.sendmeLastDigests ++ [e.sendmeDigest] }
  else e

def sendmeRecordReceivedCellDigest (e : HopEnd H) : Except SendmeError (HopEnd H) :=
  match circuitSendmeCellIsNext e.deliverWindow (sendmeGetIncCount e) with
  | .error err => .error err
  | .ok true => .ok { e with sendmeDigest := rd.get e.receiveDigest }
  | .ok false => .ok e

/-- `relay_send_command_from_edge`: the cell enters the running digest when it
is packaged, and a DATA cell may then be recorded on the circuit. -/
def relaySendCommandFromEdge (cell : HopCell) (e : HopEnd H) : HopEnd H :=
  let e := { e with sendDigest := rd.add e.sendDigest cell }
  let e := sendmeRecordSendingCellDigest rd e
  if cell.command = .data then sendmeRecordCellDigestOnCirc e else e

/-! ## Sending SENDMEs -/

def sendCircuitLevelSendme (consensus : SendmeConsensus) (cellDigest : Bytes 20) (e : HopEnd H) :
    HopEnd H × HopCell :=
  let payload := if getEmitMinVersion consensus = 1 then buildCellPayloadV1 cellDigest else []
  let cell : HopCell := ⟨.sendme, 0, payload⟩
  (relaySendCommandFromEdge rd cell e, cell)

/-- The loop of `sendme_circuit_consider_sending`. -/
def circuitConsiderSendingLoop (consensus : SendmeConsensus) :
    Nat → HopEnd H → HopEnd H × List HopCell
  | 0, e => (e, [])
  | fuel + 1, e =>
    if e.deliverWindow ≤ circwindowStart - sendmeGetIncCount e then
      let e := { e with deliverWindow := e.deliverWindow + sendmeGetIncCount e }
      let sent := sendCircuitLevelSendme rd consensus e.sendmeDigest e
      let rest := circuitConsiderSendingLoop consensus fuel sent.1
      (rest.1, sent.2 :: rest.2)
    else (e, [])

/-- `sendme_circuit_consider_sending`. The window grows with each pass, so there
are not more passes than it is below its start. -/
def sendmeCircuitConsiderSending (consensus : SendmeConsensus) (e : HopEnd H) :
    HopEnd H × List HopCell :=
  circuitConsiderSendingLoop rd consensus (circwindowStart - e.deliverWindow).toNat e

/-- The loop of `sendme_connection_edge_consider_sending`. -/
def edgeConsiderSendingLoop (streamId : UInt16) :
    Nat → EdgeConnection → HopEnd H → HopEnd H × List HopCell
  | 0, _, e => (e, [])
  | fuel + 1, conn, e =>
    if conn.deliverWindow ≤ streamwindowStart - streamwindowIncrement then
      let conn := { conn with deliverWindow := conn.deliverWindow + streamwindowIncrement }
      let cell : HopCell := ⟨.sendme, streamId, []⟩
      let e := relaySendCommandFromEdge rd cell (e.setStream streamId conn)
      let rest := edgeConsiderSendingLoop streamId fuel conn e
      (rest.1, cell :: rest.2)
    else (e, [])

/-- `sendme_connection_edge_consider_sending`. An edge uses flow control if its
hop has a congestion control object. -/
def sendmeConnectionEdgeConsiderSending (streamId : UInt16) (outbufTooFull : Bool) (e : HopEnd H) :
    HopEnd H × List HopCell :=
  match e.streams streamId with
  | none => (e, [])
  | some conn =>
    if e.ccontrol.isSome ∨ outbufTooFull = true then (e, [])
    else edgeConsiderSendingLoop rd streamId (streamwindowStart - conn.deliverWindow).toNat conn e

/-! ## Receiving SENDMEs -/

def sendmeMaxSupportedVersion : Int := 1

def cellVersionCanBeHandled (consensus : SendmeConsensus) (cellVersion : Int) : Bool :=
  if getAcceptMinVersion consensus > sendmeMaxSupportedVersion then false
  else if cellVersion < getAcceptMinVersion consensus then false
  else if cellVersion > sendmeMaxSupportedVersion then false
  else true

/-- `sendme_is_valid`, with the digests it leaves. -/
def sendmeIsValid (consensus : SendmeConsensus) (sendmeLastDigests : List (Bytes 20))
    (cellPayload : List UInt8) : Bool × List (Bytes 20) :=
  match (if cellPayload = [] then some SendmeCell.v0 else sendmeCellParse cellPayload) with
  | none => (false, sendmeLastDigests)
  | some cell =>
    if !cellVersionCanBeHandled consensus cell.version then (false, sendmeLastDigests)
    else
      -- `pop_first_cell_digest`, whatever the version is
      match sendmeLastDigests with
      | [] => (false, [])
      | circDigest :: rest =>
        match cell with
        | .v0 => (true, rest)
        | .v1 cellDigest => (circDigest = cellDigest, rest)

def sendmeProcessCircuitLevelImpl (e : HopEnd H) : Except SendmeError (HopEnd H) :=
  if e.packageWindow + circwindowIncrement > circwindowStartMax then .error .unexpectedSendme
  else .ok { e with packageWindow := e.packageWindow + circwindowIncrement }

def sendmeProcessCircuitLevel (consensus : SendmeConsensus) (env : CcEnv)
    (cellPayload : List UInt8) (e : HopEnd H) : Except SendmeError (HopEnd H) :=
  match sendmeIsValid consensus e.sendmeLastDigests cellPayload with
  | (false, _) => .error .invalidSendme
  | (true, digests) =>
    let e := { e with sendmeLastDigests := digests }
    match e.ccontrol with
    | none => sendmeProcessCircuitLevelImpl e
    | some cc => (congestionControlDispatchCcAlg env cc).map fun cc => { e with ccontrol := some cc }

def sendmeProcessStreamLevel (streamId : UInt16) (conn : EdgeConnection) (e : HopEnd H) :
    Except SendmeError (HopEnd H) :=
  if e.ccontrol.isSome then .error .congestionControlStreamSendme
  else if conn.packageWindow + streamwindowIncrement > streamwindowStartMax then
    .error .unexpectedStreamSendme
  else
    .ok (e.setStream streamId
      { conn with packageWindow := conn.packageWindow + streamwindowIncrement })

/-- `process_sendme_cell`, without the reading it resumes on the streams. -/
def processSendmeCell (consensus : SendmeConsensus) (env : CcEnv) (cell : HopCell) (e : HopEnd H) :
    Except SendmeError (HopEnd H) :=
  if cell.streamId = 0 then sendmeProcessCircuitLevel consensus env cell.payload e
  else
    match e.streams cell.streamId with
    | none => .ok e
    | some conn => sendmeProcessStreamLevel cell.streamId conn e

/-! ## DATA cells -/

def sendmeCircuitDataReceived (e : HopEnd H) : HopEnd H × Int :=
  ({ e with deliverWindow := e.deliverWindow - 1 }, e.deliverWindow - 1)

/-- `sendme_stream_data_received`. `flow_control_decide_xoff` returns 0; the XOFF
it may send is a cell of another command. -/
def sendmeStreamDataReceived (streamId : UInt16) (conn : EdgeConnection) (e : HopEnd H) :
    HopEnd H × Int :=
  if e.ccontrol.isSome then (e, 0)
  else
    (e.setStream streamId { conn with deliverWindow := conn.deliverWindow - 1 },
      conn.deliverWindow - 1)

/-- What the handling of a received cell depends on beside the cell. -/
structure Reading where
  consensus : SendmeConsensus
  /-- The stream of a DATA cell is still connecting. -/
  optimisticData : Bool
  outbufTooFull : Bool
  env : CcEnv
  deriving DecidableEq

/-- The part of `RELAY_COMMAND_DATA` for the stream, if there is one, after the
circuit has sent `sent`. -/
def handleStreamData (reading : Reading) (cell : HopCell) (sent : List HopCell) (e : HopEnd H) :
    Except SendmeError (HopEnd H × List HopCell) :=
  if cell.streamId = 0 then .ok (e, sent)
  else
    match e.streams cell.streamId with
    | none => .ok (e, sent)
    | some conn =>
      let received := sendmeStreamDataReceived cell.streamId conn e
      if received.2 < 0 then .error .connDeliverWindowBelowZero
      else if reading.optimisticData then .ok (received.1, sent)
      else
        let considered :=
          sendmeConnectionEdgeConsiderSending rd cell.streamId reading.outbufTooFull received.1
        .ok (considered.1, sent ++ considered.2)

/-- The branch `RELAY_COMMAND_DATA` of `handle_relay_cell_command`. -/
def handleRelayData (reading : Reading) (cell : HopCell) (e : HopEnd H) :
    Except SendmeError (HopEnd H × List HopCell) :=
  let received := sendmeCircuitDataReceived e
  if received.2 < 0 then .error .circDeliverWindowBelowZero
  else
    let considered := sendmeCircuitConsiderSending rd reading.consensus received.1
    handleStreamData rd reading cell considered.2 considered.1

/-- `circuit_receive_relay_cell`, for a recognized cell, up to
`handle_relay_cell_command`. -/
def circuitReceiveRelayCell (reading : Reading) (cell : HopCell) (e : HopEnd H) :
    Except SendmeError (HopEnd H × List HopCell) :=
  let e := { e with receiveDigest := rd.add e.receiveDigest cell }
  match sendmeRecordReceivedCellDigest rd e with
  | .error err => .error err
  | .ok e =>
    match cell.command with
    | .data => handleRelayData rd reading cell e
    | .sendme => (processSendmeCell reading.consensus reading.env cell e).map fun e => (e, [])
    | .other => .ok (e, [])

/-- What one DATA cell takes from the inbuf, and when. -/
structure InbufCell where
  payload : List UInt8
  nowUsec : UInt64
  deriving DecidableEq

def congestionControlNoteCellSent (e : HopEnd H) (cc : CongestionControl) (nowUsec : UInt64) :
    CongestionControl :=
  if !circuitSentCellForSendme e then { cc with inflight := cc.inflight + 1 }
  else
    { cc with
      inflight := cc.inflight + 1
      sendmePendingTimestamps := cc.sendmePendingTimestamps ++ [nowUsec] }

def sendmeNoteCircuitDataPackaged (nowUsec : UInt64) (e : HopEnd H) : HopEnd H × Int :=
  let e := match e.ccontrol with
    | some cc => { e with ccontrol := some (congestionControlNoteCellSent e cc nowUsec) }
    | none => { e with packageWindow := e.packageWindow - 1 }
  (e, congestionControlGetPackageWindow e)

def sendmeNoteStreamDataPackaged (streamId : UInt16) (conn : EdgeConnection) (xoffReceived : Bool)
    (e : HopEnd H) : HopEnd H × Int :=
  if e.ccontrol.isSome then (e, if xoffReceived then -1 else 1)
  else
    (e.setStream streamId { conn with packageWindow := conn.packageWindow - 1 },
      conn.packageWindow - 1)

/-- `connection_edge_package_raw_inbuf`, for what the inbuf holds and for
`max_cells`. -/
def connectionEdgePackageRawInbuf (streamId : UInt16) (xoffReceived : Bool) :
    List InbufCell → Option Int → HopEnd H → Except SendmeError (HopEnd H × List HopCell)
  | [], _, e => .ok (e, [])
  | next :: inbuf, maxCells, e =>
    if maxCells.any (· ≤ 0) then .ok (e, [])
    -- `circuit_consider_stop_edge_reading`
    else if congestionControlGetPackageWindow e ≤ 0 then .ok (e, [])
    else
      match e.streams streamId with
      | none => .ok (e, [])
      | some conn =>
        if conn.packageWindow ≤ 0 then .ok (e, [])
        else
          let cell : HopCell := ⟨.data, streamId, next.payload⟩
          let noted := sendmeNoteCircuitDataPackaged next.nowUsec
            (relaySendCommandFromEdge rd cell e)
          if noted.2 < 0 then .error .circPackageWindowBelowZero
          else
            let noted := sendmeNoteStreamDataPackaged streamId conn xoffReceived noted.1
            if noted.2 < 0 then .ok (noted.1, [cell])
            else
              (connectionEdgePackageRawInbuf streamId xoffReceived inbuf (maxCells.map (· - 1))
                noted.1).map fun rest => (rest.1, cell :: rest.2)

/-! ## The calls at one end -/

inductive HopEvent
  /-- A stream packages what it has read. After a SENDME the code calls this for
  the streams it resumes. -/
  | package (streamId : UInt16) (xoffReceived : Bool) (inbuf : List InbufCell)
    (maxCells : Option Int)
  | receive (cell : HopCell) (reading : Reading)
  /-- `connection_edge_flushed_some` and `connection_edge_finished_flushing`. -/
  | flushed (streamId : UInt16) (outbufTooFull : Bool)
  /-- A relay cell of another command is sent. -/
  | send (streamId : UInt16) (payload : List UInt8)

/-- A call, with the cells that it sends. -/
def hopStep (e : HopEnd H) : HopEvent → Except SendmeError (HopEnd H × List HopCell)
  | .package streamId xoffReceived inbuf maxCells =>
    connectionEdgePackageRawInbuf rd streamId xoffReceived inbuf maxCells e
  | .receive cell reading => circuitReceiveRelayCell rd reading cell e
  | .flushed streamId outbufTooFull =>
    .ok (sendmeConnectionEdgeConsiderSending rd streamId outbufTooFull e)
  | .send streamId payload =>
    let cell : HopCell := ⟨.other, streamId, payload⟩
    .ok (relaySendCommandFromEdge rd cell e, [cell])

/-- An end as `init_circuit_base` or `cpath_append_hop` leaves it, with its open
streams. -/
def newHopEnd (circwindow : Option Int) (ccontrol : Option CongestionControl) (digest : Bytes 20)
    (send receive : H) (openStreams : UInt16 → Bool) : HopEnd H :=
  { packageWindow := circuitInitialPackageWindow circwindow
    deliverWindow := circwindowStart
    ccontrol := ccontrol
    sendmeLastDigests := []
    sendmeDigest := digest
    sendDigest := send
    receiveDigest := receive
    streams := fun streamId =>
      if openStreams streamId then some ⟨streamwindowStart, streamwindowStart⟩ else none }

end RendezMix.Source
