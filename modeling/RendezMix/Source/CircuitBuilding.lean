import RendezMix.Source.Onion

/-!
# Building circuits

How a client builds circuits through relays: `core/or/circuitbuild.c` from
`circuit_send_next_onion_skin` to `circuit_finish_handshake`, the handlers of
create and created cells in `core/or/command.c`, the reply of a cpuworker in
`core/mainloop/cpuworker.c`, and `circuit_extend` and `onionskin_answer` of
`feature/relay/circuitbuild_relay.c`.

All handshakes are ntor or ntor-v3, in CREATE2 and EXTEND2 cells. The bytes of a
handshake, whether the client accepts a reply, the padding, the channel's choice
of a circuit id, the options at that moment and the memory around a cell are
given with each event. Cells arrive in any order. A circuit that is closed is
marked and stays, so its id is not used again on its channel.
-/
namespace RendezMix.Source
open Library.ByteStrings

/-! ## Parties, channels and cells -/

inductive Party
  | client
  | relay (identity : Bytes digestLen)
  deriving DecidableEq

/-- A circuit id on the channel between two parties. The party that chose the id is
known from the id, as the two halves of the id space are shared out. -/
structure CircLink where
  opener : Party
  peer : Bytes digestLen
  circId : UInt32
  deriving DecidableEq

/-- What a cell holds. A relay cell away from the client is encrypted for the relay
that is `layers` hops after the one it goes to. -/
inductive CellBody
  | create (command : UInt8) (payload : CellPayload)
  | created (command : UInt8) (payload : CellPayload)
  | relayOut (layers : Nat) (command : UInt8) (payload : RelayPayload)
  | relayIn (command : UInt8) (payload : RelayPayload)

structure LinkCell where
  link : CircLink
  body : CellBody

/-! ## The state of the parties -/

/-- The options `DelayMode`, `DelayParam1`, `DelayParam2` and `DelayMax`; a `double` is
its eight bytes. -/
structure DelayOptions where
  delayMode : Int
  delayParam1 : Bytes 8
  delayParam2 : Bytes 8
  delayMax : Bytes 8

/-- `get_delay_policy`, into a `delay_policy_t` that is all zeros. -/
def getDelayPolicy (options : DelayOptions) : RawPolicy :=
  fit delayPolicySize ([UInt8.ofInt options.delayMode] ++ List.replicate 7 0 ++
    options.delayParam1.val ++ options.delayParam2.val ++ options.delayMax.val)

structure ClientOptions where
  onion : OnionOptions
  delay : DelayOptions
  serverMode : Bool
  congestionControlEnabled : Bool

/-- `extend_info_t` of a relay with an ntor key. -/
structure ExtendInfo where
  identityDigest : Bytes digestLen
  edIdentity : Bytes 32
  orport4 : Option (UInt32 × UInt16)
  orport6 : Option (Bytes 16 × UInt16)
  exitSupportsCongestionControl : Bool

inductive CpathState
  | closed
  | awaitingKeys
  | open
  deriving DecidableEq

/-- `crypt_path_t`, with what `get_delay_policy` gave when the cell for this hop was
sent, if it was called then. -/
structure CryptPath where
  extendInfo : ExtendInfo
  state : CpathState
  readPolicy : Option RawPolicy

inductive CircuitState
  | chanWait
  | building
  | open
  deriving DecidableEq

structure OriginCircuit where
  nLink : Option CircLink
  cpath : List CryptPath
  state : CircuitState
  markedForClose : Bool

/-- `or_circuit_t`, with the create cell that a cpuworker gets. -/
structure OrCircuit where
  pLink : CircLink
  nLink : Option CircLink
  onionskinPending : Bool
  nChanCreateCell : Option (Bytes digestLen × CreateCell)
  createCell : CreateCell
  delayPolicyIsSet : Bool
  delayPolicy : RawPolicy
  markedForClose : Bool

structure Network where
  origins : List OriginCircuit
  relays : List OrCircuit
  inFlight : List LinkCell

def Network.initial : Network := ⟨[], [], []⟩

/-- `circuit_id_in_use_on_channel`, for an id that the opener of the link would choose. -/
def Network.inUse (net : Network) (link : CircLink) : Bool :=
  net.origins.any (fun circ => circ.nLink = some link) ||
    net.relays.any (fun circ => circ.nLink = some link)

/-- How a relay reaches the next hop of a circuit, if `circuit_extend` does not refuse. -/
inductive ExtendChannel
  | refused
  | connected
  | launching
  deriving DecidableEq

/-- What an event brings with it from outside the model. -/
structure Choice where
  options : ClientOptions
  disableDelays : Bool
  circId : UInt32
  keyMaterial : List UInt8
  accepts : Bool
  padding : List UInt8
  channel : ExtendChannel
  before : Bytes 16
  memory : List UInt8

/-! ## Sending create cells -/

/-- `circuit_deliver_create_cell`; the id 0 stands for none that is free. -/
def circuitDeliverCreateCell (inUse : CircLink → Bool) (opener : Party) (peer : Bytes digestLen)
    (circId : UInt32) (createCell : CreateCell) (relayed : Bool) :
    Result (CircLink × LinkCell) := do
  let link : CircLink := ⟨opener, peer, circId⟩
  if circId = 0 ∨ inUse link = true then .error .rejected
  let (command, payload) ← createCellFormatImpl createCell relayed
  return (link, ⟨link, .create command payload⟩)

/-- `circuit_pick_create_handshake`, for a relay with an ntor key. -/
def circuitPickCreateHandshake (options : ClientOptions) (ei : ExtendInfo) : UInt16 :=
  if ei.exitSupportsCongestionControl ∧ options.congestionControlEnabled then
    onionHandshakeTypeNtorV3
  else onionHandshakeTypeNtor

/-- The length of `congestion_control_build_ext_request`: the number of extensions, and
if there is one, its type and its length 0. -/
def ccExtRequestLen (options : ClientOptions) : Nat :=
  if options.congestionControlEnabled then 3 else 1

/-- `onion_skin_create`: the length of the onionskin is known, its bytes are given. -/
def onionSkinCreate (options : ClientOptions) (handshakeType : UInt16) (ei : ExtendInfo)
    (keyMaterial : List UInt8) : Result (List UInt8) :=
  if handshakeType = onionHandshakeTypeNtor then
    .ok (fit ntorOnionskinLen keyMaterial).val
  else if ei.exitSupportsCongestionControl = false ∨ ei.edIdentity = fit 32 [] then
    .error .rejected
  else .ok (fit (32 + 32 * 2 + 32 + ccExtRequestLen options) keyMaterial).val

/-- The `create_cell_t` that a client fills for a CREATE2 handshake. -/
def clientCreateCell (handshakeType : UInt16) (skin : List UInt8) : CreateCell where
  cellType := cellCreate2
  handshakeType := handshakeType
  handshakeLen := UInt16.ofNat skin.length
  onionskin := fit onionskinSize skin
  delayPolicyIsSet := false
  delayPolicy := fit delayPolicySize []

def circuitSendFirstOnionSkin (inUse : CircLink → Bool) (choice : Choice) (circ : OriginCircuit)
    (hop : CryptPath) : Result (OriginCircuit × List LinkCell) := do
  let handshakeType := circuitPickCreateHandshake choice.options hop.extendInfo
  let skin ← onionSkinCreate choice.options handshakeType hop.extendInfo choice.keyMaterial
  let (link, cell) ← circuitDeliverCreateCell inUse .client hop.extendInfo.identityDigest
    choice.circId (clientCreateCell handshakeType skin) false
  return ({ circ with
      nLink := some link
      state := .building
      cpath := circ.cpath.set 0 { hop with state := .awaitingKeys } }, [cell])

/-- The extend cell that `circuit_send_intermediate_onion_skin` fills. -/
def clientExtendCell (options : ClientOptions) (ei : ExtendInfo) (handshakeType : UInt16)
    (skin : List UInt8) : ExtendCell where
  cellType := relayCommandExtend2
  orportIpv4 :=
    match ei.orport4 with
    | some (addr, port) => ⟨.inet addr, port⟩
    | none => ⟨.unspec, 0⟩
  orportIpv6 :=
    match ei.orport6, options.serverMode with
    | some (addr, port), true => ⟨.inet6 addr, port⟩
    | _, _ => ⟨.unspec, 0⟩
  nodeId := ei.identityDigest
  edPubkey := ei.edIdentity
  createCell := clientCreateCell handshakeType skin

/-- `circuit_send_intermediate_onion_skin`, for the hop with index `i`. The cell goes to
the hop before it. -/
def circuitSendIntermediateOnionSkin (choice : Choice) (circ : OriginCircuit) (link : CircLink)
    (i : Nat) (hop : CryptPath) (secondHop : Bool) :
    Result (OriginCircuit × List LinkCell) := do
  let ei := hop.extendInfo
  let handshakeType := circuitPickCreateHandshake choice.options ei
  if ei.orport4.isNone ∧ (ei.orport6.isNone ∨ choice.options.serverMode = false) then
    .error .rejected
  let skin ← onionSkinCreate choice.options handshakeType ei choice.keyMaterial
  let readPolicy := if secondHop then some (getDelayPolicy choice.options.delay) else none
  let (command, payload) ← extendCellFormat choice.options.onion
    (clientExtendCell choice.options ei handshakeType skin)
    (readPolicy.getD (fit delayPolicySize []))
  return ({ circ with
      cpath := circ.cpath.set i
        { hop with state := .awaitingKeys, readPolicy := readPolicy } },
    [⟨link, .relayOut (i - 1) command (RelayPayload.packed payload choice.padding)⟩])

def cpathGetNextNonOpenHop (cpath : List CryptPath) : Option Nat :=
  cpath.findIdx? (fun hop => hop.state ≠ .open)

/-- `circuit_send_next_onion_skin`. The path is a ring, so that the hop after the only
one is that one again. -/
def circuitSendNextOnionSkin (inUse : CircLink → Bool) (choice : Choice) (circ : OriginCircuit) :
    Result (OriginCircuit × List LinkCell) :=
  match circ.cpath with
  | [] => .error .assertion
  | first :: rest =>
    if first.state = .closed then circuitSendFirstOnionSkin inUse choice circ first
    else if first.state ≠ .open ∨ circ.state ≠ .building then .error .assertion
    else
      match cpathGetNextNonOpenHop circ.cpath with
      | none => .ok ({ circ with state := .open }, [])
      | some i =>
        match circ.cpath[i]?, circ.nLink with
        | some hop, some link =>
          circuitSendIntermediateOnionSkin choice circ link i hop
            ((rest.headD first).state = .closed)
        | _, _ => .error .assertion

/-- Send the next onionskin, or close the circuit. -/
def OriginCircuit.sendNext (inUse : CircLink → Bool) (choice : Choice) (circ : OriginCircuit) :
    OriginCircuit × List LinkCell :=
  match circuitSendNextOnionSkin inUse choice circ with
  | .error _ => ({ circ with markedForClose := true }, [])
  | .ok sent => sent

/-! ## Answers at the client -/

/-- `circuit_finish_handshake`. A first hop that awaits its keys is the next hop that is
not open, too. -/
def circuitFinishHandshake (choice : Choice) (circ : OriginCircuit) (reply : CreatedCell) :
    Result OriginCircuit :=
  match cpathGetNextNonOpenHop circ.cpath with
  | none => .error .rejected
  | some i =>
    match circ.cpath[i]? with
    | none => .error .assertion
    | some hop => do
      torAssert (hop.state = .awaitingKeys)
      if choice.accepts = false then .error .rejected
      if i = 1 ∧ choice.options.onion.enforceDelayPolicy = true ∧
          reply.delayPolicyIsSet = false then .error .rejected
      return { circ with cpath := circ.cpath.set i { hop with state := .open } }

/-- What the client does with a parsed answer. -/
def OriginCircuit.answered (inUse : CircLink → Bool) (choice : Choice) (circ : OriginCircuit)
    (reply : Result CreatedCell) : OriginCircuit × List LinkCell :=
  match reply.bind (circuitFinishHandshake choice circ) with
  | .error _ => ({ circ with markedForClose := true }, [])
  | .ok circ => circ.sendNext inUse choice

/-- A relay cell reaches the client; the commands for extended cells are handled here. -/
def OriginCircuit.relayIn (inUse : CircLink → Bool) (choice : Choice) (circ : OriginCircuit)
    (command : UInt8) (payload : RelayPayload) : OriginCircuit × List LinkCell :=
  if command = relayCommandExtended ∨ command = relayCommandExtended2 then
    circ.answered inUse choice ((extendedCellParse command payload).map ExtendedCell.createdCell)
  else (circ, [])

/-! ## Relays -/

/-- `command_process_create_cell`, for a circuit id that is not in use. -/
def commandProcessCreateCell (choice : Choice) (link : CircLink) (command : UInt8)
    (payload : CellPayload) : OrCircuit :=
  match createCellParse command payload choice.memory with
  | .error _ =>
    ⟨link, none, true, none, zeroCreateCell, false, fit delayPolicySize [], true⟩
  | .ok createCell =>
    { pLink := link
      nLink := none
      onionskinPending := true
      nChanCreateCell := none
      createCell := createCell
      delayPolicyIsSet := !choice.disableDelays && createCell.delayPolicyIsSet
      delayPolicy :=
        if !choice.disableDelays && createCell.delayPolicyIsSet then createCell.delayPolicy
        else fit delayPolicySize []
      markedForClose := false }

/-- `cpuworker_onion_handshake_threadfn`: the created cell with the reply of
`onion_skin_server_handshake`, which is given. -/
def cpuworkerCreatedCell (circ : OrCircuit) (reply : List UInt8) : CreatedCell where
  cellType :=
    if circ.createCell.cellType = cellCreate then cellCreated
    else if circ.createCell.cellType = cellCreate2 then cellCreated2
    else cellCreatedFast
  handshakeLen := UInt16.ofNat (reply.take replySize).length
  reply := fit replySize reply
  delayPolicyIsSet := circ.delayPolicyIsSet

/-- `cpuworker_onion_handshake_replyfn`, for a handshake that succeeded, with
`onionskin_answer`. -/
def OrCircuit.cpuworkerReply (circ : OrCircuit) (reply : List UInt8) :
    OrCircuit × List LinkCell :=
  match createdCellFormat (cpuworkerCreatedCell circ reply) with
  | .error _ => ({ circ with markedForClose := true }, [])
  | .ok (command, payload) =>
    ({ circ with onionskinPending := false }, [⟨circ.pLink, .created command payload⟩])

/-- Deliver the create cell of a circuit to its next hop, or close the circuit. -/
def OrCircuit.deliverCreateCell (inUse : CircLink → Bool) (choice : Choice) (circ : OrCircuit)
    (peer : Bytes digestLen) (createCell : CreateCell) : OrCircuit × List LinkCell :=
  match circuitDeliverCreateCell inUse (.relay circ.pLink.peer) peer choice.circId createCell
    true with
  | .error _ => ({ circ with markedForClose := true }, [])
  | .ok (link, cell) => ({ circ with nLink := some link, nChanCreateCell := none }, [cell])

/-- `circuit_extend`. -/
def OrCircuit.extend (inUse : CircLink → Bool) (choice : Choice) (circ : OrCircuit)
    (command : UInt8) (payload : RelayPayload) : OrCircuit × List LinkCell :=
  if circ.nLink.isSome ∨ circ.nChanCreateCell.isSome then
    ({ circ with markedForClose := true }, [])
  else
    match extendCellParse choice.before command (payload.bytes.val.take payload.length.toNat) with
    | .error _ => ({ circ with markedForClose := true }, [])
    | .ok ec =>
      match choice.channel with
      | .refused => ({ circ with markedForClose := true }, [])
      | .launching => ({ circ with nChanCreateCell := some (ec.nodeId, ec.createCell) }, [])
      | .connected => circ.deliverCreateCell inUse choice ec.nodeId ec.createCell

/-- `command_process_relay_cell` for a relay cell away from the client: it is passed on,
or it is for this relay. -/
def OrCircuit.relayOut (inUse : CircLink → Bool) (choice : Choice) (circ : OrCircuit)
    (layers : Nat) (command : UInt8) (payload : RelayPayload) : OrCircuit × List LinkCell :=
  if circ.onionskinPending then ({ circ with markedForClose := true }, [])
  else
    match layers, circ.nLink with
    | 0, _ =>
      if command = relayCommandExtend ∨ command = relayCommandExtend2 then
        circ.extend inUse choice command payload
      else (circ, [])
    | layers + 1, some link => (circ, [⟨link, .relayOut layers command payload⟩])
    | _ + 1, none => ({ circ with markedForClose := true }, [])

/-- `command_process_created_cell` at a relay: the answer goes into an extended cell. -/
def OrCircuit.created (choice : Choice) (circ : OrCircuit) (command : UInt8)
    (payload : CellPayload) : OrCircuit × List LinkCell :=
  match (createdCellParse command payload).bind
      (fun created => extendedCellFormat (extendedCellOfCreated created)) with
  | .error _ => ({ circ with markedForClose := true }, [])
  | .ok (command, payload) =>
    (circ, [⟨circ.pLink, .relayIn command (RelayPayload.packed payload choice.padding)⟩])

/-- A relay cell towards the client is passed on. -/
def OrCircuit.relayIn (circ : OrCircuit) (command : UInt8) (payload : RelayPayload) :
    OrCircuit × List LinkCell :=
  if circ.onionskinPending then ({ circ with markedForClose := true }, [])
  else (circ, [⟨circ.pLink, .relayIn command payload⟩])

/-! ## Events -/

inductive NetEvent
  | establish (path : List ExtendInfo)
  | firstHopReady (c : Nat) (choice : Choice)
  | appendHop (c : Nat) (info : ExtendInfo) (choice : Choice)
  | closeOrigin (c : Nat)
  | cpuworkerDone (r : Nat) (reply : List UInt8)
  | nChanDone (r : Nat) (choice : Choice)
  | closeRelay (r : Nat)
  | deliver (m : Nat) (choice : Choice)

/-- The hop that `onion_append_hop` adds. -/
def CryptPath.new (info : ExtendInfo) : CryptPath := ⟨info, .closed, none⟩

/-- Let a client circuit act, unless it is closed. -/
def Network.withOrigin (net : Network) (c : Nat)
    (act : OriginCircuit → OriginCircuit × List LinkCell) : Network :=
  match net.origins[c]? with
  | none => net
  | some circ =>
    if circ.markedForClose then net
    else
      { net with
        origins := net.origins.set c (act circ).1
        inFlight := net.inFlight ++ (act circ).2 }

/-- Let a circuit of a relay act, unless it is closed. -/
def Network.withRelay (net : Network) (r : Nat)
    (act : OrCircuit → OrCircuit × List LinkCell) : Network :=
  match net.relays[r]? with
  | none => net
  | some circ =>
    if circ.markedForClose then net
    else
      { net with
        relays := net.relays.set r (act circ).1
        inFlight := net.inFlight ++ (act circ).2 }

/-- `circuit_get_by_circid_channel`, for cells that come from the opener of the link. -/
def Network.relayAt (net : Network) (link : CircLink) : Nat :=
  net.relays.findIdx (fun circ => circ.pLink = link)

/-- `circuit_get_by_circid_channel`, for cells that go to the opener of the link. -/
def Network.originOpening (net : Network) (link : CircLink) : Nat :=
  net.origins.findIdx (fun circ => circ.nLink = some link)

def Network.relayOpening (net : Network) (link : CircLink) : Nat :=
  net.relays.findIdx (fun circ => circ.nLink = some link)

/-- A cell arrives. -/
def Network.arrive (net : Network) (choice : Choice) (link : CircLink) : CellBody → Network
  | .create command payload =>
    if net.relays.any (fun circ => circ.pLink = link) then net
    else { net with
      relays := net.relays ++ [commandProcessCreateCell choice link command payload] }
  | .created command payload =>
    if link.opener = .client then
      net.withOrigin (net.originOpening link)
        (fun circ => circ.answered net.inUse choice (createdCellParse command payload))
    else
      net.withRelay (net.relayOpening link) (fun circ => circ.created choice command payload)
  | .relayOut layers command payload =>
    net.withRelay (net.relayAt link)
      (fun circ => circ.relayOut net.inUse choice layers command payload)
  | .relayIn command payload =>
    if link.opener = .client then
      net.withOrigin (net.originOpening link)
        (fun circ => circ.relayIn net.inUse choice command payload)
    else
      net.withRelay (net.relayOpening link) (fun circ => circ.relayIn command payload)

def Network.step (net : Network) : NetEvent → Network
  | .establish path =>
    { net with origins := net.origins ++ [⟨none, path.map CryptPath.new, .chanWait, false⟩] }
  | .firstHopReady c choice =>
    net.withOrigin c (fun circ =>
      if circ.state = .chanWait then circ.sendNext net.inUse choice else (circ, []))
  | .appendHop c info choice =>
    net.withOrigin c (fun circ =>
      let longer := { circ with cpath := circ.cpath ++ [CryptPath.new info] }
      if circ.state = .open then
        OriginCircuit.sendNext net.inUse choice { longer with state := .building }
      else (longer, []))
  | .closeOrigin c => net.withOrigin c (fun circ => ({ circ with markedForClose := true }, []))
  | .cpuworkerDone r reply =>
    net.withRelay r (fun circ =>
      if circ.onionskinPending then circ.cpuworkerReply reply else (circ, []))
  | .nChanDone r choice =>
    net.withRelay r (fun circ =>
      match circ.nChanCreateCell with
      | some (peer, createCell) => circ.deliverCreateCell net.inUse choice peer createCell
      | none => (circ, []))
  | .closeRelay r => net.withRelay r (fun circ => ({ circ with markedForClose := true }, []))
  | .deliver m choice =>
    match net.inFlight[m]? with
    | none => net
    | some cell =>
      Network.arrive { net with inFlight := net.inFlight.eraseIdx m } choice cell.link cell.body

def Network.run (net : Network) (events : List NetEvent) : Network :=
  events.foldl Network.step net

end RendezMix.Source
