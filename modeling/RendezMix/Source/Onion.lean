import RendezMix.Source.Address
import RendezMix.Source.Cells
import RendezMix.Source.Trunnel

/-!
# Create, created, extend and extended cells

`core/or/onion.c` from `check_create_cell` to `extended_cell_format`. A delay policy is the 32 bytes of its
`delay_policy_t`. A function that returns -1 is `rejected`; one whose
`tor_assert` fails is `assertion`. A comparison that may read past the end of
a buffer is given the memory around the buffer.
-/
namespace RendezMix.Source
open Library.ByteStrings

inductive Failure
  | rejected
  | assertion
  deriving DecidableEq, Repr

abbrev Result := Except Failure

theorem bind_eq_ok {α β : Type} (step : Result α) (next : α → Result β) (value : β) :
    (step >>= next) = .ok value ↔ ∃ x, step = .ok x ∧ next x = .ok value := by
  cases step with
  | error failure =>
    constructor
    · intro ok
      cases ok
    · rintro ⟨x, failed, _⟩
      cases failed
  | ok x =>
    constructor
    · intro ok
      exact ⟨x, rfl, ok⟩
    · rintro ⟨y, same, ok⟩
      cases same
      exact ok

/-! ## Create cells -/

def cellCreate : UInt8 := 1
def cellCreated : UInt8 := 2
def cellCreateFast : UInt8 := 5
def cellCreatedFast : UInt8 := 6
def cellCreate2 : UInt8 := 10
def cellCreated2 : UInt8 := 11

def relayCommandExtend : UInt8 := 6
def relayCommandExtended : UInt8 := 7
def relayCommandExtend2 : UInt8 := 14
def relayCommandExtended2 : UInt8 := 15

def onionHandshakeTypeTap : UInt16 := 0
def onionHandshakeTypeFast : UInt16 := 1
def onionHandshakeTypeNtor : UInt16 := 2
def onionHandshakeTypeNtorV3 : UInt16 := 3

def relayPayloadSize : Nat := 498
def digestLen : Nat := 20
def tapOnionskinChallengeLen : Nat := 186
def tapOnionskinReplyLen : Nat := 148
def ntorOnionskinLen : Nat := 84
def ntorReplyLen : Nat := 64
def createFastLen : Nat := 20
def createdFastLen : Nat := 40
def onionskinSize : Nat := 505
def replySize : Nat := 507
def delayPolicySize : Nat := 32

/-- `"ntorNTORntorNTOR"`. -/
def ntorCreateMagic : Bytes 16 :=
  ⟨[110, 116, 111, 114, 78, 84, 79, 82, 110, 116, 111, 114, 78, 84, 79, 82], rfl⟩

/-- `"DelayPolDelayPol"`. -/
def delayPolicyMagic : Bytes 16 :=
  ⟨[68, 101, 108, 97, 121, 80, 111, 108, 68, 101, 108, 97, 121, 80, 111, 108], rfl⟩

/-- `"DelayPolicyResOK"`. -/
def delayPolicyResponseMagic : Bytes 16 :=
  ⟨[68, 101, 108, 97, 121, 80, 111, 108, 105, 99, 121, 82, 101, 115, 79, 75], rfl⟩

abbrev RawPolicy := Bytes delayPolicySize

/-- The field `mode`. -/
def RawPolicy.mode (policy : RawPolicy) : UInt8 := policy.val.headD 0

structure CreateCell where
  cellType : UInt8
  handshakeType : UInt16
  handshakeLen : UInt16
  onionskin : Bytes onionskinSize
  delayPolicyIsSet : Bool
  delayPolicy : RawPolicy
  deriving DecidableEq

def CheckCreateCell (cell : CreateCell) (unknownOk : Bool) : Prop :=
  (if cell.cellType = cellCreate then
      cell.handshakeType = onionHandshakeTypeTap ∨ cell.handshakeType = onionHandshakeTypeNtor
    else if cell.cellType = cellCreateFast then cell.handshakeType = onionHandshakeTypeFast
    else cell.cellType = cellCreate2) ∧
  if cell.handshakeType = onionHandshakeTypeTap then
    cell.handshakeLen.toNat = tapOnionskinChallengeLen
  else if cell.handshakeType = onionHandshakeTypeFast then
    cell.handshakeLen.toNat = createFastLen
  else if cell.handshakeType = onionHandshakeTypeNtor then
    cell.handshakeLen.toNat = ntorOnionskinLen
  else cell.handshakeType = onionHandshakeTypeNtorV3 ∨ unknownOk = true

instance (cell : CreateCell) (unknownOk : Bool) : Decidable (CheckCreateCell cell unknownOk) :=
  inferInstanceAs (Decidable (_ ∧ _))

/-- `create_cell_init`; `memory` is what the pointer `onionskin` points to. -/
def createCellInit (cellType : UInt8) (handshakeType handshakeLen : UInt16)
    (memory : List UInt8) : CreateCell where
  cellType := cellType
  handshakeType := handshakeType
  handshakeLen := handshakeLen
  onionskin := fit onionskinSize (bytesAt memory 0 handshakeLen.toNat)
  delayPolicyIsSet := bytesAt memory handshakeLen.toNat 16 = delayPolicyMagic.val
  delayPolicy :=
    if bytesAt memory handshakeLen.toNat 16 = delayPolicyMagic.val then
      fit delayPolicySize (bytesAt memory (handshakeLen.toNat + 16) delayPolicySize)
    else fit delayPolicySize []

/-- `parse_create2_payload`; `memory` is what comes after the payload. -/
def parseCreate2Payload (p : CellPayload) (memory : List UInt8) : Result CreateCell :=
  let handshakeType := getUint16 (bytesAt p.val 0 2)
  let handshakeLen := getUint16 (bytesAt p.val 2 2)
  if handshakeLen.toNat > cellPayloadSize - 4 then .error .rejected
  else if handshakeType = onionHandshakeTypeFast then .error .rejected
  else .ok (createCellInit cellCreate2 handshakeType handshakeLen (p.val.drop 4 ++ memory))

def createCellParse (command : UInt8) (payload : CellPayload) (memory : List UInt8) :
    Result CreateCell := do
  let cell ←
    if command = cellCreate then
      if bytesAt payload.val 0 16 = ntorCreateMagic.val then
        .ok (createCellInit cellCreate onionHandshakeTypeNtor (UInt16.ofNat ntorOnionskinLen)
          (payload.val.drop 16 ++ memory))
      else
        .ok (createCellInit cellCreate onionHandshakeTypeTap
          (UInt16.ofNat tapOnionskinChallengeLen) (payload.val ++ memory))
    else if command = cellCreateFast then
      .ok (createCellInit cellCreateFast onionHandshakeTypeFast (UInt16.ofNat createFastLen)
        (payload.val ++ memory))
    else if command = cellCreate2 then parseCreate2Payload payload memory
    else .error .rejected
  if CheckCreateCell cell false then .ok cell else .error .rejected

def torAssert (condition : Prop) [Decidable condition] : Result Unit :=
  if condition then .ok () else .error .assertion

/-- The part of `create_cell_format_impl` that comes before the policy. -/
def createCellBody (cell : CreateCell) : Result (List UInt8) :=
  let onionskin := bytesAt cell.onionskin.val 0 cell.handshakeLen.toNat
  if cell.cellType = cellCreate ∨ cell.cellType = cellCreateFast then do
    if cell.cellType = cellCreate ∧ cell.handshakeType = onionHandshakeTypeNtorV3 then
      .error .rejected
    let magic :=
      if cell.cellType = cellCreate ∧ cell.handshakeType = onionHandshakeTypeNtor then
        ntorCreateMagic.val
      else []
    torAssert (cell.handshakeLen.toNat ≤ cellPayloadSize - magic.length)
    .ok (magic ++ onionskin)
  else if cell.cellType = cellCreate2 then do
    torAssert (cell.handshakeLen.toNat ≤ cellPayloadSize - 4)
    .ok (be16 cell.handshakeType ++ be16 cell.handshakeLen ++ onionskin)
  else .error .rejected

/-- `create_cell_format_impl`: the command and the payload of the cell. -/
def createCellFormatImpl (cell : CreateCell) (relayed : Bool) : Result (UInt8 × CellPayload) :=
  if ¬ CheckCreateCell cell relayed then .error .rejected
  else do
    let body ← createCellBody cell
    if cell.delayPolicyIsSet then
      torAssert (16 + delayPolicySize ≤ cellPayloadSize - body.length)
      .ok (cell.cellType,
        fit cellPayloadSize (body ++ delayPolicyMagic.val ++ cell.delayPolicy.val))
    else .ok (cell.cellType, fit cellPayloadSize body)

def createCellFormat (cell : CreateCell) : Result (UInt8 × CellPayload) :=
  createCellFormatImpl cell false

def createCellFormatRelayed (cell : CreateCell) : Result (UInt8 × CellPayload) :=
  createCellFormatImpl cell true

/-! ## Extend cells -/

structure ExtendCell where
  cellType : UInt8
  orportIpv4 : TorAddrPort
  orportIpv6 : TorAddrPort
  nodeId : Bytes digestLen
  edPubkey : Bytes 32
  createCell : CreateCell
  deriving DecidableEq

def CheckExtendCell (cell : ExtendCell) : Prop :=
  cell.nodeId ≠ fit digestLen [] ∧
  (torAddrPortIsValidAp cell.orportIpv4 = true ∨
    (cell.cellType = relayCommandExtend2 ∧ torAddrPortIsValidAp cell.orportIpv6 = true)) ∧
  (if cell.createCell.cellType = cellCreate then cell.cellType = relayCommandExtend
    else if cell.createCell.cellType = cellCreate2 then
      cell.cellType = relayCommandExtend2 ∨ cell.cellType = relayCommandExtend
    else False) ∧
  cell.createCell.handshakeType ≠ onionHandshakeTypeFast ∧
  CheckCreateCell cell.createCell true

instance (cell : ExtendCell) : Decidable (CheckExtendCell cell) :=
  inferInstanceAs (Decidable (_ ∧ _ ∧ _ ∧ _ ∧ _))

/-- `memset(cell_out, 0, sizeof(*cell_out))`, with unspecified addresses. -/
def zeroCreateCell : CreateCell := ⟨0, 0, 0, fit _ [], false, fit _ []⟩

def zeroExtendCell : ExtendCell :=
  ⟨0, ⟨.unspec, 0⟩, ⟨.unspec, 0⟩, fit _ [], fit _ [], zeroCreateCell⟩

def extendCellFromExtend1CellBody (cell : Extend1CellBody) : ExtendCell :=
  { zeroExtendCell with
    cellType := relayCommandExtend
    orportIpv4 := ⟨.inet cell.ipv4addr, cell.port⟩
    nodeId := cell.identity
    createCell :=
      if bytesAt cell.onionskin.val 0 16 = ntorCreateMagic.val then
        { zeroCreateCell with
          cellType := cellCreate2
          handshakeType := onionHandshakeTypeNtor
          handshakeLen := UInt16.ofNat ntorOnionskinLen
          onionskin := fit onionskinSize (bytesAt cell.onionskin.val 16 ntorOnionskinLen) }
      else
        { zeroCreateCell with
          cellType := cellCreate
          handshakeType := onionHandshakeTypeTap
          handshakeLen := UInt16.ofNat tapOnionskinChallengeLen
          onionskin := fit onionskinSize cell.onionskin.val } }

def createCellFromCreate2CellBody (cell : Create2CellBody) : Option CreateCell :=
  if cell.handshakeLen.toNat > onionskinSize then none
  else
    some { zeroCreateCell with
      cellType := cellCreate2
      handshakeType := cell.handshakeType
      handshakeLen := cell.handshakeLen
      onionskin := fit onionskinSize (bytesAt cell.handshakeData 0 cell.handshakeLen.toNat) }

/-- The cell and the `found_*` flags of `extend_cell_from_extend2_cell_body`. -/
structure FoundSpecs where
  cell : ExtendCell
  foundIpv4 : Bool
  foundIpv6 : Bool
  foundRsaId : Bool
  foundEdId : Bool

/-- The loop body of `extend_cell_from_extend2_cell_body`. -/
def FoundSpecs.note (found : FoundSpecs) (ls : LinkSpecifier) : Option FoundSpecs :=
  match ls with
  | .ipv4 addr port =>
    if found.foundIpv4 then some found
    else some { found with
      foundIpv4 := true
      cell := { found.cell with orportIpv4 := ⟨.inet addr, port⟩ } }
  | .ipv6 addr port =>
    if found.foundIpv6 then some found
    else some { found with
      foundIpv6 := true
      cell := { found.cell with orportIpv6 := ⟨.inet6 addr, port⟩ } }
  | .legacyId id =>
    if found.foundRsaId then none
    else some { found with foundRsaId := true, cell := { found.cell with nodeId := id } }
  | .ed25519Id id =>
    if found.foundEdId then none
    else some { found with foundEdId := true, cell := { found.cell with edPubkey := id } }
  | .unrecognized .. => some found

def extendCellFromExtend2CellBody (cell : Extend2CellBody) : Option ExtendCell := do
  let found ← cell.ls.foldlM FoundSpecs.note
    ⟨{ zeroExtendCell with cellType := relayCommandExtend2 }, false, false, false, false⟩
  if found.foundRsaId = false then none
  else if found.foundIpv4 = false ∧ found.foundIpv6 = false then none
  else
    let createCell ← createCellFromCreate2CellBody cell.create2
    return { found.cell with createCell := createCell }

/-- The policy that `extend_cell_parse` looks for before the end of the payload.
`before` is what the `cell_t` holds in front of the relay payload: its circuit
id, its command and the relay header. -/
def policyWindow (before : Bytes 16) (payload : List UInt8) : List UInt8 :=
  (before.val ++ payload).drop (16 + payload.length - (16 + delayPolicySize))

def extendCellParse (before : Bytes 16) (command : UInt8) (payload : List UInt8) :
    Result ExtendCell := do
  if payload.length > relayPayloadSize then .error .rejected
  let cell ←
    if command = relayCommandExtend then
      match extend1CellBodyParse payload with
      | none => .error .rejected
      | some body => .ok (extendCellFromExtend1CellBody body)
    else if command = relayCommandExtend2 then
      match (extend2CellBodyParse payload).bind extendCellFromExtend2CellBody with
      | none => .error .rejected
      | some cell => .ok cell
    else .error .rejected
  let window := policyWindow before payload
  let cell :=
    if window.take 16 = delayPolicyMagic.val then
      { cell with createCell := { cell.createCell with
          delayPolicyIsSet := true
          delayPolicy := fit delayPolicySize (bytesAt window 16 delayPolicySize) } }
    else { cell with createCell := { cell.createCell with delayPolicyIsSet := false } }
  if CheckExtendCell cell then .ok cell else .error .rejected

/-- The options that the formatting of extend cells reads, with the consensus
parameter `ExtendByEd25519ID`. -/
structure OnionOptions where
  extendByEd25519Id : Int
  extendByEd25519IdParam : Bool
  enforceDelayPolicy : Bool

def shouldIncludeEd25519IdExtendCells (options : OnionOptions) : Bool :=
  if options.extendByEd25519Id ≠ -1 then options.extendByEd25519Id ≠ 0
  else options.extendByEd25519IdParam

/-- The link specifiers of an EXTEND2 cell, in the order in which they are added. -/
def extend2Specifiers (options : OnionOptions) (cell : ExtendCell) : List LinkSpecifier :=
  (if torAddrPortIsValidAp cell.orportIpv4 then
      [.ipv4 (torAddrToIpv4h cell.orportIpv4.addr) cell.orportIpv4.port]
    else []) ++
  [.legacyId cell.nodeId] ++
  (if shouldIncludeEd25519IdExtendCells options ∧ cell.edPubkey ≠ fit 32 [] then
      [.ed25519Id cell.edPubkey]
    else []) ++
  (if torAddrPortIsValidAp cell.orportIpv6 then
      [.ipv6 (torAddrCopyIpv6Bytes cell.orportIpv6.addr) cell.orportIpv6.port]
    else [])

/-- The part of `extend_cell_format` that comes before the policy: the command and
the first `len_out` bytes of the payload. A `handshake_len` above the size of
the onionskin array makes the source read past the array and then fail, since
no payload has that much room; here the data is too short and the encoder fails. -/
def extendCellBody (options : OnionOptions) (cell : ExtendCell) : Result (UInt8 × List UInt8) :=
  let createCell := cell.createCell
  if cell.cellType = relayCommandExtend then
    if createCell.handshakeType = onionHandshakeTypeNtorV3 then .error .rejected
    else
      let onionskin :=
        if createCell.handshakeType = onionHandshakeTypeNtor then
          ntorCreateMagic.val ++ bytesAt createCell.onionskin.val 0 ntorOnionskinLen
        else bytesAt createCell.onionskin.val 0 tapOnionskinChallengeLen
      .ok (relayCommandExtend,
        be32 (torAddrToIpv4h cell.orportIpv4.addr) ++ be16 cell.orportIpv4.port ++
          (fit tapOnionskinChallengeLen onionskin).val ++ cell.nodeId.val)
  else if cell.cellType = relayCommandExtend2 then
    let ls := extend2Specifiers options cell
    let handshakeData := bytesAt createCell.onionskin.val 0 createCell.handshakeLen.toNat
    match extend2CellBodyEncode relayPayloadSize ⟨UInt8.ofNat ls.length, ls,
        ⟨createCell.handshakeType, createCell.handshakeLen, handshakeData⟩⟩ with
    | none => .error .rejected
    | some payload => .ok (relayCommandExtend2, payload)
  else .error .rejected

/-- Whether `extend_cell_format` appends the policy. -/
def OnionOptions.emitsPolicy (options : OnionOptions) (delayPolicy : RawPolicy) : Bool :=
  options.enforceDelayPolicy || delayPolicy.mode != 0

def extendCellFormat (options : OnionOptions) (cell : ExtendCell) (delayPolicy : RawPolicy) :
    Result (UInt8 × List UInt8) :=
  if ¬ CheckExtendCell cell then .error .rejected
  else do
    let (command, body) ← extendCellBody options cell
    if options.emitsPolicy delayPolicy then
      if body.length + 16 + delayPolicySize > relayPayloadSize then .error .rejected
      else .ok (command, body ++ delayPolicyMagic.val ++ delayPolicy.val)
    else .ok (command, body)

/-! ## Created and extended cells -/

structure CreatedCell where
  cellType : UInt8
  handshakeLen : UInt16
  reply : Bytes replySize
  delayPolicyIsSet : Bool
  deriving DecidableEq

structure ExtendedCell where
  cellType : UInt8
  createdCell : CreatedCell
  deriving DecidableEq

def CheckCreatedCell (cell : CreatedCell) : Prop :=
  if cell.cellType = cellCreated then
    cell.handshakeLen.toNat = tapOnionskinReplyLen ∨ cell.handshakeLen.toNat = ntorReplyLen
  else if cell.cellType = cellCreatedFast then cell.handshakeLen.toNat = createdFastLen
  else if cell.cellType = cellCreated2 then cell.handshakeLen.toNat ≤ relayPayloadSize - 2
  else True

instance (cell : CreatedCell) : Decidable (CheckCreatedCell cell) := by
  unfold CheckCreatedCell
  infer_instance

def createdCellParse (command : UInt8) (payload : CellPayload) : Result CreatedCell := do
  let (handshakeLen, offset) ←
    if command = cellCreated then .ok (UInt16.ofNat tapOnionskinReplyLen, 0)
    else if command = cellCreatedFast then .ok (UInt16.ofNat createdFastLen, 0)
    else if command = cellCreated2 then
      let handshakeLen := getUint16 (bytesAt payload.val 0 2)
      if handshakeLen.toNat > cellPayloadSize - 2 then .error .rejected
      else .ok (handshakeLen, 2)
    else .error .rejected
  let dprmOffset := offset + handshakeLen.toNat
  if dprmOffset + 16 > cellPayloadSize then .error .rejected
  let cell : CreatedCell :=
    { cellType := command
      handshakeLen := handshakeLen
      reply := fit replySize (bytesAt payload.val offset handshakeLen.toNat)
      delayPolicyIsSet := bytesAt payload.val dprmOffset 16 = delayPolicyResponseMagic.val }
  if CheckCreatedCell cell then .ok cell else .error .rejected

/-- `created_cell_format`: the command and the payload of the cell. -/
def createdCellFormat (cell : CreatedCell) : Result (UInt8 × CellPayload) :=
  if ¬ CheckCreatedCell cell then .error .rejected
  else do
    let reply := bytesAt cell.reply.val 0 cell.handshakeLen.toNat
    let body ←
      if cell.cellType = cellCreated ∨ cell.cellType = cellCreatedFast then do
        torAssert (cell.handshakeLen.toNat ≤ cellPayloadSize)
        .ok reply
      else if cell.cellType = cellCreated2 then do
        torAssert (cell.handshakeLen.toNat ≤ cellPayloadSize - 2)
        .ok (be16 cell.handshakeLen ++ reply)
      else .error .rejected
    if cell.delayPolicyIsSet then
      torAssert (body.length + 16 ≤ cellPayloadSize)
      .ok (cell.cellType, fit cellPayloadSize (body ++ delayPolicyResponseMagic.val))
    else .ok (cell.cellType, fit cellPayloadSize body)

def CheckExtendedCell (cell : ExtendedCell) : Prop :=
  (if cell.createdCell.cellType = cellCreated then cell.cellType = relayCommandExtended
    else if cell.createdCell.cellType = cellCreated2 then cell.cellType = relayCommandExtended2
    else False) ∧
  CheckCreatedCell cell.createdCell

instance (cell : ExtendedCell) : Decidable (CheckExtendedCell cell) :=
  inferInstanceAs (Decidable (_ ∧ _))

/-- The relay payload of a cell, as `extended_cell_parse` reads it: all of it, with
the length from the relay header. -/
structure RelayPayload where
  bytes : Bytes relayPayloadSize
  length : UInt16

/-- `payload_len - 2` of a `size_t`. -/
def sizeSub2 (payloadLen : Nat) : Nat := (payloadLen + 2 ^ 64 - 2) % 2 ^ 64

def extendedCellParse (command : UInt8) (payload : RelayPayload) : Result ExtendedCell := do
  let payloadLen := payload.length.toNat
  if payloadLen > relayPayloadSize then .error .rejected
  let (cellType, handshakeLen, offset) ←
    if command = relayCommandExtended then
      if payloadLen ≠ tapOnionskinReplyLen then .error .rejected
      else .ok (cellCreated, UInt16.ofNat tapOnionskinReplyLen, 0)
    else if command = relayCommandExtended2 then
      let handshakeLen := getUint16 (bytesAt payload.bytes.val 0 2)
      if handshakeLen.toNat > relayPayloadSize - 2 ∨
          handshakeLen.toNat > sizeSub2 payloadLen then .error .rejected
      else .ok (cellCreated2, handshakeLen, 2)
    else .error .rejected
  let dprmOffset := offset + handshakeLen.toNat
  if dprmOffset + 16 > relayPayloadSize then .error .rejected
  let cell : ExtendedCell :=
    { cellType := command
      createdCell :=
        { cellType := cellType
          handshakeLen := handshakeLen
          reply := fit replySize (bytesAt payload.bytes.val offset handshakeLen.toNat)
          delayPolicyIsSet :=
            bytesAt payload.bytes.val dprmOffset 16 = delayPolicyResponseMagic.val } }
  if CheckExtendedCell cell then .ok cell else .error .rejected

/-- `extended_cell_format`: the command and the first `len_out` bytes of the payload. -/
def extendedCellFormat (cell : ExtendedCell) : Result (UInt8 × List UInt8) :=
  if ¬ CheckExtendedCell cell then .error .rejected
  else do
    let created := cell.createdCell
    let body ←
      if cell.cellType = relayCommandExtended then
        .ok (bytesAt created.reply.val 0 tapOnionskinReplyLen)
      else if cell.cellType = relayCommandExtended2 then
        if 2 + created.handshakeLen.toNat > relayPayloadSize then .error .rejected
        else .ok (be16 created.handshakeLen ++ bytesAt created.reply.val 0
          created.handshakeLen.toNat)
      else .error .rejected
    if created.delayPolicyIsSet then
      if body.length + 16 > relayPayloadSize then .error .rejected
      else .ok (cell.cellType, body ++ delayPolicyResponseMagic.val)
    else .ok (cell.cellType, body)

/-! ## Relaying the answer -/

def cellPaddingGap : Nat := 4

/-- The relay payload that carries the first `len` bytes `payload`, as
`relay_send_command_from_edge_` fills it: `pad_cell_payload` leaves a gap of
zeros behind them, and random bytes after it. -/
def RelayPayload.packed (payload padding : List UInt8) : RelayPayload where
  bytes := fit relayPayloadSize (payload ++ (List.replicate cellPaddingGap 0 ++ padding))
  length := UInt16.ofNat payload.length

/-- The extended cell that `command_process_created_cell` makes of a created cell. -/
def extendedCellOfCreated (created : CreatedCell) : ExtendedCell where
  cellType :=
    if created.cellType = cellCreated2 then relayCommandExtended2 else relayCommandExtended
  createdCell := created

/-- The way of an answer from the hop that gives it over the previous hop to the client. -/
def returnHandshake (cell : CreatedCell) (padding : List UInt8) : Result CreatedCell := do
  let (cellCommand, cellPayload) ← createdCellFormat cell
  let created ← createdCellParse cellCommand cellPayload
  let (command, payload) ← extendedCellFormat (extendedCellOfCreated created)
  let extended ← extendedCellParse command (RelayPayload.packed payload padding)
  return extended.createdCell

end RendezMix.Source

/-!
# What the parsers of `core/or/onion.c` read

The parsers of create, extend and extended cells once more, with the indices of the payload that
they read: `memcpy` and `tor_memeq` read all the bytes of their length. The parser of the body of an
extend cell is given the payload and its length, and may read all of it.
-/
namespace RendezMix.Source
open Library.ByteStrings Library.MemoryReads

/-- The policy that both `create_cell_init` and `extend_cell_parse` look for at an offset. -/
def delayPolicyReading (p : Pointer) (offset : Nat) : Recording (Option RawPolicy) := do
  let magic ← p.read offset 16
  if magic = delayPolicyMagic.val then
    (fun policy => some (fit delayPolicySize policy)) <$> p.read (offset + 16) delayPolicySize
  else pure none

/-! ## Create cells -/

/-- `create_cell_init`. -/
def createCellInitReading (cellType : UInt8) (handshakeType handshakeLen : UInt16)
    (onionskin : Pointer) : Recording CreateCell := do
  let bytes ← onionskin.read 0 handshakeLen.toNat
  let policy ← delayPolicyReading onionskin handshakeLen.toNat
  return {
    cellType := cellType
    handshakeType := handshakeType
    handshakeLen := handshakeLen
    onionskin := fit onionskinSize bytes
    delayPolicyIsSet := policy.isSome
    delayPolicy := policy.getD (fit delayPolicySize []) }

/-- `parse_create2_payload`, with a `p_len` of `CELL_PAYLOAD_SIZE`. -/
def parseCreate2PayloadReading (p : Pointer) : Recording (Result CreateCell) := do
  let handshakeType := getUint16 (← p.read 0 2)
  let handshakeLen := getUint16 (← p.read 2 2)
  if handshakeLen.toNat > cellPayloadSize - 4 then pure (.error .rejected)
  else if handshakeType = onionHandshakeTypeFast then pure (.error .rejected)
  else .ok <$> createCellInitReading cellCreate2 handshakeType handshakeLen (p.advance 4)

/-- The `switch` of `create_cell_parse`. -/
def createCellReading (command : UInt8) (p : Pointer) : Recording (Result CreateCell) :=
  if command = cellCreate then do
    let magic ← p.read 0 16
    if magic = ntorCreateMagic.val then
      .ok <$> createCellInitReading cellCreate onionHandshakeTypeNtor
        (UInt16.ofNat ntorOnionskinLen) (p.advance 16)
    else
      .ok <$> createCellInitReading cellCreate onionHandshakeTypeTap
        (UInt16.ofNat tapOnionskinChallengeLen) p
  else if command = cellCreateFast then
    .ok <$> createCellInitReading cellCreateFast onionHandshakeTypeFast
      (UInt16.ofNat createFastLen) p
  else if command = cellCreate2 then parseCreate2PayloadReading p
  else pure (.error .rejected)

/-- The pointer to the payload of a cell; `memory` is what comes after it. -/
def cellPointer (payload : CellPayload) (memory : List UInt8) : Pointer :=
  ⟨payload.val ++ memory, 0⟩

/-- `create_cell_parse`. -/
def createCellParseReading (command : UInt8) (payload : CellPayload) (memory : List UInt8) :
    Recording (Result CreateCell) := do
  let parsed ← createCellReading command (cellPointer payload memory)
  return do
    let cell ← parsed
    if CheckCreateCell cell false then .ok cell else .error .rejected

/-! ## Extend cells -/

/-- The `switch` of `extend_cell_parse`. -/
def extendCellBodyReading (command : UInt8) (p : Pointer) (payloadLength : Nat) :
    Recording (Option ExtendCell) :=
  if command = relayCommandExtend then
    (fun body => (extend1CellBodyParse body).map extendCellFromExtend1CellBody) <$>
      p.read 0 payloadLength
  else if command = relayCommandExtend2 then
    (fun body => (extend2CellBodyParse body).bind extendCellFromExtend2CellBody) <$>
      p.read 0 payloadLength
  else pure none

/-- The pointer to the bytes before a relay payload, whose own first byte has the index zero. -/
def relayPointer (before : Bytes 16) (payload : List UInt8) : Pointer :=
  ⟨before.val ++ payload, -16⟩

/-- `extend_cell_parse`. A body that is read has 35 bytes at least, so the 16 bytes before the payload
are enough to look for the policy. -/
def extendCellParseReading (before : Bytes 16) (command : UInt8) (payload : List UInt8) :
    Recording (Result ExtendCell) := do
  let p := relayPointer before payload
  if payload.length > relayPayloadSize then pure (.error .rejected)
  else
    match ← extendCellBodyReading command (p.advance 16) payload.length with
    | none => pure (.error .rejected)
    | some cell =>
      let policy ← delayPolicyReading p (16 + payload.length - (16 + delayPolicySize))
      let cell := { cell with createCell := { cell.createCell with
        delayPolicyIsSet := policy.isSome
        delayPolicy := policy.getD cell.createCell.delayPolicy } }
      return if CheckExtendCell cell then .ok cell else .error .rejected

/-! ## Extended cells -/

/-- The `switch` of `extended_cell_parse`: the type of the created cell, with the length of the
handshake and its offset. -/
def extendedCellReading (command : UInt8) (p : Pointer) (payloadLen : Nat) :
    Recording (Option (UInt8 × UInt16 × Nat × List UInt8)) :=
  if command = relayCommandExtended then
    if payloadLen ≠ tapOnionskinReplyLen then pure none
    else
      (fun reply => some (cellCreated, UInt16.ofNat tapOnionskinReplyLen, 0, reply)) <$>
        p.read 0 tapOnionskinReplyLen
  else if command = relayCommandExtended2 then do
    let handshakeLen := getUint16 (← p.read 0 2)
    if handshakeLen.toNat > relayPayloadSize - 2 ∨
        handshakeLen.toNat > sizeSub2 payloadLen then pure none
    else
      (fun reply => some (cellCreated2, handshakeLen, 2, reply)) <$>
        p.read 2 handshakeLen.toNat
  else pure none

/-- `extended_cell_parse`. -/
def extendedCellParseReading (command : UInt8) (payload : RelayPayload) :
    Recording (Result ExtendedCell) := do
  let p : Pointer := ⟨payload.bytes.val, 0⟩
  let payloadLen := payload.length.toNat
  if payloadLen > relayPayloadSize then pure (.error .rejected)
  else
    match ← extendedCellReading command p payloadLen with
    | none => pure (.error .rejected)
    | some (cellType, handshakeLen, offset, reply) =>
      let dprmOffset := offset + handshakeLen.toNat
      if dprmOffset + 16 > relayPayloadSize then pure (.error .rejected)
      else
        let magic ← p.read dprmOffset 16
        let cell : ExtendedCell :=
          { cellType := command
            createdCell :=
              { cellType := cellType
                handshakeLen := handshakeLen
                reply := fit replySize reply
                delayPolicyIsSet := magic = delayPolicyResponseMagic.val } }
        return if CheckExtendedCell cell then .ok cell else .error .rejected

end RendezMix.Source
