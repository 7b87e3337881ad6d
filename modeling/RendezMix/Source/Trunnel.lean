import RendezMix.Library.ByteStrings

/-!
# Extend cell bodies

`trunnel/ed25519_cert.c`, from `create2_cell_body` to `extend2_cell_body`. An
encoder that runs out of room fails, and so does a parser that runs out of
input; input after the body is ignored. The field `ls_len` of a link specifier
is written back from the length of its body, so it is not kept.
-/
namespace RendezMix.Source
open Library.ByteStrings

structure Extend1CellBody where
  ipv4addr : UInt32
  port : UInt16
  onionskin : Bytes 186
  identity : Bytes 20
  deriving DecidableEq

structure Create2CellBody where
  handshakeType : UInt16
  handshakeLen : UInt16
  handshakeData : List UInt8
  deriving DecidableEq

def lsIpv4 : UInt8 := 0
def lsIpv6 : UInt8 := 1
def lsLegacyId : UInt8 := 2
def lsEd25519Id : UInt8 := 3

/-- `link_specifier_t`, by its `ls_type`. -/
inductive LinkSpecifier
  | ipv4 (addr : UInt32) (port : UInt16)
  | ipv6 (addr : Bytes 16) (port : UInt16)
  | legacyId (id : Bytes 20)
  | ed25519Id (id : Bytes 32)
  | unrecognized (lsType : UInt8) (body : List UInt8)
  deriving DecidableEq

structure Extend2CellBody where
  nSpec : UInt8
  ls : List LinkSpecifier
  create2 : Create2CellBody
  deriving DecidableEq

def extend1CellBodyParse (input : List UInt8) : Option Extend1CellBody := do
  let (ipv4addr, input) ← takeBytes 4 input
  let (port, input) ← takeBytes 2 input
  let (onionskin, input) ← takeBytes 186 input
  let (identity, _) ← takeBytes 20 input
  return ⟨getUint32 ipv4addr.val, getUint16 port.val, onionskin, identity⟩

/-- `create2_cell_body_encode`, without its limit. -/
def create2CellBodyEncode (obj : Create2CellBody) : Option (List UInt8) :=
  if obj.handshakeData.length ≠ obj.handshakeLen.toNat then none
  else some (be16 obj.handshakeType ++ be16 obj.handshakeLen ++ obj.handshakeData)

def create2CellBodyParse (input : List UInt8) : Option Create2CellBody := do
  let (handshakeType, input) ← takeBytes 2 input
  let (handshakeLen, input) ← takeBytes 2 input
  let (handshakeData, _) ← takeBytes (getUint16 handshakeLen.val).toNat input
  return ⟨getUint16 handshakeType.val, getUint16 handshakeLen.val, handshakeData.val⟩

def LinkSpecifier.lsType : LinkSpecifier → UInt8
  | .ipv4 .. => lsIpv4
  | .ipv6 .. => lsIpv6
  | .legacyId _ => lsLegacyId
  | .ed25519Id _ => lsEd25519Id
  | .unrecognized lsType _ => lsType

/-- The union of a link specifier. -/
def LinkSpecifier.body : LinkSpecifier → List UInt8
  | .ipv4 addr port => be32 addr ++ be16 port
  | .ipv6 addr port => addr.val ++ be16 port
  | .legacyId id => id.val
  | .ed25519Id id => id.val
  | .unrecognized _ body => body

/-- `link_specifier_encode`, without its limit. -/
def linkSpecifierEncode (obj : LinkSpecifier) : Option (List UInt8) :=
  if 255 < obj.body.length then none
  else some ([obj.lsType, UInt8.ofNat obj.body.length] ++ obj.body)

/-- The `switch` of `link_specifier_parse_into`: the union must fill the length
of the specifier. -/
def linkSpecifierOfBody (lsType : UInt8) (body : List UInt8) : Option LinkSpecifier :=
  if lsType = lsIpv4 then do
    let (addr, body) ← takeBytes 4 body
    let (port, body) ← takeBytes 2 body
    if body ≠ [] then none else some (.ipv4 (getUint32 addr.val) (getUint16 port.val))
  else if lsType = lsIpv6 then do
    let (addr, body) ← takeBytes 16 body
    let (port, body) ← takeBytes 2 body
    if body ≠ [] then none else some (.ipv6 addr (getUint16 port.val))
  else if lsType = lsLegacyId then do
    let (id, body) ← takeBytes 20 body
    if body ≠ [] then none else some (.legacyId id)
  else if lsType = lsEd25519Id then do
    let (id, body) ← takeBytes 32 body
    if body ≠ [] then none else some (.ed25519Id id)
  else some (.unrecognized lsType body)

/-- `link_specifier_parse`, with the input after the specifier. -/
def linkSpecifierParse (input : List UInt8) : Option (LinkSpecifier × List UInt8) :=
  match input with
  | lsType :: lsLen :: input => do
    let (body, input) ← takeBytes lsLen.toNat input
    let ls ← linkSpecifierOfBody lsType body.val
    return (ls, input)
  | _ => none

/-- The loop of `extend2_cell_body_parse_into`. -/
def linkSpecifiersParse : Nat → List UInt8 → Option (List LinkSpecifier × List UInt8)
  | 0, input => some ([], input)
  | n + 1, input => do
    let (ls, input) ← linkSpecifierParse input
    let (rest, input) ← linkSpecifiersParse n input
    return (ls :: rest, input)

def extend2CellBodyParse (input : List UInt8) : Option Extend2CellBody :=
  match input with
  | [] => none
  | nSpec :: input => do
    let (ls, input) ← linkSpecifiersParse nSpec.toNat input
    let create2 ← create2CellBodyParse input
    return ⟨nSpec, ls, create2⟩

/-- `extend2_cell_body_encode`. Each of its writes checks the room that is left,
so that it fails exactly when the whole does not fit. -/
def extend2CellBodyEncode (avail : Nat) (obj : Extend2CellBody) : Option (List UInt8) := do
  if obj.ls.length ≠ obj.nSpec.toNat then none
  let ls ← obj.ls.mapM linkSpecifierEncode
  let create2 ← create2CellBodyEncode obj.create2
  let output := obj.nSpec :: (ls.flatten ++ create2)
  if avail < output.length then none else some output

end RendezMix.Source
