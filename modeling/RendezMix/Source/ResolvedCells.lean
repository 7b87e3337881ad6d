import RendezMix.Source.Onion

/-!
# Resolved cells

`resolved_cell_parse` of `core/or/relay.c`, with the indices of the relay payload that it
reads, and the encoding of addresses that both ends of a circuit use.
-/
namespace RendezMix.Source
open Library.ByteStrings Library.MemoryReads

def resolvedTypeHostname : UInt8 := 0
def resolvedTypeIpv4 : UInt8 := 4
def resolvedTypeIpv6 : UInt8 := 6
def resolvedTypeErrorTransient : UInt8 := 0xF0
def resolvedTypeError : UInt8 := 0xF1

structure AddressTtl where
  addr : TorAddr
  hostname : Option (List UInt8)
  ttl : Int32
  deriving DecidableEq

/-- The branches on the type of an answer, with `cp` behind the length: how far `cp` moves
on, and the results and the error code with this answer. -/
def resolvedAnswerParse (cp : Pointer) (answerType answerLen : UInt8) (addrs : List AddressTtl)
    (errcode : UInt8) : Recording (Result (Nat × List AddressTtl × UInt8)) :=
  if answerType = resolvedTypeIpv4 then
    if answerLen ≠ 4 then pure (.error .rejected)
    else do
      let addr ← cp.read 0 4
      let ttl ← cp.read 4 4
      return .ok (4 + 4, addrs ++ [⟨.inet (getUint32 addr), none, (getUint32 ttl).toInt32⟩],
        errcode)
  else if answerType = resolvedTypeIpv6 then
    if answerLen ≠ 16 then pure (.error .rejected)
    else do
      let addr ← cp.read 0 16
      let ttl ← cp.read 16 4
      return .ok (16 + 4, addrs ++ [⟨.inet6 (fit 16 addr), none, (getUint32 ttl).toInt32⟩],
        errcode)
  else if answerType = resolvedTypeHostname then
    if answerLen = 0 then pure (.error .rejected)
    else do
      let hostname ← cp.read 0 answerLen.toNat
      let ttl ← cp.read answerLen.toNat 4
      return .ok (answerLen.toNat + 4,
        addrs ++ [⟨.unspec, some hostname, (getUint32 ttl).toInt32⟩], errcode)
  else if answerType = resolvedTypeErrorTransient ∨ answerType = resolvedTypeError then
    pure (.ok (answerLen.toNat + 4, addrs, answerType))
  else pure (.ok (answerLen.toNat + 4, addrs, errcode))

/-- The loop of `resolved_cell_parse`. -/
def resolvedAnswersParse (cp : Pointer) (remaining : Nat) (addrs : List AddressTtl)
    (errcode : UInt8) : Recording (Result (List AddressTtl × UInt8)) :=
  if remaining = 0 then pure (.ok (addrs, errcode))
  else if remaining < 2 then pure (.error .rejected)
  else do
    let answerType := (← cp.read 0 1).headD 0
    let answerLen := (← cp.read 1 1).headD 0
    if remaining < 2 + answerLen.toNat + 4 then pure (.error .rejected)
    else
      match ← resolvedAnswerParse (cp.advance 2) answerType answerLen addrs errcode with
      | .error failure => pure (.error failure)
      | .ok (moved, addrs, errcode) =>
        if remaining < 2 + moved then pure (.error .assertion)
        else
          resolvedAnswersParse (cp.advance (2 + moved)) (remaining - (2 + moved)) addrs errcode
termination_by remaining

/-- What `resolved_cell_parse` returns and sets. -/
structure ResolvedCellParse where
  rv : Int
  addressesOut : List AddressTtl
  errcodeOut : UInt8
  deriving DecidableEq

/-- `resolved_cell_parse`; `memory` is what comes after the relay payload, and a failed
assertion is nothing. -/
def resolvedCellParse (payload : Bytes relayPayloadSize) (memory : List UInt8) (length : UInt16)
    (addressesOut : List AddressTtl) : Recording (Option ResolvedCellParse) :=
  if length.toNat > relayPayloadSize then
    pure (some { rv := -1, addressesOut := addressesOut, errcodeOut := 0 })
  else do
    match ← resolvedAnswersParse ⟨payload.val ++ memory, 0⟩ length.toNat [] 0 with
    | .ok (addrs, errcode) =>
      return some {
        rv := 0
        addressesOut := addressesOut ++ addrs
        errcodeOut := if errcode ≠ 0 ∧ addrs.length = 0 then errcode else 0 }
    | .error .rejected =>
      return some { rv := -1, addressesOut := addressesOut, errcodeOut := 0 }
    | .error .assertion => return none

/-! ## Addresses in a payload -/

/-- `append_address_to_payload`: the payload with the address written, and the number of
bytes that were. -/
def appendAddressToPayload (payloadOut : List UInt8) (addr : TorAddr) :
    Option (List UInt8 × Nat) :=
  match addr with
  | .inet a => some (resolvedTypeIpv4 :: 4 :: (be32 a ++ payloadOut.drop 6), 6)
  | .inet6 a => some (resolvedTypeIpv6 :: 16 :: (a.val ++ payloadOut.drop 18), 18)
  | _ => none

/-- `decode_address_from_payload`: the address, and the payload behind it. -/
def decodeAddressFromPayload (payload : List UInt8) (payloadLen : Nat) :
    Option (TorAddr × List UInt8) :=
  let addressType := payload.getD 0 0
  let addressLen := payload.getD 1 0
  if payloadLen < 2 then none
  else if payloadLen < 2 + addressLen.toNat then none
  else if addressType = resolvedTypeIpv4 then
    if addressLen ≠ 4 then none
    else some (.inet (getUint32 (bytesAt payload 2 4)), payload.drop (2 + addressLen.toNat))
  else if addressType = resolvedTypeIpv6 then
    if addressLen ≠ 16 then none
    else some (.inet6 (fit 16 (bytesAt payload 2 16)), payload.drop (2 + addressLen.toNat))
  else some (.unspec, payload.drop (2 + addressLen.toNat))

end RendezMix.Source
