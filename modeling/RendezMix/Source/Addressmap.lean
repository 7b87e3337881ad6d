import RendezMix.Library.KeyedLists
import RendezMix.Library.Runs
import RendezMix.Source.Address
import RendezMix.Source.Binascii
import RendezMix.Source.Strings

/-!
# The address map

The map of addresses and its reverse map for virtual addresses of `feature/client/addressmap.c`.
What parses and prints an address is a parameter, as are the bytes that `crypto_rand` gives. A call
that reads what is missing or freed, or whose assertion fails, halts. A hash table gives its entries
in some order, with which a call that walks it is given.
-/
namespace RendezMix.Source.Addressmap
open Library ByteStrings Runs

/-! ## The maps -/

inductive AddressmapEntrySource
  | controller
  | automap
  | torrc
  | trackexit
  | dns
  deriving DecidableEq

structure AddressmapEntry where
  newAddress : Option CString
  expires : Int
  source : AddressmapEntrySource
  srcWildcard : Bool
  dstWildcard : Bool
  numResolveFailures : Nat
  deriving DecidableEq

/-- `virtaddress_entry_t`, and whether it has been freed. -/
structure VirtaddressEntry where
  ipv4Address : Option CString
  ipv6Address : Option CString
  hostnameAddress : Option CString
  freed : Bool
  deriving DecidableEq

structure Addressmaps where
  addressmap : List (CString × AddressmapEntry)
  virtaddressReversemap : List (CString × VirtaddressEntry)
  deriving DecidableEq

def addressmapInit : Addressmaps := ⟨[], []⟩

/-- Why a call does not go on. -/
inductive Halt
  /-- A field of an entry of the reverse map is `NULL` and is read. -/
  | missingField
  /-- An entry of the reverse map is read after it has been freed. -/
  | freedEntry
  /-- A key of the map is read after it has been freed. -/
  | freedKey
  | nullAddress
  | assertion
  /-- It draws more random bytes than it was given. -/
  | drawing
  deriving DecidableEq

/-! ## Virtual addresses -/

/-- `tor_addr_parse` and `tor_addr_to_str`. -/
structure AddressText where
  torAddrParse : CString → Option TorAddr
  torAddrToStr : TorAddr → Bool → CString

structure VirtualAddrConf where
  addr : TorAddr
  bits : UInt8
  deriving DecidableEq

/-- The networks of virtual addresses, which `parse_virtual_addr_network` has checked. -/
structure VirtualNets where
  virtaddrConfIpv4 : VirtualAddrConf
  virtaddrConfIpv6 : VirtualAddrConf
  ipv4 : torAddrFamily virtaddrConfIpv4.addr = .inet ∧ virtaddrConfIpv4.bits ≤ 16
  ipv6 : torAddrFamily virtaddrConfIpv6.addr = .inet6 ∧ virtaddrConfIpv6.bits ≤ 104

variable (text : AddressText) (nets : VirtualNets)

def addressIsInVirtualRange (address : CString) : Bool :=
  if strCaseEndsWith address (textBytes ".virtual") then true
  else
    match text.torAddrParse address with
    | none => false
    | some addr =>
      let conf := if torAddrFamily addr = .inet6 then nets.virtaddrConfIpv6 else nets.virtaddrConfIpv4
      decide (torAddrCompareMasked addr conf.addr conf.bits .exact = 0)

/-- The bytes of an address of the virtual network in network order, and how many there are. -/
def addrBytes (conf : VirtualAddrConf) : List UInt8 :=
  if torAddrFamily conf.addr = .inet6 then (torAddrCopyIpv6Bytes conf.addr).val
  else be32 (torAddrToIpv4h conf.addr)

/-- Replace the first `bits` bits of some random bytes. -/
def replaceBits (bits : Nat) (addr bytes : List UInt8) : List UInt8 :=
  let bytes := addr.take (bits / 8) ++ bytes.drop (bits / 8)
  if bits % 8 = 0 then bytes
  else
    let mask : UInt8 := UInt8.ofNat (255 >>> (bits % 8))
    bytes.modify (bits / 8) fun byte => (byte &&& mask) ||| (addr.getD (bits / 8) 0 &&& ~~~mask)

def getRandomVirtualAddr (conf : VirtualAddrConf) (rand : Bytes 16) : Except Halt TorAddr :=
  let ipv6 := torAddrFamily conf.addr = .inet6
  let totalBytes := if ipv6 then 16 else 4
  if conf.bits.toNat ≤ totalBytes * 8 then
    let bytes := replaceBits conf.bits.toNat (addrBytes conf) (rand.val.take totalBytes)
    let addrOut := if ipv6 then .inet6 (fit 16 bytes) else .inet (getUint32 bytes)
    if torAddrCompareMasked addrOut conf.addr conf.bits .exact = 0 then .ok addrOut
    else .error .assertion
  else .error .assertion

def base32Chars : List UInt8 := textBytes "abcdefghijklmnopqrstuvwxyz234567"

def base32Encode (src : List UInt8) : CString :=
  (List.range ((src.length * 8 + 4) / 5)).map fun i =>
    let bit := i * 5
    let v := (src.getD (bit / 8) 0).toNat * 256 + (src.getD (bit / 8 + 1) 0).toNat
    base32Chars.getD ((v >>> (11 - bit % 8)) % 32) 0

/-- `RESOLVED_TYPE_...` -/
inductive ResolvedType
  | hostname
  | ipv4
  | ipv6
  | other
  deriving DecidableEq

/-- A name that `addressmap_get_virtual_address` tries. -/
def virtualHostname (rand : Bytes 16) : CString :=
  base32Encode (rand.val.take 10) ++ textBytes ".virtual"

/-- Try names until one is not mapped. -/
def drawHostname (addressmap : List (CString × AddressmapEntry)) :
    List (Bytes 16) → Except Halt (Option CString)
  | [] => .error .drawing
  | rand :: draws =>
    if KeyedMap.get addressmap (virtualHostname rand) = none then .ok (some (virtualHostname rand))
    else drawHostname addressmap draws

/-- Try addresses of a virtual network, not more often than there are attempts. -/
def drawAddress (addressmap : List (CString × AddressmapEntry)) (ipv6 : Bool) :
    Nat → List (Bytes 16) → Except Halt (Option CString)
  | 0, _ => .ok none
  | _ + 1, [] => .error .drawing
  | attempts + 1, rand :: draws => do
    let conf := if ipv6 then nets.virtaddrConfIpv6 else nets.virtaddrConfIpv4
    let addr ← getRandomVirtualAddr conf rand
    let low := torAddrToIpv4h addr &&& 255
    if ipv6 = false ∧ (low = 0 ∨ low = 255) then drawAddress addressmap ipv6 attempts draws
    else if KeyedMap.get addressmap (text.torAddrToStr addr true) = none then
      if KeyedMap.get addressmap (text.torAddrToStr addr false) = none then
        .ok (some (text.torAddrToStr addr true))
      else drawAddress addressmap ipv6 attempts draws
    else drawAddress addressmap ipv6 attempts draws

def addressmapGetVirtualAddress (addressmap : List (CString × AddressmapEntry)) (type : ResolvedType)
    (draws : List (Bytes 16)) : Except Halt (Option CString) :=
  match type with
  | .hostname => drawHostname addressmap draws
  | .ipv4 => drawAddress text nets addressmap false 1000 draws
  | .ipv6 => drawAddress text nets addressmap true 1000 draws
  | .other => .ok none

/-! ## Removing mappings -/

/-- Free a field of an entry of the reverse map if it is the address. -/
def clearField (address : Except Halt CString) (field : Option CString) :
    Except Halt (Option CString) := do
  let address ← address
  match field with
  | none => .error .missingField
  | some other => .ok (if address = other then none else some other)

/-- `addressmap_virtaddress_remove`; the address is read when it is compared. -/
def addressmapVirtaddressRemove (address : Except Halt CString) (ent : AddressmapEntry)
    (s : Addressmaps) : Except Halt Addressmaps :=
  match ent.newAddress with
  | none => .ok s
  | some newAddress =>
    if addressIsInVirtualRange text nets newAddress then
      match KeyedMap.get s.virtaddressReversemap newAddress with
      | none => .ok s
      | some ve =>
        if ve.freed then .error .freedEntry
        else do
          let ipv4Address ← clearField address ve.ipv4Address
          let ipv6Address ← clearField address ve.ipv6Address
          let hostnameAddress ← clearField address ve.hostnameAddress
          if ipv4Address = none ∧ ipv6Address = none ∧ hostnameAddress = none then
            .ok { s with virtaddressReversemap := KeyedMap.erase s.virtaddressReversemap newAddress }
          else
            .ok { s with
              virtaddressReversemap := KeyedMap.set s.virtaddressReversemap newAddress
                ⟨ipv4Address, ipv6Address, hostnameAddress, false⟩ }
    else .ok s

/-- `addressmap_ent_remove`; its caller takes the entry out of the map. -/
def addressmapEntRemove (address : Except Halt CString) (ent : AddressmapEntry) (s : Addressmaps) :
    Except Halt Addressmaps :=
  addressmapVirtaddressRemove text nets address ent s

/-- A key of the map as it is read where it has been freed, and where it has not. -/
def keyRead (keyFreed : Bool) (address : CString) : Except Halt CString :=
  if keyFreed then .error .freedKey else .ok address

/-- The loops that remove the entries for which `gone` holds. `addressmap_get_mappings` takes an
entry out of the map, and frees its key, before it uses both. -/
def removeWhere (keyFreed : Bool) (gone : CString → AddressmapEntry → Except Halt Bool) :
    List (CString × AddressmapEntry) → Addressmaps → Except Halt Addressmaps
  | [], s => .ok s
  | (address, ent) :: rest, s =>
    match gone address ent with
    | .error halt => .error halt
    | .ok false => removeWhere keyFreed gone rest s
    | .ok true =>
      match addressmapEntRemove text nets (keyRead keyFreed address) ent s with
      | .error halt => .error halt
      | .ok s =>
        removeWhere keyFreed gone rest { s with addressmap := KeyedMap.erase s.addressmap address }

/-- The test of `clear_trackexithost_mappings`. -/
def trackexitGone (suffix : CString) (_ : CString) (ent : AddressmapEntry) : Except Halt Bool :=
  if ent.source = .trackexit then
    match ent.newAddress with
    | none => .error .nullAddress
    | some newAddress => .ok (strEndsWith newAddress suffix)
  else .ok false

/-- What the targets end with that `clear_trackexithost_mappings` looks for. -/
def exitSuffix (exitname : CString) : CString :=
  torStrlower (textBytes "." ++ exitname ++ textBytes ".exit")

def clearTrackexithostMappings (exitname : Option CString) (order : List (CString × AddressmapEntry))
    (s : Addressmaps) : Except Halt Addressmaps :=
  match exitname with
  | none => .ok s
  | some exitname => removeWhere text nets false (trackexitGone (exitSuffix exitname)) order s

/-- What is read of the options. -/
structure AutomapOptions where
  automapHostsOnResolve : Bool
  automapHostsSuffixes : Option (List CString)

def addressmapAddressShouldAutomap (address : CString) (options : AutomapOptions) : Bool :=
  match options.automapHostsSuffixes with
  | none => false
  | some suffixList =>
    suffixList.any fun suffix => suffix = textBytes "." || strCaseEndsWith address suffix

/-- The test of `addressmap_clear_invalid_automaps`. -/
def automapGone (options : AutomapOptions) (srcAddress : CString) (ent : AddressmapEntry) :
    Except Halt Bool :=
  let clearAll := !options.automapHostsOnResolve || options.automapHostsSuffixes.isNone
  if ent.source ≠ .automap then .ok false
  else if clearAll || !addressmapAddressShouldAutomap srcAddress options then .ok true
  else
    match ent.newAddress with
    | none => .error .assertion
    | some newAddress => .ok (!addressIsInVirtualRange text nets newAddress)

def addressmapClearInvalidAutomaps (options : AutomapOptions)
    (order : List (CString × AddressmapEntry)) (s : Addressmaps) : Except Halt Addressmaps :=
  removeWhere text nets false (automapGone text nets options) order s

/-- The test of `addressmap_get_mappings`. -/
def expiresGone (minExpires maxExpires : Int) (_ : CString) (ent : AddressmapEntry) :
    Except Halt Bool :=
  .ok (decide (minExpires ≤ ent.expires ∧ ent.expires ≤ maxExpires))

/-- `addressmap_get_mappings` without a list. -/
def addressmapGetMappings (minExpires maxExpires : Int) (order : List (CString × AddressmapEntry))
    (s : Addressmaps) : Except Halt Addressmaps :=
  removeWhere text nets true (expiresGone minExpires maxExpires) order s

def timeMax : Int := 2 ^ 63 - 1

def addressmapClearConfigured (order : List (CString × AddressmapEntry)) (s : Addressmaps) :
    Except Halt Addressmaps :=
  addressmapGetMappings text nets 0 0 order s

def addressmapClearTransient (order : List (CString × AddressmapEntry)) (s : Addressmaps) :
    Except Halt Addressmaps :=
  addressmapGetMappings text nets 2 timeMax order s

def addressmapClean (now : Int) (order : List (CString × AddressmapEntry)) (s : Addressmaps) :
    Except Halt Addressmaps :=
  addressmapGetMappings text nets 2 now order s

/-! ## Registering mappings -/

/-- What `addressmap_register` is called with, besides the two addresses. -/
structure Registration where
  expires : Int
  source : AddressmapEntrySource
  wildcardAddr : Bool
  wildcardNewAddr : Bool

/-- The entry that `addressmap_register` leaves. -/
def Registration.entry (reg : Registration) (newAddress : CString) : AddressmapEntry where
  newAddress := some newAddress
  expires := if reg.expires = 2 then 1 else reg.expires
  source := reg.source
  srcWildcard := reg.wildcardAddr
  dstWildcard := reg.wildcardNewAddr
  numResolveFailures := 0

/-- What the address is to be mapped to; without it a mapping is to be removed. -/
def mapsTo (address : CString) (newAddress : Option CString) (reg : Registration) : Option CString :=
  newAddress.filter fun newAddress =>
    !(decide (SameCase address newAddress) && reg.wildcardAddr == reg.wildcardNewAddr)

def addressmapRegister (address : CString) (newAddress : Option CString) (reg : Registration)
    (s : Addressmaps) : Except Halt Addressmaps :=
  if reg.wildcardNewAddr = true ∧ reg.wildcardAddr = false then .error .assertion
  else
    match KeyedMap.get s.addressmap address, mapsTo address newAddress reg with
    | none, none => .ok s
    | some ent, none => do
      let s ← addressmapEntRemove text nets (.ok address) ent s
      .ok { s with addressmap := KeyedMap.erase s.addressmap address }
    | found, some newAddress =>
      let set (s : Addressmaps) : Addressmaps :=
        { s with addressmap := KeyedMap.set s.addressmap address (reg.entry newAddress) }
      match found.bind AddressmapEntry.newAddress, found with
      | some oldAddress, some ent =>
        if reg.expires > 1 then .ok s
        else if addressIsInVirtualRange text nets oldAddress = true ∧ reg.expires ≠ 2 then do
          let s ← addressmapVirtaddressRemove text nets (.ok address) ent s
          .ok (set s)
        else .ok (set s)
      -- A new entry, or one whose address is still being resolved.
      | _, _ => .ok (set s)

/-- The field of an entry for a type of address. -/
def VirtaddressEntry.field (ve : VirtaddressEntry) : ResolvedType → Option CString
  | .ipv4 => ve.ipv4Address
  | .ipv6 => ve.ipv6Address
  | .hostname | .other => ve.hostnameAddress

def VirtaddressEntry.setField (ve : VirtaddressEntry) (type : ResolvedType)
    (address : Option CString) : VirtaddressEntry :=
  match type with
  | .ipv4 => { ve with ipv4Address := address }
  | .ipv6 => { ve with ipv6Address := address }
  | .hostname | .other => { ve with hostnameAddress := address }

/-- The call of `addressmap_register` for a virtual address. -/
def virtualRegistration : Registration := ⟨2, .automap, false, false⟩

/-- The virtual address of the entry is still mapped to the address. -/
def stillMapped (newAddress : CString) (field : Option CString) (s : Addressmaps) : Option CString :=
  match field with
  | none => none
  | some virtualAddress =>
    match (KeyedMap.get s.addressmap virtualAddress).bind AddressmapEntry.newAddress with
    | none => none
    | some target => if SameCase newAddress target then some virtualAddress else none

def addressmapRegisterVirtualAddress (type : ResolvedType) (newAddress : CString)
    (draws : List (Bytes 16)) (s : Addressmaps) : Except Halt (Addressmaps × Option CString) :=
  let found := KeyedMap.get s.virtaddressReversemap newAddress
  let vent := found.getD ⟨none, none, none, false⟩
  if vent.freed then .error .freedEntry
  else
    match stillMapped newAddress (vent.field type) s with
    | some virtualAddress => if found = none then .error .assertion else .ok (s, some virtualAddress)
    | none =>
      match addressmapGetVirtualAddress text nets s.addressmap type draws with
      | .error halt => .error halt
      | .ok none =>
        match found with
        | none => .ok (s, none)
        | some _ =>
          -- The entry is freed, but stays in the reverse map.
          .ok ({ s with
            virtaddressReversemap := KeyedMap.set s.virtaddressReversemap newAddress
              { vent.setField type none with freed := true } }, none)
      | .ok (some virtualAddress) => do
        let s ← addressmapRegister text nets virtualAddress (some newAddress) virtualRegistration
          { s with
            virtaddressReversemap := KeyedMap.set s.virtaddressReversemap newAddress
              (vent.setField type (some virtualAddress)) }
        .ok (s, some virtualAddress)

def shrtMax : Nat := 32767

def maxDnsEntryAge : Int := 3 * 60 * 60

def clientDnsIncrFailures (address : CString) (now : Int) (s : Addressmaps) : Addressmaps :=
  let ent :=
    (KeyedMap.get s.addressmap address).getD ⟨none, now + maxDnsEntryAge, .controller, false, false, 0⟩
  let failures :=
    if ent.numResolveFailures < shrtMax then ent.numResolveFailures + 1 else ent.numResolveFailures
  { s with addressmap := KeyedMap.set s.addressmap address { ent with numResolveFailures := failures } }

/-! ## Runs -/

inductive AddressmapEvent
  | register (address : CString) (newAddress : Option CString) (reg : Registration)
  | registerVirtual (type : ResolvedType) (newAddress : CString) (draws : List (Bytes 16))
  | clearTrackexithost (exitname : Option CString) (order : List (CString × AddressmapEntry))
  | clearInvalidAutomaps (options : AutomapOptions) (order : List (CString × AddressmapEntry))
  | clearConfigured (order : List (CString × AddressmapEntry))
  | clearTransient (order : List (CString × AddressmapEntry))
  | clean (now : Int) (order : List (CString × AddressmapEntry))
  | resolveFailed (address : CString) (now : Int)

/-- The new state, or why the call halted. -/
def addressmapStep (s : Addressmaps) : AddressmapEvent → Except Halt Addressmaps
  | .register address newAddress reg => addressmapRegister text nets address newAddress reg s
  | .registerVirtual type newAddress draws =>
    (addressmapRegisterVirtualAddress text nets type newAddress draws s).map Prod.fst
  | .clearTrackexithost exitname order => clearTrackexithostMappings text nets exitname order s
  | .clearInvalidAutomaps options order => addressmapClearInvalidAutomaps text nets options order s
  | .clearConfigured order => addressmapClearConfigured text nets order s
  | .clearTransient order => addressmapClearTransient text nets order s
  | .clean now order => addressmapClean text nets now order s
  | .resolveFailed address now => .ok (clientDnsIncrFailures address now s)

/-- What a call needs: a table is walked in some order, and a wildcard is put only in the place of
one. -/
def PossibleNow (s : Addressmaps) : AddressmapEvent → Prop
  | .register _ _ reg => reg.wildcardNewAddr = true → reg.wildcardAddr = true
  | .clearTrackexithost _ order | .clearInvalidAutomaps _ order | .clearConfigured order
  | .clearTransient order | .clean _ order => order.Perm s.addressmap
  | .registerVirtual _ _ _ | .resolveFailed _ _ => True

/-- One call, with the networks that are configured at the time. -/
structure AddressmapCall where
  nets : VirtualNets
  event : AddressmapEvent
  /-- Why the call halted, if it did. -/
  halted : Option Halt

/-- A call that has halted leaves the state as it was; one that is still drawing is no step. -/
def AddressmapStep (s : Addressmaps) (call : AddressmapCall) (s' : Addressmaps) : Prop :=
  PossibleNow s call.event ∧
    match addressmapStep text call.nets s call.event with
    | .ok after => call.halted = none ∧ s' = after
    | .error halt => halt ≠ .drawing ∧ call.halted = some halt ∧ s' = s

end RendezMix.Source.Addressmap
